import Lifecycle.Audit
import Lifecycle.Proofs.Evaluation

/-!
# Runs of activities

A session is used by activities: definitions are built and questioned, attachments are created and
operated, and the entity is committed or changed from outside. In every run an activity calls at
most the producer of one rule, once, and just where the rule is due; what comes out depends on the
answer to that call alone (`Activity.evaluates_freshly`). Creating an attachment calls what the
provider offers as its members, and evaluates no rule.
-/

namespace Lifecycle

open Act (Faithful Quiet CallsAmong)

/-! ## Calls of a provider -/

/-- The producer that stands in the place of a method. -/
def Member.producer? {α : Type} : Member α → Option Producer
  | .field (.producer p) => some p
  | _ => none

namespace Provider

variable {σ : Type}

/-- The producers that stand in the places of the provider's methods, in the order of use. -/
def members (p : Provider) : List Producer :=
  (p.definition.bind Member.producer?).toList ++
    ((p.labels.bind Member.producer?).toList ++ (p.actionLabels.bind Member.producer?).toList)

theorem calls_callMember {α : Type} (given : Datum → α) (capability : Capability)
    (member : Option (Member α)) (ps : Producers) (j : Journal) (s : σ) :
    ((callMember given capability member).run ps j s).2.1.calls =
      j.calls ++ (member.bind Member.producer?).toList := by
  cases member with
  | none => exact (List.append_nil _).symm
  | some m =>
    cases m with
    | method result => exact (List.append_nil _).symm
    | field value =>
      cases value with
      | producer p => exact Act.calls_bind_of_quiet fun _ => Act.quiet_pure _
      | _ => exact (List.append_nil _).symm

theorem callsAmong_obtainDefinition (p : Provider) :
    CallsAmong (p.obtainDefinition : Act σ Definition) p.members := by
  have hactions : CallsAmong (p.callActionLabels : Act σ Datum)
      (p.actionLabels.bind Member.producer?).toList :=
    Act.callsAmong_of_calls (calls_callMember _ _ _)
  refine Act.callsAmong_bind (calls_callMember _ _ _) fun given => ?_
  -- A finished definition is merged with the first table before the second is asked for.
  cases given with
  | definition d =>
    refine Act.callsAmong_bind (calls_callMember _ _ _) fun labels => ?_
    refine (Act.quiet_ofExcept _).callsAmong_bind fun _ => hactions.bind_quiet fun _ => ?_
    exact (Act.quiet_ofExcept _).bind fun _ => Act.quiet_pure _
  | document document =>
    refine Act.callsAmong_bind (calls_callMember _ _ _) fun labels => ?_
    exact hactions.bind_quiet fun _ => Act.quiet_ofExcept _

end Provider

/-- The producers that may be called to create an attachment. -/
def ProviderReference.members (reference : ProviderReference) (registry : Registry) :
    List Producer :=
  match reference.resolve registry with
  | .ok p => p.members
  | .error _ => []

theorem Attachment.callsAmong_create {σ : Type} (reference : ProviderReference)
    (registry : Registry) (field : String) (entityKind : Option String) :
    CallsAmong (Attachment.create reference registry field entityKind : Act σ Attachment)
      (reference.members registry) := by
  unfold ProviderReference.members Attachment.create
  cases reference.resolve registry with
  | error e => exact (Act.quiet_fail e).callsAmong _
  | ok p =>
    have hcreate : CallsAmong (do
        Act.ofExcept p.requireCapabilities
        let definition ← p.obtainDefinition
        return { definition, workflowName := p.name, field, entityKind } : Act σ Attachment)
        p.members :=
      (Act.quiet_ofExcept _).callsAmong_bind fun _ =>
        p.callsAmong_obtainDefinition.bind_quiet fun _ => Act.quiet_pure _
    exact fun ps j s => hcreate ps j s

/-! ## What can be asked of a definition -/

/-- A question to a definition. -/
inductive Inquiry where
  | hasStatus (status : Datum)
  | node (status : Datum)
  | statusIds
  | isTerminal (status : Datum)
  | statusLabel (status : Datum)
  | actionLabel (status : Datum)
  | labelled (statuses : Datum) (action : Bool)
  | toDocument
  | audit
  | transitionsFrom (status : Datum)
  | orderedTransitions (status : Datum)
  | validate (previous next : Datum) (isNew : Bool)
  | check (previous next : Datum)
  | isPermitted (previous next : Datum)

/-- What comes of an activity. -/
inductive Reply where
  | answer (answer : Answer)
  | node (n : Option Node)
  | targets (targets : Targets)
  | checked (permitted : Bool) (words : String)
  | report (r : Report)
  | definition (d : Definition)
  | attachment (a : Attachment)

namespace Inquiry

variable {σ : Type} (d : Definition)

/-- A question, as the act that answers it. -/
def act : Inquiry → Act σ Reply
  | .hasStatus status => return .answer (.truth (← Act.ofExcept (d.hasStatus status)))
  | .node status => return .node (← Act.ofExcept (d.node status))
  | .statusIds => return .answer (.statuses d.statusIds)
  | .isTerminal status => return .answer (.truth (← Act.ofExcept (d.isTerminal status)))
  | .statusLabel status => return .answer (.datum (← Act.ofExcept (d.statusLabel status)))
  | .actionLabel status => return .answer (.datum (← Act.ofExcept (d.actionLabel status)))
  | .labelled statuses action =>
    return .answer (.labelled (← Act.ofExcept (d.labelled statuses action)))
  | .toDocument => return .answer (.datum d.toDocument)
  | .audit => return .report (← Act.ofExcept d.audit)
  | .transitionsFrom status => return .targets (← d.transitionsFrom status)
  | .orderedTransitions status => return .answer (.statuses (← d.orderedTransitions status))
  | .validate previous next isNew => do
    Transition.validate d previous next isNew
    return .answer .nothing
  | .check previous next => do
    let (permitted, words) ← Transition.check d previous next
    return .checked permitted words
  | .isPermitted previous next =>
    return .answer (.truth (← Transition.isPermitted d previous next))

/-- What a question evaluates. -/
def evaluation? : Inquiry → Option Evaluation
  | .transitionsFrom status | .orderedTransitions status => some ⟨d, status, none⟩
  | .validate previous next isNew => if isNew then none else some ⟨d, previous, some next⟩
  | .check previous next | .isPermitted previous next => some ⟨d, previous, some next⟩
  | .hasStatus _ | .node _ | .statusIds | .isTerminal _ | .statusLabel _ | .actionLabel _ |
    .labelled _ _ | .toDocument | .audit => none

theorem faithful_act (q : Inquiry) : Faithful (q.act d : Act σ Reply) := by
  cases q with
  | transitionsFrom status =>
    exact (d.made_transitionsFrom status).faithful.bind fun _ => Act.faithful_pure _
  | orderedTransitions status =>
    exact (d.made_orderedTransitions status).faithful.bind fun _ => Act.faithful_pure _
  | validate previous next isNew =>
    exact (Transition.made_validate d previous next isNew).faithful.bind fun _ =>
      Act.faithful_pure _
  | check previous next =>
    exact (Transition.made_check d previous next).faithful.bind fun _ => Act.faithful_pure _
  | isPermitted previous next =>
    exact (Transition.made_isPermitted d previous next).faithful.bind fun _ => Act.faithful_pure _
  | statusIds | toDocument => exact Act.faithful_pure _
  | _ => exact (Act.faithful_ofExcept _).bind fun _ => Act.faithful_pure _

theorem calls_act (q : Inquiry) (ps : Producers) (j : Journal) (s : σ) :
    ((q.act d).run ps j s).2.1.calls =
      j.calls ++ (q.evaluation? d).elim [] Evaluation.calls := by
  cases q with
  | transitionsFrom status =>
    refine (Act.calls_bind_of_quiet fun _ => Act.quiet_pure _).trans ?_
    rw [Definition.run_transitionsFrom]
    exact d.calls_transitionsFrom status
  | orderedTransitions status =>
    refine (Act.calls_bind_of_quiet fun _ => Act.quiet_pure _).trans ?_
    rw [Definition.run_orderedTransitions]
    exact d.calls_transitionsFrom status
  | validate previous next isNew =>
    refine (Act.calls_bind_of_quiet fun _ => Act.quiet_pure _).trans ?_
    rw [Transition.run_validate]
    refine (Transition.calls_validate d previous next isNew).trans ?_
    cases isNew <;> rfl
  | check previous next =>
    exact (Act.calls_bind_of_quiet fun _ => Act.quiet_pure _).trans
      (Transition.calls_check d previous next s)
  | isPermitted previous next =>
    refine (Act.calls_bind_of_quiet fun _ => Act.quiet_pure _).trans ?_
    exact (Act.calls_bind_of_quiet fun _ => Act.quiet_pure _).trans
      (Transition.calls_check d previous next s)
  | statusIds | toDocument => exact (List.append_nil _).symm
  | _ => exact ((Act.quiet_ofExcept _).bind fun _ => Act.quiet_pure _).calls_append_nil ps j s

end Inquiry

/-! ## What is done to a session -/

/-- Something done with a session: a definition is built from parts or read from a document and
questioned, an attachment is created or operated, or the entity is committed behind an attachment or
changed from outside. -/
inductive Activity (ρ : Type) where
  | construct (initial : Datum) (statuses : List (Datum × Definition.NodeParts))
      (labels actionLabels name : Datum)
  | read (document labels actionLabels name : Datum)
  | attach (reference : ProviderReference) (registry : Registry) (field : String)
      (entityKind : Option String)
  | inquire (d : Definition) (q : Inquiry)
  | operate (i : Nat) (a : Attachment) (op : Operation)
  | commit (persist : ρ → ρ) (i : Nat) (a : Attachment)
  | touch (f : ρ → Except Failure Answer × ρ)

namespace Activity

variable {ρ : Type} [Accessor ρ]

/-- An activity, as the act that it is. -/
def act : Activity ρ → Act (Session ρ) Reply
  | .construct initial statuses labels actionLabels name =>
    return .definition
      (← Act.ofExcept (Definition.ofParts initial statuses labels actionLabels name))
  | .read document labels actionLabels name =>
    return .definition (← Act.ofExcept (Definition.ofDocument document labels actionLabels name))
  | .attach reference registry field entityKind =>
    return .attachment (← Attachment.create reference registry field entityKind)
  | .inquire d q => q.act d
  | .operate i a op => return .answer (← Session.of i (op.act a))
  | .commit persist i a => do
    Session.commitBy persist i a
    return .answer .nothing
  | .touch f => do
    let s ← Act.getState
    let (outcome, entity) := f s.entity
    Act.setState { s with entity }
    return .answer (← Act.ofExcept outcome)

/-- What an activity evaluates in a session. -/
def evaluation? (s : Session ρ) : Activity ρ → Option Evaluation
  | .inquire d q => q.evaluation? d
  | .operate i a op => op.evaluation? a (s.view i)
  | .commit _ i a => Operation.validateBeforeCommit.evaluation? a (s.view i)
  | .construct .. | .read .. | .attach .. | .touch _ => none

/-- The members of a provider that may be called. -/
def members : Activity ρ → List Producer
  | .attach reference registry _ _ => reference.members registry
  | _ => []

theorem faithful_act (activity : Activity ρ) : Faithful activity.act := by
  cases activity with
  | construct => exact (Act.faithful_ofExcept _).bind fun _ => Act.faithful_pure _
  | read => exact (Act.faithful_ofExcept _).bind fun _ => Act.faithful_pure _
  | attach => exact (Attachment.faithful_create _ _ _ _).bind fun _ => Act.faithful_pure _
  | inquire d q => exact q.faithful_act d
  | operate i a op => exact (a.made_operation op).faithful.zoom.bind fun _ => Act.faithful_pure _
  | commit persist i a =>
    exact (Session.made_commitBy persist i a).faithful.bind fun _ => Act.faithful_pure _
  | touch f =>
    exact Act.faithful_getState.bind fun _ => (Act.faithful_setState _).bind fun _ =>
      (Act.faithful_ofExcept _).bind fun _ => Act.faithful_pure _

/-- An activity makes just the calls of what it evaluates, and before them perhaps some of the
provider that it uses. -/
theorem exists_calls_act (activity : Activity ρ) (ps : Producers) (j : Journal) (s : Session ρ) :
    ∃ own, own <+: activity.members ∧ (activity.act.run ps j s).2.1.calls =
      j.calls ++ (own ++ (activity.evaluation? s).elim [] Evaluation.calls) := by
  have hevaluated {called : List Producer} (h : (activity.act.run ps j s).2.1.calls =
      j.calls ++ called) : ∃ own, own <+: activity.members ∧
        (activity.act.run ps j s).2.1.calls = j.calls ++ (own ++ called) :=
    ⟨[], List.nil_prefix, h⟩
  cases activity with
  | construct | read =>
    exact hevaluated
      (((Act.quiet_ofExcept _).bind fun _ => Act.quiet_pure _).calls_append_nil ps j s)
  | attach reference registry field entityKind =>
    have hcreate : CallsAmong (Activity.attach reference registry field entityKind :
        Activity ρ).act (reference.members registry) :=
      (Attachment.callsAmong_create reference registry field entityKind).bind_quiet fun _ =>
        Act.quiet_pure _
    obtain ⟨own, hprefix, hcalls⟩ := hcreate ps j s
    refine ⟨own, hprefix, ?_⟩
    rw [hcalls]
    exact congrArg _ (List.append_nil own).symm
  | inquire d q => exact hevaluated (q.calls_act d ps j s)
  | operate i a op =>
    exact hevaluated ((Act.calls_bind_of_quiet fun _ => Act.quiet_pure _).trans
      (a.calls_operation op (s.view i)))
  | commit persist i a =>
    refine hevaluated ((Act.calls_bind_of_quiet fun _ => Act.quiet_pure _).trans ?_)
    exact (Act.calls_bind_of_quiet fun _ _ _ _ => rfl).trans
      (a.calls_validateBeforeCommit (s.view i))
  | touch f =>
    have htouch : Quiet (Activity.touch f).act :=
      Act.quiet_getState.bind fun _ => (Act.quiet_setState _).bind fun _ =>
        (Act.quiet_ofExcept _).bind fun _ => Act.quiet_pure _
    exact hevaluated (htouch.calls_append_nil ps j s)

theorem members_eq_nil_of_evaluation {activity : Activity ρ} {s : Session ρ} {e : Evaluation}
    (h : activity.evaluation? s = some e) : activity.members = [] := by
  cases activity with
  | attach => cases h
  | _ => rfl

theorem mem_evaluated_iff {evaluation : Option Evaluation} {p : Producer} :
    p ∈ evaluation.elim [] Evaluation.calls ↔ ∃ e, evaluation = some e ∧ e.Due p := by
  cases evaluation with
  | none => simp
  | some e => simp [Evaluation.mem_calls_iff]

/-- The calls that a run makes to evaluate rules, one activity after another. -/
def trace (ps : Producers) : List (Activity ρ) → Journal × Session ρ → List Producer
  | [], _ => []
  | activity :: rest, x =>
    (activity.evaluation? x.2).elim [] Evaluation.calls ++
      trace ps rest (activity.act.run ps x.1 x.2).2

theorem calls_after {done : List (Activity ρ)}
    (h : ∀ activity ∈ done, activity.members = []) (ps : Producers) (x : Journal × Session ρ) :
    (Act.after ps (done.map act) x).1.calls = x.1.calls ++ trace ps done x := by
  induction done generalizing x with
  | nil => exact (List.append_nil _).symm
  | cons activity rest ih =>
    obtain ⟨hnone, hrest⟩ := List.forall_mem_cons.1 h
    obtain ⟨own, hown, hcalls⟩ := activity.exists_calls_act ps x.1 x.2
    rw [hnone, List.prefix_nil] at hown
    rw [hown, List.nil_append] at hcalls
    rw [List.map_cons, Act.after_cons, ih hrest, hcalls, List.append_assoc]
    rfl

/-- After any run, the next activity calls at most one producer to evaluate a rule, once, and just
that of the rule that is due. Apart from it only the members of a provider are called. The outcome
depends on the answers to these calls alone: the evaluation of a rule is decided by the one answer
whose number is that of the producer's calls so far. The run as a whole depends on no other answers
either, and its calls are those of its evaluations, in order, unless a provider has producers among
its members. -/
theorem evaluates_freshly (ps : Producers) (done : List (Activity ρ)) (x : Journal × Session ρ)
    (next : Activity ρ) :
    let now := Act.after ps (done.map act) x
    let result := next.act.run ps now.1 now.2
    (∃ called, now.1.calls = x.1.calls ++ called ∧
      ((∀ activity ∈ done, activity.members = []) → called = trace ps done x) ∧
      ∀ ps', ps.Agree ps' x.1.calls called → Act.after ps' (done.map act) x = now) ∧
    ∃ own evaluated, result.2.1.calls = now.1.calls ++ (own ++ evaluated) ∧
      own <+: next.members ∧ evaluated.length ≤ 1 ∧
      (∀ p, p ∈ evaluated ↔ ∃ e, next.evaluation? now.2 = some e ∧ e.Due p) ∧
      (∀ ps', ps.Agree ps' now.1.calls (own ++ evaluated) →
        next.act.run ps' now.1 now.2 = result) ∧
      ∀ p ∈ evaluated, ∀ ps' : Producers,
        ps' p (now.1.calls.count p) = ps p (now.1.calls.count p) →
          next.act.run ps' now.1 now.2 = result := by
  intro now result
  have hrun : ∀ step ∈ done.map act, Faithful step := by
    intro step hstep
    obtain ⟨activity, -, rfl⟩ := List.mem_map.1 hstep
    exact activity.faithful_act
  obtain ⟨called, hcalled, hsame⟩ := Act.exists_called_after hrun ps x
  have htrace (hnone : ∀ activity ∈ done, activity.members = []) : called = trace ps done x :=
    List.append_cancel_left (hcalled.symm.trans (calls_after hnone ps x))
  obtain ⟨own, hown, hcalls⟩ := next.exists_calls_act ps now.1 now.2
  have hfresh := (next.faithful_act.asks hcalls).fresh
  have hlength : ((next.evaluation? now.2).elim [] Evaluation.calls).length ≤ 1 := by
    cases next.evaluation? now.2 with
    | none => exact Nat.zero_le 1
    | some e => exact e.length_calls_le
  refine ⟨⟨called, hcalled, htrace, hsame⟩, own, _, hcalls, hown, hlength,
    fun p => mem_evaluated_iff, hfresh, fun p hp ps' hanswer => hfresh ps' ?_⟩
  -- What evaluates a rule uses no provider, so the one call is that of the producer.
  obtain ⟨e, he, -⟩ := mem_evaluated_iff.1 hp
  rw [members_eq_nil_of_evaluation he, List.prefix_nil] at hown
  obtain ⟨q, hq⟩ : ∃ q, (next.evaluation? now.2).elim [] Evaluation.calls = [q] :=
    List.length_eq_one_iff.1 (Nat.le_antisymm hlength (List.length_pos_of_mem hp))
  rw [hq, List.mem_singleton] at hp
  rw [hown, hq, List.nil_append, ← hp]
  exact Producers.agree_singleton_iff.2 hanswer

open Session (orders orderFlow blank) in
/-- An order that is paid asks what may follow twice: for the list, and for a declared status other
than its own. -/
example :
    let ps : Producers := fun _ _ => .ok (.list [.text "shipped"])
    let done : List (Activity Record) :=
      [.operate 0 orderFlow .start, .commit Record.persist 0 orderFlow,
        .operate 0 orderFlow (.propose (.text "paid")), .commit Record.persist 0 orderFlow,
        .inquire orders .audit, .operate 0 orderFlow .nextStatuses,
        .operate 0 orderFlow (.canTransitionTo (.text "paid")),
        .operate 0 orderFlow (.canTransitionTo (.text "lost")),
        .operate 0 orderFlow (.canTransitionTo (.text "shipped"))]
    (Act.after ps (done.map act) (.empty, Session.start blank)).1.calls = [⟨0⟩, ⟨0⟩] := by
  decide

end Activity

end Lifecycle
