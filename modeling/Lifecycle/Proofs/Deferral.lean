import Lifecycle.Proofs.Activity
import Lifecycle.Proofs.Document

/-!
# Static rules and deferred ones

A static rule may be replaced by a deferred rule whose producer always lists the same targets
(`Definition.deferAt`). The producer is called then, but nothing else comes of it: calls count for
the answers of that producer only, and these never change. `Act.AlikeBut` says that two acts do the
same up to the calls of one producer, and `Definition.StandsIn` what of a definition the library
looks at. `Definition.deferral_unnoticed` states it for the questions to a definition and for runs
over a record.
-/

namespace Lifecycle

variable {σ τ α β : Type} {q : Producer} {ps : Producers}

/-! ## Acts alike but for the calls of one producer -/

/-- The journals report the same, and count alike all producers but one. -/
structure Journal.AlikeBut (q : Producer) (j k : Journal) : Prop where
  events : j.events = k.events
  calls : Journal.SameCalls (· ≠ q) j k

theorem Journal.AlikeBut.refl (q : Producer) (j : Journal) : AlikeBut q j j := ⟨rfl, fun _ _ => rfl⟩

theorem Journal.AlikeBut.extend {j k : Journal} (h : AlikeBut q j k) (new : Journal) :
    AlikeBut q (j.extend new) (k.extend new) where
  events := congrArg (· ++ new.events) h.events
  calls := h.calls.extend new

/-- One more call of that producer does not count. -/
theorem Journal.AlikeBut.call {j k : Journal} (h : AlikeBut q j k) :
    AlikeBut q j { k with calls := k.calls ++ [q] } where
  events := h.events
  calls p hp := by
    rw [List.count_append, List.count_singleton, if_neg (by simpa using Ne.symm hp), Nat.add_zero]
    exact h.calls p hp

theorem Journal.AlikeBut.symm {j k : Journal} (h : AlikeBut q j k) : AlikeBut q k j :=
  ⟨h.events.symm, fun p hp => (h.calls p hp).symm⟩

namespace Act

/-- From journals alike but for the calls of one producer, the acts have the same outcome, leave the
same state, and the journals are again alike. -/
def AlikeBut (q : Producer) (ps : Producers) (act act' : Act σ α) : Prop :=
  ∀ j k s, Journal.AlikeBut q j k → (act.run ps j s).1 = (act'.run ps k s).1 ∧
    Journal.AlikeBut q (act.run ps j s).2.1 (act'.run ps k s).2.1 ∧
    (act.run ps j s).2.2 = (act'.run ps k s).2.2

/-- An act that does not call the producer is alike itself. -/
theorem Made.alikeBut {act : Act σ α} (h : Made (· ≠ q) act) : AlikeBut q ps act act := by
  intro j k s hjk
  obtain ⟨out, new, s', -, hj, hk⟩ := h.confined ps j k s hjk.calls
  rw [hj, hk]
  exact ⟨rfl, hjk.extend new, rfl⟩

theorem AlikeBut.bind {act act' : Act σ α} {next next' : α → Act σ β} (h : AlikeBut q ps act act')
    (hnext : ∀ a, AlikeBut q ps (next a) (next' a)) :
    AlikeBut q ps (act >>= next) (act' >>= next') := by
  intro j k s hjk
  obtain ⟨hout, hjournal, hstate⟩ := h j k s hjk
  rw [run_bind, run_bind]
  rcases hrun : act.run ps j s with ⟨out, j', s'⟩
  rcases hrun' : act'.run ps k s with ⟨out', k', s''⟩
  rw [hrun, hrun'] at hout hjournal hstate
  dsimp only at hout hjournal hstate
  subst hout hstate
  cases out with
  | error e => exact ⟨rfl, hjournal, rfl⟩
  | ok a => exact hnext a j' k' s' hjournal

/-- What comes first and calls nobody may be the same in both. -/
theorem Made.bind_alikeBut {act : Act σ α} {next next' : α → Act σ β} (h : Made (· ≠ q) act)
    (hnext : ∀ a, AlikeBut q ps (next a) (next' a)) :
    AlikeBut q ps (act >>= next) (act >>= next') :=
  h.alikeBut.bind hnext

theorem AlikeBut.attempt {act act' : Act σ α} (h : AlikeBut q ps act act') :
    AlikeBut q ps act.attempt act'.attempt := by
  intro j k s hjk
  obtain ⟨hout, hjournal, hstate⟩ := h j k s hjk
  exact ⟨congrArg Except.ok hout, hjournal, hstate⟩

theorem AlikeBut.zoom {get : τ → σ} {set : σ → τ → τ} {act act' : Act σ α}
    (h : AlikeBut q ps act act') : AlikeBut q ps (act.zoom get set) (act'.zoom get set) := by
  intro j k t hjk
  obtain ⟨hout, hjournal, hstate⟩ := h j k (get t) hjk
  exact ⟨hout, hjournal, congrArg (set · t) hstate⟩

/-- Acts that are alike one by one are alike in a row. -/
theorem after_alikeBut {ι : Type} {f g : ι → Act σ α} (h : ∀ i, AlikeBut q ps (f i) (g i))
    (is : List ι) {x y : Journal × σ} (hj : Journal.AlikeBut q x.1 y.1) (hs : x.2 = y.2) :
    Journal.AlikeBut q (after ps (is.map f) x).1 (after ps (is.map g) y).1 ∧
      (after ps (is.map f) x).2 = (after ps (is.map g) y).2 := by
  induction is generalizing x y with
  | nil => exact ⟨hj, hs⟩
  | cons i is ih =>
    obtain ⟨-, hj', hs'⟩ := h i x.1 y.1 x.2 hj
    rw [List.map_cons, List.map_cons, after_cons, after_cons]
    rw [← hs]
    exact ih hj' hs'

end Act

/-! ## Rules and their targets -/

/-- Whenever it is called, the producer lists just these targets, in some collection and order and
each at least once. -/
def Producers.Supply (ps : Producers) (q : Producer) (targets : Targets) : Prop :=
  ∀ k, ∃ (answer : Datum) (texts : List String), ps q k = .ok answer ∧
    Rule.Lists answer (texts.map .text) ∧ ∀ t, t ∈ texts ↔ t ∈ targets

namespace Rule

variable {targets : Targets}

theorem targetsOf_of_supply (hq : ps.Supply q targets) (status : Datum) (k : Nat) :
    (ps q k).bind (targetsOf status) = .ok targets := by
  obtain ⟨answer, texts, hanswer, hlists, hmem⟩ := hq k
  have htexts : Targets.ofList texts = targets :=
    Targets.eq_of_mem_iff fun t => Targets.mem_ofList.trans (hmem t)
  rw [hanswer]
  change targetsOf status answer = _
  unfold targetsOf
  simp only [listed?_eq_some_iff.2 hlists, Datum.mapM_text?_eq_some_iff.2 rfl, htexts]

theorem run_resolve_of_supply (hq : ps.Supply q targets) (status : Datum) (j : Journal) (s : σ) :
    ((deferred q).resolve status).run ps j s =
      (.ok targets, { j with calls := j.calls ++ [q] }, s) := by
  rw [run_resolve, outcome_resolve_deferred, targetsOf_of_supply hq]

/-- The same rule, or the deferred one in the place of the static one. -/
inductive StandsIn (targets : Targets) (q : Producer) : Rule → Rule → Prop
  | same (rule : Rule) : StandsIn targets q rule rule
  | deferred : StandsIn targets q (.static targets) (.deferred q)

/-- The producer may occur in other rules too: it answers alike however often it was called. -/
theorem alikeBut_resolve (hq : ps.Supply q targets) {rule rule' : Rule}
    (h : StandsIn targets q rule rule') (status : Datum) :
    Act.AlikeBut q ps (rule.resolve status : Act σ Targets) (rule'.resolve status) := by
  cases h with
  | same =>
    by_cases hrule : rule = .deferred q
    · intro j k s hjk
      rw [hrule, run_resolve_of_supply hq, run_resolve_of_supply hq]
      exact ⟨rfl, hjk.symm.call.symm.call, rfl⟩
    · refine (made_resolve (fun p hp => ?_) status).alikeBut
      rintro rfl
      exact hrule hp
  | deferred =>
    intro j k s hjk
    rw [run_resolve_of_supply hq]
    exact ⟨rfl, hjk.call, rfl⟩

end Rule

/-! ## Definitions with a deferred rule in the place of a static one -/

namespace Node

def deferred (q : Producer) (n : Node) : Node := { n with rule := .deferred q }

/-- The node that stands under a key after the rule under a text was deferred. -/
def deferAt (p : String) (q : Producer) (key : Datum) (n : Node) : Node :=
  if key == .text p then n.deferred q else n

end Node

namespace Statuses

/-- The statuses with another rule for one of them, which asks a producer. -/
def deferAt (p : String) (q : Producer) (statuses : Statuses) : Statuses where
  entries := statuses.entries.map fun e => (e.1, e.2.deferAt p q e.1)
  distinct := List.pairwise_map.2 statuses.distinct

variable {statuses : Statuses} {p : String}

theorem keys_deferAt : (statuses.deferAt p q).keys = statuses.keys := by
  unfold Table.keys deferAt
  rw [List.map_map]
  rfl

theorem contains_deferAt (k : Datum) :
    (statuses.deferAt p q).contains k = statuses.contains k :=
  Table.contains_eq_of_keys_eq keys_deferAt k

theorem get?_deferAt (k : Datum) :
    (statuses.deferAt p q).get? k = (statuses.get? k).map (Node.deferAt p q k) := by
  unfold Table.get? deferAt
  rw [List.find?_map, Option.map_map, Option.map_map]
  change (statuses.entries.find? fun e => e.1 == k).map _ = _
  refine Option.map_congr fun e he => ?_
  -- The entry is found under the text just when the text is looked for.
  have hek : (e.1 == k) = true := List.find?_some (p := fun e : Datum × Node => e.1 == k) he
  have hkey : (e.1 == Datum.text p) = (k == .text p) := by
    rw [Bool.eq_iff_iff, Datum.beq_text_iff, Datum.beq_text_iff]
    constructor
    · intro h
      rw [h] at hek
      exact Datum.text_beq_iff.1 hek
    · intro h
      rw [h] at hek
      exact Datum.beq_text_iff.1 hek
  simp only [Function.comp_apply, Node.deferAt, hkey]

theorem dangling_deferAt (h : statuses.dangling = []) : (statuses.deferAt p q).dangling = [] := by
  rw [List.eq_nil_iff_forall_not_mem] at h ⊢
  rintro ⟨source, target⟩ hedge
  obtain ⟨n, hmem, htarget, hnot⟩ := Definition.mem_dangling_iff.1 hedge
  obtain ⟨e, he, heq⟩ := List.mem_map.1 hmem
  cases heq
  rw [contains_deferAt] at hnot
  refine h _ (Definition.mem_dangling_iff.2 ⟨e.2, he, ?_, hnot⟩)
  unfold Node.deferAt at htarget
  split at htarget
  · cases htarget
  · exact htarget

end Statuses

namespace Definition

/-- The definition with another rule for one of its statuses, which asks a producer. -/
def deferAt (d : Definition) (p : String) (q : Producer) : Definition :=
  { d with
    statuses := d.statuses.deferAt p q
    initial_declared := (Statuses.contains_deferAt d.initial).trans d.initial_declared
    targets_declared := Statuses.dangling_deferAt d.targets_declared }

variable {d d' : Definition} {p : String} {targets : Targets}

theorem node_deferAt (d : Definition) (p : String) (q : Producer) (s : Datum) :
    (d.deferAt p q).node s = (d.node s).map fun found => found.map (Node.deferAt p q s) := by
  unfold node
  cases hkey : s.hashable with
  | false =>
    rw [Datum.key_of_unhashable hkey]
    rfl
  | true =>
    rw [Datum.key_of_hashable hkey]
    exact congrArg Except.ok (Statuses.get?_deferAt s)

/-- To the library the second definition looks like the first, up to calls of one producer. -/
structure StandsIn (q : Producer) (ps : Producers) (d d' : Definition) : Prop where
  initial : d'.initial = d.initial
  statusIds : d'.statusIds = d.statusIds
  name : d'.name = d.name
  labels : d'.labels = d.labels
  actionLabels : d'.actionLabels = d.actionLabels
  transitionsFrom : ∀ (σ : Type) (status : Datum),
    Act.AlikeBut q ps (d.transitionsFrom status : Act σ Targets) (d'.transitionsFrom status)

theorem alikeBut_transitionsFrom (hq : ps.Supply q targets) {status : Datum} {change : Node → Node}
    (h : d'.node status = (d.node status).map fun found => found.map change)
    (hrule : ∀ n, d.node status = .ok (some n) →
      Rule.StandsIn targets q n.rule (change n).rule) :
    Act.AlikeBut q ps (d.transitionsFrom status : Act σ Targets) (d'.transitionsFrom status) := by
  unfold transitionsFrom
  rw [h]
  rcases hnode : d.node status with e | _ | n
  · exact (Act.Made.fail e).alikeBut
  · exact (Act.Made.fail _).alikeBut
  · exact Rule.alikeBut_resolve hq (hrule n hnode) status

theorem StandsIn.refl (hq : ps.Supply q targets) (d : Definition) : StandsIn q ps d d where
  initial := rfl
  statusIds := rfl
  name := rfl
  labels := rfl
  actionLabels := rfl
  transitionsFrom σ status := by
    have hid : d.node status = (d.node status).map fun found => found.map id := by
      rcases d.node status with _ | _ | _ <;> rfl
    exact alikeBut_transitionsFrom hq hid fun n _ => .same n.rule

theorem standsIn_deferAt (hq : ps.Supply q targets) {n : Node}
    (hn : d.node (.text p) = .ok (some n)) (hrule : n.rule = .static targets) :
    StandsIn q ps d (d.deferAt p q) where
  initial := rfl
  statusIds := Statuses.keys_deferAt
  name := rfl
  labels := rfl
  actionLabels := rfl
  transitionsFrom σ status := by
    refine alikeBut_transitionsFrom hq (node_deferAt d p q status) fun m hm => ?_
    unfold Node.deferAt
    by_cases hp : (status == Datum.text p) = true
    · rw [Datum.beq_text_iff.1 hp, hn] at hm
      cases hm
      rw [if_pos hp, hrule]
      exact .deferred
    · rw [if_neg hp]
      exact .same m.rule

section StandsIn

variable (h : StandsIn q ps d d')
include h

theorem StandsIn.declares (status : Datum) : d'.declares status = d.declares status :=
  Table.contains_eq_of_keys_eq h.statusIds status

theorem StandsIn.hasStatus (status : Datum) : d'.hasStatus status = d.hasStatus status := by
  unfold Definition.hasStatus
  rw [funext h.declares]

theorem StandsIn.statusLabel (status : Datum) : d'.statusLabel status = d.statusLabel status := by
  unfold Definition.statusLabel
  rw [h.labels]

theorem StandsIn.actionLabel (status : Datum) : d'.actionLabel status = d.actionLabel status := by
  unfold Definition.actionLabel
  rw [h.actionLabels]

theorem StandsIn.labelEach (action : Bool) (statuses : List Datum) :
    d'.labelEach action statuses = d.labelEach action statuses := by
  have hlabel (status : Datum) : d'.labelOf action status = d.labelOf action status := by
    unfold labelOf
    rw [h.actionLabel, h.statusLabel]
  unfold Definition.labelEach
  rw [funext hlabel]

theorem StandsIn.inOrder (targets : Targets) : d'.inOrder targets = d.inOrder targets := by
  unfold Definition.inOrder
  rw [h.statusIds, funext h.declares]

theorem StandsIn.orderedTransitions (status : Datum) :
    Act.AlikeBut q ps (d.orderedTransitions status : Act σ (List Datum))
      (d'.orderedTransitions status) := by
  refine (h.transitionsFrom σ status).bind fun targets => ?_
  rw [h.inOrder]
  exact (Act.Made.pure _).alikeBut

end StandsIn

end Definition

/-! ## Transitions -/

namespace Transition

open Act (AlikeBut Made)

variable {d d' : Definition} (h : Definition.StandsIn q ps d d')
include h

theorem alikeBut_require (previous next : Datum) :
    AlikeBut q ps (require d previous next : Act σ Unit) (require d' previous next) := by
  unfold require
  rw [h.hasStatus, h.name]
  refine (Made.ofExcept _).bind_alikeBut fun known => ?_
  cases known with
  | false => exact (Made.fail _).alikeBut
  | true =>
    refine (h.transitionsFrom σ previous).bind fun targets => ?_
    split
    · exact (Made.pure ()).alikeBut
    · exact (Made.fail _).alikeBut

theorem alikeBut_validate (previous next : Datum) (isNew : Bool) :
    AlikeBut q ps (validate d previous next isNew : Act σ Unit)
      (validate d' previous next isNew) := by
  unfold validate
  rw [h.name]
  split
  · exact (Made.pure ()).alikeBut
  · refine (alikeBut_require h previous next).attempt.bind fun outcome => ?_
    split
    · exact (Made.report _).alikeBut
    · exact (Made.report _).bind_alikeBut fun _ => (Made.fail _).alikeBut
    · exact (Made.fail _).alikeBut

theorem alikeBut_check (previous next : Datum) :
    AlikeBut q ps (check d previous next : Act σ (Bool × String)) (check d' previous next) := by
  refine (alikeBut_validate h previous next false).attempt.bind fun outcome => ?_
  split
  · exact ((Made.ofExcept _).bind fun _ => .pure _).alikeBut
  · exact (Made.pure _).alikeBut
  · exact (Made.fail _).alikeBut

theorem alikeBut_isPermitted (previous next : Datum) :
    AlikeBut q ps (isPermitted d previous next : Act σ Bool) (isPermitted d' previous next) :=
  (alikeBut_check h previous next).bind fun _ => (Made.pure _).alikeBut

end Transition

/-! ## Attachments -/

namespace Attachment

open Act (AlikeBut Made)

/-- The attachment of the same field to another workflow. -/
def withDefinition (a : Attachment) (d : Definition) : Attachment := { a with definition := d }

variable {ρ : Type} [Accessor ρ] {a : Attachment} {d : Definition}
  (h : Definition.StandsIn q ps a.definition d)
include h

theorem alikeBut_nextStatuses :
    AlikeBut q ps (a.nextStatuses : Act (Attached ρ) (List Datum))
      (a.withDefinition d).nextStatuses := by
  refine a.made_currentStatus.bind_alikeBut fun current => ?_
  change AlikeBut q ps _ (Act.ofExcept (d.hasStatus current) >>= _)
  rw [h.hasStatus]
  refine (Made.ofExcept _).bind_alikeBut fun known => ?_
  cases known with
  | false => exact (Made.pure _).alikeBut
  | true => exact h.orderedTransitions current

theorem alikeBut_canTransitionTo (status : Datum) :
    AlikeBut q ps (a.canTransitionTo status : Act (Attached ρ) Bool)
      ((a.withDefinition d).canTransitionTo status) := by
  refine a.made_currentStatus.bind_alikeBut fun current => ?_
  split
  · exact (Made.pure _).alikeBut
  split
  · exact (Made.pure _).alikeBut
  change AlikeBut q ps _ (Act.ofExcept (d.hasStatus status) >>= _)
  rw [h.hasStatus]
  refine (Made.ofExcept _).bind_alikeBut fun known => ?_
  cases known with
  | false => exact (Made.pure _).alikeBut
  | true =>
    refine (h.transitionsFrom _ current).attempt.bind fun targets => ?_
    split
    · exact (Made.pure _).alikeBut
    · exact (Made.pure _).alikeBut
    · exact (Made.fail _).alikeBut

theorem alikeBut_validateBeforeCommit :
    AlikeBut q ps (a.validateBeforeCommit : Act (Attached ρ) Unit)
      (a.withDefinition d).validateBeforeCommit :=
  a.made_requireField.bind_alikeBut fun _ => Made.getState.bind_alikeBut fun _ =>
    a.made_readStatus.bind_alikeBut fun _ => Made.getState.bind_alikeBut fun _ =>
      Transition.alikeBut_validate h _ _ _

/-- Every operation does the same, up to calls of one producer. -/
theorem alikeBut_operation (op : Operation) :
    AlikeBut q ps (op.act a : Act (Attached ρ) Answer) (op.act (a.withDefinition d)) := by
  have hpure (x : Answer) :
      AlikeBut q ps (pure x : Act (Attached ρ) Answer) (pure x) := (Made.pure x).alikeBut
  have hlabels (action : Bool) (statuses : List Datum) :
      AlikeBut q ps (Act.ofExcept (a.definition.labelEach action statuses) :
        Act (Attached ρ) (List (Datum × Datum)))
        (Act.ofExcept (d.labelEach action statuses)) := by
    rw [h.labelEach]
    exact (Made.ofExcept _).alikeBut
  cases op with
  | start =>
    have hstart : (a.withDefinition d).start = (a.start : Act (Attached ρ) Unit) := by
      unfold start
      change _ >>= (fun _ => a.writeStatus d.initial) = _
      rw [h.initial]
      rfl
    change AlikeBut q ps _ ((a.withDefinition d).start >>= _)
    rw [hstart]
    exact a.made_start.bind_alikeBut fun _ => hpure _
  | propose status => exact (a.made_propose status).bind_alikeBut fun _ => hpure _
  | currentStatus => exact a.made_currentStatus.bind_alikeBut fun _ => hpure _
  | statusLabel =>
    refine (a.made_currentStatus.bind_alikeBut fun current => ?_).bind fun _ => hpure _
    change AlikeBut q ps _ (Act.ofExcept (d.statusLabel current))
    rw [h.statusLabel]
    exact (Made.ofExcept _).alikeBut
  | nextStatuses => exact (alikeBut_nextStatuses h).bind fun _ => hpure _
  | nextActions =>
    exact ((alikeBut_nextStatuses h).bind fun _ => hlabels true _).bind fun _ => hpure _
  | canTransitionTo status => exact (alikeBut_canTransitionTo h status).bind fun _ => hpure _
  | dropdown action =>
    refine AlikeBut.bind ?_ fun _ => hpure _
    change AlikeBut q ps _ (Act.ofExcept (d.labelEach action d.statusIds))
    rw [h.statusIds]
    exact hlabels action _
  | validateBeforeCommit => exact (alikeBut_validateBeforeCommit h).bind fun _ => hpure _

end Attachment

/-! ## Runs over a record -/

namespace Session

open Act (AlikeBut Made)

variable {flows flows' : Flows}

/-- Every step does the same, up to calls of one producer. -/
theorem alikeBut_step
    (h : ∀ k, ∃ d, Definition.StandsIn q ps (flows k).definition d ∧
      flows' k = (flows k).withDefinition d) (st : Step) :
    AlikeBut q ps (st.act flows) (st.act flows') := by
  have hpure (x : Answer) :
      AlikeBut q ps (pure x : Act (Session Record) Answer) (pure x) := (Made.pure x).alikeBut
  cases st with
  | operate k op =>
    obtain ⟨d, hd, hflow⟩ := h k
    change AlikeBut q ps (of k (op.act (flows k))) (of k (op.act (flows' k)))
    rw [hflow]
    exact (Attachment.alikeBut_operation hd op).zoom
  | write field value =>
    refine AlikeBut.bind (Made.alikeBut ?_) fun _ => hpure _
    exact .bind .getState fun _ => .bind (.setState _) fun _ => .ofExcept _
  | addColumn name => exact (made_change _).bind_alikeBut fun _ => hpure _
  | dropColumn name => exact (made_change _).bind_alikeBut fun _ => hpure _
  | commit gate =>
    refine AlikeBut.bind ?_ fun _ => hpure _
    cases gate with
    | none => exact (Made.pure ()).bind_alikeBut fun _ => (made_change _).alikeBut
    | some i =>
      obtain ⟨d, hd, hflow⟩ := h i
      change AlikeBut q ps (commit (some (i, flows i))) (commit (some (i, flows' i)))
      rw [hflow]
      exact (Attachment.alikeBut_validateBeforeCommit hd).zoom.bind fun _ =>
        (made_change _).alikeBut

end Session

/-! ## Nobody can tell -/

/-- The question is about what kind of rule a status has. -/
def Inquiry.AsksForRules : Inquiry → Prop
  | .node _ | .isTerminal _ | .toDocument | .audit => True
  | .hasStatus _ | .statusIds | .statusLabel _ | .actionLabel _ | .labelled _ _ |
    .transitionsFrom _ | .orderedTransitions _ | .validate _ _ _ | .check _ _ |
    .isPermitted _ _ => False

theorem Inquiry.alikeBut_act {d d' : Definition} (h : Definition.StandsIn q ps d d')
    {question : Inquiry} (hquestion : ¬ question.AsksForRules) :
    Act.AlikeBut q ps (question.act d : Act σ Reply) (question.act d') := by
  have hpure (x : Reply) :
      Act.AlikeBut q ps (pure x : Act σ Reply) (pure x) := (Act.Made.pure x).alikeBut
  have hread {α : Type} {r r' : Except Failure α} (hr : r' = r) (reply : α → Reply) :
      Act.AlikeBut q ps (Act.ofExcept r >>= fun x => pure (reply x) : Act σ Reply)
        (Act.ofExcept r' >>= fun x => pure (reply x)) := by
    rw [hr]
    exact (Act.Made.ofExcept r).bind_alikeBut fun _ => hpure _
  cases question with
  | node _ | isTerminal _ | toDocument | audit => exact absurd trivial hquestion
  | hasStatus status => exact hread (h.hasStatus status) _
  | statusIds =>
    change Act.AlikeBut q ps _ (pure (Reply.answer (.statuses d'.statusIds)))
    rw [h.statusIds]
    exact hpure _
  | statusLabel status => exact hread (h.statusLabel status) _
  | actionLabel status => exact hread (h.actionLabel status) _
  | labelled statuses action =>
    refine hread ?_ _
    unfold Definition.labelled
    rw [funext (h.labelEach action)]
  | transitionsFrom status => exact (h.transitionsFrom σ status).bind fun _ => hpure _
  | orderedTransitions status => exact (h.orderedTransitions status).bind fun _ => hpure _
  | validate previous next isNew =>
    exact (Transition.alikeBut_validate h previous next isNew).bind fun _ => hpure _
  | check previous next => exact (Transition.alikeBut_check h previous next).bind fun _ => hpure _
  | isPermitted previous next =>
    exact (Transition.alikeBut_isPermitted h previous next).bind fun _ => hpure _

/-- Two runs with the same outcome, which report the same and leave the same state. -/
structure Act.SameButCalls (x y : Except Failure α × Journal × σ) : Prop where
  outcome : x.1 = y.1
  events : x.2.1.events = y.2.1.events
  state : x.2.2 = y.2.2

theorem Act.AlikeBut.same {act act' : Act σ α} (h : AlikeBut q ps act act') {j k : Journal}
    (hjk : Journal.AlikeBut q j k) (s : σ) : SameButCalls (act.run ps j s) (act'.run ps k s) := by
  obtain ⟨hout, hjournal, hstate⟩ := h j k s hjk
  exact ⟨hout, hjournal.events, hstate⟩

namespace Definition

variable {d : Definition} {p : String} {n : Node} {targets : Targets}

/-- A static rule and a deferred rule whose producer always lists the same targets cannot be told
apart. Questions to the definition have the same answers and failures and report the same, except
that the node of the status has the other rule and that it is asked for by a few. In a run over a
record in which some attachments have the one definition or the other, every step has the same
outcome, reports the same and leaves the same record. -/
theorem deferral_unnoticed (hn : d.node (.text p) = .ok (some n)) (hrule : n.rule = .static targets)
    (hq : ps.Supply q targets) (j : Journal) :
    let d' := d.deferAt p q
    (∀ s, d'.node s = (d.node s).map fun found => found.map (Node.deferAt p q s)) ∧
    (∀ (σ : Type) (s : σ) (question : Inquiry), ¬ question.AsksForRules →
      Act.SameButCalls ((question.act d).run ps j s) ((question.act d').run ps j s)) ∧
    ∀ (flows : Flows) (chosen : Nat → Bool), (∀ k, chosen k = true → (flows k).definition = d) →
      ∀ (steps : List Step) (st : Step) (r : Session Record),
        let flows' : Flows := fun k => if chosen k then (flows k).withDefinition d' else flows k
        let now := Session.after flows ps steps (j, r)
        let now' := Session.after flows' ps steps (j, r)
        now.1.events = now'.1.events ∧ now.2 = now'.2 ∧
          Act.SameButCalls ((st.act flows).run ps now.1 now.2)
            ((st.act flows').run ps now'.1 now'.2) := by
  intro d'
  have hstands : StandsIn q ps d d' := standsIn_deferAt hq hn hrule
  refine ⟨node_deferAt d p q, fun σ s question hquestion => ?_, ?_⟩
  · exact (Inquiry.alikeBut_act hstands hquestion).same (.refl q j) s
  · intro flows chosen hchosen steps st r flows' now now'
    have hflows : ∀ k, ∃ d, StandsIn q ps (flows k).definition d ∧
        flows' k = (flows k).withDefinition d := by
      intro k
      cases hk : chosen k with
      | true =>
        refine ⟨d', ?_, if_pos hk⟩
        rw [hchosen k hk]
        exact hstands
      | false => exact ⟨_, .refl hq _, if_neg (by simp [hk])⟩
    have hstep := Session.alikeBut_step hflows
    obtain ⟨hjournal, hstate⟩ : Journal.AlikeBut q now.1 now'.1 ∧ now.2 = now'.2 :=
      Act.after_alikeBut hstep steps (.refl q j) rfl
    refine ⟨hjournal.events, hstate, ?_⟩
    rw [← hstate]
    exact (hstep st).same hjournal now.2

open Session (orders orderFlow blank payment)

/-- The payment of a draft goes the same way if a producer decides that a draft may be paid, which
lists that once in a tuple and then twice in a set. -/
theorem payment_deferral_unnoticed :
    let paid : Datum := .text "paid"
    let ps : Producers := fun p k =>
      if p = ⟨1⟩ then .ok (if k = 0 then .tuple [paid, paid] else .set [paid])
      else .ok (.list [.text "shipped"])
    let flows : Flows := fun _ => orderFlow
    let chosen : Nat → Bool := fun i => i == 0
    let flows' : Flows := fun i =>
      if chosen i then (flows i).withDefinition (orders.deferAt "draft" ⟨1⟩) else flows i
    let now := Session.after flows ps payment (.empty, Session.start blank)
    let now' := Session.after flows' ps payment (.empty, Session.start blank)
    ps.Supply ⟨1⟩ (.ofList ["paid"]) ∧ now.1.calls = [] ∧ now'.1.calls = [⟨1⟩] ∧
      now.2 = now'.2 ∧
      (((Step.commit (some 0)).act flows').run ps now'.1 now'.2).1.isOk = true := by
  intro paid ps flows chosen flows' now now'
  have hq : ps.Supply ⟨1⟩ (.ofList ["paid"]) := by
    intro k
    cases k with
    | zero => exact ⟨_, ["paid", "paid"], rfl, .tuple _, by simp [Targets.mem_ofList]⟩
    | succ k => exact ⟨_, ["paid"], rfl, .set _, by simp [Targets.mem_ofList]⟩
  have hsame := (deferral_unnoticed (d := orders) (p := "draft") (by rfl) (by rfl) hq .empty).2.2
    flows chosen (fun _ _ => rfl) payment (.commit (some 0)) (Session.start blank)
  have hcommit : (((Step.commit (some 0)).act flows).run ps now.1 now.2).1.isOk = true := by decide
  have hok := (congrArg Except.isOk hsame.2.2.outcome).symm.trans hcommit
  exact ⟨hq, by decide, by decide, hsame.2.1, hok⟩

end Definition

end Lifecycle
