import Lifecycle.Proofs.Agreement
import Lifecycle.Proofs.Asking

/-!
# Which rule is evaluated

A question about transitions evaluates at most one rule, that of its source, and only where the
answer depends on it (`Evaluation.Due`). An operation of an attachment makes just the calls of the
one question that it comes to, if any (`Attachment.calls_operation`).
-/

namespace Lifecycle

variable {ps : Producers} {j : Journal}

/-! ## Evaluations -/

/-- The question where a source may lead, or whether it may lead to a target. -/
structure Evaluation where
  definition : Definition
  source : Datum
  target : Option Datum

namespace Evaluation

/-- The producer has to be asked: it stands for the rule of the source, and the target, if there is
one, is declared and not the source itself. -/
structure Due (e : Evaluation) (p : Producer) : Prop where
  rule : ∃ n, e.definition.node e.source = .ok (some n) ∧ n.rule = .deferred p
  unsettled : ∀ t, e.target = some t →
    (e.source == t) = false ∧ e.definition.hasStatus t = .ok true

/-- The producer that stands for the rule of the source, if there is one. -/
def producer? (e : Evaluation) : Option Producer :=
  match e.definition.node e.source with
  | .ok (some { rule := .deferred p, .. }) => some p
  | _ => none

/-- Whether a target needs no rule: it is not declared, or it is the source. -/
def isSettled (e : Evaluation) : Bool :=
  e.target.any fun t => e.source == t || !(t.hashable && e.definition.declares t)

/-- The calls that the evaluation makes. -/
def calls (e : Evaluation) : List Producer :=
  if e.isSettled then [] else e.producer?.toList

variable {e : Evaluation} {p : Producer}

theorem producer?_eq_some_iff : e.producer? = some p ↔
    ∃ n, e.definition.node e.source = .ok (some n) ∧ n.rule = .deferred p := by
  unfold producer?
  constructor
  · intro h
    split at h
    · rename_i hnode
      cases h
      exact ⟨_, hnode, rfl⟩
    · cases h
  · rintro ⟨n, hnode, hrule⟩
    obtain ⟨rule, label, actionLabel⟩ := n
    cases hrule
    rw [hnode]

theorem isSettled_eq_false_iff : e.isSettled = false ↔ ∀ t, e.target = some t →
    (e.source == t) = false ∧ e.definition.hasStatus t = .ok true := by
  unfold isSettled
  cases e.target with
  | none => simp
  | some t =>
    cases hkey : t.hashable with
    | false => simp [Definition.hasStatus_of_unhashable _ hkey, hkey]
    | true => simp [Definition.hasStatus_of_hashable _ hkey, hkey]

theorem length_calls_le (e : Evaluation) : e.calls.length ≤ 1 := by
  unfold calls
  split
  · exact Nat.zero_le 1
  · cases e.producer? with
    | none => exact Nat.zero_le 1
    | some p => exact Nat.le_refl 1

theorem mem_calls_iff : p ∈ e.calls ↔ e.Due p := by
  unfold calls
  split
  · rename_i hsettled
    refine ⟨fun h => absurd h (List.not_mem_nil), fun h => ?_⟩
    rw [isSettled_eq_false_iff.2 h.unsettled] at hsettled
    cases hsettled
  · rename_i hsettled
    rw [Bool.not_eq_true, isSettled_eq_false_iff] at hsettled
    rw [Option.mem_toList, producer?_eq_some_iff]
    exact ⟨fun h => ⟨h, hsettled⟩, fun h => h.rule⟩

variable {d : Definition} {source t : Datum}

theorem calls_of_equal (h : (source == t) = true) :
    (Evaluation.mk d source (some t)).calls = [] := by
  refine if_pos ?_
  unfold isSettled
  rw [Option.any_some, h, Bool.true_or]

theorem calls_of_unhashable (h : t.hashable = false) :
    (Evaluation.mk d source (some t)).calls = [] := by
  refine if_pos ?_
  unfold isSettled
  rw [Option.any_some, h, Bool.false_and, Bool.not_false, Bool.or_true]

theorem calls_of_undeclared (h : d.declares t = false) :
    (Evaluation.mk d source (some t)).calls = [] := by
  refine if_pos ?_
  unfold isSettled
  rw [Option.any_some, h, Bool.and_false, Bool.not_false, Bool.or_true]

/-- A declared target other than the source leaves it to the rule. -/
theorem calls_of_unsettled (hne : (source == t) = false) (hkey : t.hashable = true)
    (hdecl : d.declares t = true) :
    (Evaluation.mk d source (some t)).calls = (Evaluation.mk d source none).calls := by
  refine if_neg ?_
  unfold isSettled
  rw [Option.any_some, hne, hkey, hdecl]
  simp

end Evaluation

/-! ## Calls of the questions -/

namespace Definition

/-- Asking for the targets of a status calls what stands for its rule. -/
theorem calls_transitionsFrom (d : Definition) (source : Datum) :
    ((d.transitionsFrom source).outcome ps j).2.calls =
      j.calls ++ (Evaluation.mk d source none).calls := by
  have hcalls : (Evaluation.mk d source none).calls =
      (Evaluation.mk d source none).producer?.toList := rfl
  rw [hcalls]
  cases hp : (Evaluation.mk d source none).producer? with
  | some p =>
    obtain ⟨n, hnode, hrule⟩ := Evaluation.producer?_eq_some_iff.1 hp
    simp only at hnode
    have hout : (d.transitionsFrom source).outcome ps j = (n.rule.resolve source).outcome ps j := by
      simp only [Act.outcome, transitionsFrom, Act.run_bind, Act.run_ofExcept, hnode]
    rw [hout, hrule, Rule.outcome_resolve_deferred]
    rfl
  | none =>
    have hquiet : ∀ n q, d.node source = .ok (some n) → n.rule ≠ .deferred q := by
      intro n q hnode hrule
      rw [Evaluation.producer?_eq_some_iff.2 ⟨n, hnode, hrule⟩] at hp
      cases hp
    rw [Option.toList_none, List.append_nil]
    rcases transitionsFrom_cases d source ps j with ⟨-, hout⟩ | ⟨-, hout⟩ | ⟨n, hnode, -, hout⟩
    · rw [hout]
    · rw [hout]
    · rw [hout]
      cases hrule : n.rule with
      | deferred q => exact absurd hrule (hquiet n q hnode)
      | static targets => rfl
      | unsupported kind => rfl

end Definition

namespace Transition

variable {d : Definition} {previous next : Datum}

theorem calls_require (hne : (previous == next) = false) :
    ((require d previous next).outcome ps j).2.calls =
      j.calls ++ (Evaluation.mk d previous (some next)).calls := by
  cases hkey : next.hashable with
  | false =>
    rw [outcome_require_of_unhashable hkey, Evaluation.calls_of_unhashable hkey, List.append_nil]
  | true =>
    cases hdecl : d.declares next with
    | false =>
      rw [outcome_require_of_undeclared hkey hdecl, Evaluation.calls_of_undeclared hdecl,
        List.append_nil]
    | true =>
      rw [outcome_require_of_declared hkey hdecl, Evaluation.calls_of_unsettled hne hkey hdecl]
      exact d.calls_transitionsFrom previous

theorem calls_validate (d : Definition) (previous next : Datum) (isNew : Bool) :
    ((validate d previous next isNew).outcome ps j).2.calls =
      j.calls ++ if isNew then [] else (Evaluation.mk d previous (some next)).calls := by
  cases isNew with
  | true =>
    rw [outcome_validate_of_trivial rfl]
    exact (List.append_nil _).symm
  | false =>
    cases heq : previous == next with
    | true =>
      have htrivial : (false || previous == next) = true := by rw [heq, Bool.or_true]
      rw [outcome_validate_of_trivial htrivial, Evaluation.calls_of_equal heq]
      exact (List.append_nil _).symm
    | false =>
      have hchange : (false || previous == next) = false := by rw [heq, Bool.or_false]
      rw [outcome_validate_of_change hchange, calls_concluded, calls_require heq]
      rfl

theorem calls_check {σ : Type} (d : Definition) (previous next : Datum) (s : σ) :
    ((check d previous next).run ps j s).2.1.calls =
      j.calls ++ (Evaluation.mk d previous (some next)).calls := by
  unfold check
  refine (Act.calls_bind_of_quiet fun outcome => ?_).trans ?_
  · split
    · exact (Act.quiet_ofExcept _).bind fun _ => Act.quiet_pure _
    · exact Act.quiet_pure _
    · exact Act.quiet_fail _
  · rw [Act.run_attempt, run_validate]
    exact calls_validate d previous next false

end Transition

/-! ## Calls of the operations -/

/-- What an operation of an attachment evaluates, where it finds its field. -/
def Operation.evaluation? {ρ : Type} [Accessor ρ] (a : Attachment) (s : Attached ρ) :
    Operation → Option Evaluation
  | .nextStatuses | .nextActions =>
    if s.finds a then some ⟨a.definition, s.staged a, none⟩ else none
  | .canTransitionTo t =>
    if s.finds a && !(s.staged a).isNull then some ⟨a.definition, s.staged a, some t⟩ else none
  | .validateBeforeCommit =>
    if s.finds a && !Accessor.isNew (s.afterRead a).entity then
      some ⟨a.definition, Accessor.persisted s.entity a.field, some (s.staged a)⟩
    else none
  | .start | .propose _ | .currentStatus | .statusLabel | .dropdown _ => none

namespace Attachment

open Act (Quiet)

variable {ρ : Type} [Accessor ρ] {a : Attachment} {s : Attached ρ} {t : Datum}

theorem quiet_requireField (a : Attachment) : Quiet (a.requireField : Act (Attached ρ) Unit) := by
  intro ps j s
  rw [run_requireField]
  split <;> rfl

theorem quiet_readStatus (a : Attachment) : Quiet (a.readStatus : Act (Attached ρ) Datum) :=
  fun _ _ _ => rfl

theorem quiet_writeStatus (a : Attachment) (status : Datum) :
    Quiet (a.writeStatus status : Act (Attached ρ) Unit) := fun _ _ _ => rfl

theorem quiet_start (a : Attachment) : Quiet (a.start : Act (Attached ρ) Unit) :=
  (quiet_requireField a).bind fun _ => quiet_writeStatus a _

theorem quiet_propose (a : Attachment) (status : Datum) :
    Quiet (a.propose status : Act (Attached ρ) Bool) := by
  refine (quiet_requireField a).bind fun _ => (quiet_readStatus a).bind fun current => ?_
  split
  · exact Act.quiet_pure _
  · exact (quiet_writeStatus a status).bind fun _ => Act.quiet_pure _

theorem quiet_currentStatus (a : Attachment) :
    Quiet (a.currentStatus : Act (Attached ρ) Datum) :=
  (quiet_requireField a).bind fun _ => quiet_readStatus a

theorem calls_nextStatuses_of_found (h : s.finds a = true) :
    (a.nextStatuses.run ps j s).2.1.calls =
      j.calls ++ (Evaluation.mk a.definition (s.staged a) none).calls := by
  have hcalls : ((a.definition.transitionsFrom (s.staged a)).outcome ps j).2.calls = _ :=
    a.definition.calls_transitionsFrom (s.staged a)
  cases hkey : (s.staged a).hashable with
  | false =>
    rw [Definition.outcome_transitionsFrom_of_unhashable hkey] at hcalls
    rw [run_nextStatuses_of_unhashable h hkey, ← hcalls]
  | true =>
    cases hdecl : a.definition.declares (s.staged a) with
    | false =>
      rw [Definition.outcome_transitionsFrom_of_undeclared hkey hdecl] at hcalls
      rw [run_nextStatuses_of_undeclared h hkey hdecl, ← hcalls]
    | true =>
      rw [run_nextStatuses_of_declared h hkey hdecl]
      exact hcalls

theorem calls_canTransitionTo_of_found (h : s.finds a = true)
    (hnull : (s.staged a).isNull = false) :
    ((a.canTransitionTo t).run ps j s).2.1.calls =
      j.calls ++ (Evaluation.mk a.definition (s.staged a) (some t)).calls := by
  cases hkey : t.hashable with
  | true =>
    rw [run_canTransitionTo h hnull hkey]
    unfold asked
    cases heq : s.staged a == t with
    | true =>
      rw [Evaluation.calls_of_equal heq, List.append_nil]
      rfl
    | false =>
      cases hdecl : a.definition.declares t with
      | false =>
        rw [Evaluation.calls_of_undeclared hdecl, List.append_nil]
        rfl
      | true =>
        rw [Evaluation.calls_of_unsettled heq hkey hdecl]
        exact a.definition.calls_transitionsFrom (s.staged a)
  | false =>
    -- The target is looked up only where it is not the staged status; the look-up fails.
    rw [Evaluation.calls_of_unhashable hkey, List.append_nil]
    unfold canTransitionTo
    rw [Act.run_bind, run_currentStatus h]
    dsimp only
    rw [hnull]
    cases heq : s.staged a == t with
    | true => rfl
    | false =>
      simp only [Bool.false_eq_true, if_false, Act.run_bind, Act.run_ofExcept,
        Definition.hasStatus_of_unhashable _ hkey]

theorem calls_nextStatuses (a : Attachment) (s : Attached ρ) :
    (a.nextStatuses.run ps j s).2.1.calls =
      j.calls ++ (Operation.nextStatuses.evaluation? a s).elim [] Evaluation.calls := by
  unfold Operation.evaluation?
  cases h : s.finds a with
  | true => exact calls_nextStatuses_of_found h
  | false =>
    unfold nextStatuses
    rw [Act.run_bind, run_currentStatus_of_missing h]
    exact (List.append_nil _).symm

theorem calls_canTransitionTo (a : Attachment) (s : Attached ρ) (t : Datum) :
    ((a.canTransitionTo t).run ps j s).2.1.calls =
      j.calls ++ ((Operation.canTransitionTo t).evaluation? a s).elim [] Evaluation.calls := by
  unfold Operation.evaluation?
  cases h : s.finds a with
  | true =>
    cases hnull : (s.staged a).isNull with
    | false => exact calls_canTransitionTo_of_found h hnull
    | true =>
      unfold canTransitionTo
      rw [Act.run_bind, run_currentStatus h]
      dsimp only
      rw [hnull]
      exact (List.append_nil _).symm
  | false =>
    unfold canTransitionTo
    rw [Act.run_bind, run_currentStatus_of_missing h]
    exact (List.append_nil _).symm

theorem calls_validateBeforeCommit (a : Attachment) (s : Attached ρ) :
    (a.validateBeforeCommit.run ps j s).2.1.calls =
      j.calls ++ (Operation.validateBeforeCommit.evaluation? a s).elim [] Evaluation.calls := by
  unfold Operation.evaluation?
  cases h : s.finds a with
  | true =>
    rw [run_validateBeforeCommit h]
    have hcalls : ((s.validation a).outcome ps j).2.calls = _ :=
      Transition.calls_validate a.definition (Accessor.persisted s.entity a.field) (s.staged a)
        (Accessor.isNew (s.afterRead a).entity)
    dsimp only
    rw [hcalls]
    cases Accessor.isNew (s.afterRead a).entity <;> rfl
  | false =>
    rw [run_validateBeforeCommit_of_missing h]
    exact (List.append_nil _).symm

/-- An operation makes just the calls of what it evaluates. -/
theorem calls_operation (a : Attachment) (op : Operation) (s : Attached ρ) :
    ((op.act a).run ps j s).2.1.calls =
      j.calls ++ (op.evaluation? a s).elim [] Evaluation.calls := by
  have hquiet {act : Act (Attached ρ) Answer} (h : Quiet act) :
      (act.run ps j s).2.1.calls = j.calls ++ [] := h.calls_append_nil ps j s
  cases op with
  | start => exact hquiet ((quiet_start a).bind fun _ => Act.quiet_pure _)
  | propose status => exact hquiet ((quiet_propose a status).bind fun _ => Act.quiet_pure _)
  | currentStatus => exact hquiet ((quiet_currentStatus a).bind fun _ => Act.quiet_pure _)
  | statusLabel =>
    exact hquiet (((quiet_currentStatus a).bind fun _ => Act.quiet_ofExcept _).bind fun _ =>
      Act.quiet_pure _)
  | dropdown action => exact hquiet ((Act.quiet_ofExcept _).bind fun _ => Act.quiet_pure _)
  | nextStatuses =>
    exact (Act.calls_bind_of_quiet fun _ => Act.quiet_pure _).trans (calls_nextStatuses a s)
  | nextActions =>
    refine (Act.calls_bind_of_quiet fun _ => Act.quiet_pure _).trans ?_
    exact (Act.calls_bind_of_quiet fun _ => Act.quiet_ofExcept _).trans (calls_nextStatuses a s)
  | canTransitionTo t =>
    exact (Act.calls_bind_of_quiet fun _ => Act.quiet_pure _).trans (calls_canTransitionTo a s t)
  | validateBeforeCommit =>
    exact (Act.calls_bind_of_quiet fun _ => Act.quiet_pure _).trans (calls_validateBeforeCommit a s)

end Attachment

end Lifecycle
