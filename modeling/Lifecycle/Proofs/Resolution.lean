import Lifecycle.Definition.Reachable
import Lifecycle.Proofs.Act
import Lifecycle.Proofs.Definition
import Lifecycle.Proofs.Wording

/-!
# Resolving the rule of a status

What may follow a status depends on the definition, the producers and the calls made so far, and not
on the state of whoever asks (`Definition.run_transitionsFrom`). A status that can be no key fails as
misuse, an undeclared one as an invalid rule, and a declared one answers as its rule does.
-/

namespace Lifecycle

variable {σ : Type} {ps : Producers} {j : Journal}

/-! ## Keys -/

theorem Datum.key_of_hashable {s : Datum} (h : s.hashable = true) : s.key = .ok s := by
  unfold Datum.key
  rw [if_pos h]

theorem Datum.key_of_unhashable {s : Datum} (h : s.hashable = false) :
    s.key = .error (.misuse (.unhashable s.kind)) := by
  unfold Datum.key
  rw [if_neg (by simp [h])]

/-! ## Texts among data -/

theorem Datum.mapM_text?_eq_some_iff {items : List Datum} {texts : List String} :
    items.mapM text? = some texts ↔ items = texts.map .text := by
  constructor
  · intro h
    induction items generalizing texts with
    | nil =>
      cases h
      rfl
    | cons d items ih =>
      rw [List.mapM_cons] at h
      cases d with
      | text t =>
        cases hrest : items.mapM text? with
        | none =>
          rw [hrest] at h
          cases h
        | some rest =>
          rw [hrest] at h
          cases h
          rw [ih hrest, List.map_cons]
      | _ => cases h
  · rintro rfl
    induction texts with
    | nil => rfl
    | cons t texts ih =>
      rw [List.map_cons, List.mapM_cons, ih]
      rfl

theorem Datum.mapM_text?_eq_none_iff {items : List Datum} :
    items.mapM text? = none ↔ ∃ d ∈ items, ∀ t, d ≠ .text t := by
  induction items with
  | nil => simp
  | cons d items ih =>
    rw [List.mapM_cons]
    cases d with
    | text t => cases hrest : items.mapM text? <;> simp_all [text?]
    | _ => simp [text?]

namespace Rule

/-! ## Invalid rules -/

theorem invalid_of_writable {status : Datum} (h : status.writable = true) (reason : String) :
    invalid status reason =
      .rejection { previous := status, next := .null, cause := .invalidRule reason } :=
  Failure.worded_of_writable (by simpa [Failure.mentions, Rejection.mentions] using h)

theorem invalid_of_unwritable {status : Datum} (h : status.writable = false) (reason : String) :
    invalid status reason = .misuse .tooManyDigits :=
  Failure.worded_of_unwritable (by simpa [Failure.mentions, Rejection.mentions] using h)

/-- The rejection of an invalid rule names no target, and its reason. -/
theorem eq_of_invalid {status : Datum} {reason : String} {r : Rejection}
    (h : invalid status reason = .rejection r) :
    r = { previous := status, next := .null, cause := .invalidRule reason } := by
  cases hstatus : status.writable with
  | true =>
    rw [invalid_of_writable hstatus] at h
    exact (Failure.rejection.inj h).symm
  | false =>
    rw [invalid_of_unwritable hstatus] at h
    cases h

/-! ## Resolution -/

theorem run_resolve (rule : Rule) (status : Datum) (s : σ) :
    (rule.resolve status).run ps j s =
      (((rule.resolve status).outcome ps j).1, ((rule.resolve status).outcome ps j).2, s) := by
  cases rule with
  | static targets => rfl
  | deferred p =>
    simp only [Act.outcome, resolve, Act.run_bind, Act.run_call]
    cases ps p (j.calls.count p) <;> rfl
  | unsupported kind => rfl

@[simp] theorem outcome_resolve_static (targets : Targets) (status : Datum) :
    ((static targets).resolve status).outcome ps j = (.ok targets, j) := rfl

theorem outcome_resolve_deferred (p : Producer) (status : Datum) :
    ((deferred p).resolve status).outcome ps j =
      ((ps p (j.calls.count p)).bind (targetsOf status), { j with calls := j.calls ++ [p] }) := by
  simp only [Act.outcome, resolve, Act.run_bind, Act.run_call]
  cases ps p (j.calls.count p) <;> rfl

@[simp] theorem outcome_resolve_unsupported (kind : Kind) (status : Datum) :
    ((unsupported kind).resolve status).outcome ps j =
      (.error (invalid status s!"unsupported rule type {kind.name}"), j) := rfl

/-! ## Listed targets -/

/-- A collection with its members, in one of the four shapes in which targets can be listed. -/
inductive Lists : Datum → List Datum → Prop
  | list (items : List Datum) : Lists (.list items) items
  | tuple (items : List Datum) : Lists (.tuple items) items
  | set (items : List Datum) : Lists (.set items) items
  | frozenset (items : List Datum) : Lists (.frozenset items) items

theorem listed?_eq_some_iff {d : Datum} {items : List Datum} :
    listed? d = some items ↔ Lists d items := by
  constructor
  · intro h
    cases d <;> cases h <;> constructor
  · intro h
    cases h <;> rfl

theorem listed?_eq_none_iff {d : Datum} : listed? d = none ↔ ∀ items, ¬ Lists d items := by
  simp only [Option.eq_none_iff_forall_ne_some, ne_eq, listed?_eq_some_iff]

/-- A producer's answer is not fit only in that it does not list texts, and that is an invalid
rule. -/
theorem targetsOf_error {status answer : Datum} {e : Failure}
    (h : targetsOf status answer = .error e) : ∃ reason, e = invalid status reason := by
  unfold targetsOf at h
  split at h
  · cases h
    exact ⟨_, rfl⟩
  · split at h
    · cases h
      exact ⟨_, rfl⟩
    · cases h

end Rule

namespace Definition

variable {d : Definition} {status : Datum}

/-- The undeclared statuses as failures. -/
def undeclared (status : Datum) : Failure :=
  Rule.invalid status "status is not declared in the workflow"

theorem run_transitionsFrom (d : Definition) (status : Datum) (s : σ) :
    (d.transitionsFrom status).run ps j s =
      (((d.transitionsFrom status).outcome ps j).1, ((d.transitionsFrom status).outcome ps j).2,
        s) := by
  simp only [Act.outcome, transitionsFrom, Act.run_bind, Act.run_ofExcept]
  rcases d.node status with e | _ | node
  · rfl
  · rfl
  · exact Rule.run_resolve node.rule status s

theorem outcome_transitionsFrom_of_unhashable (h : status.hashable = false) :
    (d.transitionsFrom status).outcome ps j = (.error (.misuse (.unhashable status.kind)), j) := by
  simp only [Act.outcome, transitionsFrom, Act.run_bind, Act.run_ofExcept, node,
    Datum.key_of_unhashable h]
  rfl

theorem outcome_transitionsFrom_of_undeclared (hkey : status.hashable = true)
    (h : d.declares status = false) :
    (d.transitionsFrom status).outcome ps j = (.error (undeclared status), j) := by
  have hnode : d.statuses.get? status = none := Table.get?_eq_none_iff.2 h
  simp only [Act.outcome, transitionsFrom, Act.run_bind, Act.run_ofExcept, node,
    Datum.key_of_hashable hkey, Except.map, hnode]
  rfl

theorem outcome_transitionsFrom_of_node {n : Node} (hkey : status.hashable = true)
    (h : d.statuses.get? status = some n) :
    (d.transitionsFrom status).outcome ps j = (n.rule.resolve status).outcome ps j := by
  simp only [Act.outcome, transitionsFrom, Act.run_bind, Act.run_ofExcept, node,
    Datum.key_of_hashable hkey, Except.map, h]

theorem exists_node_of_declares (h : d.declares status = true) :
    ∃ n, d.statuses.get? status = some n := by
  rw [← Option.isSome_iff_exists, Table.isSome_get?]
  exact h

/-- All that asking for the targets of a status can do. -/
theorem transitionsFrom_cases (d : Definition) (status : Datum) (ps : Producers) (j : Journal) :
    status.hashable = false ∧ (d.transitionsFrom status).outcome ps j =
        (.error (.misuse (.unhashable status.kind)), j) ∨
      d.declares status = false ∧ (d.transitionsFrom status).outcome ps j =
        (.error (undeclared status), j) ∨
      ∃ n, d.node status = .ok (some n) ∧ d.statuses.get? status = some n ∧
        (d.transitionsFrom status).outcome ps j = (n.rule.resolve status).outcome ps j := by
  cases hkey : status.hashable with
  | false => exact .inl ⟨rfl, outcome_transitionsFrom_of_unhashable hkey⟩
  | true =>
    cases hn : d.statuses.get? status with
    | none =>
      have hdecl : d.declares status = false := Table.get?_eq_none_iff.1 hn
      exact .inr (.inl ⟨hdecl, outcome_transitionsFrom_of_undeclared hkey hdecl⟩)
    | some n =>
      have hnode : d.node status = .ok (some n) := by
        unfold node
        rw [Datum.key_of_hashable hkey, ← hn]
        rfl
      exact .inr (.inr ⟨n, hnode, rfl, outcome_transitionsFrom_of_node hkey hn⟩)

/-- Only a declared status has targets. -/
theorem declares_of_transitionsFrom {targets : Targets}
    (h : ((d.transitionsFrom status).outcome ps j).1 = .ok targets) :
    d.declares status = true := by
  rcases transitionsFrom_cases d status ps j with ⟨-, hout⟩ | ⟨-, hout⟩ | ⟨n, -, hn, -⟩
  · rw [hout] at h
    cases h
  · rw [hout] at h
    cases h
  · exact declares_of_get? hn

theorem run_orderedTransitions (d : Definition) (status : Datum) (s : σ) :
    (d.orderedTransitions status).run ps j s =
      (((d.transitionsFrom status).outcome ps j).1.map d.inOrder,
        ((d.transitionsFrom status).outcome ps j).2, s) := by
  simp only [orderedTransitions, Act.run_bind, run_transitionsFrom]
  rcases (d.transitionsFrom status).outcome ps j with ⟨_ | targets, j'⟩ <;> rfl

theorem hasStatus_of_hashable (d : Definition) (h : status.hashable = true) :
    d.hasStatus status = .ok (d.declares status) := by
  unfold hasStatus
  rw [Datum.key_of_hashable h]
  rfl

theorem hasStatus_of_unhashable (d : Definition) (h : status.hashable = false) :
    d.hasStatus status = .error (.misuse (.unhashable status.kind)) := by
  unfold hasStatus
  rw [Datum.key_of_unhashable h]
  rfl

end Definition

end Lifecycle
