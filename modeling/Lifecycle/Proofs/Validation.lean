import Lifecycle.Proofs.Resolution
import Lifecycle.Transition

/-!
# What validation accepts

A transition passes for a new entity, for an unchanged status, and else just when the next status is
declared and among the targets that the previous one resolves to (`Transition.validate_ok_iff`).
Like resolution, validation does not touch the state. The boolean question and the one with words
read its outcome (`Transition.verdict`), and both put an acceptance into words.
-/

namespace Lifecycle

namespace Targets

theorem admits_iff {targets : Targets} {s : Datum} :
    targets.admits s = true ↔ ∃ t ∈ targets, s = .text t := by
  cases s with
  | text t =>
    unfold admits contains
    rw [List.contains_iff_mem]
    constructor
    · intro h
      exact ⟨t, h, rfl⟩
    · rintro ⟨t', h, heq⟩
      cases heq
      exact h
  | _ => simp [admits]

end Targets

namespace Transition

variable {σ : Type} {ps : Producers} {j : Journal} {d : Definition} {previous next : Datum}

theorem run_require (d : Definition) (previous next : Datum) (s : σ) :
    (require d previous next).run ps j s =
      (((require d previous next).outcome ps j).1, ((require d previous next).outcome ps j).2,
        s) := by
  simp only [Act.outcome, require, Act.run_bind, Act.run_ofExcept]
  rcases d.hasStatus next with e | _ | _
  · rfl
  · rfl
  · simp only [if_true, Act.run_bind, Definition.run_transitionsFrom]
    rcases (d.transitionsFrom previous).outcome ps j with ⟨_ | targets, j'⟩
    · rfl
    · cases h : targets.admits next <;> simp [h]

theorem outcome_require_of_unhashable (h : next.hashable = false) :
    (require d previous next).outcome ps j = (.error (.misuse (.unhashable next.kind)), j) := by
  simp only [Act.outcome, require, Act.run_bind, Act.run_ofExcept,
    Definition.hasStatus_of_unhashable d h]

theorem outcome_require_of_undeclared (hkey : next.hashable = true)
    (h : d.declares next = false) :
    (require d previous next).outcome ps j =
      (.error (Failure.rejection { previous, next, cause := .unknownTarget next d.name }).worded,
        j) := by
  simp only [Act.outcome, require, Act.run_bind, Act.run_ofExcept,
    Definition.hasStatus_of_hashable d hkey, h]
  rfl

theorem outcome_require_of_declared (hkey : next.hashable = true) (h : d.declares next = true) :
    (require d previous next).outcome ps j =
      (match ((d.transitionsFrom previous).outcome ps j).1 with
        | .error e => .error e
        | .ok targets =>
          if targets.admits next then .ok ()
          else .error (Failure.rejection { previous, next, cause := .notAllowed next }).worded,
        ((d.transitionsFrom previous).outcome ps j).2) := by
  rw [Act.outcome]
  simp only [require, Act.run_bind, Act.run_ofExcept, Definition.hasStatus_of_hashable d hkey, h,
    Definition.run_transitionsFrom, if_true]
  rcases (d.transitionsFrom previous).outcome ps j with ⟨_ | targets, j'⟩
  · rfl
  · cases h : targets.admits next <;> simp [h]

theorem require_ok_iff :
    ((require d previous next).outcome ps j).1 = .ok () ↔
      next.hashable = true ∧ d.declares next = true ∧
        ∃ targets, ((d.transitionsFrom previous).outcome ps j).1 = .ok targets ∧
          targets.admits next = true := by
  cases hkey : next.hashable with
  | false => simp [outcome_require_of_unhashable hkey]
  | true =>
    cases hdecl : d.declares next with
    | false => simp [outcome_require_of_undeclared hkey hdecl]
    | true =>
      rw [outcome_require_of_declared hkey hdecl]
      cases ((d.transitionsFrom previous).outcome ps j).1 with
      | error e => simp
      | ok targets => cases hadmits : targets.admits next <;> simp [hadmits]

/-! ## The outcome of validation -/

theorem run_validate (d : Definition) (previous next : Datum) (isNew : Bool) (s : σ) :
    (validate d previous next isNew).run ps j s =
      (((validate d previous next isNew).outcome ps j).1,
        ((validate d previous next isNew).outcome ps j).2, s) := by
  unfold validate
  split
  · rfl
  · rw [Act.outcome]
    simp only [Act.run_bind, Act.run_attempt, run_require]
    rcases (require d previous next).outcome ps j with ⟨e | _, j'⟩
    · cases e <;> rfl
    · rfl

theorem outcome_validate_of_trivial {isNew : Bool} (h : (isNew || previous == next) = true) :
    (validate d previous next isNew).outcome ps j = (.ok (), j) := by
  unfold validate
  rw [if_pos h]
  rfl

/-- What validation reports and answers once the requirement has been tried. -/
def concluded (d : Definition) (previous next : Datum) (outcome : Except Failure Unit)
    (j : Journal) : Except Failure Unit × Journal :=
  match outcome with
  | .ok () => (.ok (), { j with events := j.events ++ [.accepted previous next] })
  | .error (.rejection r) =>
    (.error (.rejection (if r.next.isNull then { r with next := next } else r)),
      { j with events := j.events ++ [.rejected d.name previous next r.cause] })
  | .error e => (.error e, j)

theorem outcome_validate_of_change {isNew : Bool} (h : (isNew || previous == next) = false) :
    (validate d previous next isNew).outcome ps j =
      concluded d previous next ((require d previous next).outcome ps j).1
        ((require d previous next).outcome ps j).2 := by
  unfold validate
  rw [if_neg (by simp [h]), Act.outcome]
  simp only [Act.run_bind, Act.run_attempt, run_require]
  rcases (require d previous next).outcome ps j with ⟨e | _, j'⟩
  · cases e <;> rfl
  · rfl

theorem concluded_ok_iff {outcome : Except Failure Unit} :
    (concluded d previous next outcome j).1 = .ok () ↔ outcome = .ok () := by
  rcases outcome with e | _
  · cases e <;> simp [concluded]
  · simp [concluded]

theorem calls_concluded (d : Definition) (previous next : Datum) (outcome : Except Failure Unit)
    (j : Journal) : (concluded d previous next outcome j).2.calls = j.calls := by
  rcases outcome with e | _
  · cases e <;> rfl
  · rfl

theorem validate_ok_iff {isNew : Bool} :
    ((validate d previous next isNew).outcome ps j).1 = .ok () ↔
      isNew = true ∨ (previous == next) = true ∨
        next.hashable = true ∧ d.declares next = true ∧
          ∃ targets, ((d.transitionsFrom previous).outcome ps j).1 = .ok targets ∧
            targets.admits next = true := by
  cases h : (isNew || previous == next) with
  | true =>
    rw [outcome_validate_of_trivial h]
    rw [Bool.or_eq_true] at h
    simp only [true_iff]
    exact h.imp_right Or.inl
  | false =>
    rw [outcome_validate_of_change h, concluded_ok_iff, require_ok_iff]
    obtain ⟨hnew, heq⟩ := Bool.or_eq_false_iff.1 h
    simp [hnew, heq]

/-- A change that passes has called what the previous status calls when it is resolved. -/
theorem calls_validate_of_declared (ps : Producers) (j : Journal) {isNew : Bool}
    (h : (isNew || previous == next) = false)
    (hkey : next.hashable = true) (hdecl : d.declares next = true) :
    ((validate d previous next isNew).outcome ps j).2.calls =
      ((d.transitionsFrom previous).outcome ps j).2.calls := by
  rw [outcome_validate_of_change h, calls_concluded, outcome_require_of_declared hkey hdecl]

/-! ## The questions that read the outcome -/

/-- Whether an outcome is an acceptance. What is no rejection stays a failure. -/
def verdict : Except Failure Unit → Except Failure Bool
  | .ok () => .ok true
  | .error (.rejection _) => .ok false
  | .error e => .error e

theorem eq_error_of_verdict {outcome : Except Failure Unit} {e : Failure}
    (h : verdict outcome = .error e) : outcome = .error e := by
  rcases outcome with e' | _
  · cases e' <;> cases h <;> rfl
  · cases h

/-- The boolean question: an acceptance is put into words, though they are not asked for. -/
def verdictInWords (previous next : Datum) (outcome : Except Failure Unit) : Except Failure Bool :=
  match verdict outcome with
  | .ok true => (words previous next).map fun _ => true
  | answer => answer

theorem words_of_writable (hprevious : previous.writable = true) (hnext : next.writable = true) :
    words previous next = .ok (previous.form ++ " -> " ++ next.form) := by
  unfold words
  rw [Datum.shown_of_writable hprevious, Datum.shown_of_writable hnext]
  rfl

theorem words_of_unwritable (h : previous.writable = true → next.writable = false) :
    words previous next = .error (.misuse .tooManyDigits) := by
  unfold words
  cases hprevious : previous.writable with
  | false =>
    rw [Datum.shown_of_unwritable hprevious]
    rfl
  | true =>
    rw [Datum.shown_of_writable hprevious, Datum.shown_of_unwritable (h hprevious)]
    rfl

/-- The words for a transition are there unless one of the two statuses has no text. -/
theorem words_cases (previous next : Datum) :
    words previous next = .ok (previous.form ++ " -> " ++ next.form) ∨
      words previous next = .error (.misuse .tooManyDigits) ∧
        ∃ x ∈ [previous, next], x.writable = false := by
  by_cases h : previous.writable = true ∧ next.writable = true
  · exact .inl (words_of_writable h.1 h.2)
  · simp only [not_and, Bool.not_eq_true] at h
    refine .inr ⟨words_of_unwritable h, ?_⟩
    cases hprevious : previous.writable with
    | false => exact ⟨previous, by simp, hprevious⟩
    | true => exact ⟨next, by simp, h hprevious⟩

theorem wordedAs_verdictInWords (previous next : Datum) (outcome : Except Failure Unit) :
    WordedAs (· ∈ [previous, next]) (verdict outcome) (verdictInWords previous next outcome) := by
  unfold verdictInWords
  split
  · rename_i hverdict
    rw [hverdict]
    rcases words_cases previous next with hwords | ⟨hwords, hunwritable⟩
    · rw [hwords]
      exact .refl _ _
    · rw [hwords]
      exact .inr ⟨rfl, hunwritable⟩
  · exact .refl _ _

theorem outcome_check (d : Definition) (previous next : Datum) :
    ((check d previous next).outcome ps j).1.map Prod.fst =
      verdictInWords previous next ((validate d previous next false).outcome ps j).1 := by
  simp only [Act.outcome, check, Act.run_bind, Act.run_attempt]
  rcases ((validate d previous next false).run ps j ()).1 with e | _
  · cases e <;> rfl
  · simp only [Act.run_bind, Act.run_ofExcept, verdictInWords, verdict]
    cases words previous next <;> rfl

theorem outcome_isPermitted_eq_map (d : Definition) (previous next : Datum) :
    ((isPermitted d previous next).outcome ps j).1 =
      ((check d previous next).outcome ps j).1.map Prod.fst := by
  simp only [Act.outcome, isPermitted, Act.run_bind]
  rcases (check d previous next).run ps j () with ⟨_ | answer, j', s⟩ <;> rfl

theorem outcome_isPermitted (d : Definition) (previous next : Datum) :
    ((isPermitted d previous next).outcome ps j).1 =
      verdictInWords previous next ((validate d previous next false).outcome ps j).1 := by
  rw [outcome_isPermitted_eq_map, outcome_check]

end Transition

end Lifecycle
