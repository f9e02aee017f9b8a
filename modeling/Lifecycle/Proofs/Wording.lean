import Lifecycle.Rule
import Mathlib.Algebra.Ring.Int.Defs
import Mathlib.Algebra.Ring.Nat

/-!
# What can be written

A datum has a text just if no integer in it is too long, so data have texts just if each of them has
(`Datum.mapM_shown`). A failure that puts data into words is itself only if all of them have texts
(`Failure.worded_cases`). `WordedAs` is what can be said of an outcome whose words may be missing.
-/

namespace Lifecycle

theorem Decimal.isShort_iff {n : Int} : isShort n = true ↔ n.natAbs < 10 ^ maxIntegerDigits := by
  unfold isShort
  rw [decide_eq_true_iff]
  exact Nat.length_toDigits_le_iff (by decide) (by decide)

/-! ## Data -/

namespace Datum

variable {β : Type}

/-- Data are written one after another, up to the first that cannot be. -/
theorem mapM_shown_map (f : String → β) (items : List Datum) :
    (items.mapM fun d => d.shown.map f) =
      if items.all writable then .ok (items.map fun d => f d.form)
      else .error (.misuse .tooManyDigits) := by
  induction items with
  | nil => rfl
  | cons d items ih =>
    rw [List.mapM_cons, ih, List.all_cons]
    cases hd : d.writable with
    | false =>
      rw [shown_of_unwritable hd]
      rfl
    | true =>
      rw [shown_of_writable hd]
      cases items.all writable <;> rfl

theorem mapM_shown (items : List Datum) :
    items.mapM shown =
      if items.all writable then .ok (items.map form) else .error (.misuse .tooManyDigits) := by
  have hid : (fun d : Datum => d.shown) = fun d => d.shown.map id := by
    funext d
    cases d.shown <;> rfl
  change (items.mapM fun d => d.shown) = _
  rw [hid, mapM_shown_map]
  rfl

theorem allWritable_eq (items : List Datum) : allWritable items = items.all writable := by
  induction items with
  | nil => rfl
  | cons d items ih =>
    rw [allWritable, ih]
    rfl

theorem entriesWritable_eq (entries : List (Datum × Datum)) :
    entriesWritable entries = entries.all fun e => e.1.writable && e.2.writable := by
  induction entries with
  | nil => rfl
  | cons e entries ih =>
    rw [entriesWritable, ih]
    rfl

/-- What has no text counts as true: it is an integer too long to be zero, or holds one. -/
theorem truthy_of_unwritable {d : Datum} (h : d.writable = false) : d.truthy = true := by
  cases d with
  | int n =>
    refine bne_iff_ne.2 ?_
    rintro rfl
    cases h
  | list items | tuple items | set items | frozenset items | map items =>
    cases items with
    | nil => cases h
    | cons => rfl
  | _ => cases h

theorem writable_of_not_truthy {d : Datum} (h : d.truthy = false) : d.writable = true := by
  cases hwritable : d.writable with
  | true => rfl
  | false =>
    rw [truthy_of_unwritable hwritable] at h
    cases h

theorem shownOr_eq (d : Datum) (alternative : String) : d.shownOr alternative =
    if d.writable then .ok (d.formOr alternative) else .error (.misuse .tooManyDigits) := by
  unfold shownOr formOr
  cases htruthy : d.truthy with
  | true => rfl
  | false =>
    rw [writable_of_not_truthy htruthy]
    rfl

/-- The least integer that has no text. -/
def tooLong : Datum := .int (10 ^ Decimal.maxIntegerDigits)

theorem tooLong_truthy : tooLong.truthy = true :=
  bne_iff_ne.2 (Int.pow_ne_zero (by decide))

theorem tooLong_unwritable : tooLong.writable = false := by
  rw [← Bool.not_eq_true]
  have hsize (k : Nat) : (10 ^ k : Int).natAbs = 10 ^ k := Int.natAbs_pow 10 k
  refine mt Decimal.isShort_iff.1 ?_
  rw [hsize]
  exact Nat.lt_irrefl _

end Datum

/-! ## Failures -/

namespace Failure

theorem worded_of_writable {e : Failure} (h : e.mentions.all Datum.writable = true) :
    e.worded = e :=
  if_pos h

theorem worded_of_unwritable {e : Failure} (h : e.mentions.all Datum.writable = false) :
    e.worded = .misuse .tooManyDigits :=
  if_neg (Bool.eq_false_iff.1 h)

/-- A failure is worded as it is, unless something that it mentions cannot be written. -/
theorem worded_cases (e : Failure) :
    e.worded = e ∨
      e.worded = .misuse .tooManyDigits ∧ ∃ d ∈ e.mentions, d.writable = false := by
  cases h : e.mentions.all Datum.writable with
  | true => exact .inl (worded_of_writable h)
  | false =>
    rw [List.all_eq_false] at h
    obtain ⟨d, hd, hwritable⟩ := h
    refine .inr ⟨worded_of_unwritable (List.all_eq_false.2 ⟨d, hd, hwritable⟩), d, hd, ?_⟩
    exact Bool.eq_false_iff.2 hwritable

theorem worded_ne {e e' : Failure} (h : e ≠ e') (hmisuse : .misuse .tooManyDigits ≠ e') :
    e.worded ≠ e' := by
  rcases e.worded_cases with heq | ⟨heq, -⟩
  · rwa [heq]
  · rwa [heq]

theorem eq_of_worded_rejection {r r' : Rejection}
    (h : (Failure.rejection r).worded = .rejection r') : r' = r := by
  rcases (Failure.rejection r).worded_cases with heq | ⟨heq, -⟩
  · exact Failure.rejection.inj (h.symm.trans heq)
  · cases h.symm.trans heq

end Failure

/-! ## Outcomes -/

variable {α : Type}

/-- The outcome is as expected, unless something that is mentioned has no text and that is what
fails. -/
def WordedAs (mentioned : Datum → Prop) (expected outcome : Except Failure α) : Prop :=
  outcome = expected ∨
    outcome = .error (.misuse .tooManyDigits) ∧ ∃ x, mentioned x ∧ x.writable = false

namespace WordedAs

variable {mentioned mentioned' : Datum → Prop} {expected outcome : Except Failure α}

theorem refl (mentioned : Datum → Prop) (outcome : Except Failure α) :
    WordedAs mentioned outcome outcome :=
  .inl rfl

/-- What can all be written is no excuse. -/
theorem eq (h : WordedAs mentioned expected outcome)
    (hwritable : ∀ x, mentioned x → x.writable = true) : outcome = expected := by
  rcases h with h | ⟨-, x, hx, hunwritable⟩
  · exact h
  · rw [hwritable x hx] at hunwritable
    cases hunwritable

theorem trans {later : Except Failure α} (h : WordedAs mentioned expected outcome)
    (h' : WordedAs mentioned outcome later) : WordedAs mentioned expected later := by
  rcases h' with rfl | h'
  · exact h
  · exact .inr h'

theorem mono (h : WordedAs mentioned expected outcome)
    (hmentioned : ∀ x, mentioned x → mentioned' x) : WordedAs mentioned' expected outcome :=
  h.imp_right fun ⟨hout, x, hx, hwritable⟩ => ⟨hout, x, hmentioned x hx, hwritable⟩

end WordedAs

theorem wordedAs_worded (e : Failure) :
    WordedAs (· ∈ e.mentions) (.error e : Except Failure α) (.error e.worded) :=
  e.worded_cases.imp (congrArg _) (And.imp_left (congrArg _))

end Lifecycle
