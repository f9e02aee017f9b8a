import Lifecycle.Datum.Basic
import Mathlib.Algebra.Order.Field.Power
import Mathlib.Data.Rat.Cast.Order
import Mathlib.Tactic.FieldSimp
import Mathlib.Tactic.Positivity
import Mathlib.Tactic.Ring

/-!
# Equality of data is transitive

Numbers of all kinds are compared by the rational that they denote, sets by their members and maps by
their entries. Equality is not reflexive, since the undefined number differs from itself, but two
data that are equal to a third stay so along a chain (`Datum.beq_trans`). A text is equal to itself
only.
-/

namespace Lifecycle

namespace Binary64

/-- The rational that a finite number denotes. -/
def value (negative : Bool) (m : Nat) (e : Int) : ℚ := (if negative then -(m : ℚ) else m) * 2 ^ e

theorem scaledTo_mul_two_zpow (s : Bool) (m : Nat) {low e : Int} (h : low ≤ e) :
    (scaledTo low s m e : ℚ) * 2 ^ low = value s m e := by
  have hpow : (2 : ℚ) ^ e = 2 ^ (e - low).toNat * 2 ^ low := by
    rw [← zpow_natCast, Int.toNat_of_nonneg (by omega), ← zpow_add₀ (by norm_num)]
    congr 1
    omega
  unfold scaledTo value
  rw [hpow, Nat.pow_eq]
  cases s
  · simp only [Bool.false_eq_true, if_false]
    push_cast
    ring
  · simp only [if_true]
    push_cast
    ring

theorem same_finite_iff {s s' : Bool} {m m' : Nat} {e e' : Int} :
    same (.finite s m e) (.finite s' m' e') = true ↔ value s m e = value s' m' e' := by
  have hpos : (2 : ℚ) ^ min e e' ≠ 0 := by positivity
  rw [← scaledTo_mul_two_zpow s m (min_le_left e e'),
    ← scaledTo_mul_two_zpow s' m' (min_le_right e e'), mul_left_inj' hpos, Int.cast_inj]
  simp only [same, beq_iff_eq]

theorem sameInt_finite_iff {s : Bool} {m : Nat} {e n : Int} :
    sameInt (.finite s m e) n = true ↔ value s m e = n := by
  simp only [sameInt]
  split
  · rename_i he
    rw [← scaledTo_mul_two_zpow s m he, beq_iff_eq, zpow_zero, mul_one, Int.cast_inj]
  · have hpow : (2 : ℚ) ^ e * 2 ^ (-e).toNat = 1 := by
      rw [← zpow_natCast, Int.toNat_of_nonneg (by omega), ← zpow_add₀ (by norm_num)]
      simp
    have hne : (2 : ℚ) ^ (-e).toNat ≠ 0 := by positivity
    rw [beq_iff_eq, ← Int.cast_inj (α := ℚ), ← mul_left_inj' hne (a := value s m e)]
    unfold value
    rw [mul_assoc, hpow, mul_one, Nat.pow_eq]
    cases s <;> simp

end Binary64

theorem Moment.same_trans {a b c : Moment} (hab : a.same b = true) (hbc : b.same c = true) :
    a.same c = true := by
  unfold Moment.same at hab hbc ⊢
  cases ha : a.offset <;> cases hb : b.offset <;> cases hc : c.offset <;>
    simp only [ha, hb, hc, beq_iff_eq, reduceCtorEq] at hab hbc ⊢ <;> omega

namespace Datum

/-! ## Numbers -/

/-- The rational that a datum of some kind of number denotes, if it is finite. -/
def number? : Datum → Option ℚ
  | .bool b => some (if b then 1 else 0)
  | .int n => some n
  | .float (.finite s m e) => some (Binary64.value s m e)
  | _ => none

theorem isInteger_iff {n : Int} {d : Datum} : isInteger n d = true ↔ d.number? = some (n : ℚ) := by
  cases d with
  | bool b => cases b <;> simp [isInteger, number?] <;> norm_cast <;> exact eq_comm
  | int m =>
    simp only [isInteger, number?, beq_iff_eq, Option.some.injEq, Int.cast_inj]
    exact eq_comm
  | float x =>
    cases x with
    | finite s m e => simp [isInteger, number?, Binary64.sameInt_finite_iff]
    | infinite s => simp [isInteger, number?, Binary64.sameInt]
    | undefined => simp [isInteger, number?, Binary64.sameInt]
  | _ => simp [isInteger, number?]

theorem same_iff_of_number {a b : Datum} {q : ℚ} (ha : a.number? = some q) :
    same a b = true ↔ b.number? = some q := by
  cases a with
  | bool x =>
    rw [same, isInteger_iff, ← ha]
    cases x <;> simp [number?]
  | int n =>
    rw [same, isInteger_iff, ← ha, number?]
  | float x =>
    cases x with
    | finite s m e =>
      rw [← ha]
      cases b with
      | float y =>
        cases y with
        | finite s' m' e' =>
          simp only [same, number?, Binary64.same_finite_iff, Option.some.injEq]
          exact eq_comm
        | infinite s' => simp [same, number?, Binary64.same]
        | undefined => simp [same, number?, Binary64.same]
      | int n =>
        simp only [same, number?, Binary64.sameInt_finite_iff, Option.some.injEq]
        exact eq_comm
      | bool y =>
        cases y <;> simp only [same, number?, Binary64.sameInt_finite_iff, Option.some.injEq] <;>
          norm_cast <;> exact eq_comm
      | _ => simp [same, number?]
    | infinite s => simp [number?] at ha
    | undefined => simp [number?] at ha
  | _ => simp [number?] at ha

theorem same_infinite_iff {s : Bool} {b : Datum} :
    same (.float (.infinite s)) b = true ↔ b = .float (.infinite s) := by
  cases b with
  | float y =>
    cases y with
    | infinite s' =>
      simp only [same, Binary64.same, beq_iff_eq, float.injEq, Binary64.infinite.injEq]
      exact eq_comm
    | _ => simp [same, Binary64.same]
  | _ => simp [same, Binary64.sameInt]

theorem same_undefined (b : Datum) : same (.float .undefined) b = false := by
  cases b with
  | float y => cases y <;> simp [same, Binary64.same]
  | _ => simp [same, Binary64.sameInt]

/-! ## Sets and maps -/

theorem same_iff_of_members {a b : Datum} {as : List Datum} (ha : members? a = some as) :
    same a b = true ↔
      ∃ bs, members? b = some bs ∧ as.length = bs.length ∧ allAmong as bs = true := by
  cases a with
  | set xs =>
    cases ha
    cases b <;> simp [same, members?]
  | frozenset xs =>
    cases ha
    cases b <;> simp [same, members?]
  | _ => simp [members?] at ha

theorem same_map_iff {es : List (Datum × Datum)} {b : Datum} :
    same (.map es) b = true ↔
      ∃ fs, b = .map fs ∧ es.length = fs.length ∧ entriesAmong es fs = true := by
  cases b <;> simp [same]

theorem exists_same_of_allAmong {as bs : List Datum} (h : allAmong as bs = true) {a : Datum}
    (ha : a ∈ as) : ∃ b ∈ bs, same a b = true := by
  induction as with
  | nil => cases ha
  | cons x xs ih =>
    simp only [allAmong, Bool.and_eq_true, List.any_eq_true] at h
    rcases List.mem_cons.1 ha with rfl | ha
    · exact h.1
    · exact ih h.2 ha

theorem exists_same_of_entriesAmong {as bs : List (Datum × Datum)} (h : entriesAmong as bs = true)
    {a : Datum × Datum} (ha : a ∈ as) : ∃ b ∈ bs, same a.1 b.1 = true ∧ same a.2 b.2 = true := by
  induction as with
  | nil => cases ha
  | cons x xs ih =>
    obtain ⟨k, v⟩ := x
    simp only [entriesAmong, Bool.and_eq_true, List.any_eq_true] at h
    rcases List.mem_cons.1 ha with rfl | ha
    · exact h.1
    · exact ih h.2 ha

/-! ## Transitivity -/

mutual

-- The induction is on the first datum: the second and the third only have to match it.
theorem same_trans {a b c : Datum} (hab : same a b = true) (hbc : same b c = true) :
    same a c = true := by
  cases a with
  | null =>
    cases b <;> simp [same] at hab
    exact hbc
  | bool x =>
    have hb := (same_iff_of_number rfl).1 hab
    exact (same_iff_of_number rfl).2 ((same_iff_of_number hb).1 hbc)
  | int n =>
    have hb := (same_iff_of_number rfl).1 hab
    exact (same_iff_of_number rfl).2 ((same_iff_of_number hb).1 hbc)
  | float x =>
    cases x with
    | finite s m e =>
      have hb := (same_iff_of_number rfl).1 hab
      exact (same_iff_of_number rfl).2 ((same_iff_of_number hb).1 hbc)
    | infinite s => rwa [same_infinite_iff.1 hab] at hbc
    | undefined => simp [same_undefined] at hab
  | text s =>
    cases b <;> simp [same] at hab
    rwa [hab]
  | bytes s =>
    cases b <;> simp [same] at hab
    rwa [hab]
  | list xs =>
    cases b <;> simp [same] at hab
    cases c <;> simp [same] at hbc ⊢
    exact sameItems_trans hab hbc
  | tuple xs =>
    cases b <;> simp [same] at hab
    cases c <;> simp [same] at hbc ⊢
    exact sameItems_trans hab hbc
  | set xs =>
    obtain ⟨bs, hb, hlen, hmem⟩ := (same_iff_of_members rfl).1 hab
    obtain ⟨cs, hc, hlen', hmem'⟩ := (same_iff_of_members hb).1 hbc
    exact (same_iff_of_members rfl).2 ⟨cs, hc, hlen.trans hlen', allAmong_trans hmem hmem'⟩
  | frozenset xs =>
    obtain ⟨bs, hb, hlen, hmem⟩ := (same_iff_of_members rfl).1 hab
    obtain ⟨cs, hc, hlen', hmem'⟩ := (same_iff_of_members hb).1 hbc
    exact (same_iff_of_members rfl).2 ⟨cs, hc, hlen.trans hlen', allAmong_trans hmem hmem'⟩
  | map es =>
    obtain ⟨fs, rfl, hlen, hmem⟩ := same_map_iff.1 hab
    obtain ⟨gs, rfl, hlen', hmem'⟩ := same_map_iff.1 hbc
    exact same_map_iff.2 ⟨gs, rfl, hlen.trans hlen', entriesAmong_trans hmem hmem'⟩
  | date d =>
    cases b <;> simp [same] at hab
    rwa [hab]
  | moment m =>
    cases b <;> simp [same] at hab
    cases c <;> simp [same] at hbc ⊢
    exact Moment.same_trans hab hbc
  | generator i xs =>
    cases b <;> simp [same] at hab
    cases c <;> simp [same] at hbc ⊢
    rwa [hab]
  | producer p =>
    cases b <;> simp [same] at hab
    rwa [hab]
  | staticRule ts =>
    cases b <;> simp [same] at hab
    rwa [hab]
  | deferredRule p =>
    cases b <;> simp [same] at hab
    rwa [hab]
termination_by structural a

theorem sameItems_trans {as bs cs : List Datum} (hab : sameItems as bs = true)
    (hbc : sameItems bs cs = true) : sameItems as cs = true := by
  cases as with
  | nil =>
    cases bs <;> simp [sameItems] at hab
    exact hbc
  | cons a as =>
    cases bs with
    | nil => simp [sameItems] at hab
    | cons b bs =>
      cases cs with
      | nil => simp [sameItems] at hbc
      | cons c cs =>
        simp only [sameItems, Bool.and_eq_true] at hab hbc ⊢
        exact ⟨same_trans hab.1 hbc.1, sameItems_trans hab.2 hbc.2⟩
termination_by structural as

theorem allAmong_trans {as bs cs : List Datum} (hab : allAmong as bs = true)
    (hbc : allAmong bs cs = true) : allAmong as cs = true := by
  cases as with
  | nil => rfl
  | cons a as =>
    simp only [allAmong, Bool.and_eq_true, List.any_eq_true] at hab ⊢
    obtain ⟨⟨b, hb, hsame⟩, hrest⟩ := hab
    obtain ⟨c, hc, hsame'⟩ := exists_same_of_allAmong hbc hb
    exact ⟨⟨c, hc, same_trans hsame hsame'⟩, allAmong_trans hrest hbc⟩
termination_by structural as

theorem entriesAmong_trans {as bs cs : List (Datum × Datum)} (hab : entriesAmong as bs = true)
    (hbc : entriesAmong bs cs = true) : entriesAmong as cs = true := by
  cases as with
  | nil => rfl
  | cons e es =>
    obtain ⟨k, v⟩ := e
    simp only [entriesAmong, Bool.and_eq_true, List.any_eq_true] at hab ⊢
    obtain ⟨⟨b, hb, hkey, hvalue⟩, hrest⟩ := hab
    obtain ⟨c, hc, hkey', hvalue'⟩ := exists_same_of_entriesAmong hbc hb
    exact ⟨⟨c, hc, same_trans hkey hkey', same_trans hvalue hvalue'⟩,
      entriesAmong_trans hrest hbc⟩
termination_by structural as

end

theorem beq_trans {a b c : Datum} (hab : (a == b) = true) (hbc : (b == c) = true) :
    (a == c) = true :=
  same_trans hab hbc

/-! ## Texts -/

theorem text_beq_iff {s : String} {d : Datum} : (Datum.text s == d) = true ↔ d = .text s := by
  change same _ _ = true ↔ _
  cases d with
  | text t =>
    simp only [same, beq_iff_eq, text.injEq]
    exact eq_comm
  | _ => simp [same]

theorem beq_text_iff {s : String} {d : Datum} : (d == Datum.text s) = true ↔ d = .text s := by
  change same _ _ = true ↔ _
  cases d <;> simp [same, isInteger, members?]

end Datum

end Lifecycle
