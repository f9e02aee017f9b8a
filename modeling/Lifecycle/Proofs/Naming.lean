import Lifecycle.Path
import Mathlib.Data.List.TakeWhile

/-!
# Names in paths

A name ends in a suffix if its last dot has something before it and something after it: the suffix
begins at that dot (`Path.Parted`). What stands before the suffix is the stem. A hidden name and a
name that ends in a dot are all stem. A first name that begins with a tilde names the home of a user
(`Path.Expands`).
-/

namespace Lifecycle

/-! ## Cutting a text at a mark -/

namespace Text

variable {text before after : List Char} {c : Char}

theorem forall_ne_mark (h : c ∉ before) : ∀ x ∈ before, (x != c) = true :=
  fun _ hx => bne_iff_ne.2 (ne_of_mem_of_not_mem hx h)

theorem takeWhile_append_mark (h : c ∉ before) :
    (before ++ c :: after).takeWhile (· != c) = before := by
  rw [List.takeWhile_append_of_pos (forall_ne_mark h)]
  simp

theorem dropWhile_append_mark (h : c ∉ before) :
    (before ++ c :: after).dropWhile (· != c) = c :: after := by
  rw [List.dropWhile_append_of_pos (forall_ne_mark h)]
  simp

theorem reverse_append_mark (before after : List Char) (c : Char) :
    (before ++ c :: after).reverse = after.reverse ++ c :: before.reverse := by
  simp

/-- A text with a mark can be cut at the last one. -/
theorem exists_last_mark (h : c ∈ text) :
    ∃ before after, text = before ++ c :: after ∧ c ∉ after := by
  -- The last mark is the first one from behind.
  obtain ⟨back, front, hsplit, hback⟩ := List.eq_append_cons_of_mem (List.mem_reverse.2 h)
  refine ⟨front.reverse, back.reverse, ?_, mt List.mem_reverse.1 hback⟩
  rw [← List.reverse_reverse text, hsplit, reverse_append_mark]

theorem partsAt_of_unmarked (h : c ∉ text) : partsAt c text = [text] := by
  induction text with
  | nil => rfl
  | cons d text ih =>
    rw [List.mem_cons, not_or] at h
    rw [partsAt, ih h.2]
    exact if_neg (Ne.symm h.1)

end Text

namespace Path

/-! ## Paths of one name -/

theorem anchorOf_of_unmarked {text : List Char} (h : '/' ∉ text) : anchorOf text = .here := by
  cases text with
  | nil => rfl
  | cons c text =>
    unfold anchorOf
    split <;> simp_all

/-- A text without slashes is a name, and the path of just this name. -/
theorem ofText_of_unmarked {text : String} (h : '/' ∉ text.toList) (hempty : text ≠ "")
    (hdot : text ≠ ".") : ofText text = ⟨.here, [text]⟩ := by
  have hcounts : text.toList ≠ [] ∧ text.toList ≠ ['.'] :=
    ⟨mt String.toList_eq_nil_iff.1 hempty, fun hlist => hdot (String.toList_inj.1 hlist)⟩
  unfold ofText namesOf
  rw [anchorOf_of_unmarked h, Text.partsAt_of_unmarked h]
  simp [hcounts]

/-! ## Splitting names -/

section Split

variable {name before after : List Char}

theorem splitName_of_undotted (h : '.' ∉ name) : splitName name = (name, []) := by
  have hback : name.reverse.takeWhile (· != '.') = name.reverse :=
    List.takeWhile_eq_self_iff.2 (Text.forall_ne_mark (mt List.mem_reverse.1 h))
  have hstem : name.reverse.drop (name.reverse.length + 1) = [] :=
    List.drop_eq_nil_of_le (Nat.le_succ _)
  unfold splitName
  dsimp only
  rw [hback, hstem]
  simp

theorem splitName_of_dot (h : '.' ∉ after) : splitName (before ++ '.' :: after) =
    if after = [] ∨ before = [] then (before ++ '.' :: after, []) else (before, '.' :: after) := by
  have hback : '.' ∉ after.reverse := mt List.mem_reverse.1 h
  have hstem : (after.reverse ++ '.' :: before.reverse).drop (after.reverse.length + 1) =
      before.reverse := by
    rw [List.append_cons, List.drop_left' (by simp)]
  unfold splitName
  dsimp only
  rw [Text.reverse_append_mark, Text.takeWhile_append_mark hback, hstem]
  simp

end Split

/-! ## Names in two parts -/

/-- The stem and the suffix that a name consists of. -/
inductive Parted : String → String → String → Prop
  | dotted {stem ending : String} (hstem : stem ≠ "") (hending : ending ≠ "")
      (hdot : '.' ∉ ending.toList) : Parted (stem ++ "." ++ ending) stem ("." ++ ending)
  | plain {name : String} (h : ∀ stem ending, name = stem ++ "." ++ ending →
      '.' ∉ ending.toList → stem = "" ∨ ending = "") : Parted name name ""

variable {name stem suffix stem' suffix' : String}

theorem parted_of_undotted (h : '.' ∉ name.toList) : Parted name name "" :=
  .plain fun stem ending hname _ => absurd (hname ▸ by simp) h

theorem exists_parted (name : String) : ∃ stem suffix, Parted name stem suffix := by
  by_cases h : ∃ stem ending : String,
      name = stem ++ "." ++ ending ∧ '.' ∉ ending.toList ∧ stem ≠ "" ∧ ending ≠ ""
  · obtain ⟨stem, ending, rfl, hdot, hstem, hending⟩ := h
    exact ⟨stem, "." ++ ending, .dotted hstem hending hdot⟩
  · refine ⟨name, "", .plain fun stem ending hname hdot => ?_⟩
    by_contra hparts
    rw [not_or] at hparts
    exact h ⟨stem, ending, hname, hdot, hparts⟩

theorem toList_dotted (stem ending : String) :
    (stem ++ "." ++ ending).toList = stem.toList ++ '.' :: ending.toList := by
  rw [String.toList_append, String.toList_append, List.append_assoc]
  rfl

theorem splitName_of_parted (h : Parted name stem suffix) :
    splitName name.toList = (stem.toList, suffix.toList) := by
  cases h with
  | @dotted _ ending hstem hending hdot =>
    have hboth : ¬(ending.toList = [] ∨ stem.toList = []) := by
      rw [String.toList_eq_nil_iff, String.toList_eq_nil_iff, not_or]
      exact ⟨hending, hstem⟩
    rw [toList_dotted, splitName_of_dot hdot, if_neg hboth, String.toList_append]
    rfl
  | plain h =>
    by_cases hdot : '.' ∈ name.toList
    · obtain ⟨before, after, hsplit, hafter⟩ := Text.exists_last_mark hdot
      have hname : name = String.ofList before ++ "." ++ String.ofList after := by
        rw [← String.toList_inj, toList_dotted, String.toList_ofList, String.toList_ofList, hsplit]
      have hempty : after = [] ∨ before = [] := by
        have hparts := h _ _ hname (by rwa [String.toList_ofList])
        rw [← String.toList_eq_nil_iff, ← String.toList_eq_nil_iff, String.toList_ofList,
          String.toList_ofList] at hparts
        exact hparts.symm
      rw [hsplit, splitName_of_dot hafter, if_pos hempty]
      rfl
    · exact splitName_of_undotted hdot

/-- A name has one stem and one suffix. -/
theorem Parted.unique (h : Parted name stem suffix) (h' : Parted name stem' suffix') :
    stem = stem' ∧ suffix = suffix' := by
  have heq := (splitName_of_parted h).symm.trans (splitName_of_parted h')
  rw [Prod.mk.injEq, String.toList_inj, String.toList_inj] at heq
  exact heq

theorem parted (p : Path) : Parted p.name p.stem p.suffix := by
  obtain ⟨stem, suffix, h⟩ := exists_parted p.name
  have hsplit := splitName_of_parted h
  have hstem : p.stem = stem := by
    unfold Path.stem
    rw [hsplit, String.ofList_toList]
  have hsuffix : p.suffix = suffix := by
    unfold Path.suffix
    rw [hsplit, String.ofList_toList]
  rwa [hstem, hsuffix]

theorem parted_iff {p : Path} : Parted p.name stem suffix ↔ stem = p.stem ∧ suffix = p.suffix := by
  constructor
  · exact fun h => h.unique p.parted
  · rintro ⟨rfl, rfl⟩
    exact p.parted

theorem Parted.stem_ne_empty (h : Parted name stem suffix) (hname : name ≠ "") : stem ≠ "" := by
  cases h with
  | dotted hstem => exact hstem
  | plain => exact hname

/-! ## Homes in the place of tildes -/

section Home

variable {home : Path} {homeOf : String → Option Path}

/-- What a path comes to if its first name begins with a tilde: one's own home or that of a user. -/
inductive Expands (home : Path) (homeOf : String → Option Path) : Path → Except Failure Path → Prop
  | own {rest : List String} :
      Expands home homeOf ⟨.here, "~" :: rest⟩ (.ok (home.join ⟨.here, rest⟩))
  | other {user : String} {rest : List String} {there : Path} (huser : user ≠ "")
      (hhome : homeOf user = some there) :
      Expands home homeOf ⟨.here, ("~" ++ user) :: rest⟩ (.ok (there.join ⟨.here, rest⟩))
  | unknown {user : String} {rest : List String} (huser : user ≠ "") (hhome : homeOf user = none) :
      Expands home homeOf ⟨.here, ("~" ++ user) :: rest⟩ (.error (.unknownHome ("~" ++ user)))
  | plain {p : Path} (h : ∀ user rest, p ≠ ⟨.here, ("~" ++ user) :: rest⟩) :
      Expands home homeOf p (.ok p)

theorem toList_tilde (user : String) : ("~" ++ user).toList = '~' :: user.toList := by
  rw [String.toList_append]
  rfl

theorem expandHome_user {user : String} {rest : List String} (huser : user ≠ "") :
    expandHome home homeOf ⟨.here, ("~" ++ user) :: rest⟩ =
      match homeOf user with
      | some there => .ok (there.join ⟨.here, rest⟩)
      | none => .error (.unknownHome ("~" ++ user)) := by
  obtain ⟨c, cs, hcs⟩ := List.exists_cons_of_ne_nil (mt String.toList_eq_nil_iff.1 huser)
  have hfirst : ("~" ++ user).toList = '~' :: c :: cs := by rw [toList_tilde, hcs]
  have hback : String.ofList (c :: cs) = user := by rw [← hcs, String.ofList_toList]
  unfold expandHome
  simp only [hfirst, hback]
  rfl

theorem expandHome_plain {p : Path} (h : ∀ user rest, p ≠ ⟨.here, ("~" ++ user) :: rest⟩) :
    expandHome home homeOf p = .ok p := by
  unfold expandHome
  split
  · rename_i first rest hanchor hnames
    have hfirst : ∀ user, first.toList ≠ '~' :: user := by
      intro user htilde
      have heq : first = "~" ++ String.ofList user := by
        rw [← String.toList_inj, toList_tilde, String.toList_ofList, htilde]
      obtain ⟨anchor, names⟩ := p
      dsimp only at hanchor hnames
      subst hanchor hnames
      exact h (String.ofList user) rest (by rw [heq])
    split
    · rename_i htilde
      exact absurd htilde (hfirst [])
    · rename_i user _ htilde
      exact absurd htilde (hfirst user)
    · rfl
  · rfl

theorem Expands.expandHome_eq {p : Path} {r : Except Failure Path} (h : Expands home homeOf p r) :
    expandHome home homeOf p = r := by
  cases h with
  | own => rfl
  | other huser hhome => rw [expandHome_user huser, hhome]
  | unknown huser hhome => rw [expandHome_user huser, hhome]
  | plain h => exact expandHome_plain h

theorem exists_expands (home : Path) (homeOf : String → Option Path) (p : Path) :
    ∃ r, Expands home homeOf p r := by
  by_cases h : ∃ user rest, p = ⟨.here, ("~" ++ user) :: rest⟩
  · obtain ⟨user, rest, rfl⟩ := h
    by_cases huser : user = ""
    · subst huser
      exact ⟨_, .own⟩
    cases hhome : homeOf user with
    | some there => exact ⟨_, .other huser hhome⟩
    | none => exact ⟨_, .unknown huser hhome⟩
  · exact ⟨_, .plain fun user rest heq => h ⟨user, rest, heq⟩⟩

end Home

end Path

end Lifecycle
