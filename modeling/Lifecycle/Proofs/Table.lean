import Lifecycle.Proofs.Equality
import Lifecycle.Table

/-!
# Look-ups in tables

A table answers by its keys. Where a key equals itself and no other key, as a text does, what a
table filled entry by entry holds under it is the value put there last (`Table.get?_putAll`), and
its place is where it was put first (`Table.keys_ofList_text`).
-/

namespace Lifecycle

namespace Table

variable {κ ν : Type} [BEq κ]

theorem contains_iff {t : Table κ ν} {k : κ} :
    t.contains k = true ↔ ∃ e ∈ t.entries, (e.1 == k) = true := by
  unfold contains
  exact List.any_eq_true

theorem isSome_get? (t : Table κ ν) (k : κ) : (t.get? k).isSome = t.contains k := by
  unfold get? contains
  rw [Option.isSome_map, Bool.eq_iff_iff, List.find?_isSome, List.any_eq_true]

theorem get?_eq_none_iff {t : Table κ ν} {k : κ} : t.get? k = none ↔ t.contains k = false := by
  rw [← isSome_get?, Option.isSome_eq_false_iff, Option.isNone_iff_eq_none]

theorem exists_entry_of_get? {t : Table κ ν} {k : κ} {v : ν} (h : t.get? k = some v) :
    ∃ e ∈ t.entries, (e.1 == k) = true ∧ e.2 = v := by
  obtain ⟨e, he, rfl⟩ := Option.map_eq_some_iff.1 h
  have hk := List.find?_some he
  exact ⟨e, List.mem_of_find?_eq_some he, hk, rfl⟩

/-- Tables with equal keys contain the same. -/
theorem contains_eq_of_keys_eq {μ : Type} {t : Table κ ν} {u : Table κ μ} (h : t.keys = u.keys)
    (k : κ) : t.contains k = u.contains k := by
  have hany {ξ : Type} (w : Table κ ξ) : w.contains k = w.keys.any (· == k) := by
    unfold contains keys
    rw [List.any_map]
    rfl
  rw [hany, hany, h]

/-! ## Filling a table -/

theorem putEntry_of_forall_ne {k : κ} {v : ν} {es : List (κ × ν)}
    (h : ∀ e ∈ es, (e.1 == k) = false) : putEntry k v es = es ++ [(k, v)] := by
  induction es with
  | nil => rfl
  | cons e es ih =>
    obtain ⟨he, hes⟩ := List.forall_mem_cons.1 h
    unfold putEntry
    rw [if_neg (by simp [he]), ih hes, List.cons_append]

theorem keys_put (t : Table κ ν) (k : κ) (v : ν) :
    (t.put k v).keys = if t.contains k then t.keys else t.keys ++ [k] := by
  change (putEntry k v t.entries).map Prod.fst = if t.entries.any fun e => e.1 == k then
    t.entries.map Prod.fst else t.entries.map Prod.fst ++ [k]
  induction t.entries with
  | nil => rfl
  | cons e es ih =>
    unfold putEntry
    by_cases he : (e.1 == k) = true
    · simp [he]
    · rw [if_neg he, List.map_cons, ih]
      rw [Bool.not_eq_true] at he
      rw [List.any_cons, he, Bool.false_or, List.map_cons]
      split <;> rfl

theorem putAll_append (t : Table κ ν) (es es' : List (κ × ν)) :
    t.putAll (es ++ es') = (t.putAll es).putAll es' :=
  List.foldl_append

theorem entries_putAll_of_distinct {t : Table κ ν} {es : List (κ × ν)}
    (h : (t.entries ++ es).Pairwise fun a b => (a.1 == b.1) = false) :
    (t.putAll es).entries = t.entries ++ es := by
  induction es generalizing t with
  | nil => exact (List.append_nil _).symm
  | cons e es ih =>
    have hput : (t.put e.1 e.2).entries = t.entries ++ [e] :=
      putEntry_of_forall_ne fun a ha => (List.pairwise_append.1 h).2.2 a ha e (by simp)
    have hall : ((t.put e.1 e.2).putAll es).entries = (t.put e.1 e.2).entries ++ es := by
      apply ih
      rwa [hput, ← List.append_cons]
    rwa [hput, ← List.append_cons] at hall

theorem ext_entries {t u : Table κ ν} (h : t.entries = u.entries) : t = u := by
  cases t
  cases u
  cases h
  rfl

/-- The entries of a table, put one after another, are the table again. -/
theorem ofList_entries (t : Table κ ν) : ofList t.entries = t :=
  ext_entries (entries_putAll_of_distinct (t := empty) t.distinct)

/-! ## Keys that equal no other key -/

/-- The key equals itself and no other key. -/
def Exact (k : κ) : Prop := ∀ x, ((x == k) = true ↔ x = k) ∧ ((k == x) = true ↔ x = k)

theorem exact_of_lawful [LawfulBEq κ] (k : κ) : Exact k := fun x => by
  simp only [beq_iff_eq, true_and]
  exact eq_comm

/-- What stands under a key that equals itself is found there. -/
theorem get?_of_mem_entries {t : Table κ ν} {k : κ} {v : ν} (hk : (k == k) = true)
    (h : (k, v) ∈ t.entries) : t.get? k = some v := by
  have hfind : t.entries.find? (fun e => e.1 == k) = some (k, v) := by
    have hdistinct := t.distinct
    generalize t.entries = es at h hdistinct
    induction es with
    | nil => cases h
    | cons e es ih =>
      obtain ⟨hhead, htail⟩ := List.pairwise_cons.1 hdistinct
      rcases List.mem_cons.1 h with rfl | h
      · exact List.find?_cons_of_pos hk
      · rw [List.find?_cons_of_neg (by simpa using hhead (k, v) h), ih h htail]
  unfold get?
  rw [hfind, Option.map_some]

theorem mem_entries_iff {t : Table κ ν} {k : κ} {v : ν} (hk : Exact k) :
    (k, v) ∈ t.entries ↔ t.get? k = some v := by
  constructor
  · exact get?_of_mem_entries ((hk k).1.2 rfl)
  · intro h
    obtain ⟨e, he, heq, rfl⟩ := exists_entry_of_get? h
    rw [← (hk e.1).1.1 heq]
    exact he

/-- It is enough that one of the two keys equals no other. -/
theorem get?_put {t : Table κ ν} {k k' : κ} (h : Exact k ∨ Exact k') (v : ν) :
    (t.put k v).get? k' = if k == k' then some v else t.get? k' := by
  have hsame (x : κ) (hx : (x == k) = true) : (x == k') = (k == k') := by
    rcases h with hk | hk'
    · rw [(hk x).1.1 hx]
    · rw [Bool.eq_iff_iff, (hk' x).1, (hk' k).1]
      constructor
      · intro heq
        rw [heq] at hx
        exact (hk' k).2.1 hx
      · intro heq
        rw [heq] at hx
        exact (hk' x).1.1 hx
  have hother (x : κ) (hx : (x == k) = false) (hx' : (x == k') = true) : (k == k') = false := by
    rw [Bool.eq_false_iff]
    intro heq
    rcases h with hk | hk'
    · rw [(hk k').2.1 heq] at hx'
      rw [hx] at hx'
      cases hx'
    · rw [(hk' x).1.1 hx', (hk' k).1.1 heq, (hk' k').1.2 rfl] at hx
      cases hx
  change ((putEntry k v t.entries).find? fun e => e.1 == k').map Prod.snd =
    if k == k' then some v else (t.entries.find? fun e => e.1 == k').map Prod.snd
  induction t.entries with
  | nil => cases h : k == k' <;> simp [putEntry, h]
  | cons e es ih =>
    unfold putEntry
    cases he : e.1 == k with
    | true =>
      -- The entry that is replaced stands under the key looked for just when the new one does.
      cases hkk : k == k' <;> simp [hkk, hsame e.1 he]
    | false =>
      cases hek : e.1 == k' with
      | true => simp [hek, hother e.1 he hek]
      | false => simpa [hek] using ih

theorem get?_put_self [LawfulBEq κ] (t : Table κ ν) (k : κ) (v : ν) :
    (t.put k v).get? k = some v := by
  rw [get?_put (.inl (exact_of_lawful k)), if_pos BEq.rfl]

/-- What was put last under a key counts, and what was there before only if nothing was put. -/
theorem get?_putAll {t : Table κ ν} {es : List (κ × ν)} {k : κ}
    (h : Exact k ∨ ∀ e ∈ es, Exact e.1) :
    (t.putAll es).get? k =
      ((es.reverse.find? fun e => e.1 == k).map Prod.snd).or (t.get? k) := by
  induction es using List.reverseRecOn with
  | nil => rfl
  | append_singleton es e ih =>
    have hes : Exact k ∨ ∀ e ∈ es, Exact e.1 :=
      h.imp_right fun hall e' he' => hall e' (List.mem_append_left _ he')
    have he : Exact e.1 ∨ Exact k := h.symm.imp_left fun hall => hall e (by simp)
    rw [putAll_append]
    change ((t.putAll es).put e.1 e.2).get? k = _
    rw [get?_put he, List.reverse_append, List.reverse_singleton, List.singleton_append]
    cases hek : e.1 == k with
    | true => simp [hek]
    | false => simpa [hek] using ih hes

theorem get?_ofList {es : List (κ × ν)} {k : κ} (hk : Exact k) :
    (ofList es).get? k = (es.reverse.find? fun e => e.1 == k).map Prod.snd := by
  rw [ofList, get?_putAll (.inl hk)]
  exact Option.or_none

/-- The values of a table may be replaced before it is filled. -/
theorem get?_ofList_map_values {μ : Type} {k : κ} (hk : Exact k) (es : List (κ × ν))
    (f : κ → ν → μ) :
    (ofList (es.map fun e => (e.1, f e.1 e.2))).get? k = ((ofList es).get? k).map (f k) := by
  rw [get?_ofList hk, get?_ofList hk, ← List.map_reverse, List.find?_map, Option.map_map,
    Option.map_map]
  cases hfind : es.reverse.find? fun e => e.1 == k with
  | none => simp [Function.comp_def, hfind]
  | some e =>
    have hek := List.find?_some hfind
    obtain rfl := (hk e.1).1.1 hek
    simp [Function.comp_def, hfind]

/-- The value under a key is that of the last entry with it. -/
theorem get?_ofList_eq_some_iff {es : List (κ × ν)} {k : κ} (hk : Exact k) {v : ν} :
    (ofList es).get? k = some v ↔
      ∃ before after, es = before ++ (k, v) :: after ∧ ∀ e ∈ after, e.1 ≠ k := by
  rw [get?_ofList hk, Option.map_eq_some_iff]
  constructor
  · rintro ⟨e, hfind, rfl⟩
    obtain ⟨hek, before, after, hsplit, hother⟩ := List.find?_eq_some_iff_append.1 hfind
    obtain rfl := (hk e.1).1.1 hek
    refine ⟨after.reverse, before.reverse, ?_, ?_⟩
    · rw [← List.reverse_reverse es, hsplit]
      simp
    · intro a ha heq
      have hne := hother a (List.mem_reverse.1 ha)
      rw [heq, hek] at hne
      cases hne
  · rintro ⟨before, after, rfl, hother⟩
    refine ⟨(k, v), List.find?_eq_some_iff_append.2 ⟨(hk k).1.2 rfl, after.reverse, before.reverse,
      by simp, ?_⟩, rfl⟩
    intro a ha
    have hne := hother a (List.mem_reverse.1 ha)
    rw [Bool.not_eq_true']
    exact Bool.eq_false_iff.2 fun h => hne ((hk a.1).1.1 h)

/-- A key that equals none that is there goes to the end. -/
theorem get?_put_of_new {t : Table κ ν} {k : κ} {v : ν} (h : ∀ e ∈ t.entries, (e.1 == k) = false)
    (k' : κ) : (t.put k v).get? k' = (t.get? k').or (if k == k' then some v else none) := by
  have hput : (t.put k v).entries = t.entries ++ [(k, v)] := putEntry_of_forall_ne h
  unfold get?
  rw [hput, List.find?_append, Option.map_or]
  cases hkk : k == k' <;> simp [hkk]

theorem forall_putAll {P : κ → Prop} {t : Table κ ν} {es : List (κ × ν)}
    (ht : ∀ e ∈ t.entries, P e.1) (hes : ∀ e ∈ es, P e.1) :
    ∀ e ∈ (t.putAll es).entries, P e.1 := by
  induction es generalizing t with
  | nil => exact ht
  | cons e es ih =>
    obtain ⟨he, hes⟩ := List.forall_mem_cons.1 hes
    exact ih (t := t.put e.1 e.2) (forall_putEntry ht he) hes

theorem forall_values_putAll {P : ν → Prop} {t : Table κ ν} {es : List (κ × ν)}
    (ht : ∀ e ∈ t.entries, P e.2) (hes : ∀ e ∈ es, P e.2) :
    ∀ e ∈ (t.putAll es).entries, P e.2 := by
  have hput {k : κ} {v : ν} {es : List (κ × ν)} (hes : ∀ e ∈ es, P e.2) (hv : P v) :
      ∀ e ∈ putEntry k v es, P e.2 := by
    induction es with
    | nil => simpa [putEntry] using hv
    | cons e es ih =>
      obtain ⟨he, hes⟩ := List.forall_mem_cons.1 hes
      unfold putEntry
      split
      · exact List.forall_mem_cons.2 ⟨hv, hes⟩
      · exact List.forall_mem_cons.2 ⟨he, ih hes⟩
  induction es generalizing t with
  | nil => exact ht
  | cons e es ih =>
    obtain ⟨he, hes⟩ := List.forall_mem_cons.1 hes
    exact ih (t := t.put e.1 e.2) (hput ht he) hes

theorem forall_ofList {P : κ → Prop} {es : List (κ × ν)} (h : ∀ e ∈ es, P e.1) :
    ∀ e ∈ (ofList es).entries, P e.1 :=
  forall_putAll (t := empty) (by simp [empty]) h

theorem forall_values_ofList {P : ν → Prop} {es : List (κ × ν)} (h : ∀ e ∈ es, P e.2) :
    ∀ e ∈ (ofList es).entries, P e.2 :=
  forall_values_putAll (t := empty) (by simp [empty]) h

theorem forall_entries_ofList {P : κ → Prop} {Q : ν → Prop} {es : List (κ × ν)}
    (h : ∀ e ∈ es, P e.1 ∧ Q e.2) : ∀ e ∈ (ofList es).entries, P e.1 ∧ Q e.2 :=
  fun e he => ⟨forall_ofList (fun e he => (h e he).1) e he,
    forall_values_ofList (fun e he => (h e he).2) e he⟩

/-- A table over another one whose keys equal no other keys: what the upper one holds counts, and
what the lower one holds only where the upper one has nothing. -/
theorem get?_union {t u : Table κ ν} (ht : ∀ e ∈ t.entries, Exact e.1) (k : κ) :
    (t.union u).get? k = (u.get? k).or (t.get? k) := by
  change (t.putAll u.entries).get? k =
    ((u.entries.find? fun e => e.1 == k).map Prod.snd).or (t.get? k)
  have hdistinct := u.distinct
  generalize u.entries = es at hdistinct ⊢
  induction es using List.reverseRecOn with
  | nil => rfl
  | append_singleton es e ih =>
    obtain ⟨hes, -, hlast⟩ := List.pairwise_append.1 hdistinct
    have hlast : ∀ a ∈ es, (a.1 == e.1) = false := fun a ha => hlast a ha e (by simp)
    rw [putAll_append, List.find?_append, Option.map_or]
    change ((t.putAll es).put e.1 e.2).get? k = _
    by_cases he : Exact e.1
    · rw [get?_put (.inl he), ih hes]
      cases hek : e.1 == k with
      | false => simp [hek]
      | true =>
        obtain rfl := (he k).2.1 hek
        have hnone : (es.find? fun a => a.1 == e.1) = none :=
          List.find?_eq_none.2 fun a ha => by simp [hlast a ha]
        simp [hnone, hek]
    · -- The lower keys equal no other keys, so none of them is this one or equals what it equals.
      have hlower : ∀ a ∈ t.entries, (a.1 == e.1) = false := fun a ha =>
        Bool.eq_false_iff.2 fun heq => he ((ht a ha e.1).2.1 heq ▸ ht a ha)
      have hnew : ∀ a ∈ (t.putAll es).entries, (a.1 == e.1) = false :=
        forall_putAll (P := fun x => (x == e.1) = false) hlower hlast
      rw [get?_put_of_new hnew, ih hes, Option.or_assoc, Option.or_assoc]
      congr 1
      cases hek : e.1 == k with
      | false => simp [hek]
      | true =>
        have hnone : t.get? k = none := by
          rw [get?_eq_none_iff, ← Bool.not_eq_true, contains_iff]
          rintro ⟨a, ha, hak⟩
          obtain rfl := (ht a ha k).2.1 hak
          exact he ((ht a ha e.1).1.1 hek ▸ ht a ha)
        simp [hnone, hek]

theorem putEntry_of_mem {k : κ} {v : ν} {es : List (κ × ν)} (hk : (k == k) = true)
    (hdistinct : es.Pairwise fun a b => (a.1 == b.1) = false) (h : (k, v) ∈ es) :
    putEntry k v es = es := by
  induction es with
  | nil => cases h
  | cons e es ih =>
    obtain ⟨hhead, htail⟩ := List.pairwise_cons.1 hdistinct
    unfold putEntry
    rcases List.mem_cons.1 h with rfl | h
    · rw [if_pos hk]
    · rw [if_neg (by simp [hhead _ h]), ih htail h]

/-- A table to which nothing new is added stays as it is. -/
theorem putAll_of_mem {t : Table κ ν} {es : List (κ × ν)}
    (h : ∀ e ∈ es, e ∈ t.entries ∧ (e.1 == e.1) = true) : t.putAll es = t := by
  induction es with
  | nil => rfl
  | cons e es ih =>
    obtain ⟨⟨he, hself⟩, hes⟩ := List.forall_mem_cons.1 h
    have hput : t.put e.1 e.2 = t := ext_entries (putEntry_of_mem hself t.distinct he)
    change (t.put e.1 e.2).putAll es = t
    rw [hput]
    exact ih hes

theorem union_self {t : Table κ ν} (h : ∀ e ∈ t.entries, (e.1 == e.1) = true) : t.union t = t :=
  putAll_of_mem fun e he => ⟨he, h e he⟩

theorem contains_ofList_iff {es : List (κ × ν)} {k : κ} (hk : Exact k) :
    (ofList es).contains k = true ↔ ∃ e ∈ es, e.1 = k := by
  rw [← isSome_get?, get?_ofList hk, Option.isSome_map, List.find?_isSome]
  simp only [List.mem_reverse, (hk _).1]

/-- A table of the values of a function holds each of them. -/
theorem get?_ofList_map {names : List κ} {k : κ} (hk : Exact k) (h : k ∈ names) (f : κ → ν) :
    (ofList (names.map fun name => (name, f name))).get? k = some (f k) := by
  have hcontains : (ofList (names.map fun name => (name, f name))).contains k = true :=
    (contains_ofList_iff hk).2 ⟨(k, f k), List.mem_map_of_mem h, rfl⟩
  rw [← isSome_get?, Option.isSome_iff_exists] at hcontains
  obtain ⟨v, hv⟩ := hcontains
  obtain ⟨before, after, hsplit, -⟩ := (get?_ofList_eq_some_iff hk).1 hv
  have hmem : (k, v) ∈ names.map fun name => (name, f name) := by
    rw [hsplit]
    simp
  obtain ⟨name, -, heq⟩ := List.mem_map.1 hmem
  cases heq
  exact hv

/-! ## Tables filled alike -/

section Alike

variable {μ : Type} {R : κ → ν → μ → Prop} {es : List (κ × ν)} {es' : List (κ × μ)}

/-- The same keys in the same order, with related values. -/
abbrev EntriesAlike (R : κ → ν → μ → Prop) : List (κ × ν) → List (κ × μ) → Prop :=
  List.Forall₂ fun e e' => e.1 = e'.1 ∧ R e.1 e.2 e'.2

variable (hR : ∀ {k k' : κ} {v : ν} {w : μ}, (k' == k) = true → R k v w → R k' v w)
include hR

theorem entriesAlike_putEntry {k : κ} {v : ν} {w : μ} (h : EntriesAlike R es es')
    (hvw : R k v w) : EntriesAlike R (putEntry k v es) (putEntry k w es') := by
  induction h with
  | nil => exact .cons ⟨rfl, hvw⟩ .nil
  | @cons e e' es es' he hes ih =>
    unfold putEntry
    rw [← he.1]
    by_cases hk : (e.1 == k) = true
    · rw [if_pos hk, if_pos hk]
      exact .cons ⟨rfl, hR hk hvw⟩ hes
    · rw [if_neg hk, if_neg hk]
      exact .cons he ih

/-- Where the relation does not tell equal keys apart, tables may be compared before or after they
are filled. -/
theorem entriesAlike_ofList (h : EntriesAlike R es es') :
    EntriesAlike R (ofList es).entries (ofList es').entries := by
  have hputAll {t : Table κ ν} {u : Table κ μ} (ht : EntriesAlike R t.entries u.entries) :
      EntriesAlike R (t.putAll es).entries (u.putAll es').entries := by
    induction h generalizing t u with
    | nil => exact ht
    | @cons e e' es es' he _ ih =>
      refine ih (t := t.put e.1 e.2) (u := u.put e'.1 e'.2) ?_
      rw [← he.1]
      exact entriesAlike_putEntry (R := R) hR ht he.2
  exact hputAll .nil

end Alike

/-- Under exact keys the entries may be replaced before or after they are merged. -/
theorem ofList_map_entries {μ : Type} {es : List (κ × ν)} (hexact : ∀ e ∈ es, Exact e.1)
    (f : κ → ν → μ) :
    ofList ((ofList es).entries.map fun e => (e.1, f e.1 e.2)) =
      ofList (es.map fun e => (e.1, f e.1 e.2)) := by
  let Replaced (k : κ) (v : ν) (w : μ) : Prop := w = f k v ∧ Exact k
  have hreplaced : EntriesAlike Replaced es (es.map fun e => (e.1, f e.1 e.2)) :=
    List.forall₂_map_right_iff.2 (List.forall₂_same.2 fun e he => ⟨rfl, rfl, hexact e he⟩)
  have hmerged := entriesAlike_ofList (R := Replaced) (fun {k k' _ _} heq h => by
    obtain rfl := (h.2 k').1.1 heq
    exact h) hreplaced
  have hentries : (ofList es).entries.map (fun e => (e.1, f e.1 e.2)) =
      (ofList (es.map fun e => (e.1, f e.1 e.2))).entries := by
    rw [← List.forall₂_eq_eq_eq, List.forall₂_map_left_iff]
    exact hmerged.imp fun e e' ⟨hkey, hvalue, _⟩ => Prod.ext hkey hvalue.symm
  rw [hentries, ofList_entries]

/-! ## Tables of texts -/

theorem exact_text (s : String) : Exact (Datum.text s) := fun _ =>
  ⟨Datum.beq_text_iff, Datum.text_beq_iff⟩

variable {α : Type}

theorem eraseDups_concat (l : List String) (s : String) :
    (l ++ [s]).eraseDups = if s ∈ l then l.eraseDups else l.eraseDups ++ [s] := by
  rw [List.eraseDups_append]
  by_cases h : s ∈ l
  · simp [List.removeAll, h]
  · simp [List.removeAll, h, List.eraseDups_cons]

/-- Without repetitions a list is in the order of first places. -/
theorem pairwise_idxOf_eraseDups (l : List String) :
    l.eraseDups.Pairwise fun a b => l.idxOf a < l.idxOf b := by
  induction l using List.reverseRecOn with
  | nil => exact List.Pairwise.nil
  | append_singleton l s ih =>
    have hold : l.eraseDups.Pairwise fun a b => (l ++ [s]).idxOf a < (l ++ [s]).idxOf b := by
      refine ih.imp_of_mem fun ha hb hlt => ?_
      rwa [List.idxOf_append, List.idxOf_append, if_pos (List.mem_eraseDups.1 ha),
        if_pos (List.mem_eraseDups.1 hb)]
    rw [eraseDups_concat]
    split
    · exact hold
    · rename_i hs
      refine List.pairwise_append.2 ⟨hold, List.pairwise_singleton _ _, fun a ha b hb => ?_⟩
      rw [List.mem_singleton.1 hb, List.idxOf_append, List.idxOf_append,
        if_pos (List.mem_eraseDups.1 ha), if_neg hs]
      have hlt := List.idxOf_lt_length_of_mem (List.mem_eraseDups.1 ha)
      omega

theorem contains_ofList_text_iff {items : List α} {f : α → String} {g : α → ν} {s : String} :
    (ofList (items.map fun x => (Datum.text (f x), g x))).contains (.text s) = true ↔
      s ∈ items.map f := by
  rw [contains_ofList_iff (exact_text s), List.mem_map]
  constructor
  · rintro ⟨e, he, heq⟩
    obtain ⟨x, hx, rfl⟩ := List.mem_map.1 he
    exact ⟨x, hx, Datum.text.inj heq⟩
  · rintro ⟨x, hx, rfl⟩
    exact ⟨_, List.mem_map_of_mem hx, rfl⟩

/-- Texts stand where they were put first. -/
theorem keys_ofList_text (items : List α) (f : α → String) (g : α → ν) :
    (ofList (items.map fun x => (Datum.text (f x), g x))).keys =
      (items.map f).eraseDups.map .text := by
  induction items using List.reverseRecOn with
  | nil => rfl
  | append_singleton items x ih =>
    rw [List.map_append, ofList, putAll_append]
    change ((ofList (items.map fun x => (Datum.text (f x), g x))).put (.text (f x)) (g x)).keys = _
    rw [keys_put, ih, List.map_append, List.map_singleton, eraseDups_concat]
    by_cases hx : f x ∈ items.map f
    · rw [if_pos (contains_ofList_text_iff.2 hx), if_pos hx]
    · rw [if_neg fun h => hx (contains_ofList_text_iff.1 h), if_neg hx, List.map_append]
      rfl

end Table

end Lifecycle
