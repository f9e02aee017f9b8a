/-!
# Sets of target statuses

A set of texts, kept as the list of its members in increasing order without repetition, so that two
sets with the same members are the same value.
-/

namespace Lifecycle

namespace Targets

/-- Adds a text to an increasing list, unless it is there. -/
def place (s : String) : List String → List String
  | [] => [s]
  | t :: ts => if s < t then s :: t :: ts else if s = t then t :: ts else t :: place s ts

theorem mem_place {a s : String} {ts : List String} :
    a ∈ place s ts ↔ a = s ∨ a ∈ ts := by
  induction ts with
  | nil => simp [place]
  | cons t ts ih =>
    unfold place
    split
    · simp
    · split
      · rename_i h
        subst h
        simp
      · simp only [List.mem_cons, ih]
        grind

theorem pairwise_place {s : String} {ts : List String} (h : ts.Pairwise (· < ·)) :
    (place s ts).Pairwise (· < ·) := by
  induction ts with
  | nil => simp [place]
  | cons t ts ih =>
    obtain ⟨ht, hts⟩ := List.pairwise_cons.1 h
    unfold place
    split
    · rename_i hlt
      refine List.pairwise_cons.2 ⟨fun a ha => ?_, h⟩
      rcases List.mem_cons.1 ha with rfl | ha
      · exact hlt
      · exact String.lt_trans hlt (ht a ha)
    · split
      · exact h
      · rename_i hlt hne
        refine List.pairwise_cons.2 ⟨fun a ha => ?_, ih hts⟩
        rcases mem_place.1 ha with rfl | ha
        · exact Std.lt_of_le_of_ne (String.not_lt.1 hlt) (Ne.symm hne)
        · exact ht a ha

end Targets

/-- A finite set of status texts. -/
structure Targets where
  members : List String
  increasing : members.Pairwise (· < ·)
  deriving DecidableEq

namespace Targets

instance : Inhabited Targets := ⟨[], .nil⟩

def empty : Targets := ⟨[], .nil⟩

def insert (s : String) (ts : Targets) : Targets :=
  ⟨place s ts.members, pairwise_place ts.increasing⟩

def ofList (texts : List String) : Targets :=
  texts.foldr insert empty

instance : Membership String Targets := ⟨fun ts s => s ∈ ts.members⟩

instance (s : String) (ts : Targets) : Decidable (s ∈ ts) :=
  inferInstanceAs (Decidable (s ∈ ts.members))

def contains (ts : Targets) (s : String) : Bool := ts.members.contains s

def isEmpty (ts : Targets) : Bool := ts.members.isEmpty

theorem mem_insert {a s : String} {ts : Targets} : a ∈ ts.insert s ↔ a = s ∨ a ∈ ts :=
  mem_place

theorem mem_ofList {a : String} {texts : List String} : a ∈ ofList texts ↔ a ∈ texts := by
  induction texts with
  | nil =>
    constructor
    · intro h
      cases h
    · intro h
      cases h
  | cons t ts ih =>
    rw [List.mem_cons, ← ih]
    exact mem_insert

end Targets

end Lifecycle
