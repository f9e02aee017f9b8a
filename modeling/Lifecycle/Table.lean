import Lifecycle.Datum.Basic

/-!
# Ordered tables

A table lists its entries in the order in which their keys were first put in, and holds no two equal
keys. Putting a value under a key that is there keeps the place and the spelling of the key and
replaces the value.
-/

namespace Lifecycle

/-- Entries in order of insertion, with different keys. -/
structure Table (κ ν : Type) [BEq κ] where
  entries : List (κ × ν)
  distinct : entries.Pairwise fun a b => (a.1 == b.1) = false

namespace Table

variable {κ ν : Type} [BEq κ]

instance : Inhabited (Table κ ν) := ⟨[], .nil⟩

def empty : Table κ ν := ⟨[], .nil⟩

def keys (t : Table κ ν) : List κ := t.entries.map Prod.fst

def size (t : Table κ ν) : Nat := t.entries.length

def isEmpty (t : Table κ ν) : Bool := t.entries.isEmpty

def get? (t : Table κ ν) (k : κ) : Option ν :=
  (t.entries.find? fun e => e.1 == k).map Prod.snd

def contains (t : Table κ ν) (k : κ) : Bool :=
  t.entries.any fun e => e.1 == k

/-- The entries with a value put under a key. -/
def putEntry (k : κ) (v : ν) : List (κ × ν) → List (κ × ν)
  | [] => [(k, v)]
  | e :: es => if e.1 == k then (e.1, v) :: es else e :: putEntry k v es

theorem forall_putEntry {P : κ → Prop} {k : κ} {v : ν} {es : List (κ × ν)}
    (hes : ∀ e ∈ es, P e.1) (hk : P k) : ∀ e ∈ putEntry k v es, P e.1 := by
  induction es with
  | nil => simpa [putEntry] using hk
  | cons e es ih =>
    obtain ⟨he, hes⟩ := List.forall_mem_cons.1 hes
    unfold putEntry
    split
    · exact List.forall_mem_cons.2 ⟨he, hes⟩
    · exact List.forall_mem_cons.2 ⟨he, ih hes⟩

theorem distinct_putEntry {k : κ} {v : ν} {es : List (κ × ν)}
    (h : es.Pairwise fun a b => (a.1 == b.1) = false) :
    (putEntry k v es).Pairwise fun a b => (a.1 == b.1) = false := by
  induction es with
  | nil => simp [putEntry]
  | cons e es ih =>
    obtain ⟨he, hes⟩ := List.pairwise_cons.1 h
    unfold putEntry
    split
    · exact List.pairwise_cons.2 ⟨he, hes⟩
    · rename_i hk
      have hk : (e.1 == k) = false := by simpa using hk
      exact List.pairwise_cons.2
        ⟨forall_putEntry (P := fun x => (e.1 == x) = false) he hk, ih hes⟩

def put (t : Table κ ν) (k : κ) (v : ν) : Table κ ν :=
  ⟨putEntry k v t.entries, distinct_putEntry t.distinct⟩

/-- The table after the entry of a key is taken out. -/
def erase (t : Table κ ν) (k : κ) : Table κ ν :=
  ⟨t.entries.filter fun e => !(e.1 == k), t.distinct.filter _⟩

def putAll (t : Table κ ν) (entries : List (κ × ν)) : Table κ ν :=
  entries.foldl (fun t e => t.put e.1 e.2) t

def ofList (entries : List (κ × ν)) : Table κ ν := empty.putAll entries

/-- The entries of the first table, overridden and followed by those of the second. -/
def union (t u : Table κ ν) : Table κ ν := t.putAll u.entries

end Table

/-- The entries of a map, as a table. -/
def Datum.table? : Datum → Option (Table Datum Datum)
  | .map entries => some (Table.ofList entries)
  | _ => none

/-- The map with the entries of a table. -/
def Datum.ofTable (t : Table Datum Datum) : Datum := .map t.entries

/-- The members of a list, each at its first place only. -/
def Datum.distinct (items : List Datum) : List Datum :=
  items.foldl (fun seen d => if seen.any (· == d) then seen else seen ++ [d]) []

end Lifecycle
