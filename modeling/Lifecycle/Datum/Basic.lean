import Lifecycle.Calendar
import Lifecycle.Decimal.Numeral
import Lifecycle.Targets

/-!
# Data

Documents, labels and statuses are data of many kinds. This module holds the type, the names of the
kinds, truth, equality and which data can be a key.

Equality is by value across the kinds of number (`1`, `1.0` and `true` are equal) and across the two
kinds of set; lists and tuples differ. Mutable data, and tuples that hold some, cannot be keys.
-/

namespace Lifecycle

/-- A supplier of target statuses, known by its number. -/
structure Producer where
  id : Nat
  deriving DecidableEq, Repr, Inhabited

inductive Kind where
  | null | bool | int | float | text | bytes | list | tuple | set | frozenset | map
  | date | moment | generator | producer | staticRule | deferredRule
  deriving DecidableEq, Repr

def Kind.name : Kind → String
  | .null => "NoneType"
  | .bool => "bool"
  | .int => "int"
  | .float => "float"
  | .text => "str"
  | .bytes => "bytes"
  | .list => "list"
  | .tuple => "tuple"
  | .set => "set"
  | .frozenset => "frozenset"
  | .map => "dict"
  | .date => "date"
  | .moment => "datetime"
  | .generator => "generator"
  | .producer => "function"
  | .staticRule => "StaticRule"
  | .deferredRule => "DeferredRule"

/-- A datum. A map lists its entries in order and holds no two equal keys; a set lists its members
once each. Generators and producers are known by their number. -/
inductive Datum where
  | null
  | bool (b : Bool)
  | int (n : Int)
  | float (x : Binary64)
  | text (s : String)
  | bytes (b : List UInt8)
  | list (items : List Datum)
  | tuple (items : List Datum)
  | set (items : List Datum)
  | frozenset (items : List Datum)
  | map (entries : List (Datum × Datum))
  | date (d : Date)
  | moment (m : Moment)
  | generator (id : Nat) (items : List Datum)
  | producer (p : Producer)
  | staticRule (targets : Targets)
  | deferredRule (p : Producer)
  deriving Inhabited

namespace Datum

def kind : Datum → Kind
  | .null => .null
  | .bool _ => .bool
  | .int _ => .int
  | .float _ => .float
  | .text _ => .text
  | .bytes _ => .bytes
  | .list _ => .list
  | .tuple _ => .tuple
  | .set _ => .set
  | .frozenset _ => .frozenset
  | .map _ => .map
  | .date _ => .date
  | .moment _ => .moment
  | .generator .. => .generator
  | .producer _ => .producer
  | .staticRule _ => .staticRule
  | .deferredRule _ => .deferredRule

/-- Whether the datum counts as true: neither null nor false, zero or empty. -/
def truthy : Datum → Bool
  | .null => false
  | .bool b => b
  | .int n => n != 0
  | .float x => !x.isZero
  | .text s => !s.isEmpty
  | .bytes b => !b.isEmpty
  | .list items => !items.isEmpty
  | .tuple items => !items.isEmpty
  | .set items => !items.isEmpty
  | .frozenset items => !items.isEmpty
  | .map entries => !entries.isEmpty
  | _ => true

mutual

/-- Whether the datum can be a key. -/
def hashable : Datum → Bool
  | .list _ => false
  | .set _ => false
  | .map _ => false
  | .tuple items => allHashable items
  | _ => true

def allHashable : List Datum → Bool
  | [] => true
  | d :: ds => hashable d && allHashable ds

end

/-- Whether a number of some kind is the integer `n`. -/
def isInteger (n : Int) : Datum → Bool
  | .bool b => n == (if b then 1 else 0)
  | .int m => n == m
  | .float x => x.sameInt n
  | _ => false

def members? : Datum → Option (List Datum)
  | .set items => some items
  | .frozenset items => some items
  | _ => none

mutual

def same : Datum → Datum → Bool
  | .null, .null => true
  | .bool a, b => isInteger (if a then 1 else 0) b
  | .int a, b => isInteger a b
  | .float a, .float b => a.same b
  | .float a, .int b => a.sameInt b
  | .float a, .bool b => a.sameInt (if b then 1 else 0)
  | .text a, .text b => a == b
  | .bytes a, .bytes b => a == b
  | .list a, .list b => sameItems a b
  | .tuple a, .tuple b => sameItems a b
  | .set a, b => match members? b with
    | some bs => a.length == bs.length && allAmong a bs
    | none => false
  | .frozenset a, b => match members? b with
    | some bs => a.length == bs.length && allAmong a bs
    | none => false
  | .map a, .map b => a.length == b.length && entriesAmong a b
  | .date a, .date b => a == b
  | .moment a, .moment b => a.same b
  | .generator a _, .generator b _ => a == b
  | .producer a, .producer b => a == b
  | .staticRule a, .staticRule b => a == b
  | .deferredRule a, .deferredRule b => a == b
  | _, _ => false
termination_by structural a => a

def sameItems : List Datum → List Datum → Bool
  | [], [] => true
  | a :: as, b :: bs => same a b && sameItems as bs
  | _, _ => false
termination_by structural as => as

def allAmong : List Datum → List Datum → Bool
  | [], _ => true
  | a :: as, bs => bs.any (fun b => same a b) && allAmong as bs
termination_by structural as => as

def entriesAmong : List (Datum × Datum) → List (Datum × Datum) → Bool
  | [], _ => true
  | (k, v) :: es, bs => bs.any (fun b => same k b.1 && same v b.2) && entriesAmong es bs
termination_by structural es => es

end

instance : BEq Datum := ⟨same⟩

theorem beq_text (a b : String) : (Datum.text a == Datum.text b) = (a == b) := by
  change same _ _ = _
  rw [same]

def isNull : Datum → Bool
  | .null => true
  | _ => false

/-- The text of a datum that is one. -/
def text? : Datum → Option String
  | .text s => some s
  | _ => none

end Datum

end Lifecycle
