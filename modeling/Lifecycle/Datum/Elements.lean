import Lifecycle.Failure
import Lifecycle.Table

/-!
# Data as texts, keys, sequences and tables

A datum used as a text must be one that can be written out. A datum used as a key must be hashable,
and a datum used as a sequence must have elements: the members of a collection, the characters of a
text, the numbers of a byte string or the keys of a map. A table of labels is a map, or a sequence of
pairs.
-/

namespace Lifecycle

namespace Datum

/-- The text of a datum in messages, names and identifiers. -/
def shown (d : Datum) : Except Failure String :=
  if d.writable then .ok d.form else .error (.misuse .tooManyDigits)

@[simp] theorem shown_text (s : String) : (Datum.text s).shown = .ok s := rfl

theorem shown_of_writable {d : Datum} (h : d.writable = true) : d.shown = .ok d.form := if_pos h

theorem shown_of_unwritable {d : Datum} (h : d.writable = false) :
    d.shown = .error (.misuse .tooManyDigits) :=
  if_neg (Bool.eq_false_iff.1 h)

theorem shown_eq_ok_iff {d : Datum} {t : String} :
    d.shown = .ok t ↔ d.writable = true ∧ d.form = t := by
  cases h : d.writable with
  | false => simp [shown_of_unwritable h]
  | true => simp [shown_of_writable h]

/-- The text of a datum that counts as true, else the given one. -/
def shownOr (d : Datum) (alternative : String) : Except Failure String :=
  if d.truthy then d.shown else .ok alternative

def key (d : Datum) : Except Failure Datum :=
  if d.hashable then .ok d else .error (.misuse (.unhashable d.kind))

/-- The elements of a datum, one after another. -/
def elements? : Datum → Option (List Datum)
  | .list items => some items
  | .tuple items => some items
  | .set items => some items
  | .frozenset items => some items
  | .generator _ items => some items
  | .text s => some (s.toList.map fun c => .text (String.singleton c))
  | .bytes b => some (b.map fun x => .int x.toNat)
  | .map entries => some (entries.map Prod.fst)
  | _ => none

def elements (d : Datum) : Except Failure (List Datum) :=
  match d.elements? with
  | some items => .ok items
  | none => .error (.misuse (.notIterable d.kind))

/-- A datum with two elements, as an entry of a table. -/
def asEntry (d : Datum) : Except Failure (Datum × Datum) :=
  match d.elements? with
  | some [k, v] => k.key.map fun k => (k, v)
  | some items => .error (.misuse (.pairSize items.length))
  | none => .error (.misuse (.notPair d.kind))

/-- A map, or a sequence of pairs, as a table. -/
def toTable (d : Datum) : Except Failure (Table Datum Datum) :=
  match d.table?, d.elements? with
  | some t, _ => .ok t
  | none, some items => (items.mapM asEntry).map Table.ofList
  | none, none => .error (.misuse (.notTable d.kind))

def mergeInto (t : Table Datum Datum) (d : Datum) : Except Failure (Table Datum Datum) :=
  match d.table? with
  | some u => .ok (t.union u)
  | none => .error (.misuse (.notMergeable d.kind))

/-- The text of a datum, followed by blanks up to the given number of characters. Only texts and
numbers can be padded so. -/
def padded (width : Nat) (d : Datum) : Except Failure String :=
  match d with
  | .text s => .ok (Text.padRight width s)
  | .int n => (Datum.int n).shown.map (Text.padRight width)
  | .bool b => .ok (Text.padRight width (if b then "1" else "0"))
  | .float x => .ok (Text.padRight width (Decimal.plain.text x))
  | d => .error (.misuse (.notPadded d.kind))

/-- The texts of data that are all texts, between commas. -/
def joined (items : List Datum) : Except Failure String :=
  match items.mapM text? with
  | some texts => .ok (", ".intercalate texts)
  | none => .error (.misuse (.notText .list))

end Datum

end Lifecycle
