import Lifecycle.Datum.Basic
import Lifecycle.Text.Quoted

/-!
# The text of data

`quotedForm` is the form of a datum inside a container and in technical messages, where texts stand
between quotes. `form` is the form in messages, names and status identifiers: a text is itself
and a date has its calendar form, while everything else is as inside a container.

An integer has a form however long it is, but one of too many digits is not written out. So a datum
has a text only if no such integer is in it (`writable`).
-/

namespace Lifecycle

namespace Datum

private def braced (inner : String) : String := "\x7b" ++ inner ++ "\x7d"

private def commas (parts : List String) : String := ", ".intercalate parts

/-- The members of a set between braces; the empty set has a name instead. -/
private def setText (parts : List String) : String :=
  if parts.isEmpty then "set()" else braced (commas parts)

private def frozensetText (parts : List String) : String :=
  "frozenset(" ++ (if parts.isEmpty then "" else braced (commas parts)) ++ ")"

mutual

/-- The form of a datum inside a container. -/
def quotedForm : Datum → String
  | .null => "None"
  | .bool b => if b then "True" else "False"
  | .int n => toString n
  | .float x => Decimal.plain.text x
  | .text s => Text.quote s
  | .bytes b => Text.quoteBytes b
  | .list items => "[" ++ commas (itemForms items) ++ "]"
  | .tuple items => match itemForms items with
    | [part] => "(" ++ part ++ ",)"
    | parts => "(" ++ commas parts ++ ")"
  | .set items => setText (itemForms items)
  | .frozenset items => frozensetText (itemForms items)
  | .map entries => braced (commas (entryForms entries))
  | .date d => d.quoted
  | .moment m => m.quoted
  | .generator .. => "<generator object>"
  | .producer _ => "<function>"
  | .staticRule targets =>
    "StaticRule(targets=" ++ frozensetText (targets.members.map Text.quote) ++ ")"
  | .deferredRule _ => "DeferredRule(producer=<function>)"

def itemForms : List Datum → List String
  | [] => []
  | d :: ds => quotedForm d :: itemForms ds

def entryForms : List (Datum × Datum) → List String
  | [] => []
  | (k, v) :: es => (quotedForm k ++ ": " ++ quotedForm v) :: entryForms es

end

/-- The form of a datum in messages, names and identifiers. -/
def form : Datum → String
  | .text s => s
  | .date d => d.text
  | .moment m => m.text
  | d => quotedForm d

@[simp] theorem form_text (s : String) : (Datum.text s).form = s := rfl

mutual

/-- Whether the form of a datum can be written out: no integer in it has too many digits. -/
def writable : Datum → Bool
  | .int n => Decimal.isShort n
  | .list items => allWritable items
  | .tuple items => allWritable items
  | .set items => allWritable items
  | .frozenset items => allWritable items
  | .map entries => entriesWritable entries
  | _ => true

def allWritable : List Datum → Bool
  | [] => true
  | d :: ds => writable d && allWritable ds

def entriesWritable : List (Datum × Datum) → Bool
  | [] => true
  | (k, v) :: es => writable k && writable v && entriesWritable es

end

@[simp] theorem writable_text (s : String) : (Datum.text s).writable = true := rfl

private theorem append_ne_empty {s : String} (h : s ≠ "") (t : String) : s ++ t ≠ "" := fun hst =>
  h (String.append_eq_empty_iff.1 hst).1

theorem quotedForm_ne_empty (d : Datum) : d.quotedForm ≠ "" := by
  -- A fixed text stands first, save for numbers.
  cases d with
  | null | generator | producer | deferredRule =>
    unfold quotedForm
    decide
  | bool b =>
    unfold quotedForm
    cases b <;> decide
  | int n =>
    change toString n ≠ ""
    rw [Int.toString_eq_repr, Int.repr_eq_if]
    split
    · exact Nat.repr_ne_empty
    · exact append_ne_empty (by decide) _
  | float x => exact Decimal.plain_text_ne_empty x
  | text | bytes => exact mt String.ofList_eq_empty_iff.1 (by simp)
  | list | map | frozenset | date | moment | staticRule =>
    exact append_ne_empty (append_ne_empty (by decide) _) _
  | tuple items =>
    unfold quotedForm
    split <;> exact append_ne_empty (append_ne_empty (by decide) _) _
  | set items =>
    unfold quotedForm setText
    split
    · decide
    · exact append_ne_empty (append_ne_empty (by decide) _) _

/-- The form of a datum that counts as true is not empty. -/
theorem form_ne_empty {d : Datum} (h : d.truthy = true) : d.form ≠ "" := by
  cases d with
  | text s =>
    rintro rfl
    cases h
  | date d => exact d.text_ne_empty
  | moment m => exact m.text_ne_empty
  | _ => exact quotedForm_ne_empty _

/-- The datum itself if it counts as true, else the alternative. -/
def orElse (d alternative : Datum) : Datum :=
  if d.truthy then d else alternative

/-- The form of a datum that counts as true, else the given one. -/
def formOr (d : Datum) (alternative : String) : String :=
  if d.truthy then d.form else alternative

end Datum

end Lifecycle
