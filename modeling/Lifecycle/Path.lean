import Lifecycle.Failure
import Lifecycle.Text.Parts

/-!
# Paths

A path is a list of names, from the root or from wherever one stands. Empty names and single dots do
not count; two dots stay. Exactly two slashes at the start are a root of their own.
-/

namespace Lifecycle

inductive Anchor where
  | here | root | doubleRoot
  deriving DecidableEq, Repr

structure Path where
  anchor : Anchor
  names : List String
  deriving DecidableEq, Repr

namespace Path

instance : Inhabited Path := ⟨.here, []⟩

def anchorOf : List Char → Anchor
  | '/' :: '/' :: '/' :: _ => .root
  | '/' :: '/' :: _ => .doubleRoot
  | '/' :: _ => .root
  | _ => .here

def namesOf (text : List Char) : List String :=
  ((Text.partsAt '/' text).filter fun part => !(part = [] || part = ['.'])).map String.ofList

def ofText (text : String) : Path :=
  { anchor := anchorOf text.toList, names := namesOf text.toList }

def text (p : Path) : String :=
  match p.anchor, p.names with
  | .here, [] => "."
  | .here, names => "/".intercalate names
  | .root, names => "/" ++ "/".intercalate names
  | .doubleRoot, names => "//" ++ "/".intercalate names

/-- The last name, empty if there is none. -/
def name (p : Path) : String := p.names.getLast?.getD ""

/-- Splits a name before its last dot, unless that is its first or last character. -/
def splitName (name : List Char) : List Char × List Char :=
  let back := name.reverse
  let afterDot := back.takeWhile (· != '.')
  let stem := (back.drop (afterDot.length + 1)).reverse
  if afterDot.isEmpty || stem.isEmpty then (name, [])
  else (stem, '.' :: afterDot.reverse)

/-- The end of the last name, from its dot on. -/
def suffix (p : Path) : String := String.ofList (splitName p.name.toList).2

def stem (p : Path) : String := String.ofList (splitName p.name.toList).1

/-- The second path, taken from the first one. -/
def join (p q : Path) : Path :=
  match q.anchor with
  | .here => { p with names := p.names ++ q.names }
  | _ => q

/-- The path with a home directory in the place of a tilde: one's own, or that of the user whose
name stands after the tilde. -/
def expandHome (home : Path) (homeOf : String → Option Path) (p : Path) : Except Failure Path :=
  match p.anchor, p.names with
  | .here, first :: rest =>
    match first.toList with
    | ['~'] => .ok { home with names := home.names ++ rest }
    | '~' :: user =>
      match homeOf (String.ofList user) with
      | some other => .ok { other with names := other.names ++ rest }
      | none => .error (.unknownHome first)
    | _ => .ok p
  | _, _ => .ok p

end Path

end Lifecycle
