import Lifecycle.Provider.Basic

/-!
# Finding a provider

A provider is given as such, or by a path that names a module and a member of it: `module:member`,
or `module.member` with the last dot as the mark. Modules are registered under their full names.
-/

namespace Lifecycle

/-- What is given where a provider is wanted. -/
inductive ProviderReference where
  | nothing
  | path (place : String)
  | provider (p : Provider)

/-- Modules by full name, each with its members. -/
structure Registry where
  modules : Table String (Table String Provider)

namespace Registry

instance : Inhabited Registry := ⟨⟨.empty⟩⟩

/-- Each part of a text that ends before a dot, the shortest first, and the whole text. -/
def ancestors (name : List Char) : List (List Char) :=
  let places := (List.range name.length).filter fun i => name[i]? == some '.'
  places.map name.take ++ [name]

/-- The first name on the way to a module that is not there, and the one before it if that is there.
The names are given with the longest first, and that one is not there. -/
def firstMissing (isThere : List Char → Bool) : List (List Char) → Option (List Char) × List Char
  | [] => (none, [])
  | [name] => (none, name)
  | name :: parent :: more =>
    if isThere parent then (some parent, name) else firstMissing isThere (parent :: more)

/-- The words for a module that is not there. -/
def missingDetail (r : Registry) (name : String) : String :=
  let isThere (n : List Char) := r.modules.contains (String.ofList n)
  let (parent, missing) := firstMissing isThere (ancestors name.toList).reverse
  let detail := "No module named " ++ Text.quote (String.ofList missing)
  match parent with
  | none => detail
  | some p => detail ++ "; " ++ Text.quote (String.ofList p) ++ " is not a package"

/-- Splits a path into the names of a module and a member. -/
def splitPath (path : List Char) : List Char × List Char :=
  if path.contains ':' then
    (path.takeWhile (· != ':'), (path.dropWhile (· != ':')).drop 1)
  else
    let back := path.reverse
    (((back.dropWhile (· != '.')).drop 1).reverse, (back.takeWhile (· != '.')).reverse)

/-- The named member of a named module, as what the path leads to. -/
def lookUp (r : Registry) (path module member : String) : Except Failure Provider :=
  match r.modules.get? module with
  | none => .error (.configuration (.unloadable path (some (r.missingDetail module))))
  | some members =>
    match members.get? member with
    | none => .error (.configuration (.unloadable path none))
    | some p => .ok p

def find (r : Registry) (path : String) : Except Failure Provider :=
  let (moduleChars, memberChars) := splitPath path.toList
  if moduleChars.isEmpty || memberChars.isEmpty then
    .error (.configuration (.unloadable path none))
  else
    let moduleName := String.ofList moduleChars
    if moduleName.startsWith "." then .error (.misuse (.relativeModule moduleName))
    else r.lookUp path moduleName (String.ofList memberChars)

end Registry

namespace ProviderReference

/-- A datum where a provider is wanted: a text is a path. -/
def ofDatum : Datum → ProviderReference
  | .null => .nothing
  | .text place => .path place
  | d => .provider (.ofDatum d)

def resolve (reference : ProviderReference) (r : Registry) : Except Failure Provider :=
  match reference with
  | .nothing => .error (.configuration .noProvider)
  | .path place => r.find place
  | .provider p => .ok p

/-- The name of what is given: a path has none. -/
def name : ProviderReference → String
  | .provider p => p.name
  | _ => ""

end ProviderReference

end Lifecycle
