import Lifecycle.Workspace.Basic

/-!
# File trees

Files and directories held in memory. Every directory on the way to a file or a directory is there.
-/

namespace Lifecycle

/-- Places from the root, each with the bytes of a file or as a directory. -/
structure FileTree where
  places : List (List String × Option (List UInt8))

namespace FileTree

def empty : FileTree := ⟨[]⟩

/-- The tree with a file, in the place of one that was there. -/
def addFile (t : FileTree) (place : List String) (bytes : List UInt8) : FileTree :=
  ⟨(place, some bytes) :: t.places⟩

def addDirectory (t : FileTree) (place : List String) : FileTree := ⟨(place, none) :: t.places⟩

/-- What stands at a place. -/
def entryAt (t : FileTree) (place : List String) : Entry :=
  match t.places.lookup place with
  | some (some bytes) => .file bytes
  | some none => .directory
  | none =>
    if place.isEmpty || t.places.any fun p => place.isPrefixOf p.1 then .directory else .missing

/-- The number of bytes in the longest names. -/
def longestName : Nat := 255

/-- The number of bytes in the longest paths. -/
def longestPath : Nat := 4095

/-- What stands at the end of a way from a directory. Two dots lead to the directory above. -/
def walk (t : FileTree) (here : List String) : List String → Entry
  | [] => t.entryAt here
  | name :: rest =>
    if name = ".." then walk t here.dropLast rest
    else if longestName < name.utf8ByteSize then .unreachable .nameTooLong
    else
      match t.entryAt (here ++ [name]) with
      | .directory => walk t (here ++ [name]) rest
      | .file bytes => if rest.isEmpty then .file bytes else .blocked
      | _ => .missing

/-- What stands at a path, seen from a current directory. -/
def entry (t : FileTree) (current p : Path) : Entry :=
  if '\x00' ∈ p.text.toList then .unreachable .unnameable
  else if longestPath < p.text.utf8ByteSize then .unreachable .nameTooLong
  else
    match p.anchor with
    | .here => t.walk [] (current.names ++ p.names)
    | _ => t.walk [] p.names

end FileTree

end Lifecycle
