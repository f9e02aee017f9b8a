import Lifecycle.Document.Fault
import Lifecycle.Path

/-!
# Workspaces

What the library needs to know of the world to find and read definition files: the current
directory, the home directory, the setting of the directory of definitions, what stands at a path,
and how YAML is read, which is left to others.
-/

namespace Lifecycle

/-- What stands at a path. -/
inductive Entry where
  | file (bytes : List UInt8)
  /-- A file that cannot be read. -/
  | unreadable (fault : AccessFault)
  | directory
  /-- Neither a file nor a directory, such as a device. -/
  | special (content : Except AccessFault (List UInt8))
  /-- The system does not get there. -/
  | unreachable (fault : AccessFault)

namespace Entry

@[match_pattern]
def missing : Entry := unreachable .missing

/-- What stands at a path that leads through a file. -/
@[match_pattern]
def blocked : Entry := unreachable .notDirectory

/-- Whether a file stands there. It is a failure not to know, unless for want of anything there. -/
def isFile : Entry → Except AccessFault Bool
  | .file _ => .ok true
  | .unreadable _ => .ok true
  | .directory => .ok false
  | .special _ => .ok false
  | .unreachable fault => if fault.absence then .ok false else .error fault

/-- What is read there. -/
def content : Entry → Except AccessFault (List UInt8)
  | .file bytes => .ok bytes
  | .unreadable fault => .error fault
  | .directory => .error .directory
  | .special content => content
  | .unreachable fault => .error fault

end Entry

structure Workspace where
  current : Path
  home : Path
  /-- The home directories of other users. -/
  homeOf : String → Option Path := fun _ => none
  /-- The setting of the directory of definitions, if there is one. -/
  setting : Option String
  /-- What stands at a path, which starts at the current directory unless it starts at a root. -/
  entry : Path → Entry
  /-- The document that a text in YAML denotes. -/
  readYaml : String → Except DocumentFault Datum

namespace Workspace

def isFile (w : Workspace) (p : Path) : Except Failure Bool :=
  (w.entry p).isFile.mapError (.access · p.text)

def bytes (w : Workspace) (p : Path) : Except Failure (List UInt8) :=
  (w.entry p).content.mapError (.access · p.text)

/-- The directory of definitions where nothing is set. -/
def defaultDirectory : String := "workflows"

/-- The directory of definitions. An empty setting counts as none. -/
def definitionsDir (w : Workspace) : Except Failure Path :=
  match w.setting with
  | some s =>
    if s.isEmpty then .ok (w.current.join (.ofText defaultDirectory))
    else Path.expandHome w.home w.homeOf (.ofText s)
  | none => .ok (w.current.join (.ofText defaultDirectory))

/-- The suffixes of definition files, in the order in which they are tried. -/
def suffixes : List String := [".yaml", ".yml", ".json"]

/-- The file of a named definition with some suffix. -/
def candidate (dir : Path) (name suffix : String) : Path := dir.join (.ofText (name ++ suffix))

/-- The first of some paths at which a file stands, if there is one. -/
def firstFile (w : Workspace) : List Path → Except Failure (Option Path)
  | [] => .ok none
  | p :: rest => do if ← w.isFile p then return some p else w.firstFile rest

/-- The file of a named definition: with the first suffix under which there is one, else with the
first suffix of all. -/
def definitionPath (w : Workspace) (name : String) : Except Failure Path := do
  let dir ← w.definitionsDir
  let found ← w.firstFile (suffixes.map (candidate dir name))
  return found.getD (candidate dir name ".yaml")

end Workspace

end Lifecycle
