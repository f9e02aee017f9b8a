import Lifecycle.Json
import Lifecycle.Provider.Basic
import Lifecycle.Workspace.Basic

/-!
# Definition files

A definition file is a JSON document if its name says so, and a YAML document otherwise. A
workflow is loaded by the path of its file, or by its name from the directory of definitions.
-/

namespace Lifecycle

/-- The text with every break as a line feed. -/
def plainBreaks : List Char → List Char
  | [] => []
  | '\r' :: '\n' :: rest => '\n' :: plainBreaks rest
  | '\r' :: rest => '\n' :: plainBreaks rest
  | c :: rest => c :: plainBreaks rest

/-- The text of bytes, if they are valid UTF-8. -/
def textOfBytes? (bytes : List UInt8) : Option String :=
  (String.fromUTF8? ⟨bytes.toArray⟩).map fun s => String.ofList (plainBreaks s.toList)

namespace Workspace

variable {σ : Type}

/-- Reads the text of a definition file as the document that it is. -/
def readDocument (w : Workspace) (p : Path) (text : String) : Except DocumentFault Datum :=
  if p.suffix == ".json" then Json.read text else w.readYaml text

def read (w : Workspace) (p : Path) : Except Failure (Table Datum Datum) := do
  let bytes ← w.bytes p
  match textOfBytes? bytes with
  | none => .error (.undecodable p.text)
  | some text =>
    match w.readDocument p text with
    | .error .malformed => .error (.definition (.malformedFile p.text))
    | .error (.scalar fault) => .error (.scalar fault)
    | .ok document =>
      match document.table? with
      | none => .error (.definition (.fileNotMapping p.text))
      | some t => .ok t

/-- Reads the definition in a file. Its name is the stem of the path if the document has none. -/
def readDefinition (w : Workspace) (p : Path) : Except Failure Definition := do
  let document ← w.read p
  let name := ((document.get? (.text "name")).getD .null).orElse (.text p.stem)
  Definition.ofDocument (Datum.ofTable document) .null .null name

def loadFile (w : Workspace) (p : Path) : Act σ Definition := do
  let d ← Act.ofExcept (w.readDefinition p)
  Act.report (.loaded p.text)
  return d

/-- The file of a workflow that is given by path or by name: anything with a suffix of definition
files, and anything that is a file, is a path. -/
def locate (w : Workspace) (nameOrPath : String) : Except Failure Path := do
  let p := Path.ofText nameOrPath
  if suffixes.contains p.suffix then return p
  if ← w.isFile p then return p
  w.definitionPath nameOrPath

def load (w : Workspace) (nameOrPath : String) : Act σ Definition := do
  let p ← Act.ofExcept (w.locate nameOrPath)
  w.loadFile p

/-- Loads the workflow that a word names, which has to be a text. -/
def loadNamed (w : Workspace) (word : Datum) : Act σ Definition :=
  match word with
  | .text nameOrPath => w.load nameOrPath
  | d => Act.fail (.misuse (.notText d.kind))

end Workspace

/-- A definition from a file, as a provider. -/
structure FileProvider where
  path : Path
  definition : Definition

namespace FileProvider

/-- The provider of a workflow that is given by path or by name. -/
def load {σ : Type} (w : Workspace) (nameOrPath : String) : Act σ FileProvider := do
  let path := Path.ofText nameOrPath
  return { path, definition := ← w.load path.text }

def provider (p : FileProvider) : Provider :=
  { name := "FileProvider"
    description := "<FileProvider object>"
    labels := some (.method (.ok (Datum.ofTable p.definition.labels)))
    actionLabels := some (.method (.ok (Datum.ofTable p.definition.actionLabels)))
    definition := some (.method (.ok (.definition p.definition))) }

end FileProvider

end Lifecycle
