import Lifecycle.Command.Run
import Lifecycle.Workspace.Definitions
import Lifecycle.Yaml.Document

/-!
# The command line

Looks up what the commands may need to know of the file system, runs the command and prints.
-/

namespace Lifecycle

/-- What stands at a path of the file system. -/
def lookUp (p : Path) : IO Entry := do
  try
    let contents ← IO.FS.readBinFile p.text
    return .file contents.toList
  catch
    | .noFileOrDirectory .. => return .missing
    | .inappropriateType .. => return .directory
    | .permissionDenied .. => return .unreadable .denied
    | fault => return .unreachable (.other (toString fault))

/-- The paths at which a workflow may be looked for. -/
def placesToLook (w : Workspace) (nameOrPath : String) : List Path :=
  let named := match w.definitionsDir with
    | .ok dir => Workspace.suffixes.map (Workspace.candidate dir nameOrPath)
    | .error _ => []
  Path.ofText nameOrPath :: named

/-- The workspace around the process, as far as the given workflow needs it. -/
def workspaceFor (nameOrPath : String) : IO Workspace := do
  let current ← IO.currentDir
  let home := (← IO.getEnv "HOME").getD "/"
  let setting ← IO.getEnv "STATUSFLOW_DEFINITIONS_DIR"
  let bare : Workspace := {
    current := .ofText current.toString
    home := .ofText home
    setting
    entry := fun _ => .missing
    readYaml := Yaml.read }
  let found ← (placesToLook bare nameOrPath).mapM fun p => do
    return (p, ← lookUp p)
  return { bare with entry := fun p => (found.lookup p).getD .missing }

/-- Runs a command line and prints what comes of it. -/
def runCommandLine (args : List String) : IO UInt32 := do
  let workflow := match Command.read args with
    | .done { command := some c, .. } => (c.workflow.text?).getD ""
    | _ => ""
  let w ← workspaceFor workflow
  let noProducers : Producers := fun _ _ => .ok .null
  let (outcome, _) := Command.execute w.loadNamed args noProducers .empty
  IO.print outcome.output
  IO.eprint outcome.log
  match outcome.ending with
  | .exit code => return code.toUInt32
  | .failed e =>
    IO.eprintln e.message
    return 1

end Lifecycle

def main (args : List String) : IO UInt32 := Lifecycle.runCommandLine args
