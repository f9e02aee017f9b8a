import Lifecycle.Audit
import Lifecycle.Command.Basic
import Lifecycle.Transition

/-!
# Running commands

A command loads its workflow, prints what it finds and ends with an exit code: 0 if all is well, 1
if the workflow cannot be loaded or the answer is a refusal. Failures that are none of the
library's own end the run where they arise.
-/

namespace Lifecycle.Command

def printLine (line : String) : Act String Unit := do
  let printed ← Act.getState
  Act.setState (printed ++ line ++ "\n")

def printFailure (message : String) : Act String Unit := printLine s!"ERROR: {message}"

/-- Does an act. A missing file and a failure of the library's own are printed instead. -/
def orPrint {α : Type} (act : Act String α) : Act String (Option α) := do
  match ← act.attempt with
  | .ok a => return some a
  | .error (.access .missing path) =>
    printFailure s!"Workflow file not found: {path}"
    return none
  | .error e =>
    if e.isWorkflow then
      printFailure e.message
      return none
    else Act.fail e

/-- What stands for the targets of a rule. -/
def targetsText : Rule → String
  | .static targets =>
    let list := ", ".intercalate targets.members
    if list.isEmpty then "none (terminal)" else list
  | _ => "<deferred>"

/-- The label of a status in a table, or a dash. -/
def labelText (labels : Labels) (status : Datum) : Except Failure String :=
  ((labels.get? status).getD .null).shownOr "-"

def describeNode (d : Definition) (status : Datum) (node : Node) : Act String Unit := do
  let name ← Act.ofExcept (status.padded 20)
  let label ← Act.ofExcept (labelText d.labels status)
  let action ← Act.ofExcept (labelText d.actionLabels status)
  printLine s!"  {name} label={label}  action={action}"
  printLine s!"    -> {targetsText node.rule}"

def describeDefinition (d : Definition) : Act String Nat := do
  printLine s!"Workflow: {← Act.ofExcept d.name.shown}"
  printLine (String.ofList (List.replicate 40 '─'))
  printLine s!"  Initial status: {← Act.ofExcept d.initial.shown}"
  printLine s!"  Statuses: {d.statuses.size}\n"
  d.statuses.entries.forM fun e => describeNode d e.1 e.2
  return 0

def auditDefinition (d : Definition) : Act String Nat := do
  let report ← Act.ofExcept d.audit
  printLine (← Act.ofExcept report.summary)
  return if report.passed then 0 else 1

/-- The words for a status that may follow, with the label of the action if wanted. -/
def nextText (d : Definition) (labels : Bool) (status : Datum) : Except Failure String := do
  let name ← status.shown
  if labels then return s!"  {name}  ({← labelText d.actionLabels status})"
  else return s!"  {name}"

def printNext (d : Definition) (status : Datum) (labels : Bool) (found : List Datum) :
    Act String Unit := do
  if found.isEmpty then printLine s!"  {← Act.ofExcept status.shown} is terminal"
  else found.forM fun s => do
    printLine (← Act.ofExcept (nextText d labels s))

def nextStatuses (d : Definition) (status : Datum) (labels : Bool) : Act String Nat := do
  match ← orPrint (d.orderedTransitions status) with
  | some found =>
    printNext d status labels found
    return 0
  | none => return 1

def checkTransition (d : Definition) (source target : Datum) : Act String Nat := do
  let (permitted, words) ← Transition.check d source target
  printLine s!"  {words}"
  if permitted then
    printLine "  Transition is valid."
    return 0
  else return 1

def listStatuses (d : Definition) (actions : Bool) : Act String Nat := do
  let pairs ← Act.ofExcept (d.labelEach actions d.statusIds)
  pairs.forM fun p => do
    let name ← Act.ofExcept (p.1.padded 20)
    let label ← Act.ofExcept (p.2.shownOr "-")
    printLine s!"  {name} {label}"
  return 0

def answer (c : Command) (d : Definition) : Act String Nat :=
  match c with
  | .describe _ => describeDefinition d
  | .audit _ => auditDefinition d
  | .next _ status labels => nextStatuses d status labels
  | .check _ source target => checkTransition d source target
  | .dropdown _ actions => listStatuses d actions

def run (load : Datum → Act String Definition) (c : Command) : Act String Nat := do
  match ← orPrint (load c.workflow) with
  | some d => c.answer d
  | none => return 1

/-- How a command line ends. -/
inductive Ending where
  | exit (code : Nat)
  | failed (e : Failure)

/-- What comes of a command line: its ending and what it printed, as results and as logs. -/
structure Outcome where
  ending : Ending
  output : String
  log : String

/-- The lines of the log for events: warnings always, and everything if wanted. -/
def logText (verbose : Bool) (events : List Event) : String :=
  String.join ((events.filter fun e => verbose || e.level == .warning).map fun e => e.line ++ "\n")

/-- Runs a command line, with the journal after it. Asking for help is no failure; neither is asking
for nothing. -/
def execute (load : Datum → Act String Definition) (args : List String) (producers : Producers)
    (journal : Journal) : Outcome × Journal :=
  match read args with
  | .help => ({ ending := .exit 0, output := usage, log := "" }, journal)
  | .misuse => ({ ending := .exit 2, output := "", log := usage }, journal)
  | .done { command := none, .. } => ({ ending := .exit 0, output := usage, log := "" }, journal)
  | .done { verbose, command := some c } =>
    let (result, after, output) := (c.run load).run producers { journal with events := [] } ""
    let ending := match result with
      | .ok code => Ending.exit code
      | .error e => .failed e
    ({ ending, output, log := logText verbose after.events }, after)

end Lifecycle.Command
