import Lifecycle.Command.Options

/-!
# Commands

What can be asked for on the command line. Options before the command belong to no command, and the
first word is the command, to which everything after it belongs.
-/

namespace Lifecycle

/-- A question about a workflow, in words that are texts as a rule. -/
inductive Command where
  | describe (workflow : Datum)
  | audit (workflow : Datum)
  | next (workflow status : Datum) (labels : Bool)
  | check (workflow source target : Datum)
  | dropdown (workflow : Datum) (actions : Bool)

namespace Command

/-- A command, if there is one, and whether everything is to be logged. -/
structure Invocation where
  verbose : Bool
  command : Option Command

def workflow : Command → Datum
  | .describe w => w
  | .audit w => w
  | .next w _ _ => w
  | .check w _ _ => w
  | .dropdown w _ => w

def helpOptions : Options := [("-h".toList, .help), ("--help".toList, .help)]

def mainOptions : Options :=
  helpOptions ++ [("-v".toList, .verbose), ("--verbose".toList, .verbose)]

def nextOptions : Options := helpOptions ++ [("--labels".toList, .labels)]

def dropdownOptions : Options := helpOptions ++ [("--actions".toList, .actions)]

/-- Reads the arguments of a command with a number of words. -/
def withWords (options : Options) (count : Nat) (args : List String)
    (build : List Datum → List Switch → Option Command) : Reading Command :=
  match readArguments options count args with
  | .help => .help
  | .misuse => .misuse
  | .done (words, switches) =>
    match build words switches with
    | some c => .done c
    | none => .misuse

/-- Reads a command with its arguments. -/
def ofArguments (name : String) (args : List String) : Reading Command :=
  match name with
  | "show" => withWords helpOptions 1 args fun words _ => match words with
    | [w] => some (.describe w)
    | _ => none
  | "audit" => withWords helpOptions 1 args fun words _ => match words with
    | [w] => some (.audit w)
    | _ => none
  | "next" => withWords nextOptions 2 args fun words s => match words with
      | [w, status] => some (.next w status (s.contains .labels))
      | _ => none
  | "check" => withWords helpOptions 3 args fun words _ => match words with
    | [w, source, target] => some (.check w source target)
    | _ => none
  | "dropdown" => withWords dropdownOptions 1 args fun words s => match words with
      | [w] => some (.dropdown w (s.contains .actions))
      | _ => none
  | _ => .misuse

/-- Reads the arguments from the first word on; those before it are understood already. The
arguments come with their texts. -/
def readMain : List (Argument × String) → Bool → Bool → Reading Invocation
  | [], verbose, spare => if spare then .misuse else .done { verbose, command := none }
  | (.word name, _) :: rest, verbose, spare =>
    match ofArguments name (rest.map Prod.snd) with
    | .help => .help
    | .misuse => .misuse
    | .done c => if spare then .misuse else .done { verbose, command := some c }
  | (.switches s more, _) :: rest, verbose, spare =>
    if s.contains .help then .help
    else readMain rest (verbose || s.contains .verbose) (spare || more)
  | (.unknown, _) :: rest, verbose, _ => readMain rest verbose true
  | _ :: _, _, _ => .misuse

def read (args : List String) : Reading Invocation :=
  let arguments := Argument.ofTexts mainOptions args
  if arguments.contains .ambiguous then .misuse
  else readMain (arguments.zip args) false false

def usage : String :=
  "usage: statusflow [-h] [-v] COMMAND ...\n\n" ++
  "Inspect and check status workflow definitions.\n\n" ++
  "  show WORKFLOW                    statuses, labels and transitions\n" ++
  "  audit WORKFLOW                   reachability and labels\n" ++
  "  next WORKFLOW STATUS [--labels]  the statuses reachable from a status\n" ++
  "  check WORKFLOW FROM TO           a single transition\n" ++
  "  dropdown WORKFLOW [--actions]    every status with its label\n\n" ++
  "WORKFLOW is the path of a definition file, or a name in the directory of definitions.\n"

end Command

end Lifecycle
