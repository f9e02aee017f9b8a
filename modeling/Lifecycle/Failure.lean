import Lifecycle.Datum.Text

/-!
# Failures

Everything that can go wrong, by cause, and the one place that words it. Workflow failures are those
that the library itself knows: configuration and definition faults, missing parts, and rejected
transitions. The others come from outside: from a producer or a provider, from data that cannot be
used in the way asked for, or from the file system.
-/

namespace Lifecycle

inductive ConfigurationFault where
  | stated (message : String)
  | noProvider
  | unloadable (path : String) (detail : Option String)

inductive DefinitionFault where
  | stated (message : String)
  | notMapping (kind : Kind)
  | noInitial
  | statusesNotMapping
  | badTransition (status : String) (kind : Kind)
  | noStatuses (name : Datum)
  | initialUndeclared (initial : Datum) (declared : List String)
  | dangling (edges : List (Datum × String))
  | malformedFile (path : String)
  | fileNotMapping (path : String)

/-- Why a transition is rejected. The target in a cause is the one known when it arose. -/
inductive RejectionCause where
  | stated (message : String)
  | unknownTarget (target workflow : Datum)
  | invalidRule (reason : String)
  | notAllowed (target : Datum)

/-- A rejected transition with the two statuses it blames. -/
structure Rejection where
  previous : Datum
  next : Datum
  cause : RejectionCause

/-- What kind of failure a producer or a provider raised on its own. -/
inductive ForeignKind where
  | permission | runtime | value | lookup
  deriving DecidableEq, Repr

inductive Misuse where
  | unhashable (kind : Kind)
  | notTable (kind : Kind)
  | notPair (kind : Kind)
  | pairSize (size : Nat)
  | notMergeable (kind : Kind)
  | notIterable (kind : Kind)
  | notText (kind : Kind)
  | notPadded (kind : Kind)
  | notMapping (kind : Kind)
  | noTargets (kind : Kind)
  | relativeModule (name : String)
  | notCallable (kind : Kind)
  | noAttribute (name : String)
  | fixedAttribute (name : String)
  /-- An integer that is too long to be written. -/
  | tooManyDigits

/-- A scalar of a document whose text does not suit its declared type. -/
inductive ScalarFault where
  | badNumber | badDate | badCodePoint | emptyNumber | notBoolean | notMoment
  deriving DecidableEq, Repr

/-- Why the system does not let one look at a path or read a file. -/
inductive AccessFault where
  | missing | directory | notDirectory | denied | nameTooLong | linkLoop
  /-- No file can have the name. -/
  | unnameable
  | other (message : String)
  deriving DecidableEq, Repr

/-- Whether the fault says just that nothing stands at the path. -/
def AccessFault.absence : AccessFault → Bool
  | .missing => true
  | .notDirectory => true
  | .linkLoop => true
  | .unnameable => true
  | _ => false

inductive Failure where
  | workflow (message : String)
  | configuration (fault : ConfigurationFault)
  | definition (fault : DefinitionFault)
  | missingCapability (provider capability : String)
  | missingAttribute (field : String) (entityKind : Option String)
  | rejection (r : Rejection)
  | foreign (kind : ForeignKind) (message : String)
  | misuse (m : Misuse)
  | scalar (fault : ScalarFault)
  | access (fault : AccessFault) (path : String)
  | undecodable (path : String)
  | unknownHome (user : String)

def ConfigurationFault.message : ConfigurationFault → String
  | .stated message => message
  | .noProvider => "No workflow provider given"
  | .unloadable path none => s!"Unable to load workflow provider: {path}"
  | .unloadable path (some detail) => s!"Unable to load workflow provider: {path} ({detail})"

/-- The text that stands for what a reader of documents finds wrong. -/
def malformedDetail : String := "the document is malformed"

private def edgeText (edge : Datum × String) : String := s!"{edge.1.form} -> {edge.2}"

def DefinitionFault.message : DefinitionFault → String
  | .stated message => message
  | .notMapping kind => s!"Workflow definition must be a mapping, got {kind.name}"
  | .noInitial => "Workflow definition has no initial_status"
  | .statusesNotMapping => "Workflow definition 'statuses' must be a mapping"
  | .badTransition status kind =>
    s!"Status '{status}': transition must be a list of statuses or a callable, got {kind.name}"
  | .noStatuses name =>
    let title := name.formOr "<unnamed>"
    s!"Workflow {title} declares no statuses"
  | .initialUndeclared initial declared =>
    let list := ", ".intercalate declared
    s!"Initial status '{initial.form}' is not declared (declared: {list})"
  | .dangling edges =>
    let list := ", ".intercalate (edges.map edgeText)
    s!"Transitions to undeclared statuses: {list}"
  | .malformedFile path => s!"Cannot parse workflow file {path}: {malformedDetail}"
  | .fileNotMapping path => s!"Workflow file {path} is not a mapping"

def Rejection.message (r : Rejection) : String :=
  match r.cause with
  | .stated message => message
  | .unknownTarget target workflow =>
    let place := if workflow.truthy then s!" in {workflow.form}" else ""
    s!"Status '{target.form}' is not declared{place}"
  | .invalidRule reason =>
    let why := if reason.isEmpty then "" else s!": {reason}"
    s!"Transition rule for status '{r.previous.form}' is invalid{why}"
  | .notAllowed target => s!"No transition between '{r.previous.form}' and '{target.form}'"

/-- The name under which a cause of rejection is reported. -/
def RejectionCause.name : RejectionCause → String
  | .stated _ => "TransitionError"
  | .unknownTarget .. => "UnknownTargetStatus"
  | .invalidRule _ => "InvalidTransitionRule"
  | .notAllowed _ => "TransitionNotAllowed"

def Misuse.message : Misuse → String
  | .unhashable kind => s!"unhashable type: '{kind.name}'"
  | .notTable kind => s!"'{kind.name}' is not a table of labels"
  | .notPair kind => s!"'{kind.name}' is not a pair of a status and a label"
  | .pairSize size => s!"a pair of a status and a label has size 2, not {size}"
  | .notMergeable kind => s!"'{kind.name}' is not a mapping"
  | .notIterable kind => s!"'{kind.name}' has no members"
  | .notText kind => s!"expected a text, found {kind.name}"
  | .notPadded kind => s!"'{kind.name}' cannot be padded"
  | .notMapping kind => s!"'{kind.name}' has no entries"
  | .noTargets kind => s!"'{kind.name}' has no targets"
  | .relativeModule name => s!"'{name}' is relative to no package"
  | .notCallable kind => s!"'{kind.name}' cannot be called"
  | .noAttribute name => s!"no attribute '{name}'"
  | .fixedAttribute name => s!"attribute '{name}' cannot be changed"
  | .tooManyDigits => "an integer has too many digits to be written"

def ScalarFault.message : ScalarFault → String
  | .badNumber => "not a number of the declared type"
  | .badDate => "no such day or time"
  | .badCodePoint => "no such character"
  | .emptyNumber => "a number without digits"
  | .notBoolean => "not a truth value"
  | .notMoment => "not a timestamp"

def AccessFault.message : AccessFault → String
  | .missing => "No such file or directory"
  | .directory => "Is a directory"
  | .notDirectory => "Not a directory"
  | .denied => "Permission denied"
  | .nameTooLong => "File name too long"
  | .linkLoop => "Too many levels of symbolic links"
  | .unnameable => "No name of a file"
  | .other message => message

def Failure.message : Failure → String
  | .workflow message => message
  | .configuration fault => fault.message
  | .definition fault => fault.message
  | .missingCapability provider capability =>
    s!"{provider} is missing required capability: {capability}()"
  | .missingAttribute field entityKind =>
    let place := match entityKind with
      | some kind => if kind.isEmpty then "" else s!" on {kind}"
      | none => ""
    s!"Missing status attribute{place}: {field}"
  | .rejection r => r.message
  | .foreign _ message => message
  | .misuse m => m.message
  | .scalar fault => fault.message
  | .access fault path => s!"{fault.message}: '{path}'"
  | .undecodable path => s!"{path} is not text"
  | .unknownHome _ => "Could not determine home directory."

/-- The data that stand in the message of a rejection. -/
def Rejection.mentions (r : Rejection) : List Datum :=
  match r.cause with
  | .stated _ => []
  | .unknownTarget target workflow => if workflow.truthy then [workflow, target] else [target]
  | .invalidRule _ => [r.previous]
  | .notAllowed target => [r.previous, target]

/-- The data that stand in the message of a fault. -/
def DefinitionFault.mentions : DefinitionFault → List Datum
  | .noStatuses name => if name.truthy then [name] else []
  | .initialUndeclared initial _ => [initial]
  | .dangling edges => edges.map Prod.fst
  | _ => []

/-- The data that stand in the message of a failure. -/
def Failure.mentions : Failure → List Datum
  | .definition fault => fault.mentions
  | .rejection r => r.mentions
  | _ => []

/-- What arises in the place of a failure: its message is worded at once, and something else is
wrong if that cannot be done. -/
def Failure.worded (e : Failure) : Failure :=
  if e.mentions.all Datum.writable then e else .misuse .tooManyDigits

/-- Whether the failure is one of the library's own. -/
def Failure.isWorkflow : Failure → Bool
  | .workflow _ => true
  | .configuration _ => true
  | .definition _ => true
  | .missingCapability .. => true
  | .missingAttribute .. => true
  | .rejection _ => true
  | _ => false

end Lifecycle
