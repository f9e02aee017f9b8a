import Lifecycle.Definition.Document

/-!
# Providers of workflows

A provider gives a workflow to the entities that follow it. It has to offer three members that can
be called: two tables of labels and the definition, which may be a document or a finished
definition.
-/

namespace Lifecycle

/-- A member of a provider: a method that gives or fails, or a plain field. -/
inductive Member (α : Type) where
  | method (result : Except Failure α)
  | field (value : Datum)

inductive Given where
  | document (d : Datum)
  | definition (d : Definition)

/-- A provider. `description` stands for the name of a provider that has none. -/
structure Provider where
  name : String
  description : String
  labels : Option (Member Datum)
  actionLabels : Option (Member Datum)
  definition : Option (Member Given)

/-- What a provider has to offer, in the order in which it is looked for. -/
inductive Capability where
  | labels | actionLabels | definition
  deriving DecidableEq, Repr

def Capability.name : Capability → String
  | .labels => "status_labels"
  | .actionLabels => "status_action_labels"
  | .definition => "get_definition"

def Capability.all : List Capability := [.labels, .actionLabels, .definition]

namespace Member

variable {α σ : Type}

/-- Whether the member is there to be used at all. -/
def isPresent : Member α → Bool
  | .method _ => true
  | .field value => !value.isNull

def isCallable : Member α → Bool
  | .method _ => true
  | .field (.producer _) => true
  | .field _ => false

def call (given : Datum → α) : Member α → Act σ α
  | .method result => Act.ofExcept result
  | .field (.producer p) => do return given (← Act.call p)
  | .field d => Act.fail (.misuse (.notCallable d.kind))

end Member

namespace Provider

variable {σ : Type}

/-- A datum in the place of a provider. It offers nothing; null and texts have no name. -/
def ofDatum (d : Datum) : Provider :=
  { name := match d with
      | .null => ""
      | .text _ => ""
      | d => d.kind.name
    description := d.quotedForm
    labels := none
    actionLabels := none
    definition := none }

/-- Whether a capability is there and fulfils a condition. -/
def offers (p : Provider) (labels : Member Datum → Bool) (definition : Member Given → Bool) :
    Capability → Bool
  | .labels => p.labels.any labels
  | .actionLabels => p.actionLabels.any labels
  | .definition => p.definition.any definition

/-- Whether every capability is there, callable or not. -/
def isComplete (p : Provider) : Bool :=
  Capability.all.all (p.offers Member.isPresent Member.isPresent)

def missingCapability? (p : Provider) : Option Capability :=
  Capability.all.find? fun c => !p.offers Member.isCallable Member.isCallable c

/-- Fails unless every capability can be called. -/
def requireCapabilities (p : Provider) : Except Failure Unit :=
  match p.missingCapability? with
  | none => .ok ()
  | some c =>
    .error (.missingCapability (if p.name.isEmpty then p.description else p.name) c.name)

/-- Calls a member that may be absent. -/
def callMember {α : Type} (given : Datum → α) (capability : Capability) :
    Option (Member α) → Act σ α
  | some m => m.call given
  | none => Act.fail (.misuse (.noAttribute capability.name))

def callLabels (p : Provider) : Act σ Datum := callMember id .labels p.labels

def callActionLabels (p : Provider) : Act σ Datum := callMember id .actionLabels p.actionLabels

def callDefinition (p : Provider) : Act σ Given := callMember .document .definition p.definition

/-- The definition that a provider gives. Its labels always apply: a document keeps its own
labels, and a finished definition its own labels, only for statuses that the provider does not
label. -/
def obtainDefinition (p : Provider) : Act σ Definition := do
  match ← p.callDefinition with
  | .definition d =>
    let labels ← Act.ofExcept (Datum.mergeInto d.labels (← p.callLabels))
    let actionLabels ← Act.ofExcept (Datum.mergeInto d.actionLabels (← p.callActionLabels))
    return d.withLabels labels actionLabels
  | .document document =>
    let labels ← p.callLabels
    let actionLabels ← p.callActionLabels
    Act.ofExcept (Definition.ofDocument document labels actionLabels (.text p.name))

end Provider

end Lifecycle
