import Lifecycle.Entity.Basic
import Lifecycle.Provider.Registry
import Lifecycle.Transition

/-!
# Attachments

An attachment ties an entity to a workflow: it names the field that holds the status. Before its
first use it makes sure that the entity has that field, and asks no more once it had. It stages
statuses without checks; the check comes before a commit and compares the persisted status with
the staged one.
-/

namespace Lifecycle

/-- A workflow for the status in a field of an entity. -/
structure Attachment where
  definition : Definition
  workflowName : String
  field : String
  entityKind : Option String

/-- An entity, and whether the attachment has made sure of its field. -/
structure Attached (ρ : Type) where
  checked : Bool
  entity : ρ

namespace Attachment

variable {σ ρ : Type} [Accessor ρ]

def create (reference : ProviderReference) (registry : Registry) (field : String)
    (entityKind : Option String) : Act σ Attachment := do
  let provider ← Act.ofExcept (reference.resolve registry)
  Act.ofExcept provider.requireCapabilities
  let definition ← provider.obtainDefinition
  return { definition, workflowName := provider.name, field, entityKind }

/-- Makes sure that the entity has the status field. -/
def requireField (a : Attachment) : Act (Attached ρ) Unit := do
  let s ← Act.getState
  if s.checked then pure ()
  else if Accessor.hasField s.entity a.entityKind a.field then
    Act.setState { s with checked := true }
  else Act.fail (.missingAttribute a.field a.entityKind)

def readStatus (a : Attachment) : Act (Attached ρ) Datum := do
  let s ← Act.getState
  let (value, entity) := Accessor.read a.field s.entity
  Act.setState { s with entity }
  return value

def writeStatus (a : Attachment) (status : Datum) : Act (Attached ρ) Unit := do
  let s ← Act.getState
  let (outcome, entity) := Accessor.write a.field status s.entity
  Act.setState { s with entity }
  Act.ofExcept outcome

def start (a : Attachment) : Act (Attached ρ) Unit := do
  a.requireField
  a.writeStatus a.definition.initial

/-- Stages a status, unless the entity has none so far. Says whether it did. -/
def propose (a : Attachment) (status : Datum) : Act (Attached ρ) Bool := do
  a.requireField
  if (← a.readStatus).isNull then return false
  else
    a.writeStatus status
    return true

def currentStatus (a : Attachment) : Act (Attached ρ) Datum := do
  a.requireField
  a.readStatus

def statusLabel (a : Attachment) : Act (Attached ρ) Datum := do
  let current ← a.currentStatus
  Act.ofExcept (a.definition.statusLabel current)

/-- The statuses that may follow the staged one, in order. None follows an undeclared status. -/
def nextStatuses (a : Attachment) : Act (Attached ρ) (List Datum) := do
  let current ← a.currentStatus
  if ← Act.ofExcept (a.definition.hasStatus current) then
    a.definition.orderedTransitions current
  else return []

/-- The statuses that may follow the staged one, with the labels of the actions that lead there. -/
def nextActions (a : Attachment) : Act (Attached ρ) (List (Datum × Datum)) := do
  let next ← a.nextStatuses
  Act.ofExcept (a.definition.labelEach true next)

/-- Whether a status may follow the staged one. Nothing follows a missing status, and every status
follows itself. -/
def canTransitionTo (a : Attachment) (status : Datum) : Act (Attached ρ) Bool := do
  let current ← a.currentStatus
  if current.isNull then return false
  else if current == status then return true
  else if ← Act.ofExcept (a.definition.hasStatus status) then
    match ← (a.definition.transitionsFrom current).attempt with
    | .ok targets => return targets.admits status
    | .error (.rejection { cause := .invalidRule _, .. }) => return false
    | .error e => Act.fail e
  else return false

/-- Every declared status with its label, or with the label of the action that leads there. -/
def dropdown (a : Attachment) (action : Bool) : Except Failure (List (Datum × Datum)) :=
  a.definition.labelEach action a.definition.statusIds

/-- Checks the transition from the persisted status to the staged one. -/
def validateBeforeCommit (a : Attachment) : Act (Attached ρ) Unit := do
  a.requireField
  let previous := Accessor.persisted (← Act.getState).entity a.field
  let next ← a.readStatus
  let isNew := Accessor.isNew (← Act.getState).entity
  Transition.validate a.definition previous next isNew

end Attachment

end Lifecycle
