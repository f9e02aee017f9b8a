import Lifecycle.Attachment
import Lifecycle.Entity.Record
import Lifecycle.Entity.Tracked

/-!
# Sessions

A session is one entity with any number of attachments, known by their numbers. An act of an
attachment changes the entity and the attachment's own note on the field, and leaves the notes of
the others alone.
-/

namespace Lifecycle

/-- An entity, and which attachments have made sure of their fields. -/
structure Session (ρ : Type) where
  entity : ρ
  checked : Nat → Bool

namespace Session

variable {ρ α : Type}

/-- An entity to which no attachment did anything. -/
def start (entity : ρ) : Session ρ := { entity, checked := fun _ => false }

/-- What an attachment sees of the session. -/
def view (i : Nat) (s : Session ρ) : Attached ρ := { checked := s.checked i, entity := s.entity }

/-- The session after an attachment changed what it sees. -/
def update (i : Nat) (a : Attached ρ) (s : Session ρ) : Session ρ :=
  { entity := a.entity, checked := fun j => if j = i then a.checked else s.checked j }

/-- An act of an attachment, in the session. -/
def of (i : Nat) (act : Act (Attached ρ) α) : Act (Session ρ) α := Act.zoom (view i) (update i) act

/-- A change of the entity behind the attachments. -/
def change (f : ρ → ρ) : Act (Session ρ) Unit := do
  let s ← Act.getState
  Act.setState { s with entity := f s.entity }

/-- A change of the entity that may fail and then changes nothing. -/
def changeOr (f : ρ → Except Failure ρ) : Act (Session ρ) Unit := do
  let s ← Act.getState
  let entity ← Act.ofExcept (f s.entity)
  Act.setState { s with entity }

def ask (f : ρ → α) : Act (Session ρ) α := do
  return f (← Act.getState).entity

def readField [Accessor ρ] (name : String) : Act (Session ρ) Datum := do
  let s ← Act.getState
  let (value, entity) := Accessor.read name s.entity
  Act.setState { s with entity }
  return value

def writeField [Accessor ρ] (name : String) (value : Datum) : Act (Session ρ) Unit := do
  let s ← Act.getState
  let (outcome, entity) := Accessor.write name value s.entity
  Act.setState { s with entity }
  Act.ofExcept outcome

/-- Persists the staged values of a record, after the check of an attachment if one is given. A
failed check leaves the record as it is. -/
def commit (gate : Option (Nat × Attachment)) : Act (Session Record) Unit := do
  match gate with
  | some (i, a) => of i a.validateBeforeCommit
  | none => pure ()
  change Record.persist

end Session

end Lifecycle
