import Lifecycle.Failure
import Lifecycle.Table

/-!
# Entities

What a workflow needs to know of the things that have a status: their staged fields, what of them is
persisted, and whether they are new. Reading a field may change the entity's own books, never its
fields.
-/

namespace Lifecycle

/-- Access to the fields of an entity. -/
class Accessor (ρ : Type) where
  /-- Whether the entity has a field, given the kind that the workflow takes it for. -/
  hasField : ρ → Option String → String → Bool
  /-- The staged value of a field, null if it has none. -/
  read : String → ρ → Datum × ρ
  /-- Stages a value, or fails. -/
  write : String → Datum → ρ → Except Failure Unit × ρ
  /-- The persisted value of a field, null if it has none. -/
  persisted : ρ → String → Datum
  /-- Whether nothing of the entity is persisted. -/
  isNew : ρ → Bool

abbrev Fields : Type := Table String Datum

def Fields.value (fields : Fields) (name : String) : Datum := (fields.get? name).getD .null

end Lifecycle
