import Lifecycle.Entity.Basic

/-!
# Records

A record has columns, staged values and the values persisted last. Committing it persists the staged
values.
-/

namespace Lifecycle

/-- An entity held in memory. Columns and staged values are independent of each other. -/
structure Record where
  columns : List String
  values : Fields
  persisted : Option Fields

namespace Record

def hasColumn (r : Record) (name : String) : Bool := r.columns.contains name

def addColumn (r : Record) (name : String) : Record := { r with columns := name :: r.columns }

def dropColumn (r : Record) (name : String) : Record :=
  { r with columns := r.columns.filter (· != name) }

def stage (r : Record) (name : String) (value : Datum) : Record :=
  { r with values := r.values.put name value }

def persistedValue (r : Record) (name : String) : Datum :=
  match r.persisted with
  | none => .null
  | some fields => fields.value name

def persist (r : Record) : Record := { r with persisted := some r.values }

instance : Accessor Record where
  hasField r _ name := r.hasColumn name
  read name r := (r.values.value name, r)
  write name value r := (.ok (), r.stage name value)
  persisted r name := r.persistedValue name
  isNew r := r.persisted.isNone

end Record

end Lifecycle
