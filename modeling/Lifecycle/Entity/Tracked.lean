import Lifecycle.Entity.Basic

/-!
# Tracked objects

An object has attributes of which some cannot be set or deleted, as its shape says. A tracked
object lists the attributes that were read or written through it; marking it as persisted takes a
snapshot of just those.
-/

namespace Lifecycle

/-- Which attributes an object lets be set. A property presents the attribute `status` under which
it keeps `_status`. -/
inductive Shape where
  | plain
  | slots (names : List String)
  | property (writable : Bool)

structure Object where
  shape : Shape
  fields : Fields

namespace Object

/-- Whether an attribute of an object of this shape stands for another one. -/
def isProperty (shape : Shape) (name : String) : Bool :=
  match shape with
  | .property _ => name == "status"
  | _ => false

/-- The name under which an attribute is kept. -/
def storedName (shape : Shape) (name : String) : String :=
  if isProperty shape name then "_status" else name

def get? (o : Object) (name : String) : Option Datum := o.fields.get? (storedName o.shape name)

def isSettable (shape : Shape) (name : String) : Bool :=
  match shape with
  | .plain => true
  | .slots names => names.contains name
  | .property writable => writable || name != "status"

def set (o : Object) (name : String) (value : Datum) : Except Failure Object :=
  if isSettable o.shape name then
    .ok { o with fields := o.fields.put (storedName o.shape name) value }
  else .error (.misuse (.fixedAttribute name))

def get (o : Object) (name : String) : Except Failure Datum :=
  match o.get? name with
  | some v => .ok v
  | none => .error (.misuse (.noAttribute name))

/-- Deletes an attribute that is there and stands for itself. -/
def delete (o : Object) (name : String) : Except Failure Object :=
  if isProperty o.shape name then .error (.misuse (.fixedAttribute name))
  else if o.fields.contains name then .ok { o with fields := o.fields.erase name }
  else .error (.misuse (.noAttribute name))

/-- An object of a shape with attributes set one after another. -/
def create (shape : Shape) (attributes : List (String × Datum)) : Except Failure Object :=
  attributes.foldlM (fun o e => o.set e.1 e.2) { shape, fields := .empty }

end Object

/-- An object with the attributes that are tracked and the snapshot taken last. -/
structure Tracked where
  object : Object
  tracked : List String
  snapshot : Option Fields

namespace Tracked

/-- Tracks an attribute from now on. -/
def track (t : Tracked) (name : String) : Tracked :=
  if t.tracked.contains name then t else { t with tracked := t.tracked ++ [name] }

def value (t : Tracked) (name : String) : Datum := (t.object.get? name).getD .null

/-- Takes a snapshot of the tracked attributes. -/
def markPersisted (t : Tracked) : Tracked :=
  { t with snapshot := some (.ofList (t.tracked.map fun name => (name, t.value name))) }

def persistedValue (t : Tracked) (name : String) : Datum :=
  match t.snapshot with
  | none => .null
  | some fields => fields.value name

/-- Tracks an attribute and sets it. It stays tracked if it cannot be set. -/
def write (t : Tracked) (name : String) (value : Datum) : Except Failure Unit × Tracked :=
  let t := t.track name
  match t.object.set name value with
  | .ok o => (.ok (), { t with object := o })
  | .error e => (.error e, t)

instance : Accessor Tracked where
  hasField t _ name := (t.object.get? name).isSome
  read name t := (t.value name, t.track name)
  write name value t := t.write name value
  persisted t name := t.persistedValue name
  isNew t := t.snapshot.isNone

/-- Tracks the given attributes of an object, which is persisted already or not. -/
def create (object : Object) (tracked : List String) (persisted : Bool) : Tracked :=
  let t : Tracked := { object, tracked, snapshot := none }
  if persisted then t.markPersisted else t

end Tracked

end Lifecycle
