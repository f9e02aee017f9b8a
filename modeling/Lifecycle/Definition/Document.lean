import Lifecycle.Definition.Basic

/-!
# Definitions as documents

A document describes a definition as a map. `initial_status` may be spelled `initialStatus`,
`statuses` may be spelled `status`, and inside a status `transitions` may be spelled `transition`;
the first spelling wins. The value of a status is null, a map, or just its transitions.
Identifiers are turned into texts, so two keys with the same text are one status, of which the
last entry counts. An identifier that has no text fails.
-/

namespace Lifecycle

namespace Definition

/-- The value under the first of two spellings of a field, null if neither is there. -/
def field (t : Table Datum Datum) (name other : String) : Datum :=
  match t.get? (.text name) with
  | some v => v
  | none => (t.get? (.text other)).getD .null

/-- The fields of a status: those of a map, none for null, and just the transitions otherwise. -/
def statusFields (value : Datum) : Table Datum Datum :=
  match value, value.table? with
  | .null, _ => .empty
  | _, some t => t
  | v, none => Table.empty.put (.text "transitions") v

/-- A label from a table, or the one given with the status. -/
def labelFrom (labels : Labels) (id : String) (fields : Table Datum Datum) (name : String) :
    Datum :=
  match labels.get? (.text id) with
  | some l => l
  | none => (fields.get? (.text name)).getD .null

def readNode (labels actionLabels : Labels) (id : String) (value : Datum) :
    Except Failure Node := do
  let fields := statusFields value
  let rule ← Rule.read (field fields "transitions" "transition") id
  return { rule
           label := labelFrom labels id fields "label"
           actionLabel := labelFrom actionLabels id fields "action_label" }

def readStatuses (labels actionLabels : Labels) (entries : List (Datum × Datum)) :
    Except Failure Statuses := do
  let nodes ← entries.mapM fun e => do
    let id ← e.1.shown
    let node ← readNode labels actionLabels id e.2
    return (Datum.text id, node)
  return Table.ofList nodes

/-- The labels that the nodes carry, for the statuses that have one. -/
def nodeLabels (label : Node → Datum) (statuses : Statuses) : List (Datum × Datum) :=
  (statuses.entries.map fun e => (e.1, label e.2)).filter fun e => !e.2.isNull

/-- Labels given as data; null stands for an empty table. -/
def givenLabels (labels : Datum) : Except Failure Labels :=
  match labels with
  | .null => .ok .empty
  | d => d.toTable

/-- Reads a definition. The given tables of labels come before the labels in the document, and the
given name before the name in it. -/
def ofDocument (document : Datum) (labels actionLabels name : Datum) : Except Failure Definition :=
  match document.table? with
  | none => .error (.definition (.notMapping document.kind))
  | some doc => do
    let initial := field doc "initial_status" "initialStatus"
    if !initial.truthy then .error (.definition .noInitial)
    else match (field doc "statuses" "status").table? with
      | none => .error (.definition .statusesNotMapping)
      | some raw => do
        let name := name.orElse ((doc.get? (.text "name")).getD (.text ""))
        let labels ← givenLabels labels
        let actionLabels ← givenLabels actionLabels
        let statuses ← readStatuses labels actionLabels raw.entries
        let id ← initial.shown
        create (.text id) statuses
          (labels.putAll (nodeLabels Node.label statuses))
          (actionLabels.putAll (nodeLabels Node.actionLabel statuses)) name

/-- The document of a status: its static targets, or null when it has no static rule, and its
labels. -/
def statusDocument (d : Definition) (id : Datum) (node : Node) : Datum :=
  let transitions := match node.rule with
    | .static targets => .list (targets.members.map Datum.text)
    | _ => .null
  .map [(.text "transitions", transitions),
        (.text "label", (d.labels.get? id).getD .null),
        (.text "action_label", (d.actionLabels.get? id).getD .null)]

def toDocument (d : Definition) : Datum :=
  .map [(.text "name", d.name),
        (.text "initial_status", d.initial),
        (.text "statuses", .map (d.statuses.entries.map fun e => (e.1, d.statusDocument e.1 e.2)))]

end Definition

end Lifecycle
