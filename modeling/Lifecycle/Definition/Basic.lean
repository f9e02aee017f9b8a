import Lifecycle.Rule

/-!
# Workflow definitions

A definition is a graph of statuses with labels. It declares its initial status and every target
that a static rule lists, so it declares at least one status. Statuses keep the order in which
they were declared.

Whatever asks about a status takes any datum that can be a key; a datum that cannot be one is
misuse.
-/

namespace Lifecycle

/-- One status of a workflow. -/
structure Node where
  rule : Rule
  label : Datum
  actionLabel : Datum
  deriving Inhabited

abbrev Statuses : Type := Table Datum Node

abbrev Labels : Type := Table Datum Datum

namespace Statuses

/-- The targets of the static rules that are not declared, each with its source: in the order of
declaration, and in increasing order below one source. -/
def dangling (statuses : Statuses) : List (Datum × String) :=
  statuses.entries.flatMap fun e =>
    (e.2.rule.staticTargets.filter fun t => !statuses.contains (.text t)).map fun t => (e.1, t)

theorem contains_of_dangling_eq_nil {statuses : Statuses} (h : statuses.dangling = [])
    {e : Datum × Node} (he : e ∈ statuses.entries) {t : String} (ht : t ∈ e.2.rule.staticTargets) :
    statuses.contains (.text t) = true := by
  have h1 := List.flatMap_eq_nil_iff.1 h e he
  have h2 := List.map_eq_nil_iff.1 h1
  have h3 := List.filter_eq_nil_iff.1 h2 t ht
  simpa using h3

end Statuses

/-- A graph of statuses that declares its initial status and every static target. -/
structure Definition where
  initial : Datum
  statuses : Statuses
  labels : Labels
  actionLabels : Labels
  name : Datum
  initial_declared : statuses.contains initial = true
  targets_declared : statuses.dangling = []

namespace Definition

/-- Puts a definition together, unless it declares no status, not its initial status or not every
static target. -/
def create (initial : Datum) (statuses : Statuses) (labels actionLabels : Labels) (name : Datum) :
    Except Failure Definition :=
  if statuses.isEmpty then .error (Failure.definition (.noStatuses name)).worded
  else do
    let initial ← initial.key
    if hi : statuses.contains initial = true then
      if hd : statuses.dangling = [] then
        .ok { initial, statuses, labels, actionLabels, name,
              initial_declared := hi, targets_declared := hd }
      else .error (Failure.definition (.dangling statuses.dangling)).worded
    else do
      let _ ← initial.shown
      let _ ← Datum.joined statuses.keys
      .error (.definition (.initialUndeclared initial (statuses.keys.map Datum.form)))

/-- The parts of a status as data. An absent transition is the rule without targets. -/
structure NodeParts where
  transition : Option Datum
  label : Datum
  actionLabel : Datum

def NodeParts.node (parts : NodeParts) : Node :=
  { rule := (parts.transition.map Rule.ofDatum).getD default
    label := parts.label
    actionLabel := parts.actionLabel }

/-- Puts a definition together from data: the statuses with their parts, and two tables of labels.
-/
def ofParts (initial : Datum) (statuses : List (Datum × NodeParts))
    (labels actionLabels name : Datum) : Except Failure Definition := do
  let entries ← statuses.mapM fun e => e.1.key.map fun k => (k, e.2.node)
  let labels ← labels.toTable
  let actionLabels ← actionLabels.toTable
  create initial (Table.ofList entries) labels actionLabels name

/-- The same graph with further labels, which take the place of its own. -/
def withLabels (d : Definition) (labels actionLabels : Labels) : Definition :=
  { d with labels, actionLabels }

def declares (d : Definition) (status : Datum) : Bool := d.statuses.contains status

def hasStatus (d : Definition) (status : Datum) : Except Failure Bool :=
  status.key.map d.declares

def node (d : Definition) (status : Datum) : Except Failure (Option Node) :=
  status.key.map d.statuses.get?

/-- The statuses in the order of declaration. -/
def statusIds (d : Definition) : List Datum := d.statuses.keys

/-- Whether a status is declared and has a static rule without targets. -/
def isTerminal (d : Definition) (status : Datum) : Except Failure Bool := do
  let node ← d.node status
  return node.any fun n => n.rule.isTerminal

def statusLabel (d : Definition) (status : Datum) : Except Failure Datum :=
  status.key.map fun s => (d.labels.get? s).getD .null

def actionLabel (d : Definition) (status : Datum) : Except Failure Datum :=
  status.key.map fun s => (d.actionLabels.get? s).getD .null

def labelOf (d : Definition) (action : Bool) (status : Datum) : Except Failure Datum :=
  if action then d.actionLabel status else d.statusLabel status

def labelEach (d : Definition) (action : Bool) (statuses : List Datum) :
    Except Failure (List (Datum × Datum)) :=
  statuses.mapM fun s => (d.labelOf action s).map fun l => (s, l)

def labelled (d : Definition) (statuses : Datum) (action : Bool) :
    Except Failure (List (Datum × Datum)) := do
  let statuses ← statuses.elements
  d.labelEach action statuses

end Definition

end Lifecycle
