import Lifecycle.Definition.Basic

/-!
# Auditing a definition

The audit looks at static rules only: it counts edges, finds statuses that no path from the
initial status reaches, statuses that lead to themselves and statuses without a way out, and lists
the missing labels. A deferred rule may lead anywhere, so once one is reached no status counts as
unreachable.
-/

namespace Lifecycle

structure Report where
  name : Datum
  totalStatuses : Nat
  totalEdges : Nat
  unreachable : List Datum
  terminal : List Datum
  selfLoops : List Datum
  deferred : List Datum
  missingLabels : List Datum
  missingActionLabels : List Datum

namespace Statuses

def successors (statuses : Statuses) (status : Datum) : List Datum :=
  match statuses.get? status with
  | some node => node.rule.staticTargets.map Datum.text
  | none => []

/-- Adds those of the given statuses that are not there yet. -/
def addNew (seen found : List Datum) : List Datum :=
  found.foldl (fun seen s => if seen.contains s then seen else seen ++ [s]) seen

/-- Adds the successors of all statuses found, as often as stated or until nothing is new. -/
def spread (statuses : Statuses) : Nat → List Datum → List Datum
  | 0, seen => seen
  | n + 1, seen =>
    let next := addNew seen (seen.flatMap statuses.successors)
    if next.length = seen.length then seen else spread statuses n next

/-- The statuses on static paths from the given one. Every round but the last finds a status, so as
many rounds as there are statuses find all. -/
def reachedFrom (statuses : Statuses) (initial : Datum) : List Datum :=
  statuses.spread statuses.size [initial]

end Statuses

namespace Definition

/-- The statuses with a node of some sort. -/
def statusesWhere (d : Definition) (p : Datum → Node → Bool) : List Datum :=
  (d.statuses.entries.filter fun e => p e.1 e.2).map Prod.fst

/-- What stands in the place of a rule and is neither static nor deferred, where there is such a
thing. -/
def unsupportedRule? (d : Definition) : Option Kind :=
  d.statuses.entries.findSome? fun e => match e.2.rule with
    | .unsupported kind => some kind
    | _ => none

def totalEdges (d : Definition) : Nat :=
  d.statuses.entries.foldl (fun n e => n + e.2.rule.staticTargets.length) 0

def audit (d : Definition) : Except Failure Report :=
  match d.unsupportedRule? with
  | some kind => .error (.misuse (.noTargets kind))
  | none =>
    let reached := d.statuses.reachedFrom d.initial
    let deferred := d.statusesWhere fun _ n => n.rule.isDeferred
    let anyDeferred := deferred.any reached.contains
    .ok {
      name := d.name
      totalStatuses := d.statuses.size
      totalEdges := d.totalEdges
      unreachable := if anyDeferred then [] else d.statusIds.filter fun s => !reached.contains s
      terminal := d.statusesWhere fun _ n => n.rule.isTerminal
      selfLoops := d.statusesWhere fun s n => (n.rule.staticTargets.map Datum.text).contains s
      deferred
      missingLabels := d.statusIds.filter fun s => !d.labels.contains s
      missingActionLabels := d.statusIds.filter fun s => !d.actionLabels.contains s }

end Definition

namespace Report

/-- Whether nothing is wrong: missing labels are only a warning. -/
def passed (r : Report) : Bool := r.unreachable.isEmpty && r.selfLoops.isEmpty

/-- The words for what is wrong with each unreachable status and each self-loop. -/
def violations (r : Report) : Except Failure (List String) := do
  let unreachable ← r.unreachable.mapM fun s => do
    return s!"Unreachable: {← s.shown}"
  let selfLoops ← r.selfLoops.mapM fun s => do
    let id ← s.shown
    return s!"Self-loop: {id} -> {id}"
  return unreachable ++ selfLoops

/-- A line that lists statuses, or no line where there is none. -/
def listLine (lead : String) (statuses : List Datum) : Except Failure (List String) :=
  if statuses.isEmpty then .ok []
  else (Datum.joined statuses).map fun list => [lead ++ list]

def summary (r : Report) : Except Failure String := do
  let head := [
    "Workflow Audit: " ++ (← r.name.shownOr "<unnamed>"),
    String.ofList (List.replicate 40 '='),
    s!"  Statuses: {r.totalStatuses}",
    s!"  Static edges: {r.totalEdges}"]
  let terminal ← listLine "  Terminal: " r.terminal
  let deferred ← listLine "  Deferred rules (not traversed): " r.deferred
  let found ← r.violations
  let violations :=
    if found.isEmpty then []
    else s!"\nVIOLATIONS ({found.length}):" :: found.map ("  " ++ ·)
  let labels ← listLine "\nWARNINGS: missing labels for " r.missingLabels
  let actionLabels ← listLine "WARNINGS: missing action labels for " r.missingActionLabels
  let verdict := if r.passed then "PASS" else "FAIL"
  return "\n".intercalate
    (head ++ terminal ++ deferred ++ violations ++ labels ++ actionLabels ++
      [s!"\nResult: {verdict}"])

end Report

end Lifecycle
