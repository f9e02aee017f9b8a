import Lifecycle.Definition.Basic

/-!
# Statuses reachable in one step

The targets of a declared status are those of its rule at the moment of asking. An undeclared status
has no rule.
-/

namespace Lifecycle

namespace Definition

variable {σ : Type}

/-- The statuses that may follow a status. -/
def transitionsFrom (d : Definition) (status : Datum) : Act σ Targets := do
  match ← Act.ofExcept (d.node status) with
  | none => Act.fail (Rule.invalid status "status is not declared in the workflow")
  | some node => node.rule.resolve status

/-- Targets in the order of their declaration, followed by the undeclared ones in increasing
order. -/
def inOrder (d : Definition) (targets : Targets) : List Datum :=
  let declared := d.statusIds.filter fun s => match s with
    | .text t => targets.contains t
    | _ => false
  let others := targets.members.filter fun t => !d.declares (.text t)
  declared ++ others.map Datum.text

def orderedTransitions (d : Definition) (status : Datum) : Act σ (List Datum) := do
  let targets ← d.transitionsFrom status
  return d.inOrder targets

end Definition

end Lifecycle
