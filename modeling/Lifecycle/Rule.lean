import Lifecycle.Act
import Lifecycle.Datum.Elements

/-!
# Transition rules

A rule says which statuses may follow a status. A static rule lists them; a deferred rule asks its
producer every time. What stands in the place of a rule and is none is kept as it is, and fails when
it is asked.
-/

namespace Lifecycle

inductive Rule where
  | static (targets : Targets)
  | deferred (producer : Producer)
  | unsupported (kind : Kind)
  deriving DecidableEq

namespace Rule

instance : Inhabited Rule := ⟨.static .empty⟩

def staticTargets : Rule → List String
  | .static targets => targets.members
  | _ => []

def isDeferred : Rule → Bool
  | .deferred _ => true
  | _ => false

/-- Whether the rule lists no target at all, so that nothing can follow. -/
def isTerminal : Rule → Bool
  | .static targets => targets.isEmpty
  | _ => false

/-- The items of a list, a tuple or a set: the shapes in which targets are listed. -/
def listed? : Datum → Option (List Datum)
  | .list items => some items
  | .tuple items => some items
  | .set items => some items
  | .frozenset items => some items
  | _ => none

/-- Reads what a document gives as the transition of a status: nothing, the targets, a producer or a
finished rule. -/
def read (value : Datum) (status : String) : Except Failure Rule :=
  match value with
  | .staticRule targets => .ok (.static targets)
  | .deferredRule p => .ok (.deferred p)
  | .null => .ok (.static .empty)
  | .producer p => .ok (.deferred p)
  | value =>
    match listed? value with
    | some items => (items.mapM Datum.shown).map fun texts => .static (.ofList texts)
    | none => .error (.definition (.badTransition status value.kind))

/-- The rule that a datum is, without any reading. -/
def ofDatum : Datum → Rule
  | .staticRule targets => .static targets
  | .deferredRule p => .deferred p
  | d => .unsupported d.kind

/-- The failure to resolve the rule of a status. -/
def invalid (status : Datum) (reason : String) : Failure :=
  (Failure.rejection { previous := status, next := .null, cause := .invalidRule reason }).worded

/-- The targets that a producer's answer lists. Only texts can be targets there. -/
def targetsOf (status answer : Datum) : Except Failure Targets :=
  match listed? answer with
  | none => .error (invalid status s!"deferred rule produced {answer.kind.name}")
  | some items =>
    match items.mapM Datum.text? with
    | none => .error (invalid status "deferred rule produced non-string statuses")
    | some texts => .ok (.ofList texts)

/-- The targets of a rule at this moment. A producer is asked once, and its failure is the
failure. -/
def resolve {σ : Type} (rule : Rule) (status : Datum) : Act σ Targets :=
  match rule with
  | .static targets => pure targets
  | .deferred p => do
    let answer ← Act.call p
    Act.ofExcept (targetsOf status answer)
  | .unsupported kind => Act.fail (invalid status s!"unsupported rule type {kind.name}")

end Rule

end Lifecycle
