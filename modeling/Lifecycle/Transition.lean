import Lifecycle.Definition.Reachable

/-!
# Transitions

A transition from the persisted status to the next one is permitted for a new entity, for an
unchanged status, and for a declared target that the rule of the previous status allows at that
moment. A rejection blames both statuses and is reported; so is the acceptance of a change. Where the
words for it cannot be written, that is what fails, and nothing is reported.
-/

namespace Lifecycle

namespace Targets

def admits (targets : Targets) (status : Datum) : Bool :=
  match status with
  | .text s => targets.contains s
  | _ => false

end Targets

namespace Transition

variable {σ : Type}

/-- Fails unless the target is declared and allowed from the previous status. -/
def require (d : Definition) (previous next : Datum) : Act σ Unit := do
  if ← Act.ofExcept (d.hasStatus next) then
    let allowed ← d.transitionsFrom previous
    if allowed.admits next then pure ()
    else Act.fail (Failure.rejection { previous, next, cause := .notAllowed next }).worded
  else
    Act.fail (Failure.rejection { previous, next, cause := .unknownTarget next d.name }).worded

/-- Fails unless the transition is permitted. A rejection that knows no target gets this one. -/
def validate (d : Definition) (previous next : Datum) (isNew : Bool) : Act σ Unit :=
  if isNew || previous == next then pure ()
  else do
    match ← (require d previous next).attempt with
    | .ok () => Act.report (.accepted previous next)
    | .error (.rejection r) =>
      Act.report (.rejected d.name previous next r.cause)
      Act.fail (.rejection (if r.next.isNull then { r with next := next } else r))
    | .error e => Act.fail e

/-- The words for a transition that is permitted. -/
def words (previous next : Datum) : Except Failure String := do
  return s!"{← previous.shown} -> {← next.shown}"

/-- Whether the transition is permitted, with the words for it. -/
def check (d : Definition) (previous next : Datum) : Act σ (Bool × String) := do
  match ← (validate d previous next false).attempt with
  | .ok () => return (true, ← Act.ofExcept (words previous next))
  | .error (.rejection r) => return (false, r.message)
  | .error e => Act.fail e

def isPermitted (d : Definition) (previous next : Datum) : Act σ Bool := do
  return (← check d previous next).1

end Transition

end Lifecycle
