import Lifecycle.Failure

/-!
# Acts

An act may call producers, write to the journal, change a state and fail. A producer is known by
its number and answers each call by how often it was called before, so that everything an act can
observe of the world is an argument: the producers' answers, the journal so far and the state. A
failure keeps what was journalled and changed before it.
-/

namespace Lifecycle

/-- Something that the library reports while it works. -/
inductive Event where
  | accepted (previous next : Datum)
  | rejected (workflow previous next : Datum) (cause : RejectionCause)
  | loaded (path : String)

/-- The calls made and the events reported so far, in order. -/
structure Journal where
  calls : List Producer
  events : List Event
  deriving Inhabited

def Journal.empty : Journal := ⟨[], []⟩

/-- What each producer answers to its first, second, … call. -/
def Producers : Type := Producer → Nat → Except Failure Datum

/-- An act on a state of type `σ` with a result of type `α`. -/
def Act (σ α : Type) : Type := Producers → Journal → σ → Except Failure α × Journal × σ

namespace Act

variable {σ τ α β : Type}

def run (act : Act σ α) (producers : Producers) (journal : Journal) (state : σ) :
    Except Failure α × Journal × σ :=
  act producers journal state

/-- The act whose result is `a` and that does nothing. -/
def result (a : α) : Act σ α := fun _ j s => (.ok a, j, s)

/-- Does the first act and, unless it fails, the act that its result calls for. -/
def andThen (act : Act σ α) (f : α → Act σ β) : Act σ β := fun ps j s =>
  match act ps j s with
  | (.ok a, j', s') => f a ps j' s'
  | (.error e, j', s') => (.error e, j', s')

instance : Monad (Act σ) where
  pure := result
  bind := andThen

def fail (e : Failure) : Act σ α := fun _ j s => (.error e, j, s)

/-- Fails as a calculation does, or has its result. -/
def ofExcept (r : Except Failure α) : Act σ α := fun _ j s => (r, j, s)

/-- Does an act and has its outcome, failure or not, as the result. -/
def attempt (act : Act σ α) : Act σ (Except Failure α) := fun ps j s =>
  match act ps j s with
  | (r, j', s') => (.ok r, j', s')

def getState : Act σ σ := fun _ j s => (.ok s, j, s)

def setState (s : σ) : Act σ Unit := fun _ j _ => (.ok (), j, s)

def call (p : Producer) : Act σ Datum := fun ps j s =>
  (ps p (j.calls.count p), { j with calls := j.calls ++ [p] }, s)

def report (event : Event) : Act σ Unit := fun _ j s =>
  (.ok (), { j with events := j.events ++ [event] }, s)

/-- An act on one part of the state. -/
def zoom (get : τ → σ) (set : σ → τ → τ) (act : Act σ α) : Act τ α := fun ps j t =>
  match act ps j (get t) with
  | (r, j', s) => (r, j', set s t)

@[simp] theorem run_pure (a : α) (ps : Producers) (j : Journal) (s : σ) :
    (pure a : Act σ α).run ps j s = (.ok a, j, s) := rfl

@[simp] theorem run_result (a : α) (ps : Producers) (j : Journal) (s : σ) :
    (result a : Act σ α).run ps j s = (.ok a, j, s) := rfl

theorem run_bind (act : Act σ α) (f : α → Act σ β) (ps : Producers) (j : Journal) (s : σ) :
    (act >>= f).run ps j s =
      match act.run ps j s with
      | (.ok a, j', s') => (f a).run ps j' s'
      | (.error e, j', s') => (.error e, j', s') := rfl

@[simp] theorem run_fail (e : Failure) (ps : Producers) (j : Journal) (s : σ) :
    (fail e : Act σ α).run ps j s = (.error e, j, s) := rfl

@[simp] theorem run_ofExcept (r : Except Failure α) (ps : Producers) (j : Journal) (s : σ) :
    (ofExcept r : Act σ α).run ps j s = (r, j, s) := rfl

@[simp] theorem run_attempt (act : Act σ α) (ps : Producers) (j : Journal) (s : σ) :
    act.attempt.run ps j s =
      (.ok (act.run ps j s).1, (act.run ps j s).2.1, (act.run ps j s).2.2) := rfl

@[simp] theorem run_getState (ps : Producers) (j : Journal) (s : σ) :
    (getState : Act σ σ).run ps j s = (.ok s, j, s) := rfl

@[simp] theorem run_setState (t : σ) (ps : Producers) (j : Journal) (s : σ) :
    (setState t).run ps j s = (.ok (), j, t) := rfl

@[simp] theorem run_call (p : Producer) (ps : Producers) (j : Journal) (s : σ) :
    (call p : Act σ Datum).run ps j s =
      (ps p (j.calls.count p), { j with calls := j.calls ++ [p] }, s) := rfl

@[simp] theorem run_report (event : Event) (ps : Producers) (j : Journal) (s : σ) :
    (report event : Act σ Unit).run ps j s =
      (.ok (), { j with events := j.events ++ [event] }, s) := rfl

end Act

inductive Level where
  | debug | warning
  deriving DecidableEq, Repr

def Level.name : Level → String
  | .debug => "DEBUG"
  | .warning => "WARNING"

namespace Event

def level : Event → Level
  | .accepted .. => .debug
  | .rejected .. => .warning
  | .loaded _ => .debug

def name : Event → String
  | .accepted .. => "statusflow.transition.accepted"
  | .rejected .. => "statusflow.transition.rejected"
  | .loaded _ => "statusflow.definition.loaded"

/-- The part of the library that reports an event, as named in logs. -/
def source : Event → String
  | .accepted .. => "statusflow.validator"
  | .rejected .. => "statusflow.validator"
  | .loaded _ => "statusflow.loader"

def line (e : Event) : String := s!"{e.level.name} {e.source}: {e.name}"

end Event

end Lifecycle
