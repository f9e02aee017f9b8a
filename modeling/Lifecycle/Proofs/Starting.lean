import Lifecycle.Proofs.Gate
import Lifecycle.Proofs.Interchange
import Lifecycle.Proofs.Staging

/-!
# The initial assignment

Starting an entity stages the initial status, and the check before the commit compares it with the
persisted one. Of a new entity nothing is compared. An entity that was persisted without a status is
no longer new: for it the initial status is a change from null like any other, and passes only where
a rule of null permits it (`Attachment.initial_assignment`).
-/

namespace Lifecycle

variable {ρ : Type} [Accessor ρ] {ps : Producers} {j : Journal} {a : Attachment}

/-- The entity takes a value for a field: it can be written and read back, and what is persisted
stays as it is. -/
structure Accessor.Takes (field : String) (v : Datum) (r : ρ) : Prop where
  write : (Accessor.write field v r).1 = .ok ()
  read : (Accessor.read field (Accessor.write field v r).2).1 = v
  persisted : Accessor.persisted (Accessor.write field v r).2 field = Accessor.persisted r field
  isNew : Accessor.isNew (Accessor.read field (Accessor.write field v r).2).2 = Accessor.isNew r

theorem Record.takes (r : Record) (field : String) (v : Datum) : Accessor.Takes field v r where
  write := rfl
  read := by
    change Fields.value (r.values.put field v) field = v
    unfold Fields.value
    rw [Table.get?_put_self]
    rfl
  persisted := rfl
  isNew := rfl

theorem Tracked.takes {t : Tracked} {field : String}
    (h : Object.isSettable t.object.shape field = true) (v : Datum) :
    Accessor.Takes field v t := by
  have hset : Object.isSettable (t.track field).object.shape field = true := by
    rwa [object_track]
  have hwrite : Accessor.write field v t =
      (.ok (), { t.track field with object := (t.track field).object.put field v }) := by
    change t.write field v = _
    unfold Tracked.write
    dsimp only
    rw [Object.set_of_settable hset]
  constructor
  · rw [hwrite]
  · rw [hwrite]
    change (((t.track field).object.put field v).get? field).getD .null = v
    rw [Object.get?_put]
    rfl
  · rw [hwrite]
    exact persistedValue_track t field field
  · rw [hwrite]
    change (Tracked.track _ field).snapshot.isNone = t.snapshot.isNone
    rw [snapshot_track]
    exact congrArg Option.isNone (snapshot_track t field)

theorem Datum.null_beq_iff {s : Datum} : (Datum.null == s) = true ↔ s = .null := by
  cases s <;> simp [BEq.beq, Datum.same]

namespace Definition

variable {d : Definition}

/-- Null may change to the initial status: it is the initial status, or has a rule that permits it
at that moment. -/
def PermitsStart (d : Definition) (ps : Producers) (j : Journal) : Prop :=
  d.initial = .null ∨ d.initial.hashable = true ∧
    ∃ targets, ((d.transitionsFrom .null).outcome ps j).1 = .ok targets ∧
      targets.admits d.initial = true

theorem validate_initial_ok_iff :
    ((Transition.validate d .null d.initial false).outcome ps j).1 = .ok () ↔
      d.PermitsStart ps j := by
  have hdeclared : d.declares d.initial = true := d.initial_declared
  rw [Transition.validate_ok_iff, Datum.null_beq_iff]
  unfold PermitsStart
  simp only [hdeclared, Bool.false_eq_true, false_or, true_and]

/-- The rejection of the initial status as one that cannot follow null. -/
def notFromNull (d : Definition) : Rejection where
  previous := .null
  next := d.initial
  cause := .invalidRule "status is not declared in the workflow"

theorem validate_initial_of_undeclared (hnull : d.declares .null = false)
    (hkey : d.initial.hashable = true) :
    ((Transition.validate d .null d.initial false).outcome ps j).1 =
      .error (.rejection d.notFromNull) := by
  have hchange : (false || Datum.null == d.initial) = false := by
    rw [Bool.false_or, ← Bool.not_eq_true, Datum.null_beq_iff]
    intro hinitial
    have hdeclared : d.declares d.initial = true := d.initial_declared
    rw [hinitial, hnull] at hdeclared
    cases hdeclared
  rw [Transition.outcome_validate_of_change hchange,
    Transition.outcome_require_of_declared hkey d.initial_declared,
    outcome_transitionsFrom_of_undeclared rfl hnull]
  rfl

end Definition

namespace Attachment

open Session (orders orderFlow blank draftObject)

/-- Starts an entity and checks it as before a commit. -/
def startAndValidate (a : Attachment) : Act (Attached ρ) Unit := do
  a.start
  a.validateBeforeCommit

theorem outcome_startAndValidate {s : Attached ρ} (hfound : s.finds a = true)
    (htakes : Accessor.Takes a.field a.definition.initial s.entity) :
    (a.startAndValidate.run ps j s).1 =
      ((Transition.validate a.definition (Accessor.persisted s.entity a.field)
        a.definition.initial (Accessor.isNew s.entity)).outcome ps j).1 := by
  unfold startAndValidate
  rw [Act.run_bind, run_start hfound, htakes.write]
  dsimp only
  rw [run_validateBeforeCommit rfl]
  unfold Attached.validation Attached.staged Attached.afterRead
  rw [htakes.read, htakes.persisted, htakes.isNew]

/-- What starting and checking an entity comes to that has no persisted status. -/
structure Assigns (a : Attachment) (ps : Producers) (j : Journal) (s : Attached ρ) : Prop where
  ofNew : Accessor.isNew s.entity = true → (a.startAndValidate.run ps j s).1 = .ok ()
  ofPersisted : Accessor.isNew s.entity = false →
    ((a.startAndValidate.run ps j s).1 = .ok () ↔ a.definition.PermitsStart ps j)
  ofUndeclared : Accessor.isNew s.entity = false → a.definition.declares .null = false →
    a.definition.initial.hashable = true → (a.startAndValidate.run ps j s).1 =
      .error (.rejection a.definition.notFromNull)

theorem assigns_of_takes {s : Attached ρ} (hfound : s.finds a = true)
    (htakes : Accessor.Takes a.field a.definition.initial s.entity)
    (habsent : Accessor.persisted s.entity a.field = .null) : a.Assigns ps j s := by
  have hout : (a.startAndValidate.run ps j s).1 = _ := outcome_startAndValidate hfound htakes
  rw [habsent] at hout
  refine ⟨fun hnew => ?_, fun hnew => ?_, fun hnew hnull hkey => ?_⟩
  · rw [hout, hnew, Transition.outcome_validate_of_trivial rfl]
  · rw [hout, hnew]
    exact Definition.validate_initial_ok_iff
  · rw [hout, hnew]
    exact Definition.validate_initial_of_undeclared hnull hkey

/-- Whatever was done to a record or a tracked object before: if its status can be written and none
is persisted, it can be started and passes as long as it is new. If it was persisted already, it
passes only where the definition permits the change from null. -/
theorem initial_assignment (a : Attachment) (ps : Producers) (j : Journal) :
    (∀ s : Attached Record, s.finds a = true → s.entity.persistedValue a.field = .null →
      a.Assigns ps j s) ∧
    ∀ s : Attached Tracked, s.finds a = true → s.entity.persistedValue a.field = .null →
      Object.isSettable s.entity.object.shape a.field = true → a.Assigns ps j s :=
  ⟨fun s hfound habsent => assigns_of_takes hfound (Record.takes s.entity a.field _) habsent,
    fun _ hfound habsent hset => assigns_of_takes hfound (Tracked.takes hset _) habsent⟩

/-- A record that was persisted before it was started. -/
def unstarted : Attached Record := { checked := false, entity := blank.persist }

theorem new_started_persisted_not :
    let ps : Producers := fun _ _ => .ok .null
    let fresh : Attached Tracked :=
      { checked := false, entity := Tracked.create draftObject [] false }
    (orderFlow.startAndValidate.run ps .empty fresh).1 = .ok () ∧
      unstarted.finds orderFlow = true ∧ unstarted.entity.persistedValue orderFlow.field = .null ∧
      (orderFlow.startAndValidate.run ps .empty unstarted).1 =
        .error (.rejection orders.notFromNull) := by
  intro ps fresh
  have hassigns := initial_assignment orderFlow ps .empty
  have hfresh : orderFlow.Assigns ps .empty fresh := hassigns.2 fresh (by decide) rfl rfl
  have hunstarted : orderFlow.Assigns ps .empty unstarted := hassigns.1 unstarted (by decide) rfl
  exact ⟨hfresh.ofNew rfl, by decide, rfl, hunstarted.ofUndeclared rfl (by decide) rfl⟩

/-- Not every entity without a persisted status can be started. -/
theorem exists_initial_rejected :
    ¬ ∀ (a : Attachment) (ps : Producers) (j : Journal) (s : Attached Record),
      s.finds a = true → s.entity.persistedValue a.field = .null →
        (a.startAndValidate.run ps j s).1 = .ok () := by
  intro h
  have hok := h orderFlow (fun _ _ => .ok .null) .empty unstarted (by decide) rfl
  have hrejected : (orderFlow.startAndValidate.run (fun _ _ => .ok .null) .empty unstarted).1 =
      .error (.rejection orders.notFromNull) := rfl
  rw [hrejected] at hok
  cases hok

end Attachment

end Lifecycle
