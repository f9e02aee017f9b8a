import Lifecycle.Attachment
import Lifecycle.Entity.Record
import Lifecycle.Proofs.Validation

/-!
# What the operations of an attachment do

An operation first makes sure of the status field. Where the field is not found nothing else happens;
where it is found the operation is described here by one equation. A question leaves an entity as it
is that can be read without a trace, as every record can.
-/

namespace Lifecycle

open Act (Keeps KeepsAt)

variable {ρ : Type} [Accessor ρ] {ps : Producers} {j : Journal}

namespace Attached

/-- Whether the attachment finds its field: it made sure of it before, or the field is there. -/
def finds (s : Attached ρ) (a : Attachment) : Bool :=
  s.checked || Accessor.hasField s.entity a.entityKind a.field

/-- The staged status. -/
def staged (s : Attached ρ) (a : Attachment) : Datum := (Accessor.read a.field s.entity).1

/-- What the attachment sees after it made sure of its field and read it. -/
def afterRead (s : Attached ρ) (a : Attachment) : Attached ρ :=
  { checked := true, entity := (Accessor.read a.field s.entity).2 }

/-- The validation of the staged status against the persisted one. -/
def validation (s : Attached ρ) (a : Attachment) : Act Unit Unit :=
  Transition.validate a.definition (Accessor.persisted s.entity a.field) (s.staged a)
    (Accessor.isNew (s.afterRead a).entity)

end Attached

namespace Attachment

variable {a : Attachment}

theorem run_requireField (a : Attachment) (s : Attached ρ) :
    a.requireField.run ps j s =
      if s.finds a then (.ok (), j, { s with checked := true })
      else (.error (.missingAttribute a.field a.entityKind), j, s) := by
  obtain ⟨checked, entity⟩ := s
  cases checked with
  | true => rfl
  | false =>
    unfold requireField Attached.finds
    cases h : Accessor.hasField entity a.entityKind a.field <;> simp [Act.run_bind, h]

theorem run_readStatus (a : Attachment) (s : Attached ρ) :
    a.readStatus.run ps j s =
      (.ok (s.staged a), j, { s with entity := (Accessor.read a.field s.entity).2 }) := rfl

theorem run_writeStatus (a : Attachment) (status : Datum) (s : Attached ρ) :
    (a.writeStatus status).run ps j s =
      ((Accessor.write a.field status s.entity).1, j,
        { s with entity := (Accessor.write a.field status s.entity).2 }) := rfl

/-! ## A missing field -/

section Missing

variable {s : Attached ρ} (h : s.finds a = false)
include h

theorem run_start_of_missing :
    a.start.run ps j s = (.error (.missingAttribute a.field a.entityKind), j, s) := by
  unfold start
  rw [Act.run_bind, run_requireField, h]
  rfl

theorem run_propose_of_missing (status : Datum) :
    (a.propose status).run ps j s = (.error (.missingAttribute a.field a.entityKind), j, s) := by
  unfold propose
  rw [Act.run_bind, run_requireField, h]
  rfl

theorem run_currentStatus_of_missing :
    a.currentStatus.run ps j s = (.error (.missingAttribute a.field a.entityKind), j, s) := by
  unfold currentStatus
  rw [Act.run_bind, run_requireField, h]
  rfl

theorem run_validateBeforeCommit_of_missing :
    a.validateBeforeCommit.run ps j s =
      (.error (.missingAttribute a.field a.entityKind), j, s) := by
  unfold validateBeforeCommit
  rw [Act.run_bind, run_requireField, h]
  rfl

end Missing

/-! ## A field that is found -/

section Found

variable {s : Attached ρ} (h : s.finds a = true)
include h

theorem run_start :
    a.start.run ps j s = ((Accessor.write a.field a.definition.initial s.entity).1, j,
      { checked := true, entity := (Accessor.write a.field a.definition.initial s.entity).2 }) := by
  unfold start
  rw [Act.run_bind, run_requireField, h, if_pos rfl]
  exact run_writeStatus a a.definition.initial { s with checked := true }

theorem run_currentStatus :
    a.currentStatus.run ps j s = (.ok (s.staged a), j, s.afterRead a) := by
  unfold currentStatus
  rw [Act.run_bind, run_requireField, h]
  rfl

theorem run_validateBeforeCommit :
    a.validateBeforeCommit.run ps j s =
      (((s.validation a).outcome ps j).1, ((s.validation a).outcome ps j).2, s.afterRead a) := by
  unfold validateBeforeCommit
  rw [Act.run_bind, run_requireField, h, if_pos rfl]
  exact Transition.run_validate _ _ _ _ _

theorem run_nextStatuses_of_declared (hkey : (s.staged a).hashable = true)
    (hdecl : a.definition.declares (s.staged a) = true) :
    a.nextStatuses.run ps j s =
      (((a.definition.transitionsFrom (s.staged a)).outcome ps j).1.map a.definition.inOrder,
        ((a.definition.transitionsFrom (s.staged a)).outcome ps j).2, s.afterRead a) := by
  unfold nextStatuses
  rw [Act.run_bind, run_currentStatus h]
  simp only [Act.run_bind, Act.run_ofExcept, Definition.hasStatus_of_hashable _ hkey, hdecl,
    if_true, Definition.run_orderedTransitions]

theorem run_nextStatuses_of_undeclared (hkey : (s.staged a).hashable = true)
    (hdecl : a.definition.declares (s.staged a) = false) :
    a.nextStatuses.run ps j s = (.ok [], j, s.afterRead a) := by
  unfold nextStatuses
  rw [Act.run_bind, run_currentStatus h]
  simp only [Act.run_bind, Act.run_ofExcept, Definition.hasStatus_of_hashable _ hkey, hdecl]
  rfl

theorem run_nextStatuses_of_unhashable (hkey : (s.staged a).hashable = false) :
    a.nextStatuses.run ps j s =
      (.error (.misuse (.unhashable (s.staged a).kind)), j, s.afterRead a) := by
  unfold nextStatuses
  rw [Act.run_bind, run_currentStatus h]
  simp only [Act.run_bind, Act.run_ofExcept, Definition.hasStatus_of_unhashable _ hkey]

end Found

/-! ## What is left alone -/

section Keeping

variable {γ : Type}

theorem keeps_requireField (a : Attachment) :
    Keeps (Attached.entity (ρ := ρ)) a.requireField := by
  intro ps j s
  rw [run_requireField]
  split <;> rfl

theorem keeps_transitionsFrom {σ : Type} (f : σ → γ) (d : Definition) (status : Datum) :
    Keeps f (d.transitionsFrom status) := by
  intro ps j s
  rw [Definition.run_transitionsFrom]

theorem keeps_validate {σ : Type} (f : σ → γ) (d : Definition) (previous next : Datum)
    (isNew : Bool) : Keeps f (Transition.validate d previous next isNew) := by
  intro ps j s
  rw [Transition.run_validate]

end Keeping

/-! ### Entities that can be read without a trace -/

section Reading

variable {r : ρ} (hread : (Accessor.read a.field r).2 = r)
include hread

theorem keepsAt_readStatus : KeepsAt Attached.entity r a.readStatus := by
  rintro ps j s rfl
  exact hread

theorem keepsAt_currentStatus : KeepsAt Attached.entity r a.currentStatus :=
  ((keeps_requireField a).keepsAt r).bind fun _ => keepsAt_readStatus hread

theorem keepsAt_statusLabel : KeepsAt Attached.entity r a.statusLabel :=
  (keepsAt_currentStatus hread).bind fun _ => (Act.keeps_ofExcept _ _).keepsAt r

theorem keepsAt_nextStatuses : KeepsAt Attached.entity r a.nextStatuses := by
  refine (keepsAt_currentStatus hread).bind fun current => Keeps.keepsAt ?_ r
  refine (Act.keeps_ofExcept _ _).bind fun known => ?_
  cases known with
  | false => exact Act.keeps_pure _ _
  | true => exact (keeps_transitionsFrom _ _ _).bind fun _ => Act.keeps_pure _ _

theorem keepsAt_nextActions : KeepsAt Attached.entity r a.nextActions :=
  (keepsAt_nextStatuses hread).bind fun _ => (Act.keeps_ofExcept _ _).keepsAt r

theorem keepsAt_canTransitionTo (status : Datum) :
    KeepsAt Attached.entity r (a.canTransitionTo status) := by
  refine (keepsAt_currentStatus hread).bind fun current => Keeps.keepsAt ?_ r
  split
  · exact Act.keeps_pure _ _
  split
  · exact Act.keeps_pure _ _
  refine (Act.keeps_ofExcept _ _).bind fun known => ?_
  cases known with
  | false => exact Act.keeps_pure _ _
  | true =>
    refine (keeps_transitionsFrom _ _ _).attempt.bind fun answer => ?_
    split
    · exact Act.keeps_pure _ _
    · exact Act.keeps_pure _ _
    · exact Act.keeps_fail _ _

theorem keepsAt_validateBeforeCommit : KeepsAt Attached.entity r a.validateBeforeCommit :=
  ((keeps_requireField a).keepsAt r).bind fun _ => ((Act.keeps_getState _).keepsAt r).bind fun _ =>
    (keepsAt_readStatus hread).bind fun _ => ((Act.keeps_getState _).keepsAt r).bind fun _ =>
      (keeps_validate _ _ _ _ _).keepsAt r

end Reading

/-! ### Records -/

section Record

theorem keeps_readStatus (a : Attachment) :
    Keeps (Attached.entity (ρ := Record)) a.readStatus :=
  Act.keeps_of_keepsAt fun _ => keepsAt_readStatus rfl

theorem keeps_currentStatus (a : Attachment) :
    Keeps (Attached.entity (ρ := Record)) a.currentStatus :=
  Act.keeps_of_keepsAt fun _ => keepsAt_currentStatus rfl

theorem keeps_statusLabel (a : Attachment) :
    Keeps (Attached.entity (ρ := Record)) a.statusLabel :=
  Act.keeps_of_keepsAt fun _ => keepsAt_statusLabel rfl

theorem keeps_nextStatuses (a : Attachment) :
    Keeps (Attached.entity (ρ := Record)) a.nextStatuses :=
  Act.keeps_of_keepsAt fun _ => keepsAt_nextStatuses rfl

theorem keeps_nextActions (a : Attachment) :
    Keeps (Attached.entity (ρ := Record)) a.nextActions :=
  Act.keeps_of_keepsAt fun _ => keepsAt_nextActions rfl

theorem keeps_canTransitionTo (a : Attachment) (status : Datum) :
    Keeps (Attached.entity (ρ := Record)) (a.canTransitionTo status) :=
  Act.keeps_of_keepsAt fun _ => keepsAt_canTransitionTo rfl status

theorem keeps_validateBeforeCommit (a : Attachment) :
    Keeps (Attached.entity (ρ := Record)) a.validateBeforeCommit :=
  Act.keeps_of_keepsAt fun _ => keepsAt_validateBeforeCommit rfl

end Record

end Attachment

end Lifecycle
