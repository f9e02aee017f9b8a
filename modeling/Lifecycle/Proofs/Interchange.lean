import Lifecycle.Proofs.Gate
import Lifecycle.Proofs.Tracking

/-!
# Entities that an attachment cannot tell apart

An attachment reaches its entity through one field. Where a relation between two kinds of entity
answers every access to that field alike (`Attachment.Matches`), every operation does the same on
both (`Attachment.alike_operation`). A record persists all that is staged and a tracked object only
the attributes read or written so far, but the check before a commit reads the status, so that it is
tracked whenever a snapshot is taken (`Aligned.markPersisted`).
-/

namespace Lifecycle

open Act (Alike)

namespace Attachment

variable {ρ π : Type} [Accessor ρ] [Accessor π] {a : Attachment} {R : ρ → π → Prop}

/-- Related entities answer every access to the field of an attachment alike, and stay related. -/
structure Matches (a : Attachment) (R : ρ → π → Prop) : Prop where
  hasField : ∀ r p, R r p →
    Accessor.hasField r a.entityKind a.field = Accessor.hasField p a.entityKind a.field
  read : ∀ r p, R r p → (Accessor.read a.field r).1 = (Accessor.read a.field p).1 ∧
    R (Accessor.read a.field r).2 (Accessor.read a.field p).2
  write : ∀ r p v, R r p → (Accessor.write a.field v r).1 = (Accessor.write a.field v p).1 ∧
    R (Accessor.write a.field v r).2 (Accessor.write a.field v p).2
  persisted : ∀ r p, R r p → Accessor.persisted r a.field = Accessor.persisted p a.field
  isNew : ∀ r p, R r p → Accessor.isNew r = Accessor.isNew p

/-- The attachment sees related entities and made sure of its field in both or in neither. -/
def Sees (R : ρ → π → Prop) (s : Attached ρ) (t : Attached π) : Prop :=
  s.checked = t.checked ∧ R s.entity t.entity

section Operations

variable (h : Matches a R)
include h

theorem finds_eq {s : Attached ρ} {t : Attached π} (hst : Sees R s t) : s.finds a = t.finds a := by
  unfold Attached.finds
  rw [hst.1, h.hasField _ _ hst.2]

theorem alike_requireField :
    Alike (Sees R) (a.requireField (ρ := ρ)) (a.requireField (ρ := π)) := by
  intro ps j s t hst
  rw [run_requireField, run_requireField, finds_eq h hst]
  cases t.finds a with
  | true => exact ⟨rfl, rfl, rfl, hst.2⟩
  | false => exact ⟨rfl, rfl, hst⟩

theorem alike_readStatus : Alike (Sees R) (a.readStatus (ρ := ρ)) (a.readStatus (ρ := π)) := by
  intro ps j s t hst
  obtain ⟨hvalue, hentity⟩ := h.read _ _ hst.2
  rw [run_readStatus, run_readStatus]
  exact ⟨congrArg Except.ok hvalue, rfl, hst.1, hentity⟩

theorem alike_writeStatus (status : Datum) :
    Alike (Sees R) (a.writeStatus (ρ := ρ) status) (a.writeStatus (ρ := π) status) := by
  intro ps j s t hst
  obtain ⟨hout, hentity⟩ := h.write _ _ status hst.2
  rw [run_writeStatus, run_writeStatus]
  exact ⟨hout, rfl, hst.1, hentity⟩

theorem alike_currentStatus :
    Alike (Sees R) (a.currentStatus (ρ := ρ)) (a.currentStatus (ρ := π)) :=
  (alike_requireField h).bind fun _ => alike_readStatus h

omit h in
theorem alike_transitionsFrom {σ τ : Type} (Q : σ → τ → Prop) (d : Definition) (status : Datum) :
    Alike Q (d.transitionsFrom status) (d.transitionsFrom status) :=
  Act.alike_of_run (fun _ _ s => Definition.run_transitionsFrom d status s)
    fun _ _ t => Definition.run_transitionsFrom d status t

theorem alike_nextStatuses :
    Alike (Sees R) (a.nextStatuses (ρ := ρ)) (a.nextStatuses (ρ := π)) := by
  refine (alike_currentStatus h).bind fun current =>
    (Act.alike_ofExcept _ _).bind fun known => ?_
  cases known with
  | false => exact Act.alike_pure _ _
  | true => exact (alike_transitionsFrom _ _ _).bind fun _ => Act.alike_pure _ _

theorem alike_canTransitionTo (status : Datum) :
    Alike (Sees R) (a.canTransitionTo (ρ := ρ) status) (a.canTransitionTo (ρ := π) status) := by
  refine (alike_currentStatus h).bind fun current => ?_
  split
  · exact Act.alike_pure _ _
  split
  · exact Act.alike_pure _ _
  refine (Act.alike_ofExcept _ _).bind fun known => ?_
  cases known with
  | false => exact Act.alike_pure _ _
  | true =>
    refine (alike_transitionsFrom _ _ _).attempt.bind fun answer => ?_
    split
    · exact Act.alike_pure _ _
    · exact Act.alike_pure _ _
    · exact Act.alike_fail _ _

theorem validation_eq {s : Attached ρ} {t : Attached π} (hst : Sees R s t) :
    s.validation a = t.validation a := by
  unfold Attached.validation Attached.staged
  rw [h.persisted _ _ hst.2, (h.read _ _ hst.2).1]
  exact congrArg _ (h.isNew _ _ (h.read _ _ hst.2).2)

theorem alike_validateBeforeCommit :
    Alike (Sees R) (a.validateBeforeCommit (ρ := ρ)) (a.validateBeforeCommit (ρ := π)) := by
  intro ps j s t hst
  cases hfinds : t.finds a with
  | true =>
    rw [run_validateBeforeCommit ((finds_eq h hst).trans hfinds), run_validateBeforeCommit hfinds,
      validation_eq h hst]
    exact ⟨rfl, rfl, rfl, (h.read _ _ hst.2).2⟩
  | false =>
    rw [run_validateBeforeCommit_of_missing ((finds_eq h hst).trans hfinds),
      run_validateBeforeCommit_of_missing hfinds]
    exact ⟨rfl, rfl, hst⟩

/-- Every operation does the same on related entities. -/
theorem alike_operation (op : Operation) :
    Alike (Sees R) (op.act (ρ := ρ) a) (op.act (ρ := π) a) := by
  cases op with
  | start =>
    exact ((alike_requireField h).bind fun _ => alike_writeStatus h _).bind fun _ =>
      Act.alike_pure _ _
  | propose status =>
    refine ((alike_requireField h).bind fun _ => (alike_readStatus h).bind fun current => ?_).bind
      fun _ => Act.alike_pure _ _
    split
    · exact Act.alike_pure _ _
    · exact (alike_writeStatus h status).bind fun _ => Act.alike_pure _ _
  | currentStatus => exact (alike_currentStatus h).bind fun _ => Act.alike_pure _ _
  | statusLabel =>
    exact ((alike_currentStatus h).bind fun _ => Act.alike_ofExcept _ _).bind fun _ =>
      Act.alike_pure _ _
  | nextStatuses => exact (alike_nextStatuses h).bind fun _ => Act.alike_pure _ _
  | nextActions =>
    exact ((alike_nextStatuses h).bind fun _ => Act.alike_ofExcept _ _).bind fun _ =>
      Act.alike_pure _ _
  | canTransitionTo status =>
    exact (alike_canTransitionTo h status).bind fun _ => Act.alike_pure _ _
  | dropdown action => exact (Act.alike_ofExcept _ _).bind fun _ => Act.alike_pure _ _
  | validateBeforeCommit =>
    exact (alike_validateBeforeCommit h).bind fun _ => Act.alike_pure _ _

end Operations

end Attachment

/-! ## Turns of one attachment -/

/-- What an attachment does alone with its entity: an operation, or a commit behind its check. -/
inductive Turn where
  | operate (op : Operation)
  | commit

/-- A turn, given how the entity is persisted once the check has passed. -/
def Turn.act {ρ : Type} [Accessor ρ] (persist : ρ → ρ) (a : Attachment) :
    Turn → Act (Session ρ) Answer
  | .operate op => Session.of 0 (op.act a)
  | .commit => do
    Session.commitBy persist 0 a
    return .nothing

/-- On a record a turn is a step of a run. -/
theorem Turn.act_record (a : Attachment) (turn : Turn) :
    turn.act Record.persist a = (match turn with
      | .operate op => Step.operate 0 op
      | .commit => Step.commit (some 0)).act fun _ => a := by
  cases turn <;> rfl

namespace Session

variable {ρ π : Type} {a : Attachment} {R : ρ → π → Prop}

/-- The entities are related and the same attachments made sure of their fields. -/
def Tied (R : ρ → π → Prop) (s : Session ρ) (t : Session π) : Prop :=
  s.checked = t.checked ∧ R s.entity t.entity

theorem Tied.sees {s : Session ρ} {t : Session π} (hst : Tied R s t) (i : Nat) :
    Attachment.Sees R (s.view i) (t.view i) :=
  ⟨congrFun hst.1 i, hst.2⟩

theorem Tied.note {s : Session ρ} {t : Session π} (hst : Tied R s t) (i : Nat) :
    (s.note i).checked = (t.note i).checked := by
  unfold Session.note
  rw [hst.1]

theorem alike_of {α : Type} {i : Nat} {act : Act (Attached ρ) α} {act' : Act (Attached π) α}
    (h : Alike (Attachment.Sees R) act act') : Alike (Tied R) (of i act) (of i act') := by
  refine h.zoom (fun s t hst => hst.sees i) fun s t x y hst hxy => ⟨?_, hxy.2⟩
  unfold update
  rw [hst.1, hxy.1]

variable [Accessor ρ] [Accessor π]

/-- Commits are alike where persisting keeps entities related that have just been read. -/
theorem alike_commitBy (h : a.Matches R) {persist : ρ → ρ} {persist' : π → π}
    (hpersist : ∀ r p, R r p →
      R (persist (Accessor.read a.field r).2) (persist' (Accessor.read a.field p).2)) (i : Nat) :
    Alike (Tied R) (commitBy persist i a) (commitBy persist' i a) := by
  intro ps j s t hst
  have hsees := hst.sees i
  have hread := (h.read _ _ hst.2).2
  cases hfinds : (t.view i).finds a with
  | false =>
    rw [run_commitBy_of_missing ((Attachment.finds_eq h hsees).trans hfinds),
      run_commitBy_of_missing hfinds]
    exact ⟨rfl, rfl, hst⟩
  | true =>
    rw [run_commitBy_of_found ((Attachment.finds_eq h hsees).trans hfinds),
      run_commitBy_of_found hfinds, Attachment.validation_eq h hsees]
    rcases ((t.view i).validation a).outcome ps j with ⟨_ | _, j'⟩
    · exact ⟨rfl, rfl, hst.note i, hread⟩
    · exact ⟨rfl, rfl, hst.note i, hpersist _ _ hst.2⟩

theorem alike_turn (h : a.Matches R) {persist : ρ → ρ} {persist' : π → π}
    (hpersist : ∀ r p, R r p →
      R (persist (Accessor.read a.field r).2) (persist' (Accessor.read a.field p).2))
    (turn : Turn) : Alike (Tied R) (turn.act persist a) (turn.act persist' a) := by
  cases turn with
  | operate op => exact alike_of (Attachment.alike_operation h op)
  | commit => exact (alike_commitBy h hpersist 0).bind fun _ => Act.alike_pure _ _

end Session

/-! ## Records and tracked objects -/

namespace Object

/-- Whatever the attribute is set to it then holds. -/
def GetAfterSet (o : Object) (name : String) : Prop :=
  ∀ v, ∃ o', o.set name v = .ok o' ∧ o'.get? name = some v

theorem GetAfterSet.isSettable {o : Object} {name : String} (h : o.GetAfterSet name) :
    isSettable o.shape name = true := by
  obtain ⟨o', hset, -⟩ := h .null
  by_contra hnot
  unfold Object.set at hset
  rw [if_neg hnot] at hset
  cases hset

/-- The object after an attribute was set. -/
def put (o : Object) (name : String) (v : Datum) : Object :=
  { o with fields := o.fields.put (storedName o.shape name) v }

theorem set_of_settable {o : Object} {name : String} (h : isSettable o.shape name = true)
    (v : Datum) : o.set name v = .ok (o.put name v) := by
  unfold Object.set
  rw [if_pos h]
  rfl

theorem get?_put (o : Object) (name : String) (v : Datum) : (o.put name v).get? name = some v :=
  Table.get?_put_self o.fields (storedName o.shape name) v

end Object

/-- A record with the column and an object with the attribute, of which the attachment's field shows
the same. -/
structure Aligned (field : String) (r : Record) (t : Tracked) : Prop where
  column : r.hasColumn field = true
  settable : Object.isSettable t.object.shape field = true
  staged : t.object.get? field = some (r.values.value field)
  persisted : r.persistedValue field = t.persistedValue field
  isNew : r.persisted.isNone = t.snapshot.isNone

namespace Aligned

variable {field : String} {r : Record} {t : Tracked}

theorem value (h : Aligned field r t) : r.values.value field = t.value field := by
  unfold Tracked.value
  rw [h.staged]
  rfl

theorem track (h : Aligned field r t) : Aligned field r (t.track field) where
  column := h.column
  settable := by rw [Tracked.object_track]; exact h.settable
  staged := by rw [Tracked.object_track]; exact h.staged
  persisted := by rw [Tracked.persistedValue_track]; exact h.persisted
  isNew := by rw [Tracked.snapshot_track]; exact h.isNew

theorem put (h : Aligned field r t) (v : Datum) :
    Aligned field (r.stage field v) { t with object := t.object.put field v } where
  column := h.column
  settable := h.settable
  staged := by
    rw [Object.get?_put]
    unfold Record.stage Fields.value
    rw [Table.get?_put_self]
    rfl
  persisted := h.persisted
  isNew := h.isNew

theorem markPersisted (h : Aligned field r t) :
    Aligned field r.persist (t.track field).markPersisted where
  column := h.column
  settable := h.track.settable
  staged := h.track.staged
  persisted := by
    have htracked : field ∈ (t.track field).tracked := Tracked.mem_track_iff.2 (.inr rfl)
    rw [Tracked.persistedValue_markPersisted, if_pos htracked]
    exact h.track.value
  isNew := rfl

theorem matches_field (a : Attachment) : a.Matches (Aligned a.field) where
  hasField r t h := by
    change r.hasColumn a.field = (t.object.get? a.field).isSome
    rw [h.column, h.staged]
    rfl
  read r t h := ⟨h.value, h.track⟩
  write r t v h := by
    have hwrite : t.write a.field v =
        (.ok (), { t.track a.field with object := (t.track a.field).object.put a.field v }) := by
      unfold Tracked.write
      dsimp only
      rw [Object.set_of_settable h.track.settable]
    change (Except.ok (), r.stage a.field v).1 = (t.write a.field v).1 ∧
      Aligned a.field (r.stage a.field v) (t.write a.field v).2
    rw [hwrite]
    exact ⟨rfl, h.track.put v⟩
  persisted r t h := h.persisted
  isNew r t h := h.isNew

theorem of_new {r : Record} {o : Object} (tracked : List String) {v : Datum}
    (hcolumn : r.hasColumn field = true) (hnew : r.persisted = none)
    (hvalue : r.values.get? field = some v) (hget : o.get? field = some v)
    (hset : o.GetAfterSet field) : Aligned field r (Tracked.create o tracked false) where
  column := hcolumn
  settable := hset.isSettable
  staged := by
    unfold Fields.value
    rw [hvalue]
    exact hget
  persisted := by
    unfold Record.persistedValue
    rw [hnew]
    rfl
  isNew := by
    rw [hnew]
    rfl

end Aligned

namespace Session

/-- What can be seen of a field: the staged value, the persisted one, and whether the entity is new.
-/
def observe {ρ : Type} [Accessor ρ] (field : String) (s : Session ρ) : Datum × Datum × Bool :=
  ((Accessor.read field s.entity).1, Accessor.persisted s.entity field, Accessor.isNew s.entity)

theorem observe_eq {a : Attachment} {s : Session Record} {t : Session Tracked}
    (h : Tied (Aligned a.field) s t) : s.observe a.field = t.observe a.field := by
  unfold observe
  have hfield := Aligned.matches_field a
  rw [(hfield.read _ _ h.2).1, hfield.persisted _ _ h.2, hfield.isNew _ _ h.2]

/-- After any run of an attachment on a new record, and the same run on a new tracked object that
holds the same status, the next turn has the same outcome and the same journal and leaves the same
to be seen of the status. -/
theorem record_tracked_interchangeable (a : Attachment) (v : Datum) (r : Record) (o : Object)
    (tracked : List String) (hcolumn : r.hasColumn a.field = true) (hnew : r.persisted = none)
    (hvalue : r.values.get? a.field = some v) (hget : o.get? a.field = some v)
    (hset : o.GetAfterSet a.field) (ps : Producers) (j : Journal) (turns : List Turn)
    (turn : Turn) :
    let x := Act.after ps (turns.map (Turn.act Record.persist a)) (j, start r)
    let y := Act.after ps (turns.map (Turn.act Tracked.markPersisted a))
      (j, start (Tracked.create o tracked false))
    let onRecord := (turn.act Record.persist a).run ps x.1 x.2
    let onTracked := (turn.act Tracked.markPersisted a).run ps y.1 y.2
    x.1 = y.1 ∧ x.2.observe a.field = y.2.observe a.field ∧
      onRecord.1 = onTracked.1 ∧ onRecord.2.1 = onTracked.2.1 ∧
      onRecord.2.2.observe a.field = onTracked.2.2.observe a.field := by
  intro x y onRecord onTracked
  have halike : ∀ turn : Turn, Alike (Tied (Aligned a.field)) (turn.act Record.persist a)
      (turn.act Tracked.markPersisted a) :=
    alike_turn (Aligned.matches_field a) fun _ _ h => h.markPersisted
  have hstart : Tied (Aligned a.field) (start r) (start (Tracked.create o tracked false)) :=
    ⟨rfl, .of_new tracked hcolumn hnew hvalue hget hset⟩
  obtain ⟨hjournal, htied⟩ : x.1 = y.1 ∧ Tied (Aligned a.field) x.2 y.2 :=
    Act.after_alike halike ps turns rfl hstart
  have hrecord : onRecord = (turn.act Record.persist a).run ps y.1 x.2 := by rw [← hjournal]
  obtain ⟨hout, hjournal', htied'⟩ := halike turn ps y.1 x.2 y.2 htied
  rw [← hrecord] at hout hjournal' htied'
  exact ⟨hjournal, observe_eq htied, hout, hjournal', observe_eq htied'⟩

/-- An object that presents the status it keeps as `_status`. -/
def draftObject : Object :=
  { shape := .property true, fields := .ofList [("_status", .text "draft")] }

theorem paid_interchangeable :
    let ps : Producers := fun _ _ => .ok (.list [.text "shipped"])
    let turns : List Turn := [.operate .start, .commit, .operate (.propose (.text "paid"))]
    let x := Act.after ps (turns.map (Turn.act Record.persist orderFlow))
      (.empty, start (blank.stage "status" (.text "draft")))
    let y := Act.after ps (turns.map (Turn.act Tracked.markPersisted orderFlow))
      (.empty, start (Tracked.create draftObject [] false))
    let onRecord := (Turn.commit.act Record.persist orderFlow).run ps x.1 x.2
    let onTracked := (Turn.commit.act Tracked.markPersisted orderFlow).run ps y.1 y.2
    draftObject.GetAfterSet "status" ∧ x.1 = y.1 ∧ onRecord.1.isOk = true ∧
      onRecord.1 = onTracked.1 ∧
      onTracked.2.2.observe orderFlow.field = (.text "paid", .text "paid", false) := by
  have hset : draftObject.GetAfterSet "status" := fun v =>
    ⟨draftObject.put "status" v, Object.set_of_settable rfl v, Object.get?_put _ _ v⟩
  intro ps turns
  have hagree := record_tracked_interchangeable orderFlow (.text "draft")
    (blank.stage "status" (.text "draft")) draftObject [] (by decide) rfl rfl rfl hset ps .empty
    turns .commit
  extract_lets x y onRecord onTracked at hagree
  extract_lets
  have hpaid : onRecord.2.2.observe orderFlow.field = (.text "paid", .text "paid", false) := rfl
  have hok : onRecord.1.isOk = true := rfl
  have hjournal : x.1 = y.1 := hagree.1
  have hout : onRecord.1 = onTracked.1 := hagree.2.2.1
  exact ⟨hset, hjournal, hok, hout, hagree.2.2.2.2.symm.trans hpaid⟩

end Session

end Lifecycle
