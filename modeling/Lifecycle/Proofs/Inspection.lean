import Lifecycle.Proofs.Interchange
import Lifecycle.Proofs.Latch
import Lifecycle.Proofs.Persistable

/-!
# Inspections leave no trace

A question to a flow and a check without a commit inspect the entity. They may note that the field
is there, and report what they found, but nothing of that counts where the field stays there and its
attribute is tracked anyway: then an inspection leaves the entity as it is
(`Move.entity_of_inspects`), and every move does the same on the same entity, whatever was noted and
reported before (`Move.agree_of_static`). So inspections may be left out of a run anywhere
(`Session.inspections_unnoticed`).
-/

namespace Lifecycle

open Act (Keeps Made)

variable {σ α β γ ρ : Type}

/-! ## What an act maintains -/

namespace Act

variable {f : σ → γ} {P : σ → Prop} {act : Act σ α} {next : α → Act σ β}

/-- What holds of the state before the act holds of it afterwards. -/
def Maintains (P : σ → Prop) (act : Act σ α) : Prop :=
  ∀ ps j s, P s → P (act.run ps j s).2.2

theorem Maintains.bind (h : Maintains P act) (hnext : ∀ a, Maintains P (next a)) :
    Maintains P (act >>= next) := by
  intro ps j s hs
  have hact := h ps j s hs
  rw [run_bind]
  rcases hrun : act.run ps j s with ⟨_ | a, j', s'⟩
  · rwa [hrun] at hact
  · rw [hrun] at hact
    exact hnext a ps j' s' hact

theorem KeepsAt.maintains {Q : γ → Prop} (h : ∀ c, Q c → KeepsAt f c act) :
    Maintains (fun s => Q (f s)) act := by
  intro ps j s hs
  rw [h (f s) hs ps j s rfl]
  exact hs

end Act

open Act (KeepsAt Maintains)

/-! ## Inspections of an attachment -/

/-- The operation asks a question or makes a check, and stages nothing. -/
def Operation.inspects : Operation → Bool
  | .start | .propose _ => false
  | _ => true

section Attachment

variable [Accessor ρ] {a : Attachment} {r : ρ}

/-- Where reading the field leaves the entity as it is, an inspection does so too. -/
theorem Operation.keepsAt (hread : (Accessor.read a.field r).2 = r) {op : Operation}
    (h : op.inspects = true) : KeepsAt Attached.entity r (op.act a) := by
  have hanswer {α : Type} {act : Act (Attached ρ) α} (h : KeepsAt Attached.entity r act)
      (f : α → Answer) : KeepsAt Attached.entity r (act >>= fun x => pure (f x)) :=
    h.bind fun _ => (Act.keeps_pure _ _).keepsAt r
  cases op with
  | start => cases h
  | propose status => cases h
  | currentStatus => exact hanswer (Attachment.keepsAt_currentStatus hread) _
  | statusLabel => exact hanswer (Attachment.keepsAt_statusLabel hread) _
  | nextStatuses => exact hanswer (Attachment.keepsAt_nextStatuses hread) _
  | nextActions => exact hanswer (Attachment.keepsAt_nextActions hread) _
  | canTransitionTo status => exact hanswer (Attachment.keepsAt_canTransitionTo hread status) _
  | dropdown action => exact hanswer ((Act.keeps_ofExcept _ _).keepsAt r) _
  | validateBeforeCommit => exact hanswer (Attachment.keepsAt_validateBeforeCommit hread) _

/-- On one entity with the field, an act that makes sure of it does the same whether the attachment
had made sure of it or not. -/
theorem MakesSure.run_eq {act : Act (Attached ρ) α} (hsure : MakesSure a act) {s t : Attached ρ}
    (h : s.entity = t.entity) (hfield : Accessor.hasField s.entity a.entityKind a.field = true)
    (ps : Producers) (j : Journal) : act.run ps j s = act.run ps j t := by
  have hs : s.finds a = true := Bool.or_eq_true_iff.2 (.inr hfield)
  have ht : t.finds a = true := Bool.or_eq_true_iff.2 (.inr (h ▸ hfield))
  rw [hsure.again ps j s hs, hsure.again ps j t ht, h]

theorem Operation.agree_of_entity {s t : Attached ρ} (h : s.entity = t.entity)
    (hfield : Accessor.hasField s.entity a.entityKind a.field = true) (op : Operation)
    (ps : Producers) (j : Journal) :
    ((op.act a).run ps j s).1 = ((op.act a).run ps j t).1 ∧
      ((op.act a).run ps j s).2.2.entity = ((op.act a).run ps j t).2.2.entity := by
  by_cases hop : op.Checks
  · rw [(op.makesSure hop a).run_eq h hfield]
    exact ⟨rfl, rfl⟩
  · cases op with
    | dropdown action =>
      rw [run_dropdown, run_dropdown]
      exact ⟨rfl, h⟩
    | _ => exact absurd trivial hop

end Attachment

/-! ## Moves on an entity whose fields stay -/

theorem Definition.OnlyStatic.producers_eq_nil {d : Definition} (h : d.OnlyStatic) :
    d.producers = [] := by
  refine List.filterMap_eq_nil_iff.2 fun e he => ?_
  obtain ⟨targets, hrule⟩ := h e he
  rw [hrule]

namespace Move

/-- The move only inspects the entity. -/
def inspects : Move ρ → Bool
  | .operate _ op => op.inspects
  | _ => false

/-- What holds of the entity still does after it was touched from outside. -/
def Leaves (P : ρ → Prop) : Move ρ → Prop
  | .touch f => ∀ r, P r → P (f r).2
  | _ => True

end Move

/-- What holds of the entity goes with every flow finding its field and reading it without a trace,
and stays true when a field is written or the entity is persisted. -/
structure Steady [Accessor ρ] (flows : Flows) (persist : ρ → ρ) (P : ρ → Prop) : Prop where
  hasField : ∀ r i, P r → Accessor.hasField r (flows i).entityKind (flows i).field = true
  read : ∀ r i, P r → (Accessor.read (flows i).field r).2 = r
  write : ∀ r name v, P r → P (Accessor.write name v r).2
  persist : ∀ r, P r → P (persist r)

namespace Move

section Steady

variable [Accessor ρ] {flows : Flows} {persist : ρ → ρ} {P : ρ → Prop} {ps : Producers}
  {move : Move ρ} (hsteady : Steady flows persist P)
include hsteady

theorem entity_of_inspects (hmove : move.inspects = true) (ps : Producers) (j : Journal)
    {s : Session ρ} (hs : P s.entity) :
    ((move.act flows persist).run ps j s).2.2.entity = s.entity := by
  cases move with
  | operate i op => exact Operation.keepsAt (hsteady.read _ i hs) hmove ps j (s.view i) rfl
  | commit | touch => cases hmove

theorem maintains_act (hmove : move.Leaves P) :
    Maintains (fun s : Session ρ => P s.entity) (move.act flows persist) := by
  cases move with
  | operate i op =>
    have hrequire : Maintains (fun s : Attached ρ => P s.entity) (flows i).requireField :=
      KeepsAt.maintains fun r _ => (Attachment.keeps_requireField _).keepsAt r
    have hread : Maintains (fun s : Attached ρ => P s.entity) (flows i).readStatus :=
      KeepsAt.maintains fun r hr => Attachment.keepsAt_readStatus (hsteady.read r i hr)
    have hwrite (status : Datum) :
        Maintains (fun s : Attached ρ => P s.entity) ((flows i).writeStatus status) :=
      fun _ _ s hs => hsteady.write s.entity _ status hs
    have hpure {α : Type} (x : α) :
        Maintains (fun s : Attached ρ => P s.entity) (pure x : Act (Attached ρ) α) :=
      fun _ _ _ hs => hs
    have hop : Maintains (fun s : Attached ρ => P s.entity) (op.act (flows i)) := by
      cases hinspects : op.inspects with
      | true =>
        exact KeepsAt.maintains fun r hr => Operation.keepsAt (hsteady.read r i hr) hinspects
      | false =>
        cases op with
        | start => exact (hrequire.bind fun _ => hwrite _).bind fun _ => hpure _
        | propose status =>
          refine (hrequire.bind fun _ => hread.bind fun current => ?_).bind fun _ => hpure _
          split
          · exact hpure _
          · exact (hwrite status).bind fun _ => hpure _
        | _ => cases hinspects
    exact fun ps j s hs => hop ps j (s.view i) hs
  | commit i =>
    have hcheck : Maintains (fun s : Attached ρ => P s.entity) (flows i).validateBeforeCommit :=
      KeepsAt.maintains fun r hr =>
        Attachment.keepsAt_validateBeforeCommit (hsteady.read r i hr)
    refine Maintains.bind (Maintains.bind (fun ps j s hs => hcheck ps j (s.view i) hs) ?_)
      fun _ _ _ _ hs => hs
    exact fun _ _ _ s hs => hsteady.persist s.entity hs
  | touch f => exact fun _ _ s hs => hmove s.entity hs

/-- On one entity a move does the same whatever the flows had made sure of. -/
theorem agree_of_entity (move : Move ρ) (ps : Producers) (j : Journal) {s t : Session ρ}
    (h : s.entity = t.entity) (hs : P s.entity) :
    ((move.act flows persist).run ps j s).1 = ((move.act flows persist).run ps j t).1 ∧
      ((move.act flows persist).run ps j s).2.2.entity =
        ((move.act flows persist).run ps j t).2.2.entity := by
  cases move with
  | operate i op =>
    exact Operation.agree_of_entity (s := s.view i) (t := t.view i) h
      (hsteady.hasField _ i hs) op ps j
  | commit i =>
    have hcheck := (flows i).makesSure_validateBeforeCommit.run_eq (s := s.view i) (t := t.view i) h
      (hsteady.hasField _ i hs) ps j
    change ((Session.commitBy persist i (flows i) >>= _).run ps j s).1 =
      ((Session.commitBy persist i (flows i) >>= _).run ps j t).1 ∧
      ((Session.commitBy persist i (flows i) >>= _).run ps j s).2.2.entity =
      ((Session.commitBy persist i (flows i) >>= _).run ps j t).2.2.entity
    simp only [Session.commitBy, Act.run_bind, Session.run_of, hcheck]
    rcases (flows i).validateBeforeCommit.run ps j (t.view i) with ⟨_ | _, j', a⟩
    · exact ⟨rfl, rfl⟩
    · exact ⟨rfl, rfl⟩
  | touch f =>
    obtain ⟨entity, checked⟩ := s
    obtain rfl : entity = t.entity := h
    exact ⟨rfl, rfl⟩

omit hsteady in
theorem made_of_static (hstatic : ∀ i, (flows i).definition.OnlyStatic) (move : Move ρ) :
    Made (· ∈ ([] : List Producer)) (move.act flows persist) := by
  have hnone (i : Nat) := (hstatic i).producers_eq_nil
  cases move with
  | operate i op =>
    have hop := (flows i).made_operation (ρ := ρ) op
    rw [hnone i] at hop
    exact hop.zoom
  | commit i =>
    have hcommit := Session.made_commitBy persist i (flows i)
    rw [hnone i] at hcommit
    exact .bind hcommit fun _ => .pure _
  | touch f => exact .bind .getState fun _ => .bind (.setState _) fun _ => .ofExcept _

/-- With static rules only, nothing that was reported before counts either. -/
theorem agree_of_static (hstatic : ∀ i, (flows i).definition.OnlyStatic) (move : Move ρ)
    (ps : Producers) {x y : Journal × Session ρ} (h : x.2.entity = y.2.entity)
    (hx : P x.2.entity) :
    ((move.act flows persist).run ps x.1 x.2).1 = ((move.act flows persist).run ps y.1 y.2).1 ∧
      ((move.act flows persist).run ps x.1 x.2).2.2.entity =
        ((move.act flows persist).run ps y.1 y.2).2.2.entity := by
  obtain ⟨hout, hentity⟩ := agree_of_entity hsteady move ps x.1 h hx
  obtain ⟨out, new, s', -, hx', hy'⟩ :=
    (made_of_static hstatic move).confined ps x.1 y.1 y.2 fun _ hp => (List.not_mem_nil hp).elim
  rw [hx'] at hout hentity
  rw [hy']
  exact ⟨hout, hentity⟩

/-- Inspections may be left out of a run: it leads to the same entity. -/
theorem entity_after_filter (hstatic : ∀ i, (flows i).definition.OnlyStatic) (ps : Producers)
    {moves : List (Move ρ)} (hmoves : ∀ move ∈ moves, move.Leaves P) {x y : Journal × Session ρ}
    (h : x.2.entity = y.2.entity) (hx : P x.2.entity) :
    (after flows persist ps moves x).2.entity =
        (after flows persist ps (moves.filter fun move => !move.inspects) y).2.entity ∧
      P (after flows persist ps moves x).2.entity := by
  induction moves generalizing x y with
  | nil => exact ⟨h, hx⟩
  | cons move moves ih =>
    obtain ⟨hmove, hmoves⟩ := List.forall_mem_cons.1 hmoves
    have hnext : P ((move.act flows persist).run ps x.1 x.2).2.2.entity :=
      maintains_act hsteady hmove ps x.1 x.2 hx
    cases hinspects : move.inspects with
    | true =>
      rw [List.filter_cons_of_neg (by simp [hinspects])]
      exact ih hmoves ((entity_of_inspects hsteady hinspects ps x.1 hx).trans h) hnext
    | false =>
      rw [List.filter_cons_of_pos (by simp [hinspects])]
      exact ih hmoves (agree_of_static hsteady hstatic move ps h hx).2 hnext

/-- With the same outcome, and with the same to be seen of every field afterwards. -/
structure SameSeen (x y : Except Failure Answer × Journal × Session ρ) : Prop where
  outcome : x.1 = y.1
  observe : ∀ field, x.2.2.observe field = y.2.2.observe field

theorem sameSeen_after_filter (hstatic : ∀ i, (flows i).definition.OnlyStatic) (ps : Producers)
    {moves : List (Move ρ)} (hmoves : ∀ move ∈ moves, move.Leaves P) (next : Move ρ)
    {x : Journal × Session ρ} (hx : P x.2.entity) :
    let whole := after flows persist ps moves x
    let bare := after flows persist ps (moves.filter fun move => !move.inspects) x
    SameSeen ((next.act flows persist).run ps whole.1 whole.2)
      ((next.act flows persist).run ps bare.1 bare.2) := by
  intro whole bare
  obtain ⟨hsame, hready⟩ : whole.2.entity = bare.2.entity ∧ P whole.2.entity :=
    entity_after_filter hsteady hstatic ps hmoves rfl hx
  obtain ⟨hout, hentity⟩ := agree_of_static hsteady hstatic next ps hsame hready
  refine ⟨hout, fun field => ?_⟩
  unfold Session.observe
  rw [hentity]

end Steady

/-! ### Changes from outside -/

variable [Accessor ρ]

/-- A direct write to some field. -/
def write (name : String) (v : Datum) : Move ρ :=
  .touch fun r => ((Accessor.write name v r).1.map fun _ => .nothing, (Accessor.write name v r).2)

/-- The entity is persisted without any check. -/
def store (persist : ρ → ρ) : Move ρ := .touch fun r => (.ok .nothing, persist r)

/-- An attribute is set on the object itself, behind the tracking. -/
def set (name : String) (v : Datum) : Move Tracked :=
  .touch fun t => match t.object.set name v with
    | .ok o => (.ok .nothing, { t with object := o })
    | .error e => (.error e, t)

variable {flows : Flows} {persist : ρ → ρ} {P : ρ → Prop}

theorem leaves_write (h : Steady flows persist P) (name : String) (v : Datum) :
    (write name v).Leaves P := fun r hr => h.write r name v hr

end Move

/-! ## Records and tracked objects whose fields stay -/

/-- The record has the columns of all flows. -/
def Record.Serves (flows : Flows) (r : Record) : Prop := ∀ i, r.hasColumn (flows i).field = true

/-- The object has the attributes of all flows, and they are tracked. -/
def Tracked.Serves (flows : Flows) (t : Tracked) : Prop :=
  ∀ i, (t.object.get? (flows i).field).isSome = true ∧ (flows i).field ∈ t.tracked

theorem Record.steady (flows : Flows) : Steady flows Record.persist (Record.Serves flows) where
  hasField _ i h := h i
  read _ _ _ := rfl
  write _ _ _ h := h
  persist _ h := h

theorem Object.isSome_get?_set {o o' : Object} {name other : String} {v : Datum}
    (hset : o.set name v = .ok o') (h : (o.get? other).isSome = true) :
    (o'.get? other).isSome = true := by
  unfold Object.set at hset
  split at hset
  · cases hset
    unfold Object.get?
    dsimp only
    rw [Table.get?_put (.inl (Table.exact_of_lawful _))]
    split
    · rfl
    · exact h
  · cases hset

namespace Tracked

variable {flows : Flows} {t : Tracked}

theorem Serves.track (h : t.Serves flows) (name : String) : (t.track name).Serves flows := by
  intro i
  rw [object_track]
  exact ⟨(h i).1, mem_track_iff.2 (.inl (h i).2)⟩

theorem Serves.set (h : t.Serves flows) {name : String} {v : Datum} {o : Object}
    (hset : t.object.set name v = .ok o) : Serves flows { t with object := o } :=
  fun i => ⟨Object.isSome_get?_set hset (h i).1, (h i).2⟩

theorem Serves.write (h : t.Serves flows) (name : String) (v : Datum) :
    (t.write name v).2.Serves flows := by
  unfold Tracked.write
  dsimp only
  cases hset : (t.track name).object.set name v with
  | ok o => exact (h.track name).set hset
  | error e => exact h.track name

theorem steady (flows : Flows) : Steady flows Tracked.markPersisted (Tracked.Serves flows) where
  hasField _ i h := (h i).1
  read _ i h := track_of_mem (h i).2
  write _ name v h := h.write name v
  persist _ h := h

end Tracked

theorem Move.leaves_set (flows : Flows) (name : String) (v : Datum) :
    (Move.set name v).Leaves (Tracked.Serves flows) := by
  intro t ht
  dsimp only
  split
  · rename_i o hset
    exact ht.set hset
  · exact ht

namespace Session

open Move (SameSeen)

/-- Inspections leave no trace. With static rules only, on a record that has the columns of all
flows and on an object whose attributes for them are there and tracked, inspections may be inserted
anywhere into a run in which nothing from outside takes these away, as no write and no snapshot
does: whatever comes next has the same outcome, and the same can be seen of every field then. -/
theorem inspections_unnoticed (flows : Flows) (hstatic : ∀ i, (flows i).definition.OnlyStatic)
    (ps : Producers) :
    (∀ (x : Journal × Session Record) (moves : List (Move Record)) (next : Move Record),
      x.2.entity.Serves flows → (∀ move ∈ moves, move.Leaves (Record.Serves flows)) →
        let whole := Move.after flows Record.persist ps moves x
        let bare := Move.after flows Record.persist ps (moves.filter fun m => !m.inspects) x
        SameSeen ((next.act flows Record.persist).run ps whole.1 whole.2)
          ((next.act flows Record.persist).run ps bare.1 bare.2)) ∧
    ∀ (x : Journal × Session Tracked) (moves : List (Move Tracked)) (next : Move Tracked),
      x.2.entity.Serves flows → (∀ move ∈ moves, move.Leaves (Tracked.Serves flows)) →
        let whole := Move.after flows Tracked.markPersisted ps moves x
        let bare := Move.after flows Tracked.markPersisted ps (moves.filter fun m => !m.inspects) x
        SameSeen ((next.act flows Tracked.markPersisted).run ps whole.1 whole.2)
          ((next.act flows Tracked.markPersisted).run ps bare.1 bare.2) :=
  ⟨fun _ _ next hserves hmoves =>
      Move.sameSeen_after_filter (Record.steady flows) hstatic ps hmoves next hserves,
    fun _ _ next hserves hmoves =>
      Move.sameSeen_after_filter (Tracked.steady flows) hstatic ps hmoves next hserves⟩

/-- An order is paid after it was lost, while another flow asks about it and checks fail. -/
def inspectedPayment : List (Move Tracked) :=
  [.operate 1 .currentStatus, .commit 0, .operate 1 .nextStatuses,
    .write "status" (.text "lost"), .operate 0 .validateBeforeCommit, .operate 1 .statusLabel,
    .set "status" (.text "paid"), .operate 1 (.dropdown true)]

theorem inspectedPayment_unnoticed :
    let flows : Flows := fun _ => { orderFlow with definition := lostOrders }
    let ps : Producers := fun _ _ => .ok .null
    let x := (Journal.empty, start (Tracked.create draftObject ["status"] false))
    let bare : List (Move Tracked) :=
      [.commit 0, .write "status" (.text "lost"), .set "status" (.text "paid")]
    let inspected := Move.after flows Tracked.markPersisted ps inspectedPayment x
    let spared := Move.after flows Tracked.markPersisted ps bare x
    let commit := (Move.commit 0).act flows Tracked.markPersisted
    x.2.entity.Serves flows ∧
      (∀ move ∈ inspectedPayment, move.Leaves (Tracked.Serves flows)) ∧
      inspected.1.events.length = 1 ∧ spared.1.events.length = 0 ∧
      (commit.run ps spared.1 spared.2).1.isOk = true ∧
      SameSeen (commit.run ps inspected.1 inspected.2) (commit.run ps spared.1 spared.2) := by
  intro flows ps x bare inspected spared commit
  have hserves : x.2.entity.Serves flows := fun _ => by decide
  have hleaves : ∀ move ∈ inspectedPayment, move.Leaves (Tracked.Serves flows) := by
    simp only [inspectedPayment, List.forall_mem_cons, List.not_mem_nil, false_implies,
      implies_true, and_true]
    exact ⟨trivial, trivial, trivial, Move.leaves_write (Tracked.steady flows) _ _, trivial,
      trivial, Move.leaves_set flows _ _, trivial⟩
  have hsame := (inspections_unnoticed flows (fun _ => by decide) ps).2 x inspectedPayment
    (.commit 0) hserves hleaves
  exact ⟨hserves, hleaves, by decide, by decide, by decide, hsame⟩

end Session

end Lifecycle
