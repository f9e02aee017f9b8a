import Lifecycle.Proofs.Attachment
import Lifecycle.Session

/-!
# Runs over a record

A run is a list of steps over one record: operations of any number of attachments, direct writes,
changes of the columns and commits. Its steps are taken one after another, and a step that fails does
not stop the run. `commit_cases` says all that a commit behind the check of an attachment can do;
every other step leaves what is persisted (`keeps_persisted`).
-/

namespace Lifecycle

/-- What an attachment can be asked to do. -/
inductive Operation where
  | start
  | propose (status : Datum)
  | currentStatus
  | statusLabel
  | nextStatuses
  | nextActions
  | canTransitionTo (status : Datum)
  | dropdown (action : Bool)
  | validateBeforeCommit

/-- What an operation answers. -/
inductive Answer where
  | nothing
  | truth (b : Bool)
  | datum (d : Datum)
  | statuses (ds : List Datum)
  | labelled (es : List (Datum × Datum))

/-- An operation, as the act that it is. -/
def Operation.act {ρ : Type} [Accessor ρ] (a : Attachment) : Operation → Act (Attached ρ) Answer
  | .start => do
    a.start
    return .nothing
  | .propose status => return .truth (← a.propose status)
  | .currentStatus => return .datum (← a.currentStatus)
  | .statusLabel => return .datum (← a.statusLabel)
  | .nextStatuses => return .statuses (← a.nextStatuses)
  | .nextActions => return .labelled (← a.nextActions)
  | .canTransitionTo status => return .truth (← a.canTransitionTo status)
  | .dropdown action => return .labelled (← Act.ofExcept (a.dropdown action))
  | .validateBeforeCommit => do
    a.validateBeforeCommit
    return .nothing

/-- The attachments of a session, by their numbers. -/
abbrev Flows : Type := Nat → Attachment

/-- A step of a run. -/
inductive Step where
  | operate (flow : Nat) (op : Operation)
  | write (field : String) (value : Datum)
  | addColumn (name : String)
  | dropColumn (name : String)
  | commit (gate : Option Nat)

namespace Step

/-- A step, as the act that it is. -/
def act (flows : Flows) : Step → Act (Session Record) Answer
  | .operate i op => Session.of i (op.act (flows i))
  | .write field value => do
    Session.writeField field value
    return .nothing
  | .addColumn name => do
    Session.change fun r => r.addColumn name
    return .nothing
  | .dropColumn name => do
    Session.change fun r => r.dropColumn name
    return .nothing
  | .commit gate => do
    Session.commit (gate.map fun i => (i, flows i))
    return .nothing

/-- Commits wait for the check of one attachment; every other step is free. -/
def GatedBy (i : Nat) : Step → Prop
  | .commit gate => gate = some i
  | _ => True

instance (i : Nat) : DecidablePred (GatedBy i)
  | .commit gate => inferInstanceAs (Decidable (gate = some i))
  | .operate .. => .isTrue trivial
  | .write .. => .isTrue trivial
  | .addColumn _ => .isTrue trivial
  | .dropColumn _ => .isTrue trivial

end Step

namespace Session

/-- The journal and the session after a run. -/
def after (flows : Flows) (ps : Producers) (steps : List Step) (x : Journal × Session Record) :
    Journal × Session Record :=
  Act.after ps (steps.map (Step.act flows)) x

/-- The session after an attachment made sure of its field. -/
def note {ρ : Type} (i : Nat) (s : Session ρ) : Session ρ :=
  { s with checked := fun j => if j = i then true else s.checked j }

variable {flows : Flows} {ps : Producers} {j : Journal} {i : Nat}

theorem after_append (steps steps' : List Step) (x : Journal × Session Record) :
    after flows ps (steps ++ steps') x = after flows ps steps' (after flows ps steps x) := by
  unfold after
  rw [List.map_append, Act.after_append]

/-- What holds at first and is kept by each step of a run holds after the run. -/
theorem after_induction {P : Journal × Session Record → Prop} {steps : List Step}
    {x : Journal × Session Record} (hx : P x)
    (hstep : ∀ st ∈ steps, ∀ y, P y → P ((st.act flows).run ps y.1 y.2).2) :
    P (after flows ps steps x) := by
  refine Act.after_induction hx fun act hact y hy => ?_
  obtain ⟨st, hst, rfl⟩ := List.mem_map.1 hact
  exact hstep st hst y hy

theorem update_view {ρ : Type} (i : Nat) (s : Session ρ) : update i (s.view i) s = s := by
  unfold update view
  congr 1
  funext k
  split
  · rename_i h
    rw [h]
  · rfl

/-! ## Steps that persist nothing -/

/-- An operation changes a record only by staging a value of its own field. -/
theorem keeps_operation {γ : Type} {f : Record → γ} {a : Attachment}
    (h : ∀ r v, f (r.stage a.field v) = f r) (op : Operation) :
    Act.Keeps (fun s : Attached Record => f s.entity) (op.act a) := by
  have hentity {α : Type} {act : Act (Attached Record) α} (h : Act.Keeps Attached.entity act) :
      Act.Keeps (fun s : Attached Record => f s.entity) act :=
    fun ps j s => congrArg f (h ps j s)
  have hwrite (status : Datum) :
      Act.Keeps (fun s : Attached Record => f s.entity) (a.writeStatus status) :=
    fun _ _ s => h s.entity status
  cases op with
  | start =>
    exact ((hentity (Attachment.keeps_requireField a)).bind fun _ => hwrite _).bind fun _ =>
      Act.keeps_pure _ _
  | propose status =>
    refine ((hentity (Attachment.keeps_requireField a)).bind fun _ =>
      (hentity (Attachment.keeps_readStatus a)).bind fun current => ?_).bind fun _ =>
        Act.keeps_pure _ _
    split
    · exact Act.keeps_pure _ _
    · exact (hwrite status).bind fun _ => Act.keeps_pure _ _
  | currentStatus =>
    exact (hentity (Attachment.keeps_currentStatus a)).bind fun _ => Act.keeps_pure _ _
  | statusLabel => exact (hentity (Attachment.keeps_statusLabel a)).bind fun _ => Act.keeps_pure _ _
  | nextStatuses =>
    exact (hentity (Attachment.keeps_nextStatuses a)).bind fun _ => Act.keeps_pure _ _
  | nextActions => exact (hentity (Attachment.keeps_nextActions a)).bind fun _ => Act.keeps_pure _ _
  | canTransitionTo status =>
    exact (hentity (Attachment.keeps_canTransitionTo a status)).bind fun _ => Act.keeps_pure _ _
  | dropdown action => exact (Act.keeps_ofExcept _ _).bind fun _ => Act.keeps_pure _ _
  | validateBeforeCommit =>
    exact (hentity (Attachment.keeps_validateBeforeCommit a)).bind fun _ => Act.keeps_pure _ _

/-- Only a commit changes what is persisted. -/
theorem keeps_persisted {st : Step} (h : ∀ gate, st ≠ .commit gate) :
    Act.Keeps (fun s : Session Record => s.entity.persisted) (st.act flows) := by
  cases st with
  | operate k op =>
    exact (keeps_operation (f := Record.persisted) (fun _ _ => rfl) op).zoom (fun _ => rfl)
      fun _ _ => rfl
  | write field value => exact fun _ _ _ => rfl
  | addColumn name => exact fun _ _ _ => rfl
  | dropColumn name => exact fun _ _ _ => rfl
  | commit gate => exact absurd rfl (h gate)

/-! ## Commits -/

theorem run_of {ρ α : Type} (i : Nat) (act : Act (Attached ρ) α) (s : Session ρ) :
    (of i act).run ps j s =
      ((act.run ps j (s.view i)).1, (act.run ps j (s.view i)).2.1,
        s.update i (act.run ps j (s.view i)).2.2) := rfl

/-- Persists an entity in some way after the check of an attachment has passed. -/
def commitBy {ρ : Type} [Accessor ρ] (persist : ρ → ρ) (i : Nat) (a : Attachment) :
    Act (Session ρ) Unit := do
  of i a.validateBeforeCommit
  change persist

theorem run_commitBy_of_missing {ρ : Type} [Accessor ρ] {persist : ρ → ρ} {a : Attachment}
    {s : Session ρ} (h : (s.view i).finds a = false) :
    (commitBy persist i a).run ps j s = (.error (.missingAttribute a.field a.entityKind), j, s) := by
  simp only [commitBy, Act.run_bind, run_of, Attachment.run_validateBeforeCommit_of_missing h,
    update_view]

theorem run_commitBy_of_found {ρ : Type} [Accessor ρ] {persist : ρ → ρ} {a : Attachment}
    {s : Session ρ} (h : (s.view i).finds a = true) :
    (commitBy persist i a).run ps j s =
      match ((s.view i).validation a).outcome ps j with
      | (.ok _, j') =>
        (.ok (), j', { s.note i with entity := persist (Accessor.read a.field s.entity).2 })
      | (.error e, j') =>
        (.error e, j', { s.note i with entity := (Accessor.read a.field s.entity).2 }) := by
  simp only [commitBy, Act.run_bind, run_of, Attachment.run_validateBeforeCommit h]
  rcases ((s.view i).validation a).outcome ps j with ⟨_ | _, j'⟩ <;> rfl

/-- A record is committed by persisting what is staged. -/
theorem act_commit (flows : Flows) (i : Nat) :
    (Step.commit (some i)).act flows = do
      commitBy Record.persist i (flows i)
      return .nothing := rfl

theorem run_commit_of_missing {s : Session Record} (h : (s.view i).finds (flows i) = false) :
    ((Step.commit (some i)).act flows).run ps j s =
      (.error (.missingAttribute (flows i).field (flows i).entityKind), j, s) := by
  rw [act_commit, Act.run_bind, run_commitBy_of_missing h]

theorem run_commit_of_found {s : Session Record} (h : (s.view i).finds (flows i) = true) :
    ((Step.commit (some i)).act flows).run ps j s =
      match ((s.view i).validation (flows i)).outcome ps j with
      | (.ok _, j') => (.ok .nothing, j', { s.note i with entity := s.entity.persist })
      | (.error e, j') => (.error e, j', s.note i) := by
  rw [act_commit, Act.run_bind, run_commitBy_of_found h]
  rcases ((s.view i).validation (flows i)).outcome ps j with ⟨_ | _, j'⟩ <;> rfl

/-- A commit behind the check of an attachment either fails and leaves the record, or has passed the
validation of the staged status against the persisted one and persists what is staged. -/
theorem commit_cases (flows : Flows) (i : Nat) (ps : Producers) (j : Journal)
    (s : Session Record) :
    let done := ((Step.commit (some i)).act flows).run ps j s
    (∃ e, done.1 = .error e ∧ done.2.2.entity = s.entity) ∨
      done.1 = .ok .nothing ∧ done.2.2.entity = s.entity.persist ∧
        ((s.view i).validation (flows i)).outcome ps j = (.ok (), done.2.1) := by
  intro done
  have hdone : done = ((Step.commit (some i)).act flows).run ps j s := rfl
  cases h : (s.view i).finds (flows i) with
  | false =>
    rw [run_commit_of_missing h] at hdone
    rw [hdone]
    exact .inl ⟨_, rfl, rfl⟩
  | true =>
    rw [run_commit_of_found h] at hdone
    rcases hv : ((s.view i).validation (flows i)).outcome ps j with ⟨e | _, j'⟩
    · rw [hv] at hdone
      rw [hdone]
      exact .inl ⟨e, rfl, rfl⟩
    · rw [hv] at hdone
      rw [hdone]
      exact .inr ⟨rfl, rfl, rfl⟩

end Session

end Lifecycle
