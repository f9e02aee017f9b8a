import Lifecycle.Proofs.Asking

/-!
# How operations make sure of the status field

Every operation but the dropdown makes sure of the status field before anything else
(`Operation.makesSure`). Where the field is not found it fails and does nothing else. Where it is
found the attachment has made sure of it afterwards, and if the operation still fails for want of a
field, then because the one producer that it called raised just that failure (`Operation.relays`).
-/

namespace Lifecycle

open Act (Keeps)

variable {σ τ α β ρ : Type} {ps : Producers} {j : Journal}

/-! ## Failures that are passed on -/

namespace Act

variable {P : σ → Prop} {e : Failure} {act : Act σ α} {next : α → Act σ β}

/-- From the states that `P` admits the act calls nobody and does not fail with `e`. -/
def Spares (P : σ → Prop) (e : Failure) (act : Act σ α) : Prop :=
  ∀ ps j s, P s → (act.run ps j s).1 ≠ .error e ∧ (act.run ps j s).2.1.calls = j.calls

/-- From the states that `P` admits the act fails with `e` just when the one producer that it called
did. -/
def Relays (P : σ → Prop) (e : Failure) (act : Act σ α) : Prop :=
  ∀ ps j s, P s → ((act.run ps j s).1 = .error e ↔
    ∃ p, (act.run ps j s).2.1.calls = j.calls ++ [p] ∧ ps p (j.calls.count p) = .error e)

theorem spares_pure (P : σ → Prop) (e : Failure) (a : α) : Spares P e (pure a : Act σ α) :=
  fun _ _ _ _ => ⟨by simp, rfl⟩

theorem spares_fail {e' : Failure} (h : e' ≠ e) : Spares P e (fail e' : Act σ α) :=
  fun _ _ _ _ => ⟨by simpa using h, rfl⟩

theorem spares_ofExcept {r : Except Failure α} (h : r ≠ .error e) :
    Spares P e (ofExcept r : Act σ α) :=
  fun _ _ _ _ => ⟨h, rfl⟩

theorem Spares.relays (h : Spares P e act) : Relays P e act := by
  intro ps j s hs
  obtain ⟨hout, hcalls⟩ := h ps j s hs
  rw [hcalls]
  simp [hout]

theorem Spares.bind (h : Spares P e act) (hnext : ∀ a, Spares (fun _ => True) e (next a)) :
    Spares P e (act >>= next) := by
  intro ps j s hs
  have hact := h ps j s hs
  rw [run_bind]
  rcases hrun : act.run ps j s with ⟨e' | a, j', s'⟩
  · rw [hrun] at hact
    exact ⟨fun heq => hact.1 (congrArg _ (Except.error.inj heq)), hact.2⟩
  · rw [hrun] at hact
    obtain ⟨hout, hcalls⟩ := hnext a ps j' s' trivial
    exact ⟨hout, hcalls.trans hact.2⟩

/-- What follows an act that calls nobody may pass the failure on. -/
theorem Spares.bind_relays (h : Spares P e act)
    (hnext : ∀ a, Relays (fun _ => True) e (next a)) : Relays P e (act >>= next) := by
  intro ps j s hs
  have hact := h ps j s hs
  rw [run_bind]
  rcases hrun : act.run ps j s with ⟨e' | a, j', s'⟩
  · rw [hrun] at hact
    obtain ⟨hout, hcalls⟩ := hact
    dsimp only at hout hcalls ⊢
    rw [hcalls]
    have hne : e' ≠ e := fun heq => hout (congrArg _ heq)
    simp [hne]
  · rw [hrun] at hact
    have hcalls : j'.calls = j.calls := hact.2
    have hlast := hnext a ps j' s' trivial
    rwa [hcalls] at hlast

theorem Relays.bind_spares (h : Relays P e act) (hnext : ∀ a, Spares (fun _ => True) e (next a)) :
    Relays P e (act >>= next) := by
  intro ps j s hs
  have hact := h ps j s hs
  rw [run_bind]
  rcases hrun : act.run ps j s with ⟨e' | a, j', s'⟩
  · rw [hrun] at hact
    rw [← hact]
    simp
  · rw [hrun] at hact
    obtain ⟨hout, hcalls⟩ := hnext a ps j' s' trivial
    dsimp only
    rw [hcalls, ← hact]
    simp [hout]

/-- Reading the outcome of an act keeps the failure if it fails with nothing else so. -/
theorem Relays.attempt_bind {next : Except Failure α → Act σ β} (h : Relays P e act)
    (hquiet : ∀ r, Quiet (next r))
    (hnext : ∀ r ps j s, ((next r).run ps j s).1 = .error e ↔ r = .error e) :
    Relays P e (act.attempt >>= next) := by
  intro ps j s hs
  rw [run_bind, run_attempt]
  dsimp only
  rw [hquiet, hnext]
  exact h ps j s hs

/-- An act on one part of the state passes on what it does there. -/
theorem Relays.zoom {get : τ → σ} {set : σ → τ → τ} (h : Relays P e act) :
    Relays (fun t => P (get t)) e (act.zoom get set) :=
  fun ps j t ht => h ps j (get t) ht

end Act

open Act (Spares Relays)

variable {name : String} {kind : Option String}

/-- A look-up by key fails only where there is no key. -/
theorem Datum.map_key_ne_missing (s : Datum) (lookup : Datum → α) :
    s.key.map lookup ≠ .error (.missingAttribute name kind) := by
  unfold Datum.key
  split
  · simp [Except.map]
  · simp [Except.map]

theorem Failure.worded_rejection_ne_missing (r : Rejection) :
    (Failure.rejection r).worded ≠ .missingAttribute name kind :=
  Failure.worded_ne nofun nofun

theorem Rule.relays_resolve (rule : Rule) (status : Datum) :
    Relays (fun _ => True) (.missingAttribute name kind) (rule.resolve status : Act σ Targets) := by
  cases rule with
  | static targets => exact (Act.spares_pure _ _ _).relays
  | unsupported kind => exact (Act.spares_fail (Failure.worded_rejection_ne_missing _)).relays
  | deferred p =>
    intro ps j s _
    rw [run_resolve, outcome_resolve_deferred]
    have hsame : (∃ q, j.calls ++ [p] = j.calls ++ [q] ∧
        ps q (j.calls.count q) = .error (.missingAttribute name kind)) ↔
        ps p (j.calls.count p) = .error (.missingAttribute name kind) := by simp
    refine Iff.trans ?_ hsame.symm
    cases ps p (j.calls.count p) with
    | error e =>
      change (Except.error e : Except Failure Targets) = _ ↔ _
      simp
    | ok answer =>
      change targetsOf status answer = _ ↔ _
      simp only [reduceCtorEq, iff_false]
      intro herror
      obtain ⟨reason, heq⟩ := targetsOf_error herror
      exact Failure.worded_rejection_ne_missing _ heq.symm

namespace Definition

theorem hasStatus_ne_missing (d : Definition) (s : Datum) :
    d.hasStatus s ≠ .error (.missingAttribute name kind) := s.map_key_ne_missing _

theorem labelOf_ne_missing (d : Definition) (action : Bool) (s : Datum) :
    d.labelOf action s ≠ .error (.missingAttribute name kind) := by
  cases action with
  | false => exact s.map_key_ne_missing _
  | true => exact s.map_key_ne_missing _

theorem labelEach_ne_missing (d : Definition) (action : Bool) (statuses : List Datum) :
    d.labelEach action statuses ≠ .error (.missingAttribute name kind) := by
  unfold labelEach
  induction statuses with
  | nil => simp [Pure.pure, Except.pure]
  | cons s statuses ih =>
    have hlabel : d.labelOf action s ≠ .error (.missingAttribute name kind) :=
      d.labelOf_ne_missing action s
    rw [List.mapM_cons]
    cases h : d.labelOf action s with
    | error e => simpa [Except.map, Bind.bind, Except.bind, h] using hlabel
    | ok l =>
      simp only [Except.map, Bind.bind, Except.bind]
      split
      · rename_i heq
        rwa [← heq]
      · simp [Pure.pure, Except.pure]

theorem relays_transitionsFrom (d : Definition) (status : Datum) :
    Relays (fun _ => True) (.missingAttribute name kind)
      (d.transitionsFrom status : Act σ Targets) := by
  have hnode : d.node status ≠ .error (.missingAttribute name kind) :=
    status.map_key_ne_missing _
  refine (Act.spares_ofExcept hnode).bind_relays fun found => ?_
  cases found with
  | none => exact (Act.spares_fail (Failure.worded_rejection_ne_missing _)).relays
  | some n => exact n.rule.relays_resolve status

theorem relays_orderedTransitions (d : Definition) (status : Datum) :
    Relays (fun _ => True) (.missingAttribute name kind)
      (d.orderedTransitions status : Act σ (List Datum)) :=
  (d.relays_transitionsFrom status).bind_spares fun _ => Act.spares_pure _ _ _

end Definition

namespace Transition

theorem relays_require (d : Definition) (previous next : Datum) :
    Relays (fun _ => True) (.missingAttribute name kind)
      (require d previous next : Act σ Unit) := by
  refine (Act.spares_ofExcept (d.hasStatus_ne_missing next)).bind_relays fun known => ?_
  cases known with
  | false => exact (Act.spares_fail (Failure.worded_rejection_ne_missing _)).relays
  | true =>
    refine (d.relays_transitionsFrom previous).bind_spares fun targets => ?_
    split
    · exact Act.spares_pure _ _ _
    · exact Act.spares_fail (Failure.worded_rejection_ne_missing _)

theorem relays_validate (d : Definition) (previous next : Datum) (isNew : Bool) :
    Relays (fun _ => True) (.missingAttribute name kind)
      (validate d previous next isNew : Act σ Unit) := by
  unfold validate
  split
  · exact (Act.spares_pure _ _ _).relays
  · refine (relays_require d previous next).attempt_bind (fun r => ?_) fun r ps j s => ?_
    · split
      · exact fun _ _ _ => rfl
      · exact fun _ _ _ => rfl
      · exact Act.quiet_fail _
    · split
      · simp
      · simp [Act.run_bind]
      · simp

end Transition

/-! ## Acts that make sure of the field -/

section MakesSure

variable [Accessor ρ] {a : Attachment}

/-- Where the field is not found the act does nothing but fail; where it is found, the attachment
has made sure of it afterwards, and it does not matter whether it had before. -/
structure MakesSure (a : Attachment) (act : Act (Attached ρ) α) : Prop where
  missing : ∀ ps j s, s.finds a = false →
    act.run ps j s = (.error (.missingAttribute a.field a.entityKind), j, s)
  found : ∀ ps j s, s.finds a = true → (act.run ps j s).2.2.checked = true
  again : ∀ ps j s, s.finds a = true → act.run ps j s = act.run ps j { s with checked := true }

theorem MakesSure.bind {act : Act (Attached ρ) α} {next : α → Act (Attached ρ) β}
    (h : MakesSure a act) (hnext : ∀ x, Keeps Attached.checked (next x)) :
    MakesSure a (act >>= next) := by
  constructor
  · intro ps j s hs
    rw [Act.run_bind, h.missing ps j s hs]
  · intro ps j s hs
    have hchecked := h.found ps j s hs
    rw [Act.run_bind]
    rcases hrun : act.run ps j s with ⟨_ | x, j', s'⟩
    · rwa [hrun] at hchecked
    · rw [hrun] at hchecked
      exact (hnext x ps j' s').trans hchecked
  · intro ps j s hs
    rw [Act.run_bind, Act.run_bind, h.again ps j s hs]

namespace Attachment

theorem makesSure_requireField (a : Attachment) :
    MakesSure a (a.requireField : Act (Attached ρ) Unit) := by
  constructor
  · intro ps j s hs
    rw [run_requireField, hs]
    rfl
  · intro ps j s hs
    rw [run_requireField, hs]
    rfl
  · intro ps j s hs
    rw [run_requireField, hs]
    rfl

theorem keeps_checked_readStatus (a : Attachment) :
    Keeps Attached.checked (a.readStatus : Act (Attached ρ) Datum) := fun _ _ _ => rfl

theorem keeps_checked_writeStatus (a : Attachment) (status : Datum) :
    Keeps Attached.checked (a.writeStatus status : Act (Attached ρ) Unit) := fun _ _ _ => rfl

theorem makesSure_currentStatus (a : Attachment) :
    MakesSure a (a.currentStatus : Act (Attached ρ) Datum) :=
  a.makesSure_requireField.bind fun _ => a.keeps_checked_readStatus

theorem makesSure_nextStatuses (a : Attachment) :
    MakesSure a (a.nextStatuses : Act (Attached ρ) (List Datum)) := by
  refine a.makesSure_currentStatus.bind fun current => (Act.keeps_ofExcept _ _).bind fun known => ?_
  cases known with
  | false => exact Act.keeps_pure _ _
  | true => exact (keeps_transitionsFrom _ _ _).bind fun _ => Act.keeps_pure _ _

theorem makesSure_canTransitionTo (a : Attachment) (status : Datum) :
    MakesSure a (a.canTransitionTo status : Act (Attached ρ) Bool) := by
  refine a.makesSure_currentStatus.bind fun current => ?_
  split
  · exact Act.keeps_pure _ _
  split
  · exact Act.keeps_pure _ _
  refine (Act.keeps_ofExcept _ _).bind fun known => ?_
  cases known with
  | false => exact Act.keeps_pure _ _
  | true =>
    refine (keeps_transitionsFrom _ _ _).attempt.bind fun answer => ?_
    split
    · exact Act.keeps_pure _ _
    · exact Act.keeps_pure _ _
    · exact Act.keeps_fail _ _

theorem makesSure_validateBeforeCommit (a : Attachment) :
    MakesSure a (a.validateBeforeCommit : Act (Attached ρ) Unit) :=
  a.makesSure_requireField.bind fun _ => (Act.keeps_getState _).bind fun _ =>
    a.keeps_checked_readStatus.bind fun _ => (Act.keeps_getState _).bind fun _ =>
      keeps_validate _ _ _ _ _

end Attachment

/-- The operation makes sure of the status field. -/
def Operation.Checks : Operation → Prop
  | .dropdown _ => False
  | _ => True

theorem Operation.makesSure {op : Operation} (h : op.Checks) (a : Attachment) :
    MakesSure a (op.act a : Act (Attached ρ) Answer) := by
  have hanswer {α : Type} {act : Act (Attached ρ) α} (h : MakesSure a act) (f : α → Answer) :
      MakesSure a (act >>= fun x => pure (f x)) := h.bind fun _ => Act.keeps_pure _ _
  cases op with
  | start =>
    exact hanswer (a.makesSure_requireField.bind fun _ => a.keeps_checked_writeStatus _) _
  | propose status =>
    refine hanswer (a.makesSure_requireField.bind fun _ =>
      a.keeps_checked_readStatus.bind fun current => ?_) _
    split
    · exact Act.keeps_pure _ _
    · exact (a.keeps_checked_writeStatus status).bind fun _ => Act.keeps_pure _ _
  | currentStatus => exact hanswer a.makesSure_currentStatus _
  | statusLabel =>
    exact hanswer (a.makesSure_currentStatus.bind fun _ => Act.keeps_ofExcept _ _) _
  | nextStatuses => exact hanswer a.makesSure_nextStatuses _
  | nextActions =>
    exact hanswer (a.makesSure_nextStatuses.bind fun _ => Act.keeps_ofExcept _ _) _
  | canTransitionTo status => exact hanswer (a.makesSure_canTransitionTo status) _
  | dropdown action => exact h.elim
  | validateBeforeCommit => exact hanswer a.makesSure_validateBeforeCommit _

theorem Operation.run_dropdown (a : Attachment) (action : Bool) (s : Attached ρ) :
    ((Operation.dropdown action).act a).run ps j s =
      ((a.dropdown action).map Answer.labelled, j, s) := by
  change (Act.ofExcept (a.dropdown action) >>= _).run ps j s = _
  rw [Act.run_bind, Act.run_ofExcept]
  cases a.dropdown action <;> rfl

end MakesSure

/-! ## What an operation fails with once its field is found -/

section Found

variable [Accessor ρ]

/-- Writing a field does not fail as the check of a status field does. -/
def Accessor.FailsOtherwise (ρ : Type) [Accessor ρ] : Prop :=
  ∀ (field : String) (v : Datum) (r : ρ) (name : String) (kind : Option String),
    (Accessor.write field v r).1 ≠ .error (.missingAttribute name kind)

theorem Record.failsOtherwise : Accessor.FailsOtherwise Record := fun _ _ _ _ _ => by
  simp [Accessor.write]

theorem Tracked.failsOtherwise : Accessor.FailsOtherwise Tracked := by
  intro field v t name kind
  change (t.write field v).1 ≠ _
  unfold Tracked.write
  dsimp only
  cases h : (t.track field).object.set field v with
  | ok o => simp
  | error e =>
    unfold Object.set at h
    split at h
    · cases h
    · cases h
      simp

namespace Attachment

variable (a : Attachment)

theorem spares_requireField :
    Spares (fun s : Attached ρ => s.finds a = true) (.missingAttribute name kind)
      a.requireField := by
  intro ps j s hs
  rw [run_requireField, if_pos hs]
  exact ⟨by simp, rfl⟩

theorem spares_readStatus (P : Attached ρ → Prop) :
    Spares P (.missingAttribute name kind) a.readStatus :=
  fun _ _ _ _ => ⟨by simp [run_readStatus], rfl⟩

theorem spares_writeStatus (h : Accessor.FailsOtherwise ρ) (P : Attached ρ → Prop)
    (status : Datum) : Spares P (.missingAttribute name kind) (a.writeStatus status) :=
  fun _ _ s _ => ⟨h a.field status s.entity name kind, rfl⟩

theorem spares_currentStatus :
    Spares (fun s : Attached ρ => s.finds a = true) (.missingAttribute name kind)
      a.currentStatus :=
  a.spares_requireField.bind fun _ => a.spares_readStatus _

theorem relays_nextStatuses :
    Relays (fun s : Attached ρ => s.finds a = true) (.missingAttribute name kind)
      a.nextStatuses := by
  refine a.spares_currentStatus.bind_relays fun current => ?_
  refine (Act.spares_ofExcept (a.definition.hasStatus_ne_missing current)).bind_relays
    fun known => ?_
  cases known with
  | false => exact (Act.spares_pure _ _ _).relays
  | true => exact a.definition.relays_orderedTransitions current

theorem relays_canTransitionTo (status : Datum) :
    Relays (fun s : Attached ρ => s.finds a = true) (.missingAttribute name kind)
      (a.canTransitionTo status) := by
  refine a.spares_currentStatus.bind_relays fun current => ?_
  split
  · exact (Act.spares_pure _ _ _).relays
  split
  · exact (Act.spares_pure _ _ _).relays
  refine (Act.spares_ofExcept (a.definition.hasStatus_ne_missing status)).bind_relays
    fun known => ?_
  cases known with
  | false => exact (Act.spares_pure _ _ _).relays
  | true =>
    refine (a.definition.relays_transitionsFrom current).attempt_bind (fun r => ?_)
      fun r ps j s => ?_
    · split
      · exact Act.quiet_pure _
      · exact Act.quiet_pure _
      · exact Act.quiet_fail _
    · split
      · simp
      · simp
      · simp

theorem relays_validateBeforeCommit :
    Relays (fun s : Attached ρ => s.finds a = true) (.missingAttribute name kind)
      a.validateBeforeCommit := by
  intro ps j s hs
  rw [run_validateBeforeCommit hs]
  exact Transition.relays_validate _ _ _ _ ps j () trivial

end Attachment

/-- An operation whose field is found fails for want of a field just when its producer did. -/
theorem Operation.relays (h : Accessor.FailsOtherwise ρ) (a : Attachment) (op : Operation) :
    Relays (fun s : Attached ρ => s.finds a = true) (.missingAttribute name kind)
      (op.act a) := by
  have hanswer {α : Type} {act : Act (Attached ρ) α}
      (h : Relays (fun s : Attached ρ => s.finds a = true) (.missingAttribute name kind) act)
      (f : α → Answer) : Relays (fun s : Attached ρ => s.finds a = true)
        (.missingAttribute name kind) (act >>= fun x => pure (f x)) :=
    h.bind_spares fun _ => Act.spares_pure _ _ _
  cases op with
  | start =>
    exact hanswer (a.spares_requireField.bind fun _ => a.spares_writeStatus h _ _).relays _
  | propose status =>
    refine hanswer (a.spares_requireField.bind fun _ =>
      (a.spares_readStatus _).bind fun current => ?_).relays _
    split
    · exact Act.spares_pure _ _ _
    · exact (a.spares_writeStatus h _ status).bind fun _ => Act.spares_pure _ _ _
  | currentStatus => exact hanswer a.spares_currentStatus.relays _
  | statusLabel =>
    exact hanswer (a.spares_currentStatus.bind fun current =>
      Act.spares_ofExcept (a.definition.labelOf_ne_missing false current)).relays _
  | nextStatuses => exact hanswer a.relays_nextStatuses _
  | nextActions =>
    exact hanswer (a.relays_nextStatuses.bind_spares fun next =>
      Act.spares_ofExcept (a.definition.labelEach_ne_missing true next)) _
  | canTransitionTo status => exact hanswer (a.relays_canTransitionTo status) _
  | dropdown action =>
    exact hanswer (Act.spares_ofExcept (a.definition.labelEach_ne_missing action _)).relays _
  | validateBeforeCommit => exact hanswer a.relays_validateBeforeCommit _

end Found

end Lifecycle
