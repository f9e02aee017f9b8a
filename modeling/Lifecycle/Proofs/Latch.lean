import Lifecycle.Proofs.FieldCheck
import Lifecycle.Proofs.Gate

/-!
# The check of the status field latches

Things happen to an entity of any kind (`Move`): flows operate on it or check it before it is
persisted, and anything else may touch it, so that a status field may come and go. A flow fails for
want of its field as long as none of its moves found it there, and then nothing else happens; once
one did, it never does so on its own again (`Move.checked_after_iff`,
`Session.field_check_latches`).
-/

namespace Lifecycle

variable {ρ : Type} [Accessor ρ] {flows : Flows} {persist : ρ → ρ} {ps : Producers} {j : Journal}
  {i : Nat} {s : Session ρ}

/-- Something that happens to an entity: a flow operates on it, it is persisted behind the check of
a flow, or it is touched from outside. -/
inductive Move (ρ : Type) where
  | operate (i : Nat) (op : Operation)
  | commit (i : Nat)
  | touch (f : ρ → Except Failure Answer × ρ)

namespace Move

def act (flows : Flows) (persist : ρ → ρ) : Move ρ → Act (Session ρ) Answer
  | .operate i op => Session.of i (op.act (flows i))
  | .commit i => do
    Session.commitBy persist i (flows i)
    return .nothing
  | .touch f => do
    let s ← Act.getState
    let (outcome, entity) := f s.entity
    Act.setState { s with entity }
    Act.ofExcept outcome

/-- The journal and the session after moves in a row, whatever their outcomes. -/
def after (flows : Flows) (persist : ρ → ρ) (ps : Producers) (moves : List (Move ρ))
    (x : Journal × Session ρ) : Journal × Session ρ :=
  Act.after ps (moves.map (act flows persist)) x

/-- The move makes sure of the field of a flow. -/
def Checks (i : Nat) : Move ρ → Prop
  | .operate k op => k = i ∧ op.Checks
  | .commit k => k = i
  | .touch _ => False

variable {move : Move ρ}

theorem run_of_missing (hmove : move.Checks i) (h : (s.view i).finds (flows i) = false) :
    (move.act flows persist).run ps j s =
      (.error (.missingAttribute (flows i).field (flows i).entityKind), j, s) := by
  cases move with
  | operate k op =>
    obtain ⟨rfl, hop⟩ := hmove
    change (Session.of k (op.act (flows k))).run ps j s = _
    rw [Session.run_of, (op.makesSure hop (flows k)).missing ps j _ h, Session.update_view]
  | commit k =>
    obtain rfl : k = i := hmove
    change (Session.commitBy persist k (flows k) >>= _).run ps j s = _
    rw [Act.run_bind, Session.run_commitBy_of_missing h]
  | touch f => exact hmove.elim

/-- A move whose field is found fails for want of a field just when its producer did. -/
theorem relays_of_found (hwrite : Accessor.FailsOtherwise ρ) {name : String}
    {kind : Option String} (hmove : move.Checks i) :
    Act.Relays (fun s : Session ρ => (s.view i).finds (flows i) = true)
      (.missingAttribute name kind) (move.act flows persist) := by
  cases move with
  | operate k op =>
    obtain ⟨rfl, -⟩ := hmove
    exact (op.relays hwrite (flows k)).zoom
  | commit k =>
    obtain rfl : k = i := hmove
    refine Act.Relays.bind_spares ?_ fun _ => Act.spares_pure _ _ _
    refine ((flows k).relays_validateBeforeCommit.zoom).bind_spares fun _ _ _ _ _ => ⟨?_, rfl⟩
    simp [Session.change, Act.run_bind]
  | touch f => exact hmove.elim

/-- After a move a flow has made sure of its field if it had before, or if the move makes sure of it
and the field was there. -/
theorem checked_run_iff (move : Move ρ) (s : Session ρ) :
    ((move.act flows persist).run ps j s).2.2.checked i = true ↔ s.checked i = true ∨
      move.Checks i ∧ Accessor.hasField s.entity (flows i).entityKind (flows i).field = true := by
  by_cases hmove : move.Checks i
  · have hfinds : (s.view i).finds (flows i) = true ↔ s.checked i = true ∨
        Accessor.hasField s.entity (flows i).entityKind (flows i).field = true :=
      Bool.or_eq_true_iff
    simp only [hmove, true_and]
    rw [← hfinds]
    cases h : (s.view i).finds (flows i) with
    | false =>
      have hchecked : s.checked i = false := (Bool.or_eq_false_iff.1 h).1
      rw [run_of_missing hmove h]
      simp [hchecked]
    | true =>
      simp only [iff_true]
      cases move with
      | operate k op =>
        obtain ⟨rfl, hop⟩ := hmove
        exact (if_pos rfl).trans ((op.makesSure hop (flows k)).found ps j _ h)
      | commit k =>
        obtain rfl : k = i := hmove
        change ((Session.commitBy persist k (flows k) >>= _).run ps j s).2.2.checked k = true
        rw [Act.run_bind, Session.run_commitBy_of_found h]
        rcases ((s.view k).validation (flows k)).outcome ps j with ⟨_ | _, j'⟩
        · exact if_pos rfl
        · exact if_pos rfl
      | touch f => exact hmove.elim
  · simp only [hmove, false_and, or_false]
    cases move with
    | operate k op =>
      by_cases hk : i = k
      · subst hk
        cases op with
        | dropdown action =>
          change ((Session.of i _).run ps j s).2.2.checked i = true ↔ _
          rw [Session.run_of, Operation.run_dropdown, Session.update_view]
        | _ => exact absurd ⟨rfl, trivial⟩ hmove
      · exact iff_of_eq (congrArg (· = true) (if_neg hk))
    | commit k =>
      have hk : i ≠ k := fun heq => hmove heq.symm
      change ((Session.commitBy persist k (flows k) >>= _).run ps j s).2.2.checked i = true ↔ _
      rw [Act.run_bind]
      cases h : (s.view k).finds (flows k) with
      | false => rw [Session.run_commitBy_of_missing h]
      | true =>
        rw [Session.run_commitBy_of_found h]
        rcases ((s.view k).validation (flows k)).outcome ps j with ⟨_ | _, j'⟩
        · exact iff_of_eq (congrArg (· = true) (if_neg hk))
        · exact iff_of_eq (congrArg (· = true) (if_neg hk))
    | touch f => rfl

/-- One of the moves made sure of the field of a flow when the field was there. -/
def Found (flows : Flows) (persist : ρ → ρ) (ps : Producers) (i : Nat) (moves : List (Move ρ))
    (x : Journal × Session ρ) : Prop :=
  ∃ before move later, moves = before ++ move :: later ∧ move.Checks i ∧
    Accessor.hasField (after flows persist ps before x).2.entity (flows i).entityKind
      (flows i).field = true

theorem found_concat_iff {moves : List (Move ρ)} {x : Journal × Session ρ} :
    Found flows persist ps i (moves ++ [move]) x ↔ Found flows persist ps i moves x ∨
      move.Checks i ∧ Accessor.hasField (after flows persist ps moves x).2.entity
        (flows i).entityKind (flows i).field = true := by
  constructor
  · rintro ⟨before, m, later, hsplit, hchecks, hfield⟩
    rcases List.eq_nil_or_concat later with rfl | ⟨later, last, rfl⟩
    · obtain ⟨rfl, heq⟩ := List.append_inj' hsplit rfl
      cases heq
      exact .inr ⟨hchecks, hfield⟩
    · rw [List.concat_eq_append, ← List.cons_append, ← List.append_assoc] at hsplit
      exact .inl ⟨before, m, later, (List.append_inj' hsplit rfl).1, hchecks, hfield⟩
  · rintro (⟨before, m, later, rfl, hchecks, hfield⟩ | ⟨hchecks, hfield⟩)
    · exact ⟨before, m, later ++ [move], by simp, hchecks, hfield⟩
    · exact ⟨moves, move, [], rfl, hchecks, hfield⟩

/-- A flow that starts afresh has made sure of its field just when one of its moves found it. -/
theorem checked_after_iff (flows : Flows) (persist : ρ → ρ) (ps : Producers) (i : Nat)
    (moves : List (Move ρ)) (j : Journal) (entity : ρ) :
    (after flows persist ps moves (j, Session.start entity)).2.checked i = true ↔
      Found flows persist ps i moves (j, Session.start entity) := by
  induction moves using List.reverseRecOn with
  | nil =>
    constructor
    · intro h
      cases h
    · rintro ⟨before, move, later, hsplit, -⟩
      exact absurd hsplit (by simp)
  | append_singleton moves move ih =>
    have hlast : after flows persist ps (moves ++ [move]) (j, Session.start entity) =
        ((move.act flows persist).run ps (after flows persist ps moves (j, Session.start entity)).1
          (after flows persist ps moves (j, Session.start entity)).2).2 := by
      unfold after
      rw [List.map_append, Act.after_append]
      rfl
    rw [hlast, checked_run_iff, ih, found_concat_iff]

/-- What the next move of a flow that makes sure of its field does after a run. It fails for want of
the field if no move of the flow ever found it and it is not there now, and then does nothing else.
With such a failure it fails for that reason or because the one producer that it called raised it.
-/
structure Latched (flows : Flows) (persist : ρ → ρ) (ps : Producers) (i : Nat)
    (moves : List (Move ρ)) (x : Journal × Session ρ) (next : Move ρ) : Prop where
  missing : ¬ Found flows persist ps i moves x →
    Accessor.hasField (after flows persist ps moves x).2.entity (flows i).entityKind
      (flows i).field = false →
    (next.act flows persist).run ps (after flows persist ps moves x).1
        (after flows persist ps moves x).2 =
      (.error (.missingAttribute (flows i).field (flows i).entityKind),
        after flows persist ps moves x)
  missing_iff : ∀ name kind,
    let now := after flows persist ps moves x
    let result := (next.act flows persist).run ps now.1 now.2
    result.1 = .error (.missingAttribute name kind) ↔
      (¬ Found flows persist ps i moves x ∧
        Accessor.hasField now.2.entity (flows i).entityKind (flows i).field = false ∧
        name = (flows i).field ∧ kind = (flows i).entityKind) ∨
      ∃ p, result.2.1.calls = now.1.calls ++ [p] ∧
        ps p (now.1.calls.count p) = .error (.missingAttribute name kind)

theorem latched (hwrite : Accessor.FailsOtherwise ρ) (flows : Flows) (persist : ρ → ρ)
    (ps : Producers) (moves : List (Move ρ)) (j : Journal) (entity : ρ) {next : Move ρ}
    (hnext : next.Checks i) :
    Latched flows persist ps i moves (j, Session.start entity) next := by
  have hfound := checked_after_iff flows persist ps i moves j entity
  generalize hnow : after flows persist ps moves (j, Session.start entity) = now at hfound
  have hmissing (hnot : ¬ Found flows persist ps i moves (j, Session.start entity))
      (habsent : Accessor.hasField now.2.entity (flows i).entityKind (flows i).field = false) :
      (next.act flows persist).run ps now.1 now.2 =
        (.error (.missingAttribute (flows i).field (flows i).entityKind), now) := by
    refine run_of_missing hnext (Bool.or_eq_false_iff.2 ⟨?_, habsent⟩)
    exact Bool.eq_false_iff.2 fun hchecked => hnot (hfound.1 hchecked)
  refine ⟨?_, fun name kind => ?_⟩
  · rw [hnow]
    exact hmissing
  · rw [hnow]
    intro now result
    cases h : (now.2.view i).finds (flows i) with
    | false =>
      obtain ⟨hchecked, habsent⟩ := Bool.or_eq_false_iff.1 h
      have hnot : ¬ Found flows persist ps i moves (j, Session.start entity) :=
        fun hmem => Bool.eq_false_iff.1 hchecked (hfound.2 hmem)
      have hresult : result = _ := hmissing hnot habsent
      rw [hresult]
      constructor
      · intro herror
        cases herror
        exact .inl ⟨hnot, habsent, rfl, rfl⟩
      · rintro (⟨-, -, rfl, rfl⟩ | ⟨p, hcalls, -⟩)
        · rfl
        · exact absurd (List.self_eq_append_right.1 hcalls) (by simp)
    | true =>
      refine (relays_of_found hwrite hnext ps now.1 now.2 h).trans
        ⟨.inr, fun hcases => hcases.resolve_left ?_⟩
      rintro ⟨hnot, habsent, -⟩
      rcases Bool.or_eq_true_iff.1 h with hchecked | hfield
      · exact hnot (hfound.1 hchecked)
      · exact Bool.eq_false_iff.1 habsent hfield

end Move

namespace Session

open Move (Latched)

/-- The check of the status field latches, for each flow on its own, over a record and over a
tracked object alike. The dropdown neither makes sure of the field nor fails for want of one. -/
theorem field_check_latches (flows : Flows) (ps : Producers) (i : Nat) (j : Journal) :
    (∀ (r : Record) (moves : List (Move Record)) (next : Move Record), next.Checks i →
      Latched flows Record.persist ps i moves (j, start r) next) ∧
    (∀ (t : Tracked) (moves : List (Move Tracked)) (next : Move Tracked), next.Checks i →
      Latched flows Tracked.markPersisted ps i moves (j, start t) next) ∧
    ∀ (ρ : Type) [Accessor ρ] (persist : ρ → ρ) (s : Session ρ) (action : Bool),
      let result := ((Move.operate i (.dropdown action)).act flows persist).run ps j s
      (∀ name kind, result.1 ≠ .error (.missingAttribute name kind)) ∧ result.2 = (j, s) := by
  refine ⟨fun r moves next => Move.latched Record.failsOtherwise flows _ ps moves j r,
    fun t moves next => Move.latched Tracked.failsOtherwise flows _ ps moves j t, ?_⟩
  intro ρ _ persist s action result
  have hresult : result = ((((flows i).dropdown action).map Answer.labelled), j, s) := by
    change (of i ((Operation.dropdown action).act (flows i))).run ps j s = _
    rw [run_of, Operation.run_dropdown, update_view]
  rw [hresult]
  refine ⟨fun name kind => ?_, rfl⟩
  have hlabels : (flows i).definition.labelEach action (flows i).definition.statusIds ≠
      .error (.missingAttribute name kind) := Definition.labelEach_ne_missing _ _ _
  unfold Attachment.dropdown
  cases h : (flows i).definition.labelEach action (flows i).definition.statusIds with
  | ok entries => simp [Except.map]
  | error e => simpa [Except.map, h] using hlabels

/-- Two flows on one record: one of them started it before the column was dropped. -/
theorem dropped_column_latched :
    let flows : Flows := fun _ => orderFlow
    let ps : Producers := fun _ _ => .ok .null
    let moves : List (Move Record) :=
      [.operate 0 .start, .touch fun r => (.ok .nothing, r.dropColumn "status")]
    let next : Nat → Move Record := fun i => .operate i .currentStatus
    let now := Move.after flows Record.persist ps moves (.empty, start blank)
    Latched flows Record.persist ps 0 moves (.empty, start blank) (next 0) ∧
      (((next 0).act flows Record.persist).run ps now.1 now.2).1 =
        .ok (.datum (.text "draft")) ∧
      ((next 1).act flows Record.persist).run ps now.1 now.2 =
        (.error (.missingAttribute "status" none), now) := by
  intro flows ps moves next now
  have hlatched (i : Nat) :
      Latched flows Record.persist ps i moves (.empty, start blank) (next i) :=
    (field_check_latches flows ps i .empty).1 blank moves (next i) ⟨rfl, trivial⟩
  have hnot : ¬ Move.Found flows Record.persist ps 1 moves (.empty, start blank) := by
    rw [← Move.checked_after_iff]
    decide
  exact ⟨hlatched 0, by rfl, (hlatched 1).missing hnot (by decide)⟩

/-- A producer may raise the failure for a field that is there. -/
theorem exists_missing_raised :
    ¬ ∀ (flows : Flows) (ps : Producers) (i : Nat) (j : Journal) (r : Record)
      (moves : List (Move Record)) (next : Move Record), next.Checks i →
        let now := Move.after flows Record.persist ps moves (j, start r)
        (∃ name kind, ((next.act flows Record.persist).run ps now.1 now.2).1 =
            .error (.missingAttribute name kind)) ↔
          ¬ Move.Found flows Record.persist ps i moves (j, start r) ∧
            Accessor.hasField now.2.entity (flows i).entityKind (flows i).field = false := by
  intro h
  have hpaid := h (fun _ => orderFlow) (fun _ _ => .error (.missingAttribute "status" none)) 0
    .empty (blank.stage "status" (.text "paid")).persist []
    (.operate 0 (.canTransitionTo (.text "shipped"))) ⟨rfl, trivial⟩
  obtain ⟨-, habsent⟩ := hpaid.1 ⟨_, _, rfl⟩
  exact absurd habsent (by decide)

end Session

end Lifecycle
