import Lifecycle.Proofs.Agreement

/-!
# Failures of producers

A producer may fail, and also with a failure that the library knows itself. What resolves the rule
of a status fails as its producer did. Validation does so too, except that a rejection without a
target may get one on its way (`Failure.PassedOn`). The questions that answer a rejection with no
cannot tell whose rejection it is: they answer a producer's as they answer validation's
(`Failure.inWords`, `Attachment.reading`), and raise every other failure.
-/

namespace Lifecycle

namespace Failure

/-- The failure as it was raised, or the rejection that it was with a target where it had none. -/
inductive PassedOn : Failure → Failure → Prop
  | same (e : Failure) : PassedOn e e
  | targeted {r : Rejection} (h : r.next = .null) (next : Datum) :
      PassedOn (.rejection r) (.rejection { r with next })

theorem PassedOn.message {e e' : Failure} (h : PassedOn e e') : e'.message = e.message := by
  cases h <;> rfl

/-- The answer, in words, to the question whether a transition is permitted that failed: a rejection
is a no. -/
def inWords : Failure → Except Failure (Bool × String)
  | .rejection r => .ok (false, r.message)
  | e => .error e

theorem PassedOn.inWords {e e' : Failure} (h : PassedOn e e') : e'.inWords = e.inWords := by
  have hmessage := h.message
  cases h with
  | same => rfl
  | targeted hnext next => exact congrArg (fun words => Except.ok (false, words)) hmessage

end Failure

open Failure (PassedOn)

variable {ps : Producers} {j : Journal} {d : Definition} {source target : Datum} {e : Failure}

namespace Transition

theorem passedOn_of_concluded (d : Definition) (previous next : Datum) (e : Failure) (j : Journal) :
    ∃ e', (concluded d previous next (.error e) j).1 = .error e' ∧ PassedOn e e' := by
  cases e with
  | rejection r =>
    cases hnull : r.next.isNull with
    | true =>
      refine ⟨.rejection { r with next }, ?_, .targeted ?_ next⟩
      · simp only [concluded, hnull, if_true]
      · cases hnext : r.next with
        | null => rfl
        | _ =>
          rw [hnext] at hnull
          cases hnull
    | false =>
      refine ⟨.rejection r, ?_, .same _⟩
      simp only [concluded, hnull, Bool.false_eq_true, if_false]
  | _ => exact ⟨_, rfl, .same _⟩

theorem outcome_check_of_error {previous next : Datum}
    (h : ((validate d previous next false).outcome ps j).1 = .error e) :
    ((check d previous next).outcome ps j).1 = e.inWords := by
  have hrun : ((validate d previous next false).run ps j ()).1 = .error e := h
  simp only [Act.outcome, check, Act.run_bind, Act.run_attempt, hrun]
  cases e <;> rfl

/-- Where the rule of the previous status fails, validation fails with what is passed on of that. -/
theorem passedOn_of_validate (hkey : target.hashable = true) (hdecl : d.declares target = true)
    (hne : (source == target) = false)
    (hfails : ((d.transitionsFrom source).outcome ps j).1 = .error e) :
    ∃ e', ((validate d source target false).outcome ps j).1 = .error e' ∧ PassedOn e e' := by
  have hchange : (false || source == target) = false := by rw [Bool.false_or, hne]
  rw [outcome_validate_of_change hchange, outcome_require_of_declared hkey hdecl, hfails]
  exact passedOn_of_concluded d source target e _

end Transition

namespace Attachment

variable {ρ : Type} [Accessor ρ] {a : Attachment} {s : Attached ρ}

theorem outcome_nextStatuses_of_error (hfound : s.finds a = true)
    (hkey : (s.staged a).hashable = true) (hdecl : a.definition.declares (s.staged a) = true)
    (hfails : ((a.definition.transitionsFrom (s.staged a)).outcome ps j).1 = .error e) :
    (a.nextStatuses.run ps j s).1 = .error e ∧ (a.nextActions.run ps j s).1 = .error e := by
  have hnext : a.nextStatuses.run ps j s = _ := run_nextStatuses_of_declared hfound hkey hdecl
  rw [hfails] at hnext
  unfold nextActions
  rw [Act.run_bind, hnext]
  exact ⟨rfl, rfl⟩

theorem outcome_canTransitionTo_of_error (hfound : s.finds a = true)
    (hnull : (s.staged a).isNull = false) (hkey : target.hashable = true)
    (hdecl : a.definition.declares target = true) (hne : (s.staged a == target) = false)
    (hfails : ((a.definition.transitionsFrom (s.staged a)).outcome ps j).1 = .error e) :
    ((a.canTransitionTo target).run ps j s).1 = reading target (.error e) := by
  rw [run_canTransitionTo hfound hnull hkey]
  unfold asked
  simp only [hne, hdecl, hfails, Bool.false_eq_true, if_false, if_true]

end Attachment

namespace Definition

/-- A declared status has a deferred rule, and its producer fails when it is asked now. -/
structure Breaks (d : Definition) (ps : Producers) (j : Journal) (source : Datum) (p : Producer)
    (e : Failure) : Prop where
  hashable : source.hashable = true
  node : ∃ n, d.statuses.get? source = some n ∧ n.rule = .deferred p
  raises : ps p (j.calls.count p) = .error e

variable {p : Producer}

theorem Breaks.resolve (h : d.Breaks ps j source p e) (status : Datum) :
    (((Rule.deferred p).resolve status).outcome ps j).1 = .error e := by
  rw [Rule.outcome_resolve_deferred, h.raises]
  rfl

theorem Breaks.transitionsFrom (h : d.Breaks ps j source p e) :
    ((d.transitionsFrom source).outcome ps j).1 = .error e := by
  obtain ⟨n, hn, hrule⟩ := h.node
  rw [outcome_transitionsFrom_of_node h.hashable hn, hrule]
  exact h.resolve source

theorem Breaks.declares (h : d.Breaks ps j source p e) : d.declares source = true := by
  obtain ⟨n, hn, -⟩ := h.node
  exact Definition.declares_of_get? hn

/-- The failure of a producer surfaces wherever the rule of its status is asked for a declared other
status. Resolution and the lists of next statuses fail just with it. Validation fails with it as
well, and may only give a rejection the target that it lacks. The questions of yes and no answer a
rejection with no, that of an attachment an invalid rule only, and fail with everything else. -/
theorem producer_failure_surfaces (h : d.Breaks ps j source p e) (hkey : target.hashable = true)
    (hdecl : d.declares target = true) (hne : (source == target) = false) :
    (∀ status, (((Rule.deferred p).resolve status).outcome ps j).1 = .error e) ∧
    ((d.transitionsFrom source).outcome ps j).1 = .error e ∧
    ((d.orderedTransitions source).outcome ps j).1 = .error e ∧
    (∃ e', ((Transition.validate d source target false).outcome ps j).1 = .error e' ∧
      PassedOn e e') ∧
    ((Transition.check d source target).outcome ps j).1 = e.inWords ∧
    ((Transition.isPermitted d source target).outcome ps j).1 = e.inWords.map Prod.fst ∧
    ∀ (ρ : Type) [Accessor ρ] (a : Attachment) (s : Attached ρ),
      a.definition = d → s.finds a = true →
        (s.staged a = source →
          (a.nextStatuses.run ps j s).1 = .error e ∧ (a.nextActions.run ps j s).1 = .error e ∧
          (source ≠ .null →
            ((a.canTransitionTo target).run ps j s).1 = Attachment.reading target (.error e))) ∧
        (Accessor.persisted s.entity a.field = source → s.staged a = target →
          Accessor.isNew (s.afterRead a).entity = false →
          ∃ e', (a.validateBeforeCommit.run ps j s).1 = .error e' ∧ PassedOn e e') := by
  have hfails := h.transitionsFrom
  obtain ⟨e', hvalidate, hpassed⟩ :=
    Transition.passedOn_of_validate hkey hdecl hne hfails
  have hcheck : ((Transition.check d source target).outcome ps j).1 = e.inWords :=
    (Transition.outcome_check_of_error hvalidate).trans hpassed.inWords
  have hordered : ((d.orderedTransitions source).outcome ps j).1 = .error e := by
    rw [Act.outcome, run_orderedTransitions, hfails]
    rfl
  refine ⟨h.resolve, hfails, hordered, ⟨e', hvalidate, hpassed⟩, hcheck, ?_, ?_⟩
  · rw [Transition.outcome_isPermitted_eq_map, hcheck]
  · rintro ρ _ a s rfl hfound
    refine ⟨?_, ?_⟩
    · rintro rfl
      obtain ⟨hnext, hactions⟩ :=
        Attachment.outcome_nextStatuses_of_error hfound h.hashable h.declares hfails
      refine ⟨hnext, hactions, fun hnull => ?_⟩
      have hnotNull : (s.staged a).isNull = false := by
        cases hstaged : s.staged a with
        | null => exact absurd hstaged hnull
        | _ => rfl
      exact Attachment.outcome_canTransitionTo_of_error hfound hnotNull hkey hdecl hne hfails
    · rintro hpersisted hstaged hnew
      refine ⟨e', ?_, hpassed⟩
      rw [Attachment.run_validateBeforeCommit hfound]
      unfold Attached.validation
      rw [hpersisted, hstaged, hnew]
      exact hvalidate

open Session (orders orderFlow blank)

/-- A record with an order that is paid. -/
def paidRecord : Attached Record :=
  { checked := false, entity := (blank.stage "status" (.text "paid")).persist }

theorem denied_payment_surfaces :
    let e : Failure := .foreign .permission "denied"
    let ps : Producers := fun _ _ => .error e
    orders.Breaks ps .empty (.text "paid") ⟨0⟩ e ∧ orders.declares (.text "shipped") = true ∧
      (Datum.text "paid" == .text "shipped") = false ∧
      ((Transition.check orders (.text "paid") (.text "shipped")).outcome ps .empty).1 = .error e ∧
      paidRecord.finds orderFlow = true ∧ paidRecord.staged orderFlow = .text "paid" ∧
      ((orderFlow.canTransitionTo (.text "shipped")).run ps .empty paidRecord).1 = .error e := by
  intro e ps
  have hbreaks : orders.Breaks ps .empty (.text "paid") ⟨0⟩ e := ⟨rfl, ⟨_, rfl, rfl⟩, rfl⟩
  have hshipped : orders.declares (.text "shipped") = true := by decide
  obtain ⟨-, -, -, -, hcheck, -, hattachment⟩ :=
    producer_failure_surfaces hbreaks rfl hshipped (by decide)
  obtain ⟨-, -, hcan⟩ := (hattachment Record orderFlow paidRecord rfl (by decide)).1 rfl
  exact ⟨hbreaks, hshipped, by decide, hcheck, by decide, rfl, hcan (by simp)⟩

/-- A rejection of a producer's own, of another edge. -/
def ownRejection : Failure :=
  .rejection ⟨.text "other", .null, .invalidRule "feature flag is off"⟩

/-- Not every failure of a producer surfaces in the questions of yes and no. -/
theorem exists_failure_answered :
    ¬ ∀ (d : Definition) (ps : Producers) (j : Journal) (source target : Datum) (p : Producer)
      (e : Failure), d.Breaks ps j source p e → target.hashable = true →
      d.declares target = true → (source == target) = false →
        ((Transition.check d source target).outcome ps j).1 = .error e ∧
        ((Transition.isPermitted d source target).outcome ps j).1 = .error e ∧
        ∀ (a : Attachment) (s : Attached Record), a.definition = d → s.finds a = true →
          s.staged a = source → ((a.canTransitionTo target).run ps j s).1 = .error e := by
  intro h
  have hbreaks : orders.Breaks (fun _ _ => .error ownRejection) .empty (.text "paid") ⟨0⟩
      ownRejection := ⟨rfl, ⟨_, rfl, rfl⟩, rfl⟩
  obtain ⟨-, -, hattachment⟩ := h orders (fun _ _ => .error ownRejection) .empty (.text "paid")
    (.text "shipped") ⟨0⟩ ownRejection hbreaks rfl (by decide) (by decide)
  have hcan := hattachment orderFlow paidRecord rfl (by decide) rfl
  cases hcan

end Definition

end Lifecycle
