import Lifecycle.Proofs.Arrangement

/-!
# Three ways to ask for a transition

The question of an attachment decides by itself what validation decides, in its own order and with
its own reading of failures, and the list of next statuses decides it once more. They agree because
resolution raises no rejection of its own but an invalid rule, and because a listed status is a
target (`Definition.mem_inOrder_iff`).
-/

namespace Lifecycle

variable {ps : Producers} {j : Journal}

/-! ## Listed statuses -/

theorem Definition.mem_inOrder_iff {d : Definition} {targets : Targets} {s : Datum} :
    s ∈ d.inOrder targets ↔ ∃ t ∈ targets, s = .text t := by
  rw [inOrder_eq, List.mem_map]
  simp only [(arranged d targets).mem_iff, eq_comm (b := s)]

theorem Definition.contains_inOrder (d : Definition) (targets : Targets) (s : Datum) :
    (d.inOrder targets).contains s = targets.admits s := by
  rw [Bool.eq_iff_iff, List.contains_iff_exists_mem_beq, Targets.admits_iff]
  constructor
  · rintro ⟨x, hx, hbeq⟩
    obtain ⟨t, ht, rfl⟩ := mem_inOrder_iff.1 hx
    exact ⟨t, ht, Datum.beq_text_iff.1 hbeq⟩
  · rintro ⟨t, ht, rfl⟩
    exact ⟨.text t, mem_inOrder_iff.2 ⟨t, ht, rfl⟩, Datum.beq_text_iff.2 rfl⟩

/-! ## Failures of resolution -/

/-- The producer of a status, if there is one, raises no rejection of its own when it is asked now.
-/
def Definition.NoOwnRejection (d : Definition) (status : Datum) (ps : Producers) (j : Journal) :
    Prop :=
  ∀ n p r, d.node status = .ok (some n) → n.rule = .deferred p →
    ps p (j.calls.count p) ≠ .error (.rejection r)

theorem Rule.cause_of_resolve {rule : Rule} {status : Datum} {r : Rejection}
    (hproducer : ∀ p, rule = .deferred p → ps p (j.calls.count p) ≠ .error (.rejection r))
    (h : ((rule.resolve status).outcome ps j).1 = .error (.rejection r)) :
    ∃ reason, r.cause = .invalidRule reason := by
  cases rule with
  | static targets =>
    rw [outcome_resolve_static] at h
    cases h
  | deferred p =>
    rw [outcome_resolve_deferred] at h
    cases hanswer : ps p (j.calls.count p) with
    | error e =>
      rw [hanswer] at h
      obtain rfl : e = .rejection r := Except.error.inj h
      exact absurd hanswer (hproducer p rfl)
    | ok answer =>
      rw [hanswer] at h
      obtain ⟨reason, hreason⟩ := targetsOf_error h
      rw [eq_of_invalid hreason.symm]
      exact ⟨reason, rfl⟩
  | unsupported kind =>
    rw [outcome_resolve_unsupported] at h
    rw [eq_of_invalid (Except.error.inj h)]
    exact ⟨_, rfl⟩

theorem Definition.cause_of_transitionsFrom {d : Definition} {status : Datum} {r : Rejection}
    (hproducer : d.NoOwnRejection status ps j)
    (h : ((d.transitionsFrom status).outcome ps j).1 = .error (.rejection r)) :
    ∃ reason, r.cause = .invalidRule reason := by
  rcases transitionsFrom_cases d status ps j with ⟨-, hout⟩ | ⟨-, hout⟩ | ⟨n, hnode, -, hout⟩
  · rw [hout] at h
    cases h
  · rw [hout] at h
    rw [Rule.eq_of_invalid (Except.error.inj h)]
    exact ⟨_, rfl⟩
  · rw [hout] at h
    exact Rule.cause_of_resolve (fun p hrule => hproducer n p r hnode hrule) h

/-! ## The verdict of validation -/

namespace Transition

variable {d : Definition} {previous next : Datum}

theorem verdict_concluded (d : Definition) (previous next : Datum) (outcome : Except Failure Unit)
    (j : Journal) : verdict (concluded d previous next outcome j).1 = verdict outcome := by
  rcases outcome with e | _
  · cases e <;> rfl
  · rfl

theorem verdict_ok_false_iff {outcome : Except Failure Unit} :
    verdict outcome = .ok false ↔ ∃ r, outcome = .error (.rejection r) := by
  rcases outcome with e | _
  · cases e <;> simp [verdict]
  · simp [verdict]

theorem verdict_of_equal (h : (previous == next) = true) :
    verdict ((validate d previous next false).outcome ps j).1 = .ok true := by
  rw [outcome_validate_of_trivial (by rw [h]; rfl)]
  rfl

/-- A rejection is a no, if it can be put into words. -/
theorem wordedAs_verdict (r : Rejection) :
    WordedAs (· ∈ r.mentions) (.ok false) (verdict (.error (Failure.rejection r).worded)) := by
  rcases (Failure.rejection r).worded_cases with h | ⟨h, hunwritable⟩
  · rw [h]
    exact .refl _ _
  · rw [h]
    exact .inr ⟨rfl, hunwritable⟩

theorem mentions_unknownTarget (previous : Datum) {x : Datum}
    (h : x ∈ ({ previous, next, cause := .unknownTarget next d.name } : Rejection).mentions) :
    x = next ∨ x = d.name := by
  change x ∈ (if d.name.truthy then [d.name, next] else [next]) at h
  split at h
  · simpa [or_comm] using h
  · exact .inl (List.mem_singleton.1 h)

/-- An undeclared target cannot be blamed in a workflow whose name has no text. -/
theorem outcome_validate_of_unnamed (htruthy : d.name.truthy = true)
    (hname : d.name.writable = false) (hchange : (previous == next) = false)
    (hkey : next.hashable = true) (hdecl : d.declares next = false) :
    (validate d previous next false).outcome ps j = (.error (.misuse .tooManyDigits), j) := by
  have hworded : (Failure.rejection
      { previous, next, cause := .unknownTarget next d.name }).worded = .misuse .tooManyDigits := by
    apply Failure.worded_of_unwritable
    change List.all (if d.name.truthy then [d.name, next] else [next]) _ = false
    rw [htruthy, if_pos rfl, List.all_cons, hname, Bool.false_and]
  rw [outcome_validate_of_change (by rw [hchange]; rfl), outcome_require_of_undeclared hkey hdecl,
    hworded]
  rfl

theorem verdict_of_undeclared (h : (previous == next) = false) (hkey : next.hashable = true)
    (hdecl : d.declares next = false) :
    WordedAs (fun x => x = next ∨ x = d.name) (.ok false)
      (verdict ((validate d previous next false).outcome ps j).1) := by
  rw [outcome_validate_of_change (by rw [h]; rfl), verdict_concluded,
    outcome_require_of_undeclared hkey hdecl]
  exact (wordedAs_verdict _).mono fun x hx => mentions_unknownTarget _ hx

theorem verdict_of_declared (ps : Producers) (j : Journal) (h : (previous == next) = false)
    (hkey : next.hashable = true) (hdecl : d.declares next = true) :
    WordedAs (· ∈ [previous, next])
      (match ((d.transitionsFrom previous).outcome ps j).1 with
        | .ok targets => .ok (targets.admits next)
        | .error (.rejection _) => .ok false
        | .error e => .error e)
      (verdict ((validate d previous next false).outcome ps j).1) := by
  rw [outcome_validate_of_change (by rw [h]; rfl), verdict_concluded,
    outcome_require_of_declared hkey hdecl]
  cases ((d.transitionsFrom previous).outcome ps j).1 with
  | error e => cases e <;> exact .refl _ _
  | ok targets =>
    cases hadmits : targets.admits next with
    | true =>
      simp only [hadmits, if_true]
      exact .refl _ _
    | false =>
      simp only [hadmits, Bool.false_eq_true, if_false]
      exact wordedAs_verdict _

theorem rejection_of_concluded {outcome : Except Failure Unit} {r : Rejection}
    (h : (concluded d previous next outcome j).1 = .error (.rejection r)) :
    ∃ r', outcome = .error (.rejection r') ∧ r.cause = r'.cause := by
  rcases outcome with e | _
  · cases e with
    | rejection r' =>
      refine ⟨r', rfl, ?_⟩
      cases h
      split <;> rfl
    | _ => cases h
  · cases h

theorem cause_of_require (hproducer : d.NoOwnRejection previous ps j) {r : Rejection}
    (h : ((require d previous next).outcome ps j).1 = .error (.rejection r)) :
    r.cause = .unknownTarget next d.name ∨ (∃ reason, r.cause = .invalidRule reason) ∨
      r.cause = .notAllowed next := by
  cases hkey : next.hashable with
  | false =>
    rw [outcome_require_of_unhashable hkey] at h
    cases h
  | true =>
    cases hdecl : d.declares next with
    | false =>
      rw [outcome_require_of_undeclared hkey hdecl] at h
      rw [Failure.eq_of_worded_rejection (Except.error.inj h)]
      exact .inl rfl
    | true =>
      rw [outcome_require_of_declared hkey hdecl] at h
      cases htargets : ((d.transitionsFrom previous).outcome ps j).1 with
      | error e =>
        rw [htargets] at h
        cases h
        exact .inr (.inl (Definition.cause_of_transitionsFrom hproducer htargets))
      | ok targets =>
        rw [htargets] at h
        dsimp only at h
        split at h
        · cases h
        · rw [Failure.eq_of_worded_rejection (Except.error.inj h)]
          exact .inr (.inr rfl)

/-- Validation names one of three causes when it rejects. -/
theorem cause_of_validate {isNew : Bool} (hproducer : d.NoOwnRejection previous ps j)
    {r : Rejection}
    (h : ((validate d previous next isNew).outcome ps j).1 = .error (.rejection r)) :
    r.cause = .unknownTarget next d.name ∨ (∃ reason, r.cause = .invalidRule reason) ∨
      r.cause = .notAllowed next := by
  cases hchange : (isNew || previous == next) with
  | true =>
    rw [outcome_validate_of_trivial hchange] at h
    cases h
  | false =>
    rw [outcome_validate_of_change hchange] at h
    obtain ⟨r', hr', hcause⟩ := rejection_of_concluded h
    rw [hcause]
    exact cause_of_require hproducer hr'

end Transition

/-! ## The questions of an attachment -/

namespace Attachment

variable {ρ : Type} [Accessor ρ] {a : Attachment} {s : Attached ρ} {t : Datum}

/-- How the question of an attachment reads the resolution of the current status. -/
def reading (t : Datum) : Except Failure Targets → Except Failure Bool
  | .ok targets => .ok (targets.admits t)
  | .error (.rejection { cause := .invalidRule _, .. }) => .ok false
  | .error e => .error e

/-- What the question of an attachment answers, and the journal after it. -/
def asked (d : Definition) (current t : Datum) (ps : Producers) (j : Journal) :
    Except Failure Bool × Journal :=
  if current == t then (.ok true, j)
  else if d.declares t then
    (reading t ((d.transitionsFrom current).outcome ps j).1,
      ((d.transitionsFrom current).outcome ps j).2)
  else (.ok false, j)

theorem run_canTransitionTo (h : s.finds a = true) (hc : (s.staged a).isNull = false)
    (ht : t.hashable = true) :
    (a.canTransitionTo t).run ps j s =
      ((asked a.definition (s.staged a) t ps j).1, (asked a.definition (s.staged a) t ps j).2,
        s.afterRead a) := by
  unfold canTransitionTo asked
  rw [Act.run_bind, run_currentStatus h]
  dsimp only
  rw [hc]
  cases heq : s.staged a == t with
  | true => rfl
  | false =>
    simp only [Bool.false_eq_true, if_false, Act.run_bind, Act.run_ofExcept,
      Definition.hasStatus_of_hashable _ ht]
    cases hdecl : a.definition.declares t with
    | false => rfl
    | true =>
      simp only [if_true, Act.run_bind, Act.run_attempt, Definition.run_transitionsFrom]
      rcases ((a.definition.transitionsFrom (s.staged a)).outcome ps j).1 with e | targets
      · cases e with
        | rejection r =>
          obtain ⟨previous, next, cause⟩ := r
          cases cause <;> rfl
        | _ => rfl
      · rfl

/-- The question decides what validation decides, if that can put its rejection into words. -/
theorem wordedAs_asked {d : Definition} {current : Datum} (ht : t.hashable = true)
    (hproducer : d.NoOwnRejection current ps j) :
    WordedAs (· ∈ [current, t, d.name]) (asked d current t ps j).1
      (Transition.verdict ((Transition.validate d current t false).outcome ps j).1) := by
  unfold asked
  cases heq : current == t with
  | true =>
    rw [Transition.verdict_of_equal heq]
    exact .refl _ _
  | false =>
    cases hdecl : d.declares t with
    | false =>
      refine (Transition.verdict_of_undeclared heq ht hdecl).mono fun x hx => ?_
      rcases hx with rfl | rfl <;> simp
    | true =>
      simp only [Bool.false_eq_true, if_false, if_true]
      have hverdict := Transition.verdict_of_declared ps j heq ht hdecl
      -- Validation turns every rejection into a no, the question only an invalid rule; no other
      -- rejection comes from resolution.
      have hreading : (match ((d.transitionsFrom current).outcome ps j).1 with
          | .ok targets => .ok (targets.admits t)
          | .error (.rejection _) => .ok false
          | .error e => .error e) = reading t ((d.transitionsFrom current).outcome ps j).1 := by
        cases htargets : ((d.transitionsFrom current).outcome ps j).1 with
        | ok targets => rfl
        | error e =>
          cases e with
          | rejection r =>
            obtain ⟨reason, hcause⟩ := Definition.cause_of_transitionsFrom hproducer htargets
            obtain ⟨previous, next, cause⟩ := r
            dsimp only at hcause
            subst hcause
            rfl
          | _ => rfl
      rw [hreading] at hverdict
      refine hverdict.mono fun x hx => ?_
      simp only [List.mem_cons, List.not_mem_nil, or_false] at hx ⊢
      exact hx.elim .inl fun h => .inr (.inl h)

theorem reading_eq_ok_true_iff {outcome : Except Failure Targets} :
    reading t outcome = .ok true ↔ ∃ targets, outcome = .ok targets ∧ targets.admits t = true := by
  rcases outcome with e | targets
  · cases e with
    | rejection r =>
      obtain ⟨previous, next, cause⟩ := r
      cases cause <;> simp [reading]
    | _ => simp [reading]
  · simp [reading]

/-- The question is answered with a yes just where validation accepts: that needs no words. -/
theorem asked_ok_true_iff {d : Definition} {current : Datum} (ht : t.hashable = true) :
    (asked d current t ps j).1 = .ok true ↔
      ((Transition.validate d current t false).outcome ps j).1 = .ok () := by
  rw [Transition.validate_ok_iff]
  unfold asked
  cases heq : current == t with
  | true => simp
  | false =>
    cases hdecl : d.declares t with
    | false => simp
    | true => simp [ht, reading_eq_ok_true_iff]

/-- What the list of next statuses says of the current one: it is a key, and either it is declared
and the list is its targets in order, or it is not and the list is empty. -/
theorem listed_cases (h : s.finds a = true) {list : List Datum}
    (hlist : (a.nextStatuses.run ps j s).1 = .ok list) :
    (s.staged a).hashable = true ∧
      (a.definition.declares (s.staged a) = false ∧ list = [] ∨
        a.definition.declares (s.staged a) = true ∧ ∃ targets,
          ((a.definition.transitionsFrom (s.staged a)).outcome ps j).1 = .ok targets ∧
            list = a.definition.inOrder targets) := by
  cases hkey : (s.staged a).hashable with
  | false =>
    rw [run_nextStatuses_of_unhashable h hkey] at hlist
    cases hlist
  | true =>
    refine ⟨rfl, ?_⟩
    cases hdecl : a.definition.declares (s.staged a) with
    | false =>
      rw [run_nextStatuses_of_undeclared h hkey hdecl] at hlist
      cases hlist
      exact .inl ⟨rfl, rfl⟩
    | true =>
      rw [run_nextStatuses_of_declared h hkey hdecl] at hlist
      cases htargets : ((a.definition.transitionsFrom (s.staged a)).outcome ps j).1 with
      | error e =>
        rw [htargets] at hlist
        cases hlist
      | ok targets =>
        rw [htargets] at hlist
        cases hlist
        exact .inr ⟨rfl, targets, rfl, rfl⟩

/-- The question is answered with a yes for another status just when it is declared and listed. -/
theorem asked_true_of_listed (h : s.finds a = true) {list : List Datum}
    (hlist : (a.nextStatuses.run ps j s).1 = .ok list) (hne : (s.staged a == t) = false) :
    (asked a.definition (s.staged a) t ps j).1 = .ok true ↔
      (a.definition.declares t && list.contains t) = true := by
  obtain ⟨hkey, hcases⟩ := listed_cases h hlist
  unfold asked
  rw [hne]
  cases hdecl : a.definition.declares t with
  | false => simp
  | true =>
    simp only [Bool.false_eq_true, if_false, if_true, Bool.true_and, reading_eq_ok_true_iff]
    rcases hcases with ⟨hcurrent, rfl⟩ | ⟨-, targets, htargets, rfl⟩
    · rw [Definition.outcome_transitionsFrom_of_undeclared hkey hcurrent]
      simp
    · rw [htargets, Definition.contains_inOrder]
      simp

/-- For any other status the answer is a no, unless the current status is undeclared and has no
text. -/
theorem asked_of_listed (h : s.finds a = true) {list : List Datum}
    (hlist : (a.nextStatuses.run ps j s).1 = .ok list) (hne : (s.staged a == t) = false) :
    WordedAs (· = s.staged a) (.ok (a.definition.declares t && list.contains t))
      (asked a.definition (s.staged a) t ps j).1 := by
  obtain ⟨hkey, hcases⟩ := listed_cases h hlist
  unfold asked
  rw [hne]
  cases hdecl : a.definition.declares t with
  | false => exact .refl _ _
  | true =>
    simp only [Bool.false_eq_true, if_false, if_true, Bool.true_and]
    rcases hcases with ⟨hcurrent, rfl⟩ | ⟨-, targets, htargets, rfl⟩
    · rw [Definition.outcome_transitionsFrom_of_undeclared hkey hcurrent]
      cases hwritable : (s.staged a).writable with
      | true =>
        rw [Definition.undeclared, Rule.invalid_of_writable hwritable]
        exact .refl _ _
      | false =>
        rw [Definition.undeclared, Rule.invalid_of_unwritable hwritable]
        exact .inr ⟨rfl, _, rfl, hwritable⟩
    · rw [htargets, Definition.contains_inOrder]
      exact .refl _ _

/-- What is listed and not declared is refused as an unknown target. -/
theorem validate_of_listed_undeclared (h : s.finds a = true) {list : List Datum}
    (hlist : (a.nextStatuses.run ps j s).1 = .ok list) (ht : t ∈ list)
    (hdecl : a.definition.declares t = false) :
    WordedAs (· = a.definition.name)
      (.error (.rejection
        { previous := s.staged a, next := t, cause := .unknownTarget t a.definition.name }))
      ((Transition.validate a.definition (s.staged a) t false).outcome ps j).1 := by
  obtain ⟨-, ⟨-, rfl⟩ | ⟨hcurrent, targets, -, rfl⟩⟩ := listed_cases h hlist
  · cases ht
  · obtain ⟨text, -, rfl⟩ := Definition.mem_inOrder_iff.1 ht
    -- Only a declared status lists anything, so the current one is not the undeclared target.
    have hne : (s.staged a == .text text) = false := by
      by_contra heq
      rw [Bool.not_eq_false] at heq
      rw [Datum.beq_text_iff.1 heq, hdecl] at hcurrent
      cases hcurrent
    rw [Transition.outcome_validate_of_change (by rw [hne]; rfl),
      Transition.outcome_require_of_undeclared rfl hdecl]
    rcases Failure.worded_cases _ with hworded | ⟨hworded, x, hx, hunwritable⟩
    · rw [hworded]
      exact .refl _ _
    · rw [hworded]
      refine .inr ⟨rfl, x, ?_, hunwritable⟩
      rcases Transition.mentions_unknownTarget (s.staged a) hx with rfl | hname
      · cases hunwritable
      · exact hname

/-- Every question about a transition from the current status answers as that of the attachment does,
and so does the list of next statuses. Validation, the question with words and the boolean one put
statuses and the name of the workflow into words, and only where one of these has no text do they
fail instead of answering. -/
theorem queries_agree (a : Attachment) (s : Attached ρ) (t : Datum) (ps : Producers) (j : Journal)
    (hfinds : s.finds a = true) (hcurrent : (s.staged a).isNull = false)
    (ht : t.hashable = true) (hproducer : a.definition.NoOwnRejection (s.staged a) ps j) :
    let d := a.definition
    let c := s.staged a
    let mentioned := fun x => x ∈ [c, t, d.name]
    let validated := ((Transition.validate d c t false).outcome ps j).1
    let answer := ((a.canTransitionTo t).run ps j s).1
    (validated = .ok () ↔ answer = .ok true) ∧
    WordedAs mentioned answer (Transition.verdict validated) ∧
    WordedAs mentioned answer (((Transition.check d c t).outcome ps j).1.map Prod.fst) ∧
    WordedAs mentioned answer ((Transition.isPermitted d c t).outcome ps j).1 ∧
    ∀ list, (a.nextStatuses.run ps j s).1 = .ok list →
      ((c == t) = false →
        (answer = .ok true ↔ (d.declares t && list.contains t) = true) ∧
        WordedAs (· = c) (.ok (d.declares t && list.contains t)) answer) ∧
      ∀ t' ∈ list, d.declares t' = false →
        WordedAs (· = d.name)
          (.error (.rejection { previous := c, next := t', cause := .unknownTarget t' d.name }))
          ((Transition.validate d c t' false).outcome ps j).1 := by
  intro d c mentioned validated answer
  have hanswer : answer = (asked d c t ps j).1 := by
    simp only [answer, run_canTransitionTo hfinds hcurrent ht, d, c]
  rw [hanswer]
  have hverdict : WordedAs mentioned (asked d c t ps j).1 (Transition.verdict validated) :=
    wordedAs_asked ht hproducer
  have hwords : WordedAs mentioned (asked d c t ps j).1
      (Transition.verdictInWords c t validated) := by
    refine hverdict.trans ((Transition.wordedAs_verdictInWords c t validated).mono fun x hx => ?_)
    simp only [mentioned, List.mem_cons, List.not_mem_nil, or_false] at hx ⊢
    exact hx.elim .inl fun h => .inr (.inl h)
  refine ⟨(asked_ok_true_iff ht).symm, hverdict, ?_, ?_, ?_⟩
  · rw [Transition.outcome_check]
    exact hwords
  · rw [Transition.outcome_isPermitted]
    exact hwords
  · intro list hlist
    refine ⟨fun hne => ⟨asked_true_of_listed hfinds hlist hne, asked_of_listed hfinds hlist hne⟩, ?_⟩
    intro t' ht' hdecl
    exact validate_of_listed_undeclared hfinds hlist ht' hdecl

theorem paid_queries_agree :
    let flow := Session.orderFlow
    let ps : Producers := fun _ _ => .ok (.list [.text "shipped", .text "returned"])
    let s : Attached Record :=
      { checked := false, entity := Session.blank.stage "status" (.text "paid") }
    s.finds flow = true ∧ (s.staged flow).isNull = false ∧
      flow.definition.NoOwnRejection (s.staged flow) ps .empty ∧
      ((flow.canTransitionTo (.text "shipped")).run ps .empty s).1 = .ok true ∧
      ((Transition.validate flow.definition (.text "paid") (.text "returned") false).outcome
          ps .empty).1 =
        .error (.rejection { previous := .text "paid", next := .text "returned",
                             cause := .unknownTarget (.text "returned") (.text "orders") }) := by
  intro flow ps s
  have hproducer : flow.definition.NoOwnRejection (s.staged flow) ps .empty := by
    intro n p r hn hrule hraised
    cases hraised
  obtain ⟨hvalidated, -, -, -, hlisted⟩ :=
    queries_agree flow s (.text "shipped") ps .empty (by decide) (by decide) rfl hproducer
  refine ⟨by decide, by decide, hproducer, hvalidated.1 rfl, ?_⟩
  refine ((hlisted [.text "shipped", .text "returned"] rfl).2 (.text "returned") (by simp) rfl).eq ?_
  rintro x rfl
  rfl

/-- Drafts that are paid, under a name that has no text. -/
def longNamed : Attachment where
  definition :=
    { initial := .text "draft"
      statuses :=
        ⟨[(.text "draft",
            { rule := .static (.ofList ["paid"]), label := .null, actionLabel := .null }),
          (.text "paid", { rule := .static .empty, label := .null, actionLabel := .null })],
          by decide⟩
      labels := .empty
      actionLabels := .empty
      name := .tooLong
      initial_declared := by decide
      targets_declared := by decide }
  workflowName := ""
  field := "status"
  entityKind := none

theorem outcome_validate_longNamed (ps : Producers) (j : Journal) :
    (Transition.validate longNamed.definition (.text "draft") (.text "ghost") false).outcome ps j =
      (.error (.misuse .tooManyDigits), j) :=
  Transition.outcome_validate_of_unnamed Datum.tooLong_truthy Datum.tooLong_unwritable rfl rfl rfl

/-- The attachment can answer with a no where the other questions fail for want of words. -/
theorem exists_queries_apart : ∃ (a : Attachment) (s : Attached Record) (t : Datum)
    (ps : Producers), s.finds a = true ∧ (s.staged a).isNull = false ∧ t.hashable = true ∧
      a.definition.NoOwnRejection (s.staged a) ps .empty ∧
      ((a.canTransitionTo t).run ps .empty s).1 = .ok false ∧
      ((Transition.isPermitted a.definition (s.staged a) t).outcome ps .empty).1 =
        .error (.misuse .tooManyDigits) := by
  let s : Attached Record :=
    { checked := false, entity := Session.blank.stage "status" (.text "draft") }
  let ps : Producers := fun _ _ => .ok .null
  have hproducer : longNamed.definition.NoOwnRejection (s.staged longNamed) ps .empty := by
    intro n p r hn hrule hraised
    cases hraised
  have hstaged : s.staged longNamed = .text "draft" := rfl
  refine ⟨longNamed, s, .text "ghost", ps, by decide, by decide, rfl, hproducer, rfl, ?_⟩
  rw [Transition.outcome_isPermitted, hstaged, outcome_validate_longNamed]
  rfl

end Attachment

end Lifecycle
