import Lifecycle.Proofs.Agreement

/-!
# The decision of validation, its blame and its report

Where no producer fails, validation either accepts or rejects with one of three causes. What is
permitted and what is blamed are said here by rules over the definition and the producers' next
answers (`Transition.Permits`, `Transition.Blames`); `Transition.validate_decides` ties validation
to them, together with what it leaves in the journal. A rejection that cannot be put into words is no
rejection and leaves nothing there.
-/

namespace Lifecycle

/-- Producers that give an answer to every call. -/
def answering (answers : Producer → Nat → Datum) : Producers := fun p k => .ok (answers p k)

/-- What each producer answers when it is called next. -/
def nextAnswer (answers : Producer → Nat → Datum) (j : Journal) (p : Producer) : Datum :=
  answers p (j.calls.count p)

namespace Rule

/-- The statuses that a rule allows, given what the producers answer: those of a static rule are its
targets, those of a deferred rule the texts in the collection that its producer answers. -/
inductive Allows (answer : Producer → Datum) : Rule → List String → Prop
  | static (targets : Targets) : Allows answer (.static targets) targets.members
  | deferred {p : Producer} {texts : List String}
      (h : Lists (answer p) (texts.map .text)) : Allows answer (.deferred p) texts

/-- Why a rule does not say what it allows. -/
inductive Unusable (answer : Producer → Datum) : Rule → String → Prop
  | notListed {p : Producer} (h : ∀ items, ¬ Lists (answer p) items) :
      Unusable answer (.deferred p) s!"deferred rule produced {(answer p).kind.name}"
  | notTexts {p : Producer} {items : List Datum} (h : Lists (answer p) items)
      (hother : ∃ d ∈ items, ∀ t, d ≠ .text t) :
      Unusable answer (.deferred p) "deferred rule produced non-string statuses"
  | unsupported (kind : Kind) :
      Unusable answer (.unsupported kind) s!"unsupported rule type {kind.name}"

variable {answer : Producer → Datum} {rule : Rule} {status : Datum}

theorem Lists.unique {d : Datum} {items items' : List Datum} (h : Lists d items)
    (h' : Lists d items') : items = items' := by
  rw [← listed?_eq_some_iff] at h h'
  exact Option.some.inj (h.symm.trans h')

theorem Allows.unique {texts texts' : List String} (h : Allows answer rule texts)
    (h' : Allows answer rule texts') : texts = texts' := by
  cases h with
  | static targets =>
    cases h'
    rfl
  | deferred h =>
    cases h' with
    | deferred h' => exact List.map_injective_iff.2 (fun _ _ ht => Datum.text.inj ht) (h.unique h')

theorem Unusable.not_allows {reason : String} (h : Unusable answer rule reason)
    (texts : List String) : ¬ Allows answer rule texts := by
  intro hallows
  cases h with
  | notListed h =>
    cases hallows with
    | deferred hlists => exact h _ hlists
  | notTexts hlists hother =>
    cases hallows with
    | deferred hlists' =>
      obtain ⟨d, hd, hne⟩ := hother
      rw [hlists.unique hlists'] at hd
      obtain ⟨t, -, rfl⟩ := List.mem_map.1 hd
      exact hne t rfl
  | unsupported kind => cases hallows

/-- Resolution answers with what the rule allows, or says why the rule is not usable. -/
theorem resolve_cases (rule : Rule) (status : Datum) (answers : Producer → Nat → Datum)
    (j : Journal) :
    (∃ texts targets, Allows (nextAnswer answers j) rule texts ∧
        ((rule.resolve status).outcome (answering answers) j).1 = .ok targets ∧
        ∀ t, t ∈ targets ↔ t ∈ texts) ∨
      ∃ reason, Unusable (nextAnswer answers j) rule reason ∧
        ((rule.resolve status).outcome (answering answers) j).1 =
          .error (invalid status reason) := by
  cases rule with
  | static targets =>
    exact .inl ⟨targets.members, targets, .static targets, rfl, fun _ => Iff.rfl⟩
  | deferred p =>
    have hout : (((deferred p).resolve status).outcome (answering answers) j).1 =
        targetsOf status (nextAnswer answers j p) := by
      rw [outcome_resolve_deferred]
      rfl
    rw [hout]
    unfold targetsOf
    cases hlisted : listed? (nextAnswer answers j p) with
    | none => exact .inr ⟨_, .notListed (listed?_eq_none_iff.1 hlisted), rfl⟩
    | some items =>
      have hlists := listed?_eq_some_iff.1 hlisted
      cases htexts : items.mapM Datum.text? with
      | none =>
        have hother := Datum.mapM_text?_eq_none_iff.1 htexts
        exact .inr ⟨_, .notTexts hlists hother, by simp [htexts]⟩
      | some texts =>
        rw [Datum.mapM_text?_eq_some_iff.1 htexts] at hlists
        exact .inl ⟨texts, .ofList texts, .deferred hlists, by simp [htexts],
          fun _ => Targets.mem_ofList⟩
  | unsupported kind => exact .inr ⟨_, .unsupported kind, rfl⟩

end Rule

theorem Definition.events_transitionsFrom (d : Definition) (status : Datum) (ps : Producers)
    (j : Journal) : ((d.transitionsFrom status).outcome ps j).2.events = j.events := by
  rcases transitionsFrom_cases d status ps j with ⟨-, hout⟩ | ⟨-, hout⟩ | ⟨n, -, -, hout⟩
  · rw [hout]
  · rw [hout]
  · rw [hout]
    cases n.rule with
    | static targets => rfl
    | deferred p => rw [Rule.outcome_resolve_deferred]
    | unsupported kind => rfl

namespace Transition

variable {σ : Type} {d : Definition} {previous next : Datum} {answers : Producer → Nat → Datum}
  {j : Journal}

/-- The next status is declared, and so is the previous one, whose rule allows the next. -/
def Permits (d : Definition) (answer : Producer → Datum) (previous next : Datum) : Prop :=
  d.declares next = true ∧ ∃ n texts t, d.statuses.get? previous = some n ∧
    Rule.Allows answer n.rule texts ∧ t ∈ texts ∧ next = .text t

/-- What a change is rejected for: an undeclared next status before anything else, then a previous
status whose rule says nothing, then a rule that does not allow the next one. -/
inductive Blames (d : Definition) (answer : Producer → Datum) (previous next : Datum) :
    RejectionCause → Prop
  | unknownTarget (hnext : d.declares next = false) :
      Blames d answer previous next (.unknownTarget next d.name)
  | undeclared (hnext : d.declares next = true) (hprevious : d.declares previous = false) :
      Blames d answer previous next (.invalidRule "status is not declared in the workflow")
  | unusable {n : Node} {reason : String} (hnext : d.declares next = true)
      (hprevious : d.statuses.get? previous = some n) (h : Rule.Unusable answer n.rule reason) :
      Blames d answer previous next (.invalidRule reason)
  | notAllowed {n : Node} {texts : List String} (hnext : d.declares next = true)
      (hprevious : d.statuses.get? previous = some n) (h : Rule.Allows answer n.rule texts)
      (hother : ∀ t ∈ texts, next ≠ .text t) : Blames d answer previous next (.notAllowed next)

theorem Blames.not_permits {answer : Producer → Datum} {cause : RejectionCause}
    (h : Blames d answer previous next cause) : ¬ Permits d answer previous next := by
  rintro ⟨hnext, n, texts, t, hn, hallows, ht, rfl⟩
  cases h with
  | unknownTarget hundeclared =>
    rw [hnext] at hundeclared
    cases hundeclared
  | undeclared _ hprevious =>
    rw [Table.get?_eq_none_iff.2 hprevious] at hn
    cases hn
  | unusable _ hprevious hunusable =>
    cases hn.symm.trans hprevious
    exact hunusable.not_allows texts hallows
  | notAllowed _ hprevious hallows' hother =>
    cases hn.symm.trans hprevious
    rw [hallows.unique hallows'] at ht
    exact hother t ht rfl

/-- The requirement is met by what is permitted. Anything else it rejects with the blame, and blames
the next status or, where resolution rejects, none. -/
theorem require_cases (hprevious : previous.hashable = true) (hnext : next.hashable = true)
    (answers : Producer → Nat → Datum) (j : Journal) :
    let out := ((require d previous next).outcome (answering answers) j).1
    Permits d (nextAnswer answers j) previous next ∧ out = .ok () ∨
      ∃ target cause, Blames d (nextAnswer answers j) previous next cause ∧
        (target = next ∨ target = .null) ∧
        out = .error (Failure.rejection { previous, next := target, cause }).worded := by
  intro out
  cases hdecl : d.declares next with
  | false =>
    have hout : out = _ := congrArg Prod.fst (outcome_require_of_undeclared hnext hdecl)
    exact .inr ⟨next, _, .unknownTarget hdecl, .inl rfl, hout⟩
  | true =>
    have hout : out = _ := congrArg Prod.fst (outcome_require_of_declared hnext hdecl)
    cases hn : d.statuses.get? previous with
    | none =>
      have hundeclared : d.declares previous = false := Table.get?_eq_none_iff.1 hn
      rw [Definition.outcome_transitionsFrom_of_undeclared hprevious hundeclared] at hout
      exact .inr ⟨.null, _, .undeclared hdecl hundeclared, .inr rfl, hout⟩
    | some n =>
      rw [Definition.outcome_transitionsFrom_of_node hprevious hn] at hout
      rcases Rule.resolve_cases n.rule previous answers j with
        ⟨texts, targets, hallows, hresolved, hmem⟩ | ⟨reason, hunusable, hresolved⟩
      · rw [hresolved] at hout
        dsimp only at hout
        by_cases hadmits : targets.admits next = true
        · obtain ⟨t, ht, rfl⟩ := Targets.admits_iff.1 hadmits
          rw [if_pos hadmits] at hout
          exact .inl ⟨⟨hdecl, n, texts, t, hn, hallows, (hmem t).1 ht, rfl⟩, hout⟩
        · rw [if_neg hadmits] at hout
          have hother : ∀ t ∈ texts, next ≠ .text t := fun t ht heq =>
            hadmits (Targets.admits_iff.2 ⟨t, (hmem t).2 ht, heq⟩)
          exact .inr ⟨next, _, .notAllowed hdecl hn hallows hother, .inl rfl, hout⟩
      · rw [hresolved] at hout
        exact .inr ⟨.null, _, .unusable hdecl hn hunusable, .inr rfl, hout⟩

theorem events_require (d : Definition) (previous : Datum) (hnext : next.hashable = true)
    (ps : Producers) (j : Journal) :
    ((require d previous next).outcome ps j).2.events = j.events := by
  cases hdecl : d.declares next with
  | false => rw [outcome_require_of_undeclared hnext hdecl]
  | true =>
    rw [outcome_require_of_declared hnext hdecl]
    exact Definition.events_transitionsFrom d previous ps j

/-- A rejection blames the next status, also when it arose without one. -/
theorem concluded_rejection {target : Datum} (htarget : target = next ∨ target = .null)
    (cause : RejectionCause) (j : Journal) :
    concluded d previous next (.error (.rejection { previous, next := target, cause })) j =
      (.error (.rejection { previous, next, cause }),
        { j with events := j.events ++ [.rejected d.name previous next cause] }) := by
  have hblamed : (if target.isNull then ({ previous, next, cause } : Rejection)
      else { previous, next := target, cause }) = { previous, next, cause } := by
    rcases htarget with rfl | rfl
    · split <;> rfl
    · rfl
  unfold concluded
  dsimp only
  rw [hblamed]

/-- A blame that cannot be put into words is no rejection and is not reported. How it is worded does
not depend on the target with which it arose. -/
theorem concluded_blame {target : Datum} (htarget : target = next ∨ target = .null)
    (cause : RejectionCause) (j : Journal) :
    concluded d previous next
        (.error (Failure.rejection { previous, next := target, cause }).worded) j =
      if ({ previous, next, cause } : Rejection).mentions.all Datum.writable then
        (.error (.rejection { previous, next, cause }),
          { j with events := j.events ++ [.rejected d.name previous next cause] })
      else (.error (.misuse .tooManyDigits), j) := by
  have hmentions : (Failure.rejection { previous, next := target, cause }).mentions =
      ({ previous, next, cause } : Rejection).mentions := by
    cases cause <;> rfl
  rw [← hmentions]
  split
  · rename_i hwords
    rw [Failure.worded_of_writable hwords, concluded_rejection htarget]
  · rename_i hwords
    rw [Failure.worded_of_unwritable (Bool.eq_false_iff.2 hwords)]
    rfl

/-- Validation accepts a new entity, an unchanged status and a permitted change, and nothing else.
Everything else it rejects with the blame and with both statuses, or it fails for want of the words
to say so. A rejection is one warning, a change that is accepted one line for debugging, and nothing
else is reported. -/
theorem validate_decides (d : Definition) (previous next : Datum) (isNew : Bool)
    (hprevious : previous.hashable = true) (hnext : next.hashable = true)
    (answers : Producer → Nat → Datum) (j : Journal) (s : σ) :
    let done := (validate d previous next isNew).run (answering answers) j s
    let unchanged := isNew = true ∨ (previous == next) = true
    let permitted := Permits d (nextAnswer answers j) previous next
    (done.1 = .ok () ↔ unchanged ∨ permitted) ∧
    (¬ (unchanged ∨ permitted) → ∃ cause, Blames d (nextAnswer answers j) previous next cause ∧
      let r : Rejection := { previous, next, cause }
      (r.mentions.all Datum.writable = true → done.1 = .error (.rejection r) ∧
        ∃ event, event = .rejected d.name previous next cause ∧ event.level = .warning ∧
          done.2.1.events = j.events ++ [event]) ∧
      (r.mentions.all Datum.writable = false →
        done.1 = .error (.misuse .tooManyDigits) ∧ done.2.1.events = j.events)) ∧
    (unchanged → done.2.1.events = j.events) ∧
    (¬ unchanged → permitted → ∃ event, event = .accepted previous next ∧ event.level = .debug ∧
      done.2.1.events = j.events ++ [event]) := by
  intro done unchanged permitted
  have hunchanged : unchanged ↔ (isNew || previous == next) = true := by
    rw [Bool.or_eq_true]
  have hdone : done = _ := run_validate d previous next isNew s
  by_cases hchange : (isNew || previous == next) = true
  · have hyes := hunchanged.2 hchange
    rw [outcome_validate_of_trivial hchange] at hdone
    rw [hdone]
    exact ⟨by simp [hyes], fun hno => absurd (.inl hyes) hno, fun _ => rfl,
      fun hno => absurd hyes hno⟩
  · have hno : ¬ unchanged := fun h => hchange (hunchanged.1 h)
    have hevents := events_require d previous hnext (answering answers) j
    rw [Bool.not_eq_true] at hchange
    rw [outcome_validate_of_change hchange] at hdone
    rcases require_cases (d := d) hprevious hnext answers j with
      ⟨hpermitted, hout⟩ | ⟨target, cause, hblames, htarget, hout⟩
    · rw [hout] at hdone
      rw [hdone]
      have hyes : unchanged ∨ permitted := .inr hpermitted
      refine ⟨by simp [concluded, hyes], fun h => absurd hyes h, fun h => absurd h hno,
        fun _ _ => ⟨_, rfl, rfl, ?_⟩⟩
      simp only [concluded, hevents]
    · have hnot : ¬ permitted := hblames.not_permits
      rw [hout, concluded_blame htarget] at hdone
      cases hwords : ({ previous, next, cause } : Rejection).mentions.all Datum.writable with
      | true =>
        rw [hwords, if_pos rfl] at hdone
        rw [hdone]
        refine ⟨by simp [hno, hnot], fun _ => ⟨cause, hblames, fun _ => ⟨rfl, _, rfl, rfl, ?_⟩,
          fun hfalse => ?_⟩, fun h => absurd h hno, fun _ h => absurd h hnot⟩
        · simp only [hevents]
        · cases hwords.symm.trans hfalse
      | false =>
        rw [hwords, if_neg Bool.false_ne_true] at hdone
        rw [hdone]
        refine ⟨by simp [hno, hnot], fun _ => ⟨cause, hblames, fun htrue => ?_,
          fun _ => ⟨rfl, hevents⟩⟩, fun h => absurd h hno, fun _ h => absurd h hnot⟩
        cases hwords.symm.trans htrue

/-- A status that nobody declared leads nowhere, and the rejection names where it should lead. -/
theorem undeclared_previous_decided :
    let answers : Producer → Nat → Datum := fun _ _ => .list [.text "shipped"]
    let done := (validate Session.orders (.int 7) (.text "shipped") false).run (answering answers)
      .empty ()
    (Datum.int 7).hashable = true ∧ (Datum.text "shipped").hashable = true ∧
      ∃ cause, Blames Session.orders (nextAnswer answers .empty) (.int 7) (.text "shipped") cause ∧
        done.1 = .error (.rejection { previous := .int 7, next := .text "shipped", cause }) ∧
        done.2.1.events = [.rejected (.text "orders") (.int 7) (.text "shipped") cause] := by
  intro answers done
  have hnone : Session.orders.statuses.get? (.int 7) = none := by rfl
  have hnot : ¬ ((false = true ∨ (Datum.int 7 == .text "shipped") = true) ∨
      Permits Session.orders (nextAnswer answers .empty) (.int 7) (.text "shipped")) := by
    rintro ((h | h) | ⟨-, n, -, -, hn, -⟩)
    · cases h
    · exact absurd h (by decide)
    · rw [hnone] at hn
      cases hn
  obtain ⟨cause, hblames, hworded, -⟩ :=
    (validate_decides Session.orders (.int 7) (.text "shipped") false rfl rfl answers .empty ()).2.1
      hnot
  have hwords : ({ previous := .int 7, next := .text "shipped", cause } : Rejection).mentions.all
      Datum.writable = true := by
    cases hblames <;> rfl
  obtain ⟨herror, event, rfl, -, hevents⟩ := hworded hwords
  exact ⟨rfl, rfl, cause, hblames, herror, hevents⟩

/-- A change that is not permitted can fail without a blame and without a report. -/
theorem exists_blame_unworded : ∃ (d : Definition) (previous next : Datum)
    (answers : Producer → Nat → Datum), previous.hashable = true ∧ next.hashable = true ∧
      (previous == next) = false ∧ d.declares next = false ∧
      let done := (validate d previous next false).run (answering answers) .empty ()
      (∀ r, done.1 ≠ .error (.rejection r)) ∧ done.2.1.events = [] := by
  refine ⟨Attachment.longNamed.definition, .text "draft", .text "ghost", fun _ _ => .null, rfl, rfl,
    rfl, rfl, ?_⟩
  dsimp only
  rw [run_validate, Attachment.outcome_validate_longNamed]
  exact ⟨nofun, rfl⟩

end Transition

end Lifecycle
