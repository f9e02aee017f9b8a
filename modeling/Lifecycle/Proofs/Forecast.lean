import Lifecycle.Proofs.Agreement
import Lifecycle.Proofs.Persistable

/-!
# Forecast and commit

Static rules call nobody, so what an attachment answers about a settled session still holds when the
move is made: the question reads the staged status and the commit the persisted one, and these are
the same. A commit that is refused puts its reason into words, and fails for want of them if one of
the data in it has no text.
-/

namespace Lifecycle

variable {ps : Producers} {j : Journal}

namespace Definition

variable {d : Definition} {p : Datum}

theorem OnlyStatic.rule (hstatic : d.OnlyStatic) {n : Node} (hn : d.statuses.get? p = some n) :
    ∃ targets, n.rule = .static targets := by
  obtain ⟨e, he, -, rfl⟩ := Table.exists_entry_of_get? hn
  exact hstatic e he

theorem OnlyStatic.noOwnRejection (hstatic : d.OnlyStatic) : d.NoOwnRejection p ps j := by
  intro n q r hn hrule
  cases hkey : p.hashable with
  | false =>
    rw [node, Datum.key_of_unhashable hkey] at hn
    cases hn
  | true =>
    rw [node, Datum.key_of_hashable hkey] at hn
    obtain ⟨targets, htargets⟩ := hstatic.rule (Except.ok.inj hn)
    rw [htargets] at hrule
    cases hrule

/-- Static rules leave the journal alone. -/
theorem OnlyStatic.journal_transitionsFrom (hstatic : d.OnlyStatic) :
    ((d.transitionsFrom p).outcome ps j).2 = j := by
  rcases transitionsFrom_cases d p ps j with ⟨-, hout⟩ | ⟨-, hout⟩ | ⟨n, -, hn, hout⟩
  · rw [hout]
  · rw [hout]
  · obtain ⟨targets, htargets⟩ := hstatic.rule hn
    rw [hout, htargets, Rule.outcome_resolve_static]

end Definition

namespace Attachment

variable {a : Attachment} {s : Attached Record} {t : Datum}

theorem journal_asked (hstatic : a.definition.OnlyStatic) {p : Datum} :
    (asked a.definition p t ps j).2 = j := by
  unfold asked
  split
  · rfl
  · split
    · exact hstatic.journal_transitionsFrom
    · rfl

/-- Asking for the next statuses changes nothing but the note on the field. -/
theorem run_nextStatuses_of_static (hstatic : a.definition.OnlyStatic) (h : s.finds a = true) :
    a.nextStatuses.run ps j s = ((a.nextStatuses.run ps j s).1, j, s.afterRead a) := by
  cases hkey : (s.staged a).hashable with
  | false => rw [run_nextStatuses_of_unhashable h hkey]
  | true =>
    cases hdecl : a.definition.declares (s.staged a) with
    | false => rw [run_nextStatuses_of_undeclared h hkey hdecl]
    | true =>
      rw [run_nextStatuses_of_declared h hkey hdecl, hstatic.journal_transitionsFrom]

/-- A listed status is accepted by validation. -/
theorem validate_ok_of_listed (hids : a.definition.TextIds) (hstatic : a.definition.OnlyStatic)
    (h : s.finds a = true) {list : List Datum} (hlist : (a.nextStatuses.run ps j s).1 = .ok list)
    (ht : t ∈ list) :
    ((Transition.validate a.definition (s.staged a) t false).outcome ps j).1 = .ok () := by
  obtain ⟨hkey, ⟨-, rfl⟩ | ⟨hcurrent, targets, htargets, rfl⟩⟩ := listed_cases h hlist
  · cases ht
  · obtain ⟨text, hmem, rfl⟩ := Definition.mem_inOrder_iff.1 ht
    obtain ⟨n, hn⟩ := Definition.exists_node_of_declares hcurrent
    have hdecl : a.definition.declares (.text text) = true := by
      obtain ⟨targets', hrule⟩ := hstatic.rule hn
      obtain ⟨current, hcurrent⟩ := hids.exists_text hcurrent
      rw [hcurrent] at hn
      rw [hcurrent, Definition.outcome_transitionsFrom_of_node rfl hn, hrule] at htargets
      cases htargets
      exact Definition.declares_of_mem_targets hn hrule hmem
    rw [Transition.validate_ok_iff]
    exact .inr (.inr ⟨rfl, hdecl, targets, htargets, Targets.admits_iff.2 ⟨text, hmem, rfl⟩⟩)

end Attachment

namespace Session

variable (flows : Flows) {i : Nat} {s : Session Record} {c t : Datum}

theorem Settled.note {a : Attachment} (h : Settled i a c s) : Settled i a c (s.note i) where
  finds := by
    have hchecked : ((s.note i).view i).checked = true := if_pos rfl
    unfold Attached.finds
    rw [hchecked, Bool.true_or]
  persisted := h.persisted
  status := h.status
  staged := h.staged

theorem ok_of_map_ok {α β : Type} {f : α → β} (hf : f.Injective) {outcome : Except Failure α}
    {x : α} (h : outcome.map f = .ok (f x)) : outcome = .ok x := by
  cases outcome with
  | error e => cases h
  | ok y =>
    have hxy : y = x := hf (Except.ok.inj h)
    rw [hxy]

theorem run_ask (h : Settled i (flows i) c s) (hc : c.isNull = false) (ht : t.hashable = true) :
    ((Step.operate i (.canTransitionTo t)).act flows).run ps j s =
      ((Attachment.asked (flows i).definition c t ps j).1.map Answer.truth,
        (Attachment.asked (flows i).definition c t ps j).2, s.note i) := by
  have hstaged : ((s.view i).staged (flows i)).isNull = false := by rw [h.staged, hc]
  change (of i (Operation.act (flows i) (.canTransitionTo t))).run ps j s = _
  rw [run_of]
  simp only [Operation.act, Act.run_bind, Attachment.run_canTransitionTo h.finds hstaged ht,
    h.staged]
  cases (Attachment.asked (flows i).definition c t ps j).1 <;> rfl

theorem run_list (hstatic : (flows i).definition.OnlyStatic) (h : Settled i (flows i) c s) :
    ((Step.operate i .nextStatuses).act flows).run ps j s =
      (((flows i).nextStatuses.run ps j (s.view i)).1.map Answer.statuses, j, s.note i) := by
  change (of i (Operation.act (flows i) .nextStatuses)).run ps j s = _
  rw [run_of]
  simp only [Operation.act, Act.run_bind]
  rw [Attachment.run_nextStatuses_of_static hstatic h.finds]
  cases ((flows i).nextStatuses.run ps j (s.view i)).1 <;> rfl

/-- In a settled session whose rules are static a move to a status does what was answered about it,
and every listed status is moved to. -/
theorem forecast_matches_commit (flows : Flows) (i : Nat) (hids : (flows i).definition.TextIds)
    (hstatic : (flows i).definition.OnlyStatic) (ps : Producers) (j : Journal)
    (s : Session Record) (c : Datum) (hsettled : Settled i (flows i) c s)
    (hc : c.isNull = false) :
    (∀ t, t.hashable = true →
      let asked := ((Step.operate i (.canTransitionTo t)).act flows).run ps j s
      let moved := (move flows i t).run ps asked.2.1 asked.2.2
      (asked.1 = .ok (.truth true) ↔
        moved.1 = .ok .nothing ∧ moved.2.2.status (flows i) = t) ∧
      (asked.1 = .ok (.truth false) → moved.2.2.status (flows i) = c ∧
        ((∃ r, moved.1 = .error (.rejection r) ∧
            (r.cause = .unknownTarget t (flows i).definition.name ∨
              (∃ reason, r.cause = .invalidRule reason) ∨ r.cause = .notAllowed t)) ∨
          moved.1 = .error (.misuse .tooManyDigits) ∧
            ∃ x ∈ [c, t, (flows i).definition.name], x.writable = false))) ∧
    (let asked := ((Step.operate i .nextStatuses).act flows).run ps j s
      ∀ list, asked.1 = .ok (.statuses list) → ∀ t ∈ list,
        let moved := (move flows i t).run ps asked.2.1 asked.2.2
        moved.1 = .ok .nothing ∧ moved.2.2.status (flows i) = t) := by
  -- The question leaves a note on the field and nothing else, not even a call in the journal.
  have hnote := hsettled.note
  refine ⟨fun t ht => ?_, ?_⟩
  · rw [run_ask flows hsettled hc ht, Attachment.journal_asked hstatic]
    intro asked moved
    have htruth : Answer.truth.Injective := fun _ _ h => Answer.truth.inj h
    refine ⟨⟨fun hanswer => ?_, fun hmoved => ?_⟩, fun hanswer => ?_⟩
    · have hok := (Attachment.asked_ok_true_iff ht).1 (ok_of_map_ok htruth hanswer)
      exact ⟨(move_ok_iff flows hnote hc).2 hok, (settled_of_move flows hnote hc hok).status⟩
    · have hok := (move_ok_iff flows hnote hc).1 hmoved.1
      change ((Attachment.asked _ c t ps j).1).map Answer.truth = _
      rw [(Attachment.asked_ok_true_iff ht).2 hok]
      rfl
    · have hproducer : (flows i).definition.NoOwnRejection c ps j := hstatic.noOwnRejection
      have hworded := Attachment.wordedAs_asked ht hproducer
      rw [ok_of_map_ok htruth hanswer] at hworded
      rcases hworded with hno | ⟨hlong, hunwritable⟩
      · obtain ⟨r, hr⟩ := Transition.verdict_ok_false_iff.1 hno
        obtain ⟨herror, hstatus⟩ := error_of_move flows hnote hc hr
        exact ⟨hstatus, .inl ⟨r, herror, Transition.cause_of_validate hstatic.noOwnRejection hr⟩⟩
      · obtain ⟨herror, hstatus⟩ :=
          error_of_move flows hnote hc (Transition.eq_error_of_verdict hlong)
        exact ⟨hstatus, .inr ⟨herror, hunwritable⟩⟩
  · rw [run_list flows hstatic hsettled]
    intro asked list hasked t ht moved
    have hstatuses : Answer.statuses.Injective := fun _ _ h => Answer.statuses.inj h
    have hok := Attachment.validate_ok_of_listed hids hstatic hsettled.finds
      (ok_of_map_ok hstatuses hasked) ht
    rw [hsettled.staged] at hok
    exact ⟨(move_ok_iff flows hnote hc).2 hok, (settled_of_move flows hnote hc hok).status⟩

theorem draft_forecast_matches_commit :
    let flows : Flows := fun _ => { orderFlow with definition := lostOrders }
    let r := blank.stage "status" (.text "draft")
    let s := start r.persist
    let asked := ((Step.operate 0 (.canTransitionTo (.text "lost"))).act flows).run
      (fun _ _ => .ok .null) .empty s
    let moved := (move flows 0 (.text "lost")).run (fun _ _ => .ok .null) asked.2.1 asked.2.2
    lostOrders.TextIds ∧ lostOrders.OnlyStatic ∧ Settled 0 (flows 0) (.text "draft") s ∧
      asked.1 = .ok (.truth false) ∧ moved.2.2.status (flows 0) = .text "draft" := by
  intro flows r s asked moved
  have hsettled : Settled 0 (flows 0) (.text "draft") s := ⟨by decide, by decide, rfl, rfl⟩
  have hlost := (forecast_matches_commit flows 0 (by decide) (by decide) (fun _ _ => .ok .null)
    .empty s (.text "draft") hsettled rfl).1 (.text "lost") rfl
  have hasked : asked.1 = .ok (.truth false) := rfl
  exact ⟨by decide, by decide, hsettled, hasked, (hlost.2 hasked).1⟩

/-- What was forecast to be refused can fail without being rejected. -/
theorem exists_commit_unworded : ∃ (a : Attachment) (s : Session Record) (c t : Datum),
    a.definition.TextIds ∧ a.definition.OnlyStatic ∧ Settled 0 a c s ∧ c.isNull = false ∧
      t.hashable = true ∧
      let ps : Producers := fun _ _ => .ok .null
      let asked := ((Step.operate 0 (.canTransitionTo t)).act fun _ => a).run ps .empty s
      let moved := (move (fun _ => a) 0 t).run ps asked.2.1 asked.2.2
      asked.1 = .ok (.truth false) ∧ ∀ r, moved.1 ≠ .error (.rejection r) := by
  let a := Attachment.longNamed
  let s := start (blank.stage "status" (.text "draft")).persist
  have hsettled : Settled 0 a (.text "draft") s := ⟨by decide, by decide, rfl, rfl⟩
  refine ⟨a, s, .text "draft", .text "ghost", by decide, by decide, hsettled, rfl, rfl, ?_⟩
  intro ps asked moved
  have hasked : asked = _ := run_ask (fun _ => a) hsettled rfl rfl
  have hlong := congrArg Prod.fst (Attachment.outcome_validate_longNamed ps asked.2.1)
  have hmoved : moved.1 = .error (.misuse .tooManyDigits) := by
    refine (error_of_move (fun _ => a) ?_ rfl hlong).1
    rw [hasked]
    exact hsettled.note
  refine ⟨rfl, fun r hr => ?_⟩
  cases hmoved.symm.trans hr

end Session

end Lifecycle
