import Lifecycle.Proofs.Forecast
import Lifecycle.Proofs.Labels
import Lifecycle.Proofs.Printing

/-!
# The answers of commands about a definition

Where rules are static and identifiers are texts every question has an answer: nothing that is
printed fails to be joined or padded, and no rule fails to be resolved but that of an undeclared
status. The answers do not depend on the producers, nor on what was asked before. All that may lack
words are the labels and the name in them (`Command.said`).
-/

namespace Lifecycle

/-! ## What static rules answer -/

namespace Definition

variable {d : Definition} {a b : String}

/-- What a declared status with a static rule resolves to, at any time. -/
theorem OnlyStatic.exists_targets (hstatic : d.OnlyStatic)
    (hdecl : d.declares (.text a) = true) : ∃ targets,
      (∃ n, d.statuses.get? (.text a) = some n ∧ n.rule = .static targets) ∧
      ∀ ps j, (d.transitionsFrom (.text a)).outcome ps j = (.ok targets, j) := by
  obtain ⟨n, hn⟩ := exists_node_of_declares hdecl
  obtain ⟨targets, hrule⟩ := hstatic.rule hn
  refine ⟨targets, ⟨n, hn, hrule⟩, fun ps j => ?_⟩
  rw [outcome_transitionsFrom_of_node rfl hn, hrule, Rule.outcome_resolve_static]

theorem declares_of_edge (h : d.statuses.Edge (.text a) (.text b)) :
    d.declares (.text a) = true := by
  obtain ⟨n, -, hn, -⟩ := edge_iff.1 h
  exact declares_of_get? hn

theorem edge_iff_mem {targets : Targets}
    (hn : ∃ n, d.statuses.get? (.text a) = some n ∧ n.rule = .static targets) :
    d.statuses.Edge (.text a) (.text b) ↔ b ∈ targets := by
  obtain ⟨n, hn, hrule⟩ := hn
  rw [edge_iff]
  constructor
  · rintro ⟨n', targets', hn', hrule', hb⟩
    rw [hn] at hn'
    cases hn'
    rw [hrule] at hrule'
    cases hrule'
    exact hb
  · intro hb
    exact ⟨n, targets, hn, hrule, hb⟩

/-- What the question of a transition puts into words besides the two statuses: the name of the
definition, where the target is not declared. -/
def saidOf (d : Definition) (source target : Datum) : List Datum :=
  if source == target || d.declares target then [] else [d.name]

theorem eq_name_of_mem_saidOf {source target x : Datum} (h : x ∈ d.saidOf source target) :
    x = d.name := by
  unfold saidOf at h
  split at h
  · cases h
  · exact List.mem_singleton.1 h

theorem saidOf_eq_nil (hids : d.TextIds) (h : a = b ∨ d.statuses.Edge (.text a) (.text b)) :
    d.saidOf (.text a) (.text b) = [] := by
  unfold saidOf
  refine if_pos (Bool.or_eq_true_iff.2 ?_)
  rcases h with rfl | hedge
  · exact .inl (Datum.beq_text_iff.2 rfl)
  · exact .inr (hids.mem_statusIds_iff.1 (mem_statusIds_of_edge hedge))

/-- The name of a definition has to be written for the words about an undeclared status. -/
theorem worded_unknownTarget (a b : String) (name : Datum) :
    (Failure.rejection ⟨.text a, .text b, .unknownTarget (.text b) name⟩).worded =
      if name.writable then .rejection ⟨.text a, .text b, .unknownTarget (.text b) name⟩
      else .misuse .tooManyDigits := by
  unfold Failure.worded Failure.mentions Rejection.mentions
  cases htruthy : name.truthy with
  | true => simp [htruthy]
  | false => simp [htruthy, Datum.writable_of_not_truthy htruthy]

/-- A requirement over static rules is met or rejected, at any time in the same way, unless its
rejection has no words. -/
theorem OnlyStatic.exists_required (hstatic : d.OnlyStatic) (a b : String) :
    ∃ r : Except Rejection Unit, ∀ ps j,
      ((Transition.require d (.text a) (.text b)).outcome ps j).1 =
        if d.declares (.text b) || d.name.writable then r.mapError .rejection
        else .error (.misuse .tooManyDigits) := by
  cases hb : d.declares (.text b) with
  | false =>
    refine ⟨.error ⟨.text a, .text b, .unknownTarget (.text b) d.name⟩, fun ps j => ?_⟩
    rw [Transition.outcome_require_of_undeclared rfl hb, worded_unknownTarget]
    cases d.name.writable <;> rfl
  | true =>
    cases ha : d.declares (.text a) with
    | false =>
      refine ⟨.error ⟨.text a, .null, .invalidRule "status is not declared in the workflow"⟩,
        fun ps j => ?_⟩
      rw [Transition.outcome_require_of_declared rfl hb,
        outcome_transitionsFrom_of_undeclared rfl ha]
      rfl
    | true =>
      obtain ⟨targets, -, hresolved⟩ := hstatic.exists_targets ha
      let refusal : Rejection := ⟨.text a, .text b, .notAllowed (.text b)⟩
      refine ⟨if targets.admits (.text b) then .ok () else .error refusal, fun ps j => ?_⟩
      rw [Transition.outcome_require_of_declared rfl hb, hresolved]
      dsimp only
      split <;> rfl

/-- Validation over static rules accepts or rejects, at any time in the same way, unless its
rejection has no words. -/
theorem OnlyStatic.exists_validated (hstatic : d.OnlyStatic) (a b : String) :
    ∃ r : Except Rejection Unit, ∀ ps j,
      ((Transition.validate d (.text a) (.text b) false).outcome ps j).1 =
        if (d.saidOf (.text a) (.text b)).all Datum.writable then r.mapError .rejection
        else .error (.misuse .tooManyDigits) := by
  cases hab : (Datum.text a == .text b) with
  | true =>
    refine ⟨.ok (), fun ps j => ?_⟩
    rw [Transition.outcome_validate_of_trivial (by rw [hab]; rfl), saidOf, hab]
    rfl
  | false =>
    have hsaid : (d.saidOf (.text a) (.text b)).all Datum.writable =
        (d.declares (.text b) || d.name.writable) := by
      rw [saidOf, hab]
      cases d.declares (.text b) <;> simp
    obtain ⟨r, hr⟩ := hstatic.exists_required a b
    refine ⟨r.mapError fun r => if r.next.isNull then { r with next := .text b } else r,
      fun ps j => ?_⟩
    rw [Transition.outcome_validate_of_change (by rw [hab]; rfl), hr, hsaid]
    cases d.declares (.text b) || d.name.writable with
    | false => rfl
    | true => cases r <;> rfl

theorem OnlyStatic.validate_ok_iff_edge (hstatic : d.OnlyStatic) (hids : d.TextIds)
    (ps : Producers) (j : Journal) :
    ((Transition.validate d (.text a) (.text b) false).outcome ps j).1 = .ok () ↔
      a = b ∨ d.statuses.Edge (.text a) (.text b) := by
  constructor
  · intro h
    rcases Transition.validate_ok_iff.1 h with h | h | ⟨-, -, targets, htargets, hadmits⟩
    · cases h
    · exact .inl (Datum.text.inj (Datum.beq_text_iff.1 h))
    · obtain ⟨targets', hn, hresolved⟩ :=
        hstatic.exists_targets (declares_of_transitionsFrom htargets)
      rw [hresolved] at htargets
      cases htargets
      obtain ⟨t, ht, heq⟩ := Targets.admits_iff.1 hadmits
      cases heq
      exact .inr ((edge_iff_mem hn).2 ht)
  · rintro (rfl | hedge)
    · rw [Transition.outcome_validate_of_trivial]
      exact Datum.beq_text_iff.2 rfl
    · exact Transition.validate_ok_of_edge hids (declares_of_edge hedge) hedge

theorem exists_text_of_mem_inOrder {targets : Targets} :
    ∀ s ∈ d.inOrder targets, ∃ t, s = .text t := by
  intro s hs
  obtain ⟨t, -, rfl⟩ := mem_inOrder_iff.1 hs
  exact ⟨t, rfl⟩

end Definition

/-! ## The summary of an audit -/

namespace Report

variable {r : Report}

theorem exists_listLine {statuses : List Datum} (h : ∀ s ∈ statuses, ∃ t, s = .text t)
    (lead : String) : ∃ lines, listLine lead statuses = .ok lines := by
  unfold listLine
  split
  · exact ⟨_, rfl⟩
  · cases htexts : statuses.mapM Datum.text? with
    | some texts =>
      refine ⟨[lead ++ ", ".intercalate texts], ?_⟩
      rw [Datum.joined, htexts]
      rfl
    | none =>
      obtain ⟨s, hs, hother⟩ := Datum.mapM_text?_eq_none_iff.1 htexts
      obtain ⟨t, rfl⟩ := h s hs
      exact absurd rfl (hother t)

theorem name_of_audit {d : Definition} (h : d.audit = .ok r) : r.name = d.name := by
  unfold Definition.audit at h
  split at h
  · cases h
  · cases h
    rfl

theorem Accurate.exists_violations {d : Definition} (h : r.Accurate d) (hids : d.TextIds) :
    ∃ found, r.violations = .ok found := by
  have hunreachable : ∀ s ∈ r.unreachable, s ∈ d.statusIds := by
    by_cases hdeferred : d.DeferredReached
    · rw [h.unreachable_of_deferred hdeferred]
      exact List.forall_mem_nil _
    · exact (h.unreachable hdeferred).sublist.subset
  have hwritable : (r.unreachable ++ r.selfLoops).all Datum.writable = true := by
    rw [List.all_eq_true]
    intro s hs
    have hdeclared := (List.mem_append.1 hs).elim (hunreachable s)
      fun hs => h.selfLoops.sublist.subset hs
    obtain ⟨t, rfl⟩ := hids s hdeclared
    rfl
  exact ⟨_, h.violations.trans (if_pos hwritable)⟩

/-- A report on texts has a summary if its name can be written. The first words of the summary are
always the same. -/
theorem Accurate.exists_summary {d : Definition} (h : r.Accurate d) (hids : d.TextIds) :
    ∃ text, r.summary =
      (r.name.shownOr "<unnamed>").map fun name => "Workflow Audit: " ++ (name ++ text) := by
  have hline {P : Datum → Node → Prop} {statuses : List Datum} (hlists : d.Lists P statuses)
      (lead : String) : ∃ lines, listLine lead statuses = .ok lines :=
    exists_listLine (fun s hs => hids s (hlists.sublist.subset hs)) lead
  obtain ⟨terminal, hterminal⟩ := hline h.terminal "  Terminal: "
  obtain ⟨deferred, hdeferred⟩ := hline h.deferred "  Deferred rules (not traversed): "
  obtain ⟨found, hfound⟩ := h.exists_violations hids
  obtain ⟨labels, hlabels⟩ := hline h.missingLabels "\nWARNINGS: missing labels for "
  obtain ⟨actions, hactions⟩ :=
    hline h.missingActionLabels "WARNINGS: missing action labels for "
  unfold summary
  rw [hterminal, hdeferred, hfound, hlabels, hactions]
  simp only [bind, Except.bind, pure, Except.pure, List.cons_append, String.intercalate_cons_cons,
    String.append_assoc]
  exact ⟨_, by cases r.name.shownOr "<unnamed>" <;> rfl⟩

end Report

/-! ## The five answers -/

namespace Command

variable {d : Definition} {a b : String}

/-- What a static rule lets follow a status, in the order in which it is listed. -/
def following (d : Definition) (status : Datum) : List Datum :=
  match (d.statuses.get? status).map Node.rule with
  | some (.static targets) => d.inOrder targets
  | _ => []

theorem following_of_static {targets : Targets}
    (hn : ∃ n, d.statuses.get? (.text a) = some n ∧ n.rule = .static targets) :
    following d (.text a) = d.inOrder targets := by
  obtain ⟨n, hn, hrule⟩ := hn
  rw [following, hn, Option.map_some, hrule]

theorem exists_text_of_mem_following {status : Datum} :
    ∀ s ∈ following d status, ∃ t, s = .text t := by
  unfold following
  split
  · exact Definition.exists_text_of_mem_inOrder
  · exact List.forall_mem_nil _

/-- What the answer to a command puts into words, besides texts. -/
def said (c : Command) (d : Definition) : List Datum :=
  match c with
  | .describe _ => d.name :: d.statusIds.flatMap fun s => [d.labelIn false s, d.labelIn true s]
  | .audit _ => [d.name]
  | .next _ status labels => if labels then (following d status).map (d.labelIn true) else []
  | .check _ source target => d.saidOf source target
  | .dropdown _ actions => d.statusIds.map (d.labelIn actions)

theorem said_next_of_undeclared (workflow : Datum) (h : d.declares (.text a) = false)
    (labels : Bool) : said (.next workflow (.text a) labels) d = [] := by
  have hnone : following d (.text a) = [] := by
    rw [following, Table.get?_eq_none_iff.2 h]
    rfl
  change (if labels then (following d (.text a)).map (d.labelIn true) else []) = []
  rw [hnone]
  cases labels <;> rfl

/-- The two lines about a status. -/
def nodeLines (d : Definition) (e : Datum × Node) : List String :=
  ["  " ++ Text.padRight 20 e.1.form ++ " label=" ++ (d.labelIn false e.1).formOr "-" ++
      "  action=" ++ (d.labelIn true e.1).formOr "-",
    "    -> " ++ targetsText e.2.rule]

theorem says_describeNode (t : String) (n : Node) :
    Says [d.labelIn false (.text t), d.labelIn true (.text t)] (describeNode d (.text t) n) ()
      (nodeLines d (.text t, n)) := by
  refine (says_of_prints (prints_ofExcept (.ok (Text.padRight 20 t)))).bind ?_
  refine (says_shownOr (d.labelIn false (.text t)) "-").bind ?_
  refine (says_shownOr (d.labelIn true (.text t)) "-").bind ?_
  exact says_of_prints ((prints_printLine _).bind (prints_printLine _))

theorem says_describe (hids : d.TextIds) (workflow : Datum) :
    Says (said (.describe workflow) d) (describeDefinition d) 0
      (["Workflow: " ++ d.name.form, String.ofList (List.replicate 40 '─'),
        "  Initial status: " ++ d.initial.form, "  Statuses: " ++ toString d.statuses.size ++ "\n"] ++
        d.statuses.entries.flatMap (nodeLines d)) := by
  have hnodes : Says (d.statusIds.flatMap fun s => [d.labelIn false s, d.labelIn true s])
      (d.statuses.entries.forM fun e => describeNode d e.1 e.2) ()
      (d.statuses.entries.flatMap (nodeLines d)) := by
    unfold Definition.statusIds Table.keys
    rw [List.flatMap_map]
    apply says_forM
    rintro ⟨s, n⟩ he
    obtain ⟨t, rfl⟩ := hids s (List.mem_map_of_mem he)
    exact says_describeNode t n
  obtain ⟨t, hinitial⟩ := hids.exists_text d.initial_declared
  have hshown : Prints (Act.ofExcept d.initial.shown) (.ok d.initial.form) [] := by
    rw [hinitial]
    exact prints_ofExcept _
  refine (says_shown d.name).bind ((says_printLine _).bind ((says_printLine _).bind ?_))
  refine (says_of_prints hshown).bind ((says_printLine _).bind ((says_printLine _).bind ?_))
  exact hnodes.then (prints_pure 0)

theorem says_audit (hids : d.TextIds) (hrules : d.Supported) : ∃ report text,
    d.audit = .ok report ∧ Says [d.name] (auditDefinition d) (if report.passed then 0 else 1)
      ["Workflow Audit: " ++ text] := by
  obtain ⟨report, haudit, hreport⟩ := Definition.exists_audit_accurate hrules
  obtain ⟨text, hsummary⟩ := hreport.exists_summary hids
  rw [Report.name_of_audit haudit] at hsummary
  refine ⟨report, d.name.formOr "<unnamed>" ++ text, haudit, ?_⟩
  unfold auditDefinition
  rw [haudit]
  refine (says_of_prints (prints_ofExcept (.ok report))).bind ?_
  rw [hsummary]
  refine (says_shownOr_map d.name _ _).prints ?_
  exact (prints_printLine _).then (prints_pure _)

/-- The lines that list what may follow a status, given with the labels of the actions. A listed
status may read like the line about a terminal one. -/
def nextLines (status : String) (labels : Bool) (actions : List (Datum × Datum)) : List String :=
  if actions.isEmpty then ["  " ++ status ++ " is terminal"]
  else actions.map fun p =>
    if labels then "  " ++ p.1.form ++ "  (" ++ p.2.formOr "-" ++ ")" else "  " ++ p.1.form

theorem says_nextText (labels : Bool) (t : String) :
    Says (if labels then [d.labelIn true (.text t)] else [])
      (Act.ofExcept (nextText d labels (.text t)))
      (if labels then "  " ++ t ++ "  (" ++ (d.labelIn true (.text t)).formOr "-" ++ ")"
        else "  " ++ t) [] := by
  cases labels with
  | false => exact says_of_prints (prints_ofExcept _)
  | true =>
    have htext : nextText d true (.text t) = ((d.labelIn true (.text t)).shownOr "-").map
        fun label => "  " ++ t ++ "  (" ++ label ++ ")" := by
      change ((d.labelIn true (.text t)).shownOr "-" >>= fun label => _) = _
      cases (d.labelIn true (.text t)).shownOr "-" <;> rfl
    rw [htext]
    exact says_shownOr_map _ _ _

theorem says_printNext (labels : Bool) {found : List Datum}
    (hfound : ∀ s ∈ found, ∃ t, s = .text t) :
    Says (if labels then found.map (d.labelIn true) else []) (printNext d (.text a) labels found) ()
      (nextLines a labels (found.map fun s => (s, d.labelIn true s))) := by
  have hlabels : (if labels then found.map (d.labelIn true) else []) =
      found.flatMap fun s => if labels then [d.labelIn true s] else [] := by
    cases labels with
    | false => exact (List.flatMap_eq_nil_iff.2 fun _ _ => rfl).symm
    | true => exact List.map_eq_flatMap
  unfold printNext nextLines
  rw [hlabels, List.isEmpty_map]
  cases found with
  | nil =>
    rw [List.isEmpty_nil, if_pos rfl, if_pos rfl]
    refine says_of_prints ((prints_ofExcept (.ok a)).use ?_)
    exact prints_printLine _
  | cons s found =>
    rw [List.isEmpty_cons, if_neg Bool.false_ne_true, if_neg Bool.false_ne_true, List.map_map]
    apply says_each
    intro s hs
    obtain ⟨t, rfl⟩ := hfound s hs
    exact (says_nextText labels t).prints (prints_printLine _)

theorem says_next {targets : Targets} (workflow : Datum)
    (hn : ∃ n, d.statuses.get? (.text a) = some n ∧ n.rule = .static targets)
    (h : ∀ ps j, (d.transitionsFrom (.text a)).outcome ps j = (.ok targets, j)) (labels : Bool) :
    Says (said (.next workflow (.text a) labels) d) (nextStatuses d (.text a) labels) 0
      (nextLines a labels ((d.inOrder targets).map fun s => (s, d.labelIn true s))) := by
  have hfound : Prints (d.orderedTransitions (.text a)) (.ok (d.inOrder targets)) [] :=
    prints_nothing fun ps j => ⟨j, fun printed => by
      rw [Definition.run_orderedTransitions, h]
      rfl⟩
  change Says (if labels then (following d (.text a)).map (d.labelIn true) else []) _ _ _
  rw [following_of_static hn]
  refine (says_of_prints hfound.orPrint_of_ok).bind ?_
  exact (says_printNext labels Definition.exists_text_of_mem_inOrder).then (prints_pure 0)

theorem says_next_of_undeclared (workflow : Datum) (h : d.declares (.text a) = false)
    (labels : Bool) :
    Says (said (.next workflow (.text a) labels) d) (nextStatuses d (.text a) labels) 1
      ["ERROR: " ++ (Definition.undeclared (.text a)).message] := by
  have hfailed : Prints (d.orderedTransitions (.text a))
      (.error (Definition.undeclared (.text a))) [] :=
    prints_nothing fun ps j => ⟨j, fun printed => by
      rw [Definition.run_orderedTransitions, Definition.outcome_transitionsFrom_of_undeclared rfl h]
      rfl⟩
  rw [said_next_of_undeclared workflow h]
  exact says_of_prints ((hfailed.orPrint_of_workflow rfl).then (prints_pure 1))

theorem says_check (hids : d.TextIds) (hstatic : d.OnlyStatic) (a b : String) :
    ∃ permitted words, (permitted = true ↔ a = b ∨ d.statuses.Edge (.text a) (.text b)) ∧
      Says (d.saidOf (.text a) (.text b)) (checkTransition d (.text a) (.text b))
        (if permitted then 0 else 1)
        (("  " ++ words) :: if permitted then ["  Transition is valid."] else []) := by
  obtain ⟨r, hr⟩ := hstatic.exists_validated a b
  have hrun (ps : Producers) (j : Journal) : ∃ j' : Journal, ∀ printed : String,
      (Transition.validate d (.text a) (.text b) false).run ps j printed =
        (if (d.saidOf (.text a) (.text b)).all Datum.writable then r.mapError .rejection
          else .error (.misuse .tooManyDigits), j', printed) := by
    refine ⟨((Transition.validate d (.text a) (.text b) false).outcome ps j).2, fun printed => ?_⟩
    rw [Transition.run_validate, hr]
  have hvalidated := (prints_nothing hrun).attempt
  let ps : Producers := fun _ _ => .ok .null
  have hok := hstatic.validate_ok_iff_edge (a := a) (b := b) hids ps .empty
  rw [hr] at hok
  cases hsaid : (d.saidOf (.text a) (.text b)).all Datum.writable with
  | false =>
    rw [hsaid] at hok hvalidated
    have hfails : Prints (Transition.check d (.text a) (.text b))
        (.error (.misuse .tooManyDigits)) [] := hvalidated.use (prints_ofExcept _)
    refine ⟨false, "", ?_, says_iff.2 (.inr ⟨hsaid, [], hfails.bind_of_error⟩)⟩
    rw [← hok]
    simp
  | true =>
    rw [hsaid] at hok hvalidated
    cases r with
    | ok _ =>
      have hanswer : Prints (Transition.check d (.text a) (.text b))
          (.ok (true, a ++ " -> " ++ b)) [] := hvalidated.use (prints_ofExcept _)
      refine ⟨true, a ++ " -> " ++ b, iff_of_true rfl (hok.1 rfl), says_iff.2 (.inl ⟨hsaid, ?_⟩)⟩
      exact hanswer.use ((prints_printLine _).bind ((prints_printLine _).then (prints_pure 0)))
    | error r =>
      have hanswer : Prints (Transition.check d (.text a) (.text b)) (.ok (false, r.message)) [] :=
        hvalidated.use (prints_pure _)
      refine ⟨false, r.message, ?_, says_iff.2 (.inl ⟨hsaid, ?_⟩)⟩
      · rw [← hok]
        simp [Except.mapError]
      · exact hanswer.use ((prints_printLine _).then (prints_pure 1))

/-- The line of a status and a label to choose from. -/
def choiceLine (choice : Datum × Datum) : String :=
  "  " ++ Text.padRight 20 choice.1.form ++ " " ++ choice.2.formOr "-"

theorem says_dropdown (hids : d.TextIds) (actions : Bool) :
    Says (d.statusIds.map (d.labelIn actions)) (listStatuses d actions) 0
      ((d.statusIds.map fun s => (s, d.labelIn actions s)).map choiceLine) := by
  unfold listStatuses
  rw [Definition.labelEach_of_texts hids]
  refine (says_of_prints (prints_ofExcept (.ok _))).bind (Says.then (a := ()) ?_ (prints_pure 0))
  have hlabels : d.statusIds.map (d.labelIn actions) =
      (d.statusIds.map fun s => (s, d.labelIn actions s)).flatMap fun p => [p.2] := by
    rw [← List.map_eq_flatMap, List.map_map]
    rfl
  rw [hlabels]
  apply says_each
  intro p hp
  obtain ⟨s, hs, rfl⟩ := List.mem_map.1 hp
  obtain ⟨t, rfl⟩ := hids s hs
  refine (says_of_prints (prints_ofExcept (.ok (Text.padRight 20 t)))).bind ?_
  exact (says_shownOr (d.labelIn actions (.text t)) "-").bind (says_printLine _)

end Command

end Lifecycle
