import Lifecycle.Proofs.Audit
import Lifecycle.Proofs.Staging

/-!
# What a run can persist

An attachment alone with a new record starts, commits and then goes on as it likes. What it can
persist is what the audit does not call unreachable. One way, the persisted status stays on static
paths from the initial one as long as no deferred rule is met. The other way, a run walks along a
static path, and at a deferred rule producers can answer with every status.
-/

namespace Lifecycle

/-! ## What validation accepts of a static edge and of a deferred rule -/

/-- Producers that always list all statuses of a definition. -/
def everyStatus (d : Definition) : Producers := fun _ _ => .ok (.list d.statusIds)

namespace Transition

variable {d : Definition} {ps : Producers} {j : Journal}

theorem validate_ok_of_edge (hids : d.TextIds) {p t : Datum} (hp : d.declares p = true)
    (hedge : d.statuses.Edge p t) :
    ((validate d p t false).outcome ps j).1 = .ok () := by
  have ht := hids.mem_statusIds_iff.1 (Definition.mem_statusIds_of_edge hedge)
  obtain ⟨p', rfl⟩ := hids.exists_text hp
  obtain ⟨t', rfl⟩ := hids.exists_text ht
  obtain ⟨n, targets, hn, hrule, hmem⟩ := Definition.edge_iff.1 hedge
  rw [validate_ok_iff]
  refine .inr (.inr ⟨rfl, ht, targets, ?_, Targets.admits_iff.2 ⟨t', hmem, rfl⟩⟩)
  rw [Definition.outcome_transitionsFrom_of_node rfl hn, hrule, Rule.outcome_resolve_static]

theorem validate_ok_of_deferred (hids : d.TextIds) {q t : Datum} {n : Node}
    (hq : d.declares q = true) (hn : d.statuses.get? q = some n)
    (hdeferred : n.rule.isDeferred = true) (ht : d.declares t = true) :
    ((validate d q t false).outcome (everyStatus d) j).1 = .ok () := by
  obtain ⟨q', rfl⟩ := hids.exists_text hq
  obtain ⟨t', rfl⟩ := hids.exists_text ht
  obtain ⟨texts, htexts⟩ : ∃ texts, d.statusIds.mapM Datum.text? = some texts := by
    rw [← Option.ne_none_iff_exists']
    intro hnone
    obtain ⟨x, hx, hother⟩ := Datum.mapM_text?_eq_none_iff.1 hnone
    obtain ⟨t, ht⟩ := hids x hx
    exact hother t ht
  have ht' : t' ∈ texts := by
    have hmem := hids.mem_statusIds_iff.2 ht
    rw [Datum.mapM_text?_eq_some_iff.1 htexts, List.mem_map] at hmem
    obtain ⟨t, htexts, heq⟩ := hmem
    cases heq
    exact htexts
  rw [validate_ok_iff]
  refine .inr (.inr ⟨rfl, ht, .ofList texts, ?_, ?_⟩)
  · rw [Definition.outcome_transitionsFrom_of_node rfl hn]
    cases hrule : n.rule with
    | static targets =>
      rw [hrule] at hdeferred
      cases hdeferred
    | deferred p =>
      rw [Rule.outcome_resolve_deferred]
      change Rule.targetsOf _ (.list d.statusIds) = _
      simp only [Rule.targetsOf, Rule.listed?, htexts]
    | unsupported kind =>
      rw [hrule] at hdeferred
      cases hdeferred
  · exact Targets.admits_iff.2 ⟨t', Targets.mem_ofList.2 ht', rfl⟩

end Transition

/-! ## An attachment alone with a record -/

/-- A step of attachment `0` that changes its status or checks it. -/
inductive Step.Alone : Step → Prop where
  | start : Alone (.operate 0 .start)
  | propose (status : Datum) : Alone (.operate 0 (.propose status))
  | validate : Alone (.operate 0 .validateBeforeCommit)
  | commit : Alone (.commit (some 0))

theorem Step.Alone.gated {st : Step} (h : st.Alone) : st.GatedBy 0 := by
  cases h with
  | start => trivial
  | propose status => trivial
  | validate => trivial
  | commit => rfl

namespace Session

variable {a : Attachment} {ps : Producers} {j : Journal} {s : Session Record}

/-- The first steps on a new record. -/
def opening : List Step := [.operate 0 .start, .commit (some 0)]

/-- Some producers and some run of the attachment persist a status of the record. -/
def CanPersist (a : Attachment) (r : Record) (status : Datum) : Prop :=
  ∃ ps rest, (∀ st ∈ rest, Step.Alone st) ∧
    (after (fun _ => a) ps (opening ++ rest) (.empty, start r)).2.status a = status

/-! ## Only statuses on static paths -/

theorem Permitted.edge_or_deferred {d : Definition} (hids : d.TextIds) {j' : Journal} {p q : Datum}
    (h : Permitted d ps j j' p q) :
    d.statuses.Edge p q ∨ ∃ n, d.statuses.get? p = some n ∧ n.rule.isDeferred = true := by
  obtain ⟨hp, -, targets, htargets, hadmits, -⟩ := h
  obtain ⟨t, rfl⟩ := hids.exists_text hp
  obtain ⟨n, hn⟩ := Definition.exists_node_of_declares hp
  rw [Definition.outcome_transitionsFrom_of_node rfl hn] at htargets
  cases hrule : n.rule with
  | static targets' =>
    rw [hrule, Rule.outcome_resolve_static] at htargets
    cases htargets
    obtain ⟨t', ht', rfl⟩ := Targets.admits_iff.1 hadmits
    exact .inl (Definition.edge_iff.2 ⟨n, targets, hn, hrule, ht'⟩)
  | deferred producer => exact .inr ⟨n, hn, by rw [hrule]; rfl⟩
  | unsupported kind =>
    rw [hrule, Rule.outcome_resolve_unsupported] at htargets
    cases htargets

/-- Either nothing is persisted and nothing will be, for want of the field, or what is persisted
lies on a static path. -/
def OnPath (a : Attachment) (s : Session Record) : Prop :=
  s.entity.persisted = none ∧ (s.view 0).finds a = false ∨
    s.entity.persisted.isSome = true ∧
      a.definition.statuses.Path a.definition.initial (s.status a)

theorem run_alone_of_missing {st : Step} (hst : st.Alone) (h : (s.view 0).finds a = false) :
    ((st.act fun _ => a).run ps j s).2.2 = s := by
  have hoperate (op : Operation) (hrun : (op.act a).run ps j (s.view 0) =
      (.error (.missingAttribute a.field a.entityKind), j, s.view 0)) :
      (((Step.operate 0 op).act fun _ => a).run ps j s).2.2 = s := by
    change ((of 0 (op.act a)).run ps j s).2.2 = s
    rw [run_of, hrun]
    exact update_view 0 s
  cases hst with
  | start =>
    apply hoperate .start
    simp only [Operation.act, Act.run_bind, Attachment.run_start_of_missing h]
  | propose status =>
    apply hoperate (.propose status)
    simp only [Operation.act, Act.run_bind, Attachment.run_propose_of_missing h]
  | validate =>
    apply hoperate .validateBeforeCommit
    simp only [Operation.act, Act.run_bind, Attachment.run_validateBeforeCommit_of_missing h]
  | commit => rw [run_commit_of_missing h]

theorem onPath_of_step (hids : a.definition.TextIds)
    (hstatic : ¬ a.definition.ReachesDeferred) {st : Step} (hst : st.Alone) (h : OnPath a s) :
    OnPath a ((st.act fun _ => a).run ps j s).2.2 := by
  rcases h with ⟨hnone, hmissing⟩ | ⟨hsome, hpath⟩
  · rw [run_alone_of_missing hst hmissing]
    exact .inl ⟨hnone, hmissing⟩
  · obtain ⟨hsome', hcases⟩ := status_of_step (fun _ => a) ps j hst.gated hsome
    refine .inr ⟨hsome', ?_⟩
    rcases hcases with heq | heq | hpermitted
    · rw [heq]
      exact hpath
    · obtain ⟨t, ht⟩ := hids.exists_text (Definition.declares_of_path hids hpath)
      rw [ht] at heq hpath
      rw [Datum.text_beq_iff.1 heq]
      exact hpath
    · rcases hpermitted.edge_or_deferred hids with hedge | ⟨n, hn, hdeferred⟩
      · exact hpath.tail hedge
      · exact absurd ⟨_, n, hpath, hn, hdeferred⟩ hstatic

/-! ## Every status on a static path -/

theorem settled_opening (hfinds : (s.view 0).finds a = true) (hnew : s.entity.persisted = none) :
    Settled 0 a a.definition.initial (after (fun _ => a) ps opening (j, s)).2 := by
  have hvalid : (Transition.validate a.definition (s.status a) a.definition.initial
      s.entity.persisted.isNone).outcome ps j = (.ok (), j) := by
    apply Transition.outcome_validate_of_trivial
    rw [hnew]
    rfl
  unfold after opening
  simp only [List.map_cons, List.map_nil, Act.after_cons, Act.after_nil]
  rw [run_operate_start hfinds]
  dsimp only
  rw [run_commit_stage, hvalid]
  exact settled_persist_stage 0 a a.definition.initial s

/-- A run of the attachment on a new record to a settled status. -/
def SettlesAt (a : Attachment) (ps : Producers) (r : Record) (p : Datum) : Prop :=
  ∃ rest, (∀ st ∈ rest, Step.Alone st) ∧
    Settled 0 a p (after (fun _ => a) ps (opening ++ rest) (.empty, start r)).2

theorem SettlesAt.move (hids : a.definition.TextIds) {r : Record} {p t : Datum}
    (h : SettlesAt a ps r p) (hp : a.definition.declares p = true)
    (hok : ∀ j, ((Transition.validate a.definition p t false).outcome ps j).1 = .ok ()) :
    SettlesAt a ps r t := by
  obtain ⟨rest, halone, hsettled⟩ := h
  have hnull : p.isNull = false := by
    obtain ⟨p', rfl⟩ := hids.exists_text hp
    rfl
  refine ⟨rest ++ [.operate 0 (.propose t), .commit (some 0)], ?_, ?_⟩
  · intro st hst
    simp only [List.mem_append, List.mem_cons, List.not_mem_nil, or_false] at hst
    rcases hst with hst | rfl | rfl
    · exact halone st hst
    · exact .propose t
    · exact .commit
  · rw [← List.append_assoc, after_append, after_move (fun _ => a) hsettled hnull t]
    exact settled_of_move (fun _ => a) hsettled hnull (hok _)

/-- A run to the end of a static path, whatever the producers answer. -/
theorem settlesAt_of_path (hids : a.definition.TextIds) {r : Record} (hnew : r.persisted = none)
    (hcolumn : r.hasColumn a.field = true) (ps : Producers) {p : Datum}
    (hpath : a.definition.statuses.Path a.definition.initial p) : SettlesAt a ps r p := by
  induction hpath with
  | refl =>
    have hfinds : ((start r).view 0).finds a = true := hcolumn
    refine ⟨[], by simp, ?_⟩
    rw [List.append_nil]
    exact settled_opening hfinds hnew
  | tail hpath hedge ih =>
    have hp := Definition.declares_of_path hids hpath
    exact ih.move hids hp fun _ => Transition.validate_ok_of_edge hids hp hedge

/-! ## The audit is exact -/

theorem not_canPersist_of_unreached (hids : a.definition.TextIds) {r : Record}
    (hnew : r.persisted = none) {t : Datum} (ht : a.definition.declares t = true)
    (hstatic : ¬ a.definition.ReachesDeferred)
    (hpath : ¬ a.definition.statuses.Path a.definition.initial t) : ¬ CanPersist a r t := by
  rintro ⟨ps, rest, halone, hstatus⟩
  have hopening : OnPath a (after (fun _ => a) ps opening (.empty, start r)).2 := by
    cases hfinds : ((start r).view 0).finds a with
    | true =>
      have hsettled : Settled 0 a a.definition.initial
          (after (fun _ => a) ps opening (.empty, start r)).2 := settled_opening hfinds hnew
      refine .inr ⟨hsettled.persisted, ?_⟩
      rw [hsettled.status]
    | false =>
      -- The opening fails for want of the field, and so does every later step.
      have hfirst : OnPath a (start r) := .inl ⟨hnew, hfinds⟩
      exact onPath_of_step hids hstatic .commit (onPath_of_step hids hstatic .start hfirst)
  have hlast : OnPath a (after (fun _ => a) ps (opening ++ rest) (.empty, start r)).2 := by
    rw [after_append]
    exact after_induction (P := fun y => OnPath a y.2) hopening fun st hst y hy =>
      onPath_of_step hids hstatic (halone st hst) hy
  rcases hlast with ⟨hnone, -⟩ | ⟨-, honpath⟩
  · have hnull : (after (fun _ => a) ps (opening ++ rest) (.empty, start r)).2.status a = .null := by
      unfold status Record.persistedValue
      rw [hnone]
    obtain ⟨t', rfl⟩ := hids.exists_text ht
    rw [hnull] at hstatus
    cases hstatus
  · rw [hstatus] at honpath
    exact hpath honpath

theorem canPersist_of_reached (hids : a.definition.TextIds) {r : Record}
    (hnew : r.persisted = none) (hcolumn : r.hasColumn a.field = true) {t : Datum}
    (ht : a.definition.declares t = true)
    (h : a.definition.ReachesDeferred ∨ a.definition.statuses.Path a.definition.initial t) :
    CanPersist a r t := by
  have hsettles : SettlesAt a (everyStatus a.definition) r t := by
    rcases h with ⟨q, n, hpath, hn, hdeferred⟩ | hpath
    · have hq := Definition.declares_of_path hids hpath
      exact (settlesAt_of_path hids hnew hcolumn _ hpath).move hids hq fun _ =>
        Transition.validate_ok_of_deferred hids hq hn hdeferred ht
    · exact settlesAt_of_path hids hnew hcolumn _ hpath
  obtain ⟨rest, halone, hsettled⟩ := hsettles
  exact ⟨_, rest, halone, hsettled.status⟩

/-- What the audit calls unreachable no attachment ever persists on a new record, and everything
else is persisted on any new record that has the column. -/
theorem unreachable_iff_never_persisted (d : Definition) (hids : d.TextIds)
    (hrules : d.Supported) :
    ∃ report, d.audit = .ok report ∧ ∀ s, d.declares s = true →
      (s ∈ report.unreachable ↔ ∀ (a : Attachment) (r : Record), a.definition = d →
        r.persisted = none → ¬ CanPersist a r s) ∧
      (s ∉ report.unreachable → ∀ (a : Attachment) (r : Record), a.definition = d →
        r.persisted = none → r.hasColumn a.field = true → CanPersist a r s) := by
  obtain ⟨report, haudit, hmem⟩ := Definition.exists_audit hids hrules
  refine ⟨report, haudit, fun s hs => ?_⟩
  have hreached (hlisted : s ∉ report.unreachable) (a : Attachment) (r : Record)
      (hdef : a.definition = d) (hnew : r.persisted = none) (hcolumn : r.hasColumn a.field = true) :
      CanPersist a r s := by
    subst hdef
    refine canPersist_of_reached hids hnew hcolumn hs ?_
    by_contra hnot
    rw [not_or] at hnot
    exact hlisted ((hmem s).2 ⟨hs, hnot.1, hnot.2⟩)
  refine ⟨⟨?_, ?_⟩, hreached⟩
  · intro hlisted a r hdef hnew
    subst hdef
    obtain ⟨-, hstatic, hpath⟩ := (hmem s).1 hlisted
    exact not_canPersist_of_unreached hids hnew hs hstatic hpath
  · intro hnever
    by_contra hlisted
    -- Some record with the column is enough to refute that the status is never persisted.
    have hcolumn : blank.hasColumn "status" = true := by decide
    let a : Attachment := { orderFlow with definition := d }
    exact hnever a blank rfl rfl (hreached hlisted a blank rfl rfl hcolumn)

/-- Drafts are paid; a lost order can be drafted again, but none gets lost. -/
def lostOrders : Definition where
  initial := .text "draft"
  statuses :=
    ⟨[(.text "draft", { rule := .static (.ofList ["paid"]), label := .null, actionLabel := .null }),
      (.text "paid", { rule := .static .empty, label := .null, actionLabel := .null }),
      (.text "lost", { rule := .static (.ofList ["draft"]), label := .null, actionLabel := .null })],
      by decide⟩
  labels := .empty
  actionLabels := .empty
  name := .text "orders"
  initial_declared := by decide
  targets_declared := by decide

theorem lost_never_persisted :
    let flow : Attachment := { orderFlow with definition := lostOrders }
    lostOrders.TextIds ∧ lostOrders.Supported ∧ lostOrders.declares (.text "lost") = true ∧
      lostOrders.declares (.text "paid") = true ∧ ¬ CanPersist flow blank (.text "lost") ∧
      CanPersist flow blank (.text "paid") := by
  intro flow
  have hlist : lostOrders.audit.map Report.unreachable = .ok [.text "lost"] := rfl
  obtain ⟨report, haudit, hexact⟩ :=
    unreachable_iff_never_persisted lostOrders (by decide) (by decide)
  rw [haudit] at hlist
  have hlist : report.unreachable = [.text "lost"] := Except.ok.inj hlist
  refine ⟨by decide, by decide, by decide, by decide, ?_, ?_⟩
  · have hlost := (hexact (.text "lost") (by decide)).1
    rw [hlist] at hlost
    exact hlost.1 (by simp) flow blank rfl rfl
  · have hpaid := (hexact (.text "paid") (by decide)).2
    rw [hlist] at hpaid
    exact hpaid (by simp) flow blank rfl rfl (by decide)

end Session

end Lifecycle
