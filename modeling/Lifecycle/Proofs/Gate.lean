import Lifecycle.Proofs.Run

/-!
# The gate over whole runs

Where every commit of a run waits for the check of one attachment, the persisted status of that
attachment moves along permitted edges only, whatever else the run does in between. What is persisted
and has no way out, or is not declared at all, is therefore persisted for ever, and what is declared
stays declared.
-/

namespace Lifecycle

namespace Datum

/-- The same datum, or one equal to it. -/
def Unchanged (p q : Datum) : Prop := q = p ∨ (p == q) = true

theorem Unchanged.refl (p : Datum) : Unchanged p p := .inl rfl

theorem Unchanged.beq {p q r : Datum} (h : Unchanged p q) (hqr : (q == r) = true) :
    Unchanged p r := by
  rcases h with rfl | h
  · exact .inr hqr
  · exact .inr (beq_trans h hqr)

theorem Unchanged.eq_of_text {p : Datum} {t : String} (h : Unchanged p (.text t)) :
    p = .text t := by
  rcases h with h | h
  · exact h.symm
  · exact beq_text_iff.1 h

end Datum

namespace Definition

variable {d : Definition} {ps : Producers} {j : Journal}

theorem targets_of_terminal {p : Datum} {targets : Targets} (h : d.isTerminal p = .ok true)
    (htargets : ((d.transitionsFrom p).outcome ps j).1 = .ok targets) : targets.members = [] := by
  rcases transitionsFrom_cases d p ps j with ⟨-, hout⟩ | ⟨-, hout⟩ | ⟨n, hnode, -, hout⟩
  · rw [hout] at htargets
    cases htargets
  · rw [hout] at htargets
    cases htargets
  · have hterminal : n.rule.isTerminal = true := by
      rw [isTerminal, hnode] at h
      exact Except.ok.inj h
    rw [hout] at htargets
    cases hrule : n.rule with
    | static ts =>
      rw [hrule] at hterminal htargets
      cases htargets
      exact List.isEmpty_iff.1 hterminal
    | deferred q =>
      rw [hrule] at hterminal
      cases hterminal
    | unsupported kind =>
      rw [hrule] at hterminal
      cases hterminal

end Definition

namespace Session

variable {flows : Flows} {ps : Producers} {i : Nat}

/-- What is persisted of the status of an attachment, null if there is nothing. -/
def status (a : Attachment) (s : Session Record) : Datum := s.entity.persistedValue a.field

/-- The status is persisted and was resolved as a permitted one: the edge leads from a declared
status to a declared one that the rule allowed at that moment, and the commit called just what that
rule calls. -/
def Permitted (d : Definition) (ps : Producers) (j j' : Journal) (p q : Datum) : Prop :=
  d.declares p = true ∧ d.declares q = true ∧
    ∃ targets, ((d.transitionsFrom p).outcome ps j).1 = .ok targets ∧ targets.admits q = true ∧
      j'.calls = ((d.transitionsFrom p).outcome ps j).2.calls

theorem status_persist (a : Attachment) {s s' : Session Record}
    (h : s'.entity = s.entity.persist) : s'.status a = (s.view i).staged a := by
  unfold status
  rw [h]
  rfl

theorem status_of_persisted_eq (a : Attachment) {s s' : Session Record}
    (h : s'.entity.persisted = s.entity.persisted) : s'.status a = s.status a := by
  unfold status Record.persistedValue
  rw [h]

/-- A commit that persists another status than before has followed a permitted edge. -/
theorem permitted_of_commit {j : Journal} {s : Session Record}
    (hpersisted : s.entity.persisted.isSome = true) {answer : Answer}
    (hok : (((Step.commit (some i)).act flows).run ps j s).1 = .ok answer)
    (hne : (s.status (flows i) ==
      (((Step.commit (some i)).act flows).run ps j s).2.2.status (flows i)) = false) :
    Permitted (flows i).definition ps j (((Step.commit (some i)).act flows).run ps j s).2.1
      (s.status (flows i))
      ((((Step.commit (some i)).act flows).run ps j s).2.2.status (flows i)) := by
  rcases commit_cases flows i ps j s with ⟨e, herror, -⟩ | ⟨-, hentity, hvalid⟩
  · rw [herror] at hok
    cases hok
  rw [status_persist (flows i) (i := i) hentity] at hne ⊢
  have hnew : Accessor.isNew ((s.view i).afterRead (flows i)).entity = false := by
    change s.entity.persisted.isNone = false
    rw [Option.isNone_eq_false_iff]
    exact hpersisted
  have hok := congrArg Prod.fst hvalid
  unfold Attached.validation at hok hvalid
  rcases Transition.validate_ok_iff.1 hok with h | h | ⟨hkey, hdecl, targets, htargets, hadmits⟩
  · rw [hnew] at h
    cases h
  · exact absurd (hne.symm.trans h) (by simp)
  · refine ⟨Definition.declares_of_transitionsFrom htargets, hdecl, targets, htargets, hadmits, ?_⟩
    have hchange : (Accessor.isNew ((s.view i).afterRead (flows i)).entity ||
        s.status (flows i) == (s.view i).staged (flows i)) = false := by
      rw [hnew, hne]
      rfl
    have hcalls := Transition.calls_validate_of_declared ps j hchange hkey hdecl
    rw [← hcalls]
    exact congrArg (fun r => r.2.calls) hvalid.symm

/-- A commit either leaves the persisted status as it was, up to equality, or has followed a
permitted edge. Every other step leaves it. -/
theorem status_of_step (flows : Flows) (ps : Producers) (j : Journal) {st : Step}
    (hgate : st.GatedBy i) {s : Session Record} (hpersisted : s.entity.persisted.isSome = true) :
    let done := ((st.act flows).run ps j s).2
    done.2.entity.persisted.isSome = true ∧
      (done.2.status (flows i) = s.status (flows i) ∨
        (s.status (flows i) == done.2.status (flows i)) = true ∨
        Permitted (flows i).definition ps j done.1 (s.status (flows i))
          (done.2.status (flows i))) := by
  intro done
  by_cases hcommit : ∃ gate, st = .commit gate
  · obtain ⟨gate, rfl⟩ := hcommit
    obtain rfl : gate = some i := hgate
    rcases commit_cases flows i ps j s with ⟨e, -, hentity⟩ | ⟨hok, hentity, -⟩
    · have hkept : done.2.entity.persisted = s.entity.persisted := congrArg Record.persisted hentity
      exact ⟨by rw [hkept]; exact hpersisted, .inl (status_of_persisted_eq _ hkept)⟩
    · refine ⟨?_, .inr ?_⟩
      · rw [show done.2.entity = s.entity.persist from hentity]
        rfl
      · cases heq : s.status (flows i) == done.2.status (flows i) with
        | true => exact .inl rfl
        | false => exact .inr (permitted_of_commit hpersisted hok heq)
  · have hkept : done.2.entity.persisted = s.entity.persisted :=
      keeps_persisted (fun gate h => hcommit ⟨gate, h⟩) ps j s
    exact ⟨by rw [hkept]; exact hpersisted, .inl (status_of_persisted_eq _ hkept)⟩

/-- A status without a way out: declared without targets, or not declared. -/
def Frozen (d : Definition) (p : Datum) : Prop := d.isTerminal p = .ok true ∨ d.declares p = false

theorem not_permitted_of_frozen {d : Definition} {j j' : Journal} {p q : Datum}
    (h : Frozen d p) : ¬ Permitted d ps j j' p q := by
  rintro ⟨hp, -, targets, htargets, hadmits, -⟩
  rcases h with h | h
  · obtain ⟨t, ht, -⟩ := Targets.admits_iff.1 hadmits
    have hmem : t ∈ targets.members := ht
    rw [Definition.targets_of_terminal h htargets] at hmem
    cases hmem
  · rw [hp] at h
    cases h

-- The invariant is unchangedness from the start, not from step to step: a later status that is
-- declared is a text, so it is the first one, and the first one has no way out.
theorem unchanged_of_frozen (hids : (flows i).definition.TextIds) {steps : List Step}
    (hgated : ∀ st ∈ steps, st.GatedBy i) {x : Journal × Session Record}
    (hpersisted : x.2.entity.persisted.isSome = true)
    (hfrozen : Frozen (flows i).definition (x.2.status (flows i))) :
    (after flows ps steps x).2.entity.persisted.isSome = true ∧
      Datum.Unchanged (x.2.status (flows i)) ((after flows ps steps x).2.status (flows i)) := by
  refine after_induction
    (P := fun y => y.2.entity.persisted.isSome = true ∧
      Datum.Unchanged (x.2.status (flows i)) (y.2.status (flows i)))
    ⟨hpersisted, .refl _⟩ fun st hst y hy => ?_
  obtain ⟨hsome, hcases⟩ := status_of_step flows ps y.1 (hgated st hst) hy.1
  refine ⟨hsome, ?_⟩
  rcases hcases with heq | heq | hpermitted
  · rw [heq]
    exact hy.2
  · exact hy.2.beq heq
  · obtain ⟨t, ht⟩ := hids.exists_text hpermitted.1
    have hfirst : x.2.status (flows i) = y.2.status (flows i) := by
      rw [ht]
      exact (ht ▸ hy.2).eq_of_text
    rw [hfirst] at hfrozen
    exact absurd hpermitted (not_permitted_of_frozen hfrozen)

theorem declares_of_run (hids : (flows i).definition.TextIds) {steps : List Step}
    (hgated : ∀ st ∈ steps, st.GatedBy i) {x : Journal × Session Record}
    (hpersisted : x.2.entity.persisted.isSome = true)
    (hdecl : (flows i).definition.declares (x.2.status (flows i)) = true) :
    (after flows ps steps x).2.entity.persisted.isSome = true ∧
      (flows i).definition.declares ((after flows ps steps x).2.status (flows i)) = true := by
  refine after_induction
    (P := fun y => y.2.entity.persisted.isSome = true ∧
      (flows i).definition.declares (y.2.status (flows i)) = true)
    ⟨hpersisted, hdecl⟩ fun st hst y hy => ?_
  obtain ⟨hsome, hcases⟩ := status_of_step flows ps y.1 (hgated st hst) hy.1
  refine ⟨hsome, ?_⟩
  rcases hcases with heq | heq | hpermitted
  · rw [heq]
    exact hy.2
  · obtain ⟨t, ht⟩ := hids.exists_text hy.2
    rw [ht] at heq
    rw [Datum.text_beq_iff.1 heq, ← ht]
    exact hy.2
  · exact hpermitted.2.1

/-- The gate over a run of any steps in which every commit waits for the check of attachment `i`,
from any record and any journal. -/
theorem gate_over_runs (flows : Flows) (i : Nat) (hids : (flows i).definition.TextIds)
    (ps : Producers) (steps : List Step) (hgated : ∀ st ∈ steps, st.GatedBy i)
    (start : Journal × Session Record) :
    let now := after flows ps steps start
    let commit := ((Step.commit (some i)).act flows).run ps now.1 now.2
    -- a commit that changes the persisted status follows an edge permitted at that very commit
    (∀ answer, now.2.entity.persisted.isSome = true → commit.1 = .ok answer →
      (now.2.status (flows i) != commit.2.2.status (flows i)) = true →
      Permitted (flows i).definition ps now.1 commit.2.1 (now.2.status (flows i))
        (commit.2.2.status (flows i))) ∧
    -- what was persisted without a way out is persisted now
    (start.2.entity.persisted.isSome = true →
      Frozen (flows i).definition (start.2.status (flows i)) →
      now.2.entity.persisted.isSome = true ∧
        Datum.Unchanged (start.2.status (flows i)) (now.2.status (flows i))) ∧
    -- what was persisted and declared has a declared successor now
    (start.2.entity.persisted.isSome = true →
      (flows i).definition.declares (start.2.status (flows i)) = true →
      now.2.entity.persisted.isSome = true ∧
        (flows i).definition.declares (now.2.status (flows i)) = true) ∧
    -- a commit that fails leaves the record, and one that does not persists what is staged
    (∀ e, commit.1 = .error e →
      commit.2.2.entity.values = now.2.entity.values ∧
        commit.2.2.entity.persisted = now.2.entity.persisted) ∧
    (∀ answer, commit.1 = .ok answer →
      commit.2.2.entity.persisted = some commit.2.2.entity.values ∧
        commit.2.2.entity.values = now.2.entity.values) := by
  intro now commit
  refine ⟨fun answer hpersisted hok hne => ?_, fun hpersisted hfrozen => ?_,
    fun hpersisted hdecl => ?_, fun e herror => ?_, fun answer hok => ?_⟩
  · have hne : (now.2.status (flows i) == commit.2.2.status (flows i)) = false := by
      simpa only [bne, Bool.not_eq_true'] using hne
    exact permitted_of_commit hpersisted hok hne
  · exact unchanged_of_frozen hids hgated hpersisted hfrozen
  · exact declares_of_run hids hgated hpersisted hdecl
  · rcases commit_cases flows i ps now.1 now.2 with ⟨_, -, hentity⟩ | ⟨hok, -, -⟩
    · exact ⟨congrArg Record.values hentity, congrArg Record.persisted hentity⟩
    · exact absurd (herror.symm.trans hok) (by simp)
  · rcases commit_cases flows i ps now.1 now.2 with ⟨_, herror, -⟩ | ⟨-, hentity, -⟩
    · exact absurd (hok.symm.trans herror) (by simp)
    · have hvalues : commit.2.2.entity.values = now.2.entity.values :=
        (congrArg Record.values hentity).trans rfl
      exact ⟨(congrArg Record.persisted hentity).trans (congrArg some hvalues.symm), hvalues⟩

/-! ## An order on its way -/

/-- A draft is paid; what follows is decided at the time; what is shipped stays so. -/
def orders : Definition where
  initial := .text "draft"
  statuses :=
    ⟨[(.text "draft", { rule := .static (.ofList ["paid"]), label := .null, actionLabel := .null }),
      (.text "paid", { rule := .deferred ⟨0⟩, label := .null, actionLabel := .null }),
      (.text "shipped", { rule := .static .empty, label := .null, actionLabel := .null })],
      by decide⟩
  labels := .empty
  actionLabels := .empty
  name := .text "orders"
  initial_declared := by decide
  targets_declared := by decide

/-- The orders in the column `status`. -/
def orderFlow : Attachment :=
  { definition := orders, workflowName := "Orders", field := "status", entityKind := none }

/-- A record with the column `status` of which nothing is persisted. -/
def blank : Record := { columns := ["status"], values := .empty, persisted := none }

/-- A draft is persisted, and paid after a direct write was refused. -/
def payment : List Step :=
  [.operate 0 .start, .commit (some 0), .write "status" (.int 7), .commit (some 0),
    .operate 0 (.propose (.text "paid")), .commit (some 0),
    .operate 0 (.propose (.text "shipped"))]

theorem gate_over_payment :
    let ps : Producers := fun _ _ => .ok (.list [.text "shipped"])
    let now := after (fun _ => orderFlow) ps payment (.empty, start blank)
    let commit := ((Step.commit (some 0)).act fun _ => orderFlow).run ps now.1 now.2
    orders.TextIds ∧ (∀ st ∈ payment, st.GatedBy 0) ∧ now.2.entity.persisted.isSome = true ∧
      commit.1.isOk = true ∧
      Permitted orders ps now.1 commit.2.1 (.text "paid") (.text "shipped") :=
  ⟨by decide, by decide, by decide, by decide,
    (gate_over_runs (fun _ => orderFlow) 0 (by decide) _ payment (by decide)
      (.empty, start blank)).1 .nothing (by decide) rfl (by decide)⟩

end Session

end Lifecycle
