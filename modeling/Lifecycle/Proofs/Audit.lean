import Lifecycle.Proofs.Reachability
import Lifecycle.Proofs.Resolution

/-!
# What an audit reports

The search for reachable statuses ends on every graph, cycles included: once it has gone as many
rounds as there are statuses, further rounds change nothing. Every list of the report is the
declaration order cut down to the statuses with some property, and each of these properties is said
here without the search (`Report.Accurate`).
-/

namespace Lifecycle

namespace Statuses

variable {statuses : Statuses}

theorem addNew_of_forall_mem {seen found : List Datum} (htexts : ∀ s ∈ found, ∃ t, s = .text t)
    (h : ∀ s ∈ found, s ∈ seen) : addNew seen found = seen := by
  induction found with
  | nil => rfl
  | cons s found ih =>
    obtain ⟨t, rfl⟩ := htexts s (by simp)
    obtain ⟨hs, hfound⟩ := List.forall_mem_cons.1 h
    rw [addNew_cons, if_pos (contains_text_iff.2 hs)]
    exact ih (fun s hs => htexts s (List.mem_cons_of_mem _ hs)) hfound

/-- A collection that static edges do not leave is complete. -/
theorem spread_of_closed {seen : List Datum}
    (h : ∀ s ∈ seen, ∀ t, statuses.Edge s t → t ∈ seen) (n : Nat) :
    statuses.spread n seen = seen := by
  cases n with
  | zero => rfl
  | succ n =>
    have hnone : addNew seen (seen.flatMap statuses.successors) = seen := by
      apply addNew_of_forall_mem exists_text_of_mem_flatMap
      intro t ht
      obtain ⟨s, hs, hedge⟩ := List.mem_flatMap.1 ht
      exact h s hs t hedge
    unfold spread
    simp only [hnone, if_true]

/-- Rounds may be counted in two parts. -/
theorem spread_add (m n : Nat) (seen : List Datum) :
    statuses.spread (m + n) seen = statuses.spread n (statuses.spread m seen) := by
  induction m generalizing seen with
  | zero => rw [Nat.zero_add, spread]
  | succ m ih =>
    rw [Nat.succ_add]
    obtain ⟨new, hnew⟩ := exists_addNew_eq_append seen (seen.flatMap statuses.successors)
    by_cases hlength : (addNew seen (seen.flatMap statuses.successors)).length = seen.length
    · have hsame : ∀ k, statuses.spread (k + 1) seen = seen := fun k => by
        unfold spread
        simp only [hlength, if_true]
      rw [hsame, hsame]
      cases n with
      | zero => rfl
      | succ n => exact (hsame n).symm
    · have hstep : ∀ k, statuses.spread (k + 1) seen =
          statuses.spread k (addNew seen (seen.flatMap statuses.successors)) := fun k => by
        rw [spread]
        simp only [hlength, if_false]
      rw [hstep, hstep, ih]

end Statuses

namespace Definition

variable {d : Definition}

/-! ## The search -/

theorem mem_reachedFrom_of_edge {s t : Datum} (hs : s ∈ d.statuses.reachedFrom d.initial)
    (hedge : d.statuses.Edge s t) : t ∈ d.statuses.reachedFrom d.initial := by
  rw [mem_reachedFrom_iff] at hs ⊢
  exact hs.tail hedge

/-- The search has ended: further rounds find nothing. -/
theorem spread_eq_reachedFrom (n : Nat) :
    d.statuses.spread (d.statuses.size + n) [d.initial] = d.statuses.reachedFrom d.initial := by
  rw [Statuses.spread_add]
  exact Statuses.spread_of_closed (fun _ hs _ hedge => mem_reachedFrom_of_edge hs hedge) n

/-- A static path from the initial status leads to the status, or to one that equals it. -/
def Reaches (d : Definition) (s : Datum) : Prop :=
  ∃ x, d.statuses.Path d.initial x ∧ (s == x) = true

theorem contains_reachedFrom_iff {s : Datum} :
    (d.statuses.reachedFrom d.initial).contains s = true ↔ d.Reaches s := by
  rw [List.contains_iff_exists_mem_beq]
  simp only [mem_reachedFrom_iff, Reaches]

/-! ## Lists in the order of declaration -/

/-- The keys of just the entries with some property, in their order. -/
inductive Selects (P : Datum → Node → Prop) : List (Datum × Node) → List Datum → Prop
  | nil : Selects P [] []
  | keep {e : Datum × Node} {es : List (Datum × Node)} {ds : List Datum} :
      P e.1 e.2 → Selects P es ds → Selects P (e :: es) (e.1 :: ds)
  | skip {e : Datum × Node} {es : List (Datum × Node)} {ds : List Datum} :
      ¬ P e.1 e.2 → Selects P es ds → Selects P (e :: es) ds

/-- The list holds just the statuses with some property, in the order of declaration. -/
def Lists (d : Definition) (P : Datum → Node → Prop) (ds : List Datum) : Prop :=
  Selects P d.statuses.entries ds

theorem lists_statusesWhere {p : Datum → Node → Bool} {P : Datum → Node → Prop}
    (h : ∀ s n, p s n = true ↔ P s n) : d.Lists P (d.statusesWhere p) := by
  unfold Lists statusesWhere
  induction d.statuses.entries with
  | nil => exact .nil
  | cons e es ih =>
    by_cases he : p e.1 e.2 = true
    · rw [List.filter_cons, if_pos he]
      exact .keep ((h _ _).1 he) ih
    · rw [List.filter_cons, if_neg he]
      exact .skip (fun hP => he ((h _ _).2 hP)) ih

theorem statusIds_filter (p : Datum → Bool) :
    d.statusIds.filter p = d.statusesWhere fun s _ => p s := by
  unfold statusIds Table.keys statusesWhere
  exact List.filter_map

theorem lists_filter {p : Datum → Bool} {P : Datum → Node → Prop}
    (h : ∀ s n, p s = true ↔ P s n) : d.Lists P (d.statusIds.filter p) := by
  rw [statusIds_filter]
  exact lists_statusesWhere fun s n => h s n

theorem Lists.sublist {P : Datum → Node → Prop} {ds : List Datum} (h : d.Lists P ds) :
    ds.Sublist d.statusIds := by
  unfold Lists at h
  unfold statusIds Table.keys
  generalize d.statuses.entries = entries at h
  induction h with
  | nil => exact .slnil
  | keep _ _ ih => exact ih.cons_cons _
  | skip _ _ ih => exact ih.cons _

theorem Lists.mem_iff {P : Datum → Node → Prop} {ds : List Datum} (h : d.Lists P ds) {s : Datum} :
    s ∈ ds ↔ ∃ n, (s, n) ∈ d.statuses.entries ∧ P s n := by
  unfold Lists at h
  generalize d.statuses.entries = entries at h
  induction h with
  | nil => simp
  | @keep e es ds he _ ih =>
    rw [List.mem_cons, ih]
    constructor
    · rintro (rfl | ⟨n, hn, hP⟩)
      · exact ⟨e.2, by simp, he⟩
      · exact ⟨n, List.mem_cons_of_mem _ hn, hP⟩
    · rintro ⟨n, hn, hP⟩
      rcases List.mem_cons.1 hn with rfl | hn
      · exact .inl rfl
      · exact .inr ⟨n, hn, hP⟩
  | @skip e es ds he _ ih =>
    rw [ih]
    constructor
    · rintro ⟨n, hn, hP⟩
      exact ⟨n, List.mem_cons_of_mem _ hn, hP⟩
    · rintro ⟨n, hn, hP⟩
      rcases List.mem_cons.1 hn with rfl | hn
      · exact absurd hP he
      · exact ⟨n, hn, hP⟩

/-! ## The properties of statuses -/

theorem isDeferred_iff {rule : Rule} : rule.isDeferred = true ↔ ∃ p, rule = .deferred p := by
  cases rule <;> simp [Rule.isDeferred]

theorem isTerminal_iff {rule : Rule} : rule.isTerminal = true ↔ rule = .static .empty := by
  cases rule with
  | static targets =>
    obtain ⟨members, hincreasing⟩ := targets
    cases members <;> simp [Rule.isTerminal, Targets.isEmpty, Targets.empty]
  | deferred p => simp [Rule.isTerminal]
  | unsupported kind => simp [Rule.isTerminal]

/-- The static rule of the status lists the status itself. -/
def Loops (s : Datum) (n : Node) : Prop :=
  ∃ targets, n.rule = .static targets ∧ ∃ t ∈ targets, s = .text t

theorem loops_iff {s : Datum} {n : Node} :
    (n.rule.staticTargets.map Datum.text).contains s = true ↔ Loops s n := by
  rw [List.contains_iff_exists_mem_beq]
  unfold Loops
  cases n.rule with
  | static targets =>
    simp only [Rule.staticTargets, List.mem_map, Rule.static.injEq, exists_eq_left']
    constructor
    · rintro ⟨_, ⟨t, ht, rfl⟩, hs⟩
      exact ⟨t, ht, Datum.beq_text_iff.1 hs⟩
    · rintro ⟨t, ht, rfl⟩
      exact ⟨_, ⟨t, ht, rfl⟩, Datum.text_beq_iff.2 rfl⟩
  | deferred p => simp [Rule.staticTargets]
  | unsupported kind => simp [Rule.staticTargets]

theorem isTerminal_of_mem_entries {s : Datum} {n : Node} (hkey : s.hashable = true)
    (hself : (s == s) = true) (h : (s, n) ∈ d.statuses.entries) :
    d.isTerminal s = .ok n.rule.isTerminal := by
  have hnode : d.node s = .ok (some n) := by
    rw [node, Datum.key_of_hashable hkey, ← Table.get?_of_mem_entries hself h]
    rfl
  rw [isTerminal, hnode]
  rfl

/-- A deferred rule stands at some status that a static path reaches. -/
def DeferredReached (d : Definition) : Prop :=
  ∃ e ∈ d.statuses.entries, (∃ p, e.2.rule = .deferred p) ∧ d.Reaches e.1

theorem any_contains_reachedFrom_iff :
    (d.statusesWhere fun _ n => n.rule.isDeferred).any
        (d.statuses.reachedFrom d.initial).contains = true ↔ d.DeferredReached := by
  have hlists := lists_statusesWhere (d := d) (p := fun _ n => n.rule.isDeferred)
    fun _ _ => isDeferred_iff
  rw [List.any_eq_true]
  unfold DeferredReached
  constructor
  · rintro ⟨s, hs, hreached⟩
    obtain ⟨n, hn, hdeferred⟩ := hlists.mem_iff.1 hs
    exact ⟨(s, n), hn, hdeferred, contains_reachedFrom_iff.1 hreached⟩
  · rintro ⟨⟨s, n⟩, hn, hdeferred, hreached⟩
    exact ⟨s, hlists.mem_iff.2 ⟨n, hn, hdeferred⟩, contains_reachedFrom_iff.2 hreached⟩

theorem totalEdges_eq_sum (d : Definition) :
    d.totalEdges = (d.statuses.entries.map fun e => e.2.rule.staticTargets.length).sum := by
  unfold totalEdges
  rw [List.sum_eq_foldl, List.foldl_map]

end Definition

/-! ## The report -/

/-- The report says of a definition what its graph of static edges and its labels say. -/
structure Report.Accurate (r : Report) (d : Definition) : Prop where
  totalStatuses : r.totalStatuses = d.statusIds.length
  totalEdges : r.totalEdges = (d.statuses.entries.map fun e => e.2.rule.staticTargets.length).sum
  deferred : d.Lists (fun _ n => ∃ p, n.rule = .deferred p) r.deferred
  terminal : d.Lists (fun _ n => n.rule = .static .empty) r.terminal
  isTerminal : ∀ s ∈ d.statusIds, s.hashable = true → (s == s) = true →
    (s ∈ r.terminal ↔ d.isTerminal s = .ok true)
  selfLoops : d.Lists Definition.Loops r.selfLoops
  unreachable_of_deferred : d.DeferredReached → r.unreachable = []
  unreachable : ¬ d.DeferredReached → d.Lists (fun s _ => ¬ d.Reaches s) r.unreachable
  distinct : r.unreachable.Pairwise fun s t => (s == t) = false
  missingLabels : d.Lists (fun s _ => d.labels.get? s = none) r.missingLabels
  missingActionLabels : d.Lists (fun s _ => d.actionLabels.get? s = none) r.missingActionLabels
  violations : r.violations =
    if (r.unreachable ++ r.selfLoops).all Datum.writable then
      .ok (r.unreachable.map (fun s => "Unreachable: " ++ s.form) ++
        r.selfLoops.map (fun s => "Self-loop: " ++ s.form ++ " -> " ++ s.form))
    else .error (.misuse .tooManyDigits)
  passed : r.passed = true ↔ r.violations = .ok []

namespace Report

/-- The violations are put into words if all statuses in them can be. -/
theorem violations_eq (r : Report) : r.violations =
    if (r.unreachable ++ r.selfLoops).all Datum.writable then
      .ok (r.unreachable.map (fun s => "Unreachable: " ++ s.form) ++
        r.selfLoops.map (fun s => "Self-loop: " ++ s.form ++ " -> " ++ s.form))
    else .error (.misuse .tooManyDigits) := by
  have hunreachable := Datum.mapM_shown_map ("Unreachable: " ++ ·) r.unreachable
  have hloops := Datum.mapM_shown_map (fun id => "Self-loop: " ++ id ++ " -> " ++ id) r.selfLoops
  rw [List.all_append]
  change (r.unreachable.mapM (fun d => d.shown.map ("Unreachable: " ++ ·)) >>= fun _ =>
    r.selfLoops.mapM (fun d => d.shown.map fun id => "Self-loop: " ++ id ++ " -> " ++ id) >>=
      fun _ => _) = _
  rw [hunreachable, hloops]
  cases r.unreachable.all Datum.writable with
  | false => rfl
  | true => cases r.selfLoops.all Datum.writable <;> rfl

theorem passed_iff (r : Report) : r.passed = true ↔ r.violations = .ok [] := by
  rw [violations_eq, passed, Bool.and_eq_true, List.isEmpty_iff, List.isEmpty_iff]
  constructor
  · rintro ⟨hunreachable, hloops⟩
    rw [hunreachable, hloops]
    rfl
  · intro h
    split at h
    · simpa using h
    · cases h

end Report

namespace Definition

variable {d : Definition}

theorem unsupportedRule?_eq_none_iff : d.unsupportedRule? = none ↔ d.Supported := by
  unfold unsupportedRule? Supported
  rw [List.findSome?_eq_none_iff]
  constructor
  · intro h e he kind hrule
    have hnone := h e he
    rw [hrule] at hnone
    cases hnone
  · intro h e he
    cases hrule : e.2.rule with
    | static targets => rfl
    | deferred p => rfl
    | unsupported kind => exact absurd hrule (h e he kind)

instance (d : Definition) : Decidable d.Supported :=
  decidable_of_iff _ unsupportedRule?_eq_none_iff

theorem exists_audit_accurate (hrules : d.Supported) :
    ∃ r, d.audit = .ok r ∧ r.Accurate d := by
  unfold audit
  rw [unsupportedRule?_eq_none_iff.2 hrules]
  refine ⟨_, rfl, ?_⟩
  have hunreached : d.Lists (fun s _ => ¬ d.Reaches s)
      (d.statusIds.filter fun s => !(d.statuses.reachedFrom d.initial).contains s) := by
    apply lists_filter
    intro s n
    rw [Bool.not_eq_true', ← Bool.not_eq_true, contains_reachedFrom_iff]
  have hterminal : d.Lists (fun _ n => n.rule = .static .empty)
      (d.statusesWhere fun _ n => n.rule.isTerminal) :=
    lists_statusesWhere fun _ _ => isTerminal_iff
  exact {
    totalStatuses := (List.length_map _).symm
    totalEdges := d.totalEdges_eq_sum
    deferred := lists_statusesWhere fun _ _ => isDeferred_iff
    terminal := hterminal
    isTerminal := by
      intro s hs hkey hself
      obtain ⟨⟨s, n⟩, hn, rfl⟩ := List.mem_map.1 hs
      rw [isTerminal_of_mem_entries hkey hself hn, Except.ok.injEq, isTerminal_iff,
        hterminal.mem_iff]
      constructor
      · rintro ⟨m, hm, hrule⟩
        have hsame := Table.get?_of_mem_entries hself hm
        rw [Table.get?_of_mem_entries hself hn] at hsame
        cases hsame
        exact hrule
      · intro hrule
        exact ⟨n, hn, hrule⟩
    selfLoops := lists_statusesWhere fun _ _ => loops_iff
    unreachable_of_deferred := fun h => if_pos (any_contains_reachedFrom_iff.2 h)
    unreachable := fun h => by
      dsimp only
      rw [if_neg (mt any_contains_reachedFrom_iff.1 h)]
      exact hunreached
    distinct := by
      dsimp only
      split
      · exact .nil
      · exact d.pairwise_statusIds.sublist hunreached.sublist
    missingLabels := lists_filter fun s _ => by
      rw [Table.get?_eq_none_iff, Bool.not_eq_true']
    missingActionLabels := lists_filter fun s _ => by
      rw [Table.get?_eq_none_iff, Bool.not_eq_true']
    violations := Report.violations_eq _
    passed := Report.passed_iff _ }

/-- The search of an audit ends. Where every rule is static or deferred the audit has a report, and
the report is accurate. -/
theorem audit_accurate (hrules : d.Supported) :
    (∀ n, d.statuses.spread (d.statuses.size + n) [d.initial] =
      d.statuses.reachedFrom d.initial) ∧
    ∃ r, d.audit = .ok r ∧ r.Accurate d :=
  ⟨spread_eq_reachedFrom, exists_audit_accurate hrules⟩

/-- Drafts and papers lead round and round; a paper can stay one; what is lost is found nowhere. -/
def papers : Definition where
  initial := .text "draft"
  statuses :=
    ⟨[(.text "lost", { rule := .static (.ofList ["found"]), label := .null, actionLabel := .null }),
      (.text "draft", { rule := .static (.ofList ["paper"]), label := .null, actionLabel := .null }),
      (.text "paper", { rule := .static (.ofList ["draft", "paper"]), label := .null,
                        actionLabel := .null }),
      (.text "found", { rule := .deferred ⟨0⟩, label := .null, actionLabel := .null }),
      (.text "shredded", { rule := .static .empty, label := .null, actionLabel := .null })],
      by decide⟩
  labels := .ofList [(.text "draft", .text "Draft")]
  actionLabels := .empty
  name := .text "papers"
  initial_declared := by decide
  targets_declared := by decide

theorem papers_audit_accurate :
    papers.Supported ∧ ∃ r, papers.audit = .ok r ∧ r.Accurate papers ∧
      r.unreachable = [.text "lost", .text "found", .text "shredded"] ∧
      r.selfLoops = [.text "paper"] := by
  obtain ⟨r, haudit, hr⟩ := (audit_accurate (d := papers) (by decide)).2
  have hlists : papers.audit.map (fun r => (r.unreachable, r.selfLoops)) =
      .ok ([.text "lost", .text "found", .text "shredded"], [.text "paper"]) := rfl
  rw [haudit] at hlists
  have hlists := Except.ok.inj hlists
  exact ⟨by decide, r, haudit, hr, congrArg Prod.fst hlists, congrArg Prod.snd hlists⟩

/-! ## Definitions whose identifiers are texts -/

theorem reaches_text_iff {t : String} :
    d.Reaches (.text t) ↔ d.statuses.Path d.initial (.text t) := by
  unfold Reaches
  constructor
  · rintro ⟨x, hpath, hx⟩
    rwa [Datum.text_beq_iff.1 hx] at hpath
  · intro hpath
    exact ⟨_, hpath, Datum.text_beq_iff.2 rfl⟩

theorem deferredReached_iff (hids : d.TextIds) : d.DeferredReached ↔ d.ReachesDeferred := by
  unfold DeferredReached ReachesDeferred
  constructor
  · rintro ⟨⟨s, n⟩, hn, hdeferred, hreached⟩
    obtain ⟨t, rfl⟩ := hids s (List.mem_map_of_mem hn)
    exact ⟨.text t, n, reaches_text_iff.1 hreached, get?_text_iff.2 hn, isDeferred_iff.2 hdeferred⟩
  · rintro ⟨q, n, hpath, hn, hdeferred⟩
    obtain ⟨t, rfl⟩ := hids.exists_text (declares_of_path hids hpath)
    exact ⟨(.text t, n), get?_text_iff.1 hn, isDeferred_iff.1 hdeferred,
      reaches_text_iff.2 hpath⟩

/-- Where every rule is static or deferred an audit has a report. It lists as unreachable what is
declared and on no static path, unless a deferred rule is on one. -/
theorem exists_audit (hids : d.TextIds) (hrules : d.Supported) :
    ∃ report, d.audit = .ok report ∧ ∀ s, s ∈ report.unreachable ↔
      d.declares s = true ∧ ¬ d.ReachesDeferred ∧ ¬ d.statuses.Path d.initial s := by
  obtain ⟨r, haudit, hr⟩ := exists_audit_accurate hrules
  refine ⟨r, haudit, fun s => ?_⟩
  rw [← deferredReached_iff hids]
  by_cases hdeferred : d.DeferredReached
  · rw [hr.unreachable_of_deferred hdeferred]
    simp [hdeferred]
  rw [(hr.unreachable hdeferred).mem_iff, ← hids.mem_statusIds_iff]
  constructor
  · rintro ⟨n, hn, hs⟩
    have hlisted : s ∈ d.statusIds := List.mem_map_of_mem hn
    obtain ⟨t, rfl⟩ := hids s hlisted
    exact ⟨hlisted, hdeferred, mt reaches_text_iff.2 hs⟩
  · rintro ⟨hlisted, -, hs⟩
    obtain ⟨⟨s, n⟩, hn, rfl⟩ := List.mem_map.1 hlisted
    obtain ⟨t, rfl⟩ := hids s hlisted
    exact ⟨n, hn, mt reaches_text_iff.1 hs⟩

end Definition

end Lifecycle
