import Lifecycle.Proofs.Gate

/-!
# How targets are listed

The list of the statuses that may follow has the members of the set of targets, each once: those
that are declared in the order of their declaration, then the others in the order of their code points
(`Definition.Arranged`). It fails where the set itself cannot be found
(`Definition.orderedTransitions_arranges`).
-/

namespace Lifecycle

/-- The code points of a text, in order. -/
def codePoints (text : String) : List Nat := text.toList.map Char.toNat

/-- The order of texts is that of their code points. -/
theorem codePoints_lt {s t : String} (h : s < t) : codePoints s < codePoints t :=
  List.map_lt (fun _ _ hlt => hlt) (String.lt_iff.1 h)

namespace Definition

variable {σ : Type} {d : Definition} {targets : Targets} {ps : Producers} {j : Journal}

/-- The members of a set of targets in two lists: the declared ones in the order of declaration, and
the others in increasing order. -/
structure Arranged (d : Definition) (targets : Targets) (declared others : List String) : Prop where
  mem_iff : ∀ t, t ∈ declared ++ others ↔ t ∈ targets
  nodup : (declared ++ others).Nodup
  declaration : (declared.map Datum.text).Sublist d.statusIds
  undeclared : ∀ t ∈ others, d.declares (.text t) = false
  increasing : others.Pairwise fun s t => codePoints s < codePoints t

/-! ## The two halves of the list -/

/-- The texts among the statuses, in the order of declaration. -/
def textIds (d : Definition) : List String := d.statusIds.filterMap Datum.text?

theorem mem_textIds_iff {t : String} : t ∈ d.textIds ↔ d.declares (.text t) = true := by
  rw [← text_mem_statusIds_iff]
  unfold textIds
  rw [List.mem_filterMap]
  constructor
  · rintro ⟨s, hs, ht⟩
    cases s <;> cases ht
    exact hs
  · intro ht
    exact ⟨.text t, ht, rfl⟩

/-- The declared targets stand as they are declared. -/
theorem map_textIds_filter (d : Definition) (targets : Targets) :
    (d.textIds.filter targets.contains).map Datum.text =
      d.statusIds.filter fun s => match s with
        | .text t => targets.contains t
        | _ => false := by
  unfold textIds
  induction d.statusIds with
  | nil => rfl
  | cons s ids ih =>
    cases s with
    | text t =>
      have hcons : (Datum.text t :: ids).filterMap Datum.text? = t :: ids.filterMap Datum.text? :=
        rfl
      rw [hcons]
      by_cases ht : targets.contains t = true
      · simp [ht, ih]
      · simp [ht, ih]
    | _ => exact ih

theorem nodup_textIds (d : Definition) : d.textIds.Nodup := by
  refine d.pairwise_statusIds.filterMap _ fun s s' hne t ht t' ht' => ?_
  cases s <;> cases ht
  cases s' <;> cases ht'
  rintro rfl
  rw [Datum.beq_text_iff.2 rfl] at hne
  cases hne

/-- The members that are not declared. -/
def others (d : Definition) (targets : Targets) : List String :=
  targets.members.filter fun t => !d.declares (.text t)

theorem mem_others_iff {t : String} :
    t ∈ d.others targets ↔ t ∈ targets ∧ d.declares (.text t) = false := by
  unfold others
  rw [List.mem_filter, Bool.not_eq_true']
  exact Iff.rfl

theorem inOrder_eq (d : Definition) (targets : Targets) :
    d.inOrder targets =
      (d.textIds.filter targets.contains ++ d.others targets).map Datum.text := by
  rw [List.map_append, map_textIds_filter]
  rfl

theorem arranged (d : Definition) (targets : Targets) :
    Arranged d targets (d.textIds.filter targets.contains) (d.others targets) where
  mem_iff t := by
    rw [List.mem_append, List.mem_filter, mem_textIds_iff, mem_others_iff]
    have hcontains : targets.contains t = true ↔ t ∈ targets := List.contains_iff_mem
    rw [hcontains]
    cases hdecl : d.declares (.text t) <;> simp
  nodup := by
    have hothers : (d.others targets).Pairwise (· < ·) := targets.increasing.filter _
    apply List.Nodup.append (d.nodup_textIds.filter _)
    · exact hothers.imp fun hlt heq => String.ne_of_lt hlt heq
    · intro t ht hother
      have hdecl := mem_textIds_iff.1 (List.mem_filter.1 ht).1
      rw [(mem_others_iff.1 hother).2] at hdecl
      cases hdecl
  declaration := by
    rw [map_textIds_filter]
    exact List.filter_sublist
  undeclared t ht := (mem_others_iff.1 ht).2
  increasing := (targets.increasing.filter _).imp codePoints_lt

/-- What is found for a static rule is declared. -/
theorem others_eq_nil {status : Datum} {n : Node} {fixed : Targets}
    (hfound : ((d.transitionsFrom status).outcome ps j).1 = .ok targets)
    (hn : d.statuses.get? status = some n) (hrule : n.rule = .static fixed) :
    d.others targets = [] := by
  rcases transitionsFrom_cases d status ps j with ⟨-, hout⟩ | ⟨-, hout⟩ | ⟨n', -, hn', hout⟩
  · rw [hout] at hfound
    cases hfound
  · rw [hout] at hfound
    cases hfound
  · obtain rfl : n = n' := Option.some.inj (hn.symm.trans hn')
    rw [hout, hrule, Rule.outcome_resolve_static] at hfound
    obtain rfl : fixed = targets := Except.ok.inj hfound
    rw [List.eq_nil_iff_forall_not_mem]
    intro t ht
    obtain ⟨hmem, hundeclared⟩ := mem_others_iff.1 ht
    rw [declares_of_mem_targets hn hrule hmem] at hundeclared
    cases hundeclared

/-! ## The list of what may follow -/

/-- What may follow a status is listed as it is found: the members of the set and no others, each
once, the declared ones in the order of declaration and then the others in the order of their code
points. Of a static rule there are no others. Where the set cannot be found, the list fails in the
same way. Nothing more is asked or changed than for the set. -/
theorem orderedTransitions_arranges (d : Definition) (status : Datum) (ps : Producers)
    (j : Journal) (s : σ) :
    let found := (d.transitionsFrom status).run ps j s
    let listed := (d.orderedTransitions status).run ps j s
    (∀ e, found.1 = .error e → listed.1 = .error e) ∧
    (∀ targets, found.1 = .ok targets → ∃ declared others,
      listed.1 = .ok ((declared ++ others).map .text) ∧ Arranged d targets declared others ∧
      ∀ n fixed, d.statuses.get? status = some n → n.rule = .static fixed → others = []) ∧
    listed.2 = found.2 := by
  intro found listed
  have hfound : found = _ := run_transitionsFrom d status s
  have hlisted : listed = (found.1.map d.inOrder, found.2) := by
    rw [hfound]
    exact run_orderedTransitions d status s
  rw [hlisted]
  refine ⟨fun e he => ?_, fun targets htargets => ?_, rfl⟩
  · rw [he]
    rfl
  · refine ⟨_, _, ?_, arranged d targets, fun n fixed hn hrule => ?_⟩
    · rw [htargets, ← inOrder_eq]
      rfl
    · rw [hfound] at htargets
      exact others_eq_nil htargets hn hrule

open Session (orders)

/-- What a producer answers in any order and more than once is listed once, in order. -/
theorem paid_arranged :
    let ps : Producers := fun _ _ => .ok (.list
      [.text "zebra", .text "shipped", .text "Zoo", .text "shipped", .text "draft"])
    let targets : Targets := .ofList ["zebra", "shipped", "Zoo", "shipped", "draft"]
    let listed := (orders.orderedTransitions (.text "paid")).run ps .empty ()
    ((orders.transitionsFrom (.text "paid")).run ps .empty ()).1 = .ok targets ∧
      ∃ declared others, listed.1 = .ok ((declared ++ others).map .text) ∧
        Arranged orders targets declared others ∧
        declared ++ others = ["draft", "shipped", "Zoo", "zebra"] := by
  intro ps targets listed
  have hfound : ((orders.transitionsFrom (.text "paid")).run ps .empty ()).1 = .ok targets := rfl
  have hlisted : listed.1 = .ok (["draft", "shipped", "Zoo", "zebra"].map .text) := rfl
  obtain ⟨declared, others, hlist, harranged, -⟩ :=
    (orderedTransitions_arranges orders (.text "paid") ps .empty ()).2.1 targets hfound
  have heq := Except.ok.inj (hlist.symm.trans hlisted)
  exact ⟨hfound, declared, others, hlist, harranged,
    List.map_injective_iff.2 (fun _ _ ht => Datum.text.inj ht) heq⟩

end Definition

end Lifecycle
