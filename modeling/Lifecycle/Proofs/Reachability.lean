import Lifecycle.Audit
import Lifecycle.Proofs.Definition
import Mathlib.Data.List.Perm.Subperm
import Mathlib.Logic.Relation

/-!
# Static paths

The audit collects statuses in rounds until a round finds nothing new. The universe of a definition,
its initial status and its identifiers, is closed under static edges and every round but the last
enlarges the collection, so as many rounds as there are statuses collect just what lies on static
paths from the initial status (`Definition.mem_reachedFrom_iff`).
-/

namespace Lifecycle

namespace Statuses

variable {statuses : Statuses}

/-- An edge from a status to a target of its static rule. -/
def Edge (statuses : Statuses) (s t : Datum) : Prop := t ∈ statuses.successors s

/-- A path of static edges. -/
abbrev Path (statuses : Statuses) : Datum → Datum → Prop := Relation.ReflTransGen statuses.Edge

theorem exists_text_of_edge {s t : Datum} (h : statuses.Edge s t) : ∃ text, t = .text text := by
  unfold Edge successors at h
  split at h
  · obtain ⟨text, -, rfl⟩ := List.mem_map.1 h
    exact ⟨text, rfl⟩
  · cases h

/-! ## One round -/

theorem contains_text_iff {ds : List Datum} {t : String} :
    ds.contains (.text t) = true ↔ .text t ∈ ds := by
  rw [List.contains_iff_exists_mem_beq]
  constructor
  · rintro ⟨d, hd, hbeq⟩
    rw [Datum.text_beq_iff] at hbeq
    rwa [← hbeq]
  · intro h
    exact ⟨_, h, Datum.text_beq_iff.2 rfl⟩

theorem addNew_cons (seen : List Datum) (s : Datum) (found : List Datum) :
    addNew seen (s :: found) =
      addNew (if seen.contains s then seen else seen ++ [s]) found := rfl

theorem exists_addNew_eq_append (seen found : List Datum) :
    ∃ new, addNew seen found = seen ++ new := by
  induction found generalizing seen with
  | nil => exact ⟨[], (List.append_nil _).symm⟩
  | cons s found ih =>
    rw [addNew_cons]
    split
    · exact ih seen
    · obtain ⟨new, hnew⟩ := ih (seen ++ [s])
      exact ⟨s :: new, by rw [hnew, List.append_assoc, List.singleton_append]⟩

theorem mem_addNew {seen found : List Datum} (h : ∀ s ∈ found, ∃ t, s = .text t) {x : Datum} :
    x ∈ addNew seen found ↔ x ∈ seen ∨ x ∈ found := by
  induction found generalizing seen with
  | nil => simp [addNew]
  | cons s found ih =>
    obtain ⟨t, rfl⟩ := h s (by simp)
    have ih (seen : List Datum) : x ∈ addNew seen found ↔ x ∈ seen ∨ x ∈ found :=
      ih fun s hs => h s (List.mem_cons_of_mem _ hs)
    rw [addNew_cons, ih, List.mem_cons]
    split
    · rename_i hseen
      rw [contains_text_iff] at hseen
      constructor
      · exact Or.imp_right Or.inr
      · rintro (hx | rfl | hx)
        · exact .inl hx
        · exact .inl hseen
        · exact .inr hx
    · rw [List.mem_append, List.mem_singleton, or_assoc]

theorem nodup_addNew {seen found : List Datum} (h : ∀ s ∈ found, ∃ t, s = .text t)
    (hseen : seen.Nodup) : (addNew seen found).Nodup := by
  induction found generalizing seen with
  | nil => exact hseen
  | cons s found ih =>
    obtain ⟨t, rfl⟩ := h s (by simp)
    rw [addNew_cons]
    refine ih (fun s hs => h s (List.mem_cons_of_mem _ hs)) ?_
    split
    · exact hseen
    · rename_i hnew
      rw [contains_text_iff] at hnew
      exact hseen.append (List.nodup_singleton _) (by simpa using hnew)

theorem exists_text_of_mem_flatMap {seen : List Datum} :
    ∀ s ∈ seen.flatMap statuses.successors, ∃ t, s = .text t := by
  intro s hs
  obtain ⟨p, -, hp⟩ := List.mem_flatMap.1 hs
  exact exists_text_of_edge hp

/-! ## All rounds -/

theorem mem_spread_of_mem {n : Nat} {seen : List Datum} {x : Datum} (hx : x ∈ seen) :
    x ∈ statuses.spread n seen := by
  induction n generalizing seen with
  | zero => exact hx
  | succ n ih =>
    unfold spread
    dsimp only
    split
    · exact hx
    · exact ih ((mem_addNew exists_text_of_mem_flatMap).2 (.inl hx))

/-- What is collected lies on a path from what was there at first. -/
theorem exists_path_of_mem_spread {n : Nat} {seen : List Datum} {x : Datum}
    (hx : x ∈ statuses.spread n seen) : ∃ s ∈ seen, statuses.Path s x := by
  induction n generalizing seen with
  | zero => exact ⟨x, hx, .refl⟩
  | succ n ih =>
    unfold spread at hx
    dsimp only at hx
    split at hx
    · exact ⟨x, hx, .refl⟩
    · obtain ⟨s, hs, hpath⟩ := ih hx
      rcases (mem_addNew exists_text_of_mem_flatMap).1 hs with hs | hs
      · exact ⟨s, hs, hpath⟩
      · obtain ⟨p, hp, hedge⟩ := List.mem_flatMap.1 hs
        exact ⟨p, hp, .head hedge hpath⟩

-- Either a round adds nothing, and then the collection is closed, or it adds a status of the
-- universe, and then one round less is needed for what is left of the universe.
theorem edge_closed_spread {all : List Datum}
    (hclosed : ∀ s ∈ all, ∀ t, statuses.Edge s t → t ∈ all) {n : Nat} {seen : List Datum}
    (hseen : ∀ s ∈ seen, s ∈ all) (hnodup : seen.Nodup)
    (hfuel : all.length ≤ n + seen.length) :
    ∀ s ∈ statuses.spread n seen, ∀ t, statuses.Edge s t → t ∈ statuses.spread n seen := by
  induction n generalizing seen with
  | zero =>
    intro s hs t hedge
    have hperm := (hnodup.subperm hseen).perm_of_length_le (by omega)
    exact hperm.mem_iff.2 (hclosed s (hseen s hs) t hedge)
  | succ n ih =>
    have htexts : ∀ s ∈ seen.flatMap statuses.successors, ∃ t, s = .text t :=
      exists_text_of_mem_flatMap
    obtain ⟨new, hnew⟩ := exists_addNew_eq_append seen (seen.flatMap statuses.successors)
    unfold spread
    dsimp only
    split
    · rename_i hlength
      intro s hs t hedge
      have hnil : new = [] := by
        rw [hnew, List.length_append] at hlength
        exact List.eq_nil_of_length_eq_zero (by omega)
      have hmem : t ∈ addNew seen (seen.flatMap statuses.successors) :=
        (mem_addNew htexts).2 (.inr (List.mem_flatMap.2 ⟨s, hs, hedge⟩))
      rwa [hnew, hnil, List.append_nil] at hmem
    · rename_i hlength
      apply ih
      · intro s hs
        rcases (mem_addNew htexts).1 hs with hs | hs
        · exact hseen s hs
        · obtain ⟨p, hp, hedge⟩ := List.mem_flatMap.1 hs
          exact hclosed p (hseen p hp) s hedge
      · exact nodup_addNew htexts hnodup
      · rw [hnew, List.length_append] at hlength ⊢
        omega

end Statuses

namespace Definition

variable {d : Definition}

theorem edge_iff {p t : String} :
    d.statuses.Edge (.text p) (.text t) ↔
      ∃ n targets, d.statuses.get? (.text p) = some n ∧ n.rule = .static targets ∧
        t ∈ targets := by
  unfold Statuses.Edge Statuses.successors
  cases hn : d.statuses.get? (.text p) with
  | none => simp
  | some n =>
    cases hrule : n.rule with
    | static targets =>
      simp only [Option.some.injEq, Rule.staticTargets, hrule, List.mem_map, Datum.text.injEq,
        exists_eq_right]
      constructor
      · intro h
        exact ⟨n, targets, rfl, hrule, h⟩
      · rintro ⟨_, _, rfl, hrule', h⟩
        rw [hrule] at hrule'
        cases hrule'
        exact h
    | deferred p => simp [Rule.staticTargets, hrule]
    | unsupported kind => simp [Rule.staticTargets, hrule]

theorem mem_statusIds_of_edge {s t : Datum} (h : d.statuses.Edge s t) : t ∈ d.statusIds := by
  unfold Statuses.Edge Statuses.successors at h
  split at h
  · rename_i n hn
    obtain ⟨text, htext, rfl⟩ := List.mem_map.1 h
    obtain ⟨e, he, -, rfl⟩ := Table.exists_entry_of_get? hn
    exact text_mem_statusIds_iff.2
      (Statuses.contains_of_dangling_eq_nil d.targets_declared he htext)
  · cases h

/-- The audit collects just what lies on static paths from the initial status. -/
theorem mem_reachedFrom_iff {s : Datum} :
    s ∈ d.statuses.reachedFrom d.initial ↔ d.statuses.Path d.initial s := by
  unfold Statuses.reachedFrom
  constructor
  · intro hs
    obtain ⟨p, hp, hpath⟩ := Statuses.exists_path_of_mem_spread hs
    rwa [List.mem_singleton.1 hp] at hpath
  · intro hpath
    have hall : ∀ s ∈ d.initial :: d.statusIds, ∀ t, d.statuses.Edge s t →
        t ∈ d.initial :: d.statusIds :=
      fun s _ t hedge => List.mem_cons_of_mem _ (mem_statusIds_of_edge hedge)
    have hlength : (d.initial :: d.statusIds).length ≤ d.statuses.size + [d.initial].length := by
      simp [statusIds, Table.keys, Table.size]
    have hclosed := Statuses.edge_closed_spread hall (by simp) (List.nodup_singleton _) hlength
    induction hpath with
    | refl => exact Statuses.mem_spread_of_mem (by simp)
    | tail _ hedge ih => exact hclosed _ ih _ hedge

/-! ## Paths from the initial status -/

/-- Some status on a static path from the initial one has a deferred rule. -/
def ReachesDeferred (d : Definition) : Prop :=
  ∃ q n, d.statuses.Path d.initial q ∧ d.statuses.get? q = some n ∧ n.rule.isDeferred = true

theorem declares_of_path (hids : d.TextIds) {s : Datum} (h : d.statuses.Path d.initial s) :
    d.declares s = true := by
  cases h with
  | refl => exact d.initial_declared
  | tail _ hedge => exact hids.mem_statusIds_iff.1 (mem_statusIds_of_edge hedge)

end Definition

end Lifecycle
