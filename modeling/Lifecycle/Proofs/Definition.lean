import Lifecycle.Definition.Basic
import Lifecycle.Proofs.Table

/-!
# Look-ups in definitions

In a definition whose identifiers are texts, what is declared is just what is listed, since a text
equals no other datum, and the targets of static rules are among it.
-/

namespace Lifecycle

namespace Definition

/-- Every identifier is a text. -/
def TextIds (d : Definition) : Prop := ∀ s ∈ d.statusIds, ∃ t, s = .text t

instance (s : Datum) : Decidable (∃ t, s = .text t) :=
  decidable_of_iff (s.text?.isSome = true) (by cases s <;> simp [Datum.text?])

instance (d : Definition) : Decidable d.TextIds :=
  inferInstanceAs (Decidable (∀ s ∈ d.statusIds, ∃ t, s = .text t))

/-- Every rule is static or deferred. -/
def Supported (d : Definition) : Prop :=
  ∀ e ∈ d.statuses.entries, ∀ kind, e.2.rule ≠ .unsupported kind

/-- Every rule is static. -/
def OnlyStatic (d : Definition) : Prop :=
  ∀ e ∈ d.statuses.entries, ∃ targets, e.2.rule = .static targets

instance : (rule : Rule) → Decidable (∃ targets, rule = .static targets)
  | .static targets => .isTrue ⟨targets, rfl⟩
  | .deferred _ => .isFalse fun ⟨_, h⟩ => by cases h
  | .unsupported _ => .isFalse fun ⟨_, h⟩ => by cases h

instance (d : Definition) : Decidable d.OnlyStatic :=
  inferInstanceAs (Decidable (∀ e ∈ d.statuses.entries, ∃ targets, e.2.rule = .static targets))

variable {d : Definition}

theorem pairwise_statusIds (d : Definition) :
    d.statusIds.Pairwise fun s t => (s == t) = false :=
  List.pairwise_map.2 d.statuses.distinct

theorem text_mem_statusIds_iff {t : String} :
    .text t ∈ d.statusIds ↔ d.declares (.text t) = true := by
  unfold statusIds Table.keys declares
  rw [Table.contains_iff, List.mem_map]
  constructor
  · rintro ⟨e, he, hk⟩
    exact ⟨e, he, Datum.beq_text_iff.2 hk⟩
  · rintro ⟨e, he, hk⟩
    exact ⟨e, he, Datum.beq_text_iff.1 hk⟩

theorem declares_of_get? {s : Datum} {n : Node} (h : d.statuses.get? s = some n) :
    d.declares s = true := by
  unfold declares
  rw [← Table.isSome_get?, h]
  rfl

theorem TextIds.exists_text (hd : d.TextIds) {s : Datum} (hs : d.declares s = true) :
    ∃ t, s = .text t := by
  obtain ⟨e, he, hk⟩ := Table.contains_iff.1 hs
  obtain ⟨t, ht⟩ := hd e.1 (List.mem_map_of_mem he)
  rw [ht] at hk
  exact ⟨t, Datum.text_beq_iff.1 hk⟩

theorem TextIds.mem_statusIds_iff (hd : d.TextIds) {s : Datum} :
    s ∈ d.statusIds ↔ d.declares s = true := by
  constructor
  · intro hs
    obtain ⟨t, rfl⟩ := hd s hs
    exact text_mem_statusIds_iff.1 hs
  · intro hs
    obtain ⟨t, rfl⟩ := hd.exists_text hs
    exact text_mem_statusIds_iff.2 hs

/-- The node of a text is the one listed with it. -/
theorem get?_text_iff {t : String} {n : Node} :
    d.statuses.get? (.text t) = some n ↔ (.text t, n) ∈ d.statuses.entries :=
  (Table.mem_entries_iff (Table.exact_text t)).symm

/-- The targets of static rules are declared. -/
theorem declares_of_mem_targets {s : Datum} {t : String} {n : Node} {targets : Targets}
    (hn : d.statuses.get? s = some n) (hrule : n.rule = .static targets) (ht : t ∈ targets) :
    d.declares (.text t) = true := by
  obtain ⟨e, he, -, rfl⟩ := Table.exists_entry_of_get? hn
  refine Statuses.contains_of_dangling_eq_nil d.targets_declared he ?_
  rw [hrule]
  exact ht

end Definition

end Lifecycle
