import Lifecycle.Proofs.Audit
import Lifecycle.Proofs.RoundTrip

/-!
# Two ways to give a definition

A provider gives a document or a finished definition, and two tables of labels with it. A document
is read under these tables: a status takes its label from the table if it is there, and the labels
of the statuses then go into the table. A finished definition brings a table of its own, over which
the provider's is laid. Both ways end in tables that answer alike
(`Definition.get?_labels_of_reading`), so that it does not matter which way a provider takes
(`Provider.document_or_definition`).
-/

namespace Lifecycle

namespace Definition

variable {entries : List (Datum × Datum)} {L A : Labels} {d : Definition}

/-! ## One document under two tables -/

/-- A status comes from one entry of the document, whatever the tables of labels, or from none. -/
theorem get?_statusesOf_cases (entries : List (Datum × Datum)) (s : Datum) :
    (∃ e : Datum × Datum, s = .text e.1.form ∧
      ∀ L A, (statusesOf L A entries).get? s = some (nodeOf L A e)) ∨
      ∀ L A, (statusesOf L A entries).get? s = none := by
  by_cases h : ∃ e, Last entries e ∧ s = .text e.1.form
  · obtain ⟨e, hlast, rfl⟩ := h
    refine .inl ⟨e, rfl, fun L A => ?_⟩
    rw [← Table.mem_entries_iff (Table.exact_text _)]
    exact mem_statusesOf_iff.2 ⟨e, hlast, rfl⟩
  · refine .inr fun L A => ?_
    cases hget : (statusesOf L A entries).get? s with
    | none => rfl
    | some n =>
      obtain ⟨e, he, hes, -⟩ := Table.exists_entry_of_get? hget
      obtain ⟨e', hlast, rfl⟩ := mem_statusesOf_iff.1 he
      exact absurd ⟨e', hlast, Datum.text_beq_iff.1 hes⟩ h

theorem exact_of_mem_statusesOf {e : Datum × Node} (he : e ∈ (statusesOf L A entries).entries) :
    Table.Exact e.1 := by
  obtain ⟨e', -, rfl⟩ := mem_statusesOf_iff.1 he
  exact Table.exact_text _

theorem labelFrom_eq (given : Labels) (id : String) (fields : Table Datum Datum) (name : String) :
    labelFrom given id fields name =
      (given.get? (.text id)).getD (labelFrom .empty id fields name) := by
  have hempty : (Table.empty : Labels).get? (.text id) = none := rfl
  unfold labelFrom
  rw [hempty]
  cases given.get? (.text id) <;> rfl

/-- Reading a document under a table gives the table of the document read without one, under the
given table. -/
theorem get?_labels_of_reading {given : Labels} {label : Node → Datum} {field : String}
    (hgiven : ∀ e, label (nodeOf L A e) = labelFrom given e.1.form (statusFields e.2) field)
    (hown : ∀ e, label (nodeOf .empty .empty e) =
      labelFrom .empty e.1.form (statusFields e.2) field) (s : Datum) :
    (given.putAll (nodeLabels label (statusesOf L A entries))).get? s =
      (given.get? s).or
        ((Table.ofList (nodeLabels label (statusesOf .empty .empty entries))).get? s) := by
  have hempty : (Table.empty : Labels).get? s = none := rfl
  rw [get?_putAll_nodeLabels (.inr fun e he => exact_of_mem_statusesOf he), Table.ofList,
    get?_putAll_nodeLabels (.inr fun e he => exact_of_mem_statusesOf he), hempty, Option.or_none]
  rcases get?_statusesOf_cases entries s with ⟨e, rfl, hnode⟩ | hnone
  · rw [hnode, hnode, Option.bind_some, Option.bind_some]
    unfold ownLabel?
    rw [hgiven, hown, labelFrom_eq given]
    cases given.get? (.text e.1.form) with
    | none => rw [Option.getD_none, Option.or_none, Option.none_or]
    | some l =>
      rw [Option.getD_some, Option.some_or]
      cases l <;> rfl
  · rw [hnone, hnone, Option.bind_none, Option.none_or, Option.or_none]

/-- The tables of a document read without any are made of the labels of its statuses. -/
theorem exact_of_mem_nodeLabels {label : Node → Datum} {e : Datum × Datum}
    (he : e ∈ (Table.ofList (nodeLabels label (statusesOf L A entries))).entries) :
    Table.Exact e.1 := by
  refine Table.forall_ofList (fun e he => ?_) e he
  obtain ⟨e', he', rfl⟩ := List.mem_map.1 (List.mem_filter.1 he).1
  exact exact_of_mem_statusesOf he'

/-! ## Alike definitions -/

/-- The same statuses in the same order with the same rules, the same beginning, and the same
answers about labels, also those that an audit misses. -/
structure AnswersAlike (d d' : Definition) : Prop where
  initial : d.initial = d'.initial
  statusIds : d.statusIds = d'.statusIds
  rule : ∀ s, (d.statuses.get? s).map Node.rule = (d'.statuses.get? s).map Node.rule
  statusLabel : ∀ s, d.statusLabel s = d'.statusLabel s
  actionLabel : ∀ s, d.actionLabel s = d'.actionLabel s
  audit : ∃ report report', d.audit = .ok report ∧ d'.audit = .ok report' ∧
    report.missingLabels = report'.missingLabels ∧
    report.missingActionLabels = report'.missingActionLabels

theorem exists_missing_of_audit (h : d.Supported) : ∃ report, d.audit = .ok report ∧
    report.missingLabels = (d.statusIds.filter fun s => (d.labels.get? s).isNone) ∧
    report.missingActionLabels = d.statusIds.filter fun s => (d.actionLabels.get? s).isNone := by
  have hmissing (t : Labels) (s : Datum) : (t.get? s).isNone = !t.contains s := by
    rw [← Table.isSome_get?, Option.not_isSome]
  unfold audit
  rw [unsupportedRule?_eq_none_iff.2 h]
  refine ⟨_, rfl, ?_, ?_⟩
  · simp only [hmissing]
  · simp only [hmissing]

/-- The definition is another one with tables of labels over its own. -/
structure OverlaidBy (labels actionLabels : Labels) (d d' : Definition) : Prop where
  initial : d'.initial = d.initial
  statusIds : d'.statusIds = d.statusIds
  rule : ∀ s, (d'.statuses.get? s).map Node.rule = (d.statuses.get? s).map Node.rule
  labels : ∀ s, d'.labels.get? s = (labels.get? s).or (d.labels.get? s)
  actionLabels : ∀ s, d'.actionLabels.get? s = (actionLabels.get? s).or (d.actionLabels.get? s)
  supported : d'.Supported

theorem OverlaidBy.answersAlike {d₁ d₂ : Definition} (h : OverlaidBy L A d d₁)
    (h' : OverlaidBy L A d d₂) : AnswersAlike d₁ d₂ := by
  have hids : d₁.statusIds = d₂.statusIds := h.statusIds.trans h'.statusIds.symm
  have hlabels (s : Datum) : d₁.labels.get? s = d₂.labels.get? s :=
    (h.labels s).trans (h'.labels s).symm
  have hactions (s : Datum) : d₁.actionLabels.get? s = d₂.actionLabels.get? s :=
    (h.actionLabels s).trans (h'.actionLabels s).symm
  refine ⟨h.initial.trans h'.initial.symm, hids, fun s => (h.rule s).trans (h'.rule s).symm,
    fun s => ?_, fun s => ?_, ?_⟩
  · unfold Definition.statusLabel
    simp only [hlabels]
  · unfold Definition.actionLabel
    simp only [hactions]
  · obtain ⟨report, hreport, hmissing, hmissing'⟩ := exists_missing_of_audit h.supported
    obtain ⟨report', hreport', hmissing₁, hmissing₁'⟩ := exists_missing_of_audit h'.supported
    refine ⟨report, report', hreport, hreport', ?_, ?_⟩
    · rw [hmissing, hmissing₁, hids]
      simp only [hlabels]
    · rw [hmissing', hmissing₁', hids]
      simp only [hactions]

/-- The label that a status has by itself, null if it has none or is not declared. -/
def ownLabel (d : Definition) (label : Node → Datum) (s : Datum) : Datum :=
  ((d.statuses.get? s).map label).getD .null

/-- A status has the label that the tables give it, and its own where they give none. -/
structure LabelledBy (labels actionLabels : Labels) (own d : Definition) : Prop where
  label : ∀ s, s.hashable = true →
    d.statusLabel s = .ok ((labels.get? s).getD (own.ownLabel Node.label s))
  actionLabel : ∀ s, s.hashable = true →
    d.actionLabel s = .ok ((actionLabels.get? s).getD (own.ownLabel Node.actionLabel s))

theorem getD_get?_nodeLabels {statuses : Statuses} {label : Node → Datum}
    (hexact : ∀ e ∈ statuses.entries, Table.Exact e.1) (s : Datum) :
    ((Table.ofList (nodeLabels label statuses)).get? s).getD .null =
      ((statuses.get? s).map label).getD .null := by
  have hempty : (Table.empty : Labels).get? s = none := rfl
  rw [Table.ofList, get?_putAll_nodeLabels (.inr hexact), hempty, Option.or_none]
  cases statuses.get? s with
  | none => rfl
  | some n => exact getD_ownLabel? label n

/-! ## A document read without tables of labels -/

variable {document initial name : Datum} {labels actionLabels : List (Datum × Datum)}

/-- A definition with the statuses of entries, and the labels that these carry. -/
structure ReadFrom (entries : List (Datum × Datum)) (d : Definition) : Prop where
  statuses : d.statuses = statusesOf .empty .empty entries
  labels : d.labels = .ofList (nodeLabels Node.label (statusesOf .empty .empty entries))
  actionLabels : d.actionLabels =
    .ofList (nodeLabels Node.actionLabel (statusesOf .empty .empty entries))

theorem exists_readFrom (h : ofDocument document .null .null name = .ok d) :
    ∃ initial entries, Shaped document initial entries ∧ d.initial = .text initial.form ∧
      (∀ source target, ¬ Dangling entries source target) ∧ ReadFrom entries d := by
  obtain ⟨initial, entries, -, -, hshaped, -⟩ := exists_shaped_of_ofDocument h
  have hnull : givenLabels .null = .ok .empty := rfl
  obtain ⟨hi, hread⟩ := ofDocument_of_shaped hshaped hnull hnull name
  rw [h] at hread
  split at hread
  · rename_i hdangling
    cases hread
    exact ⟨initial, entries, hshaped, rfl, dangling_eq_nil_iff.1 hdangling, rfl, rfl, rfl⟩
  · cases hread

theorem OverlaidBy.labelledBy {d' : Definition} (h : OverlaidBy L A d d')
    (hd : ReadFrom entries d) : LabelledBy L A d d' := by
  have hexact : ∀ e ∈ (statusesOf .empty .empty entries).entries, Table.Exact e.1 :=
    fun e he => exact_of_mem_statusesOf he
  have hgetD (o o' : Option Datum) : (o.or o').getD .null = o.getD (o'.getD .null) := by
    cases o <;> rfl
  constructor
  · intro s hs
    unfold Definition.statusLabel ownLabel
    rw [Datum.key_of_hashable hs, hd.statuses, ← getD_get?_nodeLabels hexact, ← hd.labels, ← hgetD,
      ← h.labels]
    rfl
  · intro s hs
    unfold Definition.actionLabel ownLabel
    rw [Datum.key_of_hashable hs, hd.statuses, ← getD_get?_nodeLabels hexact, ← hd.actionLabels,
      ← hgetD, ← h.actionLabels]
    rfl

/-- The same document read under tables of labels. -/
theorem exists_overlaid_reading (hshaped : Shaped document initial entries)
    (hinitial : d.initial = .text initial.form)
    (hsound : ∀ source target, ¬ Dangling entries source target) (hd : ReadFrom entries d)
    (name : Datum) :
    ∃ d₁, ofDocument document (.map labels) (.map actionLabels) name = .ok d₁ ∧
      OverlaidBy (.ofList labels) (.ofList actionLabels) d d₁ := by
  have hgiven (entries : List (Datum × Datum)) :
      givenLabels (.map entries) = .ok (.ofList entries) := rfl
  obtain ⟨hi, hread⟩ :=
    ofDocument_of_shaped hshaped (hgiven labels) (hgiven actionLabels) name
  rw [dif_pos (dangling_eq_nil_iff.2 hsound)] at hread
  refine ⟨_, hread, hinitial.symm, ?_, fun s => ?_, fun s => ?_, fun s => ?_,
    (coherent_of_ofDocument hread).supported⟩
  · unfold statusIds
    rw [hd.statuses, keys_statusesOf, keys_statusesOf]
  · rw [hd.statuses]
    rcases get?_statusesOf_cases entries s with ⟨e, -, hnode⟩ | hnone
    · rw [hnode, hnode]
      rfl
    · rw [hnone, hnone]
  · rw [hd.labels]
    exact get?_labels_of_reading (fun _ => rfl) (fun _ => rfl) s
  · rw [hd.actionLabels]
    exact get?_labels_of_reading (fun _ => rfl) (fun _ => rfl) s

/-- The finished definition with tables of labels laid over its own. -/
theorem overlaid_withLabels (h : d.Supported) (hd : ReadFrom entries d) :
    OverlaidBy L A d (d.withLabels (d.labels.union L) (d.actionLabels.union A)) where
  initial := rfl
  statusIds := rfl
  rule _ := rfl
  labels := Table.get?_union (by rw [hd.labels]; exact fun e he => exact_of_mem_nodeLabels he)
  actionLabels :=
    Table.get?_union (by rw [hd.actionLabels]; exact fun e he => exact_of_mem_nodeLabels he)
  supported := h

end Definition

/-! ## What a provider gives -/

namespace Provider

open Definition

variable {σ τ : Type} {ps ps' : Producers} {j j' : Journal} {s : σ} {s' : τ} {p q : Provider}

/-- Asked for the definition and then for both tables of labels, the provider gives these. -/
def Gives (p : Provider) (ps : Producers) (j : Journal) (s : σ) (given : Given)
    (labels actionLabels : Datum) : Prop :=
  ∃ j₁ j₂ j₃, p.callDefinition.run ps j s = (.ok given, j₁, s) ∧
    p.callLabels.run ps j₁ s = (.ok labels, j₂, s) ∧
    p.callActionLabels.run ps j₂ s = (.ok actionLabels, j₃, s)

theorem obtain_of_document {document labels actionLabels : Datum}
    (h : p.Gives ps j s (.document document) labels actionLabels) :
    (p.obtainDefinition.run ps j s).1 =
      ofDocument document labels actionLabels (.text p.name) := by
  obtain ⟨j₁, j₂, j₃, hdefinition, hlabels, hactions⟩ := h
  unfold obtainDefinition
  simp only [Act.run_bind, hdefinition, hlabels, hactions, Act.run_ofExcept]

theorem obtain_of_definition {d : Definition} {labels actionLabels : List (Datum × Datum)}
    (h : p.Gives ps j s (.definition d) (.map labels) (.map actionLabels)) :
    (p.obtainDefinition.run ps j s).1 =
      .ok (d.withLabels (d.labels.union (.ofList labels))
        (d.actionLabels.union (.ofList actionLabels))) := by
  have hmerge (t : Labels) (entries : List (Datum × Datum)) :
      Datum.mergeInto t (.map entries) = .ok (t.union (.ofList entries)) := rfl
  obtain ⟨j₁, j₂, j₃, hdefinition, hlabels, hactions⟩ := h
  unfold obtainDefinition
  simp only [Act.run_bind, hdefinition, hlabels, hactions, Act.run_ofExcept, hmerge, Act.run_pure]

/-- A provider may give a document or the definition read from it: with the same tables of labels
both become alike definitions, where a status has the label of the tables and else its own. -/
theorem document_or_definition {document name : Datum} {labels actionLabels : List (Datum × Datum)}
    {d : Definition} (hread : ofDocument document .null .null name = .ok d)
    (hp : p.Gives ps j s (.document document) (.map labels) (.map actionLabels))
    (hq : q.Gives ps' j' s' (.definition d) (.map labels) (.map actionLabels)) :
    ∃ d₁ d₂, (p.obtainDefinition.run ps j s).1 = .ok d₁ ∧
      (q.obtainDefinition.run ps' j' s').1 = .ok d₂ ∧ AnswersAlike d₁ d₂ ∧
      LabelledBy (.ofList labels) (.ofList actionLabels) d d₁ ∧
      LabelledBy (.ofList labels) (.ofList actionLabels) d d₂ := by
  obtain ⟨initial, entries, hshaped, hinitial, hsound, hd⟩ := exists_readFrom hread
  obtain ⟨d₁, hread₁, hover₁⟩ := exists_overlaid_reading hshaped hinitial hsound hd (.text p.name)
  have hover₂ := overlaid_withLabels (L := .ofList labels) (A := .ofList actionLabels)
    (coherent_of_ofDocument hread).supported hd
  exact ⟨d₁, _, (obtain_of_document hp).trans hread₁, obtain_of_definition hq,
    hover₁.answersAlike hover₂, hover₁.labelledBy hd, hover₂.labelledBy hd⟩

/-- A provider whose methods give these. -/
def giving (given : Given) (labels actionLabels : Datum) : Provider where
  name := "Orders"
  description := "<Orders object>"
  labels := some (.method (.ok labels))
  actionLabels := some (.method (.ok actionLabels))
  definition := some (.method (.ok given))

theorem mixedDocument_either_way :
    let labels : List (Datum × Datum) :=
      [(.text "draft", .null), (.text "lost", .text "Lost"), (.int 7, .text "Seven")]
    let ps : Producers := fun _ _ => .ok .null
    ∃ d, ofDocument mixedDocument .null .null (.text "") = .ok d ∧ ∃ d₁ d₂,
      ((giving (.document mixedDocument) (.map labels) (.map [])).obtainDefinition.run
        ps .empty ()).1 = .ok d₁ ∧
      ((giving (.definition d) (.map labels) (.map [])).obtainDefinition.run
        ps .empty ()).1 = .ok d₂ ∧
      AnswersAlike d₁ d₂ := by
  intro labels ps
  obtain ⟨d, hread⟩ : ∃ d, ofDocument mixedDocument .null .null (.text "") = .ok d := ⟨_, rfl⟩
  have hgives (given : Given) : (giving given (.map labels) (.map [])).Gives ps .empty () given
      (.map labels) (.map []) := ⟨_, _, _, rfl, rfl, rfl⟩
  obtain ⟨d₁, d₂, h₁, h₂, halike, -⟩ := document_or_definition hread (hgives _) (hgives _)
  exact ⟨d, hread, d₁, d₂, h₁, h₂, halike⟩

end Provider

end Lifecycle
