import Lifecycle.Proofs.Labels
import Lifecycle.Proofs.PlainData
import Lifecycle.Proofs.Reading

/-!
# What the parts of a document inherit

The parts of plain data are plain, and so are those of data that can be written
(`Datum.Inherited`). So a plain document has static rules only (`Definition.onlyStatic_of_plain`),
and where no integer in a document is too long everything can be written that is put into words
while it is read, or later about the definition in it (`Definition.writable_of_named`,
`Definition.writable_of_ofDocument`).
-/

namespace Lifecycle

namespace Datum

/-- A property of null, which a map has just if both parts of each entry have it. -/
structure Inherited (P : Datum → Prop) : Prop where
  null : P .null
  map_iff : ∀ {entries : List (Datum × Datum)}, P (.map entries) ↔ ∀ e ∈ entries, P e.1 ∧ P e.2

theorem inherited_plain : Inherited Plain where
  null := .null
  map_iff := by
    intro entries
    constructor
    · intro h
      cases h with
      | map hkeys hvalues => exact fun e he => ⟨hkeys e he, hvalues e he⟩
    · intro h
      exact .map (fun e he => (h e he).1) fun e he => (h e he).2

theorem inherited_writable : Inherited fun d => d.writable = true where
  null := rfl
  map_iff := by
    intro entries
    rw [writable, entriesWritable_eq, List.all_eq_true]
    simp only [Bool.and_eq_true]

/-- The members of a collection that can be written can be written. -/
theorem writable_of_lists {v : Datum} {items : List Datum} (h : Rule.Lists v items)
    (hv : v.writable = true) : ∀ item ∈ items, item.writable = true := by
  cases h <;> exact List.all_eq_true.1 ((allWritable_eq _).symm.trans hv)

namespace Inherited

variable {P : Datum → Prop} (hP : Inherited P)
include hP

theorem of_table {document : Datum} {t : Table Datum Datum} (h : P document)
    (ht : document.table? = some t) : ∀ e ∈ t.entries, P e.1 ∧ P e.2 := by
  cases document <;> cases ht
  exact Table.forall_entries_ofList (hP.map_iff.1 h)

theorem of_get? {t : Table Datum Datum} (ht : ∀ e ∈ t.entries, P e.1 ∧ P e.2) (k : Datum) :
    P ((t.get? k).getD .null) := by
  cases h : t.get? k with
  | none => exact hP.null
  | some v =>
    obtain ⟨e, he, -, rfl⟩ := Table.exists_entry_of_get? h
    exact (ht e he).2

end Inherited

end Datum

namespace Definition

variable {document initial name : Datum} {entries : List (Datum × Datum)} {d : Definition}

section Inherited

variable {P : Datum → Prop} (hP : Datum.Inherited P)
include hP

theorem inherited_field {t : Table Datum Datum} (ht : ∀ e ∈ t.entries, P e.1 ∧ P e.2)
    (first second : String) : P (field t first second) := by
  have hfirst := hP.of_get? ht (.text first)
  unfold field
  split
  · rename_i h
    rwa [h] at hfirst
  · exact hP.of_get? ht (.text second)

theorem inherited_of_located (h : Located document initial entries) (hdocument : P document) :
    P initial ∧ ∀ e ∈ entries, P e.1 ∧ P e.2 := by
  cases h with
  | intro hinitial hstatuses =>
    rw [under_iff] at hinitial hstatuses
    have hfields := hP.of_table hdocument rfl
    constructor
    · rw [← hinitial]
      exact inherited_field hP hfields _ _
    · have hmap := inherited_field hP hfields "statuses" "status"
      rw [hstatuses] at hmap
      exact hP.of_table hmap rfl

theorem inherited_transition {value : Datum} (h : P value) : P (transition value) := by
  have hstates : States value (transition value) := states_iff.2 rfl
  generalize transition value = v at hstates
  cases hstates with
  | map hunder =>
    rw [← under_iff.1 hunder]
    exact inherited_field hP (hP.of_table h rfl) _ _
  | plain _ => exact h

theorem inherited_carried (action : Bool) {value : Datum} (h : P value) :
    P (carried action value) := by
  have hcarries : Carries action value (carried action value) := carries_iff.2 rfl
  generalize carried action value = label at hcarries
  cases hcarries with
  | present hlabel =>
    have hvalue := hP.of_get? (hP.of_table h rfl) (.text (labelField action))
    rwa [hlabel] at hvalue
  | absent => exact hP.null
  | plain => exact hP.null

end Inherited

/-! ## Plain documents -/

theorem exists_stated_of_plain {v : Datum} (h : v.Plain) :
    ∃ targets, Rule.stated v = .static targets := by
  cases h <;> exact ⟨_, rfl⟩

/-- A plain document has static rules only. -/
theorem onlyStatic_of_plain (h : ofDocument document .null .null name = .ok d)
    (hplain : document.Plain) : d.OnlyStatic := by
  obtain ⟨initial, entries, L, A, hshaped, -, hstatuses, -⟩ := exists_shaped_of_ofDocument h
  have hentries := (inherited_of_located Datum.inherited_plain hshaped.located hplain).2
  intro e he
  rw [hstatuses] at he
  obtain ⟨e', hlast, rfl⟩ := mem_statusesOf_iff.1 he
  exact exists_stated_of_plain (inherited_transition Datum.inherited_plain (hentries e' hlast.mem).2)

/-! ## Documents that can be written -/

section Writable

variable (hdocument : document.writable = true)
include hdocument

theorem writable_of_identifier {x : Datum} (h : Identifier document x) : x.writable = true := by
  have hparts {initial : Datum} {entries : List (Datum × Datum)}
      (hlocated : Located document initial entries) :=
    inherited_of_located Datum.inherited_writable hlocated hdocument
  cases h with
  | initial hlocated => exact (hparts hlocated).1
  | key hlocated he => exact ((hparts hlocated).2 _ he).1
  | target hlocated he hstates hlists hitem =>
    rw [← states_iff.1 hstates] at hlists
    have hvalue := ((hparts hlocated).2 _ he).2
    exact Datum.writable_of_lists hlists
      (inherited_transition Datum.inherited_writable hvalue) _ hitem

theorem writable_nameIn : (nameIn document).writable = true := by
  unfold nameIn
  cases ht : document.table? with
  | none => rfl
  | some t =>
    have hname := Datum.inherited_writable.of_get?
      (Datum.inherited_writable.of_table hdocument ht) (.text "name")
    rw [Option.bind_some]
    cases h : t.get? (.text "name") with
    | none => rfl
    | some given =>
      rw [h] at hname
      exact hname

theorem writable_name (hname : name.writable = true) :
    (name.orElse (nameIn document)).writable = true := by
  unfold Datum.orElse
  split
  · exact hname
  · exact writable_nameIn hdocument

/-- What is put into words when a document is read can be written if the document can be. -/
theorem writable_of_named (hname : name.writable = true) {x : Datum} (h : Named document name x) :
    x.writable = true := by
  cases h with
  | identifier h => exact writable_of_identifier hdocument h
  | name => exact writable_name hdocument hname

/-- The labels that come from a document can be written if the document can be. -/
theorem writable_labelIn (h : ofDocument document .null .null name = .ok d) (action : Bool)
    (t : String) : (d.labelIn action (.text t)).writable = true := by
  obtain ⟨initial, entries, -, -, hshaped, -⟩ := exists_shaped_of_ofDocument h
  obtain ⟨given, hgiven, hover⟩ := exists_labelsOver h hshaped
  have hempty : given action = .empty := by
    have hnull := hgiven action
    cases action <;> exact (Except.ok.inj hnull).symm
  have hlabel : d.labelOf action (.text t) = .ok (d.labelIn action (.text t)) := by
    cases action <;> rfl
  cases hdecl : d.declares (.text t) with
  | false =>
    rw [hover.label_of_not_declares action rfl hdecl, hempty] at hlabel
    rw [← Except.ok.inj hlabel]
    rfl
  | true =>
    obtain ⟨e, hlast, ht, hnode⟩ := exists_entry_of_declares hover hdecl
    rw [ht] at hlabel hnode ⊢
    rw [hover.label_of_declares action hnode, called, hempty] at hlabel
    have hentries := (inherited_of_located Datum.inherited_writable hshaped.located hdocument).2
    rw [← Except.ok.inj hlabel]
    exact inherited_carried Datum.inherited_writable action (hentries e hlast.mem).2

/-- All that is printed of the definition besides its identifiers can be written. -/
structure Writable (d : Definition) : Prop where
  name : d.name.writable = true
  label : ∀ action t, (d.labelIn action (.text t)).writable = true

theorem writable_of_ofDocument (hname : name.writable = true)
    (h : ofDocument document .null .null name = .ok d) : d.Writable where
  name := by
    rw [name_of_ofDocument h]
    exact writable_name hdocument hname
  label := writable_labelIn hdocument h

end Writable

end Definition

end Lifecycle
