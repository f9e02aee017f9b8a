import Lifecycle.Proofs.Document
import Lifecycle.Provider.Basic

/-!
# Which documents describe a definition

A document is well formed if it has the parts of a definition, its identifiers have texts and no
edge dangles (`Definition.WellFormed`). Reading accepts just the well-formed documents, and names the
dangling edges where they are the only fault (`Definition.accepts_wellFormed`). It refuses the others
by a fault of the definition, or because something in them cannot be written (`Definition.Refused`).
A definition that was read is the one that the document describes
(`Definition.exists_shaped_of_ofDocument`).
-/

namespace Lifecycle

namespace Definition

/-! ## Reading a document -/

variable {entries : List (Datum × Datum)} {document initial labels actionLabels name : Datum}
  {L A : Labels}

/-- The name that a definition gets from a document, if none is given. -/
def nameIn (document : Datum) : Datum :=
  ((document.table?.bind fun t => t.get? (.text "name")).getD (.text ""))

theorem ofDocument_eq {t raw : Table Datum Datum} (ht : document.table? = some t)
    (hinitial : (field t "initial_status" "initialStatus").truthy = true)
    (hraw : (field t "statuses" "status").table? = some raw)
    (hlabels : givenLabels labels = .ok L) (hactions : givenLabels actionLabels = .ok A) :
    ofDocument document labels actionLabels name =
      (readStatuses L A raw.entries).bind fun statuses =>
        (field t "initial_status" "initialStatus").shown.bind fun id =>
          create (.text id) statuses (L.putAll (nodeLabels Node.label statuses))
            (A.putAll (nodeLabels Node.actionLabel statuses)) (name.orElse (nameIn document)) := by
  unfold ofDocument nameIn
  simp only [ht, hinitial, hraw, hlabels, hactions]
  rfl

/-- Where a document has its initial status and the entries of its statuses, without the keys that
come again. -/
inductive Located : Datum → Datum → List (Datum × Datum) → Prop
  | intro {fields statuses : List (Datum × Datum)} {initial : Datum}
      (hinitial : Under (.ofList fields) "initial_status" "initialStatus" initial)
      (hstatuses : Under (.ofList fields) "statuses" "status" (.map statuses)) :
      Located (.map fields) initial (Table.ofList statuses).entries

theorem Located.unique {initial' : Datum} {entries' : List (Datum × Datum)}
    (h : Located document initial entries) (h' : Located document initial' entries') :
    initial = initial' ∧ entries = entries' := by
  obtain ⟨hinitial, hstatuses⟩ := h
  obtain ⟨hinitial', hstatuses'⟩ := h'
  rw [under_iff] at hinitial hstatuses hinitial' hstatuses'
  cases hstatuses.symm.trans hstatuses'
  exact ⟨hinitial.symm.trans hinitial', rfl⟩

theorem ofDocument_of_located (h : Located document initial entries)
    (hinitial : initial.truthy = true) (hlabels : givenLabels labels = .ok L)
    (hactions : givenLabels actionLabels = .ok A) (name : Datum) :
    ofDocument document labels actionLabels name =
      (readStatuses L A entries).bind fun statuses =>
        initial.shown.bind fun id =>
          create (.text id) statuses (L.putAll (nodeLabels Node.label statuses))
            (A.putAll (nodeLabels Node.actionLabel statuses)) (name.orElse (nameIn document)) := by
  cases h with
  | intro hfield hstatuses =>
    rw [under_iff] at hfield hstatuses
    rw [← hfield] at hinitial ⊢
    exact ofDocument_eq rfl hinitial (by rw [hstatuses]; rfl) hlabels hactions

theorem located_or_fault (document labels actionLabels name : Datum) :
    (∃ initial entries, Located document initial entries ∧ initial.truthy = true) ∨
      ∃ fault, ofDocument document labels actionLabels name = .error (.definition fault) := by
  cases ht : document.table? with
  | none =>
    refine .inr ⟨.notMapping document.kind, ?_⟩
    simp only [ofDocument, ht]
  | some t =>
    cases hinitial : (field t "initial_status" "initialStatus").truthy with
    | false =>
      refine .inr ⟨.noInitial, ?_⟩
      simp only [ofDocument, ht, hinitial]
      rfl
    | true =>
      cases hraw : (field t "statuses" "status").table? with
      | none =>
        refine .inr ⟨.statusesNotMapping, ?_⟩
        simp only [ofDocument, ht, hinitial, hraw]
        rfl
      | some raw =>
        refine .inl ⟨field t "initial_status" "initialStatus", raw.entries, ?_, hinitial⟩
        obtain ⟨fields, rfl, rfl⟩ : ∃ fields, document = .map fields ∧ t = .ofList fields := by
          cases document <;> cases ht
          exact ⟨_, rfl, rfl⟩
        generalize hstatuses : field (.ofList fields) "statuses" "status" = statuses at hraw
        cases statuses <;> cases hraw
        exact .intro (under_iff.2 rfl) (under_iff.2 hstatuses)

/-! ## Well-formed documents -/

/-- The document names a status by the datum: by its initial status, by a key of its statuses or by a
member of a collection of targets. -/
inductive Identifier (document : Datum) : Datum → Prop
  | initial {initial : Datum} {entries : List (Datum × Datum)}
      (h : Located document initial entries) : Identifier document initial
  | key {initial : Datum} {entries : List (Datum × Datum)} {e : Datum × Datum}
      (h : Located document initial entries) (he : e ∈ entries) : Identifier document e.1
  | target {initial v item : Datum} {entries : List (Datum × Datum)} {e : Datum × Datum}
      {items : List Datum} (h : Located document initial entries) (he : e ∈ entries)
      (hstates : States e.2 v) (hlists : Rule.Lists v items) (hitem : item ∈ items) :
      Identifier document item

/-- What is put into words when the document is read: its identifiers and, where it has no statuses,
the name that the fault mentions. -/
inductive Named (document name : Datum) : Datum → Prop
  | identifier {x : Datum} (h : Identifier document x) : Named document name x
  | name {initial : Datum} (h : Located document initial []) :
      Named document name (name.orElse (nameIn document))

/-- The document is not read, by a fault of the definition or because something that would be put
into words has no text. -/
def Refused (document name : Datum) (outcome : Except Failure Definition) : Prop :=
  ∃ fault, WordedAs (Named document name) (.error (.definition fault)) outcome

theorem Refused.cases {outcome : Except Failure Definition} (h : Refused document name outcome) :
    (∃ fault, outcome = .error (.definition fault)) ∨
      outcome = .error (.misuse .tooManyDigits) ∧ ∃ x, Named document name x ∧ x.writable = false := by
  obtain ⟨fault, h | h⟩ := h
  · exact .inl ⟨fault, h⟩
  · exact .inr h

theorem Refused.not_ok {outcome : Except Failure Definition} (h : Refused document name outcome)
    (d : Definition) : outcome ≠ .ok d := by
  rintro rfl
  obtain ⟨fault, h | ⟨h, -⟩⟩ := h
  · cases h
  · cases h

theorem refused_of_fault {outcome : Except Failure Definition}
    (h : ∃ fault, outcome = .error (.definition fault)) : Refused document name outcome := by
  obtain ⟨fault, rfl⟩ := h
  exact ⟨fault, .refl _ _⟩

/-- The document has the parts of a definition, and its edges may dangle. -/
structure Shaped (document initial : Datum) (entries : List (Datum × Datum)) : Prop where
  located : Located document initial entries
  truthy : initial.truthy = true
  nonempty : entries ≠ []
  readable : ∀ e ∈ entries, ∀ v, States e.2 v → Rule.Readable v
  written : ∀ x, Identifier document x → x.writable = true
  declared : initial.form ∈ ids entries

theorem written_iff (h : Located document initial entries) :
    (∀ x, Identifier document x → x.writable = true) ↔
      initial.writable = true ∧ ∀ e ∈ entries, EntryWritten e := by
  constructor
  · intro hwritten
    refine ⟨hwritten _ (.initial h), fun e he => ⟨hwritten _ (.key h he), ?_⟩⟩
    intro items hlists item hitem
    exact hwritten _ (.target h he (states_iff.2 rfl) hlists hitem)
  · rintro ⟨hinitial, hentries⟩ x hx
    cases hx with
    | initial h' =>
      obtain ⟨rfl, -⟩ := h.unique h'
      exact hinitial
    | key h' he =>
      obtain ⟨-, rfl⟩ := h.unique h'
      exact (hentries _ he).key
    | target h' he hstates hlists hitem =>
      obtain ⟨-, rfl⟩ := h.unique h'
      rw [← states_iff.1 hstates] at hlists
      exact (hentries _ he).targets _ hlists _ hitem

/-- An entry without a text has an identifier without one. -/
theorem exists_unwritable_of_entry {e : Datum × Datum} (h : Located document initial entries)
    (he : e ∈ entries) (hwritten : ¬ EntryWritten e) :
    ∃ x, Identifier document x ∧ x.writable = false := by
  by_contra hall
  push Not at hall
  have hentries := ((written_iff h).1 fun x hx => by simpa using hall x hx).2
  exact hwritten (hentries e he)

def WellFormed (document : Datum) : Prop :=
  ∃ initial entries, Shaped document initial entries ∧
    ∀ source target, ¬ Dangling entries source target

/-- A table of labels as a caller gives it, or nothing. -/
inductive LabelTable : Datum → Prop
  | null : LabelTable .null
  | map (entries : List (Datum × Datum)) : LabelTable (.map entries)

/-- The initial status is declared, and so is every target of a static rule. -/
def Closed (d : Definition) : Prop :=
  d.declares d.initial = true ∧
    ∀ e ∈ d.statuses.entries, ∀ t ∈ e.2.rule.staticTargets, d.declares (.text t) = true

theorem closed (d : Definition) : d.Closed :=
  ⟨d.initial_declared, fun _ he _ ht =>
    Statuses.contains_of_dangling_eq_nil d.targets_declared he ht⟩

theorem LabelTable.exists_given (h : LabelTable labels) : ∃ L, givenLabels labels = .ok L := by
  cases h with
  | null => exact ⟨_, rfl⟩
  | map entries => exact ⟨_, rfl⟩

theorem dangling_eq_nil_iff {L A : Labels} : (statusesOf L A entries).dangling = [] ↔
    ∀ source target, ¬ Dangling entries source target := by
  obtain ⟨edges, hedges, hmem, -⟩ := exists_edges L A entries
  rw [hedges, List.map_eq_nil_iff, List.eq_nil_iff_forall_not_mem]
  simp only [Prod.forall, hmem]

theorem ofDocument_of_shaped (h : Shaped document initial entries)
    (hlabels : givenLabels labels = .ok L) (hactions : givenLabels actionLabels = .ok A)
    (name : Datum) :
    ∃ hi : (statusesOf L A entries).contains (.text initial.form) = true,
      ofDocument document labels actionLabels name =
        if hd : (statusesOf L A entries).dangling = [] then
          .ok { initial := .text initial.form
                statuses := statusesOf L A entries
                labels := L.putAll (nodeLabels Node.label (statusesOf L A entries))
                actionLabels := A.putAll (nodeLabels Node.actionLabel (statusesOf L A entries))
                name := name.orElse (nameIn document)
                initial_declared := hi
                targets_declared := hd }
        else .error (.definition (.dangling (statusesOf L A entries).dangling)) := by
  obtain ⟨hinitial, hentries⟩ := (written_iff h.located).1 h.written
  have hstatuses : readStatuses L A entries = .ok (statusesOf L A entries) :=
    readStatuses_of_readable (fun e he => h.readable e he _ (states_iff.2 rfl)) hentries
  have hdeclared : (statusesOf L A entries).contains (.text initial.form) = true :=
    contains_statusesOf_iff.2 h.declared
  refine ⟨hdeclared, ?_⟩
  rw [ofDocument_of_located h.located h.truthy hlabels hactions, hstatuses,
    Datum.shown_of_writable hinitial, ← worded_dangling]
  exact create_of_declared hdeclared

theorem refused_of_not_shaped (hlabels : givenLabels labels = .ok L)
    (hactions : givenLabels actionLabels = .ok A)
    (h : ∀ initial entries, ¬ Shaped document initial entries) (name : Datum) :
    Refused document name (ofDocument document labels actionLabels name) := by
  rcases located_or_fault document labels actionLabels name with
    ⟨initial, entries, hlocated, htruthy⟩ | hfault
  · rw [ofDocument_of_located hlocated htruthy hlabels hactions]
    by_cases hread : ∀ e ∈ entries, Rule.Readable (transition e.2) ∧ EntryWritten e
    · have hentries : ∀ e ∈ entries, EntryWritten e := fun e he => (hread e he).2
      rw [readStatuses_of_readable (fun e he => (hread e he).1) hentries]
      cases hinitial : initial.writable with
      | false =>
        refine ⟨.noInitial, .inr ⟨?_, initial, .identifier (.initial hlocated), hinitial⟩⟩
        rw [Datum.shown_of_unwritable hinitial]
        rfl
      | true =>
        have hundeclared : (statusesOf L A entries).contains (.text initial.form) = false := by
          rw [← Bool.not_eq_true, contains_statusesOf_iff]
          intro hdeclared
          refine h initial entries ⟨hlocated, htruthy, ?_, fun e he v hv => ?_,
            (written_iff hlocated).2 ⟨hinitial, hentries⟩, hdeclared⟩
          · rintro rfl
            cases hdeclared
          · rw [← states_iff.1 hv]
            exact (hread e he).1
        obtain ⟨fault, hfault⟩ := create_of_undeclared keys_statusesOf hundeclared
        rw [Datum.shown_of_writable hinitial]
        refine ⟨fault, hfault.mono ?_⟩
        rintro x ⟨hnone, rfl⟩
        obtain rfl := eq_nil_of_keys_statusesOf hnone
        exact .name hlocated
    · rcases readStatuses_of_not_read _ _ hread with ⟨hlong, e, he, hwritten⟩ | ⟨⟨fault, hbad⟩, -⟩
      · obtain ⟨x, hx, hunwritable⟩ := exists_unwritable_of_entry hlocated he hwritten
        rw [hlong]
        exact ⟨.noInitial, .inr ⟨rfl, x, .identifier hx, hunwritable⟩⟩
      · rw [hbad]
        exact ⟨fault, .refl _ _⟩
  · exact refused_of_fault hfault

/-- An identifier without a text is what fails where nothing is wrong with the transitions. -/
theorem ofDocument_of_unwritable (h : Located document initial entries)
    (htruthy : initial.truthy = true) (hreadable : ∀ e ∈ entries, Rule.Readable (transition e.2))
    (hunwritable : ∃ x, Identifier document x ∧ x.writable = false)
    (hlabels : givenLabels labels = .ok L) (hactions : givenLabels actionLabels = .ok A)
    (name : Datum) :
    ofDocument document labels actionLabels name = .error (.misuse .tooManyDigits) := by
  rw [ofDocument_of_located h htruthy hlabels hactions]
  by_cases hentries : ∀ e ∈ entries, EntryWritten e
  · have hinitial : initial.writable = false := by
      obtain ⟨x, hx, hfalse⟩ := hunwritable
      by_contra hinitial
      have hwritten := (written_iff h).2 ⟨by simpa using hinitial, hentries⟩ x hx
      rw [hfalse] at hwritten
      cases hwritten
    rw [readStatuses_of_readable hreadable hentries, Datum.shown_of_unwritable hinitial]
    rfl
  · rcases readStatuses_of_not_read L A
      (fun hread => hentries fun e he => (hread e he).2) with ⟨hlong, -⟩ | ⟨-, e, he, hnot⟩
    · rw [hlong]
      rfl
    · exact absurd (hreadable e he) hnot

/-- With tables of labels a document is read or refused. -/
theorem ofDocument_cases (hlabels : LabelTable labels) (hactions : LabelTable actionLabels)
    (document name : Datum) :
    (∃ d, ofDocument document labels actionLabels name = .ok d) ∨
      Refused document name (ofDocument document labels actionLabels name) := by
  obtain ⟨L, hL⟩ := hlabels.exists_given
  obtain ⟨A, hA⟩ := hactions.exists_given
  by_cases hshaped : ∃ initial entries, Shaped document initial entries
  · obtain ⟨initial, entries, hshaped⟩ := hshaped
    obtain ⟨hi, hread⟩ := ofDocument_of_shaped hshaped hL hA name
    rw [hread]
    split
    · exact .inl ⟨_, rfl⟩
    · exact .inr ⟨_, .refl _ _⟩
  · push Not at hshaped
    exact .inr (refused_of_not_shaped hL hA hshaped name)

variable {d : Definition}

theorem exists_given_of_ofDocument (h : ofDocument document labels actionLabels name = .ok d) :
    ∃ L A, givenLabels labels = .ok L ∧ givenLabels actionLabels = .ok A := by
  unfold ofDocument at h
  split at h
  · cases h
  · dsimp only at h
    split at h
    · cases h
    · split at h
      · cases h
      · cases hL : givenLabels labels with
        | error e =>
          rw [hL] at h
          cases h
        | ok L =>
          cases hA : givenLabels actionLabels with
          | error e =>
            rw [hL, hA] at h
            cases h
          | ok A => exact ⟨L, A, rfl, rfl⟩

/-- All that is known of a definition that was read. -/
theorem exists_shaped_of_ofDocument (h : ofDocument document labels actionLabels name = .ok d) :
    ∃ initial entries L A, Shaped document initial entries ∧ d.initial = .text initial.form ∧
      d.statuses = statusesOf L A entries ∧
      d.labels = L.putAll (nodeLabels Node.label (statusesOf L A entries)) ∧
      d.actionLabels = A.putAll (nodeLabels Node.actionLabel (statusesOf L A entries)) := by
  obtain ⟨L, A, hL, hA⟩ := exists_given_of_ofDocument h
  by_cases hshaped : ∃ initial entries, Shaped document initial entries
  · obtain ⟨initial, entries, hshaped⟩ := hshaped
    obtain ⟨hi, hread⟩ := ofDocument_of_shaped hshaped hL hA name
    rw [h] at hread
    split at hread
    · cases hread
      exact ⟨initial, entries, L, A, hshaped, rfl, rfl, rfl, rfl⟩
    · cases hread
  · push Not at hshaped
    exact absurd h ((refused_of_not_shaped hL hA hshaped name).not_ok d)

theorem exists_ofDocument_iff (hlabels : LabelTable labels) (hactions : LabelTable actionLabels)
    (name : Datum) :
    (∃ d, ofDocument document labels actionLabels name = .ok d) ↔ WellFormed document := by
  constructor
  · rintro ⟨d, h⟩
    obtain ⟨initial, entries, L, A, hshaped, -, hstatuses, -⟩ := exists_shaped_of_ofDocument h
    have hdangling := d.targets_declared
    rw [hstatuses] at hdangling
    exact ⟨initial, entries, hshaped, dangling_eq_nil_iff.1 hdangling⟩
  · rintro ⟨initial, entries, hshaped, hsound⟩
    obtain ⟨L, hL⟩ := hlabels.exists_given
    obtain ⟨A, hA⟩ := hactions.exists_given
    obtain ⟨hi, hread⟩ := ofDocument_of_shaped hshaped hL hA name
    exact ⟨_, hread.trans (dif_pos (dangling_eq_nil_iff.2 hsound))⟩

theorem refused_of_not_wellFormed (hlabels : LabelTable labels)
    (hactions : LabelTable actionLabels) (name : Datum) (h : ¬ WellFormed document) :
    Refused document name (ofDocument document labels actionLabels name) :=
  (ofDocument_cases hlabels hactions document name).resolve_left
    (mt (exists_ofDocument_iff hlabels hactions name).1 h)

/-- The definition has the initial status, the statuses and the static targets that the document
states. -/
def Describes (document : Datum) (d : Definition) : Prop :=
  ∃ initial entries, Shaped document initial entries ∧ d.initial = .text initial.form ∧
    d.statusIds = (ids entries).eraseDups.map .text ∧
    ∀ source target, Edge entries source target ↔
      ∃ n, (.text source, n) ∈ d.statuses.entries ∧ target ∈ n.rule.staticTargets

theorem describes_of_ofDocument (h : ofDocument document labels actionLabels name = .ok d) :
    Describes document d := by
  obtain ⟨initial, entries, L, A, hshaped, hinitial, hstatuses, -⟩ := exists_shaped_of_ofDocument h
  refine ⟨initial, entries, hshaped, hinitial, ?_, fun source target => ?_⟩
  · unfold statusIds
    rw [hstatuses, keys_statusesOf]
  · rw [hstatuses]
    exact edge_iff_exists_node

/-- The definition stems from what was given: from a document that describes it, or from a
definition with the same graph. -/
inductive Stems : Given → Definition → Prop
  | document {document : Datum} {d : Definition} (h : Describes document d) :
      Stems (.document document) d
  | definition {d₀ d : Definition} (hinitial : d.initial = d₀.initial)
      (hstatuses : d.statuses = d₀.statuses) : Stems (.definition d₀) d

theorem stems_of_obtainDefinition {σ : Type} {p : Provider} {ps : Producers} {j : Journal} {s : σ}
    (h : (p.obtainDefinition.run ps j s).1 = .ok d) :
    ∃ given, (p.callDefinition.run ps j s).1 = .ok given ∧ Stems given d := by
  obtain ⟨given, j₁, s₁, hgiven, h⟩ := Act.exists_of_bind_ok h
  rw [hgiven]
  refine ⟨given, rfl, ?_⟩
  cases given with
  | definition d₀ =>
    obtain ⟨_, _, _, -, h⟩ := Act.exists_of_bind_ok h
    obtain ⟨_, _, _, -, h⟩ := Act.exists_of_bind_ok h
    obtain ⟨_, _, _, -, h⟩ := Act.exists_of_bind_ok h
    obtain ⟨_, _, _, -, h⟩ := Act.exists_of_bind_ok h
    cases h
    exact .definition rfl rfl
  | document document =>
    obtain ⟨labels, j₂, s₂, -, h⟩ := Act.exists_of_bind_ok h
    obtain ⟨actionLabels, j₃, s₃, -, h⟩ := Act.exists_of_bind_ok h
    exact .document (describes_of_ofDocument h)

theorem ofDocument_of_edge (h : Shaped document initial entries)
    (hedge : ∃ source target, Dangling entries source target)
    (hlabels : givenLabels labels = .ok L) (hactions : givenLabels actionLabels = .ok A)
    (name : Datum) : ofDocument document labels actionLabels name =
      .error (.definition (.dangling (statusesOf L A entries).dangling)) := by
  obtain ⟨hi, hread⟩ := ofDocument_of_shaped h hlabels hactions name
  have hdangling : (statusesOf L A entries).dangling ≠ [] := by
    obtain ⟨source, target, hedge⟩ := hedge
    exact fun hnil => dangling_eq_nil_iff.1 hnil source target hedge
  rw [hread, dif_neg hdangling]

/-- Reading accepts just the well-formed documents and refuses every other: by a fault of the
definition, or where something that is put into words has no text. If nothing but edges is at fault,
the failure names the dangling ones, in order. What is read is what the document describes, and a
provider's definition stems from what the provider gave; both are closed. -/
theorem accepts_wellFormed (hlabels : LabelTable labels) (hactions : LabelTable actionLabels) :
    let read := ofDocument document labels actionLabels name
    ((∃ d, read = .ok d) ↔ WellFormed document) ∧
    (¬ WellFormed document → Refused document name read) ∧
    (∀ initial entries, Shaped document initial entries →
      (∃ source target, Dangling entries source target) →
      ∃ edges : List (String × String),
        read = .error (.definition (.dangling (edges.map fun e => (.text e.1, e.2)))) ∧
        (DefinitionFault.dangling (edges.map fun e => (.text e.1, e.2))).message =
          "Transitions to undeclared statuses: " ++
            ", ".intercalate (edges.map fun e => e.1 ++ " -> " ++ e.2) ∧
        (∀ source target, (source, target) ∈ edges ↔ Dangling entries source target) ∧
        edges.Pairwise (Precedes entries)) ∧
    (∀ d, read = .ok d → Describes document d ∧ d.Closed) ∧
    ∀ (σ : Type) (p : Provider) (ps : Producers) (j : Journal) (s : σ) (d : Definition),
      (p.obtainDefinition.run ps j s).1 = .ok d →
        (∃ given, (p.callDefinition.run ps j s).1 = .ok given ∧ Stems given d) ∧ d.Closed := by
  intro read
  obtain ⟨L, hL⟩ := hlabels.exists_given
  obtain ⟨A, hA⟩ := hactions.exists_given
  refine ⟨exists_ofDocument_iff hlabels hactions name,
    refused_of_not_wellFormed hlabels hactions name, ?_,
    fun d hd => ⟨describes_of_ofDocument hd, d.closed⟩,
    fun _ _ _ _ _ d hd => ⟨stems_of_obtainDefinition hd, d.closed⟩⟩
  intro initial entries hshaped hedge
  obtain ⟨edges, hedges, hmem, hordered⟩ := exists_edges L A entries
  refine ⟨edges, ?_, message_dangling edges, hmem, hordered⟩
  rw [← hedges]
  exact ofDocument_of_edge hshaped hedge hL hA name

/-- Two keys with one text, of which the second counts. -/
def orderDocument : Datum :=
  .map [(.text "initialStatus", .int 1),
    (.text "statuses", .map [(.int 1, .list [.text "lost"]), (.text "1", .tuple [.text "paid"]),
      (.text "paid", .null)])]

theorem orderDocument_wellFormed :
    LabelTable .null ∧ LabelTable (.map [(.text "paid", .text "Paid")]) ∧
      WellFormed orderDocument := by
  have hactions := LabelTable.map [(.text "paid", .text "Paid")]
  have hread : ∃ d, ofDocument orderDocument .null (.map [(.text "paid", .text "Paid")])
      (.text "orders") = .ok d := ⟨_, rfl⟩
  exact ⟨.null, hactions, (accepts_wellFormed .null hactions).1.1 hread⟩

/-! ## A target that has no text -/

def longStatuses : List (Datum × Datum) :=
  [(.text "draft", .list [.tooLong]), (.text "paid", .null)]

theorem readable_longStatuses : ∀ e ∈ longStatuses, Rule.Readable (transition e.2) := by
  intro e he
  simp only [longStatuses, List.mem_cons, List.not_mem_nil, or_false] at he
  rcases he with rfl | rfl
  · exact .listed (.list _)
  · exact .null

theorem unread_of_longStatuses (h : Located document (.text "draft") entries)
    (hentries : entries.Perm longStatuses) :
    ofDocument document (.map []) (.map []) .null = .error (.misuse .tooManyDigits) := by
  have hdraft : (.text "draft", .list [.tooLong]) ∈ entries :=
    hentries.mem_iff.2 List.mem_cons_self
  have htarget : Identifier document .tooLong :=
    .target h hdraft (.plain nofun) (.list _) List.mem_cons_self
  exact ofDocument_of_unwritable h rfl
    (fun e he => readable_longStatuses e (hentries.mem_iff.1 he))
    ⟨.tooLong, htarget, Datum.tooLong_unwritable⟩ rfl rfl .null

def longDocument (initial : String) (statuses : List (Datum × Datum)) : Datum :=
  .map [(.text initial, .text "draft"), (.text "statuses", .map statuses)]

theorem located_longDocument (statuses : List (Datum × Datum)) :
    Located (longDocument "initial_status" statuses) (.text "draft")
      (Table.ofList statuses).entries :=
  .intro (.first rfl) (.first rfl)

/-- A document can be neither read nor at fault as a definition. -/
theorem exists_document_unread : ∃ document,
    let read := ofDocument document (.map []) (.map []) .null
    (∀ d, read ≠ .ok d) ∧ ∀ fault, read ≠ .error (.definition fault) := by
  refine ⟨longDocument "initial_status" longStatuses, ?_⟩
  dsimp only
  rw [unread_of_longStatuses (located_longDocument _) (.refl _)]
  exact ⟨nofun, nofun⟩

end Definition

end Lifecycle
