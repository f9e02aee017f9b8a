import Lifecycle.Proofs.Spelling

/-!
# Identifiers are texts

Statuses are named by data of any type, and every name counts by its text alone: the keys of the
statuses, the members of collections of targets and the initial status. If all of them have texts, a
document in which they are texts from the start (`Definition.normalised`) is read alike, and in the
definition a name stands for the status whose key has the same text (`Definition.Refers`,
`Definition.identifiers_normalised`).
-/

namespace Lifecycle

namespace Datum

/-- The datum as a text. -/
def asText (d : Datum) : Datum := .text d.form

theorem map_or_plain (d : Datum) :
    (∃ entries, d = .map entries) ∨ ∀ entries, d ≠ .map entries := by
  cases d with
  | map entries => exact .inl ⟨entries, rfl⟩
  | _ => exact .inr nofun

theorem mem_distinct {items : List Datum} (hexact : ∀ x ∈ items, Table.Exact x) {d : Datum} :
    d ∈ distinct items ↔ d ∈ items := by
  suffices hall : ∀ seen : List Datum,
      d ∈ items.foldl (fun seen d => if seen.any (· == d) then seen else seen ++ [d]) seen ↔
        d ∈ seen ∨ d ∈ items from (hall []).trans (by simp)
  induction items with
  | nil => simp
  | cons x items ih =>
    obtain ⟨hx, hexact⟩ := List.forall_mem_cons.1 hexact
    intro seen
    rw [List.foldl_cons, ih hexact, List.mem_cons]
    split
    · rename_i hseen
      obtain ⟨y, hy, heq⟩ := List.any_eq_true.1 hseen
      obtain rfl := (hx y).1.1 heq
      constructor
      · exact Or.imp_right .inr
      · rintro (h | rfl | h)
        · exact .inl h
        · exact .inl hy
        · exact .inr h
    · rw [List.mem_append, List.mem_singleton, or_assoc]

end Datum

namespace Rule

/-- The members of a collection of targets as texts. -/
def texts : Datum → Datum
  | .list items => .list (items.map Datum.asText)
  | .tuple items => .tuple (items.map Datum.asText)
  | .set items => .set (Datum.distinct (items.map Datum.asText))
  | .frozenset items => .frozenset (Datum.distinct (items.map Datum.asText))
  | v => v

theorem texts_eq_or_lists (v : Datum) :
    texts v = v ∧ (∀ items, ¬ Lists v items) ∨ ∃ items, Lists v items := by
  cases v with
  | list items => exact .inr ⟨items, .list items⟩
  | tuple items => exact .inr ⟨items, .tuple items⟩
  | set items => exact .inr ⟨items, .set items⟩
  | frozenset items => exact .inr ⟨items, .frozenset items⟩
  | _ => exact .inl ⟨rfl, nofun⟩

/-- The members are the texts of those that were there. -/
theorem lists_texts {v : Datum} {items : List Datum} (h : Lists v items) :
    ∃ items', Lists (texts v) items' ∧ ∀ x, x ∈ items' ↔ x ∈ items.map Datum.asText := by
  have hexact : ∀ x ∈ items.map Datum.asText, Table.Exact x :=
    List.forall_mem_map.2 fun item _ => Table.exact_text item.form
  cases h with
  | list items => exact ⟨_, .list _, fun _ => .rfl⟩
  | tuple items => exact ⟨_, .tuple _, fun _ => .rfl⟩
  | set items => exact ⟨_, .set _, fun _ => Datum.mem_distinct hexact⟩
  | frozenset items => exact ⟨_, .frozenset _, fun _ => Datum.mem_distinct hexact⟩

theorem stated_texts (v : Datum) : stated (texts v) = stated v := by
  rcases texts_eq_or_lists v with ⟨h, -⟩ | ⟨items, h⟩
  · rw [h]
  · obtain ⟨items', h', hmem⟩ := lists_texts h
    rw [stated_of_lists h, stated_of_lists h']
    congr 1
    apply Targets.eq_of_mem_iff
    intro t
    simp only [Targets.mem_ofList, List.mem_map, hmem]
    constructor
    · rintro ⟨_, ⟨item, hitem, rfl⟩, rfl⟩
      exact ⟨item, hitem, rfl⟩
    · rintro ⟨item, hitem, rfl⟩
      exact ⟨_, ⟨item, hitem, rfl⟩, rfl⟩

theorem readable_texts {v : Datum} (h : Readable v) : Readable (texts v) := by
  rcases texts_eq_or_lists v with ⟨heq, -⟩ | ⟨items, hlists⟩
  · rwa [heq]
  · obtain ⟨items', hlists', -⟩ := lists_texts hlists
    exact .listed hlists'

/-- A text can be written. -/
theorem written_texts (v : Datum) : Written (texts v) := by
  intro items' hlists' item hitem
  rcases texts_eq_or_lists v with ⟨heq, hnone⟩ | ⟨items, hlists⟩
  · rw [heq] at hlists'
    exact absurd hlists' (hnone items')
  · obtain ⟨items'', hlists'', hmem⟩ := lists_texts hlists
    rw [← listed?_eq_some_iff] at hlists' hlists''
    obtain rfl := Option.some.inj (hlists'.symm.trans hlists'')
    obtain ⟨_, -, rfl⟩ := List.mem_map.1 ((hmem item).1 hitem)
    rfl

end Rule

namespace Definition

/-! ## Documents of texts -/

/-- The value of a status with its targets as texts. -/
def withTexts : Datum → Datum
  | .map fields => .map (amendField Rule.texts "transitions" "transition" fields)
  | v => Rule.texts v

/-- The statuses under texts. Of those with one text the first gives the place and the last the
value. -/
def textTable (entries : List (Datum × Datum)) : Table Datum Datum :=
  .ofList (entries.map fun e => (e.1.asText, withTexts e.2))

def textStatuses : Datum → Datum
  | .map entries => .ofTable (textTable (Table.ofList entries).entries)
  | v => v

def textFields (fields : List (Datum × Datum)) : List (Datum × Datum) :=
  amendField Datum.asText "initial_status" "initialStatus"
    (amendField textStatuses "statuses" "status" fields)

/-- The document with texts for its initial status, its statuses and their targets. -/
def normalised : Datum → Datum
  | .map fields => .map (textFields fields)
  | v => v

variable {fields entries : List (Datum × Datum)} {L A : Labels}

/-! ## Values of a status -/

theorem withTexts_of_plain {v : Datum} (h : ∀ fields, v ≠ .map fields) :
    withTexts v = Rule.texts v ∧ ∀ fields, Rule.texts v ≠ .map fields := by
  cases v with
  | map fields => exact absurd rfl (h fields)
  | _ => exact ⟨rfl, nofun⟩

theorem transition_withTexts (v : Datum) : transition (withTexts v) = Rule.texts (transition v) := by
  rcases v.map_or_plain with ⟨fields, rfl⟩ | hplain
  · exact field_amendField Rule.texts (under_iff.2 rfl) (.inr rfl)
  · obtain ⟨heq, hplain'⟩ := withTexts_of_plain hplain
    rw [heq, transition_of_plain hplain', transition_of_plain hplain]

theorem carried_withTexts (action : Bool) (v : Datum) :
    carried action (withTexts v) = carried action v := by
  rcases v.map_or_plain with ⟨fields, rfl⟩ | hplain
  · have hne := labelField_ne action
    exact carried_congr (get?_amendField_of_ne Rule.texts hne.1 hne.2)
  · obtain ⟨heq, hplain'⟩ := withTexts_of_plain hplain
    rw [heq, carried_of_plain hplain', carried_of_plain hplain]

theorem nodeOf_eq (L A : Labels) (e : Datum × Datum) : nodeOf L A e =
      { rule := .stated (transition e.2)
        label := (L.get? (.text e.1.form)).getD (carried false e.2)
        actionLabel := (A.get? (.text e.1.form)).getD (carried true e.2) } := by
  unfold nodeOf
  rw [labelFrom_eq L, labelFrom_eq A]
  rfl

theorem nodeOf_withTexts (e : Datum × Datum) :
    nodeOf L A (e.1.asText, withTexts e.2) = nodeOf L A e := by
  rw [nodeOf_eq, nodeOf_eq]
  dsimp only
  rw [transition_withTexts, Rule.stated_texts, carried_withTexts, carried_withTexts]
  rfl

/-! ## Merging statuses -/

/-- Entries under texts may be merged before they are read. -/
theorem statusesOf_ofList (htexts : ∀ e ∈ entries, e.1.asText = e.1) :
    statusesOf L A (Table.ofList entries).entries = statusesOf L A entries := by
  have hexact : ∀ e ∈ entries, Table.Exact e.1 := by
    intro e he
    rw [← htexts e he]
    exact Table.exact_text _
  have hmerged : ∀ e ∈ (Table.ofList entries).entries, e.1.asText = e.1 :=
    Table.forall_ofList (P := fun k : Datum => k.asText = k) htexts
  -- Under texts the statuses are the entries themselves with their nodes as values.
  have hkeys {es : List (Datum × Datum)} (htexts : ∀ e ∈ es, e.1.asText = e.1) :
      es.map (fun e => (.text e.1.form, nodeOf L A e)) =
        es.map fun e => (e.1, nodeOf L A (e.1, e.2)) := by
    apply List.map_congr_left
    intro e he
    exact Prod.ext (htexts e he) rfl
  unfold statusesOf
  rw [hkeys hmerged, hkeys htexts]
  exact Table.ofList_map_entries hexact fun k v => nodeOf L A (k, v)

theorem statusesOf_textTable (entries : List (Datum × Datum)) :
    statusesOf L A (textTable entries).entries = statusesOf L A entries := by
  unfold textTable
  rw [statusesOf_ofList (List.forall_mem_map.2 fun _ _ => rfl)]
  unfold statusesOf
  rw [List.map_map]
  simp only [Function.comp_def, nodeOf_withTexts]
  rfl

theorem readable_textTable (h : ∀ e ∈ entries, Rule.Readable (transition e.2)) :
    ∀ e ∈ (textTable entries).entries, Rule.Readable (transition e.2) := by
  refine Table.forall_values_ofList (P := fun v => Rule.Readable (transition v))
    (List.forall_mem_map.2 fun e he => ?_)
  rw [transition_withTexts]
  exact Rule.readable_texts (h e he)

theorem written_textTable (entries : List (Datum × Datum)) :
    ∀ e ∈ (textTable entries).entries, EntryWritten e := by
  have hkeys : ∀ e ∈ (textTable entries).entries, e.1.writable = true :=
    Table.forall_ofList (P := fun k : Datum => k.writable = true)
      (List.forall_mem_map.2 fun _ _ => rfl)
  have hvalues : ∀ e ∈ (textTable entries).entries, Rule.Written (transition e.2) := by
    refine Table.forall_values_ofList (P := fun v => Rule.Written (transition v))
      (List.forall_mem_map.2 fun e _ => ?_)
    rw [transition_withTexts]
    exact Rule.written_texts _
  exact fun e he => ⟨hkeys e he, hvalues e he⟩

/-! ## Documents -/

variable {document initial labels actionLabels name : Datum} {d : Definition}

/-- The initial status counts as true, and every status states a transition that can be read. -/
def Accepted (document : Datum) : Prop :=
  ∀ initial entries, Located document initial entries →
    initial.truthy = true ∧ ∀ e ∈ entries, ∀ v, States e.2 v → Rule.Readable v

theorem field_textFields_initial
    (h : Under (.ofList fields) "initial_status" "initialStatus" initial) (hnull : initial ≠ .null) :
    field (.ofList (textFields fields)) "initial_status" "initialStatus" = initial.asText := by
  refine field_amendField Datum.asText (under_iff.2 ?_) (.inl hnull)
  rw [field_amendField_of_ne textStatuses (by decide) (by decide)]
  exact under_iff.1 h

theorem field_textFields_statuses (fields : List (Datum × Datum)) :
    field (.ofList (textFields fields)) "statuses" "status" =
      textStatuses (field (.ofList fields) "statuses" "status") := by
  unfold textFields
  rw [field_amendField_of_ne Datum.asText (by decide) (by decide)]
  exact field_amendField textStatuses (under_iff.2 rfl) (.inr rfl)

theorem get?_textFields_name (fields : List (Datum × Datum)) :
    (Table.ofList (textFields fields)).get? (.text "name") =
      (Table.ofList fields).get? (.text "name") := by
  unfold textFields
  rw [get?_amendField_of_ne Datum.asText (by decide) (by decide),
    get?_amendField_of_ne textStatuses (by decide) (by decide)]

/-- Where the document has its names, the normalised one has their texts. -/
theorem located_normalised (h : Located document initial entries) (hnull : initial ≠ .null) :
    Located (normalised document) initial.asText (textTable entries).entries := by
  cases h with
  | @intro fields statuses _ hinitial hstatuses =>
    have htable : (textTable (Table.ofList statuses).entries).entries =
        (Table.ofList (textTable (Table.ofList statuses).entries).entries).entries := by
      rw [Table.ofList_entries]
    rw [htable]
    refine .intro (under_iff.2 (field_textFields_initial hinitial hnull)) (under_iff.2 ?_)
    rw [field_textFields_statuses, under_iff.1 hstatuses]
    rfl

theorem ne_null_of_truthy (h : initial.truthy = true) : initial ≠ .null := by
  rintro rfl
  cases h

theorem ofDocument_normalised (hlocated : Located document initial entries)
    (haccepted : Accepted document) (hwritten : ∀ x, Identifier document x → x.writable = true)
    (labels actionLabels name : Datum) :
    ofDocument document labels actionLabels name =
      ofDocument (normalised document) labels actionLabels name := by
  obtain ⟨htruthy, hreadable⟩ := haccepted _ _ hlocated
  obtain ⟨hwritable, hentries⟩ := (written_iff hlocated).1 hwritten
  cases hlocated with
  | @intro fields statuses _ hinitial hstatuses =>
    have hreadable : ∀ e ∈ (Table.ofList statuses).entries, Rule.Readable (transition e.2) :=
      fun e he => hreadable e he _ (states_iff.2 rfl)
    have hnull := ne_null_of_truthy htruthy
    have htext : initial.asText.truthy = true := by
      simpa [Datum.truthy, Datum.asText] using Datum.form_ne_empty htruthy
    apply ofDocument_congr
    · rw [field_textFields_initial hinitial hnull, under_iff.1 hinitial, htruthy, htext]
    · rw [field_textFields_initial hinitial hnull, under_iff.1 hinitial,
        Datum.shown_of_writable hwritable]
      rfl
    · intro L A
      rw [field_textFields_statuses, under_iff.1 hstatuses]
      change some (readStatuses L A (Table.ofList statuses).entries) =
        some (readStatuses L A (Table.ofList (textTable _).entries).entries)
      rw [Table.ofList_entries, readStatuses_of_readable hreadable hentries,
        readStatuses_of_readable (readable_textTable hreadable) (written_textTable _),
        statusesOf_textTable]
    · exact (get?_textFields_name fields).symm

theorem exists_located_of_normalised (h : Located (normalised document) initial entries) :
    ∃ initial entries, Located document initial entries := by
  cases document with
  | map fields =>
    cases h with
    | intro _ hstatuses =>
      rw [under_iff, field_textFields_statuses] at hstatuses
      cases hraw : field (.ofList fields) "statuses" "status" with
      | map statuses => exact ⟨_, _, .intro (under_iff.2 rfl) (under_iff.2 hraw)⟩
      | _ =>
        rw [hraw] at hstatuses
        cases hstatuses
  | _ => cases h

/-! ## What a name stands for -/

/-- The name stands for the status whose key has the same text: for its last entry, whatever the
types of the name and the keys, as the definition has it. -/
def Refers (entries : List (Datum × Datum)) (d : Definition) (x : Datum) : Prop :=
  ∃ e n, Last entries e ∧ e.1.form = x.form ∧ d.node x.asText = .ok (some n) ∧
    Rule.read (transition e.2) e.1.form = .ok n.rule

/-- The initial status and every listed target stand for the status with the same text, and the
rules have those targets. -/
structure ByText (initial : Datum) (entries : List (Datum × Datum)) (d : Definition) : Prop where
  initial_eq : d.initial = initial.asText
  initial : Refers entries d initial
  targets : ∀ e v items, Last entries e → States e.2 v → Rule.Lists v items →
    (∃ n, d.node e.1.asText = .ok (some n) ∧
      ∀ t, t ∈ n.rule.staticTargets ↔ ∃ item ∈ items, item.form = t) ∧
    ∀ item ∈ items, Refers entries d item

theorem refers_of_declares {given : Bool → Labels} (h : LabelsOver given entries d) {x : Datum}
    (hreadable : ∀ e ∈ entries, Rule.Readable (transition e.2))
    (hwritten : ∀ e ∈ entries, EntryWritten e) (hx : d.declares x.asText = true) :
    Refers entries d x := by
  obtain ⟨e, hlast, htext, -⟩ := exists_entry_of_declares h hx
  refine ⟨e, nodeOf (given false) (given true) e, hlast, (Datum.text.inj htext).symm, ?_, ?_⟩
  · rw [htext]
    exact h.node_of_last hlast
  · exact Rule.read_of_readable (hreadable e hlast.mem) (hwritten e hlast.mem).targets _

theorem byText_of_ofDocument (h : ofDocument document labels actionLabels name = .ok d) :
    ∃ initial entries, Located document initial entries ∧ ByText initial entries d := by
  obtain ⟨initial, entries, -, -, hshaped, hinitial, -⟩ := exists_shaped_of_ofDocument h
  obtain ⟨given, -, hover⟩ := exists_labelsOver h hshaped
  have hreadable : ∀ e ∈ entries, Rule.Readable (transition e.2) :=
    fun e he => hshaped.readable e he _ (states_iff.2 rfl)
  have hwritten : ∀ e ∈ entries, EntryWritten e := ((written_iff hshaped.located).1 hshaped.written).2
  refine ⟨initial, entries, hshaped.located, hinitial, ?_, ?_⟩
  · apply refers_of_declares hover hreadable hwritten
    rw [Datum.asText, ← hinitial]
    exact d.initial_declared
  · intro e v items hlast hstates hlists
    have hnode := hover.node_of_last hlast
    have htargets (t : String) : t ∈ (nodeOf (given false) (given true) e).rule.staticTargets ↔
        ∃ item ∈ items, item.form = t := by
      rw [← Rule.mem_stated_of_lists hlists, ← states_iff.1 hstates]
      rfl
    refine ⟨⟨_, hnode, htargets⟩, fun item hitem => ?_⟩
    apply refers_of_declares hover hreadable hwritten
    exact d.closed.2 _ (hover.mem_of_last hlast) _ ((htargets _).2 ⟨item, hitem, rfl⟩)

theorem accepted_of_ofDocument (h : ofDocument document labels actionLabels name = .ok d) :
    Accepted document := by
  obtain ⟨initial, entries, -, -, hshaped, -⟩ := exists_shaped_of_ofDocument h
  intro initial' entries' hlocated
  obtain ⟨rfl, rfl⟩ := hshaped.located.unique hlocated
  exact ⟨hshaped.truthy, hshaped.readable⟩

theorem written_of_ofDocument (h : ofDocument document labels actionLabels name = .ok d) :
    ∀ x, Identifier document x → x.writable = true := by
  obtain ⟨initial, entries, -, -, hshaped, -⟩ := exists_shaped_of_ofDocument h
  exact hshaped.written

theorem Identifier.exists_located {x : Datum} (h : Identifier document x) :
    ∃ initial entries, Located document initial entries := by
  cases h with
  | initial h => exact ⟨_, _, h⟩
  | key h => exact ⟨_, _, h⟩
  | target h => exact ⟨_, _, h⟩

/-- The normalised document has the texts of the names. Where the names have texts it is read as the
document itself is: the same definition or, for both, a fault of the definition or, where there are
no statuses, the want of a text for the name of the definition. Where one of them has none, that is
what fails. In a definition that was read the names stand for statuses by their texts. -/
theorem identifiers_normalised (haccepted : Accepted document) (hlabels : LabelTable labels)
    (hactions : LabelTable actionLabels) (name : Datum) :
    let read := fun document => ofDocument document labels actionLabels name
    (∀ initial entries, Located document initial entries →
      Located (normalised document) initial.asText (textTable entries).entries) ∧
    ((∀ x, Identifier document x → x.writable = true) →
      (∃ d, read document = .ok d ∧ read (normalised document) = .ok d) ∨
      ((∃ fault, read document = .error (.definition fault)) ∧
        ∃ fault, read (normalised document) = .error (.definition fault)) ∨
      read document = .error (.misuse .tooManyDigits) ∧
        read (normalised document) = .error (.misuse .tooManyDigits) ∧
        (∃ initial, Located document initial []) ∧
        (name.orElse (nameIn document)).writable = false) ∧
    ((∃ x, Identifier document x ∧ x.writable = false) →
      read document = .error (.misuse .tooManyDigits)) ∧
    ∀ d, read document = .ok d →
      ∃ initial entries, Located document initial entries ∧ ByText initial entries d := by
  intro read
  refine ⟨fun initial entries hlocated => ?_, fun hwritten => ?_, ?_,
    fun d hd => byText_of_ofDocument hd⟩
  · exact located_normalised hlocated (ne_null_of_truthy (haccepted _ _ hlocated).1)
  · by_cases hlocated : ∃ initial entries, Located document initial entries
    · obtain ⟨initial, entries, hlocated⟩ := hlocated
      have hsame : read document = read (normalised document) :=
        ofDocument_normalised hlocated haccepted hwritten labels actionLabels name
      rw [← hsame]
      rcases ofDocument_cases hlabels hactions document name with ⟨d, hd⟩ | hrefused
      · exact .inl ⟨d, hd, hd⟩
      rcases hrefused.cases with hfault | ⟨hlong, x, hx, hunwritable⟩
      · exact .inr (.inl ⟨hfault, hfault⟩)
      cases hx with
      | identifier hx =>
        rw [hwritten x hx] at hunwritable
        cases hunwritable
      | name hnone => exact .inr (.inr ⟨hlong, hlong, ⟨_, hnone⟩, hunwritable⟩)
    · refine .inr (.inl ⟨?_, ?_⟩)
      · rcases located_or_fault document labels actionLabels name with ⟨i, es, h, -⟩ | hfault
        · exact absurd ⟨i, es, h⟩ hlocated
        · exact hfault
      · rcases located_or_fault (normalised document) labels actionLabels name with
          ⟨i, es, h, -⟩ | hfault
        · exact absurd (exists_located_of_normalised h) hlocated
        · exact hfault
  · rintro ⟨x, hx, hunwritable⟩
    obtain ⟨initial, entries, hlocated⟩ := hx.exists_located
    obtain ⟨htruthy, hreadable⟩ := haccepted _ _ hlocated
    obtain ⟨L, hL⟩ := hlabels.exists_given
    obtain ⟨A, hA⟩ := hactions.exists_given
    exact ofDocument_of_unwritable hlocated htruthy
      (fun e he => hreadable e he _ (states_iff.2 rfl)) ⟨x, hx, hunwritable⟩ hL hA name

/-- Names of several types, two of them with one text. -/
def mixedNames : Datum :=
  .map [(.text "initial_status", .int 7), (.text "statuses", .map [
    (.text "7", .tuple [.null, .bool true]), (.null, .set [.text "lost"]),
    (.bool true, .map [(.text "transitions", .list [.text "None", .int 7])]),
    (.text "None", .frozenset [.bool true, .text "True"])])]

theorem mixedNames_normalised :
    ∃ d, ofDocument mixedNames .null .null (.text "orders") = .ok d ∧
      ofDocument (normalised mixedNames) .null .null (.text "orders") = .ok d ∧
      d.statusIds = [.text "7", .text "None", .text "True"] ∧
      ∃ initial entries, Located mixedNames initial entries ∧ ByText initial entries d := by
  obtain ⟨d, hd, hids⟩ : ∃ d, ofDocument mixedNames .null .null (.text "orders") = .ok d ∧
      d.statusIds = [.text "7", .text "None", .text "True"] := ⟨_, rfl, rfl⟩
  obtain ⟨-, hboth, -, hbyText⟩ :=
    identifiers_normalised (accepted_of_ofDocument hd) .null .null (.text "orders")
  have hsame : ofDocument (normalised mixedNames) .null .null (.text "orders") = .ok d := by
    rcases hboth (written_of_ofDocument hd) with
      ⟨d', hd', hnormalised⟩ | ⟨⟨fault, hfault⟩, -⟩ | ⟨hlong, -⟩
    · cases hd.symm.trans hd'
      exact hnormalised
    · cases hd.symm.trans hfault
    · cases hd.symm.trans hlong
  exact ⟨d, hd, hsame, hids, hbyText d hd⟩

/-- A document and its normalised form can be neither read alike nor both at fault as
definitions. -/
theorem exists_normalised_unread : ∃ document, Accepted document ∧
    let read := fun document => ofDocument document (.map []) (.map []) .null
    ¬ ((∃ d, read document = .ok d ∧ read (normalised document) = .ok d) ∨
      (∃ fault, read document = .error (.definition fault)) ∧
        ∃ fault, read (normalised document) = .error (.definition fault)) := by
  have hlocated := located_longDocument longStatuses
  refine ⟨longDocument "initial_status" longStatuses, ?_, ?_⟩
  · intro initial entries h
    obtain ⟨rfl, rfl⟩ := hlocated.unique h
    exact ⟨rfl, fun e he v hv => states_iff.1 hv ▸ readable_longStatuses e he⟩
  · dsimp only
    rw [unread_of_longStatuses hlocated (.refl _)]
    rintro (⟨d, hd, -⟩ | ⟨⟨fault, hfault⟩, -⟩)
    · cases hd
    · cases hfault

end Definition

end Lifecycle
