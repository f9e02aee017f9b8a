import Lifecycle.Proofs.Labels

/-!
# What reading takes from a document

Of the fields of a document only three values count: the initial status, the statuses and the name
(`Definition.ofDocument_congr`). Of the value of a status only its transition and its two labels
count (`Definition.ReadAlike`). So two documents are read alike if these are alike, whatever else
tells them apart.
-/

namespace Lifecycle

namespace Definition

/-! ## Looking up fields -/

variable {fields fields' : List (Datum × Datum)} {name other : String}

theorem field_congr {t t' : Table Datum Datum} (h : t.get? (.text name) = t'.get? (.text name))
    (h' : t.get? (.text other) = t'.get? (.text other)) :
    field t name other = field t' name other := by
  unfold field
  rw [h, h']

/-- The spelling that counts where a field may be spelled in two ways. -/
def counted (fields : List (Datum × Datum)) (name other : String) : String :=
  if (Table.ofList fields).contains (.text name) then name else other

/-- The fields after the value that counts under two spellings is replaced. -/
def amendField (f : Datum → Datum) (name other : String) (fields : List (Datum × Datum)) :
    List (Datum × Datum) :=
  fields.map fun e => (e.1, if e.1 == .text (counted fields name other) then f e.2 else e.2)

theorem get?_amendField (f : Datum → Datum) (k : String) :
    (Table.ofList (amendField f name other fields)).get? (.text k) =
      ((Table.ofList fields).get? (.text k)).map
        fun v => if k = counted fields name other then f v else v := by
  unfold amendField
  rw [Table.get?_ofList_map_values (Table.exact_text k) fields fun key v =>
    if key == .text (counted fields name other) then f v else v]
  simp only [Datum.beq_text, beq_iff_eq]

theorem counted_mem (fields : List (Datum × Datum)) (name other : String) :
    counted fields name other = name ∨ counted fields name other = other := by
  unfold counted
  split
  · exact .inl rfl
  · exact .inr rfl

theorem get?_amendField_of_ne (f : Datum → Datum) {k : String} (hname : k ≠ name)
    (hother : k ≠ other) : (Table.ofList (amendField f name other fields)).get? (.text k) =
      (Table.ofList fields).get? (.text k) := by
  have hk : k ≠ counted fields name other := by
    rcases counted_mem fields name other with h | h
    · rwa [h]
    · rwa [h]
  rw [get?_amendField]
  simp only [if_neg hk, Option.map_id']

/-- The value that counts is replaced, if there is one. -/
theorem field_amendField (f : Datum → Datum) {v : Datum}
    (h : Under (.ofList fields) name other v) (hnull : v ≠ .null ∨ f .null = .null) :
    field (.ofList (amendField f name other fields)) name other = f v := by
  unfold field
  cases h with
  | first h =>
    have hcounted : counted fields name other = name := by
      unfold counted
      rw [← Table.isSome_get?, h, Option.isSome_some, if_pos rfl]
    rw [get?_amendField, h, hcounted, Option.map_some, if_pos rfl]
  | second hfirst h =>
    have hcounted : counted fields name other = other := by
      unfold counted
      rw [← Table.isSome_get?, hfirst, Option.isSome_none, if_neg (by simp)]
    rw [get?_amendField, get?_amendField, hfirst, h, hcounted, Option.map_none, Option.map_some,
      if_pos rfl]
    rfl
  | neither hfirst h =>
    rw [get?_amendField, get?_amendField, hfirst, h]
    exact (hnull.resolve_left (absurd rfl)).symm

theorem field_amendField_of_ne (f : Datum → Datum) {first second : String}
    (hfirst : first ≠ name ∧ first ≠ other) (hsecond : second ≠ name ∧ second ≠ other) :
    field (.ofList (amendField f name other fields)) first second =
      field (.ofList fields) first second :=
  field_congr (get?_amendField_of_ne f hfirst.1 hfirst.2)
    (get?_amendField_of_ne f hsecond.1 hsecond.2)

/-! ## Values of a status -/

/-- Two values of a status from which the same rule, or the same fault, and the same labels are
read. -/
structure ReadAlike (value value' : Datum) : Prop where
  rule : ∀ id, Rule.read (transition value) id = Rule.read (transition value') id
  label : ∀ action, carried action value = carried action value'

theorem ReadAlike.refl (value : Datum) : ReadAlike value value := ⟨fun _ => rfl, fun _ => rfl⟩

variable {L A : Labels} {entries entries' : List (Datum × Datum)}

/-- The value of a status counts by its transition and its labels. -/
theorem readNode_eq (L A : Labels) (id : String) (value : Datum) :
    readNode L A id value = (Rule.read (transition value) id).map fun rule =>
      { rule
        label := (L.get? (.text id)).getD (carried false value)
        actionLabel := (A.get? (.text id)).getD (carried true value) } := by
  unfold readNode
  dsimp only
  rw [labelFrom_eq L, labelFrom_eq A]
  unfold transition
  cases Rule.read (field (statusFields value) "transitions" "transition") id <;> rfl

theorem ReadAlike.readEntry {key value value' : Datum} (h : ReadAlike value value') :
    readEntry L A (key, value) = readEntry L A (key, value') := by
  unfold Definition.readEntry
  simp only [readNode_eq, h.rule, h.label]

theorem readStatuses_congr (h : Table.EntriesAlike (fun _ => ReadAlike) entries entries') :
    readStatuses L A entries = readStatuses L A entries' := by
  have hmapM : entries.mapM (readEntry L A) = entries'.mapM (readEntry L A) := by
    induction h with
    | nil => rfl
    | @cons e e' es es' he _ ih =>
      obtain ⟨hkey, hvalue⟩ := he
      have hentry : readEntry L A e = readEntry L A e' := by
        change readEntry L A (e.1, e.2) = _
        rw [hvalue.readEntry, hkey]
      rw [List.mapM_cons, List.mapM_cons, hentry, ih]
  rw [readStatuses_eq, readStatuses_eq, hmapM]

/-! ## Documents -/

/-- What is read from the value of the statuses, if that is a map. -/
def statusesRead (L A : Labels) (statuses : Datum) : Option (Except Failure Statuses) :=
  statuses.table?.map fun raw => readStatuses L A raw.entries

/-- Documents with alike initial statuses, alike statuses and one name are read alike. -/
theorem ofDocument_congr
    (htruthy : (field (.ofList fields) "initial_status" "initialStatus").truthy =
      (field (.ofList fields') "initial_status" "initialStatus").truthy)
    (hshown : (field (.ofList fields) "initial_status" "initialStatus").shown =
      (field (.ofList fields') "initial_status" "initialStatus").shown)
    (hstatuses : ∀ L A, statusesRead L A (field (.ofList fields) "statuses" "status") =
      statusesRead L A (field (.ofList fields') "statuses" "status"))
    (hname : (Table.ofList fields).get? (.text "name") = (Table.ofList fields').get? (.text "name"))
    (labels actionLabels name : Datum) :
    ofDocument (.map fields) labels actionLabels name =
      ofDocument (.map fields') labels actionLabels name := by
  have htable (es : List (Datum × Datum)) : (Datum.map es).table? = some (.ofList es) := rfl
  unfold ofDocument
  simp only [htable fields, htable fields', htruthy, hshown, hname]
  split
  · rfl
  · unfold statusesRead at hstatuses
    cases hraw : (field (.ofList fields) "statuses" "status").table? with
    | none =>
      simp only [hraw, Option.map_none] at hstatuses
      rw [Option.map_eq_none_iff.1 (hstatuses .empty .empty).symm]
    | some raw =>
      simp only [hraw, Option.map_some] at hstatuses
      obtain ⟨raw', hraw', -⟩ := Option.map_eq_some_iff.1 (hstatuses .empty .empty).symm
      simp only [hraw', Option.map_some, Option.some.injEq] at hstatuses
      rw [hraw']
      simp only [hstatuses]

/-- Documents with one initial status, alike statuses and one name are read alike. -/
theorem ofDocument_congr_of_initial
    (hinitial : field (.ofList fields) "initial_status" "initialStatus" =
      field (.ofList fields') "initial_status" "initialStatus")
    (hstatuses : ∀ L A, statusesRead L A (field (.ofList fields) "statuses" "status") =
      statusesRead L A (field (.ofList fields') "statuses" "status"))
    (hname : (Table.ofList fields).get? (.text "name") = (Table.ofList fields').get? (.text "name"))
    (labels actionLabels name : Datum) :
    ofDocument (.map fields) labels actionLabels name =
      ofDocument (.map fields') labels actionLabels name :=
  ofDocument_congr (by rw [hinitial]) (by rw [hinitial]) hstatuses hname labels actionLabels name

/-- The name is the given one or else that of the document. -/
theorem name_of_ofDocument {document labels actionLabels name : Datum} {d : Definition}
    (h : ofDocument document labels actionLabels name = .ok d) :
    d.name = name.orElse (nameIn document) := by
  obtain ⟨L, A, hL, hA⟩ := exists_given_of_ofDocument h
  obtain ⟨initial, entries, -, -, hshaped, -⟩ := exists_shaped_of_ofDocument h
  obtain ⟨hi, hread⟩ := ofDocument_of_shaped hshaped hL hA name
  rw [h] at hread
  split at hread
  · cases hread
    rfl
  · cases hread

end Definition

end Lifecycle
