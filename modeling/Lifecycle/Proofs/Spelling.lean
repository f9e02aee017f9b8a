import Lifecycle.Proofs.Reading
import Mathlib.Data.List.Find
import Mathlib.Logic.Relation

/-!
# Ways to spell a document

A document can be spelled in several ways: some fields have two names, the value of a status may be
its transition alone or nothing at all, and targets may be listed in collections of any shape. Each
step from one way to another is written down here (`Definition.Respelled`,
`Definition.ValueRespelled`). No step changes what is read, and so any number of steps does not
(`Definition.spelling_immaterial`).
-/

namespace Lifecycle

namespace Rule

/-- Two collections, perhaps of different shapes, whose members have the same texts; if one has a
member without a text, so has the other. -/
inductive SameTargets : Datum → Datum → Prop
  | intro {v v' : Datum} {items items' : List Datum} (h : Lists v items) (h' : Lists v' items')
      (htexts : ∀ text, text ∈ items.map Datum.shown ↔ text ∈ items'.map Datum.shown) :
      SameTargets v v'

theorem mem_map_shown_iff {items : List Datum} (h : items.all Datum.writable = true) {t : String} :
    .ok t ∈ items.map Datum.shown ↔ t ∈ items.map Datum.form := by
  rw [List.mem_map, List.mem_map]
  refine exists_congr fun item => and_congr_right fun hitem => ?_
  rw [Datum.shown_eq_ok_iff, List.all_eq_true.1 h item hitem, eq_self, true_and]

theorem all_writable_iff {items : List Datum} :
    items.all Datum.writable = true ↔ .error (.misuse .tooManyDigits) ∉ items.map Datum.shown := by
  rw [List.all_eq_true, List.mem_map, not_exists]
  refine forall_congr' fun item => ?_
  rw [not_and]
  refine imp_congr_right fun _ => ?_
  cases h : item.writable with
  | false => simp [Datum.shown_of_unwritable h]
  | true => simp [Datum.shown_of_writable h]

theorem SameTargets.read {v v' : Datum} (h : SameTargets v v') (id : String) :
    Rule.read v id = Rule.read v' id := by
  obtain ⟨h, h', htexts⟩ := h
  rename_i items items'
  rw [read_of_lists h, read_of_lists h', Datum.mapM_shown, Datum.mapM_shown]
  have hall : items.all Datum.writable = true ↔ items'.all Datum.writable = true := by
    rw [all_writable_iff, all_writable_iff, htexts]
  by_cases hitems : items.all Datum.writable = true
  · have htargets : Targets.ofList (items.map Datum.form) = .ofList (items'.map Datum.form) := by
      apply Targets.eq_of_mem_iff
      intro t
      rw [Targets.mem_ofList, Targets.mem_ofList, ← mem_map_shown_iff hitems, htexts,
        mem_map_shown_iff (hall.1 hitems)]
    rw [if_pos hitems, if_pos (hall.1 hitems)]
    exact congrArg (fun targets => Except.ok (static targets)) htargets
  · rw [if_neg hitems, if_neg (mt hall.2 hitems)]

theorem SameTargets.plain {v v' : Datum} (h : SameTargets v v') : ∀ fields, v ≠ .map fields := by
  obtain ⟨h, -, -⟩ := h
  cases h <;> exact nofun

theorem SameTargets.symm {v v' : Datum} (h : SameTargets v v') : SameTargets v' v := by
  obtain ⟨h, h', htexts⟩ := h
  exact .intro h' h fun t => (htexts t).symm

end Rule

namespace Definition

variable {fields : List (Datum × Datum)} {old new : String}

/-! ## A field under another name -/

def renameKey (old new : String) (key : Datum) : Datum :=
  if key == .text old then .text new else key

/-- The fields with another name for one of them. -/
def renameField (old new : String) (fields : List (Datum × Datum)) : List (Datum × Datum) :=
  fields.map fun e => (renameKey old new e.1, e.2)

theorem renameKey_beq_text (old new : String) (key : Datum) (k : String) :
    (renameKey old new key == .text k) =
      if key == .text old then new == k else key == .text k := by
  unfold renameKey
  split
  · exact Datum.beq_text new k
  · rfl

/-- After the renaming a field is looked up by the entries that have its name then. -/
theorem get?_renameField (k : String) :
    (Table.ofList (renameField old new fields)).get? (.text k) =
      (fields.reverse.find? fun e =>
        if e.1 == .text old then new == k else e.1 == .text k).map Prod.snd := by
  rw [Table.get?_ofList (Table.exact_text k), renameField, ← List.map_reverse, List.find?_map,
    Option.map_map]
  simp only [Function.comp_def, renameKey_beq_text]

theorem get?_renameField_old (hne : old ≠ new) :
    (Table.ofList (renameField old new fields)).get? (.text old) = none := by
  rw [get?_renameField, Option.map_eq_none_iff, List.find?_eq_none]
  intro e _
  by_cases he : (e.1 == .text old) = true
  · rw [if_pos he]
    simpa using hne.symm
  · rwa [if_neg he]

theorem get?_renameField_new (habsent : (Table.ofList fields).get? (.text new) = none) :
    (Table.ofList (renameField old new fields)).get? (.text new) =
      (Table.ofList fields).get? (.text old) := by
  rw [Table.get?_ofList (Table.exact_text new), Option.map_eq_none_iff,
    List.find?_eq_none] at habsent
  rw [get?_renameField, Table.get?_ofList (Table.exact_text old)]
  congr 1
  apply List.find?_congr
  intro e he
  by_cases hold : (e.1 == .text old) = true
  · rw [if_pos hold, hold, beq_self_eq_true]
  · rw [if_neg hold, Bool.eq_false_iff.2 hold, Bool.eq_false_iff.2 (habsent e he)]

theorem get?_renameField_of_ne {k : String} (hold : k ≠ old) (hnew : k ≠ new) :
    (Table.ofList (renameField old new fields)).get? (.text k) =
      (Table.ofList fields).get? (.text k) := by
  rw [get?_renameField, Table.get?_ofList (Table.exact_text k)]
  congr 1
  apply List.find?_congr
  intro e _
  by_cases he : (e.1 == .text old) = true
  · rw [if_pos he, Datum.beq_text_iff.1 he, Datum.beq_text, beq_false_of_ne hold.symm,
      beq_false_of_ne hnew.symm]
  · rw [if_neg he]

/-- Under its second name a field has the value that it had under the first. -/
theorem field_renameField (hne : old ≠ new)
    (habsent : (Table.ofList fields).get? (.text new) = none) :
    field (.ofList (renameField old new fields)) old new = field (.ofList fields) old new := by
  unfold field
  rw [get?_renameField_old hne, get?_renameField_new habsent, habsent]
  cases (Table.ofList fields).get? (.text old) <;> rfl

theorem field_renameField_of_ne {name other : String} (h : name ≠ old ∧ name ≠ new)
    (h' : other ≠ old ∧ other ≠ new) :
    field (.ofList (renameField old new fields)) name other = field (.ofList fields) name other :=
  field_congr (get?_renameField_of_ne h.1 h.2) (get?_renameField_of_ne h'.1 h'.2)

/-! ## A field with another value -/

section Exchange

variable {before after : List (Datum × Datum)} {name k : String} {v v' : Datum}

/-- A field with another value, in its place. -/
def exchange (before after : List (Datum × Datum)) (name : String) (v : Datum) :
    List (Datum × Datum) :=
  before ++ (.text name, v) :: after

theorem get?_exchange_of_ne (hne : k ≠ name) :
    (Table.ofList (exchange before after name v)).get? (.text k) =
      (Table.ofList (before ++ after)).get? (.text k) := by
  have hother : (Datum.text name == .text k) = false := by
    rw [Datum.beq_text]
    exact beq_false_of_ne hne.symm
  rw [Table.get?_ofList (Table.exact_text k), Table.get?_ofList (Table.exact_text k)]
  unfold exchange
  rw [List.reverse_append, List.reverse_append, List.reverse_cons, List.append_assoc,
    List.singleton_append, List.find?_append, List.find?_append, List.find?_cons, hother]

/-- The field itself has either value, unless a later entry of its name takes it away. -/
theorem get?_exchange (before after : List (Datum × Datum)) (name : String) :
    (∃ w, ∀ v, (Table.ofList (exchange before after name v)).get? (.text name) = some w) ∨
      ∀ v, (Table.ofList (exchange before after name v)).get? (.text name) = some v := by
  have hself : (Datum.text name == .text name) = true := Datum.text_beq_iff.2 rfl
  have hget (v : Datum) : (Table.ofList (exchange before after name v)).get? (.text name) =
      ((after.reverse.find? fun e => e.1 == .text name).map Prod.snd).or (some v) := by
    rw [Table.get?_ofList (Table.exact_text name)]
    unfold exchange
    rw [List.reverse_append, List.reverse_cons, List.append_assoc, List.singleton_append,
      List.find?_append, List.find?_cons, hself, Option.map_or, Option.map_some]
  cases hlater : (after.reverse.find? fun e => e.1 == .text name).map Prod.snd with
  | none =>
    refine .inr fun v => ?_
    rw [hget, hlater, Option.none_or]
  | some w =>
    refine .inl ⟨w, fun v => ?_⟩
    rw [hget, hlater, Option.some_or]

/-- A field that may be spelled in two ways has the value that stands under one spelling, or one
that does not depend on it. -/
theorem field_exchange {first second : String} (hne : first ≠ second)
    (hname : name = first ∨ name = second) (before after : List (Datum × Datum)) :
    (∃ w, ∀ v, field (.ofList (exchange before after name v)) first second = w) ∨
      ∀ v, field (.ofList (exchange before after name v)) first second = v := by
  unfold field
  rcases hname with rfl | rfl
  · rcases get?_exchange before after name with ⟨w, hw⟩ | hv
    · refine .inl ⟨w, fun v => ?_⟩
      rw [hw]
    · refine .inr fun v => ?_
      rw [hv]
  · simp only [get?_exchange_of_ne hne]
    cases (Table.ofList (before ++ after)).get? (.text first) with
    | some w => exact .inl ⟨w, fun _ => rfl⟩
    | none =>
      rcases get?_exchange before after name with ⟨w, hw⟩ | hv
      · refine .inl ⟨w, fun v => ?_⟩
        simp only [hw, Option.getD_some]
      · refine .inr fun v => ?_
        simp only [hv, Option.getD_some]

theorem field_exchange_of_ne {first second : String} (before after : List (Datum × Datum))
    (v v' : Datum) (hfirst : first ≠ name) (hsecond : second ≠ name) :
    field (.ofList (exchange before after name v)) first second =
      field (.ofList (exchange before after name v')) first second := by
  apply field_congr
  · rw [get?_exchange_of_ne hfirst, get?_exchange_of_ne hfirst]
  · rw [get?_exchange_of_ne hsecond, get?_exchange_of_ne hsecond]

end Exchange

/-! ## Steps -/

/-- One step from one spelling of the value of a status to another: the other name of its field, a
map for the shorthand or for nothing, or another collection of the same texts. -/
inductive ValueRespelled : Datum → Datum → Prop
  | fieldAlias {fields : List (Datum × Datum)}
      (habsent : (Table.ofList fields).get? (.text "transition") = none) :
      ValueRespelled (.map fields) (.map (renameField "transitions" "transition" fields))
  | longhand {v : Datum} (hnull : v ≠ .null) (hplain : ∀ fields, v ≠ .map fields) :
      ValueRespelled v (.map [(.text "transitions", v)])
  | nothing : ValueRespelled .null (.map [])
  | shape {v v' : Datum} (h : Rule.SameTargets v v') : ValueRespelled v v'
  | fieldShape (before after : List (Datum × Datum)) {name : String} {v v' : Datum}
      (hname : name = "transitions" ∨ name = "transition") (h : Rule.SameTargets v v') :
      ValueRespelled (.map (exchange before after name v)) (.map (exchange before after name v'))

/-- One step from one spelling of a document to another: the other name of a field, or one step in
the value of one status. -/
inductive Respelled : Datum → Datum → Prop
  | initialAlias {fields : List (Datum × Datum)}
      (habsent : (Table.ofList fields).get? (.text "initialStatus") = none) :
      Respelled (.map fields) (.map (renameField "initial_status" "initialStatus" fields))
  | statusesAlias {fields : List (Datum × Datum)}
      (habsent : (Table.ofList fields).get? (.text "status") = none) :
      Respelled (.map fields) (.map (renameField "statuses" "status" fields))
  | value (before after earlier later : List (Datum × Datum)) {name : String} {key v v' : Datum}
      (hname : name = "statuses" ∨ name = "status") (h : ValueRespelled v v') :
      Respelled (.map (exchange before after name (.map (earlier ++ (key, v) :: later))))
        (.map (exchange before after name (.map (earlier ++ (key, v') :: later))))

theorem carried_congr {fields fields' : List (Datum × Datum)} {action : Bool}
    (h : (Table.ofList fields).get? (.text (labelField action)) =
      (Table.ofList fields').get? (.text (labelField action))) :
    carried action (.map fields) = carried action (.map fields') := by
  rw [carried_map, carried_map, h]

theorem transition_map (fields : List (Datum × Datum)) :
    transition (.map fields) = field (.ofList fields) "transitions" "transition" := rfl

theorem labelField_ne (action : Bool) :
    labelField action ≠ "transitions" ∧ labelField action ≠ "transition" := by
  cases action <;> decide

/-- No step changes what is read from the value of a status. -/
theorem ValueRespelled.readAlike {v v' : Datum} (h : ValueRespelled v v') : ReadAlike v v' := by
  cases h with
  | fieldAlias habsent =>
    refine ⟨fun id => ?_, fun action => carried_congr ?_⟩
    · rw [transition_map, transition_map, field_renameField (by decide) habsent]
    · have hne := labelField_ne action
      rw [get?_renameField_of_ne hne.1 hne.2]
  | longhand hnull hplain =>
    refine ⟨fun id => ?_, fun action => ?_⟩
    · rw [transition_of_plain hplain]
      rfl
    · rw [carried_of_plain hplain]
      cases action <;> rfl
  | nothing => exact ⟨fun _ => rfl, fun action => by cases action <;> rfl⟩
  | shape h =>
    refine ⟨fun id => ?_, fun action => ?_⟩
    · rw [transition_of_plain h.plain, transition_of_plain h.symm.plain, h.read]
    · rw [carried_of_plain h.plain, carried_of_plain h.symm.plain]
  | @fieldShape before after name _ _ hname h =>
    refine ⟨fun id => ?_, fun action => carried_congr ?_⟩
    · rw [transition_map, transition_map]
      rcases field_exchange (by decide) hname _ _ with ⟨w, hw⟩ | hv
      · rw [hw, hw]
      · rw [hv, hv, h.read]
    · have hne : labelField action ≠ name := by
        rcases hname with rfl | rfl
        · exact (labelField_ne action).1
        · exact (labelField_ne action).2
      rw [get?_exchange_of_ne hne, get?_exchange_of_ne hne]

theorem statusesRead_exchange {L A : Labels} {earlier later : List (Datum × Datum)}
    {key v v' : Datum} (h : ReadAlike v v') :
    statusesRead L A (.map (earlier ++ (key, v) :: later)) =
      statusesRead L A (.map (earlier ++ (key, v') :: later)) := by
  have hsame (es : List (Datum × Datum)) : Table.EntriesAlike (fun _ => ReadAlike) es es :=
    List.forall₂_same.2 fun e _ => ⟨rfl, .refl e.2⟩
  have halike : Table.EntriesAlike (fun _ => ReadAlike) (earlier ++ (key, v) :: later)
      (earlier ++ (key, v') :: later) :=
    List.rel_append (hsame earlier) (.cons ⟨rfl, h⟩ (hsame later))
  have htables := Table.entriesAlike_ofList (fun _ h => h) halike
  exact congrArg some (readStatuses_congr htables)

/-- No step changes what is read from a document. -/
theorem ofDocument_of_respelled {document document' : Datum} (h : Respelled document document')
    (labels actionLabels name : Datum) :
    ofDocument document labels actionLabels name = ofDocument document' labels actionLabels name := by
  cases h with
  | @initialAlias fields habsent =>
    have hstatuses : field (.ofList (renameField "initial_status" "initialStatus" fields))
        "statuses" "status" = field (.ofList fields) "statuses" "status" :=
      field_renameField_of_ne (by decide) (by decide)
    apply ofDocument_congr_of_initial
    · exact (field_renameField (by decide) habsent).symm
    · intro L A
      rw [hstatuses]
    · exact (get?_renameField_of_ne (by decide) (by decide)).symm
  | @statusesAlias fields habsent =>
    apply ofDocument_congr_of_initial
    · exact (field_renameField_of_ne (by decide) (by decide)).symm
    · intro L A
      rw [field_renameField (by decide) habsent]
    · exact (get?_renameField_of_ne (by decide) (by decide)).symm
  | @value before after earlier later spelling key v v' hname h =>
    have hne (k : String) (hk : k ≠ "statuses" ∧ k ≠ "status") : k ≠ spelling := by
      rcases hname with rfl | rfl
      · exact hk.1
      · exact hk.2
    apply ofDocument_congr_of_initial
    · exact field_exchange_of_ne before after _ _ (hne "initial_status" (by decide))
        (hne "initialStatus" (by decide))
    · intro L A
      rcases field_exchange (by decide) hname before after with ⟨w, hw⟩ | hv
      · rw [hw, hw]
      · rw [hv, hv, statusesRead_exchange h.readAlike]
    · rw [get?_exchange_of_ne (hne "name" (by decide)), get?_exchange_of_ne (hne "name" (by decide))]

/-- Any number of steps leaves what is read from a document the same: one definition, one fault of
the definition, or the want of a text. -/
theorem spelling_immaterial {document document' : Datum}
    (h : Relation.ReflTransGen Respelled document document') (labels actionLabels name : Datum) :
    let read := fun document => ofDocument document labels actionLabels name
    read document = read document' ∧ (LabelTable labels → LabelTable actionLabels →
      (∃ d, read document = .ok d ∧ read document' = .ok d) ∨
      (∃ fault, read document = .error (.definition fault) ∧
        read document' = .error (.definition fault)) ∨
      read document = .error (.misuse .tooManyDigits) ∧
        read document' = .error (.misuse .tooManyDigits) ∧
        ∃ x, Named document name x ∧ x.writable = false) := by
  intro read
  have hsame : read document = read document' := by
    induction h with
    | refl => rfl
    | tail _ hstep ih => exact ih.trans (ofDocument_of_respelled hstep labels actionLabels name)
  refine ⟨hsame, fun hlabels hactions => ?_⟩
  rcases ofDocument_cases hlabels hactions document name with ⟨d, hd⟩ | hrefused
  · exact .inl ⟨d, hd, hsame.symm.trans hd⟩
  · rcases hrefused.cases with ⟨fault, hfault⟩ | ⟨hlong, hx⟩
    · exact .inr (.inl ⟨fault, hfault, hsame.symm.trans hfault⟩)
    · exact .inr (.inr ⟨hlong, hsame.symm.trans hlong, hx⟩)

/-- A document with three statuses, in which the names of two fields and three transitions are left
open. -/
def spelled (initial statuses : String) (draft one paid : Datum) : Datum :=
  .map [(.text initial, .text "draft"), (.text statuses, .map [
    (.text "draft", draft), (.int 1, one),
    (.text "paid", .map [(.text "label", .text "Paid"), (.text "transitions", paid)])])]

/-- From a document in shorthand to one with other names, other collections and no shorthand. -/
theorem spelled_immaterial :
    let short := spelled "initial_status" "statuses" (.list [.int 1, .text "paid"]) .null
      (.tuple [.int 1])
    let long := spelled "initialStatus" "status"
      (.map [(.text "transition", .set [.text "paid", .text "1"])]) (.map []) (.frozenset [.text "1"])
    Relation.ReflTransGen Respelled short long ∧
      ∃ d, ofDocument short .null .null (.text "orders") = .ok d ∧
        ofDocument long .null .null (.text "orders") = .ok d := by
  intro short long
  have hone : (Datum.int 1).shown = .ok "1" := rfl
  have draft (v v' : Datum) (h : ValueRespelled v v') (one paid : Datum) :
      Respelled (spelled "initialStatus" "statuses" v one paid)
        (spelled "initialStatus" "statuses" v' one paid) := .value [_] [] [] [_, _] (.inl rfl) h
  have one (draft v v' : Datum) (h : ValueRespelled v v') (paid : Datum) :
      Respelled (spelled "initialStatus" "statuses" draft v paid)
        (spelled "initialStatus" "statuses" draft v' paid) := .value [_] [] [_] [_] (.inl rfl) h
  have paid (draft one v v' : Datum) (h : Rule.SameTargets v v') :
      Respelled (spelled "initialStatus" "statuses" draft one v)
        (spelled "initialStatus" "statuses" draft one v') :=
    .value [_] [] [_, _] [] (.inl rfl) (.fieldShape [_] [] (.inl rfl) h)
  have hsteps : Relation.ReflTransGen Respelled short long := by
    let listed := Datum.list [.int 1, .text "paid"]
    let texts := Datum.set [.text "paid", .text "1"]
    have hshape : Rule.SameTargets listed texts :=
      .intro (.list _) (.set _) (by simp [hone, or_comm])
    have hsingle : Rule.SameTargets (.tuple [.int 1]) (.frozenset [.text "1"]) :=
      .intro (.tuple _) (.frozenset _) (by simp [hone])
    apply Relation.ReflTransGen.head (.initialAlias rfl)
    apply Relation.ReflTransGen.head (draft listed texts (.shape hshape) _ _)
    apply Relation.ReflTransGen.head (draft texts _ (.longhand nofun nofun) _ _)
    apply Relation.ReflTransGen.head (draft (.map [(.text "transitions", texts)])
      (.map [(.text "transition", texts)]) (.fieldAlias rfl) _ _)
    apply Relation.ReflTransGen.head (one _ _ _ .nothing _)
    apply Relation.ReflTransGen.head (paid _ _ _ _ hsingle)
    exact .single (.statusesAlias rfl)
  refine ⟨hsteps, ?_⟩
  obtain ⟨d, hd⟩ : ∃ d, ofDocument short .null .null (.text "orders") = .ok d := ⟨_, rfl⟩
  obtain ⟨hsame, -⟩ := spelling_immaterial hsteps .null .null (.text "orders")
  exact ⟨d, hd, hsame.symm.trans hd⟩

/-- Two spellings of one document can be neither read alike nor both at fault as definitions. -/
theorem exists_respelled_unread : ∃ document document', Respelled document document' ∧
    let read := fun document => ofDocument document (.map []) (.map []) .null
    ¬ ((∃ d, read document = .ok d ∧ read document' = .ok d) ∨
      (∃ fault, read document = .error (.definition fault)) ∧
        ∃ fault, read document' = .error (.definition fault)) := by
  refine ⟨longDocument "initial_status" longStatuses, longDocument "initialStatus" longStatuses,
    .initialAlias rfl, ?_⟩
  dsimp only
  rw [unread_of_longStatuses (located_longDocument _) (.refl _)]
  rintro (⟨d, hd, -⟩ | ⟨⟨fault, hfault⟩, -⟩)
  · cases hd
  · cases hfault

end Definition

end Lifecycle
