import Lifecycle.Proofs.Provider

/-!
# Labels of a definition that was read

There are two vocabularies: the labels of statuses and those of the actions that lead there. Either
is read from its own table and its own field in the values of the statuses. Which label a value
carries is stated here by a rule of its own (`Definition.Carries`); a status is called what the
table says and else what its last entry carries (`Definition.Resolved`), and nothing that is said of
one vocabulary counts for the other (`Definition.labels_resolved`).
-/

namespace Lifecycle

/-! ## Tables put over tables -/

namespace Table

variable {κ ν μ : Type} [BEq κ]

theorem putEntry_map (f : ν → μ) (k : κ) (v : ν) (es : List (κ × ν)) :
    putEntry k (f v) (es.map (Prod.map id f)) = (putEntry k v es).map (Prod.map id f) := by
  induction es with
  | nil => rfl
  | cons e es ih =>
    rw [List.map_cons]
    unfold putEntry
    rw [ih, apply_ite (List.map _)]
    rfl

/-- Values may be replaced before or after a table is filled. -/
theorem entries_ofList_map (f : ν → μ) (es : List (κ × ν)) :
    (ofList (es.map (Prod.map id f))).entries = (ofList es).entries.map (Prod.map id f) := by
  induction es using List.reverseRecOn with
  | nil => rfl
  | append_singleton es e ih =>
    rw [List.map_append, ofList, ofList, putAll_append, putAll_append]
    change putEntry e.1 (f e.2) (ofList (es.map (Prod.map id f))).entries = _
    rw [ih, putEntry_map]
    rfl

theorem contains_put {t : Table κ ν} {k k' : κ} (h : Exact k ∨ Exact k') (v : ν) :
    (t.put k v).contains k' = (k == k' || t.contains k') := by
  rw [← isSome_get?, ← isSome_get?, get?_put h]
  cases k == k' <;> rfl

/-- The keys of a table with others put over it: its own, and then those that it does not have. -/
theorem keys_putAll {t : Table κ ν} {es : List (κ × ν)} (hexact : ∀ e ∈ es, Exact e.1)
    (hdistinct : es.Pairwise fun a b => (a.1 == b.1) = false) :
    (t.putAll es).keys = t.keys ++ (es.map Prod.fst).filter fun k => !t.contains k := by
  induction es generalizing t with
  | nil => exact (List.append_nil _).symm
  | cons e es ih =>
    obtain ⟨he, hexact⟩ := List.forall_mem_cons.1 hexact
    obtain ⟨hne, hdistinct⟩ := List.pairwise_cons.1 hdistinct
    have hrest : ((es.map Prod.fst).filter fun k => !(t.put e.1 e.2).contains k) =
        (es.map Prod.fst).filter fun k => !t.contains k := by
      refine List.filter_congr fun k hk => ?_
      obtain ⟨e', he', rfl⟩ := List.mem_map.1 hk
      rw [contains_put (.inl he), hne e' he', Bool.false_or]
    change ((t.put e.1 e.2).putAll es).keys = _
    rw [ih hexact hdistinct, hrest, keys_put, List.map_cons, List.filter_cons]
    cases t.contains e.1 <;> simp

end Table

/-! ## Two vocabularies -/

/-- What belongs to the labels of statuses or, for actions, to the labels of those. -/
def vocabulary {α : Type} (action : Bool) (ofStatus ofAction : α) : α :=
  if action then ofAction else ofStatus

def Node.labelOf (action : Bool) (n : Node) : Datum := vocabulary action n.label n.actionLabel

namespace Definition

def labelTable (d : Definition) (action : Bool) : Labels :=
  vocabulary action d.labels d.actionLabels

/-- The field in the value of a status under which its label stands. -/
def labelField (action : Bool) : String := vocabulary action "label" "action_label"

variable {action : Bool} {entries entries' : List (Datum × Datum)} {d d' : Definition}

theorem labelOf_eq (d : Definition) (action : Bool) (s : Datum) :
    d.labelOf action s = s.key.map fun k => ((d.labelTable action).get? k).getD .null := by
  cases action <;> rfl

/-- The label of a status, or of the action that leads there, with null for a missing one. -/
def labelIn (d : Definition) (action : Bool) (status : Datum) : Datum :=
  ((if action then d.actionLabels else d.labels).get? status).getD .null

theorem labelEach_of_texts {statuses : List Datum} (h : ∀ s ∈ statuses, ∃ t, s = .text t)
    (action : Bool) :
    d.labelEach action statuses = .ok (statuses.map fun s => (s, d.labelIn action s)) := by
  apply mapM_eq_map
  intro s hs
  obtain ⟨t, rfl⟩ := h s hs
  cases action <;> rfl

/-- The label that the value of a status carries: null if it has none or is no map. -/
inductive Carries (action : Bool) : Datum → Datum → Prop
  | present {fields : List (Datum × Datum)} {label : Datum}
      (h : (Table.ofList fields).get? (.text (labelField action)) = some label) :
      Carries action (.map fields) label
  | absent {fields : List (Datum × Datum)}
      (h : (Table.ofList fields).get? (.text (labelField action)) = none) :
      Carries action (.map fields) .null
  | plain {value : Datum} (h : ∀ fields, value ≠ .map fields) : Carries action value .null

/-- The label that a status has where no table gives it one. -/
def carried (action : Bool) (value : Datum) : Datum :=
  ((statusFields value).get? (.text (labelField action))).getD .null

theorem carried_map (action : Bool) (fields : List (Datum × Datum)) : carried action (.map fields) =
    ((Table.ofList fields).get? (.text (labelField action))).getD .null := rfl

theorem carried_of_plain {value : Datum} (h : ∀ fields, value ≠ .map fields) :
    carried action value = .null := by
  cases value with
  | map fields => exact absurd rfl (h fields)
  | _ => cases action <;> rfl

theorem carries_iff {value label : Datum} :
    Carries action value label ↔ carried action value = label := by
  constructor
  · intro h
    cases h with
    | present h => rw [carried_map, h, Option.getD_some]
    | absent h => rw [carried_map, h, Option.getD_none]
    | plain h => exact carried_of_plain h
  · rintro rfl
    cases value with
    | map fields =>
      rw [carried_map]
      cases h : (Table.ofList fields).get? (.text (labelField action)) with
      | some label => exact .present h
      | none => exact .absent h
    | _ =>
      rw [carried_of_plain (by simp)]
      exact .plain (by simp)

/-- What a status is called: by the table if it is there, even if null, and else by itself. -/
def called (action : Bool) (given : Labels) (e : Datum × Datum) : Datum :=
  (given.get? (.text e.1.form)).getD (carried action e.2)

theorem labelOf_nodeOf (given : Bool → Labels) (action : Bool) (e : Datum × Datum) :
    (nodeOf (given false) (given true) e).labelOf action = called action (given action) e := by
  cases action with
  | false => exact labelFrom_eq (given false) e.1.form (statusFields e.2) "label"
  | true => exact labelFrom_eq (given true) e.1.form (statusFields e.2) "action_label"

/-! ## The tables that come of reading -/

/-- The definition has the statuses of entries, and in either table the labels of its statuses over
the given ones. -/
structure LabelsOver (given : Bool → Labels) (entries : List (Datum × Datum)) (d : Definition) :
    Prop where
  statuses : d.statuses = statusesOf (given false) (given true) entries
  labelTable : ∀ action, d.labelTable action =
    (given action).putAll (nodeLabels (Node.labelOf action) d.statuses)

theorem exists_labelsOver {document labels actionLabels name initial : Datum}
    (h : ofDocument document labels actionLabels name = .ok d)
    (hshaped : Shaped document initial entries) :
    ∃ given : Bool → Labels,
      (∀ action, givenLabels (vocabulary action labels actionLabels) = .ok (given action)) ∧
      LabelsOver given entries d := by
  obtain ⟨L, A, hL, hA⟩ := exists_given_of_ofDocument h
  obtain ⟨hi, hread⟩ := ofDocument_of_shaped hshaped hL hA name
  rw [h] at hread
  split at hread
  · cases hread
    refine ⟨fun action => vocabulary action L A, fun action => ?_, rfl, fun action => ?_⟩
    · cases action with
      | false => exact hL
      | true => exact hA
    · cases action <;> rfl
  · cases hread

variable {given given' : Bool → Labels}

theorem exists_entry_of_declares (h : LabelsOver given entries d) {s : Datum}
    (hs : d.declares s = true) : ∃ e, Last entries e ∧ s = .text e.1.form ∧
      (s, nodeOf (given false) (given true) e) ∈ d.statuses.entries := by
  obtain ⟨n, hn⟩ := exists_node_of_declares hs
  obtain ⟨e, he, heq, -⟩ := Table.exists_entry_of_get? hn
  rw [h.statuses] at he ⊢
  obtain ⟨e', hlast, rfl⟩ := mem_statusesOf_iff.1 he
  obtain rfl : s = .text e'.1.form := Datum.text_beq_iff.1 heq
  exact ⟨e', hlast, rfl, he⟩

theorem LabelsOver.mem_of_last (h : LabelsOver given entries d) {e : Datum × Datum}
    (hlast : Last entries e) :
    (.text e.1.form, nodeOf (given false) (given true) e) ∈ d.statuses.entries := by
  rw [h.statuses]
  exact mem_statusesOf_iff.2 ⟨e, hlast, rfl⟩

theorem LabelsOver.node_of_last (h : LabelsOver given entries d) {e : Datum × Datum}
    (hlast : Last entries e) :
    d.node (.text e.1.form) = .ok (some (nodeOf (given false) (given true) e)) := by
  unfold node
  rw [Datum.key_of_hashable rfl]
  exact congrArg Except.ok
    (Table.get?_of_mem_entries (Datum.text_beq_iff.2 rfl) (h.mem_of_last hlast))

theorem exact_of_labelsOver (h : LabelsOver given entries d) :
    ∀ e ∈ d.statuses.entries, Table.Exact e.1 := by
  rw [h.statuses]
  exact fun e he => exact_of_mem_statusesOf he

theorem LabelsOver.label_of_declares (h : LabelsOver given entries d) (action : Bool)
    {e : Datum × Datum}
    (he : (.text e.1.form, nodeOf (given false) (given true) e) ∈ d.statuses.entries) :
    d.labelOf action (.text e.1.form) = .ok (called action (given action) e) := by
  rw [labelOf_eq, Datum.key_of_hashable rfl, h.labelTable, ← labelOf_nodeOf given]
  refine congrArg Except.ok (label_of_putAll he fun l hl => ?_)
  rw [labelOf_nodeOf, called, hl]
  rfl

theorem LabelsOver.label_of_not_declares (h : LabelsOver given entries d) (action : Bool)
    {s : Datum} (hs : s.hashable = true) (hnot : d.declares s = false) :
    d.labelOf action s = .ok (((given action).get? s).getD .null) := by
  have hnone : d.statuses.get? s = none := Table.get?_eq_none_iff.2 hnot
  rw [labelOf_eq, Datum.key_of_hashable hs, h.labelTable]
  change Except.ok (Option.getD (Table.get? _ s) Datum.null) = _
  rw [get?_putAll_nodeLabels (.inr (exact_of_labelsOver h)), hnone, Option.bind_none,
    Option.none_or]

/-- The statuses that a table is filled up with. -/
def filled (d : Definition) (action : Bool) (given : Labels) : List Datum :=
  ((nodeLabels (Node.labelOf action) d.statuses).map Prod.fst).filter fun s => !given.contains s

theorem mem_nodeLabels_iff {label : Node → Datum} {statuses : Statuses} {s l : Datum} :
    (s, l) ∈ nodeLabels label statuses ↔
      ∃ n, (s, n) ∈ statuses.entries ∧ label n = l ∧ l ≠ .null := by
  unfold nodeLabels
  rw [List.mem_filter, List.mem_map]
  have hnull : (!l.isNull) = true ↔ l ≠ .null := by cases l <;> simp [Datum.isNull]
  rw [hnull]
  constructor
  · rintro ⟨⟨⟨k, n⟩, hn, heq⟩, hl⟩
    cases heq
    exact ⟨n, hn, rfl, hl⟩
  · rintro ⟨n, hn, rfl, hl⟩
    exact ⟨⟨_, hn, rfl⟩, hl⟩

theorem mem_filled_iff (h : LabelsOver given entries d) {s : Datum} :
    s ∈ d.filled action (given action) ↔ (given action).contains s = false ∧
      ∃ e, Last entries e ∧ s = .text e.1.form ∧ carried action e.2 ≠ .null := by
  unfold filled
  rw [List.mem_filter, Bool.not_eq_true', and_comm]
  refine and_congr_right fun hnot => ?_
  have hcalled {e : Datum × Datum} (hs : s = .text e.1.form) :
      called action (given action) e = carried action e.2 := by
    rw [called, ← hs, Table.get?_eq_none_iff.2 hnot, Option.getD_none]
  constructor
  · intro hmem
    obtain ⟨⟨k, l⟩, hlisted, rfl⟩ := List.mem_map.1 hmem
    obtain ⟨n, hn, rfl, hl⟩ := mem_nodeLabels_iff.1 hlisted
    rw [h.statuses] at hn
    obtain ⟨e, hlast, heq⟩ := mem_statusesOf_iff.1 hn
    cases heq
    rw [labelOf_nodeOf, hcalled rfl] at hl
    exact ⟨e, hlast, rfl, hl⟩
  · rintro ⟨e, hlast, rfl, hcarried⟩
    refine List.mem_map.2 ⟨(_, carried action e.2),
      mem_nodeLabels_iff.2 ⟨_, h.mem_of_last hlast, ?_, hcarried⟩, rfl⟩
    rw [labelOf_nodeOf, hcalled rfl]

theorem keys_labelTable (h : LabelsOver given entries d) (action : Bool) :
    (d.labelTable action).keys = (given action).keys ++ d.filled action (given action) := by
  have hexact : ∀ e ∈ nodeLabels (Node.labelOf action) d.statuses, Table.Exact e.1 := by
    intro e he
    obtain ⟨n, hn, -⟩ := mem_nodeLabels_iff.1 he
    exact exact_of_labelsOver h _ hn
  rw [h.labelTable, Table.keys_putAll hexact]
  · rfl
  · exact (List.pairwise_map.2 d.statuses.distinct).filter _

theorem filled_sublist (d : Definition) (action : Bool) (given : Labels) :
    (d.filled action given).Sublist d.statusIds := by
  have hkeys : (nodeLabels (Node.labelOf action) d.statuses).map Prod.fst =
      (d.statuses.entries.filter fun e => !(e.2.labelOf action).isNull).map Prod.fst := by
    unfold nodeLabels
    rw [List.filter_map, List.map_map]
    rfl
  unfold filled
  rw [hkeys]
  exact List.filter_sublist.trans (List.filter_sublist.map _)

/-! ## Nothing of the other vocabulary -/

/-- The entries say the same of one vocabulary: the same texts in order, with the same labels. -/
def SayAlike (action : Bool) (entries entries' : List (Datum × Datum)) : Prop :=
  List.Forall₂ (fun e e' => e.1.form = e'.1.form ∧
    ∀ label, Carries action e.2 label ↔ Carries action e'.2 label) entries entries'

/-- The statuses with what they are called, as the entries and a table have it. -/
def calledTable (action : Bool) (given : Labels) (entries : List (Datum × Datum)) : Labels :=
  .ofList (entries.map fun e => (.text e.1.form, called action given e))

theorem calledTable_eq (h : SayAlike action entries entries') (given : Labels) :
    calledTable action given entries = calledTable action given entries' := by
  unfold calledTable
  congr 1
  induction h with
  | nil => rfl
  | cons h _ ih =>
    obtain ⟨hid, hlabel⟩ := h
    have hcarried := carries_iff.1 ((hlabel _).2 (carries_iff.2 rfl))
    rw [List.map_cons, List.map_cons, ih, called, called, hid, hcarried]

theorem entries_calledTable (h : LabelsOver given entries d) (action : Bool) :
    d.statuses.entries.map (Prod.map id (Node.labelOf action)) =
      (calledTable action (given action) entries).entries := by
  rw [h.statuses, statusesOf, ← Table.entries_ofList_map, List.map_map]
  simp only [Function.comp_def, Prod.map, id, labelOf_nodeOf]
  rfl

/-- In both definitions the labels of one vocabulary are the same, in the table and in the nodes. -/
structure SameLabels (action : Bool) (d d' : Definition) : Prop where
  labelTable : d.labelTable action = d'.labelTable action
  label : ∀ s, d.labelOf action s = d'.labelOf action s
  nodeLabel : ∀ s, (d.node s).map (Option.map (Node.labelOf action)) =
    (d'.node s).map (Option.map (Node.labelOf action))

theorem sameLabels_of_sayAlike (h : LabelsOver given entries d)
    (h' : LabelsOver given' entries' d') (hgiven : given action = given' action)
    (halike : SayAlike action entries entries') : SameLabels action d d' := by
  have hentries : d.statuses.entries.map (Prod.map id (Node.labelOf action)) =
      d'.statuses.entries.map (Prod.map id (Node.labelOf action)) := by
    rw [entries_calledTable h, entries_calledTable h', hgiven, calledTable_eq halike]
  have hnodes : nodeLabels (Node.labelOf action) d.statuses =
      nodeLabels (Node.labelOf action) d'.statuses := congrArg (List.filter _) hentries
  have htable : d.labelTable action = d'.labelTable action := by
    rw [h.labelTable, h'.labelTable, hgiven, hnodes]
  refine ⟨htable, fun s => ?_, fun s => ?_⟩
  · rw [labelOf_eq, labelOf_eq, htable]
  · have hget (d : Definition) (k : Datum) : (d.statuses.get? k).map (Node.labelOf action) =
        ((d.statuses.entries.map (Prod.map id (Node.labelOf action))).find?
          fun e => e.1 == k).map Prod.snd := by
      rw [List.find?_map, Option.map_map]
      unfold Table.get?
      rw [Option.map_map]
      rfl
    unfold node
    cases s.key with
    | error e => rfl
    | ok k => exact congrArg Except.ok (by rw [hget, hget, hentries])

/-! ## Labels resolved -/

/-- The labels of one vocabulary. A declared status is called what the table says, even if that is
null, and else what its last entry carries, and its node says so too. Any other key has what the
table gives it. The keys are those of the table, and after them, in order, the statuses that the
table leaves out and that carry a label. -/
structure Resolved (action : Bool) (given : Labels) (entries : List (Datum × Datum))
    (d : Definition) : Prop where
  declared : ∀ s, d.declares s = true → ∃ e own n, Last entries e ∧ s = .text e.1.form ∧
    Carries action e.2 own ∧ d.node s = .ok (some n) ∧
    n.labelOf action = (given.get? s).getD own ∧
    d.labelOf action s = .ok ((given.get? s).getD own)
  undeclared : ∀ s, s.hashable = true → d.declares s = false →
    d.labelOf action s = .ok ((given.get? s).getD .null)
  keys : ∃ more : List Datum, (d.labelTable action).keys = given.keys ++ more ∧
    more.Sublist d.statusIds ∧
    ∀ s, s ∈ more ↔ given.contains s = false ∧ ∃ e own, Last entries e ∧ s = .text e.1.form ∧
      Carries action e.2 own ∧ own ≠ .null

theorem resolved_of_labelsOver (h : LabelsOver given entries d) (action : Bool) :
    Resolved action (given action) entries d := by
  constructor
  · intro s hs
    obtain ⟨e, hlast, rfl, hn⟩ := exists_entry_of_declares h hs
    exact ⟨e, carried action e.2, _, hlast, rfl, carries_iff.2 rfl, h.node_of_last hlast,
      labelOf_nodeOf given _ e, h.label_of_declares action hn⟩
  · exact fun s => h.label_of_not_declares action
  · refine ⟨d.filled action (given action), keys_labelTable h action, d.filled_sublist _ _,
      fun s => ?_⟩
    rw [mem_filled_iff h]
    simp only [carries_iff, exists_eq_left', exists_and_left]

/-- How labels come out of a document: in either vocabulary as `Resolved` says, and the same
whatever table is given for the other and whatever the statuses carry for it. -/
theorem labels_resolved {document labels actionLabels name : Datum}
    (h : ofDocument document labels actionLabels name = .ok d) :
    ∃ initial entries, Shaped document initial entries ∧ ∀ action,
      let table := vocabulary action labels actionLabels
      (∃ given, givenLabels table = .ok given ∧ Resolved action given entries d) ∧
      ∀ document' labels' actionLabels' name' d' initial' entries',
        ofDocument document' labels' actionLabels' name' = .ok d' →
        Shaped document' initial' entries' → vocabulary action labels' actionLabels' = table →
        SayAlike action entries entries' → SameLabels action d d' := by
  obtain ⟨initial, entries, -, -, hshaped, -⟩ := exists_shaped_of_ofDocument h
  obtain ⟨given, hgiven, hover⟩ := exists_labelsOver h hshaped
  refine ⟨initial, entries, hshaped, fun action => ⟨⟨_, hgiven action,
    resolved_of_labelsOver hover action⟩, ?_⟩⟩
  intro document' labels' actionLabels' name' d' initial' entries' h' hshaped' htable halike
  obtain ⟨given', hgiven', hover'⟩ := exists_labelsOver h' hshaped'
  have hsame : given action = given' action :=
    Except.ok.inj ((hgiven action).symm.trans (htable ▸ hgiven' action))
  exact sameLabels_of_sayAlike hover hover' hsame halike

/-- Two entries for one status, of which the second carries no label, and an empty label. -/
def twiceNamed : Datum :=
  .map [(.text "initial_status", .text "draft"),
    (.text "statuses", .map [
      (.text "draft", .map [(.text "transitions", .list [.int 1]), (.text "label", .text "Draft")]),
      (.int 1, .map [(.text "label", .text "One")]), (.text "1", .list [.text "paid"]),
      (.text "paid", .map [(.text "label", .text ""), (.text "action_label", .text "Pay")])])]

theorem twiceNamed_resolved :
    let labels : Datum := .map [(.text "draft", .null), (.text "lost", .text "Lost")]
    let actionLabels : Datum := .map [(.text "draft", .text "Reset")]
    ∃ d d', ofDocument twiceNamed labels .null (.text "orders") = .ok d ∧
      ofDocument twiceNamed labels actionLabels (.text "orders") = .ok d' ∧
      d.labels.keys = [.text "draft", .text "lost", .text "paid"] ∧
      [Datum.text "draft", .text "1", .text "paid", .text "lost"].map d.statusLabel =
        [.ok .null, .ok .null, .ok (.text ""), .ok (.text "Lost")] ∧
      (∀ action, ∃ given entries, Resolved action given entries d) ∧ SameLabels false d d' := by
  intro labels actionLabels
  obtain ⟨d, hread, hkeys, hlabels⟩ : ∃ d,
      ofDocument twiceNamed labels .null (.text "orders") = .ok d ∧
      d.labels.keys = [.text "draft", .text "lost", .text "paid"] ∧
      [Datum.text "draft", .text "1", .text "paid", .text "lost"].map d.statusLabel =
        [.ok .null, .ok .null, .ok (.text ""), .ok (.text "Lost")] := ⟨_, rfl, rfl, rfl⟩
  obtain ⟨d', hread'⟩ : ∃ d', ofDocument twiceNamed labels actionLabels (.text "orders") = .ok d' :=
    ⟨_, rfl⟩
  obtain ⟨initial, entries, hshaped, hboth⟩ := labels_resolved hread
  refine ⟨d, d', hread, hread', hkeys, hlabels, fun action => ?_, ?_⟩
  · obtain ⟨⟨given, -, hresolved⟩, -⟩ := hboth action
    exact ⟨given, entries, hresolved⟩
  · exact (hboth false).2 _ _ _ _ d' _ entries hread' hshaped rfl
      (List.forall₂_same.2 fun _ _ => ⟨rfl, fun _ => Iff.rfl⟩)

end Definition

end Lifecycle
