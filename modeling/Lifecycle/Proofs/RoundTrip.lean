import Lifecycle.Proofs.WellFormed

/-!
# Definitions written down and read back

A definition that was read can be written down as a document and read back. What is written of a
rule are its targets (`Rule.written`), and the labels are written from the tables. Reading made the
tables and the nodes agree (`Definition.Coherent`), so that reading back gives each node its own
labels again (`Definition.ofDocument_toDocument`).
-/

namespace Lifecycle

namespace Targets

theorem place_of_forall_lt {s : String} {ts : List String} (h : ∀ t ∈ ts, s < t) :
    place s ts = s :: ts := by
  cases ts with
  | nil => rfl
  | cons t ts => exact if_pos (h t List.mem_cons_self)

theorem ofList_members (targets : Targets) : ofList targets.members = targets := by
  obtain ⟨ts, hts⟩ := targets
  have hmembers : (ofList ts).members = ts := by
    induction ts with
    | nil => rfl
    | cons t ts ih =>
      obtain ⟨ht, hts⟩ := List.pairwise_cons.1 hts
      change place t (ofList ts).members = t :: ts
      rw [ih hts, place_of_forall_lt ht]
  cases h : ofList ts with
  | mk members increasing =>
    rw [h] at hmembers
    cases hmembers
    rfl

end Targets

/-! ## What is written of rules and nodes -/

namespace Rule

/-- What is left of a rule that is written down and read back: its static targets. -/
def written : Rule → Rule
  | .static targets => .static targets
  | _ => .static .empty

/-- A static rule is kept, and a deferred one is replaced by the rule without targets. -/
inductive KeptAs : Rule → Rule → Prop
  | static (targets : Targets) : KeptAs (.static targets) (.static targets)
  | deferred (p : Producer) : KeptAs (.deferred p) (.static .empty)

theorem keptAs_written {rule : Rule} (h : ∀ kind, rule ≠ .unsupported kind) :
    KeptAs rule rule.written := by
  cases rule with
  | static targets => exact .static targets
  | deferred p => exact .deferred p
  | unsupported kind => exact absurd rfl (h kind)

theorem mem_staticTargets_written {rule : Rule} {t : String} :
    t ∈ rule.written.staticTargets ↔ t ∈ rule.staticTargets := by
  cases rule <;> rfl

end Rule

def Node.written (n : Node) : Node := { n with rule := n.rule.written }

namespace Statuses

def written (statuses : Statuses) : Statuses where
  entries := statuses.entries.map fun e => (e.1, e.2.written)
  distinct := List.pairwise_map.2 statuses.distinct

variable {statuses : Statuses}

theorem keys_written : statuses.written.keys = statuses.keys := by
  unfold Table.keys written
  rw [List.map_map]
  rfl

theorem contains_written (k : Datum) : statuses.written.contains k = statuses.contains k :=
  Table.contains_eq_of_keys_eq keys_written k

theorem get?_written (k : Datum) :
    statuses.written.get? k = (statuses.get? k).map Node.written := by
  unfold Table.get? written
  rw [List.find?_map, Option.map_map, Option.map_map]
  rfl

theorem dangling_written (h : statuses.dangling = []) : statuses.written.dangling = [] := by
  rw [List.eq_nil_iff_forall_not_mem] at h ⊢
  rintro ⟨source, target⟩ hedge
  obtain ⟨n, hmem, htarget, hnot⟩ := Definition.mem_dangling_iff.1 hedge
  obtain ⟨e, he, heq⟩ := List.mem_map.1 hmem
  cases heq
  rw [contains_written] at hnot
  exact h _ (Definition.mem_dangling_iff.2
    ⟨e.2, he, Rule.mem_staticTargets_written.1 htarget, hnot⟩)

end Statuses

namespace Definition

/-! ## Labels in tables and in nodes -/

/-- The label of a node, unless it is null. -/
def ownLabel? (label : Node → Datum) (n : Node) : Option Datum :=
  if (label n).isNull then none else some (label n)

theorem getD_ownLabel? (label : Node → Datum) (n : Node) :
    (ownLabel? label n).getD .null = label n := by
  unfold ownLabel?
  cases label n <;> rfl

/-- The labels of the nodes, put over a table, count before those of the table. -/
theorem get?_putAll_nodeLabels {given : Labels} {statuses : Statuses} {label : Node → Datum}
    {k : Datum} (h : Table.Exact k ∨ ∀ e ∈ statuses.entries, Table.Exact e.1) :
    (given.putAll (nodeLabels label statuses)).get? k =
      ((statuses.get? k).bind (ownLabel? label)).or (given.get? k) := by
  have hmem {e : Datum × Datum} : e ∈ nodeLabels label statuses ↔
      ∃ n, (e.1, n) ∈ statuses.entries ∧ ownLabel? label n = some e.2 := by
    unfold nodeLabels ownLabel?
    rw [List.mem_filter, List.mem_map]
    constructor
    · rintro ⟨⟨⟨k', n⟩, hn, rfl⟩, hnull⟩
      rw [Bool.not_eq_true'] at hnull
      exact ⟨n, hn, by simp [hnull]⟩
    · rintro ⟨n, hn, hlabel⟩
      split at hlabel
      · cases hlabel
      · rename_i hnull
        exact ⟨⟨_, hn, Prod.ext rfl (Option.some.inj hlabel)⟩,
          by rw [← Option.some.inj hlabel]; simpa using hnull⟩
  -- The node found under the key and the label found under it come from one entry.
  have hkey {e : Datum × Node} (he : e ∈ statuses.entries) (hek : (e.1 == k) = true) : e.1 = k :=
    h.elim (fun hk => (hk e.1).1.1 hek) fun hall => ((hall e he k).2.1 hek).symm
  have hexact : Table.Exact k ∨ ∀ e ∈ nodeLabels label statuses, Table.Exact e.1 := by
    refine h.imp_right fun hall e he => ?_
    obtain ⟨n, hn, -⟩ := hmem.1 he
    exact hall _ hn
  rw [Table.get?_putAll hexact]
  congr 1
  cases hfind : (nodeLabels label statuses).reverse.find? fun e => e.1 == k with
  | some e =>
    obtain ⟨n, hn, hlabel⟩ := hmem.1 (List.mem_reverse.1 (List.mem_of_find?_eq_some hfind))
    have hek := List.find?_some hfind
    obtain rfl : e.1 = k := hkey hn hek
    have hget : statuses.get? e.1 = some n :=
      (Table.mem_entries_iff (h.elim id fun hall => hall _ hn)).1 hn
    rw [hget]
    exact hlabel.symm
  | none =>
    cases hget : statuses.get? k with
    | none => rfl
    | some n =>
      obtain ⟨e, he, hek, rfl⟩ := Table.exists_entry_of_get? hget
      change none = ownLabel? label e.2
      cases hlabel : ownLabel? label e.2 with
      | none => rfl
      | some l =>
        have hlisted : (e.1, l) ∈ nodeLabels label statuses := hmem.2 ⟨e.2, he, hlabel⟩
        exact absurd hek (List.find?_eq_none.1 hfind _ (List.mem_reverse.2 hlisted))

/-- The label under a text that comes from a table or, if that has none, from the nodes. -/
theorem label_of_putAll {given : Labels} {statuses : Statuses} {label : Node → Datum} {s : String}
    {n : Node} (hn : (.text s, n) ∈ statuses.entries)
    (hgiven : ∀ l, given.get? (.text s) = some l → label n = l) :
    ((given.putAll (nodeLabels label statuses)).get? (.text s)).getD .null = label n := by
  rw [Table.mem_entries_iff (Table.exact_text s)] at hn
  rw [get?_putAll_nodeLabels (.inl (Table.exact_text s)), hn, Option.bind_some]
  have hown := getD_ownLabel? label n
  cases hlabel : ownLabel? label n with
  | some l =>
    rw [hlabel] at hown
    exact hown
  | none =>
    rw [hlabel] at hown
    cases hl : given.get? (.text s) with
    | some l => exact (hgiven l hl).symm
    | none => exact hown

/-- The tables of labels and the nodes say the same, and all can be written down. -/
structure Coherent (d : Definition) : Prop where
  initial : ∃ s, d.initial = .text s ∧ s ≠ ""
  textIds : d.TextIds
  supported : d.Supported
  label : ∀ e ∈ d.statuses.entries, (d.labels.get? e.1).getD .null = e.2.label
  actionLabel : ∀ e ∈ d.statuses.entries, (d.actionLabels.get? e.1).getD .null = e.2.actionLabel

variable {document labels actionLabels name : Datum} {L A : Labels} {d : Definition}

theorem stated_ne_unsupported (v : Datum) (kind : Kind) : Rule.stated v ≠ .unsupported kind := by
  unfold Rule.stated
  split <;> simp

/-- The label that a table and the nodes agree on, where the nodes took theirs from the table. -/
theorem label_of_statusesOf {entries : List (Datum × Datum)} {given : Labels}
    {label : Node → Datum} {field : String}
    (hlabel : ∀ e, label (nodeOf L A e) = labelFrom given e.1.form (statusFields e.2) field)
    {e : Datum × Node} (he : e ∈ (statusesOf L A entries).entries) :
    ((given.putAll (nodeLabels label (statusesOf L A entries))).get? e.1).getD .null =
      label e.2 := by
  obtain ⟨e', -, rfl⟩ := mem_statusesOf_iff.1 he
  refine label_of_putAll he fun l hgiven => ?_
  rw [hlabel]
  unfold labelFrom
  rw [hgiven]

theorem coherent_of_ofDocument (h : ofDocument document labels actionLabels name = .ok d) :
    d.Coherent := by
  obtain ⟨initial, entries, L, A, hshaped, hinitial, hstatuses, hl, ha⟩ :=
    exists_shaped_of_ofDocument h
  refine ⟨⟨_, hinitial, Datum.form_ne_empty hshaped.truthy⟩, ?_, ?_, ?_, ?_⟩
  · intro s hs
    change s ∈ d.statuses.keys at hs
    rw [hstatuses, keys_statusesOf] at hs
    obtain ⟨t, -, rfl⟩ := List.mem_map.1 hs
    exact ⟨t, rfl⟩
  · intro e he kind hkind
    rw [hstatuses] at he
    obtain ⟨e', -, rfl⟩ := mem_statusesOf_iff.1 he
    exact stated_ne_unsupported _ _ hkind
  · rw [hstatuses, hl]
    exact fun e he => label_of_statusesOf (fun _ => rfl) he
  · rw [hstatuses, ha]
    exact fun e he => label_of_statusesOf (fun _ => rfl) he

/-! ## Reading back -/

/-- What reading back gives: the same graph, without the deferred rules. -/
def written (d : Definition) : Definition where
  initial := d.initial
  statuses := d.statuses.written
  labels := .ofList (nodeLabels Node.label d.statuses.written)
  actionLabels := .ofList (nodeLabels Node.actionLabel d.statuses.written)
  name := d.name
  initial_declared := (Statuses.contains_written d.initial).trans d.initial_declared
  targets_declared := Statuses.dangling_written d.targets_declared

theorem readable_statusDocument (d : Definition) (id : Datum) (n : Node) :
    Rule.Readable (transition (d.statusDocument id n)) := by
  unfold statusDocument
  cases n.rule with
  | static targets => exact .listed (.list _)
  | _ => exact .null

theorem written_statusDocument (d : Definition) (id : Datum) (n : Node) :
    Rule.Written (transition (d.statusDocument id n)) := by
  intro items hlists item hitem
  unfold statusDocument at hlists
  cases hrule : n.rule with
  | static targets =>
    rw [hrule] at hlists
    cases hlists
    obtain ⟨t, -, rfl⟩ := List.mem_map.1 hitem
    rfl
  | _ =>
    rw [hrule] at hlists
    cases hlists

theorem nodeOf_statusDocument (d : Definition) (id : Datum) (n : Node) :
    nodeOf .empty .empty (id, d.statusDocument id n) =
      { rule := n.rule.written
        label := (d.labels.get? id).getD .null
        actionLabel := (d.actionLabels.get? id).getD .null } := by
  have hrule : Rule.stated (transition (d.statusDocument id n)) = n.rule.written := by
    unfold statusDocument
    cases n.rule with
    | static targets =>
      change Rule.static (.ofList ((targets.members.map Datum.text).map Datum.form)) = _
      rw [List.map_map]
      change Rule.static (.ofList (targets.members.map fun t => t)) = _
      rw [List.map_id', Targets.ofList_members]
      rfl
    | _ => rfl
  unfold nodeOf
  rw [hrule]
  rfl

/-- The statuses of a document that was written. -/
def writtenEntries (d : Definition) : List (Datum × Datum) :=
  d.statuses.entries.map fun e => (e.1, d.statusDocument e.1 e.2)

theorem Coherent.statusesOf_writtenEntries (h : d.Coherent) :
    statusesOf .empty .empty d.writtenEntries = d.statuses.written := by
  have hentries : (d.writtenEntries.map fun e => (Datum.text e.1.form, nodeOf .empty .empty e)) =
      d.statuses.written.entries := by
    unfold writtenEntries Statuses.written
    rw [List.map_map]
    refine List.map_congr_left fun e he => ?_
    obtain ⟨s, hs⟩ := h.textIds e.1 (List.mem_map_of_mem he)
    change (Datum.text e.1.form, nodeOf .empty .empty (e.1, d.statusDocument e.1 e.2)) = _
    rw [nodeOf_statusDocument, h.label e he, h.actionLabel e he, hs]
    rfl
  unfold statusesOf
  rw [hentries, Table.ofList_entries]

theorem entries_ofList_writtenEntries (d : Definition) :
    (Table.ofList d.writtenEntries).entries = d.writtenEntries :=
  Table.entries_putAll_of_distinct (List.pairwise_map.2 d.statuses.distinct)

theorem ofDocument_toDocument (h : d.Coherent) :
    ofDocument d.toDocument .null .null (.text "") = .ok d.written := by
  obtain ⟨s, hs, hne⟩ := h.initial
  have hinitial : d.initial.truthy = true := by
    rw [hs]
    simpa [Datum.truthy] using hne
  have hreadable : ∀ e ∈ d.writtenEntries, Rule.Readable (transition e.2) := by
    intro e he
    obtain ⟨e', -, rfl⟩ := List.mem_map.1 he
    exact readable_statusDocument d e'.1 e'.2
  have hwritten : ∀ e ∈ d.writtenEntries, EntryWritten e := by
    intro e he
    obtain ⟨e', he', rfl⟩ := List.mem_map.1 he
    obtain ⟨t, ht⟩ := h.textIds e'.1 (List.mem_map_of_mem he')
    refine ⟨?_, written_statusDocument d e'.1 e'.2⟩
    rw [ht]
    rfl
  have hdocument : d.toDocument.table? = some (.ofList [(.text "name", d.name),
      (.text "initial_status", d.initial), (.text "statuses", .map d.writtenEntries)]) := rfl
  have hread : ofDocument d.toDocument .null .null (.text "") =
      (readStatuses .empty .empty (Table.ofList d.writtenEntries).entries).bind fun statuses =>
        d.initial.shown.bind fun id =>
          create (.text id) statuses (.ofList (nodeLabels Node.label statuses))
            (.ofList (nodeLabels Node.actionLabel statuses)) d.name :=
    ofDocument_eq hdocument hinitial rfl rfl rfl
  have hi : d.statuses.written.contains (.text s) = true := by
    rw [Statuses.contains_written, ← hs]
    exact d.initial_declared
  rw [hread, entries_ofList_writtenEntries, readStatuses_of_readable hreadable hwritten,
    h.statusesOf_writtenEntries, hs]
  refine (create_of_declared hi).trans ?_
  rw [dif_pos (Statuses.dangling_written d.targets_declared)]
  simp only [written, hs]

theorem Coherent.labels_of_node (h : d.Coherent) {s : Datum} {n : Node}
    (hn : d.statuses.get? s = some n) :
    d.statusLabel s = .ok n.label ∧ d.actionLabel s = .ok n.actionLabel := by
  obtain ⟨e, he, heq, rfl⟩ := Table.exists_entry_of_get? hn
  obtain ⟨t, ht⟩ := h.textIds e.1 (List.mem_map_of_mem he)
  have hs : s = e.1 := by
    rw [ht] at heq ⊢
    exact Datum.text_beq_iff.1 heq
  have hkey : s.key = .ok e.1 := by
    rw [hs, ht]
    exact Datum.key_of_hashable rfl
  unfold Definition.statusLabel Definition.actionLabel
  rw [hkey]
  exact ⟨congrArg Except.ok (h.label e he), congrArg Except.ok (h.actionLabel e he)⟩

theorem coherent_written (h : d.Coherent) : d.written.Coherent :=
  coherent_of_ofDocument (ofDocument_toDocument h)

theorem statusDocument_written (h : d.Coherent) {e : Datum × Node} (he : e ∈ d.statuses.entries)
    (hstatic : ∃ targets, e.2.rule = .static targets) :
    d.written.statusDocument e.1 e.2.written = d.statusDocument e.1 e.2 := by
  have he' : (e.1, e.2.written) ∈ d.written.statuses.entries := List.mem_map.2 ⟨e, he, rfl⟩
  have hlabel : (d.written.labels.get? e.1).getD .null = (d.labels.get? e.1).getD .null :=
    ((coherent_written h).label _ he').trans (h.label e he).symm
  have haction : (d.written.actionLabels.get? e.1).getD .null =
      (d.actionLabels.get? e.1).getD .null :=
    ((coherent_written h).actionLabel _ he').trans (h.actionLabel e he).symm
  have hrule : e.2.written.rule = e.2.rule := by
    obtain ⟨targets, hrule⟩ := hstatic
    change e.2.rule.written = _
    rw [hrule]
    rfl
  unfold statusDocument
  rw [hlabel, haction, hrule]

theorem toDocument_written (h : d.Coherent) (hstatic : d.OnlyStatic) :
    d.written.toDocument = d.toDocument := by
  have hentries : d.written.writtenEntries = d.writtenEntries := by
    change (d.statuses.entries.map _).map _ = d.statuses.entries.map _
    rw [List.map_map]
    refine List.map_congr_left fun e he => ?_
    exact congrArg (Prod.mk e.1) (statusDocument_written h he (hstatic e he))
  change Datum.map [_, _, (_, .map d.written.writtenEntries)] = _
  rw [hentries]
  rfl

/-- A definition that was read can be written down and read back: with the same name, statuses and
labels, and with its static rules. Without deferred rules the document is the same as well. -/
theorem reads_back (h : ofDocument document labels actionLabels name = .ok d) :
    ∃ d', ofDocument d.toDocument .null .null (.text "") = .ok d' ∧
      d'.name = d.name ∧ d'.initial = d.initial ∧ d'.statusIds = d.statusIds ∧
      (∀ s n, d.statuses.get? s = some n → ∃ n', d'.statuses.get? s = some n' ∧
        Rule.KeptAs n.rule n'.rule ∧ n'.label = n.label ∧ n'.actionLabel = n.actionLabel) ∧
      (∀ s, d.declares s = true →
        d'.statusLabel s = d.statusLabel s ∧ d'.actionLabel s = d.actionLabel s) ∧
      (d.OnlyStatic → d'.toDocument = d.toDocument) := by
  have hcoherent := coherent_of_ofDocument h
  have hnode {s : Datum} {n : Node} (hn : d.statuses.get? s = some n) :
      d.written.statuses.get? s = some n.written := by
    change d.statuses.written.get? s = _
    rw [Statuses.get?_written, hn]
    rfl
  refine ⟨d.written, ofDocument_toDocument hcoherent, rfl, rfl, Statuses.keys_written, ?_, ?_,
    toDocument_written hcoherent⟩
  · intro s n hn
    obtain ⟨e, he, -, rfl⟩ := Table.exists_entry_of_get? hn
    exact ⟨_, hnode hn, Rule.keptAs_written (hcoherent.supported e he), rfl, rfl⟩
  · intro s hs
    obtain ⟨n, hn⟩ := exists_node_of_declares hs
    obtain ⟨hlabel, haction⟩ := hcoherent.labels_of_node hn
    obtain ⟨hlabel', haction'⟩ := (coherent_written hcoherent).labels_of_node (hnode hn)
    rw [hlabel, haction, hlabel', haction']
    exact ⟨rfl, rfl⟩

/-- A document with a deferred rule, and keys and labels of which the tables take some away. -/
def mixedDocument : Datum :=
  .map [(.text "initial_status", .text "draft"),
    (.text "statuses", .map [
      (.text "draft", .map [(.text "transitions", .set [.text "paid", .int 7]),
        (.text "label", .text "Draft")]),
      (.text "paid", .producer ⟨0⟩), (.int 7, .map [(.text "label", .int 0)])])]

theorem mixedDocument_reads_back :
    let labels : Datum := .map [(.text "draft", .null), (.text "lost", .text "Lost")]
    ∃ d, ofDocument mixedDocument labels .null (.text "orders") = .ok d ∧
      ∃ d', ofDocument d.toDocument .null .null (.text "") = .ok d' ∧ d'.name = d.name ∧
        d'.initial = d.initial ∧ d'.statusIds = d.statusIds := by
  intro labels
  obtain ⟨d, hread⟩ : ∃ d, ofDocument mixedDocument labels .null (.text "orders") = .ok d :=
    ⟨_, rfl⟩
  obtain ⟨d', hback, hname, hinitial, hids, -⟩ := reads_back hread
  exact ⟨d, hread, d', hback, hname, hinitial, hids⟩

end Definition

end Lifecycle
