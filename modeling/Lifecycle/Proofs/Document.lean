import Lifecycle.Definition.Document
import Lifecycle.Proofs.Resolution
import Mathlib.Data.List.Sort

/-!
# What a document says of statuses

What the entries of a document say is stated here by rules of their own: which value a field has
(`Definition.Under`), which transition the value of a status states (`Definition.States`), which
entry counts among those with one text (`Definition.Last`) and which edges follow from it
(`Definition.Edge`). Reading the entries gives the statuses that these rules describe
(`Definition.mem_statusesOf_iff`), and the edges that dangle in them come in the order of the
document (`Definition.exists_edges`).
-/

namespace Lifecycle

/-! ## Reading one after another -/

section Each

variable {α β ε : Type} {f : α → Except ε β} {g : α → β} {l : List α}

theorem mapM_eq_map (h : ∀ x ∈ l, f x = .ok (g x)) : l.mapM f = .ok (l.map g) := by
  induction l with
  | nil => rfl
  | cons x l ih =>
    obtain ⟨hx, hl⟩ := List.forall_mem_cons.1 h
    rw [List.mapM_cons, hx, ih hl]
    rfl

/-- If one element fails, the first that does is the failure. -/
theorem exists_mapM_error {x : α} {e : ε} (hx : x ∈ l) (hfail : f x = .error e) :
    ∃ x' ∈ l, ∃ e', f x' = .error e' ∧ l.mapM f = .error e' := by
  induction l with
  | nil => cases hx
  | cons y l ih =>
    rw [List.mapM_cons]
    cases hy : f y with
    | error e' => exact ⟨y, List.mem_cons_self, e', hy, rfl⟩
    | ok b =>
      rcases List.mem_cons.1 hx with rfl | hx
      · rw [hfail] at hy
        cases hy
      · obtain ⟨x', hx', e', hfail', hl⟩ := ih hx
        rw [hl]
        exact ⟨x', List.mem_cons_of_mem _ hx', e', hfail', rfl⟩

end Each

/-! ## Transitions as data -/

theorem Targets.eq_of_mem_iff {ts us : Targets} (h : ∀ t, t ∈ ts ↔ t ∈ us) : ts = us := by
  have hmembers : ts.members = us.members :=
    ts.increasing.eq_of_mem_iff us.increasing fun {t} => h t
  cases ts
  cases us
  cases hmembers
  rfl

namespace Rule

/-- What can be read as a rule: nothing, a collection, a producer or a finished rule. -/
inductive Readable : Datum → Prop
  | null : Readable .null
  | listed {v : Datum} {items : List Datum} (h : Lists v items) : Readable v
  | producer (p : Producer) : Readable (.producer p)
  | static (targets : Targets) : Readable (.staticRule targets)
  | deferred (p : Producer) : Readable (.deferredRule p)

/-- The targets that are stated at once: the texts of the members of a collection, and those of a
finished static rule. -/
inductive StatedTarget : Datum → String → Prop
  | listed {v item : Datum} {items : List Datum} (h : Lists v items) (hitem : item ∈ items) :
      StatedTarget v item.form
  | static {targets : Targets} {t : String} (h : t ∈ targets) : StatedTarget (.staticRule targets) t

/-- The rule that is stated; what cannot be read states no target. -/
def stated : Datum → Rule
  | .staticRule targets => .static targets
  | .deferredRule p => .deferred p
  | .producer p => .deferred p
  | v => .static (.ofList (((listed? v).getD []).map Datum.form))

/-- Every member of a collection of targets has a text. -/
def Written (v : Datum) : Prop := ∀ items, Lists v items → ∀ item ∈ items, item.writable = true

variable {v : Datum}

theorem read_of_lists {items : List Datum} (h : Lists v items) (status : String) :
    read v status = (items.mapM Datum.shown).map fun texts => .static (.ofList texts) := by
  cases h <;> rfl

theorem read_of_readable (h : Readable v) (hwritten : Written v) (status : String) :
    read v status = .ok (stated v) := by
  cases h with
  | listed h =>
    rw [read_of_lists h, Datum.mapM_shown, if_pos (List.all_eq_true.2 (hwritten _ h))]
    cases h <;> rfl
  | _ => rfl

theorem read_of_unwritten {items : List Datum} {item : Datum} (h : Lists v items)
    (hitem : item ∈ items) (hunwritable : item.writable = false) (status : String) :
    read v status = .error (.misuse .tooManyDigits) := by
  have hall : items.all Datum.writable = false :=
    List.all_eq_false.2 ⟨item, hitem, Bool.eq_false_iff.1 hunwritable⟩
  rw [read_of_lists h, Datum.mapM_shown, hall]
  rfl

theorem not_written (h : ¬ Written v) :
    ∃ items, Lists v items ∧ ∃ item ∈ items, item.writable = false := by
  unfold Written at h
  push Not at h
  obtain ⟨items, hlists, item, hitem, hunwritable⟩ := h
  exact ⟨items, hlists, item, hitem, Bool.eq_false_iff.2 hunwritable⟩

theorem read_of_not_readable (h : ¬ Readable v) (status : String) :
    read v status = .error (.definition (.badTransition status v.kind)) := by
  cases v with
  | null => exact absurd .null h
  | list items => exact absurd (.listed (.list items)) h
  | tuple items => exact absurd (.listed (.tuple items)) h
  | set items => exact absurd (.listed (.set items)) h
  | frozenset items => exact absurd (.listed (.frozenset items)) h
  | producer p => exact absurd (.producer p) h
  | staticRule targets => exact absurd (.static targets) h
  | deferredRule p => exact absurd (.deferred p) h
  | _ => rfl

theorem stated_of_lists {items : List Datum} (h : Lists v items) :
    stated v = .static (.ofList (items.map Datum.form)) := by
  cases h <;> rfl

theorem mem_stated_of_lists {items : List Datum} (h : Lists v items) {t : String} :
    t ∈ (stated v).staticTargets ↔ ∃ item ∈ items, item.form = t := by
  rw [stated_of_lists h, ← List.mem_map]
  exact Targets.mem_ofList

theorem mem_stated_iff {t : String} : t ∈ (stated v).staticTargets ↔ StatedTarget v t := by
  constructor
  · intro h
    cases hitems : listed? v with
    | some items =>
      have hlists := listed?_eq_some_iff.1 hitems
      obtain ⟨item, hitem, rfl⟩ := (mem_stated_of_lists hlists).1 h
      exact .listed hlists hitem
    | none =>
      cases v with
      | staticRule targets => exact .static h
      | list | tuple | set | frozenset => cases hitems
      | _ => cases h
  · intro h
    cases h with
    | listed h hitem => exact (mem_stated_of_lists h).2 ⟨_, hitem, rfl⟩
    | static h => exact h

end Rule

namespace Definition

/-! ## Fields of a document -/

/-- The value under the first of two spellings that is there, null if neither is. -/
inductive Under (t : Table Datum Datum) (name other : String) : Datum → Prop
  | first {v : Datum} (h : t.get? (.text name) = some v) : Under t name other v
  | second {v : Datum} (hfirst : t.get? (.text name) = none) (h : t.get? (.text other) = some v) :
      Under t name other v
  | neither (hfirst : t.get? (.text name) = none) (h : t.get? (.text other) = none) :
      Under t name other .null

theorem under_iff {t : Table Datum Datum} {name other : String} {v : Datum} :
    Under t name other v ↔ field t name other = v := by
  unfold field
  constructor
  · intro h
    cases h with
    | first h => rw [h]
    | second hfirst h =>
      rw [hfirst, h]
      rfl
    | neither hfirst h =>
      rw [hfirst, h]
      rfl
  · rintro rfl
    split
    · rename_i v h
      exact .first h
    · rename_i hfirst
      cases h : t.get? (.text other) with
      | none => exact .neither hfirst h
      | some v => exact .second hfirst h

/-- The transition that the value of a status states: the field of a map, and else the value. -/
inductive States : Datum → Datum → Prop
  | map {entries : List (Datum × Datum)} {v : Datum}
      (h : Under (.ofList entries) "transitions" "transition" v) : States (.map entries) v
  | plain {v : Datum} (h : ∀ entries, v ≠ .map entries) : States v v

/-- The transition of a status. -/
def transition (value : Datum) : Datum := field (statusFields value) "transitions" "transition"

theorem transition_of_plain {v : Datum} (h : ∀ entries, v ≠ .map entries) : transition v = v := by
  cases v with
  | map entries => exact absurd rfl (h entries)
  | _ => rfl

theorem states_iff {value v : Datum} : States value v ↔ transition value = v := by
  constructor
  · intro h
    cases h with
    | map h => exact under_iff.1 h
    | plain h => exact transition_of_plain h
  · rintro rfl
    cases value with
    | map entries => exact .map (under_iff.2 rfl)
    | _ =>
      rw [transition_of_plain (by simp)]
      exact .plain (by simp)

/-! ## Entries of statuses -/

section Entries

variable {entries : List (Datum × Datum)} {labels actionLabels : Labels}

/-- The identifiers of the entries, in order and with repetitions. -/
def ids (entries : List (Datum × Datum)) : List String := entries.map fun e => e.1.form

/-- The entry counts: none after it has the same text. -/
def Last (entries : List (Datum × Datum)) (e : Datum × Datum) : Prop :=
  ∃ before after, entries = before ++ e :: after ∧ ∀ e' ∈ after, e'.1.form ≠ e.1.form

theorem Last.mem {e : Datum × Datum} (h : Last entries e) : e ∈ entries := by
  obtain ⟨before, after, rfl, -⟩ := h
  simp

/-- The targets that the entries state for their statuses. -/
inductive Edge (entries : List (Datum × Datum)) : String → String → Prop
  | intro {e : Datum × Datum} {v : Datum} {target : String} (hlast : Last entries e)
      (hstates : States e.2 v) (htarget : Rule.StatedTarget v target) :
      Edge entries e.1.form target

/-- An edge to a status that no entry declares. -/
structure Dangling (entries : List (Datum × Datum)) (source target : String) : Prop where
  edge : Edge entries source target
  undeclared : target ∉ ids entries

/-- In the order of declaration, and below one source in the order of texts. -/
def Precedes (entries : List (Datum × Datum)) (a b : String × String) : Prop :=
  (ids entries).idxOf a.1 < (ids entries).idxOf b.1 ∨ a.1 = b.1 ∧ a.2 < b.2

/-- The node that an entry describes. -/
def nodeOf (labels actionLabels : Labels) (e : Datum × Datum) : Node :=
  { rule := .stated (transition e.2)
    label := labelFrom labels e.1.form (statusFields e.2) "label"
    actionLabel := labelFrom actionLabels e.1.form (statusFields e.2) "action_label" }

def statusesOf (labels actionLabels : Labels) (entries : List (Datum × Datum)) : Statuses :=
  .ofList (entries.map fun e => (.text e.1.form, nodeOf labels actionLabels e))

/-- An entry, read into the text of its key and its node. -/
def readEntry (labels actionLabels : Labels) (e : Datum × Datum) : Except Failure (Datum × Node) :=
  e.1.shown.bind fun id =>
    (readNode labels actionLabels id e.2).map fun node => (.text id, node)

theorem readStatuses_eq (labels actionLabels : Labels) (entries : List (Datum × Datum)) :
    readStatuses labels actionLabels entries =
      (entries.mapM (readEntry labels actionLabels)).map Table.ofList := by
  have hentry : ∀ e : Datum × Datum, (do
      let id ← e.1.shown
      let node ← readNode labels actionLabels id e.2
      return (Datum.text id, node)) = readEntry labels actionLabels e := by
    intro e
    unfold readEntry
    cases e.1.shown with
    | error _ => rfl
    | ok id =>
      change (readNode labels actionLabels id e.2 >>= _) = (readNode labels actionLabels id e.2).map _
      cases readNode labels actionLabels id e.2 <;> rfl
  unfold readStatuses
  simp only [hentry]
  cases entries.mapM (readEntry labels actionLabels) <;> rfl

/-- The key of an entry and the targets that it lists have texts. -/
structure EntryWritten (e : Datum × Datum) : Prop where
  key : e.1.writable = true
  targets : Rule.Written (transition e.2)

theorem readEntry_of_key {e : Datum × Datum} (h : e.1.writable = true) :
    readEntry labels actionLabels e =
      (readNode labels actionLabels e.1.form e.2).map fun node => (.text e.1.form, node) := by
  unfold readEntry
  rw [Datum.shown_of_writable h]
  rfl

theorem readEntry_of_readable {e : Datum × Datum} (h : Rule.Readable (transition e.2))
    (hwritten : EntryWritten e) :
    readEntry labels actionLabels e =
      .ok (.text e.1.form, nodeOf labels actionLabels e) := by
  rw [readEntry_of_key hwritten.key]
  change (Rule.read (transition e.2) e.1.form >>= _).map _ = _
  rw [Rule.read_of_readable h hwritten.targets]
  rfl

theorem readEntry_of_unwritten {e : Datum × Datum} (h : ¬ EntryWritten e) :
    readEntry labels actionLabels e = .error (.misuse .tooManyDigits) := by
  cases hkey : e.1.writable with
  | false =>
    unfold readEntry
    rw [Datum.shown_of_unwritable hkey]
    rfl
  | true =>
    obtain ⟨items, hlists, item, hitem, hunwritable⟩ := Rule.not_written (mt (.mk hkey) h)
    rw [readEntry_of_key hkey]
    change (Rule.read (transition e.2) e.1.form >>= _).map _ = _
    rw [Rule.read_of_unwritten hlists hitem hunwritable]
    rfl

theorem readEntry_of_not_readable {e : Datum × Datum} (hkey : e.1.writable = true)
    (h : ¬ Rule.Readable (transition e.2)) :
    readEntry labels actionLabels e =
      .error (.definition (.badTransition e.1.form (transition e.2).kind)) := by
  rw [readEntry_of_key hkey]
  change (Rule.read (transition e.2) e.1.form >>= _).map _ = _
  rw [Rule.read_of_not_readable h]
  rfl

/-- An entry that is not read has something without a text, or no transition. -/
theorem readEntry_error {e : Datum × Datum} {failure : Failure}
    (h : readEntry labels actionLabels e = .error failure) :
    failure = .misuse .tooManyDigits ∧ ¬ EntryWritten e ∨
      (∃ fault, failure = .definition fault) ∧ ¬ Rule.Readable (transition e.2) := by
  by_cases hwritten : EntryWritten e
  · by_cases hreadable : Rule.Readable (transition e.2)
    · rw [readEntry_of_readable hreadable hwritten] at h
      cases h
    · rw [readEntry_of_not_readable hwritten.key hreadable] at h
      cases h
      exact .inr ⟨⟨_, rfl⟩, hreadable⟩
  · rw [readEntry_of_unwritten hwritten] at h
    cases h
    exact .inl ⟨rfl, hwritten⟩

theorem readStatuses_of_readable (h : ∀ e ∈ entries, Rule.Readable (transition e.2))
    (hwritten : ∀ e ∈ entries, EntryWritten e) :
    readStatuses labels actionLabels entries = .ok (statusesOf labels actionLabels entries) := by
  rw [readStatuses_eq, mapM_eq_map fun e he => readEntry_of_readable (h e he) (hwritten e he)]
  rfl

/-- Entries of which one is not read have one that has something without a text, or no
transition. -/
theorem readStatuses_of_not_read (labels actionLabels : Labels)
    (h : ¬ ∀ e ∈ entries, Rule.Readable (transition e.2) ∧ EntryWritten e) :
    readStatuses labels actionLabels entries = .error (.misuse .tooManyDigits) ∧
        (∃ e ∈ entries, ¬ EntryWritten e) ∨
      (∃ fault, readStatuses labels actionLabels entries = .error (.definition fault)) ∧
        ∃ e ∈ entries, ¬ Rule.Readable (transition e.2) := by
  push Not at h
  obtain ⟨e, he, hnot⟩ := h
  obtain ⟨failure, hfail⟩ : ∃ failure, readEntry labels actionLabels e = .error failure := by
    by_cases hwritten : EntryWritten e
    · exact ⟨_, readEntry_of_not_readable hwritten.key fun hreadable => hnot hreadable hwritten⟩
    · exact ⟨_, readEntry_of_unwritten hwritten⟩
  obtain ⟨e', he', failure', hfail', hall⟩ := exists_mapM_error he hfail
  rw [readStatuses_eq, hall]
  rcases readEntry_error hfail' with ⟨rfl, hwritten⟩ | ⟨⟨fault, rfl⟩, hreadable⟩
  · exact .inl ⟨rfl, e', he', hwritten⟩
  · exact .inr ⟨⟨fault, rfl⟩, e', he', hreadable⟩

theorem keys_statusesOf : (statusesOf labels actionLabels entries).keys =
    (ids entries).eraseDups.map .text :=
  Table.keys_ofList_text _ _ _

theorem contains_statusesOf_iff {s : String} :
    (statusesOf labels actionLabels entries).contains (.text s) = true ↔ s ∈ ids entries :=
  Table.contains_ofList_text_iff

theorem eq_nil_of_keys_statusesOf (h : (statusesOf labels actionLabels entries).keys = []) :
    entries = [] := by
  rw [keys_statusesOf, List.map_eq_nil_iff] at h
  have hids : ∀ id, id ∉ ids entries := fun id hid => by
    rw [← List.mem_eraseDups, h] at hid
    cases hid
  exact List.map_eq_nil_iff.1 (List.eq_nil_iff_forall_not_mem.2 hids)

theorem mem_statusesOf_iff {e : Datum × Node} :
    e ∈ (statusesOf labels actionLabels entries).entries ↔
      ∃ e', Last entries e' ∧ (.text e'.1.form, nodeOf labels actionLabels e') = e := by
  constructor
  · intro he
    have hkey : e.1 ∈ (statusesOf labels actionLabels entries).keys := List.mem_map_of_mem he
    rw [keys_statusesOf] at hkey
    obtain ⟨s, -, hs⟩ := List.mem_map.1 hkey
    obtain ⟨k, n⟩ := e
    cases hs
    -- Under the text stands the node of the last entry with it.
    rw [Table.mem_entries_iff (Table.exact_text s), statusesOf,
      Table.get?_ofList_eq_some_iff (Table.exact_text s)] at he
    obtain ⟨before, after, hsplit, hother⟩ := he
    obtain ⟨before', rest, rfl, rfl, hrest⟩ := List.map_eq_append_iff.1 hsplit
    obtain ⟨e', after', rfl, he', rfl⟩ := List.map_eq_cons_iff.1 hrest
    refine ⟨e', ⟨before', after', rfl, fun e'' he'' heq => ?_⟩, he'⟩
    have htext := (congrArg Datum.text heq).trans (congrArg Prod.fst he')
    exact hother _ (List.mem_map_of_mem he'') htext
  · rintro ⟨e', ⟨before, after, rfl, hother⟩, rfl⟩
    rw [Table.mem_entries_iff (Table.exact_text _), statusesOf,
      Table.get?_ofList_eq_some_iff (Table.exact_text _)]
    refine ⟨_, _, List.map_append.trans (congrArg _ List.map_cons), fun e'' he'' heq => ?_⟩
    obtain ⟨x, hx, rfl⟩ := List.mem_map.1 he''
    exact hother x hx (Datum.text.inj heq)

/-! ## Dangling edges -/

theorem mem_dangling_iff {statuses : Statuses} {source : Datum} {target : String} :
    (source, target) ∈ statuses.dangling ↔ ∃ n, (source, n) ∈ statuses.entries ∧
      target ∈ n.rule.staticTargets ∧ statuses.contains (.text target) = false := by
  unfold Statuses.dangling
  simp only [List.mem_flatMap, List.mem_map, List.mem_filter, Bool.not_eq_true', Prod.mk.injEq]
  constructor
  · rintro ⟨⟨_, n⟩, he, t, ⟨ht, hnot⟩, rfl, rfl⟩
    exact ⟨n, he, ht, hnot⟩
  · rintro ⟨n, he, ht, hnot⟩
    exact ⟨(source, n), he, target, ⟨ht, hnot⟩, rfl, rfl⟩

theorem edge_iff_exists_node {source target : String} : Edge entries source target ↔
    ∃ n, (.text source, n) ∈ (statusesOf labels actionLabels entries).entries ∧
      target ∈ n.rule.staticTargets := by
  constructor
  · rintro ⟨hlast, hstates, htarget⟩
    rename_i e v
    refine ⟨_, mem_statusesOf_iff.2 ⟨e, hlast, rfl⟩, ?_⟩
    rw [← states_iff.1 hstates] at htarget
    exact Rule.mem_stated_iff.2 htarget
  · rintro ⟨n, hmem, htarget⟩
    obtain ⟨e, hlast, heq⟩ := mem_statusesOf_iff.1 hmem
    cases heq
    exact .intro hlast (states_iff.2 rfl) (Rule.mem_stated_iff.1 htarget)

theorem text_mem_dangling_iff {source target : String} :
    (.text source, target) ∈ (statusesOf labels actionLabels entries).dangling ↔
      Dangling entries source target := by
  rw [mem_dangling_iff]
  constructor
  · rintro ⟨n, hmem, htarget, hnot⟩
    refine ⟨edge_iff_exists_node.2 ⟨n, hmem, htarget⟩, fun hdeclared => ?_⟩
    rw [contains_statusesOf_iff.2 hdeclared] at hnot
    cases hnot
  · rintro ⟨hedge, hnot⟩
    obtain ⟨n, hmem, htarget⟩ := edge_iff_exists_node.1 hedge
    refine ⟨n, hmem, htarget, ?_⟩
    rw [← Bool.not_eq_true, contains_statusesOf_iff]
    exact hnot

theorem text_of_mem_dangling {edge : Datum × String}
    (h : edge ∈ (statusesOf labels actionLabels entries).dangling) :
    Datum.text edge.1.form = edge.1 := by
  obtain ⟨n, hmem, -⟩ := mem_dangling_iff.1 h
  obtain ⟨e, -, heq⟩ := mem_statusesOf_iff.1 hmem
  rw [← congrArg Prod.fst heq, Datum.form_text]

theorem pairwise_staticTargets (rule : Rule) : rule.staticTargets.Pairwise (· < ·) := by
  cases rule with
  | static targets => exact targets.increasing
  | _ => exact .nil

theorem pairwise_dangling : (statusesOf labels actionLabels entries).dangling.Pairwise
    fun a b => Precedes entries (a.1.form, a.2) (b.1.form, b.2) := by
  -- Below one source the targets increase, and the sources stand where they were declared first.
  unfold Statuses.dangling
  rw [List.pairwise_flatMap]
  constructor
  · intro e _
    rw [List.pairwise_map]
    exact ((pairwise_staticTargets e.2.rule).filter _).imp fun hlt => .inr ⟨rfl, hlt⟩
  · have hkeys : (statusesOf labels actionLabels entries).keys.Pairwise fun a b =>
        (ids entries).idxOf a.form < (ids entries).idxOf b.form := by
      rw [keys_statusesOf, List.pairwise_map]
      exact Table.pairwise_idxOf_eraseDups _
    refine (List.pairwise_map.1 hkeys).imp fun hlt x hx y hy => ?_
    obtain ⟨_, -, rfl⟩ := List.mem_map.1 hx
    obtain ⟨_, -, rfl⟩ := List.mem_map.1 hy
    exact .inl hlt

/-- The edges of a failure, with sources that are texts. -/
theorem exists_edges (labels actionLabels : Labels) (entries : List (Datum × Datum)) :
    ∃ edges : List (String × String),
      (statusesOf labels actionLabels entries).dangling =
        edges.map (fun edge => (.text edge.1, edge.2)) ∧
      (∀ source target, (source, target) ∈ edges ↔ Dangling entries source target) ∧
      edges.Pairwise (Precedes entries) := by
  have hall : (statusesOf labels actionLabels entries).dangling =
      ((statusesOf labels actionLabels entries).dangling.map fun edge =>
        (edge.1.form, edge.2)).map (fun edge => (.text edge.1, edge.2)) := by
    rw [List.map_map]
    conv_lhs => rw [← List.map_id (statusesOf labels actionLabels entries).dangling]
    exact List.map_congr_left fun edge hedge => by
      simp only [Function.comp_apply, text_of_mem_dangling hedge, id]
  refine ⟨_, hall, fun source target => ?_, List.pairwise_map.2 pairwise_dangling⟩
  have htext : (.text source, target) ∈ (statusesOf labels actionLabels entries).dangling ↔
      Dangling entries source target := text_mem_dangling_iff
  rw [← htext]
  conv_rhs => rw [hall]
  have hinj : Function.Injective fun edge : String × String => (Datum.text edge.1, edge.2) := by
    intro a b hab
    simp only [Prod.mk.injEq, Datum.text.injEq] at hab
    exact Prod.ext hab.1 hab.2
  exact (List.mem_map_of_injective hinj (a := (source, target))).symm

/-- Their sources are texts, so the failure is worded as it is. -/
theorem worded_dangling :
    (Failure.definition (.dangling (statusesOf labels actionLabels entries).dangling)).worded =
      .definition (.dangling (statusesOf labels actionLabels entries).dangling) := by
  apply Failure.worded_of_writable
  change (List.map Prod.fst _).all Datum.writable = true
  rw [List.all_map, List.all_eq_true]
  intro edge hedge
  change edge.1.writable = true
  rw [← text_of_mem_dangling hedge]
  rfl

theorem message_dangling (edges : List (String × String)) :
    (DefinitionFault.dangling (edges.map fun edge => (.text edge.1, edge.2))).message =
      "Transitions to undeclared statuses: " ++
        ", ".intercalate (edges.map fun edge => edge.1 ++ " -> " ++ edge.2) := by
  have hmessage (edges : List (Datum × String)) : (DefinitionFault.dangling edges).message =
      "Transitions to undeclared statuses: " ++
        ", ".intercalate (edges.map fun edge => edge.1.form ++ " -> " ++ edge.2) := rfl
  rw [hmessage, List.map_map]
  simp only [Function.comp_def, Datum.form_text]

/-! ## Putting a definition together -/

variable {statuses : Statuses} {initial : String} {name : Datum}

theorem create_of_declared (hi : statuses.contains (.text initial) = true) :
    create (.text initial) statuses labels actionLabels name =
      if hd : statuses.dangling = [] then
        .ok { initial := .text initial, statuses, labels, actionLabels, name,
              initial_declared := hi, targets_declared := hd }
      else .error (Failure.definition (.dangling statuses.dangling)).worded := by
  have hnonempty : statuses.isEmpty = false := by
    obtain ⟨e, he, -⟩ := Table.contains_iff.1 hi
    exact List.isEmpty_eq_false_iff_exists_mem.2 ⟨e, he⟩
  unfold create
  rw [hnonempty, Datum.key_of_hashable rfl]
  change (if hi : _ then _ else _) = _
  rw [dif_pos hi]

/-- An undeclared initial status is a fault of the definition. Where there are no statuses at all
its words mention the name. -/
theorem create_of_undeclared {ids : List String} (hkeys : statuses.keys = ids.map .text)
    (hi : statuses.contains (.text initial) = false) : ∃ fault,
      WordedAs (fun x => statuses.keys = [] ∧ x = name) (.error (.definition fault))
        (create (.text initial) statuses labels actionLabels name) := by
  unfold create
  split
  · rename_i hempty
    have hnone : statuses.keys = [] := List.map_eq_nil_iff.2 (List.isEmpty_iff.1 hempty)
    refine ⟨.noStatuses name, (wordedAs_worded _).mono fun x hx => ⟨hnone, ?_⟩⟩
    change x ∈ if name.truthy then [name] else [] at hx
    split at hx
    · exact List.mem_singleton.1 hx
    · cases hx
  · have hjoined : Datum.joined statuses.keys = .ok (", ".intercalate ids) := by
      unfold Datum.joined
      rw [Datum.mapM_text?_eq_some_iff.2 hkeys]
    refine ⟨.initialUndeclared (.text initial) (statuses.keys.map Datum.form), .inl ?_⟩
    rw [Datum.key_of_hashable rfl]
    change (if hi : _ then _ else _) = _
    rw [dif_neg (by simp [hi]), hjoined]
    rfl

end Entries

end Definition

end Lifecycle
