import Lifecycle.Json
import Lifecycle.Proofs.Table
import Lifecycle.Yaml.Document

/-!
# What documents denote

A text of JSON or YAML denotes plain data: numbers, texts, dates and collections of such, but no
producers and no finished rules (`Json.plain_read`, `Yaml.plain_read`). The readers count down while
they go deeper, so the proofs are inductions on that count.
-/

namespace Lifecycle

/-! ## Results with a property -/

/-- Where there is a result, it has the property. -/
def Results {ε α : Type} (P : α → Prop) (r : Except ε α) : Prop := ∀ a, r = .ok a → P a

section Results

variable {ε ε' α β : Type} {P : α → Prop} {Q : β → Prop} {r : Except ε α}

theorem results_ok {a : α} (h : P a) : Results P (.ok a : Except ε α) := by
  rintro b ⟨⟩
  exact h

theorem results_error (P : α → Prop) (e : ε) : Results P (.error e) := by
  rintro a ⟨⟩

theorem results_any (r : Except ε α) : Results (fun _ => True) r := fun _ _ => trivial

theorem Results.bind {f : α → Except ε β} (h : Results P r) (hf : ∀ a, P a → Results Q (f a)) :
    Results Q (r >>= f) := by
  cases r with
  | error e => exact results_error Q e
  | ok a => exact hf a (h a rfl)

theorem Results.map {f : α → β} (h : Results P r) (hf : ∀ a, P a → Q (f a)) :
    Results Q (r.map f) := by
  cases r with
  | error e => exact results_error Q e
  | ok a => exact results_ok (hf a (h a rfl))

theorem Results.mapError {f : ε → ε'} (h : Results P r) : Results P (r.mapError f) := by
  cases r with
  | error e => exact results_error P (f e)
  | ok a => exact results_ok (h a rfl)

theorem exists_ok_of_any {p : α → Bool} (h : r.toOption.any p = true) :
    ∃ a, r = .ok a ∧ p a = true := by
  cases r with
  | error e => cases h
  | ok a => exact ⟨a, rfl, h⟩

end Results

/-! ## Plain data -/

/-- Data without producers and rules. -/
inductive Datum.Plain : Datum → Prop
  | null : Plain .null
  | bool (b : Bool) : Plain (.bool b)
  | int (n : Int) : Plain (.int n)
  | float (x : Binary64) : Plain (.float x)
  | text (s : String) : Plain (.text s)
  | bytes (b : List UInt8) : Plain (.bytes b)
  | date (d : Date) : Plain (.date d)
  | moment (m : Moment) : Plain (.moment m)
  | list {items : List Datum} (h : ∀ d ∈ items, Plain d) : Plain (.list items)
  | tuple {items : List Datum} (h : ∀ d ∈ items, Plain d) : Plain (.tuple items)
  | set {items : List Datum} (h : ∀ d ∈ items, Plain d) : Plain (.set items)
  | frozenset {items : List Datum} (h : ∀ d ∈ items, Plain d) : Plain (.frozenset items)
  | map {entries : List (Datum × Datum)} (hkeys : ∀ e ∈ entries, Plain e.1)
      (hvalues : ∀ e ∈ entries, Plain e.2) : Plain (.map entries)

/-- Both parts of an entry are plain. -/
abbrev PlainEntry (e : Datum × Datum) : Prop := e.1.Plain ∧ e.2.Plain

theorem plain_ofTable {t : Table Datum Datum} (h : ∀ e ∈ t.entries, PlainEntry e) :
    (Datum.ofTable t).Plain :=
  .map (fun e he => (h e he).1) fun e he => (h e he).2

/-! ## JSON -/

namespace Json

theorem plain_of_word {text rest : List Char} {d : Datum} (h : word? text = some (d, rest)) :
    d.Plain := by
  obtain ⟨w, hw, hafter⟩ := List.exists_of_findSome?_eq_some h
  obtain ⟨_, _, heq⟩ := Option.map_eq_some_iff.1 hafter
  cases heq
  have hall : ∀ w ∈ words, w.2.Plain := by
    simp only [words, List.forall_mem_cons, List.not_mem_nil, false_implies, implies_true, and_true]
    exact ⟨.null, .bool true, .bool false, .float _, .float _, .float _⟩
  exact hall w hw

theorem plain_number (negative : Bool) (text : List Char) :
    Results (fun r => r.1.Plain) (number negative text) := by
  unfold number
  dsimp only
  split
  · exact results_error _ _
  split
  · split
    · exact results_error _ _
    · exact results_ok (.int _)
  · exact results_ok (.float _)

/-- Values, the values of a list and the members of a map are plain at every count. -/
theorem plain_parts (n : Nat) :
    (∀ text, Results (fun r => r.1.Plain) (value n text)) ∧
      (∀ text, Results (fun r => ∀ d ∈ r.1, d.Plain) (items n text)) ∧
      ∀ text, Results (fun r => ∀ e ∈ r.1, PlainEntry e) (members n text) := by
  induction n with
  | zero => exact ⟨fun _ => results_error _ _, fun _ => results_error _ _, fun _ => results_error _ _⟩
  | succ n ih =>
    obtain ⟨hvalue, hitems, hmembers⟩ := ih
    refine ⟨fun text => ?_, fun text => ?_, fun text => ?_⟩
    · unfold value
      split
      · rename_i r hword
        exact results_ok (plain_of_word hword)
      split
      · exact (results_any _).map fun _ _ => .text _
      · split
        · exact results_ok (.list (by simp))
        · exact (hitems _).map fun _ h => .list h
      · split
        · exact results_ok (.map (by simp) (by simp))
        · exact (hmembers _).map fun _ h => plain_ofTable (Table.forall_entries_ofList h)
      · exact plain_number true _
      · exact plain_number false _
    · unfold items
      refine (hvalue text).bind fun ⟨d, rest⟩ hd => ?_
      dsimp only
      split
      · exact results_ok (by simpa using hd)
      · exact (hitems _).bind fun rs hrs => results_ok (List.forall_mem_cons.2 ⟨hd, hrs⟩)
      · exact results_error _ _
    · unfold members
      refine (results_any _).bind fun ⟨k, rest⟩ _ => ?_
      dsimp only
      split
      · refine (hvalue _).bind fun ⟨d, rest⟩ hd => ?_
        dsimp only
        split
        · exact results_ok (by simpa using ⟨.text k, hd⟩)
        · exact (hmembers _).bind fun rs hrs =>
            results_ok (List.forall_mem_cons.2 ⟨⟨.text k, hd⟩, hrs⟩)
        · exact results_error _ _
      · exact results_error _ _

theorem plain_read (text : String) : Results Datum.Plain (read text) := by
  unfold read
  refine ((plain_parts _).1 _).bind fun ⟨d, rest⟩ hd => ?_
  dsimp only
  split
  · exact results_ok hd
  · exact results_error _ _

end Json

/-! ## YAML -/

namespace Yaml

theorem plain_timestampValue (text : List Char) : Results Datum.Plain (timestampValue text) := by
  unfold timestampValue
  split
  · exact results_error _ _
  rename_i t _
  dsimp only
  split
  · rename_i d hd
    apply results_ok
    obtain ⟨date, -, hd⟩ := Option.bind_eq_some_iff.1 hd
    split at hd
    · cases hd
      exact .date date
    · obtain ⟨moment, -, hd⟩ := Option.bind_eq_some_iff.1 hd
      cases hd
      exact .moment moment
  · exact results_error _ _

theorem plain_scalarValue (tag : Tag) (text : List Char) :
    Results Datum.Plain (scalarValue tag text) := by
  cases tag with
  | null => exact results_ok .null
  | bool => exact (results_any _).map fun _ _ => .bool _
  | int => exact (results_any _).map fun _ _ => .int _
  | float => exact (results_any _).map fun _ _ => .float _
  | binary => exact (results_any _).map fun _ _ => .bytes _
  | timestamp => exact plain_timestampValue text
  | str => exact results_ok (.text _)
  | _ => exact results_error _ _

theorem plain_denoteScalar (depth n : Nat) (node : Node) :
    Results Datum.Plain (denoteScalar depth n node) :=
  ((results_any _).bind fun _ _ => plain_scalarValue _ _).mapError

theorem plain_denoteKey (depth n : Nat) (node : Node) :
    Results Datum.Plain (denoteKey depth n node) := by
  unfold denoteKey
  split
  · exact results_error _ _
  · exact plain_denoteScalar depth n node

theorem results_both {α β : Type} {P : α → Prop} {Q : β → Prop} {r : Except DeepFault α}
    {s : Except DeepFault β} (hr : Results P r) (hs : Results Q s) :
    Results (fun p => P p.1 ∧ Q p.2) (both r s) := by
  cases r with
  | error e => cases s <;> exact results_error _ _
  | ok a =>
    cases s with
    | error e => exact results_error _ _
    | ok b => exact results_ok ⟨hr a rfl, hs b rfl⟩

theorem results_allOf {α : Type} {P : α → Prop} {rs : List (Except DeepFault α)}
    (h : ∀ r ∈ rs, Results P r) : Results (fun as => ∀ a ∈ as, P a) (allOf rs) := by
  induction rs with
  | nil => exact results_ok (by simp)
  | cons r rs ih =>
    obtain ⟨hr, hrs⟩ := List.forall_mem_cons.1 h
    exact (results_both hr (ih hrs)).map fun _ hp => List.forall_mem_cons.2 hp

theorem results_allOf_map {α β : Type} {P : β → Prop} {f : α → Except DeepFault β} (as : List α)
    (h : ∀ a, Results P (f a)) : Results (fun bs => ∀ b ∈ bs, P b) (allOf (as.map f)) := by
  apply results_allOf
  intro r hr
  obtain ⟨a, -, rfl⟩ := List.mem_map.1 hr
  exact h a

/-- What nodes, tables and pairs denote is plain at every count. -/
theorem plain_parts (n : Nat) :
    (∀ depth node, Results Datum.Plain (denote n depth node)) ∧
      (∀ depth entries, Results (fun t => ∀ e ∈ t.entries, PlainEntry e)
        (denoteTable n depth entries)) ∧
      ∀ depth node, Results Datum.Plain (denotePair n depth node) := by
  induction n with
  | zero =>
    exact ⟨fun _ _ => results_error _ _, fun _ _ => results_error _ _, fun _ _ => results_error _ _⟩
  | succ n ih =>
    obtain ⟨hnode, htable, hpair⟩ := ih
    refine ⟨fun depth node => ?_, fun depth entries => ?_, fun depth node => ?_⟩
    · unfold denote
      dsimp only
      split
      · exact (results_allOf_map _ (hnode _)).map fun _ h => .list h
      · exact results_error _ _
      · exact (htable _ _).map fun _ h => plain_ofTable h
      · exact results_error _ _
      · refine (htable _ _).map fun t h => .set fun d hd => ?_
        obtain ⟨e, he, rfl⟩ := List.mem_map.1 hd
        exact (h e he).1
      · exact results_error _ _
      · exact (results_allOf_map _ (hpair _)).map fun _ h => .list h
      · exact results_error _ _
      · exact (results_allOf_map _ (hpair _)).map fun _ h => .list h
      · exact results_error _ _
      · exact plain_denoteScalar _ _ _
    · unfold denoteTable
      refine (results_any _).bind fun entries _ => ?_
      refine (results_allOf_map entries fun e => ?_).bind fun es hes =>
        results_ok (Table.forall_entries_ofList hes)
      exact results_both (plain_denoteKey depth n e.1) (hnode depth e.2)
    · unfold denotePair
      refine (results_any _).bind fun e _ => ?_
      refine (results_both (hnode depth e.1) (hnode depth e.2)).bind fun p hp => ?_
      exact results_ok (.tuple (by simpa using hp))

theorem plain_read (text : String) : Results Datum.Plain (read text) := by
  unfold read
  refine (results_any _).bind fun node _ => ?_
  cases node with
  | none => exact results_ok .null
  | some node => exact ((plain_parts _).1 _ _).mapError

end Yaml

end Lifecycle
