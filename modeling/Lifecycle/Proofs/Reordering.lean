import Lifecycle.Proofs.Reading
import Lifecycle.Transition

/-!
# The order in which statuses are declared

The order of the statuses in a document decides the order in which they are displayed, and nothing
else. Two definitions that differ at most in order (`Definition.Shuffled`) look up the same under
every key, lead along the same paths and answer alike; what they list has the same members
(`Definition.SameButOrder`). A document with its statuses in another order is read into such a
definition, or is refused too (`Definition.order_immaterial`).
-/

namespace Lifecycle

namespace Table

variable {κ ν : Type} [BEq κ] {t u : Table κ ν}

theorem get?_eq_some_iff (hexact : ∀ e ∈ t.entries, Exact e.1) {k : κ} {v : ν} :
    t.get? k = some v ↔ (k, v) ∈ t.entries := by
  constructor
  · intro h
    obtain ⟨e, he, hek, rfl⟩ := exists_entry_of_get? h
    obtain rfl := (hexact e he k).2.1 hek
    exact he
  · intro h
    exact get?_of_mem_entries ((hexact _ h k).1.2 rfl) h

/-- A look-up under exact keys does not depend on their order. -/
theorem get?_eq_of_perm (hexact : ∀ e ∈ t.entries, Exact e.1) (h : t.entries.Perm u.entries)
    (k : κ) : t.get? k = u.get? k := by
  have hexact' : ∀ e ∈ u.entries, Exact e.1 := fun e he => hexact e (h.mem_iff.2 he)
  ext v
  rw [get?_eq_some_iff hexact, get?_eq_some_iff hexact', h.mem_iff]

end Table

namespace Definition

/-! ## Definitions that differ at most in order -/

/-- The same initial status and name, the same statuses in some order, and tables of labels that
hold the same. -/
structure Shuffled (d d' : Definition) : Prop where
  initial : d.initial = d'.initial
  name : d.name = d'.name
  statuses : d.statuses.entries.Perm d'.statuses.entries
  label : ∀ action s, (d.labelTable action).get? s = (d'.labelTable action).get? s

variable {d d' : Definition}

section Shuffled

variable (h : Shuffled d d')
include h

theorem Shuffled.statusIds : d.statusIds.Perm d'.statusIds := h.statuses.map Prod.fst

theorem Shuffled.statusesWhere (p : Datum → Node → Bool) :
    (d.statusesWhere p).Perm (d'.statusesWhere p) :=
  (h.statuses.filter _).map Prod.fst

theorem Shuffled.labelIn (action : Bool) (s : Datum) : d.labelIn action s = d'.labelIn action s := by
  have hlabel := congrArg (Option.getD · Datum.null) (h.label action s)
  cases action <;> exact hlabel

theorem Shuffled.labelOf (action : Bool) (s : Datum) : d.labelOf action s = d'.labelOf action s := by
  rw [labelOf_eq, labelOf_eq]
  simp only [h.label]

theorem Shuffled.contains_labelTable (action : Bool) (s : Datum) :
    (d.labelTable action).contains s = (d'.labelTable action).contains s := by
  rw [← Table.isSome_get?, ← Table.isSome_get?, h.label]

theorem Shuffled.totalEdges : d.totalEdges = d'.totalEdges := by
  rw [totalEdges_eq_sum, totalEdges_eq_sum]
  exact (h.statuses.map _).sum_eq

variable (hids : d.TextIds)
include hids

theorem Shuffled.get? (s : Datum) : d.statuses.get? s = d'.statuses.get? s := by
  apply Table.get?_eq_of_perm _ h.statuses
  intro e he
  obtain ⟨t, ht⟩ := hids e.1 (List.mem_map_of_mem he)
  rw [ht]
  exact Table.exact_text t

theorem Shuffled.declares (s : Datum) : d.declares s = d'.declares s := by
  unfold Definition.declares
  rw [← Table.isSome_get?, ← Table.isSome_get?, h.get? hids]

theorem Shuffled.node (s : Datum) : d.node s = d'.node s := by
  have hget : d.statuses.get? = d'.statuses.get? := funext (h.get? hids)
  unfold Definition.node
  rw [hget]

theorem Shuffled.hasStatus (s : Datum) : d.hasStatus s = d'.hasStatus s := by
  have hdeclares : d.declares = d'.declares := funext (h.declares hids)
  unfold Definition.hasStatus
  rw [hdeclares]

theorem Shuffled.isTerminal (s : Datum) : d.isTerminal s = d'.isTerminal s := by
  unfold Definition.isTerminal
  rw [h.node hids]

/-! ## Transitions -/

section Acts

variable {σ : Type} {status previous next : Datum} {isNew : Bool}

theorem Shuffled.transitionsFrom :
    (d.transitionsFrom status : Act σ Targets) = d'.transitionsFrom status := by
  unfold Definition.transitionsFrom
  rw [h.node hids]

theorem Shuffled.require :
    (Transition.require d previous next : Act σ Unit) = Transition.require d' previous next := by
  unfold Transition.require
  rw [h.hasStatus hids, h.transitionsFrom hids, h.name]

theorem Shuffled.validate : (Transition.validate d previous next isNew : Act σ Unit) =
    Transition.validate d' previous next isNew := by
  unfold Transition.validate
  rw [h.require hids, h.name]

theorem Shuffled.check : (Transition.check d previous next : Act σ (Bool × String)) =
    Transition.check d' previous next := by
  unfold Transition.check
  rw [h.validate hids]

theorem Shuffled.isPermitted : (Transition.isPermitted d previous next : Act σ Bool) =
    Transition.isPermitted d' previous next := by
  unfold Transition.isPermitted
  rw [h.check hids]

end Acts

theorem Shuffled.inOrder (targets : Targets) : (d.inOrder targets).Perm (d'.inOrder targets) := by
  unfold Definition.inOrder
  simp only [h.declares hids]
  exact (h.statusIds.filter _).append_right _

/-! ## Audits -/

theorem Shuffled.path {s t : Datum} : d.statuses.Path s t ↔ d'.statuses.Path s t := by
  have hedge : d.statuses.Edge = d'.statuses.Edge := by
    funext s t
    unfold Statuses.Edge Statuses.successors
    rw [h.get? hids]
  unfold Statuses.Path
  rw [hedge]

theorem Shuffled.contains_reachedFrom (s : Datum) :
    (d.statuses.reachedFrom d.initial).contains s =
      (d'.statuses.reachedFrom d'.initial).contains s := by
  rw [Bool.eq_iff_iff, contains_reachedFrom_iff, contains_reachedFrom_iff]
  unfold Reaches
  simp only [h.path hids, h.initial]

end Shuffled

/-- The same results, or the same failure, where a list of results counts by its members. -/
inductive SameMembers {α : Type} : Except Failure (List α) → Except Failure (List α) → Prop
  | ok {items items' : List α} (h : items.Perm items') : SameMembers (.ok items) (.ok items')
  | error (e : Failure) : SameMembers (.error e) (.error e)

end Definition

/-- Two reports that differ at most in the order of what they list. -/
structure Report.SameButOrder (r r' : Report) : Prop where
  name : r.name = r'.name
  totalStatuses : r.totalStatuses = r'.totalStatuses
  totalEdges : r.totalEdges = r'.totalEdges
  passed : r.passed = r'.passed
  unreachable : r.unreachable.Perm r'.unreachable
  terminal : r.terminal.Perm r'.terminal
  selfLoops : r.selfLoops.Perm r'.selfLoops
  deferred : r.deferred.Perm r'.deferred
  missingLabels : r.missingLabels.Perm r'.missingLabels
  missingActionLabels : r.missingActionLabels.Perm r'.missingActionLabels
  violations : Definition.SameMembers r.violations r'.violations

namespace Report

variable {r r' : Report}

theorem passed_eq_of_perm (hunreachable : r.unreachable.Perm r'.unreachable)
    (hloops : r.selfLoops.Perm r'.selfLoops) : r.passed = r'.passed := by
  unfold passed
  rw [hunreachable.isEmpty_eq, hloops.isEmpty_eq]

theorem sameMembers_violations (hunreachable : r.unreachable.Perm r'.unreachable)
    (hloops : r.selfLoops.Perm r'.selfLoops) :
    Definition.SameMembers r.violations r'.violations := by
  rw [violations_eq, violations_eq, (hunreachable.append hloops).all_eq]
  split
  · exact .ok ((hunreachable.map _).append (hloops.map _))
  · exact .error _

end Report

namespace Definition

variable {d d' : Definition}

theorem Shuffled.audit (h : Shuffled d d') (hids : d.TextIds) (hrules : d.Supported) :
    ∃ r r', d.audit = .ok r ∧ d'.audit = .ok r' ∧ r.SameButOrder r' := by
  have hrules' : d'.Supported := fun e he => hrules e (h.statuses.mem_iff.2 he)
  have hreached : (d.statuses.reachedFrom d.initial).contains =
      (d'.statuses.reachedFrom d'.initial).contains := funext (h.contains_reachedFrom hids)
  have hdeferred (p : Datum → Bool) : (d.statusesWhere fun _ n => n.rule.isDeferred).any p =
      (d'.statusesWhere fun _ n => n.rule.isDeferred).any p :=
    (h.statusesWhere fun _ n => n.rule.isDeferred).any_eq
  -- The search goes another way but finds the same, so that either report cuts the statuses down by
  -- the same properties.
  unfold Definition.audit
  rw [unsupportedRule?_eq_none_iff.2 hrules, unsupportedRule?_eq_none_iff.2 hrules']
  dsimp only
  rw [hreached, hdeferred]
  refine ⟨_, _, rfl, rfl, ?_⟩
  have hunreachable (b : Bool) (p : Datum → Bool) :
      (if b then [] else d.statusIds.filter p).Perm (if b then [] else d'.statusIds.filter p) := by
    cases b with
    | true => exact .nil
    | false => exact h.statusIds.filter p
  have hloops := h.statusesWhere fun s n => (n.rule.staticTargets.map Datum.text).contains s
  have hmissing (action : Bool) : (d.statusIds.filter fun s => !(d.labelTable action).contains s).Perm
      (d'.statusIds.filter fun s => !(d'.labelTable action).contains s) := by
    simp only [h.contains_labelTable]
    exact h.statusIds.filter _
  exact {
    name := h.name
    totalStatuses := h.statuses.length_eq
    totalEdges := h.totalEdges
    passed := Report.passed_eq_of_perm (hunreachable _ _) hloops
    unreachable := hunreachable _ _
    terminal := h.statusesWhere fun _ n => n.rule.isTerminal
    selfLoops := hloops
    deferred := h.statusesWhere fun _ n => n.rule.isDeferred
    missingLabels := hmissing false
    missingActionLabels := hmissing true
    violations := Report.sameMembers_violations (hunreachable _ _) hloops }

/-! ## What is observed -/

/-- The definitions answer alike, and what they list has the same members. -/
structure SameButOrder (d d' : Definition) : Prop where
  initial : d.initial = d'.initial
  name : d.name = d'.name
  node : ∀ s, d.node s = d'.node s
  hasStatus : ∀ s, d.hasStatus s = d'.hasStatus s
  isTerminal : ∀ s, d.isTerminal s = d'.isTerminal s
  labelOf : ∀ action s, d.labelOf action s = d'.labelOf action s
  label : ∀ action s, (d.labelTable action).get? s = (d'.labelTable action).get? s
  transitionsFrom : ∀ (σ : Type) (s : Datum),
    (d.transitionsFrom s : Act σ Targets) = d'.transitionsFrom s
  validate : ∀ (σ : Type) (previous next : Datum) (isNew : Bool),
    (Transition.validate d previous next isNew : Act σ Unit) =
      Transition.validate d' previous next isNew
  check : ∀ (σ : Type) (previous next : Datum),
    (Transition.check d previous next : Act σ (Bool × String)) = Transition.check d' previous next
  isPermitted : ∀ (σ : Type) (previous next : Datum),
    (Transition.isPermitted d previous next : Act σ Bool) = Transition.isPermitted d' previous next
  statusIds : d.statusIds.Perm d'.statusIds
  orderedTransitions : ∀ (σ : Type) (status : Datum) (ps : Producers) (j : Journal) (s : σ),
    let outcome := (d.orderedTransitions status).run ps j s
    let outcome' := (d'.orderedTransitions status).run ps j s
    SameMembers outcome.1 outcome'.1 ∧ outcome.2 = outcome'.2
  choices : ∀ action, SameMembers (d.labelEach action d.statusIds) (d'.labelEach action d'.statusIds)
  audit : ∃ r r', d.audit = .ok r ∧ d'.audit = .ok r' ∧ r.SameButOrder r'

theorem Shuffled.orderedTransitions {σ : Type} (h : Shuffled d d') (hids : d.TextIds)
    (status : Datum) (ps : Producers) (j : Journal) (s : σ) :
    let outcome := (d.orderedTransitions status).run ps j s
    let outcome' := (d'.orderedTransitions status).run ps j s
    SameMembers outcome.1 outcome'.1 ∧ outcome.2 = outcome'.2 := by
  intro outcome outcome'
  simp only [outcome, outcome', Definition.orderedTransitions, Act.run_bind, h.transitionsFrom hids]
  rcases (d'.transitionsFrom status).run ps j s with ⟨e | targets, j', s'⟩
  · exact ⟨.error e, rfl⟩
  · exact ⟨.ok (h.inOrder hids targets), rfl⟩

theorem Shuffled.choices (h : Shuffled d d') (hids : d.TextIds) (action : Bool) :
    SameMembers (d.labelEach action d.statusIds) (d'.labelEach action d'.statusIds) := by
  have hids' : d'.TextIds := fun s hs => hids s (h.statusIds.mem_iff.2 hs)
  rw [labelEach_of_texts hids, labelEach_of_texts hids']
  simp only [h.labelIn]
  exact .ok (h.statusIds.map _)

theorem Shuffled.sameButOrder (h : Shuffled d d') (hids : d.TextIds) (hrules : d.Supported) :
    SameButOrder d d' where
  initial := h.initial
  name := h.name
  node := h.node hids
  hasStatus := h.hasStatus hids
  isTerminal := h.isTerminal hids
  labelOf := h.labelOf
  label := h.label
  transitionsFrom _ _ := h.transitionsFrom hids
  validate _ _ _ _ := h.validate hids
  check _ _ _ := h.check hids
  isPermitted _ _ _ := h.isPermitted hids
  statusIds := h.statusIds
  orderedTransitions _ := h.orderedTransitions hids
  choices := h.choices hids
  audit := h.audit hids hrules

/-! ## Entries in another order -/

section Entries

variable {entries entries' : List (Datum × Datum)} {L A : Labels}
  {document document' initial : Datum}

/-- Where no two entries have one text, all of them are kept. -/
theorem entries_statusesOf (h : (ids entries).Nodup) (L A : Labels) :
    (statusesOf L A entries).entries =
      entries.map fun e => (.text e.1.form, nodeOf L A e) := by
  apply Table.entries_putAll_of_distinct (t := .empty)
  change (entries.map _).Pairwise _
  rw [List.pairwise_map]
  refine (List.pairwise_map.1 h).imp fun hne => ?_
  rw [Datum.beq_text]
  exact beq_false_of_ne hne

/-- Then every entry counts. -/
theorem last_iff_mem (h : (ids entries).Nodup) {e : Datum × Datum} :
    Last entries e ↔ e ∈ entries := by
  constructor
  · exact Last.mem
  · intro he
    obtain ⟨before, after, rfl⟩ := List.append_of_mem he
    refine ⟨before, after, rfl, fun e' he' heq => ?_⟩
    unfold ids at h
    rw [List.map_append, List.map_cons] at h
    have hnew := (List.nodup_cons.1 (List.nodup_append.1 h).2.1).1
    exact hnew (heq ▸ List.mem_map_of_mem he')

variable (hperm : entries.Perm entries') (hdistinct : (ids entries).Nodup)
include hperm

theorem ids_perm : (ids entries).Perm (ids entries') := hperm.map _

theorem identifier_of_perm (hlocated : Located document initial entries)
    (hlocated' : Located document' initial entries') {x : Datum} (h : Identifier document' x) :
    Identifier document x := by
  cases h with
  | initial h =>
    obtain ⟨rfl, -⟩ := hlocated'.unique h
    exact .initial hlocated
  | key h he =>
    obtain ⟨-, rfl⟩ := hlocated'.unique h
    exact .key hlocated (hperm.mem_iff.2 he)
  | target h he hstates hlists hitem =>
    obtain ⟨-, rfl⟩ := hlocated'.unique h
    exact .target hlocated (hperm.mem_iff.2 he) hstates hlists hitem

include hdistinct

theorem edge_of_perm {source target : String} (h : Edge entries' source target) :
    Edge entries source target := by
  obtain ⟨hlast, hstates, htarget⟩ := h
  exact .intro ((last_iff_mem hdistinct).2 (hperm.mem_iff.2 hlast.mem)) hstates htarget

theorem wellFormed_of_perm (hlocated : Located document initial entries)
    (hlocated' : Located document' initial entries') (h : WellFormed document) :
    WellFormed document' := by
  obtain ⟨initial₀, entries₀, hshaped, hsound⟩ := h
  obtain ⟨rfl, rfl⟩ := hshaped.located.unique hlocated
  refine ⟨initial₀, entries', ⟨hlocated', hshaped.truthy, ?_, ?_, ?_, ?_⟩, ?_⟩
  · rintro rfl
    exact hshaped.nonempty hperm.eq_nil
  · exact fun e he => hshaped.readable e (hperm.mem_iff.2 he)
  · exact fun x hx => hshaped.written x (identifier_of_perm hperm hlocated hlocated' hx)
  · exact (ids_perm hperm).mem_iff.1 hshaped.declared
  · intro source target hdangling
    refine hsound source target ⟨edge_of_perm hperm hdistinct hdangling.edge, ?_⟩
    exact mt (ids_perm hperm).mem_iff.1 hdangling.undeclared

end Entries

/-! ## Documents with their statuses in another order -/

/-- The other document has the same statuses in another order. No two of them have one text. -/
inductive Reordered : Datum → Datum → Prop
  | intro {fields statuses statuses' : List (Datum × Datum)}
      (h : Under (.ofList fields) "statuses" "status" (.map statuses))
      (hdistinct : (ids (Table.ofList statuses).entries).Nodup)
      (hperm : (Table.ofList statuses).entries.Perm (Table.ofList statuses').entries) :
      Reordered (.map fields)
        (.map (amendField (fun _ => .map statuses') "statuses" "status" fields))

variable {document document' labels actionLabels name : Datum}

theorem Reordered.exists_located (h : Reordered document document') :
    ∃ initial entries entries', Located document initial entries ∧
      Located document' initial entries' ∧ entries.Perm entries' ∧ (ids entries).Nodup := by
  obtain ⟨h, hdistinct, hperm⟩ := h
  rename_i fields statuses statuses'
  let fields' := amendField (fun _ => .map statuses') "statuses" "status" fields
  have hinitial : field (.ofList fields') "initial_status" "initialStatus" =
      field (.ofList fields) "initial_status" "initialStatus" :=
    field_amendField_of_ne _ (by decide) (by decide)
  have hstatuses : field (.ofList fields') "statuses" "status" = .map statuses' :=
    field_amendField _ h (.inl nofun)
  exact ⟨_, _, _, .intro (under_iff.2 rfl) h, .intro (under_iff.2 hinitial) (under_iff.2 hstatuses),
    hperm, hdistinct⟩

theorem Reordered.nameIn_eq (h : Reordered document document') :
    nameIn document = nameIn document' := by
  obtain ⟨-, -, -⟩ := h
  exact congrArg (Option.getD · _) (get?_amendField_of_ne _ (by decide) (by decide)).symm

theorem Reordered.name_eq (h : Reordered document document') {d d' : Definition}
    (hd : ofDocument document labels actionLabels name = .ok d)
    (hd' : ofDocument document' labels actionLabels name = .ok d') : d.name = d'.name := by
  rw [name_of_ofDocument hd, name_of_ofDocument hd', h.nameIn_eq]

theorem Reordered.wellFormed_iff (h : Reordered document document') :
    WellFormed document ↔ WellFormed document' := by
  obtain ⟨initial, entries, entries', hlocated, hlocated', hperm, hdistinct⟩ := h.exists_located
  have hdistinct' : (ids entries').Nodup := (ids_perm hperm).nodup_iff.1 hdistinct
  exact ⟨wellFormed_of_perm hperm hdistinct hlocated hlocated',
    wellFormed_of_perm hperm.symm hdistinct' hlocated' hlocated⟩

theorem Reordered.shuffled (h : Reordered document document') {d d' : Definition}
    (hd : ofDocument document labels actionLabels name = .ok d)
    (hd' : ofDocument document' labels actionLabels name = .ok d') : Shuffled d d' := by
  obtain ⟨initial, entries, entries', hlocated, hlocated', hperm, hdistinct⟩ := h.exists_located
  obtain ⟨_, _, -, -, hshaped, hinitial, -⟩ := exists_shaped_of_ofDocument hd
  obtain ⟨_, _, -, -, hshaped', hinitial', -⟩ := exists_shaped_of_ofDocument hd'
  obtain ⟨rfl, rfl⟩ := hshaped.located.unique hlocated
  obtain ⟨rfl, rfl⟩ := hshaped'.located.unique hlocated'
  obtain ⟨given, hgiven, hover⟩ := exists_labelsOver hd hshaped
  obtain ⟨given', hgiven', hover'⟩ := exists_labelsOver hd' hshaped'
  obtain rfl : given = given' :=
    funext fun action => Except.ok.inj ((hgiven action).symm.trans (hgiven' action))
  have hstatuses : d.statuses.entries.Perm d'.statuses.entries := by
    rw [hover.statuses, hover'.statuses, entries_statusesOf hdistinct,
      entries_statusesOf ((ids_perm hperm).nodup_iff.1 hdistinct)]
    exact hperm.map _
  refine ⟨hinitial.trans hinitial'.symm, h.name_eq hd hd', hstatuses, fun action s => ?_⟩
  have hexact := exact_of_labelsOver hover
  rw [hover.labelTable, hover'.labelTable, get?_putAll_nodeLabels (.inr hexact),
    get?_putAll_nodeLabels (.inr (exact_of_labelsOver hover')),
    Table.get?_eq_of_perm hexact hstatuses]

/-- A document and the same with its statuses in another order are both refused, or are read into
definitions that answer alike and list the same. -/
theorem order_immaterial (h : Reordered document document') (hlabels : LabelTable labels)
    (hactions : LabelTable actionLabels) (name : Datum) :
    let read := fun document => ofDocument document labels actionLabels name
    (∃ d d', read document = .ok d ∧ read document' = .ok d' ∧ SameButOrder d d') ∨
      Refused document name (read document) ∧ Refused document' name (read document') := by
  intro read
  by_cases hwell : WellFormed document
  · obtain ⟨d, hd⟩ := (exists_ofDocument_iff hlabels hactions name).2 hwell
    obtain ⟨d', hd'⟩ := (exists_ofDocument_iff hlabels hactions name).2 (h.wellFormed_iff.1 hwell)
    have hcoherent := coherent_of_ofDocument hd
    exact .inl ⟨d, d', hd, hd',
      (h.shuffled hd hd').sameButOrder hcoherent.textIds hcoherent.supported⟩
  · exact .inr ⟨refused_of_not_wellFormed hlabels hactions name hwell,
      refused_of_not_wellFormed hlabels hactions name (mt h.wellFormed_iff.2 hwell)⟩

/-- Statuses on a cycle, one with a deferred rule and one that nothing leads to. -/
def parcelStatuses : List (Datum × Datum) :=
  [(.text "lost", .list [.text "packed"]), (.text "packed", .tuple [.int 1, .text "packed"]),
    (.int 1, .map [(.text "transitions", .list [.text "packed"]), (.text "label", .text "One")]),
    (.text "sent", .producer ⟨0⟩)]

def parcelDocument (statuses : List (Datum × Datum)) : Datum :=
  .map [(.text "initialStatus", .text "packed"), (.text "status", .map statuses)]

theorem parcel_order_immaterial :
    let labels : Datum := .map [(.text "sent", .text "Sent"), (.text "away", .null)]
    ∃ d d', ofDocument (parcelDocument parcelStatuses) labels .null .null = .ok d ∧
      ofDocument (parcelDocument parcelStatuses.reverse) labels .null .null = .ok d' ∧
      d.statusIds = [.text "lost", .text "packed", .text "1", .text "sent"] ∧
      d'.statusIds = [.text "sent", .text "1", .text "packed", .text "lost"] ∧
      SameButOrder d d' := by
  intro labels
  have hstatuses : (Table.ofList parcelStatuses).entries = parcelStatuses := rfl
  have hreversed : (Table.ofList parcelStatuses.reverse).entries = parcelStatuses.reverse := rfl
  have htexts : ids parcelStatuses = ["lost", "packed", "1", "sent"] := rfl
  have hdistinct : (ids (Table.ofList parcelStatuses).entries).Nodup := by
    rw [hstatuses, htexts]
    decide
  have hperm : (Table.ofList parcelStatuses).entries.Perm
      (Table.ofList parcelStatuses.reverse).entries := by
    rw [hstatuses, hreversed]
    exact (List.reverse_perm _).symm
  have hreordered : Reordered (parcelDocument parcelStatuses)
      (parcelDocument parcelStatuses.reverse) := .intro (.second rfl rfl) hdistinct hperm
  obtain ⟨d, hd, hids⟩ : ∃ d, ofDocument (parcelDocument parcelStatuses) labels .null .null =
      .ok d ∧ d.statusIds = [.text "lost", .text "packed", .text "1", .text "sent"] :=
    ⟨_, rfl, rfl⟩
  obtain ⟨d', hd', hids'⟩ : ∃ d', ofDocument (parcelDocument parcelStatuses.reverse) labels .null
      .null = .ok d' ∧ d'.statusIds = [.text "sent", .text "1", .text "packed", .text "lost"] :=
    ⟨_, rfl, rfl⟩
  refine ⟨d, d', hd, hd', hids, hids', ?_⟩
  rcases order_immaterial hreordered (.map _) .null .null with ⟨_, _, h, h', hsame⟩ | ⟨hrefused, -⟩
  · cases hd.symm.trans h
    cases hd'.symm.trans h'
    exact hsame
  · exact absurd hd (hrefused.not_ok d)

/-- A document and the same with its statuses in another order can be neither read nor both at fault
as definitions. -/
theorem exists_reordered_unread : ∃ document document', Reordered document document' ∧
    let read := fun document => ofDocument document (.map []) (.map []) .null
    (∀ d, read document ≠ .ok d) ∧ (∀ d, read document' ≠ .ok d) ∧
      ¬ ((∃ fault, read document = .error (.definition fault)) ∧
        ∃ fault, read document' = .error (.definition fault)) := by
  have hstatuses : (Table.ofList longStatuses).entries = longStatuses := rfl
  have hreversed : (Table.ofList longStatuses.reverse).entries = longStatuses.reverse := rfl
  have htexts : ids longStatuses = ["draft", "paid"] := rfl
  have hdistinct : (ids (Table.ofList longStatuses).entries).Nodup := by
    rw [hstatuses, htexts]
    decide
  have hperm : (Table.ofList longStatuses).entries.Perm
      (Table.ofList longStatuses.reverse).entries := by
    rw [hstatuses, hreversed]
    exact (List.reverse_perm _).symm
  have hreordered : Reordered (longDocument "initial_status" longStatuses)
      (longDocument "initial_status" longStatuses.reverse) := .intro (.first rfl) hdistinct hperm
  refine ⟨_, _, hreordered, ?_⟩
  dsimp only
  rw [unread_of_longStatuses (located_longDocument _) (.refl _),
    unread_of_longStatuses (located_longDocument _) hperm.symm]
  exact ⟨nofun, nofun, nofun⟩

end Definition

end Lifecycle
