import Lifecycle.Proofs.Run

/-!
# What a tracked object remembers

A tracked object remembers which attributes were read or written through it, in the order of their
first use, and what the snapshot taken last showed of those tracked by then. Over any run of uses
(`Tracked.Use`) the attributes are found in the uses (`Tracked.firstUsed`), and the snapshot in the
object as it was when it was marked as persisted last (`Tracked.MarkedLast`): whatever was read,
written or changed afterwards does not show (`Tracked.remembers_last_mark`).
-/

namespace Lifecycle

namespace Tracked

variable {t : Tracked} {name other : String}

/-! ## Tracking and marking -/

theorem tracked_track (t : Tracked) (name : String) :
    (t.track name).tracked = if name ∈ t.tracked then t.tracked else t.tracked ++ [name] := by
  unfold track
  by_cases h : name ∈ t.tracked
  · rw [if_pos (List.contains_iff_mem.2 h), if_pos h]
  · rw [if_neg (mt List.contains_iff_mem.1 h), if_neg h]

theorem track_of_mem (h : name ∈ t.tracked) : t.track name = t := by
  unfold track
  rw [if_pos (List.contains_iff_mem.2 h)]

theorem mem_track_iff : other ∈ (t.track name).tracked ↔ other ∈ t.tracked ∨ other = name := by
  rw [tracked_track]
  split
  · rename_i h
    constructor
    · exact .inl
    · rintro (hother | rfl)
      · exact hother
      · exact h
  · rw [List.mem_append, List.mem_singleton]

theorem object_track (t : Tracked) (name : String) : (t.track name).object = t.object := by
  unfold track
  split <;> rfl

theorem snapshot_track (t : Tracked) (name : String) : (t.track name).snapshot = t.snapshot := by
  unfold track
  split <;> rfl

/-- What is persisted is what the snapshot shows. -/
theorem persistedValue_congr {t u : Tracked} (h : t.snapshot = u.snapshot) (name : String) :
    t.persistedValue name = u.persistedValue name := by
  unfold persistedValue
  rw [h]

theorem persistedValue_track (t : Tracked) (name other : String) :
    (t.track name).persistedValue other = t.persistedValue other :=
  persistedValue_congr (snapshot_track t name) other

/-- A snapshot holds the value of each tracked attribute, and of no other. -/
theorem persistedValue_markPersisted (t : Tracked) (name : String) :
    t.markPersisted.persistedValue name = if name ∈ t.tracked then t.value name else .null := by
  change ((Table.ofList (t.tracked.map fun name => (name, t.value name))).get? name).getD .null = _
  by_cases h : name ∈ t.tracked
  · rw [Table.get?_ofList_map (Table.exact_of_lawful name) h, if_pos h]
    rfl
  · have hnone : (Table.ofList (t.tracked.map fun name => (name, t.value name))).get? name =
        none := by
      rw [Table.get?_eq_none_iff, ← Bool.not_eq_true,
        Table.contains_ofList_iff (Table.exact_of_lawful name)]
      rintro ⟨e, he, rfl⟩
      obtain ⟨name', hname', rfl⟩ := List.mem_map.1 he
      exact h hname'
    rw [hnone, if_neg h]
    rfl

/-! ## Uses of a tracked object -/

/-- Something that is done with a tracked object: an access to it as an entity, a mark that it is
persisted, or a change of the object itself, which the tracking does not see and which may fail. An
attribute that does more when it is read or written is an access with a change after it. -/
inductive Use where
  | read (name : String)
  | write (name : String) (value : Datum)
  | hasField (kind : Option String) (name : String)
  | persisted (name : String)
  | isNew
  | mark
  | change (f : Object → Except Failure Object)

namespace Use

/-- A use, as the act that it is. -/
def act : Use → Act (Session Tracked) Answer
  | .read name => return .datum (← Session.readField name)
  | .write name value => do
    Session.writeField name value
    return .nothing
  | .hasField kind name => return .truth (← Session.ask fun t => Accessor.hasField t kind name)
  | .persisted name => return .datum (← Session.ask fun t => Accessor.persisted t name)
  | .isNew => return .truth (← Session.ask fun t => Accessor.isNew t)
  | .mark => do
    Session.change Tracked.markPersisted
    return .nothing
  | .change f => do
    Session.changeOr fun t => (f t.object).map fun o => { t with object := o }
    return .nothing

/-- What a use makes of the tracked object. A write tracks the attribute even if the object refuses
the value. -/
def effect (t : Tracked) : Use → Tracked
  | .read name => t.track name
  | .write name value => (t.write name value).2
  | .mark => t.markPersisted
  | .change f => match f t.object with
    | .ok o => { t with object := o }
    | .error _ => t
  | _ => t

theorem entity_run (use : Use) (ps : Producers) (j : Journal) (s : Session Tracked) :
    (use.act.run ps j s).2.2.entity = use.effect s.entity := by
  cases use with
  | write name value =>
    simp only [act, Session.writeField, Act.run_bind, Act.run_getState, Act.run_setState,
      Act.run_ofExcept]
    cases (Accessor.write name value s.entity).1 <;> rfl
  | change f =>
    simp only [act, Session.changeOr, Act.run_bind, Act.run_getState, Act.run_ofExcept, effect]
    cases f s.entity.object <;> rfl
  | _ => rfl

/-- The attribute that a use reads or writes, if it does. -/
def name? : Use → Option String
  | .read name => some name
  | .write name _ => some name
  | _ => none

theorem tracked_effect (use : Use) (t : Tracked) :
    (use.effect t).tracked = match use.name? with
      | some name => (t.track name).tracked
      | none => t.tracked := by
  cases use with
  | write name value =>
    change (t.write name value).2.tracked = (t.track name).tracked
    unfold Tracked.write
    dsimp only
    cases (t.track name).object.set name value <;> rfl
  | change f =>
    simp only [effect]
    cases f t.object <;> rfl
  | _ => rfl

/-- Only a mark takes a snapshot. -/
theorem snapshot_effect {use : Use} (h : use ≠ .mark) (t : Tracked) :
    (use.effect t).snapshot = t.snapshot := by
  cases use with
  | read name => exact snapshot_track t name
  | write name value =>
    change (t.write name value).2.snapshot = t.snapshot
    unfold Tracked.write
    dsimp only
    cases (t.track name).object.set name value with
    | ok o => exact snapshot_track t name
    | error e => exact snapshot_track t name
  | mark => exact absurd rfl h
  | change f =>
    simp only [effect]
    cases f t.object <;> rfl
  | _ => rfl

end Use

/-! ## Runs of uses -/

/-- The tracked object after uses in a row, whatever their outcomes. -/
def afterUses (ps : Producers) (j : Journal) (t : Tracked) (uses : List Use) : Tracked :=
  (Act.after ps (uses.map Use.act) (j, Session.start t)).2.entity

variable {ps : Producers} {j : Journal} {uses : List Use}

theorem afterUses_eq_foldl (ps : Producers) (j : Journal) (t : Tracked) (uses : List Use) :
    afterUses ps j t uses = uses.foldl Use.effect t := by
  have hrun (x : Journal × Session Tracked) :
      (Act.after ps (uses.map Use.act) x).2.entity = uses.foldl Use.effect x.2.entity := by
    induction uses generalizing x with
    | nil => rfl
    | cons use uses ih =>
      rw [List.map_cons, Act.after_cons, ih, Use.entity_run, List.foldl_cons]
  exact hrun _

theorem afterUses_append (ps : Producers) (j : Journal) (t : Tracked) (before later : List Use) :
    afterUses ps j t (before ++ later) = later.foldl Use.effect (afterUses ps j t before) := by
  rw [afterUses_eq_foldl, afterUses_eq_foldl, List.foldl_append]

/-- The attributes besides the given ones that uses read or write, in the order of their first use.
-/
def firstUsed (given : List String) (uses : List Use) : List String :=
  ((uses.filterMap Use.name?).filter fun name => !given.contains name).eraseDups

theorem mem_firstUsed_iff {given : List String} :
    name ∈ firstUsed given uses ↔ name ∉ given ∧ ∃ use ∈ uses, use.name? = some name := by
  unfold firstUsed
  rw [List.mem_eraseDups, List.mem_filter, List.mem_filterMap, Bool.not_eq_true',
    ← Bool.not_eq_true, List.contains_iff_mem, and_comm]

theorem nodup_firstUsed (given : List String) (uses : List Use) :
    (firstUsed given uses).Nodup := by
  apply (Table.pairwise_idxOf_eraseDups _).imp
  rintro name _ hlt rfl
  exact Nat.lt_irrefl _ hlt

theorem firstUsed_concat (given : List String) (uses : List Use) (use : Use) :
    firstUsed given (uses ++ [use]) = match use.name? with
      | some name =>
        if name ∈ given ++ firstUsed given uses then firstUsed given uses
        else firstUsed given uses ++ [name]
      | none => firstUsed given uses := by
  cases hname : use.name? with
  | none =>
    unfold firstUsed
    rw [List.filterMap_append, List.filterMap_cons_none hname]
    simp
  | some name =>
    dsimp only
    by_cases hgiven : name ∈ given
    · rw [if_pos (List.mem_append_left _ hgiven)]
      unfold firstUsed
      rw [List.filterMap_append, List.filterMap_cons_some hname, List.filter_append]
      simp [hgiven]
    · have hnew : ([name].filter fun name => !given.contains name) = [name] := by simp [hgiven]
      have hmem : name ∈ given ++ firstUsed given uses ↔
          name ∈ (uses.filterMap Use.name?).filter fun name => !given.contains name := by
        unfold firstUsed
        rw [List.mem_append, List.mem_eraseDups]
        exact or_iff_right hgiven
      simp only [hmem]
      unfold firstUsed
      rw [List.filterMap_append, List.filterMap_cons_some hname, List.filterMap_nil,
        List.filter_append, hnew, Table.eraseDups_concat]

/-- After a run the attributes used are tracked behind those that were tracked before. -/
theorem tracked_foldl (t : Tracked) (uses : List Use) :
    (uses.foldl Use.effect t).tracked = t.tracked ++ firstUsed t.tracked uses := by
  induction uses using List.reverseRecOn with
  | nil => exact (List.append_nil _).symm
  | append_singleton uses use ih =>
    rw [List.foldl_append, List.foldl_cons, List.foldl_nil, Use.tracked_effect, firstUsed_concat]
    cases use.name? with
    | none => exact ih
    | some name =>
      dsimp only
      rw [tracked_track, ih]
      split
      · rfl
      · rw [List.append_assoc]

/-- Without a mark the snapshot stays. -/
theorem snapshot_foldl (t : Tracked) (h : .mark ∉ uses) :
    (uses.foldl Use.effect t).snapshot = t.snapshot := by
  induction uses generalizing t with
  | nil => rfl
  | cons use uses ih =>
    rw [List.foldl_cons, ih _ (mt (List.mem_cons_of_mem use) h)]
    exact Use.snapshot_effect (ne_of_mem_of_not_mem List.mem_cons_self h) t

/-! ## The last mark -/

/-- The tracked object as it was when it was marked as persisted last: in the run or, if it was
taken for persisted then, when the tracking began. -/
inductive MarkedLast (ps : Producers) (j : Journal) (o : Object) (given : List String)
    (persisted : Bool) : List Use → Tracked → Prop
  | begun {uses : List Use} (hpersisted : persisted = true) (hnone : .mark ∉ uses) :
      MarkedLast ps j o given persisted uses (create o given false)
  | marked {before later : List Use} (hnone : .mark ∉ later) :
      MarkedLast ps j o given persisted (before ++ .mark :: later)
        (afterUses ps j (create o given persisted) before)

variable {o : Object} {given : List String} {persisted : Bool}

theorem never_or_markedLast (ps : Producers) (j : Journal) (o : Object) (given : List String)
    (persisted : Bool) (uses : List Use) :
    (persisted = false ∧ .mark ∉ uses) ∨ ∃ t, MarkedLast ps j o given persisted uses t := by
  by_cases hmark : .mark ∈ uses
  · -- The last mark is the first one from behind.
    obtain ⟨later, before, hsplit, hlater⟩ := List.eq_append_cons_of_mem (List.mem_reverse.2 hmark)
    have huses : uses = before.reverse ++ .mark :: later.reverse := by
      rw [← List.reverse_reverse uses, hsplit]
      simp
    rw [huses]
    exact .inr ⟨_, .marked (mt List.mem_reverse.1 hlater)⟩
  · cases persisted with
    | false => exact .inl ⟨rfl, hmark⟩
    | true => exact .inr ⟨_, .begun rfl hmark⟩

/-- The snapshot is still the one that was taken with the last mark. -/
theorem MarkedLast.snapshot (h : MarkedLast ps j o given persisted uses t) :
    (afterUses ps j (create o given persisted) uses).snapshot = t.markPersisted.snapshot := by
  cases h with
  | begun hpersisted hnone =>
    subst hpersisted
    rw [afterUses_eq_foldl, snapshot_foldl _ hnone]
    rfl
  | marked hnone =>
    rw [afterUses_append, List.foldl_cons, snapshot_foldl _ hnone]
    rfl

theorem snapshot_of_never (hnever : persisted = false ∧ .mark ∉ uses) :
    (afterUses ps j (create o given persisted) uses).snapshot = none := by
  obtain ⟨rfl, hnone⟩ := hnever
  rw [afterUses_eq_foldl, snapshot_foldl _ hnone]
  rfl

/-- Over any run of uses the attributes given at first are tracked, followed by the others that were
read or written, in the order of their first use and each once. The entity is new just if it never
was marked as persisted, and then nothing is persisted. Otherwise there is a last mark, and of every
attribute is persisted what it was on the object then if it was tracked by then, and null if not. -/
theorem remembers_last_mark (ps : Producers) (j : Journal) (o : Object) (given : List String)
    (hgiven : given.Nodup) (persisted : Bool) (uses : List Use) :
    let now := afterUses ps j (create o given persisted) uses
    let never := persisted = false ∧ .mark ∉ uses
    (now.tracked = given ++ firstUsed given uses ∧ now.tracked.Nodup) ∧
    (Accessor.isNew now = true ↔ never) ∧
    (never → ∀ name, Accessor.persisted now name = .null) ∧
    (¬ never → ∃ t, MarkedLast ps j o given persisted uses t ∧ ∀ name,
      Accessor.persisted now name =
        if name ∈ t.tracked then (t.object.get? name).getD .null else .null) := by
  intro now never
  have htracked : now.tracked = given ++ firstUsed given uses := by
    have hcreate : (create o given persisted).tracked = given := by cases persisted <;> rfl
    have hnow : now = _ := afterUses_eq_foldl ps j _ uses
    rw [hnow, tracked_foldl, hcreate]
  have hnodup : (given ++ firstUsed given uses).Nodup := by
    apply hgiven.append (nodup_firstUsed given uses)
    intro name hname hused
    exact (mem_firstUsed_iff.1 hused).1 hname
  refine ⟨⟨htracked, htracked ▸ hnodup⟩, ?_⟩
  by_cases hnever : never
  · have hsnapshot : now.snapshot = none := snapshot_of_never hnever
    refine ⟨iff_of_true ?_ hnever, fun _ name => ?_, fun hnot => absurd hnever hnot⟩
    · exact congrArg Option.isNone hsnapshot
    · change now.persistedValue name = .null
      unfold persistedValue
      rw [hsnapshot]
  · obtain ⟨t, ht⟩ := (never_or_markedLast ps j o given persisted uses).resolve_left hnever
    refine ⟨iff_of_false ?_ hnever, fun h => absurd h hnever, fun _ => ⟨t, ht, fun name => ?_⟩⟩
    · rw [Bool.not_eq_true]
      exact congrArg Option.isNone ht.snapshot
    · exact (persistedValue_congr ht.snapshot name).trans (persistedValue_markPersisted t name)

/-- Of an object with a status that is read only, a write of the status is refused; then the status
is changed from behind, persisted, and changed again. -/
def paidFromBehind : List Use :=
  let change (status : String) : Use := .change fun o =>
    .ok { o with fields := o.fields.put "_status" (.text status) }
  [.write "status" (.text "lost"), .read "owner", change "paid", .mark, .read "note", change "lost",
    .write "owner" (.text "clerk")]

theorem paidFromBehind_remembered :
    let o : Object := { shape := .property false, fields := .ofList [("note", .text "gift")] }
    let ps : Producers := fun _ _ => .ok .null
    let now := afterUses ps .empty (create o ["id"] true) paidFromBehind
    ["id"].Nodup ∧ now.tracked = ["id", "status", "owner", "note"] ∧ Accessor.isNew now = false ∧
      now.value "status" = .text "lost" ∧
      ∃ t, MarkedLast ps .empty o ["id"] true paidFromBehind t ∧ "status" ∈ t.tracked ∧
        (t.object.get? "status").getD .null = .text "paid" ∧
        Accessor.persisted now "status" = .text "paid" := by
  intro o ps now
  obtain ⟨⟨htracked, -⟩, -, -, hmarked⟩ :=
    remembers_last_mark ps .empty o ["id"] (by decide) true paidFromBehind
  have hnever : ¬ (true = false ∧ Use.mark ∉ paidFromBehind) := fun h => by cases h.1
  obtain ⟨t, ht, hpersisted⟩ := hmarked hnever
  have hpaid : Accessor.persisted now "status" = .text "paid" := rfl
  have hstatus := (hpersisted "status").symm.trans hpaid
  split at hstatus
  · rename_i hmem
    exact ⟨by decide, htracked, rfl, rfl, t, ht, hmem, hstatus, hpaid⟩
  · cases hstatus

end Tracked

end Lifecycle
