import Lifecycle.Proofs.Gate

/-!
# Staging a status and committing it

Where the field is found, starting and proposing stage a status and do nothing else, and the commit
that follows validates it against the persisted status. From a settled session, in which the same
status is staged and persisted, proposing and committing therefore answers as validation does
(`Session.settled_of_move`, `Session.error_of_move`).
-/

namespace Lifecycle

variable {ps : Producers} {j : Journal}

namespace Attachment

variable {a : Attachment} {s : Attached Record}

theorem run_start_of_found (h : s.finds a = true) :
    a.start.run ps j s =
      (.ok (), j, { checked := true, entity := s.entity.stage a.field a.definition.initial }) :=
  run_start h

/-- What has no status so far is left alone. -/
theorem run_propose_of_found (h : s.finds a = true) (status : Datum) :
    (a.propose status).run ps j s =
      if (s.staged a).isNull then (.ok false, j, s.afterRead a)
      else (.ok true, j, { checked := true, entity := s.entity.stage a.field status }) := by
  unfold propose
  rw [Act.run_bind, run_requireField, h, if_pos rfl]
  simp only [Act.run_bind, run_readStatus]
  have hstaged : ({ s with checked := true } : Attached Record).staged a = s.staged a := rfl
  rw [hstaged]
  cases (s.staged a).isNull with
  | true => rfl
  | false => rfl

end Attachment

namespace Session

variable {flows : Flows} {i : Nat} {s : Session Record}

/-- The session after an attachment staged a status. -/
def stage (i : Nat) (a : Attachment) (status : Datum) (s : Session Record) : Session Record :=
  { s.note i with entity := s.entity.stage a.field status }

theorem finds_stage (i : Nat) (a : Attachment) (status : Datum) (s : Session Record) :
    ((s.stage i a status).view i).finds a = true := by
  have hchecked : ((s.stage i a status).view i).checked = true := if_pos rfl
  unfold Attached.finds
  rw [hchecked, Bool.true_or]

theorem staged_stage (i : Nat) (a : Attachment) (status : Datum) (s : Session Record) :
    ((s.stage i a status).view i).staged a = status := by
  change (((s.entity.values.put a.field status).get? a.field).getD .null) = status
  rw [Table.get?_put_self]
  rfl

theorem note_stage (i : Nat) (a : Attachment) (status : Datum) (s : Session Record) :
    (s.stage i a status).note i = s.stage i a status := by
  have hchecked : ((s.stage i a status).note i).checked = (s.stage i a status).checked := by
    funext k
    change (if k = i then true else if k = i then true else s.checked k) =
      if k = i then true else s.checked k
    by_cases hk : k = i
    · rw [if_pos hk, if_pos hk]
    · rw [if_neg hk]
  exact congrArg (Session.mk (s.stage i a status).entity) hchecked

theorem run_operate_start (h : (s.view i).finds (flows i) = true) :
    ((Step.operate i .start).act flows).run ps j s =
      (.ok .nothing, j, s.stage i (flows i) (flows i).definition.initial) := by
  change (of i (Operation.act (flows i) .start)).run ps j s = _
  rw [run_of]
  simp only [Operation.act, Act.run_bind, Attachment.run_start_of_found h]
  rfl

theorem run_operate_propose (h : (s.view i).finds (flows i) = true)
    (hstaged : ((s.view i).staged (flows i)).isNull = false) (status : Datum) :
    ((Step.operate i (.propose status)).act flows).run ps j s =
      (.ok (.truth true), j, s.stage i (flows i) status) := by
  change (of i (Operation.act (flows i) (.propose status))).run ps j s = _
  rw [run_of]
  simp only [Operation.act, Act.run_bind, Attachment.run_propose_of_found h, hstaged]
  rfl

/-- A commit of a status that was just staged answers as its validation. -/
theorem run_commit_stage (flows : Flows) (i : Nat) (ps : Producers) (j : Journal) (status : Datum)
    (s : Session Record) :
    ((Step.commit (some i)).act flows).run ps j (s.stage i (flows i) status) =
      match (Transition.validate (flows i).definition (s.status (flows i)) status
        s.entity.persisted.isNone).outcome ps j with
      | (.ok _, j') =>
        (.ok .nothing, j', { s.stage i (flows i) status with
          entity := (s.entity.stage (flows i).field status).persist })
      | (.error e, j') => (.error e, j', s.stage i (flows i) status) := by
  have hvalidation : ((s.stage i (flows i) status).view i).validation (flows i) =
      Transition.validate (flows i).definition (s.status (flows i)) status
        s.entity.persisted.isNone := by
    unfold Attached.validation
    rw [staged_stage]
    rfl
  rw [run_commit_of_found (finds_stage i (flows i) status s), hvalidation, note_stage]
  rfl

/-! ## Moves from a settled session -/

/-- The field is found, and the same status is staged and persisted. -/
structure Settled (i : Nat) (a : Attachment) (p : Datum) (s : Session Record) : Prop where
  finds : (s.view i).finds a = true
  persisted : s.entity.persisted.isSome = true
  status : s.status a = p
  staged : (s.view i).staged a = p

theorem settled_persist_stage (i : Nat) (a : Attachment) (p : Datum) (s : Session Record) :
    Settled i a p { s.stage i a p with entity := (s.entity.stage a.field p).persist } where
  finds := finds_stage i a p s
  persisted := rfl
  status := staged_stage i a p s
  staged := staged_stage i a p s

/-- Proposes a status and commits it. -/
def move (flows : Flows) (i : Nat) (t : Datum) : Act (Session Record) Answer := do
  let _ ← (Step.operate i (.propose t)).act flows
  (Step.commit (some i)).act flows

section Move

variable (flows) {p : Datum} (h : Settled i (flows i) p s) (hp : p.isNull = false)
include h hp

theorem run_propose_of_settled (t : Datum) :
    ((Step.operate i (.propose t)).act flows).run ps j s =
      (.ok (.truth true), j, s.stage i (flows i) t) := by
  apply run_operate_propose h.finds
  rw [h.staged, hp]

theorem run_move (t : Datum) :
    (move flows i t).run ps j s =
      match (Transition.validate (flows i).definition p t false).outcome ps j with
      | (.ok _, j') =>
        (.ok .nothing, j', { s.stage i (flows i) t with
          entity := (s.entity.stage (flows i).field t).persist })
      | (.error e, j') => (.error e, j', s.stage i (flows i) t) := by
  have hold : s.entity.persisted.isNone = false := by
    rw [Option.isNone_eq_false_iff]
    exact h.persisted
  unfold move
  rw [Act.run_bind, run_propose_of_settled flows h hp t]
  dsimp only
  rw [run_commit_stage, h.status, hold]

/-- A move is two steps of a run. -/
theorem after_move (t : Datum) :
    after flows ps [.operate i (.propose t), .commit (some i)] (j, s) =
      ((move flows i t).run ps j s).2 := by
  unfold after move
  simp only [List.map_cons, List.map_nil, Act.after_cons, Act.after_nil]
  rw [Act.run_bind, run_propose_of_settled flows h hp t]

theorem move_ok_iff {t : Datum} :
    ((move flows i t).run ps j s).1 = .ok .nothing ↔
      ((Transition.validate (flows i).definition p t false).outcome ps j).1 = .ok () := by
  rw [run_move flows h hp t]
  rcases (Transition.validate (flows i).definition p t false).outcome ps j with ⟨e | _, j'⟩
  · simp
  · simp

/-- A move that validation accepts settles the session at the new status. -/
theorem settled_of_move {t : Datum}
    (hok : ((Transition.validate (flows i).definition p t false).outcome ps j).1 = .ok ()) :
    Settled i (flows i) t ((move flows i t).run ps j s).2.2 := by
  rw [run_move flows h hp t]
  rcases hvalid : (Transition.validate (flows i).definition p t false).outcome ps j with ⟨e | _, j'⟩
  · rw [hvalid] at hok
    cases hok
  · exact settled_persist_stage i (flows i) t s

/-- A move that validation refuses fails likewise and persists nothing. -/
theorem error_of_move {t : Datum} {e : Failure}
    (herror : ((Transition.validate (flows i).definition p t false).outcome ps j).1 = .error e) :
    ((move flows i t).run ps j s).1 = .error e ∧
      ((move flows i t).run ps j s).2.2.status (flows i) = p := by
  rw [run_move flows h hp t]
  rcases hvalid : (Transition.validate (flows i).definition p t false).outcome ps j with ⟨e' | _, j'⟩
  · rw [hvalid] at herror
    cases herror
    exact ⟨rfl, h.status⟩
  · rw [hvalid] at herror
    cases herror

end Move

end Session

end Lifecycle
