import Lifecycle.Proofs.Act

/-!
# Acts put together from primitives

`Act.Made among act` says that the act is put together from the primitives and calls only producers
of some kind. What holds of every such act is proved once, by induction on how it is made: its run
depends on the answers to its own calls only (`Act.Made.faithful`), and of the journal before it only
on how often the producers of that kind were called (`Act.Made.confined`).
-/

namespace Lifecycle

namespace Journal

/-- The journal after further calls and events. -/
def extend (j new : Journal) : Journal :=
  { calls := j.calls ++ new.calls, events := j.events ++ new.events }

theorem extend_empty (j : Journal) : j.extend .empty = j := by
  unfold extend empty
  rw [List.append_nil, List.append_nil]

theorem extend_extend (j new new' : Journal) :
    (j.extend new).extend new' = j.extend (new.extend new') := by
  unfold extend
  rw [List.append_assoc, List.append_assoc]

/-- Each producer of some kind was called equally often. -/
def SameCalls (among : Producer → Prop) (j k : Journal) : Prop :=
  ∀ p, among p → j.calls.count p = k.calls.count p

theorem SameCalls.extend {among : Producer → Prop} {j k : Journal} (h : SameCalls among j k)
    (new : Journal) : SameCalls among (j.extend new) (k.extend new) := by
  intro p hp
  unfold Journal.extend
  rw [List.count_append, List.count_append, h p hp]

/-- Calls of other producers do not count. -/
theorem sameCalls_extend {among : Producer → Prop} {new : Journal}
    (h : ∀ p ∈ new.calls, ¬ among p) (j : Journal) : SameCalls among (j.extend new) j := by
  intro p hp
  have hnone : new.calls.count p = 0 := List.count_eq_zero.2 fun hmem => h p hmem hp
  unfold Journal.extend
  rw [List.count_append, hnone, Nat.add_zero]

end Journal

namespace Act

/-- Of the journal only the number of calls of some producers matters: where it is the same, the act
has the same outcome, leaves the same state and adds the same to the journal. It calls no others. -/
def Confined {σ α : Type} (among : Producer → Prop) (act : Act σ α) : Prop :=
  ∀ ps j k s, Journal.SameCalls among j k → ∃ out new s', (∀ p ∈ new.calls, among p) ∧
    act.run ps j s = (out, j.extend new, s') ∧ act.run ps k s = (out, k.extend new, s')

/-- The act is put together from the primitives and calls only some producers. -/
inductive Made (among : Producer → Prop) : {σ α : Type} → Act σ α → Prop
  | pure {σ α : Type} (a : α) : Made among (pure a : Act σ α)
  | fail {σ α : Type} (e : Failure) : Made among (fail e : Act σ α)
  | ofExcept {σ α : Type} (r : Except Failure α) : Made among (ofExcept r : Act σ α)
  | getState {σ : Type} : Made among (getState : Act σ σ)
  | setState {σ : Type} (s : σ) : Made among (setState s)
  | report {σ : Type} (event : Event) : Made among (report event : Act σ Unit)
  | call {σ : Type} (p : Producer) (h : among p) : Made among (call p : Act σ Datum)
  | bind {σ α β : Type} {act : Act σ α} {next : α → Act σ β} (h : Made among act)
      (hnext : ∀ a, Made among (next a)) : Made among (act >>= next)
  -- What follows a calculation may rely on the result being one of that calculation.
  | calculate {σ α β : Type} {r : Except Failure α} {next : α → Act σ β}
      (hnext : ∀ a, r = .ok a → Made among (next a)) : Made among (Act.ofExcept r >>= next)
  | attempt {σ α : Type} {act : Act σ α} (h : Made among act) : Made among act.attempt
  | zoom {σ τ α : Type} {get : τ → σ} {set : σ → τ → τ} {act : Act σ α} (h : Made among act) :
      Made among (act.zoom get set)

variable {σ τ α β : Type} {among : Producer → Prop}

theorem Made.faithful {act : Act σ α} (h : Made among act) : Faithful act := by
  induction h with
  | pure a => exact faithful_pure a
  | fail e => exact faithful_fail e
  | ofExcept r => exact faithful_ofExcept r
  | getState => exact faithful_getState
  | setState s => exact faithful_setState s
  | report event => exact faithful_report event
  | call p _ => exact faithful_call p
  | bind _ _ ih ihnext => exact ih.bind ihnext
  | @calculate _ _ _ r _ _ ihnext =>
    cases r with
    | error e => exact faithful_fail e
    | ok a => exact ihnext a rfl
  | attempt _ ih => exact ih.attempt
  | zoom _ ih => exact ih.zoom

/-- An act that leaves the journal alone. -/
theorem confined_of_run {act : Act σ α} (result : σ → Except Failure α × σ)
    (h : ∀ ps j s, act.run ps j s = ((result s).1, j, (result s).2)) : Confined among act := by
  intro ps j k s _
  refine ⟨(result s).1, .empty, (result s).2, fun _ => List.not_mem_nil.elim, ?_, ?_⟩
  · rw [h, Journal.extend_empty]
  · rw [h, Journal.extend_empty]

theorem confined_report (event : Event) : Confined among (report event : Act σ Unit) := by
  intro ps j k s _
  refine ⟨.ok (), ⟨[], [event]⟩, s, fun _ => List.not_mem_nil.elim, ?_, ?_⟩
  · simp [Journal.extend]
  · simp [Journal.extend]

theorem confined_call {p : Producer} (hp : among p) : Confined among (call p : Act σ Datum) := by
  intro ps j k s h
  refine ⟨ps p (j.calls.count p), ⟨[p], []⟩, s, fun q hq => ?_, ?_, ?_⟩
  · rwa [List.mem_singleton.1 hq]
  · simp [Journal.extend]
  · simp [Journal.extend, h p hp]

-- The first act adds the same to both journals, so that they still agree on what counts.
theorem Confined.bind {act : Act σ α} {next : α → Act σ β} (h : Confined among act)
    (hnext : ∀ a, Confined among (next a)) : Confined among (act >>= next) := by
  intro ps j k s hjk
  obtain ⟨out, new, s', hnew, hrun, hrun'⟩ := h ps j k s hjk
  cases out with
  | error e =>
    refine ⟨.error e, new, s', hnew, ?_, ?_⟩
    · rw [run_bind, hrun]
    · rw [run_bind, hrun']
  | ok a =>
    obtain ⟨out, new', s'', hnew', hrest, hrest'⟩ := hnext a ps _ _ s' (hjk.extend new)
    refine ⟨out, new.extend new', s'', fun p hp => ?_, ?_, ?_⟩
    · rcases List.mem_append.1 hp with hp | hp
      · exact hnew p hp
      · exact hnew' p hp
    · rw [run_bind, hrun, ← Journal.extend_extend]
      exact hrest
    · rw [run_bind, hrun', ← Journal.extend_extend]
      exact hrest'

theorem Confined.attempt {act : Act σ α} (h : Confined among act) :
    Confined among act.attempt := by
  intro ps j k s hjk
  obtain ⟨out, new, s', hnew, hrun, hrun'⟩ := h ps j k s hjk
  refine ⟨.ok out, new, s', hnew, ?_, ?_⟩
  · rw [run_attempt, hrun]
  · rw [run_attempt, hrun']

theorem Confined.zoom {get : τ → σ} {set : σ → τ → τ} {act : Act σ α} (h : Confined among act) :
    Confined among (act.zoom get set) := by
  intro ps j k t hjk
  have hzoom (j : Journal) : (act.zoom get set).run ps j t =
      ((act.run ps j (get t)).1, (act.run ps j (get t)).2.1,
        set (act.run ps j (get t)).2.2 t) := rfl
  obtain ⟨out, new, s', hnew, hrun, hrun'⟩ := h ps j k (get t) hjk
  refine ⟨out, new, set s' t, hnew, ?_, ?_⟩
  · rw [hzoom, hrun]
  · rw [hzoom, hrun']

theorem Made.confined {act : Act σ α} (h : Made among act) : Confined among act := by
  induction h with
  | pure a => exact confined_of_run (fun s => (.ok a, s)) fun _ _ _ => rfl
  | fail e => exact confined_of_run (fun s => (.error e, s)) fun _ _ _ => rfl
  | ofExcept r => exact confined_of_run (fun s => (r, s)) fun _ _ _ => rfl
  | getState => exact confined_of_run (fun s => (.ok s, s)) fun _ _ _ => rfl
  | setState s => exact confined_of_run (fun _ => (.ok (), s)) fun _ _ _ => rfl
  | report event => exact confined_report event
  | call p hp => exact confined_call hp
  | bind _ _ ih ihnext => exact ih.bind ihnext
  | @calculate _ _ _ r _ _ ihnext =>
    cases r with
    | error e => exact confined_of_run (fun s => (.error e, s)) fun _ _ _ => rfl
    | ok a => exact ihnext a rfl
  | attempt _ ih => exact ih.attempt
  | zoom _ ih => exact ih.zoom

/-- The run depends on no answers but those of the producers that may be called. -/
theorem Made.run_congr {act : Act σ α} (h : Made among act) {ps ps' : Producers}
    (hps : ∀ p, among p → ps p = ps' p) (j : Journal) (s : σ) : act.run ps' j s = act.run ps j s := by
  obtain ⟨out, new, s', hnew, hrun, -⟩ := h.confined ps j j s fun _ _ => rfl
  have hcalls : (act.run ps j s).2.1.calls = j.calls ++ new.calls := by
    rw [hrun]
    rfl
  refine (h.faithful.asks hcalls).fresh ps' fun p k hlow hhigh => ?_
  have hcalled : p ∈ new.calls := by
    rw [List.count_append] at hhigh
    exact List.count_pos_iff.1 (by omega)
  rw [hps p (hnew p hcalled)]

/-- Whatever happens, the act calls no producer of some kind. -/
def Avoids (among : Producer → Prop) (act : Act σ α) : Prop :=
  ∀ ps j s, Journal.SameCalls among (act.run ps j s).2.1 j

/-- An act that calls only producers of one kind calls none of another. -/
theorem Made.avoids {among' : Producer → Prop} {act : Act σ α} (h : Made among act)
    (hother : ∀ p, among p → ¬ among' p) : Avoids among' act := by
  intro ps j s
  obtain ⟨out, new, s', hnew, hrun, -⟩ := h.confined ps j j s fun _ _ => rfl
  rw [hrun]
  exact Journal.sameCalls_extend (fun p hp => hother p (hnew p hp)) j

end Act

end Lifecycle
