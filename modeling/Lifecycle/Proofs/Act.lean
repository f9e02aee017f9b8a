import Lifecycle.Act

/-!
# What acts leave alone, acts that are alike, and what acts ask

`Act.Keeps f act` says that the part of the state that `f` shows is after the act what it was
before, however the act ends; `Act.KeepsAt f c act` says so of the states in which it is `c`.
`Act.Alike R act act'` says that two acts do the same from states that `R` relates. `Act.outcome` is
what a question that needs no state answers and leaves in the journal. `Act.after` does acts one
after another, whatever their outcomes; `Act.after_induction` and `Act.after_alike` carry over to
all of them what holds of each. `Act.Quiet act` says that an act makes no calls, and
`Act.Faithful act` that its run depends on the answers to its own calls only.
-/

namespace Lifecycle

namespace Act

variable {σ τ α β γ : Type}

/-- Acts one after the other have a result only if both have. -/
theorem exists_of_bind_ok {act : Act σ α} {next : α → Act σ β} {ps : Producers} {j : Journal}
    {s : σ} {b : β} (h : ((act >>= next).run ps j s).1 = .ok b) :
    ∃ a j' s', act.run ps j s = (.ok a, j', s') ∧ ((next a).run ps j' s').1 = .ok b := by
  rw [run_bind] at h
  rcases hrun : act.run ps j s with ⟨_ | a, j', s'⟩
  · rw [hrun] at h
    cases h
  · rw [hrun] at h
    exact ⟨a, j', s', rfl, h⟩

/-! ## What an act leaves alone -/

/-- The part of the state that `f` shows stays as it is. -/
def Keeps (f : σ → γ) (act : Act σ α) : Prop :=
  ∀ ps j s, f (act.run ps j s).2.2 = f s

theorem keeps_pure (f : σ → γ) (a : α) : Keeps f (pure a : Act σ α) := fun _ _ _ => rfl

theorem keeps_fail (f : σ → γ) (e : Failure) : Keeps f (fail e : Act σ α) := fun _ _ _ => rfl

theorem keeps_ofExcept (f : σ → γ) (r : Except Failure α) : Keeps f (ofExcept r : Act σ α) :=
  fun _ _ _ => rfl

theorem keeps_getState (f : σ → γ) : Keeps f (getState : Act σ σ) := fun _ _ _ => rfl

theorem Keeps.bind {f : σ → γ} {act : Act σ α} {next : α → Act σ β} (h : Keeps f act)
    (hnext : ∀ a, Keeps f (next a)) : Keeps f (act >>= next) := by
  intro ps j s
  have hact := h ps j s
  rw [run_bind]
  rcases hrun : act.run ps j s with ⟨_ | a, j', s'⟩
  · rwa [hrun] at hact
  · rw [hrun] at hact
    exact (hnext a ps j' s').trans hact

theorem Keeps.attempt {f : σ → γ} {act : Act σ α} (h : Keeps f act) : Keeps f act.attempt :=
  fun ps j s => h ps j s

/-- An act on one part of the state leaves alone what does not show that part. -/
theorem Keeps.zoom {get : τ → σ} {set : σ → τ → τ} {act : Act σ α} {f : σ → γ} {g : τ → γ}
    (h : Keeps f act) (hget : ∀ t, f (get t) = g t) (hset : ∀ s t, g (set s t) = f s) :
    Keeps g (act.zoom get set) := by
  intro ps j t
  change g (set (act.run ps j (get t)).2.2 t) = g t
  rw [hset, h, hget]

/-- From a state that shows `c` the act ends in one that shows it. -/
def KeepsAt (f : σ → γ) (c : γ) (act : Act σ α) : Prop :=
  ∀ ps j s, f s = c → f (act.run ps j s).2.2 = c

theorem Keeps.keepsAt {f : σ → γ} {act : Act σ α} (h : Keeps f act) (c : γ) : KeepsAt f c act :=
  fun ps j s hs => (h ps j s).trans hs

theorem keeps_of_keepsAt {f : σ → γ} {act : Act σ α} (h : ∀ c, KeepsAt f c act) : Keeps f act :=
  fun ps j s => h (f s) ps j s rfl

theorem KeepsAt.bind {f : σ → γ} {c : γ} {act : Act σ α} {next : α → Act σ β}
    (h : KeepsAt f c act) (hnext : ∀ a, KeepsAt f c (next a)) : KeepsAt f c (act >>= next) := by
  intro ps j s hs
  have hact := h ps j s hs
  rw [run_bind]
  rcases hrun : act.run ps j s with ⟨_ | a, j', s'⟩
  · rwa [hrun] at hact
  · rw [hrun] at hact
    exact hnext a ps j' s' hact

/-! ## Acts that do the same on two kinds of state -/

section Alike

variable {ρ π : Type} {R : σ → τ → Prop}

/-- From related states the two acts have the same outcome and the same journal, and end in related
states. -/
def Alike (R : σ → τ → Prop) (act : Act σ α) (act' : Act τ α) : Prop :=
  ∀ ps j s t, R s t → (act.run ps j s).1 = (act'.run ps j t).1 ∧
    (act.run ps j s).2.1 = (act'.run ps j t).2.1 ∧ R (act.run ps j s).2.2 (act'.run ps j t).2.2

theorem alike_pure (R : σ → τ → Prop) (a : α) : Alike R (pure a) (pure a) :=
  fun _ _ _ _ h => ⟨rfl, rfl, h⟩

theorem alike_fail (R : σ → τ → Prop) (e : Failure) :
    Alike R (fail e : Act σ α) (fail e : Act τ α) :=
  fun _ _ _ _ h => ⟨rfl, rfl, h⟩

theorem alike_ofExcept (R : σ → τ → Prop) (r : Except Failure α) :
    Alike R (ofExcept r) (ofExcept r) :=
  fun _ _ _ _ h => ⟨rfl, rfl, h⟩

/-- Acts that do not touch the state do the same on any two. -/
theorem alike_of_run {act : Act σ α} {act' : Act τ α} {outcome : Producers → Journal →
    Except Failure α × Journal}
    (h : ∀ ps j s, act.run ps j s = ((outcome ps j).1, (outcome ps j).2, s))
    (h' : ∀ ps j t, act'.run ps j t = ((outcome ps j).1, (outcome ps j).2, t)) :
    Alike R act act' := by
  intro ps j s t hst
  rw [h, h']
  exact ⟨rfl, rfl, hst⟩

theorem Alike.bind {act : Act σ α} {act' : Act τ α} {next : α → Act σ β} {next' : α → Act τ β}
    (h : Alike R act act') (hnext : ∀ a, Alike R (next a) (next' a)) :
    Alike R (act >>= next) (act' >>= next') := by
  intro ps j s t hst
  obtain ⟨hout, hj, hstate⟩ := h ps j s t hst
  rw [run_bind, run_bind]
  rcases hrun : act.run ps j s with ⟨out, k, s'⟩
  rcases hrun' : act'.run ps j t with ⟨out', k', t'⟩
  rw [hrun, hrun'] at hout hj hstate
  dsimp only at hout hj hstate
  subst hout hj
  cases out with
  | error e => exact ⟨rfl, rfl, hstate⟩
  | ok a => exact hnext a ps k s' t' hstate

theorem Alike.attempt {act : Act σ α} {act' : Act τ α} (h : Alike R act act') :
    Alike R act.attempt act'.attempt := by
  intro ps j s t hst
  obtain ⟨hout, hj, hstate⟩ := h ps j s t hst
  exact ⟨congrArg Except.ok hout, hj, hstate⟩

/-- Acts alike on parts of two states are alike on the states. -/
theorem Alike.zoom {get : ρ → σ} {set : σ → ρ → ρ} {get' : π → τ} {set' : τ → π → π}
    {Q : ρ → π → Prop} {act : Act σ α} {act' : Act τ α} (h : Alike R act act')
    (hget : ∀ r p, Q r p → R (get r) (get' p))
    (hset : ∀ r p s t, Q r p → R s t → Q (set s r) (set' t p)) :
    Alike Q (act.zoom get set) (act'.zoom get' set') := by
  intro ps j r p hrp
  obtain ⟨hout, hj, hstate⟩ := h ps j (get r) (get' p) (hget r p hrp)
  exact ⟨hout, hj, hset r p _ _ hrp hstate⟩

end Alike

/-! ## Questions that need no state -/

/-- What an act answers where there is no state, and the journal after it. -/
def outcome (act : Act Unit α) (ps : Producers) (j : Journal) : Except Failure α × Journal :=
  ((act.run ps j ()).1, (act.run ps j ()).2.1)

/-! ## Acts in a row -/

/-- The journal and the state after acts done one after another, whatever their outcomes. -/
def after (ps : Producers) (acts : List (Act σ α)) (x : Journal × σ) : Journal × σ :=
  acts.foldl (fun x act => (act.run ps x.1 x.2).2) x

@[simp] theorem after_nil (ps : Producers) (x : Journal × σ) :
    after ps ([] : List (Act σ α)) x = x := rfl

@[simp] theorem after_cons (ps : Producers) (act : Act σ α) (acts : List (Act σ α))
    (x : Journal × σ) : after ps (act :: acts) x = after ps acts (act.run ps x.1 x.2).2 := rfl

theorem after_append (ps : Producers) (acts acts' : List (Act σ α)) (x : Journal × σ) :
    after ps (acts ++ acts') x = after ps acts' (after ps acts x) :=
  List.foldl_append

/-- What holds at first and is kept by each of the acts holds after all of them. -/
theorem after_induction {P : Journal × σ → Prop} {ps : Producers} {acts : List (Act σ α)}
    {x : Journal × σ} (hx : P x)
    (hstep : ∀ act ∈ acts, ∀ y, P y → P (act.run ps y.1 y.2).2) : P (after ps acts x) := by
  induction acts generalizing x with
  | nil => exact hx
  | cons act acts ih =>
    rw [after_cons]
    exact ih (hstep act (by simp) x hx) fun act' hact' => hstep act' (List.mem_cons_of_mem _ hact')

/-- Acts that are alike one by one are alike in a row. -/
theorem after_alike {ι : Type} {R : σ → τ → Prop} {f : ι → Act σ α} {g : ι → Act τ α}
    (h : ∀ i, Alike R (f i) (g i)) (ps : Producers) (is : List ι) {x : Journal × σ}
    {y : Journal × τ} (hj : x.1 = y.1) (hxy : R x.2 y.2) :
    (after ps (is.map f) x).1 = (after ps (is.map g) y).1 ∧
      R (after ps (is.map f) x).2 (after ps (is.map g) y).2 := by
  induction is generalizing x y with
  | nil => exact ⟨hj, hxy⟩
  | cons i is ih =>
    obtain ⟨-, hj', hxy'⟩ := h i ps x.1 x.2 y.2 hxy
    rw [List.map_cons, List.map_cons, after_cons, after_cons]
    rw [hj] at hj' hxy' ⊢
    exact ih hj' hxy'

end Act

/-! ## What acts ask of producers -/

/-- The producers give the same answers to some calls that come after others. -/
def Producers.Agree (ps ps' : Producers) (before called : List Producer) : Prop :=
  ∀ p k, before.count p ≤ k → k < (before ++ called).count p → ps' p k = ps p k

theorem Producers.Agree.left {ps ps' : Producers} {before called called' : List Producer}
    (h : ps.Agree ps' before (called ++ called')) : ps.Agree ps' before called := by
  intro p k hlow hhigh
  refine h p k hlow ?_
  rw [← List.append_assoc, List.count_append]
  omega

theorem Producers.Agree.right {ps ps' : Producers} {before called called' : List Producer}
    (h : ps.Agree ps' before (called ++ called')) : ps.Agree ps' (before ++ called) called' := by
  intro p k hlow hhigh
  rw [List.append_assoc] at hhigh
  refine h p k ?_ hhigh
  rw [List.count_append] at hlow
  omega

/-- For one call only its own answer counts. -/
theorem Producers.agree_singleton_iff {ps ps' : Producers} {before : List Producer}
    {p : Producer} : ps.Agree ps' before [p] ↔
      ps' p (before.count p) = ps p (before.count p) := by
  constructor
  · intro h
    refine h p _ (Nat.le_refl _) ?_
    rw [List.count_append, List.count_singleton_self]
    exact Nat.lt_succ_self _
  · intro h q k hlow hhigh
    rw [List.count_append] at hhigh
    by_cases hq : q = p
    · subst hq
      rw [List.count_singleton_self] at hhigh
      obtain rfl : k = before.count q := by omega
      exact h
    · rw [List.count_singleton, if_neg (by simpa using Ne.symm hq)] at hhigh
      omega

namespace Act

variable {σ τ α β : Type} {ps : Producers} {j : Journal} {s : σ}

/-- The act makes no calls. -/
def Quiet (act : Act σ α) : Prop := ∀ ps j s, (act.run ps j s).2.1.calls = j.calls

theorem Quiet.calls_append_nil {act : Act σ α} (h : Quiet act) (ps : Producers) (j : Journal)
    (s : σ) : (act.run ps j s).2.1.calls = j.calls ++ [] := by
  rw [h, List.append_nil]

theorem quiet_pure (a : α) : Quiet (pure a : Act σ α) := fun _ _ _ => rfl

theorem quiet_fail (e : Failure) : Quiet (fail e : Act σ α) := fun _ _ _ => rfl

theorem quiet_ofExcept (r : Except Failure α) : Quiet (ofExcept r : Act σ α) := fun _ _ _ => rfl

theorem quiet_getState : Quiet (getState : Act σ σ) := fun _ _ _ => rfl

theorem quiet_setState (s : σ) : Quiet (setState s) := fun _ _ _ => rfl

/-- What follows an act and calls nothing leaves its calls as they are. -/
theorem calls_bind_of_quiet {act : Act σ α} {next : α → Act σ β} (h : ∀ a, Quiet (next a)) :
    ((act >>= next).run ps j s).2.1.calls = (act.run ps j s).2.1.calls := by
  rw [run_bind]
  rcases act.run ps j s with ⟨_ | a, j', s'⟩
  · rfl
  · exact h a ps j' s'

theorem Quiet.bind {act : Act σ α} {next : α → Act σ β} (h : Quiet act)
    (hnext : ∀ a, Quiet (next a)) : Quiet (act >>= next) :=
  fun ps j s => (calls_bind_of_quiet hnext).trans (h ps j s)

/-- However the act ends, it has made the first of these calls, and no others. -/
def CallsAmong (act : Act σ α) (all : List Producer) : Prop :=
  ∀ ps j s, ∃ called, called <+: all ∧ (act.run ps j s).2.1.calls = j.calls ++ called

theorem Quiet.callsAmong {act : Act σ α} (h : Quiet act) (all : List Producer) :
    CallsAmong act all :=
  fun ps j s => ⟨[], List.nil_prefix, h.calls_append_nil ps j s⟩

theorem callsAmong_of_calls {act : Act σ α} {all : List Producer}
    (h : ∀ ps j s, (act.run ps j s).2.1.calls = j.calls ++ all) : CallsAmong act all :=
  fun ps j s => ⟨all, List.prefix_refl all, h ps j s⟩

theorem CallsAmong.bind_quiet {act : Act σ α} {next : α → Act σ β} {all : List Producer}
    (h : CallsAmong act all) (hnext : ∀ a, Quiet (next a)) : CallsAmong (act >>= next) all := by
  intro ps j s
  rw [calls_bind_of_quiet hnext]
  exact h ps j s

theorem callsAmong_bind {act : Act σ α} {next : α → Act σ β} {first rest : List Producer}
    (h : ∀ ps j s, (act.run ps j s).2.1.calls = j.calls ++ first)
    (hnext : ∀ a, CallsAmong (next a) rest) : CallsAmong (act >>= next) (first ++ rest) := by
  intro ps j s
  have hcalls := h ps j s
  rw [run_bind]
  rcases hrun : act.run ps j s with ⟨_ | a, j', s'⟩
  · rw [hrun] at hcalls
    exact ⟨first, List.prefix_append _ _, hcalls⟩
  · rw [hrun] at hcalls
    obtain ⟨called, hprefix, hcalls'⟩ := hnext a ps j' s'
    dsimp only at hcalls
    refine ⟨first ++ called, (List.prefix_append_right_inj first).2 hprefix, ?_⟩
    rw [← List.append_assoc, ← hcalls]
    exact hcalls'

theorem Quiet.callsAmong_bind {act : Act σ α} {next : α → Act σ β} {rest : List Producer}
    (h : Quiet act) (hnext : ∀ a, CallsAmong (next a) rest) : CallsAmong (act >>= next) rest :=
  Act.callsAmong_bind h.calls_append_nil hnext

/-- The act makes just these calls, and its run depends on no other answers of the producers. -/
structure Asks (act : Act σ α) (ps : Producers) (j : Journal) (s : σ) (called : List Producer) :
    Prop where
  calls : (act.run ps j s).2.1.calls = j.calls ++ called
  fresh : ∀ ps', ps.Agree ps' j.calls called → act.run ps' j s = act.run ps j s

/-- The run of the act depends on no answers but those to its own calls. -/
def Faithful (act : Act σ α) : Prop := ∀ ps j s, ∃ called, Asks act ps j s called

theorem Faithful.asks {act : Act σ α} (h : Faithful act) {called : List Producer}
    (hcalls : (act.run ps j s).2.1.calls = j.calls ++ called) : Asks act ps j s called := by
  obtain ⟨called', hasks⟩ := h ps j s
  have heq : called' = called := List.append_cancel_left (hasks.calls.symm.trans hcalls)
  rw [← heq]
  exact hasks

theorem faithful_of_silent {act : Act σ α}
    (h : ∀ ps ps' j s, act.run ps' j s = act.run ps j s ∧ (act.run ps j s).2.1.calls = j.calls) :
    Faithful act := by
  intro ps j s
  refine ⟨[], ?_, fun ps' _ => (h ps ps' j s).1⟩
  rw [List.append_nil]
  exact (h ps ps j s).2

theorem faithful_pure (a : α) : Faithful (pure a : Act σ α) :=
  faithful_of_silent fun _ _ _ _ => ⟨rfl, rfl⟩

theorem faithful_fail (e : Failure) : Faithful (fail e : Act σ α) :=
  faithful_of_silent fun _ _ _ _ => ⟨rfl, rfl⟩

theorem faithful_ofExcept (r : Except Failure α) : Faithful (ofExcept r : Act σ α) :=
  faithful_of_silent fun _ _ _ _ => ⟨rfl, rfl⟩

theorem faithful_getState : Faithful (getState : Act σ σ) :=
  faithful_of_silent fun _ _ _ _ => ⟨rfl, rfl⟩

theorem faithful_setState (s : σ) : Faithful (setState s) :=
  faithful_of_silent fun _ _ _ _ => ⟨rfl, rfl⟩

theorem faithful_report (event : Event) : Faithful (report event : Act σ Unit) :=
  faithful_of_silent fun _ _ _ _ => ⟨rfl, rfl⟩

theorem faithful_call (p : Producer) : Faithful (call p : Act σ Datum) := by
  intro ps j s
  refine ⟨[p], rfl, fun ps' h => ?_⟩
  rw [run_call, run_call, Producers.agree_singleton_iff.1 h]

/-- The second act is asked for only where the first has a result, after the calls of the first. -/
theorem Faithful.bind {act : Act σ α} {next : α → Act σ β} (h : Faithful act)
    (hnext : ∀ a, Faithful (next a)) : Faithful (act >>= next) := by
  intro ps j s
  obtain ⟨called, hcalls, hfresh⟩ := h ps j s
  rcases hrun : act.run ps j s with ⟨out, j', s'⟩
  rw [hrun] at hcalls hfresh
  dsimp only at hcalls
  cases out with
  | error e =>
    refine ⟨called, ?_, fun ps' hagree => ?_⟩
    · rw [run_bind, hrun]
      exact hcalls
    · rw [run_bind, run_bind, hfresh ps' hagree, hrun]
  | ok a =>
    obtain ⟨called', hcalls', hfresh'⟩ := hnext a ps j' s'
    refine ⟨called ++ called', ?_, fun ps' hagree => ?_⟩
    · rw [run_bind, hrun, ← List.append_assoc, ← hcalls]
      exact hcalls'
    · have hright := hagree.right
      rw [← hcalls] at hright
      rw [run_bind, run_bind, hfresh ps' hagree.left, hrun]
      exact hfresh' ps' hright

theorem Faithful.attempt {act : Act σ α} (h : Faithful act) : Faithful act.attempt := by
  intro ps j s
  obtain ⟨called, hcalls, hfresh⟩ := h ps j s
  refine ⟨called, hcalls, fun ps' hagree => ?_⟩
  rw [run_attempt, run_attempt, hfresh ps' hagree]

theorem Faithful.zoom {get : τ → σ} {set : σ → τ → τ} {act : Act σ α} (h : Faithful act) :
    Faithful (act.zoom get set) := by
  intro ps j t
  obtain ⟨called, hcalls, hfresh⟩ := h ps j (get t)
  refine ⟨called, hcalls, fun ps' hagree => ?_⟩
  change (((act.run ps' j (get t)).1, (act.run ps' j (get t)).2.1,
    set (act.run ps' j (get t)).2.2 t) : Except Failure α × Journal × τ) = _
  rw [hfresh ps' hagree]
  rfl

/-- Faithful acts in a row make some calls, and depend on no other answers. -/
theorem exists_called_after {acts : List (Act σ α)} (h : ∀ act ∈ acts, Faithful act)
    (ps : Producers) (x : Journal × σ) :
    ∃ called, (after ps acts x).1.calls = x.1.calls ++ called ∧
      ∀ ps', ps.Agree ps' x.1.calls called → after ps' acts x = after ps acts x := by
  induction acts generalizing x with
  | nil => exact ⟨[], (List.append_nil _).symm, fun _ _ => rfl⟩
  | cons act acts ih =>
    obtain ⟨called, hcalls, hfresh⟩ := h act (by simp) ps x.1 x.2
    obtain ⟨called', hcalls', hfresh'⟩ :=
      ih (fun act' hact' => h act' (List.mem_cons_of_mem _ hact')) (act.run ps x.1 x.2).2
    refine ⟨called ++ called', ?_, fun ps' hagree => ?_⟩
    · rw [after_cons, hcalls', hcalls, List.append_assoc]
    · have hright := hagree.right
      rw [← hcalls] at hright
      rw [after_cons, after_cons, hfresh ps' hagree.left]
      exact hfresh' ps' hright

end Act

end Lifecycle
