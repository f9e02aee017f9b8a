import Lifecycle.Proofs.Asking
import Lifecycle.Proofs.Interchange

/-!
# Attachments on different fields of one record

A commit persists all fields of a record at once, and every attachment makes sure of its own field.
Still an attachment cannot tell whether attachments on other fields did anything: a step of theirs
leaves the columns, the field, what is persisted, the attachment's note and the calls of its own
producers (`Session.alongside_of_spare`), and nothing else counts for its operations and for commits
(`Session.run_of_own`). So such steps may be left out of a run anywhere.

Producers may look at the record when they are called. Those of the attachment must not look at more
of it than the attachment sees (`Session.Discreet`): one that does tells the attachment what happened
to another field (`Session.indiscreet_producer_tells`).
-/

namespace Lifecycle

open Act (Alike Made)

/-! ## Records that agree on one field -/

/-- The records have the same columns, and of a field they show the same. -/
structure Record.SameAt (field : String) (r r' : Record) : Prop where
  columns : r.columns = r'.columns
  staged : r.values.value field = r'.values.value field
  persisted : r.persistedValue field = r'.persistedValue field
  isNew : r.persisted.isNone = r'.persisted.isNone

namespace Record

variable {field : String} {r r' r'' : Record}

theorem values_stage (r : Record) (name field : String) (v : Datum) :
    (r.stage name v).values.value field = if name = field then v else r.values.value field := by
  unfold stage Fields.value
  dsimp only
  rw [Table.get?_put (.inl (Table.exact_of_lawful name))]
  by_cases h : name = field
  · rw [if_pos (beq_iff_eq.2 h), if_pos h]
    rfl
  · rw [if_neg (mt beq_iff_eq.1 h), if_neg h]

namespace SameAt

theorem refl (field : String) (r : Record) : SameAt field r r := ⟨rfl, rfl, rfl, rfl⟩

theorem symm (h : SameAt field r r') : SameAt field r' r :=
  ⟨h.columns.symm, h.staged.symm, h.persisted.symm, h.isNew.symm⟩

theorem trans (h : SameAt field r r') (h' : SameAt field r' r'') : SameAt field r r'' :=
  ⟨h.columns.trans h'.columns, h.staged.trans h'.staged, h.persisted.trans h'.persisted,
    h.isNew.trans h'.isNew⟩

theorem stage (h : SameAt field r r') (name : String) (v : Datum) :
    SameAt field (r.stage name v) (r'.stage name v) where
  columns := h.columns
  staged := by rw [values_stage, values_stage, h.staged]
  persisted := h.persisted
  isNew := h.isNew

theorem persist (h : SameAt field r r') : SameAt field r.persist r'.persist where
  columns := h.columns
  staged := h.staged
  persisted := h.staged
  isNew := rfl

theorem addColumn (h : SameAt field r r') (name : String) :
    SameAt field (r.addColumn name) (r'.addColumn name) where
  columns := congrArg (name :: ·) h.columns
  staged := h.staged
  persisted := h.persisted
  isNew := h.isNew

theorem dropColumn (h : SameAt field r r') (name : String) :
    SameAt field (r.dropColumn name) (r'.dropColumn name) where
  columns := congrArg (List.filter (· != name)) h.columns
  staged := h.staged
  persisted := h.persisted
  isNew := h.isNew

theorem matches_field (a : Attachment) : a.Matches (SameAt a.field) where
  hasField _ _ h := congrArg (List.contains · a.field) h.columns
  read _ _ h := ⟨h.staged, h⟩
  write _ _ v h := ⟨rfl, h.stage a.field v⟩
  persisted _ _ h := h.persisted
  isNew _ _ h := h.isNew

end SameAt

end Record

/-! ## Steps that may be left out -/

namespace Step

/-- An operation of an attachment with another field that calls none of the attachment's producers,
or a direct write to another field. -/
def Spare (flows : Flows) (i : Nat) : Step → Prop
  | .operate k op => (flows k).field ≠ (flows i).field ∧
      Act.Avoids (· ∈ (flows i).definition.producers)
        (op.act (flows k) : Act (Attached Record) Answer)
  | .write field _ => field ≠ (flows i).field
  | _ => False

/-- Operations on another field may be left out where the definitions share no producer. -/
theorem spare_of_disjoint {flows : Flows} {i k : Nat} (op : Operation)
    (hfield : (flows k).field ≠ (flows i).field)
    (h : ∀ p ∈ (flows k).definition.producers, p ∉ (flows i).definition.producers) :
    (Step.operate k op).Spare flows i :=
  ⟨hfield, ((flows k).made_operation op).avoids h⟩

/-- A step of the attachment itself, a commit that waits for its check or for none, or a change of
the record from outside. -/
def Own (i : Nat) : Step → Prop
  | .operate k _ => k = i
  | .commit gate => gate = none ∨ gate = some i
  | _ => True

/-- The second run is the first without some of its steps, which all may be left out. -/
inductive Thinned (spare : Step → Prop) : List Step → List Step → Prop
  | nil : Thinned spare [] []
  | keep {long short : List Step} (st : Step) (h : Thinned spare long short) :
      Thinned spare (st :: long) (st :: short)
  | drop {long short : List Step} (st : Step) (hst : spare st) (h : Thinned spare long short) :
      Thinned spare (st :: long) short

end Step

namespace Session

variable {flows : Flows} {i : Nat} {ps : Producers} {st : Step}

/-- An attachment made sure of its field in both sessions or in neither, and the records agree on
that field. -/
def AlikeFor (a : Attachment) (i : Nat) (s t : Session Record) : Prop :=
  s.checked i = t.checked i ∧ Record.SameAt a.field s.entity t.entity

/-- An attachment cannot tell two moments apart: its own producers were moreover called equally
often. -/
structure Alongside (a : Attachment) (i : Nat) (x y : Journal × Session Record) : Prop where
  alike : AlikeFor a i x.2 y.2
  calls : Journal.SameCalls (· ∈ a.definition.producers) x.1 y.1

namespace Alongside

variable {a : Attachment} {x y z : Journal × Session Record}

theorem refl (a : Attachment) (i : Nat) (x : Journal × Session Record) : Alongside a i x x :=
  ⟨⟨rfl, .refl _ _⟩, fun _ _ => rfl⟩

theorem symm (h : Alongside a i x y) : Alongside a i y x :=
  ⟨⟨h.alike.1.symm, h.alike.2.symm⟩, fun p hp => (h.calls p hp).symm⟩

theorem trans (h : Alongside a i x y) (h' : Alongside a i y z) : Alongside a i x z :=
  ⟨⟨h.alike.1.trans h'.alike.1, h.alike.2.trans h'.alike.2⟩,
    fun p hp => (h.calls p hp).trans (h'.calls p hp)⟩

theorem observe_eq (h : Alongside a i x y) : x.2.observe a.field = y.2.observe a.field := by
  obtain ⟨-, hentity⟩ := h.alike
  have hstaged : Accessor.read a.field x.2.entity = (y.2.entity.values.value a.field, x.2.entity) :=
    congrArg (·, x.2.entity) hentity.staged
  unfold observe
  rw [hstaged]
  exact Prod.ext rfl (Prod.ext hentity.persisted hentity.isNew)

end Alongside

/-! ## Producers that look at the record -/

/-- What the producers answer while the record is as it is. -/
abbrev Onlookers : Type := Record → Producers

/-- Takes a step. What a step asks it asks before it changes the record. -/
def stepWatched (flows : Flows) (ask : Onlookers) (st : Step) (x : Journal × Session Record) :
    Except Failure Answer × Journal × Session Record :=
  (st.act flows).run (ask x.2.entity) x.1 x.2

/-- The journal and the session after a run. -/
def afterWatched (flows : Flows) (ask : Onlookers) (steps : List Step)
    (x : Journal × Session Record) : Journal × Session Record :=
  steps.foldl (fun x st => (stepWatched flows ask st x).2) x

/-- Producers that do not look are a special case. -/
theorem afterWatched_const (flows : Flows) (ps : Producers) (steps : List Step)
    (x : Journal × Session Record) :
    afterWatched flows (fun _ => ps) steps x = after flows ps steps x := by
  unfold after Act.after
  rw [List.foldl_map]
  rfl

/-- The producers of an attachment look at no more of the record than the attachment sees. -/
def Discreet (a : Attachment) (ask : Onlookers) : Prop :=
  ∀ r r', Record.SameAt a.field r r' → ∀ p ∈ a.definition.producers, ask r p = ask r' p

/-! ## A step of the attachment itself -/

theorem alikeFor_of {α : Type} {a : Attachment} {act : Act (Attached Record) α}
    (h : Alike (Attachment.Sees (Record.SameAt a.field)) act act) :
    Alike (AlikeFor a i) (of i act) (of i act) := by
  refine h.zoom (fun s t hst => hst) fun s t x y _ hxy => ⟨?_, hxy.2⟩
  change (if i = i then x.checked else _) = if i = i then y.checked else _
  rw [if_pos rfl, if_pos rfl]
  exact hxy.1

theorem alikeFor_change {a : Attachment} {f : Record → Record}
    (h : ∀ r r', Record.SameAt a.field r r' → Record.SameAt a.field (f r) (f r')) :
    Alike (AlikeFor a i) (change f) (change f) :=
  fun _ _ _ _ hst => ⟨rfl, rfl, hst.1, h _ _ hst.2⟩

/-- A step of the attachment does the same in sessions that are alike for it. -/
theorem alikeFor_of_own (h : st.Own i) :
    Alike (AlikeFor (flows i) i) (st.act flows) (st.act flows) := by
  have hmatches := Record.SameAt.matches_field (flows i)
  cases st with
  | operate k op =>
    obtain rfl : k = i := h
    exact alikeFor_of (Attachment.alike_operation hmatches op)
  | write field value => exact fun _ _ _ _ hst => ⟨rfl, rfl, hst.1, hst.2.stage field value⟩
  | addColumn name =>
    exact (alikeFor_change fun _ _ h => h.addColumn name).bind fun _ => Act.alike_pure _ _
  | dropColumn name =>
    exact (alikeFor_change fun _ _ h => h.dropColumn name).bind fun _ => Act.alike_pure _ _
  | commit gate =>
    have hpersist : Alike (AlikeFor (flows i) i) (change Record.persist) (change Record.persist) :=
      alikeFor_change fun _ _ h => h.persist
    rcases h with rfl | rfl
    · exact ((Act.alike_pure _ ()).bind fun _ => hpersist).bind fun _ => Act.alike_pure _ _
    · have hcheck := alikeFor_of (i := i) (Attachment.alike_validateBeforeCommit hmatches)
      exact (hcheck.bind fun _ => hpersist).bind fun _ => Act.alike_pure _ _

theorem made_of_own (h : st.Own i) :
    Made (· ∈ (flows i).definition.producers) (st.act flows) := by
  cases st with
  | operate k op =>
    obtain rfl : k = i := h
    exact ((flows k).made_operation op).zoom
  | write field value =>
    exact .bind (.bind .getState fun _ => .bind (.setState _) fun _ => .ofExcept _) fun _ =>
      .pure _
  | addColumn name => exact .bind (made_change _) fun _ => .pure _
  | dropColumn name => exact .bind (made_change _) fun _ => .pure _
  | commit gate =>
    rcases h with rfl | rfl
    · have hcommit : Session.commit none = change Record.persist := rfl
      change Made _ (Session.commit none >>= _)
      rw [hcommit]
      exact .bind (made_change Record.persist) fun _ => .pure _
    · exact .bind (made_commitBy Record.persist i (flows i)) fun _ => .pure _

/-- A step of the attachment has the same outcome, adds the same to the journal and leaves moments
that the attachment cannot tell apart. -/
theorem run_of_own {ask : Onlookers} (hask : Discreet (flows i) ask) (h : st.Own i)
    {x y : Journal × Session Record} (hxy : Alongside (flows i) i x y) :
    ∃ new, (stepWatched flows ask st x).1 = (stepWatched flows ask st y).1 ∧
      (stepWatched flows ask st x).2.1 = x.1.extend new ∧
      (stepWatched flows ask st y).2.1 = y.1.extend new ∧
      Alongside (flows i) i (stepWatched flows ask st x).2 (stepWatched flows ask st y).2 := by
  unfold stepWatched
  -- First the answers are exchanged, then the sessions with the journal kept, then the journals.
  rw [(made_of_own h).run_congr (hask _ _ hxy.alike.2) y.1 y.2]
  obtain ⟨hout, hjournal, halike⟩ := alikeFor_of_own h (ask x.2.entity) x.1 x.2 y.2 hxy.alike
  obtain ⟨out, new, t, -, hx, hy⟩ :=
    (made_of_own h).confined (ask x.2.entity) x.1 y.1 y.2 hxy.calls
  rw [hx] at hout hjournal halike
  rw [hy]
  refine ⟨new, hout, hjournal, rfl, halike, ?_⟩
  rw [hjournal]
  exact hxy.calls.extend new

/-! ## A step of another attachment -/

/-- The attachment cannot tell whether a step was left out. -/
theorem alongside_of_spare (h : st.Spare flows i) (x : Journal × Session Record) :
    Alongside (flows i) i ((st.act flows).run ps x.1 x.2).2 x := by
  cases st with
  | operate k op =>
    obtain ⟨hfield, havoids⟩ := h
    have hk : i ≠ k := fun hik => hfield (by rw [hik])
    have hkeeps {γ : Type} (f : Record → γ)
        (hf : ∀ r v, f (r.stage (flows k).field v) = f r) :
        f (((Step.operate k op).act flows).run ps x.1 x.2).2.2.entity = f x.2.entity :=
      keeps_operation hf op ps x.1 (x.2.view k)
    exact {
      alike := ⟨if_neg hk, {
        columns := hkeeps Record.columns fun _ _ => rfl
        staged := hkeeps (fun r => r.values.value (flows i).field) fun r v => by
          rw [Record.values_stage, if_neg hfield]
        persisted := hkeeps (fun r => r.persistedValue (flows i).field) fun _ _ => rfl
        isNew := hkeeps (fun r => r.persisted.isNone) fun _ _ => rfl }⟩
      calls := havoids ps x.1 (x.2.view k) }
  | write field value =>
    refine ⟨⟨rfl, rfl, ?_, rfl, rfl⟩, fun _ _ => rfl⟩
    exact (Record.values_stage x.2.entity field (flows i).field value).trans (if_neg h)
  | addColumn name => exact h.elim
  | dropColumn name => exact h.elim
  | commit gate => exact h.elim

section Watched

variable {ask : Onlookers} (hask : Discreet (flows i) ask)
include hask

/-- Every step leaves moments that the attachment cannot tell apart. -/
theorem alongside_of_step (h : st.Own i ∨ st.Spare flows i) {x y : Journal × Session Record}
    (hxy : Alongside (flows i) i x y) :
    Alongside (flows i) i (stepWatched flows ask st x).2 (stepWatched flows ask st y).2 := by
  rcases h with h | h
  · obtain ⟨-, -, -, -, hstep⟩ := run_of_own hask h hxy
    exact hstep
  · exact (alongside_of_spare h x).trans (hxy.trans (alongside_of_spare h y).symm)

/-- A run from which steps are left out leads alongside the whole run. -/
theorem alongside_of_thinned {long short : List Step}
    (hthinned : Step.Thinned (Step.Spare flows i) long short)
    (hlong : ∀ st ∈ long, st.Own i ∨ st.Spare flows i) {x y : Journal × Session Record}
    (hxy : Alongside (flows i) i x y) :
    Alongside (flows i) i (afterWatched flows ask long x) (afterWatched flows ask short y) := by
  induction hthinned generalizing x y with
  | nil => exact hxy
  | keep st _ ih =>
    obtain ⟨hst, hrest⟩ := List.forall_mem_cons.1 hlong
    exact ih hrest (alongside_of_step hask hst hxy)
  | drop st hspare _ ih =>
    obtain ⟨-, hrest⟩ := List.forall_mem_cons.1 hlong
    exact ih hrest ((alongside_of_spare hspare x).trans hxy)

end Watched

/-- An open review asks its producer what may follow. -/
def reviews : Definition where
  initial := .text "open"
  statuses :=
    ⟨[(.text "open", { rule := .deferred ⟨1⟩, label := .null, actionLabel := .null }),
      (.text "closed", { rule := .static .empty, label := .null, actionLabel := .null })],
      by decide⟩
  labels := .empty
  actionLabels := .empty
  name := .text "reviews"
  initial_declared := by decide
  targets_declared := by decide

/-- Orders, each with a review in another column. -/
def reviewed : Flows
  | 0 => orderFlow
  | _ => { definition := reviews, workflowName := "Reviews", field := "review", entityKind := none }

/-- An order may be shipped unless its status is lost, and a review may be closed while the order is
not. -/
def attentive : Onlookers := fun r p _ =>
  if r.values.value "status" == .text "lost" then .ok (.list [])
  else .ok (.list (if p = ⟨1⟩ then [.text "closed"] else [.text "shipped"]))

theorem discreet_attentive : Discreet (reviewed 0) attentive := by
  intro r r' h p _
  have hstatus : r.values.value "status" = r'.values.value "status" := h.staged
  unfold attentive
  rw [hstatus]

/-- A paid order with an open review. -/
def paidOrder : Record :=
  let paid : Fields := .ofList [("status", .text "paid"), ("review", .text "open")]
  { columns := ["status", "review"], values := paid, persisted := some paid }

/-- The order is to be shipped while its review is started, asked, closed and written over. -/
def reviewedOrder : List Step :=
  [.operate 1 .start, .operate 1 .nextStatuses, .operate 0 (.propose (.text "shipped")),
    .operate 1 (.propose (.text "closed")), .operate 1 .validateBeforeCommit,
    .write "review" (.int 7)]

/-- An order may be shipped once its review is done. -/
def nosy : Onlookers := fun r _ _ =>
  .ok (.list (if r.values.value "review" == .text "ok" then [.text "shipped"] else []))

end Session

end Lifecycle
