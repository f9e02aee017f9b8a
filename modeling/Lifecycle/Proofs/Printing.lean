import Lifecycle.Command.Run
import Lifecycle.Proofs.Wording

/-!
# What acts print

An act that prints adds lines to the text before, which it never reads. `Command.Prints` says how an
act ends and which lines it adds, whatever the producers and the journal are. `Command.Says` says of
an act with data to put into words that it prints its lines if all of them can be written, and that
else this is what fails. There is one rule for each way in which the commands put acts together.
-/

namespace Lifecycle.Command

/-- Lines as a text, each with its line feed. -/
def linesText : List String → String
  | [] => ""
  | line :: lines => line ++ "\n" ++ linesText lines

theorem linesText_append (lines lines' : List String) :
    linesText (lines ++ lines') = linesText lines ++ linesText lines' := by
  induction lines with
  | nil => exact String.empty_append.symm
  | cons line lines ih =>
    rw [List.cons_append, linesText, linesText, ih]
    simp only [String.append_assoc]

/-- The act ends in this way after adding these lines to the text before. -/
def Prints {α : Type} (act : Act String α) (ending : Except Failure α) (lines : List String) : Prop :=
  ∀ ps j, ∃ j' : Journal, ∀ printed : String,
    act.run ps j printed = (ending, j', printed ++ linesText lines)

section Rules

variable {α β : Type} {act : Act String α} {f : α → Act String β} {a : α} {e : Failure}
  {ending : Except Failure β} {lines lines' : List String}

theorem prints_nothing {ending : Except Failure α} (h : ∀ ps j, ∃ j' : Journal,
    ∀ printed : String, act.run ps j printed = (ending, j', printed)) : Prints act ending [] := by
  intro ps j
  obtain ⟨j', hrun⟩ := h ps j
  refine ⟨j', fun printed => ?_⟩
  rw [hrun, linesText, String.append_empty]

theorem prints_ofExcept (r : Except Failure α) : Prints (Act.ofExcept r) r [] :=
  prints_nothing fun _ j => ⟨j, fun _ => rfl⟩

theorem prints_pure (a : α) : Prints (pure a) (.ok a) [] := prints_ofExcept (.ok a)

theorem prints_printLine (line : String) : Prints (printLine line) (.ok ()) [line] := by
  intro ps j
  refine ⟨j, fun printed => ?_⟩
  rw [linesText, linesText, String.append_empty, ← String.append_assoc]
  rfl

theorem Prints.bind (h : Prints act (.ok a) lines) (hf : Prints (f a) ending lines') :
    Prints (act >>= f) ending (lines ++ lines') := by
  intro ps j
  obtain ⟨j₁, hact⟩ := h ps j
  obtain ⟨j₂, hnext⟩ := hf ps j₁
  refine ⟨j₂, fun printed => ?_⟩
  rw [Act.run_bind, hact, linesText_append, ← String.append_assoc]
  exact hnext _

theorem Prints.bind_of_error (h : Prints act (.error e) lines) :
    Prints (act >>= f) (.error e) lines := by
  intro ps j
  obtain ⟨j', hact⟩ := h ps j
  refine ⟨j', fun printed => ?_⟩
  rw [Act.run_bind, hact]

/-- An act for its result only. -/
theorem Prints.use (h : Prints act (.ok a) []) (hf : Prints (f a) ending lines) :
    Prints (act >>= f) ending lines := h.bind hf

/-- An act with nothing but a result after it. -/
theorem Prints.then (h : Prints act (.ok a) lines) (hf : Prints (f a) ending []) :
    Prints (act >>= f) ending lines := by
  have hboth := h.bind hf
  rwa [List.append_nil] at hboth

theorem Prints.attempt {ending : Except Failure α} (h : Prints act ending lines) :
    Prints act.attempt (.ok ending) lines := by
  intro ps j
  obtain ⟨j', hact⟩ := h ps j
  refine ⟨j', fun printed => ?_⟩
  rw [Act.run_attempt, hact]

theorem prints_printFailure (message : String) :
    Prints (printFailure message) (.ok ()) ["ERROR: " ++ message] := prints_printLine _

theorem Prints.orPrint_of_ok (h : Prints act (.ok a) []) : Prints (orPrint act) (.ok (some a)) [] :=
  h.attempt.use (prints_pure _)

theorem Prints.orPrint_of_missing {path : String}
    (h : Prints act (.error (.access .missing path)) []) :
    Prints (orPrint act) (.ok none) ["ERROR: " ++ ("Workflow file not found: " ++ path)] :=
  h.attempt.use ((prints_printFailure _).bind (prints_pure _))

theorem Prints.orPrint_of_workflow (h : Prints act (.error e) []) (he : e.isWorkflow = true) :
    Prints (orPrint act) (.ok none) ["ERROR: " ++ e.message] := by
  refine h.attempt.use ?_
  cases e <;> cases he <;> exact (prints_printFailure _).bind (prints_pure _)

theorem Prints.orPrint_of_misuse {m : Misuse} (h : Prints act (.error (.misuse m)) []) :
    Prints (orPrint act) (.error (.misuse m)) [] :=
  h.attempt.use (prints_ofExcept _)

end Rules

/-! ## Data put into words -/

/-- The act ends well after adding these lines, if all that it puts into words can be written. Else
that is what fails, at some line. -/
def Says {α : Type} (said : List Datum) (act : Act String α) (a : α) (lines : List String) : Prop :=
  if said.all Datum.writable then Prints act (.ok a) lines
  else ∃ lines', Prints act (.error (.misuse .tooManyDigits)) lines'

section Says

variable {α β : Type} {act : Act String α} {f : α → Act String β} {a : α} {b : β}
  {said said' : List Datum} {lines lines' : List String}

theorem says_iff : Says said act a lines ↔
    (said.all Datum.writable = true ∧ Prints act (.ok a) lines) ∨
      (said.all Datum.writable = false ∧
        ∃ lines', Prints act (.error (.misuse .tooManyDigits)) lines') := by
  unfold Says
  cases said.all Datum.writable <;> simp

theorem says_of_prints (h : Prints act (.ok a) lines) : Says [] act a lines := h

theorem says_printLine (line : String) : Says [] (printLine line) () [line] :=
  says_of_prints (prints_printLine line)

/-- A result that has to be put into words. -/
theorem says_ofExcept {d : Datum} {r : Except Failure α}
    (h : r = if d.writable then .ok a else .error (.misuse .tooManyDigits)) :
    Says [d] (Act.ofExcept r) a [] := by
  unfold Says
  rw [h, List.all_cons, List.all_nil, Bool.and_true]
  split
  · exact prints_ofExcept _
  · exact ⟨[], prints_ofExcept _⟩

theorem says_shown (d : Datum) : Says [d] (Act.ofExcept d.shown) d.form [] := says_ofExcept rfl

theorem says_shownOr (d : Datum) (alternative : String) :
    Says [d] (Act.ofExcept (d.shownOr alternative)) (d.formOr alternative) [] :=
  says_ofExcept (d.shownOr_eq alternative)

theorem says_shownOr_map (d : Datum) (alternative : String) (f : String → α) :
    Says [d] (Act.ofExcept ((d.shownOr alternative).map f)) (f (d.formOr alternative)) [] := by
  refine says_ofExcept ?_
  rw [Datum.shownOr_eq]
  cases d.writable <;> rfl

theorem Says.bind (h : Says said act a lines) (hf : Says said' (f a) b lines') :
    Says (said ++ said') (act >>= f) b (lines ++ lines') := by
  rw [says_iff, List.all_append]
  rcases says_iff.1 h with ⟨hsaid, hact⟩ | ⟨hsaid, failed, hact⟩
  · rw [hsaid, Bool.true_and]
    refine (says_iff.1 hf).imp (And.imp_right hact.bind) (And.imp_right ?_)
    rintro ⟨failed, hnext⟩
    exact ⟨_, hact.bind hnext⟩
  · rw [hsaid, Bool.false_and]
    exact .inr ⟨rfl, failed, hact.bind_of_error⟩

theorem Says.prints (h : Says said act a lines) (hf : Prints (f a) (.ok b) lines') :
    Says said (act >>= f) b (lines ++ lines') := by
  have hboth := h.bind (says_of_prints hf)
  rwa [List.append_nil] at hboth

/-- An act with nothing but a result after it. -/
theorem Says.then (h : Says said act a lines) (hf : Prints (f a) (.ok b) []) :
    Says said (act >>= f) b lines := by
  have hboth := h.prints hf
  rwa [List.append_nil] at hboth

theorem says_forM {items : List α} {f : α → Act String PUnit} {said : α → List Datum}
    {line : α → List String} (h : ∀ x ∈ items, Says (said x) (f x) () (line x)) :
    Says (items.flatMap said) (items.forM f) () (items.flatMap line) := by
  induction items with
  | nil => exact says_of_prints (prints_pure _)
  | cons x items ih =>
    obtain ⟨hx, hitems⟩ := List.forall_mem_cons.1 h
    exact hx.bind (ih hitems)

theorem says_each {items : List α} {f : α → Act String PUnit} {said : α → List Datum}
    {line : α → String} (h : ∀ x ∈ items, Says (said x) (f x) () [line x]) :
    Says (items.flatMap said) (items.forM f) () (items.map line) := by
  rw [List.map_eq_flatMap]
  exact says_forM h

end Says

end Lifecycle.Command
