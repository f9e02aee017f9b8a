import Lifecycle.Proofs.Answers
import Lifecycle.Proofs.Loading

/-!
# Commands about files

Whatever a definition file holds, a command about it ends with exit code 0 or 1, unless it has to
print an integer that is too long to be written (`Command.Ends`). Its document denotes plain data, so
the definition has texts as identifiers and static rules only, and about such a definition every
question is answered. What remains are the refusals, which print one line about an error and nothing
else (`Command.Answered`).
-/

namespace Lifecycle

namespace Command

/-- A command about one workflow, with texts as words. -/
inductive Worded (W : String) : Command → Prop
  | describe : Worded W (.describe (.text W))
  | audit : Worded W (.audit (.text W))
  | next (status : String) (labels : Bool) : Worded W (.next (.text W) (.text status) labels)
  | check (source target : String) : Worded W (.check (.text W) (.text source) (.text target))
  | dropdown (actions : Bool) : Worded W (.dropdown (.text W) actions)

/-- A command is refused an answer for what loading its workflow gave, in these words. -/
inductive Refused : Command → Except Failure Definition → String → Prop
  | missing (c : Command) (path : String) :
      Refused c (.error (.access .missing path)) ("Workflow file not found: " ++ path)
  | workflow (c : Command) {e : Failure} (h : e.isWorkflow = true) :
      Refused c (.error e) e.message
  | undeclared (workflow : Datum) {status : Datum} (labels : Bool) {d : Definition}
      (h : d.declares status = false) :
      Refused (.next workflow status labels) (.ok d) (Definition.undeclared status).message

/-- The answer to a command about a definition is yes, where there is something to answer. -/
def Affirmed (c : Command) (d : Definition) : Prop :=
  match c with
  | .describe _ => True
  | .audit _ => ∃ report, d.audit = .ok report ∧ report.passed = true
  | .next _ status _ => d.declares status = true
  | .check _ source target => source = target ∨ d.statuses.Edge source target
  | .dropdown _ _ => True

/-- A command ends well with this exit code and output, for what loading its workflow gave: with one
line about an error just when it is refused an answer, and with 0 just when the answer is yes. -/
structure Answered (c : Command) (loaded : Except Failure Definition) (code : Nat) (out : String) :
    Prop where
  zero_or_one : code = 0 ∨ code = 1
  refused : ∀ message, code = 1 ∧ out = "ERROR: " ++ message ++ "\n" ↔ c.Refused loaded message
  affirmed : code = 0 ↔ ∃ d, loaded = .ok d ∧ c.Affirmed d

section Answered

variable {c : Command} {loaded : Except Failure Definition} {d : Definition} {message : String}

theorem Refused.unique {message' : String} (h : c.Refused loaded message)
    (h' : c.Refused loaded message') : message = message' := by
  cases h with
  | missing =>
    cases h' with
    | missing => rfl
    | workflow _ h => cases h
  | workflow _ h =>
    cases h' with
    | missing => cases h
    | workflow => rfl
  | undeclared =>
    cases h'
    rfl

theorem Refused.not_affirmed (h : c.Refused (.ok d) message) : ¬ c.Affirmed d := by
  cases h with
  | undeclared _ _ h =>
    intro haffirmed
    change d.declares _ = true at haffirmed
    rw [h] at haffirmed
    cases haffirmed

theorem Refused.answered (h : c.Refused loaded message) :
    Answered c loaded 1 (linesText ["ERROR: " ++ message]) where
  zero_or_one := .inr rfl
  refused message' := by
    rw [linesText, linesText, String.append_empty, String.append_left_inj, String.append_right_inj]
    constructor
    · rintro ⟨-, rfl⟩
      exact h
    · intro h'
      exact ⟨rfl, h.unique h'⟩
  affirmed := by
    refine iff_of_false (by decide) ?_
    rintro ⟨d, rfl, haffirmed⟩
    exact h.not_affirmed haffirmed

/-- A command that is not refused, with an output that is no line about an error where the exit code
is 1. -/
theorem answered_of_ok {code : Nat} {out : String} (hcode : code = 0 ∨ code = 1)
    (hok : code = 0 ↔ c.Affirmed d) (hgranted : ∀ message, ¬ c.Refused (.ok d) message)
    (hout : code = 1 → ∀ message, out ≠ "ERROR: " ++ message) : Answered c (.ok d) code out where
  zero_or_one := hcode
  refused message := by
    refine iff_of_false ?_ (hgranted message)
    rintro ⟨hone, htext⟩
    exact hout hone (message ++ "\n") (by rw [htext, String.append_assoc])
  affirmed := by
    rw [hok]
    constructor
    · intro haffirmed
      exact ⟨d, rfl, haffirmed⟩
    · rintro ⟨d', hd', haffirmed⟩
      cases hd'
      exact haffirmed

end Answered

/-! ## A definition that is loaded -/

section Loaded

variable {c : Command} {d : Definition} {W : String}

theorem ne_error_of_head {out text : String} (first : Char) (h : out.toList.head? = some first)
    (hfirst : first ≠ 'E') : out ≠ "ERROR: " ++ text := by
  rintro rfl
  rw [String.toList_append] at h
  exact hfirst (Option.some.inj h).symm

/-- About a definition from a file every command is answered or refused, if what the answer says can
be put into words. -/
theorem Worded.exists_answered (hc : c.Worded W) (hd : d.FromFile) :
    ∃ code lines, Says (c.said d) (c.answer d) code lines ∧
      Answered c (.ok d) code (linesText lines) := by
  have hids := hd.textIds
  have hstatic := hd.onlyStatic
  -- An answer with exit code 1 comes from the audit and the check only, in lines of their own.
  cases hc with
  | describe =>
    refine ⟨0, _, says_describe hids _, answered_of_ok (.inl rfl) (iff_of_true rfl trivial) ?_ ?_⟩
    · rintro _ ⟨⟩
    · rintro ⟨⟩
  | audit =>
    obtain ⟨report, text, haudit, hsays⟩ := says_audit hids hstatic.supported
    refine ⟨_, _, hsays, answered_of_ok ?_ ?_ ?_ fun _ _ => ?_⟩
    · cases report.passed <;> simp
    · change _ ↔ ∃ report, d.audit = .ok report ∧ report.passed = true
      rw [haudit]
      simp
    · rintro _ ⟨⟩
    · refine ne_error_of_head 'W' ?_ (by decide)
      simp only [linesText, String.toList_append, List.append_assoc]
      rfl
  | next a labels =>
    cases hdecl : d.declares (.text a) with
    | false =>
      exact ⟨1, _, says_next_of_undeclared _ hdecl labels, (Refused.undeclared _ _ hdecl).answered⟩
    | true =>
      obtain ⟨targets, hn, hresolved⟩ := hstatic.exists_targets hdecl
      refine ⟨0, _, says_next _ hn hresolved labels,
        answered_of_ok (.inl rfl) (iff_of_true rfl hdecl) ?_ ?_⟩
      · rintro _ (_ | _ | ⟨_, _, hundeclared⟩)
        rw [hdecl] at hundeclared
        cases hundeclared
      · rintro ⟨⟩
  | check a b =>
    obtain ⟨permitted, words, hpermitted, hsays⟩ := says_check hids hstatic a b
    refine ⟨_, _, hsays, answered_of_ok ?_ ?_ ?_ fun _ _ => ?_⟩
    · cases permitted <;> simp
    · change _ ↔ Datum.text a = .text b ∨ d.statuses.Edge (.text a) (.text b)
      rw [Datum.text.injEq, ← hpermitted]
      simp
    · rintro _ ⟨⟩
    · refine ne_error_of_head ' ' ?_ (by decide)
      simp only [linesText, String.toList_append, List.append_assoc]
      rfl
  | dropdown actions =>
    refine ⟨0, _, says_dropdown hids actions,
      answered_of_ok (.inl rfl) (iff_of_true rfl trivial) ?_ ?_⟩
    · rintro _ ⟨⟩
    · rintro ⟨⟩

/-- What an answer about a definition from a file says can be put into words if the definition can. -/
theorem Worded.all_writable (hc : c.Worded W) (hids : d.TextIds) (hd : d.Writable) :
    (c.said d).all Datum.writable = true := by
  have hlabel (action : Bool) : ∀ s ∈ d.statusIds, (d.labelIn action s).writable = true := by
    intro s hs
    obtain ⟨t, rfl⟩ := hids s hs
    exact hd.label action t
  rw [List.all_eq_true]
  intro x hx
  cases hc with
  | describe =>
    rcases List.mem_cons.1 hx with rfl | hx
    · exact hd.name
    · obtain ⟨s, hs, hx⟩ := List.mem_flatMap.1 hx
      simp only [List.mem_cons, List.not_mem_nil, or_false] at hx
      rcases hx with rfl | rfl
      · exact hlabel false s hs
      · exact hlabel true s hs
  | audit =>
    rw [List.mem_singleton.1 hx]
    exact hd.name
  | next a labels =>
    cases labels with
    | false => cases hx
    | true =>
      obtain ⟨s, hs, rfl⟩ := List.mem_map.1 hx
      obtain ⟨t, rfl⟩ := exists_text_of_mem_following s hs
      exact hd.label true t
  | check a b =>
    rw [Definition.eq_name_of_mem_saidOf hx]
    exact hd.name
  | dropdown actions =>
    obtain ⟨s, hs, rfl⟩ := List.mem_map.1 hx
    exact hlabel actions s hs

end Loaded

/-! ## Loading it -/

section Loading

variable {w : Workspace} {W : String} {c : Command} {d : Definition}

theorem prints_loadNamed (w : Workspace) (W : String) :
    Prints (w.loadNamed (.text W)) (w.definitionOf W) [] := by
  refine prints_nothing fun ps j => ?_
  obtain ⟨j', hrun⟩ := w.exists_run_load W j
  exact ⟨j', fun printed => hrun ps printed⟩

theorem Worded.workflow_eq (hc : c.Worded W) : c.workflow = .text W := by
  cases hc <;> rfl

/-- After its workflow is loaded a command does what it answers about the definition. -/
theorem Worded.prints_run (hc : c.Worded W) (hload : w.definitionOf W = .ok d)
    {ending : Except Failure Nat} {lines : List String} (h : Prints (c.answer d) ending lines) :
    Prints (c.run w.loadNamed) ending lines := by
  have hloaded := prints_loadNamed w W
  rw [hload] at hloaded
  unfold run
  rw [hc.workflow_eq]
  exact hloaded.orPrint_of_ok.use h

theorem Worded.says_run (hc : c.Worded W) (hload : w.definitionOf W = .ok d) {said : List Datum}
    {code : Nat} {lines : List String} (h : Says said (c.answer d) code lines) :
    Says said (c.run w.loadNamed) code lines := by
  refine says_iff.2 ((says_iff.1 h).imp (And.imp_right (hc.prints_run hload)) (And.imp_right ?_))
  exact fun ⟨lines', hprints⟩ => ⟨lines', hc.prints_run hload hprints⟩

/-- Without a definition a command prints why and does no more. -/
theorem Worded.prints_refusal (hc : c.Worded W) {e : Failure} {message : String}
    (hload : w.definitionOf W = .error e) (h : c.Refused (.error e) message) :
    Prints (c.run w.loadNamed) (.ok 1) ["ERROR: " ++ message] := by
  have hloaded := prints_loadNamed w W
  rw [hload] at hloaded
  unfold run
  rw [hc.workflow_eq]
  cases h with
  | missing => exact hloaded.orPrint_of_missing.then (prints_pure 1)
  | workflow _ he => exact (hloaded.orPrint_of_workflow he).then (prints_pure 1)

theorem Worded.prints_misuse (hc : c.Worded W) {m : Misuse}
    (hload : w.definitionOf W = .error (.misuse m)) :
    Prints (c.run w.loadNamed) (.error (.misuse m)) [] := by
  have hloaded := prints_loadNamed w W
  rw [hload] at hloaded
  unfold run
  rw [hc.workflow_eq]
  exact hloaded.orPrint_of_misuse.bind_of_error

/-- Something that the command would say of what loading its workflow gave, or that loading itself
would put into words, holds an integer that is too long to be written. -/
inductive Unworded (c : Command) : Except Failure Definition → Prop
  | loading : Unworded c (.error (.misuse .tooManyDigits))
  | answering {d : Definition} {x : Datum} (hx : x ∈ c.said d) (h : x.writable = false) :
      Unworded c (.ok d)

/-- How a command ends, for what loading its workflow gave: well, with an answer or a refusal, unless
an integer is too long to be written. -/
def Ends (c : Command) (loaded : Except Failure Definition) (result : Except Failure Nat)
    (out : String) : Prop :=
  (¬ c.Unworded loaded ∧ ∃ code, result = .ok code ∧ Answered c loaded code out) ∨
    (c.Unworded loaded ∧ result = .error (.misuse .tooManyDigits))

theorem Refused.ends {e : Failure} {message : String} (h : c.Refused (.error e) message)
    (hother : e ≠ .misuse .tooManyDigits) :
    Ends c (.error e) (.ok 1) (linesText ["ERROR: " ++ message]) := by
  refine .inl ⟨?_, 1, rfl, h.answered⟩
  rintro ⟨⟩
  exact hother rfl

theorem Says.ends {code : Nat} {lines : List String} (h : Says (c.said d) (c.answer d) code lines)
    (hanswered : Answered c (.ok d) code (linesText lines)) :
    ∃ result lines', Prints (c.answer d) result lines' ∧ Ends c (.ok d) result (linesText lines') := by
  rcases says_iff.1 h with ⟨hall, hprints⟩ | ⟨hall, lines', hprints⟩
  · refine ⟨.ok code, lines, hprints, .inl ⟨?_, code, rfl, hanswered⟩⟩
    rintro (_ | ⟨hx, hunwritable⟩)
    rw [List.all_eq_true.1 hall _ hx] at hunwritable
    cases hunwritable
  · obtain ⟨x, hx, hunwritable⟩ := List.all_eq_false.1 hall
    exact ⟨_, lines', hprints, .inr ⟨.answering hx (Bool.eq_false_iff.2 hunwritable), rfl⟩⟩

/-- A command about a legible workflow ends well, whatever the file holds, unless an integer in the
file is too long to be written. -/
theorem answered_of_legible (hyaml : w.PlainYaml) (h : w.Legible W) (hc : c.Worded W)
    (ps : Producers) (j : Journal) (printed : String) :
    let loaded := ((w.loadNamed (.text W)).run ps j printed).1
    (∃ result j' out, (c.run w.loadNamed).run ps j printed = (result, j', printed ++ out) ∧
      Ends c loaded result out) ∧
    (w.Writable W → ¬ c.Unworded loaded) := by
  intro loaded
  have hloaded : loaded = w.definitionOf W := by
    obtain ⟨j', hrun⟩ := prints_loadNamed w W ps j
    change ((w.loadNamed (.text W)).run ps j printed).1 = _
    rw [hrun]
  have hends : (∃ result lines, Prints (c.run w.loadNamed) result lines ∧
      Ends c loaded result (linesText lines)) ∧ (w.Writable W → ¬ c.Unworded loaded) := by
    rw [hloaded]
    rcases h.cases with
      ⟨d, hd, hwritable⟩ | ⟨path, hmissing⟩ | ⟨fault, hfault⟩ | ⟨hlong, hunwritable⟩
    · have hfile := Workspace.fromFile_definitionOf hyaml W d hd
      obtain ⟨code, lines, hsays, hanswered⟩ := hc.exists_answered hfile
      obtain ⟨result, lines', hprints, hends⟩ := hsays.ends hanswered
      rw [hd]
      refine ⟨⟨result, lines', hc.prints_run hd hprints, hends⟩, fun hw => ?_⟩
      have hall := hc.all_writable hfile.textIds (hwritable hw)
      rintro (_ | ⟨hx, hunwritable⟩)
      rw [List.all_eq_true.1 hall _ hx] at hunwritable
      cases hunwritable
    · rw [hmissing]
      have hrefused := Refused.missing c path
      exact ⟨⟨.ok 1, _, hc.prints_refusal hmissing hrefused, hrefused.ends nofun⟩, fun _ => nofun⟩
    · rw [hfault]
      have hrefused : c.Refused (.error (.definition fault)) _ := .workflow c rfl
      exact ⟨⟨.ok 1, _, hc.prints_refusal hfault hrefused, hrefused.ends nofun⟩, fun _ => nofun⟩
    · rw [hlong]
      exact ⟨⟨_, [], hc.prints_misuse hlong, .inr ⟨.loading, rfl⟩⟩, fun hw => absurd hw hunwritable⟩
  obtain ⟨⟨result, lines, hprints, hends⟩, hwritable⟩ := hends
  obtain ⟨j', hrun⟩ := hprints ps j
  exact ⟨⟨result, j', linesText lines, hrun printed, hends⟩, hwritable⟩

/-- A document with numbers, truth values and null where texts are usual. -/
def oddText : String := "initial_status: 1\nstatuses:\n  1: [null]\n  null:\n    label: [true]\n"

/-- A workspace with that document in a file. -/
def oddWorkspace : Workspace := .holding Yaml.read "odd.yaml" oddText

theorem plainYaml_oddWorkspace : oddWorkspace.PlainYaml := Yaml.plain_read

theorem exists_oddText_document :
    ∃ document, Yaml.read oddText = .ok document ∧ document.writable = true :=
  exists_ok_of_any (by decide +kernel)

theorem exists_oddWorkspace_parsed :
    ∃ document, oddWorkspace.Parsed "odd.yaml" document ∧ document.writable = true := by
  obtain ⟨document, hread, hwritable⟩ := exists_oddText_document
  have hparsed : oddWorkspace.Parsed "odd.yaml" document := Workspace.parsed_holding
    (by decide +kernel) (by decide +kernel) (by decide +kernel) hread
  exact ⟨document, hparsed, hwritable⟩

theorem legible_oddWorkspace : oddWorkspace.Legible "odd.yaml" := by
  obtain ⟨_, hparsed, -⟩ := exists_oddWorkspace_parsed
  exact .parsed hparsed

theorem writable_oddWorkspace : oddWorkspace.Writable "odd.yaml" := by
  intro document h
  obtain ⟨_, hparsed, hwritable⟩ := exists_oddWorkspace_parsed
  rw [h.unique hparsed]
  exact hwritable

theorem exists_oddText_definition : ∃ d,
    oddWorkspace.definitionOf "odd.yaml" = .ok d ∧ d.declares (.text "None") = true :=
  exists_ok_of_any (by decide +kernel)

theorem oddText_answers_next :
    let c : Command := .next (.text "odd.yaml") (.text "None") true
    oddWorkspace.PlainYaml ∧ oddWorkspace.Legible "odd.yaml" ∧ c.Worded "odd.yaml" ∧ ∃ j' out,
      (c.run oddWorkspace.loadNamed).run (fun _ _ => .ok .null) .empty "" = (.ok 0, j', out) := by
  intro c
  have hc : c.Worded "odd.yaml" := .next "None" true
  obtain ⟨⟨result, j', out, hrun, hends⟩, hworded⟩ := answered_of_legible plainYaml_oddWorkspace
    legible_oddWorkspace hc (fun _ _ => .ok .null) .empty ""
  obtain ⟨d, hd, hdeclares⟩ := exists_oddText_definition
  obtain ⟨_, hloaded⟩ := oddWorkspace.exists_run_load "odd.yaml" .empty
  rcases hends with ⟨-, code, rfl, hanswered⟩ | ⟨hunworded, -⟩
  · have hcode : code = 0 :=
      hanswered.affirmed.2 ⟨d, (congrArg Prod.fst (hloaded _ _)).trans hd, hdeclares⟩
    rw [hcode] at hrun
    exact ⟨plainYaml_oddWorkspace, legible_oddWorkspace, hc, j', _, hrun⟩
  · exact absurd hunworded (hworded writable_oddWorkspace)

/-! ## A label that has no text -/

/-- A document in YAML with an integer for a label, which in base sixteen consists of so many `f`. -/
def hexText (digits : Nat) : String :=
  "initial_status: draft\nstatuses:\n  draft:\n    label: 0x" ++
    String.ofList (List.replicate digits 'f') ++ "\n"

theorem no_return_hexText (digits : Nat) : '\r' ∉ (hexText digits).toList := by
  have happend {a b : String} (ha : '\r' ∉ a.toList) (hb : '\r' ∉ b.toList) :
      '\r' ∉ (a ++ b).toList := by
    rw [String.toList_append, List.mem_append, not_or]
    exact ⟨ha, hb⟩
  have hdigits : '\r' ∉ (String.ofList (List.replicate digits 'f')).toList := by
    rw [String.toList_ofList]
    exact fun h => absurd (List.eq_of_mem_replicate h) (by decide)
  exact happend (happend (by decide +kernel) hdigits) (by decide +kernel)

/-- The document that the text denotes. -/
def hexDocument (digits : Nat) : Datum :=
  .map [(.text "initial_status", .text "draft"),
    (.text "statuses", .map [(.text "draft", .map [(.text "label", .int (16 ^ digits - 1 : Nat))])])]

theorem plain_hexDocument (digits : Nat) : (hexDocument digits).Plain := by
  simp only [hexDocument, Datum.inherited_plain.map_iff, List.forall_mem_cons,
    List.not_mem_nil, false_imp_iff, implies_true, and_true]
  exact ⟨⟨.text _, .text _⟩, .text _, .text _, .text _, .int _⟩

/-- A workspace with the text in a file. -/
def hexWorkspace (digits : Nat) : Workspace :=
  .holding (fun _ => .ok (hexDocument digits)) "hex.yaml" (hexText digits)

theorem plainYaml_hexWorkspace (digits : Nat) : (hexWorkspace digits).PlainYaml :=
  fun _ => results_ok (plain_hexDocument digits)

theorem parsed_hexWorkspace (digits : Nat) :
    (hexWorkspace digits).Parsed "hex.yaml" (hexDocument digits) :=
  Workspace.parsed_holding (by decide +kernel) (by decide +kernel) (no_return_hexText digits) rfl

theorem exists_hexWorkspace_definition (digits : Nat) : ∃ d,
    (hexWorkspace digits).definitionOf "hex.yaml" = .ok d ∧ d.statusIds = [.text "draft"] ∧
      d.labelIn false (.text "draft") = .int (16 ^ digits - 1 : Nat) := by
  have hstem : (Path.ofText "hex.yaml").stem = "hex" := by decide +kernel
  have hload : (hexWorkspace digits).definitionOf "hex.yaml" = _ :=
    Workspace.definitionOf_holding (by decide +kernel) (by decide +kernel)
      (no_return_hexText digits) rfl rfl
  rw [hstem] at hload
  exact ⟨_, hload, rfl, rfl⟩

/-- The choices of the workflow break off if the label is too long. -/
theorem prints_dropdown_of_long {digits : Nat}
    (hlong : (Datum.int (16 ^ digits - 1 : Nat)).writable = false) : ∃ lines,
    Prints ((Command.dropdown (.text "hex.yaml") false).run (hexWorkspace digits).loadNamed)
      (.error (.misuse .tooManyDigits)) lines := by
  obtain ⟨d, hd, hids, hlabel⟩ := exists_hexWorkspace_definition digits
  have hfile := Workspace.fromFile_definitionOf (plainYaml_hexWorkspace digits) "hex.yaml" d hd
  have hsays := says_dropdown hfile.textIds false
  rw [hids, List.map_cons, List.map_nil, hlabel] at hsays
  rcases says_iff.1 hsays with ⟨hall, -⟩ | ⟨-, lines, hprints⟩
  · rw [List.all_cons, hlong] at hall
    cases hall
  · exact ⟨lines, (Worded.dropdown false).prints_run hd hprints⟩

theorem longLabel_unwritable : (Datum.int (16 ^ 3600 - 1 : Nat)).writable = false := by
  decide +kernel

/-- A command need not end well where a label is an integer of too many digits. -/
theorem dropdown_unanswered :
    let w := hexWorkspace 3600
    let c : Command := .dropdown (.text "hex.yaml") false
    w.PlainYaml ∧ w.Legible "hex.yaml" ∧ c.Worded "hex.yaml" ∧ ∀ ps j code j' out,
      (c.run w.loadNamed).run ps j "" ≠ (.ok code, j', out) := by
  intro w c
  refine ⟨plainYaml_hexWorkspace _, .parsed (parsed_hexWorkspace _), .dropdown false, ?_⟩
  intro ps j code j' out heq
  obtain ⟨lines, hprints⟩ := prints_dropdown_of_long longLabel_unwritable
  obtain ⟨_, hrun⟩ := hprints ps j
  cases (hrun "").symm.trans heq

end Loading

end Command

end Lifecycle
