import Lifecycle.Proofs.Inheritance
import Lifecycle.Proofs.Provider
import Lifecycle.Workspace.Definitions

/-!
# Definitions from files

What a file gives depends on the workspace alone (`Workspace.definitionOf`). A definition from a file
has texts as identifiers and as keys of its labels, and static rules only
(`Workspace.fromFile_definitionOf`), since documents denote plain data. Where the file can be read
as text and parsed, or there is none, loading fails only for a missing file, for a fault of the
document or for an integer in it that is too long to be written (`Workspace.Legible.cases`).
-/

namespace Lifecycle

/-- A text without carriage returns has no breaks to be replaced. -/
theorem plainBreaks_of_no_return {cs : List Char} (h : '\r' ∉ cs) : plainBreaks cs = cs := by
  induction cs with
  | nil => rfl
  | cons c cs ih =>
    rw [List.mem_cons, not_or] at h
    have hkept : plainBreaks (c :: cs) = c :: plainBreaks cs := by
      rw [plainBreaks]
      · exact fun _ hreturn => absurd hreturn.symm h.1
      · exact fun hreturn => absurd hreturn.symm h.1
    rw [hkept, ih h.2]

/-! ## Definitions in plain documents -/

namespace Definition

variable {document name : Datum} {d : Definition}

/-- What is known of a definition from a file. -/
structure FromFile (d : Definition) : Prop where
  textIds : d.TextIds
  onlyStatic : d.OnlyStatic
  labels : ∀ e ∈ d.labels.entries, (e.1 == e.1) = true
  actionLabels : ∀ e ∈ d.actionLabels.entries, (e.1 == e.1) = true

theorem fromFile_of_ofDocument (h : ofDocument document .null .null name = .ok d)
    (hplain : document.Plain) : d.FromFile := by
  have hself {k : Datum} (hk : Table.Exact k) : (k == k) = true := (hk k).1.2 rfl
  obtain ⟨initial, entries, -, -, -, hread⟩ := exists_readFrom h
  refine ⟨(coherent_of_ofDocument h).textIds, onlyStatic_of_plain h hplain, ?_, ?_⟩
  · rw [hread.labels]
    exact fun e he => hself (exact_of_mem_nodeLabels he)
  · rw [hread.actionLabels]
    exact fun e he => hself (exact_of_mem_nodeLabels he)

theorem OnlyStatic.supported (h : d.OnlyStatic) : d.Supported := by
  intro e he kind hkind
  obtain ⟨targets, htargets⟩ := h e he
  rw [hkind] at htargets
  cases htargets

end Definition

/-! ## Loading -/

namespace Workspace

variable {w : Workspace} {W : String} {p : Path} {d : Definition}

/-- YAML denotes plain data. This is all that is asked of what reads it. -/
def PlainYaml (w : Workspace) : Prop := ∀ text, Results Datum.Plain (w.readYaml text)

theorem plain_readDocument (hyaml : w.PlainYaml) (p : Path) (text : String) :
    Results Datum.Plain (w.readDocument p text) := by
  unfold readDocument
  split
  · exact Json.plain_read text
  · exact hyaml text

theorem plain_read (hyaml : w.PlainYaml) (p : Path) :
    Results (fun t => ∀ e ∈ t.entries, PlainEntry e) (w.read p) := by
  refine (results_any (w.bytes p)).bind fun bytes _ => ?_
  split
  · exact results_error _ _
  split
  · exact results_error _ _
  · exact results_error _ _
  rename_i document hread
  have hplain : document.Plain := plain_readDocument hyaml p _ document hread
  split
  · exact results_error _ _
  · exact results_ok (Datum.inherited_plain.of_table hplain ‹_›)

theorem fromFile_readDefinition (hyaml : w.PlainYaml) (p : Path) :
    Results Definition.FromFile (w.readDefinition p) :=
  (plain_read hyaml p).bind fun _ hplain _ hread =>
    Definition.fromFile_of_ofDocument hread (plain_ofTable hplain)

/-- What loading a workflow gives. -/
def definitionOf (w : Workspace) (nameOrPath : String) : Except Failure Definition := do
  w.readDefinition (← w.locate nameOrPath)

theorem fromFile_definitionOf (hyaml : w.PlainYaml) (W : String) :
    Results Definition.FromFile (w.definitionOf W) :=
  (results_any _).bind fun p _ => fromFile_readDefinition hyaml p

/-- The journal after a file was read. A definition that was loaded is noted. -/
def noted (j : Journal) (p : Path) : Except Failure Definition → Journal
  | .ok _ => { j with events := j.events ++ [.loaded p.text] }
  | .error _ => j

section Run

variable {σ : Type} (ps : Producers) (j : Journal) (s : σ)

theorem run_loadFile (w : Workspace) (p : Path) : (w.loadFile p).run ps j s =
    (w.readDefinition p, noted j p (w.readDefinition p), s) := by
  unfold loadFile
  rw [Act.run_bind, Act.run_ofExcept]
  cases w.readDefinition p <;> rfl

theorem run_load_of_error {e : Failure} (hlocate : w.locate W = .error e) :
    (w.load W).run ps j s = (.error e, j, s) := by
  unfold load
  rw [Act.run_bind, Act.run_ofExcept, hlocate]

theorem run_load_of_ok (hlocate : w.locate W = .ok p) : (w.load W).run ps j s =
    (w.readDefinition p, noted j p (w.readDefinition p), s) := by
  unfold load
  rw [Act.run_bind, Act.run_ofExcept, hlocate]
  exact w.run_loadFile ps j s p

end Run

/-- Loading leaves the state alone and adds to the journal what does not depend on it. -/
theorem exists_run_load (w : Workspace) (W : String) (j : Journal) : ∃ j' : Journal,
    ∀ {σ : Type} (ps : Producers) (s : σ),
      (w.load W).run ps j s = (w.definitionOf W, j', s) := by
  unfold definitionOf
  cases hlocate : w.locate W with
  | error e => exact ⟨j, fun ps s => run_load_of_error ps j s hlocate⟩
  | ok p => exact ⟨noted j p (w.readDefinition p), fun ps s => run_load_of_ok ps j s hlocate⟩

/-! ## Legible files -/

/-- The workflow names a file with a text that is parsed as this document. -/
inductive Parsed (w : Workspace) (W : String) (document : Datum) : Prop
  | intro {p : Path} {bytes : List UInt8} {text : String} (hlocate : w.locate W = .ok p)
      (hentry : w.entry p = .file bytes) (htext : textOfBytes? bytes = some text)
      (hread : w.readDocument p text = .ok document)

theorem Parsed.unique {document document' : Datum} (h : w.Parsed W document)
    (h' : w.Parsed W document') : document = document' := by
  obtain ⟨hlocate, hentry, htext, hread⟩ := h
  obtain ⟨hlocate', hentry', htext', hread'⟩ := h'
  cases hlocate.symm.trans hlocate'
  cases hentry.symm.trans hentry'
  cases htext.symm.trans htext'
  exact Except.ok.inj (hread.symm.trans hread')

/-- The workflow names a file with a text that is parsed or found malformed, or names none. -/
inductive Legible (w : Workspace) (W : String) : Prop
  | missing {p : Path} (hlocate : w.locate W = .ok p) (hentry : w.entry p = .missing)
  | malformed {p : Path} {bytes : List UInt8} {text : String} (hlocate : w.locate W = .ok p)
      (hentry : w.entry p = .file bytes) (htext : textOfBytes? bytes = some text)
      (hread : w.readDocument p text = .error .malformed)
  | parsed {document : Datum} (h : w.Parsed W document)

/-- No integer in the document of the workflow is too long to be written. -/
def Writable (w : Workspace) (W : String) : Prop :=
  ∀ document, w.Parsed W document → document.writable = true

theorem bytes_of_content {bytes : List UInt8} (h : (w.entry p).content = .ok bytes) :
    w.bytes p = .ok bytes := by
  unfold Workspace.bytes
  rw [h]
  rfl

theorem bytes_of_file {bytes : List UInt8} (hentry : w.entry p = .file bytes) :
    w.bytes p = .ok bytes :=
  bytes_of_content (congrArg Entry.content hentry)

theorem readDefinition_of_unread {fault : AccessFault} (h : (w.entry p).content = .error fault) :
    w.readDefinition p = .error (.access fault p.text) := by
  unfold readDefinition read Workspace.bytes
  rw [h]
  rfl

theorem readDefinition_of_undecodable {bytes : List UInt8} (hbytes : w.bytes p = .ok bytes)
    (htext : textOfBytes? bytes = none) : w.readDefinition p = .error (.undecodable p.text) := by
  unfold readDefinition read
  simp only [hbytes, bind, Except.bind, htext]

section Text

variable {bytes : List UInt8} {text : String} (hbytes : w.bytes p = .ok bytes)
  (htext : textOfBytes? bytes = some text)
include hbytes htext

theorem readDefinition_of_malformed (hread : w.readDocument p text = .error .malformed) :
    w.readDefinition p = .error (.definition (.malformedFile p.text)) := by
  unfold readDefinition read
  simp only [hbytes, bind, Except.bind, htext, hread]

theorem readDefinition_of_scalar {fault : ScalarFault}
    (hread : w.readDocument p text = .error (.scalar fault)) :
    w.readDefinition p = .error (.scalar fault) := by
  unfold readDefinition read
  simp only [hbytes, bind, Except.bind, htext, hread]

theorem readDefinition_of_not_table {document : Datum} (hread : w.readDocument p text = .ok document)
    (htable : document.table? = none) :
    w.readDefinition p = .error (.definition (.fileNotMapping p.text)) := by
  unfold readDefinition read
  simp only [hbytes, bind, Except.bind, htext, hread, htable]

theorem readDefinition_of_table {document : Datum} {t : Table Datum Datum}
    (hread : w.readDocument p text = .ok document) (htable : document.table? = some t) :
    w.readDefinition p = Definition.ofDocument (Datum.ofTable t) .null .null
      (((t.get? (.text "name")).getD .null).orElse (.text p.stem)) := by
  unfold readDefinition read
  simp only [hbytes, bind, Except.bind, htext, hread, htable]

end Text

theorem definitionOf_of_locate (hlocate : w.locate W = .ok p) :
    w.definitionOf W = w.readDefinition p := by
  unfold definitionOf
  rw [hlocate]
  rfl

/-- A document in a file is a definition or at fault, save that an integer in it may be too long to
be written. -/
theorem Parsed.cases {document : Datum} (h : w.Parsed W document) :
    (∃ d, w.definitionOf W = .ok d ∧ (document.writable = true → d.Writable)) ∨
    (∃ fault, w.definitionOf W = .error (.definition fault)) ∨
    (w.definitionOf W = .error (.misuse .tooManyDigits) ∧ document.writable = false) := by
  obtain @⟨p, _, _, hlocate, hentry, htext, hread⟩ := h
  have hbytes := bytes_of_file hentry
  rw [definitionOf_of_locate hlocate]
  cases htable : document.table? with
  | none =>
    rw [readDefinition_of_not_table hbytes htext hread htable]
    exact .inr (.inl ⟨_, rfl⟩)
  | some t =>
    rw [readDefinition_of_table hbytes htext hread htable]
    let name := ((t.get? (.text "name")).getD .null).orElse (.text p.stem)
    have hparts (h : document.writable = true) :
        (Datum.ofTable t).writable = true ∧ name.writable = true := by
      have hentries := Datum.inherited_writable.of_table h htable
      have hgiven := Datum.inherited_writable.of_get? hentries (.text "name")
      refine ⟨Datum.inherited_writable.map_iff.2 hentries, ?_⟩
      unfold name Datum.orElse
      split
      · exact hgiven
      · rfl
    rcases Definition.ofDocument_cases .null .null (Datum.ofTable t) name with
      ⟨d, hd⟩ | hrefused
    · refine .inl ⟨d, hd, fun h => ?_⟩
      exact Definition.writable_of_ofDocument (hparts h).1 (hparts h).2 hd
    · rcases hrefused.cases with hfault | ⟨hlong, x, hx, hunwritable⟩
      · exact .inr (.inl hfault)
      · refine .inr (.inr ⟨hlong, Bool.eq_false_iff.2 fun h => ?_⟩)
        rw [Definition.writable_of_named (hparts h).1 (hparts h).2 hx] at hunwritable
        cases hunwritable

/-- A legible workflow is a definition, or its file is missing, or its document is at fault, or
something in it cannot be written. -/
theorem Legible.cases (h : w.Legible W) :
    (∃ d, w.definitionOf W = .ok d ∧ (w.Writable W → d.Writable)) ∨
    (∃ p, w.definitionOf W = .error (.access .missing p)) ∨
    (∃ fault, w.definitionOf W = .error (.definition fault)) ∨
    (w.definitionOf W = .error (.misuse .tooManyDigits) ∧ ¬ w.Writable W) := by
  cases h with
  | @missing p hlocate hentry =>
    refine .inr (.inl ⟨p.text, ?_⟩)
    rw [definitionOf_of_locate hlocate, readDefinition_of_unread (congrArg Entry.content hentry)]
  | @malformed p _ _ hlocate hentry htext hread =>
    refine .inr (.inr (.inl ⟨.malformedFile p.text, ?_⟩))
    rw [definitionOf_of_locate hlocate,
      readDefinition_of_malformed (bytes_of_file hentry) htext hread]
  | parsed h =>
    rcases h.cases with ⟨d, hd, hwritable⟩ | hfault | ⟨hlong, hunwritable⟩
    · exact .inl ⟨d, hd, fun hw => hwritable (hw _ h)⟩
    · exact .inr (.inr (.inl hfault))
    · refine .inr (.inr (.inr ⟨hlong, fun hw => ?_⟩))
      rw [hw _ h] at hunwritable
      cases hunwritable

/-! ## A single file -/

/-- The bytes of a text. -/
def bytesOfText (text : String) : List UInt8 := text.toUTF8.data.toList

/-- A text is read back from its bytes if its lines end as usual. -/
theorem textOfBytes?_bytesOfText {text : String} (h : '\r' ∉ text.toList) :
    textOfBytes? (bytesOfText text) = some text := by
  have hbytes : String.fromUTF8? ⟨(bytesOfText text).toArray⟩ = some text :=
    dif_pos text.isValidUTF8
  rw [textOfBytes?, hbytes, Option.map_some, plainBreaks_of_no_return h, String.ofList_toList]

/-- A workspace that holds one file, with the text given. -/
def holding (readYaml : String → Except DocumentFault Datum) (name text : String) : Workspace where
  current := .ofText "/desk"
  home := .ofText "/home"
  setting := none
  entry p := if p.text = name then .file (bytesOfText text) else .missing
  readYaml

section Holding

variable {readYaml : String → Except DocumentFault Datum} {name text : String}

theorem locate_holding (hsuffix : suffixes.contains (Path.ofText name).suffix = true) :
    (holding readYaml name text).locate name = .ok (.ofText name) := by
  unfold locate
  dsimp only
  rw [if_pos hsuffix]
  rfl

theorem entry_holding (hname : (Path.ofText name).text = name) :
    (holding readYaml name text).entry (.ofText name) = .file (bytesOfText text) :=
  if_pos hname

theorem parsed_holding {document : Datum}
    (hsuffix : suffixes.contains (Path.ofText name).suffix = true)
    (hname : (Path.ofText name).text = name) (htext : '\r' ∉ text.toList)
    (hread : (holding readYaml name text).readDocument (.ofText name) text = .ok document) :
    (holding readYaml name text).Parsed name document :=
  .intro (locate_holding hsuffix) (entry_holding hname) (textOfBytes?_bytesOfText htext) hread

theorem definitionOf_holding {document : Datum} {t : Table Datum Datum}
    (hsuffix : suffixes.contains (Path.ofText name).suffix = true)
    (hname : (Path.ofText name).text = name) (htext : '\r' ∉ text.toList)
    (hread : (holding readYaml name text).readDocument (.ofText name) text = .ok document)
    (htable : document.table? = some t) :
    (holding readYaml name text).definitionOf name = Definition.ofDocument (Datum.ofTable t) .null
      .null (((t.get? (.text "name")).getD .null).orElse (.text (Path.ofText name).stem)) :=
  (definitionOf_of_locate (locate_holding hsuffix)).trans <| readDefinition_of_table
    (bytes_of_file (entry_holding hname)) (textOfBytes?_bytesOfText htext) hread htable

end Holding

end Workspace

end Lifecycle
