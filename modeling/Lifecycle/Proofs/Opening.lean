import Lifecycle.Proofs.Loading
import Lifecycle.Proofs.Locating
import Lifecycle.Proofs.Reading
import Lifecycle.Workspace.Tree

/-!
# Reading definition files

The name of a file says how it is parsed, and gives the definition in it a name if the document does
not (`Workspace.Opens`). To load a workflow is to read the one file that is found for it, or to fail
as the search does (`Workspace.load_reads_found`). A file may go unread because the system does not
say what stands at a path that is tried before it: no file can have the name with the first suffix if
that is too long (`Workspace.Cramped.locate_storing`).
-/

namespace Lifecycle

/-! ## Documents in files -/

/-- The document that a text denotes in a file, or what is wrong with it. -/
inductive Parses (w : Workspace) (p : Path) (text : String) : Except DocumentFault Datum → Prop
  | json {stem : String} (hparted : Path.Parted p.name stem ".json") :
      Parses w p text (Json.read text)
  | yaml {stem suffix : String} (hparted : Path.Parted p.name stem suffix)
      (hsuffix : suffix ≠ ".json") : Parses w p text (w.readYaml text)

theorem Parses.readDocument_eq {w : Workspace} {p : Path} {text : String}
    {r : Except DocumentFault Datum} (h : Parses w p text r) : w.readDocument p text = r := by
  unfold Workspace.readDocument
  cases h with
  | json hparted =>
    rw [← (Path.parted_iff.1 hparted).2]
    rfl
  | yaml hparted hsuffix =>
    rw [(Path.parted_iff.1 hparted).2] at hsuffix
    exact if_neg (mt eq_of_beq hsuffix)

theorem exists_parses (w : Workspace) (p : Path) (text : String) : ∃ r, Parses w p text r := by
  by_cases hsuffix : p.suffix = ".json"
  · exact ⟨_, .json (hsuffix ▸ p.parted)⟩
  · exact ⟨_, .yaml p.parted hsuffix⟩

/-- The name of the definition in a file: the one in the document if it counts as true, and else the
stem of the file. -/
inductive Titled (t : Table Datum Datum) (p : Path) : Datum → Prop
  | stated {name : Datum} (hname : t.get? (.text "name") = some name) (h : name.truthy = true) :
      Titled t p name
  | stem {stem suffix : String}
      (h : ∀ name, t.get? (.text "name") = some name → name.truthy = false)
      (hparted : Path.Parted p.name stem suffix) : Titled t p (.text stem)

variable {t : Table Datum Datum} {p : Path} {name : Datum}

theorem Titled.orElse_eq (h : Titled t p name) :
    ((t.get? (.text "name")).getD .null).orElse (.text p.stem) = name := by
  cases h with
  | stated hname h =>
    rw [hname]
    exact if_pos h
  | @stem stem _ h hparted =>
    rw [← (Path.parted_iff.1 hparted).1]
    cases hname : t.get? (.text "name") with
    | none => rfl
    | some given => exact if_neg (Bool.not_eq_true _ ▸ h given hname)

theorem exists_titled (t : Table Datum Datum) (p : Path) : ∃ name, Titled t p name := by
  by_cases h : ∃ name, t.get? (.text "name") = some name ∧ name.truthy = true
  · obtain ⟨name, hname, htruthy⟩ := h
    exact ⟨name, .stated hname htruthy⟩
  · refine ⟨.text p.stem, .stem (fun name hname => ?_) p.parted⟩
    exact Bool.not_eq_true _ ▸ fun htruthy => h ⟨name, hname, htruthy⟩

/-- The name counts as true, save for a path without a name. -/
theorem Titled.truthy (h : Titled t p name) (hp : p.name ≠ "") : name.truthy = true := by
  cases h with
  | stated _ h => exact h
  | @stem stem _ _ hparted =>
    have hstem : stem.isEmpty = false :=
      Bool.eq_false_of_not_eq_true (mt String.isEmpty_iff.1 (hparted.stem_ne_empty hp))
    change (!stem.isEmpty) = true
    rw [hstem]
    rfl

/-! ## Reading -/

namespace Workspace

variable {w w' : Workspace} {W : String}

/-- The file holds a text. -/
def Holds (w : Workspace) (p : Path) (text : String) : Prop :=
  ∃ bytes, (w.entry p).content = .ok bytes ∧ textOfBytes? bytes = some text

/-- What comes of reading the definition in a file. -/
inductive Opens (w : Workspace) (p : Path) : Except Failure Definition → Prop
  | unread {fault : AccessFault} (h : (w.entry p).content = .error fault) :
      Opens w p (.error (.access fault p.text))
  | undecodable {bytes : List UInt8} (hbytes : (w.entry p).content = .ok bytes)
      (htext : textOfBytes? bytes = none) : Opens w p (.error (.undecodable p.text))
  | malformed {text : String} (htext : w.Holds p text)
      (hparses : Parses w p text (.error .malformed)) :
      Opens w p (.error (.definition (.malformedFile p.text)))
  | scalar {text : String} {fault : ScalarFault} (htext : w.Holds p text)
      (hparses : Parses w p text (.error (.scalar fault))) : Opens w p (.error (.scalar fault))
  | notTable {text : String} {document : Datum} (htext : w.Holds p text)
      (hparses : Parses w p text (.ok document)) (htable : document.table? = none) :
      Opens w p (.error (.definition (.fileNotMapping p.text)))
  | refused {text : String} {document name : Datum} {t : Table Datum Datum} {e : Failure}
      (htext : w.Holds p text) (hparses : Parses w p text (.ok document))
      (htable : document.table? = some t) (htitled : Titled t p name)
      (hread : Definition.ofDocument (Datum.ofTable t) .null .null name = .error e) :
      Opens w p (.error e)
  | loaded {text : String} {document name : Datum} {t : Table Datum Datum} {d : Definition}
      (htext : w.Holds p text) (hparses : Parses w p text (.ok document))
      (htable : document.table? = some t) (htitled : Titled t p name)
      (hread : Definition.ofDocument (Datum.ofTable t) .null .null name = .ok d)
      (hname : p.name ≠ "" → d.name = name) : Opens w p (.ok d)

theorem name_of_titled {d : Definition} (h : Titled t p name)
    (hread : Definition.ofDocument (Datum.ofTable t) .null .null name = .ok d) (hp : p.name ≠ "") :
    d.name = name := by
  rw [Definition.name_of_ofDocument hread]
  exact if_pos (h.truthy hp)

theorem Opens.readDefinition_eq {r : Except Failure Definition} (h : w.Opens p r) :
    w.readDefinition p = r := by
  cases h with
  | unread h => exact readDefinition_of_unread h
  | undecodable hbytes htext => exact readDefinition_of_undecodable (bytes_of_content hbytes) htext
  | malformed htext hparses =>
    obtain ⟨bytes, hbytes, htext⟩ := htext
    exact readDefinition_of_malformed (bytes_of_content hbytes) htext hparses.readDocument_eq
  | scalar htext hparses =>
    obtain ⟨bytes, hbytes, htext⟩ := htext
    exact readDefinition_of_scalar (bytes_of_content hbytes) htext hparses.readDocument_eq
  | notTable htext hparses htable =>
    obtain ⟨bytes, hbytes, htext⟩ := htext
    exact readDefinition_of_not_table (bytes_of_content hbytes) htext hparses.readDocument_eq htable
  | refused htext hparses htable htitled hread =>
    obtain ⟨bytes, hbytes, htext⟩ := htext
    rw [readDefinition_of_table (bytes_of_content hbytes) htext hparses.readDocument_eq htable,
      htitled.orElse_eq, hread]
  | loaded htext hparses htable htitled hread =>
    obtain ⟨bytes, hbytes, htext⟩ := htext
    rw [readDefinition_of_table (bytes_of_content hbytes) htext hparses.readDocument_eq htable,
      htitled.orElse_eq, hread]

theorem exists_opens (w : Workspace) (p : Path) : ∃ r, w.Opens p r := by
  cases hbytes : (w.entry p).content with
  | error fault => exact ⟨_, .unread hbytes⟩
  | ok bytes =>
  cases htext : textOfBytes? bytes with
  | none => exact ⟨_, .undecodable hbytes htext⟩
  | some text =>
  have hholds : w.Holds p text := ⟨bytes, hbytes, htext⟩
  obtain ⟨(_ | fault) | document, hparses⟩ := exists_parses w p text
  · exact ⟨_, .malformed hholds hparses⟩
  · exact ⟨_, .scalar hholds hparses⟩
  cases htable : document.table? with
  | none => exact ⟨_, .notTable hholds hparses htable⟩
  | some t =>
  obtain ⟨name, htitled⟩ := exists_titled t p
  cases hread : Definition.ofDocument (Datum.ofTable t) .null .null name with
  | error e => exact ⟨_, .refused hholds hparses htable htitled hread⟩
  | ok d =>
    exact ⟨_, .loaded hholds hparses htable htitled hread (name_of_titled htitled hread)⟩

theorem opens_iff {r : Except Failure Definition} : w.Opens p r ↔ r = w.readDefinition p :=
  eq_iff_of_exists (fun _ h => h.readDefinition_eq) (w.exists_opens p) r

/-- What a file is read as depends on what stands at its path alone, and on how YAML is read. -/
theorem readDefinition_congr (hyaml : w'.readYaml = w.readYaml) (h : w'.entry p = w.entry p) :
    w'.readDefinition p = w.readDefinition p := by
  unfold readDefinition read Workspace.bytes readDocument
  rw [h, hyaml]

/-! ## Loading -/

/-- Loading reads the one file that is found. What is in any other place does not matter, as long as
files stand where they stood. Where none is found nothing is read. -/
theorem load_reads_found (w : Workspace) (W : String) : ∃ found : Except Failure Path,
    (∀ r, w.Finds W r ↔ r = found) ∧
    ∀ {σ : Type} (ps : Producers) (j : Journal) (s : σ),
      let done := (w.load W).run ps j s
      (∀ e, found = .error e → done = (.error e, j, s)) ∧
      (∀ p, found = .ok p → ∃ definition, (∀ r, w.Opens p r ↔ r = definition) ∧
        done = (definition, noted j p definition, s)) ∧
      ∀ w', w.Agree w' → w'.readYaml = w.readYaml →
        (∀ p, found = .ok p → w'.entry p = w.entry p) → (w'.load W).run ps j s = done := by
  refine ⟨w.locate W, fun r => finds_iff, fun {σ} ps j s => ⟨?_, ?_, ?_⟩⟩
  · exact fun e hlocate => run_load_of_error ps j s hlocate
  · intro p hlocate
    exact ⟨w.readDefinition p, fun r => opens_iff, run_load_of_ok ps j s hlocate⟩
  · -- The other workspace finds the same, and the same stands where it is found.
    intro w' hagree hyaml hentry
    have hlocate' := hagree.locate_eq W
    cases hlocate : w.locate W with
    | error e =>
      rw [hlocate] at hlocate'
      rw [run_load_of_error ps j s hlocate, run_load_of_error ps j s hlocate']
    | ok p =>
      rw [hlocate] at hlocate'
      rw [run_load_of_ok ps j s hlocate, run_load_of_ok ps j s hlocate',
        readDefinition_congr hyaml (hentry p hlocate)]

/-- A definition in JSON that does not say its name. -/
def namelessText : String :=
  "\x7b\"initial_status\": \"draft\", \"statuses\": \x7b\"draft\": []\x7d\x7d"

/-- A workspace with a directory of definitions under the home directory. A directory stands at the
name of the definition itself. -/
def homely : Workspace where
  current := .ofText "/desk"
  home := .ofText "/home/clerk"
  setting := some "~/flows"
  entry p :=
    if p.text = "order.v2" then .directory
    else if p.text = "/home/clerk/flows/order.v2.json" then
      .file (bytesOfText namelessText)
    else .missing
  readYaml := Yaml.read

theorem homely_reads :
    let p := Path.ofText "/home/clerk/flows/order.v2.json"
    homely.Finds "order.v2" (.ok p) ∧
    ∃ d : Definition, d.name.text? = some "order.v2" ∧ ∀ w', homely.Agree w' →
      w'.readYaml = homely.readYaml → w'.entry p = homely.entry p →
        (w'.load "order.v2").run (fun _ _ => .ok .null) .empty () =
          (.ok d, ⟨[], [.loaded p.text]⟩, ()) := by
  intro p
  obtain ⟨_, hlocate, hp⟩ : ∃ q, homely.locate "order.v2" = .ok q ∧ decide (q = p) = true :=
    exists_ok_of_any (by decide +kernel)
  obtain ⟨d, hread, hname⟩ : ∃ d, homely.readDefinition p = .ok d ∧
      (d.name.text? == some "order.v2") = true :=
    exists_ok_of_any (by decide +kernel)
  rw [of_decide_eq_true hp] at hlocate
  have hp : homely.Finds "order.v2" (.ok p) := finds_iff.2 hlocate.symm
  obtain ⟨found, hfound, hdone⟩ := load_reads_found homely "order.v2"
  obtain ⟨-, hreads, hother⟩ := hdone (fun _ _ => .ok .null) .empty ()
  have hfoundp : Except.ok p = found := (hfound _).1 hp
  obtain ⟨definition, hopens, hrun⟩ := hreads p hfoundp.symm
  have hd : Except.ok d = definition := (hopens _).1 (opens_iff.2 hread.symm)
  subst hd
  refine ⟨hp, d, eq_of_beq hname, fun w' hagree hyaml hentry => ?_⟩
  refine (hother w' hagree hyaml fun q hq => ?_).trans hrun
  cases hfoundp.trans hq
  exact hentry

/-! ## Names that leave no room for a suffix -/

/-- A plain name, so long that a file can have it with the suffix `.yml` but not with `.yaml`. -/
structure Cramped (n : String) : Prop where
  unslashed : '/' ∉ n.toList
  undotted : '.' ∉ n.toList
  size : n.utf8ByteSize + ".yml".utf8ByteSize = FileTree.longestName

/-- The file that a name may stand for, with a suffix. -/
def fileNamed (n suffix : String) : Path :=
  (Path.ofText "/desk/workflows").join (.ofText (n ++ suffix))

/-- A workspace with a single file, under a name with the suffix `.yml`. -/
def storing (n text : String) : Workspace where
  current := .ofText "/desk"
  home := .ofText "/home/clerk"
  setting := none
  entry p :=
    if FileTree.longestName < p.name.utf8ByteSize then .unreachable .nameTooLong
    else if p = fileNamed n ".yml" then .file (bytesOfText text)
    else .missing
  readYaml := Yaml.read

theorem directory_storing (n text : String) :
    (storing n text).Directory (.ok (.ofText "/desk/workflows")) := by
  have hdir : Path.ofText "/desk/workflows" = (Path.ofText "/desk").join (.ofText "workflows") := by
    decide +kernel
  rw [hdir]
  exact .unset (.inl rfl)

namespace Cramped

variable {n text : String}

theorem utf8ByteSize_append (h : Cramped n) (suffix : String) :
    (n ++ suffix).utf8ByteSize = 251 + suffix.utf8ByteSize := by
  have hsize : n.utf8ByteSize + 4 = 255 := h.size
  rw [String.utf8ByteSize_append]
  omega

theorem append_ne (h : Cramped n) (suffix : String) {short : String}
    (hshort : short.utf8ByteSize < 251) : n ++ suffix ≠ short := by
  rintro rfl
  rw [h.utf8ByteSize_append] at hshort
  omega

theorem ofText_append (h : Cramped n) (suffix : String) (hsuffix : '/' ∉ suffix.toList) :
    Path.ofText (n ++ suffix) = ⟨.here, [n ++ suffix]⟩ := by
  apply Path.ofText_of_unmarked _ (h.append_ne suffix (by decide)) (h.append_ne suffix (by decide))
  rw [String.toList_append, List.mem_append, not_or]
  exact ⟨h.unslashed, hsuffix⟩

theorem ofText_self (h : Cramped n) : Path.ofText n = ⟨.here, [n]⟩ := by
  have happend := h.ofText_append "" (by decide)
  rwa [String.append_empty] at happend

theorem fileNamed_eq (h : Cramped n) (suffix : String) (hsuffix : '/' ∉ suffix.toList) :
    fileNamed n suffix = ⟨.root, ["desk", "workflows", n ++ suffix]⟩ := by
  have hdir : Path.ofText "/desk/workflows" = ⟨.root, ["desk", "workflows"]⟩ := by decide +kernel
  unfold fileNamed
  rw [h.ofText_append suffix hsuffix, hdir]
  rfl

theorem name_fileNamed (h : Cramped n) (suffix : String) (hsuffix : '/' ∉ suffix.toList) :
    (fileNamed n suffix).name = n ++ suffix := by
  rw [h.fileNamed_eq suffix hsuffix]
  rfl

theorem name_ofText (h : Cramped n) : (Path.ofText n).name = n := by
  rw [h.ofText_self]
  rfl

theorem entry_self (h : Cramped n) (text : String) :
    (storing n text).entry (.ofText n) = .missing := by
  have hsize : ¬FileTree.longestName < (Path.ofText n).name.utf8ByteSize := by
    have hyml : n.utf8ByteSize + ".yml".utf8ByteSize = FileTree.longestName := h.size
    rw [h.name_ofText]
    omega
  have hother : Path.ofText n ≠ fileNamed n ".yml" := by
    rw [h.ofText_self, h.fileNamed_eq ".yml" (by decide)]
    nofun
  exact (if_neg hsize).trans (if_neg hother)

theorem entry_yaml (h : Cramped n) (text : String) :
    (storing n text).entry (fileNamed n ".yaml") = .unreachable .nameTooLong := by
  apply if_pos
  rw [h.name_fileNamed ".yaml" (by decide), h.utf8ByteSize_append]
  decide

theorem entry_yml (h : Cramped n) (text : String) :
    (storing n text).entry (fileNamed n ".yml") = .file (bytesOfText text) := by
  have hsize : ¬FileTree.longestName < (fileNamed n ".yml").name.utf8ByteSize := by
    rw [h.name_fileNamed ".yml" (by decide), h.utf8ByteSize_append]
    decide
  exact (if_neg hsize).trans (if_pos rfl)

theorem not_suffixed (h : Cramped n) : ¬Suffixed (.ofText n) := by
  rintro ⟨stem, suffix, hparted, hsuffix⟩
  rw [h.name_ofText] at hparted
  rw [← ((Path.parted_of_undotted h.undotted).unique hparted).2] at hsuffix
  exact absurd hsuffix (by decide)

/-- The definition in the file can be read. -/
theorem opens_yml (h : Cramped n) {document : Datum} {t : Table Datum Datum} {d : Definition}
    (htext : '\r' ∉ text.toList) (hdocument : Yaml.read text = .ok document)
    (htable : document.table? = some t) (hname : t.get? (.text "name") = none)
    (hread : Definition.ofDocument (Datum.ofTable t) .null .null (.text n) = .ok d) :
    (storing n text).Opens (fileNamed n ".yml") (.ok d) := by
  have hparted : Path.Parted (fileNamed n ".yml").name n ".yml" := by
    have hending : ".yml" = "." ++ "yml" := by decide
    have hempty : n ≠ "" := by
      rintro rfl
      exact absurd h.size (by decide)
    rw [h.name_fileNamed ".yml" (by decide), hending, ← String.append_assoc]
    exact .dotted hempty (by decide) (by decide)
  have hholds : (storing n text).Holds (fileNamed n ".yml") text :=
    ⟨bytesOfText text, congrArg Entry.content (h.entry_yml text), textOfBytes?_bytesOfText htext⟩
  have htitled : Titled t (fileNamed n ".yml") (.text n) := by
    refine .stem (fun name hgiven => ?_) hparted
    rw [hname] at hgiven
    cases hgiven
  exact .loaded hholds (hdocument ▸ .yaml hparted (by decide)) htable htitled hread
    (name_of_titled htitled hread)

/-- The file is not found. The system does not say that there is none with the longer suffix, and the
search ends there. -/
theorem locate_storing (h : Cramped n) (text : String) :
    (storing n text).locate n = .error (.access .nameTooLong (fileNamed n ".yaml").text) := by
  have hself : ((storing n text).entry (.ofText n)).Irregular := by
    rw [h.entry_self]
    exact .absent rfl
  have hyaml : ((storing n text).entry (fileNamed n ".yaml")).Unsure .nameTooLong := by
    rw [h.entry_yaml]
    exact .unreachable rfl
  have hfirst : (storing n text).FirstFile (files (.ofText "/desk/workflows") n)
      (.error (.access .nameTooLong (fileNamed n ".yaml").text)) :=
    .unsure (List.nil_append _).symm (List.forall_mem_nil _) hyaml
  exact (Finds.named h.not_suffixed hself (.unsure (directory_storing n text) hfirst)).locate_eq

end Cramped

/-- A name of 251 letters. -/
def longName : String := String.ofList (List.replicate 251 'a')

def smallText : String := "initial_status: draft\nstatuses:\n  draft: [paid]\n  paid: []\n"

theorem cramped_longName : Cramped longName where
  unslashed := by
    unfold longName
    rw [String.toList_ofList]
    decide +kernel
  undotted := by
    unfold longName
    rw [String.toList_ofList]
    decide +kernel
  size := by decide +kernel

/-- The first file that stands under the name, and that can be read, is not read. -/
theorem longName_unread :
    let w := storing longName smallText
    ¬Suffixed (.ofText longName) ∧ ¬(w.entry (.ofText longName)).Regular ∧
    w.Directory (.ok (.ofText "/desk/workflows")) ∧
    ¬(w.entry (fileNamed longName ".yaml")).Regular ∧
    (w.entry (fileNamed longName ".yml")).Regular ∧
    (∃ d, w.Opens (fileNamed longName ".yml") (.ok d)) ∧
    (w.load longName).run (fun _ _ => .ok .null) .empty () =
      (.error (.access .nameTooLong (fileNamed longName ".yaml").text), .empty, ()) := by
  intro w
  have h := cramped_longName
  have hall : (Yaml.read smallText).toOption.any (fun document => document.table?.any fun t =>
      (t.get? (.text "name")).isNone &&
        (Definition.ofDocument (Datum.ofTable t) .null .null (.text longName)).toOption.any
          fun _ => true) = true := by
    decide +kernel
  obtain ⟨document, hdocument, hall⟩ := exists_ok_of_any hall
  obtain ⟨t, htable, hall⟩ := (Option.any_eq_true _ _).1 hall
  rw [Bool.and_eq_true, Option.isNone_iff_eq_none] at hall
  obtain ⟨d, hread, -⟩ := exists_ok_of_any hall.2
  have hopens := h.opens_yml (by decide +kernel) hdocument htable hall.1 hread
  refine ⟨h.not_suffixed, ?_, directory_storing _ _, ?_, ?_, ⟨d, hopens⟩,
    run_load_of_error _ _ _ (h.locate_storing smallText)⟩
  · rw [h.entry_self]
    nofun
  · rw [h.entry_yaml]
    nofun
  · rw [h.entry_yml]
    exact .file _

end Workspace

end Lifecycle
