import Lifecycle.Proofs.Naming
import Lifecycle.Workspace.Definitions

/-!
# Finding definition files

A workflow is given by the path of its file if that has a suffix of definition files or a file
stands there, and else by the name under which a directory is searched (`Workspace.Finds`). The system
may fail to say whether a file stands at a path, and this ends the search. What is found depends on
where files stand, and not on what is in them (`Workspace.Agree.locate_eq`).
-/

namespace Lifecycle

/-! ## What is known of a path -/

namespace Entry

/-- A file stands there, whether or not it can be read. -/
inductive Regular : Entry → Prop
  | file (bytes : List UInt8) : Regular (.file bytes)
  | unreadable (fault : AccessFault) : Regular (.unreadable fault)

/-- It is known that no file stands there. -/
inductive Irregular : Entry → Prop
  | directory : Irregular .directory
  | special (content : Except AccessFault (List UInt8)) : Irregular (.special content)
  | absent {fault : AccessFault} (h : fault.absence = true) : Irregular (.unreachable fault)

/-- The system does not say whether a file stands there. -/
inductive Unsure : Entry → AccessFault → Prop
  | unreachable {fault : AccessFault} (h : fault.absence = false) :
      Unsure (.unreachable fault) fault

variable {e : Entry} {fault : AccessFault}

theorem isFile_of_regular (h : e.Regular) : e.isFile = .ok true := by
  cases h <;> rfl

theorem isFile_of_irregular (h : e.Irregular) : e.isFile = .ok false := by
  cases h with
  | directory => rfl
  | special => rfl
  | absent h => exact if_pos h

theorem isFile_of_unsure (h : e.Unsure fault) : e.isFile = .error fault := by
  cases h with
  | unreachable h => exact if_neg (Bool.not_eq_true _ ▸ h)

theorem regular_or_irregular_or_unsure (e : Entry) :
    e.Regular ∨ e.Irregular ∨ ∃ fault, e.Unsure fault := by
  cases e with
  | file bytes => exact .inl (.file bytes)
  | unreadable fault => exact .inl (.unreadable fault)
  | directory => exact .inr (.inl .directory)
  | special content => exact .inr (.inl (.special content))
  | unreachable fault =>
    cases h : fault.absence with
    | true => exact .inr (.inl (.absent h))
    | false => exact .inr (.inr ⟨fault, .unreachable h⟩)

end Entry

/-- If a relation allows something, and nothing but a certain value, it allows just this. -/
theorem eq_iff_of_exists {α : Type} {R : α → Prop} {a : α} (h : ∀ r, R r → a = r)
    (hexists : ∃ r, R r) (r : α) : R r ↔ r = a := by
  obtain ⟨r', hr'⟩ := hexists
  constructor
  · exact fun hr => (h r hr).symm
  · rintro rfl
    rwa [h r' hr']

/-! ## Searching -/

namespace Workspace

variable {w w' : Workspace} {W : String} {p : Path} {ps : List Path}

section Search

variable (w : Workspace)

/-- The first of some paths at which a file stands, if there is one. It has to be known of every
path before it that no file stands there. -/
inductive FirstFile (ps : List Path) : Except Failure (Option Path) → Prop
  | found {before after : List Path} {p : Path} (hsplit : ps = before ++ p :: after)
      (hbefore : ∀ q ∈ before, (w.entry q).Irregular) (hp : (w.entry p).Regular) :
      FirstFile ps (.ok (some p))
  | unsure {before after : List Path} {p : Path} {fault : AccessFault}
      (hsplit : ps = before ++ p :: after) (hbefore : ∀ q ∈ before, (w.entry q).Irregular)
      (hp : (w.entry p).Unsure fault) : FirstFile ps (.error (.access fault p.text))
  | none (h : ∀ q ∈ ps, (w.entry q).Irregular) : FirstFile ps (.ok none)

/-- The directory of definitions: the one that is set, unless to an empty text, and else one in the
current directory. -/
inductive Directory : Except Failure Path → Prop
  | set {s : String} {r : Except Failure Path} (hset : w.setting = some s) (hs : s ≠ "")
      (hexpands : Path.Expands w.home w.homeOf (.ofText s) r) : Directory r
  | unset (h : w.setting = none ∨ w.setting = some "") :
      Directory (.ok (w.current.join (.ofText "workflows")))

/-- The files that a name may stand for. The suffix is added to the whole name. -/
def files (dir : Path) (W : String) : List Path :=
  [".yaml", ".yml", ".json"].map fun suffix => dir.join (.ofText (W ++ suffix))

/-- The file that a name stands for. -/
inductive Named (W : String) : Except Failure Path → Prop
  | homeless {e : Failure} (hdir : w.Directory (.error e)) : Named W (.error e)
  | found {dir p : Path} (hdir : w.Directory (.ok dir))
      (hfirst : w.FirstFile (files dir W) (.ok (some p))) : Named W (.ok p)
  | unsure {dir : Path} {e : Failure} (hdir : w.Directory (.ok dir))
      (hfirst : w.FirstFile (files dir W) (.error e)) : Named W (.error e)
  | absent {dir : Path} (hdir : w.Directory (.ok dir))
      (hfirst : w.FirstFile (files dir W) (.ok none)) :
      Named W (.ok (dir.join (.ofText (W ++ ".yaml"))))

/-- A path to something with a suffix of definition files. -/
def Suffixed (p : Path) : Prop :=
  ∃ stem suffix, Path.Parted p.name stem suffix ∧ suffix ∈ [".yaml", ".yml", ".json"]

/-- The file of a workflow that is given by path or by name. -/
inductive Finds (W : String) : Except Failure Path → Prop
  | suffixed (hname : Suffixed (.ofText W)) : Finds W (.ok (.ofText W))
  | standing (hfile : (w.entry (.ofText W)).Regular) : Finds W (.ok (.ofText W))
  | unsure {fault : AccessFault} (hname : ¬Suffixed (.ofText W))
      (hfile : (w.entry (.ofText W)).Unsure fault) :
      Finds W (.error (.access fault (Path.ofText W).text))
  | named {r : Except Failure Path} (hname : ¬Suffixed (.ofText W))
      (hfile : (w.entry (.ofText W)).Irregular) (hnamed : w.Named W r) : Finds W r

end Search

theorem isFile_of_regular (h : (w.entry p).Regular) : w.isFile p = .ok true := by
  unfold isFile
  rw [Entry.isFile_of_regular h]
  rfl

theorem isFile_of_irregular (h : (w.entry p).Irregular) : w.isFile p = .ok false := by
  unfold isFile
  rw [Entry.isFile_of_irregular h]
  rfl

theorem isFile_of_unsure {fault : AccessFault} (h : (w.entry p).Unsure fault) :
    w.isFile p = .error (.access fault p.text) := by
  unfold isFile
  rw [Entry.isFile_of_unsure h]
  rfl

theorem firstFile_append {before : List Path} (h : ∀ q ∈ before, (w.entry q).Irregular)
    (after : List Path) : w.firstFile (before ++ after) = w.firstFile after := by
  induction before with
  | nil => rfl
  | cons q before ih =>
    rw [List.forall_mem_cons] at h
    rw [List.cons_append, firstFile, isFile_of_irregular h.1]
    exact ih h.2

theorem FirstFile.firstFile_eq {r : Except Failure (Option Path)} (h : w.FirstFile ps r) :
    w.firstFile ps = r := by
  cases h with
  | found hsplit hbefore hp =>
    rw [hsplit, firstFile_append hbefore, firstFile, isFile_of_regular hp]
    rfl
  | unsure hsplit hbefore hp =>
    rw [hsplit, firstFile_append hbefore, firstFile, isFile_of_unsure hp]
    rfl
  | none h =>
    have happend := firstFile_append h []
    rwa [List.append_nil] at happend

theorem FirstFile.cons {q : Path} {r : Except Failure (Option Path)} (hq : (w.entry q).Irregular)
    (h : w.FirstFile ps r) : w.FirstFile (q :: ps) r := by
  cases h with
  | found hsplit hbefore hp =>
    exact .found (congrArg (q :: ·) hsplit) (List.forall_mem_cons.2 ⟨hq, hbefore⟩) hp
  | unsure hsplit hbefore hp =>
    exact .unsure (congrArg (q :: ·) hsplit) (List.forall_mem_cons.2 ⟨hq, hbefore⟩) hp
  | none h => exact .none (List.forall_mem_cons.2 ⟨hq, h⟩)

theorem exists_firstFile (w : Workspace) (ps : List Path) : ∃ r, w.FirstFile ps r := by
  induction ps with
  | nil => exact ⟨_, .none (List.forall_mem_nil _)⟩
  | cons q ps ih =>
    -- The first path decides, unless it is known that no file stands there.
    rcases (w.entry q).regular_or_irregular_or_unsure with hq | hq | ⟨fault, hq⟩
    · exact ⟨_, .found (List.nil_append _).symm (List.forall_mem_nil _) hq⟩
    · obtain ⟨r, hr⟩ := ih
      exact ⟨r, hr.cons hq⟩
    · exact ⟨_, .unsure (List.nil_append _).symm (List.forall_mem_nil _) hq⟩

theorem Directory.definitionsDir_eq {r : Except Failure Path} (h : w.Directory r) :
    w.definitionsDir = r := by
  unfold definitionsDir
  cases h with
  | set hset hs hexpands =>
    rw [hset]
    dsimp only
    rw [if_neg (mt String.isEmpty_iff.1 hs)]
    exact hexpands.expandHome_eq
  | unset h =>
    rcases h with h | h <;> rw [h] <;> rfl

theorem exists_directory (w : Workspace) : ∃ r, w.Directory r := by
  cases hset : w.setting with
  | none => exact ⟨_, .unset (.inl hset)⟩
  | some s =>
    by_cases hs : s = ""
    · exact ⟨_, .unset (.inr (hs ▸ hset))⟩
    · obtain ⟨r, hr⟩ := Path.exists_expands w.home w.homeOf (.ofText s)
      exact ⟨r, .set hset hs hr⟩

theorem definitionPath_of_directory {dir : Path} (hdir : w.Directory (.ok dir)) :
    w.definitionPath W =
      (w.firstFile (files dir W)).map (·.getD (dir.join (.ofText (W ++ ".yaml")))) := by
  unfold definitionPath
  rw [hdir.definitionsDir_eq]
  change (w.firstFile (files dir W) >>= _) = _
  cases w.firstFile (files dir W) <;> rfl

theorem Named.definitionPath_eq {r : Except Failure Path} (h : w.Named W r) :
    w.definitionPath W = r := by
  cases h with
  | homeless hdir =>
    unfold definitionPath
    rw [hdir.definitionsDir_eq]
    rfl
  | found hdir hfirst =>
    rw [definitionPath_of_directory hdir, hfirst.firstFile_eq]
    rfl
  | unsure hdir hfirst =>
    rw [definitionPath_of_directory hdir, hfirst.firstFile_eq]
    rfl
  | absent hdir hfirst =>
    rw [definitionPath_of_directory hdir, hfirst.firstFile_eq]
    rfl

theorem exists_named (w : Workspace) (W : String) : ∃ r, w.Named W r := by
  obtain ⟨_ | dir, hdir⟩ := w.exists_directory
  · exact ⟨_, .homeless hdir⟩
  obtain ⟨_ | _ | p, hfirst⟩ := w.exists_firstFile (files dir W)
  · exact ⟨_, .unsure hdir hfirst⟩
  · exact ⟨_, .absent hdir hfirst⟩
  · exact ⟨_, .found hdir hfirst⟩

theorem contains_suffix_iff : suffixes.contains p.suffix = true ↔ Suffixed p := by
  rw [List.contains_iff_mem]
  constructor
  · exact fun h => ⟨p.stem, p.suffix, p.parted, h⟩
  · rintro ⟨stem, suffix, hparted, hsuffix⟩
    rwa [(Path.parted_iff.1 hparted).2] at hsuffix

theorem Finds.locate_eq {r : Except Failure Path} (h : w.Finds W r) : w.locate W = r := by
  unfold locate
  dsimp only
  cases h with
  | suffixed hname =>
    rw [if_pos (contains_suffix_iff.2 hname)]
    rfl
  | standing hfile =>
    split
    · rfl
    · rw [isFile_of_regular hfile]
      rfl
  | unsure hname hfile =>
    rw [if_neg (mt contains_suffix_iff.1 hname), isFile_of_unsure hfile]
    rfl
  | named hname hfile hnamed =>
    rw [if_neg (mt contains_suffix_iff.1 hname), isFile_of_irregular hfile]
    exact hnamed.definitionPath_eq

theorem exists_finds (w : Workspace) (W : String) : ∃ r, w.Finds W r := by
  by_cases hname : Suffixed (.ofText W)
  · exact ⟨_, .suffixed hname⟩
  rcases (w.entry (.ofText W)).regular_or_irregular_or_unsure with hfile | hfile | ⟨fault, hfile⟩
  · exact ⟨_, .standing hfile⟩
  · obtain ⟨r, hr⟩ := w.exists_named W
    exact ⟨r, .named hname hfile hr⟩
  · exact ⟨_, .unsure hname hfile⟩

theorem finds_iff {r : Except Failure Path} : w.Finds W r ↔ r = w.locate W :=
  eq_iff_of_exists (fun _ h => h.locate_eq) (w.exists_finds W) r

/-! ## What a search depends on -/

/-- Two workspaces agree on where one is and on where files stand. What is in the files, and in
anything else, is left open. -/
structure Agree (w w' : Workspace) : Prop where
  current : w'.current = w.current
  home : w'.home = w.home
  homeOf : w'.homeOf = w.homeOf
  setting : w'.setting = w.setting
  isFile : ∀ q, (w'.entry q).isFile = (w.entry q).isFile

namespace Agree

theorem firstFile_eq (h : w.Agree w') (ps : List Path) : w'.firstFile ps = w.firstFile ps := by
  induction ps with
  | nil => rfl
  | cons q ps ih =>
    have hq : w'.isFile q = w.isFile q := by
      unfold Workspace.isFile
      rw [h.isFile]
    unfold firstFile
    rw [hq, ih]

theorem definitionsDir_eq (h : w.Agree w') : w'.definitionsDir = w.definitionsDir := by
  unfold definitionsDir
  rw [h.setting, h.current, h.home, h.homeOf]

theorem locate_eq (h : w.Agree w') (W : String) : w'.locate W = w.locate W := by
  unfold locate definitionPath Workspace.isFile
  simp only [h.isFile, h.definitionsDir_eq, h.firstFile_eq]

end Agree

end Workspace

end Lifecycle
