import Lifecycle.Proofs.Naming
import Lifecycle.Proofs.Table
import Lifecycle.Provider.Registry

/-!
# Paths to providers

A path names a module and a member of it: with a colon, what stands before and after the first one,
and else what stands before and after the last dot (`Registry.Names`). A path is resolved to just the
member that it names in a registered module. Every other path is a fault of the configuration, save
for those that name a module relative to a package (`Registry.Relative`), which are misuse
(`Registry.path_resolved`).
-/

namespace Lifecycle

namespace Registry

/-! ## Splitting at a mark -/

section Split

variable {before after : List Char} {c : Char}

theorem splitPath_of_colon (h : ':' ∉ before) :
    splitPath (before ++ ':' :: after) = (before, after) := by
  have hcolon : (before ++ ':' :: after).contains ':' = true := by simp
  unfold splitPath
  rw [if_pos hcolon, Text.takeWhile_append_mark h, Text.dropWhile_append_mark h]
  rfl

theorem splitPath_of_dot (hcolon : ':' ∉ before ++ '.' :: after) (h : '.' ∉ after) :
    splitPath (before ++ '.' :: after) = (before, after) := by
  have hafter : '.' ∉ after.reverse := mt List.mem_reverse.1 h
  unfold splitPath
  rw [if_neg (mt List.contains_iff_mem.1 hcolon)]
  dsimp only
  rw [Text.reverse_append_mark, Text.takeWhile_append_mark hafter,
    Text.dropWhile_append_mark hafter]
  simp

/-- Without a mark there is no name of a module. -/
theorem splitPath_of_unmarked {path : List Char} (hcolon : ':' ∉ path) (hdot : '.' ∉ path) :
    (splitPath path).1 = [] := by
  have hnone : path.reverse.dropWhile (· != '.') = [] :=
    List.dropWhile_eq_nil_iff.2 (Text.forall_ne_mark (mt List.mem_reverse.1 hdot))
  unfold splitPath
  rw [if_neg (mt List.contains_iff_mem.1 hcolon)]
  dsimp only
  rw [hnone]
  rfl

end Split

/-! ## What a path names -/

/-- The names of a module and a member that a path consists of. -/
inductive Names : String → String → String → Prop
  | colon {module member : String} (h : ':' ∉ module.toList) :
      Names (module ++ ":" ++ member) module member
  | dot {module member : String} (hcolon : ':' ∉ (module ++ "." ++ member).toList)
      (h : '.' ∉ member.toList) : Names (module ++ "." ++ member) module member

/-- The path names a member of a module whose own name begins with a dot. -/
def Relative (path module : String) : Prop :=
  (∃ member, Names path module member ∧ member ≠ "") ∧ ['.'] <+: module.toList

/-- The path names a member of a registered module. -/
def Leads (r : Registry) (path : String) (p : Provider) : Prop :=
  ∃ module member members, Names path module member ∧ member ≠ "" ∧ module ≠ "" ∧
    ¬ ['.'] <+: module.toList ∧ r.modules.get? module = some members ∧
    members.get? member = some p

variable {path module member : String}

theorem splitPath_of_names (h : Names path module member) :
    splitPath path.toList = (module.toList, member.toList) := by
  cases h with
  | colon h =>
    rw [String.toList_append, String.toList_append, List.append_assoc]
    exact splitPath_of_colon h
  | dot hcolon h =>
    rw [String.toList_append, String.toList_append, List.append_assoc] at hcolon ⊢
    exact splitPath_of_dot hcolon h

/-- A path names one module and one member at most. -/
theorem Names.unique {module' member' : String} (h : Names path module member)
    (h' : Names path module' member') : module = module' ∧ member = member' := by
  have heq := (splitPath_of_names h).symm.trans (splitPath_of_names h')
  rw [Prod.mk.injEq, String.toList_inj, String.toList_inj] at heq
  exact heq

theorem names_or_unmarked (path : String) :
    (∃ module member, Names path module member) ∨ (splitPath path.toList).1 = [] := by
  by_cases hcolon : ':' ∈ path.toList
  · obtain ⟨before, after, hsplit, hbefore⟩ := List.eq_append_cons_of_mem hcolon
    have hpath : path = String.ofList before ++ ":" ++ String.ofList after := by
      rw [← String.toList_inj, hsplit]
      simp
    rw [← String.toList_ofList (l := before)] at hbefore
    exact .inl ⟨_, _, hpath ▸ Names.colon hbefore⟩
  by_cases hdot : '.' ∈ path.toList
  · obtain ⟨before, after, hsplit, hafter⟩ := Text.exists_last_mark hdot
    have hpath : path = String.ofList before ++ "." ++ String.ofList after := by
      rw [← String.toList_inj, hsplit]
      simp
    rw [← String.toList_ofList (l := after)] at hafter
    rw [hpath] at hcolon
    exact .inl ⟨_, _, hpath ▸ Names.dot hcolon hafter⟩
  · exact .inr (splitPath_of_unmarked hcolon hdot)

/-! ## Finding what a path names -/

variable {r : Registry} {p : Provider}

theorem find_of_unmarked (h : (splitPath path.toList).1 = []) :
    r.find path = .error (.configuration (.unloadable path none)) := by
  unfold find
  simp only [h, List.isEmpty_nil, Bool.true_or, if_true]

/-- What comes of a path that names a module and a member. -/
theorem find_of_names (h : Names path module member) :
    r.find path =
      if module.toList.isEmpty || member.toList.isEmpty then
        .error (.configuration (.unloadable path none))
      else if module.startsWith "." then .error (.misuse (.relativeModule module))
      else r.lookUp path module member := by
  unfold find
  dsimp only
  rw [splitPath_of_names h]
  dsimp only
  rw [String.ofList_toList, String.ofList_toList]

theorem lookUp_of_member {members : Table String Provider}
    (hmembers : r.modules.get? module = some members) (hp : members.get? member = some p) :
    r.lookUp path module member = .ok p := by
  unfold lookUp
  rw [hmembers]
  dsimp only
  rw [hp]

/-- A named member is there, or the path cannot be loaded. -/
theorem lookUp_cases (r : Registry) (path module member : String) :
    (∃ members p, r.modules.get? module = some members ∧ members.get? member = some p) ∨
      ∃ detail, r.lookUp path module member =
        .error (.configuration (.unloadable path detail)) := by
  unfold lookUp
  cases hmembers : r.modules.get? module with
  | none => exact .inr ⟨_, rfl⟩
  | some members =>
    dsimp only
    cases hp : members.get? member with
    | none => exact .inr ⟨_, rfl⟩
    | some p => exact .inl ⟨members, p, rfl, hp⟩

theorem isEmpty_or_isEmpty_iff {s t : String} :
    (s.toList.isEmpty || t.toList.isEmpty) = true ↔ s = "" ∨ t = "" := by
  rw [Bool.or_eq_true, List.isEmpty_iff, List.isEmpty_iff, String.toList_eq_nil_iff,
    String.toList_eq_nil_iff]

theorem startsWith_dot_iff {s : String} : s.startsWith "." = true ↔ ['.'] <+: s.toList :=
  String.startsWith_string_iff

theorem ne_empty_of_dot {s : String} (h : ['.'] <+: s.toList) : s ≠ "" := by
  rintro rfl
  cases List.prefix_nil.1 h

theorem find_of_leads (h : r.Leads path p) : r.find path = .ok p := by
  obtain ⟨module, member, members, hnames, hmember, hmodule, hdot, hmembers, hp⟩ := h
  have hempty := mt isEmpty_or_isEmpty_iff.1 (not_or.2 ⟨hmodule, hmember⟩)
  rw [find_of_names hnames, if_neg hempty, if_neg (mt startsWith_dot_iff.1 hdot),
    lookUp_of_member hmembers hp]

theorem find_of_relative (h : Relative path module) :
    r.find path = .error (.misuse (.relativeModule module)) := by
  obtain ⟨⟨member, hnames, hmember⟩, hdot⟩ := h
  have hempty := mt isEmpty_or_isEmpty_iff.1 (not_or.2 ⟨ne_empty_of_dot hdot, hmember⟩)
  rw [find_of_names hnames, if_neg hempty, if_pos (startsWith_dot_iff.2 hdot)]

/-- A path leads to a provider, or cannot be loaded, or is relative. -/
theorem find_cases (r : Registry) (path : String) :
    (∃ p, r.Leads path p) ∨
      (∃ detail, r.find path = .error (.configuration (.unloadable path detail))) ∨
      ∃ module, Relative path module := by
  rcases names_or_unmarked path with ⟨module, member, hnames⟩ | hunmarked
  · have hfind := find_of_names (r := r) hnames
    split at hfind
    · exact .inr (.inl ⟨_, hfind⟩)
    rename_i hempty
    rw [isEmpty_or_isEmpty_iff, not_or] at hempty
    split at hfind
    · rename_i hdot
      exact .inr (.inr ⟨module, ⟨member, hnames, hempty.2⟩, startsWith_dot_iff.1 hdot⟩)
    rename_i hdot
    rw [startsWith_dot_iff] at hdot
    rcases lookUp_cases r path module member with ⟨members, p, hmembers, hp⟩ | ⟨detail, hmissing⟩
    · exact .inl ⟨p, module, member, members, hnames, hempty.2, hempty.1, hdot, hmembers, hp⟩
    · exact .inr (.inl ⟨detail, hfind.trans hmissing⟩)
  · exact .inr (.inl ⟨none, find_of_unmarked hunmarked⟩)

theorem find_eq_ok_iff : r.find path = .ok p ↔ r.Leads path p := by
  constructor
  · intro h
    rcases find_cases r path with ⟨q, hq⟩ | ⟨detail, hfault⟩ | ⟨module, hrelative⟩
    · rw [find_of_leads hq] at h
      cases h
      exact hq
    · rw [hfault] at h
      cases h
    · rw [find_of_relative hrelative] at h
      cases h
  · exact find_of_leads

theorem find_eq_relative_iff :
    r.find path = .error (.misuse (.relativeModule module)) ↔ Relative path module := by
  constructor
  · intro h
    rcases find_cases r path with ⟨q, hq⟩ | ⟨detail, hfault⟩ | ⟨module', hrelative⟩
    · rw [find_of_leads hq] at h
      cases h
    · rw [hfault] at h
      cases h
    · rw [find_of_relative hrelative] at h
      cases h
      exact hrelative
  · exact find_of_relative

/-- A path is resolved to just the provider that it leads to, and it is misuse just where it is
relative. There is no third way to fail but as a fault of the configuration. -/
theorem path_resolved (r : Registry) (path : String) :
    let outcome := (ProviderReference.path path).resolve r
    (∀ p, outcome = .ok p ↔ r.Leads path p) ∧
    (∀ module, outcome = .error (.misuse (.relativeModule module)) ↔ Relative path module) ∧
    ((∃ p, outcome = .ok p) ∨
      (∃ detail, outcome = .error (.configuration (.unloadable path detail))) ∨
      ∃ module, outcome = .error (.misuse (.relativeModule module))) := by
  refine ⟨fun p => find_eq_ok_iff, fun module => find_eq_relative_iff, ?_⟩
  rcases find_cases r path with ⟨p, hp⟩ | hfault | ⟨module, hrelative⟩
  · exact .inl ⟨p, find_of_leads hp⟩
  · exact .inr (.inl hfault)
  · exact .inr (.inr ⟨module, find_of_relative hrelative⟩)

/-- A relative path is neither resolved nor a fault of the configuration. -/
theorem exists_path_misused : ∃ (r : Registry) (path : String),
    (∀ p, (ProviderReference.path path).resolve r ≠ .ok p) ∧
      ∀ fault, (ProviderReference.path path).resolve r ≠ .error (.configuration fault) := by
  have hpath : ".orders:Orders" = ".orders" ++ ":" ++ "Orders" := by decide
  have hnames : Names ".orders:Orders" ".orders" "Orders" := by
    rw [hpath]
    exact Names.colon (by decide)
  have hfind : (default : Registry).find ".orders:Orders" =
      .error (.misuse (.relativeModule ".orders")) :=
    find_of_relative ⟨⟨"Orders", hnames, by decide⟩, by decide⟩
  refine ⟨default, ".orders:Orders", fun p h => ?_, fun fault h => ?_⟩
  · cases hfind.symm.trans h
  · cases hfind.symm.trans h

end Registry

end Lifecycle
