import Lifecycle.Proofs.CommandLine

/-!
# Commands and attachments

A command about a file and an attachment of the same file reach the definition in different ways:
the attachment takes it from a provider, with the labels that the provider gives laid over its own.
These are the same tables, so nothing is changed, and both sides answer the same questions about the
same definition (`Command.SameNext`, `Command.SameChoices`). An attachment gives labels as data; a
command puts them into words, and fails if one of them cannot be written (`Command.Gives`).
-/

namespace Lifecycle

/-- Attaches the workflow in a file to the status in a field. -/
def Attachment.ofFile {σ : Type} (w : Workspace) (nameOrPath : String) (registry : Registry)
    (field : String) (entityKind : Option String) : Act σ Attachment := do
  let p ← FileProvider.load w nameOrPath
  Attachment.create (.provider p.provider) registry field entityKind

section Attaching

variable {σ : Type} {w : Workspace} {W : String} {d : Definition}

theorem FileProvider.run_obtainDefinition (hd : d.FromFile) (path : Path) (ps : Producers)
    (j : Journal) (s : σ) :
    (FileProvider.provider ⟨path, d⟩).obtainDefinition.run ps j s = (.ok d, j, s) := by
  have hmerged : (FileProvider.provider ⟨path, d⟩).obtainDefinition.run ps j s =
      (.ok (d.withLabels (d.labels.union (.ofList d.labels.entries))
        (d.actionLabels.union (.ofList d.actionLabels.entries))), j, s) := rfl
  rw [hmerged, Table.ofList_entries, Table.ofList_entries, Table.union_self hd.labels,
    Table.union_self hd.actionLabels]
  rfl

/-- An attachment of a file follows the definition in it. -/
theorem Attachment.exists_ofFile (hyaml : w.PlainYaml) (hnormal : (Path.ofText W).text = W)
    (hload : w.definitionOf W = .ok d) (registry : Registry) (field : String)
    (entityKind : Option String) : ∃ a : Attachment, a.definition = d ∧ a.field = field ∧
      a.entityKind = entityKind ∧ ∀ {σ : Type} (ps : Producers) (j : Journal) (s : σ),
        ((Attachment.ofFile w W registry field entityKind).run ps j s).1 = .ok a := by
  refine ⟨⟨d, "FileProvider", field, entityKind⟩, rfl, rfl, rfl, fun ps j s => ?_⟩
  obtain ⟨j', hrun⟩ := w.exists_run_load W j
  unfold Attachment.ofFile FileProvider.load
  dsimp only
  -- The provider loads what the text of its path names, which is the workflow itself.
  rw [hnormal, Act.run_bind, Act.run_bind, hrun, hload]
  dsimp only [Act.run_pure]
  unfold Attachment.create
  rw [Act.run_bind, ProviderReference.resolve, Act.run_ofExcept]
  dsimp only
  have hcapable : (FileProvider.provider ⟨.ofText W, d⟩).requireCapabilities = .ok () := rfl
  rw [Act.run_bind, hcapable, Act.run_ofExcept]
  dsimp only
  rw [Act.run_bind,
    FileProvider.run_obtainDefinition (Workspace.fromFile_definitionOf hyaml W d hload)]
  rfl

end Attaching

/-! ## What may follow a status -/

namespace Attachment

variable {a : Attachment} {t : String}

/-- These statuses, with the labels of the actions, are what the attachment of any entity with this
status says may follow. -/
def Follows (a : Attachment) (status : Datum) (actions : List (Datum × Datum)) : Prop :=
  ∀ {ρ : Type} [Accessor ρ] (s : Attached ρ) (ps : Producers) (j : Journal),
    s.finds a = true → s.staged a = status → (a.nextActions.run ps j s).1 = .ok actions

theorem follows_of_declared {targets : Targets} (hdecl : a.definition.declares (.text t) = true)
    (hresolved : ∀ ps j, (a.definition.transitionsFrom (.text t)).outcome ps j = (.ok targets, j)) :
    a.Follows (.text t)
      ((a.definition.inOrder targets).map fun s => (s, a.definition.labelIn true s)) := by
  intro ρ _ s ps j hfinds hstaged
  have hkey : (s.staged a).hashable = true := by
    rw [hstaged]
    rfl
  rw [← hstaged] at hdecl
  unfold nextActions
  rw [Act.run_bind, run_nextStatuses_of_declared hfinds hkey hdecl, hstaged, hresolved]
  exact Definition.labelEach_of_texts Definition.exists_text_of_mem_inOrder true

theorem follows_of_undeclared (hdecl : a.definition.declares (.text t) = false) :
    a.Follows (.text t) [] := by
  intro ρ _ s ps j hfinds hstaged
  have hkey : (s.staged a).hashable = true := by
    rw [hstaged]
    rfl
  rw [← hstaged] at hdecl
  unfold nextActions
  rw [Act.run_bind, run_nextStatuses_of_undeclared hfinds hkey hdecl]
  rfl

end Attachment

namespace Definition

variable {d : Definition} {a b : String} {targets : Targets}
  (hn : ∃ n, d.statuses.get? (.text a) = some n ∧ n.rule = .static targets)
include hn

theorem inOrder_eq_nil_iff : d.inOrder targets = [] ↔ d.isTerminal (.text a) = .ok true := by
  obtain ⟨n, hn, hrule⟩ := hn
  rw [isTerminal_of_mem_entries rfl (Datum.beq_text_iff.2 rfl) (get?_text_iff.1 hn), hrule,
    Except.ok.injEq, isTerminal_iff, Rule.static.injEq]
  constructor
  · intro hnil
    have hmembers : targets.members = [] := by
      apply List.eq_nil_iff_forall_not_mem.2
      intro t ht
      have hlisted : Datum.text t ∈ d.inOrder targets := mem_inOrder_iff.2 ⟨t, ht, rfl⟩
      rw [hnil] at hlisted
      cases hlisted
    obtain ⟨members, hincreasing⟩ := targets
    cases hmembers
    rfl
  · rintro rfl
    apply List.eq_nil_iff_forall_not_mem.2
    intro s hs
    obtain ⟨t, ht, -⟩ := mem_inOrder_iff.1 hs
    cases ht

theorem text_mem_inOrder_iff_edge :
    .text b ∈ d.inOrder targets ↔ d.statuses.Edge (.text a) (.text b) := by
  rw [edge_iff_mem hn, mem_inOrder_iff]
  constructor
  · rintro ⟨t, ht, heq⟩
    cases heq
    exact ht
  · intro hb
    exact ⟨b, hb, rfl⟩

end Definition

/-! ## Agreement -/

namespace Command

variable {w : Workspace} {W : String} {d : Definition} {ps : Producers} {j : Journal}

/-- The exit code of a command. -/
def exitCode (w : Workspace) (ps : Producers) (j : Journal) (c : Command) : Except Failure Nat :=
  ((c.run w.loadNamed).run ps j "").1

/-- What a command prints. -/
def output (w : Workspace) (ps : Producers) (j : Journal) (c : Command) : String :=
  ((c.run w.loadNamed).run ps j "").2.2

/-- The command ends well with this exit code and these lines if what it says can be put into words.
Else that is what fails. -/
def Gives (w : Workspace) (ps : Producers) (j : Journal) (c : Command) (said : List Datum) (code : Nat)
    (lines : List String) : Prop :=
  if said.all Datum.writable then
    exitCode w ps j c = .ok code ∧ output w ps j c = linesText lines
  else exitCode w ps j c = .error (.misuse .tooManyDigits)

theorem Says.gives {c : Command} {said : List Datum} {code : Nat} {lines : List String}
    (h : Says said (c.run w.loadNamed) code lines) : Gives w ps j c said code lines := by
  unfold Gives exitCode output
  unfold Says at h
  split at h
  · rename_i hall
    obtain ⟨j', hrun⟩ := h ps j
    rw [if_pos hall, hrun, String.empty_append]
    exact ⟨rfl, rfl⟩
  · rename_i hall
    obtain ⟨lines', hprints⟩ := h
    obtain ⟨j', hrun⟩ := hprints ps j
    rw [if_neg hall, hrun]

theorem Gives.of_writable {c : Command} {said : List Datum} {code : Nat} {lines : List String}
    (h : Gives w ps j c said code lines) (hall : said.all Datum.writable = true) :
    exitCode w ps j c = .ok code ∧ output w ps j c = linesText lines := by
  rwa [Gives, if_pos hall] at h

/-- The labels of actions that are asked for. -/
def saidNext (labels : Bool) (actions : List (Datum × Datum)) : List Datum :=
  if labels then actions.map Prod.snd else []

/-- The commands about a file say of a status what an attachment says of it. -/
structure SameNext (w : Workspace) (W : String) (ps : Producers) (j : Journal) (flow : Attachment)
    (a : String) (following : List (Datum × Datum)) : Prop where
  follows : flow.Follows (.text a) following
  declared : ∀ labels, (saidNext labels following).all Datum.writable = true →
    (exitCode w ps j (.next (.text W) (.text a) labels) = .ok 0 ↔
      flow.definition.declares (.text a) = true)
  listed : flow.definition.declares (.text a) = true → ∀ labels,
    Gives w ps j (.next (.text W) (.text a) labels) (saidNext labels following) 0
      (nextLines a labels following)
  terminal : flow.definition.declares (.text a) = true →
    (following = [] ↔ flow.definition.isTerminal (.text a) = .ok true)
  check : ∀ b, exitCode w ps j (.check (.text W) (.text a) (.text b)) = .ok 0 ↔
    a = b ∨ exitCode w ps j (.next (.text W) (.text a) false) = .ok 0 ∧
      .text b ∈ following.map Prod.fst

/-- The command about a file lists the choices that an attachment gives, if their labels can be
written. -/
def SameChoices (w : Workspace) (W : String) (ps : Producers) (j : Journal) (flow : Attachment)
    (actions : Bool) : Prop :=
  ∃ choices, flow.dropdown actions = .ok choices ∧
    Gives w ps j (.dropdown (.text W) actions) (choices.map Prod.snd) 0 (choices.map choiceLine)

theorem sameChoices (hyaml : w.PlainYaml) (hload : w.definitionOf W = .ok d) {flow : Attachment}
    (hflow : flow.definition = d) (actions : Bool) : SameChoices w W ps j flow actions := by
  have hids := (Workspace.fromFile_definitionOf hyaml W d hload).textIds
  have hgives : Gives w ps j _ _ _ _ :=
    ((Worded.dropdown actions).says_run hload (says_dropdown hids actions)).gives
  have hlabels : (d.statusIds.map fun s => (s, d.labelIn actions s)).map Prod.snd =
      d.statusIds.map (d.labelIn actions) := List.map_map
  rw [← hlabels] at hgives
  refine ⟨_, ?_, hgives⟩
  unfold Attachment.dropdown
  rw [hflow]
  exact Definition.labelEach_of_texts hids actions

theorem exitCode_check_iff (ps : Producers) (j : Journal) (hyaml : w.PlainYaml)
    (hload : w.definitionOf W = .ok d) (a b : String) :
    exitCode w ps j (.check (.text W) (.text a) (.text b)) = .ok 0 ↔
      a = b ∨ d.statuses.Edge (.text a) (.text b) := by
  obtain ⟨hids, hstatic, -, -⟩ := Workspace.fromFile_definitionOf hyaml W d hload
  obtain ⟨permitted, words, hpermitted, hanswer⟩ := says_check hids hstatic a b
  have hgives : Gives w ps j _ _ _ _ := ((Worded.check a b).says_run hload hanswer).gives
  unfold Gives at hgives
  split at hgives
  · rw [hgives.1, ← hpermitted]
    cases permitted <;> simp
  · rename_i hall
    rw [hgives]
    refine iff_of_false nofun fun h => hall ?_
    rw [Definition.saidOf_eq_nil hids h]
    rfl

theorem exitCode_next_of_undeclared (ps : Producers) (j : Journal)
    (hload : w.definitionOf W = .ok d) {a : String} (hdecl : d.declares (.text a) = false)
    (labels : Bool) :
    exitCode w ps j (.next (.text W) (.text a) labels) = .ok 1 := by
  have hsays := says_next_of_undeclared (.text W) hdecl labels
  rw [said_next_of_undeclared _ hdecl] at hsays
  exact (((Worded.next a labels).says_run hload hsays).gives.of_writable rfl).1

theorem gives_next (ps : Producers) (j : Journal) (hload : w.definitionOf W = .ok d) {a : String}
    {targets : Targets}
    (hn : ∃ n, d.statuses.get? (.text a) = some n ∧ n.rule = .static targets)
    (hresolved : ∀ ps j, (d.transitionsFrom (.text a)).outcome ps j = (.ok targets, j))
    (labels : Bool) :
    let following := (d.inOrder targets).map fun s => (s, d.labelIn true s)
    Gives w ps j (.next (.text W) (.text a) labels) (saidNext labels following) 0
      (nextLines a labels following) := by
  intro following
  have hsaid : said (.next (.text W) (.text a) labels) d = saidNext labels following := by
    change (if labels then (Command.following d (.text a)).map (d.labelIn true) else []) =
      if labels then following.map Prod.snd else []
    rw [following_of_static hn, List.map_map]
    rfl
  have hsays := says_next (.text W) hn hresolved labels
  rw [hsaid] at hsays
  exact ((Worded.next a labels).says_run hload hsays).gives

theorem exists_sameNext (hyaml : w.PlainYaml) (hload : w.definitionOf W = .ok d) {flow : Attachment}
    (hflow : flow.definition = d) (a : String) : ∃ following, SameNext w W ps j flow a following := by
  subst hflow
  have hstatic := (Workspace.fromFile_definitionOf hyaml W _ hload).onlyStatic
  have hcheck := exitCode_check_iff ps j hyaml hload a
  -- An undeclared status has no edges, so that only the check against itself passes.
  cases hdecl : flow.definition.declares (.text a) with
  | false =>
    have hnext := exitCode_next_of_undeclared ps j hload hdecl
    have hedge (b : String) : ¬ flow.definition.statuses.Edge (.text a) (.text b) := by
      intro h
      rw [Definition.declares_of_edge h] at hdecl
      cases hdecl
    refine ⟨[], Attachment.follows_of_undeclared hdecl, fun labels _ => ?_, ?_, ?_, fun b => ?_⟩
    · rw [hnext, hdecl]
      simp
    · rw [hdecl]
      rintro ⟨⟩
    · rw [hdecl]
      rintro ⟨⟩
    · rw [hcheck, hnext]
      simp [hedge b]
  | true =>
    obtain ⟨targets, hn, hresolved⟩ := hstatic.exists_targets hdecl
    have hnext := gives_next ps j hload hn hresolved
    refine ⟨_, Attachment.follows_of_declared hdecl hresolved, fun labels hall => ?_,
      fun _ => hnext, fun _ => ?_, fun b => ?_⟩
    · exact iff_of_true ((hnext labels).of_writable hall).1 hdecl
    · rw [List.map_eq_nil_iff, Definition.inOrder_eq_nil_iff hn]
    · have hstatuses : ((flow.definition.inOrder targets).map fun s =>
          (s, flow.definition.labelIn true s)).map Prod.fst = flow.definition.inOrder targets := by
        rw [List.map_map]
        exact List.map_id _
      rw [hcheck, ((hnext false).of_writable rfl).1, hstatuses,
        Definition.text_mem_inOrder_iff_edge hn]
      simp

/-- Where a workflow is given by the normal form of a path, the commands about it and an attachment
of it give the same answers, and the attachment follows just the definition that is loaded. A command
fails only where the attachment gives a label that cannot be written. -/
theorem commands_agree_with_attachment (hyaml : w.PlainYaml) (hnormal : (Path.ofText W).text = W)
    (hload : ((w.load W).run ps j "").1 = .ok d) (registry : Registry) (field : String)
    (entityKind : Option String) : ∃ flow : Attachment, flow.definition = d ∧ flow.field = field ∧
      flow.entityKind = entityKind ∧
      (∀ {σ : Type} (ps' : Producers) (j' : Journal) (s : σ),
        ((Attachment.ofFile w W registry field entityKind).run ps' j' s).1 = .ok flow) ∧
      (∀ actions, SameChoices w W ps j flow actions) ∧
      ∀ a, ∃ following, SameNext w W ps j flow a following := by
  have hloaded : w.definitionOf W = .ok d := by
    obtain ⟨j', hrun⟩ := w.exists_run_load W j
    rw [hrun] at hload
    exact hload
  obtain ⟨flow, hflow, hfield, hkind, hrun⟩ :=
    Attachment.exists_ofFile hyaml hnormal hloaded registry field entityKind
  exact ⟨flow, hflow, hfield, hkind, hrun, sameChoices hyaml hloaded hflow,
    exists_sameNext hyaml hloaded hflow⟩

theorem oddText_commands_agree :
    let ps : Producers := fun _ _ => .ok .null
    oddWorkspace.PlainYaml ∧ (Path.ofText "odd.yaml").text = "odd.yaml" ∧
      ∃ d, ((oddWorkspace.load "odd.yaml").run ps .empty "").1 = .ok d ∧ ∃ flow : Attachment,
        flow.definition = d ∧
        (∀ actions, SameChoices oddWorkspace "odd.yaml" ps .empty flow actions) ∧
        (∃ following, SameNext oddWorkspace "odd.yaml" ps .empty flow "None" following) ∧
        exitCode oddWorkspace ps .empty (.next (.text "odd.yaml") (.text "None") false) = .ok 0 := by
  intro ps
  have hnormal : (Path.ofText "odd.yaml").text = "odd.yaml" := by decide +kernel
  obtain ⟨d, hd, hdeclares⟩ := exists_oddText_definition
  obtain ⟨_, hloaded⟩ := oddWorkspace.exists_run_load "odd.yaml" .empty
  have hload : ((oddWorkspace.load "odd.yaml").run ps .empty "").1 = .ok d :=
    (congrArg Prod.fst (hloaded _ _)).trans hd
  obtain ⟨flow, hflow, -, -, -, hchoices, hnext⟩ := commands_agree_with_attachment
    plainYaml_oddWorkspace hnormal hload default "status" none
  obtain ⟨following, hsame⟩ := hnext "None"
  rw [← hflow] at hdeclares
  exact ⟨plainYaml_oddWorkspace, hnormal, d, hload, flow, hflow, hchoices, ⟨following, hsame⟩,
    (hsame.declared false rfl).2 hdeclares⟩

/-- What an attachment gives as choices the command does not list if the label is too long. -/
def ChoicesUnlisted (w : Workspace) (W : String) : Prop :=
  w.PlainYaml ∧ (Path.ofText W).text = W ∧
    ∃ d, (∀ ps, ((w.load W).run ps .empty "").1 = .ok d) ∧ ∃ flow : Attachment,
      (∀ {σ : Type} (ps : Producers) (j : Journal) (s : σ),
        ((Attachment.ofFile w W default "status" none).run ps j s).1 = .ok flow) ∧
      (∃ choices, flow.dropdown false = .ok choices) ∧
      ∀ ps j code, exitCode w ps j (.dropdown (.text W) false) ≠ .ok code

theorem choicesUnlisted_of_long {digits : Nat}
    (hlong : (Datum.int (16 ^ digits - 1 : Nat)).writable = false) :
    ChoicesUnlisted (hexWorkspace digits) "hex.yaml" := by
  have hyaml := plainYaml_hexWorkspace digits
  have hnormal : (Path.ofText "hex.yaml").text = "hex.yaml" := by decide +kernel
  obtain ⟨d, hd, -, -⟩ := exists_hexWorkspace_definition digits
  obtain ⟨_, hloaded⟩ := (hexWorkspace digits).exists_run_load "hex.yaml" .empty
  obtain ⟨flow, hflow, -, -, hrun⟩ :=
    Attachment.exists_ofFile hyaml hnormal hd default "status" none
  refine ⟨hyaml, hnormal, d, fun ps => ?_, flow, hrun, ?_, fun ps j code => ?_⟩
  · exact (congrArg Prod.fst (hloaded _ _)).trans hd
  · have hids := (Workspace.fromFile_definitionOf hyaml "hex.yaml" d hd).textIds
    rw [← hflow] at hids
    exact ⟨_, Definition.labelEach_of_texts hids false⟩
  · obtain ⟨lines, hprints⟩ := prints_dropdown_of_long hlong
    obtain ⟨_, hfailed⟩ := hprints ps j
    unfold exitCode
    rw [hfailed]
    nofun

/-- The choices that an attachment gives need not be listed by the command. -/
theorem choices_unlisted : ChoicesUnlisted (hexWorkspace 3600) "hex.yaml" :=
  choicesUnlisted_of_long longLabel_unwritable

end Command

end Lifecycle
