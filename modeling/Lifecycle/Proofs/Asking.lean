import Lifecycle.Proofs.Confined
import Lifecycle.Proofs.Run

/-!
# What the library asks of producers

Whatever the library does depends on the answers that producers give to its own calls, and on no
others (`Act.Faithful`): nothing is asked in advance, kept for later or asked behind the journal.
What an attachment does is moreover made of primitives and calls only the producers of the deferred
rules of its definition (`Attachment.made_operation`).
-/

namespace Lifecycle

open Act (Faithful Made)

variable {σ : Type}

/-! ## Evaluating rules -/

namespace Definition

/-- The producers of the deferred rules, in the order of declaration. -/
def producers (d : Definition) : List Producer :=
  d.statuses.entries.filterMap fun e => match e.2.rule with
    | .deferred p => some p
    | _ => none

theorem mem_producers_of_node {d : Definition} {status : Datum} {n : Node} {p : Producer}
    (hn : d.node status = .ok (some n)) (hrule : n.rule = .deferred p) : p ∈ d.producers := by
  obtain ⟨key, hget⟩ : ∃ key, d.statuses.get? key = some n := by
    unfold node at hn
    cases hkey : status.key with
    | error e =>
      rw [hkey] at hn
      cases hn
    | ok key =>
      rw [hkey] at hn
      exact ⟨key, Except.ok.inj hn⟩
  obtain ⟨e, he, -, rfl⟩ := Table.exists_entry_of_get? hget
  exact List.mem_filterMap.2 ⟨e, he, by rw [hrule]⟩

end Definition

theorem Rule.made_resolve {among : Producer → Prop} {rule : Rule}
    (h : ∀ p, rule = .deferred p → among p) (status : Datum) :
    Made among (rule.resolve status : Act σ Targets) := by
  cases rule with
  | static targets => exact .pure targets
  | deferred p => exact .bind (.call p (h p rfl)) fun _ => .ofExcept _
  | unsupported kind => exact .fail _

theorem Definition.made_transitionsFrom (d : Definition) (status : Datum) :
    Made (· ∈ d.producers) (d.transitionsFrom status : Act σ Targets) := by
  refine .calculate fun node hnode => ?_
  cases node with
  | none => exact .fail _
  | some n => exact Rule.made_resolve (fun p hrule => mem_producers_of_node hnode hrule) status

theorem Definition.made_orderedTransitions (d : Definition) (status : Datum) :
    Made (· ∈ d.producers) (d.orderedTransitions status : Act σ (List Datum)) :=
  .bind (d.made_transitionsFrom status) fun _ => .pure _

namespace Transition

theorem made_require (d : Definition) (previous next : Datum) :
    Made (· ∈ d.producers) (require d previous next : Act σ Unit) := by
  refine .bind (.ofExcept _) fun known => ?_
  cases known with
  | false => exact .fail _
  | true =>
    refine .bind (d.made_transitionsFrom previous) fun targets => ?_
    split
    · exact .pure ()
    · exact .fail _

theorem made_validate (d : Definition) (previous next : Datum) (isNew : Bool) :
    Made (· ∈ d.producers) (validate d previous next isNew : Act σ Unit) := by
  unfold validate
  split
  · exact .pure ()
  · refine .bind (made_require d previous next).attempt fun outcome => ?_
    split
    · exact .report _
    · exact .bind (.report _) fun _ => .fail _
    · exact .fail _

theorem made_check (d : Definition) (previous next : Datum) :
    Made (· ∈ d.producers) (check d previous next : Act σ (Bool × String)) := by
  refine .bind (made_validate d previous next false).attempt fun outcome => ?_
  split
  · exact .bind (.ofExcept _) fun _ => .pure _
  · exact .pure _
  · exact .fail _

theorem made_isPermitted (d : Definition) (previous next : Datum) :
    Made (· ∈ d.producers) (isPermitted d previous next : Act σ Bool) :=
  .bind (made_check d previous next) fun _ => .pure _

end Transition

/-! ## Building from a provider -/

namespace Provider

theorem faithful_callMember {α : Type} (given : Datum → α) (capability : Capability)
    (member : Option (Member α)) : Faithful (callMember given capability member : Act σ α) := by
  cases member with
  | none => exact Act.faithful_fail _
  | some m =>
    cases m with
    | method result => exact Act.faithful_ofExcept result
    | field value =>
      cases value with
      | producer p => exact (Act.faithful_call p).bind fun _ => Act.faithful_pure _
      | _ => exact Act.faithful_fail _

theorem faithful_obtainDefinition (p : Provider) :
    Faithful (p.obtainDefinition : Act σ Definition) := by
  refine (faithful_callMember _ _ _).bind fun given => ?_
  cases given with
  | definition d =>
    refine (faithful_callMember _ _ _).bind fun labels => ?_
    refine (Act.faithful_ofExcept _).bind fun _ => ?_
    refine (faithful_callMember _ _ _).bind fun actionLabels => ?_
    exact (Act.faithful_ofExcept _).bind fun _ => Act.faithful_pure _
  | document document =>
    refine (faithful_callMember _ _ _).bind fun labels => ?_
    exact (faithful_callMember _ _ _).bind fun actionLabels => Act.faithful_ofExcept _

end Provider

/-! ## Attachments -/

namespace Attachment

variable {ρ : Type} [Accessor ρ] (a : Attachment)

theorem faithful_create (reference : ProviderReference) (registry : Registry) (field : String)
    (entityKind : Option String) :
    Faithful (create reference registry field entityKind : Act σ Attachment) :=
  (Act.faithful_ofExcept _).bind fun provider => (Act.faithful_ofExcept _).bind fun _ =>
    provider.faithful_obtainDefinition.bind fun _ => Act.faithful_pure _

section Parts

variable {among : Producer → Prop}

theorem made_requireField : Made among (a.requireField : Act (Attached ρ) Unit) := by
  refine .bind .getState fun s => ?_
  split
  · exact .pure ()
  split
  · exact .setState _
  · exact .fail _

theorem made_readStatus : Made among (a.readStatus : Act (Attached ρ) Datum) :=
  .bind .getState fun _ => .bind (.setState _) fun _ => .pure _

theorem made_writeStatus (status : Datum) :
    Made among (a.writeStatus status : Act (Attached ρ) Unit) :=
  .bind .getState fun _ => .bind (.setState _) fun _ => .ofExcept _

theorem made_start : Made among (a.start : Act (Attached ρ) Unit) :=
  .bind a.made_requireField fun _ => a.made_writeStatus _

theorem made_propose (status : Datum) : Made among (a.propose status : Act (Attached ρ) Bool) := by
  refine .bind a.made_requireField fun _ => .bind a.made_readStatus fun current => ?_
  split
  · exact .pure _
  · exact .bind (a.made_writeStatus status) fun _ => .pure _

theorem made_currentStatus : Made among (a.currentStatus : Act (Attached ρ) Datum) :=
  .bind a.made_requireField fun _ => a.made_readStatus

end Parts

theorem made_nextStatuses :
    Made (· ∈ a.definition.producers) (a.nextStatuses : Act (Attached ρ) (List Datum)) := by
  refine .bind a.made_currentStatus fun current => .bind (.ofExcept _) fun known => ?_
  cases known with
  | false => exact .pure _
  | true => exact a.definition.made_orderedTransitions current

theorem made_canTransitionTo (status : Datum) :
    Made (· ∈ a.definition.producers) (a.canTransitionTo status : Act (Attached ρ) Bool) := by
  refine .bind a.made_currentStatus fun current => ?_
  split
  · exact .pure _
  split
  · exact .pure _
  refine .bind (.ofExcept _) fun known => ?_
  cases known with
  | false => exact .pure _
  | true =>
    refine .bind (a.definition.made_transitionsFrom current).attempt fun targets => ?_
    split
    · exact .pure _
    · exact .pure _
    · exact .fail _

theorem made_validateBeforeCommit :
    Made (· ∈ a.definition.producers) (a.validateBeforeCommit : Act (Attached ρ) Unit) :=
  .bind a.made_requireField fun _ => .bind .getState fun _ => .bind a.made_readStatus fun _ =>
    .bind .getState fun _ => Transition.made_validate _ _ _ _

theorem made_operation (op : Operation) :
    Made (· ∈ a.definition.producers) (op.act a : Act (Attached ρ) Answer) := by
  cases op with
  | start => exact .bind a.made_start fun _ => .pure _
  | propose status => exact .bind (a.made_propose status) fun _ => .pure _
  | currentStatus => exact .bind a.made_currentStatus fun _ => .pure _
  | statusLabel =>
    exact .bind (.bind a.made_currentStatus fun _ => .ofExcept _) fun _ => .pure _
  | nextStatuses => exact .bind a.made_nextStatuses fun _ => .pure _
  | nextActions => exact .bind (.bind a.made_nextStatuses fun _ => .ofExcept _) fun _ => .pure _
  | canTransitionTo status => exact .bind (a.made_canTransitionTo status) fun _ => .pure _
  | dropdown action => exact .bind (.ofExcept _) fun _ => .pure _
  | validateBeforeCommit => exact .bind a.made_validateBeforeCommit fun _ => .pure _

end Attachment

namespace Session

variable {ρ : Type}

theorem made_change {among : Producer → Prop} (f : ρ → ρ) : Made among (change f) :=
  .bind .getState fun _ => .setState _

theorem made_commitBy [Accessor ρ] (persist : ρ → ρ) (i : Nat) (a : Attachment) :
    Made (· ∈ a.definition.producers) (commitBy persist i a) :=
  .bind a.made_validateBeforeCommit.zoom fun _ => made_change persist

end Session

end Lifecycle
