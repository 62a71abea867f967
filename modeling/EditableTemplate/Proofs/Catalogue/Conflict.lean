import EditableTemplate.Proofs.Catalogue.Agreement
import EditableTemplate.Proofs.Except

/-!
# What the policy decides

The policy matters to the merging of the mentions only. Whether they can be merged is said without
an order of them (`Document.Merges`). If they can not, collecting ends with a conflict and nothing
else is looked at (`Catalogue.isConflict_of_collect`); if they can, it goes on as it does under the
permissive policy (`Catalogue.collect_eq_permissive`).
-/

namespace EditableTemplate

open Except (FailsOnly failsOnly_ok failsOnly_error)

/-- Two placeholders disagree about a variable. -/
inductive Failure.IsConflict : Failure → Prop
  | kind (name : String) (existing added : Kind) : IsConflict (.kindConflict name existing added)
  | label (name existing added : String) : IsConflict (.labelConflict name existing added)
  | default (name : String) (existing added : Default) :
      IsConflict (.defaultConflict name existing added)

/-- What the placeholders say about each variable can be merged under a policy. -/
def Document.Merges (policy : MergePolicy) (document : Document) : Prop :=
  ¬document.KindsDiffer ∧ (policy = .strict → document.LabelsAgree ∧ document.DefaultsAgree)

namespace Draft

variable {policy : MergePolicy} {document : Document}

/-- Merging kinds fails with a conflict only. -/
theorem isConflict_of_mergeKind (name : String) (existing added : Option Kind) :
    (mergeKind name existing added).FailsOnly Failure.IsConflict := by
  fun_cases mergeKind name existing added with
  | case2 => exact failsOnly_error (.kind _ _ _)
  | case1 => exact failsOnly_ok _
  | case3 => exact failsOnly_ok _
  | case4 => exact failsOnly_ok _

theorem isConflict_of_mergeLabel (policy : MergePolicy) (name : String)
    (existing added : Option String) :
    (mergeLabel policy name existing added).FailsOnly Failure.IsConflict := by
  fun_cases mergeLabel policy name existing added with
  | case1 => exact failsOnly_error (.label _ _ _)
  | case2 => exact failsOnly_ok _
  | case3 => exact failsOnly_ok _
  | case4 => exact failsOnly_ok _

theorem isConflict_of_mergeDefault (policy : MergePolicy) (name : String)
    (existing added : Option Default) :
    (mergeDefault policy name existing added).FailsOnly Failure.IsConflict := by
  fun_cases mergeDefault policy name existing added with
  | case1 => exact failsOnly_error (.default _ _ _)
  | case2 => exact failsOnly_ok _
  | case3 => exact failsOnly_ok _
  | case4 => exact failsOnly_ok _

theorem isConflict_of_add (policy : MergePolicy) (drafts : Bindings Draft) (mention : Mention) :
    (add policy drafts mention).FailsOnly Failure.IsConflict := by
  unfold add
  split
  · exact failsOnly_ok _
  · refine FailsOnly.map ?_
    refine (isConflict_of_mergeKind _ _ _).bind fun _ _ => ?_
    refine (isConflict_of_mergeLabel _ _ _ _).bind fun _ _ => ?_
    exact (isConflict_of_mergeDefault _ _ _ _).bind fun _ _ => failsOnly_ok _

/-- Gathering the mentions fails with a conflict only. -/
theorem isConflict_of_gather (policy : MergePolicy) (mentions : List Mention) :
    (gather policy mentions).FailsOnly Failure.IsConflict :=
  Except.failsOnly_foldlM (isConflict_of_add policy) mentions Bindings.empty

/-- Under any policy the mentions have drafts exactly if they can be merged, and the policy does not
matter to the drafts. -/
theorem gather_eq_ok_iff {drafts : Bindings Draft} :
    gather policy document.mentions = .ok drafts ↔
      document.Merges policy ∧ gather .permissive document.mentions = .ok drafts := by
  have agree : gather .permissive document.mentions = .ok drafts → ¬document.KindsDiffer :=
    fun gathered => (find?_of_gather gathered).2
  cases policy with
  | permissive => simpa [Document.Merges] using agree
  | strict =>
      rw [gather_strict_eq_ok]
      constructor
      · rintro ⟨gathered, agreed⟩
        exact ⟨⟨agree gathered, fun _ => agreed⟩, gathered⟩
      · rintro ⟨⟨_, agreed⟩, gathered⟩
        exact ⟨gathered, agreed rfl⟩

/-- Where the mentions merge the drafts can be gathered. -/
theorem exists_gather_of_merges (merges : document.Merges policy) :
    ∃ drafts, gather policy document.mentions = .ok drafts := by
  cases gathered : gather .permissive document.mentions with
  | ok drafts => exact ⟨drafts, gather_eq_ok_iff.mpr ⟨merges, gathered⟩⟩
  | error failure => exact (merges.1 (kindsDiffer_of_gather_error gathered).1).elim

end Draft

namespace Catalogue

variable {policy : MergePolicy} {document : Document}

/-- Collecting goes on from the drafts in the same way under all policies. -/
theorem collect_eq_permissive (merges : document.Merges policy) :
    collect policy document = collect .permissive document := by
  obtain ⟨drafts, gathered⟩ := Draft.exists_gather_of_merges merges
  have permitted := (Draft.gather_eq_ok_iff.mp gathered).2
  rw [collect, collect, gathered, permitted]

/-- What cannot be merged is a conflict. -/
theorem isConflict_of_collect (refused : ¬document.Merges policy) :
    ∃ failure, failure.IsConflict ∧ collect policy document = .error failure := by
  cases gathered : Draft.gather policy document.mentions with
  | ok drafts => exact (refused (Draft.gather_eq_ok_iff.mp gathered).1).elim
  | error failure =>
      refine ⟨failure, Draft.isConflict_of_gather policy _ failure gathered, ?_⟩
      rw [collect, gathered]
      rfl

/-- A failure that is no conflict is the one under the permissive policy, of a document whose
mentions can be merged. -/
theorem collect_eq_error_iff {failure : Failure} (other : ¬failure.IsConflict) :
    collect policy document = .error failure ↔
      document.Merges policy ∧ collect .permissive document = .error failure := by
  by_cases merges : document.Merges policy
  · rw [collect_eq_permissive merges, and_iff_right merges]
  · obtain ⟨conflict, isConflict, failed⟩ := isConflict_of_collect merges
    refine ⟨fun same => ?_, fun both => (merges both.1).elim⟩
    obtain rfl := Except.error.inj (failed.symm.trans same)
    exact (other isConflict).elim

end Catalogue

end EditableTemplate
