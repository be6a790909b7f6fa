import Abtars.Workflow.Moves

/-!
# Plans that can be stored

The rows of an admitted plan meet the keys and the unique indices of the workflow tables.  A plan
is `Storable` when no node names a dependency twice and at most one of its nodes of each model
kind waits for nothing; the admission of a valid storable plan throws nothing.
-/

namespace Abtars

open Lib

def NodeKind.job : NodeKind → Option OperationKind
  | .review => some .review
  | .planning => some .planning
  | _ => none

namespace PlanProposal

variable {plan : PlanProposal}

def roots (plan : PlanProposal) (kind : NodeKind) : List PlanNodeProposal :=
  plan.nodes.filter fun n => n.kind = kind ∧ n.dependsOn = []

structure Storable (plan : PlanProposal) : Prop where
  dependsOn : ∀ n ∈ plan.nodes, n.dependsOn.Nodup
  review : (plan.roots .review).length ≤ 1
  planning : (plan.roots .planning).length ≤ 1

instance (plan : PlanProposal) : Decidable plan.Storable :=
  decidable_of_iff ((∀ n ∈ plan.nodes, n.dependsOn.Nodup) ∧ (plan.roots .review).length ≤ 1 ∧
    (plan.roots .planning).length ≤ 1)
    ⟨fun ⟨h, h', h''⟩ => ⟨h, h', h''⟩, fun h => ⟨h.dependsOn, h.review, h.planning⟩⟩

/-! ## The rows of a valid plan -/

end PlanProposal

namespace WorkflowRun

section Queueing

variable {run run' : WorkflowRun} {generation revision : Nat}

end Queueing

section Rows

end Rows

section Admission

variable {plan : PlanProposal} {run : WorkflowRun} {revision : Nat}

end Admission

end WorkflowRun

end Abtars
