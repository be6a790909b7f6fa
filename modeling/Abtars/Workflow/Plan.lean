import Mathlib.Data.List.Basic

/-!
# Workflow plans

A plan is what a planner proposes for a workflow run: labelled nodes, their dependencies, and
the outputs the run has to produce.  `validatePlan` lists what is wrong with a proposal; a
proposal without diagnostics may be admitted as the next revision of the run.
-/

namespace Abtars

inductive NodeKind
  | work | synthesis | planning | review | delivery
  deriving DecidableEq

structure PlanNodeProposal where
  label : String
  kind : NodeKind
  instructions : String
  capability : String
  outputs : List String
  acceptance : List String
  dependsOn : List String
  optional : Bool

structure PlanProposal where
  nodes : List PlanNodeProposal
  requiredOutputs : List String
  allowPartial : Bool

structure PlanDiagnostic where
  field : String
  reason : String

/-- The id of a node.  A planned node is named by its revision and its place in the plan; the
label its text carries besides is that of the plan's node. -/
inductive NodeId
  | planned (revision index : Nat)
  | hostReview (revision : Nat)
  | initialPlan
  | input
  deriving DecidableEq

section Validation

variable (capabilities : List String)

/-- An output outside the workspace: an absolute or home path, or one under `tmp`. -/
def escapesWorkspace (output : String) : Bool :=
  let chars := output.toList
  "/".toList.isPrefixOf chars || "~".toList.isPrefixOf chars ||
    "home/".toList.isPrefixOf chars || chars.tails.any ("/home/".toList.isPrefixOf ·) ||
    "tmp/".toList.isPrefixOf chars || output == "tmp"

def outputProblems (field output : String) : List PlanDiagnostic :=
  if output = "" then [⟨field, "outputs must be non-empty strings"⟩]
  else if escapesWorkspace output then
    [⟨field, s!"output {output} must be workspace-relative (no absolute paths)"⟩]
  else []

def NodeKind.needsAcceptance : NodeKind → Bool
  | .work | .synthesis | .delivery => true
  | _ => false

def NodeKind.text : NodeKind → String
  | .work => "work"
  | .synthesis => "synthesis"
  | .planning => "planning"
  | .review => "review"
  | .delivery => "delivery"

def PlanNodeProposal.problems (i : Nat) (seen : List String) (n : PlanNodeProposal) :
    List PlanDiagnostic :=
  (if n.label ∈ seen then [⟨s!"nodes[{i}].label", s!"duplicate label {n.label}"⟩] else []) ++
  (if n.instructions = "" then [⟨s!"nodes[{i}].instructions", "instructions required"⟩] else []) ++
  (if n.capability ∉ capabilities then
    [⟨s!"nodes[{i}].capability", s!"unsupported capability {n.capability}"⟩] else []) ++
  n.outputs.flatMap (outputProblems s!"nodes[{i}].outputs") ++
  (if n.kind.needsAcceptance ∧ n.acceptance = [] then
    [⟨s!"nodes[{i}].acceptance", n.kind.text ++ " nodes need at least one acceptance criterion " ++
      "(worker contracts require it at dispatch)"⟩] else [])

def nodeProblems : Nat → List String → List PlanNodeProposal → List PlanDiagnostic
  | _, _, [] => []
  | i, seen, n :: rest =>
    if n.label = "" then
      ⟨s!"nodes[{i}].label", "label required"⟩ :: nodeProblems (i + 1) seen rest
    else n.problems capabilities i seen ++ nodeProblems (i + 1) (n.label :: seen) rest

variable (proposal : PlanProposal)

def PlanProposal.labels : List String :=
  (proposal.nodes.map (·.label)).filter (· ≠ "")

def dependencyProblems (seen : List String) : Nat → List PlanNodeProposal → List PlanDiagnostic
  | _, [] => []
  | i, n :: rest =>
    (n.dependsOn.flatMap fun dep =>
      if dep = n.label then [⟨s!"nodes[{i}].dependsOn", "node cannot depend on itself"⟩]
      else if dep ∉ seen then [⟨s!"nodes[{i}].dependsOn", s!"unknown node {dep}"⟩]
      else []) ++ dependencyProblems seen (i + 1) rest

/-! The search for a cycle colours a label 1 while it is on the path and 2 when it is done; a
label on the path of a cycle stays 1. -/

/-- `edges.get(label)`: the last node of a label decides. -/
def PlanProposal.edges (label : String) : List String :=
  match proposal.nodes.reverse.find? (·.label = label) with
  | none => []
  | some n => n.dependsOn.filter (· ∈ proposal.labels)

structure CycleSearch where
  color : List (String × Nat)
  problems : List PlanDiagnostic

def CycleSearch.colorOf (search : CycleSearch) (label : String) : Nat :=
  (search.color.lookup label).getD 0

def CycleSearch.paint (search : CycleSearch) (label : String) (color : Nat) : CycleSearch :=
  { search with color := (label, color) :: search.color }

def visitDep (visit : String → List String → CycleSearch → Bool × CycleSearch) (label : String)
    (stack : List String) (state : Bool × CycleSearch) (dep : String) : Bool × CycleSearch :=
  match state with
  | (false, search) => (false, search)
  | (true, search) =>
    if search.colorOf dep = 1 then
      (false, { search with problems := search.problems ++
        [⟨"nodes", "dependency cycle: " ++
          String.intercalate " -> " (stack ++ [label, dep])⟩] })
    else if search.colorOf dep = 0 then visit dep (stack ++ [label]) search
    else (true, search)

/-- `visit(label, stack)`; a path is no longer than the number of labels, which bounds the
recursion. -/
def visit (proposal : PlanProposal) :
    Nat → String → List String → CycleSearch → Bool × CycleSearch
  | 0, _, _, search => (true, search)
  | fuel + 1, label, stack, search =>
    match (proposal.edges label).foldl (visitDep (visit proposal fuel) label stack)
        (true, search.paint label 1) with
    | (true, search) => (true, search.paint label 2)
    | (false, search) => (false, search)

def PlanProposal.cycleProblems : List PlanDiagnostic :=
  (proposal.nodes.foldl (fun search n =>
    if search.colorOf n.label = 0 then
      (visit proposal (proposal.nodes.length + 1) n.label [] search).2
    else search) ⟨[], []⟩).problems

/-- The required outputs that neither the plan's own nodes nor the earlier revisions declare. -/
def PlanProposal.coverageProblems (priorOutputs : List String) : List PlanDiagnostic :=
  (proposal.requiredOutputs.filter fun output =>
      output ∉ priorOutputs ++ proposal.nodes.flatMap (·.outputs)).map fun output =>
    ⟨"requiredOutputs", s!"no node declares output {output}"⟩

def validatePlan (priorOutputs : List String) : List PlanDiagnostic :=
  if proposal.nodes = [] then [⟨"nodes", "plan must declare at least one node"⟩]
  else
    nodeProblems capabilities 0 [] proposal.nodes ++
    dependencyProblems proposal.labels 0 proposal.nodes ++
    proposal.cycleProblems ++ proposal.coverageProblems priorOutputs

end Validation

end Abtars
