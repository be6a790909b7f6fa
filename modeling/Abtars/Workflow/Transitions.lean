import Abtars.Workflow.Acceptance
import Abtars.Workflow.Store

/-!
# The transitions of the workflow runner

What the appliers of the runner write inside a transaction, and the state they ask for.
`evaluateTerminal` decides from the recorded nodes whether the run is over; it writes nothing.
-/

namespace Abtars

open Lib

/-- What an applier asks of the commit: a state, what failed, and whether the event changed
nothing. -/
structure TransitionEffect where
  nextState : Option WorkflowState
  failureCode : Option String
  failureReason : Option String
  noop : Bool

namespace TransitionEffect

def stay : TransitionEffect := ⟨none, none, none, false⟩

def noChange : TransitionEffect := ⟨none, none, none, true⟩

def enter (state : WorkflowState) : TransitionEffect := ⟨some state, none, none, false⟩

def fail (code reason : String) : TransitionEffect :=
  ⟨some .failed, some code, some reason, false⟩

end TransitionEffect

/-! ## Plans admitted as revisions -/

def sanitizeLabel (label : String) : String :=
  String.ofList ((label.toList.map fun c =>
    if c.isAlphanum ∨ c = '_' ∨ c = '-' then c else '_').take 24)

namespace PlanProposal

def indexOf (plan : PlanProposal) (label : String) : Option Nat :=
  ((plan.nodes.zipIdx.filter fun p => p.1.label = label).getLast?).map (·.2)

variable (revision : Nat)

def hostNodes (plan : PlanProposal) : List (PlanNodeProposal × NodeId) :=
  plan.nodes.zipIdx.map fun p => (p.1, .planned revision p.2)

def nodeRows (plan : PlanProposal) : List NodeRow :=
  (plan.hostNodes revision).map fun p => WorkflowRun.newNode revision p.2 p.1.kind

def depRows (plan : PlanProposal) : List DepRow :=
  (plan.hostNodes revision).flatMap fun p => p.1.dependsOn.filterMap fun dep =>
    (plan.indexOf dep).map fun j =>
      { revision, nodeId := p.2, dependsOn := .planned revision j, satisfied := false }

def isOptional (plan : PlanProposal) (nodeId : NodeId) : Bool :=
  (plan.hostNodes revision).any fun p => p.2 = nodeId ∧ p.1.optional

def outputsOf (plan : PlanProposal) (nodeId : NodeId) : List String :=
  ((plan.hostNodes revision).filter fun p => p.2 = nodeId).flatMap (·.1.outputs)

end PlanProposal

namespace WorkflowRun

variable (run : WorkflowRun)

def nodeText : NodeId → String
  | .planned revision index =>
    let label := ((run.getPlan revision).bind (·.nodes[index]?)).map (·.label)
    s!"n{revision}_{index}_" ++ sanitizeLabel (label.getD "")
  | .hostReview revision => s!"n{revision}_host_review"
  | .initialPlan => "__plan__"
  | .input => "__input__"

def isOptionalNode (revision : Nat) (nodeId : NodeId) : Bool :=
  (run.getPlan revision).any fun plan => plan.isOptional revision nodeId

def cumulativeOutputs (uptoRevision : Nat) : List String :=
  (run.revisions.take uptoRevision).flatMap fun plan => plan.nodes.flatMap (·.outputs)

/-! ## Terminal evaluation -/

def reviewRunning (revision : Nat) : Bool :=
  run.nodes.rows.any fun n =>
    1 ≤ n.revision ∧ n.revision ≤ revision ∧ n.kind = .review ∧ n.status = .running

def judgeNodes (revision : Nat) (plan : PlanProposal) (failureCause : Option String) :
    TransitionEffect :=
  let nodes := run.listNodes revision
  let failedRequired := nodes.filter fun n =>
    n.status = .failed ∧ plan.isOptional revision n.nodeId = false
  let names := String.intercalate "," (failedRequired.map fun n => run.nodeText n.nodeId)
  if failedRequired = [] then .enter .succeeded
  else if plan.allowPartial then
    let produced := (nodes.filter (·.status = .succeeded)).flatMap fun n =>
      plan.outputsOf revision n.nodeId
    let missing := plan.requiredOutputs.filter (· ∉ produced)
    if missing = [] then
      { TransitionEffect.enter .succeeded with
        failureReason := some s!"partial: dropped nodes {names}, all required outputs produced" }
    else .fail "node_failed" (failureCause.getD
      ("required outputs missing: " ++ String.intercalate "," missing))
  else .fail "node_failed" (failureCause.getD s!"nodes failed: {names}")

def evaluateTerminal (revision : Nat) (failureCause : Option String) : TransitionEffect :=
  if run.listNodes revision = [] then .fail "no_workers" "plan admitted zero executable nodes"
  else if (run.listNodes revision).any (·.status.isOpen) then .stay
  -- a review running anywhere leaves the acceptance undecided
  else if run.reviewRunning revision then .stay
  -- accepted content that was not acknowledged is no success
  else if run.hasPendingDelivery then .stay
  else
    match run.getPlan revision with
    | none => .fail "node_failed"
        (failureCause.getD "node failure with unreadable acceptance policy")
    | some plan => run.judgeNodes revision plan failureCause

/-! ## Commands of nodes -/

def queueInitialPlanning : Except WorkflowError WorkflowRun :=
  match run.upsertOperation ⟨.initialPlan, .planning, none, .pending⟩ with
  | .error e => .error e
  | .ok run => run.queueCommand ⟨run.generation, .initialPlan, .plan, 0⟩
      ⟨none, some .initial, [], some .initialPlan⟩

def actionFor : NodeKind → CommandAction
  | .review => .review
  | .planning => .plan
  | _ => .dispatch

variable (generation : Nat)

/-- `queueForNode`: the command of a node by its kind, and the record of a model job. -/
def queueForNode (revision : Nat) (nodeId : NodeId) (kind : NodeKind) (ordinal : Nat)
    (run : WorkflowRun) : Except WorkflowError WorkflowRun :=
  let purpose := if kind = .planning then some RoundPurpose.nextWave else none
  match run.queueCommand ⟨generation, nodeId, actionFor kind, ordinal⟩
      ⟨some revision, purpose, [], none⟩ with
  | .error e => .error e
  | .ok run =>
    match kind with
    | .review => run.upsertOperation ⟨.node revision nodeId, .review, some revision, .pending⟩
    | .planning =>
      run.upsertOperation ⟨.node revision nodeId, .planning, some revision, .pending⟩
    | _ => .ok run

def queueNodes (revision : Nat) (nodes : List NodeRow) (run : WorkflowRun) :
    Except WorkflowError WorkflowRun :=
  nodes.foldlM (fun run n => run.queueForNode generation revision n.nodeId n.kind 0) run

def readyNodes (revision : Nat) : List NodeRow :=
  (run.listNodes revision).filter fun n => run.hasUnsatisfiedDeps revision n.nodeId = false

def hasOpenReview (revision : Nat) : Bool :=
  run.nodes.rows.any fun n =>
    1 ≤ n.revision ∧ n.revision ≤ revision ∧ n.kind = .review ∧ n.status.isOpen

/-- `appendHostReviewIfMissing`: the mandatory review, after the work of the revision. -/
def appendHostReviewIfMissing (revision : Nat) (run : WorkflowRun) :
    Except WorkflowError WorkflowRun :=
  if run.hasOpenReview revision then .ok run
  else
    let nodeId := NodeId.hostReview revision
    match run.insertNode (newNode revision nodeId .review) with
    | .error e => .error e
    | .ok run =>
      let work := (run.listNodes revision).filter fun n => n.kind = .work ∨ n.kind = .synthesis
      match run.insertDeps (work.map fun n =>
          { revision, nodeId, dependsOn := n.nodeId, satisfied := false }) with
      | .error e => .error e
      | .ok run =>
        if run.hasUnsatisfiedDeps revision nodeId then .ok run
        else run.queueForNode generation revision nodeId .review 0

/-- The rows of an admitted plan, the commands of its ready nodes and its review: the writes
that `acceptPlan` and `submitPlanProposal` share. -/
def admitRevision (plan : PlanProposal) (run : WorkflowRun) : Except WorkflowError WorkflowRun :=
  let revision := run.currentRevision + 1
  match (run.insertPlanRevision plan).insertNodes (plan.nodeRows revision) with
  | .error e => .error e
  | .ok run =>
    match run.insertDeps (plan.depRows revision) with
    | .error e => .error e
    | .ok run =>
      match run.queueNodes generation revision (run.readyNodes revision) with
      | .error e => .error e
      | .ok run => run.appendHostReviewIfMissing generation revision

/-! ## Settling nodes -/

/-- Does this node wait for a fresh review command?  An open review with one pending, or
claimed while the node runs, does not. -/
def needsReReview (n : NodeRow) : Bool :=
  n.kind = .review ∧ n.status.isOpen ∧ run.hasCommand n.nodeId .review .pending = false ∧
    ¬ (n.status = .running ∧ run.hasCommand n.nodeId .review .claimed)

def requeueReview (run : WorkflowRun) (n : NodeRow) : Except WorkflowError WorkflowRun :=
  if run.needsReReview n then
    run.queueForNode generation n.revision n.nodeId .review
      (run.nextCommandOrdinal generation n.nodeId .review)
  else .ok run

def priorNodes (revision : Nat) : List NodeRow :=
  (List.range (revision - 1)).reverse.flatMap fun i => run.listNodes (i + 1)

/-- `maybeQueueReReview`: once the latest revision is worked, the open reviews before it. -/
def maybeQueueReReview (run : WorkflowRun) : Except WorkflowError WorkflowRun :=
  if (run.listNodes run.currentRevision).any (·.status.isOpen) then .ok run
  else (run.priorNodes run.currentRevision).foldlM (requeueReview generation) run

def settleWithReReview (revision : Nat) (failureCause : Option String) (run : WorkflowRun) :
    Except WorkflowError (TransitionEffect × WorkflowRun) :=
  let effect := run.evaluateTerminal revision failureCause
  match effect.nextState with
  | some _ => .ok (effect, run)
  | none =>
    match run.maybeQueueReReview generation with
    | .error e => .error e
    | .ok run => .ok (effect, run)

def releaseDependents (revision : Nat) (nodeId : NodeId) (run : WorkflowRun) :
    Except WorkflowError WorkflowRun :=
  let (unblocked, run) := run.satisfyDependents revision nodeId
  run.queueNodes generation revision unblocked

def succeedNodeEffect (revision : Nat) (nodeId : NodeId) (attemptId : String)
    (artifactsJson : String) (run : WorkflowRun) :
    Except WorkflowError (TransitionEffect × WorkflowRun) :=
  match run.setNodeOutcome revision nodeId .succeeded (some (.artifacts artifactsJson))
      (some attemptId) with
  | .error e => .error e
  | .ok run =>
    match run.releaseDependents generation revision nodeId with
    | .error e => .error e
    | .ok run => run.settleWithReReview generation revision none

def retryNode (revision : Nat) (nodeId : NodeId) (attemptId cause : String) (run : WorkflowRun) :
    Except WorkflowError (TransitionEffect × WorkflowRun) :=
  let ordinal := run.nextCommandOrdinal generation nodeId .dispatch
  match run.setNodeOutcome revision nodeId .running (some (.text cause)) (some attemptId) with
  | .error e => .error e
  | .ok run =>
    match run.queueCommand ⟨generation, nodeId, .dispatch, ordinal⟩
        ⟨some revision, none, [], none⟩ with
    | .error e => .error e
    | .ok run => .ok (.stay, run)

/-- A node failed for good: an optional one releases its dependents, a required one has them
skipped. -/
def closeFailedNode (revision : Nat) (nodeId : NodeId) (attemptId cause : String)
    (run : WorkflowRun) : Except WorkflowError (TransitionEffect × WorkflowRun) :=
  let reason := "node " ++ run.nodeText nodeId ++ " failed: " ++ cause
  match run.setNodeOutcome revision nodeId .failed (some (.text cause)) (some attemptId) with
  | .error e => .error e
  | .ok run =>
    if run.isOptionalNode revision nodeId then
      match run.releaseDependents generation revision nodeId with
      | .error e => .error e
      | .ok run => run.settleWithReReview generation revision (some reason)
    else
      (run.skipDependents revision nodeId).settleWithReReview generation revision (some reason)

def failNodeEffect (revision : Nat) (nodeId : NodeId) (attemptId cause : String) (retrySafe : Bool)
    (run : WorkflowRun) : Except WorkflowError (TransitionEffect × WorkflowRun) :=
  if run.isOptionalNode revision nodeId = false ∧ retrySafe then
    match run.consumeBudget .workRetry with
    | (true, run) => run.retryNode generation revision nodeId attemptId cause
    | (false, run) => run.closeFailedNode generation revision nodeId attemptId cause
  else run.closeFailedNode generation revision nodeId attemptId cause

/-- `requireNode` with the statuses a completion may find. -/
def requireNode (revision : Nat) (nodeId : NodeId) : Except WorkflowError NodeRow :=
  match run.findNode revision nodeId with
  | none => .error .nodeMissing
  | some n => if n.status.isOpen then .ok n else .error (.nodeConflicts n.status)

/-! ## Attempts -/

/-- `requireCurrentAttempt`: the bound card when the attempt is still its latest, none for an
unbound node. -/
def requireCurrentAttempt (db : Db) (n : NodeRow) (attemptId : String) :
    Except WorkflowError (Option Nat) :=
  match n.workerCardId with
  | none => .ok none
  | some cardId =>
    if (latestAttempt db cardId).any (·.id = attemptId) then .ok (some cardId)
    else .error (.staleAttempt attemptId)

variable (envelopeJson : WorkerResultEnvelope → String)

/-- `applyStoredAcceptanceEffect`: the stored evidence decides, and a rejection is not retried. -/
def storedAcceptanceEffect (db : Db) (generation revision : Nat) (nodeId : NodeId) (cardId : Nat)
    (attemptId : String) (run : WorkflowRun) :
    Except WorkflowError (TransitionEffect × WorkflowRun) :=
  match readWorkerAcceptance db cardId attemptId with
  | .rejected cause => run.failNodeEffect generation revision nodeId attemptId cause false
  | .accepted envelope =>
    run.succeedNodeEffect generation revision nodeId attemptId (envelopeJson envelope)

/-- The body of `applyAttemptSucceeded`. -/
def attemptSucceededEffect (db : Db) (revision : Nat) (nodeId : NodeId)
    (attemptId artifactsJson : String) (run : WorkflowRun) :
    Except WorkflowError (TransitionEffect × WorkflowRun) :=
  match run.requireNode revision nodeId with
  | .error e => .error e
  | .ok n =>
    match requireCurrentAttempt db n attemptId with
    | .error e => .error e
    | .ok none =>
      run.succeedNodeEffect run.generation revision nodeId attemptId artifactsJson
    | .ok (some cardId) =>
      run.storedAcceptanceEffect envelopeJson db run.generation revision nodeId cardId attemptId

/-- The body of `applyAttemptFailed`. -/
def attemptFailedEffect (revision : Nat) (nodeId : NodeId) (attemptId cause : String)
    (retrySafe : Bool) (run : WorkflowRun) :
    Except WorkflowError (TransitionEffect × WorkflowRun) :=
  match run.requireNode revision nodeId with
  | .error e => .error e
  | .ok _ => run.failNodeEffect run.generation revision nodeId attemptId cause retrySafe

end WorkflowRun

end Abtars
