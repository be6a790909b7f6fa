import Abtars.Workflow.Transitions

/-!
# The appliers of the workflow runner

A transaction of the runner sees a run with its rows, the input requests and the task database:
a `RunView`.  Here are the values its operations are called with, and the appliers that write
the rows of the run only: rounds and proposals, verdicts, refusals, inspections.
-/

namespace Abtars

open Lib

inductive InputStatus
  | pending | answered | expired
  deriving DecidableEq

/-- A row of `project_input_requests`; its context names a run. -/
structure InputRequest where
  id : Nat
  projectCardId : Nat
  runId : String
  question : String
  criteria : List String
  kind : String
  status : InputStatus
  responseText : Option String

instance : Keyed InputRequest Nat := ⟨InputRequest.id⟩

@[simp]
theorem key_inputRequest (q : InputRequest) : Keyed.key q = q.id := rfl

def InputRequest.answer (response : String) (q : InputRequest) : InputRequest :=
  { q with status := .answered, responseText := some response }

def InputRequest.expire (q : InputRequest) : InputRequest := { q with status := .expired }

/-- What a transaction on a run sees; `minted` counts the random ids handed out. -/
structure RunView where
  run : WorkflowRun
  inputs : Table InputRequest
  db : Db
  minted : Nat

structure RunnerHost where
  capabilities : List String
  envelopeJson : WorkerResultEnvelope → String

/-- The final report a scheduled task asks for: none, an output, or why it cannot be named. -/
inductive ReportConstraint
  | none | ref (output : String) | problem (reason : String)

structure ClaimAuthority where
  key : CommandKey
  owner : String
  token : Nat

structure PlanRound where
  nodeId : NodeId
  ordinal : Nat
  payload : CommandPayload

structure ProposalOpts where
  baseRevision : Option Nat
  opId : Option OpId
  completesNode : Option (Nat × NodeId)
  planRound : Option PlanRound
  claim : Option ClaimAuthority

inductive ReviewVerdict
  | accept
  | changesRequired (defects : List Defect)
  | cannotAssess (reason : String)
  | unknown (kind : String)
  deriving DecidableEq

inductive DeliverySend
  | receipt (json : String)
  | definitive (message : String)
  | ambiguous

inductive PortOutcome
  | started | busy | failed

inductive JobDisposition
  | active | expired | ownerless
  deriving DecidableEq

def deliveryMaxAttempts : Nat := 3
def maxConsecutiveInconclusive : Nat := 5
def interruptedByRestart : String := "interrupted by bridge restart"

/-- `opIdOfCommand`: the operation a command names, or that of its node. -/
def WorkflowCommand.opIdOf (c : WorkflowCommand) : OpId :=
  c.payload.opId.getD (.node (c.payload.revision.getD 0) c.nodeId)

def PlanDiagnostic.text (d : PlanDiagnostic) : String := d.field ++ ": " ++ d.reason

def diagnosticsText (problems : List PlanDiagnostic) : String :=
  boundText (String.intercalate "; " (problems.map PlanDiagnostic.text)) 2000

abbrev Applier := Body RunView WorkflowError TransitionEffect

namespace WorkflowRun

variable (run : WorkflowRun)

/-- `requireOwnedClaim`: the command row a model handoff still holds. -/
def requireOwnedClaim (claim : ClaimAuthority) : Except WorkflowError WorkflowCommand :=
  match run.commands.get claim.key with
  | some c => if c.heldBy claim.owner claim.token then .ok c else .error .staleClaim
  | none => .error .staleClaim

def claimHeld : Option ClaimAuthority → Except WorkflowError Unit
  | none => .ok ()
  | some claim => (run.requireOwnedClaim claim).map fun _ => ()

def settleClaim : Option ClaimAuthority → Except WorkflowError WorkflowRun
  | none => .ok run
  | some claim => run.completeCommand claim.key claim.owner claim.token

def bump (effect : TransitionEffect) (run : WorkflowRun) : WorkflowRun :=
  { run with
    state := effect.nextState.getD run.state
    stateVersion := run.stateVersion + 1
    failureCode := effect.failureCode <|> run.failureCode
    failureReason := effect.failureReason <|> run.failureReason }

/-! ## Plan validation -/

def validatePlanForRun (capabilities : List String) (report : ReportConstraint)
    (proposal : PlanProposal) (run : WorkflowRun) : List PlanDiagnostic :=
  validatePlan capabilities proposal (run.cumulativeOutputs run.currentRevision) ++
    match report with
    | .none => []
    | .problem reason => [⟨"requiredOutputs", reason⟩]
    | .ref output =>
      if output ∈ proposal.requiredOutputs then []
      else [⟨"requiredOutputs", s!"missing host-required report output {output}"⟩]

/-! ## Appliers on the run alone -/

def rejectPlanEffect (reason : String) (run : WorkflowRun) : TransitionEffect × WorkflowRun :=
  match run.consumeBudget .planRevision with
  | (true, run) => (.enter .planning, run)
  | (false, run) => (.fail "plan_rejected" reason, run)

/-- The round of a rejected proposal is queued again, its failed command superseded. -/
def requeueRound (opId : Option OpId) (round : PlanRound) (run : WorkflowRun) :
    Except WorkflowError WorkflowRun :=
  let failed : CommandKey := ⟨run.generation, round.nodeId, .plan, round.ordinal⟩
  let run := run.supersedeCommand failed
  let opId := (round.payload.opId <|> opId).getD (.node run.currentRevision round.nodeId)
  match run.upsertOperation ⟨opId, .planning, none, .pending⟩ with
  | .error e => .error e
  | .ok run =>
    run.queueCommand ⟨run.generation, round.nodeId, .plan,
      run.nextCommandOrdinal run.generation round.nodeId .plan⟩ round.payload

def failOperation (opId : Option OpId) (run : WorkflowRun) : Except WorkflowError WorkflowRun :=
  match opId with
  | none => .ok run
  | some opId => run.upsertOperation ⟨opId, .planning, none, .failed⟩

def supersedeClaim (claim : Option ClaimAuthority) (run : WorkflowRun) : WorkflowRun :=
  match claim with
  | none => run
  | some claim => run.supersedeCommand claim.key

/-- The body of `rejectPlanRound`. -/
def rejectPlanRoundEffect (reason : String) (opId : Option OpId) (round : Option PlanRound)
    (claim : Option ClaimAuthority) (run : WorkflowRun) :
    Except WorkflowError (TransitionEffect × WorkflowRun) :=
  match run.claimHeld claim with
  | .error e => .error e
  | .ok () =>
    match run.consumeBudget .planRevision with
    | (false, run) =>
      match run.failOperation opId with
      | .error e => .error e
      | .ok run => .ok (.fail "plan_rejected" reason, run.supersedeClaim claim)
    | (true, run) =>
      match round with
      | none => .ok (.enter .planning, run.supersedeClaim claim)
      | some round =>
        match run.requeueRound opId round with
        | .error e => .error e
        | .ok run => .ok (.enter .planning, run)

def completeAuthor (node : Option (Nat × NodeId)) (run : WorkflowRun) :
    Except WorkflowError WorkflowRun :=
  match node with
  | none => .ok run
  | some (revision, nodeId) =>
    run.setNodeOutcome revision nodeId .succeeded (some (.text "proposed")) none

def succeedOperation (opId : Option OpId) (revision : Nat) (run : WorkflowRun) :
    Except WorkflowError WorkflowRun :=
  match opId with
  | none => .ok run
  | some opId => run.upsertOperation ⟨opId, .planning, some revision, .succeeded⟩

/-- The body of an accepted `submitPlanProposal`. -/
def admitProposalEffect (proposal : PlanProposal) (opts : ProposalOpts) (run : WorkflowRun) :
    Except WorkflowError (TransitionEffect × WorkflowRun) :=
  let revision := run.currentRevision + 1
  match run.claimHeld opts.claim with
  | .error e => .error e
  | .ok () =>
    match (run.cancelPriorNodes revision (opts.completesNode.toList.map (·.2))).completeAuthor
        opts.completesNode with
    | .error e => .error e
    | .ok run =>
      match run.admitRevision run.generation proposal with
      | .error e => .error e
      | .ok run =>
        match run.succeedOperation opts.opId revision with
        | .error e => .error e
        | .ok run =>
          match run.settleClaim opts.claim with
          | .error e => .error e
          | .ok run => .ok (.enter .dispatched, run)

/-! ## Verdicts -/

/-- `locateReviewNode`: the newest revision in which this is an open review. -/
def locateReviewNode (nodeId : NodeId) : Option Nat :=
  ((List.range run.currentRevision).reverse.map (· + 1)).find? fun revision =>
    (run.findNode revision nodeId).any fun n => n.kind = .review ∧ n.status.isOpen

/-- `locateAnyRevision`: the newest revision that has this node. -/
def locateAnyRevision (nodeId : NodeId) : Option Nat :=
  ((List.range run.currentRevision).reverse.map (· + 1)).find? fun revision =>
    (run.findNode revision nodeId).isSome

def defectProblem (criteria : List String) : Nat → List Defect → Option String
  | _, [] => none
  | i, d :: rest =>
    if d.criterion ∉ criteria then
      some (s!"defect[{i}] links to unknown criterion " ++ d.criterion)
    else if d.detail = "" then some s!"defect[{i}] needs a concrete detail"
    else defectProblem criteria (i + 1) rest

/-- `checkVerdict`: why a verdict is malformed. -/
def checkVerdict (revision : Nat) : ReviewVerdict → Option String
  | .accept => none
  | .unknown kind => some s!"unknown verdict kind {kind}"
  | .cannotAssess reason =>
    if reason = "" then some "cannot_assess requires a reason" else none
  | .changesRequired defects =>
    if defects = [] then some "changes_required requires at least one defect"
    else
      match run.getPlan revision with
      | none => some "unreadable plan revision for criterion linkage"
      | some plan => defectProblem (plan.nodes.flatMap (·.acceptance)) 0 defects

def failReviewEffect (home judged : Nat) (nodeId : NodeId) (outcome cause : String)
    (claim : Option ClaimAuthority) (run : WorkflowRun) :
    Except WorkflowError (TransitionEffect × WorkflowRun) :=
  match run.upsertOperation ⟨.node home nodeId, .review, some home, .failed⟩ with
  | .error e => .error e
  | .ok run =>
    match run.setNodeOutcome home nodeId .failed (some (.text outcome)) none with
    | .error e => .error e
    | .ok run =>
      match run.settleClaim claim with
      | .error e => .error e
      | .ok run => .ok (run.evaluateTerminal judged (some cause), run)

def malformedVerdictEffect (home judged : Nat) (nodeId : NodeId) (malformed : String)
    (claim : Option ClaimAuthority) (run : WorkflowRun) :
    Except WorkflowError (TransitionEffect × WorkflowRun) :=
  match run.consumeBudget .protocolCorrection with
  | (false, run) =>
    run.failReviewEffect home judged nodeId malformed ("malformed verdict: " ++ malformed) claim
  | (true, run) =>
    match run.queueCommand ⟨run.generation, nodeId, .review,
        run.nextCommandOrdinal run.generation nodeId .review⟩ ⟨some home, none, [], none⟩ with
    | .error e => .error e
    | .ok run =>
      match run.settleClaim claim with
      | .error e => .error e
      | .ok run => .ok (.stay, run)

def acceptedVerdictEffect (home judged : Nat) (nodeId : NodeId) (claim : Option ClaimAuthority)
    (run : WorkflowRun) : Except WorkflowError (TransitionEffect × WorkflowRun) :=
  match run.upsertOperation ⟨.node home nodeId, .review, some home, .succeeded⟩ with
  | .error e => .error e
  | .ok run =>
    match run.setNodeOutcome home nodeId .succeeded (some (.accepted judged)) none with
    | .error e => .error e
    | .ok run =>
      let run := run.insertDelivery nodeId judged
      match run.queueCommand ⟨run.generation, nodeId, .deliver,
          run.nextCommandOrdinal run.generation nodeId .deliver⟩
          ⟨some judged, none, [], none⟩ with
      | .error e => .error e
      | .ok run =>
        match run.settleClaim claim with
        | .error e => .error e
        | .ok run => .ok (run.evaluateTerminal judged none, run)

/-- Required changes start a repair round within the allowance; the review stays open. -/
def changesRequiredEffect (home judged : Nat) (nodeId : NodeId) (defects : List Defect)
    (claim : Option ClaimAuthority) (run : WorkflowRun) :
    Except WorkflowError (TransitionEffect × WorkflowRun) :=
  match run.consumeBudget .reviewRepair with
  | (false, run) =>
    let cause := "repair allowance exhausted with unresolved defects"
    run.failReviewEffect home judged nodeId cause cause claim
  | (true, run) =>
    match run.upsertOperation ⟨.repair judged nodeId, .planning, some judged, .pending⟩ with
    | .error e => .error e
    | .ok run =>
      match run.queueCommand ⟨run.generation, nodeId, .plan,
          run.nextCommandOrdinal run.generation nodeId .plan⟩
          ⟨some judged, some .repair, defects, some (.repair judged nodeId)⟩ with
      | .error e => .error e
      | .ok run =>
        match run.settleClaim claim with
        | .error e => .error e
        | .ok run => .ok (.stay, run)

def boundVerdict : ReviewVerdict → ReviewVerdict
  | .cannotAssess reason => .cannotAssess (boundText reason 2000)
  | .changesRequired defects => .changesRequired (defects.map fun d =>
    ⟨boundText d.criterion 500, boundText d.detail 2000⟩)
  | verdict => verdict

/-- The body of `submitVerdict` on the open review node of revision `home`. -/
def verdictEffect (home : Nat) (nodeId : NodeId) (verdict : ReviewVerdict)
    (claim : Option ClaimAuthority) (run : WorkflowRun) :
    Except WorkflowError (TransitionEffect × WorkflowRun) :=
  let judged := run.currentRevision
  match run.claimHeld claim with
  | .error e => .error e
  | .ok () =>
    match run.checkVerdict judged verdict with
    | some malformed => run.malformedVerdictEffect home judged nodeId malformed claim
    | none =>
      match verdict with
      | .accept => run.acceptedVerdictEffect home judged nodeId claim
      | .cannotAssess reason =>
        run.failReviewEffect home judged nodeId reason
          ("review cannot assess: " ++ reason) claim
      | .changesRequired defects => run.changesRequiredEffect home judged nodeId defects claim
      | .unknown _ => .error .noOpenReview

/-! ## Refusals and handoffs -/

/-- The body of `submitBreakerRefused`. -/
def breakerRefusedEffect (nodeId : NodeId) (resource : String) (ordinal : Nat)
    (run : WorkflowRun) : Except WorkflowError (TransitionEffect × WorkflowRun) :=
  let revision := run.currentRevision
  match (run.findNode revision nodeId).filter (·.status.isOpen) with
  | none => .ok (.noChange, run)
  | some _ =>
    let run := run.cancelCommand ⟨run.generation, nodeId, .dispatch, ordinal⟩
    if run.isOptionalNode revision nodeId then
      match run.setNodeOutcome revision nodeId .skipped
          (some (.text ("resource refused: " ++ resource))) none with
      | .error e => .error e
      | .ok run =>
        match run.releaseDependents run.generation revision nodeId with
        | .error e => .error e
        | .ok run => run.settleWithReReview run.generation revision none
    else
      .ok (.fail "resource_unavailable" ("resource refused: " ++ resource),
        run.cancelPendingCommands)

/-- The body of `applyShaHandoff`: the reviews of the revision that wait for nothing. -/
def shaHandoffEffect (final : Bool) (run : WorkflowRun) :
    Except WorkflowError (TransitionEffect × WorkflowRun) :=
  if final = false then .ok (.noChange, run)
  else
    let revision := run.currentRevision
    let waiting := (run.listNodes revision).filter fun n =>
      run.needsReReview n ∧ run.hasUnsatisfiedDeps revision n.nodeId = false
    match waiting.foldlM (requeueReview run.generation) run with
    | .error e => .error e
    | .ok run => .ok (if waiting = [] then .noChange else .stay, run)

/-! ## Inspections -/

/-- `applyInconclusive`: at the bound the inspection decides, below it the next is scheduled. -/
def inconclusiveEffect (now : Millis) (c : WorkflowCommand) (expectedGen : Nat)
    (onMax : WorkflowRun → Except WorkflowError WorkflowRun) (resolveRunUnknown : Bool)
    (run : WorkflowRun) : Except WorkflowError (TransitionEffect × WorkflowRun) :=
  let inconclusive := c.consecutiveInconclusive + 1
  if maxConsecutiveInconclusive ≤ inconclusive then
    match onMax run with
    | .error e => .error e
    | .ok run =>
      if resolveRunUnknown then
        .ok (.fail "observation_unknown" ("5 consecutive inconclusive inspections; " ++
          "no retry without confirmed termination"), run)
      else
        .ok (run.evaluateTerminal run.currentRevision
          (some "inspection cap reached without verdict"), run)
  else
    .ok (.stay, run.noteInspectionInconclusive c.toCommandKey expectedGen inconclusive
      (now + claimLease))

def inspectDeliver (c : WorkflowCommand) (owner : String) (token : Nat) (run : WorkflowRun) :
    Except WorkflowError (TransitionEffect × WorkflowRun) :=
  match (run.deliveries.get c.nodeId).filter (·.outcome = .pending) with
  | none => (run.completeCommand c.toCommandKey owner token).map fun run => (.noChange, run)
  | some delivery =>
    -- claimed but never sent: safe to queue again
    if delivery.attempts = 0 then .ok (.stay, run.releaseClaim c.toCommandKey owner token)
    else
      match run.setDeliveryOutcome c.nodeId .unknown (some "\x7b\"inspection\":true\x7d") with
      | .error e => .error e
      | .ok run => (run.completeCommand c.toCommandKey owner token).map fun run => (.stay, run)

def failModelNode (c : WorkflowCommand) (home : Option Nat) (run : WorkflowRun) :
    Except WorkflowError WorkflowRun :=
  let kind := if c.action = .review then OperationKind.review else .planning
  match run.upsertOperation ⟨c.opIdOf, kind, home, .failed⟩ with
  | .error e => .error e
  | .ok run =>
    match home with
    | none => .ok run
    | some revision => run.setNodeOutcome revision c.nodeId .failed
        (some (.text "inspection cap reached without verdict")) none

def inspectModelJob (now : Millis) (c : WorkflowCommand) (expectedGen : Nat)
    (run : WorkflowRun) : Except WorkflowError (TransitionEffect × WorkflowRun) :=
  let home := run.locateAnyRevision c.nodeId
  -- initial planning has no node: losing it is an unknown observation, not an empty plan
  run.inconclusiveEffect now c expectedGen (failModelNode c home)
    (c.action = .plan ∧ home.isNone)

def leaseFresh (now : Millis) (db : Db) (attemptId : String) : Bool :=
  (db.attemptLeaseSnapshots.get attemptId).any fun lease =>
    lease.closedAt.isNone ∧ lease.nextEvaluationAt.any (now < ·)

def inspectDispatch (envelopeJson : WorkerResultEnvelope → String) (now : Millis) (db : Db)
    (c : WorkflowCommand) (owner : String) (token : Nat) (expectedGen : Nat)
    (run : WorkflowRun) : Except WorkflowError (TransitionEffect × WorkflowRun) :=
  let revision := run.currentRevision
  let unobserved := run.inconclusiveEffect now c expectedGen (fun run =>
    run.setNodeOutcome revision c.nodeId .failed (some (.text "observation_unknown")) none) true
  match run.findNode revision c.nodeId with
  | none => (run.completeCommand c.toCommandKey owner token).map fun run => (.noChange, run)
  | some node =>
    match node.workerCardId.bind (latestAttempt db) with
    | none => .ok (.stay, run.releaseClaim c.toCommandKey owner token)
    | some latest =>
      if latest.lifecycle = .completed then
        match requireCurrentAttempt db node latest.id with
        | .error e => .error e
        | .ok none => .error (.inspectionUnbound latest.id)
        | .ok (some cardId) =>
          match run.storedAcceptanceEffect envelopeJson db run.generation revision c.nodeId
              cardId latest.id with
          | .error e => .error e
          | .ok (effect, run) =>
            (run.completeCommand c.toCommandKey owner token).map fun run => (effect, run)
      else if latest.lifecycle.isTerminal then
        match c.claimedAt with
        | none => unobserved
        | some claimedAt =>
          -- an attempt older than the claim: the claimed round never ran
          if latest.startedAt ≤ claimedAt - 60000 then
            .ok (.stay, run.releaseClaim c.toCommandKey owner token)
          else
            let found := "attempt " ++ latest.id ++ " " ++ latest.lifecycle.text
            match run.setNodeOutcome revision c.nodeId .failed
                (some (.text (found ++ " found at inspection"))) none with
            | .error e => .error e
            | .ok run =>
              (run.completeCommand c.toCommandKey owner token).map fun run =>
                (run.evaluateTerminal revision (some found), run)
      else if latest.lifecycle = .pending ∨ leaseFresh now db latest.id then
        .ok (.stay,
          run.noteInspectionAlive c.toCommandKey expectedGen (now + claimLease))
      else unobserved

/-- The body of `applyClaimExpired`. -/
def claimExpiredEffect (envelopeJson : WorkerResultEnvelope → String) (now : Millis) (db : Db)
    (key : CommandKey) (expectedGen : Nat) (run : WorkflowRun) :
    Except WorkflowError (TransitionEffect × WorkflowRun) :=
  match run.commands.get key with
  | none => .ok (.noChange, run)
  | some c =>
    if c.status ≠ .claimed then .ok (.noChange, run)
    else
      match c.owner, c.claimToken with
      | some owner, some token =>
        -- a newer inspection owns this claim
        if c.inspectGen + 1 ≠ expectedGen then .ok (.noChange, run)
        else if (run.findNode run.currentRevision key.nodeId).any fun n =>
            ¬ n.status.isOpen then
          (run.completeCommand key owner token).map fun run => (.noChange, run)
        else
          match key.action with
          | .deliver => run.inspectDeliver c owner token
          | .review | .plan => run.inspectModelJob now c expectedGen
          | .dispatch | .notify =>
            run.inspectDispatch envelopeJson now db c owner token expectedGen
      | _, _ => .ok (.noChange, run)

end WorkflowRun

end Abtars
