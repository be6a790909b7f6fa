import Abtars.Workflow.Appliers

/-!
# The operations of the workflow runner on one run

An operation checks what it is given and commits an applier: its writes together with the new
state and one more in the version of the run, or nothing when it throws.  The statements on
deliveries and the answers to input requests stand outside a transaction.

`workflowStep` is one operation on the view; what an operation reads of its surroundings is part of
it.  The terminal projections onto the board follow a commit and write none of these rows.
-/

namespace Abtars

open Lib

namespace RunView

def onRun (effect : WorkflowRun → Except WorkflowError (TransitionEffect × WorkflowRun)) :
    Applier := fun v =>
  match effect v.run with
  | .error e => .error e
  | .ok (effect, run) => .ok (effect, { v with run })

/-- `commitTransition` of a fresh event: the applier and the new version, or nothing. -/
def commit (apply : Applier) : Body RunView WorkflowError TransitionEffect := fun v =>
  match apply v with
  | .error e => .error e
  | .ok (effect, v) => .ok (effect, { v with run := v.run.bump effect })

def committing (apply : Applier) (v : RunView) : Except WorkflowError Unit × RunView :=
  match transaction (commit apply) v with
  | (.error e, v) => (.error e, v)
  | (.ok _, v) => (.ok (), v)

/-- `requireLive` before an operation. -/
def whenLive (op : RunView → Except WorkflowError Unit × RunView) (v : RunView) :
    Except WorkflowError Unit × RunView :=
  if v.run.state.isTerminal then (.error (.runTerminal v.run.state), v) else op v

def guarded (check : Except WorkflowError Unit)
    (op : RunView → Except WorkflowError Unit × RunView) (v : RunView) :
    Except WorkflowError Unit × RunView :=
  match check with
  | .error e => (.error e, v)
  | .ok () => op v

variable (host : RunnerHost)

/-! ## Plans -/

def acceptPlan (report : ReportConstraint) (proposal : PlanProposal) :
    RunView → Except WorkflowError Unit × RunView :=
  whenLive fun v =>
    if v.run.currentRevision ≠ 0 then (.error .alreadyPlanned, v)
    else
      let problems := v.run.validatePlanForRun host.capabilities report proposal
      if problems ≠ [] then
        let reason := diagnosticsText problems
        match committing (onRun fun run => .ok (run.rejectPlanEffect reason)) v with
        | (.error e, v) => (.error e, v)
        | (.ok (), v) => (.error (.planRejected reason), v)
      else
        committing (onRun fun run =>
          (run.admitRevision run.generation proposal).map fun run => (.enter .dispatched, run)) v

def rejectPlanRound (problems : List PlanDiagnostic) (opId : Option OpId)
    (round : Option PlanRound) (claim : Option ClaimAuthority) :
    RunView → Except WorkflowError Unit × RunView :=
  whenLive (committing (onRun fun run =>
    run.rejectPlanRoundEffect (diagnosticsText problems) opId round claim))

def droppedOutputs (run : WorkflowRun) (proposal : PlanProposal) : List String :=
  (((run.getPlan 1).map (·.requiredOutputs)).getD []).filter (· ∉ proposal.requiredOutputs)

def submitPlanProposal (report : ReportConstraint) (proposal : PlanProposal)
    (opts : ProposalOpts) : RunView → Except WorkflowError Unit × RunView :=
  whenLive fun v => guarded (v.run.claimHeld opts.claim) (fun v =>
    match opts.baseRevision.filter (· ≠ v.run.currentRevision) with
    | some base => (.error (.staleRevision base v.run.currentRevision), v)
    | none =>
      let problems := v.run.validatePlanForRun host.capabilities report proposal
      if problems ≠ [] then
        match rejectPlanRound problems opts.opId opts.planRound opts.claim v with
        | (.error e, v) => (.error e, v)
        | (.ok (), v) => (.error (.revisionRejected (diagnosticsText problems)), v)
      else
        let dropped := droppedOutputs v.run proposal
        if dropped ≠ [] then (.error (.weakensAcceptance dropped), v)
        else committing (onRun fun run => run.admitProposalEffect proposal opts) v) v

/-! ## Outcomes and verdicts -/

def attemptSucceeded (nodeId : NodeId) (attemptId artifactsJson : String) :
    RunView → Except WorkflowError Unit × RunView :=
  whenLive fun v => committing (onRun fun run =>
    run.attemptSucceededEffect host.envelopeJson v.db run.currentRevision nodeId attemptId
      artifactsJson) v

def attemptFailed (nodeId : NodeId) (attemptId cause : String) (retrySafe : Bool) :
    RunView → Except WorkflowError Unit × RunView :=
  whenLive (committing (onRun fun run =>
    run.attemptFailedEffect run.currentRevision nodeId attemptId (boundText cause 2000)
      retrySafe))

/-- `commitStoredAttemptOutcome` with an event not yet applied: the state of the run is not
looked at. -/
def storedAttemptSucceeded (revision : Nat) (nodeId : NodeId) (attemptId artifactsJson : String)
    (v : RunView) : Except WorkflowError Unit × RunView :=
  committing (onRun fun run =>
    run.attemptSucceededEffect host.envelopeJson v.db revision nodeId attemptId artifactsJson) v

def storedAttemptFailed (revision : Nat) (nodeId : NodeId) (attemptId cause : String)
    (retrySafe : Bool) : RunView → Except WorkflowError Unit × RunView :=
  committing (onRun fun run =>
    run.attemptFailedEffect revision nodeId attemptId cause retrySafe)

def submitVerdict (nodeId : NodeId) (rawVerdict : ReviewVerdict)
    (claim : Option ClaimAuthority) : RunView → Except WorkflowError Unit × RunView :=
  whenLive fun v => guarded (v.run.claimHeld claim) (fun v =>
    match v.run.locateReviewNode nodeId with
    | none => (.error .noOpenReview, v)
    | some home => committing (onRun fun run =>
      run.verdictEffect home nodeId (WorkflowRun.boundVerdict rawVerdict) claim) v) v

def submitBreakerRefused (nodeId : NodeId) (resource : String) (ordinal : Nat) :
    RunView → Except WorkflowError Unit × RunView :=
  whenLive (committing (onRun fun run =>
    run.breakerRefusedEffect nodeId (boundText resource 500) ordinal))

/-- `acceptShaHandoff` of a live run. -/
def acceptShaHandoff (final : Bool) : RunView → Except WorkflowError Unit × RunView :=
  whenLive (committing (onRun (WorkflowRun.shaHandoffEffect final)))

/-! ## Ending a run -/

/-- `cancelRun`: the work of the run, the attempts and reservations under its root card, and
its open input requests. -/
def cancelRun (v : RunView) : RunView :=
  let root := v.run.rootCardId
  let ofRoot := fun (id : String) =>
    (v.db.workerAttempts.get id).any (·.rootProjectCardId = some root)
  { v with
    run := v.run.cancelWork
    db := { v.db with
      workerAttempts := v.db.workerAttempts.updateWhere
        (fun a => a.rootProjectCardId = some root ∧ (a.lifecycle = .pending ∨ a.lifecycle.isLive))
        (AttemptRow.requestCancel ("run-cancelled:" ++ v.run.runId))
      retryBudgetReservations := v.db.retryBudgetReservations.updateWhere
        (fun r => r.status = .active ∧ ofRoot r.sourceAttemptId)
        (fun r => { r with status := .released }) }
    inputs := v.inputs.updateWhere (fun q => q.projectCardId = root ∧ q.status = .pending)
      InputRequest.expire }

def closeOperations (status : OperationStatus) (v : RunView) : RunView :=
  { v with run := v.run.closeOpenOperations status }

def requestCancel (cause : String) (v : RunView) : Except WorkflowError Unit × RunView :=
  if v.run.state.isTerminal then (.ok (), v)
  else committing (fun v => .ok ({ TransitionEffect.enter .cancelled with
    failureCode := some "cancelled", failureReason := some (boundText cause 2000) },
    v.cancelRun)) v

def failRun (code reason : String) : RunView → Except WorkflowError Unit × RunView :=
  whenLive (committing fun v => .ok (.fail code (boundText reason 2000), v))

def interruptRun (v : RunView) : Except WorkflowError Unit × RunView :=
  if v.run.state.isTerminal then (.ok (), v)
  else committing (fun v => .ok (.fail "observation_unknown" interruptedByRestart,
    v.cancelRun.closeOperations .cancelled)) v

/-- The body of `failModelJob`: the job fails, and the work of the run is closed with it. -/
def failModelJobEffect (claim : ClaimAuthority) (reason : String) : Applier := fun v =>
  match v.run.requireOwnedClaim claim with
  | .error e => .error e
  | .ok c =>
    let failed := match c.action, v.run.locateAnyRevision c.nodeId with
      | .review, some home =>
        v.run.setNodeOutcome home c.nodeId .failed (some (.text reason)) none
      | _, _ => .ok v.run
    let kind := if c.action = .review then OperationKind.review else .planning
    match failed with
    | .error e => .error e
    | .ok run =>
      match run.upsertOperation ⟨c.opIdOf, kind, c.payload.revision, .failed⟩ with
      | .error e => .error e
      | .ok run => .ok (.fail "observation_unknown" (boundText reason 2000),
          ({ v with run } : RunView).cancelRun.closeOperations .failed)

def failModelJob (claim : ClaimAuthority) (reason : String) :
    RunView → Except WorkflowError Unit × RunView :=
  whenLive (committing (failModelJobEffect claim reason))

/-! ## Input requests -/

/-- The body of `requestInput`; the notice has ordinal 0. -/
def requestInputEffect (question : String) (criteria : List String) (kind : String) : Applier :=
  fun v =>
    match v.run.queueCommand ⟨v.run.generation, .input, .notify, 0⟩ ⟨none, none, [], none⟩ with
    | .error e => .error e
    | .ok run => .ok (.enter .awaitingInput,
        { v with
          run
          inputs := v.inputs.put
            { id := v.minted, projectCardId := v.run.rootCardId, runId := v.run.runId,
              question, criteria, kind, status := .pending, responseText := none }
          minted := v.minted + 1 })

def requestInput (question : String) (criteria : List String) (kind : String) :
    RunView → Except WorkflowError Unit × RunView :=
  whenLive fun v =>
    if v.run.state = .awaitingInput then (.error .alreadyAwaitingInput, v)
    else committing (requestInputEffect (boundText question 2000) criteria kind) v

def inputAnsweredEffect : WorkflowRun → Except WorkflowError (TransitionEffect × WorkflowRun) :=
  fun run => (run.queueCommand ⟨run.generation, .input, .notify,
      run.nextCommandOrdinal run.generation .input .notify⟩ ⟨none, none, [], none⟩).map
    fun run => (.enter .executing, run)

/-- `answerInput`: the row is answered before the run is looked at. -/
def answerInput (inputId : Nat) (response : String) (v : RunView) :
    Except WorkflowError Unit × RunView :=
  match (v.inputs.get inputId).filter fun q => q.status = .pending ∧ q.runId = v.run.runId with
  | none => (.error .inputUnknown, v)
  | some _ =>
    whenLive (fun v =>
      if v.run.state ≠ .awaitingInput then (.error .notAwaitingInput, v)
      else committing (onRun inputAnsweredEffect) v)
      { v with inputs := v.inputs.modify inputId (InputRequest.answer (boundText response 2000)) }

/-! ## Deliveries

These statements stand for themselves: what was written before one throws stays. -/

def statement (write : WorkflowRun → Except WorkflowError WorkflowRun)
    (next : RunView → Except WorkflowError Unit × RunView) (v : RunView) :
    Except WorkflowError Unit × RunView :=
  match write v.run with
  | .error e => (.error e, v)
  | .ok run => next { v with run }

def done (v : RunView) : Except WorkflowError Unit × RunView := (.ok (), v)

/-- `settleIfDeliverable`: the run is evaluated again. -/
def settleIfDeliverable (v : RunView) : Except WorkflowError Unit × RunView :=
  if v.run.state.isTerminal then (.ok (), v)
  else committing (onRun fun run =>
    .ok (run.evaluateTerminal run.currentRevision none, run)) v

/-- What follows a send: an acknowledged one settles the run, a failed or ambiguous one only the
delivery. -/
def afterSend (key : CommandKey) (owner : String) (token : Nat) (attempts : Nat) :
    DeliverySend → RunView → Except WorkflowError Unit × RunView
  | .receipt json => statement (·.setDeliveryOutcome key.nodeId .acknowledged (some json))
      (statement (·.completeCommand key owner token) settleIfDeliverable)
  | .definitive message =>
    if attempts < deliveryMaxAttempts then
      statement (·.completeCommand key owner token) (statement (fun run =>
        run.queueCommand ⟨key.generation, key.nodeId, .deliver,
          run.nextCommandOrdinal key.generation key.nodeId .deliver⟩
          ⟨none, none, [], none⟩) done)
    else
      statement (·.setDeliveryOutcome key.nodeId .failed (some (boundText message 500)))
        (statement (·.completeCommand key owner token) done)
  | .ambiguous => statement (·.setDeliveryOutcome key.nodeId .unknown
      (some s!"attempt {attempts}")) (statement (·.completeCommand key owner token) done)

/-- `runDeliverySend` of a claimed deliver command. -/
def runDeliverySend (key : CommandKey) (owner : String) (token : Nat) (outcome : DeliverySend)
    (v : RunView) : Except WorkflowError Unit × RunView :=
  match v.run.deliveries.get key.nodeId with
  | none => (.error .deliveryMissing, v)
  | some delivery =>
    if delivery.outcome ≠ .pending then
      statement (·.completeCommand key owner token) done v
    else
      match v.run.bumpDeliveryAttempts key.nodeId with
      | .error e => (.error e, v)
      | .ok (attempts, run) => afterSend key owner token attempts outcome { v with run }

def claiming (key : CommandKey) (owner : String) (now : Millis)
    (lost : Except WorkflowError Unit)
    (next : Nat → RunView → Except WorkflowError Unit × RunView) (v : RunView) :
    Except WorkflowError Unit × RunView :=
  match v.run.claimCommand key owner v.minted now with
  | none => (lost, v)
  | some run => next v.minted { v with run, minted := v.minted + 1 }

variable (now : Millis)

def executeDelivery (nodeId : NodeId) (outcome : DeliverySend) :
    RunView → Except WorkflowError Unit × RunView :=
  whenLive fun v =>
    match v.run.findPendingCommand nodeId .deliver with
    | none => (.error .noPendingDeliver, v)
    | some c =>
      claiming c.toCommandKey "delivery" now (.error .noPendingDeliver) (fun token =>
        runDeliverySend c.toCommandKey "delivery" token outcome) v

/-! ## Inspections -/

def claimExpired (key : CommandKey) (expectedGen : Nat) (v : RunView) :
    Except WorkflowError Unit × RunView :=
  committing (onRun fun run =>
    run.claimExpiredEffect host.envelopeJson now v.db key expectedGen) v

def inspectClaim (key : CommandKey) (expectedGen : Nat) :
    RunView → Except WorkflowError Unit × RunView :=
  whenLive (claimExpired host now key expectedGen)

/-- `submitClaimInspection` with an event not yet applied: the state of the run is not looked
at. -/
def submitClaimInspection (token gen : Nat) (v : RunView) : Except WorkflowError Unit × RunView :=
  match v.run.findCommandByToken token with
  | none => (.error .claimTokenUnknown, v)
  | some c => claimExpired host now c.toCommandKey gen v

def wholeSeconds (interval : Millis) : Millis := max 1000 ((interval + 999) / 1000 * 1000)

def submitModelJobInspection (token gen : Nat) (disposition : JobDisposition)
    (activeWithin : Option Millis) (v : RunView) : Except WorkflowError Unit × RunView :=
  if v.run.state.isTerminal then (.ok (), v)
  else
    match v.run.findCommandByToken token with
    | none => (.ok (), v)
    | some c =>
      match c.owner with
      | none => (.ok (), v)
      | some owner =>
        if c.status ≠ .claimed ∨ c.inspectGen + 1 ≠ gen then (.ok (), v)
        else
          match disposition with
          | .active =>
            let next := now + (activeWithin.map wholeSeconds).getD claimLease
            (.ok (), { v with run := v.run.noteInspectionAlive c.toCommandKey gen next })
          | .expired => failModelJob ⟨c.toCommandKey, owner, token⟩
              "model call deadline exceeded; external termination unconfirmed" v
          | .ownerless => failModelJob ⟨c.toCommandKey, owner, token⟩
              "model job has no current execution ownership" v

/-! ## Draining -/

/-- How the port answers a claimed command: at capacity the claim is given back, after any other
error it stays. -/
def portAnswer (key : CommandKey) (owner : String) (token : Nat) (answer : PortOutcome)
    (v : RunView) : Except WorkflowError Unit × RunView :=
  match answer with
  | .started | .failed => (.ok (), v)
  | .busy => (.ok (), { v with run := v.run.releaseClaim key owner token })

def startOperation (c : WorkflowCommand) (run : WorkflowRun) : Except WorkflowError WorkflowRun :=
  match c.action with
  | .review => run.upsertOperation
      ⟨.node (c.payload.revision.getD 0) c.nodeId, .review, c.payload.revision, .running⟩
  | _ => run.upsertOperation ⟨c.opIdOf, .planning, c.payload.revision, .running⟩

def startCommand (c : WorkflowCommand) (owner : String) (answer : PortOutcome)
    (send : DeliverySend) (token : Nat) (v : RunView) : Except WorkflowError Unit × RunView :=
  let key := c.toCommandKey
  match c.action with
  | .notify => portAnswer key owner token answer v
  | .deliver => runDeliverySend key owner token send v
  | .dispatch =>
    let revision := v.run.currentRevision
    -- never dispatch work for a node that is no longer open
    if (v.run.findNode revision c.nodeId).any (·.status.isOpen) then
      portAnswer key owner token answer
        { v with run := v.run.markNodeRunning revision c.nodeId }
    else statement (·.completeCommand key owner token) done v
  | .review | .plan =>
    let run := match c.payload.revision with
      | none => v.run
      | some revision => v.run.markNodeRunning revision c.nodeId
    match startOperation c run with
    | .error e => (.error e, { v with run })
    | .ok run => portAnswer key owner token answer { v with run }

/-- One turn of the drain's loop, on the row the drain listed: a refused dispatch is never
claimed. -/
def drainCommand (key : CommandKey) (refused : Bool) (owner : String) (answer : PortOutcome)
    (send : DeliverySend) (v : RunView) : Except WorkflowError Unit × RunView :=
  match v.run.commands.get key with
  | none => (.ok (), v)
  | some c =>
    if refused ∧ c.action = .dispatch then submitBreakerRefused c.nodeId "default" c.ordinal v
    else claiming key owner now (.ok ()) (startCommand c owner answer send) v

end RunView

/-! ## Runs -/

/-- An operation on one run, with what it reads of its surroundings; besides those of the
runner, what the ports bind and complete, and what the worker stores make of the database. -/
inductive WorkflowOp
  | acceptPlan (report : ReportConstraint) (proposal : PlanProposal)
  | submitPlanProposal (report : ReportConstraint) (proposal : PlanProposal)
      (opts : ProposalOpts)
  | rejectPlanRound (problems : List PlanDiagnostic) (opId : Option OpId)
      (round : Option PlanRound) (claim : Option ClaimAuthority)
  | attemptSucceeded (nodeId : NodeId) (attemptId artifactsJson : String)
  | attemptFailed (nodeId : NodeId) (attemptId cause : String) (retrySafe : Bool)
  | storedAttemptSucceeded (revision : Nat) (nodeId : NodeId) (attemptId artifactsJson : String)
  | storedAttemptFailed (revision : Nat) (nodeId : NodeId) (attemptId cause : String)
      (retrySafe : Bool)
  | submitVerdict (nodeId : NodeId) (verdict : ReviewVerdict) (claim : Option ClaimAuthority)
  | submitBreakerRefused (nodeId : NodeId) (resource : String) (ordinal : Nat)
  | acceptShaHandoff (final : Bool)
  | requestCancel (cause : String)
  | failRun (code reason : String)
  | interruptRun
  | failModelJob (claim : ClaimAuthority) (reason : String)
  | requestInput (question : String) (criteria : List String) (kind : String)
  | answerInput (inputId : Nat) (response : String)
  | executeDelivery (now : Millis) (nodeId : NodeId) (outcome : DeliverySend)
  | inspectClaim (now : Millis) (key : CommandKey) (expectedGen : Nat)
  | submitClaimInspection (now : Millis) (token gen : Nat)
  | submitModelJobInspection (now : Millis) (token gen : Nat) (disposition : JobDisposition)
      (activeWithin : Option Millis)
  | drainCommand (now : Millis) (key : CommandKey) (refused : Bool) (owner : String)
      (answer : PortOutcome) (send : DeliverySend)
  | bindNodeWorker (revision : Nat) (nodeId : NodeId) (cardId : Nat) (attemptId : Option String)
  | completeCommand (key : CommandKey) (owner : String) (token : Nat)
  | workers (db : Db)

def workflowCall (host : RunnerHost) : WorkflowOp → RunView → Except WorkflowError Unit × RunView
  | .acceptPlan report proposal => RunView.acceptPlan host report proposal
  | .submitPlanProposal report proposal opts =>
    RunView.submitPlanProposal host report proposal opts
  | .rejectPlanRound problems opId round claim =>
    RunView.rejectPlanRound problems opId round claim
  | .attemptSucceeded nodeId attemptId artifactsJson =>
    RunView.attemptSucceeded host nodeId attemptId artifactsJson
  | .attemptFailed nodeId attemptId cause retrySafe =>
    RunView.attemptFailed nodeId attemptId cause retrySafe
  | .storedAttemptSucceeded revision nodeId attemptId artifactsJson =>
    RunView.storedAttemptSucceeded host revision nodeId attemptId artifactsJson
  | .storedAttemptFailed revision nodeId attemptId cause retrySafe =>
    RunView.storedAttemptFailed revision nodeId attemptId cause retrySafe
  | .submitVerdict nodeId verdict claim => RunView.submitVerdict nodeId verdict claim
  | .submitBreakerRefused nodeId resource ordinal =>
    RunView.submitBreakerRefused nodeId resource ordinal
  | .acceptShaHandoff final => RunView.acceptShaHandoff final
  | .requestCancel cause => RunView.requestCancel cause
  | .failRun code reason => RunView.failRun code reason
  | .interruptRun => RunView.interruptRun
  | .failModelJob claim reason => RunView.failModelJob claim reason
  | .requestInput question criteria kind => RunView.requestInput question criteria kind
  | .answerInput inputId response => RunView.answerInput inputId response
  | .executeDelivery now nodeId outcome => RunView.executeDelivery now nodeId outcome
  | .inspectClaim now key expectedGen => RunView.inspectClaim host now key expectedGen
  | .submitClaimInspection now token gen => RunView.submitClaimInspection host now token gen
  | .submitModelJobInspection now token gen disposition activeWithin =>
    RunView.submitModelJobInspection now token gen disposition activeWithin
  | .drainCommand now key refused owner answer send =>
    RunView.drainCommand now key refused owner answer send
  | .bindNodeWorker revision nodeId cardId attemptId =>
    RunView.statement (·.bindNodeWorker revision nodeId cardId attemptId) RunView.done
  | .completeCommand key owner token =>
    RunView.statement (·.completeCommand key owner token) RunView.done
  | .workers db => fun v => (.ok (), { v with db })

def workflowStep (host : RunnerHost) (v : RunView) (op : WorkflowOp) : RunView := (workflowCall host op v).2

end Abtars
