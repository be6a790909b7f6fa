import Abtars.Board.Card
import Abtars.Lib.Transaction
import Abtars.Workflow.Plan

/-!
# The rows of a workflow run

A workflow run is a row of `workflow_runs` together with its rows in the other workflow tables:
every statement of the store names the run, so the rows are kept with it.  The functions below
are the granular writers of the store; the transitions of the runner are built of them.  A
violated key or uniqueness constraint throws.

Result texts of operations, instants no statement compares and the texts a command carries for
its log are left out.
-/

namespace Abtars

open Lib

inductive RootKind
  | scheduled | interactive | peer
  deriving DecidableEq

inductive BudgetScope
  | workRetry | planRevision | reviewRepair | protocolCorrection
  deriving DecidableEq

inductive CommandAction
  | dispatch | notify | deliver | review | plan
  deriving DecidableEq

inductive CommandStatus
  | pending | claimed | done | cancelled
  deriving DecidableEq

inductive NodeStatus
  | queued | running | succeeded | failed | skipped | cancelled
  deriving DecidableEq

inductive OperationKind
  | planning | review
  deriving DecidableEq

inductive OperationStatus
  | pending | claimed | running | succeeded | failed | cancelled
  deriving DecidableEq

inductive DeliveryOutcome
  | pending | acknowledged | failed | unknown
  deriving DecidableEq

inductive RoundPurpose
  | initial | repair | nextWave
  deriving DecidableEq

/-- `succeeded`, `failed` and `cancelled` accept no further transitions. -/
def WorkflowState.isTerminal : WorkflowState → Bool
  | .succeeded | .failed | .cancelled => true
  | _ => false

def CommandStatus.isOpen : CommandStatus → Bool
  | .pending | .claimed => true
  | _ => false

def NodeStatus.isOpen : NodeStatus → Bool
  | .queued | .running => true
  | _ => false

def OperationStatus.isOpen : OperationStatus → Bool
  | .pending | .claimed | .running => true
  | _ => false

inductive OpId
  | initialPlan
  | node (revision : Nat) (nodeId : NodeId)
  | repair (revision : Nat) (nodeId : NodeId)
  deriving DecidableEq

structure Defect where
  criterion : String
  detail : String
  deriving DecidableEq

/-! ## Rows -/

/-- What a node ended with: the text of a failure, the artifacts of a success, or the
acceptance of a revision. -/
inductive NodeOutcome
  | text (cause : String)
  | artifacts (json : String)
  | accepted (judgedRevision : Nat)
  deriving DecidableEq

structure NodeRow where
  revision : Nat
  nodeId : NodeId
  kind : NodeKind
  status : NodeStatus
  workerCardId : Option Nat
  attemptId : Option String
  outcome : Option NodeOutcome

instance : Keyed NodeRow (Nat × NodeId) := ⟨fun n => (n.revision, n.nodeId)⟩

@[simp]
theorem key_nodeRow (n : NodeRow) : Keyed.key n = (n.revision, n.nodeId) := rfl

structure DepRow where
  revision : Nat
  nodeId : NodeId
  dependsOn : NodeId
  satisfied : Bool

instance : Keyed DepRow (Nat × NodeId × NodeId) := ⟨fun d => (d.revision, d.nodeId, d.dependsOn)⟩

@[simp]
theorem key_depRow (d : DepRow) : Keyed.key d = (d.revision, d.nodeId, d.dependsOn) := rfl

structure OperationRow where
  opId : OpId
  kind : OperationKind
  revision : Option Nat
  status : OperationStatus

instance : Keyed OperationRow OpId := ⟨OperationRow.opId⟩

@[simp]
theorem key_operationRow (o : OperationRow) : Keyed.key o = o.opId := rfl

structure Budget where
  allowed : Int
  consumed : Nat

/-- The rows of `workflow_budgets`: one for each scope. -/
structure Budgets where
  workRetry : Budget
  planRevision : Budget
  reviewRepair : Budget
  protocolCorrection : Budget

structure CommandKey where
  generation : Nat
  nodeId : NodeId
  action : CommandAction
  ordinal : Nat
  deriving DecidableEq

structure CommandPayload where
  revision : Option Nat
  purpose : Option RoundPurpose
  defects : List Defect
  opId : Option OpId

/-- A row of `workflow_commands`. -/
structure WorkflowCommand extends CommandKey where
  status : CommandStatus
  payload : CommandPayload
  claimedAt : Option Millis
  owner : Option String
  claimToken : Option Nat
  inspectGen : Nat
  consecutiveInconclusive : Nat
  nextInspectionAt : Option Millis

instance : Keyed WorkflowCommand CommandKey := ⟨WorkflowCommand.toCommandKey⟩

@[simp]
theorem key_workflowCommand (c : WorkflowCommand) : Keyed.key c = c.toCommandKey := rfl

/-- A row of `workflow_deliveries`: the obligation names the revision it delivers. -/
structure DeliveryRow where
  nodeId : NodeId
  revision : Nat
  outcome : DeliveryOutcome
  attempts : Nat
  receipt : Option String

instance : Keyed DeliveryRow NodeId := ⟨DeliveryRow.nodeId⟩

@[simp]
theorem key_deliveryRow (d : DeliveryRow) : Keyed.key d = d.nodeId := rfl

/-- A workflow run with its rows.  Revisions are admitted one after the other, from 1. -/
structure WorkflowRun extends WorkflowRunRow where
  rootKind : RootKind
  generation : Nat
  stateVersion : Nat
  clientOperationId : String
  failureCode : Option String
  failureReason : Option String
  createdAt : Millis
  budgets : Budgets
  revisions : List PlanProposal
  nodes : Table NodeRow
  deps : Table DepRow
  operations : Table OperationRow
  commands : Table WorkflowCommand
  deliveries : Table DeliveryRow

instance : Keyed WorkflowRun String := ⟨fun run => run.runId⟩

@[simp]
theorem key_workflowRun (run : WorkflowRun) : Keyed.key run = run.runId := rfl

inductive WorkflowError
  | runMissing
  | runTerminal (state : WorkflowState)
  | alreadyPlanned
  | planRejected (reason : String)
  | revisionRejected (reason : String)
  | staleRevision (base current : Nat)
  | weakensAcceptance (dropped : List String)
  | constraint
  | nodeMissing
  | nodeConflicts (status : NodeStatus)
  | staleAttempt (attemptId : String)
  | staleClaim
  | completeRejected
  | noOpenReview
  | inspectionUnbound (attemptId : String)
  | deliveryMissing
  | deliveryNotPending
  | noPendingDeliver
  | claimTokenUnknown
  | alreadyAwaitingInput
  | inputUnknown
  | notAwaitingInput
  deriving DecidableEq

namespace Budgets

def get (b : Budgets) : BudgetScope → Budget
  | .workRetry => b.workRetry
  | .planRevision => b.planRevision
  | .reviewRepair => b.reviewRepair
  | .protocolCorrection => b.protocolCorrection

def set (b : Budgets) (scope : BudgetScope) (budget : Budget) : Budgets :=
  match scope with
  | .workRetry => { b with workRetry := budget }
  | .planRevision => { b with planRevision := budget }
  | .reviewRepair => { b with reviewRepair := budget }
  | .protocolCorrection => { b with protocolCorrection := budget }

@[simp]
theorem get_set (b : Budgets) (scope scope' : BudgetScope) (budget : Budget) :
    (b.set scope budget).get scope' = if scope = scope' then budget else b.get scope' := by
  cases scope <;> cases scope' <;> rfl

end Budgets

/-! ## What a statement writes in a row -/

def claimLease : Millis := 300000

def NodeRow.bind (cardId : Nat) (attemptId : Option String) (n : NodeRow) : NodeRow :=
  { n with workerCardId := some cardId, attemptId := attemptId <|> n.attemptId }

def NodeRow.withStatus (status : NodeStatus) (n : NodeRow) : NodeRow := { n with status }

def NodeRow.settle (status : NodeStatus) (outcome : Option NodeOutcome)
    (attemptId : Option String) (n : NodeRow) : NodeRow :=
  { n with status, outcome := outcome <|> n.outcome, attemptId := attemptId <|> n.attemptId }

def DepRow.satisfy (d : DepRow) : DepRow := { d with satisfied := true }

def OperationRow.withStatus (status : OperationStatus) (o : OperationRow) : OperationRow :=
  { o with status }

/-- `idx_workflow_operations_single_open`: one open operation of a kind for a revision. -/
def OperationRow.clashesOpen (new old : OperationRow) : Bool :=
  new.status.isOpen ∧ old.status.isOpen ∧ old.kind = new.kind ∧ new.revision.isSome ∧
    old.revision = new.revision

def WorkflowCommand.claim (owner : String) (token : Nat) (now : Millis) (c : WorkflowCommand) :
    WorkflowCommand :=
  { c with
    status := .claimed
    claimedAt := some now
    owner := some owner
    claimToken := some token
    inspectGen := 0
    consecutiveInconclusive := 0
    nextInspectionAt := some (now + claimLease) }

def WorkflowCommand.heldBy (owner : String) (token : Nat) (c : WorkflowCommand) : Bool :=
  c.status = .claimed ∧ c.owner = some owner ∧ c.claimToken = some token

def WorkflowCommand.close (status : CommandStatus) (c : WorkflowCommand) : WorkflowCommand :=
  { c with status, nextInspectionAt := none }

def WorkflowCommand.release (c : WorkflowCommand) : WorkflowCommand :=
  { c with
    status := .pending
    claimedAt := none
    owner := none
    claimToken := none
    nextInspectionAt := none }

def WorkflowCommand.drop (c : WorkflowCommand) : WorkflowCommand := { c with status := .cancelled }

def WorkflowCommand.inspected (gen inconclusive : Nat) (next : Millis) (c : WorkflowCommand) :
    WorkflowCommand :=
  { c with
    inspectGen := gen
    consecutiveInconclusive := inconclusive
    nextInspectionAt := some next }

def DeliveryRow.refresh (revision : Nat) (d : DeliveryRow) : DeliveryRow := { d with revision }

def DeliveryRow.settle (outcome : DeliveryOutcome) (receipt : Option String) (d : DeliveryRow) :
    DeliveryRow :=
  { d with outcome, receipt := receipt <|> d.receipt }

def DeliveryRow.bump (d : DeliveryRow) : DeliveryRow := { d with attempts := d.attempts + 1 }

def DeliveryRow.abandon (d : DeliveryRow) : DeliveryRow :=
  { d with outcome := .unknown, receipt := d.receipt <|> some "\x7b\"cancelled\":true\x7d" }

structure ResolvedBudgets where
  workRetry : Int
  planRevision : Int
  reviewRepair : Int
  protocolCorrection : Int

def ResolvedBudgets.rows (b : ResolvedBudgets) : Budgets where
  workRetry := ⟨b.workRetry, 0⟩
  planRevision := ⟨b.planRevision, 0⟩
  reviewRepair := ⟨b.reviewRepair, 0⟩
  protocolCorrection := ⟨b.protocolCorrection, 0⟩

namespace WorkflowRun

def admitted (runId : String) (rootKind : RootKind) (rootCardId : Nat)
    (scheduledRunId : Option String) (clientOperationId : String) (budgets : ResolvedBudgets)
    (createdAt : Millis) : WorkflowRun where
  runId := runId
  rootCardId := rootCardId
  scheduledRunId := scheduledRunId
  state := .admitted
  rootKind := rootKind
  generation := 1
  stateVersion := 0
  clientOperationId := clientOperationId
  failureCode := none
  failureReason := none
  createdAt := createdAt
  budgets := budgets.rows
  revisions := []
  nodes := ∅
  deps := ∅
  operations := ∅
  commands := ∅
  deliveries := ∅

/-! ## Plans and nodes -/

variable (run : WorkflowRun)

def currentRevision : Nat := run.revisions.length

variable (revision : Nat)

/-- `getPlanJson`: the plan admitted as a revision. -/
def getPlan : Option PlanProposal :=
  if revision = 0 then none else run.revisions[revision - 1]?

def insertPlanRevision (plan : PlanProposal) (run : WorkflowRun) : WorkflowRun :=
  { run with revisions := run.revisions ++ [plan] }

variable (nodeId : NodeId)

def newNode (kind : NodeKind) : NodeRow where
  revision := revision
  nodeId := nodeId
  kind := kind
  status := .queued
  workerCardId := none
  attemptId := none
  outcome := none

def insertNode (row : NodeRow) (run : WorkflowRun) : Except WorkflowError WorkflowRun :=
  match run.nodes.insert (fun _ => false) row with
  | none => .error .constraint
  | some nodes => .ok { run with nodes }

def insertNodes (rows : List NodeRow) (run : WorkflowRun) : Except WorkflowError WorkflowRun :=
  rows.foldlM (fun run row => run.insertNode row) run

def insertDep (row : DepRow) (run : WorkflowRun) : Except WorkflowError WorkflowRun :=
  match run.deps.insert (fun _ => false) row with
  | none => .error .constraint
  | some deps => .ok { run with deps }

def insertDeps (rows : List DepRow) (run : WorkflowRun) : Except WorkflowError WorkflowRun :=
  rows.foldlM (fun run row => run.insertDep row) run

/-- The nodes of a revision.  The source lists them by id; the order decides only in which
order one transaction queues the commands of siblings. -/
def listNodes : List NodeRow :=
  run.nodes.select fun n => n.revision = revision

def findNode : Option NodeRow :=
  run.nodes.get (revision, nodeId)

/-- `findNodeByCard`: the node dispatched to a worker card, newest revision first. -/
def findNodeByCard (cardId : Nat) : Option NodeRow :=
  (List.range run.currentRevision).reverse.findSome? fun i =>
    (run.listNodes (i + 1)).find? (·.workerCardId = some cardId)

def bindNodeWorker (cardId : Nat) (attemptId : Option String) (run : WorkflowRun) :
    Except WorkflowError WorkflowRun :=
  match run.findNode revision nodeId with
  | none => .error .nodeMissing
  | some _ => .ok { run with
      nodes := run.nodes.modify (revision, nodeId) (NodeRow.bind cardId attemptId) }

def hasUnsatisfiedDeps : Bool :=
  run.deps.rows.any fun d =>
    d.revision = revision ∧ d.nodeId = nodeId ∧ d.satisfied = false

def markNodeRunning (run : WorkflowRun) : WorkflowRun :=
  { run with
    nodes := run.nodes.updateWhere
      (fun n => n.revision = revision ∧ n.nodeId = nodeId ∧ n.status = .queued)
      (NodeRow.withStatus .running) }

def dependsOn (run : WorkflowRun) (revision : Nat) (nodeId dep : NodeId) : Bool :=
  run.deps.rows.any fun d => d.revision = revision ∧ d.nodeId = nodeId ∧ d.dependsOn = dep

def skipDirectOf (dep : NodeId) (run : WorkflowRun) : WorkflowRun :=
  { run with
    nodes := run.nodes.updateWhere
      (fun n => n.revision = revision ∧ n.status = .queued ∧
        run.dependsOn revision n.nodeId dep)
      (NodeRow.withStatus .skipped) }

def skippable (n : NodeRow) : Bool :=
  n.revision = revision ∧ n.status = .queued ∧
    run.nodes.rows.any fun m =>
      m.revision = revision ∧ m.status = .skipped ∧ run.dependsOn revision n.nodeId m.nodeId

def skipPass (run : WorkflowRun) : WorkflowRun :=
  { run with nodes :=
      run.nodes.updateWhere (run.skippable revision) (NodeRow.withStatus .skipped) }

def queuedCount : Nat :=
  (run.nodes.select fun n => n.revision = revision ∧ n.status = .queued).length

/-- The passes of `skipDependents`, until one changes nothing; each skips a queued node, which
bounds their number. -/
def skipPasses (revision : Nat) : Nat → WorkflowRun → WorkflowRun
  | 0, run => run
  | fuel + 1, run =>
    if run.nodes.rows.any (run.skippable revision) then
      skipPasses revision fuel (run.skipPass revision)
    else run

def skipDependents (run : WorkflowRun) : WorkflowRun :=
  let run := run.skipDirectOf revision nodeId
  run.skipPasses revision (run.queuedCount revision)

def setNodeOutcome (status : NodeStatus) (outcome : Option NodeOutcome) (attemptId : Option String)
    (run : WorkflowRun) : Except WorkflowError WorkflowRun :=
  match run.findNode revision nodeId with
  | none => .error .nodeMissing
  | some _ => .ok { run with
      nodes := run.nodes.modify (revision, nodeId) (NodeRow.settle status outcome attemptId) }

def markSatisfied (dependsOn : NodeId) (run : WorkflowRun) : WorkflowRun :=
  { run with
    deps := run.deps.updateWhere
      (fun d => d.revision = revision ∧ d.dependsOn = dependsOn) DepRow.satisfy }

/-- `satisfyDependents`: satisfies the edges and returns the dependents that are now unblocked. -/
def satisfyDependents (dependsOn : NodeId) (run : WorkflowRun) : List NodeRow × WorkflowRun :=
  let run := run.markSatisfied revision dependsOn
  (run.nodes.select fun n =>
    n.revision = revision ∧ n.status = .queued ∧ run.dependsOn revision n.nodeId dependsOn ∧
      run.hasUnsatisfiedDeps revision n.nodeId = false, run)

/-- `cancelPriorNodes`: open nodes of superseded revisions, reviews and spared nodes apart. -/
def cancelPriorNodes (spare : List NodeId) (run : WorkflowRun) : WorkflowRun :=
  { run with
    nodes := run.nodes.updateWhere
      (fun n => n.revision < revision ∧ n.status.isOpen ∧ n.kind ≠ .review ∧ n.nodeId ∉ spare)
      (NodeRow.withStatus .cancelled) }

/-! ## Budgets and operations -/

/-- `consumeBudget`: whether there was any left. -/
def consumeBudget (scope : BudgetScope) (run : WorkflowRun) : Bool × WorkflowRun :=
  let budget := run.budgets.get scope
  if (budget.consumed : Int) < budget.allowed then
    (true, { run with
      budgets := run.budgets.set scope { budget with consumed := budget.consumed + 1 } })
  else (false, run)

def upsertOperation (op : OperationRow) (run : WorkflowRun) : Except WorkflowError WorkflowRun :=
  match run.operations.get op.opId with
  | some old =>
    if run.operations.rows.any fun o => o.opId ≠ op.opId ∧
        ({ old with status := op.status } : OperationRow).clashesOpen o then
      .error .constraint
    else .ok { run with operations :=
      run.operations.modify op.opId (OperationRow.withStatus op.status) }
  | none =>
    match run.operations.insert op.clashesOpen op with
    | none => .error .constraint
    | some operations => .ok { run with operations }

def closeOpenOperations (status : OperationStatus) (run : WorkflowRun) : WorkflowRun :=
  { run with operations :=
      run.operations.updateWhere (·.status.isOpen) (OperationRow.withStatus status) }

/-! ## Commands -/

variable (key : CommandKey)

def newCommand (payload : CommandPayload) : WorkflowCommand where
  toCommandKey := key
  status := .pending
  payload := payload
  claimedAt := none
  owner := none
  claimToken := none
  inspectGen := 0
  consecutiveInconclusive := 0
  nextInspectionAt := none

def queueCommand (payload : CommandPayload) (run : WorkflowRun) :
    Except WorkflowError WorkflowRun :=
  match run.commands.insert (fun _ => false) (newCommand key payload) with
  | none => .error .constraint
  | some commands => .ok { run with commands }

def commandsOf (generation : Nat) (nodeId : NodeId) (action : CommandAction) :
    List WorkflowCommand :=
  run.commands.select fun c =>
    c.generation = generation ∧ c.nodeId = nodeId ∧ c.action = action

/-- `nextCommandOrdinal`: one more than the highest ordinal used. -/
def nextCommandOrdinal (generation : Nat) (nodeId : NodeId) (action : CommandAction) : Nat :=
  (run.commandsOf generation nodeId action).foldr (fun c next => max (c.ordinal + 1) next) 0

def hasCommand (action : CommandAction) (status : CommandStatus) : Bool :=
  run.commands.rows.any fun c =>
    c.nodeId = nodeId ∧ c.action = action ∧ c.status = status

/-- `findPendingCommand`: the pending command of lowest ordinal. -/
def findPendingCommand (action : CommandAction) : Option WorkflowCommand :=
  (run.commands.select fun c =>
      c.nodeId = nodeId ∧ c.action = action ∧ c.status = .pending).foldl (fun best c =>
    match best with
    | none => some c
    | some b => if c.ordinal < b.ordinal then some c else some b) none

def findCommandByToken (token : Nat) : Option WorkflowCommand :=
  run.commands.rows.find? (·.claimToken = some token)

variable (owner : String)

/-- `claimCommand`: none when the command is not pending. -/
def claimCommand (token : Nat) (now : Millis) (run : WorkflowRun) : Option WorkflowRun :=
  match run.commands.get key with
  | some c =>
    if c.status = .pending then
      some { run with
        commands := run.commands.modify key (WorkflowCommand.claim owner token now) }
    else none
  | none => none

def completeCommand (token : Nat) (run : WorkflowRun) : Except WorkflowError WorkflowRun :=
  match run.commands.get key with
  | some c =>
    if c.heldBy owner token then
      .ok { run with commands := run.commands.modify key (WorkflowCommand.close .done) }
    else .error .completeRejected
  | none => .error .completeRejected

/-- `releaseClaim`: only the holder of the live token gives a claim back. -/
def releaseClaim (token : Nat) (run : WorkflowRun) : WorkflowRun :=
  match run.commands.get key with
  | some c =>
    if c.heldBy owner token then
      { run with commands := run.commands.modify key WorkflowCommand.release }
    else run
  | none => run

/-- `cancelCommand`: a pending command is dropped without running. -/
def cancelCommand (run : WorkflowRun) : WorkflowRun :=
  { run with
    commands := run.commands.updateWhere
      (fun c => c.toCommandKey = key ∧ c.status = .pending) (WorkflowCommand.close .cancelled) }

/-- `supersedeCommand`: the command of a failed round, pending or still claimed. -/
def supersedeCommand (run : WorkflowRun) : WorkflowRun :=
  { run with
    commands := run.commands.updateWhere
      (fun c => c.toCommandKey = key ∧ c.status.isOpen) (WorkflowCommand.close .cancelled) }

def cancelPendingCommands : WorkflowRun :=
  { run with commands := run.commands.updateWhere (·.status = .pending) WorkflowCommand.drop }

/-- `noteInspectionAlive`: the claim is extended and the count of inconclusive looks reset. -/
def noteInspectionAlive (gen : Nat) (next : Millis) (run : WorkflowRun) : WorkflowRun :=
  { run with commands := run.commands.modify key (WorkflowCommand.inspected gen 0 next) }

def noteInspectionInconclusive (gen inconclusive : Nat) (next : Millis) (run : WorkflowRun) :
    WorkflowRun :=
  { run with
    commands := run.commands.modify key (WorkflowCommand.inspected gen inconclusive next) }

/-! ## Deliveries -/

/-- `insertDelivery`: a later acceptance refreshes the obligation and nothing else. -/
def insertDelivery (revision : Nat) (run : WorkflowRun) : WorkflowRun :=
  match run.deliveries.get nodeId with
  | some _ => { run with deliveries := run.deliveries.modify nodeId (DeliveryRow.refresh revision) }
  | none => { run with
    deliveries := run.deliveries.put
      { nodeId, revision, outcome := .pending, attempts := 0, receipt := none } }

def setDeliveryOutcome (outcome : DeliveryOutcome) (receipt : Option String) (run : WorkflowRun) :
    Except WorkflowError WorkflowRun :=
  match run.deliveries.get nodeId with
  | none => .error .deliveryMissing
  | some _ => .ok { run with
      deliveries := run.deliveries.modify nodeId (DeliveryRow.settle outcome receipt) }

def hasPendingDelivery : Bool :=
  run.deliveries.rows.any (·.outcome = .pending)

/-- `bumpDeliveryAttempts`: the number of sends, this one included. -/
def bumpDeliveryAttempts (run : WorkflowRun) : Except WorkflowError (Nat × WorkflowRun) :=
  match run.deliveries.get nodeId with
  | some d =>
    if d.outcome = .pending then
      .ok (d.attempts + 1,
        { run with deliveries := run.deliveries.modify nodeId DeliveryRow.bump })
    else .error .deliveryNotPending
  | none => .error .deliveryNotPending

/-! ## Cancelling the work of a run -/

/-- The statements of `cancelRun` on the rows of the run. -/
def cancelWork : WorkflowRun :=
  { run with
    commands := run.commands.updateWhere (·.status.isOpen) (WorkflowCommand.close .cancelled)
    nodes := run.nodes.updateWhere (·.status.isOpen) (NodeRow.withStatus .cancelled)
    deliveries := run.deliveries.updateWhere (·.outcome = .pending) DeliveryRow.abandon }

end WorkflowRun

/-! ## Statements in sequence -/

section Sequence

variable {β : Type} {b : β}

/-- Where a statement must succeed for the rest to run, both of them have succeeded. -/
theorem ok_of_match {x : Except WorkflowError WorkflowRun}
    {f : WorkflowRun → Except WorkflowError β}
    (h : (match x with | .error e => Except.error e | .ok a => f a) = .ok b) :
    ∃ a, x = .ok a ∧ f a = .ok b := by
  cases x with
  | error e => cases h
  | ok a => exact ⟨a, rfl, h⟩

theorem ok_of_check {x : Except WorkflowError Unit} {y : Except WorkflowError β}
    (h : (match x with | .error e => Except.error e | .ok () => y) = .ok b) :
    x = .ok () ∧ y = .ok b := by
  cases x with
  | error e => cases h
  | ok _ => exact ⟨rfl, h⟩

end Sequence

end Abtars
