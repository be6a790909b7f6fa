import Abtars.Lib.Paging
import Abtars.Workflow.Frames

/-!
# The workflow store as a whole

The store holds the rows of all workflow runs and the ingress, one row for each event.  An
operation of the runner works on the view of one run.  The audit reads the nonterminal runs in
pages of their root cards.
-/

namespace Abtars

open Lib

/-! ## Rows -/

/-- The id of an event: what it is derived from, or the random text it was given. -/
inductive EventId
  | admission (clientOperationId : String)
  | attempt (attemptId : String) (lifecycle : AttemptLifecycle)
  | inspect (token gen : Nat)
  | modelUnobserved (token : Nat)
  | restartInterrupt (runId : String)
  | given (text : String)
  deriving DecidableEq

inductive IngressPayload
  | admission (rootKind : RootKind) (rootCardId : Nat) (scheduledRunId : Option String)
      (budgets : ResolvedBudgets)
  | attemptSucceeded (nodeId : NodeId) (attemptId artifactsJson : String)
  | attemptFailed (nodeId : NodeId) (attemptId cause : String) (retrySafe : Bool)
  | claimExpired (key : CommandKey) (expectedGen : Nat)
  | shaHandoff (final : Bool)
  | other (json : String)

inductive IngressDisposition
  | received | applied | noop
  deriving DecidableEq

/-- A row of `workflow_ingress`. -/
structure IngressRow where
  eventId : EventId
  runId : String
  payloadHash : String
  payload : IngressPayload
  disposition : IngressDisposition

instance : Keyed IngressRow EventId := ⟨IngressRow.eventId⟩

/-- The tables of the workflow store with what they share the database with; `minted` counts
the random ids handed out. -/
structure WorkflowLedger where
  runs : Table WorkflowRun
  ingress : Table IngressRow
  inputs : Table InputRequest
  db : Db
  minted : Nat

namespace WorkflowLedger

def initial (db : Db) : WorkflowLedger where
  runs := ∅
  ingress := ∅
  inputs := ∅
  db := db
  minted := 0

def view (run : WorkflowRun) (s : WorkflowLedger) : RunView := ⟨run, s.inputs, s.db, s.minted⟩

def writeBack (v : RunView) (s : WorkflowLedger) : WorkflowLedger :=
  { s with runs := s.runs.put v.run, inputs := v.inputs, db := v.db, minted := v.minted }

def getRun (s : WorkflowLedger) (runId : String) : Option WorkflowRun := s.runs.get runId

/-! ## The audit -/

structure RunProbe where
  pending : Bool
  freshClaim : Bool
  dueClaim : Bool
  liveAttempt : Bool
  pendingInput : Bool
  openOp : Bool
  pendingDelivery : Bool

variable (now : Millis)

def probeRun (v : RunView) : RunProbe where
  pending := v.run.commands.rows.any (·.status = .pending)
  freshClaim := v.run.commands.rows.any fun c =>
    c.status = .claimed ∧ c.nextInspectionAt.any (now < ·)
  dueClaim := v.run.commands.rows.any fun c =>
    c.status = .claimed ∧ c.nextInspectionAt.any (· ≤ now)
  liveAttempt := v.db.workerAttempts.rows.any fun a =>
    a.rootProjectCardId = some v.run.rootCardId ∧
      (a.lifecycle = .pending ∨ a.lifecycle.isActive)
  pendingInput := v.inputs.rows.any fun q =>
    q.projectCardId = v.run.rootCardId ∧ q.status = .pending
  openOp := v.run.operations.rows.any (·.status.isOpen)
  pendingDelivery := v.run.hasPendingDelivery

/-- `dueInspections`: the claims to look at, the longest due first. -/
def dueInspections (limit : Nat) (run : WorkflowRun) : List (Option Nat × Nat) :=
  let due := run.commands.select fun c =>
    c.status = .claimed ∧ c.nextInspectionAt.any (· ≤ now)
  ((due.insertionSort fun c d => c.nextInspectionAt.getD 0 ≤ d.nextInspectionAt.getD 0).take
    limit).map fun c => (c.claimToken, c.inspectGen)

/-- `listAuditRoots`: the nonterminal runs of the cards after the cursor. -/
def listAuditRoots (cursor limit : Nat) (s : WorkflowLedger) : List WorkflowRun :=
  page (fun run => run.rootCardId) (s.runs.select fun run => ¬ run.state.isTerminal) limit cursor

structure AuditReport where
  nextCursor : Nat
  checked : Nat
  lawful : List String
  ownerless : List String
  dueInspections : List (String × Option Nat × Nat)

/-- Does the audit find the run in somebody's hands?  One that waits for its first plan is. -/
def isLawful (s : WorkflowLedger) (run : WorkflowRun) : Bool :=
  let p := probeRun now (s.view run)
  run.state = .admitted ∨ run.state = .planning ∨ p.pending ∨ p.freshClaim ∨ p.liveAttempt ∨
    p.pendingInput ∨ p.openOp ∨ p.pendingDelivery ∨ p.dueClaim

def auditTick (cursor : Nat) (s : WorkflowLedger) : AuditReport :=
  let roots := s.listAuditRoots cursor 100
  -- the cursor wraps once per call
  let wrapped := roots = [] ∧ 0 < cursor
  let start := if wrapped then 0 else cursor
  let roots := if wrapped then s.listAuditRoots 0 100 else roots
  { nextCursor := advance (fun run => run.rootCardId) start roots
    checked := roots.length
    lawful := (roots.filter (s.isLawful now)).map (·.runId)
    ownerless := (roots.filter fun run => ¬ s.isLawful now run).map (·.runId)
    dueInspections := (roots.filter fun run => (probeRun now (s.view run)).dueClaim).flatMap
      fun run => (dueInspections now 10 run).map fun due => (run.runId, due) }

def AuditReport.runs (report : AuditReport) : List String := report.lawful ++ report.ownerless

def auditCursor (clock : Nat → Millis) (cursor : Nat) (s : WorkflowLedger) : Nat → Nat
  | 0 => cursor
  | n + 1 => (s.auditTick (clock n) (s.auditCursor clock cursor n)).nextCursor

end WorkflowLedger

end Abtars
