import Abtars.Lib.Table

/-!
# The kanban board: rows

The rows of the shared task database that the board and the project roots own:
`kanban_board`, its append-only transition journal, the peer-callback outbox,
and two of the tables a status change consults (`project_supervision` and
`workflow_runs`).  Instants are milliseconds; an SQL `NULL` is `none`.
-/

namespace Abtars

open Lib

abbrev Millis := Int

/-! ## Cards -/

inductive CardStatus
  | queued | running | done | failed | delivering | delivered
  deriving DecidableEq

def CardStatus.text : CardStatus → String
  | .queued => "queued"
  | .running => "running"
  | .done => "done"
  | .failed => "failed"
  | .delivering => "delivering"
  | .delivered => "delivered"

/-- The values the `delivery_result` column's check admits. -/
inductive DeliveryResult
  | sent | definitelyNotSent | unknown
  deriving DecidableEq

/-- The values the `priority` column's check admits. -/
inductive CardPriority
  | critical | high | medium | low
  deriving DecidableEq

/-- A row of `kanban_board`, with the columns the modelled functions touch. -/
structure KanbanCard where
  id : Nat
  title : String
  source : String
  sourceId : Option String
  priority : CardPriority
  status : CardStatus
  type : Option String
  resultSummary : Option String
  resultPath : Option String
  error : Option String
  deliveryAttempts : Option Int
  parentId : Option Nat
  blockedBy : Option String
  createdAt : Millis
  updatedAt : Millis
  completedAt : Option Millis
  deliveredAt : Option Millis
  deliveryMode : Option String
  maxTokens : Option Int
  tokensUsed : Option Int
  deliveryResult : Option DeliveryResult
  deliveryReceipt : Option String
  deliveryReady : Int
  maxAgents : Option Int
  retryCount : Option Int
  nextRetryAt : Option Millis
  deriving DecidableEq

instance : Keyed KanbanCard Nat := ⟨KanbanCard.id⟩

def newCard (id : Nat) (source : String) (type : Option String) (parentId : Option Nat)
    (status : CardStatus) (createdAt : Millis) : KanbanCard where
  id := id
  title := ""
  source := source
  sourceId := none
  priority := .medium
  status := status
  type := type
  resultSummary := none
  resultPath := none
  error := none
  deliveryAttempts := some 0
  parentId := parentId
  blockedBy := none
  createdAt := createdAt
  updatedAt := createdAt
  completedAt := none
  deliveredAt := none
  deliveryMode := some "deliver"
  maxTokens := none
  tokensUsed := some 0
  deliveryResult := none
  deliveryReceipt := none
  deliveryReady := 1
  maxAgents := none
  retryCount := some 0
  nextRetryAt := none

/-! ## The transition journal and the peer-callback outbox -/

inductive TransitionActor
  | dispatch | retryPromotion | retryBackoff | settleDone | settleFailed
  | deliveryClaim | deliverySettle | projectAcceptance | piRunSettle | piRunDispatch
  | piResumeGeneration | piInterrupt | restartRecovery | piOriginProjection
  | budgetEnforcement | staleRepair | retryRequeue | workflowRunner
  deriving DecidableEq

def TransitionActor.text : TransitionActor → String
  | .dispatch => "dispatch"
  | .retryPromotion => "retry_promotion"
  | .retryBackoff => "retry_backoff"
  | .settleDone => "settle_done"
  | .settleFailed => "settle_failed"
  | .deliveryClaim => "delivery_claim"
  | .deliverySettle => "delivery_settle"
  | .projectAcceptance => "project_acceptance"
  | .piRunSettle => "pi_run_settle"
  | .piRunDispatch => "pi_run_dispatch"
  | .piResumeGeneration => "pi_resume_generation"
  | .piInterrupt => "pi_interrupt"
  | .restartRecovery => "restart_recovery"
  | .piOriginProjection => "pi_origin_projection"
  | .budgetEnforcement => "budget_enforcement"
  | .staleRepair => "stale_repair"
  | .retryRequeue => "retry_requeue"
  | .workflowRunner => "workflow-runner"

/-- A row of `kanban_card_transitions`. -/
structure CardTransitionRow where
  id : Nat
  cardId : Nat
  fromStatus : CardStatus
  toStatus : CardStatus
  actor : TransitionActor
  reason : String
  attemptId : Option String
  claimGeneration : Option Int
  at_ : Millis
  deriving DecidableEq

instance : Keyed CardTransitionRow Nat := ⟨CardTransitionRow.id⟩

inductive CallbackStatus
  | done | failed
  deriving DecidableEq

structure CallbackArtifact where
  name : String
  content : String
  deriving DecidableEq

structure PeerCallbackPayload where
  taskId : Nat
  status : CallbackStatus
  resultSummary : Option String
  error : Option String
  tokensUsed : Int
  artifacts : List CallbackArtifact
  deriving DecidableEq

/-- A row of `peer_callback_outbox`. -/
structure PeerCallbackRow where
  id : String
  cardId : Nat
  peer : String
  status : CallbackStatus
  payload : PeerCallbackPayload
  attempts : Nat
  lastError : Option String
  createdAt : Millis
  sentAt : Option Millis

instance : Keyed PeerCallbackRow String := ⟨PeerCallbackRow.id⟩

/-- A row of `pi_runs`. -/
structure PiRunRow where
  id : String
  cardId : Nat

instance : Keyed PiRunRow String := ⟨PiRunRow.id⟩

/-! ## Project roots and runs -/

inductive ProjectState
  | awaitingContract | executing | reviewReady | reviewRequested | reviewing
  | repairPlanned | repairing | needsInput | blocked | accepted
  deriving DecidableEq

def ProjectState.text : ProjectState → String
  | .awaitingContract => "awaiting_contract"
  | .executing => "executing"
  | .reviewReady => "review_ready"
  | .reviewRequested => "review_requested"
  | .reviewing => "reviewing"
  | .repairPlanned => "repair_planned"
  | .repairing => "repairing"
  | .needsInput => "needs_input"
  | .blocked => "blocked"
  | .accepted => "accepted"

/-- A row of `project_supervision`. -/
structure ProjectSupervisionRow where
  projectCardId : Nat
  state : ProjectState
  generation : Int

instance : Keyed ProjectSupervisionRow Nat := ⟨ProjectSupervisionRow.projectCardId⟩

inductive WorkflowState
  | admitted | planning | dispatched | executing | reviewing | repairing
  | awaitingInput | delivering | succeeded | failed | cancelled
  deriving DecidableEq

/-- A row of `workflow_runs`. -/
structure WorkflowRunRow where
  runId : String
  rootCardId : Nat
  scheduledRunId : Option String
  state : WorkflowState

instance : Keyed WorkflowRunRow String := ⟨WorkflowRunRow.runId⟩

end Abtars
