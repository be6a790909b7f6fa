import Abtars.Board.Card

/-!
# Scheduled tasks: rows

The rows of the shared task database that the scheduler owns: the live and
finished occurrences of `task_runs`, the schedule and failure counters of
`task_state`, and the terminal events of `task_run_history`.
-/

namespace Abtars

open Lib

/-! ## Runs -/

inductive TaskRunPhase
  | reserved | preflight | queued | executing | cancelling | validating | settling
  | deliveryPending
  deriving DecidableEq

/-- Nothing advances past `cancelling`, whatever its rank. -/
def TaskRunPhase.rank : TaskRunPhase → Nat
  | .reserved => 0
  | .preflight => 1
  | .queued => 2
  | .executing => 3
  | .cancelling => 4
  | .validating => 5
  | .settling => 6
  | .deliveryPending => 7

inductive RunTrigger
  | schedule | manual | retry
  deriving DecidableEq

inductive TerminalRequestKind
  | cancelled | deadlineExceeded
  deriving DecidableEq

structure RunTerminalRequest where
  kind : TerminalRequestKind
  requestedAt : Millis
  reason : String
  deriving DecidableEq

inductive TaskOutcome
  | success | failed | noop | deferred | skipped | cancelled | definitionFailed | timedOut
  | unknown
  deriving DecidableEq

def TaskOutcome.text : TaskOutcome → String
  | .success => "success"
  | .failed => "failed"
  | .noop => "noop"
  | .deferred => "deferred"
  | .skipped => "skipped"
  | .cancelled => "cancelled"
  | .definitionFailed => "definition_failed"
  | .timedOut => "timed_out"
  | .unknown => "unknown"

/-- A row of `task_runs`. -/
structure TaskRunRow where
  runId : String
  taskId : String
  groupId : String
  attempt : Nat
  trigger : RunTrigger
  occurrenceAt : Millis
  reservedAt : Millis
  deadlineAt : Millis
  phase : TaskRunPhase
  lastProgressAt : Millis
  progressSequence : Nat
  cardId : Option Nat
  sessionId : Option String
  executionId : Option String
  terminalRequest : Option RunTerminalRequest
  finishedAt : Option Millis
  outcome : Option String
  deriving DecidableEq

instance : Keyed TaskRunRow String := ⟨TaskRunRow.runId⟩

@[simp]
theorem key_taskRunRow (run : TaskRunRow) : Keyed.key run = run.runId := rfl

def reservedRun (runId taskId groupId : String) (attempt : Nat) (trigger : RunTrigger)
    (occurrenceAt reservedAt deadlineAt : Millis) : TaskRunRow where
  runId := runId
  taskId := taskId
  groupId := groupId
  attempt := attempt
  trigger := trigger
  occurrenceAt := occurrenceAt
  reservedAt := reservedAt
  deadlineAt := deadlineAt
  phase := .reserved
  lastProgressAt := reservedAt
  progressSequence := 0
  cardId := none
  sessionId := none
  executionId := none
  terminalRequest := none
  finishedAt := none
  outcome := none

/-! ## Failures -/

inductive TaskFailureCategory
  | definition | routing | admission | dependency | execution | validation | interruption
  | delivery | supervision
  deriving DecidableEq

def TaskFailureCategory.text : TaskFailureCategory → String
  | .definition => "definition"
  | .routing => "routing"
  | .admission => "admission"
  | .dependency => "dependency"
  | .execution => "execution"
  | .validation => "validation"
  | .interruption => "interruption"
  | .delivery => "delivery"
  | .supervision => "supervision"

inductive TaskFailureRetryability
  | permanent | transient | none_
  deriving DecidableEq

inductive FailurePhase
  | run (phase : TaskRunPhase)
  | delivery

structure TaskFailureDiagnostic where
  category : TaskFailureCategory
  code : String
  phase : FailurePhase
  message : String
  retryability : TaskFailureRetryability
  occurredAt : Millis

structure DeferredAdmission where
  groupId : String
  occurrenceAt : Millis
  deadlineAt : Millis
  attempts : Nat
  retryAt : Millis
  diagnostic : TaskFailureDiagnostic

/-! ## Task state and history -/

/-- A row of `task_state`. -/
structure TaskStateRow where
  taskId : String
  nextRunAt : Option Millis
  lastFinishedAt : Option Millis
  retryAt : Option Millis
  retrying : Bool
  completed : Bool
  retryGroupId : Option String
  retryAttempt : Option Nat
  consecutiveFailures : Nat
  consecutiveDeferrals : Nat
  autoPaused : Bool
  pausedAt : Option Millis
  autoResumeCount : Nat
  priorFailure : Option String
  lastIncident : Option TaskFailureDiagnostic
  deferredAdmission : Option DeferredAdmission

instance : Keyed TaskStateRow String := ⟨TaskStateRow.taskId⟩

/-- The row `ensureTaskRow` inserts. -/
def defaultTaskState (taskId : String) : TaskStateRow where
  taskId := taskId
  nextRunAt := none
  lastFinishedAt := none
  retryAt := none
  retrying := false
  completed := false
  retryGroupId := none
  retryAttempt := none
  consecutiveFailures := 0
  consecutiveDeferrals := 0
  autoPaused := false
  pausedAt := none
  autoResumeCount := 0
  priorFailure := none
  lastIncident := none
  deferredAdmission := none

inductive TaskKind
  | reminder | system | script | agent
  deriving DecidableEq

/-- A row of `task_run_history`. -/
structure TaskRunEvent where
  runId : String
  taskId : String
  kind : TaskKind
  trigger : RunTrigger
  startedAt : Millis
  finishedAt : Millis
  outcome : TaskOutcome
  detail : Option String
  deliveryText : Option String
  resultPath : Option String
  kanbanCardId : Option Nat
  groupId : Option String
  diagnostic : Option TaskFailureDiagnostic

instance : Keyed TaskRunEvent String := ⟨TaskRunEvent.runId⟩

@[simp]
theorem key_taskRunEvent (event : TaskRunEvent) : Keyed.key event = event.runId := rfl

end Abtars
