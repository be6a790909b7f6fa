import Abtars.Database
import Abtars.Lib.CompareAndSet
import Abtars.Lib.Run

/-!
# Writers of a scheduled run

Four calls write the row of a live run: `advanceRun` moves its phase and its
progress, `requestRunTerminal` records a terminal request, `updateActiveRun`
patches its attachments, and `settleActiveRun` finishes it.  Each is one
conditional update.  The first two read the row before they write it, and other
writers may come between: their write is modelled for any earlier read, and the
call itself is the write for the read of the current row.

The invariant relates two columns: a run is in phase `cancelling` exactly when a
terminal request is recorded.  `requestRunTerminal` writes both together; an
advance that names the phase, and a patch that names the request, write one of
them.
-/

namespace Abtars

open Lib

/-! ## The writers -/

structure RunAttachments where
  cardId : Option Nat
  sessionId : Option String
  executionId : Option String
  deriving DecidableEq

def RunAttachments.none_ : RunAttachments := ⟨none, none, none⟩

def RunAttachments.merge (attachments : RunAttachments) (run : TaskRunRow) : TaskRunRow :=
  { run with
    cardId := attachments.cardId.orElse fun _ => run.cardId
    sessionId := attachments.sessionId.orElse fun _ => run.sessionId
    executionId := attachments.executionId.orElse fun _ => run.executionId }

structure ActiveRunPatch where
  attachments : RunAttachments
  terminalRequest : Option RunTerminalRequest

structure RunUpdate where
  phase : Option TaskRunPhase
  progressAt : Option Millis
  attachments : RunAttachments

variable (taskId : String)

def TaskRunRow.isLive (run : TaskRunRow) : Bool :=
  run.taskId = taskId ∧ run.finishedAt = none

def patchRun (patch : ActiveRunPatch) (run : TaskRunRow) : TaskRunRow :=
  { patch.attachments.merge run with
    terminalRequest := patch.terminalRequest.orElse fun _ => run.terminalRequest }

variable (runId : String)

def updateActiveRun (patch : ActiveRunPatch) (db : Db) : Bool × Db :=
  if patch.attachments = .none_ ∧ patch.terminalRequest = none then (false, db)
  else
    let (won, runs) := db.taskRuns.cas runId (·.isLive taskId) (patchRun patch)
    (won, { db with taskRuns := runs })

inductive AdvanceRunResult
  | advanced | stale | regression

/-- A phase is never left for one of lower rank, and `cancelling` for none. -/
def advanceRefused (observed : TaskRunPhase) (update : RunUpdate) : Bool :=
  match update.phase with
  | none => false
  | some phase => phase ≠ observed ∧ (observed = .cancelling ∨ phase.rank < observed.rank)

variable (update : RunUpdate)

def progressRun (run : TaskRunRow) : TaskRunRow :=
  let advanced := update.attachments.merge { run with phase := update.phase.getD run.phase }
  match update.progressAt with
  | none => advanced
  | some at_ =>
    { advanced with
      lastProgressAt := max run.lastProgressAt (max 0 at_)
      progressSequence := run.progressSequence + if max 0 at_ > run.lastProgressAt then 1 else 0 }

@[simp]
theorem progressRun_runId (run : TaskRunRow) : (progressRun update run).runId = run.runId := by
  unfold progressRun
  cases update.progressAt <;> rfl

def advanceRunFrom (observed : TaskRunPhase) (db : Db) : AdvanceRunResult × Db :=
  if advanceRefused observed update then (.regression, db)
  else if update.phase = none ∧ update.progressAt = none ∧ update.attachments = .none_ then
    (.advanced, db)
  else
    let (won, runs) := db.taskRuns.cas runId (fun run => run.isLive taskId ∧ run.phase = observed)
      (progressRun update) (progressRun_runId update)
    (if won then .advanced else .stale, { db with taskRuns := runs })

def advanceRun (db : Db) : AdvanceRunResult × Db :=
  match db.taskRuns.get runId with
  | none => (.stale, db)
  | some run =>
    if run.finishedAt = none then advanceRunFrom taskId runId update run.phase db
    else (.stale, db)

inductive TerminalRequestResult
  | requested | alreadyRequested | stale

def alreadyOrStale (db : Db) (runId : String) : TerminalRequestResult :=
  match db.taskRuns.get runId with
  | none => .stale
  | some run =>
    if run.finishedAt = none ∧ run.terminalRequest.isSome then .alreadyRequested else .stale

/-- May the request be written over the one that was read?  Cancellation wins
over a deadline, nothing replaces a cancellation. -/
def requestRefused (observed : Option RunTerminalRequest) (request : RunTerminalRequest) : Bool :=
  match observed with
  | none => false
  | some current => current.kind = .cancelled ∨ request.kind ≠ .cancelled

variable (request : RunTerminalRequest)

def requestRun (run : TaskRunRow) : TaskRunRow :=
  { run with terminalRequest := some request, phase := .cancelling }

def requestRunTerminalFrom (observed : Option RunTerminalRequest) (db : Db) :
    TerminalRequestResult × Db :=
  if requestRefused observed request then (.alreadyRequested, db)
  else
    let (won, runs) := db.taskRuns.cas runId
      (fun run => run.isLive taskId ∧ run.terminalRequest = observed) (requestRun request)
    if won then (.requested, { db with taskRuns := runs }) else (alreadyOrStale db runId, db)

def requestRunTerminal (db : Db) : TerminalRequestResult × Db :=
  match db.taskRuns.get runId with
  | none => (.stale, db)
  | some run =>
    if run.isLive taskId then requestRunTerminalFrom taskId runId request run.terminalRequest db
    else (.stale, db)

/-- The task state columns a settlement writes: a present value is written, `NULL`
included, an absent one leaves its column. -/
structure TaskStatePatch where
  nextRunAt : Option (Option Millis)
  lastFinishedAt : Option (Option Millis)
  retryAt : Option (Option Millis)
  retrying : Option Bool
  completed : Option Bool
  retryGroupId : Option (Option String)
  retryAttempt : Option (Option Nat)
  consecutiveFailures : Option Nat
  consecutiveDeferrals : Option Nat
  autoPaused : Option Bool
  pausedAt : Option (Option Millis)
  autoResumeCount : Option Nat
  priorFailure : Option (Option String)
  lastIncident : Option (Option TaskFailureDiagnostic)
  deferredAdmission : Option (Option DeferredAdmission)

def TaskStatePatch.empty : TaskStatePatch where
  nextRunAt := none
  lastFinishedAt := none
  retryAt := none
  retrying := none
  completed := none
  retryGroupId := none
  retryAttempt := none
  consecutiveFailures := none
  consecutiveDeferrals := none
  autoPaused := none
  pausedAt := none
  autoResumeCount := none
  priorFailure := none
  lastIncident := none
  deferredAdmission := none

/-- `statePatchColumns`, applied. -/
def TaskStatePatch.apply (patch : TaskStatePatch) (state : TaskStateRow) : TaskStateRow where
  taskId := state.taskId
  nextRunAt := patch.nextRunAt.getD state.nextRunAt
  lastFinishedAt := patch.lastFinishedAt.getD state.lastFinishedAt
  retryAt := patch.retryAt.getD state.retryAt
  retrying := patch.retrying.getD state.retrying
  completed := patch.completed.getD state.completed
  retryGroupId := patch.retryGroupId.getD state.retryGroupId
  retryAttempt := patch.retryAttempt.getD state.retryAttempt
  consecutiveFailures := patch.consecutiveFailures.getD state.consecutiveFailures
  consecutiveDeferrals := patch.consecutiveDeferrals.getD state.consecutiveDeferrals
  autoPaused := patch.autoPaused.getD state.autoPaused
  pausedAt := patch.pausedAt.getD state.pausedAt
  autoResumeCount := patch.autoResumeCount.getD state.autoResumeCount
  priorFailure := patch.priorFailure.getD state.priorFailure
  lastIncident := patch.lastIncident.getD state.lastIncident
  deferredAdmission := patch.deferredAdmission.getD state.deferredAdmission

theorem TaskStatePatch.key_apply (patch : TaskStatePatch) (state : TaskStateRow) :
    Keyed.key (patch.apply state) = Keyed.key state := rfl

def patchTaskState (patch : TaskStatePatch) (states : Table TaskStateRow) : Table TaskStateRow :=
  (states.insertOrIgnore (fun _ => false) (defaultTaskState taskId)).modify taskId patch.apply

def finishRun (now : Millis) (run : TaskRunRow) : TaskRunRow :=
  { run with finishedAt := some now }

def settleActiveRun (now : Millis) (taskId runId : String) (patch : TaskStatePatch) (db : Db) :
    Bool × Db :=
  let (won, runs) := db.taskRuns.cas runId (fun run => run.finishedAt = none) (finishRun now)
  if won then
    (true, { db with taskRuns := runs, taskState := patchTaskState taskId patch db.taskState })
  else (false, db)

section Settle

variable (now : Millis) (taskId runId : String) (patch : TaskStatePatch) (db : Db)

theorem key_finishRun (run : TaskRunRow) : Keyed.key (finishRun now run) = Keyed.key run := rfl

def finishedUnder : Db :=
  { db with
    taskRuns := db.taskRuns.modify runId (finishRun now) (key_finishRun now)
    taskState := patchTaskState taskId patch db.taskState }

/-- A settlement is lost because the run is not open, or finishes the open run. -/
theorem settleActiveRun_cases :
    (∀ run, db.taskRuns.get runId = some run → run.finishedAt ≠ none) ∧
      settleActiveRun now taskId runId patch db = (false, db) ∨
    ∃ run, db.taskRuns.get runId = some run ∧ run.finishedAt = none ∧
      settleActiveRun now taskId runId patch db =
        (true, finishedUnder now taskId runId patch db) := by
  rcases Table.cas_cases db.taskRuns runId (fun run => run.finishedAt = none) (finishRun now)
    (key_finishRun now) with ⟨hclosed, hcas⟩ | ⟨run, hget, hopen, hcas⟩
  · left
    constructor
    · intro run hget
      simpa using hclosed run hget
    · simp [settleActiveRun, hcas]
  · right
    refine ⟨run, hget, by simpa using hopen, ?_⟩
    simp [settleActiveRun, hcas, finishedUnder]

variable {now taskId runId patch db}

theorem get_finishedUnder {run : TaskRunRow} (hget : db.taskRuns.get runId = some run) :
    (finishedUnder now taskId runId patch db).taskRuns.get runId = some (finishRun now run) := by
  show (db.taskRuns.modify runId (finishRun now) (key_finishRun now)).get runId = _
  rw [Table.get_modify_same, hget, Option.map_some]

theorem get_finishedUnder_of_ne {other : String} (hne : other ≠ runId) :
    (finishedUnder now taskId runId patch db).taskRuns.get other = db.taskRuns.get other :=
  Table.get_modify_of_ne _ _ (key_finishRun now) hne

end Settle

end Abtars
