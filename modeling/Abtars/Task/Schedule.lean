import Mathlib.Algebra.Order.Ring.Unbundled.Rat
import Abtars.Task.Crash

/-!
# Admission of scheduled runs

On every heartbeat `checkCron` decides for each task whether an occurrence is due and
reserves a run for it: a deferred occurrence is resumed with its own group and
deadline, a pending retry stays in its group with attempt two, and anything else is a
fresh occurrence.  A paused task is resumed after its cooldown instead.  Manual runs
are reserved by the queue.

`task_runs` admits one live run a task; `reserveRun` is refused otherwise.
-/

namespace Abtars

open Lib

structure CronEntry extends ScheduledTask where
  enabled : Bool
  maxRunsPerDay : Option Int
  catchUpHours : Option Rat

/-- What the checker is told by the host beside a settlement: the run ceiling and the
local start of a day. -/
structure CronHost extends SettlerHost where
  runCeilingMs : Int
  dayStart : Millis → Millis

def autoResumeCooldownMs : Int := 12 * 60 * 60 * 1000
def maxAutoResumesPerEpisode : Nat := 3
def minStaleMs : Int := 5 * 60 * 1000

/-! ## Reservations -/

def ensureTaskRow (taskId : String) (db : Db) : Db :=
  { db with
    taskState := db.taskState.insertOrIgnore (fun _ => false) (defaultTaskState taskId) }

/-- `reserveRun`: the run is inserted unless its task has a live one. -/
def reserveRun (run : TaskRunRow) (db : Db) : Option Db :=
  (db.taskRuns.insert (·.isLive run.taskId) run).map fun runs =>
    ensureTaskRow run.taskId { db with taskRuns := runs }

def freshGroup (taskId : String) (now : Millis) : String :=
  taskId ++ ":group:" ++ toString now

variable (host : CronHost) (now : Millis)

def cronReservation (runId : String) (entry : CronEntry) (state : TaskStateRow) : TaskRunRow :=
  let deferred := state.deferredAdmission
  let retrying := state.retrying ∧ state.retryAttempt = some 1
  reservedRun runId entry.id
    ((deferred.map (·.groupId)).getD
      ((if retrying then state.retryGroupId else none).getD (freshGroup entry.id now)))
    (if retrying then 2 else 1) (if retrying then .retry else .schedule)
    ((deferred.map (·.occurrenceAt)).getD now) now
    ((deferred.map (·.deadlineAt)).getD (now + host.runCeilingMs))

/-- `reserveForEntry`, for a manual run. -/
def manualReservation (runId : String) (entry : CronEntry) : TaskRunRow :=
  reservedRun runId entry.id (freshGroup entry.id now) 1 .manual now now
    (now + host.runCeilingMs)

/-! ## The schedule -/

/-- `updateState` without an active run. -/
def updateState (taskId : String) (patch : TaskStatePatch) (db : Db) : Db :=
  { db with taskState := patchTaskState taskId patch db.taskState }

variable (entry : CronEntry)

/-- `advanceNextRun`: on to the next occurrence; a task without a schedule is done. -/
def advanceNextRun (db : Db) : Db :=
  match nonEmpty entry.schedule with
  | none => updateState entry.id { TaskStatePatch.empty with completed := some true } db
  | some schedule =>
    match host.nextOccurrence schedule now with
    | none => db
    | some next =>
      updateState entry.id
        { TaskStatePatch.empty with nextRunAt := some (some next), completed := some false } db

def todaySuccessCount (taskId : String) (db : Db) : Nat :=
  (db.taskRunHistory.select fun event =>
    event.taskId = taskId ∧ event.outcome = .success ∧ host.dayStart now ≤ event.finishedAt).length

def dailyCapReached (db : Db) : Bool :=
  match entry.maxRunsPerDay with
  | none => false
  | some cap => cap ≠ 0 ∧ cap ≤ (todaySuccessCount host now entry.id db : Int)

def isStale (state : TaskStateRow) : Bool :=
  match state.deferredAdmission, nonEmpty entry.schedule, state.nextRunAt with
  | none, some _, some nextRunAt =>
    nextRunAt ≠ 0 ∧
      max (entry.catchUpHours.getD 0 * (3600 * 1000)) (minStaleMs : Rat) <
        ((now - nextRunAt : Int) : Rat)
  | _, _, _ => false

inductive ScheduleReason
  | activeRun | due | notDue | disabled | autoPaused | noState | completed | dailyCap
  | staleAdvanced
  deriving DecidableEq

/-- `decideSchedule`, without the advance two of its answers come with. -/
def scheduleReason (db : Db) : ScheduleReason :=
  if entry.enabled = false then .disabled
  else
    match readState db entry.id with
    | none => .noState
    | some (state, active) =>
      if state.autoPaused then .autoPaused
      else if state.completed then .completed
      else if active.isSome then .activeRun
      else if state.nextRunAt.any fun at_ => at_ ≠ 0 ∧ now < at_ then .notDue
      else if dailyCapReached host now entry db then .dailyCap
      else if isStale now entry state then .staleAdvanced
      else .due

def ScheduleReason.skips : ScheduleReason → Bool
  | .dailyCap | .staleAdvanced => true
  | _ => false

/-! ## Pause and resume -/

def pausePatch : TaskStatePatch :=
  { TaskStatePatch.empty with autoPaused := some true, pausedAt := some (some now) }

/-- `setAutoPaused`, to paused. -/
def pauseTask (taskId : String) (db : Db) : Db :=
  { db with
    taskState := db.taskState.modify taskId (pausePatch now).apply (pausePatch now).key_apply }

def clearedPatch : TaskStatePatch :=
  { TaskStatePatch.empty with
    autoPaused := some false
    pausedAt := some none
    consecutiveFailures := some 0
    consecutiveDeferrals := some 0
    retrying := some false
    retryAt := some none
    retryGroupId := some none
    retryAttempt := some none
    priorFailure := some none
    deferredAdmission := some none }

def resumePatch : TaskStatePatch :=
  withNextRun host.toSettlerHost now entry.toScheduledTask clearedPatch

/-- `resumeAutoPaused`: the operator's resume of a paused task without a live run. -/
def resumeAutoPaused (db : Db) : Db :=
  match readState db entry.id with
  | some (state, none) =>
    if state.autoPaused then
      { db with
        taskState := db.taskState.modify entry.id (resumePatch host now entry).apply
          (resumePatch host now entry).key_apply }
    else db
  | _ => db

/-- The patch of `claimAutoResume`: the next occurrence is written also when there is
none, and the episode count goes up. -/
def autoResumePatch (state : TaskStateRow) : TaskStatePatch :=
  { clearedPatch with
    nextRunAt := some ((nonEmpty entry.schedule).bind fun schedule =>
      host.nextOccurrence schedule now)
    completed := some (nonEmpty entry.schedule).isNone
    autoResumeCount := some (state.autoResumeCount + 1) }

/-- `autoResumeIfDue`: the resume of a task whose pause has lasted its cooldown. -/
def autoResumeIfDue (db : Db) : Db :=
  match readState db entry.id with
  | some (state, none) =>
    -- a pause without a timestamp never equals the one observed
    if state.autoPaused ∧ state.pausedAt.any (· + autoResumeCooldownMs ≤ now) ∧
        state.autoResumeCount < maxAutoResumesPerEpisode then
      { db with
        taskState := db.taskState.modify entry.id (autoResumePatch host now entry state).apply
          (autoResumePatch host now entry state).key_apply }
    else db
  | _ => db

/-! ## The checker -/

def reminderSettle (run : TaskRunRow) : SettleOptions where
  entry := entry.toScheduledTask
  run := run
  outcome := .success
  diagnostic := none
  detail := none
  deliveryText := none
  resultPath := none
  cardId := none
  retryAt := none
  releaseDelivery := false
  attachResult := false
  factAt := none

/-- The run `checkCron` reserves for the task, and the state it is reserved in. -/
def cronReserved (runId : String) (entry : CronEntry) (db : Db) : Option (TaskRunRow × Db) :=
  if scheduleReason host now entry db = .due then
    (db.taskState.get entry.id).bind fun state =>
      (reserveRun (cronReservation host now runId entry state) db).map fun reserved =>
        (cronReservation host now runId entry state, reserved)
  else none

/-- `checkCron` on one task, for the run id drawn. -/
def checkCron (runId : String) (entry : CronEntry) (db : Db) : Db :=
  match scheduleReason host now entry db with
  | .due =>
    match cronReserved host now runId entry db with
    | none => db
    | some (run, reserved) =>
      if entry.kind = .reminder then
        (settleRunOnce host.toSettlerHost now (reminderSettle entry run) reserved).2
      else reserved
  | .dailyCap | .staleAdvanced => advanceNextRun host now entry db
  | .autoPaused => autoResumeIfDue host now entry db
  | _ => db

/-- `reserveForEntry` for a manual run. -/
def reserveManually (runId : String) (entry : CronEntry) (db : Db) : Option (TaskRunRow × Db) :=
  (reserveRun (manualReservation host now runId entry) db).map fun reserved =>
    (manualReservation host now runId entry, reserved)

section Spec

variable {run : TaskRunRow} {db db' : Db} {taskId : String}

theorem activeRun_of_mem (hmem : run ∈ db.taskRuns) (hlive : run.isLive taskId = true) :
    ∃ active, activeRun db taskId = some active := by
  have hsome : (activeRun db taskId).isSome = true :=
    List.find?_isSome.2 ⟨run, hmem, hlive⟩
  exact Option.isSome_iff_exists.1 hsome

theorem reserveRun_spec (taskId : String) (h : reserveRun run db = some db') :
    (∀ row ∈ db.taskRuns, row.isLive run.taskId = false) ∧
      (∀ row, row ∈ db'.taskRuns ↔ row ∈ db.taskRuns ∨ row = run) ∧
      db'.taskRunHistory = db.taskRunHistory ∧
      ∀ state, db.taskState.get taskId = some state → db'.taskState.get taskId = some state := by
  obtain ⟨runs, hinsert, rfl⟩ := Option.map_eq_some_iff.1 h
  obtain ⟨-, hclash, -⟩ := Table.insert_eq_some_iff.1 hinsert
  refine ⟨hclash, fun row => Table.mem_insert hinsert, rfl, fun state hstate => ?_⟩
  exact Table.get_insertOrIgnore_of_some hstate

variable (host : CronHost) (now : Millis) (entry : CronEntry)

theorem advanceNextRun_frame (db : Db) :
    (advanceNextRun host now entry db).taskRuns = db.taskRuns ∧
      (advanceNextRun host now entry db).taskRunHistory = db.taskRunHistory := by
  unfold advanceNextRun
  split
  · exact ⟨rfl, rfl⟩
  · split <;> exact ⟨rfl, rfl⟩

theorem advanceNextRun_state {state : TaskStateRow} (hget : db.taskState.get entry.id = some state) :
    ∃ state', (advanceNextRun host now entry db).taskState.get entry.id = some state' ∧
      state'.retrying = state.retrying ∧ state'.retryGroupId = state.retryGroupId ∧
      state'.retryAttempt = state.retryAttempt ∧
      state'.deferredAdmission = state.deferredAdmission := by
  unfold advanceNextRun
  split
  · exact ⟨_, get_patchTaskState hget, rfl, rfl, rfl, rfl⟩
  · split
    · exact ⟨state, hget, rfl, rfl, rfl, rfl⟩
    · exact ⟨_, get_patchTaskState hget, rfl, rfl, rfl, rfl⟩

theorem autoResumeIfDue_cases (db : Db) :
    autoResumeIfDue host now entry db = db ∨
      activeRun db entry.id = none ∧ ∃ state',
        (autoResumeIfDue host now entry db).taskState.get entry.id = some state' ∧
        state'.retrying = false ∧ state'.deferredAdmission = none := by
  unfold autoResumeIfDue
  split
  · rename_i state hread
    split
    · right
      obtain ⟨row, hrow, hpair⟩ := Option.map_eq_some_iff.1 hread
      obtain ⟨rfl, hactive⟩ := Prod.mk.inj hpair
      refine ⟨hactive, (autoResumePatch host now entry row).apply row, ?_, rfl, rfl⟩
      rw [Table.get_modify_same, hrow, Option.map_some]
    · exact .inl rfl
  · exact .inl rfl

theorem readState_of_reason {host : CronHost} {now : Millis} {entry : CronEntry}
    (h : scheduleReason host now entry db = .due ∨
      (scheduleReason host now entry db).skips = true) :
    ∃ state, readState db entry.id = some (state, none) := by
  unfold scheduleReason at h
  split at h
  · simp [ScheduleReason.skips] at h
  split at h
  · simp [ScheduleReason.skips] at h
  rename_i state active hread
  split at h
  · simp [ScheduleReason.skips] at h
  split at h
  · simp [ScheduleReason.skips] at h
  split at h
  · simp [ScheduleReason.skips] at h
  · rename_i hidle
    have hnone : active = none := by simpa using hidle
    exact ⟨state, by rw [hread, hnone]⟩

theorem autoResumeIfDue_frame (db : Db) :
    (autoResumeIfDue host now entry db).taskRuns = db.taskRuns ∧
      (autoResumeIfDue host now entry db).taskRunHistory = db.taskRunHistory := by
  unfold autoResumeIfDue
  split
  · split <;> exact ⟨rfl, rfl⟩
  · exact ⟨rfl, rfl⟩

/-- The outcomes of one check: nothing, a reservation, a skipped occurrence or a resume. -/
theorem checkCron_cases (runId : String) (entry : CronEntry) (db : Db) :
    checkCron host now runId entry db = db ∨
    (∃ state reserved, readState db entry.id = some (state, none) ∧
      reserveRun (cronReservation host now runId entry state) db = some reserved ∧
      cronReserved host now runId entry db =
        some (cronReservation host now runId entry state, reserved) ∧
      (checkCron host now runId entry db = reserved ∨
        checkCron host now runId entry db = (settleRunOnce host.toSettlerHost now
          (reminderSettle entry (cronReservation host now runId entry state)) reserved).2)) ∨
    (∃ state, readState db entry.id = some (state, none) ∧
      (scheduleReason host now entry db).skips = true ∧
      checkCron host now runId entry db = advanceNextRun host now entry db) ∨
    checkCron host now runId entry db = autoResumeIfDue host now entry db := by
  unfold checkCron
  cases hreason : scheduleReason host now entry db with
  | due =>
    obtain ⟨state, hread⟩ := readState_of_reason (.inl hreason)
    obtain ⟨row, hrow, hpair⟩ := Option.map_eq_some_iff.1 hread
    obtain ⟨rfl, -⟩ := Prod.mk.inj hpair
    have hreserved : cronReserved host now runId entry db =
        (reserveRun (cronReservation host now runId entry row) db).map fun reserved =>
          (cronReservation host now runId entry row, reserved) := by
      rw [cronReserved, if_pos hreason, hrow, Option.bind_some]
    rw [hreserved]
    cases hrun : reserveRun (cronReservation host now runId entry row) db with
    | none => exact .inl rfl
    | some reserved =>
      refine .inr (.inl ⟨row, reserved, hread, hrun, rfl, ?_⟩)
      dsimp only [Option.map_some]
      split
      · exact .inr rfl
      · exact .inl rfl
  | dailyCap =>
    obtain ⟨state, hread⟩ := readState_of_reason (.inr (by rw [hreason]; rfl))
    exact .inr (.inr (.inl ⟨state, hread, rfl, rfl⟩))
  | staleAdvanced =>
    obtain ⟨state, hread⟩ := readState_of_reason (.inr (by rw [hreason]; rfl))
    exact .inr (.inr (.inl ⟨state, hread, rfl, rfl⟩))
  | autoPaused => exact .inr (.inr (.inr rfl))
  | _ => exact .inl rfl

end Spec

end Abtars
