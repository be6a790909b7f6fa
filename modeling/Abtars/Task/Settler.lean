import Abtars.Task.CardEffects
import Abtars.Task.History

/-!
# The settler of scheduled runs

`settleRunOnce` ends an occurrence by four durable writes: it appends the terminal
event, finishes the run together with the patch of its task's state, records the
outcome on the run, and settles the card.  The first is the idempotency key, the
second decides who owns the rest.  `settleRunFromHistory` redoes the last three
from the event after a crash.

The settlement is modelled as a course, the list of states its writes go through,
so that a crash between two of them is one of these states.
-/

namespace Abtars

open Lib

structure ScheduledTask where
  id : String
  kind : TaskKind
  schedule : Option String
  maxAgents : Option Int

/-- What the host adds to a settlement: its texts' redaction and the next occurrence
of a cron expression after an instant, if the expression parses. -/
structure SettlerHost where
  rt : Runtime
  nextOccurrence : String → Millis → Option Millis

structure SettleOptions where
  entry : ScheduledTask
  run : TaskRunRow
  outcome : TaskOutcome
  diagnostic : Option TaskFailureDiagnostic
  detail : Option String
  deliveryText : Option String
  resultPath : Option String
  cardId : Option Nat
  retryAt : Option Millis
  releaseDelivery : Bool
  attachResult : Bool
  factAt : Option Millis

def retryDelayMs : Int := 10 * 60 * 1000
def admissionMinDelayMs : Int := 60 * 1000
def maxAdmissionAttempts : Nat := 5

/-! ## Reading the task -/

def activeRun (db : Db) (taskId : String) : Option TaskRunRow :=
  db.taskRuns.rows.find? fun run => run.isLive taskId

/-- `readState`: the state row of a task, with its live run. -/
def readState (db : Db) (taskId : String) : Option (TaskStateRow × Option TaskRunRow) :=
  (db.taskState.get taskId).map fun state => (state, activeRun db taskId)

def ownedState (db : Db) (taskId runId : String) : Option TaskStateRow :=
  match readState db taskId with
  | some (state, some run) => if run.runId = runId then some state else none
  | _ => none

/-! ## The verdict -/

/-- A positive hint; `0` and its absence are no hint. -/
def positiveHint (retryAt : Option Millis) : Option Millis := retryAt.filter (0 < ·)

def hintedRetryAt (hint finishedAt deadlineAt : Millis) : Millis :=
  min (max hint (finishedAt + admissionMinDelayMs)) deadlineAt

/-- `admissionExhausted`: is this deferral one too many? -/
def admissionExhausted (state : Option TaskStateRow) (finishedAt : Millis)
    (retryAt : Option Millis) : Bool :=
  let existing := state.bind (·.deferredAdmission)
  if (existing.map (·.attempts)).getD 0 + 1 > maxAdmissionAttempts then true
  else
    match existing with
    | none => false
    | some deferred =>
      deferred.deadlineAt ≤ hintedRetryAt
        ((positiveHint retryAt).getD (finishedAt + admissionMinDelayMs)) finishedAt
        deferred.deadlineAt

/-- `synthesizeDiagnostic`: the diagnostic of an outcome nobody classified. -/
def synthesizeDiagnostic (rt : Runtime) (now : Millis) (outcome : TaskOutcome)
    (detail : Option String) (phase : TaskRunPhase) : TaskFailureDiagnostic :=
  match outcome with
  | .definitionFailed =>
    makeTaskFailure rt now .invalidDefinition (.run phase) (detail.getD "definition failed")
  | .timedOut => makeTaskFailure rt now .timedOut (.run phase) (detail.getD "run timed out")
  | .cancelled => makeTaskFailure rt now .cancelled (.run phase) (detail.getD "cancelled")
  | .deferred =>
    makeTaskFailure rt now (.executorUnavailable .transient) (.run phase)
      (detail.getD "deferred")
  | .unknown =>
    makeTaskFailure rt now .ownerLost (.run phase)
      (detail.getD ("owner process exited before a durable terminal state; " ++
        "whether this run's side effects completed is unknown"))
  | .failed => makeTaskFailure rt now .modelError (.run phase) (detail.getD "failed")
  | outcome => makeTaskFailure rt now .modelError (.run phase) (detail.getD outcome.text)

def sanitizeText (rt : Runtime) (text : Option String) (bound : Nat) : Option String :=
  text.map fun t => sliceText (rt.redactSecrets t) bound

/-- `normalizeTerminal`: a durable cancellation wins, a deadline wins over facts that
do not precede it. -/
def normalizeTerminal (rt : Runtime) (now : Millis)
    (proposed : TaskOutcome × TaskFailureDiagnostic) (run : TaskRunRow)
    (durableRequest : Option RunTerminalRequest) (detail : Option String)
    (factAt : Option Millis) : TaskOutcome × TaskFailureDiagnostic :=
  match durableRequest with
  | none => proposed
  | some request =>
    match request.kind with
    | .cancelled =>
      (.cancelled, makeTaskFailure rt now .cancelled (.run run.phase)
        ((nonEmpty (some request.reason)).getD "cancelled"))
    | .deadlineExceeded =>
      if factAt.any (· < request.requestedAt) then proposed
      else
        (.failed, makeTaskFailure rt now .deadlineExceeded (.run run.phase)
          (detail.getD "deadline exceeded"))

def settleVerdict (rt : Runtime) (now : Millis) (opts : SettleOptions) (db : Db) :
    TaskOutcome × TaskFailureDiagnostic :=
  let preState := readState db opts.entry.id
  let state := preState.map (·.1)
  let exhausted := opts.outcome = .deferred ∧
    opts.diagnostic.any (fun d => d.category = .admission) ∧
    admissionExhausted state now opts.retryAt
  let deferrals := ((state.bind (·.deferredAdmission)).map (·.attempts)).getD 0 + 1
  let proposed :=
    if exhausted then
      (.failed, makeTaskFailure rt now (.executorUnavailable .none_) (.run .queued)
        ("executor unavailable after " ++ toString deferrals ++ " deferral(s)"))
    else
      (opts.outcome, opts.diagnostic.getD
        (synthesizeDiagnostic rt now opts.outcome opts.detail opts.run.phase))
  normalizeTerminal rt now proposed opts.run
    ((preState.bind (·.2)).bind (·.terminalRequest)) (sanitizeText rt opts.detail 500) opts.factAt

def settleEvent (rt : Runtime) (now : Millis) (opts : SettleOptions) (db : Db) : TaskRunEvent :=
  let (outcome, diagnostic) := settleVerdict rt now opts db
  { runId := opts.run.runId
    taskId := opts.entry.id
    kind := opts.entry.kind
    trigger := opts.run.trigger
    startedAt := opts.run.reservedAt
    finishedAt := now
    outcome := outcome
    detail := sanitizeText rt opts.detail 500
    deliveryText := sanitizeText rt opts.deliveryText 4000
    resultPath := opts.resultPath
    kanbanCardId := opts.cardId
    groupId := some opts.run.groupId
    diagnostic := if outcome.isHealthy then none else some diagnostic }

/-! ## The patch of the task's state -/

variable (host : SettlerHost) (now : Millis) (entry : ScheduledTask)

/-- `nextRunFromSchedule`, spread into a patch. -/
def withNextRun (patch : TaskStatePatch) : TaskStatePatch :=
  match nonEmpty entry.schedule with
  | none => { patch with completed := some true }
  | some schedule =>
    match host.nextOccurrence schedule now with
    | none => patch
    | some next => { patch with nextRunAt := some (some next) }

def reportPatch (finishedAt : Millis) (diagnostic : TaskFailureDiagnostic) : TaskStatePatch :=
  { TaskStatePatch.empty with
    lastFinishedAt := some (some finishedAt)
    lastIncident := some (some diagnostic) }

def TaskStatePatch.closeOccurrence (patch : TaskStatePatch) : TaskStatePatch :=
  { patch with
    retrying := some false
    retryGroupId := some none
    retryAttempt := some none
    priorFailure := some none
    deferredAdmission := some none }

def healthyPatch (finishedAt : Millis) : TaskStatePatch :=
  { TaskStatePatch.empty with lastFinishedAt := some (some finishedAt) }

/-- `failurePatch`: one more failed group, and the pause it may bring. -/
def failurePatch (diagnostic : TaskFailureDiagnostic) (state : TaskStateRow) (finishedAt : Millis)
    (pauseNow : Bool) : TaskStatePatch :=
  let failCount := state.consecutiveFailures + 1
  let counted :=
    { withNextRun host now entry (reportPatch finishedAt diagnostic).closeOccurrence with
      consecutiveFailures := some failCount }
  if pauseNow ∨ autoPauseFailureThreshold ≤ failCount then
    { counted with autoPaused := some true, pausedAt := some (some now) }
  else counted

variable (run : TaskRunRow)

def nextDeferral (diagnostic : TaskFailureDiagnostic) (state : TaskStateRow) (finishedAt : Millis)
    (retryAt : Option Millis) : DeferredAdmission :=
  let existing := state.deferredAdmission
  let deadlineAt := (existing.map (·.deadlineAt)).getD run.deadlineAt
  { groupId := (existing.map (·.groupId)).getD run.groupId
    occurrenceAt := (existing.map (·.occurrenceAt)).getD run.occurrenceAt
    deadlineAt := deadlineAt
    attempts := (existing.map (·.attempts)).getD 0 + 1
    retryAt :=
      match positiveHint retryAt with
      | none => finishedAt + admissionMinDelayMs
      | some hint => hintedRetryAt hint finishedAt deadlineAt
    diagnostic := diagnostic }

def deferPatch (diagnostic : TaskFailureDiagnostic) (state : TaskStateRow) (finishedAt : Millis)
    (retryAt : Option Millis) : TaskStatePatch :=
  let deferred := nextDeferral run diagnostic state finishedAt retryAt
  { reportPatch finishedAt diagnostic with
    nextRunAt := some (some deferred.retryAt)
    deferredAdmission := some (some deferred) }

def retryPatch (diagnostic : TaskFailureDiagnostic) (finishedAt : Millis) : TaskStatePatch :=
  { reportPatch finishedAt diagnostic with
    nextRunAt := some (some (finishedAt + retryDelayMs))
    retryAt := some (some (finishedAt + retryDelayMs))
    retrying := some true
    retryGroupId := some (some run.groupId)
    retryAttempt := some (some 1)
    priorFailure := some (some (sliceText (formatTaskFailure diagnostic) 200))
    deferredAdmission := some none }

def policyPatch (outcome : TaskOutcome) (diagnostic : TaskFailureDiagnostic) (state : TaskStateRow)
    (finishedAt : Millis) (retryAt : Option Millis) : TaskStatePatch :=
  let policy := decideFailurePolicy diagnostic
  -- a manual run reports its own outcome and leaves the schedule alone
  if run.trigger = .manual ∧ policy ≠ .defer then reportPatch finishedAt diagnostic
  else
    match policy with
    | .defer =>
      if outcome = .failed ∧ diagnostic.code = "executor_unavailable" then
        failurePatch host now entry diagnostic state finishedAt false
      else deferPatch run diagnostic state finishedAt retryAt
    | .clear => withNextRun host now entry (reportPatch finishedAt diagnostic).closeOccurrence
    | .retry =>
      if run.attempt = 1 then retryPatch run diagnostic finishedAt
      else failurePatch host now entry diagnostic state finishedAt false
    | .count pauseNow => failurePatch host now entry diagnostic state finishedAt pauseNow

def computeStatePatch (outcome : TaskOutcome) (diagnostic : TaskFailureDiagnostic)
    (state : TaskStateRow) (finishedAt : Millis) (retryAt : Option Millis) : TaskStatePatch :=
  match outcome with
  | .success =>
    { withNextRun host now entry (healthyPatch finishedAt).closeOccurrence with
      lastIncident := some none
      consecutiveFailures := some 0
      consecutiveDeferrals := some 0
      autoResumeCount := some 0 }
  | .noop | .skipped => withNextRun host now entry (healthyPatch finishedAt).closeOccurrence
  | .unknown =>
    if run.trigger = .manual then reportPatch finishedAt diagnostic
    else withNextRun host now entry (reportPatch finishedAt diagnostic).closeOccurrence
  | outcome =>
    policyPatch host now entry run outcome diagnostic state finishedAt retryAt

/-! ## The writes -/

def recordOutcomeOn (outcome : TaskOutcome) (run : TaskRunRow) : TaskRunRow :=
  { run with outcome := some outcome.text }

theorem key_recordOutcomeOn (outcome : TaskOutcome) (run : TaskRunRow) :
    Keyed.key (recordOutcomeOn outcome run) = Keyed.key run := rfl

/-- `setRunOutcome`: the outcome of a finished run that has none. -/
def setRunOutcome (runId : String) (outcome : TaskOutcome) (db : Db) : Db :=
  { db with
    taskRuns := (db.taskRuns.cas runId (fun run => run.finishedAt.isSome ∧ run.outcome = none)
      (recordOutcomeOn outcome) (key_recordOutcomeOn outcome)).2 }

inductive SettleCourse
  | duplicate
  | late (appended : Db)
  | won (appended finished recorded settled : Db)

def finishCourse (runId : String) (patch : TaskStatePatch) (effects : SideEffects) (appended : Db) :
    SettleCourse :=
  match settleActiveRun now entry.id runId patch appended with
  | (false, _) => .late appended
  | (true, finished) =>
    let recorded := setRunOutcome runId effects.outcome finished
    .won appended finished recorded
      (applyPostSettlementSideEffects host.rt now effects recorded)

def SettleOptions.effects (opts : SettleOptions) (event : TaskRunEvent)
    (diagnostic : TaskFailureDiagnostic) : SideEffects where
  cardId := opts.cardId
  runId := opts.run.runId
  outcome := event.outcome
  detail := event.detail
  deliveryText := event.deliveryText
  resultPath := opts.resultPath
  diagnostic := diagnostic
  releaseDelivery := opts.releaseDelivery
  attachResult := opts.attachResult

/-- The course of `settleRunOnce`. -/
def settleCourse (opts : SettleOptions) (db : Db) : SettleCourse :=
  let event := settleEvent host.rt now opts db
  let diagnostic := (settleVerdict host.rt now opts db).2
  match appendRunOnce now event db with
  | none => .duplicate
  | some appended =>
    match ownedState appended opts.entry.id opts.run.runId with
    | none => .late appended
    | some state =>
      finishCourse host now opts.entry opts.run.runId
        (computeStatePatch host now opts.entry opts.run event.outcome diagnostic state now
          opts.retryAt)
        (opts.effects event diagnostic) appended

inductive SettleResult
  | settled | late | duplicate
  deriving DecidableEq

def SettleCourse.result : SettleCourse → SettleResult
  | .duplicate => .duplicate
  | .late _ => .late
  | .won _ _ _ _ => .settled

def SettleCourse.final (db : Db) : SettleCourse → Db
  | .duplicate => db
  | .late appended => appended
  | .won _ _ _ settled => settled

def SettleCourse.crashStates : SettleCourse → List Db
  | .won appended finished recorded _ => [appended, finished, recorded]
  | _ => []

def settleRunOnce (opts : SettleOptions) (db : Db) : SettleResult × Db :=
  ((settleCourse host now opts db).result, (settleCourse host now opts db).final db)

def repairEffects (rt : Runtime) (entry : ScheduledTask) (event : TaskRunEvent)
    (diagnostic : TaskFailureDiagnostic) : SideEffects where
  cardId := event.kanbanCardId
  runId := event.runId
  outcome := event.outcome
  detail := sanitizeText rt event.detail 500
  deliveryText := sanitizeText rt event.deliveryText 4000
  resultPath := event.resultPath
  diagnostic := diagnostic
  releaseDelivery := event.outcome = .success
  attachResult := (nonEmpty event.resultPath).isSome ∧ entry.kind = .agent ∧
    1 < entry.maxAgents.getD 1

/-- `settleRunFromHistory`: the writes after the event, from the event.  The hint of
the first settlement is not in it. -/
def settleRunFromHistory (event : TaskRunEvent) (db : Db) : Bool × Db :=
  match ownedState db entry.id run.runId with
  | none => (false, db)
  | some state =>
    let diagnostic := event.diagnostic.getD
      (synthesizeDiagnostic host.rt now event.outcome event.detail run.phase)
    let patch := computeStatePatch host now entry run event.outcome diagnostic state
      event.finishedAt none
    match finishCourse host now entry run.runId patch
        (repairEffects host.rt entry event diagnostic) db with
    | .won _ _ _ settled => (true, settled)
    | _ => (false, db)

section Spec

variable {host : SettlerHost} {now : Millis} {db : Db} {runId : String}

theorem isLive_of_activeRun {taskId : String} {run : TaskRunRow}
    (h : activeRun db taskId = some run) : run ∈ db.taskRuns ∧ run.isLive taskId = true := by
  have hfound : db.taskRuns.rows.find? (fun row => row.isLive taskId) = some run := h
  exact ⟨List.mem_of_find?_eq_some hfound, List.find?_some hfound⟩

theorem ownedState_row {taskId : String} {state : TaskStateRow}
    (h : ownedState db taskId runId = some state) :
    ∃ run, activeRun db taskId = some run ∧ db.taskRuns.get runId = some run ∧
      run.finishedAt = none := by
  unfold ownedState at h
  split at h
  · rename_i read run hread
    obtain ⟨hid, -⟩ := Option.ite_none_right_eq_some.1 h
    obtain ⟨_, -, hactive⟩ := Option.map_eq_some_iff.1 hread
    have hfind : activeRun db taskId = some run := (Prod.mk.inj hactive).2
    obtain ⟨hmem, hisLive⟩ := isLive_of_activeRun hfind
    have hlive : run.taskId = taskId ∧ run.finishedAt = none := by
      simpa [TaskRunRow.isLive] using hisLive
    exact ⟨run, hfind, Table.get_eq_some_iff.2 ⟨hmem, hid⟩, hlive.2⟩
  · cases h

theorem get_setRunOutcome {outcome : TaskOutcome} {run : TaskRunRow}
    (hget : db.taskRuns.get runId = some run) (hfinished : run.finishedAt.isSome)
    (hnone : run.outcome = none) :
    (setRunOutcome runId outcome db).taskRuns.get runId = some (recordOutcomeOn outcome run) := by
  show (db.taskRuns.cas runId (fun run => run.finishedAt.isSome ∧ run.outcome = none)
    (recordOutcomeOn outcome) (key_recordOutcomeOn outcome)).2.get runId = _
  rcases Table.cas_cases db.taskRuns runId
    (fun run => run.finishedAt.isSome ∧ run.outcome = none) (recordOutcomeOn outcome)
    (key_recordOutcomeOn outcome) with ⟨hlost, -⟩ | ⟨_, -, -, hcas⟩
  · have hguard := hlost run hget
    simp [hfinished, hnone] at hguard
  · rw [hcas, Table.get_modify_same, hget, Option.map_some]

theorem finishedAt_setRunOutcome (runId : String) (outcome : TaskOutcome) (db : Db)
    (other : String) :
    ((setRunOutcome runId outcome db).taskRuns.get other).map (·.finishedAt) =
      (db.taskRuns.get other).map (·.finishedAt) :=
  Table.map_get_cas _ (key_recordOutcomeOn outcome) _ (fun _ => rfl) other

theorem get_setRunOutcome_of_ne {outcome : TaskOutcome} {other : String} (hne : other ≠ runId) :
    (setRunOutcome runId outcome db).taskRuns.get other = db.taskRuns.get other :=
  Table.get_cas_of_ne _ (key_recordOutcomeOn outcome) hne

theorem taskRuns_sideEffects (rt : Runtime) (effects : SideEffects) :
    (applyPostSettlementSideEffects rt now effects db).taskRuns = db.taskRuns := by
  obtain ⟨_, _, _, _, heq⟩ := sideEffects_boardOnly rt now effects db
  rw [heq]

/-- The writes after the event are lost on a run that is not open; an open run is
finished under the patch. -/
theorem finishCourse_cases (host : SettlerHost) (now : Millis) (entry : ScheduledTask)
    (runId : String) (patch : TaskStatePatch) (effects : SideEffects) (db : Db) :
    (∀ run, db.taskRuns.get runId = some run → run.finishedAt ≠ none) ∧
      finishCourse host now entry runId patch effects db = .late db ∨
    ∃ run finished recorded, db.taskRuns.get runId = some run ∧ run.finishedAt = none ∧
      finished = finishedUnder now entry.id runId patch db ∧
      recorded = setRunOutcome runId effects.outcome finished ∧
      finishCourse host now entry runId patch effects db =
        .won db finished recorded (applyPostSettlementSideEffects host.rt now effects recorded) := by
  rcases settleActiveRun_cases now entry.id runId patch db with
    ⟨hclosed, hsettle⟩ | ⟨run, hget, hopen, hsettle⟩
  · exact .inl ⟨hclosed, by rw [finishCourse, hsettle]⟩
  · exact .inr ⟨run, _, _, hget, hopen, rfl, rfl, by rw [finishCourse, hsettle]⟩

def SettleCourse.isWon : SettleCourse → Bool
  | .won _ _ _ _ => true
  | _ => false

/-- A course writes the runs when it is won, and then only its own, which was open. -/
inductive FinishesOnly (runId : String) (db : Db) (course : SettleCourse) : Prop
  | lost (hlost : course.isWon = false)
      (hsame : (course.final db).taskRuns = db.taskRuns)
  | won (run run' : TaskRunRow) (hwon : course.isWon = true)
      (hget : db.taskRuns.get runId = some run) (hopen : run.finishedAt = none)
      (hget' : (course.final db).taskRuns.get runId = some run')
      (hfinished : run'.finishedAt.isSome)
      (hothers : ∀ other, other ≠ runId →
        (course.final db).taskRuns.get other = db.taskRuns.get other)

theorem finishCourse_finishesOnly {appended : Db} (hruns : appended.taskRuns = db.taskRuns)
    (entry : ScheduledTask) (patch : TaskStatePatch) (effects : SideEffects) :
    FinishesOnly runId db (finishCourse host now entry runId patch effects appended) := by
  rcases finishCourse_cases host now entry runId patch effects appended with
    ⟨-, hlate⟩ | ⟨run, finished, recorded, hget, hopen, rfl, rfl, hwon⟩
  · rw [hlate]
    exact .lost rfl hruns
  · rw [hwon]
    have hcolumn := finishedAt_setRunOutcome runId effects.outcome
      (finishedUnder now entry.id runId patch appended) runId
    rw [get_finishedUnder hget] at hcolumn
    obtain ⟨run', hget', hfinishedAt⟩ := Option.map_eq_some_iff.1 hcolumn
    refine .won run run' rfl (hruns ▸ hget) hopen ?_ ?_ ?_
    · rw [SettleCourse.final, taskRuns_sideEffects, hget']
    · rw [hfinishedAt]
      rfl
    · intro other hne
      rw [SettleCourse.final, taskRuns_sideEffects, get_setRunOutcome_of_ne hne,
        get_finishedUnder_of_ne hne, hruns]

variable (entry : ScheduledTask)

theorem taskRunHistory_finishCourse (patch : TaskStatePatch) (effects : SideEffects) (before : Db) :
    ((finishCourse host now entry runId patch effects db).final before).taskRunHistory =
      db.taskRunHistory := by
  rcases finishCourse_cases host now entry runId patch effects db with
    ⟨-, hlate⟩ | ⟨_, _, _, -, -, rfl, rfl, hwon⟩
  · rw [hlate]
    rfl
  · obtain ⟨_, _, _, _, heffects⟩ := sideEffects_boardOnly host.rt now effects
      (setRunOutcome runId effects.outcome (finishedUnder now entry.id runId patch db))
    rw [hwon, SettleCourse.final, heffects]
    rfl

def repairCourse (host : SettlerHost) (now : Millis) (entry : ScheduledTask) (run : TaskRunRow)
    (event : TaskRunEvent) (db : Db) : SettleCourse :=
  match ownedState db entry.id run.runId with
  | none => .late db
  | some state =>
    let diagnostic := event.diagnostic.getD
      (synthesizeDiagnostic host.rt now event.outcome event.detail run.phase)
    finishCourse host now entry run.runId
      (computeStatePatch host now entry run event.outcome diagnostic state event.finishedAt none)
      (repairEffects host.rt entry event diagnostic) db

theorem settleRunFromHistory_eq (run : TaskRunRow) (event : TaskRunEvent) :
    settleRunFromHistory host now entry run event db =
      ((repairCourse host now entry run event db).isWon,
        (repairCourse host now entry run event db).final db) := by
  unfold settleRunFromHistory repairCourse
  cases ownedState db entry.id run.runId with
  | none => rfl
  | some state =>
    dsimp only
    rcases finishCourse_cases host now entry run.runId _ _ db with
      ⟨-, hlate⟩ | ⟨_, _, _, -, -, -, -, hwon⟩
    · rw [hlate]
      rfl
    · rw [hwon]
      rfl

theorem repairCourse_finishesOnly (run : TaskRunRow) (event : TaskRunEvent) :
    FinishesOnly run.runId db (repairCourse host now entry run event db) := by
  unfold repairCourse
  split
  · exact .lost rfl rfl
  · exact finishCourse_finishesOnly rfl _ _ _

theorem taskRunHistory_repairCourse (run : TaskRunRow) (event : TaskRunEvent) :
    ((repairCourse host now entry run event db).final db).taskRunHistory = db.taskRunHistory := by
  unfold repairCourse
  split
  · rfl
  · exact taskRunHistory_finishCourse _ _ _ _

/-- The course of a settlement on a run that already has an event, on one that is not
its task's live run, or on one it finishes. -/
theorem settleCourse_cases (host : SettlerHost) (now : Millis) (opts : SettleOptions) (db : Db) :
    (∃ old, db.taskRunHistory.get opts.run.runId = some old ∧
      settleCourse host now opts db = .duplicate) ∨
    ∃ history, db.taskRunHistory.get opts.run.runId = none ∧
      appendRunOnce now (settleEvent host.rt now opts db) db =
        some { db with taskRunHistory := history } ∧
      (ownedState db opts.entry.id opts.run.runId = none ∧
        settleCourse host now opts db = .late { db with taskRunHistory := history } ∨
      ∃ state, ownedState db opts.entry.id opts.run.runId = some state ∧
        settleCourse host now opts db =
          finishCourse host now opts.entry opts.run.runId
            (computeStatePatch host now opts.entry opts.run
              (settleEvent host.rt now opts db).outcome (settleVerdict host.rt now opts db).2 state
              now opts.retryAt)
            (opts.effects (settleEvent host.rt now opts db) (settleVerdict host.rt now opts db).2)
            { db with taskRunHistory := history }) := by
  rcases appendRunOnce_cases now (settleEvent host.rt now opts db) db with
    ⟨old, hold, hrefused⟩ | ⟨hfree, history, happend, -⟩
  · exact .inl ⟨old, hold, by simp only [settleCourse, hrefused]⟩
  · right
    refine ⟨history, hfree, happend, ?_⟩
    have howned : ownedState { db with taskRunHistory := history } opts.entry.id opts.run.runId =
        ownedState db opts.entry.id opts.run.runId := rfl
    cases hstate : ownedState db opts.entry.id opts.run.runId with
    | none =>
      left
      exact ⟨rfl, by simp only [settleCourse, happend, howned, hstate]⟩
    | some state =>
      right
      exact ⟨state, rfl, by simp only [settleCourse, happend, howned, hstate]⟩

theorem taskRunHistory_settleCourse (opts : SettleOptions) :
    ((settleCourse host now opts db).final db).taskRunHistory =
      ((appendRunOnce now (settleEvent host.rt now opts db) db).getD db).taskRunHistory := by
  unfold settleCourse
  dsimp only
  cases appendRunOnce now (settleEvent host.rt now opts db) db with
  | none => rfl
  | some appended =>
    dsimp only [Option.getD_some]
    split
    · rfl
    · exact taskRunHistory_finishCourse _ _ _ _

theorem settleCourse_finishesOnly (host : SettlerHost) (now : Millis) (opts : SettleOptions)
    (db : Db) : FinishesOnly opts.run.runId db (settleCourse host now opts db) := by
  rcases settleCourse_cases host now opts db with
    ⟨_, -, hdup⟩ | ⟨history, -, -, ⟨-, hlate⟩ | ⟨state, -, hcourse⟩⟩
  · rw [hdup]
    exact .lost rfl rfl
  · rw [hlate]
    exact .lost rfl rfl
  · rw [hcourse]
    -- the append left the runs as they were
    have hruns : ({ db with taskRunHistory := history } : Db).taskRuns = db.taskRuns := rfl
    exact finishCourse_finishesOnly hruns _ _ _

end Spec

end Abtars
