import Abtars.Task.Requests
import Abtars.Task.Settler
import Abtars.Worker.Settlement

/-!
# Crash recovery of scheduled runs

At boot every task with a live run is looked at once: a run with a terminal event
is repaired from it, a run whose project ended adopts the end, a run past its
deadline is failed, and a run whose owner is gone is settled as unknown.  A task
without a live run is skipped.
-/

namespace Abtars

open Lib

/-! ## Boot recovery -/

/-- What recovery is told by the host: the executions it still owns, the projects the
queue takes back, and what the workflow runner makes of a cancellation. -/
structure RecoveryHost where
  host : SettlerHost
  now : Millis
  ownerGone : String → Bool
  reattachProject : ScheduledTask → TaskRunRow → Bool
  requestCancel : Db → Nat → String → Option SuccessorEffect

def plainSettle (entry : ScheduledTask) (run : TaskRunRow) (outcome : TaskOutcome) :
    SettleOptions where
  entry := entry
  run := run
  outcome := outcome
  diagnostic := none
  detail := none
  deliveryText := none
  resultPath := none
  cardId := none
  retryAt := none
  releaseDelivery := false
  attachResult := false
  factAt := none

def ScheduledTask.isProject (entry : ScheduledTask) : Bool :=
  entry.kind = .agent ∧ 1 < entry.maxAgents.getD 1

variable (boot : RecoveryHost)

def adoptedSettle (entry : ScheduledTask) (run : TaskRunRow) (card : KanbanCard) :
    Option SettleOptions :=
  let hasResult := (nonEmpty card.resultPath).isSome
  match card.status with
  | .done =>
    some
      { plainSettle entry run .success with
        detail := some "restart_recovery: project terminal (done)"
        resultPath := card.resultPath
        cardId := run.cardId
        releaseDelivery := true
        attachResult := hasResult ∧ entry.isProject }
  | .delivered =>
    some
      { plainSettle entry run .success with
        detail := some "restart_recovery: project delivered"
        resultPath := card.resultPath
        cardId := run.cardId
        releaseDelivery := true
        attachResult := hasResult ∧ entry.isProject }
  | .failed =>
    some
      { plainSettle entry run .failed with
        diagnostic := some (makeTaskFailure boot.host.rt boot.now .restartInterrupted
          (.run .executing)
          ((nonEmpty card.error).getD "restart recovery: project terminal (failed)"))
        detail := some "restart_recovery: project terminal (failed)"
        resultPath := card.resultPath
        cardId := run.cardId }
  | _ => none

/-- `settleExpiredRun`, with the runner's cancellation of a supervised project. -/
def settleExpiredRun (entry : ScheduledTask) (run : TaskRunRow) (detail abortReason : String)
    (db : Db) : Db :=
  let settled := (settleRunOnce boot.host boot.now
    { plainSettle entry run .failed with
      diagnostic := some (makeTaskFailure boot.host.rt boot.now .deadlineExceeded
        (.run .executing) detail)
      detail := some detail } db).2
  match run.cardId.bind fun cardId => boot.requestCancel settled cardId abortReason with
  | none => settled
  | some effect =>
    (transactionCatching (applySuccessorEffect boot.host.rt boot.now effect) (fun _ => ())
      settled).2

def ownerLostSettle (entry : ScheduledTask) (run : TaskRunRow) : SettleOptions :=
  { plainSettle entry run .unknown with
    diagnostic := some (makeTaskFailure boot.host.rt boot.now .ownerLost (.run .executing)
      ("Owner process exited before a durable terminal state; " ++
        "whether this run's side effects completed is unknown."))
    detail := some "restart_recovery: owner process gone, side effects unknown" }

def recoverUnrecorded (entry : ScheduledTask) (run : TaskRunRow) (db : Db) : Db :=
  match (run.cardId.bind db.kanbanBoard.get).bind (adoptedSettle boot entry run) with
  | some opts => (settleRunOnce boot.host boot.now opts db).2
  | none =>
    if run.deadlineAt < boot.now then
      settleExpiredRun boot entry run "restart_recovery: deadline passed"
        "restart_recovery: scheduled deadline passed" db
    else if run.cardId.isSome ∧ entry.isProject ∧ boot.reattachProject entry run then db
    else if boot.ownerGone run.runId then
      (settleRunOnce boot.host boot.now (ownerLostSettle boot entry run) db).2
    else db

def recoverEntry (db : Db) (entry : ScheduledTask) : Db :=
  match (readState db entry.id).bind (·.2) with
  | none => db
  | some run =>
    match db.taskRunHistory.get run.runId with
    | some event => (settleRunFromHistory boot.host boot.now entry run event db).2
    | none => recoverUnrecorded boot entry run db

def recover (entries : List ScheduledTask) (db : Db) : Db :=
  runFrom (recoverEntry boot) db entries

/-! ## Finished runs are kept -/

def FinishedKept (db db' : Db) : Prop :=
  ∀ runId run, db.taskRuns.get runId = some run → run.finishedAt.isSome →
    db'.taskRuns.get runId = some run

section Kept

variable {db db' : Db} {runId : String}

theorem FinishedKept.refl (db : Db) : FinishedKept db db := fun _ _ hget _ => hget

theorem FinishedKept.trans {a b c : Db} (hab : FinishedKept a b) (hbc : FinishedKept b c) :
    FinishedKept a c :=
  fun runId run hget hfinished => hbc runId run (hab runId run hget hfinished) hfinished

theorem FinishedKept.of_runs (h : db'.taskRuns = db.taskRuns) : FinishedKept db db' :=
  fun _ _ hget _ => h ▸ hget

theorem FinishesOnly.finishedKept {course : SettleCourse} (h : FinishesOnly runId db course) :
    FinishedKept db (course.final db) := by
  cases h with
  | lost hlost hsame => exact .of_runs hsame
  | won run run' hwon hget hopen hget' hfinished hothers =>
    intro other finished hother hclosed
    by_cases hid : other = runId
    · subst hid
      rw [hget, Option.some.injEq] at hother
      rw [← hother, hopen] at hclosed
      cases hclosed
    · rw [hothers other hid, hother]

theorem settleRunOnce_finishedKept (host : SettlerHost) (now : Millis) (opts : SettleOptions)
    (db : Db) : FinishedKept db (settleRunOnce host now opts db).2 :=
  (settleCourse_finishesOnly host now opts db).finishedKept

theorem settleRunFromHistory_finishedKept (host : SettlerHost) (now : Millis)
    (entry : ScheduledTask) (run : TaskRunRow) (event : TaskRunEvent) (db : Db) :
    FinishedKept db (settleRunFromHistory host now entry run event db).2 := by
  rw [settleRunFromHistory_eq]
  exact (repairCourse_finishesOnly entry run event).finishedKept

theorem taskRuns_applySuccessorEffect {rt : Runtime} {clock : Millis} {effect : SuccessorEffect}
    {done : Unit} (h : applySuccessorEffect rt clock effect db = .ok (done, db')) :
    db'.taskRuns = db.taskRuns := by
  have hready : ∀ d, (effect.markReady d).taskRuns = d.taskRuns := by
    intro d
    unfold SuccessorEffect.markReady
    split <;> rfl
  have hfence : (effect.fence clock (effect.advance db)).taskRuns = db.taskRuns := by
    unfold SuccessorEffect.fence
    split <;> rfl
  unfold applySuccessorEffect at h
  dsimp only at h
  split at h
  · cases h
    rw [hready, hfence]
  split at h
  · cases h
  rename_i hcard
  cases h
  obtain ⟨_, _, _, _, -, rfl⟩ := kanbanTransition_frame hcard
  rw [hready, ← hfence]

variable (boot : RecoveryHost)

theorem settleExpiredRun_finishedKept (entry : ScheduledTask) (run : TaskRunRow)
    (detail abortReason : String) (db : Db) :
    FinishedKept db (settleExpiredRun boot entry run detail abortReason db) := by
  unfold settleExpiredRun
  dsimp only
  have hsettled := settleRunOnce_finishedKept boot.host boot.now
    { plainSettle entry run .failed with
      diagnostic := some (makeTaskFailure boot.host.rt boot.now .deadlineExceeded
        (.run .executing) detail)
      detail := some detail } db
  split
  · exact hsettled
  rename_i effect _
  rcases transactionCatching_cases (applySuccessorEffect boot.host.rt boot.now effect)
    (fun _ => ()) (settleRunOnce boot.host boot.now _ db).2 with
    ⟨⟨_, _⟩, hbody, hrun⟩ | ⟨_, -, hrun⟩
  · rw [hrun]
    exact hsettled.trans (.of_runs (taskRuns_applySuccessorEffect hbody))
  · rw [hrun]
    exact hsettled

theorem recoverUnrecorded_finishedKept (entry : ScheduledTask) (run : TaskRunRow) (db : Db) :
    FinishedKept db (recoverUnrecorded boot entry run db) := by
  unfold recoverUnrecorded
  split
  · exact settleRunOnce_finishedKept _ _ _ _
  split
  · exact settleExpiredRun_finishedKept _ _ _ _ _ _
  split
  · exact .refl db
  · split
    · exact settleRunOnce_finishedKept _ _ _ _
    · exact .refl db

theorem recoverEntry_finishedKept (db : Db) (entry : ScheduledTask) :
    FinishedKept db (recoverEntry boot db entry) := by
  unfold recoverEntry
  split
  · exact .refl db
  · split
    · exact settleRunFromHistory_finishedKept _ _ _ _ _ _
    · exact recoverUnrecorded_finishedKept _ _ _ _

/-- **Recovery leaves every finished run as it finds it.** -/
theorem recover_finishedKept (entries : List ScheduledTask) (db : Db) :
    FinishedKept db (recover boot entries db) := by
  have hreach : ∀ s, True → FinishedKept s (runFrom (recoverEntry boot) s entries) :=
    relation_of_step (fun s _ => .refl s) (fun _ _ _ hab hbc => hab.trans hbc)
      (fun _ _ _ => trivial) (fun s entry _ => recoverEntry_finishedKept boot s entry) entries
  exact hreach db trivial

end Kept

/-! ## At most once -/

inductive SettleCall
  | settle (now : Millis) (opts : SettleOptions)
  | repair (now : Millis) (entry : ScheduledTask) (run : TaskRunRow) (event : TaskRunEvent)

def SettleCall.runId : SettleCall → String
  | .settle _ opts => opts.run.runId
  | .repair _ _ run _ => run.runId

variable (host : SettlerHost)

def SettleCall.course (db : Db) : SettleCall → SettleCourse
  | .settle now opts => settleCourse host now opts db
  | .repair now entry run event => repairCourse host now entry run event db

def settleStep (db : Db) : SettleCall → Db
  | .settle now opts => (settleRunOnce host now opts db).2
  | .repair now entry run event => (settleRunFromHistory host now entry run event db).2

def SettleCall.wins (db : Db) : SettleCall → Bool
  | .settle now opts => (settleRunOnce host now opts db).1 = .settled
  | .repair now entry run event => (settleRunFromHistory host now entry run event db).1

def appliesPatch (runId : String) (db : Db) (call : SettleCall) : Bool :=
  call.runId = runId ∧ call.wins host db

def isOpen (db : Db) (runId : String) : Bool :=
  (db.taskRuns.get runId).any fun run => run.finishedAt = none

/-- After the calls the run has at most one event, which is the one recorded before as
long as the run is open, and its patch was applied at most once. -/
structure SettledOnce (host : SettlerHost) (runId : String) (db : Db) (calls : List SettleCall) :
    Prop where
  events : ((runFrom (settleStep host) db calls).taskRunHistory.select
    fun event => event.runId = runId).length ≤ 1
  kept : ∀ event, db.taskRunHistory.get runId = some event →
    isOpen (runFrom (settleStep host) db calls) runId = true →
    (runFrom (settleStep host) db calls).taskRunHistory.get runId = some event
  patches : countSteps (settleStep host) (appliesPatch host runId) db calls ≤ 1

section Once

variable {host : SettlerHost} {db : Db}

theorem isWon_iff (course : SettleCourse) : course.isWon = true ↔ course.result = .settled := by
  cases course <;> simp [SettleCourse.isWon, SettleCourse.result]

variable (call : SettleCall)

theorem wins_eq : call.wins host db = (call.course host db).isWon := by
  cases call with
  | settle now opts =>
    rw [Bool.eq_iff_iff, SettleCall.course, isWon_iff]
    exact decide_eq_true_iff
  | repair now entry run event =>
    rw [SettleCall.wins, SettleCall.course, settleRunFromHistory_eq]

theorem settleStep_eq : settleStep host db call = (call.course host db).final db := by
  cases call with
  | settle now opts => rfl
  | repair now entry run event => rw [settleStep, SettleCall.course, settleRunFromHistory_eq]

theorem course_finishesOnly (host : SettlerHost) (db : Db) (call : SettleCall) :
    FinishesOnly call.runId db (call.course host db) := by
  cases call with
  | settle now opts => exact settleCourse_finishesOnly host now opts db
  | repair now entry run event => exact repairCourse_finishesOnly entry run event

theorem appliesPatch_add_finished (runId : String) (call : SettleCall) :
    (appliesPatch host runId db call).toNat + (isFinished db runId).toNat =
      (isFinished (settleStep host db call) runId).toNat := by
  rw [appliesPatch, wins_eq, settleStep_eq]
  cases course_finishesOnly host db call with
  | lost hlost hsame =>
    have hflag : isFinished ((call.course host db).final db) runId = isFinished db runId := by
      rw [isFinished, isFinished, hsame]
    simp [hlost, hflag]
  | won run run' hwon hget hopen hget' hfinished hothers =>
    by_cases hid : runId = call.runId
    · subst hid
      have hbefore : isFinished db call.runId = false := by simp [isFinished, hget, hopen]
      have hafter : isFinished ((call.course host db).final db) call.runId = true := by
        simp [isFinished, hget', hfinished]
      simp [hwon, hbefore, hafter]
    · have hflag : isFinished ((call.course host db).final db) runId = isFinished db runId := by
        rw [isFinished, isFinished, hothers runId hid]
      simp [Ne.symm hid, hflag]

theorem isOpen_of_settleStep {runId : String} (h : isOpen (settleStep host db call) runId = true) :
    isOpen db runId = true := by
  rw [settleStep_eq] at h
  cases course_finishesOnly host db call with
  | lost hlost hsame => rwa [isOpen, hsame] at h
  | won run run' hwon hget hopen hget' hfinished hothers =>
    by_cases hid : runId = call.runId
    · subst hid
      simp [isOpen, hget, hopen]
    · rwa [isOpen, hothers runId hid] at h

theorem event_settleStep {runId : String} {event : TaskRunEvent}
    (hget : db.taskRunHistory.get runId = some event) (hopen : isOpen db runId = true) :
    (settleStep host db call).taskRunHistory.get runId = some event := by
  have hprotected : historyProtected db event = true := by
    have hid : event.runId = runId := Table.key_of_get hget
    rw [historyProtected, hid]
    exact hopen
  rw [settleStep_eq]
  cases call with
  | settle now opts =>
    rw [SettleCall.course, taskRunHistory_settleCourse]
    cases happend : appendRunOnce now (settleEvent host.rt now opts db) db with
    | none => exact hget
    | some appended => exact get_of_appendRunOnce happend hget hprotected
  | repair now entry run recorded =>
    rw [SettleCall.course, taskRunHistory_repairCourse]
    exact hget

theorem isOpen_of_run (runId : String) (calls : List SettleCall) :
    ∀ db, isOpen (runFrom (settleStep host) db calls) runId = true → isOpen db runId = true := by
  induction calls with
  | nil =>
    intro db h
    exact h
  | cons call calls ih =>
    intro db h
    exact isOpen_of_settleStep call (ih _ h)

theorem event_run {runId : String} {event : TaskRunEvent} (calls : List SettleCall) :
    ∀ db, db.taskRunHistory.get runId = some event →
      isOpen (runFrom (settleStep host) db calls) runId = true →
      (runFrom (settleStep host) db calls).taskRunHistory.get runId = some event := by
  induction calls with
  | nil =>
    intro db hget _
    exact hget
  | cons call calls ih =>
    intro db hget hopen
    have hstep : isOpen (settleStep host db call) runId = true := isOpen_of_run runId calls _ hopen
    exact ih _ (event_settleStep call hget (isOpen_of_settleStep call hstep)) hopen

/-- **Over any calls a run has at most one event and one applied patch.** -/
theorem settledOnce (host : SettlerHost) (runId : String) (db : Db) (calls : List SettleCall) :
    SettledOnce host runId db calls where
  events := Table.length_select_key_le_one _ runId
  kept := fun _ hget hopen => event_run calls db hget hopen
  patches := countSteps_le_one (fun _ call => (appliesPatch_add_finished runId call).le) db calls

end Once

end Abtars
