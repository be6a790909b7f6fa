import Abtars.Task.Crash

/-!
# Late settlements of a superseded run

A settlement reads the terminal request of its task's live run.  When the run it
settles was superseded, that is the request of another run.
-/

namespace Abtars

open Lib

def SupersededBy (later : TaskRunRow) (opts : SettleOptions) (db : Db) : Prop :=
  (∃ state, readState db opts.entry.id = some (state, some later)) ∧
    later.runId ≠ opts.run.runId

def durableRequest (db : Db) (runId : String) : Option RunTerminalRequest :=
  (db.taskRuns.get runId).bind (·.terminalRequest)

def recordedEvent (host : SettlerHost) (now : Millis) (opts : SettleOptions) (db : Db) :
    Option TaskRunEvent :=
  (appendRunOnce now (settleEvent host.rt now opts db) db).map fun _ =>
    settleEvent host.rt now opts db

/-- What a late settlement may do: in every two states of a superseded run that agree
on its own request it records the same outcome and diagnostic, and it leaves the
task's state and every reservation as they are. -/
structure SettlementIsolated (host : SettlerHost) (now : Millis) (opts : SettleOptions)
    (db : Db) : Prop where
  verdict : ∀ db' later' event event', SupersededBy later' opts db' →
    durableRequest db' opts.run.runId = durableRequest db opts.run.runId →
    recordedEvent host now opts db = some event →
    recordedEvent host now opts db' = some event' →
    event.outcome = event'.outcome ∧ event.diagnostic = event'.diagnostic
  state : (settleRunOnce host now opts db).2.taskState = db.taskState
  runs : (settleRunOnce host now opts db).2.taskRuns = db.taskRuns

section Late

variable {state : TaskStateRow}

variable {host : SettlerHost} {now : Millis} {opts : SettleOptions} {db : Db}
  {later : TaskRunRow}

theorem ownedState_of_superseded (h : SupersededBy later opts db) :
    ownedState db opts.entry.id opts.run.runId = none := by
  obtain ⟨⟨state, hread⟩, hother⟩ := h
  simp [ownedState, hread, hother]

/-- **A late settlement writes the history and nothing else.** -/
theorem late_writes (host : SettlerHost) (now : Millis) (h : SupersededBy later opts db) :
    ∃ history, (settleRunOnce host now opts db).2 = { db with taskRunHistory := history } := by
  rcases settleCourse_cases host now opts db with
    ⟨_, -, hdup⟩ | ⟨history, -, -, ⟨-, hlate⟩ | ⟨state, howned, -⟩⟩
  · refine ⟨db.taskRunHistory, ?_⟩
    rw [settleRunOnce, hdup]
    rfl
  · refine ⟨history, ?_⟩
    rw [settleRunOnce, hlate]
    rfl
  · rw [ownedState_of_superseded h] at howned
    cases howned

theorem recordedEvent_eq_some_iff {event : TaskRunEvent} :
    recordedEvent host now opts db = some event ↔
      db.taskRunHistory.get opts.run.runId = none ∧ settleEvent host.rt now opts db = event := by
  unfold recordedEvent
  rcases appendRunOnce_cases now (settleEvent host.rt now opts db) db with
    ⟨old, hold, hrefused⟩ | ⟨hfree, history, happend, -⟩
  · have hhas : db.taskRunHistory.get opts.run.runId = some old := hold
    simp [hrefused, hhas]
  · have hnone : db.taskRunHistory.get opts.run.runId = none := hfree
    simp [happend, hnone]

/-! ## The request of the live run -/

def withRequest (request : RunTerminalRequest) (run : TaskRunRow) : TaskRunRow :=
  { run with terminalRequest := some request }

theorem key_withRequest (request : RunTerminalRequest) (run : TaskRunRow) :
    Keyed.key (withRequest request run) = Keyed.key run := rfl

def requestedOn (runId : String) (request : RunTerminalRequest) (db : Db) : Db :=
  { db with
    taskRuns := db.taskRuns.modify runId (withRequest request) (key_withRequest request) }

theorem readState_requestedOn {taskId : String}
    (hread : readState db taskId = some (state, some later)) (request : RunTerminalRequest) :
    readState (requestedOn later.runId request db) taskId =
      some (state, some (withRequest request later)) := by
  obtain ⟨row, hrow, hpair⟩ := Option.map_eq_some_iff.1 hread
  obtain ⟨rfl, hactive⟩ := Prod.mk.inj hpair
  have hfound : db.taskRuns.rows.find? (fun run => run.isLive taskId) = some later := hactive
  have hkept : ((fun run : TaskRunRow => run.isLive taskId) ∘ fun run : TaskRunRow =>
      if decide (run.runId = later.runId) = true then withRequest request run else run) =
      fun run => run.isLive taskId := by
    funext run
    simp only [Function.comp_apply]
    split <;> rfl
  have hnow : activeRun (requestedOn later.runId request db) taskId =
      some (withRequest request later) := by
    show (db.taskRuns.rows.map fun run : TaskRunRow =>
      if decide (run.runId = later.runId) = true then withRequest request run else run).find?
        (fun run => run.isLive taskId) = _
    rw [List.find?_map, hkept, hfound]
    simp
  have hstate : (requestedOn later.runId request db).taskState.get taskId = some row := hrow
  rw [readState, hstate, Option.map_some, hnow]

theorem durableRequest_requestedOn {runId other : String} (hne : other ≠ runId)
    (request : RunTerminalRequest) :
    durableRequest (requestedOn runId request db) other = durableRequest db other := by
  have hrow : (requestedOn runId request db).taskRuns.get other = db.taskRuns.get other :=
    Table.get_modify_of_ne _ _ (key_withRequest request) hne
  rw [durableRequest, hrow, durableRequest]

theorem outcome_of_cancelled {request : RunTerminalRequest}
    (hread : readState db opts.entry.id = some (state, some later))
    (hrequest : later.terminalRequest = some request) (hkind : request.kind = .cancelled) :
    (settleEvent host.rt now opts db).outcome = .cancelled := by
  show (settleVerdict host.rt now opts db).1 = .cancelled
  simp only [settleVerdict, hread, Option.bind_some, hrequest, normalizeTerminal, hkind]

theorem outcome_of_deadline {request : RunTerminalRequest}
    (hread : readState db opts.entry.id = some (state, some later))
    (hrequest : later.terminalRequest = some request) (hkind : request.kind = .deadlineExceeded)
    (hfact : opts.factAt.any (· < request.requestedAt) = false) :
    (settleEvent host.rt now opts db).outcome = .failed := by
  show (settleVerdict host.rt now opts db).1 = .failed
  simp only [settleVerdict, hread, Option.bind_some, hrequest, normalizeTerminal, hkind, hfact]
  rfl

/-- **The verdict of a late settlement follows the live run's request**: some request of
the live run gives it another outcome. -/
theorem verdict_follows_live (host : SettlerHost) (now : Millis) (h : SupersededBy later opts db) :
    ∃ request later', SupersededBy later' opts (requestedOn later.runId request db) ∧
      (settleEvent host.rt now opts (requestedOn later.runId request db)).outcome ≠
        (settleEvent host.rt now opts db).outcome := by
  obtain ⟨⟨state, hread⟩, hother⟩ := h
  have hsuperseded : ∀ request, SupersededBy (withRequest request later) opts
      (requestedOn later.runId request db) :=
    fun request => ⟨⟨state, readState_requestedOn hread request⟩, hother⟩
  by_cases houtcome : (settleEvent host.rt now opts db).outcome = .cancelled
  · -- a deadline no fact precedes
    refine ⟨⟨.deadlineExceeded, opts.factAt.getD 0, "deadline"⟩, _, hsuperseded _, ?_⟩
    rw [houtcome, outcome_of_deadline (readState_requestedOn hread _) rfl rfl]
    · decide
    · cases opts.factAt <;> simp
  · refine ⟨⟨.cancelled, 0, "cancelled"⟩, _, hsuperseded _, ?_⟩
    rw [outcome_of_cancelled (readState_requestedOn hread _) rfl rfl]
    exact fun h => houtcome h.symm

/-- **A late settlement is isolated from the live run exactly when it records nothing.** -/
theorem isolated_iff (host : SettlerHost) (now : Millis) (opts : SettleOptions) (db : Db)
    (later : TaskRunRow) (h : SupersededBy later opts db) :
    SettlementIsolated host now opts db ↔ (db.taskRunHistory.get opts.run.runId).isSome := by
  constructor
  · intro hisolated
    by_contra hnone
    have hfree : db.taskRunHistory.get opts.run.runId = none := by simpa using hnone
    obtain ⟨request, later', hsuperseded, hdiffers⟩ :=
      verdict_follows_live host now h
    have hfree' :
        (requestedOn later.runId request db).taskRunHistory.get opts.run.runId = none := hfree
    have hsame := hisolated.verdict _ later' _ _ hsuperseded
      (durableRequest_requestedOn h.2.symm request)
      (recordedEvent_eq_some_iff.2 ⟨hfree, rfl⟩) (recordedEvent_eq_some_iff.2 ⟨hfree', rfl⟩)
    exact hdiffers hsame.1.symm
  · intro hrecorded
    obtain ⟨history, hwrites⟩ := late_writes host now h
    refine ⟨?_, by rw [hwrites], by rw [hwrites]⟩
    intro db' later' event event' _ _ hevent _
    rw [(recordedEvent_eq_some_iff.1 hevent).1] at hrecorded
    cases hrecorded

end Late

/-! ## A late success -/

def supersededRun : TaskRunRow :=
  { reservedRun "r" "task" "g" 1 .schedule 0 0 1000 with
    finishedAt := some 3
    outcome := some "unknown" }

def liveRun : TaskRunRow := reservedRun "r2" "task" "g2" 1 .schedule 4 4 1000

def supersededDb : Db :=
  { ownedDb with taskRuns := Table.ofRows [supersededRun, liveRun] }

theorem isolated_supersededDb :
    SettlementIsolated plainHost 7 successSettle supersededDb ↔
      (supersededDb.taskRunHistory.get successSettle.run.runId).isSome :=
  isolated_iff plainHost 7 successSettle supersededDb liveRun
    ⟨⟨defaultTaskState "task", rfl⟩, by decide⟩

/-- The late success of a run without a request of its own is recorded as cancelled when
the run that superseded it is being cancelled. -/
theorem late_success_cancelled :
    ¬ SettlementIsolated plainHost 7 successSettle supersededDb := by
  intro hisolated
  have hsuperseded : SupersededBy (withRequest (cancelRequest 5) liveRun) successSettle
      (requestedOn "r2" (cancelRequest 5) supersededDb) :=
    ⟨⟨defaultTaskState "task", rfl⟩, by decide⟩
  have hsame := hisolated.verdict _ _ _ _ hsuperseded (by decide)
    (recordedEvent_eq_some_iff.2 ⟨rfl, rfl⟩) (recordedEvent_eq_some_iff.2 ⟨rfl, rfl⟩)
  have houtcome := hsame.1
  revert houtcome
  decide

end Abtars
