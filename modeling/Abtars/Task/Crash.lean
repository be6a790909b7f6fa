import Abtars.Task.Recovery

/-!
# Settlements that crash

A settlement is compared with the recovery of each state a crash may leave it in.
-/

namespace Abtars

open Lib

structure CardEffect where
  status : CardStatus
  resultPath : Option String
  resultSummary : Option String
  error : Option String
  deliveryReady : Int

def KanbanCard.effect (card : KanbanCard) : CardEffect where
  status := card.status
  resultPath := card.resultPath
  resultSummary := card.resultSummary
  error := card.error
  deliveryReady := card.deliveryReady

structure SameSettlement (opts : SettleOptions) (db db' : Db) : Prop where
  event : db.taskRunHistory.get opts.run.runId = db'.taskRunHistory.get opts.run.runId
  state : db.taskState.get opts.entry.id = db'.taskState.get opts.entry.id
  outcome : (db.taskRuns.get opts.run.runId).map (·.outcome) =
    (db'.taskRuns.get opts.run.runId).map (·.outcome)
  card : (opts.cardId.bind db.kanbanBoard.get).map KanbanCard.effect =
    (opts.cardId.bind db'.kanbanBoard.get).map KanbanCard.effect

/-- Recovered from any crash between two of its writes, the settlement is as without. -/
def CrashEquivalent (host : SettlerHost) (now : Millis) (boot : RecoveryHost)
    (entries : List ScheduledTask) (opts : SettleOptions) (db : Db) : Prop :=
  ∀ crashed ∈ (settleCourse host now opts db).crashStates,
    SameSettlement opts (recover boot entries crashed) (settleRunOnce host now opts db).2

/-- A settlement survives its crashes, and calls after it settle every run once. -/
def SettlementSound (host : SettlerHost) (now : Millis) (boot : RecoveryHost)
    (entries : List ScheduledTask) (opts : SettleOptions) (db : Db) : Prop :=
  CrashEquivalent host now boot entries opts db ∧
    ∀ runId calls, SettledOnce host runId db calls

def GetsToSettle (opts : SettleOptions) (db : Db) : Prop :=
  db.taskRunHistory.get opts.run.runId = none ∧
    (ownedState db opts.entry.id opts.run.runId).isSome

instance (opts : SettleOptions) (db : Db) : Decidable (GetsToSettle opts db) :=
  inferInstanceAs (Decidable (_ ∧ _))

def LiveOutcomesOpen (db : Db) : Prop :=
  ∀ run ∈ db.taskRuns, run.finishedAt = none → run.outcome = none

section Crash

variable {host : SettlerHost} {now : Millis} {opts : SettleOptions} {db : Db}

/-! ## The patch without the hint -/

/-! ## Outcomes and open runs -/

/-! ## Where a settlement gets -/

theorem readState_of_owned {taskId runId : String} {state : TaskStateRow}
    (h : ownedState db taskId runId = some state) :
    ∃ run, readState db taskId = some (state, some run) ∧ run.runId = runId ∧
      db.taskRuns.get runId = some run ∧ run.finishedAt = none := by
  obtain ⟨run, hactive, hget, hopen⟩ := ownedState_row h
  have hid : run.runId = runId := Table.key_of_get hget
  refine ⟨run, ?_, hid, hget, hopen⟩
  cases hstate : db.taskState.get taskId with
  | none => simp [ownedState, readState, hstate] at h
  | some row =>
    have hrow : row = state := by simpa [ownedState, readState, hstate, hactive, hid] using h
    rw [readState, hstate, Option.map_some, hactive, hrow]

structure FourWrites (host : SettlerHost) (now : Millis) (opts : SettleOptions) (db : Db)
    (run : TaskRunRow) (state : TaskStateRow) (appended finished recorded settled : Db) : Prop where
  course : settleCourse host now opts db = .won appended finished recorded settled
  read : readState appended opts.entry.id = some (state, some run)
  runId : run.runId = opts.run.runId
  live : db.taskRuns.get opts.run.runId = some run
  isOpen : run.finishedAt = none
  runs : appended.taskRuns = db.taskRuns
  event : appended.taskRunHistory.get opts.run.runId = some (settleEvent host.rt now opts db)
  finish : finished.taskRuns.get opts.run.runId = some (finishRun now run)
  record : recorded = setRunOutcome opts.run.runId (settleEvent host.rt now opts db).outcome finished
  settle : settled.taskRuns = recorded.taskRuns

theorem fourWrites_of_gets (host : SettlerHost) (now : Millis) (hgets : GetsToSettle opts db) :
    ∃ run state appended finished recorded settled,
      FourWrites host now opts db run state appended finished recorded settled := by
  obtain ⟨hfree, howned⟩ := hgets
  rcases settleCourse_cases host now opts db with
    ⟨old, hold, -⟩ | ⟨history, -, happend, ⟨hnone, -⟩ | ⟨state, hstate, hcourse⟩⟩
  · rw [hfree] at hold
    cases hold
  · rw [hnone] at howned
    cases howned
  · obtain ⟨run, hread, hid, hget, hopen⟩ := readState_of_owned hstate
    rcases finishCourse_cases host now opts.entry opts.run.runId _
      (opts.effects (settleEvent host.rt now opts db) (settleVerdict host.rt now opts db).2)
      { db with taskRunHistory := history } with
      ⟨hclosed, -⟩ | ⟨_, finished, recorded, -, -, hfinished, hrecorded, hwon⟩
    · exact absurd hopen (hclosed run hget)
    · refine ⟨run, state, _, finished, recorded, _, hcourse.trans hwon, hread, hid, hget, hopen, rfl,
        ?_, ?_, hrecorded, taskRuns_sideEffects _ _⟩
      · -- the run is open, so retention spares the event just appended
        have hprotected : historyProtected db (settleEvent host.rt now opts db) = true := by
          show (db.taskRuns.get opts.run.runId).any (fun run => run.finishedAt = none) = true
          simp [hget, hopen]
        exact get_of_appended happend hprotected
      · rw [hfinished]
        exact get_finishedUnder hget

theorem outcome_settleRunOnce (host : SettlerHost) (now : Millis) (hlive : LiveOutcomesOpen db)
    (hgets : GetsToSettle opts db) :
    ((settleRunOnce host now opts db).2.taskRuns.get opts.run.runId).map (·.outcome) =
      some (some (settleEvent host.rt now opts db).outcome.text) := by
  obtain ⟨run, _, _, _, _, _, hwrites⟩ := fourWrites_of_gets host now hgets
  have hnone : (finishRun now run).outcome = none :=
    hlive run (Table.mem_of_get hwrites.live) hwrites.isOpen
  rw [settleRunOnce, hwrites.course, SettleCourse.final, hwrites.settle, hwrites.record,
    get_setRunOutcome hwrites.finish rfl hnone]
  rfl

/-- **A crash right after the run was finished is never repaired**: recovery skips a
task without a live run, and the run stays without an outcome. -/
theorem finished_unrecorded (host : SettlerHost) (now : Millis) (hlive : LiveOutcomesOpen db)
    (hgets : GetsToSettle opts db) :
    ∃ finished ∈ (settleCourse host now opts db).crashStates, ∀ boot entries,
      ((recover boot entries finished).taskRuns.get opts.run.runId).map (·.outcome) =
        some none := by
  obtain ⟨run, _, _, finished, _, _, hwrites⟩ := fourWrites_of_gets host now hgets
  refine ⟨finished, by simp [hwrites.course, SettleCourse.crashStates], ?_⟩
  intro boot entries
  rw [recover_finishedKept boot entries finished _ _ hwrites.finish rfl, Option.map_some]
  exact congrArg some (hlive run (Table.mem_of_get hwrites.live) hwrites.isOpen)

theorem crashStates_of_not_gets (hgets : ¬ GetsToSettle opts db) :
    (settleCourse host now opts db).crashStates = [] := by
  rcases settleCourse_cases host now opts db with
    ⟨_, -, hdup⟩ | ⟨history, hfree, -, ⟨-, hlate⟩ | ⟨state, hstate, -⟩⟩
  · rw [hdup]
    rfl
  · rw [hlate]
    rfl
  · refine absurd ⟨hfree, ?_⟩ hgets
    rw [hstate]
    rfl

/-! ## The repair that works -/

theorem get_patchTaskState {taskId : String} {patch : TaskStatePatch}
    {states : Table TaskStateRow} {state : TaskStateRow} (hget : states.get taskId = some state) :
    (patchTaskState taskId patch states).get taskId = some (patch.apply state) := by
  unfold patchTaskState
  rw [Table.get_modify_same, Table.get_insertOrIgnore_of_some hget, Option.map_some]

/-! ## The condition -/

/-- **A settlement survives every crash exactly when it does not get to finish its run**;
whatever it does, every run is settled once. -/
theorem settlement_sound_iff (host : SettlerHost) (now : Millis) (boot : RecoveryHost)
    (entries : List ScheduledTask) (opts : SettleOptions) (db : Db) (hlive : LiveOutcomesOpen db) :
    SettlementSound host now boot entries opts db ↔ ¬ GetsToSettle opts db := by
  constructor
  · rintro ⟨hequivalent, -⟩ hgets
    obtain ⟨finished, hcrash, hlost⟩ := finished_unrecorded host now hlive hgets
    have hsame := (hequivalent finished hcrash).outcome
    rw [hlost boot entries, outcome_settleRunOnce host now hlive hgets] at hsame
    cases Option.some.inj hsame
  intro hgets
  constructor
  · intro crashed hcrash
    rw [crashStates_of_not_gets hgets] at hcrash
    cases hcrash
  · intro runId calls
    exact settledOnce host runId db calls

end Crash

/-! ## A crash -/

def plainHost : SettlerHost where
  rt := .plain
  nextOccurrence := fun _ _ => none

def plainBoot : RecoveryHost where
  host := plainHost
  now := 9
  ownerGone := fun _ => true
  reattachProject := fun _ _ => false
  requestCancel := fun _ _ _ => none

def scriptTask : ScheduledTask := ⟨"task", .script, none, none⟩

def successSettle : SettleOptions :=
  plainSettle scriptTask (reservedRun "r" "task" "g" 1 .schedule 0 0 1000) .success

def ownedDb : Db :=
  { reservedDb with taskState := Table.ofRows [defaultTaskState "task"] }

theorem settlement_of_ownedDb :
    SettlementSound plainHost 5 plainBoot [scriptTask] successSettle ownedDb ↔
      ¬ GetsToSettle successSettle ownedDb :=
  settlement_sound_iff plainHost 5 plainBoot [scriptTask] successSettle ownedDb (by
    intro run hrun _
    have hrow : run = reservedRun "r" "task" "g" 1 .schedule 0 0 1000 := List.mem_singleton.1 hrun
    rw [hrow]
    rfl)

/-- The run of a process that dies between the finish and the outcome is never given one. -/
theorem crash_loses_outcome :
    ¬ SettlementSound plainHost 5 plainBoot [scriptTask] successSettle ownedDb := by
  rintro ⟨hequivalent, -⟩
  have hcrash : (settleCourse plainHost 5 successSettle ownedDb).crashStates[1]? ≠ none := by
    decide
  obtain ⟨crashed, hat⟩ := Option.ne_none_iff_exists'.1 hcrash
  have hsame := (hequivalent crashed (List.mem_of_getElem? hat)).outcome
  have hcrashed : crashed =
      ((settleCourse plainHost 5 successSettle ownedDb).crashStates[1]?).getD ownedDb := by
    rw [hat, Option.getD_some]
  rw [hcrashed] at hsame
  revert hsame
  decide

end Abtars
