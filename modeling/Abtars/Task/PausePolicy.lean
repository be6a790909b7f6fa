import Abtars.Task.Crash

/-!
# The pause policy over whole runs

The settlements of one task are a run over its state row: each applies the patch its
outcome and diagnostic ask for.  The failure streak, the pause and the schedule are
specified against a count that is kept on the side.
-/

namespace Abtars

open Lib

/-! ## Settlements of one task -/

structure Settlement where
  now : Millis
  finishedAt : Millis
  run : TaskRunRow
  outcome : TaskOutcome
  diagnostic : TaskFailureDiagnostic
  retryAt : Option Millis

variable (host : SettlerHost)

def applySettlement (entry : ScheduledTask) (state : TaskStateRow) (s : Settlement) :
    TaskStateRow :=
  (computeStatePatch host s.now entry s.run s.outcome s.diagnostic state s.finishedAt
    s.retryAt).apply state

def settlementOf (now : Millis) (opts : SettleOptions) (db : Db) :
    Settlement where
  now := now
  finishedAt := now
  run := opts.run
  outcome := (settleVerdict host.rt now opts db).1
  diagnostic := (settleVerdict host.rt now opts db).2
  retryAt := opts.retryAt

/-- **A settlement that wins its run applies its patch to the task's state.** -/
theorem settled_state (now : Millis) {opts : SettleOptions} {db : Db} {state : TaskStateRow}
    (hfree : db.taskRunHistory.get opts.run.runId = none)
    (howned : ownedState db opts.entry.id opts.run.runId = some state) :
    (settleRunOnce host now opts db).2.taskState.get opts.entry.id =
      some (applySettlement host opts.entry state (settlementOf host now opts db)) := by
  obtain ⟨run, hread, -, hget, hopen⟩ := readState_of_owned howned
  have hstate : db.taskState.get opts.entry.id = some state := by
    obtain ⟨_, hrow, hpair⟩ := Option.map_eq_some_iff.1 hread
    rw [hrow, (Prod.mk.inj hpair).1]
  rcases settleCourse_cases host now opts db with
    ⟨old, hold, -⟩ | ⟨history, -, -, ⟨hnone, -⟩ | ⟨state', howned', hcourse⟩⟩
  · rw [hfree] at hold
    cases hold
  · rw [howned] at hnone
    cases hnone
  · obtain rfl : state = state' := Option.some.inj (howned.symm.trans howned')
    rcases finishCourse_cases host now opts.entry opts.run.runId _
      (opts.effects (settleEvent host.rt now opts db) (settleVerdict host.rt now opts db).2)
      { db with taskRunHistory := history } with
      ⟨hclosed, -⟩ | ⟨_, finished, recorded, -, -, hfinished, hrecorded, hwon⟩
    · exact absurd hopen (hclosed run hget)
    · obtain ⟨_, _, _, _, hboard⟩ := sideEffects_boardOnly host.rt now
        (opts.effects (settleEvent host.rt now opts db) (settleVerdict host.rt now opts db).2)
        recorded
      rw [settleRunOnce, hcourse, hwon, SettleCourse.final, hboard]
      rw [hrecorded, hfinished]
      exact get_patchTaskState hstate

/-! ## The policy -/

def TaskOutcome.isFailure : TaskOutcome → Bool
  | .failed | .cancelled | .definitionFailed | .timedOut => true
  | _ => false

variable (s : Settlement)

/-- Does the policy count the group?  A retryable fault of the first attempt does not
end it; an admission that was given up does. -/
def policyCounts : Bool :=
  match decideFailurePolicy s.diagnostic with
  | .count _ => true
  | .retry => s.run.attempt ≠ 1
  | .defer => s.outcome = .failed ∧ s.diagnostic.code = "executor_unavailable"
  | .clear => false

def countsGroup : Bool :=
  s.run.trigger ≠ .manual ∧ (s.outcome.isFailure ∨ s.outcome = .deferred) ∧ policyCounts s

def pausesAtOnce (diagnostic : TaskFailureDiagnostic) : Bool :=
  match diagnostic.category with
  | .definition => true
  | .routing => diagnostic.retryability = .permanent
  | .supervision =>
    diagnostic.code = "criterion_unevidenced" ∨ diagnostic.code = "contract_uncovered"
  | _ => false

def streakStep (count : Nat) (s : Settlement) : Nat :=
  if s.outcome = .success then 0
  else if countsGroup s then count + 1
  else count

structure SameSchedule (state state' : TaskStateRow) : Prop where
  nextRunAt : state'.nextRunAt = state.nextRunAt
  consecutiveFailures : state'.consecutiveFailures = state.consecutiveFailures
  consecutiveDeferrals : state'.consecutiveDeferrals = state.consecutiveDeferrals
  autoPaused : state'.autoPaused = state.autoPaused
  pausedAt : state'.pausedAt = state.pausedAt
  retryAt : state'.retryAt = state.retryAt
  retrying : state'.retrying = state.retrying
  retryGroupId : state'.retryGroupId = state.retryGroupId
  retryAttempt : state'.retryAttempt = state.retryAttempt
  priorFailure : state'.priorFailure = state.priorFailure
  deferredAdmission : state'.deferredAdmission = state.deferredAdmission

/-- One settlement keeps to the policy: it moves the streak as the count moves, pauses
exactly at the threshold or at once, and a manual run only reports. -/
structure PolicyStep (host : SettlerHost) (entry : ScheduledTask) (state : TaskStateRow)
    (count : Nat) (s : Settlement) : Prop where
  streak : (applySettlement host entry state s).consecutiveFailures = streakStep count s
  pauses : state.autoPaused = false →
    ((applySettlement host entry state s).autoPaused = true ↔
      countsGroup s = true ∧
        (streakStep count s = autoPauseFailureThreshold ∨ pausesAtOnce s.diagnostic = true))
  stays : state.autoPaused = true → (applySettlement host entry state s).autoPaused = true
  manual : s.run.trigger = .manual → s.outcome ≠ .deferred → s.outcome.isHealthy = false →
    SameSchedule state (applySettlement host entry state s)

/-- The admission failure of a manual run: the run did not start, and the outcome that
says so is no deferral. -/
def manualAdmissionFailure : Bool :=
  s.run.trigger = .manual ∧ s.outcome.isFailure ∧ s.diagnostic.category = .admission

/-- The state and the count belong together, and an unpaused task is below the threshold. -/
structure StreakKept (state : TaskStateRow) (count : Nat) : Prop where
  streak : state.consecutiveFailures = count
  below : state.autoPaused = false → count < autoPauseFailureThreshold

section Patches

variable {host : SettlerHost} {now : Millis} {entry : ScheduledTask}

@[simp]
theorem withNextRun_consecutiveFailures (patch : TaskStatePatch) :
    (withNextRun host now entry patch).consecutiveFailures = patch.consecutiveFailures := by
  unfold withNextRun
  split
  · rfl
  · split <;> rfl

@[simp]
theorem withNextRun_autoPaused (patch : TaskStatePatch) :
    (withNextRun host now entry patch).autoPaused = patch.autoPaused := by
  unfold withNextRun
  split
  · rfl
  · split <;> rfl

variable (diagnostic : TaskFailureDiagnostic)

theorem failurePatch_streak (state : TaskStateRow) (finishedAt : Millis) (pauseNow : Bool) :
    (failurePatch host now entry diagnostic state finishedAt pauseNow).consecutiveFailures =
      some (state.consecutiveFailures + 1) := by
  unfold failurePatch
  dsimp only
  split <;> rfl

theorem failurePatch_pause (state : TaskStateRow) (finishedAt : Millis) (pauseNow : Bool) :
    (failurePatch host now entry diagnostic state finishedAt pauseNow).autoPaused =
      if pauseNow ∨ autoPauseFailureThreshold ≤ state.consecutiveFailures + 1 then some true
      else none := by
  unfold failurePatch
  dsimp only
  split
  · rfl
  · rw [withNextRun_autoPaused]
    rfl

theorem pausesAtOnce_of_policy {diagnostic : TaskFailureDiagnostic} :
    pausesAtOnce diagnostic = decide (decideFailurePolicy diagnostic = .count true) := by
  unfold pausesAtOnce decideFailurePolicy
  cases diagnostic.category <;> simp <;> split <;> simp

variable {state : TaskStateRow} {s : Settlement}

theorem patch_of_counted (hcounts : countsGroup s = true) :
    computeStatePatch host s.now entry s.run s.outcome s.diagnostic state s.finishedAt s.retryAt =
      failurePatch host s.now entry s.diagnostic state s.finishedAt
        (pausesAtOnce s.diagnostic) := by
  obtain ⟨hscheduled, hended, hcounted⟩ : s.run.trigger ≠ .manual ∧
      (s.outcome.isFailure = true ∨ s.outcome = .deferred) ∧ policyCounts s = true := by
    simpa [countsGroup] using hcounts
  have hpolicy : policyPatch host s.now entry s.run s.outcome s.diagnostic state s.finishedAt
      s.retryAt = failurePatch host s.now entry s.diagnostic state s.finishedAt
        (pausesAtOnce s.diagnostic) := by
    rw [pausesAtOnce_of_policy]
    unfold policyPatch
    unfold policyCounts at hcounted
    cases hdecision : decideFailurePolicy s.diagnostic with
    | count pauseNow => cases pauseNow <;> simp [hscheduled]
    | clear => simp [hdecision] at hcounted
    | retry =>
      have hattempt : s.run.attempt ≠ 1 := by simpa [hdecision] using hcounted
      simp [hscheduled, hattempt]
    | defer =>
      have hgivenUp : s.outcome = .failed ∧ s.diagnostic.code = "executor_unavailable" := by
        simpa [hdecision] using hcounted
      simp [hgivenUp]
  unfold computeStatePatch
  cases houtcome : s.outcome <;> simp_all [TaskOutcome.isFailure]

/-- The policy of an uncounted group writes neither the streak nor the pause. -/
theorem policyPatch_of_uncounted (host : SettlerHost) (entry : ScheduledTask)
    (state : TaskStateRow) (hended : s.outcome.isFailure = true ∨ s.outcome = .deferred)
    (hcounts : countsGroup s = false) (hmanual : manualAdmissionFailure s = false) :
    (policyPatch host s.now entry s.run s.outcome s.diagnostic state s.finishedAt
        s.retryAt).consecutiveFailures = none ∧
      (policyPatch host s.now entry s.run s.outcome s.diagnostic state s.finishedAt
        s.retryAt).autoPaused = none := by
  unfold policyPatch
  dsimp only
  split
  · exact ⟨rfl, rfl⟩
  rename_i hscheduled
  cases hdecision : decideFailurePolicy s.diagnostic with
  | defer =>
    dsimp only
    split
    · -- an admission that was given up is counted, or is a manual run's
      rename_i hgivenUp
      have hadmission : s.diagnostic.category = .admission := by
        revert hdecision
        unfold decideFailurePolicy
        cases s.diagnostic.category <;> simp <;> split <;> simp
      by_cases htrigger : s.run.trigger = .manual
      · simp [manualAdmissionFailure, htrigger, hgivenUp.1, TaskOutcome.isFailure,
          hadmission] at hmanual
      · simp [countsGroup, policyCounts, htrigger, hgivenUp, hdecision,
          TaskOutcome.isFailure] at hcounts
    · exact ⟨rfl, rfl⟩
  | clear => exact ⟨by simp [reportPatch, TaskStatePatch.closeOccurrence, TaskStatePatch.empty],
      by simp [reportPatch, TaskStatePatch.closeOccurrence, TaskStatePatch.empty]⟩
  | retry =>
    have htrigger : s.run.trigger ≠ .manual := fun h => hscheduled ⟨h, by simp [hdecision]⟩
    dsimp only
    split
    · exact ⟨rfl, rfl⟩
    · rename_i hattempt
      simp [countsGroup, policyCounts, htrigger, hended, hdecision, hattempt] at hcounts
  | count pauseNow =>
    have htrigger : s.run.trigger ≠ .manual := fun h => hscheduled ⟨h, by simp [hdecision]⟩
    simp [countsGroup, policyCounts, htrigger, hended, hdecision] at hcounts

/-- Any other settlement but a success, and but an admission failure of a manual run,
writes neither the streak nor the pause. -/
theorem patch_of_uncounted (hcounts : countsGroup s = false)
    (hmanual : manualAdmissionFailure s = false) (hsuccess : s.outcome ≠ .success) :
    (computeStatePatch host s.now entry s.run s.outcome s.diagnostic state s.finishedAt
        s.retryAt).consecutiveFailures = none ∧
      (computeStatePatch host s.now entry s.run s.outcome s.diagnostic state s.finishedAt
        s.retryAt).autoPaused = none := by
  have hclosed : ∀ patch : TaskStatePatch, patch.consecutiveFailures = none →
      patch.autoPaused = none →
      (withNextRun host s.now entry patch.closeOccurrence).consecutiveFailures = none ∧
        (withNextRun host s.now entry patch.closeOccurrence).autoPaused = none := by
    intro patch hstreak hpause
    constructor
    · rw [withNextRun_consecutiveFailures]
      exact hstreak
    · rw [withNextRun_autoPaused]
      exact hpause
  have hpolicy := policyPatch_of_uncounted (s := s) host entry state
  unfold computeStatePatch
  cases houtcome : s.outcome with
  | success => exact absurd houtcome hsuccess
  | noop => exact hclosed _ rfl rfl
  | skipped => exact hclosed _ rfl rfl
  | unknown =>
    dsimp only
    split
    · exact ⟨rfl, rfl⟩
    · exact hclosed _ rfl rfl
  | deferred => simpa [houtcome] using hpolicy (.inr houtcome) hcounts hmanual
  | definitionFailed =>
    simpa [houtcome] using hpolicy (.inl (by rw [houtcome]; rfl)) hcounts hmanual
  | _ => simpa [houtcome] using hpolicy (.inl (by rw [houtcome]; rfl)) hcounts hmanual

theorem patch_of_manual (htrigger : s.run.trigger = .manual) (hended : s.outcome ≠ .deferred)
    (hunhealthy : s.outcome.isHealthy = false) (hmanual : manualAdmissionFailure s = false) :
    computeStatePatch host s.now entry s.run s.outcome s.diagnostic state s.finishedAt s.retryAt =
      reportPatch s.finishedAt s.diagnostic := by
  have hpolicy : s.outcome.isFailure = true →
      policyPatch host s.now entry s.run s.outcome s.diagnostic state s.finishedAt s.retryAt =
        reportPatch s.finishedAt s.diagnostic := by
    intro hfailure
    have hnoDefer : decideFailurePolicy s.diagnostic ≠ .defer := by
      have hcategory : s.diagnostic.category ≠ .admission := by
        simpa [manualAdmissionFailure, htrigger, hfailure] using hmanual
      unfold decideFailurePolicy
      cases hcase : s.diagnostic.category <;> simp_all <;> split <;> simp
    unfold policyPatch
    simp [htrigger, hnoDefer]
  unfold computeStatePatch
  cases houtcome : s.outcome with
  | success => simp [houtcome, TaskOutcome.isHealthy] at hunhealthy
  | noop => simp [houtcome, TaskOutcome.isHealthy] at hunhealthy
  | skipped => simp [houtcome, TaskOutcome.isHealthy] at hunhealthy
  | deferred => exact absurd houtcome hended
  | unknown => simp [htrigger]
  | _ => simpa [houtcome] using hpolicy (by rw [houtcome]; rfl)

theorem patch_of_manualAdmission (host : SettlerHost) (entry : ScheduledTask)
    (state : TaskStateRow) (hmanual : manualAdmissionFailure s = true) :
    computeStatePatch host s.now entry s.run s.outcome s.diagnostic state s.finishedAt s.retryAt =
        failurePatch host s.now entry s.diagnostic state s.finishedAt false ∨
      computeStatePatch host s.now entry s.run s.outcome s.diagnostic state s.finishedAt
          s.retryAt =
        deferPatch s.run s.diagnostic state s.finishedAt s.retryAt := by
  obtain ⟨-, hfailure, hcategory⟩ : s.run.trigger = .manual ∧ s.outcome.isFailure = true ∧
      s.diagnostic.category = .admission := by
    simpa [manualAdmissionFailure] using hmanual
  have hdefer : decideFailurePolicy s.diagnostic = .defer := by
    simp [decideFailurePolicy, hcategory]
  have hpolicy : computeStatePatch host s.now entry s.run s.outcome s.diagnostic state
      s.finishedAt s.retryAt = policyPatch host s.now entry s.run s.outcome s.diagnostic state
        s.finishedAt s.retryAt := by
    unfold computeStatePatch
    cases houtcome : s.outcome <;> simp_all [TaskOutcome.isFailure]
  rw [hpolicy]
  unfold policyPatch
  simp only [hdefer, ne_eq, not_true_eq_false, and_false, if_false]
  split
  · exact .inl rfl
  · exact .inr rfl

end Patches

section Step

variable {host : SettlerHost} {entry : ScheduledTask} {state : TaskStateRow} {count : Nat}
  {s : Settlement}

theorem consecutiveFailures_applySettlement :
    (applySettlement host entry state s).consecutiveFailures =
      (computeStatePatch host s.now entry s.run s.outcome s.diagnostic state s.finishedAt
        s.retryAt).consecutiveFailures.getD state.consecutiveFailures := rfl

theorem autoPaused_applySettlement :
    (applySettlement host entry state s).autoPaused =
      (computeStatePatch host s.now entry s.run s.outcome s.diagnostic state s.finishedAt
        s.retryAt).autoPaused.getD state.autoPaused := rfl

theorem not_counted_of_success (hsuccess : s.outcome = .success) : countsGroup s = false := by
  simp [countsGroup, hsuccess, TaskOutcome.isFailure]

theorem streak_applySettlement (hkept : StreakKept state count)
    (hmanual : manualAdmissionFailure s = false) :
    (applySettlement host entry state s).consecutiveFailures = streakStep count s := by
  rw [consecutiveFailures_applySettlement]
  by_cases hsuccess : s.outcome = .success
  · simp [computeStatePatch, hsuccess, streakStep]
  rw [streakStep, if_neg hsuccess]
  by_cases hcounts : countsGroup s = true
  · rw [if_pos hcounts, patch_of_counted hcounts, failurePatch_streak, Option.getD_some,
      hkept.streak]
  · rw [if_neg hcounts, (patch_of_uncounted (by simpa using hcounts) hmanual hsuccess).1,
      Option.getD_none, hkept.streak]

theorem pause_applySettlement (hkept : StreakKept state count)
    (hmanual : manualAdmissionFailure s = false) :
    (applySettlement host entry state s).autoPaused =
      (state.autoPaused || (countsGroup s && (pausesAtOnce s.diagnostic ||
        decide (autoPauseFailureThreshold ≤ count + 1)))) := by
  rw [autoPaused_applySettlement]
  by_cases hcounts : countsGroup s = true
  · rw [patch_of_counted hcounts, failurePatch_pause, hcounts, hkept.streak]
    by_cases hpause : pausesAtOnce s.diagnostic = true ∨ autoPauseFailureThreshold ≤ count + 1
    · rw [if_pos hpause]
      have hpauses : (pausesAtOnce s.diagnostic ||
          decide (autoPauseFailureThreshold ≤ count + 1)) = true := by simpa using hpause
      simp [hpauses]
    rw [if_neg hpause]
    have hpauses : (pausesAtOnce s.diagnostic ||
        decide (autoPauseFailureThreshold ≤ count + 1)) = false := by simpa using hpause
    simp [hpauses]
  · have hcounts : countsGroup s = false := by simpa using hcounts
    rw [hcounts]
    by_cases hsuccess : s.outcome = .success
    · simp [computeStatePatch, hsuccess, healthyPatch, TaskStatePatch.closeOccurrence,
        TaskStatePatch.empty]
    · rw [(patch_of_uncounted hcounts hmanual hsuccess).2]
      simp

/-- A settlement that is no admission failure of a manual run keeps to the policy. -/
theorem policyStep_of_not_manualAdmission (hkept : StreakKept state count)
    (hmanual : manualAdmissionFailure s = false) : PolicyStep host entry state count s where
  streak := streak_applySettlement hkept hmanual
  pauses := by
    intro hrunning
    have hbelow := hkept.below hrunning
    have hcount : countsGroup s = true → streakStep count s = count + 1 := by
      intro hcounts
      have hsuccess : s.outcome ≠ .success := by
        intro hsuccess
        rw [not_counted_of_success hsuccess] at hcounts
        cases hcounts
      rw [streakStep, if_neg hsuccess, if_pos hcounts]
    rw [pause_applySettlement hkept hmanual, hrunning]
    constructor
    · intro hpaused
      obtain ⟨hcounts, hpause⟩ : countsGroup s = true ∧
          (pausesAtOnce s.diagnostic = true ∨ autoPauseFailureThreshold ≤ count + 1) := by
        simpa using hpaused
      refine ⟨hcounts, ?_⟩
      rw [hcount hcounts]
      rcases hpause with hpause | hpause
      · exact .inr hpause
      · exact .inl (by omega)
    · rintro ⟨hcounts, hpause⟩
      rw [hcount hcounts] at hpause
      rcases hpause with hpause | hpause
      · simp [hcounts, hpause]
      · simp [hcounts, hpause]
  stays := by
    intro hpaused
    rw [pause_applySettlement hkept hmanual, hpaused, Bool.true_or]
  manual := by
    intro htrigger hended hunhealthy
    have hreport : applySettlement host entry state s =
        (reportPatch s.finishedAt s.diagnostic).apply state := by
      rw [applySettlement, patch_of_manual htrigger hended hunhealthy hmanual]
    rw [hreport]
    exact ⟨rfl, rfl, rfl, rfl, rfl, rfl, rfl, rfl, rfl, rfl, rfl⟩

theorem not_policyStep_of_manualAdmission (hmanual : manualAdmissionFailure s = true) :
    ¬ PolicyStep host entry state count s := by
  intro hstep
  obtain ⟨htrigger, hfailure, -⟩ : s.run.trigger = .manual ∧ s.outcome.isFailure = true ∧
      s.diagnostic.category = .admission := by
    simpa [manualAdmissionFailure] using hmanual
  have hended : s.outcome ≠ .deferred := by
    intro h
    simp [h, TaskOutcome.isFailure] at hfailure
  have hunhealthy : s.outcome.isHealthy = false := by
    cases houtcome : s.outcome <;> simp_all [TaskOutcome.isFailure, TaskOutcome.isHealthy]
  have hsame := hstep.manual htrigger hended hunhealthy
  rcases patch_of_manualAdmission host entry state hmanual with
    hpatch | hpatch
  · have hstreak := hsame.consecutiveFailures
    rw [consecutiveFailures_applySettlement, hpatch, failurePatch_streak, Option.getD_some]
      at hstreak
    omega
  · have hdeferred := hsame.deferredAdmission
    rw [applySettlement, hpatch] at hdeferred
    have hattempts := congrArg (fun d : Option DeferredAdmission => (d.map (·.attempts)).getD 0)
      hdeferred
    simp [TaskStatePatch.apply, deferPatch, nextDeferral] at hattempts

theorem streakKept_of_not_manualAdmission (hkept : StreakKept state count)
    (hmanual : manualAdmissionFailure s = false) :
    StreakKept (applySettlement host entry state s) (streakStep count s) where
  streak := streak_applySettlement hkept hmanual
  below := by
    intro hrunning
    rw [pause_applySettlement hkept hmanual, Bool.or_eq_false_iff] at hrunning
    obtain ⟨hwas, hpause⟩ := hrunning
    have hbelow := hkept.below hwas
    unfold streakStep
    split
    · decide
    split
    · rename_i hcounts
      have hthreshold : ¬ autoPauseFailureThreshold ≤ count + 1 := by
        simp [hcounts] at hpause
        omega
      omega
    · exact hbelow

/-- **One settlement keeps to the policy exactly when it is no admission failure of a
manual run.** -/
theorem policyStep_iff (hkept : StreakKept state count) :
    PolicyStep host entry state count s ↔ manualAdmissionFailure s = false := by
  constructor
  · intro hstep
    by_contra hmanual
    exact not_policyStep_of_manualAdmission (by simpa using hmanual) hstep
  · exact policyStep_of_not_manualAdmission hkept

end Step

/-! ## Runs of settlements -/

def countedStep (host : SettlerHost) (entry : ScheduledTask) (p : TaskStateRow × Nat)
    (s : Settlement) : TaskStateRow × Nat :=
  (applySettlement host entry p.1 s, streakStep p.2 s)

def FollowsPausePolicy (host : SettlerHost) (entry : ScheduledTask) (state : TaskStateRow)
    (count : Nat) (settlements : List Settlement) : Prop :=
  StepsMeet (countedStep host entry) (fun p s => PolicyStep host entry p.1 p.2 s) (state, count)
    settlements

/-- **A run of settlements keeps to the pause policy exactly when none of them is an
admission failure of a manual run.** -/
theorem pause_policy_iff (host : SettlerHost) (entry : ScheduledTask) (state : TaskStateRow)
    (count : Nat) (settlements : List Settlement) (hkept : StreakKept state count) :
    FollowsPausePolicy host entry state count settlements ↔
      ∀ s ∈ settlements, manualAdmissionFailure s = false := by
  have hkeeps : ∀ (p : TaskStateRow × Nat) s, StreakKept p.1 p.2 →
      PolicyStep host entry p.1 p.2 s →
      StreakKept (countedStep host entry p s).1 (countedStep host entry p s).2 :=
    fun p s hp hstep => streakKept_of_not_manualAdmission hp ((policyStep_iff hp).1 hstep)
  have hagree : ∀ (p : TaskStateRow × Nat) s, StreakKept p.1 p.2 →
      (PolicyStep host entry p.1 p.2 s ↔ manualAdmissionFailure s = false) :=
    fun p s hp => policyStep_iff hp
  exact (stepsMeet_iff_of_kept (I := fun p => StreakKept p.1 p.2) hkeeps hagree settlements _
    hkept).trans (stepsMeet_forall settlements _)

/-! ## A manual run given up -/

def lastDeferral : DeferredAdmission where
  groupId := "g"
  occurrenceAt := 0
  deadlineAt := 1000000
  attempts := 5
  retryAt := 600000
  diagnostic := makeTaskFailure .plain 500000 (.executorUnavailable .transient) (.run .queued)
    "no executor"

def deferredState : TaskStateRow :=
  { defaultTaskState "task" with
    nextRunAt := some 600000
    deferredAdmission := some lastDeferral }

/-- A task whose scheduled occurrence is deferred and whose user starts it by hand. -/
def manualDb : Db :=
  { Db.empty with
    taskRuns := Table.ofRows [reservedRun "m" "task" "h" 1 .manual 550000 550000 2000000]
    taskState := Table.ofRows [deferredState] }

def manualDeferral : SettleOptions :=
  { plainSettle scriptTask (reservedRun "m" "task" "h" 1 .manual 550000 550000 2000000)
      .deferred with
    diagnostic := some lastDeferral.diagnostic }

def failedSettlement : Settlement where
  now := 5
  finishedAt := 5
  run := reservedRun "r" "task" "g" 1 .schedule 0 0 1000
  outcome := .failed
  diagnostic := makeTaskFailure .plain 5 .modelError (.run .executing) "failed"
  retryAt := none

theorem pause_policy_of_fresh :
    FollowsPausePolicy plainHost scriptTask (defaultTaskState "task") 0
        [failedSettlement, failedSettlement] ↔
      ∀ s ∈ [failedSettlement, failedSettlement], manualAdmissionFailure s = false :=
  pause_policy_iff plainHost scriptTask (defaultTaskState "task") 0
    [failedSettlement, failedSettlement] ⟨rfl, fun _ => by decide⟩

/-- The settlement of the manual run ends the scheduled occurrence and counts a failure. -/
theorem manual_deferral_counted :
    ¬ FollowsPausePolicy plainHost scriptTask deferredState 0
      [settlementOf plainHost 560000 manualDeferral manualDb] := by
  rintro ⟨hstep, -⟩
  have hstreak := hstep.streak
  revert hstreak
  decide

end Abtars
