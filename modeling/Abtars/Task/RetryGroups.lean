import Abtars.Task.Deferral

/-!
# Retries and the groups they belong to

The retry intent of a task is a set of flags on its state row.  A run of the system is
any interleaving of checks, manual runs, settlements, pauses and resumes; a chronicle
keeps the reservations made and the settlements that won, in order.
-/

namespace Abtars

open Lib

/-! ## Settlements by what they ask for -/

variable (s : Settlement)

def Settlement.refused : Bool :=
  (s.outcome.isFailure ∨ s.outcome = .deferred) ∧ s.diagnostic.category = .admission

def Settlement.executed : Bool := ¬ s.refused

def Settlement.transientFailure : Bool :=
  (s.outcome.isFailure ∨ s.outcome = .deferred) ∧ decideFailurePolicy s.diagnostic = .retry

def Settlement.putsOff : Bool :=
  s.refused ∧ ¬ (s.outcome = .failed ∧ s.diagnostic.code = "executor_unavailable")

def TaskStatePatch.closes (patch : TaskStatePatch) : Prop :=
  patch.retrying = some false ∧ patch.deferredAdmission = some none

inductive PatchShape (s : Settlement) (state : TaskStateRow) (patch : TaskStatePatch) : Prop
  | closes (hpatch : patch.closes)
  | reports (htrigger : s.run.trigger = .manual)
      (hpatch : patch = reportPatch s.finishedAt s.diagnostic)
  | defers (hputsOff : s.putsOff = true)
      (hpatch : patch = deferPatch s.run s.diagnostic state s.finishedAt s.retryAt)
  | retries (htrigger : s.run.trigger ≠ .manual) (hattempt : s.run.attempt = 1)
      (htransient : s.transientFailure = true)
      (hpatch : patch = retryPatch s.run s.diagnostic s.finishedAt)

section Shapes

variable {host : SettlerHost} {now : Millis} {entry : ScheduledTask} {state : TaskStateRow}
  {s : Settlement}

theorem closes_withNextRun (host : SettlerHost) (now : Millis) (entry : ScheduledTask)
    (patch : TaskStatePatch) : (withNextRun host now entry patch.closeOccurrence).closes := by
  unfold withNextRun
  split
  · exact ⟨rfl, rfl⟩
  · split
    · exact ⟨rfl, rfl⟩
    · exact ⟨rfl, rfl⟩

theorem closes_failurePatch (diagnostic : TaskFailureDiagnostic) (finishedAt : Millis)
    (pauseNow : Bool) :
    (failurePatch host now entry diagnostic state finishedAt pauseNow).closes := by
  have hcloses := closes_withNextRun host now entry (reportPatch finishedAt diagnostic)
  unfold failurePatch
  dsimp only
  split
  · exact hcloses
  · exact hcloses

theorem policyPatch_shape (host : SettlerHost) (entry : ScheduledTask) (state : TaskStateRow)
    (hended : s.outcome.isFailure = true ∨ s.outcome = .deferred) :
    PatchShape s state (policyPatch host s.now entry s.run s.outcome s.diagnostic state s.finishedAt
      s.retryAt) := by
  unfold policyPatch
  dsimp only
  split
  · rename_i hreports
    exact .reports hreports.1 rfl
  rename_i hscheduled
  cases hdecision : decideFailurePolicy s.diagnostic with
  | defer =>
    dsimp only
    have hadmission : s.diagnostic.category = .admission := by
      revert hdecision
      unfold decideFailurePolicy
      cases s.diagnostic.category <;> simp <;> split <;> simp
    split
    · exact .closes (closes_failurePatch _ _ _)
    rename_i hgoesOn
    refine .defers ?_ rfl
    rw [Settlement.putsOff, decide_eq_true_eq]
    exact ⟨by simp [Settlement.refused, hended, hadmission], hgoesOn⟩
  | clear => exact .closes (closes_withNextRun _ _ _ _)
  | retry =>
    have htrigger : s.run.trigger ≠ .manual := fun h => hscheduled ⟨h, by simp [hdecision]⟩
    dsimp only
    split
    · rename_i hattempt
      exact .retries htrigger hattempt (by simp [Settlement.transientFailure, hended, hdecision])
        rfl
    · exact .closes (closes_failurePatch _ _ _)
  | count pauseNow => exact .closes (closes_failurePatch _ _ _)

/-- **A settlement closes the occurrence, reports, defers it or asks for its retry.** -/
theorem patch_shape (host : SettlerHost) (entry : ScheduledTask) (state : TaskStateRow)
    (s : Settlement) :
    PatchShape s state (computeStatePatch host s.now entry s.run s.outcome s.diagnostic state
      s.finishedAt s.retryAt) := by
  have hpolicy := policyPatch_shape (s := s) host entry state
  unfold computeStatePatch
  cases houtcome : s.outcome with
  | success => exact .closes (closes_withNextRun _ _ _ _)
  | noop => exact .closes (closes_withNextRun _ _ _ _)
  | skipped => exact .closes (closes_withNextRun _ _ _ _)
  | unknown =>
    dsimp only
    split
    · rename_i hmanual
      exact .reports hmanual rfl
    · exact .closes (closes_withNextRun _ _ _ _)
  | deferred => simpa [houtcome] using hpolicy (.inr houtcome)
  | _ => simpa [houtcome] using hpolicy (.inl (by rw [houtcome]; rfl))

end Shapes

/-! ## Chronicles -/

/-- A task's database, the runs reserved and the settlements that won, in order. -/
structure Chronicle where
  db : Db
  reserved : List TaskRunRow
  ended : List Settlement

inductive TaskOp
  | check (now : Millis) (runId : String)
  | runManually (now : Millis) (runId : String)
  | settle (now : Millis) (runId : String) (opts : SettleOptions)
  | pause (now : Millis)
  | resume (now : Millis)

/-- The state row of a task, as `ensureTaskRow` would make it. -/
def stateOf (db : Db) (taskId : String) : TaskStateRow :=
  (db.taskState.get taskId).getD (defaultTaskState taskId)

def Chronicle.settle (host : CronHost) (now : Millis) (opts : SettleOptions) (c : Chronicle) :
    Chronicle :=
  { c with
    db := (settleRunOnce host.toSettlerHost now opts c.db).2
    ended := c.ended ++
      if GetsToSettle opts c.db then [settlementOf host.toSettlerHost now opts c.db] else [] }

variable (c : Chronicle)

def Chronicle.reserve (run : TaskRunRow) (db : Db) : Chronicle :=
  { c with db := db, reserved := c.reserved ++ [run] }

def heldOptions (entry : CronEntry) (opts : SettleOptions) (run : TaskRunRow) : SettleOptions :=
  { opts with entry := entry.toScheduledTask, run := run }

def taskStep (host : CronHost) (entry : CronEntry) (c : Chronicle) : TaskOp → Chronicle
  | .check now runId =>
    match cronReserved host now runId entry c.db with
    | none => { c with db := checkCron host now runId entry c.db }
    | some (run, db) =>
      if entry.kind = .reminder then
        (c.reserve run db).settle host now (reminderSettle entry run)
      else c.reserve run db
  | .runManually now runId =>
    match reserveManually host now runId entry c.db with
    | none => c
    | some (run, db) => c.reserve run db
  | .settle now runId opts =>
    match c.db.taskRuns.get runId with
    | none => c
    | some run => c.settle host now (heldOptions entry opts run)
  | .pause now => { c with db := pauseTask now entry.id c.db }
  | .resume now => { c with db := resumeAutoPaused host now entry c.db }

def reservationOf (host : CronHost) (entry : CronEntry) (c : Chronicle) : TaskOp → Option TaskRunRow
  | .check now runId => (cronReserved host now runId entry c.db).map (·.1)
  | .runManually now runId => (reserveManually host now runId entry c.db).map (·.1)
  | _ => none

/-- The instant the task waits for is one of its schedule: neither that of its retry nor
that of its deferral. -/
def dueBySchedule (state : TaskStateRow) : Bool :=
  ¬ (state.retrying ∧ state.nextRunAt = state.retryAt) ∧
    state.deferredAdmission.all fun deferred => state.nextRunAt ≠ some deferred.retryAt

def startsFresh (entry : CronEntry) (c : Chronicle) : TaskOp → Bool
  | .check _ _ => dueBySchedule (stateOf c.db entry.id)
  | .runManually _ _ => true
  | _ => false

def executedRetries (groupId : String) : Nat :=
  c.ended.countP fun s => s.run.attempt = 2 ∧ s.run.groupId = groupId ∧ s.executed

/-- One operation respects the groups: a retry belongs to a transient first failure, a
fresh occurrence has a group of its own, and no group has two executed retries. -/
structure RespectsGroups (host : CronHost) (entry : CronEntry) (c : Chronicle) (op : TaskOp) :
    Prop where
  retry : ∀ run, reservationOf host entry c op = some run → run.attempt = 2 →
    ∃ s ∈ c.ended, s.run.groupId = run.groupId ∧ s.run.attempt = 1 ∧ s.transientFailure = true
  fresh : ∀ run, reservationOf host entry c op = some run → startsFresh entry c op = true →
    run.attempt = 1 ∧ ∀ earlier ∈ c.reserved, earlier.groupId ≠ run.groupId
  once : ∀ groupId, executedRetries (taskStep host entry c op) groupId ≤ 1

def pending (state : TaskStateRow) : Bool := state.retrying ∨ state.deferredAdmission.isSome

/-- Nothing disturbs a pending retry or deferral: the schedule is not advanced over it, a
manual run is not put off over a pending retry, and the instant of a reservation names
a group that was not used. -/
def Undisturbed (host : CronHost) (entry : CronEntry) (c : Chronicle) : TaskOp → Prop
  | .check now _ =>
    ((scheduleReason host now entry c.db).skips = true →
      pending (stateOf c.db entry.id) = false) ∧
    (pending (stateOf c.db entry.id) = false →
      ∀ earlier ∈ c.reserved, earlier.groupId ≠ freshGroup entry.id now)
  | .runManually now _ => ∀ earlier ∈ c.reserved, earlier.groupId ≠ freshGroup entry.id now
  | .settle now runId opts =>
    ∀ run, c.db.taskRuns.get runId = some run → run.trigger = .manual →
      (stateOf c.db entry.id).retrying = true →
      (stateOf c.db entry.id).deferredAdmission = none →
      (settlementOf host.toSettlerHost now (heldOptions entry opts run) c.db).putsOff = false
  | .pause _ => True
  | .resume _ => True

/-! ## The invariant -/

def Chronicle.knows (groupId : String) : Prop :=
  ∃ run ∈ c.reserved, run.groupId = groupId

/-- A pending retry is that of a group whose first run failed transiently and whose retry
has not executed; the task waits for it, or for its deferral. -/
structure RetryPending (c : Chronicle) (state : TaskStateRow) (groupId : String) : Prop where
  group : state.retryGroupId = some groupId
  attempt : state.retryAttempt = some 1
  failed : ∃ s ∈ c.ended, s.run.groupId = groupId ∧ s.run.attempt = 1 ∧ s.transientFailure = true
  unexecuted : executedRetries c groupId = 0
  known : c.knows groupId
  deferral : ∀ deferred, state.deferredAdmission = some deferred → deferred.groupId = groupId
  due : state.deferredAdmission = none → state.nextRunAt = state.retryAt

structure DeferralPending (c : Chronicle) (state : TaskStateRow) (deferred : DeferredAdmission) :
    Prop where
  due : state.nextRunAt = some deferred.retryAt
  known : c.knows deferred.groupId
  unexecuted : state.retrying = false → executedRetries c deferred.groupId = 0

/-- A live run is the first attempt of a group without an executed retry, or the retry
that is pending. -/
structure LiveRun (c : Chronicle) (state : TaskStateRow) (run : TaskRunRow) : Prop where
  known : c.knows run.groupId
  attempt : run.attempt = 1 ∧ executedRetries c run.groupId = 0 ∧
      (run.trigger ≠ .manual → state.retrying = false) ∨
    run.attempt = 2 ∧ run.trigger ≠ .manual ∧ state.retrying = true ∧
      state.retryGroupId = some run.groupId

structure IntentKept (c : Chronicle) (state : TaskStateRow) : Prop where
  retry : state.retrying = true → ∃ groupId, RetryPending c state groupId
  deferral : ∀ deferred, state.deferredAdmission = some deferred →
    DeferralPending c state deferred

structure RetryKept (entry : CronEntry) (c : Chronicle) : Prop where
  once : ∀ groupId, executedRetries c groupId ≤ 1
  grouped : ∀ s ∈ c.ended, c.knows s.run.groupId
  single : ∀ run ∈ c.db.taskRuns, ∀ other ∈ c.db.taskRuns, run.isLive entry.id = true →
    other.isLive entry.id = true → run = other
  intent : IntentKept c (stateOf c.db entry.id)
  live : ∀ run ∈ c.db.taskRuns, run.isLive entry.id = true →
    LiveRun c (stateOf c.db entry.id) run

structure SameIntent (state state' : TaskStateRow) : Prop where
  retrying : state'.retrying = state.retrying
  retryGroupId : state'.retryGroupId = state.retryGroupId
  retryAttempt : state'.retryAttempt = state.retryAttempt
  retryAt : state'.retryAt = state.retryAt
  deferredAdmission : state'.deferredAdmission = state.deferredAdmission
  nextRunAt : state'.nextRunAt = state.nextRunAt

theorem SameIntent.refl (state : TaskStateRow) : SameIntent state state :=
  ⟨rfl, rfl, rfl, rfl, rfl, rfl⟩

structure Chronicle.Grows (c c' : Chronicle) : Prop where
  reserved : ∀ run ∈ c.reserved, run ∈ c'.reserved
  ended : ∀ s ∈ c.ended, s ∈ c'.ended

theorem Chronicle.Grows.knows {c c' : Chronicle} (h : c.Grows c') {groupId : String}
    (hknown : c.knows groupId) : c'.knows groupId := by
  obtain ⟨run, hrun, hgroup⟩ := hknown
  exact ⟨run, h.reserved run hrun, hgroup⟩

section Kept

variable {run : TaskRunRow} {host : CronHost} {entry : CronEntry} {c c' : Chronicle} {db : Db}

theorem RetryPending.mono {state state' : TaskStateRow} {groupId : String}
    (h : RetryPending c state groupId) (hsame : SameIntent state state') (hgrows : c.Grows c')
    (hcount : executedRetries c' groupId = executedRetries c groupId) :
    RetryPending c' state' groupId where
  group := hsame.retryGroupId.trans h.group
  attempt := hsame.retryAttempt.trans h.attempt
  failed := by
    obtain ⟨s, hs, hfailed⟩ := h.failed
    exact ⟨s, hgrows.ended s hs, hfailed⟩
  unexecuted := hcount.trans h.unexecuted
  known := hgrows.knows h.known
  deferral := by
    intro deferred hdeferred
    exact h.deferral deferred (hsame.deferredAdmission.symm.trans hdeferred)
  due := by
    intro hnone
    rw [hsame.nextRunAt, hsame.retryAt]
    exact h.due (hsame.deferredAdmission.symm.trans hnone)

theorem DeferralPending.mono {state state' : TaskStateRow} {deferred : DeferredAdmission}
    (h : DeferralPending c state deferred) (hsame : SameIntent state state') (hgrows : c.Grows c')
    (hcount : executedRetries c' deferred.groupId = executedRetries c deferred.groupId) :
    DeferralPending c' state' deferred where
  due := hsame.nextRunAt.trans h.due
  known := hgrows.knows h.known
  unexecuted := by
    intro hretrying
    exact hcount.trans (h.unexecuted (hsame.retrying.symm.trans hretrying))

theorem IntentKept.mono {state state' : TaskStateRow} (h : IntentKept c state)
    (hsame : SameIntent state state') (hgrows : c.Grows c')
    (hcount : ∀ groupId, executedRetries c' groupId = executedRetries c groupId) :
    IntentKept c' state' where
  retry := by
    intro hretrying
    obtain ⟨groupId, hpending⟩ := h.retry (hsame.retrying.symm.trans hretrying)
    exact ⟨groupId, hpending.mono hsame hgrows (hcount groupId)⟩
  deferral := by
    intro deferred hdeferred
    exact (h.deferral deferred (hsame.deferredAdmission.symm.trans hdeferred)).mono hsame hgrows
      (hcount deferred.groupId)

theorem IntentKept.of_none {state : TaskStateRow} (hretrying : state.retrying = false)
    (hdeferred : state.deferredAdmission = none) : IntentKept c state where
  retry := by
    intro h
    rw [hretrying] at h
    cases h
  deferral := by
    intro deferred h
    rw [hdeferred] at h
    cases h

theorem LiveRun.mono {state state' : TaskStateRow} {run : TaskRunRow} (h : LiveRun c state run)
    (hsame : SameIntent state state') (hgrows : c.Grows c')
    (hcount : executedRetries c' run.groupId = executedRetries c run.groupId) :
    LiveRun c' state' run where
  known := hgrows.knows h.known
  attempt := by
    rw [hcount, hsame.retrying, hsame.retryGroupId]
    exact h.attempt

theorem stateOf_of_get {taskId : String} {state : TaskStateRow}
    (h : db.taskState.get taskId = some state) : stateOf db taskId = state := by
  rw [stateOf, h, Option.getD_some]

/-- A group that was never reserved has no executed retry. -/
theorem executedRetries_of_unknown (hkept : RetryKept entry c) {groupId : String}
    (hnew : ∀ earlier ∈ c.reserved, earlier.groupId ≠ groupId) : executedRetries c groupId = 0 := by
  rw [executedRetries, List.countP_eq_zero]
  intro s hs
  obtain ⟨run, hrun, hgroup⟩ := hkept.grouped s hs
  have hother : s.run.groupId ≠ groupId := hgroup ▸ hnew run hrun
  simp [hother]

theorem RetryKept.of_state (hkept : RetryKept entry c) (hruns : db.taskRuns = c.db.taskRuns)
    (hstate : SameIntent (stateOf c.db entry.id) (stateOf db entry.id) ∨
      activeRun c.db entry.id = none ∧ (stateOf db entry.id).retrying = false ∧
        (stateOf db entry.id).deferredAdmission = none) :
    RetryKept entry { c with db := db } where
  once := hkept.once
  grouped := hkept.grouped
  single := by
    rw [show ({ c with db := db } : Chronicle).db.taskRuns = c.db.taskRuns from hruns]
    exact hkept.single
  intent := by
    rcases hstate with hsame | ⟨-, hretrying, hdeferred⟩
    · exact hkept.intent.mono hsame ⟨fun _ h => h, fun _ h => h⟩ fun _ => rfl
    · exact .of_none hretrying hdeferred
  live := by
    intro run hrun hlive
    have hmem : run ∈ c.db.taskRuns := hruns ▸ hrun
    rcases hstate with hsame | ⟨hidle, -⟩
    · exact (hkept.live run hmem hlive).mono hsame ⟨fun _ h => h, fun _ h => h⟩ rfl
    · obtain ⟨active, hactive⟩ := activeRun_of_mem hmem hlive
      rw [hidle] at hactive
      cases hactive

/-! ## Reservations -/

theorem stateOf_reserveRun {db' : Db} (h : reserveRun run db = some db') :
    stateOf db' run.taskId = stateOf db run.taskId := by
  obtain ⟨-, -, -, hstates⟩ := reserveRun_spec run.taskId h
  cases hget : db.taskState.get run.taskId with
  | some state => rw [stateOf_of_get (hstates state hget), stateOf_of_get hget]
  | none =>
    obtain ⟨runs, -, rfl⟩ := Option.map_eq_some_iff.1 h
    have hfits : db.taskState.Fits (fun _ => false) (defaultTaskState run.taskId) :=
      ⟨hget, fun _ _ => rfl⟩
    have hdefault : (ensureTaskRow run.taskId { db with taskRuns := runs }).taskState.get
        run.taskId = some (defaultTaskState run.taskId) := Table.get_insertOrIgnore_of_fits hfits
    rw [stateOf_of_get hdefault, stateOf, hget, Option.getD_none]

theorem grows_reserve (run : TaskRunRow) (db : Db) : c.Grows (c.reserve run db) :=
  ⟨fun _ h => List.mem_append_left _ h, fun _ h => h⟩

theorem knows_reserve (run : TaskRunRow) (db : Db) : (c.reserve run db).knows run.groupId :=
  ⟨run, List.mem_append_right _ (List.mem_singleton.2 rfl), rfl⟩

/-- **A reservation the intent asks for keeps the invariant.** -/
theorem RetryKept.reserve (hkept : RetryKept entry c)
    (htask : run.taskId = entry.id) (hreserved : reserveRun run c.db = some db)
    (hrow : LiveRun (c.reserve run db) (stateOf c.db entry.id) run) :
    RetryKept entry (c.reserve run db) := by
  obtain ⟨hidle, hrows, -, -⟩ := reserveRun_spec run.taskId hreserved
  have hstate : stateOf db entry.id = stateOf c.db entry.id := htask ▸ stateOf_reserveRun hreserved
  have hsame : SameIntent (stateOf c.db entry.id) (stateOf (c.reserve run db).db entry.id) := by
    rw [show stateOf (c.reserve run db).db entry.id = stateOf c.db entry.id from hstate]
    exact .refl _
  have hgrows : c.Grows (c.reserve run db) := grows_reserve run db
  have hnew : ∀ row ∈ (c.reserve run db).db.taskRuns, row.isLive entry.id = true → row = run := by
    intro row hmem hlive
    rcases (hrows row).1 hmem with hold | hrun
    · rw [← htask, hidle row hold] at hlive
      cases hlive
    · exact hrun
  constructor
  · exact hkept.once
  · intro s hs
    exact hgrows.knows (hkept.grouped s hs)
  · intro row hmem other hother hlive hotherLive
    rw [hnew row hmem hlive, hnew other hother hotherLive]
  · exact hkept.intent.mono hsame hgrows fun _ => rfl
  · intro row hmem hlive
    rw [hnew row hmem hlive]
    exact hrow.mono hsame ⟨fun _ h => h, fun _ h => h⟩ rfl

theorem cronReservation_of_retry {state : TaskStateRow} {groupId : String} (host : CronHost)
    (entry : CronEntry) (now : Millis) (runId : String) (hretrying : state.retrying = true)
    (hpending : RetryPending c state groupId) :
    (cronReservation host now runId entry state).groupId = groupId ∧
      (cronReservation host now runId entry state).attempt = 2 ∧
      (cronReservation host now runId entry state).trigger = .retry := by
  refine ⟨?_, ?_, ?_⟩
  · cases hdeferred : state.deferredAdmission with
    | none => simp [cronReservation, reservedRun, hdeferred, hretrying, hpending.attempt,
        hpending.group]
    | some deferred => simp [cronReservation, reservedRun, hdeferred,
        hpending.deferral deferred hdeferred]
  · simp [cronReservation, reservedRun, hretrying, hpending.attempt]
  · simp [cronReservation, reservedRun, hretrying, hpending.attempt]

theorem cronReservation_of_idle {state : TaskStateRow} (host : CronHost) (entry : CronEntry)
    (now : Millis) (runId : String) (hidle : state.retrying = false) :
    (cronReservation host now runId entry state).groupId =
        ((state.deferredAdmission.map (·.groupId)).getD (freshGroup entry.id now)) ∧
      (cronReservation host now runId entry state).attempt = 1 := by
  constructor
  · simp [cronReservation, reservedRun, hidle]
  · simp [cronReservation, reservedRun, hidle]

theorem liveRun_cronReservation (db : Db) (host : CronHost) (now : Millis) (runId : String)
    (hkept : RetryKept entry c)
    (hfresh : pending (stateOf c.db entry.id) = false →
      ∀ earlier ∈ c.reserved, earlier.groupId ≠ freshGroup entry.id now) :
    LiveRun (c.reserve (cronReservation host now runId entry (stateOf c.db entry.id)) db)
      (stateOf c.db entry.id)
      (cronReservation host now runId entry (stateOf c.db entry.id)) where
  known := knows_reserve _ _
  attempt := by
    cases hretrying : (stateOf c.db entry.id).retrying with
    | true =>
      obtain ⟨groupId, hpending⟩ := hkept.intent.retry hretrying
      obtain ⟨hgroup, hattempt, htrigger⟩ :=
        cronReservation_of_retry host entry now runId hretrying hpending
      exact .inr ⟨hattempt, by rw [htrigger]; simp, rfl, by rw [hpending.group, hgroup]⟩
    | false =>
      obtain ⟨hgroup, hattempt⟩ :=
        cronReservation_of_idle host entry now runId hretrying
      refine .inl ⟨hattempt, ?_, fun _ => rfl⟩
      rw [hgroup]
      cases hdeferred : (stateOf c.db entry.id).deferredAdmission with
      | none =>
        exact executedRetries_of_unknown hkept (hfresh (by simp [pending, hretrying, hdeferred]))
      | some deferred => exact (hkept.intent.deferral deferred hdeferred).unexecuted hretrying

theorem liveRun_manualReservation (host : CronHost) (now : Millis) (runId : String)
    (hkept : RetryKept entry c)
    (hfresh : ∀ earlier ∈ c.reserved, earlier.groupId ≠ freshGroup entry.id now) :
    LiveRun (c.reserve (manualReservation host now runId entry) db) (stateOf c.db entry.id)
      (manualReservation host now runId entry) where
  known := knows_reserve _ _
  attempt := .inl ⟨rfl, executedRetries_of_unknown hkept hfresh, fun h => absurd rfl h⟩

/-! ## Settlements -/

/-- A settlement adds to the executed retries of its own group only, and only when it is
an executed retry. -/
theorem executedRetries_append (c : Chronicle) (db : Db) (s : Settlement) (groupId : String) :
    executedRetries { c with db := db, ended := c.ended ++ [s] } groupId =
      executedRetries c groupId +
        if s.run.attempt = 2 ∧ s.run.groupId = groupId ∧ s.executed then 1 else 0 := by
  rw [executedRetries, List.countP_append, List.countP_singleton, executedRetries]
  simp

theorem IntentKept.of_retries {state : TaskStateRow} {s : Settlement} (hrow : LiveRun c state s.run)
    (hgrows : c.Grows c') (hended : s ∈ c'.ended)
    (hcount : ∀ groupId, executedRetries c' groupId = executedRetries c groupId)
    (hattempt : s.run.attempt = 1) (htransient : s.transientFailure = true) :
    IntentKept c' ((retryPatch s.run s.diagnostic s.finishedAt).apply state) where
  retry := by
    intro _
    refine ⟨s.run.groupId, rfl, rfl, ⟨s, hended, rfl, hattempt, htransient⟩, ?_,
      hgrows.knows hrow.known, ?_, fun _ => rfl⟩
    · rw [hcount]
      rcases hrow.attempt with ⟨-, hunexecuted, -⟩ | ⟨hsecond, -⟩
      · exact hunexecuted
      · omega
    · intro deferred hdeferred
      cases hdeferred
  deferral := by
    intro deferred hdeferred
    cases hdeferred

/-- The group of the deferral a refused run goes into is that of the deferral it comes
from, or its own. -/
theorem groupId_nextDeferral (run : TaskRunRow) (diagnostic : TaskFailureDiagnostic)
    (state : TaskStateRow) (finishedAt : Millis) (retryAt : Option Millis) :
    (nextDeferral run diagnostic state finishedAt retryAt).groupId =
      (state.deferredAdmission.map (·.groupId)).getD run.groupId := rfl

/-- A refused run is put off within the group of the intent. -/
theorem IntentKept.of_defers {state : TaskStateRow} {s : Settlement} (hintent : IntentKept c state)
    (hrow : LiveRun c state s.run) (hgrows : c.Grows c')
    (hcount : ∀ groupId, executedRetries c' groupId = executedRetries c groupId)
    (hundisturbed : s.run.trigger = .manual → state.retrying = true →
      state.deferredAdmission ≠ none) :
    IntentKept c' ((deferPatch s.run s.diagnostic state s.finishedAt s.retryAt).apply state) where
  retry := by
    intro hretrying
    have hretrying : state.retrying = true := hretrying
    obtain ⟨groupId, hpending⟩ := hintent.retry hretrying
    obtain ⟨first, hfirst, hfailed⟩ := hpending.failed
    refine ⟨groupId, hpending.group, hpending.attempt, ⟨first, hgrows.ended first hfirst, hfailed⟩,
      (hcount groupId).trans hpending.unexecuted, hgrows.knows hpending.known, ?_, ?_⟩
    · intro deferred hdeferred
      obtain rfl : nextDeferral s.run s.diagnostic state s.finishedAt s.retryAt = deferred :=
        Option.some.inj hdeferred
      rw [groupId_nextDeferral]
      cases hexisting : state.deferredAdmission with
      | some existing => exact hpending.deferral existing hexisting
      | none =>
        -- a first deferral is that of the retry itself, not of a manual run
        rcases hrow.attempt with ⟨-, -, hscheduled⟩ | ⟨-, -, -, hgroup⟩
        · by_cases hmanual : s.run.trigger = .manual
          · exact absurd hexisting (hundisturbed hmanual hretrying)
          · rw [hscheduled hmanual] at hretrying
            cases hretrying
        · rw [hpending.group] at hgroup
          exact (Option.some.inj hgroup).symm
    · intro hnone
      cases hnone
  deferral := by
    intro deferred hdeferred
    obtain rfl : nextDeferral s.run s.diagnostic state s.finishedAt s.retryAt = deferred :=
      Option.some.inj hdeferred
    refine ⟨rfl, ?_, ?_⟩
    · rw [groupId_nextDeferral]
      cases hexisting : state.deferredAdmission with
      | some existing => exact hgrows.knows (hintent.deferral existing hexisting).known
      | none => exact hgrows.knows hrow.known
    intro hidle
    have hidle : state.retrying = false := hidle
    rw [groupId_nextDeferral, hcount]
    cases hexisting : state.deferredAdmission with
    | some existing => exact (hintent.deferral existing hexisting).unexecuted hidle
    | none =>
      rcases hrow.attempt with ⟨-, hunexecuted, -⟩ | ⟨-, -, hretrying, -⟩
      · exact hunexecuted
      · rw [hidle] at hretrying
        cases hretrying

/-- **A settlement of the live run keeps the invariant.** -/
theorem RetryKept.won (hkept : RetryKept entry c) (host : CronHost) {s : Settlement}
    (hrow : LiveRun c (stateOf c.db entry.id) s.run)
    (hidle : ∀ run ∈ db.taskRuns, run.isLive entry.id = false)
    (hstate : stateOf db entry.id = applySettlement host.toSettlerHost entry.toScheduledTask
      (stateOf c.db entry.id) s)
    (hundisturbed : s.run.trigger = .manual → (stateOf c.db entry.id).retrying = true →
      (stateOf c.db entry.id).deferredAdmission = none → s.putsOff = false) :
    RetryKept entry { c with db := db, ended := c.ended ++ [s] } := by
  have hgrows : c.Grows { c with db := db, ended := c.ended ++ [s] } :=
    ⟨fun _ h => h, fun _ h => List.mem_append_left _ h⟩
  have hlast : s ∈ ({ c with db := db, ended := c.ended ++ [s] } : Chronicle).ended :=
    List.mem_append_right _ (List.mem_singleton.2 rfl)
  have hcount := executedRetries_append c db s
  have hfirst : s.run.attempt = 1 → ∀ groupId,
      executedRetries { c with db := db, ended := c.ended ++ [s] } groupId =
        executedRetries c groupId := by
    intro hattempt groupId
    rw [hcount, hattempt]
    simp
  constructor
  · -- a second executed retry would be of a group whose retry was still pending
    intro groupId
    rw [hcount]
    split
    · rename_i hexecuted
      rcases hrow.attempt with ⟨hattempt, -⟩ | ⟨-, -, hretrying, hgroup⟩
      · omega
      obtain ⟨pendingGroup, hpending⟩ := hkept.intent.retry hretrying
      rw [hpending.group, hexecuted.2.1] at hgroup
      have hzero := hpending.unexecuted
      rw [Option.some.inj hgroup] at hzero
      omega
    · exact hkept.once groupId
  · intro ended hended
    rcases List.mem_append.1 hended with hold | hnew
    · exact hgrows.knows (hkept.grouped ended hold)
    · rw [List.mem_singleton.1 hnew]
      exact hgrows.knows hrow.known
  · intro run hrun _ _ hlive
    rw [hidle run hrun] at hlive
    cases hlive
  · rw [hstate, applySettlement]
    cases patch_shape host.toSettlerHost entry.toScheduledTask (stateOf c.db entry.id) s with
    | closes hpatch =>
      refine .of_none ?_ ?_
      · simp [TaskStatePatch.apply, hpatch.1]
      · simp [TaskStatePatch.apply, hpatch.2]
    | reports htrigger hpatch =>
      rw [hpatch]
      have hattempt : s.run.attempt = 1 := by
        rcases hrow.attempt with ⟨hattempt, -⟩ | ⟨-, hscheduled, -⟩
        · exact hattempt
        · exact absurd htrigger hscheduled
      exact hkept.intent.mono ⟨rfl, rfl, rfl, rfl, rfl, rfl⟩ hgrows (hfirst hattempt)
    | defers hputsOff hpatch =>
      rw [hpatch]
      have hrefused : s.executed = false := by
        have h : s.refused = true := by
          simp only [Settlement.putsOff, decide_eq_true_eq] at hputsOff
          exact hputsOff.1
        simp [Settlement.executed, h]
      refine hkept.intent.of_defers hrow hgrows (fun groupId => ?_) ?_
      · rw [hcount, hrefused]
        simp
      · intro hmanual hretrying hnone
        rw [hundisturbed hmanual hretrying hnone] at hputsOff
        cases hputsOff
    | retries htrigger hattempt htransient hpatch =>
      rw [hpatch]
      exact .of_retries hrow hgrows hlast (hfirst hattempt) hattempt htransient
  · intro run hrun hlive
    rw [hidle run hrun] at hlive
    cases hlive

/-- **A settlement keeps the invariant, won or lost.** -/
theorem RetryKept.settle (hkept : RetryKept entry c) {now : Millis} {opts : SettleOptions}
    (hentry : opts.entry = entry.toScheduledTask) (hmem : opts.run ∈ c.db.taskRuns)
    (hundisturbed : opts.run.trigger = .manual → (stateOf c.db entry.id).retrying = true →
      (stateOf c.db entry.id).deferredAdmission = none →
        (settlementOf host.toSettlerHost now opts c.db).putsOff = false) :
    RetryKept entry (c.settle host now opts) := by
  rcases settle_cases host.toSettlerHost now opts c.db with
    ⟨hlost, hruns, hstate⟩ | ⟨hgets, state, live, hread, hid, hafter, hopen⟩
  · rw [Chronicle.settle, if_neg hlost, List.append_nil]
    refine hkept.of_state hruns (.inl ?_)
    rw [stateOf, stateOf, hstate]
    exact .refl _
  · rw [Chronicle.settle, if_pos hgets]
    rw [hentry] at hread hafter
    obtain ⟨row, hget, hpair⟩ := Option.map_eq_some_iff.1 hread
    obtain ⟨rfl, hactive⟩ := Prod.mk.inj hpair
    obtain ⟨hliveMem, hlive⟩ := isLive_of_activeRun hactive
    obtain rfl : live = opts.run := Table.eq_of_key_eq hliveMem hmem hid
    refine hkept.won host (hkept.live opts.run hmem hlive) ?_ ?_ hundisturbed
    · intro run hrun
      rw [Bool.eq_false_iff]
      intro hrunLive
      have hwasOpen : run.finishedAt = none := by
        simp only [TaskRunRow.isLive, decide_eq_true_eq] at hrunLive
        exact hrunLive.2
      obtain ⟨hold, hother⟩ := hopen run hrun hwasOpen
      rw [hkept.single run hold opts.run hmem hrunLive hlive] at hother
      exact hother rfl
    · rw [stateOf_of_get hafter, stateOf_of_get hget]

/-! ## The other operations -/

theorem sameIntent_pauseTask (now : Millis) (taskId : String) (db : Db) :
    SameIntent (stateOf db taskId) (stateOf (pauseTask now taskId db) taskId) := by
  have hget : (pauseTask now taskId db).taskState.get taskId =
      (db.taskState.get taskId).map (pausePatch now).apply :=
    Table.get_modify_same db.taskState taskId _ (pausePatch now).key_apply
  cases hstate : db.taskState.get taskId with
  | none =>
    rw [hstate, Option.map_none] at hget
    rw [stateOf, hstate, stateOf, hget]
    exact .refl _
  | some state =>
    rw [hstate, Option.map_some] at hget
    rw [stateOf_of_get hstate, stateOf_of_get hget]
    exact ⟨rfl, rfl, rfl, rfl, rfl, rfl⟩

theorem resumeAutoPaused_cases (host : CronHost) (now : Millis) (entry : CronEntry) (db : Db) :
    resumeAutoPaused host now entry db = db ∨
      (resumeAutoPaused host now entry db).taskRuns = db.taskRuns ∧
        activeRun db entry.id = none ∧
        (stateOf (resumeAutoPaused host now entry db) entry.id).retrying = false ∧
        (stateOf (resumeAutoPaused host now entry db) entry.id).deferredAdmission = none := by
  unfold resumeAutoPaused
  split
  · rename_i state hread
    split
    · right
      obtain ⟨row, hrow, hpair⟩ := Option.map_eq_some_iff.1 hread
      obtain ⟨rfl, hactive⟩ := Prod.mk.inj hpair
      have hget : (db.taskState.modify entry.id (resumePatch host now entry).apply
          (resumePatch host now entry).key_apply).get entry.id =
            some ((resumePatch host now entry).apply row) := by
        rw [Table.get_modify_same, hrow, Option.map_some]
      have hcloses : (resumePatch host now entry).closes :=
        closes_withNextRun host.toSettlerHost now entry.toScheduledTask clearedPatch
      refine ⟨rfl, hactive, ?_, ?_⟩
      · rw [stateOf_of_get hget, TaskStatePatch.apply, hcloses.1, Option.getD_some]
      · rw [stateOf_of_get hget, TaskStatePatch.apply, hcloses.2, Option.getD_some]
    · exact .inl rfl
  · exact .inl rfl

theorem RetryKept.skip (hkept : RetryKept entry c) (host : CronHost) (now : Millis)
    {state : TaskStateRow} (hread : readState c.db entry.id = some (state, none))
    (hidle : pending (stateOf c.db entry.id) = false) :
    RetryKept entry { c with db := advanceNextRun host now entry c.db } := by
  obtain ⟨row, hget, hpair⟩ := Option.map_eq_some_iff.1 hread
  obtain ⟨rfl, hactive⟩ := Prod.mk.inj hpair
  obtain ⟨state', hget', hretrying, -, -, hdeferred⟩ := advanceNextRun_state host now entry hget
  obtain ⟨hnoRetry, hnoDeferral⟩ : row.retrying = false ∧ row.deferredAdmission = none := by
    rw [stateOf_of_get hget] at hidle
    simpa [pending] using hidle
  refine hkept.of_state (advanceNextRun_frame host now entry c.db).1 (.inr ⟨hactive, ?_, ?_⟩)
  · rw [stateOf_of_get hget', hretrying, hnoRetry]
  · rw [stateOf_of_get hget', hdeferred, hnoDeferral]

theorem cronReserved_eq_some {now : Millis} {runId : String} {db' : Db}
    (h : cronReserved host now runId entry db = some (run, db')) :
    (db.taskState.get entry.id).isSome ∧
      run = cronReservation host now runId entry (stateOf db entry.id) ∧
      reserveRun (cronReservation host now runId entry (stateOf db entry.id)) db = some db' := by
  obtain ⟨-, hsome⟩ := Option.ite_none_right_eq_some.1 h
  obtain ⟨state, hget, hmap⟩ := Option.bind_eq_some_iff.1 hsome
  obtain ⟨reserved, hreserved, hpair⟩ := Option.map_eq_some_iff.1 hmap
  obtain ⟨rfl, rfl⟩ := Prod.mk.inj hpair
  rw [stateOf_of_get hget]
  exact ⟨by rw [hget]; rfl, rfl, hreserved⟩

/-- **A check that disturbs no retry keeps the invariant.** -/
theorem RetryKept.check (hkept : RetryKept entry c) {now : Millis} {runId : String}
    (hundisturbed : Undisturbed host entry c (.check now runId)) :
    RetryKept entry (taskStep host entry c (.check now runId)) := by
  obtain ⟨hskips, hfresh⟩ := hundisturbed
  simp only [taskStep]
  cases hreserved : cronReserved host now runId entry c.db with
  | none =>
    rcases checkCron_cases host now runId entry c.db with
      hsame | ⟨_, _, -, -, hsome, -⟩ | ⟨state, hread, hskip, hadvance⟩ | hresume
    · rw [hsame]
      exact hkept
    · rw [hreserved] at hsome
      cases hsome
    · rw [hadvance]
      exact hkept.skip host now hread (hskips hskip)
    · rw [hresume]
      refine hkept.of_state (autoResumeIfDue_frame host now entry c.db).1 ?_
      rcases autoResumeIfDue_cases host now entry c.db with
        hsame | ⟨hidle, state, hget, hretrying, hdeferred⟩
      · rw [hsame]
        exact .inl (.refl _)
      · rw [stateOf_of_get hget]
        exact .inr ⟨hidle, hretrying, hdeferred⟩
  | some reserved =>
    obtain ⟨run, db⟩ := reserved
    obtain ⟨hget, hrun⟩ := cronReserved_eq_some hreserved
    obtain ⟨rfl, hinsert⟩ := hrun
    have hrow := liveRun_cronReservation db host now runId hkept hfresh
    have hafter := hkept.reserve rfl hinsert hrow
    dsimp only
    split
    · obtain ⟨-, hrows, -, -⟩ := reserveRun_spec entry.id hinsert
      refine hafter.settle rfl ((hrows _).2 (.inr rfl)) fun hmanual => ?_
      -- the checker never reserves a manual run
      simp [reminderSettle, cronReservation, reservedRun] at hmanual
      split at hmanual <;> cases hmanual
    · exact hafter

/-- **An operation that disturbs no retry keeps the invariant.** -/
theorem kept_taskStep (op : TaskOp) (hkept : RetryKept entry c)
    (hundisturbed : Undisturbed host entry c op) : RetryKept entry (taskStep host entry c op) := by
  cases op with
  | check now runId => exact hkept.check hundisturbed
  | runManually now runId =>
    simp only [taskStep]
    cases hreserved : reserveManually host now runId entry c.db with
    | none => exact hkept
    | some reserved =>
      obtain ⟨db, hinsert, rfl⟩ := Option.map_eq_some_iff.1 hreserved
      exact hkept.reserve rfl hinsert
        (liveRun_manualReservation host now runId hkept hundisturbed)
  | settle now runId opts =>
    simp only [taskStep]
    cases hrow : c.db.taskRuns.get runId with
    | none => exact hkept
    | some run =>
      exact hkept.settle rfl (Table.mem_of_get hrow) (hundisturbed run hrow)
  | pause now => exact hkept.of_state rfl (.inl (sameIntent_pauseTask now entry.id c.db))
  | resume now =>
    simp only [taskStep]
    rcases resumeAutoPaused_cases host now entry c.db with
      hsame | ⟨hruns, hidle, hretrying, hdeferred⟩
    · rw [hsame]
      exact hkept
    · exact hkept.of_state hruns (.inr ⟨hidle, hretrying, hdeferred⟩)

theorem pending_of_dueBySchedule {state : TaskStateRow} (hintent : IntentKept c state)
    (hdue : dueBySchedule state = true) : pending state = false := by
  obtain ⟨hretry, hdeferral⟩ : (state.retrying = false ∨ state.nextRunAt ≠ state.retryAt) ∧
      ∀ deferred, state.deferredAdmission = some deferred →
        state.nextRunAt ≠ some deferred.retryAt := by
    simpa [dueBySchedule, Option.all_eq_true] using hdue
  have hnone : state.deferredAdmission = none := by
    by_contra hsome
    obtain ⟨deferred, hdeferred⟩ := Option.ne_none_iff_exists'.1 hsome
    exact hdeferral deferred hdeferred (hintent.deferral deferred hdeferred).due
  cases hretrying : state.retrying with
  | true =>
    obtain ⟨groupId, hpending⟩ := hintent.retry hretrying
    rcases hretry with hidle | hother
    · rw [hretrying] at hidle
      cases hidle
    · exact absurd (hpending.due hnone) hother
  | false => simp [pending, hretrying, hnone]

/-- **An operation that disturbs no retry respects the groups.** -/
theorem respects_taskStep (op : TaskOp) (hkept : RetryKept entry c)
    (hundisturbed : Undisturbed host entry c op) : RespectsGroups host entry c op where
  once := (kept_taskStep op hkept hundisturbed).once
  retry := by
    intro run hrun hattempt
    cases op with
    | check now runId =>
      obtain ⟨⟨_, db⟩, hreserved, rfl⟩ := Option.map_eq_some_iff.1 hrun
      obtain ⟨-, rfl, -⟩ := cronReserved_eq_some hreserved
      cases hretrying : (stateOf c.db entry.id).retrying with
      | true =>
        obtain ⟨groupId, hpending⟩ := hkept.intent.retry hretrying
        obtain ⟨hgroup, -⟩ := cronReservation_of_retry host entry now runId
          hretrying hpending
        obtain ⟨s, hs, hfailed⟩ := hpending.failed
        exact ⟨s, hs, hfailed.1.trans hgroup.symm, hfailed.2⟩
      | false =>
        obtain ⟨-, hfirst⟩ := cronReservation_of_idle host entry now runId hretrying
        rw [hfirst] at hattempt
        cases hattempt
    | runManually now runId =>
      obtain ⟨⟨_, db⟩, hreserved, rfl⟩ := Option.map_eq_some_iff.1 hrun
      obtain ⟨_, -, hpair⟩ := Option.map_eq_some_iff.1 hreserved
      obtain ⟨rfl, -⟩ := Prod.mk.inj hpair
      cases hattempt
    | _ => cases hrun
  fresh := by
    intro run hrun hstarts
    cases op with
    | check now runId =>
      obtain ⟨⟨_, db⟩, hreserved, rfl⟩ := Option.map_eq_some_iff.1 hrun
      obtain ⟨-, rfl, -⟩ := cronReserved_eq_some hreserved
      have hidle := pending_of_dueBySchedule hkept.intent hstarts
      have hnew := hundisturbed.2 hidle
      obtain ⟨hretrying, hdeferred⟩ : (stateOf c.db entry.id).retrying = false ∧
          (stateOf c.db entry.id).deferredAdmission = none := by
        simpa [pending] using hidle
      obtain ⟨hgroup, hfirst⟩ := cronReservation_of_idle host entry now runId hretrying
      rw [hdeferred] at hgroup
      exact ⟨hfirst, fun earlier hearlier => hgroup ▸ hnew earlier hearlier⟩
    | runManually now runId =>
      obtain ⟨⟨_, db⟩, hreserved, rfl⟩ := Option.map_eq_some_iff.1 hrun
      obtain ⟨_, -, hpair⟩ := Option.map_eq_some_iff.1 hreserved
      obtain ⟨rfl, -⟩ := Prod.mk.inj hpair
      exact ⟨rfl, hundisturbed⟩
    | _ => cases hrun

end Kept

/-! ## Runs -/

def Untouched (entry : CronEntry) (db : Db) : Prop :=
  pending (stateOf db entry.id) = false ∧ ∀ run ∈ db.taskRuns, run.isLive entry.id = false

/-- **Undisturbed retries belong to their occurrences**: in every run of checks, manual
runs, settlements, pauses and resumes whose steps disturb no pending retry or deferral,
a retry carries the group of a transient first failure, a group retries once, and a
fresh occurrence starts at attempt one with a group of its own. -/
theorem retries_belong (host : CronHost) (entry : CronEntry) (db : Db) (ops : List TaskOp)
    (huntouched : Untouched entry db)
    (hundisturbed : StepsMeet (taskStep host entry) (Undisturbed host entry) ⟨db, [], []⟩ ops) :
    StepsMeet (taskStep host entry) (RespectsGroups host entry) ⟨db, [], []⟩ ops := by
  obtain ⟨hidle, hnoLive⟩ := huntouched
  obtain ⟨hretrying, hdeferred⟩ : (stateOf db entry.id).retrying = false ∧
      (stateOf db entry.id).deferredAdmission = none := by
    simpa [pending] using hidle
  have hstart : RetryKept entry ⟨db, [], []⟩ := by
    constructor
    · intro groupId
      exact Nat.zero_le 1
    · intro s hs
      cases hs
    · intro run hrun _ _ hlive
      rw [hnoLive run hrun] at hlive
      cases hlive
    · exact .of_none hretrying hdeferred
    · intro run hrun hlive
      rw [hnoLive run hrun] at hlive
      cases hlive
  exact stepsMeet_of_kept (I := RetryKept entry)
    (fun _ op hkept hmeets => kept_taskStep op hkept hmeets)
    (fun _ op hkept hmeets => respects_taskStep op hkept hmeets) ops _ hstart hundisturbed

/-! ## A retry that is waited for, and one that is skipped -/

def dailyCron : CronHost :=
  { plainCron with nextOccurrence := fun _ now => some ((now / 86400000 + 1) * 86400000) }

def dailyTask : CronEntry := { cronTask with schedule := some "0 0 * * *" }

def transientSettle : SettleOptions :=
  { successSettle with
    outcome := .failed
    diagnostic := some (makeTaskFailure .plain 200 ⟨.execution, "process_exit", .transient, by decide⟩
      (.run .reserved) "exit code 1") }

def idleDb : Db := { ownedDb with taskRuns := ∅ }

theorem retry_belongs_daily :
    StepsMeet (taskStep dailyCron dailyTask) (RespectsGroups dailyCron dailyTask) ⟨idleDb, [], []⟩
      [.check 100 "r1", .settle 200 "r1" transientSettle, .check 600200 "r2"] :=
  retries_belong dailyCron dailyTask idleDb _ ⟨by decide, fun run hrun => by cases hrun⟩ <| by
    refine ⟨⟨by decide +kernel, fun _ earlier hearlier => by cases hearlier⟩, ?_,
      ⟨by decide +kernel, ?_⟩, trivial⟩
    · intro run hrun hmanual
      have hscheduled : (((taskStep dailyCron dailyTask ⟨idleDb, [], []⟩
          (.check 100 "r1")).db.taskRuns.get "r1").map (·.trigger)) = some .schedule := by
        decide +kernel
      rw [hrun, Option.map_some, hmanual] at hscheduled
      cases hscheduled
    · intro hidle
      revert hidle
      decide +kernel

/-- The checker advances the schedule over a retry that has gone stale, and forgets
neither: the occurrence of the next day is reserved as that retry. -/
theorem stale_retry_of_next_day :
    ¬ StepsMeet (taskStep dailyCron dailyTask) (RespectsGroups dailyCron dailyTask) ⟨idleDb, [], []⟩
      [.check 100 "r1", .settle 200 "r1" transientSettle, .check 900201 "r2",
        .check 86400000 "r3"] := by
  rintro ⟨-, -, -, hlast, -⟩
  have hsecond : (reservationOf dailyCron dailyTask (runFrom (taskStep dailyCron dailyTask)
      ⟨idleDb, [], []⟩ [.check 100 "r1", .settle 200 "r1" transientSettle, .check 900201 "r2"])
      (.check 86400000 "r3")).map (·.attempt) = some 2 := by decide +kernel
  obtain ⟨run, hrun, hattempt⟩ := Option.map_eq_some_iff.1 hsecond
  obtain ⟨hfirst, -⟩ := hlast.fresh run hrun (by decide +kernel)
  omega

end Abtars
