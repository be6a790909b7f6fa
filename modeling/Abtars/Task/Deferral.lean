import Abtars.Task.PausePolicy
import Abtars.Task.Schedule

/-!
# Bounded admission deferral

An occurrence that is refused admission is deferred and reserved again by the checker,
under the group, instant and deadline it started with.

* the guard: a first deferral has a hint or a minute left, and a deferral that is one
  too many has a diagnostic.
-/

namespace Abtars

open Lib

/-! ## Occurrences -/

structure Occurrence where
  groupId : String
  occurrenceAt : Millis
  deadlineAt : Millis

def TaskRunRow.occurrence (run : TaskRunRow) : Occurrence :=
  ⟨run.groupId, run.occurrenceAt, run.deadlineAt⟩

def DeferredAdmission.occurrence (deferred : DeferredAdmission) : Occurrence :=
  ⟨deferred.groupId, deferred.occurrenceAt, deferred.deadlineAt⟩

def deferralOf (db : Db) (taskId : String) : Option DeferredAdmission :=
  (db.taskState.get taskId).bind (·.deferredAdmission)

section Settle

variable {host : SettlerHost} {now : Millis} {opts : SettleOptions} {db : Db}

/-- A settlement leaves runs and state alone, or wins the live run of its task: the run
is open no more, and the state is under the patch. -/
theorem settle_cases (host : SettlerHost) (now : Millis) (opts : SettleOptions) (db : Db) :
    ¬ GetsToSettle opts db ∧ (settleRunOnce host now opts db).2.taskRuns = db.taskRuns ∧
      (settleRunOnce host now opts db).2.taskState = db.taskState ∨
    GetsToSettle opts db ∧ ∃ state live,
      readState db opts.entry.id = some (state, some live) ∧ live.runId = opts.run.runId ∧
      (settleRunOnce host now opts db).2.taskState.get opts.entry.id =
        some (applySettlement host opts.entry state (settlementOf host now opts db)) ∧
      ∀ run ∈ (settleRunOnce host now opts db).2.taskRuns, run.finishedAt = none →
        run ∈ db.taskRuns ∧ run.runId ≠ opts.run.runId := by
  by_cases hgets : GetsToSettle opts db
  · right
    obtain ⟨hfree, howned⟩ := hgets
    obtain ⟨state, hstate⟩ := Option.isSome_iff_exists.1 howned
    obtain ⟨live, hread, hid, -, -⟩ := readState_of_owned hstate
    refine ⟨⟨hfree, howned⟩, state, live, hread, hid, settled_state host now hfree hstate, ?_⟩
    intro run hrun hopen
    have hrow := Table.get_key_of_mem hrun
    rw [key_taskRunRow] at hrow
    cases settleCourse_finishesOnly host now opts db with
    | lost hlost hsame =>
      obtain ⟨_, _, _, _, _, _, hwrites⟩ := fourWrites_of_gets host now ⟨hfree, howned⟩
      rw [hwrites.course] at hlost
      cases hlost
    | won before after hwon hget hwasOpen hget' hfinished hothers =>
      by_cases hsame : run.runId = opts.run.runId
      · rw [settleRunOnce, hsame, hget', Option.some.injEq] at hrow
        rw [hrow, hopen] at hfinished
        cases hfinished
      · rw [settleRunOnce, hothers run.runId hsame] at hrow
        exact ⟨Table.mem_of_get hrow, hsame⟩
  · left
    refine ⟨hgets, ?_⟩
    rcases settleCourse_cases host now opts db with
      ⟨_, -, hdup⟩ | ⟨history, hfree, -, ⟨-, hlate⟩ | ⟨state, hstate, -⟩⟩
    · rw [settleRunOnce, hdup]
      exact ⟨rfl, rfl⟩
    · rw [settleRunOnce, hlate]
      exact ⟨rfl, rfl⟩
    · refine absurd ⟨hfree, ?_⟩ hgets
      rw [hstate]
      rfl

theorem normalizeTerminal_of_deferred {rt : Runtime}
    {proposed : TaskOutcome × TaskFailureDiagnostic} {run : TaskRunRow}
    {request : Option RunTerminalRequest} {detail : Option String} {factAt : Option Millis}
    (h : (normalizeTerminal rt now proposed run request detail factAt).1 = .deferred) :
    normalizeTerminal rt now proposed run request detail factAt = proposed := by
  unfold normalizeTerminal at h ⊢
  split
  · rfl
  rename_i req
  cases hkind : req.kind with
  | cancelled => simp [hkind] at h
  | deadlineExceeded =>
    simp only [hkind] at h ⊢
    split
    · rfl
    · rename_i hlate
      rw [if_neg hlate] at h
      cases h

theorem settleVerdict_of_deferred {state : TaskStateRow} {active : Option TaskRunRow}
    (hread : readState db opts.entry.id = some (state, active))
    (h : (settleVerdict host.rt now opts db).1 = .deferred) :
    opts.outcome = .deferred ∧
      (opts.diagnostic.any (fun d => d.category = .admission) = true →
        admissionExhausted (some state) now opts.retryAt = false) ∧
      (settleVerdict host.rt now opts db).2 = opts.diagnostic.getD
        (synthesizeDiagnostic host.rt now opts.outcome opts.detail opts.run.phase) := by
  unfold settleVerdict at h ⊢
  have hsame := normalizeTerminal_of_deferred h
  rw [hsame] at h ⊢
  simp only [hread, Option.map_some] at h ⊢
  split at h
  · cases h
  rename_i hadmitted
  rw [if_neg hadmitted]
  refine ⟨h, fun hadmission => ?_, rfl⟩
  by_contra hexhausted
  exact hadmitted ⟨h, hadmission, by simpa using hexhausted⟩

end Settle

/-! ## The deferred occurrence -/

/-- A deferral computed for an occurrence that may be deferred once more keeps its
identity and its deadline; a first one does, with a hint or a minute left. -/
theorem nextDeferral_spec (diagnostic : TaskFailureDiagnostic) {run : TaskRunRow}
    {state : TaskStateRow} {now : Millis} {retryAt : Option Millis}
    (hadmitted : admissionExhausted (some state) now retryAt = false)
    (hguard : state.deferredAdmission = none → (positiveHint retryAt).isSome ∨
      now + admissionMinDelayMs ≤ run.deadlineAt) :
    (nextDeferral run diagnostic state now retryAt).occurrence =
        ((state.deferredAdmission.map (·.occurrence)).getD run.occurrence) ∧
      (nextDeferral run diagnostic state now retryAt).attempts =
        (state.deferredAdmission.map (·.attempts)).getD 0 + 1 ∧
      (nextDeferral run diagnostic state now retryAt).attempts ≤ maxAdmissionAttempts ∧
      (nextDeferral run diagnostic state now retryAt).retryAt ≤
        (nextDeferral run diagnostic state now retryAt).deadlineAt := by
  refine ⟨?_, rfl, ?_, ?_⟩
  · cases hdeferred : state.deferredAdmission <;>
      simp [nextDeferral, hdeferred, DeferredAdmission.occurrence, TaskRunRow.occurrence]
  · unfold admissionExhausted at hadmitted
    dsimp only [Option.bind_some] at hadmitted
    split at hadmitted
    · cases hadmitted
    · show (state.deferredAdmission.map (·.attempts)).getD 0 + 1 ≤ maxAdmissionAttempts
      omega
  · cases hhint : positiveHint retryAt with
    | some hint =>
      simp only [nextDeferral, hhint]
      exact min_le_right _ _
    | none =>
      cases hdeferred : state.deferredAdmission with
      | none => simpa [nextDeferral, hhint, hdeferred] using hguard hdeferred
      | some deferred =>
        -- the same clamp was below the deadline when exhaustion was tested
        unfold admissionExhausted at hadmitted
        dsimp only [Option.bind_some] at hadmitted
        rw [hdeferred, hhint] at hadmitted
        split at hadmitted
        · cases hadmitted
        simp only [Option.getD_none, hintedRetryAt, max_self, decide_eq_false_iff_not,
          not_le] at hadmitted
        have hearly : ¬ deferred.deadlineAt ≤ now + admissionMinDelayMs := by
          intro hlate
          rw [min_eq_right hlate] at hadmitted
          exact lt_irrefl _ hadmitted
        simpa [nextDeferral, hhint, hdeferred] using le_of_not_ge hearly

inductive OccurrenceOp
  | check (now : Millis) (runId : String)
  | defer (now : Millis) (runId : String) (opts : SettleOptions)

/-- A task, how often its occurrence was deferred, and whether the occurrence is over. -/
structure Deferring where
  db : Db
  deferrals : Nat
  closed : Bool

def deferOptions (entry : CronEntry) (opts : SettleOptions) (run : TaskRunRow) : SettleOptions :=
  { opts with entry := entry.toScheduledTask, run := run, outcome := .deferred }

def recordsDeferral (host : CronHost) (now : Millis) (opts : SettleOptions) (db : Db) : Bool :=
  (settleVerdict host.rt now opts db).1 = .deferred ∧
    (settleVerdict host.rt now opts db).2.category = .admission

def occurrenceStep (host : CronHost) (entry : CronEntry) (s : Deferring) :
    OccurrenceOp → Deferring
  | .check now runId =>
    let db := checkCron host now runId entry s.db
    -- the deferral may be dropped, by a resume or by a reminder's delivery
    { s with
      db := db
      closed := s.closed || (deferralOf s.db entry.id).isSome && (deferralOf db entry.id).isNone }
  | .defer now runId opts =>
    match s.db.taskRuns.get runId with
    | none => s
    | some run =>
      let call := deferOptions entry opts run
      let db := (settleRunOnce host.toSettlerHost now call s.db).2
      if GetsToSettle call s.db then
        if recordsDeferral host now call s.db then
          { s with db := db, deferrals := s.deferrals + if s.closed then 0 else 1 }
        else { s with db := db, closed := true }
      else { s with db := db }

/-- A first deferral has a hint or a minute left, and a deferral that is one too many
has a diagnostic. -/
def DeferralGuarded (entry : CronEntry) (s : Deferring) : OccurrenceOp → Prop
  | .check _ _ => True
  | .defer now runId opts =>
    (deferralOf s.db entry.id = none → (positiveHint opts.retryAt).isSome ∨
      ∀ run, s.db.taskRuns.get runId = some run →
        now + admissionMinDelayMs ≤ run.deadlineAt) ∧
    (opts.diagnostic = none →
      admissionExhausted (s.db.taskState.get entry.id) now opts.retryAt = false)

/-- The bound: five deferrals, each within the deadline, and one identity for deferral
and reservations until the occurrence is over. -/
structure BoundedDeferral (entry : CronEntry) (occurrence : Occurrence) (s : Deferring) :
    Prop where
  count : s.deferrals ≤ maxAdmissionAttempts
  deferral : s.closed = false → ∀ deferred, deferralOf s.db entry.id = some deferred →
    deferred.occurrence = occurrence ∧ deferred.retryAt ≤ deferred.deadlineAt
  runs : s.closed = false → ∀ run ∈ s.db.taskRuns, run.isLive entry.id = true →
    run.occurrence = occurrence

/-- The bound, with what carries it: the deferral counts the deferrals, and without one
the first run is still live. -/
structure DeferringKept (entry : CronEntry) (occurrence : Occurrence) (s : Deferring) :
    Prop extends BoundedDeferral entry occurrence s where
  counted : s.closed = false → ∀ deferred, deferralOf s.db entry.id = some deferred →
    deferred.attempts = s.deferrals
  first : s.closed = false → deferralOf s.db entry.id = none →
    s.deferrals = 0 ∧ ∃ run ∈ s.db.taskRuns, run.isLive entry.id = true

section Kept

variable {state : TaskStateRow} {runId : String}

variable {host : CronHost} {entry : CronEntry} {occurrence : Occurrence} {s : Deferring}

theorem DeferringKept.congr (hkept : DeferringKept entry occurrence s) {db : Db}
    (hruns : ∀ run, run ∈ db.taskRuns ↔ run ∈ s.db.taskRuns)
    (hdeferral : deferralOf db entry.id = deferralOf s.db entry.id) :
    DeferringKept entry occurrence { s with db := db } where
  count := hkept.count
  deferral := fun hover deferred hget => hkept.deferral hover deferred (hdeferral ▸ hget)
  runs := fun hover run hrun => hkept.runs hover run ((hruns run).1 hrun)
  counted := fun hover deferred hget => hkept.counted hover deferred (hdeferral ▸ hget)
  first := by
    intro hover hnone
    obtain ⟨hzero, run, hrun, hlive⟩ := hkept.first hover (hdeferral ▸ hnone)
    exact ⟨hzero, run, (hruns run).2 hrun, hlive⟩

theorem DeferringKept.of_over (hover : s.closed = true) (hcount : s.deferrals ≤ maxAdmissionAttempts) :
    DeferringKept entry occurrence s where
  count := hcount
  deferral := fun h => by rw [hover] at h; cases h
  runs := fun h => by rw [hover] at h; cases h
  counted := fun h => by rw [hover] at h; cases h
  first := fun h => by rw [hover] at h; cases h

theorem deferralOf_of_get {db : Db} {taskId : String}
    (h : db.taskState.get taskId = some state) : deferralOf db taskId = state.deferredAdmission := by
  rw [deferralOf, h, Option.bind_some]

theorem applySettlement_deferred {settlement : Settlement}
    (houtcome : settlement.outcome = .deferred)
    (hcategory : settlement.diagnostic.category = .admission) :
    (applySettlement host.toSettlerHost entry.toScheduledTask state settlement).deferredAdmission =
      some (nextDeferral settlement.run settlement.diagnostic state settlement.finishedAt
        settlement.retryAt) := by
  simp [applySettlement, computeStatePatch, houtcome, policyPatch, decideFailurePolicy, hcategory,
    deferPatch, TaskStatePatch.apply]

/-- The deferral a guarded settlement records continues the occurrence. -/
theorem recorded_deferral {now : Millis} {opts : SettleOptions} {run : TaskRunRow}
    (hkept : DeferringKept entry occurrence s) (hover : s.closed = false)
    (hguard : DeferralGuarded entry s (.defer now runId opts))
    (hrow : s.db.taskRuns.get runId = some run)
    (hgets : GetsToSettle (deferOptions entry opts run) s.db)
    (hrecords : recordsDeferral host now (deferOptions entry opts run) s.db = true) :
    ∃ deferred, deferralOf
        (settleRunOnce host.toSettlerHost now (deferOptions entry opts run) s.db).2 entry.id =
        some deferred ∧ deferred.occurrence = occurrence ∧
      deferred.attempts = s.deferrals + 1 ∧ deferred.attempts ≤ maxAdmissionAttempts ∧
      deferred.retryAt ≤ deferred.deadlineAt := by
  obtain ⟨hdeferred, hadmission⟩ :
      (settleVerdict host.rt now (deferOptions entry opts run) s.db).1 = .deferred ∧
      (settleVerdict host.rt now (deferOptions entry opts run) s.db).2.category = .admission := by
    simpa [recordsDeferral] using hrecords
  rcases settle_cases host.toSettlerHost now (deferOptions entry opts run) s.db with
    ⟨hlost, -⟩ | ⟨-, state, live, hread, hid, hafter, -⟩
  · exact absurd hgets hlost
  have hread : readState s.db entry.id = some (state, some live) := hread
  obtain ⟨row, hget, hpair⟩ := Option.map_eq_some_iff.1 hread
  obtain ⟨rfl, hactive⟩ := Prod.mk.inj hpair
  obtain ⟨hmem, hlive⟩ := isLive_of_activeRun hactive
  obtain rfl : live = run := Table.eq_of_key_eq hmem (Table.mem_of_get hrow) hid
  -- an exhausted deferral would have been recorded as failed
  obtain ⟨-, hadmitted, hdiagnostic⟩ := settleVerdict_of_deferred hread hdeferred
  have hadmits : admissionExhausted (some row) now opts.retryAt = false := by
    cases hgiven : opts.diagnostic with
    | none =>
      have hnone := hguard.2 hgiven
      rwa [hget] at hnone
    | some diagnostic =>
      refine hadmitted ?_
      have hcategory : diagnostic.category = .admission := by
        rw [hdiagnostic] at hadmission
        simpa [deferOptions, hgiven] using hadmission
      simp [deferOptions, hgiven, hcategory]
  have hbefore := deferralOf_of_get hget
  have hearly : row.deferredAdmission = none → (positiveHint opts.retryAt).isSome ∨
      now + admissionMinDelayMs ≤ live.deadlineAt := by
    intro hnone
    rcases hguard.1 (hbefore.trans hnone) with hhint | hdeadline
    · exact .inl hhint
    · exact .inr (hdeadline live hrow)
  obtain ⟨hidentity, hattempts, hbound, hretryAt⟩ := nextDeferral_spec
    (settleVerdict host.rt now (deferOptions entry opts live) s.db).2 hadmits hearly
  refine ⟨_, (deferralOf_of_get hafter).trans (applySettlement_deferred hdeferred hadmission), ?_,
    ?_, hbound, hretryAt⟩
  · refine hidentity.trans ?_
    cases hnow : row.deferredAdmission with
    | none => exact hkept.runs hover live hmem hlive
    | some deferred => exact (hkept.deferral hover deferred (hbefore.trans hnow)).1
  · refine hattempts.trans ?_
    cases hnow : row.deferredAdmission with
    | none => rw [(hkept.first hover (hbefore.trans hnow)).1, Option.map_none, Option.getD_none]
    | some deferred =>
      rw [Option.map_some, Option.getD_some, hkept.counted hover deferred (hbefore.trans hnow)]

/-- **A guarded deferral keeps the bound.** -/
theorem kept_defer {now : Millis} {opts : SettleOptions} (hkept : DeferringKept entry occurrence s)
    (hguard : DeferralGuarded entry s (.defer now runId opts)) :
    DeferringKept entry occurrence (occurrenceStep host entry s (.defer now runId opts)) := by
  simp only [occurrenceStep]
  cases hrow : s.db.taskRuns.get runId with
  | none => exact hkept
  | some run =>
    dsimp only
    rcases settle_cases host.toSettlerHost now (deferOptions entry opts run) s.db with
      ⟨hlost, hruns, hstate⟩ | ⟨hgets, -, -, -, -, -, hopen⟩
    · rw [if_neg hlost]
      refine hkept.congr (fun row => by rw [hruns]) ?_
      rw [deferralOf, hstate, deferralOf]
    · rw [if_pos hgets]
      split
      · rename_i hrecords
        cases hover : s.closed with
        | true => exact .of_over rfl (by simpa using hkept.count)
        | false =>
          obtain ⟨deferred, hafter, hidentity, hattempts, hbound, hretryAt⟩ :=
            recorded_deferral hkept hover hguard hrow hgets hrecords
          refine ⟨⟨by simpa [hover, ← hattempts] using hbound, ?_, ?_⟩, ?_, ?_⟩
          · intro _ other hother
            obtain rfl : deferred = other := Option.some.inj (hafter.symm.trans hother)
            exact ⟨hidentity, hretryAt⟩
          · intro _ row hmem hlive
            have hwasOpen : row.finishedAt = none := by
              simp [TaskRunRow.isLive] at hlive
              exact hlive.2
            exact hkept.runs hover row (hopen row hmem hwasOpen).1 hlive
          · intro _ other hother
            obtain rfl : deferred = other := Option.some.inj (hafter.symm.trans hother)
            simpa [hover] using hattempts
          · intro _ hnone
            rw [hnone] at hafter
            cases hafter
      · exact .of_over rfl hkept.count

theorem kept_unreserved {db : Db} (hkept : DeferringKept entry occurrence s)
    (hruns : db.taskRuns = s.db.taskRuns)
    (hdeferral : deferralOf db entry.id = deferralOf s.db entry.id ∨
      deferralOf db entry.id = none ∧ activeRun s.db entry.id = none) :
    DeferringKept entry occurrence
      { s with
        db := db
        closed := s.closed || (deferralOf s.db entry.id).isSome && (deferralOf db entry.id).isNone } := by
  cases hover : s.closed with
  | true => exact .of_over rfl hkept.count
  | false =>
    have hgoes : ∀ closed, (closed = true ∨ deferralOf db entry.id = deferralOf s.db entry.id) →
        DeferringKept entry occurrence { s with db := db, closed := closed } := by
      intro closed hcase
      cases hnow : closed with
      | true => exact .of_over rfl hkept.count
      | false =>
        rcases hcase with hcase | hcase
        · rw [hnow] at hcase
          cases hcase
        · have hsame := hkept.congr (fun row => by rw [hruns]) hcase
          rwa [hover] at hsame
    rcases hdeferral with hsame | ⟨hnone, hidle⟩
    · exact hgoes _ (.inr hsame)
    · cases hwas : deferralOf s.db entry.id with
      | none => exact hgoes _ (.inr (hnone.trans hwas.symm))
      | some deferred => exact hgoes _ (.inl (by simp [hnone]))

theorem occurrence_cronReservation {now : Millis}
    {deferred : DeferredAdmission} (h : state.deferredAdmission = some deferred) :
    (cronReservation host now runId entry state).occurrence = deferred.occurrence := by
  simp [cronReservation, h, reservedRun, TaskRunRow.occurrence, DeferredAdmission.occurrence]

/-- A reservation for the deferred occurrence keeps the bound. -/
theorem kept_reserved {now : Millis} {runId : String} {state : TaskStateRow} {reserved : Db}
    (hkept : DeferringKept entry occurrence s)
    (hread : readState s.db entry.id = some (state, none))
    (hreserved : reserveRun (cronReservation host now runId entry state) s.db = some reserved) :
    DeferringKept entry occurrence { s with db := reserved } := by
  obtain ⟨row, hget, hpair⟩ := Option.map_eq_some_iff.1 hread
  obtain ⟨rfl, hidle⟩ := Prod.mk.inj hpair
  obtain ⟨-, hrows, -, hstates⟩ := reserveRun_spec entry.id hreserved
  have hdeferral : deferralOf reserved entry.id = deferralOf s.db entry.id := by
    rw [deferralOf_of_get (hstates row hget), deferralOf_of_get hget]
  refine ⟨⟨hkept.count, ?_, ?_⟩, ?_, ?_⟩
  · intro hover deferred hnow
    exact hkept.deferral hover deferred (hdeferral ▸ hnow)
  · intro hover run hrun hlive
    rcases (hrows run).1 hrun with hold | rfl
    · exact hkept.runs hover run hold hlive
    -- without a deferral the first run would still be live
    cases hnow : row.deferredAdmission with
    | none =>
      obtain ⟨-, first, hfirst, hfirstLive⟩ :=
        hkept.first hover ((deferralOf_of_get hget).trans hnow)
      obtain ⟨active, hactive⟩ := activeRun_of_mem hfirst hfirstLive
      rw [hidle] at hactive
      cases hactive
    | some deferred =>
      rw [occurrence_cronReservation hnow]
      exact (hkept.deferral hover deferred ((deferralOf_of_get hget).trans hnow)).1
  · intro hover deferred hnow
    exact hkept.counted hover deferred (hdeferral ▸ hnow)
  · intro hover hnone
    obtain ⟨hzero, run, hrun, hlive⟩ := hkept.first hover (hdeferral ▸ hnone)
    exact ⟨hzero, run, (hrows run).2 (.inl hrun), hlive⟩

theorem DeferringKept.deferred_of_idle (hkept : DeferringKept entry occurrence s)
    (hover : s.closed = false) (hidle : activeRun s.db entry.id = none) :
    (deferralOf s.db entry.id).isSome = true := by
  by_contra hnone
  obtain ⟨-, run, hrun, hlive⟩ := hkept.first hover (by simpa using hnone)
  obtain ⟨active, hactive⟩ := activeRun_of_mem hrun hlive
  rw [hidle] at hactive
  cases hactive

theorem deferralOf_reminder {now : Millis} {run : TaskRunRow} {db : Db}
    (hread : readState db entry.id = some (state, some run)) (hrequest : run.terminalRequest = none)
    (hafter : (settleRunOnce host.toSettlerHost now (reminderSettle entry run) db).2.taskState.get
        entry.id = some (applySettlement host.toSettlerHost entry.toScheduledTask state
          (settlementOf host.toSettlerHost now (reminderSettle entry run) db))) :
    deferralOf (settleRunOnce host.toSettlerHost now (reminderSettle entry run) db).2 entry.id =
      none := by
  have houtcome :
      (settlementOf host.toSettlerHost now (reminderSettle entry run) db).outcome = .success := by
    show (settleVerdict host.rt now (reminderSettle entry run) db).1 = .success
    simp [settleVerdict, reminderSettle, hread, hrequest, normalizeTerminal]
  have hclosed : ∀ patch : TaskStatePatch, (withNextRun host.toSettlerHost now entry.toScheduledTask
      patch.closeOccurrence).deferredAdmission = some none := by
    intro patch
    unfold withNextRun
    split
    · rfl
    · split <;> rfl
  rw [deferralOf_of_get hafter]
  simp only [applySettlement, TaskStatePatch.apply, computeStatePatch, houtcome]
  have hnow : (settlementOf host.toSettlerHost now (reminderSettle entry run) db).now = now := rfl
  rw [hnow, hclosed, Option.getD_some]

/-- **A check keeps the bound.** -/
theorem kept_check (host : CronHost) (now : Millis) (runId : String)
    (hkept : DeferringKept entry occurrence s) :
    DeferringKept entry occurrence (occurrenceStep host entry s (.check now runId)) := by
  simp only [occurrenceStep]
  rcases checkCron_cases host now runId entry s.db with
    hsame | ⟨state, reserved, hread, hreserved, -, hcase⟩ | ⟨state, hread, -, hadvance⟩ | hresume
  · rw [hsame]
    exact kept_unreserved hkept rfl (.inl rfl)
  · have hafter := kept_reserved hkept hread hreserved
    obtain ⟨row, hget, hpair⟩ := Option.map_eq_some_iff.1 hread
    obtain ⟨rfl, hidle⟩ := Prod.mk.inj hpair
    obtain ⟨-, hrows, -, hstates⟩ := reserveRun_spec entry.id hreserved
    have hdeferral : deferralOf reserved entry.id = deferralOf s.db entry.id := by
      rw [deferralOf_of_get (hstates row hget), deferralOf_of_get hget]
    rw [← hdeferral]
    rcases hcase with hplain | hreminder
    · rw [hplain]
      exact kept_unreserved hafter rfl (.inl rfl)
    rw [hreminder]
    cases hover : s.closed with
    | true => exact .of_over rfl hkept.count
    | false =>
      rcases settle_cases host.toSettlerHost now
        (reminderSettle entry (cronReservation host now runId entry row)) reserved with
        ⟨-, hruns, hstate⟩ | ⟨-, after, live, hnow, hid, hafter', -⟩
      · rw [← hover]
        exact kept_unreserved hafter hruns (.inl (by rw [deferralOf, hstate, deferralOf]))
      · -- the run just reserved is the live one
        obtain ⟨_, -, hactive⟩ := Option.map_eq_some_iff.1 hnow
        obtain ⟨hmem, -⟩ := isLive_of_activeRun (Prod.mk.inj hactive).2
        obtain rfl : live = cronReservation host now runId entry row :=
          Table.eq_of_key_eq hmem ((hrows _).2 (.inr rfl)) hid
        have hdropped := deferralOf_reminder hnow rfl hafter'
        refine .of_over ?_ hkept.count
        rw [hdropped, hdeferral, hkept.deferred_of_idle hover hidle]
        rfl
  · rw [hadvance]
    obtain ⟨row, hget, hpair⟩ := Option.map_eq_some_iff.1 hread
    obtain ⟨state', hget', -, -, -, hdeferral⟩ := advanceNextRun_state host now entry hget
    refine kept_unreserved hkept (advanceNextRun_frame host now entry s.db).1 (.inl ?_)
    rw [deferralOf_of_get hget', deferralOf_of_get hget, hdeferral]
  · rw [hresume]
    refine kept_unreserved hkept (autoResumeIfDue_frame host now entry s.db).1 ?_
    rcases autoResumeIfDue_cases host now entry s.db with hsame | ⟨hidle, state', hget', -, hnone⟩
    · rw [hsame]
      exact .inl rfl
    · exact .inr ⟨(deferralOf_of_get hget').trans hnone, hidle⟩

theorem kept_step (op : OccurrenceOp) (hkept : DeferringKept entry occurrence s)
    (hguard : DeferralGuarded entry s op) :
    DeferringKept entry occurrence (occurrenceStep host entry s op) := by
  cases op with
  | check now runId => exact kept_check host now runId hkept
  | defer now runId opts => exact kept_defer hkept hguard

end Kept

/-- The first run of a scheduled occurrence is live, and the occurrence not yet deferred. -/
def FirstReserved (entry : CronEntry) (occurrence : Occurrence) (db : Db) : Prop :=
  deferralOf db entry.id = none ∧ (∃ run ∈ db.taskRuns, run.isLive entry.id = true) ∧
    ∀ run ∈ db.taskRuns, run.isLive entry.id = true → run.occurrence = occurrence

/-- **Guarded deferrals are bounded**: over any checks and deferred settlements, in every
state reached, the occurrence was deferred at most five times, each deferral lies
within the deadline, and deferral and reservations keep the occurrence's identity. -/
theorem deferral_bounded (host : CronHost) (entry : CronEntry) (occurrence : Occurrence) (db : Db)
    (ops : List OccurrenceOp) (hfirst : FirstReserved entry occurrence db)
    (hguarded : StepsMeet (occurrenceStep host entry) (DeferralGuarded entry) ⟨db, 0, false⟩ ops) :
    BoundedDeferral entry occurrence
      (runFrom (occurrenceStep host entry) ⟨db, 0, false⟩ ops) := by
  obtain ⟨hnone, hlive, hidentity⟩ := hfirst
  have hstart : DeferringKept entry occurrence ⟨db, 0, false⟩ :=
    { count := Nat.zero_le _
      deferral := fun _ deferred hsome => by rw [hnone] at hsome; cases hsome
      runs := fun _ => hidentity
      counted := fun _ deferred hsome => by rw [hnone] at hsome; cases hsome
      first := fun _ _ => ⟨rfl, hlive⟩ }
  exact (invariant_of_stepsMeet (I := DeferringKept entry occurrence)
    (fun s op hkept hguard => kept_step op hkept hguard) ops _ hstart hguarded).toBoundedDeferral

/-! ## Two deferrals -/

def plainCron : CronHost :=
  { plainHost with
    runCeilingMs := 1000
    dayStart := fun _ => 0 }

def cronTask : CronEntry :=
  { scriptTask with
    enabled := true
    maxRunsPerDay := none
    catchUpHours := none }

def refusedAdmission (retryAt : Option Millis) : SettleOptions :=
  { successSettle with
    diagnostic := some (makeTaskFailure .plain 500 (.executorUnavailable .transient)
      (.run .queued) "no executor")
    retryAt := retryAt }

theorem deferral_bounded_hinted :
    BoundedDeferral cronTask ⟨"g", 0, 1000⟩
      (runFrom (occurrenceStep plainCron cronTask) ⟨ownedDb, 0, false⟩
        [.defer 500 "r" (refusedAdmission (some 900)), .check 2000 "r2"]) :=
  deferral_bounded plainCron cronTask ⟨"g", 0, 1000⟩ ownedDb _
    ⟨rfl, ⟨reservedRun "r" "task" "g" 1 .schedule 0 0 1000, List.mem_singleton.2 rfl, rfl⟩, by
      intro run hrun _
      have hrow : run = reservedRun "r" "task" "g" 1 .schedule 0 0 1000 := List.mem_singleton.1 hrun
      rw [hrow]
      rfl⟩
    ⟨⟨fun _ => .inl rfl, fun h => by cases h⟩, trivial, trivial⟩

/-- A first deferral without a hint in the last minute is put off beyond the deadline. -/
theorem deferral_beyond_deadline :
    ¬ BoundedDeferral cronTask ⟨"g", 0, 1000⟩
      (runFrom (occurrenceStep plainCron cronTask) ⟨ownedDb, 0, false⟩
        [.defer 500 "r" (refusedAdmission none)]) := by
  intro hbounded
  have hdeferral := hbounded.deferral rfl _ rfl
  have hlate := hdeferral.2
  revert hlate
  decide

end Abtars
