import Abtars.Task.Schedule

/-!
# Who owns the active reservation

A run owns the active reservation of its task while it is the live row `readState`
finds.  Where every task has at most one live run, these are exactly the unfinished rows
of `task_runs`, the claims below.
-/

namespace Abtars

open Lib

structure RunClaim where
  taskId : String
  runId : String
  deriving DecidableEq

def TaskRunRow.claim (run : TaskRunRow) : RunClaim := ⟨run.taskId, run.runId⟩

def liveClaims (db : Db) : List RunClaim :=
  (db.taskRuns.select (·.finishedAt = none)).map TaskRunRow.claim

/-- `state?.activeRun` is there, and is this run. -/
def ownsReservation (db : Db) (claim : RunClaim) : Bool :=
  (ownedState db claim.taskId claim.runId).isSome

/-- What the schema and the transactions on it promise: a task has one live run at most,
and a state row beside it. -/
structure RunStoreSound (db : Db) : Prop where
  single : ∀ c ∈ liveClaims db, ∀ d ∈ liveClaims db, c.taskId = d.taskId → c = d
  stated : ∀ c ∈ liveClaims db, (db.taskState.get c.taskId).isSome = true

instance (db : Db) : Decidable (RunStoreSound db) :=
  decidable_of_iff
    ((∀ c ∈ liveClaims db, ∀ d ∈ liveClaims db, c.taskId = d.taskId → c = d) ∧
      ∀ c ∈ liveClaims db, (db.taskState.get c.taskId).isSome = true)
    ⟨fun h => ⟨h.1, h.2⟩, fun h => ⟨h.single, h.stated⟩⟩

/-- A write to the store by anyone, after the claims `drawn`: a run unfinished afterwards
was so before, or is reserved under a run id of its own. -/
structure StoreWrites (drawn : List RunClaim) (db db' : Db) : Prop where
  sound : RunStoreSound db'
  fresh : ∀ c ∈ liveClaims db', c ∈ liveClaims db ∨ ∀ d ∈ drawn, d.runId ≠ c.runId

instance (drawn : List RunClaim) (db db' : Db) : Decidable (StoreWrites drawn db db') :=
  decidable_of_iff
    (RunStoreSound db' ∧
      ∀ c ∈ liveClaims db', c ∈ liveClaims db ∨ ∀ d ∈ drawn, d.runId ≠ c.runId)
    ⟨fun h => ⟨h.1, h.2⟩, fun h => ⟨h.sound, h.fresh⟩⟩

section Claims

variable {db db' : Db} {claim : RunClaim}

theorem mem_liveClaims :
    claim ∈ liveClaims db ↔
      ∃ run, db.taskRuns.get claim.runId = some run ∧ run.taskId = claim.taskId ∧
        run.finishedAt = none := by
  rw [liveClaims, List.mem_map]
  constructor
  · rintro ⟨run, hrun, rfl⟩
    obtain ⟨hmem, hopen⟩ := (Table.mem_select _ _ _).1 hrun
    exact ⟨run, Table.get_key_of_mem hmem, rfl, by simpa using hopen⟩
  rintro ⟨run, hget, htask, hopen⟩
  refine ⟨run, (Table.mem_select _ _ _).2 ⟨Table.mem_of_get hget, by simpa using hopen⟩, ?_⟩
  have hid : run.runId = claim.runId := Table.key_of_get hget
  rw [TaskRunRow.claim, htask, hid]

theorem liveClaims_congr (h : db'.taskRuns = db.taskRuns) : liveClaims db' = liveClaims db := by
  rw [liveClaims, h, liveClaims]

/-- A run id has one row, hence one task. -/
theorem claim_eq_of_runId {c d : RunClaim} (hc : c ∈ liveClaims db) (hd : d ∈ liveClaims db)
    (hid : c.runId = d.runId) : c = d := by
  obtain ⟨run, hrun, htask, -⟩ := mem_liveClaims.1 hc
  obtain ⟨row, hrow, htask', -⟩ := mem_liveClaims.1 hd
  cases c
  cases d
  simp_all

/-- **The owner of a task's reservation is its unfinished run.** -/
theorem ownsReservation_iff (hsound : RunStoreSound db) :
    ownsReservation db claim = true ↔ claim ∈ liveClaims db := by
  constructor
  · intro howns
    obtain ⟨state, hstate⟩ := Option.isSome_iff_exists.1 howns
    obtain ⟨run, hactive, hget, hopen⟩ := ownedState_row hstate
    have hlive := (isLive_of_activeRun hactive).2
    have htask : run.taskId = claim.taskId := by
      simp only [TaskRunRow.isLive, decide_eq_true_eq] at hlive
      exact hlive.1
    exact mem_liveClaims.2 ⟨run, hget, htask, hopen⟩
  · intro hclaim
    obtain ⟨run, hget, htask, hopen⟩ := mem_liveClaims.1 hclaim
    obtain ⟨state, hstate⟩ := Option.isSome_iff_exists.1 (hsound.stated claim hclaim)
    have hisLive : run.isLive claim.taskId = true := by simp [TaskRunRow.isLive, htask, hopen]
    obtain ⟨active, hactive⟩ := activeRun_of_mem (Table.mem_of_get hget) hisLive
    -- the run found first is the only one there is
    obtain ⟨hmem, hactiveLive⟩ := isLive_of_activeRun hactive
    simp only [TaskRunRow.isLive, decide_eq_true_eq] at hactiveLive
    have hfound : active.claim ∈ liveClaims db :=
      mem_liveClaims.2 ⟨active, Table.get_key_of_mem hmem, rfl, hactiveLive.2⟩
    have hsame := hsound.single active.claim hfound claim hclaim hactiveLive.1
    have hid : active.runId = claim.runId := congrArg RunClaim.runId hsame
    simp [ownsReservation, ownedState, readState, hstate, hactive, hid]

theorem RunStoreSound.mono (hsound : RunStoreSound db)
    (hclaims : ∀ c ∈ liveClaims db', c ∈ liveClaims db)
    (hstates : ∀ taskId, (db.taskState.get taskId).isSome = true →
      (db'.taskState.get taskId).isSome = true) : RunStoreSound db' where
  single := fun c hc d hd => hsound.single c (hclaims c hc) d (hclaims d hd)
  stated := fun c hc => hstates _ (hsound.stated c (hclaims c hc))

theorem isSome_patchTaskState (taskId other : String) (patch : TaskStatePatch)
    (states : Table TaskStateRow) (h : (states.get other).isSome = true) :
    ((patchTaskState taskId patch states).get other).isSome = true := by
  obtain ⟨state, hstate⟩ := Option.isSome_iff_exists.1 h
  rw [patchTaskState, Table.get_modify, Table.get_insertOrIgnore_of_some hstate]
  split <;> rfl

end Claims

section Settle

variable (host : SettlerHost) (now : Millis) (opts : SettleOptions) {db : Db}

def SettleOptions.claim (opts : SettleOptions) : RunClaim := ⟨opts.entry.id, opts.run.runId⟩

theorem liveClaims_settleRunOnce (db : Db) :
    ∀ c ∈ liveClaims (settleRunOnce host now opts db).2, c ∈ liveClaims db := by
  intro c hc
  rcases settleCourse_finishesOnly host now opts db with
    ⟨-, hsame⟩ | ⟨run, run', -, -, -, hget', hfinished, hothers⟩
  · rwa [settleRunOnce, liveClaims_congr hsame] at hc
  · obtain ⟨row, hrow, htask, hopen⟩ := mem_liveClaims.1 hc
    by_cases hid : c.runId = opts.run.runId
    · -- the run that was settled is not among the unfinished
      rw [hid, settleRunOnce, hget', Option.some.injEq] at hrow
      rw [hrow, hopen] at hfinished
      cases hfinished
    · rw [settleRunOnce, hothers c.runId hid] at hrow
      exact mem_liveClaims.2 ⟨row, hrow, htask, hopen⟩

theorem taskState_finishCourse (entry : ScheduledTask) (runId : String) (patch : TaskStatePatch)
    (effects : SideEffects) (before appended : Db) (hsame : before.taskState = appended.taskState)
    (taskId : String) (h : (before.taskState.get taskId).isSome = true) :
    (((finishCourse host now entry runId patch effects appended).final before).taskState.get
      taskId).isSome = true := by
  rw [hsame] at h
  rcases finishCourse_cases host now entry runId patch effects appended with
    ⟨-, hlate⟩ | ⟨_, _, _, -, -, rfl, rfl, hwon⟩
  · rw [hlate]
    exact h
  · obtain ⟨_, _, _, _, heffects⟩ := sideEffects_boardOnly host.rt now effects
      (setRunOutcome runId effects.outcome (finishedUnder now entry.id runId patch appended))
    rw [hwon, SettleCourse.final, heffects]
    exact isSome_patchTaskState entry.id taskId patch appended.taskState h

theorem taskState_settleRunOnce (db : Db) (taskId : String)
    (h : (db.taskState.get taskId).isSome = true) :
    ((settleRunOnce host now opts db).2.taskState.get taskId).isSome = true := by
  rcases settleCourse_cases host now opts db with
    ⟨_, -, hdup⟩ | ⟨history, -, -, ⟨-, hlate⟩ | ⟨state, -, hcourse⟩⟩
  · simpa only [settleRunOnce, hdup, SettleCourse.final] using h
  · simpa only [settleRunOnce, hlate, SettleCourse.final] using h
  · rw [settleRunOnce, hcourse]
    apply taskState_finishCourse
    · rfl
    · exact h

theorem RunStoreSound.settle (hsound : RunStoreSound db) :
    RunStoreSound (settleRunOnce host now opts db).2 :=
  hsound.mono (liveClaims_settleRunOnce host now opts db)
    (taskState_settleRunOnce host now opts db)

/-- **A settlement that notifies leaves its run without the reservation.** -/
theorem settleRunOnce_ended (hsound : RunStoreSound db)
    (hnotifies : (settleRunOnce host now opts db).1 ≠ .duplicate) :
    opts.claim ∉ liveClaims (settleRunOnce host now opts db).2 := by
  intro hclaim
  rcases settleCourse_cases host now opts db with
    ⟨_, -, hdup⟩ | ⟨history, -, -, ⟨hnone, hlate⟩ | ⟨state, hstate, hcourse⟩⟩
  · exact hnotifies (by rw [settleRunOnce, hdup, SettleCourse.result])
  · -- late: the reservation was gone before
    have hbefore := liveClaims_settleRunOnce host now opts db opts.claim hclaim
    have howns : ownsReservation db opts.claim = true := (ownsReservation_iff hsound).2 hbefore
    rw [ownsReservation, SettleOptions.claim, hnone] at howns
    cases howns
  · obtain ⟨run, -, hget, hopen⟩ := ownedState_row hstate
    rcases settleCourse_finishesOnly host now opts db with
      ⟨hlost, -⟩ | ⟨_, run', -, -, -, hget', hfinished, -⟩
    · -- an open run is not lost
      rw [hcourse] at hlost
      rcases finishCourse_cases host now opts.entry opts.run.runId _ _
          { db with taskRunHistory := history } with ⟨hclosed, -⟩ | ⟨_, _, _, -, -, -, -, hwon⟩
      · exact hclosed run hget hopen
      · rw [hwon] at hlost
        cases hlost
    · obtain ⟨row, hrow, -, hrowOpen⟩ := mem_liveClaims.1 hclaim
      have hrow' : row = run' := by
        have := hrow.symm.trans hget'
        exact Option.some.inj this
      rw [← hrow', hrowOpen] at hfinished
      cases hfinished

end Settle

section Reserve

variable {run : TaskRunRow} {db db' : Db}

theorem isSome_ensureTaskRow (taskId other : String) (db : Db)
    (h : other = taskId ∨ (db.taskState.get other).isSome = true) :
    ((ensureTaskRow taskId db).taskState.get other).isSome = true := by
  show ((db.taskState.insertOrIgnore (fun _ => false) (defaultTaskState taskId)).get
    other).isSome = true
  cases hget : db.taskState.get other with
  | some state =>
    rw [Table.get_insertOrIgnore_of_some hget]
    rfl
  | none =>
    have htask : other = taskId := by
      rcases h with h | h
      · exact h
      · rw [hget] at h
        cases h
    subst htask
    have hfits : db.taskState.Fits (fun _ => false) (defaultTaskState other) :=
      ⟨hget, fun _ _ => rfl⟩
    have hrow : (db.taskState.insertOrIgnore (fun _ => false) (defaultTaskState other)).get
        other = some (defaultTaskState other) := Table.get_insertOrIgnore_of_fits hfits
    rw [hrow]
    rfl

theorem reserveRun_claims (hopen : run.finishedAt = none) (h : reserveRun run db = some db') :
    (∀ c ∈ liveClaims db, c.taskId ≠ run.taskId) ∧
      ∀ c, c ∈ liveClaims db' ↔ c ∈ liveClaims db ∨ c = run.claim := by
  obtain ⟨hclash, hmem, -, -⟩ := reserveRun_spec run.taskId h
  constructor
  · intro c hc htask
    obtain ⟨row, hget, hrow, hrowOpen⟩ := mem_liveClaims.1 hc
    have hlive := hclash row (Table.mem_of_get hget)
    simp [TaskRunRow.isLive, hrow, htask, hrowOpen] at hlive
  intro c
  constructor
  · intro hc
    obtain ⟨row, hget, htask, hrowOpen⟩ := mem_liveClaims.1 hc
    have hid : row.runId = c.runId := Table.key_of_get hget
    rcases (hmem row).1 (Table.mem_of_get hget) with hold | rfl
    · have hget' : db.taskRuns.get c.runId = some row := Table.get_eq_some_iff.2 ⟨hold, hid⟩
      exact .inl (mem_liveClaims.2 ⟨row, hget', htask, hrowOpen⟩)
    · right
      rw [TaskRunRow.claim, htask, hid]
  · rintro (hc | rfl)
    · obtain ⟨row, hget, htask, hrowOpen⟩ := mem_liveClaims.1 hc
      have hrow : row ∈ db'.taskRuns := (hmem row).2 (.inl (Table.mem_of_get hget))
      have hid : row.runId = c.runId := Table.key_of_get hget
      exact mem_liveClaims.2 ⟨row, Table.get_eq_some_iff.2 ⟨hrow, hid⟩, htask, hrowOpen⟩
    · have hrow : run ∈ db'.taskRuns := (hmem run).2 (.inr rfl)
      exact mem_liveClaims.2 ⟨run, Table.get_key_of_mem hrow, rfl, hopen⟩

theorem RunStoreSound.reserve (hsound : RunStoreSound db) (hopen : run.finishedAt = none)
    (h : reserveRun run db = some db') : RunStoreSound db' := by
  obtain ⟨hfree, hclaims⟩ := reserveRun_claims hopen h
  obtain ⟨runs, -, rfl⟩ := Option.map_eq_some_iff.1 h
  constructor
  · intro c hc d hd htask
    rcases (hclaims c).1 hc with hc | rfl
    · rcases (hclaims d).1 hd with hd | rfl
      · exact hsound.single c hc d hd htask
      · exact absurd htask (hfree c hc)
    · rcases (hclaims d).1 hd with hd | rfl
      · exact absurd htask.symm (hfree d hd)
      · rfl
  · intro c hc
    apply isSome_ensureTaskRow
    rcases (hclaims c).1 hc with hc | rfl
    · exact .inr (hsound.stated c hc)
    · exact .inl rfl

end Reserve

end Abtars
