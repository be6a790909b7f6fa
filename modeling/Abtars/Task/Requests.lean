import Abtars.Task.RunStore

/-!
# Terminal requests over interleaved writers

A run is any interleaving of the four writers' updates, each reading and each
writing step of a call taken apart: an update may act on what was read at any
earlier moment.
-/

namespace Abtars

open Lib

/-! ## Runs -/

inductive RunOp
  | advanceRun (taskId runId : String) (update : RunUpdate) (observed : TaskRunPhase)
  | requestRunTerminal (taskId runId : String) (request : RunTerminalRequest)
      (observed : Option RunTerminalRequest)
  | updateActiveRun (taskId runId : String) (patch : ActiveRunPatch)
  | settleActiveRun (now : Millis) (taskId runId : String) (patch : TaskStatePatch)

def runStep (db : Db) : RunOp → Db
  | .advanceRun taskId runId update observed =>
    (advanceRunFrom taskId runId update observed db).2
  | .requestRunTerminal taskId runId request observed =>
    (requestRunTerminalFrom taskId runId request observed db).2
  | .updateActiveRun taskId runId patch => (updateActiveRun taskId runId patch db).2
  | .settleActiveRun now taskId runId patch => (settleActiveRun now taskId runId patch db).2

def RunOp.target : RunOp → String
  | .advanceRun _ runId _ _ => runId
  | .requestRunTerminal _ runId _ _ => runId
  | .updateActiveRun _ runId _ => runId
  | .settleActiveRun _ _ runId _ => runId

def RunOp.lands : RunOp → TaskRunRow → Bool
  | .advanceRun taskId _ update observed, run =>
    advanceRefused observed update = false ∧
      ¬ (update.phase = none ∧ update.progressAt = none ∧ update.attachments = .none_) ∧
      run.isLive taskId ∧ run.phase = observed
  | .requestRunTerminal taskId _ request observed, run =>
    requestRefused observed request = false ∧ run.isLive taskId ∧
      run.terminalRequest = observed
  | .updateActiveRun taskId _ patch, run =>
    ¬ (patch.attachments = .none_ ∧ patch.terminalRequest = none) ∧ run.isLive taskId
  | .settleActiveRun _ _ _ _, run => run.finishedAt = none

def RunOp.rewrite : RunOp → TaskRunRow → TaskRunRow
  | .advanceRun _ _ update _ => progressRun update
  | .requestRunTerminal _ _ request _ => requestRun request
  | .updateActiveRun _ _ patch => patchRun patch
  | .settleActiveRun now _ _ _ => finishRun now

theorem RunOp.rewrite_runId (op : RunOp) (run : TaskRunRow) :
    (op.rewrite run).runId = run.runId := by
  cases op with
  | advanceRun taskId target update observed => exact progressRun_runId update run
  | _ => rfl

/-- **Every update is one compare-and-set on the row of its run.** -/
theorem runStep_taskRuns (db : Db) (op : RunOp) :
    (runStep db op).taskRuns =
      (db.taskRuns.cas op.target op.lands op.rewrite op.rewrite_runId).2 := by
  cases op with
  | advanceRun taskId target update observed =>
    simp only [runStep, advanceRunFrom]
    split
    · rename_i hrefused
      exact (Table.cas_of_never _ _ fun run => by simp [RunOp.lands, hrefused]).symm
    rename_i hallowed
    split
    · rename_i hempty
      exact (Table.cas_of_never _ _ fun run => by simp [RunOp.lands, hempty]).symm
    rename_i hwrites
    have hlands : (RunOp.advanceRun taskId target update observed).lands =
        fun run => decide (run.isLive taskId = true ∧ run.phase = observed) := by
      funext run
      simp [RunOp.lands, hallowed, hwrites]
    rw [hlands]
    rfl
  | requestRunTerminal taskId target request observed =>
    simp only [runStep, requestRunTerminalFrom]
    split
    · rename_i hrefused
      exact (Table.cas_of_never _ _ fun run => by simp [RunOp.lands, hrefused]).symm
    rename_i hallowed
    have hlands : (RunOp.requestRunTerminal taskId target request observed).lands =
        fun run => decide (run.isLive taskId = true ∧ run.terminalRequest = observed) := by
      funext run
      simp [RunOp.lands, hallowed]
    rw [hlands]
    show _ = (db.taskRuns.cas target _ (requestRun request) _).2
    rcases Table.cas_cases db.taskRuns target
      (fun run => run.isLive taskId ∧ run.terminalRequest = observed) (requestRun request)
      (fun _ => rfl) with ⟨-, hcas⟩ | ⟨_, -, -, hcas⟩
    · rw [hcas]
      rfl
    · rw [hcas]
      rfl
  | updateActiveRun taskId target patch =>
    simp only [runStep, updateActiveRun]
    split
    · rename_i hempty
      exact (Table.cas_of_never _ _ fun run => by simp [RunOp.lands, hempty]).symm
    rename_i hwrites
    have hlands : (RunOp.updateActiveRun taskId target patch).lands =
        fun run => run.isLive taskId := by
      funext run
      simp [RunOp.lands, hwrites]
    rw [hlands]
    rfl
  | settleActiveRun now taskId target patch =>
    simp only [runStep, settleActiveRun]
    show _ = (db.taskRuns.cas target (fun run => run.finishedAt = none) (finishRun now) _).2
    rcases Table.cas_cases db.taskRuns target (fun run => run.finishedAt = none) (finishRun now)
      (fun _ => rfl) with ⟨-, hcas⟩ | ⟨_, -, -, hcas⟩
    · rw [hcas]
      rfl
    · rw [hcas]
      rfl

/-! ## What one row may become -/

def Supersedes (earlier later : RunTerminalRequest) : Prop :=
  later = earlier ∨ (earlier.kind = .deadlineExceeded ∧ later.kind = .cancelled)

structure RowFollows (run run' : TaskRunRow) : Prop where
  request : ∀ earlier, run.terminalRequest = some earlier →
    ∃ later, run'.terminalRequest = some later ∧ Supersedes earlier later
  finished : run.finishedAt.isSome → run' = run

def BranchRecorded (run : TaskRunRow) : Prop :=
  run.phase = .cancelling ↔ run.terminalRequest.isSome = true

theorem RowFollows.refl (run : TaskRunRow) : RowFollows run run :=
  ⟨fun earlier h => ⟨earlier, h, .inl rfl⟩, fun _ => rfl⟩

theorem Supersedes.trans {a b c : RunTerminalRequest} (hab : Supersedes a b)
    (hbc : Supersedes b c) : Supersedes a c := by
  rcases hab with rfl | ⟨ha, hb⟩
  · exact hbc
  rcases hbc with rfl | ⟨hb', -⟩
  · exact .inr ⟨ha, hb⟩
  · rw [hb] at hb'
    cases hb'

theorem RowFollows.trans {a b c : TaskRunRow} (hab : RowFollows a b) (hbc : RowFollows b c) :
    RowFollows a c := by
  constructor
  · intro earlier hearlier
    obtain ⟨middle, hmiddle, hfirst⟩ := hab.request earlier hearlier
    obtain ⟨later, hlater, hsecond⟩ := hbc.request middle hmiddle
    exact ⟨later, hlater, hfirst.trans hsecond⟩
  intro hfinished
  have hb := hab.finished hfinished
  subst hb
  exact hbc.finished hfinished

/-! ## One update -/

/-- An update that neither writes the branch phase of the run without the request
nor puts a request where it may not go. -/
def KeepsRequests (runId : String) (db : Db) : RunOp → Prop
  | .advanceRun taskId target update observed =>
    target = runId → update.phase = some .cancelling →
      ∀ run, db.taskRuns.get runId = some run → run.isLive taskId = true →
        run.phase = observed → advanceRefused observed update = false → run.phase = .cancelling
  | .updateActiveRun taskId target patch =>
    target = runId → ∀ request, patch.terminalRequest = some request →
      ∀ run, db.taskRuns.get runId = some run → run.isLive taskId = true →
        ∃ current, run.terminalRequest = some current ∧ Supersedes current request
  | _ => True

structure RowStep (run run' : TaskRunRow) : Prop where
  follows : RowFollows run run'
  branch : BranchRecorded run → BranchRecorded run'

theorem RowStep.refl (run : TaskRunRow) : RowStep run run := ⟨.refl run, id⟩

theorem finishedAt_of_isLive {taskId : String} {run : TaskRunRow} (h : run.isLive taskId = true) :
    run.finishedAt = none := by
  simp only [TaskRunRow.isLive, decide_eq_true_eq] at h
  exact h.2

theorem rowStep_of_live {run run' : TaskRunRow} (hlive : run.finishedAt = none)
    (hrequest : run'.terminalRequest = run.terminalRequest)
    (hphase : BranchRecorded run → (run'.phase = .cancelling ↔ run.phase = .cancelling)) :
    RowStep run run' := by
  refine ⟨⟨?_, ?_⟩, ?_⟩
  · intro earlier hearlier
    exact ⟨earlier, hrequest.trans hearlier, .inl rfl⟩
  · intro hfinished
    simp [hlive] at hfinished
  · intro hbranch
    rw [BranchRecorded, hphase hbranch, hrequest]
    exact hbranch

section Step

variable {taskId : String} {db : Db} {run : TaskRunRow}

theorem progressRun_columns (update : RunUpdate) (run : TaskRunRow) :
    (progressRun update run).phase = update.phase.getD run.phase ∧
      (progressRun update run).terminalRequest = run.terminalRequest ∧
      (progressRun update run).finishedAt = run.finishedAt := by
  unfold progressRun
  cases update.progressAt <;> exact ⟨rfl, rfl, rfl⟩

theorem rowStep_progress {update : RunUpdate}
    (hlive : run.isLive taskId = true) (hrefused : advanceRefused run.phase update = false)
    (henters : update.phase = some .cancelling → run.phase = .cancelling) :
    RowStep run (progressRun update run) := by
  obtain ⟨hphase, hrequest, -⟩ := progressRun_columns update run
  refine rowStep_of_live (finishedAt_of_isLive hlive) hrequest fun _ => ?_
  rw [hphase]
  constructor
  · cases hupdate : update.phase with
    | none => exact id
    | some phase =>
      intro heq
      have heq' : phase = .cancelling := heq
      exact henters (hupdate.trans (congrArg some heq'))
  · intro hbranch
    cases hupdate : update.phase with
    | none => exact hbranch
    | some phase =>
      -- the branch phase is left for no other
      rw [advanceRefused, hupdate, hbranch] at hrefused
      simpa using hrefused

theorem rowStep_request {request : RunTerminalRequest}
    (hlive : run.isLive taskId = true) (hrefused : requestRefused run.terminalRequest request = false) :
    RowStep run (requestRun request run) := by
  refine ⟨⟨?_, ?_⟩, ?_⟩
  · intro earlier hearlier
    simp only [requestRefused, hearlier, decide_eq_false_iff_not, not_or, not_not] at hrefused
    refine ⟨request, rfl, .inr ⟨?_, hrefused.2⟩⟩
    cases hkind : earlier.kind with
    | cancelled => exact absurd hkind hrefused.1
    | deadlineExceeded => rfl
  · intro hfinished
    simp [finishedAt_of_isLive hlive] at hfinished
  · intro _
    simp [BranchRecorded, requestRun]

theorem rowStep_patch {patch : ActiveRunPatch}
    (hlive : run.isLive taskId = true)
    (hrequest : ∀ request, patch.terminalRequest = some request →
      ∃ current, run.terminalRequest = some current ∧ Supersedes current request) :
    RowStep run (patchRun patch run) := by
  cases hpatch : patch.terminalRequest with
  | none =>
    have hsame : (patchRun patch run).terminalRequest = run.terminalRequest := by
      simp [patchRun, hpatch]
    exact rowStep_of_live (finishedAt_of_isLive hlive) hsame fun _ => Iff.rfl
  | some request =>
    obtain ⟨current, hcurrent, hsupersedes⟩ := hrequest request hpatch
    have hwritten : (patchRun patch run).terminalRequest = some request := by
      simp [patchRun, hpatch]
    refine ⟨⟨?_, ?_⟩, ?_⟩
    · intro earlier hearlier
      rw [hcurrent, Option.some.injEq] at hearlier
      exact ⟨request, hwritten, hearlier ▸ hsupersedes⟩
    · intro hfinished
      simp [finishedAt_of_isLive hlive] at hfinished
    intro hbranch
    have hphase : run.phase = .cancelling := hbranch.2 (by simp [hcurrent])
    rw [BranchRecorded, hwritten]
    exact ⟨fun _ => rfl, fun _ => hphase⟩

theorem rowStep_finish {now : Millis} (hlive : run.finishedAt = none) :
    RowStep run (finishRun now run) :=
  rowStep_of_live hlive rfl fun _ => Iff.rfl

theorem get_runStep_of_ne (op : RunOp) {runId : String} (hne : runId ≠ op.target) :
    (runStep db op).taskRuns.get runId = db.taskRuns.get runId := by
  rw [runStep_taskRuns]
  exact Table.get_cas_of_ne _ _ hne

/-- **One update relates the row of a run to its former self.** -/
theorem rowStep_step (op : RunOp) {runId : String} (hkeeps : KeepsRequests runId db op)
    (hget : db.taskRuns.get runId = some run) :
    ∃ run', (runStep db op).taskRuns.get runId = some run' ∧ RowStep run run' := by
  by_cases htarget : op.target = runId
  · subst htarget
    rw [runStep_taskRuns]
    refine Table.rowRelation_cas _ op.rewrite_runId (fun row _ => .refl row) ?_ hget
    intro row hrow hlands
    cases op with
    | advanceRun taskId target update observed =>
      simp only [RunOp.lands, decide_eq_true_eq] at hlands
      obtain ⟨hallowed, -, hlive, hphase⟩ := hlands
      exact rowStep_progress hlive (hphase ▸ hallowed) fun hupdate =>
        hkeeps rfl hupdate row hrow hlive hphase hallowed
    | requestRunTerminal taskId target request observed =>
      simp only [RunOp.lands, decide_eq_true_eq] at hlands
      obtain ⟨hallowed, hlive, hrequest⟩ := hlands
      exact rowStep_request hlive (hrequest ▸ hallowed)
    | updateActiveRun taskId target patch =>
      simp only [RunOp.lands, decide_eq_true_eq] at hlands
      exact rowStep_patch hlands.2 fun request hrequest =>
        hkeeps rfl request hrequest row hrow hlands.2
    | settleActiveRun now taskId target patch =>
      simp only [RunOp.lands, decide_eq_true_eq] at hlands
      exact rowStep_finish hlands
  · rw [get_runStep_of_ne op (Ne.symm htarget)]
    exact ⟨run, hget, .refl run⟩

end Step

/-! ## Who finished the run -/

def isFinished (db : Db) (runId : String) : Bool :=
  (db.taskRuns.get runId).any (·.finishedAt.isSome)

variable (runId : String)

def settlesRun (db : Db) : RunOp → Bool
  | .settleActiveRun now taskId target patch =>
    target = runId ∧ (settleActiveRun now taskId target patch db).1
  | _ => false

def settledRuns (runId : String) : Db → List RunOp → Nat
  | _, [] => 0
  | db, op :: ops => (settlesRun runId db op).toNat + settledRuns runId (runStep db op) ops

theorem isFinished_of_column {db db' : Db} {runId : String}
    (h : (db'.taskRuns.get runId).map (·.finishedAt) = (db.taskRuns.get runId).map (·.finishedAt)) :
    isFinished db' runId = isFinished db runId := by
  have hany : ∀ d : Db, isFinished d runId =
      ((d.taskRuns.get runId).map (·.finishedAt)).any (·.isSome) := by
    intro d
    rw [isFinished, Option.any_map]
  rw [hany, hany, h]

theorem rewrite_finishedAt {op : RunOp} (hop : ∀ now taskId target patch,
    op ≠ .settleActiveRun now taskId target patch) (run : TaskRunRow) :
    (op.rewrite run).finishedAt = run.finishedAt := by
  cases op with
  | advanceRun taskId target update observed => exact (progressRun_columns update run).2.2
  | requestRunTerminal taskId target request observed => rfl
  | updateActiveRun taskId target patch => rfl
  | settleActiveRun now taskId target patch => exact absurd rfl (hop now taskId target patch)

/-- The run is finished by the settlement that won, and by nothing else. -/
theorem settlesRun_add_finished (db : Db) (op : RunOp) :
    (settlesRun runId db op).toNat + (isFinished db runId).toNat =
      (isFinished (runStep db op) runId).toNat := by
  have hquiet : settlesRun runId db op = false →
      ((runStep db op).taskRuns.get runId).map (·.finishedAt) =
        (db.taskRuns.get runId).map (·.finishedAt) →
      (settlesRun runId db op).toNat + (isFinished db runId).toNat =
        (isFinished (runStep db op) runId).toNat := by
    intro hlost hcolumn
    rw [hlost, isFinished_of_column hcolumn, Bool.toNat_false, Nat.zero_add]
  have hother : settlesRun runId db op = false → (∀ now taskId target patch,
      op ≠ .settleActiveRun now taskId target patch) →
      (settlesRun runId db op).toNat + (isFinished db runId).toNat =
        (isFinished (runStep db op) runId).toNat := by
    intro hlost hop
    refine hquiet hlost ?_
    rw [runStep_taskRuns]
    exact Table.map_get_cas _ _ _ (rewrite_finishedAt hop) runId
  cases op with
  | settleActiveRun now taskId target patch =>
    by_cases htarget : runId = target
    · subst htarget
      have hkey : ∀ run, Keyed.key (finishRun now run) = Keyed.key run := fun _ => rfl
      rcases Table.cas_cases db.taskRuns runId (fun run => run.finishedAt = none) (finishRun now)
        hkey with ⟨-, hcas⟩ | ⟨run, hget, hguard, hcas⟩
      · refine hquiet ?_ ?_
        · simp [settlesRun, settleActiveRun, hcas]
        · simp [runStep, settleActiveRun, hcas]
      · have hwon : settlesRun runId db (.settleActiveRun now taskId runId patch) = true := by
          simp [settlesRun, settleActiveRun, hcas]
        have hbefore : isFinished db runId = false := by
          simpa [isFinished, hget] using hguard
        have hafter : isFinished (runStep db (.settleActiveRun now taskId runId patch)) runId =
            true := by
          rw [isFinished, runStep_taskRuns]
          show ((db.taskRuns.cas runId (fun run => run.finishedAt = none) (finishRun now)
            hkey).2.get runId).any (·.finishedAt.isSome) = true
          rw [hcas, Table.get_modify_same _ _ _ hkey, hget]
          rfl
        rw [hwon, hbefore, hafter]
        rfl
    · refine hquiet ?_ ?_
      · simp [settlesRun, Ne.symm htarget]
      · rw [get_runStep_of_ne _ htarget]
  | _ => exact hother rfl (by simp)

theorem settledRuns_count (ops : List RunOp) :
    ∀ db, settledRuns runId db ops + (isFinished db runId).toNat =
      (isFinished (runFrom runStep db ops) runId).toNat := by
  induction ops with
  | nil =>
    intro db
    simp [settledRuns]
  | cons op ops ih =>
    intro db
    have hstep := settlesRun_add_finished runId db op
    have hrest := ih (runStep db op)
    rw [settledRuns, runFrom_cons, ← hrest, ← hstep]
    omega

/-! ## Runs of updates -/

theorem rowStep_run {runId : String} (ops : List RunOp) :
    ∀ (db : Db) (run : TaskRunRow), db.taskRuns.get runId = some run → BranchRecorded run →
      StepsMeet runStep (KeepsRequests runId) db ops →
      ∃ run', (runFrom runStep db ops).taskRuns.get runId = some run' ∧
        RowFollows run run' ∧ BranchRecorded run' := by
  induction ops with
  | nil =>
    intro db run hget hbranch _
    exact ⟨run, hget, .refl run, hbranch⟩
  | cons op ops ih =>
    intro db run hget hbranch hkeeps
    obtain ⟨next, hnext, hstep⟩ := rowStep_step op hkeeps.1 hget
    obtain ⟨last, hlast, hfollows, hrecorded⟩ :=
      ih _ next hnext (hstep.branch hbranch) hkeeps.2
    exact ⟨last, hlast, hstep.follows.trans hfollows, hrecorded⟩

/-- **Terminal requests are durable and ordered.**  In every interleaving of the
writers' updates that put no request and no branch phase of their own, every
state has the run in phase `cancelling` exactly when its request is recorded, and
between any two states the request is kept, or a deadline was replaced by a
cancellation; a finished row is not touched again, and the run is finished by
exactly one settlement. -/
theorem requests_durable (db : Db) (before after : List RunOp) (runId : String)
    (run : TaskRunRow) (hget : db.taskRuns.get runId = some run) (hbranch : BranchRecorded run)
    (hkeeps : StepsMeet runStep (KeepsRequests runId) db (before ++ after)) :
    ∃ middle last, (runFrom runStep db before).taskRuns.get runId = some middle ∧
      (runFrom runStep db (before ++ after)).taskRuns.get runId = some last ∧
      BranchRecorded middle ∧ RowFollows middle last ∧
      settledRuns runId db before + (isFinished db runId).toNat =
        (isFinished (runFrom runStep db before) runId).toNat := by
  obtain ⟨hbefore, hafter⟩ := (stepsMeet_append before after db).1 hkeeps
  obtain ⟨middle, hmiddle, -, hrecorded⟩ := rowStep_run before db run hget hbranch hbefore
  obtain ⟨last, hlast, hfollows, -⟩ := rowStep_run after _ middle hmiddle hrecorded hafter
  refine ⟨middle, last, hmiddle, ?_, hrecorded, hfollows, settledRuns_count runId before db⟩
  rw [runFrom_append]
  exact hlast

/-! ## Two runs -/

def reservedDb : Db :=
  { Db.empty with
    taskRuns := Table.ofRows [reservedRun "r" "task" "g" 1 .schedule 0 0 1000] }

def deadlineRequest (requestedAt : Millis) : RunTerminalRequest :=
  ⟨.deadlineExceeded, requestedAt, "deadline"⟩

def cancelRequest (requestedAt : Millis) : RunTerminalRequest :=
  ⟨.cancelled, requestedAt, "user"⟩

theorem deadline_then_cancelled :
    ∃ middle last,
      (runFrom runStep reservedDb
        [.requestRunTerminal "task" "r" (deadlineRequest 5) none]).taskRuns.get "r" = some middle ∧
      (runFrom runStep reservedDb
        ([.requestRunTerminal "task" "r" (deadlineRequest 5) none] ++
          [.requestRunTerminal "task" "r" (cancelRequest 6) (some (deadlineRequest 5)),
            .settleActiveRun 7 "task" "r" .empty])).taskRuns.get "r" = some last ∧
      BranchRecorded middle ∧ RowFollows middle last ∧
      settledRuns "r" reservedDb [.requestRunTerminal "task" "r" (deadlineRequest 5) none] +
          (isFinished reservedDb "r").toNat =
        (isFinished (runFrom runStep reservedDb
          [.requestRunTerminal "task" "r" (deadlineRequest 5) none]) "r").toNat :=
  requests_durable reservedDb [.requestRunTerminal "task" "r" (deadlineRequest 5) none]
    [.requestRunTerminal "task" "r" (cancelRequest 6) (some (deadlineRequest 5)),
      .settleActiveRun 7 "task" "r" .empty] "r"
    (reservedRun "r" "task" "g" 1 .schedule 0 0 1000) (by decide)
    (by simp [BranchRecorded, reservedRun]) ⟨trivial, trivial, trivial, trivial⟩

/-- An advance writes the branch phase of a run that has no request, and a patch
puts a deadline over a recorded cancellation. -/
theorem branch_without_request :
    (((runFrom runStep reservedDb
        [.advanceRun "task" "r" ⟨some .cancelling, none, .none_⟩ .reserved]).taskRuns.get
          "r").map fun run => (run.phase, run.terminalRequest)) = some (.cancelling, none) ∧
      (((runFrom runStep reservedDb
        [.requestRunTerminal "task" "r" (cancelRequest 5) none,
          .updateActiveRun "task" "r" ⟨.none_, some (deadlineRequest 6)⟩]).taskRuns.get
            "r").map (·.terminalRequest)) = some (some (deadlineRequest 6)) := by
  decide

end Abtars
