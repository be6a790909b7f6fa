import Abtars.Pi.RunEvents

/-!
# Requests of a run to its user

A running Pi asks for input; the run then awaits it until a reply claims the request, and a
reply that was not written restores it.  The store remembers one answered request of a run,
and compares the id alone.
-/

namespace Abtars

open Lib

abbrev UiKey := String × Nat × String

structure UiState where
  store : PiRunStore
  claimed : List UiKey
  restored : List UiKey

def claimOf (s : PiRunStore) : PiOp → Option UiKey
  | .claimUi runId generation requestId =>
    (s.runs.get runId).bind fun run =>
      (claimableUi run generation requestId).map fun _ => (runId, generation, requestId)
  | _ => none

def restorationOf (s : PiRunStore) : PiOp → Option UiKey
  | .restoreUi runId generation requestId _ =>
    if (s.runs.get runId).any (·.isRestorable generation requestId) then
      some (runId, generation, requestId)
    else none
  | _ => none

def uiStep (host : PiHost) (s : UiState) (call : PiReads × PiOp) : UiState where
  store := piStep host s.store call
  claimed := (claimOf s.store call.2).toList ++ s.claimed
  restored := (restorationOf s.store call.2).toList ++ s.restored

/-! ## What is owed to a request -/

variable (run : PiRun)

def PiRun.PendsWhileAwaiting : Prop :=
  (run.pendingRequestId.isSome ↔ run.status = .awaitingInput) ∧
    (run.pendingRequestType.isSome ↔ run.status = .awaitingInput)

structure AnswersOnce (s : UiState) : Prop where
  claimedOnce : ∀ key, s.claimed.count key ≤ s.restored.count key + 1
  pends : ∀ run ∈ s.store.runs, run.pendingRequestId.isSome ↔ run.status = .awaitingInput

/-- A request nobody answered in the generation of a run that is running, with none pending, is
taken. -/
def TakesFresh (host : PiHost) (s : UiState) (call : PiReads × PiOp) : Prop :=
  match call.2 with
  | .setUi runId generation requestId _ =>
    ∀ run ∈ s.store.runs.get runId, run.executionGeneration = generation →
      run.status = .running → run.pendingRequestId = none →
        (runId, generation, requestId) ∉ s.claimed →
          ∀ run' ∈ (piStep host s.store call).runs.get runId,
            run'.pendingRequestId = some requestId ∧ run'.status = .awaitingInput
  | _ => True

def KeepsUiRequests (host : PiHost) (s : UiState) (call : PiReads × PiOp) : Prop :=
  AnswersOnce (uiStep host s call) ∧ TakesFresh host s call

/-- A transition as the callers of the store make it: no request is pending after it, and the
generation stays. -/
def RunUpdates.LeavesRequests (updates : RunUpdates) (fromStatuses : List PiRunStatus)
    (toStatus : PiRunStatus) : Prop :=
  toStatus ≠ .awaitingInput ∧ updates.executionGeneration = none ∧
    (.awaitingInput ∈ fromStatuses →
      updates.pendingRequestId.isSome ∧ updates.pendingRequestType.isSome) ∧
    (∀ requestId ∈ updates.pendingRequestId, requestId = none) ∧
    ∀ requestType ∈ updates.pendingRequestType, requestType = none

instance (updates : RunUpdates) (fromStatuses : List PiRunStatus) (toStatus : PiRunStatus) :
    Decidable (updates.LeavesRequests fromStatuses toStatus) :=
  inferInstanceAs (Decidable (_ ∧ updates.executionGeneration = none ∧ (_ → _) ∧
    (∀ requestId ∈ updates.pendingRequestId, requestId = none) ∧
    ∀ requestType ∈ updates.pendingRequestType, requestType = none))

def PiOp.IsOrdinary : PiOp → Prop
  | .cas _ fromStatuses toStatus updates _ => updates.LeavesRequests fromStatuses toStatus
  | _ => True

instance : DecidablePred PiOp.IsOrdinary := fun op =>
  match op with
  | .cas _ fromStatuses toStatus updates _ =>
    inferInstanceAs (Decidable (updates.LeavesRequests fromStatuses toStatus))
  | .create _ | .settle .. | .interrupt .. | .queueSupervised .. | .queueResume .. | .claimUi ..
  | .restoreUi .. | .recordUi .. | .setUi .. | .release .. | .start .. | .recover | .others .. =>
    inferInstanceAs (Decidable True)

/-- A request the process makes names an id of its own: the last answered id only in the
generation it was answered in, and no other id with a reply that was not restored. -/
def AsksAnew (s : UiState) (call : PiReads × PiOp) : Prop :=
  call.2.IsOrdinary ∧
  match call.2 with
  | .setUi runId generation requestId _ =>
    ∀ run ∈ s.store.runs.get runId, run.executionGeneration = generation →
      run.status = .running → run.pendingRequestId = none →
      (run.lastUiReplyRequestId = some requestId →
        run.lastUiReplyGeneration = some generation) ∧
      (run.lastUiReplyRequestId ≠ some requestId →
        s.claimed.count (runId, generation, requestId) ≤
          s.restored.count (runId, generation, requestId))
  | _ => True

instance (s : UiState) : DecidablePred (AsksAnew s) := fun call =>
  match call with
  | (_, .setUi runId generation requestId requestType) =>
    inferInstanceAs (Decidable ((PiOp.setUi runId generation requestId requestType).IsOrdinary ∧
      ∀ run ∈ s.store.runs.get runId, _ → _ → _ → (_ → _) ∧ (_ → _)))
  | (_, .create _) | (_, .cas ..) | (_, .settle ..) | (_, .interrupt ..) | (_, .queueSupervised ..)
  | (_, .queueResume ..) | (_, .claimUi ..) | (_, .restoreUi ..) | (_, .recordUi ..)
  | (_, .release ..) | (_, .start ..) | (_, .recover) | (_, .others ..) =>
    inferInstanceAs (Decidable (_ ∧ True))

/-! ## Calls that are not about requests -/

/-- What such a call may write in a row: the last answer stays, and the run awaits nothing or
stays as it was. -/
def RowCalm (run' : PiRun) : Prop :=
  run'.id = run.id ∧ run'.lastUiReplyRequestId = run.lastUiReplyRequestId ∧
    run'.lastUiReplyGeneration = run.lastUiReplyGeneration ∧
    ((run'.status ≠ .awaitingInput ∧ run'.pendingRequestId = none ∧
        run'.pendingRequestType = none) ∨
      (run'.status = run.status ∧ run'.pendingRequestId = run.pendingRequestId ∧
        run'.pendingRequestType = run.pendingRequestType ∧
        run'.executionGeneration = run.executionGeneration))

def PiRun.IsUnasked : Prop :=
  run.status ≠ .awaitingInput ∧ run.pendingRequestId = none ∧ run.pendingRequestType = none ∧
    run.lastUiReplyRequestId = none

def Calm (s s' : PiRunStore) : Prop :=
  ∀ run' ∈ s'.runs, run'.IsUnasked ∨ ∃ run ∈ s.runs, RowCalm run run'

theorem RowCalm.refl : RowCalm run run :=
  ⟨rfl, rfl, rfl, .inr ⟨rfl, rfl, rfl, rfl⟩⟩

theorem RowCalm.trans {a b c : PiRun} (h : RowCalm a b) (h' : RowCalm b c) : RowCalm a c := by
  obtain ⟨hid, hlast, hgeneration, hrow⟩ := h
  obtain ⟨hid', hlast', hgeneration', hrow'⟩ := h'
  refine ⟨hid'.trans hid, hlast'.trans hlast, hgeneration'.trans hgeneration, ?_⟩
  rcases hrow' with hnone' | ⟨hstatus', hpending', htype', hgen'⟩
  · exact .inl hnone'
  · rw [hstatus', hpending', htype', hgen']
    exact hrow

theorem Calm.refl (s : PiRunStore) : Calm s s := fun run hrun => .inr ⟨run, hrun, RowCalm.refl run⟩

theorem Calm.trans {a b c : PiRunStore} (h : Calm a b) (h' : Calm b c) : Calm a c := by
  intro run'' hrun''
  rcases h' run'' hrun'' with hnew | ⟨run', hrun', hrow'⟩
  · exact .inl hnew
  rcases h run' hrun' with ⟨hstatus, hpending, htype, hlast⟩ | ⟨run, hrun, hrow⟩
  · obtain ⟨-, hlast', -, hrow'⟩ := hrow'
    refine .inl ?_
    rcases hrow' with ⟨h₁, h₂, h₃⟩ | ⟨h₁, h₂, h₃, -⟩
    · exact ⟨h₁, h₂, h₃, hlast'.trans hlast⟩
    · exact ⟨by rw [h₁]; exact hstatus, h₂.trans hpending, h₃.trans htype, hlast'.trans hlast⟩
  · exact .inr ⟨run, hrun, hrow.trans hrow'⟩

section Calls

variable {generation : Nat} {answer : PiCommit Nat}

variable {host : PiHost} {reads : PiReads} {runId : String} {s s₁ s' : PiRunStore} {run : PiRun}

theorem calm_of_runs (hruns : s'.runs = s.runs) : Calm s s' := by
  intro run hrun
  rw [hruns] at hrun
  exact .inr ⟨run, hrun, RowCalm.refl run⟩

theorem calm_write {f : PiRun → PiRun} {hf : ∀ run, (f run).id = run.id}
    (hget : s.runs.get runId = some run) (hruns : s₁.runs = (s.write runId f hf).runs)
    (hrow : RowCalm run (f run)) : Calm s s₁ := by
  intro other hother
  rw [hruns, PiRunStore.write, Table.mem_modify] at hother
  rcases hother with ⟨hmem, -⟩ | ⟨old, hold, rfl⟩
  · exact .inr ⟨other, hmem, RowCalm.refl other⟩
  · rw [hget] at hold
    cases hold
    exact .inr ⟨run, Table.mem_of_get hget, hrow⟩

theorem RowCalm.withStatus {status : PiRunStatus} {now : String} (hpends : run.PendsWhileAwaiting)
    (hfrom : run.status ≠ .awaitingInput) (hto : status ≠ .awaitingInput) :
    RowCalm run (withStatus status now run) := by
  have hid : run.pendingRequestId = none := by
    simpa using (not_congr hpends.1).2 hfrom
  have htype : run.pendingRequestType = none := by
    simpa using (not_congr hpends.2).2 hfrom
  exact ⟨rfl, rfl, rfl, .inl ⟨hto, hid, htype⟩⟩

theorem calm_createPiCardAndRun {input : CreatePiRunInput} {cardId : Nat}
    (h : createPiCardAndRun host reads input s = .ok (cardId, s')) : Calm s s' := by
  rw [createPiCardAndRun] at h
  split at h
  · cases h
  split at h
  · rename_i board runs hboard hruns
    obtain ⟨accepted, haccepted, h⟩ := bind_eq_ok.1 h
    obtain ⟨queued, hqueued, h⟩ := bind_eq_ok.1 h
    split at h
    · cases h
    cases h
    have hkept : s'.runs = runs :=
      (emitInTx_frame hqueued).1.trans (emitInTx_frame haccepted).1
    intro run hrun
    rw [hkept] at hrun
    rcases (Table.mem_insert hruns).1 hrun with hold | rfl
    · exact .inr ⟨run, hold, RowCalm.refl run⟩
    · exact .inl ⟨by simp [CreatePiRunInput.run], rfl, rfl, rfl⟩
  · cases h

theorem calm_wrote {f : PiRun → PiRun} {input : TransitionInput}
    (h : Wrote host reads s s' run f input) (hrow : RowCalm run (f run)) : Calm s s' :=
  calm_write h.get h.runs hrow

theorem calm_casTransition {fromStatuses : List PiRunStatus} {toStatus : PiRunStatus}
    {updates : RunUpdates} {expectedGeneration : Option Nat} {changed : Bool}
    (hpends : ∀ run ∈ s.runs, run.PendsWhileAwaiting)
    (hleaves : updates.LeavesRequests fromStatuses toStatus)
    (h : casTransition host reads runId fromStatuses toStatus updates expectedGeneration s =
      .ok (changed, s')) : Calm s s' := by
  rcases casTransition_cases h with rfl | ⟨run, hmem, hwrote⟩
  · exact Calm.refl _
  obtain ⟨hto, hgeneration, hclears, hid, htype⟩ := hleaves
  obtain ⟨hpendsId, hpendsType⟩ := hpends run (Table.mem_of_get hwrote.get)
  refine calm_wrote hwrote ⟨rfl, rfl, rfl, .inl ⟨hto, ?_, ?_⟩⟩
  · cases hupdate : updates.pendingRequestId with
    | some requestId => simp [RunUpdates.write, hupdate, hid requestId hupdate]
    | none =>
      have hfrom : run.status ≠ .awaitingInput := by
        rintro hawaiting
        rw [hawaiting] at hmem
        simpa [hupdate] using (hclears hmem).1
      simpa [RunUpdates.write, hupdate] using (not_congr hpendsId).2 hfrom
  · cases hupdate : updates.pendingRequestType with
    | some requestType => simp [RunUpdates.write, hupdate, htype requestType hupdate]
    | none =>
      have hfrom : run.status ≠ .awaitingInput := by
        rintro hawaiting
        rw [hawaiting] at hmem
        simpa [hupdate] using (hclears hmem).2
      simpa [RunUpdates.write, hupdate] using (not_congr hpendsType).2 hfrom

theorem calm_recoverPiRun (hget : s.runs.get run.id = some run)
    (h : recoverPiRun host reads s run = .ok s') : Calm s s' := by
  rcases recoverPiRun_cases hget h with rfl | ⟨-, rfl⟩ | ⟨-, hwrote⟩
  · exact Calm.refl _
  · exact calm_write hget rfl ⟨rfl, rfl, rfl, .inr ⟨rfl, rfl, rfl, rfl⟩⟩
  · exact calm_wrote hwrote ⟨rfl, rfl, rfl, .inl ⟨by simp [restartedRun], rfl, rfl⟩⟩

theorem calm_recoverNonterminal {answer : Unit}
    (h : recoverNonterminal host reads s = .ok (answer, s')) : Calm s s' :=
  recoverNonterminal_keeps (I := Calm s)
    (fun _ _ _ hcalm hget _ h => hcalm.trans (calm_recoverPiRun hget h)) (Calm.refl s) h

theorem calm_releaseWorkspaceClaim {canonicalPath : String}
    {restoreQueued : Bool} (hpends : ∀ run ∈ s.runs, run.PendsWhileAwaiting) :
    Calm s (releaseWorkspaceClaim reads canonicalPath runId generation restoreQueued s).2 := by
  rw [releaseWorkspaceClaim]
  cases releaseExact canonicalPath runId generation s.claims with
  | mk released claims =>
    cases released with
    | false => exact Calm.refl s
    | true =>
      cases hget : s.runs.get runId with
      | none => exact calm_of_runs rfl
      | some run =>
        simp only []
        split
        · rename_i hguard
          exact calm_write hget rfl (RowCalm.withStatus (hpends run (Table.mem_of_get hget))
            (by rw [hguard.2.2]; decide) (by decide))
        · exact calm_of_runs rfl

/-- A start tries a run that is queued, and its row is starting, or queued again. -/
theorem calm_claimQueuedGeneration {cardId : Nat} {canonicalPath : String} {answer : PiStartClaim}
    (hpends : ∀ run ∈ s.runs, run.PendsWhileAwaiting)
    (h : claimQueuedGeneration host reads cardId canonicalPath s = .ok (answer, s')) :
    Calm s s' := by
  rw [claimQueuedGeneration] at h
  split at h
  · cases h
    exact Calm.refl s
  rename_i run hrun
  obtain ⟨hget, -, hqueued⟩ := queuedRun_spec hrun
  have hrows : run.PendsWhileAwaiting := hpends run (Table.mem_of_get hget)
  have hawake : run.status ≠ .awaitingInput := by
    rw [hqueued]
    decide
  obtain ⟨⟨claim, held⟩, hclaim, h⟩ := bind_eq_ok.1 h
  have hheld : Calm s held ∧ ∃ row, held.runs.get run.id = some row ∧
      row.PendsWhileAwaiting ∧ row.status ≠ .awaitingInput := by
    rcases claimWorkspace_cases host reads canonicalPath .standalone hget hqueued rfl with
      ⟨-, other, -, hsame⟩ | ⟨claims, -, hemit⟩
    · rw [hclaim] at hsame
      cases hsame
      exact ⟨Calm.refl s, run, hget, hrows, hawake⟩
    · rw [hclaim] at hemit
      obtain ⟨told, htold, hsame⟩ := map_eq_ok.1 hemit.symm
      cases hsame
      have hruns : held.runs = (s.write run.id (withStatus .starting reads.now)).runs :=
        (emitInTx_frame htold).1
      refine ⟨calm_write hget hruns (RowCalm.withStatus hrows hawake (by decide)),
        withStatus .starting reads.now run, by rw [hruns]; exact get_write hget, ?_,
        by simp [withStatus]⟩
      rw [PiRun.PendsWhileAwaiting, hqueued] at hrows
      exact ⟨iff_of_false (fun hsome => by simpa using hrows.1.1 hsome) (by simp [withStatus]),
        iff_of_false (fun hsome => by simpa using hrows.2.1 hsome) (by simp [withStatus])⟩
  obtain ⟨hcalm, row, hrow, hrowPends, hrowAwake⟩ := hheld
  have hstart : ∀ answer s', startCard host reads run canonicalPath held = .ok (answer, s') →
      Calm s s' := by
    intro answer s' h
    obtain ⟨answer', s'', hstarted, -, hruns⟩ := startCard_ok host reads held run canonicalPath
    have hsame := hstarted.symm.trans h
    cases hsame
    rcases hruns with ⟨-, hruns⟩ | ⟨-, hruns⟩
    · exact hcalm.trans (calm_of_runs hruns)
    · exact hcalm.trans (calm_write hrow hruns
        (RowCalm.withStatus hrowPends hrowAwake (by decide)))
  cases claim with
  | claimed => exact hstart _ _ h
  | idempotent => exact hstart _ _ h
  | busy holder =>
    cases h
    exact hcalm
  | stale reason =>
    cases h
    exact hcalm

theorem calm_transactionOf {α : Type} {body : Body PiRunStore PiStoreError α}
    (h : ∀ answer s', body s = .ok (answer, s') → Calm s s') : Calm s (transactionOf body s).2 := by
  rw [transactionOf, transaction]
  cases hbody : body s with
  | ok result => exact h result.1 result.2 hbody
  | error e => cases e <;> exact Calm.refl s

def PiOp.isAboutRequests : PiOp → Bool
  | .claimUi .. => true
  | .restoreUi .. => true
  | .setUi .. => true
  | _ => false

/-- The calls that are not about requests leave no run awaiting one it did not await. -/
theorem piCall_calm {op : PiOp} (hpends : ∀ run ∈ s.runs, run.PendsWhileAwaiting)
    (hordinary : op.IsOrdinary) (hop : op.isAboutRequests = false) :
    Calm s (piCall host reads s op).2 := by
  cases op with
  | create input => exact calm_transactionOf fun _ _ h => calm_createPiCardAndRun h
  | cas runId fromStatuses toStatus updates expectedGeneration =>
    exact calm_transactionOf fun _ _ h => calm_casTransition hpends hordinary h
  | settle runId generation expectedStatuses outcome metadata =>
    refine calm_transactionOf fun _ _ h => ?_
    rcases settleTerminal_cases h with rfl | ⟨run, hwrote⟩
    · exact Calm.refl _
    · refine calm_wrote hwrote ⟨rfl, rfl, rfl, .inl ⟨?_, rfl, rfl⟩⟩
      cases outcome <;> simp [PiTerminalMetadata.write, PiTerminalOutcome.status]
  | interrupt runId generation continuity =>
    refine calm_transactionOf fun _ _ h => ?_
    rcases interruptGeneration_cases h with rfl | ⟨run, -, hwrote⟩
    · exact Calm.refl _
    · exact calm_wrote hwrote ⟨rfl, rfl, rfl, .inl ⟨by simp [interruptedRun], rfl, rfl⟩⟩
  | queueSupervised runId expectedGeneration newSessionId sessionFile continuity =>
    refine calm_transactionOf fun _ _ h => ?_
    rcases queueSupervisedGeneration_cases h with rfl | ⟨run, hwrote⟩
    · exact Calm.refl _
    · refine calm_wrote hwrote ?_
      cases continuity <;>
        exact ⟨rfl, rfl, rfl, .inl ⟨by simp [supervisedGeneration, nextGeneration], rfl, rfl⟩⟩
  | queueResume runId expectedGeneration newSessionId =>
    refine calm_transactionOf fun _ _ h => ?_
    rcases queueResumeGeneration_cases h with rfl | ⟨run, hget, ⟨_, rfl⟩ | ⟨_, _, hwrote⟩⟩
    · exact Calm.refl _
    · exact calm_write hget rfl ⟨rfl, rfl, rfl, .inr ⟨rfl, rfl, rfl, rfl⟩⟩
    · exact calm_wrote hwrote
        ⟨rfl, rfl, rfl, .inl ⟨by simp [resumedGeneration, nextGeneration], rfl, rfl⟩⟩
  | release canonicalPath runId generation restoreQueued =>
    exact calm_releaseWorkspaceClaim hpends
  | start cardId canonicalPath =>
    exact calm_transactionOf fun _ _ h => calm_claimQueuedGeneration hpends h
  | recover => exact calm_transactionOf fun _ _ h => calm_recoverNonterminal h
  | recordUi runId generation requestId =>
    change Calm s (recordUiReplyOutcome reads runId generation requestId s).2
    rw [recordUiReplyOutcome]
    split
    · exact Calm.refl s
    rename_i run hget
    split
    · exact calm_write hget rfl ⟨rfl, rfl, rfl, .inr ⟨rfl, rfl, rfl, rfl⟩⟩
    · exact Calm.refl s
  | others db claims => exact calm_of_runs rfl
  | _ => cases hop

end Calls

/-! ## Calls about requests -/

structure RequestsHold (s : UiState) : Prop where
  pends : ∀ run ∈ s.store.runs, run.PendsWhileAwaiting
  claimedOnce : ∀ key, s.claimed.count key ≤ s.restored.count key + 1
  pendingOpen : ∀ run ∈ s.store.runs, ∀ requestId ∈ run.pendingRequestId,
    s.claimed.count (run.id, run.executionGeneration, requestId) ≤
      s.restored.count (run.id, run.executionGeneration, requestId)
  lastClaimed : ∀ run ∈ s.store.runs, ∀ requestId ∈ run.lastUiReplyRequestId,
    ∃ generation, run.lastUiReplyGeneration = some generation ∧
      (run.id, generation, requestId) ∈ s.claimed

section Requests

variable {host : PiHost} {reads : PiReads} {runId : String} {s : UiState}

theorem RequestsHold.answersOnce (h : RequestsHold s) : AnswersOnce s :=
  ⟨h.claimedOnce, fun run hrun => (h.pends run hrun).1⟩

variable {store : PiRunStore} {requestId now : String}

theorem RequestsHold.calm (h : RequestsHold s) (hcalm : Calm s.store store) :
    RequestsHold { s with store } := by
  refine ⟨fun run' hrun' => ?_, h.claimedOnce, fun run' hrun' requestId hpending => ?_,
    fun run' hrun' requestId hlast => ?_⟩
  · rcases hcalm run' hrun' with ⟨hstatus, hid, htype, -⟩ | ⟨run, hrun, -, -, -, hrow⟩
    · exact ⟨by simp [hid, hstatus], by simp [htype, hstatus]⟩
    rcases hrow with ⟨hstatus, hid, htype⟩ | ⟨hstatus, hid, htype, -⟩
    · exact ⟨by simp [hid, hstatus], by simp [htype, hstatus]⟩
    · rw [PiRun.PendsWhileAwaiting, hstatus, hid, htype]
      exact h.pends run hrun
  · rcases hcalm run' hrun' with ⟨-, hid, -, -⟩ | ⟨run, hrun, hname, -, -, hrow⟩
    · rw [hid] at hpending
      cases hpending
    rcases hrow with ⟨-, hid, -⟩ | ⟨-, hid, -, hgeneration⟩
    · rw [hid] at hpending
      cases hpending
    · rw [hname, hgeneration]
      exact h.pendingOpen run hrun requestId (hid ▸ hpending)
  · rcases hcalm run' hrun' with ⟨-, -, -, hnone⟩ | ⟨run, hrun, hname, hsame, hgeneration, -⟩
    · rw [hnone] at hlast
      cases hlast
    · rw [hname, hgeneration]
      exact h.lastClaimed run hrun requestId (hsame ▸ hlast)

theorem tellUpdate_runs {α : Type} {input : TransitionInput} {value : α} {updated : PiRunStore} :
    (tellUpdate host reads runId input value updated).2.runs = updated.runs := by
  rw [tellUpdate]
  cases htell : emitInTx host reads runId input updated with
  | error e => rfl
  | ok told => exact (emitInTx_frame htell).1

theorem mem_written {store' : PiRunStore} {run other : PiRun} {f : PiRun → PiRun}
    {hf : ∀ run, (f run).id = run.id} (hget : store.runs.get runId = some run)
    (hruns : store'.runs = (store.write runId f hf).runs) (hother : other ∈ store'.runs) :
    (other ∈ store.runs ∧ other.id ≠ runId) ∨ other = f run := by
  rw [hruns, PiRunStore.write, Table.mem_modify] at hother
  rcases hother with ⟨hmem, hne⟩ | ⟨old, hold, rfl⟩
  · exact .inl ⟨hmem, hne⟩
  · rw [hget] at hold
    cases hold
    exact .inr rfl

theorem RequestsHold.setUi {run : PiRun} {requestType : PendingInputType} (h : RequestsHold s)
    (hget : s.store.runs.get runId = some run)
    (hopen : s.claimed.count (run.id, run.executionGeneration, requestId) ≤
      s.restored.count (run.id, run.executionGeneration, requestId))
    (hruns : store.runs = (s.store.write runId (awaitingUi requestId requestType now)).runs) :
    RequestsHold { s with store } := by
  refine ⟨fun other hother => ?_, h.claimedOnce, fun other hother asked hpending => ?_,
    fun other hother asked hlast => ?_⟩
  · rcases mem_written hget hruns hother with ⟨hmem, -⟩ | rfl
    · exact h.pends other hmem
    · simp [PiRun.PendsWhileAwaiting, awaitingUi]
  · rcases mem_written hget hruns hother with ⟨hmem, -⟩ | rfl
    · exact h.pendingOpen other hmem asked hpending
    · cases hpending
      exact hopen
  · rcases mem_written hget hruns hother with ⟨hmem, -⟩ | rfl
    · exact h.lastClaimed other hmem asked hlast
    · exact h.lastClaimed run (Table.mem_of_get hget) asked hlast

/-- A claim: the request was open, and none is pending. -/
theorem RequestsHold.claimUi {run : PiRun} (h : RequestsHold s)
    (hget : s.store.runs.get runId = some run) (hpending : run.pendingRequestId = some requestId)
    (hruns : store.runs =
      (s.store.write runId (claimedUi run.executionGeneration requestId now)).runs) :
    RequestsHold
      { s with store, claimed := (runId, run.executionGeneration, requestId) :: s.claimed } := by
  have hid : run.id = runId := Table.key_of_get hget
  have hopen := h.pendingOpen run (Table.mem_of_get hget) requestId hpending
  rw [hid] at hopen
  refine ⟨fun other hother => ?_, fun key => ?_, fun other hother asked hasked => ?_,
    fun other hother asked hlast => ?_⟩
  · rcases mem_written hget hruns hother with ⟨hmem, -⟩ | rfl
    · exact h.pends other hmem
    · simp [PiRun.PendsWhileAwaiting, claimedUi]
  · by_cases hkey : key = (runId, run.executionGeneration, requestId)
    · subst hkey
      simp only [List.count_cons_self]
      omega
    · rw [List.count_cons_of_ne (Ne.symm hkey)]
      exact h.claimedOnce key
  · rcases mem_written hget hruns hother with ⟨hmem, hne⟩ | rfl
    · have hkey : (runId, run.executionGeneration, requestId) ≠
          (other.id, other.executionGeneration, asked) :=
        fun heq => hne (Prod.mk.inj heq).1.symm
      rw [List.count_cons_of_ne hkey]
      exact h.pendingOpen other hmem asked hasked
    · cases hasked
  · rcases mem_written hget hruns hother with ⟨hmem, -⟩ | rfl
    · obtain ⟨generation, hgeneration, hclaimed⟩ := h.lastClaimed other hmem asked hlast
      exact ⟨generation, hgeneration, List.mem_cons_of_mem _ hclaimed⟩
    · cases hlast
      exact ⟨run.executionGeneration, rfl, by simp [claimedUi, hid]⟩

theorem RequestsHold.restoreUi {run : PiRun} {requestType : PendingInputType} (h : RequestsHold s)
    (hget : s.store.runs.get runId = some run)
    (hruns : store.runs = (s.store.write runId fun run =>
      { awaitingUi requestId requestType now run with lastUiReplyOutcome := none }).runs) :
    RequestsHold
      { s with store, restored := (runId, run.executionGeneration, requestId) :: s.restored } := by
  have hid : run.id = runId := Table.key_of_get hget
  have hgrow : ∀ key, s.restored.count key ≤
      ((runId, run.executionGeneration, requestId) :: s.restored).count key :=
    fun key => List.count_le_count_cons
  refine ⟨fun other hother => ?_, fun key => ?_, fun other hother asked hasked => ?_,
    fun other hother asked hlast => ?_⟩
  · rcases mem_written hget hruns hother with ⟨hmem, -⟩ | rfl
    · exact h.pends other hmem
    · simp [PiRun.PendsWhileAwaiting, awaitingUi]
  · have hold := h.claimedOnce key
    have hmore := hgrow key
    simp only []
    omega
  · rcases mem_written hget hruns hother with ⟨hmem, -⟩ | rfl
    · exact le_trans (h.pendingOpen other hmem asked hasked) (hgrow _)
    cases hasked
    have hold := h.claimedOnce (runId, run.executionGeneration, requestId)
    change s.claimed.count (run.id, run.executionGeneration, requestId) ≤ _
    simp only [awaitingUi, hid, List.count_cons_self]
    exact hold
  · rcases mem_written hget hruns hother with ⟨hmem, -⟩ | rfl
    · exact h.lastClaimed other hmem asked hlast
    · exact h.lastClaimed run (Table.mem_of_get hget) asked hlast

theorem uiSetRefusal_eq_none {run : PiRun} (hpends : run.PendsWhileAwaiting)
    (hrunning : run.status = .running) (hnew : run.lastUiReplyRequestId ≠ some requestId) :
    uiSetRefusal run run.executionGeneration requestId = none := by
  have hid : run.pendingRequestId = none := by
    simpa [hrunning] using hpends.1
  have htype : run.pendingRequestType = none := by
    simpa [hrunning] using hpends.2
  simp [uiSetRefusal, hid, htype, hrunning, hnew]

/-- Every call that asks anew keeps what holds of the requests. -/
theorem requestsHold_step (h : RequestsHold s) {call : PiReads × PiOp} (hcall : AsksAnew s call) :
    RequestsHold (uiStep host s call) := by
  obtain ⟨reads, op⟩ := call
  cases hop : op.isAboutRequests with
  | false =>
    have hledger : claimOf s.store op = none ∧ restorationOf s.store op = none := by
      cases op <;> first | exact ⟨rfl, rfl⟩ | cases hop
    have hstep : uiStep host s (reads, op) = { s with store := piStep host s.store (reads, op) } := by
      simp [uiStep, hledger]
    rw [hstep]
    exact h.calm (piCall_calm h.pends hcall.1 hop)
  | true =>
    cases op with
    | claimUi runId generation requestId =>
      cases hget : s.store.runs.get runId with
      | none => simpa [uiStep, piStep, piCall, claimPendingUi, claimOf, restorationOf, hget] using h
      | some run =>
        cases hclaim : claimableUi run generation requestId with
        | none =>
          simpa [uiStep, piStep, piCall, claimPendingUi, claimOf, restorationOf, hget,
            hclaim] using h
        | some requestType =>
          have hguard := hclaim
          rw [claimableUi] at hguard
          split at hguard
          · rename_i hopen
            obtain ⟨hgeneration, -, hpending⟩ := hopen
            subst hgeneration
            simp only [uiStep, piStep, piCall, claimPendingUi_eq hget hclaim, claimOf, hget,
              Option.bind_some, hclaim, restorationOf]
            exact h.claimUi hget hpending tellUpdate_runs
          · cases hguard
    | restoreUi runId generation requestId requestType =>
      cases hget : s.store.runs.get runId with
      | none =>
        simpa [uiStep, piStep, piCall, restorePendingUi, claimOf, restorationOf, hget] using h
      | some run =>
        cases hrestorable : run.isRestorable generation requestId with
        | false =>
          simpa [uiStep, piStep, piCall, restorePendingUi, claimOf, restorationOf, hget,
            hrestorable] using h
        | true =>
          have hgeneration : run.executionGeneration = generation := by
            simp only [PiRun.isRestorable, decide_eq_true_eq] at hrestorable
            exact hrestorable.1
          subst hgeneration
          simp only [uiStep, piStep, piCall, restorePendingUi_eq hget hrestorable, claimOf,
            restorationOf, hget, Option.any_some, hrestorable, if_true]
          exact h.restoreUi hget tellUpdate_runs
    | setUi runId generation requestId requestType =>
      cases hget : s.store.runs.get runId with
      | none => simpa [uiStep, piStep, piCall, setPendingUi, claimOf, restorationOf, hget] using h
      | some run =>
        cases hrefusal : uiSetRefusal run generation requestId with
        | some reason =>
          simpa [uiStep, piStep, piCall, setPendingUi, claimOf, restorationOf, hget,
            hrefusal] using h
        | none =>
          have hguard := hrefusal
          simp only [uiSetRefusal] at hguard
          split_ifs at hguard with hgeneration hid htype hstatus hlast
          have hopen := (hcall.2 run hget (not_not.1 hgeneration) (not_not.1 hstatus)
            (by simpa using hid)).2 hlast
          rw [← show run.id = runId from Table.key_of_get hget,
            ← not_not.1 hgeneration] at hopen
          simp only [uiStep, piStep, piCall, setPendingUi_eq hget hrefusal, claimOf,
            restorationOf]
          exact h.setUi hget hopen tellUpdate_runs
    | _ => cases hop

theorem takesFresh_of_hold (h : RequestsHold s) {call : PiReads × PiOp} (hcall : AsksAnew s call) :
    TakesFresh host s call := by
  obtain ⟨reads, op⟩ := call
  cases op with
  | setUi runId generation requestId requestType =>
    intro run hget hgeneration hrunning hpending hnew run' hget'
    subst hgeneration
    have hpends := h.pends run (Table.mem_of_get hget)
    have hlast : run.lastUiReplyRequestId ≠ some requestId := by
      intro hlast
      have hsame := (hcall.2 run hget rfl hrunning hpending).1 hlast
      obtain ⟨generation, hgeneration, hclaimed⟩ :=
        h.lastClaimed run (Table.mem_of_get hget) requestId hlast
      rw [hsame] at hgeneration
      cases hgeneration
      rw [show run.id = runId from Table.key_of_get hget] at hclaimed
      exact hnew hclaimed
    have hruns : (piStep host s.store (reads, .setUi runId run.executionGeneration requestId
        requestType)).runs = (s.store.write runId (awaitingUi requestId requestType
          reads.now)).runs := by
      simp only [piStep, piCall,
        setPendingUi_eq hget (uiSetRefusal_eq_none hpends hrunning hlast)]
      exact tellUpdate_runs
    rw [hruns] at hget'
    cases hget'.symm.trans (get_write hget)
    exact ⟨rfl, rfl⟩
  | _ => trivial

end Requests

/-- In every run of the store in which every request names an id of its own, after each call
each reply was claimed at most once more often than it was restored, a request is pending
exactly while its run awaits input, and a request not answered before in its generation is
taken by a run that is running with none pending. -/
theorem ui_requests_run (host : PiHost) (db : Db) (claims : Table WorkspaceClaim)
    (nextCardId : Nat) (calls : List (PiReads × PiOp))
    (h : StepsMeet (uiStep host) AsksAnew ⟨.fresh db claims nextCardId, [], []⟩ calls) :
    StepsMeet (uiStep host) (KeepsUiRequests host) ⟨.fresh db claims nextCardId, [], []⟩ calls := by
  refine stepsMeet_of_kept (I := RequestsHold) (fun s call hs hcall => requestsHold_step hs hcall)
    (fun s call hs hcall => ⟨(requestsHold_step hs hcall).answersOnce, takesFresh_of_hold hs hcall⟩)
    calls _ ⟨?_, fun key => by simp, ?_, ?_⟩ h
  · exact fun run hrun => absurd hrun (Table.not_mem_empty run)
  · exact fun run hrun => absurd hrun (Table.not_mem_empty run)
  · exact fun run hrun => absurd hrun (Table.not_mem_empty run)

def clearingUpdates : RunUpdates where
  executionGeneration := none
  currentSessionId := none
  piSessionId := none
  piSessionFile := none
  observedPid := none
  modelProvider := none
  modelId := none
  thinking := none
  pendingRequestId := some none
  pendingRequestType := some none
  resultSummary := none
  changedFilesSummary := none
  usage := none
  error := none
  resumeCapability := none

def runningCalls : List PiOp :=
  [.create { delegatedInput with origin := .user, originPeer := none }, .start 1 "/w",
    .cas "run" [.starting] .running clearingUpdates (some 1)]

def answeredCalls : List PiOp :=
  runningCalls ++ [.setUi "run" 1 "a" .confirm, .claimUi "run" 1 "a", .setUi "run" 1 "b" .confirm,
    .claimUi "run" 1 "b"]

def withPlainReads (ops : List PiOp) : List (PiReads × PiOp) := ops.map fun op => (plainPiReads, op)

theorem ui_requests_run_answered :
    StepsMeet (uiStep plainPiHost) AsksAnew ⟨.fresh Db.empty ∅ 1, [], []⟩
        (withPlainReads answeredCalls) ∧
      StepsMeet (uiStep plainPiHost) (KeepsUiRequests plainPiHost) ⟨.fresh Db.empty ∅ 1, [], []⟩
        (withPlainReads answeredCalls) := by
  have hmeets : StepsMeet (uiStep plainPiHost) AsksAnew ⟨.fresh Db.empty ∅ 1, [], []⟩
      (withPlainReads answeredCalls) := by
    decide +kernel
  exact ⟨hmeets, ui_requests_run plainPiHost Db.empty ∅ 1 (withPlainReads answeredCalls) hmeets⟩

/-- Asked again after another, an answered request is answered a second time. -/
theorem answered_twice :
    ¬ ∀ (host : PiHost) (db : Db) (claims : Table WorkspaceClaim) (nextCardId : Nat)
        (calls : List (PiReads × PiOp)), (∀ call ∈ calls, call.2.IsOrdinary) →
      StepsMeet (uiStep host) (KeepsUiRequests host) ⟨.fresh db claims nextCardId, [], []⟩ calls := by
  intro hall
  have hkept := hall plainPiHost Db.empty ∅ 1
    (withPlainReads (answeredCalls ++ [.setUi "run" 1 "a" .confirm] ++ [.claimUi "run" 1 "a"]))
    (by decide +kernel)
  rw [withPlainReads, List.map_append, stepsMeet_append] at hkept
  have honce := hkept.2.1.1.claimedOnce ("run", 1, "a")
  exact absurd honce (by decide +kernel)

end Abtars
