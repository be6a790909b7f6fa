import Abtars.Lease.Coherence
import Abtars.Worker.Runs

/-!
# The lease reconciliation service

`evaluateAndAct` reads one lease, asks the policy for a decision and acts on it:
it moves the evaluation phase, starts an inspection of the executor, or records
the intent to cancel.  An inspection and a cancellation are promises of the
executor's adapter; they are kept in flight until they settle, and their
continuations read the store again.
-/

namespace Abtars

open Lib

/-- What the service is built with.  An adapter is resolved or not; what it
answers comes back with the promise. -/
structure LeaseReconciliationService where
  rt : Runtime
  policy : LeasePolicy
  resolveAdapter : ExecutorKind → String → Bool
  notifies : Bool
  commitSuccessor : SuccessorHook

structure Inspection where
  attemptId : String
  attempt : AttemptRow
  cardId : Nat
  stateVersion : Nat

/-- How an inspection's promise settles; `other` is any observation that is
neither running nor terminal. -/
inductive InspectionResult
  | running | terminal | other | rejected
  deriving DecidableEq

structure PendingCancel where
  attemptId : String
  cardId : Nat
  attemptGeneration : Int

structure LeaseTerminalNotification where
  cardId : Nat
  attemptId : String
  attemptGeneration : Int

structure ReconcilerState where
  db : Db
  inspections : List Inspection
  cancels : List PendingCancel
  notifications : List LeaseTerminalNotification

/-- `generation || 1`. -/
def orOne (generation : Int) : Int := if generation = 0 then 1 else generation

namespace LeaseReconciliationService

variable (svc : LeaseReconciliationService)

/-- `notifyIfTerminal`: only for the latest attempt of the card, in the generation
that was cancelled, once it is terminal. -/
def notifyIfTerminal (cardId : Nat) (attemptId : String) (attemptGeneration : Int)
    (s : ReconcilerState) : ReconcilerState :=
  if svc.notifies then
    match latestAttempt s.db cardId with
    | none => s
    | some latest =>
      if latest.id = attemptId ∧ orOne latest.generation = orOne attemptGeneration ∧
          latest.lifecycle.isTerminal then
        { s with
          notifications := s.notifications ++
            [⟨cardId, latest.id, orOne latest.generation⟩] }
      else s
  else s

def hardDeadlineSettlement (attempt : AttemptRow) (attemptId : String) : SettleInput where
  attemptId := attemptId
  expectedGeneration := orOne attempt.generation
  desiredState := .timedOut
  stableReason := "hard_deadline_expired"
  normalizedUsage := none
  envelope := none
  now := none
  inputRequested := false

variable (now : Millis)

def performCancellation (attemptId : String) (cardId : Nat) (reason : LeaseReason)
    (stateVersion : Nat) (s : ReconcilerState) : ReconcilerState :=
  match s.db.workerAttempts.get attemptId with
  | none => s
  | some attempt =>
    match recordCancelIntent now attemptId reason attempt.generation stateVersion s.db with
    | (false, _) => s
    | (true, db) =>
      if reason = .hardDeadline then
        svc.notifyIfTerminal cardId attemptId (orOne attempt.generation)
          { s with
            db := (settleAttempt svc.rt svc.commitSuccessor now
              (hardDeadlineSettlement attempt attemptId) db).2 }
      else if svc.resolveAdapter attempt.executorKind attempt.executorId then
        { s with
          db := db
          cancels := s.cancels ++ [⟨attemptId, cardId, orOne attempt.generation⟩] }
      else
        svc.notifyIfTerminal cardId attemptId (orOne attempt.generation) { s with db := db }

def performInspection (snapshot : AttemptLeaseSnapshot) (attemptId : String) (cardId : Nat)
    (s : ReconcilerState) : ReconcilerState :=
  if snapshot.evaluation.phase = .inspecting then s
  else
    match updateEvaluation now attemptId .inspecting (some snapshot.stateVersion) none s.db with
    | (false, _) => s
    | (true, db) =>
      match db.workerAttempts.get attemptId with
      | none => { s with db := db }
      | some attempt =>
        if svc.resolveAdapter attempt.executorKind attempt.executorId then
          { s with
            db := db
            inspections := s.inspections ++
              [⟨attemptId, attempt, cardId, snapshot.stateVersion⟩] }
        else { s with db := (updateEvaluation now attemptId .inspectDue none none db).2 }

/-- Move the evaluation to a resting phase, if it is not there yet, and arm the
next evaluation. -/
def restAt (phase : EvaluationPhase) (snapshot : AttemptLeaseSnapshot) (attemptId : String)
    (nextAt : Option Millis) (db : Db) : Db :=
  let moved :=
    if snapshot.evaluation.phase = phase then db
    else (updateEvaluation now attemptId phase (some snapshot.stateVersion) none db).2
  match nextAt with
  | none => moved
  | some at_ => setUpcomingEvaluation now attemptId at_ moved

def evaluable (db : Db) (attemptId : String) : Option (AttemptLeaseSnapshot × AttemptRow) :=
  match getSnapshot db attemptId with
  | none => none
  | some snapshot =>
    if snapshot.closedAt.isSome then none
    else if snapshot.evaluation.phase = .closed ∨ snapshot.evaluation.phase = .cancelRequested
    then none
    else (db.workerAttempts.get attemptId).map fun attempt => (snapshot, attempt)

def evaluateAndAct (attemptId : String) (cardId : Nat) (s : ReconcilerState) : ReconcilerState :=
  match evaluable s.db attemptId with
  | none => s
  | some (snapshot, attempt) =>
    let decision := evaluateLease now svc.policy attempt.hardDeadlineAt snapshot
    match decision.action with
    | .healthy => { s with db := restAt now .healthy snapshot attemptId decision.nextAt s.db }
    | .warning => { s with db := restAt now .warning snapshot attemptId decision.nextAt s.db }
    | .inspect => svc.performInspection now snapshot attemptId cardId s
    | .cancel =>
      svc.performCancellation now attemptId cardId
        (decision.reason.getD .livenessExpired) snapshot.stateVersion s
    | .closed => s

def outcomeOf : InspectionResult → InspectionOutcome
  | .running => .running
  | _ => .unknown

def inspectionFulfilled (inspection : Inspection) (result : InspectionResult) (db : Db) : Db :=
  match getSnapshot db inspection.attemptId with
  | none => db
  | some reloaded =>
    if reloaded.closedAt.isSome then db
    else if result = .terminal then
      (closeLease now inspection.attemptId inspection.attempt.generation
        "inspection_terminal" db).2
    else
      let updated := applyInspectionOutcome now svc.policy inspection.attempt.hardDeadlineAt
        reloaded (outcomeOf result)
      match updateEvaluation now inspection.attemptId updated.evaluation.phase
          (some reloaded.stateVersion) updated.nextEvaluationAt db with
      | (false, _) => db
      | (true, db) =>
        if updated.closedAt.isSome then
          (closeLease now inspection.attemptId inspection.attempt.generation
            (updated.closeReason.getD "inspection_complete") db).2
        else db

/-- Both continuations of an inspection: the rejected one asks for the version the
evaluation has seen. -/
def inspectionSettled (inspection : Inspection) (result : InspectionResult) (db : Db) : Db :=
  if result = .rejected then
    (updateEvaluation now inspection.attemptId .inspectDue (some inspection.stateVersion) none
      db).2
  else svc.inspectionFulfilled now inspection result db

end LeaseReconciliationService

/-! ## Operations -/

/-- The calls on the service, the settling of its promises, and the calls other
components make on the lease store in between. -/
inductive ReconcilerOp
  | evaluate (attemptId : String) (cardId : Nat)
  | inspectionSettles (index : Nat) (result : InspectionResult)
  | cancelSettles (index : Nat)
  | appendFact (policy : LeasePolicy) (resolver : Option PendingInputResolver)
      (fact : ProgressFact)
  | closeLease (attemptId : String) (generation : Int) (reason : String)

def reconcilerStep (svc : LeaseReconciliationService) (s : ReconcilerState) :
    Millis × ReconcilerOp → ReconcilerState
  | (now, .evaluate attemptId cardId) => svc.evaluateAndAct now attemptId cardId s
  | (now, .inspectionSettles index result) =>
    match s.inspections[index]? with
    | none => s
    | some inspection =>
      { s with
        db := svc.inspectionSettled now inspection result s.db
        inspections := s.inspections.eraseIdx index }
  | (_, .cancelSettles index) =>
    match s.cancels[index]? with
    | none => s
    | some cancel =>
      svc.notifyIfTerminal cancel.cardId cancel.attemptId cancel.attemptGeneration
        { s with cancels := s.cancels.eraseIdx index }
  | (now, .appendFact policy resolver fact) =>
    { s with db := (appendFact svc.rt now policy resolver fact s.db).2 }
  | (now, .closeLease attemptId generation reason) =>
    { s with db := (closeLease now attemptId generation reason s.db).2 }

/-! ## Writes of one lease -/

structure LeaseBearings where
  semanticState : ProgressKind
  livenessDeadlineAt : Millis
  progressDeadlineAt : Millis
  operation : Option AttemptLeaseOperation
  awaitingInput : Option AttemptLeaseAwaitingInput
  inspectionCount : Nat
  graceDeadlineAt : Option Millis

def AttemptLeaseSnapshot.bearings (s : AttemptLeaseSnapshot) : LeaseBearings where
  semanticState := s.semanticState
  livenessDeadlineAt := s.livenessDeadlineAt
  progressDeadlineAt := s.progressDeadlineAt
  operation := s.operation
  awaitingInput := s.awaitingInput
  inspectionCount := s.evaluation.inspectionCount
  graceDeadlineAt := s.evaluation.graceDeadlineAt

def AttemptRow.terms (a : AttemptRow) : Int × Option Millis := (a.generation, a.hardDeadlineAt)

/-- The database changes at most one lease, to the given row, and no attempt's terms. -/
structure LeaseWrite (target : String) (row : LeaseRow) (db db' : Db) : Prop where
  self : db'.attemptLeaseSnapshots.get target = some row
  others : ∀ id, id ≠ target →
    db'.attemptLeaseSnapshots.get id = db.attemptLeaseSnapshots.get id
  coherent : LeasesCoherent db'.attemptLeaseSnapshots
  terms : ∀ id, (db'.workerAttempts.get id).map AttemptRow.terms =
    (db.workerAttempts.get id).map AttemptRow.terms

/-- An evaluation moves a lease to a phase and leaves everything else that
decides about it as it was. -/
structure LeaseRow.Moved (phase : EvaluationPhase) (row row' : LeaseRow) : Prop where
  phase_eq : row'.snapshotJson.evaluation.phase = phase
  bearings_eq : row'.snapshotJson.bearings = row.snapshotJson.bearings
  reason_eq : row'.snapshotJson.evaluation.reason = row.snapshotJson.evaluation.reason
  closedAt_eq : row'.snapshotJson.closedAt = row.snapshotJson.closedAt
  version_le : row.stateVersion ≤ row'.stateVersion

structure LeaseRow.Evaluable (row : LeaseRow) : Prop where
  openAt : row.snapshotJson.closedAt = none
  notCancelled : row.snapshotJson.evaluation.phase ≠ .cancelRequested

theorem LeaseRow.Moved.refl (row : LeaseRow) :
    LeaseRow.Moved row.snapshotJson.evaluation.phase row row :=
  ⟨rfl, rfl, rfl, rfl, le_refl _⟩

theorem LeaseRow.Moved.trans {phase phase' : EvaluationPhase} {row mid row' : LeaseRow}
    (h : LeaseRow.Moved phase row mid) (h' : LeaseRow.Moved phase' mid row') :
    LeaseRow.Moved phase' row row' where
  phase_eq := h'.phase_eq
  bearings_eq := h'.bearings_eq.trans h.bearings_eq
  reason_eq := h'.reason_eq.trans h.reason_eq
  closedAt_eq := h'.closedAt_eq.trans h.closedAt_eq
  version_le := h.version_le.trans h'.version_le

section Write

variable {target : String} {row row' : LeaseRow} {db mid db' : Db}

theorem LeaseWrite.refl (hdb : LeasesCoherent db.attemptLeaseSnapshots)
    (hrow : db.attemptLeaseSnapshots.get target = some row) : LeaseWrite target row db db :=
  ⟨hrow, fun _ _ => rfl, hdb, fun _ => rfl⟩

theorem LeaseWrite.trans (h : LeaseWrite target row db mid)
    (h' : LeaseWrite target row' mid db') : LeaseWrite target row' db db' where
  self := h'.self
  others := fun id hid => (h'.others id hid).trans (h.others id hid)
  coherent := h'.coherent
  terms := fun id => (h'.terms id).trans (h.terms id)

/-- The version an evaluation reads off an open snapshot is the one its row has,
so its update lands. -/
theorem updateEvaluation_write (now : Millis) (phase : EvaluationPhase)
    (expected : Option Nat) (next : Option Millis)
    (hdb : LeasesCoherent db.attemptLeaseSnapshots)
    (hrow : db.attemptLeaseSnapshots.get target = some row) (hopen : row.Evaluable)
    (hexpected : ∀ version, expected = some version → version = row.snapshotJson.stateVersion) :
    ∃ row' after, updateEvaluation now target phase expected next db = (true, after) ∧
      LeaseWrite target row' db after ∧ LeaseRow.Moved phase row row' ∧
      row.stateVersion < row'.stateVersion ∧ after.workerAttempts = db.workerAttempts := by
  have hcoherent := hdb row (Table.mem_of_get hrow)
  have hversion : expected.any (· ≠ row.stateVersion) = false := by
    cases hx : expected with
    | none => rfl
    | some version => simp [hexpected version hx, hcoherent.stateVersion]
  have htarget : evaluationTarget db target phase expected = some row := by
    simp only [evaluationTarget, hrow, hversion, hopen.notCancelled, Bool.false_eq_true,
      if_false, false_and]
  let s := evaluatedSnapshot now phase row.stateVersion next row.snapshotJson
  have hlands : updateEvaluation now target phase expected next db =
      (true, { db with
        attemptLeaseSnapshots := rewriteLease target s db.attemptLeaseSnapshots }) := by
    simp only [updateEvaluation, htarget, s]
  have hspares : SparesClosedLease db (.updateEvaluation now target phase expected next) := by
    intro r hr hclosed
    obtain rfl : row = r := Option.some.inj (hrow.symm.trans hr)
    rw [← hcoherent.closedAt, hopen.openAt] at hclosed
    cases hclosed
  refine ⟨row.rewrite s, _, hlands, ⟨?_, ?_, ?_, fun _ => rfl⟩, ⟨rfl, rfl, rfl, rfl, Nat.le_succ _⟩,
    Nat.lt_succ_self _, rfl⟩
  · exact (Table.get_modify_same db.attemptLeaseSnapshots target (fun r => r.rewrite s)
      (fun _ => rfl)).trans (by rw [hrow]; rfl)
  · intro id hid
    exact Table.get_modify_of_ne db.attemptLeaseSnapshots (fun r => r.rewrite s) (fun _ => rfl) hid
  · have hcoherent' := (updateEvaluation_step hdb hspares).1
    rw [hlands] at hcoherent'
    exact hcoherent'

theorem setUpcomingEvaluation_write (hdb : LeasesCoherent db.attemptLeaseSnapshots)
    (hrow : db.attemptLeaseSnapshots.get target = some row) (now nextAt : Millis) :
    ∃ row', LeaseWrite target row' db (setUpcomingEvaluation now target nextAt db) ∧
      LeaseRow.Moved row.snapshotJson.evaluation.phase row row' := by
  have hkey := arm_attemptId now nextAt
  refine ⟨row.arm now nextAt, ⟨?_, ?_, (setUpcomingEvaluation_step hdb now target nextAt).1,
    fun _ => rfl⟩, ?_⟩
  · exact (Table.get_modify_same db.attemptLeaseSnapshots target _ hkey).trans
      (by rw [hrow]; rfl)
  · intro id hid
    exact Table.get_modify_of_ne db.attemptLeaseSnapshots _ hkey hid
  · unfold LeaseRow.arm
    split
    · exact ⟨rfl, rfl, rfl, rfl, le_refl _⟩
    · exact .refl row

/-- A cancel intent lands on an open lease of a live attempt. -/
theorem recordCancelIntent_write {attempt : AttemptRow} (now : Millis) (reason : LeaseReason)
    (hdb : LeasesCoherent db.attemptLeaseSnapshots)
    (hrow : db.attemptLeaseSnapshots.get target = some row) (hopen : row.Evaluable)
    (hget : db.workerAttempts.get target = some attempt) :
    (attempt.lifecycle.isLive = false ∧
      recordCancelIntent now target reason attempt.generation row.snapshotJson.stateVersion db =
        (false, db)) ∨
    (attempt.lifecycle.isLive = true ∧ ∃ row' after,
      recordCancelIntent now target reason attempt.generation row.snapshotJson.stateVersion db =
        (true, after) ∧ LeaseWrite target row' db after ∧
      row'.snapshotJson.evaluation.phase = .cancelRequested ∧
      row.stateVersion < row'.stateVersion) := by
  have hcoherent := hdb row (Table.mem_of_get hrow)
  cases hlive : attempt.lifecycle.isLive with
  | false =>
    left
    simp [recordCancelIntent, cancelTarget, hrow, hget, hlive]
  | true =>
    right
    have htarget : cancelTarget db target attempt.generation row.snapshotJson.stateVersion =
        some row := by
      simp [cancelTarget, hrow, hget, hlive, hcoherent.stateVersion]
    let s := cancelledSnapshot now reason row.stateVersion row.snapshotJson
    let write : AttemptRow → AttemptRow := fun a =>
      { a with
        lifecycle := .cancelRequested
        cancelReason := some ("lease:" ++ reason.text) }
    have hlands : recordCancelIntent now target reason attempt.generation
        row.snapshotJson.stateVersion db =
        (true, { db with
          workerAttempts := db.workerAttempts.modify target write
          attemptLeaseSnapshots := rewriteLease target s db.attemptLeaseSnapshots }) := by
      simp only [recordCancelIntent, htarget, s, write]
    have hspares : SparesClosedLease db (.recordCancelIntent now target reason
        attempt.generation row.snapshotJson.stateVersion) := by
      intro r hr hclosed
      obtain rfl : row = r := Option.some.inj (hrow.symm.trans hr)
      rw [← hcoherent.closedAt, hopen.openAt] at hclosed
      cases hclosed
    refine ⟨rfl, row.rewrite s, _, hlands, ⟨?_, ?_, ?_, ?_⟩, rfl, Nat.lt_succ_self _⟩
    · exact (Table.get_modify_same db.attemptLeaseSnapshots target (fun r => r.rewrite s)
        (fun _ => rfl)).trans (by rw [hrow]; rfl)
    · intro id hid
      exact Table.get_modify_of_ne db.attemptLeaseSnapshots (fun r => r.rewrite s)
        (fun _ => rfl) hid
    · have hcoherent' := (recordCancelIntent_step hdb hspares).1
      rw [hlands] at hcoherent'
      exact hcoherent'
    · intro id
      exact Table.map_get_modify db.workerAttempts target write (fun _ => rfl) id
        AttemptRow.terms fun _ => rfl

end Write

section Others

variable {rt : Runtime} {target : String} {row : LeaseRow} {db db' : Db}

/-- Closing a lease that is there and open closes it, if the attempt is in the
generation; otherwise nothing happens or a closed lease is created. -/
theorem closeLease_write (hdb : LeasesCoherent db.attemptLeaseSnapshots) (now : Millis)
    (target : String) (generation : Int) (reason : String) :
    ((closeLease now target generation reason db).2 = db ∧
      ∀ row a, db.attemptLeaseSnapshots.get target = some row → row.snapshotJson.closedAt = none →
        db.workerAttempts.get target = some a → a.generation ≠ generation) ∨
    ∃ row', LeaseWrite target row' db (closeLease now target generation reason db).2 ∧
      row'.snapshotJson.evaluation.phase = .closed ∧
      row'.snapshotJson.closedAt = some now ∧
      ∀ row, db.attemptLeaseSnapshots.get target = some row →
        row.stateVersion = row'.stateVersion := by
  have hcoherent' := (closeLease_step hdb now target generation reason).1
  rcases closeLease_cases now db target generation reason with
    h | ⟨attempt, snapshot, events, hget, hgeneration, hclosing, h⟩
  · left
    refine ⟨by rw [h], fun row a hrow hopen ha hsame => ?_⟩
    have hclosed : (closeLease now target generation reason db).1 = true := by
      simp [closeLease, ha, hsame, hrow, closingSnapshot, hopen]
    rw [h] at hclosed
    cases hclosed
  · right
    have hattempt : attempt.id = target := Table.key_of_get hget
    obtain ⟨hid, hclosed, hphase, -, -⟩ := closingSnapshot_some hclosing fun r hr =>
      ⟨hdb r (Table.mem_of_get hr), (Table.key_of_get hr).trans hattempt.symm⟩
    rw [h] at hcoherent' ⊢
    refine ⟨leaseRowOf snapshot, ⟨?_, ?_, hcoherent', fun _ => rfl⟩, hphase, hclosed, ?_⟩
    · exact (Table.get_put _ _ _).trans (if_pos (by rw [key_leaseRowOf, hid, hattempt]))
    · intro id hne
      exact (Table.get_put _ _ _).trans (if_neg (by rw [key_leaseRowOf, hid, hattempt]; exact hne))
    intro row hrow
    have hlockstep := (hdb row (Table.mem_of_get hrow)).stateVersion
    rw [hrow] at hclosing
    unfold closingSnapshot at hclosing
    dsimp only at hclosing
    split at hclosing
    · cases hclosing
    · cases hclosing
      exact hlockstep.symm

/-- An accepted fact writes its lease; it finds it open and leaves the evaluation
alone, or opens it in phase healthy. -/
theorem appendFact_write (rt : Runtime) (hdb : LeasesCoherent db.attemptLeaseSnapshots)
    (now : Millis) (policy : LeasePolicy) (resolver : Option PendingInputResolver) (fact : ProgressFact) :
    (appendFact rt now policy resolver fact db).2 = db ∨
    ∃ row', LeaseWrite fact.attemptId row' db (appendFact rt now policy resolver fact db).2 ∧
      row'.snapshotJson.closedAt = none ∧
      ((db.attemptLeaseSnapshots.get fact.attemptId = none ∧
          row'.snapshotJson.evaluation =
            { phase := .healthy, reason := none, inspectionCount := 0
              lastInspectionOutcome := none, graceDeadlineAt := none, version := 0 }) ∨
        ∃ row, db.attemptLeaseSnapshots.get fact.attemptId = some row ∧
          row.snapshotJson.closedAt = none ∧
          row'.snapshotJson.evaluation = row.snapshotJson.evaluation ∧
          row.stateVersion ≤ row'.stateVersion) := by
  have hcoherent' : LeasesCoherent
      (appendFact rt now policy resolver fact db).2.attemptLeaseSnapshots :=
    (appendFact_step hdb now policy resolver fact).1
  rcases appendFact_cases rt now policy resolver db fact with
    h | ⟨sanitized, attempt, snapshot, hsanitized, -, hnext, h⟩
  · exact .inl h
  · right
    have hname : sanitized.attemptId = fact.attemptId := by
      unfold sanitizeFact at hsanitized
      split at hsanitized
      · cases hsanitized
      · cases hsanitized
        rfl
    obtain ⟨hid, hopen, hlast⟩ := nextSnapshot_some hnext fun r hr =>
      ⟨hdb r (Table.mem_of_get hr), Table.key_of_get hr⟩
    rw [hname] at hid hnext hlast
    rw [h] at hcoherent' ⊢
    refine ⟨leaseRowOf snapshot, ⟨?_, ?_, hcoherent', fun _ => rfl⟩, hopen, ?_⟩
    · exact (Table.get_put _ _ _).trans (if_pos (by rw [key_leaseRowOf, hid]))
    · intro id hne
      exact (Table.get_put _ _ _).trans (if_neg (by rw [key_leaseRowOf, hid]; exact hne))
    cases hrow : db.attemptLeaseSnapshots.get fact.attemptId with
    | none =>
      left
      rw [hrow] at hnext
      cases hnext
      exact ⟨rfl, rfl⟩
    | some row =>
      right
      have hcoherent := hdb row (Table.mem_of_get hrow)
      refine ⟨row, rfl, hcoherent.closedAt.trans (hlast row hrow).1, ?_⟩
      rw [hrow] at hnext
      unfold nextSnapshot at hnext
      dsimp only at hnext
      split at hnext
      · cases hnext
      cases hnext
      refine ⟨congrArg LeaseIdentity.evaluation (reduceFact_identity policy now
        attempt.hardDeadlineAt rt.sha256 row.snapshotJson sanitized resolver), ?_⟩
      rw [reduceFact_stateVersion, hcoherent.stateVersion]
      exact Nat.le_succ _

structure SameLeases (db db' : Db) : Prop where
  leases : db'.attemptLeaseSnapshots = db.attemptLeaseSnapshots
  terms : ∀ id, (db'.workerAttempts.get id).map AttemptRow.terms =
    (db.workerAttempts.get id).map AttemptRow.terms

theorem invalidateAttempt_terms (now : Millis) (a : AttemptRow) :
    (invalidateAttempt now a).terms = a.terms := by
  unfold invalidateAttempt
  split
  · rfl
  · split <;> rfl

theorem sameLeases_fence (clock : Millis) (effect : SuccessorEffect) (db : Db) :
    SameLeases db (effect.fence clock (effect.advance db)) := by
  unfold SuccessorEffect.fence
  cases effect.invalidatedRoot with
  | none => exact ⟨rfl, fun _ => rfl⟩
  | some root =>
    refine ⟨rfl, fun id => ?_⟩
    exact Table.map_get_updateWhere db.workerAttempts _ (invalidateAttempt clock)
      (invalidateAttempt_id clock) id AttemptRow.terms (invalidateAttempt_terms clock)

theorem SameLeases.markReady (h : SameLeases db db') (effect : SuccessorEffect) :
    SameLeases db (effect.markReady db') := by
  unfold SuccessorEffect.markReady
  cases effect.deliveryReady with
  | none => exact h
  | some cardId => exact ⟨h.leases, h.terms⟩

theorem sameLeases_commitSuccessor (rt : Runtime) (hook : SuccessorHook) (input : SettleInput)
    (attempt : AttemptRow) (verdict : DesiredState) (clock : Millis) (db : Db) :
    SameLeases db (commitSuccessor rt hook input attempt verdict clock db) := by
  unfold commitSuccessor
  cases successorEffect hook input attempt verdict db with
  | none => exact ⟨rfl, fun _ => rfl⟩
  | some effect =>
    dsimp only
    rcases transactionCatching_cases (applySuccessorEffect rt clock effect) (fun _ => ()) db
      with ⟨⟨done, after⟩, hbody, hrun⟩ | ⟨_, -, hrun⟩
    · rw [hrun]
      have hfenced := sameLeases_fence clock effect db
      unfold applySuccessorEffect at hbody
      dsimp only at hbody
      split at hbody
      · cases hbody
        exact hfenced.markReady effect
      split at hbody
      · cases hbody
      rename_i projected hcard
      cases hbody
      have hprojected : SameLeases db projected := by
        obtain ⟨_, _, _, _, -, rfl⟩ := kanbanTransition_frame hcard
        exact ⟨hfenced.leases, hfenced.terms⟩
      exact hprojected.markReady effect
    · rw [hrun]
      exact ⟨rfl, fun _ => rfl⟩

/-- A settlement leaves its lease as it is, or closes it. -/
theorem settleAttempt_write (rt : Runtime) (hook : SuccessorHook) (clock : Millis)
    (input : SettleInput) (hdb : LeasesCoherent db.attemptLeaseSnapshots)
    (hrow : db.attemptLeaseSnapshots.get input.attemptId = some row) :
    ∃ row', LeaseWrite input.attemptId row' db (settleAttempt rt hook clock input db).2 ∧
      row.stateVersion = row'.stateVersion ∧
      (row' = row ∨ row'.snapshotJson.evaluation.phase = .closed ∧
        row'.snapshotJson.closedAt = some clock) := by
  unfold settleAttempt
  cases hadmits : admitSettlement rt input db with
  | error outcome => exact ⟨row, .refl hdb hrow, rfl, .inl rfl⟩
  | ok attempt =>
    obtain ⟨hget, -⟩ := admitSettlement_ok hadmits
    let now := input.now.getD clock
    let verdict := effectiveState db input attempt now
    let settled :=
      { chargeUsage input attempt now clock db with
        workerAttempts := (chargeUsage input attempt now clock db).workerAttempts.modify
          input.attemptId (AttemptRow.settle verdict (settleReason db input attempt now) now) }
    have hleases : settled.attemptLeaseSnapshots = db.attemptLeaseSnapshots := by
      show (chargeUsage input attempt now clock db).attemptLeaseSnapshots = _
      unfold chargeUsage
      split <;> rfl
    have hcommit := sameLeases_commitSuccessor rt hook input attempt verdict clock
      (settleWrites rt input attempt clock db)
    have hterms : ∀ id,
        ((settleWrites rt input attempt clock db).workerAttempts.get id).map AttemptRow.terms =
          (db.workerAttempts.get id).map AttemptRow.terms := by
      intro id
      by_cases hid : id = input.attemptId
      · subst hid
        rw [get_settleWrites_self clock hget, hget]
        refine congrArg some ?_
        show (attempt.chargeOnce input now).terms = attempt.terms
        rcases chargeOnce_cases input attempt now with ⟨_, -, h⟩ | ⟨-, h⟩ <;> rw [h]
        rfl
      · rw [get_settleWrites_of_ne clock hid]
    have hsettled : LeasesCoherent settled.attemptLeaseSnapshots := hleases ▸ hdb
    have hclose := closeLease_write hsettled clock input.attemptId attempt.generation
      ("terminal:" ++ verdict.text)
    -- the settlement's lease table is the one `closeLease` leaves
    have hafter : (commitSuccessor rt hook input attempt verdict clock
        (settleWrites rt input attempt clock db)).attemptLeaseSnapshots =
        (closeLease clock input.attemptId attempt.generation ("terminal:" ++ verdict.text)
          settled).2.attemptLeaseSnapshots := hcommit.leases
    have hkept : ∀ id, ((commitSuccessor rt hook input attempt verdict clock
        (settleWrites rt input attempt clock db)).workerAttempts.get id).map AttemptRow.terms =
        (db.workerAttempts.get id).map AttemptRow.terms :=
      fun id => (hcommit.terms id).trans (hterms id)
    rcases hclose with ⟨hsame, -⟩ | ⟨row', hwrite, hphase, hclosed, hversion⟩
    · rw [hsame, hleases] at hafter
      exact ⟨row, ⟨by rw [hafter]; exact hrow, fun id _ => by rw [hafter],
        by rw [hafter]; exact hdb, hkept⟩, rfl, .inl rfl⟩
    rw [hleases] at hversion
    refine ⟨row', ⟨by rw [hafter]; exact hwrite.self, fun id hid => ?_,
      by rw [hafter]; exact hwrite.coherent, hkept⟩, hversion row hrow,
      .inr ⟨hphase, hclosed⟩⟩
    rw [hafter, hwrite.others id hid, hleases]

end Others

/-! ## What an evaluation does -/

structure EvaluatedLease (db : Db) (attemptId : String) (row : LeaseRow)
    (attempt : AttemptRow) : Prop where
  get_row : db.attemptLeaseSnapshots.get attemptId = some row
  get_attempt : db.workerAttempts.get attemptId = some attempt
  evaluable : row.Evaluable
  notClosed : row.snapshotJson.evaluation.phase ≠ .closed

namespace LeaseReconciliationService

section Evaluate

variable {svc : LeaseReconciliationService} {now : Millis} {attemptId : String}
  {s : ReconcilerState} {row : LeaseRow} {attempt : AttemptRow}

theorem evaluable_of_lease (h : EvaluatedLease s.db attemptId row attempt) :
    evaluable s.db attemptId = some (row.snapshotJson, attempt) := by
  simp [evaluable, getSnapshot, h.get_row, h.get_attempt, h.evaluable.openAt, h.notClosed,
    h.evaluable.notCancelled]

theorem evaluable_cases (s : ReconcilerState) (attemptId : String) :
    evaluable s.db attemptId = none ∨ ∃ row attempt, EvaluatedLease s.db attemptId row attempt := by
  unfold evaluable getSnapshot
  cases hrow : s.db.attemptLeaseSnapshots.get attemptId with
  | none => exact .inl rfl
  | some row =>
    simp only [Option.map_some]
    split
    · exact .inl rfl
    rename_i hopen
    split
    · exact .inl rfl
    rename_i hphase
    obtain ⟨hnotClosed, hnotCancelled⟩ := not_or.1 hphase
    cases hget : s.db.workerAttempts.get attemptId with
    | none => exact .inl rfl
    | some attempt =>
      exact .inr ⟨row, attempt, hrow, hget, ⟨by simpa using hopen, hnotCancelled⟩,
        hnotClosed⟩

variable (cardId : Nat)

theorem evaluateAndAct_idle (h : evaluable s.db attemptId = none) :
    svc.evaluateAndAct now attemptId cardId s = s := by
  simp only [evaluateAndAct, h]

/-- Resting at a phase. -/
theorem restAt_write (now : Millis) (hdb : LeasesCoherent s.db.attemptLeaseSnapshots)
    (h : EvaluatedLease s.db attemptId row attempt) (phase : EvaluationPhase)
    (nextAt : Option Millis) :
    ∃ row', LeaseWrite attemptId row' s.db
        (restAt now phase row.snapshotJson attemptId nextAt s.db) ∧
      LeaseRow.Moved phase row row' ∧
      (row.snapshotJson.evaluation.phase ≠ phase → row.stateVersion < row'.stateVersion) := by
  have hmoved : ∃ mid after,
      (if row.snapshotJson.evaluation.phase = phase then s.db
        else (updateEvaluation now attemptId phase (some row.snapshotJson.stateVersion) none
          s.db).2) = after ∧
      LeaseWrite attemptId mid s.db after ∧ LeaseRow.Moved phase row mid ∧
      (row.snapshotJson.evaluation.phase ≠ phase → row.stateVersion < mid.stateVersion) := by
    by_cases hphase : row.snapshotJson.evaluation.phase = phase
    · subst hphase
      exact ⟨row, _, if_pos rfl, .refl hdb h.get_row, .refl row, fun hne => absurd rfl hne⟩
    obtain ⟨mid, after, hlands, hwrite, hmove, hlt, -⟩ := updateEvaluation_write now phase
      (some row.snapshotJson.stateVersion) none hdb h.get_row
      h.evaluable fun version hv => (Option.some.inj hv).symm
    exact ⟨mid, after, by rw [if_neg hphase, hlands], hwrite, hmove, fun _ => hlt⟩
  obtain ⟨mid, after, hafter, hwrite, hmove, hlt⟩ := hmoved
  unfold restAt
  simp only [hafter]
  cases nextAt with
  | none => exact ⟨mid, hwrite, hmove, hlt⟩
  | some at_ =>
    obtain ⟨row', harm, hstay⟩ :=
      setUpcomingEvaluation_write hwrite.coherent hwrite.self now at_
    rw [hmove.phase_eq] at hstay
    exact ⟨row', hwrite.trans harm, hmove.trans hstay,
      fun hne => (hlt hne).trans_le hstay.version_le⟩

theorem evaluateAndAct_rest (hdb : LeasesCoherent s.db.attemptLeaseSnapshots)
    (h : EvaluatedLease s.db attemptId row attempt) {phase : EvaluationPhase}
    (haction : (evaluateLease now svc.policy attempt.hardDeadlineAt row.snapshotJson).action =
        .healthy ∧ phase = .healthy ∨
      (evaluateLease now svc.policy attempt.hardDeadlineAt row.snapshotJson).action =
        .warning ∧ phase = .warning) :
    ∃ row', LeaseWrite attemptId row' s.db (svc.evaluateAndAct now attemptId cardId s).db ∧
      (svc.evaluateAndAct now attemptId cardId s).inspections = s.inspections ∧
      LeaseRow.Moved phase row row' ∧
      (row.snapshotJson.evaluation.phase ≠ phase → row.stateVersion < row'.stateVersion) := by
  obtain ⟨row', hwrite, hmove, hlt⟩ := restAt_write now hdb h phase
    (evaluateLease now svc.policy attempt.hardDeadlineAt row.snapshotJson).nextAt
  rcases haction with ⟨haction, rfl⟩ | ⟨haction, rfl⟩
  · refine ⟨row', ?_, ?_, hmove, hlt⟩ <;>
      simp only [evaluateAndAct, evaluable_of_lease h, haction]
    exact hwrite
  · refine ⟨row', ?_, ?_, hmove, hlt⟩ <;>
      simp only [evaluateAndAct, evaluable_of_lease h, haction]
    exact hwrite

/-- An inspection is started, or there is no adapter to start it with. -/
theorem evaluateAndAct_inspect (hdb : LeasesCoherent s.db.attemptLeaseSnapshots)
    (h : EvaluatedLease s.db attemptId row attempt)
    (haction : (evaluateLease now svc.policy attempt.hardDeadlineAt row.snapshotJson).action =
      .inspect) :
    (row.snapshotJson.evaluation.phase = .inspecting ∧
      svc.evaluateAndAct now attemptId cardId s = s) ∨
    (row.snapshotJson.evaluation.phase ≠ .inspecting ∧
      ∃ row', LeaseWrite attemptId row' s.db (svc.evaluateAndAct now attemptId cardId s).db ∧
      row.stateVersion < row'.stateVersion ∧
      ((LeaseRow.Moved .inspecting row row' ∧
          (svc.evaluateAndAct now attemptId cardId s).inspections =
            s.inspections ++ [⟨attemptId, attempt, cardId, row.snapshotJson.stateVersion⟩]) ∨
        (LeaseRow.Moved .inspectDue row row' ∧
          (svc.evaluateAndAct now attemptId cardId s).inspections = s.inspections))) := by
  simp only [evaluateAndAct, evaluable_of_lease h, haction, performInspection]
  by_cases hphase : row.snapshotJson.evaluation.phase = .inspecting
  · exact .inl ⟨hphase, by rw [if_pos hphase]⟩
  right
  refine ⟨hphase, ?_⟩
  rw [if_neg hphase]
  obtain ⟨mid, after, hlands, hwrite, hmove, hlt, hattempts⟩ := updateEvaluation_write now
    .inspecting (some row.snapshotJson.stateVersion) none hdb h.get_row
      h.evaluable fun version hv => (Option.some.inj hv).symm
  simp only [hlands, hattempts, h.get_attempt]
  split
  · exact ⟨mid, hwrite, hlt, .inl ⟨hmove, rfl⟩⟩
  -- without an adapter the phase moves on in the same call
  have hmid : mid.Evaluable :=
    ⟨hmove.closedAt_eq.trans h.evaluable.openAt, by rw [hmove.phase_eq]; decide⟩
  obtain ⟨row', due, hdueLands, hdue, hdueMove, hdueLt, -⟩ := updateEvaluation_write now
    .inspectDue none none hwrite.coherent hwrite.self hmid fun version hv => by cases hv
  rw [hdueLands]
  exact ⟨row', hwrite.trans hdue, hlt.trans hdueLt, .inr ⟨hmove.trans hdueMove, rfl⟩⟩

theorem notifyIfTerminal_db (attemptId : String) (generation : Int) (s : ReconcilerState) :
    (svc.notifyIfTerminal cardId attemptId generation s).db = s.db ∧
      (svc.notifyIfTerminal cardId attemptId generation s).inspections = s.inspections := by
  unfold notifyIfTerminal
  split
  · split
    · exact ⟨rfl, rfl⟩
    · split <;> exact ⟨rfl, rfl⟩
  · exact ⟨rfl, rfl⟩

/-- A cancellation lands on a live attempt and does nothing to any other. -/
theorem evaluateAndAct_cancel (hdb : LeasesCoherent s.db.attemptLeaseSnapshots)
    (h : EvaluatedLease s.db attemptId row attempt)
    (haction : (evaluateLease now svc.policy attempt.hardDeadlineAt row.snapshotJson).action =
      .cancel) :
    (svc.evaluateAndAct now attemptId cardId s).inspections = s.inspections ∧
    ((attempt.lifecycle.isLive = false ∧
        (svc.evaluateAndAct now attemptId cardId s).db = s.db) ∨
      (attempt.lifecycle.isLive = true ∧
        ∃ row', LeaseWrite attemptId row' s.db (svc.evaluateAndAct now attemptId cardId s).db ∧
        row.stateVersion < row'.stateVersion ∧
        (row'.snapshotJson.evaluation.phase = .cancelRequested ∨
          row'.snapshotJson.evaluation.phase = .closed ∧
            row'.snapshotJson.closedAt = some now))) := by
  simp only [evaluateAndAct, evaluable_of_lease h, haction, performCancellation, h.get_attempt]
  rcases recordCancelIntent_write now
      ((evaluateLease now svc.policy attempt.hardDeadlineAt row.snapshotJson).reason.getD
        .livenessExpired) hdb h.get_row h.evaluable h.get_attempt with
    ⟨hdead, hmiss⟩ | ⟨hlive, mid, after, hlands, hwrite, hphase, hlt⟩
  · simp only [hmiss]
    exact ⟨trivial, .inl ⟨hdead, trivial⟩⟩
  · simp only [hlands]
    split
    · obtain ⟨row', hsettle, hversion, hclosed⟩ := settleAttempt_write svc.rt
        svc.commitSuccessor now (hardDeadlineSettlement attempt attemptId) hwrite.coherent hwrite.self
      rw [(notifyIfTerminal_db _ _ _ _).1, (notifyIfTerminal_db _ _ _ _).2]
      refine ⟨rfl, .inr ⟨hlive, row', hwrite.trans hsettle, hversion ▸ hlt, ?_⟩⟩
      rcases hclosed with rfl | hclosed
      · exact .inl hphase
      · exact .inr hclosed
    · split
      · exact ⟨rfl, .inr ⟨hlive, mid, hwrite, hlt, .inl hphase⟩⟩
      · rw [(notifyIfTerminal_db _ _ _ _).1, (notifyIfTerminal_db _ _ _ _).2]
        exact ⟨rfl, .inr ⟨hlive, mid, hwrite, hlt, .inl hphase⟩⟩

theorem evaluateAndAct_closed (h : EvaluatedLease s.db attemptId row attempt)
    (haction : (evaluateLease now svc.policy attempt.hardDeadlineAt row.snapshotJson).action =
      .closed) : svc.evaluateAndAct now attemptId cardId s = s := by
  simp only [evaluateAndAct, evaluable_of_lease h, haction]

abbrev decidedAction (svc : LeaseReconciliationService) (now : Millis) (row : LeaseRow)
    (attempt : AttemptRow) : LeaseAction :=
  (evaluateLease now svc.policy attempt.hardDeadlineAt row.snapshotJson).action

/-- Everything an evaluation can do: nothing, or one write of its lease, by the
action the policy decides on. -/
inductive EvaluationEffect (svc : LeaseReconciliationService) (now : Millis)
    (attemptId : String) (cardId : Nat) (s s' : ReconcilerState) : Prop
  | idle (db_eq : s'.db = s.db) (inspections_eq : s'.inspections = s.inspections)
  | rests (row row' : LeaseRow) (attempt : AttemptRow) (phase : EvaluationPhase)
      (lease : EvaluatedLease s.db attemptId row attempt)
      (decided : svc.decidedAction now row attempt = .healthy ∧ phase = .healthy ∨
        svc.decidedAction now row attempt = .warning ∧ phase = .warning ∨
        svc.decidedAction now row attempt = .inspect ∧ phase = .inspectDue ∧
          row.snapshotJson.evaluation.phase ≠ .inspecting)
      (write : LeaseWrite attemptId row' s.db s'.db) (moved : LeaseRow.Moved phase row row')
      (inspections_eq : s'.inspections = s.inspections)
  | inspects (row row' : LeaseRow) (attempt : AttemptRow)
      (lease : EvaluatedLease s.db attemptId row attempt)
      (decided : svc.decidedAction now row attempt = .inspect)
      (notInspecting : row.snapshotJson.evaluation.phase ≠ .inspecting)
      (write : LeaseWrite attemptId row' s.db s'.db)
      (moved : LeaseRow.Moved .inspecting row row')
      (version_lt : row.stateVersion < row'.stateVersion)
      (started : s'.inspections =
        s.inspections ++ [⟨attemptId, attempt, cardId, row.snapshotJson.stateVersion⟩])
  | cancels (row row' : LeaseRow) (attempt : AttemptRow)
      (lease : EvaluatedLease s.db attemptId row attempt)
      (decided : svc.decidedAction now row attempt = .cancel)
      (write : LeaseWrite attemptId row' s.db s'.db)
      (version_lt : row.stateVersion < row'.stateVersion)
      (ended : row'.snapshotJson.evaluation.phase = .cancelRequested ∨
        row'.snapshotJson.evaluation.phase = .closed ∧ row'.snapshotJson.closedAt = some now)
      (inspections_eq : s'.inspections = s.inspections)

theorem evaluateAndAct_cases (svc : LeaseReconciliationService) (now : Millis)
    (attemptId : String) (cardId : Nat) (hdb : LeasesCoherent s.db.attemptLeaseSnapshots) :
    EvaluationEffect svc now attemptId cardId s (svc.evaluateAndAct now attemptId cardId s) := by
  rcases evaluable_cases s attemptId with hidle | ⟨row, attempt, hlease⟩
  · rw [evaluateAndAct_idle cardId hidle]
    exact .idle rfl rfl
  cases haction : svc.decidedAction now row attempt with
  | healthy =>
    obtain ⟨row', hwrite, hsame, hmove, -⟩ :=
      evaluateAndAct_rest cardId hdb hlease (.inl ⟨haction, rfl⟩)
    exact .rests row row' attempt .healthy hlease (.inl ⟨haction, rfl⟩) hwrite hmove hsame
  | warning =>
    obtain ⟨row', hwrite, hsame, hmove, -⟩ :=
      evaluateAndAct_rest cardId hdb hlease (.inr ⟨haction, rfl⟩)
    exact .rests row row' attempt .warning hlease (.inr (.inl ⟨haction, rfl⟩)) hwrite hmove
      hsame
  | inspect =>
    rcases evaluateAndAct_inspect cardId hdb hlease haction with
      ⟨-, hsame⟩ | ⟨hnot, row', hwrite, hlt, ⟨hmove, hstarted⟩ | ⟨hmove, hsame⟩⟩
    · rw [hsame]
      exact .idle rfl rfl
    · exact .inspects row row' attempt hlease haction hnot hwrite hmove hlt hstarted
    · exact .rests row row' attempt .inspectDue hlease (.inr (.inr ⟨haction, rfl, hnot⟩))
        hwrite hmove hsame
  | cancel =>
    obtain ⟨hsame, ⟨-, hkept⟩ | ⟨-, row', hwrite, hlt, hended⟩⟩ :=
      evaluateAndAct_cancel cardId hdb hlease haction
    · exact .idle hkept hsame
    · exact .cancels row row' attempt hlease haction hwrite hlt hended hsame
  | closed =>
    rw [evaluateAndAct_closed cardId hlease haction]
    exact .idle rfl rfl

end Evaluate

section Settled

variable {svc : LeaseReconciliationService} {now : Millis} {db : Db} {row : LeaseRow}
  {inspection : Inspection} {result : InspectionResult}

/-- Short of a terminal outcome, an inspection leaves the snapshot open, at rest
or in a grace. -/
theorem applyInspectionOutcome_phase (now : Millis) (policy : LeasePolicy)
    (hard : Option Millis) (s : AttemptLeaseSnapshot) (outcome : InspectionOutcome)
    (houtcome : outcome ≠ .terminal) :
    (applyInspectionOutcome now policy hard s outcome).closedAt = s.closedAt ∧
      ((applyInspectionOutcome now policy hard s outcome).evaluation.phase = .healthy ∨
        (applyInspectionOutcome now policy hard s outcome).evaluation.phase = .inspectGrace) ∧
      (outcome = .unknown →
        (applyInspectionOutcome now policy hard s outcome).evaluation.phase = .inspectGrace) := by
  cases outcome with
  | terminal => exact absurd rfl houtcome
  | running =>
    refine ⟨?_, ?_, fun h => by cases h⟩
    · simp only [applyInspectionOutcome, applyRunning]
      split <;> rfl
    simp only [applyInspectionOutcome, applyRunning]
    split
    · exact .inr rfl
    · exact .inl rfl
  | unknown =>
    have hphase : (applyInspectionOutcome now policy hard s .unknown).evaluation.phase =
        .inspectGrace := by
      simp only [applyInspectionOutcome, applyUnknown]
      split <;> rfl
    refine ⟨?_, .inr hphase, fun _ => hphase⟩
    simp only [applyInspectionOutcome, applyUnknown]
    split <;> rfl

/-- Without a lease, or with one that is closed or to be cancelled, an answer
that is not terminal changes nothing. -/
theorem inspectionFulfilled_idle
    (hrow : ∀ row, db.attemptLeaseSnapshots.get inspection.attemptId = some row →
      row.snapshotJson.closedAt.isSome = true ∨
        row.snapshotJson.evaluation.phase = .cancelRequested ∧ result ≠ .terminal) :
    svc.inspectionFulfilled now inspection result db = db := by
  unfold inspectionFulfilled getSnapshot
  cases hget : db.attemptLeaseSnapshots.get inspection.attemptId with
  | none => rfl
  | some row =>
    simp only [Option.map_some]
    split
    · rfl
    rename_i hopen
    rcases hrow row hget with hclosed | ⟨hphase, hterminal⟩
    · exact absurd hclosed hopen
    rw [if_neg hterminal]
    obtain ⟨-, hrest, -⟩ := applyInspectionOutcome_phase now svc.policy
      inspection.attempt.hardDeadlineAt row.snapshotJson
      (outcomeOf result) (by cases result <;> decide)
    have hmiss : ∀ next, updateEvaluation now inspection.attemptId
        (applyInspectionOutcome now svc.policy inspection.attempt.hardDeadlineAt
          row.snapshotJson (outcomeOf result)).evaluation.phase
        (some row.snapshotJson.stateVersion) next db = (false, db) := by
      intro next
      have hne : (applyInspectionOutcome now svc.policy inspection.attempt.hardDeadlineAt
          row.snapshotJson (outcomeOf result)).evaluation.phase ≠ .cancelRequested := by
        rcases hrest with h | h <;> simp [h]
      simp [updateEvaluation, evaluationTarget, hget, hphase, hne]
    simp only [hmiss]

theorem inspectionFulfilled_write (svc : LeaseReconciliationService) (now : Millis)
    (hdb : LeasesCoherent db.attemptLeaseSnapshots)
    (hrow : db.attemptLeaseSnapshots.get inspection.attemptId = some row)
    (hopen : row.Evaluable) (hresult : result ≠ .terminal) :
    ∃ row', LeaseWrite inspection.attemptId row' db
        (svc.inspectionFulfilled now inspection result db) ∧
      LeaseRow.Moved (applyInspectionOutcome now svc.policy inspection.attempt.hardDeadlineAt
        row.snapshotJson (outcomeOf result)).evaluation.phase row row' := by
  obtain ⟨hclosedAt, -, -⟩ := applyInspectionOutcome_phase now svc.policy
    inspection.attempt.hardDeadlineAt row.snapshotJson
    (outcomeOf result) (by cases result <;> decide)
  unfold inspectionFulfilled getSnapshot
  simp only [hrow, Option.map_some, hopen.openAt, Option.isSome_none, Bool.false_eq_true,
    if_false, if_neg hresult]
  let updated := applyInspectionOutcome now svc.policy inspection.attempt.hardDeadlineAt
    row.snapshotJson (outcomeOf result)
  obtain ⟨row', after, hlands, hwrite, hmove, -, -⟩ := updateEvaluation_write now
    updated.evaluation.phase (some row.snapshotJson.stateVersion) updated.nextEvaluationAt hdb
    hrow hopen fun version hv => (Option.some.inj hv).symm
  have hstillOpen : updated.closedAt = none := hclosedAt.trans hopen.openAt
  simp only [updated] at hlands hstillOpen
  simp only [hlands, hstillOpen, Option.isSome_none, Bool.false_eq_true, if_false]
  exact ⟨row', hwrite, hmove⟩

theorem inspectionFulfilled_terminal
    (hrow : db.attemptLeaseSnapshots.get inspection.attemptId = some row)
    (hopen : row.snapshotJson.closedAt = none) :
    svc.inspectionFulfilled now inspection .terminal db =
      (closeLease now inspection.attemptId inspection.attempt.generation "inspection_terminal"
        db).2 := by
  simp [inspectionFulfilled, getSnapshot, hrow, hopen]

/-- The rejected continuation asks for the version the evaluation has seen before
it moved the lease; once that version is behind, it changes nothing. -/
theorem inspectionSettled_rejected
    (hbehind : ∀ row, db.attemptLeaseSnapshots.get inspection.attemptId = some row →
      inspection.stateVersion < row.stateVersion) :
    svc.inspectionSettled now inspection .rejected db = db := by
  simp only [inspectionSettled, if_true, updateEvaluation, evaluationTarget]
  cases hget : db.attemptLeaseSnapshots.get inspection.attemptId with
  | none => rfl
  | some row =>
    have hne : inspection.stateVersion ≠ row.stateVersion := Nat.ne_of_lt (hbehind row hget)
    simp [hne]

/-- Everything a settled inspection can do: a rejection and an answer about a lease
that is gone, closed or to be cancelled change nothing; an answer that the executor
has ended closes the lease; any other moves its evaluation. -/
inductive InspectionEffect (svc : LeaseReconciliationService) (now : Millis)
    (inspection : Inspection) (result : InspectionResult) (db db' : Db) : Prop
  | idle (db_eq : db' = db)
      (why : result = .rejected ∨
        ∀ row, db.attemptLeaseSnapshots.get inspection.attemptId = some row → ¬ row.Evaluable)
  | answers (row row' : LeaseRow)
      (get_row : db.attemptLeaseSnapshots.get inspection.attemptId = some row)
      (evaluable : row.Evaluable) (notRejected : result ≠ .rejected)
      (notTerminal : result ≠ .terminal) (write : LeaseWrite inspection.attemptId row' db db')
      (moved : LeaseRow.Moved (applyInspectionOutcome now svc.policy
        inspection.attempt.hardDeadlineAt row.snapshotJson (outcomeOf result)).evaluation.phase
        row row')
  | closes (row row' : LeaseRow)
      (get_row : db.attemptLeaseSnapshots.get inspection.attemptId = some row)
      (terminal : result = .terminal) (write : LeaseWrite inspection.attemptId row' db db')
      (version_eq : row.stateVersion = row'.stateVersion)
      (ended : row'.snapshotJson.evaluation.phase = .closed ∧
        row'.snapshotJson.closedAt = some now)

/-- The versions and the generation an inspection was started with are what its
continuations go by. -/
theorem inspectionSettled_cases (svc : LeaseReconciliationService) (now : Millis)
    (result : InspectionResult) (hdb : LeasesCoherent db.attemptLeaseSnapshots)
    (hrow : db.attemptLeaseSnapshots.get inspection.attemptId = some row)
    (hbehind : inspection.stateVersion < row.stateVersion)
    (howned : (db.workerAttempts.get inspection.attemptId).map AttemptRow.terms =
      some inspection.attempt.terms) :
    InspectionEffect svc now inspection result db
      (svc.inspectionSettled now inspection result db) := by
  have hsame : ∀ r, db.attemptLeaseSnapshots.get inspection.attemptId = some r → r = row :=
    fun r hr => (Option.some.inj (hrow.symm.trans hr)).symm
  by_cases hrejected : result = .rejected
  · subst hrejected
    exact .idle (inspectionSettled_rejected fun r hr => hsame r hr ▸ hbehind) (.inl rfl)
  have hfulfilled : svc.inspectionSettled now inspection result db =
      svc.inspectionFulfilled now inspection result db := if_neg hrejected
  rw [hfulfilled]
  by_cases hclosed : row.snapshotJson.closedAt.isSome = true
  · refine .idle (inspectionFulfilled_idle fun r hr => hsame r hr ▸ .inl hclosed)
      (.inr fun r hr hopen => ?_)
    rw [hsame r hr] at hopen
    rw [hopen.openAt] at hclosed
    cases hclosed
  have hopen : row.snapshotJson.closedAt = none := by simpa using hclosed
  by_cases hterminal : result = .terminal
  · subst hterminal
    rw [inspectionFulfilled_terminal hrow hopen]
    rcases closeLease_write hdb now inspection.attemptId inspection.attempt.generation
        "inspection_terminal" with ⟨-, hgeneration⟩ | ⟨row', hwrite, hphase, hat, hversion⟩
    · -- the attempt is still in the generation that was inspected
      obtain ⟨a, ha, hterms⟩ := Option.map_eq_some_iff.1 howned
      exact absurd (congrArg Prod.fst hterms) (hgeneration row a hrow hopen ha)
    · exact .closes row row' hrow rfl hwrite (hversion row hrow) ⟨hphase, hat⟩
  by_cases hcancelled : row.snapshotJson.evaluation.phase = .cancelRequested
  · exact .idle (inspectionFulfilled_idle fun r hr =>
      hsame r hr ▸ .inr ⟨hcancelled, hterminal⟩)
      (.inr fun r hr hopen' => hopen'.notCancelled (hsame r hr ▸ hcancelled))
  · obtain ⟨row', hwrite, hmove⟩ := inspectionFulfilled_write svc now hdb hrow
      ⟨hopen, hcancelled⟩ hterminal
    exact .answers row row' hrow ⟨hopen, hcancelled⟩ hrejected hterminal hwrite hmove

end Settled

end LeaseReconciliationService

theorem cancelSettles_same (svc : LeaseReconciliationService) (s : ReconcilerState) (now : Millis)
    (index : Nat) :
    (reconcilerStep svc s (now, .cancelSettles index)).db = s.db ∧
      (reconcilerStep svc s (now, .cancelSettles index)).inspections = s.inspections := by
  simp only [reconcilerStep]
  split
  · exact ⟨rfl, rfl⟩
  · exact LeaseReconciliationService.notifyIfTerminal_db _ _ _ _

end Abtars
