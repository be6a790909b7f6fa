import Abtars.Database
import Abtars.Lease.Policy

/-!
# The executor lease store

The five operations that write `attempt_lease_snapshots`: appending a fact,
closing the lease, moving the evaluation, recording a cancel intent and arming
the next evaluation.  Each has one lemma saying everything it can do.
-/

namespace Abtars

open Lib

def maxEventsPerAttempt : Nat := 500

inductive AppendFactResult
  | accepted (snapshot : AttemptLeaseSnapshot)
  | idempotent (snapshot : AttemptLeaseSnapshot)
  | rejected (reason : String)
  | conflict (reason : String)

def leaseRowOf (s : AttemptLeaseSnapshot) : LeaseRow where
  attemptId := s.attemptId
  cardId := s.cardId
  claimGeneration := s.claimGeneration
  executorKind := s.executorKind
  executorId := s.executorId
  highWaterSequence := s.highWaterSequence
  stateVersion := s.stateVersion
  nextEvaluationAt := s.nextEvaluationAt
  closedAt := s.closedAt
  snapshotJson := s
  updatedAt := s.updatedAt

@[simp]
theorem key_leaseRowOf (s : AttemptLeaseSnapshot) : Keyed.key (leaseRowOf s) = s.attemptId := rfl

def getSnapshot (db : Db) (attemptId : String) : Option AttemptLeaseSnapshot :=
  (db.attemptLeaseSnapshots.get attemptId).map (·.snapshotJson)

/-! ## Appending a fact -/

def payloadUnsound (p : ProgressPayload) : Bool :=
  [p.operationId, p.operationLabel, p.observationId, p.milestoneId, p.inputRequestId].any
      (fun value => value.any (·.utf8ByteSize > maxIdentifierLength)) ∨
    p.expectedTimeoutMs.any (· < 0) ∨
    p.progressUnits.any (fun v => v < 0 ∨ v > maxSafeInteger)

/-- `_sanitizeFact`: the fact with its free texts redacted and cut. -/
def sanitizeFact (rt : Runtime) (fact : ProgressFact) : Option ProgressFact :=
  if payloadUnsound fact.payload then none
  else
    some
      { fact with
        schemaVersion := 1
        payload :=
          { fact.payload with
            operationLabel := fact.payload.operationLabel.map fun label =>
              sliceText (rt.redactProgress label) 200
            summary := fact.payload.summary.map fun text =>
              sliceText (rt.redactProgress text) maxPayloadSummaryLength } }

def factOwner (db : Db) (fact : ProgressFact) : Except String AttemptRow :=
  match db.workerAttempts.get fact.attemptId with
  | none => .error "attempt not found"
  | some attempt =>
    if attempt.lifecycle.isTerminal then
      .error ("attempt is " ++ attempt.lifecycle.text)
    else if attempt.lifecycle.isLive = false then
      .error ("attempt lifecycle " ++ attempt.lifecycle.text ++ " not active")
    else if attempt.generation ≠ fact.claimGeneration then
      .error ("generation mismatch: expected " ++ toString attempt.generation ++ ", got " ++
        toString fact.claimGeneration)
    else if attempt.executorKind ≠ fact.executorKind.kind then
      .error ("executor kind mismatch: expected " ++ attempt.executorKind.text ++ ", got " ++
        fact.executorKind.kind.text)
    else if attempt.executorId ≠ fact.executorId then
      .error ("executor id mismatch: expected " ++ attempt.executorId ++ ", got " ++
        fact.executorId)
    else .ok attempt

def findFact (db : Db) (fact : ProgressFact) : Option ProgressEventRow :=
  db.attemptProgressEvents.rows.find? fun e =>
    e.attemptId = fact.attemptId ∧ e.claimGeneration = fact.claimGeneration ∧
      e.factId = fact.factId

def replayFact (db : Db) (fact : ProgressFact) (fingerprint : String)
    (existing : ProgressEventRow) : AppendFactResult :=
  match getSnapshot db fact.attemptId with
  | some snapshot =>
    if existing.fingerprint = fingerprint then .idempotent snapshot
    else .conflict "duplicate fact_id with different fingerprint"
  | none => .conflict "duplicate fact_id with different fingerprint"

def nextSnapshot (rt : Runtime) (now : Millis) (policy : LeasePolicy)
    (resolver : Option PendingInputResolver) (attempt : AttemptRow) (fact : ProgressFact)
    (row : Option LeaseRow) : Option AttemptLeaseSnapshot :=
  match row with
  | none =>
    some { createInitialSnapshot rt.sha256 fact attempt.cardId policy now
      attempt.hardDeadlineAt with highWaterSequence := 1 }
  | some row =>
    if row.snapshotJson.closedAt.isSome then none
    else
      some { reduceFact policy now attempt.hardDeadlineAt rt.sha256 row.snapshotJson fact
        resolver with highWaterSequence := row.highWaterSequence + 1 }

def factEventRow (rt : Runtime) (now : Millis) (fact : ProgressFact) (sequence : Nat) :
    ProgressEventRow where
  attemptId := fact.attemptId
  claimGeneration := fact.claimGeneration
  sequence := sequence
  factId := fact.factId
  kind := fact.kind
  fingerprint := computeSemanticFingerprint rt.sha256 fact
  leaseEffect := computeLeaseEffect fact.kind fact.phase
  receivedAt := now
  event := .fact fact sequence

/-- `_pruneEvents`: keep the newest events of an attempt's generation. -/
def pruneEvents (attemptId : String) (generation : Int) (events : Table ProgressEventRow) :
    Table ProgressEventRow :=
  events.deleteWhere fun e =>
    e.attemptId = attemptId ∧ e.claimGeneration = generation ∧
      maxEventsPerAttempt ≤ (events.select fun newer =>
        newer.attemptId = attemptId ∧ newer.claimGeneration = generation ∧
          e.sequence < newer.sequence).length

def storeFact (rt : Runtime) (now : Millis) (fact : ProgressFact)
    (snapshot : AttemptLeaseSnapshot) (db : Db) : Db :=
  let event := factEventRow rt now fact snapshot.highWaterSequence
  { db with
    attemptLeaseSnapshots := db.attemptLeaseSnapshots.put (leaseRowOf snapshot)
    attemptProgressEvents := pruneEvents fact.attemptId fact.claimGeneration
      (db.attemptProgressEvents.insertOrIgnore event.clashes event) }

def appendSanitized (rt : Runtime) (now : Millis) (policy : LeasePolicy)
    (resolver : Option PendingInputResolver) (fact : ProgressFact) (db : Db) :
    AppendFactResult × Db :=
  match factOwner db fact with
  | .error reason => (.rejected reason, db)
  | .ok attempt =>
    match findFact db fact with
    | some existing =>
      (replayFact db fact (computeSemanticFingerprint rt.sha256 fact) existing, db)
    | none =>
      match nextSnapshot rt now policy resolver attempt fact
          (db.attemptLeaseSnapshots.get fact.attemptId) with
      | none => (.rejected "lease is closed", db)
      | some snapshot => (.accepted snapshot, storeFact rt now fact snapshot db)

def appendFact (rt : Runtime) (now : Millis) (policy : LeasePolicy)
    (resolver : Option PendingInputResolver) (fact : ProgressFact) (db : Db) :
    AppendFactResult × Db :=
  match validateProgressEvent fact with
  | issue :: rest =>
    (.rejected (String.intercalate "," ((issue :: rest).map (·.tag))), db)
  | [] =>
    match sanitizeFact rt fact with
    | none => (.rejected "sanitization failed", db)
    | some sanitized => appendSanitized rt now policy resolver sanitized db

/-! ## Closing the lease -/

variable (now : Millis)

def closedInitialSnapshot (reason : String) (attempt : AttemptRow) :
    AttemptLeaseSnapshot where
  attemptId := attempt.id
  cardId := attempt.cardId
  claimGeneration := attempt.generation
  executorKind := attempt.executorKind
  executorId := attempt.executorId
  highWaterSequence := 1
  stateVersion := 1
  semanticState := .alive
  semanticFingerprint := none
  lastMilestoneId := none
  lastReceivedAt := now
  lastLivenessAt := now
  lastMeaningfulProgressAt := now
  livenessDeadlineAt := now
  progressDeadlineAt := now
  outputOnlySince := none
  outputUnits := none
  operation := none
  awaitingInput := none
  evaluation :=
    { phase := .closed
      reason := none
      inspectionCount := 0
      lastInspectionOutcome := none
      graceDeadlineAt := none
      version := 1 }
  nextEvaluationAt := none
  closedAt := some now
  closeReason := some reason
  updatedAt := now

def closeSnapshot (reason : String) (s : AttemptLeaseSnapshot) : AttemptLeaseSnapshot :=
  { s with
    closedAt := some now
    closeReason := some reason
    evaluation :=
      { s.evaluation with
        phase := .closed
        version := s.evaluation.version + 1 }
    updatedAt := now
    nextEvaluationAt := none
    highWaterSequence := s.highWaterSequence + 1 }

/-- The snapshot `closeLease` writes; none when the lease is already closed. -/
def closingSnapshot (reason : String) (attempt : AttemptRow) (row : Option LeaseRow) :
    Option AttemptLeaseSnapshot :=
  match row with
  | none => some (closedInitialSnapshot now reason attempt)
  | some row =>
    if row.snapshotJson.closedAt.isSome then none
    else some (closeSnapshot now reason row.snapshotJson)

def closeEventRow (attemptId : String) (generation : Int) (reason : String) (sequence : Nat) :
    ProgressEventRow where
  attemptId := attemptId
  claimGeneration := generation
  sequence := sequence
  factId := "close:" ++ attemptId
  kind := .stalled
  fingerprint := "closed:" ++ reason
  leaseEffect := .none_
  receivedAt := now
  event := .closing reason now sequence

def closeLease (attemptId : String) (generation : Int) (reason : String) (db : Db) : Bool × Db :=
  match db.workerAttempts.get attemptId with
  | none => (false, db)
  | some attempt =>
    if attempt.generation ≠ generation then (false, db)
    else
      match closingSnapshot now reason attempt (db.attemptLeaseSnapshots.get attemptId) with
      | none => (false, db)
      | some snapshot =>
        let event := closeEventRow now attemptId generation reason
          snapshot.highWaterSequence
        (true,
          { db with
            attemptLeaseSnapshots := db.attemptLeaseSnapshots.put (leaseRowOf snapshot)
            attemptProgressEvents :=
              db.attemptProgressEvents.insertOrIgnore event.clashes event })

/-! ## Moving the evaluation -/

def evaluatedSnapshot (phase : EvaluationPhase) (stateVersion : Nat)
    (nextEvaluationAt : Option Millis) (s : AttemptLeaseSnapshot) : AttemptLeaseSnapshot :=
  { s with
    evaluation :=
      { s.evaluation with
        phase := phase
        version := s.evaluation.version + 1 }
    stateVersion := stateVersion + 1
    nextEvaluationAt := nextEvaluationAt.orElse fun _ => s.nextEvaluationAt
    updatedAt := now }

def LeaseRow.rewrite (row : LeaseRow) (s : AttemptLeaseSnapshot) : LeaseRow :=
  { row with
    snapshotJson := s
    stateVersion := row.stateVersion + 1
    nextEvaluationAt := s.nextEvaluationAt
    updatedAt := s.updatedAt }

def rewriteLease (attemptId : String) (s : AttemptLeaseSnapshot) (leases : Table LeaseRow) :
    Table LeaseRow :=
  leases.modify attemptId (fun row => row.rewrite s)

/-- The row an evaluation update may rewrite: present, at the expected version,
and not moving a cancel intent back. -/
def evaluationTarget (db : Db) (attemptId : String) (phase : EvaluationPhase)
    (expectedStateVersion : Option Nat) : Option LeaseRow :=
  match db.attemptLeaseSnapshots.get attemptId with
  | none => none
  | some row =>
    if expectedStateVersion.any (· ≠ row.stateVersion) then none
    else if row.snapshotJson.evaluation.phase = .cancelRequested ∧ phase ≠ .cancelRequested
    then none
    else some row

def updateEvaluation (attemptId : String) (phase : EvaluationPhase)
    (expectedStateVersion : Option Nat) (nextEvaluationAt : Option Millis) (db : Db) : Bool × Db :=
  match evaluationTarget db attemptId phase expectedStateVersion with
  | none => (false, db)
  | some row =>
    let snapshot := evaluatedSnapshot now phase row.stateVersion nextEvaluationAt
      row.snapshotJson
    (true,
      { db with
        attemptLeaseSnapshots := rewriteLease attemptId snapshot db.attemptLeaseSnapshots })

/-! ## Recording a cancel intent -/

def cancelledSnapshot (reason : LeaseReason) (stateVersion : Nat) (s : AttemptLeaseSnapshot) :
    AttemptLeaseSnapshot :=
  { s with
    evaluation :=
      { s.evaluation with
        phase := .cancelRequested
        reason := some reason
        version := s.evaluation.version + 1 }
    nextEvaluationAt := none
    updatedAt := now
    stateVersion := stateVersion + 1 }

/-- The row a cancel intent may rewrite: at the expected version, for a live
attempt of the given generation. -/
def cancelTarget (db : Db) (attemptId : String) (generation : Int)
    (expectedStateVersion : Nat) : Option LeaseRow :=
  match db.attemptLeaseSnapshots.get attemptId, db.workerAttempts.get attemptId with
  | some row, some attempt =>
    if row.stateVersion = expectedStateVersion ∧ attempt.generation = generation ∧
        attempt.lifecycle.isLive then some row
    else none
  | _, _ => none

def recordCancelIntent (attemptId : String) (reason : LeaseReason) (generation : Int)
    (expectedStateVersion : Nat) (db : Db) : Bool × Db :=
  match cancelTarget db attemptId generation expectedStateVersion with
  | none => (false, db)
  | some row =>
    let snapshot := cancelledSnapshot now reason row.stateVersion row.snapshotJson
    (true,
      { db with
        workerAttempts := db.workerAttempts.modify attemptId fun a =>
          { a with
            lifecycle := .cancelRequested
            cancelReason := some ("lease:" ++ reason.text) }
        attemptLeaseSnapshots := rewriteLease attemptId snapshot db.attemptLeaseSnapshots })

/-! ## Arming the next evaluation -/

def armable (s : AttemptLeaseSnapshot) : Bool :=
  s.closedAt = none ∧ s.evaluation.phase ≠ .cancelRequested

def LeaseRow.arm (nextAt : Millis) (row : LeaseRow) : LeaseRow :=
  if armable row.snapshotJson then
    { row with
      snapshotJson :=
        { row.snapshotJson with
          nextEvaluationAt := some nextAt
          updatedAt := now }
      nextEvaluationAt := some nextAt
      updatedAt := now }
  else row

@[simp]
theorem arm_attemptId (nextAt : Millis) (row : LeaseRow) :
    (row.arm now nextAt).attemptId = row.attemptId := by
  unfold LeaseRow.arm
  split <;> rfl

def setUpcomingEvaluation (attemptId : String) (nextAt : Millis) (db : Db) : Db :=
  { db with
    attemptLeaseSnapshots := db.attemptLeaseSnapshots.modify attemptId
      (LeaseRow.arm now nextAt) (arm_attemptId now nextAt) }

/-! ## What each operation can do -/

/-- The snapshot of an accepted fact is open, and named like the lease it was
folded onto. -/
theorem nextSnapshot_open {rt : Runtime} {now : Millis} {policy : LeasePolicy}
    {resolver : Option PendingInputResolver} {attempt : AttemptRow} {fact : ProgressFact}
    {row : Option LeaseRow} {s : AttemptLeaseSnapshot}
    (h : nextSnapshot rt now policy resolver attempt fact row = some s)
    (hrow : ∀ r, row = some r → r.snapshotJson.attemptId = fact.attemptId) :
    s.attemptId = fact.attemptId ∧ s.closedAt = none := by
  unfold nextSnapshot at h
  cases row with
  | none =>
    cases h
    exact ⟨rfl, rfl⟩
  | some r =>
    dsimp only at h
    split at h
    · cases h
    rename_i hopen
    cases h
    have hidentity := reduceFact_identity policy now attempt.hardDeadlineAt rt.sha256
      r.snapshotJson fact resolver
    have hclosed : r.snapshotJson.closedAt = none := by simpa using hopen
    exact ⟨(congrArg LeaseIdentity.attemptId hidentity).trans (hrow r rfl),
      (congrArg LeaseIdentity.closedAt hidentity).trans hclosed⟩

theorem closingSnapshot_attemptId {now : Millis} {reason : String} {attempt : AttemptRow}
    {row : Option LeaseRow} {s : AttemptLeaseSnapshot}
    (h : closingSnapshot now reason attempt row = some s)
    (hrow : ∀ r, row = some r → r.snapshotJson.attemptId = attempt.id) :
    s.attemptId = attempt.id := by
  unfold closingSnapshot at h
  cases row with
  | none =>
    cases h
    rfl
  | some r =>
    dsimp only at h
    split at h
    · cases h
    · cases h
      exact hrow r rfl

section Cases

variable {rt : Runtime} {now : Millis} {policy : LeasePolicy}
  {resolver : Option PendingInputResolver} {db : Db}

/-- A fact is either answered without a write, or accepted: it belongs to a live
attempt, was not seen before, and the lease is open. -/
theorem appendFact_cases (rt : Runtime) (now : Millis) (policy : LeasePolicy)
    (resolver : Option PendingInputResolver) (db : Db) (fact : ProgressFact) :
    (appendFact rt now policy resolver fact db).2 = db ∨
    ∃ sanitized attempt snapshot, sanitizeFact rt fact = some sanitized ∧
      factOwner db sanitized = .ok attempt ∧
      nextSnapshot rt now policy resolver attempt sanitized
        (db.attemptLeaseSnapshots.get sanitized.attemptId) = some snapshot ∧
      (appendFact rt now policy resolver fact db).2 = storeFact rt now sanitized snapshot db := by
  unfold appendFact
  cases validateProgressEvent fact with
  | cons issue rest => exact .inl rfl
  | nil =>
    cases hsan : sanitizeFact rt fact with
    | none => exact .inl rfl
    | some sanitized =>
      simp only [appendSanitized]
      cases howner : factOwner db sanitized with
      | error reason => exact .inl rfl
      | ok attempt =>
        cases findFact db sanitized with
        | some existing => exact .inl rfl
        | none =>
          dsimp only
          cases hnext : nextSnapshot rt now policy resolver attempt sanitized
              (db.attemptLeaseSnapshots.get sanitized.attemptId) with
          | none => exact .inl rfl
          | some snapshot =>
            exact .inr ⟨sanitized, attempt, snapshot, rfl, howner, hnext, rfl⟩

theorem closeLease_cases (now : Millis) (db : Db) (attemptId : String) (generation : Int)
    (reason : String) :
    closeLease now attemptId generation reason db = (false, db) ∨
    ∃ attempt snapshot events, db.workerAttempts.get attemptId = some attempt ∧
      attempt.generation = generation ∧
      closingSnapshot now reason attempt (db.attemptLeaseSnapshots.get attemptId) =
        some snapshot ∧
      closeLease now attemptId generation reason db =
        (true,
          { db with
            attemptLeaseSnapshots := db.attemptLeaseSnapshots.put (leaseRowOf snapshot)
            attemptProgressEvents := events }) := by
  unfold closeLease
  cases hget : db.workerAttempts.get attemptId with
  | none => exact .inl rfl
  | some attempt =>
    by_cases hgen : attempt.generation ≠ generation
    · exact .inl (by simp [hgen])
    simp only [hgen, if_false]
    cases hclose : closingSnapshot now reason attempt
        (db.attemptLeaseSnapshots.get attemptId) with
    | none => exact .inl rfl
    | some snapshot =>
      exact .inr ⟨attempt, snapshot, _, rfl, not_not.1 hgen, hclose, rfl⟩

theorem closeLease_frame (now : Millis) (db : Db) (attemptId : String) (generation : Int)
    (reason : String) :
    ∃ leases events, (closeLease now attemptId generation reason db).2 =
      { db with attemptLeaseSnapshots := leases, attemptProgressEvents := events } := by
  rcases closeLease_cases now db attemptId generation reason with h | ⟨_, _, _, -, -, -, h⟩
  · exact ⟨_, _, by rw [h]⟩
  · exact ⟨_, _, by rw [h]⟩

theorem evaluationTarget_some {attemptId : String} {phase : EvaluationPhase}
    {expected : Option Nat} {row : LeaseRow}
    (h : evaluationTarget db attemptId phase expected = some row) :
    db.attemptLeaseSnapshots.get attemptId = some row ∧
      (∀ version, expected = some version → row.stateVersion = version) ∧
      (row.snapshotJson.evaluation.phase = .cancelRequested → phase = .cancelRequested) := by
  unfold evaluationTarget at h
  cases hget : db.attemptLeaseSnapshots.get attemptId with
  | none => simp [hget] at h
  | some r =>
    simp only [hget] at h
    split_ifs at h with hversion hcancel
    cases h
    refine ⟨rfl, ?_, ?_⟩
    · rintro version rfl
      by_contra hne
      exact hversion (by simpa using Ne.symm hne)
    · intro hphase
      by_contra hne
      exact hcancel ⟨hphase, hne⟩

theorem cancelTarget_some {attemptId : String} {generation : Int} {expected : Nat}
    {row : LeaseRow} (h : cancelTarget db attemptId generation expected = some row) :
    db.attemptLeaseSnapshots.get attemptId = some row ∧ row.stateVersion = expected ∧
      ∃ attempt, db.workerAttempts.get attemptId = some attempt ∧
        attempt.generation = generation ∧ attempt.lifecycle.isLive = true := by
  unfold cancelTarget at h
  cases hrow : db.attemptLeaseSnapshots.get attemptId with
  | none => simp [hrow] at h
  | some r =>
    cases hattempt : db.workerAttempts.get attemptId with
    | none => simp [hrow, hattempt] at h
    | some a =>
      simp only [hrow, hattempt] at h
      split_ifs at h with hmatch
      cases h
      exact ⟨rfl, hmatch.1, a, rfl, hmatch.2.1, hmatch.2.2⟩

end Cases

end Abtars
