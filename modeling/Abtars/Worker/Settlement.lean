import Abtars.Worker.Store

/-!
# The terminal settlement of an attempt

`settleAttemptInTransaction` is the only way a claimed attempt ends: it decides
the effective verdict from the asked one, the hard deadline and the reservation,
charges the tokens once, closes the lease, releases the retry reservation and
stores the evidence.  A supervised settlement then hands the outcome to the
workflow runner inside the same transaction, contained so that its failure
cannot undo the settlement.
-/

namespace Abtars

open Lib

/-! ## Inputs and outcomes -/

structure NormalizedUsage where
  input : Int
  output : Int
  trustworthy : Bool

structure SettleInput where
  attemptId : String
  expectedGeneration : Int
  desiredState : DesiredState
  stableReason : String
  normalizedUsage : Option NormalizedUsage
  envelope : Option WorkerResultEnvelope
  now : Option Millis
  /-- The terminal cause `input_requested`. -/
  inputRequested : Bool

inductive SettleOutcome
  | settled (lifecycle : AttemptLifecycle) (chargedTokens : Int)
  | replayed (lifecycle : AttemptLifecycle) (chargedTokens : Int)
  | stale (lifecycle : Option AttemptLifecycle)
  | conflict
  | budgetViolation (lifecycle : AttemptLifecycle) (chargedTokens : Int)

structure SettledAttempt where
  attemptId : String
  cardId : Nat
  rootCardId : Nat
  lifecycle : AttemptLifecycle
  generation : Int
  stableReason : String

/-- What the runner's commit may write to the tables of this development: the
run it advances, the root's supervision, the ownership below a root it ends, the
root card's projection and its delivery flag. -/
structure SuccessorEffect where
  workflowRun : Option WorkflowRunRow
  supervision : Option ProjectSupervisionRow
  invalidatedRoot : Option Nat
  projection : Option TransitionRequest
  deliveryReady : Option Nat

/-- `commitSupervisedOutcome`: the effect on a settled database, if any. -/
abbrev SuccessorHook := Db → SettledAttempt → Option SuccessorEffect

/-! ## Deciding the verdict -/

/-- Hundredths of the grace, in milliseconds: one hundredth of the contract's
duration up to five seconds, one second without a usable duration. -/
def completionGraceCentis (db : Db) (attempt : AttemptRow) : Int :=
  match ((db.workerContracts.get attempt.contractId).bind (·.contractJson)).bind
      (·.limits.maxDurationMs) with
  | some duration => if duration ≤ 0 then 100000 else min duration 500000
  | none => 100000

def lateCompletion (db : Db) (input : SettleInput) (attempt : AttemptRow) (now : Millis) : Bool :=
  match attempt.hardDeadlineAt with
  | none => false
  | some deadline =>
    input.desiredState = .completed ∧ 0 ≤ now - deadline ∧
      ¬ (input.envelope.isSome ∧
        100 * (now - deadline) ≤ completionGraceCentis db attempt)

variable (input : SettleInput)

def SettleInput.usage : Option NormalizedUsage :=
  input.normalizedUsage.filter fun u => 0 ≤ u.input ∧ 0 ≤ u.output

def SettleInput.trustedTotal : Option Int :=
  input.usage.bind fun u => if u.trustworthy then some (u.input + u.output) else none

/-- Tokens to charge: nothing for a question, the trusted total, else the
reservation. -/
def chargeTokens (attempt : AttemptRow) : Int :=
  if input.inputRequested then 0
  else
    match input.trustedTotal with
    | some total => total
    | none => if 0 < attempt.reservedTokens then attempt.reservedTokens else 0

def budgetViolated (attempt : AttemptRow) : Bool :=
  input.inputRequested = false ∧ 0 < attempt.reservedTokens ∧
    input.trustedTotal.any (attempt.reservedTokens < ·)

def timelyState (db : Db) (input : SettleInput) (attempt : AttemptRow) (now : Millis) :
    DesiredState :=
  if lateCompletion db input attempt now then .timedOut else input.desiredState

def effectiveState (db : Db) (input : SettleInput) (attempt : AttemptRow) (now : Millis) :
    DesiredState :=
  if budgetViolated input attempt ∧ timelyState db input attempt now = .completed then .failed
  else timelyState db input attempt now

/-- The lifecycles a verdict may settle: a pending attempt can only be cancelled
or time out. -/
def allowedFrom (desired : DesiredState) (lifecycle : AttemptLifecycle) : Bool :=
  lifecycle.isActive ∨
    (lifecycle = .pending ∧ (desired = .timedOut ∨ desired = .cancelled))

variable (rt : Runtime)

def replaySettlement (input : SettleInput) (attempt : AttemptRow) (db : Db) : SettleOutcome :=
  match input.envelope with
  | none => .replayed attempt.lifecycle attempt.chargedTokens
  | some envelope =>
    match db.workerResults.get input.attemptId with
    | none => .stale (some attempt.lifecycle)
    | some existing =>
      if existing.envelopeDigest ≠ rt.envelopeDigest envelope then .conflict
      else .replayed attempt.lifecycle attempt.chargedTokens

def admitSettlement (input : SettleInput) (db : Db) : Except SettleOutcome AttemptRow :=
  match db.workerAttempts.get input.attemptId with
  | none => .error (.stale none)
  | some attempt =>
    if (latestAttempt db attempt.cardId).map (·.id) ≠ some input.attemptId then
      .error (.stale none)
    else if attempt.generation ≠ input.expectedGeneration then .error (.stale none)
    else if attempt.lifecycle.isTerminal then .error (replaySettlement rt input attempt db)
    else if input.desiredState = .completed ∧ authorizeAttemptForProjectWork db attempt ≠ none
    then .error (.stale (some attempt.lifecycle))
    else if allowedFrom input.desiredState attempt.lifecycle = false then .error (.stale none)
    else .ok attempt

/-! ## Writing the verdict -/

def AttemptRow.charge (input : SettleInput) (charge : Int) (now : Millis) (a : AttemptRow) :
    AttemptRow :=
  { a with
    inputTokens := input.usage.map (·.input)
    outputTokens := input.usage.map (·.output)
    chargedTokens := charge
    usageChargedAt := some now }

def KanbanCard.addTokens (tokens : Int) (clock : Millis) (card : KanbanCard) : KanbanCard :=
  { card with
    tokensUsed := some (card.tokensUsed.getD 0 + tokens)
    updatedAt := clock }

def chargeBoard (cardId : Nat) (tokens : Int) (clock : Millis) (board : Table KanbanCard) :
    Table KanbanCard :=
  let charged := board.modify cardId (KanbanCard.addTokens tokens clock)
  match parentOf board cardId with
  | none => charged
  | some parent =>
    if parent = 0 then charged
    else
      charged.updateWhere (fun card => card.id = parent ∧ isRootType card)
        (KanbanCard.addTokens tokens clock)

def chargeUsage (attempt : AttemptRow) (now clock : Millis) (db : Db) : Db :=
  match attempt.usageChargedAt with
  | some _ => db
  | none =>
    let charge := chargeTokens input attempt
    { db with
      workerAttempts := db.workerAttempts.modify input.attemptId
        (AttemptRow.charge input charge now)
      kanbanBoard := chargeBoard attempt.cardId charge clock db.kanbanBoard }

def settleReason (db : Db) (input : SettleInput) (attempt : AttemptRow) (now : Millis) :
    String :=
  if budgetViolated input attempt then "token_budget_exceeded: " ++ input.stableReason
  else if effectiveState db input attempt now ≠ input.desiredState then
    "late_completion_timed_out: " ++ input.stableReason
  else input.stableReason

def AttemptRow.settle (verdict : DesiredState) (reason : String) (now : Millis)
    (a : AttemptRow) : AttemptRow :=
  { a with
    lifecycle := verdict.lifecycle
    status := if verdict = .completed then "settled" else verdict.text
    settledAt := some now
    cancelReason := some reason }

def releaseReservations (clock : Millis) (reservations : Table ReservationRow) :
    Table ReservationRow :=
  reservations.updateWhere
    (fun r => r.targetAttemptId = input.attemptId ∧ r.status.isHeld)
    fun r =>
      { r with
        status := if input.inputRequested then .released else .consumed
        updatedAt := clock }

def buildAbsenceEnvelope (db : Db) (attempt : AttemptRow) (verdict : DesiredState)
    (now : Millis) : WorkerResultEnvelope :=
  let contractRow := db.workerContracts.get attempt.contractId
  { attempt :=
      { id := attempt.id
        ordinal := attempt.ordinal
        contractId := attempt.contractId
        contractDigest := (contractRow.map (·.contractDigest)).getD ""
        executorKind := attempt.executorKind
        executorId := attempt.executorId
        startedAt := attempt.startedAt
        finishedAt := now }
    outcome := verdict.outcome
    criteria := (((contractRow.bind (·.contractJson)).map (·.criteria)).getD []).map fun c =>
      { criterionId := c.id, status := .notRun, evidenceIds := [] }
    checks := []
    artifacts := []
    workerReport :=
      { summary := "settled " ++ verdict.text ++ " without a worker result"
        claims := []
        unresolvedRisks := [] }
    usage := none
    error := none }

/-- The envelope a settlement stores: the caller's, or, for a verdict other than
completed, the evidence of absence. -/
def storedEnvelope (db : Db) (input : SettleInput) (attempt : AttemptRow)
    (verdict : DesiredState) (now : Millis) : Option WorkerResultEnvelope :=
  match input.envelope with
  | some envelope => some envelope
  | none =>
    if verdict = .completed then none
    else some (buildAbsenceEnvelope db attempt verdict now)

def storeResult (attemptId : String) (envelope : Option WorkerResultEnvelope) (clock : Millis)
    (results : Table ResultRow) : Table ResultRow :=
  match envelope with
  | none => results
  | some e =>
    results.insertOrIgnore (fun _ => false)
      { attemptId := attemptId
        envelope := e
        envelopeDigest := rt.envelopeDigest e
        createdAt := clock }

/-- Everything an admitted settlement writes before the workflow runner is told. -/
def settleWrites (input : SettleInput) (attempt : AttemptRow) (clock : Millis) (db : Db) : Db :=
  let now := input.now.getD clock
  let verdict := effectiveState db input attempt now
  let charged := chargeUsage input attempt now clock db
  let settled :=
    { charged with
      workerAttempts := charged.workerAttempts.modify input.attemptId
        (AttemptRow.settle verdict (settleReason db input attempt now) now) }
  let closed := (closeLease clock input.attemptId attempt.generation
    ("terminal:" ++ verdict.text) settled).2
  { closed with
    retryBudgetReservations := releaseReservations input clock closed.retryBudgetReservations
    workerResults := storeResult rt input.attemptId
      (storedEnvelope db input attempt verdict now) clock closed.workerResults }

/-! ## The supervised successor -/

def markDeliveryReady (cardId : Nat) (board : Table KanbanCard) : Table KanbanCard :=
  board.modify cardId fun card => { card with deliveryReady := 1 }

def SuccessorEffect.advance (effect : SuccessorEffect) (db : Db) : Db :=
  { db with
    workflowRuns := effect.workflowRun.elim db.workflowRuns db.workflowRuns.put
    projectSupervision := effect.supervision.elim db.projectSupervision
      db.projectSupervision.put }

def SuccessorEffect.fence (effect : SuccessorEffect) (clock : Millis) (db : Db) : Db :=
  match effect.invalidatedRoot with
  | none => db
  | some root => invalidateOwnership clock root db

def SuccessorEffect.markReady (effect : SuccessorEffect) (db : Db) : Db :=
  match effect.deliveryReady with
  | none => db
  | some cardId => { db with kanbanBoard := markDeliveryReady cardId db.kanbanBoard }

def applySuccessorEffect (clock : Millis) (effect : SuccessorEffect) :
    Body Db String Unit := fun db =>
  let fenced := effect.fence clock (effect.advance db)
  match effect.projection with
  | none => .ok ((), effect.markReady fenced)
  | some req =>
    match kanbanTransition rt.redactSecrets clock req fenced with
    | .error message => .error message
    | .ok (_, projected) => .ok ((), effect.markReady projected)

def successorEffect (hook : SuccessorHook) (input : SettleInput) (attempt : AttemptRow)
    (verdict : DesiredState) (db : Db) : Option SuccessorEffect :=
  attempt.rootProjectCardId.bind fun root =>
    hook db
      { attemptId := input.attemptId
        cardId := attempt.cardId
        rootCardId := root
        lifecycle := verdict.lifecycle
        generation := if attempt.generation = 0 then 1 else attempt.generation
        stableReason := input.stableReason }

def commitSuccessor (hook : SuccessorHook) (input : SettleInput) (attempt : AttemptRow)
    (verdict : DesiredState) (clock : Millis) (db : Db) : Db :=
  match successorEffect hook input attempt verdict db with
  | none => db
  | some effect =>
    (transactionCatching (applySuccessorEffect rt clock effect) (fun _ => ()) db).2

/-! ## The settlement -/

def settledOutcome (db : Db) (input : SettleInput) (attempt : AttemptRow) (now : Millis) :
    SettleOutcome :=
  let verdict := (effectiveState db input attempt now).lifecycle
  if budgetViolated input attempt then .budgetViolation verdict (chargeTokens input attempt)
  else .settled verdict (chargeTokens input attempt)

/-- `settleAttemptInTransaction`. -/
def settleAttempt (hook : SuccessorHook) (clock : Millis) (input : SettleInput) (db : Db) :
    SettleOutcome × Db :=
  match admitSettlement rt input db with
  | .error outcome => (outcome, db)
  | .ok attempt =>
    let now := input.now.getD clock
    let verdict := effectiveState db input attempt now
    (settledOutcome db input attempt now,
      commitSuccessor rt hook input attempt verdict clock
        (settleWrites rt input attempt clock db))

section Spec

variable {rt : Runtime} {input : SettleInput} {attempt : AttemptRow} {db : Db}

theorem admitSettlement_ok (h : admitSettlement rt input db = .ok attempt) :
    db.workerAttempts.get input.attemptId = some attempt ∧
      attempt.generation = input.expectedGeneration ∧ attempt.lifecycle.isTerminal = false ∧
      allowedFrom input.desiredState attempt.lifecycle = true := by
  unfold admitSettlement at h
  cases hget : db.workerAttempts.get input.attemptId with
  | none => simp [hget] at h
  | some a =>
    simp only [hget] at h
    split_ifs at h with _ hgeneration hterminal _ hallowed
    cases h
    exact ⟨rfl, not_not.1 hgeneration, by simpa using hterminal, by simpa using hallowed⟩

def AttemptRow.chargeOnce (input : SettleInput) (now : Millis) (a : AttemptRow) : AttemptRow :=
  match a.usageChargedAt with
  | some _ => a
  | none => a.charge input (chargeTokens input a) now

def settledRow (db : Db) (input : SettleInput) (attempt : AttemptRow) (now : Millis) :
    AttemptRow :=
  (attempt.chargeOnce input now).settle (effectiveState db input attempt now)
    (settleReason db input attempt now) now

variable (now : Millis)

@[simp]
theorem settledRow_lifecycle :
    (settledRow db input attempt now).lifecycle =
      (effectiveState db input attempt now).lifecycle := rfl

theorem chargeOnce_cases (input : SettleInput) (attempt : AttemptRow) (now : Millis) :
    (∃ t, attempt.usageChargedAt = some t ∧ attempt.chargeOnce input now = attempt) ∨
      attempt.usageChargedAt = none ∧
        attempt.chargeOnce input now = attempt.charge input (chargeTokens input attempt) now := by
  unfold AttemptRow.chargeOnce
  cases attempt.usageChargedAt with
  | some t => exact .inl ⟨t, rfl, rfl⟩
  | none => exact .inr ⟨rfl, rfl⟩

@[simp]
theorem chargeOnce_cardId : (attempt.chargeOnce input now).cardId = attempt.cardId := by
  rcases chargeOnce_cases input attempt now with ⟨_, -, h⟩ | ⟨-, h⟩ <;> rw [h]
  rfl

@[simp]
theorem settledRow_cardId : (settledRow db input attempt now).cardId = attempt.cardId :=
  chargeOnce_cardId now

@[simp]
theorem settledRow_reservedTokens :
    (settledRow db input attempt now).reservedTokens = attempt.reservedTokens := by
  show (attempt.chargeOnce input now).reservedTokens = attempt.reservedTokens
  rcases chargeOnce_cases input attempt now with ⟨_, -, h⟩ | ⟨-, h⟩ <;> rw [h]
  rfl

theorem settledRow_sourceAttemptId :
    (settledRow db input attempt now).sourceAttemptId = attempt.sourceAttemptId := by
  show (attempt.chargeOnce input now).sourceAttemptId = attempt.sourceAttemptId
  rcases chargeOnce_cases input attempt now with ⟨_, -, h⟩ | ⟨-, h⟩ <;> rw [h]
  rfl

theorem settledRow_chargedTokens {now : Millis} (h : attempt.usageChargedAt = none) :
    (settledRow db input attempt now).chargedTokens = chargeTokens input attempt := by
  simp [settledRow, AttemptRow.settle, AttemptRow.chargeOnce, h, AttemptRow.charge]

/-- A settlement rewrites the row of its attempt, charges the board, and touches
beside these the lease, the reservations and the results. -/
theorem settleWrites_eq (rt : Runtime) (input : SettleInput) (attempt : AttemptRow)
    (clock : Millis) (db : Db) :
    ∃ write hwrite leases events,
      write attempt = settledRow db input attempt (input.now.getD clock) ∧
      settleWrites rt input attempt clock db =
        { db with
          workerAttempts := db.workerAttempts.modify input.attemptId write hwrite
          kanbanBoard := (chargeUsage input attempt (input.now.getD clock) clock db).kanbanBoard
          attemptLeaseSnapshots := leases
          attemptProgressEvents := events
          retryBudgetReservations := releaseReservations input clock db.retryBudgetReservations
          workerResults := storeResult rt input.attemptId
            (storedEnvelope db input attempt
              (effectiveState db input attempt (input.now.getD clock)) (input.now.getD clock))
            clock db.workerResults } := by
  let now := input.now.getD clock
  let settle := AttemptRow.settle (effectiveState db input attempt now)
    (settleReason db input attempt now) now
  let charged := chargeUsage input attempt now clock db
  obtain ⟨leases, events, hclose⟩ := closeLease_frame clock
    { charged with workerAttempts := charged.workerAttempts.modify input.attemptId settle }
    input.attemptId attempt.generation
    ("terminal:" ++ (effectiveState db input attempt now).text)
  have hwrites : settleWrites rt input attempt clock db =
      { (closeLease clock input.attemptId attempt.generation
          ("terminal:" ++ (effectiveState db input attempt now).text)
          { charged with
            workerAttempts := charged.workerAttempts.modify input.attemptId settle }).2 with
        retryBudgetReservations := releaseReservations input clock
          charged.retryBudgetReservations
        workerResults := storeResult rt input.attemptId
          (storedEnvelope db input attempt (effectiveState db input attempt now) now) clock
          charged.workerResults } := by
    simp only [settleWrites, settle, charged, now] at hclose ⊢
    rw [hclose]
  rw [hwrites, hclose]
  rcases chargeOnce_cases input attempt now with
    ⟨t, hcharged, honce⟩ | ⟨huncharged, honce⟩
  · refine ⟨settle, fun _ => rfl, leases, events, by rw [settledRow, honce], ?_⟩
    simp only [charged, now, chargeUsage, hcharged]
  · refine ⟨fun a => settle (a.charge input (chargeTokens input attempt) now), fun _ => rfl,
      leases, events, by rw [settledRow, honce], ?_⟩
    have hmodify := Table.modify_modify db.workerAttempts input.attemptId
      (AttemptRow.charge input (chargeTokens input attempt) now) settle (fun _ => rfl)
      (fun _ => rfl)
    simp only [charged, now, chargeUsage, huncharged] at hmodify ⊢
    rw [hmodify]

theorem get_settleWrites_self (clock : Millis)
    (hget : db.workerAttempts.get input.attemptId = some attempt) :
    (settleWrites rt input attempt clock db).workerAttempts.get input.attemptId =
      some (settledRow db input attempt (input.now.getD clock)) := by
  obtain ⟨write, hwrite, _, _, hrow, heq⟩ := settleWrites_eq rt input attempt clock db
  rw [heq, ← hrow]
  simp [hget]

theorem get_settleWrites_of_ne (clock : Millis) {id : String} (hne : id ≠ input.attemptId) :
    (settleWrites rt input attempt clock db).workerAttempts.get id = db.workerAttempts.get id := by
  obtain ⟨write, hwrite, _, _, -, heq⟩ := settleWrites_eq rt input attempt clock db
  rw [heq]
  exact Table.get_modify_of_ne db.workerAttempts write hwrite hne

end Spec

end Abtars
