import Abtars.Worker.Store

/-!
# The retry store: atomic successor allocation

`acceptDirectiveAndAllocateTarget` turns an accepted retry directive into a
successor contract, a pending attempt, the directive itself, an active budget
reservation and a scheduled decision, and re-queues the card.  It runs in one
transaction and reports every refusal by a returned outcome.
-/

namespace Abtars

open Lib

inductive AcceptRetryOutcome
  | created
  | idempotent (targetAttemptId : String)
  | conflict
  | staleSource
  | budgetExhausted
  deriving DecidableEq

structure BudgetReservation where
  tokens : Int
  cost : Rat
  switches : Int

structure AttemptInsert where
  id : String
  cardId : Nat
  contractId : String
  ordinal : Int
  executorKind : ExecutorKind
  executorId : String
  status : String
  startedAt : Millis
  sourceAttemptId : String
  earliestClaimAt : Millis

structure AllocationRequest where
  sourceAttemptId : String
  cardId : Nat
  decision : RetryPolicyDecision
  directive : RetryDirective
  revisedContract : WorkerAcceptanceContract
  targetAttemptId : String
  budgetReservation : BudgetReservation
  attemptInsert : AttemptInsert
  authority : Option ProjectMutationAuthority

/-! ## Queries -/

def getClassification (db : Db) (attemptId : String) : Option FailureClassification :=
  (db.attemptFailureClassifications.get attemptId).map (·.classification)

def directiveForSource (db : Db) (sourceAttemptId : String) : Option DirectiveRow :=
  db.retryDirectives.rows.find? fun d => d.sourceAttemptId = sourceAttemptId

def targetForSource (db : Db) (sourceAttemptId : String) : Option AttemptRow :=
  db.workerAttempts.rows.find? fun a => a.sourceAttemptId = some sourceAttemptId

def terminalAttempts (db : Db) (cardId : Nat) : List AttemptRow :=
  (attemptsForCard db cardId).filter (·.lifecycle.isTerminal)

def reservedAttempts (db : Db) (cardId : Nat) : Int :=
  db.retryBudgetReservations.sum fun r =>
    if (attemptsForCard db cardId).any (·.id = r.sourceAttemptId) ∧ r.status.isHeld then
      r.reservedAttempts
    else 0

def maxLineageAttempts : Int := 5

/-! ## Guards -/

variable (req : AllocationRequest)

def lineageMatches (source : AttemptRow) : Bool :=
  source.cardId = req.cardId ∧ req.attemptInsert.cardId = req.cardId ∧
    req.attemptInsert.id = req.targetAttemptId ∧
    req.attemptInsert.contractId = req.revisedContract.id ∧
    req.attemptInsert.sourceAttemptId = req.sourceAttemptId

/-- Project authority over the retry of an attempt of a card: the given one must be
the attempt's own and live; without one the attempt's lineage decides. -/
def retryAuthorized (db : Db) (authority : Option ProjectMutationAuthority) (cardId : Nat)
    (attempt : AttemptRow) : Bool :=
  match authority with
  | some authority =>
    attempt.rootProjectCardId = some authority.projectCardId ∧
      attempt.rootProjectGeneration = some authority.projectGeneration ∧
      attempt.scheduledRunId = authority.scheduledRunId ∧
      authorizeActiveProjectWork db authority = none
  | none =>
    match attempt.rootProjectCardId with
    | some rootCardId =>
      match attempt.rootProjectGeneration with
      | some generation =>
        authorizeActiveProjectWork db
          ⟨rootCardId, generation, attempt.scheduledRunId⟩ = none
      | none => false
    | none => cardIsSupervisedProjectChild db cardId = false

def allocationAuthorized (db : Db) (req : AllocationRequest) (source : AttemptRow) : Bool :=
  retryAuthorized db req.authority req.cardId source

def existingAllocation (db : Db) (req : AllocationRequest) : Option AcceptRetryOutcome :=
  match directiveForSource db req.sourceAttemptId with
  | some existing =>
    if existing.directiveDigest = req.directive.semanticChangeFingerprint then
      some (.idempotent (existing.targetAttemptId.getD ""))
    else some .conflict
  | none =>
    match targetForSource db req.sourceAttemptId with
    | some target => some (.idempotent target.id)
    | none =>
      (db.retryBudgetReservations.get req.sourceAttemptId).map fun r =>
        .idempotent r.targetAttemptId

def requestAboutSource : Bool :=
  req.decision.sourceAttemptId = req.sourceAttemptId ∧
    req.directive.sourceAttemptId = req.sourceAttemptId ∧
    req.revisedContract.revisionMeta.bind (·.sourceAttemptId) = some req.sourceAttemptId

def unresolvedDecision (db : Db) (sourceAttemptId : String) : Option DecisionRow :=
  (db.retryPolicyDecisions.get sourceAttemptId).filter fun d =>
    d.status = .reviewRequired ∨ d.status = .scheduled

/-- All guards of an allocation, in order: the outcome returned without a write,
or the source attempt and its unresolved decision. -/
def admitAllocation (db : Db) (req : AllocationRequest) :
    Except AcceptRetryOutcome (AttemptRow × DecisionRow) :=
  match db.workerAttempts.get req.sourceAttemptId with
  | none => .error .staleSource
  | some source =>
    if source.lifecycle.isTerminal = false then .error .staleSource
    else if lineageMatches req source = false then .error .conflict
    else if allocationAuthorized db req source = false then .error .staleSource
    else
      match existingAllocation db req with
      | some outcome => .error outcome
      | none =>
        if requestAboutSource req = false then .error .conflict
        else
          match unresolvedDecision db req.sourceAttemptId with
          | none => .error .staleSource
          | some decision =>
            if (terminalAttempts db req.cardId).length + reservedAttempts db req.cardId >
                maxLineageAttempts then .error .budgetExhausted
            else .ok (source, decision)

/-! ## Writes -/

def AllocationRequest.contractRow (now : Millis) : ContractRow where
  id := req.revisedContract.id
  cardId := req.cardId
  revision := (req.revisedContract.revisionMeta.map (·.revision)).getD 1
  rootContractId :=
    (req.revisedContract.revisionMeta.map (·.rootContractId)).getD req.revisedContract.id
  parentContractId := req.revisedContract.revisionMeta.bind (·.parentContractId)
  sourceAttemptId := some req.sourceAttemptId
  contractJson := some req.revisedContract
  contractDigest := req.revisedContract.digest
  createdAt := now

def AllocationRequest.attemptRow (source : AttemptRow) : AttemptRow :=
  { pendingAttempt req.attemptInsert.id req.attemptInsert.cardId req.attemptInsert.contractId
      req.attemptInsert.ordinal req.attemptInsert.executorKind req.attemptInsert.executorId
      req.attemptInsert.startedAt with
    status := req.attemptInsert.status
    sourceAttemptId := some req.attemptInsert.sourceAttemptId
    earliestClaimAt := some req.attemptInsert.earliestClaimAt
    rootProjectCardId := source.rootProjectCardId
    rootProjectGeneration := source.rootProjectGeneration
    scheduledRunId := source.scheduledRunId }

def AllocationRequest.directiveRow : DirectiveRow where
  id := req.directive.id
  sourceAttemptId := req.directive.sourceAttemptId
  targetAttemptId := some req.targetAttemptId
  directive := req.directive
  directiveDigest := req.directive.semanticChangeFingerprint
  createdAt := req.directive.createdAt

def AllocationRequest.reservationRow (now : Millis) :
    ReservationRow where
  sourceAttemptId := req.sourceAttemptId
  targetAttemptId := req.targetAttemptId
  reservedAttempts := 1
  reservedTokens := req.budgetReservation.tokens
  reservedCost := req.budgetReservation.cost
  reservedSwitches := req.budgetReservation.switches
  status := .active
  createdAt := now
  updatedAt := now

def scheduleDecision (now : Millis) (decision : DecisionRow)
    (decisions : Table DecisionRow) : Table DecisionRow :=
  decisions.updateWhere
    (fun d => d.sourceAttemptId = decision.sourceAttemptId ∧ d.status = decision.status)
    fun d => { d with status := .scheduled, updatedAt := now }

def insertAllocation (now : Millis) (req : AllocationRequest) (source : AttemptRow)
    (decision : DecisionRow) (db : Db) : Option Db :=
  let contract := req.contractRow now
  let attempt := req.attemptRow source
  let reservation := req.reservationRow now
  match db.workerContracts.insert contract.clashes contract with
  | none => none
  | some contracts =>
    match db.workerAttempts.insert attempt.clashes attempt with
    | none => none
    | some attempts =>
      match db.retryDirectives.insert req.directiveRow.clashes req.directiveRow with
      | none => none
      | some directives =>
        match db.retryBudgetReservations.insert reservation.clashes reservation with
        | none => none
        | some reservations =>
          some
            { db with
              workerContracts := contracts
              workerAttempts := attempts
              retryDirectives := directives
              retryBudgetReservations := reservations
              retryPolicyDecisions :=
                scheduleDecision now decision db.retryPolicyDecisions }

def requeueRequest (cardId : Nat) : TransitionRequest where
  cardId := cardId
  fromSet := [.failed, .done]
  toStatus := .queued
  actor := .retryRequeue
  reason := "retry attempt allocated"
  attemptId := none
  claimGeneration := none
  outboxCallback := none
  fields := [.error none, .nextRetryAt none]
  extraPredicate := none

def allocateBody (rt : Runtime) (now : Millis) (req : AllocationRequest) :
    Body Db String AcceptRetryOutcome := fun db =>
  match admitAllocation db req with
  | .error outcome => .ok (outcome, db)
  | .ok (source, decision) =>
    match insertAllocation now req source decision db with
    | none => .error "UNIQUE constraint failed"
    | some inserted =>
      match kanbanTransition rt.redactSecrets now (requeueRequest req.cardId) inserted with
      | .error message => .error message
      | .ok (.noOp _, requeued) => .ok (.staleSource, requeued)
      | .ok (_, requeued) => .ok (.created, requeued)

/-- `acceptDirectiveAndAllocateTarget`; whatever is thrown is a stale source. -/
def acceptDirectiveAndAllocateTarget (rt : Runtime) (now : Millis) (req : AllocationRequest)
    (db : Db) : AcceptRetryOutcome × Db :=
  transactionCatching (allocateBody rt now req) (fun _ => .staleSource) db

/-- What the inserts leave behind, table by table. -/
theorem insertAllocation_eq_some {now : Millis} {req : AllocationRequest} {source : AttemptRow}
    {decision : DecisionRow} {db db' : Db}
    (h : insertAllocation now req source decision db = some db') :
    ∃ contracts attempts directives reservations,
      db.workerContracts.insert (req.contractRow now).clashes (req.contractRow now) =
        some contracts ∧
      db.workerAttempts.insert (req.attemptRow source).clashes (req.attemptRow source) =
        some attempts ∧
      db.retryDirectives.insert req.directiveRow.clashes req.directiveRow = some directives ∧
      db.retryBudgetReservations.insert (req.reservationRow now).clashes
        (req.reservationRow now) = some reservations ∧
      db' =
        { db with
          workerContracts := contracts
          workerAttempts := attempts
          retryDirectives := directives
          retryBudgetReservations := reservations
          retryPolicyDecisions := scheduleDecision now decision db.retryPolicyDecisions } := by
  unfold insertAllocation at h
  dsimp only at h
  split at h
  · cases h
  rename_i contracts hcontracts
  split at h
  · cases h
  rename_i attempts hattempts
  split at h
  · cases h
  rename_i directives hdirectives
  split at h
  · cases h
  rename_i reservations hreservations
  cases h
  exact ⟨contracts, attempts, directives, reservations, hcontracts, hattempts,
    hdirectives, hreservations, rfl⟩

theorem admitAllocation_ok {req : AllocationRequest} {source : AttemptRow}
    {decision : DecisionRow} {db : Db} (h : admitAllocation db req = .ok (source, decision)) :
    lineageMatches req source = true ∧ requestAboutSource req = true ∧
      db.retryPolicyDecisions.get req.sourceAttemptId = some decision := by
  unfold admitAllocation at h
  cases hsource : db.workerAttempts.get req.sourceAttemptId with
  | none => simp [hsource] at h
  | some s =>
    simp only [hsource] at h
    split at h
    · cases h
    split at h
    · cases h
    rename_i hlineage
    split at h
    · cases h
    split at h
    · cases h
    split at h
    · cases h
    rename_i habout
    split at h
    · cases h
    rename_i d hdecision
    split at h
    · cases h
    cases h
    refine ⟨by simpa using hlineage, by simpa using habout, ?_⟩
    exact (Option.filter_eq_some_iff.1 hdecision).1

end Abtars
