import Abtars.Lib.Transaction
import Abtars.Board.Transition
import Abtars.Lease.Store
import Abtars.Project.Authority

/-!
# The worker supervision store: claims, deferrals and cancellations

The operations that move an attempt between its lifecycles, except for its
settlement.  A claim is admitted by a chain of guards and then performed by one
compare-and-set on the pending lifecycle.
-/

namespace Abtars

open Lib

/-! ## Queries -/

def attemptsForCard (db : Db) (cardId : Nat) : List AttemptRow :=
  db.workerAttempts.select fun a => a.cardId = cardId

/-- `getLatestAttempt`: the attempt of a card with the highest ordinal. -/
def latestAttempt (db : Db) (cardId : Nat) : Option AttemptRow :=
  ((attemptsForCard db cardId).insertionSort fun a b => b.ordinal ≤ a.ordinal).head?

def isCardLatestAttempt (db : Db) (cardId : Nat) (attemptId : String) : Bool :=
  (db.workerAttempts.get attemptId).any fun a =>
    a.cardId = cardId ∧ (attemptsForCard db cardId).all fun b => b.ordinal ≤ a.ordinal

def parentOf (board : Table KanbanCard) (cardId : Nat) : Option Nat :=
  (board.get cardId).bind (·.parentId)

def activeAttemptCountForExecutor (db : Db) (kind : ExecutorKind) (executorId : String) : Nat :=
  (db.workerAttempts.select fun a =>
    a.executorKind = kind ∧ a.executorId = executorId ∧ a.lifecycle.isActive).length

def activeReservedTokensForProject (db : Db) (projectId : Nat) : Int :=
  db.workerAttempts.sum fun a =>
    if a.lifecycle.isActive ∧ parentOf db.kanbanBoard a.cardId = some projectId then
      a.reservedTokens
    else 0

/-! ## Lifecycle transitions -/

/-- `lifecycleTransition`: a compare-and-set on the lifecycle of one attempt. -/
def lifecycleTransition (attemptId : String) (fromLifecycles : List AttemptLifecycle)
    (write : AttemptRow → AttemptRow) (hwrite : ∀ a, (write a).id = a.id) (db : Db) : Bool × Db :=
  match db.workerAttempts.get attemptId with
  | none => (false, db)
  | some attempt =>
    if attempt.lifecycle ∈ fromLifecycles then
      (true, { db with workerAttempts := db.workerAttempts.modify attemptId write hwrite })
    else (false, db)

def authorizedLifecycleTransition (attemptId : String)
    (fromLifecycles : List AttemptLifecycle) (write : AttemptRow → AttemptRow)
    (hwrite : ∀ a, (write a).id = a.id) (db : Db) : Bool × Db :=
  match db.workerAttempts.get attemptId with
  | none => (false, db)
  | some attempt =>
    if authorizeAttemptForProjectWork db attempt ≠ none then (false, db)
    else lifecycleTransition attemptId fromLifecycles write hwrite db

def AttemptRow.moveTo (lifecycle : AttemptLifecycle) (a : AttemptRow) : AttemptRow :=
  { a with lifecycle := lifecycle }

def markAttemptStartObservable (attemptId : String) (db : Db) : Bool × Db :=
  authorizedLifecycleTransition attemptId [.claimed] (AttemptRow.moveTo .starting)
    (fun _ => rfl) db

def markAttemptRunning (attemptId : String) (db : Db) : Bool × Db :=
  authorizedLifecycleTransition attemptId [.claimed, .starting] (AttemptRow.moveTo .running)
    (fun _ => rfl) db

def AttemptRow.requestCancel (reason : String) (a : AttemptRow) : AttemptRow :=
  { a with
    lifecycle := .cancelRequested
    cancelReason := some reason }

def requestCancel (attemptId reason : String) (db : Db) : Bool × Db :=
  lifecycleTransition attemptId [.claimed, .starting, .running]
    (AttemptRow.requestCancel reason) (fun _ => rfl) db

variable (now : Millis)

def AttemptRow.cancelPending (reason : String) (a : AttemptRow) : AttemptRow :=
  { a with
    lifecycle := .cancelled
    status := "cancelled"
    cancelReason := some reason
    settledAt := some now }

def cancelPendingAttempt (attemptId reason : String) (db : Db) : Bool × Db :=
  lifecycleTransition attemptId [.pending] (AttemptRow.cancelPending now reason)
    (fun _ => rfl) db

/-! ## Cancelling a project child -/

def cancelChildRequest (cardId : Nat) (reason : String) : TransitionRequest where
  cardId := cardId
  fromSet := [.queued, .running]
  toStatus := .failed
  actor := .settleFailed
  reason := sliceText reason 300
  attemptId := none
  claimGeneration := none
  outboxCallback := none
  fields := [.error (some (sliceText reason 1000)), .completedAt (some now)]
  extraPredicate := none

/-- The child attempt an operator may cancel: the latest one of a queued or
running worker card right below a live project root. -/
def cancellableChild (db : Db) (cardId : Nat) (authority : ProjectMutationAuthority) :
    Option AttemptRow :=
  match db.kanbanBoard.get cardId with
  | none => none
  | some card =>
    if card.parentId ≠ some authority.projectCardId ∨ card.type ≠ some "W" then none
    else if card.status ≠ .queued ∧ card.status ≠ .running then none
    else if authorizeActiveProjectWork db authority ≠ none then none
    else
      match latestAttempt db cardId with
      | none => none
      | some attempt =>
        if authorizeAttemptForProjectWork db attempt ≠ none then none else some attempt

def stopAttempt (reason : String) (attempt : AttemptRow) (db : Db) : Bool × Db :=
  match attempt.lifecycle with
  | .pending => cancelPendingAttempt now attempt.id reason db
  | .claimed | .starting | .running => requestCancel attempt.id reason db
  | .cancelRequested => (true, db)
  | _ => (false, db)

/-- `cancelProjectChild`; what the card transition throws rolls everything back. -/
def cancelProjectChild (rt : Runtime) (now : Millis) (cardId : Nat)
    (authority : ProjectMutationAuthority) (reason : String) : Body Db String Bool := fun db =>
  match cancellableChild db cardId authority with
  | none => .ok (false, db)
  | some attempt =>
    match stopAttempt now reason attempt db with
    | (false, db) => .ok (false, db)
    | (true, db) =>
      match kanbanTransition rt.redactSecrets now (cancelChildRequest now cardId reason) db with
      | .error message => .error message
      | .ok (.noOp _, db) => .ok (false, db)
      | .ok (_, db) => .ok (true, db)

/-! ## Claims -/

structure ExecutionClaim where
  attemptId : String
  cardId : Nat
  contractId : String
  executorKind : ExecutorKind
  executorId : String
  generation : Int
  claimedAt : Millis
  hardDeadlineAt : Option Millis

structure ClaimRequest where
  cardId : Nat
  attemptId : String
  contractId : String
  executorKind : ExecutorKind
  executorId : String
  generation : Int
  executorMax : Nat
  hardDeadlineAt : Option Millis
  reservedTokens : Int
  projectId : Nat
  sourceAttemptId : Option String

inductive ClaimOutcome
  | claimed (claim : ExecutionClaim)
  | refused (kind reason : String)

def ClaimRequest.claim (req : ClaimRequest) (now : Millis) : ExecutionClaim where
  attemptId := req.attemptId
  cardId := req.cardId
  contractId := req.contractId
  executorKind := req.executorKind
  executorId := req.executorId
  generation := req.generation
  claimedAt := now
  hardDeadlineAt := req.hardDeadlineAt

/-- The row a claim leaves behind; `reservedTokens` is written by the guarded
claim only. -/
def AttemptRow.claim (generation : Int) (hardDeadlineAt : Option Millis) (reservedTokens : Int)
    (a : AttemptRow) : AttemptRow :=
  { a with
    lifecycle := .claimed
    claimedAt := some now
    generation := generation
    hardDeadlineAt := hardDeadlineAt
    reservedTokens := reservedTokens }

def budgetRefusal (db : Db) (req : ClaimRequest) (project : KanbanCard) :
    Option (String × String) :=
  match project.maxTokens with
  | none => none
  | some cap =>
    let committed := project.tokensUsed.getD 0
    let active := activeReservedTokensForProject db req.projectId
    if req.reservedTokens ≤ 0 then
      some ("budget_reservation_missing",
        "capped project requires a positive worker token reservation")
    else if cap ≤ committed then
      some ("budget_exhausted",
        "committed " ++ toString committed ++ " >= cap " ++ toString cap)
    else if cap < committed + active + req.reservedTokens then
      some ("budget_wait", "committed " ++ toString committed ++ " + active " ++
        toString active ++ " + candidate " ++ toString req.reservedTokens ++ " > cap " ++
        toString cap)
    else none

def activeReservation (db : Db) (sourceAttemptId targetAttemptId : String) :
    Option ReservationRow :=
  (db.retryBudgetReservations.get sourceAttemptId).filter fun r =>
    r.targetAttemptId = targetAttemptId ∧ r.status = .active

/-- The project half of the claim guards: the card is queued below a running,
dispatchable project. -/
def projectRefusal (db : Db) (req : ClaimRequest) : Except (String × String) KanbanCard :=
  match db.kanbanBoard.get req.cardId with
  | none => .error ("card_not_queued", "card status is undefined")
  | some card =>
    if card.status ≠ .queued then
      .error ("card_not_queued", "card status is " ++ card.status.text)
    else if card.parentId ≠ some req.projectId then
      .error ("project_mismatch", "card parent is not expected project")
    else
      match db.kanbanBoard.get req.projectId with
      | none => .error ("project_not_running", "project status is undefined")
      | some project =>
        if project.status ≠ .running then
          .error ("project_not_running", "project status is " ++ project.status.text)
        else
          match db.projectSupervision.get req.projectId with
          | none => .ok project
          | some supervision =>
            if supervision.state = .executing ∨ supervision.state = .repairing then
              .ok project
            else
              .error ("project_supervision_not_dispatchable",
                "project supervision state is " ++ supervision.state.text)

/-- The attempt half of the claim guards: pending, latest, authorized, and with
the executor identity it was created with. -/
def attemptRefusal (db : Db) (req : ClaimRequest) : Except (String × String) AttemptRow :=
  match db.workerAttempts.get req.attemptId with
  | none => .error ("stale", "attempt not found")
  | some attempt =>
    if attempt.cardId ≠ req.cardId then .error ("stale", "attempt not found")
    else if attempt.lifecycle ≠ .pending then
      .error ("stale", "attempt lifecycle is " ++ attempt.lifecycle.text)
    else if isCardLatestAttempt db req.cardId req.attemptId = false then
      .error ("stale", "not latest attempt")
    else
      match authorizeAttemptForProjectWork db attempt with
      | some rejection => .error ("stale", rejection.text)
      | none =>
        if attempt.executorKind ≠ req.executorKind ∨ attempt.executorId ≠ req.executorId then
          .error ("executor_mismatch", "attempt is " ++ attempt.executorKind.text ++ "/" ++
            attempt.executorId ++ ", requested " ++ req.executorKind.text ++ "/" ++
            req.executorId)
        else .ok attempt

/-- All guards of a claim, in order: the refusal, or `none` when it is admitted. -/
def claimRefusal (db : Db) (req : ClaimRequest) : Option (String × String) :=
  match attemptRefusal db req with
  | .error refusal => some refusal
  | .ok _ =>
    match projectRefusal db req with
    | .error refusal => some refusal
    | .ok project =>
      let active := activeAttemptCountForExecutor db req.executorKind req.executorId
      if req.executorMax ≤ active then
        some ("capacity_full",
          "active " ++ toString active ++ " >= max " ++ toString req.executorMax)
      else if req.hardDeadlineAt.any (· ≤ now) then
        some ("deadline_expired", "hard deadline already passed")
      else
        match budgetRefusal db req project with
        | some refusal => some refusal
        | none =>
          match nonEmpty req.sourceAttemptId with
          | none => none
          | some source =>
            if (activeReservation db source req.attemptId).isSome then none
            else some ("retry_reservation_missing", "retry reservation not active")

def claimReservation (sourceAttemptId targetAttemptId : String)
    (reservations : Table ReservationRow) : Table ReservationRow :=
  reservations.updateWhere
    (fun r => r.sourceAttemptId = sourceAttemptId ∧ r.targetAttemptId = targetAttemptId ∧
      r.status = .active)
    fun r => { r with status := .claimed, updatedAt := now }

def claimWrites (req : ClaimRequest) (db : Db) : Db :=
  { db with
    workerAttempts := db.workerAttempts.modify req.attemptId
      (AttemptRow.claim now req.generation req.hardDeadlineAt req.reservedTokens)
    retryBudgetReservations :=
      match nonEmpty req.sourceAttemptId with
      | none => db.retryBudgetReservations
      | some source => claimReservation now source req.attemptId db.retryBudgetReservations }

def claimAttemptWithinLimits (req : ClaimRequest) (db : Db) : ClaimOutcome × Db :=
  match claimRefusal now db req with
  | some (kind, reason) => (.refused kind reason, db)
  | none => (.claimed (req.claim now), claimWrites now req db)

section ClaimSpec

variable {now : Millis} {db : Db} {req : ClaimRequest}

theorem attemptRefusal_ok {attempt : AttemptRow} (h : attemptRefusal db req = .ok attempt) :
    db.workerAttempts.get req.attemptId = some attempt ∧ attempt.cardId = req.cardId ∧
      attempt.lifecycle = .pending := by
  unfold attemptRefusal at h
  split at h
  · cases h
  rename_i a hget
  split at h
  · cases h
  rename_i hcard
  split at h
  · cases h
  rename_i hpending
  split at h
  · cases h
  split at h
  · cases h
  split at h
  · cases h
  cases h
  exact ⟨hget, not_not.1 hcard, not_not.1 hpending⟩

theorem projectRefusal_ok {project : KanbanCard} (h : projectRefusal db req = .ok project) :
    parentOf db.kanbanBoard req.cardId = some req.projectId ∧
      db.kanbanBoard.get req.projectId = some project := by
  unfold projectRefusal at h
  split at h
  · cases h
  rename_i card hcard
  split at h
  · cases h
  split at h
  · cases h
  rename_i hparent
  split at h
  · cases h
  rename_i p hproject
  split at h
  · cases h
  have hplaced : parentOf db.kanbanBoard req.cardId = some req.projectId := by
    rw [parentOf, hcard]
    exact not_not.1 hparent
  split at h
  · cases h
    exact ⟨hplaced, hproject⟩
  split at h
  · cases h
    exact ⟨hplaced, hproject⟩
  · cases h

theorem claimRefusal_none (h : claimRefusal now db req = none) :
    ∃ attempt project, attemptRefusal db req = .ok attempt ∧
      projectRefusal db req = .ok project ∧ budgetRefusal db req project = none := by
  unfold claimRefusal at h
  split at h
  · cases h
  rename_i attempt hattempt
  split at h
  · cases h
  rename_i project hproject
  dsimp only at h
  split at h
  · cases h
  split at h
  · cases h
  split at h
  · cases h
  rename_i hbudget
  exact ⟨attempt, project, hattempt, hproject, hbudget⟩

theorem get_claimWrites (id : String) :
    (claimWrites now req db).workerAttempts.get id =
      if id = req.attemptId then
        (db.workerAttempts.get id).map
          (AttemptRow.claim now req.generation req.hardDeadlineAt req.reservedTokens)
      else db.workerAttempts.get id :=
  Table.get_modify db.workerAttempts req.attemptId
    (AttemptRow.claim now req.generation req.hardDeadlineAt req.reservedTokens) (fun _ => rfl) id

end ClaimSpec

/-- `claimAttempt`: claim the latest attempt of a card, without budget guards. -/
def claimAttempt (now : Millis) (cardId : Nat) (executorKind : ExecutorKind)
    (executorId : String) (generation : Int) (hardDeadlineAt : Option Millis) (db : Db) :
    Bool × Db :=
  match latestAttempt db cardId with
  | none => (false, db)
  | some latest =>
    if latest.lifecycle ≠ .pending then (false, db)
    else if latest.executorKind ≠ executorKind ∨ latest.executorId ≠ executorId then (false, db)
    else if authorizeAttemptForProjectWork db latest ≠ none then (false, db)
    else
      lifecycleTransition latest.id [.pending]
        (fun a => a.claim now generation hardDeadlineAt a.reservedTokens) (fun _ => rfl) db

/-- The pending retry a claim may take: the latest attempt of the card, with the
contract, executor and source the claim names. -/
def claimableRetry (db : Db) (cardId : Nat) (attemptId contractId : String)
    (executorKind : ExecutorKind) (executorId sourceAttemptId : String) : Option AttemptRow :=
  match db.workerAttempts.get attemptId with
  | none => none
  | some attempt =>
    if attempt.cardId = cardId ∧ (latestAttempt db cardId).map (·.id) = some attemptId ∧
        attempt.lifecycle = .pending ∧ attempt.contractId = contractId ∧
        attempt.executorKind = executorKind ∧ attempt.executorId = executorId ∧
        attempt.sourceAttemptId = some sourceAttemptId ∧
        authorizeAttemptForProjectWork db attempt = none then some attempt
    else none

/-- `claimRetryAttempt`; without an active reservation the claim is rolled back. -/
def claimRetryAttempt (now : Millis) (cardId : Nat) (attemptId contractId : String)
    (executorKind : ExecutorKind) (executorId : String) (generation : Int)
    (sourceAttemptId : String) (hardDeadlineAt : Option Millis) (db : Db) : Bool × Db :=
  match claimableRetry db cardId attemptId contractId executorKind executorId
      sourceAttemptId with
  | none => (false, db)
  | some _ =>
    if (activeReservation db sourceAttemptId attemptId).isSome then
      (true,
        { db with
          workerAttempts := db.workerAttempts.modify attemptId fun a =>
            a.claim now generation hardDeadlineAt a.reservedTokens
          retryBudgetReservations :=
            claimReservation now sourceAttemptId attemptId db.retryBudgetReservations })
    else (false, db)

/-! ## Proven-no-start deferral -/

inductive DeferReason
  | capacity | resourceBusy

def DeferReason.text : DeferReason → String
  | .capacity => "capacity"
  | .resourceBusy => "resource_busy"

inductive DeferOutcome
  | deferred | stale

def AttemptRow.defer (a : AttemptRow) : AttemptRow :=
  { a with
    lifecycle := .pending
    status := "pending"
    claimedAt := none
    hardDeadlineAt := none
    reservedTokens := 0
    earliestClaimAt := none }

/-- The attempt a deferral may return: the latest of its card, at the expected
generation, starting and authorized. -/
def deferrableAttempt (db : Db) (attemptId : String) (expectedGeneration : Int) :
    Option AttemptRow :=
  match db.workerAttempts.get attemptId with
  | none => none
  | some attempt =>
    if (latestAttempt db attempt.cardId).map (·.id) ≠ some attemptId then none
    else if attempt.generation ≠ expectedGeneration then none
    else if attempt.lifecycle ≠ .starting then none
    else if authorizeAttemptForProjectWork db attempt ≠ none then none
    else some attempt

def reactivateReservation (now : Millis) (attempt : AttemptRow)
    (reservations : Table ReservationRow) : Table ReservationRow :=
  match nonEmpty attempt.sourceAttemptId with
  | none => reservations
  | some source =>
    reservations.updateWhere
      (fun r => r.sourceAttemptId = source ∧ r.targetAttemptId = attempt.id ∧
        r.status = .claimed)
      fun r => { r with status := .active, updatedAt := now }

def deferClaimAfterProvenNoStart (now : Millis) (attemptId : String) (expectedGeneration : Int)
    (reason : DeferReason) (db : Db) : DeferOutcome × Db :=
  match deferrableAttempt db attemptId expectedGeneration with
  | none => (.stale, db)
  | some attempt =>
    let returned :=
      { db with workerAttempts := db.workerAttempts.modify attemptId AttemptRow.defer }
    let closed := (closeLease now attemptId attempt.generation
      ("deferred:" ++ reason.text) returned).2
    (.deferred,
      { closed with
        retryBudgetReservations :=
          reactivateReservation now attempt closed.retryBudgetReservations })

end Abtars
