import Abtars.Retry.Store

/-!
# Atomicity of retry allocation

An allocation is atomic when every outcome but `created` leaves the tables it
writes as they were, and `created` comes with all six of its rows.  The body
refuses by returning, so a transaction around it commits whatever was written
before a refusal: the one refusal after the first write is a lost requeue of the
card.  Allocation is therefore atomic exactly when an admitted request that
fits its tables finds its card failed or done.
-/

namespace Abtars

open Lib

/-! ## The property -/

structure SameAllocationTables (db db' : Db) : Prop where
  contracts : db'.workerContracts = db.workerContracts
  attempts : db'.workerAttempts = db.workerAttempts
  directives : db'.retryDirectives = db.retryDirectives
  reservations : db'.retryBudgetReservations = db.retryBudgetReservations
  decisions : db'.retryPolicyDecisions = db.retryPolicyDecisions
  board : db'.kanbanBoard = db.kanbanBoard

structure AllocatedTogether (req : AllocationRequest) (db : Db) : Prop where
  contract : ∃ row, db.workerContracts.get req.revisedContract.id = some row ∧
    row.cardId = req.cardId ∧ row.sourceAttemptId = some req.sourceAttemptId ∧
    row.contractJson = some req.revisedContract
  attempt : ∃ row, db.workerAttempts.get req.targetAttemptId = some row ∧
    row.lifecycle = .pending ∧ row.cardId = req.cardId ∧
    row.contractId = req.revisedContract.id ∧ row.sourceAttemptId = some req.sourceAttemptId
  directive : ∃ row, db.retryDirectives.get req.directive.id = some row ∧
    row.sourceAttemptId = req.sourceAttemptId ∧
    row.targetAttemptId = some req.targetAttemptId ∧ row.directive = req.directive
  reservation : ∃ row, db.retryBudgetReservations.get req.sourceAttemptId = some row ∧
    row.targetAttemptId = req.targetAttemptId ∧ row.status = .active
  decision : ∃ row, db.retryPolicyDecisions.get req.sourceAttemptId = some row ∧
    row.status = .scheduled
  card : ∃ row, db.kanbanBoard.get req.cardId = some row ∧ row.status = .queued

def AllocationAtomic (rt : Runtime) (now : Millis) (req : AllocationRequest) (db : Db) : Prop :=
  let result := acceptDirectiveAndAllocateTarget rt now req db
  (result.1 ≠ .created → SameAllocationTables db result.2) ∧
    (result.1 = .created → AllocatedTogether req result.2)

/-! ## The condition -/

structure AllocationFits (now : Millis) (req : AllocationRequest) (source : AttemptRow)
    (db : Db) : Prop where
  contract : db.workerContracts.Fits (req.contractRow now).clashes (req.contractRow now)
  attempt : db.workerAttempts.Fits (req.attemptRow source).clashes (req.attemptRow source)
  directive : db.retryDirectives.Fits req.directiveRow.clashes req.directiveRow
  reservation : db.retryBudgetReservations.Fits (req.reservationRow now).clashes
    (req.reservationRow now)

def CardRequeueable (db : Db) (cardId : Nat) : Prop :=
  ∃ card, db.kanbanBoard.get cardId = some card ∧
    (card.status = .failed ∨ card.status = .done)

/-- A request the guards admit and the tables can hold finds its card re-queueable. -/
def AdmittedRequeueable (now : Millis) (req : AllocationRequest) (db : Db) : Prop :=
  ∀ source decision, admitAllocation db req = .ok (source, decision) →
    AllocationFits now req source db → CardRequeueable db req.cardId

section Writes

variable {now : Millis} {req : AllocationRequest} {source : AttemptRow} {decision : DecisionRow}
  {db db' : Db}

theorem exists_insertAllocation_iff :
    (∃ inserted, insertAllocation now req source decision db = some inserted) ↔
      AllocationFits now req source db := by
  constructor
  · rintro ⟨inserted, h⟩
    obtain ⟨_, _, _, _, hcontracts, hattempts, hdirectives, hreservations, -⟩ :=
      insertAllocation_eq_some h
    exact ⟨Table.exists_insert_iff.1 ⟨_, hcontracts⟩, Table.exists_insert_iff.1 ⟨_, hattempts⟩,
      Table.exists_insert_iff.1 ⟨_, hdirectives⟩, Table.exists_insert_iff.1 ⟨_, hreservations⟩⟩
  intro hfits
  obtain ⟨contracts, hcontracts⟩ := Table.exists_insert_iff.2 hfits.contract
  obtain ⟨attempts, hattempts⟩ := Table.exists_insert_iff.2 hfits.attempt
  obtain ⟨directives, hdirectives⟩ := Table.exists_insert_iff.2 hfits.directive
  obtain ⟨reservations, hreservations⟩ := Table.exists_insert_iff.2 hfits.reservation
  rw [← Option.isSome_iff_exists]
  simp only [insertAllocation, hcontracts, hattempts, hdirectives, hreservations]
  rfl

theorem insertAllocation_board (h : insertAllocation now req source decision db = some db') :
    db'.kanbanBoard = db.kanbanBoard := by
  obtain ⟨_, _, _, _, -, -, -, -, rfl⟩ := insertAllocation_eq_some h
  rfl

theorem requeue_of_requeueable (redactSecrets : String → String) (now : Millis) {cardId : Nat}
    (h : CardRequeueable db cardId) :
    ∃ card, db.kanbanBoard.get cardId = some card ∧
      kanbanTransition redactSecrets now (requeueRequest cardId) db =
        .ok (.applied card.status,
          applyTransition redactSecrets now (requeueRequest cardId) card db) := by
  obtain ⟨card, hcard, hstatus⟩ := h
  refine ⟨card, hcard, ?_⟩
  have hdecl : declarationError (requeueRequest cardId) = none := rfl
  have hget : db.kanbanBoard.get (requeueRequest cardId).cardId = some card := hcard
  rw [kanbanTransition, hdecl]
  simp only [transitionInTransaction, hget, Except.ok.injEq]
  rcases hstatus with hstatus | hstatus <;>
    simp [requeueRequest, hstatus, extraHolds]

theorem requeue_of_not_requeueable (redactSecrets : String → String) (now : Millis) {cardId : Nat}
    (h : ¬ CardRequeueable db cardId) :
    ∃ observed, kanbanTransition redactSecrets now (requeueRequest cardId) db =
      .ok (.noOp observed, db) := by
  have hdecl : declarationError (requeueRequest cardId) = none := rfl
  rw [kanbanTransition, hdecl]
  cases hcard : db.kanbanBoard.get cardId with
  | none =>
    have hget : db.kanbanBoard.get (requeueRequest cardId).cardId = none := hcard
    exact ⟨none, by simp only [transitionInTransaction, hget]⟩
  | some card =>
    have hget : db.kanbanBoard.get (requeueRequest cardId).cardId = some card := hcard
    have hstatus : card.status ≠ .failed ∧ card.status ≠ .done := by
      constructor <;> intro heq
      · exact h ⟨card, hcard, .inl heq⟩
      · exact h ⟨card, hcard, .inr heq⟩
    refine ⟨some card.status, ?_⟩
    simp only [transitionInTransaction, hget]
    simp [requeueRequest, hstatus]

theorem get_scheduleDecision {decisions : Table DecisionRow}
    (h : decisions.get decision.sourceAttemptId = some decision) :
    (scheduleDecision now decision decisions).get decision.sourceAttemptId =
      some { decision with status := .scheduled, updatedAt := now } := by
  rw [scheduleDecision, Table.get_updateWhere, h]
  simp

theorem allocatedTogether_of_insert (hadmits : admitAllocation db req = .ok (source, decision))
    {inserted : Db} (hinsert : insertAllocation now req source decision db = some inserted)
    {redactSecrets : String → String} {card : KanbanCard}
    (hcard : inserted.kanbanBoard.get req.cardId = some card) :
    AllocatedTogether req
      (applyTransition redactSecrets now (requeueRequest req.cardId) card inserted) := by
  obtain ⟨hlineage, habout, hdecision⟩ := admitAllocation_ok hadmits
  obtain ⟨contracts, attempts, directives, reservations, hcontracts, hattempts, hdirectives,
    hreservations, rfl⟩ := insertAllocation_eq_some hinsert
  simp only [lineageMatches, Bool.decide_and, Bool.and_eq_true, decide_eq_true_eq] at hlineage
  obtain ⟨-, hattemptCard, hattemptId, hattemptContract, hattemptSource⟩ := hlineage
  simp only [requestAboutSource, Bool.decide_and, Bool.and_eq_true, decide_eq_true_eq] at habout
  obtain ⟨-, hdirectiveSource, -⟩ := habout
  constructor
  · exact ⟨req.contractRow now, Table.get_insert_new hcontracts, rfl, rfl, rfl⟩
  · refine ⟨req.attemptRow source, ?_, rfl, hattemptCard, hattemptContract,
      congrArg some hattemptSource⟩
    exact (Table.get_of_insert hattempts _).trans (if_pos hattemptId.symm)
  · exact ⟨req.directiveRow, Table.get_insert_new hdirectives, hdirectiveSource, rfl, rfl⟩
  · exact ⟨req.reservationRow now, Table.get_insert_new hreservations, rfl, rfl⟩
  · have hkey : decision.sourceAttemptId = req.sourceAttemptId := Table.key_of_get hdecision
    rw [← hkey] at hdecision ⊢
    exact ⟨_, get_scheduleDecision hdecision, rfl⟩
  · refine ⟨writeCard now (requeueRequest req.cardId) card, ?_, writeCard_status card⟩
    exact (get_updateCard_same now (requeueRequest req.cardId) _).trans
      (congrArg _ hcard)

theorem admitAllocation_error {outcome : AcceptRetryOutcome}
    (h : admitAllocation db req = .error outcome) : outcome ≠ .created := by
  rintro rfl
  unfold admitAllocation at h
  split at h
  · cases h
  split at h
  · cases h
  split at h
  · cases h
  split at h
  · cases h
  split at h
  · rename_i hexisting
    cases h
    unfold existingAllocation at hexisting
    split at hexisting
    · split at hexisting <;> cases hexisting
    split at hexisting
    · cases hexisting
    · obtain ⟨_, -, hr⟩ := Option.map_eq_some_iff.1 hexisting
      cases hr
  split at h
  · cases h
  split at h
  · cases h
  split at h <;> cases h

end Writes

section Spec

variable {rt : Runtime} {now : Millis} {req : AllocationRequest} {db : Db}
  {source : AttemptRow} {decision : DecisionRow}

theorem accept_of_refused {outcome : AcceptRetryOutcome}
    (hadmits : admitAllocation db req = .error outcome) :
    acceptDirectiveAndAllocateTarget rt now req db = (outcome, db) := by
  refine transactionCatching_of_ok ?_
  simp [allocateBody, hadmits]

theorem accept_of_unfit (hadmits : admitAllocation db req = .ok (source, decision))
    (hfits : ¬ AllocationFits now req source db) :
    acceptDirectiveAndAllocateTarget rt now req db = (.staleSource, db) := by
  have hnone : insertAllocation now req source decision db = none := by
    by_contra hsome
    exact hfits (exists_insertAllocation_iff.1 (Option.ne_none_iff_exists'.1 hsome))
  refine transactionCatching_of_error (e := "UNIQUE constraint failed") ?_
  simp [allocateBody, hadmits, hnone]

/-- An admitted request that fits creates the whole successor, or commits the
inserts without the requeue. -/
theorem accept_of_fits (rt : Runtime) (hadmits : admitAllocation db req = .ok (source, decision))
    (hfits : AllocationFits now req source db) :
    ∃ inserted, insertAllocation now req source decision db = some inserted ∧
      (CardRequeueable db req.cardId →
        (acceptDirectiveAndAllocateTarget rt now req db).1 = .created ∧
          AllocatedTogether req (acceptDirectiveAndAllocateTarget rt now req db).2) ∧
      (¬ CardRequeueable db req.cardId →
        acceptDirectiveAndAllocateTarget rt now req db = (.staleSource, inserted)) := by
  obtain ⟨inserted, hinsert⟩ := exists_insertAllocation_iff.2 hfits
  have hboard : CardRequeueable inserted req.cardId ↔ CardRequeueable db req.cardId := by
    rw [CardRequeueable, CardRequeueable, insertAllocation_board hinsert]
  refine ⟨inserted, hinsert, ?_, ?_⟩
  · intro hcard
    obtain ⟨card, hget, hrequeue⟩ := requeue_of_requeueable rt.redactSecrets now (hboard.2 hcard)
    have hrun : acceptDirectiveAndAllocateTarget rt now req db = (.created,
        applyTransition rt.redactSecrets now (requeueRequest req.cardId) card inserted) := by
      refine transactionCatching_of_ok ?_
      simp [allocateBody, hadmits, hinsert, hrequeue]
    rw [hrun]
    exact ⟨rfl, allocatedTogether_of_insert hadmits hinsert hget⟩
  · intro hcard
    obtain ⟨observed, hrequeue⟩ := requeue_of_not_requeueable rt.redactSecrets now
      (mt hboard.1 hcard)
    refine transactionCatching_of_ok ?_
    simp [allocateBody, hadmits, hinsert, hrequeue]

theorem allocatedTogether_of_created
    (hcreated : (acceptDirectiveAndAllocateTarget rt now req db).1 = .created) :
    AllocatedTogether req (acceptDirectiveAndAllocateTarget rt now req db).2 := by
  cases hadmits : admitAllocation db req with
  | error outcome =>
    rw [accept_of_refused hadmits] at hcreated
    exact absurd hcreated (admitAllocation_error hadmits)
  | ok admitted =>
    obtain ⟨source, decision⟩ := admitted
    by_cases hfits : AllocationFits now req source db
    · obtain ⟨_, -, hwon, hlost⟩ := accept_of_fits rt hadmits hfits
      by_cases hcard : CardRequeueable db req.cardId
      · exact (hwon hcard).2
      · rw [hlost hcard] at hcreated
        cases hcreated
    · rw [accept_of_unfit hadmits hfits] at hcreated
      cases hcreated

end Spec

/-! ## Atomicity -/

/-- Allocation is atomic exactly when an admitted request that fits its tables
finds its card failed or done. -/
theorem allocationAtomic_iff_requeueable (rt : Runtime) (now : Millis)
    (req : AllocationRequest) (db : Db) :
    AllocationAtomic rt now req db ↔ AdmittedRequeueable now req db := by
  have hsame : SameAllocationTables db db := ⟨rfl, rfl, rfl, rfl, rfl, rfl⟩
  constructor
  · intro hatomic source decision hadmits hfits
    by_contra hcard
    obtain ⟨inserted, hinsert, -, hlost⟩ := accept_of_fits rt hadmits hfits
    obtain ⟨_, attempts, _, _, -, hattempts, -, -, rfl⟩ := insertAllocation_eq_some hinsert
    have hkept := hatomic.1 (by rw [hlost hcard]; simp)
    rw [hlost hcard] at hkept
    exact Table.insert_ne_self hattempts hkept.attempts
  · intro hrequeueable
    cases hadmits : admitAllocation db req with
    | error outcome =>
      rw [AllocationAtomic, accept_of_refused hadmits]
      exact ⟨fun _ => hsame, fun hcreated => absurd hcreated (admitAllocation_error hadmits)⟩
    | ok admitted =>
      obtain ⟨source, decision⟩ := admitted
      by_cases hfits : AllocationFits now req source db
      · obtain ⟨_, -, hwon, -⟩ := accept_of_fits rt hadmits hfits
        obtain ⟨hcreated, htogether⟩ := hwon (hrequeueable source decision hadmits hfits)
        exact ⟨fun hfailed => absurd hcreated hfailed, fun _ => htogether⟩
      · rw [AllocationAtomic, accept_of_unfit hadmits hfits]
        exact ⟨fun _ => hsame, fun hcreated => by cases hcreated⟩

/-! ## A retry of a card that is not re-queueable -/

/-- Revision `revision` of the contract of card 1. -/
def sampleContract (revision : Int) (id : String) (parent source : Option String) :
    WorkerAcceptanceContract where
  id := id
  digest := id
  revisionMeta := some
    { revision := revision
      rootContractId := "c1"
      parentContractId := parent
      sourceAttemptId := source
      retryContext := none }
  goal := "goal"
  criteria := [{ id := "k1", description := "criterion" }]
  expectedArtifacts := []
  verificationCommands := []
  requiredCapabilities := []
  supportsRootCriteria := none
  workspaceAlias := none
  limits := { maxDurationMs := none, maxTokens := none, maxCost := none }
  provenance := { rootCardId := 1, cardId := 1, authoredBy := "orc", createdAt := "" }

def sampleDecision : RetryPolicyDecision where
  sourceAttemptId := "a1"
  disposition := .automaticRetry
  reasonCode := "retry"
  earliestAt := none
  remaining :=
    { attemptsUsed := 1, attemptsRemaining := 3, sameClassUsed := 1
      sameExecutorConsecutiveFailures := 1, executorSwitchesUsed := 0, elapsedMs := 0
      tokensUsed := 0, costUsed := 0, hardDeadlineAt := none }
  requiredStrategyChanges := []
  candidateExecutorIds := []
  inputDigest := "a1"
  policyVersion := "v1.0.0"
  createdAt := 0

def sampleDirective : RetryDirective where
  id := "d1"
  rootContractId := "c1"
  sourceAttemptId := "a1"
  targetOrdinal := 2
  classificationId := "f1"
  decisionId := "a1"
  mode := .cleanRerun
  strategy := { instruction := "", doNotRepeat := [], addedInputs := [], addedChecks := [] }
  executor :=
    { selectedId := agentExecutorId, selectedKind := .agent, selectionRationale := "same" }
  priorContext :=
    { evidenceIds := [], failedCriterionIds := [], unresolvedRisks := [], boundedSummary := "" }
  semanticChangeFingerprint := "p1"
  authoredBy := .policy
  createdAt := 0

/-- The request that retries attempt `a1` of card 1 as `a2`. -/
def sampleAllocation : AllocationRequest where
  sourceAttemptId := "a1"
  cardId := 1
  decision := sampleDecision
  directive := sampleDirective
  revisedContract := sampleContract 2 "c2" (some "c1") (some "a1")
  targetAttemptId := "a2"
  budgetReservation := { tokens := 0, cost := 0, switches := 0 }
  attemptInsert :=
    { id := "a2", cardId := 1, contractId := "c2", ordinal := 2, executorKind := .agent
      executorId := agentExecutorId, status := "pending", startedAt := 0
      sourceAttemptId := "a1", earliestClaimAt := 0 }
  authority := none

/-- A card in the given status whose only attempt `a1` timed out and awaits review. -/
def timedOutAttemptDb (status : CardStatus) : Db :=
  { Db.empty with
    kanbanBoard := Table.ofRows [newCard 1 "user" (some "W") none status 0]
    workerContracts := Table.ofRows
      [{ id := "c1", cardId := 1, revision := 1, rootContractId := "c1"
         parentContractId := none, sourceAttemptId := none
         contractJson := some (sampleContract 1 "c1" none none), contractDigest := "c1"
         createdAt := 0 }]
    workerAttempts := Table.ofRows
      [{ pendingAttempt "a1" 1 "c1" 1 .agent agentExecutorId 0 with
         lifecycle := .timedOut, status := "timed_out", settledAt := some 0 }]
    retryPolicyDecisions := Table.ofRows
      [{ sourceAttemptId := "a1", decision := sampleDecision, status := .reviewRequired
         proposalDigest := "", reviewDeadlineAt := none, updatedAt := 0 }] }

/-- The card of a timed-out attempt is still running: the retry is answered as
stale, and its attempt stays behind. -/
theorem allocation_left_behind :
    ¬ ∀ (rt : Runtime) (now : Millis) (req : AllocationRequest) (db : Db),
      AllocationAtomic rt now req db := by
  intro hclaim
  have hatomic := hclaim Runtime.plain 10 sampleAllocation (timedOutAttemptDb .running)
  have hrefused : (acceptDirectiveAndAllocateTarget Runtime.plain 10 sampleAllocation
      (timedOutAttemptDb .running)).1 = .staleSource := by decide
  have hkept := (hatomic.1 (by rw [hrefused]; simp)).attempts
  have hleft : ((acceptDirectiveAndAllocateTarget Runtime.plain 10 sampleAllocation
      (timedOutAttemptDb .running)).2.workerAttempts.get "a2").isSome = true := by decide
  rw [hkept] at hleft
  exact absurd hleft (by decide)

end Abtars
