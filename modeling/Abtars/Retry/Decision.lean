import Abtars.Lib.CompareAndSet
import Abtars.Retry.Policy
import Abtars.Retry.Store

/-!
# The retry store: classifications, decisions and directives

The writes of the retry store that allocate nothing.  A decision is upserted as
long as nobody resolved it, and moves between its statuses by compare-and-set.
None of these writes looks at the attempts of the card or changes one.
-/

namespace Abtars

open Lib

inductive InsertOutcome
  | created | idempotent | conflict

def reviewDeadlineMs : Int := 30 * 60 * 1000

/-- `ALLOWED_TRANSITIONS`. -/
def DecisionStatus.allowed : DecisionStatus → List DecisionStatus
  | .reviewRequired => [.scheduled, .stopped, .needsInput]
  | .needsInput => [.reviewRequired, .stopped]
  | .scheduled => [.consumed, .stopped]
  | .stopped => []
  | .consumed => []

def isValidTransition (fromStatus toStatus : DecisionStatus) : Bool :=
  toStatus ∈ fromStatus.allowed

/-! ## Classifications and directives -/

def insertClassification (classification : FailureClassification) (db : Db) :
    InsertOutcome × Db :=
  match db.attemptFailureClassifications.get classification.attemptId with
  | some existing =>
    if existing.inputDigest = classification.inputDigest then (.idempotent, db)
    else (.conflict, db)
  | none =>
    let row : ClassificationRow :=
      { id := classification.id
        attemptId := classification.attemptId
        inputDigest := classification.inputDigest
        classification := classification
        createdAt := classification.createdAt }
    match db.attemptFailureClassifications.insert (fun old => old.id = row.id) row with
    | none => (.conflict, db)
    | some rows => (.created, { db with attemptFailureClassifications := rows })

def insertDirective (directive : RetryDirective) (targetAttemptId : Option String) (db : Db) :
    InsertOutcome × Db :=
  match directiveForSource db directive.sourceAttemptId with
  | some existing => if existing.id = directive.id then (.idempotent, db) else (.conflict, db)
  | none =>
    let row : DirectiveRow :=
      { id := directive.id
        sourceAttemptId := directive.sourceAttemptId
        targetAttemptId := targetAttemptId
        directive := directive
        directiveDigest := directive.semanticChangeFingerprint
        createdAt := directive.createdAt }
    match db.retryDirectives.insert row.clashes row with
    | none => (.conflict, db)
    | some rows => (.created, { db with retryDirectives := rows })

/-! ## Decisions -/

def decisionBarred (existing : DecisionRow) (proposalDigest : String) : Option InsertOutcome :=
  if existing.status = .consumed ∨ existing.status = .stopped then some .conflict
  else if existing.proposalDigest = "" then none
  else if existing.proposalDigest = proposalDigest then some .idempotent
  else some .conflict

variable (now : Millis)

def decisionRowOf (decision : RetryPolicyDecision) (status : DecisionStatus)
    (proposalDigest : String) : DecisionRow where
  sourceAttemptId := decision.sourceAttemptId
  decision := decision
  status := status
  proposalDigest := proposalDigest
  reviewDeadlineAt := if status = .reviewRequired then some (now + reviewDeadlineMs) else none
  updatedAt := decision.createdAt

/-- `insertDecision`: a decision nobody resolved and no proposal claimed is
overwritten, status included. -/
def insertDecision (decision : RetryPolicyDecision) (status : DecisionStatus)
    (proposalDigest : Option String) (db : Db) : InsertOutcome × Db :=
  let digest := proposalDigest.getD ""
  match (db.retryPolicyDecisions.get decision.sourceAttemptId).bind (decisionBarred · digest) with
  | some outcome => (outcome, db)
  | none =>
    (.created,
      { db with
        retryPolicyDecisions :=
          db.retryPolicyDecisions.put (decisionRowOf now decision status digest) })

def DecisionRow.moveTo (toStatus : DecisionStatus) (d : DecisionRow) : DecisionRow :=
  { d with status := toStatus, updatedAt := now }

theorem key_moveTo (toStatus : DecisionStatus) (d : DecisionRow) :
    Keyed.key (d.moveTo now toStatus) = Keyed.key d := rfl

variable (sourceAttemptId : String)

def setDecisionStatus (fromStatus toStatus : DecisionStatus) (db : Db) : Bool × Db :=
  let (landed, decisions) := db.retryPolicyDecisions.cas sourceAttemptId
    (fun d => d.status = fromStatus) (DecisionRow.moveTo now toStatus) (key_moveTo now toStatus)
  (landed, { db with retryPolicyDecisions := decisions })

def compareAndSetDecisionStatus (fromStatus toStatus : DecisionStatus) (db : Db) : Bool × Db :=
  if isValidTransition fromStatus toStatus = false then (false, db)
  else setDecisionStatus now sourceAttemptId fromStatus toStatus db

/-- `compareAndSetProjectDecisionStatus`: the attempt must be the card's, and
project authority must admit the move. -/
def compareAndSetProjectDecisionStatus (cardId : Nat) (fromStatus toStatus : DecisionStatus)
    (authority : Option ProjectMutationAuthority) (db : Db) : Bool × Db :=
  if isValidTransition fromStatus toStatus = false then (false, db)
  else
    match db.workerAttempts.get sourceAttemptId with
    | none => (false, db)
    | some attempt =>
      if attempt.cardId ≠ cardId ∨ retryAuthorized db authority cardId attempt = false then
        (false, db)
      else setDecisionStatus now sourceAttemptId fromStatus toStatus db

def reviewOverdue (d : DecisionRow) : Bool :=
  d.status = .reviewRequired ∧ d.reviewDeadlineAt.any (· < now)

/-- `expireOverdueReviews`: overdue reviews are stopped. -/
def expireOverdueReviews (db : Db) : List String × Db :=
  ((db.retryPolicyDecisions.select (reviewOverdue now)).map (·.sourceAttemptId),
    { db with
      retryPolicyDecisions := db.retryPolicyDecisions.updateWhere (reviewOverdue now)
        (DecisionRow.moveTo now .stopped) (key_moveTo now .stopped) })

/-! ## Operations -/

inductive DecisionOp
  | insertClassification (classification : FailureClassification)
  | insertDirective (directive : RetryDirective) (targetAttemptId : Option String)
  | insertDecision (now : Millis) (decision : RetryPolicyDecision) (status : DecisionStatus)
      (proposalDigest : Option String)
  | compareAndSet (now : Millis) (sourceAttemptId : String)
      (fromStatus toStatus : DecisionStatus)
  | compareAndSetProject (now : Millis) (sourceAttemptId : String) (cardId : Nat)
      (fromStatus toStatus : DecisionStatus) (authority : Option ProjectMutationAuthority)
  | expireOverdueReviews (now : Millis)

def decisionStep (db : Db) : DecisionOp → Db
  | .insertClassification classification => (insertClassification classification db).2
  | .insertDirective directive targetAttemptId => (insertDirective directive targetAttemptId db).2
  | .insertDecision now decision status proposalDigest =>
    (insertDecision now decision status proposalDigest db).2
  | .compareAndSet now sourceAttemptId fromStatus toStatus =>
    (compareAndSetDecisionStatus now sourceAttemptId fromStatus toStatus db).2
  | .compareAndSetProject now sourceAttemptId cardId fromStatus toStatus authority =>
    (compareAndSetProjectDecisionStatus now sourceAttemptId cardId fromStatus toStatus
      authority db).2
  | .expireOverdueReviews now => (expireOverdueReviews now db).2

/-- These writes stay in the retry store's own tables. -/
theorem decisionStep_frame (db : Db) (op : DecisionOp) :
    ∃ classifications directives decisions,
      decisionStep db op =
        { db with
          attemptFailureClassifications := classifications
          retryDirectives := directives
          retryPolicyDecisions := decisions } := by
  cases op with
  | insertClassification classification =>
    simp only [decisionStep, insertClassification]
    split
    · split <;> exact ⟨_, _, _, rfl⟩
    · split <;> exact ⟨_, _, _, rfl⟩
  | insertDirective directive targetAttemptId =>
    simp only [decisionStep, insertDirective]
    split
    · split <;> exact ⟨_, _, _, rfl⟩
    · split <;> exact ⟨_, _, _, rfl⟩
  | insertDecision now decision status proposalDigest =>
    simp only [decisionStep, insertDecision]
    split <;> exact ⟨_, _, _, rfl⟩
  | compareAndSet now sourceAttemptId fromStatus toStatus =>
    simp only [decisionStep, compareAndSetDecisionStatus]
    split
    · exact ⟨_, _, _, rfl⟩
    · exact ⟨_, _, _, rfl⟩
  | compareAndSetProject now sourceAttemptId cardId fromStatus toStatus authority =>
    simp only [decisionStep, compareAndSetProjectDecisionStatus]
    split
    · exact ⟨_, _, _, rfl⟩
    · split
      · exact ⟨_, _, _, rfl⟩
      · split <;> exact ⟨_, _, _, rfl⟩
  | expireOverdueReviews now => exact ⟨_, _, _, rfl⟩

end Abtars
