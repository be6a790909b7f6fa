import Abtars.Worker.Contract

/-!
# Retry records

Failure classifications, policy decisions and retry directives as the retry
tables hold them.
-/

namespace Abtars

open Lib

inductive FailureClass
  | transientTransport | executorUnavailable | capabilityMismatch | leaseExpired
  | hardDeadline | resourceOrBudgetExhausted | toolOrVerificationFailure
  | missingOrInvalidArtifact | acceptanceUnmet | strategyFailure
  | awaitingInputExpired | operatorCancelled | policyOrSecurityDenied
  | invalidContract | inputRequested | unknown
  deriving DecidableEq

def FailureClass.text : FailureClass → String
  | .transientTransport => "transient_transport"
  | .executorUnavailable => "executor_unavailable"
  | .capabilityMismatch => "capability_mismatch"
  | .leaseExpired => "lease_expired"
  | .hardDeadline => "hard_deadline"
  | .resourceOrBudgetExhausted => "resource_or_budget_exhausted"
  | .toolOrVerificationFailure => "tool_or_verification_failure"
  | .missingOrInvalidArtifact => "missing_or_invalid_artifact"
  | .acceptanceUnmet => "acceptance_unmet"
  | .strategyFailure => "strategy_failure"
  | .awaitingInputExpired => "awaiting_input_expired"
  | .operatorCancelled => "operator_cancelled"
  | .policyOrSecurityDenied => "policy_or_security_denied"
  | .invalidContract => "invalid_contract"
  | .inputRequested => "input_requested"
  | .unknown => "unknown"

structure FailureClassification where
  id : String
  attemptId : String
  inputDigest : String
  primary : FailureClass
  factors : List FailureClass
  evidenceIds : List String
  recommendedActions : List String
  createdAt : Millis

/-- A row of `attempt_failure_classifications`. -/
structure ClassificationRow where
  id : String
  attemptId : String
  inputDigest : String
  classification : FailureClassification
  createdAt : Millis

instance : Keyed ClassificationRow String := ⟨ClassificationRow.attemptId⟩

inductive RetryDisposition
  | automaticRetry | orcReview | needsInput | stop
  deriving DecidableEq

structure RetryBudgetSnapshot where
  attemptsUsed : Int
  attemptsRemaining : Int
  sameClassUsed : Nat
  sameExecutorConsecutiveFailures : Nat
  executorSwitchesUsed : Nat
  elapsedMs : Int
  tokensUsed : Int
  costUsed : Rat
  hardDeadlineAt : Option Millis

structure RetryPolicyDecision where
  sourceAttemptId : String
  disposition : RetryDisposition
  reasonCode : String
  earliestAt : Option Millis
  remaining : RetryBudgetSnapshot
  requiredStrategyChanges : List String
  candidateExecutorIds : List String
  inputDigest : String
  policyVersion : String
  createdAt : Millis

inductive DecisionStatus
  | reviewRequired | needsInput | scheduled | consumed | stopped
  deriving DecidableEq

/-- A row of `retry_policy_decisions`, keyed by the attempt it decides on. -/
structure DecisionRow where
  sourceAttemptId : String
  decision : RetryPolicyDecision
  status : DecisionStatus
  proposalDigest : String
  reviewDeadlineAt : Option Millis
  updatedAt : Millis

instance : Keyed DecisionRow String := ⟨DecisionRow.sourceAttemptId⟩

inductive RetryMode
  | cleanRerun | strategyChange | executorEscalation | repair

def RetryMode.text : RetryMode → String
  | .cleanRerun => "clean_rerun"
  | .strategyChange => "strategy_change"
  | .executorEscalation => "executor_escalation"
  | .repair => "repair"

inductive DirectiveAuthor
  | policy | orc

def DirectiveAuthor.text : DirectiveAuthor → String
  | .policy => "policy"
  | .orc => "orc"

structure RetryStrategy where
  instruction : String
  doNotRepeat : List String
  addedInputs : List (String × String)
  addedChecks : List String

structure DirectiveExecutor where
  selectedId : String
  selectedKind : ExecutorKind
  selectionRationale : String

structure PriorContext where
  evidenceIds : List String
  failedCriterionIds : List String
  unresolvedRisks : List String
  boundedSummary : String

structure RetryDirective where
  id : String
  rootContractId : String
  sourceAttemptId : String
  targetOrdinal : Int
  classificationId : String
  decisionId : String
  mode : RetryMode
  strategy : RetryStrategy
  executor : DirectiveExecutor
  priorContext : PriorContext
  semanticChangeFingerprint : String
  authoredBy : DirectiveAuthor
  createdAt : Millis

/-- A row of `retry_directives`. -/
structure DirectiveRow where
  id : String
  sourceAttemptId : String
  targetAttemptId : Option String
  directive : RetryDirective
  directiveDigest : String
  createdAt : Millis

instance : Keyed DirectiveRow String := ⟨DirectiveRow.id⟩

/-- `UNIQUE(source_attempt_id)` and `UNIQUE(target_attempt_id)`. -/
def DirectiveRow.clashes (new old : DirectiveRow) : Bool :=
  old.sourceAttemptId = new.sourceAttemptId ∨
    (old.targetAttemptId.isSome ∧ old.targetAttemptId = new.targetAttemptId)

end Abtars
