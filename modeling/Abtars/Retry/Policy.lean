import Abtars.Retry.Records

/-!
# The retry policy

`evaluatePolicy` turns the class of a failure and what its lineage has used so far
into a decision: retry, ask for a review, ask for input, or stop.
-/

namespace Abtars

open Lib

variable {now : Millis}

namespace GlobalLimits

def maxAttempts : Nat := 5
def maxSameClassAttempts : Nat := 3
def maxConsecutiveSameExecutorFailures : Nat := 2
def maxExecutorSwitches : Nat := 3
def maxElapsedMs : Int := 60 * 60 * 1000
def maxTokens : Int := 1000000
/-- Declared with the other limits; the policy never looks at it. -/
def maxCost : Rat := 100
def backoffBaseMs : Int := 5000
def backoffMaxMs : Int := 60000

end GlobalLimits

def policyVersionText : String := "v1.0.0"

inductive Retryability
  | automatic | reviewRequired | needsInput | never
  deriving DecidableEq

structure PolicyClassification where
  primary : FailureClass
  retryability : Retryability
  factors : List FailureClass

structure RetryPolicyInput where
  sourceAttemptId : String
  classification : PolicyClassification
  budgets : RetryBudgetSnapshot
  candidateExecutorIds : List String
  previousExecutors : List String

def computeBackoff (attemptIndex : Nat) : Int :=
  min (GlobalLimits.backoffBaseMs * 2 ^ attemptIndex) GlobalLimits.backoffMaxMs

def computeBudget (attemptsUsed : Int) (sameClassUsed sameExecutorConsecutiveFailures : Nat)
    (executorSwitchesUsed : Nat) (elapsedMs tokensUsed : Int) (costUsed : Rat)
    (hardDeadlineAt : Option Millis) : RetryBudgetSnapshot where
  attemptsUsed := attemptsUsed
  attemptsRemaining := max 0 ((GlobalLimits.maxAttempts : Int) - attemptsUsed)
  sameClassUsed := sameClassUsed
  sameExecutorConsecutiveFailures := sameExecutorConsecutiveFailures
  executorSwitchesUsed := executorSwitchesUsed
  elapsedMs := elapsedMs
  tokensUsed := tokensUsed
  costUsed := costUsed
  hardDeadlineAt := hardDeadlineAt

def buildDecision (now : Millis) (input : RetryPolicyInput) (disposition : RetryDisposition)
    (reasonCode : String) (earliestAt : Option Millis) (requiredStrategyChanges : List String) :
    RetryPolicyDecision where
  sourceAttemptId := input.sourceAttemptId
  disposition := disposition
  reasonCode := reasonCode
  earliestAt := earliestAt
  remaining :=
    { input.budgets with
      attemptsRemaining :=
        if disposition = .stop then 0 else input.budgets.attemptsRemaining - 1 }
  requiredStrategyChanges := requiredStrategyChanges
  candidateExecutorIds := input.candidateExecutorIds
  inputDigest := input.sourceAttemptId
  policyVersion := policyVersionText
  createdAt := now

def budgetStop (now : Millis) (primary : FailureClass) (budgets : RetryBudgetSnapshot) :
    Option String :=
  if budgets.attemptsRemaining ≤ 0 then some "budget_exhausted:max_attempts"
  else if budgets.hardDeadlineAt.any (· ≤ now) then some "budget_exhausted:hard_deadline"
  else if GlobalLimits.maxElapsedMs ≤ budgets.elapsedMs then some "budget_exhausted:wall_clock"
  else if GlobalLimits.maxTokens ≤ budgets.tokensUsed then some "budget_exhausted:token_budget"
  else if GlobalLimits.maxSameClassAttempts ≤ budgets.sameClassUsed then
    some ("budget_exhausted:same_class_" ++ primary.text)
  else if GlobalLimits.maxExecutorSwitches ≤ budgets.executorSwitchesUsed then
    some "budget_exhausted:executor_switches"
  else none

structure ClassVerdict where
  disposition : RetryDisposition
  reasonCode : String
  earliestAt : Option Millis := none
  requiredStrategyChanges : List String := []

def classVerdict (now : Millis) (input : RetryPolicyInput) : ClassVerdict :=
  let primary := input.classification.primary
  match primary with
  | .transientTransport | .executorUnavailable =>
    { disposition := .automaticRetry
      reasonCode := primary.text ++ ":transient_failure"
      earliestAt := some (now + computeBackoff input.budgets.sameClassUsed)
      requiredStrategyChanges := ["clean_execution_context"] }
  | .capabilityMismatch =>
    if input.candidateExecutorIds ≠ [] then
      { disposition := .automaticRetry
        reasonCode := "capability_mismatch:switch_executor"
        requiredStrategyChanges := ["switch_executor"] }
    else
      { disposition := .orcReview
        reasonCode := "capability_mismatch:no_capable_executor" }
  | .leaseExpired =>
    { disposition := .automaticRetry
      reasonCode := "lease_expired:schedule_retry"
      earliestAt := some (now + computeBackoff input.budgets.sameClassUsed)
      requiredStrategyChanges := ["clean_session", "prefer_fresh_executor"] }
  | .toolOrVerificationFailure | .missingOrInvalidArtifact | .acceptanceUnmet
  | .strategyFailure =>
    { disposition := .orcReview
      reasonCode := primary.text ++ ":semantic_failure"
      requiredStrategyChanges := ["repair_strategy"] }
  | .hardDeadline => { disposition := .stop, reasonCode := "hard_deadline:exceeded" }
  | .resourceOrBudgetExhausted =>
    { disposition := .stop, reasonCode := "budget_exhausted:project_limit" }
  | .awaitingInputExpired =>
    { disposition := .needsInput
      reasonCode := "awaiting_input_expired:requires_fresh_input" }
  | .operatorCancelled | .policyOrSecurityDenied | .invalidContract =>
    { disposition := .stop, reasonCode := primary.text ++ ":no_retry" }
  | .inputRequested | .unknown =>
    { disposition := .orcReview, reasonCode := "unknown:needs_review" }

variable (input : RetryPolicyInput)

/-- Phase 4: has the last executor failed too often while another one is at hand? -/
def escalates : Bool :=
  match input.previousExecutors.getLast? with
  | none => false
  | some lastExecutor =>
    GlobalLimits.maxConsecutiveSameExecutorFailures ≤
        input.budgets.sameExecutorConsecutiveFailures ∧
      input.candidateExecutorIds.any (· ≠ lastExecutor)

def ClassVerdict.escalate (verdict : ClassVerdict) : ClassVerdict :=
  if escalates input then
    { verdict with
      requiredStrategyChanges := verdict.requiredStrategyChanges ++ ["executor_escalation"]
      reasonCode :=
        if verdict.disposition = .automaticRetry then verdict.reasonCode ++ ":escalate_executor"
        else verdict.reasonCode }
  else verdict

/-- `evaluatePolicy`.  Failures that need input are answered before any budget is
looked at. -/
def evaluatePolicy (now : Millis) (input : RetryPolicyInput) : RetryPolicyDecision :=
  let primary := input.classification.primary
  if input.classification.retryability = .never then
    buildDecision now input .stop (primary.text ++ ":policy_denies_retry") none []
  else if input.classification.retryability = .needsInput then
    buildDecision now input .needsInput (primary.text ++ ":requires_operator_input") none []
  else
    match budgetStop now primary input.budgets with
    | some reasonCode => buildDecision now input .stop reasonCode none []
    | none =>
      let verdict := (classVerdict now input).escalate input
      buildDecision now input verdict.disposition verdict.reasonCode verdict.earliestAt
        verdict.requiredStrategyChanges

/-! ## What the policy promises -/

theorem budgetStop_none_iff {primary : FailureClass} {budgets : RetryBudgetSnapshot} :
    budgetStop now primary budgets = none ↔
      0 < budgets.attemptsRemaining ∧ budgets.hardDeadlineAt.any (· ≤ now) = false ∧
        budgets.elapsedMs < GlobalLimits.maxElapsedMs ∧
        budgets.tokensUsed < GlobalLimits.maxTokens ∧
        budgets.sameClassUsed < GlobalLimits.maxSameClassAttempts ∧
        budgets.executorSwitchesUsed < GlobalLimits.maxExecutorSwitches := by
  unfold budgetStop
  constructor
  · intro h
    split_ifs at h with hattempts hdeadline helapsed htokens hclass hswitches
    exact ⟨by omega, by simpa using hdeadline, by omega, by omega, by omega, by omega⟩
  · rintro ⟨hattempts, hdeadline, helapsed, htokens, hclass, hswitches⟩
    simp [hdeadline, Int.not_le.2 hattempts, Int.not_le.2 helapsed, Int.not_le.2 htokens,
      Nat.not_le.2 hclass, Nat.not_le.2 hswitches]

theorem budgetStop_of_retried {input : RetryPolicyInput}
    (h : (evaluatePolicy now input).disposition = .automaticRetry ∨
      (evaluatePolicy now input).disposition = .orcReview) :
    budgetStop now input.classification.primary input.budgets = none := by
  unfold evaluatePolicy at h
  dsimp only at h
  split at h
  · simp [buildDecision] at h
  split at h
  · simp [buildDecision] at h
  · split at h
    · simp [buildDecision] at h
    · assumption

/-! ## Automatic retries and the limits -/

/-- The limits the policy does look at. -/
structure WithinLimits (now : Millis) (input : RetryPolicyInput) : Prop where
  attempts : 0 < input.budgets.attemptsRemaining
  deadline : input.budgets.hardDeadlineAt.any (· ≤ now) = false
  elapsed : input.budgets.elapsedMs < GlobalLimits.maxElapsedMs
  tokens : input.budgets.tokensUsed < GlobalLimits.maxTokens
  sameClass : input.budgets.sameClassUsed < GlobalLimits.maxSameClassAttempts
  switches : input.budgets.executorSwitchesUsed < GlobalLimits.maxExecutorSwitches
  allowed : input.classification.retryability ≠ .never
  answered : input.classification.retryability ≠ .needsInput

/-- The failure classes that are retried without a review. -/
def RetryPolicyInput.Retriable : Prop :=
  match input.classification.primary with
  | .transientTransport | .executorUnavailable | .leaseExpired => True
  | .capabilityMismatch => input.candidateExecutorIds ≠ []
  | _ => False

theorem escalate_disposition (verdict : ClassVerdict) :
    (verdict.escalate input).disposition = verdict.disposition := by
  unfold ClassVerdict.escalate
  split <;> rfl

theorem classVerdict_retries_iff {input : RetryPolicyInput} :
    (classVerdict now input).disposition = .automaticRetry ↔ input.Retriable := by
  unfold classVerdict RetryPolicyInput.Retriable
  cases input.classification.primary with
  | capabilityMismatch =>
    by_cases hcandidates : input.candidateExecutorIds = []
    · simp [hcandidates]
    · simp [hcandidates]
  | _ => simp

theorem automaticRetry_iff {input : RetryPolicyInput} :
    (evaluatePolicy now input).disposition = .automaticRetry ↔
      WithinLimits now input ∧ input.Retriable := by
  constructor
  · intro h
    have hnone := budgetStop_of_retried (.inl h)
    obtain ⟨hattempts, hdeadline, helapsed, htokens, hclass, hswitches⟩ :=
      budgetStop_none_iff.1 hnone
    unfold evaluatePolicy at h
    dsimp only at h
    split_ifs at h with hnever hneeds
    · cases h
    · cases h
    · rw [hnone] at h
      exact ⟨⟨hattempts, hdeadline, helapsed, htokens, hclass, hswitches, hnever, hneeds⟩,
        classVerdict_retries_iff.1 ((escalate_disposition input _).symm.trans h)⟩
  · rintro ⟨hlimits, hretriable⟩
    have hnone : budgetStop now input.classification.primary input.budgets = none :=
      budgetStop_none_iff.2 ⟨hlimits.attempts, hlimits.deadline, hlimits.elapsed,
        hlimits.tokens, hlimits.sameClass, hlimits.switches⟩
    simp only [evaluatePolicy, hlimits.allowed, hlimits.answered, hnone, if_false]
    exact (escalate_disposition input _).trans (classVerdict_retries_iff.2 hretriable)

/-- An automatic retry keeps to every limit unless the cost limit is the one that
is used up. -/
theorem automaticRetry_within_iff (now : Millis) (input : RetryPolicyInput) :
    ((evaluatePolicy now input).disposition = .automaticRetry →
        WithinLimits now input ∧ input.budgets.costUsed < GlobalLimits.maxCost) ↔
      (input.budgets.costUsed < GlobalLimits.maxCost ∨ ¬ WithinLimits now input ∨
        ¬ input.Retriable) := by
  rw [automaticRetry_iff]
  tauto

/-- A lineage that has spent five times the cost limit is retried. -/
theorem retried_beyond_cost :
    ¬ ∀ (now : Millis) (input : RetryPolicyInput),
      (evaluatePolicy now input).disposition = .automaticRetry →
        WithinLimits now input ∧ input.budgets.costUsed < GlobalLimits.maxCost := by
  intro h
  have hspent := (h 0 ⟨"a", ⟨.transientTransport, .automatic, []⟩,
    computeBudget 1 0 0 0 0 0 500 none, [], []⟩ (by decide)).2
  exact absurd hspent (by decide)

end Abtars
