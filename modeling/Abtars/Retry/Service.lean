import Abtars.Retry.Directive
import Abtars.Retry.Atomicity

/-!
# The retry service: automatic retries

`acceptAutomaticRetry` reads the classification and the scheduled decision of a
failed attempt, builds a directive and a contract revision from them, draws the
id of a successor and hands all of it to the store.  What the host supplies is an
argument of the call: the clock, the drawn ids and the executors there are.
-/

namespace Abtars

open Lib

/-! ## Queries -/

variable (db : Db) (cardId : Nat)

/-- `getLatestContractForCard`: the contract of a card with the highest revision. -/
def latestContract : Option ContractRow :=
  ((db.workerContracts.select fun c => c.cardId = cardId).insertionSort fun a b =>
    b.revision ≤ a.revision).head?

def getNextRevision : Int :=
  (((db.workerContracts.select fun c => c.cardId = cardId).map (·.revision)).max?.getD 0) + 1

def nextOrdinal : Int :=
  (((attemptsForCard db cardId).map (·.ordinal)).max?.getD 0) + 1

structure LineageBudget where
  totalAttempts : Nat
  sameClassCount : Nat
  consecutiveSameExecutorFails : Nat
  executorSwitches : Nat
  elapsedMs : Int
  totalTokens : Int
  totalCost : Rat
  activeReservations : Int

def trailingFailures (terminal : List AttemptRow) : Nat :=
  match terminal.getLast? with
  | none => 0
  | some last =>
    (terminal.reverse.takeWhile fun a =>
      a.executorId = last.executorId ∧ a.lifecycle ≠ .completed).length

def executorSwitches : List AttemptRow → Nat
  | a :: b :: rest =>
    (if a.executorId ≠ b.executorId then 1 else 0) + executorSwitches (b :: rest)
  | _ => 0

def envelopeTokens (attemptId : String) : Int :=
  (((db.workerResults.get attemptId).bind (·.envelope.usage)).bind (·.totalTokens)).getD 0

def envelopeCost (attemptId : String) : Rat :=
  (((db.workerResults.get attemptId).bind (·.envelope.usage)).bind (·.cost)).getD 0

def getFullLineageBudget (forClass : Option FailureClass) : LineageBudget :=
  let lineage := (attemptsForCard db cardId).insertionSort fun a b => a.ordinal ≤ b.ordinal
  let terminal := lineage.filter (·.lifecycle.isTerminal)
  { totalAttempts := terminal.length
    sameClassCount := match forClass with
      | none => 0
      | some c => (terminal.filter fun a =>
        (getClassification db a.id).any fun cf => cf.primary = c).length
    consecutiveSameExecutorFails := trailingFailures terminal
    executorSwitches := executorSwitches lineage
    elapsedMs := match lineage.head?, terminal.getLast?.bind (·.settledAt) with
      | some first, some settled => settled - first.startedAt
      | _, _ => 0
    totalTokens := terminal.foldl (fun total a => total + envelopeTokens db a.id) 0
    totalCost := terminal.foldl (fun total a => total + envelopeCost db a.id) 0
    activeReservations := reservedAttempts db cardId }

/-! ## The executor catalog -/

structure ExecutorCandidate where
  id : String
  kind : ExecutorKind
  capabilities : List String
  healthy : Bool
  locality : Option String

structure SelectionConstraints where
  requiredCapabilities : List String
  requiredLocality : Option String := none
  excludedIds : List String := []
  enforceNoRelay : Bool := false
  sourcePeerId : Option String := none

def rejectionOf (constraints : SelectionConstraints) (c : ExecutorCandidate) : Option String :=
  let missing := constraints.requiredCapabilities.filter fun cap =>
    cap ∉ c.capabilities ∧ cap ≠ "*"
  if c.healthy = false then some "unhealthy"
  else if c.id ∈ constraints.excludedIds then some "explicitly excluded"
  else if missing ≠ [] then some ("missing capabilities: " ++ String.intercalate ", " missing)
  else if (nonEmpty constraints.requiredLocality).any fun l => c.locality ≠ some l then
    some ("wrong locality: expected " ++ constraints.requiredLocality.getD "" ++ ", got " ++
      c.locality.getD "undefined")
  else if constraints.enforceNoRelay ∧ (nonEmpty constraints.sourcePeerId).any (c.id = ·) then
    some "no-relay: would relay back to source peer"
  else if c.kind = .remote ∧ constraints.sourcePeerId = some c.id then
    some "cannot relay to source peer"
  else none

def filterCandidates (candidates : List ExecutorCandidate) (constraints : SelectionConstraints) :
    List ExecutorCandidate × List (String × String) :=
  (candidates.filter fun c => (rejectionOf constraints c).isNone,
    candidates.filterMap fun c => (rejectionOf constraints c).map fun reason => (c.id, reason))

structure ExecutorAdapterProvider where
  id : String
  kind : ExecutorKind
  capabilities : List String
  healthy : Bool
  availableCapacity : Int

/-- The eligible candidates of `getCandidates`. -/
def eligibleCandidates (providers : List ExecutorAdapterProvider)
    (constraints : SelectionConstraints) : List ExecutorCandidate :=
  let candidates := (providers.filter fun p => 0 < p.availableCapacity).map fun p =>
    { id := p.id, kind := p.kind, capabilities := p.capabilities, healthy := p.healthy
      locality := none }
  (filterCandidates candidates constraints).1

/-! ## Accepting an automatic retry -/

inductive AcceptRetryResult
  | created (targetAttemptId : String)
  | idempotent (targetAttemptId : String)
  | conflict
  | staleSource
  | budgetExhausted
  | ineligibleExecutor
  | error (message : String)
  deriving DecidableEq

structure RetryCall where
  now : Millis
  directiveId : String
  contractId : String
  attemptId : String
  providers : List ExecutorAdapterProvider

def globalMaxTokens : Int := 1000000

def isTransient (classification : FailureClassification) : Bool :=
  classification.primary = .transientTransport ∨ classification.primary = .executorUnavailable

def automaticOptions (sourceAttemptId : String) (classification : FailureClassification)
    (decision : RetryPolicyDecision) : DirectiveOptions where
  mode := if isTransient classification then .cleanRerun else .strategyChange
  instruction :=
    if isTransient classification then
      "Clean rerun of original goal. Previous attempt " ++ sourceAttemptId ++
        " failed with transient " ++ classification.primary.text ++ "."
    else
      "Retry with changed approach. Previous attempt " ++ sourceAttemptId ++ " failed with " ++
        classification.primary.text ++ ". " ++ decision.reasonCode
  doNotRepeat := some (if isTransient classification then [] else ["repeat same approach"])
  addedInputs := none
  addedChecks := none
  authoredBy := .policy
  priorEvidenceIds := none
  failedCriterionIds := some []
  unresolvedRisks := some []
  boundedSummary := some (String.intercalate "; " classification.recommendedActions)

/-- The tokens a retry reserves: as many as were spent, within the global limit. -/
def retryReservation (budget : LineageBudget) (attempt : AttemptRow)
    (intent : ExecutorKind × String) : BudgetReservation where
  tokens := min (globalMaxTokens - budget.totalTokens)
    (if 0 < budget.totalTokens then budget.totalTokens else 5000)
  cost := 0
  switches := if attempt.executorId ≠ intent.2 then 1 else 0

def automaticRequest (rt : Runtime) (call : RetryCall) (sourceAttemptId : String) (cardId : Nat)
    (classification : FailureClassification) (decision : RetryPolicyDecision)
    (contract : WorkerAcceptanceContract) (attempt : AttemptRow) (db : Db) : AllocationRequest :=
  let intent := resolveWorkerExecutorIntent contract
  let selection : SelectionRationale :=
    { selectedId := intent.2
      selectedKind := intent.1
      eligibleCount := (eligibleCandidates call.providers
        { requiredCapabilities := contract.requiredCapabilities }).length
      score := if intent.1 = .agent then 1 else 0
      selectionStrategy := .preferred }
  let directive := buildDirective rt call.directiveId call.now contract sourceAttemptId
    (nextOrdinal db cardId) classification decision selection
    (automaticOptions sourceAttemptId classification decision)
  let revised := deriveContractRevision rt call.contractId contract directive
    (getNextRevision db cardId)
  let earliestClaimAt := decision.earliestAt.getD call.now
  { sourceAttemptId := sourceAttemptId
    cardId := cardId
    decision := decision
    directive := directive
    revisedContract := revised
    targetAttemptId := call.attemptId
    budgetReservation := retryReservation (getFullLineageBudget db cardId none) attempt intent
    attemptInsert :=
      { id := call.attemptId
        cardId := cardId
        contractId := revised.id
        ordinal := nextOrdinal db cardId
        executorKind := intent.1
        executorId := intent.2
        status := "pending"
        startedAt := call.now
        sourceAttemptId := sourceAttemptId
        earliestClaimAt := earliestClaimAt }
    authority := none }

/-- The store's outcome as the service reports it: with the drawn id, whatever id
the store named. -/
def reportOutcome (targetAttemptId : String) : AcceptRetryOutcome → AcceptRetryResult
  | .created => .created targetAttemptId
  | .idempotent _ => .idempotent targetAttemptId
  | .conflict => .conflict
  | .staleSource => .staleSource
  | .budgetExhausted => .budgetExhausted

def DecisionStatus.text : DecisionStatus → String
  | .reviewRequired => "review_required"
  | .needsInput => "needs_input"
  | .scheduled => "scheduled"
  | .consumed => "consumed"
  | .stopped => "stopped"

/-- `acceptAutomaticRetry`.  A contract that cannot be read is thrown. -/
def acceptAutomaticRetry (rt : Runtime) (call : RetryCall) (sourceAttemptId : String)
    (cardId : Nat) (db : Db) : Except String (AcceptRetryResult × Db) :=
  match getClassification db sourceAttemptId with
  | none => .ok (.error ("no classification for " ++ sourceAttemptId), db)
  | some classification =>
    match db.retryPolicyDecisions.get sourceAttemptId with
    | none => .ok (.error ("no decision for " ++ sourceAttemptId), db)
    | some decided =>
      if decided.status ≠ .scheduled then
        .ok (.error ("decision " ++ sourceAttemptId ++ " not scheduled (" ++
          decided.status.text ++ ")"), db)
      else
        match latestContract db cardId with
        | none => .ok (.error ("no contract for card " ++ toString cardId), db)
        | some contractRow =>
          match contractRow.contractJson with
          | none => .error "contract_json does not parse"
          | some contract =>
            match db.workerAttempts.get sourceAttemptId with
            | none =>
              .ok (.error ("attempt " ++ sourceAttemptId ++ " not found"), db)
            | some attempt =>
              if (resolveWorkerExecutorIntent contract).1 = .agent ∧
                  eligibleCandidates call.providers
                    { requiredCapabilities := contract.requiredCapabilities } = [] then
                .ok (.ineligibleExecutor, db)
              else
                let req := automaticRequest rt call sourceAttemptId cardId
                  classification decided.decision contract attempt db
                let errors := validateDirective req.directive
                let revErrors := validateContractRevision rt contract
                  req.revisedContract
                if errors ≠ [] then
                  .ok (.error ("directive invalid: " ++
                    String.intercalate "; " errors), db)
                else if revErrors ≠ [] then
                  .ok (.error ("contract revision invalid: " ++
                    String.intercalate "; " revErrors), db)
                else
                  let (outcome, db') := acceptDirectiveAndAllocateTarget rt call.now
                    req db
                  .ok (reportOutcome call.attemptId outcome, db')

section Replay

variable {rt : Runtime} {call : RetryCall} {sourceAttemptId : String} {cardId : Nat} {db db' : Db}

/-- Once a directive was accepted for the source, no allocation for it writes. -/
theorem accept_of_directive (rt : Runtime) (now : Millis) {req : AllocationRequest} {existing : DirectiveRow}
    (hexisting : directiveForSource db req.sourceAttemptId = some existing) :
    ∃ outcome, outcome ≠ .created ∧
      acceptDirectiveAndAllocateTarget rt now req db = (outcome, db) := by
  have hrefused : ∃ outcome, admitAllocation db req = .error outcome := by
    unfold admitAllocation existingAllocation
    rw [hexisting]
    split
    · exact ⟨_, rfl⟩
    split
    · exact ⟨_, rfl⟩
    split
    · exact ⟨_, rfl⟩
    split
    · exact ⟨_, rfl⟩
    dsimp only
    split
    · exact ⟨_, rfl⟩
    · rename_i hanswer
      split at hanswer <;> cases hanswer
  obtain ⟨outcome, hrefused⟩ := hrefused
  exact ⟨outcome, admitAllocation_error hrefused, accept_of_refused hrefused⟩

/-- A call ends before the store or in the store. -/
theorem acceptAutomaticRetry_cases {result : AcceptRetryResult}
    (h : acceptAutomaticRetry rt call sourceAttemptId cardId db = .ok (result, db')) :
    (db' = db ∧ (result = .ineligibleExecutor ∨ ∃ message, result = .error message)) ∨
      ∃ req, req.sourceAttemptId = sourceAttemptId ∧ req.targetAttemptId = call.attemptId ∧
        result = reportOutcome call.attemptId
          (acceptDirectiveAndAllocateTarget rt call.now req db).1 ∧
        db' = (acceptDirectiveAndAllocateTarget rt call.now req db).2 := by
  unfold acceptAutomaticRetry at h
  split at h
  · cases h
    exact .inl ⟨rfl, .inr ⟨_, rfl⟩⟩
  split at h
  · cases h
    exact .inl ⟨rfl, .inr ⟨_, rfl⟩⟩
  split at h
  · cases h
    exact .inl ⟨rfl, .inr ⟨_, rfl⟩⟩
  split at h
  · cases h
    exact .inl ⟨rfl, .inr ⟨_, rfl⟩⟩
  split at h
  · cases h
  split at h
  · cases h
    exact .inl ⟨rfl, .inr ⟨_, rfl⟩⟩
  split at h
  · cases h
    exact .inl ⟨rfl, .inl rfl⟩
  dsimp only at h
  split at h
  · cases h
    exact .inl ⟨rfl, .inr ⟨_, rfl⟩⟩
  split at h
  · cases h
    exact .inl ⟨rfl, .inr ⟨_, rfl⟩⟩
  cases h
  exact .inr ⟨_, rfl, rfl, rfl, rfl⟩

theorem directiveForSource_of_created {t : String}
    (h : acceptAutomaticRetry rt call sourceAttemptId cardId db = .ok (.created t, db')) :
    t = call.attemptId ∧ ∃ existing, directiveForSource db' sourceAttemptId = some existing := by
  rcases acceptAutomaticRetry_cases h with ⟨-, hresult | ⟨_, hresult⟩⟩ |
    ⟨req, hsource, -, hresult, rfl⟩
  · cases hresult
  · cases hresult
  · have hcreated : (acceptDirectiveAndAllocateTarget rt call.now req db).1 = .created ∧
        t = call.attemptId := by
      cases houtcome : (acceptDirectiveAndAllocateTarget rt call.now req db).1 with
      | created =>
        rw [houtcome] at hresult
        cases hresult
        exact ⟨rfl, rfl⟩
      | idempotent _ | conflict | staleSource | budgetExhausted =>
        rw [houtcome] at hresult
        cases hresult
    obtain ⟨existing, hrow, habout, -, -⟩ := (allocatedTogether_of_created hcreated.1).directive
    refine ⟨hcreated.2, Option.isSome_iff_exists.1 ?_⟩
    rw [directiveForSource, List.find?_isSome]
    exact ⟨existing, Table.mem_of_get hrow, by simp [habout, hsource]⟩

/-- Once a directive was accepted for the source, a call that returns changes no
row, creates nothing, and names no attempt but the one it drew itself. -/
theorem acceptAutomaticRetry_replay {existing : DirectiveRow} {result : AcceptRetryResult}
    (hexisting : directiveForSource db sourceAttemptId = some existing)
    (h : acceptAutomaticRetry rt call sourceAttemptId cardId db = .ok (result, db')) :
    db' = db ∧ (∀ t, result ≠ .created t) ∧ ∀ t, result = .idempotent t → t = call.attemptId := by
  rcases acceptAutomaticRetry_cases h with ⟨rfl, hresult | ⟨_, hresult⟩⟩ |
    ⟨req, rfl, -, hresult, rfl⟩
  · subst hresult
    exact ⟨rfl, by simp, by simp⟩
  · subst hresult
    exact ⟨rfl, by simp, by simp⟩
  · obtain ⟨outcome, hne, hrun⟩ := accept_of_directive rt call.now hexisting
    rw [hrun] at hresult ⊢
    subst hresult
    refine ⟨rfl, fun t ht => ?_, fun t ht => ?_⟩
    · cases outcome <;> first | exact hne rfl | cases ht
    · cases outcome <;> cases ht
      rfl

end Replay

/-- A call repeated after a created successor changes no row, and it never
answers that the successor is the attempt the retry was allocated to: the id it
reports is the one it drew itself. -/
theorem acceptAutomaticRetry_never_idempotent (rt : Runtime) (first second : RetryCall)
    (sourceAttemptId : String) (cardId : Nat) (db db' : Db) (t : String)
    (hcreated : acceptAutomaticRetry rt first sourceAttemptId cardId db = .ok (.created t, db'))
    (hfresh : second.attemptId ≠ first.attemptId) :
    acceptAutomaticRetry rt second sourceAttemptId cardId db' ≠ .ok (.idempotent t, db') ∧
      ∀ result db'', acceptAutomaticRetry rt second sourceAttemptId cardId db' =
        .ok (result, db'') → db'' = db' := by
  obtain ⟨rfl, existing, hexisting⟩ := directiveForSource_of_created hcreated
  constructor
  · intro hidempotent
    exact hfresh ((acceptAutomaticRetry_replay hexisting hidempotent).2.2 _ rfl).symm
  · intro result db'' hresult
    exact (acceptAutomaticRetry_replay hexisting hresult).1

/-! ## A repeated retry -/

def digestlessRuntime : Runtime :=
  { Runtime.plain with sha256 := fun _ => "" }

def retryCallNamed (suffix : String) : RetryCall where
  now := 10
  directiveId := "d" ++ suffix
  contractId := "c" ++ suffix
  attemptId := "a" ++ suffix
  providers := [{ id := agentExecutorId, kind := .agent, capabilities := ["*"], healthy := true
                  availableCapacity := 1 }]

/-- The failed card whose attempt `a1` was classified and scheduled for a retry. -/
def scheduledRetryDb : Db :=
  { timedOutAttemptDb .failed with
    attemptFailureClassifications := Table.ofRows
      [{ id := "f1", attemptId := "a1", inputDigest := ""
         classification :=
           { id := "f1", attemptId := "a1", inputDigest := "", primary := .leaseExpired
             factors := [], evidenceIds := [], recommendedActions := [], createdAt := 0 }
         createdAt := 0 }]
    retryPolicyDecisions := Table.ofRows
      [{ sourceAttemptId := "a1", decision := sampleDecision, status := .scheduled
         proposalDigest := "", reviewDeadlineAt := none, updatedAt := 0 }] }

def retryAnswer (outcome : Except String (AcceptRetryResult × Db)) : Option AcceptRetryResult :=
  match outcome with
  | .ok (result, _) => some result
  | .error _ => none

theorem retryAnswer_eq_some {outcome : Except String (AcceptRetryResult × Db)}
    {result : AcceptRetryResult} (h : retryAnswer outcome = some result) :
    ∃ db', outcome = .ok (result, db') := by
  cases outcome with
  | error message => cases h
  | ok answer =>
    obtain ⟨r, db'⟩ := answer
    cases h
    exact ⟨db', rfl⟩

theorem retryAnswer_created : retryAnswer (acceptAutomaticRetry digestlessRuntime
    (retryCallNamed "2") "a1" 1 scheduledRetryDb) = some (.created "a2") := by
  decide +kernel

/-- The first call allocates `a2`; the second, which draws `a3`, does not name `a2`. -/
theorem repeated_retry_not_idempotent :
    ∃ db', acceptAutomaticRetry digestlessRuntime (retryCallNamed "2") "a1" 1 scheduledRetryDb =
        .ok (.created "a2", db') ∧
      acceptAutomaticRetry digestlessRuntime (retryCallNamed "3") "a1" 1 db' ≠
        .ok (.idempotent "a2", db') := by
  obtain ⟨db', hcreated⟩ := retryAnswer_eq_some retryAnswer_created
  exact ⟨db', hcreated, (acceptAutomaticRetry_never_idempotent digestlessRuntime
    (retryCallNamed "2") (retryCallNamed "3") "a1" 1 scheduledRetryDb db' "a2" hcreated
    (by decide)).1⟩

/-- So a repeated call is not answered with the attempt that exists. -/
theorem repeated_retry_misnames :
    ¬ ∀ (rt : Runtime) (first second : RetryCall) (sourceAttemptId : String) (cardId : Nat)
      (db db' : Db) (t : String),
      acceptAutomaticRetry rt first sourceAttemptId cardId db = .ok (.created t, db') →
      second.attemptId ≠ first.attemptId →
      acceptAutomaticRetry rt second sourceAttemptId cardId db' = .ok (.idempotent t, db') := by
  intro hclaim
  obtain ⟨db', hcreated⟩ := retryAnswer_eq_some retryAnswer_created
  obtain ⟨-, existing, hexisting⟩ := directiveForSource_of_created hcreated
  have hidempotent := hclaim digestlessRuntime (retryCallNamed "2") (retryCallNamed "3") "a1" 1
    scheduledRetryDb db' "a2" hcreated (by decide)
  have hnamed := (acceptAutomaticRetry_replay hexisting hidempotent).2.2 "a2" rfl
  exact absurd hnamed (by decide)

end Abtars
