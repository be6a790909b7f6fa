import Abtars.Project.CriterionCoverage
import Abtars.Project.PeerClaims

/-!
# Assembling a review case

`ReviewCaseAssembler.assembleCase`: the snapshot a reviewer decides on.  A child whose latest
attempt passed its latest contract is positive evidence for the root criteria that contract maps;
every other mapped child is negative evidence.  The snapshot stands here without its creation time
and budgets; the observation of the occurrence's final report, which reads a file, is given to it.
-/

namespace Abtars

open Lib

/-! ## The snapshot -/

inductive CriterionCoverageHint
  | supported | conflicting | gap | orcOwned | failed
  deriving DecidableEq

structure CriterionReviewInput where
  criterionId : String
  description : String
  required : Bool
  executionOwner : CriterionExecutionOwner
  evidenceExpectation : EvidenceExpectation
  mappedChildContractIds : List String
  successfulMappedChildContractIds : List String
  unsuccessfulMappedChildContractIds : List String
  observedEvidenceIds : List String
  workerClaimIds : List String
  failedOrInconclusiveCheckIds : List String
  artifactObservationIds : List String
  retryLineageIds : List String
  coverageHint : CriterionCoverageHint

structure ContradictionCandidate where
  id : String
  affectedCriterionIds : List String
  description : String
  evidenceIds : List String
  sources : List String

inductive ReportEvidenceObservation
  | notApplicable (reason : String)
  | unavailable (code : String)
  | invalid (code runId path : String)
  | captured (evidenceId runId path digest content : String)

structure ChildSummary where
  cardId : Nat
  contract : WorkerAcceptanceContract
  /-- The lifecycle of the latest attempt; `unknown` without one. -/
  outcome : Option AttemptLifecycle
  criterionStatuses : List (String × CriterionStatus)
  attempts : Nat
  executorKind : Option ExecutorKind
  cardStatus : CardStatus
  result : Option WorkerResultEnvelope

structure RootContractView where
  id : String
  digest : String
  goal : String
  criteria : List CriterionPolicyView
  requiredOutputs : List RequiredOutput
  limits : ProjectContractLimits

structure ReviewCaseSnapshot where
  projectCardId : Nat
  generation : Int
  round : Nat
  rootContract : RootContractView
  criterionInputs : List CriterionReviewInput
  contradictionCandidates : List ContradictionCandidate
  uncoveredCriteria : List String
  childSummaries : List ChildSummary
  peerContributions : List PeerClaim
  evidenceRefCount : Nat
  contradictionCount : Nat
  reportEvidence : ReportEvidenceObservation

/-! ## Children -/

def excerpt (text : String) : String :=
  if utf16Length text > 500 then sliceText text 500 ++ "..." else text

def redactEnvelope (envelope : WorkerResultEnvelope) : WorkerResultEnvelope :=
  { envelope with
    checks := envelope.checks.map fun c =>
      { c with stdoutExcerpt := excerpt c.stdoutExcerpt, stderrExcerpt := excerpt c.stderrExcerpt }
    workerReport :=
      { summary := sliceText envelope.workerReport.summary 500
        claims := envelope.workerReport.claims.take 10
        unresolvedRisks := envelope.workerReport.unresolvedRisks.take 5 } }

/-- `getAttemptsForCard`: the attempts of a card by their ordinals. -/
def getAttemptsForCard (db : Db) (cardId : Nat) : List AttemptRow :=
  (attemptsForCard db cardId).insertionSort fun a b => a.ordinal ≤ b.ordinal

def resultEnvelope (db : Db) (attempt : AttemptRow) : Option WorkerResultEnvelope :=
  (db.workerResults.get attempt.id).map (·.envelope)

def childSummary (db : Db) (child : KanbanCard) : Option ChildSummary :=
  ((latestContract db child.id).bind (·.contractJson)).map fun contract =>
    let attempts := getAttemptsForCard db child.id
    let envelope := attempts.getLast?.bind (resultEnvelope db)
    { cardId := child.id
      contract := contract
      outcome := attempts.getLast?.map (·.lifecycle)
      criterionStatuses := envelope.elim [] fun e =>
        e.criteria.map fun c => (c.criterionId, c.status)
      attempts := attempts.length
      executorKind := attempts.getLast?.map (·.executorKind)
      cardStatus := child.status
      result := envelope.map redactEnvelope }

/-- Successful evidence: card, latest attempt and envelope ended well, and the envelope passed the
exact contract. -/
def isSuccessfulChild (summary : ChildSummary) : Bool :=
  summary.cardStatus.isSettled ∧ summary.outcome = some .completed ∧
    summary.result.any (·.outcome = .completed) ∧ acceptancePassed summary.contract summary.result

/-! ## Evidence -/

def checkEvidence (attemptId checkId : String) : String :=
  "attempt:" ++ attemptId ++ ":check:" ++ checkId

def artifactEvidence (attemptId artifactId : String) : String :=
  "attempt:" ++ attemptId ++ ":artifact:" ++ artifactId

variable (e : WorkerResultEnvelope)

def observedEvidence : List String :=
  let checkIds := e.checks.map (·.checkId)
  (e.criteria.filter fun cr => cr.status = .passed).flatMap fun cr =>
    (cr.evidenceIds.filter (· ∈ checkIds)).map (checkEvidence e.attempt.id)

def artifactObservations : List String :=
  (e.artifacts.filter (·.exists_)).map fun art => artifactEvidence e.attempt.id art.artifactId

/-- What the criteria that did not pass cite, and the artifacts that are missing, each once. -/
def negativeEvidence : List String :=
  let checkIds := e.checks.map (·.checkId)
  let qualify (id : String) :=
    if id ∈ checkIds then checkEvidence e.attempt.id id else artifactEvidence e.attempt.id id
  (((e.criteria.filter fun cr => cr.status ≠ .passed ∧ cr.status ≠ .notRun).flatMap fun cr =>
      cr.evidenceIds.map qualify) ++
    (e.artifacts.filter fun art => !art.exists_).map fun art =>
      artifactEvidence e.attempt.id art.artifactId).eraseDups

def claimIds : List String :=
  e.workerReport.claims.map fun claim =>
    "claim_" ++ e.attempt.id ++ "_" ++ sliceText claim.2 20

def isPeerContract (contractId : String) : Bool :=
  "peer:".toList.isPrefixOf contractId.toList

variable (summaries : List ChildSummary) (mappedContractIds : List String)

def mappedSummaries : List ChildSummary :=
  summaries.filter fun summary =>
    summary.contract.id ∈ mappedContractIds ∧ !isPeerContract summary.contract.id

def positiveOf (evidence : WorkerResultEnvelope → List String) (summary : ChildSummary) :
    List String :=
  summary.result.elim [] fun e => if isSuccessfulChild summary then evidence e else []

def negativeOf (summary : ChildSummary) : List String :=
  summary.result.elim [] fun e => if isSuccessfulChild summary then [] else negativeEvidence e

def successfulContractIds : List String :=
  mappedContractIds.filter fun contractId =>
    !isPeerContract contractId ∧
      (summaries.filter fun s => s.contract.id = contractId).any isSuccessfulChild

def unsuccessfulContractIds : List String :=
  mappedContractIds.filter fun contractId =>
    let matched := summaries.filter fun s => s.contract.id = contractId
    !isPeerContract contractId ∧ (matched = [] ∨ !matched.all isSuccessfulChild)

def coverageHint (state : CoverageState) (successful unsuccessful : List String) :
    CriterionCoverageHint :=
  match state with
  | .orcOwned => .orcOwned
  | .gap => .gap
  | .mapped =>
    if successful ≠ [] ∧ unsuccessful ≠ [] then .conflicting
    else if successful ≠ [] then .supported
    else .failed

def criterionInput (policy : CriterionPolicyView) (cov : CriterionCoverage) :
    CriterionReviewInput :=
  let mapped := mappedSummaries summaries cov.mappedContractIds
  let successful := successfulContractIds summaries cov.mappedContractIds
  let unsuccessful := unsuccessfulContractIds summaries cov.mappedContractIds
  { criterionId := policy.id
    description := policy.description
    required := policy.required
    executionOwner := policy.executionOwner
    evidenceExpectation := policy.evidenceExpectation
    mappedChildContractIds := cov.mappedContractIds
    successfulMappedChildContractIds := successful
    unsuccessfulMappedChildContractIds := unsuccessful
    observedEvidenceIds := mapped.flatMap (positiveOf observedEvidence)
    workerClaimIds := mapped.flatMap fun summary => summary.result.elim [] claimIds
    failedOrInconclusiveCheckIds := mapped.flatMap negativeOf
    artifactObservationIds := mapped.flatMap (positiveOf artifactObservations)
    retryLineageIds := (mapped.filter fun summary => summary.attempts > 1).map fun summary =>
      s!"card_{summary.cardId}_{summary.attempts}_attempts"
    coverageHint := coverageHint cov.state successful unsuccessful }

def contradictionCandidate (round : Nat) (input : CriterionReviewInput) : ContradictionCandidate :=
  let mapped := mappedSummaries summaries input.mappedChildContractIds
  { id := s!"cc_{input.criterionId}_{round}"
    affectedCriterionIds := [input.criterionId]
    description := s!"Conflicting outcomes for criterion \"{input.criterionId}\": some mapped " ++
      "children passed, others failed"
    evidenceIds := mapped.flatMap (positiveOf observedEvidence)
    sources := mapped.map fun summary => s!"card:{summary.cardId}:{summary.contract.id}" }

def addReport (report : ReportEvidenceObservation) (input : CriterionReviewInput) :
    CriterionReviewInput :=
  match report with
  | .captured evidenceId _ _ _ _ =>
    if input.executionOwner = .orc ∧ evidenceId ∉ input.artifactObservationIds then
      { input with artifactObservationIds := input.artifactObservationIds ++ [evidenceId] }
    else input
  | _ => input

def evidenceRefs (input : CriterionReviewInput) : Nat :=
  input.observedEvidenceIds.length + input.failedOrInconclusiveCheckIds.length +
    input.artifactObservationIds.length

/-! ## The assembler -/

def assembleCase (rt : Runtime) (src : CaseSources) (report : ReportEvidenceObservation)
    (projectCardId : Nat) (generation : Int) (round : Nat) : Except String ReviewCaseSnapshot :=
  match src.contracts.get projectCardId with
  | none => .error s!"no root contract for project {projectCardId}"
  | some row =>
    match row.contractJson with
    | .unparseable => .error s!"root contract for project {projectCardId} is unparseable"
    | .invalid messages =>
      .error (s!"root contract for project {projectCardId} is invalid: " ++
        "; ".intercalate messages)
    | .contract rootContract =>
      let rootPolicy := criterionPolicyView rootContract
      if !src.db.projectSupervision.has projectCardId then
        .error s!"no supervision state for project {projectCardId}"
      else
        match readProjectCriterionCoverage src projectCardId with
        | .noProjectContract => .error s!"no root contract for project {projectCardId}"
        | .undeterminable reason => .error reason
        | .read coverage =>
          let summaries := (kanbanGetChildren src.db.kanbanBoard projectCardId).filterMap
            (childSummary src.db)
          let inputs := coverage.criteria.filterMap fun cov =>
            (rootPolicy.find? fun p => p.id = cov.criterionId).map fun policy =>
              criterionInput summaries policy cov
          let contradictions := (inputs.filter fun input =>
            input.coverageHint = .conflicting).map (contradictionCandidate summaries round)
          let reported := inputs.map (addReport report)
          .ok
            { projectCardId := projectCardId
              generation := generation
              round := round
              rootContract :=
                { id := rootContract.id
                  digest := rootContract.digest
                  goal := rootContract.goal
                  criteria := rootPolicy
                  requiredOutputs := rootContract.requiredOutputs
                  limits := rootContract.limits }
              criterionInputs := reported
              contradictionCandidates := contradictions
              uncoveredCriteria := coverage.uncovered
              childSummaries := summaries
              peerContributions := peerContributions rt src.ledger projectCardId
              evidenceRefCount := (reported.map evidenceRefs).sum
              contradictionCount := contradictions.length
              reportEvidence := report }

end Abtars
