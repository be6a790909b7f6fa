import Abtars.Lib.Json
import Abtars.Board.Card

/-!
# Worker contracts and result envelopes

The acceptance contract a worker attempt runs under, the evidence envelope it
ends with, the digests taken of both, and the exact-contract acceptance
predicate.
-/

namespace Abtars

open Lib

inductive ExecutorKind
  | agent | pi | remote
  deriving DecidableEq

def ExecutorKind.text : ExecutorKind → String
  | .agent => "agent"
  | .pi => "pi"
  | .remote => "remote"

def agentExecutorId : String := "spin-local"
def piExecutorId : String := "pi-coding"

/-! ## Contracts -/

inductive ArtifactKind
  | file | directory | report | logical
  deriving DecidableEq

def ArtifactKind.text : ArtifactKind → String
  | .file => "file"
  | .directory => "directory"
  | .report => "report"
  | .logical => "logical"

structure ContractCriterion where
  id : String
  description : String
  deriving DecidableEq

structure ExpectedArtifact where
  id : String
  kind : ArtifactKind
  ref : String
  required : Bool
  criterionIds : List String
  deriving DecidableEq

structure VerificationCommand where
  id : String
  argv : List String
  cwd : Option String
  timeoutMs : Int
  criterionIds : List String
  deriving DecidableEq

structure ContractProvenance where
  rootCardId : Int
  cardId : Int
  authoredBy : String
  createdAt : String
  deriving DecidableEq

structure RetryContext where
  directiveId : String
  mode : String
  instruction : String
  doNotRepeat : List String
  priorEvidenceIds : List String
  failedCriterionIds : List String
  unresolvedRisks : List String
  requiredEvidence : Option String
  deriving DecidableEq

structure WorkerContractRevision where
  revision : Int
  rootContractId : String
  parentContractId : Option String
  sourceAttemptId : Option String
  retryContext : Option RetryContext
  deriving DecidableEq

structure ContractLimits where
  maxDurationMs : Option Int
  maxTokens : Option Int
  maxCost : Option Rat
  deriving DecidableEq

structure WorkerAcceptanceContract where
  id : String
  digest : String
  revisionMeta : Option WorkerContractRevision
  goal : String
  criteria : List ContractCriterion
  expectedArtifacts : List ExpectedArtifact
  verificationCommands : List VerificationCommand
  requiredCapabilities : List String
  supportsRootCriteria : Option (List String)
  workspaceAlias : Option String
  limits : ContractLimits
  provenance : ContractProvenance
  deriving DecidableEq

/-! ## Contracts as JSON

An absent optional field of an object literal is a member with value `null` in
the canonical text when the literal names it, and no member when it does not. -/

def optionalMember (key : String) (value : Option Json) : List (String × Json) :=
  match value with
  | none => []
  | some v => [(key, v)]

def RetryContext.toJson (c : RetryContext) : Json :=
  .obj ([("directive_id", .str c.directiveId), ("mode", .str c.mode),
    ("instruction", .str c.instruction), ("do_not_repeat", .ofTexts c.doNotRepeat),
    ("prior_evidence_ids", .ofTexts c.priorEvidenceIds),
    ("failed_criterion_ids", .ofTexts c.failedCriterionIds),
    ("unresolved_risks", .ofTexts c.unresolvedRisks)] ++
    optionalMember "required_evidence" (c.requiredEvidence.map .str))

def WorkerContractRevision.toJson (m : WorkerContractRevision) : Json :=
  .obj ([("revision", .num m.revision), ("root_contract_id", .str m.rootContractId)] ++
    optionalMember "parent_contract_id" (m.parentContractId.map .str) ++
    optionalMember "source_attempt_id" (m.sourceAttemptId.map .str) ++
    optionalMember "retry_context" (m.retryContext.map RetryContext.toJson))

def ContractCriterion.toJson (c : ContractCriterion) : Json :=
  .obj [("id", .str c.id), ("description", .str c.description)]

def ExpectedArtifact.toJson (a : ExpectedArtifact) : Json :=
  .obj [("id", .str a.id), ("kind", .str a.kind.text), ("ref", .str a.ref),
    ("required", .bool a.required), ("criterion_ids", .ofTexts a.criterionIds)]

def VerificationCommand.toJson (c : VerificationCommand) : Json :=
  .obj [("id", .str c.id), ("argv", .ofTexts c.argv), ("cwd", .ofOption c.cwd),
    ("timeout_ms", .num c.timeoutMs), ("criterion_ids", .ofTexts c.criterionIds)]

def ContractLimits.toJson (l : ContractLimits) : Json :=
  .obj (optionalMember "max_duration_ms" (l.maxDurationMs.map fun n => .num n) ++
    optionalMember "max_tokens" (l.maxTokens.map fun n => .num n) ++
    optionalMember "max_cost" (l.maxCost.map .num))

def ContractProvenance.toJson (p : ContractProvenance) : Json :=
  .obj [("root_card_id", .num p.rootCardId), ("card_id", .num p.cardId),
    ("authored_by", .str p.authoredBy), ("created_at", .str p.createdAt)]

/-- The members the digest of a derived revision is taken of: all but `digest`. -/
def WorkerAcceptanceContract.revisionJson (c : WorkerAcceptanceContract) : Json :=
  .obj [("schema_version", .num 1), ("id", .str c.id),
    ("revision_meta", (c.revisionMeta.map WorkerContractRevision.toJson).getD .null),
    ("goal", .str c.goal),
    ("criteria", .arr (c.criteria.map ContractCriterion.toJson)),
    ("expected_artifacts", .arr (c.expectedArtifacts.map ExpectedArtifact.toJson)),
    ("verification_commands", .arr (c.verificationCommands.map VerificationCommand.toJson)),
    ("required_capabilities", .ofTexts c.requiredCapabilities),
    ("supports_root_criteria", (c.supportsRootCriteria.map Json.ofTexts).getD .null),
    ("workspace_alias", .ofOption c.workspaceAlias),
    ("limits", c.limits.toJson), ("provenance", c.provenance.toJson)]

/-! ## Result envelopes -/

inductive CriterionStatus
  | passed | failed | notRun | inconclusive
  deriving DecidableEq

inductive WorkerOutcome
  | completed | failed | cancelled | timedOut
  deriving DecidableEq

structure EnvelopeAttempt where
  id : String
  ordinal : Int
  contractId : String
  contractDigest : String
  executorKind : ExecutorKind
  executorId : String
  startedAt : Millis
  finishedAt : Millis
  deriving DecidableEq

structure EnvelopeCriterion where
  criterionId : String
  status : CriterionStatus
  evidenceIds : List String
  deriving DecidableEq

structure WorkerReport where
  summary : String
  claims : List (Option String × String)
  unresolvedRisks : List String
  deriving DecidableEq

structure EnvelopeUsage where
  inputTokens : Option Int
  outputTokens : Option Int
  totalTokens : Option Int
  cost : Option Rat
  deriving DecidableEq

structure EnvelopeError where
  code : String
  message : String
  retryable : Option Bool
  deriving DecidableEq

structure VerificationObservation where
  checkId : String
  argv : List String
  cwd : Option String
  startedAt : Millis
  finishedAt : Millis
  timedOut : Bool
  exitCode : Option Int
  signal : Option String
  stdoutExcerpt : String
  stderrExcerpt : String
  deriving DecidableEq

structure ArtifactObservation where
  artifactId : String
  exists_ : Bool
  kind : ArtifactKind
  ref : String
  size : Option Int
  digest : Option String
  error : Option String
  deriving DecidableEq

structure WorkerResultEnvelope where
  attempt : EnvelopeAttempt
  outcome : WorkerOutcome
  criteria : List EnvelopeCriterion
  checks : List VerificationObservation
  artifacts : List ArtifactObservation
  workerReport : WorkerReport
  usage : Option EnvelopeUsage
  error : Option EnvelopeError
  deriving DecidableEq

/-! ## Acceptance -/

/-- The scan of the envelope's criteria: each one belongs to the contract, has
not been seen before and passed. -/
def criteriaAllPassed (contractIds : List String) :
    List String → List EnvelopeCriterion → Bool
  | _, [] => true
  | seen, c :: rest =>
    if c.criterionId ∉ contractIds then false
    else if c.criterionId ∈ seen then false
    else if c.status ≠ .passed then false
    else criteriaAllPassed contractIds (c.criterionId :: seen) rest

variable (contract : WorkerAcceptanceContract)

/-- Exact-contract acceptance: a completed envelope naming this very contract,
with every contract criterion present exactly once and passed. -/
def acceptancePassed (envelope : Option WorkerResultEnvelope) : Bool :=
  match envelope with
  | none => false
  | some e =>
    if e.outcome ≠ .completed then false
    else if e.attempt.contractId ≠ contract.id ∨ e.attempt.contractDigest ≠ contract.digest then
      false
    else if e.criteria.length ≠ contract.criteria.length then false
    else criteriaAllPassed (contract.criteria.map (·.id)) [] e.criteria

/-- Acceptance is never read off an envelope that did not complete. -/
theorem outcome_completed_of_acceptancePassed {contract : WorkerAcceptanceContract}
    {envelope : WorkerResultEnvelope} (h : acceptancePassed contract (some envelope) = true) :
    envelope.outcome = .completed := by
  by_contra hne
  simp [acceptancePassed, hne] at h

def resolveWorkerExecutorIntent : ExecutorKind × String :=
  match contract.workspaceAlias with
  | some alias_ => if alias_ = "" then (.agent, agentExecutorId) else (.pi, piExecutorId)
  | none => (.agent, agentExecutorId)

end Abtars
