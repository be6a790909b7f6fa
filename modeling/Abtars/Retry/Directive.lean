import Abtars.Database

/-!
# Retry directives and contract revisions

A directive records how a failed attempt is to be retried, under a fingerprint of
everything in it but its id and its instant.  The contract of the successor is
derived from the contract the failed attempt ran under.
-/

namespace Abtars

open Lib

/-! ## Fingerprints -/

def RetryStrategy.toJson (s : RetryStrategy) : Json :=
  .obj [("instruction", .str s.instruction), ("do_not_repeat", .ofTexts s.doNotRepeat),
    ("added_inputs", .arr (s.addedInputs.map fun input =>
      .obj [("id", .str input.1), ("ref", .str input.2)])),
    ("added_checks", .ofTexts s.addedChecks)]

def DirectiveExecutor.toJson (e : DirectiveExecutor) : Json :=
  .obj [("selected_id", .str e.selectedId), ("selected_kind", .str e.selectedKind.text),
    ("selection_rationale", .str e.selectionRationale)]

def PriorContext.toJson (c : PriorContext) : Json :=
  .obj [("evidence_ids", .ofTexts c.evidenceIds),
    ("failed_criterion_ids", .ofTexts c.failedCriterionIds),
    ("unresolved_risks", .ofTexts c.unresolvedRisks),
    ("bounded_summary", .str c.boundedSummary)]

/-- The members a directive's fingerprint is taken of: id, fingerprint and instant
are emptied. -/
def RetryDirective.fingerprintJson (d : RetryDirective) : Json :=
  .obj [("schema_version", .num 1), ("id", .str ""), ("root_contract_id", .str d.rootContractId),
    ("source_attempt_id", .str d.sourceAttemptId), ("target_ordinal", .num d.targetOrdinal),
    ("classification_id", .str d.classificationId), ("decision_id", .str d.decisionId),
    ("mode", .str d.mode.text), ("strategy", d.strategy.toJson),
    ("executor", d.executor.toJson), ("prior_context", d.priorContext.toJson),
    ("semantic_change_fingerprint", .str ""), ("authored_by", .str d.authoredBy.text),
    ("created_at", .str "")]

variable (rt : Runtime)

def computeDirectiveFingerprint (d : RetryDirective) : String :=
  sliceText (rt.sha256 (d.fingerprintJson.canonicalJson rt.renderFraction)) 32

/-! ## Building a directive -/

inductive SelectionStrategy
  | preferred | locality | load | random

def SelectionStrategy.text : SelectionStrategy → String
  | .preferred => "preferred"
  | .locality => "locality"
  | .load => "load"
  | .random => "random"

structure SelectionRationale where
  selectedId : String
  selectedKind : ExecutorKind
  eligibleCount : Nat
  score : Int
  selectionStrategy : SelectionStrategy

structure DirectiveOptions where
  mode : RetryMode
  instruction : String
  doNotRepeat : Option (List String)
  addedInputs : Option (List (String × String))
  addedChecks : Option (List String)
  authoredBy : DirectiveAuthor
  priorEvidenceIds : Option (List String)
  failedCriterionIds : Option (List String)
  unresolvedRisks : Option (List String)
  boundedSummary : Option String

/-- `buildDirective`; `directiveId` and `now` are what the host draws and reads. -/
def buildDirective (directiveId : String) (now : Millis) (rootContract : WorkerAcceptanceContract)
    (sourceAttemptId : String) (targetOrdinal : Int) (classification : FailureClassification)
    (decision : RetryPolicyDecision) (selection : SelectionRationale) (opts : DirectiveOptions) :
    RetryDirective :=
  let directive : RetryDirective :=
    { id := directiveId
      rootContractId := rootContract.id
      sourceAttemptId := sourceAttemptId
      targetOrdinal := targetOrdinal
      classificationId := classification.id
      decisionId := decision.sourceAttemptId
      mode := opts.mode
      strategy :=
        { instruction := sliceText opts.instruction 2000
          doNotRepeat := (opts.doNotRepeat.getD []).take 10
          addedInputs := (opts.addedInputs.getD []).take 10
          addedChecks := (opts.addedChecks.getD []).take 10 }
      executor :=
        { selectedId := selection.selectedId
          selectedKind := selection.selectedKind
          selectionRationale := selection.selectionStrategy.text ++ " score=" ++
            toString selection.score ++ " eligible=" ++ toString selection.eligibleCount }
      priorContext :=
        { evidenceIds := (opts.priorEvidenceIds.getD classification.evidenceIds).take 20
          failedCriterionIds := (opts.failedCriterionIds.getD []).take 20
          unresolvedRisks := (opts.unresolvedRisks.getD []).take 10
          boundedSummary := sliceText (opts.boundedSummary.getD
            (String.intercalate "; " classification.recommendedActions)) 500 }
      semanticChangeFingerprint := ""
      authoredBy := opts.authoredBy
      createdAt := now }
  { directive with semanticChangeFingerprint := computeDirectiveFingerprint rt directive }

/-! ## Contract revisions -/

/-- `deriveContractRevision`: the contract of the successor, under a drawn id. -/
def deriveContractRevision (contractId : String) (original : WorkerAcceptanceContract)
    (directive : RetryDirective) (revision : Int) : WorkerAcceptanceContract :=
  let revised : WorkerAcceptanceContract :=
    { original with
      id := contractId
      digest := ""
      revisionMeta := some
        { revision := revision
          rootContractId := (original.revisionMeta.map (·.rootContractId)).getD original.id
          parentContractId := some original.id
          sourceAttemptId := some directive.sourceAttemptId
          retryContext := some
            { directiveId := directive.id
              mode := directive.mode.text
              instruction := directive.strategy.instruction
              doNotRepeat := directive.strategy.doNotRepeat
              priorEvidenceIds := directive.priorContext.evidenceIds
              failedCriterionIds := directive.priorContext.failedCriterionIds
              unresolvedRisks := directive.priorContext.unresolvedRisks
              requiredEvidence := none } } }
  { revised with digest := rt.sha256 (revised.revisionJson.canonicalJson rt.renderFraction) }

/-! ## Validation -/

def issueIf (condition : Bool) (message : String) : List String :=
  if condition then [message] else []

/-- `validateDirective`; a mode outside the enumeration cannot be built. -/
def validateDirective (d : RetryDirective) : List String :=
  issueIf (d.rootContractId = "") "root_contract_id required" ++
    issueIf (d.sourceAttemptId = "") "source_attempt_id required" ++
    issueIf (d.targetOrdinal < 1) "target_ordinal must be >= 1" ++
    issueIf (d.executor.selectedId = "") "executor.selected_id required"

def criterionNamed (criteria : List ContractCriterion) (id : String) : Option ContractCriterion :=
  criteria.reverse.find? fun c => c.id = id

def criteriaIssues (original revised : List ContractCriterion) : List String :=
  if revised.length < original.length then ["criteria count cannot decrease"]
  else
    revised.flatMap fun rc =>
      issueIf ((criterionNamed original rc.id).any fun oc => rc.description ≠ oc.description)
        ("criterion " ++ rc.id ++ " description changed")

def validateContractRevision (original revised : WorkerAcceptanceContract) : List String :=
  criteriaIssues original.criteria revised.criteria ++
    issueIf (revised.requiredCapabilities.length < original.requiredCapabilities.length)
      "capabilities cannot be removed" ++
    issueIf (revised.goal ≠ original.goal) "root goal changed" ++
    issueIf (revised.limits.toJson.stringify rt.renderFraction ≠
      original.limits.toJson.stringify rt.renderFraction) "limits cannot be weakened" ++
    issueIf (revised.workspaceAlias ≠ original.workspaceAlias)
      "workspace_alias cannot change within a contract lineage"

end Abtars
