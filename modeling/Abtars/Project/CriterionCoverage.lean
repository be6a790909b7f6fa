import Abtars.Peer.ContributionStore
import Abtars.Retry.Service

/-!
# Criterion coverage

The root contract of a project and the one coverage read-model: which child contracts and peer
contributions support each criterion of the root contract.  Only delegated criteria may be
supported; a child or a contribution that cannot be read, or that supports anything else, makes
coverage undeterminable.
-/

namespace Abtars

open Lib

/-! ## Root contracts -/

inductive EvidenceExpectation
  | observed | artifact | synthesis

inductive CriterionExecutionOwner
  | delegated | orc
  deriving DecidableEq

structure ProjectCriterionV1 where
  id : String
  description : String
  evidenceExpectation : EvidenceExpectation

structure ProjectCriterionV2 where
  id : String
  description : String
  required : Bool
  executionOwner : CriterionExecutionOwner
  evidenceExpectation : EvidenceExpectation

inductive ProjectCriteria
  | v1 (criteria : List ProjectCriterionV1)
  | v2 (criteria : List ProjectCriterionV2)

inductive OutputKind
  | file | directory | report | logical

structure RequiredOutput where
  id : String
  description : String
  kind : OutputKind
  required : Bool

structure ProjectContractLimits where
  hardDeadlineAt : Option String
  maxTokens : Option Rat
  maxCost : Option Rat
  maxReviewRounds : Rat
  maxRepairRounds : Rat

structure CriterionPolicyView where
  id : String
  description : String
  required : Bool
  executionOwner : CriterionExecutionOwner
  evidenceExpectation : EvidenceExpectation

def ProjectCriteria.policyView : ProjectCriteria → List CriterionPolicyView
  | .v1 criteria => criteria.map fun c => ⟨c.id, c.description, true, .delegated,
      c.evidenceExpectation⟩
  | .v2 criteria => criteria.map fun c => ⟨c.id, c.description, c.required, c.executionOwner,
      c.evidenceExpectation⟩

/-- A root contract that `validateContract` accepts: no two of its criteria have one id. -/
structure ProjectAcceptanceContract where
  id : String
  digest : String
  goal : String
  criteria : ProjectCriteria
  distinct : (criteria.policyView.map (·.id)).Nodup
  requiredOutputs : List RequiredOutput
  limits : ProjectContractLimits

inductive RootContractText
  | contract (contract : ProjectAcceptanceContract)
  | invalid (messages : List String)
  | unparseable

/-- A row of `project_contracts`. -/
structure ProjectContractRow where
  id : String
  projectCardId : Nat
  contractJson : RootContractText

instance : Keyed ProjectContractRow Nat := ⟨ProjectContractRow.projectCardId⟩

variable (contract : ProjectAcceptanceContract)

def criterionPolicyView : List CriterionPolicyView :=
  contract.criteria.policyView

def delegatedCriterionIds : List String :=
  ((criterionPolicyView contract).filter fun c => c.executionOwner = .delegated).map (·.id)

/-! ## Mappings -/

structure ContractCriterionMapping where
  childContractId : String
  supportsRootCriteria : List String

structure MappingIssue where
  tag : String
  path : String
  message : String

def mappingIssuesAt (legalIds : List String) (index : Nat) :
    List String → List String → List MappingIssue
  | _, [] => []
  | seen, criterionId :: rest =>
    let path := s!"$.supports_root_criteria[{index}]"
    if criterionId = "" then
      ⟨"empty_string", path, "root criterion id must be a non-empty string"⟩ ::
        mappingIssuesAt legalIds (index + 1) seen rest
    else if criterionId ∈ seen then
      ⟨"duplicate_id", path, s!"duplicate root criterion id \"{criterionId}\""⟩ ::
        mappingIssuesAt legalIds (index + 1) seen rest
    else if criterionId ∉ legalIds then
      let legalList :=
        if legalIds = [] then "(none — all root criteria are Orc-owned)"
        else ", ".intercalate legalIds
      ⟨"bad_reference", path, s!"root criterion id \"{criterionId}\" is not delegable " ++
        s!"(unknown or Orc-owned); legal delegated ids: {legalList}"⟩ ::
        mappingIssuesAt legalIds (index + 1) (criterionId :: seen) rest
    else mappingIssuesAt legalIds (index + 1) (criterionId :: seen) rest

variable (rootContract : ProjectAcceptanceContract)

def validateCriterionMapping (mapping : ContractCriterionMapping) : List MappingIssue :=
  (if mapping.childContractId = "" then
    [⟨"missing_field", "$.child_contract_id", "child_contract_id is required"⟩]
  else []) ++
    mappingIssuesAt (delegatedCriterionIds rootContract) 0 [] mapping.supportsRootCriteria

variable (mappings : List ContractCriterionMapping)

def findUncoveredCriteria : List String :=
  let covered := mappings.flatMap (·.supportsRootCriteria)
  (delegatedCriterionIds rootContract).filter fun id => id ∉ covered

/-! ## Sources -/

structure CaseSources where
  ledger : ContributionStore
  contracts : Table ProjectContractRow

def CaseSources.db (src : CaseSources) : Db := src.ledger.db

def distinctTexts (texts : List String) : Option (List String) :=
  if texts.Nodup ∧ "" ∉ texts then some texts else none

/-- What a child contract supports; a contract that cannot be read supports nothing known. -/
def childSupportsRootCriteria (contractJson : Option WorkerAcceptanceContract) :
    Option (List String) :=
  contractJson.bind fun contract =>
    match contract.supportsRootCriteria with
    | none => some []
    | some raw => distinctTexts raw

/-- `getContractByCardId`: the first contract of a card. -/
def contractByCardId (db : Db) (cardId : Nat) : Option ContractRow :=
  (db.workerContracts.select fun c => c.cardId = cardId).head?

structure PeerCriteria where
  peer : String
  requestId : String
  rootCriteria : Option (List String)

def peerContributionRootCriteria (s : ContributionStore) (projectCardId : Nat) :
    List PeerCriteria :=
  (s.contributions.select fun row =>
    row.projectCardId = some projectCardId ∧ row.state = .completed ∧
      row.rootCriteriaJson.isSome).map fun row =>
    ⟨row.peer, row.requestId,
      ((Json.items? row.rootCriteriaJson).bind fun items =>
        items.mapM fun item => Json.text? (some item)).bind distinctTexts⟩

/-! ## Coverage -/

inductive CoverageState
  | mapped | orcOwned | gap

structure CriterionCoverage where
  criterionId : String
  required : Bool
  executionOwner : CriterionExecutionOwner
  state : CoverageState
  mappedContractIds : List String

structure CoverageRead where
  criterionIds : List String
  criteria : List CriterionCoverage
  mappings : List ContractCriterionMapping
  uncovered : List String

inductive CoverageResult
  | noProjectContract
  | undeterminable (reason : String)
  | read (read : CoverageRead)

/-- A mapping checked against the root contract; one that supports nothing is left out. -/
def checkedMapping (reason : List MappingIssue → String) (mapping : ContractCriterionMapping) :
    Except String (Option ContractCriterionMapping) :=
  if mapping.supportsRootCriteria = [] then .ok none
  else if validateCriterionMapping rootContract mapping ≠ [] then
    .error (reason (validateCriterionMapping rootContract mapping))
  else .ok (some mapping)

def issueTexts (issues : List MappingIssue) : String :=
  "; ".intercalate (issues.map (·.message))

def childMapping (db : Db) (rootContract : ProjectAcceptanceContract) (rootCardId : Nat)
    (child : KanbanCard) : Except String (Option ContractCriterionMapping) :=
  match latestContract db child.id <|> contractByCardId db child.id with
  | none => .ok none
  | some contractRow =>
    match childSupportsRootCriteria contractRow.contractJson with
    | none =>
      .error s!"child contract for card #{child.id} under project #{rootCardId} is unparseable"
    | some supports =>
      checkedMapping rootContract
        (fun issues => s!"child contract for card #{child.id} under project #{rootCardId} " ++
          s!"has an invalid root-criterion mapping: {issueTexts issues}")
        ⟨contractRow.id, supports⟩

def peerMapping (row : PeerCriteria) : Except String (Option ContractCriterionMapping) :=
  match row.rootCriteria with
  | none =>
    .error (s!"peer contribution {row.peer}/{row.requestId} has an invalid " ++
      "root-criterion mapping")
  | some supports =>
    checkedMapping rootContract
      (fun issues => s!"peer contribution {row.peer}/{row.requestId} has an invalid " ++
        s!"root-criterion mapping: {issueTexts issues}")
      ⟨s!"peer:{row.peer}:{row.requestId}", supports⟩

def mappedBy (criterionId : String) : List String :=
  mappings.flatMap fun mapping =>
    (mapping.supportsRootCriteria.filter (· = criterionId)).map fun _ => mapping.childContractId

def criterionCoverage (c : CriterionPolicyView) :
    CriterionCoverage where
  criterionId := c.id
  required := c.required
  executionOwner := c.executionOwner
  state :=
    if c.executionOwner = .orc then .orcOwned
    else if mappedBy mappings c.id = [] then .gap else .mapped
  mappedContractIds := if c.executionOwner = .orc then [] else mappedBy mappings c.id

def criterionMappings (src : CaseSources) (rootContract : ProjectAcceptanceContract)
    (rootCardId : Nat) : Except String (List ContractCriterionMapping) :=
  ((kanbanGetChildren src.db.kanbanBoard rootCardId).mapM
    (childMapping src.db rootContract rootCardId)).bind fun children =>
  ((peerContributionRootCriteria src.ledger rootCardId).mapM
    (peerMapping rootContract)).bind fun peers =>
  .ok ((children ++ peers).filterMap id)

def readProjectCriterionCoverage (src : CaseSources) (rootCardId : Nat) : CoverageResult :=
  match src.contracts.get rootCardId with
  | none => .noProjectContract
  | some row =>
    match row.contractJson with
    | .contract rootContract =>
      match criterionMappings src rootContract rootCardId with
      | .error reason => .undeterminable reason
      | .ok mappings =>
        .read
          { criterionIds := (criterionPolicyView rootContract).map (·.id)
            criteria := (criterionPolicyView rootContract).map (criterionCoverage mappings)
            mappings := mappings
            uncovered := findUncoveredCriteria rootContract mappings }
    | _ =>
      .undeterminable (s!"root contract for project #{rootCardId} is missing, unparseable, " ++
        "or has an unsupported schema version")

end Abtars
