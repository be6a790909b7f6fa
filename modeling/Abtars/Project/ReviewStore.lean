import Abtars.Board.Transition
import Abtars.Peer.HelpStore
import Abtars.Project.Authority
import Abtars.Project.PeerTerminalEvent

/-!
# The review store

`ProjectReviewStore`: the supervision of a project, its review cases and requests, the decisions on
them, the questions put to people and the outbox of terminal events.  A settlement checks the bound
authority and the case, records the decision, moves supervision and card and closes the review in
one transaction; what throws takes all of it back.

`migrate` made the tables; the columns of `project_supervision` besides state and generation are
kept by card, with the values an insert gives them.
-/

namespace Abtars

open Lib

/-! ## Rejections -/

inductive ReviewTurnRejection
  | supervisionMissing | projectTerminal | reviewCaseProjectMismatch
  | reviewCaseGenerationMismatch | reviewCaseNotOpen | contextMissing | projectMismatch
  | projectGenerationMismatch | reviewOwnershipStale | settlementLost
  | peerTerminalIdentityMissing | peerTerminalIdentityMismatch

def mapProjectAuthorityRejection : ProjectAuthorityRejection → ReviewTurnRejection
  | .missingAuthority => .contextMissing
  | .projectMissing => .supervisionMissing
  | .projectTerminal => .projectTerminal
  | .generationMismatch => .projectGenerationMismatch
  | .runMismatch => .reviewOwnershipStale
  | .runFailed => .reviewOwnershipStale

inductive ReviewStoreError
  | rejected (message : String) (code : ReviewTurnRejection)
  | thrown (message : String)

/-! ## Rows -/

inductive ReviewCaseStatus
  | open_ | superseded | accepted
  deriving DecidableEq

/-- A row of `project_review_cases`; `insertReviewCase` names it after its project. -/
structure ReviewCaseRow where
  id : String
  named : id ≠ ""
  projectCardId : Nat
  generation : Int
  round : Int
  snapshotDigest : String
  caseJson : Json
  status : ReviewCaseStatus
  createdAt : Millis
  supersededAt : Option Millis

instance : Keyed ReviewCaseRow String := ⟨ReviewCaseRow.id⟩

inductive ReviewRequestStatus
  | pending | dispatched | settled | abandoned
  deriving DecidableEq

/-- A row of `project_review_requests`. -/
structure ReviewRequestRow where
  id : String
  projectCardId : Nat
  reviewCaseId : String
  generation : Int
  status : ReviewRequestStatus
  invalidProposals : Nat
  lastError : Option String
  updatedAt : Millis

instance : Keyed ReviewRequestRow String := ⟨ReviewRequestRow.id⟩

def ReviewRequestStatus.isLive (status : ReviewRequestStatus) : Bool :=
  status = .pending ∨ status = .dispatched

/-- A row of `project_review_decisions`. -/
structure ReviewDecisionRow where
  id : String
  reviewCaseId : String
  decisionJson : Json
  decisionDigest : String
  createdAt : Millis

instance : Keyed ReviewDecisionRow String := ⟨ReviewDecisionRow.id⟩

inductive InputRequestStatus
  | pending | answered | expired
  deriving DecidableEq

/-- A row of `project_input_requests`. -/
structure ProjectInputRow where
  id : String
  projectCardId : Nat
  reviewCaseId : String
  question : String
  affectedCriterionIds : List String
  expectedResponseKind : String
  context : Option String
  status : InputRequestStatus
  createdAt : Millis
  answeredAt : Option Millis
  responseText : Option String

instance : Keyed ProjectInputRow String := ⟨ProjectInputRow.id⟩

/-- A row of `project_acceptance_outbox`. -/
structure AcceptanceOutboxRow where
  id : String
  projectCardId : Nat
  peer : String
  payloadJson : Json
  attempts : Nat
  lastError : Option String
  createdAt : Millis
  updatedAt : Millis
  sentAt : Option Millis

instance : Keyed AcceptanceOutboxRow String := ⟨AcceptanceOutboxRow.id⟩

inductive OrcRunState
  | scheduled | dispatching | running | released | superseded
  deriving DecidableEq

def OrcRunState.isLive (state : OrcRunState) : Bool :=
  state = .scheduled ∨ state = .dispatching ∨ state = .running

/-- A row of `orc_project_runs`. -/
structure OrcRunRow where
  id : String
  projectCardId : Nat
  state : OrcRunState
  outcome : Option String
  releasedAt : Option Millis

instance : Keyed OrcRunRow String := ⟨OrcRunRow.id⟩

/-- The columns of `project_supervision` besides state and generation. -/
structure SupervisionColumns where
  contractId : String
  invalidContractProposals : Nat
  reviewRound : Int
  activeReviewCaseId : Option String
  acceptedDecisionId : Option String
  blockedReason : Option String

def SupervisionColumns.fresh (contractId : String) : SupervisionColumns :=
  ⟨contractId, 0, 0, none, none, none⟩

/-- What a transition sets besides the state; callers give a reason for a block. -/
structure ExtraSets where
  blockedReason : Option (Option String)

def ExtraSets.write (extra : ExtraSets) (columns : SupervisionColumns) : SupervisionColumns :=
  match extra.blockedReason with
  | none => columns
  | some reason => { columns with blockedReason := reason }

/-- The store on the task database, with the host's reading of the peer configuration. -/
structure ReviewStore where
  db : Db
  columns : Nat → SupervisionColumns
  sourcePeers : Nat → Option String
  cases : Table ReviewCaseRow
  requests : Table ReviewRequestRow
  decisions : Table ReviewDecisionRow
  inputs : Table ProjectInputRow
  outbox : Table AcceptanceOutboxRow
  helpRequests : Table PeerHelpRow
  orcRuns : Table OrcRunRow
  /-- `loadPeerConfig().self.name`, when it loads. -/
  selfName : Option String

def ReviewStore.empty : ReviewStore where
  db := Db.empty
  columns := fun _ => .fresh ""
  sourcePeers := fun _ => none
  cases := ∅
  requests := ∅
  decisions := ∅
  inputs := ∅
  outbox := ∅
  helpRequests := ∅
  orcRuns := ∅
  selfName := none

structure Moment where
  now : Millis
  clock : IsoInstant

namespace ReviewStore

/-! ## Supervision -/

variable (s : ReviewStore) (cardId : Nat)

def generationOf : Option Int :=
  (s.db.projectSupervision.get cardId).map (·.generation)

def stateOf : Option ProjectState :=
  (s.db.projectSupervision.get cardId).map (·.state)

def setColumns (write : SupervisionColumns → SupervisionColumns) : ReviewStore :=
  { s with columns := fun id => if id = cardId then write (s.columns id) else s.columns id }

/-- `UPDATE project_supervision` of one row that meets the guard; did it land? -/
def updateSupervision (guard : ProjectSupervisionRow → Bool) (state : ProjectState) (advance : Int)
    (write : SupervisionColumns → SupervisionColumns) : Bool × ReviewStore :=
  let landed := s.db.projectSupervision.cas cardId guard fun row =>
    { row with state := state, generation := row.generation + advance }
  if landed.1 then
    (true, setColumns { s with db := { s.db with projectSupervision := landed.2 } } cardId write)
  else (false, s)

variable (contractId : String)

def contractTaken : Bool :=
  s.db.projectSupervision.rows.any fun row =>
    row.projectCardId ≠ cardId ∧ (s.columns row.projectCardId).contractId = contractId

def insertSupervision (state : ProjectState) : ReviewStore :=
  setColumns { s with
    db := { s.db with
      projectSupervision := s.db.projectSupervision.insertOrIgnore (fun _ => false)
        ⟨cardId, state, 1⟩ } } cardId fun _ => .fresh contractId

/-- An upsert on the card that sets the contract, and the state where one is given. -/
def upsertSupervision (inserted : ProjectState) (updated : ProjectState → ProjectState) :
    Except ReviewStoreError ReviewStore :=
  if s.contractTaken cardId contractId then
    .error (.thrown "UNIQUE constraint failed: project_supervision.contract_id")
  else if s.db.projectSupervision.has cardId then
    .ok (setColumns { s with
      db := { s.db with
        projectSupervision := s.db.projectSupervision.modify cardId fun row =>
          { row with state := updated row.state } } } cardId
      fun columns => { columns with contractId := contractId })
  else .ok (s.insertSupervision cardId contractId inserted)

/-- `initializeProjectSupervision`, which leaves the state of a row that is there. -/
def initializeProjectSupervision : Except ReviewStoreError ReviewStore :=
  s.upsertSupervision cardId contractId .awaitingContract id

/-- `initializeSupervision`, which sets the state of a row that is there. -/
def initializeSupervision (initialState : ProjectState) : Except ReviewStoreError ReviewStore :=
  s.upsertSupervision cardId contractId initialState fun _ => initialState

def awaitingContractId : String :=
  "awaiting:" ++ toString cardId

def ensureAwaitingContract : Bool × ReviewStore :=
  if s.db.projectSupervision.has cardId ∨ s.contractTaken cardId (awaitingContractId cardId) then
    (false, s)
  else (true, s.insertSupervision cardId (awaitingContractId cardId) .awaitingContract)

/-- Why a mutation under the authority is rejected; a mutation without one is not. -/
def authorityRejection :
    Option ProjectMutationAuthority → Option (Option ProjectAuthorityRejection)
  | none => none
  | some authority =>
    if authority.projectCardId ≠ cardId then some none
    else (authorizeActiveProjectWork s.db authority).map some

variable (authority : Option ProjectMutationAuthority)

def atGeneration (row : ProjectSupervisionRow) : Bool :=
  authority.all fun authority => row.generation = authority.projectGeneration

def stateTransition (fromStates : List ProjectState) (toState : ProjectState) (extra : ExtraSets)
    (authority : Option ProjectMutationAuthority) : Bool × ReviewStore :=
  match s.authorityRejection cardId authority with
  | some _ => (false, s)
  | none =>
    s.updateSupervision cardId (fun row => atGeneration authority row ∧ row.state ∈ fromStates)
      toState 0 extra.write

/-! ## Checks of a review mutation -/

def checkAuthority : Except ReviewStoreError Unit :=
  match s.authorityRejection cardId authority with
  | none => .ok ()
  | some none => .error (.rejected "project mutation rejected: project_mismatch" .projectMismatch)
  | some (some rejection) =>
    .error (.rejected ("project mutation rejected: " ++ rejection.text)
      (mapProjectAuthorityRejection rejection))

def caseRejection (reviewCase : ReviewCaseRow) (authority : Option ProjectMutationAuthority) :
    Option ReviewTurnRejection :=
  if reviewCase.projectCardId ≠ cardId then some .reviewCaseProjectMismatch
  else if reviewCase.status ≠ .open_ then some .reviewCaseNotOpen
  else if s.generationOf cardId ≠ some reviewCase.generation then
    some .reviewCaseGenerationMismatch
  else if authority.any (·.projectGeneration ≠ reviewCase.generation) then
    some .projectGenerationMismatch
  else none

/-- `assertReviewMutationAuthorityInTransaction`; a case without a row is a synthetic blocker. -/
def assertReviewMutationAuthority (reviewCaseId : String)
    (authority : Option ProjectMutationAuthority) : Except ReviewStoreError Unit :=
  (s.checkAuthority cardId authority).bind fun _ =>
    match s.cases.get reviewCaseId with
    | none => .ok ()
    | some reviewCase =>
      match s.caseRejection cardId reviewCase authority with
      | none => .ok ()
      | some code =>
        .error (.rejected ("stale or already-settled review case " ++ reviewCaseId) code)

/-! ## Decisions -/

def decisionOf (reviewCaseId : String) : Option ReviewDecisionRow :=
  s.decisions.rows.find? fun row => row.reviewCaseId = reviewCaseId

/-- `persistReviewDecisionInTransaction`: the id of the case's decision, which is the one given
unless the case has a decision already. -/
def persistReviewDecision (now : Millis) (reviewCaseId : String) (decision : Json)
    (decisionDigest preferredId : String) : Except ReviewStoreError (String × ReviewStore) :=
  match s.decisionOf reviewCaseId with
  | some existing => .ok (existing.id, s)
  | none =>
    match s.decisions.insert (fun row => row.reviewCaseId = reviewCaseId)
        ⟨preferredId, reviewCaseId, decision, decisionDigest, now⟩ with
    | none => .error (.thrown "UNIQUE constraint failed: project_review_decisions.id")
    | some decisions => .ok (preferredId, { s with decisions := decisions })

/-! ## The terminal event of a peer's project -/

def acceptedHelp : List PeerHelpRow :=
  s.helpRequests.select fun row =>
    row.localCardId = some cardId ∧ row.state = .accepted ∧
      (nonEmpty row.contributionRef).isSome ∧ s.db.kanbanBoard.has cardId

def readPeerTerminalIdentity : Option PeerTerminalIdentity :=
  match s.acceptedHelp cardId with
  | [row] =>
    if row.originPeer = "" ∨ row.requestId = "" then none
    else if s.sourcePeers cardId ≠ some row.originPeer then none
    else some ⟨row.originPeer, row.requestId, row.contributionRef.getD ""⟩
  | _ => none

def identityMismatch (sourcePeer : String) : Bool :=
  match s.helpRequests.select fun row => row.localCardId = some cardId ∧ row.state = .accepted with
  | [row] => row.originPeer ≠ sourcePeer
  | _ => false

/-- `resolveTerminalPeerEventInTransaction`: the event for the requester, for a peer's root. -/
def resolveTerminalPeerEvent (clock : IsoInstant) (cardId : Nat) (decisionId : String)
    (recipe : PeerTerminalRecipe) : Except ReviewStoreError (Option PeerTerminalEvent) :=
  match s.db.kanbanBoard.get cardId with
  | none => .ok none
  | some root =>
    if root.source ≠ "peer" then .ok none
    else
      match nonEmpty (s.sourcePeers cardId) with
      | none =>
        .error (.rejected ("peer project " ++ toString cardId ++ " has no durable source peer")
          .peerTerminalIdentityMissing)
      | some sourcePeer =>
        match s.readPeerTerminalIdentity cardId with
        | none =>
          let mismatch := s.identityMismatch cardId sourcePeer
          .error (.rejected ("peer project " ++ toString cardId ++
            " has no unique matching accepted help identity (" ++
            (if mismatch then "peer_terminal_identity_mismatch"
              else "peer_terminal_identity_missing") ++ ")")
            (if mismatch then .peerTerminalIdentityMismatch
              else .peerTerminalIdentityMissing))
        | some identity =>
          .ok (some (buildPeerTerminalEvent clock
            { cardId := cardId
              decisionId := decisionId
              recipe := recipe
              receiverPeer := s.selfName.getD sourcePeer
              identity := identity }))

def acceptancePayload (decisionId : String) (event : PeerTerminalEvent) : Json :=
  match event.payload with
  | .obj members => .obj (Json.setMember members "acceptance_id" (.str decisionId))
  | payload => payload

def outboxRow (now : Millis) (cardId : Nat) (decisionId : String) (event : PeerTerminalEvent) :
    AcceptanceOutboxRow where
  id := "ao_" ++ decisionId
  projectCardId := cardId
  peer := event.peer
  payloadJson := acceptancePayload decisionId event
  attempts := 0
  lastError := none
  createdAt := now
  updatedAt := now
  sentAt := none

/-- `insertAcceptanceOutboxInTransaction`, one row for each project. -/
def insertAcceptanceOutbox (now : Millis) (cardId : Nat) (decisionId : String)
    (event : PeerTerminalEvent) : ReviewStore :=
  { s with
    outbox := s.outbox.insertOrIgnore (fun row => row.projectCardId = cardId)
      (outboxRow now cardId decisionId event) }

end ReviewStore

end Abtars
