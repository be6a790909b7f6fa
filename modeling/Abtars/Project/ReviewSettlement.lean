import Abtars.Project.ReviewStore

/-!
# Settlements of a project

The mutations of `ProjectReviewStore` that end a review or a project.  An acceptance and a block
differ in what they write; they are one body with the writes as a parameter.  `ReviewCall` collects
the store's operations on supervision, and `reviewCall` gives what each returns and leaves.
-/

namespace Abtars

open Lib

inductive InvalidProposalRecord
  | counted (total : Nat) (requestId : String)
  | blocked (total : Nat) (requestId decisionId : String)
  | ignored (total : Nat) (requestId : String)

def projectStateToKanban : ProjectState → CardStatus
  | .blocked => .failed
  | .accepted => .done
  | _ => .running

structure SettlementInput where
  cardId : Nat
  reviewCaseId : String
  decision : Json
  /-- The id the decision is recorded under unless its case has one. -/
  decisionId : String
  authority : Option ProjectMutationAuthority

structure NeededInput where
  inputId : String
  question : String
  affectedCriterionIds : List String
  expectedResponseKind : String
  context : Option String

structure TerminalWrites where
  state : ProjectState
  digestPrefix : String
  recipe : PeerTerminalRecipe
  blockedReason : Option String
  reason : String
  fields : List FieldWrite
  caseStatus : ReviewCaseStatus
  supersededAt : Option Millis

namespace ReviewStore

/-! ## Owners of a terminal root -/

/-- `invalidateOwnershipInTransaction`: no Orc run, review or attempt of the project goes on. -/
def invalidateOwnership (s : ReviewStore) (now : Millis) (cardId : Nat) (reviewCaseId : String) :
    ReviewStore :=
  { s with
    db := Abtars.invalidateOwnership now cardId s.db
    orcRuns := s.orcRuns.updateWhere (fun run => run.projectCardId = cardId ∧ run.state.isLive)
      fun run => { run with
        state := .superseded, outcome := some "project_terminal", releasedAt := some now }
    requests := s.requests.updateWhere
      (fun request => request.projectCardId = cardId ∧ request.status.isLive ∧
        request.reviewCaseId ≠ reviewCaseId)
      fun request => { request with
        status := .abandoned, updatedAt := now, lastError := some "project terminal" }
    cases := s.cases.updateWhere
      (fun reviewCase => reviewCase.projectCardId = cardId ∧ reviewCase.status = .open_ ∧
        reviewCase.id ≠ reviewCaseId)
      fun reviewCase => { reviewCase with status := .superseded, supersededAt := some now } }

/-- Closes the case of a settlement and its request, at the generation given or at any. -/
def closeReview (s : ReviewStore) (now : Millis) (cardId : Nat) (generation : Option Int)
    (reviewCaseId : String) (status : ReviewCaseStatus) (supersededAt : Option Millis) :
    ReviewStore :=
  { s with
    cases := s.cases.updateWhere
      (fun reviewCase => reviewCase.id = reviewCaseId ∧ reviewCase.status = .open_ ∧
        generation.all fun g => reviewCase.projectCardId = cardId ∧ reviewCase.generation = g)
      fun reviewCase => { reviewCase with
        status := status, supersededAt := supersededAt <|> reviewCase.supersededAt }
    requests := s.requests.updateWhere
      (fun request => request.reviewCaseId = reviewCaseId ∧ request.status.isLive ∧
        generation.all fun g => request.projectCardId = cardId ∧ request.generation = g)
      fun request => { request with status := .settled, updatedAt := now } }

variable (rt : Runtime)

def settleCard (s : ReviewStore) (now : Millis) (cardId : Nat) (state : ProjectState)
    (reason : String) (fields : List FieldWrite) : Except ReviewStoreError ReviewStore :=
  match kanbanTransition rt.redactSecrets now
      { cardId := cardId
        fromSet := [.queued, .running]
        toStatus := projectStateToKanban state
        actor := .projectAcceptance
        reason := reason
        attemptId := none
        claimGeneration := none
        outboxCallback := none
        fields := fields
        extraPredicate := none } s.db with
  | .error message => .error (.thrown message)
  | .ok (.applied _, db) => .ok { s with db := db }
  | .ok (.reasserted observed, _) =>
    .error (.rejected ("project " ++ toString cardId ++ " kanban settlement lost: observed " ++
      observed.text) .settlementLost)
  | .ok (.noOp observed, _) =>
    .error (.rejected ("project " ++ toString cardId ++ " kanban settlement lost: observed " ++
      (observed.map CardStatus.text).getD "missing") .settlementLost)

/-! ## Acceptance and block -/

def terminalDigest (at_ : Moment) (input : SettlementInput) (writes : TerminalWrites) : String :=
  writes.digestPrefix ++ toString input.cardId ++ "_" ++ input.reviewCaseId ++ "_" ++
    toString at_.now

/-- Moves the supervision of a project that is not terminal, under the decision given. -/
def endSupervision (s : ReviewStore) (input : SettlementInput) (writes : TerminalWrites)
    (decisionId : String) : Except ReviewStoreError ReviewStore :=
  let moved := s.updateSupervision input.cardId
    (fun row => atGeneration input.authority row ∧ !row.state.isTerminal) writes.state 0
    fun columns => { columns with
      acceptedDecisionId := some decisionId
      blockedReason := writes.blockedReason <|> columns.blockedReason }
  if moved.1 then .ok moved.2
  else
    .error (.rejected ("project " ++ toString input.cardId ++ " is already terminal")
      .projectTerminal)

def terminalBody (at_ : Moment) (input : SettlementInput) (writes : TerminalWrites) :
    Body ReviewStore ReviewStoreError String := fun s =>
  (s.assertReviewMutationAuthority input.cardId input.reviewCaseId input.authority).bind fun _ =>
  (s.persistReviewDecision at_.now input.reviewCaseId input.decision
    (terminalDigest at_ input writes) input.decisionId).bind fun persisted =>
  (persisted.2.resolveTerminalPeerEvent at_.clock input.cardId persisted.1
    writes.recipe).bind fun event =>
  (persisted.2.endSupervision input writes persisted.1).bind fun ended =>
  (settleCard rt (ended.invalidateOwnership at_.now input.cardId input.reviewCaseId) at_.now
    input.cardId writes.state writes.reason writes.fields).bind fun settled =>
  let closed := settled.closeReview at_.now input.cardId
    (some ((ended.generationOf input.cardId).getD 1)) input.reviewCaseId writes.caseStatus
    writes.supersededAt
  .ok (persisted.1,
    match event with
    | none => closed
    | some event => closed.insertAcceptanceOutbox at_.now input.cardId persisted.1 event)

def acceptance (at_ : Moment) (synthesis : String) (recipe : Option PeerTerminalRecipe) :
    TerminalWrites where
  state := .accepted
  digestPrefix := "sd_"
  recipe := recipe.getD ⟨.completed, synthesis, none, none⟩
  blockedReason := none
  reason := "project accepted"
  fields := [.resultSummary (some (sliceText synthesis 4000)), .completedAt (some at_.now),
    .error none, .nextRetryAt none]
  caseStatus := .accepted
  supersededAt := none

/-- The recipe of a block, with the reason of the decision where the caller gives none. -/
def blockedRecipe (decision : Json) (blockerClass : String) (recipe : Option PeerTerminalRecipe) :
    PeerTerminalRecipe :=
  let given := recipe.getD ⟨.failed, "Project blocked: " ++ blockerClass, none, none⟩
  { given with
    failureReason := given.failureReason <|> Json.text? (decision.member "reason") }

def block (at_ : Moment) (decision : Json) (blockerClass : String)
    (recipe : Option PeerTerminalRecipe) : TerminalWrites where
  state := .blocked
  digestPrefix := "sd_blk_"
  recipe := blockedRecipe decision blockerClass recipe
  blockedReason := some blockerClass
  reason := "project blocked"
  fields := [.error (some (sliceText ("blocked: " ++ blockerClass) 1000)),
    .completedAt (some at_.now), .nextRetryAt none]
  caseStatus := .superseded
  supersededAt := some at_.now

def settleAcceptance (s : ReviewStore) (at_ : Moment) (input : SettlementInput) (synthesis : String)
    (recipe : Option PeerTerminalRecipe) : Except ReviewStoreError String × ReviewStore :=
  transaction (terminalBody rt at_ input (acceptance at_ synthesis recipe)) s

def settleBlockedBody (at_ : Moment) (input : SettlementInput) (blockerClass : String)
    (recipe : Option PeerTerminalRecipe) : Body ReviewStore ReviewStoreError String :=
  terminalBody rt at_ input (block at_ input.decision blockerClass recipe)

def settleBlocked (s : ReviewStore) (at_ : Moment) (input : SettlementInput) (blockerClass : String)
    (recipe : Option PeerTerminalRecipe) : Except ReviewStoreError String × ReviewStore :=
  transaction (settleBlockedBody rt at_ input blockerClass recipe) s

def blockProjectBody (now : Millis) (cardId : Nat) (reason : String) (extra : ExtraSets)
    (failCard : Bool) (authority : Option ProjectMutationAuthority) :
    Body ReviewStore ReviewStoreError Bool := fun s =>
  match s.authorityRejection cardId authority with
  | some _ => .ok (false, s)
  | none =>
    let moved := s.updateSupervision cardId
      (fun row => atGeneration authority row ∧ !row.state.isTerminal) .blocked 0
      fun columns => extra.write { columns with blockedReason := some (sliceText reason 500) }
    if moved.1 then
      let invalidated := moved.2.invalidateOwnership now cardId ""
      if failCard then
        (settleCard rt invalidated now cardId .blocked "project blocked"
          [.error (some (sliceText ("blocked: " ++ reason) 1000)), .completedAt (some now),
            .nextRetryAt none]).bind fun settled =>
        .ok (true, settled)
      else .ok (true, invalidated)
    else .ok (false, s)

def blockProject (s : ReviewStore) (now : Millis) (cardId : Nat) (reason : String)
    (extra : ExtraSets) (failCard : Bool) (authority : Option ProjectMutationAuthority) :
    Except ReviewStoreError Bool × ReviewStore :=
  transaction (blockProjectBody rt now cardId reason extra failCard authority) s

/-! ## Repair and input -/

def isReviewable (state : ProjectState) : Bool :=
  state = .reviewReady ∨ state = .reviewRequested ∨ state = .reviewing

def addTokens (s : ReviewStore) (now : Millis) (cardId : Nat) (additionalTokens : Int) :
    ReviewStore :=
  if additionalTokens > 0 then
    { s with
      db := { s.db with
        kanbanBoard := s.db.kanbanBoard.modify cardId fun card =>
          { card with
            maxTokens := some (card.maxTokens.getD 0 + additionalTokens), updatedAt := now } } }
  else s

def settleRepairBody (at_ : Moment) (input : SettlementInput) (expectedGeneration : Int)
    (additionalTokens : Int) : Body ReviewStore ReviewStoreError String := fun s =>
  (s.assertReviewMutationAuthority input.cardId input.reviewCaseId input.authority).bind fun _ =>
  (s.persistReviewDecision at_.now input.reviewCaseId input.decision
    ("sd_repair_" ++ toString input.cardId ++ "_" ++ input.reviewCaseId ++ "_" ++
      toString at_.now) input.decisionId).bind fun persisted =>
  let moved := persisted.2.updateSupervision input.cardId
    (fun row => row.generation = expectedGeneration ∧ isReviewable row.state) .repairPlanned 1 id
  if moved.1 then
    .ok (persisted.1, (moved.2.addTokens at_.now input.cardId additionalTokens).closeReview at_.now
      input.cardId (some expectedGeneration) input.reviewCaseId .superseded (some at_.now))
  else
    .error (.rejected ("stale or already-settled repair for project " ++ toString input.cardId)
      .reviewOwnershipStale)

def settleRepair (s : ReviewStore) (at_ : Moment) (input : SettlementInput)
    (expectedGeneration : Int) (additionalTokens : Int) :
    Except ReviewStoreError String × ReviewStore :=
  transaction (settleRepairBody at_ input expectedGeneration additionalTokens) s

def insertInputRequest (s : ReviewStore) (now : Millis) (input : SettlementInput)
    (needed : NeededInput) : Except ReviewStoreError ReviewStore :=
  match s.inputs.insert (fun _ => false)
      ⟨needed.inputId, input.cardId, input.reviewCaseId, needed.question,
        needed.affectedCriterionIds, needed.expectedResponseKind, needed.context, .pending, now,
        none, none⟩ with
  | none => .error (.thrown "UNIQUE constraint failed: project_input_requests.id")
  | some inputs => .ok { s with inputs := inputs }

def noticeInput (s : ReviewStore) (now : Millis) (cardId : Nat) (question : String) :
    ReviewStore :=
  { s with
    db := { s.db with
      kanbanBoard := s.db.kanbanBoard.modify cardId fun card =>
        { card with
          error := some (sliceText ("needs_input: " ++ question) 1000), updatedAt := now } } }

def settleNeedsInputBody (at_ : Moment) (input : SettlementInput) (needed : NeededInput) :
    Body ReviewStore ReviewStoreError String := fun s =>
  (s.assertReviewMutationAuthority input.cardId input.reviewCaseId input.authority).bind fun _ =>
  (s.persistReviewDecision at_.now input.reviewCaseId input.decision
    ("sd_input_" ++ toString input.cardId ++ "_" ++ input.reviewCaseId ++ "_" ++
      toString at_.now) input.decisionId).bind fun persisted =>
  let moved := persisted.2.updateSupervision input.cardId
    (fun row => atGeneration input.authority row ∧ isReviewable row.state) .needsInput 0
    fun columns => { columns with activeReviewCaseId := some input.reviewCaseId }
  if moved.1 then
    (moved.2.insertInputRequest at_.now input needed).bind fun asked =>
    .ok (persisted.1, (asked.noticeInput at_.now input.cardId needed.question).closeReview at_.now
      input.cardId (input.authority.map (·.projectGeneration)) input.reviewCaseId .superseded
      (some at_.now))
  else
    .error (.rejected ("stale or already-settled input request for project " ++
      toString input.cardId) .reviewOwnershipStale)

def settleNeedsInput (s : ReviewStore) (at_ : Moment) (input : SettlementInput)
    (needed : NeededInput) : Except ReviewStoreError String × ReviewStore :=
  transaction (settleNeedsInputBody at_ input needed) s

/-! ## Invalid proposals -/

def contractAdmission : String := "contract_admission"

def recordInvalidContractProposalBody (at_ : Moment) (cardId : Nat) (expectedGeneration : Int)
    (maxInvalidProposals : Nat) (decision : Json) (blockerClass decisionId : String)
    (authority : ProjectMutationAuthority) :
    Body ReviewStore ReviewStoreError InvalidProposalRecord := fun s =>
  if authority.projectCardId ≠ cardId ∨ authority.projectGeneration ≠ expectedGeneration then
    .ok (.ignored 0 "", s)
  else if (authorizeActiveProjectWork s.db authority).isSome then .ok (.ignored 0 "", s)
  else
    match s.db.projectSupervision.get cardId with
    | none => .ok (.ignored 0 "", s)
    | some current =>
      let count := (s.columns cardId).invalidContractProposals
      if current.generation ≠ expectedGeneration ∨ current.state ≠ .awaitingContract ∨
          maxInvalidProposals ≤ count then .ok (.ignored count "", s)
      else
        let counted := s.setColumns cardId fun columns =>
          { columns with invalidContractProposals := columns.invalidContractProposals + 1 }
        if count + 1 < maxInvalidProposals then .ok (.counted (count + 1) "", counted)
        else
          (settleBlockedBody rt at_ ⟨cardId, contractAdmission, decision, decisionId,
            some authority⟩ blockerClass none counted).bind fun settled =>
          .ok (.blocked (count + 1) "" settled.1, settled.2)

def recordInvalidContractProposal (s : ReviewStore) (at_ : Moment) (cardId : Nat)
    (expectedGeneration : Int) (maxInvalidProposals : Nat) (decision : Json)
    (blockerClass decisionId : String) (authority : ProjectMutationAuthority) :
    Except ReviewStoreError InvalidProposalRecord × ReviewStore :=
  transaction (recordInvalidContractProposalBody rt at_ cardId expectedGeneration
    maxInvalidProposals decision blockerClass decisionId authority) s

def recordInvalidProposalBody (at_ : Moment) (input : SettlementInput) (maxInvalidProposals : Nat)
    (blockerClass : String) (recipe : Option PeerTerminalRecipe) :
    Body ReviewStore ReviewStoreError InvalidProposalRecord := fun s =>
  let request := s.requests.rows.find? fun request => request.reviewCaseId = input.reviewCaseId
  match request, s.cases.get input.reviewCaseId with
  | some request, some reviewCase =>
    if request.projectCardId ≠ input.cardId ∨ reviewCase.projectCardId ≠ input.cardId ∨
        request.generation ≠ reviewCase.generation ∨
        s.generationOf input.cardId ≠ some reviewCase.generation ∨ !request.status.isLive ∨
        reviewCase.status ≠ .open_ then
      .ok (.ignored request.invalidProposals request.id, s)
    else
      (s.assertReviewMutationAuthority input.cardId input.reviewCaseId
        input.authority).bind fun _ =>
      let settle (total : Nat) (s : ReviewStore) :=
        (settleBlockedBody rt at_ input blockerClass recipe s).bind fun settled =>
        .ok (InvalidProposalRecord.blocked total request.id settled.1, settled.2)
      if maxInvalidProposals ≤ request.invalidProposals then settle request.invalidProposals s
      else
        let counted := { s with
          requests := s.requests.modify request.id fun request =>
            { request with
              invalidProposals := request.invalidProposals + 1, updatedAt := at_.now } }
        if request.invalidProposals + 1 < maxInvalidProposals then
          .ok (.counted (request.invalidProposals + 1) request.id, counted)
        else settle (request.invalidProposals + 1) counted
  | request, _ =>
    .ok (.ignored (request.elim 0 (·.invalidProposals)) (request.elim "" (·.id)), s)

def recordInvalidProposal (s : ReviewStore) (at_ : Moment) (input : SettlementInput)
    (maxInvalidProposals : Nat) (blockerClass : String) (recipe : Option PeerTerminalRecipe) :
    Except ReviewStoreError InvalidProposalRecord × ReviewStore :=
  transaction (recordInvalidProposalBody rt at_ input maxInvalidProposals blockerClass recipe) s

end ReviewStore

/-! ## Calls -/

inductive ReviewCall
  | initializeProjectSupervision (cardId : Nat) (contractId : String)
  | initializeSupervision (cardId : Nat) (contractId : String) (initialState : ProjectState)
  | ensureAwaitingContract (cardId : Nat)
  | stateTransition (cardId : Nat) (fromStates : List ProjectState) (toState : ProjectState)
      (extra : ExtraSets) (authority : Option ProjectMutationAuthority)
  | blockProject (now : Millis) (cardId : Nat) (reason : String) (extra : ExtraSets)
      (failCard : Bool) (authority : Option ProjectMutationAuthority)
  | settleAcceptance (at_ : Moment) (input : SettlementInput) (synthesis : String)
      (recipe : Option PeerTerminalRecipe)
  | settleBlocked (at_ : Moment) (input : SettlementInput) (blockerClass : String)
      (recipe : Option PeerTerminalRecipe)
  | settleRepair (at_ : Moment) (input : SettlementInput)
      (expectedGeneration additionalTokens : Int)
  | settleNeedsInput (at_ : Moment) (input : SettlementInput) (needed : NeededInput)
  | recordInvalidProposal (at_ : Moment) (input : SettlementInput) (maxInvalidProposals : Nat)
      (blockerClass : String) (recipe : Option PeerTerminalRecipe)
  | recordInvalidContractProposal (at_ : Moment) (cardId : Nat) (expectedGeneration : Int)
      (maxInvalidProposals : Nat) (decision : Json) (blockerClass decisionId : String)
      (authority : ProjectMutationAuthority)

inductive ReviewOutcome
  | done
  | moved (landed : Bool)
  | decided (decisionId : String)
  | recorded (record : InvalidProposalRecord)

def answered {α : Type} (outcome : α → ReviewOutcome)
    (result : Except ReviewStoreError α × ReviewStore) :
    Except ReviewStoreError ReviewOutcome × ReviewStore :=
  (result.1.map outcome, result.2)

def executed (s : ReviewStore) :
    Except ReviewStoreError ReviewStore → Except ReviewStoreError ReviewOutcome × ReviewStore
  | .ok s' => (.ok .done, s')
  | .error e => (.error e, s)

open ReviewStore in
def reviewCall (rt : Runtime) (s : ReviewStore) :
    ReviewCall → Except ReviewStoreError ReviewOutcome × ReviewStore
  | .initializeProjectSupervision cardId contractId =>
    executed s (s.initializeProjectSupervision cardId contractId)
  | .initializeSupervision cardId contractId initialState =>
    executed s (s.initializeSupervision cardId contractId initialState)
  | .ensureAwaitingContract cardId =>
    let inserted := s.ensureAwaitingContract cardId
    (.ok (.moved inserted.1), inserted.2)
  | .stateTransition cardId fromStates toState extra authority =>
    let moved := s.stateTransition cardId fromStates toState extra authority
    (.ok (.moved moved.1), moved.2)
  | .blockProject now cardId reason extra failCard authority =>
    answered .moved (blockProject rt s now cardId reason extra failCard authority)
  | .settleAcceptance at_ input synthesis recipe =>
    answered .decided (settleAcceptance rt s at_ input synthesis recipe)
  | .settleBlocked at_ input blockerClass recipe =>
    answered .decided (settleBlocked rt s at_ input blockerClass recipe)
  | .settleRepair at_ input expectedGeneration additionalTokens =>
    answered .decided (s.settleRepair at_ input expectedGeneration additionalTokens)
  | .settleNeedsInput at_ input needed =>
    answered .decided (s.settleNeedsInput at_ input needed)
  | .recordInvalidProposal at_ input maxInvalidProposals blockerClass recipe =>
    answered .recorded
      (recordInvalidProposal rt s at_ input maxInvalidProposals blockerClass recipe)
  | .recordInvalidContractProposal at_ cardId expectedGeneration maxInvalidProposals decision
      blockerClass decisionId authority =>
      answered .recorded (recordInvalidContractProposal rt s at_ cardId expectedGeneration
        maxInvalidProposals decision blockerClass decisionId authority)

def reviewStep (rt : Runtime) (s : ReviewStore) (call : ReviewCall) : ReviewStore :=
  (reviewCall rt s call).2

end Abtars
