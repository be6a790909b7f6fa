import Abtars.Peer.ContributionStore

/-!
# Delegations

`RequesterContributionService` and the tool above it: a request is reserved before it is sent, and
what the peer answers moves the ledger and rewrites the notes of the proxy.  `LedgerCall` collects
these calls with the events peers send; the rest of the process may rewrite the board between any
two of them.
-/

namespace Abtars

open Lib

structure Delegation where
  peer : String
  requestId : String
  projectCardId : Option Nat
  proxyCardId : Nat
  contributionRef : String
  notes : DelegationNotes
  terminalizeNonStarted : Bool

/-- `createCliProject`: the delegation project that is made for a request, and its proxy. -/
structure CliDelegation where
  peer : String
  requestId : String
  requestHash : String
  title : String
  goal : String

/-- The admission of a new root by the workflow runner: what it throws or writes. -/
abbrev CliAdmission := Nat → Db → Except String RunnerTables

def cliRoot (now : Millis) (id : Nat) (d : CliDelegation) : KanbanCard :=
  { newCard id "cli" (some "O") none .queued now with
    title := d.title
    sourceId := some d.requestId
    priority := .high
    deliveryMode := some "silent" }

def cliProxyNotes (d : CliDelegation) : Json :=
  .obj [("peer", .str d.peer), ("goal", .str d.goal), ("request_id", .str d.requestId),
    ("outcome", .str "pending")]

def noteMembers : Option Json → List (String × Json)
  | some (.obj members) => members
  | _ => []

namespace ContributionStore

/-! ## New projects -/

variable (s : ContributionStore)

def insertCliRoot (now : Millis) (d : CliDelegation) : Except String (Nat × ContributionStore) :=
  match s.db.kanbanBoard.insert (fun _ => false) (cliRoot now s.nextCardId d) with
  | none => .error "UNIQUE constraint failed: kanban_board.id"
  | some board =>
    if s.nextCardId = 0 then .error "Failed to create delegation project root"
    else
      .ok (s.nextCardId, { s with
        db := { s.db with kanbanBoard := board }
        nextCardId := s.nextCardId + 1 })

variable (admission : CliAdmission)

def admitCliRoot (rootId : Nat) : Except String ContributionStore :=
  match admission rootId s.db with
  | .error e => .error e
  | .ok tables =>
    .ok { s with
      db := { s.db with
        workflowRuns := tables.workflowRuns
        projectSupervision := tables.projectSupervision } }

def createCliProjectBody (now : Millis) (generated : String) (d : CliDelegation) :
    Body ContributionStore String Nat := fun s =>
  (s.insertCliRoot now d).bind fun root =>
  (root.2.admitCliRoot admission root.1).bind fun admitted =>
  (admitted.insertCard (fun id => proxyCard now id d.title d.requestId .high (some root.1))
    fun id => ⟨id, d.goal, some (cliProxyNotes d), some d.peer⟩).bind fun proxy =>
  (proxy.2.insertContribution (pendingContribution now d.peer d.requestId d.requestHash generated
    (some root.1) (some proxy.1) none)).bind fun s' =>
  .ok (root.1, s')

def createCliProject (now : Millis) (generated : String) (d : CliDelegation) :
    Except String Nat × ContributionStore :=
  transaction (createCliProjectBody admission now generated d) s

/-! ## Answers -/

/-- An answer that accepts: the reference it names is adopted, then the row is moved. -/
def recordAcceptance (now : Millis) (d : Delegation) (response : PeerHelpResponse) :
    Except String Unit × ContributionStore :=
  let acceptedRef := response.contributionRef.getD d.contributionRef
  let adopted := s.adoptContributionRef now d.peer d.requestId acceptedRef
  if adopted.1 then
    let accepted := (adopted.2.transitionToAccepted now d.peer d.requestId).2
    (.ok (), accepted.setNotes now d.proxyCardId
      (d.notes.answered d.projectCardId "accepted" acceptedRef response))
  else (.error "Accepted response has a conflicting contribution reference", adopted.2)

def nonStartedDecision (response : PeerHelpResponse) : ContributionState :=
  if response.decision = .declined then
    if response.provesNonCreation = some true then .declined else .unknown
  else .deferred

def decisionText : ContributionState → String
  | .declined => "declined"
  | .deferred => "deferred"
  | _ => "unknown"

def recordNonStarted (rt : Runtime) (s : ContributionStore) (now : Millis) (d : Delegation)
    (response : PeerHelpResponse) : ContributionStore :=
  let decision := nonStartedDecision response
  let moved := (s.transitionToNonStarted now d.peer d.requestId decision).2
  let noted := moved.setNotes now d.proxyCardId
    (d.notes.answered d.projectCardId (decisionText decision) d.contributionRef
      { response with
        remoteRunId := none, remoteCardId := none, remoteGeneration := none
        remoteSessionId := none })
  if d.terminalizeNonStarted ∧ decision = .declined then
    { noted with
      db := kanbanFail rt now d.proxyCardId
        ("peer help " ++ decisionText decision) noted.db }
  else noted

/-- What becomes of a delegation: the answer of the peer, or none where sending it threw. -/
def recordAnswer (rt : Runtime) (s : ContributionStore) (now : Millis) (d : Delegation)
    (answer : Option PeerHelpResponse) : Except String Unit × ContributionStore :=
  match answer with
  | none =>
    (.ok (), (s.transitionToNonStarted now d.peer d.requestId .unknown).2.setNotes now
      d.proxyCardId (unknownNotes d.requestId))
  | some response =>
    if response.decision = .accepted then s.recordAcceptance now d response
    else (.ok (), s.recordNonStarted rt now d response)

/-- `recordAttempt`: the attempts so far, into the notes the card has. -/
def recordAttempts (now : Millis) (cardId : Nat) (attempts : List Json) : ContributionStore :=
  match s.proxies.get cardId with
  | none => s
  | some columns =>
    s.setNotes now cardId (.obj (Json.setMember (noteMembers columns.notes) "attempts"
      (.arr (attempts.drop (attempts.length - 10)))))

def recordBreakdown (now : Millis) (peer requestId : String) (cardId : Nat) : ContributionStore :=
  let moved := (s.transitionToNonStarted now peer requestId .unknown).2
  match moved.proxies.get cardId with
  | none => moved
  | some columns =>
    let members := noteMembers columns.notes
    let attempts := (Json.items? (members.lookup "attempts")).getD []
    moved.setNotes now cardId (.obj (Json.setMember (Json.setMember (Json.setMember members
      "outcome" (.str "unknown")) "request_id" (.str requestId)) "attempts" (.arr attempts)))

end ContributionStore

/-! ## Runs -/

/-- A call on the requester's side, or what the rest of the process does to the board, which may
draw card ids as well. -/
inductive LedgerCall
  | reserve (now : Millis) (generated peer requestId requestHash : String)
      (projectCardId proxyCardId : Option Nat) (rootCriteriaJson : Option Json)
  | reserveProxy (now : Millis) (generated : String) (input : ProxyReservation)
  | createCliProject (admission : CliAdmission) (now : Millis) (generated : String)
      (d : CliDelegation)
  | answer (now : Millis) (d : Delegation) (answer : Option PeerHelpResponse)
  | attempts (now : Millis) (cardId : Nat) (attempts : List Json)
  | breakdown (now : Millis) (peer requestId : String) (cardId : Nat)
  | adoptContributionRef (now : Millis) (peer requestId contributionRef : String)
  | detachProxy (now : Millis) (peer requestId : String)
  | transitionToAccepted (now : Millis) (peer requestId : String)
  | transitionToRunning (now : Millis) (peer requestId : String)
  | transitionToCompleted (now : Millis) (peer requestId : String) (projectionJson : Json)
  | transitionToFailed (now : Millis) (peer requestId : String)
  | transitionToNonStarted (now : Millis) (peer requestId : String) (state : ContributionState)
  | recordWithdrawal (now : Millis) (peer requestId : String)
  | event (now : Millis) (originPeer : String) (raw : Json)
  | board (write : Db → Db) (nextCardId : Nat)

def ledgerStep (rt : Runtime) (s : ContributionStore) : LedgerCall → ContributionStore
  | .reserve now generated peer requestId requestHash projectCardId proxyCardId criteria =>
    (s.reserve now generated peer requestId requestHash projectCardId proxyCardId criteria).2
  | .reserveProxy now generated input => (s.reserveProxy now generated input).2
  | .createCliProject admission now generated d => (s.createCliProject admission now generated d).2
  | .answer now d answer => (s.recordAnswer rt now d answer).2
  | .attempts now cardId attempts => s.recordAttempts now cardId attempts
  | .breakdown now peer requestId cardId => s.recordBreakdown now peer requestId cardId
  | .adoptContributionRef now peer requestId contributionRef =>
    (s.adoptContributionRef now peer requestId contributionRef).2
  | .detachProxy now peer requestId => (s.detachProxy now peer requestId).2
  | .transitionToAccepted now peer requestId => (s.transitionToAccepted now peer requestId).2
  | .transitionToRunning now peer requestId => (s.transitionToRunning now peer requestId).2
  | .transitionToCompleted now peer requestId projection =>
    (s.transitionToCompleted now peer requestId projection).2
  | .transitionToFailed now peer requestId => (s.transitionToFailed now peer requestId).2
  | .transitionToNonStarted now peer requestId state =>
    (s.transitionToNonStarted now peer requestId state).2
  | .recordWithdrawal now peer requestId => (s.recordWithdrawal now peer requestId).2
  | .event now originPeer raw => (s.handleContributionEvent rt now originPeer raw).2
  | .board write nextCardId =>
    { s with db := write s.db, nextCardId := max s.nextCardId nextCardId }

def ledgerRun (rt : Runtime) (calls : List LedgerCall) : ContributionStore :=
  runFrom (ledgerStep rt) .empty calls

end Abtars
