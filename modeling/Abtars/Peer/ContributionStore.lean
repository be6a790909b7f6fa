import Abtars.Peer.ContributionEvent
import Abtars.Peer.HelpStore
import Abtars.Task.CardEffects

/-!
# The ledger of contributions

`ContributionStore`, on the requester's side: one row for each request sent to a peer, one row for
each event applied to it, and the proxy card that shows it on the board.  Decisions of the requester
move a row by conditional updates, each with the states it starts from; `applyEvent` moves it by
what the peer tells, in one transaction with the event row and the proxy.

The proxy's notes are JSON, kept here as the value they read back as; so is the projection of a row.
-/

namespace Abtars

open Lib

inductive ContributionState
  | pending | accepted | running | completed | failed | declined | deferred | unknown
  | withdrawalNoted
  deriving DecidableEq

def ContributionState.isSettled (state : ContributionState) : Bool :=
  state = .completed ∨ state = .failed

/-- A row of `peer_contributions`. -/
structure ContributionRow where
  peer : String
  requestId : String
  requestHash : String
  contributionRef : String
  projectCardId : Option Nat
  proxyCardId : Option Nat
  rootCriteriaJson : Option Json
  state : ContributionState
  lastSequence : Rat
  terminalEventId : Option String
  terminalDigest : Option String
  projectionJson : Option Json
  createdAt : Millis
  updatedAt : Millis

instance : Keyed ContributionRow (String × String) := ⟨fun row => (row.peer, row.requestId)⟩

/-- A row of `peer_contribution_events`. -/
structure ContributionEventRow where
  peer : String
  eventId : String
  requestId : String
  contributionRef : String
  sequence : Rat
  payloadDigest : String
  projectionJson : Option Json
  createdAt : Millis

instance : Keyed ContributionEventRow (String × String) := ⟨fun row => (row.peer, row.eventId)⟩

/-- The columns of a card on `kanban_board` that say what is delegated. -/
structure ProxyColumns where
  cardId : Nat
  goal : String
  notes : Option Json
  sourcePeer : Option String

instance : Keyed ProxyColumns Nat := ⟨ProxyColumns.cardId⟩

structure ContributionStore where
  db : Db
  nextCardId : Nat
  proxies : Table ProxyColumns
  contributions : Table ContributionRow
  events : Table ContributionEventRow

def ContributionStore.empty : ContributionStore where
  db := Db.empty
  nextCardId := 1
  proxies := ∅
  contributions := ∅
  events := ∅

/-! ## Notes -/

structure DelegationNotes where
  peer : String
  goal : String
  requires : List String
  rootCriteria : List String
  executor : String
  requestId : String

def DelegationNotes.reserved (n : DelegationNotes) (contributionRef : String) : Json :=
  .obj [("peer", .str n.peer), ("goal", .str n.goal), ("requires", .ofTexts n.requires),
    ("root_criteria", .ofTexts n.rootCriteria), ("executor", .str n.executor),
    ("request_id", .str n.requestId), ("outcome", .str "pending"),
    ("contribution_ref", .str contributionRef)]

/-- The notes once the peer has answered, with the identifiers of the remote run. -/
def DelegationNotes.answered (n : DelegationNotes) (projectCardId : Option Nat)
    (outcome contributionRef : String) (remote : PeerHelpResponse) : Json :=
  .obj ([("peer", .str n.peer), ("goal", .str n.goal), ("requires", .ofTexts n.requires),
    ("root_criteria", .ofTexts n.rootCriteria),
    ("parent_project_id", projectCardId.elim .null fun id => .num id),
    ("executor", .str n.executor), ("request_id", .str n.requestId), ("outcome", .str outcome),
    ("contribution_ref", .str contributionRef)] ++
    (nonEmpty remote.remoteRunId).elim [] (fun id => [("remote_run_id", .str id)]) ++
    remote.remoteCardId.elim [] (fun id => [("remote_card_id", .num id)]) ++
    remote.remoteGeneration.elim [] (fun g => [("remote_generation", .num g)]) ++
    (nonEmpty remote.remoteSessionId).elim [] fun id => [("remote_session_id", .str id)])

def unknownNotes (requestId : String) : Json :=
  .obj [("outcome", .str "unknown"), ("request_id", .str requestId)]

def terminalNotes (event : PeerContributionEvent) (summary : Option Json) : Json :=
  let provenance (key : String) : Json :=
    ((event.projection.bind (·.member "provenance")).bind (·.member key)).getD .null
  .obj [("outcome", .str event.kind.text), ("summary", summary.getD .null),
    ("receiver_peer", provenance "receiver_peer"),
    ("receiver_project_ref", provenance "receiver_project_ref"),
    ("acceptance_id", provenance "acceptance_id"), ("event_id", .str event.eventId)]

/-! ## Rows and cards -/

structure ProxyReservation where
  peer : String
  requestId : String
  requestHash : String
  projectCardId : Option Nat
  /-- The proxy of an earlier candidate, bound to this one. -/
  proxyCardId : Option Nat
  title : String
  goal : String
  priority : String
  notes : DelegationNotes
  sourcePeer : String

def ProxyReservation.key (input : ProxyReservation) : String × String :=
  (input.peer, input.requestId)

def pendingContribution (now : Millis) (peer requestId requestHash contributionRef : String)
    (projectCardId proxyCardId : Option Nat) (rootCriteriaJson : Option Json) :
    ContributionRow where
  peer := peer
  requestId := requestId
  requestHash := requestHash
  contributionRef := contributionRef
  projectCardId := projectCardId
  proxyCardId := proxyCardId
  rootCriteriaJson := rootCriteriaJson
  state := .pending
  lastSequence := -1
  terminalEventId := none
  terminalDigest := none
  projectionJson := none
  createdAt := now
  updatedAt := now

def proxyCard (now : Millis) (id : Nat) (title requestId : String) (priority : CardPriority)
    (parentId : Option Nat) : KanbanCard :=
  { newCard id "peer" (some "contribution") parentId .running now with
    title := title
    sourceId := some requestId
    priority := priority
    deliveryMode := some "silent" }

def ProxyReservation.rebind (input : ProxyReservation) (card : KanbanCard) : KanbanCard :=
  { card with
    title := input.title
    source := "peer"
    sourceId := some input.requestId
    priority := helpPriority (some input.priority)
    parentId := input.projectCardId }

inductive ReserveProxyResult
  | new (contributionRef : String) (proxyCardId : Nat)
  | replay (contributionRef : String) (proxyCardId : Nat)
  | conflict

inductive ReserveContributionResult
  | new (contributionRef : String)
  | replay (contributionRef : String)
  | conflict

inductive EventResult
  | applied | duplicate | conflict | rejected
  deriving DecidableEq

namespace ContributionStore

/-! ## Reservations -/

variable (s : ContributionStore)

def insertContribution (row : ContributionRow) : Except String ContributionStore :=
  match s.contributions.insert (fun other => other.contributionRef = row.contributionRef) row with
  | none => .error "UNIQUE constraint failed: peer_contributions.contribution_ref"
  | some contributions => .ok { s with contributions := contributions }

def insertCard (card : Nat → KanbanCard) (columns : Nat → ProxyColumns) :
    Except String (Nat × ContributionStore) :=
  match s.db.kanbanBoard.insert (fun _ => false) (card s.nextCardId),
      s.proxies.insert (fun _ => false) (columns s.nextCardId) with
  | some board, some proxies =>
    if s.nextCardId = 0 then .error "Failed to create contribution proxy"
    else
      .ok (s.nextCardId, { s with
        db := { s.db with kanbanBoard := board }
        nextCardId := s.nextCardId + 1
        proxies := proxies })
  | _, _ => .error "UNIQUE constraint failed: kanban_board.id"

def rebindProxy (input : ProxyReservation) (notes : Json) (proxyCardId : Nat) : ContributionStore :=
  { s with
    db := { s.db with kanbanBoard := s.db.kanbanBoard.modify proxyCardId input.rebind }
    proxies := s.proxies.modify proxyCardId fun columns =>
      { columns with
        goal := input.goal, notes := some notes, sourcePeer := some input.sourcePeer } }

variable (now : Millis)

/-- The proxy of a reservation: the one given, bound to the request, or a new card. -/
def reservedProxy (input : ProxyReservation) (contributionRef : String) :
    Except String (Nat × ContributionStore) :=
  let notes := input.notes.reserved contributionRef
  match input.proxyCardId with
  | some id =>
    if id = 0 then .error "Failed to create contribution proxy"
    else .ok (id, s.rebindProxy input notes id)
  | none =>
    s.insertCard
      (fun id => proxyCard now id input.title input.requestId
        (helpPriority (some input.priority)) input.projectCardId)
      fun id => ⟨id, input.goal, some notes, some input.sourcePeer⟩

/-- `reserve`: a row without a card of its own; `generated` is the reference made for it. -/
def reserve (generated : String) (peer requestId requestHash : String)
    (projectCardId proxyCardId : Option Nat) (rootCriteriaJson : Option Json) :
    Except String ReserveContributionResult × ContributionStore :=
  match s.contributions.get (peer, requestId) with
  | some existing =>
    if existing.requestHash ≠ requestHash then (.ok .conflict, s)
    else (.ok (.replay existing.contributionRef), s)
  | none =>
    match s.insertContribution (pendingContribution now peer requestId requestHash generated
        projectCardId proxyCardId rootCriteriaJson) with
    | .error e => (.error e, s)
    | .ok s' => (.ok (.new generated), s')

def reserveProxyBody (generated : String) (input : ProxyReservation) :
    Body ContributionStore String ReserveProxyResult := fun s =>
  match s.contributions.get input.key with
  | some existing =>
    if existing.requestHash ≠ input.requestHash then .ok (.conflict, s)
    else
      match existing.proxyCardId.filter (· ≠ 0) with
      | some proxyCardId => .ok (.replay existing.contributionRef proxyCardId, s)
      | none =>
        (s.reservedProxy now input existing.contributionRef).bind fun reserved =>
        .ok (.replay existing.contributionRef reserved.1, { reserved.2 with
          contributions := (reserved.2.contributions.cas input.key
            (fun row => row.proxyCardId = none)
            fun row => { row with proxyCardId := some reserved.1, updatedAt := now }).2 })
  | none =>
    (s.reservedProxy now input generated).bind fun reserved =>
    (reserved.2.insertContribution (pendingContribution now input.peer input.requestId
      input.requestHash generated input.projectCardId (some reserved.1)
      (some (.ofTexts input.notes.rootCriteria)))).bind fun s' =>
    .ok (.new generated reserved.1, s')

def reserveProxy (generated : String) (input : ProxyReservation) :
    Except String ReserveProxyResult × ContributionStore :=
  transaction (reserveProxyBody now generated input) s

/-! ## Decisions of the requester -/

variable (peer : String) (requestId : String)

def moveRow (fromStates : List ContributionState) (write : ContributionRow → ContributionRow)
    (hkey : ∀ row, Keyed.key (write row) = Keyed.key row := by intro _; exact Eq.trans rfl rfl) :
    Bool × ContributionStore :=
  let moved := s.contributions.cas (peer, requestId) (fun row => row.state ∈ fromStates) write hkey
  (moved.1, { s with contributions := moved.2 })

def transitionState (fromStates : List ContributionState) (toState : ContributionState) :
    Bool × ContributionStore :=
  s.moveRow peer requestId fromStates fun row => { row with state := toState, updatedAt := now }

def transitionToAccepted : Bool × ContributionStore :=
  s.transitionState now peer requestId [.pending, .unknown] .accepted

def transitionToRunning : Bool × ContributionStore :=
  s.transitionState now peer requestId [.accepted] .running

def transitionToCompleted (projectionJson : Json) : Bool × ContributionStore :=
  s.moveRow peer requestId [.accepted, .running] fun row =>
    { row with state := .completed, projectionJson := some projectionJson, updatedAt := now }

def transitionToFailed : Bool × ContributionStore :=
  s.transitionState now peer requestId [.accepted, .running] .failed

def transitionToNonStarted (state : ContributionState) : Bool × ContributionStore :=
  if state ∈ [.declined, .deferred, .unknown] then
    s.transitionState now peer requestId [.pending, .unknown] state
  else (false, s)

def recordWithdrawal : Bool × ContributionStore :=
  s.transitionState now peer requestId [.accepted, .running] .withdrawalNoted

def adoptContributionRef (contributionRef : String) : Bool × ContributionStore :=
  match s.contributions.get (peer, requestId) with
  | none => (false, s)
  | some row =>
    if row.contributionRef = contributionRef then (true, s)
    -- another row that has the reference is a row of another request
    else if s.contributions.rows.any (·.contributionRef = contributionRef) then (false, s)
    else
      s.moveRow peer requestId [.pending, .accepted, .unknown] fun row =>
        { row with contributionRef := contributionRef, updatedAt := now }

def detachProxy : Bool × ContributionStore :=
  s.moveRow peer requestId [.declined, .deferred, .unknown] fun row =>
    { row with proxyCardId := none, updatedAt := now }

/-- `kanbanUpdate` of the notes. -/
def setNotes (cardId : Nat) (notes : Json) : ContributionStore :=
  { s with
    db := { s.db with
      kanbanBoard := s.db.kanbanBoard.modify cardId fun card => { card with updatedAt := now } }
    proxies := s.proxies.modify cardId fun columns => { columns with notes := some notes } }

/-! ## Events -/

/-- `event.summary?.slice(0, 1000)`: what has no `slice` throws. -/
def cutSummary : Option Json → Except String (Option Json)
  | none | some .null => .ok none
  | some (.str text) => .ok (some (.str (sliceText text 1000)))
  | some (.arr items) => .ok (some (.arr (items.take 1000)))
  | some _ => .error "event.summary?.slice is not a function"

variable (rt : Runtime)

def settleProxy (now : Millis) (event : PeerContributionEvent) (cardId : Nat)
    (summary : Option Json) (db : Db) : Except String Db :=
  match event.kind, summary with
  | .completed, some (.str text) => .ok (kanbanComplete rt now cardId none text db)
  -- an array gets as far as the update of a card that exists
  | .completed, some (.arr _) =>
    if db.kanbanBoard.has cardId then .error "Too many parameter values were provided"
    else .ok db
  | .completed, _ => .ok (kanbanComplete rt now cardId none "contribution completed" db)
  | _, _ => .ok (kanbanFail rt now cardId "contribution failed" db)

/-- The proxy transition and the view on it, where a terminal event meets a proxy. -/
def projectTerminal (now : Millis) (event : PeerContributionEvent) (proxyCardId : Option Nat)
    (s : ContributionStore) : Except String ContributionStore :=
  match proxyCardId.filter fun id => id ≠ 0 ∧ event.kind.isTerminal with
  | none => .ok s
  | some cardId =>
    (cutSummary event.summary).bind fun summary =>
    (settleProxy rt now event cardId summary s.db).bind fun db =>
    .ok (setNotes { s with db := db } now cardId (terminalNotes event summary))

variable (event : PeerContributionEvent) (payloadDigest : String)

def eventWrite (projectionJson : Option Json) (row : ContributionRow) : ContributionRow :=
  match event.kind with
  | .completed | .failed =>
    { row with
      state := if event.kind = .completed then .completed else .failed
      lastSequence := event.sequence
      terminalEventId := some event.eventId
      terminalDigest := some payloadDigest
      projectionJson := projectionJson
      updatedAt := now }
  | .progress | .withdrawalNoted =>
    { row with state := .running, lastSequence := event.sequence, updatedAt := now }

theorem key_eventWrite (projectionJson : Option Json) (row : ContributionRow) :
    Keyed.key (eventWrite now event payloadDigest projectionJson row) = Keyed.key row := by
  unfold eventWrite
  split <;> rfl

def eventRow (projectionJson : Option Json) :
    ContributionEventRow where
  peer := peer
  eventId := event.eventId
  requestId := event.requestId
  contributionRef := event.contributionRef
  sequence := event.sequence
  payloadDigest := payloadDigest
  projectionJson := projectionJson
  createdAt := now

def writeEvent (now : Millis) (peer : String) (event : PeerContributionEvent)
    (payloadDigest : String) (projectionJson : Option Json) (row : ContributionRow) :
    Body ContributionStore String EventResult := fun s =>
  let landed := s.contributions.cas (peer, event.requestId)
    (fun current => !current.state.isSettled && current.lastSequence = row.lastSequence)
    (eventWrite now event payloadDigest projectionJson)
    (key_eventWrite now event payloadDigest projectionJson)
  if landed.1 then
    match s.events.insert (fun _ => false)
        (eventRow now peer event payloadDigest projectionJson) with
    | none => .error "UNIQUE constraint failed: peer_contribution_events.event_id"
    | some events =>
      (projectTerminal rt now event row.proxyCardId
        { s with contributions := landed.2, events := events }).bind fun s' =>
      .ok (.applied, s')
  else .ok (.conflict, s)

def applyEventBody (now : Millis) (peer : String) (event : PeerContributionEvent)
    (payloadDigest : String) (projectionJson : Option Json) :
    Body ContributionStore String EventResult := fun s =>
  match s.contributions.get (peer, event.requestId) with
  | none => .ok (.rejected, s)
  | some row =>
    if row.contributionRef ≠ event.contributionRef then .ok (.rejected, s)
    else if row.state.isSettled then
      if row.terminalEventId = some event.eventId ∧ row.terminalDigest = some payloadDigest then
        .ok (.duplicate, s)
      else .ok (.conflict, s)
    else
      match s.events.get (peer, event.eventId) with
      | some existing =>
        if existing.requestId = event.requestId ∧
            existing.contributionRef = event.contributionRef ∧
            existing.sequence = event.sequence ∧ existing.payloadDigest = payloadDigest then
          .ok (.duplicate, s)
        else .ok (.conflict, s)
      | none =>
        if event.sequence ≤ row.lastSequence then .ok (.conflict, s)
        else writeEvent rt now peer event payloadDigest projectionJson row s

def applyEvent (s : ContributionStore) (now : Millis) (peer : String)
    (event : PeerContributionEvent) (payloadDigest : String) (projectionJson : Option Json) :
    Except String EventResult × ContributionStore :=
  if event.kind.isTerminal ∧ projectionJson.isNone then (.ok .rejected, s)
  else transaction (applyEventBody rt now peer event payloadDigest projectionJson) s

def receivedEvent (originPeer : String) (raw : Json) : Option PeerContributionEvent :=
  match parseContributionEvent rt raw with
  | .error _ => none
  | .ok event =>
    match event.projection with
    | none => some event
    | some projection =>
      if Json.text? ((projection.member "provenance").bind (·.member "receiver_peer")) =
          some originPeer then some event
      else none

/-- `PeerHelpService.handleContributionEvent`; the result is none for an event that is dropped. -/
def handleContributionEvent (s : ContributionStore) (now : Millis) (originPeer : String)
    (raw : Json) : Option (Except String EventResult) × ContributionStore :=
  match receivedEvent rt originPeer raw with
  | none => (none, s)
  | some event =>
    let result := s.applyEvent rt now originPeer event (contributionEventDigest rt event)
      event.projection
    (some result.1, result.2)

end ContributionStore

end Abtars
