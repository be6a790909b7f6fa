import Abtars.Lib.CompareAndSet
import Abtars.Lib.Run
import Abtars.Lib.Transaction
import Abtars.Database

/-!
# The ledger of peer help requests

`PeerHelpStore`: one row for each request id of a peer, from its reservation to the decision on it.
`acceptGeneric` inserts the card, has the project admitted and accepts the row in one transaction;
a throw takes all of it back.  The port that admits a project is a parameter that reads the
database and gives the runner's tables, which are all it writes.
-/

namespace Abtars

open Lib

/-! ## Requests and responses -/

inductive HelpDecision
  | accepted | declined | deferred
  deriving DecidableEq

/-- `PeerHelpResponseV1`; the ledger keeps its JSON text, which reads back as the response. -/
structure PeerHelpResponse where
  requestId : String
  decision : HelpDecision
  contributionRef : Option String
  reasonCode : Option String
  reason : Option String
  retryAfter : Option String
  provesNonCreation : Option Bool
  remoteRunId : Option String
  remoteCardId : Option Int
  remoteGeneration : Option Int
  remoteSessionId : Option String

inductive HelpRowState
  | pending | accepted | declined | deferred | unknown
  deriving DecidableEq

def HelpDecision.rowState : HelpDecision → HelpRowState
  | .accepted => .accepted
  | .declined => .declined
  | .deferred => .deferred

def HelpRowState.isDecided (state : HelpRowState) : Bool :=
  state = .accepted ∨ state = .declined ∨ state = .deferred

/-- A row of `peer_help_requests`. -/
structure PeerHelpRow where
  originPeer : String
  requestId : String
  requestHash : String
  state : HelpRowState
  contributionRef : Option String
  localCardId : Option Nat
  localRunId : Option String
  responseJson : Option PeerHelpResponse
  withdrawnAt : Option Millis
  createdAt : Millis
  updatedAt : Millis

instance : Keyed PeerHelpRow (String × String) := ⟨fun row => (row.originPeer, row.requestId)⟩

structure HelpNotes where
  originPeer : String
  requestId : String
  contributionRef : String
  helpDecision : HelpDecision

/-- The columns of a row of `kanban_board` that say what a peer asked for. -/
structure HelpColumns where
  cardId : Nat
  goal : String
  notes : HelpNotes
  sourcePeer : String

instance : Keyed HelpColumns Nat := ⟨HelpColumns.cardId⟩

@[simp]
theorem key_helpColumns (columns : HelpColumns) : Keyed.key columns = columns.cardId := rfl

/-- The store: its database, the sequence of card ids, and the cards whose `card:queued` was
fired, newest first. -/
structure PeerHelpStore where
  db : Db
  nextCardId : Nat
  helpColumns : Table HelpColumns
  requests : Table PeerHelpRow
  fired : List Nat

structure HelpReservation where
  originPeer : String
  requestId : String
  requestHash : String

def HelpReservation.key (r : HelpReservation) : String × String := (r.originPeer, r.requestId)

structure HelpCardInput where
  goal : String
  title : String
  sourcePeer : String
  sourceId : String
  deliveryMode : String
  priority : Option String

structure AcceptedHelp where
  contributionRef : String
  localCardId : Nat

structure RunnerTables where
  workflowRuns : Table WorkflowRunRow
  projectSupervision : Table ProjectSupervisionRow

/-- `admitReceiverProject`, given a card, the peer and the request: what it throws or writes. -/
abbrev ReceiverProjectAdmission := Nat → String → String → Db → Except String RunnerTables

/-! ## Cards and rows -/

/-- `toUpperCase` of one letter, as far as the letters of the priorities go. -/
def upperLetter (c : Char) : Char := if c = 'ı' then 'I' else c.toUpper

def helpPriority (priority : Option String) : CardPriority :=
  match priority.map (·.map upperLetter) with
  | some "CRITICAL" => .critical
  | some "HIGH" => .high
  | some "LOW" => .low
  | _ => .medium

def helpDeliveryMode (mode : String) : String := if mode = "report" then "deliver" else mode

def helpCard (now : Millis) (id : Nat) (card : HelpCardInput) : KanbanCard :=
  { newCard id "peer" (some "O") none .queued now with
    title := card.title
    sourceId := some card.sourceId
    priority := helpPriority card.priority
    deliveryMode := some (helpDeliveryMode card.deliveryMode) }

def helpCardColumns (id : Nat) (r : HelpReservation) (contributionRef : String)
    (card : HelpCardInput) : HelpColumns where
  cardId := id
  goal := card.goal
  notes := ⟨r.originPeer, r.requestId, contributionRef, .accepted⟩
  sourcePeer := card.sourcePeer

inductive HelpLink
  | card (id : Nat)
  | run (id : String)

def acceptedRow (now : Millis) (contributionRef : String) (link : HelpLink)
    (response : PeerHelpResponse) (row : PeerHelpRow) : PeerHelpRow :=
  { row with
    state := .accepted
    contributionRef := some contributionRef
    localCardId := match link with
      | .card id => some id
      | .run _ => row.localCardId
    localRunId := match link with
      | .card _ => row.localRunId
      | .run id => some id
    responseJson := some response
    updatedAt := now }

/-! ## Reservations -/

inductive ReserveHelpResult
  | new
  /-- Without a response it is the empty object. -/
  | replay (response : Option PeerHelpResponse) (contributionRef : Option String)
  | conflict
  | inFlight

def pendingRow (now : Millis) (originPeer requestId requestHash : String) : PeerHelpRow where
  originPeer := originPeer
  requestId := requestId
  requestHash := requestHash
  state := .pending
  contributionRef := none
  localCardId := none
  localRunId := none
  responseJson := none
  withdrawnAt := none
  createdAt := now
  updatedAt := now

namespace PeerHelpStore

variable (s : PeerHelpStore)

def reserve (now : Millis) (originPeer requestId requestHash : String) :
    ReserveHelpResult × PeerHelpStore :=
  match s.requests.get (originPeer, requestId) with
  | some existing =>
    if existing.requestHash ≠ requestHash then (.conflict, s)
    else if existing.state.isDecided then
      (.replay existing.responseJson existing.contributionRef, s)
    else (.inFlight, s)
  | none =>
    (.new, { s with
      requests := s.requests.insertOrIgnore (fun _ => false)
        (pendingRow now originPeer requestId requestHash) })

/-! ## Acceptance -/

/-- The check both acceptances start with; they name the kind of request they are for. -/
def checkPending (kind : String) (r : HelpReservation) : Except String Unit :=
  match s.requests.get r.key with
  | none => .error ("Cannot accept non-pending " ++ kind ++ " " ++ r.requestId)
  | some row =>
    if row.state ≠ .pending then
      .error ("Cannot accept non-pending " ++ kind ++ " " ++ r.requestId)
    else if row.requestHash ≠ r.requestHash then
      .error ("Request hash mismatch for " ++ r.requestId)
    else .ok ()

def insertHelpCard (now : Millis) (r : HelpReservation) (contributionRef : String)
    (card : HelpCardInput) : Except String (Nat × PeerHelpStore) :=
  match s.db.kanbanBoard.insert (fun _ => false) (helpCard now s.nextCardId card),
      s.helpColumns.insert (fun _ => false)
        (helpCardColumns s.nextCardId r contributionRef card) with
  | some board, some columns =>
    if s.nextCardId = 0 then .error "Failed to insert help card"
    else
      .ok (s.nextCardId, { s with
        db := { s.db with kanbanBoard := board }
        nextCardId := s.nextCardId + 1
        helpColumns := columns })
  | _, _ => .error "UNIQUE constraint failed: kanban_board.id"

variable (admission : Option ReceiverProjectAdmission)

def admitProject (r : HelpReservation) (cardId : Nat) : Except String PeerHelpStore :=
  match admission with
  | none => .error "receiver project admission unavailable"
  | some admission =>
    match admission cardId r.originPeer r.requestId s.db with
    | .error e => .error e
    | .ok tables =>
      .ok { s with
        db := { s.db with
          workflowRuns := tables.workflowRuns
          projectSupervision := tables.projectSupervision } }

def acceptRow (now : Millis) (r : HelpReservation) (contributionRef : String) (link : HelpLink)
    (response : PeerHelpResponse) : Except String PeerHelpStore :=
  if s.requests.rows.any
      (fun row => row.contributionRef = some contributionRef ∧ Keyed.key row ≠ r.key) then
    .error "UNIQUE constraint failed: peer_help_requests.contribution_ref"
  else
    .ok { s with requests := s.requests.modify r.key (acceptedRow now contributionRef link response) }

def acceptGenericBody (now : Millis) (r : HelpReservation) (contributionRef : String)
    (card : HelpCardInput) (response : PeerHelpResponse) : Body PeerHelpStore String Nat := fun s =>
  (s.checkPending "request" r).bind fun _ =>
  (s.insertHelpCard now r contributionRef card).bind fun inserted =>
  -- the admission reads a database that already has the card
  (inserted.2.admitProject admission r inserted.1).bind fun admitted =>
  (admitted.acceptRow now r contributionRef (.card inserted.1) response).bind fun accepted =>
  .ok (inserted.1, accepted)

/-- The acceptance of work on a card; `generated` is what `generateContributionRef` gives. -/
def acceptGeneric (now : Millis) (generated : String) (r : HelpReservation) (card : HelpCardInput)
    (response : PeerHelpResponse) : Except String AcceptedHelp × PeerHelpStore :=
  let contributionRef := response.contributionRef.getD generated
  match transaction (acceptGenericBody admission now r contributionRef card response) s with
  | (.error e, s') => (.error e, s')
  | (.ok cardId, s') => (.ok ⟨contributionRef, cardId⟩, { s' with fired := cardId :: s'.fired })

def acceptPiBody (now : Millis) (r : HelpReservation) (contributionRef runId : String)
    (response : PeerHelpResponse) : Body PeerHelpStore String Unit := fun s =>
  (s.checkPending "Pi request" r).bind fun _ =>
  (s.acceptRow now r contributionRef (.run runId) response).bind fun accepted =>
  .ok ((), accepted)

def acceptPi (now : Millis) (generated : String) (r : HelpReservation) (runId : String)
    (response : PeerHelpResponse) : Except String Unit × PeerHelpStore :=
  transaction (acceptPiBody now r (response.contributionRef.getD generated) runId response) s

/-! ## Decisions without an acceptance -/

def completeDecision (now : Millis) (originPeer requestId : String) (decision : HelpDecision)
    (response : PeerHelpResponse) : PeerHelpStore :=
  { s with
    requests := (s.requests.cas (originPeer, requestId) (fun row => row.state = .pending)
      fun row =>
        { row with
          state := decision.rowState, responseJson := some response, updatedAt := now }).2 }

def markUnknown (now : Millis) (originPeer requestId : String) : PeerHelpStore :=
  { s with
    requests := (s.requests.cas (originPeer, requestId) (fun row => row.state = .pending)
      fun row => { row with state := .unknown, updatedAt := now }).2 }

end PeerHelpStore

/-! ## Runs -/

inductive HelpCall
  | reserve (now : Millis) (originPeer requestId requestHash : String)
  | acceptGeneric (admission : Option ReceiverProjectAdmission) (now : Millis) (generated : String)
      (r : HelpReservation) (card : HelpCardInput) (response : PeerHelpResponse)
  | acceptPi (now : Millis) (generated : String) (r : HelpReservation) (runId : String)
      (response : PeerHelpResponse)
  | completeDecision (now : Millis) (originPeer requestId : String) (decision : HelpDecision)
      (response : PeerHelpResponse)
  | markUnknown (now : Millis) (originPeer requestId : String)

def helpStep (s : PeerHelpStore) : HelpCall → PeerHelpStore
  | .reserve now originPeer requestId requestHash =>
    (s.reserve now originPeer requestId requestHash).2
  | .acceptGeneric admission now generated r card response =>
    (s.acceptGeneric admission now generated r card response).2
  | .acceptPi now generated r runId response => (s.acceptPi now generated r runId response).2
  | .completeDecision now originPeer requestId decision response =>
    s.completeDecision now originPeer requestId decision response
  | .markUnknown now originPeer requestId => s.markUnknown now originPeer requestId

def helpRun (s : PeerHelpStore) (calls : List HelpCall) : PeerHelpStore :=
  runFrom helpStep s calls

def requestCards (s : PeerHelpStore) (originPeer requestId : String) : List KanbanCard :=
  s.db.kanbanBoard.select fun card =>
    (s.helpColumns.get card.id).any fun columns =>
      columns.notes.originPeer = originPeer ∧ columns.notes.requestId = requestId

/-! ## What the transactions write -/

namespace PeerHelpStore

variable {s s' : PeerHelpStore} {now : Millis} {r : HelpReservation} {contributionRef : String}

theorem checkPending_ok {kind : String} (h : s.checkPending kind r = .ok ()) :
    ∃ row, s.requests.get r.key = some row ∧ row.state = .pending ∧
      row.requestHash = r.requestHash := by
  rw [checkPending] at h
  split at h
  · cases h
  rename_i row hget
  split at h
  · cases h
  rename_i hpending
  split at h
  · cases h
  · rename_i hhash
    exact ⟨row, hget, not_not.1 hpending, not_not.1 hhash⟩

theorem insertHelpCard_ok {card : HelpCardInput} {id : Nat}
    (h : s.insertHelpCard now r contributionRef card = .ok (id, s')) :
    ∃ board columns,
      s.db.kanbanBoard.insert (fun _ => false) (helpCard now id card) = some board ∧
      s.helpColumns.insert (fun _ => false) (helpCardColumns id r contributionRef card) =
        some columns ∧
      s' = { s with
        db := { s.db with kanbanBoard := board }
        nextCardId := s.nextCardId + 1
        helpColumns := columns } := by
  rw [insertHelpCard] at h
  split at h
  · rename_i board columns hboard hcolumns
    split at h
    · cases h
    · cases h
      exact ⟨board, columns, hboard, hcolumns, rfl⟩
  · cases h

theorem admitProject_ok {admission : Option ReceiverProjectAdmission} {cardId : Nat}
    (h : s.admitProject admission r cardId = .ok s') :
    ∃ tables : RunnerTables, s' = { s with
      db := { s.db with
        workflowRuns := tables.workflowRuns
        projectSupervision := tables.projectSupervision } } := by
  unfold admitProject at h
  split at h
  · cases h
  split at h
  · cases h
  · cases h
    exact ⟨_, rfl⟩

theorem acceptRow_ok {link : HelpLink} {response : PeerHelpResponse}
    (h : s.acceptRow now r contributionRef link response = .ok s') :
    s' = { s with
      requests := s.requests.modify r.key (acceptedRow now contributionRef link response) } := by
  rw [acceptRow] at h
  split at h
  · cases h
  · cases h
    rfl

theorem acceptGenericBody_ok {admission : Option ReceiverProjectAdmission} {card : HelpCardInput}
    {response : PeerHelpResponse} {id : Nat}
    (h : acceptGenericBody admission now r contributionRef card response s = .ok (id, s')) :
    ∃ row board columns,
      s.requests.get r.key = some row ∧ row.state = .pending ∧ row.requestHash = r.requestHash ∧
      s.db.kanbanBoard.insert (fun _ => false) (helpCard now id card) = some board ∧
      s.helpColumns.insert (fun _ => false) (helpCardColumns id r contributionRef card) =
        some columns ∧
      s'.db.kanbanBoard = board ∧ s'.helpColumns = columns ∧
      s'.requests =
        s.requests.modify r.key (acceptedRow now contributionRef (.card id) response) := by
  obtain ⟨⟨⟩, hcheck, h⟩ := bind_eq_ok.1 h
  obtain ⟨⟨cardId, inserted⟩, hinsert, h⟩ := bind_eq_ok.1 h
  obtain ⟨admitted, hadmit, h⟩ := bind_eq_ok.1 h
  obtain ⟨accepted, haccept, h⟩ := bind_eq_ok.1 h
  cases h
  obtain ⟨row, hget, hpending, hhash⟩ := checkPending_ok hcheck
  obtain ⟨board, columns, hboard, hcolumns, rfl⟩ := insertHelpCard_ok hinsert
  obtain ⟨tables, rfl⟩ := admitProject_ok hadmit
  obtain rfl := acceptRow_ok haccept
  exact ⟨row, board, columns, hget, hpending, hhash, hboard, hcolumns, rfl, rfl, rfl⟩

theorem acceptGeneric_cases (s : PeerHelpStore) (admission : Option ReceiverProjectAdmission)
    (now : Millis) (generated : String) (r : HelpReservation) (card : HelpCardInput)
    (response : PeerHelpResponse) :
    (∃ e, s.acceptGeneric admission now generated r card response = (.error e, s)) ∨
    ∃ id s', acceptGenericBody admission now r (response.contributionRef.getD generated) card
        response s = .ok (id, s') ∧
      (s.acceptGeneric admission now generated r card response).2 =
        { s' with fired := id :: s'.fired } := by
  rw [acceptGeneric]
  cases hbody : acceptGenericBody admission now r (response.contributionRef.getD generated) card
      response s with
  | error e =>
    rw [transaction_of_error hbody]
    exact .inl ⟨e, rfl⟩
  | ok result =>
    rw [transaction_of_ok hbody]
    exact .inr ⟨result.1, result.2, rfl, rfl⟩

theorem acceptPi_cases (s : PeerHelpStore) (now : Millis) (generated : String)
    (r : HelpReservation) (runId : String) (response : PeerHelpResponse) :
    (∃ e, s.acceptPi now generated r runId response = (.error e, s)) ∨
    ∃ row, s.requests.get r.key = some row ∧ row.state = .pending ∧
      row.requestHash = r.requestHash ∧
      (s.acceptPi now generated r runId response).2 = { s with
        requests := s.requests.modify r.key
          (acceptedRow now (response.contributionRef.getD generated) (.run runId) response) } := by
  rw [acceptPi]
  cases hbody : acceptPiBody now r (response.contributionRef.getD generated) runId response s with
  | error e =>
    rw [transaction_of_error hbody]
    exact .inl ⟨e, rfl⟩
  | ok result =>
    rw [transaction_of_ok hbody]
    obtain ⟨⟨⟩, hcheck, hrest⟩ := bind_eq_ok.1 hbody
    obtain ⟨accepted, haccept, hrest⟩ := bind_eq_ok.1 hrest
    cases hrest
    obtain ⟨row, hget, hpending, hhash⟩ := checkPending_ok hcheck
    exact .inr ⟨row, hget, hpending, hhash, acceptRow_ok haccept⟩

theorem acceptGeneric_of_hash_ne {row : PeerHelpRow} (hget : s.requests.get r.key = some row)
    (hne : r.requestHash ≠ row.requestHash) (admission : Option ReceiverProjectAdmission)
    (now : Millis) (generated : String) (card : HelpCardInput) (response : PeerHelpResponse) :
    ∃ e, s.acceptGeneric admission now generated r card response = (.error e, s) := by
  rcases acceptGeneric_cases s admission now generated r card response with
    hthrown | ⟨id, s', hbody, -⟩
  · exact hthrown
  · obtain ⟨row', _, _, hget', -, hhash, -⟩ := acceptGenericBody_ok hbody
    obtain rfl : row = row' := Option.some.inj (hget.symm.trans hget')
    exact absurd hhash.symm hne

theorem acceptPi_of_hash_ne {row : PeerHelpRow} (hget : s.requests.get r.key = some row)
    (hne : r.requestHash ≠ row.requestHash) (now : Millis) (generated runId : String)
    (response : PeerHelpResponse) :
    ∃ e, s.acceptPi now generated r runId response = (.error e, s) := by
  rcases acceptPi_cases s now generated r runId response with hthrown | ⟨row', hget', -, hhash, -⟩
  · exact hthrown
  · obtain rfl : row = row' := Option.some.inj (hget.symm.trans hget')
    exact absurd hhash.symm hne

end PeerHelpStore

end Abtars
