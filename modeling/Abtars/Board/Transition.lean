import Abtars.Database

/-!
# The single status-transition choke point

`kanbanTransition` is the only writer of `kanban_board.status`.  It refuses an
illegal declared pair by throwing, and otherwise performs one compare-and-set
against the declared from-set: a won change is journaled and may queue a peer
callback, a reassertion only co-writes fields, and a lost change writes nothing.
-/

namespace Abtars

open Lib

/-! ## Requests and outcomes -/

structure PeerCallbackIntent where
  peer : String
  status : CallbackStatus
  resultSummary : Option String
  error : Option String
  tokensUsed : Option Int
  artifacts : List CallbackArtifact

inductive FieldWrite
  | error (value : Option String)
  | resultPath (value : Option String)
  | resultSummary (value : Option String)
  | retryCount (value : Option Int)
  | nextRetryAt (value : Option Millis)
  | deliveryAttempts (value : Option Int)
  | deliveryResult (value : Option DeliveryResult)
  | deliveryReceipt (value : Option String)
  | completedAt (value : Option Millis)
  | deliveredAt (value : Option Millis)

def FieldWrite.apply (card : KanbanCard) : FieldWrite → KanbanCard
  | .error v => { card with error := v }
  | .resultPath v => { card with resultPath := v }
  | .resultSummary v => { card with resultSummary := v }
  | .retryCount v => { card with retryCount := v }
  | .nextRetryAt v => { card with nextRetryAt := v }
  | .deliveryAttempts v => { card with deliveryAttempts := v }
  | .deliveryResult v => { card with deliveryResult := v }
  | .deliveryReceipt v => { card with deliveryReceipt := v }
  | .completedAt v => { card with completedAt := v }
  | .deliveredAt v => { card with deliveredAt := v }

inductive ExtraPredicate
  | deliveryAttemptsBelowCap
  | nextRetryDue (nowSeconds : Int)
  | deliveryResultNull
  | scheduledDeliveryClaim (sourceId : String) (generation : Int) (runId : String)
  | projectDeliveryClaim (generation : Int)
  | scheduledRootCompletion (sourceId : String) (generation : Int) (runId : String)
  | rootCompletion (generation : Int)
  | scheduledRootFailure (sourceId : String) (generation : Int)
  | rootFailure (generation : Int)
  | runnerRootRunning (generation : Int) (runId : String) (scheduledRunId : Option String)

structure TransitionRequest where
  cardId : Nat
  fromSet : List CardStatus
  toStatus : CardStatus
  actor : TransitionActor
  reason : String
  attemptId : Option String
  claimGeneration : Option Int
  outboxCallback : Option PeerCallbackIntent
  fields : List FieldWrite
  extraPredicate : Option ExtraPredicate

inductive TransitionOutcome
  | applied (from_ : CardStatus)
  | reasserted (observed : CardStatus)
  | noOp (observed : Option CardStatus)
  deriving DecidableEq

/-! ## The compare-and-set -/

def legalTransitions : CardStatus → List CardStatus
  | .queued => [.running, .failed, .done]
  | .running => [.done, .failed, .queued]
  | .done => [.delivering, .queued, .failed]
  | .failed => [.queued]
  | .delivering => [.delivered, .done]
  | .delivered => []

def maxTransitionsPerCard : Nat := 200
def maxJournalReason : Nat := 300
def peerCallbackArtifactMax : Nat := 20
def peerCallbackArtifactContentMax : Nat := 2000

def illegalPair (req : TransitionRequest) : Option CardStatus :=
  req.fromSet.find? fun s => s ≠ req.toStatus ∧ req.toStatus ∉ legalTransitions s

def declarationError (req : TransitionRequest) : Option String :=
  if req.fromSet = [] then
    some ("illegal kanban transition: empty from-set (" ++ req.toStatus.text ++ ") (" ++
      req.actor.text ++ ")")
  else
    (illegalPair req).map fun s =>
      "illegal kanban transition: " ++ s.text ++ " -> " ++ req.toStatus.text ++ " (" ++
        req.actor.text ++ ")"

def supervisedAt (db : Db) (cardId : Nat) (generation : Int)
    (stateOk : ProjectState → Bool) : Bool :=
  match db.projectSupervision.get cardId with
  | none => false
  | some ps => ps.generation = generation ∧ stateOk ps.state

def taskRunIs (db : Db) (runId : String) (p : TaskRunRow → Bool) : Bool :=
  match db.taskRuns.get runId with
  | none => false
  | some run => p run

/-- A scheduled root runs under its own live task run, any other root under none. -/
def runnerScheduleMatches (db : Db) (card : KanbanCard) : Option String → Bool
  | none =>
    match card.sourceId with
    | none => true
    | some sourceId => card.source ≠ "task" ∨ sourceId = ""
  | some scheduled =>
    card.source = "task" ∧ card.sourceId = some scheduled ∧ scheduled ≠ "" ∧
      taskRunIs db scheduled fun run => run.finishedAt = none

def runnerRunMatches (db : Db) (card : KanbanCard) (runId : String)
    (scheduledRunId : Option String) : Bool :=
  match db.workflowRuns.get runId with
  | none => false
  | some wr =>
    wr.rootCardId = card.id ∧ wr.scheduledRunId = scheduledRunId ∧
    wr.state ≠ .succeeded ∧ wr.state ≠ .failed ∧ wr.state ≠ .cancelled ∧
    runnerScheduleMatches db card wr.scheduledRunId

def isRootType (card : KanbanCard) : Bool := card.type = some "O"

def deliveryBelowCap (card : KanbanCard) : Bool := card.deliveryAttempts.getD 0 < 5

def ExtraPredicate.holds (db : Db) (card : KanbanCard) : ExtraPredicate → Bool
  | .deliveryAttemptsBelowCap => deliveryBelowCap card
  | .nextRetryDue nowSeconds =>
    match card.nextRetryAt with
    | none => false
    | some at_ => at_ / 1000 ≤ nowSeconds
  | .deliveryResultNull => card.deliveryResult = none
  | .scheduledDeliveryClaim sourceId generation runId =>
    isRootType card ∧ card.source = "task" ∧ deliveryBelowCap card ∧
    card.deliveryReady = 1 ∧ card.sourceId = some sourceId ∧
    supervisedAt db card.id generation (· = .accepted) ∧
    taskRunIs db runId fun run => run.finishedAt.isSome ∧ run.outcome = some "success"
  | .projectDeliveryClaim generation =>
    isRootType card ∧ card.source ≠ "task" ∧ deliveryBelowCap card ∧
    card.deliveryReady = 1 ∧ supervisedAt db card.id generation (· = .accepted)
  | .scheduledRootCompletion sourceId generation runId =>
    isRootType card ∧ card.source = "task" ∧ card.sourceId = some sourceId ∧
    supervisedAt db card.id generation (· = .accepted) ∧
    taskRunIs db runId fun run => run.finishedAt.isSome
  | .rootCompletion generation =>
    isRootType card ∧ card.source ≠ "task" ∧
    supervisedAt db card.id generation (· = .accepted)
  | .scheduledRootFailure sourceId generation =>
    isRootType card ∧ card.source = "task" ∧ card.sourceId = some sourceId ∧
    supervisedAt db card.id generation fun _ => true
  | .rootFailure generation =>
    isRootType card ∧ card.source ≠ "task" ∧
    supervisedAt db card.id generation fun _ => true
  | .runnerRootRunning generation runId scheduledRunId =>
    isRootType card ∧
    supervisedAt db card.id generation (fun s => s = .executing ∨ s = .repairing) ∧
    runnerRunMatches db card runId scheduledRunId

def extraHolds (db : Db) (card : KanbanCard) (req : TransitionRequest) : Bool :=
  match req.extraPredicate with
  | none => true
  | some p => p.holds db card

/-- The row the `UPDATE` leaves behind. -/
def writeCard (now : Millis) (req : TransitionRequest) (card : KanbanCard) : KanbanCard :=
  req.fields.foldl FieldWrite.apply { card with status := req.toStatus, updatedAt := now }

@[simp]
theorem fieldWrite_apply_id (card : KanbanCard) (w : FieldWrite) : (w.apply card).id = card.id := by
  cases w <;> rfl

theorem foldl_fieldWrite_id (fields : List FieldWrite) :
    ∀ card : KanbanCard, (fields.foldl FieldWrite.apply card).id = card.id := by
  induction fields with
  | nil =>
    intro card
    rfl
  | cons w ws ih =>
    intro card
    rw [List.foldl_cons, ih, fieldWrite_apply_id]

@[simp]
theorem writeCard_id (now : Millis) (req : TransitionRequest) (card : KanbanCard) :
    (writeCard now req card).id = card.id :=
  foldl_fieldWrite_id req.fields _

/-- The board after the `UPDATE` of the requested card. -/
def updateCard (now : Millis) (req : TransitionRequest) (board : Table KanbanCard) :
    Table KanbanCard :=
  board.modify req.cardId (writeCard now req) (writeCard_id now req)

theorem get_updateCard_same (now : Millis) (req : TransitionRequest) (board : Table KanbanCard) :
    (updateCard now req board).get req.cardId = (board.get req.cardId).map (writeCard now req) :=
  Table.get_modify_same board req.cardId (writeCard now req) (writeCard_id now req)

def peerCallbackOutboxId (cardId : Nat) (status : CardStatus) : String :=
  "pc_" ++ toString cardId ++ "_" ++ status.text

def peerCallbackRow (now : Millis) (req : TransitionRequest) (intent : PeerCallbackIntent) :
    PeerCallbackRow where
  id := peerCallbackOutboxId req.cardId req.toStatus
  cardId := req.cardId
  peer := intent.peer
  status := intent.status
  payload :=
    { taskId := req.cardId
      status := intent.status
      resultSummary := intent.resultSummary
      error := intent.error
      tokensUsed := intent.tokensUsed.getD 0
      artifacts := (intent.artifacts.take peerCallbackArtifactMax).map fun a =>
        { name := sliceText a.name 200
          content := sliceText a.content peerCallbackArtifactContentMax } }
  attempts := 0
  lastError := none
  createdAt := now
  sentAt := none

/-- `queuePeerCallbackInTx`: one row per card terminal, a second is ignored. -/
def queuePeerCallback (now : Millis) (req : TransitionRequest)
    (outbox : Table PeerCallbackRow) : Table PeerCallbackRow :=
  match req.outboxCallback with
  | none => outbox
  | some intent => outbox.insertOrIgnore (fun _ => false) (peerCallbackRow now req intent)

variable (redactSecrets : String → String)

def transitionRow (now : Millis) (id : Nat) (req : TransitionRequest) (observed : CardStatus) :
    CardTransitionRow where
  id := id
  cardId := req.cardId
  fromStatus := observed
  toStatus := req.toStatus
  actor := req.actor
  reason := sliceText (redactSecrets req.reason) maxJournalReason
  attemptId := req.attemptId
  claimGeneration := req.claimGeneration
  at_ := now

def pruneTransitions (cardId : Nat) (journal : Table CardTransitionRow) :
    Table CardTransitionRow :=
  journal.deleteWhere fun row =>
    row.cardId = cardId ∧
      maxTransitionsPerCard ≤
        (journal.select fun newer => newer.cardId = cardId ∧ row.id < newer.id).length

def applyTransition (now : Millis) (req : TransitionRequest) (card : KanbanCard) (db : Db) : Db :=
  let journal := db.kanbanCardTransitions.insertOrIgnore (fun _ => false)
    (transitionRow redactSecrets now db.nextTransitionId req card.status)
  { db with
    kanbanBoard := updateCard now req db.kanbanBoard
    kanbanCardTransitions := pruneTransitions req.cardId journal
    nextTransitionId := db.nextTransitionId + 1
    peerCallbackOutbox := queuePeerCallback now req db.peerCallbackOutbox }

def transitionInTransaction (now : Millis) (req : TransitionRequest) (db : Db) :
    TransitionOutcome × Db :=
  match db.kanbanBoard.get req.cardId with
  | none => (.noOp none, db)
  | some card =>
    if card.status = req.toStatus ∧ req.toStatus ∈ req.fromSet then
      if extraHolds db card req then
        (.reasserted card.status,
          { db with kanbanBoard := updateCard now req db.kanbanBoard })
      else (.noOp (some card.status), db)
    else if card.status ∈ req.fromSet ∧ extraHolds db card req then
      (.applied card.status, applyTransition redactSecrets now req card db)
    else (.noOp (some card.status), db)

def kanbanTransition (now : Millis) (req : TransitionRequest) (db : Db) :
    Except String (TransitionOutcome × Db) :=
  match declarationError req with
  | some message => .error message
  | none => .ok (transitionInTransaction redactSecrets now req db)

section Spec

variable {redactSecrets : String → String} {now : Millis} {req : TransitionRequest}
  {db db' : Db} {outcome : TransitionOutcome}

/-- Everything a call that does not throw can do: nothing, co-write the fields of
a card already there, or move a card out of the declared from-set. -/
theorem kanbanTransition_cases
    (h : kanbanTransition redactSecrets now req db = .ok (outcome, db')) :
    (∃ observed, outcome = .noOp observed ∧ db' = db) ∨
    (∃ card, db.kanbanBoard.get req.cardId = some card ∧ card.status = req.toStatus ∧
      extraHolds db card req = true ∧ outcome = .reasserted card.status ∧
      db' = { db with kanbanBoard := updateCard now req db.kanbanBoard }) ∨
    (∃ card, db.kanbanBoard.get req.cardId = some card ∧ card.status ∈ req.fromSet ∧
      card.status ≠ req.toStatus ∧ extraHolds db card req = true ∧
      outcome = .applied card.status ∧
      db' = applyTransition redactSecrets now req card db) := by
  rw [kanbanTransition] at h
  cases hdecl : declarationError req with
  | some message =>
    rw [hdecl] at h
    cases h
  | none =>
    rw [hdecl, Except.ok.injEq, transitionInTransaction] at h
    cases hget : db.kanbanBoard.get req.cardId with
    | none =>
      rw [hget] at h
      cases h
      exact .inl ⟨none, rfl, rfl⟩
    | some card =>
      simp only [hget] at h
      split at h
      · rename_i hre
        split at h
        · rename_i hextra
          cases h
          exact .inr (.inl ⟨card, rfl, hre.1, hextra, rfl, rfl⟩)
        · cases h
          exact .inl ⟨_, rfl, rfl⟩
      · rename_i hno
        split at h
        · rename_i hcas
          cases h
          have hmoved : card.status ≠ req.toStatus := fun hsame =>
            hno ⟨hsame, hsame ▸ hcas.1⟩
          exact .inr (.inr ⟨card, rfl, hcas.1, hmoved, hcas.2, rfl, rfl⟩)
        · cases h
          exact .inl ⟨_, rfl, rfl⟩

theorem kanbanTransition_declared
    (h : kanbanTransition redactSecrets now req db = .ok (outcome, db')) :
    declarationError req = none := by
  unfold kanbanTransition at h
  cases hdecl : declarationError req with
  | none => rfl
  | some message =>
    rw [hdecl] at h
    cases h

variable (card : KanbanCard)

def KanbanCard.lineage : Option Nat × Option String × Option Int :=
  (card.parentId, card.type, card.maxTokens)

variable (w : FieldWrite)

@[simp]
theorem fieldWrite_apply_lineage : (w.apply card).lineage = card.lineage := by
  cases w <;> rfl

@[simp]
theorem fieldWrite_apply_tokensUsed : (w.apply card).tokensUsed = card.tokensUsed := by
  cases w <;> rfl

@[simp]
theorem fieldWrite_apply_status : (w.apply card).status = card.status := by
  cases w <;> rfl

theorem foldl_fieldWrite_of_apply {β : Type*} (column : KanbanCard → β)
    (happly : ∀ card (w : FieldWrite), column (w.apply card) = column card)
    (fields : List FieldWrite) :
    ∀ card : KanbanCard, column (fields.foldl FieldWrite.apply card) = column card := by
  induction fields with
  | nil =>
    intro card
    rfl
  | cons w ws ih =>
    intro card
    rw [List.foldl_cons, ih, happly]

@[simp]
theorem writeCard_lineage : (writeCard now req card).lineage = card.lineage :=
  foldl_fieldWrite_of_apply KanbanCard.lineage fieldWrite_apply_lineage req.fields _

@[simp]
theorem writeCard_tokensUsed : (writeCard now req card).tokensUsed = card.tokensUsed :=
  foldl_fieldWrite_of_apply KanbanCard.tokensUsed fieldWrite_apply_tokensUsed req.fields _

@[simp]
theorem writeCard_status : (writeCard now req card).status = req.toStatus :=
  foldl_fieldWrite_of_apply KanbanCard.status fieldWrite_apply_status req.fields _

theorem kanbanTransition_frame
    (h : kanbanTransition redactSecrets now req db = .ok (outcome, db')) :
    ∃ board journal next outbox,
      (board = db.kanbanBoard ∨ board = updateCard now req db.kanbanBoard) ∧
      db' =
        { db with
          kanbanBoard := board
          kanbanCardTransitions := journal
          nextTransitionId := next
          peerCallbackOutbox := outbox } := by
  rcases kanbanTransition_cases h with ⟨_, -, rfl⟩ | ⟨_, -, -, -, -, rfl⟩ |
    ⟨_, -, -, -, -, -, rfl⟩
  · exact ⟨_, _, _, _, .inl rfl, rfl⟩
  · exact ⟨_, _, _, _, .inr rfl, rfl⟩
  · exact ⟨_, _, _, _, .inr rfl, rfl⟩

theorem kanbanTransition_column {β : Type*} (column : KanbanCard → β)
    (hcolumn : ∀ card, column (writeCard now req card) = column card)
    (h : kanbanTransition redactSecrets now req db = .ok (outcome, db')) (id : Nat) :
    (db'.kanbanBoard.get id).map column = (db.kanbanBoard.get id).map column := by
  obtain ⟨board, _, _, _, hboard, rfl⟩ := kanbanTransition_frame h
  rcases hboard with rfl | rfl
  · rfl
  · exact Table.map_get_modify db.kanbanBoard req.cardId _ (writeCard_id now req) id column hcolumn

end Spec

end Abtars
