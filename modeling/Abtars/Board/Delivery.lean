import Abtars.Board.Journal
import Abtars.Project.Authority

/-!
# Delivery of finished cards

`deliverCard` claims one delivery attempt of a done card, hands the result to a
sender and records how the send ended.  A call is cut where it waits for the
sender: `beginDelivery` is everything before the send, `recordOutcome` what
follows it.  `pollPendingDeliveries` calls it for every pending card in turn.
-/

namespace Abtars

open Lib

/-! ## Sends -/

inductive SendOutcome
  | sent | notSent | unknown

inductive SendResult
  | resolved (outcome : SendOutcome)
  | rejected

inductive SendRoute
  | main (card : KanbanCard)
  | document (path caption : String)
  | announce (text : String)
  | message (text : String)

structure Send where
  cardId : Nat
  chatId : String
  route : SendRoute

/-- What a delivery is given: where a card's chat is, and whether Main is wired. -/
structure DeliverDeps where
  chatIdFor : KanbanCard → String
  announceToMain : Bool

/-! ## Claims -/

def applied (redactSecrets : String → String) (now : Millis) (req : TransitionRequest) (db : Db) :
    Bool × Db :=
  match kanbanTransition redactSecrets now req db with
  | .ok (.applied _, db') => (true, db')
  | .ok (_, db') => (false, db')
  | .error _ => (false, db)

def nextAttempt (db : Db) (id : Nat) : Int :=
  ((db.kanbanBoard.get id).bind (·.deliveryAttempts)).getD 0 + 1

def claimRequest (id : Nat) (attempts : Int) (reason : String) (extra : ExtraPredicate) :
    TransitionRequest where
  cardId := id
  fromSet := [.done]
  toStatus := .delivering
  actor := .deliveryClaim
  reason := reason
  attemptId := none
  claimGeneration := none
  outboxCallback := none
  fields := [.deliveryAttempts (some attempts)]
  extraPredicate := some extra

variable (redactSecrets : String → String) (now : Millis)

def kanbanClaimDelivery (id : Nat) (db : Db) : Bool × Db :=
  applied redactSecrets now
    (claimRequest id (nextAttempt db id) "delivery claim" .deliveryAttemptsBelowCap) db

def kanbanClaimProjectDelivery (id : Nat) (projectGeneration : Int) (scheduledRunId : Option String)
    (db : Db) : Bool × Db :=
  applied redactSecrets now
    (claimRequest id (nextAttempt db id) "project delivery claim"
      (match scheduledRunId with
      | some runId => .scheduledDeliveryClaim runId projectGeneration runId
      | none => .projectDeliveryClaim projectGeneration)) db

/-- The claim of a card: a root under the accepted supervision, another directly. -/
def claimCard (fresh : KanbanCard) (db : Db) : Bool × Db :=
  if fresh.type = some "O" then
    match db.projectSupervision.get fresh.id with
    | none => (false, db)
    | some sup =>
      if sup.state = .accepted then
        kanbanClaimProjectDelivery redactSecrets now fresh.id sup.generation
          (scheduledSource fresh) db
      else (false, db)
  else kanbanClaimDelivery redactSecrets now fresh.id db

/-! ## Settlement of a claim -/

def settleRequest (id : Nat) (toStatus : CardStatus) (reason : String) (fields : List FieldWrite)
    (extra : Option ExtraPredicate) : TransitionRequest where
  cardId := id
  fromSet := [.delivering]
  toStatus := toStatus
  actor := .deliverySettle
  reason := reason
  attemptId := none
  claimGeneration := none
  outboxCallback := none
  fields := fields
  extraPredicate := extra

def kanbanMarkDelivered (id : Nat) (db : Db) : Db :=
  (applied redactSecrets now
    (settleRequest id .delivered "delivery complete" [.deliveredAt (some now)] none) db).2

def markSent (id : Nat) (receipt : String) (db : Db) : Db :=
  (applied redactSecrets now
    (settleRequest id .delivered "delivery sent"
      [.deliveryResult (some .sent), .deliveryReceipt (some receipt), .deliveredAt (some now)]
      none) db).2

def markUnknown (id : Nat) (db : Db) : Db :=
  (applied redactSecrets now
    (settleRequest id .done "delivery unknown" [.deliveryResult (some .unknown)]
      (some .deliveryResultNull)) db).2

def markDefinitelyNotSent (id : Nat) (db : Db) : Db :=
  (applied redactSecrets now
    (settleRequest id .done "delivery definitely not sent"
      [.deliveryResult (some .definitelyNotSent)] none) db).2

/-- What follows a send: `recordOutcome` of a resolved one, the catch of a rejected. -/
def recordOutcome (id : Nat) (db : Db) :
    SendResult → Db
  | .resolved .sent => markSent redactSecrets now id "sent" db
  | .resolved .notSent => markDefinitelyNotSent redactSecrets now id db
  | .resolved .unknown => markUnknown redactSecrets now id db
  | .rejected => markUnknown redactSecrets now id db

/-! ## `deliverCard` -/

def presentText (text : Option String) : Option String := text.filter (· ≠ "")

def completionText (card : KanbanCard) : String :=
  match presentText card.resultSummary with
  | some summary => card.title ++ " complete.\n\n" ++ summary
  | none => card.title ++ " complete."

def directRoute (card : KanbanCard) : SendRoute :=
  match presentText card.resultPath with
  | some path => .document path card.title
  | none =>
    if card.deliveryMode = some "announce" then .announce (completionText card)
    else .message (completionText card)

def isScheduledTAnnounce (fresh : KanbanCard) : Bool :=
  fresh.source = "task" ∧ fresh.type = some "T" ∧ fresh.deliveryMode = some "announce"

/-- What happens to a claimed card: nothing to say, Main's announcement, or a direct
send. -/
def dispatchClaimed (deps : DeliverDeps) (now : Millis) (card fresh : KanbanCard) (db : Db) :
    Option Send × Db :=
  if card.deliveryMode = some "silent" then
    (none, kanbanMarkDelivered redactSecrets now card.id db)
  else if isScheduledTAnnounce fresh then
    if deps.announceToMain then (some ⟨card.id, deps.chatIdFor card, .main fresh⟩, db)
    else (none, markDefinitelyNotSent redactSecrets now card.id db)
  else (some ⟨card.id, deps.chatIdFor card, directRoute card⟩, db)

/-- `deliverCard` up to the send: the send it waits for, when it makes one.  The
caller's snapshot of the card may be old. -/
def beginDelivery (deps : DeliverDeps) (now : Millis) (card : KanbanCard) (db : Db) :
    Option Send × Db :=
  match db.kanbanBoard.get card.id with
  | none => (none, db)
  | some fresh =>
    if fresh.status = .delivered ∨ fresh.deliveryReady = 0 ∨
        fresh.deliveryResult = some .unknown then (none, db)
    else
      match claimCard redactSecrets now fresh db with
      | (false, db) => (none, db)
      | (true, db) => dispatchClaimed redactSecrets deps now card fresh db

structure DeliveryAnswer where
  startedAt : Millis
  endedAt : Millis
  result : SendResult

def deliverCard (deps : DeliverDeps) (answer : DeliveryAnswer) (card : KanbanCard) (db : Db) : Db :=
  match beginDelivery redactSecrets deps answer.startedAt card db with
  | (none, db) => db
  | (some send, db) => recordOutcome redactSecrets answer.endedAt send.cardId db answer.result

def pendingBefore (a b : KanbanCard) : Bool :=
  let urgency := fun card : KanbanCard =>
    match card.priority with
    | .critical => 0
    | .high => 1
    | _ => 2
  urgency a < urgency b ∨ (urgency a = urgency b ∧ a.createdAt ≤ b.createdAt)

/-- The done cards with attempts left; a missing count is not below the cap here. -/
def kanbanPending (db : Db) : List KanbanCard :=
  (db.kanbanBoard.select fun card =>
    card.status = .done ∧ card.deliveryAttempts.any (· < 5)).mergeSort pendingBefore

def deliverCards (deps : DeliverDeps) (answer : KanbanCard → DeliveryAnswer)
    (cards : List KanbanCard) (db : Db) : Db :=
  cards.foldl (fun db card => deliverCard redactSecrets deps (answer card) card db) db

def pollPendingDeliveries (deps : DeliverDeps) (answer : KanbanCard → DeliveryAnswer) (db : Db) :
    Db :=
  deliverCards redactSecrets deps answer (kanbanPending db) db

section Spec

variable {card : KanbanCard}

variable {redactSecrets : String → String} {now : Millis} {req : TransitionRequest} {db : Db}

theorem get_applied_of_ne {id : Nat} (hne : id ≠ req.cardId) :
    (applied redactSecrets now req db).2.kanbanBoard.get id = db.kanbanBoard.get id := by
  cases h : kanbanTransition redactSecrets now req db with
  | error message => simp [applied, h]
  | ok result =>
    obtain ⟨outcome, db'⟩ := result
    have hboard : (applied redactSecrets now req db).2 = db' := by
      cases outcome <;> simp [applied, h]
    rw [hboard]
    obtain ⟨board, _, _, _, hcases, rfl⟩ := kanbanTransition_frame h
    rcases hcases with rfl | rfl
    · rfl
    · exact Table.get_modify_of_ne _ _ (writeCard_id now req) hne

/-- A legal transition with no reassertion is won exactly when the card is in the
declared status and the extra predicate holds; a lost one writes nothing. -/
theorem applied_eq (hdecl : declarationError req = none) (hto : req.toStatus ∉ req.fromSet)
    (hget : db.kanbanBoard.get req.cardId = some card) :
    applied redactSecrets now req db =
      if card.status ∈ req.fromSet ∧ extraHolds db card req = true then
        (true, applyTransition redactSecrets now req card db)
      else (false, db) := by
  have hstay : ¬ (card.status = req.toStatus ∧ req.toStatus ∈ req.fromSet) := fun h => hto h.2
  simp only [applied, kanbanTransition, hdecl, transitionInTransaction, hget, if_neg hstay]
  by_cases hwon : card.status ∈ req.fromSet ∧ extraHolds db card req = true
  · rw [if_pos hwon, if_pos hwon]
  · rw [if_neg hwon, if_neg hwon]

theorem get_applyTransition_same (hget : db.kanbanBoard.get req.cardId = some card) :
    (applyTransition redactSecrets now req card db).kanbanBoard.get req.cardId =
      some (writeCard now req card) := by
  show (updateCard now req db.kanbanBoard).get req.cardId = _
  rw [get_updateCard_same, hget]
  rfl

theorem get_applied_same (hdecl : declarationError req = none) (hto : req.toStatus ∉ req.fromSet)
    (hget : db.kanbanBoard.get req.cardId = some card) :
    (applied redactSecrets now req db).2.kanbanBoard.get req.cardId =
      some (if card.status ∈ req.fromSet ∧ extraHolds db card req = true
        then writeCard now req card else card) := by
  rw [applied_eq hdecl hto hget]
  split
  · exact get_applyTransition_same hget
  · exact hget

end Spec

end Abtars
