import Abtars.Board.Delivery
import Abtars.Task.Failure

/-!
# What a settled run does to its card

`applyPostSettlementSideEffects` completes the card or attaches its artifact and
releases its delivery, or fails it.  The card of a supervised project is only
touched under the generation, and for a scheduled project under the run, that
still owns it.
-/

namespace Abtars

open Lib

structure RootAuthority where
  projectGeneration : Int
  scheduledRunId : Option String

/-! ## Settling a card -/

def settleCardRequest (cardId : Nat) (fromSet : List CardStatus) (toStatus : CardStatus)
    (actor : TransitionActor) (reason : String) (fields : List FieldWrite)
    (extra : Option ExtraPredicate) : TransitionRequest where
  cardId := cardId
  fromSet := fromSet
  toStatus := toStatus
  actor := actor
  reason := reason
  attemptId := none
  claimGeneration := none
  outboxCallback := none
  fields := fields
  extraPredicate := extra

variable (now : Millis)

def completionFields (resultPath : Option String) (summary : String) : List FieldWrite :=
  [.resultPath resultPath, .resultSummary (some (sliceText summary 4000)), .completedAt (some now)]

def failureFields (error : String) : List FieldWrite :=
  [.error (some (sliceText error 1000)), .completedAt (some now)]

variable (rt : Runtime)

def kanbanComplete (now : Millis) (cardId : Nat) (resultPath : Option String) (summary : String)
    (db : Db) : Db :=
  (applied rt.redactSecrets now
    (settleCardRequest cardId [.running, .queued] .done .settleDone "settlement complete"
      (completionFields now resultPath summary) none) db).2

def kanbanFail (now : Millis) (cardId : Nat) (error : String) (db : Db) : Db :=
  (applied rt.redactSecrets now
    (settleCardRequest cardId [.queued, .running, .done] .failed .settleFailed "settlement failed"
      (failureFields now error) none) db).2

variable (authority : RootAuthority)

def RootAuthority.completion : ExtraPredicate :=
  match authority.scheduledRunId with
  | some runId => .scheduledRootCompletion runId authority.projectGeneration runId
  | none => .rootCompletion authority.projectGeneration

def RootAuthority.failure : ExtraPredicate :=
  match authority.scheduledRunId with
  | some runId => .scheduledRootFailure runId authority.projectGeneration
  | none => .rootFailure authority.projectGeneration

def kanbanCompleteProject (now : Millis) (cardId : Nat) (resultPath : Option String)
    (summary : String) (authority : RootAuthority) (db : Db) : Db :=
  (applied rt.redactSecrets now
    (settleCardRequest cardId [.running, .queued] .done .settleDone "project settlement complete"
      (completionFields now resultPath summary) (some authority.completion)) db).2

def kanbanFailProject (now : Millis) (cardId : Nat) (error : String) (authority : RootAuthority)
    (db : Db) : Db :=
  (applied rt.redactSecrets now
    (settleCardRequest cardId [.queued, .running, .done] .failed .settleFailed
      "project settlement failed" (failureFields now error) (some authority.failure)) db).2

/-! ## Artifacts and delivery -/

def KanbanCard.attach (resultPath summary : String) (card : KanbanCard) : KanbanCard :=
  { card with
    resultPath := some resultPath
    resultSummary := some (sliceText summary 4000)
    updatedAt := now }

theorem key_attach (resultPath summary : String) (card : KanbanCard) :
    Keyed.key (card.attach now resultPath summary) = Keyed.key card := rfl

def KanbanCard.release (card : KanbanCard) : KanbanCard :=
  { card with deliveryReady := 1, updatedAt := now }

theorem key_release (card : KanbanCard) : Keyed.key (card.release now) = Keyed.key card := rfl

variable (db : Db)

/-- Is the root of the kind the authority is for, and its scheduled run successful? -/
def RootAuthority.ownsRun (card : KanbanCard) : Bool :=
  match authority.scheduledRunId with
  | none => card.source ≠ "task"
  | some runId =>
    card.source = "task" ∧ card.sourceId = some runId ∧
      taskRunIs db runId fun run => run.finishedAt.isSome ∧ run.outcome = some "success"

def RootAuthority.holds (card : KanbanCard) : Bool :=
  isRootType card ∧ supervisedAt db card.id authority.projectGeneration (· = .accepted) ∧
    authority.ownsRun db card

def attachable (cardId : Nat) (authority : Option RootAuthority) (card : KanbanCard) : Bool :=
  card.id = cardId ∧ card.status = .done ∧ card.resultPath = none ∧
    authority.all (·.holds db card)

def releasable (cardId : Nat) (authority : Option RootAuthority) (card : KanbanCard) : Bool :=
  card.id = cardId ∧ card.status = .done ∧ card.deliveryReady = 0 ∧
    authority.all (·.holds db card)

/-- `kanbanAttachResult`, and with an authority `kanbanAttachProjectResult`. -/
def attachResult (cardId : Nat) (resultPath summary : String) (authority : Option RootAuthority)
    (db : Db) : Db :=
  { db with
    kanbanBoard := db.kanbanBoard.updateWhere (attachable db cardId authority)
      (KanbanCard.attach now resultPath summary) (key_attach now resultPath summary) }

/-- `kanbanSetDeliveryReady`, and with an authority `kanbanSetProjectDeliveryReady`. -/
def setDeliveryReady (cardId : Nat) (authority : Option RootAuthority) (db : Db) : Db :=
  { db with
    kanbanBoard := db.kanbanBoard.updateWhere (releasable db cardId authority)
      (KanbanCard.release now) (key_release now) }

/-! ## The effects of a settlement -/

structure SideEffects where
  cardId : Option Nat
  runId : String
  outcome : TaskOutcome
  detail : Option String
  deliveryText : Option String
  resultPath : Option String
  diagnostic : TaskFailureDiagnostic
  releaseDelivery : Bool
  attachResult : Bool

def TaskOutcome.isHealthy : TaskOutcome → Bool
  | .success | .noop | .skipped => true
  | _ => false

def rootGeneration (card : KanbanCard) : Option Int :=
  if card.type = some "O" then (db.projectSupervision.get card.id).map (·.generation) else none

def isScheduledProject (card : KanbanCard) : Bool :=
  card.type = some "O" ∧ card.source = "task"

/-- The payload shown to the user: the delivery text, the detail, or a fixed word. -/
def SideEffects.summary (effects : SideEffects) : String :=
  match nonEmpty effects.deliveryText with
  | some text => text
  | none => (nonEmpty effects.detail).getD "completed"

/-- Under which authority a healthy outcome settles the card; none when it may not. -/
def completionAuthority : Option KanbanCard → Option (Option RootAuthority)
  | none => some none
  | some card =>
    match rootGeneration db card with
    | none => if isScheduledProject card then none else some none
    | some generation =>
      if isScheduledProject card then
        card.sourceId.map fun sourceId => some ⟨generation, some sourceId⟩
      else some (some ⟨generation, none⟩)

def SideEffects.attachment (effects : SideEffects) : Option String :=
  if effects.attachResult then nonEmpty effects.resultPath else none

def settleHealthyCard (now : Millis) (effects : SideEffects) (cardId : Nat)
    (authority : Option RootAuthority) (db : Db) : Db :=
  let completed :=
    match effects.attachment with
    | some path => attachResult now cardId path effects.summary authority db
    | none =>
      match authority with
      | some authority =>
        kanbanCompleteProject rt now cardId effects.resultPath effects.summary authority db
      | none => kanbanComplete rt now cardId effects.resultPath effects.summary db
  if effects.releaseDelivery ∧ effects.outcome = .success then
    setDeliveryReady now cardId authority completed
  else completed

def settleFailedCard (now : Millis) (effects : SideEffects) (cardId : Nat) (db : Db) : Db :=
  let message := sliceText (formatTaskFailure effects.diagnostic) 1000
  match db.kanbanBoard.get cardId with
  | none => kanbanFail rt now cardId message db
  | some card =>
    match rootGeneration db card with
    | none => kanbanFail rt now cardId message db
    | some generation =>
      let scheduledRunId := if isScheduledProject card then some effects.runId else none
      kanbanFailProject rt now cardId message ⟨generation, scheduledRunId⟩ db

def applyPostSettlementSideEffects (now : Millis) (effects : SideEffects) (db : Db) : Db :=
  match effects.cardId with
  | none => db
  | some cardId =>
    if effects.outcome.isHealthy then
      match completionAuthority db (db.kanbanBoard.get cardId) with
      | none => db
      | some authority => settleHealthyCard rt now effects cardId authority db
    else if effects.outcome = .deferred then db
    else settleFailedCard rt now effects cardId db

section Frame

variable {rt : Runtime} {now : Millis} {db : Db}

def BoardOnly (db db' : Db) : Prop :=
  ∃ board journal next outbox, db' =
    { db with
      kanbanBoard := board
      kanbanCardTransitions := journal
      nextTransitionId := next
      peerCallbackOutbox := outbox }

theorem BoardOnly.refl (db : Db) : BoardOnly db db := ⟨_, _, _, _, rfl⟩

theorem BoardOnly.trans {mid db' : Db} (h : BoardOnly db mid) (h' : BoardOnly mid db') :
    BoardOnly db db' := by
  obtain ⟨_, _, _, _, rfl⟩ := h
  obtain ⟨_, _, _, _, rfl⟩ := h'
  exact ⟨_, _, _, _, rfl⟩

theorem applied_boardOnly (redactSecrets : String → String) (now : Millis) (req : TransitionRequest)
    (db : Db) : BoardOnly db (applied redactSecrets now req db).2 := by
  cases h : kanbanTransition redactSecrets now req db with
  | error message =>
    rw [applied, h]
    exact .refl db
  | ok result =>
    obtain ⟨outcome, db'⟩ := result
    obtain ⟨board, journal, next, outbox, -, rfl⟩ := kanbanTransition_frame h
    refine ⟨board, journal, next, outbox, ?_⟩
    cases outcome <;> rw [applied, h]

theorem settleHealthyCard_boardOnly (effects : SideEffects) (cardId : Nat)
    (authority : Option RootAuthority) :
    BoardOnly db (settleHealthyCard rt now effects cardId authority db) := by
  have hcompleted : BoardOnly db
      (match effects.attachment with
        | some path => attachResult now cardId path effects.summary authority db
        | none =>
          match authority with
          | some authority =>
            kanbanCompleteProject rt now cardId effects.resultPath effects.summary authority db
          | none => kanbanComplete rt now cardId effects.resultPath effects.summary db) := by
    split
    · exact ⟨_, _, _, _, rfl⟩
    · split
      · exact applied_boardOnly _ _ _ _
      · exact applied_boardOnly _ _ _ _
  unfold settleHealthyCard
  dsimp only
  split
  · exact hcompleted.trans ⟨_, _, _, _, rfl⟩
  · exact hcompleted

theorem settleFailedCard_boardOnly (effects : SideEffects) (cardId : Nat) :
    BoardOnly db (settleFailedCard rt now effects cardId db) := by
  unfold settleFailedCard
  split
  · exact applied_boardOnly _ _ _ _
  · split
    · exact applied_boardOnly _ _ _ _
    · exact applied_boardOnly _ _ _ _

theorem sideEffects_boardOnly (rt : Runtime) (now : Millis) (effects : SideEffects) (db : Db) :
    BoardOnly db (applyPostSettlementSideEffects rt now effects db) := by
  unfold applyPostSettlementSideEffects
  split
  · exact .refl db
  split
  · split
    · exact .refl db
    · exact settleHealthyCard_boardOnly _ _ _
  · split
    · exact .refl db
    · exact settleFailedCard_boardOnly _ _

end Frame

end Abtars
