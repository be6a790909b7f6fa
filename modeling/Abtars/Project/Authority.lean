import Abtars.Database

/-!
# Project authority

Every mutation of supervised project work carries the root card, supervision
generation and scheduled run it was created under, and is admitted only while
the root is live at exactly these.  Attempts without the immutable lineage fail
closed when their card sits under a supervised root.
-/

namespace Abtars

open Lib

structure ProjectMutationAuthority where
  projectCardId : Nat
  projectGeneration : Int
  scheduledRunId : Option String

inductive ProjectAuthorityRejection
  | missingAuthority | projectMissing | generationMismatch | projectTerminal
  | runMismatch | runFailed

def ProjectAuthorityRejection.text : ProjectAuthorityRejection → String
  | .missingAuthority => "missing_authority"
  | .projectMissing => "project_missing"
  | .generationMismatch => "generation_mismatch"
  | .projectTerminal => "project_terminal"
  | .runMismatch => "run_mismatch"
  | .runFailed => "run_failed"

/-- `TERMINAL_PROJECT_STATES`. -/
def ProjectState.isTerminal : ProjectState → Bool
  | .blocked | .accepted => true
  | _ => false

/-- The half of the check shared by work and delivery: a well-formed authority
for an existing root card at its exact supervision generation. -/
def baseProjectAuthorityCheck (db : Db) (authority : ProjectMutationAuthority) :
    Except ProjectAuthorityRejection (KanbanCard × ProjectSupervisionRow) :=
  if authority.projectCardId < 1 ∨ (authority.projectCardId : Int) > maxSafeInteger ∨
      authority.projectGeneration < 1 ∨ authority.projectGeneration > maxSafeInteger then
    .error .missingAuthority
  else
    match db.kanbanBoard.get authority.projectCardId with
    | none => .error .projectMissing
    | some card =>
      if card.type ≠ some "O" then .error .projectMissing
      else
        match db.projectSupervision.get authority.projectCardId with
        | none => .error .projectMissing
        | some sup =>
          if sup.generation ≠ authority.projectGeneration then .error .generationMismatch
          else .ok (card, sup)

def scheduledSource (card : KanbanCard) : Option String :=
  match card.sourceId with
  | none => none
  | some sourceId => if card.source = "task" ∧ sourceId ≠ "" then some sourceId else none

def runAuthorityCheck (db : Db) (card : KanbanCard) (authority : ProjectMutationAuthority)
    (requireTerminalSuccess : Bool) : Option ProjectAuthorityRejection :=
  match scheduledSource card with
  | none => if authority.scheduledRunId.isSome then some .runMismatch else none
  | some sourceId =>
    if authority.scheduledRunId ≠ some sourceId then some .runMismatch
    else
      match db.taskRuns.get sourceId with
      | none => some .runMismatch
      | some run =>
        if requireTerminalSuccess then
          if run.finishedAt = none ∨ run.outcome ≠ some "success" then some .runFailed
          else none
        else if run.finishedAt.isSome then some .runFailed
        else none

/-- Active-work authorization: the rejection, or `none` when work may proceed. -/
def authorizeActiveProjectWork (db : Db) (authority : ProjectMutationAuthority) :
    Option ProjectAuthorityRejection :=
  match baseProjectAuthorityCheck db authority with
  | .error rejection => some rejection
  | .ok (card, sup) =>
    if sup.state.isTerminal then some .projectTerminal
    else runAuthorityCheck db card authority false

/-! ## Ancestry -/

def ancestorsFrom (board : Table KanbanCard) : Nat → List Nat → Nat → List KanbanCard
  | 0, _, _ => []
  | fuel + 1, path, id =>
    if id ∈ path then []
    else
      match board.get id with
      | none => []
      | some card =>
        match card.parentId with
        | none => [card]
        | some parent => card :: ancestorsFrom board fuel (id :: path) parent

variable (board : Table KanbanCard)

def ancestors (cardId : Nat) : List KanbanCard :=
  ancestorsFrom board (board.rows.length + 1) [] cardId

def cardIsSupervisedProjectChild (db : Db) (cardId : Nat) : Bool :=
  (ancestors db.kanbanBoard cardId).any fun card =>
    card.type = some "O" ∧ (db.projectSupervision.get card.id).isSome

def isDescendant (rootId cardId : Nat) : Bool :=
  cardId ≠ rootId ∧ (ancestors board cardId).any fun card => card.id = rootId

/-! ### Boards with the same parents -/

def SameParents (board' : Table KanbanCard) : Prop :=
  ∀ id, (board'.get id).map KanbanCard.parentId = (board.get id).map KanbanCard.parentId

namespace SameParents

variable {board board' board'' : Table KanbanCard}

theorem refl (board : Table KanbanCard) : SameParents board board := fun _ => rfl

theorem trans (h : SameParents board board') (h' : SameParents board' board'') :
    SameParents board board'' := fun id => (h' id).trans (h id)

theorem modify (board : Table KanbanCard) (cardId : Nat) (write : KanbanCard → KanbanCard)
    (hkey : ∀ card, Keyed.key (write card) = Keyed.key card)
    (hparent : ∀ card, (write card).parentId = card.parentId) :
    SameParents board (board.modify cardId write hkey) := fun id =>
  Table.map_get_modify board cardId write hkey id KanbanCard.parentId hparent

/-- Cards under the same parents have the same chain of ancestors. -/
theorem ancestorsFrom_ids (h : SameParents board board') (fuel : Nat) :
    ∀ path id, (ancestorsFrom board' fuel path id).map (·.id) =
      (ancestorsFrom board fuel path id).map (·.id) := by
  induction fuel with
  | zero =>
    intro path id
    rfl
  | succ fuel ih =>
    intro path id
    have hcard := h id
    unfold ancestorsFrom
    by_cases hpath : id ∈ path
    · simp [hpath]
    simp only [hpath, if_false]
    cases hnew : board'.get id with
    | none =>
      cases hold : board.get id with
      | none => rfl
      | some card => simp [hnew, hold] at hcard
    | some card' =>
      cases hold : board.get id with
      | none => simp [hnew, hold] at hcard
      | some card =>
        rw [hnew, hold, Option.map_some, Option.map_some, Option.some.injEq] at hcard
        have hid : card'.id = card.id :=
          (Table.key_of_get hnew).trans (Table.key_of_get hold).symm
        dsimp only
        rw [hcard]
        cases card.parentId with
        | none => simp [hid]
        | some parent => simp [hid, ih]

theorem isDescendant_eq (h : SameParents board board')
    (hlength : board'.rows.length = board.rows.length) (rootId cardId : Nat) :
    isDescendant board' rootId cardId = isDescendant board rootId cardId := by
  have hids : ∀ cards : List KanbanCard,
      (cards.any fun card => card.id = rootId) = (cards.map (·.id)).any (· = rootId) := by
    intro cards
    rw [List.any_map]
    rfl
  unfold isDescendant ancestors
  rw [hids, hids, hlength, h.ancestorsFrom_ids]

end SameParents

/-! ## Authority of an attempt -/

inductive AttemptAuthority
  | authority (a : ProjectMutationAuthority)
  | missing
  | notProject

def projectAuthorityForAttempt (db : Db) (attempt : AttemptRow) : AttemptAuthority :=
  match attempt.rootProjectCardId, attempt.rootProjectGeneration with
  | some cardId, some generation => .authority ⟨cardId, generation, attempt.scheduledRunId⟩
  | _, _ =>
    if cardIsSupervisedProjectChild db attempt.cardId then .missing else .notProject

def authorizeAttemptForProjectWork (db : Db) (attempt : AttemptRow) :
    Option ProjectAuthorityRejection :=
  match projectAuthorityForAttempt db attempt with
  | .notProject => none
  | .missing => some .missingAuthority
  | .authority a => authorizeActiveProjectWork db a

/-! ## Terminal roots -/

/-- The mark a terminal root leaves on an attempt below it: live attempts are
asked to stop, pending ones can no longer be claimed. -/
def invalidateAttempt (now : Millis) (attempt : AttemptRow) : AttemptRow :=
  if attempt.lifecycle.isLive then
    { attempt with
      lifecycle := .cancelRequested
      cancelReason := some "project_terminal" }
  else if attempt.lifecycle = .pending then
    { attempt with
      lifecycle := .cancelled
      status := "cancelled"
      cancelReason := some "project_terminal"
      settledAt := some now }
  else attempt

@[simp]
theorem invalidateAttempt_id (now : Millis) (attempt : AttemptRow) :
    (invalidateAttempt now attempt).id = attempt.id := by
  unfold invalidateAttempt
  split
  · rfl
  · split <;> rfl

/-- `invalidateOwnershipInTransaction`, on the tables of this development. -/
def invalidateOwnership (now : Millis) (rootId : Nat) (db : Db) : Db :=
  { db with
    workerAttempts := db.workerAttempts.updateWhere
      (fun a => isDescendant db.kanbanBoard rootId a.cardId)
      (invalidateAttempt now) (invalidateAttempt_id now) }

end Abtars
