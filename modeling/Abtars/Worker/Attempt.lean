import Abtars.Worker.Contract

/-!
# Worker attempts: rows and lifecycles

The rows of `worker_contracts`, `worker_attempts`, `worker_results` and
`retry_budget_reservations`, and the lifecycle vocabulary their statements
share.
-/

namespace Abtars

open Lib

inductive AttemptLifecycle
  | pending | claimed | starting | running | cancelRequested
  | completed | failed | cancelled | timedOut
  deriving DecidableEq

namespace AttemptLifecycle

def text : AttemptLifecycle → String
  | .pending => "pending"
  | .claimed => "claimed"
  | .starting => "starting"
  | .running => "running"
  | .cancelRequested => "cancel_requested"
  | .completed => "completed"
  | .failed => "failed"
  | .cancelled => "cancelled"
  | .timedOut => "timed_out"

/-- `isAttemptTerminal`: a settled lifecycle, left by no statement. -/
def isTerminal : AttemptLifecycle → Bool
  | .completed | .failed | .cancelled | .timedOut => true
  | _ => false

def isActive : AttemptLifecycle → Bool
  | .claimed | .starting | .running | .cancelRequested => true
  | _ => false

def isLive : AttemptLifecycle → Bool
  | .claimed | .starting | .running => true
  | _ => false

theorem isActive_of_isLive {l : AttemptLifecycle} (h : l.isLive = true) : l.isActive = true := by
  cases l <;> simp_all [isLive, isActive]

theorem isTerminal_of_isActive {l : AttemptLifecycle} (h : l.isActive = true) :
    l.isTerminal = false := by
  cases l <;> simp_all [isActive, isTerminal]

theorem pending_or_active_or_terminal (l : AttemptLifecycle) :
    l = .pending ∨ l.isActive = true ∨ l.isTerminal = true := by
  cases l <;> simp [isActive, isTerminal]

end AttemptLifecycle

inductive DesiredState
  | completed | failed | cancelled | timedOut
  deriving DecidableEq

namespace DesiredState

def lifecycle : DesiredState → AttemptLifecycle
  | .completed => .completed
  | .failed => .failed
  | .cancelled => .cancelled
  | .timedOut => .timedOut

def outcome : DesiredState → WorkerOutcome
  | .completed => .completed
  | .failed => .failed
  | .cancelled => .cancelled
  | .timedOut => .timedOut

def text (d : DesiredState) : String := d.lifecycle.text

@[simp]
theorem isTerminal_lifecycle (d : DesiredState) : d.lifecycle.isTerminal = true := by
  cases d <;> rfl

end DesiredState

/-- A row of `worker_contracts`; an unreadable `contract_json` is `none`. -/
structure ContractRow where
  id : String
  cardId : Nat
  revision : Int
  rootContractId : String
  parentContractId : Option String
  sourceAttemptId : Option String
  contractJson : Option WorkerAcceptanceContract
  contractDigest : String
  createdAt : Millis
  deriving DecidableEq

instance : Keyed ContractRow String := ⟨ContractRow.id⟩

/-- The three uniqueness constraints of `worker_contracts` besides its key. -/
def ContractRow.clashes (new old : ContractRow) : Bool :=
  (old.cardId = new.cardId ∧ old.revision = new.revision) ∨
    (old.cardId = new.cardId ∧ old.contractDigest = new.contractDigest) ∨
    (old.sourceAttemptId.isSome ∧ old.sourceAttemptId = new.sourceAttemptId)

/-- A row of `worker_attempts`. -/
structure AttemptRow where
  id : String
  cardId : Nat
  contractId : String
  ordinal : Int
  executorKind : ExecutorKind
  executorId : String
  generation : Int
  lifecycle : AttemptLifecycle
  status : String
  claimedAt : Option Millis
  startedAt : Millis
  settledAt : Option Millis
  hardDeadlineAt : Option Millis
  cancelReason : Option String
  sourceAttemptId : Option String
  earliestClaimAt : Option Millis
  reservedTokens : Int
  inputTokens : Option Int
  outputTokens : Option Int
  chargedTokens : Int
  usageChargedAt : Option Millis
  rootProjectCardId : Option Nat
  rootProjectGeneration : Option Int
  scheduledRunId : Option String
  deriving DecidableEq

instance : Keyed AttemptRow String := ⟨AttemptRow.id⟩

@[simp]
theorem key_attemptRow (a : AttemptRow) : Keyed.key a = a.id := rfl

/-- A freshly inserted pending attempt: the columns an insert names, the others at
their defaults. -/
def pendingAttempt (id : String) (cardId : Nat) (contractId : String) (ordinal : Int)
    (executorKind : ExecutorKind) (executorId : String) (startedAt : Millis) : AttemptRow where
  id := id
  cardId := cardId
  contractId := contractId
  ordinal := ordinal
  executorKind := executorKind
  executorId := executorId
  generation := 1
  lifecycle := .pending
  status := "pending"
  claimedAt := none
  startedAt := startedAt
  settledAt := none
  hardDeadlineAt := none
  cancelReason := none
  sourceAttemptId := none
  earliestClaimAt := none
  reservedTokens := 0
  inputTokens := none
  outputTokens := none
  chargedTokens := 0
  usageChargedAt := none
  rootProjectCardId := none
  rootProjectGeneration := none
  scheduledRunId := none

/-- `UNIQUE(card_id, ordinal)`. -/
def AttemptRow.clashes (new old : AttemptRow) : Bool :=
  old.cardId = new.cardId ∧ old.ordinal = new.ordinal

/-- A row of `worker_results`. -/
structure ResultRow where
  attemptId : String
  envelope : WorkerResultEnvelope
  envelopeDigest : String
  createdAt : Millis

instance : Keyed ResultRow String := ⟨ResultRow.attemptId⟩

@[simp]
theorem key_resultRow (r : ResultRow) : Keyed.key r = r.attemptId := rfl

inductive ReservationStatus
  | active | claimed | released | consumed
  deriving DecidableEq

def ReservationStatus.isHeld : ReservationStatus → Bool
  | .active | .claimed => true
  | _ => false

/-- A row of `retry_budget_reservations`. -/
structure ReservationRow where
  sourceAttemptId : String
  targetAttemptId : String
  reservedAttempts : Int
  reservedTokens : Int
  reservedCost : Rat
  reservedSwitches : Int
  status : ReservationStatus
  createdAt : Millis
  updatedAt : Millis

instance : Keyed ReservationRow String := ⟨ReservationRow.sourceAttemptId⟩

def ReservationRow.clashes (new old : ReservationRow) : Bool :=
  old.targetAttemptId = new.targetAttemptId

end Abtars
