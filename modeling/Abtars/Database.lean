import Abtars.Worker.Attempt
import Abtars.Lease.Progress
import Abtars.Retry.Records
import Abtars.Task.Rows

/-!
# The task database

One state for the SQLite database the stores share.  Every operation of the
development is a function on it; what an operation leaves out of its result is
unchanged by construction.
-/

namespace Abtars

open Lib

structure Runtime where
  /-- Redaction of journal reasons. -/
  redactSecrets : String → String
  /-- Redaction of the texts of progress facts. -/
  redactProgress : String → String
  /-- Hexadecimal SHA-256 of a text. -/
  sha256 : String → String
  /-- Hexadecimal SHA-256 of a serialized result envelope. -/
  envelopeDigest : WorkerResultEnvelope → String
  /-- The decimal text of a number that is no integer. -/
  renderFraction : Rat → String

def Runtime.plain : Runtime where
  redactSecrets := id
  redactProgress := id
  sha256 := id
  envelopeDigest := fun e => e.attempt.id
  renderFraction := fun _ => ""

structure Db where
  kanbanBoard : Table KanbanCard
  kanbanCardTransitions : Table CardTransitionRow
  nextTransitionId : Nat
  peerCallbackOutbox : Table PeerCallbackRow
  /-- Absent until the executor has made its schema. -/
  piRuns : Option (Table PiRunRow)
  projectSupervision : Table ProjectSupervisionRow
  taskRuns : Table TaskRunRow
  taskState : Table TaskStateRow
  taskRunHistory : Table TaskRunEvent
  workflowRuns : Table WorkflowRunRow
  workerContracts : Table ContractRow
  workerAttempts : Table AttemptRow
  workerResults : Table ResultRow
  retryBudgetReservations : Table ReservationRow
  attemptFailureClassifications : Table ClassificationRow
  retryPolicyDecisions : Table DecisionRow
  retryDirectives : Table DirectiveRow
  attemptLeaseSnapshots : Table LeaseRow
  attemptProgressEvents : Table ProgressEventRow

def Db.empty : Db where
  kanbanBoard := ∅
  kanbanCardTransitions := ∅
  nextTransitionId := 1
  peerCallbackOutbox := ∅
  piRuns := none
  projectSupervision := ∅
  taskRuns := ∅
  taskState := ∅
  taskRunHistory := ∅
  workflowRuns := ∅
  workerContracts := ∅
  workerAttempts := ∅
  workerResults := ∅
  retryBudgetReservations := ∅
  attemptFailureClassifications := ∅
  retryPolicyDecisions := ∅
  retryDirectives := ∅
  attemptLeaseSnapshots := ∅
  attemptProgressEvents := ∅

end Abtars
