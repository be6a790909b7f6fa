import Abtars.Lib.Run
import Abtars.Lib.Table
import Abtars.Pi.ControlTypes
import Mathlib.Data.List.Infix

/-!
# The owner-side control handler

`handleControlRequest` over the command ledger and the table of consumed approvals.  A call is cut
where it waits for its dispatch: `beginControl` is everything before, and leaves a flight;
`finishControl` is what follows when the flight lands.  A crash loses the flights.  How a call of
the run service ends is an input, and so is what the run store has of the run.
-/

namespace Abtars

open Lib

/-! ## The ledger -/

inductive CommandLedgerState
  | received | dispatchStarted | completed | rejected | outcomeUnknown
  deriving DecidableEq

def CommandLedgerState.isFinal (state : CommandLedgerState) : Bool :=
  state = .completed ∨ state = .rejected ∨ state = .outcomeUnknown

/-- A row of `remote_pi_commands`. -/
structure CommandRow where
  originPeer : String
  commandId : String
  runId : String
  payloadHash : String
  state : CommandLedgerState
  responseJson : Option RemotePiControlResponse

instance : Keyed CommandRow (String × String) := ⟨fun row => (row.originPeer, row.commandId)⟩

@[simp]
theorem key_commandRow (row : CommandRow) : Keyed.key row = (row.originPeer, row.commandId) := rfl

/-- A row of `remote_pi_approvals_consumed`. -/
structure ConsumedApproval where
  approvalId : String
  runId : String
  originPeer : String
  commandId : String

instance : Keyed ConsumedApproval String := ⟨ConsumedApproval.approvalId⟩

inductive ReserveCommandResult
  | new | replayCompleted | replayDispatchStarted | conflict

def reserveCommand (commands : Table CommandRow) (originPeer commandId runId payloadHash : String) :
    ReserveCommandResult × Table CommandRow :=
  match commands.insert (fun _ => false)
      ⟨originPeer, commandId, runId, payloadHash, .received, none⟩ with
  | some commands' => (.new, commands')
  | none =>
    match commands.get (originPeer, commandId) with
    | none => (.conflict, commands)
    | some existing =>
      if existing.payloadHash ≠ payloadHash then (.conflict, commands)
      else if existing.state.isFinal then (.replayCompleted, commands)
      else (.replayDispatchStarted, commands)

/-- `updateCommand`; a response that is not given stays. -/
def updateCommand (commands : Table CommandRow) (originPeer commandId : String)
    (state : CommandLedgerState) (responseJson : Option RemotePiControlResponse) :
    Table CommandRow :=
  commands.modify (originPeer, commandId) fun row =>
    { row with state := state, responseJson := responseJson.or row.responseJson }

inductive ConsumeResult
  | consumed (firstUse : Bool)
  | refused (reason : String)

def consumeApproval (approvals : Table ConsumedApproval)
    (approvalId runId originPeer commandId : String) : ConsumeResult × Table ConsumedApproval :=
  match approvals.insert (fun _ => false) ⟨approvalId, runId, originPeer, commandId⟩ with
  | some approvals' => (.consumed true, approvals')
  | none =>
    if (approvals.get approvalId).any (·.commandId = commandId) then (.consumed false, approvals)
    else (.refused "Approval already consumed by a different command", approvals)

def ControlOutcome.ledgerState : ControlOutcome → CommandLedgerState
  | .succeeded => .completed
  | .rejected => .rejected
  | .outcomeUnknown => .outcomeUnknown

/-- `_recordCommandOutcome`. -/
def recordCommandOutcome (commands : Table CommandRow) (originPeer commandId : String)
    (response : RemotePiControlResponse) : Table CommandRow :=
  updateCommand commands originPeer commandId response.outcome.ledgerState (some response)

/-! ## Dispatch -/

structure ControlRun where
  originPeer : Option String
  executionGeneration : Int
  status : PiRunStatus
  pendingRequestId : Option String
  resumeCapability : String
  projection : RemotePiPublicProjection

/-- The clock reads of a call: two ISO texts, and the time value the freshness check compares
with. -/
structure ControlClock where
  schema : String
  approval : String
  fresh : Int

inductive PiService
  | reply | steer | cancel | resume
  deriving DecidableEq

inductive Dispatch
  | answered (response : RemotePiControlResponse)
  | serving (service : PiService)

variable (request : RemotePiControlRequest) (run : ControlRun)

def handleStatus : Dispatch :=
  .answered (controlSuccess request.commandId run.projection)

def handleReply (requestId : String) (value : ReplyValue) (run : ControlRun) : Dispatch :=
  if run.status ≠ .awaitingInput then
    .answered (createControlError request.commandId .invalidState
      ("Run is not awaiting input (status: " ++ run.status.text ++ ")") none)
  else if run.pendingRequestId ≠ some requestId then
    .answered (createControlError request.commandId .missingRequest "Pending request ID mismatch"
      none)
  else
    match value.json with
    | none =>
      -- `Buffer.byteLength` throws at the text an undefined value has not
      .answered (createControlError request.commandId .internalError "Command dispatch failed"
        (some (.details ("The \"string\" argument must be of type string or an instance of " ++
          "Buffer or ArrayBuffer. Received undefined"))))
    | some json =>
      if maxReplyValueSize < json.utf8ByteSize then
        .answered (createControlError request.commandId .payloadTooLarge
          ("Reply value exceeds " ++ toString maxReplyValueSize ++ " bytes")
          (some (.size json.utf8ByteSize)))
      else .serving .reply

def handleSteer : Dispatch :=
  if run.status = .starting ∨ run.status = .running ∨ run.status = .awaitingInput then
    .serving .steer
  else
    .answered (createControlError request.commandId .invalidState
      ("Run cannot be steered in status: " ++ run.status.text) none)

def handleCancel : Dispatch :=
  if run.status = .completed ∨ run.status = .failed ∨ run.status = .cancelled then
    .answered (controlSuccess request.commandId run.projection)
  else .serving .cancel

variable (host : ControlHost)

def approvalError (clock : ControlClock) (originPeer : String) (request : RemotePiControlRequest)
    (approval : ResumeApproval) : Option (ControlErrorCode × String) :=
  match validateResumeApproval clock.approval approval with
  | some message => some (.invalidApproval, message)
  | none =>
    if verifyApprovalStatement host approval = false then
      some (.invalidApproval, "Approval statement hash does not match canonical payload")
    else if approval.runId ≠ request.runId then
      some (.invalidApproval, "Approval run_id mismatch")
    else if approval.originPeer ≠ originPeer then
      some (.invalidApproval, "Approval origin_peer mismatch")
    else if approval.commandId ≠ request.commandId then
      some (.invalidApproval, "Approval command_id mismatch")
    else if approval.interruptedGeneration ≠ request.expectedGeneration then
      some (.invalidApproval, "Approval generation mismatch")
    else if (host.dateValue approval.expiresAt).any fun expiresAt => expiresAt < clock.fresh then
      some (.expiredApproval, "Approval has expired")
    else if (host.dateValue approval.issuedAt).any fun issuedAt => clock.fresh < issuedAt then
      some (.invalidApproval, "Approval issued in the future")
    else none

/-- What a resume does once its approval is consumed, for the first time or not. -/
def resumeRun : Dispatch :=
  if run.resumeCapability ≠ "available" then
    .answered (createControlError request.commandId .missingResumeCapability
      ("Run is not resumable (" ++ run.resumeCapability ++ ")") none)
  else if run.status = .interrupted ∨ run.status = .failed then .serving .resume
  else
    .answered (createControlError request.commandId .invalidState
      ("Run cannot be resumed in status: " ++ run.status.text) none)

def handleResume (clock : ControlClock) (approvals : Table ConsumedApproval) (originPeer : String)
    (request : RemotePiControlRequest) (approval : ResumeApproval) (run : ControlRun) :
    Dispatch × Table ConsumedApproval :=
  match approvalError host clock originPeer request approval with
  | some error =>
    (.answered (createControlError request.commandId error.1 error.2 none), approvals)
  | none =>
    match consumeApproval approvals approval.approvalId request.runId originPeer
        request.commandId with
    | (.refused reason, approvals') =>
      (.answered (createControlError request.commandId .invalidApproval reason none), approvals')
    | (.consumed _, approvals') => (resumeRun request run, approvals')

/-- `_dispatchCommand` up to where it waits; validation leaves neither of the last two. -/
def dispatchCommand (clock : ControlClock) (approvals : Table ConsumedApproval)
    (originPeer : String) (request : RemotePiControlRequest) (run : ControlRun) :
    Dispatch × Table ConsumedApproval :=
  match request.command with
  | .status => (handleStatus request run, approvals)
  | .reply requestId value => (handleReply request requestId value run, approvals)
  | .steer _ => (handleSteer request run, approvals)
  | .cancel => (handleCancel request run, approvals)
  | .resume (some approval) =>
    handleResume host clock approvals originPeer request approval run
  | .resume none =>
    (.answered (createControlError request.commandId .invalidApproval
      "Cannot read properties of undefined (reading 'approval_id')" none), approvals)
  | .unsupported _ =>
    (.answered (createControlError request.commandId .unsupportedAction
      "Unsupported action: [object Object]" none), approvals)

/-- How a call of the service ends; a resolved one leaves a run to build a projection of. -/
inductive ServiceResult
  | resolved (projection : RemotePiPublicProjection)
  | rejected (message : String)

def includes (text part : String) : Bool := part.toList <:+: text.toList

def serviceError (service : PiService) (message : String) : ControlErrorCode :=
  match service with
  | .reply =>
    if includes message "already consumed" || includes message "Request ID mismatch" then
      .missingRequest
    else if includes message "wrong generation" then .staleGeneration
    else if includes message "no longer awaiting" then .invalidState
    else .internalError
  | .steer => if includes message "no longer active" then .invalidState else .internalError
  | .cancel => .internalError
  | .resume =>
    if includes message "not resumable" || includes message "session file" then
      .missingResumeCapability
    else if includes message "workspace policy" then .sessionContinuityFailed
    else .internalError

/-- The response once the service has ended; a cancel of a run that is no longer active succeeds. -/
def serviceResponse (service : PiService) (request : RemotePiControlRequest) (run : ControlRun) :
    ServiceResult → RemotePiControlResponse
  | .resolved projection => controlSuccess request.commandId projection
  | .rejected message =>
    if service = .cancel ∧ includes message "no longer active" = true then
      controlSuccess request.commandId run.projection
    else createControlError request.commandId (serviceError service message) message none

def Dispatch.response (dispatch : Dispatch) (request : RemotePiControlRequest) (run : ControlRun)
    (result : ServiceResult) : RemotePiControlResponse :=
  match dispatch with
  | .answered response => response
  | .serving service => serviceResponse service request run result

/-! ## Calls -/

inductive RunOwnership
  | unknown | foreign | own
  deriving DecidableEq

def runOwnership (peer : String) : Option ControlRun → RunOwnership
  | none => .unknown
  | some run =>
    if run.originPeer = none ∨ run.originPeer = some "" ∨ run.originPeer ≠ some peer then .foreign
    else .own

/-- A request as it arrived: from whom, when its schema was checked, and whose run it named. -/
structure ControlArrival where
  peer : String
  request : RemotePiControlRequest
  now : String
  ownership : RunOwnership

def ControlArrival.key (a : ControlArrival) : String × String := (a.peer, a.request.commandId)

def refusal (a : ControlArrival) : Option RemotePiControlResponse :=
  match validateControlRequest a.now a.request with
  | some message =>
    some (createControlError a.request.commandId .internalError "Invalid request schema"
      (some (.details message)))
  | none =>
    if maxCommandSize < a.request.json.utf8ByteSize then
      some (createControlError a.request.commandId .payloadTooLarge
        ("Command payload exceeds " ++ toString maxCommandSize ++ " bytes")
        (some (.size a.request.json.utf8ByteSize)))
    else
      match a.ownership with
      | .unknown =>
        some (createControlError a.request.commandId .unknownRun
          ("Run " ++ a.request.runId ++ " not found") none)
      | .foreign =>
        some (createControlError a.request.commandId .forbiddenPeer
          "Run belongs to a different peer" none)
      | .own => none

def conflictResponse (commandId : String) : RemotePiControlResponse :=
  createControlError commandId .conflictingCommand "Command ID reused with different payload" none

def unknownResponse (commandId : String) : RemotePiControlResponse where
  commandId := commandId
  outcome := .outcomeUnknown
  projection := none
  error := some
    { code := .internalError
      message := "Command outcome unknown — dispatch started but no response was persisted. " ++
        "Reconciliation required."
      details := none }

def staleResponse : RemotePiControlResponse :=
  createControlError request.commandId .staleGeneration
    ("Expected generation " ++ toString request.expectedGeneration ++ ", run is at " ++
      toString run.executionGeneration) none

structure ControlFlight where
  arrival : ControlArrival
  run : ControlRun
  dispatch : Dispatch

structure ControlReply where
  arrival : ControlArrival
  response : RemotePiControlResponse

structure StartedCommand where
  peer : String
  commandId : String
  service : PiService
  approvalId : Option String

/-- The store, the calls that wait, and what the handler has done: the replies it gave and the side
effects it started, newest first. -/
structure ControlState where
  commands : Table CommandRow
  approvals : Table ConsumedApproval
  flights : List ControlFlight
  replies : List ControlReply
  started : List StartedCommand

def ControlState.empty : ControlState := ⟨∅, ∅, [], [], []⟩

variable (s : ControlState)

def ControlState.answer (a : ControlArrival) (response : RemotePiControlResponse) : ControlState :=
  { s with replies := ⟨a, response⟩ :: s.replies }

def RemotePiCommand.approval : RemotePiCommand → Option ResumeApproval
  | .resume approval => approval
  | _ => none

def startedOf (a : ControlArrival) : Dispatch → List StartedCommand
  | .answered _ => []
  | .serving service =>
    [⟨a.peer, a.request.commandId, service, a.request.command.approval.map (·.approvalId)⟩]

/-- The call on a new ledger row: a stale one is answered, another is marked and dispatched. -/
def dispatchNew (a : ControlArrival) (clock : ControlClock) (run : ControlRun) : ControlState :=
  if a.request.expectedGeneration ≠ run.executionGeneration then
    { s with
      commands := recordCommandOutcome s.commands a.peer a.request.commandId
        (staleResponse a.request run) }.answer a (staleResponse a.request run)
  else
    -- the mark comes before the side effect, so that a crash leaves an unknown outcome
    let commands :=
      if a.request.command = .status then s.commands
      else updateCommand s.commands a.peer a.request.commandId .dispatchStarted none
    let (dispatch, approvals) := dispatchCommand host clock s.approvals a.peer a.request run
    { s with
      commands := commands
      approvals := approvals
      flights := s.flights ++ [⟨a, run, dispatch⟩]
      started := startedOf a dispatch ++ s.started }

/-- `handleControlRequest` up to where it waits for its dispatch, or to its return. -/
def beginControl (peer : String) (request : RemotePiControlRequest) (clock : ControlClock)
    (run : Option ControlRun) : ControlState :=
  let a : ControlArrival := ⟨peer, request, clock.schema, runOwnership peer run⟩
  match refusal a, run with
  | some response, _ => s.answer a response
  -- a missing run is refused above
  | none, none => s
  | none, some run =>
    match reserveCommand s.commands peer request.commandId request.runId
        (computeControlRequestHash host request) with
    | (.conflict, _) => s.answer a (conflictResponse request.commandId)
    | (.replayCompleted, _) =>
      s.answer a (((s.commands.get a.key).bind (·.responseJson)).getD
        (createControlError request.commandId .internalError
          "Command in terminal state without response" none))
    | (.replayDispatchStarted, _) =>
      { s with
        commands := recordCommandOutcome s.commands peer request.commandId
          (unknownResponse request.commandId) }.answer a (unknownResponse request.commandId)
    | (.new, commands) => dispatchNew host { s with commands := commands } a clock run

def finishControl (place : Nat) (result : ServiceResult) : ControlState :=
  match s.flights[place]? with
  | none => s
  | some f =>
    let response := f.dispatch.response f.arrival.request f.run result
    -- the row is written whatever it says by now
    { s with
      commands := recordCommandOutcome s.commands f.arrival.peer f.arrival.request.commandId
        response
      flights := s.flights.eraseIdx place }.answer f.arrival response

inductive ControlEvent
  | request (peer : String) (request : RemotePiControlRequest) (clock : ControlClock)
      (run : Option ControlRun)
  | finish (place : Nat) (result : ServiceResult)
  | crash

def controlStep : ControlEvent → ControlState
  | .request peer request clock run => beginControl host s peer request clock run
  | .finish place result => finishControl s place result
  | .crash => { s with flights := [] }

end Abtars
