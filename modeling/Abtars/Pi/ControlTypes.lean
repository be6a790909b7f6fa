import Abtars.Pi.RemoteTypes

/-!
# Remote Pi control requests

The commands a peer sends to the owner of a Pi run, the responses to them, and what makes a request
and a resume approval valid.  A valid request is so at an instant: an approval is not yet valid
before it was issued and no longer once it has expired.
-/

namespace Abtars

open Lib

/-! ## Requests -/

/-- `ResumeApprovalV1`. -/
structure ResumeApproval where
  approvalId : String
  runId : String
  originPeer : String
  commandId : String
  approvingPrincipal : String
  issuedAt : String
  expiresAt : String
  interruptedGeneration : Int
  approvalStatementSha256 : String
  deriving DecidableEq

inductive ReplyValue
  | undefined
  | string (text : String)
  /-- An object, an array or null. -/
  | object (json : String)
  /-- A number or a boolean. -/
  | scalar (json : String)
  deriving DecidableEq

/-- `RemotePiCommandV1`, and a command that is none of these. -/
inductive RemotePiCommand
  | status
  | reply (requestId : String) (value : ReplyValue)
  | steer (instruction : String)
  | cancel
  | resume (approval : Option ResumeApproval)
  | unsupported (action : String)
  deriving DecidableEq

/-- `RemotePiControlRequestV1`. -/
structure RemotePiControlRequest where
  version : Int
  commandId : String
  runId : String
  expectedGeneration : Int
  command : RemotePiCommand
  deriving DecidableEq

/-! ## Responses -/

inductive ControlOutcome
  | succeeded | rejected | outcomeUnknown
  deriving DecidableEq

inductive ControlErrorCode
  | unknownRun | forbiddenPeer | staleGeneration | invalidState | missingRequest
  | duplicateCommand | conflictingCommand | invalidApproval | expiredApproval
  | missingResumeCapability | sessionContinuityFailed | payloadTooLarge | unsupportedAction
  | internalError
  deriving DecidableEq

inductive ControlErrorDetails
  | details (text : String)
  | size (bytes : Nat)
  deriving DecidableEq

structure ControlError where
  code : ControlErrorCode
  message : String
  details : Option ControlErrorDetails
  deriving DecidableEq

/-- `RemotePiControlResponseV1`. -/
structure RemotePiControlResponse where
  commandId : String
  outcome : ControlOutcome
  projection : Option RemotePiPublicProjection
  error : Option ControlError
  deriving DecidableEq

def createControlError (commandId : String) (code : ControlErrorCode) (message : String)
    (details : Option ControlErrorDetails) : RemotePiControlResponse :=
  ⟨commandId, .rejected, none, some ⟨code, message, details⟩⟩

def controlSuccess (commandId : String) (projection : RemotePiPublicProjection) :
    RemotePiControlResponse :=
  ⟨commandId, .succeeded, some projection, none⟩

/-! ## Texts and digests -/

def jsonObject (members : List (String × String)) : String :=
  "\x7b" ++ String.intercalate "," (members.map fun m => Json.quote m.1 ++ ":" ++ m.2) ++ "\x7d"

def ReplyValue.json : ReplyValue → Option String
  | .undefined => none
  | .string text => some (Json.quote text)
  | .object json => some json
  | .scalar json => some json

variable (approval : ResumeApproval)

def ResumeApproval.statement : List (String × String) :=
  [("approval_id", Json.quote approval.approvalId),
    ("run_id", Json.quote approval.runId),
    ("origin_peer", Json.quote approval.originPeer),
    ("command_id", Json.quote approval.commandId),
    ("approving_principal", Json.quote approval.approvingPrincipal),
    ("issued_at", Json.quote approval.issuedAt),
    ("expires_at", Json.quote approval.expiresAt),
    ("interrupted_generation", toString approval.interruptedGeneration)]

def canonicalApprovalStatement : String :=
  jsonObject approval.statement

def ResumeApproval.json : String :=
  jsonObject (approval.statement ++
    [("approval_statement_sha256", Json.quote approval.approvalStatementSha256)])

def RemotePiCommand.json : RemotePiCommand → String
  | .status => jsonObject [("action", Json.quote "status")]
  | .reply requestId value =>
    jsonObject ([("action", Json.quote "reply"), ("request_id", Json.quote requestId)] ++
      value.json.toList.map fun json => ("value", json))
  | .steer instruction =>
    jsonObject [("action", Json.quote "steer"), ("instruction", Json.quote instruction)]
  | .cancel => jsonObject [("action", Json.quote "cancel")]
  | .resume approval =>
    jsonObject (("action", Json.quote "resume") ::
      approval.toList.map fun approval => ("approval", approval.json))
  | .unsupported action => jsonObject [("action", Json.quote action)]

def RemotePiControlRequest.json (request : RemotePiControlRequest) : String :=
  jsonObject
    [("version", toString request.version),
      ("command_id", Json.quote request.commandId),
      ("run_id", Json.quote request.runId),
      ("expected_generation", toString request.expectedGeneration),
      ("command", request.command.json)]

structure ControlHost where
  /-- Hexadecimal SHA-256 of a text. -/
  sha256 : String → String
  /-- The time value of a date text, which an invalid one has not. -/
  dateValue : String → Option Int

def computeControlRequestHash (host : ControlHost) (request : RemotePiControlRequest) : String :=
  host.sha256 request.json

def verifyApprovalStatement (host : ControlHost) (approval : ResumeApproval) : Bool :=
  host.sha256 (canonicalApprovalStatement approval) = approval.approvalStatementSha256

/-! ## Validation -/

def maxCommandSize : Nat := 50000
def maxSteerInstruction : Nat := 2000
def maxReplyValueSize : Nat := 10000

/-- `validateResumeApproval` at an instant, given by its ISO text. -/
def validateResumeApproval (now : String) (approval : ResumeApproval) : Option String :=
  firstRefusal
    [refuseIf (approval.approvalId = "" ∨ approval.runId = "" ∨ approval.originPeer = "")
        "Approval missing required fields",
      refuseIf (approval.commandId = "" ∨ approval.approvingPrincipal = "")
        "Approval missing identity fields",
      refuseIf (approval.issuedAt = "" ∨ approval.expiresAt = "")
        "Approval missing timestamp fields",
      refuseIf (approval.interruptedGeneration < 1) "Approval has invalid interrupted_generation",
      refuseIf (approval.approvalStatementSha256 = "") "Approval missing approval_statement_sha256",
      refuseIf (approval.expiresAt < now) "Approval has expired",
      refuseIf (now < approval.issuedAt) "Approval issued in the future"]

/-- The switch of `validateControlRequestV1` over the commands. -/
def validateCommand (now : String) : RemotePiCommand → Option String
  | .status => none
  | .reply requestId value =>
    firstRefusal
      [refuseIf (requestId = "") "Reply command missing request_id",
        match value with
        | .scalar _ => some "Reply value must be string or object"
        | .string text =>
          refuseIf (maxReplyValueSize < text.utf8ByteSize)
            ("Reply value exceeds " ++ toString maxReplyValueSize ++ " bytes")
        | _ => none]
  | .steer instruction =>
    firstRefusal
      [refuseIf (instruction = "") "Steer command missing instruction",
        refuseIf (maxSteerInstruction < instruction.utf8ByteSize)
          ("Steer instruction exceeds " ++ toString maxSteerInstruction ++ " bytes")]
  | .cancel => none
  | .resume none => some "Resume command missing approval"
  | .resume (some approval) => validateResumeApproval now approval
  | .unsupported _ => some "Unsupported command action: [object Object]"

/-- `validateControlRequestV1`. -/
def validateControlRequest (now : String) (request : RemotePiControlRequest) : Option String :=
  firstRefusal
    [refuseIf (request.version ≠ 1)
        ("Unsupported control request version: " ++ toString request.version),
      refuseIf (request.commandId = "" ∨ request.runId = "" ∨ request.expectedGeneration < 1)
        "Control request missing required fields",
      validateCommand now request.command]

end Abtars
