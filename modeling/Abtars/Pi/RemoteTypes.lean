import Abtars.Lib.Json

/-!
# Remote Pi events

The lifecycle events an owner of a Pi run sends to the peer that asked for it: the
public projection of the run, the event around it and what makes an event valid.
-/

namespace Abtars

open Lib

inductive RemotePiEventKind
  | accepted | queued | starting | running | progress | awaitingInput | inputCleared
  | cancelling | interrupted | resumed | completed | failed | cancelled
  deriving DecidableEq

inductive PiRunStatus
  | queued | starting | running | awaitingInput | cancelling | completed | failed | cancelled
  | interrupted
  deriving DecidableEq

def PiRunStatus.text : PiRunStatus → String
  | .queued => "queued"
  | .starting => "starting"
  | .running => "running"
  | .awaitingInput => "awaiting_input"
  | .cancelling => "cancelling"
  | .completed => "completed"
  | .failed => "failed"
  | .cancelled => "cancelled"
  | .interrupted => "interrupted"

def PiRunStatus.isTerminal : PiRunStatus → Bool
  | .completed | .failed | .cancelled => true
  | _ => false

inductive DeliveryPolicy
  | leaveRemote | patchArtifact | commitPush
  deriving DecidableEq

def DeliveryPolicy.text : DeliveryPolicy → String
  | .leaveRemote => "leave_remote"
  | .patchArtifact => "patch_artifact"
  | .commitPush => "commit_push"

inductive DeliveryStatus
  | pending | succeeded | failed | notRequested
  deriving DecidableEq

inductive PendingInputType
  | select | confirm | input | editor
  deriving DecidableEq

structure RemotePiProgress where
  step : Option String
  message : Option String
  percent : Option Int
  deriving DecidableEq

structure InputOption where
  id : String
  label : String
  deriving DecidableEq

structure PendingInput where
  requestId : String
  type : PendingInputType
  title : Option String
  prompt : Option String
  options : Option (List InputOption)
  deriving DecidableEq

structure RemotePiUsage where
  inputTokens : Option Rat
  outputTokens : Option Rat
  totalTokens : Option Rat
  deriving DecidableEq

structure DeliveryReference where
  kind : String
  id : String
  sha256 : Option String
  size : Option Nat
  deriving DecidableEq

structure RemotePiDelivery where
  policy : DeliveryPolicy
  status : DeliveryStatus
  references : Option (List DeliveryReference)
  error : Option String
  deriving DecidableEq

/-- `RemotePiPublicProjectionV1`: what the origin may know of a run. -/
structure RemotePiPublicProjection where
  status : PiRunStatus
  generation : Nat
  lastActivityAt : Option String
  progress : Option RemotePiProgress
  pendingInput : Option PendingInput
  resultSummary : Option String
  errorSummary : Option String
  usage : Option RemotePiUsage
  changedFilesSummary : Option String
  resumeCapability : Option String
  delivery : Option RemotePiDelivery
  deriving DecidableEq

structure RemotePiEventPayload where
  eventId : String
  originPeer : String
  originRequestId : String
  runId : String
  remoteCardId : Nat
  generation : Nat
  sequence : Nat
  kind : RemotePiEventKind
  occurredAt : String
  projection : RemotePiPublicProjection
  deriving DecidableEq

/-- `RemotePiEventV1`. -/
structure RemotePiEvent extends RemotePiEventPayload where
  contentSha256 : String
  deriving DecidableEq

def deriveEventId (runId : String) (sequence : Nat) : String :=
  "evt_" ++ runId ++ "_" ++ toString sequence

/-! ## Validation -/

def maxProjectionString : Nat := 5000
def maxInputOptions : Nat := 10
def maxDeliveryReferences : Nat := 20

def firstRefusal (refusals : List (Option String)) : Option String :=
  refusals.findSome? id

def refuseIf (condition : Prop) [Decidable condition] (message : String) : Option String :=
  if condition then some message else none

def validateBoundedString (value : Option String) (fieldName : String) : Option String :=
  refuseIf (value.any fun text => maxProjectionString < text.utf8ByteSize)
    (fieldName ++ " exceeds " ++ toString maxProjectionString ++ " bytes")

def validateProgress (progress : RemotePiProgress) : Option String :=
  firstRefusal
    [validateBoundedString progress.step "progress.step",
      validateBoundedString progress.message "progress.message",
      refuseIf (progress.percent.any fun percent => percent < 0 ∨ 100 < percent)
        "progress.percent must be a number in [0, 100]"]

def validatePendingInput (pending : PendingInput) : Option String :=
  firstRefusal
    ([validateBoundedString (some pending.requestId) "pending_input.request_id",
      validateBoundedString pending.title "pending_input.title",
      validateBoundedString pending.prompt "pending_input.prompt",
      refuseIf (pending.options.any fun options => maxInputOptions < options.length)
        ("pending_input.options exceeds " ++ toString maxInputOptions ++ " items")] ++
      (pending.options.getD []).flatMap fun option =>
        [validateBoundedString (some option.id) "pending_input.options[].id",
          validateBoundedString (some option.label) "pending_input.options[].label"])

/-- `validatePublicProjection`; a status is within its bound. -/
def validatePublicProjection (projection : RemotePiPublicProjection) : Option String :=
  firstRefusal
    [validateBoundedString projection.resultSummary "result_summary",
      validateBoundedString projection.errorSummary "error_summary",
      validateBoundedString projection.changedFilesSummary "changed_files_summary",
      validateBoundedString projection.resumeCapability "resume_capability",
      validateBoundedString (projection.delivery.bind (·.error)) "delivery.error",
      projection.progress.bind validateProgress,
      projection.pendingInput.bind validatePendingInput,
      refuseIf ((projection.delivery.bind (·.references)).any fun references =>
          maxDeliveryReferences < references.length)
        ("delivery.references exceeds " ++ toString maxDeliveryReferences ++ " items")]

variable (digest : RemotePiEventPayload → String)

/-- `validateEventV1`, for the digest of a payload. -/
def validateEvent (event : RemotePiEvent) : Option String :=
  firstRefusal
    [refuseIf (event.eventId = "" ∨ event.contentSha256 = "" ∨ event.originPeer = "" ∨
        event.originRequestId = "") "Event missing required fields",
      refuseIf (event.runId = "" ∨ event.remoteCardId = 0 ∨ event.generation < 1 ∨
        event.sequence < 1) "Event has invalid identifiers",
      refuseIf (event.occurredAt = "") "Event missing kind or timestamp",
      validatePublicProjection event.projection,
      refuseIf (event.projection.generation ≠ event.generation)
        "Event generation does not match projection generation",
      refuseIf (event.eventId ≠ deriveEventId event.runId event.sequence)
        ("Event ID mismatch: expected " ++ deriveEventId event.runId event.sequence ++ ", got " ++
          event.eventId),
      refuseIf (digest event.toRemotePiEventPayload ≠ event.contentSha256)
        ("Content hash mismatch for event " ++ event.eventId)]

def RemotePiEvent.isValid (event : RemotePiEvent) : Bool :=
  (validateEvent digest event).isNone

end Abtars
