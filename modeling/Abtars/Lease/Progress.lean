import Abtars.Worker.Contract

/-!
# Executor progress facts and lease snapshots

The facts an executor reports, the checks they pass on the way in, the lease
snapshot they are folded into, and the rows of `attempt_lease_snapshots` and
`attempt_progress_events`.
-/

namespace Abtars

open Lib

/-! ## Facts -/

inductive ProgressKind
  | alive | producingOutput | usingTool | durableMilestone | awaitingInput | stalled
  deriving DecidableEq

def ProgressKind.text : ProgressKind → String
  | .alive => "alive"
  | .producingOutput => "producing_output"
  | .usingTool => "using_tool"
  | .durableMilestone => "durable_milestone"
  | .awaitingInput => "awaiting_input"
  | .stalled => "stalled"

inductive ProgressPhase
  | start | advance | end_ | resolved
  deriving DecidableEq

def ProgressPhase.text : ProgressPhase → String
  | .start => "start"
  | .advance => "advance"
  | .end_ => "end"
  | .resolved => "resolved"

inductive LeaseExecutorKind
  | agent | pi
  deriving DecidableEq

def LeaseExecutorKind.kind : LeaseExecutorKind → ExecutorKind
  | .agent => .agent
  | .pi => .pi

structure ProgressPayload where
  operationId : Option String
  operationLabel : Option String
  expectedTimeoutMs : Option Int
  progressUnits : Option Int
  observationId : Option String
  milestoneId : Option String
  inputRequestId : Option String
  summary : Option String
  deriving DecidableEq

structure ProgressFact where
  schemaVersion : Int
  factId : String
  attemptId : String
  claimGeneration : Int
  executorKind : LeaseExecutorKind
  executorId : String
  kind : ProgressKind
  phase : Option ProgressPhase
  producerAt : Option String
  payload : ProgressPayload
  deriving DecidableEq

def maxEventJsonBytes : Nat := 10000
def maxPayloadSummaryLength : Nat := 500
def maxIdentifierLength : Nat := 200
def maxSafeInteger : Int := 9007199254740991

/-! ## Validation -/

structure ProgressIssue where
  tag : String
  path : String
  message : String

def identifierIssues (value path name : String) : List ProgressIssue :=
  if value = "" ∨ value.utf8ByteSize > maxIdentifierLength then
    [⟨"missing_field", path, name ++ " is required"⟩]
  else []

def boundedStringIssues (field : String) (maxBytes : Nat) (value : Option String) :
    List ProgressIssue :=
  match value with
  | none => []
  | some v =>
    if v.utf8ByteSize > maxBytes then
      [⟨"invalid_payload", "$.payload." ++ field, field ++ " must be a bounded string"⟩]
    else []

def safeIntegerIssues (field : String) (value : Option Int) : List ProgressIssue :=
  match value with
  | none => []
  | some v =>
    if v < 0 ∨ v > maxSafeInteger then
      [⟨"invalid_payload", "$.payload." ++ field,
        field ++ " must be a non-negative safe integer"⟩]
    else []

variable (fact : ProgressFact)

def requiredPayloadIssues (kind : ProgressKind) (field : String) (value : Option String) :
    List ProgressIssue :=
  if fact.kind = kind ∧ value = none then
    [⟨"missing_field", "$.payload." ++ field, kind.text ++ " requires " ++ field⟩]
  else []

def phaseOptions : ProgressKind → Option (List ProgressPhase)
  | .usingTool => some [.start, .advance, .end_]
  | .awaitingInput => some [.start, .resolved]
  | _ => none

def phaseIssues : List ProgressIssue :=
  match phaseOptions fact.kind, fact.phase with
  | none, _ => []
  | some _, none => [⟨"missing_field", "$.phase", fact.kind.text ++ " requires a phase"⟩]
  | some allowed, some phase =>
    if phase ∈ allowed then []
    else [⟨"type_error", "$.phase",
      fact.kind.text ++ " does not support phase \"" ++ phase.text ++ "\""⟩]

def payloadIssues : List ProgressIssue :=
  boundedStringIssues "operation_id" maxIdentifierLength fact.payload.operationId ++
  boundedStringIssues "operation_label" maxIdentifierLength fact.payload.operationLabel ++
  boundedStringIssues "observation_id" maxIdentifierLength fact.payload.observationId ++
  boundedStringIssues "milestone_id" maxIdentifierLength fact.payload.milestoneId ++
  boundedStringIssues "input_request_id" maxIdentifierLength fact.payload.inputRequestId ++
  boundedStringIssues "summary" maxPayloadSummaryLength fact.payload.summary ++
  safeIntegerIssues "expected_timeout_ms" fact.payload.expectedTimeoutMs ++
  safeIntegerIssues "progress_units" fact.payload.progressUnits ++
  requiredPayloadIssues fact .durableMilestone "milestone_id" fact.payload.milestoneId ++
  requiredPayloadIssues fact .usingTool "operation_id" fact.payload.operationId ++
  requiredPayloadIssues fact .awaitingInput "input_request_id" fact.payload.inputRequestId

def producerAtIssues : List ProgressIssue :=
  match fact.producerAt with
  | none => []
  | some v =>
    if utf16Length v > 64 then
      [⟨"type_error", "$.producer_at", "producer_at must be a bounded string"⟩]
    else []

def fieldIssues : List ProgressIssue :=
  identifierIssues fact.factId "$.fact_id" "fact_id" ++
  identifierIssues fact.attemptId "$.attempt_id" "attempt_id" ++
  (if fact.claimGeneration < 1 ∨ fact.claimGeneration > maxSafeInteger then
    [⟨"type_error", "$.claim_generation", "claim_generation must be a positive number"⟩]
  else []) ++
  identifierIssues fact.executorId "$.executor.id" "executor id" ++
  phaseIssues fact ++ payloadIssues fact ++ producerAtIssues fact

def optionalText (key : String) (value : Option String) : List (String × Json) :=
  optionalMember key (value.map .str)

def optionalInt (key : String) (value : Option Int) : List (String × Json) :=
  optionalMember key (value.map fun v => .num v)

def ProgressPayload.toJson (p : ProgressPayload) : Json :=
  .obj (optionalText "operation_id" p.operationId ++
    optionalText "operation_label" p.operationLabel ++
    optionalInt "expected_timeout_ms" p.expectedTimeoutMs ++
    optionalInt "progress_units" p.progressUnits ++
    optionalText "observation_id" p.observationId ++
    optionalText "milestone_id" p.milestoneId ++
    optionalText "input_request_id" p.inputRequestId ++
    optionalText "summary" p.summary)

def ProgressFact.toJson (fact : ProgressFact) : Json :=
  .obj ([("schema_version", .num fact.schemaVersion), ("fact_id", .str fact.factId),
    ("attempt_id", .str fact.attemptId), ("claim_generation", .num fact.claimGeneration),
    ("executor", .obj [("kind", .str fact.executorKind.kind.text), ("id", .str fact.executorId)]),
    ("kind", .str fact.kind.text)] ++
    optionalText "phase" (fact.phase.map (·.text)) ++
    optionalText "producer_at" fact.producerAt ++ [("payload", fact.payload.toJson)])

def ProgressFact.jsonBytes : Nat :=
  (Json.stringify (fun _ => "") fact.toJson).utf8ByteSize

/-- `validateProgressEvent`: the issues of a fact, none for a valid one. -/
def validateProgressEvent : List ProgressIssue :=
  if fact.schemaVersion ≠ 1 then
    [⟨"unknown_version", "$.schema_version",
      "unsupported version: " ++ toString fact.schemaVersion⟩]
  else if fieldIssues fact ≠ [] then fieldIssues fact
  else if fact.jsonBytes > maxEventJsonBytes then
    [⟨"too_long", "$", "event exceeds " ++ toString maxEventJsonBytes ++ " bytes"⟩]
  else []

/-! ## Effects and fingerprints -/

inductive LeaseEffect
  | none_ | liveness | meaningful | state

def computeLeaseEffect (kind : ProgressKind) (phase : Option ProgressPhase) : LeaseEffect :=
  match kind with
  | .durableMilestone => .meaningful
  | .producingOutput => .liveness
  | .usingTool => if phase = some .end_ then .meaningful else .liveness
  | .awaitingInput => if phase = some .resolved then .meaningful else .state
  | .stalled => .state
  | .alive => .liveness

def fingerprintPart (value : Option String) : List String :=
  match value with
  | none => []
  | some v => if v = "" then [] else [v]

def fingerprintParts : List String :=
  [fact.kind.text, (fact.phase.map (·.text)).getD ""] ++
    fingerprintPart fact.payload.operationId ++
    fingerprintPart fact.payload.milestoneId ++
    fingerprintPart fact.payload.inputRequestId ++
    (fact.payload.progressUnits.map toString).toList ++
    fingerprintPart fact.payload.observationId ++
    (fingerprintPart fact.payload.summary).map (sliceText · 100)

/-- `computeSemanticFingerprint`, over a SHA-256 hexadecimal digest. -/
def computeSemanticFingerprint (sha256 : String → String) (fact : ProgressFact) : String :=
  sliceText (sha256 (String.intercalate "|" (fingerprintParts fact))) 16

/-! ## Lease snapshots -/

inductive LeaseReason
  | livenessExpired | progressExpired | toolSilenceExpired | awaitingInputExpired
  | explicitStall | hardDeadline | inspectionUnknownExhausted
  deriving DecidableEq

def LeaseReason.text : LeaseReason → String
  | .livenessExpired => "liveness_expired"
  | .progressExpired => "progress_expired"
  | .toolSilenceExpired => "tool_silence_expired"
  | .awaitingInputExpired => "awaiting_input_expired"
  | .explicitStall => "explicit_stall"
  | .hardDeadline => "hard_deadline"
  | .inspectionUnknownExhausted => "inspection_unknown_exhausted"

inductive EvaluationPhase
  | healthy | warning | inspectDue | inspecting | inspectGrace | cancelRequested | closed
  deriving DecidableEq

inductive InspectionOutcome
  | running | terminal | unknown
  deriving DecidableEq

structure AttemptLeaseOperation where
  id : String
  label : String
  startedAt : Millis
  absoluteSilenceDeadlineAt : Millis
  progressUnits : Option Int
  lastObservationId : Option String

structure AttemptLeaseAwaitingInput where
  requestId : String
  since : Millis
  deadlineAt : Millis

structure AttemptLeaseEvaluation where
  phase : EvaluationPhase
  reason : Option LeaseReason
  inspectionCount : Nat
  lastInspectionOutcome : Option InspectionOutcome
  graceDeadlineAt : Option Millis
  version : Nat

structure AttemptLeaseSnapshot where
  attemptId : String
  cardId : Nat
  claimGeneration : Int
  executorKind : ExecutorKind
  executorId : String
  highWaterSequence : Nat
  stateVersion : Nat
  semanticState : ProgressKind
  semanticFingerprint : Option String
  lastMilestoneId : Option String
  lastReceivedAt : Millis
  lastLivenessAt : Millis
  lastMeaningfulProgressAt : Millis
  livenessDeadlineAt : Millis
  progressDeadlineAt : Millis
  outputOnlySince : Option Millis
  outputUnits : Option Int
  operation : Option AttemptLeaseOperation
  awaitingInput : Option AttemptLeaseAwaitingInput
  evaluation : AttemptLeaseEvaluation
  nextEvaluationAt : Option Millis
  closedAt : Option Millis
  closeReason : Option String
  updatedAt : Millis

structure LeasePolicy where
  livenessMs : Int
  meaningfulProgressMs : Int
  warningBeforeMs : Int
  inspectGraceMs : Int
  maxUnknownInspections : Nat
  maxToolSilenceMs : Int
  awaitingInputMs : Int
  outputOnlyProgressCapMs : Int

def defaultLocalPolicy : LeasePolicy where
  livenessMs := 120000
  meaningfulProgressMs := 300000
  warningBeforeMs := 30000
  inspectGraceMs := 30000
  maxUnknownInspections := 3
  maxToolSilenceMs := 600000
  awaitingInputMs := 600000
  outputOnlyProgressCapMs := 120000

/-- A row of `attempt_lease_snapshots`: the scheduling columns beside the
snapshot they are read off. -/
structure LeaseRow where
  attemptId : String
  cardId : Nat
  claimGeneration : Int
  executorKind : ExecutorKind
  executorId : String
  highWaterSequence : Nat
  stateVersion : Nat
  nextEvaluationAt : Option Millis
  closedAt : Option Millis
  snapshotJson : AttemptLeaseSnapshot
  updatedAt : Millis

instance : Keyed LeaseRow String := ⟨LeaseRow.attemptId⟩

/-- What `event_json` records: the accepted fact, or the closing of the lease. -/
inductive ProgressEvent
  | fact (f : ProgressFact) (sequence : Nat)
  | closing (reason : String) (closedAt : Millis) (sequence : Nat)

/-- A row of `attempt_progress_events`. -/
structure ProgressEventRow where
  attemptId : String
  claimGeneration : Int
  sequence : Nat
  factId : String
  kind : ProgressKind
  fingerprint : String
  leaseEffect : LeaseEffect
  receivedAt : Millis
  event : ProgressEvent

instance : Keyed ProgressEventRow (String × Int × Nat) :=
  ⟨fun e => (e.attemptId, e.claimGeneration, e.sequence)⟩

def ProgressEventRow.clashes (new old : ProgressEventRow) : Bool :=
  old.attemptId = new.attemptId ∧ old.claimGeneration = new.claimGeneration ∧
    old.factId = new.factId

end Abtars
