import Abtars.Board.Card
import Abtars.Lib.Json

/-!
# Steering instructions

A session queues instructions for its current execution.  The records are shared:
the queue and every lease handle handed out refer to the same mutable record, so
the model keeps the records in one table by id and lets the queue and the handles
hold ids.  What is published on the steering bus is kept in order.
-/

namespace Abtars

open Lib

/-! ## Records -/

inductive ExecutionInstructionKind
  | steer | followUp
  deriving DecidableEq

inductive ExecutionInstructionState
  | queued | leased | delivered | consumed | expired | failed
  deriving DecidableEq

inductive InstructionSource
  | tui | platform | system

structure QueuedSessionInstruction where
  id : String
  sessionId : String
  executionId : String
  kind : ExecutionInstructionKind
  source : InstructionSource
  text : String
  bytes : Nat
  createdAt : Millis
  state : ExecutionInstructionState

instance : Keyed QueuedSessionInstruction String := ⟨(·.id)⟩

inductive SessionStatus
  | creating | ready | paused | ended
  deriving DecidableEq

/-- The session fields the queue reads, and the queue: ids of records, oldest first. -/
structure ManagedSession where
  id : String
  peer : Option String
  status : SessionStatus
  activeExecutionId : Option String
  steeringAccepting : Bool
  instructionQueue : List String

structure InstructionLease where
  leaseId : String
  sessionId : String
  executionId : String
  kind : ExecutionInstructionKind
  instructions : List String

inductive SteerEventType
  | queued | consumed | rejected | expired | failed
  deriving DecidableEq

structure SteerEvent where
  type : SteerEventType
  instructionIds : List String
  sessionId : String
  executionId : String
  timestamp : Millis
  description : String

/-- A session with the records its queue and its lease handles refer to, the
handles handed out, and what was published. -/
structure SteerState where
  session : ManagedSession
  instructions : Table QueuedSessionInstruction
  instructionSeq : Nat
  leaseSeq : Nat
  leases : List InstructionLease
  published : List SteerEvent

def maxQueueSize : Nat := 20
def maxBytesPerItem : Nat := 4 * 1024
def maxTotalBytes : Nat := 32 * 1024

/-! ## Reading the queue -/

def isHollow (session : ManagedSession) : Bool := session.peer.any (· ≠ "")

def ManagedSession.execution (session : ManagedSession) : Option String :=
  session.activeExecutionId.filter (· ≠ "")

variable (s : SteerState)

def SteerState.queueWhere (p : QueuedSessionInstruction → Bool) : List String :=
  s.session.instructionQueue.filter fun id => (s.instructions.get id).any p

def SteerState.queuedBytes : Nat :=
  s.session.instructionQueue.foldl
    (fun sum id => sum + (s.instructions.get id).elim 0 (·.text.utf8ByteSize)) 0

def QueuedSessionInstruction.isOpen (record : QueuedSessionInstruction) : Bool :=
  record.state ≠ .expired ∧ record.state ≠ .failed

/-! ## Writing records -/

def QueuedSessionInstruction.withState (state : ExecutionInstructionState)
    (record : QueuedSessionInstruction) : QueuedSessionInstruction :=
  { record with state }

theorem key_withState (state : ExecutionInstructionState) (record : QueuedSessionInstruction) :
    Keyed.key (record.withState state) = Keyed.key record := rfl

def setStates (ids : List String) (state : ExecutionInstructionState)
    (records : Table QueuedSessionInstruction) : Table QueuedSessionInstruction :=
  records.updateWhere (·.id ∈ ids) (·.withState state) (key_withState state)

/-- The loop of the calls on a handle: every named record that may move gets the
new state.  The ids that moved, and the records. -/
def moveStates (may : QueuedSessionInstruction → Bool) (state : ExecutionInstructionState) :
    List String → Table QueuedSessionInstruction → List String × Table QueuedSessionInstruction
  | [], records => ([], records)
  | id :: ids, records =>
    if (records.get id).any may then
      let (moved, rest) := moveStates may state ids (setStates [id] state records)
      (id :: moved, rest)
    else moveStates may state ids records

def SteerState.dequeue (ids : List String) : SteerState :=
  { s with session :=
      { s.session with
        instructionQueue := s.session.instructionQueue.filter fun id => id ∉ ids } }

/-! ## Publishing -/

def steerEvent (type : SteerEventType) (instructionIds : List String)
    (sessionId executionId : String) (description : String) (now : Millis) : SteerEvent where
  type := type
  instructionIds := instructionIds
  sessionId := sessionId
  executionId := executionId
  timestamp := now
  description := sliceText description 200

def SteerState.publish (events : List SteerEvent) : SteerState :=
  { s with published := s.published ++ events }

def publishMultiGroup (records : List QueuedSessionInstruction) (type : SteerEventType)
    (sessionId reason : String) (now : Millis) : List SteerEvent :=
  (records.map (·.executionId)).eraseDups.map fun executionId =>
    steerEvent type ((records.filter (·.executionId = executionId)).map (·.id)) sessionId
      executionId reason now

/-! ## The operations -/

variable (now : Millis)

def expireStaleInstructions (s : SteerState) : SteerState :=
  let stale := s.queueWhere fun record =>
    some record.executionId ≠ s.session.activeExecutionId ∧ record.isOpen
  if stale = [] then s
  else
    ({ s with instructions := setStates stale .expired s.instructions }.dequeue stale).publish
      (publishMultiGroup (stale.filterMap s.instructions.get) .expired s.session.id
        "stale_generation" now)

inductive QueueRefusal
  | notLocal | notActive | staleExecution | notSteerable | tooLarge | queueFull

def instructionId (seq : Nat) : String :=
  "steer_" ++ toString now ++ "_" ++ toString seq

def leaseIdAt (seq : Nat) : String :=
  "lease_" ++ toString now ++ "_" ++ toString seq

def newInstruction (executionId text : String) (source : InstructionSource)
    (kind : Option ExecutionInstructionKind) :
    QueuedSessionInstruction where
  id := instructionId now (s.instructionSeq + 1)
  sessionId := s.session.id
  executionId := executionId
  kind := kind.getD .steer
  source := source
  text := text
  bytes := text.utf8ByteSize
  createdAt := now
  state := .queued

def SteerState.push (instruction : QueuedSessionInstruction) (now : Millis) : SteerState :=
  { s with
    session :=
      { s.session with
        instructionQueue := s.session.instructionQueue ++ [instruction.id] }
    instructions := s.instructions.insertOrIgnore (fun _ => false) instruction
    instructionSeq := s.instructionSeq + 1
    published := s.published ++
      [steerEvent .queued [instruction.id] s.session.id instruction.executionId
        instruction.text now] }

def queueInstruction (text : String) (source : InstructionSource)
    (kind : Option ExecutionInstructionKind) (s : SteerState) :
    Except QueueRefusal QueuedSessionInstruction × SteerState :=
  if isHollow s.session then (.error .notLocal, s)
  else if s.session.status = .ended ∨ s.session.status = .paused then (.error .notActive, s)
  else
    match s.session.execution with
    | none => (.error .staleExecution, s)
    | some executionId =>
      if ¬ s.session.steeringAccepting then (.error .notSteerable, s)
      else if text.utf8ByteSize > maxBytesPerItem then (.error .tooLarge, s)
      else if s.queuedBytes + text.utf8ByteSize > maxTotalBytes then (.error .queueFull, s)
      else if s.session.instructionQueue.length ≥ maxQueueSize then (.error .queueFull, s)
      else
        let instruction := newInstruction s now executionId text source kind
        (.ok instruction, s.push instruction now)

def leaseInstructions (kind : Option ExecutionInstructionKind) (s : SteerState) :
    Option InstructionLease × SteerState :=
  if s.session.instructionQueue = [] then (none, s)
  else
    let s := expireStaleInstructions now s
    match s.session.execution with
    | none => (none, s)
    | some current =>
      let requestedKind := kind.getD .steer
      let matching_ := s.queueWhere fun record =>
        record.executionId = current ∧ record.state = .queued ∧ record.kind = requestedKind
      if matching_ = [] then (none, s)
      else
        let lease : InstructionLease :=
          { leaseId := leaseIdAt now (s.leaseSeq + 1)
            sessionId := s.session.id
            executionId := current
            kind := requestedKind
            instructions := matching_ }
        (some lease,
          { s with
            instructions := setStates matching_ .leased s.instructions
            leaseSeq := s.leaseSeq + 1
            leases := s.leases ++ [lease] })

variable (lease : InstructionLease)

def markDelivered (s : SteerState) : SteerState :=
  { s with
    instructions :=
      (moveStates (·.state = .leased) .delivered lease.instructions s.instructions).2 }

/-- The closing half of `markConsumed` and `failAfterDelivery`. -/
def endDelivered (state : ExecutionInstructionState) (type : SteerEventType)
    (description : List String → String) (lease : InstructionLease) (now : Millis)
    (s : SteerState) : SteerState :=
  let (ids, records) := moveStates (·.state = .delivered) state lease.instructions s.instructions
  if ids = [] then { s with instructions := records }
  else
    ({ s with instructions := records }.dequeue ids).publish
      [steerEvent type ids lease.sessionId lease.executionId (description ids) now]

def batchText (ids : List String) : String := "batch of " ++ toString ids.length

def markConsumed (now : Millis) (s : SteerState) : SteerState :=
  endDelivered .consumed .consumed batchText lease now s

def restoreBeforeDelivery (s : SteerState) : SteerState :=
  { s with
    instructions :=
      (moveStates (·.state = .leased) .queued lease.instructions s.instructions).2 }

def failAfterDelivery (reason : String) (now : Millis) (s : SteerState) : SteerState :=
  endDelivered .failed .failed (fun _ => reason) lease now s

def drainInstructionBatch (s : SteerState) : List String × SteerState :=
  match leaseInstructions now none s with
  | (none, s) => ([], s)
  | (some lease, s) =>
    let s := markDelivered lease s
    let result := lease.instructions
    (result,
      ({ s with instructions := setStates result .consumed s.instructions }.dequeue
        result).publish
        [steerEvent .consumed result lease.sessionId lease.executionId (batchText result) now])

def expireInstructions (reason : String) (now : Millis) (s : SteerState) : SteerState :=
  if s.session.instructionQueue = [] then s
  else
    let terminal := s.queueWhere (·.isOpen)
    { s with
      session := { s.session with instructionQueue := [] }
      instructions := setStates terminal .expired s.instructions
      published := s.published ++
        publishMultiGroup (terminal.filterMap s.instructions.get) .expired s.session.id reason
          now }

def failInstructions (ids : List String) (reason : String) (now : Millis) (s : SteerState) :
    SteerState :=
  let (failed, records) := moveStates
    (fun record => record.id ∈ s.session.instructionQueue ∧ record.isOpen) .failed ids
    s.instructions
  if failed = [] then { s with instructions := records }
  else
    ({ s with instructions := records }.dequeue failed).publish
      (publishMultiGroup (failed.filterMap s.instructions.get) .failed s.session.id reason now)

end Abtars
