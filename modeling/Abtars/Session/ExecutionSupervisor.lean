import Abtars.Lib.Run
import Mathlib.Logic.Function.Basic
import Mathlib.Data.List.Nodup

/-!
# Executions and their slots

`createExecutionSupervisor`: control handles, the sessions they are bound to, and the cards that
occupy a slot of a session type, each with the execution it was admitted for.
-/

namespace Abtars

open Lib

inductive SessionType
  | A | B | C | T | P | S | O | W | D | H | K
  deriving DecidableEq

inductive TerminalOutcome
  | completed
  | failed
  | cancelled
  | timedOut

inductive CancelReason
  | operator
  | deadline
  | projectAbort
  | shutdown
  | superseded
  | sessionEnd

/-- `ExecutionControlImpl`; the callback of a bound execution is not part of it. -/
structure ExecutionControl where
  executionRef : String
  cardId : Option Nat
  cancelReason : Option CancelReason
  terminalOutcome : Option TerminalOutcome

def ExecutionControl.cancelled (c : ExecutionControl) : Bool := c.cancelReason.isSome

def ExecutionControl.terminal (c : ExecutionControl) : Bool := c.terminalOutcome.isSome

/-- `markTerminal`: the first outcome stays. -/
def ExecutionControl.markTerminal (outcome : TerminalOutcome) (c : ExecutionControl) :
    Bool × ExecutionControl :=
  if c.terminal then (false, c) else (true, { c with terminalOutcome := some outcome })

/-- `requestCancel` and `signalCancel`, up to the callback. -/
def ExecutionControl.requestCancel (reason : CancelReason) (c : ExecutionControl) :
    ExecutionControl :=
  if c.terminal then c else { c with cancelReason := some reason }

abbrev Slot := SessionType × Nat

abbrev Running := List (SessionType × List Nat)

/-- The maps of the closure.  A handle is named by its place among all that were made; one that is
removed from `controls` can still be marked. -/
structure Supervisor where
  handles : List ExecutionControl
  controls : String → Option Nat
  sessionBindings : String → Option String
  refSessions : String → Option String
  running : Running
  occupancyOwner : Slot → Option String
  lastHealerDoneAt : Int

/-- `ExecutionSupervisorOptions`, as far as it has a maximum. -/
structure SupervisorOptions where
  maxConcurrent : SessionType → Option Nat

def SupervisorOptions.max (options : SupervisorOptions) (type : SessionType) : Nat :=
  (options.maxConcurrent type).getD 5

def Running.cards (type : SessionType) : Running → List Nat
  | [] => []
  | (t, set) :: rest => if t = type then set else Running.cards type rest

/-- `running.get(type).add(cardId)`, in a set that is made when there is none. -/
def Running.add (type : SessionType) (cardId : Nat) : Running → Running
  | [] => [(type, [cardId])]
  | (t, set) :: rest =>
    if t = type then (t, if cardId ∈ set then set else set ++ [cardId]) :: rest
    else (t, set) :: Running.add type cardId rest

def Running.delete (type : SessionType) (cardId : Nat) : Running → Running
  | [] => []
  | (t, set) :: rest =>
    if t = type then (t, set.erase cardId) :: rest
    else (t, set) :: Running.delete type cardId rest

namespace Supervisor

variable (options : SupervisorOptions)

def start : Supervisor where
  handles := []
  controls := fun _ => none
  sessionBindings := fun _ => none
  refSessions := fun _ => none
  running := []
  occupancyOwner := fun _ => none
  lastHealerDoneAt := 0

def control (s : Supervisor) (executionRef : String) : Option ExecutionControl :=
  (s.controls executionRef).bind (s.handles[·]?)

def Holds (s : Supervisor) (slot : Slot) : Prop := slot.2 ∈ s.running.cards slot.1

instance (s : Supervisor) (slot : Slot) : Decidable (s.Holds slot) :=
  inferInstanceAs (Decidable (_ ∈ _))

/-! ## Operations -/

def canAdmit (now : Int) (type : SessionType) (s : Supervisor) : Bool :=
  if options.max type ≤ (s.running.cards type).length then false
  -- two minutes after the last healer is done
  else if type = .H ∧ now - s.lastHealerDoneAt < 120000 then false
  else true

/-- `admit`. -/
def admitCard (now : Int) (type : SessionType) (cardId : Nat) (executionRef : Option String)
    (s : Supervisor) : Bool × Supervisor :=
  if canAdmit options now type s = false then (false, s)
  else (true, { s with
    running := s.running.add type cardId
    occupancyOwner := match executionRef with
      | none => s.occupancyOwner
      | some ref => Function.update s.occupancyOwner (type, cardId) (some ref) })

def ownedType (owner : Slot → Option String) (cardId : Nat) (executionRef : String) :
    Running → Option SessionType
  | [] => none
  | (t, set) :: rest =>
    if cardId ∉ set then ownedType owner cardId executionRef rest
    else if owner (t, cardId) ≠ none ∧ owner (t, cardId) ≠ some executionRef then
      ownedType owner cardId executionRef rest
    else some t

/-- `releaseOwnedCard`, and the types its listeners are notified of. -/
def releaseOwnedCard (now : Int) (cardId : Nat) (executionRef : String) (s : Supervisor) :
    List SessionType × Supervisor :=
  match ownedType s.occupancyOwner cardId executionRef s.running with
  | none => ([], s)
  | some type => ([type], { s with
      running := s.running.delete type cardId
      occupancyOwner := Function.update s.occupancyOwner (type, cardId) none
      lastHealerDoneAt := if type = .H then now else s.lastHealerDoneAt })

variable (executionRef : String)

/-- `open`: a handle is registered once. -/
def openControl (cardId : Option Nat) (s : Supervisor) : Supervisor :=
  match s.control executionRef with
  | some _ => s
  | none => { s with
      handles := s.handles ++ [⟨executionRef, cardId, none, none⟩]
      controls := Function.update s.controls executionRef (some s.handles.length) }

/-- `bindSession`: a session is taken over from an execution that is terminal or gone. -/
def bindSession (sessionId : String) (s : Supervisor) : Bool × Supervisor :=
  let bound (s : Supervisor) : Bool × Supervisor := (true, { s with
    sessionBindings := Function.update s.sessionBindings sessionId (some executionRef)
    refSessions := Function.update s.refSessions executionRef (some sessionId) })
  match s.sessionBindings sessionId with
  | none => bound s
  | some existingRef =>
    if existingRef = executionRef then bound s
    else if (s.control existingRef).any (!·.terminal) then (false, s)
    else bound { s with refSessions := Function.update s.refSessions existingRef none }

def modifyHandle (handle : Nat) (f : ExecutionControl → ExecutionControl) (s : Supervisor) :
    Supervisor :=
  { s with handles := s.handles.modify handle f }

def cancel (reason : CancelReason) (s : Supervisor) : Supervisor :=
  match s.controls executionRef with
  | none => s
  | some handle => s.modifyHandle handle (·.requestCancel reason)

/-- `close`, with what it notifies of. -/
def close (now : Int) (executionRef : String) (outcome : TerminalOutcome) (s : Supervisor) :
    Bool × List SessionType × Supervisor :=
  match s.controls executionRef, s.control executionRef with
  | some handle, some ctrl =>
    if s.refSessions executionRef = none then (false, [], s)
    else
      let (transitioned, _) := ctrl.markTerminal outcome
      let s := s.modifyHandle handle fun c => (c.markTerminal outcome).2
      match ctrl.cardId with
      | none => (transitioned, [], s)
      | some cardId => (transitioned, releaseOwnedCard now cardId executionRef s)
  | _, _ => (false, [], s)

def remove (s : Supervisor) : Supervisor :=
  let s' := { s with controls := Function.update s.controls executionRef none }
  match s.refSessions executionRef with
  | none => s'
  | some sessionId => { s' with
      refSessions := Function.update s.refSessions executionRef none
      sessionBindings := if s.sessionBindings sessionId = some executionRef then
        Function.update s.sessionBindings sessionId none else s.sessionBindings }

end Supervisor

/-! ## Runs -/

inductive SupervisorOp
  | openControl (executionRef : String) (cardId : Option Nat)
  | admitCard (now : Int) (type : SessionType) (cardId : Nat) (executionRef : String)
  | bindSession (executionRef sessionId : String)
  | markTerminal (handle : Nat) (outcome : TerminalOutcome)
  | cancel (executionRef : String) (reason : CancelReason)
  | close (now : Int) (executionRef : String) (outcome : TerminalOutcome)
  | remove (executionRef : String)

def supervisorCall (options : SupervisorOptions) (s : Supervisor) :
    SupervisorOp → List SessionType × Supervisor
  | .openControl executionRef cardId => ([], s.openControl executionRef cardId)
  | .admitCard now type cardId executionRef =>
    ([], (s.admitCard options now type cardId (some executionRef)).2)
  | .bindSession executionRef sessionId => ([], (s.bindSession executionRef sessionId).2)
  | .markTerminal handle outcome => ([], s.modifyHandle handle fun c => (c.markTerminal outcome).2)
  | .cancel executionRef reason => ([], s.cancel executionRef reason)
  | .close now executionRef outcome => (s.close now executionRef outcome).2
  | .remove executionRef => ([], s.remove executionRef)

/-- A supervisor, and beside it the executions that were ever bound to a session. -/
structure SupervisorRun where
  state : Supervisor
  everBound : List String

def SupervisorRun.start : SupervisorRun := ⟨.start, []⟩

def SupervisorRun.bound (r : SupervisorRun) : SupervisorOp → List String
  | .bindSession executionRef sessionId =>
    if (r.state.bindSession executionRef sessionId).1 then executionRef :: r.everBound
    else r.everBound
  | _ => r.everBound

def supervisorStep (options : SupervisorOptions) (r : SupervisorRun) (op : SupervisorOp) :
    SupervisorRun :=
  ⟨(supervisorCall options r.state op).2, r.bound op⟩

end Abtars
