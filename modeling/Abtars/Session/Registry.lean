import Abtars.Lib.Lines
import Abtars.Session.ExecutionSupervisor
import Abtars.Session.Instruction

/-!
# The session registry

The sessions of all users and platforms stand in one map, and which session of a user on a platform
is active is a flag of each session.  The log of a session and the cancellation of its execution
are not part of the model.
-/

namespace Abtars

open Lib

def SessionType.letter : SessionType → Char
  | .A => 'A' | .B => 'B' | .C => 'C' | .T => 'T' | .P => 'P' | .S => 'S'
  | .O => 'O' | .W => 'W' | .D => 'D' | .H => 'H' | .K => 'K'

structure RegisteredSession where
  id : String
  userId : String
  platform : String
  chatId : Int
  active : Bool
  status : SessionStatus
  lastActiveAt : Millis
  endedAt : Option Millis
  motherId : Option String
  shortIndex : Nat
  peer : Option String
  remoteSessionId : Option String
  deriving DecidableEq

instance : Keyed RegisteredSession String := ⟨(·.id)⟩

/-- The id of a session: the second it was created in, its type and its padded index. -/
def sessionId (now : Nat) (type : SessionType) (idx : Nat) : String :=
  String.ofList (Nat.toDigits 10 (now / 1000) ++
    '_' :: [type.letter] ++ '_' :: (Nat.toDigits 10 idx).leftpad 2 '0')

namespace RegisteredSession

variable (s : RegisteredSession)

def sessionType : List Char :=
  let segments := cutLines '_' s.id.toList
  ((segments.1 ++ [segments.2])[1]?).getD ['A']

def isMain : Bool := s.sessionType = ['A']

def isHollow : Bool := s.peer.any (· ≠ "")

def live : Bool := s.status ≠ .ended

def isOf (userId platform : String) (s : RegisteredSession) : Bool :=
  s.userId = userId && s.platform = platform

def liveOf (userId platform : String) (s : RegisteredSession) : Bool :=
  s.isOf userId platform && s.live

def activeOf (userId platform : String) (s : RegisteredSession) : Bool :=
  s.liveOf userId platform && s.active

end RegisteredSession

abbrev SessionRejection := String

structure SpinSessionRegistry where
  sessions : Table RegisteredSession
  nextIndex : Nat
  maxTotalSessions : Nat

inductive SessionCall
  | getOrCreateActive (chatId : Int)
  | allocate (type : SessionType) (chatId : Int) (motherId : Option String)
  | create (type : SessionType) (chatId : Int)
  | createSub (type : SessionType) (chatId : Int)
  | createHollow (type : SessionType) (chatId : Int) (peer remoteSessionId : String)
  | switch (index : Nat)
  | endSession (index : Option Nat)
  | kill (index : Nat)
  | pause (index : Option Nat)
  | resume (index : Option Nat)

namespace SpinSessionRegistry

def empty (maxTotalSessions : Nat) : SpinSessionRegistry := ⟨∅, 0, maxTotalSessions⟩

def alive (r : SpinSessionRegistry) : List RegisteredSession := r.sessions.select (·.live)

def allocate (now : Nat) (type : SessionType) (userId platform : String) (chatId : Int)
    (active : Bool) (motherId : Option String) (r : SpinSessionRegistry) :
    RegisteredSession × SpinSessionRegistry :=
  let idx := r.nextIndex + 1
  let session : RegisteredSession :=
    { id := sessionId now type idx, userId, platform, chatId, active, status := .ready
      lastActiveAt := now, endedAt := none, motherId, shortIndex := idx
      peer := none, remoteSessionId := none }
  (session, { r with sessions := r.sessions.put session, nextIndex := idx })

def amend (id : String) (f : RegisteredSession → RegisteredSession)
    (hf : ∀ s, (f s).id = s.id := by intro _; rfl) (r : SpinSessionRegistry) :
    SpinSessionRegistry :=
  { r with sessions := r.sessions.modify id f hf }

variable (userId platform : String)

def getActiveSession (r : SpinSessionRegistry) : Option RegisteredSession :=
  r.sessions.rows.find? (·.activeOf userId platform)

def findAddressableSession (index : Nat) (r : SpinSessionRegistry) : Option RegisteredSession :=
  r.sessions.rows.find? fun s => s.shortIndex = index && s.liveOf userId platform

def targetIndex (index : Option Nat) (r : SpinSessionRegistry) : Option Nat :=
  (index.or ((r.getActiveSession userId platform).map (·.shortIndex))).filter (· ≠ 0)

/-- The active session is, unless it is `spared`, active no more. -/
def deactivate (spared : Option String) (r : SpinSessionRegistry) : SpinSessionRegistry :=
  match r.getActiveSession userId platform with
  | some cur =>
    if some cur.id = spared then r else r.amend cur.id fun s => { s with active := false }
  | none => r

def reconcileAfterTermination (now : Nat) (chatId : Int) (wasActive : Bool)
    (r : SpinSessionRegistry) : SpinSessionRegistry :=
  let localLive := r.sessions.select (·.liveOf userId platform)
  let replacementActive := wasActive || !localLive.any (·.active)
  match localLive.find? (·.isMain) with
  | none => (r.allocate now .A userId platform chatId replacementActive none).2
  | some localMain =>
    if replacementActive && !localMain.active then
      r.amend localMain.id fun s => { s with active := true }
    else r

/-- The part that `end` and `kill` share. -/
def terminate (now : Nat) (target : RegisteredSession) (r : SpinSessionRegistry) :
    SpinSessionRegistry :=
  reconcileAfterTermination userId platform now target.chatId target.active
    (r.amend target.id fun s => { s with status := .ended, active := false })

def onIndex (index : Nat) (act : RegisteredSession → Except SessionRejection SpinSessionRegistry)
    (r : SpinSessionRegistry) : Except SessionRejection SpinSessionRegistry :=
  match r.findAddressableSession userId platform index with
  | none => .error s!"Session #{index} not found on {platform}."
  | some target => act target

def onTarget (index : Option Nat)
    (act : Nat → RegisteredSession → Except SessionRejection SpinSessionRegistry)
    (r : SpinSessionRegistry) : Except SessionRejection SpinSessionRegistry :=
  match r.targetIndex userId platform index with
  | none => .error "No active session found."
  | some targetIdx => onIndex userId platform targetIdx (act targetIdx) r

/-- A call made at a time: the rejection, or the registry after it.  The session that is returned
is a row of that registry. -/
def call (now : Nat) (r : SpinSessionRegistry) :
    SessionCall → Except SessionRejection SpinSessionRegistry
  | .getOrCreateActive chatId =>
    match r.getActiveSession userId platform with
    | some _ => .ok r
    | none => .ok (r.allocate now .A userId platform chatId true none).2
  | .allocate type chatId motherId =>
    .ok (r.allocate now type userId platform chatId false motherId).2
  | .create type chatId =>
    if r.maxTotalSessions ≤ r.alive.length then
      .error s!"Max sessions reached ({r.maxTotalSessions}). End or kill a session first."
    else
      let idle := r.deactivate userId platform none
      .ok (idle.allocate now type userId platform chatId true none).2
  | .createSub type chatId =>
    if r.maxTotalSessions ≤ r.alive.length then
      .error "Max sessions reached — auto-spawn skipped."
    else
      let motherId := (r.getActiveSession userId platform).map (·.id)
      .ok (r.allocate now type userId platform chatId false motherId).2
  | .createHollow type chatId peer remoteSessionId =>
    if r.maxTotalSessions ≤ r.alive.length then
      .error "Max sessions reached — cannot create hollow session."
    else
      let (session, r) := r.allocate now type userId platform chatId false none
      .ok (r.amend session.id fun s =>
        { s with peer := some peer, remoteSessionId := some remoteSessionId })
  | .switch index => onIndex userId platform index
    (fun target =>
      .ok ((r.deactivate userId platform (some target.id)).amend target.id fun s =>
        { s with active := true })) r
  | .endSession index => onTarget userId platform index
    (fun _ target => .ok (r.terminate userId platform now target)) r
  | .kill index => onIndex userId platform index
    (fun target => .ok (r.terminate userId platform now target)) r
  | .pause index => onTarget userId platform index
    (fun targetIdx target =>
      if target.status = .paused then .error s!"Session #{targetIdx} is already paused."
      else .ok (r.amend target.id fun s => { s with status := .paused })) r
  | .resume index => onTarget userId platform index
    (fun targetIdx target =>
      if target.status ≠ .paused then .error s!"Session #{targetIdx} is not paused."
      else .ok (r.amend target.id fun s => { s with status := .ready })) r

end SpinSessionRegistry

inductive SessionOp
  | on (now : Nat) (userId platform : String) (call : SessionCall)
  | remove (sessionId : String)
  | pruneEnded (now : Millis) (maxAgeMs : Int)

def registryStep (r : SpinSessionRegistry) : SessionOp → SpinSessionRegistry
  | .on now userId platform call =>
    match r.call userId platform now call with
    | .ok r' => r'
    | .error _ => r
  | .remove sessionId => { r with sessions := r.sessions.deleteWhere (·.id = sessionId) }
  | .pruneEnded now maxAgeMs =>
    { r with sessions := r.sessions.deleteWhere fun s =>
        s.status = .ended && maxAgeMs < now - s.endedAt.getD s.lastActiveAt }

end Abtars
