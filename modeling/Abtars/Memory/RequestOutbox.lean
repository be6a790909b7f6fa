import Abtars.Lib.Date
import Abtars.Lib.JsonSize
import Mathlib.Data.List.Nodup

/-!
# The durable outbox of memory requests

`AbmindRequestOutbox`: requests in memory and a file that holds a whole snapshot of them.  Every
change is made in memory first, then written, and taken back by hand when the write fails.
-/

namespace Abtars

open Lib

/-! ## Entries -/

inductive AbmindDeliveryState
  | admitted
  | inFlight
  | retryWait
  | terminalUnknown
  deriving DecidableEq

def AbmindDeliveryState.text : AbmindDeliveryState → String
  | .admitted => "admitted"
  | .inFlight => "in_flight"
  | .retryWait => "retry_wait"
  | .terminalUnknown => "terminal_unknown"

inductive RetryFailureClass
  | timeout
  | sendFailed
  | socketLost
  | generationLost
  | connectionRefused

def RetryFailureClass.text : RetryFailureClass → String
  | .timeout => "timeout"
  | .sendFailed => "send_failed"
  | .socketLost => "socket_lost"
  | .generationLost => "generation_lost"
  | .connectionRefused => "connection_refused"

/-- An entry of version 2.  A version that is none is a number JSON has no text for. -/
structure OutboxEntry where
  id : String
  method : String
  requestId : String
  idempotencyKey : Option String
  body : String
  version : Option Rat
  payload : Option Json
  state : AbmindDeliveryState
  createdAt : Date
  deadlineAt : Date
  attempts : Nat
  lastAttemptAt : Option Date
  nextAttemptAt : Option Date
  lastFailure : Option RetryFailureClass

structure OutboxEntryV1 where
  id : String
  method : String
  requestId : String
  idempotencyKey : Option String
  body : String
  version : Option Rat
  payload : Option Json
  createdAt : Date
  attempts : Nat
  lastAttemptAt : Option Date
  lastError : Option String

def present (members : List (String × Option Json)) : Json :=
  .obj (members.filterMap fun m => m.2.map (m.1, ·))

def dateJson (d : Date) : Json := .str d.toISOString

/-- A number; one that has no text is written as `null`. -/
def numberJson (n : Option Rat) : Json := (n.map Json.num).getD .null

def OutboxEntry.toJson (e : OutboxEntry) : Json :=
  present [("id", some (.str e.id)), ("method", some (.str e.method)),
    ("requestId", some (.str e.requestId)), ("idempotencyKey", e.idempotencyKey.map .str),
    ("body", some (.str e.body)), ("version", some (numberJson e.version)),
    ("payload", e.payload), ("state", some (.str e.state.text)),
    ("createdAt", some (dateJson e.createdAt)), ("deadlineAt", some (dateJson e.deadlineAt)),
    ("attempts", some (.num e.attempts)), ("lastAttemptAt", e.lastAttemptAt.map dateJson),
    ("nextAttemptAt", e.nextAttemptAt.map dateJson),
    ("lastFailure", e.lastFailure.map fun failure => .str failure.text)]

def OutboxEntryV1.toJson (e : OutboxEntryV1) : Json :=
  present [("id", some (.str e.id)), ("method", some (.str e.method)),
    ("requestId", some (.str e.requestId)), ("idempotencyKey", e.idempotencyKey.map .str),
    ("body", some (.str e.body)), ("version", some (numberJson e.version)),
    ("payload", e.payload), ("createdAt", some (dateJson e.createdAt)),
    ("attempts", some (.num e.attempts)), ("lastAttemptAt", e.lastAttemptAt.map dateJson),
    ("lastError", e.lastError.map .str)]

/-! ## The outbox and its file -/

def outboxMaxEntries : Nat := 200

def outboxMaxEntryBytes : Nat := 524288

def outboxMaxFileBytes : Nat := 10000000

def routeMethodMaxBytes : Nat := 128

def terminalUnknownMaxEntries : Nat := 50

def terminalUnknownRetentionMs : Int := 30 * 24 * 60 * 60 * 1000

/-- The arguments of the constructor, and how JSON prints a number that is no integer. -/
structure OutboxDeps where
  peerName : String
  retryDeadlineMs : Int
  renderFraction : Rat → String

/-- What `JSON.parse` makes of a file; an element that has not the types of its interface is none,
and an object that is of neither version, or has no array of entries, is `other`. -/
inductive OutboxFile
  | notJson
  | other
  | v1 (peer : String) (entries : List (Option OutboxEntryV1))
  | v2 (peer : String) (entries : List (Option OutboxEntry))

structure RequestOutbox where
  file : Option OutboxFile
  entries : List OutboxEntry
  degraded : Bool
  quarantined : Bool

variable (deps : OutboxDeps)

/-- `Buffer.byteLength` of a JSON text. -/
def jsonBytes (json : Json) : Nat :=
  (json.stringify deps.renderFraction).utf8ByteSize

def entryBytes (e : OutboxEntry) : Nat := jsonBytes deps e.toJson

variable (entries : List OutboxEntry)

def listBytes : Nat :=
  jsonBytes deps (.arr (entries.map OutboxEntry.toJson))

def fileBytes : Nat :=
  jsonBytes deps (.obj [("version", .num 2), ("peer", .str deps.peerName),
    ("entries", .arr (entries.map OutboxEntry.toJson))])

def savedFile : OutboxFile :=
  .v2 deps.peerName (entries.map some)

def updateEntry (id : String) (f : OutboxEntry → OutboxEntry) : List OutboxEntry → List OutboxEntry
  | [] => []
  | e :: rest => if e.id = id then f e :: rest else e :: updateEntry id f rest

namespace RequestOutbox

variable (deps : OutboxDeps)

/-- `checkpoint`: does the write succeed?  The file is replaced by one rename or stays. -/
def checkpoint (written : Bool) (s : RequestOutbox) : Bool × RequestOutbox :=
  if outboxMaxFileBytes < fileBytes deps s.entries then (false, { s with degraded := true })
  else if written then (true, { s with file := some (savedFile deps s.entries) })
  else (false, { s with degraded := true })

def find (s : RequestOutbox) (id : String) : Option OutboxEntry :=
  s.entries.find? (·.id = id)

/-! ## Loading -/

/-- `quarantine`; the file is moved away if its rename works. -/
def quarantine (renamed : Bool) (s : RequestOutbox) : RequestOutbox where
  file := if renamed then none else s.file
  entries := []
  degraded := s.degraded
  quarantined := true

variable (id : String)

/-- `isValidV1Entry` of an element that has the types of the interface: of version 1, or of those
of version 2 that the two share. -/
def isValidV1Entry (method requestId : String) (version : Option Rat) : Bool :=
  id ≠ "" ∧ method ≠ "" ∧ utf16Length method ≤ routeMethodMaxBytes ∧ requestId ≠ "" ∧
    version.isSome

def isValidV2Entry (e : OutboxEntry) : Bool :=
  isValidV1Entry e.id e.method e.requestId e.version ∧ e.createdAt.ms ≤ e.deadlineAt.ms

/-- The loop of `validateV2` over the entries. -/
def checkEntries : List (Option OutboxEntry) → (seen : List String) → Option (List OutboxEntry)
  | [], _ => some []
  | none :: _, _ => none
  | some e :: rest, seen =>
    if isValidV2Entry e = false then none
    else if e.id ∈ seen then none
    else if outboxMaxEntryBytes < entryBytes deps e then none
    else (checkEntries rest (e.id :: seen)).map (e :: ·)

def normalize (e : OutboxEntry) : OutboxEntry :=
  if e.state = .inFlight then { e with state := .retryWait, nextAttemptAt := none } else e

def validateV2 (entries : List (Option OutboxEntry)) (renamed written : Bool)
    (s : RequestOutbox) : RequestOutbox :=
  if outboxMaxEntries < entries.length ∨
      outboxMaxFileBytes < listBytes deps entries.reduceOption then s.quarantine renamed
  else
    match checkEntries deps entries [] with
    | none => s.quarantine renamed
    | some loaded =>
      let normalized := loaded.map normalize
      if loaded.any (·.state = .inFlight) then
        -- a write that fails leaves the outbox degraded
        { (checkpoint deps written { s with entries := normalized }).2 with entries := normalized }
      else { s with entries := normalized }

def migrate (now : Int) (e : OutboxEntryV1) (deadlineAt : Date) : OutboxEntry where
  id := e.id
  method := e.method
  requestId := e.requestId
  idempotencyKey := e.idempotencyKey
  body := e.body
  version := e.version
  payload := e.payload
  state := if deadlineAt.ms ≤ now then .terminalUnknown else .admitted
  createdAt := e.createdAt
  deadlineAt := deadlineAt
  attempts := e.attempts
  lastAttemptAt := e.lastAttemptAt
  nextAttemptAt := none
  lastFailure := if deadlineAt.ms ≤ now then some .timeout else none

/-- The loop of `migrateV1`; a deadline that is no date throws. -/
def migrateEntries (now : Int) :
    List (Option OutboxEntryV1) → (seen : List String) → Option (Except Unit (List OutboxEntry))
  | [], _ => some (.ok [])
  | none :: _, _ => some (.error ())
  | some e :: rest, seen =>
    if isValidV1Entry e.id e.method e.requestId e.version = false then some (.error ())
    else if e.id ∈ seen then some (.error ())
    else if outboxMaxEntryBytes < jsonBytes deps e.toJson then some (.error ())
    else
      match Date.ofMillis? (e.createdAt.ms + deps.retryDeadlineMs) with
      | none => none
      | some deadlineAt =>
        (migrateEntries now rest (e.id :: seen)).map fun migrated =>
          migrated.map (migrate now e deadlineAt :: ·)

/-- `migrateV1`; none throws. -/
def migrateV1 (entries : List (Option OutboxEntryV1)) (now : Int) (renamed written : Bool)
    (s : RequestOutbox) : Option RequestOutbox :=
  if outboxMaxEntries < entries.length ∨ outboxMaxFileBytes <
      jsonBytes deps (.arr (entries.reduceOption.map OutboxEntryV1.toJson)) then
    some (s.quarantine renamed)
  else
    match migrateEntries deps now entries [] with
    | none => none
    | some (.error ()) => some (s.quarantine renamed)
    | some (.ok migrated) =>
      match checkpoint deps written { s with entries := migrated } with
      | (true, s) => some s
      | (false, s) => some (s.quarantine renamed)

def load (file : Option OutboxFile) (now : Int) (renamed written : Bool) : Option RequestOutbox :=
  let s : RequestOutbox := ⟨file, [], false, false⟩
  match file with
  | none => some s
  | some .notJson | some .other => some (s.quarantine renamed)
  | some (.v1 peer entries) =>
    if peer ≠ deps.peerName then some (s.quarantine renamed)
    else migrateV1 deps entries now renamed written s
  | some (.v2 peer entries) =>
    if peer ≠ deps.peerName then some (s.quarantine renamed)
    else some (validateV2 deps entries renamed written s)

/-! ## Operations

An operation either returns without a write, or changes the entries and writes them.  What it puts
back when the write fails is part of it. -/

/-- An operation up to its write; one that throws leaves what it has changed so far. -/
inductive Change
  | returns (done : Bool)
  | throws (entries : List OutboxEntry)
  | saves (changed restored : List OutboxEntry)

def newEntry (method requestId : String) (idempotencyKey : Option String) (body : String)
    (version : Option Rat) (payload : Option Json) (createdAt deadlineAt : Date) : OutboxEntry where
  id := id
  method := method
  requestId := requestId
  idempotencyKey := idempotencyKey
  body := body
  version := version
  payload := payload
  state := .admitted
  createdAt := createdAt
  deadlineAt := deadlineAt
  attempts := 0
  lastAttemptAt := none
  nextAttemptAt := none
  lastFailure := none

/-- `append`; a deadline that is no date throws. -/
def append (method requestId : String) (idempotencyKey : Option String) (body : String)
    (version : Option Rat) (payload : Option Json) (now : Date) (s : RequestOutbox) : Change :=
  if s.quarantined ∨ s.degraded then .returns false
  else if outboxMaxEntries ≤ s.entries.length then .returns false
  else
    match Date.ofMillis? (now.ms + deps.retryDeadlineMs) with
    | none => .throws s.entries
    | some deadlineAt =>
      let entry := newEntry id method requestId idempotencyKey body version payload now deadlineAt
      if outboxMaxEntryBytes < entryBytes deps entry then .returns false
      else .saves (s.entries ++ [entry]) s.entries

def inFlight (now : Date) (e : OutboxEntry) : OutboxEntry :=
  { e with state := .inFlight, lastAttemptAt := some now }

def markInFlight (now : Date) (s : RequestOutbox) : Change :=
  match s.find id with
  | none => .returns false
  | some entry =>
    if entry.state = .inFlight ∨ entry.state = .terminalUnknown then .returns false
    else
      let changed := updateEntry id (inFlight now) s.entries
      -- the time of the last attempt is not put back, but left out
      .saves changed (updateEntry id (fun e =>
        { e with state := entry.state, lastAttemptAt := none }) changed)

def attempted (now : Date) (e : OutboxEntry) : OutboxEntry :=
  { e with state := .retryWait, attempts := e.attempts + 1, lastAttemptAt := some now }

variable (failure : RetryFailureClass)

def retryWait (next now : Date) (e : OutboxEntry) : OutboxEntry :=
  { attempted now e with nextAttemptAt := some next, lastFailure := some failure }

/-- `markRetryWait`; a time that is no date throws. -/
def markRetryWait (nextAttemptAt : Int) (now : Date) (s : RequestOutbox) : Change :=
  match s.find id with
  | none => .returns false
  | some entry =>
    if entry.state = .terminalUnknown then .returns false
    else
      match Date.ofMillis? nextAttemptAt with
      | none => .throws (updateEntry id (attempted now) s.entries)
      | some next =>
        let changed := updateEntry id (retryWait failure next now) s.entries
        .saves changed (updateEntry id (fun e =>
          { e with
            state := entry.state
            attempts := entry.attempts
            lastAttemptAt := entry.lastAttemptAt
            nextAttemptAt := entry.nextAttemptAt
            lastFailure := entry.lastFailure }) changed)

def terminalUnknown (failure : RetryFailureClass) (e : OutboxEntry) : OutboxEntry :=
  { e with state := .terminalUnknown, lastFailure := some failure }

def markTerminalUnknown (s : RequestOutbox) : Change :=
  match s.find id with
  | none => .returns false
  | some entry =>
    if entry.state = .terminalUnknown then .returns false
    else
      let changed := updateEntry id (terminalUnknown failure) s.entries
      -- nor is the last failure
      .saves changed (updateEntry id (fun e =>
        { e with state := entry.state, lastFailure := none }) changed)

def acknowledge (s : RequestOutbox) : Change :=
  if s.entries.any (·.id = id) then .saves (s.entries.eraseP (·.id = id)) s.entries
  else .returns true

/-- The loop of `pruneTerminalUnknown`: the ids that are dropped, when so many are kept. -/
def dropped (cutoff : Int) : List OutboxEntry → (kept : Nat) → List String
  | [], _ => []
  | e :: rest, kept =>
    if e.state ≠ .terminalUnknown then dropped cutoff rest kept
    else if e.createdAt.ms < cutoff ∨ terminalUnknownMaxEntries ≤ kept then
      e.id :: dropped cutoff rest kept
    else dropped cutoff rest (kept + 1)

def pruneTerminalUnknown (now : Int) (s : RequestOutbox) : Change :=
  let ids := dropped (now - terminalUnknownRetentionMs) s.entries 0
  if ids = [] then .returns true
  else .saves (s.entries.filter (·.id ∉ ids)) s.entries

def perform (written : Bool) (s : RequestOutbox) : Change → Option Bool × RequestOutbox
  | .returns done => (some done, s)
  | .throws entries => (none, { s with entries })
  | .saves changed restored =>
    match checkpoint deps written { s with entries := changed } with
    | (true, s) => (some true, s)
    | (false, s) => (some false, { s with entries := restored })

/-! ## Reading -/

/-- `peekDue`: the oldest entry that is due. -/
def peekDue (now : Int) (s : RequestOutbox) : Option OutboxEntry :=
  s.entries.foldl (fun best e =>
    if e.state ≠ .admitted ∧ e.state ≠ .retryWait then best
    else if e.state = .retryWait ∧ e.nextAttemptAt.any (now < ·.ms) then best
    else if e.deadlineAt.ms ≤ now then best
    else
      match best with
      | none => some e
      | some b => if e.createdAt.ms < b.createdAt.ms then some e else some b) none

end RequestOutbox

/-! ## Calls -/

inductive RequestOutboxOp
  | append (id method requestId : String) (idempotencyKey : Option String) (body : String)
      (version : Option Rat) (payload : Option Json) (now : Date)
  | markInFlight (id : String) (now : Date)
  | markRetryWait (id : String) (failure : RetryFailureClass) (nextAttemptAt : Int) (now : Date)
  | markTerminalUnknown (id : String) (failure : RetryFailureClass)
  | acknowledge (id : String)
  | pruneTerminalUnknown (now : Int)

def RequestOutboxOp.change (deps : OutboxDeps) (s : RequestOutbox) : RequestOutboxOp → RequestOutbox.Change
  | .append id method requestId idempotencyKey body version payload now =>
    s.append deps id method requestId idempotencyKey body version payload now
  | .markInFlight id now => s.markInFlight id now
  | .markRetryWait id failure nextAttemptAt now => s.markRetryWait id failure nextAttemptAt now
  | .markTerminalUnknown id failure => s.markTerminalUnknown id failure
  | .acknowledge id => s.acknowledge id
  | .pruneTerminalUnknown now => s.pruneTerminalUnknown now

structure OutboxCall where
  op : RequestOutboxOp
  written : Bool

def outboxCall (deps : OutboxDeps) (s : RequestOutbox) (call : OutboxCall) :
    Option Bool × RequestOutbox :=
  s.perform deps call.written (call.op.change deps s)

def requestOutboxStep (deps : OutboxDeps) (s : RequestOutbox) (call : OutboxCall) : RequestOutbox :=
  (outboxCall deps s call).2

section Update

variable {id : String} {f g : OutboxEntry → OutboxEntry} {entries : List OutboxEntry}
  {e : OutboxEntry}

@[simp]
theorem length_updateEntry (id : String) (f : OutboxEntry → OutboxEntry)
    (entries : List OutboxEntry) : (updateEntry id f entries).length = entries.length := by
  induction entries with
  | nil => rfl
  | cons e rest ih =>
    unfold updateEntry
    split <;> simp [ih]

theorem map_id_updateEntry (hf : ∀ e, (f e).id = e.id) (entries : List OutboxEntry) :
    (updateEntry id f entries).map (·.id) = entries.map (·.id) := by
  induction entries with
  | nil => rfl
  | cons e rest ih =>
    unfold updateEntry
    split <;> simp [hf, ih]

theorem mem_updateEntry (h : entries.find? (·.id = id) = some e) {a : OutboxEntry}
    (ha : a ∈ updateEntry id f entries) : a ∈ entries ∨ a = f e := by
  induction entries with
  | nil => cases h
  | cons b rest ih =>
    unfold updateEntry at ha
    rw [List.find?_cons] at h
    by_cases hb : b.id = id
    · rw [if_pos hb] at ha
      simp only [hb, decide_true] at h
      cases h
      rcases List.mem_cons.1 ha with rfl | hmem
      · exact .inr rfl
      · exact .inl (List.mem_cons_of_mem _ hmem)
    · rw [if_neg hb] at ha
      simp only [hb, decide_false] at h
      rcases List.mem_cons.1 ha with rfl | hmem
      · exact .inl List.mem_cons_self
      · exact (ih h hmem).imp_left (List.mem_cons_of_mem _)

theorem find?_updateEntry (hf : ∀ e, (f e).id = e.id) (entries : List OutboxEntry) :
    (updateEntry id f entries).find? (·.id = id) = (entries.find? (·.id = id)).map f := by
  induction entries with
  | nil => rfl
  | cons b rest ih =>
    unfold updateEntry
    by_cases hb : b.id = id
    · simp [hb, hf]
    · simp [hb, ih]

theorem updateEntry_updateEntry (f : OutboxEntry → OutboxEntry) (hf : ∀ e, (f e).id = e.id)
    (entries : List OutboxEntry) :
    updateEntry id g (updateEntry id f entries) = updateEntry id (fun e => g (f e)) entries := by
  induction entries with
  | nil => rfl
  | cons b rest ih =>
    by_cases hb : b.id = id
    · simp [updateEntry, hb, hf]
    · simp [updateEntry, hb, ih]

theorem updateEntry_eq_self (h : entries.find? (·.id = id) = some e) :
    updateEntry id f entries = entries ↔ f e = e := by
  induction entries with
  | nil => cases h
  | cons b rest ih =>
    rw [List.find?_cons] at h
    by_cases hb : b.id = id
    · simp only [hb, decide_true] at h
      cases h
      simp [updateEntry, hb]
    · simp only [hb, decide_false] at h
      simp [updateEntry, hb, ih h]

end Update

end Abtars
