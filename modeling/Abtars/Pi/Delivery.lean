import Abtars.Pi.Producer

/-!
# Delivery of remote Pi events

The owner pushes events that are not acknowledged and lists what follows a cursor; the
origin receives pushes, catches up page by page where a gap shows, and acknowledges.

The two sides are one system with a network between them: whatever was sent once may
arrive at any later time, any number of times or never.
-/

namespace Abtars

open Lib

/-- What the two sides are set up with: the digest and the size of an event's text, and
the name the origin is known by. -/
structure RemotePiConfig where
  digest : RemotePiEventPayload → String
  eventSize : RemotePiEvent → Nat
  localPeerName : String

def maxEventSize : Nat := 100000
def maxEventsPerList : Nat := 100
def maxCatchUpBatch : Nat := 100

/-! ## The owner's side -/

def unacknowledgedEvents (runId : String) (outbox : Outbox) : List OutboxRow :=
  (outbox.select fun row => row.runId = runId ∧ row.acknowledgedAt = none).insertionSort
    fun row other => row.sequence ≤ other.sequence

def getUnacknowledgedEvents (runId : String) (limit : Nat) (outbox : Outbox) : List OutboxRow :=
  (unacknowledgedEvents runId outbox).take limit

def getEventsAfter (runId : String) (afterSequence limit : Nat) (outbox : Outbox) :
    List OutboxRow :=
  ((outbox.select fun row => row.runId = runId ∧ afterSequence < row.sequence).insertionSort
    fun row other => row.sequence ≤ other.sequence).take limit

variable (config : RemotePiConfig)

/-- `_validateEvent`: valid, and within the size of an event. -/
def RemotePiConfig.admits (event : RemotePiEvent) : Bool :=
  event.isValid config.digest && decide (config.eventSize event ≤ maxEventSize)

/-- The batch `pushEvents` sends, over a route that takes it. -/
def pushEvents (runId : String) (batchLimit : Nat) (outbox : Outbox) : List RemotePiEvent :=
  ((getUnacknowledgedEvents runId batchLimit outbox).map OutboxRow.toRemotePiEvent).filter
    config.admits

/-- A page of `pi.events.list.v1`, with the request it answers. -/
structure EventPage where
  runId : String
  afterSequence : Nat
  events : List RemotePiEvent
  hasMore : Bool
  deriving DecidableEq

/-- `listEvents`, for the run the store reads under the id. -/
def listEvents (authenticatedPeer : String) (run : Option PiRunRecord) (runId : String)
    (afterSequence requested : Nat) (outbox : Outbox) : Except String EventPage :=
  match run with
  | none => .error ("Run " ++ runId ++ " not found")
  | some run =>
    if run.originPeer ≠ some authenticatedPeer then .error "Run belongs to a different peer"
    else
      let limit := min requested maxEventsPerList
      let events := getEventsAfter runId afterSequence limit outbox
      .ok
        { runId, afterSequence
          events := events.map OutboxRow.toRemotePiEvent
          hasMore := limit ≤ events.length }

/-- `acknowledgeEvent`, for the run the store reads under the id. -/
def acknowledgeEvent (now : Int) (authenticatedPeer : String) (run : Option PiRunRecord)
    (runId : String) (sequence : Nat) (outbox : Outbox) : Except String Outbox :=
  match run with
  | none => .error ("Run " ++ runId ++ " not found")
  | some run =>
    if run.originPeer ≠ some authenticatedPeer then .error "Run belongs to a different peer"
    else if getMaxSequence outbox runId < sequence then
      .error ("Sequence " ++ toString sequence ++ " exceeds max sequence " ++
        toString (getMaxSequence outbox runId))
    else .ok (acknowledgeEvents now runId sequence outbox)

/-! ## The origin's side -/

inductive PushResult
  | success (runId : String) (sequence : Nat) (duplicate : Bool)
  | failure (error : String) (gapDetected : Bool)

/-- `handlePushLifecycleEvent`, for what `authorizeRemotePiOwner` answers of the sender. -/
def handlePushLifecycleEvent (authorized : Bool) (event : RemotePiEvent) (origin : OriginStore) :
    PushResult × OriginStore :=
  match validateEvent config.digest event with
  | some message => (.failure message false, origin)
  | none =>
    if config.localPeerName ≠ "" ∧ event.originPeer ≠ config.localPeerName then
      (.failure "Event origin_peer does not match local peer" false, origin)
    else if ¬ authorized then
      (.failure "Authenticated peer does not own this run" false, origin)
    else if maxEventSize < config.eventSize event then
      (.failure ("Event exceeds " ++ toString maxEventSize ++ " bytes") false, origin)
    else if event.sequence ≤ origin.latestSequence event.runId then
      -- already committed: the acknowledgement is sent again
      if origin.hasConflictingEvent event then
        (.failure "Conflicting event identity" false, origin)
      else (.success event.runId event.sequence true, origin)
    else
      match origin.reduce config.digest event with
      | (.reduced, reduced) => (.success event.runId event.sequence false, reduced)
      | (.unchanged, unchanged) =>
        (.failure "Event rejected by reducer"
          (decide (origin.latestSequence event.runId + 1 < event.sequence)), unchanged)
      | (.threw, unchanged) => (.failure "UNIQUE constraint failed" false, unchanged)

/-- `handleInboundEvent` with the reducer behind it: the answer does not tell whether the
event was reduced, and nothing is acknowledged on it. -/
def handleInboundEvent (localOutbox : Outbox) (event : RemotePiEvent) (origin : OriginStore) :
    Bool × OriginStore :=
  if ¬ config.admits event then (false, origin)
  else if config.localPeerName ≠ "" ∧ event.originPeer ≠ config.localPeerName then (false, origin)
  else
    match localOutbox.get (event.runId, event.sequence) with
    | some existing => (existing.contentSha256 = event.contentSha256, origin)
    | none =>
      match origin.reduce config.digest event with
      | (.threw, unchanged) => (false, unchanged)
      | (_, received) => (true, received)

/-- A catch-up under way: what it has fetched, the last sequence it has reduced, and the
page it works on, if one has arrived. -/
structure CatchUp where
  runId : String
  cursor : Nat
  fetched : Nat
  page : Option (List RemotePiEvent × Bool)

instance : Keyed CatchUp String := ⟨CatchUp.runId⟩

def CatchUp.pending (catchUp : CatchUp) : List RemotePiEvent :=
  (catchUp.page.map (·.1)).getD []

/-! ## The system -/

structure RemotePiSystem where
  outbox : Outbox
  origin : OriginStore
  pushes : List RemotePiEvent
  pages : List EventPage
  acks : List (String × Nat)
  /-- One catch-up a run at most. -/
  catchUps : Table CatchUp

def RemotePiSystem.empty : RemotePiSystem where
  outbox := ∅
  origin := OriginStore.empty
  pushes := []
  pages := []
  acks := []
  catchUps := ∅

inductive RemotePiOp
  /-- The producer is called. -/
  | produce (call : ProducerCall)
  /-- A batch of a run is pushed. -/
  | push (runId : String) (batchLimit : Nat)
  /-- A pushed event arrives over the socket; a gap starts a catch-up where there is a route. -/
  | arrive (event : RemotePiEvent) (authorized hasRoute : Bool)
  /-- A pushed event arrives over the HTTP route. -/
  | arriveHttp (event : RemotePiEvent) (authorized : Bool)
  /-- A pushed event is handed to `handleInboundEvent`. -/
  | inbound (event : RemotePiEvent) (localOutbox : Outbox)
  /-- The request of a catch-up reaches the owner. -/
  | list (runId authenticatedPeer : String) (run : Option PiRunRecord)
  /-- A page reaches the catch-up that asked for it. -/
  | page (runId : String) (page : EventPage)
  /-- A catch-up goes on with its page. -/
  | advance (runId : String) (inTime : Bool)
  /-- A catch-up ends early: a request timed out or was refused. -/
  | abandon (runId : String)
  /-- An acknowledgement reaches the owner. -/
  | acknowledge (ack : String × Nat) (now : Int) (authenticatedPeer : String)
      (run : Option PiRunRecord)
  /-- The origin moves its own cursor, or notes the outcome of a command. -/
  | cursor (runId : String) (sequence : Nat)
  | outcome (runId : String) (outcome : LastCommandOutcome)

/-- `catchUp`: one that is under way for the run goes on instead. -/
def startCatchUp (runId : String) (cursor : Nat) (catchUps : Table CatchUp) : Table CatchUp :=
  catchUps.insertOrIgnore (fun _ => false) { runId, cursor, fetched := 0, page := none }

def onPush (event : RemotePiEvent) (authorized hasRoute : Bool) (system : RemotePiSystem) :
    RemotePiSystem :=
  match handlePushLifecycleEvent config authorized event system.origin with
  | (.success runId sequence _, origin) =>
    { system with origin, acks := system.acks ++ [(runId, sequence)] }
  | (.failure _ gapDetected, origin) =>
    if gapDetected ∧ hasRoute then
      { system with
        origin
        catchUps := startCatchUp event.runId (origin.latestSequence event.runId) system.catchUps }
    else { system with origin }

/-- The body of the catch-up loop, event by event: an event that is not reduced ends it, a
page that is reduced is acknowledged up to its last event. -/
def advanceCatchUp (inTime : Bool) (catchUp : CatchUp) (system : RemotePiSystem) : RemotePiSystem :=
  match catchUp.page with
  | none => system
  | some (event :: rest, hasMore) =>
    if ¬ config.admits event then
      { system with catchUps := system.catchUps.deleteWhere (·.runId = catchUp.runId) }
    else
      match system.origin.reduce config.digest event with
      | (.reduced, origin) =>
        { system with
          origin
          catchUps := system.catchUps.put
            { catchUp with
              cursor := event.sequence
              fetched := catchUp.fetched + 1
              page := some (rest, hasMore) } }
      | (_, origin) =>
        { system with
          origin
          catchUps := system.catchUps.deleteWhere (·.runId = catchUp.runId) }
  | some ([], hasMore) =>
    { system with
      acks :=
        if 0 < catchUp.fetched then system.acks ++ [(catchUp.runId, catchUp.cursor)]
        else system.acks
      catchUps :=
        if hasMore ∧ catchUp.fetched < maxEventsPerList * 10 ∧ inTime then
          system.catchUps.put { catchUp with page := none }
        else system.catchUps.deleteWhere (·.runId = catchUp.runId) }

def remotePiStep (system : RemotePiSystem) :
    RemotePiOp → RemotePiSystem
  | .produce call => { system with outbox := producerStep config.digest system.outbox call }
  | .push runId batchLimit =>
    { system with pushes := system.pushes ++ pushEvents config runId batchLimit system.outbox }
  | .arrive event authorized hasRoute =>
    if event ∈ system.pushes then onPush config event authorized hasRoute system else system
  | .arriveHttp event authorized =>
    if event ∈ system.pushes then
      { system with
        origin := (handlePushLifecycleEvent config authorized event system.origin).2 }
    else system
  | .inbound event localOutbox =>
    if event ∈ system.pushes then
      { system with origin := (handleInboundEvent config localOutbox event system.origin).2 }
    else system
  | .list runId authenticatedPeer run =>
    match system.catchUps.get runId with
    | none => system
    | some catchUp =>
      match listEvents authenticatedPeer run runId catchUp.cursor maxCatchUpBatch
          system.outbox with
      | .ok page => { system with pages := system.pages ++ [page] }
      | .error _ => system
  | .page runId page =>
    match system.catchUps.get runId with
    | none => system
    | some catchUp =>
      if page ∈ system.pages ∧ page.runId = runId ∧ page.afterSequence = catchUp.cursor ∧
          catchUp.page = none then
        { system with
          catchUps := system.catchUps.put
            { catchUp with page := some (page.events, page.hasMore) } }
      else system
  | .advance runId inTime =>
    match system.catchUps.get runId with
    | none => system
    | some catchUp => advanceCatchUp config inTime catchUp system
  | .abandon runId =>
    { system with catchUps := system.catchUps.deleteWhere (·.runId = runId) }
  | .acknowledge ack now authenticatedPeer run =>
    if ack ∈ system.acks then
      match acknowledgeEvent now authenticatedPeer run ack.1 ack.2 system.outbox with
      | .ok outbox => { system with outbox }
      | .error _ => system
    else system
  | .cursor runId sequence =>
    { system with origin := system.origin.acknowledgeCursor runId sequence }
  | .outcome runId outcome =>
    { system with origin := system.origin.recordCommandOutcome runId outcome }

end Abtars
