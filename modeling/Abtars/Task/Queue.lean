import Abtars.Task.Ownership

/-!
# The admission queue

`CronQueue` orders admitted runs in two lanes of capacity one.  It is driven by calls of
`enqueue` and by the terminal notifications of `settleRunOnce`, and both end in
`processLane`, which starts the next job through the coordinator.  A start, and each
settlement the queue makes itself, may notify the queue again before it returns.

The queue is modelled as a machine with its call stack: a frame for each `processLane`
that is still to run, for each call of `coordinator.start` that has not returned, and for
each failed start whose lane is still to be freed.  The rest of the process takes its
turn while no frame is left, or while a start is running.
-/

namespace Abtars

open Lib

inductive RunLane
  | manual | scheduled
  deriving DecidableEq

/-- `LANES`. -/
def runLanes : List RunLane := [.manual, .scheduled]

inductive TaskPriority
  | high | medium | low

/-- `PRIO_RANK`. -/
def TaskPriority.rank : TaskPriority → Nat
  | .high => 0
  | .medium => 1
  | .low => 2

/-- A task definition as the queue reads it, with the text `getEntryMessage` takes from
its kind's field. -/
structure QueueEntry extends ScheduledTask where
  priority : Option TaskPriority
  message : String

def QueueEntry.rank (entry : QueueEntry) : Nat := (entry.priority.getD .medium).rank

inductive RunnerKind
  | script | agent | system

def runnerKind : TaskKind → Option RunnerKind
  | .system => some .system
  | .script => some .script
  | .agent => some .agent
  | .reminder => none

/-- An admitted job; `enqueue` queues none without a reservation. -/
structure QueuedJob where
  entry : QueueEntry
  reservation : TaskRunRow

structure RunningJob where
  entryId : String
  type : RunnerKind
  runId : String
  lane : RunLane

structure QueueLaneState where
  current : Option RunningJob
  pending : List QueuedJob

def emptyLane : QueueLaneState := ⟨none, []⟩

structure CronQueue where
  manual : QueueLaneState
  scheduled : QueueLaneState

def QueuedJob.claim (job : QueuedJob) : RunClaim := ⟨job.entry.id, job.reservation.runId⟩

def RunningJob.claim (job : RunningJob) : RunClaim := ⟨job.entryId, job.runId⟩

def QueueLaneState.claims (state : QueueLaneState) : List RunClaim :=
  state.current.toList.map RunningJob.claim ++ state.pending.map QueuedJob.claim

namespace CronQueue

variable (q : CronQueue)

def lane : RunLane → QueueLaneState
  | .manual => q.manual
  | .scheduled => q.scheduled

variable (lane : RunLane) (state : QueueLaneState)

def setLane : CronQueue :=
  match lane with
  | .manual => { q with manual := state }
  | .scheduled => { q with scheduled := state }

@[simp]
theorem lane_setLane : (q.setLane lane state).lane lane = state := by
  cases lane <;> rfl

theorem lane_setLane_of_ne {lane other : RunLane} (hne : other ≠ lane) :
    (q.setLane lane state).lane other = q.lane other := by
  cases lane <;> cases other <;> simp_all [setLane, CronQueue.lane]

def release : CronQueue :=
  q.setLane lane { q.lane lane with current := none }

def claims (q : CronQueue) : List RunClaim := q.manual.claims ++ q.scheduled.claims

end CronQueue

inductive OccurrencePlace
  | current | pending

/-- `findOccurrence`: where the queue holds a job of the entry. -/
def CronQueue.findOccurrence (q : CronQueue) (entryId : String) : Option OccurrencePlace :=
  runLanes.findSome? fun lane =>
    if (q.lane lane).current.any (·.entryId = entryId) then some .current
    else if (q.lane lane).pending.any (·.entry.id = entryId) then some .pending
    else none

/-- The answer of `enqueue` to a second occurrence. -/
def OccurrencePlace.answer (place : OccurrencePlace) (entry : QueueEntry) : String :=
  (match place with
    | .current => "Already running: \""
    | .pending => "Already queued: \"") ++ sliceText entry.message 60 ++ "\""

def OccurrencePlace.detail : OccurrencePlace → String
  | .current => "duplicate-current"
  | .pending => "duplicate-queued"

def insertByPriority (job : QueuedJob) : List QueuedJob → List QueuedJob
  | [] => [job]
  | next :: rest =>
    if job.entry.rank < next.entry.rank then job :: next :: rest
    else next :: insertByPriority job rest

theorem insertByPriority_perm (job : QueuedJob) (pending : List QueuedJob) :
    (insertByPriority job pending).Perm (job :: pending) := by
  induction pending with
  | nil => exact List.Perm.refl _
  | cons next rest ih =>
    rw [insertByPriority]
    split
    · exact List.Perm.refl _
    · exact (ih.cons next).trans (List.Perm.swap job next rest)

def RunTrigger.lane : RunTrigger → RunLane
  | .manual => .manual
  | .schedule | .retry => .scheduled

/-! ## The machine -/

inductive QueueFrame
  /-- `processLane` is to run. -/
  | processLane (lane : RunLane)
  /-- `coordinator.start` is running for the job that was made current. -/
  | starting (lane : RunLane) (job : QueuedJob)
  /-- A failed start was settled, its lane is to be freed. -/
  | startFailed (lane : RunLane)

/-- A call of `coordinator.start`. -/
structure StartCall where
  claim : RunClaim
  lane : RunLane

/-- The queue, the store it works on and its call stack, innermost frame first.  The
calls of `coordinator.start` and the claims that were ever reserved are recorded. -/
structure QueueSystem where
  db : Db
  queue : CronQueue
  frames : List QueueFrame
  started : List StartCall
  reserved : List RunClaim

namespace QueueSystem

def initial : QueueSystem := ⟨Db.empty, ⟨emptyLane, emptyLane⟩, [], [], []⟩

def push (frame : QueueFrame) (s : QueueSystem) : QueueSystem :=
  { s with frames := frame :: s.frames }

def pop (s : QueueSystem) : QueueSystem := { s with frames := s.frames.tail }

/-- The private `onRunTerminal`: the lane of the run is freed and pumped; for a run that is
not current, both lanes are pumped. -/
def onRunTerminal (runId : String) (s : QueueSystem) : QueueSystem :=
  match runLanes.find? fun lane => (s.queue.lane lane).current.any (·.runId = runId) with
  | some lane => { s with queue := s.queue.release lane }.push (.processLane lane)
  | none => { s with frames := runLanes.map .processLane ++ s.frames }

variable (host : CronHost) (now : Millis)

def settle (opts : SettleOptions) (s : QueueSystem) : QueueSystem :=
  match settleRunOnce host.toSettlerHost now opts s.db with
  | (.duplicate, db) => { s with db := db }
  | (_, db) => onRunTerminal opts.run.runId { s with db := db }

variable (entry : QueueEntry) (run : TaskRunRow)

def rejectSettle (detail : String) : SettleOptions :=
  { plainSettle entry.toScheduledTask run .cancelled with
    diagnostic := some (makeTaskFailure host.rt now .cancelled (.run .queued)
      ("queue admission rejected: " ++ detail))
    detail := some ("queue_admission_rejected: " ++ detail) }

def rejectReservation (detail : String) (s : QueueSystem) : QueueSystem :=
  s.settle host now (rejectSettle host now entry run detail)

/-- The reservation `reserveForEntry` asks for. -/
def entryReservation (runId : String) (entry : QueueEntry) (manual : Bool) (db : Db) : TaskRunRow :=
  let retrying := (readState db entry.id).any fun state => state.1.retrying
  reservedRun runId entry.id (freshGroup entry.id now)
    (if manual then 1 else if retrying then 2 else 1)
    (if manual then .manual else .schedule) now now (now + host.runCeilingMs)

def admitJob (s : QueueSystem) : QueueSystem :=
  let lane := run.trigger.lane
  let state := s.queue.lane lane
  { s with
    queue := s.queue.setLane lane
      { state with pending := insertByPriority ⟨entry, run⟩ state.pending } }.push
    (.processLane lane)

/-- `enqueue`, with the answer of a job that was not admitted.  A call without a
reservation makes its own, under the run id drawn. -/
def enqueue (manual : Bool) (reservation : Option TaskRunRow) (runId : String) (s : QueueSystem) :
    Option String × QueueSystem :=
  match s.queue.findOccurrence entry.id with
  | some place =>
    (some (place.answer entry),
      match reservation with
      | none => s
      | some run => s.rejectReservation host now entry run place.detail)
  | none =>
    match reservation with
    | some run => (none, s.admitJob entry run)
    | none =>
      let run := entryReservation host now runId entry manual s.db
      match reserveRun run s.db with
      | none =>
        (some ("Cannot run: \"" ++ sliceText entry.message 60 ++
          "\" — active run in progress"), s)
      | some db =>
        (none, { s with db := db, reserved := run.claim :: s.reserved }.admitJob entry run)

/-- `coordinator.start` is called for the job made current.  It refuses a run that lost
its reservation, and the lane is freed at once. -/
def startJob (lane : RunLane) (type : RunnerKind) (job : QueuedJob) (s : QueueSystem) :
    QueueSystem :=
  let current : RunningJob := ⟨job.entry.id, type, job.reservation.runId, lane⟩
  let calling := { s with
    queue := s.queue.setLane lane { s.queue.lane lane with current := some current }
    started := ⟨job.claim, lane⟩ :: s.started }
  if ownsReservation s.db job.claim then calling.push (.starting lane job)
  else { calling with queue := calling.queue.release lane }.push (.processLane lane)

/-- The job taken off a lane: skipped when it outlived its reservation, settled when it is
a reminder, started otherwise. -/
def processJob (lane : RunLane) (job : QueuedJob) (s : QueueSystem) : QueueSystem :=
  if ownsReservation s.db job.claim then
    match runnerKind job.entry.kind with
    | none =>
      (s.push (.processLane lane)).settle host now
        { plainSettle job.entry.toScheduledTask job.reservation .success with
          detail := some "reminder already delivered" }
    | some type => s.startJob lane type job
  else s.push (.processLane lane)

def processLane (lane : RunLane) (s : QueueSystem) : QueueSystem :=
  match (s.queue.lane lane).current, (s.queue.lane lane).pending with
  | none, job :: rest =>
    { s with queue := s.queue.setLane lane ⟨none, rest⟩ }.processJob host now lane job
  | _, _ => s

def startFailure (job : QueuedJob) (message : String) : SettleOptions :=
  { plainSettle job.entry.toScheduledTask job.reservation .failed with
    diagnostic := some (makeTaskFailure host.rt now .modelError (.run .executing)
      (sliceText message 500))
    detail := some (sliceText message 500)
    factAt := some now }

/-! ## Steps -/

def resume (s : QueueSystem) : QueueSystem :=
  match s.frames with
  | .processLane lane :: _ => s.pop.processLane host now lane
  | .startFailed lane :: _ =>
    { s.pop with queue := s.queue.release lane }.push (.processLane lane)
  | _ => s

def startThrows (message : String) (s : QueueSystem) : QueueSystem :=
  match s.frames with
  | .starting lane job :: _ =>
    (s.pop.push (.startFailed lane)).settle host now (startFailure host now job message)
  | _ => s

end QueueSystem

inductive QueueOp
  /-- `enqueue` is called, and draws the run id if it reserves a run itself. -/
  | enqueue (now : Millis) (entry : QueueEntry) (manual : Bool) (reservation : Option TaskRunRow)
      (runId : String)
  /-- The store is written by anyone: reservations, settlements elsewhere, progress. -/
  | store (db : Db)
  /-- A settlement or repair by anyone notifies the queue. -/
  | notify (runId : String)
  | startReturns
  | startThrows (now : Millis) (message : String)
  | resume (now : Millis)

namespace QueueSystem

variable (s : QueueSystem)

def inStart : Bool :=
  match s.frames with
  | .starting _ _ :: _ => true
  | _ => false

def othersTurn : Bool := s.frames.isEmpty || s.inStart

/-- What can happen next.  A supplied reservation was made for its entry, a run id is
drawn once, and a run that is notified has lost its reservation. -/
def Enabled : QueueOp → Prop
  | .enqueue _ entry _ (some run) _ => s.othersTurn ∧ ⟨entry.id, run.runId⟩ ∈ s.reserved
  | .enqueue _ _ _ none runId => s.othersTurn ∧ ∀ c ∈ s.reserved, c.runId ≠ runId
  | .store db => s.othersTurn ∧ StoreWrites s.reserved s.db db
  | .notify runId => s.othersTurn ∧ ∀ c ∈ liveClaims s.db, c.runId ≠ runId
  | .startReturns | .startThrows _ _ => s.inStart
  | .resume _ => s.othersTurn = false

instance (s : QueueSystem) : ∀ op, Decidable (s.Enabled op)
  | .enqueue _ _ _ (some _) _ => inferInstanceAs (Decidable (_ ∧ _))
  | .enqueue _ _ _ none _ => inferInstanceAs (Decidable (_ ∧ _))
  | .store _ => inferInstanceAs (Decidable (_ ∧ _))
  | .notify _ => inferInstanceAs (Decidable (_ ∧ _))
  | .startReturns => inferInstanceAs (Decidable (_ = _))
  | .startThrows _ _ => inferInstanceAs (Decidable (_ = _))
  | .resume _ => inferInstanceAs (Decidable (_ = _))

def perform (host : CronHost) (s : QueueSystem) : QueueOp → QueueSystem
  | .enqueue now entry manual reservation runId =>
    (s.enqueue host now entry manual reservation runId).2
  | .store db => { s with db := db, reserved := liveClaims db ++ s.reserved }
  | .notify runId => s.onRunTerminal runId
  | .startReturns => s.pop
  | .startThrows now message => s.startThrows host now message
  | .resume now => s.resume host now

end QueueSystem

def queueStep (host : CronHost) (s : QueueSystem) (op : QueueOp) : QueueSystem :=
  if s.Enabled op then s.perform host op else s

end Abtars
