import Abtars.Lib.Json
import Abtars.Lib.Pick
import Mathlib.Algebra.GroupWithZero.Nat

/-!
# The writer of one terminal connection

A `TuiFrameWriter` owns one socket.  While the socket takes writes it writes every frame through;
from a write that the socket refuses on it queues frames, within a number of frames and of bytes,
until the socket drains.  A frame that can stand for an older one takes its place, and replaceable
frames are evicted to make room, lowest class first.  A stream that loses text is truncated: one
`chunk-end` says so, and its later deltas are dropped.

The calls of `enqueue` that a frame carries and the log of what happened on the socket are there
to state what is written in which order; no operation reads them.
-/

namespace Abtars

open Lib

/-! ## Frames -/

inductive ChunkKind
  | text
  | thinking
  deriving DecidableEq

inductive ChunkEndReason
  | complete
  | error
  | cancelled
  | truncated

inductive MessageRole
  | assistant
  | system

inductive SteerAckStatus
  | queued
  | rejected
  | consumed
  | expired
  | failed

/-- A frame of the bridge.  Events, snapshots, statuses and handoffs are the objects they are
sent as. -/
inductive TuiServerFrame
  | ready (sessionLabel sessionId : String)
  | error (message : String)
  | message (role : MessageRole) (markdown : String) (executionId : Option String)
  | streamStart (id executionId : String)
  | chunk (id : String) (executionId : Option String) (kind : ChunkKind) (delta : String)
  | chunkEnd (id : String) (executionId : Option String) (reason : Option ChunkEndReason)
  | toolStart (id : String) (executionId : Option String) (name : String)
  | typing
  | steerAck (status : SteerAckStatus) (instructionId message : String)
  | activitySnapshot (sequence : Rat) (snapshot : Json)
  | activity (sequence : Rat) (event : Json)
  | activityGap (sequence : Rat)
  | status (status : Json)
  | codingHandoffAccepted (handoff : Json)
  | codingHandoffRejected (message : String)
  | codingHandoffStartedAccepted (sessionId : String) (pid : Rat)
  | codingHandoffReleased (message : String) (reattached : Option Bool)

def ChunkKind.name : ChunkKind → String
  | .text => "text"
  | .thinking => "thinking"

def ChunkEndReason.name : ChunkEndReason → String
  | .complete => "complete"
  | .error => "error"
  | .cancelled => "cancelled"
  | .truncated => "truncated"

def MessageRole.name : MessageRole → String
  | .assistant => "assistant"
  | .system => "system"

def SteerAckStatus.name : SteerAckStatus → String
  | .queued => "queued"
  | .rejected => "rejected"
  | .consumed => "consumed"
  | .expired => "expired"
  | .failed => "failed"

def definedMember (key : String) (value : Option Json) : List (String × Json) :=
  value.toList.map fun v => (key, v)

namespace TuiServerFrame

def members : TuiServerFrame → List (String × Json)
  | .ready sessionLabel sessionId =>
    [("t", .str "ready"), ("sessionLabel", .str sessionLabel), ("sessionId", .str sessionId)]
  | .error text => [("t", .str "error"), ("message", .str text)]
  | .message role markdown executionId =>
    [("t", .str "message"), ("role", .str role.name), ("markdown", .str markdown)] ++
      definedMember "executionId" (executionId.map .str)
  | .streamStart id executionId =>
    [("t", .str "stream-start"), ("id", .str id), ("executionId", .str executionId)]
  | .chunk id executionId kind delta =>
    [("t", .str "chunk"), ("id", .str id)] ++
      definedMember "executionId" (executionId.map .str) ++
      [("kind", .str kind.name), ("delta", .str delta)]
  | .chunkEnd id executionId reason =>
    [("t", .str "chunk-end"), ("id", .str id)] ++
      definedMember "executionId" (executionId.map .str) ++
      definedMember "reason" (reason.map (.str ·.name))
  | .toolStart id executionId name =>
    [("t", .str "tool-start"), ("id", .str id)] ++
      definedMember "executionId" (executionId.map .str) ++ [("name", .str name)]
  | .typing => [("t", .str "typing")]
  | .steerAck state instructionId text =>
    [("t", .str "steer-ack"), ("status", .str state.name),
      ("instructionId", .str instructionId), ("message", .str text)]
  | .activitySnapshot sequence snapshot =>
    [("t", .str "activity-snapshot"), ("sequence", .num sequence), ("snapshot", snapshot)]
  | .activity sequence event =>
    [("t", .str "activity"), ("sequence", .num sequence), ("event", event)]
  | .activityGap sequence => [("t", .str "activity-gap"), ("sequence", .num sequence)]
  | .status value => [("t", .str "status"), ("status", value)]
  | .codingHandoffAccepted handoff =>
    [("t", .str "coding-handoff-accepted"), ("handoff", handoff)]
  | .codingHandoffRejected text =>
    [("t", .str "coding-handoff-rejected"), ("message", .str text)]
  | .codingHandoffStartedAccepted sessionId pid =>
    [("t", .str "coding-handoff-started-accepted"), ("sessionId", .str sessionId),
      ("pid", .num pid)]
  | .codingHandoffReleased text reattached =>
    [("t", .str "coding-handoff-released"), ("message", .str text)] ++
      definedMember "reattached" (reattached.map .bool)

end TuiServerFrame

def encodeFrame (renderFraction : Rat → String) (frame : TuiServerFrame) : String :=
  Json.stringify renderFraction (.obj frame.members) ++ "\n"

/-! ## What a writer is built with -/

/-- The limits of a writer, how fractions print, and what the socket answers: whether it takes
more after the write that the log of the writer has at this place. -/
structure WriterEnv where
  maxFrames : Nat := 256
  maxBytes : Nat := 512 * 1024
  maxFrameBytes : Nat := 256 * 1024
  maxChunkBytes : Nat := 16 * 1024
  renderFraction : Rat → String
  accepts : Nat → Bool

def encodedBytes (env : WriterEnv) (frame : TuiServerFrame) : Nat :=
  (encodeFrame env.renderFraction frame).utf8ByteSize

/-! ## Frames that are too large -/

def truncationMarker : String := "\n[… output truncated]"

def truncateUtf8Chars : Nat → List Char → List Char
  | _, [] => []
  | bytes, ch :: rest =>
    if ch.utf8Size ≤ bytes then ch :: truncateUtf8Chars (bytes - ch.utf8Size) rest else []

def truncateUtf8 (s : String) (maxBytes : Nat) : String :=
  String.ofList (truncateUtf8Chars maxBytes s.toList)

mutual

def truncateStringsDeep (maxBytes : Nat) : Json → Json
  | .str s => .str (if utf16Length s ≤ maxBytes then s else truncateUtf8 s maxBytes)
  | .arr items => .arr (truncateItemsDeep maxBytes items)
  | .obj members => .obj (truncateMembersDeep maxBytes members)
  | .null => .null
  | .bool b => .bool b
  | .num q => .num q

def truncateItemsDeep (maxBytes : Nat) : List Json → List Json
  | [] => []
  | v :: vs => truncateStringsDeep maxBytes v :: truncateItemsDeep maxBytes vs

def truncateMembersDeep (maxBytes : Nat) : List (String × Json) → List (String × Json)
  | [] => []
  | (k, v) :: ms => (k, truncateStringsDeep maxBytes v) :: truncateMembersDeep maxBytes ms

end

def TuiServerFrame.make (budget : Nat) : TuiServerFrame → TuiServerFrame
  | .message role markdown executionId =>
    .message role (truncateUtf8 markdown budget ++ truncationMarker) executionId
  | .chunk id executionId kind delta => .chunk id executionId kind (truncateUtf8 delta budget)
  | .streamStart id executionId => .streamStart id executionId
  | .activity sequence event => .activity sequence (truncateStringsDeep (min budget 512) event)
  | .activitySnapshot sequence snapshot =>
    .activitySnapshot sequence (truncateStringsDeep 512 snapshot)
  | .status value => .status (truncateStringsDeep 256 value)
  | .ready sessionLabel sessionId => .ready (truncateUtf8 sessionLabel budget) sessionId
  | .error text => .error (truncateUtf8 text budget)
  | .steerAck state instructionId text =>
    .steerAck state instructionId (truncateUtf8 text budget)
  | .toolStart id executionId name => .toolStart id executionId (truncateUtf8 name budget)
  | .chunkEnd id executionId reason => .chunkEnd id executionId reason
  | .typing => .typing
  | .activityGap sequence => .activityGap sequence
  | .codingHandoffAccepted handoff => .codingHandoffAccepted (truncateStringsDeep budget handoff)
  | .codingHandoffRejected text => .codingHandoffRejected (truncateUtf8 text budget)
  | .codingHandoffStartedAccepted sessionId pid => .codingHandoffStartedAccepted sessionId pid
  | .codingHandoffReleased text reattached =>
    .codingHandoffReleased (truncateUtf8 text budget) reattached

/-- The loop of `boundFrame`: the budget shrinks by a quarter until the frame fits or nothing is
left of it.  The first argument bounds the rounds; the budget gets smaller in each. -/
def boundLoop (env : WriterEnv) (frame : TuiServerFrame) : Nat → Nat → TuiServerFrame
  | 0, _ => frame.make 0
  | rounds + 1, budget =>
    if encodedBytes env (frame.make budget) ≤ env.maxFrameBytes then frame.make budget
    else if budget * 3 / 4 = 0 then frame.make 0
    else boundLoop env frame rounds (budget * 3 / 4)

def boundFrame (env : WriterEnv) (frame : TuiServerFrame) : TuiServerFrame :=
  boundLoop env frame (env.maxFrameBytes + 1) env.maxFrameBytes

theorem boundFrame_eq_make (env : WriterEnv) (frame : TuiServerFrame) :
    ∃ budget, boundFrame env frame = frame.make budget := by
  have hloop : ∀ rounds budget, ∃ budget', boundLoop env frame rounds budget =
      frame.make budget' := by
    intro rounds
    induction rounds with
    | zero => exact fun _ => ⟨0, rfl⟩
    | succ rounds ih =>
      intro budget
      simp only [boundLoop]
      split
      · exact ⟨budget, rfl⟩
      · split
        · exact ⟨0, rfl⟩
        · exact ih _
  exact hloop _ _

/-! ## Classes -/

inductive TuiFrameClass
  | control
  | terminal
  | snapshot
  | status
  | progress
  | discussion
  | chunk
  | streamStart
  | typing
  deriving DecidableEq

def evictOrder : List TuiFrameClass :=
  [.typing, .streamStart, .status, .progress, .discussion, .chunk]

structure FrameClassInfo where
  cls : TuiFrameClass
  streamId : Option String := none
  cardId : Option Rat := none

def terminalActivityKinds : List String :=
  ["card.completed", "card.failed", "card.delivered", "execution.completed", "execution.failed"]

def classify : TuiServerFrame → FrameClassInfo
  | .ready _ _ | .error _ | .codingHandoffAccepted _ | .codingHandoffRejected _
  | .codingHandoffStartedAccepted _ _ | .codingHandoffReleased _ _ => { cls := .control }
  | .message _ _ _ | .chunkEnd _ _ _ | .steerAck _ _ _ => { cls := .terminal }
  | .activitySnapshot _ _ => { cls := .snapshot }
  | .status _ => { cls := .status }
  | .typing => { cls := .typing }
  | .streamStart id _ => { cls := .streamStart, streamId := some id }
  | .toolStart _ _ _ => { cls := .typing }
  | .chunk id _ _ _ => { cls := .chunk, streamId := some id }
  | .activity _ event =>
    let kind := Json.text? (event.member "kind")
    if kind.any (· ∈ terminalActivityKinds) then { cls := .terminal }
    else if kind = some "channel.message" then { cls := .discussion }
    else { cls := .progress, cardId := Json.number? (event.member "cardId") }
  | .activityGap _ => { cls := .terminal }

/-! ## The state of a writer -/

structure QueuedFrame where
  frame : TuiServerFrame
  cls : TuiFrameClass
  bytes : Nat
  streamId : Option String
  cardId : Option Rat
  /-- The calls of `enqueue` whose frames this one carries; none for a frame of the writer's own. -/
  calls : List Nat

inductive SocketEvent
  | write (frame : TuiServerFrame) (calls : List Nat) (accepted : Bool)
  | drain

structure TuiFrameWriter where
  queue : List QueuedFrame := []
  queuedBytes : Int := 0
  queuedFrames : Nat := 0
  writable : Bool := true
  closed : Bool := false
  /-- Streams whose output was truncated. -/
  truncatedStreams : List String := []
  /-- The latest execution seen of each stream. -/
  streamExecutions : String → Option String := fun _ => none
  discussionGap : Bool := false
  discussionGapSequence : Rat := 0
  /-- How often the adapter was told that activity was dropped. -/
  semanticOverflows : Nat := 0
  /-- What happened on the socket so far. -/
  log : List SocketEvent := []
  /-- The frames `enqueue` was called with so far. -/
  given : List TuiServerFrame := []

inductive TuiFrameWriterResult
  | written
  | queued
  | coalesced
  | dropped

namespace TuiFrameWriter

variable (env : WriterEnv) (w : TuiFrameWriter) (frame : TuiServerFrame)

/-- `socket.write`, with what the socket answers. -/
def socketWrite (calls : List Nat) : TuiFrameWriter × Bool :=
  let ok := env.accepts w.log.length
  ({ w with log := w.log ++ [.write frame calls ok] }, ok)

def canAccept (need : Nat) : Bool :=
  w.queuedBytes + need ≤ env.maxBytes && w.queue.length + 1 ≤ env.maxFrames

def recomputeBytes : TuiFrameWriter :=
  { w with
    queuedBytes := ((w.queue.map (·.bytes)).sum : Nat)
    queuedFrames := w.queue.length }

def rememberStreamIdentity : TuiFrameWriter :=
  let remember (id executionId : String) : TuiFrameWriter :=
    { w with streamExecutions := Function.update w.streamExecutions id (some executionId) }
  match frame with
  | .streamStart id executionId => remember id executionId
  | .chunk id (some executionId) _ _ => remember id executionId
  | .chunkEnd id (some executionId) _ => remember id executionId
  | .toolStart id (some executionId) _ => remember id executionId
  | _ => w

def frameSequence : TuiServerFrame → Rat
  | .activitySnapshot sequence _ | .activity sequence _ | .activityGap sequence => sequence
  | _ => 0

def markDiscussionGap : TuiFrameWriter :=
  if w.discussionGap then w
  else { w with discussionGap := true, discussionGapSequence := frameSequence frame }

def truncationTerminal (streamId : String) : TuiServerFrame :=
  .chunkEnd streamId (w.streamExecutions streamId) (some .truncated)

def pushFrame (info : FrameClassInfo) (calls : List Nat) : TuiFrameWriter :=
  let bytes := encodedBytes env frame
  { w with
    queue := w.queue ++
      [{ frame, cls := info.cls, bytes, streamId := info.streamId, cardId := info.cardId, calls }]
    queuedBytes := w.queuedBytes + bytes
    queuedFrames := w.queue.length + 1 }

section Marking

variable (mark : TuiFrameWriter → String → TuiFrameWriter) (w : TuiFrameWriter)

def applyEvictSideEffects (q : QueuedFrame) : TuiFrameWriter :=
  match q.cls, q.streamId with
  | .chunk, some streamId => mark w streamId
  | .progress, _ => { w with semanticOverflows := w.semanticOverflows + 1 }
  | .discussion, _ => w.markDiscussionGap q.frame
  | _, _ => w

/-- The loop over one class: its oldest frame goes, until there is room or none is left.  The
first argument bounds the rounds; each removes a frame of the class and none adds one. -/
def evictClass (need : Nat) (cls : TuiFrameClass) :
    Nat → TuiFrameWriter → TuiFrameWriter × Bool
  | 0, w => (w, false)
  | rounds + 1, w =>
    match firstMatch (·.cls = cls) w.queue with
    | none => (w, false)
    | some (before, removed, after) =>
      let w := applyEvictSideEffects mark
        { w with queue := before ++ after, queuedBytes := w.queuedBytes - removed.bytes }
        removed
      if w.canAccept env need then (w, true) else evictClass need cls rounds w

def evictFor (need : Nat) : List TuiFrameClass → TuiFrameWriter → TuiFrameWriter × Bool
  | [], w => (w, w.canAccept env need)
  | cls :: rest, w =>
    let (w, made) := evictClass env mark need cls w.queue.length w
    if made then (w, true) else evictFor need rest w

def forceEvictOne : TuiFrameWriter × Bool :=
  match w.queue with
  | [] => (w, false)
  | removed :: rest =>
    (applyEvictSideEffects mark
      { w with queue := rest, queuedBytes := w.queuedBytes - removed.bytes } removed, true)

def replace (before : List QueuedFrame) (old : QueuedFrame) (after : List QueuedFrame)
    (frame : TuiServerFrame) (cls : TuiFrameClass) (cardId : Option Rat) (streamId : Option String)
    (calls : List Nat) : TuiFrameWriter :=
  let bytes := encodedBytes env frame
  { w with
    queue := before ++
      { frame, cls, bytes, streamId := streamId <|> old.streamId
        cardId := cardId <|> old.cardId, calls } :: after
    queuedBytes := w.queuedBytes - old.bytes + bytes
    queuedFrames := w.queue.length }

/-- A delta is added to the last queued delta of its stream, when both are of one kind. -/
def coalesceChunk (streamId : String) (executionId : Option String) (kind : ChunkKind)
    (delta : String) (calls : List Nat) : Option TuiFrameWriter :=
  match lastMatch (fun q => q.cls = .chunk ∧ q.streamId = some streamId) w.queue with
  | none => none
  | some (before, q, after) =>
    match q.frame with
    | .chunk id existingExecution existingKind existing =>
      if existingKind = kind then
        let combined := existing ++ delta
        let capped := truncateUtf8 combined env.maxChunkBytes
        let merged : TuiServerFrame := .chunk id (executionId <|> existingExecution) kind capped
        let queue := before ++
          { q with frame := merged, bytes := encodedBytes env merged
                   calls := q.calls ++ calls } :: after
        let w := { w with queue, queuedBytes := ((queue.map (·.bytes)).sum : Nat) }
        some (if env.maxChunkBytes < combined.utf8ByteSize then mark w streamId else w)
      else none
    | _ => none

variable (frame : TuiServerFrame)

def tryCoalesce (info : FrameClassInfo) (calls : List Nat) : Option TuiFrameWriter :=
  match info.cls with
  | .chunk =>
    match frame with
    | .chunk id executionId kind delta => w.coalesceChunk env mark id executionId kind delta calls
    | _ => none
  | .streamStart =>
    (lastMatch (fun q => q.cls = .streamStart ∧ q.streamId = info.streamId) w.queue).map
      fun (before, old, after) =>
        w.replace env before old after frame .streamStart none info.streamId calls
  | .status | .snapshot | .typing =>
    (firstMatch (·.cls = info.cls) w.queue).map fun (before, old, after) =>
      w.replace env before old after frame info.cls none none calls
  | .progress =>
    match info.cardId with
    | none => none
    | some cardId =>
      (lastMatch (fun q => q.cls = .progress ∧ q.cardId = some cardId) w.queue).map
        fun (before, old, after) =>
          w.replace env before old after frame .progress (some cardId) none calls
  | .control | .terminal | .discussion => none

/-- A frame for a blocked socket: it is queued when there is room or room can be made. -/
def queueBlocked (info : FrameClassInfo) (calls : List Nat) :
    TuiFrameWriter × TuiFrameWriterResult :=
  let bytes := encodedBytes env frame
  if w.canAccept env bytes then (w.pushFrame env frame info calls, .queued)
  else
    let (w, made) := w.evictFor env mark bytes evictOrder
    if made then (w.pushFrame env frame info calls, .queued)
    else
      match info.cls, info.streamId with
      | .chunk, some streamId => (mark w streamId, .dropped)
      | .progress, _ => ({ w with semanticOverflows := w.semanticOverflows + 1 }, .dropped)
      | .discussion, _ => (w.markDiscussionGap frame, .dropped)
      | .typing, _ | .status, _ => (w, .dropped)
      | _, _ =>
        -- a frame to keep, and nothing replaceable left: the oldest frame of any class goes
        let (w, evicted) := w.forceEvictOne mark
        if evicted then (w.pushFrame env frame info calls, .queued) else (w, .dropped)

def markOversized : TuiServerFrame → TuiFrameWriter
  | .chunk id _ _ _ => if id = "" then w else mark w id
  | _ => w

/-- The body of `enqueue` for a writer that is open and current. -/
def enqueueWith (calls : List Nat) : TuiFrameWriter × TuiFrameWriterResult :=
  let info := classify frame
  let w := w.rememberStreamIdentity frame
  if info.cls = .chunk ∧ info.streamId.any (· ∈ w.truncatedStreams) then (w, .dropped)
  else
    let oversized := env.maxFrameBytes < encodedBytes env frame
    let working := if oversized then boundFrame env frame else frame
    let w := if oversized then w.markOversized mark frame else w
    match w.tryCoalesce env mark working info calls with
    | some w => (w, .coalesced)
    | none =>
      if w.writable then
        let (w, ok) := w.socketWrite env working calls
        ({ w with writable := ok }, .written)
      else w.queueBlocked env mark working info calls

end Marking

/-- Say once that a stream is truncated.  The first argument bounds how deep the marks nest: each
further one is for a delta that the one before evicted. -/
def markTruncated : Nat → TuiFrameWriter → String → TuiFrameWriter
  | 0, w, _ => w
  | depth + 1, w, streamId =>
    if streamId ∈ w.truncatedStreams then w
    else
      let w := { w with truncatedStreams := streamId :: w.truncatedStreams }
      (w.enqueueWith env (markTruncated depth) (w.truncationTerminal streamId) []).1

/-- A frame for the client.  `current` is what `isCurrent()` answers. -/
def enqueue (current : Bool) (w : TuiFrameWriter) (frame : TuiServerFrame) :
    TuiFrameWriter × TuiFrameWriterResult :=
  let given := w.given ++ [frame]
  if w.closed || !current then ({ w with given }, .dropped)
  else
    let (w, result) := w.enqueueWith env (markTruncated env (w.queue.length + 1)) frame
      [w.given.length]
    ({ w with given }, result)

/-! ### The other operations -/

def flushQueue : List QueuedFrame → TuiFrameWriter → TuiFrameWriter
  | [], w => { w with queue := [], queuedFrames := 0 }
  | item :: rest, w =>
    let (w, ok) := w.socketWrite env item.frame item.calls
    let w := { w with queue := rest, queuedBytes := w.queuedBytes - item.bytes }
    if ok then flushQueue rest w
    else { w with writable := false, queuedFrames := rest.length }

variable (w : TuiFrameWriter)

def flush : TuiFrameWriter :=
  w.flushQueue env w.queue

/-- The socket drained.  Frames that the adapter adds on `onWritable` are calls of their own. -/
def drain (current : Bool) (w : TuiFrameWriter) : TuiFrameWriter :=
  let w := { w with log := w.log ++ [.drain] }
  if w.closed || !current then w
  else
    let w := { w with writable := true }
    let w :=
      if w.discussionGap then
        { (w.socketWrite env (.activityGap w.discussionGapSequence) []).1 with
          discussionGap := false }
      else w
    w.flush env

def dropActivity : TuiFrameWriter :=
  if w.closed then w
  else ({ w with queue := w.queue.filter (·.cls ≠ TuiFrameClass.progress) }).recomputeBytes

def clearAttachment : TuiFrameWriter :=
  if w.closed then w
  else
    { ({ w with queue := w.queue.filter fun q =>
        q.cls = TuiFrameClass.control ∨ q.cls = TuiFrameClass.terminal }).recomputeBytes with
      streamExecutions := fun _ => none
      discussionGap := false
      discussionGapSequence := 0 }

def close : TuiFrameWriter :=
  if w.closed then w
  else
    { w with
      closed := true
      writable := false
      queue := []
      queuedBytes := 0
      queuedFrames := 0
      truncatedStreams := []
      streamExecutions := fun _ => none
      discussionGap := false
      discussionGapSequence := 0 }

end TuiFrameWriter

/-! ## Steps -/

inductive WriterOp
  | enqueue (frame : TuiServerFrame) (current : Bool)
  | drain (current : Bool)
  | dropActivity
  | clearAttachment
  | close

def writerStep (env : WriterEnv) (w : TuiFrameWriter) : WriterOp → TuiFrameWriter
  | .enqueue frame current => (w.enqueue env current frame).1
  | .drain current => w.drain env current
  | .dropActivity => w.dropActivity
  | .clearAttachment => w.clearAttachment
  | .close => w.close

end Abtars
