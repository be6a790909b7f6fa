import Abtars.Tui.FrameWriter

/-!
# What a frame is coalesced with

A replaceable frame takes the place of the older frame it stands for; a delta is added to the
older delta of its stream.  The queue keeps its order but for this one place.
-/

namespace Abtars

open Lib

namespace TuiFrameWriter

variable {frame old given : TuiServerFrame} {w : TuiFrameWriter} (env : WriterEnv)

def isDeltaOf (kind : ChunkKind) : TuiServerFrame → Bool
  | .chunk _ _ k _ => k = kind
  | _ => false

def older (w : TuiFrameWriter) (frame : TuiServerFrame) (info : FrameClassInfo) :
    Option (List QueuedFrame × QueuedFrame × List QueuedFrame) :=
  match info.cls with
  | .chunk =>
    match frame with
    | .chunk id _ kind _ =>
      (lastMatch (fun q => q.cls = .chunk ∧ q.streamId = some id) w.queue).filter
        fun (_, q, _) => isDeltaOf kind q.frame
    | _ => none
  | .streamStart =>
    lastMatch (fun q => q.cls = .streamStart ∧ q.streamId = info.streamId) w.queue
  | .status | .snapshot | .typing => firstMatch (·.cls = info.cls) w.queue
  | .progress =>
    match info.cardId with
    | none => none
    | some cardId => lastMatch (fun q => q.cls = .progress ∧ q.cardId = some cardId) w.queue
  | .control | .terminal | .discussion => none

def standIn (old frame : TuiServerFrame) : TuiServerFrame :=
  match old, frame with
  | .chunk id existingExecution kind existing, .chunk _ executionId _ delta =>
    .chunk id (executionId <|> existingExecution) kind
      (truncateUtf8 (existing ++ delta) env.maxChunkBytes)
  | _, _ => frame

def overflowing (old frame : TuiServerFrame) : Option String :=
  match old, frame with
  | .chunk _ _ _ existing, .chunk id _ _ delta =>
    if env.maxChunkBytes < (existing ++ delta).utf8ByteSize then some id else none
  | _, _ => none

def standInEntry (q : QueuedFrame) (frame : TuiServerFrame) (info : FrameClassInfo)
    (calls : List Nat) : QueuedFrame where
  frame := standIn env q.frame frame
  cls := q.cls
  bytes := encodedBytes env (standIn env q.frame frame)
  streamId := info.streamId <|> q.streamId
  cardId := info.cardId <|> q.cardId
  calls := if info.cls = .chunk then q.calls ++ calls else calls

def exchange (w : TuiFrameWriter) (before : List QueuedFrame) (q : QueuedFrame)
    (after : List QueuedFrame) (frame : TuiServerFrame) (info : FrameClassInfo)
    (calls : List Nat) : TuiFrameWriter :=
  let queue := before ++ standInEntry env q frame info calls :: after
  { w with
    queue
    queuedBytes :=
      if info.cls = .chunk then ((queue.map (·.bytes)).sum : Nat)
      else w.queuedBytes - q.bytes + encodedBytes env (standIn env q.frame frame)
    queuedFrames := if info.cls = .chunk then w.queuedFrames else w.queue.length }

variable (mark : TuiFrameWriter → String → TuiFrameWriter)

def merged (w : TuiFrameWriter) (frame : TuiServerFrame) (info : FrameClassInfo) (calls : List Nat)
    (found : List QueuedFrame × QueuedFrame × List QueuedFrame) : TuiFrameWriter :=
  let exchanged := w.exchange env found.1 found.2.1 found.2.2 frame info calls
  match overflowing env found.2.1.frame frame with
  | some id => mark exchanged id
  | none => exchanged

@[simp]
theorem truncatedStreams_exchange (w : TuiFrameWriter) (before : List QueuedFrame) (q : QueuedFrame)
    (after : List QueuedFrame) (frame : TuiServerFrame) (info : FrameClassInfo) (calls : List Nat) :
    (w.exchange env before q after frame info calls).truncatedStreams = w.truncatedStreams := rfl

variable {env}

def isChunk : TuiServerFrame → Bool
  | .chunk _ _ _ _ => true
  | _ => false

theorem classify_cls_eq_chunk (frame : TuiServerFrame) :
    (classify frame).cls = .chunk ↔ isChunk frame = true := by
  cases frame
  case activity sequence event =>
    simp only [classify, isChunk]
    split
    · simp
    · split <;> simp
  all_goals simp [classify, isChunk]

theorem classify_keys (frame : TuiServerFrame) :
    ((classify frame).cls = .streamStart → (classify frame).cardId = none) ∧
      ((classify frame).cls = .progress → (classify frame).streamId = none) ∧
      ((classify frame).cls ∈ [TuiFrameClass.status, .snapshot, .typing] →
        (classify frame).cardId = none ∧ (classify frame).streamId = none) := by
  cases frame
  case activity sequence event =>
    simp only [classify]
    split
    · simp
    · split <;> simp
  all_goals simp [classify]

/-- What travels in the place of a given frame: a delta for a delta, of the same stream. -/
structure StandsFor (frame given : TuiServerFrame) : Prop where
  chunk : isChunk frame = isChunk given
  stream : (classify frame).streamId = (classify given).streamId

theorem StandsFor.refl (frame : TuiServerFrame) : StandsFor frame frame := ⟨rfl, rfl⟩

theorem streamId_activity (sequence : Rat) (event : Json) :
    (classify (.activity sequence event)).streamId = none := by
  simp only [classify]
  split
  · rfl
  · split <;> rfl

theorem standsFor_make (budget : Nat) (frame : TuiServerFrame) :
    StandsFor (frame.make budget) frame := by
  cases frame
  case activity sequence event =>
    exact ⟨rfl, (streamId_activity _ _).trans (streamId_activity _ _).symm⟩
  all_goals exact ⟨rfl, rfl⟩

theorem standsFor_boundFrame (frame : TuiServerFrame) : StandsFor (boundFrame env frame) frame := by
  obtain ⟨budget, hmake⟩ := boundFrame_eq_make env frame
  rw [hmake]
  exact standsFor_make budget frame

theorem standIn_of_not_chunk (h : isChunk frame = false) : standIn env old frame = frame := by
  unfold standIn
  split
  · simp [isChunk] at h
  · rfl

theorem overflowing_of_not_chunk (h : isChunk frame = false) :
    overflowing env old frame = none := by
  unfold overflowing
  split
  · simp [isChunk] at h
  · rfl

theorem replace_eq_exchange {before after : List QueuedFrame}
    {q : QueuedFrame} {info : FrameClassInfo} {calls : List Nat}
    (hframe : isChunk frame = false) (hinfo : info.cls ≠ .chunk) (hq : q.cls = info.cls) :
    w.replace env before q after frame info.cls info.cardId info.streamId calls =
      w.exchange env before q after frame info calls := by
  simp only [replace, exchange, standInEntry, standIn_of_not_chunk hframe, hq, if_neg hinfo]

/-- A delta is merged into the entry that `coalesceChunk` finds. -/
theorem coalesceChunk_eq (w : TuiFrameWriter) {id : String} {executionId : Option String}
    {kind : ChunkKind} {delta : String}
    (hframe : StandsFor (.chunk id executionId kind delta) given) (calls : List Nat) :
    w.coalesceChunk env mark id executionId kind delta calls =
      (w.older (.chunk id executionId kind delta) (classify given)).map
        (w.merged env mark (.chunk id executionId kind delta) (classify given) calls) := by
  have hcls : (classify given).cls = .chunk :=
    (classify_cls_eq_chunk given).mpr hframe.chunk.symm
  have hstream : (classify given).streamId = some id := hframe.stream.symm
  have hcard : (classify given).cardId = none := by
    cases given <;> simp [classify] at hcls ⊢
    split at hcls
    · cases hcls
    · split at hcls <;> cases hcls
  simp only [coalesceChunk, older, hcls]
  cases hfound : lastMatch (fun q => decide (q.cls = .chunk ∧ q.streamId = some id)) w.queue with
  | none => rfl
  | some found =>
    obtain ⟨before, q, after⟩ := found
    have hq := (lastMatch_eq_some hfound).2.1
    simp only [decide_eq_true_eq] at hq
    obtain ⟨qframe, qcls, qbytes, qstream, qcard, qcalls⟩ := q
    cases qframe
    case chunk id' executionId' kind' existing =>
      by_cases hkind : kind' = kind
      · subst hkind
        have hstream' : some id = qstream := hq.2.symm
        subst hstream'
        simp only [if_true, Option.filter, isDeltaOf, decide_true, Option.map_some, merged,
          overflowing, exchange, standInEntry, standIn, hcls, hstream, hcard]
        split <;> rfl
      · simp [Option.filter, isDeltaOf, hkind]
    all_goals rfl

/-- Coalescing exchanges the older frame; a delta that overflows it truncates its stream. -/
theorem tryCoalesce_eq (w : TuiFrameWriter) (hframe : StandsFor frame given) (calls : List Nat) :
    w.tryCoalesce env mark frame (classify given) calls =
      (w.older frame (classify given)).map
        (w.merged env mark frame (classify given) calls) := by
  obtain ⟨hstart, hprogress, hlatest⟩ := classify_keys given
  have hexchange : ∀ before q after, q.cls = (classify given).cls →
      (classify given).cls ≠ .chunk →
      w.replace env before q after frame (classify given).cls (classify given).cardId
          (classify given).streamId calls =
        w.merged env mark frame (classify given) calls (before, q, after) := by
    intro before q after hq hne
    have hplain : isChunk frame = false := by
      rw [hframe.chunk]
      exact Bool.eq_false_iff.mpr fun h => hne ((classify_cls_eq_chunk given).mpr h)
    simp only [merged, overflowing_of_not_chunk hplain]
    exact replace_eq_exchange hplain hne hq
  cases hcls : (classify given).cls with
  | control | terminal | discussion => simp only [tryCoalesce, older, hcls, Option.map_none]
  | chunk =>
    have hchunk : isChunk frame = true :=
      hframe.chunk.trans ((classify_cls_eq_chunk given).mp hcls)
    cases frame
    case chunk id executionId kind delta =>
      refine Eq.trans ?_ (coalesceChunk_eq mark w hframe calls)
      simp only [tryCoalesce, hcls]
    all_goals simp [isChunk] at hchunk
  | streamStart =>
    simp only [tryCoalesce, older, hcls]
    refine Option.map_congr fun found hfound => ?_
    obtain ⟨before, q, after⟩ := found
    have hq := (lastMatch_eq_some hfound).2.1
    simp only [decide_eq_true_eq] at hq
    rw [← hexchange before q after (by rw [hq.1, hcls]) (by simp [hcls]), hcls, hstart hcls]
  | status | snapshot | typing =>
    obtain ⟨hcard, hstream⟩ := hlatest (by simp [hcls])
    simp only [tryCoalesce, older, hcls]
    refine Option.map_congr fun found hfound => ?_
    obtain ⟨before, q, after⟩ := found
    have hq := (firstMatch_eq_some hfound).2.1
    simp only [decide_eq_true_eq] at hq
    rw [← hexchange before q after (by rw [hq, hcls]) (by simp [hcls]), hcls, hcard, hstream]
  | progress =>
    cases hcard : (classify given).cardId with
    | none => simp only [tryCoalesce, older, hcls, hcard, Option.map_none]
    | some cardId =>
      simp only [tryCoalesce, older, hcls, hcard]
      refine Option.map_congr fun found hfound => ?_
      obtain ⟨before, q, after⟩ := found
      have hq := (lastMatch_eq_some hfound).2.1
      simp only [decide_eq_true_eq] at hq
      rw [← hexchange before q after (by rw [hq.1, hcls]) (by simp [hcls]), hcls, hcard,
        hprogress hcls]

/-- The older frame stands in the queue; it is of the class of the frame. -/
theorem older_eq_some {info : FrameClassInfo} {before after : List QueuedFrame} {q : QueuedFrame}
    (h : w.older frame info = some (before, q, after)) :
    w.queue = before ++ q :: after ∧ q.cls = info.cls := by
  unfold older at h
  split at h
  · rename_i hcls
    split at h
    · have hfound := (Option.filter_eq_some_iff.mp h).1
      obtain ⟨hqueue, hq, _⟩ := lastMatch_eq_some hfound
      simp only [decide_eq_true_eq] at hq
      exact ⟨hqueue, hq.1.trans hcls.symm⟩
    · cases h
  · rename_i hcls
    obtain ⟨hqueue, hq, _⟩ := lastMatch_eq_some h
    simp only [decide_eq_true_eq] at hq
    exact ⟨hqueue, hq.1.trans hcls.symm⟩
  · obtain ⟨hqueue, hq, _⟩ := firstMatch_eq_some h
    exact ⟨hqueue, by simpa using hq⟩
  · obtain ⟨hqueue, hq, _⟩ := firstMatch_eq_some h
    exact ⟨hqueue, by simpa using hq⟩
  · obtain ⟨hqueue, hq, _⟩ := firstMatch_eq_some h
    exact ⟨hqueue, by simpa using hq⟩
  · rename_i hcls
    split at h
    · cases h
    · obtain ⟨hqueue, hq, _⟩ := lastMatch_eq_some h
      simp only [decide_eq_true_eq] at hq
      exact ⟨hqueue, hq.1.trans hcls.symm⟩
  · cases h
  · cases h
  · cases h

/-! ## The body of `enqueue` in parts -/

variable (env)

/-- The frame that travels: the given one, or what stands for it when it is too large. -/
def working (frame : TuiServerFrame) : TuiServerFrame :=
  if env.maxFrameBytes < encodedBytes env frame then boundFrame env frame else frame

def deltaStream : TuiServerFrame → Option String
  | .chunk id _ _ _ => some id
  | _ => none

theorem deltaStream_of_chunk (h : (classify frame).cls = .chunk) :
    ∃ id, deltaStream frame = some id ∧ (classify frame).streamId = some id := by
  have hchunk := (classify_cls_eq_chunk frame).mp h
  cases frame
  case chunk id executionId kind delta => exact ⟨id, rfl, rfl⟩
  all_goals simp [isChunk] at hchunk

def oversizedStream (frame : TuiServerFrame) : Option String :=
  match frame with
  | .chunk id _ _ _ =>
    if env.maxFrameBytes < encodedBytes env frame ∧ id ≠ "" then some id else none
  | _ => none

/-- A frame is written; the writer is blocked from then on if the socket refuses more. -/
def writeThrough (w : TuiFrameWriter) (frame : TuiServerFrame) (calls : List Nat) :
    TuiFrameWriter :=
  { (w.socketWrite env frame calls).1 with writable := env.accepts w.log.length }

/-- A frame comes to rest: in the place of an older one, on the socket, or in the queue. -/
def settle (w : TuiFrameWriter) (frame : TuiServerFrame) (info : FrameClassInfo) (calls : List Nat) :
    TuiFrameWriter × TuiFrameWriterResult :=
  match w.tryCoalesce env mark frame info calls with
  | some w => (w, .coalesced)
  | none =>
    if w.writable then (w.writeThrough env frame calls, .written)
    else w.queueBlocked env mark frame info calls

variable {env}

theorem overflowing_stream (hstands : StandsFor frame given)
    {id : String} (h : overflowing env old frame = some id) : deltaStream given = some id := by
  unfold overflowing at h
  split at h
  · split at h
    · cases h
      have hchunk := (classify_cls_eq_chunk given).mpr hstands.chunk.symm
      obtain ⟨id', hdelta, hid'⟩ := deltaStream_of_chunk hchunk
      rw [hdelta, ← hid']
      exact hstands.stream.symm
    · cases h
  · cases h

theorem standsFor_working (frame : TuiServerFrame) : StandsFor (working env frame) frame := by
  unfold working
  split
  · exact standsFor_boundFrame frame
  · exact .refl frame

theorem rememberStreamIdentity_eq (w : TuiFrameWriter) (frame : TuiServerFrame) :
    ∃ executions, w.rememberStreamIdentity frame = { w with streamExecutions := executions } := by
  unfold rememberStreamIdentity
  split <;> exact ⟨_, rfl⟩

/-- A delta of a truncated stream is dropped; any other frame marks the stream it cuts, if it
does, and settles. -/
theorem enqueueWith_eq (w : TuiFrameWriter) (frame : TuiServerFrame) (calls : List Nat) :
    w.enqueueWith env mark frame calls =
      if (deltaStream frame).any (· ∈ (w.rememberStreamIdentity frame).truncatedStreams) then
        (w.rememberStreamIdentity frame, .dropped)
      else
        (match oversizedStream env frame with
          | some id => mark (w.rememberStreamIdentity frame) id
          | none => w.rememberStreamIdentity frame).settle env mark (working env frame)
            (classify frame) calls := by
  have hmark : (if env.maxFrameBytes < encodedBytes env frame then
        (w.rememberStreamIdentity frame).markOversized mark frame
      else w.rememberStreamIdentity frame) =
      match oversizedStream env frame with
      | some id => mark (w.rememberStreamIdentity frame) id
      | none => w.rememberStreamIdentity frame := by
    cases frame
    case chunk id executionId kind delta =>
      by_cases hsize : env.maxFrameBytes < encodedBytes env (.chunk id executionId kind delta)
      · by_cases hid : id = ""
        · simp [oversizedStream, markOversized, hid]
        · simp [oversizedStream, markOversized, hsize, hid]
      · simp [oversizedStream, hsize]
    all_goals simp [oversizedStream, markOversized]
  have hdelta : ((classify frame).cls = .chunk ∧ (classify frame).streamId.any
        (· ∈ (w.rememberStreamIdentity frame).truncatedStreams)) ↔
      (deltaStream frame).any (· ∈ (w.rememberStreamIdentity frame).truncatedStreams) := by
    rw [classify_cls_eq_chunk]
    cases frame <;> simp [isChunk, deltaStream, classify]
  rw [← hmark, enqueueWith]
  simp only [hdelta]
  rfl

theorem older_of_empty (hqueue : w.queue = []) (frame : TuiServerFrame)
    (info : FrameClassInfo) : w.older frame info = none := by
  cases hfound : w.older frame info with
  | none => rfl
  | some found =>
    have heq := (older_eq_some hfound).1
    simp [hqueue] at heq

end TuiFrameWriter

end Abtars
