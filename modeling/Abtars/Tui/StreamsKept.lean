import Abtars.Lib.JsonSize
import Abtars.Tui.FrameOrder

/-!
# What reaches the socket, and in which order

The writer waits for the drain of its socket, sends the frames of a stream in the order of their
calls, and ends a stream that lost text once, after all of it.  It does so as long as the marker
of dropped discussion is taken by the socket, no delta is too large by itself or has to be queued
behind the end of its own stream, no frame is coalesced past another of its stream, and no end of
a truncated stream is the oldest frame that makes way.
-/

namespace Abtars

open Lib

namespace TuiFrameWriter

variable {env : WriterEnv} {ok : QueuedFrame → Prop}

/-! ## Between two moves -/

structure EntryOk (q : QueuedFrame) : Prop where
  chunk : q.cls = .chunk ↔ isChunk q.frame = true
  stream : isChunk q.frame = true → q.streamId = streamOf q.frame
  ends : ∀ id, isTruncatedEnd id q.frame = true → q.cls = .terminal

def outgoing (w : TuiFrameWriter) : List SentFrame :=
  w.sent ++ w.waiting

/-- The frames of a writer after some calls with some frames, where the streams that are pending
are truncated but have no end yet. -/
structure Orderly (given : List TuiServerFrame) (calls : Nat) (w : TuiFrameWriter)
    (pending : List String) : Prop where
  sequence : InSequence (fun id => id ∈ w.truncatedStreams ∧ id ∉ pending) calls w.outgoing
  text : ∀ id, id ∉ w.truncatedStreams → textOf id (w.outgoing.map (·.1)) = textOf id given
  entries : ∀ q ∈ w.queue, EntryOk q
  nodup : pending.Nodup
  truncated : ∀ id ∈ pending, id ∈ w.truncatedStreams

theorem EntryOk.deltaText_eq_nil {q : QueuedFrame} (h : EntryOk q) {id : String}
    (hdelta : ¬ IsDeltaOf id q) : deltaText id q.frame = [] := by
  apply deltaText_of_not_delta
  rw [Bool.eq_false_iff]
  intro hframe
  obtain ⟨frame, cls, bytes, streamId, cardId, calls⟩ := q
  cases frame
  case chunk id' executionId kind delta =>
    have hcls := h.chunk.mpr rfl
    have hstream := h.stream rfl
    simp only [isDelta, decide_eq_true_eq] at hframe
    exact hdelta ⟨hcls, by rw [← hframe]; exact hstream⟩
  all_goals cases hframe

theorem EntryOk.not_end {q : QueuedFrame} (h : EntryOk q) (hcls : q.cls ≠ .terminal)
    (id : String) : isTruncatedEnd id q.frame = false := by
  rw [Bool.eq_false_iff]
  exact fun hend => hcls (h.ends id hend)

theorem not_terminal_of_evictable {cls : TuiFrameClass} (h : cls ∈ evictOrder) :
    cls ≠ .terminal := by
  rintro rfl
  exact absurd h (by decide)

section Moves

variable {given : List TuiServerFrame} {calls : Nat} {w w' : TuiFrameWriter}
  {pending pending' : List String} {before after : List QueuedFrame} {q : QueuedFrame}

theorem outgoing_of_queue (hqueue : w.queue = before ++ q :: after) :
    w.outgoing = (w.sent ++ before.map fun q => (q.frame, q.calls)) ++
      (q.frame, q.calls) :: after.map fun q => (q.frame, q.calls) := by
  simp [outgoing, waiting, hqueue]

theorem outgoing_without (w : TuiFrameWriter) (before : List QueuedFrame) (q : QueuedFrame)
    (after : List QueuedFrame) :
    (w.without before q after).outgoing = (w.sent ++ before.map fun q => (q.frame, q.calls)) ++
      after.map fun q => (q.frame, q.calls) := by
  simp only [outgoing, waiting, queue_without, List.map_append, ← List.append_assoc]
  rfl

theorem text_without (hqueue : w.queue = before ++ q :: after) {id : String} (hq : EntryOk q)
    (hdelta : ¬ IsDeltaOf id q) :
    textOf id ((w.without before q after).outgoing.map (·.1)) =
      textOf id (w.outgoing.map (·.1)) := by
  rw [outgoing_without, outgoing_of_queue hqueue]
  simp only [List.map_append, List.map_cons, textOf_append, textOf_cons,
    hq.deltaText_eq_nil hdelta, List.nil_append]

theorem Orderly.drop (h : Orderly given calls w pending) (hqueue : w.queue = before ++ q :: after)
    (hend : ∀ id, isTruncatedEnd id q.frame = false)
    (hdelta : ∀ id, IsDeltaOf id q → id ∈ w.truncatedStreams) :
    Orderly given calls (w.without before q after) pending := by
  have hq : EntryOk q := h.entries q (by simp [hqueue])
  have hseq := h.sequence
  rw [outgoing_of_queue hqueue] at hseq
  refine ⟨?_, fun id hid => ?_, fun a ha => h.entries a ?_, h.nodup, h.truncated⟩
  · rw [outgoing_without]
    exact hseq.remove hend
  · rw [text_without hqueue hq fun hd => hid (hdelta id hd)]
    exact h.text id hid
  · rw [hqueue]
    simp only [queue_without, List.mem_append, List.mem_cons] at ha ⊢
    tauto

theorem EvictMove.orderly (hmove : EvictMove env ok (w, pending) (w', pending'))
    (h : Orderly given calls w pending) : Orderly given calls w' pending' := by
  cases hmove with
  | drop overflows gap sequence hqueue hcls hok hfresh =>
    rename_i before q after
    have hq : EntryOk q := h.entries q (by simp [hqueue])
    have hwithout := h.drop hqueue (hq.not_end (not_terminal_of_evictable hcls)) (by
      rintro id ⟨hchunk, hstream⟩
      by_contra hmem
      simp [freshStream, hchunk, hstream, hmem] at hfresh)
    exact ⟨hwithout.sequence, hwithout.text, hwithout.entries, hwithout.nodup,
      hwithout.truncated⟩
  | truncate hqueue hcls hok hfresh =>
    rename_i before q after id
    have hq : EntryOk q := h.entries q (by simp [hqueue])
    obtain ⟨hchunk, hstream, hmem⟩ := freshStream_eq_some hfresh
    have hseq := h.sequence
    rw [outgoing_of_queue hqueue] at hseq
    refine ⟨?_, fun id' hid' => ?_, fun a ha => h.entries a ?_,
      List.nodup_cons.mpr ⟨fun hid => hmem (h.truncated id hid), h.nodup⟩, fun id' hid' => ?_⟩
    · have hsame := hseq.remove (hq.not_end (not_terminal_of_evictable hcls))
      rw [← outgoing_without w before q after] at hsame
      refine hsame.congr fun id' => ?_
      show id' ∈ id :: w.truncatedStreams ∧ _ ↔ _
      by_cases heq : id' = id
      · subst heq
        simp [hmem]
      · simp [heq]
    · have hne : id' ≠ id := fun heq => hid' (heq ▸ List.mem_cons_self)
      have hother : ¬ IsDeltaOf id' q := by
        rintro ⟨_, hstream'⟩
        rw [hstream] at hstream'
        exact hne (Option.some.inj hstream').symm
      have hkeep := text_without hqueue hq hother
      exact hkeep.trans (h.text id' fun hid => hid' (List.mem_cons_of_mem id hid))
    · have hmem' : a ∈ before ++ after := ha
      rw [hqueue]
      simp only [List.mem_append, List.mem_cons] at hmem' ⊢
      tauto
    · rcases List.mem_cons.mp hid' with rfl | hid'
      · exact List.mem_cons_self
      · exact List.mem_cons_of_mem id (h.truncated id' hid')
  | settle hroom =>
    rename_i id
    have hnodup := List.nodup_cons.mp h.nodup
    have hout : (w.pushTerminal env id).outgoing = w.outgoing ++
        [(.chunkEnd id (w.streamExecutions id) (some .truncated), [])] := by
      simp only [outgoing, waiting, queue_pushTerminal, List.map_append, ← List.append_assoc]
      rfl
    refine ⟨?_, fun id' hid' => ?_, fun a ha => ?_, hnodup.2,
      fun id' hid' => h.truncated id' (List.mem_cons_of_mem id hid')⟩
    · rw [hout]
      have hopen : ¬ (id ∈ w.truncatedStreams ∧ id ∉ id :: pending') := by simp
      have hended := h.sequence.appendEnd hopen (w.streamExecutions id)
      refine hended.congr fun id' => ?_
      show id' ∈ w.truncatedStreams ∧ id' ∉ pending' ↔ _
      have htrunc := h.truncated id List.mem_cons_self
      by_cases heq : id' = id
      · subst heq
        simp [htrunc, hnodup.1]
      · simp [heq]
    · rw [hout, List.map_append, textOf_append, h.text id' hid']
      simp [textOf, deltaText]
    · rcases List.mem_append.mp ha with ha | ha
      · exact h.entries a ha
      · obtain rfl := List.mem_singleton.mp ha
        exact ⟨by simp [truncationTerminal, isChunk], fun hchunk => (by cases hchunk),
          fun _ _ => rfl⟩

theorem EvictMoves.orderly {s s' : TuiFrameWriter × List String} (hmoves : EvictMoves env ok s s')
    (h : Orderly given calls s.1 s.2) : Orderly given calls s'.1 s'.2 := by
  induction hmoves with
  | refl => exact h
  | tail _ hmove ih => exact hmove.orderly ih

end Moves

/-! ## When an operation keeps the order -/

variable (env)

def sparing (info : FrameClassInfo) (q : QueuedFrame) : Prop :=
  info.cls = .chunk → ∀ id, info.streamId = some id → ¬ IsDeltaOf id q

/-- A frame that finds nothing to be coalesced with, on a blocked socket.  Evicting frames other
than the deltas of its own stream makes room for it; or else all ends of streams find room, and a
delta is dropped whose stream has none queued, a replaceable frame is dropped, or the oldest of
the frames that are kept goes, which is not an end of a truncated stream. -/
def QueueOrderly (w : TuiFrameWriter) (frame : TuiServerFrame) (info : FrameClassInfo) : Prop :=
  Roomy env false (sparing info) w (encodedBytes env frame) 1 ∨
    match info.cls, info.streamId with
    | .chunk, some id =>
      ¬ w.HasDelta id ∧ Roomy env true anyFrame w (w.terminalBytes env id) 1
    | .progress, _ | .discussion, _ | .typing, _ | .status, _ => Roomy env true anyFrame w 0 0
    | _, _ =>
      match w.kept with
      | [] => w.evictable = []
      | oldest :: _ =>
        Roomy env true anyFrame w 0 0 ∧ ∀ id, isTruncatedEnd id oldest.frame = false

/-- A frame that `enqueue` takes.  A delta of a truncated stream is dropped.  Of the others a
delta is not too large by itself, and no producer sends the end of a truncated stream; a frame
that is coalesced has no frame of its stream queued behind the older one, and a stream that it
overflows has room for its end. -/
def EnqueueOrderly (w : TuiFrameWriter) (frame : TuiServerFrame) : Prop :=
  (∃ id, deltaStream frame = some id ∧ id ∈ w.truncatedStreams) ∨
  ((∀ id, isTruncatedEnd id frame = false) ∧
    (isChunk frame = true → encodedBytes env frame ≤ env.maxFrameBytes) ∧
    (w.writable = true ∨
      match w.older (working env frame) (classify frame) with
      | some (before, q, after) =>
        (∀ id, streamOf frame = some id → ∀ a ∈ after, streamOf a.frame ≠ some id) ∧
        ∀ id, overflowing env q.frame (working env frame) = some id →
          Roomy env false anyFrame
            ((w.exchange env before q after (working env frame) (classify frame)
              [w.given.length]).truncate id)
            (w.terminalBytes env id) 1
      | none => QueueOrderly env w (working env frame) (classify frame)))

/-- Frames are given to a current writer and its socket drains, and neither takes a branch that
breaks the order. -/
def StaysOrderly (w : TuiFrameWriter) : WriterOp → Prop
  | .enqueue frame current =>
    if current then EnqueueOrderly env (w.rememberStreamIdentity frame) frame
    else deltaStream frame = none
  | .drain current =>
    current = true → w.discussionGap = true → env.accepts (w.log.length + 1) = true
  | .dropActivity | .clearAttachment | .close => False

variable {env}

/-! ## A frame comes to rest -/

structure KeepsOrder (given : List TuiServerFrame) (calls : Nat) (w : TuiFrameWriter) : Prop where
  orderly : Orderly given calls w []
  flushed : w.writable = true → w.queue = []
  backpressured : Backpressured w.log
  ready : w.writable = true → ∀ frame carried, w.log.getLast? ≠ some (.write frame carried false)
  opened : w.closed = false

/-- What stands for a frame on its way is of the same stream, no end where the frame is none, and
has the same text unless the frame is a delta that is too large. -/
theorem working_eq (env : WriterEnv) (frame : TuiServerFrame) :
    streamOf (working env frame) = streamOf frame ∧
      (∀ id, isTruncatedEnd id (working env frame) = isTruncatedEnd id frame) ∧
      (∀ id, isDelta id (working env frame) = isDelta id frame) ∧
      ((isChunk frame = true → encodedBytes env frame ≤ env.maxFrameBytes) →
        ∀ id, deltaText id (working env frame) = deltaText id frame) := by
  unfold working
  split
  · obtain ⟨budget, hmake⟩ := boundFrame_eq_make env frame
    rw [hmake]
    cases frame
    case chunk id executionId kind delta =>
      exact ⟨rfl, fun _ => rfl, fun _ => rfl, fun hfit => by
        have := hfit rfl
        omega⟩
    all_goals exact ⟨rfl, fun _ => rfl, fun _ => rfl, fun _ _ => rfl⟩
  · exact ⟨rfl, fun _ => rfl, fun _ => rfl, fun _ _ => rfl⟩

theorem isDelta_iff_deltaStream {id : String} {frame : TuiServerFrame} :
    isDelta id frame = true ↔ deltaStream frame = some id := by
  cases frame <;> simp [isDelta, deltaStream]

section Rest

variable {before after : List QueuedFrame} {q : QueuedFrame}

variable {given : List TuiServerFrame} {calls : Nat} {w : TuiFrameWriter}
  {frame taken : TuiServerFrame}

theorem Orderly.dropFrame (h : Orderly given calls w [])
    (hdrop : ∀ id, deltaStream frame = some id → id ∈ w.truncatedStreams) :
    Orderly (given ++ [frame]) (calls + 1) w [] := by
  refine ⟨h.sequence.mono (Nat.le_succ calls), fun id hid => ?_, h.entries, h.nodup, h.truncated⟩
  have hnone : deltaText id frame = [] := by
    apply deltaText_of_not_delta
    rw [Bool.eq_false_iff]
    exact fun hdelta => hid (hdrop id (isDelta_iff_deltaStream.mp hdelta))
  rw [h.text id hid, textOf_append, textOf_cons, hnone]
  exact (List.append_nil _).symm

/-- A frame that is pushed. -/
theorem Orderly.pushFrame (h : Orderly given calls w []) (hstands : StandsFor taken frame)
    (hstream : streamOf taken = streamOf frame) (hend : ∀ id, isTruncatedEnd id taken = false)
    (hdelta : ∀ id, isDelta id taken = isDelta id frame)
    (htext : ∀ id, deltaText id taken = deltaText id frame)
    (hopen : ∀ id, deltaStream frame = some id → id ∉ w.truncatedStreams) :
    Orderly (given ++ [frame]) (calls + 1) (w.pushFrame env taken (classify frame) [calls]) [] := by
  have hout : (w.pushFrame env taken (classify frame) [calls]).outgoing =
      w.outgoing ++ [(taken, [calls])] := by
    simp only [outgoing, waiting, TuiFrameWriter.pushFrame, List.map_append, ← List.append_assoc]
    rfl
  have hopen' : ∀ id, isDelta id taken = true → id ∉ w.truncatedStreams := fun id hid =>
    hopen id (isDelta_iff_deltaStream.mp ((hdelta id).symm.trans hid))
  refine ⟨?_, fun id hid => ?_, fun q hq => ?_, h.nodup, fun id hid => (by cases hid)⟩
  · rw [hout]
    exact h.sequence.append hend fun id hid hended => hopen' id hid hended.1
  · rw [hout, List.map_append, textOf_append, h.text id hid, textOf_append]
    simp [textOf, htext id]
  rcases List.mem_append.mp hq with hq | hq
  · exact h.entries q hq
  obtain rfl := List.mem_singleton.mp hq
  refine ⟨?_, fun hchunk => ?_, fun id hid => ?_⟩
  · rw [classify_cls_eq_chunk, hstands.chunk]
  · obtain ⟨id, hid, hstreamId⟩ := deltaStream_of_chunk
      ((classify_cls_eq_chunk frame).mpr (hstands.chunk.symm.trans hchunk))
    rw [hstreamId, hstream]
    cases frame <;> simp [deltaStream, streamOf] at hid ⊢
    exact hid.symm
  · rw [hend id] at hid
    cases hid

theorem Orderly.of_eq {w' : TuiFrameWriter} {pending : List String}
    (h : Orderly given calls w pending) (hqueue : w'.queue = w.queue) (hlog : w'.log = w.log)
    (htruncated : w'.truncatedStreams = w.truncatedStreams) : Orderly given calls w' pending := by
  have hout : w'.outgoing = w.outgoing := by
    simp only [outgoing, sent, waiting, hqueue, hlog]
  exact ⟨by rw [hout, htruncated]; exact h.sequence, by rw [hout, htruncated]; exact h.text,
    by rw [hqueue]; exact h.entries, h.nodup, by rw [htruncated]; exact h.truncated⟩

theorem truncateUtf8_of_le {s : String} {maxBytes : Nat} (h : s.utf8ByteSize ≤ maxBytes) :
    truncateUtf8 s maxBytes = s := by
  have hchars : ∀ cs : List Char, ∀ n, (cs.map Char.utf8Size).sum ≤ n →
      truncateUtf8Chars n cs = cs := by
    intro cs
    induction cs with
    | nil => exact fun _ _ => rfl
    | cons c cs ih =>
      intro n hn
      rw [List.map_cons, List.sum_cons] at hn
      rw [truncateUtf8Chars, if_pos (by omega), ih _ (by omega)]
  have hsize := utf8ByteSize_ofList s.toList
  rw [String.ofList_toList] at hsize
  rw [truncateUtf8, hchars _ _ (hsize ▸ h), String.ofList_toList]

theorem older_delta {id : String} {executionId : Option String} {kind : ChunkKind} {delta : String}
    {info : FrameClassInfo} (hcls : info.cls = .chunk)
    (h : w.older (.chunk id executionId kind delta) info = some (before, q, after)) :
    q.streamId = some id ∧ isDeltaOf kind q.frame = true := by
  simp only [older, hcls] at h
  obtain ⟨hfound, hkind⟩ := Option.filter_eq_some_iff.mp h
  obtain ⟨_, hq, _⟩ := lastMatch_eq_some hfound
  simp only [decide_eq_true_eq] at hq
  exact ⟨hq.2, hkind⟩

theorem outgoing_exchange (w : TuiFrameWriter) (before : List QueuedFrame) (q : QueuedFrame)
    (after : List QueuedFrame) (frame : TuiServerFrame) (info : FrameClassInfo)
    (carried : List Nat) :
    (w.exchange env before q after frame info carried).outgoing =
      (w.sent ++ before.map fun q => (q.frame, q.calls)) ++
        (standIn env q.frame frame, if info.cls = .chunk then q.calls ++ carried else carried) ::
          after.map fun q => (q.frame, q.calls) := by
  simp only [outgoing, waiting, exchange, standInEntry, List.map_append, List.map_cons,
    ← List.append_assoc]
  rfl

structure Travels (taken frame : TuiServerFrame) : Prop where
  stands : StandsFor taken frame
  stream : streamOf taken = streamOf frame
  noEnd : ∀ id, isTruncatedEnd id taken = false
  delta : ∀ id, isDelta id taken = isDelta id frame
  text : ∀ id, deltaText id taken = deltaText id frame

structure StandsIn (env : WriterEnv) (q : QueuedFrame) (taken frame : TuiServerFrame) (stand : TuiServerFrame) :
    Prop where
  noEnd : ∀ id, isTruncatedEnd id stand = false
  chunk : isChunk stand = isChunk frame
  delta : ∀ id, isDelta id stand = true → isDelta id q.frame = true
  stream : streamOf stand = streamOf frame
  same : isChunk frame = true → streamOf stand = streamOf q.frame
  plain : isChunk frame = false → ∀ id, deltaText id stand = [] ∧ deltaText id q.frame = []
  other : ∀ id, streamOf frame ≠ some id → deltaText id stand = [] ∧ deltaText id q.frame = []
  joined : ∀ id, deltaStream frame = some id → overflowing env q.frame taken = none →
    deltaText id stand = deltaText id q.frame ++ deltaText id frame

theorem standsIn (htravels : Travels taken frame) (hq : EntryOk q)
    (holder : w.older taken (classify frame) = some (before, q, after)) :
    StandsIn env q taken frame (standIn env q.frame taken) := by
  have hcls := (older_eq_some holder).2
  cases hchunk : isChunk frame with
  | false =>
    have htaken : isChunk taken = false := htravels.stands.chunk.trans hchunk
    have hqchunk : isChunk q.frame = false := by
      rw [Bool.eq_false_iff]
      intro h
      have hcls' := hcls.symm.trans (hq.chunk.mpr h)
      rw [classify_cls_eq_chunk, hchunk] at hcls'
      cases hcls'
    have hnone : ∀ {f : TuiServerFrame}, isChunk f = false → ∀ id, deltaText id f = [] := by
      intro f hf id
      cases f <;> simp [isChunk, deltaText] at hf ⊢
    rw [standIn_of_not_chunk htaken]
    refine ⟨htravels.noEnd, htaken.trans hchunk.symm, fun id hid => ?_, htravels.stream,
      fun h => (by cases hchunk.symm.trans h), fun _ id => ⟨hnone htaken id, hnone hqchunk id⟩,
      fun id _ => ⟨hnone htaken id, hnone hqchunk id⟩, fun id hid => ?_⟩
    · cases taken <;> simp [isChunk, isDelta] at htaken hid
    · cases frame <;> simp [isChunk, deltaStream] at hchunk hid
  | true =>
    have htaken : isChunk taken = true := htravels.stands.chunk.trans hchunk
    have hinfo : (classify frame).cls = .chunk := (classify_cls_eq_chunk frame).mpr hchunk
    have hqchunk : isChunk q.frame = true := hq.chunk.mp (hcls.trans hinfo)
    have hstream := hq.stream hqchunk
    obtain ⟨qframe, qcls, qbytes, qstream, qcard, qcalls⟩ := q
    cases taken
    case chunk id executionId kind delta =>
      obtain ⟨hqstream, hkind⟩ := older_delta hinfo holder
      cases qframe
      case chunk id' executionId' kind' existing =>
        simp only [isDeltaOf, decide_eq_true_eq] at hkind
        obtain rfl : id' = id := by
          rw [hqstream] at hstream
          exact (Option.some.inj hstream).symm
        subst hkind
        have hframe : streamOf frame = some id' := htravels.stream.symm
        refine ⟨fun _ => rfl, hchunk.symm, fun _ hid => hid, hframe.symm, fun _ => rfl,
          fun h => (by cases hchunk.symm.trans h), fun id'' hne => ?_, fun id'' hid hover => ?_⟩
        · have hne' : id' ≠ id'' := fun heq => hne (heq ▸ hframe)
          simp [standIn, deltaText, hne']
        · have htext := htravels.text id''
          have hfit : (existing ++ delta).utf8ByteSize ≤ env.maxChunkBytes := by
            by_contra hlarge
            simp only [overflowing, if_pos (Nat.lt_of_not_le hlarge)] at hover
            cases hover
          rw [← htext]
          simp only [standIn, truncateUtf8_of_le hfit, deltaText]
          split
          · simp
          · rfl
      all_goals cases hqchunk
    all_goals cases htaken

/-- A frame that is coalesced keeps the frames in sequence, and the text of the streams that are
not truncated, unless it overflows the older delta. -/
theorem Orderly.exchange (env : WriterEnv) (h : Orderly given calls w [])
    (htravels : Travels taken frame)
    (holder : w.older taken (classify frame) = some (before, q, after))
    (hlast : ∀ id, streamOf frame = some id → ∀ a ∈ after, streamOf a.frame ≠ some id) :
    let w' := w.exchange env before q after taken (classify frame) [calls]
    InSequence (fun id => id ∈ w.truncatedStreams ∧ id ∉ ([] : List String)) (calls + 1)
        w'.outgoing ∧
      (∀ q ∈ w'.queue, EntryOk q) ∧
      ∀ id, id ∉ w.truncatedStreams →
        (deltaStream frame = some id → overflowing env q.frame taken = none) →
        textOf id (w'.outgoing.map (·.1)) = textOf id (given ++ [frame]) := by
  obtain ⟨hqueue, hcls⟩ := older_eq_some holder
  have hq : EntryOk q := h.entries q (by simp [hqueue])
  have hstand : StandsIn env q taken frame (standIn env q.frame taken) :=
    standsIn htravels hq holder
  have hseq := h.sequence
  rw [outgoing_of_queue hqueue] at hseq
  have hlast' : ∀ id, streamOf (standIn env q.frame taken) = some id →
      ∀ g ∈ after.map fun q => (q.frame, q.calls), streamOf g.1 ≠ some id := by
    intro id hid g hg
    obtain ⟨a, ha, rfl⟩ := List.mem_map.mp hg
    exact hlast id (hstand.stream.symm.trans hid) a ha
  simp only
  rw [outgoing_exchange]
  refine ⟨?_, fun a ha => ?_, fun id hid hover => ?_⟩
  · refine hseq.exchange (hq.not_end ?_) hstand.noEnd hstand.delta hlast' ?_
    · rw [hcls]
      intro hterminal
      simp only [older, hterminal] at holder
      cases holder
    by_cases hchunk : (classify frame).cls = .chunk
    · rw [if_pos hchunk]
      exact .inr ⟨rfl, hstand.same ((classify_cls_eq_chunk frame).mp hchunk)⟩
    · rw [if_neg hchunk]
      exact .inl rfl
  · have hmem : a ∈ before ++ standInEntry env q taken (classify frame) [calls] :: after := ha
    rw [List.mem_append, List.mem_cons] at hmem
    rcases hmem with ha | rfl | ha
    · exact h.entries a (by simp [hqueue, ha])
    · refine ⟨?_, fun hchunk => ?_, fun id hid => ?_⟩
      · show q.cls = .chunk ↔ isChunk (standIn env q.frame taken) = true
        rw [hcls, classify_cls_eq_chunk, hstand.chunk]
      · have hframe : isChunk frame = true := hstand.chunk.symm.trans hchunk
        obtain ⟨id, hdelta, hid⟩ := deltaStream_of_chunk ((classify_cls_eq_chunk frame).mpr hframe)
        show ((classify frame).streamId <|> q.streamId) = streamOf (standIn env q.frame taken)
        rw [hid, hstand.stream]
        cases frame <;> simp [deltaStream, streamOf] at hdelta ⊢
        exact hdelta.symm
      · have hnone := hstand.noEnd id
        rw [show isTruncatedEnd id (standIn env q.frame taken) = true from hid] at hnone
        cases hnone
    · exact h.entries a (by simp [hqueue, ha])
  · have htext := h.text id hid
    rw [outgoing_of_queue hqueue] at htext
    simp only [List.map_append, List.map_cons, textOf_append, textOf_cons] at htext ⊢
    rw [← htext]
    by_cases hdelta : deltaStream frame = some id
    · have hstream : streamOf frame = some id := by
        cases frame <;> simp [deltaStream, streamOf] at hdelta ⊢
        exact hdelta
      have hafter : textOf id ((after.map fun q => (q.frame, q.calls)).map (·.1)) = [] := by
        apply textOf_eq_nil
        intro f hf
        obtain ⟨g, hg, rfl⟩ := List.mem_map.mp hf
        obtain ⟨a, ha, rfl⟩ := List.mem_map.mp hg
        exact hlast id hstream a ha
      rw [hstand.joined id hdelta (hover hdelta), hafter]
      simp [textOf]
    · have hframe : deltaText id frame = [] := by
        apply deltaText_of_not_delta
        rw [Bool.eq_false_iff]
        exact fun h => hdelta (isDelta_iff_deltaStream.mp h)
      have hnone : deltaText id (standIn env q.frame taken) = [] ∧ deltaText id q.frame = [] := by
        cases hchunk : isChunk frame with
        | false => exact hstand.plain hchunk id
        | true =>
          apply hstand.other
          cases frame <;> simp [isChunk, deltaStream, streamOf] at hchunk hdelta ⊢
          exact hdelta
      rw [hnone.1, hnone.2]
      simp [textOf, hframe]

theorem Orderly.truncate {ended : List String} (h : Orderly given calls w ended) {id : String}
    (hfresh : id ∉ w.truncatedStreams) : Orderly given calls (w.truncate id) (id :: ended) := by
  refine ⟨h.sequence.congr fun id' => ?_, fun id' hid' => ?_, h.entries,
    List.nodup_cons.mpr ⟨fun hid => hfresh (h.truncated id hid), h.nodup⟩, fun id' hid' => ?_⟩
  · show id' ∈ id :: w.truncatedStreams ∧ _ ↔ _
    by_cases heq : id' = id
    · subst heq
      simp [hfresh]
    · simp [heq]
  · exact h.text id' fun hid => hid' (List.mem_cons_of_mem id hid)
  · rcases List.mem_cons.mp hid' with rfl | hid'
    · exact List.mem_cons_self
    · exact List.mem_cons_of_mem id (h.truncated id' hid')

def Placed (given : List TuiServerFrame) (calls : Nat) (w : TuiFrameWriter)
    (frame : TuiServerFrame) (result : TuiFrameWriter) : Prop :=
  Orderly (given ++ [frame]) (calls + 1) result [] ∧ SameSocket w result

theorem Pushed.placed {result : TuiFrameWriter} (h : Orderly given calls w [])
    (htravels : Travels taken frame)
    (hopen : ∀ id, deltaStream frame = some id → id ∉ w.truncatedStreams)
    (hspared : ∀ id, deltaStream frame = some id → ∀ q ∈ w.queue, ok q → ¬ IsDeltaOf id q)
    (hpushed : Pushed env ok w taken (classify frame) [calls] result) :
    Placed given calls w frame result := by
  obtain ⟨w', hmoves, _, rfl⟩ := hpushed
  have horderly : Orderly given calls w' [] := hmoves.orderly h
  refine ⟨horderly.pushFrame htravels.stands htravels.stream htravels.noEnd htravels.delta
    htravels.text fun id hid hmem => ?_, hmoves.sameSocket.trans ⟨rfl, rfl, rfl, rfl, rfl⟩⟩
  rcases hmoves.mem_truncated hmem with hmem | ⟨q, hq, hok, hdelta⟩
  · exact hopen id hid hmem
  · exact hspared id hid q hq hok hdelta

/-- A frame that a blocked writer takes. -/
theorem queueBlocked_placed {mark : TuiFrameWriter → String → TuiFrameWriter} {deltas : Nat}
    (hmark : MarkSpec env mark deltas) (hdeltas : countClass .chunk w < deltas)
    (h : Orderly given calls w []) (hblocked : w.writable = false) (htravels : Travels taken frame)
    (hopen : ∀ id, deltaStream frame = some id → id ∉ w.truncatedStreams)
    (hroom : QueueOrderly env w taken (classify frame)) :
    Placed given calls w frame (w.queueBlocked env mark taken (classify frame) [calls]).1 := by
  have hplain : (classify frame).cls ≠ .chunk → ∀ id, deltaStream frame ≠ some id := by
    intro hne id hid
    apply hne
    rw [classify_cls_eq_chunk]
    cases frame <;> simp [deltaStream, isChunk] at hid ⊢
  rcases hroom with hroom | hroom
  · have hpushed : Pushed env (sparing (classify frame)) w taken (classify frame) [calls]
        (w.queueBlocked env mark taken (classify frame) [calls]).1 :=
      queueBlocked_of_roomy hmark hdeltas hblocked hroom
    refine hpushed.placed h htravels hopen fun id hid q _ hok => ?_
    by_cases hcls : (classify frame).cls = .chunk
    · obtain ⟨id', hid', hstream⟩ := deltaStream_of_chunk hcls
      obtain rfl : id' = id := Option.some.inj (hid'.symm.trans hid)
      exact hok hcls id' hstream
    · exact (hplain hcls id hid).elim
  by_cases hquiet : (classify frame).cls ∈ quietClasses
  · have hcls : (classify frame).cls ≠ .chunk := by
      intro hcls
      simp [quietClasses, hcls] at hquiet
    have hroom' : Roomy env true anyFrame w 0 0 := by
      simp only [quietClasses, List.mem_cons, List.not_mem_nil, or_false] at hquiet
      rcases hquiet with hcls | hcls | hcls | hcls
      all_goals simpa only [hcls] using hroom
    rcases queueBlocked_quiet hmark hdeltas hblocked hquiet hroom' with
      hpushed | ⟨w', overflows, gap, sequence, hmoves, _, heq⟩
    · exact hpushed.placed h htravels hopen fun id hid => (hplain hcls id hid).elim
    · rw [heq]
      have horderly : Orderly given calls (w'.noting overflows gap sequence) [] :=
        Orderly.of_eq (hmoves.orderly h) rfl rfl rfl
      exact ⟨horderly.dropFrame fun id hid => (hplain hcls id hid).elim,
        hmoves.sameSocket.trans ⟨rfl, rfl, rfl, rfl, rfl⟩⟩
  by_cases hcls : (classify frame).cls = .chunk
  · obtain ⟨id, hdelta, hstream⟩ := deltaStream_of_chunk hcls
    simp only [hcls, hstream] at hroom
    rcases queueBlocked_delta hmark hdeltas hblocked hcls hstream (hopen id hdelta) hroom.1
      hroom.2 with hpushed | ⟨w', w'', hmoves, hfresh, hends, _, heq⟩
    · refine hpushed.placed h htravels hopen fun id' hid' q hq _ hq' => ?_
      obtain rfl : id = id' := Option.some.inj (hdelta.symm.trans hid')
      exact hroom.1 ⟨q, hq, hq'⟩
    · -- the delta is dropped, and its stream has its end
      rw [heq]
      have horderly : Orderly given calls w' [] := hmoves.orderly h
      have horderly' : Orderly given calls w'' [] := hends.orderly (horderly.truncate hfresh)
      have hsame : SameSocket w (w'.truncate id) :=
        hmoves.sameSocket.trans ⟨rfl, rfl, rfl, rfl, rfl⟩
      refine ⟨horderly'.dropFrame fun id' hid' => ?_, hsame.trans hends.sameSocket⟩
      obtain rfl : id = id' := Option.some.inj (hdelta.symm.trans hid')
      exact hends.truncated_mono List.mem_cons_self
  · have hroom' : match w.kept with
        | [] => w.evictable = []
        | oldest :: _ =>
          Roomy env true anyFrame w 0 0 ∧ ∀ id, isTruncatedEnd id oldest.frame = false := by
      rcases keptClass_cases hquiet hcls with hclass | hclass | hclass | hclass
      all_goals simpa only [hclass] using hroom
    cases hkept : w.kept with
    | nil =>
      simp only [hkept] at hroom'
      have hresult : Pushed env anyFrame w taken (classify frame) [calls]
          (w.queueBlocked env mark taken (classify frame) [calls]).1 ∨ _ :=
        queueBlocked_kept_of_nothing hquiet hcls hkept hroom'
      rcases hresult with hpushed | heq
      · exact hpushed.placed h htravels hopen fun id hid => (hplain hcls id hid).elim
      · rw [heq]
        exact ⟨h.dropFrame fun id hid => (hplain hcls id hid).elim, ⟨rfl, rfl, rfl, rfl, rfl⟩⟩
    | cons oldest rest =>
      simp only [hkept] at hroom'
      rcases queueBlocked_kept hmark hdeltas hblocked hquiet hcls hkept hroom'.1 with
        hpushed | ⟨w', rest', hmoves, hqueue, _, heq⟩
      · exact hpushed.placed h htravels hopen fun id hid => (hplain hcls id hid).elim
      · rw [heq]
        have horderly : Orderly given calls w' [] := hmoves.orderly h
        have hplain' : ∀ id, IsDeltaOf id oldest → id ∈ w'.truncatedStreams := by
          rintro id ⟨hchunk, _⟩
          have hmem : oldest ∈ w.kept := hkept ▸ List.mem_cons_self
          have hnot := of_decide_eq_true (List.mem_filter.mp hmem).2
          exact (hnot (by simp [hchunk, evictOrder])).elim
        have hwithout : Orderly given calls (w'.without [] oldest rest') [] :=
          horderly.drop hqueue hroom'.2 hplain'
        exact ⟨hwithout.pushFrame htravels.stands htravels.stream htravels.noEnd htravels.delta
          htravels.text fun id hid => (hplain hcls id hid).elim,
          hmoves.sameSocket.trans ⟨rfl, rfl, rfl, rfl, rfl⟩⟩

/-- A frame that comes to rest on a blocked writer. -/
theorem settle_placed {mark : TuiFrameWriter → String → TuiFrameWriter} {deltas : Nat}
    (hmark : MarkSpec env mark deltas) (hdeltas : countClass .chunk w < deltas)
    (h : Orderly given calls w []) (hblocked : w.writable = false)
    (htravels : Travels taken frame)
    (hopen : ∀ id, deltaStream frame = some id → id ∉ w.truncatedStreams)
    (hroom : match w.older taken (classify frame) with
      | some (before, q, after) =>
        (∀ id, streamOf frame = some id → ∀ a ∈ after, streamOf a.frame ≠ some id) ∧
        ∀ id, overflowing env q.frame taken = some id →
          Roomy env false anyFrame
            ((w.exchange env before q after taken (classify frame) [calls]).truncate id)
            (w.terminalBytes env id) 1
      | none => QueueOrderly env w taken (classify frame)) :
    Placed given calls w frame (w.settle env mark taken (classify frame) [calls]).1 := by
  rw [settle, tryCoalesce_eq mark w htravels.stands]
  cases holder : w.older taken (classify frame) with
  | none =>
    simp only [holder] at hroom
    simp only [Option.map_none, hblocked, Bool.false_eq_true, if_false]
    exact queueBlocked_placed hmark hdeltas h hblocked htravels hopen hroom
  | some found =>
    obtain ⟨before, q, after⟩ := found
    simp only [holder] at hroom
    obtain ⟨hlast, hoverflow⟩ := hroom
    obtain ⟨hseq, hentries, htext⟩ := h.exchange env htravels holder hlast
    have hqueue := (older_eq_some holder).1
    simp only [Option.map_some, merged]
    cases hover : overflowing env q.frame taken with
    | none =>
      refine ⟨⟨hseq, fun id hid => htext id hid fun _ => hover, hentries, h.nodup, ?_⟩,
        ⟨rfl, rfl, rfl, rfl, rfl⟩⟩
      intro id hid
      cases hid
    | some id =>
      have hdelta : deltaStream frame = some id := overflowing_stream htravels.stands hover
      have hroomy := hoverflow id hover
      have hdeltas' : countClass .chunk (w.exchange env before q after taken (classify frame)
          [calls]) < deltas := by
        rw [countClass_exchange hqueue]
        exact hdeltas
      have hfresh : id ∉ (w.exchange env before q after taken (classify frame)
          [calls]).truncatedStreams := hopen id hdelta
      have hsame : SameSocket w (w.exchange env before q after taken (classify frame)
          [calls]) := ⟨rfl, rfl, rfl, rfl, rfl⟩
      have hterminal : w.terminalBytes env id = (w.exchange env before q after taken
          (classify frame) [calls]).terminalBytes env id := rfl
      rw [hterminal] at hroomy
      rw [← truncatedStreams_exchange env w before q after taken (classify frame) [calls]]
        at hseq htext
      generalize w.exchange env before q after taken (classify frame) [calls] = w' at *
      have hroomy' : Roomy env false anyFrame (w'.truncate id) (w'.terminalBytes env id + 0)
          (1 + 0) := hroomy
      obtain ⟨hmoves, _, _⟩ := hmark.moves w' id [] false anyFrame 0 0
        (hsame.writable.trans hblocked) hfresh hdeltas' hroomy'
      have horderly : Orderly (given ++ [frame]) (calls + 1) (w'.truncate id) [id] := by
        refine ⟨hseq.congr fun id' => ?_, fun id' hid' => htext id' ?_ fun hid => ?_, hentries,
          List.nodup_singleton id, fun id' hid' => ?_⟩
        · show id' ∈ id :: w'.truncatedStreams ∧ _ ↔ _
          by_cases heq : id' = id
          · subst heq
            simp [hfresh]
          · simp [heq]
        · exact fun hmem => hid' (List.mem_cons_of_mem id hmem)
        · obtain rfl : id = id' := Option.some.inj (hdelta.symm.trans hid)
          exact (hid' List.mem_cons_self).elim
        · obtain rfl := List.mem_singleton.mp hid'
          exact List.mem_cons_self
      have hsame' : SameSocket w (w'.truncate id) := hsame.trans ⟨rfl, rfl, rfl, rfl, rfl⟩
      exact ⟨hmoves.orderly horderly, hsame'.trans hmoves.sameSocket⟩

end Rest

/-! ## The operations -/

variable {given : List TuiServerFrame} {calls : Nat} {w : TuiFrameWriter}
  {frame : TuiServerFrame}

theorem backpressured_append {log : List SocketEvent} {event : SocketEvent}
    (h : Backpressured log)
    (hready : event = .drain ∨ ∀ frame carried, log.getLast? ≠ some (.write frame carried false)) :
    Backpressured (log ++ [event]) := by
  rw [Backpressured, List.isChain_append]
  refine ⟨h, List.isChain_singleton _, fun x hx y hy frame carried heq => ?_⟩
  simp only [List.head?_cons, Option.mem_def, Option.some.injEq] at hy
  subst hy heq
  exact hready.resolve_right fun hnot => hnot frame carried hx

theorem travels_working (hend : ∀ id, isTruncatedEnd id frame = false)
    (hfit : isChunk frame = true → encodedBytes env frame ≤ env.maxFrameBytes) :
    Travels (working env frame) frame := by
  obtain ⟨hstream, hends, hdelta, htext⟩ := working_eq env frame
  exact ⟨standsFor_working frame, hstream, fun id => (hends id).trans (hend id), hdelta,
    htext hfit⟩

theorem oversizedStream_of_fit
    (hfit : isChunk frame = true → encodedBytes env frame ≤ env.maxFrameBytes) :
    oversizedStream env frame = none := by
  cases frame
  case chunk id executionId kind delta =>
    have := hfit rfl
    simp only [oversizedStream]
    rw [if_neg]
    omega
  all_goals rfl

theorem KeepsOrder.writeThrough (h : KeepsOrder given calls w) (hwritable : w.writable = true)
    {taken : TuiServerFrame} (htravels : Travels taken frame)
    (hopen : ∀ id, deltaStream frame = some id → id ∉ w.truncatedStreams) :
    KeepsOrder (given ++ [frame]) (calls + 1) (w.writeThrough env taken [calls]) := by
  have hqueue := h.flushed hwritable
  have hout : (w.writeThrough env taken [calls]).outgoing = w.outgoing ++ [(taken, [calls])] := by
    simp [outgoing, sent, waiting, TuiFrameWriter.writeThrough, socketWrite, hqueue]
  have hopen' : ∀ id, isDelta id taken = true → id ∉ w.truncatedStreams := fun id hid =>
    hopen id (isDelta_iff_deltaStream.mp ((htravels.delta id).symm.trans hid))
  refine ⟨⟨?_, fun id hid => ?_, ?_, h.orderly.nodup, fun id hid => (by cases hid)⟩, fun _ => hqueue,
    backpressured_append h.backpressured (.inr (h.ready hwritable)), fun hok frame' carried => ?_,
    h.opened⟩
  · rw [hout]
    exact h.orderly.sequence.append htravels.noEnd fun id hid hended => hopen' id hid hended.1
  · rw [hout, List.map_append, textOf_append, h.orderly.text id hid, textOf_append]
    simp [textOf, htravels.text id]
  · exact h.orderly.entries
  · have hok' : env.accepts w.log.length = true := hok
    simp [TuiFrameWriter.writeThrough, socketWrite, hok']

theorem KeepsOrder.of_placed (h : KeepsOrder given calls w) (hblocked : w.writable = false)
    {result : TuiFrameWriter} (hplaced : Placed given calls w frame result) :
    KeepsOrder (given ++ [frame]) (calls + 1) result := by
  obtain ⟨horderly, hsame⟩ := hplaced
  have hblocked' := hsame.writable.trans hblocked
  refine ⟨horderly, fun hw => ?_, hsame.log ▸ h.backpressured, fun hw => ?_,
    hsame.closed.trans h.opened⟩
  · rw [hblocked'] at hw
    cases hw
  · rw [hblocked'] at hw
    cases hw

theorem KeepsOrder.of_eq {w' : TuiFrameWriter} (h : KeepsOrder given calls w)
    (hqueue : w'.queue = w.queue) (hlog : w'.log = w.log)
    (htruncated : w'.truncatedStreams = w.truncatedStreams) (hwritable : w'.writable = w.writable)
    (hclosed : w'.closed = w.closed) : KeepsOrder given calls w' where
  orderly := h.orderly.of_eq hqueue hlog htruncated
  flushed := fun hw => by rw [hqueue, h.flushed (hwritable ▸ hw)]
  backpressured := hlog ▸ h.backpressured
  ready := fun hw => hlog ▸ h.ready (hwritable ▸ hw)
  opened := hclosed.trans h.opened

theorem enqueueWith_keeps (h : KeepsOrder given calls w) (hcalls : calls = w.given.length)
    (hroom : EnqueueOrderly env (w.rememberStreamIdentity frame) frame) :
    KeepsOrder (given ++ [frame]) (calls + 1)
      (w.enqueueWith env (markTruncated env (w.queue.length + 1)) frame [calls]).1 := by
  have hmark : MarkSpec env (markTruncated env (w.queue.length + 1)) (w.queue.length + 1) :=
    markTruncated_spec _
  obtain ⟨executions, hw⟩ := rememberStreamIdentity_eq w frame
  have h' : KeepsOrder given calls (w.rememberStreamIdentity frame) := by
    rw [hw]
    exact h.of_eq rfl rfl rfl rfl rfl
  have hlength : (w.rememberStreamIdentity frame).queue.length ≤ w.queue.length := by
    rw [hw]
  have hgiven : (w.rememberStreamIdentity frame).given = w.given := by
    rw [hw]
  rw [← hgiven] at hcalls
  rw [enqueueWith_eq]
  generalize w.rememberStreamIdentity frame = w' at *
  have hcount : countClass .chunk w' < w.queue.length + 1 :=
    Nat.lt_succ_of_le (Nat.le_trans List.countP_le_length hlength)
  split
  · rename_i hmem
    have hdropped : Orderly (given ++ [frame]) (calls + 1) w' [] := by
      refine h'.orderly.dropFrame fun id hid => ?_
      simpa [hid] using hmem
    exact ⟨hdropped, h'.flushed, h'.backpressured, h'.ready, h'.opened⟩
  rename_i hfresh
  have hopen : ∀ id, deltaStream frame = some id → id ∉ w'.truncatedStreams := by
    intro id hid
    simpa [hid] using hfresh
  rcases hroom with ⟨id, hid, hmem⟩ | ⟨hend, hfit, hroom⟩
  · exact (hopen id hid hmem).elim
  have htravels := travels_working hend hfit
  rw [oversizedStream_of_fit hfit]
  cases hwritable : w'.writable with
  | true =>
    have hnone : w'.tryCoalesce env (markTruncated env (w.queue.length + 1)) (working env frame)
        (classify frame) [calls] = none := by
      rw [tryCoalesce_eq _ _ (standsFor_working frame), older_of_empty (h'.flushed hwritable)]
      rfl
    simp only [settle, hnone, hwritable, if_true]
    exact h'.writeThrough hwritable htravels hopen
  | false =>
    have hroom' := hroom.resolve_left (by rw [hwritable]; exact Bool.false_ne_true)
    rw [hcalls]
    rw [hcalls] at h'
    exact h'.of_placed hwritable
      (settle_placed hmark hcount h'.orderly hwritable htravels hopen hroom')

/-- Writing out a queue sends what was waiting, in order. -/
theorem flushQueue_keeps (rest : List QueuedFrame) :
    ∀ w, w.queue = rest → w.writable = true → Orderly given calls w [] → Backpressured w.log →
      (∀ frame carried, w.log.getLast? ≠ some (.write frame carried false)) → w.closed = false →
      KeepsOrder given calls (w.flushQueue env rest) := by
  induction rest with
  | nil =>
    intro w hqueue _ horderly hlog hready hopened
    exact ⟨horderly.of_eq hqueue.symm rfl rfl, fun _ => rfl, hlog, fun _ => hready, hopened⟩
  | cons item rest ih =>
    intro w hqueue hwritable horderly hlog hready hopened
    have hwritten : Orderly given calls
        { (w.socketWrite env item.frame item.calls).1 with
          queue := rest, queuedBytes := w.queuedBytes - item.bytes } [] := by
      have hout : ({ (w.socketWrite env item.frame item.calls).1 with
          queue := rest, queuedBytes := w.queuedBytes - item.bytes } : TuiFrameWriter).outgoing =
          w.outgoing := by
        simp [outgoing, sent, waiting, socketWrite, hqueue]
      refine ⟨by rw [hout]; exact horderly.sequence, by rw [hout]; exact horderly.text,
        fun q hq => horderly.entries q ?_, horderly.nodup, horderly.truncated⟩
      rw [hqueue]
      exact List.mem_cons_of_mem item hq
    have hlog' : Backpressured (w.socketWrite env item.frame item.calls).1.log :=
      backpressured_append hlog (.inr hready)
    simp only [flushQueue]
    split
    · rename_i hok
      have hok' : env.accepts w.log.length = true := hok
      refine ih _ rfl hwritable hwritten hlog' (fun frame carried => ?_) hopened
      simp [socketWrite, hok']
    · exact ⟨hwritten.of_eq rfl rfl rfl, fun hw => (by cases hw), hlog', fun hw => (by cases hw),
        hopened⟩

def markGap (env : WriterEnv) (w : TuiFrameWriter) : TuiFrameWriter :=
  if w.discussionGap then
    { (w.socketWrite env (.activityGap w.discussionGapSequence) []).1 with discussionGap := false }
  else w

theorem drain_of_open (hopened : w.closed = false) :
    w.drain env true =
      (markGap env { w with log := w.log ++ [.drain], writable := true }).flush env := by
  have hcond : ¬ ((w.closed || !true) = true) := by
    rw [hopened]
    decide
  exact if_neg hcond

theorem outgoing_markGap_of_gap (hgap : w.discussionGap = true) :
    (markGap env w).outgoing =
      w.sent ++ (.activityGap w.discussionGapSequence, []) :: w.waiting := by
  rw [markGap, if_pos hgap]
  simp [outgoing, sent, waiting, socketWrite]

theorem Orderly.markGap (env : WriterEnv) (h : Orderly given calls w []) :
    Orderly given calls (markGap env w) [] := by
  by_cases hgap : w.discussionGap = true
  · have hsame : (TuiFrameWriter.markGap env w).queue = w.queue ∧
        (TuiFrameWriter.markGap env w).truncatedStreams = w.truncatedStreams := by
      rw [TuiFrameWriter.markGap, if_pos hgap]
      exact ⟨rfl, rfl⟩
    refine ⟨?_, fun id hid => ?_, hsame.1 ▸ h.entries, h.nodup, fun id hid => (by cases hid)⟩
    · rw [outgoing_markGap_of_gap hgap, hsame.2]
      exact h.sequence.insert rfl (fun _ => rfl) fun _ => rfl
    · rw [hsame.2] at hid
      rw [outgoing_markGap_of_gap hgap, ← h.text id hid]
      simp [outgoing, textOf_append, textOf_cons, deltaText]
  · rw [TuiFrameWriter.markGap, if_neg hgap]
    exact h

theorem drain_keeps (h : KeepsOrder given calls w) {current : Bool}
    (hstep : StaysOrderly env w (.drain current)) : KeepsOrder given calls (w.drain env current) := by
  have hlog : Backpressured (w.log ++ [.drain]) := backpressured_append h.backpressured (.inl rfl)
  have hsent : ∀ writable, Orderly given calls
      { w with log := w.log ++ [.drain], writable := writable } [] := by
    intro writable
    have hout : ({ w with log := w.log ++ [.drain], writable := writable } :
        TuiFrameWriter).outgoing = w.outgoing := by
      simp [outgoing, sent, waiting]
    exact ⟨by rw [hout]; exact h.orderly.sequence, by rw [hout]; exact h.orderly.text,
      h.orderly.entries, h.orderly.nodup, h.orderly.truncated⟩
  have hready : ∀ frame carried,
      (w.log ++ [SocketEvent.drain]).getLast? ≠ some (.write frame carried false) := by
    simp
  cases current with
  | false =>
    have hdrain : w.drain env false = { w with log := w.log ++ [.drain] } := by
      rw [drain]
      simp only [Bool.not_false, Bool.or_true, if_true]
    rw [hdrain]
    exact ⟨hsent w.writable, h.flushed, hlog, fun _ => hready, h.opened⟩
  | true =>
    rw [drain_of_open h.opened]
    have horderly := (hsent true).markGap env
    by_cases hgap : w.discussionGap = true
    · have haccepts : env.accepts (w.log.length + 1) = true := hstep rfl hgap
      have hmarked : (markGap env { w with log := w.log ++ [.drain], writable := true }).log =
          w.log ++ [.drain] ++ [.write (.activityGap w.discussionGapSequence) [] true] := by
        rw [markGap, if_pos hgap]
        simp [socketWrite, haccepts]
      have hopened : (markGap env { w with log := w.log ++ [.drain], writable := true }).closed =
          false ∧ (markGap env { w with log := w.log ++ [.drain], writable := true }).writable =
          true := by
        rw [markGap, if_pos hgap]
        exact ⟨h.opened, rfl⟩
      generalize markGap env { w with log := w.log ++ [.drain], writable := true } = w' at *
      refine flushQueue_keeps _ w' rfl hopened.2 horderly ?_ ?_ hopened.1
      · rw [hmarked]
        exact backpressured_append hlog (.inr hready)
      · rw [hmarked]
        simp
    · have hunmarked : markGap env { w with log := w.log ++ [.drain], writable := true } =
          { w with log := w.log ++ [.drain], writable := true } := by
        rw [markGap, if_neg hgap]
      rw [hunmarked]
      exact flushQueue_keeps _ _ rfl rfl (hsent true) hlog hready h.opened

@[simp] theorem given_flushQueue (rest : List QueuedFrame) :
    ∀ w : TuiFrameWriter, (w.flushQueue env rest).given = w.given := by
  induction rest with
  | nil => exact fun _ => rfl
  | cons item rest ih =>
    intro w
    simp only [flushQueue]
    split
    · exact ih _
    · rfl

@[simp] theorem given_drain (env : WriterEnv) (w : TuiFrameWriter) (current : Bool) :
    (w.drain env current).given = w.given := by
  simp only [drain]
  split
  · rfl
  · rw [flush, given_flushQueue]
    split <;> rfl

theorem enqueue_of_current (hopened : w.closed = false) :
    (w.enqueue env true frame).1 =
      { (w.enqueueWith env (markTruncated env (w.queue.length + 1)) frame [w.given.length]).1 with
        given := w.given ++ [frame] } := by
  have hcond : ¬ ((w.closed || !true) = true) := by
    rw [hopened]
    decide
  rw [enqueue]
  simp only [if_neg hcond]

theorem enqueue_of_stale (env : WriterEnv) (w : TuiFrameWriter) (frame : TuiServerFrame) :
    (w.enqueue env false frame).1 = { w with given := w.given ++ [frame] } := by
  have hcond : (w.closed || !false) = true := by simp
  rw [enqueue]
  simp only [if_pos hcond]

/-- No operation that meets the condition breaks the order. -/
theorem writerStep_keeps {op : WriterOp} (h : KeepsOrder w.given w.given.length w)
    (hstep : StaysOrderly env w op) :
    KeepsOrder (writerStep env w op).given (writerStep env w op).given.length
      (writerStep env w op) := by
  cases op with
  | enqueue frame current =>
    have hlength : (w.given ++ [frame]).length = w.given.length + 1 := List.length_append
    show KeepsOrder (w.enqueue env current frame).1.given _ (w.enqueue env current frame).1
    cases current with
    | false =>
      have hstep' : deltaStream frame = none := by simpa [StaysOrderly] using hstep
      have hdropped : Orderly (w.given ++ [frame]) (w.given.length + 1) w [] :=
        h.orderly.dropFrame fun id hid => by
          rw [hstep'] at hid
          cases hid
      simp only [writerStep, enqueue_of_stale, hlength]
      exact ⟨hdropped.of_eq rfl rfl rfl, h.flushed, h.backpressured, h.ready, h.opened⟩
    | true =>
      have hstep' : EnqueueOrderly env (w.rememberStreamIdentity frame) frame := by
        simpa [StaysOrderly] using hstep
      simp only [writerStep, enqueue_of_current h.opened, hlength]
      exact (enqueueWith_keeps h rfl hstep').of_eq rfl rfl rfl rfl rfl
  | drain current =>
    show KeepsOrder (w.drain env current).given (w.drain env current).given.length _
    rw [given_drain]
    exact drain_keeps h hstep
  | _ => exact hstep.elim

/-! ## Every run -/

theorem keepsOrder_init : KeepsOrder [] 0 {} where
  orderly := by
    refine ⟨⟨fun _ => List.Pairwise.nil, ?_, ?_, fun _ _ => rfl, fun _ => List.Pairwise.nil⟩,
      fun _ _ => rfl, ?_, List.nodup_nil, ?_⟩
    · intro f hf
      cases hf
    · rintro id ⟨hid, _⟩
      cases hid
    · intro q hq
      cases hq
    · intro id hid
      cases hid
  flushed := fun _ => rfl
  backpressured := List.IsChain.nil
  ready := fun _ _ _ hlast => by cases hlast
  opened := rfl

theorem KeepsOrder.streamsKept (h : KeepsOrder w.given calls w) : w.StreamsKept where
  backpressured := h.backpressured
  inOrder := by
    intro id
    have hsorted := h.orderly.sequence.sorted id
    rw [outgoing, callsOf_append] at hsorted
    exact hsorted.sublist (List.sublist_append_left _ _)
  endedOnce := by
    intro id
    have hle : endsOf id w.outgoing ≤ 1 := by
      by_cases hid : id ∈ w.truncatedStreams
      · exact (h.orderly.sequence.once id ⟨hid, List.not_mem_nil⟩).le
      · rw [h.orderly.sequence.never id fun hended => hid hended.1]
        exact Nat.zero_le 1
    rw [outgoing, endsOf_append] at hle
    exact ⟨by omega, (h.orderly.sequence.after id).sublist (List.sublist_append_left _ _)⟩
  shortenedEnds := by
    intro id hshort
    have hid : id ∈ w.truncatedStreams := by
      by_contra hid
      exact hshort (h.orderly.text id hid)
    exact ⟨h.orderly.sequence.once id ⟨hid, List.not_mem_nil⟩, h.orderly.sequence.after id⟩

end TuiFrameWriter

open TuiFrameWriter

/-- In every run of frames and drains that stays clear of the branches that break the order, the
writer waits for its socket, sends the frames of a stream in the order of their calls, and ends
every stream that lost text exactly once, after its text. -/
theorem streams_kept (env : WriterEnv) (ops : List WriterOp)
    (hops : StepsMeet (writerStep env) (StaysOrderly env) {} ops) :
    (runFrom (writerStep env) {} ops).StreamsKept := by
  have hkept := invariant_of_stepsMeet (I := fun w => KeepsOrder w.given w.given.length w)
    (fun _ _ hw hop => writerStep_keeps hw hop) ops {} keepsOrder_init hops
  exact hkept.streamsKept

/-- A delta is queued behind a refused write, and sent after the drain. -/
theorem streams_kept_delta :
    (runFrom (writerStep { renderFraction := fun _ => "", accepts := fun n => n != 0 }) {}
      [.enqueue .typing true, .enqueue (.chunk "s" none .text "a") true,
        .drain true]).StreamsKept := by
  refine streams_kept _ _ ⟨?_, ?_, ?_, trivial⟩
  · refine .inr ⟨fun _ => rfl, ?_, .inl rfl⟩
    intro hchunk
    cases hchunk
  · exact .inr ⟨fun _ => rfl, fun _ => by decide +kernel, .inr (.inl
      ⟨[], [], rfl, fun _ => rfl, by simp, by decide +kernel⟩)⟩
  · intro _ hgap
    cases hgap

def WriterOp.isTraffic : WriterOp → Bool
  | .enqueue _ _ | .drain _ => true
  | .dropActivity | .clearAttachment | .close => false

def oneFrame : WriterEnv where
  maxFrames := 1
  renderFraction := fun _ => ""
  accepts := fun _ => false

def channelMessage (sequence : Nat) : TuiServerFrame :=
  .activity sequence (.obj [("kind", .str "channel.message")])

/-- The marker of a dropped channel message is refused, and the queue is written all the same. -/
theorem marker_refused_then_flushed :
    ¬ ∀ (env : WriterEnv) (ops : List WriterOp), (∀ op ∈ ops, op.isTraffic = true) →
      (runFrom (writerStep env) {} ops).StreamsKept := by
  intro h
  have hlog := (h oneFrame [.enqueue .typing true, .enqueue (channelMessage 1) true,
    .enqueue (channelMessage 2) true, .drain true] (by decide)).backpressured
  rw [Backpressured, List.isChain_iff_getElem] at hlog
  exact nomatch hlog 2 (by decide +kernel) _ _ rfl

end Abtars
