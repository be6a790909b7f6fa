import Mathlib.Algebra.Order.BigOperators.Group.List
import Mathlib.Algebra.Order.Group.Nat
import Abtars.Lib.Run
import Abtars.Tui.Queueing

/-!
# A writer within its limits

The writer checks for room once, before it queues a frame.  Its counts and limits hold from
operation to operation as long as nothing else adds to the queue: a merged delta, a frame in the
place of an older one and a frame that pushed out the oldest one are queued without a check, a
frame that is dropped after evictions leaves the count of frames as it was, and a frame whose
identifiers alone are too large is not bounded at all.
-/

namespace Abtars

open Lib

namespace TuiFrameWriter

variable {w : TuiFrameWriter} {before after : List QueuedFrame} {q : QueuedFrame}
  {frame given : TuiServerFrame} {info : FrameClassInfo} {calls : List Nat} {deltas depth : Nat}
  {id : String}

variable (env : WriterEnv)

/-- The counts of a writer are right, and its queue and its frames are within the limits. -/
structure WithinLimits (w : TuiFrameWriter) : Prop where
  framesCounted : w.queuedFrames = w.queue.length
  framesBounded : w.queuedFrames ≤ env.maxFrames
  bytesCounted : w.queuedBytes = ((w.queue.map fun q => encodedBytes env q.frame).sum : Nat)
  bytesBounded : w.queuedBytes ≤ env.maxBytes
  queuedFit : ∀ q ∈ w.queue, encodedBytes env q.frame ≤ env.maxFrameBytes
  writtenFit : ∀ frame calls ok, .write frame calls ok ∈ w.log →
    encodedBytes env frame ≤ env.maxFrameBytes

/-! ## When an operation stays within them -/

/-- A frame that finds nothing to be coalesced with, on a blocked socket.  Evicting replaceable
frames makes room for it; or else there is nothing replaceable, so that a replaceable frame is
dropped at once; or a delta is dropped and its stream gets its end; or the oldest frame of those
that are kept makes room. -/
def QueueFits (w : TuiFrameWriter) (frame : TuiServerFrame) (info : FrameClassInfo) : Prop :=
  Roomy env false anyFrame w (encodedBytes env frame) 1 ∨
    match info.cls, info.streamId with
    | .chunk, some id =>
      if id ∈ w.truncatedStreams then w.evictable = []
      else ¬ w.HasDelta id ∧ Roomy env true anyFrame w (w.terminalBytes env id) 1
    | .progress, _ | .discussion, _ | .typing, _ | .status, _ => w.evictable = []
    | _, _ =>
      match w.kept with
      | [] => w.evictable = []
      | oldest :: _ => Roomy env true anyFrame w (encodedBytes env frame - oldest.bytes) 0

/-- A frame that comes to rest.  What stands in the place of an older frame is within the limits,
and a stream that it overflows has room for its end. -/
def SettleFits (w : TuiFrameWriter) (frame : TuiServerFrame) (info : FrameClassInfo) : Prop :=
  w.writable = true ∨
    match w.older frame info with
    | some (before, q, after) =>
      encodedBytes env (standIn env q.frame frame) ≤ env.maxFrameBytes ∧
      w.queuedBytes - q.bytes + encodedBytes env (standIn env q.frame frame) ≤ env.maxBytes ∧
      ∀ id, overflowing env q.frame frame = some id → id ∉ w.truncatedStreams →
        Roomy env false anyFrame
          ((w.exchange env before q after frame info [w.given.length]).truncate id)
          (w.terminalBytes env id) 1
    | none => QueueFits env w frame info

def EndsFit (w : TuiFrameWriter) (pending : List String) : Prop :=
  ∀ id, id ∈ pending ∨ w.HasDelta id → w.terminalBytes env id ≤ env.maxFrameBytes

/-- A frame that `enqueue` takes. -/
def EnqueueFits (w : TuiFrameWriter) (frame : TuiServerFrame) : Prop :=
  (∃ id, deltaStream frame = some id ∧ id ∈ w.truncatedStreams) ∨
  (encodedBytes env (working env frame) ≤ env.maxFrameBytes ∧
    EndsFit env w (deltaStream frame).toList ∧
    match oversizedStream env frame with
    | none => SettleFits env w (working env frame) (classify frame)
    | some id =>
      w.writable = true ∨
        if w.canAccept env (w.terminalBytes env id) then
          SettleFits env ((w.truncate id).pushTerminal env id) (working env frame)
            (classify frame)
        else
          ¬ w.HasDelta id ∧
            Roomy env false anyFrame (w.truncate id)
              (w.terminalBytes env id + encodedBytes env (working env frame)) 2)

def StaysWithin (w : TuiFrameWriter) : WriterOp → Prop
  | .enqueue frame current =>
    w.closed = true ∨ current = false ∨ EnqueueFits env (w.rememberStreamIdentity frame) frame
  | .drain current =>
    w.closed = true ∨ current = false ∨
      (w.discussionGap = true →
        encodedBytes env (.activityGap w.discussionGapSequence) ≤ env.maxFrameBytes)
  | .dropActivity | .clearAttachment | .close => True

variable {env} {ok : QueuedFrame → Prop}

/-! ## The queue and what it counts -/

/-- All of `WithinLimits` but the count of frames, which evictions leave as it was. -/
structure Accounted (env : WriterEnv) (w : TuiFrameWriter) : Prop where
  sizes : ∀ q ∈ w.queue, q.bytes = encodedBytes env q.frame
  bytes : w.queuedBytes = ((w.queue.map (·.bytes)).sum : Nat)
  framesBounded : w.queue.length ≤ env.maxFrames
  bytesBounded : w.queuedBytes ≤ env.maxBytes
  queuedFit : ∀ q ∈ w.queue, encodedBytes env q.frame ≤ env.maxFrameBytes
  writtenFit : ∀ frame calls ok, .write frame calls ok ∈ w.log →
    encodedBytes env frame ≤ env.maxFrameBytes

theorem Accounted.withinLimits {w : TuiFrameWriter} (h : Accounted env w)
    (hcount : w.queuedFrames = w.queue.length) : WithinLimits env w where
  framesCounted := hcount
  framesBounded := hcount ▸ h.framesBounded
  bytesCounted := by
    rw [h.bytes, List.map_congr_left h.sizes]
  bytesBounded := h.bytesBounded
  queuedFit := h.queuedFit
  writtenFit := h.writtenFit

theorem Accounted.of_eq {w w' : TuiFrameWriter} (h : Accounted env w) (hqueue : w'.queue = w.queue)
    (hbytes : w'.queuedBytes = w.queuedBytes) (hlog : w'.log = w.log) : Accounted env w' where
  sizes := hqueue ▸ h.sizes
  bytes := by rw [hbytes, hqueue, h.bytes]
  framesBounded := hqueue ▸ h.framesBounded
  bytesBounded := hbytes ▸ h.bytesBounded
  queuedFit := hqueue ▸ h.queuedFit
  writtenFit := hlog ▸ h.writtenFit

theorem Accounted.without (h : Accounted env w) (hqueue : w.queue = before ++ q :: after) :
    Accounted env (w.without before q after) := by
  have hsub : ∀ a ∈ before ++ after, a ∈ w.queue := by
    intro a ha
    rw [hqueue]
    simp only [List.mem_append, List.mem_cons] at ha ⊢
    tauto
  have hsum : w.queuedBytes = q.bytes + (((before ++ after).map (·.bytes)).sum : Nat) := by
    rw [h.bytes, hqueue]
    simp only [List.map_append, List.map_cons, List.sum_append, List.sum_cons]
    push_cast
    omega
  have hlength := h.framesBounded
  have hbounded := h.bytesBounded
  rw [hqueue] at hlength
  simp only [List.length_append, List.length_cons] at hlength
  refine ⟨fun a ha => h.sizes a (hsub a ha), ?_, ?_, ?_, fun a ha => h.queuedFit a (hsub a ha),
    h.writtenFit⟩
  · show w.queuedBytes - q.bytes = _
    simp only [queue_without]
    omega
  · simp only [queue_without, List.length_append]
    omega
  · show w.queuedBytes - q.bytes ≤ _
    omega

theorem Accounted.pushFrame (h : Accounted env w)
    (hroom : w.canAccept env (encodedBytes env frame) = true)
    (hfit : encodedBytes env frame ≤ env.maxFrameBytes) :
    Accounted env (w.pushFrame env frame info calls) := by
  obtain ⟨hbytes, hframes⟩ := canAccept_iff.mp hroom
  refine ⟨?_, ?_, ?_, hbytes, ?_, h.writtenFit⟩
  · intro q hq
    rcases List.mem_append.mp hq with hq | hq
    · exact h.sizes q hq
    · obtain rfl := List.mem_singleton.mp hq
      rfl
  · show w.queuedBytes + _ = _
    rw [h.bytes]
    simp [TuiFrameWriter.pushFrame]
  · simpa [TuiFrameWriter.pushFrame] using hframes
  · intro q hq
    rcases List.mem_append.mp hq with hq | hq
    · exact h.queuedFit q hq
    · obtain rfl := List.mem_singleton.mp hq
      exact hfit

theorem Accounted.socketWrite (h : Accounted env w)
    (hfit : encodedBytes env frame ≤ env.maxFrameBytes) :
    Accounted env (w.socketWrite env frame calls).1 := by
  refine ⟨h.sizes, h.bytes, h.framesBounded, h.bytesBounded, h.queuedFit, ?_⟩
  intro frame' calls' ok hmem
  rcases List.mem_append.mp hmem with hmem | hmem
  · exact h.writtenFit frame' calls' ok hmem
  · simp only [List.mem_singleton, SocketEvent.write.injEq] at hmem
    rw [hmem.1]
    exact hfit

/-! ## Evictions -/

theorem terminalBytes_of_eq {w' : TuiFrameWriter} (h : w'.streamExecutions = w.streamExecutions)
    (id : String) : w'.terminalBytes env id = w.terminalBytes env id := by
  simp only [terminalBytes, truncationTerminal, h]

theorem EvictMoves.accounted {s s' : TuiFrameWriter × List String} (h : EvictMoves env ok s s')
    (hacc : Accounted env s.1) (hends : EndsFit env s.1 s.2) :
    Accounted env s'.1 ∧ EndsFit env s'.1 s'.2 := by
  induction h with
  | refl => exact ⟨hacc, hends⟩
  | tail hmoves hmove ih =>
    obtain ⟨hacc, hends⟩ := ih
    cases hmove with
    | @drop w pending before q after overflows gap sequence hqueue hcls hok hfresh =>
      have hmove : EvictMoves env ok (w, pending) _ :=
        .single (.drop overflows gap sequence hqueue hcls hok hfresh)
      exact ⟨(hacc.without hqueue).of_eq rfl rfl rfl,
        fun id hid => hends id (hid.imp_right fun hdelta => hmove.hasDelta hdelta)⟩
    | @truncate w pending before q after id' hqueue hcls hok hfresh =>
      have hmove : EvictMoves env ok (w, pending) _ := .single (.truncate hqueue hcls hok hfresh)
      obtain ⟨hchunk, hstream, _⟩ := freshStream_eq_some hfresh
      refine ⟨(hacc.without hqueue).of_eq rfl rfl rfl, fun id hid => hends id ?_⟩
      rcases hid with hid | hdelta
      · rcases List.mem_cons.mp hid with rfl | hid
        · exact .inr ⟨q, by simp [hqueue], hchunk, hstream⟩
        · exact .inl hid
      · exact .inr (hmove.hasDelta hdelta)
    | @settle w pending id' hroom =>
      have hmove : EvictMoves env ok (w, id' :: pending) _ := .single (.settle hroom)
      exact ⟨hacc.pushFrame hroom (hends id' (.inl List.mem_cons_self)),
        fun id hid => hends id (hid.imp (List.mem_cons_of_mem id') hmove.hasDelta)⟩

/-! ## A frame comes to rest -/

structure Rests (env : WriterEnv) (w : TuiFrameWriter) : Prop where
  accounted : Accounted env w
  counted : w.queuedFrames = w.queue.length
  flushed : w.writable = true → w.queue = []

theorem Accounted.exchange (h : Accounted env w) (hqueue : w.queue = before ++ q :: after)
    (hfit : encodedBytes env (standIn env q.frame frame) ≤ env.maxFrameBytes)
    (hbytes : w.queuedBytes - q.bytes + encodedBytes env (standIn env q.frame frame) ≤
      env.maxBytes) :
    Accounted env (w.exchange env before q after frame info calls) := by
  have hmem : ∀ a ∈ before ++ standInEntry env q frame info calls :: after,
      a ∈ w.queue ∨ a = standInEntry env q frame info calls := by
    intro a ha
    rw [hqueue]
    simp only [List.mem_append, List.mem_cons] at ha ⊢
    tauto
  have hsum : w.queuedBytes - q.bytes + encodedBytes env (standIn env q.frame frame) =
      (((before ++ standInEntry env q frame info calls :: after).map (·.bytes)).sum : Nat) := by
    rw [h.bytes, hqueue]
    simp only [List.map_append, List.map_cons, List.sum_append, List.sum_cons, standInEntry]
    push_cast
    omega
  have hqueued : (w.exchange env before q after frame info calls).queuedBytes =
      w.queuedBytes - q.bytes + encodedBytes env (standIn env q.frame frame) := by
    simp only [TuiFrameWriter.exchange]
    split
    · exact hsum.symm
    · rfl
  refine ⟨fun a ha => ?_, hqueued.trans hsum, ?_, hqueued ▸ hbytes, fun a ha => ?_, h.writtenFit⟩
  · rcases hmem a ha with ha | rfl
    · exact h.sizes a ha
    · rfl
  · have hlength := h.framesBounded
    rw [hqueue] at hlength
    simpa [TuiFrameWriter.exchange] using hlength
  · rcases hmem a ha with ha | rfl
    · exact h.queuedFit a ha
    · exact hfit

theorem Rests.exchange (h : Rests env w)
    (hqueue : w.queue = before ++ q :: after)
    (hfit : encodedBytes env (standIn env q.frame frame) ≤ env.maxFrameBytes)
    (hbytes : w.queuedBytes - q.bytes + encodedBytes env (standIn env q.frame frame) ≤
      env.maxBytes) :
    Rests env (w.exchange env before q after frame info calls) := by
  have hlength : (before ++ standInEntry env q frame info calls :: after).length =
      w.queue.length := by
    simp [hqueue]
  refine ⟨h.accounted.exchange hqueue hfit hbytes, ?_, fun hwritable => ?_⟩
  · show (if info.cls = .chunk then w.queuedFrames else w.queue.length) =
      (before ++ standInEntry env q frame info calls :: after).length
    rw [hlength, h.counted, ite_self]
  · have hempty := h.flushed hwritable
    simp [hqueue] at hempty

theorem Rests.writeThrough (h : Rests env w) (hqueue : w.queue = [])
    (hfit : encodedBytes env frame ≤ env.maxFrameBytes) :
    Rests env (w.writeThrough env frame calls) :=
  ⟨(h.accounted.socketWrite hfit).of_eq rfl rfl rfl, h.counted, fun _ => hqueue⟩

theorem Rests.pushFrame (h : Accounted env w) (hblocked : w.writable = false)
    (hroom : w.canAccept env (encodedBytes env frame) = true)
    (hfit : encodedBytes env frame ≤ env.maxFrameBytes) :
    Rests env (w.pushFrame env frame info calls) :=
  ⟨h.pushFrame hroom hfit, queuedFrames_pushFrame _ _ _ _, fun hwritable => by
    rw [show (w.pushFrame env frame info calls).writable = w.writable from rfl, hblocked]
      at hwritable
    cases hwritable⟩

theorem Rests.mark {mark : TuiFrameWriter → String → TuiFrameWriter}
    (hmark : MarkSpec env mark deltas) (h : Accounted env w)
    (hblocked : w.writable = false) (hdeltas : countClass .chunk w < deltas)
    (hfresh : id ∉ w.truncatedStreams) {all : Bool} {bytes frames : Nat}
    (hroom : Roomy env all ok (w.truncate id) (w.terminalBytes env id + bytes) (1 + frames))
    (hends : EndsFit env w [id]) :
    Rests env (mark w id) ∧ EvictMoves env ok (w.truncate id, [id]) (mark w id, []) ∧
      Roomy env all ok (mark w id) bytes frames := by
  obtain ⟨hmoves, hroomy, hcount⟩ := hmark.moves w id [] all ok bytes frames hblocked hfresh
    hdeltas hroom
  have hacc : Accounted env (w.truncate id) := h.of_eq rfl rfl rfl
  have hblocked' : (mark w id).writable = false := hmoves.sameSocket.writable.trans hblocked
  refine ⟨⟨(hmoves.accounted hacc hends).1, hcount, fun hwritable => ?_⟩, hmoves, hroomy⟩
  rw [hblocked'] at hwritable
  cases hwritable

theorem EndsFit.mono {pending pending' : List String}
    (h : EndsFit env w pending) (hsub : ∀ id ∈ pending', id ∈ pending) : EndsFit env w pending' :=
  fun id hid => h id (hid.imp_left (hsub id))

theorem Rests.of_moves {w' : TuiFrameWriter} (h : Accounted env w) {pending : List String}
    (hends : EndsFit env w pending) (hmoves : EvictMoves env ok (w, pending) (w', []))
    (hblocked : w.writable = false) (hcount : w'.queuedFrames = w'.queue.length) :
    Rests env w' := by
  refine ⟨(hmoves.accounted h hends).1, hcount, fun hwritable => ?_⟩
  have hblocked' : w'.writable = false := hmoves.sameSocket.writable.trans hblocked
  rw [hblocked'] at hwritable
  cases hwritable

theorem Rests.of_pushed {result : TuiFrameWriter} (h : Rests env w) (hends : EndsFit env w [])
    (hblocked : w.writable = false) (hfit : encodedBytes env frame ≤ env.maxFrameBytes)
    (hpushed : Pushed env ok w frame info calls result) : Rests env result := by
  obtain ⟨w', hmoves, hroom, rfl⟩ := hpushed
  exact .pushFrame (hmoves.accounted h.accounted hends).1
    (hmoves.sameSocket.writable.trans hblocked) hroom hfit

/-- A frame that a blocked writer queues or drops. -/
theorem queueBlocked_rests {mark : TuiFrameWriter → String → TuiFrameWriter}
    (hmark : MarkSpec env mark deltas) (hdeltas : countClass .chunk w < deltas) (h : Rests env w)
    (hblocked : w.writable = false) (hends : EndsFit env w (deltaStream given).toList)
    (hfit : encodedBytes env frame ≤ env.maxFrameBytes)
    (hroom : QueueFits env w frame (classify given)) (calls : List Nat) :
    Rests env (w.queueBlocked env mark frame (classify given) calls).1 := by
  have hends' : EndsFit env w [] := hends.mono (by simp)
  rcases hroom with hroom | hroom
  · exact h.of_pushed hends' hblocked hfit (queueBlocked_of_roomy hmark hdeltas hblocked hroom)
  by_cases hquiet : (classify given).cls ∈ quietClasses
  · -- with nothing to evict it is dropped, and nothing else happens
    have hnothing : w.evictable = [] := by
      simp only [quietClasses, List.mem_cons, List.not_mem_nil, or_false] at hquiet
      rcases hquiet with hcls | hcls | hcls | hcls
      all_goals simpa only [hcls] using hroom
    have hroom' : Roomy env true anyFrame w 0 0 :=
      ⟨[], [], hnothing, fun _ => rfl, by simp,
        fits_iff.mpr ⟨by simpa using h.accounted.bytesBounded, h.accounted.framesBounded⟩⟩
    rcases queueBlocked_quiet hmark hdeltas hblocked hquiet hroom' with
      hpushed | ⟨w', overflows, gap, sequence, hmoves, _, heq⟩
    · exact h.of_pushed hends' hblocked hfit hpushed
    · rw [heq]
      cases hmoves.eq_of_nothing hnothing
      exact ⟨h.accounted.of_eq rfl rfl rfl, h.counted, h.flushed⟩
  by_cases hcls : (classify given).cls = .chunk
  · obtain ⟨id, hdelta, hstream⟩ := deltaStream_of_chunk hcls
    simp only [hcls, hstream] at hroom
    split at hroom
    · rename_i hmem
      have hresult : Pushed env anyFrame w frame (classify given) calls
          (w.queueBlocked env mark frame (classify given) calls).1 ∨ _ :=
        queueBlocked_delta_of_truncated hmark hcls hstream hmem hroom
      rcases hresult with hpushed | heq
      · exact h.of_pushed hends' hblocked hfit hpushed
      · rw [heq]
        exact h
    · rename_i hmem
      rcases queueBlocked_delta hmark hdeltas hblocked hcls hstream hmem hroom.1 hroom.2 with
        hpushed | ⟨w', w'', hmoves, hfresh, hmoves', hcount, heq⟩
      · exact h.of_pushed hends' hblocked hfit hpushed
      · rw [heq]
        have hexec := hmoves.sameSocket.streamExecutions
        have hacc : Accounted env (w'.truncate id) :=
          (hmoves.accounted h.accounted hends').1.of_eq rfl rfl rfl
        have hends'' : EndsFit env (w'.truncate id) [id] := by
          intro id' hid'
          have hbytes : (w'.truncate id).terminalBytes env id' = w.terminalBytes env id' :=
            terminalBytes_of_eq hexec id'
          rw [hbytes]
          apply hends
          rcases hid' with hid' | hid'
          · exact .inl (by simpa [hdelta] using hid')
          · exact .inr (hmoves.hasDelta hid')
        exact .of_moves hacc hends'' hmoves' (hmoves.sameSocket.writable.trans hblocked) hcount
  · have hroom' : match w.kept with
        | [] => w.evictable = []
        | oldest :: _ => Roomy env true anyFrame w (encodedBytes env frame - oldest.bytes) 0 := by
      rcases keptClass_cases hquiet hcls with hclass | hclass | hclass | hclass
      all_goals simpa only [hclass] using hroom
    cases hkept : w.kept with
    | nil =>
      simp only [hkept] at hroom'
      have hresult : Pushed env anyFrame w frame (classify given) calls
          (w.queueBlocked env mark frame (classify given) calls).1 ∨ _ :=
        queueBlocked_kept_of_nothing hquiet hcls hkept hroom'
      rcases hresult with hpushed | heq
      · exact h.of_pushed hends' hblocked hfit hpushed
      · rw [heq]
        exact h
    | cons oldest rest =>
      simp only [hkept] at hroom'
      rcases queueBlocked_kept hmark hdeltas hblocked hquiet hcls hkept hroom' with
        hpushed | ⟨w', rest', hmoves, hqueue, hfits, heq⟩
      · exact h.of_pushed hends' hblocked hfit hpushed
      · rw [heq]
        obtain ⟨hacc, _⟩ := hmoves.accounted h.accounted hends'
        have hwithout : Accounted env (w'.without [] oldest rest') := hacc.without hqueue
        refine .pushFrame hwithout (hmoves.sameSocket.writable.trans hblocked) ?_ hfit
        obtain ⟨hbytes, hframes⟩ := fits_iff.mp hfits
        rw [hqueue, List.length_cons] at hframes
        rw [canAccept_iff]
        refine ⟨?_, hframes⟩
        show w'.queuedBytes - oldest.bytes + _ ≤ _
        omega

theorem hasDelta_exchange
    (hqueue : w.queue = before ++ q :: after) (hcls : q.cls = (classify given).cls)
    (h : (w.exchange env before q after frame (classify given) calls).HasDelta id) :
    w.HasDelta id ∨ deltaStream given = some id := by
  obtain ⟨a, ha, hchunk, hstream⟩ := h
  have hmem : a ∈ before ++ standInEntry env q frame (classify given) calls :: after := ha
  rw [List.mem_append, List.mem_cons] at hmem
  rcases hmem with ha | rfl | ha
  · exact .inl ⟨a, by simp [hqueue, ha], hchunk, hstream⟩
  · obtain ⟨id', hdelta, hid'⟩ := deltaStream_of_chunk (hcls.symm.trans hchunk)
    right
    simp only [standInEntry, hid'] at hstream
    exact hdelta.trans hstream
  · exact .inl ⟨a, by simp [hqueue, ha], hchunk, hstream⟩

/-- A frame that comes to rest leaves the writer at rest. -/
theorem settle_rests {mark : TuiFrameWriter → String → TuiFrameWriter}
    (hmark : MarkSpec env mark deltas) (hdeltas : countClass .chunk w < deltas) (h : Rests env w)
    (hstands : StandsFor frame given) (hends : EndsFit env w (deltaStream given).toList)
    (hfit : encodedBytes env frame ≤ env.maxFrameBytes)
    (hroom : SettleFits env w frame (classify given)) (hcalls : calls = [w.given.length]) :
    Rests env (w.settle env mark frame (classify given) calls).1 := by
  subst hcalls
  rw [settle, tryCoalesce_eq mark w hstands]
  cases hwritable : w.writable with
  | true =>
    have hqueue := h.flushed hwritable
    simp only [older_of_empty hqueue, Option.map_none, if_true]
    exact h.writeThrough hqueue hfit
  | false =>
    rcases hroom with hroom | hroom
    · rw [hwritable] at hroom
      cases hroom
    cases hfound : w.older frame (classify given) with
    | none =>
      simp only [hfound] at hroom
      exact queueBlocked_rests hmark hdeltas h hwritable hends hfit hroom _
    | some found =>
      obtain ⟨before, q, after⟩ := found
      simp only [hfound] at hroom
      obtain ⟨hstandIn, hbytes, hoverflow⟩ := hroom
      obtain ⟨hqueue, hcls⟩ := older_eq_some hfound
      have hexchanged : Rests env (w.exchange env before q after frame (classify given)
          [w.given.length]) := h.exchange hqueue hstandIn hbytes
      simp only [Option.map_some, merged]
      cases hover : overflowing env q.frame frame with
      | none => exact hexchanged
      | some id =>
        have hends' : EndsFit env (w.exchange env before q after frame (classify given)
            [w.given.length]) [id] := by
          intro id' hid'
          apply hends
          rcases hid' with hid' | hid'
          · obtain rfl := List.mem_singleton.mp hid'
            exact .inl (by simp [overflowing_stream hstands hover])
          · rcases hasDelta_exchange hqueue hcls hid' with hid' | hid'
            · exact .inr hid'
            · exact .inl (by simp [hid'])
        have hdeltas' : countClass .chunk (w.exchange env before q after frame
            (classify given) [w.given.length]) < deltas := by
          rw [countClass_exchange hqueue]
          exact hdeltas
        have hroomy := hoverflow id hover
        have htruncated := truncatedStreams_exchange env w before q after frame
          (classify given) [w.given.length]
        have hblocked : (w.exchange env before q after frame (classify given)
          [w.given.length]).writable = false := hwritable
        have hterminal : w.terminalBytes env id = (w.exchange env before q after frame
          (classify given) [w.given.length]).terminalBytes env id := rfl
        rw [← htruncated, hterminal] at hroomy
        generalize w.exchange env before q after frame (classify given)
          [w.given.length] = w' at *
        by_cases hmem : id ∈ w'.truncatedStreams
        · simp only [hmark.again w' id hmem]
          exact hexchanged
        · have hroom' : Roomy env false anyFrame (w'.truncate id) (w'.terminalBytes env id + 0)
              (1 + 0) := hroomy hmem
          exact (Rests.mark hmark hexchanged.accounted hblocked hdeltas' hmem hroom'
            hends').1

/-! ## The operations -/

theorem Rests.of_eq {w w' : TuiFrameWriter} (h : Rests env w) (hqueue : w'.queue = w.queue)
    (hbytes : w'.queuedBytes = w.queuedBytes) (hframes : w'.queuedFrames = w.queuedFrames)
    (hwritable : w'.writable = w.writable) (hlog : w'.log = w.log) : Rests env w' where
  accounted := h.accounted.of_eq hqueue hbytes hlog
  counted := by rw [hframes, hqueue, h.counted]
  flushed := fun htrue => by rw [hqueue, h.flushed (hwritable ▸ htrue)]

theorem markTruncated_of_writable
    (hwritable : w.writable = true) (hfresh : id ∉ w.truncatedStreams) :
    markTruncated env (depth + 1) w id =
      (w.truncate id).writeThrough env (w.truncationTerminal id) [] := by
  have hremember : (w.truncate id).rememberStreamIdentity (w.truncationTerminal id) =
      w.truncate id := by
    unfold truncationTerminal
    cases hexec : w.streamExecutions id with
    | none => rfl
    | some executionId =>
      simp only [rememberStreamIdentity]
      rw [← hexec]
      simp only [truncate, Function.update_eq_self]
  have hworking : working env (w.truncationTerminal id) = w.truncationTerminal id := by
    simp only [working, truncationTerminal, boundFrame_chunkEnd, ite_self]
  have hcoalesce : (w.truncate id).tryCoalesce env (markTruncated env depth)
      (w.truncationTerminal id) (classify (w.truncationTerminal id)) [] = none := rfl
  have hwritable' : (w.truncate id).writable = true := hwritable
  rw [markTruncated, if_neg hfresh]
  show ((w.truncate id).enqueueWith env _ (w.truncationTerminal id) []).1 = _
  rw [enqueueWith_eq, hremember, hworking]
  simp only [deltaStream, truncationTerminal, Option.any_none, Bool.false_eq_true, if_false,
    oversizedStream]
  rw [settle]
  simp only [truncationTerminal] at hcoalesce
  simp only [hcoalesce, hwritable', if_true]

theorem markTruncated_of_canAccept (hblocked : w.writable = false)
    (hfresh : id ∉ w.truncatedStreams) (hroom : w.canAccept env (w.terminalBytes env id) = true) :
    markTruncated env (depth + 1) w id = (w.truncate id).pushTerminal env id := by
  have hblocked' : (w.truncate id).writable = false := hblocked
  have hroom' : (w.truncate id).canAccept env
      (encodedBytes env ((w.truncate id).truncationTerminal id)) = true := hroom
  rw [markTruncated, if_neg hfresh]
  show ((w.truncate id).enqueueWith env _ ((w.truncate id).truncationTerminal id) []).1 = _
  rw [enqueueWith_terminal hblocked', queueBlocked, if_pos hroom']
  rfl

theorem older_of_not_hasDelta
    (hstands : StandsFor frame given) (hdelta : deltaStream given = some id)
    (h : ¬ w.HasDelta id) : w.older frame (classify given) = none := by
  cases given
  case chunk id' executionId kind delta =>
    obtain rfl : id' = id := Option.some.inj hdelta
    have hframe := hstands.chunk
    have hstream := hstands.stream
    cases frame
    case chunk id'' executionId' kind' delta' =>
      obtain rfl : id'' = id' := Option.some.inj hstream
      have hnone : lastMatch (fun q => decide (q.cls = .chunk ∧ q.streamId = some id''))
          w.queue = none := by
        rw [lastMatch_eq_none]
        intro q hq
        rw [decide_eq_false_iff_not]
        exact fun hq' => h ⟨q, hq, hq'.1, hq'.2⟩
      simp only [older, classify, hnone, Option.filter]
    all_goals simp [isChunk] at hframe
  all_goals cases hdelta

theorem oversizedStream_eq_some
    (h : oversizedStream env frame = some id) : deltaStream frame = some id := by
  cases frame
  case chunk id' executionId kind delta =>
    simp only [oversizedStream] at h
    split at h
    · exact h
    · cases h
  all_goals cases h

/-- An oversized delta: the end of its stream comes first, then what is left of it. -/
theorem oversized_rests (h : Rests env w)
    (hdepth : w.queue.length ≤ depth)
    (hdelta : deltaStream frame = some id) (hfresh : id ∉ w.truncatedStreams)
    (hfit : encodedBytes env (working env frame) ≤ env.maxFrameBytes)
    (hends : EndsFit env w (deltaStream frame).toList)
    (hroom : w.writable = true ∨
      if w.canAccept env (w.terminalBytes env id) then
        SettleFits env ((w.truncate id).pushTerminal env id) (working env frame) (classify frame)
      else
        ¬ w.HasDelta id ∧
          Roomy env false anyFrame (w.truncate id)
            (w.terminalBytes env id + encodedBytes env (working env frame)) 2) (hcalls : calls =
            [w.given.length]) :
    Rests env ((markTruncated env (depth + 1) w id).settle env (markTruncated env (depth + 1))
      (working env frame) (classify frame) calls).1 := by
  have hmark : MarkSpec env (markTruncated env (depth + 1)) (depth + 1) := markTruncated_spec _
  have hcount : countClass .chunk w < depth + 1 :=
    Nat.lt_succ_of_le (Nat.le_trans List.countP_le_length hdepth)
  have hends' : EndsFit env w [id] := hends.mono (by simp [hdelta])
  have hchunk : (classify frame).cls = .chunk := by
    rw [classify_cls_eq_chunk]
    cases frame <;> simp [deltaStream, isChunk] at hdelta ⊢
  obtain ⟨id', hdelta', hstream⟩ := deltaStream_of_chunk hchunk
  obtain rfl : id' = id := Option.some.inj (hdelta'.symm.trans hdelta)
  cases hwritable : w.writable with
  | true =>
    -- nothing is queued, so that the rest is written, or queued if there is room at all
    have hqueue := h.flushed hwritable
    have hend : encodedBytes env (w.truncationTerminal id') ≤ env.maxFrameBytes :=
      hends id' (.inl (by simp [hdelta]))
    rw [markTruncated_of_writable hwritable hfresh]
    have htruncate : Rests env (w.truncate id') := h.of_eq rfl rfl rfl rfl rfl
    have hrests : Rests env ((w.truncate id').writeThrough env (w.truncationTerminal id') []) :=
      htruncate.writeThrough hqueue hend
    have hmem : id' ∈ ((w.truncate id').writeThrough env (w.truncationTerminal id')
      []).truncatedStreams := List.mem_cons_self
    have hqueue' : ((w.truncate id').writeThrough env (w.truncationTerminal id') []).queue = [] :=
      hqueue
    refine settle_rests hmark ?_ hrests (standsFor_working frame) ?_ hfit ?_ hcalls
    · exact hcount
    · exact hends
    generalize (w.truncate id').writeThrough env (w.truncationTerminal id') [] = w' at *
    right
    rw [older_of_empty hqueue']
    right
    simp only [hchunk, hstream, if_pos hmem, evictable, hqueue']
    rfl
  | false =>
    rcases hroom with hroom | hroom
    · rw [hwritable] at hroom
      cases hroom
    by_cases haccept : w.canAccept env (w.terminalBytes env id') = true
    · rw [if_pos haccept] at hroom
      rw [markTruncated_of_canAccept hwritable hfresh haccept]
      have htruncate : Accounted env (w.truncate id') := h.accounted.of_eq rfl rfl rfl
      have hrests : Rests env ((w.truncate id').pushTerminal env id') :=
        .pushFrame htruncate hwritable haccept (hends id' (.inl (by simp [hdelta])))
      have hmoves : EvictMoves env anyFrame (w.truncate id', [id'])
          ((w.truncate id').pushTerminal env id', []) := .single (.settle haccept)
      refine settle_rests hmark (Nat.lt_of_le_of_lt (hmoves.countClass_le (by decide)) hcount)
        hrests (standsFor_working frame) ?_ hfit hroom hcalls
      exact fun id hid => hends id (hid.imp_right fun hdelta => hmoves.hasDelta hdelta)
    · rw [if_neg haccept] at hroom
      obtain ⟨hnodelta, hroom⟩ := hroom
      have hroom' : Roomy env false anyFrame (w.truncate id')
        (w.terminalBytes env id' + encodedBytes env (working env frame)) (1 + 1) := hroom
      obtain ⟨hrests, hmoves, hroomy⟩ := Rests.mark hmark h.accounted hwritable hcount hfresh
        hroom' hends'
      have hgiven : (markTruncated env (depth + 1) w id').given = w.given :=
        hmoves.sameSocket.given
      have hexec : (markTruncated env (depth + 1) w id').streamExecutions = w.streamExecutions :=
        hmoves.sameSocket.streamExecutions
      have hnodelta' : ¬ (markTruncated env (depth + 1) w id').HasDelta id' :=
        fun hdelta => hnodelta (hmoves.hasDelta hdelta)
      refine settle_rests hmark (Nat.lt_of_le_of_lt (hmoves.countClass_le (by decide)) hcount)
        hrests (standsFor_working frame) ?_ hfit ?_ (by rw [hgiven, hcalls])
      · intro id hid
        rw [terminalBytes_of_eq hexec]
        exact hends id (hid.imp_right fun hdelta => hmoves.hasDelta hdelta)
      · right
        rw [older_of_not_hasDelta (standsFor_working frame) hdelta hnodelta']
        exact .inl hroomy

/-- The body of `enqueue`. -/
theorem enqueueWith_rests (h : Rests env w)
    (hroom : EnqueueFits env (w.rememberStreamIdentity frame) frame)
    (hcalls : calls = [w.given.length]) :
    Rests env (w.enqueueWith env (markTruncated env (w.queue.length + 1)) frame calls).1 := by
  have hmark : MarkSpec env (markTruncated env (w.queue.length + 1)) (w.queue.length + 1) :=
    markTruncated_spec _
  obtain ⟨executions, hw⟩ := rememberStreamIdentity_eq w frame
  have h' : Rests env (w.rememberStreamIdentity frame) := by
    rw [hw]
    exact h.of_eq rfl rfl rfl rfl rfl
  have hlength : (w.rememberStreamIdentity frame).queue.length ≤ w.queue.length := by
    rw [hw]
  have hgiven : (w.rememberStreamIdentity frame).given = w.given := by
    rw [hw]
  rw [← hgiven] at hcalls
  rw [enqueueWith_eq]
  generalize w.rememberStreamIdentity frame = w' at *
  have hcount : countClass .chunk w' < w.queue.length + 1 :=
    Nat.lt_succ_of_le (Nat.le_trans List.countP_le_length hlength)
  split
  · exact h'
  rename_i hfresh
  rcases hroom with ⟨id, hdelta, hmem⟩ | ⟨hfit, hends, hroom⟩
  · simp [hdelta, hmem] at hfresh
  cases hover : oversizedStream env frame with
  | none =>
    simp only [hover] at hroom
    exact settle_rests hmark hcount h' (standsFor_working frame) hends hfit hroom hcalls
  | some id =>
    simp only [hover] at hroom
    have hdelta := oversizedStream_eq_some hover
    refine oversized_rests h' hlength hdelta ?_ hfit hends hroom hcalls
    simpa [hdelta] using hfresh

theorem flushQueue_rests (rest : List QueuedFrame) :
    ∀ w, Accounted env w → w.queue = rest → Rests env (w.flushQueue env rest) := by
  induction rest with
  | nil =>
    intro w h hqueue
    exact ⟨h.of_eq hqueue.symm rfl rfl, rfl, fun _ => rfl⟩
  | cons item rest ih =>
    intro w h hqueue
    have hfit := h.queuedFit item (by simp [hqueue])
    have hwithout : Accounted env (w.without [] item rest) := h.without hqueue
    have hwritten : Accounted env
        { (w.socketWrite env item.frame item.calls).1 with
          queue := rest, queuedBytes := w.queuedBytes - item.bytes } :=
      Accounted.of_eq (hwithout.socketWrite hfit) rfl rfl rfl
    simp only [flushQueue]
    split
    · exact ih _ hwritten rfl
    · exact ⟨hwritten.of_eq rfl rfl rfl, rfl, fun h => by cases h⟩

theorem drain_rests (h : Rests env w) {current : Bool}
    (hstep : StaysWithin env w (.drain current)) : Rests env (w.drain env current) := by
  have hlog : Rests env { w with log := w.log ++ [.drain] } := by
    refine ⟨⟨h.accounted.sizes, h.accounted.bytes, h.accounted.framesBounded,
      h.accounted.bytesBounded, h.accounted.queuedFit, ?_⟩, h.counted, h.flushed⟩
    intro frame calls ok hmem
    rcases List.mem_append.mp hmem with hmem | hmem
    · exact h.accounted.writtenFit frame calls ok hmem
    · cases List.mem_singleton.mp hmem
  simp only [drain]
  split
  · exact hlog
  rename_i hopen
  rw [Bool.or_eq_true, Bool.not_eq_true', not_or] at hopen
  have hgap := (hstep.resolve_left hopen.1).resolve_left hopen.2
  apply flushQueue_rests
  · split
    · rename_i htrue
      have hopened : Accounted env { w with log := w.log ++ [.drain], writable := true } :=
        hlog.accounted.of_eq rfl rfl rfl
      exact Accounted.of_eq (hopened.socketWrite (hgap htrue)) rfl rfl rfl
    · exact hlog.accounted.of_eq rfl rfl rfl
  · rfl

theorem filter_rests {w : TuiFrameWriter} (h : Rests env w) (keep : QueuedFrame → Bool) :
    Rests env ({ w with queue := w.queue.filter keep }).recomputeBytes := by
  have hsub : (w.queue.filter keep).Sublist w.queue := List.filter_sublist
  have hmem : ∀ q ∈ w.queue.filter keep, q ∈ w.queue := fun q hq => hsub.subset hq
  have hbytes : ((w.queue.filter keep).map (·.bytes)).sum ≤ (w.queue.map (·.bytes)).sum :=
    (hsub.map _).sum_le_sum (fun _ _ => Nat.zero_le _)
  have hbounded := h.accounted.bytesBounded
  rw [h.accounted.bytes] at hbounded
  refine ⟨⟨fun q hq => h.accounted.sizes q (hmem q hq), rfl,
    Nat.le_trans hsub.length_le h.accounted.framesBounded, ?_,
    fun q hq => h.accounted.queuedFit q (hmem q hq), h.accounted.writtenFit⟩, rfl, ?_⟩
  · show ((((w.queue.filter keep).map (·.bytes)).sum : Nat) : Int) ≤ env.maxBytes
    omega
  · intro hwritable
    rw [h.flushed hwritable]
    rfl

theorem close_rests (h : Rests env w) : Rests env w.close := by
  unfold close
  split
  · exact h
  · exact ⟨⟨by simp, rfl, Nat.zero_le _, Int.natCast_nonneg _, by simp, h.accounted.writtenFit⟩,
      rfl, fun _ => rfl⟩

theorem writerStep_rests {op : WriterOp} (h : Rests env w)
    (hstep : StaysWithin env w op) : Rests env (writerStep env w op) := by
  cases op with
  | enqueue frame current =>
    simp only [writerStep, enqueue]
    split
    · exact h.of_eq rfl rfl rfl rfl rfl
    · rename_i hopen
      rw [Bool.or_eq_true, Bool.not_eq_true', not_or] at hopen
      have hroom := (hstep.resolve_left hopen.1).resolve_left hopen.2
      exact (enqueueWith_rests h hroom rfl).of_eq rfl rfl rfl rfl rfl
  | drain current => exact drain_rests h hstep
  | dropActivity =>
    simp only [writerStep, dropActivity]
    split
    · exact h
    · exact filter_rests h _
  | clearAttachment =>
    simp only [writerStep, clearAttachment]
    split
    · exact h
    · exact (filter_rests h _).of_eq rfl rfl rfl rfl rfl
  | close => exact close_rests h

theorem rests_initial : Rests env {} :=
  ⟨⟨by simp, rfl, Nat.zero_le _, Int.natCast_nonneg _, by simp, by simp⟩, rfl, fun _ => rfl⟩

end TuiFrameWriter

open TuiFrameWriter

/-- In every state of a run whose operations take none of the branches that do not check, the
counts of the writer are right, its queue is within its limits, and so is every frame it queued or
wrote. -/
theorem writer_within_limits (env : WriterEnv) (ops : List WriterOp)
    (h : StepsMeet (writerStep env) (StaysWithin env) {} ops) :
    WithinLimits env (runFrom (writerStep env) {} ops) := by
  have hrests : Rests env (runFrom (writerStep env) {} ops) :=
    invariant_of_stepsMeet (fun w op hw hop => writerStep_rests hw hop) ops {} rests_initial h
  exact hrests.accounted.withinLimits hrests.counted

def sixtyBytes : WriterEnv where
  maxBytes := 60
  renderFraction := fun _ => ""
  accepts := fun _ => false

/-- The condition is met by an error that is queued behind a refused write. -/
theorem writer_within_limits_queued :
    WithinLimits sixtyBytes (runFrom (writerStep sixtyBytes) {}
      [.enqueue .typing true, .enqueue (.error "lost") true]) := by
  refine writer_within_limits sixtyBytes _ ⟨?_, ?_, trivial⟩
  · refine .inr (.inr (.inr ⟨by decide +kernel, ?_, .inl rfl⟩))
    rintro id (hid | ⟨q, hq, _⟩)
    · cases hid
    · cases hq
  refine .inr (.inr (.inr ⟨by decide +kernel, ?_, .inr ?_⟩))
  · rintro id (hid | ⟨q, hq, _⟩)
    · cases hid
    · cases hq
  · exact .inl ⟨[], [], rfl, fun _ => rfl, by simp, by decide +kernel⟩

/-- The oldest of the frames to keep makes way for a larger one, and nothing checks that it left
room. -/
theorem forced_push_exceeds_limit :
    ¬ ∀ (env : WriterEnv) (ops : List WriterOp),
      WithinLimits env (runFrom (writerStep env) {} ops) := by
  intro h
  have hbytes := (h sixtyBytes [.enqueue .typing true, .enqueue (.error "lost") true,
    .enqueue (.error "the connection to the session was lost") true]).bytesBounded
  revert hbytes
  decide +kernel

end Abtars
