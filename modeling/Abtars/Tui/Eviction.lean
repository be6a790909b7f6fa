import Mathlib.Logic.Relation
import Abtars.Tui.FrameWriter

/-!
# Making room in a writer's queue

Eviction nests: a delta that goes truncates its stream, the end of that stream is queued like any
frame, and may evict a further delta first.  What all of it does to a writer is a sequence of
three moves: a frame is dropped, a stream is truncated with one of its deltas, or the end of a
truncated stream is queued where there is room for it.
-/

namespace Abtars

open Lib

namespace TuiFrameWriter

variable {bytes frames need deltas : Nat} {w : TuiFrameWriter} {all : Bool} {q : QueuedFrame}
  {id : String} {s s' : TuiFrameWriter × List String} {before after : List QueuedFrame}
  {cls : TuiFrameClass} {mark : TuiFrameWriter → String → TuiFrameWriter}

variable (env : WriterEnv)

/-! ## Room -/

def fits (bytes : Int) (frames : Nat) : Bool :=
  bytes ≤ env.maxBytes && frames ≤ env.maxFrames

def freshStream (truncated : List String) (q : QueuedFrame) : Option String :=
  match q.cls, q.streamId with
  | .chunk, some streamId => if streamId ∈ truncated then none else some streamId
  | _, _ => none

/-- Dropping frames from the front of the list, each newly truncated stream adding its end, leaves
room at some point; with `all`, once all of them are dropped. -/
def roomAfter (terminal : String → Nat) (all : Bool) :
    List QueuedFrame → List String → Int → Nat → Bool
  | [], _, bytes, frames => fits env bytes frames
  | q :: rest, truncated, bytes, frames =>
    (!all && fits env bytes frames) ||
      match freshStream truncated q with
      | some id =>
        roomAfter terminal all rest (id :: truncated) (bytes - q.bytes + terminal id) frames
      | none => roomAfter terminal all rest truncated (bytes - q.bytes) (frames - 1)

def evictable (w : TuiFrameWriter) : List QueuedFrame :=
  byPriority (·.cls) evictOrder w.queue

def terminalBytes (w : TuiFrameWriter) (streamId : String) : Nat :=
  encodedBytes env (w.truncationTerminal streamId)

/-- Besides what is queued there is room for so many bytes and frames, once some frames from the
front are dropped that may be; with `all`, once all are that can be evicted. -/
def Roomy (all : Bool) (ok : QueuedFrame → Prop) (w : TuiFrameWriter) (bytes frames : Nat) :
    Prop :=
  ∃ es keep, w.evictable = es ++ keep ∧ (all = true → keep = []) ∧ (∀ q ∈ es, ok q) ∧
    roomAfter env (w.terminalBytes env) all es w.truncatedStreams (w.queuedBytes + bytes)
      (w.queue.length + frames) = true

def anyFrame : QueuedFrame → Prop := fun _ => True

def truncate (w : TuiFrameWriter) (streamId : String) : TuiFrameWriter :=
  { w with truncatedStreams := streamId :: w.truncatedStreams }

def without (w : TuiFrameWriter) (before : List QueuedFrame) (q : QueuedFrame)
    (after : List QueuedFrame) : TuiFrameWriter :=
  { w with queue := before ++ after, queuedBytes := w.queuedBytes - q.bytes }

def noting (w : TuiFrameWriter) (overflows : Nat) (gap : Bool) (sequence : Rat) : TuiFrameWriter :=
  { w with
    semanticOverflows := overflows
    discussionGap := gap
    discussionGapSequence := sequence }

def pushTerminal (w : TuiFrameWriter) (streamId : String) : TuiFrameWriter :=
  w.pushFrame env (w.truncationTerminal streamId) { cls := .terminal } []

def terminalEntry (w : TuiFrameWriter) (streamId : String) : QueuedFrame where
  frame := w.truncationTerminal streamId
  cls := .terminal
  bytes := w.terminalBytes env streamId
  streamId := none
  cardId := none
  calls := []

/-- One move of an eviction that drops frames of a kind only, with the truncated streams whose end
is still to be queued. -/
inductive EvictMove (ok : QueuedFrame → Prop) : TuiFrameWriter × List String → TuiFrameWriter × List String → Prop
  | drop {w pending before q after} (overflows gap sequence)
      (hqueue : w.queue = before ++ q :: after) (hcls : q.cls ∈ evictOrder) (hok : ok q)
      (hfresh : freshStream w.truncatedStreams q = none) :
      EvictMove ok (w, pending) ((w.without before q after).noting overflows gap sequence, pending)
  | truncate {w pending before q after id}
      (hqueue : w.queue = before ++ q :: after) (hcls : q.cls ∈ evictOrder) (hok : ok q)
      (hfresh : freshStream w.truncatedStreams q = some id) :
      EvictMove ok (w, pending) ((w.without before q after).truncate id, id :: pending)
  | settle {w pending id} (hroom : w.canAccept env (w.terminalBytes env id) = true) :
      EvictMove ok (w, id :: pending) (w.pushTerminal env id, pending)

def EvictMoves (ok : QueuedFrame → Prop) :
    TuiFrameWriter × List String → TuiFrameWriter × List String → Prop :=
  Relation.ReflTransGen (EvictMove env ok)

variable {env} {ok : QueuedFrame → Prop}

/-! ## Rules for room -/

theorem fits_iff {bytes : Int} :
    fits env bytes frames = true ↔ bytes ≤ env.maxBytes ∧ frames ≤ env.maxFrames := by
  simp [fits]

theorem canAccept_iff :
    w.canAccept env need = true ↔
      w.queuedBytes + need ≤ env.maxBytes ∧ w.queue.length + 1 ≤ env.maxFrames := by
  simp [canAccept]

theorem roomAfter_cases {terminal : String → Nat} {es : List QueuedFrame} {truncated : List String}
    {bytes : Int} (h : roomAfter env terminal all es truncated bytes frames = true) :
    (fits env bytes frames = true ∧ (all = true → es = [])) ∨
      ∃ q rest, es = q :: rest ∧
        ((∃ id, freshStream truncated q = some id ∧
          roomAfter env terminal all rest (id :: truncated) (bytes - q.bytes + terminal id)
            frames = true) ∨
        (freshStream truncated q = none ∧
          roomAfter env terminal all rest truncated (bytes - q.bytes) (frames - 1) = true)) := by
  cases es with
  | nil => exact .inl ⟨h, fun _ => rfl⟩
  | cons q rest =>
    simp only [roomAfter, Bool.or_eq_true, Bool.and_eq_true, Bool.not_eq_true'] at h
    rcases h with ⟨hall, hfits⟩ | h
    · exact .inl ⟨hfits, fun htrue => by simp [hall] at htrue⟩
    refine .inr ⟨q, rest, rfl, ?_⟩
    cases hq : freshStream truncated q with
    | some id => exact .inl ⟨id, rfl, by simpa [hq] using h⟩
    | none => exact .inr ⟨rfl, by simpa [hq] using h⟩

theorem freshStream_eq_some {truncated : List String} (h : freshStream truncated q = some id) :
    q.cls = .chunk ∧ q.streamId = some id ∧ id ∉ truncated := by
  unfold freshStream at h
  split at h
  · rename_i streamId hcls hstream
    split at h
    · cases h
    · rename_i hmem
      cases h
      exact ⟨hcls, hstream, hmem⟩
  · cases h

/-! ## What moves change -/

@[simp]
theorem queue_without (w : TuiFrameWriter) (before : List QueuedFrame) (q : QueuedFrame)
    (after : List QueuedFrame) : (w.without before q after).queue = before ++ after := rfl

theorem queue_pushTerminal (w : TuiFrameWriter) (id : String) :
    (w.pushTerminal env id).queue = w.queue ++ [w.terminalEntry env id] := rfl

theorem queuedFrames_pushFrame (w : TuiFrameWriter) (frame : TuiServerFrame)
    (info : FrameClassInfo) (calls : List Nat) :
    (w.pushFrame env frame info calls).queuedFrames =
      (w.pushFrame env frame info calls).queue.length := by
  simp [pushFrame]

theorem evictable_pushTerminal (w : TuiFrameWriter) (id : String) :
    (w.pushTerminal env id).evictable = w.evictable :=
  byPriority_append_other _ (by simp [evictOrder])

structure SameSocket (w w' : TuiFrameWriter) : Prop where
  writable : w'.writable = w.writable
  closed : w'.closed = w.closed
  log : w'.log = w.log
  given : w'.given = w.given
  streamExecutions : w'.streamExecutions = w.streamExecutions

theorem SameSocket.trans {w w' w'' : TuiFrameWriter} (h : SameSocket w w')
    (h' : SameSocket w' w'') : SameSocket w w'' where
  writable := h'.writable.trans h.writable
  closed := h'.closed.trans h.closed
  log := h'.log.trans h.log
  given := h'.given.trans h.given
  streamExecutions := h'.streamExecutions.trans h.streamExecutions

theorem EvictMove.sameSocket (h : EvictMove env ok s s') : SameSocket s.1 s'.1 := by
  cases h <;> exact ⟨rfl, rfl, rfl, rfl, rfl⟩

theorem EvictMoves.sameSocket (h : EvictMoves env ok s s') : SameSocket s.1 s'.1 := by
  induction h with
  | refl => exact ⟨rfl, rfl, rfl, rfl, rfl⟩
  | tail _ hmove ih => exact ih.trans hmove.sameSocket

theorem EvictMoves.truncated_mono (h : EvictMoves env ok s s') (hid : id ∈ s.1.truncatedStreams) :
    id ∈ s'.1.truncatedStreams := by
  induction h with
  | refl => exact hid
  | tail _ hmove ih =>
    cases hmove with
    | drop _ _ _ _ _ _ _ => exact ih
    | truncate _ _ _ _ => exact List.mem_cons_of_mem _ ih
    | settle _ => exact ih

theorem EvictMoves.mem_queue (h : EvictMoves env ok s s') (hq : q ∈ s'.1.queue) :
    q ∈ s.1.queue ∨ q.cls = .terminal := by
  induction h with
  | refl => exact .inl hq
  | tail _ hmove ih =>
    cases hmove with
    | drop _ _ _ hqueue _ _ _ =>
      apply ih
      rw [hqueue]
      simp only [noting, queue_without, List.mem_append] at hq
      simp only [List.mem_append, List.mem_cons]
      tauto
    | truncate hqueue _ _ _ =>
      apply ih
      rw [hqueue]
      simp only [truncate, queue_without, List.mem_append] at hq
      simp only [List.mem_append, List.mem_cons]
      tauto
    | settle _ =>
      simp only [pushTerminal, pushFrame, List.mem_append, List.mem_singleton] at hq
      rcases hq with hq | rfl
      · exact ih hq
      · exact .inr rfl

def IsDeltaOf (id : String) (q : QueuedFrame) : Prop :=
  q.cls = .chunk ∧ q.streamId = some id

def HasDelta (w : TuiFrameWriter) (id : String) : Prop :=
  ∃ q ∈ w.queue, IsDeltaOf id q

theorem EvictMoves.hasDelta (h : EvictMoves env ok s s') (hid : s'.1.HasDelta id) :
    s.1.HasDelta id := by
  obtain ⟨q, hq, hcls, hstream⟩ := hid
  rcases h.mem_queue hq with hq | hterminal
  · exact ⟨q, hq, hcls, hstream⟩
  · rw [hcls] at hterminal
    cases hterminal

theorem EvictMoves.mem_truncated (h : EvictMoves env ok s s') (hid : id ∈ s'.1.truncatedStreams) :
    id ∈ s.1.truncatedStreams ∨ ∃ q ∈ s.1.queue, ok q ∧ IsDeltaOf id q := by
  induction h with
  | refl => exact .inl hid
  | tail hmoves hmove ih =>
    cases hmove with
    | drop _ _ _ _ _ _ _ => exact ih hid
    | @truncate w pending before q after id' hqueue _ hok hfresh =>
      rcases List.mem_cons.mp hid with rfl | hid
      · obtain ⟨hchunk, hstream, _⟩ := freshStream_eq_some hfresh
        have hq : q ∈ w.queue := by simp [hqueue]
        rcases EvictMoves.mem_queue hmoves hq with hq | hterminal
        · exact .inr ⟨q, hq, hok, hchunk, hstream⟩
        · rw [hchunk] at hterminal
          cases hterminal
      · exact ih hid
    | settle _ => exact ih hid

theorem EvictMoves.eq_of_nothing
    (h : EvictMoves env ok (w, []) s') (hnothing : w.evictable = []) : s' = (w, []) := by
  induction h with
  | refl => rfl
  | tail _ hmove ih =>
    rw [ih] at hmove
    have hnone : ∀ {before after : List QueuedFrame} {q : QueuedFrame},
        w.queue = before ++ q :: after → q.cls ∈ evictOrder → False := by
      intro before after q hqueue hcls
      have hmem : q ∈ w.evictable := mem_byPriority.mpr ⟨by simp [hqueue], hcls⟩
      rw [hnothing] at hmem
      cases hmem
    cases hmove with
    | drop _ _ _ hqueue hcls _ _ => exact (hnone hqueue hcls).elim
    | truncate hqueue hcls _ _ => exact (hnone hqueue hcls).elim

def kept (w : TuiFrameWriter) : List QueuedFrame :=
  w.queue.filter (·.cls ∉ evictOrder)

theorem kept_without (hqueue : w.queue = before ++ q :: after) (hcls : q.cls ∈ evictOrder) :
    (w.without before q after).kept = w.kept := by
  simp [kept, hqueue, List.filter_append, hcls]

theorem EvictMoves.kept_eq (h : EvictMoves env ok s s') : ∃ ends, s'.1.kept = s.1.kept ++ ends := by
  induction h with
  | refl => exact ⟨[], (List.append_nil _).symm⟩
  | tail _ hmove ih =>
    obtain ⟨ends, hends⟩ := ih
    cases hmove with
    | drop _ _ _ hqueue hcls _ _ => exact ⟨ends, (kept_without hqueue hcls).trans hends⟩
    | truncate hqueue hcls _ _ => exact ⟨ends, (kept_without hqueue hcls).trans hends⟩
    | @settle w _ id _ =>
      have hpush : (w.pushTerminal env id).kept = w.kept ++ [w.terminalEntry env id] := by
        rw [kept, queue_pushTerminal, List.filter_append]
        rfl
      exact ⟨ends ++ [w.terminalEntry env id], by rw [hpush, hends, List.append_assoc]⟩

theorem kept_eq_queue (h : w.evictable = []) : w.kept = w.queue := by
  rw [kept, List.filter_eq_self]
  intro q hq
  rw [decide_eq_true_eq]
  intro hcls
  have hmem : q ∈ w.evictable := mem_byPriority.mpr ⟨hq, hcls⟩
  rw [h] at hmem
  cases hmem

def countClass (cls : TuiFrameClass) (w : TuiFrameWriter) : Nat :=
  w.queue.countP (·.cls = cls)

@[simp]
theorem countClass_noting (cls : TuiFrameClass) (w : TuiFrameWriter) (overflows : Nat) (gap : Bool)
    (sequence : Rat) : countClass cls (w.noting overflows gap sequence) = countClass cls w := rfl

@[simp]
theorem countClass_truncate (cls : TuiFrameClass) (w : TuiFrameWriter) (id : String) :
    countClass cls (w.truncate id) = countClass cls w := rfl

theorem countClass_without (hqueue : w.queue = before ++ q :: after) (cls : TuiFrameClass) :
    countClass cls (w.without before q after) + (if q.cls = cls then 1 else 0) =
      countClass cls w := by
  simp only [countClass, queue_without, hqueue, List.countP_append, List.countP_cons,
    decide_eq_true_eq]
  omega

theorem EvictMoves.countClass_le (h : EvictMoves env ok s s') (hcls : cls ≠ .terminal) :
    countClass cls s'.1 ≤ countClass cls s.1 := by
  induction h with
  | refl => exact Nat.le_refl _
  | tail _ hmove ih =>
    refine Nat.le_trans ?_ ih
    cases hmove with
    | drop _ _ _ hqueue _ _ _ =>
      have := countClass_without hqueue cls
      simp only [countClass_noting]
      omega
    | truncate hqueue _ _ _ =>
      have := countClass_without hqueue cls
      simp only [countClass_truncate]
      omega
    | settle _ =>
      simp [countClass, pushTerminal, pushFrame, Ne.symm hcls]

/-! ## Room along the moves -/

theorem Roomy.pushTerminal (h : Roomy env all ok w (w.terminalBytes env id + bytes) (1 + frames)) :
    Roomy env all ok (w.pushTerminal env id) bytes frames := by
  obtain ⟨es, keep, hes, hkeep, hok, hroom⟩ := h
  refine ⟨es, keep, by rw [evictable_pushTerminal, hes], hkeep, hok, ?_⟩
  have hbytes : w.queuedBytes + ((w.terminalBytes env id + bytes : Nat) : Int) =
      w.queuedBytes + (w.terminalBytes env id : Int) + bytes := by
    push_cast
    omega
  have hframes : w.queue.length + (1 + frames) = w.queue.length + 1 + frames := by omega
  rw [hbytes, hframes] at hroom
  have hlength : (w.pushTerminal env id).queue.length = w.queue.length + 1 := by
    simp [TuiFrameWriter.pushTerminal, pushFrame]
  rw [hlength]
  exact hroom

theorem Roomy.noting (h : Roomy env all ok w bytes frames) (overflows : Nat) (gap : Bool)
    (sequence : Rat) : Roomy env all ok (w.noting overflows gap sequence) bytes frames :=
  h

theorem evictable_eq_cons {lower rest : List TuiFrameClass}
    (hfound : firstMatch (·.cls = cls) w.queue = some (before, q, after))
    (horder : evictOrder = lower ++ cls :: rest) (hlower : ∀ a ∈ w.queue, a.cls ∉ lower) :
    w.evictable = q :: (w.without before q after).evictable := by
  obtain ⟨hqueue, hq, hbefore⟩ := firstMatch_eq_some hfound
  simp only [decide_eq_true_eq, decide_eq_false_iff_not] at hq hbefore
  have hnodup : (lower ++ cls :: rest).Nodup := by
    rw [← horder]
    decide
  have hrest : cls ∉ rest := by
    have := hnodup.of_append_right
    exact (List.nodup_cons.mp this).1
  have hlower' : ∀ a ∈ before ++ after, a.cls ∉ lower := by
    intro a ha
    apply hlower
    rw [hqueue]
    simp only [List.mem_append, List.mem_cons] at ha ⊢
    tauto
  simp only [evictable, queue_without, horder]
  rw [byPriority_append_skip hlower, byPriority_append_skip hlower', hqueue]
  exact byPriority_remove hq hbefore hrest

/-- The room left when the first frame to drop is gone. -/
theorem Roomy.without (h : Roomy env all ok w bytes frames)
    (hqueue : w.queue = before ++ q :: after)
    (hfirst : w.evictable = q :: (w.without before q after).evictable)
    (hfull : fits env (w.queuedBytes + bytes) (w.queue.length + frames) = false ∨ all = true) :
    ok q ∧ ((∃ id, freshStream w.truncatedStreams q = some id ∧
        Roomy env all ok ((w.without before q after).truncate id)
          (w.terminalBytes env id + bytes) (1 + frames)) ∨
      (freshStream w.truncatedStreams q = none ∧
        Roomy env all ok (w.without before q after) bytes frames)) := by
  obtain ⟨es, keep, hes, hkeep, hok, hroom⟩ := h
  have hlength : w.queue.length = (before ++ after).length + 1 := by
    rw [hqueue]
    simp
    omega
  rcases roomAfter_cases hroom with ⟨hfits, hnil⟩ | ⟨q', rest, rfl, hrest⟩
  · exfalso
    rcases hfull with hfull | hall
    · rw [hfits] at hfull
      cases hfull
    · rw [hnil hall, hkeep hall, hfirst] at hes
      cases hes
  · rw [hfirst, List.cons_append, List.cons.injEq] at hes
    obtain ⟨rfl, hevict⟩ := hes
    have hok' : ∀ a ∈ rest, ok a := fun a ha => hok a (List.mem_cons_of_mem q ha)
    refine ⟨hok q List.mem_cons_self, ?_⟩
    rcases hrest with ⟨id, hfresh, hroom⟩ | ⟨hfresh, hroom⟩
    · refine .inl ⟨id, hfresh, rest, keep, hevict, hkeep, hok', ?_⟩
      have hbytes : w.queuedBytes + (bytes : Int) - q.bytes + (w.terminalBytes env id : Nat) =
          w.queuedBytes - q.bytes + ((w.terminalBytes env id + bytes : Nat) : Int) := by
        push_cast
        omega
      have hframes : w.queue.length + frames = (before ++ after).length + (1 + frames) := by omega
      rw [hbytes, hframes] at hroom
      exact hroom
    · refine .inr ⟨hfresh, rest, keep, hevict, hkeep, hok', ?_⟩
      have hbytes : w.queuedBytes + (bytes : Int) - q.bytes =
          w.queuedBytes - q.bytes + (bytes : Int) := by omega
      have hframes : w.queue.length + frames - 1 = (before ++ after).length + frames := by omega
      rw [hbytes, hframes] at hroom
      exact hroom

theorem applyEvictSideEffects_of_not_fresh (hfresh : freshStream w.truncatedStreams q = none)
    (hmark : ∀ id ∈ w.truncatedStreams, mark w id = w) :
    ∃ overflows gap sequence, applyEvictSideEffects mark w q = w.noting overflows gap sequence := by
  unfold applyEvictSideEffects
  split
  · rename_i streamId hcls hstream
    have hmem : streamId ∈ w.truncatedStreams := by
      by_contra hmem
      simp [freshStream, hcls, hstream, hmem] at hfresh
    exact ⟨_, _, _, hmark streamId hmem⟩
  · exact ⟨_, _, _, rfl⟩
  · unfold markDiscussionGap
    split
    · exact ⟨_, _, _, rfl⟩
    · exact ⟨_, _, _, rfl⟩
  · exact ⟨_, _, _, rfl⟩

theorem Roomy.fits_of_nothing (h : Roomy env all ok w bytes frames) (hnothing : w.evictable = []) :
    fits env (w.queuedBytes + bytes) (w.queue.length + frames) = true := by
  obtain ⟨es, keep, hes, _, _, hroom⟩ := h
  rw [hnothing] at hes
  obtain rfl : es = [] := (List.append_eq_nil_iff.mp hes.symm).1
  exact hroom

/-- Room for the end of a stream does not depend on whether it counts as truncated already, when
nothing can be evicted. -/
theorem Roomy.truncate_of_nothing (h : Roomy env all ok w bytes frames)
    (hnothing : w.evictable = []) (id : String) : Roomy env all ok (w.truncate id) bytes frames :=
  ⟨[], [], hnothing, fun _ => rfl, by simp, h.fits_of_nothing hnothing⟩

/-! ## The loops -/

/-- Marking a stream is a run of moves where there is room for its end, for as many deltas as it
may have to evict. -/
structure MarkSpec (env : WriterEnv) (mark : TuiFrameWriter → String → TuiFrameWriter)
    (deltas : Nat) : Prop where
  again : ∀ w, ∀ id ∈ w.truncatedStreams, mark w id = w
  moves : ∀ w id pending all ok bytes frames, w.writable = false → id ∉ w.truncatedStreams →
    countClass .chunk w < deltas →
    Roomy env all ok (w.truncate id) (w.terminalBytes env id + bytes) (1 + frames) →
    EvictMoves env ok (w.truncate id, id :: pending) (mark w id, pending) ∧
      Roomy env all ok (mark w id) bytes frames ∧
      (mark w id).queuedFrames = (mark w id).queue.length

/-- One round of the loop over a class. -/
theorem evict_step (hmark : MarkSpec env mark deltas) (hblocked : w.writable = false)
    (hdeltas : countClass .chunk w ≤ deltas) (hroom : Roomy env all ok w bytes frames)
    (hqueue : w.queue = before ++ q :: after) (hcls : q.cls ∈ evictOrder)
    (hfirst : w.evictable = q :: (w.without before q after).evictable)
    (hfull : fits env (w.queuedBytes + bytes) (w.queue.length + frames) = false ∨ all = true)
    (pending : List String) :
    EvictMoves env ok (w, pending)
        (applyEvictSideEffects mark (w.without before q after) q, pending) ∧
      Roomy env all ok (applyEvictSideEffects mark (w.without before q after) q) bytes frames ∧
      countClass q.cls (applyEvictSideEffects mark (w.without before q after) q) <
        countClass q.cls w := by
  have hcount := countClass_without hqueue q.cls
  rw [if_pos rfl] at hcount
  obtain ⟨hok, hrest⟩ := hroom.without hqueue hfirst hfull
  rcases hrest with ⟨id, hfresh, hroom'⟩ | ⟨hfresh, hroom'⟩
  · -- a delta of a stream that is not truncated yet: its end has to find room first
    obtain ⟨hchunk, hstream, hmem⟩ := freshStream_eq_some hfresh
    have heffect : applyEvictSideEffects mark (w.without before q after) q =
        mark (w.without before q after) id := by
      simp [applyEvictSideEffects, hchunk, hstream]
    rw [hchunk] at hcount
    obtain ⟨hmoves, hroomy, _⟩ := hmark.moves (w.without before q after) id pending all ok bytes
      frames hblocked hmem (by omega) hroom'
    rw [heffect]
    refine ⟨Relation.ReflTransGen.head (.truncate hqueue hcls hok hfresh) hmoves, hroomy, ?_⟩
    have hchunks : TuiFrameClass.chunk ≠ .terminal := by decide
    have hle := hmoves.countClass_le hchunks
    simp only [countClass_truncate] at hle
    rw [hchunk]
    omega
  · have hfresh' : freshStream (w.without before q after).truncatedStreams q = none := hfresh
    obtain ⟨overflows, gap, sequence, heffect⟩ :=
      applyEvictSideEffects_of_not_fresh hfresh' (hmark.again _)
    rw [heffect]
    refine ⟨.single (.drop overflows gap sequence hqueue hcls hok hfresh),
      hroom'.noting overflows gap sequence, ?_⟩
    rw [countClass_noting]
    omega

/-- The loop over one class ends with room, or with none of the class left. -/
theorem evictClass_spec (hmark : MarkSpec env mark deltas) {lower rest : List TuiFrameClass}
    (horder : evictOrder = lower ++ cls :: rest) (hneed : (need ≤ bytes ∧ 1 ≤ frames) ∨ all = true)
    (pending : List String) (rounds : Nat) :
    ∀ w, w.writable = false → countClass .chunk w ≤ deltas → countClass cls w ≤ rounds →
      (∀ a ∈ w.queue, a.cls ∉ lower) → w.canAccept env need = false →
      Roomy env all ok w bytes frames →
      EvictMoves env ok (w, pending) ((w.evictClass env mark need cls rounds).1, pending) ∧
        Roomy env all ok (w.evictClass env mark need cls rounds).1 bytes frames ∧
        (w.evictClass env mark need cls rounds).2 =
          (w.evictClass env mark need cls rounds).1.canAccept env need ∧
        ((w.evictClass env mark need cls rounds).2 = false →
          ∀ a ∈ (w.evictClass env mark need cls rounds).1.queue, a.cls ≠ cls) := by
  have hmem : cls ∈ evictOrder := by simp [horder]
  have hterminal : TuiFrameClass.terminal ∉ evictOrder := by decide
  induction rounds with
  | zero =>
    intro w _ _ hrounds _ hfull hroom
    refine ⟨.refl, hroom, hfull.symm, fun _ a ha heq => ?_⟩
    have hpos : 0 < countClass cls w := by
      simp only [countClass, List.countP_pos_iff]
      exact ⟨a, ha, by simp [heq]⟩
    omega
  | succ rounds ih =>
    intro w hblocked hdeltas hrounds hlower hfull hroom
    cases hfound : firstMatch (·.cls = cls) w.queue with
    | none =>
      simp only [evictClass, hfound]
      refine ⟨.refl, hroom, hfull.symm, fun _ a ha => ?_⟩
      simpa using firstMatch_eq_none.mp hfound a ha
    | some found =>
      obtain ⟨hqueue, hq, _⟩ := firstMatch_eq_some hfound
      simp only [decide_eq_true_eq] at hq
      have hnofit : fits env (w.queuedBytes + bytes) (w.queue.length + frames) = false ∨
          all = true := by
        rcases hneed with ⟨hbytes, hframes⟩ | hneed
        · left
          rw [Bool.eq_false_iff] at hfull ⊢
          intro hfits
          obtain ⟨h₁, h₂⟩ := fits_iff.mp hfits
          exact hfull (canAccept_iff.mpr ⟨by omega, by omega⟩)
        · exact .inr hneed
      obtain ⟨hmoves, hroom', hless⟩ := evict_step hmark hblocked hdeltas hroom hqueue
        (hq ▸ hmem) (evictable_eq_cons hfound horder hlower) hnofit pending
      simp only [evictClass, hfound]
      rw [hq] at hless
      split
      · rename_i hfit
        exact ⟨hmoves, hroom', hfit.symm, fun h => by simp at h⟩
      rename_i hfit
      have hrec := ih _ (hmoves.sameSocket.writable.trans hblocked)
        (Nat.le_trans (hmoves.countClass_le (by decide)) hdeltas)
        (Nat.le_of_lt_succ (Nat.lt_of_lt_of_le hless hrounds))
        (fun a ha => by
          rcases hmoves.mem_queue ha with ha | ha
          · exact hlower a ha
          · rw [ha]
            intro hlow
            exact hterminal (by simp [horder, hlow]))
        (Bool.eq_false_iff.mpr hfit) hroom'
      exact ⟨hmoves.trans hrec.1, hrec.2⟩

/-- The loops over the classes end with room, or with nothing replaceable left. -/
theorem evictFor_spec
    (hmark : MarkSpec env mark deltas) (hneed : (need ≤ bytes ∧ 1 ≤ frames) ∨ all = true)
    (pending : List String) (order : List TuiFrameClass) :
    ∀ w lower, evictOrder = lower ++ order → w.writable = false → countClass .chunk w ≤ deltas →
      (∀ a ∈ w.queue, a.cls ∉ lower) → w.canAccept env need = false →
      Roomy env all ok w bytes frames →
      EvictMoves env ok (w, pending) ((w.evictFor env mark need order).1, pending) ∧
        Roomy env all ok (w.evictFor env mark need order).1 bytes frames ∧
        (w.evictFor env mark need order).2 =
          (w.evictFor env mark need order).1.canAccept env need ∧
        ((w.evictFor env mark need order).2 = false →
          (w.evictFor env mark need order).1.evictable = []) := by
  induction order with
  | nil =>
    intro w lower horder _ _ hlower _ hroom
    refine ⟨.refl, hroom, rfl, fun _ => ?_⟩
    rw [List.append_nil] at horder
    rw [List.eq_nil_iff_forall_not_mem]
    intro a ha
    obtain ⟨hmem, hcls⟩ := mem_byPriority.mp ha
    exact hlower a hmem (horder ▸ hcls)
  | cons cls order ih =>
    intro w lower horder hblocked hdeltas hlower hfull hroom
    obtain ⟨hmoves, hroom', hmade, hnone⟩ := evictClass_spec hmark horder hneed pending
      w.queue.length w hblocked hdeltas List.countP_le_length hlower hfull hroom
    simp only [evictFor]
    split
    · rename_i hroomy
      exact ⟨hmoves, hroom', by rw [← hmade, hroomy], fun h => by simp at h⟩
    rename_i hfalse
    have hfalse := Bool.eq_false_iff.mpr hfalse
    have hterminal : TuiFrameClass.terminal ∉ evictOrder := by decide
    have hrec := ih _ (lower ++ [cls]) (by rw [horder, List.append_assoc]; rfl)
      (hmoves.sameSocket.writable.trans hblocked)
      (Nat.le_trans (hmoves.countClass_le (by decide)) hdeltas)
      (fun a ha hlow => by
        rcases List.mem_append.mp hlow with hlow | hlow
        · rcases hmoves.mem_queue ha with ha | ha
          · exact hlower a ha hlow
          · exact hterminal (by rw [horder, ← ha]; simp [hlow])
        · exact hnone hfalse a ha (List.mem_singleton.mp hlow))
      (hmade ▸ hfalse) hroom'
    exact ⟨hmoves.trans hrec.1, hrec.2⟩

theorem evictFor_of_nothing (mark : TuiFrameWriter → String → TuiFrameWriter) (need : Nat)
    (w : TuiFrameWriter) (order : List TuiFrameClass) (horder : ∀ cls ∈ order, cls ∈ evictOrder)
    (h : w.evictable = []) : w.evictFor env mark need order = (w, w.canAccept env need) := by
  induction order with
  | nil => rfl
  | cons cls order ih =>
    have hnone : firstMatch (·.cls = cls) w.queue = none := by
      rw [firstMatch_eq_none]
      intro q hq
      rw [decide_eq_false_iff_not]
      rintro rfl
      have hmem : q ∈ w.evictable := mem_byPriority.mpr ⟨hq, horder _ List.mem_cons_self⟩
      rw [h] at hmem
      cases hmem
    have hclass : ∀ rounds, w.evictClass env mark need cls rounds = (w, false) := by
      intro rounds
      cases rounds with
      | zero => rfl
      | succ rounds => simp only [evictClass, hnone]
    simp only [evictFor, hclass, Bool.false_eq_true, if_false]
    exact ih fun c hc => horder c (List.mem_cons_of_mem cls hc)

theorem evictFor_makes
    (hmark : MarkSpec env mark deltas) (hneed : need ≤ bytes ∧ 1 ≤ frames) (pending : List String)
    (hblocked : w.writable = false) (hdeltas : countClass .chunk w ≤ deltas)
    (hfull : w.canAccept env need = false) (hroom : Roomy env all ok w bytes frames) :
    EvictMoves env ok (w, pending) ((w.evictFor env mark need evictOrder).1, pending) ∧
      Roomy env all ok (w.evictFor env mark need evictOrder).1 bytes frames ∧
      (w.evictFor env mark need evictOrder).2 = true ∧
      (w.evictFor env mark need evictOrder).1.canAccept env need = true := by
  obtain ⟨hmoves, hroom', hmade, hnone⟩ := evictFor_spec hmark (.inl hneed) pending evictOrder w []
    rfl hblocked hdeltas (by simp) hfull hroom
  have htrue : (w.evictFor env mark need evictOrder).2 = true := by
    by_contra hfalse
    have hfalse := Bool.eq_false_iff.mpr hfalse
    obtain ⟨h₁, h₂⟩ := fits_iff.mp (hroom'.fits_of_nothing (hnone hfalse))
    rw [hmade, Bool.eq_false_iff] at hfalse
    exact hfalse (canAccept_iff.mpr ⟨by omega, by omega⟩)
  exact ⟨hmoves, hroom', htrue, hmade ▸ htrue⟩

/-! ## Marking a stream -/

theorem boundFrame_chunkEnd (id : String) (executionId : Option String)
    (reason : Option ChunkEndReason) :
    boundFrame env (.chunkEnd id executionId reason) = .chunkEnd id executionId reason := by
  obtain ⟨budget, hmake⟩ := boundFrame_eq_make env (.chunkEnd id executionId reason)
  exact hmake

theorem enqueueWith_terminal (hblocked : w.writable = false) (id : String) :
    w.enqueueWith env mark (w.truncationTerminal id) [] =
      w.queueBlocked env mark (w.truncationTerminal id) { cls := .terminal } [] := by
  have hremember : w.rememberStreamIdentity (w.truncationTerminal id) = w := by
    unfold truncationTerminal
    cases hexec : w.streamExecutions id with
    | none => rfl
    | some executionId =>
      simp only [rememberStreamIdentity, ← hexec, Function.update_eq_self]
  have hclass : classify (w.truncationTerminal id) = { cls := .terminal } := rfl
  have hbound : boundFrame env (w.truncationTerminal id) = w.truncationTerminal id :=
    boundFrame_chunkEnd _ _ _
  have hmark : w.markOversized mark (w.truncationTerminal id) = w := rfl
  simp only [enqueueWith, hremember, hclass, hbound, hmark, ite_self, tryCoalesce, hblocked]
  rfl

/-- Marking a stream makes eviction moves only, for as many deltas as the depth allows. -/
theorem markTruncated_spec (depth : Nat) : MarkSpec env (markTruncated env depth) depth := by
  induction depth with
  | zero =>
    refine ⟨fun w id _ => rfl, ?_⟩
    intro w id pending all ok bytes frames _ _ hdeltas
    omega
  | succ depth ih =>
    constructor
    · intro w id hmem
      simp only [markTruncated, hmem, if_true]
    intro w id pending all ok bytes frames hblocked hmem hdeltas hroom
    have hblocked' : (w.truncate id).writable = false := hblocked
    have hmarked : markTruncated env (depth + 1) w id =
        ((w.truncate id).queueBlocked env (markTruncated env depth)
          ((w.truncate id).truncationTerminal id) { cls := .terminal } []).1 := by
      rw [markTruncated, if_neg hmem, ← enqueueWith_terminal hblocked']
      rfl
    have hneed : encodedBytes env ((w.truncate id).truncationTerminal id) =
        w.terminalBytes env id := rfl
    rw [hmarked, queueBlocked, hneed]
    split
    · rename_i hfit
      exact ⟨.single (.settle hfit), hroom.pushTerminal, queuedFrames_pushFrame _ _ _ _⟩
    -- a further delta has to go first; the stream waits for its end meanwhile
    rename_i hfull
    obtain ⟨hmoves, hroom', hmade, hfit⟩ := evictFor_makes ih
      ⟨Nat.le_add_right (w.terminalBytes env id) bytes, Nat.le_add_right 1 frames⟩
      (id :: pending) hblocked' (by simp only [countClass_truncate]; omega) (Bool.eq_false_iff.mpr hfull)
      hroom
    simp only [hmade, if_true]
    generalize ((w.truncate id).evictFor env (markTruncated env depth)
      (w.terminalBytes env id) evictOrder).1 = w' at *
    have hexec : w'.streamExecutions = w.streamExecutions :=
      hmoves.sameSocket.streamExecutions
    have hterminal : (w.truncate id).truncationTerminal id = w'.truncationTerminal id := by
      simp only [truncationTerminal, hexec]
      rfl
    have hbytes : w.terminalBytes env id = w'.terminalBytes env id := by
      simp only [terminalBytes, truncationTerminal, hexec]
    rw [hbytes] at hfit hroom'
    rw [hterminal]
    exact ⟨hmoves.tail (.settle hfit), hroom'.pushTerminal, queuedFrames_pushFrame _ _ _ _⟩

end TuiFrameWriter

end Abtars
