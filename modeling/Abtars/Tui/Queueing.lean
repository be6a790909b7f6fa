import Abtars.Tui.Eviction
import Abtars.Tui.Coalescing

/-!
# How a blocked writer takes a frame

Once the moves of an eviction are made, a frame is pushed, or dropped, or its stream gets its end,
or it takes the room of the oldest frame.  Which of these a frame can come to depends on its class
and on the room there is.
-/

namespace Abtars

open Lib

namespace TuiFrameWriter

variable {env : WriterEnv} {ok : QueuedFrame → Prop}

theorem countClass_exchange {w : TuiFrameWriter} {before after : List QueuedFrame}
    {q : QueuedFrame} {frame : TuiServerFrame} {info : FrameClassInfo} {calls : List Nat}
    (hqueue : w.queue = before ++ q :: after) (cls : TuiFrameClass) :
    countClass cls (w.exchange env before q after frame info calls) = countClass cls w := by
  simp [countClass, exchange, standInEntry, hqueue, List.countP_append, List.countP_cons]

def Pushed (env : WriterEnv) (ok : QueuedFrame → Prop) (w : TuiFrameWriter)
    (frame : TuiServerFrame) (info : FrameClassInfo) (calls : List Nat)
    (result : TuiFrameWriter) : Prop :=
  ∃ w', EvictMoves env ok (w, []) (w', []) ∧ w'.canAccept env (encodedBytes env frame) = true ∧
    result = w'.pushFrame env frame info calls

variable {mark : TuiFrameWriter → String → TuiFrameWriter} {deltas : Nat} {w : TuiFrameWriter}
  {frame : TuiServerFrame} {info : FrameClassInfo} {calls : List Nat}

theorem queueBlocked_of_roomy (hmark : MarkSpec env mark deltas)
    (hdeltas : countClass .chunk w < deltas) (hblocked : w.writable = false)
    (hroom : Roomy env false ok w (encodedBytes env frame) 1) :
    Pushed env ok w frame info calls (w.queueBlocked env mark frame info calls).1 := by
  by_cases hfull : w.canAccept env (encodedBytes env frame) = true
  · simp only [queueBlocked, hfull, if_true]
    exact ⟨w, .refl, hfull, rfl⟩
  obtain ⟨hmoves, _, hmade, hfit⟩ := evictFor_makes hmark ⟨Nat.le_refl _, Nat.le_refl 1⟩ []
    hblocked (Nat.le_of_lt hdeltas) (Bool.eq_false_iff.mpr hfull) hroom
  simp only [queueBlocked, hfull, hmade, if_true]
  exact ⟨_, hmoves, hfit, rfl⟩

def quietClasses : List TuiFrameClass :=
  [.progress, .discussion, .typing, .status]

theorem keptClass_cases {cls : TuiFrameClass} (hquiet : cls ∉ quietClasses)
    (hchunk : cls ≠ .chunk) :
    cls = .control ∨ cls = .terminal ∨ cls = .snapshot ∨ cls = .streamStart := by
  cases cls <;> simp [quietClasses] at hquiet hchunk ⊢

/-- A frame is queued, after evictions where it needs them, or has no room after all of them. -/
theorem pushed_or_full (hmark : MarkSpec env mark deltas)
    (hdeltas : countClass .chunk w < deltas) (hblocked : w.writable = false) {bytes frames : Nat}
    (hroom : Roomy env true ok w bytes frames) :
    Pushed env ok w frame info calls (w.queueBlocked env mark frame info calls).1 ∨
      ∃ w', w.canAccept env (encodedBytes env frame) = false ∧
        w.evictFor env mark (encodedBytes env frame) evictOrder = (w', false) ∧
        EvictMoves env ok (w, []) (w', []) ∧ Roomy env true ok w' bytes frames ∧
        w'.evictable = [] := by
  cases hfull : w.canAccept env (encodedBytes env frame) with
  | true => exact .inl ⟨w, .refl, hfull, by simp only [queueBlocked, hfull, if_true]⟩
  | false =>
    obtain ⟨hmoves, hroom', hmade, hnone⟩ := evictFor_spec hmark (.inr rfl) [] evictOrder w [] rfl
      hblocked (Nat.le_of_lt hdeltas) (by simp) hfull hroom
    cases hevict : w.evictFor env mark (encodedBytes env frame) evictOrder with
    | mk w' made =>
      rw [hevict] at hmoves hroom' hmade hnone
      cases made with
      | true => exact .inl ⟨w', hmoves, hmade.symm, by simp only [queueBlocked, hfull, hevict]; rfl⟩
      | false => exact .inr ⟨w', rfl, rfl, hmoves, hroom', hnone rfl⟩

theorem pushed_or_full_of_nothing (hnothing : w.evictable = []) :
    Pushed env ok w frame info calls (w.queueBlocked env mark frame info calls).1 ∨
      w.canAccept env (encodedBytes env frame) = false ∧
        w.evictFor env mark (encodedBytes env frame) evictOrder = (w, false) := by
  cases hfull : w.canAccept env (encodedBytes env frame) with
  | true => exact .inl ⟨w, .refl, hfull, by simp only [queueBlocked, hfull, if_true]⟩
  | false => exact .inr ⟨rfl, hfull ▸ evictFor_of_nothing mark _ w evictOrder (fun _ h => h) hnothing⟩

theorem queueBlocked_quiet (hmark : MarkSpec env mark deltas)
    (hdeltas : countClass .chunk w < deltas) (hblocked : w.writable = false)
    (hcls : info.cls ∈ quietClasses) (hroom : Roomy env true ok w 0 0) :
    Pushed env ok w frame info calls (w.queueBlocked env mark frame info calls).1 ∨
      ∃ w' overflows gap sequence, EvictMoves env ok (w, []) (w', []) ∧ w'.evictable = [] ∧
        (w.queueBlocked env mark frame info calls).1 = w'.noting overflows gap sequence := by
  obtain hpushed | ⟨w', hfull, hevict, hmoves, _, hnone⟩ :=
    pushed_or_full hmark hdeltas hblocked hroom
  · exact .inl hpushed
  right
  simp only [queueBlocked, hfull, hevict, Bool.false_eq_true, if_false]
  simp only [quietClasses, List.mem_cons, List.not_mem_nil, or_false] at hcls
  rcases hcls with hcls | hcls | hcls | hcls
  · exact ⟨w', _, _, _, hmoves, hnone, by simp only [hcls]; rfl⟩
  · refine ⟨w', w'.semanticOverflows, (w'.markDiscussionGap frame).discussionGap,
      (w'.markDiscussionGap frame).discussionGapSequence, hmoves, hnone, ?_⟩
    simp only [hcls, markDiscussionGap]
    split <;> rfl
  · exact ⟨w', _, _, _, hmoves, hnone, by simp only [hcls]; rfl⟩
  · exact ⟨w', _, _, _, hmoves, hnone, by simp only [hcls]; rfl⟩

/-- A delta of a stream that is not truncated and has none queued: it is queued, or its stream
gets its end. -/
theorem queueBlocked_delta (hmark : MarkSpec env mark deltas)
    (hdeltas : countClass .chunk w < deltas) (hblocked : w.writable = false) {id : String}
    (hcls : info.cls = .chunk) (hstream : info.streamId = some id)
    (hfresh : id ∉ w.truncatedStreams) (hnodelta : ¬ w.HasDelta id)
    (hroom : Roomy env true ok w (w.terminalBytes env id) 1) :
    Pushed env ok w frame info calls (w.queueBlocked env mark frame info calls).1 ∨
      ∃ w' w'', EvictMoves env ok (w, []) (w', []) ∧ id ∉ w'.truncatedStreams ∧
        EvictMoves env ok (w'.truncate id, [id]) (w'', []) ∧
        w''.queuedFrames = w''.queue.length ∧
        (w.queueBlocked env mark frame info calls).1 = w'' := by
  obtain hpushed | ⟨w', hfull, hevict, hmoves, hroom', hnone⟩ :=
    pushed_or_full hmark hdeltas hblocked hroom
  · exact .inl hpushed
  right
  simp only [queueBlocked, hfull, hevict, Bool.false_eq_true, if_false]
  have hfresh' : id ∉ w'.truncatedStreams := by
    intro hid
    rcases hmoves.mem_truncated hid with hid | ⟨q, hq, _, hdelta⟩
    · exact hfresh hid
    · exact hnodelta ⟨q, hq, hdelta⟩
  have hexec : w'.streamExecutions = w.streamExecutions := hmoves.sameSocket.streamExecutions
  have hbytes : w.terminalBytes env id = w'.terminalBytes env id := by
    simp only [terminalBytes, truncationTerminal, hexec]
  rw [hbytes] at hroom'
  have hroom'' : Roomy env true ok (w'.truncate id) (w'.terminalBytes env id + 0) (1 + 0) :=
    hroom'.truncate_of_nothing (hnone) id
  obtain ⟨hends, _, hcount⟩ := hmark.moves w' id [] true ok 0 0
    (hmoves.sameSocket.writable.trans hblocked) hfresh'
    (Nat.lt_of_le_of_lt (hmoves.countClass_le (by decide)) hdeltas) hroom''
  refine ⟨w', mark w' id, hmoves, hfresh', hends, hcount, ?_⟩
  simp only [hcls, hstream]

theorem queueBlocked_delta_of_truncated (hmark : MarkSpec env mark deltas) {id : String}
    (hcls : info.cls = .chunk) (hstream : info.streamId = some id)
    (hmem : id ∈ w.truncatedStreams) (hnothing : w.evictable = []) :
    Pushed env ok w frame info calls (w.queueBlocked env mark frame info calls).1 ∨
      (w.queueBlocked env mark frame info calls).1 = w := by
  obtain hpushed | ⟨hfull, hevict⟩ := pushed_or_full_of_nothing hnothing
  · exact .inl hpushed
  simp only [queueBlocked, hfull, hevict, hcls, hstream, Bool.false_eq_true, if_false,
    hmark.again w id hmem]
  exact .inr trivial

/-- A frame to keep, where the oldest of the frames that are kept can make room: it is queued after
evictions, or in the room of that frame. -/
theorem queueBlocked_kept (hmark : MarkSpec env mark deltas)
    (hdeltas : countClass .chunk w < deltas) (hblocked : w.writable = false)
    (hquiet : info.cls ∉ quietClasses) (hcls : info.cls ≠ .chunk) {oldest : QueuedFrame}
    {rest : List QueuedFrame} (hkept : w.kept = oldest :: rest) {bytes : Nat}
    (hroom : Roomy env true ok w bytes 0) :
    Pushed env ok w frame info calls (w.queueBlocked env mark frame info calls).1 ∨
      ∃ w' rest', EvictMoves env ok (w, []) (w', []) ∧ w'.queue = oldest :: rest' ∧
        fits env (w'.queuedBytes + bytes) w'.queue.length = true ∧
        (w.queueBlocked env mark frame info calls).1 =
          (w'.without [] oldest rest').pushFrame env frame info calls := by
  obtain hpushed | ⟨w', hfull, hevict, hmoves, hroom', hnone⟩ :=
    pushed_or_full hmark hdeltas hblocked hroom
  · exact .inl hpushed
  right
  simp only [queueBlocked, hfull, hevict, Bool.false_eq_true, if_false]
  obtain ⟨ends, hkept'⟩ := hmoves.kept_eq
  simp only [hkept] at hkept'
  have hqueue : w'.queue = oldest :: (rest ++ ends) :=
    (kept_eq_queue (hnone)).symm.trans hkept'
  have holdest : oldest.cls ∉ evictOrder := by
    have hmem : oldest ∈ w.kept := hkept ▸ List.mem_cons_self
    exact of_decide_eq_true (List.mem_filter.mp hmem).2
  have heffect : ∀ w : TuiFrameWriter, applyEvictSideEffects mark w oldest = w := by
    intro w
    unfold applyEvictSideEffects
    split
    · rename_i hchunk _
      simp [hchunk, evictOrder] at holdest
    · rename_i hprogress
      simp [hprogress, evictOrder] at holdest
    · rename_i hdiscussion
      simp [hdiscussion, evictOrder] at holdest
    · rfl
  have hforced : w'.forceEvictOne mark = (w'.without [] oldest (rest ++ ends), true) := by
    simp only [forceEvictOne, hqueue, heffect]
    rfl
  refine ⟨w', rest ++ ends, hmoves, hqueue, hroom'.fits_of_nothing (hnone), ?_⟩
  rcases keptClass_cases hquiet hcls with hclass | hclass | hclass | hclass
  all_goals simp only [hclass, hforced, if_true]

theorem queueBlocked_kept_of_nothing (hquiet : info.cls ∉ quietClasses)
    (hcls : info.cls ≠ .chunk) (hkept : w.kept = []) (hnothing : w.evictable = []) :
    Pushed env ok w frame info calls (w.queueBlocked env mark frame info calls).1 ∨
      (w.queueBlocked env mark frame info calls).1 = w := by
  obtain hpushed | ⟨hfull, hevict⟩ := pushed_or_full_of_nothing hnothing
  · exact .inl hpushed
  have hqueue : w.queue = [] := (kept_eq_queue hnothing).symm.trans hkept
  have hforced : w.forceEvictOne mark = (w, false) := by
    simp only [forceEvictOne, hqueue]
  right
  simp only [queueBlocked, hfull, hevict]
  rcases keptClass_cases hquiet hcls with hclass | hclass | hclass | hclass
  all_goals simp only [hclass, hforced, Bool.false_eq_true, if_false]

end TuiFrameWriter

end Abtars
