import Mathlib.Data.List.Chain
import Mathlib.Data.List.Flatten
import Abtars.Lib.Run
import Abtars.Tui.Queueing

/-!
# The frames of a stream, in sequence

Of the frames that a writer sends three things are said stream by stream: they carry the calls of
`enqueue` in order, a truncated stream has one end, and none of its text comes after that.
-/

namespace Abtars

open Lib

variable {id : String}

/-! ## Frames of a stream -/

def streamOf : TuiServerFrame → Option String
  | .streamStart id _ => some id
  | .chunk id _ _ _ => some id
  | .chunkEnd id _ _ => some id
  | .toolStart id _ _ => some id
  | _ => none

def isTruncatedEnd (id : String) : TuiServerFrame → Bool
  | .chunkEnd id' _ (some .truncated) => id' = id
  | _ => false

def isDelta (id : String) : TuiServerFrame → Bool
  | .chunk id' _ _ _ => id' = id
  | _ => false

def deltaText (id : String) : TuiServerFrame → List (ChunkKind × Char)
  | .chunk id' _ kind delta => if id' = id then delta.toList.map fun c => (kind, c) else []
  | _ => []

abbrev SentFrame := TuiServerFrame × List Nat

def callsOf (id : String) (frames : List SentFrame) : List Nat :=
  frames.flatMap fun f => if streamOf f.1 = some id then f.2 else []

def textOf (id : String) (frames : List TuiServerFrame) : List (ChunkKind × Char) :=
  frames.flatMap (deltaText id)

def endsOf (id : String) (frames : List SentFrame) : Nat :=
  frames.countP fun f => isTruncatedEnd id f.1

def NothingAfterEnd (id : String) (frames : List SentFrame) : Prop :=
  frames.Pairwise fun a b => isTruncatedEnd id a.1 = true → isDelta id b.1 = false

def Backpressured (log : List SocketEvent) : Prop :=
  log.IsChain fun a b => ∀ frame calls, a = .write frame calls false → b = .drain

namespace TuiFrameWriter

def sent (w : TuiFrameWriter) : List SentFrame :=
  w.log.filterMap fun
    | .write frame calls _ => some (frame, calls)
    | .drain => none

def waiting (w : TuiFrameWriter) : List SentFrame :=
  w.queue.map fun q => (q.frame, q.calls)

/-- What is said of the frames of a writer: it waits for the drain after a refused write, the
frames of a stream reach the socket in the order of their calls, no text follows the end of a
truncated stream and there is no second end, and a stream of which text was dropped has its end
among the frames that were written or wait. -/
structure StreamsKept (w : TuiFrameWriter) : Prop where
  backpressured : Backpressured w.log
  inOrder : ∀ id, (callsOf id w.sent).Pairwise (· < ·)
  endedOnce : ∀ id, endsOf id w.sent ≤ 1 ∧ NothingAfterEnd id w.sent
  shortenedEnds : ∀ id, textOf id ((w.sent ++ w.waiting).map (·.1)) ≠ textOf id w.given →
    endsOf id (w.sent ++ w.waiting) = 1 ∧ NothingAfterEnd id (w.sent ++ w.waiting)

end TuiFrameWriter

/-! ## Lists of frames -/

/-- The frames of a list keep the order of the calls, and exactly the streams of a kind have
ended. -/
structure InSequence (ended : String → Prop) (calls : Nat) (frames : List SentFrame) : Prop where
  sorted : ∀ id, (callsOf id frames).Pairwise (· < ·)
  below : ∀ f ∈ frames, ∀ call ∈ f.2, call < calls
  once : ∀ id, ended id → endsOf id frames = 1
  never : ∀ id, ¬ ended id → endsOf id frames = 0
  after : ∀ id, NothingAfterEnd id frames

theorem callsOf_append (id : String) (frames more : List SentFrame) :
    callsOf id (frames ++ more) = callsOf id frames ++ callsOf id more :=
  List.flatMap_append

theorem callsOf_cons (id : String) (f : SentFrame) (frames : List SentFrame) :
    callsOf id (f :: frames) = (if streamOf f.1 = some id then f.2 else []) ++ callsOf id frames :=
  List.flatMap_cons

theorem textOf_append (id : String) (frames more : List TuiServerFrame) :
    textOf id (frames ++ more) = textOf id frames ++ textOf id more :=
  List.flatMap_append

theorem textOf_cons (id : String) (f : TuiServerFrame) (frames : List TuiServerFrame) :
    textOf id (f :: frames) = deltaText id f ++ textOf id frames :=
  List.flatMap_cons

theorem endsOf_append (id : String) (frames more : List SentFrame) :
    endsOf id (frames ++ more) = endsOf id frames + endsOf id more :=
  List.countP_append

theorem endsOf_cons (id : String) (f : SentFrame) (frames : List SentFrame) :
    endsOf id (f :: frames) = endsOf id frames + if isTruncatedEnd id f.1 then 1 else 0 :=
  List.countP_cons

theorem deltaText_of_not_delta {frame : TuiServerFrame}
    (h : isDelta id frame = false) : deltaText id frame = [] := by
  cases frame <;> simp_all [isDelta, deltaText]

theorem textOf_eq_nil {frames : List TuiServerFrame}
    (h : ∀ f ∈ frames, streamOf f ≠ some id) : textOf id frames = [] := by
  rw [textOf, List.flatMap_eq_nil_iff]
  intro f hf
  have hstream := h f hf
  cases f <;> simp_all [deltaText, streamOf]

theorem callsOf_eq_nil {frames : List SentFrame}
    (h : ∀ f ∈ frames, streamOf f.1 ≠ some id) : callsOf id frames = [] := by
  rw [callsOf, List.flatMap_eq_nil_iff]
  intro f hf
  rw [if_neg (h f hf)]

theorem mem_callsOf {frames : List SentFrame} {call : Nat}
    (h : call ∈ callsOf id frames) : ∃ f ∈ frames, call ∈ f.2 := by
  obtain ⟨f, hf, hcall⟩ := List.mem_flatMap.mp h
  split at hcall
  · exact ⟨f, hf, hcall⟩
  · cases hcall

namespace InSequence

variable {ended : String → Prop} {calls : Nat} {frames before after : List SentFrame}
  {f : SentFrame}

theorem ended_of_mem (h : InSequence ended calls frames) (hf : f ∈ frames)
    (hend : isTruncatedEnd id f.1 = true) : ended id := by
  by_contra hnot
  have hnone := h.never id hnot
  rw [endsOf, List.countP_eq_zero] at hnone
  exact hnone f hf hend

theorem mono (h : InSequence ended calls frames) {more : Nat} (hle : calls ≤ more) :
    InSequence ended more frames where
  sorted := h.sorted
  below := fun f hf call hcall => Nat.lt_of_lt_of_le (h.below f hf call hcall) hle
  once := h.once
  never := h.never
  after := h.after

theorem congr (h : InSequence ended calls frames) {ended' : String → Prop}
    (heq : ∀ id, ended' id ↔ ended id) : InSequence ended' calls frames where
  sorted := h.sorted
  below := h.below
  once := fun id hid => h.once id ((heq id).mp hid)
  never := fun id hid => h.never id fun h' => hid ((heq id).mpr h')
  after := h.after

theorem remove (h : InSequence ended calls (before ++ f :: after))
    (hend : ∀ id, isTruncatedEnd id f.1 = false) : InSequence ended calls (before ++ after) := by
  have hsub : (before ++ after).Sublist (before ++ f :: after) :=
    (List.sublist_cons_self f after).append_left before
  have hends : ∀ id, endsOf id (before ++ after) = endsOf id (before ++ f :: after) := by
    intro id
    simp [endsOf_append, endsOf_cons, hend id]
  exact {
    sorted := fun id => (h.sorted id).sublist (hsub.flatMap _)
    below := fun g hg => h.below g (hsub.subset hg)
    once := fun id hid => (hends id).trans (h.once id hid)
    never := fun id hid => (hends id).trans (h.never id hid)
    after := fun id => (h.after id).sublist hsub }

/-- The next call is of a frame that is not an end, of a stream that has not ended. -/
theorem append (h : InSequence ended calls frames) {frame : TuiServerFrame}
    (hend : ∀ id, isTruncatedEnd id frame = false)
    (hopen : ∀ id, isDelta id frame = true → ¬ ended id) :
    InSequence ended (calls + 1) (frames ++ [(frame, [calls])]) where
  sorted := by
    intro id
    rw [callsOf_append, List.pairwise_append]
    refine ⟨h.sorted id, ?_, ?_⟩
    · rw [callsOf_cons]
      split <;> simp [callsOf]
    intro x hx y hy
    obtain ⟨f, hf, hcall⟩ := mem_callsOf hx
    obtain ⟨g, hg, hcall'⟩ := mem_callsOf hy
    obtain rfl := List.mem_singleton.mp hg
    obtain rfl := List.mem_singleton.mp hcall'
    exact h.below f hf x hcall
  below := by
    intro f hf call hcall
    rcases List.mem_append.mp hf with hf | hf
    · exact Nat.lt_succ_of_lt (h.below f hf call hcall)
    · obtain rfl := List.mem_singleton.mp hf
      obtain rfl := List.mem_singleton.mp hcall
      exact Nat.lt_succ_self _
  once := fun id hid => by simpa [endsOf_append, endsOf_cons, endsOf, hend id] using h.once id hid
  never := fun id hid => by
    simpa [endsOf_append, endsOf_cons, endsOf, hend id] using h.never id hid
  after := by
    intro id
    rw [NothingAfterEnd, List.pairwise_append]
    refine ⟨h.after id, List.pairwise_singleton _ _, ?_⟩
    intro f hf g hg hended
    obtain rfl := List.mem_singleton.mp hg
    rw [Bool.eq_false_iff]
    exact fun hdelta => hopen id hdelta (h.ended_of_mem hf hended)

/-- The end of a stream that has not ended. -/
theorem appendEnd (h : InSequence ended calls frames) {id : String} (hopen : ¬ ended id)
    (executionId : Option String) :
    InSequence (fun id' => ended id' ∨ id' = id) calls
      (frames ++ [(.chunkEnd id executionId (some .truncated), [])]) where
  sorted := by
    intro id'
    simpa [callsOf_append, callsOf_cons, callsOf] using h.sorted id'
  below := by
    intro f hf call hcall
    rcases List.mem_append.mp hf with hf | hf
    · exact h.below f hf call hcall
    · obtain rfl := List.mem_singleton.mp hf
      cases hcall
  once := by
    intro id' hid'
    by_cases heq : id = id'
    · subst heq
      simpa [endsOf_append, endsOf_cons, endsOf, isTruncatedEnd] using h.never id hopen
    · have hended := hid'.resolve_right (Ne.symm heq)
      simpa [endsOf_append, endsOf_cons, endsOf, isTruncatedEnd, heq] using h.once id' hended
  never := by
    intro id' hid'
    rw [not_or] at hid'
    simpa [endsOf_append, endsOf_cons, endsOf, isTruncatedEnd, Ne.symm hid'.2] using
      h.never id' hid'.1
  after := by
    intro id'
    rw [NothingAfterEnd, List.pairwise_append]
    refine ⟨h.after id', List.pairwise_singleton _ _, ?_⟩
    intro f _ g hg _
    obtain rfl := List.mem_singleton.mp hg
    rfl

/-- A frame in the place of an older one, with no frame of its stream behind it. -/
theorem exchange (h : InSequence ended calls (before ++ f :: after)) {frame : TuiServerFrame}
    {carried : List Nat} (hold : ∀ id, isTruncatedEnd id f.1 = false)
    (hend : ∀ id, isTruncatedEnd id frame = false)
    (hdelta : ∀ id, isDelta id frame = true → isDelta id f.1 = true)
    (hlast : ∀ id, streamOf frame = some id → ∀ g ∈ after, streamOf g.1 ≠ some id)
    (hcarried : carried = [calls] ∨ (carried = f.2 ++ [calls] ∧ streamOf frame = streamOf f.1)) :
    InSequence ended (calls + 1) (before ++ (frame, carried) :: after) where
  sorted := by
    intro id
    have hsorted := h.sorted id
    rw [callsOf_append, callsOf_cons] at hsorted ⊢
    by_cases hstream : streamOf frame = some id
    · rw [callsOf_eq_nil (hlast id hstream), List.append_nil, if_pos hstream]
      have hnext : ∀ front : List Nat, front.Pairwise (· < ·) →
          (∀ x ∈ front, ∃ g ∈ before ++ f :: after, x ∈ g.2) →
          (front ++ [calls]).Pairwise (· < ·) := by
        intro front hfront hmem
        rw [List.pairwise_append]
        refine ⟨hfront, List.pairwise_singleton _ _, fun x hx y hy => ?_⟩
        obtain rfl := List.mem_singleton.mp hy
        obtain ⟨g, hg, hcall⟩ := hmem x hx
        exact h.below g hg x hcall
      have hbefore : ∀ x ∈ callsOf id before, ∃ g ∈ before ++ f :: after, x ∈ g.2 := by
        intro x hx
        obtain ⟨g, hg, hcall⟩ := mem_callsOf hx
        exact ⟨g, List.mem_append_left _ hg, hcall⟩
      rcases hcarried with rfl | ⟨rfl, hsame⟩
      · exact hnext _ (hsorted.sublist (List.sublist_append_left _ _)) hbefore
      rw [← List.append_assoc]
      rw [if_pos (hsame.symm.trans hstream), ← List.append_assoc] at hsorted
      refine hnext _ (hsorted.sublist (List.sublist_append_left _ _)) fun x hx => ?_
      rcases List.mem_append.mp hx with hx | hx
      · exact hbefore x hx
      · exact ⟨f, by simp, hx⟩
    · rw [if_neg hstream, List.nil_append]
      exact hsorted.sublist ((List.sublist_append_right _ _).append_left _)
  below := by
    intro g hg call hcall
    rcases List.mem_append.mp hg with hg | hg
    · exact Nat.lt_succ_of_lt (h.below g (List.mem_append_left _ hg) call hcall)
    rcases List.mem_cons.mp hg with rfl | hg
    · rcases hcarried with rfl | ⟨rfl, _⟩
      · obtain rfl := List.mem_singleton.mp hcall
        exact Nat.lt_succ_self _
      rcases List.mem_append.mp hcall with hcall | hcall
      · exact Nat.lt_succ_of_lt (h.below f (by simp) call hcall)
      · obtain rfl := List.mem_singleton.mp hcall
        exact Nat.lt_succ_self _
    · exact Nat.lt_succ_of_lt (h.below g (by simp [hg]) call hcall)
  once := fun id hid => by simpa [endsOf_append, endsOf_cons, hold id, hend id] using h.once id hid
  never := fun id hid => by
    simpa [endsOf_append, endsOf_cons, hold id, hend id] using h.never id hid
  after := by
    intro id
    have hafter := h.after id
    rw [NothingAfterEnd, List.pairwise_append, List.pairwise_cons] at hafter ⊢
    obtain ⟨hbefore, ⟨_, hrest⟩, hcross⟩ := hafter
    refine ⟨hbefore, ⟨fun g _ hended => ?_, hrest⟩, fun a ha g hg hended => ?_⟩
    · rw [hend id] at hended
      cases hended
    rcases List.mem_cons.mp hg with rfl | hg
    · have hfrom := hcross a ha f List.mem_cons_self hended
      rw [Bool.eq_false_iff] at hfrom ⊢
      exact fun hdelta' => hfrom (hdelta id hdelta')
    · exact hcross a ha g (List.mem_cons_of_mem f hg) hended

theorem insert (h : InSequence ended calls (before ++ after)) {frame : TuiServerFrame}
    (hstream : streamOf frame = none) (hend : ∀ id, isTruncatedEnd id frame = false)
    (hdelta : ∀ id, isDelta id frame = false) :
    InSequence ended calls (before ++ (frame, []) :: after) where
  sorted := fun id => by
    simpa [callsOf_append, callsOf_cons, hstream] using h.sorted id
  below := by
    intro f hf call hcall
    rcases List.mem_append.mp hf with hf | hf
    · exact h.below f (List.mem_append_left _ hf) call hcall
    rcases List.mem_cons.mp hf with rfl | hf
    · cases hcall
    · exact h.below f (List.mem_append_right _ hf) call hcall
  once := fun id hid => by simpa [endsOf_append, endsOf_cons, hend id] using h.once id hid
  never := fun id hid => by simpa [endsOf_append, endsOf_cons, hend id] using h.never id hid
  after := by
    intro id
    have hafter := h.after id
    rw [NothingAfterEnd, List.pairwise_append] at hafter ⊢
    rw [List.pairwise_cons]
    refine ⟨hafter.1, ⟨fun g _ hended => ?_, hafter.2.1⟩, fun a ha g hg hended => ?_⟩
    · rw [hend id] at hended
      cases hended
    · rcases List.mem_cons.mp hg with rfl | hg
      · exact hdelta id
      · exact hafter.2.2 a ha g hg hended

end InSequence

end Abtars
