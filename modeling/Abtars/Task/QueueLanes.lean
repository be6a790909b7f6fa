import Abtars.Task.Queue

/-!
# The lanes of the queue

What the queue holds is read as the list of its jobs' claims; each change of a lane is a
sublist, a permutation or a copy of it.
-/

namespace Abtars

open Lib

/-! ## Jobs of a queue -/

namespace CronQueue

variable {q : CronQueue} {lane : RunLane} {state : QueueLaneState}

theorem mem_claims {claim : RunClaim} :
    claim ∈ q.claims ↔ ∃ lane, claim ∈ (q.lane lane).claims := by
  rw [claims, List.mem_append]
  constructor
  · rintro (h | h)
    · exact ⟨.manual, h⟩
    · exact ⟨.scheduled, h⟩
  rintro ⟨lane, h⟩
  cases lane
  · exact .inl h
  · exact .inr h

theorem claims_setLane_sublist (h : state.claims.Sublist (q.lane lane).claims) :
    (q.setLane lane state).claims.Sublist q.claims := by
  cases lane
  · exact h.append (List.Sublist.refl _)
  · exact (List.Sublist.refl _).append h

theorem claims_setLane_perm {claim : RunClaim}
    (h : state.claims.Perm (claim :: (q.lane lane).claims)) :
    (q.setLane lane state).claims.Perm (claim :: q.claims) := by
  cases lane
  · exact h.append_right _
  · exact (h.append_left _).trans List.perm_middle

theorem claims_congr {q' : CronQueue} (h : ∀ lane, (q'.lane lane).claims = (q.lane lane).claims) :
    q'.claims = q.claims := by
  have hmanual : q'.manual.claims = q.manual.claims := h .manual
  have hscheduled : q'.scheduled.claims = q.scheduled.claims := h .scheduled
  rw [claims, claims, hmanual, hscheduled]

theorem lane_unique (hsingle : (q.claims.map RunClaim.taskId).Nodup) {lane' : RunLane}
    {c d : RunClaim} (hc : c ∈ (q.lane lane).claims) (hd : d ∈ (q.lane lane').claims)
    (htask : c.taskId = d.taskId) : lane = lane' := by
  rw [claims, List.map_append, List.nodup_append] at hsingle
  obtain ⟨-, -, hdisjoint⟩ := hsingle
  cases lane <;> cases lane'
  · rfl
  · exact absurd htask (hdisjoint _ (List.mem_map_of_mem hc) _ (List.mem_map_of_mem hd))
  · exact absurd htask.symm (hdisjoint _ (List.mem_map_of_mem hd) _ (List.mem_map_of_mem hc))
  · rfl

theorem release_claims_sublist (q : CronQueue) (lane : RunLane) :
    (q.release lane).claims.Sublist q.claims :=
  claims_setLane_sublist (List.sublist_append_right _ _)

theorem lane_release_of_ne (q : CronQueue) {other : RunLane} (hne : other ≠ lane) :
    (q.release lane).lane other = q.lane other := lane_setLane_of_ne q _ hne

/-- **`findOccurrence` finds nothing exactly when the queue holds no job of the entry.** -/
theorem findOccurrence_eq_none_iff (q : CronQueue) (entryId : String) :
    q.findOccurrence entryId = none ↔ ∀ c ∈ q.claims, c.taskId ≠ entryId := by
  have hlane : ∀ lane, ((if (q.lane lane).current.any (·.entryId = entryId) then
        some OccurrencePlace.current
      else if (q.lane lane).pending.any (·.entry.id = entryId) then some .pending
      else none) = none) ↔ ∀ c ∈ (q.lane lane).claims, c.taskId ≠ entryId := by
    intro lane
    rcases hstate : q.lane lane with ⟨current, pending⟩
    cases current with
    | none => simp [QueueLaneState.claims, QueuedJob.claim]
    | some job =>
      by_cases hjob : job.entryId = entryId
      · simp [QueueLaneState.claims, RunningJob.claim, hjob]
      · simp [QueueLaneState.claims, RunningJob.claim, QueuedJob.claim, hjob]
  rw [findOccurrence, List.findSome?_eq_none_iff]
  constructor
  · intro h c hc
    obtain ⟨lane, hmem⟩ := mem_claims.1 hc
    exact (hlane lane).1 (h lane (by cases lane <;> simp [runLanes])) c hmem
  · intro h lane _
    exact (hlane lane).2 fun c hc => h c (mem_claims.2 ⟨lane, hc⟩)

def Waits (q : CronQueue) (lane : RunLane) : Prop :=
  (q.lane lane).current = none ∧ (q.lane lane).pending ≠ []

theorem Waits.congr {q' : CronQueue} (h : q'.Waits lane) (hsame : q'.lane lane = q.lane lane) :
    q.Waits lane := by
  rwa [Waits, hsame] at h

end CronQueue

theorem QueueSystem.startJob_eq {s : QueueSystem} {lane : RunLane} {job : QueuedJob}
    (type : RunnerKind) (howns : ownsReservation s.db job.claim = true) :
    s.startJob lane type job =
      { s with
        queue := s.queue.setLane lane { s.queue.lane lane with
          current := some ⟨job.entry.id, type, job.reservation.runId, lane⟩ }
        started := ⟨job.claim, lane⟩ :: s.started
        frames := .starting lane job :: s.frames } := by
  unfold QueueSystem.startJob
  rw [if_pos howns]
  rfl

end Abtars
