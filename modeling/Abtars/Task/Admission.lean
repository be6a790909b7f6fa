import Abtars.Task.Deferral
import Abtars.Task.QueueLanes

/-!
# Admission keeps live reservations

* one lemma for each thing the machine does, `sound_queueStep` for all of them.
-/

namespace Abtars

open Lib

/-! ## The invariant -/

def Pumps (frames : List QueueFrame) (lane : RunLane) : Prop :=
  .processLane lane ∈ frames ∨ .startFailed lane ∈ frames

theorem Pumps.push {frames : List QueueFrame} {lane : RunLane} (h : Pumps frames lane)
    (frame : QueueFrame) : Pumps (frame :: frames) lane :=
  h.imp (List.mem_cons_of_mem _) (List.mem_cons_of_mem _)

theorem Pumps.of_push {frames : List QueueFrame} {lane : RunLane} {frame : QueueFrame}
    (h : Pumps (frame :: frames) lane)
    (hother : frame ≠ .processLane lane ∧ frame ≠ .startFailed lane) : Pumps frames lane := by
  rcases h with hframe | hframe
  · exact .inl ((List.mem_cons.1 hframe).resolve_left hother.1.symm)
  · exact .inr ((List.mem_cons.1 hframe).resolve_left hother.2.symm)

structure AdmissionSound (s : QueueSystem) : Prop where
  store : RunStoreSound s.db
  drawn : ∀ c ∈ liveClaims s.db, c ∈ s.reserved
  /-- A run id names one claim. -/
  named : ∀ c ∈ s.reserved, ∀ d ∈ s.reserved, c.runId = d.runId → c = d
  queued : ∀ c ∈ s.queue.claims, c ∈ s.reserved
  framed : ∀ lane job, .starting lane job ∈ s.frames → job.claim ∈ s.reserved
  startedReserved : ∀ call ∈ s.started, call.claim ∈ s.reserved
  single : (s.queue.claims.map RunClaim.taskId).Nodup
  tracked : ∀ call ∈ s.started, call.claim ∈ liveClaims s.db →
    (s.queue.lane call.lane).current.map RunningJob.claim = some call.claim
  once : (s.started.map (·.claim.runId)).Nodup
  pumped : ∀ lane, s.queue.Waits lane → Pumps s.frames lane

namespace AdmissionSound

variable {s : QueueSystem}

/-- A write to the store, with the claims it reserves recorded. -/
theorem write (h : AdmissionSound s) {db : Db} (hwrites : StoreWrites s.reserved s.db db)
    (extra : List RunClaim) (hextra : ∀ c ∈ extra, c ∈ liveClaims db)
    (hdrawn : ∀ c ∈ liveClaims db, c ∈ extra ∨ c ∈ s.reserved) :
    AdmissionSound { s with db := db, reserved := extra ++ s.reserved } where
  store := hwrites.sound
  drawn := by
    intro c hc
    exact List.mem_append.2 (hdrawn c hc)
  named := by
    -- a claim reserved now and one reserved before have different run ids
    have hmixed : ∀ c ∈ extra, ∀ d ∈ s.reserved, c.runId = d.runId → c = d := by
      intro c hc d hd hid
      rcases hwrites.fresh c (hextra c hc) with hold | hnew
      · exact h.named c (h.drawn c hold) d hd hid
      · exact absurd hid.symm (hnew d hd)
    intro c hc d hd hid
    rcases List.mem_append.1 hc with hc | hc
    · rcases List.mem_append.1 hd with hd | hd
      · exact claim_eq_of_runId (hextra c hc) (hextra d hd) hid
      · exact hmixed c hc d hd hid
    · rcases List.mem_append.1 hd with hd | hd
      · exact (hmixed d hd c hc hid.symm).symm
      · exact h.named c hc d hd hid
  queued := fun c hc => List.mem_append_right _ (h.queued c hc)
  framed := fun lane job hframe => List.mem_append_right _ (h.framed lane job hframe)
  startedReserved := fun call hcall => List.mem_append_right _ (h.startedReserved call hcall)
  single := h.single
  tracked := by
    intro call hcall hlive
    rcases hwrites.fresh call.claim hlive with hold | hnew
    · exact h.tracked call hcall hold
    · exact absurd rfl (hnew call.claim (h.startedReserved call hcall))
  once := h.once
  pumped := h.pumped

theorem reframe (h : AdmissionSound s) {frames : List QueueFrame}
    (hframed : ∀ lane job, .starting lane job ∈ frames → .starting lane job ∈ s.frames)
    (hpumped : ∀ lane, s.queue.Waits lane → Pumps s.frames lane → Pumps frames lane) :
    AdmissionSound { s with frames := frames } :=
  { h with
    framed := fun lane job hframe => h.framed lane job (hframed lane job hframe)
    pumped := fun lane hwaits => hpumped lane hwaits (h.pumped lane hwaits) }

/-- A lane is freed of a job whose run is over, and processed next. -/
theorem release (h : AdmissionSound s) (lane : RunLane)
    (hended : ∀ job, (s.queue.lane lane).current = some job → job.claim ∉ liveClaims s.db) :
    AdmissionSound ({ s with queue := s.queue.release lane }.push (.processLane lane)) where
  store := h.store
  drawn := h.drawn
  named := h.named
  queued := fun c hc => h.queued c ((s.queue.release_claims_sublist lane).subset hc)
  framed := by
    intro other job hframe
    rcases List.mem_cons.1 hframe with heq | hframe
    · cases heq
    · exact h.framed other job hframe
  startedReserved := h.startedReserved
  single := h.single.sublist ((s.queue.release_claims_sublist lane).map _)
  tracked := by
    intro call hcall hlive
    have htracked := h.tracked call hcall hlive
    by_cases hlane : call.lane = lane
    · -- the job that went would be a live one
      obtain ⟨job, hjob, hclaim⟩ := Option.map_eq_some_iff.1 (hlane ▸ htracked)
      exact absurd (hclaim ▸ hlive) (hended job hjob)
    · show (((s.queue.release lane).lane call.lane).current.map RunningJob.claim) = _
      rw [CronQueue.lane_release_of_ne s.queue hlane]
      exact htracked
  once := h.once
  pumped := by
    intro other hwaits
    by_cases hlane : other = lane
    · subst hlane
      exact .inl List.mem_cons_self
    · have hbefore : s.queue.Waits other :=
        CronQueue.Waits.congr hwaits (CronQueue.lane_release_of_ne s.queue hlane)
      exact (h.pumped other hbefore).push _

theorem notified (h : AdmissionSound s) {runId : String}
    (hended : ∀ c ∈ liveClaims s.db, c.runId ≠ runId) : AdmissionSound (s.onRunTerminal runId) := by
  unfold QueueSystem.onRunTerminal
  split
  · rename_i lane hfind
    have hcurrent : (s.queue.lane lane).current.any (·.runId = runId) = true := by
      simpa using List.find?_some hfind
    apply h.release
    intro job hjob hlive
    rw [hjob] at hcurrent
    exact hended job.claim hlive (of_decide_eq_true hcurrent)
  · apply h.reframe
    · intro lane job hframe
      rcases List.mem_append.1 hframe with hpump | hframe
      · obtain ⟨_, -, heq⟩ := List.mem_map.1 hpump
        cases heq
      · exact hframe
    · intro lane _ hpumps
      exact hpumps.imp (List.mem_append_right _) (List.mem_append_right _)

/-- **A settlement by the queue**, with the notification it ends in. -/
theorem settle (h : AdmissionSound s) (host : CronHost) (now : Millis) {opts : SettleOptions}
    (hclaim : opts.claim ∈ s.reserved) : AdmissionSound (s.settle host now opts) := by
  have hkept := liveClaims_settleRunOnce host.toSettlerHost now opts s.db
  have hended := settleRunOnce_ended host.toSettlerHost now opts h.store
  have hwrites : StoreWrites s.reserved s.db (settleRunOnce host.toSettlerHost now opts s.db).2 :=
    ⟨h.store.settle host.toSettlerHost now opts, fun c hc => .inl (hkept c hc)⟩
  have hsettled := h.write hwrites [] (by simp) fun c hc =>
    .inr (h.drawn c (hkept c hc))
  unfold QueueSystem.settle
  rcases hresult : settleRunOnce host.toSettlerHost now opts s.db with ⟨result, db⟩
  rw [hresult] at hended hsettled
  have hover : result ≠ .duplicate → ∀ c ∈ liveClaims db, c.runId ≠ opts.run.runId := by
    intro hnotifies c hc hid
    have hsame : c = opts.claim := h.named c (hsettled.drawn c hc) opts.claim hclaim hid
    exact hended hnotifies (hsame ▸ hc)
  cases result with
  | duplicate => exact hsettled
  | settled => exact hsettled.notified (hover (by decide))
  | late => exact hsettled.notified (hover (by decide))

/-- A job of an entry the queue does not hold is admitted. -/
theorem admitJob (h : AdmissionSound s) {entry : QueueEntry} {run : TaskRunRow}
    (hclaim : ⟨entry.id, run.runId⟩ ∈ s.reserved)
    (hnone : s.queue.findOccurrence entry.id = none) : AdmissionSound (s.admitJob entry run) := by
  have hnew := (s.queue.findOccurrence_eq_none_iff entry.id).1 hnone
  have hperm : (s.admitJob entry run).queue.claims.Perm (⟨entry.id, run.runId⟩ :: s.queue.claims) := by
    apply CronQueue.claims_setLane_perm
    have hinsert := (insertByPriority_perm ⟨entry, run⟩
      (s.queue.lane run.trigger.lane).pending).map QueuedJob.claim
    exact (hinsert.append_left _).trans List.perm_middle
  have hcurrent : ∀ lane, ((s.admitJob entry run).queue.lane lane).current =
      (s.queue.lane lane).current := by
    intro lane
    by_cases hlane : lane = run.trigger.lane
    · subst hlane
      simp [QueueSystem.admitJob, QueueSystem.push]
    · exact congrArg QueueLaneState.current (CronQueue.lane_setLane_of_ne s.queue _ hlane)
  exact
    { store := h.store
      drawn := h.drawn
      named := h.named
      queued := by
        intro c hc
        rcases List.mem_cons.1 (hperm.subset hc) with rfl | hc
        · exact hclaim
        · exact h.queued c hc
      framed := by
        intro lane job hframe
        rcases List.mem_cons.1 hframe with heq | hframe
        · cases heq
        · exact h.framed lane job hframe
      startedReserved := h.startedReserved
      single := by
        rw [(hperm.map RunClaim.taskId).nodup_iff, List.map_cons, List.nodup_cons]
        refine ⟨fun hmem => ?_, h.single⟩
        obtain ⟨c, hc, htask⟩ := List.mem_map.1 hmem
        exact hnew c hc htask
      tracked := by
        intro call hcall hlive
        rw [hcurrent]
        exact h.tracked call hcall hlive
      once := h.once
      pumped := by
        intro lane hwaits
        by_cases hlane : lane = run.trigger.lane
        · subst hlane
          exact .inl List.mem_cons_self
        · have hbefore : s.queue.Waits lane :=
            CronQueue.Waits.congr hwaits (CronQueue.lane_setLane_of_ne s.queue _ hlane)
          exact (h.pumped lane hbefore).push _ }

section Take

variable {lane : RunLane} {job : QueuedJob} {rest : List QueuedJob}

theorem mem_lane_of_pending (hlane : s.queue.lane lane = ⟨none, job :: rest⟩) :
    job.claim ∈ (s.queue.lane lane).claims := by
  rw [hlane]
  exact List.mem_cons_self

theorem take (h : AdmissionSound (s.push (.processLane lane)))
    (hlane : s.queue.lane lane = ⟨none, job :: rest⟩) :
    AdmissionSound ({ s with queue := s.queue.setLane lane ⟨none, rest⟩ }.push
      (.processLane lane)) := by
  have hsublist : (s.queue.setLane lane ⟨none, rest⟩).claims.Sublist s.queue.claims := by
    apply CronQueue.claims_setLane_sublist
    rw [hlane]
    exact List.sublist_cons_self _ _
  exact
    { h with
      queued := fun c hc => h.queued c (hsublist.subset hc)
      single := h.single.sublist (hsublist.map _)
      tracked := by
        intro call hcall hlive
        have htracked := h.tracked call hcall hlive
        by_cases hother : call.lane = lane
        · rw [hother] at htracked
          change (s.queue.lane lane).current.map _ = _ at htracked
          rw [hlane] at htracked
          cases htracked
        · show ((s.queue.setLane lane _).lane call.lane).current.map _ = _
          rw [CronQueue.lane_setLane_of_ne s.queue _ hother]
          exact htracked
      pumped := by
        intro other hwaits
        by_cases hother : other = lane
        · subst hother
          exact .inl List.mem_cons_self
        · exact h.pumped other
            (CronQueue.Waits.congr hwaits (CronQueue.lane_setLane_of_ne s.queue _ hother)) }

/-- **A run is started once.**  An earlier start of the same run would still be the
current job of its lane, of the same entry. -/
theorem not_started (h : AdmissionSound (s.push (.processLane lane)))
    (hlane : s.queue.lane lane = ⟨none, job :: rest⟩) (hlive : job.claim ∈ liveClaims s.db) :
    ∀ call ∈ s.started, call.claim.runId ≠ job.claim.runId := by
  intro call hcall hid
  have hmem := mem_lane_of_pending hlane
  have hjob : job.claim ∈ s.reserved := h.queued _ (CronQueue.mem_claims.2 ⟨lane, hmem⟩)
  have hsame : call.claim = job.claim := h.named _ (h.startedReserved call hcall) _ hjob hid
  have htracked : (s.queue.lane call.lane).current.map RunningJob.claim = some call.claim :=
    h.tracked call hcall (by rw [hsame]; exact hlive)
  obtain ⟨current, hcurrent, hclaim⟩ := Option.map_eq_some_iff.1 htracked
  have hmem' : call.claim ∈ (s.queue.lane call.lane).claims := by
    rw [QueueLaneState.claims, hcurrent, ← hclaim]
    exact List.mem_cons_self
  -- the entry would be in two places
  have hunique := CronQueue.lane_unique h.single hmem' hmem (congrArg RunClaim.taskId hsame)
  rw [hunique, hlane] at hcurrent
  cases hcurrent

theorem lane_of_start (q : CronQueue) (lane other : RunLane) (current : RunningJob)
    (rest : List QueuedJob) :
    ((q.setLane lane ⟨none, rest⟩).setLane lane
        { (q.setLane lane ⟨none, rest⟩).lane lane with current := some current }).lane other =
      if other = lane then ⟨some current, rest⟩ else q.lane other := by
  by_cases hother : other = lane
  · rw [if_pos hother, hother, CronQueue.lane_setLane, CronQueue.lane_setLane]
  · rw [if_neg hother, CronQueue.lane_setLane_of_ne _ _ hother,
      CronQueue.lane_setLane_of_ne _ _ hother]

theorem start (h : AdmissionSound (s.push (.processLane lane)))
    (hlane : s.queue.lane lane = ⟨none, job :: rest⟩) (type : RunnerKind)
    (howns : ownsReservation s.db job.claim = true) :
    AdmissionSound ({ s with queue := s.queue.setLane lane ⟨none, rest⟩ }.startJob lane type job) := by
  have hlive : job.claim ∈ liveClaims s.db := (ownsReservation_iff h.store).1 howns
  have hjob : job.claim ∈ s.reserved :=
    h.queued _ (CronQueue.mem_claims.2 ⟨lane, mem_lane_of_pending hlane⟩)
  rw [QueueSystem.startJob_eq (s := { s with queue := s.queue.setLane lane ⟨none, rest⟩ }) type howns]
  have hlanes := fun other => lane_of_start s.queue lane other
    ⟨job.entry.id, type, job.reservation.runId, lane⟩ rest
  generalize (s.queue.setLane lane ⟨none, rest⟩).setLane lane _ = q at hlanes
  have hclaims : q.claims = s.queue.claims := by
    apply CronQueue.claims_congr
    intro other
    rw [hlanes]
    split
    · rename_i hother
      rw [hother, hlane]
      rfl
    · rfl
  exact
    { h with
      queued := by
        rw [hclaims]
        exact h.queued
      framed := by
        intro other next hframe
        rcases List.mem_cons.1 hframe with heq | hframe
        · cases heq
          exact hjob
        · exact h.framed other next (List.mem_cons_of_mem _ hframe)
      startedReserved := List.forall_mem_cons.2 ⟨hjob, h.startedReserved⟩
      single := hclaims ▸ h.single
      tracked := by
        intro call hcall hcallLive
        rw [hlanes]
        rcases List.mem_cons.1 hcall with rfl | hcall
        · rw [if_pos rfl]
          rfl
        have htracked : (s.queue.lane call.lane).current.map RunningJob.claim =
            some call.claim := h.tracked call hcall hcallLive
        have hother : call.lane ≠ lane := by
          intro heq
          rw [heq, hlane] at htracked
          cases htracked
        rw [if_neg hother]
        exact htracked
      once := by
        rw [List.map_cons, List.nodup_cons]
        refine ⟨fun hmem => ?_, h.once⟩
        obtain ⟨call, hcall, hid⟩ := List.mem_map.1 hmem
        exact not_started h hlane hlive call hcall hid
      pumped := by
        intro other hwaits
        have hother : other ≠ lane := by
          intro heq
          have hcurrent := hwaits.1
          rw [hlanes, if_pos heq] at hcurrent
          cases hcurrent
        have hbefore : s.queue.Waits other :=
          CronQueue.Waits.congr hwaits (by rw [hlanes, if_neg hother])
        -- the frame that went was the pump of this lane
        exact ((h.pumped other hbefore).of_push (by simpa using hother.symm)).push _ }

end Take

/-- **`processLane`**: its frame is gone, and the lane is busy, empty or still on the stack. -/
theorem processLane {lane : RunLane} (h : AdmissionSound (s.push (.processLane lane)))
    (host : CronHost) (now : Millis) : AdmissionSound (s.processLane host now lane) := by
  unfold QueueSystem.processLane
  split
  · rename_i job rest hcurrent hpending
    have hlane : s.queue.lane lane = ⟨none, job :: rest⟩ := by
      rw [← hcurrent, ← hpending]
    have hjob : job.claim ∈ s.reserved :=
      h.queued _ (CronQueue.mem_claims.2 ⟨lane, mem_lane_of_pending hlane⟩)
    have htaken := h.take hlane
    unfold QueueSystem.processJob
    split
    · rename_i howns
      split
      · exact htaken.settle host now hjob
      · exact h.start hlane _ howns
    · exact htaken
  · rename_i hbusy
    apply h.reframe
    · intro other job hframe
      exact List.mem_cons_of_mem _ hframe
    intro other hwaits hpumps
    have hother : lane ≠ other := by
      rintro rfl
      obtain ⟨job, rest, hpending⟩ := List.exists_cons_of_ne_nil hwaits.2
      exact hbusy job rest hwaits.1 hpending
    exact hpumps.of_push (by simpa using hother)

/-- **`enqueue`**, of a reservation made for the entry or of one it makes itself. -/
theorem enqueue (h : AdmissionSound s) (host : CronHost) {now : Millis} {entry : QueueEntry}
    {manual : Bool} {reservation : Option TaskRunRow} {runId : String}
    (henabled : s.Enabled (.enqueue now entry manual reservation runId)) :
    AdmissionSound (s.enqueue host now entry manual reservation runId).2 := by
  unfold QueueSystem.enqueue
  split
  · cases reservation with
    | none => exact h
    | some run => exact h.settle host now henabled.2
  rename_i hnone
  cases reservation with
  | some run => exact h.admitJob henabled.2 hnone
  | none =>
    dsimp only
    split
    · exact h
    rename_i db hreserve
    have hopen : (QueueSystem.entryReservation host now runId entry manual s.db).finishedAt =
        none := rfl
    obtain ⟨-, hclaims⟩ := reserveRun_claims hopen hreserve
    have hdraws : ∀ c ∈ s.reserved, c.runId ≠ runId := henabled.2
    have hwrites : StoreWrites s.reserved s.db db := by
      refine ⟨h.store.reserve hopen hreserve, fun c hc => ?_⟩
      rcases (hclaims c).1 hc with hold | rfl
      · exact .inl hold
      · exact .inr hdraws
    have hwritten := h.write hwrites
      [(QueueSystem.entryReservation host now runId entry manual s.db).claim]
      (fun c hc => (hclaims c).2 (.inr (List.mem_singleton.1 hc)))
      (fun c hc => ((hclaims c).1 hc).symm.imp List.mem_singleton.2 (h.drawn c))
    exact hwritten.admitJob List.mem_cons_self hnone

theorem startThrows (h : AdmissionSound s) (host : CronHost) (now : Millis) (message : String) :
    AdmissionSound (s.startThrows host now message) := by
  unfold QueueSystem.startThrows
  split
  · rename_i lane job frames hframes
    have hjob : job.claim ∈ s.reserved := h.framed lane job (by
      rw [hframes]
      exact List.mem_cons_self)
    have hpopped : AdmissionSound (s.pop.push (.startFailed lane)) := by
      apply h.reframe
      · intro other next hframe
        rcases List.mem_cons.1 hframe with heq | hframe
        · cases heq
        · exact List.mem_of_mem_tail hframe
      intro other _ hpumps
      show Pumps (.startFailed lane :: s.frames.tail) other
      rw [hframes] at hpumps ⊢
      exact (hpumps.of_push (by simp)).push _
    exact hpopped.settle host now hjob
  · exact h

end AdmissionSound

/-! ## Steps -/

def QueueSystem.failedLane (s : QueueSystem) : Option RunLane :=
  match s.frames with
  | .startFailed lane :: _ => some lane
  | _ => none

/-- The steps that keep clear of two oversights.  A reservation is not supplied while a job
of its entry is in the queue whose run is over, nor is one supplied that is in the queue
already; and a failed start frees its lane before another job was started there. -/
def KeepsOwners (s : QueueSystem) : QueueOp → Prop
  | .enqueue _ entry _ (some run) _ =>
    ∀ c ∈ s.queue.claims, c.taskId = entry.id → c.runId ≠ run.runId ∧ c ∈ liveClaims s.db
  | .resume _ =>
    ∀ lane ∈ s.failedLane, ∀ job ∈ (s.queue.lane lane).current, job.claim ∉ liveClaims s.db
  | _ => True

theorem sound_resume {s : QueueSystem} (h : AdmissionSound s) (host : CronHost) (now : Millis)
    (hkeeps : KeepsOwners s (.resume now)) : AdmissionSound (s.resume host now) := by
  unfold QueueSystem.resume
  split
  · rename_i lane frames hframes
    have hpushed : s.pop.push (.processLane lane) = s := by
      cases s
      simp_all [QueueSystem.pop, QueueSystem.push]
    exact AdmissionSound.processLane (hpushed.symm ▸ h) host now
  · rename_i lane frames hframes
    have hfailed : lane ∈ s.failedLane := by simp [QueueSystem.failedLane, hframes]
    have hreleased := h.release lane (hkeeps lane hfailed)
    apply hreleased.reframe
    · intro other job hframe
      rcases List.mem_cons.1 hframe with heq | hframe
      · cases heq
      · exact List.mem_cons_of_mem _ (List.mem_of_mem_tail hframe)
    intro other _ hpumps
    -- the lane whose frame goes is processed next
    by_cases hlane : other = lane
    · subst hlane
      exact .inl List.mem_cons_self
    have hold := hpumps.of_push (by simpa using Ne.symm hlane)
    rw [hframes] at hold
    have hrest := hold.of_push (by simpa using Ne.symm hlane)
    show Pumps (.processLane lane :: s.frames.tail) other
    rw [hframes]
    exact hrest.push _
  · exact h

theorem sound_queueStep (host : CronHost) (s : QueueSystem) (op : QueueOp)
    (h : AdmissionSound s) (hkeeps : KeepsOwners s op) : AdmissionSound (queueStep host s op) := by
  unfold queueStep
  split
  · rename_i henabled
    cases op with
    | enqueue now entry manual reservation runId => exact h.enqueue host henabled
    | store db =>
      exact h.write henabled.2 _ (fun c hc => hc) (fun c hc => .inl hc)
    | notify runId => exact h.notified henabled.2
    | startReturns =>
      apply h.reframe
      · intro lane job hframe
        exact List.mem_of_mem_tail hframe
      intro lane _ hpumps
      have hstart : s.inStart = true := henabled
      unfold QueueSystem.inStart at hstart
      split at hstart
      · rename_i frames hframes
        rw [hframes] at hpumps ⊢
        exact hpumps.of_push (by simp)
      · cases hstart
    | startThrows now message => exact h.startThrows host now message
    | resume now => exact sound_resume h host now hkeeps
  · exact h

section Starts

variable (host : CronHost) (now : Millis) (s : QueueSystem)

theorem started_onRunTerminal (runId : String) : (s.onRunTerminal runId).started = s.started := by
  unfold QueueSystem.onRunTerminal
  split <;> rfl

theorem started_settle (opts : SettleOptions) : (s.settle host now opts).started = s.started := by
  unfold QueueSystem.settle
  split
  · rfl
  · rw [started_onRunTerminal]

theorem started_enqueue (entry : QueueEntry) (manual : Bool) (reservation : Option TaskRunRow)
    (runId : String) :
    (s.enqueue host now entry manual reservation runId).2.started = s.started := by
  unfold QueueSystem.enqueue
  split
  · cases reservation with
    | none => rfl
    | some run => exact started_settle host now s _
  cases reservation with
  | some run => rfl
  | none =>
    dsimp only
    split <;> rfl

theorem started_startThrows (message : String) :
    (s.startThrows host now message).started = s.started := by
  unfold QueueSystem.startThrows
  split
  · rw [started_settle]
    rfl
  · rfl

theorem started_processLane (lane : RunLane) :
    ∀ call ∈ (s.processLane host now lane).started, call ∈ s.started ∨
      ownsReservation (s.processLane host now lane).db call.claim = true := by
  unfold QueueSystem.processLane
  split
  · unfold QueueSystem.processJob
    split
    · rename_i job rest _ _ howns
      split
      · rw [started_settle]
        exact fun call hcall => .inl hcall
      rw [QueueSystem.startJob_eq _ howns]
      intro call hcall
      rcases List.mem_cons.1 hcall with rfl | hold
      · exact .inr howns
      · exact .inl hold
    · exact fun call hcall => .inl hcall
  · exact fun call hcall => .inl hcall

end Starts

/-! ## What admission promises -/

/-- A supplied reservation is rejected only for another unfinished run of its entry. -/
def RejectsOnlyHeld (host : CronHost) (s : QueueSystem) : QueueOp → Prop
  | .enqueue now entry manual (some run) runId =>
    s.Enabled (.enqueue now entry manual (some run) runId) →
      (s.enqueue host now entry manual (some run) runId).1 ≠ none →
        ∃ c ∈ s.queue.claims, c.taskId = entry.id ∧ c.runId ≠ run.runId ∧ c ∈ liveClaims s.db
  | _ => True

/-- The state of the lanes: a lane runs one job, a run is started once, and with no call
under way nothing is pending in an idle lane. -/
structure LanesKept (s : QueueSystem) : Prop where
  oneRunning : ∀ a ∈ s.started, ∀ b ∈ s.started, a.lane = b.lane →
    a.claim ∈ liveClaims s.db → b.claim ∈ liveClaims s.db → a = b
  startedOnce : (s.started.map (·.claim.runId)).Nodup
  drained : s.frames = [] → ∀ lane, (s.queue.lane lane).current = none →
    (s.queue.lane lane).pending = []

structure AdmissionHolds (host : CronHost) (s : QueueSystem) (op : QueueOp) : Prop where
  rejects : RejectsOnlyHeld host s op
  starts : ∀ call ∈ (queueStep host s op).started, call ∈ s.started ∨
    ownsReservation (queueStep host s op).db call.claim = true
  lanes : LanesKept (queueStep host s op)

theorem AdmissionSound.lanesKept {s : QueueSystem} (h : AdmissionSound s) : LanesKept s where
  oneRunning := by
    intro a ha b hb hlane haLive hbLive
    have hboth := (h.tracked a ha haLive).symm.trans (hlane ▸ h.tracked b hb hbLive)
    cases a
    cases b
    simp_all
  startedOnce := h.once
  drained := by
    intro hframes lane hcurrent
    by_contra hpending
    rcases h.pumped lane ⟨hcurrent, hpending⟩ with hframe | hframe
    · rw [hframes] at hframe
      cases hframe
    · rw [hframes] at hframe
      cases hframe

theorem rejectsOnlyHeld_of_keeps (host : CronHost) {s : QueueSystem} {op : QueueOp}
    (hkeeps : KeepsOwners s op) : RejectsOnlyHeld host s op := by
  cases op with
  | enqueue now entry manual reservation runId =>
    cases reservation with
    | none => trivial
    | some run =>
      intro _ hrejected
      have hfound : s.queue.findOccurrence entry.id ≠ none := by
        intro hnone
        apply hrejected
        simp only [QueueSystem.enqueue, hnone]
      simp only [Ne, CronQueue.findOccurrence_eq_none_iff, not_forall, not_not] at hfound
      obtain ⟨c, hc, htask⟩ := hfound
      exact ⟨c, hc, htask, hkeeps c hc htask⟩
  | store | notify | startReturns | startThrows | resume => trivial

theorem started_queueStep (host : CronHost) (s : QueueSystem) (op : QueueOp) :
    ∀ call ∈ (queueStep host s op).started, call ∈ s.started ∨
      ownsReservation (queueStep host s op).db call.claim = true := by
  unfold queueStep
  split
  · cases op with
    | enqueue now entry manual reservation runId =>
      intro call hcall
      rw [QueueSystem.perform, started_enqueue] at hcall
      exact .inl hcall
    | store db => exact fun call hcall => .inl hcall
    | notify runId =>
      intro call hcall
      rw [QueueSystem.perform, started_onRunTerminal] at hcall
      exact .inl hcall
    | startReturns => exact fun call hcall => .inl hcall
    | startThrows now message =>
      intro call hcall
      rw [QueueSystem.perform, started_startThrows] at hcall
      exact .inl hcall
    | resume now =>
      simp only [QueueSystem.perform, QueueSystem.resume]
      split
      · exact started_processLane host now s.pop _
      · exact fun call hcall => .inl hcall
      · exact fun call hcall => .inl hcall
  · exact fun call hcall => .inl hcall

theorem sound_initial : AdmissionSound .initial where
  store := by decide
  drawn := by decide
  named := by decide
  queued := by decide
  framed := fun _ _ hframe => absurd hframe List.not_mem_nil
  startedReserved := by decide
  single := by decide
  tracked := by decide
  once := by decide
  pumped := by
    rintro (_ | _) hwaits
    · exact absurd rfl hwaits.2
    · exact absurd rfl hwaits.2

/-- **Admission keeps live reservations**, in every run that keeps clear of a dead job in
the queue and of a start that fails after another job took its lane. -/
theorem admission_keeps_reservations (host : CronHost) (ops : List QueueOp)
    (hkeeps : StepsMeet (queueStep host) KeepsOwners .initial ops) :
    StepsMeet (queueStep host) (AdmissionHolds host) .initial ops := by
  apply stepsMeet_of_kept (sound_queueStep host) _ ops _ sound_initial hkeeps
  intro s op hsound hop
  exact
    { rejects := rejectsOnlyHeld_of_keeps host hop
      starts := started_queueStep host s op
      lanes := (sound_queueStep host s op hsound hop).lanesKept }

/-! ### A dead job in the queue -/

instance (s : QueueSystem) : ∀ op, Decidable (KeepsOwners s op)
  | .enqueue _ _ _ (some _) _ => inferInstanceAs (Decidable (∀ c ∈ s.queue.claims, _))
  | .enqueue _ _ _ none _ => isTrue trivial
  | .resume _ => inferInstanceAs (Decidable (∀ lane ∈ s.failedLane, _))
  | .store _ | .notify _ | .startReturns | .startThrows _ _ => isTrue trivial

def nightlyEntry : QueueEntry := ⟨⟨"nightly", .script, none, none⟩, none, "nightly.sh"⟩

def dailyEntry : QueueEntry := ⟨⟨"daily", .script, none, none⟩, none, "daily.sh"⟩

def nightlyRun : TaskRunRow := reservedRun "n" "nightly" "g" 1 .schedule 0 0 1000

def dailyRun (runId : String) : TaskRunRow := reservedRun runId "daily" "g" 1 .schedule 0 0 1000

def twoTasks (runs : List TaskRunRow) : Db :=
  { Db.empty with
    taskRuns := Table.ofRows runs
    taskState := Table.ofRows [defaultTaskState "nightly", defaultTaskState "daily"] }

def dailyBehindNightly : List QueueOp :=
  [.store (twoTasks [nightlyRun, dailyRun "d1"]),
    .enqueue 1 nightlyEntry false (some nightlyRun) "", .resume 1, .startReturns,
    .enqueue 2 dailyEntry false (some (dailyRun "d1")) "", .resume 2]

/-- The nightly run ends, and the daily one is started. -/
theorem admission_keeps_reservations_two :
    StepsMeet (queueStep plainCron) (AdmissionHolds plainCron) .initial
      (dailyBehindNightly ++
        [.store (twoTasks [{ nightlyRun with finishedAt := some 3 }, dailyRun "d1"]),
          .notify "n", .resume 3, .startReturns]) :=
  admission_keeps_reservations plainCron _ (by decide +kernel)

/-- The queued daily run is settled elsewhere, and the next occurrence of the task is
rejected for it. -/
theorem live_reservation_rejected :
    ¬ ∀ ops, StepsMeet (queueStep plainCron) (AdmissionHolds plainCron) .initial ops := by
  intro hall
  have hrun := hall (dailyBehindNightly ++
    [.store (twoTasks [nightlyRun, { dailyRun "d1" with finishedAt := some 3 }, dailyRun "d2"]),
      .enqueue 4 dailyEntry false (some (dailyRun "d2")) ""])
  have hlast := ((stepsMeet_append dailyBehindNightly _ _).1 hrun).2.2.1
  have hheld := hlast.rejects (by decide +kernel) (by decide +kernel)
  exact absurd hheld (by decide +kernel)

end Abtars
