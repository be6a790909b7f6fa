import Abtars.Lib.Run
import Mathlib.Algebra.Order.Group.Int
import Mathlib.Data.List.MinMax
import Mathlib.Order.Lattice

/-!
# The lifecycle wake scheduler

One timer is armed for the earliest due item of the registered sources.  A scan wakes
every source that has an overdue item, again while changes are reported, and then arms
the timer.  Between two awaits the scheduler runs without interruption; each step below
is such a stretch, with the clock readings it takes.
-/

namespace Abtars

open Lib

inductive LifecycleDueSourceId
  | executorLease | kanbanRetry | taskAdmission | runDeadline
  deriving DecidableEq

structure LifecycleDueItem where
  key : String
  dueAt : Option Int

def maxTimeoutMs : Int := 2147483647
def maxScanPasses : Nat := 16
def rearmToleranceMs : Int := 1000

structure WakeTimer where
  armedAt : Int
  fireAt : Int

inductive ScanPhase
  | idle
  /-- A pass that read the clock at `now` awaits `wakeDue` of a source. -/
  | waking (id : LifecycleDueSourceId) (now : Int) (passes : Nat)
      (remaining : List LifecycleDueSourceId)
  /-- The pass is over, the loop has still to test for another. -/
  | passDone (now : Int) (passes : Nat)
  /-- The timer is armed, the promise of the scan has still to be cleared. -/
  | armed
  deriving DecidableEq

/-- `LifecycleWakeScheduler`.  Beside its fields: what each source lists (nothing where
listing throws), the wakes of the last scan with the clock they used, and whether a
reported change has had no pass begin after it. -/
structure WakeScheduler where
  sources : List LifecycleDueSourceId
  items : LifecycleDueSourceId → Option (List LifecycleDueItem)
  timer : Option WakeTimer
  stopped : Bool
  started : Bool
  rescan : Bool
  waking : List LifecycleDueSourceId
  phase : ScanPhase
  woken : List (LifecycleDueSourceId × Int)
  unanswered : Bool

def WakeScheduler.initial : WakeScheduler where
  sources := []
  items := fun _ => some []
  timer := none
  stopped := false
  started := false
  rescan := false
  waking := []
  phase := .idle
  woken := []
  unanswered := false

namespace WakeScheduler

def dueTimes (s : WakeScheduler) (id : LifecycleDueSourceId) : List Int :=
  ((s.items id).getD []).filterMap (·.dueAt)

/-- `overdueItems`: has the source any? -/
def isOverdue (s : WakeScheduler) (now : Int) (id : LifecycleDueSourceId) : Bool :=
  (s.dueTimes id).any (· ≤ now)

def nextOverdue (s : WakeScheduler) (now : Int) :
    List LifecycleDueSourceId → Option (LifecycleDueSourceId × List LifecycleDueSourceId)
  | [] => none
  | id :: rest =>
    if id ∉ s.waking ∧ s.isOverdue now id then some (id, rest) else s.nextOverdue now rest

variable (now : Int)

/-- `wakeOverdue`, up to the next `wakeDue` or to its end. -/
def continuePass (passes : Nat) (remaining : List LifecycleDueSourceId) (s : WakeScheduler) :
    WakeScheduler :=
  match s.nextOverdue now remaining with
  | some (id, rest) =>
    { s with
      phase := .waking id now passes rest
      waking := id :: s.waking
      woken := s.woken ++ [(id, now)] }
  | none => { s with phase := .passDone now passes }

/-- A turn of the loop in `scanPasses`. -/
def beginPass (passes : Nat) (s : WakeScheduler) : WakeScheduler :=
  continuePass now passes s.sources { s with rescan := false, unanswered := false }

/-- `scan`: one that is under way is asked for another pass. -/
def scan (s : WakeScheduler) : WakeScheduler :=
  if s.stopped then s
  else if s.phase ≠ .idle then { s with rescan := true }
  else beginPass now 0 { s with woken := [] }

def nearest (s : WakeScheduler) (now : Int) : Option Int :=
  ((s.sources.flatMap s.dueTimes).filter (now < ·)).min?

def armEarliest (s : WakeScheduler) : WakeScheduler :=
  if s.stopped then s
  else
    match s.nearest now with
    | none => { s with timer := none }
    | some due =>
      if s.timer.any fun timer => (timer.armedAt - due).natAbs < rearmToleranceMs then s
      else
        { s with
          timer := some
            { armedAt := due, fireAt := now + max 0 (min (due - now) maxTimeoutMs) } }

/-- The end of a turn: another one while changes are reported and the bound allows it,
else the timer is armed. -/
def endPass (passes : Nat) (s : WakeScheduler) : WakeScheduler :=
  if s.rescan ∧ passes + 1 < maxScanPasses then beginPass now (passes + 1) s
  else { armEarliest now s with phase := .armed }

/-- `register`: the source is listed under its id, in its place if the id is taken. -/
def register (id : LifecycleDueSourceId) (items : Option (List LifecycleDueItem)) (now : Int)
    (s : WakeScheduler) : WakeScheduler :=
  let s' : WakeScheduler :=
    { s with
      items := Function.update s.items id items
      sources := if id ∈ s.sources then s.sources else s.sources ++ [id]
      -- a pass under way visits a new source after the others
      phase :=
        match s.phase with
        | .waking waked began passes remaining =>
          .waking waked began passes
            (if id ∈ s.sources then remaining else remaining ++ [id])
        | phase => phase }
  if s.started ∧ ¬ s.stopped then scan now s' else s'

/-- The function `register` returns. -/
def unregister (id : LifecycleDueSourceId) (now : Int) (s : WakeScheduler) : WakeScheduler :=
  scan now
    { s with
      sources := s.sources.filter (· ≠ id)
      phase :=
        match s.phase with
        | .waking waked began passes remaining =>
          .waking waked began passes (remaining.filter (· ≠ id))
        | phase => phase }

/-- A source's durable items are now the given ones, and `sourceChanged` reports it. -/
def sourceChanged (id : LifecycleDueSourceId) (items : Option (List LifecycleDueItem)) (now : Int)
    (s : WakeScheduler) : WakeScheduler :=
  let s' : WakeScheduler := { s with items := Function.update s.items id items }
  if s.stopped ∨ ¬ s.started then s'
  else if id ∉ s.sources then s'
  else scan now { s' with unanswered := true }

def start (s : WakeScheduler) : WakeScheduler :=
  if s.stopped then s else scan now { s with started := true }

def stop (s : WakeScheduler) : WakeScheduler :=
  { s with stopped := true, started := false, rescan := false, timer := none, waking := [] }

def safetyScan (s : WakeScheduler) : WakeScheduler :=
  if s.stopped ∨ s.phase ≠ .idle ∨ s.timer.isSome then s else scan now s

def fire (s : WakeScheduler) : WakeScheduler :=
  match s.timer, s.phase with
  | some _, .idle => scan now { s with timer := none }
  | some _, .waking .. => scan now { s with timer := none }
  | _, _ => s

/-- A `wakeDue` completes, having changed its own source's items to the given ones. -/
def wakeDone (items : Option (List LifecycleDueItem)) (s : WakeScheduler) : WakeScheduler :=
  match s.phase with
  | .waking id now passes remaining =>
    continuePass now passes remaining
      { s with items := Function.update s.items id items, waking := s.waking.filter (· ≠ id) }
  | _ => s

end WakeScheduler

inductive WakeOp
  | register (id : LifecycleDueSourceId) (items : Option (List LifecycleDueItem)) (now : Int)
  | unregister (id : LifecycleDueSourceId) (now : Int)
  | sourceChanged (id : LifecycleDueSourceId) (items : Option (List LifecycleDueItem)) (now : Int)
  | start (now : Int)
  | stop
  | safetyScan (now : Int)
  | fire (now : Int)
  | wakeDone (items : Option (List LifecycleDueItem))
  /-- The loop goes on after a pass, with the clock reading of what follows. -/
  | endPass (now : Int)
  /-- The promise of the scan is cleared. -/
  | settle

def wakeStep (s : WakeScheduler) : WakeOp → WakeScheduler
  | .register id items now => s.register id items now
  | .unregister id now => s.unregister id now
  | .sourceChanged id items now => s.sourceChanged id items now
  | .start now => s.start now
  | .stop => s.stop
  | .safetyScan now => s.safetyScan now
  | .fire now => s.fire now
  | .wakeDone items => s.wakeDone items
  | .endPass now =>
    match s.phase with
    | .passDone _ passes => s.endPass now passes
    | _ => s
  | .settle => if s.phase = .armed then { s with phase := .idle } else s

/-! ## What is to hold at rest -/

namespace WakeScheduler

variable {s : WakeScheduler} {now : Int} {id : LifecycleDueSourceId}

/-- A due time is covered when its source was woken at a clock past it in the last scan, or
a timer is armed for no more than the tolerance after it. -/
def CoversDue (s : WakeScheduler) (id : LifecycleDueSourceId) (due : Int) : Prop :=
  (∃ now, (id, now) ∈ s.woken ∧ due ≤ now) ∨
    ∃ timer, s.timer = some timer ∧ timer.fireAt ≤ due + 1000

def Covered (s : WakeScheduler) : Prop :=
  ∀ id ∈ s.sources, ∀ due ∈ s.dueTimes id, s.CoversDue id due

def AtRest (s : WakeScheduler) : Prop :=
  s.started = true ∧ s.stopped = false ∧ s.phase = .idle

/-- At rest nothing due is missed, and every reported change has had a pass begin after it. -/
def NothingMissed (s : WakeScheduler) : Prop :=
  s.AtRest → s.Covered ∧ s.unanswered = false

/-- What may not happen: that a scan ends although a change was reported, or that the clock
passes a listed due time between the last pass and the arming; and that a source reports a
change, is registered or the scheduler is started while the promise of a finished scan has
still to be cleared. -/
def Undisturbed (s : WakeScheduler) : WakeOp → Prop
  | .endPass now =>
    ∀ began passes, s.phase = .passDone began passes →
      s.rescan = true ∧ passes + 1 < maxScanPasses ∨
        s.rescan = false ∧
          ∀ id ∈ s.sources, ∀ due ∈ s.dueTimes id, due ≤ now → due ≤ began
  | .register .. | .sourceChanged .. | .start .. => s.phase ≠ .armed
  | _ => True

/-! ## The invariant -/

def Visited (s : WakeScheduler) (began : Int) (id : LifecycleDueSourceId) : Prop :=
  (id, began) ∈ s.woken ∨ ∀ due ∈ s.dueTimes id, began < due

def Accounted (s : WakeScheduler) : ScanPhase → Prop
  | .idle => s.Covered ∧ s.unanswered = false
  | .waking id began _ remaining =>
    s.rescan = false →
      s.unanswered = false ∧ (id, began) ∈ s.woken ∧
        ∀ other ∈ s.sources, other ∈ remaining ∨ s.Visited began other
  | .passDone began _ =>
    s.rescan = false → s.unanswered = false ∧ ∀ id ∈ s.sources, s.Visited began id
  | .armed => s.Covered ∧ s.unanswered = false

structure Sound (s : WakeScheduler) : Prop where
  timer : ∀ timer, s.timer = some timer → timer.fireAt ≤ timer.armedAt
  waking : ∀ id ∈ s.waking, ∃ began passes remaining, s.phase = .waking id began passes remaining
  accounted : s.started = true → s.stopped = false → s.Accounted s.phase

theorem sound_initial : WakeScheduler.initial.Sound where
  timer timer h := absurd h (by simp [WakeScheduler.initial])
  waking id h := absurd h List.not_mem_nil
  accounted h := absurd h (by decide)

/-! ## A pass -/

theorem isOverdue_eq_false_iff : s.isOverdue now id = false ↔ ∀ due ∈ s.dueTimes id, now < due := by
  simp [isOverdue]

/-- The sources a pass goes over list nothing due, up to the one it wakes. -/
theorem nextOverdue_spec {s : WakeScheduler} (hwaking : s.waking = []) (now : Int)
    (remaining : List LifecycleDueSourceId) :
    match s.nextOverdue now remaining with
    | some (id, rest) => ∀ other ∈ remaining, other = id ∨ other ∈ rest ∨
        ∀ due ∈ s.dueTimes other, now < due
    | none => ∀ other ∈ remaining, ∀ due ∈ s.dueTimes other, now < due := by
  induction remaining with
  | nil =>
    intro other hother
    exact absurd hother List.not_mem_nil
  | cons first rest ih =>
    rw [nextOverdue, hwaking]
    by_cases hdue : s.isOverdue now first = true
    · rw [if_pos ⟨List.not_mem_nil, hdue⟩]
      intro other hother
      rcases List.mem_cons.1 hother with rfl | hrest
      · exact .inl rfl
      · exact .inr (.inl hrest)
    rw [if_neg fun h => hdue h.2]
    have hfirst := isOverdue_eq_false_iff.1 (Bool.eq_false_iff.2 hdue)
    cases hnext : s.nextOverdue now rest with
    | some found =>
      rw [hnext] at ih
      intro other hother
      rcases List.mem_cons.1 hother with rfl | hrest
      · exact .inr (.inr hfirst)
      · exact ih other hrest
    | none =>
      rw [hnext] at ih
      intro other hother
      rcases List.mem_cons.1 hother with rfl | hrest
      · exact hfirst
      · exact ih other hrest

/-- The due times of a source that is not the one that changed. -/
theorem dueTimes_update {s' : WakeScheduler} {other : LifecycleDueSourceId}
    {items : Option (List LifecycleDueItem)} (h : s'.items = Function.update s.items id items)
    (hne : other ≠ id) : s'.dueTimes other = s.dueTimes other := by
  rw [dueTimes, h, Function.update_of_ne hne, dueTimes]

/-- A pass that goes on keeps what it has established of the sources before. -/
theorem sound_continuePass (now : Int) (passes : Nat)
    (remaining : List LifecycleDueSourceId)
    (htimer : ∀ timer, s.timer = some timer → timer.fireAt ≤ timer.armedAt)
    (hwaking : s.waking = [])
    (haccounted : s.started = true → s.stopped = false → s.rescan = false →
      s.unanswered = false ∧ ∀ other ∈ s.sources, other ∈ remaining ∨ s.Visited now other) :
    (continuePass now passes remaining s).Sound := by
  have hspec := nextOverdue_spec hwaking now remaining
  rw [continuePass]
  cases hnext : s.nextOverdue now remaining with
  | some found =>
    obtain ⟨id, rest⟩ := found
    rw [hnext] at hspec
    refine ⟨htimer, fun other hother => ?_, fun hstarted hstopped hrescan => ?_⟩
    · rw [hwaking] at hother
      rw [List.mem_singleton.1 hother]
      exact ⟨now, passes, rest, rfl⟩
    obtain ⟨hanswered, hvisited⟩ := haccounted hstarted hstopped hrescan
    refine ⟨hanswered, List.mem_append_right _ (List.mem_singleton.2 rfl), ?_⟩
    intro other hother
    rcases hvisited other hother with hremaining | hwoken | hclear
    · rcases hspec other hremaining with rfl | hrest | hclear
      · exact .inr (.inl (List.mem_append_right _ (List.mem_singleton.2 rfl)))
      · exact .inl hrest
      · exact .inr (.inr hclear)
    · exact .inr (.inl (List.mem_append_left _ hwoken))
    · exact .inr (.inr hclear)
  | none =>
    rw [hnext] at hspec
    refine ⟨htimer, fun other hother => ?_, fun hstarted hstopped hrescan => ?_⟩
    · exact absurd hother (by simp [hwaking])
    obtain ⟨hanswered, hvisited⟩ := haccounted hstarted hstopped hrescan
    refine ⟨hanswered, fun other hother => ?_⟩
    rcases hvisited other hother with hremaining | hwoken | hclear
    · exact .inr (hspec other hremaining)
    · exact .inl hwoken
    · exact .inr hclear

theorem sound_beginPass (now : Int) (passes : Nat)
    (htimer : ∀ timer, s.timer = some timer → timer.fireAt ≤ timer.armedAt)
    (hwaking : s.waking = []) : (beginPass now passes s).Sound :=
  sound_continuePass now passes s.sources htimer hwaking
    fun _ _ _ => ⟨rfl, fun _ hother => .inl hother⟩

theorem Sound.waking_nil (h : s.Sound)
    (hphase : ∀ id began passes remaining, s.phase ≠ .waking id began passes remaining) :
    s.waking = [] := by
  refine List.eq_nil_iff_forall_not_mem.2 fun id hid => ?_
  obtain ⟨began, passes, remaining, hwaking⟩ := h.waking id hid
  exact hphase id began passes remaining hwaking

theorem sound_scan (now : Int)
    (htimer : ∀ timer, s.timer = some timer → timer.fireAt ≤ timer.armedAt)
    (hwaking : ∀ id ∈ s.waking, ∃ began passes remaining,
      s.phase = .waking id began passes remaining)
    (hstopped : s.stopped = false) (harmed : s.started = true → s.phase = .armed →
      s.Covered ∧ s.unanswered = false) : (scan now s).Sound := by
  rw [scan, if_neg (by simp [hstopped])]
  by_cases hphase : s.phase = .idle
  · rw [if_neg (by simp [hphase])]
    refine sound_beginPass now 0 htimer ?_
    refine List.eq_nil_iff_forall_not_mem.2 fun id hid => ?_
    obtain ⟨began, passes, remaining, hin⟩ := hwaking id hid
    rw [hphase] at hin
    exact absurd hin (by simp)
  · rw [if_pos hphase]
    refine ⟨htimer, hwaking, fun hstarted _ => ?_⟩
    cases hat : s.phase with
    | idle => exact absurd hat hphase
    | waking id began passes remaining =>
      intro hrescan
      exact absurd hrescan (by simp)
    | passDone began passes =>
      intro hrescan
      exact absurd hrescan (by simp)
    | armed => exact harmed hstarted hat

/-! ## Arming -/

theorem nearest_spec {due : Int}
    (hid : id ∈ s.sources) (hdue : due ∈ s.dueTimes id) (hlater : now < due) :
    ∃ earliest, s.nearest now = some earliest ∧ earliest ≤ due ∧ now < earliest := by
  have hmem : due ∈ (s.sources.flatMap s.dueTimes).filter (now < ·) := by
    rw [List.mem_filter, List.mem_flatMap]
    exact ⟨⟨id, hid, hdue⟩, by simpa using hlater⟩
  cases hmin : s.nearest now with
  | none =>
    rw [nearest, List.min?_eq_none_iff] at hmin
    rw [hmin] at hmem
    exact absurd hmem List.not_mem_nil
  | some earliest =>
    rw [nearest, List.min?_eq_some_iff] at hmin
    have hafter := (List.mem_filter.1 hmin.1).2
    exact ⟨earliest, rfl, hmin.2 due hmem, by simpa using hafter⟩

theorem timer_armEarliest (now : Int)
    (htimer : ∀ timer, s.timer = some timer → timer.fireAt ≤ timer.armedAt) :
    ∀ timer, (armEarliest now s).timer = some timer → timer.fireAt ≤ timer.armedAt := by
  intro timer harmed
  rw [armEarliest] at harmed
  split at harmed
  · exact htimer timer harmed
  cases hnearest : s.nearest now with
  | none =>
    rw [hnearest] at harmed
    exact absurd harmed (by simp)
  | some due =>
    simp only [hnearest] at harmed
    split at harmed
    · exact htimer timer harmed
    have hlater : now < due := by
      rw [nearest, List.min?_eq_some_iff] at hnearest
      simpa using (List.mem_filter.1 hnearest.1).2
    obtain rfl := Option.some.inj harmed
    simp only
    omega

theorem armEarliest_frame (now : Int) (s : WakeScheduler) :
    armEarliest now s = { s with timer := (armEarliest now s).timer } := by
  rw [armEarliest]
  split
  · rfl
  cases s.nearest now with
  | none => rfl
  | some due =>
    simp only []
    split <;> rfl

theorem timer_covers {due : Int} (hstopped : s.stopped = false)
    (htimer : ∀ timer, s.timer = some timer → timer.fireAt ≤ timer.armedAt) (hid : id ∈ s.sources)
    (hdue : due ∈ s.dueTimes id) (hlater : now < due) :
    ∃ timer, (armEarliest now s).timer = some timer ∧ timer.fireAt ≤ due + 1000 := by
  obtain ⟨earliest, hnearest, hle, hafter⟩ := nearest_spec hid hdue hlater
  rw [armEarliest, if_neg (by simp [hstopped]), hnearest]
  simp only []
  split
  · next hkept =>
      -- the armed instant is within the tolerance of the earliest due time
      obtain ⟨timer, hsome, hclose⟩ := (Option.any_eq_true _ _).1 hkept
      have hfire := htimer timer hsome
      have hwithin : ((timer.armedAt - earliest).natAbs : Int) < 1000 := of_decide_eq_true hclose
      exact ⟨timer, hsome, by omega⟩
  · exact ⟨_, rfl, by simp only; omega⟩

theorem covered_armEarliest {s : WakeScheduler} {began now : Int} (hstopped : s.stopped = false)
    (htimer : ∀ timer, s.timer = some timer → timer.fireAt ≤ timer.armedAt)
    (hvisited : ∀ id ∈ s.sources, s.Visited began id)
    (hclock : ∀ id ∈ s.sources, ∀ due ∈ s.dueTimes id, due ≤ now → due ≤ began) :
    ({ armEarliest now s with phase := .armed } : WakeScheduler).Covered := by
  have hframe := armEarliest_frame now s
  intro id hid due hdue
  rw [hframe] at hid hdue
  rcases le_or_gt due now with hpast | hlater
  · left
    have hbegan := hclock id hid due hdue hpast
    rcases hvisited id hid with hwoken | hclear
    · refine ⟨began, ?_, hbegan⟩
      rw [hframe]
      exact hwoken
    · exact absurd (hclear due hdue) (not_lt_of_ge hbegan)
  · right
    exact timer_covers hstopped htimer hid hdue hlater

/-! ## Steps -/

theorem Sound.endPass (h : s.Sound) {began : Int} {passes : Nat}
    (hphase : s.phase = .passDone began passes)
    (hundisturbed : Undisturbed s (.endPass now)) : (endPass now passes s).Sound := by
  have hwaking : s.waking = [] := h.waking_nil fun _ _ _ _ hin => by simp [hphase] at hin
  rw [Abtars.WakeScheduler.endPass]
  split
  · exact sound_beginPass now (passes + 1) h.timer hwaking
  next hlast =>
    have hframe := armEarliest_frame now s
    refine ⟨timer_armEarliest now h.timer, fun id hid => ?_, fun hstarted hstopped => ?_⟩
    · rw [hframe] at hid
      exact absurd hid (by simp [hwaking])
    rw [hframe] at hstarted hstopped
    rcases hundisturbed began passes hphase with hagain | ⟨hrescan, hclock⟩
    · exact absurd ⟨hagain.1, hagain.2⟩ hlast
    have haccounted := h.accounted hstarted hstopped
    rw [hphase] at haccounted
    obtain ⟨hanswered, hvisited⟩ := haccounted hrescan
    refine ⟨covered_armEarliest hstopped h.timer hvisited hclock, ?_⟩
    rw [hframe]
    exact hanswered

theorem Sound.wakeDone (h : s.Sound)
    (items : Option (List LifecycleDueItem)) : (s.wakeDone items).Sound := by
  rw [Abtars.WakeScheduler.wakeDone]
  cases hphase : s.phase with
  | idle => exact h
  | passDone began passes => exact h
  | armed => exact h
  | waking id began passes remaining =>
    refine sound_continuePass began passes remaining h.timer ?_ ?_
    · refine List.filter_eq_nil_iff.2 fun other hother => ?_
      obtain ⟨_, _, _, hin⟩ := h.waking other hother
      rw [hphase] at hin
      injection hin with hid
      simp [hid]
    intro hstarted hstopped hrescan
    have haccounted := h.accounted hstarted hstopped
    rw [hphase] at haccounted
    obtain ⟨hanswered, hwoken, hvisited⟩ := haccounted hrescan
    refine ⟨hanswered, fun other hother => ?_⟩
    by_cases hsame : other = id
    · rw [hsame]
      exact .inr (.inl hwoken)
    rcases hvisited other hother with hremaining | hwoken | hclear
    · exact .inl hremaining
    · exact .inr (.inl hwoken)
    · refine .inr (.inr fun due hdue => hclear due ?_)
      rwa [dueTimes_update rfl hsame] at hdue

/-- A change of a source that is not registered is seen by nothing. -/
theorem Sound.change_unregistered {s : WakeScheduler} (h : s.Sound) {id : LifecycleDueSourceId}
    (hid : id ∉ s.sources) (items : Option (List LifecycleDueItem)) :
    ({ s with items := Function.update s.items id items } : WakeScheduler).Sound := by
  have hsame : ∀ other ∈ s.sources,
      ({ s with items := Function.update s.items id items } : WakeScheduler).dueTimes other =
        s.dueTimes other := fun other hother =>
    dueTimes_update rfl fun heq => hid (heq ▸ hother)
  refine ⟨h.timer, h.waking, fun hstarted hstopped => ?_⟩
  have haccounted := h.accounted hstarted hstopped
  have hcovered : s.Covered →
      ({ s with items := Function.update s.items id items } : WakeScheduler).Covered := by
    intro hcovered other hother due hdue
    rw [hsame other hother] at hdue
    exact hcovered other hother due hdue
  have hvisited : ∀ began, ∀ other ∈ s.sources, s.Visited began other →
      ({ s with items := Function.update s.items id items } : WakeScheduler).Visited began
        other := by
    intro began other hother hvisited
    rw [Visited, hsame other hother]
    exact hvisited
  cases hphase : s.phase with
  | idle =>
    rw [hphase] at haccounted
    exact ⟨hcovered haccounted.1, haccounted.2⟩
  | waking waked began passes remaining =>
    rw [hphase] at haccounted
    intro hrescan
    obtain ⟨hanswered, hwoken, hall⟩ := haccounted hrescan
    exact ⟨hanswered, hwoken, fun other hother =>
      (hall other hother).imp_right (hvisited began other hother)⟩
  | passDone began passes =>
    rw [hphase] at haccounted
    intro hrescan
    obtain ⟨hanswered, hall⟩ := haccounted hrescan
    exact ⟨hanswered, fun other hother => hvisited began other hother (hall other hother)⟩
  | armed =>
    rw [hphase] at haccounted
    exact ⟨hcovered haccounted.1, haccounted.2⟩

theorem Sound.sourceChanged (h : s.Sound) (id : LifecycleDueSourceId)
    (items : Option (List LifecycleDueItem)) (now : Int) (hphase : s.phase ≠ .armed) :
    (s.sourceChanged id items now).Sound := by
  simp only [WakeScheduler.sourceChanged]
  split_ifs with hoff hid
  · refine ⟨h.timer, h.waking, fun hstarted hstopped => ?_⟩
    rcases hoff with hoff | hoff
    · exact absurd hstopped (by simp [hoff])
    · exact absurd hstarted hoff
  · apply sound_scan
    · exact h.timer
    · exact h.waking
    · simpa using fun hstopped => hoff (.inl hstopped)
    · exact fun _ harmed => absurd harmed hphase
  · exact h.change_unregistered hid items

theorem Sound.register (h : s.Sound) (id : LifecycleDueSourceId)
    (items : Option (List LifecycleDueItem)) (now : Int) (hphase : s.phase ≠ .armed) :
    (s.register id items now).Sound := by
  simp only [WakeScheduler.register]
  have hwaking : ∀ other ∈ s.waking, ∃ began passes remaining,
      (match s.phase with
        | .waking waked began passes remaining =>
          ScanPhase.waking waked began passes
            (if id ∈ s.sources then remaining else remaining ++ [id])
        | phase => phase) = .waking other began passes remaining := by
    intro other hother
    obtain ⟨began, passes, remaining, hin⟩ := h.waking other hother
    rw [hin]
    exact ⟨began, passes, _, rfl⟩
  split
  · next hon =>
      apply sound_scan
      · exact h.timer
      · exact hwaking
      · simpa using hon.2
      intro _ harmed
      exfalso
      cases hat : s.phase with
      | armed => exact hphase hat
      | _ => simp [hat] at harmed
  · next hoff =>
      refine ⟨h.timer, hwaking, fun hstarted hstopped => ?_⟩
      exact absurd ⟨hstarted, by simpa using hstopped⟩ hoff

/-- Taking a source out leaves the others as they are. -/
theorem Sound.unregister (h : s.Sound) (id : LifecycleDueSourceId)
    (now : Int) : (s.unregister id now).Sound := by
  rw [WakeScheduler.unregister]
  by_cases hstopped : s.stopped = true
  · rw [scan, if_pos hstopped]
    refine ⟨h.timer, fun other hother => ?_, fun _ hrunning => ?_⟩
    · obtain ⟨began, passes, remaining, hin⟩ := h.waking other hother
      exact ⟨began, passes, remaining.filter (· ≠ id), by simp only [hin]⟩
    · exact absurd (hstopped.symm.trans hrunning) (by decide)
  apply sound_scan
  · exact h.timer
  · intro other hother
    obtain ⟨began, passes, remaining, hin⟩ := h.waking other hother
    exact ⟨began, passes, remaining.filter (· ≠ id), by simp only [hin]⟩
  · simpa using hstopped
  intro hstarted harmed
  have hat : s.phase = .armed := by
    cases hphase : s.phase with
    | armed => rfl
    | _ => simp [hphase] at harmed
  have haccounted := h.accounted hstarted (by simpa using hstopped)
  rw [hat] at haccounted
  exact ⟨fun other hother => haccounted.1 other (List.mem_of_mem_filter hother), haccounted.2⟩

theorem Sound.start (h : s.Sound) (now : Int) (hphase : s.phase ≠ .armed) :
    (s.start now).Sound := by
  rw [WakeScheduler.start]
  split
  · exact h
  next hrunning =>
    apply sound_scan
    · exact h.timer
    · exact h.waking
    · simpa using hrunning
    · exact fun _ harmed => absurd harmed hphase

theorem Sound.stop {s : WakeScheduler} : s.stop.Sound where
  timer timer harmed := absurd harmed (by simp [WakeScheduler.stop])
  waking id hid := absurd hid (by simp [WakeScheduler.stop])
  accounted _ hstopped := absurd hstopped (by simp [WakeScheduler.stop])

theorem Sound.safetyScan (h : s.Sound) (now : Int) : (s.safetyScan now).Sound := by
  rw [WakeScheduler.safetyScan]
  split
  · exact h
  next hallowed =>
    refine sound_scan now h.timer h.waking ?_ fun _ harmed => ?_
    · simpa using fun hstopped => hallowed (.inl hstopped)
    · exact absurd (.inr (.inl (by simp [harmed]))) hallowed

theorem Sound.fire (h : s.Sound) (now : Int) : (s.fire now).Sound := by
  have hscan : s.phase ≠ .armed → (scan now { s with timer := none }).Sound := by
    intro hphase
    by_cases hstopped : s.stopped = true
    · rw [scan, if_pos hstopped]
      exact ⟨fun _ harmed => absurd harmed (by simp), h.waking,
        fun _ hrunning => absurd (hstopped.symm.trans hrunning) (by decide)⟩
    apply sound_scan
    · exact fun _ harmed => absurd harmed (by simp)
    · exact h.waking
    · simpa using hstopped
    · exact fun _ harmed => absurd harmed hphase
  rw [WakeScheduler.fire]
  cases s.timer with
  | none => exact h
  | some timer =>
    cases hphase : s.phase with
    | idle =>
      rw [hphase] at hscan
      exact hscan (by simp)
    | waking id began passes remaining =>
      rw [hphase] at hscan
      exact hscan (by simp)
    | passDone began passes => exact h
    | armed => exact h

theorem sound_wakeStep (s : WakeScheduler) (op : WakeOp) (h : s.Sound)
    (hundisturbed : Undisturbed s op) : (wakeStep s op).Sound := by
  cases op with
  | register id items now => exact h.register id items now hundisturbed
  | unregister id now => exact h.unregister id now
  | sourceChanged id items now => exact h.sourceChanged id items now hundisturbed
  | start now => exact h.start now hundisturbed
  | stop => exact Sound.stop
  | safetyScan now => exact h.safetyScan now
  | fire now => exact h.fire now
  | wakeDone items => exact h.wakeDone items
  | endPass now =>
    rw [wakeStep]
    cases hphase : s.phase with
    | passDone began passes => exact h.endPass hphase hundisturbed
    | _ => exact h
  | settle =>
    rw [wakeStep]
    split
    · next hphase =>
        refine ⟨h.timer, fun id hid => ?_, fun hstarted hstopped => ?_⟩
        · obtain ⟨began, passes, remaining, hin⟩ := h.waking id hid
          rw [hphase] at hin
          exact absurd hin (by simp)
        · have haccounted := h.accounted hstarted hstopped
          rw [hphase] at haccounted
          exact haccounted
    · exact h

theorem Sound.nothingMissed (h : s.Sound) : s.NothingMissed := by
  rintro ⟨hstarted, hstopped, hphase⟩
  have haccounted := h.accounted hstarted hstopped
  rw [hphase] at haccounted
  exact haccounted

end WakeScheduler

open WakeScheduler

/-- In every run whose scans end undisturbed, nothing due is missed at rest. -/
theorem no_missed_wake (ops : List WakeOp)
    (hundisturbed : StepsMeet wakeStep Undisturbed WakeScheduler.initial ops) :
    (runFrom wakeStep WakeScheduler.initial ops).NothingMissed :=
  (invariant_of_stepsMeet sound_wakeStep ops _ sound_initial hundisturbed).nothingMissed

def dueOnce (due : Int) : Option (List LifecycleDueItem) :=
  some [{ key := "item", dueAt := some due }]

def armingAt (now : Int) : List WakeOp :=
  [.register .kanbanRetry (dueOnce 100) 0, .start 50, .endPass now, .settle]

/-- The timer is armed before the item falls due. -/
theorem no_missed_wake_armed :
    (runFrom wakeStep WakeScheduler.initial (armingAt 60)).NothingMissed := by
  refine no_missed_wake _ ⟨?_, ?_, ?_, trivial, trivial⟩
  · change WakeScheduler.initial.phase ≠ .armed
    decide
  · change (wakeStep WakeScheduler.initial (.register .kanbanRetry (dueOnce 100) 0)).phase ≠ .armed
    decide
  · intro began passes hphase
    obtain ⟨rfl, rfl⟩ := ScanPhase.passDone.inj hphase
    exact .inr ⟨rfl, by decide⟩

/-- An item that falls due between the pass and the arming is neither woken nor armed for;
and a change reported while the promise of the scan is still to be cleared has no pass
begin after it. -/
theorem wake_missed :
    ¬ (runFrom wakeStep WakeScheduler.initial (armingAt 150)).NothingMissed ∧
      ¬ (runFrom wakeStep WakeScheduler.initial
        [.register .kanbanRetry (some []) 0, .start 50, .endPass 60,
          .sourceChanged .kanbanRetry (dueOnce 100) 70, .settle]).NothingMissed := by
  constructor
  · intro hmissed
    obtain ⟨hcovered, -⟩ := hmissed ⟨by decide, by decide, by decide⟩
    have hwoken : (runFrom wakeStep WakeScheduler.initial (armingAt 150)).woken = [] := rfl
    have htimer : (runFrom wakeStep WakeScheduler.initial (armingAt 150)).timer = none := rfl
    have hdue := hcovered .kanbanRetry (by decide) 100 (by decide)
    rw [CoversDue, hwoken, htimer] at hdue
    simp at hdue
  · intro hmissed
    obtain ⟨-, hanswered⟩ := hmissed ⟨by decide, by decide, by decide⟩
    exact absurd hanswered (by decide)

end Abtars
