import Abtars.Lease.Inspection

/-!
# Unknown inspections and their graces

An inspection that comes back unknown counts towards a bound and grants the
attempt a grace, or marks the snapshot for cancellation once the bound is met.
Both are computed on a copy of the snapshot, and of that copy only the phase and
the next evaluation are written back.

A run is watched here: a clock that does not go back, and for every attempt how
long it has been silent, how many of its inspections came back unknown since, and
which graces it was granted.
-/

namespace Abtars

open Lib LeaseReconciliationService

section Decisions

variable {now later : Millis} {policy : LeasePolicy} {hard : Option Millis}
  {s s' : AttemptLeaseSnapshot}

def LeaseDecision.CancelsForSilence (d : LeaseDecision) : Prop :=
  d.action = .cancel ∧ (d.reason = some .livenessExpired ∨ d.reason = some .progressExpired)

/-- An open lease is cancelled for a reason of its own, left healthy, or decided
by its two silence deadlines alone. -/
theorem evaluateLease_cases (now : Millis) (policy : LeasePolicy) (hard : Option Millis)
    (hopen : s.closedAt = none) (hphase : s.evaluation.phase ≠ .closed)
    (hcancel : s.evaluation.phase ≠ .cancelRequested) :
    ((evaluateLease now policy hard s).action = .cancel ∧
        ¬ (evaluateLease now policy hard s).CancelsForSilence) ∨
      (evaluateLease now policy hard s).action = .healthy ∨
      (s.Silent ∧ hard.any (· ≤ now) = false ∧
        evaluateLease now policy hard s = evaluateDeadlines now policy hard s) := by
  have hoperation : s.semanticState ≠ .stalled →
      (s.awaitingInput = none ∨ s.semanticState ≠ .awaitingInput) →
      ((evaluateOperation now policy hard s).action = .cancel ∧
          ¬ (evaluateOperation now policy hard s).CancelsForSilence) ∨
        (evaluateOperation now policy hard s).action = .healthy ∨
        (s.Silent ∧ evaluateOperation now policy hard s = evaluateDeadlines now policy hard s) := by
    intro hstalled hawaiting
    unfold evaluateOperation
    split
    · rename_i hnone
      exact .inr (.inr ⟨⟨hstalled, hawaiting, hnone⟩, rfl⟩)
    · split
      · exact .inl ⟨rfl, by simp [LeaseDecision.CancelsForSilence]⟩
      · exact .inr (.inl rfl)
  have hawaiting : s.semanticState ≠ .stalled →
      ((evaluateAwaiting now policy hard s).action = .cancel ∧
          ¬ (evaluateAwaiting now policy hard s).CancelsForSilence) ∨
        (evaluateAwaiting now policy hard s).action = .healthy ∨
        (s.Silent ∧ evaluateAwaiting now policy hard s = evaluateDeadlines now policy hard s) := by
    intro hstalled
    unfold evaluateAwaiting
    split
    · rename_i hnone
      exact hoperation hstalled (.inl hnone)
    split
    · split
      · exact .inl ⟨rfl, by simp [LeaseDecision.CancelsForSilence]⟩
      · exact .inr (.inl rfl)
    · rename_i hstate
      exact hoperation hstalled (.inr hstate)
  unfold evaluateLease
  simp only [hphase, hopen, hcancel, Option.isSome_none, Bool.false_eq_true, or_self, if_false]
  split
  · exact .inl ⟨rfl, by simp [LeaseDecision.CancelsForSilence]⟩
  split
  · exact .inl ⟨rfl, by simp [LeaseDecision.CancelsForSilence]⟩
  rename_i hhard
  split
  · exact .inl ⟨rfl, by simp [LeaseDecision.CancelsForSilence]⟩
  rename_i hstalled
  rcases hawaiting hstalled with h | h | ⟨hsilent, h⟩
  · exact .inl h
  · exact .inr (.inl h)
  · exact .inr (.inr ⟨hsilent, by simpa using hhard, h⟩)

theorem evaluateLease_inspect (hopen : s.closedAt = none) (hphase : s.evaluation.phase ≠ .closed)
    (hcancel : s.evaluation.phase ≠ .cancelRequested)
    (haction : (evaluateLease now policy hard s).action = .inspect) :
    s.Silent ∧ deadlineExpired now hard s = true := by
  rcases evaluateLease_cases now policy hard hopen hphase hcancel with
    ⟨h, -⟩ | h | ⟨hsilent, -, h⟩
  · rw [haction] at h
    cases h
  · rw [haction] at h
    cases h
  · refine ⟨hsilent, ?_⟩
    by_contra hdue
    rw [h, evaluateDeadlines, if_neg hdue] at haction
    split at haction <;> cases haction

theorem evaluateLease_silence (hopen : s.closedAt = none) (hphase : s.evaluation.phase ≠ .closed)
    (hcancel : s.evaluation.phase ≠ .cancelRequested)
    (hcancels : (evaluateLease now policy hard s).CancelsForSilence) :
    s.evaluation.phase = .inspectGrace ∧ s.Silent ∧ deadlineExpired now hard s = true ∧
      hard.any (· ≤ now) = false := by
  rcases evaluateLease_cases now policy hard hopen hphase hcancel with
    ⟨-, h⟩ | h | ⟨hsilent, hhard, h⟩
  · exact absurd hcancels h
  · rw [hcancels.1] at h
    cases h
  · obtain ⟨haction, -⟩ := hcancels
    have hdue : deadlineExpired now hard s = true := by
      by_contra hdue
      rw [h, evaluateDeadlines, if_neg hdue] at haction
      split at haction <;> cases haction
    refine ⟨?_, hsilent, hdue, hhard⟩
    rw [h, evaluateDeadlines, if_pos hdue, evaluateExpired] at haction
    cases hp : s.evaluation.phase with
    | inspectGrace => rfl
    | warning => simp [hp, hsilent.notStalled] at haction
    | cancelRequested => exact absurd hp hcancel
    | closed => exact absurd hp hphase
    | _ => simp [hp] at haction

/-- A snapshot whose grace deadline was never written is cancelled for silence by
the first evaluation that finds it in a grace and overdue. -/
theorem evaluateLease_unmarked (hopen : s.closedAt = none)
    (hphase : s.evaluation.phase = .inspectGrace) (hgrace : s.evaluation.graceDeadlineAt = none)
    (hreason : s.evaluation.reason ≠ some .inspectionUnknownExhausted) (hsilent : s.Silent)
    (hdue : deadlineExpired now hard s = true) (hhard : hard.any (· ≤ now) = false) :
    (evaluateLease now policy hard s).CancelsForSilence := by
  have hexhausted : inspectionExhausted policy s = false := by
    simp [inspectionExhausted, hreason]
  rw [evaluateLease_silent hsilent hopen (by rw [hphase]; decide) (by rw [hphase]; decide)
    hexhausted hhard hdue]
  simp only [evaluateExpired, hphase, hgrace, Option.getD_none, le_refl, if_true,
    LeaseDecision.CancelsForSilence, true_and, effectiveReason, Option.some.injEq]
  split
  · exact .inr rfl
  · exact .inl rfl

theorem evaluateLease_hard (hopen : s.closedAt = none) (hphase : s.evaluation.phase ≠ .closed)
    (hhard : hard.any (· ≤ now) = true) : (evaluateLease now policy hard s).action = .cancel := by
  simp only [evaluateLease, hphase, hopen, hhard, Option.isSome_none, Bool.false_eq_true,
    or_self, if_false, if_true]
  split
  · rfl
  · split <;> rfl

theorem deadlineExpired_mono (hle : now ≤ later) (hdue : deadlineExpired now hard s = true) :
    deadlineExpired later hard s = true := by
  simp only [deadlineExpired, Bool.decide_or, Bool.or_eq_true, decide_eq_true_eq] at hdue ⊢
  exact hdue.imp (fun h => h.trans hle) fun h => h.trans hle

theorem silent_congr (h : s'.bearings = s.bearings) (hsilent : s.Silent) : s'.Silent := by
  have hstate : s'.semanticState = s.semanticState := congrArg LeaseBearings.semanticState h
  have hinput : s'.awaitingInput = s.awaitingInput := congrArg LeaseBearings.awaitingInput h
  have hoperation : s'.operation = s.operation := congrArg LeaseBearings.operation h
  exact ⟨hstate ▸ hsilent.notStalled, hinput ▸ hstate ▸ hsilent.notAwaiting,
    hoperation ▸ hsilent.noOperation⟩

theorem deadlineExpired_congr (h : s'.bearings = s.bearings) :
    deadlineExpired now hard s' = deadlineExpired now hard s := by
  have hliveness : s'.livenessDeadlineAt = s.livenessDeadlineAt :=
    congrArg LeaseBearings.livenessDeadlineAt h
  have hprogress : s'.progressDeadlineAt = s.progressDeadlineAt :=
    congrArg LeaseBearings.progressDeadlineAt h
  rw [deadlineExpired, deadlineExpired, effectiveLivenessDeadline, effectiveLivenessDeadline,
    effectiveProgressDeadline, effectiveProgressDeadline, hliveness, hprogress]

/-! ## What an inspection grants -/

def graceGranted (now : Millis) (policy : LeasePolicy) (hard : Option Millis)
    (s : AttemptLeaseSnapshot) : InspectionResult → Option Millis
  | .other =>
    if s.evaluation.inspectionCount + 1 < policy.maxUnknownInspections then
      some (clampAt hard (now + policy.inspectGraceMs))
    else none
  | .running =>
    if s.lastMeaningfulProgressAt + policy.meaningfulProgressMs ≤ now then
      some (clampAt hard (now + policy.inspectGraceMs))
    else none
  | _ => none

theorem inspectionExhausted_unknown (now : Millis) (hard : Option Millis) :
    inspectionExhausted policy (applyInspectionOutcome now policy hard s .unknown) = true ↔
      policy.maxUnknownInspections ≤ s.evaluation.inspectionCount + 1 := by
  simp only [applyInspectionOutcome, applyUnknown]
  split
  · simp only [inspectionExhausted, true_and, decide_eq_true_eq]
    exact Iff.rfl
  · rename_i hcount
    simp only [inspectionExhausted, Bool.decide_and, Bool.and_eq_true, decide_eq_true_eq]
    exact ⟨fun h => h.2.2, fun h => absurd h hcount⟩

end Decisions

/-! ## Watched runs -/

/-- What is kept in mind about an attempt: whether it has been silent since its
last fact, with every inspection that settled unknown; how many there were; and
the graces it was granted. -/
structure Vigil where
  silent : Bool
  unknowns : Nat
  graces : List Millis

structure Watched where
  state : ReconcilerState
  clock : Millis
  vigil : String → Vigil

variable (svc : LeaseReconciliationService)

def Vigil.settle (now : Millis) (db : Db) (i : Inspection) (result : InspectionResult) (v : Vigil) :
    Vigil where
  silent := v.silent && decide (result = .other)
  unknowns := if result = .other then v.unknowns + 1 else v.unknowns
  graces :=
    match getSnapshot db i.attemptId with
    | none => v.graces
    | some s =>
      if s.closedAt.isSome ∨ s.evaluation.phase = .cancelRequested then v.graces
      else v.graces ++ (graceGranted now svc.policy i.attempt.hardDeadlineAt s result).toList

/-- What an operation adds to the vigils.  A fact ends the silence and a new one
begins with it, unless an inspection is still in flight. -/
def observe (now : Millis) (s : ReconcilerState) (op : ReconcilerOp) (vigil : String → Vigil) :
    String → Vigil :=
  match op with
  | .appendFact _ _ fact =>
    Function.update vigil fact.attemptId
      { vigil fact.attemptId with
        silent := s.inspections.all fun i => decide (i.attemptId ≠ fact.attemptId)
        unknowns := 0 }
  | .inspectionSettles index result =>
    match s.inspections[index]? with
    | none => vigil
    | some i =>
      Function.update vigil i.attemptId
        ((vigil i.attemptId).settle svc now s.db i result)
  | _ => vigil

variable (w : Watched)

def watchedStep (op : Nat × ReconcilerOp) : Watched :=
  let now := w.clock + op.1
  { state := reconcilerStep svc w.state (now, op.2)
    clock := now
    vigil := observe svc now w.state op.2 w.vigil }

def watch (s : ReconcilerState) (clock : Millis) : Watched where
  state := s
  clock := clock
  vigil := fun _ => { silent := true, unknowns := 0, graces := [] }

/-- An evaluation at an instant respects the inspections of the attempt: as many
unknown ones as the policy allows make it cancel, and it does not cancel a live
attempt for silence before a granted grace has run out. -/
structure EvaluationHonours (svc : LeaseReconciliationService) (now : Millis) (v : Vigil)
    (row : LeaseRow) (a : AttemptRow) : Prop where
  bounded : v.silent = true → svc.policy.maxUnknownInspections ≤ v.unknowns →
    svc.decidedAction now row a = .cancel
  spared : a.lifecycle.isLive = true →
    (evaluateLease now svc.policy a.hardDeadlineAt row.snapshotJson).CancelsForSilence →
    ∀ g ∈ v.graces, g ≤ now

/-- Every evaluation respects the inspections before it, and the mark of an
exhausted inspection is in the lease it was made for. -/
def InspectionsHonoured :
    Nat × ReconcilerOp → Prop
  | (elapsed, .evaluate attemptId _) =>
    ∀ row a, EvaluatedLease w.state.db attemptId row a →
      EvaluationHonours svc (w.clock + elapsed) (w.vigil attemptId) row a
  | (elapsed, .inspectionSettles index .other) =>
    ∀ i row row', w.state.inspections[index]? = some i →
      w.state.db.attemptLeaseSnapshots.get i.attemptId = some row → row.Evaluable →
      inspectionExhausted svc.policy (applyInspectionOutcome (w.clock + elapsed) svc.policy
        i.attempt.hardDeadlineAt row.snapshotJson .unknown) = true →
      (watchedStep svc w (elapsed, .inspectionSettles index .other)).state.db.attemptLeaseSnapshots.get
        i.attemptId = some row' →
      inspectionExhausted svc.policy row'.snapshotJson = true
  | _ => True

/-- No unknown inspection of an open lease meets the bound, and no evaluation
finds a live attempt in a grace that has not run out with its lease silent and
overdue, short of the hard deadline. -/
def OutlastsGrace : Nat × ReconcilerOp → Prop
  | (elapsed, .evaluate attemptId _) =>
    ∀ row a, EvaluatedLease w.state.db attemptId row a → a.lifecycle.isLive = true →
      row.snapshotJson.evaluation.phase = .inspectGrace → row.snapshotJson.Silent →
      deadlineExpired (w.clock + elapsed) a.hardDeadlineAt row.snapshotJson = true →
      a.hardDeadlineAt.any (· ≤ w.clock + elapsed) = false →
      ∀ g ∈ (w.vigil attemptId).graces, g ≤ w.clock + elapsed
  | (_, .inspectionSettles index .other) =>
    ∀ i row, w.state.inspections[index]? = some i →
      w.state.db.attemptLeaseSnapshots.get i.attemptId = some row → row.Evaluable →
      row.snapshotJson.evaluation.inspectionCount + 1 < svc.policy.maxUnknownInspections
  | _ => True

/-! ## The invariant -/

structure LeaseRow.Unmarked (row : LeaseRow) : Prop where
  grace : row.snapshotJson.evaluation.graceDeadlineAt = none
  reason : row.snapshotJson.evaluation.reason ≠ some .inspectionUnknownExhausted

/-- A silent attempt with an inspection in flight or one that came back unknown. -/
def Watched.Waits (id : String) : Prop :=
  (w.vigil id).silent = true ∧ (InFlight w.state id ∨ 1 ≤ (w.vigil id).unknowns)

/-- A lease that waits is silent and overdue: it is being inspected, or in a grace
after an inspection that came back unknown. -/
structure Overdue (clock : Millis) (unknowns : Nat) (row : LeaseRow) (a : AttemptRow) : Prop where
  silent : row.snapshotJson.Silent
  expired : deadlineExpired clock a.hardDeadlineAt row.snapshotJson = true
  phase : row.snapshotJson.evaluation.phase = .inspectGrace ∨
    unknowns = 0 ∧ row.snapshotJson.evaluation.phase = .inspecting

structure VigilSound (w : Watched) : Prop where
  behind : InspectionsBehind w.state
  unmarked : ∀ id row, w.state.db.attemptLeaseSnapshots.get id = some row → row.Evaluable →
    row.Unmarked
  waits : ∀ id row a, w.Waits id → w.state.db.attemptLeaseSnapshots.get id = some row →
    w.state.db.workerAttempts.get id = some a → row.Evaluable →
    Overdue w.clock (w.vigil id).unknowns row a

section Watch

variable {row : LeaseRow} {a : AttemptRow} {svc : LeaseReconciliationService} {w w' : Watched}

variable {clock : Millis} {id : String} {i : Inspection} {index : Nat}

theorem Overdue.mono {clock' : Millis} {unknowns : Nat} (h : Overdue clock unknowns row a)
    (hle : clock ≤ clock') : Overdue clock' unknowns row a :=
  ⟨h.silent, deadlineExpired_mono hle h.expired, h.phase⟩

theorem Overdue.of_terms {unknowns : Nat} {a' : AttemptRow} (h : Overdue clock unknowns row a)
    (hterms : a'.terms = a.terms) : Overdue clock unknowns row a' := by
  have hhard : a'.hardDeadlineAt = a.hardDeadlineAt := congrArg Prod.snd hterms
  exact ⟨h.silent, hhard ▸ h.expired, h.phase⟩

theorem VigilSound.congr (h : VigilSound w) (hbehind : InspectionsBehind w'.state)
    (hdb : w'.state.db = w.state.db) (hclock : w.clock ≤ w'.clock)
    (hwaits : ∀ id row, w'.Waits id → w.state.db.attemptLeaseSnapshots.get id = some row →
      row.Evaluable → w.Waits id ∧ (w'.vigil id).unknowns = (w.vigil id).unknowns) :
    VigilSound w' where
  behind := hbehind
  unmarked := fun id row hrow hopen => h.unmarked id row (hdb ▸ hrow) hopen
  waits := by
    intro id row a hwait hrow hget hopen
    rw [hdb] at hrow hget
    obtain ⟨hwas, hunknowns⟩ := hwaits id row hwait hrow hopen
    rw [hunknowns]
    exact (h.waits id row a hwas hrow hget hopen).mono hclock

theorem VigilSound.write {target : String} {row' : LeaseRow} (h : VigilSound w)
    (hbehind : InspectionsBehind w'.state) (hwrite : LeaseWrite target row' w.state.db w'.state.db)
    (hclock : w.clock ≤ w'.clock)
    (hothers : ∀ id, id ≠ target → w'.Waits id →
      w.Waits id ∧ (w'.vigil id).unknowns = (w.vigil id).unknowns)
    (hunmarked : row'.Evaluable → row'.Unmarked)
    (hself : ∀ a, w'.Waits target → w.state.db.workerAttempts.get target = some a →
      row'.Evaluable → Overdue w'.clock (w'.vigil target).unknowns row' a) : VigilSound w' where
  behind := hbehind
  unmarked := by
    intro id row hrow hopen
    by_cases hid : id = target
    · subst hid
      obtain rfl : row' = row := Option.some.inj (hwrite.self.symm.trans hrow)
      exact hunmarked hopen
    · rw [hwrite.others id hid] at hrow
      exact h.unmarked id row hrow hopen
  waits := by
    intro id row a hwait hrow hget hopen
    have hterms := hwrite.terms id
    rw [hget] at hterms
    obtain ⟨a', hget', hsame⟩ := Option.map_eq_some_iff.1 hterms.symm
    by_cases hid : id = target
    · subst hid
      obtain rfl : row' = row := Option.some.inj (hwrite.self.symm.trans hrow)
      exact (hself a' hwait hget' hopen).of_terms hsame.symm
    rw [hwrite.others id hid] at hrow
    obtain ⟨hwas, hunknowns⟩ := hothers id hid hwait
    rw [hunknowns]
    exact ((h.waits id row a' hwas hrow hget' hopen).mono hclock).of_terms hsame.symm

theorem LeaseRow.Unmarked.moved {phase : EvaluationPhase} {row row' : LeaseRow}
    (h : row.Unmarked) (hmove : LeaseRow.Moved phase row row') : row'.Unmarked where
  grace := (congrArg LeaseBearings.graceDeadlineAt hmove.bearings_eq).trans h.grace
  reason := hmove.reason_eq ▸ h.reason

theorem VigilSound.decides (h : VigilSound w) {now : Millis} (svc : LeaseReconciliationService)
    (hclock : w.clock ≤ now) (hwait : w.Waits id) (hlease : EvaluatedLease w.state.db id row a) :
    svc.decidedAction now row a = .cancel ∨
      ((w.vigil id).unknowns = 0 ∧ row.snapshotJson.evaluation.phase = .inspecting ∧
        svc.decidedAction now row a = .inspect) := by
  have hopen := hlease.evaluable.openAt
  have hunmarked := h.unmarked id row hlease.get_row hlease.evaluable
  obtain ⟨hsilent, hexpired, hphase⟩ :=
    (h.waits id row a hwait hlease.get_row hlease.get_attempt hlease.evaluable).mono hclock
  cases hhard : a.hardDeadlineAt.any (· ≤ now) with
  | true => exact .inl (evaluateLease_hard hopen hlease.notClosed hhard)
  | false =>
    rcases hphase with hphase | ⟨hnone, hphase⟩
    · exact .inl (evaluateLease_unmarked hopen hphase hunmarked.grace hunmarked.reason hsilent
        hexpired hhard).1
    refine .inr ⟨hnone, hphase, ?_⟩
    show (evaluateLease now svc.policy a.hardDeadlineAt row.snapshotJson).action = .inspect
    rw [evaluateLease_silent hsilent hopen hlease.notClosed hlease.evaluable.notCancelled
      (by simp [inspectionExhausted, hphase]) hhard hexpired, evaluateExpired, hphase]

theorem clock_le (clock : Millis) (elapsed : Nat) : clock ≤ clock + (elapsed : Int) :=
  Int.le_add_of_nonneg_right (Int.natCast_nonneg elapsed)

theorem waits_of_same (w w' : Watched) (hvigil : w'.vigil = w.vigil)
    (hinspections : ∀ i ∈ w'.state.inspections, i ∈ w.state.inspections) (hwait : w'.Waits id) :
    w.Waits id ∧ (w'.vigil id).unknowns = (w.vigil id).unknowns := by
  obtain ⟨hsilent, hwhy⟩ := hwait
  rw [hvigil] at hsilent hwhy ⊢
  refine ⟨⟨hsilent, hwhy.imp_left ?_⟩, rfl⟩
  rintro ⟨i, hi, hid⟩
  exact ⟨i, hinspections i hi, hid⟩

theorem VigilSound.evaluate (h : VigilSound w) (svc : LeaseReconciliationService) (elapsed : Nat)
    (attemptId : String) (cardId : Nat) :
    VigilSound (watchedStep svc w (elapsed, .evaluate attemptId cardId)) := by
  have hclock := clock_le w.clock elapsed
  have hbehind := h.behind.evaluate svc (w.clock + elapsed) attemptId cardId
  have heffect := evaluateAndAct_cases svc (w.clock + elapsed) attemptId cardId h.behind.coherent
  have hkeeps : ∀ s' : ReconcilerState, s'.inspections = w.state.inspections → ∀ id,
      Watched.Waits ⟨s', w.clock + elapsed, w.vigil⟩ id →
      w.Waits id ∧ (w.vigil id).unknowns = (w.vigil id).unknowns :=
    fun s' hsame id hwait => waits_of_same w ⟨s', w.clock + elapsed, w.vigil⟩ rfl
      (fun i hi => hsame ▸ hi) hwait
  show VigilSound ⟨svc.evaluateAndAct (w.clock + elapsed) attemptId cardId w.state,
    w.clock + elapsed, w.vigil⟩
  cases heffect with
  | idle hdb hsame =>
    exact h.congr hbehind hdb hclock fun id row hwait _ _ => hkeeps _ hsame id hwait
  | rests row row' a phase hlease hdecided hwrite hmove hsame =>
    refine h.write hbehind hwrite hclock (fun id _ hwait => hkeeps _ hsame id hwait)
      (fun _ => (h.unmarked attemptId row hlease.get_row hlease.evaluable).moved hmove) ?_
    intro _ hwait _ _
    -- a lease that waits is cancelled or still being inspected
    rcases h.decides svc hclock (hkeeps _ hsame attemptId hwait).1 hlease with
      hact | ⟨-, hphase, hact⟩
    · rw [hact] at hdecided
      rcases hdecided with ⟨hne, -⟩ | ⟨hne, -⟩ | ⟨hne, -, -⟩ <;> cases hne
    · rw [hact] at hdecided
      rcases hdecided with ⟨hne, -⟩ | ⟨hne, -⟩ | ⟨-, -, hne⟩
      · cases hne
      · cases hne
      · exact absurd hphase hne
  | inspects row row' a hlease hdecided hnot hwrite hmove hlt hstarted =>
    refine h.write hbehind hwrite hclock ?_
      (fun _ => (h.unmarked attemptId row hlease.get_row hlease.evaluable).moved hmove) ?_
    · rintro id hid ⟨hsilent, hwhy⟩
      refine ⟨⟨hsilent, hwhy.imp_left ?_⟩, rfl⟩
      rintro ⟨i, hi, rfl⟩
      rw [hstarted, List.mem_append, List.mem_singleton] at hi
      rcases hi with hi | rfl
      · exact ⟨i, hi, rfl⟩
      · exact absurd rfl hid
    · rintro a' ⟨hsilent, -⟩ hget -
      obtain rfl : a = a' := Option.some.inj (hlease.get_attempt.symm.trans hget)
      obtain ⟨hquiet, hexpired⟩ := evaluateLease_inspect hlease.evaluable.openAt
        hlease.notClosed hlease.evaluable.notCancelled hdecided
      refine ⟨silent_congr hmove.bearings_eq hquiet,
        (deadlineExpired_congr hmove.bearings_eq).trans hexpired, .inr ⟨?_, hmove.phase_eq⟩⟩
      -- one that came back unknown would have been cancelled instead
      by_contra hsome
      have hwait : w.Waits attemptId := ⟨hsilent, .inr (Nat.one_le_iff_ne_zero.2 hsome)⟩
      rcases h.decides svc hclock hwait hlease with hact | ⟨hnone, -, -⟩
      · rw [hact] at hdecided
        cases hdecided
      · exact hsome hnone
  | cancels row row' a hlease hdecided hwrite hlt hended hsame =>
    have hover : ¬ row'.Evaluable := by
      intro hopen
      rcases hended with hcancel | ⟨-, hclosed⟩
      · exact hopen.notCancelled hcancel
      · rw [hopen.openAt] at hclosed
        cases hclosed
    exact h.write hbehind hwrite hclock (fun id _ hwait => hkeeps _ hsame id hwait)
      (fun hopen => absurd hopen hover) fun _ _ _ hopen => absurd hopen hover

/-- The other vigils are not touched by a settled inspection, and no inspection of
theirs begins. -/
theorem waits_of_settles {v : Vigil} {db : Db} (hid : id ≠ i.attemptId)
    (hwait : Watched.Waits
      ⟨{ w.state with db := db, inspections := w.state.inspections.eraseIdx index }, clock,
        Function.update w.vigil i.attemptId v⟩ id) :
    w.Waits id ∧ (Function.update w.vigil i.attemptId v id).unknowns = (w.vigil id).unknowns := by
  obtain ⟨hsilent, hwhy⟩ := hwait
  simp only [Function.update_of_ne hid] at hsilent hwhy ⊢
  refine ⟨⟨hsilent, hwhy.imp_left ?_⟩, trivial⟩
  rintro ⟨j, hj, hjd⟩
  exact ⟨j, List.mem_of_mem_eraseIdx hj, hjd⟩

theorem VigilSound.settles (h : VigilSound w) (svc : LeaseReconciliationService) (elapsed : Nat)
    (result : InspectionResult) (hi : w.state.inspections[index]? = some i) :
    VigilSound
      { state :=
          { w.state with
            db := svc.inspectionSettled (w.clock + elapsed) i result w.state.db
            inspections := w.state.inspections.eraseIdx index }
        clock := w.clock + elapsed
        vigil := Function.update w.vigil i.attemptId
          ((w.vigil i.attemptId).settle svc (w.clock + elapsed) w.state.db i result) } := by
  have hmem := List.mem_of_getElem? hi
  have hclock := clock_le w.clock elapsed
  have hbehind := h.behind.settles svc (w.clock + elapsed) result hi
  -- a vigil that is still silent has seen an unknown result
  have hother : ∀ {v : Vigil}, v = (w.vigil i.attemptId).settle svc (w.clock + elapsed)
      w.state.db i result → v.silent = true → (w.vigil i.attemptId).silent = true ∧
        result = .other := by
    rintro v rfl hsilent
    simpa [Vigil.settle] using hsilent
  cases h.behind.effect svc (w.clock + elapsed) result hmem with
  | idle hdb hwhy =>
    refine h.congr hbehind hdb hclock fun id row hwait hrow hopen => ?_
    by_cases hid : id = i.attemptId
    · subst hid
      obtain ⟨-, hresult⟩ := hother (Function.update_self _ _ _) hwait.1
      rcases hwhy with hrejected | hover
      · rw [hresult] at hrejected
        cases hrejected
      · exact absurd hopen (hover row hrow)
    · exact waits_of_settles hid hwait
  | answers row row' hrow hopen hnotRejected hnotTerminal hwrite hmove =>
    refine h.write hbehind hwrite hclock (fun id hid hwait => waits_of_settles hid hwait)
      (fun _ => (h.unmarked _ row hrow hopen).moved hmove) fun a hwait hget _ => ?_
    obtain ⟨hsilent, rfl⟩ := hother (Function.update_self _ _ _) hwait.1
    have hwas : w.Waits i.attemptId := ⟨hsilent, .inl ⟨i, hmem, rfl⟩⟩
    obtain ⟨hquiet, hexpired, -⟩ := (h.waits _ row a hwas hrow hget hopen).mono hclock
    refine ⟨silent_congr hmove.bearings_eq hquiet,
      (deadlineExpired_congr hmove.bearings_eq).trans hexpired, .inl ?_⟩
    exact hmove.phase_eq.trans ((applyInspectionOutcome_phase (w.clock + elapsed) svc.policy
      i.attempt.hardDeadlineAt row.snapshotJson .unknown (by decide)).2.2 rfl)
  | closes row row' hrow hterminal hwrite hversion hended =>
    have hover : ¬ row'.Evaluable := by
      intro hopen
      rw [hopen.openAt] at hended
      cases hended.2
    exact h.write hbehind hwrite hclock (fun id hid hwait => waits_of_settles hid hwait)
      (fun hopen => absurd hopen hover) fun _ _ _ hopen => absurd hopen hover

/-- A fact begins a silence that nothing has happened in yet. -/
theorem VigilSound.appendFact (h : VigilSound w) (svc : LeaseReconciliationService) (elapsed : Nat)
    (policy : LeasePolicy) (resolver : Option PendingInputResolver) (fact : ProgressFact) :
    VigilSound (watchedStep svc w (elapsed, .appendFact policy resolver fact)) := by
  let w' := watchedStep svc w (elapsed, .appendFact policy resolver fact)
  have hclock := clock_le w.clock elapsed
  have hbehind := h.behind.appendFact svc (w.clock + elapsed) policy resolver fact
  have hfresh : ¬ w'.Waits fact.attemptId := by
    rintro ⟨hsilent, hwhy⟩
    simp only [w', watchedStep, observe, Function.update_self, List.all_eq_true,
      decide_eq_true_eq] at hsilent hwhy
    rcases hwhy with ⟨i, hi, hid⟩ | hone
    · exact hsilent i hi hid
    · exact absurd hone (by decide)
  have hothers : ∀ id, id ≠ fact.attemptId → w'.Waits id →
      w.Waits id ∧ (w'.vigil id).unknowns = (w.vigil id).unknowns := by
    rintro id hid ⟨hsilent, hwhy⟩
    simp only [w', watchedStep, observe, Function.update_of_ne hid] at hsilent hwhy ⊢
    exact ⟨⟨hsilent, hwhy⟩, trivial⟩
  rcases appendFact_write svc.rt h.behind.coherent (w.clock + elapsed) policy resolver fact with
    hsame | ⟨row', hwrite, hopen, hevaluation⟩
  · refine h.congr hbehind hsame hclock fun id row hwait _ _ => ?_
    by_cases hid : id = fact.attemptId
    · subst hid
      exact absurd hwait hfresh
    · exact hothers id hid hwait
  · refine h.write hbehind hwrite hclock hothers (fun hopen' => ?_)
      fun _ hwait => absurd hwait hfresh
    rcases hevaluation with ⟨-, heq⟩ | ⟨row, hrow, hwas, heq, -⟩
    · exact ⟨by rw [heq], by rw [heq]; decide⟩
    · have hunmarked := h.unmarked _ row hrow ⟨hwas, heq ▸ hopen'.notCancelled⟩
      exact ⟨heq ▸ hunmarked.grace, heq ▸ hunmarked.reason⟩

theorem VigilSound.step (h : VigilSound w) (svc : LeaseReconciliationService)
    (op : Nat × ReconcilerOp) : VigilSound (watchedStep svc w op) := by
  obtain ⟨elapsed, op⟩ := op
  have hclock := clock_le w.clock elapsed
  cases op with
  | evaluate attemptId cardId => exact h.evaluate svc elapsed attemptId cardId
  | appendFact policy resolver fact => exact h.appendFact svc elapsed policy resolver fact
  | inspectionSettles index result =>
    cases hi : w.state.inspections[index]? with
    | none =>
      have hstep : watchedStep svc w (elapsed, .inspectionSettles index result) =
          { w with clock := w.clock + elapsed } := by
        simp only [watchedStep, reconcilerStep, observe, hi]
      rw [hstep]
      exact h.congr h.behind rfl hclock fun id _ hwait _ _ =>
        waits_of_same w { w with clock := w.clock + elapsed } rfl (fun i hi => hi) hwait
    | some i =>
      have hstep := h.settles svc elapsed result hi
      simpa only [watchedStep, reconcilerStep, observe, hi] using hstep
  | cancelSettles index =>
    obtain ⟨hdb, hinspections⟩ := cancelSettles_same svc w.state (w.clock + elapsed) index
    have hbehind := h.behind.congr hdb fun i hi => hinspections ▸ hi
    let w' : Watched :=
      ⟨reconcilerStep svc w.state (w.clock + elapsed, .cancelSettles index),
        w.clock + elapsed, w.vigil⟩
    exact h.congr hbehind hdb hclock fun id _ hwait _ _ =>
      waits_of_same w w' rfl (fun i hi => hinspections ▸ hi) hwait
  | closeLease attemptId generation reason =>
    let w' := watchedStep svc w (elapsed, .closeLease attemptId generation reason)
    have hbehind := h.behind.step svc (w.clock + elapsed, .closeLease attemptId generation reason)
    have hkeeps : ∀ id, w'.Waits id →
        w.Waits id ∧ (w'.vigil id).unknowns = (w.vigil id).unknowns :=
      fun id hwait => waits_of_same w w' rfl (fun i hi => hi) hwait
    rcases closeLease_write h.behind.coherent (w.clock + elapsed) attemptId generation reason with
      ⟨hsame, -⟩ | ⟨row', hwrite, -, hat, -⟩
    · exact h.congr hbehind hsame hclock fun id _ hwait _ _ => hkeeps id hwait
    · have hover : ¬ row'.Evaluable := by
        intro hopen
        rw [hopen.openAt] at hat
        cases hat
      exact h.write hbehind hwrite hclock (fun id _ hwait => hkeeps id hwait)
        (fun hopen => absurd hopen hover) fun _ _ _ hopen => absurd hopen hover

/-! ## What a run respects -/

theorem VigilSound.not_exhausted (h : VigilSound w) (svc : LeaseReconciliationService)
    {elapsed : Nat} (hi : w.state.inspections[index]? = some i)
    (hrow : w.state.db.attemptLeaseSnapshots.get i.attemptId = some row) (hopen : row.Evaluable) :
    ∃ row', (watchedStep svc w
        (elapsed, .inspectionSettles index .other)).state.db.attemptLeaseSnapshots.get i.attemptId =
          some row' ∧
      inspectionExhausted svc.policy row'.snapshotJson = false := by
  simp only [watchedStep, reconcilerStep, hi]
  cases h.behind.effect svc (w.clock + elapsed) .other (List.mem_of_getElem? hi) with
  | idle hdb hwhy =>
    rcases hwhy with hrejected | hover
    · cases hrejected
    · exact absurd hopen (hover row hrow)
  | answers row₀ row' hrow₀ _ _ _ hwrite hmove =>
    obtain rfl : row = row₀ := Option.some.inj (hrow.symm.trans hrow₀)
    have hunmarked := (h.unmarked _ row hrow hopen).moved hmove
    exact ⟨row', hwrite.self, by simp [inspectionExhausted, hunmarked.reason]⟩
  | closes _ _ _ hterminal => cases hterminal

/-- In a watched state an operation respects the inspections exactly when it
outlasts the graces. -/
theorem VigilSound.honoured_iff (h : VigilSound w) (svc : LeaseReconciliationService)
    (hbound : 1 ≤ svc.policy.maxUnknownInspections) (op : Nat × ReconcilerOp) :
    InspectionsHonoured svc w op ↔ OutlastsGrace svc w op := by
  obtain ⟨elapsed, op⟩ := op
  have hclock := clock_le w.clock elapsed
  cases op with
  | evaluate attemptId cardId =>
    constructor
    · intro hhonours row a hlease hlive hphase hsilent hexpired hhard
      have hunmarked := h.unmarked attemptId row hlease.get_row hlease.evaluable
      exact (hhonours row a hlease).spared hlive (evaluateLease_unmarked
        hlease.evaluable.openAt hphase hunmarked.grace hunmarked.reason hsilent hexpired hhard)
    intro houtlasts row a hlease
    constructor
    · intro hsilent hmany
      have hsome : 1 ≤ (w.vigil attemptId).unknowns := hbound.trans hmany
      rcases h.decides svc hclock ⟨hsilent, .inr hsome⟩ hlease with hact | ⟨hnone, -, -⟩
      · exact hact
      · omega
    intro hlive hcancels
    obtain ⟨hphase, hsilent, hexpired, hhard⟩ := evaluateLease_silence
      hlease.evaluable.openAt hlease.notClosed hlease.evaluable.notCancelled hcancels
    exact houtlasts row a hlease hlive hphase hsilent hexpired hhard
  | inspectionSettles index result =>
    cases result with
    | other =>
      constructor
      · intro hhonours i row hi hrow hopen
        by_contra hcount
        obtain ⟨row', hrow', hlost⟩ := h.not_exhausted svc hi hrow hopen
        have hkept := hhonours i row row' hi hrow hopen
          ((inspectionExhausted_unknown _ _).2 (Nat.not_lt.1 hcount)) hrow'
        rw [hlost] at hkept
        cases hkept
      · intro houtlasts i row row' hi hrow hopen hexhausted _
        have hcount := (inspectionExhausted_unknown _ _).1 hexhausted
        exact absurd (houtlasts i row hi hrow hopen) (Nat.not_lt.2 hcount)
    | _ => exact Iff.rfl
  | _ => exact Iff.rfl

end Watch

theorem watch_sound {s : ReconcilerState} (clock : Millis) (hbehind : InspectionsBehind s)
    (hidle : s.inspections = [])
    (hunmarked : ∀ id row, s.db.attemptLeaseSnapshots.get id = some row → row.Evaluable →
      row.Unmarked) : VigilSound (watch s clock) where
  behind := hbehind
  unmarked := hunmarked
  waits := by
    rintro id row a ⟨-, ⟨i, hi, -⟩ | hone⟩
    · rw [watch, hidle] at hi
      cases hi
    · exact absurd hone (Nat.not_succ_le_zero 0)

/-- For every policy and every run from a store without marks, with nothing in
flight: the bound on unknown inspections, its mark and the granted graces are
respected by all steps exactly when every step outlasts the graces. -/
theorem inspectionsHonoured_iff_outlastsGrace (svc : LeaseReconciliationService)
    (s : ReconcilerState) (clock : Millis) (ops : List (Nat × ReconcilerOp))
    (hbound : 1 ≤ svc.policy.maxUnknownInspections) (hbehind : InspectionsBehind s)
    (hidle : s.inspections = [])
    (hunmarked : ∀ id row, s.db.attemptLeaseSnapshots.get id = some row → row.Evaluable →
      row.Unmarked) :
    StepsMeet (watchedStep svc) (InspectionsHonoured svc) (watch s clock) ops ↔
      StepsMeet (watchedStep svc) (OutlastsGrace svc) (watch s clock) ops :=
  stepsMeet_iff_of_invariant (fun _ op hw => hw.step svc op)
    (fun _ op hw => hw.honoured_iff svc hbound op) ops (watch s clock)
    (watch_sound clock hbehind hidle hunmarked)

/-! ## A grace that is cut short -/

def unknownRun : List (Nat × ReconcilerOp) :=
  [(0, .appendFact defaultLocalPolicy none heartbeat), (600000, .evaluate "a1" 1),
    (0, .evaluate "a1" 1), (100, .inspectionSettles 0 .other)]

/-- An evaluation after the grace respects it. -/
theorem inspectionsHonoured_after_grace :
    StepsMeet (watchedStep adaptedService) (InspectionsHonoured adaptedService)
      (watch runningAttemptState 0) (unknownRun ++ [(30000, .evaluate "a1" 1)]) := by
  refine (inspectionsHonoured_iff_outlastsGrace adaptedService runningAttemptState 0 _ (by decide)
    runningAttemptState_behind rfl ?_).2 ?_
  · exact fun _ _ hrow => absurd (Table.mem_of_get hrow) (Table.not_mem_empty _)
  · have hgraces : ∀ (w : Watched) (elapsed : Nat),
        (w.vigil "a1").graces.all (fun g => decide (g ≤ w.clock + elapsed)) = true →
        OutlastsGrace adaptedService w (elapsed, .evaluate "a1" 1) := by
      intro w elapsed hall row a _ _ _ _ _ _ g hg
      exact of_decide_eq_true (List.all_eq_true.1 hall g hg)
    have hcounts : ∀ (w : Watched) (elapsed index : Nat),
        w.state.db.attemptLeaseSnapshots.rows.all (fun r =>
          decide (r.snapshotJson.evaluation.inspectionCount + 1 < 3)) = true →
        OutlastsGrace adaptedService w (elapsed, .inspectionSettles index .other) := by
      intro w elapsed index hall i row _ hrow _
      exact of_decide_eq_true (List.all_eq_true.1 hall row (Table.mem_of_get hrow))
    exact ⟨trivial, hgraces _ _ (by decide +kernel), hgraces _ _ (by decide +kernel),
      hcounts _ _ _ (by decide +kernel), hgraces _ _ (by decide +kernel), trivial⟩

theorem unknownRun_graces : ((runFrom (watchedStep adaptedService)
    (watch runningAttemptState 0) unknownRun).vigil "a1").graces = [630100] := by
  decide +kernel

/-- An evaluation one millisecond later cancels the attempt. -/
theorem grace_cut_short :
    (¬ ∀ (svc : LeaseReconciliationService) (s : ReconcilerState) (clock : Millis)
      (ops : List (Nat × ReconcilerOp)), 1 ≤ svc.policy.maxUnknownInspections →
      InspectionsBehind s → s.inspections = [] →
      (∀ id row, s.db.attemptLeaseSnapshots.get id = some row → row.Evaluable → row.Unmarked) →
      StepsMeet (watchedStep svc) (InspectionsHonoured svc) (watch s clock) ops) ∧
    ((runFrom (watchedStep adaptedService) (watch runningAttemptState 0)
      (unknownRun ++ [(1, .evaluate "a1" 1)])).state.db.workerAttempts.get "a1").map
        (fun a => (a.lifecycle, a.cancelReason)) =
      some (.cancelRequested, some "lease:progress_expired") := by
  constructor
  · intro hclaim
    have hmeets := hclaim adaptedService runningAttemptState 0
      (unknownRun ++ [(1, .evaluate "a1" 1)]) (by decide) runningAttemptState_behind rfl
      fun _ _ hrow => absurd (Table.mem_of_get hrow) (Table.not_mem_empty _)
    obtain ⟨hhonours, -⟩ := ((stepsMeet_append unknownRun _ _).1 hmeets).2
    obtain ⟨w, hw⟩ : ∃ w, w = runFrom (watchedStep adaptedService)
      (watch runningAttemptState 0) unknownRun := ⟨_, rfl⟩
    have hread : (w.state.db.attemptLeaseSnapshots.get "a1").any (fun row =>
        (w.state.db.workerAttempts.get "a1").any fun a =>
          decide (row.snapshotJson.closedAt = none) &&
          decide (row.snapshotJson.evaluation.phase = .inspectGrace) &&
          decide (a.lifecycle.isLive = true) &&
          decide (evaluateLease (w.clock + 1) defaultLocalPolicy a.hardDeadlineAt
            row.snapshotJson = { action := .cancel, reason := some .progressExpired }) &&
          decide (w.clock + 1 = 600101)) = true := by
      rw [hw]
      decide +kernel
    obtain ⟨row, hrow, hread⟩ := (Option.any_eq_true _ _).1 hread
    obtain ⟨a, hget, hread⟩ := (Option.any_eq_true _ _).1 hread
    simp only [Bool.and_eq_true, decide_eq_true_eq] at hread
    obtain ⟨⟨⟨⟨hopen, hphase⟩, hlive⟩, hdecision⟩, hnow⟩ := hread
    rw [← hw] at hhonours
    have hspared := (hhonours row a ⟨hrow, hget, ⟨hopen, by rw [hphase]; decide⟩,
      by rw [hphase]; decide⟩).spared hlive
    have hdue := hspared (by
      show (evaluateLease (w.clock + 1) defaultLocalPolicy _ _).CancelsForSilence
      rw [hdecision]
      exact ⟨rfl, .inr rfl⟩) 630100 (by rw [hw, unknownRun_graces]; exact List.mem_singleton.2 rfl)
    have hlate : (630100 : Int) ≤ 600101 := hnow ▸ hdue
    omega
  · decide +kernel

end Abtars
