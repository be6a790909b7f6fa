import Abtars.Lease.Reconciler

/-!
# Inspections that do not come back

While an inspection is in flight its lease stays in phase inspecting, and
evaluations of an overdue lease leave it alone.  The answer moves the lease on.
A rejected inspection should move it on as well, but it asks for the version the
evaluation saw before it moved the lease to inspecting, and that version is gone.
-/

namespace Abtars

open Lib LeaseReconciliationService

/-! ## Wedged leases -/

def InFlight (s : ReconcilerState) (attemptId : String) : Prop :=
  ∃ i ∈ s.inspections, i.attemptId = attemptId

def LeaseRow.Inspecting (row : LeaseRow) : Prop :=
  row.snapshotJson.evaluation.phase = .inspecting

def EventuallyActs (svc : LeaseReconciliationService) (s : ReconcilerState)
    (attemptId : String) : Prop :=
  ∃ from_ : Millis, ∀ now, from_ ≤ now → ∀ cardId, ∃ row row',
    s.db.attemptLeaseSnapshots.get attemptId = some row ∧
      (svc.evaluateAndAct now attemptId cardId s).db.attemptLeaseSnapshots.get attemptId =
        some row' ∧ row.stateVersion < row'.stateVersion

/-- No lease is left in phase inspecting by the inspections that settled, and no
silent live attempt is left alone by every later evaluation: unless its
inspection is still in flight, its evaluations write the lease from some instant
on. -/
structure NoWedge (svc : LeaseReconciliationService) (s : ReconcilerState) : Prop where
  inspecting : ∀ id row, s.db.attemptLeaseSnapshots.get id = some row → row.Inspecting →
    InFlight s id
  silent : ∀ id row a, s.db.attemptLeaseSnapshots.get id = some row → row.Evaluable →
    s.db.workerAttempts.get id = some a → a.lifecycle.isLive = true →
    InFlight s id ∨ EventuallyActs svc s id

/-- A rejection finds the lease moved on already, or another inspection of the
attempt in flight. -/
def Returns (s : ReconcilerState) : Millis × ReconcilerOp → Prop
  | (_, .inspectionSettles index .rejected) =>
    ∀ i row, s.inspections[index]? = some i →
      s.db.attemptLeaseSnapshots.get i.attemptId = some row → row.Inspecting →
      ∃ k j, k ≠ index ∧ s.inspections[k]? = some j ∧ j.attemptId = i.attemptId
  | _ => True

section Overdue

variable {now : Millis} {s : AttemptLeaseSnapshot}

def AttemptLeaseSnapshot.lastDeadline (s : AttemptLeaseSnapshot) : Millis :=
  max (max s.livenessDeadlineAt s.progressDeadlineAt)
    (max (max ((s.awaitingInput.map (·.deadlineAt)).getD s.livenessDeadlineAt)
        ((s.operation.map (·.absoluteSilenceDeadlineAt)).getD s.livenessDeadlineAt))
      (s.evaluation.graceDeadlineAt.getD s.livenessDeadlineAt))

/-- Past every deadline an open snapshot is not healthy: it is warned about,
inspected or cancelled, by the phase it is in. -/
theorem evaluateLease_overdue (policy : LeasePolicy) (hard : Option Millis)
    (hopen : s.closedAt = none) (hphase : s.evaluation.phase ≠ .closed)
    (hcancel : s.evaluation.phase ≠ .cancelRequested) (hdue : s.lastDeadline ≤ now) :
    (evaluateLease now policy hard s).action = .cancel ∨
      ((evaluateLease now policy hard s).action = .warning ∧ s.evaluation.phase = .healthy) ∨
      ((evaluateLease now policy hard s).action = .inspect ∧
        (s.evaluation.phase = .warning ∨ s.evaluation.phase = .inspecting ∨
          s.evaluation.phase = .inspectDue)) := by
  simp only [AttemptLeaseSnapshot.lastDeadline, max_le_iff] at hdue
  obtain ⟨⟨hliveness, -⟩, ⟨hinputDue, hoperationDue⟩, hgraceDue⟩ := hdue
  have hexpired : deadlineExpired now hard s = true := by
    simp only [deadlineExpired, Bool.decide_or, Bool.or_eq_true, decide_eq_true_eq]
    exact .inl ((clampAt_le hard _).trans hliveness)
  have hgrace : s.evaluation.graceDeadlineAt.getD now ≤ now := by
    cases hg : s.evaluation.graceDeadlineAt with
    | none => exact le_refl now
    | some g =>
      rw [hg] at hgraceDue
      exact hgraceDue
  have hladder : (evaluateExpired now hard s).action = .cancel ∨
      ((evaluateExpired now hard s).action = .warning ∧ s.evaluation.phase = .healthy) ∨
      ((evaluateExpired now hard s).action = .inspect ∧
        (s.evaluation.phase = .warning ∨ s.evaluation.phase = .inspecting ∨
          s.evaluation.phase = .inspectDue)) := by
    unfold evaluateExpired
    cases hp : s.evaluation.phase with
    | healthy => exact .inr (.inl ⟨rfl, rfl⟩)
    | warning =>
      dsimp only
      split
      · exact .inl rfl
      · exact .inr (.inr ⟨rfl, .inl rfl⟩)
    | inspectDue => exact .inr (.inr ⟨rfl, .inr (.inr rfl)⟩)
    | inspecting => exact .inr (.inr ⟨rfl, .inr (.inl rfl)⟩)
    | inspectGrace =>
      dsimp only
      rw [if_pos hgrace]
      exact .inl rfl
    | cancelRequested => exact absurd hp hcancel
    | closed => exact absurd hp hphase
  have hdeadlines : evaluateDeadlines now policy hard s = evaluateExpired now hard s := by
    simp [evaluateDeadlines, hexpired]
  have hoperation : (evaluateOperation now policy hard s).action = .cancel ∨
      evaluateOperation now policy hard s = evaluateExpired now hard s := by
    unfold evaluateOperation
    cases hop : s.operation with
    | none => exact .inr hdeadlines
    | some op =>
      have hsilence : op.absoluteSilenceDeadlineAt ≤ now := by
        rw [hop] at hoperationDue
        exact hoperationDue
      exact .inl (by simp [hsilence])
  have hawaiting : (evaluateAwaiting now policy hard s).action = .cancel ∨
      evaluateAwaiting now policy hard s = evaluateExpired now hard s := by
    unfold evaluateAwaiting
    cases hinput : s.awaitingInput with
    | none => exact hoperation
    | some input =>
      have hwait : input.deadlineAt ≤ now := by
        rw [hinput] at hinputDue
        exact hinputDue
      simp only [if_pos hwait]
      split
      · exact .inl rfl
      · exact hoperation
  unfold evaluateLease
  simp only [hphase, hopen, hcancel, Option.isSome_none, Bool.false_eq_true, or_self, if_false]
  split
  · exact .inl rfl
  split
  · exact .inl rfl
  split
  · exact .inl rfl
  rcases hawaiting with hact | heq
  · exact .inl hact
  · rw [heq]
    exact hladder

structure AttemptLeaseSnapshot.Silent (s : AttemptLeaseSnapshot) : Prop where
  notStalled : s.semanticState ≠ .stalled
  notAwaiting : s.awaitingInput = none ∨ s.semanticState ≠ .awaitingInput
  noOperation : s.operation = none

/-- Of a silent overdue snapshot the phase alone decides, once the hard deadline
and an exhausted inspection do not. -/
theorem evaluateLease_silent {policy : LeasePolicy} {hard : Option Millis} (hsilent : s.Silent)
    (hopen : s.closedAt = none) (hphase : s.evaluation.phase ≠ .closed)
    (hcancel : s.evaluation.phase ≠ .cancelRequested)
    (hexhausted : inspectionExhausted policy s = false) (hhard : hard.any (· ≤ now) = false)
    (hdue : deadlineExpired now hard s = true) :
    evaluateLease now policy hard s = evaluateExpired now hard s := by
  have hdeadlines : evaluateOperation now policy hard s = evaluateExpired now hard s := by
    simp [evaluateOperation, hsilent.noOperation, evaluateDeadlines, hdue]
  have hawaiting : evaluateAwaiting now policy hard s = evaluateExpired now hard s := by
    unfold evaluateAwaiting
    split
    · exact hdeadlines
    rename_i input hinput
    rcases hsilent.notAwaiting with hnone | hstate
    · rw [hnone] at hinput
      cases hinput
    · rw [if_neg hstate]
      exact hdeadlines
  simp only [evaluateLease, hphase, hopen, hcancel, hexhausted, hhard, hsilent.notStalled,
    Option.isSome_none, Bool.false_eq_true, or_self, if_false]
  exact hawaiting

end Overdue

/-! ## The invariant -/

/-- The inspections in flight and the leases they were started for: each was
started at an older version, for an attempt whose terms still hold. -/
structure InspectionsBehind (s : ReconcilerState) : Prop where
  coherent : LeasesCoherent s.db.attemptLeaseSnapshots
  closed : ∀ id row, s.db.attemptLeaseSnapshots.get id = some row →
    row.snapshotJson.evaluation.phase = .closed → row.snapshotJson.closedAt.isSome = true
  behind : ∀ i ∈ s.inspections, ∃ row,
    s.db.attemptLeaseSnapshots.get i.attemptId = some row ∧ i.stateVersion < row.stateVersion
  owned : ∀ i ∈ s.inspections,
    (s.db.workerAttempts.get i.attemptId).map AttemptRow.terms = some i.attempt.terms

structure InspectionsSound (s : ReconcilerState) : Prop extends InspectionsBehind s where
  inspecting : ∀ id row, s.db.attemptLeaseSnapshots.get id = some row → row.Inspecting →
    InFlight s id

section Step

variable {row : LeaseRow}

variable {svc : LeaseReconciliationService} {s s' : ReconcilerState} {target : String}
  {row' : LeaseRow}

theorem InspectionsBehind.congr (h : InspectionsBehind s) (hdb : s'.db = s.db)
    (hinspections : ∀ i ∈ s'.inspections, i ∈ s.inspections) : InspectionsBehind s' where
  coherent := hdb ▸ h.coherent
  closed := hdb ▸ h.closed
  behind := fun i hi => hdb ▸ h.behind i (hinspections i hi)
  owned := fun i hi => hdb ▸ h.owned i (hinspections i hi)

/-- A write of one lease that does not take its version back. -/
theorem InspectionsBehind.write (h : InspectionsBehind s)
    (hwrite : LeaseWrite target row' s.db s'.db)
    (hversion : ∀ row, s.db.attemptLeaseSnapshots.get target = some row →
      row.stateVersion ≤ row'.stateVersion)
    (hcome : ∀ i ∈ s'.inspections, i ∈ s.inspections ∨
      i.attemptId = target ∧ i.stateVersion < row'.stateVersion ∧
        (s.db.workerAttempts.get i.attemptId).map AttemptRow.terms = some i.attempt.terms)
    (hclosed : row'.snapshotJson.evaluation.phase = .closed →
      row'.snapshotJson.closedAt.isSome = true) : InspectionsBehind s' where
  coherent := hwrite.coherent
  closed := by
    intro id row hrow hphase
    by_cases hid : id = target
    · subst hid
      obtain rfl : row' = row := Option.some.inj (hwrite.self.symm.trans hrow)
      exact hclosed hphase
    · rw [hwrite.others id hid] at hrow
      exact h.closed id row hrow hphase
  behind := by
    intro i hi
    rcases hcome i hi with hold | ⟨htarget, hlt, -⟩
    · obtain ⟨row, hrow, hlt⟩ := h.behind i hold
      by_cases hid : i.attemptId = target
      · rw [hid] at hrow ⊢
        exact ⟨row', hwrite.self, hlt.trans_le (hversion row hrow)⟩
      · exact ⟨row, by rw [hwrite.others _ hid, hrow], hlt⟩
    · exact ⟨row', by rw [htarget]; exact hwrite.self, hlt⟩
  owned := by
    intro i hi
    rw [hwrite.terms]
    rcases hcome i hi with hold | ⟨-, -, hterms⟩
    · exact h.owned i hold
    · exact hterms

theorem version_le_of_get {id : String} (hrow : s.db.attemptLeaseSnapshots.get id = some row)
    (hle : row.stateVersion ≤ row'.stateVersion) :
    ∀ r, s.db.attemptLeaseSnapshots.get id = some r → r.stateVersion ≤ row'.stateVersion := by
  intro r hr
  obtain rfl : row = r := Option.some.inj (hrow.symm.trans hr)
  exact hle

theorem InspectionsBehind.evaluate (h : InspectionsBehind s) (svc : LeaseReconciliationService)
    (now : Millis) (attemptId : String) (cardId : Nat) :
    InspectionsBehind (svc.evaluateAndAct now attemptId cardId s) := by
  cases evaluateAndAct_cases svc now attemptId cardId h.coherent with
  | idle hdb hsame => exact h.congr hdb fun i hi => hsame ▸ hi
  | rests row row' attempt phase hlease hdecided hwrite hmove hsame =>
    refine h.write hwrite (version_le_of_get hlease.get_row hmove.version_le)
      (fun i hi => .inl (hsame ▸ hi)) fun hc => ?_
    rw [hmove.phase_eq] at hc
    subst hc
    rcases hdecided with ⟨-, hc⟩ | ⟨-, hc⟩ | ⟨-, hc, -⟩ <;> cases hc
  | inspects row row' attempt hlease hdecided hnot hwrite hmove hlt hstarted =>
    have hcoherent := h.coherent row (Table.mem_of_get hlease.get_row)
    refine h.write hwrite (version_le_of_get hlease.get_row hlt.le) ?_
      fun hc => absurd (hmove.phase_eq.symm.trans hc) (by decide)
    intro i hi
    rw [hstarted, List.mem_append, List.mem_singleton] at hi
    rcases hi with hold | rfl
    · exact .inl hold
    · exact .inr ⟨rfl, hcoherent.stateVersion ▸ hlt, by rw [hlease.get_attempt]; rfl⟩
  | cancels row row' attempt hlease hdecided hwrite hlt hended hsame =>
    refine h.write hwrite (version_le_of_get hlease.get_row hlt.le)
      (fun i hi => .inl (hsame ▸ hi)) fun hc => ?_
    rcases hended with hcancel | ⟨-, hclosed⟩
    · rw [hcancel] at hc
      cases hc
    · simp [hclosed]

theorem InspectionsBehind.effect (h : InspectionsBehind s) (svc : LeaseReconciliationService)
    (now : Millis) (result : InspectionResult) {i : Inspection} (hi : i ∈ s.inspections) :
    InspectionEffect svc now i result s.db (svc.inspectionSettled now i result s.db) := by
  obtain ⟨row, hrow, hbehind⟩ := h.behind i hi
  exact inspectionSettled_cases svc now result h.coherent hrow hbehind (h.owned i hi)

theorem outcome_phase (now : Millis) (policy : LeasePolicy) (hard : Option Millis)
    (snapshot : AttemptLeaseSnapshot) (result : InspectionResult) :
    (applyInspectionOutcome now policy hard snapshot (outcomeOf result)).evaluation.phase =
        .healthy ∨
      (applyInspectionOutcome now policy hard snapshot (outcomeOf result)).evaluation.phase =
        .inspectGrace :=
  (applyInspectionOutcome_phase now policy hard snapshot (outcomeOf result)
    (by cases result <;> decide)).2.1

theorem InspectionsBehind.settles (h : InspectionsBehind s) (svc : LeaseReconciliationService)
    (now : Millis) (result : InspectionResult) {index : Nat} {i : Inspection}
    (hi : s.inspections[index]? = some i) :
    InspectionsBehind
      { s with
        db := svc.inspectionSettled now i result s.db
        inspections := s.inspections.eraseIdx index } := by
  cases h.effect svc now result (List.mem_of_getElem? hi) with
  | idle hdb _ => exact h.congr hdb fun j hj => List.mem_of_mem_eraseIdx hj
  | answers row row' hrow hopen hnotRejected hnotTerminal hwrite hmove =>
    refine h.write hwrite (version_le_of_get hrow hmove.version_le)
      (fun j hj => .inl (List.mem_of_mem_eraseIdx hj)) fun hc => ?_
    have hphase := hmove.phase_eq.symm.trans hc
    rcases outcome_phase now svc.policy i.attempt.hardDeadlineAt row.snapshotJson result with
      hr | hr <;> simp [hr] at hphase
  | closes row row' hrow hterminal hwrite hversion hended =>
    exact h.write hwrite (version_le_of_get hrow hversion.le)
      (fun j hj => .inl (List.mem_of_mem_eraseIdx hj)) fun _ => by simp [hended.2]

theorem InspectionsBehind.appendFact (h : InspectionsBehind s)
    (svc : LeaseReconciliationService) (now : Millis) (policy : LeasePolicy)
    (resolver : Option PendingInputResolver) (fact : ProgressFact) :
    InspectionsBehind (reconcilerStep svc s (now, .appendFact policy resolver fact)) := by
  rcases appendFact_write svc.rt h.coherent now policy resolver fact with
    hsame | ⟨row', hwrite, hopen, hevaluation⟩
  · exact h.congr hsame fun i hi => hi
  · refine h.write hwrite ?_ (fun i hi => .inl hi) ?_
    · intro row hrow
      rcases hevaluation with ⟨hnone, -⟩ | ⟨r, hr, -, -, hversion⟩
      · rw [hnone] at hrow
        cases hrow
      · obtain rfl : r = row := Option.some.inj (hr.symm.trans hrow)
        exact hversion
    · intro hphase
      rcases hevaluation with ⟨-, heq⟩ | ⟨r, hr, hopen', heq, -⟩
      · rw [heq] at hphase
        cases hphase
      rw [heq] at hphase
      have hwas := h.closed _ r hr hphase
      rw [hopen'] at hwas
      cases hwas

theorem InspectionsBehind.step (h : InspectionsBehind s) (svc : LeaseReconciliationService)
    (op : Millis × ReconcilerOp) : InspectionsBehind (reconcilerStep svc s op) := by
  obtain ⟨now, op⟩ := op
  cases op with
  | evaluate attemptId cardId => exact h.evaluate svc now attemptId cardId
  | inspectionSettles index result =>
    simp only [reconcilerStep]
    split
    · exact h
    · rename_i i hi
      exact h.settles svc now result hi
  | cancelSettles index =>
    obtain ⟨hdb, hinspections⟩ := cancelSettles_same svc s now index
    exact h.congr hdb fun i hi => hinspections ▸ hi
  | appendFact policy resolver fact => exact h.appendFact svc now policy resolver fact
  | closeLease attemptId generation reason =>
    rcases closeLease_write h.coherent now attemptId generation reason with
      ⟨hsame, -⟩ | ⟨row', hwrite, hphase, hat, hversion⟩
    · exact h.congr hsame fun i hi => hi
    · exact h.write hwrite (fun row hrow => (hversion row hrow).le) (fun i hi => .inl hi)
        fun _ => by simp [hat]

/-! ## No lease is left inspecting -/

/-- A write of one lease: the inspections of the others stay, and its own is there
if it is being inspected. -/
theorem InspectionsSound.write (h : InspectionsSound s) (hbehind : InspectionsBehind s')
    (hwrite : LeaseWrite target row' s.db s'.db)
    (hgo : ∀ i ∈ s.inspections, i.attemptId ≠ target → i ∈ s'.inspections)
    (hinspecting : row'.Inspecting → InFlight s' target) : InspectionsSound s' := by
  refine ⟨hbehind, fun id row hrow hphase => ?_⟩
  by_cases hid : id = target
  · subst hid
    obtain rfl : row' = row := Option.some.inj (hwrite.self.symm.trans hrow)
    exact hinspecting hphase
  · rw [hwrite.others id hid] at hrow
    obtain ⟨i, hi, rfl⟩ := h.inspecting id row hrow hphase
    exact ⟨i, hgo i hi hid, rfl⟩

theorem InspectionsSound.congr (h : InspectionsSound s) (hdb : s'.db = s.db)
    (hinspections : s'.inspections = s.inspections) : InspectionsSound s' := by
  refine ⟨h.toInspectionsBehind.congr hdb fun i hi => hinspections ▸ hi,
    fun id row hrow hphase => ?_⟩
  rw [hdb] at hrow
  obtain ⟨i, hi, hid⟩ := h.inspecting id row hrow hphase
  exact ⟨i, hinspections ▸ hi, hid⟩

theorem InspectionsSound.evaluate (h : InspectionsSound s) (now : Millis) (attemptId : String)
    (cardId : Nat) : InspectionsSound (svc.evaluateAndAct now attemptId cardId s) := by
  have hbehind := h.toInspectionsBehind.evaluate svc now attemptId cardId
  cases evaluateAndAct_cases svc now attemptId cardId h.coherent with
  | idle hdb hsame => exact h.congr hdb hsame
  | rests row row' attempt phase hlease hdecided hwrite hmove hsame =>
    refine h.write hbehind hwrite (fun i hi _ => hsame ▸ hi) fun hi => ?_
    rw [LeaseRow.Inspecting, hmove.phase_eq] at hi
    subst hi
    rcases hdecided with ⟨-, hi⟩ | ⟨-, hi⟩ | ⟨-, hi, -⟩ <;> cases hi
  | inspects row row' attempt hlease hdecided hnot hwrite hmove hlt hstarted =>
    refine h.write hbehind hwrite (fun i hi _ => ?_) fun _ => ?_
    · rw [hstarted]
      exact List.mem_append_left _ hi
    · rw [InFlight, hstarted]
      exact ⟨_, List.mem_append_right _ (List.mem_singleton.2 rfl), rfl⟩
  | cancels row row' attempt hlease hdecided hwrite hlt hended hsame =>
    refine h.write hbehind hwrite (fun i hi _ => hsame ▸ hi) fun hi => ?_
    rcases hended with hcancel | ⟨hclosed, -⟩
    · exact absurd (hcancel.symm.trans hi) (by decide)
    · exact absurd (hclosed.symm.trans hi) (by decide)

/-- A settled inspection keeps the invariant, unless its rejection is the last
word on a lease that is being inspected. -/
theorem InspectionsSound.settles (h : InspectionsSound s) {now : Millis} {index : Nat}
    {result : InspectionResult} {i : Inspection} (hi : s.inspections[index]? = some i)
    (hreturns : Returns s (now, .inspectionSettles index result)) :
    InspectionsSound
      { s with
        db := svc.inspectionSettled now i result s.db
        inspections := s.inspections.eraseIdx index } := by
  have hbehind := h.toInspectionsBehind.settles svc now result hi
  have hgo : ∀ j ∈ s.inspections, j.attemptId ≠ i.attemptId →
      j ∈ s.inspections.eraseIdx index := by
    intro j hj hne
    obtain ⟨k, hk⟩ := List.getElem?_of_mem hj
    refine List.mem_eraseIdx_iff_getElem?.2 ⟨k, ?_, hk⟩
    rintro rfl
    exact hne (congrArg Inspection.attemptId (Option.some.inj (hk.symm.trans hi)))
  cases h.effect svc now result (List.mem_of_getElem? hi) with
  | idle hdb hwhy =>
    refine ⟨hbehind, fun id row hrow hphase => ?_⟩
    rw [hdb] at hrow
    by_cases hid : id = i.attemptId
    · subst hid
      rcases hwhy with rfl | hidle
      · obtain ⟨k, j, hk, hj, hjd⟩ := hreturns i row hi hrow hphase
        exact ⟨j, List.mem_eraseIdx_iff_getElem?.2 ⟨k, hk, hj⟩, hjd⟩
      have hcoherent := h.coherent row (Table.mem_of_get hrow)
      refine absurd ⟨?_, ?_⟩ (hidle row hrow)
      · by_contra hsome
        have hclosed := hcoherent.closed_phase
          (hcoherent.closedAt ▸ Option.isSome_iff_ne_none.2 hsome)
        exact absurd (hclosed.symm.trans hphase) (by decide)
      · exact fun hcancel => absurd (hcancel.symm.trans hphase) (by decide)
    · obtain ⟨j, hj, rfl⟩ := h.inspecting id row hrow hphase
      exact ⟨j, hgo j hj hid, rfl⟩
  | answers row row' hrow hopen hnotRejected hnotTerminal hwrite hmove =>
    refine h.write hbehind hwrite hgo fun hinspecting => ?_
    have hphase := hmove.phase_eq.symm.trans hinspecting
    rcases outcome_phase now svc.policy i.attempt.hardDeadlineAt row.snapshotJson result with
      hr | hr <;> simp [hr] at hphase
  | closes row row' hrow hterminal hwrite hversion hended =>
    exact h.write hbehind hwrite hgo fun hi' => absurd (hended.1.symm.trans hi') (by decide)

theorem InspectionsSound.step (op : Millis × ReconcilerOp) (h : InspectionsSound s)
    (hreturns : Returns s op) : InspectionsSound (reconcilerStep svc s op) := by
  have hbehind := h.toInspectionsBehind.step svc op
  obtain ⟨now, op⟩ := op
  cases op with
  | evaluate attemptId cardId => exact h.evaluate now attemptId cardId
  | inspectionSettles index result =>
    simp only [reconcilerStep]
    split
    · exact h
    · rename_i i hi
      exact h.settles hi hreturns
  | cancelSettles index =>
    obtain ⟨hdb, hinspections⟩ := cancelSettles_same svc s now index
    exact h.congr hdb hinspections
  | appendFact policy resolver fact =>
    rcases appendFact_write svc.rt h.coherent now policy resolver fact with
      hsame | ⟨row', hwrite, -, hevaluation⟩
    · exact h.congr hsame rfl
    · refine h.write hbehind hwrite (fun i hi _ => hi) fun hphase => ?_
      rcases hevaluation with ⟨-, heq⟩ | ⟨r, hr, -, heq, -⟩
      · rw [LeaseRow.Inspecting, heq] at hphase
        cases hphase
      · rw [LeaseRow.Inspecting, heq] at hphase
        exact h.inspecting _ r hr hphase
  | closeLease attemptId generation reason =>
    rcases closeLease_write h.coherent now attemptId generation reason with
      ⟨hsame, -⟩ | ⟨row', hwrite, hphase, -, -⟩
    · exact h.congr hsame rfl
    · exact h.write hbehind hwrite (fun i hi _ => hi)
        fun hi => absurd (hphase.symm.trans hi) (by decide)

/-- Past every deadline of an open lease, an evaluation of its live attempt writes
the lease, unless an inspection is in flight. -/
theorem InspectionsSound.eventuallyActs (h : InspectionsSound s) (svc : LeaseReconciliationService)
    {id : String} {a : AttemptRow} (hrow : s.db.attemptLeaseSnapshots.get id = some row)
    (hopen : row.Evaluable) (hget : s.db.workerAttempts.get id = some a)
    (hlive : a.lifecycle.isLive = true) (hnone : ¬ InFlight s id) : EventuallyActs svc s id := by
  refine ⟨row.snapshotJson.lastDeadline, fun now hdue cardId => ?_⟩
  have hnotClosed : row.snapshotJson.evaluation.phase ≠ .closed := by
    intro hphase
    have hclosed := h.closed id row hrow hphase
    rw [hopen.openAt] at hclosed
    cases hclosed
  have hlease : EvaluatedLease s.db id row a := ⟨hrow, hget, hopen, hnotClosed⟩
  rcases evaluateLease_overdue svc.policy a.hardDeadlineAt hopen.openAt
      hnotClosed hopen.notCancelled hdue with haction | ⟨haction, hphase⟩ | ⟨haction, hphase⟩
  · obtain ⟨-, ⟨hdead, -⟩ | ⟨-, row', hwrite, hlt, -⟩⟩ :=
      evaluateAndAct_cancel cardId h.coherent hlease haction
    · rw [hlive] at hdead
      cases hdead
    · exact ⟨row, row', hrow, hwrite.self, hlt⟩
  · obtain ⟨row', hwrite, -, -, hlt⟩ :=
      evaluateAndAct_rest cardId h.coherent hlease (.inr ⟨haction, rfl⟩)
    exact ⟨row, row', hrow, hwrite.self, hlt (by rw [hphase]; decide)⟩
  · rcases evaluateAndAct_inspect cardId h.coherent hlease haction with
      ⟨hinspecting, -⟩ | ⟨-, row', hwrite, hlt, -⟩
    · exact absurd (h.inspecting id row hrow hinspecting) hnone
    · exact ⟨row, row', hrow, hwrite.self, hlt⟩

theorem evaluateAndAct_wedged {attemptId : String} {a : AttemptRow}
    {now : Millis} (cardId : Nat) (h : EvaluatedLease s.db attemptId row a)
    (hphase : row.Inspecting) (hsilent : row.snapshotJson.Silent)
    (hhard : a.hardDeadlineAt = none) (hdue : deadlineExpired now none row.snapshotJson = true) :
    svc.evaluateAndAct now attemptId cardId s = s := by
  have hinspecting : row.snapshotJson.evaluation.phase = .inspecting := hphase
  have hdecision : evaluateLease now svc.policy a.hardDeadlineAt row.snapshotJson =
      evaluateExpired now none row.snapshotJson := by
    rw [hhard]
    refine evaluateLease_silent hsilent h.evaluable.openAt h.notClosed h.evaluable.notCancelled
      ?_ rfl hdue
    simp [inspectionExhausted, hinspecting]
  have haction : (evaluateLease now svc.policy a.hardDeadlineAt row.snapshotJson).action =
      .inspect := by
    rw [hdecision, evaluateExpired, hinspecting]
  simp only [evaluateAndAct, evaluable_of_lease h, haction, performInspection, hinspecting, if_true]

theorem InspectionsSound.noWedge (h : InspectionsSound s) (svc : LeaseReconciliationService) :
    NoWedge svc s where
  inspecting := h.inspecting
  silent := by
    intro id row a hrow hopen hget hlive
    by_cases hflight : InFlight s id
    · exact .inl hflight
    · exact .inr (h.eventuallyActs svc hrow hopen hget hlive hflight)

end Step

/-! ## What a run preserves -/

/-- In every run in which no rejection is the last word on a lease that is being
inspected, no lease is wedged. -/
theorem noWedge_of_returns (svc : LeaseReconciliationService) (s : ReconcilerState)
    (ops : List (Millis × ReconcilerOp)) (h : InspectionsSound s)
    (hreturns : StepsMeet (reconcilerStep svc) Returns s ops) :
    NoWedge svc (runFrom (reconcilerStep svc) s ops) :=
  (invariant_of_stepsMeet (fun _ op hs hop => hs.step op hop) ops s h hreturns).noWedge svc

/-! ## A rejected inspection -/

def adaptedService : LeaseReconciliationService where
  rt := Runtime.plain
  policy := defaultLocalPolicy
  resolveAdapter := fun _ _ => true
  notifies := false
  commitSuccessor := fun _ _ => none

/-- A running attempt `a1` without a lease, and nothing in flight. -/
def runningAttemptState : ReconcilerState where
  db := runningAttemptDb
  inspections := []
  cancels := []
  notifications := []

theorem runningAttemptState_behind : InspectionsBehind runningAttemptState where
  coherent := runningAttemptDb_coherent
  closed := fun _ _ hrow => absurd (Table.mem_of_get hrow) (Table.not_mem_empty _)
  behind := fun _ hi => absurd hi List.not_mem_nil
  owned := fun _ hi => absurd hi List.not_mem_nil

theorem runningAttemptState_sound : InspectionsSound runningAttemptState where
  toInspectionsBehind := runningAttemptState_behind
  inspecting := fun _ _ hrow => absurd (Table.mem_of_get hrow) (Table.not_mem_empty _)

/-- A fact opens the lease, and after ten minutes of silence the executor is
inspected. -/
def inspectedRun : List (Millis × ReconcilerOp) :=
  [(0, .appendFact defaultLocalPolicy none heartbeat), (600000, .evaluate "a1" 1),
    (600000, .evaluate "a1" 1)]

/-- An inspection that is answered wedges nothing. -/
theorem noWedge_after_answer :
    NoWedge adaptedService (runFrom (reconcilerStep adaptedService) runningAttemptState
      (inspectedRun ++ [(600100, .inspectionSettles 0 .other)])) := by
  refine noWedge_of_returns adaptedService runningAttemptState _ runningAttemptState_sound ?_
  exact ⟨trivial, trivial, trivial, trivial, trivial⟩

def rejectedState : ReconcilerState :=
  runFrom (reconcilerStep adaptedService) runningAttemptState
    (inspectedRun ++ [(600100, .inspectionSettles 0 .rejected)])

theorem rejectedState_inspecting : rejectedState.inspections = [] ∧
    ∃ row a, rejectedState.db.attemptLeaseSnapshots.get "a1" = some row ∧
      rejectedState.db.workerAttempts.get "a1" = some a ∧ row.Inspecting ∧
      row.snapshotJson.closedAt = none ∧ row.snapshotJson.Silent ∧
      row.snapshotJson.livenessDeadlineAt ≤ 600100 ∧ a.hardDeadlineAt = none := by
  have hlease : (rejectedState.db.attemptLeaseSnapshots.get "a1").any (fun row =>
      decide (row.snapshotJson.evaluation.phase = .inspecting) &&
      decide (row.snapshotJson.closedAt = none) &&
      decide (row.snapshotJson.semanticState = .alive) &&
      decide (row.snapshotJson.awaitingInput = none) &&
      decide (row.snapshotJson.operation = none) &&
      decide (row.snapshotJson.livenessDeadlineAt ≤ 600100)) = true := by
    decide +kernel
  have hattempt : (rejectedState.db.workerAttempts.get "a1").any (fun a =>
      decide (a.hardDeadlineAt = none)) = true := by
    decide +kernel
  have hempty : rejectedState.inspections = [] := by decide +kernel
  obtain ⟨row, hrow, hread⟩ := (Option.any_eq_true _ _).1 hlease
  obtain ⟨a, hget, hhard⟩ := (Option.any_eq_true _ _).1 hattempt
  simp only [Bool.and_eq_true, decide_eq_true_eq] at hread hhard
  obtain ⟨⟨⟨⟨⟨hphase, hopen⟩, hstate⟩, hinput⟩, hoperation⟩, hliveness⟩ := hread
  exact ⟨hempty, row, a, hrow, hget, hphase, hopen,
    ⟨by rw [hstate]; decide, .inl hinput, hoperation⟩, hliveness, hhard⟩

/-- The lease of that run is wedged: no inspection is in flight, and no later
evaluation does anything about it. -/
theorem rejected_inspection_wedges :
    (¬ ∀ (svc : LeaseReconciliationService) (s : ReconcilerState)
      (ops : List (Millis × ReconcilerOp)), InspectionsSound s →
      NoWedge svc (runFrom (reconcilerStep svc) s ops)) ∧
    ∀ now, 600100 ≤ now →
      adaptedService.evaluateAndAct now "a1" 1 rejectedState = rejectedState := by
  obtain ⟨hempty, row, a, hrow, hget, hphase, hopen, hsilent, hliveness, hhard⟩ :=
    rejectedState_inspecting
  constructor
  · intro hclaim
    have hnoWedge : NoWedge adaptedService rejectedState :=
      hclaim adaptedService runningAttemptState _ runningAttemptState_sound
    obtain ⟨i, hi, -⟩ := hnoWedge.inspecting "a1" row hrow hphase
    rw [hempty] at hi
    cases hi
  · intro now hnow
    have hnotCancelled : row.snapshotJson.evaluation.phase ≠ .cancelRequested := by
      rw [show row.snapshotJson.evaluation.phase = .inspecting from hphase]
      decide
    have hnotClosed : row.snapshotJson.evaluation.phase ≠ .closed := by
      rw [show row.snapshotJson.evaluation.phase = .inspecting from hphase]
      decide
    refine evaluateAndAct_wedged 1 ⟨hrow, hget, ⟨hopen, hnotCancelled⟩, hnotClosed⟩ hphase
      hsilent hhard ?_
    simp only [deadlineExpired, Bool.decide_or, Bool.or_eq_true, decide_eq_true_eq]
    exact .inl ((clampAt_le none _).trans (hliveness.trans hnow))

end Abtars
