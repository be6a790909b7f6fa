import Abtars.Lease.Policy
import Abtars.Lib.Run

/-!
# The deadlines of a lease

What a fold of facts makes of the deadlines of a snapshot, and whether the
evaluation it arms comes before the first of them.  The arming looks at the
liveness and progress deadlines only, the evaluation also at a running tool call
and at an awaited input.
-/

namespace Abtars

open Lib

/-- The silence deadline of the tool call a fact starts. -/
def startedDeadline (policy : LeasePolicy) (now : Millis) (hard : Option Millis)
    (s : AttemptLeaseSnapshot) (fact : ProgressFact) : Option Millis :=
  match fact.kind, nonEmpty fact.payload.operationId, fact.phase with
  | .usingTool, some opId, some .start =>
    if s.operation.map (·.id) = some opId then none
    else
      some (clampAt hard (now + min (fact.payload.expectedTimeoutMs.getD policy.maxToolSilenceMs)
        policy.maxToolSilenceMs))
  | _, _, _ => none

/-- The deadline of the input request a fact begins to wait for. -/
def openedDeadline (policy : LeasePolicy) (now : Millis) (hard : Option Millis)
    (fact : ProgressFact) (resolver : Option PendingInputResolver) : Option Millis :=
  match fact.kind, fact.phase, nonEmpty fact.payload.inputRequestId, resolver with
  | .awaitingInput, some .start, some requestId, some isOpen =>
    if isOpen fact.attemptId fact.claimGeneration requestId then
      some (clampAt hard (now + policy.awaitingInputMs))
    else none
  | _, _, _, _ => none

/-! ## What one fact does to the deadlines -/

section Step

variable (policy : LeasePolicy) (now : Millis) (hard : Option Millis)

/-- What a fact does to the fields an evaluation reads. -/
structure Retimed (fact : ProgressFact) (resolver : Option PendingInputResolver)
    (s t : AttemptLeaseSnapshot) : Prop where
  liveness : t.livenessDeadlineAt = s.livenessDeadlineAt ∨
    t.livenessDeadlineAt = clampAt hard (now + policy.livenessMs)
  progress : t.progressDeadlineAt = s.progressDeadlineAt ∨
    t.progressDeadlineAt = clampAt hard (now + policy.meaningfulProgressMs)
  operation : ∀ op' ∈ t.operation, startedDeadline policy now hard s fact =
      some op'.absoluteSilenceDeadlineAt ∨
    ∃ op ∈ s.operation, op'.id = op.id ∧
      op'.absoluteSilenceDeadlineAt = op.absoluteSilenceDeadlineAt
  awaiting : ∀ input ∈ t.awaitingInput, openedDeadline policy now hard fact resolver =
    some input.deadlineAt ∨ input ∈ s.awaitingInput
  stalled : t.nextEvaluationAt = some now ∨
    t.nextEvaluationAt = s.nextEvaluationAt ∧
      (t.semanticState = .stalled → s.semanticState = .stalled)
  opened : startedDeadline policy now hard s fact ≠ none ∨
      openedDeadline policy now hard fact resolver ≠ none →
    t.livenessDeadlineAt = clampAt hard (now + policy.livenessMs) ∧
      t.progressDeadlineAt = s.progressDeadlineAt
  repeated : ∀ op ∈ s.operation, fact.kind = .usingTool →
    nonEmpty fact.payload.operationId = some op.id →
    fact.phase = some .start ∨ fact.phase = some .advance →
    ∃ op' ∈ t.operation, op'.id = op.id ∧
      op'.absoluteSilenceDeadlineAt = op.absoluteSilenceDeadlineAt

theorem reduceKind_retimed (fact : ProgressFact) (resolver : Option PendingInputResolver)
    (s : AttemptLeaseSnapshot) :
    Retimed policy now hard fact resolver s (reduceKind policy now hard fact resolver s) := by
  unfold reduceKind
  constructor
  case repeated =>
    intro op hop hkind hid hphase
    rcases hphase with hphase | hphase <;> simp only [hkind, hid, hphase]
    · exact ⟨op, by simp [startOperation, Option.mem_def.1 hop, touchLiveness], rfl, rfl⟩
    refine ⟨advanceOperation fact.payload op, by simp [Option.mem_def.1 hop, touchLiveness], ?_⟩
    unfold advanceOperation
    dsimp only
    split <;> exact ⟨rfl, rfl⟩
  all_goals
    cases hkind : fact.kind <;>
      simp only [startedDeadline, openedDeadline, touchLiveness, touchProgress, resetOutput,
        reduceOutput, startOperation, endOperation, advanceOperation, hkind] <;> grind

theorem rearm_fields (s : AttemptLeaseSnapshot) : ∃ e, rearm policy now hard s =
      { s with nextEvaluationAt := some e } ∧
    e ≤ armEvaluation policy s.livenessDeadlineAt s.progressDeadlineAt now hard ∧
    ∀ existing ∈ s.nextEvaluationAt, e ≤ existing := by
  unfold rearm
  cases hnext : s.nextEvaluationAt with
  | none => exact ⟨_, rfl, le_rfl, by simp⟩
  | some existing =>
    dsimp only
    split
    · next hlater => exact ⟨_, rfl, le_rfl, by simpa using le_of_lt hlater⟩
    · next hearlier => exact ⟨existing, by rw [← hnext], not_lt.1 hearlier, by simp⟩

end Step

/-! ## Evaluations armed in time -/

structure FactWrite where
  now : Millis
  fact : ProgressFact
  resolver : Option PendingInputResolver

section Armed

variable (policy : LeasePolicy) (hard : Option Millis)

def foldFact (sha256 : String → String) (s : AttemptLeaseSnapshot) (w : FactWrite) :
    AttemptLeaseSnapshot :=
  reduceFact policy w.now hard sha256 s w.fact w.resolver

theorem foldFact_retimed (sha256 : String → String) (s : AttemptLeaseSnapshot) (w : FactWrite) :
    ∃ s' e, foldFact policy hard sha256 s w =
        { s' with nextEvaluationAt := some e, updatedAt := w.now } ∧
      Retimed policy w.now hard w.fact w.resolver s s' ∧ s'.identity = s.identity ∧
      e ≤ armEvaluation policy s'.livenessDeadlineAt s'.progressDeadlineAt w.now hard ∧
      ∀ existing ∈ s'.nextEvaluationAt, e ≤ existing := by
  unfold foldFact reduceFact
  dsimp only
  generalize hs₁ : ({ s with
      lastReceivedAt := w.now
      semanticFingerprint := some (computeSemanticFingerprint sha256 w.fact)
      stateVersion := s.stateVersion + 1 } : AttemptLeaseSnapshot) = s₁
  obtain ⟨e, hrearm, harm, hearlier⟩ := rearm_fields policy w.now hard
    (reduceKind policy w.now hard w.fact w.resolver s₁)
  have hretimed := reduceKind_retimed policy w.now hard w.fact w.resolver s₁
  have hkeeps : (reduceKind policy w.now hard w.fact w.resolver s₁).identity = s₁.identity :=
    (reduceKind_keeps w.fact w.resolver s₁).1
  refine ⟨_, e, by rw [hrearm], ?_, ?_, harm, hearlier⟩
  · subst hs₁
    exact ⟨hretimed.1, hretimed.2, hretimed.3, hretimed.4, hretimed.5, hretimed.6,
      hretimed.7⟩
  · subst hs₁
    exact hkeeps

/-- An evaluation is armed, and none from the last fact on asks for more than
waiting before it. -/
def ArmedInTime (s : AttemptLeaseSnapshot) : Prop :=
  ∃ e, s.nextEvaluationAt = some e ∧
    ∀ t, s.updatedAt ≤ t → (evaluateLease t policy hard s).action ≠ .healthy → e ≤ t

/-- An evaluation due at the instant or before it: one armed by an earlier fact,
the hard deadline's, or the warning of one of the two deadlines. -/
def DueBy (livenessDeadlineAt progressDeadlineAt : Millis) (armed : Option Millis)
    (t : Millis) : Prop :=
  (∃ e ∈ armed, e ≤ t) ∨ (∃ h ∈ hard, h ≤ t) ∨
    livenessDeadlineAt - policy.warningBeforeMs ≤ t ∨
    progressDeadlineAt - policy.warningBeforeMs ≤ t

/-- A lease that a stall opens has an evaluation due at once. -/
def OpensInTime (w : FactWrite) : Prop :=
  w.fact.kind = .stalled →
    DueBy policy hard (clampAt hard (w.now + policy.livenessMs))
      (clampAt hard (w.now + policy.meaningfulProgressMs)) none w.now

/-- The clock does not run back, and by the deadline of a tool call or an input
request that the fact opens an evaluation is due. -/
def FoldsInTime (s : AttemptLeaseSnapshot) (w : FactWrite) : Prop :=
  s.updatedAt ≤ w.now ∧
    ∀ d, startedDeadline policy w.now hard s w.fact = some d ∨
        openedDeadline policy w.now hard w.fact w.resolver = some d →
      DueBy policy hard (clampAt hard (w.now + policy.livenessMs)) s.progressDeadlineAt
        s.nextEvaluationAt (max w.now d)

/-- The invariant of a fold: an evaluation is armed no later than anything the
evaluation of the snapshot reads, or than the last fact. -/
structure Armed (e : Millis) (s : AttemptLeaseSnapshot) : Prop where
  next : s.nextEvaluationAt = some e
  opened : s.closedAt = none
  healthy : s.evaluation.phase = .healthy
  clamped : ∀ h ∈ hard, s.livenessDeadlineAt ≤ h ∧ s.progressDeadlineAt ≤ h
  hardDue : ∀ h ∈ hard, e ≤ max s.updatedAt h
  liveness : e ≤ max s.updatedAt (s.livenessDeadlineAt - policy.warningBeforeMs)
  progress : e ≤ max s.updatedAt (s.progressDeadlineAt - policy.warningBeforeMs)
  operation : ∀ op ∈ s.operation, e ≤ max s.updatedAt op.absoluteSilenceDeadlineAt
  awaiting : ∀ input ∈ s.awaitingInput, e ≤ max s.updatedAt input.deadlineAt
  stalled : s.semanticState = .stalled → e ≤ s.updatedAt

variable {policy hard} {e : Millis} {s : AttemptLeaseSnapshot}

theorem armEvaluation_le (policy : LeasePolicy) (hard : Option Millis)
    (liveness progress now : Millis) :
    armEvaluation policy liveness progress now hard ≤
        max now (liveness - policy.warningBeforeMs) ∧
      armEvaluation policy liveness progress now hard ≤
        max now (progress - policy.warningBeforeMs) ∧
      ∀ h ∈ hard, armEvaluation policy liveness progress now hard ≤ max now h := by
  unfold armEvaluation
  have hle := clampAt_le hard (min (liveness - policy.warningBeforeMs)
    (progress - policy.warningBeforeMs))
  refine ⟨by grind, by grind, ?_⟩
  intro h hh
  have hclamp := clampAt_le_hard hh (min (liveness - policy.warningBeforeMs)
    (progress - policy.warningBeforeMs))
  grind

theorem DueBy.armed_le {liveness progress now t : Millis} {armed : Option Millis}
    (hdue : DueBy policy hard liveness progress armed t) (hnow : now ≤ t)
    (hearlier : ∀ existing ∈ armed, e ≤ existing)
    (harm : e ≤ armEvaluation policy liveness progress now hard) : e ≤ t := by
  obtain ⟨hlive, hprog, hhard⟩ := armEvaluation_le policy hard liveness progress now
  rcases hdue with ⟨existing, hexisting, hle⟩ | ⟨h, hh, hle⟩ | hle | hle
  · exact (hearlier existing hexisting).trans hle
  · grind
  · grind
  · grind

/-- Before the armed evaluation every evaluation is healthy. -/
theorem Armed.evaluates_healthy (hwarn : 0 ≤ policy.warningBeforeMs) (h : Armed policy hard e s)
    {t : Millis} (ht : s.updatedAt ≤ t) (hearly : t < e) :
    (evaluateLease t policy hard s).action = .healthy := by
  have hbefore : ∀ d, e ≤ max s.updatedAt d → t < d := by
    intro d hd
    grind
  have hlive := hbefore _ h.liveness
  have hprog := hbefore _ h.progress
  have hlivenessAt : effectiveLivenessDeadline hard s = s.livenessDeadlineAt :=
    clampAt_of_le fun H hH => (h.clamped H hH).1
  have hprogressAt : effectiveProgressDeadline hard s = s.progressDeadlineAt :=
    clampAt_of_le fun H hH => (h.clamped H hH).2
  have hexpired : deadlineExpired t hard s = false := by
    rw [deadlineExpired, hlivenessAt, hprogressAt, decide_eq_false_iff_not]
    grind
  have hnear : deadlineNear t policy hard s = false := by
    rw [deadlineNear, hlivenessAt, hprogressAt, decide_eq_false_iff_not]
    grind
  have hoperation : (evaluateOperation t policy hard s).action = .healthy := by
    unfold evaluateOperation evaluateDeadlines
    cases hrun : s.operation with
    | none => simp [hexpired, hnear]
    | some op =>
      have hrunning := hbefore _ (h.operation op hrun)
      simp [Int.not_le.2 hrunning]
  have hawaiting : (evaluateAwaiting t policy hard s).action = .healthy := by
    unfold evaluateAwaiting
    cases hwait : s.awaitingInput with
    | none => exact hoperation
    | some input =>
      have hopen := hbefore _ (h.awaiting input hwait)
      by_cases hstate : s.semanticState = .awaitingInput <;>
        simp [Int.not_le.2 hopen, hstate, hoperation]
  have hhard : hard.any (· ≤ t) = false := by
    cases hard with
    | none => rfl
    | some H => simpa using hbefore H (h.hardDue H rfl)
  have hstalled : s.semanticState ≠ .stalled := by
    intro hst
    have := h.stalled hst
    grind
  simp [evaluateLease, inspectionExhausted, h.healthy, h.opened, hhard, hstalled, hawaiting]

theorem Armed.inTime (hwarn : 0 ≤ policy.warningBeforeMs) (h : Armed policy hard e s) :
    ArmedInTime policy hard s := by
  refine ⟨e, h.next, ?_⟩
  intro t ht haction
  by_contra hlate
  exact haction (h.evaluates_healthy hwarn ht (not_le.1 hlate))

/-- A fact that folds in time keeps an evaluation armed in time. -/
theorem Armed.fold (h : Armed policy hard e s) (sha256 : String → String) (w : FactWrite)
    (hfold : FoldsInTime policy hard s w) :
    ∃ e', Armed policy hard e' (foldFact policy hard sha256 s w) := by
  obtain ⟨hclock, hopens⟩ := hfold
  obtain ⟨s₂, e', hfolded, hkind, hkeeps, harm, hearlier⟩ := foldFact_retimed policy hard sha256 s w
  obtain ⟨hlive, hprog, hhard⟩ := armEvaluation_le policy hard
    s₂.livenessDeadlineAt s₂.progressDeadlineAt w.now
  have hnext : e' ≤ w.now ∨ e' ≤ e := by
    rcases hkind.stalled with hnow | ⟨hsame, -⟩
    · exact .inl (hearlier _ hnow)
    · exact .inr (hearlier e (hsame.trans h.next))
  have hdue : ∀ d, startedDeadline policy w.now hard s w.fact = some d ∨
      openedDeadline policy w.now hard w.fact w.resolver = some d → e' ≤ max w.now d := by
    intro d hd
    obtain ⟨hliveness, hprogress⟩ := hkind.opened (by rcases hd with hd | hd <;> simp [hd])
    rw [hliveness, hprogress] at harm
    have hbefore := hopens d hd
    rw [h.next] at hbefore
    rcases hnext with hnow | hle
    · grind
    · exact hbefore.armed_le (by grind) (by simpa using hle) harm
  rw [hfolded]
  refine ⟨e', ?_⟩
  have hphase : s₂.evaluation = s.evaluation := congrArg LeaseIdentity.evaluation hkeeps
  have hclosed : s₂.closedAt = s.closedAt := congrArg LeaseIdentity.closedAt hkeeps
  constructor
  case next => rfl
  case opened => exact hclosed.trans h.opened
  case healthy => exact (congrArg (·.phase) hphase).trans h.healthy
  case clamped =>
    intro H hH
    have := h.clamped H hH
    refine ⟨?_, ?_⟩
    · rcases hkind.liveness with heq | heq <;> dsimp only <;> rw [heq]
      · exact this.1
      · exact clampAt_le_hard hH _
    · rcases hkind.progress with heq | heq <;> dsimp only <;> rw [heq]
      · exact this.2
      · exact clampAt_le_hard hH _
  case hardDue => exact fun H hH => harm.trans (hhard H hH)
  case liveness => exact harm.trans hlive
  case progress => exact harm.trans hprog
  case operation =>
    intro op' hop'
    rcases hkind.operation op' hop' with hd | ⟨op, hop, -, hsame⟩
    · exact hdue _ (.inl hd)
    · have := h.operation op hop
      grind
  case awaiting =>
    intro input hinput
    rcases hkind.awaiting input hinput with hd | hold
    · exact hdue _ (.inr hd)
    · have := h.awaiting input hold
      grind
  case stalled =>
    intro hst
    rcases hkind.stalled with hnow | ⟨-, hstill⟩
    · exact hearlier _ hnow
    · have := h.stalled (hstill hst)
      grind

theorem armed_initial (sha256 : String → String) (cardId : Nat) (w : FactWrite)
    (hopens : OpensInTime policy hard w) :
    ∃ e, Armed policy hard e (createInitialSnapshot sha256 w.fact cardId policy w.now hard) := by
  obtain ⟨hlive, hprog, hhard⟩ := armEvaluation_le policy hard
    (clampAt hard (w.now + policy.livenessMs))
    (clampAt hard (w.now + policy.meaningfulProgressMs)) w.now
  refine ⟨_, rfl, rfl, rfl, fun H hH => ⟨clampAt_le_hard hH _, clampAt_le_hard hH _⟩, hhard,
    hlive, hprog, nofun, nofun, fun hst => ?_⟩
  exact (hopens hst).armed_le le_rfl nofun le_rfl

/-- From a lease that opens in time, folds that find an evaluation due by the
deadlines they open leave an evaluation armed in time, each of them. -/
theorem armedInTime_of_foldsInTime (sha256 : String → String) (policy : LeasePolicy)
    (hard : Option Millis) (cardId : Nat) (first : FactWrite) (ws : List FactWrite)
    (hwarn : 0 ≤ policy.warningBeforeMs) (hopens : OpensInTime policy hard first)
    (hfolds : StepsMeet (foldFact policy hard sha256) (FoldsInTime policy hard)
      (createInitialSnapshot sha256 first.fact cardId policy first.now hard) ws) :
    ArmedInTime policy hard
        (createInitialSnapshot sha256 first.fact cardId policy first.now hard) ∧
      StepsMeet (foldFact policy hard sha256)
        (fun s w => ArmedInTime policy hard (foldFact policy hard sha256 s w))
        (createInitialSnapshot sha256 first.fact cardId policy first.now hard) ws := by
  obtain ⟨e, harmed⟩ := armed_initial sha256 cardId first hopens
  refine ⟨harmed.inTime hwarn, ?_⟩
  refine stepsMeet_of_kept (I := fun s => ∃ e, Armed policy hard e s) ?_ ?_ ws _ ⟨e, harmed⟩
    hfolds
  · rintro s w ⟨e, h⟩ hfold
    exact h.fold sha256 w hfold
  · rintro s w ⟨e, h⟩ hfold
    obtain ⟨e', h'⟩ := h.fold sha256 w hfold
    exact h'.inTime hwarn

end Armed

def plainPayload : ProgressPayload := ⟨none, none, none, none, none, none, none, none⟩

def aliveAt (now : Millis) : FactWrite :=
  ⟨now, ⟨1, "f1", "a1", 1, .agent, "e1", .alive, none, none, plainPayload⟩, none⟩

/-- A tool call that asks for an answer within a second. -/
def secondAt (now : Millis) : FactWrite :=
  ⟨now, ⟨1, "f2", "a1", 1, .agent, "e1", .usingTool, some .start, none,
    { plainPayload with operationId := some "op", expectedTimeoutMs := some 1000 }⟩, none⟩

theorem armedInTime_near_warning :
    ArmedInTime defaultLocalPolicy none
        (createInitialSnapshot id (aliveAt 0).fact 1 defaultLocalPolicy 0 none) ∧
      StepsMeet (foldFact defaultLocalPolicy none id)
        (fun s w => ArmedInTime defaultLocalPolicy none (foldFact defaultLocalPolicy none id s w))
        (createInitialSnapshot id (aliveAt 0).fact 1 defaultLocalPolicy 0 none)
        [aliveAt 1, secondAt 89000] := by
  refine armedInTime_of_foldsInTime id defaultLocalPolicy none 1 (aliveAt 0)
    [aliveAt 1, secondAt 89000] (by decide) nofun ⟨⟨by decide, ?_⟩, ⟨by decide, ?_⟩, trivial⟩
  · rintro d (hd | hd) <;> cases hd
  · rintro d (hd | hd) <;> cases hd
    exact .inl ⟨90000, rfl, by decide⟩

/-- A tool call of a second is overdue after a second; the evaluation stays armed for the
warning before the liveness deadline. -/
theorem armed_after_tool_deadline :
    ¬ ArmedInTime defaultLocalPolicy none
      (foldFact defaultLocalPolicy none id
        (createInitialSnapshot id (aliveAt 0).fact 1 defaultLocalPolicy 0 none) (secondAt 1)) := by
  rintro ⟨e, hnext, harmed⟩
  have he : (90000 : Millis) = e := Option.some.inj hnext
  have hle := harmed 1001 (by decide) (by decide)
  grind

/-! ## The hard deadline -/

/-- A write of a snapshot that is not closed by it: a fact, or an inspection that came back. -/
inductive SnapshotWrite
  | fact (w : FactWrite)
  | inspected (now : Millis) (outcome : InspectionOutcome)

def SnapshotWrite.now : SnapshotWrite → Millis
  | .fact w => w.now
  | .inspected now _ => now

def snapshotWrite (policy : LeasePolicy) (hard : Option Millis) (sha256 : String → String)
    (s : AttemptLeaseSnapshot) : SnapshotWrite → AttemptLeaseSnapshot
  | .fact w => foldFact policy hard sha256 s w
  | .inspected now outcome => applyInspectionOutcome now policy hard s outcome

/-- No deadline lies behind the hard one; the end of a grace may be the instant
of a write instead. -/
structure Dominated (H : Millis) (writes : Set Millis) (s : AttemptLeaseSnapshot) : Prop where
  liveness : s.livenessDeadlineAt ≤ H
  progress : s.progressDeadlineAt ≤ H
  operation : ∀ op ∈ s.operation, op.absoluteSilenceDeadlineAt ≤ H
  awaiting : ∀ input ∈ s.awaitingInput, input.deadlineAt ≤ H
  grace : ∀ g ∈ s.evaluation.graceDeadlineAt, g ≤ H ∨ g ∈ writes

section Hard

variable {policy : LeasePolicy} {H now : Millis} {writes : Set Millis} {s : AttemptLeaseSnapshot}

theorem startedDeadline_le {fact : ProgressFact} {d : Millis}
    (hd : startedDeadline policy now (some H) s fact = some d) : d ≤ H := by
  unfold startedDeadline at hd
  split at hd
  · split at hd
    · cases hd
    · cases hd
      exact clampAt_le_hard rfl _
  · cases hd

theorem openedDeadline_le {fact : ProgressFact} {resolver : Option PendingInputResolver}
    {d : Millis} (hd : openedDeadline policy now (some H) fact resolver = some d) : d ≤ H := by
  unfold openedDeadline at hd
  split at hd
  · split at hd
    · cases hd
      exact clampAt_le_hard rfl _
    · cases hd
  · cases hd

theorem Dominated.fact (h : Dominated H writes s) (sha256 : String → String) (w : FactWrite) :
    Dominated H writes (foldFact policy (some H) sha256 s w) := by
  obtain ⟨s', e, hfolded, hkind, hkeeps, -, -⟩ :=
    foldFact_retimed policy (some H) sha256 s w
  have hevaluation : s'.evaluation = s.evaluation := congrArg LeaseIdentity.evaluation hkeeps
  rw [hfolded]
  constructor
  case liveness =>
    rcases hkind.liveness with heq | heq
    · exact heq.trans_le h.liveness
    · exact heq.trans_le (clampAt_le_hard rfl _)
  case progress =>
    rcases hkind.progress with heq | heq
    · exact heq.trans_le h.progress
    · exact heq.trans_le (clampAt_le_hard rfl _)
  case operation =>
    intro op' hop'
    rcases hkind.operation op' hop' with hd | ⟨op, hop, -, hsame⟩
    · exact startedDeadline_le hd
    · exact hsame.trans_le (h.operation op hop)
  case awaiting =>
    intro input hinput
    rcases hkind.awaiting input hinput with hd | hold
    · exact openedDeadline_le hd
    · exact h.awaiting input hold
  case grace => exact fun g hg => h.grace g (hevaluation ▸ hg)

theorem Dominated.inspected (h : Dominated H writes s) (hnow : now ∈ writes)
    (outcome : InspectionOutcome) :
    Dominated H writes (applyInspectionOutcome now policy (some H) s outcome) := by
  have hclamp : ∀ t, clampAt (some H) t ≤ H := clampAt_le_hard rfl
  cases outcome with
  | running =>
    simp only [applyInspectionOutcome, applyRunning]
    split
    · exact ⟨hclamp _, h.progress, h.operation, h.awaiting, by
        rintro g ⟨⟩
        exact .inl (hclamp _)⟩
    · exact ⟨hclamp _, hclamp _, h.operation, h.awaiting, h.grace⟩
  | terminal => exact ⟨h.liveness, h.progress, h.operation, h.awaiting, h.grace⟩
  | unknown =>
    simp only [applyInspectionOutcome, applyUnknown]
    split
    · exact ⟨h.liveness, h.progress, h.operation, h.awaiting, by
        rintro g ⟨⟩
        exact .inr hnow⟩
    · exact ⟨h.liveness, h.progress, h.operation, h.awaiting, by
        rintro g ⟨⟩
        exact .inl (hclamp _)⟩

theorem evaluateLease_hard_deadline (policy : LeasePolicy) (hnow : H ≤ now)
    (hopen : s.closedAt = none) (hphase : s.evaluation.phase ≠ .closed)
    (hrequested : s.evaluation.phase ≠ .cancelRequested) :
    (evaluateLease now policy (some H) s).action = .cancel := by
  unfold evaluateLease
  simp only [hopen, hphase, hrequested, Option.isSome_none, Bool.false_eq_true, or_self, if_false]
  split
  · rfl
  · simp [hnow]

end Hard

theorem hard_deadline_dominates (sha256 : String → String) (policy : LeasePolicy) (H : Millis)
    (cardId : Nat) (first : FactWrite) (ws : List SnapshotWrite) :
    Dominated H {t | ∃ w ∈ SnapshotWrite.fact first :: ws, w.now = t}
        (runFrom (snapshotWrite policy (some H) sha256)
          (createInitialSnapshot sha256 first.fact cardId policy first.now (some H)) ws) ∧
      (∀ s now, H ≤ now → s.closedAt = none → s.evaluation.phase ≠ .closed →
        s.evaluation.phase ≠ .cancelRequested →
        (evaluateLease now policy (some H) s).action = .cancel) ∧
      ∀ (s : AttemptLeaseSnapshot) (op : AttemptLeaseOperation) (w : FactWrite),
        s.operation = some op → w.fact.kind = .usingTool →
        nonEmpty w.fact.payload.operationId = some op.id →
        w.fact.phase = some .start ∨ w.fact.phase = some .advance →
        ∃ op', (foldFact policy (some H) sha256 s w).operation = some op' ∧ op'.id = op.id ∧
          op'.absoluteSilenceDeadlineAt = op.absoluteSilenceDeadlineAt := by
  refine ⟨?_, fun s now => evaluateLease_hard_deadline policy,
    fun s op w hop hkind hid hphase => ?_⟩
  case refine_2 =>
    obtain ⟨s', e, hfolded, hretimed, -⟩ := foldFact_retimed policy (some H) sha256 s w
    rw [hfolded]
    exact hretimed.repeated op hop hkind hid hphase
  set instants : Set Millis := {t | ∃ w ∈ SnapshotWrite.fact first :: ws, w.now = t}
  have hmeets : StepsMeet (snapshotWrite policy (some H) sha256) (fun _ w => w.now ∈ instants)
      (createInitialSnapshot sha256 first.fact cardId policy first.now (some H)) ws :=
    (stepsMeet_forall ws _).2 fun w hw => ⟨w, List.mem_cons_of_mem _ hw, rfl⟩
  refine invariant_of_stepsMeet (I := Dominated H instants) ?_ ws _ ?_ hmeets
  · rintro s (w | ⟨now, outcome⟩) h hnow
    · exact h.fact sha256 w
    · exact h.inspected hnow outcome
  · exact ⟨clampAt_le_hard rfl _, clampAt_le_hard rfl _, nofun, nofun, nofun⟩

end Abtars
