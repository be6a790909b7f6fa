import Abtars.Lease.Progress

/-!
# The lease reducer

How a fact is folded into a lease snapshot.  Every fact bumps the state version
once, refreshes the deadlines its kind speaks for, and re-arms the evaluation
schedule; none touches the evaluation record, the high-water sequence or the
closing of the lease.
-/

namespace Abtars

open Lib

abbrev PendingInputResolver := String → Int → String → Bool

def clampAt (hardDeadlineAt : Option Millis) (v : Millis) : Millis :=
  match hardDeadlineAt with
  | none => v
  | some hard => min v hard

theorem clampAt_le (hard : Option Millis) (t : Millis) : clampAt hard t ≤ t := by
  cases hard with
  | none => exact Int.le_refl t
  | some h => exact Int.min_le_left t h

theorem clampAt_le_hard {hard : Option Millis} {h : Millis} (hh : h ∈ hard) (t : Millis) :
    clampAt hard t ≤ h := by
  cases hh
  exact Int.min_le_right t h

theorem clampAt_of_le {hard : Option Millis} {t : Millis} (ht : ∀ h ∈ hard, t ≤ h) :
    clampAt hard t = t := by
  cases hard with
  | none => rfl
  | some h => exact Int.min_eq_left (ht h rfl)

/-- The instant a snapshot is armed for: the warning lead before the earlier
deadline, clamped to the hard deadline and floored at now. -/
def armEvaluation (policy : LeasePolicy) (livenessDeadlineAt progressDeadlineAt : Millis)
    (now : Millis) (hardDeadlineAt : Option Millis) : Millis :=
  max now (clampAt hardDeadlineAt
    (min (livenessDeadlineAt - policy.warningBeforeMs)
      (progressDeadlineAt - policy.warningBeforeMs)))

def createInitialSnapshot (sha256 : String → String) (fact : ProgressFact) (cardId : Nat)
    (policy : LeasePolicy) (now : Millis) (hardDeadlineAt : Option Millis) :
    AttemptLeaseSnapshot :=
  let livenessDeadlineAt := clampAt hardDeadlineAt (now + policy.livenessMs)
  let progressDeadlineAt := clampAt hardDeadlineAt (now + policy.meaningfulProgressMs)
  { attemptId := fact.attemptId
    cardId := cardId
    claimGeneration := fact.claimGeneration
    executorKind := fact.executorKind.kind
    executorId := fact.executorId
    highWaterSequence := 0
    stateVersion := 1
    semanticState := fact.kind
    semanticFingerprint := some (computeSemanticFingerprint sha256 fact)
    lastMilestoneId := if fact.kind = .durableMilestone then fact.payload.milestoneId else none
    lastReceivedAt := now
    lastLivenessAt := now
    lastMeaningfulProgressAt := now
    livenessDeadlineAt := livenessDeadlineAt
    progressDeadlineAt := progressDeadlineAt
    outputOnlySince := none
    outputUnits := none
    operation := none
    awaitingInput := none
    evaluation :=
      { phase := .healthy
        reason := none
        inspectionCount := 0
        lastInspectionOutcome := none
        graceDeadlineAt := none
        version := 0 }
    nextEvaluationAt :=
      some (armEvaluation policy livenessDeadlineAt progressDeadlineAt now hardDeadlineAt)
    closedAt := none
    closeReason := none
    updatedAt := now }

section Reduce

variable (policy : LeasePolicy) (now : Millis) (hardDeadlineAt : Option Millis)

variable (s : AttemptLeaseSnapshot)

def touchLiveness : AttemptLeaseSnapshot :=
  { s with
    lastLivenessAt := now
    livenessDeadlineAt := clampAt hardDeadlineAt (now + policy.livenessMs) }

def touchProgress : AttemptLeaseSnapshot :=
  { s with
    lastMeaningfulProgressAt := now
    progressDeadlineAt := clampAt hardDeadlineAt (now + policy.meaningfulProgressMs) }

def resetOutput : AttemptLeaseSnapshot :=
  { s with
    outputOnlySince := none
    outputUnits := none }

def reduceOutput (units : Option Int) (s : AttemptLeaseSnapshot) : AttemptLeaseSnapshot :=
  match units with
  | none => s
  | some u =>
    if u > s.outputUnits.getD 0 then
      let since := s.outputOnlySince.getD now
      let s := { s with outputUnits := some u, outputOnlySince := some since }
      if now ≤ since + policy.outputOnlyProgressCapMs then
        touchProgress policy now hardDeadlineAt s
      else s
    else s

/-- A tool call begins; a second start of the same operation keeps its deadline. -/
def startOperation (opId : String) (payload : ProgressPayload) (s : AttemptLeaseSnapshot) :
    AttemptLeaseSnapshot :=
  if s.operation.map (·.id) = some opId then s
  else
    let silence := min (payload.expectedTimeoutMs.getD policy.maxToolSilenceMs)
      policy.maxToolSilenceMs
    { s with
      operation := some
        { id := opId
          label := payload.operationLabel.getD opId
          startedAt := now
          absoluteSilenceDeadlineAt := clampAt hardDeadlineAt (now + silence)
          progressUnits := none
          lastObservationId := none } }

def advanceOperation (payload : ProgressPayload) (op : AttemptLeaseOperation) :
    AttemptLeaseOperation :=
  let moreUnits := payload.progressUnits.any (· > op.progressUnits.getD 0)
  let newObservation := (nonEmpty payload.observationId).any (some · ≠ op.lastObservationId)
  if moreUnits ∨ newObservation then
    { op with
      progressUnits := payload.progressUnits.orElse fun _ => op.progressUnits
      lastObservationId := payload.observationId.orElse fun _ => op.lastObservationId }
  else op

def endOperation (opId : String) (payload : ProgressPayload) (s : AttemptLeaseSnapshot) :
    AttemptLeaseSnapshot :=
  match s.operation with
  | none => s
  | some op =>
    if op.id = opId then
      let s :=
        if (nonEmpty payload.observationId).any (some · ≠ op.lastObservationId) then
          touchProgress policy now hardDeadlineAt s
        else s
      { s with operation := none }
    else s

def reduceKind (fact : ProgressFact) (inputResolver : Option PendingInputResolver)
    (s : AttemptLeaseSnapshot) : AttemptLeaseSnapshot :=
  match fact.kind with
  | .alive => touchLiveness policy now hardDeadlineAt { s with semanticState := .alive }
  | .producingOutput =>
    reduceOutput policy now hardDeadlineAt fact.payload.progressUnits
      (touchLiveness policy now hardDeadlineAt { s with semanticState := .producingOutput })
  | .usingTool =>
    match nonEmpty fact.payload.operationId, fact.phase with
    | some opId, some .start =>
      touchLiveness policy now hardDeadlineAt
        { startOperation policy now hardDeadlineAt opId fact.payload s with
          semanticState := .usingTool }
    | some opId, some .advance =>
      match s.operation with
      | none => { s with semanticState := .usingTool }
      | some op =>
        if op.id = opId then
          touchLiveness policy now hardDeadlineAt
            { s with
              operation := some (advanceOperation fact.payload op)
              semanticState := .usingTool }
        else { s with semanticState := .usingTool }
    | some opId, some .end_ =>
      resetOutput (touchLiveness policy now hardDeadlineAt
        { endOperation policy now hardDeadlineAt opId fact.payload s with
          semanticState := .alive })
    | _, _ => s
  | .durableMilestone =>
    let s :=
      if (nonEmpty fact.payload.milestoneId).any (some · ≠ s.lastMilestoneId) then
        resetOutput (touchProgress policy now hardDeadlineAt
          { s with lastMilestoneId := fact.payload.milestoneId })
      else s
    touchLiveness policy now hardDeadlineAt { s with semanticState := .durableMilestone }
  | .awaitingInput =>
    let s :=
      match fact.phase with
      | some .start =>
        match nonEmpty fact.payload.inputRequestId, inputResolver with
        | some requestId, some isOpen =>
          if isOpen fact.attemptId fact.claimGeneration requestId then
            { s with
              awaitingInput := some
                { requestId := requestId
                  since := now
                  deadlineAt := clampAt hardDeadlineAt (now + policy.awaitingInputMs) }
              semanticState := .awaitingInput }
          else { s with semanticState := .awaitingInput }
        | _, _ => { s with semanticState := .awaitingInput }
      | some .resolved =>
        resetOutput (touchProgress policy now hardDeadlineAt
          { s with awaitingInput := none, semanticState := .alive })
      | _ => s
    touchLiveness policy now hardDeadlineAt s
  | .stalled =>
    { touchLiveness policy now hardDeadlineAt { s with semanticState := .stalled } with
      nextEvaluationAt := some now }

def rearm : AttemptLeaseSnapshot :=
  let armed := armEvaluation policy s.livenessDeadlineAt s.progressDeadlineAt now hardDeadlineAt
  match s.nextEvaluationAt with
  | none => { s with nextEvaluationAt := some armed }
  | some existing =>
    if existing > armed then { s with nextEvaluationAt := some armed } else s

def reduceFact (sha256 : String → String) (s : AttemptLeaseSnapshot) (fact : ProgressFact)
    (inputResolver : Option PendingInputResolver) : AttemptLeaseSnapshot :=
  let s :=
    { s with
      lastReceivedAt := now
      semanticFingerprint := some (computeSemanticFingerprint sha256 fact)
      stateVersion := s.stateVersion + 1 }
  let s := rearm policy now hardDeadlineAt (reduceKind policy now hardDeadlineAt fact
    inputResolver s)
  { s with updatedAt := now }

end Reduce

/-! ## What a fold leaves alone -/

structure LeaseIdentity where
  attemptId : String
  cardId : Nat
  claimGeneration : Int
  executorKind : ExecutorKind
  executorId : String
  highWaterSequence : Nat
  evaluation : AttemptLeaseEvaluation
  closedAt : Option Millis
  closeReason : Option String

def AttemptLeaseSnapshot.identity (s : AttemptLeaseSnapshot) : LeaseIdentity where
  attemptId := s.attemptId
  cardId := s.cardId
  claimGeneration := s.claimGeneration
  executorKind := s.executorKind
  executorId := s.executorId
  highWaterSequence := s.highWaterSequence
  evaluation := s.evaluation
  closedAt := s.closedAt
  closeReason := s.closeReason

section Frame

variable {policy : LeasePolicy} {now : Millis} {hard : Option Millis}

def KeepsIdentity (s t : AttemptLeaseSnapshot) : Prop :=
  t.identity = s.identity ∧ t.stateVersion = s.stateVersion

theorem reduceOutput_keeps (units : Option Int) (s : AttemptLeaseSnapshot) :
    KeepsIdentity s (reduceOutput policy now hard units s) := by
  unfold reduceOutput
  cases units with
  | none => exact ⟨rfl, rfl⟩
  | some u =>
    dsimp only
    split
    · split <;> exact ⟨rfl, rfl⟩
    · exact ⟨rfl, rfl⟩

theorem startOperation_keeps (opId : String) (payload : ProgressPayload)
    (s : AttemptLeaseSnapshot) :
    KeepsIdentity s (startOperation policy now hard opId payload s) := by
  unfold startOperation
  split <;> exact ⟨rfl, rfl⟩

theorem endOperation_keeps (opId : String) (payload : ProgressPayload) (s : AttemptLeaseSnapshot) :
    KeepsIdentity s (endOperation policy now hard opId payload s) := by
  unfold endOperation
  split
  · exact ⟨rfl, rfl⟩
  · split
    · split <;> exact ⟨rfl, rfl⟩
    · exact ⟨rfl, rfl⟩

theorem reduceKind_keeps (fact : ProgressFact) (resolver : Option PendingInputResolver)
    (s : AttemptLeaseSnapshot) : KeepsIdentity s (reduceKind policy now hard fact resolver s) := by
  unfold reduceKind
  cases fact.kind with
  | alive => exact ⟨rfl, rfl⟩
  | producingOutput => exact reduceOutput_keeps _ _
  | usingTool =>
    dsimp only
    split
    · exact startOperation_keeps _ _ s
    · split
      · exact ⟨rfl, rfl⟩
      · split <;> exact ⟨rfl, rfl⟩
    · exact endOperation_keeps _ _ s
    · exact ⟨rfl, rfl⟩
  | durableMilestone =>
    dsimp only
    split <;> exact ⟨rfl, rfl⟩
  | awaitingInput =>
    dsimp only
    split
    · split
      · split <;> exact ⟨rfl, rfl⟩
      · exact ⟨rfl, rfl⟩
    · exact ⟨rfl, rfl⟩
    · exact ⟨rfl, rfl⟩
  | stalled => exact ⟨rfl, rfl⟩

theorem rearm_keeps (s : AttemptLeaseSnapshot) : KeepsIdentity s (rearm policy now hard s) := by
  unfold rearm
  dsimp only
  split
  · exact ⟨rfl, rfl⟩
  · split <;> exact ⟨rfl, rfl⟩

theorem reduceFact_identity (policy : LeasePolicy) (now : Millis) (hard : Option Millis)
    (sha256 : String → String) (s : AttemptLeaseSnapshot)
    (fact : ProgressFact) (resolver : Option PendingInputResolver) :
    (reduceFact policy now hard sha256 s fact resolver).identity = s.identity := by
  exact (rearm_keeps _).1.trans (reduceKind_keeps fact resolver _).1

theorem reduceFact_stateVersion (policy : LeasePolicy) (now : Millis) (hard : Option Millis)
    (sha256 : String → String) (s : AttemptLeaseSnapshot)
    (fact : ProgressFact) (resolver : Option PendingInputResolver) :
    (reduceFact policy now hard sha256 s fact resolver).stateVersion = s.stateVersion + 1 := by
  exact (rearm_keeps _).2.trans (reduceKind_keeps fact resolver _).2

end Frame

end Abtars
