import Abtars.Lease.Reducer

/-!
# The lease policy

What an evaluation of a lease snapshot decides, and what the outcome of an
inspection makes of the snapshot.  Both are pure; the reconciler turns the
decision into writes.
-/

namespace Abtars

open Lib

inductive LeaseAction
  | healthy | warning | inspect | cancel | closed
  deriving DecidableEq

structure LeaseDecision where
  action : LeaseAction
  reason : Option LeaseReason := none
  nextAt : Option Millis := none
  deriving DecidableEq

section Policy

variable (now : Millis) (policy : LeasePolicy) (hardDeadlineAt : Option Millis)

variable (s : AttemptLeaseSnapshot)

def effectiveLivenessDeadline : Millis :=
  clampAt hardDeadlineAt s.livenessDeadlineAt

def effectiveProgressDeadline : Millis :=
  clampAt hardDeadlineAt s.progressDeadlineAt

def effectiveReason : LeaseReason :=
  if effectiveProgressDeadline hardDeadlineAt s ≤ now then .progressExpired
  else .livenessExpired

def deadlineExpired : Bool :=
  effectiveLivenessDeadline hardDeadlineAt s ≤ now ∨
    effectiveProgressDeadline hardDeadlineAt s ≤ now

def deadlineNear : Bool :=
  (now < effectiveLivenessDeadline hardDeadlineAt s ∧
    effectiveLivenessDeadline hardDeadlineAt s - policy.warningBeforeMs ≤ now) ∨
  (now < effectiveProgressDeadline hardDeadlineAt s ∧
    effectiveProgressDeadline hardDeadlineAt s - policy.warningBeforeMs ≤ now)

def evaluateExpired : LeaseDecision :=
  let reason := some (effectiveReason now hardDeadlineAt s)
  match s.evaluation.phase with
  | .healthy => { action := .warning, reason := reason, nextAt := some now }
  | .inspectGrace =>
    if s.evaluation.graceDeadlineAt.getD now ≤ now then { action := .cancel, reason := reason }
    else { action := .healthy, nextAt := s.evaluation.graceDeadlineAt }
  | .warning =>
    if s.semanticState = .stalled then { action := .cancel, reason := reason }
    else { action := .inspect, reason := reason }
  | .inspecting => { action := .inspect, reason := reason }
  | .inspectDue => { action := .inspect, reason := reason }
  | _ => { action := .cancel, reason := reason }

def evaluateDeadlines : LeaseDecision :=
  let liveness := effectiveLivenessDeadline hardDeadlineAt s
  let progress := effectiveProgressDeadline hardDeadlineAt s
  if deadlineExpired now hardDeadlineAt s then evaluateExpired now hardDeadlineAt s
  else if deadlineNear now policy hardDeadlineAt s then
    { action := .warning
      reason := some (effectiveReason now hardDeadlineAt s)
      nextAt := some (min liveness progress) }
  else
    { action := .healthy
      nextAt := some (min (liveness - policy.warningBeforeMs)
        (progress - policy.warningBeforeMs)) }

/-- The evaluation of a snapshot with an open tool call, by its silence deadline. -/
def evaluateOperation : LeaseDecision :=
  match s.operation with
  | none => evaluateDeadlines now policy hardDeadlineAt s
  | some op =>
    if op.absoluteSilenceDeadlineAt ≤ now then
      { action := .cancel, reason := some .toolSilenceExpired }
    else
      { action := .healthy
        nextAt := some (clampAt hardDeadlineAt op.absoluteSilenceDeadlineAt) }

def evaluateAwaiting : LeaseDecision :=
  match s.awaitingInput with
  | none => evaluateOperation now policy hardDeadlineAt s
  | some input =>
    if s.semanticState = .awaitingInput then
      if input.deadlineAt ≤ now then
        { action := .cancel, reason := some .awaitingInputExpired }
      else { action := .healthy, nextAt := some (clampAt hardDeadlineAt input.deadlineAt) }
    else evaluateOperation now policy hardDeadlineAt s

def inspectionExhausted : Bool :=
  s.evaluation.phase = .inspectGrace ∧
    s.evaluation.reason = some .inspectionUnknownExhausted ∧
    policy.maxUnknownInspections ≤ s.evaluation.inspectionCount

def evaluateLease : LeaseDecision :=
  if s.evaluation.phase = .closed ∨ s.closedAt.isSome then { action := .closed }
  else if s.evaluation.phase = .cancelRequested then
    { action := .cancel, reason := s.evaluation.reason }
  else if inspectionExhausted policy s then
    { action := .cancel, reason := some .inspectionUnknownExhausted }
  else if hardDeadlineAt.any (· ≤ now) then
    { action := .cancel, reason := some .hardDeadline }
  else if s.semanticState = .stalled then
    { action := .cancel, reason := some .explicitStall }
  else evaluateAwaiting now policy hardDeadlineAt s

/-! ## Inspection outcomes -/

def grantGrace : AttemptLeaseSnapshot :=
  let graceEnd := clampAt hardDeadlineAt (now + policy.inspectGraceMs)
  { s with
    evaluation :=
      { s.evaluation with
        phase := .inspectGrace
        graceDeadlineAt := some graceEnd }
    nextEvaluationAt := some graceEnd }

def recordInspection (outcome : InspectionOutcome) (s : AttemptLeaseSnapshot) :
    AttemptLeaseSnapshot :=
  { s with
    evaluation :=
      { s.evaluation with
        inspectionCount := s.evaluation.inspectionCount + 1
        lastInspectionOutcome := some outcome
        version := s.evaluation.version + 1 }
    stateVersion := s.stateVersion + 1
    updatedAt := now }

/-- The executor answered: liveness is refreshed, and a progress deadline that
has passed is granted a grace. -/
def applyRunning : AttemptLeaseSnapshot :=
  let s := touchLiveness policy now hardDeadlineAt s
  let progressDeadline := s.lastMeaningfulProgressAt + policy.meaningfulProgressMs
  if progressDeadline ≤ now then grantGrace now policy hardDeadlineAt s
  else
    { s with
      evaluation := { s.evaluation with phase := .healthy }
      progressDeadlineAt := clampAt hardDeadlineAt progressDeadline
      nextEvaluationAt :=
        some (clampAt hardDeadlineAt (now + policy.livenessMs - policy.warningBeforeMs)) }

def applyTerminal : AttemptLeaseSnapshot :=
  { s with
    evaluation := { s.evaluation with phase := .closed }
    closedAt := some now
    closeReason := some "inspection_terminal"
    nextEvaluationAt := none }

/-- The executor's state is unknown: once too often and the snapshot is marked
for cancellation, else a grace is granted. -/
def applyUnknown : AttemptLeaseSnapshot :=
  if policy.maxUnknownInspections ≤ s.evaluation.inspectionCount then
    { s with
      evaluation :=
        { s.evaluation with
          phase := .inspectGrace
          reason := some .inspectionUnknownExhausted
          graceDeadlineAt := some now }
      nextEvaluationAt := some now }
  else grantGrace now policy hardDeadlineAt s

def applyInspectionOutcome (outcome : InspectionOutcome) : AttemptLeaseSnapshot :=
  let s := recordInspection now outcome s
  match outcome with
  | .running => applyRunning now policy hardDeadlineAt s
  | .terminal => applyTerminal now s
  | .unknown => applyUnknown now policy hardDeadlineAt s

end Policy

end Abtars
