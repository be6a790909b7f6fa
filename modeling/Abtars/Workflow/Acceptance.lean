import Abtars.Retry.Service

/-!
# The stored acceptance of a worker attempt

Whether the completed work of an attempt passes is read off durable records: the attempt, the
latest contract of its card and the stored result.  A missing or unusable record rejects.
-/

namespace Abtars

open Lib

variable (value : String)

/-- `boundText`: the text, cut at a length with a note of what was cut. -/
def boundText (max : Nat) : String :=
  if max < value.length then
    String.ofList (value.toList.take max) ++ s!"…[truncated {value.length - max} chars]"
  else value

def truncationNote (keep : Nat) : String :=
  s!"…[truncated {value.length - keep} chars]"

/-- The rounds of `boundCause`: the note counts toward the limit. -/
def boundCauseRounds (value : String) (max : Nat) : Nat → Nat → String → Nat × String
  | 0, keep, suffix => (keep, suffix)
  | rounds + 1, keep, _ =>
    let suffix := truncationNote value keep
    if keep ≤ max - suffix.length then (keep, suffix)
    else boundCauseRounds value max rounds (max - suffix.length) suffix

def boundCause : String :=
  if value.length ≤ 2000 then value
  else
    let (keep, suffix) := boundCauseRounds value 2000 3 2000 ""
    String.ofList (value.toList.take keep) ++ suffix

inductive WorkerAcceptance
  | accepted (envelope : WorkerResultEnvelope)
  | rejected (cause : String)

def sortedSet (ids : List String) : List String :=
  ids.dedup.insertionSort fun a b => a ≤ b

def diagnosisPart (name : String) (ids : List String) : List String :=
  if ids = [] then [] else [name ++ " [" ++ String.intercalate "," (sortedSet ids) ++ "]"]

/-- The criteria an envelope names more than once, after their first occurrence. -/
def repeatedCriteria : List String → List String → List String
  | _, [] => []
  | seen, id :: rest =>
    (if id ∈ seen then [id] else []) ++ repeatedCriteria (id :: seen) rest

def acceptanceCriteriaDetail (contract : WorkerAcceptanceContract)
    (envelope : WorkerResultEnvelope) : String :=
  let contractIds := contract.criteria.map (·.id)
  let known := envelope.criteria.filter (·.criterionId ∈ contractIds)
  let missingArtifacts := (contract.expectedArtifacts.filter fun expected =>
    expected.required && envelope.artifacts.any fun a =>
      a.artifactId = expected.id ∧ a.exists_ = false).map (·.ref)
  let parts :=
    diagnosisPart "unknown"
      ((envelope.criteria.filter (·.criterionId ∉ contractIds)).map (·.criterionId)) ++
    diagnosisPart "missing" (contractIds.filter (· ∉ known.map (·.criterionId))) ++
    diagnosisPart "duplicate" (repeatedCriteria [] (known.map (·.criterionId))) ++
    diagnosisPart "not-passed" ((known.filter (·.status ≠ .passed)).map (·.criterionId)) ++
    diagnosisPart "missing-artifacts" missingArtifacts
  "criterion-set mismatch: " ++
    String.intercalate "; " (if parts = [] then ["criteria not all passed"] else parts)

def unreadable (record : String) : WorkerAcceptance :=
  .rejected ("completed: acceptance_unreadable: " ++ record)

def unmet (detail : String) : WorkerAcceptance :=
  .rejected (boundCause ("completed: acceptance_unmet: " ++ detail))

def WorkerOutcome.text : WorkerOutcome → String
  | .completed => "completed"
  | .failed => "failed"
  | .cancelled => "cancelled"
  | .timedOut => "timed_out"

def readWorkerAcceptance (db : Db) (cardId : Nat) (attemptId : String) : WorkerAcceptance :=
  match (db.workerAttempts.get attemptId).filter (·.cardId = cardId) with
  | none => unreadable "attempt"
  | some attempt =>
    if attempt.lifecycle ≠ .completed then unreadable "attempt"
    else
      match (latestContract db cardId).bind (·.contractJson) with
      | none => unreadable "contract"
      | some contract =>
        match db.workerResults.get attemptId with
        | none => unreadable "envelope"
        | some result =>
          let envelope := result.envelope
          let named := envelope.attempt.contractId
          if envelope.attempt.id ≠ attemptId then
            unmet s!"attempt identity {envelope.attempt.id} !== {attemptId}"
          else if named ≠ attempt.contractId then
            unmet s!"contract identity {named} !== attempt contract {attempt.contractId}"
          else if named ≠ contract.id ∨
              envelope.attempt.contractDigest ≠ contract.digest then
            unmet s!"contract identity {named} is not the current contract {contract.id}"
          else if envelope.outcome ≠ .completed then
            unmet ("envelope outcome " ++ envelope.outcome.text ++ " is not completed")
          else if acceptancePassed contract (some envelope) then .accepted envelope
          else unmet (acceptanceCriteriaDetail contract envelope)

end Abtars
