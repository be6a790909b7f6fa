import Abtars.Database

/-!
# Task failures and the failure policy

Structured diagnostics of scheduled runs, with the codes each category knows, and
the policy that turns one diagnostic into a decision.
-/

namespace Abtars

open Lib

def autoPauseFailureThreshold : Nat := 5

def maxFailureMessage : Nat := 500

/-- `KNOWN_CODES`. -/
def knownCodes : TaskFailureCategory → List String
  | .definition =>
    ["report_contract_missing", "artifact_path_invalid", "artifact_parent_unwritable",
      "required_file_missing", "required_file_unreadable", "required_executable_missing",
      "required_executable_not_executable", "required_tool_unregistered",
      "required_tool_dependency_unavailable", "invalid_definition", "state_repaired"]
  | .routing => ["local_session_not_peer", "peer_not_enrolled", "target_unavailable"]
  | .admission => ["session_capacity", "type_busy", "model_cooldown", "executor_unavailable"]
  | .dependency => ["executable_missing", "probe_failed", "adapter_unavailable"]
  | .execution =>
    ["process_exit", "model_error", "tool_error", "credits_exhausted", "context_overflow",
      "all_candidates_failed", "empty_model_response", "provider_unavailable"]
  | .validation =>
    ["artifact_not_found", "artifact_not_regular_file", "artifact_unreadable",
      "artifact_too_small", "required_heading_missing", "artifact_unchanged_baseline",
      "artifact_stale_mtime", "contract_mismatch"]
  | .interruption =>
    ["timed_out", "cancelled", "restart_interrupted", "deadline_exceeded", "owner_lost"]
  | .delivery => ["definitely_not_sent", "send_unknown"]
  | .supervision =>
    ["lane_timed_out", "lane_late_completion", "lane_failed", "criterion_unevidenced",
      "contract_uncovered", "project_blocked", "salvage_exhausted"]

/-- A diagnostic of a code its category knows, the message redacted and bounded. -/
structure KnownFailure where
  category : TaskFailureCategory
  code : String
  retryability : TaskFailureRetryability
  known : code ∈ knownCodes category

/-- `makeTaskFailure`.  A code its category does not know would be thrown; here it
cannot be named. -/
def makeTaskFailure (rt : Runtime) (now : Millis) (failure : KnownFailure) (phase : FailurePhase)
    (message : String) : TaskFailureDiagnostic where
  category := failure.category
  code := failure.code
  phase := phase
  message := sliceText (rt.redactSecrets message) maxFailureMessage
  retryability := failure.retryability
  occurredAt := now

namespace KnownFailure

def invalidDefinition : KnownFailure := ⟨.definition, "invalid_definition", .permanent, by decide⟩
def timedOut : KnownFailure := ⟨.interruption, "timed_out", .none_, by decide⟩
def cancelled : KnownFailure := ⟨.interruption, "cancelled", .none_, by decide⟩
def deadlineExceeded : KnownFailure := ⟨.interruption, "deadline_exceeded", .none_, by decide⟩
def restartInterrupted : KnownFailure :=
  ⟨.interruption, "restart_interrupted", .none_, by decide⟩
def ownerLost : KnownFailure := ⟨.interruption, "owner_lost", .transient, by decide⟩
def executorUnavailable (retryability : TaskFailureRetryability) : KnownFailure :=
  ⟨.admission, "executor_unavailable", retryability, by decide⟩
def modelError : KnownFailure := ⟨.execution, "model_error", .none_, by decide⟩

end KnownFailure

def formatTaskFailure (d : TaskFailureDiagnostic) : String :=
  d.category.text ++ "/" ++ d.code ++ ": " ++ d.message

inductive FailurePolicyDecision
  | defer | retry | count (pauseNow : Bool) | clear
  deriving DecidableEq

def decideFailurePolicy (d : TaskFailureDiagnostic) : FailurePolicyDecision :=
  match d.category with
  | .admission => .defer
  | .definition => .count true
  | .routing => .count (d.retryability = .permanent)
  | .dependency | .execution | .validation =>
    if d.retryability = .transient then .retry else .count false
  | .interruption => if d.code = "cancelled" then .clear else .count false
  | .delivery => .clear
  | .supervision =>
    .count (d.code = "criterion_unevidenced" ∨ d.code = "contract_uncovered")

end Abtars
