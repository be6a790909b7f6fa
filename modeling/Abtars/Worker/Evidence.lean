import Abtars.Worker.Runs

/-!
# Evidence and verdict

A stored envelope that reports completion should belong to a completed attempt.
A settlement decides its verdict after the caller built the envelope, and stores
the envelope as it was given: a completion that turns out too late or over its
reservation is settled as timed out or failed, with the completed envelope beside
it.
-/

namespace Abtars

open Lib

def EvidenceAgrees (db : Db) : Prop :=
  ∀ r ∈ db.workerResults, r.envelope.outcome = .completed →
    ∃ a, db.workerAttempts.get r.attemptId = some a ∧ a.lifecycle = .completed

def NoUnearnedAcceptance (db : Db) : Prop :=
  ∀ a ∈ db.workerAttempts, a.lifecycle ≠ .completed →
    ∀ r, db.workerResults.get a.id = some r →
      ∀ contract, acceptancePassed contract (some r.envelope) = false

/-- A settlement that stores a completed envelope was asked to complete, in time
and within the reservation. -/
def KeepsVerdict (rt : Runtime) (db : Db) : WorkerOp → Prop
  | .settle _ clock input =>
    ∀ attempt envelope, admitSettlement rt input db = .ok attempt →
      db.workerResults.get input.attemptId = none → input.envelope = some envelope →
      envelope.outcome = .completed →
      input.desiredState = .completed ∧
        lateCompletion db input attempt (input.now.getD clock) = false ∧
        budgetViolated input attempt = false
  | _ => True

section Step

variable {now : Millis} {input : SettleInput} {attempt : AttemptRow}

variable {rt : Runtime} {claims cancels closes : String → Prop} {db db' : Db}

theorem EvidenceAgrees.of_kept (h : EvidenceAgrees db)
    (hresults : db'.workerResults = db.workerResults)
    (hcompleted : ∀ id a, db.workerAttempts.get id = some a → a.lifecycle = .completed →
      ∃ a', db'.workerAttempts.get id = some a' ∧ a'.lifecycle = .completed) :
    EvidenceAgrees db' := by
  intro r hr houtcome
  rw [hresults] at hr
  obtain ⟨a, ha, hdone⟩ := h r hr houtcome
  exact hcompleted _ a ha hdone

theorem evidenceAgrees_quiet (h : EvidenceAgrees db)
    (hquiet : QuietStep claims cancels closes db db') : EvidenceAgrees db' := by
  refine h.of_kept hquiet.results fun id a ha hdone => ?_
  obtain ⟨a', ha', hmoves⟩ := hquiet.attempts.get_of_get (fun _ _ hm => hm.id_eq) ha
  have hsame := hmoves.eq_of_terminal (by rw [hdone]; rfl)
  exact ⟨a', ha', hsame ▸ hdone⟩

theorem evidenceAgrees_claim {req : ClaimRequest} (h : EvidenceAgrees db)
    (hadmitted : claimRefusal now db req = none) : EvidenceAgrees (claimWrites now req db) := by
  obtain ⟨attempt, _, hattempt, -, -⟩ := claimRefusal_none hadmitted
  obtain ⟨hget, -, hpending⟩ := attemptRefusal_ok hattempt
  refine h.of_kept rfl fun id a ha hdone => ⟨a, ?_, hdone⟩
  have hne : id ≠ req.attemptId := by
    rintro rfl
    rw [hget] at ha
    cases ha
    rw [hpending] at hdone
    cases hdone
  rw [get_claimWrites, if_neg hne, ha]

/-- The evidence of absence never reports completion. -/
theorem storedEnvelope_completed {verdict : DesiredState} {envelope : WorkerResultEnvelope}
    (h : storedEnvelope db input attempt verdict now = some envelope)
    (houtcome : envelope.outcome = .completed) : input.envelope = some envelope := by
  unfold storedEnvelope at h
  split at h
  · rename_i given hgiven
    cases h
    exact hgiven
  split at h
  · cases h
  rename_i hverdict
  cases h
  refine absurd ?_ hverdict
  cases verdict <;> simp [buildAbsenceEnvelope, DesiredState.outcome] at houtcome ⊢

theorem effectiveState_completed (hdesired : input.desiredState = .completed)
    (hlate : lateCompletion db input attempt now = false)
    (hbudget : budgetViolated input attempt = false) :
    effectiveState db input attempt now = .completed := by
  simp [effectiveState, timelyState, hdesired, hlate, hbudget]

theorem evidenceAgrees_settle {clock : Millis} (hook : SuccessorHook) (h : EvidenceAgrees db)
    (hadmits : admitSettlement rt input db = .ok attempt)
    (hkeeps : KeepsVerdict rt db (.settle hook clock input)) :
    EvidenceAgrees (settleWrites rt input attempt clock db) := by
  obtain ⟨hget, -, hopen, -⟩ := admitSettlement_ok hadmits
  have hresults : (settleWrites rt input attempt clock db).workerResults =
      storeResult rt input.attemptId (storedEnvelope db input attempt
        (effectiveState db input attempt (input.now.getD clock)) (input.now.getD clock))
        clock db.workerResults := by
    obtain ⟨_, _, _, _, -, heq⟩ := settleWrites_eq rt input attempt clock db
    rw [heq]
  intro r hr houtcome
  rw [hresults] at hr
  have hold : r ∈ db.workerResults → ∃ a,
      (settleWrites rt input attempt clock db).workerAttempts.get r.attemptId = some a ∧
        a.lifecycle = .completed := by
    intro hmem
    obtain ⟨a, ha, hdone⟩ := h r hmem houtcome
    have hne : r.attemptId ≠ input.attemptId := by
      intro heqId
      rw [heqId, hget] at ha
      cases ha
      simp [hdone, AttemptLifecycle.isTerminal] at hopen
    exact ⟨a, by rw [get_settleWrites_of_ne clock hne, ha], hdone⟩
  unfold storeResult at hr
  split at hr
  · exact hold hr
  rename_i envelope hstored
  cases hexisting : db.workerResults.get input.attemptId with
  | some existing =>
    have hsame : db.workerResults.insertOrIgnore (fun _ => false)
        { attemptId := input.attemptId, envelope := envelope
          envelopeDigest := rt.envelopeDigest envelope, createdAt := clock } =
        db.workerResults := by
      simp [Table.insertOrIgnore, Table.insert, hexisting]
    rw [hsame] at hr
    exact hold hr
  | none =>
    rcases Table.mem_of_mem_insertOrIgnore hr with hmem | rfl
    · exact hold hmem
    have hgiven := storedEnvelope_completed hstored houtcome
    obtain ⟨hdesired, hlate, hbudget⟩ :=
      hkeeps attempt envelope hadmits hexisting hgiven houtcome
    refine ⟨_, get_settleWrites_self clock hget, ?_⟩
    rw [settledRow_lifecycle, effectiveState_completed hdesired hlate hbudget]
    rfl

theorem evidenceAgrees_step (op : WorkerOp) (h : EvidenceAgrees db)
    (hkeeps : KeepsVerdict rt db op) : EvidenceAgrees (workerStep rt db op) := by
  rcases workerStep_cases rt db op with
    hquiet | ⟨now, req, rfl, hadmitted, hstep⟩ | ⟨hook, clock, input, attempt, rfl, hadmits, hquiet⟩
  · exact evidenceAgrees_quiet h hquiet
  · rw [hstep]
    exact evidenceAgrees_claim h hadmitted
  · exact evidenceAgrees_quiet (evidenceAgrees_settle hook h hadmits hkeeps) hquiet

end Step

/-- Evidence that agrees with the verdicts is never mistaken for acceptance. -/
theorem noUnearnedAcceptance_of_agrees {db : Db} (h : EvidenceAgrees db) :
    NoUnearnedAcceptance db := by
  intro a ha hverdict r hr contract
  by_contra hpassed
  have houtcome := outcome_completed_of_acceptancePassed (by simpa using hpassed)
  obtain ⟨a', ha', hdone⟩ := h r (Table.mem_of_get hr) houtcome
  have hself : db.workerAttempts.get a.id = some a := Table.get_key_of_mem ha
  rw [show r.attemptId = a.id from Table.key_of_get hr, hself] at ha'
  cases ha'
  exact hverdict hdone

/-! ## What a run preserves -/

/-- In every run whose settlements keep the verdict of a completed envelope,
evidence of completion belongs to completed attempts and no other attempt has
evidence that passes acceptance. -/
theorem evidenceAgrees_of_keepsVerdict (rt : Runtime) (db : Db) (ops : List WorkerOp)
    (h : EvidenceAgrees db)
    (hkeeps : StepsMeet (workerStep rt) (KeepsVerdict rt) db ops) :
    EvidenceAgrees (runFrom (workerStep rt) db ops) ∧
      NoUnearnedAcceptance (runFrom (workerStep rt) db ops) := by
  have hreached := invariant_of_stepsMeet (fun s op hs hop => evidenceAgrees_step op hs hop)
    ops db h hkeeps
  exact ⟨hreached, noUnearnedAcceptance_of_agrees hreached⟩

/-! ## A late completion -/

def lateContract : WorkerAcceptanceContract where
  id := "c1"
  digest := "g1"
  revisionMeta := none
  goal := "goal"
  criteria := [{ id := "k1", description := "criterion" }]
  expectedArtifacts := []
  verificationCommands := []
  requiredCapabilities := []
  supportsRootCriteria := none
  workspaceAlias := none
  limits := { maxDurationMs := none, maxTokens := none, maxCost := none }
  provenance := { rootCardId := 1, cardId := 1, authoredBy := "orc", createdAt := "" }

/-- The envelope of a completed attempt `a1` that passed its criterion. -/
def passedEnvelope : WorkerResultEnvelope where
  attempt :=
    { id := "a1", ordinal := 1, contractId := "c1", contractDigest := "g1"
      executorKind := .agent, executorId := agentExecutorId, startedAt := 0, finishedAt := 900 }
  outcome := .completed
  criteria := [{ criterionId := "k1", status := .passed, evidenceIds := [] }]
  checks := []
  artifacts := []
  workerReport := { summary := "", claims := [], unresolvedRisks := [] }
  usage := none
  error := none

def deadlineAttemptDb : Db :=
  { Db.empty with
    kanbanBoard := Table.ofRows [newCard 1 "user" (some "W") none .running 0]
    workerContracts := Table.ofRows
      [{ id := "c1", cardId := 1, revision := 1, rootContractId := "c1"
         parentContractId := none, sourceAttemptId := none, contractJson := some lateContract
         contractDigest := "g1", createdAt := 0 }]
    workerAttempts := Table.ofRows
      [{ pendingAttempt "a1" 1 "c1" 1 .agent agentExecutorId 0 with
         lifecycle := .running, hardDeadlineAt := some 1000 }] }

/-- The settlement that asks to complete `a1` at the given instant. -/
def completeAt (now : Millis) : WorkerOp :=
  .settle (fun _ _ => none) now
    { attemptId := "a1"
      expectedGeneration := 1
      desiredState := .completed
      stableReason := "worker completed"
      normalizedUsage := none
      envelope := some passedEnvelope
      now := some now
      inputRequested := false }

theorem deadlineAttemptDb_agrees : EvidenceAgrees deadlineAttemptDb := by
  intro r hr
  exact absurd hr (Table.not_mem_empty r)

/-- A completion within the grace keeps evidence and verdict together. -/
theorem evidenceAgrees_within_grace :
    EvidenceAgrees (runFrom (workerStep Runtime.plain) deadlineAttemptDb [completeAt 1500]) ∧
      NoUnearnedAcceptance
        (runFrom (workerStep Runtime.plain) deadlineAttemptDb [completeAt 1500]) := by
  refine evidenceAgrees_of_keepsVerdict Runtime.plain deadlineAttemptDb [completeAt 1500]
    deadlineAttemptDb_agrees ⟨?_, trivial⟩
  intro attempt envelope hadmits _ _ _
  obtain ⟨hget, -⟩ := admitSettlement_ok hadmits
  obtain rfl : { pendingAttempt "a1" 1 "c1" 1 .agent agentExecutorId 0 with
      lifecycle := .running, hardDeadlineAt := some 1000 } = attempt := Option.some.inj hget
  decide

/-- A completion two seconds late is settled as timed out, and its completed
envelope is stored and passes acceptance. -/
theorem late_completion_stores_acceptance :
    ¬ ∀ (rt : Runtime) (db : Db) (ops : List WorkerOp), EvidenceAgrees db →
      EvidenceAgrees (runFrom (workerStep rt) db ops) ∧
        NoUnearnedAcceptance (runFrom (workerStep rt) db ops) := by
  intro hclaim
  let late := runFrom (workerStep Runtime.plain) deadlineAttemptDb [completeAt 3000]
  have hunearned := (hclaim Runtime.plain deadlineAttemptDb [completeAt 3000]
    deadlineAttemptDb_agrees).2
  have hverdict : (late.workerAttempts.get "a1").map (·.lifecycle) = some .timedOut := by decide
  have hstored : (late.workerResults.get "a1").map (·.envelope) = some passedEnvelope := by
    decide
  obtain ⟨a, ha, htimedOut⟩ := Option.map_eq_some_iff.1 hverdict
  obtain ⟨r, hr, henvelope⟩ := Option.map_eq_some_iff.1 hstored
  have hid : a.id = "a1" := Table.key_of_get ha
  have hrefused := hunearned a (Table.mem_of_get ha) (by simp [htimedOut]) r
    (by rw [hid]; exact hr) lateContract
  rw [henvelope] at hrefused
  exact absurd hrefused (by decide)

end Abtars
