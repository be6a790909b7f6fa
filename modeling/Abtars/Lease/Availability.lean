import Abtars.Lease.Coherence
import Abtars.Worker.Runs

/-!
# Availability of the lease

A live attempt renews its lease by appending facts.  A lease that is open accepts
every valid fact of its attempt that was not seen before; a lease that is closed
accepts none, and is never opened again.  Availability of a live attempt's lease
is therefore a matter of who closes it: a settlement and a deferral take the
attempt out of its live lifecycles, but the attempt of a deferral may be claimed
again, and `closeLease` does not ask about the lifecycle.
-/

namespace Abtars

open Lib

/-- A valid fact of a live attempt, of its generation and executor, not seen before. -/
structure RenewalFact (db : Db) (fact : ProgressFact) : Prop where
  valid : validateProgressEvent fact = []
  owned : ∃ a, db.workerAttempts.get fact.attemptId = some a ∧ a.lifecycle.isLive = true ∧
    a.generation = fact.claimGeneration ∧ a.executorKind = fact.executorKind.kind ∧
    a.executorId = fact.executorId
  fresh : findFact db fact = none

def LeasesAvailable (rt : Runtime) (db : Db) : Prop :=
  ∀ now policy resolver fact, RenewalFact db fact →
    ∃ snapshot, (appendFact rt now policy resolver fact db).1 = .accepted snapshot

section Append

variable {rt : Runtime} {db : Db} {fact : ProgressFact}

theorem boundedString_of_valid {field : String} {maxBytes : Nat} {value : Option String}
    (h : boundedStringIssues field maxBytes value = []) :
    value.any (·.utf8ByteSize > maxBytes) = false := by
  cases value with
  | none => rfl
  | some v =>
    by_cases hlong : v.utf8ByteSize > maxBytes
    · simp [boundedStringIssues, hlong] at h
    · simpa using hlong

theorem safeInteger_of_valid {field : String} {value : Option Int}
    (h : safeIntegerIssues field value = []) :
    value.any (fun v => v < 0 ∨ v > maxSafeInteger) = false := by
  cases value with
  | none => rfl
  | some v =>
    by_cases hunsafe : v < 0 ∨ v > maxSafeInteger
    · simp [safeIntegerIssues, hunsafe] at h
    · simpa using hunsafe

theorem payloadUnsound_of_valid (h : payloadIssues fact = []) :
    payloadUnsound fact.payload = false := by
  simp only [payloadIssues, List.append_eq_nil_iff] at h
  obtain ⟨⟨⟨⟨⟨⟨⟨⟨⟨⟨hoperation, hlabel⟩, hobservation⟩, hmilestone⟩, hinput⟩, -⟩, htimeout⟩,
    hunits⟩, -⟩, -⟩, -⟩ := h
  have htexts : [fact.payload.operationId, fact.payload.operationLabel,
      fact.payload.observationId, fact.payload.milestoneId, fact.payload.inputRequestId].any
      (fun value => value.any (·.utf8ByteSize > maxIdentifierLength)) = false := by
    simp only [List.any_cons, List.any_nil, boundedString_of_valid hoperation,
      boundedString_of_valid hlabel, boundedString_of_valid hobservation,
      boundedString_of_valid hmilestone, boundedString_of_valid hinput, Bool.or_self]
  have hpositive : fact.payload.expectedTimeoutMs.any (· < 0) = false := by
    have hsafe := safeInteger_of_valid htimeout
    cases hvalue : fact.payload.expectedTimeoutMs with
    | none => rfl
    | some v =>
      rw [hvalue, Option.any_some, decide_eq_false_iff_not, not_or] at hsafe
      simpa using hsafe.1
  unfold payloadUnsound
  rw [htexts, hpositive, safeInteger_of_valid hunits]
  rfl

theorem sanitizeFact_of_valid (rt : Runtime) (h : validateProgressEvent fact = []) :
    ∃ payload, sanitizeFact rt fact =
      some { fact with schemaVersion := 1, payload := payload } := by
  have hfields : fieldIssues fact = [] := by
    unfold validateProgressEvent at h
    split at h
    · cases h
    split at h
    · rename_i hissues
      exact absurd h hissues
    · rename_i hnone
      exact not_not.1 hnone
  have hpayload : payloadIssues fact = [] := by
    simp only [fieldIssues, List.append_eq_nil_iff] at hfields
    exact hfields.1.2
  exact ⟨_, by rw [sanitizeFact, payloadUnsound_of_valid hpayload]; rfl⟩

theorem factOwner_of_renewal (h : RenewalFact db fact) :
    ∃ attempt, factOwner db fact = .ok attempt := by
  obtain ⟨a, hget, hlive, hgeneration, hkind, hid⟩ := h.owned
  have hopen : a.lifecycle.isTerminal = false :=
    AttemptLifecycle.isTerminal_of_isActive (AttemptLifecycle.isActive_of_isLive hlive)
  exact ⟨a, by simp [factOwner, hget, hopen, hlive, hgeneration, hkind, hid]⟩

theorem appendFact_of_renewal (rt : Runtime) (now : Millis) (policy : LeasePolicy)
    (resolver : Option PendingInputResolver) (h : RenewalFact db fact) :
    (LeaseClosed db.attemptLeaseSnapshots fact.attemptId ∧
      (appendFact rt now policy resolver fact db).1 = .rejected "lease is closed") ∨
    (¬ LeaseClosed db.attemptLeaseSnapshots fact.attemptId ∧
      ∃ snapshot, (appendFact rt now policy resolver fact db).1 = .accepted snapshot) := by
  obtain ⟨payload, hsanitized⟩ := sanitizeFact_of_valid rt h.valid
  obtain ⟨attempt, howner⟩ := factOwner_of_renewal h
  -- neither the owner nor the event row is looked up by what sanitization rewrites
  have howner' : factOwner db { fact with schemaVersion := 1, payload := payload } =
      .ok attempt := howner
  have hfresh : findFact db { fact with schemaVersion := 1, payload := payload } = none :=
    h.fresh
  simp only [appendFact, h.valid, hsanitized, appendSanitized, howner', hfresh]
  cases hrow : db.attemptLeaseSnapshots.get fact.attemptId with
  | none =>
    refine .inr ⟨?_, ?_⟩
    · rintro ⟨row, hget, -⟩
      rw [hrow] at hget
      cases hget
    · simp [nextSnapshot]
  | some row =>
    by_cases hclosed : row.snapshotJson.closedAt.isSome = true
    · exact .inl ⟨⟨row, hrow, hclosed⟩, by simp [nextSnapshot, hclosed]⟩
    refine .inr ⟨?_, by simp [nextSnapshot, hclosed]⟩
    rintro ⟨row', hget, hclosed'⟩
    obtain rfl : row = row' := Option.some.inj (hrow.symm.trans hget)
    exact hclosed hclosed'

end Append

/-! ## The invariant -/

structure LeasesOpen (db : Db) : Prop where
  named : LeasesNamed db.attemptLeaseSnapshots
  opened : ∀ id a, db.workerAttempts.get id = some a → a.lifecycle.isLive = true →
    ¬ LeaseClosed db.attemptLeaseSnapshots id

theorem LeasesOpen.available {db : Db} (h : LeasesOpen db) (rt : Runtime) :
    LeasesAvailable rt db := by
  intro now policy resolver fact hfact
  obtain ⟨a, hget, hlive, -⟩ := hfact.owned
  rcases appendFact_of_renewal rt now policy resolver hfact with ⟨hclosed, -⟩ | ⟨-, haccepted⟩
  · exact absurd hclosed (h.opened _ a hget hlive)
  · exact haccepted

/-- The operation claims no pending attempt whose lease is closed, and closes no
lease of a live attempt by name. -/
structure KeepsLeasesOpen (db : Db) (op : WorkerOp) : Prop where
  claims : ∀ id a, db.workerAttempts.get id = some a → a.lifecycle = .pending →
    op.Claims db id → ¬ LeaseClosed db.attemptLeaseSnapshots id
  closes : ∀ id a, db.workerAttempts.get id = some a → a.lifecycle.isLive = true →
    ¬ op.Closes db id

section Step

variable {rt : Runtime} {claims cancels closes : String → Prop} {db db' : Db}

/-- A quiet step keeps leases open that claims only open ones and closes none of
the attempts that are live after it. -/
theorem LeasesOpen.quiet (h : LeasesOpen db) (hquiet : QuietStep claims cancels closes db db')
    (hclaims : ∀ id a, db.workerAttempts.get id = some a → a.lifecycle = .pending →
      claims id → ¬ LeaseClosed db.attemptLeaseSnapshots id)
    (hcloses : ∀ id a, db.workerAttempts.get id = some a → closes id →
      a.lifecycle.isLive = false ∧ ¬ claims id) : LeasesOpen db' := by
  obtain ⟨hnamed, hclosed⟩ := hquiet.leases h.named
  refine ⟨hnamed, fun id a' ha' hlive hlease => ?_⟩
  have hid : a'.id = id := Table.key_of_get ha'
  rcases hquiet.attempts.origin (Table.mem_of_get ha') with ⟨a, ha, hmoves⟩ | hfresh
  · have haid : a.id = id := hmoves.id_eq.symm.trans hid
    have hget : db.workerAttempts.get id = some a := haid ▸ Table.get_key_of_mem ha
    rcases hclosed id hlease with hbefore | hcloses' | ⟨b, hb, hidle⟩
    · rcases hmoves.live_cases hlive with hwas | ⟨hpending, hclaimed⟩
      · exact h.opened id a hget hwas hbefore
      · exact hclaims id a hget hpending (haid ▸ hclaimed) hbefore
    · obtain ⟨hdead, hunclaimed⟩ := hcloses id a hget hcloses'
      rcases hmoves.live_cases hlive with hwas | ⟨-, hclaimed⟩
      · rw [hwas] at hdead
        cases hdead
      · exact hunclaimed (haid ▸ hclaimed)
    · obtain rfl : a' = b := Option.some.inj (ha'.symm.trans hb)
      rw [hlive] at hidle
      cases hidle
  · rw [hfresh.lifecycle] at hlive
    cases hlive

theorem LeasesOpen.claim {now : Millis} {req : ClaimRequest} (h : LeasesOpen db)
    (hadmitted : claimRefusal now db req = none)
    (hkeeps : KeepsLeasesOpen db (.claimWithinLimits now req)) :
    LeasesOpen (claimWrites now req db) := by
  obtain ⟨attempt, _, hattempt, -, -⟩ := claimRefusal_none hadmitted
  obtain ⟨hget, -, hpending⟩ := attemptRefusal_ok hattempt
  refine ⟨h.named, fun id a' ha' hlive => ?_⟩
  rw [get_claimWrites] at ha'
  split at ha'
  · rename_i hid
    rw [hid]
    exact hkeeps.claims req.attemptId attempt hget hpending rfl
  · exact h.opened id a' ha' hlive

theorem leaseStep_settleWrites (rt : Runtime) (clock : Millis) {input : SettleInput}
    {attempt : AttemptRow} (hget : db.workerAttempts.get input.attemptId = some attempt) :
    LeaseStep closes (settleWrites rt input attempt clock db).workerAttempts
      db.attemptLeaseSnapshots (settleWrites rt input attempt clock db).attemptLeaseSnapshots := by
  let now := input.now.getD clock
  let verdict := effectiveState db input attempt now
  let charged := chargeUsage input attempt now clock db
  let settled :=
    { charged with
      workerAttempts := charged.workerAttempts.modify input.attemptId
        (AttemptRow.settle verdict (settleReason db input attempt now) now) }
  have hattempts : (settleWrites rt input attempt clock db).workerAttempts =
      settled.workerAttempts := by
    obtain ⟨_, _, hclose⟩ := closeLease_frame clock settled input.attemptId
      attempt.generation ("terminal:" ++ verdict.text)
    exact (congrArg Db.workerAttempts hclose :)
  have hleases : settled.attemptLeaseSnapshots = db.attemptLeaseSnapshots := by
    show charged.attemptLeaseSnapshots = db.attemptLeaseSnapshots
    simp only [charged, chargeUsage]
    split <;> rfl
  have hterminal : Idle settled.workerAttempts input.attemptId := by
    refine ⟨settledRow db input attempt now, ?_, ?_⟩
    · rw [← hattempts]
      exact get_settleWrites_self clock hget
    · rw [settledRow_lifecycle]
      cases effectiveState db input attempt now <;> rfl
  rw [hattempts, ← hleases]
  exact closeLease_leaseStep clock input.attemptId attempt.generation _ fun _ _ _ =>
    .inr hterminal

theorem LeasesOpen.settle {clock : Millis} {input : SettleInput} {attempt : AttemptRow}
    (h : LeasesOpen db) (hadmits : admitSettlement rt input db = .ok attempt) :
    LeasesOpen (settleWrites rt input attempt clock db) := by
  obtain ⟨hget, -⟩ := admitSettlement_ok hadmits
  have hstep : LeaseStep (fun _ => False) _ _ _ := leaseStep_settleWrites rt clock hget
  obtain ⟨hnamed, hclosed⟩ := hstep h.named
  refine ⟨hnamed, fun id a' ha' hlive hlease => ?_⟩
  rcases hclosed id hlease with hbefore | hnone | ⟨b, hb, hidle⟩
  · by_cases hid : id = input.attemptId
    · subst hid
      rw [get_settleWrites_self clock hget] at ha'
      cases ha'
      rw [settledRow_lifecycle] at hlive
      exact absurd hlive (by cases effectiveState db input attempt _ <;> decide)
    · rw [get_settleWrites_of_ne clock hid] at ha'
      exact h.opened id a' ha' hlive hbefore
  · exact hnone
  · obtain rfl : a' = b := Option.some.inj (ha'.symm.trans hb)
    rw [hlive] at hidle
    cases hidle

theorem WorkerOp.not_claims_of_closes {op : WorkerOp} {id : String} (h : op.Closes db id) :
    ¬ op.Claims db id := by
  cases op with
  | closeLease now attemptId generation reason => exact fun hclaims => hclaims
  | _ => exact h.elim

theorem LeasesOpen.step (op : WorkerOp) (h : LeasesOpen db) (hkeeps : KeepsLeasesOpen db op) :
    LeasesOpen (workerStep rt db op) := by
  rcases workerStep_cases rt db op with
    hquiet | ⟨now, req, rfl, hadmitted, hstep⟩ | ⟨hook, clock, input, attempt, rfl, hadmits, hquiet⟩
  · refine h.quiet hquiet hkeeps.claims fun id a hget hcloses => ⟨?_, op.not_claims_of_closes hcloses⟩
    by_contra hlive
    exact hkeeps.closes id a hget (by simpa using hlive) hcloses
  · rw [hstep]
    exact h.claim hadmitted hkeeps
  · exact (h.settle hadmits).quiet hquiet (fun _ _ _ _ hnone => hnone.elim)
      fun _ _ _ hnone => hnone.elim

end Step

/-! ## What a run preserves -/

/-- In every run that claims no attempt with a closed lease and closes no lease of
a live attempt, every live attempt can renew its lease. -/
theorem leasesAvailable_of_keepsOpen (rt : Runtime) (db : Db) (ops : List WorkerOp)
    (h : LeasesOpen db) (hkeeps : StepsMeet (workerStep rt) KeepsLeasesOpen db ops) :
    LeasesAvailable rt (runFrom (workerStep rt) db ops) :=
  (invariant_of_stepsMeet (I := LeasesOpen) (fun _ op hs hop => hs.step op hop) ops db h
    hkeeps).available rt

/-! ## Closed leases of live attempts -/

/-- A project whose only child attempt `a1` is pending. -/
def queuedAttemptDb : Db :=
  { Db.empty with
    kanbanBoard := Table.ofRows
      [newCard 1 "user" (some "O") none .running 0, newCard 2 "orc" (some "W") (some 1) .queued 0]
    workerAttempts := Table.ofRows [pendingAttempt "a1" 2 "c1" 1 .agent agentExecutorId 0] }

/-- The claim of `a1` in its first generation. -/
def claimQueued (now : Millis) : WorkerOp :=
  .claimWithinLimits now
    { cardId := 2, attemptId := "a1", contractId := "c1", executorKind := .agent
      executorId := agentExecutorId, generation := 1, executorMax := 2, hardDeadlineAt := none
      reservedTokens := 0, projectId := 1, sourceAttemptId := none }

theorem queuedAttemptDb_open : LeasesOpen queuedAttemptDb where
  named := fun row hrow => absurd hrow (Table.not_mem_empty row)
  opened := by
    rintro id a - - ⟨row, hrow, -⟩
    exact absurd (Table.mem_of_get hrow) (Table.not_mem_empty row)

/-- A claimed attempt that reported once can report again. -/
theorem claimed_attempt_renews :
    LeasesAvailable Runtime.plain (runFrom (workerStep Runtime.plain) queuedAttemptDb
      [claimQueued 10, .appendFact 20 defaultLocalPolicy none heartbeat]) := by
  refine leasesAvailable_of_keepsOpen Runtime.plain queuedAttemptDb _ queuedAttemptDb_open
    ⟨⟨?_, ?_⟩, ⟨?_, ?_⟩, trivial⟩
  · rintro id a - - - ⟨row, hrow, -⟩
    exact absurd (Table.mem_of_get hrow) (Table.not_mem_empty row)
  · exact fun _ _ _ _ hcloses => hcloses
  · exact fun _ _ _ _ hclaims => hclaims.elim
  · exact fun _ _ _ _ hcloses => hcloses

/-- The lease of `a1` is closed while it runs. -/
def closedWhileLive : List WorkerOp :=
  [claimQueued 10, .closeLease 20 "a1" 1 "inspection_terminal"]

/-- The claim of `a1` is deferred, which closes its lease, and claimed again. -/
def reclaimedAfterDeferral : List WorkerOp :=
  [claimQueued 10, .markStartObservable "a1", .defer 20 "a1" 1 .capacity, claimQueued 30]

theorem not_leasesAvailable_of_closed {rt : Runtime} {db : Db} (hfact : RenewalFact db heartbeat)
    (hclosed : LeaseClosed db.attemptLeaseSnapshots heartbeat.attemptId) :
    ¬ LeasesAvailable rt db := by
  intro havailable
  obtain ⟨snapshot, haccepted⟩ := havailable 0 defaultLocalPolicy none heartbeat hfact
  rcases appendFact_of_renewal rt 0 defaultLocalPolicy none hfact with
    ⟨-, hrejected⟩ | ⟨hopen, -⟩
  · rw [hrejected] at haccepted
    cases haccepted
  · exact hopen hclosed

/-- After either run `a1` is live and its next fact is rejected. -/
theorem live_attempt_cannot_renew :
    LeasesOpen queuedAttemptDb ∧
      ¬ LeasesAvailable Runtime.plain
        (runFrom (workerStep Runtime.plain) queuedAttemptDb closedWhileLive) ∧
      ¬ LeasesAvailable Runtime.plain
        (runFrom (workerStep Runtime.plain) queuedAttemptDb reclaimedAfterDeferral) := by
  have hreached : ∀ reached,
      ((reached.workerAttempts.get "a1").any fun a => a.lifecycle.isLive ∧ a.generation = 1 ∧
        a.executorKind = .agent ∧ a.executorId = agentExecutorId) = true →
      findFact reached heartbeat = none →
      ((reached.attemptLeaseSnapshots.get "a1").any (·.snapshotJson.closedAt.isSome)) = true →
      ¬ LeasesAvailable Runtime.plain reached := by
    intro reached howned hfresh hclosed
    obtain ⟨a, hget, ha⟩ := Option.any_eq_true _ _ |>.1 howned
    obtain ⟨row, hrow, hrowClosed⟩ := Option.any_eq_true _ _ |>.1 hclosed
    simp only [Bool.decide_and, Bool.and_eq_true, decide_eq_true_eq] at ha
    exact not_leasesAvailable_of_closed
      { valid := by decide +kernel, owned := ⟨a, hget, ha⟩, fresh := hfresh }
      ⟨row, hrow, hrowClosed⟩
  refine ⟨queuedAttemptDb_open, ?_, ?_⟩
  · exact hreached _ (by decide) (by decide) (by decide)
  · exact hreached _ (by decide) (by decide) (by decide)

end Abtars
