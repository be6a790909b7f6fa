import Abtars.Lib.Run
import Abtars.Lease.Store

/-!
# Coherence of lease rows

A lease row stores the same facts twice, in its scheduling columns and in its
snapshot.  The five lease operations keep the two in lockstep, never lower the
high-water sequence, and keep a closed row closed as long as no evaluation
update and no cancel intent lands on it: these two, unlike the arming of the
next evaluation, do not ask whether the lease is closed.
-/

namespace Abtars

open Lib

/-! ## The invariant -/

/-- The columns of a row agree with its snapshot, and a closed row is in phase
closed with no evaluation scheduled. -/
structure LeaseRow.Coherent (row : LeaseRow) : Prop where
  attemptId : row.snapshotJson.attemptId = row.attemptId
  stateVersion : row.snapshotJson.stateVersion = row.stateVersion
  highWaterSequence : row.snapshotJson.highWaterSequence = row.highWaterSequence
  nextEvaluationAt : row.snapshotJson.nextEvaluationAt = row.nextEvaluationAt
  closedAt : row.snapshotJson.closedAt = row.closedAt
  closed_phase : row.closedAt.isSome → row.snapshotJson.evaluation.phase = .closed
  closed_next : row.closedAt.isSome → row.nextEvaluationAt = none

def LeasesCoherent (leases : Table LeaseRow) : Prop :=
  ∀ row ∈ leases, row.Coherent

/-- What one row may become: its high-water sequence does not fall, and if it was
closed it is still closed at the same instant, in phase closed and unscheduled. -/
structure LeaseRow.Follows (row row' : LeaseRow) : Prop where
  highWaterSequence : row.highWaterSequence ≤ row'.highWaterSequence
  closed : ∀ t, row.closedAt = some t →
    row'.closedAt = some t ∧ row'.snapshotJson.evaluation.phase = .closed ∧
      row'.nextEvaluationAt = none

def LeasesFollow (leases leases' : Table LeaseRow) : Prop :=
  ∀ id row, leases.get id = some row → ∃ row', leases'.get id = some row' ∧ row.Follows row'

theorem LeaseRow.Coherent.follows {row : LeaseRow} (h : row.Coherent) : row.Follows row where
  highWaterSequence := le_refl _
  closed := by
    intro t ht
    have hsome : row.closedAt.isSome := by simp [ht]
    exact ⟨ht, h.closed_phase hsome, h.closed_next hsome⟩

theorem LeaseRow.follows_of_open {row row' : LeaseRow} (hopen : row.closedAt = none)
    (hseq : row.highWaterSequence ≤ row'.highWaterSequence) : row.Follows row' where
  highWaterSequence := hseq
  closed := by
    intro t ht
    simp [hopen] at ht

theorem leasesFollow_refl {leases : Table LeaseRow} (h : LeasesCoherent leases) :
    LeasesFollow leases leases := by
  intro id row hrow
  exact ⟨row, hrow, (h row (Table.mem_of_get hrow)).follows⟩

theorem leasesFollow_trans {a b c : Table LeaseRow} (hab : LeasesFollow a b)
    (hbc : LeasesFollow b c) : LeasesFollow a c := by
  intro id row hrow
  obtain ⟨row', hrow', hfollows⟩ := hab id row hrow
  obtain ⟨row'', hrow'', hfollows'⟩ := hbc id row' hrow'
  refine ⟨row'', hrow'', le_trans hfollows.highWaterSequence hfollows'.highWaterSequence, ?_⟩
  intro t ht
  exact hfollows'.closed t (hfollows.closed t ht).1

section Put

variable {leases : Table LeaseRow} {s : AttemptLeaseSnapshot}

theorem leasesCoherent_put (h : LeasesCoherent leases)
    (hclosed : s.closedAt.isSome → s.evaluation.phase = .closed ∧ s.nextEvaluationAt = none) :
    LeasesCoherent (leases.put (leaseRowOf s)) := by
  intro row hrow
  rcases Table.mem_put.1 hrow with ⟨hold, -⟩ | rfl
  · exact h row hold
  · exact ⟨rfl, rfl, rfl, rfl, rfl, fun hc => (hclosed hc).1, fun hc => (hclosed hc).2⟩

theorem leasesFollow_put (h : LeasesCoherent leases)
    (hrow : ∀ row, leases.get s.attemptId = some row → row.Follows (leaseRowOf s)) :
    LeasesFollow leases (leases.put (leaseRowOf s)) := by
  intro id row hget
  rw [Table.get_put, key_leaseRowOf]
  by_cases hid : id = s.attemptId
  · subst hid
    exact ⟨leaseRowOf s, if_pos rfl, hrow row hget⟩
  · exact ⟨row, by rw [if_neg hid, hget], (h row (Table.mem_of_get hget)).follows⟩

end Put

section Modify

variable {leases : Table LeaseRow} {attemptId : String}

theorem leasesCoherent_modify (f : LeaseRow → LeaseRow) (hf : ∀ r, Keyed.key (f r) = Keyed.key r)
    (h : LeasesCoherent leases) (hrow : ∀ row, leases.get attemptId = some row → (f row).Coherent) :
    LeasesCoherent (leases.modify attemptId f hf) := by
  intro row hmem
  rcases Table.mem_modify.1 hmem with ⟨hold, -⟩ | ⟨old, hold, rfl⟩
  · exact h row hold
  · exact hrow old hold

theorem leasesFollow_modify (f : LeaseRow → LeaseRow)
    (hf : ∀ r, Keyed.key (f r) = Keyed.key r) (h : LeasesCoherent leases)
    (hrow : ∀ row, leases.get attemptId = some row → row.Follows (f row)) :
    LeasesFollow leases (leases.modify attemptId f hf) := by
  intro id row hget
  rw [Table.get_modify]
  by_cases hid : id = attemptId
  · subst hid
    exact ⟨f row, by simp [hget], hrow row hget⟩
  · exact ⟨row, by simp [hid, hget], (h row (Table.mem_of_get hget)).follows⟩

theorem rewriteLease_step {s : AttemptLeaseSnapshot} {row : LeaseRow}
    (h : LeasesCoherent leases) (hget : leases.get attemptId = some row)
    (hcoherent : (row.rewrite s).Coherent) (hfollows : row.Follows (row.rewrite s)) :
    LeasesCoherent (rewriteLease attemptId s leases) ∧
      LeasesFollow leases (rewriteLease attemptId s leases) := by
  constructor
  · refine leasesCoherent_modify (fun r => r.rewrite s) (fun _ => rfl) h fun r hr => ?_
    obtain rfl : row = r := by simpa [hget] using hr
    exact hcoherent
  · refine leasesFollow_modify (fun r => r.rewrite s) (fun _ => rfl) h fun r hr => ?_
    obtain rfl : row = r := by simpa [hget] using hr
    exact hfollows

end Modify

/-! ## Calls and runs -/

/-- A call on the lease store, or a change of the attempts by other stores
between two calls. -/
inductive LeaseOp
  | appendFact (now : Millis) (policy : LeasePolicy) (resolver : Option PendingInputResolver)
      (fact : ProgressFact)
  | closeLease (now : Millis) (attemptId : String) (generation : Int) (reason : String)
  | updateEvaluation (now : Millis) (attemptId : String) (phase : EvaluationPhase)
      (expectedStateVersion : Option Nat) (nextEvaluationAt : Option Millis)
  | recordCancelIntent (now : Millis) (attemptId : String) (reason : LeaseReason)
      (generation : Int) (expectedStateVersion : Nat)
  | setUpcomingEvaluation (now : Millis) (attemptId : String) (nextAt : Millis)
  | attemptsChange (attempts : Table AttemptRow)

def leaseStep (rt : Runtime) (db : Db) : LeaseOp → Db
  | .appendFact now policy resolver fact => (appendFact rt now policy resolver fact db).2
  | .closeLease now attemptId generation reason =>
    (closeLease now attemptId generation reason db).2
  | .updateEvaluation now attemptId phase expected next =>
    (updateEvaluation now attemptId phase expected next db).2
  | .recordCancelIntent now attemptId reason generation expected =>
    (recordCancelIntent now attemptId reason generation expected db).2
  | .setUpcomingEvaluation now attemptId nextAt => setUpcomingEvaluation now attemptId nextAt db
  | .attemptsChange attempts => { db with workerAttempts := attempts }

/-- A call that leaves closed leases alone.  An evaluation update of a closed
lease must miss its version, or only restate that the lease is closed; a cancel
intent on a closed lease must miss its version or find the attempt not live. -/
def SparesClosedLease (db : Db) : LeaseOp → Prop
  | .updateEvaluation _ attemptId phase expected next =>
    ∀ row, db.attemptLeaseSnapshots.get attemptId = some row → row.closedAt.isSome →
      (∃ version, expected = some version ∧ row.stateVersion ≠ version) ∨
        (phase = .closed ∧ next = none)
  | .recordCancelIntent _ attemptId _ generation expected =>
    ∀ row, db.attemptLeaseSnapshots.get attemptId = some row → row.closedAt.isSome →
      row.stateVersion ≠ expected ∨
        ∀ attempt, db.workerAttempts.get attemptId = some attempt →
          attempt.generation = generation → attempt.lifecycle.isLive = false
  | _ => True

section Snapshots

variable {rt : Runtime} {now : Millis} {policy : LeasePolicy}
  {resolver : Option PendingInputResolver} {attempt : AttemptRow} {fact : ProgressFact}

/-- The snapshot of an accepted fact names the fact's attempt and is open; it is
one past the row it was folded onto, which was open as well. -/
theorem nextSnapshot_some {row : Option LeaseRow} {s : AttemptLeaseSnapshot}
    (h : nextSnapshot rt now policy resolver attempt fact row = some s)
    (hrow : ∀ r, row = some r → r.Coherent ∧ r.attemptId = fact.attemptId) :
    s.attemptId = fact.attemptId ∧ s.closedAt = none ∧
      ∀ r, row = some r → r.closedAt = none ∧ s.highWaterSequence = r.highWaterSequence + 1 := by
  cases row with
  | none =>
    cases h
    exact ⟨rfl, rfl, by simp⟩
  | some r =>
    obtain ⟨hcoherent, hid⟩ := hrow r rfl
    obtain ⟨hname, hsOpen⟩ := nextSnapshot_open h fun r' hr' => by
      cases hr'
      exact hcoherent.attemptId.trans hid
    refine ⟨hname, hsOpen, ?_⟩
    dsimp only [nextSnapshot] at h
    split at h
    · cases h
    rename_i hopen
    cases h
    have hclosed : r.snapshotJson.closedAt = none := by simpa using hopen
    rintro _ ⟨⟩
    exact ⟨by rw [← hcoherent.closedAt, hclosed], rfl⟩

/-- The snapshot of a closing names the attempt and is settled; it is one past
the row it closed, which was open. -/
theorem closingSnapshot_some {reason : String} {row : Option LeaseRow}
    {s : AttemptLeaseSnapshot} (h : closingSnapshot now reason attempt row = some s)
    (hrow : ∀ r, row = some r → r.Coherent ∧ r.attemptId = attempt.id) :
    s.attemptId = attempt.id ∧ s.closedAt = some now ∧ s.evaluation.phase = .closed ∧
      s.nextEvaluationAt = none ∧
      ∀ r, row = some r → r.closedAt = none ∧ s.highWaterSequence = r.highWaterSequence + 1 := by
  unfold closingSnapshot at h
  cases row with
  | none =>
    cases h
    exact ⟨rfl, rfl, rfl, rfl, by simp⟩
  | some r =>
    obtain ⟨hcoherent, hid⟩ := hrow r rfl
    dsimp only at h
    split at h
    · cases h
    rename_i hopen
    cases h
    refine ⟨hcoherent.attemptId.trans hid, rfl, rfl, rfl, ?_⟩
    rintro _ ⟨⟩
    refine ⟨by rw [← hcoherent.closedAt]; simpa using hopen, ?_⟩
    simp [closeSnapshot, hcoherent.highWaterSequence]

end Snapshots

section Step

variable {rt : Runtime} {db : Db}

theorem appendFact_step (hdb : LeasesCoherent db.attemptLeaseSnapshots) (now : Millis)
    (policy : LeasePolicy) (resolver : Option PendingInputResolver) (fact : ProgressFact) :
    LeasesCoherent (appendFact rt now policy resolver fact db).2.attemptLeaseSnapshots ∧
      LeasesFollow db.attemptLeaseSnapshots
        (appendFact rt now policy resolver fact db).2.attemptLeaseSnapshots := by
  rcases appendFact_cases rt now policy resolver db fact with h | ⟨sanitized, attempt, snapshot, -, -, hnext, h⟩
  · rw [h]
    exact ⟨hdb, leasesFollow_refl hdb⟩
  rw [h]
  obtain ⟨hid, hopen, hlast⟩ := nextSnapshot_some hnext fun r hr =>
    ⟨hdb r (Table.mem_of_get hr), Table.key_of_get hr⟩
  constructor
  · exact leasesCoherent_put hdb fun hclosed => by simp [hopen] at hclosed
  refine leasesFollow_put hdb fun row hrow => ?_
  rw [hid] at hrow
  obtain ⟨hrowOpen, hseq⟩ := hlast row hrow
  refine LeaseRow.follows_of_open hrowOpen ?_
  show row.highWaterSequence ≤ snapshot.highWaterSequence
  omega

theorem closeLease_step (hdb : LeasesCoherent db.attemptLeaseSnapshots) (now : Millis)
    (attemptId : String) (generation : Int) (reason : String) :
    LeasesCoherent (closeLease now attemptId generation reason db).2.attemptLeaseSnapshots ∧
      LeasesFollow db.attemptLeaseSnapshots
        (closeLease now attemptId generation reason db).2.attemptLeaseSnapshots := by
  rcases closeLease_cases now db attemptId generation reason with
    h | ⟨attempt, snapshot, events, hattempt, -, hclosing, h⟩
  · rw [h]
    exact ⟨hdb, leasesFollow_refl hdb⟩
  · rw [h]
    have hattemptId : attempt.id = attemptId := Table.key_of_get hattempt
    obtain ⟨hid, -, hphase, hunscheduled, hlast⟩ := closingSnapshot_some hclosing fun r hr =>
      ⟨hdb r (Table.mem_of_get hr), (Table.key_of_get hr).trans hattemptId.symm⟩
    constructor
    · exact leasesCoherent_put hdb fun _ => ⟨hphase, hunscheduled⟩
    refine leasesFollow_put hdb fun row hrow => ?_
    rw [hid, hattemptId] at hrow
    obtain ⟨hrowOpen, hseq⟩ := hlast row hrow
    refine LeaseRow.follows_of_open hrowOpen ?_
    show row.highWaterSequence ≤ snapshot.highWaterSequence
    omega

theorem updateEvaluation_step (hdb : LeasesCoherent db.attemptLeaseSnapshots) {now : Millis}
    {attemptId : String} {phase : EvaluationPhase} {expected : Option Nat}
    {next : Option Millis}
    (hspares : SparesClosedLease db (.updateEvaluation now attemptId phase expected next)) :
    LeasesCoherent
        (updateEvaluation now attemptId phase expected next db).2.attemptLeaseSnapshots ∧
      LeasesFollow db.attemptLeaseSnapshots
        (updateEvaluation now attemptId phase expected next db).2.attemptLeaseSnapshots := by
  unfold updateEvaluation
  cases htarget : evaluationTarget db attemptId phase expected with
  | none => exact ⟨hdb, leasesFollow_refl hdb⟩
  | some row =>
    obtain ⟨hrow, hversion, -⟩ := evaluationTarget_some htarget
    have hcoherent := hdb row (Table.mem_of_get hrow)
    -- on a closed row the call can only restate that it is closed
    have hclosed : row.closedAt.isSome → phase = .closed ∧ next = none := by
      intro hc
      rcases hspares row hrow hc with ⟨version, hv, hne⟩ | hrestates
      · exact absurd (hversion version hv) hne
      · exact hrestates
    have hnext : row.closedAt.isSome → next.orElse (fun _ => row.snapshotJson.nextEvaluationAt)
        = none := by
      intro hc
      rw [(hclosed hc).2, Option.orElse_none, hcoherent.nextEvaluationAt,
        hcoherent.closed_next hc]
    refine rewriteLease_step hdb hrow ?_ ?_
    · exact ⟨hcoherent.attemptId, rfl, hcoherent.highWaterSequence, rfl, hcoherent.closedAt,
        fun hc => (hclosed hc).1, hnext⟩
    · refine ⟨le_refl _, fun t ht => ?_⟩
      have hc : row.closedAt.isSome := by simp [ht]
      exact ⟨ht, (hclosed hc).1, hnext hc⟩

theorem recordCancelIntent_step (hdb : LeasesCoherent db.attemptLeaseSnapshots) {now : Millis}
    {attemptId : String} {reason : LeaseReason} {generation : Int} {expected : Nat}
    (hspares : SparesClosedLease db
      (.recordCancelIntent now attemptId reason generation expected)) :
    LeasesCoherent
        (recordCancelIntent now attemptId reason generation expected db).2.attemptLeaseSnapshots ∧
      LeasesFollow db.attemptLeaseSnapshots
        (recordCancelIntent now attemptId reason generation expected
          db).2.attemptLeaseSnapshots := by
  unfold recordCancelIntent
  cases htarget : cancelTarget db attemptId generation expected with
  | none => exact ⟨hdb, leasesFollow_refl hdb⟩
  | some row =>
    obtain ⟨hrow, hversion, attempt, hattempt, hgeneration, hlive⟩ := cancelTarget_some htarget
    have hcoherent := hdb row (Table.mem_of_get hrow)
    -- a cancel intent that lands has found the lease open
    have hopen : row.closedAt = none := by
      by_contra hc
      rcases hspares row hrow (Option.isSome_iff_ne_none.2 hc) with hne | hdead
      · exact hne hversion
      · simp [hdead attempt hattempt hgeneration] at hlive
    have hnotClosed : ¬ row.closedAt.isSome := by simp [hopen]
    refine rewriteLease_step hdb hrow ?_ ?_
    · exact ⟨hcoherent.attemptId, rfl, hcoherent.highWaterSequence, rfl, hcoherent.closedAt,
        fun hc => absurd hc hnotClosed, fun hc => absurd hc hnotClosed⟩
    · exact LeaseRow.follows_of_open hopen (le_refl _)

theorem setUpcomingEvaluation_step (hdb : LeasesCoherent db.attemptLeaseSnapshots)
    (now : Millis) (attemptId : String) (nextAt : Millis) :
    LeasesCoherent (setUpcomingEvaluation now attemptId nextAt db).attemptLeaseSnapshots ∧
      LeasesFollow db.attemptLeaseSnapshots
        (setUpcomingEvaluation now attemptId nextAt db).attemptLeaseSnapshots := by
  have hrow : ∀ row, db.attemptLeaseSnapshots.get attemptId = some row →
      (row.arm now nextAt).Coherent ∧ row.Follows (row.arm now nextAt) := by
    intro row hget
    have hcoherent := hdb row (Table.mem_of_get hget)
    unfold LeaseRow.arm
    split
    · rename_i harmable
      have hopen : row.closedAt = none := by
        rw [← hcoherent.closedAt]
        exact (by simpa [armable] using harmable : _ ∧ _).1
      have hnotClosed : ¬ row.closedAt.isSome := by simp [hopen]
      refine ⟨⟨hcoherent.attemptId, hcoherent.stateVersion, hcoherent.highWaterSequence, rfl,
        hcoherent.closedAt, fun hc => absurd hc hnotClosed, fun hc => absurd hc hnotClosed⟩, ?_⟩
      exact LeaseRow.follows_of_open hopen (le_refl _)
    · exact ⟨hcoherent, hcoherent.follows⟩
  have hkey := arm_attemptId now nextAt
  exact ⟨leasesCoherent_modify _ hkey hdb fun row hget => (hrow row hget).1,
    leasesFollow_modify _ hkey hdb fun row hget => (hrow row hget).2⟩

theorem leaseStep_coherent_follows (op : LeaseOp)
    (hdb : LeasesCoherent db.attemptLeaseSnapshots) (hspares : SparesClosedLease db op) :
    LeasesCoherent (leaseStep rt db op).attemptLeaseSnapshots ∧
      LeasesFollow db.attemptLeaseSnapshots (leaseStep rt db op).attemptLeaseSnapshots := by
  cases op with
  | appendFact now policy resolver fact => exact appendFact_step hdb now policy resolver fact
  | closeLease now attemptId generation reason =>
    exact closeLease_step hdb now attemptId generation reason
  | updateEvaluation now attemptId phase expected next =>
    exact updateEvaluation_step hdb hspares
  | recordCancelIntent now attemptId reason generation expected =>
    exact recordCancelIntent_step hdb hspares
  | setUpcomingEvaluation now attemptId nextAt =>
    exact setUpcomingEvaluation_step hdb now attemptId nextAt
  | attemptsChange attempts => exact ⟨hdb, leasesFollow_refl hdb⟩

end Step

/-! ## What a run preserves -/

def runningAttemptDb : Db :=
  { Db.empty with
    workerAttempts := Table.ofRows
      [{ pendingAttempt "a1" 1 "c1" 1 .agent agentExecutorId 0 with lifecycle := .running }] }

/-- A heartbeat of `a1`. -/
def heartbeat : ProgressFact where
  schemaVersion := 1
  factId := "f1"
  attemptId := "a1"
  claimGeneration := 1
  executorKind := .agent
  executorId := agentExecutorId
  kind := .alive
  phase := none
  producerAt := none
  payload :=
    { operationId := none, operationLabel := none, expectedTimeoutMs := none
      progressUnits := none, observationId := none, milestoneId := none
      inputRequestId := none, summary := none }

theorem runningAttemptDb_coherent : LeasesCoherent runningAttemptDb.attemptLeaseSnapshots := by
  intro row hrow
  exact absurd hrow (Table.not_mem_empty row)

/-- In every run whose calls leave closed leases alone, every state reached has
its columns and snapshots in lockstep, and every later state follows it: no
high-water sequence falls and a closed lease stays closed and unscheduled. -/
theorem leaseRows_coherent_of_sparesClosed (rt : Runtime) (db : Db) (before after : List LeaseOp)
    (hdb : LeasesCoherent db.attemptLeaseSnapshots)
    (hspares : StepsMeet (leaseStep rt) SparesClosedLease db (before ++ after)) :
    LeasesCoherent (runFrom (leaseStep rt) db before).attemptLeaseSnapshots ∧
      LeasesFollow (runFrom (leaseStep rt) db before).attemptLeaseSnapshots
        (runFrom (leaseStep rt) db (before ++ after)).attemptLeaseSnapshots := by
  obtain ⟨hbefore, hafter⟩ := (stepsMeet_append before after db).1 hspares
  have hstep : ∀ s op, LeasesCoherent s.attemptLeaseSnapshots → SparesClosedLease s op →
      LeasesCoherent (leaseStep rt s op).attemptLeaseSnapshots :=
    fun s op hs hop => (leaseStep_coherent_follows op hs hop).1
  have hreached := invariant_of_stepsMeet hstep before db hdb hbefore
  refine ⟨hreached, ?_⟩
  rw [runFrom_append]
  exact relation_of_stepsMeet
    (R := fun s s' => LeasesFollow s.attemptLeaseSnapshots s'.attemptLeaseSnapshots)
    (fun s hs => leasesFollow_refl hs) (fun _ _ _ => leasesFollow_trans) hstep
    (fun s op hs hop => (leaseStep_coherent_follows op hs hop).2) after _ hreached hafter

/-- A closed lease survives an update and a cancel intent that miss its version. -/
theorem leaseRows_coherent_after_close :
    let before : List LeaseOp := [.closeLease 10 "a1" 1 "terminal:completed"]
    let after : List LeaseOp := [.updateEvaluation 20 "a1" .inspectDue (some 7) none,
      .recordCancelIntent 30 "a1" .livenessExpired 1 7]
    LeasesCoherent (runFrom (leaseStep Runtime.plain) runningAttemptDb
        before).attemptLeaseSnapshots ∧
      LeasesFollow (runFrom (leaseStep Runtime.plain) runningAttemptDb
          before).attemptLeaseSnapshots
        (runFrom (leaseStep Runtime.plain) runningAttemptDb
          (before ++ after)).attemptLeaseSnapshots := by
  intro before after
  refine leaseRows_coherent_of_sparesClosed Runtime.plain runningAttemptDb before after
    runningAttemptDb_coherent ?_
  refine ⟨trivial, ?_, ?_, trivial⟩
  · intro row hrow _
    have hversion : ((runFrom (leaseStep Runtime.plain) runningAttemptDb
        before).attemptLeaseSnapshots.get "a1").map (·.stateVersion) = some 1 := by decide
    have hrowVersion : row.stateVersion = 1 := by
      have := congrArg (Option.map (·.stateVersion)) hrow
      exact Option.some.inj (this.symm.trans hversion)
    exact .inl ⟨7, rfl, by simp [hrowVersion]⟩
  · intro row hrow _
    have hversion : ((runFrom (leaseStep Runtime.plain) runningAttemptDb
        (before ++ [after.head (by decide)])).attemptLeaseSnapshots.get "a1").map
          (·.stateVersion) = some 1 := by decide
    have hrowVersion : row.stateVersion = 1 := by
      have := congrArg (Option.map (·.stateVersion)) hrow
      exact Option.some.inj (this.symm.trans hversion)
    exact .inl (by simp [hrowVersion])

/-- The lease is closed, and then the evaluation update of an inspection without
an adapter lands on it. -/
theorem closed_lease_reopened :
    ¬ ∀ (rt : Runtime) (db : Db) (before after : List LeaseOp),
      LeasesCoherent db.attemptLeaseSnapshots →
      LeasesCoherent (runFrom (leaseStep rt) db before).attemptLeaseSnapshots ∧
        LeasesFollow (runFrom (leaseStep rt) db before).attemptLeaseSnapshots
          (runFrom (leaseStep rt) db (before ++ after)).attemptLeaseSnapshots := by
  intro hclaim
  let before : List LeaseOp := [.closeLease 10 "a1" 1 "terminal:completed"]
  let after : List LeaseOp := [.updateEvaluation 20 "a1" .inspectDue none none]
  have hfollow := (hclaim Runtime.plain runningAttemptDb before after
    runningAttemptDb_coherent).2
  have hclosed : ((runFrom (leaseStep Runtime.plain) runningAttemptDb
      before).attemptLeaseSnapshots.get "a1").map (·.closedAt) = some (some 10) := by
    decide
  have hphase : ((runFrom (leaseStep Runtime.plain) runningAttemptDb
      (before ++ after)).attemptLeaseSnapshots.get "a1").map
        (·.snapshotJson.evaluation.phase) = some .inspectDue := by
    decide
  obtain ⟨row, hrow, hat⟩ := Option.map_eq_some_iff.1 hclosed
  obtain ⟨row', hrow', hfollows⟩ := hfollow "a1" row hrow
  have hstill := (hfollows.closed 10 hat).2.1
  rw [hrow', Option.map_some, hstill] at hphase
  simp at hphase

end Abtars
