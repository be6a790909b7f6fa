import Abtars.Lease.Availability
import Abtars.Lib.Retention

/-!
# Facts that arrive twice

A repeated fact is recognised by the event row its first arrival left behind,
and what makes it a repetition or a conflict is the fingerprint stored there.
The event table keeps the newest `maxEventsPerAttempt` facts of a claim, and the
fingerprint is a digest of the fact's fields joined into one text.

A history keeps the facts accepted so far beside the database.  The invariant
`Remembers` says that the event table is the tail of that list; what a repeated
fact is answered follows from it.
-/

namespace Abtars

open Lib

/-! ## Histories -/

def ProgressFact.content (fact : ProgressFact) :
    ProgressKind × Option ProgressPhase × Option String × Option String × Option String ×
      Option Int × Option String :=
  (fact.kind, fact.phase, fact.payload.operationId, fact.payload.milestoneId,
    fact.payload.inputRequestId, fact.payload.progressUnits, fact.payload.observationId)

def fingerprintText (fact : ProgressFact) : String :=
  String.intercalate "|" (fingerprintParts fact)

structure FactHistory where
  db : Db
  accepted : List ProgressFact

variable (rt : Runtime)

def offeredFact : LeaseOp → Option ProgressFact
  | .appendFact _ _ _ fact => sanitizeFact rt fact
  | _ => none

def foldsFact (db : Db) : LeaseOp → Bool
  | .appendFact now policy resolver fact =>
    match (appendFact rt now policy resolver fact db).1 with
    | .accepted _ => true
    | _ => false
  | _ => false

def historyStep (h : FactHistory) (op : LeaseOp) : FactHistory where
  db := leaseStep rt h.db op
  accepted := h.accepted ++ if foldsFact rt h.db op then (offeredFact rt op).toList else []

def historyRun (db : Db) (ops : List LeaseOp) : FactHistory :=
  runFrom (historyStep rt) ⟨db, []⟩ ops

def FactHistory.ofClaim (h : FactHistory) (attemptId : String) (generation : Int) :
    List ProgressFact :=
  h.accepted.filter fun fact => fact.attemptId = attemptId ∧ fact.claimGeneration = generation

def claimEvents (db : Db) (attemptId : String) (generation : Int) : List ProgressEventRow :=
  db.attemptProgressEvents.select fun e =>
    e.attemptId = attemptId ∧ e.claimGeneration = generation

/-! ## What one call answers -/

theorem sanitizeFact_some {rt : Runtime} {fact sanitized : ProgressFact}
    (h : sanitizeFact rt fact = some sanitized) :
    sanitized.attemptId = fact.attemptId ∧ sanitized.claimGeneration = fact.claimGeneration ∧
      sanitized.factId = fact.factId ∧ sanitized.content = fact.content := by
  unfold sanitizeFact at h
  split at h
  · cases h
  · cases h
    exact ⟨rfl, rfl, rfl, rfl⟩

section Answer

variable {rt : Runtime} {now : Millis} {policy : LeasePolicy}
  {resolver : Option PendingInputResolver} {db : Db} {fact : ProgressFact}

/-- Everything a call can answer and write: a rejection and a repeated fact write
nothing, a new fact of a live attempt on an open lease is stored. -/
theorem appendFact_answers (rt : Runtime) (now : Millis) (policy : LeasePolicy)
    (resolver : Option PendingInputResolver) (db : Db) (fact : ProgressFact) :
    (∃ reason, appendFact rt now policy resolver fact db = (.rejected reason, db)) ∨
    (∃ sanitized existing, sanitizeFact rt fact = some sanitized ∧
      findFact db sanitized = some existing ∧
      appendFact rt now policy resolver fact db =
        (replayFact db sanitized (computeSemanticFingerprint rt.sha256 sanitized) existing, db)) ∨
    (∃ sanitized attempt snapshot, sanitizeFact rt fact = some sanitized ∧
      factOwner db sanitized = .ok attempt ∧ findFact db sanitized = none ∧
      nextSnapshot rt now policy resolver attempt sanitized
        (db.attemptLeaseSnapshots.get sanitized.attemptId) = some snapshot ∧
      appendFact rt now policy resolver fact db =
        (.accepted snapshot, storeFact rt now sanitized snapshot db)) := by
  unfold appendFact
  cases validateProgressEvent fact with
  | cons issue rest => exact .inl ⟨_, rfl⟩
  | nil =>
    cases hsan : sanitizeFact rt fact with
    | none => exact .inl ⟨_, rfl⟩
    | some sanitized =>
      simp only [appendSanitized]
      cases howner : factOwner db sanitized with
      | error reason => exact .inl ⟨_, rfl⟩
      | ok attempt =>
        cases hfind : findFact db sanitized with
        | some existing => exact .inr (.inl ⟨sanitized, existing, rfl, hfind, rfl⟩)
        | none =>
          dsimp only
          cases hnext : nextSnapshot rt now policy resolver attempt sanitized
              (db.attemptLeaseSnapshots.get sanitized.attemptId) with
          | none => exact .inl ⟨_, rfl⟩
          | some snapshot =>
            exact .inr (.inr
              ⟨sanitized, attempt, snapshot, rfl, howner, hfind, hnext, rfl⟩)

/-- A repeated fact is answered from the event row, never folded. -/
theorem replayFact_cases (db : Db) (fact : ProgressFact) (fingerprint : String)
    (existing : ProgressEventRow) :
    (∃ snapshot, getSnapshot db fact.attemptId = some snapshot ∧
      existing.fingerprint = fingerprint ∧
      replayFact db fact fingerprint existing = .idempotent snapshot) ∨
    ∃ reason, replayFact db fact fingerprint existing = .conflict reason := by
  unfold replayFact
  cases getSnapshot db fact.attemptId with
  | none => exact .inr ⟨_, rfl⟩
  | some snapshot =>
    dsimp only
    split
    · rename_i hsame
      exact .inl ⟨snapshot, rfl, hsame, rfl⟩
    · exact .inr ⟨_, rfl⟩

theorem findFact_eq (db : Db) (fact : ProgressFact) :
    findFact db fact = (claimEvents db fact.attemptId fact.claimGeneration).find? fun e =>
      e.factId = fact.factId := by
  rw [findFact, claimEvents, Table.select, List.find?_filter]
  congr 1
  funext e
  simp [and_assoc]

end Answer

/-! ## The invariant -/

def eventMark (e : ProgressEventRow) : String × String := (e.factId, e.fingerprint)

def factMark (rt : Runtime) (fact : ProgressFact) : String × String :=
  (fact.factId, computeSemanticFingerprint rt.sha256 fact)

structure Remembers (rt : Runtime) (attemptId : String) (h : FactHistory) : Prop where
  named : LeasesNamed h.db.attemptLeaseSnapshots
  below : ∀ e ∈ h.db.attemptProgressEvents, e.attemptId = attemptId →
    ∃ row, h.db.attemptLeaseSnapshots.get attemptId = some row ∧
      e.sequence ≤ row.highWaterSequence
  ordered : ∀ generation, (claimEvents h.db attemptId generation).Pairwise
    fun earlier later => earlier.sequence < later.sequence
  recorded : ∀ generation, (claimEvents h.db attemptId generation).map eventMark =
    ((h.ofClaim attemptId generation).rtake maxEventsPerAttempt).map (factMark rt)

structure LeavesEvents (attemptId : String) (db db' : Db) : Prop where
  named : LeasesNamed db.attemptLeaseSnapshots → LeasesNamed db'.attemptLeaseSnapshots
  events : (db'.attemptProgressEvents.select fun e => e.attemptId = attemptId) =
    db.attemptProgressEvents.select fun e => e.attemptId = attemptId
  highWater : (db'.attemptLeaseSnapshots.get attemptId).map (·.highWaterSequence) =
    (db.attemptLeaseSnapshots.get attemptId).map (·.highWaterSequence)

section Quiet

variable {attemptId : String} {db db' : Db} {rt : Runtime}

theorem leavesEvents_refl (attemptId : String) (db : Db) : LeavesEvents attemptId db db :=
  ⟨id, rfl, rfl⟩

theorem claimEvents_of_leaves (h : LeavesEvents attemptId db db') (generation : Int) :
    claimEvents db' attemptId generation = claimEvents db attemptId generation := by
  have hsplit : ∀ d : Db, claimEvents d attemptId generation =
      (d.attemptProgressEvents.select fun e => e.attemptId = attemptId).filter
        fun e => e.claimGeneration = generation := by
    intro d
    rw [claimEvents, Table.select, Table.select, List.filter_filter]
    refine List.filter_congr fun e _ => ?_
    rw [Bool.and_comm]
    simp
  rw [hsplit, hsplit, h.events]

theorem Remembers.of_leaves {h h' : FactHistory} (hrem : Remembers rt attemptId h)
    (hleaves : LeavesEvents attemptId h.db h'.db)
    (hclaim : ∀ generation, h'.ofClaim attemptId generation = h.ofClaim attemptId generation) :
    Remembers rt attemptId h' := by
  constructor
  · exact hleaves.named hrem.named
  · intro e he hid
    have hold : e ∈ h.db.attemptProgressEvents := by
      have hmem : e ∈ h'.db.attemptProgressEvents.select fun e => e.attemptId = attemptId := by
        simp [he, hid]
      rw [hleaves.events] at hmem
      exact ((Table.mem_select _ _ _).1 hmem).1
    obtain ⟨row, hrow, hle⟩ := hrem.below e hold hid
    have hhigh := hleaves.highWater
    rw [hrow, Option.map_some, Option.map_eq_some_iff] at hhigh
    obtain ⟨row', hrow', hsame⟩ := hhigh
    exact ⟨row', hrow', by omega⟩
  · intro generation
    rw [claimEvents_of_leaves hleaves]
    exact hrem.ordered generation
  · intro generation
    rw [claimEvents_of_leaves hleaves, hclaim]
    exact hrem.recorded generation

theorem leavesEvents_modify {leases : Table LeaseRow} (attempts : Table AttemptRow)
    (target : String) (f : LeaseRow → LeaseRow) (hid : ∀ row, Keyed.key (f row) = Keyed.key row)
    (hhigh : ∀ row, (f row).highWaterSequence = row.highWaterSequence)
    (hname : ∀ row, db.attemptLeaseSnapshots.get target = some row →
      row.snapshotJson.attemptId = row.attemptId →
        (f row).snapshotJson.attemptId = (f row).attemptId)
    (hleases : leases = db.attemptLeaseSnapshots.modify target f hid) :
    LeavesEvents attemptId db
      { db with attemptLeaseSnapshots := leases, workerAttempts := attempts } := by
  subst hleases
  constructor
  · intro hnamed row hrow
    have hrow' : row ∈ db.attemptLeaseSnapshots.modify target f hid := hrow
    rcases Table.mem_modify.1 hrow' with ⟨hold, -⟩ | ⟨old, hold, rfl⟩
    · exact hnamed row hold
    · exact hname old hold (hnamed old (Table.mem_of_get hold))
  · rfl
  · exact Table.map_get_modify _ target f hid attemptId _ hhigh

theorem leavesEvents_put {snapshot : AttemptLeaseSnapshot} {events : Table ProgressEventRow}
    (hother : snapshot.attemptId ≠ attemptId)
    (hevents : (events.select fun e => e.attemptId = attemptId) =
      db.attemptProgressEvents.select fun e => e.attemptId = attemptId) :
    LeavesEvents attemptId db
      { db with
        attemptLeaseSnapshots := db.attemptLeaseSnapshots.put (leaseRowOf snapshot)
        attemptProgressEvents := events } := by
  constructor
  · intro hnamed row hrow
    rcases Table.mem_put.1 hrow with ⟨hold, -⟩ | rfl
    · exact hnamed row hold
    · rfl
  · exact hevents
  · rw [Table.get_put, key_leaseRowOf, if_neg hother.symm]

end Quiet

/-! ## One call -/

def LeaseOp.ClosesLease (attemptId : String) : LeaseOp → Prop
  | .closeLease _ target _ _ => target = attemptId
  | _ => False

section Step

variable {fact first : ProgressFact} {snapshot : AttemptLeaseSnapshot} {h : FactHistory}
  {resolver : Option PendingInputResolver} {attempt : AttemptRow}

variable {rt : Runtime} {attemptId : String}

theorem pruneEvents_eq (attemptId : String) (generation : Int) (events : Table ProgressEventRow) :
    pruneEvents attemptId generation events =
      events.prune (fun e => e.attemptId = attemptId ∧ e.claimGeneration = generation)
        (·.sequence) maxEventsPerAttempt := by
  simp [pruneEvents, Table.prune, and_assoc]

theorem leavesEvents_store {db : Db} {now : Millis} (hname : snapshot.attemptId = fact.attemptId)
    (hother : fact.attemptId ≠ attemptId) :
    LeavesEvents attemptId db (storeFact rt now fact snapshot db) := by
  refine leavesEvents_put (hname ▸ hother) ?_
  have hdisjoint : ∀ e : ProgressEventRow, decide (e.attemptId = attemptId) = true →
      decide (e.attemptId = fact.attemptId ∧ e.claimGeneration = fact.claimGeneration) = false := by
    intro e he
    rw [decide_eq_true_eq] at he
    simp [he, hother.symm]
  rw [pruneEvents_eq, Table.select_prune_of_disjoint _ _ _ hdisjoint,
    Table.select_insertOrIgnore_of_not]
  simp [factEventRow, hother]

theorem leavesEvents_close {db : Db} {now : Millis} {target reason : String} {generation : Int}
    (hnamed : LeasesNamed db.attemptLeaseSnapshots) (hother : target ≠ attemptId) :
    LeavesEvents attemptId db (closeLease now target generation reason db).2 := by
  unfold closeLease
  cases hget : db.workerAttempts.get target with
  | none => exact leavesEvents_refl attemptId db
  | some attempt =>
    dsimp only
    split
    · exact leavesEvents_refl attemptId db
    cases hclose : closingSnapshot now reason attempt
        (db.attemptLeaseSnapshots.get target) with
    | none => exact leavesEvents_refl attemptId db
    | some snapshot =>
      have hid : attempt.id = target := Table.key_of_get hget
      have hname : snapshot.attemptId = attempt.id :=
        closingSnapshot_attemptId hclose fun row hrow =>
          (hnamed row (Table.mem_of_get hrow)).trans ((Table.key_of_get hrow).trans hid.symm)
      refine leavesEvents_put (by rw [hname, hid]; exact hother) ?_
      exact Table.select_insertOrIgnore_of_not (by simp [closeEventRow, hother])

/-- The calls that are no facts leave the events of an attempt whose lease they
do not close. -/
theorem leavesEvents_step {db : Db} (hnamed : LeasesNamed db.attemptLeaseSnapshots) (op : LeaseOp)
    (hopen : ¬ op.ClosesLease attemptId)
    (hfact : ∀ now policy resolver fact, op ≠ .appendFact now policy resolver fact) :
    LeavesEvents attemptId db (leaseStep rt db op) := by
  cases op with
  | appendFact now policy resolver fact => exact absurd rfl (hfact now policy resolver fact)
  | closeLease now target generation reason => exact leavesEvents_close hnamed hopen
  | updateEvaluation now target phase expected next =>
    simp only [leaseStep, updateEvaluation]
    cases htarget : evaluationTarget db target phase expected with
    | none => exact leavesEvents_refl attemptId db
    | some row =>
      have hrow := (evaluationTarget_some htarget).1
      refine leavesEvents_modify _ target
        (fun r => r.rewrite
          (evaluatedSnapshot now phase row.stateVersion next row.snapshotJson))
        (fun _ => rfl) (fun _ => rfl) ?_ rfl
      intro row' hrow' hname
      rw [hrow, Option.some.injEq] at hrow'
      subst hrow'
      exact hname
  | recordCancelIntent now target reason generation expected =>
    simp only [leaseStep, recordCancelIntent]
    cases htarget : cancelTarget db target generation expected with
    | none => exact leavesEvents_refl attemptId db
    | some row =>
      have hrow := (cancelTarget_some htarget).1
      refine leavesEvents_modify _ target
        (fun r => r.rewrite
          (cancelledSnapshot now reason row.stateVersion row.snapshotJson))
        (fun _ => rfl) (fun _ => rfl) ?_ rfl
      intro row' hrow' hname
      rw [hrow, Option.some.injEq] at hrow'
      subst hrow'
      exact hname
  | setUpcomingEvaluation now target nextAt =>
    refine leavesEvents_modify db.workerAttempts target (LeaseRow.arm now nextAt)
      (arm_attemptId now nextAt) ?_ ?_ rfl
    · intro row
      unfold LeaseRow.arm
      split <;> rfl
    · intro row _ hname
      unfold LeaseRow.arm
      split
      · exact hname
      · exact hname
  | attemptsChange attempts => exact ⟨id, rfl, rfl⟩

theorem sequence_lt_of_nextSnapshot (hrem : Remembers rt attemptId h)
    {now : Millis} {policy : LeasePolicy}
    (hnext : nextSnapshot rt now policy resolver attempt fact
      (h.db.attemptLeaseSnapshots.get attemptId) = some snapshot)
    {e : ProgressEventRow} (he : e ∈ h.db.attemptProgressEvents) (hid : e.attemptId = attemptId) :
    e.sequence < snapshot.highWaterSequence := by
  obtain ⟨row, hrow, hle⟩ := hrem.below e he hid
  rw [hrow, nextSnapshot] at hnext
  split at hnext
  · cases hnext
  · cases hnext
    exact Nat.lt_succ_of_le hle

theorem rows_insert_fact (hrem : Remembers rt attemptId h)
    {now : Millis} {policy : LeasePolicy}
    (hid : fact.attemptId = attemptId) (hfind : findFact h.db fact = none)
    (hnext : nextSnapshot rt now policy resolver attempt fact
      (h.db.attemptLeaseSnapshots.get attemptId) = some snapshot) :
    (h.db.attemptProgressEvents.insertOrIgnore
        (factEventRow rt now fact snapshot.highWaterSequence).clashes
        (factEventRow rt now fact snapshot.highWaterSequence)).rows =
      h.db.attemptProgressEvents.rows ++
        [factEventRow rt now fact snapshot.highWaterSequence] := by
  refine Table.rows_insertOrIgnore_of_fits ⟨?_, ?_⟩
  · rw [Table.get_eq_none_iff]
    intro e he hkey
    have hattempt : e.attemptId = attemptId := (congrArg Prod.fst hkey).trans hid
    have hsequence : e.sequence = snapshot.highWaterSequence :=
      congrArg (fun key => key.2.2) hkey
    have hlt := sequence_lt_of_nextSnapshot hrem hnext he hattempt
    omega
  · intro e he
    have hnone := List.find?_eq_none.1 hfind e he
    rw [decide_eq_true_eq] at hnone
    exact decide_eq_false hnone

/-- An accepted fact is appended to the events of its claim, and the oldest is
cut. -/
theorem claimEvents_store (hrem : Remembers rt attemptId h)
    {now : Millis} {policy : LeasePolicy}
    (hid : fact.attemptId = attemptId) (hfind : findFact h.db fact = none)
    (hnext : nextSnapshot rt now policy resolver attempt fact
      (h.db.attemptLeaseSnapshots.get attemptId) = some snapshot) :
    claimEvents (storeFact rt now fact snapshot h.db) attemptId fact.claimGeneration =
      newest (·.sequence) maxEventsPerAttempt
        (claimEvents h.db attemptId fact.claimGeneration ++
          [factEventRow rt now fact snapshot.highWaterSequence]) := by
  simp only [claimEvents, storeFact]
  rw [pruneEvents_eq, hid, Table.select_prune]
  congr 1
  rw [Table.select, rows_insert_fact hrem hid hfind hnext, List.filter_append, Table.select]
  simp [factEventRow, hid]

theorem claimEvents_store_of_ne {now : Millis} {generation : Int}
    (hne : generation ≠ fact.claimGeneration) :
    claimEvents (storeFact rt now fact snapshot h.db) attemptId generation =
      claimEvents h.db attemptId generation := by
  have hdisjoint : ∀ e : ProgressEventRow,
      decide (e.attemptId = attemptId ∧ e.claimGeneration = generation) = true →
      decide (e.attemptId = fact.attemptId ∧ e.claimGeneration = fact.claimGeneration) = false := by
    intro e he
    rw [decide_eq_true_eq] at he
    simp [he.2, hne]
  simp only [claimEvents, storeFact]
  rw [pruneEvents_eq, Table.select_prune_of_disjoint _ _ _ hdisjoint,
    Table.select_insertOrIgnore_of_not]
  simp [factEventRow, hne.symm]

/-- **An accepted fact is remembered.** -/
theorem remembers_store (hrem : Remembers rt attemptId h)
    {now : Millis} {policy : LeasePolicy}
    (hid : fact.attemptId = attemptId) (hfind : findFact h.db fact = none)
    (hnext : nextSnapshot rt now policy resolver attempt fact
      (h.db.attemptLeaseSnapshots.get attemptId) = some snapshot) :
    Remembers rt attemptId
      ⟨storeFact rt now fact snapshot h.db, h.accepted ++ [fact]⟩ := by
  have hname : snapshot.attemptId = attemptId := by
    rw [← hid]
    refine (nextSnapshot_open hnext fun row hrow => ?_).1
    rw [hrem.named row (Table.mem_of_get hrow), hid]
    exact Table.key_of_get hrow
  have hsorted : ∀ generation, generation = fact.claimGeneration →
      (claimEvents h.db attemptId generation ++
        [factEventRow rt now fact snapshot.highWaterSequence]).Pairwise
          fun earlier later => earlier.sequence < later.sequence := by
    intro generation _
    rw [List.pairwise_append]
    refine ⟨hrem.ordered generation, List.pairwise_singleton _ _, ?_⟩
    intro earlier hearlier later hlater
    rw [List.mem_singleton] at hlater
    subst hlater
    obtain ⟨he, hclaim⟩ := (Table.mem_select _ _ _).1 hearlier
    rw [decide_eq_true_eq] at hclaim
    exact sequence_lt_of_nextSnapshot hrem hnext he hclaim.1
  constructor
  · intro row hrow
    rcases Table.mem_put.1 hrow with ⟨hold, -⟩ | rfl
    · exact hrem.named row hold
    · rfl
  · intro e he hattempt
    have hget : (storeFact rt now fact snapshot h.db).attemptLeaseSnapshots.get attemptId =
        some (leaseRowOf snapshot) := by
      show (h.db.attemptLeaseSnapshots.put (leaseRowOf snapshot)).get attemptId = _
      rw [Table.get_put, key_leaseRowOf, hname, if_pos rfl]
    refine ⟨leaseRowOf snapshot, hget, ?_⟩
    rcases Table.mem_of_mem_insertOrIgnore (Table.mem_deleteWhere.1 he).1 with hold | rfl
    · exact Nat.le_of_lt (sequence_lt_of_nextSnapshot hrem hnext hold hattempt)
    · exact le_refl _
  · intro generation
    by_cases hgeneration : generation = fact.claimGeneration
    · have hsuffix := newest_suffix maxEventsPerAttempt (hsorted generation hgeneration)
      subst hgeneration
      rw [claimEvents_store hrem hid hfind hnext]
      exact (hsorted _ rfl).sublist hsuffix.sublist
    · rw [claimEvents_store_of_ne hgeneration]
      exact hrem.ordered generation
  · intro generation
    by_cases hgeneration : generation = fact.claimGeneration
    · subst hgeneration
      have hclaim : (FactHistory.mk (storeFact rt now fact snapshot h.db)
          (h.accepted ++ [fact])).ofClaim attemptId fact.claimGeneration =
            h.ofClaim attemptId fact.claimGeneration ++ [fact] := by
        simp [FactHistory.ofClaim, hid]
      rw [claimEvents_store hrem hid hfind hnext, hclaim]
      exact map_newest_append (hsorted _ rfl) (hrem.recorded _) rfl
    · have hclaim : (FactHistory.mk (storeFact rt now fact snapshot h.db)
          (h.accepted ++ [fact])).ofClaim attemptId generation =
            h.ofClaim attemptId generation := by
        simp [FactHistory.ofClaim, Ne.symm hgeneration]
      rw [claimEvents_store_of_ne hgeneration, hclaim]
      exact hrem.recorded generation

theorem historyStep_of_quiet {op : LeaseOp} (hfold : foldsFact rt h.db op = false) :
    historyStep rt h op = ⟨leaseStep rt h.db op, h.accepted⟩ := by
  simp [historyStep, hfold]

theorem historyStep_append (rt : Runtime) (h : FactHistory) (now : Millis) (policy : LeasePolicy)
    (resolver : Option PendingInputResolver) (fact : ProgressFact) :
    historyStep rt h (.appendFact now policy resolver fact) = h ∨
    ∃ sanitized attempt snapshot, sanitizeFact rt fact = some sanitized ∧
      findFact h.db sanitized = none ∧
      nextSnapshot rt now policy resolver attempt sanitized
        (h.db.attemptLeaseSnapshots.get sanitized.attemptId) = some snapshot ∧
      historyStep rt h (.appendFact now policy resolver fact) =
        ⟨storeFact rt now sanitized snapshot h.db, h.accepted ++ [sanitized]⟩ := by
  rcases appendFact_answers rt now policy resolver h.db fact with ⟨reason, hanswer⟩ |
    ⟨sanitized, existing, -, -, hanswer⟩ | ⟨sanitized, attempt, snapshot, hsan, -, hfind, hnext, hanswer⟩
  · refine .inl ?_
    rw [historyStep_of_quiet (by simp [foldsFact, hanswer])]
    simp [leaseStep, hanswer]
  · refine .inl ?_
    have hquiet : foldsFact rt h.db (.appendFact now policy resolver fact) = false := by
      simp only [foldsFact, hanswer]
      rcases replayFact_cases h.db sanitized (computeSemanticFingerprint rt.sha256 sanitized)
        existing with ⟨_, -, -, hreplay⟩ | ⟨_, hreplay⟩
      · rw [hreplay]
      · rw [hreplay]
    rw [historyStep_of_quiet hquiet]
    simp [leaseStep, hanswer]
  · refine .inr ⟨sanitized, attempt, snapshot, hsan, hfind, hnext, ?_⟩
    simp [historyStep, foldsFact, offeredFact, leaseStep, hanswer, hsan]

/-- **One call keeps what is remembered of an attempt whose lease stays open.** -/
theorem remembers_step (hrem : Remembers rt attemptId h) (op : LeaseOp)
    (hopen : ¬ op.ClosesLease attemptId) : Remembers rt attemptId (historyStep rt h op) := by
  have hquiet : (∀ now policy resolver fact, op ≠ .appendFact now policy resolver fact) →
      Remembers rt attemptId (historyStep rt h op) := by
    intro hfact
    have hfold : foldsFact rt h.db op = false := by
      cases op with
      | appendFact now policy resolver fact => exact absurd rfl (hfact now policy resolver fact)
      | _ => rfl
    rw [historyStep_of_quiet hfold]
    exact hrem.of_leaves (leavesEvents_step hrem.named op hopen hfact) fun _ => rfl
  cases op with
  | appendFact now policy resolver fact =>
    rcases historyStep_append rt h now policy resolver fact with hsame |
      ⟨sanitized, attempt, snapshot, -, hfind, hnext, hstep⟩
    · rw [hsame]
      exact hrem
    · rw [hstep]
      by_cases hid : sanitized.attemptId = attemptId
      · exact remembers_store hrem hid hfind (hid ▸ hnext)
      have hname : snapshot.attemptId = sanitized.attemptId :=
        (nextSnapshot_open hnext fun row hrow =>
          (hrem.named row (Table.mem_of_get hrow)).trans (Table.key_of_get hrow)).1
      refine hrem.of_leaves (leavesEvents_store hname hid) fun generation => ?_
      simp [FactHistory.ofClaim, hid]
  | _ => exact hquiet (by simp)

/-! ## Looking a repeated fact up -/

theorem findFact_of_retained (hrem : Remembers rt attemptId h) (hid : fact.attemptId = attemptId)
    (hfirst : first ∈ (h.ofClaim attemptId fact.claimGeneration).rtake maxEventsPerAttempt)
    (hsame : first.factId = fact.factId) : ∃ existing, findFact h.db fact = some existing := by
  have hmark : factMark rt first ∈
      (claimEvents h.db attemptId fact.claimGeneration).map eventMark := by
    rw [hrem.recorded]
    exact List.mem_map_of_mem hfirst
  obtain ⟨e, he, hmark⟩ := List.mem_map.1 hmark
  have hfactId : e.factId = fact.factId := (congrArg Prod.fst hmark).trans hsame
  rw [findFact_eq, hid]
  exact Option.isSome_iff_exists.1 (List.find?_isSome.2 ⟨e, he, by simpa using hfactId⟩)

theorem retained_of_findFact (hrem : Remembers rt attemptId h) {existing : ProgressEventRow}
    (hid : fact.attemptId = attemptId) (hfind : findFact h.db fact = some existing) :
    ∃ first ∈ (h.ofClaim attemptId fact.claimGeneration).rtake maxEventsPerAttempt,
      first.factId = fact.factId ∧
        existing.fingerprint = computeSemanticFingerprint rt.sha256 first := by
  rw [findFact_eq, hid] at hfind
  have hmark : eventMark existing ∈
      ((h.ofClaim attemptId fact.claimGeneration).rtake maxEventsPerAttempt).map
        (factMark rt) := by
    rw [← hrem.recorded]
    exact List.mem_map_of_mem (List.mem_of_find?_eq_some hfind)
  obtain ⟨first, hfirst, hmark⟩ := List.mem_map.1 hmark
  have hfactId : existing.factId = fact.factId := by simpa using List.find?_some hfind
  exact ⟨first, hfirst, (congrArg Prod.fst hmark).trans hfactId, (congrArg Prod.snd hmark).symm⟩

/-! ## Facts that are told apart -/

def DigestsApart (rt : Runtime) (facts : List ProgressFact) : Prop :=
  ∀ fact ∈ facts, ∀ other ∈ facts,
    computeSemanticFingerprint rt.sha256 fact = computeSemanticFingerprint rt.sha256 other →
      fingerprintText fact = fingerprintText other

/-- A repetition arrives while its fact is among the newest of its claim, and has
another text when it has another content. -/
def Recalls (rt : Runtime) (attemptId : String) (h : FactHistory) : LeaseOp → Prop
  | .appendFact _ _ _ fact =>
    fact.attemptId = attemptId →
    ∀ first ∈ h.ofClaim attemptId fact.claimGeneration, first.factId = fact.factId →
      first ∈ (h.ofClaim attemptId fact.claimGeneration).rtake maxEventsPerAttempt ∧
      (first.content ≠ fact.content → ∀ sanitized, sanitizeFact rt fact = some sanitized →
        fingerprintText first ≠ fingerprintText sanitized)
  | _ => True

def AppliedOnce (attemptId : String) (h : FactHistory) : Prop :=
  ∀ generation, ((h.ofClaim attemptId generation).map (·.factId)).Nodup

/-- **A recalled repetition is never folded again.** -/
theorem appliedOnce_step (hrem : Remembers rt attemptId h)
    (honce : AppliedOnce attemptId h) (op : LeaseOp) (hrecalls : Recalls rt attemptId h op) :
    AppliedOnce attemptId (historyStep rt h op) := by
  have hquiet : (∀ now policy resolver fact, op ≠ .appendFact now policy resolver fact) →
      AppliedOnce attemptId (historyStep rt h op) := by
    intro hfact
    have hfold : foldsFact rt h.db op = false := by
      cases op with
      | appendFact now policy resolver fact => exact absurd rfl (hfact now policy resolver fact)
      | _ => rfl
    rw [historyStep_of_quiet hfold]
    exact honce
  cases op with
  | appendFact now policy resolver fact =>
    rcases historyStep_append rt h now policy resolver fact with hsame |
      ⟨sanitized, attempt, snapshot, hsan, hfind, hnext, hstep⟩
    · rw [hsame]
      exact honce
    · rw [hstep]
      obtain ⟨hattempt, hgeneration, hfactId, -⟩ := sanitizeFact_some hsan
      intro generation
      by_cases hclaim : sanitized.attemptId = attemptId ∧ sanitized.claimGeneration = generation
      · obtain ⟨hid, rfl⟩ := hclaim
        have hgrown : (FactHistory.mk (storeFact rt now sanitized snapshot h.db)
            (h.accepted ++ [sanitized])).ofClaim attemptId sanitized.claimGeneration =
              h.ofClaim attemptId sanitized.claimGeneration ++ [sanitized] := by
          simp [FactHistory.ofClaim, hid]
        rw [hgrown, List.map_append, List.nodup_append]
        refine ⟨honce _, List.nodup_singleton _, ?_⟩
        rintro factId hold _ hnew rfl
        obtain ⟨first, hfirst, rfl⟩ := List.mem_map.1 hold
        have hsame : first.factId = sanitized.factId := by simpa using hnew
        -- the earlier arrival would still be in the table, where it was not found
        have hretained := (hrecalls (hattempt ▸ hid) first (hgeneration ▸ hfirst)
          (hsame.trans hfactId)).1
        rw [← hgeneration] at hretained
        obtain ⟨existing, hexisting⟩ := findFact_of_retained hrem hid hretained hsame
        rw [hfind] at hexisting
        cases hexisting
      · have hkept : (FactHistory.mk (storeFact rt now sanitized snapshot h.db)
            (h.accepted ++ [sanitized])).ofClaim attemptId generation =
              h.ofClaim attemptId generation := by
          simp [FactHistory.ofClaim, hclaim]
        rw [hkept]
        exact honce generation
  | _ => exact hquiet (by simp)

/-- The event a recalled repetition finds is that of the first arrival; with
another fingerprint the answer is a conflict. -/
theorem replay_conflicts (hrem : Remembers rt attemptId h)
    (honce : AppliedOnce attemptId h) {existing : ProgressEventRow}
    (hid : fact.attemptId = attemptId)
    (hfirst : first ∈ h.ofClaim attemptId fact.claimGeneration)
    (hsame : first.factId = fact.factId) (hfind : findFact h.db fact = some existing)
    (hapart : computeSemanticFingerprint rt.sha256 first ≠
      computeSemanticFingerprint rt.sha256 fact) :
    ∃ reason, replayFact h.db fact (computeSemanticFingerprint rt.sha256 fact) existing =
      .conflict reason := by
  obtain ⟨found, hfound, hfoundId, hfingerprint⟩ := retained_of_findFact hrem hid hfind
  have hmem : found ∈ h.ofClaim attemptId fact.claimGeneration := List.mem_of_mem_drop hfound
  have heq : found = first :=
    List.inj_on_of_nodup_map (honce fact.claimGeneration) hmem hfirst
      (hfoundId.trans hsame.symm)
  rcases replayFact_cases h.db fact (computeSemanticFingerprint rt.sha256 fact) existing with
    ⟨_, -, hprint, -⟩ | hconflict
  · rw [heq] at hfingerprint
    exact absurd (hfingerprint.symm.trans hprint) hapart
  · exact hconflict

/-- **A changed repetition is a conflict**: it is neither folded nor called
idempotent, and a well-formed one from the owner of the attempt is told so. -/
theorem conflict_of_changed (hrem : Remembers rt attemptId h)
    (honce : AppliedOnce attemptId h) {now : Millis} {policy : LeasePolicy}
    (hid : fact.attemptId = attemptId)
    (hfirst : first ∈ (h.ofClaim attemptId fact.claimGeneration).rtake maxEventsPerAttempt)
    (hsame : first.factId = fact.factId)
    (hapart : ∀ sanitized, sanitizeFact rt fact = some sanitized →
      computeSemanticFingerprint rt.sha256 first ≠
        computeSemanticFingerprint rt.sha256 sanitized) :
    (∀ snapshot, (appendFact rt now policy resolver fact h.db).1 ≠ .accepted snapshot ∧
      (appendFact rt now policy resolver fact h.db).1 ≠ .idempotent snapshot) ∧
    (∀ sanitized attempt, validateProgressEvent fact = [] →
      sanitizeFact rt fact = some sanitized → factOwner h.db sanitized = .ok attempt →
      ∃ reason, (appendFact rt now policy resolver fact h.db).1 = .conflict reason) := by
  have hfound : ∀ sanitized, sanitizeFact rt fact = some sanitized →
      ∃ existing reason, findFact h.db sanitized = some existing ∧
        replayFact h.db sanitized (computeSemanticFingerprint rt.sha256 sanitized) existing =
          .conflict reason := by
    intro sanitized hsan
    obtain ⟨hattempt, hgeneration, hfactId, -⟩ := sanitizeFact_some hsan
    rw [← hgeneration] at hfirst
    obtain ⟨existing, hfind⟩ := findFact_of_retained hrem (hattempt.trans hid) hfirst
      (hsame.trans hfactId.symm)
    obtain ⟨reason, hconflict⟩ := replay_conflicts hrem honce (hattempt.trans hid)
      (List.mem_of_mem_drop hfirst) (hsame.trans hfactId.symm) hfind (hapart sanitized hsan)
    exact ⟨existing, reason, hfind, hconflict⟩
  constructor
  · intro snapshot
    rcases appendFact_answers rt now policy resolver h.db fact with ⟨reason, hanswer⟩ |
      ⟨sanitized, existing, hsan, hfind, hanswer⟩ | ⟨sanitized, _, _, hsan, -, hfind, -, -⟩
    · simp [hanswer]
    · obtain ⟨existing', reason, hfind', hconflict⟩ := hfound sanitized hsan
      rw [hfind, Option.some.injEq] at hfind'
      subst hfind'
      simp [hanswer, hconflict]
    · obtain ⟨_, _, hfind', -⟩ := hfound sanitized hsan
      rw [hfind] at hfind'
      cases hfind'
  · intro sanitized attempt hvalid hsan howner
    obtain ⟨existing, reason, hfind, hconflict⟩ := hfound sanitized hsan
    exact ⟨reason, by simp [appendFact, hvalid, hsan, appendSanitized, howner, hfind, hconflict]⟩

end Step

section Runs

variable {rt : Runtime} {attemptId : String}

structure UnreportedAttempt (attemptId : String) (db : Db) : Prop where
  named : LeasesNamed db.attemptLeaseSnapshots
  unseen : ∀ e ∈ db.attemptProgressEvents, e.attemptId ≠ attemptId

theorem UnreportedAttempt.remembers {db : Db} (h : UnreportedAttempt attemptId db) :
    Remembers rt attemptId ⟨db, []⟩ := by
  have hnone : ∀ generation, claimEvents db attemptId generation = [] := by
    intro generation
    rw [claimEvents, Table.select, List.filter_eq_nil_iff]
    intro e he
    simp [h.unseen e he]
  constructor
  · exact h.named
  · intro e he hid
    exact absurd hid (h.unseen e he)
  · intro generation
    simp [hnone]
  · intro generation
    simp [hnone, FactHistory.ofClaim]

theorem offered_of_accepted (ops : List LeaseOp) : ∀ (h : FactHistory) (fact : ProgressFact),
    fact ∈ (runFrom (historyStep rt) h ops).accepted →
      fact ∈ h.accepted ∨ fact ∈ ops.filterMap (offeredFact rt) := by
  induction ops with
  | nil =>
    intro h fact hfact
    exact .inl hfact
  | cons op ops ih =>
    intro h fact hfact
    rcases ih (historyStep rt h op) fact hfact with hearlier | hlater
    · rcases List.mem_append.1 hearlier with hold | hnew
      · exact .inl hold
      refine .inr (List.mem_filterMap.2 ⟨op, List.mem_cons_self, ?_⟩)
      split at hnew
      · simpa using hnew
      · cases hnew
    · obtain ⟨later, hmem, hoffered⟩ := List.mem_filterMap.1 hlater
      exact .inr (List.mem_filterMap.2 ⟨later, List.mem_cons_of_mem _ hmem, hoffered⟩)

theorem remembers_run {db : Db} (hnew : UnreportedAttempt attemptId db) (ops : List LeaseOp)
    (hopen : ∀ op ∈ ops, ¬ op.ClosesLease attemptId)
    (hrecalls : StepsMeet (historyStep rt) (Recalls rt attemptId) ⟨db, []⟩ ops) :
    Remembers rt attemptId (historyRun rt db ops) ∧
      AppliedOnce attemptId (historyRun rt db ops) := by
  refine invariant_of_stepsMeet (I := fun h => Remembers rt attemptId h ∧ AppliedOnce attemptId h)
    (fun h op hinv hmeets => ⟨remembers_step hinv.1 op hmeets.1,
      appliedOnce_step hinv.1 hinv.2 op hmeets.2⟩) ops ⟨db, []⟩ ⟨hnew.remembers, ?_⟩
    (StepsMeet.and ops _ ((stepsMeet_forall ops _).2 hopen) hrecalls)
  intro generation
  simp [FactHistory.ofClaim]

end Runs

/-- **Facts are applied once.**  In every run on an open lease whose repetitions
arrive while their fact is among the newest of its claim and have another text
when they have another content, no two accepted facts of a claim share their id,
and a repetition that changes a field is neither folded nor called idempotent: a
well-formed one from the owner of the attempt is answered with a conflict. -/
theorem facts_applied_once (rt : Runtime) (attemptId : String) (db : Db) (ops : List LeaseOp)
    (hnew : UnreportedAttempt attemptId db)
    (hopen : ∀ op ∈ ops, ¬ op.ClosesLease attemptId)
    (hdigests : DigestsApart rt (ops.filterMap (offeredFact rt)))
    (hrecalls : StepsMeet (historyStep rt) (Recalls rt attemptId) ⟨db, []⟩ ops) :
    AppliedOnce attemptId (historyRun rt db ops) ∧
    ∀ before now policy resolver fact after,
      ops = before ++ .appendFact now policy resolver fact :: after →
      fact.attemptId = attemptId →
      ∀ first ∈ (historyRun rt db before).ofClaim attemptId fact.claimGeneration,
        first.factId = fact.factId → first.content ≠ fact.content →
        (∀ snapshot,
          (appendFact rt now policy resolver fact (historyRun rt db before).db).1 ≠
              .accepted snapshot ∧
            (appendFact rt now policy resolver fact (historyRun rt db before).db).1 ≠
              .idempotent snapshot) ∧
        (∀ sanitized attempt, validateProgressEvent fact = [] →
          sanitizeFact rt fact = some sanitized →
          factOwner (historyRun rt db before).db sanitized = .ok attempt →
          ∃ reason,
            (appendFact rt now policy resolver fact (historyRun rt db before).db).1 =
              .conflict reason) := by
  refine ⟨(remembers_run hnew ops hopen hrecalls).2, ?_⟩
  rintro before now policy resolver fact after rfl hid first hfirst hsame hchanged
  obtain ⟨hbefore, hthen⟩ := (stepsMeet_append before _ _).1 hrecalls
  obtain ⟨hrem, honce⟩ := remembers_run hnew before
    (fun op hop => hopen op (List.mem_append_left _ hop)) hbefore
  obtain ⟨hretained, htexts⟩ := hthen.1 hid first hfirst hsame
  refine conflict_of_changed hrem honce hid hretained hsame fun sanitized hsan hdigest => ?_
  refine htexts hchanged sanitized hsan (hdigests first ?_ sanitized ?_ hdigest)
  · rcases offered_of_accepted before ⟨db, []⟩ first (List.mem_of_mem_filter hfirst) with
      hnone | hoffered
    · cases hnone
    · rw [List.filterMap_append]
      exact List.mem_append_left _ hoffered
  · rw [List.filterMap_append]
    refine List.mem_append_right _ (List.mem_filterMap.2 ⟨_, List.mem_cons_self, hsan⟩)

/-! ## Two arrivals of one fact -/

/-- A heartbeat of `a1` that names an operation or a milestone. -/
def beatOf (operationId milestoneId : Option String) : ProgressFact :=
  { heartbeat with
    payload :=
      { heartbeat.payload with
        operationId := operationId
        milestoneId := milestoneId } }

def reportBeat (now : Millis) (fact : ProgressFact) : LeaseOp :=
  .appendFact now defaultLocalPolicy none fact

theorem unreported_runningAttemptDb : UnreportedAttempt "a1" runningAttemptDb :=
  ⟨fun row hrow => absurd hrow (Table.not_mem_empty row),
    fun e he => absurd he (Table.not_mem_empty e)⟩

theorem accepted_first_beat :
    (historyRun Runtime.plain runningAttemptDb [reportBeat 10 (beatOf (some "b") none)]).accepted =
      [beatOf (some "b") none] := by
  decide +kernel

/-- A heartbeat that names another operation under the same id is a conflict. -/
theorem changed_beat_conflicts :
    ∃ reason, (appendFact Runtime.plain 20 defaultLocalPolicy none (beatOf (some "c") none)
      (historyRun Runtime.plain runningAttemptDb
        [reportBeat 10 (beatOf (some "b") none)]).db).1 = .conflict reason := by
  have hdigests : DigestsApart Runtime.plain
      ([reportBeat 10 (beatOf (some "b") none), reportBeat 20 (beatOf (some "c") none)].filterMap
        (offeredFact Runtime.plain)) := by
    unfold DigestsApart
    decide +kernel
  have hrecalls : StepsMeet (historyStep Runtime.plain) (Recalls Runtime.plain "a1")
      ⟨runningAttemptDb, []⟩
      [reportBeat 10 (beatOf (some "b") none), reportBeat 20 (beatOf (some "c") none)] := by
    refine ⟨fun _ first hfirst => absurd hfirst List.not_mem_nil, ?_, trivial⟩
    intro _ first hfirst _
    have hclaim : (historyStep Runtime.plain ⟨runningAttemptDb, []⟩
        (reportBeat 10 (beatOf (some "b") none))).ofClaim "a1" 1 = [beatOf (some "b") none] :=
      congrArg (List.filter fun fact : ProgressFact =>
        fact.attemptId = "a1" ∧ fact.claimGeneration = 1) accepted_first_beat
    rw [show (beatOf (some "c") none).claimGeneration = 1 from rfl, hclaim,
      List.mem_singleton] at hfirst
    subst hfirst
    constructor
    · rw [show (beatOf (some "c") none).claimGeneration = 1 from rfl, hclaim]
      exact List.mem_singleton.2 rfl
    intro _ sanitized hsan
    have hsame : sanitizeFact Runtime.plain (beatOf (some "c") none) =
        some (beatOf (some "c") none) := by
      decide +kernel
    rw [hsame, Option.some.injEq] at hsan
    subst hsan
    decide +kernel
  obtain ⟨-, hconflict⟩ := facts_applied_once Runtime.plain "a1" runningAttemptDb
    [reportBeat 10 (beatOf (some "b") none), reportBeat 20 (beatOf (some "c") none)]
    unreported_runningAttemptDb (by simp [reportBeat, LeaseOp.ClosesLease]) hdigests hrecalls
  have hfirst : beatOf (some "b") none ∈ (historyRun Runtime.plain runningAttemptDb
      [reportBeat 10 (beatOf (some "b") none)]).ofClaim "a1" 1 := by
    decide +kernel
  have howner : (factOwner (historyRun Runtime.plain runningAttemptDb
      [reportBeat 10 (beatOf (some "b") none)]).db (beatOf (some "c") none)).toOption.isSome =
        true := by
    decide +kernel
  cases hattempt : factOwner (historyRun Runtime.plain runningAttemptDb
      [reportBeat 10 (beatOf (some "b") none)]).db (beatOf (some "c") none) with
  | error reason =>
    rw [hattempt] at howner
    cases howner
  | ok attempt =>
    exact (hconflict [reportBeat 10 (beatOf (some "b") none)] 20 defaultLocalPolicy none
      (beatOf (some "c") none) [] rfl rfl (beatOf (some "b") none) hfirst rfl
      (by simp [ProgressFact.content, beatOf])).2
        (beatOf (some "c") none) attempt (by decide +kernel) (by decide +kernel) hattempt

def AppendFactResult.isIdempotent : AppendFactResult → Bool
  | .idempotent _ => true
  | _ => false

/-- A heartbeat that names a milestone where the first named an operation has the
same text, and is called idempotent. -/
theorem changed_beat_called_idempotent :
    (historyRun Runtime.plain runningAttemptDb [reportBeat 10 (beatOf (some "b") none)]).accepted =
        [beatOf (some "b") none] ∧
      (beatOf none (some "b")).factId = (beatOf (some "b") none).factId ∧
      (beatOf none (some "b")).payload.milestoneId ≠
        (beatOf (some "b") none).payload.milestoneId ∧
      (appendFact Runtime.plain 20 defaultLocalPolicy none (beatOf none (some "b"))
        (historyRun Runtime.plain runningAttemptDb
          [reportBeat 10 (beatOf (some "b") none)]).db).1.isIdempotent = true := by
  refine ⟨by decide +kernel, rfl, by decide, by decide +kernel⟩

end Abtars
