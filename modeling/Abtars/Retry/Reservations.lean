import Abtars.Retry.Atomicity
import Abtars.Worker.Accounting

/-!
# Retry budget and terminal attempts

A reservation holds retry budget for the attempt it was made for, so it should be
given back when that attempt ends.  Settling an attempt gives its reservations
back; the other routes into a terminal lifecycle cancel a pending attempt and do
not look at the reservations.
-/

namespace Abtars

open Lib

def NoTerminalHolder (db : Db) : Prop :=
  ∀ id a, db.workerAttempts.get id = some a → a.lifecycle.isTerminal = true →
    ¬ HeldTarget db.retryBudgetReservations id

def PendingHolder (db : Db) (id : String) : Prop :=
  (∃ a, db.workerAttempts.get id = some a ∧ a.lifecycle = .pending) ∧
    HeldTarget db.retryBudgetReservations id

/-- The operation cancels no pending attempt that retry budget is held for, be it
by name, as a project child, or below a root that a settlement makes the runner
end.  The attempt a settlement settles is not one of these. -/
def SparesHolders (rt : Runtime) (db : Db) : WorkerOp → Prop
  | .cancelPending _ attemptId _ => ¬ PendingHolder db attemptId
  | .cancelProjectChild _ cardId authority _ =>
    ∀ a, cancellableChild db cardId authority = some a → ¬ PendingHolder db a.id
  | .settle hook clock input =>
    ∀ attempt effect root, admitSettlement rt input db = .ok attempt →
      successorEffect hook input attempt
        (effectiveState db input attempt (input.now.getD clock))
        (settleWrites rt input attempt clock db) = some effect →
      effect.Lands → effect.invalidatedRoot = some root →
      ∀ a ∈ db.workerAttempts, a.id ≠ input.attemptId →
        isDescendant db.kanbanBoard root a.cardId = true → ¬ PendingHolder db a.id
  | _ => True

section Descent

variable {board board' : Table KanbanCard}

theorem SameLineage.isDescendant_eq (h : SameLineage board board')
    (hlength : board'.rows.length = board.rows.length) (rootId cardId : Nat) :
    isDescendant board' rootId cardId = isDescendant board rootId cardId := by
  have hparents : SameParents board board' := by
    intro id
    simpa [Function.comp_def, KanbanCard.lineage] using congrArg (Option.map Prod.fst) (h id)
  exact hparents.isDescendant_eq hlength rootId cardId

theorem length_chargeBoard (cardId : Nat) (tokens : Int) (clock : Millis)
    (board : Table KanbanCard) :
    (chargeBoard cardId tokens clock board).rows.length = board.rows.length := by
  unfold chargeBoard
  split
  · simp [Table.modify, Table.updateWhere]
  · split <;> simp [Table.modify, Table.updateWhere]

theorem isDescendant_settleWrites (rt : Runtime) (input : SettleInput) (attempt : AttemptRow)
    (clock : Millis) (db : Db) (rootId cardId : Nat) :
    isDescendant (settleWrites rt input attempt clock db).kanbanBoard rootId cardId =
      isDescendant db.kanbanBoard rootId cardId := by
  refine (sameLineage_settleWrites rt input attempt clock db).isDescendant_eq ?_ rootId cardId
  obtain ⟨_, _, _, _, -, heq⟩ := settleWrites_eq rt input attempt clock db
  rw [heq]
  unfold chargeUsage
  split
  · rfl
  · exact length_chargeBoard _ _ _ _

end Descent

section Step

variable {input : SettleInput} {clock : Millis}

variable {rt : Runtime} {claims cancels closes : String → Prop} {db db' : Db}

theorem noTerminalHolder_quiet (h : NoTerminalHolder db)
    (hquiet : QuietStep claims cancels closes db db')
    (hspares : ∀ id, cancels id → ¬ PendingHolder db id) : NoTerminalHolder db' := by
  intro id a' ha' hterminal hheld
  rcases hquiet.held id hheld with hold | ⟨b, hb, hfresh⟩
  · -- the reservation was held before, so the attempt was not terminal then
    have hid : a'.id = id := Table.key_of_get ha'
    rcases hquiet.attempts.origin (Table.mem_of_get ha') with ⟨a, ha, hmoves⟩ | hfresh
    · have haid : a.id = id := hmoves.id_eq.symm.trans hid
      have hget : db.workerAttempts.get id = some a := haid ▸ Table.get_key_of_mem ha
      rcases hmoves.terminal_cases hterminal with rfl | ⟨hpending, hcancels⟩
      · exact h id a' hget hterminal hold
      · exact hspares id (haid ▸ hcancels) ⟨⟨a, hget, hpending⟩, hold⟩
    · rw [hfresh.lifecycle] at hterminal
      cases hterminal
  · obtain rfl : a' = b := Option.some.inj (ha'.symm.trans hb)
    rw [hfresh.lifecycle] at hterminal
    cases hterminal

theorem noTerminalHolder_claim {now : Millis} {req : ClaimRequest} (h : NoTerminalHolder db) :
    NoTerminalHolder (claimWrites now req db) := by
  intro id a' ha' hterminal hheld
  have hold : HeldTarget db.retryBudgetReservations id := by
    unfold claimWrites at hheld
    split at hheld
    · exact hheld
    · exact heldTarget_claimReservation hheld
  rw [get_claimWrites] at ha'
  split at ha'
  · -- the claimed attempt itself
    obtain ⟨a, -, rfl⟩ := Option.map_eq_some_iff.1 ha'
    cases hterminal
  · exact h id a' ha' hterminal hold

theorem heldTarget_releaseReservations {reservations : Table ReservationRow} {id : String}
    (h : HeldTarget (releaseReservations input clock reservations) id) :
    id ≠ input.attemptId ∧ HeldTarget reservations id := by
  obtain ⟨r', hr', hstatus, rfl⟩ := h
  obtain ⟨r, hr, rfl⟩ := Table.mem_updateWhere.1 hr'
  by_cases hp : r.targetAttemptId = input.attemptId ∧ r.status.isHeld = true
  · simp only [hp, and_self, decide_true, if_true] at hstatus
    split at hstatus <;> cases hstatus
  · simp only [hp, decide_false, Bool.false_eq_true, if_false] at hstatus ⊢
    exact ⟨fun hid => hp ⟨hid, hstatus⟩, r, hr, hstatus, rfl⟩

theorem noTerminalHolder_settle {attempt : AttemptRow}
    (h : NoTerminalHolder db) : NoTerminalHolder (settleWrites rt input attempt clock db) := by
  intro id a' ha' hterminal hheld
  have hreleased : HeldTarget (releaseReservations input clock db.retryBudgetReservations) id := by
    obtain ⟨_, _, _, _, -, heq⟩ := settleWrites_eq rt input attempt clock db
    rw [heq] at hheld
    exact hheld
  obtain ⟨hne, hold⟩ := heldTarget_releaseReservations hreleased
  rw [get_settleWrites_of_ne clock hne] at ha'
  exact h id a' ha' hterminal hold

theorem SparesHolders.commit {hook : SuccessorHook}
    {attempt : AttemptRow} (hspares : SparesHolders rt db (.settle hook clock input))
    (hadmits : admitSettlement rt input db = .ok attempt) (id : String)
    (hcancels : WorkerOp.Cancels rt db (.settle hook clock input) id) :
    ¬ PendingHolder (settleWrites rt input attempt clock db) id := by
  obtain ⟨_, hadmits', effect, heffect, hlands, root, a, hroot, hget, hpending, hbelow⟩ :=
    hcancels
  obtain rfl : attempt = _ := Except.ok.inj (hadmits.symm.trans hadmits')
  obtain ⟨hgetSettled, -⟩ := admitSettlement_ok hadmits
  -- the settled attempt is terminal by now, so it is another one
  have hne : id ≠ input.attemptId := by
    rintro rfl
    rw [get_settleWrites_self clock hgetSettled] at hget
    cases hget
    rw [settledRow_lifecycle] at hpending
    exact absurd hpending (by cases effectiveState db input attempt _ <;> decide)
  rw [get_settleWrites_of_ne clock hne] at hget
  rw [isDescendant_settleWrites] at hbelow
  have hid : a.id = id := Table.key_of_get hget
  have hkept := hspares attempt effect root hadmits heffect hlands hroot a
    (Table.mem_of_get hget) (by rwa [hid]) hbelow
  rintro ⟨-, hheld⟩
  have hreleased : HeldTarget (releaseReservations input clock db.retryBudgetReservations) id := by
    obtain ⟨_, _, _, _, -, heq⟩ := settleWrites_eq rt input attempt clock db
    rw [heq] at hheld
    exact hheld
  rw [hid] at hkept
  exact hkept ⟨⟨a, hget, hpending⟩, (heldTarget_releaseReservations hreleased).2⟩

theorem SparesHolders.quiet {op : WorkerOp} (hspares : SparesHolders rt db op)
    (hsettle : ∀ hook clock input, op ≠ .settle hook clock input) (id : String)
    (hcancels : op.Cancels rt db id) : ¬ PendingHolder db id := by
  cases op with
  | cancelPending now attemptId reason =>
    obtain rfl : id = attemptId := hcancels
    exact hspares
  | cancelProjectChild now cardId authority reason =>
    obtain ⟨a, hchild, rfl⟩ := Option.map_eq_some_iff.1 hcancels
    exact hspares a hchild
  | settle hook clock input => exact absurd rfl (hsettle hook clock input)
  | _ => exact hcancels.elim

theorem noTerminalHolder_step (op : WorkerOp) (h : NoTerminalHolder db)
    (hspares : SparesHolders rt db op) : NoTerminalHolder (workerStep rt db op) := by
  by_cases hsettle : ∃ hook clock input, op = .settle hook clock input
  · obtain ⟨hook, clock, input, rfl⟩ := hsettle
    cases hadmits : admitSettlement rt input db with
    | error outcome =>
      have hsame : workerStep rt db (.settle hook clock input) = db := by
        simp only [workerStep, settleAttempt, hadmits]
      rw [hsame]
      exact h
    | ok attempt =>
      exact noTerminalHolder_quiet (noTerminalHolder_settle h)
        (workerStep_settle hook clock hadmits) (hspares.commit hadmits)
  · have hother : ∀ hook clock input, op ≠ .settle hook clock input :=
      fun hook clock input heq => hsettle ⟨hook, clock, input, heq⟩
    rcases workerStep_cases rt db op with
      hquiet | ⟨now, req, rfl, -, hstep⟩ | ⟨hook, clock, input, _, rfl, -, -⟩
    · exact noTerminalHolder_quiet h hquiet (hspares.quiet hother)
    · rw [hstep]
      exact noTerminalHolder_claim h
    · exact absurd rfl (hother hook clock input)

end Step

/-! ## What a run preserves -/

/-- In every run that cancels no pending attempt a reservation is held for, no
active or claimed reservation targets a terminal attempt. -/
theorem noTerminalHolder_of_spares (rt : Runtime) (db : Db) (ops : List WorkerOp)
    (h : NoTerminalHolder db) (hspares : StepsMeet (workerStep rt) (SparesHolders rt) db ops) :
    NoTerminalHolder (runFrom (workerStep rt) db ops) :=
  invariant_of_stepsMeet (fun _ op hs hop => noTerminalHolder_step op hs hop) ops db h hspares

/-! ## A cancelled retry -/

theorem timedOutAttemptDb_noTerminalHolder (status : CardStatus) :
    NoTerminalHolder (timedOutAttemptDb status) := by
  rintro id a - - ⟨r, hr, -⟩
  exact absurd hr (Table.not_mem_empty r)

/-- A retry that is claimed under its reservation and settled gives it back. -/
theorem noTerminalHolder_after_settlement :
    NoTerminalHolder (runFrom (workerStep Runtime.plain) (timedOutAttemptDb .failed)
      [.allocateRetry 10 sampleAllocation,
       .claimRetry 20 1 "a2" "c2" .agent agentExecutorId 1 "a1" none,
       .markRunning "a2",
       .settle (fun _ _ => none) 30
         { attemptId := "a2", expectedGeneration := 1, desiredState := .failed
           stableReason := "worker failed", normalizedUsage := none, envelope := none
           now := none, inputRequested := false }]) := by
  refine noTerminalHolder_of_spares Runtime.plain (timedOutAttemptDb .failed) _
    (timedOutAttemptDb_noTerminalHolder .failed) ⟨trivial, trivial, trivial, ?_, trivial⟩
  intro attempt effect root _ heffect
  unfold successorEffect at heffect
  cases hroot : attempt.rootProjectCardId <;> simp [hroot] at heffect

/-- Cancelling the retry before it is claimed leaves its reservation active. -/
theorem cancelled_retry_holds_budget :
    ¬ ∀ (rt : Runtime) (db : Db) (ops : List WorkerOp), NoTerminalHolder db →
      NoTerminalHolder (runFrom (workerStep rt) db ops) := by
  intro hclaim
  let cancelled := runFrom (workerStep Runtime.plain) (timedOutAttemptDb .failed)
    [.allocateRetry 10 sampleAllocation, .cancelPending 20 "a2" "operator"]
  have hkept : NoTerminalHolder cancelled :=
    hclaim Runtime.plain _ _ (timedOutAttemptDb_noTerminalHolder .failed)
  have hlifecycle : (cancelled.workerAttempts.get "a2").map (·.lifecycle) = some .cancelled := by
    decide
  have hheld : cancelled.retryBudgetReservations.rows.any
      (fun r => r.status.isHeld ∧ r.targetAttemptId = "a2") = true := by
    decide
  obtain ⟨a, ha, hcancelled⟩ := Option.map_eq_some_iff.1 hlifecycle
  obtain ⟨r, hr, htarget⟩ := List.any_eq_true.1 hheld
  simp only [Bool.decide_and, Bool.and_eq_true, decide_eq_true_eq] at htarget
  exact hkept "a2" a ha (by rw [hcancelled]; rfl) ⟨r, hr, htarget⟩

end Abtars
