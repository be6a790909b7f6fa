import Mathlib
import Abtars.Lib.Account
import Abtars.Worker.Accounting

/-!
# Budget safety of a capped project

A capped project is an account: its tokens used are what it committed, and the
reservations of its children's active attempts are what it holds.  Every
operation of the worker store moves this account by account steps: a guarded
claim holds its reservation against the cap, a settlement turns the reservation
of a child into a charge no larger, and everything else at most releases.
-/

namespace Abtars

open Lib

def projectAccount (db : Db) (projectId : Nat) : Account Int where
  committed := tokensOf db.kanbanBoard projectId
  held := activeReservedTokensForProject db projectId

def CappedAt (board : Table KanbanCard) (projectId : Nat) (cap : Int) : Prop :=
  (board.get projectId).bind (·.maxTokens) = some cap

/-- Attempts of the project's children reserve nothing while pending, and never a
negative amount. -/
def ReservationsSound (db : Db) (projectId : Nat) : Prop :=
  ∀ a ∈ db.workerAttempts, parentOf db.kanbanBoard a.cardId = some projectId →
    0 ≤ a.reservedTokens ∧ (a.lifecycle = .pending → a.reservedTokens = 0)

/-- No settlement is about the project card itself, and none of a child's attempt
reports trustworthy usage above its reservation. -/
def WithinReservation (rt : Runtime) (projectId : Nat) (db : Db) : WorkerOp → Prop
  | .settle _ _ input =>
    ∀ attempt, admitSettlement rt input db = .ok attempt →
      attempt.cardId ≠ projectId ∧
        (parentOf db.kanbanBoard attempt.cardId = some projectId →
          ∀ total, input.trustedTotal = some total → total ≤ attempt.reservedTokens)
  | _ => True

def reservedShare (board : Table KanbanCard) (projectId : Nat) (a : AttemptRow) : Int :=
  if a.lifecycle.isActive ∧ parentOf board a.cardId = some projectId then a.reservedTokens
  else 0

theorem activeReserved_eq (db : Db) (projectId : Nat) :
    activeReservedTokensForProject db projectId =
      db.workerAttempts.sum (reservedShare db.kanbanBoard projectId) := rfl

theorem SameLineage.reservedShare_eq {board board' : Table KanbanCard}
    (h : SameLineage board board') (projectId : Nat) (a : AttemptRow) :
    reservedShare board' projectId a = reservedShare board projectId a := by
  rw [reservedShare, reservedShare, h.parentOf_eq]

theorem SameLineage.cappedAt {board board' : Table KanbanCard} (h : SameLineage board board')
    {projectId : Nat} {cap : Int} (hcap : CappedAt board projectId cap) :
    CappedAt board' projectId cap := by
  rw [CappedAt, h.read (·.maxTokens) (·.2.2) (fun _ => rfl)]
  exact hcap

theorem reservedShare_of_open {board : Table KanbanCard} {projectId : Nat} {a : AttemptRow}
    (hopen : a.lifecycle.isTerminal = false)
    (hpending : a.lifecycle = .pending → a.reservedTokens = 0)
    (hchild : parentOf board a.cardId = some projectId) :
    reservedShare board projectId a = a.reservedTokens := by
  rcases a.lifecycle.pending_or_active_or_terminal with h | h | h
  · rw [reservedShare, hpending h, ite_self]
  · rw [reservedShare, if_pos ⟨h, hchild⟩]
  · simp [hopen] at h

section Quiet

variable {claims cancels closes : String → Prop} {db db' : Db} {projectId : Nat}

theorem AttemptRow.Moves.reserved {a a' : AttemptRow} (h : a.Moves claims cancels a')
    (hsound : 0 ≤ a.reservedTokens ∧ (a.lifecycle = .pending → a.reservedTokens = 0)) :
    (0 ≤ a'.reservedTokens ∧ (a'.lifecycle = .pending → a'.reservedTokens = 0)) ∧
      (a'.lifecycle.isActive = true → a'.reservedTokens ≠ 0 →
        a.lifecycle.isActive = true ∧ a'.reservedTokens = a.reservedTokens) := by
  cases h with
  | stays => exact ⟨hsound, fun hactive _ => ⟨hactive, rfl⟩⟩
  | claimed now generation deadline hpending =>
    have hzero : a.reservedTokens = 0 := hsound.2 hpending
    exact ⟨⟨hsound.1, fun _ => hzero⟩, fun _ hne => absurd hzero hne⟩
  | advanced lifecycle hlive hlive' =>
    refine ⟨⟨hsound.1, fun hpending => ?_⟩,
      fun _ _ => ⟨AttemptLifecycle.isActive_of_isLive hlive, rfl⟩⟩
    rw [show lifecycle = .pending from hpending] at hlive'
    cases hlive'
  | cancelRequested reason hlive =>
    exact ⟨⟨hsound.1, fun hpending => by cases hpending⟩,
      fun _ _ => ⟨AttemptLifecycle.isActive_of_isLive hlive, rfl⟩⟩
  | cancelled now reason hpending =>
    exact ⟨⟨hsound.1, fun h => by cases h⟩, fun hactive _ => by cases hactive⟩
  | deferred hstarting =>
    exact ⟨⟨le_refl _, fun _ => rfl⟩, fun hactive _ => by cases hactive⟩

theorem QuietStep.reservationsSound (h : QuietStep claims cancels closes db db')
    (hsound : ReservationsSound db projectId) : ReservationsSound db' projectId := by
  intro a' ha' hchild
  rcases h.attempts.origin ha' with ⟨a, ha, hmoves⟩ | hfresh
  · rw [h.board.sameLineage.parentOf_eq, hmoves.cardId_eq] at hchild
    exact (hmoves.reserved (hsound a ha hchild)).1
  · exact ⟨le_of_eq hfresh.reservedTokens.symm, fun _ => hfresh.reservedTokens⟩

theorem QuietStep.reserved_le (h : QuietStep claims cancels closes db db')
    (hsound : ReservationsSound db projectId) :
    activeReservedTokensForProject db' projectId ≤ activeReservedTokensForProject db projectId := by
  rw [activeReserved_eq, activeReserved_eq]
  have hboard : reservedShare db'.kanbanBoard projectId = reservedShare db.kanbanBoard projectId :=
    funext (h.board.sameLineage.reservedShare_eq projectId)
  rw [hboard]
  refine h.attempts.sum_le _ (fun a ha a' hmoves => ?_) fun a hfresh => ?_
  · unfold reservedShare
    rw [hmoves.cardId_eq]
    by_cases hchild : parentOf db.kanbanBoard a.cardId = some projectId
    · obtain ⟨⟨hnonneg, -⟩, hheld⟩ := hmoves.reserved (hsound a ha hchild)
      have hold := (hsound a ha hchild).1
      simp only [hchild, and_true]
      by_cases hactive : a'.lifecycle.isActive = true
      · by_cases hzero : a'.reservedTokens = 0
        · split_ifs <;> omega
        · obtain ⟨hwasActive, hsame⟩ := hheld hactive hzero
          rw [if_pos hactive, if_pos hwasActive, hsame]
      · split_ifs <;> omega
    · simp [hchild]
  · simp [reservedShare, hfresh.lifecycle, AttemptLifecycle.isActive]

theorem QuietStep.account (h : QuietStep claims cancels closes db db') (hsound : ReservationsSound db projectId)
    (cap : Int) : (projectAccount db projectId).Step cap (projectAccount db' projectId) :=
  Account.step_of_held_le (h.board.tokensOf_eq projectId) (h.reserved_le hsound)

end Quiet

section Claim

variable {db : Db} {now : Millis} {req : ClaimRequest} {projectId : Nat} {cap : Int}

theorem claim_fits (hcap : CappedAt db.kanbanBoard projectId cap)
    (hadmitted : claimRefusal now db req = none)
    (hchild : parentOf db.kanbanBoard req.cardId = some projectId) :
    0 < req.reservedTokens ∧
      tokensOf db.kanbanBoard projectId + activeReservedTokensForProject db projectId +
        req.reservedTokens ≤ cap := by
  obtain ⟨_, project, -, hproject, hbudget⟩ := claimRefusal_none hadmitted
  obtain ⟨hparent, hget⟩ := projectRefusal_ok hproject
  obtain rfl : req.projectId = projectId := Option.some.inj (hparent.symm.trans hchild)
  have hmax : project.maxTokens = some cap := by
    simpa [CappedAt, hget] using hcap
  have htokens : tokensOf db.kanbanBoard req.projectId = project.tokensUsed.getD 0 := by
    simp [tokensOf, hget]
  unfold budgetRefusal at hbudget
  rw [hmax] at hbudget
  dsimp only at hbudget
  split_ifs at hbudget with hpositive _ hfits
  omega

theorem claimWrites_reservationsSound (hcap : CappedAt db.kanbanBoard projectId cap)
    (hsound : ReservationsSound db projectId) (hadmitted : claimRefusal now db req = none) :
    ReservationsSound (claimWrites now req db) projectId := by
  obtain ⟨attempt, _, hattempt, -, -⟩ := claimRefusal_none hadmitted
  obtain ⟨hget, hcard, -⟩ := attemptRefusal_ok hattempt
  intro a ha hchild
  have hread := Table.get_key_of_mem ha
  rw [key_attemptRow, get_claimWrites] at hread
  split at hread
  · rename_i hid
    rw [hid, hget] at hread
    cases hread
    rw [show (AttemptRow.claim now req.generation req.hardDeadlineAt req.reservedTokens
      attempt).cardId = req.cardId from hcard] at hchild
    exact ⟨(claim_fits hcap hadmitted hchild).1.le, fun hpending => by cases hpending⟩
  · exact hsound a (Table.mem_of_get hread) hchild

/-- A guarded claim holds its reservation. -/
theorem claimWrites_account (hcap : CappedAt db.kanbanBoard projectId cap)
    (hadmitted : claimRefusal now db req = none) :
    (projectAccount db projectId).Step cap (projectAccount (claimWrites now req db) projectId) := by
  obtain ⟨attempt, _, hattempt, -, -⟩ := claimRefusal_none hadmitted
  obtain ⟨hget, hcard, hpending⟩ := attemptRefusal_ok hattempt
  let claimed := AttemptRow.claim now req.generation req.hardDeadlineAt req.reservedTokens attempt
  have hheld : activeReservedTokensForProject (claimWrites now req db) projectId =
      activeReservedTokensForProject db projectId +
        (reservedShare db.kanbanBoard projectId claimed -
          reservedShare db.kanbanBoard projectId attempt) :=
    Table.sum_modify hget (AttemptRow.claim now req.generation req.hardDeadlineAt
      req.reservedTokens) (fun _ => rfl) (reservedShare db.kanbanBoard projectId)
  have hbefore : reservedShare db.kanbanBoard projectId attempt = 0 := by
    simp [reservedShare, hpending, AttemptLifecycle.isActive]
  rw [hbefore, sub_zero] at hheld
  by_cases hchild : parentOf db.kanbanBoard req.cardId = some projectId
  · have hafter : reservedShare db.kanbanBoard projectId claimed = req.reservedTokens := by
      have hparent : parentOf db.kanbanBoard claimed.cardId = some projectId := by
        rw [show claimed.cardId = req.cardId from hcard]
        exact hchild
      exact if_pos ⟨rfl, hparent⟩
    rw [hafter] at hheld
    have hstep := Account.Step.hold (projectAccount db projectId) req.reservedTokens
      (claim_fits hcap hadmitted hchild).2
    have haccount : projectAccount (claimWrites now req db) projectId =
        ⟨(projectAccount db projectId).committed,
          (projectAccount db projectId).held + req.reservedTokens⟩ :=
      Account.ext rfl hheld
    rw [haccount]
    exact hstep
  · have hafter : reservedShare db.kanbanBoard projectId claimed = 0 := by
      have hparent : parentOf db.kanbanBoard claimed.cardId ≠ some projectId := by
        rw [show claimed.cardId = req.cardId from hcard]
        exact hchild
      exact if_neg fun h => hparent h.2
    rw [hafter, add_zero] at hheld
    exact Account.step_of_held_le rfl hheld.le

end Claim

section Settle

variable {rt : Runtime} {db : Db} {clock : Millis} {input : SettleInput} {attempt : AttemptRow}
  {projectId : Nat} {cap : Int}

theorem chargeTokens_le_reserved (hreserved : 0 ≤ attempt.reservedTokens)
    (htrusted : ∀ total, input.trustedTotal = some total → total ≤ attempt.reservedTokens) :
    chargeTokens input attempt ≤ attempt.reservedTokens := by
  unfold chargeTokens
  split
  · exact hreserved
  split
  · rename_i total htotal
    exact htrusted total htotal
  · split
    · exact le_refl _
    · exact hreserved

theorem settleWrites_reservationsSound (rt : Runtime) (clock : Millis)
    (hsound : ReservationsSound db projectId)
    (hget : db.workerAttempts.get input.attemptId = some attempt) :
    ReservationsSound (settleWrites rt input attempt clock db) projectId := by
  intro a ha hchild
  rw [(sameLineage_settleWrites rt input attempt clock db).parentOf_eq] at hchild
  have hread := Table.get_key_of_mem ha
  rw [key_attemptRow] at hread
  by_cases hid : a.id = input.attemptId
  · rw [hid, get_settleWrites_self clock hget] at hread
    cases hread
    rw [settledRow_cardId] at hchild
    refine ⟨?_, fun hpending => ?_⟩
    · rw [settledRow_reservedTokens]
      exact (hsound attempt (Table.mem_of_get hget) hchild).1
    have hterminal := DesiredState.isTerminal_lifecycle
      (effectiveState db input attempt (input.now.getD clock))
    rw [← settledRow_lifecycle, hpending] at hterminal
    cases hterminal
  · rw [get_settleWrites_of_ne clock hid] at hread
    exact hsound a (Table.mem_of_get hread) hchild

theorem exists_charge_settleWrites (rt : Runtime) (input : SettleInput) (clock : Millis)
    (hpos : 0 < projectId)
    (hcard : (db.kanbanBoard.get projectId).isSome) (hother : attempt.cardId ≠ projectId) :
    ∃ charge, tokensOf (settleWrites rt input attempt clock db).kanbanBoard projectId =
        tokensOf db.kanbanBoard projectId + charge ∧
      (charge = 0 ∨ charge = chargeTokens input attempt ∧
        parentOf db.kanbanBoard attempt.cardId = some projectId) := by
  rcases chargeOnce_cases input attempt (input.now.getD clock) with ⟨t, hcharged, -⟩ | ⟨huncharged, -⟩
  · obtain ⟨_, _, _, _, -, heq⟩ := settleWrites_eq rt input attempt clock db
    refine ⟨0, ?_, .inl rfl⟩
    rw [heq, add_zero]
    simp only [chargeUsage, hcharged]
  refine ⟨if isRoot db.kanbanBoard projectId ∧
      parentOf db.kanbanBoard attempt.cardId = some projectId then chargeTokens input attempt
    else 0, ?_, ?_⟩
  · rw [settleWrites_board huncharged, tokensOf_chargeBoard _ _ _ _ hpos hcard, if_neg hother,
      zero_add]
  · split
    · rename_i hpaid
      exact .inr ⟨rfl, hpaid.2⟩
    · exact .inl rfl

theorem reserved_settleWrites (hget : db.workerAttempts.get input.attemptId = some attempt) :
    activeReservedTokensForProject (settleWrites rt input attempt clock db) projectId =
      activeReservedTokensForProject db projectId -
        reservedShare db.kanbanBoard projectId attempt := by
  have hboard : reservedShare (settleWrites rt input attempt clock db).kanbanBoard projectId =
      reservedShare db.kanbanBoard projectId :=
    funext ((sameLineage_settleWrites rt input attempt clock db).reservedShare_eq projectId)
  rw [activeReserved_eq, activeReserved_eq, hboard]
  obtain ⟨write, hwrite, _, _, hrow, heq⟩ := settleWrites_eq rt input attempt clock db
  have hsettled : reservedShare db.kanbanBoard projectId (write attempt) = 0 := by
    rw [hrow]
    refine if_neg fun h => ?_
    have hterminal := AttemptLifecycle.isTerminal_of_isActive h.1
    simp at hterminal
  rw [heq]
  rw [Table.sum_modify hget write hwrite, hsettled, zero_sub, sub_eq_add_neg]

/-- A settlement within the reservation turns what its attempt held into a charge
no larger. -/
theorem settleWrites_account (hpos : 0 < projectId)
    (hcard : (db.kanbanBoard.get projectId).isSome) (hsound : ReservationsSound db projectId)
    (hadmits : admitSettlement rt input db = .ok attempt) (hother : attempt.cardId ≠ projectId)
    (htrusted : parentOf db.kanbanBoard attempt.cardId = some projectId →
      ∀ total, input.trustedTotal = some total → total ≤ attempt.reservedTokens) :
    (projectAccount db projectId).Step cap
      (projectAccount (settleWrites rt input attempt clock db) projectId) := by
  obtain ⟨hget, -, hopen, -⟩ := admitSettlement_ok hadmits
  obtain ⟨charge, htokens, hcharge⟩ := exists_charge_settleWrites rt input clock hpos hcard hother
  have hle : charge ≤ reservedShare db.kanbanBoard projectId attempt := by
    by_cases hchild : parentOf db.kanbanBoard attempt.cardId = some projectId
    · obtain ⟨hnonneg, hpending⟩ := hsound attempt (Table.mem_of_get hget) hchild
      rw [reservedShare_of_open hopen hpending hchild]
      rcases hcharge with rfl | ⟨rfl, -⟩
      · exact hnonneg
      · exact chargeTokens_le_reserved hnonneg (htrusted hchild)
    · rcases hcharge with rfl | ⟨-, hparent⟩
      · exact le_of_eq (if_neg fun h => hchild h.2).symm
      · exact absurd hparent hchild
  have haccount : projectAccount (settleWrites rt input attempt clock db) projectId =
      ⟨(projectAccount db projectId).committed + charge,
        (projectAccount db projectId).held - reservedShare db.kanbanBoard projectId attempt⟩ :=
    Account.ext htokens (reserved_settleWrites hget)
  rw [haccount]
  exact Account.Step.settle _ _ charge hle

end Settle

/-! ## What a run preserves -/

structure CappedProject (projectId : Nat) (cap : Int) (db : Db) : Prop where
  capped : CappedAt db.kanbanBoard projectId cap
  sound : ReservationsSound db projectId

section Run

variable {rt : Runtime} {db : Db} {projectId : Nat} {cap : Int}

theorem CappedProject.isSome (h : CappedProject projectId cap db) :
    (db.kanbanBoard.get projectId).isSome := by
  have hcap := h.capped
  rw [CappedAt] at hcap
  cases hget : db.kanbanBoard.get projectId with
  | none => simp [hget] at hcap
  | some card => rfl

theorem workerStep_account (hpos : 0 < projectId) (op : WorkerOp)
    (h : CappedProject projectId cap db) (hwithin : WithinReservation rt projectId db op) :
    CappedProject projectId cap (workerStep rt db op) ∧
      (projectAccount db projectId).Steps cap (projectAccount (workerStep rt db op) projectId) := by
  rcases workerStep_cases rt db op with
    hquiet | ⟨now, req, rfl, hadmitted, hstep⟩ | ⟨hook, clock, input, attempt, rfl, hadmits, hquiet⟩
  · exact ⟨⟨hquiet.board.sameLineage.cappedAt h.capped, hquiet.reservationsSound h.sound⟩,
      .single (hquiet.account h.sound cap)⟩
  · rw [hstep]
    exact ⟨⟨h.capped, claimWrites_reservationsSound h.capped h.sound hadmitted⟩,
      .single (claimWrites_account h.capped hadmitted)⟩
  · obtain ⟨hother, htrusted⟩ := hwithin attempt hadmits
    obtain ⟨hget, -⟩ := admitSettlement_ok hadmits
    have hsettled := settleWrites_reservationsSound rt clock h.sound hget
    have hlineage := sameLineage_settleWrites rt input attempt clock db
    refine ⟨⟨hquiet.board.sameLineage.cappedAt (hlineage.cappedAt h.capped),
      hquiet.reservationsSound hsettled⟩, ?_⟩
    exact .tail (.single (settleWrites_account hpos h.isSome h.sound hadmits hother htrusted))
      (hquiet.account hsettled cap)

/-- In every run that starts within the cap and whose settlements stay within the
reservations of the children, a capped project's used and reserved tokens
together never exceed its cap. -/
theorem capped_project_within_budget (rt : Runtime) (db : Db) (ops : List WorkerOp)
    (projectId : Nat) (cap : Int) (hpos : 0 < projectId)
    (hproject : CappedProject projectId cap db)
    (hstart : tokensOf db.kanbanBoard projectId +
      activeReservedTokensForProject db projectId ≤ cap)
    (hwithin : StepsMeet (workerStep rt) (WithinReservation rt projectId) db ops) :
    let reached := runFrom (workerStep rt) db ops
    ∃ project, reached.kanbanBoard.get projectId = some project ∧
      project.maxTokens = some cap ∧
      project.tokensUsed.getD 0 + activeReservedTokensForProject reached projectId ≤ cap := by
  intro reached
  have hkept : ∀ s op, CappedProject projectId cap s → WithinReservation rt projectId s op →
      CappedProject projectId cap (workerStep rt s op) :=
    fun s op hs hop => (workerStep_account hpos op hs hop).1
  have hreached : CappedProject projectId cap reached :=
    invariant_of_stepsMeet hkept ops db hproject hwithin
  have hsteps : (projectAccount db projectId).Steps cap (projectAccount reached projectId) :=
    relation_of_stepsMeet
      (R := fun s s' => (projectAccount s projectId).Steps cap (projectAccount s' projectId))
      (fun _ _ => .refl) (fun _ _ _ => .trans) hkept
      (fun s op hs hop => (workerStep_account hpos op hs hop).2) ops db hproject hwithin
  have hbudget : (projectAccount reached projectId).Within cap :=
    Account.Within.steps (a := projectAccount db projectId) hstart hsteps
  obtain ⟨project, hget⟩ := Option.isSome_iff_exists.1 hreached.isSome
  refine ⟨project, hget, ?_, ?_⟩
  · have hcap := hreached.capped
    rwa [CappedAt, hget] at hcap
  have htokens : tokensOf reached.kanbanBoard projectId = project.tokensUsed.getD 0 := by
    simp [tokensOf, hget]
  rw [← htokens]
  exact hbudget

end Run

def cappedProjectDb : Db :=
  { Db.empty with
    kanbanBoard := Table.ofRows
      [{ newCard 1 "user" (some "O") none .running 0 with maxTokens := some 1000 },
       newCard 2 "orc" (some "W") (some 1) .queued 0]
    workerAttempts := Table.ofRows [pendingAttempt "a1" 2 "c1" 1 .agent agentExecutorId 0] }

/-- The claim of `a1` that reserves 300 tokens. -/
def claimReserving : WorkerOp :=
  .claimWithinLimits 10
    { cardId := 2, attemptId := "a1", contractId := "c1", executorKind := .agent
      executorId := agentExecutorId, generation := 1, executorMax := 2, hardDeadlineAt := none
      reservedTokens := 300, projectId := 1, sourceAttemptId := none }

/-- The settlement of `a1` that reports 200 trustworthy tokens. -/
def settleReporting : WorkerOp :=
  .settle (fun _ _ => none) 20
    { attemptId := "a1", expectedGeneration := 1, desiredState := .failed
      stableReason := "worker failed"
      normalizedUsage := some { input := 150, output := 50, trustworthy := true }
      envelope := none, now := none, inputRequested := false }

/-- A claim and a settlement of a child keep its project within its cap. -/
theorem capped_project_claim_and_settle :
    let reached := runFrom (workerStep Runtime.plain) cappedProjectDb
      [claimReserving, settleReporting]
    (∃ project, reached.kanbanBoard.get 1 = some project ∧ project.maxTokens = some 1000 ∧
      project.tokensUsed.getD 0 + activeReservedTokensForProject reached 1 ≤ 1000) ∧
      tokensOf reached.kanbanBoard 1 = 200 := by
  refine ⟨capped_project_within_budget Runtime.plain cappedProjectDb
    [claimReserving, settleReporting] 1 1000 (by decide) ⟨rfl, ?_⟩ (by decide)
    ⟨trivial, ?_, trivial⟩, by decide⟩
  · intro a ha _
    obtain rfl : a = pendingAttempt "a1" 2 "c1" 1 .agent agentExecutorId 0 :=
      List.mem_singleton.1 ha
    exact ⟨by decide, fun _ => rfl⟩
  · intro attempt hadmits
    obtain ⟨hget, -⟩ := admitSettlement_ok hadmits
    have hclaimed : (workerStep Runtime.plain cappedProjectDb claimReserving).workerAttempts.get
        "a1" = some (AttemptRow.claim 10 1 none 300
          (pendingAttempt "a1" 2 "c1" 1 .agent agentExecutorId 0)) := by decide
    obtain rfl : _ = attempt := Option.some.inj (hclaimed.symm.trans hget)
    refine ⟨by decide, fun _ total htotal => ?_⟩
    obtain rfl : (200 : Int) = total := Option.some.inj htotal
    decide

end Abtars
