import Abtars.Lib.Evolution
import Abtars.Lib.Run
import Abtars.Retry.Store
import Abtars.Worker.Settlement

/-!
# Runs of the worker store

A run interleaves the operations that claim, start, defer, cancel, retry and
settle attempts with lease facts, lease closings and card transitions, in any
order.  Only two of them are loud: the guarded claim, which reserves tokens, and
the settlement.  Every other operation is quiet: each attempt makes at most one
unpaid lifecycle move, new attempts are pending and uncharged, no result is
stored and no card changes its place in the project or its tokens.
-/

namespace Abtars

open Lib

/-! ## Operations -/

inductive WorkerOp
  | claimWithinLimits (now : Millis) (req : ClaimRequest)
  | claimAttempt (now : Millis) (cardId : Nat) (executorKind : ExecutorKind)
      (executorId : String) (generation : Int) (hardDeadlineAt : Option Millis)
  | claimRetry (now : Millis) (cardId : Nat) (attemptId contractId : String)
      (executorKind : ExecutorKind) (executorId : String) (generation : Int)
      (sourceAttemptId : String) (hardDeadlineAt : Option Millis)
  | markStartObservable (attemptId : String)
  | markRunning (attemptId : String)
  | requestCancel (attemptId reason : String)
  | defer (now : Millis) (attemptId : String) (generation : Int) (reason : DeferReason)
  | cancelPending (now : Millis) (attemptId reason : String)
  | cancelProjectChild (now : Millis) (cardId : Nat) (authority : ProjectMutationAuthority)
      (reason : String)
  | settle (hook : SuccessorHook) (clock : Millis) (input : SettleInput)
  | allocateRetry (now : Millis) (req : AllocationRequest)
  | appendFact (now : Millis) (policy : LeasePolicy) (resolver : Option PendingInputResolver)
      (fact : ProgressFact)
  | closeLease (now : Millis) (attemptId : String) (generation : Int) (reason : String)
  | transition (now : Millis) (req : TransitionRequest)

def workerStep (rt : Runtime) (db : Db) : WorkerOp → Db
  | .claimWithinLimits now req => (claimAttemptWithinLimits now req db).2
  | .claimAttempt now cardId kind executorId generation deadline =>
    (claimAttempt now cardId kind executorId generation deadline db).2
  | .claimRetry now cardId attemptId contractId kind executorId generation source deadline =>
    (claimRetryAttempt now cardId attemptId contractId kind executorId generation source
      deadline db).2
  | .markStartObservable attemptId => (markAttemptStartObservable attemptId db).2
  | .markRunning attemptId => (markAttemptRunning attemptId db).2
  | .requestCancel attemptId reason => (requestCancel attemptId reason db).2
  | .defer now attemptId generation reason =>
    (deferClaimAfterProvenNoStart now attemptId generation reason db).2
  | .cancelPending now attemptId reason => (cancelPendingAttempt now attemptId reason db).2
  | .cancelProjectChild now cardId authority reason =>
    (transaction (cancelProjectChild rt now cardId authority reason) db).2
  | .settle hook clock input => (settleAttempt rt hook clock input db).2
  | .allocateRetry now req => (acceptDirectiveAndAllocateTarget rt now req db).2
  | .appendFact now policy resolver fact => (appendFact rt now policy resolver fact db).2
  | .closeLease now attemptId generation reason =>
    (closeLease now attemptId generation reason db).2
  | .transition now req =>
    (transaction (kanbanTransition rt.redactSecrets now req) db).2

/-! ## Quiet steps -/

/-- The moves an attempt makes without a reservation or a charge, claimed and
cancelled only where the operation says so. -/
inductive AttemptRow.Moves (claims cancels : String → Prop) : AttemptRow → AttemptRow → Prop
  | stays (a : AttemptRow) : Moves claims cancels a a
  | claimed {a : AttemptRow} (now : Millis) (generation : Int)
      (hardDeadlineAt : Option Millis) (h : a.lifecycle = .pending) (hclaims : claims a.id) :
      Moves claims cancels a (a.claim now generation hardDeadlineAt a.reservedTokens)
  | advanced {a : AttemptRow} (lifecycle : AttemptLifecycle) (h : a.lifecycle.isLive = true)
      (hlive : lifecycle.isLive = true) : Moves claims cancels a (a.moveTo lifecycle)
  | cancelRequested {a : AttemptRow} (reason : String) (h : a.lifecycle.isLive = true) :
      Moves claims cancels a (a.requestCancel reason)
  | cancelled {a : AttemptRow} (now : Millis) (reason : String) (h : a.lifecycle = .pending)
      (hcancels : cancels a.id) : Moves claims cancels a (a.cancelPending now reason)
  | deferred {a : AttemptRow} (h : a.lifecycle = .starting) : Moves claims cancels a a.defer

structure AttemptRow.Fresh (a : AttemptRow) : Prop where
  lifecycle : a.lifecycle = .pending
  reservedTokens : a.reservedTokens = 0
  chargedTokens : a.chargedTokens = 0
  usageChargedAt : a.usageChargedAt = none

def KanbanCard.accounts (card : KanbanCard) :
    (Option Nat × Option String × Option Int) × Option Int :=
  (card.lineage, card.tokensUsed)

def SameAccounts (board board' : Table KanbanCard) : Prop :=
  ∀ id, (board'.get id).map KanbanCard.accounts = (board.get id).map KanbanCard.accounts

def HeldTarget (reservations : Table ReservationRow) (attemptId : String) : Prop :=
  ∃ r ∈ reservations, r.status.isHeld = true ∧ r.targetAttemptId = attemptId

variable (leases : Table LeaseRow)

def LeaseClosed (attemptId : String) : Prop :=
  ∃ row, leases.get attemptId = some row ∧ row.snapshotJson.closedAt.isSome = true

def Idle (attempts : Table AttemptRow) (attemptId : String) : Prop :=
  ∃ a, attempts.get attemptId = some a ∧ a.lifecycle.isLive = false

def LeasesNamed : Prop :=
  ∀ row ∈ leases, row.snapshotJson.attemptId = row.attemptId

/-- No lease is closed but those named by `closes` and those of attempts that are
not live. -/
def LeaseStep (closes : String → Prop) (attempts : Table AttemptRow)
    (leases leases' : Table LeaseRow) : Prop :=
  LeasesNamed leases → LeasesNamed leases' ∧
    ∀ id, LeaseClosed leases' id → LeaseClosed leases id ∨ closes id ∨ Idle attempts id

theorem LeaseStep.refl {closes : String → Prop} {attempts : Table AttemptRow} :
    LeaseStep closes attempts leases leases :=
  fun hnamed => ⟨hnamed, fun _ h => .inl h⟩

theorem LeaseStep.trans {closes : String → Prop} {attempts : Table AttemptRow}
    {leases mid leases' : Table LeaseRow} (h : LeaseStep closes attempts leases mid)
    (h' : LeaseStep closes attempts mid leases') : LeaseStep closes attempts leases leases' := by
  intro hnamed
  obtain ⟨hmid, hfirst⟩ := h hnamed
  obtain ⟨hlast, hsecond⟩ := h' hmid
  refine ⟨hlast, fun id hid => ?_⟩
  rcases hsecond id hid with hclosed | hother
  · exact hfirst id hclosed
  · exact .inr hother

/-- What a quiet operation does to attempts, results, cards, reservations and
leases: those it names are claimed, cancelled and closed, and no others, save that
the lease of an attempt that is not live may be closed. -/
structure QuietStep (claims cancels closes : String → Prop) (db db' : Db) : Prop where
  attempts : db.workerAttempts.Evolves (AttemptRow.Moves claims cancels) AttemptRow.Fresh
    db'.workerAttempts
  results : db'.workerResults = db.workerResults
  board : SameAccounts db.kanbanBoard db'.kanbanBoard
  held : ∀ id, HeldTarget db'.retryBudgetReservations id →
    HeldTarget db.retryBudgetReservations id ∨
      ∃ a, db'.workerAttempts.get id = some a ∧ a.Fresh
  leases : LeaseStep closes db'.workerAttempts db.attemptLeaseSnapshots
    db'.attemptLeaseSnapshots

namespace AttemptRow.Moves

variable {claims cancels : String → Prop} {a a' : AttemptRow}

theorem id_eq (h : Moves claims cancels a a') : a'.id = a.id := by
  cases h <;> rfl

theorem cardId_eq (h : Moves claims cancels a a') : a'.cardId = a.cardId := by
  cases h <;> rfl

theorem charge_eq (h : Moves claims cancels a a') :
    a'.chargedTokens = a.chargedTokens ∧ a'.usageChargedAt = a.usageChargedAt := by
  cases h <;> exact ⟨rfl, rfl⟩

theorem eq_of_terminal (h : Moves claims cancels a a') (hterminal : a.lifecycle.isTerminal = true) :
    a' = a := by
  cases h with
  | stays => rfl
  | claimed _ _ _ h => simp [h, AttemptLifecycle.isTerminal] at hterminal
  | advanced _ h _ =>
    simp [AttemptLifecycle.isTerminal_of_isActive (AttemptLifecycle.isActive_of_isLive h)]
      at hterminal
  | cancelRequested _ h =>
    simp [AttemptLifecycle.isTerminal_of_isActive (AttemptLifecycle.isActive_of_isLive h)]
      at hterminal
  | cancelled _ _ h => simp [h, AttemptLifecycle.isTerminal] at hterminal
  | deferred h => simp [h, AttemptLifecycle.isTerminal] at hterminal

theorem terminal_cases (h : Moves claims cancels a a') (hterminal : a'.lifecycle.isTerminal = true) :
    a' = a ∨ a.lifecycle = .pending ∧ cancels a.id := by
  cases h with
  | stays => exact .inl rfl
  | advanced lifecycle _ hlive =>
    have hopen := AttemptLifecycle.isTerminal_of_isActive
      (AttemptLifecycle.isActive_of_isLive hlive)
    exact absurd (show lifecycle.isTerminal = true from hterminal) (by simp [hopen])
  | cancelled _ _ h hcancels => exact .inr ⟨h, hcancels⟩
  | _ => cases hterminal

theorem live_cases (h : Moves claims cancels a a') (hlive : a'.lifecycle.isLive = true) :
    a.lifecycle.isLive = true ∨ a.lifecycle = .pending ∧ claims a.id := by
  cases h with
  | stays => exact .inl hlive
  | claimed _ _ _ hpending hclaims => exact .inr ⟨hpending, hclaims⟩
  | advanced _ h _ => exact .inl h
  | cancelRequested => cases hlive
  | cancelled => cases hlive
  | deferred => cases hlive

end AttemptRow.Moves

theorem invalidateAttempt_moves {claims cancels : String → Prop} (now : Millis)
    {a : AttemptRow} (hcancels : a.lifecycle = .pending → cancels a.id) :
    a.Moves claims cancels (invalidateAttempt now a) := by
  unfold invalidateAttempt
  split
  · rename_i hlive
    exact .cancelRequested "project_terminal" hlive
  split
  · rename_i hpending
    exact .cancelled now "project_terminal" hpending (hcancels hpending)
  · exact .stays a

section Quiet

variable {now : Millis} {attemptId id : String} {attempt : AttemptRow}
  {reservations : Table ReservationRow}

variable {rt : Runtime} {claims cancels closes : String → Prop} {db mid db' : Db}

theorem QuietStep.refl (db : Db) : QuietStep claims cancels closes db db where
  attempts := Table.evolves_refl .stays
  results := rfl
  board := fun _ => rfl
  held := fun _ h => .inl h
  leases := .refl _

theorem quietStep_modify {attemptId : String} (write : AttemptRow → AttemptRow)
    (hwrite : ∀ a, Keyed.key (write a) = Keyed.key a)
    (hmoves : ∀ a, db.workerAttempts.get attemptId = some a → a.Moves claims cancels (write a)) :
    QuietStep claims cancels closes db
      { db with workerAttempts := db.workerAttempts.modify attemptId write hwrite } where
  attempts := Table.evolves_modify .stays hwrite hmoves
  results := rfl
  board := fun _ => rfl
  held := fun _ h => .inl h
  leases := .refl _

/-- Quietness only looks at five tables, and at reservations and leases only for
new holds and closings. -/
theorem QuietStep.congr (h : QuietStep claims cancels closes db mid)
    (hattempts : db'.workerAttempts = mid.workerAttempts)
    (hresults : db'.workerResults = mid.workerResults)
    (hboard : SameAccounts mid.kanbanBoard db'.kanbanBoard)
    (hheld : ∀ id, HeldTarget db'.retryBudgetReservations id →
      HeldTarget mid.retryBudgetReservations id)
    (hleases : LeaseStep closes mid.workerAttempts mid.attemptLeaseSnapshots
      db'.attemptLeaseSnapshots) :
    QuietStep claims cancels closes db db' where
  attempts := by
    rw [hattempts]
    exact h.attempts
  results := hresults.trans h.results
  board := fun id => (hboard id).trans (h.board id)
  held := by
    rw [hattempts]
    exact fun id hid => h.held id (hheld id hid)
  leases := by
    rw [hattempts]
    exact h.leases.trans hleases

theorem QuietStep.mono {cancels' : String → Prop} (h : QuietStep claims cancels closes db db')
    (hcancels : ∀ id, cancels id → cancels' id) : QuietStep claims cancels' closes db db' where
  attempts := by
    refine h.attempts.mono (fun a _ a' hmoves => ?_) fun _ hn => hn
    cases hmoves with
    | stays => exact .stays a
    | claimed now generation deadline h hclaims => exact .claimed now generation deadline h hclaims
    | advanced lifecycle h hlive => exact .advanced lifecycle h hlive
    | cancelRequested reason h => exact .cancelRequested reason h
    | cancelled now reason h hid => exact .cancelled now reason h (hcancels _ hid)
    | deferred h => exact .deferred h
  results := h.results
  board := h.board
  held := h.held
  leases := h.leases

theorem sameAccounts_transition {redactSecrets : String → String}
    {req : TransitionRequest} {outcome : TransitionOutcome}
    (h : kanbanTransition redactSecrets now req db = .ok (outcome, db')) :
    SameAccounts db.kanbanBoard db'.kanbanBoard := by
  intro id
  refine kanbanTransition_column KanbanCard.accounts (fun card => ?_) h id
  rw [KanbanCard.accounts, writeCard_lineage, writeCard_tokensUsed]
  rfl

theorem QuietStep.transition (hquiet : QuietStep claims cancels closes db mid)
    {redactSecrets : String → String} {req : TransitionRequest} {outcome : TransitionOutcome}
    (h : kanbanTransition redactSecrets now req mid = .ok (outcome, db')) :
    QuietStep claims cancels closes db db' := by
  have hboard := sameAccounts_transition h
  obtain ⟨_, _, _, _, -, rfl⟩ := kanbanTransition_frame h
  exact hquiet.congr rfl rfl hboard (fun _ h => h) (.refl _)

theorem lifecycleTransition_quiet {fromLifecycles : List AttemptLifecycle}
    {write : AttemptRow → AttemptRow} {hwrite : ∀ a, (write a).id = a.id}
    (hmoves : ∀ a : AttemptRow, a.id = attemptId → a.lifecycle ∈ fromLifecycles →
      a.Moves claims cancels (write a)) :
    QuietStep claims cancels closes db
      (lifecycleTransition attemptId fromLifecycles write hwrite db).2 := by
  unfold lifecycleTransition
  cases hget : db.workerAttempts.get attemptId with
  | none => exact .refl db
  | some attempt =>
    dsimp only
    split
    · rename_i hfrom
      refine quietStep_modify write hwrite fun a ha => ?_
      obtain rfl : attempt = a := Option.some.inj (hget.symm.trans ha)
      exact hmoves attempt (Table.key_of_get hget) hfrom
    · exact .refl db

theorem authorizedLifecycleTransition_quiet
    {fromLifecycles : List AttemptLifecycle} {write : AttemptRow → AttemptRow}
    {hwrite : ∀ a, (write a).id = a.id}
    (hmoves : ∀ a : AttemptRow, a.id = attemptId → a.lifecycle ∈ fromLifecycles →
      a.Moves claims cancels (write a)) :
    QuietStep claims cancels closes db
      (authorizedLifecycleTransition attemptId fromLifecycles write hwrite db).2 := by
  unfold authorizedLifecycleTransition
  split
  · exact .refl db
  · split
    · exact .refl db
    · exact lifecycleTransition_quiet hmoves

theorem markAttemptStartObservable_quiet (attemptId : String) :
    QuietStep claims cancels closes db (markAttemptStartObservable attemptId db).2 := by
  refine authorizedLifecycleTransition_quiet fun a _ ha => .advanced _ ?_ rfl
  simp only [List.mem_singleton] at ha
  simp [ha, AttemptLifecycle.isLive]

theorem markAttemptRunning_quiet (attemptId : String) :
    QuietStep claims cancels closes db (markAttemptRunning attemptId db).2 := by
  refine authorizedLifecycleTransition_quiet fun a _ ha => .advanced _ ?_ rfl
  simp only [List.mem_cons, List.not_mem_nil, or_false] at ha
  rcases ha with ha | ha <;> simp [ha, AttemptLifecycle.isLive]

theorem requestCancel_quiet (attemptId reason : String) :
    QuietStep claims cancels closes db (requestCancel attemptId reason db).2 := by
  refine lifecycleTransition_quiet fun a _ ha => .cancelRequested _ ?_
  simp only [List.mem_cons, List.not_mem_nil, or_false] at ha
  rcases ha with ha | ha | ha <;> simp [ha, AttemptLifecycle.isLive]

theorem cancelPendingAttempt_quiet (now : Millis) (attemptId reason : String) :
    QuietStep claims (· = attemptId) closes db (cancelPendingAttempt now attemptId reason db).2 :=
  lifecycleTransition_quiet fun _ hid ha =>
    .cancelled now reason (List.mem_singleton.1 ha) hid

theorem claimAttempt_quiet (now : Millis) (cardId : Nat) (kind : ExecutorKind)
    (executorId : String) (generation : Int) (deadline : Option Millis) :
    QuietStep (fun id => (latestAttempt db cardId).map (·.id) = some id) cancels closes db
      (claimAttempt now cardId kind executorId generation deadline db).2 := by
  unfold claimAttempt
  split
  · exact .refl db
  rename_i latest hlatest
  split
  · exact .refl db
  split
  · exact .refl db
  split
  · exact .refl db
  refine lifecycleTransition_quiet fun a hid ha =>
    .claimed now generation deadline (List.mem_singleton.1 ha) ?_
  rw [hlatest, hid]
  rfl

theorem claimableRetry_some {cardId : Nat} {contractId executorId source : String}
    {kind : ExecutorKind}
    (h : claimableRetry db cardId attemptId contractId kind executorId source = some attempt) :
    db.workerAttempts.get attemptId = some attempt ∧ attempt.lifecycle = .pending := by
  unfold claimableRetry at h
  cases hget : db.workerAttempts.get attemptId with
  | none => simp [hget] at h
  | some a =>
    simp only [hget] at h
    split at h
    · rename_i hclaimable
      cases h
      exact ⟨rfl, hclaimable.2.2.1⟩
    · cases h

theorem heldTarget_updateWhere {p : ReservationRow → Bool} {f : ReservationRow → ReservationRow}
    {hf : ∀ r, Keyed.key (f r) = Keyed.key r}
    (htarget : ∀ r, (f r).targetAttemptId = r.targetAttemptId)
    (hheld : ∀ r, p r = true → (f r).status.isHeld = true → r.status.isHeld = true)
    (h : HeldTarget (reservations.updateWhere p f hf) id) : HeldTarget reservations id := by
  obtain ⟨r', hr', hstatus, rfl⟩ := h
  obtain ⟨r, hr, rfl⟩ := Table.mem_updateWhere.1 hr'
  by_cases hp : p r = true
  · simp only [hp, if_true] at hstatus ⊢
    exact ⟨r, hr, hheld r hp hstatus, (htarget r).symm⟩
  · simp only [hp, Bool.false_eq_true, if_false] at hstatus ⊢
    exact ⟨r, hr, hstatus, rfl⟩

theorem heldTarget_claimReservation {source target : String}
    (h : HeldTarget (claimReservation now source target reservations) id) :
    HeldTarget reservations id := by
  refine heldTarget_updateWhere ?_ (fun r hp _ => ?_) h
  · intro r
    rfl
  · simp only [Bool.decide_and, Bool.and_eq_true, decide_eq_true_eq] at hp
    rw [hp.2.2]
    rfl

theorem heldTarget_reactivateReservation
    (h : HeldTarget (reactivateReservation now attempt reservations) id) :
    HeldTarget reservations id := by
  unfold reactivateReservation at h
  split at h
  · exact h
  refine heldTarget_updateWhere ?_ (fun r hp _ => ?_) h
  · intro r
    rfl
  · simp only [Bool.decide_and, Bool.and_eq_true, decide_eq_true_eq] at hp
    rw [hp.2.2]
    rfl

theorem claimRetryAttempt_quiet (now : Millis) (cardId : Nat) (attemptId contractId : String)
    (kind : ExecutorKind) (executorId : String) (generation : Int) (source : String)
    (deadline : Option Millis) :
    QuietStep (· = attemptId) cancels closes db (claimRetryAttempt now cardId attemptId contractId kind
      executorId generation source deadline db).2 := by
  unfold claimRetryAttempt
  cases hretry : claimableRetry db cardId attemptId contractId kind executorId source with
  | none => exact .refl db
  | some attempt =>
    obtain ⟨hget, hpending⟩ := claimableRetry_some hretry
    dsimp only
    split
    · have hmove : QuietStep (· = attemptId) cancels closes db
          { db with
            workerAttempts := db.workerAttempts.modify attemptId fun a =>
              a.claim now generation deadline a.reservedTokens } := by
        refine quietStep_modify (fun a => a.claim now generation deadline a.reservedTokens)
          (fun _ => rfl) fun a ha => ?_
        obtain rfl : attempt = a := Option.some.inj (hget.symm.trans ha)
        exact .claimed now generation deadline hpending (Table.key_of_get hget)
      exact hmove.congr rfl rfl (fun _ => rfl) (fun _ => heldTarget_claimReservation)
        (.refl _)
    · exact .refl db

theorem deferrableAttempt_some {generation : Int}
    (h : deferrableAttempt db attemptId generation = some attempt) :
    db.workerAttempts.get attemptId = some attempt ∧ attempt.generation = generation ∧
      attempt.lifecycle = .starting := by
  unfold deferrableAttempt at h
  cases hget : db.workerAttempts.get attemptId with
  | none => simp [hget] at h
  | some a =>
    simp only [hget] at h
    split_ifs at h with _ hgeneration hstarting
    cases h
    exact ⟨rfl, not_not.1 hgeneration, not_not.1 hstarting⟩

theorem leaseStep_put {attempts : Table AttemptRow} {leases : Table LeaseRow}
    (snapshot : AttemptLeaseSnapshot)
    (hclosed : snapshot.closedAt.isSome = true →
      closes snapshot.attemptId ∨ Idle attempts snapshot.attemptId) :
    LeaseStep closes attempts leases (leases.put (leaseRowOf snapshot)) := by
  intro hnamed
  constructor
  · intro row hrow
    rcases Table.mem_put.1 hrow with ⟨hold, -⟩ | rfl
    · exact hnamed row hold
    · rfl
  rintro id ⟨row, hrow, hrowClosed⟩
  rw [Table.get_put, key_leaseRowOf] at hrow
  split at hrow
  · rename_i hid
    subst hid
    cases hrow
    exact .inr (hclosed hrowClosed)
  · exact .inl ⟨row, hrow, hrowClosed⟩

theorem closeLease_leaseStep (now : Millis) (attemptId : String) (generation : Int)
    (reason : String)
    (hcloses : ∀ a, db.workerAttempts.get attemptId = some a → a.generation = generation →
      closes attemptId ∨ Idle db.workerAttempts attemptId) :
    LeaseStep closes db.workerAttempts db.attemptLeaseSnapshots
      (closeLease now attemptId generation reason db).2.attemptLeaseSnapshots := by
  rcases closeLease_cases now db attemptId generation reason with
    h | ⟨attempt, snapshot, _, hget, hgeneration, hclosing, h⟩
  · rw [h]
    exact .refl _
  · rw [h]
    intro hnamed
    have hattempt : attempt.id = attemptId := Table.key_of_get hget
    have hname : snapshot.attemptId = attemptId := by
      refine (closingSnapshot_attemptId hclosing fun r hr => ?_).trans hattempt
      exact (hnamed r (Table.mem_of_get hr)).trans ((Table.key_of_get hr).trans hattempt.symm)
    refine leaseStep_put snapshot (fun _ => ?_) hnamed
    rw [hname]
    exact hcloses attempt hget hgeneration

theorem deferClaimAfterProvenNoStart_quiet (now : Millis) (attemptId : String)
    (generation : Int) (reason : DeferReason) :
    QuietStep claims cancels closes db
      (deferClaimAfterProvenNoStart now attemptId generation reason db).2 := by
  unfold deferClaimAfterProvenNoStart
  cases hdefer : deferrableAttempt db attemptId generation with
  | none => exact .refl db
  | some attempt =>
    obtain ⟨hget, -, hstarting⟩ := deferrableAttempt_some hdefer
    let returned :=
      { db with workerAttempts := db.workerAttempts.modify attemptId AttemptRow.defer }
    have hmove : QuietStep claims cancels closes db returned := by
      refine quietStep_modify AttemptRow.defer (fun _ => rfl) fun a ha => ?_
      obtain rfl : attempt = a := Option.some.inj (hget.symm.trans ha)
      exact .deferred hstarting
    -- the lease is closed of an attempt that is pending by then
    have hpending : Idle returned.workerAttempts attemptId :=
      ⟨attempt.defer, by simp [returned, hget], rfl⟩
    have hlease : LeaseStep closes returned.workerAttempts returned.attemptLeaseSnapshots
        (closeLease now attemptId attempt.generation ("deferred:" ++ reason.text)
          returned).2.attemptLeaseSnapshots :=
      closeLease_leaseStep now attemptId attempt.generation _ fun _ _ _ => .inr hpending
    dsimp only
    obtain ⟨leases, events, hclose⟩ := closeLease_frame now returned attemptId
      attempt.generation ("deferred:" ++ reason.text)
    rw [hclose] at hlease ⊢
    exact hmove.congr rfl rfl (fun _ => rfl) (fun _ => heldTarget_reactivateReservation) hlease

theorem stopAttempt_quiet (db : Db) (now : Millis) (reason : String) (attempt : AttemptRow) :
    QuietStep claims (· = attempt.id) closes db (stopAttempt now reason attempt db).2 := by
  unfold stopAttempt
  split
  · exact cancelPendingAttempt_quiet now attempt.id reason
  · exact requestCancel_quiet attempt.id reason
  · exact requestCancel_quiet attempt.id reason
  · exact requestCancel_quiet attempt.id reason
  · exact .refl db
  · exact .refl db

theorem cancelProjectChild_quiet {cardId : Nat}
    {authority : ProjectMutationAuthority} {reason : String} {cancelled : Bool}
    (h : cancelProjectChild rt now cardId authority reason db = .ok (cancelled, db')) :
    QuietStep claims (fun id => (cancellableChild db cardId authority).map (·.id) = some id)
      closes db db' := by
  unfold cancelProjectChild at h
  split at h
  · cases h
    exact .refl db
  rename_i attempt hchild
  have hstop : QuietStep claims (· = attempt.id) closes db _ :=
    stopAttempt_quiet db now reason attempt
  have hcancels : (· = attempt.id) =
      fun id => (cancellableChild db cardId authority).map (·.id) = some id := by
    rw [hchild]
    funext id
    exact propext ⟨fun h => congrArg some h.symm, fun h => (Option.some.inj h).symm⟩
  rw [hcancels] at hstop
  split at h
  · rename_i stopped hstopped
    cases h
    rw [hstopped] at hstop
    exact hstop
  rename_i stopped hstopped
  rw [hstopped] at hstop
  split at h
  · cases h
  · rename_i failed hcard
    cases h
    exact hstop.transition hcard
  · rename_i failed _ hcard
    cases h
    exact hstop.transition hcard

theorem insertAllocation_quiet {req : AllocationRequest} {source : AttemptRow}
    {decision : DecisionRow} (hadmits : admitAllocation db req = .ok (source, decision))
    (h : insertAllocation now req source decision db = some db') :
    QuietStep claims cancels closes db db' := by
  obtain ⟨_, attempts, _, reservations, -, hattempts, -, hreservations, rfl⟩ :=
    insertAllocation_eq_some h
  have hfresh : (req.attemptRow source).Fresh := ⟨rfl, rfl, rfl, rfl⟩
  refine ⟨Table.evolves_insert .stays hattempts hfresh, rfl, fun _ => rfl, ?_, .refl _⟩
  rintro id ⟨r, hr, hheld, rfl⟩
  rcases (Table.mem_insert hreservations).1 hr with hold | rfl
  · exact .inl ⟨r, hold, hheld, rfl⟩
  refine .inr ⟨req.attemptRow source, ?_, hfresh⟩
  have hid : req.attemptInsert.id = req.targetAttemptId := by
    have hlineage := (admitAllocation_ok hadmits).1
    simp only [lineageMatches, Bool.decide_and, Bool.and_eq_true, decide_eq_true_eq] at hlineage
    exact hlineage.2.2.1
  exact (Table.get_of_insert hattempts _).trans (if_pos hid.symm)

theorem acceptDirective_quiet (now : Millis) (req : AllocationRequest) :
    QuietStep claims cancels closes db (acceptDirectiveAndAllocateTarget rt now req db).2 := by
  rcases transactionCatching_cases (allocateBody rt now req) (fun _ => .staleSource) db with
    ⟨⟨outcome, after⟩, hbody, hrun⟩ | ⟨_, -, hrun⟩
  · rw [acceptDirectiveAndAllocateTarget, hrun]
    unfold allocateBody at hbody
    split at hbody
    · cases hbody
      exact .refl db
    rename_i hadmits
    split at hbody
    · cases hbody
    rename_i inserted hinsert
    have hquiet : QuietStep claims cancels closes db inserted := insertAllocation_quiet hadmits hinsert
    split at hbody
    · cases hbody
    · rename_i hcard
      cases hbody
      exact hquiet.transition hcard
    · rename_i hcard
      cases hbody
      exact hquiet.transition hcard
  · rw [acceptDirectiveAndAllocateTarget, hrun]
    exact .refl db

theorem appendFact_quiet (now : Millis) (policy : LeasePolicy)
    (resolver : Option PendingInputResolver) (fact : ProgressFact) :
    QuietStep claims cancels closes db (appendFact rt now policy resolver fact db).2 := by
  rcases appendFact_cases rt now policy resolver db fact with
    h | ⟨sanitized, _, snapshot, -, -, hnext, h⟩
  · rw [h]
    exact .refl db
  · rw [h]
    refine (QuietStep.refl db).congr rfl rfl (fun _ => rfl) (fun _ h => h) fun hnamed => ?_
    have hopen := (nextSnapshot_open hnext fun r hr =>
      (hnamed r (Table.mem_of_get hr)).trans (Table.key_of_get hr)).2
    exact leaseStep_put snapshot (fun hclosed => by simp [hopen] at hclosed) hnamed

theorem closeLease_quiet (now : Millis) (attemptId : String) (generation : Int)
    (reason : String)
    (hcloses : ∀ a, db.workerAttempts.get attemptId = some a → a.generation = generation →
      closes attemptId) :
    QuietStep claims cancels closes db (closeLease now attemptId generation reason db).2 := by
  have hlease : LeaseStep closes db.workerAttempts db.attemptLeaseSnapshots _ :=
    closeLease_leaseStep now attemptId generation reason fun a ha hg => .inl (hcloses a ha hg)
  obtain ⟨leases, events, h⟩ := closeLease_frame now db attemptId generation reason
  rw [h] at hlease ⊢
  exact (QuietStep.refl db).congr rfl rfl (fun _ => rfl) (fun _ h => h) hlease

/-! ## The runner's commit -/

theorem sameAccounts_markDeliveryReady (cardId : Nat) (board : Table KanbanCard) :
    SameAccounts board (markDeliveryReady cardId board) := by
  intro id
  exact Table.map_get_modify board cardId _ _ id KanbanCard.accounts fun _ => rfl

def SuccessorEffect.Lands (effect : SuccessorEffect) : Prop :=
  ∀ req, effect.projection = some req → declarationError req = none

def SuccessorEffect.Fences (effect : SuccessorEffect) (db : Db) (id : String) : Prop :=
  effect.Lands ∧ ∃ root a, effect.invalidatedRoot = some root ∧
    db.workerAttempts.get id = some a ∧ a.lifecycle = .pending ∧
    isDescendant db.kanbanBoard root a.cardId = true

theorem fence_quiet {effect : SuccessorEffect} (db : Db) (clock : Millis) (hlands : effect.Lands) :
    QuietStep claims (effect.Fences db) closes db (effect.fence clock (effect.advance db)) := by
  have hadvanced : QuietStep claims (effect.Fences db) closes db (effect.advance db) :=
    (QuietStep.refl db).congr rfl rfl (fun _ => rfl) (fun _ h => h) (.refl _)
  unfold SuccessorEffect.fence
  cases hroot : effect.invalidatedRoot with
  | none => exact hadvanced
  | some root =>
    refine ⟨?_, rfl, fun _ => rfl, fun _ h => .inl h, .refl _⟩
    refine Table.evolves_updateWhere .stays (invalidateAttempt_id clock) fun a ha hbelow => ?_
    exact invalidateAttempt_moves clock fun hpending =>
      ⟨hlands, root, a, hroot, Table.get_key_of_mem ha, hpending, hbelow⟩

theorem applySuccessorEffect_quiet {clock : Millis} {effect : SuccessorEffect} {done : Unit}
    (h : applySuccessorEffect rt clock effect db = .ok (done, db')) :
    QuietStep claims (effect.Fences db) closes db db' := by
  have hready : ∀ d, QuietStep claims (effect.Fences db) closes db d →
      QuietStep claims (effect.Fences db) closes db (effect.markReady d) := by
    intro d hd
    unfold SuccessorEffect.markReady
    cases effect.deliveryReady with
    | none => exact hd
    | some cardId =>
      exact hd.congr rfl rfl (sameAccounts_markDeliveryReady cardId d.kanbanBoard)
        (fun _ h => h) (.refl _)
  unfold applySuccessorEffect at h
  dsimp only at h
  split at h
  · rename_i hnone
    cases h
    exact hready _ (fence_quiet db clock (by simp [SuccessorEffect.Lands, hnone]))
  rename_i req hsome
  split at h
  · cases h
  rename_i hcard
  cases h
  have hlands : effect.Lands := by
    intro req' hreq'
    obtain rfl : req = req' := Option.some.inj (hsome.symm.trans hreq')
    exact kanbanTransition_declared hcard
  exact hready _ ((fence_quiet db clock hlands).transition hcard)

def CommitFences (hook : SuccessorHook) (input : SettleInput) (attempt : AttemptRow)
    (verdict : DesiredState) (db : Db) (id : String) : Prop :=
  ∃ effect, successorEffect hook input attempt verdict db = some effect ∧ effect.Fences db id

theorem commitSuccessor_quiet (hook : SuccessorHook) (input : SettleInput)
    (attempt : AttemptRow) (verdict : DesiredState) (clock : Millis) :
    QuietStep claims (CommitFences hook input attempt verdict db) closes db
      (commitSuccessor rt hook input attempt verdict clock db) := by
  unfold commitSuccessor
  cases heffect : successorEffect hook input attempt verdict db with
  | none => exact .refl db
  | some effect =>
    dsimp only
    rcases transactionCatching_cases (applySuccessorEffect rt clock effect) (fun _ => ()) db
      with ⟨⟨done, after⟩, hbody, hrun⟩ | ⟨_, -, hrun⟩
    · rw [hrun]
      refine (applySuccessorEffect_quiet hbody).mono fun id hid => ⟨effect, heffect, hid⟩
    · rw [hrun]
      exact .refl db

end Quiet

/-! ## What one operation does -/

def WorkerOp.Claims (db : Db) (op : WorkerOp) (id : String) : Prop :=
  match op with
  | .claimWithinLimits _ req => id = req.attemptId
  | .claimAttempt _ cardId _ _ _ _ => (latestAttempt db cardId).map (·.id) = some id
  | .claimRetry _ _ attemptId _ _ _ _ _ _ => id = attemptId
  | _ => False

def WorkerOp.Cancels (rt : Runtime) (db : Db) (op : WorkerOp) (id : String) : Prop :=
  match op with
  | .cancelPending _ attemptId _ => id = attemptId
  | .cancelProjectChild _ cardId authority _ =>
    (cancellableChild db cardId authority).map (·.id) = some id
  | .settle hook clock input =>
    ∃ attempt, admitSettlement rt input db = .ok attempt ∧
      CommitFences hook input attempt (effectiveState db input attempt (input.now.getD clock))
        (settleWrites rt input attempt clock db) id
  | _ => False

def WorkerOp.Closes (db : Db) (op : WorkerOp) (id : String) : Prop :=
  match op with
  | .closeLease _ attemptId generation _ =>
    id = attemptId ∧ ∃ a, db.workerAttempts.get id = some a ∧ a.generation = generation
  | _ => False

theorem workerStep_settle {rt : Runtime} {db : Db} {input : SettleInput} {attempt : AttemptRow}
    (hook : SuccessorHook) (clock : Millis) (hadmits : admitSettlement rt input db = .ok attempt) :
    QuietStep (fun _ => False) (WorkerOp.Cancels rt db (.settle hook clock input))
      (fun _ => False) (settleWrites rt input attempt clock db) (workerStep rt db (.settle hook clock input)) := by
  simp only [workerStep, settleAttempt, hadmits]
  exact (commitSuccessor_quiet hook input attempt _ clock).mono fun id hid =>
    ⟨attempt, hadmits, hid⟩

/-- An operation is quiet, a guarded claim, or a settlement whose commit of the
runner is quiet. -/
theorem workerStep_cases (rt : Runtime) (db : Db) (op : WorkerOp) :
    QuietStep (op.Claims db) (op.Cancels rt db) (op.Closes db) db (workerStep rt db op) ∨
    (∃ now req, op = .claimWithinLimits now req ∧ claimRefusal now db req = none ∧
      workerStep rt db op = claimWrites now req db) ∨
    (∃ hook clock input attempt, op = .settle hook clock input ∧
      admitSettlement rt input db = .ok attempt ∧
      QuietStep (fun _ => False) (op.Cancels rt db) (fun _ => False)
        (settleWrites rt input attempt clock db) (workerStep rt db op)) := by
  cases op with
  | claimWithinLimits now req =>
    simp only [workerStep, claimAttemptWithinLimits]
    split
    · exact .inl (.refl db)
    · rename_i hadmitted
      exact .inr (.inl ⟨now, req, rfl, hadmitted, rfl⟩)
  | claimAttempt now cardId kind executorId generation deadline =>
    exact .inl (claimAttempt_quiet now cardId kind executorId generation deadline)
  | claimRetry now cardId attemptId contractId kind executorId generation source deadline =>
    exact .inl (claimRetryAttempt_quiet now cardId attemptId contractId kind executorId
      generation source deadline)
  | markStartObservable attemptId => exact .inl (markAttemptStartObservable_quiet attemptId)
  | markRunning attemptId => exact .inl (markAttemptRunning_quiet attemptId)
  | requestCancel attemptId reason => exact .inl (requestCancel_quiet attemptId reason)
  | defer now attemptId generation reason =>
    exact .inl (deferClaimAfterProvenNoStart_quiet now attemptId generation reason)
  | cancelPending now attemptId reason =>
    exact .inl (cancelPendingAttempt_quiet now attemptId reason)
  | cancelProjectChild now cardId authority reason =>
    left
    simp only [workerStep, transaction]
    split
    · rename_i hbody
      exact cancelProjectChild_quiet hbody
    · exact .refl db
  | settle hook clock input =>
    cases hadmits : admitSettlement rt input db with
    | error outcome =>
      left
      simp only [workerStep, settleAttempt, hadmits]
      exact .refl db
    | ok attempt =>
      exact .inr (.inr ⟨hook, clock, input, attempt, rfl, hadmits,
        workerStep_settle hook clock hadmits⟩)
  | allocateRetry now req => exact .inl (acceptDirective_quiet now req)
  | appendFact now policy resolver fact =>
    exact .inl (appendFact_quiet now policy resolver fact)
  | closeLease now attemptId generation reason =>
    exact .inl (closeLease_quiet now attemptId generation reason
      fun a ha hgeneration => ⟨rfl, a, ha, hgeneration⟩)
  | transition now req =>
    left
    simp only [workerStep, transaction]
    split
    · rename_i hbody
      exact (QuietStep.refl db).transition hbody
    · exact .refl db

end Abtars
