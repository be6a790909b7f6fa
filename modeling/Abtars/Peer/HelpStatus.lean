import Abtars.Peer.HelpAdmission
import Abtars.Task.CardEffects

/-!
# The public status of a contribution

`getPublicStatus` reads the state of a contribution off its ledger row and the status of its card.
It knows a card that is done or failed as final, and every other as running: also one that was done
and is being delivered.
-/

namespace Abtars

open Lib

variable {id : Nat}

/-- The states of `PeerHelpStatusV1`. -/
inductive PublicHelpState
  | queued | running | awaitingInput | completed | failed | withdrawalNoted
  deriving DecidableEq

def PublicHelpState.isFinal (state : PublicHelpState) : Bool :=
  state = .completed ∨ state = .failed

def PublicHelpState.isOpen (state : PublicHelpState) : Bool :=
  state = .queued ∨ state = .running ∨ state = .withdrawalNoted

structure PeerHelpStatus where
  requestId : String
  contributionRef : String
  state : PublicHelpState
  updatedAt : Millis

inductive WithdrawalStatus
  | noted | alreadyTerminal | unknownContribution | rejected

namespace PeerHelpStore

/-! ## Reports -/

def uncardedState (row : PeerHelpRow) : PublicHelpState :=
  if row.withdrawnAt.isSome then .withdrawalNoted else .running

variable (s : PeerHelpStore)

def publicState (row : PeerHelpRow) : PublicHelpState :=
  match row.state with
  | .accepted =>
    match row.localCardId with
    -- the id is tested for its truth, and 0 is no id
    | none | some 0 => uncardedState row
    | some id =>
      match s.db.kanbanBoard.get id with
      | none => uncardedState row
      | some card =>
        if card.status = .done then .completed
        else if card.status = .failed then .failed
        else uncardedState row
  | .declined | .deferred => .completed
  | .pending | .unknown => .queued

def getPublicStatus (originPeer requestId contributionRef : String) : Option PeerHelpStatus :=
  match s.requests.get (originPeer, requestId) with
  | none => none
  | some row =>
    if row.contributionRef ≠ some contributionRef then none
    else some ⟨requestId, contributionRef, s.publicState row, row.updatedAt⟩

/-! ## Withdrawals and contribution events -/

def recordWithdrawal (now : Millis) (originPeer requestId contributionRef : String) :
    WithdrawalStatus × PeerHelpStore :=
  match s.requests.get (originPeer, requestId) with
  | none => (.unknownContribution, s)
  | some row =>
    if row.contributionRef ≠ some contributionRef then (.unknownContribution, s)
    else if row.state ≠ .accepted then (.alreadyTerminal, s)
    else
      (.noted, { s with
        requests := s.requests.modify (originPeer, requestId) fun row =>
          { row with withdrawnAt := some now, updatedAt := now } })

def settleContribution (rt : Runtime) (now : Millis) (row : PeerHelpRow) (kind : PublicHelpState)
    (db : Db) : Db :=
  match row.localCardId with
  | none | some 0 => db
  | some id =>
    match kind with
    | .completed => kanbanComplete rt now id none "contribution completed" db
    | .failed => kanbanFail rt now id "contribution failed" db
    | _ => db

def recordContributionEvent (rt : Runtime) (s : PeerHelpStore) (now : Millis)
    (originPeer requestId contributionRef : String) (kind : PublicHelpState) : PeerHelpStore :=
  match s.requests.get (originPeer, requestId) with
  | none => s
  | some row =>
    if row.contributionRef ≠ some contributionRef ∨ row.state ≠ .accepted then s
    else
      { s with
        db := settleContribution rt now row kind s.db
        requests := s.requests.modify (originPeer, requestId) fun row =>
          { row with updatedAt := now } }

end PeerHelpStore

/-! ## Runs -/

/-- A call of the store, or a request to the board: a transition, a delivery claim, a
settlement. -/
inductive ContributionCall
  | help (call : HelpCall)
  | withdraw (now : Millis) (originPeer requestId contributionRef : String)
  | event (now : Millis) (originPeer requestId contributionRef : String) (kind : PublicHelpState)
  | board (call : TransitionCall)

def contributionStep (rt : Runtime) (s : PeerHelpStore) : ContributionCall → PeerHelpStore
  | .help call => helpStep s call
  | .withdraw now originPeer requestId contributionRef =>
    (s.recordWithdrawal now originPeer requestId contributionRef).2
  | .event now originPeer requestId contributionRef kind =>
    s.recordContributionEvent rt now originPeer requestId contributionRef kind
  | .board call => { s with db := transitionStep rt.redactSecrets s.db call }

def reported (s : PeerHelpStore) (originPeer requestId contributionRef : String) :
    Option PublicHelpState :=
  (s.getPublicStatus originPeer requestId contributionRef).map (·.state)

variable (originPeer : String) (requestId : String) (contributionRef : String)

def ReportedFinal (s : PeerHelpStore) : Prop :=
  ∃ state, reported s originPeer requestId contributionRef = some state ∧ state.isFinal = true

def ReportedOpen (s : PeerHelpStore) : Prop :=
  ∃ state, reported s originPeer requestId contributionRef = some state ∧ state.isOpen = true

/-! ## Conditions on a run -/

def contributionCard (s : PeerHelpStore) (originPeer requestId contributionRef : String) :
    Option Nat :=
  match s.requests.get (originPeer, requestId) with
  | none => none
  | some row =>
    if row.contributionRef = some contributionRef ∧ row.state = .accepted then
      row.localCardId.filter (· ≠ 0)
    else none

/-- Is the card one that a legal request takes out of its from-set, to another status? -/
def takes (db : Db) (req : TransitionRequest) (id : Nat) : Bool :=
  req.cardId = id ∧ declarationError req = none ∧
    (db.kanbanBoard.get id).any fun card =>
      card.status ∈ req.fromSet ∧ card.status ≠ req.toStatus ∧ extraHolds db card req

def TakesCard (status : CardStatus) (s : PeerHelpStore) :
    ContributionCall → Prop
  | .board call => call.req.toStatus = status ∧
      ∃ id ∈ contributionCard s originPeer requestId contributionRef,
        takes s.db call.req id = true
  | _ => False

instance (originPeer requestId contributionRef : String) (status : CardStatus)
    (s : PeerHelpStore) :
    ∀ call, Decidable (TakesCard originPeer requestId contributionRef status s call)
  | .help _ => inferInstanceAs (Decidable False)
  | .withdraw _ _ _ _ => inferInstanceAs (Decidable False)
  | .event _ _ _ _ _ => inferInstanceAs (Decidable False)
  | .board call => inferInstanceAs (Decidable (call.req.toStatus = status ∧
      ∃ id ∈ contributionCard s originPeer requestId contributionRef,
        takes s.db call.req id = true))

section Report

variable {s : PeerHelpStore} {originPeer requestId contributionRef : String} {row : PeerHelpRow}

theorem publicState_isOpen (s : PeerHelpStore) (row : PeerHelpRow) :
    (s.publicState row).isOpen = !(s.publicState row).isFinal := by
  have huncarded : (PeerHelpStore.uncardedState row).isOpen =
      !(PeerHelpStore.uncardedState row).isFinal := by
    rw [PeerHelpStore.uncardedState]
    split <;> rfl
  unfold PeerHelpStore.publicState
  split
  · split
    · exact huncarded
    · exact huncarded
    split
    · exact huncarded
    split
    · rfl
    split
    · rfl
    · exact huncarded
  · rfl
  · rfl
  · rfl
  · rfl

def FinalCard (db : Db) (id : Nat) : Prop :=
  cardStatus db id = some .done ∨ cardStatus db id = some .failed

theorem finalCard_of_status {db : Db} {status : CardStatus}
    (hstatus : cardStatus db id = some status) (hfinal : status = .done ∨ status = .failed) :
    FinalCard db id := by
  rcases hfinal with rfl | rfl
  · exact .inl hstatus
  · exact .inr hstatus

theorem FinalCard.card {db : Db} (h : FinalCard db id) :
    ∃ card, db.kanbanBoard.get id = some card ∧ (card.status = .done ∨ card.status = .failed) := by
  rcases h with h | h
  · obtain ⟨card, hget, hstatus⟩ := Option.map_eq_some_iff.1 h
    exact ⟨card, hget, .inl hstatus⟩
  · obtain ⟨card, hget, hstatus⟩ := Option.map_eq_some_iff.1 h
    exact ⟨card, hget, .inr hstatus⟩

theorem uncardedState_isFinal (row : PeerHelpRow) :
    (PeerHelpStore.uncardedState row).isFinal = false := by
  rw [PeerHelpStore.uncardedState]
  split <;> rfl

theorem publicState_isFinal_iff :
    (s.publicState row).isFinal = true ↔
      row.state = .declined ∨ row.state = .deferred ∨
        row.state = .accepted ∧ ∃ id ∈ row.localCardId.filter (· ≠ 0), FinalCard s.db id := by
  have huncarded := uncardedState_isFinal row
  unfold PeerHelpStore.publicState
  cases hstate : row.state with
  | accepted =>
    rcases hcard : row.localCardId with _ | _ | id
    · simp [huncarded]
    · simp [huncarded]
    cases hget : s.db.kanbanBoard.get (id + 1) with
    | none => simp [huncarded, FinalCard, cardStatus, hget]
    | some card =>
      cases hstatus : card.status with
      | done => simp [FinalCard, cardStatus, hget, hstatus, PublicHelpState.isFinal]
      | failed => simp [FinalCard, cardStatus, hget, hstatus, PublicHelpState.isFinal]
      | _ => simp [huncarded, FinalCard, cardStatus, hget, hstatus]
  | _ => simp [PublicHelpState.isFinal]

theorem reported_eq_some {state : PublicHelpState} :
    reported s originPeer requestId contributionRef = some state ↔
      ∃ row, s.requests.get (originPeer, requestId) = some row ∧
        row.contributionRef = some contributionRef ∧ s.publicState row = state := by
  rw [reported, PeerHelpStore.getPublicStatus]
  cases hget : s.requests.get (originPeer, requestId) with
  | none => simp
  | some row =>
    by_cases href : row.contributionRef = some contributionRef
    · simp [href]
    · simp [href]

theorem reportedFinal_iff :
    ReportedFinal originPeer requestId contributionRef s ↔
      ∃ row, s.requests.get (originPeer, requestId) = some row ∧
        row.contributionRef = some contributionRef ∧ (s.publicState row).isFinal = true := by
  constructor
  · rintro ⟨state, hreported, hfinal⟩
    obtain ⟨row, hget, href, rfl⟩ := reported_eq_some.1 hreported
    exact ⟨row, hget, href, hfinal⟩
  · rintro ⟨row, hget, href, hfinal⟩
    exact ⟨_, reported_eq_some.2 ⟨row, hget, href, rfl⟩, hfinal⟩

theorem not_open_of_final (h : ReportedFinal originPeer requestId contributionRef s) :
    ¬ ReportedOpen originPeer requestId contributionRef s := by
  rintro ⟨state, hreported, hopen⟩
  obtain ⟨state', hreported', hfinal⟩ := h
  obtain rfl : state = state' := Option.some.inj (hreported.symm.trans hreported')
  obtain ⟨row, -, -, rfl⟩ := reported_eq_some.1 hreported
  rw [publicState_isOpen, hfinal] at hopen
  cases hopen

end Report

/-! ## Where a call takes the card -/

variable (redactSecrets : String → String)

/-- A request takes the card along a legal pair, or leaves its status. -/
theorem cardStatus_transition (call : TransitionCall) {db : Db} {card : KanbanCard}
    (hget : db.kanbanBoard.get id = some card) :
    (takes db call.req id = true ∧ call.req.toStatus ∈ legalTransitions card.status ∧
      cardStatus (transitionStep redactSecrets db call) id = some call.req.toStatus) ∨
    (takes db call.req id = false ∧
      cardStatus (transitionStep redactSecrets db call) id = some card.status) := by
  cases htakes : takes db call.req id with
  | true =>
    refine .inl ⟨rfl, ?_⟩
    simp only [takes, hget, Option.any_some, Bool.decide_and, Bool.decide_eq_true,
      Bool.and_eq_true, decide_eq_true_eq] at htakes
    obtain ⟨rfl, hdecl, hmem, hmoved, hextra⟩ := htakes
    refine ⟨legal_of_declared hdecl hmem hmoved, ?_⟩
    rw [transitionStep, kanbanTransition, hdecl]
    rw [transitionInTransaction, hget]
    dsimp only
    rw [if_neg fun h => hmoved h.1, if_pos ⟨hmem, hextra⟩]
    exact cardStatus_apply hget
  | false =>
    refine .inr ⟨rfl, ?_⟩
    rw [← cardStatus_of_get hget, transitionStep]
    split
    · rename_i outcome db' h
      rcases kanbanTransition_cases h with ⟨_, -, rfl⟩ | ⟨_, hget', hsame, -, -, rfl⟩ |
        ⟨other, hget', hmem, hmoved, hextra, -, rfl⟩
      · rfl
      · exact cardStatus_reassert hget' hsame id
      · refine cardStatus_apply_of_ne other fun hid => ?_
        have htaken : takes db call.req id = true := by
          rw [hid] at hget ⊢
          obtain rfl : card = other := Option.some.inj (hget.symm.trans hget')
          simp [takes, hget, kanbanTransition_declared h, hmem, hmoved, hextra]
        rw [htaken] at htakes
        cases htakes
    · rfl

theorem cardStatus_help {s : PeerHelpStore} (call : HelpCall) {card : KanbanCard}
    (hget : s.db.kanbanBoard.get id = some card) :
    cardStatus (helpStep s call).db id = some card.status := by
  rcases helpStep_board s call with ⟨hboard, -⟩ | ⟨_, _, new, _, -, -, -, -, -, hboard, -⟩
  · rw [cardStatus, hboard, hget, Option.map_some]
  · rw [cardStatus, Table.get_insert_of_some hboard hget, Option.map_some]

theorem applied_snd (now : Millis) (req : TransitionRequest) (db : Db) :
    (applied redactSecrets now req db).2 = transitionStep redactSecrets db ⟨now, req⟩ := by
  rw [applied, transitionStep]
  rcases kanbanTransition redactSecrets now req db with _ | ⟨_ | _ | _, _⟩
  · rfl
  · rfl
  · rfl
  · rfl

theorem finalCard_applied (now : Millis) {req : TransitionRequest} {db : Db}
    (hto : req.toStatus = .done ∨ req.toStatus = .failed) (h : FinalCard db id) :
    FinalCard (applied redactSecrets now req db).2 id := by
  rw [applied_snd]
  obtain ⟨card, hget, hfinal⟩ := h.card
  rcases cardStatus_transition redactSecrets ⟨now, req⟩ hget with ⟨-, -, hstatus⟩ | ⟨-, hstatus⟩
  · exact finalCard_of_status hstatus hto
  · exact finalCard_of_status hstatus hfinal

theorem finalCard_settle (rt : Runtime) (now : Millis) (row : PeerHelpRow) (kind : PublicHelpState)
    {db : Db} (h : FinalCard db id) :
    FinalCard (PeerHelpStore.settleContribution rt now row kind db) id := by
  unfold PeerHelpStore.settleContribution
  split
  · exact h
  · exact h
  split
  · exact finalCard_applied rt.redactSecrets now (.inl rfl) h
  · exact finalCard_applied rt.redactSecrets now (.inr rfl) h
  · exact h

/-! ## Final reports -/

def PeerHelpRow.settled (row : PeerHelpRow) : HelpRowState × Option String × Option Nat :=
  (row.state, row.contributionRef, row.localCardId)

theorem contributionStep_row (rt : Runtime) {s : PeerHelpStore} (call : ContributionCall)
    {k : String × String} {row : PeerHelpRow} (hget : s.requests.get k = some row)
    (hmoved : row.state ≠ .pending) :
    ∃ row', (contributionStep rt s call).requests.get k = some row' ∧
      row'.settled = row.settled := by
  have hmodify : ∀ (k' : String × String) (f : PeerHelpRow → PeerHelpRow)
      (hf : ∀ r, Keyed.key (f r) = Keyed.key r), (∀ r, (f r).settled = r.settled) →
      ∃ row', (s.requests.modify k' f hf).get k = some row' ∧ row'.settled = row.settled := by
    intro k' f hf hsettled
    have hmap := Table.map_get_modify s.requests k' f hf k PeerHelpRow.settled hsettled
    rw [hget, Option.map_some] at hmap
    exact Option.map_eq_some_iff.1 hmap
  cases call with
  | help call =>
    obtain ⟨row', hget', hmoves⟩ := (helpStep_row s call k).moved row hget
    exact ⟨row', hget', by rw [hmoves.eq hmoved]⟩
  | withdraw now originPeer requestId contributionRef =>
    rw [contributionStep, PeerHelpStore.recordWithdrawal]
    split
    · exact ⟨row, hget, rfl⟩
    split
    · exact ⟨row, hget, rfl⟩
    split
    · exact ⟨row, hget, rfl⟩
    · dsimp only
      exact hmodify _ _ _ fun _ => rfl
  | event now originPeer requestId contributionRef kind =>
    rw [contributionStep, PeerHelpStore.recordContributionEvent]
    split
    · exact ⟨row, hget, rfl⟩
    split
    · exact ⟨row, hget, rfl⟩
    · dsimp only
      exact hmodify _ _ _ fun _ => rfl
  | board call => exact ⟨row, hget, rfl⟩

section Final

variable (rt : Runtime) {s : PeerHelpStore} {call : ContributionCall}
  {originPeer requestId contributionRef : String}

theorem contributionCard_eq_some :
    contributionCard s originPeer requestId contributionRef = some id ↔
      ∃ row, s.requests.get (originPeer, requestId) = some row ∧
        row.contributionRef = some contributionRef ∧ row.state = .accepted ∧
        row.localCardId.filter (· ≠ 0) = some id := by
  rw [contributionCard]
  cases hget : s.requests.get (originPeer, requestId) with
  | none => simp
  | some row =>
    by_cases hrow : row.contributionRef = some contributionRef ∧ row.state = .accepted
    · simp [hrow]
    simp only [if_neg hrow, Option.some.injEq, exists_eq_left']
    constructor
    · intro h
      cases h
    · rintro ⟨href, hstate, -⟩
      exact absurd ⟨href, hstate⟩ hrow

/-- Where a call takes the final card of a contribution, when it neither queues it again nor
claims it for delivery. -/
theorem finalCard_step (hcard : contributionCard s originPeer requestId contributionRef = some id)
    (hfinal : FinalCard s.db id)
    (hqueued : ¬ TakesCard originPeer requestId contributionRef .queued s call)
    (hclaimed : ¬ TakesCard originPeer requestId contributionRef .delivering s call) :
    FinalCard (contributionStep rt s call).db id := by
  obtain ⟨card, hget, hstatus⟩ := hfinal.card
  cases call with
  | help call => exact finalCard_of_status (cardStatus_help call hget) hstatus
  | withdraw now originPeer requestId contributionRef =>
    rw [contributionStep, PeerHelpStore.recordWithdrawal]
    split
    · exact hfinal
    split
    · exact hfinal
    split
    · exact hfinal
    · exact hfinal
  | event now originPeer requestId contributionRef kind =>
    rw [contributionStep, PeerHelpStore.recordContributionEvent]
    split
    · exact hfinal
    split
    · exact hfinal
    · exact finalCard_settle rt now _ kind hfinal
  | board call =>
    rcases cardStatus_transition rt.redactSecrets call hget with
      ⟨htakes, hlegal, hmoved⟩ | ⟨-, hsame⟩
    · have hnot : ∀ status, ¬ TakesCard originPeer requestId contributionRef status s
          (.board call) → call.req.toStatus ≠ status :=
        fun status h hto => h ⟨hto, id, hcard, htakes⟩
      have hnotQueued := hnot .queued hqueued
      have hnotDelivering := hnot .delivering hclaimed
      -- of the pairs out of a final status only the one from done to failed is left
      have hfailed : call.req.toStatus = .failed := by
        rcases hstatus with h | h
        · rw [h] at hlegal
          simpa [legalTransitions, hnotQueued, hnotDelivering] using hlegal
        · rw [h] at hlegal
          simp [legalTransitions, hnotQueued] at hlegal
      exact finalCard_of_status hmoved (.inr hfailed)
    · exact finalCard_of_status hsame hstatus

theorem final_step (hfinal : ReportedFinal originPeer requestId contributionRef s)
    (hqueued : ¬ TakesCard originPeer requestId contributionRef .queued s call)
    (hclaimed : ¬ TakesCard originPeer requestId contributionRef .delivering s call) :
    ReportedFinal originPeer requestId contributionRef (contributionStep rt s call) := by
  obtain ⟨row, hget, href, hstate⟩ := reportedFinal_iff.1 hfinal
  rw [publicState_isFinal_iff] at hstate
  have hmoved : row.state ≠ .pending := by
    rcases hstate with h | h | ⟨h, -⟩
    · simp [h]
    · simp [h]
    · simp [h]
  obtain ⟨row', hget', hsettled⟩ := contributionStep_row rt call hget hmoved
  simp only [PeerHelpRow.settled, Prod.mk.injEq] at hsettled
  obtain ⟨hstate', href', hcard'⟩ := hsettled
  refine reportedFinal_iff.2 ⟨row', hget', href'.trans href, ?_⟩
  rw [publicState_isFinal_iff, hstate', hcard']
  refine hstate.imp id (Or.imp id ?_)
  rintro ⟨haccepted, id, hid, hcardFinal⟩
  exact ⟨haccepted, id, hid, finalCard_step rt
    (contributionCard_eq_some.2 ⟨row, hget, href, haccepted, hid⟩) hcardFinal hqueued hclaimed⟩

/-- A delivery claim turns a final report into an open one. -/
theorem open_of_claim (h : TakesCard originPeer requestId contributionRef .delivering s call) :
    ReportedFinal originPeer requestId contributionRef s ∧
      ReportedOpen originPeer requestId contributionRef (contributionStep rt s call) := by
  cases call with
  | help call => exact h.elim
  | withdraw => exact h.elim
  | event => exact h.elim
  | board call =>
    obtain ⟨hto, id, hid, htakes⟩ := h
    obtain ⟨row, hget, href, haccepted, hlink⟩ := contributionCard_eq_some.1 hid
    have hcard : ∃ card, s.db.kanbanBoard.get id = some card := by
      simp only [takes, Bool.decide_and, Bool.and_eq_true, Bool.decide_eq_true] at htakes
      obtain ⟨card, hcard, -⟩ := (Option.any_eq_true _ _).1 htakes.2.2
      exact ⟨card, hcard⟩
    obtain ⟨card, hcard⟩ := hcard
    rcases cardStatus_transition rt.redactSecrets call hcard with
      ⟨-, hlegal, hmoved⟩ | ⟨hnot, -⟩
    · -- of all statuses only done leads to delivering
      have hdone : card.status = .done := by
        rw [hto] at hlegal
        cases hstatus : card.status <;> simp [hstatus, legalTransitions] at hlegal
        rfl
      have hfinalCard := finalCard_of_status (cardStatus_of_get hcard) (.inl hdone)
      refine ⟨reportedFinal_iff.2 ⟨row, hget, href, publicState_isFinal_iff.2 (.inr (.inr
        ⟨haccepted, id, hlink, hfinalCard⟩))⟩, ?_⟩
      refine ⟨_, reported_eq_some.2 ⟨row, hget, href, rfl⟩, ?_⟩
      rw [publicState_isOpen, Bool.not_eq_true', Bool.eq_false_iff, Ne, publicState_isFinal_iff]
      rintro (h | h | ⟨-, id', hlink', hfinal⟩)
      · rw [haccepted] at h
        cases h
      · rw [haccepted] at h
        cases h
      obtain rfl : id = id' := Option.some.inj (hlink.symm.trans hlink')
      rw [contributionStep, FinalCard] at hfinal
      rw [hmoved, hto] at hfinal
      rcases hfinal with h | h
      · cases h
      · cases h
    · rw [hnot] at htakes
      cases htakes

/-- In a run that does not queue the card of a contribution again, a contribution that was reported
completed or failed stays so exactly when no call claims its card for delivery. -/
theorem final_report_stays (s : PeerHelpStore) (calls : List ContributionCall)
    (originPeer requestId contributionRef : String)
    (hqueued : StepsMeet (contributionStep rt)
      (fun s call => ¬ TakesCard originPeer requestId contributionRef .queued s call) s calls) :
    NeverAfter (contributionStep rt) (ReportedFinal originPeer requestId contributionRef)
        (ReportedOpen originPeer requestId contributionRef) s calls ↔
      StepsMeet (contributionStep rt)
        (fun s call => ¬ TakesCard originPeer requestId contributionRef .delivering s call) s
        calls := by
  have hkept := fun (s : PeerHelpStore) (call : ContributionCall)
      (hfinal : ReportedFinal originPeer requestId contributionRef s)
      (hqueued : ¬ TakesCard originPeer requestId contributionRef .queued s call)
      (hclaimed : ¬ TakesCard originPeer requestId contributionRef .delivering s call) =>
    final_step rt hfinal hqueued hclaimed
  exact neverAfter_iff (fun _ h => not_open_of_final h) hkept
    (fun _ _ hclaimed => open_of_claim rt hclaimed) calls s hqueued

end Final

/-! ## A contribution that is delivered -/

def emptyHelpStore : PeerHelpStore := ⟨Db.empty, 1, ∅, ∅, []⟩

def supervisedRoot (state : ProjectState) : Table ProjectSupervisionRow :=
  Table.ofRows [⟨1, state, 1⟩]

def contributedStore : PeerHelpStore :=
  let s := helpRun emptyHelpStore
    [.reserve 0 "kp" "req1" "hash1",
      .acceptGeneric (some fun _ _ _ db => .ok ⟨db.workflowRuns, supervisedRoot .awaitingContract⟩)
        0 "help_abc" ⟨"kp", "req1", "hash1"⟩
        ⟨"do x", "[help:kp] do x", "kp", "req1", "silent", none⟩
        ⟨"req1", .accepted, some "help_abc", none, none, none, none, none, none, none, none⟩]
  { s with db := { s.db with projectSupervision := supervisedRoot .accepted } }

def finishContribution : List ContributionCall :=
  [.board ⟨1, settleCardRequest 1 [.queued] .running .dispatch "dispatch" [] none⟩,
    .board ⟨2, settleCardRequest 1 [.running, .queued] .done .settleDone
      "project settlement complete" (completionFields 2 none "did x") (some (.rootCompletion 1))⟩]

def deliverContribution : List ContributionCall :=
  [.board ⟨3, claimRequest 1 1 "project delivery claim" (.projectDeliveryClaim 1)⟩,
    .board ⟨4, settleRequest 1 .delivered "delivery complete" [.deliveredAt (some 4)] none⟩]

theorem final_report_stays_finished :
    NeverAfter (contributionStep .plain) (ReportedFinal "kp" "req1" "help_abc")
      (ReportedOpen "kp" "req1" "help_abc") contributedStore finishContribution :=
  (final_report_stays .plain contributedStore finishContribution "kp" "req1" "help_abc"
    (by decide +kernel)).2 (by decide +kernel)

/-- A contribution that was reported completed is reported running once it is delivered. -/
theorem delivered_reported_running :
    StepsMeet (contributionStep .plain)
      (fun s call => ¬ TakesCard "kp" "req1" "help_abc" .queued s call) contributedStore
      (finishContribution ++ deliverContribution) ∧
    ¬ NeverAfter (contributionStep .plain) (ReportedFinal "kp" "req1" "help_abc")
      (ReportedOpen "kp" "req1" "help_abc") contributedStore
      (finishContribution ++ deliverContribution) := by
  refine ⟨by decide +kernel, fun hnever => ?_⟩
  have hcompleted : reported (runFrom (contributionStep .plain) contributedStore
      finishContribution) "kp" "req1" "help_abc" = some .completed := by decide +kernel
  have hrunning : reported (runFrom (contributionStep .plain) contributedStore
      (finishContribution ++ deliverContribution)) "kp" "req1" "help_abc" = some .running := by
    decide +kernel
  exact hnever finishContribution deliverContribution [] (by rw [List.append_nil])
    ⟨_, hcompleted, rfl⟩ ⟨_, hrunning, rfl⟩

end Abtars
