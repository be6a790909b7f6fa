import Abtars.Board.Delivery

/-!
# Runs of deliveries

A run interleaves calls of `deliverCard`, on any snapshots, with the ends of the
sends they wait for.  The state keeps the sends in flight and the log of starts
and ends.  For one card that is no root, `Progressed` says all a step can do;
`DeliveryBounds` holds of every run; `Settleable` holds of the runs whose uncertain
sends end while the card has no delivery result.  `Spends` is what a poll can do to
any card.
-/

namespace Abtars

open Lib

/-! ## Runs -/

inductive DeliveryEvent
  | started (send : Send)
  | ended (cardId : Nat) (result : SendResult)

structure DeliveryState where
  db : Db
  inFlight : List Send
  log : List DeliveryEvent

inductive DeliveryOp
  | deliver (now : Millis) (card : KanbanCard)
  -- the send at the given place among those in flight
  | settle (now : Millis) (place : Nat) (result : SendResult)

variable (redactSecrets : String → String)

def startDelivery (deps : DeliverDeps) (now : Millis) (card : KanbanCard) (s : DeliveryState) :
    DeliveryState :=
  match beginDelivery redactSecrets deps now card s.db with
  | (none, db) => { s with db }
  | (some send, db) =>
    { db := db
      inFlight := s.inFlight ++ [send]
      log := s.log ++ [.started send] }

def endDelivery (now : Millis) (place : Nat) (result : SendResult) (s : DeliveryState) :
    DeliveryState :=
  match s.inFlight[place]? with
  | none => s
  | some send =>
    { db := recordOutcome redactSecrets now send.cardId s.db result
      inFlight := s.inFlight.eraseIdx place
      log := s.log ++ [.ended send.cardId result] }

def deliveryStep (deps : DeliverDeps) (s : DeliveryState) :
    DeliveryOp → DeliveryState
  | .deliver now card => startDelivery redactSecrets deps now card s
  | .settle now place result => endDelivery redactSecrets now place result s

def DeliveryState.idle (db : Db) : DeliveryState := ⟨db, [], []⟩

variable (s : DeliveryState)

def flights (cardId : Nat) : Nat :=
  s.inFlight.countP fun send => send.cardId = cardId

def DeliveryEvent.cardId : DeliveryEvent → Nat
  | .started send => send.cardId
  | .ended cardId _ => cardId

def cardLog (cardId : Nat) : List DeliveryEvent :=
  s.log.filter fun event => event.cardId = cardId

def DeliveryEvent.isStart : DeliveryEvent → Bool
  | .started _ => true
  | .ended _ _ => false

def SendResult.isFinal : SendResult → Bool
  | .resolved .notSent => false
  | _ => true

def DeliveryEvent.isFinal : DeliveryEvent → Bool
  | .started _ => false
  | .ended _ result => result.isFinal

def sendsOf (cardId : Nat) : Nat :=
  (cardLog s cardId).countP (·.isStart)

/-! ## Rows -/

def claimedRow (now : Millis) (attempts : Int) (card : KanbanCard) : KanbanCard :=
  { card with status := .delivering, updatedAt := now, deliveryAttempts := some attempts }

def endedRow (now : Millis) (result : SendResult) (card : KanbanCard) : KanbanCard :=
  match result with
  | .resolved .sent =>
    { card with
      status := .delivered
      updatedAt := now
      deliveryResult := some .sent
      deliveryReceipt := some "sent"
      deliveredAt := some now }
  | .resolved .notSent =>
    { card with
      status := .done
      updatedAt := now
      deliveryResult := some .definitelyNotSent }
  -- a send in doubt is recorded only over an empty result
  | _ =>
    if card.deliveryResult = none then
      { card with status := .done, updatedAt := now, deliveryResult := some .unknown }
    else card

section Rows

variable {other : Nat}

variable {redactSecrets : String → String} {now : Millis} {db : Db} {id : Nat} {card : KanbanCard}

theorem kanbanClaimDelivery_eq (hget : db.kanbanBoard.get id = some card) :
    kanbanClaimDelivery redactSecrets now id db =
      if card.status = .done ∧ deliveryBelowCap card = true then
        (true, applyTransition redactSecrets now
          (claimRequest id (nextAttempt db id) "delivery claim" .deliveryAttemptsBelowCap) card db)
      else (false, db) := by
  rw [kanbanClaimDelivery, applied_eq rfl (by simp [claimRequest]) hget]
  refine if_congr ?_ rfl rfl
  simp [claimRequest, extraHolds, ExtraPredicate.holds]

theorem nextAttempt_eq (hget : db.kanbanBoard.get id = some card) :
    nextAttempt db id = card.deliveryAttempts.getD 0 + 1 := by
  simp [nextAttempt, hget]

variable (redactSecrets now) in
theorem get_recordOutcome (hget : db.kanbanBoard.get id = some card) (result : SendResult) :
    (recordOutcome redactSecrets now id db result).kanbanBoard.get id =
      some (if card.status = .delivering then endedRow now result card else card) := by
  have hunknown : (markUnknown redactSecrets now id db).kanbanBoard.get id =
      some (if card.status = .delivering then endedRow now .rejected card else card) := by
    refine (get_applied_same rfl (by simp [settleRequest]) hget).trans ?_
    by_cases hclaimed : card.status = .delivering
    · by_cases hnone : card.deliveryResult = none
      · simp [settleRequest, extraHolds, ExtraPredicate.holds, hclaimed, hnone, writeCard,
          FieldWrite.apply, endedRow]
      · simp [settleRequest, extraHolds, ExtraPredicate.holds, hclaimed, hnone, endedRow]
    · simp [settleRequest, hclaimed]
  match result with
  | .resolved .sent =>
    refine (get_applied_same rfl (by simp [settleRequest]) hget).trans ?_
    simp [settleRequest, extraHolds, writeCard, FieldWrite.apply, endedRow]
  | .resolved .notSent =>
    refine (get_applied_same rfl (by simp [settleRequest]) hget).trans ?_
    simp [settleRequest, extraHolds, writeCard, FieldWrite.apply, endedRow]
  | .resolved .unknown => exact hunknown
  | .rejected => exact hunknown

theorem get_recordOutcome_of_ne (hne : other ≠ id) (result : SendResult) :
    (recordOutcome redactSecrets now id db result).kanbanBoard.get other =
      db.kanbanBoard.get other := by
  match result with
  | .resolved .sent => exact get_applied_of_ne hne
  | .resolved .notSent => exact get_applied_of_ne hne
  | .resolved .unknown => exact get_applied_of_ne hne
  | .rejected => exact get_applied_of_ne hne

variable (redactSecrets now db) in
theorem get_claimCard_of_ne {fresh : KanbanCard} (hne : other ≠ fresh.id) :
    (claimCard redactSecrets now fresh db).2.kanbanBoard.get other = db.kanbanBoard.get other := by
  unfold claimCard
  split
  · split
    · rfl
    · split
      · exact get_applied_of_ne hne
      · rfl
  · exact get_applied_of_ne hne

variable (deps : DeliverDeps) (snapshot : KanbanCard)

theorem get_beginDelivery_of_ne (hne : other ≠ snapshot.id) :
    (beginDelivery redactSecrets deps now snapshot db).2.kanbanBoard.get other =
      db.kanbanBoard.get other := by
  unfold beginDelivery
  split
  · rfl
  rename_i fresh hfresh
  have hid : fresh.id = snapshot.id := Table.key_of_get hfresh
  have hclaim := get_claimCard_of_ne redactSecrets now db (hid ▸ hne)
  split
  · rfl
  split
  · rename_i hlost
    rwa [hlost] at hclaim
  rename_i hwon
  rw [hwon] at hclaim
  unfold dispatchClaimed
  split
  · exact (get_applied_of_ne hne).trans hclaim
  split
  · split
    · exact hclaim
    · exact (get_applied_of_ne hne).trans hclaim
  · exact hclaim

/-- What a claimed card's call comes to: a row that is done again or delivered, or a
send that leaves the row claimed. -/
inductive Dispatched (id : Nat) (card : KanbanCard) : Option Send × Db → Prop
  | ended (db : Db) (row : KanbanCard) (hget : db.kanbanBoard.get id = some row)
      (htype : row.type = card.type) (hattempts : row.deliveryAttempts = card.deliveryAttempts)
      (hstatus : row.status = .done ∨ row.status = .delivered) : Dispatched id card (none, db)
  | sending (db : Db) (send : Send) (hget : db.kanbanBoard.get id = some card)
      (hsend : send.cardId = id) : Dispatched id card (some send, db)

theorem dispatchClaimed_dispatched (fresh : KanbanCard)
    (hget : db.kanbanBoard.get snapshot.id = some card) (hclaimed : card.status = .delivering) :
    Dispatched snapshot.id card (dispatchClaimed redactSecrets deps now snapshot fresh db) := by
  unfold dispatchClaimed
  split
  · refine .ended _ _ (get_applied_same rfl (by simp [settleRequest]) hget) ?_ ?_ ?_ <;>
      simp [settleRequest, extraHolds, hclaimed, writeCard, FieldWrite.apply]
  split
  · split
    · exact .sending _ _ hget rfl
    · refine .ended _ _ (get_applied_same rfl (by simp [settleRequest]) hget) ?_ ?_ ?_ <;>
        simp [settleRequest, extraHolds, hclaimed, writeCard, FieldWrite.apply]
  · exact .sending _ _ hget rfl

/-- Everything a call up to its send does to a card that is no root: nothing, or a
claim of a done card below the cap. -/
theorem beginDelivery_cases (hget : db.kanbanBoard.get snapshot.id = some card)
    (hroot : card.type ≠ some "O") :
    beginDelivery redactSecrets deps now snapshot db = (none, db) ∨
    (card.status = .done ∧ deliveryBelowCap card = true ∧ card.deliveryResult ≠ some .unknown ∧
      Dispatched snapshot.id (claimedRow now (card.deliveryAttempts.getD 0 + 1) card)
        (beginDelivery redactSecrets deps now snapshot db)) := by
  have hid : card.id = snapshot.id := Table.key_of_get hget
  unfold beginDelivery
  rw [hget]
  dsimp only
  split
  · exact .inl rfl
  rename_i hfresh
  have hclaim : claimCard redactSecrets now card db =
      kanbanClaimDelivery redactSecrets now snapshot.id db := by
    rw [claimCard, if_neg hroot, hid]
  rw [hclaim, kanbanClaimDelivery_eq hget, nextAttempt_eq hget]
  by_cases hwins : card.status = .done ∧ deliveryBelowCap card = true
  · rw [if_pos hwins]
    refine .inr ⟨hwins.1, hwins.2, fun hunknown => hfresh (.inr (.inr hunknown)), ?_⟩
    refine dispatchClaimed_dispatched deps snapshot card ?_ rfl
    exact get_applyTransition_same hget
  · rw [if_neg hwins]
    exact .inl rfl

end Rows

/-! ## One step -/

/-- What a step does to a card that is no root: nothing, a claim that ends without a
send, a claim with a send, or the end of a send. -/
inductive Progressed (id : Nat) (s s' : DeliveryState) (op : DeliveryOp)
    (row row' : KanbanCard) : Prop
  | quiet (hrow : row' = row) (hflights : flights s' id = flights s id)
      (hlog : cardLog s' id = cardLog s id)
  | skipped (hdone : row.status = .done) (hopen : row.deliveryResult ≠ some .unknown)
      (hstatus : row'.status = .done ∨ row'.status = .delivered)
      (hattempts : row'.deliveryAttempts = some (row.deliveryAttempts.getD 0 + 1))
      (hflights : flights s' id = flights s id) (hlog : cardLog s' id = cardLog s id)
  | started (now : Millis) (send : Send) (hdone : row.status = .done)
      (hbelow : deliveryBelowCap row = true) (hopen : row.deliveryResult ≠ some .unknown)
      (hrow : row' = claimedRow now (row.deliveryAttempts.getD 0 + 1) row)
      (hflights : flights s' id = flights s id + 1)
      (hlog : cardLog s' id = cardLog s id ++ [.started send])
  | ended (now : Millis) (place : Nat) (result : SendResult) (hop : op = .settle now place result)
      (hrow : row' = if row.status = .delivering then endedRow now result row else row)
      (hflights : flights s' id + 1 = flights s id)
      (hlog : cardLog s' id = cardLog s id ++ [.ended id result])

theorem endedRow_columns (now : Millis) (result : SendResult) (card : KanbanCard) :
    (endedRow now result card).type = card.type ∧
      (endedRow now result card).deliveryAttempts = card.deliveryAttempts := by
  unfold endedRow
  split
  · exact ⟨rfl, rfl⟩
  · exact ⟨rfl, rfl⟩
  · split <;> exact ⟨rfl, rfl⟩

theorem endedRow_closed (now : Millis) {result : SendResult} {card : KanbanCard}
    (hclaimed : card.status = .delivering) (hfinal : result.isFinal = true) :
    (endedRow now result card).status = .delivered ∨
      (endedRow now result card).status = .delivering ∨
      (endedRow now result card).deliveryResult = some .unknown := by
  unfold endedRow
  split
  · exact .inl rfl
  · cases hfinal
  · split
    · exact .inr (.inr rfl)
    · exact .inr (.inl hclaimed)

theorem flights_eraseIdx {inFlight : List Send} {place : Nat} {send : Send}
    (h : inFlight[place]? = some send) (id : Nat) :
    (inFlight.eraseIdx place).countP (fun send => send.cardId = id) +
        (if send.cardId = id then 1 else 0) =
      inFlight.countP fun send => send.cardId = id := by
  obtain ⟨hlt, hsend⟩ := List.getElem?_eq_some_iff.1 h
  have hperm := (List.getElem_cons_eraseIdx_perm hlt).countP_eq fun send => send.cardId = id
  rw [List.countP_cons, hsend] at hperm
  simpa using hperm

section Step

variable {redactSecrets : String → String} {deps : DeliverDeps} {s : DeliveryState} {id : Nat}
  {row : KanbanCard}

theorem beginDelivery_send {now : Millis} {snapshot : KanbanCard} {db db' : Db} {send : Send}
    (h : beginDelivery redactSecrets deps now snapshot db = (some send, db')) :
    send.cardId = snapshot.id := by
  unfold beginDelivery at h
  split at h
  · cases h
  split at h
  · cases h
  split at h
  · cases h
  unfold dispatchClaimed at h
  split at h
  · cases h
  split at h
  · split at h
    · cases h
      rfl
    · cases h
  · cases h
    rfl

variable (redactSecrets deps) in
/-- **Everything a step does to a card that is no root.** -/
theorem deliveryStep_cases (op : DeliveryOp) (hget : s.db.kanbanBoard.get id = some row)
    (hroot : row.type ≠ some "O") :
    ∃ row', (deliveryStep redactSecrets deps s op).db.kanbanBoard.get id = some row' ∧
      row'.type = row.type ∧
        Progressed id s (deliveryStep redactSecrets deps s op) op row row' := by
  cases op with
  | deliver now snapshot =>
    simp only [deliveryStep, startDelivery]
    by_cases hid : id = snapshot.id
    · subst hid
      rcases beginDelivery_cases deps snapshot hget hroot with hnone | ⟨hdone, hbelow, hopen, hd⟩
      · rw [hnone]
        exact ⟨row, hget, rfl, .quiet rfl rfl rfl⟩
      generalize beginDelivery redactSecrets deps now snapshot s.db = outcome at hd
      cases hd with
      | ended db row' hrow htype hattempts hstatus =>
        exact ⟨row', hrow, htype, .skipped hdone hopen hstatus hattempts rfl rfl⟩
      | sending db send hrow hsend =>
        refine ⟨_, hrow, rfl, .started now send hdone hbelow hopen rfl ?_ ?_⟩
        · simp [flights, List.countP_append, hsend]
        · simp [cardLog, List.filter_append, DeliveryEvent.cardId, hsend]
    · have hsame : (beginDelivery redactSecrets deps now snapshot s.db).2.kanbanBoard.get id =
          some row := (get_beginDelivery_of_ne deps snapshot hid).trans hget
      generalize hbegin : beginDelivery redactSecrets deps now snapshot s.db = outcome at hsame
      obtain ⟨sent, db⟩ := outcome
      cases sent with
      | none => exact ⟨row, hsame, rfl, .quiet rfl rfl rfl⟩
      | some send =>
        have hother : send.cardId ≠ id := by
          rw [beginDelivery_send hbegin]
          exact Ne.symm hid
        refine ⟨row, hsame, rfl, .quiet rfl ?_ ?_⟩
        · simp [flights, List.countP_append, hother]
        · simp [cardLog, List.filter_append, DeliveryEvent.cardId, hother]
  | settle now place result =>
    simp only [deliveryStep, endDelivery]
    cases hsend : s.inFlight[place]? with
    | none => exact ⟨row, hget, rfl, .quiet rfl rfl rfl⟩
    | some send =>
      have hcount := flights_eraseIdx hsend id
      by_cases hid : send.cardId = id
      · subst hid
        rw [if_pos rfl] at hcount
        refine ⟨_, get_recordOutcome redactSecrets now hget result, ?_, .ended now place result rfl rfl hcount ?_⟩
        · split
          · exact (endedRow_columns now result row).1
          · rfl
        · simp [cardLog, List.filter_append, DeliveryEvent.cardId]
      · rw [if_neg hid, Nat.add_zero] at hcount
        refine ⟨row, ?_, rfl, .quiet rfl hcount ?_⟩
        · rw [get_recordOutcome_of_ne (Ne.symm hid)]
          exact hget
        · simp [cardLog, List.filter_append, DeliveryEvent.cardId, hid]

end Step

/-! ## What every run keeps -/

structure Claimable (card : KanbanCard) : Prop where
  done : card.status = .done
  noRoot : card.type ≠ some "O"
  counted : 0 ≤ card.deliveryAttempts.getD 0

structure DeliveryBounds (id : Nat) (s : DeliveryState) (row : KanbanCard) : Prop where
  noRoot : row.type ≠ some "O"
  single : flights s id ≤ 1
  claimed : flights s id = 1 → row.status = .delivering
  counted : (sendsOf s id : Int) ≤ row.deliveryAttempts.getD 0
  capped : sendsOf s id ≤ 5
  /-- After a final end the card is closed to further claims. -/
  closed : (∃ event ∈ cardLog s id, event.isFinal = true) →
    flights s id = 0 ∧ (row.status = .delivered ∨ row.status = .delivering ∨
      row.deliveryResult = some .unknown)
  ordered : (cardLog s id).Pairwise fun earlier later =>
    ¬ (earlier.isFinal = true ∧ later.isStart = true)

theorem Claimable.bounds {id : Nat} {db : Db} {row : KanbanCard} (h : Claimable row) :
    DeliveryBounds id (.idle db) row where
  noRoot := h.noRoot
  single := Nat.zero_le 1
  claimed hflight := by cases hflight
  counted := h.counted
  capped := Nat.zero_le 5
  closed := by simp [cardLog, DeliveryState.idle]
  ordered := by simp [cardLog, DeliveryState.idle]

section Bounds

variable {id : Nat} {s s' : DeliveryState} {row row' : KanbanCard}

theorem DeliveryBounds.open_of_claim (h : DeliveryBounds id s row) (hdone : row.status = .done)
    (hopen : row.deliveryResult ≠ some .unknown) :
    ¬ ∃ event ∈ cardLog s id, event.isFinal = true := by
  intro hfinal
  rcases (h.closed hfinal).2 with hstatus | hstatus | hunknown
  · rw [hdone] at hstatus
    cases hstatus
  · rw [hdone] at hstatus
    cases hstatus
  · exact hopen hunknown

theorem DeliveryBounds.idle_of_done (h : DeliveryBounds id s row) (hdone : row.status = .done) :
    flights s id = 0 := by
  have hsingle := h.single
  by_contra hflight
  have hclaimed := h.claimed (by omega)
  rw [hdone] at hclaimed
  cases hclaimed

/-- **The bounds are kept by every step.** -/
theorem DeliveryBounds.step {op : DeliveryOp} (h : DeliveryBounds id s row)
    (hroot : row'.type ≠ some "O") (hstep : Progressed id s s' op row row') : DeliveryBounds id s' row' := by
  cases hstep with
  | quiet hrow hflights hlog =>
    subst hrow
    refine ⟨hroot, ?_, ?_, ?_, ?_, ?_, ?_⟩
    · rw [hflights]
      exact h.single
    · rw [hflights]
      exact h.claimed
    · rw [sendsOf, hlog]
      exact h.counted
    · rw [sendsOf, hlog]
      exact h.capped
    · rw [hlog, hflights]
      exact h.closed
    · rw [hlog]
      exact h.ordered
  | skipped hdone hopen hstatus hattempts hflights hlog =>
    have hidle := h.idle_of_done hdone
    refine ⟨hroot, ?_, ?_, ?_, ?_, ?_, ?_⟩
    · omega
    · omega
    · rw [sendsOf, hlog, hattempts, Option.getD_some]
      have hcounted := h.counted
      rw [sendsOf] at hcounted
      omega
    · rw [sendsOf, hlog]
      exact h.capped
    · rw [hlog]
      exact fun hfinal => absurd hfinal (h.open_of_claim hdone hopen)
    · rw [hlog]
      exact h.ordered
  | started now send hdone hbelow hopen hrow hflights hlog =>
    subst hrow
    have hidle := h.idle_of_done hdone
    have hnone := h.open_of_claim hdone hopen
    have hcounted := h.counted
    have hsends : sendsOf s' id = sendsOf s id + 1 := by
      rw [sendsOf, hlog, List.countP_append]
      rfl
    simp only [deliveryBelowCap, decide_eq_true_eq] at hbelow
    refine ⟨hroot, ?_, fun _ => rfl, ?_, ?_, ?_, ?_⟩
    · omega
    · simp only [claimedRow, Option.getD_some]
      omega
    · omega
    · rw [hlog]
      rintro ⟨event, hevent, hfinal⟩
      rcases List.mem_append.1 hevent with hold | hnew
      · exact absurd ⟨event, hold, hfinal⟩ hnone
      · rw [List.mem_singleton.1 hnew] at hfinal
        cases hfinal
    · rw [hlog, List.pairwise_append]
      refine ⟨h.ordered, List.pairwise_singleton _ _, ?_⟩
      rintro earlier hearlier later - ⟨hfinal, -⟩
      exact hnone ⟨earlier, hearlier, hfinal⟩
  | ended now place result hop hrow hflights hlog =>
    have hsingle := h.single
    have hclaimed : row.status = .delivering := h.claimed (by omega)
    rw [if_pos hclaimed] at hrow
    subst hrow
    have hsends : sendsOf s' id = sendsOf s id := by
      rw [sendsOf, hlog, List.countP_append]
      rfl
    refine ⟨hroot, ?_, ?_, ?_, ?_, ?_, ?_⟩
    · omega
    · omega
    · rw [hsends, (endedRow_columns now result row).2]
      exact h.counted
    · rw [hsends]
      exact h.capped
    · rw [hlog]
      rintro ⟨event, hevent, hfinal⟩
      refine ⟨by omega, ?_⟩
      rcases List.mem_append.1 hevent with hold | hnew
      · have hflight := (h.closed ⟨event, hold, hfinal⟩).1
        omega
      · rw [List.mem_singleton.1 hnew] at hfinal
        exact endedRow_closed now hclaimed hfinal
    · rw [hlog, List.pairwise_append]
      refine ⟨h.ordered, List.pairwise_singleton _ _, ?_⟩
      rintro earlier - later hlater ⟨-, hstart⟩
      rw [List.mem_singleton.1 hlater] at hstart
      cases hstart

end Bounds

/-! ## Cards that settle -/

def Settled (id : Nat) (s : DeliveryState) : Prop :=
  flights s id = 0 → ∃ row, s.db.kanbanBoard.get id = some row ∧
    (row.status = .done ∨ row.status = .delivered)

def SendResult.inDoubt (result : SendResult) : Prop :=
  result = .resolved .unknown ∨ result = .rejected

/-- A send of the card ends in doubt only while the card has no delivery result. -/
def DoubtsFirst (id : Nat) (s : DeliveryState) : DeliveryOp → Prop
  | .deliver _ _ => True
  | .settle _ place result =>
    ∀ send, s.inFlight[place]? = some send → send.cardId = id → result.inDoubt →
      ∀ row, s.db.kanbanBoard.get id = some row → row.deliveryResult = none

section Runs

variable (redactSecrets : String → String) (deps : DeliverDeps) (id : Nat)

def Bounded (s : DeliveryState) : Prop :=
  ∃ row, s.db.kanbanBoard.get id = some row ∧ DeliveryBounds id s row

theorem bounded_step {s : DeliveryState} (h : Bounded id s) (op : DeliveryOp) :
    Bounded id (deliveryStep redactSecrets deps s op) := by
  obtain ⟨row, hget, hbounds⟩ := h
  obtain ⟨row', hget', htype, hstep⟩ :=
    deliveryStep_cases redactSecrets deps op hget hbounds.noRoot
  exact ⟨row', hget', hbounds.step (htype ▸ hbounds.noRoot) hstep⟩

/-- The end of a send settles its card unless it is in doubt over a recorded result. -/
theorem endedRow_settles (now : Millis) (result : SendResult) {row : KanbanCard}
    (hclaimed : row.status = .delivering) :
    ((endedRow now result row).status = .done ∨ (endedRow now result row).status = .delivered) ↔
      (result.inDoubt → row.deliveryResult = none) := by
  match result with
  | .resolved .sent => simp [endedRow, SendResult.inDoubt]
  | .resolved .notSent => simp [endedRow, SendResult.inDoubt]
  | .resolved .unknown =>
    by_cases hnone : row.deliveryResult = none <;>
      simp [endedRow, SendResult.inDoubt, hnone, hclaimed]
  | .rejected =>
    by_cases hnone : row.deliveryResult = none <;>
      simp [endedRow, SendResult.inDoubt, hnone, hclaimed]

/-- **A step settles the card exactly when no send of it ends in doubt over a recorded
result.** -/
theorem settled_step_iff {s : DeliveryState} (h : Bounded id s) (hsettled : Settled id s)
    (op : DeliveryOp) :
    Settled id (deliveryStep redactSecrets deps s op) ↔ DoubtsFirst id s op := by
  obtain ⟨row, hget, hbounds⟩ := h
  cases op with
  | deliver now snapshot =>
    refine iff_of_true ?_ trivial
    obtain ⟨row', hget', -, hstep⟩ := deliveryStep_cases redactSecrets deps
      (.deliver now snapshot) hget hbounds.noRoot
    intro hidle
    cases hstep with
    | quiet hrow hflights hlog =>
      subst hrow
      obtain ⟨row, hrow, hstatus⟩ := hsettled (hflights ▸ hidle)
      exact ⟨row', hget', by rwa [← Option.some.inj (hrow.symm.trans hget)]⟩
    | skipped hdone hopen hstatus hattempts hflights hlog => exact ⟨row', hget', hstatus⟩
    | started now send hdone hbelow hopen hrow hflights hlog => omega
    | ended now place result hop hrow hflights hlog => cases hop
  | settle now place result =>
    cases hplace : s.inFlight[place]? with
    | none =>
      have hsame : deliveryStep redactSecrets deps s (.settle now place result) = s := by
        simp [deliveryStep, endDelivery, hplace]
      rw [hsame]
      refine iff_of_true hsettled fun send hsend => ?_
      rw [hplace] at hsend
      cases hsend
    | some send =>
      have hstep : deliveryStep redactSecrets deps s (.settle now place result) =
          { db := recordOutcome redactSecrets now send.cardId s.db result
            inFlight := s.inFlight.eraseIdx place
            log := s.log ++ [.ended send.cardId result] } := by
        simp [deliveryStep, endDelivery, hplace]
      have hcount := flights_eraseIdx hplace id
      rw [hstep]
      by_cases hid : send.cardId = id
      · subst hid
        rw [if_pos rfl] at hcount
        have hsingle := hbounds.single
        have hflight : flights s send.cardId = 1 := by
          rw [flights] at hsingle ⊢
          omega
        have hclaimed := hbounds.claimed hflight
        have hget' := get_recordOutcome redactSecrets now hget result
        rw [if_pos hclaimed] at hget'
        have hidle : flights
            { db := recordOutcome redactSecrets now send.cardId s.db result
              inFlight := s.inFlight.eraseIdx place
              log := s.log ++ [.ended send.cardId result] } send.cardId = 0 := by
          show (s.inFlight.eraseIdx place).countP (fun other => other.cardId = send.cardId) = 0
          rw [flights] at hflight
          omega
        rw [Settled, hidle]
        simp only [forall_true_left, hget', Option.some.injEq, exists_eq_left']
        rw [endedRow_settles now result hclaimed]
        constructor
        · intro hnone send' hsend' _ hdoubt row' hrow'
          rw [hget, Option.some.injEq] at hrow'
          exact hrow' ▸ hnone hdoubt
        · intro hfirst hdoubt
          exact hfirst send hplace rfl hdoubt row hget
      · rw [if_neg hid, Nat.add_zero] at hcount
        refine iff_of_true ?_ ?_
        · intro hidle
          obtain ⟨row', hrow', hstatus⟩ := hsettled (hcount.symm.trans hidle)
          refine ⟨row', ?_, hstatus⟩
          rw [get_recordOutcome_of_ne (Ne.symm hid)]
          exact hrow'
        · intro send' hsend' hid'
          rw [hplace, Option.some.injEq] at hsend'
          exact absurd (hsend' ▸ hid') hid

theorem bounded_run {db : Db} {card : KanbanCard} (hget : db.kanbanBoard.get id = some card)
    (hclaimable : Claimable card) (ops : List DeliveryOp) :
    Bounded id (runFrom (deliveryStep redactSecrets deps) (.idle db) ops) :=
  invariant_of_step (I := Bounded id) (fun _ op h => bounded_step redactSecrets deps id h op)
    ops _ ⟨card, hget, hclaimable.bounds⟩

theorem settled_run_iff (ops : List DeliveryOp) :
    ∀ s, Bounded id s → Settled id s →
      ((∀ before, before <+: ops →
          Settled id (runFrom (deliveryStep redactSecrets deps) s before)) ↔
        StepsMeet (deliveryStep redactSecrets deps) (DoubtsFirst id) s ops) := by
  induction ops with
  | nil =>
    intro s _ hsettled
    refine iff_of_true (fun before hprefix => ?_) trivial
    rw [List.prefix_nil.1 hprefix]
    exact hsettled
  | cons op ops ih =>
    intro s hbounded hsettled
    have hstep := settled_step_iff redactSecrets deps id hbounded hsettled op
    have hnext := bounded_step redactSecrets deps id hbounded op
    constructor
    · intro hall
      have hone := hall [op] (by simp)
      refine ⟨hstep.1 hone, (ih _ hnext hone).1 fun before hprefix => ?_⟩
      exact hall (op :: before) (List.cons_prefix_cons.2 ⟨rfl, hprefix⟩)
    rintro ⟨hfirst, hrest⟩ before hprefix
    cases before with
    | nil => exact hsettled
    | cons first before =>
      obtain ⟨rfl, hprefix'⟩ := List.cons_prefix_cons.1 hprefix
      exact (ih _ hnext (hstep.2 hfirst)).2 hrest before hprefix'

/-- **Delivery never double-sends, and wedges only on a doubt over a recorded
result.**  In every interleaving of deliveries that starts with a claimable card, at
most five sends of the card are attempted, none after one that ended sent, in doubt
or by a rejection; and the card is done or delivered in every state where nothing of
it is in flight if and only if its sends end in doubt only while the card has no
delivery result. -/
theorem delivery_settles {db : Db} (card : KanbanCard)
    (hget : db.kanbanBoard.get id = some card) (hclaimable : Claimable card)
    (ops : List DeliveryOp) :
    sendsOf (runFrom (deliveryStep redactSecrets deps) (.idle db) ops) id ≤ 5 ∧
      (cardLog (runFrom (deliveryStep redactSecrets deps) (.idle db) ops) id).Pairwise
        (fun earlier later => ¬ (earlier.isFinal = true ∧ later.isStart = true)) ∧
      ((∀ before, before <+: ops →
          Settled id (runFrom (deliveryStep redactSecrets deps) (.idle db) before)) ↔
        StepsMeet (deliveryStep redactSecrets deps) (DoubtsFirst id) (.idle db) ops) := by
  obtain ⟨row, -, hbounds⟩ := bounded_run redactSecrets deps id hget hclaimable ops
  refine ⟨hbounds.capped, hbounds.ordered, ?_⟩
  exact settled_run_iff redactSecrets deps id ops _ ⟨card, hget, hclaimable.bounds⟩
    fun _ => ⟨card, hget, .inl hclaimable.done⟩

end Runs

/-! ## Two runs -/

def doneDb : Db :=
  { Db.empty with kanbanBoard := Table.ofRows [newCard 1 "agent" none none .done 0] }

def directDeps : DeliverDeps := ⟨fun _ => "chat", false⟩

def secondSend (result : SendResult) : List DeliveryOp :=
  [.deliver 1 (newCard 1 "agent" none none .done 0), .settle 2 0 (.resolved .notSent),
    .deliver 3 (newCard 1 "agent" none none .done 0), .settle 4 0 result]

/-- After a send that was definitely not made, one in doubt leaves the card claimed with
nothing in flight. -/
theorem doubt_after_not_sent :
    flights (runFrom (deliveryStep id directDeps) (.idle doneDb)
        (secondSend (.resolved .unknown))) 1 = 0 ∧
      ((runFrom (deliveryStep id directDeps) (.idle doneDb)
        (secondSend (.resolved .unknown))).db.kanbanBoard.get 1).map (·.status) =
          some .delivering := by
  decide +kernel

theorem sent_after_not_sent :
    sendsOf (runFrom (deliveryStep id directDeps) (.idle doneDb)
        (secondSend (.resolved .sent))) 1 ≤ 5 ∧
      (cardLog (runFrom (deliveryStep id directDeps) (.idle doneDb)
        (secondSend (.resolved .sent))) 1).Pairwise
          (fun earlier later => ¬ (earlier.isFinal = true ∧ later.isStart = true)) ∧
      ((∀ before, before <+: secondSend (.resolved .sent) →
          Settled 1 (runFrom (deliveryStep id directDeps) (.idle doneDb) before)) ↔
        StepsMeet (deliveryStep id directDeps) (DoubtsFirst 1) (.idle doneDb)
          (secondSend (.resolved .sent))) :=
  delivery_settles id directDeps 1 (newCard 1 "agent" none none .done 0) (by decide)
    ⟨by decide, by decide, by decide⟩ _

/-! ## Polls -/

section Polls

variable (redactSecrets : String → String) (deps : DeliverDeps)

theorem claimCard_cases (now : Millis) {fresh : KanbanCard} {db : Db}
    (hget : db.kanbanBoard.get fresh.id = some fresh) :
    claimCard redactSecrets now fresh db = (false, db) ∨
      deliveryBelowCap fresh = true ∧ ∃ db', claimCard redactSecrets now fresh db = (true, db') ∧
        db'.kanbanBoard.get fresh.id =
          some (claimedRow now (fresh.deliveryAttempts.getD 0 + 1) fresh) := by
  -- each claim writes the next attempt, and none is won at the cap
  have hclaim (reason : String) (extra : ExtraPredicate)
      (hbelow : extra.holds db fresh = true → deliveryBelowCap fresh = true) :
      let req := claimRequest fresh.id (nextAttempt db fresh.id) reason extra
      applied redactSecrets now req db = (false, db) ∨ deliveryBelowCap fresh = true ∧
        ∃ db', applied redactSecrets now req db = (true, db') ∧ db'.kanbanBoard.get fresh.id =
          some (claimedRow now (fresh.deliveryAttempts.getD 0 + 1) fresh) := by
    dsimp only
    rw [applied_eq rfl (by simp [claimRequest]) hget]
    split
    · rename_i hwon
      refine .inr ⟨hbelow hwon.2, _, rfl, (get_applyTransition_same hget).trans ?_⟩
      rw [nextAttempt_eq hget]
      rfl
    · exact .inl rfl
  unfold claimCard
  split
  · split
    · exact .inl rfl
    split
    · refine hclaim _ _ ?_
      split <;> simp +contextual [ExtraPredicate.holds]
    · exact .inl rfl
  · exact hclaim _ _ id

theorem beginDelivery_claims (now : Millis) {snapshot fresh : KanbanCard} {db : Db}
    (hget : db.kanbanBoard.get snapshot.id = some fresh) :
    beginDelivery redactSecrets deps now snapshot db = (none, db) ∨
      deliveryBelowCap fresh = true ∧
        Dispatched snapshot.id (claimedRow now (fresh.deliveryAttempts.getD 0 + 1) fresh)
          (beginDelivery redactSecrets deps now snapshot db) := by
  have hid : fresh.id = snapshot.id := Table.key_of_get hget
  unfold beginDelivery
  rw [hget]
  dsimp only
  split
  · exact .inl rfl
  rcases claimCard_cases redactSecrets now (hid ▸ hget) with hlost | ⟨hbelow, db', hwon, hrow⟩
  · rw [hlost]
    exact .inl rfl
  · rw [hwon]
    exact .inr ⟨hbelow, dispatchClaimed_dispatched deps snapshot fresh (hid ▸ hrow) rfl⟩

/-- The attempts below the cap that a card has left. -/
def attemptsLeft (db : Db) (id : Nat) : Nat :=
  (db.kanbanBoard.get id).elim 0 fun card => (5 - card.deliveryAttempts.getD 0).toNat

theorem attemptsLeft_lt {db db' : Db} {id : Nat} {card row : KanbanCard}
    (hget : db.kanbanBoard.get id = some card) (hget' : db'.kanbanBoard.get id = some row)
    (hbelow : deliveryBelowCap card = true)
    (hspent : row.deliveryAttempts = some (card.deliveryAttempts.getD 0 + 1)) :
    attemptsLeft db' id < attemptsLeft db id := by
  have hcap : card.deliveryAttempts.getD 0 < 5 := by simpa [deliveryBelowCap] using hbelow
  simp only [attemptsLeft, hget, hget', Option.elim, hspent, Option.getD_some]
  omega

/-- The card is as it was, or has fewer attempts left. -/
def Spends (id : Nat) (db db' : Db) : Prop :=
  db'.kanbanBoard.get id = db.kanbanBoard.get id ∨ attemptsLeft db' id < attemptsLeft db id

theorem Spends.trans {id : Nat} {db db' db'' : Db} (h : Spends id db db') (h' : Spends id db' db'') :
    Spends id db db'' := by
  rcases h with hsame | hlt
  · simpa only [Spends, attemptsLeft, hsame] using h'
  rcases h' with hsame' | hlt'
  · refine .inr ?_
    rwa [attemptsLeft, hsame', ← attemptsLeft]
  · exact .inr (hlt'.trans hlt)

/-- One step: a call leaves a card as it is or uses up one of its attempts. -/
theorem spends_deliverCard (answer : DeliveryAnswer) (snapshot : KanbanCard) (db : Db) (id : Nat) :
    Spends id db (deliverCard redactSecrets deps answer snapshot db) := by
  unfold deliverCard
  by_cases hid : id = snapshot.id
  · subst hid
    cases hget : db.kanbanBoard.get snapshot.id with
    | none => simp [Spends, beginDelivery, hget]
    | some fresh =>
      -- a claim that is won is paid for before anything is sent
      rcases beginDelivery_claims redactSecrets deps answer.startedAt hget with hnone | ⟨hbelow, hd⟩
      · rw [hnone]
        exact .inl rfl
      generalize beginDelivery redactSecrets deps answer.startedAt snapshot db = out at hd
      cases hd with
      | ended db' row hrow htype hspent hstatus =>
        exact .inr (attemptsLeft_lt hget hrow hbelow hspent)
      | sending db' send hrow hsend =>
        have hended := get_recordOutcome redactSecrets answer.endedAt hrow answer.result
        rw [← hsend] at hget hended ⊢
        exact .inr (attemptsLeft_lt hget hended hbelow (endedRow_columns _ _ _).2)
  · have hsame : (beginDelivery redactSecrets deps answer.startedAt snapshot db).2.kanbanBoard.get
        id = db.kanbanBoard.get id := get_beginDelivery_of_ne deps snapshot hid
    rcases hbegin : beginDelivery redactSecrets deps answer.startedAt snapshot db with
      ⟨_ | send, db'⟩ <;> rw [hbegin] at hsame
    · exact .inl hsame
    · have hne : id ≠ send.cardId := fun h => hid (h.trans (beginDelivery_send hbegin))
      exact .inl ((get_recordOutcome_of_ne hne _).trans hsame)

theorem spends_poll (answer : KanbanCard → DeliveryAnswer) (db : Db) (id : Nat) :
    Spends id db (pollPendingDeliveries redactSecrets deps answer db) := by
  unfold pollPendingDeliveries deliverCards
  generalize kanbanPending db = cards
  induction cards generalizing db with
  | nil => exact .inl rfl
  | cons card cards ih => exact (spends_deliverCard redactSecrets deps _ card db id).trans (ih _)

def pollChanges (id : Nat) (db : Db) (answer : KanbanCard → DeliveryAnswer) : Bool :=
  (pollPendingDeliveries redactSecrets deps answer db).kanbanBoard.get id ≠ db.kanbanBoard.get id

/-- However often the pending deliveries are polled, and whatever the sends answer: no more polls
change a card, root or not, than it has attempts left below the cap. -/
theorem polls_quiesce (db : Db) (id : Nat) (polls : List (KanbanCard → DeliveryAnswer)) :
    countSteps (fun db answer => pollPendingDeliveries redactSecrets deps answer db)
      (pollChanges redactSecrets deps id) db polls ≤ attemptsLeft db id := by
  induction polls generalizing db with
  | nil => exact Nat.zero_le _
  | cons answer polls ih =>
    have hrest := ih (pollPendingDeliveries redactSecrets deps answer db)
    rw [countSteps]
    rcases spends_poll redactSecrets deps answer db id with hsame | hlt
    · simpa [pollChanges, attemptsLeft, hsame] using hrest
    · have hone := Bool.toNat_le (pollChanges redactSecrets deps id db answer)
      omega

end Polls

end Abtars
