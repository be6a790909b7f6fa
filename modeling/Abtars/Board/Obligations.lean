import Abtars.Board.Journal

/-!
# Peer callback obligations

A won terminal that reports to a peer queues one row of `peer_callback_outbox`
in its own transaction.  The row is keyed by the card and the status reached, so
the card's first verdict of a status is the one that is kept: a second verdict
of the same status finds the key taken and queues nothing.

The run interleaves requests with the drains that send queued rows.  The key
names its card and its status (`peerCallbackOutboxId_inj`), a queued row keeps
what it reports through every step (`queued_step`), and a free key is taken by
a verdict only (`free_step`).
-/

namespace Abtars

open Lib

/-! ## Keys -/

theorem text_injective : Function.Injective CardStatus.text := by
  intro a b h
  cases a <;> cases b <;> first | rfl | (revert h; decide)

theorem underscore_not_mem_text (status : CardStatus) : '_' ∉ status.text.toList := by
  cases status <;> decide

theorem peerCallbackOutboxId_inj {cardId cardId' : Nat} {status status' : CardStatus}
    (h : peerCallbackOutboxId cardId status = peerCallbackOutboxId cardId' status') :
    cardId = cardId' ∧ status = status' := by
  have hlist := congrArg String.toList h
  simp only [peerCallbackOutboxId, String.toList_append, Nat.toString_eq_repr,
    Nat.toList_repr, List.append_assoc] at hlist
  have htail : Nat.toDigits 10 cardId ++ '_' :: status.text.toList =
      Nat.toDigits 10 cardId' ++ '_' :: status'.text.toList :=
    List.append_cancel_left hlist
  -- neither digits nor a status hold an underscore, so both keys split at theirs
  obtain ⟨hdigits, -, htext⟩ := (List.append_cons_inj_of_notMem
    Nat.underscore_not_in_toDigits (underscore_not_mem_text status)).1 htail
  have hcard : cardId = cardId' := by
    have hnumber := congrArg (fun digits => Nat.ofDigitChars 10 digits 0) hdigits
    simpa using hnumber
  exact ⟨hcard, text_injective (String.toList_injective htext)⟩

/-! ## Requests and drains -/

/-- One step on the outbox: a request, or what a drain records about a row it
tried to send. -/
inductive OutboxOp
  | transition (call : TransitionCall)
  | sent (id : String) (now : Millis)
  | sendFailed (id : String) (message : String)

/-- `sendPending` after a resolved send. -/
def markCallbackSent (now : Millis) (id : String) (outbox : Table PeerCallbackRow) :
    Table PeerCallbackRow :=
  outbox.updateWhere (fun row => row.id = id ∧ row.sentAt = none)
    fun row => { row with sentAt := some now }

/-- `sendPending` after a rejected send. -/
def keepCallbackPending (message : String) (id : String) (outbox : Table PeerCallbackRow) :
    Table PeerCallbackRow :=
  outbox.updateWhere (fun row => row.id = id ∧ row.sentAt = none)
    fun row =>
      { row with attempts := row.attempts + 1, lastError := some (sliceText message 500) }

variable (redactSecrets : String → String)

def outboxStep (db : Db) : OutboxOp → Db
  | .transition call => transitionStep redactSecrets db call
  | .sent id now =>
    { db with peerCallbackOutbox := markCallbackSent now id db.peerCallbackOutbox }
  | .sendFailed id message =>
    { db with peerCallbackOutbox := keepCallbackPending message id db.peerCallbackOutbox }

def outboxRun (db : Db) (ops : List OutboxOp) : Db :=
  runFrom (outboxStep redactSecrets) db ops

def Verdict (cardId : Nat) (status : CardStatus) (db : Db) (op : OutboxOp) : Prop :=
  ∃ call intent from_ db', op = .transition call ∧ call.req.cardId = cardId ∧
    call.req.toStatus = status ∧ call.req.outboxCallback = some intent ∧
    kanbanTransition redactSecrets call.now call.req db = .ok (.applied from_, db')

def PeerCallbackRow.report (row : PeerCallbackRow) :
    Nat × String × CallbackStatus × PeerCallbackPayload :=
  (row.cardId, row.peer, row.status, row.payload)

section Step

variable {redactSecrets : String → String} {db db' : Db} {now : Millis}
  {req : TransitionRequest} {outcome : TransitionOutcome}

theorem outbox_of_transition
    (h : kanbanTransition redactSecrets now req db = .ok (outcome, db')) :
    db'.peerCallbackOutbox = db.peerCallbackOutbox ∨
    ∃ from_ intent, outcome = .applied from_ ∧ req.outboxCallback = some intent ∧
      db'.peerCallbackOutbox = db.peerCallbackOutbox.insertOrIgnore (fun _ => false)
        (peerCallbackRow now req intent) := by
  rcases kanbanTransition_cases h with ⟨_, -, rfl⟩ | ⟨_, -, -, -, -, rfl⟩ |
    ⟨card, -, -, -, -, houtcome, rfl⟩
  · exact .inl rfl
  · exact .inl rfl
  · cases hcallback : req.outboxCallback with
    | none =>
      refine .inl ?_
      simp [applyTransition, queuePeerCallback, hcallback]
    | some intent =>
      refine .inr ⟨card.status, intent, houtcome, rfl, ?_⟩
      simp [applyTransition, queuePeerCallback, hcallback]

/-- **A won terminal with a free key queues its row.** -/
theorem queued_of_applied {intent : PeerCallbackIntent} {from_ : CardStatus}
    (hfree : db.peerCallbackOutbox.get (peerCallbackOutboxId req.cardId req.toStatus) = none)
    (hcallback : req.outboxCallback = some intent)
    (h : kanbanTransition redactSecrets now req db = .ok (.applied from_, db')) :
    db'.peerCallbackOutbox.get (peerCallbackOutboxId req.cardId req.toStatus) =
      some (peerCallbackRow now req intent) := by
  have hfits : db.peerCallbackOutbox.Fits (fun _ => false) (peerCallbackRow now req intent) :=
    ⟨hfree, fun _ _ => rfl⟩
  rcases kanbanTransition_cases h with ⟨_, houtcome, -⟩ | ⟨_, -, -, -, houtcome, -⟩ |
    ⟨card, -, -, -, -, -, rfl⟩
  · cases houtcome
  · cases houtcome
  · simp only [applyTransition, queuePeerCallback, hcallback]
    exact Table.get_insertOrIgnore_of_fits hfits

theorem free_step {cardId : Nat} {status : CardStatus} (op : OutboxOp)
    (hfree : db.peerCallbackOutbox.get (peerCallbackOutboxId cardId status) = none)
    (hop : ¬ Verdict redactSecrets cardId status db op) :
    (outboxStep redactSecrets db op).peerCallbackOutbox.get
      (peerCallbackOutboxId cardId status) = none := by
  cases op with
  | transition call =>
    rw [outboxStep, transitionStep]
    cases h : kanbanTransition redactSecrets call.now call.req db with
    | error _ => exact hfree
    | ok result =>
      obtain ⟨outcome, db'⟩ := result
      rcases outbox_of_transition h with hsame | ⟨from_, intent, rfl, hcallback, hqueued⟩
      · rw [hsame]
        exact hfree
      rw [hqueued, Table.get_insertOrIgnore_of_ne, hfree]
      intro hkey
      obtain ⟨rfl, rfl⟩ := peerCallbackOutboxId_inj hkey
      exact hop ⟨call, intent, from_, db', rfl, rfl, rfl, hcallback, h⟩
  | sent id now => simp [outboxStep, markCallbackSent, hfree]
  | sendFailed id message => simp [outboxStep, keepCallbackPending, hfree]

variable (redactSecrets) in
/-- A queued row keeps its report through every step, and stays unsent until a
drain has sent it. -/
theorem queued_step {key : String} {row : PeerCallbackRow} (op : OutboxOp)
    (hrow : db.peerCallbackOutbox.get key = some row) :
    ∃ row', (outboxStep redactSecrets db op).peerCallbackOutbox.get key = some row' ∧
      row'.report = row.report ∧ ((∀ now, op ≠ .sent key now) → row'.sentAt = row.sentAt) := by
  cases op with
  | transition call =>
    rw [outboxStep, transitionStep]
    cases h : kanbanTransition redactSecrets call.now call.req db with
    | error _ => exact ⟨row, hrow, rfl, fun _ => rfl⟩
    | ok result =>
      rcases outbox_of_transition h with hsame | ⟨_, intent, -, -, hqueued⟩
      · exact ⟨row, hsame ▸ hrow, rfl, fun _ => rfl⟩
      · refine ⟨row, ?_, rfl, fun _ => rfl⟩
        rw [hqueued]
        exact Table.get_insertOrIgnore_of_some hrow
  | sent id now =>
    simp only [outboxStep, markCallbackSent, Table.get_updateWhere, hrow, Option.map_some]
    refine ⟨_, rfl, ?_, ?_⟩
    · split <;> rfl
    intro hother
    have hkey : row.id = key := Table.key_of_get hrow
    have hne : row.id ≠ id := by
      intro hid
      exact hother now (by rw [← hid, hkey])
    simp [hne]
  | sendFailed id message =>
    simp only [outboxStep, keepCallbackPending, Table.get_updateWhere, hrow, Option.map_some]
    refine ⟨_, rfl, ?_, fun _ => ?_⟩
    · split <;> rfl
    · split <;> rfl

end Step

/-! ## Runs -/

theorem free_run {redactSecrets : String → String} {cardId : Nat} {status : CardStatus} {db : Db}
    {ops : List OutboxOp}
    (hfree : db.peerCallbackOutbox.get (peerCallbackOutboxId cardId status) = none)
    (hops : StepsMeet (outboxStep redactSecrets)
      (fun db op => ¬ Verdict redactSecrets cardId status db op) db ops) :
    (outboxRun redactSecrets db ops).peerCallbackOutbox.get
      (peerCallbackOutboxId cardId status) = none :=
  invariant_of_stepsMeet (I := fun db =>
      db.peerCallbackOutbox.get (peerCallbackOutboxId cardId status) = none)
    (fun _ op hfree hop => free_step op hfree hop) ops db hfree hops

theorem queued_run {redactSecrets : String → String} {key : String} (ops : List OutboxOp) :
    ∀ (db : Db) (row : PeerCallbackRow), db.peerCallbackOutbox.get key = some row →
      ∃ row', (outboxRun redactSecrets db ops).peerCallbackOutbox.get key = some row' ∧
        row'.report = row.report ∧
        ((∀ op ∈ ops, ∀ now, op ≠ .sent key now) → row'.sentAt = row.sentAt) := by
  induction ops with
  | nil =>
    intro db row hrow
    exact ⟨row, hrow, rfl, fun _ => rfl⟩
  | cons op ops ih =>
    intro db row hrow
    obtain ⟨next, hnext, hreport, hunsent⟩ := queued_step redactSecrets op hrow
    obtain ⟨last, hlast, hreport', hunsent'⟩ := ih _ next hnext
    refine ⟨last, hlast, hreport'.trans hreport, fun hnone => ?_⟩
    rw [hunsent' fun later hlater => hnone later (List.mem_cons_of_mem _ hlater),
      hunsent (hnone op List.mem_cons_self)]

/-- **A card's first verdict of a status is an obligation that is kept.**  The
first won change of the card to the status that carries a callback leaves an
unsent row with that change's report; whatever is requested, resumed, decided
again or drained afterwards, the row keeps the report, and it stays unsent until
a drain has sent it. -/
theorem firstVerdict_obliges (redactSecrets : String → String) (db db' : Db)
    (before after : List OutboxOp) (call : TransitionCall) (intent : PeerCallbackIntent)
    (from_ : CardStatus)
    (hfree : db.peerCallbackOutbox.get
      (peerCallbackOutboxId call.req.cardId call.req.toStatus) = none)
    (hfirst : StepsMeet (outboxStep redactSecrets)
      (fun db op => ¬ Verdict redactSecrets call.req.cardId call.req.toStatus db op) db before)
    (hcallback : call.req.outboxCallback = some intent)
    (happlied : kanbanTransition redactSecrets call.now call.req
      (outboxRun redactSecrets db before) = .ok (.applied from_, db')) :
    db'.peerCallbackOutbox.get (peerCallbackOutboxId call.req.cardId call.req.toStatus) =
      some (peerCallbackRow call.now call.req intent) ∧
    ∃ row, (outboxRun redactSecrets db' after).peerCallbackOutbox.get
        (peerCallbackOutboxId call.req.cardId call.req.toStatus) = some row ∧
      row.report = (peerCallbackRow call.now call.req intent).report ∧
      ((∀ op ∈ after, ∀ now,
          op ≠ .sent (peerCallbackOutboxId call.req.cardId call.req.toStatus) now) →
        row.sentAt = none) := by
  have hqueued := queued_of_applied (free_run hfree hfirst) hcallback happlied
  exact ⟨hqueued, queued_run after db' _ hqueued⟩

/-! ## A card decided twice -/

def doneReport (summary : String) : PeerCallbackIntent where
  peer := "kp"
  status := .done
  resultSummary := some summary
  error := none
  tokensUsed := some 7
  artifacts := []

def reportDone (summary : String) : TransitionCall :=
  { moveCard [.running] .done with
    req := { (moveCard [.running] .done).req with outboxCallback := some (doneReport summary) } }

theorem first_report_kept :
    (outboxRun id enqueuedDb
      [.transition (moveCard [.queued] .running)]).peerCallbackOutbox.get "pc_1_done" = none ∧
    ∃ row, (outboxRun id
        (outboxRun id enqueuedDb
          [.transition (moveCard [.queued] .running), .transition (reportDone "first")])
        [.transition (moveCard [.done] .queued), .transition (moveCard [.queued] .running),
          .transition (reportDone "second")]).peerCallbackOutbox.get "pc_1_done" = some row ∧
      row.report = (peerCallbackRow 1000 (reportDone "first").req (doneReport "first")).report := by
  refine ⟨by decide +kernel, ?_⟩
  have hquiet : ¬ Verdict id 1 .done enqueuedDb (.transition (moveCard [.queued] .running)) := by
    rintro ⟨call, intent, _, _, hop, _, _, hcallback, _⟩
    cases hop
    cases hcallback
  obtain ⟨-, row, hrow, hreport, -⟩ := firstVerdict_obliges id enqueuedDb
    (outboxRun id enqueuedDb
      [.transition (moveCard [.queued] .running), .transition (reportDone "first")])
    [.transition (moveCard [.queued] .running)]
    [.transition (moveCard [.done] .queued), .transition (moveCard [.queued] .running),
      .transition (reportDone "second")]
    (reportDone "first") (doneReport "first") .running
    (by decide +kernel)
    ⟨hquiet, trivial⟩ rfl rfl
  exact ⟨row, hrow, hreport⟩

/-- The second verdict of a resumed card moves it to done and queues nothing. -/
theorem second_report_dropped :
    ((kanbanTransition id 1000 (reportDone "second").req
      (transitionRun id enqueuedDb
        [moveCard [.queued] .running, reportDone "first", moveCard [.done] .queued,
          moveCard [.queued] .running])).toOption.map Prod.fst = some (.applied .running)) ∧
    ¬ ∃ row ∈ (transitionRun id enqueuedDb
        [moveCard [.queued] .running, reportDone "first", moveCard [.done] .queued,
          moveCard [.queued] .running, reportDone "second"]).peerCallbackOutbox.rows,
      row.sentAt = none ∧
        row.payload = (peerCallbackRow 1000 (reportDone "second").req
          (doneReport "second")).payload := by
  constructor
  · decide +kernel
  · decide +kernel

end Abtars
