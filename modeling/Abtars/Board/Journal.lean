import Abtars.Board.Transition
import Abtars.Lib.Retention
import Abtars.Lib.Run

/-!
# The transition journal as the board's history

A run is any sequence of `kanbanTransition` requests; a request that throws
leaves the database as it was.  The journal rows of one card are read in id
order, which is the order they were inserted in.

The invariant `JournalSound` says what the rows of one card are worth: they link
up, each of them is a legal move, the last one names the card's status and there
are at most `maxTransitionsPerCard` of them.  A won change appends one row and
cuts the oldest, a reassertion and a lost compare-and-set append none.
-/

namespace Abtars

open Lib

/-! ## Runs of requests -/

structure TransitionCall where
  now : Millis
  req : TransitionRequest

def transitionStep (redactSecrets : String → String) (db : Db) (call : TransitionCall) : Db :=
  match kanbanTransition redactSecrets call.now call.req db with
  | .ok (_, db') => db'
  | .error _ => db

def transitionRun (redactSecrets : String → String) (db : Db) (calls : List TransitionCall) : Db :=
  runFrom (transitionStep redactSecrets) db calls

def cardJournal (db : Db) (cardId : Nat) : List CardTransitionRow :=
  db.kanbanCardTransitions.select fun row => row.cardId = cardId

def cardStatus (db : Db) (cardId : Nat) : Option CardStatus :=
  (db.kanbanBoard.get cardId).map (·.status)

structure EnqueuedBoard (db : Db) : Prop where
  queued : ∀ card ∈ db.kanbanBoard, card.status = .queued
  unmoved : db.kanbanCardTransitions.rows = []

/-! ## The invariant -/

structure JournalSound (db : Db) (cardId : Nat) : Prop where
  ordered : (cardJournal db cardId).Pairwise fun earlier later => earlier.id < later.id
  linked : (cardJournal db cardId).IsChain fun earlier later =>
    later.fromStatus = earlier.toStatus
  legal : ∀ row ∈ cardJournal db cardId, row.toStatus ∈ legalTransitions row.fromStatus
  current : ∀ row ∈ (cardJournal db cardId).getLast?, cardStatus db cardId = some row.toStatus
  bounded : (cardJournal db cardId).length ≤ maxTransitionsPerCard
  /-- A history that was never cut starts where the card was enqueued. -/
  origin : (cardJournal db cardId).length < maxTransitionsPerCard →
    ∀ row ∈ (cardJournal db cardId).head?, row.fromStatus = .queued
  /-- A card without history is still where it was enqueued. -/
  unmoved : cardJournal db cardId = [] → ∀ status ∈ cardStatus db cardId, status = .queued

def JournalIdsUsed (db : Db) : Prop :=
  ∀ row ∈ db.kanbanCardTransitions, row.id < db.nextTransitionId

structure BoardHistory (db : Db) : Prop where
  idsUsed : JournalIdsUsed db
  sound : ∀ cardId, JournalSound db cardId

theorem EnqueuedBoard.history {db : Db} (h : EnqueuedBoard db) : BoardHistory db := by
  have hnone : ∀ cardId, cardJournal db cardId = [] := by
    intro cardId
    simp [cardJournal, Table.select, h.unmoved]
  constructor
  · intro row hrow
    rw [Table.mem_def, h.unmoved] at hrow
    cases hrow
  intro cardId
  refine ⟨?_, ?_, ?_, ?_, ?_, ?_, ?_⟩
  · simp [hnone]
  · simp [hnone]
  · simp [hnone]
  · simp [hnone]
  · simp [hnone]
  · simp [hnone]
  · intro _ status hstatus
    obtain ⟨card, hget, rfl⟩ := Option.map_eq_some_iff.1 hstatus
    exact h.queued card (Table.mem_of_get hget)

section Step

variable {cardId : Nat} {card : KanbanCard}

variable {redactSecrets : String → String} {now : Millis} {req : TransitionRequest}
  {db db' : Db} {outcome : TransitionOutcome}

theorem pruneTransitions_eq (cardId : Nat) (journal : Table CardTransitionRow) :
    pruneTransitions cardId journal =
      journal.prune (fun row => row.cardId = cardId) (·.id) maxTransitionsPerCard := by
  simp [pruneTransitions, Table.prune]

theorem rows_insert_transition (hused : JournalIdsUsed db) (observed : CardStatus) :
    (db.kanbanCardTransitions.insertOrIgnore (fun _ => false)
        (transitionRow redactSecrets now db.nextTransitionId req observed)).rows =
      db.kanbanCardTransitions.rows ++
        [transitionRow redactSecrets now db.nextTransitionId req observed] := by
  refine Table.rows_insertOrIgnore_of_fits ⟨?_, fun _ _ => rfl⟩
  rw [Table.get_eq_none_iff]
  intro row hrow
  exact Nat.ne_of_lt (hused row hrow)

theorem cardJournal_apply (hhist : BoardHistory db) (card : KanbanCard) :
    cardJournal (applyTransition redactSecrets now req card db) req.cardId =
      newest (·.id) maxTransitionsPerCard
        (cardJournal db req.cardId ++
          [transitionRow redactSecrets now db.nextTransitionId req card.status]) := by
  simp only [cardJournal, applyTransition]
  rw [pruneTransitions_eq, Table.select_prune]
  congr 1
  rw [Table.select, rows_insert_transition hhist.idsUsed, List.filter_append, Table.select]
  simp [transitionRow]

theorem cardJournal_apply_of_ne (hhist : BoardHistory db) (card : KanbanCard)
    (hne : cardId ≠ req.cardId) :
    cardJournal (applyTransition redactSecrets now req card db) cardId = cardJournal db cardId := by
  have hdisjoint : ∀ row : CardTransitionRow, decide (row.cardId = cardId) = true →
      decide (row.cardId = req.cardId) = false := by
    intro row hrow
    rw [decide_eq_true_eq] at hrow
    simp [hrow, hne]
  simp only [cardJournal, applyTransition]
  rw [pruneTransitions_eq, Table.select_prune_of_disjoint _ _ _ hdisjoint, Table.select,
    rows_insert_transition hhist.idsUsed, List.filter_append, Table.select]
  simp [transitionRow, hne.symm]

theorem get_updateCard_of_ne {board : Table KanbanCard} (hne : cardId ≠ req.cardId) :
    (updateCard now req board).get cardId = board.get cardId :=
  Table.get_modify_of_ne board _ _ hne

theorem legal_of_declared {from_ : CardStatus} (hdecl : declarationError req = none)
    (hmem : from_ ∈ req.fromSet) (hne : from_ ≠ req.toStatus) :
    req.toStatus ∈ legalTransitions from_ := by
  have hnonempty : req.fromSet ≠ [] := List.ne_nil_of_mem hmem
  rw [declarationError, if_neg hnonempty, Option.map_eq_none_iff, illegalPair,
    List.find?_eq_none] at hdecl
  have hpair := hdecl from_ hmem
  simpa [hne] using hpair

/-- What the invariant says of a card depends on its rows and its status only. -/
theorem JournalSound.congr (h : JournalSound db cardId)
    (hrows : cardJournal db' cardId = cardJournal db cardId)
    (hstatus : cardStatus db' cardId = cardStatus db cardId) : JournalSound db' cardId := by
  constructor
  · rw [hrows]
    exact h.ordered
  · rw [hrows]
    exact h.linked
  · rw [hrows]
    exact h.legal
  · rw [hrows, hstatus]
    exact h.current
  · rw [hrows]
    exact h.bounded
  · rw [hrows]
    exact h.origin
  · rw [hrows, hstatus]
    exact h.unmoved

theorem mem_journal_of_mem_cardJournal {row : CardTransitionRow}
    (h : row ∈ cardJournal db cardId) : row ∈ db.kanbanCardTransitions :=
  ((Table.mem_select _ _ _).1 h).1

theorem cardStatus_of_get
    (hget : db.kanbanBoard.get cardId = some card) : cardStatus db cardId = some card.status := by
  rw [cardStatus, hget, Option.map_some]

theorem cardStatus_apply (hget : db.kanbanBoard.get req.cardId = some card) :
    cardStatus (applyTransition redactSecrets now req card db) req.cardId = some req.toStatus := by
  simp only [cardStatus, applyTransition]
  rw [get_updateCard_same, hget, Option.map_some, Option.map_some, writeCard_status]

theorem cardStatus_apply_of_ne (card : KanbanCard) (hne : cardId ≠ req.cardId) :
    cardStatus (applyTransition redactSecrets now req card db) cardId = cardStatus db cardId := by
  simp only [cardStatus, applyTransition]
  rw [get_updateCard_of_ne hne]

theorem cardStatus_reassert {card : KanbanCard} (hget : db.kanbanBoard.get req.cardId = some card)
    (hsame : card.status = req.toStatus) (cardId : Nat) :
    cardStatus { db with kanbanBoard := updateCard now req db.kanbanBoard } cardId =
      cardStatus db cardId := by
  by_cases hid : cardId = req.cardId
  · subst hid
    simp only [cardStatus]
    rw [get_updateCard_same, hget]
    simp [hsame]
  · simp only [cardStatus]
    rw [get_updateCard_of_ne hid]

/-- The journal of a moved card, before the cut: the old rows in order, then the
row of the move. -/
theorem ordered_append (hhist : BoardHistory db) (observed : CardStatus) :
    (cardJournal db req.cardId ++
        [transitionRow redactSecrets now db.nextTransitionId req observed]).Pairwise
      fun earlier later => earlier.id < later.id := by
  rw [List.pairwise_append]
  refine ⟨(hhist.sound req.cardId).ordered, List.pairwise_singleton _ _, ?_⟩
  intro earlier hearlier later hlater
  rw [List.mem_singleton] at hlater
  subst hlater
  exact hhist.idsUsed earlier (mem_journal_of_mem_cardJournal hearlier)

theorem linked_append (hhist : BoardHistory db) (hget : db.kanbanBoard.get req.cardId = some card) :
    (cardJournal db req.cardId ++
        [transitionRow redactSecrets now db.nextTransitionId req card.status]).IsChain
      fun earlier later => later.fromStatus = earlier.toStatus := by
  rw [List.isChain_append]
  refine ⟨(hhist.sound req.cardId).linked, List.isChain_singleton _, ?_⟩
  intro last hlast row hrow
  rw [List.head?_cons, Option.mem_some_iff] at hrow
  subst hrow
  have hcurrent := (hhist.sound req.cardId).current last hlast
  rw [cardStatus_of_get hget, Option.some.injEq] at hcurrent
  exact hcurrent

/-- **A won move keeps the moved card's journal sound.** -/
theorem journalSound_apply (hhist : BoardHistory db)
    (hget : db.kanbanBoard.get req.cardId = some card)
    (hlegal : req.toStatus ∈ legalTransitions card.status) :
    JournalSound (applyTransition redactSecrets now req card db) req.cardId := by
  have hsound := hhist.sound req.cardId
  have hrows : cardJournal (applyTransition redactSecrets now req card db) req.cardId = _ :=
    cardJournal_apply hhist card
  have hsorted : (cardJournal db req.cardId ++
      [transitionRow redactSecrets now db.nextTransitionId req card.status]).Pairwise
        fun earlier later => earlier.id < later.id := ordered_append hhist card.status
  have hsuffix := newest_suffix maxTransitionsPerCard hsorted
  have hlast : (cardJournal (applyTransition redactSecrets now req card db) req.cardId).getLast? =
      some (transitionRow redactSecrets now db.nextTransitionId req card.status) := by
    rw [hrows, getLast?_newest hsorted (by decide), List.getLast?_append]
    rfl
  constructor
  · rw [hrows]
    exact hsorted.sublist hsuffix.sublist
  · rw [hrows]
    exact (linked_append hhist hget).suffix hsuffix
  · rw [hrows]
    intro row hrow
    rcases List.mem_append.1 (hsuffix.subset hrow) with hold | hnew
    · exact hsound.legal row hold
    · rw [List.mem_singleton] at hnew
      subst hnew
      exact hlegal
  · rw [hlast, cardStatus_apply hget]
    intro row hrow
    rw [Option.mem_some_iff] at hrow
    subst hrow
    rfl
  · rw [hrows]
    exact length_newest_le maxTransitionsPerCard hsorted
  · rw [hrows, newest_eq_drop _ hsorted, List.length_drop]
    intro hshort
    -- a cut journal is full, so this one was not cut
    have hwhole : (cardJournal db req.cardId ++
        [transitionRow redactSecrets now db.nextTransitionId req card.status]).length -
          maxTransitionsPerCard = 0 := by
      omega
    rw [hwhole, List.drop_zero]
    rw [hwhole, Nat.sub_zero, List.length_append, List.length_singleton] at hshort
    intro row hrow
    cases hjournal : cardJournal db req.cardId with
    | nil =>
      rw [hjournal, List.nil_append, List.head?_cons, Option.mem_some_iff] at hrow
      subst hrow
      exact hsound.unmoved hjournal card.status (cardStatus_of_get hget)
    | cons first rest =>
      refine hsound.origin (by omega) row ?_
      rw [hjournal] at hrow ⊢
      exact hrow
  · intro hnil
    rw [hnil, List.getLast?_nil] at hlast
    cases hlast

theorem journalIdsUsed_apply (hused : JournalIdsUsed db) (card : KanbanCard) :
    JournalIdsUsed (applyTransition redactSecrets now req card db) := by
  intro row hrow
  have hkept : row ∈ db.kanbanCardTransitions.insertOrIgnore (fun _ => false)
      (transitionRow redactSecrets now db.nextTransitionId req card.status) :=
    (Table.mem_deleteWhere.1 hrow).1
  show row.id < db.nextTransitionId + 1
  rcases Table.mem_of_mem_insertOrIgnore hkept with hold | rfl
  · have hlt := hused row hold
    omega
  · exact Nat.lt_succ_self db.nextTransitionId

/-- **One request keeps the history of every card.** -/
theorem boardHistory_of_transition (hhist : BoardHistory db)
    (h : kanbanTransition redactSecrets now req db = .ok (outcome, db')) : BoardHistory db' := by
  rcases kanbanTransition_cases h with ⟨_, -, rfl⟩ | ⟨card, hget, hsame, -, -, rfl⟩ |
    ⟨card, hget, hmem, hne, -, -, rfl⟩
  · exact hhist
  · exact ⟨hhist.idsUsed, fun cardId =>
      (hhist.sound cardId).congr rfl (cardStatus_reassert hget hsame cardId)⟩
  · refine ⟨journalIdsUsed_apply hhist.idsUsed card, fun cardId => ?_⟩
    by_cases hid : cardId = req.cardId
    · subst hid
      exact journalSound_apply hhist hget
        (legal_of_declared (kanbanTransition_declared h) hmem hne)
    · exact (hhist.sound cardId).congr (cardJournal_apply_of_ne hhist card hid)
        (cardStatus_apply_of_ne card hid)

theorem delivered_of_transition (hdelivered : cardStatus db cardId = some .delivered)
    (h : kanbanTransition redactSecrets now req db = .ok (outcome, db')) :
    cardStatus db' cardId = some .delivered := by
  rcases kanbanTransition_cases h with ⟨_, -, rfl⟩ | ⟨card, hget, hsame, -, -, rfl⟩ |
    ⟨card, hget, hmem, hne, -, -, rfl⟩
  · exact hdelivered
  · rw [cardStatus_reassert hget hsame, hdelivered]
  · by_cases hid : cardId = req.cardId
    · subst hid
      rw [cardStatus_of_get hget, Option.some.injEq] at hdelivered
      have hlegal := legal_of_declared (kanbanTransition_declared h) hmem hne
      rw [hdelivered] at hlegal
      cases hlegal
    · rw [cardStatus_apply_of_ne card hid, hdelivered]

theorem quiet_of_not_applied (h : kanbanTransition redactSecrets now req db = .ok (outcome, db'))
    (hquiet : ∀ from_, outcome ≠ .applied from_) :
    db'.kanbanCardTransitions = db.kanbanCardTransitions ∧
      db'.peerCallbackOutbox = db.peerCallbackOutbox := by
  rcases kanbanTransition_cases h with ⟨_, -, rfl⟩ | ⟨_, -, -, -, -, rfl⟩ |
    ⟨card, -, -, -, -, houtcome, -⟩
  · exact ⟨rfl, rfl⟩
  · exact ⟨rfl, rfl⟩
  · exact absurd houtcome (hquiet card.status)

end Step

/-! ## Runs -/

theorem boardHistory_step (redactSecrets : String → String) (db : Db) (call : TransitionCall)
    (hhist : BoardHistory db) : BoardHistory (transitionStep redactSecrets db call) := by
  rw [transitionStep]
  cases h : kanbanTransition redactSecrets call.now call.req db with
  | error _ => exact hhist
  | ok result => exact boardHistory_of_transition hhist h

theorem delivered_step (redactSecrets : String → String) (cardId : Nat) (db : Db)
    (call : TransitionCall) (hdelivered : cardStatus db cardId = some .delivered) :
    cardStatus (transitionStep redactSecrets db call) cardId = some .delivered := by
  rw [transitionStep]
  cases h : kanbanTransition redactSecrets call.now call.req db with
  | error _ => exact hdelivered
  | ok result => exact delivered_of_transition hdelivered h

/-- A delivered card never changes status again. -/
theorem delivered_run (redactSecrets : String → String) (cardId : Nat) (db : Db)
    (calls : List TransitionCall) (hdelivered : cardStatus db cardId = some .delivered) :
    cardStatus (transitionRun redactSecrets db calls) cardId = some .delivered :=
  invariant_of_step (delivered_step redactSecrets cardId) calls db hdelivered

theorem boardHistory_run (redactSecrets : String → String) (db : Db) (calls : List TransitionCall)
    (hboard : EnqueuedBoard db) : BoardHistory (transitionRun redactSecrets db calls) :=
  invariant_of_step (boardHistory_step redactSecrets) calls db hboard.history

/-- **The transition journal is the board's history.**  After any sequence of
requests on a board of enqueued cards the journal of every card is sound, a
delivered card stays delivered whatever is requested next, and a request that
moved nothing left no journal row and no callback behind. -/
theorem journal_is_history (redactSecrets : String → String) (db : Db)
    (hboard : EnqueuedBoard db) (calls : List TransitionCall) :
    (∀ cardId, JournalSound (transitionRun redactSecrets db calls) cardId) ∧
    (∀ cardId more, cardStatus (transitionRun redactSecrets db calls) cardId = some .delivered →
      cardStatus (transitionRun redactSecrets db (calls ++ more)) cardId = some .delivered) ∧
    (∀ (call : TransitionCall) outcome db',
      kanbanTransition redactSecrets call.now call.req (transitionRun redactSecrets db calls) =
        .ok (outcome, db') → (∀ from_, outcome ≠ .applied from_) →
      db'.kanbanCardTransitions =
          (transitionRun redactSecrets db calls).kanbanCardTransitions ∧
        db'.peerCallbackOutbox = (transitionRun redactSecrets db calls).peerCallbackOutbox) := by
  refine ⟨fun cardId => (boardHistory_run redactSecrets db calls hboard).sound cardId, ?_, ?_⟩
  · intro cardId more hdelivered
    rw [transitionRun, runFrom_append]
    exact delivered_run redactSecrets cardId _ more hdelivered
  · intro call outcome db' h hquiet
    exact quiet_of_not_applied h hquiet

def enqueuedDb : Db :=
  { Db.empty with kanbanBoard := Table.ofRows [newCard 1 "agent" none none .queued 0] }

def moveCard (fromSet : List CardStatus) (toStatus : CardStatus) : TransitionCall where
  now := 1000
  req :=
    { cardId := 1
      fromSet := fromSet
      toStatus := toStatus
      actor := .dispatch
      reason := "move"
      attemptId := none
      claimGeneration := none
      outboxCallback := none
      fields := []
      extraPredicate := none }

theorem journal_of_moved_card :
    (∀ cardId, JournalSound (transitionRun id enqueuedDb
      [moveCard [.queued] .running, moveCard [.running, .done] .done]) cardId) ∧
    (cardJournal (transitionRun id enqueuedDb
      [moveCard [.queued] .running, moveCard [.running, .done] .done]) 1).map
        (fun row => (row.fromStatus, row.toStatus)) = [(.queued, .running), (.running, .done)] :=
  ⟨(journal_is_history id enqueuedDb ⟨by decide, rfl⟩
      [moveCard [.queued] .running, moveCard [.running, .done] .done]).1, by decide +kernel⟩

end Abtars
