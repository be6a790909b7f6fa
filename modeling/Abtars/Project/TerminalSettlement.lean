import Abtars.Project.ReviewSettlement

/-!
# What a terminal settlement does

A settlement that goes through found its project live, recorded its decision or found one, and wrote
supervision, owners, card, review and outbox together.
-/

namespace Abtars

open Lib

namespace ReviewStore

variable {input : SettlementInput} {writes : TerminalWrites} {reviewCase : ReviewCaseRow}
  {now : Millis} {cardId : Nat}

variable {rt : Runtime} {s s' : ReviewStore}

/-! ## Supervision -/

def supervisionWrite (state : ProjectState) (advance : Int) (row : ProjectSupervisionRow) :
    ProjectSupervisionRow :=
  { row with state := state, generation := row.generation + advance }

theorem key_supervisionWrite (state : ProjectState) (advance : Int) (row : ProjectSupervisionRow) :
    Keyed.key (supervisionWrite state advance row) = Keyed.key row := rfl

def supervised (s : ReviewStore) (cardId : Nat) (state : ProjectState) (advance : Int)
    (write : SupervisionColumns → SupervisionColumns) : ReviewStore :=
  setColumns { s with
    db := { s.db with
      projectSupervision := s.db.projectSupervision.modify cardId
        (supervisionWrite state advance) (key_supervisionWrite state advance) } } cardId write

theorem updateSupervision_cases (s : ReviewStore) (cardId : Nat)
    (guard : ProjectSupervisionRow → Bool) (state : ProjectState) (advance : Int)
    (write : SupervisionColumns → SupervisionColumns) :
    ((∀ row, s.db.projectSupervision.get cardId = some row → guard row = false) ∧
      s.updateSupervision cardId guard state advance write = (false, s)) ∨
    ∃ row, s.db.projectSupervision.get cardId = some row ∧ guard row = true ∧
      s.updateSupervision cardId guard state advance write =
        (true, s.supervised cardId state advance write) := by
  rcases Table.cas_cases s.db.projectSupervision cardId guard (supervisionWrite state advance)
      (key_supervisionWrite state advance) with ⟨hlost, hcas⟩ | ⟨row, hget, hguard, hcas⟩
  · refine .inl ⟨hlost, ?_⟩
    change (if (s.db.projectSupervision.cas cardId guard (supervisionWrite state advance)
      (key_supervisionWrite state advance)).1 = true then _ else _) = _
    rw [hcas]
    rfl
  · refine .inr ⟨row, hget, hguard, ?_⟩
    change (if (s.db.projectSupervision.cas cardId guard (supervisionWrite state advance)
      (key_supervisionWrite state advance)).1 = true then
        (true, setColumns { s with db := { s.db with
          projectSupervision := (s.db.projectSupervision.cas cardId guard
            (supervisionWrite state advance) (key_supervisionWrite state advance)).2 } } cardId
          write) else _) = _
    rw [hcas]
    rfl

theorem stateTransition_cases (s : ReviewStore) (cardId : Nat) (fromStates : List ProjectState)
    (toState : ProjectState) (extra : ExtraSets) (authority : Option ProjectMutationAuthority) :
    s.stateTransition cardId fromStates toState extra authority = (false, s) ∨
    ∃ row, s.db.projectSupervision.get cardId = some row ∧ row.state ∈ fromStates ∧
      s.authorityRejection cardId authority = none ∧
      s.stateTransition cardId fromStates toState extra authority =
        (true, s.supervised cardId toState 0 extra.write) := by
  rw [stateTransition]
  cases hfree : s.authorityRejection cardId authority with
  | some rejection => exact .inl rfl
  | none =>
    rcases updateSupervision_cases s cardId
        (fun row => atGeneration authority row ∧ row.state ∈ fromStates) toState 0
        extra.write with ⟨-, hupdate⟩ | ⟨row, hrow, hguard, hupdate⟩
    · exact .inl hupdate
    · exact .inr ⟨row, hrow, (of_decide_eq_true hguard).2, rfl, hupdate⟩

def decidedColumns (writes : TerminalWrites) (decisionId : String)
    (columns : SupervisionColumns) : SupervisionColumns :=
  { columns with
    acceptedDecisionId := some decisionId
    blockedReason := writes.blockedReason <|> columns.blockedReason }

theorem endSupervision_ok
    {decisionId : String} (h : s.endSupervision input writes decisionId = .ok s') :
    ∃ row, s.db.projectSupervision.get input.cardId = some row ∧
      row.state.isTerminal = false ∧
      s' = s.supervised input.cardId writes.state 0 (decidedColumns writes decisionId) := by
  have hupdate := updateSupervision_cases s input.cardId
    (fun row => atGeneration input.authority row ∧ !row.state.isTerminal) writes.state 0
    (decidedColumns writes decisionId)
  unfold decidedColumns at hupdate
  rw [endSupervision] at h
  rcases hupdate with ⟨-, hupdate⟩ | ⟨row, hrow, hguard, hupdate⟩
  · rw [hupdate] at h
    cases h
  · rw [hupdate] at h
    cases h
    exact ⟨row, hrow, by simpa using (of_decide_eq_true hguard).2, rfl⟩

/-! ## Decisions and events -/

inductive Records (s : ReviewStore) (input : SettlementInput) (row : ReviewDecisionRow)
    (id : String) (decisions : Table ReviewDecisionRow) : Prop
  | reused (existing : ReviewDecisionRow) (found : s.decisionOf input.reviewCaseId = some existing)
      (same : existing.id = id) (kept : decisions = s.decisions)
  | inserted (free : s.decisionOf input.reviewCaseId = none) (named : input.decisionId = id)
      (stored : s.decisions.insert (fun other => other.reviewCaseId = input.reviewCaseId) row =
        some decisions)

theorem persistReviewDecision_ok {now : Millis} {input : SettlementInput} {digest id : String}
    (h : s.persistReviewDecision now input.reviewCaseId input.decision digest input.decisionId =
      .ok (id, s')) :
    ∃ decisions, s' = { s with decisions := decisions } ∧
      Records s input ⟨input.decisionId, input.reviewCaseId, input.decision, digest, now⟩ id
        decisions := by
  rw [persistReviewDecision] at h
  split at h
  · rename_i existing hfound
    cases h
    exact ⟨s.decisions, rfl, .reused existing hfound rfl rfl⟩
  rename_i hfree
  split at h
  · cases h
  · rename_i decisions hinsert
    cases h
    exact ⟨decisions, rfl, .inserted hfree rfl hinsert⟩

def queued (outbox : Table AcceptanceOutboxRow) (now : Millis) (cardId : Nat)
    (decisionId : String) : Option PeerTerminalEvent → Table AcceptanceOutboxRow
  | none => outbox
  | some event =>
    outbox.insertOrIgnore (fun row => row.projectCardId = cardId)
      (outboxRow now cardId decisionId event)

/-! ## The card -/

/-- A card that a settlement moved was live, and is what its project's state makes it. -/
structure CardSettled (board board' : Table KanbanCard) (cardId : Nat) (state : ProjectState) :
    Prop where
  live : ∃ card, board.get cardId = some card ∧
    (card.status = .queued ∨ card.status = .running)
  moved : (board'.get cardId).map (·.status) = some (projectStateToKanban state)
  parents : SameParents board board'
  size : board'.rows.length = board.rows.length

theorem settleCard_ok {now : Millis} {cardId : Nat} {state : ProjectState} {reason : String}
    {fields : List FieldWrite} (h : settleCard rt s now cardId state reason fields = .ok s') :
    ∃ board journal next outbox, CardSettled s.db.kanbanBoard board cardId state ∧
      s' = { s with
        db := { s.db with
          kanbanBoard := board
          kanbanCardTransitions := journal
          nextTransitionId := next
          peerCallbackOutbox := outbox } } := by
  rw [settleCard] at h
  split at h
  · cases h
  · rename_i from_ db htransition
    cases h
    rcases kanbanTransition_cases htransition with ⟨_, hno, -⟩ | ⟨_, -, -, -, hre, -⟩ |
      ⟨card, hcard, hfrom, -, -, -, rfl⟩
    · cases hno
    · cases hre
    · refine ⟨_, _, _, _, ⟨⟨card, hcard, by simpa using hfrom⟩, ?_, ?_, ?_⟩, rfl⟩
      · rw [get_updateCard_same, Option.map_map, hcard]
        simp
      · exact SameParents.modify _ _ _ _ fun card => congrArg Prod.fst (writeCard_lineage card)
      · simp [updateCard, Table.modify, Table.updateWhere]
  · cases h
  · cases h

/-! ## The settlement -/

structure Terminates (s : ReviewStore) (at_ : Moment) (input : SettlementInput)
    (writes : TerminalWrites) (id : String) (s' : ReviewStore) : Prop where
  checked : s.assertReviewMutationAuthority input.cardId input.reviewCaseId input.authority =
    .ok ()
  decided : Records s input ⟨input.decisionId, input.reviewCaseId, input.decision,
    terminalDigest at_ input writes, at_.now⟩ id s'.decisions
  announced : ∃ event,
    s.resolveTerminalPeerEvent at_.clock input.cardId id writes.recipe = .ok event ∧
      s'.outbox = queued s.outbox at_.now input.cardId id event
  closed : ∃ row, s.db.projectSupervision.get input.cardId = some row ∧
    row.state.isTerminal = false ∧
    s'.cases = ((s.invalidateOwnership at_.now input.cardId input.reviewCaseId).closeReview at_.now
      input.cardId (some row.generation) input.reviewCaseId writes.caseStatus
      writes.supersededAt).cases
  supervision : s'.db.projectSupervision = s.db.projectSupervision.modify input.cardId
    (supervisionWrite writes.state 0) (key_supervisionWrite writes.state 0)
  columns : s'.columns = fun cardId =>
    if cardId = input.cardId then decidedColumns writes id (s.columns cardId)
    else s.columns cardId
  inputs : s'.inputs = s.inputs
  attempts : s'.db.workerAttempts =
    (Abtars.invalidateOwnership at_.now input.cardId s.db).workerAttempts
  card : CardSettled s.db.kanbanBoard s'.db.kanbanBoard input.cardId writes.state

theorem terminalBody_ok {at_ : Moment}
    {id : String} (h : terminalBody rt at_ input writes s = .ok (id, s')) :
    Terminates s at_ input writes id s' := by
  obtain ⟨⟨⟩, hchecked, h⟩ := bind_eq_ok.1 h
  obtain ⟨⟨decisionId, persisted⟩, hpersisted, h⟩ := bind_eq_ok.1 h
  obtain ⟨event, hevent, h⟩ := bind_eq_ok.1 h
  obtain ⟨ended, hended, h⟩ := bind_eq_ok.1 h
  obtain ⟨settled, hsettled, h⟩ := bind_eq_ok.1 h
  obtain ⟨decisions, rfl, hrecords⟩ := persistReviewDecision_ok hpersisted
  obtain ⟨row, hrow, hlive, rfl⟩ := endSupervision_ok hended
  obtain ⟨board, journal, next, outbox, hcard, rfl⟩ := settleCard_ok hsettled
  cases h
  have hget : s.db.projectSupervision.get input.cardId = some row := hrow
  have hgeneration : (((({ s with decisions := decisions } : ReviewStore).supervised input.cardId
      writes.state 0 (decidedColumns writes decisionId)).generationOf input.cardId).getD 1) =
      row.generation := by
    simp [generationOf, supervised, setColumns, hget, supervisionWrite]
  rw [hgeneration]
  cases event with
  | none =>
    exact ⟨hchecked, hrecords, ⟨none, hevent, rfl⟩, ⟨row, hget, hlive, rfl⟩, rfl, rfl, rfl, rfl,
      hcard⟩
  | some event =>
    exact ⟨hchecked, hrecords, ⟨some event, hevent, rfl⟩, ⟨row, hget, hlive, rfl⟩, rfl, rfl, rfl,
      rfl, hcard⟩

/-! ## Reviews that go on -/

theorem settleRepairBody_ok {at_ : Moment} {input : SettlementInput}
    {expectedGeneration additionalTokens : Int} {decisionId : String}
    (h : settleRepairBody at_ input expectedGeneration additionalTokens s = .ok (decisionId, s')) :
    ∃ digest decisions row,
      Records s input ⟨input.decisionId, input.reviewCaseId, input.decision, digest, at_.now⟩
        decisionId decisions ∧
      s.db.projectSupervision.get input.cardId = some row ∧ isReviewable row.state = true ∧
      s' = ((({ s with decisions := decisions } : ReviewStore).supervised input.cardId
        .repairPlanned 1 id).addTokens at_.now input.cardId additionalTokens).closeReview at_.now
          input.cardId (some expectedGeneration) input.reviewCaseId .superseded (some at_.now) := by
  obtain ⟨⟨⟩, -, h⟩ := bind_eq_ok.1 h
  obtain ⟨⟨persistedId, persisted⟩, hpersisted, h⟩ := bind_eq_ok.1 h
  obtain ⟨decisions, rfl, hrecords⟩ := persistReviewDecision_ok hpersisted
  have hupdate := updateSupervision_cases { s with decisions := decisions } input.cardId
    (fun row => row.generation = expectedGeneration ∧ isReviewable row.state) .repairPlanned 1 id
  rcases hupdate with ⟨-, hupdate⟩ | ⟨row, hrow, hguard, hupdate⟩
  · rw [hupdate] at h
    cases h
  · rw [hupdate] at h
    cases h
    exact ⟨_, decisions, row, hrecords, hrow, (of_decide_eq_true hguard).2, rfl⟩

theorem settleNeedsInputBody_ok {at_ : Moment} {input : SettlementInput} {needed : NeededInput}
    {decisionId : String} (h : settleNeedsInputBody at_ input needed s = .ok (decisionId, s')) :
    ∃ digest decisions row asked,
      Records s input ⟨input.decisionId, input.reviewCaseId, input.decision, digest, at_.now⟩
        decisionId decisions ∧
      s.db.projectSupervision.get input.cardId = some row ∧ isReviewable row.state = true ∧
      (({ s with decisions := decisions } : ReviewStore).supervised input.cardId .needsInput 0
        fun columns => { columns with
          activeReviewCaseId := some input.reviewCaseId }).insertInputRequest at_.now input needed =
        .ok asked ∧
      s' = (asked.noticeInput at_.now input.cardId needed.question).closeReview at_.now
        input.cardId (input.authority.map (·.projectGeneration)) input.reviewCaseId .superseded
        (some at_.now) := by
  obtain ⟨⟨⟩, -, h⟩ := bind_eq_ok.1 h
  obtain ⟨⟨persistedId, persisted⟩, hpersisted, h⟩ := bind_eq_ok.1 h
  obtain ⟨decisions, rfl, hrecords⟩ := persistReviewDecision_ok hpersisted
  have hupdate := updateSupervision_cases { s with decisions := decisions } input.cardId
    (fun row => atGeneration input.authority row ∧ isReviewable row.state) .needsInput 0
    fun columns => { columns with activeReviewCaseId := some input.reviewCaseId }
  rcases hupdate with ⟨-, hupdate⟩ | ⟨row, hrow, hguard, hupdate⟩
  · rw [hupdate] at h
    cases h
  · rw [hupdate] at h
    obtain ⟨asked, hasked, h⟩ := bind_eq_ok.1 h
    cases h
    exact ⟨_, decisions, row, asked, hrecords, hrow, (of_decide_eq_true hguard).2, hasked, rfl⟩

/-! ## Ends of a project -/

structure Ends (s : ReviewStore) (now : Millis) (cardId : Nat) (state : ProjectState)
    (s' : ReviewStore) : Prop where
  found : (s.db.projectSupervision.get cardId).isSome = true
  supervision : s'.db.projectSupervision = s.db.projectSupervision.modify cardId
    (supervisionWrite state 0) (key_supervisionWrite state 0)
  cases : ∀ reviewCase ∈ s'.cases, reviewCase.status = .open_ →
    reviewCase ∈ s.cases ∧ reviewCase.projectCardId ≠ cardId
  inputs : s'.inputs = s.inputs
  attempts : s'.db.workerAttempts = (Abtars.invalidateOwnership now cardId s.db).workerAttempts
  parents : SameParents s.db.kanbanBoard s'.db.kanbanBoard
  size : s'.db.kanbanBoard.rows.length = s.db.kanbanBoard.rows.length

theorem open_of_written {cases : Table ReviewCaseRow} {guard : ReviewCaseRow → Bool}
    {write : ReviewCaseRow → ReviewCaseRow}
    (h : ∃ old ∈ cases, (if guard old then write old else old) = reviewCase)
    (hclose : ∀ row, (write row).status ≠ .open_) (hopen : reviewCase.status = .open_) :
    reviewCase ∈ cases ∧ guard reviewCase = false := by
  obtain ⟨old, hold, rfl⟩ := h
  cases hguard : guard old with
  | true =>
    rw [hguard, if_pos rfl] at hopen
    exact absurd hopen (hclose old)
  | false =>
    exact ⟨hold, hguard⟩

theorem open_of_invalidateOwnership {reviewCaseId : String}
    (h : reviewCase ∈ (s.invalidateOwnership now cardId reviewCaseId).cases)
    (hopen : reviewCase.status = .open_) :
    reviewCase ∈ s.cases ∧ (reviewCase.projectCardId = cardId → reviewCase.id = reviewCaseId) := by
  rw [invalidateOwnership, Table.mem_updateWhere] at h
  obtain ⟨hmem, hguard⟩ := open_of_written h (by simp) hopen
  refine ⟨hmem, fun hproject => ?_⟩
  by_contra hid
  simp [hproject, hopen, hid] at hguard

theorem generation_of_checked
    {authority : Option ProjectMutationAuthority} {row : ProjectSupervisionRow}
    (h : s.assertReviewMutationAuthority cardId reviewCase.id authority = .ok ())
    (hcase : reviewCase ∈ s.cases) (hrow : s.db.projectSupervision.get cardId = some row) :
    reviewCase.projectCardId = cardId ∧ reviewCase.generation = row.generation := by
  have hget : s.cases.get reviewCase.id = some reviewCase := Table.get_key_of_mem hcase
  obtain ⟨⟨⟩, -, h⟩ := bind_eq_ok.1 h
  rw [hget] at h
  by_cases hproject : reviewCase.projectCardId = cardId
  swap
  · simp [caseRejection, hproject] at h
  by_cases hopen : reviewCase.status = .open_
  swap
  · simp [caseRejection, hproject, hopen] at h
  by_cases hgeneration : s.generationOf cardId = some reviewCase.generation
  · rw [generationOf, hrow, Option.map_some, Option.some.injEq] at hgeneration
    exact ⟨hproject, hgeneration.symm⟩
  · simp [caseRejection, hproject, hopen, hgeneration] at h

theorem Terminates.ends {at_ : Moment} {id : String} (h : Terminates s at_ input writes id s')
    (hclose : writes.caseStatus ≠ .open_) : Ends s at_.now input.cardId writes.state s' := by
  obtain ⟨row, hrow, -, hcases⟩ := h.closed
  refine ⟨by rw [hrow]; rfl, h.supervision, fun reviewCase hmem hopen => ?_, h.inputs, h.attempts,
    h.card.parents, h.card.size⟩
  rw [hcases, closeReview, Table.mem_updateWhere] at hmem
  obtain ⟨hmem, hguard⟩ := open_of_written hmem (fun _ => hclose) hopen
  obtain ⟨hmem, hsettled⟩ := open_of_invalidateOwnership hmem hopen
  refine ⟨hmem, fun hproject => ?_⟩
  -- the settled case itself is closed at the generation it was checked against
  have hid := hsettled hproject
  have hchecked := h.checked
  rw [← hid] at hchecked
  obtain ⟨-, hgeneration⟩ := generation_of_checked hchecked hmem hrow
  simp [hid, hopen, hproject, hgeneration] at hguard

structure Blocks (s : ReviewStore) (now : Millis) (cardId : Nat) (reason : String)
    (extra : ExtraSets) (s' : ReviewStore) : Prop where
  found : (s.db.projectSupervision.get cardId).isSome = true
  shape : ∃ board journal next outbox, SameParents s.db.kanbanBoard board ∧
    board.rows.length = s.db.kanbanBoard.rows.length ∧
    s' = { (s.supervised cardId .blocked 0 fun columns =>
        extra.write { columns with
          blockedReason := some (sliceText reason 500) }).invalidateOwnership now cardId "" with
      db := { ((s.supervised cardId .blocked 0 id).invalidateOwnership now cardId "").db with
        kanbanBoard := board
        kanbanCardTransitions := journal
        nextTransitionId := next
        peerCallbackOutbox := outbox } }

theorem blockProjectBody_ok {reason : String} {extra : ExtraSets}
    {failCard landed : Bool} {authority : Option ProjectMutationAuthority}
    (h : blockProjectBody rt now cardId reason extra failCard authority s = .ok (landed, s')) :
    (landed = false ∧ s' = s) ∨ (landed = true ∧ Blocks s now cardId reason extra s') := by
  rw [blockProjectBody] at h
  split at h
  · cases h
    exact .inl ⟨rfl, rfl⟩
  have hupdate := updateSupervision_cases s cardId
    (fun row => atGeneration authority row ∧ !row.state.isTerminal) .blocked 0
    fun columns => extra.write { columns with blockedReason := some (sliceText reason 500) }
  rcases hupdate with ⟨-, hupdate⟩ | ⟨row, hrow, -, hupdate⟩
  · rw [hupdate] at h
    cases h
    exact .inl ⟨rfl, rfl⟩
  rw [hupdate] at h
  have hfound : (s.db.projectSupervision.get cardId).isSome = true := by rw [hrow]; rfl
  split at h
  · obtain ⟨settled, hsettled, h⟩ := bind_eq_ok.1 h
    obtain ⟨board, journal, next, outbox, hcard, rfl⟩ := settleCard_ok hsettled
    cases h
    exact .inr ⟨rfl, hfound, board, journal, next, outbox, hcard.parents, hcard.size, rfl⟩
  · cases h
    exact .inr ⟨rfl, hfound, _, _, _, _, .refl _, rfl, rfl⟩

theorem Blocks.ends {reason : String} {extra : ExtraSets}
    (h : Blocks s now cardId reason extra s') : Ends s now cardId .blocked s' := by
  obtain ⟨board, journal, next, outbox, hparents, hsize, rfl⟩ := h.shape
  refine ⟨h.found, rfl, fun reviewCase hmem hopen => ?_, rfl, rfl, hparents, hsize⟩
  obtain ⟨hold, hid⟩ := open_of_invalidateOwnership hmem hopen
  exact ⟨hold, fun hproject => reviewCase.named (hid hproject)⟩

end ReviewStore

end Abtars
