import Abtars.Project.TerminalSettlement

/-!
# Finality of a settlement

A call that throws or is refused leaves the store as it was.  One that ends a project closes its
reviews and cancels what could still be claimed below it, and nothing opens them again; but it looks
at no question that is still pending, and `initializeSupervision` writes the state of a row that is
there, whatever it is.
-/

namespace Abtars

open Lib ReviewStore

def isRefused : Except ReviewStoreError ReviewOutcome → Bool
  | .error _ => true
  | .ok (.moved landed) => !landed
  | .ok (.recorded (.ignored _ _)) => true
  | .ok _ => false

section Refused

variable {rt : Runtime} {s : ReviewStore}

theorem refused_answered {α : Type} {outcome : α → ReviewOutcome}
    {body : Body ReviewStore ReviewStoreError α}
    (hbody : ∀ a s', body s = .ok (a, s') → isRefused (.ok (outcome a)) = true → s' = s)
    (h : isRefused (answered outcome (transaction body s)).1 = true) :
    (answered outcome (transaction body s)).2 = s := by
  cases hresult : body s with
  | error e =>
    rw [transaction_of_error hresult]
    rfl
  | ok result =>
    rw [transaction_of_ok hresult] at h ⊢
    exact hbody result.1 result.2 hresult h

theorem refused_executed {result : Except ReviewStoreError ReviewStore}
    (h : isRefused (executed s result).1 = true) : (executed s result).2 = s := by
  cases result with
  | error e => rfl
  | ok s' => cases h

theorem bind_settle_recorded {body : Except ReviewStoreError (String × ReviewStore)}
    {total : Nat} {requestId : String} {record : InvalidProposalRecord} {s' : ReviewStore}
    (h : (body.bind fun settled =>
      .ok (InvalidProposalRecord.blocked total requestId settled.1, settled.2)) =
        .ok (record, s'))
    (hrefused : isRefused (.ok (.recorded record)) = true) : s' = s := by
  obtain ⟨settled, -, h⟩ := bind_eq_ok.1 h
  cases h
  cases hrefused

theorem reviewStep_of_refused (call : ReviewCall)
    (h : isRefused (reviewCall rt s call).1 = true) : reviewStep rt s call = s := by
  cases call with
  | initializeProjectSupervision | initializeSupervision => exact refused_executed h
  | ensureAwaitingContract cardId =>
    rw [reviewStep, reviewCall]
    rw [reviewCall] at h
    unfold ensureAwaitingContract at h ⊢
    split at h
    · rename_i htaken
      rw [if_pos htaken]
    · cases h
  | stateTransition cardId fromStates toState extra authority =>
    rcases stateTransition_cases s cardId fromStates toState extra authority with
      hrefused | ⟨_, -, -, -, hlanded⟩
    · rw [reviewStep, reviewCall, hrefused]
    · rw [reviewCall, hlanded] at h
      cases h
  | blockProject =>
    refine refused_answered (fun landed s' hbody hrefused => ?_) h
    rcases blockProjectBody_ok hbody with ⟨-, hsame⟩ | ⟨rfl, -⟩
    · exact hsame
    · cases hrefused
  | settleAcceptance | settleBlocked | settleRepair | settleNeedsInput =>
    exact refused_answered (fun id s' _ hrefused => by cases hrefused) h
  | recordInvalidProposal at_ input maxInvalidProposals blockerClass recipe =>
    refine refused_answered (fun record s' hbody hrefused => ?_) h
    rw [recordInvalidProposalBody] at hbody
    split at hbody
    · split at hbody
      · cases hbody
        rfl
      obtain ⟨⟨⟩, -, hbody⟩ := bind_eq_ok.1 hbody
      split at hbody
      · exact bind_settle_recorded hbody hrefused
      split at hbody
      · cases hbody
        cases hrefused
      · exact bind_settle_recorded hbody hrefused
    · cases hbody
      rfl
  | recordInvalidContractProposal =>
    refine refused_answered (fun record s' hbody hrefused => ?_) h
    rw [recordInvalidContractProposalBody] at hbody
    split at hbody
    · cases hbody
      rfl
    split at hbody
    · cases hbody
      rfl
    split at hbody
    · cases hbody
      rfl
    dsimp only at hbody
    split at hbody
    · cases hbody
      rfl
    split at hbody
    · cases hbody
      cases hrefused
    · exact bind_settle_recorded hbody hrefused

end Refused

/-! ## Closed projects -/

/-- `isTerminal` of the store. -/
def ReviewStore.isTerminal (s : ReviewStore) (cardId : Nat) : Bool :=
  (s.stateOf cardId).any (·.isTerminal)

def Unasked (s : ReviewStore) (cardId : Nat) : Prop :=
  ∀ input ∈ s.inputs, input.projectCardId = cardId → input.status ≠ .pending

structure Closed (s : ReviewStore) (cardId : Nat) : Prop where
  terminal : s.isTerminal cardId = true
  cases : ∀ reviewCase ∈ s.cases, reviewCase.projectCardId = cardId → reviewCase.status ≠ .open_
  inputs : Unasked s cardId
  attempts : ∀ attempt ∈ s.db.workerAttempts,
    isDescendant s.db.kanbanBoard cardId attempt.cardId = true → attempt.lifecycle ≠ .pending

structure NoNew (s s' : ReviewStore) (cardId : Nat) : Prop where
  cases : ∀ reviewCase ∈ s'.cases, reviewCase.status = .open_ → reviewCase ∈ s.cases
  inputs : ∀ input ∈ s'.inputs, input.projectCardId = cardId → input ∈ s.inputs
  attempts : ∀ attempt ∈ s'.db.workerAttempts, attempt.lifecycle = .pending →
    attempt ∈ s.db.workerAttempts
  parents : SameParents s.db.kanbanBoard s'.db.kanbanBoard
  size : s'.db.kanbanBoard.rows.length = s.db.kanbanBoard.rows.length

section Closed

variable {now : Millis} {project : Nat} {state : ProjectState} {at_ : Moment}
  {input : SettlementInput} {blockerClass decisionId : String} {recipe : Option PeerTerminalRecipe}
  {record : InvalidProposalRecord}

variable {rt : Runtime} {s s' s'' : ReviewStore} {cardId : Nat}

theorem NoNew.of_same (hcases : s'.cases = s.cases) (hinputs : s'.inputs = s.inputs)
    (hattempts : s'.db.workerAttempts = s.db.workerAttempts)
    (hboard : s'.db.kanbanBoard = s.db.kanbanBoard) : NoNew s s' cardId where
  cases := fun _ hmem _ => hcases ▸ hmem
  inputs := fun _ hmem _ => hinputs ▸ hmem
  attempts := fun _ hmem _ => hattempts ▸ hmem
  parents := by
    rw [hboard]
    exact .refl _
  size := by rw [hboard]

theorem NoNew.trans (h : NoNew s s' cardId) (h' : NoNew s' s'' cardId) : NoNew s s'' cardId where
  cases := fun c hmem hopen => h.cases c (h'.cases c hmem hopen) hopen
  inputs := fun i hmem hproject => h.inputs i (h'.inputs i hmem hproject) hproject
  attempts := fun a hmem hpending => h.attempts a (h'.attempts a hmem hpending) hpending
  parents := h.parents.trans h'.parents
  size := h'.size.trans h.size

theorem Closed.of_noNew (h : Closed s cardId) (hnew : NoNew s s' cardId)
    (hterminal : s'.isTerminal cardId = true) : Closed s' cardId where
  terminal := hterminal
  cases := fun reviewCase hmem hproject hopen =>
    h.cases reviewCase (hnew.cases reviewCase hmem hopen) hproject hopen
  inputs := fun input hmem hproject =>
    h.inputs input (hnew.inputs input hmem hproject) hproject
  attempts := fun attempt hmem hbelow hpending => by
    rw [hnew.parents.isDescendant_eq hnew.size] at hbelow
    exact h.attempts attempt (hnew.attempts attempt hmem hpending) hbelow hpending

theorem pending_of_invalidated {db : Db} {rootId : Nat} {attempt : AttemptRow}
    (h : attempt ∈ (Abtars.invalidateOwnership now rootId db).workerAttempts)
    (hpending : attempt.lifecycle = .pending) :
    attempt ∈ db.workerAttempts ∧ isDescendant db.kanbanBoard rootId attempt.cardId = false := by
  rw [Abtars.invalidateOwnership, Table.mem_updateWhere] at h
  obtain ⟨old, hold, rfl⟩ := h
  split at hpending
  · -- a pending attempt below the root is cancelled, a live one asked to stop
    unfold invalidateAttempt at hpending
    split at hpending
    · cases hpending
    split at hpending
    · cases hpending
    · rename_i hother
      exact absurd hpending hother
  · rename_i hbelow
    rw [if_neg hbelow]
    exact ⟨hold, by simpa using hbelow⟩

theorem NoNew.of_ends {now : Millis} {project : Nat} {state : ProjectState}
    (h : Ends s now project state s') : NoNew s s' cardId where
  cases := fun reviewCase hmem hopen => (h.cases reviewCase hmem hopen).1
  inputs := fun input hmem _ => h.inputs ▸ hmem
  attempts := fun attempt hmem hpending => by
    rw [h.attempts] at hmem
    exact (pending_of_invalidated hmem hpending).1
  parents := h.parents
  size := h.size

theorem isTerminal_modify (write : ProjectSupervisionRow → ProjectSupervisionRow)
    (hsupervision : ∃ hkey,
      s'.db.projectSupervision = s.db.projectSupervision.modify project write hkey)
    (hwrite : cardId = project → ∀ row, s.db.projectSupervision.get project = some row →
      row.state.isTerminal = true → (write row).state.isTerminal = true)
    (hterminal : s.isTerminal cardId = true) : s'.isTerminal cardId = true := by
  simp only [ReviewStore.isTerminal, stateOf, Option.any_map, Option.any_eq_true] at hterminal ⊢
  obtain ⟨row, hrow, hstate⟩ := hterminal
  obtain ⟨hkey, hmodified⟩ := hsupervision
  rw [hmodified, Table.get_modify, hrow]
  by_cases hproject : cardId = project
  · rw [if_pos hproject]
    exact ⟨write row, rfl, hwrite hproject row (hproject ▸ hrow) hstate⟩
  · rw [if_neg hproject]
    exact ⟨row, rfl, hstate⟩

theorem Closed.of_ends {now : Millis} {state : ProjectState} (h : Ends s now cardId state s')
    (hstate : state.isTerminal = true) (hunasked : Unasked s cardId) : Closed s' cardId where
  terminal := by
    obtain ⟨row, hrow⟩ := Option.isSome_iff_exists.1 h.found
    simp [ReviewStore.isTerminal, stateOf, h.supervision, Table.get_modify_same, hrow,
      supervisionWrite, hstate]
  cases := fun reviewCase hmem hproject hopen =>
    (h.cases reviewCase hmem hopen).2 hproject
  inputs := fun input hmem => hunasked input (h.inputs ▸ hmem)
  attempts := fun attempt hmem hbelow hpending => by
    rw [h.attempts] at hmem
    rw [h.parents.isDescendant_eq h.size, (pending_of_invalidated hmem hpending).2] at hbelow
    cases hbelow

theorem Closed.ends (h : Closed s cardId)
    (hends : Ends s now project state s') (hstate : state.isTerminal = true) : Closed s' cardId :=
  h.of_noNew (.of_ends hends)
    (isTerminal_modify _ ⟨_, hends.supervision⟩ (fun _ _ _ _ => hstate) h.terminal)

theorem Closed.supervised {advance : Int}
    {write : SupervisionColumns → SupervisionColumns} (h : Closed s cardId)
    (hwrite : cardId = project → ∀ row, s.db.projectSupervision.get project = some row →
      row.state.isTerminal = true → state.isTerminal = true) :
    Closed (s.supervised project state advance write) cardId :=
  h.of_noNew (.of_same rfl rfl rfl rfl)
    (isTerminal_modify (supervisionWrite state advance)
      ⟨key_supervisionWrite state advance, rfl⟩ hwrite h.terminal)

theorem Closed.insertSupervision {contractId : String}
    (h : Closed s cardId) : Closed (s.insertSupervision project contractId state) cardId := by
  refine h.of_noNew (.of_same rfl rfl rfl rfl) ?_
  have hterminal := h.terminal
  simp only [ReviewStore.isTerminal, stateOf, Option.any_map, Option.any_eq_true] at hterminal ⊢
  obtain ⟨row, hrow, hstate⟩ := hterminal
  exact ⟨row, Table.get_insertOrIgnore_of_some hrow, hstate⟩

theorem Closed.upsertSupervision {contractId : String} {inserted : ProjectState}
    {updated : ProjectState → ProjectState} (h : Closed s cardId)
    (hupdated : cardId = project → ∀ state : ProjectState, state.isTerminal = true →
      (updated state).isTerminal = true) :
    Closed (executed s (s.upsertSupervision project contractId inserted updated)).2 cardId := by
  unfold ReviewStore.upsertSupervision
  split
  · exact h
  split
  · exact h.of_noNew (.of_same rfl rfl rfl rfl)
      (isTerminal_modify (fun row => { row with state := updated row.state })
        ⟨fun _ => rfl, rfl⟩ (fun hproject row _ => hupdated hproject row.state) h.terminal)
  · exact h.insertSupervision

theorem Closed.transaction {α : Type} {outcome : α → ReviewOutcome}
    {body : Body ReviewStore ReviewStoreError α} (h : Closed s cardId)
    (hbody : ∀ a s', body s = .ok (a, s') → Closed s' cardId) :
    Closed (answered outcome (Lib.transaction body s)).2 cardId := by
  cases hresult : body s with
  | error e =>
    rw [transaction_of_error hresult]
    exact h
  | ok result =>
    rw [transaction_of_ok hresult]
    exact hbody result.1 result.2 hresult

theorem Closed.terminalBody {writes : TerminalWrites} {id : String} (h : Closed s cardId)
    (hclose : writes.caseStatus ≠ .open_) (hstate : writes.state.isTerminal = true)
    (hbody : terminalBody rt at_ input writes s = .ok (id, s')) : Closed s' cardId :=
  h.ends ((terminalBody_ok hbody).ends hclose) hstate

theorem Closed.settleBlockedBody {id : String} (h : Closed s cardId)
    (hbody : settleBlockedBody rt at_ input blockerClass recipe s = .ok (id, s')) :
    Closed s' cardId :=
  h.terminalBody (by simp [block]) rfl hbody

theorem noNew_closeReview {now : Millis} {project : Nat} {generation : Option Int}
    {reviewCaseId : String} {status : ReviewCaseStatus} {supersededAt : Option Millis}
    (hclose : status ≠ .open_) : NoNew s
      (s.closeReview now project generation reviewCaseId status supersededAt) cardId where
  cases := fun reviewCase hmem hopen => by
    rw [closeReview, Table.mem_updateWhere] at hmem
    exact (open_of_written hmem (fun _ => hclose) hopen).1
  inputs := fun _ hmem _ => hmem
  attempts := fun _ hmem _ => hmem
  parents := .refl _
  size := rfl

theorem noNew_modifyBoard {project : Nat} (write : KanbanCard → KanbanCard)
    (hkey : ∀ card, Keyed.key (write card) = Keyed.key card)
    (hparent : ∀ card, (write card).parentId = card.parentId) :
    NoNew s { s with db := { s.db with
      kanbanBoard := s.db.kanbanBoard.modify project write hkey } } cardId where
  cases := fun _ hmem _ => hmem
  inputs := fun _ hmem _ => hmem
  attempts := fun _ hmem _ => hmem
  parents := .modify _ _ write hkey hparent
  size := by simp [Table.modify, Table.updateWhere]

theorem noNew_addTokens {additionalTokens : Int} :
    NoNew s (s.addTokens now project additionalTokens) cardId := by
  rw [addTokens]
  split
  · exact noNew_modifyBoard
      (fun card => { card with
        maxTokens := some (card.maxTokens.getD 0 + additionalTokens), updatedAt := now })
      (fun _ => rfl) fun _ => rfl
  · exact .of_same rfl rfl rfl rfl

theorem noNew_insertInputRequest {needed : NeededInput} (hother : cardId ≠ input.cardId)
    (h : s.insertInputRequest now input needed = .ok s') : NoNew s s' cardId := by
  rw [insertInputRequest] at h
  split at h
  · cases h
  rename_i inputs hinsert
  cases h
  refine ⟨fun _ hmem _ => hmem, fun row hmem hproject => ?_, fun _ hmem _ => hmem, .refl _, rfl⟩
  rcases (Table.mem_insert hinsert).1 hmem with hold | rfl
  · exact hold
  · exact absurd hproject.symm hother

theorem reviewable_ne_terminal (h : isReviewable state = true) : state.isTerminal = false := by
  cases state <;> first | rfl | cases h

theorem Closed.reviewable {row : ProjectSupervisionRow} (h : Closed s cardId)
    (hrow : s.db.projectSupervision.get project = some row)
    (hreviewable : isReviewable row.state = true) : cardId ≠ project := by
  rintro rfl
  have hterminal := h.terminal
  rw [ReviewStore.isTerminal, stateOf, hrow] at hterminal
  have hstate : row.state.isTerminal = true := hterminal
  rw [reviewable_ne_terminal hreviewable] at hstate
  cases hstate

theorem Closed.settleRepairBody
    {expectedGeneration additionalTokens : Int} (h : Closed s cardId)
    (hbody : settleRepairBody at_ input expectedGeneration additionalTokens s =
      .ok (decisionId, s')) : Closed s' cardId := by
  obtain ⟨_, decisions, row, -, hrow, hreviewable, rfl⟩ := settleRepairBody_ok hbody
  have hother := h.reviewable hrow hreviewable
  have hmoved : Closed (({ s with decisions := decisions } : ReviewStore).supervised input.cardId
      .repairPlanned 1 id) cardId :=
    Closed.supervised (h.of_noNew (.of_same rfl rfl rfl rfl) h.terminal)
      fun hsame => absurd hsame hother
  refine hmoved.of_noNew (noNew_addTokens.trans (noNew_closeReview (by simp))) ?_
  have hterminal := hmoved.terminal
  unfold addTokens
  split <;> exact hterminal

theorem Closed.settleNeedsInputBody {needed : NeededInput} (h : Closed s cardId)
    (hbody : settleNeedsInputBody at_ input needed s = .ok (decisionId, s')) :
    Closed s' cardId := by
  obtain ⟨_, decisions, row, asked, -, hrow, hreviewable, hasked, rfl⟩ :=
    settleNeedsInputBody_ok hbody
  have hother := h.reviewable hrow hreviewable
  have hmoved : Closed (({ s with decisions := decisions } : ReviewStore).supervised input.cardId
      .needsInput 0 fun columns => { columns with
        activeReviewCaseId := some input.reviewCaseId }) cardId :=
    Closed.supervised (h.of_noNew (.of_same rfl rfl rfl rfl) h.terminal)
      fun hsame => absurd hsame hother
  have hnoticed : NoNew asked (asked.noticeInput at_.now input.cardId needed.question) cardId :=
    noNew_modifyBoard
      (fun card => { card with
        error := some (sliceText ("needs_input: " ++ needed.question) 1000)
        updatedAt := at_.now })
      (fun _ => rfl) fun _ => rfl
  have hnew := (noNew_insertInputRequest hother hasked).trans hnoticed
  refine hmoved.of_noNew (hnew.trans (noNew_closeReview (by simp))) ?_
  have hterminal := hmoved.terminal
  rw [insertInputRequest] at hasked
  split at hasked
  · cases hasked
  · cases hasked
    exact hterminal

theorem Closed.recorded {total : Nat} {requestId : String} (h : Closed s cardId)
    (hbody : ((ReviewStore.settleBlockedBody rt at_ input blockerClass recipe s).bind
      fun settled => .ok (InvalidProposalRecord.blocked total requestId settled.1, settled.2)) =
        .ok (record, s')) : Closed s' cardId := by
  obtain ⟨⟨decisionId, settled⟩, hsettled, hbody⟩ := bind_eq_ok.1 hbody
  cases hbody
  exact h.settleBlockedBody hsettled

theorem Closed.recordInvalidProposalBody
    {maxInvalidProposals : Nat} (h : Closed s cardId)
    (hbody : recordInvalidProposalBody rt at_ input maxInvalidProposals blockerClass recipe s =
      .ok (record, s')) : Closed s' cardId := by
  rw [ReviewStore.recordInvalidProposalBody] at hbody
  split at hbody
  · rename_i request reviewCase _ _
    have hcounted : Closed { s with
        requests := s.requests.modify request.id fun request =>
          { request with
            invalidProposals := request.invalidProposals + 1, updatedAt := at_.now } } cardId :=
      h.of_noNew (.of_same rfl rfl rfl rfl) h.terminal
    split at hbody
    · cases hbody
      exact h
    obtain ⟨⟨⟩, -, hbody⟩ := bind_eq_ok.1 hbody
    split at hbody
    · exact h.recorded hbody
    split at hbody
    · cases hbody
      exact hcounted
    · exact hcounted.recorded hbody
  · cases hbody
    exact h

theorem Closed.recordInvalidContractProposalBody
    {expectedGeneration : Int} {maxInvalidProposals : Nat} {decision : Json}
    {authority : ProjectMutationAuthority} (h : Closed s cardId)
    (hbody : recordInvalidContractProposalBody rt at_ project expectedGeneration
      maxInvalidProposals decision blockerClass decisionId authority s = .ok (record, s')) :
    Closed s' cardId := by
  have hcounted : Closed (s.setColumns project fun columns =>
      { columns with invalidContractProposals := columns.invalidContractProposals + 1 }) cardId :=
    h.of_noNew (.of_same rfl rfl rfl rfl) h.terminal
  rw [ReviewStore.recordInvalidContractProposalBody] at hbody
  split at hbody
  · cases hbody
    exact h
  split at hbody
  · cases hbody
    exact h
  split at hbody
  · cases hbody
    exact h
  dsimp only at hbody
  split at hbody
  · cases hbody
    exact h
  split at hbody
  · cases hbody
    exact hcounted
  · exact hcounted.recorded hbody

end Closed

section Runs

variable (rt : Runtime)

def endedProject (s : ReviewStore) (call : ReviewCall) : Option Nat :=
  match call, (reviewCall rt s call).1 with
  | .settleAcceptance _ input _ _, .ok _ => some input.cardId
  | .settleBlocked _ input _ _, .ok _ => some input.cardId
  | .blockProject _ cardId _ _ _ _, .ok (.moved true) => some cardId
  | _, _ => none

def Atomic (s : ReviewStore) (call : ReviewCall) : Prop :=
  isRefused (reviewCall rt s call).1 = true → reviewStep rt s call = s

/-- The call ends no project that has a pending question, and takes no terminal project out of its
terminal states. -/
def KeepsFinal (s : ReviewStore) : ReviewCall → Prop
  | .initializeSupervision cardId _ initialState =>
    s.isTerminal cardId = true → initialState.isTerminal = true
  | .stateTransition cardId fromStates toState _ none =>
    ∀ state ∈ fromStates, s.stateOf cardId = some state → state.isTerminal = true →
      toState.isTerminal = true
  | .settleAcceptance _ input _ _ => Unasked s input.cardId
  | .settleBlocked _ input _ _ => Unasked s input.cardId
  | .blockProject _ cardId _ _ _ _ => Unasked s cardId
  | _ => True

variable {rt} {s : ReviewStore} {call : ReviewCall} {cardId : Nat}

theorem atomic (s : ReviewStore) (call : ReviewCall) : Atomic rt s call :=
  reviewStep_of_refused call

theorem supervision_of_base {db : Db} {authority : ProjectMutationAuthority} {card : KanbanCard}
    {sup : ProjectSupervisionRow} (h : baseProjectAuthorityCheck db authority = .ok (card, sup)) :
    db.projectSupervision.get authority.projectCardId = some sup := by
  rw [baseProjectAuthorityCheck] at h
  split at h
  · cases h
  split at h
  · cases h
  split at h
  · cases h
  split at h
  · cases h
  rename_i row hrow
  split at h
  · cases h
  · cases h
    exact hrow

theorem rejected_of_terminal {authority : ProjectMutationAuthority}
    (hterminal : s.isTerminal cardId = true) :
    s.authorityRejection cardId (some authority) ≠ none := by
  rw [authorityRejection]
  split
  · exact Option.some_ne_none _
  rename_i hproject
  rw [not_ne_iff] at hproject
  intro hnone
  rw [Option.map_eq_none_iff, authorizeActiveProjectWork] at hnone
  split at hnone
  · cases hnone
  rename_i card sup hbase
  -- the check reads the row that is terminal
  have hrow := supervision_of_base hbase
  rw [hproject] at hrow
  rw [ReviewStore.isTerminal, stateOf, hrow] at hterminal
  have hstate : sup.state.isTerminal = true := hterminal
  rw [if_pos hstate] at hnone
  cases hnone

theorem Closed.stateTransition {project : Nat} {fromStates : List ProjectState}
    {toState : ProjectState} {extra : ExtraSets} {authority : Option ProjectMutationAuthority}
    (h : Closed s cardId)
    (hkeeps : KeepsFinal s (.stateTransition project fromStates toState extra authority)) :
    Closed (s.stateTransition project fromStates toState extra authority).2 cardId := by
  rcases stateTransition_cases s project fromStates toState extra authority with
    hlost | ⟨row, hrow, hfrom, hfree, hlanded⟩
  · rw [hlost]
    exact h
  rw [hlanded]
  refine Closed.supervised h fun hproject row' hrow' hterminal => ?_
  rw [hrow] at hrow'
  obtain rfl := Option.some.inj hrow'
  have hstate : s.stateOf project = some row.state := by rw [stateOf, hrow]; rfl
  cases authority with
  | none => exact hkeeps row.state hfrom hstate hterminal
  | some authority => exact absurd hfree (rejected_of_terminal (hproject ▸ h.terminal))

/-! ### One call -/

theorem Closed.reviewStep (h : Closed s cardId) (hkeeps : KeepsFinal s call) :
    Closed (reviewStep rt s call) cardId := by
  cases call with
  | initializeProjectSupervision project contractId =>
    exact h.upsertSupervision fun _ _ hterminal => hterminal
  | initializeSupervision project contractId initialState =>
    exact h.upsertSupervision fun hproject _ _ => hkeeps (hproject ▸ h.terminal)
  | ensureAwaitingContract project =>
    rw [Abtars.reviewStep, reviewCall, ReviewStore.ensureAwaitingContract]
    split
    · exact h
    · exact h.insertSupervision
  | stateTransition => exact h.stateTransition hkeeps
  | blockProject now project reason extra failCard authority =>
    refine h.transaction fun landed s' hbody => ?_
    rcases blockProjectBody_ok hbody with ⟨-, rfl⟩ | ⟨-, hblocks⟩
    · exact h
    · exact h.ends hblocks.ends rfl
  | settleAcceptance at_ input synthesis recipe =>
    exact h.transaction fun id s' hbody => h.terminalBody (by simp [acceptance]) rfl hbody
  | settleBlocked => exact h.transaction fun id s' hbody => h.settleBlockedBody hbody
  | settleRepair => exact h.transaction fun id s' hbody => h.settleRepairBody hbody
  | settleNeedsInput => exact h.transaction fun id s' hbody => h.settleNeedsInputBody hbody
  | recordInvalidProposal =>
    exact h.transaction fun record s' hbody => h.recordInvalidProposalBody hbody
  | recordInvalidContractProposal =>
    exact h.transaction fun record s' hbody => h.recordInvalidContractProposalBody hbody

theorem ran_of_answered {α : Type} {outcome : α → ReviewOutcome}
    {body : Body ReviewStore ReviewStoreError α} {result : ReviewOutcome}
    (h : (answered outcome (transaction body s)).1 = .ok result) :
    ∃ a s', body s = .ok (a, s') ∧ outcome a = result ∧
      (answered outcome (transaction body s)).2 = s' := by
  cases hresult : body s with
  | error e =>
    rw [transaction_of_error hresult] at h
    cases h
  | ok ran =>
    rw [transaction_of_ok hresult] at h ⊢
    exact ⟨ran.1, ran.2, rfl, Except.ok.inj h, rfl⟩

theorem closed_of_ended (hended : endedProject rt s call = some cardId)
    (hkeeps : KeepsFinal s call) : Closed (reviewStep rt s call) cardId := by
  unfold endedProject at hended
  split at hended
  · rename_i at_ input synthesis recipe outcome hok
    cases hended
    obtain ⟨id, s', hbody, -, hs'⟩ := ran_of_answered hok
    rw [Abtars.reviewStep, reviewCall, ReviewStore.settleAcceptance, hs']
    exact .of_ends ((terminalBody_ok hbody).ends (by simp [acceptance])) rfl hkeeps
  · rename_i at_ input blockerClass recipe outcome hok
    cases hended
    obtain ⟨id, s', hbody, -, hs'⟩ := ran_of_answered hok
    rw [Abtars.reviewStep, reviewCall, ReviewStore.settleBlocked, hs']
    exact .of_ends ((terminalBody_ok hbody).ends (by simp [block])) rfl hkeeps
  · rename_i now project reason extra failCard authority hok
    cases hended
    obtain ⟨landed, s', hbody, hlanded, hs'⟩ := ran_of_answered hok
    rw [Abtars.reviewStep, reviewCall, ReviewStore.blockProject, hs']
    rcases blockProjectBody_ok hbody with ⟨rfl, -⟩ | ⟨-, hblocks⟩
    · cases hlanded
    · exact .of_ends hblocks.ends rfl hkeeps
  · cases hended

/-! ### Every run -/

/-- A call that throws or is refused changes nothing; and in a run that reopens no project and ends
none with a question pending, a project that a call ends is closed from then on. -/
theorem settlement_final (rt : Runtime) (s : ReviewStore) (calls : List ReviewCall) :
    StepsMeet (reviewStep rt) (Atomic rt) s calls ∧
    (StepsMeet (reviewStep rt) KeepsFinal s calls →
      ∀ before call between rest cardId, calls = before ++ call :: between ++ rest →
        endedProject rt (runFrom (reviewStep rt) s before) call = some cardId →
        Closed (runFrom (reviewStep rt) s (before ++ call :: between)) cardId) := by
  refine ⟨stepsMeet_of_all atomic calls s, ?_⟩
  rintro hkeeps before call between rest cardId rfl hended
  rw [stepsMeet_append, stepsMeet_append] at hkeeps
  obtain ⟨⟨-, hcall, hbetween⟩, -⟩ := hkeeps
  have hstep : ∀ s call, Closed s cardId → KeepsFinal s call →
      Closed (reviewStep rt s call) cardId := fun _ _ h hkeeps => h.reviewStep hkeeps
  rw [runFrom_append, runFrom_cons]
  exact invariant_of_stepsMeet hstep between _ (closed_of_ended hended hcall) hbetween

def rootInReview : ReviewStore :=
  { ReviewStore.empty with
    db := { Db.empty with
      kanbanBoard := Table.ofRows [newCard 1 "agent" (some "O") none .running 0] } }

def epoch : Moment := ⟨0, ⟨"1970-01-01T00:00:00.000Z", by decide⟩⟩

/-- An acceptance with nothing asked, and a late move of the review that it ended. -/
theorem accepted_stays_closed :
    let calls := [.initializeSupervision 1 "pc_1" .reviewing,
      .settleAcceptance epoch ⟨1, "prc_1", .null, "d1", none⟩ "all criteria met" none,
      .stateTransition 1 [.reviewing] .repairPlanned ⟨none⟩ none]
    Closed (runFrom (reviewStep .plain) rootInReview calls) 1 := by
  intro calls
  have hkeeps : StepsMeet (reviewStep .plain) KeepsFinal rootInReview calls := by
    refine ⟨fun h => absurd h (by decide +kernel), fun input hmem => ?_, ?_, trivial⟩
    · have hnone : (runFrom (reviewStep .plain) rootInReview (calls.take 1)).inputs.rows = [] := by
        decide +kernel
      rw [Table.mem_def] at hmem
      exact absurd (hnone ▸ hmem) List.not_mem_nil
    · rintro state hfrom - hterminal
      rw [List.mem_singleton.1 hfrom] at hterminal
      cases hterminal
  exact (settlement_final .plain rootInReview calls).2 hkeeps
    [.initializeSupervision 1 "pc_1" .reviewing] _ [_] [] 1 rfl (by decide +kernel)

/-! ### A project that is blocked with its question open, and restarted -/

def askedAndBlocked : List ReviewCall :=
  [.initializeSupervision 1 "pc_1" .reviewing,
    .settleNeedsInput epoch ⟨1, "prc_1", .null, "d1", none⟩ ⟨"in_1", "which one?", [], "text", none⟩,
    .blockProject 0 1 "stopped by the owner" ⟨none⟩ true none]

def restartedCalls : List ReviewCall :=
  askedAndBlocked ++ [.initializeSupervision 1 "pc_1" .executing]

def finalityFacts (calls : List ReviewCall) : Option ProjectState × List InputRequestStatus :=
  let s := runFrom (reviewStep .plain) rootInReview calls
  (s.stateOf 1, s.inputs.rows.map (·.status))

theorem settlement_not_final :
    endedProject .plain (runFrom (reviewStep .plain) rootInReview (askedAndBlocked.take 2))
        (.blockProject 0 1 "stopped by the owner" ⟨none⟩ true none) = some 1 ∧
      finalityFacts askedAndBlocked = (some .blocked, [.pending]) ∧
      finalityFacts restartedCalls = (some .executing, [.pending]) ∧
      ¬ Closed (runFrom (reviewStep .plain) rootInReview askedAndBlocked) 1 ∧
      ¬ Closed (runFrom (reviewStep .plain) rootInReview restartedCalls) 1 := by
  have hblocked : (runFrom (reviewStep .plain) rootInReview askedAndBlocked).inputs.rows.map
      (fun input => (input.projectCardId, input.status)) = [(1, .pending)] := by decide +kernel
  have hrestarted : (runFrom (reviewStep .plain) rootInReview restartedCalls).isTerminal 1 =
      false := by decide +kernel
  refine ⟨by decide +kernel, by decide +kernel, by decide +kernel, fun h => ?_, fun h => ?_⟩
  · obtain ⟨input, hmem, hinput⟩ := List.mem_map.1 (hblocked ▸ List.mem_singleton_self _)
    rw [Prod.mk.injEq] at hinput
    exact h.inputs input hmem hinput.1 hinput.2
  · rw [h.terminal] at hrestarted
    cases hrestarted

end Runs

end Abtars
