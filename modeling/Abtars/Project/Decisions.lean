import Abtars.Project.TerminalSettlement

/-!
# What a call decides

A call of the review store settles a project under a decision, or leaves decisions, outbox and the
decision of every project as they were.
-/

namespace Abtars

open Lib ReviewStore

/-! ## Settlements -/

structure Settling where
  at_ : Moment
  input : SettlementInput
  writes : TerminalWrites

def settling : ReviewCall → Option Settling
  | .settleAcceptance at_ input synthesis recipe =>
    some ⟨at_, input, acceptance at_ synthesis recipe⟩
  | .settleBlocked at_ input blockerClass recipe =>
    some ⟨at_, input, block at_ input.decision blockerClass recipe⟩
  | .recordInvalidProposal at_ input _ blockerClass recipe =>
    some ⟨at_, input, block at_ input.decision blockerClass recipe⟩
  | .recordInvalidContractProposal at_ cardId _ _ decision blockerClass decisionId authority =>
    some ⟨at_, ⟨cardId, contractAdmission, decision, decisionId, some authority⟩,
      block at_ decision blockerClass none⟩
  | _ => none

def ReviewOutcome.decisionId : ReviewOutcome → Option String
  | .decided decisionId => some decisionId
  | .recorded (.blocked _ _ decisionId) => some decisionId
  | _ => none

variable (s : ReviewStore)

def eventOf (settling : Settling) (decisionId : String) : Option PeerTerminalEvent :=
  match s.resolveTerminalPeerEvent settling.at_.clock settling.input.cardId decisionId
      settling.writes.recipe with
  | .ok event => event
  | .error _ => none

structure ProjectSettlement where
  cardId : Nat
  decisionId : String
  decision : Json
  event : Option PeerTerminalEvent

def projectSettlementOf (rt : Runtime) (s : ReviewStore) (call : ReviewCall) : Option ProjectSettlement :=
  match settling call, (reviewCall rt s call).1 with
  | some settling, .ok outcome =>
    outcome.decisionId.map fun decisionId =>
      ⟨settling.input.cardId, decisionId, settling.input.decision,
        eventOf s settling decisionId⟩
  | _, _ => none

/-- Does the call end a project when nothing stands in the way?  Proposals do when they are the
last that is allowed. -/
def ReviewStore.exhausts : ReviewCall → Bool
  | .recordInvalidProposal _ input maxInvalidProposals _ _ =>
    (s.requests.rows.find? fun request => request.reviewCaseId = input.reviewCaseId).any
      fun request => request.status.isLive ∧ maxInvalidProposals ≤ request.invalidProposals + 1
  | .recordInvalidContractProposal _ cardId _ maxInvalidProposals _ _ _ _ =>
    s.stateOf cardId = some .awaitingContract ∧
      (s.columns cardId).invalidContractProposals + 1 = maxInvalidProposals
  | _ => true

/-! ## Letters -/

structure AcceptanceLetter where
  id : String
  projectCardId : Nat
  peer : String
  payloadJson : Json

def AcceptanceOutboxRow.letter (row : AcceptanceOutboxRow) : AcceptanceLetter :=
  ⟨row.id, row.projectCardId, row.peer, row.payloadJson⟩

def ReviewStore.letters (cardId : Nat) : List AcceptanceLetter :=
  (s.outbox.rows.map AcceptanceOutboxRow.letter).filter fun letter =>
    letter.projectCardId = cardId

/-! ## Changes that settle nothing -/

/-- A change that keeps decisions, letters and who was settled under which decision. -/
structure Quiet (s s' : ReviewStore) : Prop where
  decisions : ∀ id row, s.decisions.get id = some row → s'.decisions.get id = some row
  outbox : s'.outbox.rows.map AcceptanceOutboxRow.letter =
    s.outbox.rows.map AcceptanceOutboxRow.letter
  accepted : ∀ cardId, s.db.projectSupervision.has cardId = true →
    s'.db.projectSupervision.has cardId = true ∧
      (s'.columns cardId).acceptedDecisionId = (s.columns cardId).acceptedDecisionId

section Quiet

variable {rt : Runtime} {s s' s'' : ReviewStore} {cardId : Nat}

theorem Quiet.refl (s : ReviewStore) : Quiet s s :=
  ⟨fun _ _ h => h, rfl, fun _ h => ⟨h, rfl⟩⟩

theorem Quiet.trans (h : Quiet s s') (h' : Quiet s' s'') : Quiet s s'' where
  decisions := fun id row hrow => h'.decisions id row (h.decisions id row hrow)
  outbox := h'.outbox.trans h.outbox
  accepted := fun cardId hhas =>
    have hmiddle := h.accepted cardId hhas
    have hlast := h'.accepted cardId hmiddle.1
    ⟨hlast.1, hlast.2.trans hmiddle.2⟩

theorem Quiet.of_same (hdecisions : s'.decisions = s.decisions) (houtbox : s'.outbox = s.outbox)
    (hcolumns : s'.columns = s.columns)
    (hsupervision : s'.db.projectSupervision = s.db.projectSupervision) : Quiet s s' where
  decisions := fun id row hrow => hdecisions ▸ hrow
  outbox := by rw [houtbox]
  accepted := fun cardId hhas => ⟨hsupervision ▸ hhas, by rw [hcolumns]⟩

theorem Quiet.of_records {input : SettlementInput} {row : ReviewDecisionRow} {id : String}
    {decisions : Table ReviewDecisionRow} (h : Records s input row id decisions) :
    Quiet s { s with decisions := decisions } where
  decisions := fun other found hfound => by
    cases h with
    | reused existing _ _ hkept => exact hkept ▸ hfound
    | inserted _ _ hstored => exact Table.get_insert_of_some hstored hfound
  outbox := rfl
  accepted := fun _ hhas => ⟨hhas, rfl⟩

theorem has_modify {t : Table ProjectSupervisionRow} (project : Nat)
    (write : ProjectSupervisionRow → ProjectSupervisionRow)
    (hkey : ∀ row, Keyed.key (write row) = Keyed.key row)
    (h : t.has cardId = true) : (t.modify project write hkey).has cardId = true := by
  obtain ⟨row, hrow⟩ := Option.isSome_iff_exists.1 h
  rw [Table.has, Table.get_modify, hrow]
  split <;> rfl

theorem Quiet.setColumns (cardId : Nat) (write : SupervisionColumns → SupervisionColumns)
    (hwrite : ∀ columns, (write columns).acceptedDecisionId = columns.acceptedDecisionId) :
    Quiet s (s.setColumns cardId write) where
  decisions := fun _ _ hrow => hrow
  outbox := rfl
  accepted := fun project hhas => by
    refine ⟨hhas, ?_⟩
    by_cases hproject : project = cardId
    · simp [ReviewStore.setColumns, hproject, hwrite]
    · simp [ReviewStore.setColumns, hproject]

theorem Quiet.supervised (cardId : Nat) (state : ProjectState) (advance : Int)
    (write : SupervisionColumns → SupervisionColumns)
    (hwrite : ∀ columns, (write columns).acceptedDecisionId = columns.acceptedDecisionId) :
    Quiet s (s.supervised cardId state advance write) where
  decisions := fun _ _ hrow => hrow
  outbox := rfl
  accepted := fun project hhas =>
    ⟨has_modify cardId (supervisionWrite state advance) (key_supervisionWrite state advance) hhas,
      ((Quiet.setColumns cardId write hwrite).accepted project hhas).2⟩

theorem Quiet.insertSupervision {contractId : String} {state : ProjectState}
    (hnew : s.db.projectSupervision.has cardId = false) :
    Quiet s (s.insertSupervision cardId contractId state) where
  decisions := fun _ _ hrow => hrow
  outbox := rfl
  accepted := fun project hhas => by
    have hother : project ≠ cardId := by
      rintro rfl
      rw [hnew] at hhas
      cases hhas
    obtain ⟨row, hrow⟩ := Option.isSome_iff_exists.1 hhas
    refine ⟨?_, by simp [ReviewStore.insertSupervision, ReviewStore.setColumns, hother]⟩
    rw [Table.has, ReviewStore.insertSupervision, ReviewStore.setColumns,
      Table.get_insertOrIgnore_of_some hrow]
    rfl

theorem Quiet.upsertSupervision {contractId : String} {inserted : ProjectState}
    {updated : ProjectState → ProjectState} :
    Quiet s (executed s (s.upsertSupervision cardId contractId inserted updated)).2 := by
  unfold ReviewStore.upsertSupervision
  split
  · exact .refl s
  split
  · refine ⟨fun _ _ hrow => hrow, rfl, fun project hhas => ⟨?_, ?_⟩⟩
    · exact has_modify cardId (fun row => { row with state := updated row.state })
        (fun _ => rfl) hhas
    · exact ((Quiet.setColumns cardId (fun columns => { columns with contractId := contractId })
        fun _ => rfl).accepted project hhas).2
  · rename_i hnew
    exact .insertSupervision (by simpa using hnew)

theorem Quiet.blocks {now : Millis} {reason : String} {extra : ExtraSets}
    (h : Blocks s now cardId reason extra s') : Quiet s s' := by
  obtain ⟨board, journal, next, outbox, -, -, rfl⟩ := h.shape
  have hextra : ∀ columns : SupervisionColumns,
      (extra.write { columns with
        blockedReason := some (sliceText reason 500) }).acceptedDecisionId =
        columns.acceptedDecisionId := by
    intro columns
    unfold ExtraSets.write
    split <;> rfl
  exact (Quiet.supervised cardId .blocked 0 _ hextra).trans
    (.of_same rfl rfl rfl rfl)

theorem Quiet.settleRepair {at_ : Moment} {input : SettlementInput}
    {expectedGeneration additionalTokens : Int} {decisionId : String}
    (hbody : settleRepairBody at_ input expectedGeneration additionalTokens s =
      .ok (decisionId, s')) : Quiet s s' := by
  obtain ⟨_, decisions, row, hrecords, -, -, rfl⟩ := settleRepairBody_ok hbody
  refine (Quiet.of_records hrecords).trans
    ((Quiet.supervised input.cardId .repairPlanned 1 id fun _ => rfl).trans ?_)
  unfold addTokens
  split <;> exact .of_same rfl rfl rfl rfl

theorem Quiet.settleNeedsInput {at_ : Moment} {input : SettlementInput} {needed : NeededInput}
    {decisionId : String}
    (hbody : settleNeedsInputBody at_ input needed s = .ok (decisionId, s')) : Quiet s s' := by
  obtain ⟨_, decisions, row, asked, hrecords, -, -, hasked, rfl⟩ := settleNeedsInputBody_ok hbody
  refine (Quiet.of_records hrecords).trans
    ((Quiet.supervised input.cardId .needsInput 0 (fun columns => { columns with
      activeReviewCaseId := some input.reviewCaseId }) fun _ => rfl).trans ?_)
  rw [insertInputRequest] at hasked
  split at hasked
  · cases hasked
  · cases hasked
    exact .of_same rfl rfl rfl rfl

end Quiet

section Calls

variable {rt : Runtime} {s s' : ReviewStore}

def counted (s : ReviewStore) (columns : Nat → SupervisionColumns)
    (requests : Table ReviewRequestRow) : ReviewStore :=
  { s with columns := columns, requests := requests }

/-- A call settled a project: it was to, and did so from the store with its proposal counted. -/
structure SettledBy (rt : Runtime) (s : ReviewStore) (call : ReviewCall) (x : Settling)
    (id : String) : Prop where
  settles : settling call = some x
  exhausts : s.exhausts call = true
  terminates : ∃ columns requests,
    (∀ cardId, (columns cardId).acceptedDecisionId = (s.columns cardId).acceptedDecisionId) ∧
    Terminates (counted s columns requests) x.at_ x.input x.writes id (reviewStep rt s call)
  outcome : projectSettlementOf rt s call =
    some ⟨x.input.cardId, id, x.input.decision, eventOf s x id⟩

theorem answered_cases {α : Type} (outcome : α → ReviewOutcome)
    (body : Body ReviewStore ReviewStoreError α) (s : ReviewStore) :
    (∃ e, answered outcome (transaction body s) = (.error e, s)) ∨
    ∃ a s', body s = .ok (a, s') ∧
      answered outcome (transaction body s) = (.ok (outcome a), s') := by
  cases hresult : body s with
  | error e =>
    rw [transaction_of_error hresult]
    exact .inl ⟨e, rfl⟩
  | ok result =>
    rw [transaction_of_ok hresult]
    exact .inr ⟨result.1, result.2, rfl, rfl⟩

/-- A proposal under review is ignored or counted, or ends its project. -/
theorem recordInvalidProposalBody_ok {at_ : Moment} {input : SettlementInput}
    {maxInvalidProposals : Nat} {blockerClass : String} {recipe : Option PeerTerminalRecipe}
    {record : InvalidProposalRecord}
    (h : recordInvalidProposalBody rt at_ input maxInvalidProposals blockerClass recipe s =
      .ok (record, s')) :
    ((ReviewOutcome.recorded record).decisionId = none ∧ Quiet s s') ∨
    ∃ id requests, (ReviewOutcome.recorded record).decisionId = some id ∧
      s.exhausts (.recordInvalidProposal at_ input maxInvalidProposals blockerClass recipe) =
        true ∧
      settleBlockedBody rt at_ input blockerClass recipe (counted s s.columns requests) =
        .ok (id, s') := by
  rw [recordInvalidProposalBody] at h
  split at h
  · rename_i request reviewCase hrequest _
    split at h
    · cases h
      exact .inl ⟨rfl, .refl s⟩
    rename_i hadmitted
    have hlive : request.status.isLive = true := by
      by_contra hlive
      simp [hlive] at hadmitted
    obtain ⟨⟨⟩, -, h⟩ := bind_eq_ok.1 h
    split at h
    · obtain ⟨⟨id, settled⟩, hsettled, h⟩ := bind_eq_ok.1 h
      cases h
      refine .inr ⟨id, s.requests, rfl, ?_, hsettled⟩
      simp only [ReviewStore.exhausts, hrequest, Option.any_some, hlive, true_and,
        decide_eq_true_eq]
      omega
    split at h
    · cases h
      exact .inl ⟨rfl, .of_same rfl rfl rfl rfl⟩
    obtain ⟨⟨id, settled⟩, hsettled, h⟩ := bind_eq_ok.1 h
    cases h
    refine .inr ⟨id, _, rfl, ?_, hsettled⟩
    simp only [ReviewStore.exhausts, hrequest, Option.any_some, hlive, true_and,
      decide_eq_true_eq]
    omega
  · cases h
    exact .inl ⟨rfl, .refl s⟩

/-- The same at the admission of a contract. -/
theorem recordInvalidContractProposalBody_ok {at_ : Moment} {cardId : Nat}
    {expectedGeneration : Int} {maxInvalidProposals : Nat} {decision : Json}
    {blockerClass decisionId : String} {authority : ProjectMutationAuthority}
    {record : InvalidProposalRecord}
    (h : recordInvalidContractProposalBody rt at_ cardId expectedGeneration maxInvalidProposals
      decision blockerClass decisionId authority s = .ok (record, s')) :
    ((ReviewOutcome.recorded record).decisionId = none ∧ Quiet s s') ∨
    ∃ id columns, (ReviewOutcome.recorded record).decisionId = some id ∧
      s.exhausts (.recordInvalidContractProposal at_ cardId expectedGeneration maxInvalidProposals
        decision blockerClass decisionId authority) = true ∧
      (∀ cardId, (columns cardId).acceptedDecisionId = (s.columns cardId).acceptedDecisionId) ∧
      settleBlockedBody rt at_ ⟨cardId, contractAdmission, decision, decisionId, some authority⟩
        blockerClass none (counted s columns s.requests) = .ok (id, s') := by
  have hcounted := Quiet.setColumns (s := s) cardId (fun columns =>
    { columns with invalidContractProposals := columns.invalidContractProposals + 1 })
    fun _ => rfl
  rw [recordInvalidContractProposalBody] at h
  split at h
  · cases h
    exact .inl ⟨rfl, .refl s⟩
  split at h
  · cases h
    exact .inl ⟨rfl, .refl s⟩
  split at h
  · cases h
    exact .inl ⟨rfl, .refl s⟩
  rename_i current hcurrent
  dsimp only at h
  split at h
  · cases h
    exact .inl ⟨rfl, .refl s⟩
  rename_i hadmitted
  rw [not_or, not_or, not_not, not_not] at hadmitted
  split at h
  · cases h
    exact .inl ⟨rfl, hcounted⟩
  obtain ⟨⟨id, settled⟩, hsettled, h⟩ := bind_eq_ok.1 h
  cases h
  refine .inr ⟨id, _, rfl, ?_, fun project => ?_, hsettled⟩
  · simp only [ReviewStore.exhausts, stateOf, hcurrent, Option.map_some, hadmitted.2.1,
      true_and, decide_eq_true_eq]
    omega
  · by_cases hproject : project = cardId <;> simp [hproject]

theorem quiet_of_error {call : ReviewCall} {e : ReviewStoreError}
    (h : reviewCall rt s call = (.error e, s)) :
    projectSettlementOf rt s call = none ∧ Quiet s (reviewStep rt s call) := by
  rw [projectSettlementOf, reviewStep, h]
  refine ⟨?_, .refl s⟩
  cases settling call <;> rfl

theorem quiet_of_undecided {call : ReviewCall} {outcome : ReviewOutcome}
    (h : reviewCall rt s call = (.ok outcome, s')) (hquiet : Quiet s s')
    (hundecided : settling call = none ∨ outcome.decisionId = none) :
    projectSettlementOf rt s call = none ∧ Quiet s (reviewStep rt s call) := by
  rw [projectSettlementOf, reviewStep, h]
  refine ⟨?_, hquiet⟩
  rcases hundecided with hsettling | hdecision
  · rw [hsettling]
  · cases settling call with
    | none => rfl
    | some x => simp [hdecision]

theorem SettledBy.of_ok {call : ReviewCall} {outcome : ReviewOutcome} {x : Settling} {id : String}
    {columns : Nat → SupervisionColumns} {requests : Table ReviewRequestRow}
    (h : reviewCall rt s call = (.ok outcome, s')) (hsettles : settling call = some x)
    (hid : outcome.decisionId = some id) (hexhausts : s.exhausts call = true)
    (hcolumns : ∀ cardId,
      (columns cardId).acceptedDecisionId = (s.columns cardId).acceptedDecisionId)
    (hbody : terminalBody rt x.at_ x.input x.writes (counted s columns requests) = .ok (id, s')) :
    SettledBy rt s call x id where
  settles := hsettles
  exhausts := hexhausts
  terminates := by
    refine ⟨columns, requests, hcolumns, ?_⟩
    rw [reviewStep, h]
    exact terminalBody_ok hbody
  outcome := by
    rw [projectSettlementOf, h, hsettles]
    simp [hid]

/-- A call settles a project from the store with its proposal counted, or nothing. -/
theorem call_cases (rt : Runtime) (s : ReviewStore) (call : ReviewCall) :
    (projectSettlementOf rt s call = none ∧ Quiet s (reviewStep rt s call)) ∨
    ∃ x id, SettledBy rt s call x id := by
  cases call with
  | initializeProjectSupervision | initializeSupervision =>
    exact .inl ⟨rfl, .upsertSupervision⟩
  | ensureAwaitingContract cardId =>
    refine .inl ⟨rfl, ?_⟩
    rw [reviewStep, reviewCall, ReviewStore.ensureAwaitingContract]
    split
    · exact .refl s
    · rename_i hnew
      exact .insertSupervision (by simpa using fun h => hnew (.inl h))
  | stateTransition cardId fromStates toState extra authority =>
    refine .inl ⟨rfl, ?_⟩
    rw [reviewStep, reviewCall]
    rcases stateTransition_cases s cardId fromStates toState extra authority with
      hlost | ⟨row, -, -, -, hlanded⟩
    · rw [hlost]
      exact .refl s
    · rw [hlanded]
      refine .supervised cardId toState 0 extra.write fun columns => ?_
      unfold ExtraSets.write
      split <;> rfl
  | blockProject now cardId reason extra failCard authority =>
    left
    rcases answered_cases .moved
        (blockProjectBody rt now cardId reason extra failCard authority) s with
      ⟨e, he⟩ | ⟨landed, s', hbody, hok⟩
    · exact quiet_of_error he
    · refine quiet_of_undecided hok ?_ (.inl rfl)
      rcases blockProjectBody_ok hbody with ⟨-, rfl⟩ | ⟨-, hblocks⟩
      · exact .refl _
      · exact .blocks hblocks
  | settleAcceptance at_ input synthesis recipe =>
    rcases answered_cases .decided
        (terminalBody rt at_ input (acceptance at_ synthesis recipe)) s with
      ⟨e, he⟩ | ⟨id, s', hbody, hok⟩
    · exact .inl (quiet_of_error he)
    · have hsettled : terminalBody rt at_ input (acceptance at_ synthesis recipe)
          (counted s s.columns s.requests) = .ok (id, s') := hbody
      exact .inr ⟨_, id, .of_ok hok rfl rfl rfl (fun _ => rfl) hsettled⟩
  | settleBlocked at_ input blockerClass recipe =>
    rcases answered_cases .decided
        (settleBlockedBody rt at_ input blockerClass recipe) s with
      ⟨e, he⟩ | ⟨id, s', hbody, hok⟩
    · exact .inl (quiet_of_error he)
    · have hsettled : settleBlockedBody rt at_ input blockerClass recipe
          (counted s s.columns s.requests) = .ok (id, s') := hbody
      exact .inr ⟨_, id, .of_ok hok rfl rfl rfl (fun _ => rfl) hsettled⟩
  | settleRepair at_ input expectedGeneration additionalTokens =>
    left
    rcases answered_cases .decided
        (settleRepairBody at_ input expectedGeneration additionalTokens) s with
      ⟨e, he⟩ | ⟨id, s', hbody, hok⟩
    · exact quiet_of_error he
    · exact quiet_of_undecided hok (.settleRepair hbody) (.inl rfl)
  | settleNeedsInput at_ input needed =>
    left
    rcases answered_cases .decided (settleNeedsInputBody at_ input needed) s with
      ⟨e, he⟩ | ⟨id, s', hbody, hok⟩
    · exact quiet_of_error he
    · exact quiet_of_undecided hok (.settleNeedsInput hbody) (.inl rfl)
  | recordInvalidProposal at_ input maxInvalidProposals blockerClass recipe =>
    rcases answered_cases .recorded
        (recordInvalidProposalBody rt at_ input maxInvalidProposals blockerClass recipe) s with
      ⟨e, he⟩ | ⟨record, s', hbody, hok⟩
    · exact .inl (quiet_of_error he)
    rcases recordInvalidProposalBody_ok hbody with
      ⟨hundecided, hquiet⟩ | ⟨id, requests, hid, hexhausts, hsettled⟩
    · exact .inl (quiet_of_undecided hok hquiet (.inr hundecided))
    · exact .inr ⟨_, id, .of_ok hok rfl hid hexhausts (fun _ => rfl) hsettled⟩
  | recordInvalidContractProposal at_ cardId expectedGeneration maxInvalidProposals decision
      blockerClass decisionId authority =>
      rcases answered_cases .recorded
          (recordInvalidContractProposalBody rt at_ cardId expectedGeneration maxInvalidProposals
            decision blockerClass decisionId authority) s with
        ⟨e, he⟩ | ⟨record, s', hbody, hok⟩
      · exact .inl (quiet_of_error he)
      rcases recordInvalidContractProposalBody_ok hbody with
        ⟨hundecided, hquiet⟩ | ⟨id, columns, hid, hexhausts, hcolumns, hsettled⟩
      · exact .inl (quiet_of_undecided hok hquiet (.inr hundecided))
      · exact .inr ⟨_, id, .of_ok hok rfl hid hexhausts hcolumns hsettled⟩

end Calls

end Abtars
