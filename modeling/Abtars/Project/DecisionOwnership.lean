import Abtars.Project.Decisions
import Abtars.Project.Finality

/-!
# Owners of decisions

A settlement records its decision under its review case and queues the event of a peer's project
under the decision.  A case that has a decision keeps it, and the admission of a contract stands
under one case id for all projects: the second project it blocks is settled under the decision of
the first, and its event is dropped.
-/

namespace Abtars

open Lib ReviewStore

/-! ## The store among other writers -/

namespace ReviewStore

variable (s : ReviewStore)

def markAcceptanceOutboxSent (now : Millis) (id : String) : ReviewStore :=
  { s with
    outbox := s.outbox.updateWhere (fun row => row.id = id ∧ row.sentAt = none)
      fun row => { row with sentAt := some now, updatedAt := now } }

def markAcceptanceOutboxAttempt (now : Millis) (id error : String) : ReviewStore :=
  { s with
    outbox := s.outbox.updateWhere (fun row => row.id = id ∧ row.sentAt = none)
      fun row => { row with
        attempts := row.attempts + 1, lastError := some (sliceText error 1000), updatedAt := now } }

/-- What other writers make of the store: they may rewrite every table but the decisions and the
outbox, and delete no supervision. -/
def rewritten (elsewhere : ReviewStore) : ReviewStore :=
  if s.db.projectSupervision.rows.all fun row =>
      elsewhere.db.projectSupervision.has row.projectCardId then
    { elsewhere with
      decisions := s.decisions
      outbox := s.outbox
      columns := fun cardId => { elsewhere.columns cardId with
        acceptedDecisionId := (s.columns cardId).acceptedDecisionId } }
  else s

def unsettled : ReviewStore :=
  { s with decisions := ∅, outbox := ∅ }

end ReviewStore

inductive ReviewOp
  | call (call : ReviewCall)
  | sent (now : Millis) (id : String)
  | attempted (now : Millis) (id error : String)
  | rewritten (elsewhere : ReviewStore)

def reviewOp (rt : Runtime) (s : ReviewStore) : ReviewOp → ReviewStore
  | .call call => reviewStep rt s call
  | .sent now id => s.markAcceptanceOutboxSent now id
  | .attempted now id error => s.markAcceptanceOutboxAttempt now id error
  | .rewritten elsewhere => s.rewritten elsewhere

def settlements (rt : Runtime) (s : ReviewStore) : ReviewOp → List ProjectSettlement
  | .call call => (projectSettlementOf rt s call).toList
  | _ => []

/-! ## Ownership -/

def lastSettlement (log : List ProjectSettlement) (cardId : Nat) : Option ProjectSettlement :=
  log.reverse.find? fun settlement => settlement.cardId = cardId

structure Owned (log : List ProjectSettlement) (s : ReviewStore) : Prop where
  decided : ∀ settlement ∈ log, ∃ row,
    s.decisions.get settlement.decisionId = some row ∧ row.decisionJson = settlement.decision
  unshared : log.Pairwise fun settlement later => settlement.decisionId ≠ later.decisionId
  accepted : ∀ cardId settlement, lastSettlement log cardId = some settlement →
    s.db.projectSupervision.has cardId = true ∧
      (s.columns cardId).acceptedDecisionId = some settlement.decisionId
  announced : ∀ settlement ∈ log, ∀ event, settlement.event = some event →
    s.letters settlement.cardId =
      [⟨"ao_" ++ settlement.decisionId, settlement.cardId, event.peer,
        acceptancePayload settlement.decisionId event⟩]

def ReviewStore.Identified (s : ReviewStore) (cardId : Nat) : Prop :=
  ∀ root, s.db.kanbanBoard.get cardId = some root → root.source = "peer" →
    (nonEmpty (s.sourcePeers cardId)).isSome = true ∧
      (s.readPeerTerminalIdentity cardId).isSome = true

structure Settles (s : ReviewStore) (input : SettlementInput) : Prop where
  checked : s.assertReviewMutationAuthority input.cardId input.reviewCaseId input.authority =
    .ok ()
  live : ∃ row, s.db.projectSupervision.get input.cardId = some row ∧
    row.state.isTerminal = false
  card : ∃ card, s.db.kanbanBoard.get input.cardId = some card ∧
    (card.status = .queued ∨ card.status = .running)
  identified : s.Identified input.cardId

/-- A call that ends a project does so under a case without a decision, and a peer's project has
not been announced yet. -/
def OwnsDecision (s : ReviewStore) : ReviewOp → Prop
  | .call call => ∀ settling', settling call = some settling' → s.exhausts call = true →
      Settles s settling'.input →
        s.decisionOf settling'.input.reviewCaseId = none ∧
        ∀ root, s.db.kanbanBoard.get settling'.input.cardId = some root → root.source = "peer" →
          s.letters settling'.input.cardId = []
  | _ => True

/-! ## One settlement -/

structure Accounted (log : List ProjectSettlement) (s : ReviewStore) : Prop where
  owned : Owned log s
  backed : ∀ row ∈ s.outbox, ∃ id,
    row.id = "ao_" ++ id ∧ (s.decisions.get id).isSome = true

section Settlements

variable {cardId : Nat}

variable {rt : Runtime} {s s' : ReviewStore} {log : List ProjectSettlement} {x : Settling} {id : String}

theorem identified_of_resolved {clock : IsoInstant} {recipe : PeerTerminalRecipe}
    {event : Option PeerTerminalEvent}
    (h : s.resolveTerminalPeerEvent clock cardId id recipe = .ok event) : s.Identified cardId := by
  intro root hroot hpeer
  rw [resolveTerminalPeerEvent, hroot] at h
  dsimp only at h
  rw [if_neg (by simp [hpeer])] at h
  split at h
  · cases h
  rename_i sourcePeer hsource
  split at h
  · cases h
  · rename_i identity hidentity
    exact ⟨by rw [hsource]; rfl, by rw [hidentity]; rfl⟩

theorem peer_of_resolved {clock : IsoInstant} {cardId : Nat} {recipe : PeerTerminalRecipe}
    {event : PeerTerminalEvent}
    (h : s.resolveTerminalPeerEvent clock cardId id recipe = .ok (some event)) :
    ∃ root, s.db.kanbanBoard.get cardId = some root ∧ root.source = "peer" := by
  rw [resolveTerminalPeerEvent] at h
  split at h
  · cases h
  rename_i root hroot
  split at h
  · cases h
  · rename_i hpeer
    exact ⟨root, hroot, not_not.1 hpeer⟩

theorem settles_of_terminates {at_ : Moment} {input : SettlementInput} {writes : TerminalWrites}
    {columns : Nat → SupervisionColumns} {requests : Table ReviewRequestRow}
    (h : Terminates (counted s columns requests) at_ input writes id s') : Settles s input := by
  obtain ⟨row, hrow, hlive, -⟩ := h.closed
  obtain ⟨event, hevent, -⟩ := h.announced
  exact ⟨h.checked, ⟨row, hrow, hlive⟩, h.card.live,
    identified_of_resolved (s := counted s columns requests) hevent⟩

theorem mem_letters {row : AcceptanceOutboxRow} (hrow : row ∈ s.outbox)
    (hproject : row.projectCardId = cardId) : row.letter ∈ s.letters cardId :=
  List.mem_filter.2 ⟨List.mem_map_of_mem hrow, decide_eq_true hproject⟩

/-- What a terminal settlement does to decisions and letters, when its case had no decision. -/
structure ReachesDecision (s : ReviewStore) (x : Settling) (id : String) (s' : ReviewStore) : Prop where
  new : s.decisions.get id = none
  recorded : ∃ row, s'.decisions.get id = some row ∧ row.decisionJson = x.input.decision
  kept : ∀ other row, s.decisions.get other = some row → s'.decisions.get other = some row
  accepted : ∀ cardId, (s'.columns cardId).acceptedDecisionId =
    if cardId = x.input.cardId then some id else (s.columns cardId).acceptedDecisionId
  supervised : ∀ cardId, s.db.projectSupervision.has cardId = true →
    s'.db.projectSupervision.has cardId = true
  found : s.db.projectSupervision.has x.input.cardId = true
  queues : s'.outbox = queued s.outbox x.at_.now x.input.cardId id (eventOf s x id)
  peer : ∀ event, eventOf s x id = some event → ∃ root,
    s.db.kanbanBoard.get x.input.cardId = some root ∧ root.source = "peer"

theorem decides_of_terminates {columns : Nat → SupervisionColumns}
    {requests : Table ReviewRequestRow}
    (h : Terminates (counted s columns requests) x.at_ x.input x.writes id s')
    (hcolumns : ∀ cardId,
      (columns cardId).acceptedDecisionId = (s.columns cardId).acceptedDecisionId)
    (hfree : s.decisionOf x.input.reviewCaseId = none) : ReachesDecision s x id s' := by
  obtain ⟨row, hrow, -, -⟩ := h.closed
  obtain ⟨event, hevent, houtbox⟩ := h.announced
  have hresolved : s.resolveTerminalPeerEvent x.at_.clock x.input.cardId id x.writes.recipe =
      .ok event := hevent
  have heventOf : eventOf s x id = event := by rw [eventOf, hresolved]
  have hstored : x.input.decisionId = id ∧ s.decisions.insert
      (fun other => other.reviewCaseId = x.input.reviewCaseId)
      ⟨x.input.decisionId, x.input.reviewCaseId, x.input.decision,
        terminalDigest x.at_ x.input x.writes, x.at_.now⟩ = some s'.decisions := by
    cases h.decided with
    | reused existing hfound _ _ =>
      have hnone : (counted s columns requests).decisionOf x.input.reviewCaseId = none := hfree
      rw [hnone] at hfound
      cases hfound
    | inserted _ hnamed hstored => exact ⟨hnamed, hstored⟩
  obtain ⟨rfl, hstored⟩ := hstored
  refine ⟨(Table.insert_eq_some_iff.1 hstored).1, ⟨_, Table.get_insert_new hstored, rfl⟩,
    fun other found => Table.get_insert_of_some hstored, fun cardId => ?_, fun cardId hhas => ?_,
    ?_, ?_, fun queuedEvent hqueued => ?_⟩
  · rw [h.columns]
    by_cases hproject : cardId = x.input.cardId
    · simp [hproject, decidedColumns]
    · simp [hproject, counted, hcolumns]
  · rw [h.supervision]
    exact has_modify x.input.cardId (supervisionWrite x.writes.state 0)
      (key_supervisionWrite x.writes.state 0) hhas
  · have hget : s.db.projectSupervision.get x.input.cardId = some row := hrow
    rw [Table.has, hget]
    rfl
  · rw [heventOf]
    exact houtbox
  · rw [heventOf] at hqueued
    rw [hqueued] at hresolved
    exact peer_of_resolved hresolved

def made (s : ReviewStore) (x : Settling) (id : String) : ProjectSettlement :=
  ⟨x.input.cardId, id, x.input.decision, eventOf s x id⟩

theorem lastSettlement_append (log : List ProjectSettlement) (new : ProjectSettlement)
    (cardId : Nat) :
    lastSettlement (log ++ [new]) cardId =
      if new.cardId = cardId then some new else lastSettlement log cardId := by
  by_cases hproject : new.cardId = cardId <;> simp [hproject, lastSettlement]

theorem letters_of_queues (h : ReachesDecision s x id s') (hother : cardId ≠ x.input.cardId) :
    s'.letters cardId = s.letters cardId := by
  unfold ReviewStore.letters
  rw [h.queues]
  cases eventOf s x id with
  | none => rfl
  | some event =>
    have hselect : (s.outbox.insertOrIgnore
        (fun row => decide (row.projectCardId = x.input.cardId))
        (outboxRow x.at_.now x.input.cardId id event)).select
          (fun row => decide (row.projectCardId = cardId)) =
        s.outbox.select fun row => decide (row.projectCardId = cardId) :=
      Table.select_insertOrIgnore_of_not (decide_eq_false hother.symm)
    rw [List.filter_map, List.filter_map]
    exact congrArg (List.map AcceptanceOutboxRow.letter) hselect

theorem letters_of_announced (hledger : Accounted log s) (h : ReachesDecision s x id s')
    {event : PeerTerminalEvent} (hevent : eventOf s x id = some event)
    (hnone : s.letters x.input.cardId = []) :
    s'.letters x.input.cardId =
      [⟨"ao_" ++ id, x.input.cardId, event.peer, acceptancePayload id event⟩] := by
  have hfits : s.outbox.Fits (fun row => decide (row.projectCardId = x.input.cardId))
      (outboxRow x.at_.now x.input.cardId id event) := by
    refine ⟨?_, fun row hrow => ?_⟩
    · -- a row of that name would have its decision
      rw [Table.get_eq_none_iff]
      intro row hrow hkey
      obtain ⟨other, hname, hdecided⟩ := hledger.backed row hrow
      have hsame : "ao_" ++ other = "ao_" ++ id := hname.symm.trans hkey
      rw [String.append_right_inj] at hsame
      rw [hsame, h.new] at hdecided
      cases hdecided
    · by_contra htaken
      have hmem := mem_letters hrow (of_decide_eq_true (by simpa using htaken))
      rw [hnone] at hmem
      cases hmem
  unfold ReviewStore.letters at hnone ⊢
  rw [h.queues, hevent, queued, Table.rows_insertOrIgnore_of_fits hfits, List.map_append,
    List.filter_append, hnone]
  simp [outboxRow, AcceptanceOutboxRow.letter]

theorem backed_of_queues (hledger : Accounted log s) (h : ReachesDecision s x id s') :
    ∀ row ∈ s'.outbox, ∃ other,
      row.id = "ao_" ++ other ∧ (s'.decisions.get other).isSome = true := by
  intro row hrow
  have hold : row ∈ s.outbox → ∃ other,
      row.id = "ao_" ++ other ∧ (s'.decisions.get other).isSome = true := by
    intro hmem
    obtain ⟨other, hname, hdecided⟩ := hledger.backed row hmem
    obtain ⟨found, hfound⟩ := Option.isSome_iff_exists.1 hdecided
    exact ⟨other, hname, by rw [h.kept other found hfound]; rfl⟩
  rw [h.queues] at hrow
  cases hevent : eventOf s x id with
  | none =>
    rw [hevent] at hrow
    exact hold hrow
  | some event =>
    rw [hevent] at hrow
    rcases Table.mem_of_mem_insertOrIgnore hrow with hmem | rfl
    · exact hold hmem
    · obtain ⟨found, hfound, -⟩ := h.recorded
      exact ⟨id, rfl, by rw [hfound]; rfl⟩

/-- A project that was not announced is settled under a decision of its own. -/
theorem Accounted.settled (hledger : Accounted log s) (h : ReachesDecision s x id s')
    (hunannounced : ∀ root, s.db.kanbanBoard.get x.input.cardId = some root →
      root.source = "peer" → s.letters x.input.cardId = []) :
    Accounted (log ++ [made s x id]) s' := by
  have howned := hledger.owned
  have hempty : ∀ event, eventOf s x id = some event → s.letters x.input.cardId = [] := by
    intro event hevent
    obtain ⟨root, hroot, hpeer⟩ := h.peer event hevent
    exact hunannounced root hroot hpeer
  refine ⟨⟨fun settlement hmem => ?_, ?_, fun cardId settlement hlast => ?_,
    fun settlement hmem event hevent => ?_⟩, backed_of_queues hledger h⟩
  · rcases List.mem_append.1 hmem with hold | hnew
    · obtain ⟨row, hrow, hdecision⟩ := howned.decided settlement hold
      exact ⟨row, h.kept _ row hrow, hdecision⟩
    · rw [List.mem_singleton.1 hnew]
      exact h.recorded
  · refine List.pairwise_append.2 ⟨howned.unshared, List.pairwise_singleton _ _, ?_⟩
    intro settlement hold later hlater hsame
    rw [List.mem_singleton.1 hlater] at hsame
    obtain ⟨row, hrow, -⟩ := howned.decided settlement hold
    rw [hsame, made, h.new] at hrow
    cases hrow
  · rw [lastSettlement_append] at hlast
    rw [h.accepted]
    by_cases hproject : (made s x id).cardId = cardId
    · rw [if_pos hproject, Option.some.injEq] at hlast
      subst hlast
      subst hproject
      exact ⟨h.supervised _ h.found, if_pos rfl⟩
    · rw [if_neg hproject] at hlast
      obtain ⟨hhas, haccepted⟩ := howned.accepted cardId settlement hlast
      exact ⟨h.supervised cardId hhas, (if_neg fun hsame => hproject hsame.symm).trans haccepted⟩
  · rcases List.mem_append.1 hmem with hold | hnew
    · have hletters := howned.announced settlement hold event hevent
      by_cases hproject : settlement.cardId = x.input.cardId
      · -- its letter is there, so that the project was settled without a new one
        have hsilent : eventOf s x id = none := by
          cases hnext : eventOf s x id with
          | none => rfl
          | some next =>
            rw [hproject, hempty next hnext] at hletters
            cases hletters
        have houtbox : s'.outbox = s.outbox := by rw [h.queues, hsilent]; rfl
        rw [← hletters, ReviewStore.letters, houtbox]
        rfl
      · rw [letters_of_queues h hproject, hletters]
    · rw [List.mem_singleton.1 hnew] at hevent ⊢
      exact letters_of_announced hledger h hevent (hempty event hevent)

theorem Accounted.quiet (hledger : Accounted log s) (h : Quiet s s') : Accounted log s' := by
  have howned := hledger.owned
  refine ⟨⟨fun settlement hmem => ?_, howned.unshared, fun cardId settlement hlast => ?_,
    fun settlement hmem event hevent => ?_⟩, fun row hrow => ?_⟩
  · obtain ⟨row, hrow, hdecision⟩ := howned.decided settlement hmem
    exact ⟨row, h.decisions _ row hrow, hdecision⟩
  · obtain ⟨hhas, haccepted⟩ := howned.accepted cardId settlement hlast
    exact ⟨(h.accepted cardId hhas).1, (h.accepted cardId hhas).2.trans haccepted⟩
  · rw [← howned.announced settlement hmem event hevent, ReviewStore.letters, h.outbox]
    rfl
  · have hletter : row.letter ∈ s'.outbox.rows.map AcceptanceOutboxRow.letter :=
      List.mem_map_of_mem hrow
    rw [h.outbox] at hletter
    obtain ⟨old, hold, hsame⟩ := List.mem_map.1 hletter
    have hname : old.id = row.id := congrArg AcceptanceLetter.id hsame
    obtain ⟨id, hid, hdecided⟩ := hledger.backed old hold
    obtain ⟨found, hfound⟩ := Option.isSome_iff_exists.1 hdecided
    exact ⟨id, hname ▸ hid, by rw [h.decisions id found hfound]; rfl⟩

end Settlements

section Runs

variable {rt : Runtime} {s : ReviewStore} {log : List ProjectSettlement}

theorem Accounted.call {call : ReviewCall} (hledger : Accounted log s)
    (howns : OwnsDecision s (.call call)) :
    Accounted (log ++ (projectSettlementOf rt s call).toList) (reviewStep rt s call) := by
  rcases call_cases rt s call with ⟨hnone, hquiet⟩ | ⟨x, id, hsettled⟩
  · rw [hnone, Option.toList_none, List.append_nil]
    exact hledger.quiet hquiet
  obtain ⟨columns, requests, hcolumns, hterminates⟩ := hsettled.terminates
  obtain ⟨hfree, hunannounced⟩ :=
    howns x hsettled.settles hsettled.exhausts (settles_of_terminates hterminates)
  rw [hsettled.outcome]
  exact hledger.settled (decides_of_terminates hterminates hcolumns hfree) hunannounced

theorem Quiet.marked (mark : AcceptanceOutboxRow → AcceptanceOutboxRow)
    (guard : AcceptanceOutboxRow → Bool) (hkey : ∀ row, Keyed.key (mark row) = Keyed.key row)
    (hletter : ∀ row, (mark row).letter = row.letter) :
    Quiet s { s with outbox := s.outbox.updateWhere guard mark hkey } where
  decisions := fun _ _ hrow => hrow
  outbox := by
    show (s.outbox.rows.map fun row => if guard row then mark row else row).map _ = _
    rw [List.map_map]
    apply List.map_congr_left
    intro row _
    simp only [Function.comp]
    split
    · exact hletter row
    · rfl
  accepted := fun _ hhas => ⟨hhas, rfl⟩

theorem Quiet.rewritten (elsewhere : ReviewStore) : Quiet s (s.rewritten elsewhere) := by
  unfold ReviewStore.rewritten
  split
  · rename_i hkept
    refine ⟨fun _ _ hrow => hrow, rfl, fun cardId hhas => ⟨?_, rfl⟩⟩
    obtain ⟨row, hrow⟩ := Option.isSome_iff_exists.1 hhas
    rw [List.all_eq_true] at hkept
    have hkey : row.projectCardId = cardId := Table.key_of_get hrow
    exact hkey ▸ hkept row (Table.mem_of_get hrow)
  · exact .refl s

theorem Accounted.reviewOp {op : ReviewOp} (hledger : Accounted log s) (howns : OwnsDecision s op) :
    Accounted (log ++ settlements rt s op) (reviewOp rt s op) := by
  cases op with
  | call call => exact hledger.call howns
  | sent now id =>
    show Accounted (log ++ []) _
    rw [List.append_nil]
    exact hledger.quiet (.marked (fun row => { row with sentAt := some now, updatedAt := now })
      _ (fun _ => rfl) fun _ => rfl)
  | attempted now id error =>
    show Accounted (log ++ []) _
    rw [List.append_nil]
    exact hledger.quiet (.marked (fun row => { row with
      attempts := row.attempts + 1
      lastError := some (sliceText error 1000)
      updatedAt := now }) _ (fun _ => rfl) fun _ => rfl)
  | rewritten elsewhere =>
    show Accounted (log ++ []) _
    rw [List.append_nil]
    exact hledger.quiet (.rewritten elsewhere)

theorem Accounted.unsettled (s : ReviewStore) : Accounted [] s.unsettled where
  owned := {
    decided := by simp
    unshared := List.Pairwise.nil
    accepted := fun cardId settlement hlast => by cases hlast
    announced := by simp }
  backed := fun row hrow => absurd hrow (Table.not_mem_empty row)

/-- In a run that settles no project under a case that has a decision, and no peer's project that
was announced, every settlement owns its decision and its event. -/
theorem settlement_owns (rt : Runtime) (s : ReviewStore) (ops : List ReviewOp)
    (howns : StepsMeet (reviewOp rt) OwnsDecision s.unsettled ops) :
    Owned (outputs (reviewOp rt) (settlements rt) s.unsettled ops)
      (runFrom (reviewOp rt) s.unsettled ops) := by
  have hstep : ∀ log s op, Accounted log s → OwnsDecision s op →
      Accounted (log ++ settlements rt s op) (Abtars.reviewOp rt s op) :=
    fun _ _ _ hledger howns => hledger.reviewOp howns
  have hrun := logged_of_stepsMeet hstep ops [] s.unsettled (.unsettled s) howns
  exact hrun.owned

/-! ### Two projects whose admission is exhausted -/

def peerRoots : ReviewStore :=
  { ReviewStore.empty with
    db := { Db.empty with
      kanbanBoard := Table.ofRows
        [newCard 1 "peer" (some "O") none .running 0, newCard 2 "peer" (some "O") none .running 0] }
    sourcePeers := fun _ => some "molty"
    helpRequests := Table.ofRows
      [{ pendingRow 0 "molty" "req1" "h1" with
          state := .accepted, contributionRef := some "c1", localCardId := some 1 },
        { pendingRow 0 "molty" "req2" "h2" with
          state := .accepted, contributionRef := some "c2", localCardId := some 2 }]
    selfName := some "abtars" }

def exhaustedAdmission (cardId : Nat) (reason decisionId : String) : List ReviewOp :=
  [.call (.ensureAwaitingContract cardId),
    .call (.recordInvalidContractProposal epoch cardId 1 1 (.str reason) "no_contract" decisionId
      ⟨cardId, 1, none⟩)]

/-- The settlements of a run, by project and decision, with the decisions projects are settled
under and the letters each has. -/
def ownershipFacts (ops : List ReviewOp) :
    List (Nat × String × Bool) × (Option String × Nat) × (Option String × Nat) :=
  let s := runFrom (reviewOp .plain) peerRoots.unsettled ops
  ((outputs (reviewOp .plain) (settlements .plain) peerRoots.unsettled ops).map fun settlement =>
      (settlement.cardId, settlement.decisionId, settlement.event.isSome),
    ((s.columns 1).acceptedDecisionId, (s.letters 1).length),
    ((s.columns 2).acceptedDecisionId, (s.letters 2).length))

theorem one_admission_owned :
    Owned
      (outputs (reviewOp .plain) (settlements .plain) peerRoots.unsettled
        (exhaustedAdmission 1 "no goal" "rd_1"))
      (runFrom (reviewOp .plain) peerRoots.unsettled (exhaustedAdmission 1 "no goal" "rd_1")) := by
  refine settlement_owns .plain peerRoots _ ⟨fun x hsettles => ?_, ?_, trivial⟩
  · cases hsettles
  intro x hsettles _ _
  cases hsettles
  have hletters : ((reviewOp .plain peerRoots.unsettled
      (.call (.ensureAwaitingContract 1))).letters 1).length = 0 := by decide +kernel
  exact ⟨by decide +kernel, fun root _ _ => List.eq_nil_of_length_eq_zero hletters⟩

/-- The second project is settled under the decision of the first, and its event is not queued. -/
theorem contract_admission_shared :
    ownershipFacts (exhaustedAdmission 1 "no goal" "rd_1" ++
        exhaustedAdmission 2 "no criteria" "rd_2") =
      ([(1, "rd_1", true), (2, "rd_1", true)], (some "rd_1", 1), (some "rd_1", 0)) ∧
    ¬ Owned
      (outputs (reviewOp .plain) (settlements .plain) peerRoots.unsettled
        (exhaustedAdmission 1 "no goal" "rd_1" ++ exhaustedAdmission 2 "no criteria" "rd_2"))
      (runFrom (reviewOp .plain) peerRoots.unsettled
        (exhaustedAdmission 1 "no goal" "rd_1" ++ exhaustedAdmission 2 "no criteria" "rd_2")) := by
  refine ⟨by decide +kernel, fun h => ?_⟩
  have hids : (outputs (reviewOp .plain) (settlements .plain) peerRoots.unsettled
      (exhaustedAdmission 1 "no goal" "rd_1" ++ exhaustedAdmission 2 "no criteria" "rd_2")).map
        (·.decisionId) = ["rd_1", "rd_1"] := by decide +kernel
  have hdistinct := List.pairwise_map.2 h.unshared
  cases hdistinct with
  | cons hfirst _ => exact hfirst "rd_1" (List.mem_singleton_self _) rfl

end Runs

end Abtars
