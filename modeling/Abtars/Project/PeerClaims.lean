import Abtars.Peer.LedgerRuns

/-!
# Peer claims of a review case

`ReviewCaseAssembler.assembleCase` shows a project's reviewer what peers contributed.  It reads the
done contribution cards of the board first, each through its notes, and then adds the rows of the
ledger whose proxy is not among the claims yet.  The notes a terminal event leaves hold neither the
root criteria nor the projection.
-/

namespace Abtars

open Lib

/-- An entry of `peer_contributions` in a review case. -/
structure PeerClaim where
  cardId : Nat
  peer : String
  outcome : String
  projectionSummary : String
  rootCriteria : Json
  provenance : String

def ContributionState.text : ContributionState → String
  | .pending => "pending"
  | .accepted => "accepted"
  | .running => "running"
  | .completed => "completed"
  | .failed => "failed"
  | .declined => "declined"
  | .deferred => "deferred"
  | .unknown => "unknown"
  | .withdrawalNoted => "withdrawal_noted"

def briefProjectionSummaryMax : Nat := 2000

def boundProjectionSummary (text : String) : String :=
  if utf16Length text ≤ briefProjectionSummaryMax then text
  else
    sliceText text briefProjectionSummaryMax ++ "…[+" ++
      toString (utf16Length text - briefProjectionSummaryMax) ++ " chars omitted]"

/-- `kanbanList` by status, the latest fifty; creation times are kept in seconds. -/
def kanbanList (db : Db) (status : CardStatus) : List KanbanCard :=
  ((db.kanbanBoard.select fun card => card.status = status).insertionSort fun a b =>
    b.createdAt / 1000 ≤ a.createdAt / 1000).take 50

namespace ContributionStore

variable (s : ContributionStore)

/-- The notes of a card, read back; a card without notes reads as an empty object. -/
def notesOf (cardId : Nat) : Json :=
  ((s.proxies.get cardId).bind (·.notes)).getD (.obj [])

variable (projectCardId : Nat)

def belongs (card : KanbanCard) : Bool :=
  Json.number? ((s.notesOf card.id).member "parent_project_id") = some (projectCardId : Rat) ∨
    card.parentId = some projectCardId

def peerCards : List KanbanCard :=
  (kanbanList s.db .done).filter fun card =>
    card.source = "peer" ∧ card.type = some "contribution"

/-- The done contribution cards of the project; reading notes that are `null` ends the scan. -/
def listedCards : List KanbanCard :=
  (s.peerCards.takeWhile fun card => !(s.notesOf card.id).isNull).filter (s.belongs projectCardId)

def reportedRows : List ContributionRow :=
  s.contributions.select fun row =>
    row.projectCardId = some projectCardId ∧ row.proxyCardId.isSome ∧
      row.state ∈ [.completed, .failed, .declined, .deferred]

end ContributionStore

open ContributionStore

variable (rt : Runtime)

def cardClaim (s : ContributionStore) (card : KanbanCard) : PeerClaim where
  cardId := card.id
  peer := ((s.proxies.get card.id).bind (·.sourcePeer)).getD
    ((Json.text? ((s.notesOf card.id).member "peer")).getD "unknown")
  outcome := card.status.text
  projectionSummary := boundProjectionSummary
    (match ((s.notesOf card.id).member "projection").filter (·.isTruthy) with
      | some (.str text) => text
      | some projection => projection.stringify rt.renderFraction
      | none => card.resultSummary.getD "")
  rootCriteria := .arr ((Json.items? ((s.notesOf card.id).member "root_criteria")).getD [])
  provenance := (((s.notesOf card.id).member "provenance").filter (·.isObject)).elim ""
    (Json.stringify rt.renderFraction)

def ledgerClaim (row : ContributionRow) : PeerClaim where
  cardId := row.proxyCardId.getD 0
  peer := row.peer
  outcome := row.state.text
  projectionSummary := row.projectionJson.elim "" fun projection =>
    boundProjectionSummary (projection.stringify rt.renderFraction)
  rootCriteria := row.rootCriteriaJson.getD (.arr [])
  provenance := ((row.projectionJson.bind (·.member "provenance")).filter (·.isTruthy)).elim ""
    (Json.stringify rt.renderFraction)

/-- Adds the claim of a row unless a claim has its card; the card 0 is never looked up. -/
def addLedgerClaim (claims : List PeerClaim) (row : ContributionRow) : List PeerClaim :=
  if row.proxyCardId.getD 0 ≠ 0 ∧ claims.any (·.cardId = row.proxyCardId.getD 0) then claims
  else claims ++ [ledgerClaim rt row]

def peerContributions (s : ContributionStore) (projectCardId : Nat) : List PeerClaim :=
  (s.reportedRows projectCardId).foldl (addLedgerClaim rt)
    ((s.listedCards projectCardId).map (cardClaim rt s))

section Claims

variable {rt} {claims : List PeerClaim} {c : Nat} {row : ContributionRow}

theorem addLedgerClaim_extends (claims : List PeerClaim) (row : ContributionRow) :
    claims <+: addLedgerClaim rt claims row := by
  rw [addLedgerClaim]
  split
  · exact List.prefix_rfl
  · exact List.prefix_append claims _

variable (rows : List ContributionRow)

theorem foldl_addLedgerClaim_extends :
    ∀ claims, claims <+: rows.foldl (addLedgerClaim rt) claims := by
  induction rows with
  | nil => exact fun claims => List.prefix_rfl
  | cons row rows ih => exact fun claims => (addLedgerClaim_extends claims row).trans (ih _)

theorem filter_addLedgerClaim_of_ne (hrow : row.proxyCardId.getD 0 ≠ c) :
    (addLedgerClaim rt claims row).filter (·.cardId = c) = claims.filter (·.cardId = c) := by
  rw [addLedgerClaim]
  split
  · rfl
  · simp [List.filter_append, ledgerClaim, hrow]

theorem filter_foldl_of_ne :
    ∀ claims, (∀ row ∈ rows, row.proxyCardId.getD 0 ≠ c) →
      (rows.foldl (addLedgerClaim rt) claims).filter (·.cardId = c) =
        claims.filter (·.cardId = c) := by
  induction rows with
  | nil => exact fun claims _ => rfl
  | cons row rows ih =>
    intro claims hrows
    rw [List.foldl_cons, ih _ fun r hr => hrows r (List.mem_cons_of_mem row hr)]
    exact filter_addLedgerClaim_of_ne (hrows row List.mem_cons_self)

theorem filter_foldl_of_own :
    ∀ claims, claims.filter (·.cardId = c) = [] →
      rows.filter (fun row => row.proxyCardId.getD 0 = c) = [row] →
      (rows.foldl (addLedgerClaim rt) claims).filter (·.cardId = c) = [ledgerClaim rt row] := by
  induction rows with
  | nil =>
    intro claims _ hrow
    cases hrow
  | cons first rows ih =>
    intro claims hclaims hrow
    rw [List.foldl_cons]
    by_cases hfirst : first.proxyCardId.getD 0 = c
    · -- the row itself: it is added, and the rest belongs to other cards
      rw [List.filter_cons_of_pos (by simpa using hfirst)] at hrow
      obtain ⟨rfl, hrest⟩ := List.cons.inj hrow
      have hothers : ∀ r ∈ rows, r.proxyCardId.getD 0 ≠ c := by
        intro r hr hc
        have hmem : r ∈ rows.filter (fun row => row.proxyCardId.getD 0 = c) :=
          List.mem_filter.2 ⟨hr, decide_eq_true hc⟩
        rw [hrest] at hmem
        cases hmem
      have hfree : claims.any (·.cardId = first.proxyCardId.getD 0) = false := by
        rw [hfirst, List.any_eq_false]
        exact fun claim hclaim hc => List.filter_eq_nil_iff.1 hclaims claim hclaim hc
      rw [filter_foldl_of_ne rows _ hothers, addLedgerClaim, hfree]
      simp [List.filter_append, hclaims, ledgerClaim, hfirst]
    · rw [List.filter_cons_of_neg (by simpa using hfirst)] at hrow
      exact ih _ ((filter_addLedgerClaim_of_ne hfirst).trans hclaims) hrow

end Claims

/-! ## Notes -/

def PlainNotes (s : ContributionStore) : Prop :=
  ∀ cardId columns, s.proxies.get cardId = some columns →
    ∃ members, columns.notes = some (.obj members) ∧ members.lookup "provenance" = none

theorem lookup_map_of_ne {key other : String} {value : Json} (hne : other ≠ key)
    (members : List (String × Json)) :
    (members.map fun m => if m.1 = key then (key, value) else m).lookup other =
      members.lookup other := by
  induction members with
  | nil => rfl
  | cons m members ih =>
    obtain ⟨name, old⟩ := m
    rw [List.map_cons, List.lookup_cons, List.lookup_cons, ih]
    by_cases hname : name = key
    · have hother : (other == key) = false := by simpa using hne
      simp [hname, hother]
    · simp [hname]

theorem lookup_setMember_of_ne {members : List (String × Json)} {key other : String} {value : Json}
    (hne : other ≠ key) :
    (Json.setMember members key value).lookup other = members.lookup other := by
  unfold Json.setMember
  split
  · exact lookup_map_of_ne hne members
  · have hother : (other == key) = false := by simpa using hne
    simp [List.lookup_append, List.lookup_cons, hother]

theorem DelegationNotes.answered_plain (n : DelegationNotes) (projectCardId : Option Nat)
    (outcome contributionRef : String) (remote : PeerHelpResponse) :
    ∃ members, n.answered projectCardId outcome contributionRef remote = .obj members ∧
      members.lookup "provenance" = none := by
  refine ⟨_, rfl, ?_⟩
  cases nonEmpty remote.remoteRunId <;> cases remote.remoteCardId <;>
    cases remote.remoteGeneration <;> cases nonEmpty remote.remoteSessionId <;> rfl

namespace PlainNotes

variable {cardId : Nat} {generated : String}

variable {rt} {s s' : ContributionStore} {now : Millis} {peer requestId : String}

theorem empty : PlainNotes .empty := by
  rintro cardId columns ⟨⟩

theorem of_same (h : PlainNotes s) (hsame : s'.proxies = s.proxies) : PlainNotes s' := by
  rw [PlainNotes, hsame]
  exact h

variable {members : List (String × Json)} {id : Nat}

theorem of_get (h : PlainNotes s) (hplain : members.lookup "provenance" = none)
    (hget : ∀ cardId columns, s'.proxies.get cardId = some columns →
      s.proxies.get cardId = some columns ∨ columns.notes = some (.obj members)) :
    PlainNotes s' := by
  intro cardId columns hcolumns
  rcases hget cardId columns hcolumns with hold | hnotes
  · exact h cardId columns hold
  · exact ⟨members, hnotes, hplain⟩

theorem notes_of_get_map {notes : Json} {columns : ProxyColumns}
    {write : ProxyColumns → ProxyColumns} (hwrite : ∀ columns, (write columns).notes = some notes)
    (hget : (if id = cardId then (s.proxies.get id).map write else s.proxies.get id) = some columns) :
    s.proxies.get id = some columns ∨ columns.notes = some notes := by
  split at hget
  · obtain ⟨old, -, rfl⟩ := Option.map_eq_some_iff.1 hget
    exact .inr (hwrite old)
  · exact .inl hget

theorem setNotes {cardId : Nat} (h : PlainNotes s) (hplain : members.lookup "provenance" = none) :
    PlainNotes (s.setNotes now cardId (.obj members)) := by
  refine h.of_get hplain fun id columns hget => ?_
  rw [ContributionStore.setNotes, Table.get_modify] at hget
  exact notes_of_get_map (fun _ => rfl) hget

theorem noteMembers {cardId : Nat} {columns : ProxyColumns} (h : PlainNotes s)
    (hcolumns : s.proxies.get cardId = some columns) :
    (noteMembers columns.notes).lookup "provenance" = none := by
  obtain ⟨members, hnotes, hplain⟩ := h cardId columns hcolumns
  rw [hnotes]
  exact hplain

theorem insertCard {card : Nat → KanbanCard} {columns : Nat → ProxyColumns} (h : PlainNotes s)
    (hinserted : s.insertCard card columns = .ok (id, s'))
    (hnotes : ∀ id, (columns id).notes = some (.obj members))
    (hplain : members.lookup "provenance" = none) : PlainNotes s' := by
  obtain ⟨_, proxies, hinsert, rfl⟩ := insertCard_ok hinserted
  refine h.of_get hplain fun cardId found hfound => ?_
  rw [Table.get_of_insert hinsert] at hfound
  split at hfound
  · cases hfound
    exact .inr (hnotes id)
  · exact .inl hfound

theorem reservedProxy {input : ProxyReservation} {contributionRef : String} (h : PlainNotes s)
    (hreserved : s.reservedProxy now input contributionRef = .ok (id, s')) : PlainNotes s' := by
  rw [ContributionStore.reservedProxy] at hreserved
  split at hreserved
  · split at hreserved
    · cases hreserved
    cases hreserved
    have hplain : ([("peer", .str input.notes.peer), ("goal", .str input.notes.goal),
        ("requires", .ofTexts input.notes.requires),
        ("root_criteria", .ofTexts input.notes.rootCriteria),
        ("executor", .str input.notes.executor), ("request_id", .str input.notes.requestId),
        ("outcome", .str "pending"), ("contribution_ref", .str contributionRef)] :
        List (String × Json)).lookup "provenance" = none := rfl
    refine h.of_get hplain fun cardId columns hget => ?_
    rw [rebindProxy, Table.get_modify] at hget
    exact notes_of_get_map (fun _ => rfl) hget
  · exact h.insertCard hreserved (fun _ => rfl) rfl

theorem insertContribution {row : ContributionRow} (h : PlainNotes s)
    (hinserted : s.insertContribution row = .ok s') : PlainNotes s' := by
  rw [ContributionStore.insertContribution] at hinserted
  split at hinserted
  · cases hinserted
  · cases hinserted
    exact h.of_same rfl

theorem transaction {α : Type} {body : Body ContributionStore String α} (h : PlainNotes s)
    (hbody : ∀ a s', body s = .ok (a, s') → PlainNotes s') :
    PlainNotes (Lib.transaction body s).2 := by
  cases hresult : body s with
  | error e =>
    rw [transaction_of_error hresult]
    exact h
  | ok result =>
    rw [transaction_of_ok hresult]
    exact hbody result.1 result.2 hresult

theorem reserve {requestHash : String} {projectCardId proxyCardId : Option Nat}
    {criteria : Option Json} (h : PlainNotes s) : PlainNotes
      (s.reserve now generated peer requestId requestHash projectCardId proxyCardId criteria).2 := by
  rw [ContributionStore.reserve]
  split
  · split <;> exact h
  split
  · exact h
  · rename_i s' hinserted
    exact h.insertContribution hinserted

theorem reserveProxy {input : ProxyReservation} (h : PlainNotes s) :
    PlainNotes (s.reserveProxy now generated input).2 := by
  refine h.transaction fun result s' hbody => ?_
  rw [reserveProxyBody] at hbody
  split at hbody
  · split at hbody
    · cases hbody
      exact h
    split at hbody
    · cases hbody
      exact h
    · obtain ⟨⟨id, reserved⟩, hreserved, hbody⟩ := bind_eq_ok.1 hbody
      cases hbody
      exact (h.reservedProxy hreserved).of_same rfl
  · obtain ⟨⟨id, reserved⟩, hreserved, hbody⟩ := bind_eq_ok.1 hbody
    obtain ⟨inserted, hinserted, hbody⟩ := bind_eq_ok.1 hbody
    cases hbody
    exact (h.reservedProxy hreserved).insertContribution hinserted

theorem createCliProject {admission : CliAdmission} {d : CliDelegation}
    (h : PlainNotes s) : PlainNotes (s.createCliProject admission now generated d).2 := by
  refine h.transaction fun id s' hbody => ?_
  obtain ⟨⟨rootId, rooted⟩, hroot, hbody⟩ := bind_eq_ok.1 hbody
  obtain ⟨admitted, hadmitted, hbody⟩ := bind_eq_ok.1 hbody
  obtain ⟨⟨proxyId, proxied⟩, hproxy, hbody⟩ := bind_eq_ok.1 hbody
  obtain ⟨inserted, hinserted, hbody⟩ := bind_eq_ok.1 hbody
  cases hbody
  have hrooted : PlainNotes rooted := by
    rw [insertCliRoot] at hroot
    split at hroot
    · cases hroot
    split at hroot
    · cases hroot
    · cases hroot
      exact h.of_same rfl
  have hadmission : PlainNotes admitted := by
    unfold admitCliRoot at hadmitted
    split at hadmitted
    · cases hadmitted
    · cases hadmitted
      exact hrooted.of_same rfl
  exact (hadmission.insertCard hproxy (fun _ => rfl) rfl).insertContribution hinserted

theorem transitionToNonStarted {state : ContributionState} (h : PlainNotes s) :
    PlainNotes (s.transitionToNonStarted now peer requestId state).2 := by
  unfold ContributionStore.transitionToNonStarted
  split
  · exact h.of_same rfl
  · exact h

theorem adoptContributionRef {contributionRef : String} (h : PlainNotes s) :
    PlainNotes (s.adoptContributionRef now peer requestId contributionRef).2 := by
  rw [ContributionStore.adoptContributionRef]
  split
  · exact h
  split
  · exact h
  split
  · exact h
  · exact h.of_same rfl

theorem recordAnswer {d : Delegation} {answer : Option PeerHelpResponse} (rt : Runtime)
    (h : PlainNotes s) : PlainNotes (s.recordAnswer rt now d answer).2 := by
  unfold ContributionStore.recordAnswer
  split
  · exact h.transitionToNonStarted.setNotes rfl
  rename_i response
  split
  · rw [recordAcceptance]
    split
    · obtain ⟨members, hnotes, hplain⟩ := d.notes.answered_plain d.projectCardId "accepted"
        (response.contributionRef.getD d.contributionRef) response
      rw [hnotes]
      have haccepted : PlainNotes ((s.adoptContributionRef now d.peer d.requestId
          (response.contributionRef.getD d.contributionRef)).2.transitionToAccepted now d.peer
          d.requestId).2 := h.adoptContributionRef.of_same rfl
      exact haccepted.setNotes hplain
    · exact h.adoptContributionRef
  · obtain ⟨members, hnotes, hplain⟩ := d.notes.answered_plain d.projectCardId
      (decisionText (nonStartedDecision response)) d.contributionRef
      { response with
        remoteRunId := none, remoteCardId := none, remoteGeneration := none
        remoteSessionId := none }
    have hmoved : PlainNotes (s.transitionToNonStarted now d.peer d.requestId
        (nonStartedDecision response)).2 := h.transitionToNonStarted
    have hnoted : PlainNotes ((s.transitionToNonStarted now d.peer d.requestId
        (nonStartedDecision response)).2.setNotes now d.proxyCardId (.obj members)) :=
      hmoved.setNotes hplain
    rw [recordNonStarted, hnotes]
    split
    · exact hnoted.of_same rfl
    · exact hnoted

theorem recordAttempts {attempts : List Json} (h : PlainNotes s) :
    PlainNotes (s.recordAttempts now cardId attempts) := by
  rw [ContributionStore.recordAttempts]
  split
  · exact h
  rename_i columns hcolumns
  refine h.setNotes ?_
  rw [lookup_setMember_of_ne (by decide)]
  exact h.noteMembers hcolumns

theorem recordBreakdown (h : PlainNotes s) :
    PlainNotes (s.recordBreakdown now peer requestId cardId) := by
  have hmoved : PlainNotes (s.transitionToNonStarted now peer requestId .unknown).2 :=
    h.transitionToNonStarted
  unfold ContributionStore.recordBreakdown
  dsimp only
  split
  · exact hmoved
  rename_i columns hcolumns
  refine hmoved.setNotes ?_
  rw [lookup_setMember_of_ne (by decide), lookup_setMember_of_ne (by decide),
    lookup_setMember_of_ne (by decide)]
  exact hmoved.noteMembers hcolumns

theorem projectTerminal {event : PeerContributionEvent} {proxyCardId : Option Nat}
    (h : PlainNotes s) (hprojected : projectTerminal rt now event proxyCardId s = .ok s') :
    PlainNotes s' := by
  rw [ContributionStore.projectTerminal] at hprojected
  split at hprojected
  · cases hprojected
    exact h
  obtain ⟨summary, -, hprojected⟩ := bind_eq_ok.1 hprojected
  obtain ⟨db, -, hprojected⟩ := bind_eq_ok.1 hprojected
  cases hprojected
  have hsettled : PlainNotes { s with db := db } := h.of_same rfl
  exact hsettled.setNotes rfl

theorem applyEvent {event : PeerContributionEvent} {digest : String} {projectionJson : Option Json}
    (h : PlainNotes s) : PlainNotes (s.applyEvent rt now peer event digest projectionJson).2 := by
  rw [ContributionStore.applyEvent]
  split
  · exact h
  refine h.transaction fun result s' hbody => ?_
  -- only an event that lands gets to write
  have hwrite : ∀ row, writeEvent rt now peer event digest projectionJson row s =
      .ok (result, s') → PlainNotes s' := by
    intro row hrow
    rw [writeEvent] at hrow
    split at hrow
    · split at hrow
      · cases hrow
      obtain ⟨projected, hprojected, hrow⟩ := bind_eq_ok.1 hrow
      cases hrow
      refine PlainNotes.projectTerminal ?_ hprojected
      exact h.of_same rfl
    · cases hrow
      exact h
  rw [applyEventBody] at hbody
  split at hbody
  · cases hbody
    exact h
  split at hbody
  · cases hbody
    exact h
  split at hbody
  · split at hbody <;> cases hbody <;> exact h
  split at hbody
  · split at hbody <;> cases hbody <;> exact h
  split at hbody
  · cases hbody
    exact h
  · exact hwrite _ hbody

theorem step (s : ContributionStore) (call : LedgerCall) (h : PlainNotes s) :
    PlainNotes (ledgerStep rt s call) := by
  cases call with
  | reserve => exact h.reserve
  | reserveProxy => exact h.reserveProxy
  | createCliProject => exact h.createCliProject
  | answer => exact h.recordAnswer rt
  | attempts => exact h.recordAttempts
  | breakdown => exact h.recordBreakdown
  | adoptContributionRef => exact h.adoptContributionRef
  | transitionToNonStarted => exact h.transitionToNonStarted
  | event now originPeer raw =>
    rw [ledgerStep, handleContributionEvent]
    split
    · exact h
    · exact h.applyEvent
  | _ => exact h.of_same rfl

theorem run (calls : List LedgerCall) : PlainNotes (ledgerRun rt calls) :=
  invariant_of_step step calls .empty empty

end PlainNotes

section Rows

variable {rt}

/-- A row has a terminal event only once it is settled, and then says where it comes from. -/
def Sourced (row : ContributionRow) : Prop :=
  (row.state.isSettled = false → row.terminalEventId = none) ∧
    (row.terminalEventId ≠ none → ∃ projection provenance, row.projectionJson = some projection ∧
      projection.member "provenance" = some provenance ∧ provenance.isObject = true)

def SourcedRows (s : ContributionStore) : Prop :=
  ∀ k row, s.contributions.get k = some row → Sourced row

theorem Sourced.of_none {row : ContributionRow} (h : row.terminalEventId = none) : Sourced row :=
  ⟨fun _ => h, fun hsome => absurd h hsome⟩

theorem Sourced.kept {row row' : ContributionRow} (h : Sourced row) (hkept : RowKept row row') :
    Sourced row' := by
  rcases hkept.state with ⟨hstate, hprojection⟩ | hopen
  · rw [Sourced, hstate, hprojection, hkept.terminalEventId]
    exact h
  -- an open row has met no terminal event
  have hunsettled : row.state.isSettled = false := by
    cases hstate : row.state <;> rw [hstate] at hopen <;> first | rfl | cases hopen
  exact .of_none (hkept.terminalEventId.trans (h.1 hunsettled))

theorem sourced_eventWrite {row : ContributionRow} {now : Millis} {event : PeerContributionEvent}
    {digest : String} (h : Sourced row) (hunsettled : row.state.isSettled = false)
    (hparsed : parseProjection rt event.kind event.projection = .ok ()) :
    Sourced (eventWrite now event digest event.projection row) := by
  have hterminal := parseProjection_some hparsed
  have hopen := h.1 hunsettled
  have hsettled : event.kind.isTerminal = true →
      Sourced (eventWrite now event digest event.projection row) := by
    intro hkind
    rw [hkind] at hterminal
    obtain ⟨projection, hprojection⟩ := Option.isSome_iff_exists.1 hterminal
    rw [hprojection] at hparsed ⊢
    obtain ⟨provenance, hmember, hobject⟩ := parseProjection_provenance hparsed
    cases hevent : event.kind <;> rw [hevent] at hkind <;>
      simp_all [Sourced, eventWrite, ContributionEventKind.isTerminal, ContributionState.isSettled]
  cases hevent : event.kind with
  | completed | failed => exact hsettled (by rw [hevent]; rfl)
  | progress | withdrawalNoted => exact .of_none (by simp [eventWrite, hevent, hopen])

theorem sourcedRows_step (s : ContributionStore) (call : LedgerCall) (h : SourcedRows s) :
    SourcedRows (ledgerStep rt s call) := by
  intro k row' hrow'
  rcases ledgerStep_cases rt s call with
    ⟨-, hdecides⟩ | ⟨now, peer, raw, event, row, rfl, hreceived, -, -, happlies⟩
  · cases hrow : s.contributions.get k with
    | none => exact .of_none (hdecides.fresh k row' hrow hrow').2
    | some row =>
      obtain ⟨_, hget, hkept⟩ := hdecides.row k row hrow
      obtain rfl := Option.some.inj (hrow'.symm.trans hget)
      exact (h k row hrow).kept hkept
  · by_cases hk : k = (peer, event.requestId)
    · rw [hk, happlies.stored] at hrow'
      cases hrow'
      exact sourced_eventWrite (h _ row happlies.found) happlies.unsettled
        (parseContributionEvent_ok (receivedEvent_some hreceived)).2
    · rw [happlies.others k hk] at hrow'
      exact h k row' hrow'

theorem sourcedRows_run (calls : List LedgerCall) : SourcedRows (ledgerRun rt calls) :=
  invariant_of_step sourcedRows_step calls .empty (by rintro k row ⟨⟩)

end Rows

section OwnCard

variable {rt} {s : ContributionStore} {projectCardId c : Nat} {row : ContributionRow}

/-- The claims under the card of the contribution are the one the ledger makes, and the card stands
for no other contribution. -/
def AppearsOnce (rt : Runtime) (s : ContributionStore) (projectCardId : Nat)
    (row : ContributionRow) : Prop :=
  ∃ c, row.proxyCardId = some c ∧
    (peerContributions rt s projectCardId).filter (·.cardId = c) = [ledgerClaim rt row] ∧
    ∀ other ∈ s.reportedRows projectCardId, other.proxyCardId = some c → other = row

/-- The contribution has a proxy that no other row of the project has and that is not among the
done contribution cards of the project on the board. -/
def HasOwnCard (s : ContributionStore) (projectCardId : Nat) (row : ContributionRow) : Prop :=
  ∃ c, row.proxyCardId = some c ∧
    (∀ card ∈ s.peerCards, s.belongs projectCardId card = true → card.id ≠ c) ∧
    ∀ other ∈ s.reportedRows projectCardId, other.proxyCardId = some c → other = row

theorem notesOf_plain (h : PlainNotes s) (cardId : Nat) :
    ∃ members, s.notesOf cardId = .obj members ∧ members.lookup "provenance" = none := by
  cases hcolumns : s.proxies.get cardId with
  | none => exact ⟨[], by rw [notesOf, hcolumns]; rfl, rfl⟩
  | some columns =>
    obtain ⟨members, hnotes, hplain⟩ := h cardId columns hcolumns
    refine ⟨members, ?_, hplain⟩
    rw [notesOf, hcolumns, Option.bind_some, hnotes, Option.getD_some]

theorem listedCards_eq (h : PlainNotes s) :
    s.listedCards projectCardId = s.peerCards.filter (s.belongs projectCardId) := by
  rw [listedCards, List.takeWhile_eq_self_iff.2]
  intro card _
  obtain ⟨members, hnotes, -⟩ := notesOf_plain h card.id
  rw [hnotes]
  rfl

theorem provenance_cardClaim (h : PlainNotes s) (card : KanbanCard) :
    (cardClaim rt s card).provenance = "" := by
  obtain ⟨members, hnotes, hplain⟩ := notesOf_plain h card.id
  rw [cardClaim, hnotes]
  simp [Json.member, hplain]

theorem stringify_ne_empty (renderFraction : Rat → String) {value : Json}
    (h : value.isObject = true) : value.stringify renderFraction ≠ "" := by
  cases value with
  | arr items => simp [Json.stringify]
  | obj members => simp [Json.stringify]
  | _ => cases h

theorem provenance_ledgerClaim (h : Sourced row) (hevent : row.terminalEventId ≠ none) :
    (ledgerClaim rt row).provenance ≠ "" := by
  obtain ⟨projection, provenance, hprojection, hmember, hobject⟩ := h.2 hevent
  have htruthy : provenance.isTruthy = true := by
    cases provenance <;> first | rfl | cases hobject
  have hfilter : (some provenance).filter (·.isTruthy) = some provenance := by
    simp [Option.filter, htruthy]
  have hclaim : (ledgerClaim rt row).provenance = provenance.stringify rt.renderFraction := by
    rw [ledgerClaim, hprojection, Option.bind_some, hmember, hfilter]
    rfl
  rw [hclaim]
  exact stringify_ne_empty rt.renderFraction hobject

theorem filter_reportedRows (hrow : row ∈ s.reportedRows projectCardId)
    (hproxy : row.proxyCardId = some c)
    (hown : ∀ other ∈ s.reportedRows projectCardId, other.proxyCardId = some c → other = row) :
    (s.reportedRows projectCardId).filter (fun other => other.proxyCardId.getD 0 = c) = [row] := by
  have hnodup : (s.reportedRows projectCardId).Nodup :=
    (List.Nodup.of_map _ s.contributions.keys_nodup).filter _
  refine List.perm_singleton.1 ((List.perm_ext_iff_of_nodup (hnodup.filter _)
    (List.nodup_singleton row)).2 fun other => ?_)
  rw [List.mem_filter, List.mem_singleton]
  constructor
  · rintro ⟨hother, hc⟩
    obtain ⟨-, -, hsome, -⟩ : other ∈ s.contributions ∧ other.projectCardId = some projectCardId ∧
        other.proxyCardId.isSome = true ∧ _ := by
      simpa [reportedRows, Table.mem_select] using hother
    obtain ⟨id, hid⟩ := Option.isSome_iff_exists.1 hsome
    rw [hid, Option.getD_some, decide_eq_true_eq] at hc
    exact hown other hother (hc ▸ hid)
  · rintro rfl
    exact ⟨hrow, by rw [hproxy]; simp⟩

theorem appearsOnce_of_hasOwnCard (h : PlainNotes s) (hrow : row ∈ s.reportedRows projectCardId)
    (hown : HasOwnCard s projectCardId row) : AppearsOnce rt s projectCardId row := by
  obtain ⟨c, hproxy, hunlisted, hothers⟩ := hown
  refine ⟨c, hproxy, filter_foldl_of_own _ _ ?_ (filter_reportedRows hrow hproxy hothers), hothers⟩
  rw [listedCards_eq h, List.filter_eq_nil_iff]
  intro claim hclaim
  obtain ⟨card, hcard, rfl⟩ := List.mem_map.1 hclaim
  obtain ⟨hlisted, hbelongs⟩ := List.mem_filter.1 hcard
  have hne : card.id ≠ c := hunlisted card hlisted hbelongs
  simp [cardClaim, hne]

theorem hasOwnCard_of_appearsOnce (h : PlainNotes s) (hsourced : Sourced row)
    (hevent : row.terminalEventId ≠ none) (happears : AppearsOnce rt s projectCardId row) :
    HasOwnCard s projectCardId row := by
  obtain ⟨c, hproxy, hclaims, hothers⟩ := happears
  refine ⟨c, hproxy, fun card hcard hbelongs hc => ?_, hothers⟩
  have hlisted : cardClaim rt s card ∈ (s.listedCards projectCardId).map (cardClaim rt s) := by
    rw [listedCards_eq h]
    exact List.mem_map_of_mem (List.mem_filter.2 ⟨hcard, hbelongs⟩)
  have hclaim : cardClaim rt s card ∈
      (peerContributions rt s projectCardId).filter (·.cardId = c) :=
    List.mem_filter.2 ⟨(foldl_addLedgerClaim_extends _ _).subset hlisted, decide_eq_true hc⟩
  rw [hclaims, List.mem_singleton] at hclaim
  exact provenance_ledgerClaim hsourced hevent (hclaim ▸ provenance_cardClaim h card)

end OwnCard

/-- Over all runs, a completed contribution of a project appears once in its review case, as the
ledger has it, if its proxy is its own and is not read from the board; one that an event completed
appears so only then. -/
theorem peer_claims_own_card (calls : List LedgerCall) (projectCardId : Nat)
    (k : String × String) (row : ContributionRow)
    (hrow : (ledgerRun rt calls).contributions.get k = some row)
    (hproject : row.projectCardId = some projectCardId) (hcompleted : row.state = .completed) :
    (HasOwnCard (ledgerRun rt calls) projectCardId row →
      AppearsOnce rt (ledgerRun rt calls) projectCardId row) ∧
    (row.terminalEventId ≠ none → AppearsOnce rt (ledgerRun rt calls) projectCardId row →
      HasOwnCard (ledgerRun rt calls) projectCardId row) := by
  have hplain : PlainNotes (ledgerRun rt calls) := PlainNotes.run calls
  constructor
  · intro hown
    refine appearsOnce_of_hasOwnCard hplain ?_ hown
    obtain ⟨c, hproxy, -⟩ := hown
    rw [reportedRows, Table.mem_select]
    exact ⟨Table.mem_of_get hrow, by simp [hproject, hproxy, hcompleted]⟩
  · exact fun hevent => hasOwnCard_of_appearsOnce hplain (sourcedRows_run calls k row hrow) hevent

/-! ## A contribution the usual way -/

/-- A request for one root criterion of a project, accepted and completed by its peer. -/
def contributionCalls : List LedgerCall :=
  [.reserveProxy 0 "help_a"
      { sampleDelegation with
        projectCardId := some 7
        notes := { sampleDelegation.notes with rootCriteria := ["c1"] } },
    .transitionToAccepted 0 "molty" "req1", .event 1 "molty" (sampleEvent "e1" 0 .completed)]

def deliveredCalls : List LedgerCall :=
  contributionCalls ++ [.board (fun db => { db with
    kanbanBoard := db.kanbanBoard.modify 1 fun card => { card with status := .delivered } }) 2]

def contributionFacts (calls : List LedgerCall) :
    Option (Option Nat × Option Nat × ContributionState) :=
  ((ledgerRun .plain calls).contributions.get ("molty", "req1")).map fun row =>
    (row.projectCardId, row.proxyCardId, row.state)

theorem delivered_claim_appears : ∃ row,
    (ledgerRun .plain deliveredCalls).contributions.get ("molty", "req1") = some row ∧
      AppearsOnce .plain (ledgerRun .plain deliveredCalls) 7 row := by
  have hfacts : contributionFacts deliveredCalls = some (some 7, some 1, .completed) := by
    decide +kernel
  have hcards : (ledgerRun .plain deliveredCalls).peerCards.length = 0 := by decide +kernel
  have hkeys : (ledgerRun .plain deliveredCalls).contributions.rows.map Keyed.key =
      [("molty", "req1")] := by decide +kernel
  rw [contributionFacts, Option.map_eq_some_iff] at hfacts
  obtain ⟨row, hrow, hfacts⟩ := hfacts
  simp only [Prod.mk.injEq] at hfacts
  obtain ⟨hproject, hproxy, hstate⟩ := hfacts
  refine ⟨row, hrow, (peer_claims_own_card .plain deliveredCalls 7 _ row hrow hproject hstate).1
    ⟨1, hproxy, fun card hcard => ?_, fun other hother _ => ?_⟩⟩
  · cases hcard
  · have hmem := ((Table.mem_select _ _ _).1 hother).1
    have hkey := List.mem_map_of_mem (f := Keyed.key) hmem
    rw [hkeys, List.mem_singleton] at hkey
    have hget := Table.get_key_of_mem hmem
    rw [hkey, hrow] at hget
    exact (Option.some.inj hget).symm

/-- While the proxy is done on the board, the claim has neither the root criteria nor the
provenance of the ledger. -/
theorem completed_claim_without_provenance :
    (peerContributions .plain (ledgerRun .plain contributionCalls) 7).map
        (fun claim => (claim.cardId, claim.projectionSummary, claim.provenance)) =
      [(1, "contribution completed", "")] ∧
    ∃ row, (ledgerRun .plain contributionCalls).contributions.get ("molty", "req1") = some row ∧
      row.projectCardId = some 7 ∧ row.state = .completed ∧
      ¬ AppearsOnce .plain (ledgerRun .plain contributionCalls) 7 row := by
  have hclaims : (peerContributions .plain (ledgerRun .plain contributionCalls) 7).map
      (fun claim => (claim.cardId, claim.projectionSummary, claim.provenance)) =
      [(1, "contribution completed", "")] := by decide +kernel
  have hfacts : ((ledgerRun .plain contributionCalls).contributions.get ("molty", "req1")).map
      (fun row => (row.projectCardId, row.state,
        decide ((ledgerClaim .plain row).provenance = ""))) =
      some (some 7, .completed, false) := by decide +kernel
  rw [Option.map_eq_some_iff] at hfacts
  obtain ⟨row, hrow, hfacts⟩ := hfacts
  simp only [Prod.mk.injEq] at hfacts
  obtain ⟨hproject, hstate, hprovenance⟩ := hfacts
  refine ⟨hclaims, row, hrow, hproject, hstate, ?_⟩
  rintro ⟨c, -, hfilter, -⟩
  have hmem : ledgerClaim .plain row ∈
      peerContributions .plain (ledgerRun .plain contributionCalls) 7 :=
    List.mem_of_mem_filter (hfilter ▸ List.mem_singleton_self _)
  have hshown := List.mem_map_of_mem
    (f := fun claim : PeerClaim => (claim.cardId, claim.projectionSummary, claim.provenance)) hmem
  rw [hclaims, List.mem_singleton] at hshown
  simp only [Prod.mk.injEq] at hshown
  exact of_decide_eq_false hprovenance hshown.2.2

end Abtars
