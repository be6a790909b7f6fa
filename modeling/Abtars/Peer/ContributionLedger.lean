import Abtars.Peer.Delegation

/-!
# What events and decisions do to the ledger

A decision of the requester moves a row only from a state in which the request is open, and touches
neither its sequence nor the events.  An event that is applied adds one event row under a new id and
raises the sequence of the row; any other event changes nothing.
-/

namespace Abtars

open Lib

def ContributionState.isOpen (state : ContributionState) : Bool :=
  state = .pending ∨ state = .unknown ∨ state = .accepted ∨ state = .running

namespace ContributionStore

/-! ## Calls that apply no event -/

/-- What a decision keeps of a row: what events wrote, and the state unless that is open. -/
structure RowKept (row row' : ContributionRow) : Prop where
  lastSequence : row'.lastSequence = row.lastSequence
  terminalEventId : row'.terminalEventId = row.terminalEventId
  state : (row'.state = row.state ∧ row'.projectionJson = row.projectionJson) ∨
    row.state.isOpen = true

theorem RowKept.refl (row : ContributionRow) : RowKept row row :=
  ⟨rfl, rfl, .inl ⟨rfl, rfl⟩⟩

theorem RowKept.trans {row row' row'' : ContributionRow} (h : RowKept row row')
    (h' : RowKept row' row'') : RowKept row row'' where
  lastSequence := h'.lastSequence.trans h.lastSequence
  terminalEventId := h'.terminalEventId.trans h.terminalEventId
  state := by
    rcases h.state with ⟨hstate, hprojection⟩ | hopen
    · have hstate' := h'.state
      rwa [hstate, hprojection] at hstate'
    · exact .inr hopen

structure Decides (s s' : ContributionStore) : Prop where
  events : s'.events = s.events
  row : ∀ k row, s.contributions.get k = some row →
    ∃ row', s'.contributions.get k = some row' ∧ RowKept row row'
  fresh : ∀ k row', s.contributions.get k = none → s'.contributions.get k = some row' →
    row'.lastSequence = -1 ∧ row'.terminalEventId = none

namespace Decides

variable {s s' s'' : ContributionStore}

theorem of_same (hcontributions : s'.contributions = s.contributions)
    (hevents : s'.events = s.events) : Decides s s' where
  events := hevents
  row := fun k row hrow => ⟨row, hcontributions ▸ hrow, .refl row⟩
  fresh := fun k row' hnone hrow' => by
    rw [hcontributions, hnone] at hrow'
    cases hrow'

theorem refl (s : ContributionStore) : Decides s s := of_same rfl rfl

theorem trans (h : Decides s s') (h' : Decides s' s'') : Decides s s'' where
  events := h'.events.trans h.events
  row := fun k row hrow => by
    obtain ⟨row', hrow', hkept⟩ := h.row k row hrow
    obtain ⟨row'', hrow'', hkept'⟩ := h'.row k row' hrow'
    exact ⟨row'', hrow'', hkept.trans hkept'⟩
  fresh := fun k row'' hnone hrow'' => by
    cases hget : s'.contributions.get k with
    | none => exact h'.fresh k row'' hget hrow''
    | some row' =>
      obtain ⟨_, hsame, hkept⟩ := h'.row k row' hget
      obtain rfl := Option.some.inj (hrow''.symm.trans hsame)
      rw [hkept.lastSequence, hkept.terminalEventId]
      exact h.fresh k row' hnone hget

end Decides

section Decisions

variable {generated : String} {cardId : Nat}

variable {s s' : ContributionStore} {now : Millis} {peer requestId : String}

theorem decides_cas {k : String × String} {guard : ContributionRow → Bool}
    {write : ContributionRow → ContributionRow} {hkey : ∀ row, Keyed.key (write row) = Keyed.key row}
    (hwrite : ∀ row, guard row = true → RowKept row (write row)) :
    Decides s { s with contributions := (s.contributions.cas k guard write hkey).2 } := by
  rcases Table.cas_cases s.contributions k guard write hkey with
    ⟨-, hcas⟩ | ⟨moved, hget, hguard, hcas⟩
  · rw [hcas]
    exact .refl s
  · rw [hcas]
    refine ⟨rfl, fun key row hrow => ?_, fun key row' hnone hrow' => ?_⟩
    · by_cases hk : key = k
      · subst hk
        obtain rfl := Option.some.inj (hget.symm.trans hrow)
        exact ⟨write moved, by simp [hget], hwrite moved hguard⟩
      · exact ⟨row, by simpa [Table.get_modify_of_ne, hk] using hrow, .refl row⟩
    · rw [Table.get_modify, hnone] at hrow'
      split at hrow' <;> cases hrow'

theorem decides_moveRow {fromStates : List ContributionState}
    {write : ContributionRow → ContributionRow}
    {hkey : ∀ row, Keyed.key (write row) = Keyed.key row}
    (hwrite : ∀ row, row.state ∈ fromStates → RowKept row (write row)) :
    Decides s (s.moveRow peer requestId fromStates write hkey).2 :=
  decides_cas fun row hguard => hwrite row (by simpa using hguard)

theorem decides_transitionState {fromStates : List ContributionState}
    {toState : ContributionState} (hopen : ∀ state ∈ fromStates, state.isOpen = true) :
    Decides s (s.transitionState now peer requestId fromStates toState).2 :=
  decides_moveRow fun row hrow => ⟨rfl, rfl, .inr (hopen row.state hrow)⟩

theorem decides_transitionToAccepted : Decides s (s.transitionToAccepted now peer requestId).2 :=
  decides_transitionState (by decide)

theorem decides_transitionToNonStarted {state : ContributionState} :
    Decides s (s.transitionToNonStarted now peer requestId state).2 := by
  unfold transitionToNonStarted
  split
  · exact decides_transitionState (by decide)
  · exact .refl s

theorem decides_adoptContributionRef {contributionRef : String} :
    Decides s (s.adoptContributionRef now peer requestId contributionRef).2 := by
  rw [adoptContributionRef]
  split
  · exact .refl s
  split
  · exact .refl s
  split
  · exact .refl s
  · exact decides_moveRow fun row _ => ⟨rfl, rfl, .inl ⟨rfl, rfl⟩⟩

theorem decides_insertContribution {row : ContributionRow}
    (hrow : row.lastSequence = -1 ∧ row.terminalEventId = none)
    (h : s.insertContribution row = .ok s') : Decides s s' := by
  rw [insertContribution] at h
  split at h
  · cases h
  rename_i contributions hinsert
  cases h
  refine ⟨rfl, fun k old hold => ⟨old, Table.get_insert_of_some hinsert hold, .refl old⟩,
    fun k row' hnone hrow' => ?_⟩
  rw [Table.get_of_insert hinsert, hnone] at hrow'
  split at hrow'
  · cases hrow'
    exact hrow
  · cases hrow'

theorem insertCard_ok {card : Nat → KanbanCard} {columns : Nat → ProxyColumns} {id : Nat}
    (h : s.insertCard card columns = .ok (id, s')) :
    ∃ board proxies, s.proxies.insert (fun _ => false) (columns id) = some proxies ∧
      s' = { s with
        db := { s.db with kanbanBoard := board }
        nextCardId := s.nextCardId + 1
        proxies := proxies } := by
  rw [insertCard] at h
  split at h
  · rename_i board proxies _ hproxies
    split at h
    · cases h
    · cases h
      exact ⟨board, proxies, hproxies, rfl⟩
  · cases h

theorem decides_insertCard {card : Nat → KanbanCard} {columns : Nat → ProxyColumns} {id : Nat}
    (h : s.insertCard card columns = .ok (id, s')) : Decides s s' := by
  obtain ⟨_, _, -, rfl⟩ := insertCard_ok h
  exact .of_same rfl rfl

theorem decides_reservedProxy {input : ProxyReservation} {contributionRef : String} {id : Nat}
    (h : s.reservedProxy now input contributionRef = .ok (id, s')) : Decides s s' := by
  rw [reservedProxy] at h
  split at h
  · split at h
    · cases h
    · cases h
      exact .of_same rfl rfl
  · exact decides_insertCard h

theorem decides_reserve {requestHash : String} {projectCardId proxyCardId : Option Nat}
    {criteria : Option Json} :
    Decides s
      (s.reserve now generated peer requestId requestHash projectCardId proxyCardId criteria).2 := by
  rw [reserve]
  split
  · split <;> exact .refl s
  split
  · exact .refl s
  · rename_i s' hinsert
    exact decides_insertContribution ⟨rfl, rfl⟩ hinsert

theorem decides_reserveProxyBody {input : ProxyReservation} {result : ReserveProxyResult}
    (h : reserveProxyBody now generated input s = .ok (result, s')) : Decides s s' := by
  rw [reserveProxyBody] at h
  split at h
  · split at h
    · cases h
      exact .refl s
    split at h
    · cases h
      exact .refl s
    obtain ⟨⟨id, reserved⟩, hreserved, h⟩ := bind_eq_ok.1 h
    cases h
    -- binding the card moves no state
    exact (decides_reservedProxy hreserved).trans (decides_cas
      fun row _ => ⟨rfl, rfl, .inl ⟨rfl, rfl⟩⟩)
  · obtain ⟨⟨id, reserved⟩, hreserved, h⟩ := bind_eq_ok.1 h
    obtain ⟨inserted, hinserted, h⟩ := bind_eq_ok.1 h
    cases h
    exact (decides_reservedProxy hreserved).trans (decides_insertContribution ⟨rfl, rfl⟩ hinserted)

theorem decides_createCliProjectBody {admission : CliAdmission} {d : CliDelegation} {id : Nat}
    (h : createCliProjectBody admission now generated d s = .ok (id, s')) : Decides s s' := by
  obtain ⟨⟨rootId, rooted⟩, hroot, h⟩ := bind_eq_ok.1 h
  obtain ⟨admitted, hadmitted, h⟩ := bind_eq_ok.1 h
  obtain ⟨⟨proxyId, proxied⟩, hproxy, h⟩ := bind_eq_ok.1 h
  obtain ⟨inserted, hinserted, h⟩ := bind_eq_ok.1 h
  cases h
  have hrooted : Decides s rooted := by
    rw [insertCliRoot] at hroot
    split at hroot
    · cases hroot
    split at hroot
    · cases hroot
    · cases hroot
      exact .of_same rfl rfl
  have hadmission : Decides rooted admitted := by
    unfold admitCliRoot at hadmitted
    split at hadmitted
    · cases hadmitted
    · cases hadmitted
      exact .of_same rfl rfl
  exact ((hrooted.trans hadmission).trans (decides_insertCard hproxy)).trans
    (decides_insertContribution ⟨rfl, rfl⟩ hinserted)

theorem decides_transaction {α : Type} {body : Body ContributionStore String α}
    (hbody : ∀ a s', body s = .ok (a, s') → Decides s s') : Decides s (transaction body s).2 := by
  cases h : body s with
  | error e =>
    rw [transaction_of_error h]
    exact .refl s
  | ok result =>
    rw [transaction_of_ok h]
    exact hbody result.1 result.2 h

theorem decides_setNotes {notes : Json} : Decides s (s.setNotes now cardId notes) :=
  .of_same rfl rfl

theorem decides_recordAnswer (rt : Runtime) {d : Delegation} {answer : Option PeerHelpResponse} :
    Decides s (s.recordAnswer rt now d answer).2 := by
  unfold recordAnswer
  split
  · exact decides_transitionToNonStarted.trans decides_setNotes
  split
  · rw [recordAcceptance]
    split
    · exact (decides_adoptContributionRef.trans decides_transitionToAccepted).trans
        decides_setNotes
    · exact decides_adoptContributionRef
  rename_i response _
  have hmoved : Decides s (s.transitionToNonStarted now d.peer d.requestId
      (nonStartedDecision response)).2 := decides_transitionToNonStarted
  rw [recordNonStarted]
  split
  · exact hmoved.trans (.of_same rfl rfl)
  · exact hmoved.trans decides_setNotes

theorem decides_recordAttempts {attempts : List Json} :
    Decides s (s.recordAttempts now cardId attempts) := by
  rw [recordAttempts]
  split
  · exact .refl s
  · exact decides_setNotes

theorem decides_recordBreakdown : Decides s (s.recordBreakdown now peer requestId cardId) := by
  have hmoved : Decides s (s.transitionToNonStarted now peer requestId .unknown).2 :=
    decides_transitionToNonStarted
  unfold recordBreakdown
  dsimp only
  split
  · exact hmoved
  · exact hmoved.trans decides_setNotes

end Decisions

/-! ## One event -/

def readable (s : ContributionStore) (event : PeerContributionEvent)
    (proxyCardId : Option Nat) : Bool :=
  match proxyCardId.filter fun id => id ≠ 0 ∧ event.kind.isTerminal with
  | none => true
  | some cardId =>
    match event.summary with
    | none | some .null | some (.str _) => true
    | some (.arr _) => event.kind ≠ .completed ∨ !s.db.kanbanBoard.has cardId
    | some _ => false

/-- Is the event new to a contribution that is not settled, under the reference it has? -/
def takes (s : ContributionStore) (peer : String) (event : PeerContributionEvent) : Bool :=
  match s.contributions.get (peer, event.requestId) with
  | none => false
  | some row =>
    row.contributionRef = event.contributionRef ∧ row.state.isSettled = false ∧
      (s.events.get (peer, event.eventId)).isNone ∧ row.lastSequence < event.sequence ∧
      s.readable event row.proxyCardId

structure Applies (s : ContributionStore) (now : Millis) (peer : String)
    (event : PeerContributionEvent) (digest : String) (projectionJson : Option Json)
    (row : ContributionRow) (s' : ContributionStore) : Prop where
  found : s.contributions.get (peer, event.requestId) = some row
  reference : row.contributionRef = event.contributionRef
  unsettled : row.state.isSettled = false
  fresh : s.events.get (peer, event.eventId) = none
  later : row.lastSequence < event.sequence
  stored : s'.contributions.get (peer, event.requestId) =
    some (eventWrite now event digest projectionJson row)
  others : ∀ k, k ≠ (peer, event.requestId) → s'.contributions.get k = s.contributions.get k
  logged : s'.events.rows = s.events.rows ++ [eventRow now peer event digest projectionJson]

section Events

variable {rt : Runtime} {s s' : ContributionStore} {now : Millis} {peer : String}
  {event : PeerContributionEvent} {digest : String} {projectionJson : Option Json}

theorem projectTerminal_ok {proxyCardId : Option Nat}
    (h : projectTerminal rt now event proxyCardId s = .ok s') :
    s'.contributions = s.contributions ∧ s'.events = s.events := by
  rw [projectTerminal] at h
  split at h
  · cases h
    exact ⟨rfl, rfl⟩
  obtain ⟨summary, -, h⟩ := bind_eq_ok.1 h
  obtain ⟨db, -, h⟩ := bind_eq_ok.1 h
  cases h
  exact ⟨rfl, rfl⟩

/-- A terminal event settles its proxy unless a summary that is an array gets to the card. -/
theorem exists_settleProxy_iff {cardId : Nat} {summary : Option Json} {db : Db} :
    (∃ db', settleProxy rt now event cardId summary db = .ok db') ↔
      ∀ items, summary = some (.arr items) →
        event.kind ≠ .completed ∨ db.kanbanBoard.has cardId = false := by
  unfold settleProxy
  constructor
  · rintro ⟨db', h⟩ items rfl
    by_cases hkind : event.kind = .completed
    · simp only [hkind] at h
      split at h
      · cases h
      · rename_i hcard
        exact .inr (by simpa using hcard)
    · exact .inl hkind
  · intro hitems
    split
    · exact ⟨_, rfl⟩
    · rename_i _ _ items hkind
      rcases hitems items rfl with hother | hcard
      · exact absurd hkind hother
      · simp [hcard]
    · exact ⟨_, rfl⟩
    · exact ⟨_, rfl⟩

theorem exists_projectTerminal_iff {proxyCardId : Option Nat} :
    (∃ s', projectTerminal rt now event proxyCardId s = .ok s') ↔
      s.readable event proxyCardId = true := by
  rw [projectTerminal, readable]
  cases hproxy : proxyCardId.filter fun id => id ≠ 0 ∧ event.kind.isTerminal with
  | none => simp
  | some cardId =>
    -- with its summary cut, the rest is up to the card
    have hcut : ∀ summary, cutSummary event.summary = .ok summary →
        ((∃ s' : ContributionStore, ((cutSummary event.summary).bind fun summary =>
            (settleProxy rt now event cardId summary s.db).bind fun db =>
            .ok (setNotes { s with db := db } now cardId (terminalNotes event summary))) =
            .ok s') ↔
          ∃ db, settleProxy rt now event cardId summary s.db = .ok db) := by
      intro summary hsummary
      rw [hsummary]
      constructor
      · rintro ⟨s', h⟩
        obtain ⟨summary', hsummary', h⟩ := bind_eq_ok.1 h
        cases hsummary'
        obtain ⟨db, hdb, -⟩ := bind_eq_ok.1 h
        exact ⟨db, hdb⟩
      · rintro ⟨db, hdb⟩
        exact ⟨_, bind_eq_ok.2 ⟨summary, rfl, bind_eq_ok.2 ⟨db, hdb, rfl⟩⟩⟩
    cases hsummary : event.summary with
    | none =>
      rw [hsummary] at hcut
      simp [hcut none rfl, exists_settleProxy_iff]
    | some summary =>
      rw [hsummary] at hcut
      cases summary with
      | null => simp [hcut none rfl, exists_settleProxy_iff]
      | str text => simp [hcut _ rfl, exists_settleProxy_iff]
      | arr items => simp [hcut _ rfl, exists_settleProxy_iff]
      | bool _ | num _ | obj _ => simp [cutSummary, Except.bind]

/-- The writes of an event that is new to its row. -/
theorem writeEvent_cases (rt : Runtime) (now : Millis) (digest : String)
    (projectionJson : Option Json) {row : ContributionRow}
    (hfound : s.contributions.get (peer, event.requestId) = some row)
    (hunsettled : row.state.isSettled = false)
    (hfresh : s.events.get (peer, event.eventId) = none) :
    (s.readable event row.proxyCardId = true ∧
      ∃ s', writeEvent rt now peer event digest projectionJson row s = .ok (.applied, s') ∧
        s'.contributions = s.contributions.modify (peer, event.requestId)
          (eventWrite now event digest projectionJson)
          (key_eventWrite now event digest projectionJson) ∧
        s'.events.rows = s.events.rows ++ [eventRow now peer event digest projectionJson]) ∨
    (s.readable event row.proxyCardId = false ∧
      ∃ message, writeEvent rt now peer event digest projectionJson row s = .error message) := by
  rw [writeEvent]
  rcases Table.cas_cases s.contributions (peer, event.requestId)
      (fun current => !current.state.isSettled && current.lastSequence = row.lastSequence)
      (eventWrite now event digest projectionJson)
      (key_eventWrite now event digest projectionJson) with ⟨hlost, -⟩ | ⟨_, -, -, hcas⟩
  · have hclash := hlost row hfound
    simp [hunsettled] at hclash
  simp only [hcas, if_true]
  obtain ⟨events, hinsert⟩ := Table.exists_insert_iff.2
    (⟨hfresh, fun _ _ => rfl⟩ : s.events.Fits (fun _ => false)
      (eventRow now peer event digest projectionJson))
  rw [hinsert]
  dsimp only
  -- the projection reads the board, which the two writes before it leave alone
  generalize hwritten : ({ s with
    contributions := s.contributions.modify (peer, event.requestId)
      (eventWrite now event digest projectionJson)
      (key_eventWrite now event digest projectionJson)
    events := events } : ContributionStore) = written
  have hreadable : written.readable event row.proxyCardId = s.readable event row.proxyCardId := by
    rw [← hwritten]
    rfl
  cases hprojected : projectTerminal rt now event row.proxyCardId written with
  | error message =>
    refine .inr ⟨?_, message, rfl⟩
    by_contra hread
    rw [Bool.not_eq_false, ← hreadable] at hread
    obtain ⟨s', hs'⟩ := exists_projectTerminal_iff.2 hread
    rw [hprojected] at hs'
    cases hs'
  | ok s' =>
    obtain ⟨hcontributions, hevents⟩ := projectTerminal_ok hprojected
    refine .inl ⟨?_, s', rfl, ?_, ?_⟩
    · rw [← hreadable]
      exact exists_projectTerminal_iff.1 ⟨s', hprojected⟩
    · rw [hcontributions, ← hwritten]
    · rw [hevents, ← hwritten]
      exact (Table.insert_eq_some_iff.1 hinsert).2.2

/-- The body of the transaction commits the writes of an event the ledger takes, returns without a
write, or throws. -/
theorem applyEventBody_cases (rt : Runtime) (s : ContributionStore) (now : Millis) (peer : String)
    (event : PeerContributionEvent) (digest : String) (projectionJson : Option Json) :
    (s.takes peer event = true ∧
      ∃ s' row, applyEventBody rt now peer event digest projectionJson s =
        .ok (.applied, s') ∧ Applies s now peer event digest projectionJson row s') ∨
    (s.takes peer event = false ∧
      ((∃ result, result ≠ .applied ∧
        applyEventBody rt now peer event digest projectionJson s = .ok (result, s)) ∨
      ∃ message, applyEventBody rt now peer event digest projectionJson s = .error message)) := by
  cases hfound : s.contributions.get (peer, event.requestId) with
  | none =>
    refine .inr ⟨by rw [takes, hfound], .inl ⟨.rejected, by decide, ?_⟩⟩
    rw [applyEventBody, hfound]
  | some row =>
    by_cases href : row.contributionRef = event.contributionRef
    swap
    · refine .inr ⟨by simp [takes, hfound, href], .inl ⟨.rejected, by decide, ?_⟩⟩
      simp [applyEventBody, hfound, href]
    by_cases hsettled : row.state.isSettled = true
    · refine .inr ⟨by simp [takes, hfound, hsettled], .inl ?_⟩
      by_cases hsame : row.terminalEventId = some event.eventId ∧
          row.terminalDigest = some digest
      · refine ⟨.duplicate, by decide, ?_⟩
        simp [applyEventBody, hfound, href, hsettled, hsame]
      · refine ⟨.conflict, by decide, ?_⟩
        simp only [applyEventBody, hfound, href, hsettled, if_neg hsame, ne_eq,
          not_true_eq_false, if_false, if_true]
    rw [Bool.not_eq_true] at hsettled
    cases hevent : s.events.get (peer, event.eventId) with
    | some existing =>
      refine .inr ⟨by simp [takes, hfound, hevent], .inl ?_⟩
      by_cases hsame : existing.requestId = event.requestId ∧
          existing.contributionRef = event.contributionRef ∧
          existing.sequence = event.sequence ∧ existing.payloadDigest = digest
      · refine ⟨.duplicate, by decide, ?_⟩
        simp [applyEventBody, hfound, href, hsettled, hevent, hsame]
      · refine ⟨.conflict, by decide, ?_⟩
        simp only [applyEventBody, hfound, href, hsettled, hevent, if_neg hsame, ne_eq,
          not_true_eq_false, if_false, Bool.false_eq_true]
    | none =>
      by_cases hlate : event.sequence ≤ row.lastSequence
      · refine .inr ⟨by simp [takes, hfound, hlate], .inl ⟨.conflict, by decide, ?_⟩⟩
        simp [applyEventBody, hfound, href, hsettled, hevent, hlate]
      have hbody : applyEventBody rt now peer event digest projectionJson s =
          writeEvent rt now peer event digest projectionJson row s := by
        simp [applyEventBody, hfound, href, hsettled, hevent, hlate]
      rw [not_le] at hlate
      rw [hbody]
      rcases writeEvent_cases rt now digest projectionJson hfound hsettled hevent with
        ⟨hread, s', hs', hcontributions, hevents⟩ | ⟨hread, message, hmessage⟩
      · refine .inl ⟨by simp [takes, hfound, href, hsettled, hevent, hlate, hread],
          s', row, hs', hfound, href, hsettled, hevent, hlate, ?_, fun k hk => ?_, hevents⟩
        · rw [hcontributions, Table.get_modify_same, hfound, Option.map_some]
        · rw [hcontributions, Table.get_modify_of_ne _ _ _ hk]
      · exact .inr ⟨by simp [takes, hfound, href, hsettled, hevent, hlate, hread],
          .inr ⟨message, hmessage⟩⟩

/-- An event that has the projection it needs is applied exactly when the ledger takes it, and
otherwise changes nothing. -/
theorem applyEvent_cases (rt : Runtime) (s : ContributionStore) (now : Millis) (peer : String)
    (event : PeerContributionEvent) (digest : String) (projectionJson : Option Json)
    (hprojection : event.kind.isTerminal = true → projectionJson.isSome = true) :
    (s.takes peer event = true ∧
      (s.applyEvent rt now peer event digest projectionJson).1 = .ok .applied ∧
      ∃ row, Applies s now peer event digest projectionJson row
        (s.applyEvent rt now peer event digest projectionJson).2) ∨
    (s.takes peer event = false ∧
      (s.applyEvent rt now peer event digest projectionJson).1 ≠ .ok .applied ∧
      (s.applyEvent rt now peer event digest projectionJson).2 = s) := by
  have hstart : ¬ (event.kind.isTerminal = true ∧ projectionJson.isNone = true) := by
    rintro ⟨hterminal, hnone⟩
    have hsome := hprojection hterminal
    rw [Option.isNone_iff_eq_none] at hnone
    rw [hnone] at hsome
    cases hsome
  rw [applyEvent, if_neg hstart]
  rcases applyEventBody_cases rt s now peer event digest projectionJson with
    ⟨htakes, s', row, hbody, happlies⟩ |
    ⟨htakes, ⟨result, hresult, hbody⟩ | ⟨message, hbody⟩⟩
  · rw [transaction_of_ok hbody]
    exact .inl ⟨htakes, rfl, row, happlies⟩
  · rw [transaction_of_ok hbody]
    exact .inr ⟨htakes, fun h => hresult (Except.ok.inj h), rfl⟩
  · rw [transaction_of_error hbody]
    exact .inr ⟨htakes, (by rintro ⟨⟩), rfl⟩

end Events

end ContributionStore

section Calls

open ContributionStore

variable {raw : Json} {event : PeerContributionEvent}

variable (rt : Runtime) (s : ContributionStore) (call : LedgerCall)

def appliedEvent : Option (String × PeerContributionEvent) :=
  match call with
  | .event now originPeer raw =>
    match (s.handleContributionEvent rt now originPeer raw).1,
        receivedEvent rt originPeer raw with
    | some (.ok .applied), some event => some (originPeer, event)
    | _, _ => none
  | _ => none

variable {rt s call}

theorem receivedEvent_some {peer : String}
    (h : receivedEvent rt peer raw = some event) : parseContributionEvent rt raw = .ok event := by
  rw [receivedEvent] at h
  split at h
  · cases h
  rename_i parsed hparsed
  split at h
  · cases h
    exact hparsed
  split at h
  · cases h
    exact hparsed
  · cases h

theorem handleContributionEvent_of_received {now : Millis} {peer : String}
    (h : receivedEvent rt peer raw = some event) :
    s.handleContributionEvent rt now peer raw =
      (some (s.applyEvent rt now peer event (contributionEventDigest rt event) event.projection).1,
        (s.applyEvent rt now peer event (contributionEventDigest rt event) event.projection).2) := by
  rw [handleContributionEvent, h]

theorem received_cases (s : ContributionStore) (now : Millis) {peer : String}
    (h : receivedEvent rt peer raw = some event) :
    (s.takes peer event = true ∧
      appliedEvent rt s (.event now peer raw) = some (peer, event) ∧
      ∃ row, Applies s now peer event (contributionEventDigest rt event) event.projection row
        (ledgerStep rt s (.event now peer raw))) ∨
    (s.takes peer event = false ∧ appliedEvent rt s (.event now peer raw) = none ∧
      ledgerStep rt s (.event now peer raw) = s) := by
  have hprojection := (parseContributionEvent_ok (receivedEvent_some h)).2
  rw [ledgerStep, appliedEvent, handleContributionEvent_of_received h, h]
  rcases applyEvent_cases rt s now peer event (contributionEventDigest rt event) event.projection
      (fun hterminal => (parseProjection_some hprojection).trans hterminal) with
    ⟨htakes, hresult, happlies⟩ | ⟨htakes, hresult, hsame⟩
  · rw [hresult]
    exact .inl ⟨htakes, rfl, happlies⟩
  · refine .inr ⟨htakes, ?_, hsame⟩
    split
    · rename_i happlied _
      exact absurd (Option.some.inj happlied) hresult
    · rfl

/-- A call applies the event the ledger takes, or decides. -/
theorem ledgerStep_cases (rt : Runtime) (s : ContributionStore) (call : LedgerCall) :
    (appliedEvent rt s call = none ∧ Decides s (ledgerStep rt s call)) ∨
    ∃ now peer raw event row, call = .event now peer raw ∧
      receivedEvent rt peer raw = some event ∧ s.takes peer event = true ∧
      appliedEvent rt s call = some (peer, event) ∧
      Applies s now peer event (contributionEventDigest rt event) event.projection row
        (ledgerStep rt s call) := by
  cases call with
  | event now peer raw =>
    cases hreceived : receivedEvent rt peer raw with
    | none =>
      have hdropped : s.handleContributionEvent rt now peer raw = (none, s) := by
        rw [handleContributionEvent, hreceived]
      rw [ledgerStep, appliedEvent, hdropped]
      exact .inl ⟨rfl, .refl s⟩
    | some event =>
      rcases received_cases s now hreceived with
        ⟨htakes, happlied, row, happlies⟩ | ⟨-, hnone, hsame⟩
      · exact .inr ⟨now, peer, raw, event, row, rfl, hreceived, htakes, happlied, happlies⟩
      · rw [hsame]
        exact .inl ⟨hnone, .refl s⟩
  | reserve => exact .inl ⟨rfl, decides_reserve⟩
  | reserveProxy =>
    exact .inl ⟨rfl, decides_transaction fun _ _ => decides_reserveProxyBody⟩
  | createCliProject =>
    exact .inl ⟨rfl, decides_transaction fun _ _ => decides_createCliProjectBody⟩
  | answer => exact .inl ⟨rfl, decides_recordAnswer rt⟩
  | attempts => exact .inl ⟨rfl, decides_recordAttempts⟩
  | breakdown => exact .inl ⟨rfl, decides_recordBreakdown⟩
  | adoptContributionRef => exact .inl ⟨rfl, decides_adoptContributionRef⟩
  | detachProxy => exact .inl ⟨rfl, decides_moveRow fun _ _ => ⟨rfl, rfl, .inl ⟨rfl, rfl⟩⟩⟩
  | transitionToAccepted => exact .inl ⟨rfl, decides_transitionToAccepted⟩
  | transitionToCompleted =>
    have hopen : ∀ state ∈ [ContributionState.accepted, .running], state.isOpen = true := by
      decide
    exact .inl ⟨rfl, decides_moveRow fun row hrow =>
      ⟨rfl, rfl, .inr (hopen row.state hrow)⟩⟩
  | transitionToNonStarted => exact .inl ⟨rfl, decides_transitionToNonStarted⟩
  | board => exact .inl ⟨rfl, .of_same rfl rfl⟩
  | _ => exact .inl ⟨rfl, decides_transitionState (by decide)⟩

end Calls

end Abtars
