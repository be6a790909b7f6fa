import Abtars.Peer.HelpStore

/-!
# A peer help request is admitted once

Calls of the help store in any order.  A row that is no longer pending is final, and a card is only
made with the move of a pending row to an accepted one.
-/

namespace Abtars

open Lib

/-! ## What a call makes of a row -/

/-- A row that is no longer pending stays as it is, and a pending one keeps its hash. -/
def HelpMoves (row row' : PeerHelpRow) : Prop :=
  row' = row ∨
    (row.state = .pending ∧ row'.state ≠ .pending ∧ row'.requestHash = row.requestHash)

def ResponseStored (row : PeerHelpRow) : Prop :=
  row.state.isDecided = true → row.responseJson.isSome = true

structure RowAfter (row row' : Option PeerHelpRow) : Prop where
  moved : ∀ r ∈ row, ∃ r' ∈ row', HelpMoves r r'
  stored : ∀ r' ∈ row', r' ∈ row ∨ ResponseStored r'

section Rows

variable {r r' : PeerHelpRow}

variable {row row' row'' : Option PeerHelpRow} {t : Table PeerHelpRow} {key : String × String}
  {f : PeerHelpRow → PeerHelpRow} (hf : ∀ r, Keyed.key (f r) = Keyed.key r)

theorem helpMoves_refl (r : PeerHelpRow) : HelpMoves r r := .inl rfl

theorem HelpMoves.trans {r'' : PeerHelpRow} (h : HelpMoves r r') (h' : HelpMoves r' r'') :
    HelpMoves r r'' := by
  rcases h with rfl | ⟨hpending, hmoved, hhash⟩
  · exact h'
  · rcases h' with rfl | ⟨hpending', -, -⟩
    · exact .inr ⟨hpending, hmoved, hhash⟩
    · exact absurd hpending' hmoved

theorem HelpMoves.hash (h : HelpMoves r r') : r'.requestHash = r.requestHash := by
  rcases h with rfl | ⟨-, -, hhash⟩
  · rfl
  · exact hhash

theorem HelpMoves.eq (h : HelpMoves r r') (hmoved : r.state ≠ .pending) : r' = r := by
  rcases h with hsame | ⟨hpending, -, -⟩
  · exact hsame
  · exact absurd hpending hmoved

theorem rowAfter_refl (row : Option PeerHelpRow) : RowAfter row row :=
  ⟨fun r hr => ⟨r, hr, helpMoves_refl r⟩, fun _ hr => .inl hr⟩

theorem RowAfter.trans (h : RowAfter row row') (h' : RowAfter row' row'') : RowAfter row row'' := by
  refine ⟨fun r hr => ?_, fun r'' hr'' => ?_⟩
  · obtain ⟨r', hr', hmoves⟩ := h.moved r hr
    obtain ⟨r'', hr'', hmoves'⟩ := h'.moved r' hr'
    exact ⟨r'', hr'', hmoves.trans hmoves'⟩
  · rcases h'.stored r'' hr'' with hr' | hstored
    · exact h.stored r'' hr'
    · exact .inr hstored

theorem rowAfter_modify (hrow : ∀ r, t.get key = some r → HelpMoves r (f r) ∧ ResponseStored (f r))
    (k : String × String) : RowAfter (t.get k) ((t.modify key f hf).get k) := by
  by_cases hk : k = key
  · subst hk
    rw [Table.get_modify_same]
    refine ⟨fun r hr => ⟨f r, by simp [Option.mem_def.1 hr], (hrow r hr).1⟩, fun r' hr' => ?_⟩
    obtain ⟨r, hr, rfl⟩ := Option.map_eq_some_iff.1 hr'
    exact .inr (hrow r hr).2
  · rw [Table.get_modify_of_ne _ _ _ hk]
    exact rowAfter_refl _

theorem rowAfter_cas {guard : PeerHelpRow → Bool}
    (hrow : ∀ r, guard r = true → HelpMoves r (f r) ∧ ResponseStored (f r))
    (k : String × String) : RowAfter (t.get k) ((t.cas key guard f hf).2.get k) := by
  rcases Table.cas_cases t key guard f hf with ⟨-, hlost⟩ | ⟨r, hget, hguard, hwon⟩
  · rw [hlost]
    exact rowAfter_refl _
  rw [hwon]
  refine rowAfter_modify hf (fun r' hr' => ?_) k
  obtain rfl : r = r' := Option.some.inj (hget.symm.trans hr')
  exact hrow r hguard

theorem rowAfter_insert (hpending : r.state = .pending) (k : String × String) :
    RowAfter (t.get k) ((t.insertOrIgnore (fun _ => false) r).get k) := by
  refine ⟨fun r' hr' => ⟨r', Table.get_insertOrIgnore_of_some hr', helpMoves_refl r'⟩,
    fun r' hr' => ?_⟩
  rcases Table.mem_of_mem_insertOrIgnore (Table.mem_of_get hr') with hmem | rfl
  · exact .inl (Table.get_eq_some_iff.2 ⟨hmem, Table.key_of_get hr'⟩)
  · exact .inr fun hdecided => by simp [hpending, HelpRowState.isDecided] at hdecided

end Rows

theorem acceptedRow_moves {row : PeerHelpRow} (hpending : row.state = .pending) (now : Millis)
    (contributionRef : String) (link : HelpLink) (response : PeerHelpResponse) :
    HelpMoves row (acceptedRow now contributionRef link response row) ∧
      ResponseStored (acceptedRow now contributionRef link response row) :=
  ⟨.inr ⟨hpending, by simp [acceptedRow], rfl⟩, fun _ => rfl⟩

variable (s : PeerHelpStore) (call : HelpCall)

/-- A call moves a row that is pending, and no other. -/
theorem helpStep_row (k : String × String) :
    RowAfter (s.requests.get k) ((helpStep s call).requests.get k) := by
  cases call with
  | reserve now originPeer requestId requestHash =>
    rw [helpStep, PeerHelpStore.reserve]
    split
    · split
      · exact rowAfter_refl _
      split
      · exact rowAfter_refl _
      · exact rowAfter_refl _
    · exact rowAfter_insert rfl k
  | acceptGeneric admission now generated r card response =>
    rw [helpStep]
    rcases PeerHelpStore.acceptGeneric_cases s admission now generated r card response with
      ⟨e, hthrown⟩ | ⟨id, s', hbody, hwritten⟩
    · rw [hthrown]
      exact rowAfter_refl _
    · obtain ⟨row, _, _, hget, hpending, -, -, -, -, -, hrequests⟩ :=
        PeerHelpStore.acceptGenericBody_ok hbody
      rw [hwritten, hrequests]
      refine rowAfter_modify _ (fun row' hrow' => ?_) k
      obtain rfl : row = row' := Option.some.inj (hget.symm.trans hrow')
      exact acceptedRow_moves hpending _ _ _ _
  | acceptPi now generated r runId response =>
    rw [helpStep]
    rcases PeerHelpStore.acceptPi_cases s now generated r runId response with
      ⟨e, hthrown⟩ | ⟨row, hget, hpending, -, hwritten⟩
    · rw [hthrown]
      exact rowAfter_refl _
    · rw [hwritten]
      dsimp only
      refine rowAfter_modify _ (fun row' hrow' => ?_) k
      obtain rfl : row = row' := Option.some.inj (hget.symm.trans hrow')
      exact acceptedRow_moves hpending _ _ _ _
  | completeDecision now originPeer requestId decision response =>
    rw [helpStep, PeerHelpStore.completeDecision]
    dsimp only
    refine rowAfter_cas _ (fun row hguard => ?_) k
    refine ⟨.inr ⟨by simpa using hguard, ?_, rfl⟩, fun _ => rfl⟩
    cases decision <;> simp [HelpDecision.rowState]
  | markUnknown now originPeer requestId =>
    rw [helpStep, PeerHelpStore.markUnknown]
    dsimp only
    refine rowAfter_cas _ (fun row hguard => ?_) k
    refine ⟨.inr ⟨by simpa using hguard, by simp, rfl⟩, fun hdecided => ?_⟩
    simp [HelpRowState.isDecided] at hdecided

/-! ## Cards -/

def openPlace (row : Option PeerHelpRow) : Nat := if row.all (·.state = .pending) then 1 else 0

theorem openPlace_le {row row' : Option PeerHelpRow} (h : RowAfter row row') :
    openPlace row' ≤ openPlace row := by
  cases row with
  | none =>
    rw [openPlace, openPlace, Option.all_none, if_pos rfl]
    split <;> omega
  | some r =>
    obtain ⟨r', hr', hmoves⟩ := h.moved r rfl
    rw [Option.mem_def.1 hr', openPlace, openPlace, Option.all_some, Option.all_some]
    rcases hmoves with rfl | ⟨hpending, hmoved, -⟩
    · exact le_rfl
    · simp [hpending, hmoved]

structure CardsAfter (s s' : PeerHelpStore) : Prop where
  columns : ∀ id, ∀ columns ∈ s.helpColumns.get id, s'.helpColumns.get id = some columns
  noted : ∀ card ∈ s'.db.kanbanBoard,
    card ∈ s.db.kanbanBoard ∨ (s'.helpColumns.get card.id).isSome = true

theorem cardsAfter_refl : CardsAfter s s :=
  ⟨fun _ _ hget => hget, fun _ hcard => .inl hcard⟩

theorem CardsAfter.trans {s s' s'' : PeerHelpStore} (h : CardsAfter s s')
    (h' : CardsAfter s' s'') : CardsAfter s s'' := by
  refine ⟨fun id columns hget => h'.columns id columns (h.columns id columns hget),
    fun card hcard => ?_⟩
  rcases h'.noted card hcard with hold | hnoted
  · rcases h.noted card hold with holder | hnoted
    · exact .inl holder
    · obtain ⟨columns, hget⟩ := Option.isSome_iff_exists.1 hnoted
      rw [h'.columns card.id columns hget]
      exact .inr rfl
  · exact .inr hnoted

theorem requestCards_insert {s s' : PeerHelpStore} {card : KanbanCard} {columns : HelpColumns}
    (hboard : s.db.kanbanBoard.insert (fun _ => false) card = some s'.db.kanbanBoard)
    (hcolumns : s.helpColumns.insert (fun _ => false) columns = some s'.helpColumns)
    (hid : columns.cardId = card.id) (originPeer requestId : String) :
    (requestCards s' originPeer requestId).length =
      (requestCards s originPeer requestId).length +
        if columns.notes.originPeer = originPeer ∧ columns.notes.requestId = requestId then 1
        else 0 := by
  obtain ⟨hfree, -, hrows⟩ := Table.insert_eq_some_iff.1 hboard
  have hget := Table.get_of_insert hcolumns
  have hnew : s'.helpColumns.get card.id = some columns := by
    rw [hget, key_helpColumns, if_pos hid.symm]
  -- the columns of the cards that were there are not the inserted ones
  have hold : ∀ old ∈ s.db.kanbanBoard.rows,
      s'.helpColumns.get old.id = s.helpColumns.get old.id := by
    intro old hmem
    rw [hget, if_neg]
    intro hsame
    exact Table.get_eq_none_iff.1 hfree old hmem (hsame.trans hid)
  rw [requestCards, requestCards, Table.select, Table.select, hrows, List.filter_append,
    List.length_append]
  congr 1
  · refine congrArg List.length (List.filter_congr fun old hmem => ?_)
    rw [hold old hmem]
  rw [List.filter_singleton, hnew, Option.any_some]
  by_cases hkey : columns.notes.originPeer = originPeer ∧ columns.notes.requestId = requestId
  · simp [hkey]
  · simp [hkey]

/-- A call makes no card, or one for a pending row that it accepts. -/
theorem helpStep_board :
    ((helpStep s call).db.kanbanBoard = s.db.kanbanBoard ∧
      (helpStep s call).helpColumns = s.helpColumns) ∨
    ∃ row row' card columns,
      s.requests.get (columns.notes.originPeer, columns.notes.requestId) = some row ∧
      row.state = .pending ∧
      (helpStep s call).requests.get (columns.notes.originPeer, columns.notes.requestId) =
        some row' ∧
      row'.state = .accepted ∧ columns.cardId = card.id ∧
      s.db.kanbanBoard.insert (fun _ => false) card = some (helpStep s call).db.kanbanBoard ∧
      s.helpColumns.insert (fun _ => false) columns = some (helpStep s call).helpColumns := by
  cases call with
  | reserve now originPeer requestId requestHash =>
    refine .inl ?_
    rw [helpStep, PeerHelpStore.reserve]
    split
    · split
      · exact ⟨rfl, rfl⟩
      split
      · exact ⟨rfl, rfl⟩
      · exact ⟨rfl, rfl⟩
    · exact ⟨rfl, rfl⟩
  | acceptGeneric admission now generated r card response =>
    rw [helpStep]
    rcases PeerHelpStore.acceptGeneric_cases s admission now generated r card response with
      ⟨e, hthrown⟩ | ⟨id, s', hbody, hwritten⟩
    · rw [hthrown]
      exact .inl ⟨rfl, rfl⟩
    · obtain ⟨row, board, columns, hget, hpending, -, hboard, hcolumns, rfl, rfl, hrequests⟩ :=
        PeerHelpStore.acceptGenericBody_ok hbody
      rw [hwritten]
      refine .inr ⟨row, acceptedRow now (response.contributionRef.getD generated) (.card id)
        response row, _, _, hget, hpending, ?_, rfl, rfl, hboard, hcolumns⟩
      show s'.requests.get r.key = _
      rw [hrequests, Table.get_modify_same, hget, Option.map_some]
  | acceptPi now generated r runId response =>
    refine .inl ?_
    rw [helpStep]
    rcases PeerHelpStore.acceptPi_cases s now generated r runId response with
      ⟨e, hthrown⟩ | ⟨row, -, -, -, hwritten⟩
    · rw [hthrown]
      exact ⟨rfl, rfl⟩
    · rw [hwritten]
      exact ⟨rfl, rfl⟩
  | completeDecision now originPeer requestId decision response => exact .inl ⟨rfl, rfl⟩
  | markUnknown now originPeer requestId => exact .inl ⟨rfl, rfl⟩

theorem helpStep_cardsAfter : CardsAfter s (helpStep s call) := by
  rcases helpStep_board s call with ⟨hboard, hcolumns⟩ |
    ⟨_, _, card, columns, -, -, -, -, hid, hboard, hcolumns⟩
  · refine ⟨fun id columns hget => ?_, fun card hcard => ?_⟩
    · rw [hcolumns]
      exact hget
    · rw [hboard] at hcard
      exact .inl hcard
  · refine ⟨fun id old hold => Table.get_insert_of_some hcolumns hold, fun new hnew => ?_⟩
    rcases (Table.mem_insert hboard).1 hnew with hmem | rfl
    · exact .inl hmem
    have hget := Table.get_insert_new hcolumns
    rw [key_helpColumns, hid] at hget
    rw [hget]
    exact .inr rfl

theorem helpStep_cards (originPeer requestId : String) :
    (requestCards (helpStep s call) originPeer requestId).length +
        openPlace ((helpStep s call).requests.get (originPeer, requestId)) ≤
      (requestCards s originPeer requestId).length +
        openPlace (s.requests.get (originPeer, requestId)) := by
  have hplace := openPlace_le (helpStep_row s call (originPeer, requestId))
  -- only an acceptance adds a card, and it closes the place of its own request
  rcases helpStep_board s call with ⟨hboard, hcolumns⟩ |
    ⟨row, row', card, columns, hget, hpending, hget', haccepted, hid, hboard, hcolumns⟩
  · have hsame : requestCards (helpStep s call) originPeer requestId =
        requestCards s originPeer requestId := by
      rw [requestCards, requestCards, hboard, hcolumns]
    rw [hsame]
    omega
  · rw [requestCards_insert hboard hcolumns hid]
    by_cases hkey : columns.notes.originPeer = originPeer ∧ columns.notes.requestId = requestId
    · obtain ⟨rfl, rfl⟩ := hkey
      rw [hget, hget', openPlace, openPlace]
      simp [hpending, haccepted]
    · rw [if_neg hkey]
      omega

section Run

variable (s : PeerHelpStore) (calls : List HelpCall) (originPeer requestId : String)

theorem helpRun_row (k : String × String) :
    RowAfter (s.requests.get k) ((helpRun s calls).requests.get k) :=
  relation_of_step (I := fun _ => True)
    (R := fun a b : PeerHelpStore => RowAfter (a.requests.get k) (b.requests.get k))
    (fun _ _ => rowAfter_refl _) (fun _ _ _ h h' => h.trans h') (fun _ _ _ => trivial)
    (fun a call _ => helpStep_row a call k) calls s trivial

theorem helpRun_cardsAfter : CardsAfter s (helpRun s calls) :=
  relation_of_step (I := fun _ => True) (fun a _ => cardsAfter_refl a)
    (fun _ _ _ h h' => h.trans h') (fun _ _ _ => trivial)
    (fun a call _ => helpStep_cardsAfter a call) calls s trivial

theorem helpRun_cards :
    (requestCards (helpRun s calls) originPeer requestId).length +
        openPlace ((helpRun s calls).requests.get (originPeer, requestId)) ≤
      (requestCards s originPeer requestId).length +
        openPlace (s.requests.get (originPeer, requestId)) :=
  relation_of_step (I := fun _ => True)
    (R := fun a b : PeerHelpStore => (requestCards b originPeer requestId).length +
        openPlace (b.requests.get (originPeer, requestId)) ≤
      (requestCards a originPeer requestId).length +
        openPlace (a.requests.get (originPeer, requestId)))
    (fun _ _ => le_rfl) (fun _ _ _ h h' => h'.trans h) (fun _ _ _ => trivial)
    (fun a call _ => helpStep_cards a call originPeer requestId) calls s trivial

end Run

structure RequestKept (s s' : PeerHelpStore) (originPeer requestId : String) : Prop where
  oneCard : (requestCards s' originPeer requestId).length ≤
    (requestCards s originPeer requestId).length + 1
  /-- Where the row is final, no card is made for it any more. -/
  noCard : ∀ row, s.requests.get (originPeer, requestId) = some row → row.state ≠ .pending →
    (requestCards s' originPeer requestId).length ≤ (requestCards s originPeer requestId).length
  /-- Every card that is made is noted with a request. -/
  noted : ∀ card ∈ s'.db.kanbanBoard,
    card ∈ s.db.kanbanBoard ∨ (s'.helpColumns.get card.id).isSome = true
  decision : ∀ row, s.requests.get (originPeer, requestId) = some row →
    row.state.isDecided = true → s'.requests.get (originPeer, requestId) = some row
  response : ∀ row, s'.requests.get (originPeer, requestId) = some row →
    row.state.isDecided = true →
    s.requests.get (originPeer, requestId) = some row ∨ row.responseJson.isSome = true
  replay : ∀ row now, s.requests.get (originPeer, requestId) = some row →
    row.state.isDecided = true →
    s'.reserve now originPeer requestId row.requestHash =
      (.replay row.responseJson row.contributionRef, s')
  conflict : ∀ row now hash, s.requests.get (originPeer, requestId) = some row →
    hash ≠ row.requestHash → s'.reserve now originPeer requestId hash = (.conflict, s')
  /-- Nor is a request accepted under another hash. -/
  refusal : ∀ row hash, s.requests.get (originPeer, requestId) = some row →
    hash ≠ row.requestHash →
    (∀ admission now generated card response, ∃ e,
      s'.acceptGeneric admission now generated ⟨originPeer, requestId, hash⟩ card response =
        (.error e, s')) ∧
    ∀ now generated runId response, ∃ e,
      s'.acceptPi now generated ⟨originPeer, requestId, hash⟩ runId response = (.error e, s')

theorem ne_pending_of_decided {state : HelpRowState} (h : state.isDecided = true) :
    state ≠ .pending := by
  rintro rfl
  simp [HelpRowState.isDecided] at h

/-- Over any calls a request gets one card at most, and a decision on it stays with its
response. -/
theorem admitted_once (s : PeerHelpStore) (calls : List HelpCall) (originPeer requestId : String) :
    RequestKept s (helpRun s calls) originPeer requestId := by
  have hrow := helpRun_row s calls (originPeer, requestId)
  have hcards := helpRun_cards s calls originPeer requestId
  have hkept : ∀ row, s.requests.get (originPeer, requestId) = some row →
      row.state ≠ .pending → (helpRun s calls).requests.get (originPeer, requestId) = some row := by
    intro row hget hmoved
    obtain ⟨row', hget', hmoves⟩ := hrow.moved row hget
    obtain rfl := hmoves.eq hmoved
    exact hget'
  refine
    { oneCard := ?_
      noCard := fun row hget hmoved => ?_
      noted := (helpRun_cardsAfter s calls).noted
      decision := fun row hget hdecided => hkept row hget (ne_pending_of_decided hdecided)
      response := fun row hget hdecided => ?_
      replay := fun row now hget hdecided => ?_
      conflict := fun row now hash hget hne => ?_
      refusal := fun row hash hget hne => ?_ }
  · have hplace : openPlace (s.requests.get (originPeer, requestId)) ≤ 1 := by
      rw [openPlace]
      split <;> omega
    omega
  · have hclosed : openPlace (s.requests.get (originPeer, requestId)) = 0 := by
      simp [openPlace, hget, hmoved]
    omega
  · exact (hrow.stored row hget).imp id fun hstored => hstored hdecided
  · rw [PeerHelpStore.reserve, hkept row hget (ne_pending_of_decided hdecided)]
    simp [hdecided]
  · obtain ⟨row', hget', hmoves⟩ := hrow.moved row hget
    rw [PeerHelpStore.reserve, Option.mem_def.1 hget']
    simp [hmoves.hash, hne.symm]
  · obtain ⟨row', hget', hmoves⟩ := hrow.moved row hget
    have hother : hash ≠ row'.requestHash := by
      rw [hmoves.hash]
      exact hne
    exact ⟨fun admission now generated card response =>
        PeerHelpStore.acceptGeneric_of_hash_ne hget' hother _ _ _ _ _,
      fun now generated runId response =>
        PeerHelpStore.acceptPi_of_hash_ne hget' hother _ _ _ _⟩

end Abtars
