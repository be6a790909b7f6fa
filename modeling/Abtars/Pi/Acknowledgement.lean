import Abtars.Pi.Delivery

/-!
# Acknowledge only what was reduced

Over every run of the two sides and the network between them, an event the owner has
marked acknowledged is one the origin has reduced.
-/

namespace Abtars

open Lib

variable {outbox : Outbox} {event : RemotePiEvent} {runId : String} {row : OutboxRow}

variable {config : RemotePiConfig}

def Outbox.Stores (outbox : Outbox) (event : RemotePiEvent) : Prop :=
  ∃ row ∈ outbox, row.toRemotePiEvent = event

structure RemotePiSystem.Safe (system : RemotePiSystem) : Prop where
  numbered : ∀ row ∈ system.outbox, 1 ≤ row.sequence
  pushes : ∀ event ∈ system.pushes, system.outbox.Stores event
  pages : ∀ page ∈ system.pages, ∀ event ∈ page.events,
    system.outbox.Stores event ∧ event.runId = page.runId
  pending : ∀ catchUp ∈ system.catchUps, ∀ event ∈ catchUp.pending,
    system.outbox.Stores event ∧ event.runId = catchUp.runId
  reduced : ∀ identity ∈ system.origin.events, ∃ event,
    system.outbox.Stores event ∧ event.identity = identity
  covered : ∀ runId sequence, 1 ≤ sequence → sequence ≤ system.origin.latestSequence runId →
    (system.origin.events.get (runId, sequence)).isSome = true
  acks : ∀ ack ∈ system.acks, ack.2 ≤ system.origin.latestSequence ack.1
  cursors : ∀ catchUp ∈ system.catchUps, 0 < catchUp.fetched →
    catchUp.cursor ≤ system.origin.latestSequence catchUp.runId
  acknowledged : ∀ row ∈ system.outbox, row.acknowledgedAt ≠ none →
    row.sequence ≤ system.origin.latestSequence row.runId

theorem safe_empty : RemotePiSystem.empty.Safe where
  numbered row hrow := absurd hrow (Table.not_mem_empty row)
  pushes event hevent := absurd hevent List.not_mem_nil
  pages page hpage := absurd hpage List.not_mem_nil
  pending catchUp hcatchUp := absurd hcatchUp (Table.not_mem_empty catchUp)
  reduced identity hidentity := absurd hidentity (Table.not_mem_empty identity)
  covered runId sequence hpos hle := by
    have hzero : RemotePiSystem.empty.origin.latestSequence runId = 0 := rfl
    omega
  acks ack hack := absurd hack List.not_mem_nil
  cursors catchUp hcatchUp := absurd hcatchUp (Table.not_mem_empty catchUp)
  acknowledged row hrow := absurd hrow (Table.not_mem_empty row)

/-! ## The owner moves -/

variable {system : RemotePiSystem}

theorem RemotePiSystem.Safe.of_outbox (h : system.Safe) (outbox : Outbox)
    (hstores : ∀ event, system.outbox.Stores event → outbox.Stores event)
    (hnumbered : ∀ row ∈ outbox, 1 ≤ row.sequence)
    (hacknowledged : ∀ row ∈ outbox, row.acknowledgedAt ≠ none →
      row.sequence ≤ system.origin.latestSequence row.runId) :
    { system with outbox }.Safe where
  numbered := hnumbered
  pushes event hevent := hstores event (h.pushes event hevent)
  pages page hpage event hevent :=
    ⟨hstores event (h.pages page hpage event hevent).1, (h.pages page hpage event hevent).2⟩
  pending catchUp hcatchUp event hevent :=
    ⟨hstores event (h.pending catchUp hcatchUp event hevent).1,
      (h.pending catchUp hcatchUp event hevent).2⟩
  reduced identity hidentity := by
    obtain ⟨event, hevent, heq⟩ := h.reduced identity hidentity
    exact ⟨event, hstores event hevent, heq⟩
  covered := h.covered
  acks := h.acks
  cursors := h.cursors
  acknowledged := hacknowledged

theorem RemotePiSystem.Safe.produce (h : system.Safe) (call : ProducerCall) :
    { system with outbox := producerStep config.digest system.outbox call }.Safe := by
  have hkept := producerStep_keeps config.digest
    (I := fun outbox => { system with outbox }.Safe) (fun draft outbox _ houtbox => ?_)
    system.outbox call h
  · exact hkept
  · rcases produce_cases config.digest draft outbox with heq | ⟨appended, hrows⟩
    · rw [heq]
      exact houtbox
    have hmem : ∀ row, row ∈ (Abtars.produce config.digest draft outbox).2 ↔
        row ∈ outbox ∨ row = appended.row (getMaxSequence outbox appended.runId + 1) := by
      intro row
      rw [Table.mem_def, hrows, List.mem_append, List.mem_singleton, ← Table.mem_def]
    refine houtbox.of_outbox (Abtars.produce config.digest draft outbox).2 ?_ ?_ ?_
    · rintro event ⟨row, hrow, rfl⟩
      exact ⟨row, (hmem row).2 (.inl hrow), rfl⟩
    · intro row hrow
      rcases (hmem row).1 hrow with hold | rfl
      · exact houtbox.numbered row hold
      · exact Nat.le_add_left 1 _
    intro row hrow hmarked
    rcases (hmem row).1 hrow with hold | rfl
    · exact houtbox.acknowledged row hold hmarked
    · exact absurd rfl hmarked

theorem RemotePiSystem.Safe.acknowledge (h : system.Safe) (now : Int) {runId : String}
    {sequence : Nat} (hack : sequence ≤ system.origin.latestSequence runId) :
    { system with outbox := acknowledgeEvents now runId sequence system.outbox }.Safe := by
  refine h.of_outbox _ ?_ ?_ ?_
  · rintro event ⟨row, hrow, rfl⟩
    refine ⟨_, Table.mem_updateWhere.2 ⟨row, hrow, rfl⟩, ?_⟩
    split <;> rfl
  · intro row hrow
    obtain ⟨stored, hstored, rfl⟩ := Table.mem_updateWhere.1 hrow
    have hpos := h.numbered stored hstored
    split
    · exact hpos
    · exact hpos
  · intro row hrow hmarked
    obtain ⟨stored, hstored, rfl⟩ := Table.mem_updateWhere.1 hrow
    by_cases hselected : stored.runId = runId ∧ (stored.sequence : Int) ≤ sequence ∧
        stored.acknowledgedAt = none
    · rw [if_pos (by simpa using hselected)]
      obtain ⟨hrun, hle, -⟩ := hselected
      change stored.sequence ≤ system.origin.latestSequence stored.runId
      rw [hrun]
      omega
    · rw [if_neg (by simpa using hselected)] at hmarked ⊢
      exact h.acknowledged stored hstored hmarked

/-! ## The origin moves -/

structure ReducesStored (outbox : Outbox) (origin reduced : OriginStore) : Prop where
  latest : ∀ runId, origin.latestSequence runId ≤ reduced.latestSequence runId
  identities : ∀ identity ∈ reduced.events, identity ∈ origin.events ∨
    ∃ event, outbox.Stores event ∧ event.identity = identity
  kept : ∀ key, (origin.events.get key).isSome = true → (reduced.events.get key).isSome = true
  fresh : ∀ runId sequence, origin.latestSequence runId < sequence →
    sequence ≤ reduced.latestSequence runId →
      (reduced.events.get (runId, sequence)).isSome = true

theorem reducesStored_refl (outbox : Outbox) (origin : OriginStore) :
    ReducesStored outbox origin origin where
  latest _ := le_rfl
  identities _ hidentity := .inl hidentity
  kept _ hsome := hsome
  fresh _ _ hlt hle := absurd hle (not_le_of_gt hlt)

theorem reducesStored_reduce (config : RemotePiConfig) (hevent : outbox.Stores event)
    (origin : OriginStore) : ReducesStored outbox origin (origin.reduce config.digest event).2 := by
  rcases reduce_spec config.digest event origin with
    ⟨outcome, -, heq⟩ | ⟨projection, committed, -, -, hcommitted, heq⟩
  · rw [heq]
    exact reducesStored_refl outbox origin
  · have hlatest := latestSequence_reduce config.digest event origin
    rw [heq] at hlatest ⊢
    refine ⟨hlatest, fun identity hidentity => ?_, fun key hsome => ?_, ?_⟩
    · rcases (hcommitted.mem_events identity).1 hidentity with hold | rfl
      · exact .inl hold
      · exact .inr ⟨event, hevent, rfl⟩
    · rw [hcommitted.get_events]
      split
      · rfl
      · exact hsome
    intro runId sequence hlt hle
    rw [hcommitted.latestSequence] at hle
    by_cases hrun : runId = event.runId
    · rw [if_pos hrun] at hle
      have hnext := hcommitted.sequence_eq
      rw [← hrun] at hnext
      have hsequence : sequence = event.sequence := by omega
      rw [hcommitted.get_events, hrun, hsequence, if_pos rfl]
      rfl
    · rw [if_neg hrun] at hle
      exact absurd hle (not_le_of_gt hlt)

theorem latestSequence_of_reduced {origin reduced : OriginStore}
    (h : origin.reduce config.digest event = (.reduced, reduced)) :
    reduced.latestSequence event.runId = event.sequence := by
  rcases reduce_spec config.digest event origin with
    ⟨outcome, hturned, heq⟩ | ⟨projection, committed, -, -, hcommitted, heq⟩
  · rw [heq] at h
    exact absurd (Prod.mk.inj h).1 hturned
  · rw [heq] at h
    rw [← (Prod.mk.inj h).2, hcommitted.latestSequence, if_pos rfl]

theorem RemotePiSystem.Safe.of_origin {reduced : OriginStore} (h : system.Safe)
    (hreduces : ReducesStored system.outbox system.origin reduced) :
    { system with origin := reduced }.Safe where
  numbered := h.numbered
  pushes := h.pushes
  pages := h.pages
  pending := h.pending
  reduced identity hidentity := by
    rcases hreduces.identities identity hidentity with hold | hnew
    · exact h.reduced identity hold
    · exact hnew
  covered runId sequence hpos hle := by
    rcases Nat.lt_or_ge (system.origin.latestSequence runId) sequence with hlt | hge
    · exact hreduces.fresh runId sequence hlt hle
    · exact hreduces.kept _ (h.covered runId sequence hpos hge)
  acks ack hack := (h.acks ack hack).trans (hreduces.latest _)
  cursors catchUp hcatchUp hfetched :=
    (h.cursors catchUp hcatchUp hfetched).trans (hreduces.latest _)
  acknowledged row hrow hmarked := (h.acknowledged row hrow hmarked).trans (hreduces.latest _)

theorem reducesStored_put {outbox : Outbox} {origin : OriginStore} {runId : String}
    {stored projection : OriginProjectionRow} (hget : origin.projections.get runId = some stored)
    (hrun : projection.runId = stored.runId)
    (hlatest : projection.latestSequence = stored.latestSequence) :
    ReducesStored outbox origin
      { origin with projections := origin.projections.put projection } := by
  have hkey : stored.runId = runId := Table.key_of_get hget
  have hsame : ∀ other, ({ origin with
      projections := origin.projections.put projection } : OriginStore).latestSequence other =
        origin.latestSequence other := by
    intro other
    rw [OriginStore.latestSequence, Table.get_put, OriginStore.latestSequence]
    by_cases hother : other = Keyed.key projection
    · have hother' : other = runId := hother.trans (hrun.trans hkey)
      rw [if_pos hother, hother', hget, Option.map_some, Option.map_some, hlatest]
    · rw [if_neg hother]
  refine ⟨fun other => (hsame other).ge, fun _ hidentity => .inl hidentity,
    fun _ hsome => hsome, fun other sequence hlt hle => ?_⟩
  rw [hsame] at hle
  exact absurd hle (not_le_of_gt hlt)

theorem reducesStored_cursor (outbox : Outbox) (origin : OriginStore) (runId : String)
    (sequence : Nat) : ReducesStored outbox origin (origin.acknowledgeCursor runId sequence) := by
  rw [OriginStore.acknowledgeCursor]
  cases hget : origin.projections.get runId with
  | none => exact reducesStored_refl outbox origin
  | some projection =>
    simp only []
    split_ifs
    · exact reducesStored_refl outbox origin
    · exact reducesStored_refl outbox origin
    · exact reducesStored_put hget rfl rfl

theorem reducesStored_outcome (outbox : Outbox) (origin : OriginStore) (runId : String)
    (outcome : LastCommandOutcome) :
    ReducesStored outbox origin (origin.recordCommandOutcome runId outcome) := by
  rw [OriginStore.recordCommandOutcome]
  cases hget : origin.projections.get runId with
  | none => exact reducesStored_refl outbox origin
  | some projection => exact reducesStored_put hget rfl rfl

/-- A handled push reduces at most the event, and where it succeeds the sequence it answers
with is within what the origin has reduced. -/
theorem handlePush_spec (config : RemotePiConfig) (hevent : outbox.Stores event)
    (authorized : Bool) (origin : OriginStore) :
    ReducesStored outbox origin (handlePushLifecycleEvent config authorized event origin).2 ∧
      ∀ runId sequence duplicate,
        (handlePushLifecycleEvent config authorized event origin).1 =
          .success runId sequence duplicate →
        sequence ≤ (handlePushLifecycleEvent config authorized event origin).2.latestSequence
          runId := by
  have hrefl := reducesStored_refl outbox origin
  rw [handlePushLifecycleEvent]
  cases validateEvent config.digest event with
  | some message => exact ⟨hrefl, by simp⟩
  | none =>
    split_ifs with hpeer hauthorized hsize hstale hconflict
    · exact ⟨hrefl, by simp⟩
    · exact ⟨hrefl, by simp⟩
    · exact ⟨hrefl, by simp⟩
    · refine ⟨hrefl, fun runId sequence duplicate hsuccess => ?_⟩
      obtain ⟨rfl, rfl, -⟩ := PushResult.success.inj hsuccess
      exact hstale
    · have hreduces := reducesStored_reduce config hevent origin
      cases hreduce : origin.reduce config.digest event with
      | mk outcome after =>
        rw [hreduce] at hreduces
        cases outcome with
        | reduced =>
          refine ⟨hreduces, fun runId sequence duplicate hsuccess => ?_⟩
          obtain ⟨rfl, rfl, -⟩ := PushResult.success.inj hsuccess
          exact (latestSequence_of_reduced hreduce).ge
        | unchanged => exact ⟨hreduces, by simp⟩
        | threw => exact ⟨hreduces, by simp⟩
    · exact ⟨hrefl, by simp⟩

theorem handleInbound_spec
    (hevent : outbox.Stores event) (localOutbox : Outbox) (origin : OriginStore) :
    ReducesStored outbox origin (handleInboundEvent config localOutbox event origin).2 := by
  have hrefl := reducesStored_refl outbox origin
  rw [handleInboundEvent]
  split_ifs
  · exact hrefl
  · cases localOutbox.get (event.runId, event.sequence) with
    | some existing => exact hrefl
    | none =>
      have hreduces := reducesStored_reduce config hevent origin
      cases hreduce : origin.reduce config.digest event with
      | mk outcome after =>
        rw [hreduce] at hreduces
        cases outcome <;> exact hreduces
  · exact hrefl

/-! ## The network moves -/

theorem mem_getEventsAfter {afterSequence limit : Nat}
    (h : row ∈ getEventsAfter runId afterSequence limit outbox) :
    row ∈ outbox ∧ row.runId = runId := by
  have hsorted := List.mem_of_mem_take h
  rw [List.mem_insertionSort, Table.mem_select, decide_eq_true_eq] at hsorted
  exact ⟨hsorted.1, hsorted.2.1⟩

theorem mem_unacknowledgedEvents :
    row ∈ unacknowledgedEvents runId outbox ↔
      row ∈ outbox ∧ row.runId = runId ∧ row.acknowledgedAt = none := by
  rw [unacknowledgedEvents, List.mem_insertionSort, Table.mem_select, decide_eq_true_eq]

theorem unacknowledgedEvents_sorted (runId : String) (outbox : Outbox) :
    (unacknowledgedEvents runId outbox).Pairwise fun row other =>
      row.sequence ≤ other.sequence := by
  exact List.pairwise_insertionSort _ _

theorem offered_or_full (hrow : row ∈ outbox)
    (hunmarked : row.acknowledgedAt = none) (limit : Nat) :
    row ∈ getUnacknowledgedEvents row.runId limit outbox ∨
      (getUnacknowledgedEvents row.runId limit outbox).length = limit ∧
        ∀ earlier ∈ getUnacknowledgedEvents row.runId limit outbox,
          earlier.sequence ≤ row.sequence := by
  have hmem : row ∈ unacknowledgedEvents row.runId outbox :=
    mem_unacknowledgedEvents.2 ⟨hrow, rfl, hunmarked⟩
  have hsorted := unacknowledgedEvents_sorted row.runId outbox
  rw [getUnacknowledgedEvents]
  rw [← List.take_append_drop limit (unacknowledgedEvents row.runId outbox)] at hmem hsorted
  rcases List.mem_append.1 hmem with htaken | hdropped
  · exact .inl htaken
  right
  have hlong : limit < (unacknowledgedEvents row.runId outbox).length := by
    by_contra hshort
    rw [List.drop_eq_nil_of_le (by omega)] at hdropped
    exact absurd hdropped List.not_mem_nil
  refine ⟨by rw [List.length_take]; omega, fun earlier hearlier => ?_⟩
  exact (List.pairwise_append.1 hsorted).2.2 earlier hearlier row hdropped

theorem stores_of_pushed {batchLimit : Nat} (h : event ∈ pushEvents config runId batchLimit outbox)
    :
    outbox.Stores event := by
  obtain ⟨row, hrow, rfl⟩ := List.mem_map.1 (List.mem_of_mem_filter h)
  exact ⟨row, (mem_unacknowledgedEvents.1 (List.mem_of_mem_take hrow)).1, rfl⟩

theorem listEvents_spec {peer : String} {run : Option PiRunRecord} {afterSequence requested : Nat}
    {page : EventPage} (h : listEvents peer run runId afterSequence requested outbox = .ok page) :
    ∀ event ∈ page.events, outbox.Stores event ∧ event.runId = page.runId := by
  cases run with
  | none => simp [listEvents] at h
  | some run =>
    rw [listEvents] at h
    by_cases hpeer : run.originPeer ≠ some peer
    · rw [if_pos hpeer] at h
      exact absurd h (by simp)
    rw [if_neg hpeer] at h
    obtain rfl := Except.ok.inj h
    intro event hevent
    obtain ⟨row, hrow, rfl⟩ := List.mem_map.1 hevent
    obtain ⟨hmem, hrun⟩ := mem_getEventsAfter hrow
    exact ⟨⟨row, hmem, rfl⟩, hrun⟩

theorem RemotePiSystem.Safe.of_catchUps {catchUps : Table CatchUp} (h : system.Safe)
    (hcatchUps : ∀ catchUp ∈ catchUps,
      (∀ event ∈ catchUp.pending,
        system.outbox.Stores event ∧ event.runId = catchUp.runId) ∧
      (0 < catchUp.fetched →
        catchUp.cursor ≤ system.origin.latestSequence catchUp.runId)) :
    { system with catchUps }.Safe :=
  { h with
    pending := fun catchUp hcatchUp => (hcatchUps catchUp hcatchUp).1
    cursors := fun catchUp hcatchUp => (hcatchUps catchUp hcatchUp).2 }

theorem RemotePiSystem.Safe.put_catchUp (h : system.Safe) (catchUp : CatchUp)
    (hpending : ∀ event ∈ catchUp.pending, system.outbox.Stores event ∧ event.runId = catchUp.runId)
    (hcursor : 0 < catchUp.fetched → catchUp.cursor ≤ system.origin.latestSequence catchUp.runId) :
    { system with catchUps := system.catchUps.put catchUp }.Safe := by
  refine h.of_catchUps fun other hother => ?_
  rcases Table.mem_put.1 hother with ⟨hold, -⟩ | rfl
  · exact ⟨h.pending other hold, h.cursors other hold⟩
  · exact ⟨hpending, hcursor⟩

theorem RemotePiSystem.Safe.end_catchUp (h : system.Safe) (p : CatchUp → Bool) :
    { system with catchUps := system.catchUps.deleteWhere p }.Safe := by
  refine h.of_catchUps fun other hother => ?_
  have hold := (Table.mem_deleteWhere.1 hother).1
  exact ⟨h.pending other hold, h.cursors other hold⟩

theorem RemotePiSystem.Safe.start_catchUp (h : system.Safe) (runId : String) (cursor : Nat) :
    { system with catchUps := startCatchUp runId cursor system.catchUps }.Safe := by
  refine h.of_catchUps fun other hother => ?_
  rcases Table.mem_of_mem_insertOrIgnore hother with hold | rfl
  · exact ⟨h.pending other hold, h.cursors other hold⟩
  · exact ⟨fun event hevent => absurd hevent List.not_mem_nil, fun hpos => absurd hpos (by simp)⟩

theorem RemotePiSystem.Safe.send_ack (h : system.Safe) {ack : String × Nat}
    (hack : ack.2 ≤ system.origin.latestSequence ack.1) :
    { system with acks := system.acks ++ [ack] }.Safe :=
  { h with
    acks := by
      intro sent hsent
      rcases List.mem_append.1 hsent with hold | hnew
      · exact h.acks sent hold
      · rw [List.mem_singleton.1 hnew]
        exact hack }

theorem RemotePiSystem.Safe.onPush (h : system.Safe) (hevent : system.outbox.Stores event)
    (authorized hasRoute : Bool) : (onPush config event authorized hasRoute system).Safe := by
  obtain ⟨hreduces, hsuccess⟩ :=
    handlePush_spec config hevent authorized system.origin
  rw [Abtars.onPush]
  cases hresult : handlePushLifecycleEvent config authorized event system.origin with
  | mk result origin =>
    rw [hresult] at hreduces hsuccess
    have hmoved := h.of_origin hreduces
    cases result with
    | success runId sequence duplicate =>
      exact hmoved.send_ack (hsuccess runId sequence duplicate rfl)
    | failure error gapDetected =>
      simp only []
      split
      · exact hmoved.start_catchUp _ _
      · exact hmoved

theorem RemotePiSystem.Safe.advance (h : system.Safe) {catchUp : CatchUp}
    (hcatchUp : catchUp ∈ system.catchUps) (inTime : Bool) :
    (advanceCatchUp config inTime catchUp system).Safe := by
  have hpending := h.pending catchUp hcatchUp
  have hcursor := h.cursors catchUp hcatchUp
  obtain ⟨runId, cursor, fetched, page⟩ := catchUp
  rcases page with _ | ⟨_ | ⟨event, rest⟩, hasMore⟩
  · exact h
  · -- the page is done: what it fetched is acknowledged
    have hacked : { system with
        acks := if 0 < fetched then system.acks ++ [(runId, cursor)] else system.acks }.Safe := by
      split
      · next hfetched => exact h.send_ack (hcursor hfetched)
      · exact h
    simp only [advanceCatchUp]
    by_cases hmore : hasMore = true ∧ fetched < maxEventsPerList * 10 ∧ inTime = true
    · rw [if_pos hmore]
      exact hacked.put_catchUp ⟨runId, cursor, fetched, none⟩
        (fun event hevent => absurd hevent List.not_mem_nil) hcursor
    · rw [if_neg hmore]
      exact hacked.end_catchUp _
  · -- the next event is reduced, or the catch-up ends
    obtain ⟨hstored, hrun⟩ := hpending event List.mem_cons_self
    have hmoved := h.of_origin (reducesStored_reduce config hstored system.origin)
    simp only [advanceCatchUp]
    split
    · exact h.end_catchUp _
    cases hreduce : system.origin.reduce config.digest event with
    | mk outcome origin =>
      rw [hreduce] at hmoved
      cases outcome with
      | reduced =>
        refine hmoved.put_catchUp _
          (fun later hlater => hpending later (List.mem_cons_of_mem _ hlater)) fun _ => ?_
        have hreached := latestSequence_of_reduced hreduce
        rw [hrun] at hreached
        exact hreached.ge
      | unchanged => exact hmoved.end_catchUp _
      | threw => exact hmoved.end_catchUp _

/-- Every step of the system keeps it safe. -/
theorem safe_step (system : RemotePiSystem) (op : RemotePiOp) (h : system.Safe) :
    (remotePiStep config system op).Safe := by
  cases op with
  | produce call => exact h.produce call
  | push runId batchLimit =>
    exact
      { h with
        pushes := by
          intro event hevent
          rcases List.mem_append.1 hevent with hold | hnew
          · exact h.pushes event hold
          · exact stores_of_pushed hnew }
  | arrive event authorized hasRoute =>
    rw [remotePiStep]
    split
    · next hpushed => exact h.onPush (h.pushes event hpushed) authorized hasRoute
    · exact h
  | arriveHttp event authorized =>
    rw [remotePiStep]
    split
    · next hpushed =>
        exact h.of_origin (handlePush_spec config (h.pushes event hpushed) authorized _).1
    · exact h
  | inbound event localOutbox =>
    rw [remotePiStep]
    split
    · next hpushed => exact h.of_origin (handleInbound_spec (h.pushes event hpushed) _ _)
    · exact h
  | list runId peer run =>
    rw [remotePiStep]
    cases system.catchUps.get runId with
    | none => exact h
    | some catchUp =>
      simp only []
      cases hlist : listEvents peer run runId catchUp.cursor maxCatchUpBatch
          system.outbox with
      | error message => exact h
      | ok page =>
        exact
          { h with
            pages := by
              intro listed hlisted
              rcases List.mem_append.1 hlisted with hold | hnew
              · exact h.pages listed hold
              · rw [List.mem_singleton.1 hnew]
                exact listEvents_spec hlist }
  | page runId page =>
    rw [remotePiStep]
    cases hget : system.catchUps.get runId with
    | none => exact h
    | some catchUp =>
      simp only []
      split
      · next hmatches =>
          obtain ⟨hpage, hrun, -, -⟩ := hmatches
          have hkey : catchUp.runId = runId := Table.key_of_get hget
          refine h.put_catchUp _ (fun event hevent => ?_)
            (h.cursors catchUp (Table.mem_of_get hget))
          obtain ⟨hstored, hevents⟩ := h.pages page hpage event hevent
          exact ⟨hstored, hevents.trans (hrun.trans hkey.symm)⟩
      · exact h
  | advance runId inTime =>
    rw [remotePiStep]
    cases hget : system.catchUps.get runId with
    | none => exact h
    | some catchUp => exact h.advance (Table.mem_of_get hget) inTime
  | abandon runId => exact h.end_catchUp _
  | acknowledge ack now peer run =>
    rw [remotePiStep]
    split
    · next hsent =>
        cases run with
        | none => exact h
        | some run =>
          simp only [acknowledgeEvent]
          split_ifs
          · exact h
          · exact h
          · exact h.acknowledge now (h.acks ack hsent)
    · exact h
  | cursor runId sequence => exact h.of_origin (reducesStored_cursor _ _ runId sequence)
  | outcome runId outcome => exact h.of_origin (reducesStored_outcome _ _ runId outcome)

/-- What the owner has marked the origin has reduced, this very event at its sequence; what
lies beyond the origin's latest sequence is unmarked and is in every batch that is not
full of earlier events. -/
structure RemotePiSystem.AcknowledgesReduced (system : RemotePiSystem) : Prop where
  acknowledged : ∀ row ∈ system.outbox, row.acknowledgedAt ≠ none →
    row.sequence ≤ system.origin.latestSequence row.runId ∧
      system.origin.events.get (row.runId, row.sequence) = some row.toRemotePiEvent.identity
  offered : ∀ row ∈ system.outbox, system.origin.latestSequence row.runId < row.sequence →
    row.acknowledgedAt = none ∧ ∀ batchLimit,
      row ∈ getUnacknowledgedEvents row.runId batchLimit system.outbox ∨
        (getUnacknowledgedEvents row.runId batchLimit system.outbox).length = batchLimit ∧
          ∀ earlier ∈ getUnacknowledgedEvents row.runId batchLimit system.outbox,
            earlier.sequence ≤ row.sequence

theorem RemotePiSystem.Safe.acknowledgesReduced (h : system.Safe) :
    system.AcknowledgesReduced where
  acknowledged row hrow hmarked := by
    have hle := h.acknowledged row hrow hmarked
    refine ⟨hle, ?_⟩
    obtain ⟨identity, hget⟩ :=
      Option.isSome_iff_exists.1 (h.covered row.runId row.sequence (h.numbered row hrow) hle)
    obtain ⟨event, ⟨stored, hstored, rfl⟩, rfl⟩ := h.reduced identity (Table.mem_of_get hget)
    -- the owner stores one event under the sequence
    have hkey : (stored.runId, stored.sequence) = (row.runId, row.sequence) :=
      Table.key_of_get hget
    have hsame : stored = row := Table.eq_of_key_eq hstored hrow hkey
    rw [hget, hsame]
  offered row hrow hbeyond := by
    have hunmarked : row.acknowledgedAt = none := by
      by_contra hmarked
      exact absurd (h.acknowledged row hrow hmarked) (not_le_of_gt hbeyond)
    exact ⟨hunmarked, offered_or_full hrow hunmarked⟩

/-- In every state the two sides reach over a network that loses, repeats and reorders,
the owner has acknowledged only events the origin has reduced. -/
theorem acknowledged_only_reduced (config : RemotePiConfig) (ops : List RemotePiOp) :
    (runFrom (remotePiStep config) RemotePiSystem.empty ops).AcknowledgesReduced :=
  (invariant_of_step safe_step ops _ safe_empty).acknowledgesReduced

/-- An accepted event that is pushed, reduced and acknowledged. -/
example :
    let config : RemotePiConfig := ⟨fun payload => "sha256:" ++ payload.eventId, fun _ => 0, "peer"⟩
    let accepted := runFrom (remotePiStep config) RemotePiSystem.empty
      [.produce (.emitTransition delegatedReads ⟨none, .accepted, none⟩ (delegatedRun .queued)),
        .push "run" 10]
    let acknowledged := runFrom (remotePiStep config) accepted
      ((accepted.pushes.map fun event => .arrive event true true) ++
        [.acknowledge ("run", 1) 5 "peer" (some (delegatedRun .queued))])
    acknowledged.outbox.rows.map (·.acknowledgedAt) = [some 5] := by
  decide +kernel

end Abtars
