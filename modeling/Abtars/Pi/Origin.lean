import Abtars.Pi.RemoteTypes
import Abtars.Lib.Run
import Abtars.Lib.Table

/-!
# The origin's projection of a remote Pi run

The peer that asked for a run keeps one projection row of it and the identity of each
event it has reduced.  An event is reduced when it is the next of its run and follows
what the row says of generation and status; every other event is turned away.
-/

namespace Abtars

open Lib

variable {digest : RemotePiEventPayload → String} {event : RemotePiEvent}
  {store committed : OriginStore} {projection : RemotePiOriginProjection}

inductive CommandOutcome
  | succeeded | rejected | outcomeUnknown

structure LastCommandOutcome where
  commandId : String
  outcome : CommandOutcome
  recordedAt : String

/-- A row of `remote_pi_origin_projections`. -/
structure OriginProjectionRow where
  runId : String
  remoteCardId : Nat
  originRequestId : String
  ownerPeer : String
  latestSequence : Nat
  acknowledgedSequence : Nat
  latestGeneration : Nat
  latestStatus : PiRunStatus
  lastActivityAt : String
  pendingInput : Option PendingInput
  resultSummary : Option String
  errorSummary : Option String
  usage : Option RemotePiUsage
  changedFilesSummary : Option String
  resumeCapability : Option String
  delivery : Option RemotePiDelivery
  lastCommandOutcome : Option LastCommandOutcome

structure RemotePiOriginProjection extends OriginProjectionRow where
  latestProgress : Option RemotePiProgress

/-- A row of `remote_pi_origin_events`. -/
structure OriginEventRow where
  runId : String
  sequence : Nat
  eventId : String
  contentSha256 : String

instance : Keyed OriginProjectionRow String := ⟨OriginProjectionRow.runId⟩

instance : Keyed OriginEventRow (String × Nat) := ⟨fun row => (row.runId, row.sequence)⟩

structure OriginStore where
  projections : Table OriginProjectionRow
  events : Table OriginEventRow

def OriginStore.empty : OriginStore := ⟨∅, ∅⟩

/-- `getProjection`: the row, without progress. -/
def OriginStore.getProjection (store : OriginStore) (runId : String) :
    Option RemotePiOriginProjection :=
  (store.projections.get runId).map fun row => { row with latestProgress := none }

def OriginStore.latestSequence (store : OriginStore) (runId : String) : Nat :=
  ((store.projections.get runId).map (·.latestSequence)).getD 0

def RemotePiEvent.identity (event : RemotePiEvent) : OriginEventRow where
  runId := event.runId
  sequence := event.sequence
  eventId := event.eventId
  contentSha256 := event.contentSha256

/-- `applyProjectionAndEvent`: both rows in one transaction, unless the event id is taken. -/
def OriginStore.applyProjectionAndEvent (projection : RemotePiOriginProjection)
    (event : RemotePiEvent) (store : OriginStore) : Option OriginStore :=
  (store.events.insert
      (fun row => row.runId = event.runId ∧ row.eventId = event.eventId) event.identity).map
    fun events =>
      { projections := store.projections.put projection.toOriginProjectionRow, events }

def OriginStore.hasConflictingEvent (store : OriginStore) (event : RemotePiEvent) : Bool :=
  (store.events.get (event.runId, event.sequence)).any fun prior =>
    prior.eventId ≠ event.eventId ∨ prior.contentSha256 ≠ event.contentSha256

/-- `_initializeProjection`. -/
def initializeProjection (event : RemotePiEvent) : RemotePiOriginProjection where
  runId := event.runId
  remoteCardId := event.remoteCardId
  originRequestId := event.originRequestId
  ownerPeer := event.originPeer
  latestSequence := event.sequence
  acknowledgedSequence := 0
  latestGeneration := event.generation
  latestStatus := event.projection.status
  lastActivityAt := event.occurredAt
  pendingInput := event.projection.pendingInput
  latestProgress := event.projection.progress
  resultSummary := event.projection.resultSummary
  errorSummary := event.projection.errorSummary
  usage := event.projection.usage
  changedFilesSummary := event.projection.changedFilesSummary
  resumeCapability := event.projection.resumeCapability
  delivery := event.projection.delivery
  lastCommandOutcome := none

def RemotePiOriginProjection.cleared (projection : RemotePiOriginProjection) :
    RemotePiOriginProjection :=
  { projection with
    pendingInput := none, latestProgress := none, resultSummary := none, errorSummary := none,
    usage := none, changedFilesSummary := none, resumeCapability := none, delivery := none }

def clearsProgress : RemotePiEventKind → Bool
  | .completed | .failed | .cancelled | .awaitingInput | .inputCleared => true
  | _ => false

/-- `_applyProjection`. -/
def applyProjection (existing : RemotePiOriginProjection) (event : RemotePiEvent) :
    RemotePiOriginProjection :=
  let updated : RemotePiOriginProjection :=
    { existing with
      latestSequence := event.sequence
      latestGeneration := event.generation
      latestStatus := event.projection.status
      lastActivityAt := event.occurredAt }
  let updated :=
    if existing.latestGeneration < event.generation ∨ event.kind = .resumed then updated.cleared
    else updated
  { updated with
    pendingInput :=
      if event.kind = .inputCleared then none
      else event.projection.pendingInput.or updated.pendingInput
    resultSummary := event.projection.resultSummary.or updated.resultSummary
    errorSummary := event.projection.errorSummary.or updated.errorSummary
    usage := event.projection.usage.or updated.usage
    changedFilesSummary := event.projection.changedFilesSummary.or updated.changedFilesSummary
    resumeCapability := event.projection.resumeCapability.or updated.resumeCapability
    delivery := event.projection.delivery.or updated.delivery
    latestProgress :=
      event.projection.progress.or
        (if clearsProgress event.kind then none else updated.latestProgress) }

/-- How an event is received: an invalid one and one whose identity cannot be stored
throw, the others answer whether the projection changed. -/
inductive ReduceOutcome
  | reduced | unchanged | threw
  deriving DecidableEq

def OriginStore.commit (projection : RemotePiOriginProjection) (event : RemotePiEvent)
    (store : OriginStore) : ReduceOutcome × OriginStore :=
  match store.applyProjectionAndEvent projection event with
  | some committed => (.reduced, committed)
  | none => (.threw, store)

/-- `reduce`, for the digest of a payload. -/
def OriginStore.reduce (digest : RemotePiEventPayload → String) (event : RemotePiEvent)
    (store : OriginStore) : ReduceOutcome × OriginStore :=
  if ¬ event.isValid digest then (.threw, store)
  else if (store.events.get (event.runId, event.sequence)).isSome then (.unchanged, store)
  else
    match store.getProjection event.runId with
    | none =>
      if event.sequence ≠ 1 then (.unchanged, store)
      else store.commit (initializeProjection event) event
    | some projection =>
      if event.kind = .accepted ∧ event.sequence ≠ 1 then (.unchanged, store)
      else if event.sequence ≤ projection.latestSequence then (.unchanged, store)
      -- a gap is turned away, catch-up has to deliver what is missing
      else if projection.latestSequence + 1 < event.sequence then (.unchanged, store)
      else if event.generation < projection.latestGeneration then (.unchanged, store)
      else if projection.latestGeneration < event.generation ∧
          (event.kind ≠ .resumed ∨ event.generation ≠ projection.latestGeneration + 1) then
        (.unchanged, store)
      else if projection.latestStatus.isTerminal ∧
          event.generation = projection.latestGeneration then
        (.unchanged, store)
      else store.commit (applyProjection projection event) event

variable (runId : String)

/-- `acknowledgeCursor`: the cursor moves forward up to the latest sequence. -/
def OriginStore.acknowledgeCursor (sequence : Nat) (store : OriginStore) : OriginStore :=
  match store.projections.get runId with
  | none => store
  | some projection =>
    if projection.latestSequence < sequence then store
    else if sequence ≤ projection.acknowledgedSequence then store
    else
      { store with
        projections := store.projections.put { projection with acknowledgedSequence := sequence } }

def OriginStore.recordCommandOutcome (outcome : LastCommandOutcome) (store : OriginStore) :
    OriginStore :=
  match store.projections.get runId with
  | none => store
  | some projection =>
    { store with
      projections := store.projections.put { projection with lastCommandOutcome := some outcome } }

/-! ## What an event does -/

/-- An event may follow one of a generation and status: within the generation while it
has not ended, or by resuming the next one. -/
def Follows (generation : Nat) (status : PiRunStatus) (event : RemotePiEvent) : Prop :=
  event.generation = generation ∧ status.isTerminal = false ∨
    event.kind = .resumed ∧ event.generation = generation + 1

instance (generation : Nat) (status : PiRunStatus) (event : RemotePiEvent) :
    Decidable (Follows generation status event) :=
  inferInstanceAs (Decidable (_ ∨ _))

/-- The projection an event is committed with: its own when it is the first of its run,
else the stored one with the event applied, when it is the next and may follow. -/
inductive Projects (store : OriginStore) (event : RemotePiEvent) :
    RemotePiOriginProjection → Prop
  | first (hnone : store.projections.get event.runId = none) (hfirst : event.sequence = 1) :
      Projects store event (initializeProjection event)
  | next (row : OriginProjectionRow) (hrow : store.projections.get event.runId = some row)
      (hnext : event.sequence = row.latestSequence + 1)
      (haccepted : event.kind = .accepted → event.sequence = 1)
      (hfollows : Follows row.latestGeneration row.latestStatus event) :
      Projects store event (applyProjection { row with latestProgress := none } event)

/-- A projection as it stands may turn an event away at one of five points. -/
theorem reduce_cases (digest : RemotePiEventPayload → String) (event : RemotePiEvent)
    (store : OriginStore) :
    (∃ outcome, outcome ≠ .reduced ∧ store.reduce digest event = (outcome, store)) ∨
      (event.isValid digest = true ∧ store.events.get (event.runId, event.sequence) = none ∧
        ∃ projection, Projects store event projection ∧
          store.reduce digest event = store.commit projection event) := by
  rw [OriginStore.reduce]
  by_cases hvalid : event.isValid digest = true
  swap
  · exact .inl ⟨.threw, by decide, by rw [if_pos hvalid]⟩
  by_cases hstored : (store.events.get (event.runId, event.sequence)).isSome = true
  · exact .inl ⟨.unchanged, by decide, by simp [hvalid, hstored]⟩
  have hfree : store.events.get (event.runId, event.sequence) = none := by simpa using hstored
  simp only [hvalid, not_true_eq_false, if_false, hfree, Option.isSome_none, Bool.false_eq_true,
    OriginStore.getProjection]
  cases hrow : store.projections.get event.runId with
  | none =>
    by_cases hfirst : event.sequence = 1
    · refine .inr ⟨trivial, trivial, _, .first hrow hfirst, ?_⟩
      simp [hfirst]
    · exact .inl ⟨.unchanged, by decide, by simp [hfirst]⟩
  | some row =>
    simp only [Option.map_some]
    split_ifs with haccepted hstale hgap hregress hunbound hterminal
    · exact .inl ⟨.unchanged, by decide, rfl⟩
    · exact .inl ⟨.unchanged, by decide, rfl⟩
    · exact .inl ⟨.unchanged, by decide, rfl⟩
    · exact .inl ⟨.unchanged, by decide, rfl⟩
    · exact .inl ⟨.unchanged, by decide, rfl⟩
    · exact .inl ⟨.unchanged, by decide, rfl⟩
    · refine .inr ⟨trivial, trivial, _, .next row hrow (by omega) ?_ ?_, rfl⟩
      · intro hkind
        by_contra hsequence
        exact haccepted ⟨hkind, hsequence⟩
      rcases Nat.lt_or_ge row.latestGeneration event.generation with hlt | hge
      · right
        by_contra hresumed
        exact hunbound ⟨hlt, by tauto⟩
      · left
        have hsame : event.generation = row.latestGeneration := by omega
        exact ⟨hsame, by simpa [hsame] using hterminal⟩

theorem Projects.reduce_eq
    (hprojects : Projects store event projection) (hvalid : event.isValid digest = true)
    (hfree : store.events.get (event.runId, event.sequence) = none) :
    store.reduce digest event = store.commit projection event := by
  rw [OriginStore.reduce]
  simp only [hvalid, not_true_eq_false, if_false, hfree, Option.isSome_none, Bool.false_eq_true,
    OriginStore.getProjection]
  cases hprojects with
  | first hnone hfirst => simp [hnone, hfirst]
  | next row hrow hnext haccepted hfollows =>
    have hkind : ¬ (event.kind = .accepted ∧ event.sequence ≠ 1) := by tauto
    simp only [hrow, Option.map_some]
    rw [if_neg hkind, if_neg (by omega), if_neg (by omega)]
    rcases hfollows with ⟨hsame, hopen⟩ | ⟨hresumed, hbumped⟩
    · rw [if_neg (by omega), if_neg (by omega), if_neg (by simp [hopen])]
    · rw [if_neg (by omega), if_neg (by simp [hresumed, hbumped]), if_neg (by omega)]

/-! ## Event identities -/

theorem deriveEventId_injective {sequence other : Nat}
    (h : deriveEventId runId sequence = deriveEventId runId other) : sequence = other := by
  have hrepr : toString sequence = toString other := (String.append_right_inj _).1 h
  have hdigits := congrArg String.toList hrepr
  rw [show toString sequence = sequence.repr from rfl, show toString other = other.repr from rfl,
    Nat.toList_repr, Nat.toList_repr] at hdigits
  rw [← @Nat.ofDigitChars_ten_toDigits sequence, hdigits, Nat.ofDigitChars_ten_toDigits]

theorem eventId_of_isValid (hvalid : event.isValid digest = true) :
    event.eventId = deriveEventId event.runId event.sequence := by
  rw [RemotePiEvent.isValid, Option.isNone_iff_eq_none, validateEvent, firstRefusal,
    List.findSome?_eq_none_iff] at hvalid
  have hrefusal := hvalid (refuseIf (event.eventId ≠ deriveEventId event.runId event.sequence)
    ("Event ID mismatch: expected " ++ deriveEventId event.runId event.sequence ++ ", got " ++
      event.eventId)) (by simp)
  by_contra hne
  simp [refuseIf, hne] at hrefusal

def OriginStore.IdsDerived (store : OriginStore) : Prop :=
  ∀ row ∈ store.events, row.eventId = deriveEventId row.runId row.sequence

theorem exists_commit (projection : RemotePiOriginProjection) (hids : store.IdsDerived)
    (hvalid : event.isValid digest = true)
    (hfree : store.events.get (event.runId, event.sequence) = none) :
    ∃ committed, store.applyProjectionAndEvent projection event = some committed := by
  have hfits : store.events.Fits
      (fun row => row.runId = event.runId ∧ row.eventId = event.eventId) event.identity := by
    refine ⟨hfree, fun row hrow => ?_⟩
    rw [decide_eq_false_iff_not]
    rintro ⟨hrun, hid⟩
    rw [hids row hrow, eventId_of_isValid hvalid, hrun] at hid
    have hsequence := deriveEventId_injective _ hid
    exact Table.get_eq_none_iff.1 hfree row hrow (Prod.ext hrun hsequence)
  obtain ⟨events, hinsert⟩ := Table.exists_insert_iff.2 hfits
  exact ⟨_, by rw [OriginStore.applyProjectionAndEvent, hinsert, Option.map_some]⟩

theorem applyProjectionAndEvent_eq_some
    (h : store.applyProjectionAndEvent projection event = some committed) :
    committed.projections = store.projections.put projection.toOriginProjectionRow ∧
      store.events.insert
        (fun row => row.runId = event.runId ∧ row.eventId = event.eventId) event.identity =
          some committed.events := by
  rw [OriginStore.applyProjectionAndEvent, Option.map_eq_some_iff] at h
  obtain ⟨events, hinsert, rfl⟩ := h
  exact ⟨rfl, hinsert⟩

theorem Projects.keys (h : Projects store event projection) :
    projection.runId = event.runId ∧ projection.latestSequence = event.sequence ∧
      projection.latestGeneration = event.generation ∧
      projection.latestStatus = event.projection.status := by
  cases h with
  | first hnone hfirst => exact ⟨rfl, rfl, rfl, rfl⟩
  | next row hrow hnext haccepted hfollows =>
    have hrun : row.runId = event.runId := Table.key_of_get hrow
    rw [applyProjection]
    split <;> exact ⟨hrun, rfl, rfl, rfl⟩

/-- What a reduced event leaves: its projection under its run, and its identity. -/
structure Committed (store : OriginStore) (event : RemotePiEvent)
    (projection : RemotePiOriginProjection) (committed : OriginStore) : Prop where
  projects : Projects store event projection
  get_projections : ∀ runId, committed.projections.get runId =
    if runId = event.runId then some projection.toOriginProjectionRow
    else store.projections.get runId
  get_events : ∀ key, committed.events.get key =
    if key = (event.runId, event.sequence) then some event.identity else store.events.get key
  mem_events : ∀ row, row ∈ committed.events ↔ row ∈ store.events ∨ row = event.identity

theorem committed_of_apply (hprojects : Projects store event projection)
    (h : store.applyProjectionAndEvent projection event = some committed) :
    Committed store event projection committed := by
  obtain ⟨hprojections, hinsert⟩ := applyProjectionAndEvent_eq_some h
  refine ⟨hprojects, fun runId => ?_, fun key => ?_, fun row => Table.mem_insert hinsert⟩
  · rw [hprojections, Table.get_put, ← hprojects.keys.1]
    rfl
  · exact Table.get_of_insert hinsert key

theorem reduce_spec (digest : RemotePiEventPayload → String) (event : RemotePiEvent)
    (store : OriginStore) :
    (∃ outcome, outcome ≠ .reduced ∧ store.reduce digest event = (outcome, store)) ∨
      ∃ projection committed, event.isValid digest = true ∧
        store.events.get (event.runId, event.sequence) = none ∧
        Committed store event projection committed ∧
        store.reduce digest event = (.reduced, committed) := by
  rcases reduce_cases digest event store with hturned | ⟨hvalid, hfree, projection, hprojects, h⟩
  · exact .inl hturned
  rw [OriginStore.commit] at h
  cases hcommit : store.applyProjectionAndEvent projection event with
  | none => exact .inl ⟨.threw, by decide, by rw [h, hcommit]⟩
  | some committed =>
    exact .inr ⟨projection, committed, hvalid, hfree,
      committed_of_apply hprojects hcommit, by rw [h, hcommit]⟩

theorem idsDerived_reduce (digest : RemotePiEventPayload → String) (event : RemotePiEvent)
    (h : store.IdsDerived) : (store.reduce digest event).2.IdsDerived := by
  rcases reduce_spec digest event store with
    ⟨outcome, -, heq⟩ | ⟨projection, committed, hvalid, -, hcommitted, heq⟩
  · rw [heq]
    exact h
  · rw [heq]
    intro row hrow
    rcases (hcommitted.mem_events row).1 hrow with hold | rfl
    · exact h row hold
    · exact eventId_of_isValid hvalid

theorem Committed.latestSequence (h : Committed store event projection committed) (runId : String) :
    committed.latestSequence runId =
      if runId = event.runId then event.sequence else store.latestSequence runId := by
  rw [OriginStore.latestSequence, h.get_projections]
  by_cases hrun : runId = event.runId
  · rw [if_pos hrun, if_pos hrun]
    exact h.projects.keys.2.1
  · rw [if_neg hrun, if_neg hrun, OriginStore.latestSequence]

theorem Committed.sequence_eq (h : Committed store event projection committed) :
    event.sequence = store.latestSequence event.runId + 1 := by
  cases h.projects with
  | first hnone hfirst => simp [OriginStore.latestSequence, hnone, hfirst]
  | next row hrow hnext haccepted hfollows => simp [OriginStore.latestSequence, hrow, hnext]

theorem latestSequence_reduce (digest : RemotePiEventPayload → String) (event : RemotePiEvent)
    (store : OriginStore) (runId : String) :
    store.latestSequence runId ≤ (store.reduce digest event).2.latestSequence runId := by
  rcases reduce_spec digest event store with
    ⟨outcome, -, heq⟩ | ⟨projection, committed, -, -, hcommitted, heq⟩
  · rw [heq]
  · rw [heq, hcommitted.latestSequence]
    by_cases hrun : runId = event.runId
    · rw [if_pos hrun, hrun, hcommitted.sequence_eq]
      omega
    · rw [if_neg hrun]

end Abtars
