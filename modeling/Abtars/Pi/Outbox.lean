import Abtars.Pi.RemoteTypes
import Abtars.Lib.Run
import Abtars.Lib.Table
import Mathlib.Data.List.MinMax

/-!
# The event outbox of remote Pi runs

An owner stores the lifecycle events of the runs it executes for a peer until that peer
acknowledges them.  The sequence of a new event is one more than the highest stored of
its run; compaction deletes acknowledged events of kinds that are not critical.
-/

namespace Abtars

open Lib

variable {outbox : Outbox} {runId : String} {count : Nat}

/-- A row of `remote_pi_events`. -/
structure OutboxRow extends RemotePiEvent where
  acknowledgedAt : Option Int
  deriving DecidableEq

instance : Keyed OutboxRow (String × Nat) := ⟨fun row => (row.runId, row.sequence)⟩

abbrev Outbox := Table OutboxRow

/-- `COALESCE(MAX(sequence), 0)` of a run. -/
def getMaxSequence (outbox : Outbox) (runId : String) : Nat :=
  ((outbox.select (·.runId = runId)).map (·.sequence)).foldr max 0

/-- What a producer gives of an event, with the fields that depend on its sequence. -/
structure AppendInput where
  runId : String
  cardId : Nat
  generation : Nat
  originPeer : String
  originRequestId : String
  kind : RemotePiEventKind
  occurredAt : String
  projection : RemotePiPublicProjection
  computeFields : Nat → String × String

variable (input : AppendInput)

def AppendInput.row (sequence : Nat) : OutboxRow where
  eventId := (input.computeFields sequence).1
  originPeer := input.originPeer
  originRequestId := input.originRequestId
  runId := input.runId
  remoteCardId := input.cardId
  generation := input.generation
  sequence := sequence
  kind := input.kind
  occurredAt := input.occurredAt
  projection := input.projection
  contentSha256 := (input.computeFields sequence).2
  acknowledgedAt := none

inductive AppendResult
  | appended (sequence : Nat)
  | idempotent (sequence : Nat)
  | conflict
  deriving DecidableEq

/-- `appendEventAuto`: allocate the next sequence and insert; an event id that is taken
is a conflict unless the sequence holds the same content. -/
def appendEventAuto (outbox : Outbox) : AppendResult × Outbox :=
  let sequence := getMaxSequence outbox input.runId + 1
  match outbox.insert (·.eventId = (input.row sequence).eventId) (input.row sequence) with
  | some inserted => (.appended sequence, inserted)
  | none =>
    match outbox.get (input.runId, sequence) with
    | some existing =>
      if existing.contentSha256 = (input.row sequence).contentSha256 then
        (.idempotent sequence, outbox)
      else (.conflict, outbox)
    | none => (.conflict, outbox)

variable (now : Int)

def OutboxRow.acknowledge (row : OutboxRow) : OutboxRow :=
  { row with acknowledgedAt := some now }

theorem OutboxRow.key_acknowledge (row : OutboxRow) :
    Keyed.key (row.acknowledge now) = Keyed.key row := rfl

/-- `acknowledgeEvents`: all of a run's events up to a sequence. -/
def acknowledgeEvents (runId : String) (upToSequence : Int) (outbox : Outbox) : Outbox :=
  outbox.updateWhere
    (fun row => row.runId = runId ∧ (row.sequence : Int) ≤ upToSequence ∧ row.acknowledgedAt = none)
    (OutboxRow.acknowledge now) (OutboxRow.key_acknowledge now)

/-- `criticalKinds`, as the compaction lists them. -/
def criticalKinds : List RemotePiEventKind :=
  [.awaitingInput, .inputCleared, .interrupted, .resumed, .completed, .failed, .cancelled,
    .accepted, .queued, .starting, .running]

def keepSequences (runId : String) (maxProgressToRetain : Nat) (outbox : Outbox) : List Nat :=
  (((outbox.select fun row => row.runId = runId ∧ row.kind ∉ criticalKinds).map
    (·.sequence)).insertionSort (· ≥ ·)).take maxProgressToRetain

def compacts (runId : String) (keep : List Nat) (row : OutboxRow) : Bool :=
  row.runId = runId ∧ row.kind ∉ criticalKinds ∧ row.acknowledgedAt.isSome ∧ row.sequence ∉ keep

def compactProgressEvents (runId : String) (maxProgressToRetain : Nat) (outbox : Outbox) :
    Outbox :=
  outbox.deleteWhere (compacts runId (keepSequences runId maxProgressToRetain outbox))

/-! ## The highest sequence -/

variable {row : OutboxRow}

theorem le_getMaxSequence (hrow : row ∈ outbox) :
    row.sequence ≤ getMaxSequence outbox row.runId := by
  have hselected : row ∈ outbox.select (·.runId = row.runId) := by simp [hrow]
  exact List.le_max_of_le' 0 (List.mem_map_of_mem hselected) (le_refl row.sequence)

theorem exists_last (hpos : 0 < getMaxSequence outbox runId) :
    ∃ row ∈ outbox, row.runId = runId ∧ row.sequence = getMaxSequence outbox runId := by
  have hfold : ∀ sequences : List Nat, 0 < sequences.foldr max 0 →
      sequences.foldr max 0 ∈ sequences := by
    intro sequences
    induction sequences with
    | nil => simp
    | cons first rest ih =>
      intro hfirst
      rw [List.foldr_cons] at hfirst ⊢
      rcases le_total first (rest.foldr max 0) with hle | hle
      · rw [max_eq_right hle] at hfirst ⊢
        exact List.mem_cons_of_mem _ (ih hfirst)
      · rw [max_eq_left hle]
        exact List.mem_cons_self
  obtain ⟨row, hrow, hsequence⟩ := List.mem_map.1 (hfold _ hpos)
  obtain ⟨hmem, hrun⟩ := (Table.mem_select _ _ _).1 hrow
  exact ⟨row, hmem, by simpa using hrun, hsequence⟩

theorem getMaxSequence_mono {kept : Outbox}
    (hkept : ∀ row ∈ outbox, row.runId = runId → row.sequence = getMaxSequence outbox runId →
      ∃ row' ∈ kept, row'.runId = runId ∧ row'.sequence = row.sequence) :
    getMaxSequence outbox runId ≤ getMaxSequence kept runId := by
  rcases Nat.eq_zero_or_pos (getMaxSequence outbox runId) with hzero | hpos
  · omega
  obtain ⟨row, hrow, hrun, hlast⟩ := exists_last hpos
  obtain ⟨row', hrow', hrun', hsequence⟩ := hkept row hrow hrun hlast
  have hle := le_getMaxSequence hrow'
  rw [hrun'] at hle
  omega

/-! ## Appends -/

theorem get_next_sequence (outbox : Outbox) (runId : String) :
    outbox.get (runId, getMaxSequence outbox runId + 1) = none := by
  refine Table.get_eq_none_iff.2 fun row hrow hkey => ?_
  obtain ⟨hrun, hsequence⟩ := Prod.mk.inj hkey
  have hle := le_getMaxSequence hrow
  rw [hrun] at hle
  omega

theorem appendEventAuto_cases (outbox : Outbox) :
    appendEventAuto input outbox = (.conflict, outbox) ∨
      ∃ stored : Outbox,
        stored.rows = outbox.rows ++ [input.row (getMaxSequence outbox input.runId + 1)] ∧
        appendEventAuto input outbox =
          (.appended (getMaxSequence outbox input.runId + 1), stored) := by
  rw [appendEventAuto]
  cases hinsert : outbox.insert
      (·.eventId = (input.row (getMaxSequence outbox input.runId + 1)).eventId)
      (input.row (getMaxSequence outbox input.runId + 1)) with
  | some stored => exact .inr ⟨stored, (Table.insert_eq_some_iff.1 hinsert).2.2, rfl⟩
  | none =>
    left
    simp only [get_next_sequence]

theorem mem_appendEventAuto {input : AppendInput} (hrow : row ∈ outbox) :
    row ∈ (appendEventAuto input outbox).2 := by
  rcases appendEventAuto_cases input outbox with h | ⟨stored, hrows, h⟩
  · rw [h]
    exact hrow
  · rw [h, Table.mem_def, hrows]
    exact List.mem_append_left _ hrow

theorem getMaxSequence_append (outbox : Outbox) (runId : String) :
    getMaxSequence outbox runId ≤ getMaxSequence (appendEventAuto input outbox).2 runId :=
  getMaxSequence_mono fun row hrow hrun _ => ⟨row, mem_appendEventAuto hrow, hrun, rfl⟩

theorem le_getMaxSequence_of_appended {input : AppendInput} {sequence : Nat}
    (h : (appendEventAuto input outbox).1 = .appended sequence) :
    sequence ≤ getMaxSequence (appendEventAuto input outbox).2 input.runId := by
  rcases appendEventAuto_cases input outbox with hcase | ⟨stored, hrows, hcase⟩
  · simp [hcase] at h
  have hsequence : getMaxSequence outbox input.runId + 1 = sequence := by
    simpa [hcase] using h
  have hstored : input.row sequence ∈ stored := by
    rw [Table.mem_def, hrows, hsequence]
    simp
  rw [hcase]
  exact le_getMaxSequence hstored

/-! ## Acknowledgements and compactions -/

theorem exists_key_acknowledge (acknowledged : String) (upToSequence : Int) (hrow : row ∈ outbox) :
    ∃ row' ∈ acknowledgeEvents now acknowledged upToSequence outbox,
      Keyed.key row' = Keyed.key row := by
  refine ⟨_, Table.mem_updateWhere.2 ⟨row, hrow, rfl⟩, ?_⟩
  split <;> rfl

theorem getMaxSequence_acknowledge (acknowledged : String) (upToSequence : Int) (outbox : Outbox)
    (runId : String) :
    getMaxSequence outbox runId ≤
      getMaxSequence (acknowledgeEvents now acknowledged upToSequence outbox) runId := by
  refine getMaxSequence_mono fun row hrow hrun _ => ?_
  obtain ⟨row', hrow', hkey⟩ := exists_key_acknowledge now acknowledged upToSequence hrow
  obtain ⟨hrun', hsequence⟩ := Prod.mk.inj hkey
  exact ⟨row', hrow', hrun'.trans hrun, hsequence⟩

/-- A compaction keeps the sequence of the last event, unless it keeps nothing of an
acknowledged event that is not critical. -/
def KeepsLast (runId : String) (maxProgressToRetain : Nat) (outbox : Outbox) : Prop :=
  maxProgressToRetain ≠ 0 ∨
    ∀ row ∈ outbox, row.runId = runId → row.sequence = getMaxSequence outbox runId →
      row.kind ∈ criticalKinds ∨ row.acknowledgedAt = none

instance (runId : String) (maxProgressToRetain : Nat) (outbox : Outbox) :
    Decidable (KeepsLast runId maxProgressToRetain outbox) :=
  inferInstanceAs (Decidable (_ ∨ ∀ row ∈ outbox.rows, _))

/-- The last event is among the retained ones when it is not critical. -/
theorem last_mem_keepSequences (hcount : count ≠ 0) (hrow : row ∈ outbox)
    (hkind : row.kind ∉ criticalKinds) (hlast : row.sequence = getMaxSequence outbox row.runId) :
    row.sequence ∈ keepSequences row.runId count outbox := by
  have hmem : row.sequence ∈ ((outbox.select fun other =>
      other.runId = row.runId ∧ other.kind ∉ criticalKinds).map (·.sequence)).insertionSort
        (· ≥ ·) := by
    rw [List.mem_insertionSort]
    exact List.mem_map_of_mem (by simp [hrow, hkind])
  have hsorted := List.pairwise_insertionSort (· ≥ ·) ((outbox.select fun other =>
    other.runId = row.runId ∧ other.kind ∉ criticalKinds).map (·.sequence))
  have hbound : ∀ sequence ∈ ((outbox.select fun other =>
      other.runId = row.runId ∧ other.kind ∉ criticalKinds).map (·.sequence)).insertionSort
        (· ≥ ·), sequence ≤ row.sequence := by
    intro sequence hsequence
    rw [List.mem_insertionSort] at hsequence
    obtain ⟨other, hother, rfl⟩ := List.mem_map.1 hsequence
    obtain ⟨hother, hselected⟩ := (Table.mem_select _ _ _).1 hother
    have hrun : other.runId = row.runId := by
      simp only [decide_eq_true_eq] at hselected
      exact hselected.1
    have hle := le_getMaxSequence hother
    rw [hrun] at hle
    omega
  -- the list is sorted downwards, so the highest sequence stands at its head
  rw [keepSequences]
  cases hlist : ((outbox.select fun other =>
      other.runId = row.runId ∧ other.kind ∉ criticalKinds).map (·.sequence)).insertionSort
        (· ≥ ·) with
  | nil =>
    rw [hlist] at hmem
    exact absurd hmem List.not_mem_nil
  | cons first rest =>
    rw [hlist] at hmem hsorted hbound
    obtain ⟨count, rfl⟩ := Nat.exists_eq_succ_of_ne_zero hcount
    have hfirst : first = row.sequence := by
      rcases List.mem_cons.1 hmem with heq | hrest
      · exact heq.symm
      · have hge := List.rel_of_pairwise_cons hsorted hrest
        have hle := hbound first List.mem_cons_self
        omega
    rw [hfirst]
    exact List.mem_cons_self

theorem compact_keeps_last (hkeeps : KeepsLast row.runId count outbox) (hrow : row ∈ outbox)
    (hlast : row.sequence = getMaxSequence outbox row.runId) :
    row ∈ compactProgressEvents row.runId count outbox := by
  rw [compactProgressEvents, Table.mem_deleteWhere]
  refine ⟨hrow, ?_⟩
  rw [compacts, decide_eq_false_iff_not]
  rintro ⟨-, hkind, hacknowledged, hdropped⟩
  rcases hkeeps with hcount | hspared
  · exact hdropped (last_mem_keepSequences hcount hrow hkind hlast)
  rcases hspared row hrow rfl hlast with hcritical | hpending
  · exact hkind hcritical
  · rw [hpending] at hacknowledged
    exact absurd hacknowledged (by simp)

theorem mem_compact_of_ne (hrow : row ∈ outbox) (hrun : row.runId ≠ runId) :
    row ∈ compactProgressEvents runId count outbox := by
  rw [compactProgressEvents, Table.mem_deleteWhere]
  exact ⟨hrow, by simp [compacts, hrun]⟩

theorem getMaxSequence_compact {compacted : String}
    (hkeeps : KeepsLast compacted count outbox) (runId : String) :
    getMaxSequence outbox runId ≤
      getMaxSequence (compactProgressEvents compacted count outbox) runId := by
  refine getMaxSequence_mono fun row hrow hrun hlast => ⟨row, ?_, hrun, rfl⟩
  by_cases hsame : row.runId = compacted
  · subst hsame
    rw [← hrun] at hlast
    exact compact_keeps_last hkeeps hrow hlast
  · exact mem_compact_of_ne hrow hsame

/-! ## Runs -/

structure OutboxHistory where
  outbox : Outbox
  allocated : List (String × Nat)

def OutboxHistory.start (outbox : Outbox) : OutboxHistory :=
  ⟨outbox, outbox.rows.map Keyed.key⟩

inductive RemoteOutboxOp
  | append (input : AppendInput)
  | acknowledge (now : Int) (runId : String) (upToSequence : Int)
  | compact (runId : String) (maxProgressToRetain : Nat)

def allocatedBy : AppendResult → List (String × Nat)
  | .appended sequence => [(input.runId, sequence)]
  | _ => []

variable (history : OutboxHistory)

def remoteOutboxStep : RemoteOutboxOp → OutboxHistory
  | .append input =>
    { outbox := (appendEventAuto input history.outbox).2
      allocated := history.allocated ++
        allocatedBy input (appendEventAuto input history.outbox).1 }
  | .acknowledge now runId upToSequence =>
    { history with outbox := acknowledgeEvents now runId upToSequence history.outbox }
  | .compact runId maxProgressToRetain =>
    { history with outbox := compactProgressEvents runId maxProgressToRetain history.outbox }

def KeepsTransitions (runId : String) (maxProgressToRetain : Nat) (outbox : Outbox) : Prop :=
  ∀ row ∈ outbox, row.runId = runId → row.kind = .cancelling → row.acknowledgedAt ≠ none →
    row.sequence ∈ keepSequences runId maxProgressToRetain outbox

instance (runId : String) (maxProgressToRetain : Nat) (outbox : Outbox) :
    Decidable (KeepsTransitions runId maxProgressToRetain outbox) :=
  inferInstanceAs (Decidable (∀ row ∈ outbox.rows, _))

/-- A step compacts, if at all, without the last event and without a transition. -/
def CompactsSafely : RemoteOutboxOp → Prop
  | .compact runId maxProgressToRetain =>
    KeepsLast runId maxProgressToRetain history.outbox ∧
      KeepsTransitions runId maxProgressToRetain history.outbox
  | _ => True

/-- A newly assigned sequence exceeds every one assigned to its run before, and every
event that disappears was acknowledged progress. -/
def SequenceKept (op : RemoteOutboxOp) : Prop :=
  (∀ input sequence, op = .append input →
      (appendEventAuto input history.outbox).1 = .appended sequence →
      ∀ earlier, (input.runId, earlier) ∈ history.allocated → earlier < sequence) ∧
    ∀ row ∈ history.outbox,
      (∀ row' ∈ (remoteOutboxStep history op).outbox, Keyed.key row' ≠ Keyed.key row) →
      row.acknowledgedAt ≠ none ∧ row.kind = .progress

def WithinOutbox : Prop :=
  ∀ runId sequence, (runId, sequence) ∈ history.allocated →
    sequence ≤ getMaxSequence history.outbox runId

theorem withinOutbox_start (outbox : Outbox) : WithinOutbox (OutboxHistory.start outbox) := by
  intro runId sequence hallocated
  obtain ⟨row, hrow, hkey⟩ := List.mem_map.1 hallocated
  obtain ⟨rfl, rfl⟩ := Prod.mk.inj hkey
  exact le_getMaxSequence hrow

theorem withinOutbox_step {history : OutboxHistory} {op : RemoteOutboxOp} (h : WithinOutbox history)
    (hmeets : CompactsSafely history op) : WithinOutbox (remoteOutboxStep history op) := by
  intro runId sequence hallocated
  cases op with
  | append input =>
    rcases List.mem_append.1 hallocated with hold | hnew
    · exact (h runId sequence hold).trans (getMaxSequence_append input _ runId)
    cases hresult : (appendEventAuto input history.outbox).1 with
    | appended allocated =>
      rw [hresult, allocatedBy, List.mem_singleton] at hnew
      obtain ⟨rfl, rfl⟩ := Prod.mk.inj hnew
      exact le_getMaxSequence_of_appended hresult
    | idempotent allocated => simp [hresult, allocatedBy] at hnew
    | conflict => simp [hresult, allocatedBy] at hnew
  | acknowledge now acknowledged upToSequence =>
    exact (h runId sequence hallocated).trans
      (getMaxSequence_acknowledge now acknowledged upToSequence _ runId)
  | compact compacted count =>
    exact (h runId sequence hallocated).trans (getMaxSequence_compact hmeets.1 runId)

theorem kind_of_not_critical {kind : RemotePiEventKind} (h : kind ∉ criticalKinds) :
    kind = .progress ∨ kind = .cancelling := by
  cases kind <;> simp [criticalKinds] at h ⊢

theorem progress_of_compacted (hkeeps : KeepsTransitions runId count outbox) (hrow : row ∈ outbox)
    (hgone : row ∉ compactProgressEvents runId count outbox) :
    row.acknowledgedAt ≠ none ∧ row.kind = .progress := by
  rw [compactProgressEvents, Table.mem_deleteWhere] at hgone
  have hcompacted : compacts runId (keepSequences runId count outbox) row = true := by
    by_contra hspared
    exact hgone ⟨hrow, by simpa using hspared⟩
  rw [compacts, decide_eq_true_eq] at hcompacted
  obtain ⟨hrun, hkind, hacknowledged, hdropped⟩ := hcompacted
  have hsome : row.acknowledgedAt ≠ none := Option.isSome_iff_ne_none.1 hacknowledged
  rcases kind_of_not_critical hkind with hprogress | hcancelling
  · exact ⟨hsome, hprogress⟩
  · exact absurd (hkeeps row hrow hrun hcancelling hsome) hdropped

theorem sequenceKept_step {history : OutboxHistory} {op : RemoteOutboxOp} (h : WithinOutbox history)
    (hmeets : CompactsSafely history op) : SequenceKept history op := by
  constructor
  · rintro input sequence - hresult earlier hearlier
    have hle := h input.runId earlier hearlier
    rcases appendEventAuto_cases input history.outbox with hcase | ⟨stored, -, hcase⟩
    · simp [hcase] at hresult
    · simp only [hcase, AppendResult.appended.injEq] at hresult
      omega
  · intro row hrow hgone
    cases op with
    | append input => exact absurd rfl (hgone row (mem_appendEventAuto hrow))
    | acknowledge now acknowledged upToSequence =>
      obtain ⟨row', hrow', hkey⟩ := exists_key_acknowledge now acknowledged upToSequence hrow
      exact absurd hkey (hgone row' hrow')
    | compact compacted count =>
      exact progress_of_compacted hmeets.2 hrow fun hkept => hgone row hkept rfl

/-- Over every run of appends, acknowledgements and compactions whose compactions keep the
last event and the transitions, sequences are never reused and only acknowledged progress
is deleted. -/
theorem sequences_grow (outbox : Outbox) (ops : List RemoteOutboxOp)
    (hmeets : StepsMeet remoteOutboxStep CompactsSafely (OutboxHistory.start outbox) ops) :
    StepsMeet remoteOutboxStep SequenceKept (OutboxHistory.start outbox) ops :=
  stepsMeet_of_kept (fun _ _ => withinOutbox_step) (fun _ _ => sequenceKept_step) ops _
    (withinOutbox_start outbox) hmeets

def sampleInput (kind : RemotePiEventKind) : AppendInput where
  runId := "run"
  cardId := 7
  generation := 1
  originPeer := "peer"
  originRequestId := "request"
  kind := kind
  occurredAt := "2026-01-01T00:00:00.000Z"
  projection :=
    { status := .running, generation := 1, lastActivityAt := none, progress := none,
      pendingInput := none, resultSummary := none, errorSummary := none, usage := none,
      changedFilesSummary := none, resumeCapability := none, delivery := none }
  computeFields := fun sequence => (deriveEventId "run" sequence, "digest")

/-- Two progress events, both acknowledged, of which a compaction keeps the later. -/
theorem sequences_grow_compacted :
    StepsMeet remoteOutboxStep SequenceKept (OutboxHistory.start ∅)
      [.append (sampleInput .progress), .append (sampleInput .progress), .acknowledge 1 "run" 2,
        .compact "run" 1, .append (sampleInput .completed)] := by
  refine sequences_grow _ _ ⟨trivial, trivial, trivial, ⟨.inl (by decide), ?_⟩, trivial, trivial⟩
  decide +kernel

/-- A compaction that retains nothing deletes the acknowledged last event, and the next
append is given its sequence again; one that retains progress deletes an acknowledged
cancellation. -/
theorem sequence_reused :
    ¬ StepsMeet remoteOutboxStep SequenceKept (OutboxHistory.start ∅)
        [.append (sampleInput .progress), .acknowledge 1 "run" 1, .compact "run" 0,
          .append (sampleInput .completed)] ∧
      ¬ StepsMeet remoteOutboxStep SequenceKept (OutboxHistory.start ∅)
        [.append (sampleInput .cancelling), .append (sampleInput .progress),
          .acknowledge 1 "run" 2, .compact "run" 1] := by
  constructor
  · rintro ⟨-, -, -, ⟨hgrows, -⟩, -⟩
    have hreused := hgrows (sampleInput .completed) 1 rfl (by decide +kernel) 1 (by decide +kernel)
    omega
  rintro ⟨-, -, -, ⟨-, hkept⟩, -⟩
  have hdeleted := hkept (((sampleInput .cancelling).row 1).acknowledge 1)
    ((Table.mem_def _ _).2 (by decide +kernel))
    (by simp only [Table.mem_def]; decide +kernel)
  exact absurd hdeleted.2 (by decide)

end Abtars
