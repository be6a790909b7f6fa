import Abtars.Pi.Producer
import Abtars.Lib.JsonSize

/-!
# Produced events at the origin

The producer hashes an event as the object it holds, where a member may be undefined; the origin
hashes what was read back from the row of the event, and then from the wire.
-/

namespace Abtars

open Lib

/-! ## Values of the host -/

inductive JsValue
  | undefined
  | null
  | bool (b : Bool)
  | num (q : Rat)
  | str (s : String)
  | arr (items : List JsValue)
  | obj (members : List (String × JsValue))

namespace JsValue

mutual

/-- What `JSON.stringify` writes: a member that is undefined is left out, and an item is null. -/
def written : JsValue → Json
  | .undefined | .null => .null
  | .bool b => .bool b
  | .num q => .num q
  | .str s => .str s
  | .arr items => .arr (writtenItems items)
  | .obj members => .obj (writtenMembers members)

def writtenItems : List JsValue → List Json
  | [] => []
  | v :: vs => written v :: writtenItems vs

def writtenMembers : List (String × JsValue) → List (String × Json)
  | [] => []
  | (_, .undefined) :: ms => writtenMembers ms
  | (k, v) :: ms => (k, written v) :: writtenMembers ms

end

mutual

def ofJson : Json → JsValue
  | .null => .null
  | .bool b => .bool b
  | .num q => .num q
  | .str s => .str s
  | .arr items => .arr (ofItems items)
  | .obj members => .obj (ofMembers members)

def ofItems : List Json → List JsValue
  | [] => []
  | v :: vs => ofJson v :: ofItems vs

def ofMembers : List (String × Json) → List (String × JsValue)
  | [] => []
  | (k, v) :: ms => (k, ofJson v) :: ofMembers ms

end

/-- `JSON.parse(JSON.stringify(value))`. -/
def reread (value : JsValue) : JsValue := ofJson value.written

mutual

theorem written_ofJson : ∀ v : Json, (ofJson v).written = v
  | .null | .bool _ | .num _ | .str _ => rfl
  | .arr items => congrArg Json.arr (writtenItems_ofItems items)
  | .obj members => congrArg Json.obj (writtenMembers_ofMembers members)

theorem writtenItems_ofItems : ∀ vs : List Json, writtenItems (ofItems vs) = vs
  | [] => rfl
  | v :: vs => by rw [ofItems, writtenItems, written_ofJson v, writtenItems_ofItems vs]

theorem writtenMembers_ofMembers : ∀ ms : List (String × Json), writtenMembers (ofMembers ms) = ms
  | [] => rfl
  | (k, v) :: ms => by
    have hkept : writtenMembers ((k, ofJson v) :: ofMembers ms) =
        (k, (ofJson v).written) :: writtenMembers (ofMembers ms) := by
      cases v <;> rfl
    rw [ofMembers, hkept, written_ofJson v, writtenMembers_ofMembers ms]

end

theorem written_reread (value : JsValue) : value.reread.written = value.written :=
  written_ofJson value.written

/-- An absent member is undefined. -/
def absentOr {α : Type} (f : α → JsValue) : Option α → JsValue
  | none => .undefined
  | some a => f a

end JsValue

open JsValue

/-! ## Events as values -/

def RemotePiEventKind.text : RemotePiEventKind → String
  | .accepted => "accepted"
  | .queued => "queued"
  | .starting => "starting"
  | .running => "running"
  | .progress => "progress"
  | .awaitingInput => "awaiting_input"
  | .inputCleared => "input_cleared"
  | .cancelling => "cancelling"
  | .interrupted => "interrupted"
  | .resumed => "resumed"
  | .completed => "completed"
  | .failed => "failed"
  | .cancelled => "cancelled"

def PendingInputType.text : PendingInputType → String
  | .select => "select"
  | .confirm => "confirm"
  | .input => "input"
  | .editor => "editor"

def DeliveryStatus.text : DeliveryStatus → String
  | .pending => "pending"
  | .succeeded => "succeeded"
  | .failed => "failed"
  | .notRequested => "not_requested"

def RemotePiProgress.value (progress : RemotePiProgress) : JsValue :=
  .obj [("step", absentOr .str progress.step), ("message", absentOr .str progress.message),
    ("percent", absentOr (fun n : Int => .num n) progress.percent)]

def PendingInput.value (pending : PendingInput) : JsValue :=
  .obj [("request_id", .str pending.requestId), ("type", .str pending.type.text),
    ("title", absentOr .str pending.title), ("prompt", absentOr .str pending.prompt),
    ("options", absentOr (fun options => .arr (options.map fun option =>
      .obj [("id", .str option.id), ("label", .str option.label)])) pending.options)]

def RemotePiUsage.value (usage : RemotePiUsage) : JsValue :=
  .obj [("input_tokens", absentOr .num usage.inputTokens),
    ("output_tokens", absentOr .num usage.outputTokens),
    ("total_tokens", absentOr .num usage.totalTokens)]

def DeliveryReference.value (reference : DeliveryReference) : JsValue :=
  .obj [("kind", .str reference.kind), ("id", .str reference.id),
    ("sha256", absentOr .str reference.sha256),
    ("size", absentOr (fun n : Nat => .num n) reference.size)]

def RemotePiDelivery.value (delivery : RemotePiDelivery) : JsValue :=
  .obj [("policy", .str delivery.policy.text), ("status", .str delivery.status.text),
    ("references", absentOr (fun references => .arr (references.map DeliveryReference.value))
      delivery.references),
    ("error", absentOr .str delivery.error)]

/-- The members in the order in which the producer sets them. -/
def RemotePiPublicProjection.value (projection : RemotePiPublicProjection) : JsValue :=
  .obj [("status", .str projection.status.text), ("generation", .num projection.generation),
    ("last_activity_at", absentOr .str projection.lastActivityAt),
    ("pending_input", absentOr PendingInput.value projection.pendingInput),
    ("result_summary", absentOr .str projection.resultSummary),
    ("error_summary", absentOr .str projection.errorSummary),
    ("usage", absentOr RemotePiUsage.value projection.usage),
    ("changed_files_summary", absentOr .str projection.changedFilesSummary),
    ("resume_capability", absentOr .str projection.resumeCapability),
    ("delivery", absentOr RemotePiDelivery.value projection.delivery),
    ("progress", absentOr RemotePiProgress.value projection.progress)]

section Hashes

variable (renderFraction : Rat → String) (sha256 : String → String) (event : RemotePiEventPayload)

/-- `canonicalEventPayload`, for the projection as it is held. -/
def canonicalEventPayload (projection : JsValue) : String :=
  Json.stringify renderFraction (written (.obj
    [("version", .num 1), ("event_id", .str event.eventId),
      ("origin_peer", .str event.originPeer), ("origin_request_id", .str event.originRequestId),
      ("run_id", .str event.runId), ("remote_card_id", .num event.remoteCardId),
      ("generation", .num event.generation), ("sequence", .num event.sequence),
      ("kind", .str event.kind.text), ("occurred_at", .str event.occurredAt),
      ("projection", projection)]))

def computeEventHash : String :=
  sha256 (canonicalEventPayload renderFraction event event.projection.value)

/-- The hash that `verifyEventHash` computes at the origin: the projection was read from its row and
from the wire. -/
def receivedEventHash : String :=
  sha256 (canonicalEventPayload renderFraction event event.projection.value.reread.reread)

theorem receivedEventHash_eq :
    receivedEventHash renderFraction sha256 event = computeEventHash renderFraction sha256 event := by
  have hkept : event.projection.value.reread.reread.written = event.projection.value.written := by
    rw [written_reread, written_reread]
  have hmember : writtenMembers [("projection", event.projection.value.reread.reread)] =
      writtenMembers [("projection", event.projection.value)] := by
    change [("projection", event.projection.value.reread.reread.written)] =
      [("projection", event.projection.value.written)]
    rw [hkept]
  unfold receivedEventHash computeEventHash canonicalEventPayload
  simp only [written, writtenMembers] at hmember ⊢
  rw [hmember]

end Hashes

/-! ## Rows of the outbox -/

/-- What the producer leaves of an event in its row. -/
structure OutboxRow.IsSealed (digest : RemotePiEventPayload → String) (row : OutboxRow) : Prop where
  named : row.originPeer ≠ ""
  generation : row.projection.generation = row.generation
  bounded : validatePublicProjection row.projection = none
  derived : row.eventId = deriveEventId row.runId row.sequence
  numbered : 0 < row.sequence
  hashed : row.contentSha256 = digest row.toRemotePiEventPayload

theorem sealed_run (digest : RemotePiEventPayload → String) (calls : List ProducerCall) :
    ∀ row ∈ runFrom (producerStep digest) ∅ calls, row.IsSealed digest := by
  refine invariant_of_step (I := fun outbox : Outbox => ∀ row ∈ outbox, row.IsSealed digest)
    (producerStep_keeps digest fun draft outbox hdraft h => ?_) calls ∅
    fun row hrow => absurd hrow (Table.not_mem_empty row)
  cases draft with
  | none => exact h
  | some draft =>
    obtain ⟨hnamed, hgeneration, hbounded⟩ := hdraft draft rfl
    rw [produce]
    rcases appendEventAuto_cases (draft.seal digest) outbox with hcase | ⟨stored, hrows, hcase⟩
    · rw [hcase]
      exact h
    rw [hcase]
    intro row hrow
    rw [Table.mem_def, hrows, List.mem_append, List.mem_singleton] at hrow
    rcases hrow with hold | rfl
    · exact h row hold
    · exact ⟨hnamed, hgeneration, hbounded, rfl, Nat.succ_pos _, rfl⟩

/-- **A produced event has the same hash at the origin, and is valid there just where its row names
run, request and time and numbers its card and generation.** -/
theorem event_valid_iff (renderFraction : Rat → String) (sha256 : String → String)
    (hhex : ∀ text, sha256 text ≠ "") (calls : List ProducerCall) (row : OutboxRow)
    (hrow : row ∈ runFrom (producerStep (computeEventHash renderFraction sha256)) ∅ calls) :
    receivedEventHash renderFraction sha256 row.toRemotePiEventPayload = row.contentSha256 ∧
      (row.isValid (receivedEventHash renderFraction sha256) = true ↔
        row.runId ≠ "" ∧ row.originRequestId ≠ "" ∧ row.occurredAt ≠ "" ∧ row.remoteCardId ≠ 0 ∧
          row.generation ≠ 0) := by
  obtain ⟨hnamed, hgeneration, hbounded, hderived, hnumbered, hhashed⟩ := sealed_run _ calls row hrow
  have hhash := (receivedEventHash_eq renderFraction sha256 row.toRemotePiEventPayload).trans
    hhashed.symm
  have hid : row.eventId ≠ "" := by
    rw [hderived]
    simp [deriveEventId]
  have hsha : row.contentSha256 ≠ "" := by
    rw [hhashed]
    exact hhex _
  refine ⟨hhash, ?_⟩
  simp only [RemotePiEvent.isValid, Option.isNone_iff_eq_none, validateEvent, firstRefusal,
    List.findSome?_eq_none_iff, List.forall_mem_cons, id, hbounded, true_and, hhash]
  have hrefuse : ∀ (p : Prop) [Decidable p] (message : String),
      refuseIf p message = none ↔ ¬ p := fun p _ message => by
    unfold refuseIf
    split <;> simp_all
  simp only [hrefuse, hid, hsha, hnamed, hgeneration, ← hderived, false_or, ne_eq,
    not_true_eq_false, not_false_eq_true, Nat.lt_one_iff, hnumbered.ne', or_false,
    not_or, List.not_mem_nil, false_imp_iff, implies_true, and_true]
  tauto

def acceptedCall (run : PiRunRecord) : ProducerCall :=
  .emitTransition delegatedReads ⟨none, .accepted, none⟩ run

def plainEventHash : RemotePiEventPayload → String :=
  computeEventHash (fun _ => "0.5") fun _ => "sha256"

theorem event_valid_iff_accepted :
    ∃ row ∈ runFrom (producerStep plainEventHash) ∅ [acceptedCall (delegatedRun .queued)],
      row.isValid (receivedEventHash (fun _ => "0.5") fun _ => "sha256") = true := by
  have hnames : ∃ row ∈ (runFrom (producerStep plainEventHash) ∅
      [acceptedCall (delegatedRun .queued)]).rows, row.runId ≠ "" ∧ row.originRequestId ≠ "" ∧
        row.occurredAt ≠ "" ∧ row.remoteCardId ≠ 0 ∧ row.generation ≠ 0 := by
    decide +kernel
  obtain ⟨row, hrow, hnames⟩ := hnames
  exact ⟨row, hrow, (event_valid_iff _ _ (fun _ => by decide) _ row hrow).2.2 hnames⟩

/-- The event of a run whose request has an empty id is stored, and never valid. -/
theorem unnamed_request_rejected :
    ¬ ∀ (renderFraction : Rat → String) (sha256 : String → String),
      (∀ text, sha256 text ≠ "") → ∀ (calls : List ProducerCall) (row : OutboxRow),
        row ∈ runFrom (producerStep (computeEventHash renderFraction sha256)) ∅ calls →
          row.isValid (receivedEventHash renderFraction sha256) = true := by
  intro hall
  have hvalid : ∀ row ∈ (runFrom (producerStep plainEventHash) ∅
      [acceptedCall { delegatedRun .queued with originRequestId := some "" }]).rows,
        row.isValid (receivedEventHash (fun _ => "0.5") fun _ => "sha256") = true :=
    hall (fun _ => "0.5") (fun _ => "sha256") (fun _ => by decide) _
  exact absurd hvalid (by decide +kernel)

end Abtars
