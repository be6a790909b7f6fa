import Abtars.Lib.JsonSize
import Abtars.Pi.Convergence
import Abtars.Pi.Outbox

/-!
# The event producer of remote Pi runs

The owner turns transitions of a delegated run, its progress and what a crash left out
into events of the outbox.  An event is sealed with the id and the digest its sequence
gives it; the projection it carries is built from the run as it stands.
-/

namespace Abtars

open Lib

inductive ResumeCapability
  | available | neverStarted | sessionMissing | policyChanged | unsupported
  deriving DecidableEq

structure PiRunRecord where
  id : String
  cardId : Nat
  originChatId : Option String
  originPeer : Option String
  originRequestId : Option String
  deliveryPolicy : Option DeliveryPolicy
  executionGeneration : Nat
  status : PiRunStatus
  resumeCapability : ResumeCapability
  pendingRequestId : Option String
  pendingRequestType : Option PendingInputType
  updatedAt : String
  lastRpcActivityAt : Option String
  resultSummary : Option String
  changedFilesSummary : Option String
  usage : Option Json
  error : Option String

/-! ## The public projection -/

def sanitizeString (value : Option String) (maxBytes : Nat) : Option String :=
  (nonEmpty value).map fun text =>
    if text.utf8ByteSize ≤ maxBytes then text
    else
      let truncated := sliceText text (utf16Length text * maxBytes / text.utf8ByteSize)
      sliceText truncated (utf16Length truncated - 3) ++ "..."

def jsonMember (name : String) : Json → Option Json
  | .obj members => (members.find? (·.1 = name)).map (·.2)
  | _ => none

def jsonText (name : String) (value : Json) : Option String :=
  match jsonMember name value with
  | some (.str text) => some text
  | _ => none

def jsonNumber (name : String) (value : Json) : Option Rat :=
  match jsonMember name value with
  | some (.num number) => some number
  | _ => none

def parseUsage (usage : Option Json) : Option RemotePiUsage :=
  usage.bind fun parsed =>
    let usage : RemotePiUsage :=
      { inputTokens := jsonNumber "input_tokens" parsed
        outputTokens := jsonNumber "output_tokens" parsed
        totalTokens := jsonNumber "total_tokens" parsed }
    if usage.inputTokens.isSome ∨ usage.outputTokens.isSome ∨ usage.totalTokens.isSome then
      some usage
    else none

def inputOption : Json → Option InputOption
  | .str text => some { id := text, label := text }
  | option =>
    (jsonText "id" option).map fun id =>
      { id, label := (sanitizeString (some ((jsonText "label" option).getD id)) 200).getD id }

def inputOptions (uiRequest : Json) : Option (List InputOption) :=
  match jsonMember "options" uiRequest with
  | some (.arr options) =>
    let named := (options.take maxInputOptions).filterMap inputOption
    if named = [] then none else some named
  | _ => none

def buildPendingInput (run : PiRunRecord) (uiRequest : Option Json) : Option PendingInput :=
  match nonEmpty run.pendingRequestId, run.pendingRequestType, run.status with
  | some requestId, some type, .awaitingInput =>
    some
      { requestId, type
        title := uiRequest.bind fun request =>
          (jsonText "title" request).bind fun title =>
            sanitizeString (some title) maxProjectionString
        prompt := uiRequest.bind fun request =>
          ((jsonText "description" request).or (jsonText "prompt" request)).bind fun prompt =>
            sanitizeString (some prompt) maxProjectionString
        options := uiRequest.bind inputOptions }
  | _, _, _ => none

/-- The delivery of a run that has ended: only what stays at the owner is delivered. -/
def buildDelivery (run : PiRunRecord) : RemotePiDelivery :=
  let policy := run.deliveryPolicy.getD .leaveRemote
  { policy
    status := if policy = .leaveRemote then .succeeded else .failed
    references := none
    error :=
      if policy = .leaveRemote then none
      else some ("Delivery policy '" ++ policy.text ++ "' is not available on this owner") }

def whenTerminal {α : Type} (run : PiRunRecord) (value : Option α) : Option α :=
  if run.status.isTerminal then value else none

def buildPublicProjection (run : PiRunRecord) (uiRequest : Option Json) :
    RemotePiPublicProjection where
  status := run.status
  generation := run.executionGeneration
  lastActivityAt := some ((nonEmpty run.lastRpcActivityAt).getD run.updatedAt)
  progress := none
  pendingInput := buildPendingInput run uiRequest
  resultSummary := whenTerminal run (sanitizeString run.resultSummary maxProjectionString)
  errorSummary :=
    whenTerminal run
      (if run.status = .completed then none else sanitizeString run.error maxProjectionString)
  usage := whenTerminal run (parseUsage run.usage)
  changedFilesSummary :=
    whenTerminal run (sanitizeString run.changedFilesSummary maxProjectionString)
  resumeCapability :=
    whenTerminal run
      (if run.resumeCapability = .available then
        some ("res_" ++ run.id ++ "_" ++ toString run.executionGeneration)
      else none)
  delivery := whenTerminal run (some (buildDelivery run))

/-- `coalesceProgress`, of the parsed payload; none is an empty or unreadable one. -/
def coalesceProgress (payload : Option Json) : Option RemotePiProgress :=
  payload.bind fun parsed =>
    let step := jsonText "step" parsed
    let message := jsonText "message" parsed
    let percent := jsonNumber "percent" parsed
    if step.isSome ∨ message.isSome ∨ percent.isSome then
      some
        { step := sanitizeString step 200
          message := sanitizeString message 1000
          percent := percent.map fun number => min 100 (max 0 (number.num.tdiv number.den)) }
    else none

/-! ## Events -/

structure EventDraft where
  runId : String
  cardId : Nat
  generation : Nat
  originPeer : String
  originRequestId : String
  kind : RemotePiEventKind
  occurredAt : String
  projection : RemotePiPublicProjection

def EventDraft.payload (draft : EventDraft) (sequence : Nat) : RemotePiEventPayload where
  eventId := deriveEventId draft.runId sequence
  originPeer := draft.originPeer
  originRequestId := draft.originRequestId
  runId := draft.runId
  remoteCardId := draft.cardId
  generation := draft.generation
  sequence := sequence
  kind := draft.kind
  occurredAt := draft.occurredAt
  projection := draft.projection

variable (digest : RemotePiEventPayload → String)

/-- The append of a draft: id and digest are computed from the allocated sequence. -/
def EventDraft.seal (draft : EventDraft) : AppendInput where
  runId := draft.runId
  cardId := draft.cardId
  generation := draft.generation
  originPeer := draft.originPeer
  originRequestId := draft.originRequestId
  kind := draft.kind
  occurredAt := draft.occurredAt
  projection := draft.projection
  computeFields := fun sequence =>
    (deriveEventId draft.runId sequence, digest (draft.payload sequence))

/-- `originRequestId ?? originChatId ?? id`. -/
def PiRunRecord.requestId (run : PiRunRecord) : String :=
  (run.originRequestId.or run.originChatId).getD run.id

inductive TransitionTarget
  | accepted
  | status (status : PiRunStatus)

def PiRunStatus.eventKind : PiRunStatus → RemotePiEventKind
  | .queued => .queued
  | .starting => .starting
  | .running => .running
  | .awaitingInput => .awaitingInput
  | .cancelling => .cancelling
  | .interrupted => .interrupted
  | .completed => .completed
  | .failed => .failed
  | .cancelled => .cancelled

def kindForTransition (fromStatus : Option PiRunStatus) (toStatus : TransitionTarget)
    (generationBumped : Bool) : Option RemotePiEventKind :=
  if generationBumped then some .resumed
  else
    match toStatus with
    | .accepted => some .accepted
    | .status status =>
      if fromStatus = some .awaitingInput ∧ status = .running then some .inputCleared
      else if fromStatus = some status then none
      else some status.eventKind

/-- The run as the event of a transition shows it: resumed, it has the status and the
generation it goes to. -/
def transitionedRun (run : PiRunRecord) (kind : RemotePiEventKind) (toStatus : TransitionTarget)
    (newGeneration : Option Nat) : PiRunRecord :=
  match kind, toStatus, newGeneration with
  | .resumed, .status status, some generation =>
    { run with status, executionGeneration := generation }
  | _, _, _ => run

def requestDetails (run : PiRunRecord) (uiRequest : Option Json) : Option Json :=
  if (nonEmpty run.pendingRequestId).isSome ∧ run.status = .awaitingInput then uiRequest else none

def boundedProjection (run : PiRunRecord) (uiRequest : Option Json) :
    Option RemotePiPublicProjection :=
  let projection := buildPublicProjection run (requestDetails run uiRequest)
  if (validatePublicProjection projection).isNone then some projection else none

structure TransitionInput where
  fromStatus : Option PiRunStatus
  toStatus : TransitionTarget
  newGeneration : Option Nat

def transitionDraft (input : TransitionInput) (run : PiRunRecord) (uiRequest : Option Json)
    (occurredAt : String) : Option EventDraft :=
  (nonEmpty run.originPeer).bind fun originPeer =>
    (kindForTransition input.fromStatus input.toStatus input.newGeneration.isSome).bind fun kind =>
      let shown := transitionedRun run kind input.toStatus input.newGeneration
      (boundedProjection shown uiRequest).map fun projection =>
        { runId := run.id
          cardId := run.cardId
          generation := shown.executionGeneration
          originPeer
          originRequestId := run.requestId
          kind
          occurredAt
          projection }

structure EventOrigin where
  originPeer : String
  originRequestId : String

/-- The event of a kind for a run of the given peer; progress is attached to its
projection once that is checked. -/
def eventDraft (kind : RemotePiEventKind) (origin : EventOrigin) (progressPayload : Option Json)
    (run : PiRunRecord) (uiRequest : Option Json) (occurredAt : String) : Option EventDraft :=
  if nonEmpty run.originPeer = some origin.originPeer then
    (boundedProjection run uiRequest).map fun projection =>
      { runId := run.id
        cardId := run.cardId
        generation := run.executionGeneration
        originPeer := origin.originPeer
        originRequestId := origin.originRequestId
        kind
        occurredAt
        projection :=
          if kind = .progress ∧ progressPayload.isSome then
            { projection with progress := coalesceProgress progressPayload }
          else projection }
  else none

/-! ## Production -/

def produce (draft : Option EventDraft) (outbox : Outbox) : Option Nat × Outbox :=
  match draft with
  | none => (none, outbox)
  | some draft =>
    match appendEventAuto (draft.seal digest) outbox with
    | (.appended sequence, stored) => (some sequence, stored)
    | (.idempotent sequence, stored) => (some sequence, stored)
    | (.conflict, stored) => (none, stored)

/-- What one call of the producer reads beside the run: the latest request of the run and
the time. -/
structure ProducerReads where
  uiRequest : String → Option Json
  occurredAt : String

variable (reads : ProducerReads)

/-- `emitTransitionInTx`, for the run read inside the transaction. -/
def emitTransitionInTx (input : TransitionInput) (run : PiRunRecord) (outbox : Outbox) : Outbox :=
  (produce digest
    (transitionDraft input run (reads.uiRequest run.id) reads.occurredAt) outbox).2

def produceEvent (kind : RemotePiEventKind) (origin : EventOrigin) (progressPayload : Option Json)
    (run : PiRunRecord) (outbox : Outbox) : Option Nat × Outbox :=
  produce digest
    (eventDraft kind origin progressPayload run (reads.uiRequest run.id) reads.occurredAt) outbox

/-- `produceFromTransition`: input that is answered is cleared, and the status is reported
where that is not the case or was refused. -/
def produceFromTransition (previousStatus : Option PiRunStatus) (origin : EventOrigin)
    (progressPayload : Option Json) (run : PiRunRecord) (outbox : Outbox) : Option Nat × Outbox :=
  if previousStatus = some run.status then (none, outbox)
  else if previousStatus = some .awaitingInput ∧ run.status = .running then
    match produceEvent digest reads .inputCleared origin none run outbox with
    | (some sequence, stored) => (some sequence, stored)
    | (none, stored) =>
      produceEvent digest reads run.status.eventKind origin progressPayload run stored
  else produceEvent digest reads run.status.eventKind origin progressPayload run outbox

def produceProgress (origin : EventOrigin) (progressPayload : Option Json) (run : PiRunRecord)
    (outbox : Outbox) : Option Nat × Outbox :=
  produceEvent digest reads .progress origin progressPayload run outbox

def produceResumed (newGeneration : Nat) (origin : EventOrigin) (run : PiRunRecord)
    (outbox : Outbox) : Option Nat × Outbox :=
  produceEvent digest reads .resumed origin none
    { run with executionGeneration := newGeneration, status := .queued } outbox

/-- The queued fact of a run whose creation a crash cut short, and its present status. -/
def recoverCreation (origin : EventOrigin) (run : PiRunRecord) (outbox : Outbox) : Outbox :=
  let queued := (produceEvent digest reads .queued origin none { run with status := .queued } outbox).2
  if run.status ≠ .queued then
    (produceFromTransition digest reads (some .queued) origin none run queued).2
  else queued

def latestEvent (outbox : Outbox) (runId : String) : Option OutboxRow :=
  if 0 < getMaxSequence outbox runId then outbox.get (runId, getMaxSequence outbox runId) else none

/-- What `recoverMissingEvents` does for one delegated run: a run without events gets its
creation facts, one whose latest event shows another status or generation a new event. -/
def recoverRun (run : PiRunRecord) (originPeer : String) (outbox : Outbox) : Outbox :=
  let origin : EventOrigin := { originPeer, originRequestId := run.requestId }
  match latestEvent outbox run.id with
  | none =>
    let accepted :=
      (produceEvent digest reads .accepted origin none { run with status := .queued } outbox).2
    recoverCreation digest reads origin run accepted
  | some latest =>
    if latest.kind = .accepted then recoverCreation digest reads origin run outbox
    else if latest.projection.status ≠ run.status ∨
        latest.generation ≠ run.executionGeneration then
      (produceFromTransition digest reads (some latest.projection.status) origin none run outbox).2
    else outbox

/-- `recoverMissingEvents`, over the runs of the store. -/
def recoverMissingEvents (originPeer : Option String) (runs : List PiRunRecord) (outbox : Outbox) :
    Outbox :=
  runs.foldl (fun outbox run =>
    match nonEmpty run.originPeer with
    | none => outbox
    | some peer =>
      if (nonEmpty originPeer).any (· ≠ peer) then outbox
      else recoverRun digest reads run peer outbox) outbox

inductive ProducerCall
  | emitTransition (reads : ProducerReads) (input : TransitionInput) (run : PiRunRecord)
  | event (reads : ProducerReads) (kind : RemotePiEventKind) (origin : EventOrigin)
      (progressPayload : Option Json) (run : PiRunRecord)
  | fromTransition (reads : ProducerReads) (previousStatus : Option PiRunStatus)
      (origin : EventOrigin) (progressPayload : Option Json) (run : PiRunRecord)
  | progress (reads : ProducerReads) (origin : EventOrigin) (progressPayload : Option Json)
      (run : PiRunRecord)
  | resumed (reads : ProducerReads) (newGeneration : Nat) (origin : EventOrigin)
      (run : PiRunRecord)
  | recover (reads : ProducerReads) (originPeer : Option String) (runs : List PiRunRecord)

def producerStep (outbox : Outbox) :
    ProducerCall → Outbox
  | .emitTransition reads input run => emitTransitionInTx digest reads input run outbox
  | .event reads kind origin progressPayload run =>
    (produceEvent digest reads kind origin progressPayload run outbox).2
  | .fromTransition reads previousStatus origin progressPayload run =>
    (produceFromTransition digest reads previousStatus origin progressPayload run outbox).2
  | .progress reads origin progressPayload run =>
    (produceProgress digest reads origin progressPayload run outbox).2
  | .resumed reads newGeneration origin run =>
    (produceResumed digest reads newGeneration origin run outbox).2
  | .recover reads originPeer runs => recoverMissingEvents digest reads originPeer runs outbox

/-- The events of a run as `buildEventEnvelope` sends them, in the order of the table. -/
def eventLog (runId : String) (outbox : Outbox) : List RemotePiEvent :=
  (outbox.select (·.runId = runId)).map OutboxRow.toRemotePiEvent

section Runs

variable (digest : RemotePiEventPayload → String)

theorem produce_cases (draft : Option EventDraft) (outbox : Outbox) :
    (produce digest draft outbox).2 = outbox ∨
      ∃ sealed : AppendInput,
        (produce digest draft outbox).2.rows =
          outbox.rows ++ [sealed.row (getMaxSequence outbox sealed.runId + 1)] := by
  cases draft with
  | none => exact .inl rfl
  | some draft =>
    rw [produce]
    rcases appendEventAuto_cases (draft.seal digest) outbox with hcase | ⟨stored, hrows, hcase⟩
    · exact .inl (by rw [hcase])
    · exact .inr ⟨draft.seal digest, by rw [hcase]; exact hrows⟩

structure EventDraft.Checked (draft : EventDraft) : Prop where
  named : draft.originPeer ≠ ""
  generation : draft.projection.generation = draft.generation
  bounded : validatePublicProjection draft.projection = none

/-- A cut text keeps to its bound in code units, and may have four bytes for each. -/
theorem sanitizeString_le {value : Option String} {maxBytes : Nat} {text : String}
    (h : sanitizeString value maxBytes = some text) : text.utf8ByteSize ≤ 4 * maxBytes + 3 := by
  obtain ⟨whole, -, rfl⟩ := Option.map_eq_some_iff.1 h
  split
  · omega
  dsimp only
  have hunits : utf16Length whole * maxBytes / whole.utf8ByteSize ≤ maxBytes :=
    Nat.div_le_of_le_mul (Nat.mul_le_mul_right _ (utf8ByteSize_le whole).2)
  set truncated := sliceText whole (utf16Length whole * maxBytes / whole.utf8ByteSize) with hcut
  have hfirst : utf16Length truncated ≤ maxBytes :=
    (utf16Length_sliceText_le _ _).trans hunits
  have hsecond := utf16Length_sliceText_le truncated (utf16Length truncated - 3)
  have hbytes := (utf8ByteSize_le (sliceText truncated (utf16Length truncated - 3))).1
  have hdots : "...".utf8ByteSize = 3 := rfl
  rw [String.utf8ByteSize_append, hdots]
  omega

/-- Progress needs no check of its own. -/
theorem validateProgress_coalesced (payload : Option Json) :
    (coalesceProgress payload).bind validateProgress = none := by
  have hbounded : ∀ {value : Option String} {maxBytes : Nat} (fieldName : String),
      maxBytes ≤ 1000 → validateBoundedString (sanitizeString value maxBytes) fieldName = none := by
    intro value maxBytes fieldName hmax
    refine if_neg fun hlong => ?_
    obtain ⟨text, htext, hlong⟩ := (Option.any_eq_true _ _).1 hlong
    have hsize := sanitizeString_le htext
    have hover : 5000 < text.utf8ByteSize := of_decide_eq_true hlong
    omega
  cases payload with
  | none => rfl
  | some parsed =>
    unfold coalesceProgress
    simp only [Option.bind_some]
    split
    · have hpercent : refuseIf (((jsonNumber "percent" parsed).map fun number =>
          min 100 (max 0 (number.num.tdiv number.den))).any fun percent =>
            percent < 0 ∨ 100 < percent) "progress.percent must be a number in [0, 100]" = none := by
        refine if_neg fun hout => ?_
        obtain ⟨percent, hmem, hout⟩ := (Option.any_eq_true _ _).1 hout
        obtain ⟨number, -, rfl⟩ := Option.map_eq_some_iff.1 hmem
        have hrange := of_decide_eq_true hout
        omega
      simp only [Option.bind_some, validateProgress, hbounded _ (show 200 ≤ 1000 by decide),
        hbounded _ (Nat.le_refl 1000), hpercent, firstRefusal]
      rfl
    · rfl

theorem validate_coalesced {projection : RemotePiPublicProjection} (payload : Option Json)
    (h : validatePublicProjection projection = none) :
    validatePublicProjection { projection with progress := coalesceProgress payload } = none := by
  simp only [validatePublicProjection, firstRefusal, List.findSome?_eq_none_iff,
    List.forall_mem_cons, id] at h ⊢
  exact ⟨h.1, h.2.1, h.2.2.1, h.2.2.2.1, h.2.2.2.2.1, validateProgress_coalesced payload,
    h.2.2.2.2.2.2⟩

variable {run : PiRunRecord} {uiRequest : Option Json}

theorem boundedProjection_some {projection : RemotePiPublicProjection}
    (h : boundedProjection run uiRequest = some projection) :
    validatePublicProjection projection = none ∧
      projection.generation = run.executionGeneration := by
  unfold boundedProjection at h
  dsimp only at h
  split at h
  · rename_i hvalid
    cases h
    exact ⟨Option.isNone_iff_eq_none.1 hvalid, rfl⟩
  · cases h

theorem ne_of_nonEmpty {value : Option String} {text : String} (h : nonEmpty value = some text) :
    text ≠ "" := by
  simpa using (Option.filter_eq_some_iff.1 h).2

theorem checked_eventDraft {kind : RemotePiEventKind} {origin : EventOrigin}
    {progressPayload : Option Json} {occurredAt : String} :
    ∀ draft ∈ eventDraft kind origin progressPayload run uiRequest occurredAt, draft.Checked := by
  intro draft hdraft
  unfold eventDraft at hdraft
  split at hdraft
  · rename_i hpeer
    obtain ⟨projection, hprojection, rfl⟩ := Option.map_eq_some_iff.1 hdraft
    obtain ⟨hvalid, hgeneration⟩ := boundedProjection_some hprojection
    refine ⟨ne_of_nonEmpty hpeer, ?_, ?_⟩ <;> dsimp only <;> split
    · exact hgeneration
    · exact hgeneration
    · exact validate_coalesced progressPayload hvalid
    · exact hvalid
  · cases hdraft

theorem checked_transitionDraft {input : TransitionInput} {occurredAt : String} :
    ∀ draft ∈ transitionDraft input run uiRequest occurredAt, draft.Checked := by
  intro draft hdraft
  obtain ⟨peer, hpeer, hdraft⟩ := Option.bind_eq_some_iff.1 hdraft
  obtain ⟨kind, -, hdraft⟩ := Option.bind_eq_some_iff.1 hdraft
  obtain ⟨projection, hprojection, rfl⟩ := Option.map_eq_some_iff.1 hdraft
  obtain ⟨hvalid, hgeneration⟩ := boundedProjection_some hprojection
  exact ⟨ne_of_nonEmpty hpeer, hgeneration, hvalid⟩

/-- What every append of a draft keeps, every call of the producer keeps. -/
theorem producerStep_keeps {I : Outbox → Prop}
    (hproduce : ∀ draft outbox, (∀ d ∈ draft, d.Checked) → I outbox →
      I (produce digest draft outbox).2) (outbox : Outbox)
    (call : ProducerCall) (h : I outbox) : I (producerStep digest outbox call) := by
  have hevent : ∀ reads kind origin payload run outbox, I outbox →
      I (produceEvent digest reads kind origin payload run outbox).2 :=
    fun _ _ _ _ _ _ h => hproduce _ _ checked_eventDraft h
  have htransition : ∀ reads previous origin payload run outbox, I outbox →
      I (produceFromTransition digest reads previous origin payload run outbox).2 := by
    intro reads previous origin payload run outbox h
    rw [produceFromTransition]
    split_ifs with hsame hanswered
    · exact h
    · have hcleared := hevent reads .inputCleared origin none run outbox h
      cases hresult : produceEvent digest reads .inputCleared origin none run outbox with
      | mk sequence stored =>
        rw [hresult] at hcleared
        cases sequence with
        | some sequence => exact hcleared
        | none => exact hevent _ _ _ _ _ _ hcleared
    · exact hevent _ _ _ _ _ _ h
  have hcreation : ∀ reads origin run outbox, I outbox →
      I (recoverCreation digest reads origin run outbox) := by
    intro reads origin run outbox h
    rw [recoverCreation]
    split
    · exact htransition _ _ _ _ _ _ (hevent _ _ _ _ _ _ h)
    · exact hevent _ _ _ _ _ _ h
  have hrun : ∀ reads run peer outbox, I outbox →
      I (recoverRun digest reads run peer outbox) := by
    intro reads run peer outbox h
    rw [recoverRun]
    cases latestEvent outbox run.id with
    | none => exact hcreation _ _ _ _ (hevent _ _ _ _ _ _ h)
    | some latest =>
      simp only []
      split_ifs
      · exact hcreation _ _ _ _ h
      · exact htransition _ _ _ _ _ _ h
      · exact h
  cases call with
  | emitTransition reads input run => exact hproduce _ _ checked_transitionDraft h
  | fromTransition reads previous origin payload run => exact htransition _ _ _ _ _ _ h
  | recover reads originPeer runs =>
    -- each run of the store is repaired in turn
    change I (recoverMissingEvents digest reads originPeer runs outbox)
    rw [recoverMissingEvents]
    induction runs generalizing outbox with
    | nil => exact h
    | cons run rest ih =>
      rw [List.foldl_cons]
      apply ih
      cases nonEmpty run.originPeer with
      | none => exact h
      | some peer =>
        simp only []
        split
        · exact h
        · exact hrun _ _ _ _ h
  | _ => exact hevent _ _ _ _ _ _ h

def Sequenced (outbox : Outbox) : Prop :=
  ∀ runId, (outbox.select (·.runId = runId)).map (·.sequence) =
    List.range' 1 (outbox.select (·.runId = runId)).length

theorem foldr_max_range' (count : Nat) : (List.range' 1 count).foldr max 0 = count := by
  induction count with
  | zero => rfl
  | succ count ih =>
    rw [List.range'_1_concat, List.foldr_append, List.foldr_cons, List.foldr_nil]
    have hpull : ∀ (numbers : List Nat) (last : Nat),
        numbers.foldr max (max last 0) = max (numbers.foldr max 0) last := by
      intro numbers last
      induction numbers with
      | nil => simp
      | cons first rest ih => rw [List.foldr_cons, List.foldr_cons, ih, max_assoc]
    rw [hpull, ih]
    omega

theorem Sequenced.getMaxSequence {outbox : Outbox} (h : Sequenced outbox) (runId : String) :
    getMaxSequence outbox runId = (outbox.select (·.runId = runId)).length := by
  rw [Abtars.getMaxSequence, h runId, foldr_max_range']

theorem sequenced_produce (draft : Option EventDraft) (outbox : Outbox) (h : Sequenced outbox) :
    Sequenced (produce digest draft outbox).2 := by
  rcases produce_cases digest draft outbox with heq | ⟨appended, hrows⟩
  · rw [heq]
    exact h
  intro runId
  rw [Table.select, hrows, List.filter_append]
  have hold := h runId
  rw [Table.select] at hold
  by_cases hrun : appended.runId = runId
  · subst hrun
    have hnew : [appended.row (getMaxSequence outbox appended.runId + 1)].filter
        (fun row => decide (row.runId = appended.runId)) =
          [appended.row (getMaxSequence outbox appended.runId + 1)] := by
      simp [AppendInput.row]
    rw [hnew, List.map_append, hold, List.length_append, List.length_singleton,
      List.range'_1_concat, h.getMaxSequence, Table.select, Nat.add_comm 1]
    rfl
  · have hnew : [appended.row (getMaxSequence outbox appended.runId + 1)].filter
        (fun row => decide (row.runId = runId)) = [] := by
      simp [AppendInput.row, hrun]
    rw [hnew, List.append_nil]
    exact hold

theorem sequenced_empty : Sequenced ∅ := fun _ => rfl

theorem sequenced_run (calls : List ProducerCall) :
    Sequenced (runFrom (producerStep digest) ∅ calls) :=
  invariant_of_step (producerStep_keeps digest fun draft outbox _ => sequenced_produce digest draft
    outbox) calls ∅ sequenced_empty

theorem Sequenced.consecutive {outbox : Outbox} (h : Sequenced outbox) (runId : String) :
    Consecutive runId (eventLog runId outbox) := by
  constructor
  · intro event hevent
    obtain ⟨row, hrow, rfl⟩ := List.mem_map.1 hevent
    simpa using ((Table.mem_select _ _ _).1 hrow).2
  · rw [eventLog, List.map_map, List.length_map]
    exact h runId

end Runs

/-- For every log the producer leaves of a run, the origin converges on it, in whatever
order and however often its events are delivered, exactly when each event is valid and
may follow the one before it. -/
theorem origin_converges_iff (digest : RemotePiEventPayload → String) (calls : List ProducerCall)
    (runId : String) :
    Converges digest runId (eventLog runId (runFrom (producerStep digest) ∅ calls)) ↔
      Admissible digest (eventLog runId (runFrom (producerStep digest) ∅ calls)) :=
  converges_iff_admissible ((sequenced_run digest calls).consecutive runId)

def delegatedRun (status : PiRunStatus) : PiRunRecord where
  id := "run"
  cardId := 7
  originChatId := none
  originPeer := some "peer"
  originRequestId := some "request"
  deliveryPolicy := none
  executionGeneration := 1
  status := status
  resumeCapability := .neverStarted
  pendingRequestId := none
  pendingRequestType := none
  updatedAt := "2026-01-01T00:00:00.000Z"
  lastRpcActivityAt := none
  resultSummary := none
  changedFilesSummary := none
  usage := none
  error := none

def delegatedReads : ProducerReads where
  uiRequest := fun _ => none
  occurredAt := "2026-01-01T00:00:00.000Z"

def lateProgressCalls : List ProducerCall :=
  [.emitTransition delegatedReads ⟨none, .accepted, none⟩ (delegatedRun .queued),
    .emitTransition delegatedReads ⟨none, .status .queued, none⟩ (delegatedRun .queued),
    .emitTransition delegatedReads ⟨some .queued, .status .starting, none⟩ (delegatedRun .starting),
    .emitTransition delegatedReads ⟨some .starting, .status .running, none⟩ (delegatedRun .running),
    .emitTransition delegatedReads ⟨some .running, .status .completed, none⟩
      (delegatedRun .completed),
    .progress delegatedReads ⟨"peer", "request"⟩
      (some (.obj [("step", .str "done")])) (delegatedRun .completed)]

/-- Progress reported after a run's end is an event the origin never takes: even the whole
log, delivered in order, leaves the origin one event short. -/
theorem late_progress_wedges :
    ¬ ∀ (digest : RemotePiEventPayload → String) (calls : List ProducerCall) (runId : String),
      Converges digest runId (eventLog runId (runFrom (producerStep digest) ∅ calls)) := by
  intro hall
  have hadm := admissible_of_converges
    ((sequenced_run (fun payload => "sha256:" ++ payload.eventId)
      lateProgressCalls).consecutive "run") (hall _ lateProgressCalls "run")
  have hlast := List.isChain_iff_getElem.1 hadm.2 4 (by decide +kernel)
  exact absurd hlast (by decide +kernel)

end Abtars
