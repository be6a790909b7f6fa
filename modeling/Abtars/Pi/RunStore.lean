import Abtars.Board.Transition
import Abtars.Lib.Transaction
import Abtars.Pi.Producer

/-!
# The store of Pi runs

A Pi run is a row beside its card and, while it starts or runs, a claim on its workspace.
The calls that move a run tell the producer of its transition, which appends the event of a
delegated run to the outbox.  Most of them do so inside one transaction; the calls on pending
requests and the release of a workspace do not open one.

`piCall` runs a call of the store with what it reads of its surroundings.
-/

namespace Abtars

open Lib

inductive PiRunOrigin
  | user | agent | peer | supervised
  deriving DecidableEq

inductive GenerationIntent
  | initial | resume
  deriving DecidableEq

inductive UiReplyOutcome
  | claimed | deliveryUnknown
  deriving DecidableEq

/-- A row of `pi_runs`: what the producer reads of a run, and what else the store keeps. -/
structure PiRun extends PiRunRecord where
  origin : PiRunOrigin
  generationIntent : GenerationIntent
  currentSessionId : Option String
  piSessionId : Option String
  piSessionFile : Option String
  observedPid : Option Nat
  modelProvider : Option String
  modelId : Option String
  thinking : Option String
  lastUiReplyRequestId : Option String
  lastUiReplyGeneration : Option Nat
  lastUiReplyOutcome : Option UiReplyOutcome

instance : Keyed PiRun String := ⟨fun run => run.id⟩

@[simp]
theorem key_piRun (run : PiRun) : Keyed.key run = run.id := rfl

inductive ClaimOwnerKind
  | standalone | supervised | interactive

/-- A row of `pi_workspace_claims`. -/
structure WorkspaceClaim where
  canonicalPath : String
  ownerId : String
  generation : Nat
  ownerKind : ClaimOwnerKind

instance : Keyed WorkspaceClaim String := ⟨WorkspaceClaim.canonicalPath⟩

structure PiRunStore where
  runs : Table PiRun
  claims : Table WorkspaceClaim
  outbox : Outbox
  db : Db
  nextCardId : Nat

abbrev LostCapability := { capability : ResumeCapability // capability ≠ .available }

inductive SessionProof
  | ok (sessionId canonicalFile : String)
  | lost (capability : LostCapability)

def SessionProof.capability : SessionProof → ResumeCapability
  | .ok _ _ => .available
  | .lost capability => capability

structure PiHost where
  digest : RemotePiEventPayload → String
  redactSecrets : String → String

/-- What one call reads of its surroundings: the reads of the producer, the time as the tables
keep it, the persisted sessions (`validatePersistedSession` of an id and a file), and whether
the database fails the insert of an event. -/
structure PiReads where
  producer : ProducerReads
  now : String
  at_ : Millis
  session : Option String → Option String → SessionProof
  failsInsert : Bool

inductive PiStoreError
  /-- The sentinel that rolls the transaction back and never leaves the store. -/
  | rollback
  | invalidProjection
  | eventConflict
  | eventInsert
  | thrown (message : String)

section Store

variable (host : PiHost) (reads : PiReads)

/-! ## Events and cards inside a transaction -/

variable (runId : String)

/-- `emitTransitionInTx` of the wired producer, for the run as the connection sees it: what
bounds the projection and what stores the event may throw. -/
def emitInTx (input : TransitionInput) (s : PiRunStore) : Except PiStoreError PiRunStore :=
  match s.runs.get runId with
  | none => .ok s
  | some run =>
    if (nonEmpty run.originPeer).isNone ∨
        kindForTransition input.fromStatus input.toStatus input.newGeneration.isSome = none then
      .ok s
    else
      match transitionDraft input run.toPiRunRecord (reads.producer.uiRequest runId)
          reads.producer.occurredAt with
      | none => .error .invalidProjection
      | some draft =>
        if reads.failsInsert then .error .eventInsert
        else
          match appendEventAuto (draft.seal host.digest) s.outbox with
          | (.conflict, _) => .error .eventConflict
          | (_, outbox) => .ok { s with outbox }

def cardTransition (req : TransitionRequest) (s : PiRunStore) :
    Except PiStoreError (TransitionOutcome × PiRunStore) :=
  match kanbanTransition host.redactSecrets reads.at_ req s.db with
  | .error message => .error (.thrown message)
  | .ok (outcome, db) => .ok (outcome, { s with db })

def TransitionOutcome.isApplied : TransitionOutcome → Bool
  | .applied _ => true
  | _ => false

/-- A card transition of a run: one that is not applied rolls the transaction back. -/
def pairedCard (req : TransitionRequest) (s : PiRunStore) : Except PiStoreError PiRunStore :=
  (cardTransition host reads req s).bind fun (outcome, s) =>
    if outcome.isApplied then .ok s else .error .rollback

def piCardRequest (cardId : Nat) (fromSet : List CardStatus) (toStatus : CardStatus)
    (actor : TransitionActor) (reason : String) (attempt : Option (String × Nat))
    (fields : List FieldWrite) : TransitionRequest where
  cardId
  fromSet
  toStatus
  actor
  reason
  attemptId := attempt.map (·.1)
  claimGeneration := attempt.map fun attempt => (attempt.2 : Int)
  outboxCallback := none
  fields
  extraPredicate := none

/-- The `UPDATE` of one run. -/
def PiRunStore.write (s : PiRunStore) (runId : String) (f : PiRun → PiRun)
    (hf : ∀ run, (f run).id = run.id := by intro _; rfl) : PiRunStore :=
  { s with runs := s.runs.modify runId f hf }

/-! ## Workspace claims -/

inductive RawClaim
  | claimed
  | idempotent
  | busy (holder : String)

def WorkspaceClaim.isHeldBy (claim : WorkspaceClaim) (ownerId : String) (generation : Nat) : Bool :=
  claim.ownerId = ownerId ∧ claim.generation = generation

def tryAcquireInTx (claim : WorkspaceClaim) (claims : Table WorkspaceClaim) :
    RawClaim × Table WorkspaceClaim :=
  if (claims.get claim.canonicalPath).any (·.isHeldBy claim.ownerId claim.generation) then
    (.idempotent, claims)
  else
    match claims.insert (·.isHeldBy claim.ownerId claim.generation) claim with
    | some inserted => (.claimed, inserted)
    | none =>
      match claims.get claim.canonicalPath with
      | none => (.busy "unknown", claims)
      | some holder =>
        if holder.ownerId = claim.ownerId then (.idempotent, claims)
        else (.busy holder.ownerId, claims)

/-- `releaseExact`: was the claim held, and the claims without it. -/
def releaseExact (canonicalPath ownerId : String) (generation : Nat)
    (claims : Table WorkspaceClaim) : Bool × Table WorkspaceClaim :=
  ((claims.get canonicalPath).any (·.isHeldBy ownerId generation),
    claims.deleteWhere fun claim =>
      claim.canonicalPath = canonicalPath ∧ claim.isHeldBy ownerId generation)

def releaseForGeneration (ownerId : String) (generation : Nat) (s : PiRunStore) : PiRunStore :=
  { s with claims := s.claims.deleteWhere (·.isHeldBy ownerId generation) }

/-! ## Creation and transitions -/

structure CreatePiRunInput where
  runId : String
  sessionId : String
  title : String
  priority : Option CardPriority
  origin : PiRunOrigin
  originChatId : Option String
  originPeer : Option String
  originRequestId : Option String
  deliveryPolicy : Option DeliveryPolicy
  modelProvider : Option String
  modelId : Option String
  thinking : Option String
  /-- With a reservation: whether the ledger still has it pending. -/
  idempotency : Option Bool

def CreatePiRunInput.card (input : CreatePiRunInput) (id : Nat) (now : Millis) : KanbanCard :=
  { newCard id "pi" (some "pi") none .queued now with
    title := input.title
    sourceId := some input.runId
    priority := input.priority.getD .medium
    deliveryMode := some "silent" }

def CreatePiRunInput.run (input : CreatePiRunInput) (cardId : Nat) (now : String) : PiRun where
  id := input.runId
  cardId
  originChatId := input.originChatId
  originPeer := input.originPeer
  originRequestId := input.originRequestId
  deliveryPolicy := some (input.deliveryPolicy.getD .leaveRemote)
  executionGeneration := 1
  status := .queued
  resumeCapability := .neverStarted
  pendingRequestId := none
  pendingRequestType := none
  updatedAt := now
  lastRpcActivityAt := none
  resultSummary := none
  changedFilesSummary := none
  usage := none
  error := none
  origin := input.origin
  generationIntent := .initial
  currentSessionId := some input.sessionId
  piSessionId := none
  piSessionFile := none
  observedPid := none
  modelProvider := input.modelProvider
  modelId := input.modelId
  thinking := input.thinking
  lastUiReplyRequestId := none
  lastUiReplyGeneration := none
  lastUiReplyOutcome := none

def createPiCardAndRun (input : CreatePiRunInput) : Body PiRunStore PiStoreError Nat := fun s =>
  if s.nextCardId < 1 then .error (.thrown "Failed to allocate card ID for Pi run")
  else
    match s.db.kanbanBoard.insert (fun _ => false) (input.card s.nextCardId reads.at_),
        s.runs.insert (·.cardId = s.nextCardId) (input.run s.nextCardId reads.now) with
    | some board, some runs =>
      let created : PiRunStore :=
        { s with db := { s.db with kanbanBoard := board }, runs, nextCardId := s.nextCardId + 1 }
      (emitInTx host reads input.runId ⟨none, .accepted, none⟩ created).bind fun accepted =>
        (emitInTx host reads input.runId ⟨none, .status .queued, none⟩ accepted).bind fun queued =>
          if input.idempotency = some false then
            .error (.thrown "Pi idempotency reservation was not pending")
          else .ok (s.nextCardId, queued)
    | _, _ => .error (.thrown "UNIQUE constraint failed")

/-- The columns `casTransition` may write beside the status; a pending request may also be
cleared. -/
structure RunUpdates where
  executionGeneration : Option Nat
  currentSessionId : Option String
  piSessionId : Option String
  piSessionFile : Option String
  observedPid : Option Nat
  modelProvider : Option String
  modelId : Option String
  thinking : Option String
  pendingRequestId : Option (Option String)
  pendingRequestType : Option (Option PendingInputType)
  resultSummary : Option String
  changedFilesSummary : Option String
  usage : Option Json
  error : Option String
  resumeCapability : Option ResumeCapability

def RunUpdates.write (updates : RunUpdates) (toStatus : PiRunStatus) (now : String)
    (run : PiRun) : PiRun :=
  { run with
    status := toStatus
    updatedAt := now
    executionGeneration := updates.executionGeneration.getD run.executionGeneration
    currentSessionId := updates.currentSessionId.or run.currentSessionId
    piSessionId := updates.piSessionId.or run.piSessionId
    piSessionFile := updates.piSessionFile.or run.piSessionFile
    observedPid := updates.observedPid.or run.observedPid
    modelProvider := updates.modelProvider.or run.modelProvider
    modelId := updates.modelId.or run.modelId
    thinking := updates.thinking.or run.thinking
    pendingRequestId := updates.pendingRequestId.getD run.pendingRequestId
    pendingRequestType := updates.pendingRequestType.getD run.pendingRequestType
    resultSummary := updates.resultSummary.or run.resultSummary
    changedFilesSummary := updates.changedFilesSummary.or run.changedFilesSummary
    usage := updates.usage.or run.usage
    error := updates.error.or run.error
    resumeCapability := updates.resumeCapability.getD run.resumeCapability }

def RunUpdates.bumpOf (updates : RunUpdates) (run : PiRun) : Option Nat :=
  updates.executionGeneration.filter (· ≠ run.executionGeneration)

/-- The status a transition is known to come from: that of a single expected one. -/
def singleStatus : List PiRunStatus → Option PiRunStatus
  | [status] => some status
  | _ => none

def casTransition (fromStatuses : List PiRunStatus) (toStatus : PiRunStatus) (updates : RunUpdates)
    (expectedGeneration : Option Nat) :
    Body PiRunStore PiStoreError Bool := fun s =>
  match s.runs.get runId with
  | none => .ok (false, s)
  | some run =>
    if run.status ∈ fromStatuses ∧ expectedGeneration.all (· = run.executionGeneration) then
      (emitInTx host reads runId
        ⟨singleStatus fromStatuses, .status toStatus, updates.bumpOf run⟩
        (s.write runId (updates.write toStatus reads.now))).map fun s => (true, s)
    else .ok (false, s)

inductive PiTerminalOutcome
  | completed | failed | cancelled
  deriving DecidableEq

def PiTerminalOutcome.status : PiTerminalOutcome → PiRunStatus
  | .completed => .completed
  | .failed => .failed
  | .cancelled => .cancelled

def PiTerminalOutcome.text : PiTerminalOutcome → String
  | .completed => "completed"
  | .failed => "failed"
  | .cancelled => "cancelled"

structure PiTerminalMetadata where
  resultSummary : Option String
  changedFilesSummary : Option String
  usage : Option Json
  error : Option String
  piSessionId : Option String

def PiTerminalMetadata.write (metadata : PiTerminalMetadata) (outcome : PiTerminalOutcome)
    (now : String) (run : PiRun) : PiRun :=
  { run with
    status := outcome.status
    updatedAt := now
    pendingRequestId := none
    pendingRequestType := none
    resultSummary := metadata.resultSummary.or run.resultSummary
    changedFilesSummary := metadata.changedFilesSummary.or run.changedFilesSummary
    usage := metadata.usage.or run.usage
    error := metadata.error.or run.error
    piSessionId := metadata.piSessionId.or run.piSessionId }

def piSettleRequest (reads : PiReads) (run : PiRun) (generation : Nat)
    (outcome : PiTerminalOutcome) (metadata : PiTerminalMetadata) : TransitionRequest :=
  if outcome = .completed then
    piCardRequest run.cardId [.running] .done .piRunSettle "pi run settled"
      (some (run.id, generation))
      [.resultSummary (metadata.resultSummary.map (sliceText · 4000)), .completedAt (some reads.at_)]
  else
    piCardRequest run.cardId [.running] .failed .piRunSettle "pi run failed"
      (some (run.id, generation))
      [.error (some ((metadata.error.map (sliceText · 1000)).getD outcome.text)),
        .completedAt (some reads.at_)]

inductive PiRefusal
  | staleGeneration | wrongStatus | missing | cardMismatch | supervised | stale | notResumable
  | sessionMissing

inductive PiCommit (α : Type)
  | committed (value : α)
  | refused (reason : PiRefusal)

variable (generation : Nat)

def settleTerminal (expectedStatuses : List PiRunStatus) (outcome : PiTerminalOutcome)
    (metadata : PiTerminalMetadata) :
    Body PiRunStore PiStoreError (PiCommit Nat) := fun s =>
  match s.runs.get runId with
  | none => .ok (.refused .missing, s)
  | some run =>
    if run.executionGeneration ≠ generation then .ok (.refused .staleGeneration, s)
    else if run.status ∉ expectedStatuses then .ok (.refused .wrongStatus, s)
    else if run.origin = .supervised then .ok (.refused .supervised, s)
    else
      (emitInTx host reads runId ⟨some run.status, .status outcome.status, none⟩
        (s.write runId (metadata.write outcome reads.now))).bind fun told =>
          (pairedCard host reads (piSettleRequest reads run generation outcome metadata)
            told).map fun settled =>
              (.committed run.cardId, releaseForGeneration runId generation settled)

def activeStatuses : List PiRunStatus := [.starting, .running, .awaitingInput, .cancelling]

def interruptedRun (session : SessionProof) (now : String) (run : PiRun) : PiRun :=
  { run with
    status := .interrupted
    updatedAt := now
    observedPid := none
    pendingRequestId := none
    pendingRequestType := none
    piSessionId :=
      match session with
      | .ok sessionId _ => some sessionId
      | .lost _ => run.piSessionId
    piSessionFile :=
      match session with
      | .ok _ canonicalFile => some canonicalFile
      | .lost _ => run.piSessionFile
    resumeCapability := session.capability }

def interruptGeneration (continuity : SessionProof) :
    Body PiRunStore PiStoreError (PiCommit Nat) := fun s =>
  match s.runs.get runId with
  | none => .ok (.refused .missing, s)
  | some run =>
    if run.executionGeneration ≠ generation then .ok (.refused .staleGeneration, s)
    else if run.status ∉ activeStatuses then .ok (.refused .wrongStatus, s)
    else if run.origin = .supervised then .ok (.refused .supervised, s)
    else
      (pairedCard host reads
        (piCardRequest run.cardId [.running] .failed .piInterrupt "run interrupted"
          (some (runId, generation)) [.error (some "interrupted")])
        (s.write runId (interruptedRun continuity reads.now))).bind fun paired =>
          (emitInTx host reads runId ⟨some run.status, .status .interrupted, none⟩
            (releaseForGeneration runId generation paired)).map fun told =>
              (.committed run.cardId, told)

/-! ## Generations -/

def resumableStatuses : List PiRunStatus := [.interrupted, .failed]

def nextGeneration (newSessionId : String) (now : String) (run : PiRun) : PiRun :=
  { run with
    status := .queued
    updatedAt := now
    executionGeneration := generation
    currentSessionId := some newSessionId
    observedPid := none
    pendingRequestId := none
    pendingRequestType := none
    resultSummary := none
    changedFilesSummary := none
    usage := none
    error := none }

inductive Continuity
  | resumed | fresh
  deriving DecidableEq

def supervisedGeneration (newSessionId : String) (sessionFile : Option String)
    (continuity : Continuity) (now : String) (run : PiRun) : PiRun :=
  let queued := nextGeneration generation newSessionId now run
  match continuity with
  | .fresh =>
    { queued with piSessionFile := none, piSessionId := none, resumeCapability := .neverStarted }
  | .resumed => { queued with piSessionFile := sessionFile.or run.piSessionFile }

def queueSupervisedGeneration (expectedGeneration : Nat) (newSessionId : String)
    (sessionFile : Option String) (continuity : Continuity) :
    Body PiRunStore PiStoreError (PiCommit Nat) := fun s =>
  match s.runs.get runId with
  | none => .ok (.refused .missing, s)
  | some run =>
    if run.executionGeneration ≠ expectedGeneration then .ok (.refused .stale, s)
    else if run.status ∉ resumableStatuses then .ok (.refused .notResumable, s)
    else if continuity = .resumed ∧ run.resumeCapability ≠ .available then
      .ok (.refused .notResumable, s)
    else
      (emitInTx host reads runId
        ⟨some run.status, .status .queued, some (expectedGeneration + 1)⟩
        (s.write runId (fun run =>
          supervisedGeneration (expectedGeneration + 1) newSessionId sessionFile continuity
            reads.now run) (by intro run; cases continuity <;> rfl))).map fun told =>
              (.committed (expectedGeneration + 1), told)

def resumedGeneration (newSessionId sessionId canonicalFile : String) (now : String) (run : PiRun) :
    PiRun :=
  { nextGeneration generation newSessionId now run with
    generationIntent := .resume
    piSessionId := some sessionId
    piSessionFile := some canonicalFile
    resumeCapability := .available }

def queueResumeGeneration (expectedGeneration : Nat) (newSessionId : String) :
    Body PiRunStore PiStoreError (PiCommit Nat) := fun s =>
  match s.runs.get runId with
  | none => .ok (.refused .stale, s)
  | some run =>
    if run.executionGeneration ≠ expectedGeneration then .ok (.refused .stale, s)
    else if run.origin = .supervised then .ok (.refused .notResumable, s)
    else if run.status ∉ resumableStatuses then .ok (.refused .notResumable, s)
    else if run.resumeCapability ≠ .available then .ok (.refused .notResumable, s)
    else
      match reads.session run.piSessionId run.piSessionFile with
      | .lost capability =>
        -- the transaction commits: only the capability is recorded
        .ok (.refused .sessionMissing,
          s.write runId fun run =>
            { run with resumeCapability := capability, updatedAt := reads.now })
      | .ok sessionId canonicalFile =>
        (pairedCard host reads
          (piCardRequest run.cardId [.failed, .done] .queued .piResumeGeneration
            "resume generation" (some (runId, expectedGeneration + 1))
            [.completedAt none, .error none, .resultSummary none])
          (s.write runId (resumedGeneration (expectedGeneration + 1) newSessionId sessionId
            canonicalFile reads.now))).bind fun paired =>
              (emitInTx host reads runId
                ⟨some run.status, .status .queued, some (expectedGeneration + 1)⟩
                paired).map fun told => (.committed (expectedGeneration + 1), told)

/-! ## Pending requests -/

inductive UiClaimRefusal
  | missing | wrongGeneration | wrongStatus | requestMismatch | alreadyConsumed

inductive PendingUiClaim
  | claimed (requestType : PendingInputType)
  | refused (reason : UiClaimRefusal)

variable (requestId : String)

/-- A reply claims the request: the run goes on, and remembers what was answered. -/
def claimedUi (now : String) (run : PiRun) : PiRun :=
  { run with
    status := .running
    updatedAt := now
    pendingRequestId := none
    pendingRequestType := none
    lastUiReplyRequestId := some requestId
    lastUiReplyGeneration := some generation
    lastUiReplyOutcome := some .claimed }

def uiClaimRefusal (run : PiRun) (generation : Nat) (requestId : String) : UiClaimRefusal :=
  if run.executionGeneration ≠ generation then .wrongGeneration
  else
    match run.pendingRequestId with
    | none =>
      if run.lastUiReplyRequestId = some requestId then .alreadyConsumed else .wrongStatus
    | some pending => if pending ≠ requestId then .requestMismatch else .alreadyConsumed

/-- The event is appended outside of any transaction: what it throws leaves the update. -/
def tellUpdate {α : Type} (input : TransitionInput) (value : α) (updated : PiRunStore) :
    Except PiStoreError α × PiRunStore :=
  match emitInTx host reads runId input updated with
  | .error e => (.error e, updated)
  | .ok told => (.ok value, told)

def claimableUi (run : PiRun) (generation : Nat) (requestId : String) : Option PendingInputType :=
  if run.executionGeneration = generation ∧ run.status = .awaitingInput ∧
      run.pendingRequestId = some requestId then run.pendingRequestType
  else none

def claimPendingUi (s : PiRunStore) : Except PiStoreError PendingUiClaim × PiRunStore :=
  match s.runs.get runId with
  | none => (.ok (.refused .missing), s)
  | some run =>
    match claimableUi run generation requestId with
    | none => (.ok (.refused (uiClaimRefusal run generation requestId)), s)
    | some requestType =>
      tellUpdate host reads runId ⟨some .awaitingInput, .status .running, none⟩
        (.claimed requestType) (s.write runId (claimedUi generation requestId reads.now))

def awaitingUi (requestType : PendingInputType) (now : String) (run : PiRun) : PiRun :=
  { run with
    status := .awaitingInput
    updatedAt := now
    pendingRequestId := some requestId
    pendingRequestType := some requestType }

def PiRun.isRestorable (run : PiRun) (generation : Nat) (requestId : String) : Bool :=
  run.executionGeneration = generation ∧ run.status = .running ∧ run.pendingRequestId = none ∧
    run.pendingRequestType = none ∧ run.lastUiReplyRequestId = some requestId ∧
    run.lastUiReplyOutcome = some .claimed

def restorePendingUi (requestType : PendingInputType) (s : PiRunStore) :
    Except PiStoreError Bool × PiRunStore :=
  match s.runs.get runId with
  | none => (.ok false, s)
  | some run =>
    if run.isRestorable generation requestId then
      tellUpdate host reads runId ⟨some .running, .status .awaitingInput, none⟩ true
        (s.write runId fun run =>
          { awaitingUi requestId requestType reads.now run with lastUiReplyOutcome := none })
    else (.ok false, s)

def recordUiReplyOutcome (s : PiRunStore) : Bool × PiRunStore :=
  match s.runs.get runId with
  | none => (false, s)
  | some run =>
    if run.executionGeneration = generation ∧ run.lastUiReplyRequestId = some requestId ∧
        run.lastUiReplyOutcome = some .claimed then
      (true, s.write runId fun run =>
        { run with lastUiReplyOutcome := some .deliveryUnknown, updatedAt := reads.now })
    else (false, s)

inductive UiSetRefusal
  | wrongStatus | wrongGeneration | duplicateRequest | busy | missing

inductive PendingUiSetResult
  | ok
  | refused (reason : UiSetRefusal)

def uiSetRefusal (run : PiRun) (generation : Nat) (requestId : String) : Option UiSetRefusal :=
  if run.executionGeneration ≠ generation then some .wrongGeneration
  else if run.pendingRequestId.isSome then some .busy
  else if run.pendingRequestType.isSome then some .busy
  else if run.status ≠ .running then some .wrongStatus
  else if run.lastUiReplyRequestId = some requestId then some .duplicateRequest
  else none

def setPendingUi (requestType : PendingInputType) (s : PiRunStore) :
    Except PiStoreError PendingUiSetResult × PiRunStore :=
  match s.runs.get runId with
  | none => (.ok (.refused .missing), s)
  | some run =>
    match uiSetRefusal run generation requestId with
    | some reason => (.ok (.refused reason), s)
    | none =>
      tellUpdate host reads runId ⟨some .running, .status .awaitingInput, none⟩ .ok
        (s.write runId (awaitingUi requestId requestType reads.now))

/-! ## Starts -/

def withStatus (status : PiRunStatus) (now : String) (run : PiRun) : PiRun :=
  { run with status, updatedAt := now }

inductive StaleClaim
  | missing | generation | notQueued | runClaimLost

inductive PiWorkspaceClaim
  | claimed
  | idempotent
  | busy (holder : String)
  | stale (reason : StaleClaim)

def claimWorkspaceForStartInTx (expectedGeneration : Nat) (canonicalPath : String)
    (ownerKind : ClaimOwnerKind) : Body PiRunStore PiStoreError PiWorkspaceClaim := fun s =>
  match s.runs.get runId with
  | none => .ok (.stale .missing, s)
  | some run =>
    if run.executionGeneration ≠ expectedGeneration then .ok (.stale .generation, s)
    else if run.status ≠ .queued ∧ run.status ≠ .starting then .ok (.stale .notQueued, s)
    else
      match tryAcquireInTx ⟨canonicalPath, runId, expectedGeneration, ownerKind⟩ s.claims with
      | (.idempotent, _) => .ok (.idempotent, s)
      | (.busy holder, _) => .ok (.busy holder, s)
      | (.claimed, claims) =>
        let acquired : PiRunStore := { s with claims }
        if run.status ≠ .queued then
          .ok (.stale .runClaimLost,
            { acquired with
              claims := (releaseExact canonicalPath runId expectedGeneration claims).2 })
        else
          (emitInTx host reads runId ⟨some .queued, .status .starting, none⟩
            (acquired.write runId (withStatus .starting reads.now))).map fun told =>
              (.claimed, told)

/-- `releaseWorkspaceClaim`; nothing tells the producer of a run that is queued again. -/
def releaseWorkspaceClaim (canonicalPath runId : String) (generation : Nat) (restoreQueued : Bool)
    (s : PiRunStore) : Option Bool × PiRunStore :=
  match releaseExact canonicalPath runId generation s.claims with
  | (false, _) => (none, s)
  | (true, claims) =>
    let released : PiRunStore := { s with claims }
    match s.runs.get runId with
    | none => (some false, released)
    | some run =>
      if restoreQueued ∧ run.executionGeneration = generation ∧ run.status = .starting then
        (some true, released.write runId (withStatus .queued reads.now))
      else (some false, released)

inductive StartRefusal
  | missing | cardMismatch | busy | notStartable

inductive PiStartClaim
  | claimed (runId : String) (generation : Nat)
  | refused (reason : StartRefusal)

def queuedRun (s : PiRunStore) (cardId : Nat) : Option PiRun :=
  s.runs.rows.find? fun run => run.cardId = cardId ∧ run.status = .queued

/-- The card of a run that holds its workspace: one that is not queued undoes the claim by
writes of its own. -/
def startCard (run : PiRun) (canonicalPath : String) :
    Body PiRunStore PiStoreError PiStartClaim := fun s =>
  (cardTransition host reads
    (piCardRequest run.cardId [.queued] .running .piRunDispatch "pi dispatch claim"
      (some (run.id, run.executionGeneration)) []) s).bind fun (outcome, moved) =>
    if outcome.isApplied then .ok (.claimed run.id run.executionGeneration, moved)
    else
      .ok (.refused .cardMismatch,
        (releaseWorkspaceClaim reads canonicalPath run.id run.executionGeneration false
          moved).2.write run.id (withStatus .queued reads.now))

/-- `claimQueuedGeneration`: whatever is refused, the transaction commits. -/
def claimQueuedGeneration (cardId : Nat) (canonicalPath : String) :
    Body PiRunStore PiStoreError PiStartClaim := fun s =>
  match queuedRun s cardId with
  | none => .ok (.refused .missing, s)
  | some run =>
    (claimWorkspaceForStartInTx host reads run.id run.executionGeneration canonicalPath
      .standalone s).bind fun
      | (.busy _, claimed) => .ok (.refused .busy, claimed)
      | (.stale _, claimed) => .ok (.refused .notStartable, claimed)
      | (_, claimed) => startCard host reads run canonicalPath claimed

/-! ## Recovery -/

def nonterminalRuns (s : PiRunStore) : List PiRun :=
  s.runs.select fun run => !run.status.isTerminal && run.status ≠ .interrupted

/-- A queued run after a restart: no process, and the truth on a session it was to resume. -/
def requeuedRun (session : SessionProof) (now : String) (run : PiRun) : PiRun :=
  { run with
    observedPid := none
    updatedAt := now
    resumeCapability :=
      if run.generationIntent = .resume ∧ run.resumeCapability = .available then session.capability
      else run.resumeCapability }

def restartedRun (session : SessionProof) (now : String) (run : PiRun) : PiRun :=
  { run with
    status := .interrupted
    updatedAt := now
    observedPid := none
    pendingRequestId := none
    pendingRequestType := none
    resumeCapability := session.capability }

def interruptAtRestart (run : PiRun) (s : PiRunStore) : Except PiStoreError PiRunStore :=
  (pairedCard host reads
    (piCardRequest run.cardId [.queued, .running] .failed .restartRecovery
      "interrupted by bridge restart" none [.error (some "interrupted by bridge restart")])
    (s.write run.id (restartedRun (reads.session run.piSessionId run.piSessionFile)
      reads.now))).bind fun paired =>
        emitInTx host reads run.id ⟨some run.status, .status .interrupted, none⟩
          (releaseForGeneration run.id run.executionGeneration paired)

def recoverPiRun (s : PiRunStore) (run : PiRun) : Except PiStoreError PiRunStore :=
  if run.status = .queued then
    .ok (s.write run.id (requeuedRun (reads.session run.piSessionId run.piSessionFile) reads.now))
  else if run.origin = .supervised then
    emitInTx host reads run.id ⟨some run.status, .status .interrupted, none⟩
      (releaseForGeneration run.id run.executionGeneration
        (s.write run.id (restartedRun (reads.session run.piSessionId run.piSessionFile) reads.now)))
  else
    match interruptAtRestart host reads run s with
    | .error .rollback => .ok s
    | result => result

/-- `recoverNonterminal`, one transaction over the rows a restart finds. -/
def recoverNonterminal : Body PiRunStore PiStoreError Unit := fun s =>
  ((nonterminalRuns s).foldlM (recoverPiRun host reads) s).map fun recovered => ((), recovered)

/-! ## Calls -/

/-- A call of the store, or what other components write to the tables it shares. -/
inductive PiOp
  | create (input : CreatePiRunInput)
  | cas (runId : String) (fromStatuses : List PiRunStatus) (toStatus : PiRunStatus)
      (updates : RunUpdates) (expectedGeneration : Option Nat)
  | settle (runId : String) (generation : Nat) (expectedStatuses : List PiRunStatus)
      (outcome : PiTerminalOutcome) (metadata : PiTerminalMetadata)
  | interrupt (runId : String) (generation : Nat) (continuity : SessionProof)
  | queueSupervised (runId : String) (expectedGeneration : Nat) (newSessionId : String)
      (sessionFile : Option String) (continuity : Continuity)
  | queueResume (runId : String) (expectedGeneration : Nat) (newSessionId : String)
  | claimUi (runId : String) (generation : Nat) (requestId : String)
  | restoreUi (runId : String) (generation : Nat) (requestId : String)
      (requestType : PendingInputType)
  | recordUi (runId : String) (generation : Nat) (requestId : String)
  | setUi (runId : String) (generation : Nat) (requestId : String)
      (requestType : PendingInputType)
  | release (canonicalPath runId : String) (generation : Nat) (restoreQueued : Bool)
  | start (cardId : Nat) (canonicalPath : String)
  | recover
  | others (db : Db) (claims : Table WorkspaceClaim)

/-- The result of a transaction that may be rolled back by the sentinel: a refusal. -/
def transactionOf {α : Type} (body : Body PiRunStore PiStoreError α) (s : PiRunStore) :
    Except PiStoreError Unit × PiRunStore :=
  match transaction body s with
  | (.ok _, s') => (.ok (), s')
  | (.error .rollback, s') => (.ok (), s')
  | (.error e, s') => (.error e, s')

def piCall (s : PiRunStore) : PiOp → Except PiStoreError Unit × PiRunStore
  | .create input => transactionOf (createPiCardAndRun host reads input) s
  | .cas runId fromStatuses toStatus updates expectedGeneration =>
    transactionOf (casTransition host reads runId fromStatuses toStatus updates
      expectedGeneration) s
  | .settle runId generation expectedStatuses outcome metadata =>
    transactionOf (settleTerminal host reads runId generation expectedStatuses outcome metadata) s
  | .interrupt runId generation continuity =>
    transactionOf (interruptGeneration host reads runId generation continuity) s
  | .queueSupervised runId expectedGeneration newSessionId sessionFile continuity =>
    transactionOf (queueSupervisedGeneration host reads runId expectedGeneration newSessionId
      sessionFile continuity) s
  | .queueResume runId expectedGeneration newSessionId =>
    transactionOf (queueResumeGeneration host reads runId expectedGeneration newSessionId) s
  | .claimUi runId generation requestId =>
    let (answer, s') := claimPendingUi host reads runId generation requestId s
    (answer.map fun _ => (), s')
  | .restoreUi runId generation requestId requestType =>
    let (answer, s') := restorePendingUi host reads runId generation requestId requestType s
    (answer.map fun _ => (), s')
  | .recordUi runId generation requestId =>
    (.ok (), (recordUiReplyOutcome reads runId generation requestId s).2)
  | .setUi runId generation requestId requestType =>
    let (answer, s') := setPendingUi host reads runId generation requestId requestType s
    (answer.map fun _ => (), s')
  | .release canonicalPath runId generation restoreQueued =>
    (.ok (), (releaseWorkspaceClaim reads canonicalPath runId generation restoreQueued s).2)
  | .start cardId canonicalPath =>
    transactionOf (claimQueuedGeneration host reads cardId canonicalPath) s
  | .recover => transactionOf (recoverNonterminal host reads) s
  | .others db claims => (.ok (), { s with db, claims })

end Store

def piStep (host : PiHost) (s : PiRunStore) (call : PiReads × PiOp) : PiRunStore :=
  (piCall host call.1 s call.2).2

end Abtars
