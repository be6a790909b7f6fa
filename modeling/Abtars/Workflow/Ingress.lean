import Abtars.Lib.Run
import Abtars.Workflow.Ledger

/-!
# The ingress of the workflow store

Every transition of the runner is committed under the id of an event: the id is looked up first,
the version of the run second, and the transition, the version and the row of the event are
written together.  A restart submits the events again that were received and not applied.
-/

namespace Abtars

open Lib WorkflowRun RunView

/-- An event as it is submitted: what it is known by, and the run it was read against. -/
structure RunnerIngress where
  eventId : EventId
  runId : String
  payloadHash : String
  payload : IngressPayload
  generation : Nat
  stateVersion : Nat

inductive CommitDisposition
  | applied | noop | duplicate | conflict

inductive CommitDiagnostics
  | conflictingPayload (eventId : EventId)
  | terminalSinceReceipt (eventId : EventId) (runId : String)

structure CommitResult where
  disposition : CommitDisposition
  diagnostics : Option CommitDiagnostics

inductive IngressError
  | runMissing (runId : String)
  | fenceMismatch (runId : String)
  | lostVersionRace (runId : String)
  | applyRaceLost (eventId : EventId)
  | applier (error : WorkflowError)
  deriving DecidableEq

/-! ## Events -/

inductive RunnerEvent
  | planRejected (reason : String)
  | planAccepted (proposal : PlanProposal)
  | roundRejected (reason : String) (opId : Option OpId) (round : Option PlanRound)
      (claim : Option ClaimAuthority)
  | proposalAccepted (proposal : PlanProposal) (opts : ProposalOpts)
  | attemptSucceeded (revision : Nat) (nodeId : NodeId) (attemptId artifactsJson : String)
  | attemptFailed (revision : Nat) (nodeId : NodeId) (attemptId cause : String)
      (retrySafe : Bool)
  | reviewed (home : Nat) (nodeId : NodeId) (verdict : ReviewVerdict)
      (claim : Option ClaimAuthority)
  | breakerRefused (nodeId : NodeId) (resource : String) (ordinal : Nat)
  | shaHandoff (final : Bool)
  | cancelRequested (cause : String)
  | runFailed (code reason : String)
  | startupInterrupted
  | modelJobUnobserved (claim : ClaimAuthority) (reason : String)
  | inputRequested (question : String) (criteria : List String) (kind : String)
  | inputAnswered
  | deliverySettled
  | claimExpired (now : Millis) (key : CommandKey) (expectedGen : Nat)

def RunnerEvent.apply (host : RunnerHost) : RunnerEvent → Applier
  | .planRejected reason => onRun fun run => .ok (run.rejectPlanEffect reason)
  | .planAccepted proposal => onRun fun run =>
    (run.admitRevision run.generation proposal).map fun run => (.enter .dispatched, run)
  | .roundRejected reason opId round claim => onRun fun run =>
    run.rejectPlanRoundEffect reason opId round claim
  | .proposalAccepted proposal opts => onRun fun run => run.admitProposalEffect proposal opts
  | .attemptSucceeded revision nodeId attemptId artifactsJson => fun v => onRun (fun run =>
    run.attemptSucceededEffect host.envelopeJson v.db revision nodeId attemptId artifactsJson) v
  | .attemptFailed revision nodeId attemptId cause retrySafe => onRun fun run =>
    run.attemptFailedEffect revision nodeId attemptId cause retrySafe
  | .reviewed home nodeId verdict claim => onRun fun run =>
    run.verdictEffect home nodeId verdict claim
  | .breakerRefused nodeId resource ordinal => onRun fun run =>
    run.breakerRefusedEffect nodeId resource ordinal
  | .shaHandoff final => onRun (shaHandoffEffect final)
  | .cancelRequested cause => fun v => .ok ({ TransitionEffect.enter .cancelled with
      failureCode := some "cancelled", failureReason := some cause }, v.cancelRun)
  | .runFailed code reason => fun v => .ok (.fail code (boundText reason 2000), v)
  | .startupInterrupted => fun v => .ok (.fail "observation_unknown" interruptedByRestart,
      v.cancelRun.closeOperations .cancelled)
  | .modelJobUnobserved claim reason => failModelJobEffect claim reason
  | .inputRequested question criteria kind => requestInputEffect question criteria kind
  | .inputAnswered => onRun inputAnsweredEffect
  | .deliverySettled => onRun fun run =>
    .ok (run.evaluateTerminal run.currentRevision none, run)
  | .claimExpired now key expectedGen => fun v => onRun (fun run =>
    run.claimExpiredEffect host.envelopeJson now v.db key expectedGen) v

namespace RunnerEvent

def isFailure : RunnerEvent → Bool
  | .attemptFailed _ _ _ _ _ => true
  | _ => false

variable {host : RunnerHost} {v v' : RunView} {effect : TransitionEffect}

theorem sameRow_onRun {f : WorkflowRun → Except WorkflowError (TransitionEffect × WorkflowRun)}
    (hf : ∀ run', f v.run = .ok (effect, run') → v.run.SameRow run')
    (h : onRun f v = .ok (effect, v')) : v.run.SameRow v'.run := by
  obtain ⟨run', hrun', rfl⟩ := onRun_ok h
  exact hf run' hrun'

/-- **No transition writes the row of its run.** -/
theorem apply_sameRow (event : RunnerEvent) (h : event.apply host v = .ok (effect, v')) :
    v.run.SameRow v'.run := by
  cases event with
  | planRejected reason =>
    rw [RunnerEvent.apply] at h
    refine sameRow_onRun (fun run' hrun' => ?_) h
    have hout : (v.run.rejectPlanEffect reason).2 = run' := by rw [Except.ok.inj hrun']
    rw [← hout]
    exact sameRow_rejectPlanEffect reason v.run
  | planAccepted proposal =>
    rw [RunnerEvent.apply] at h
    refine sameRow_onRun (fun run' hrun' => ?_) h
    obtain ⟨grown, hgrown, hout⟩ := map_eq_ok.1 hrun'
    cases hout
    exact sameRow_admitRevision hgrown
  | roundRejected reason opId round claim =>
    exact sameRow_onRun (fun _ => sameRow_rejectPlanRoundEffect) h
  | proposalAccepted proposal opts =>
    exact sameRow_onRun (fun _ => sameRow_admitProposalEffect) h
  | attemptSucceeded revision nodeId attemptId artifactsJson =>
    exact sameRow_onRun (fun _ hrun' =>
      (writes_attemptSucceededEffect (Q := False) False.elim hrun').sameHeader.sameRow) h
  | attemptFailed revision nodeId attemptId cause retrySafe =>
    exact sameRow_onRun (fun _ hrun' =>
      (writes_attemptFailedEffect (Q := False) False.elim hrun').sameHeader.sameRow) h
  | reviewed home nodeId verdict claim => exact sameRow_onRun (fun _ => sameRow_verdictEffect) h
  | breakerRefused nodeId resource ordinal =>
    exact sameRow_onRun (fun _ hrun' =>
      (writes_breakerRefusedEffect (Q := False) False.elim hrun').sameHeader.sameRow) h
  | shaHandoff final =>
    exact sameRow_onRun (fun _ hrun' =>
      (writes_shaHandoffEffect (Q := False) False.elim hrun').sameHeader.sameRow) h
  | cancelRequested cause =>
    cases h
    exact (writes_cancelWork (Q := False) v.run).sameHeader.sameRow
  | runFailed code reason =>
    cases h
    exact .refl v.run
  | startupInterrupted =>
    cases h
    exact sameRow_cancelRun_close .cancelled v
  | modelJobUnobserved claim reason => exact sameRow_failModelJobEffect h
  | inputRequested question criteria kind => exact sameRow_requestInputEffect h
  | inputAnswered => exact sameRow_onRun (fun _ => sameRow_inputAnsweredEffect) h
  | deliverySettled =>
    cases h
    exact .refl v.run
  | claimExpired now key expectedGen =>
    exact sameRow_onRun (fun _ hrun' =>
      (writes_claimExpiredEffect (Q := False) False.elim hrun').sameHeader.sameRow) h

end RunnerEvent

/-! ## The envelope -/

def IngressRow.consume (disposition : IngressDisposition) (row : IngressRow) : IngressRow :=
  { row with disposition }

namespace WorkflowLedger

variable (event : RunnerIngress)

def receivedRow : IngressRow :=
  ⟨event.eventId, event.runId, event.payloadHash, event.payload, .received⟩

def received (s : WorkflowLedger) (eventId : EventId) : Option IngressRow :=
  (s.ingress.get eventId).filter (·.disposition = .received)

def markConsumed (eventId : EventId) (disposition : IngressDisposition) (s : WorkflowLedger) :
    WorkflowLedger :=
  { s with
    ingress := s.ingress.updateWhere
      (fun row => row.eventId = eventId ∧ row.disposition = .received)
      (IngressRow.consume disposition) }

def receive (s : WorkflowLedger) : WorkflowLedger :=
  { s with ingress := s.ingress.insertOrIgnore (fun _ => false) (receivedRow event) }

/-- The part of the envelope behind the lookup of the id: only events not consumed come here.
`preexisting` says whether the row was there before. -/
def applyReceived (preexisting : Bool) (apply : Applier) :
    Body WorkflowLedger IngressError CommitResult := fun s =>
  match s.getRun event.runId with
  | none => .error (.runMissing event.runId)
  | some run =>
    if run.generation ≠ event.generation ∨ run.stateVersion ≠ event.stateVersion then
      -- moot on a terminal run; a live run may still need the event, so this throws
      if preexisting ∧ run.state.isTerminal then
        .ok (⟨.noop, some (.terminalSinceReceipt event.eventId event.runId)⟩,
          s.markConsumed event.eventId .noop)
      else .error (.fenceMismatch event.runId)
    else
      match apply (s.view run) with
      | .error e => .error (.applier e)
      | .ok (effect, v) =>
        if v.run.stateVersion ≠ event.stateVersion then
          .error (.lostVersionRace event.runId)
        else
          let s := s.writeBack { v with run := v.run.bump effect }
          if s.received event.eventId = none then .error (.applyRaceLost event.eventId)
          else if effect.noop then .ok (⟨.noop, none⟩, s.markConsumed event.eventId .noop)
          else .ok (⟨.applied, none⟩, s.markConsumed event.eventId .applied)

def applyEnvelope (apply : Applier) :
    Body WorkflowLedger IngressError CommitResult := fun s =>
  match s.ingress.get event.eventId with
  | none => applyReceived event false apply (s.receive event)
  | some stored =>
    if stored.payloadHash ≠ event.payloadHash then
      .ok (⟨.conflict, some (.conflictingPayload event.eventId)⟩, s)
    else
      match stored.disposition with
      | .received => applyReceived event true apply s
      | .noop => .ok (⟨.noop, none⟩, s)
      | .applied => .ok (⟨.duplicate, none⟩, s)

def commitTransition (apply : Applier) (s : WorkflowLedger) :
    Except IngressError CommitResult × WorkflowLedger :=
  transaction (applyEnvelope event apply) s

end WorkflowLedger

/-! ## What writes the store -/

/-- The statements beside the envelope: those of the drain, the ports and the worker stores. -/
inductive StoreStatement
  | claimCommand (key : CommandKey) (owner : String) (now : Millis)
  | releaseClaim (key : CommandKey) (owner : String) (token : Nat)
  | completeCommand (key : CommandKey) (owner : String) (token : Nat)
  | markNodeRunning (revision : Nat) (nodeId : NodeId)
  | upsertOperation (op : OperationRow)
  | queueCommand (key : CommandKey) (payload : CommandPayload)
  | noteInspectionAlive (key : CommandKey) (gen : Nat) (next : Millis)
  | bindNodeWorker (revision : Nat) (nodeId : NodeId) (cardId : Nat) (attemptId : Option String)
  | bumpDeliveryAttempts (nodeId : NodeId)
  | setDeliveryOutcome (nodeId : NodeId) (outcome : DeliveryOutcome) (receipt : Option String)
  | answerInput (inputId : Nat) (response : String)
  | workers (db : Db)

def StoreStatement.write (v : RunView) : StoreStatement → Except WorkflowError RunView
  | .claimCommand key owner now => .ok (match v.run.claimCommand key owner v.minted now with
      | none => v
      | some run => { v with run, minted := v.minted + 1 })
  | .releaseClaim key owner token => .ok { v with run := v.run.releaseClaim key owner token }
  | .completeCommand key owner token =>
    (v.run.completeCommand key owner token).map fun run => { v with run }
  | .markNodeRunning revision nodeId =>
    .ok { v with run := v.run.markNodeRunning revision nodeId }
  | .upsertOperation op => (v.run.upsertOperation op).map fun run => { v with run }
  | .queueCommand key payload => (v.run.queueCommand key payload).map fun run => { v with run }
  | .noteInspectionAlive key gen next =>
    .ok { v with run := v.run.noteInspectionAlive key gen next }
  | .bindNodeWorker revision nodeId cardId attemptId =>
    (v.run.bindNodeWorker revision nodeId cardId attemptId).map fun run => { v with run }
  | .bumpDeliveryAttempts nodeId =>
    (v.run.bumpDeliveryAttempts nodeId).map fun out => { v with run := out.2 }
  | .setDeliveryOutcome nodeId outcome receipt =>
    (v.run.setDeliveryOutcome nodeId outcome receipt).map fun run => { v with run }
  | .answerInput inputId response => .ok { v with
      inputs := v.inputs.modify inputId (InputRequest.answer response) }
  | .workers db => .ok { v with db }

/-- What happens to the ingress: an event is submitted with its transition, persisted without
contact to the runner, or submitted again by a restart; a crash; and the other statements. -/
inductive IngressOp
  | deliver (event : RunnerIngress) (body : RunnerEvent)
  | persist (event : RunnerIngress)
  | redrive (now : Millis) (eventId : EventId)
  | crash
  | statement (runId : String) (write : StoreStatement)

namespace WorkflowLedger

/-- The transition a restart makes of a stored payload; other kinds belong to their owners. -/
def redrivenBody (now : Millis) (run : WorkflowRun) : IngressPayload → Option RunnerEvent
  | .attemptSucceeded nodeId attemptId artifactsJson =>
    some (.attemptSucceeded run.currentRevision nodeId attemptId artifactsJson)
  | .attemptFailed nodeId attemptId cause retrySafe =>
    some (.attemptFailed run.currentRevision nodeId attemptId cause retrySafe)
  | .claimExpired key expectedGen => some (.claimExpired now key expectedGen)
  | .shaHandoff final => some (.shaHandoff final)
  | .admission _ _ _ _ | .other _ => none

def storedEvent (run : WorkflowRun) (row : IngressRow) : RunnerIngress :=
  ⟨row.eventId, row.runId, row.payloadHash, row.payload, run.generation, run.stateVersion⟩

variable (host : RunnerHost) (s : WorkflowLedger)

def submission : IngressOp → Option (RunnerIngress × RunnerEvent)
  | .deliver event body => some (event, body)
  | .redrive now eventId =>
    match s.received eventId with
    | none => none
    | some row =>
      match s.getRun row.runId with
      | none => none
      | some run =>
        if run.state.isTerminal then none
        else (redrivenBody now run row.payload).map fun body => (storedEvent run row, body)
  | .persist _ | .crash | .statement _ _ => none

def besides : IngressOp → Except IngressError WorkflowLedger
  | .persist event => .ok (s.receive event)
  | .redrive _ eventId =>
    match s.received eventId with
    | none => .ok s
    | some row =>
      match s.getRun row.runId with
      | none => .ok s
      | some run => .ok (if run.state.isTerminal then s.markConsumed eventId .noop else s)
  | .statement runId write =>
    match s.getRun runId with
    | none => .ok s
    | some run =>
      match write.write (s.view run) with
      | .error e => .error (.applier e)
      | .ok v => .ok (s.writeBack v)
  | .deliver _ _ | .crash => .ok s

def ingressCall (op : IngressOp) : Except IngressError (Option CommitResult) × WorkflowLedger :=
  match s.submission op with
  | some (event, body) =>
    let (out, s) := s.commitTransition event (body.apply host)
    (out.map some, s)
  | none =>
    match s.besides op with
    | .error e => (.error e, s)
    | .ok s => (.ok none, s)

def ingressStep (op : IngressOp) : WorkflowLedger := (ingressCall host s op).2

/-- `listUnappliedIngress`: the rows received and not applied, as they were received. -/
def listUnappliedIngress (limit : Nat) (s : WorkflowLedger) : List IngressRow :=
  (s.ingress.select (·.disposition = .received)).take limit

/-- The part of `startupRecovery` that submits events again; what one of them throws is left to
the next restart. -/
def startupRecovery (now : Millis) (s : WorkflowLedger) : WorkflowLedger :=
  runFrom (ingressStep host) s ((s.listUnappliedIngress 100).map fun row =>
    .redrive now row.eventId)

/-! ## What is claimed of a step -/

def consumed (eventId : EventId) : Bool :=
  (s.ingress.get eventId).any (·.disposition ≠ .received)

def version (runId : String) : Nat :=
  ((s.getRun runId).map fun run => run.stateVersion).getD 0

def retriesSpent (runId : String) : Nat :=
  ((s.getRun runId).map fun run => run.budgets.workRetry.consumed).getD 0

def isCommitted : Except IngressError CommitResult → Bool
  | .ok ⟨.applied, none⟩ | .ok ⟨.noop, none⟩ => true
  | _ => false

def applied (op : IngressOp) : Option (RunnerIngress × RunnerEvent) :=
  (s.submission op).filter fun e =>
    s.consumed e.1.eventId = false ∧ isCommitted (s.commitTransition e.1 (e.2.apply host)).1

def appliesEvent (eventId : EventId) (s : WorkflowLedger) (op : IngressOp) : Bool :=
  (s.applied host op).any (·.1.eventId = eventId)

def appliesTo (runId : String) (s : WorkflowLedger) (op : IngressOp) : Bool :=
  (s.applied host op).any (·.1.runId = runId)

def spendsRetry (eventId : EventId) (s : WorkflowLedger) (op : IngressOp) : Bool :=
  (s.applied host op).any fun e => e.1.eventId = eventId ∧ RunnerEvent.isFailure e.2 ∧
    s.retriesSpent e.1.runId < (ingressStep host s op).retriesSpent e.1.runId

def target : IngressOp → Option String
  | .deliver event _ => some event.runId
  | .redrive _ eventId => (s.received eventId).map (·.runId)
  | .statement runId _ => some runId
  | .persist _ | .crash => none

structure StepLaws (s : WorkflowLedger) (op : IngressOp) : Prop where
  /-- A redelivery under another hash writes nothing. -/
  conflict : ∀ e ∈ s.submission op, ∀ row, s.ingress.get e.1.eventId = some row →
    row.payloadHash ≠ e.1.payloadHash → ingressStep host s op = s
  /-- What throws writes nothing. -/
  thrown : ∀ error, (ingressCall host s op).1 = .error error → ingressStep host s op = s
  /-- A step that applies no event, and is no statement of another component, leaves everything
  but the ingress. -/
  inert : s.applied host op = none → (∀ runId write, op ≠ .statement runId write) →
    ingressStep host s op = { s with ingress := (ingressStep host s op).ingress }
  /-- An event consumed without its transition belongs to a run that is over. -/
  moot : ∀ eventId, s.consumed eventId = false →
    (ingressStep host s op).consumed eventId = true → s.appliesEvent host eventId op = true ∨
      ∃ runId ∈ s.target op, ∃ run, s.getRun runId = some run ∧ run.state.isTerminal = true
  /-- A success is applied to a bound node only for the latest attempt of its card. -/
  current : ∀ e ∈ s.applied host op, ∀ revision nodeId attemptId artifactsJson,
    e.2 = .attemptSucceeded revision nodeId attemptId artifactsJson →
    ∀ run n cardId, s.getRun e.1.runId = some run → run.findNode revision nodeId = some n →
      n.workerCardId = some cardId →
      (latestAttempt s.db cardId).map (·.id) = some attemptId
  /-- A failure event spends at most one retry. -/
  retry : ∀ e ∈ s.applied host op, RunnerEvent.isFailure e.2 = true →
    (ingressStep host s op).retriesSpent e.1.runId ≤ s.retriesSpent e.1.runId + 1

section Envelope

variable {s : WorkflowLedger} {event : RunnerIngress} {apply : Applier} {eventId : EventId}

theorem get_receive (event : RunnerIngress) (s : WorkflowLedger) (eventId : EventId) :
    (s.receive event).ingress.get eventId =
      (s.ingress.get eventId <|>
        if eventId = event.eventId then some (receivedRow event) else none) := by
  cases hget : s.ingress.get eventId with
  | some row => exact Table.get_insertOrIgnore_of_some hget
  | none =>
    by_cases hid : eventId = event.eventId
    · subst hid
      have hfits : s.ingress.Fits (fun _ => false) (receivedRow event) := ⟨hget, by simp⟩
      rw [if_pos rfl]
      exact Table.get_insertOrIgnore_of_fits hfits
    · rw [if_neg hid]
      exact (Table.get_insertOrIgnore_of_ne hid).trans hget

theorem receive_of_known {row : IngressRow} (h : s.ingress.get event.eventId = some row) :
    s.receive event = s := by
  rw [receive, Table.insertOrIgnore_of_taken h]

@[simp]
theorem consumed_receive (event : RunnerIngress) (s : WorkflowLedger) (eventId : EventId) :
    (s.receive event).consumed eventId = s.consumed eventId := by
  rw [consumed, consumed, get_receive]
  cases s.ingress.get eventId with
  | some row => rfl
  | none =>
    by_cases hid : eventId = event.eventId
    · simp [hid, receivedRow]
    · simp [hid]

theorem consumed_markConsumed {disposition : IngressDisposition} (hd : disposition ≠ .received)
    (eventId : EventId) (s : WorkflowLedger) (id : EventId) :
    (s.markConsumed eventId disposition).consumed id =
      (s.consumed id || decide (id = eventId ∧ (s.ingress.get id).isSome)) := by
  rw [consumed, consumed, markConsumed, Table.get_updateWhere]
  cases hget : s.ingress.get id with
  | none => simp
  | some row =>
    have hkey : row.eventId = id := Table.key_of_get hget
    by_cases hid : id = eventId
    · cases hrow : row.disposition <;> simp [IngressRow.consume, hkey, hid, hrow, hd]
    · simp [hkey, hid]

theorem consumed_writeBack (v : RunView) (s : WorkflowLedger) (eventId : EventId) :
    (s.writeBack v).consumed eventId = s.consumed eventId := rfl

theorem getRun_writeBack (v : RunView) (s : WorkflowLedger) (runId : String) :
    (s.writeBack v).getRun runId = if runId = v.run.runId then some v.run else s.getRun runId :=
  Table.get_put s.runs v.run runId

def committed (s : WorkflowLedger) (event : RunnerIngress) (effect : TransitionEffect)
    (v : RunView) : WorkflowLedger :=
  ((s.receive event).writeBack { v with run := v.run.bump effect }).markConsumed event.eventId
    (if effect.noop then .noop else .applied)

/-- What a submission comes to: what it returns or throws, and the store after it. -/
inductive Outcome (s : WorkflowLedger) (event : RunnerIngress) (apply : Applier) :
    Except IngressError CommitResult → WorkflowLedger → Prop
  | thrown (error : IngressError) : Outcome s event apply (.error error) s
  | conflict (row : IngressRow) (hget : s.ingress.get event.eventId = some row)
      (hhash : row.payloadHash ≠ event.payloadHash) :
      Outcome s event apply (.ok ⟨.conflict, some (.conflictingPayload event.eventId)⟩) s
  | known (row : IngressRow) (result : CommitResult)
      (hget : s.ingress.get event.eventId = some row)
      (hhash : row.payloadHash = event.payloadHash) (hrow : row.disposition ≠ .received) :
      Outcome s event apply (.ok result) s
  | moot (row : IngressRow) (run : WorkflowRun)
      (hget : s.ingress.get event.eventId = some row)
      (hhash : row.payloadHash = event.payloadHash)
      (hrun : s.getRun event.runId = some run) (hended : run.state.isTerminal = true) :
      Outcome s event apply (.ok ⟨.noop, some (.terminalSinceReceipt event.eventId event.runId)⟩)
        (s.markConsumed event.eventId .noop)
  | applied (run : WorkflowRun) (effect : TransitionEffect) (v : RunView)
      (hhash : ∀ row, s.ingress.get event.eventId = some row →
        row.payloadHash = event.payloadHash)
      (hnew : s.consumed event.eventId = false) (hrun : s.getRun event.runId = some run)
      (happly : apply (s.view run) = .ok (effect, v)) :
      Outcome s event apply (.ok ⟨if effect.noop then .noop else .applied, none⟩)
        (s.committed event effect v)

theorem outcome_applyReceived (preexisting : Bool)
    (hknown : preexisting = true → ∃ row, s.ingress.get event.eventId = some row)
    (hhash : ∀ row, s.ingress.get event.eventId = some row →
        row.payloadHash = event.payloadHash)
    (hnew : s.consumed event.eventId = false) {out : CommitResult} {s' : WorkflowLedger}
    (h : applyReceived event preexisting apply (s.receive event) = .ok (out, s')) :
    Outcome s event apply (.ok out) s' := by
  unfold applyReceived at h
  split at h
  · cases h
  rename_i run hrun
  split at h
  · split at h
    · rename_i hmoot
      obtain ⟨row, hget⟩ := hknown hmoot.1
      cases h
      rw [receive_of_known hget]
      exact .moot row run hget (hhash row hget) hrun hmoot.2
    · cases h
  · split at h
    · cases h
    rename_i effect v happly
    split at h
    · cases h
    dsimp only at h
    split at h
    · cases h
    have hout : Outcome s event apply (.ok ⟨if effect.noop then .noop else .applied, none⟩)
        (s.committed event effect v) := .applied run effect v hhash hnew hrun happly
    split at h
    · rename_i hnoop
      cases h
      simpa [committed, hnoop] using hout
    · rename_i hnoop
      cases h
      simpa [committed, hnoop] using hout

/-- The spec of `commitTransition`. -/
theorem outcome_commitTransition (event : RunnerIngress) (apply : Applier) (s : WorkflowLedger) :
    Outcome s event apply (s.commitTransition event apply).1 (s.commitTransition event apply).2 := by
  unfold commitTransition transaction
  cases h : applyEnvelope event apply s with
  | error e => exact .thrown e
  | ok out =>
    unfold applyEnvelope at h
    split at h
    · rename_i hfree
      refine outcome_applyReceived false (by simp) ?_ (by simp [consumed, hfree]) h
      intro row hget
      cases hfree.symm.trans hget
    rename_i row hget
    split at h
    · rename_i hhash
      cases h
      exact .conflict row hget hhash
    rename_i hhash
    have hsame : row.payloadHash = event.payloadHash := by simpa using hhash
    split at h
    · rename_i hrow
      refine outcome_applyReceived true (fun _ => ⟨row, hget⟩) ?_
        (by simp [consumed, hget, hrow]) (by rwa [receive_of_known hget])
      intro row' hget'
      cases hget.symm.trans hget'
      exact hsame
    · rename_i hrow
      cases h
      exact .known row _ hget hsame (by simp [hrow])
    · rename_i hrow
      cases h
      exact .known row _ hget hsame (by simp [hrow])

end Envelope

section Steps

variable {run : WorkflowRun} {e : RunnerIngress × RunnerEvent}

variable {host : RunnerHost} {s : WorkflowLedger} {op : IngressOp}

theorem sameRow_map {f : WorkflowRun → RunView} {x : Except WorkflowError WorkflowRun} {v : RunView}
    (hf : ∀ run', (f run').run = run') (hx : ∀ run', x = .ok run' → run.SameRow run')
    (h : x.map f = .ok v) : run.SameRow v.run := by
  obtain ⟨run', hrun', rfl⟩ := map_eq_ok.1 h
  rw [hf]
  exact hx run' hrun'

/-- No statement beside the envelope writes the row of a run. -/
theorem sameRow_write {v v' : RunView} {write : StoreStatement} (h : write.write v = .ok v') :
    v.run.SameRow v'.run := by
  cases write with
  | claimCommand key owner now =>
    cases h
    split
    · exact .refl v.run
    · rename_i run' hrun'
      exact (writes_claimCommand (Q := False) hrun').sameHeader.sameRow
  | releaseClaim key owner token =>
    cases h
    exact (writes_releaseClaim (Q := False) key owner token v.run).sameHeader.sameRow
  | completeCommand key owner token =>
    exact sameRow_map (fun _ => rfl) (fun _ hrun' =>
      (writes_completeCommand (Q := False) hrun').sameHeader.sameRow) h
  | markNodeRunning revision nodeId =>
    cases h
    exact (writes_markNodeRunning (Q := False) revision nodeId v.run).sameHeader.sameRow
  | upsertOperation op => exact sameRow_map (fun _ => rfl) (fun _ => sameRow_upsertOperation) h
  | queueCommand key payload =>
    exact sameRow_map (fun _ => rfl) (fun _ => sameRow_queueCommand) h
  | noteInspectionAlive key gen next =>
    cases h
    exact (writes_noteInspection (Q := False) key gen 0 next v.run).sameHeader.sameRow
  | bindNodeWorker revision nodeId cardId attemptId =>
    exact sameRow_map (fun _ => rfl) (fun _ hrun' =>
      (writes_bindNodeWorker (Q := False) hrun').sameHeader.sameRow) h
  | bumpDeliveryAttempts nodeId =>
    obtain ⟨⟨attempts, run'⟩, hrun', rfl⟩ := map_eq_ok.1 h
    exact (writes_bumpDeliveryAttempts (Q := False) hrun').sameHeader.sameRow
  | setDeliveryOutcome nodeId outcome receipt =>
    exact sameRow_map (fun _ => rfl) (fun _ hrun' =>
      (writes_setDeliveryOutcome (Q := False) hrun').sameHeader.sameRow) h
  | answerInput inputId response =>
    cases h
    exact .refl v.run
  | workers db =>
    cases h
    exact .refl v.run

theorem ingressStep_of_submission (h : s.submission op = some e) :
    ingressStep host s op = (s.commitTransition e.1 (e.2.apply host)).2 := by
  simp [ingressStep, ingressCall, h]

/-- What a call that submits no event writes. -/
theorem besides_cases (host : RunnerHost) (h : s.submission op = none) :
    ingressStep host s op = s ∨ (∃ event, ingressStep host s op = s.receive event) ∨
      (∃ eventId, ∃ runId ∈ s.target op, ∃ run, s.getRun runId = some run ∧
        run.state.isTerminal = true ∧ ingressStep host s op = s.markConsumed eventId .noop) ∨
      ∃ runId write run v, op = .statement runId write ∧ s.getRun runId = some run ∧
        run.SameRow v.run ∧ ingressStep host s op = s.writeBack v := by
  have hstep : ingressStep host s op = match s.besides op with
      | .error _ => s
      | .ok s' => s' := by
    rw [ingressStep, ingressCall, h]
    cases s.besides op <;> rfl
  rw [hstep]
  cases op with
  | deliver event body => exact .inl rfl
  | crash => exact .inl rfl
  | persist event => exact .inr (.inl ⟨event, rfl⟩)
  | redrive now eventId =>
    simp only [besides]
    cases hrow : s.received eventId with
    | none => exact .inl rfl
    | some row =>
      dsimp only
      cases hrun : s.getRun row.runId with
      | none => exact .inl rfl
      | some run =>
        dsimp only
        split
        · rename_i hended
          refine .inr (.inr (.inl ⟨eventId, row.runId, ?_, run, hrun, hended, rfl⟩))
          simp [target, hrow]
        · exact .inl rfl
  | statement runId write =>
    simp only [besides]
    cases hrun : s.getRun runId with
    | none => exact .inl rfl
    | some run =>
      dsimp only
      cases hwrite : write.write (s.view run) with
      | error e => exact .inl rfl
      | ok v =>
        exact .inr (.inr (.inr
          ⟨runId, write, run, v, rfl, hrun, sameRow_write hwrite, rfl⟩))

/-! ### Events -/

theorem consumed_markConsumed_of (h : s.consumed eventId = true) {disposition : IngressDisposition}
    (hd : disposition ≠ .received) (id : EventId) :
    (s.markConsumed id disposition).consumed eventId = true := by
  rw [consumed_markConsumed hd, h, Bool.true_or]

theorem consumed_kept {eventId : EventId} (h : s.consumed eventId = true) :
    (ingressStep host s op).consumed eventId = true := by
  cases hsub : s.submission op with
  | none =>
    rcases besides_cases host hsub with hstep | ⟨event, hstep⟩ |
      ⟨id, runId, -, run, -, -, hstep⟩ | ⟨runId, write, run, v, -, -, -, hstep⟩
    · rwa [hstep]
    · rwa [hstep, consumed_receive]
    · rw [hstep]
      exact consumed_markConsumed_of h (by decide) id
    · rwa [hstep, consumed_writeBack]
  | some e =>
    have hout := outcome_commitTransition e.1 (e.2.apply host) s
    rw [ingressStep_of_submission hsub]
    generalize s.commitTransition e.1 (e.2.apply host) = out at hout ⊢
    obtain ⟨result, s'⟩ := out
    cases hout with
    | thrown | conflict | known => exact h
    | moot => exact consumed_markConsumed_of h (by decide) _
    | applied run effect v _ _ _ _ =>
      refine consumed_markConsumed_of ?_ (by split <;> decide) _
      rwa [consumed_writeBack, consumed_receive]

theorem applied_some (h : s.applied host op = some e) :
    s.submission op = some e ∧ s.consumed e.1.eventId = false ∧
      (∀ row, s.ingress.get e.1.eventId = some row → row.payloadHash = e.1.payloadHash) ∧
      ∃ run effect v, s.getRun e.1.runId = some run ∧
        e.2.apply host (s.view run) = .ok (effect, v) ∧
        ingressStep host s op = s.committed e.1 effect v := by
  obtain ⟨hsub, hcond⟩ := Option.filter_eq_some_iff.1 h
  simp only [decide_eq_true_eq] at hcond
  obtain ⟨hnew, hcommitted⟩ := hcond
  have hout := outcome_commitTransition e.1 (e.2.apply host) s
  rw [ingressStep_of_submission hsub]
  generalize s.commitTransition e.1 (e.2.apply host) = out at hout hcommitted ⊢
  obtain ⟨result, s'⟩ := out
  cases hout with
  | thrown | conflict | moot => cases hcommitted
  | known row result hget hhash hrow => simp [consumed, hget, hrow] at hnew
  | applied run effect v hhash _ hrun happly =>
    exact ⟨hsub, hnew, hhash, run, effect, v, hrun, happly, rfl⟩

/-- A submission that applies nothing leaves the store, or consumes the event of a run that is
over. -/
theorem submission_of_applied_none
    (hsub : s.submission op = some e) (h : s.applied host op = none) :
    ingressStep host s op = s ∨ ∃ run, s.getRun e.1.runId = some run ∧
      run.state.isTerminal = true ∧ ingressStep host s op = s.markConsumed e.1.eventId .noop := by
  have hout := outcome_commitTransition e.1 (e.2.apply host) s
  rw [applied, hsub, Option.filter_some] at h
  rw [ingressStep_of_submission hsub]
  generalize s.commitTransition e.1 (e.2.apply host) = out at hout h ⊢
  obtain ⟨result, s'⟩ := out
  cases hout with
  | thrown | conflict | known => exact .inl rfl
  | moot row run _ _ hrun hended => exact .inr ⟨run, hrun, hended, rfl⟩
  | applied run effect v _ hnew _ _ =>
    exfalso
    cases hnoop : effect.noop <;> simp [hnew, hnoop, isCommitted] at h

theorem consumed_of_applied (h : s.applied host op = some e) :
    (ingressStep host s op).consumed e.1.eventId = true := by
  obtain ⟨-, -, -, run, effect, v, -, -, hstep⟩ := applied_some h
  rw [hstep, committed, consumed_markConsumed (by split <;> decide)]
  have hget : (s.receive e.1).ingress.get e.1.eventId ≠ none := by
    rw [get_receive, if_pos rfl]
    cases s.ingress.get e.1.eventId <;> simp
  simp only [Bool.or_eq_true, decide_eq_true_eq]
  exact .inr ⟨trivial, Option.isSome_iff_ne_none.2 hget⟩

/-- **An event that is applied was not consumed, and is consumed from then on.** -/
theorem appliesEvent_consumed (host : RunnerHost) (eventId : EventId) (s : WorkflowLedger)
    (op : IngressOp) :
    (s.appliesEvent host eventId op).toNat + (s.consumed eventId).toNat ≤
      ((ingressStep host s op).consumed eventId).toNat := by
  cases happlied : s.applied host op with
  | none =>
    rw [appliesEvent, happlied]
    cases hconsumed : s.consumed eventId with
    | false => simp
    | true => simp [consumed_kept hconsumed]
  | some e =>
    by_cases hid : e.1.eventId = eventId
    · have hnew := (applied_some happlied).2.1
      have hafter := consumed_of_applied happlied
      rw [hid] at hnew hafter
      simp [appliesEvent, happlied, hid, hnew, hafter]
    · cases hconsumed : s.consumed eventId with
      | false => simp [appliesEvent, happlied, hid]
      | true => simp [appliesEvent, happlied, hid, consumed_kept hconsumed]

/-! ### Versions -/

theorem version_writeBack {v : RunView} {runId : String} (hrun : s.getRun runId = some run)
    (hrow : run.SameRow v.run) (id : String) : (s.writeBack v).version id = s.version id := by
  have hkey : run.runId = runId := Table.key_of_get hrun
  have hid : v.run.runId = runId := (congrArg WorkflowRunRow.runId hrow.row).trans hkey
  rw [version, version, getRun_writeBack, hid]
  by_cases h : id = runId
  · rw [if_pos h, h, hrun]
    exact hrow.stateVersion
  · rw [if_neg h]

theorem getRun_committed {event : RunnerIngress} (effect : TransitionEffect)
    {v : RunView} (hrun : s.getRun event.runId = some run) (hrow : run.SameRow v.run)
    (id : String) : (s.committed event effect v).getRun id =
      if id = event.runId then some (v.run.bump effect) else s.getRun id := by
  have hkey : run.runId = event.runId := Table.key_of_get hrun
  have hid : v.run.runId = event.runId := (congrArg WorkflowRunRow.runId hrow.row).trans hkey
  have hput := getRun_writeBack { v with run := v.run.bump effect } (s.receive event) id
  rwa [show ({ v with run := v.run.bump effect } : RunView).run.runId = event.runId from hid]
    at hput

/-- **The version of a run counts the events applied to it.** -/
theorem appliesTo_version (host : RunnerHost) (runId : String) (s : WorkflowLedger)
    (op : IngressOp) :
    (s.appliesTo host runId op).toNat + s.version runId =
      (ingressStep host s op).version runId := by
  cases happlied : s.applied host op with
  | none =>
    have hsame : (ingressStep host s op).version runId = s.version runId := by
      cases hsub : s.submission op with
      | none =>
        rcases besides_cases host hsub with hstep | ⟨event, hstep⟩ |
          ⟨id, _, -, _, -, -, hstep⟩ | ⟨id, write, run, v, -, hrun, hrow, hstep⟩
        · rw [hstep]
        · rw [hstep]
          rfl
        · rw [hstep]
          rfl
        · rw [hstep]
          exact version_writeBack hrun hrow runId
      | some e =>
        rcases submission_of_applied_none hsub happlied with hstep | ⟨run, -, -, hstep⟩
        · rw [hstep]
        · rw [hstep]
          rfl
    simp [appliesTo, happlied, hsame]
  | some e =>
    obtain ⟨-, -, -, run, effect, v, hrun, happly, hstep⟩ := applied_some happlied
    have hrow := RunnerEvent.apply_sameRow e.2 happly
    have hget := getRun_committed effect hrun hrow runId
    rw [hstep, version, version, hget]
    by_cases hid : runId = e.1.runId
    · have hversion : v.run.stateVersion = run.stateVersion := hrow.stateVersion
      subst hid
      simp only [appliesTo, happlied, Option.any_some, decide_true, Bool.toNat_true, if_pos, hrun,
        Option.map_some, Option.getD_some]
      change 1 + run.stateVersion = v.run.stateVersion + 1
      omega
    · simp [appliesTo, happlied, hid, Ne.symm hid]

/-! ### The laws of a step -/

theorem conflict_law (hsub : s.submission op = some e)
    {row : IngressRow} (hget : s.ingress.get e.1.eventId = some row)
    (hhash : row.payloadHash ≠ e.1.payloadHash) : ingressStep host s op = s := by
  have hout := outcome_commitTransition e.1 (e.2.apply host) s
  rw [ingressStep_of_submission hsub]
  generalize s.commitTransition e.1 (e.2.apply host) = out at hout ⊢
  obtain ⟨result, s'⟩ := out
  cases hout with
  | thrown | conflict | known => rfl
  | moot row' run hget' hsame _ _ =>
    cases hget.symm.trans hget'
    exact absurd hsame hhash
  | applied run effect v hsame _ _ _ => exact absurd (hsame row hget) hhash

theorem thrown_law {error : IngressError} (h : (ingressCall host s op).1 = .error error) :
    ingressStep host s op = s := by
  cases hsub : s.submission op with
  | none =>
    rw [ingressCall, hsub] at h
    rw [ingressStep, ingressCall, hsub]
    cases hbesides : s.besides op with
    | error e => rfl
    | ok s' =>
      rw [hbesides] at h
      cases h
  | some e =>
    have hout := outcome_commitTransition e.1 (e.2.apply host) s
    rw [ingressStep_of_submission hsub]
    simp only [ingressCall, hsub] at h
    generalize s.commitTransition e.1 (e.2.apply host) = out at hout h ⊢
    obtain ⟨result, s'⟩ := out
    cases hout with
    | thrown => rfl
    | conflict | known | moot | applied => cases h

theorem inert_law (happlied : s.applied host op = none)
    (hstatement : ∀ runId write, op ≠ .statement runId write) :
    ingressStep host s op = { s with ingress := (ingressStep host s op).ingress } := by
  cases hsub : s.submission op with
  | none =>
    rcases besides_cases host hsub with hstep | ⟨event, hstep⟩ |
      ⟨id, _, -, _, -, -, hstep⟩ | ⟨runId, write, _, _, hop, -⟩
    · rw [hstep]
    · rw [hstep]
      rfl
    · rw [hstep]
      rfl
    · exact absurd hop (hstatement runId write)
  | some e =>
    rcases submission_of_applied_none hsub happlied with hstep | ⟨run, -, -, hstep⟩
    · rw [hstep]
    · rw [hstep]
      rfl

theorem target_of_submission (hsub : s.submission op = some e) : e.1.runId ∈ s.target op := by
  cases op with
  | deliver event body =>
    cases hsub
    rfl
  | redrive now eventId =>
    simp only [submission] at hsub
    split at hsub
    · cases hsub
    rename_i row hrow
    split at hsub
    · cases hsub
    · split at hsub
      · cases hsub
      · obtain ⟨body, -, rfl⟩ := Option.map_eq_some_iff.1 hsub
        simp [target, hrow, storedEvent]
  | persist | crash | statement => cases hsub

theorem moot_law {eventId : EventId} (hnew : s.consumed eventId = false)
    (hafter : (ingressStep host s op).consumed eventId = true) :
    s.appliesEvent host eventId op = true ∨ ∃ runId ∈ s.target op, ∃ run,
      s.getRun runId = some run ∧ run.state.isTerminal = true := by
  cases happlied : s.applied host op with
  | none =>
    right
    cases hsub : s.submission op with
    | none =>
      rcases besides_cases host hsub with hstep | ⟨event, hstep⟩ |
        ⟨id, runId, htarget, run, hrun, hended, -⟩ | ⟨runId, write, run, v, -, -, -, hstep⟩
      · rw [hstep, hnew] at hafter
        cases hafter
      · rw [hstep, consumed_receive, hnew] at hafter
        cases hafter
      · exact ⟨runId, htarget, run, hrun, hended⟩
      · rw [hstep, consumed_writeBack, hnew] at hafter
        cases hafter
    | some e =>
      rcases submission_of_applied_none hsub happlied with hstep | ⟨run, hrun, hended, -⟩
      · rw [hstep, hnew] at hafter
        cases hafter
      · exact ⟨e.1.runId, target_of_submission hsub, run, hrun, hended⟩
  | some e =>
    obtain ⟨-, -, -, run, effect, v, -, -, hstep⟩ := applied_some happlied
    rw [hstep, committed, consumed_markConsumed (by split <;> decide), consumed_writeBack,
      consumed_receive, hnew, Bool.false_or, decide_eq_true_eq] at hafter
    left
    simp [appliesEvent, happlied, hafter.1]

theorem current_law (h : s.applied host op = some e)
    {revision : Nat} {nodeId : NodeId} {attemptId artifactsJson : String}
    (hbody : e.2 = .attemptSucceeded revision nodeId attemptId artifactsJson)
    {n : NodeRow} {cardId : Nat} (hrun : s.getRun e.1.runId = some run)
    (hn : run.findNode revision nodeId = some n) (hcard : n.workerCardId = some cardId) :
    (latestAttempt s.db cardId).map (·.id) = some attemptId := by
  obtain ⟨-, -, -, run', effect, v, hrun', happly, -⟩ := applied_some h
  cases hrun.symm.trans hrun'
  rw [hbody] at happly
  obtain ⟨run', heffect, -⟩ := onRun_ok happly
  change run.attemptSucceededEffect host.envelopeJson s.db revision nodeId attemptId
    artifactsJson = _ at heffect
  unfold attemptSucceededEffect at heffect
  split at heffect
  · cases heffect
  rename_i m hm
  cases hn.symm.trans (requireNode_ok hm).1
  simp only [requireCurrentAttempt, hcard] at heffect
  cases hlatest : latestAttempt s.db cardId with
  | none => simp [hlatest] at heffect
  | some latest =>
    by_cases hid : latest.id = attemptId
    · simp [hid]
    · simp [hlatest, hid] at heffect

theorem retry_law (h : s.applied host op = some e) (hfailure : RunnerEvent.isFailure e.2 = true) :
    (ingressStep host s op).retriesSpent e.1.runId ≤ s.retriesSpent e.1.runId + 1 := by
  obtain ⟨-, -, -, run, effect, v, hrun, happly, hstep⟩ := applied_some h
  have hrow := RunnerEvent.apply_sameRow e.2 happly
  rw [hstep, retriesSpent, retriesSpent, getRun_committed effect hrun hrow, if_pos rfl, hrun]
  cases hbody : e.2 with
  | attemptFailed revision nodeId attemptId cause retrySafe =>
    rw [hbody] at happly
    obtain ⟨run', heffect, rfl⟩ := onRun_ok happly
    unfold attemptFailedEffect at heffect
    split at heffect
    · cases heffect
    · have hspent := workRetry_failNodeEffect heffect
      exact hspent
  | _ =>
    rw [hbody] at hfailure
    cases hfailure

theorem stepLaws (host : RunnerHost) (s : WorkflowLedger) (op : IngressOp) :
    StepLaws host s op where
  conflict := fun _ he _ hget hhash => conflict_law he hget hhash
  thrown := fun _ h => thrown_law h
  inert := fun h hstatement => inert_law h hstatement
  moot := fun _ hnew hafter => moot_law hnew hafter
  current := fun _ he _ _ _ _ hbody _ _ _ hrun hn hcard => current_law he hbody hrun hn hcard
  retry := fun _ he hfailure => retry_law he hfailure

end Steps

/-! ## Runs -/

/-- **Ingress is applied once.**  Over any sequence of deliveries, redeliveries, crashes and
restarts, each event is applied at most once and spends at most once of the allowance for
retries, the version of a run counts the events applied to it, and every step keeps to the laws
of a step. -/
theorem ingress_applied_once (host : RunnerHost) (s : WorkflowLedger) (ops : List IngressOp) :
    (∀ eventId, countSteps (ingressStep host) (appliesEvent host eventId) s ops ≤ 1 ∧
      countSteps (ingressStep host) (spendsRetry host eventId) s ops ≤ 1) ∧
    (∀ runId, (runFrom (ingressStep host) s ops).version runId =
      s.version runId + countSteps (ingressStep host) (appliesTo host runId) s ops) ∧
    StepsMeet (ingressStep host) (StepLaws host) s ops := by
  refine ⟨fun eventId => ?_, fun runId => ?_, ?_⟩
  · have honce : countSteps (ingressStep host) (appliesEvent host eventId) s ops ≤ 1 :=
      countSteps_le_one (appliesEvent_consumed host eventId) s ops
    refine ⟨honce, (countSteps_le_of_imp (fun s op hspends => ?_) ops s).trans honce⟩
    obtain ⟨e, happlied, hspends⟩ := (Option.any_eq_true _ _).1 hspends
    simp only [decide_eq_true_eq] at hspends
    simp [appliesEvent, happlied, hspends.1]
  · have hcount := countSteps_add (appliesTo_version host runId) ops s
    omega
  · exact stepsMeet_of_all (stepLaws host) ops s
/-! ### Events of runs and attempts that are over -/

def lateHost : RunnerHost := ⟨["general"], fun _ => ""⟩

def triedTwice : Db :=
  { Db.empty with
    workerAttempts := Table.ofRows [pendingAttempt "first" 5 "contract" 0 .agent "agent" 0,
      pendingAttempt "second" 5 "contract" 1 .agent "agent" 1] }

def lateStart : WorkflowLedger :=
  { initial triedTwice with
    runs := Table.ofRows [.admitted "run" .interactive 1 none "operation" ⟨2, 2, 2, 1⟩ 0] }

def workPlan : PlanProposal where
  nodes := [⟨"work", .work, "do it", "general", ["out"], ["done"], [], false⟩]
  requiredOutputs := ["out"]
  allowPartial := false

def eventAt (text : String) (stateVersion : Nat) : RunnerIngress :=
  ⟨.given text, "run", text, .other text, 1, stateVersion⟩

def lateFailures : List IngressOp :=
  [.deliver (eventAt "plan" 0) (.planAccepted workPlan),
    .statement "run" (.bindNodeWorker 1 (.planned 1 0) 5 none),
    .deliver (eventAt "failed" 1) (.attemptFailed 1 (.planned 1 0) "first" "late" true),
    .deliver (eventAt "failed again" 2) (.attemptFailed 1 (.planned 1 0) "first" "later" true)]

/-- A restart consumes an event of a run that is over, and the version of the run does not count
it; and two failure events of one attempt, which a newer attempt of the card has replaced, rewrite
the node and spend two retries. -/
theorem late_events_uncounted :
    (let s := runFrom (ingressStep lateHost) lateStart
      [.persist (eventAt "late" 0), .deliver (eventAt "cancel" 0) (.cancelRequested "stop"),
        .redrive 0 (.given "late")]
    (s.ingress.rows.map fun row => (row.runId, row.disposition)) =
        [("run", .noop), ("run", .applied)] ∧ s.version "run" = 1) ∧
      let s := runFrom (ingressStep lateHost) lateStart lateFailures
      (latestAttempt s.db 5).map (·.id) = some "second" ∧
        ((s.getRun "run").bind fun run => (run.findNode 1 (.planned 1 0)).map fun n =>
          (n.workerCardId, n.attemptId, n.outcome)) =
            some (some 5, some "first", some (.text "later")) ∧
        s.retriesSpent "run" = 2 := by
  decide +kernel

end WorkflowLedger

end Abtars
