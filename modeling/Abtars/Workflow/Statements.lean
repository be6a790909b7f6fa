import Abtars.Workflow.Moves

/-!
# The statements of an applier on commands and deliveries

`Write` says what an applier may do to the rows of a run.  Here each statement on a command or a
delivery has a name, so that an operation can be told from another by the statements it makes.
-/

namespace Abtars

open Lib

/-! ## Statements -/

/-- A statement on the rows of a run; `rest` stands for those that touch neither a command nor a
delivery and insert no node.  A claim is made with a fresh token, outside the appliers. -/
inductive RunStatement
  | rest
  | node (row : NodeRow)
  | queue (key : CommandKey) (payload : CommandPayload)
  | claim (key : CommandKey)
  | complete (key : CommandKey) (owner : String) (token : Nat)
  | release (key : CommandKey) (owner : String) (token : Nat)
  | cancel
  | cancelWork
  | inspect (key : CommandKey) (gen : Nat)
  | oblige (nodeId : NodeId) (revision : Nat)
  | send (nodeId : NodeId)
  | outcome (nodeId : NodeId) (outcome : DeliveryOutcome)

/-- The statements of an operation that handles no delivery; it completes the claim it was given
and no other command. -/
def RunStatement.Beside (claim : Option ClaimAuthority) : RunStatement → Prop
  | .queue key _ | .claim key => key.action ≠ .deliver
  | .complete key owner token => claim = some ⟨key, owner, token⟩
  | .release _ _ _ | .oblige _ _ | .send _ | .outcome _ _ => False
  | _ => True

def RunStatement.Inspects (key : CommandKey) (gen : Nat) (w : RunStatement) : Prop :=
  w.Beside none ∨ (∃ owner token, w = .complete key owner token ∨ w = .release key owner token) ∨
    w = .inspect key gen ∨ (key.action = .deliver ∧ w = .outcome key.nodeId .unknown)

theorem NodeRow.Kept.trans {a b c : NodeRow} (h : a.Kept b) (h' : b.Kept c) : a.Kept c :=
  ⟨h'.revision.trans h.revision, h'.nodeId.trans h.nodeId, h'.kind.trans h.kind,
    h.isOpen ∘ h'.isOpen⟩

namespace WorkflowRun

variable {attemptId : Option String}

def Dropped (c c' : WorkflowCommand) : Prop :=
  c' = c ∨ c.status.isOpen = true ∧ c'.status = .cancelled ∧ c'.toCommandKey = c.toCommandKey ∧
    c'.claimToken = c.claimToken

theorem Dropped.refl (c : WorkflowCommand) : Dropped c c := .inl rfl

structure KeepsNodes (run run' : WorkflowRun) : Prop where
  successor : ∀ n ∈ run.nodes, ∃ n' ∈ run'.nodes, n.Kept n'
  origin : ∀ n' ∈ run'.nodes, ∃ n ∈ run.nodes, n.Kept n'

structure SameWork (run run' : WorkflowRun) : Prop where
  runId : run'.runId = run.runId
  generation : run'.generation = run.generation
  nodes : run.KeepsNodes run'

inductive Executes : RunStatement → WorkflowRun → WorkflowRun → Prop
  | rest {run run' : WorkflowRun} (hwork : run.SameWork run')
      (hcommands : run'.commands = run.commands) (hdeliveries : run'.deliveries = run.deliveries) :
      Executes .rest run run'
  | node {run run' : WorkflowRun} {row : NodeRow} (hnamed : row.nodeId.IsOf row.revision)
      (h : run.insertNode row = .ok run') : Executes (.node row) run run'
  | queue {run run' : WorkflowRun} {key : CommandKey} {payload : CommandPayload}
      (h : run.queueCommand key payload = .ok run') : Executes (.queue key payload) run run'
  | complete {run run' : WorkflowRun} {key : CommandKey} {owner : String} {token : Nat}
      (h : run.completeCommand key owner token = .ok run') :
      Executes (.complete key owner token) run run'
  | release (run : WorkflowRun) (key : CommandKey) (owner : String) (token : Nat) :
      Executes (.release key owner token) run (run.releaseClaim key owner token)
  | cancel {run : WorkflowRun} {commands : Table WorkflowCommand}
      (h : Table.Evolves Dropped (fun _ => False) run.commands commands) :
      Executes .cancel run { run with commands }
  | cancelWork (run : WorkflowRun) : Executes .cancelWork run run.cancelWork
  | inspect {run : WorkflowRun} {key : CommandKey} {gen : Nat} (c : WorkflowCommand)
      (inconclusive : Nat) (next : Millis) (hc : run.commands.get key = some c)
      (hclaimed : c.status = .claimed) (hgen : c.inspectGen + 1 = gen) :
      Executes (.inspect key gen) run (run.noteInspectionInconclusive key gen inconclusive next)
  | oblige (run : WorkflowRun) (nodeId : NodeId) (revision : Nat) :
      Executes (.oblige nodeId revision) run (run.insertDelivery nodeId revision)
  | send {run run' : WorkflowRun} {nodeId : NodeId} {attempts : Nat}
      (h : run.bumpDeliveryAttempts nodeId = .ok (attempts, run')) :
      Executes (.send nodeId) run run'
  | outcome {run run' : WorkflowRun} {nodeId : NodeId} {outcome : DeliveryOutcome}
      {receipt : Option String} (h : run.setDeliveryOutcome nodeId outcome receipt = .ok run') :
      Executes (.outcome nodeId outcome) run run'

def Script (A : RunStatement → Prop) : WorkflowRun → WorkflowRun → Prop :=
  Relation.ReflTransGen fun run run' => ∃ w, A w ∧ Executes w run run'

variable {A B : RunStatement → Prop} {run run' : WorkflowRun} {claim : Option ClaimAuthority}

namespace Script

theorem refl (run : WorkflowRun) : Script A run run := Relation.ReflTransGen.refl

theorem trans {a b c : WorkflowRun} (h : Script A a b) (h' : Script A b c) : Script A a c :=
  Relation.ReflTransGen.trans h h'

theorem single {w : RunStatement} (hA : A w) (h : Executes w run run') : Script A run run' :=
  Relation.ReflTransGen.single ⟨w, hA, h⟩

theorem mono (h : Script A run run') (hAB : ∀ w, A w → B w) : Script B run run' :=
  h.lift id fun _ _ ⟨w, hw, hexec⟩ => ⟨w, hAB w hw, hexec⟩

theorem keeps {P : WorkflowRun → Prop} (hstep : ∀ w a b, A w → Executes w a b → P a → P b)
    (h : Script A run run') (hP : P run) : P run' := by
  induction h with
  | refl => exact hP
  | tail _ hlast ih =>
    obtain ⟨w, hw, hexec⟩ := hlast
    exact hstep w _ _ hw hexec ih

end Script

/-! ## Statements beside commands and deliveries -/

theorem KeepsNodes.refl (run : WorkflowRun) : run.KeepsNodes run :=
  ⟨fun n hn => ⟨n, hn, .refl n⟩, fun n hn => ⟨n, hn, .refl n⟩⟩

theorem KeepsNodes.trans {a b c : WorkflowRun} (h : a.KeepsNodes b) (h' : b.KeepsNodes c) :
    a.KeepsNodes c := by
  constructor
  · intro n hn
    obtain ⟨m, hm, hkept⟩ := h.successor n hn
    obtain ⟨n', hn', hkept'⟩ := h'.successor m hm
    exact ⟨n', hn', hkept.trans hkept'⟩
  intro n' hn'
  obtain ⟨m, hm, hkept'⟩ := h'.origin n' hn'
  obtain ⟨n, hn, hkept⟩ := h.origin m hm
  exact ⟨n, hn, hkept.trans hkept'⟩

theorem keepsNodes_of_evolves
    (h : Table.Evolves NodeRow.Kept (fun _ => False) run.nodes run'.nodes) :
    run.KeepsNodes run' :=
  ⟨fun _ hn => h.successor hn, fun _ hn => (h.origin hn).resolve_right id⟩

theorem keepsNodes_of_eq (h : run'.nodes = run.nodes) : run.KeepsNodes run' :=
  keepsNodes_of_evolves (h ▸ Table.evolves_refl NodeRow.Kept.refl)

theorem Write.keepsNodes {Q : Prop} (h : Write Q run run') : run.KeepsNodes run' := by
  cases h with
  | nodes nodes h => exact keepsNodes_of_evolves h
  | queue _ _ _ hqueue => exact keepsNodes_of_eq (by rw [queueCommand_rest hqueue])
  | operation _ _ hop => exact keepsNodes_of_eq (by rw [upsertOperation_rest hop])
  | budget scope => exact keepsNodes_of_eq (by rw [consumeBudget_eq])
  | _ => exact keepsNodes_of_eq rfl

theorem Writes.keepsNodes {Q : Prop} (h : Writes Q run run') : run.KeepsNodes run' := by
  induction h with
  | refl => exact .refl run
  | tail _ hlast ih => exact ih.trans hlast.keepsNodes

theorem script_rest (hwork : run.SameWork run') (hcommands : run'.commands = run.commands)
    (hdeliveries : run'.deliveries = run.deliveries) : Script (·.Beside claim) run run' := by
  have hbeside : RunStatement.rest.Beside claim := trivial
  exact .single hbeside (.rest hwork hcommands hdeliveries)

theorem Writes.script {Q : Prop} (h : Writes Q run run') (hcommands : run'.commands = run.commands)
    (hdeliveries : run'.deliveries = run.deliveries) : Script (·.Beside claim) run run' :=
  script_rest ⟨congrArg WorkflowRunRow.runId h.sameHeader.row, h.sameHeader.generation,
    h.keepsNodes⟩ hcommands hdeliveries

theorem script_setNodeOutcome {revision : Nat} {nodeId : NodeId} {status : NodeStatus}
    {outcome : Option NodeOutcome} (hstatus : status.isOpen = true → run.NodeOpen revision nodeId)
    (h : run.setNodeOutcome revision nodeId status outcome attemptId = .ok run') :
    Script (·.Beside claim) run run' := by
  refine (writes_setNodeOutcome (Q := False) hstatus h).script ?_ ?_
  all_goals
    obtain ⟨-, rfl⟩ := setNodeOutcome_ok h
    rfl

theorem script_closeNode {revision : Nat} {nodeId : NodeId} {status : NodeStatus}
    {outcome : Option NodeOutcome}
    (h : run.setNodeOutcome revision nodeId status outcome attemptId = .ok run')
    (hstatus : status.isOpen = false) : Script (·.Beside claim) run run' :=
  script_setNodeOutcome (fun hopen => by rw [hstatus] at hopen; cases hopen) h

theorem script_upsertOperation {op : OperationRow} (h : run.upsertOperation op = .ok run') :
    Script (·.Beside claim) run run' := by
  have hrest := upsertOperation_rest h
  refine script_rest ⟨?_, ?_, keepsNodes_of_eq ?_⟩ ?_ ?_ <;> rw [hrest]

theorem script_consumeBudget {scope : BudgetScope} {ok : Bool}
    (h : run.consumeBudget scope = (ok, run')) : Script (·.Beside claim) run run' := by
  have hrest : run' = { run with budgets := (run.consumeBudget scope).2.budgets } := by
    rw [← consumeBudget_eq, h]
  refine script_rest ⟨?_, ?_, keepsNodes_of_eq ?_⟩ ?_ ?_ <;> rw [hrest]

theorem script_closeOpenOperations (status : OperationStatus) (run : WorkflowRun) :
    Script (·.Beside claim) run (run.closeOpenOperations status) :=
  script_rest ⟨rfl, rfl, keepsNodes_of_eq rfl⟩ rfl rfl

variable (revision : Nat)

theorem skipPasses_rest (fuel : Nat) (run : WorkflowRun) :
    run.skipPasses revision fuel = { run with nodes := (run.skipPasses revision fuel).nodes } := by
  induction fuel generalizing run with
  | zero => rfl
  | succ fuel ih =>
    rw [skipPasses]
    split
    · rw [ih (run.skipPass revision)]
      rfl
    · rfl

theorem script_skipDependents (nodeId : NodeId) (run : WorkflowRun) :
    Script (·.Beside claim) run (run.skipDependents revision nodeId) := by
  refine (writes_skipDependents (Q := False) revision nodeId run).script ?_ ?_
  all_goals
    unfold skipDependents
    rw [skipPasses_rest]
    rfl

theorem script_cancelPriorNodes (spare : List NodeId) (run : WorkflowRun) :
    Script (·.Beside claim) run (run.cancelPriorNodes revision spare) :=
  (writes_cancelPriorNodes (Q := False) revision spare run).script rfl rfl

theorem script_markNodeRunning (nodeId : NodeId) (run : WorkflowRun) :
    Script (·.Beside claim) run (run.markNodeRunning revision nodeId) :=
  (writes_markNodeRunning (Q := False) revision nodeId run).script rfl rfl

theorem script_bindNodeWorker {revision : Nat} {nodeId : NodeId} {cardId : Nat}
    (h : run.bindNodeWorker revision nodeId cardId attemptId = .ok run') :
    Script (·.Beside claim) run run' := by
  refine (writes_bindNodeWorker (Q := False) h).script ?_ ?_
  all_goals
    unfold bindNodeWorker at h
    split at h
    · cases h
    · cases h
      rfl

section Nodes

variable {cause attemptId : String}

variable {generation revision : Nat} {nodeId : NodeId} {effect : TransitionEffect}

theorem script_foldlM {α : Type*} {f : WorkflowRun → α → Except WorkflowError WorkflowRun}
    {l : List α} (hf : ∀ mid a mid', a ∈ l → f mid a = .ok mid' → Script A mid mid')
    (h : l.foldlM f run = .ok run') : Script A run run' :=
  foldlM_keeps (P := Script A run)
    (fun mid a mid' ha hmid hstep => hmid.trans (hf mid a mid' ha hstep)) (.refl run) h

theorem script_queueCommand {key : CommandKey} {payload : CommandPayload}
    (h : run.queueCommand key payload = .ok run') (haction : key.action ≠ .deliver) :
    Script (·.Beside claim) run run' := by
  have hbeside : (RunStatement.queue key payload).Beside claim := haction
  exact .single hbeside (.queue h)

theorem actionFor_ne_deliver (kind : NodeKind) : actionFor kind ≠ .deliver := by
  cases kind <;> decide

theorem script_queueForNode {kind : NodeKind} {ordinal : Nat}
    (h : run.queueForNode generation revision nodeId kind ordinal = .ok run') :
    Script (·.Beside claim) run run' := by
  obtain ⟨queued, hqueued, h⟩ := ok_of_match h
  have hqueue : Script (·.Beside claim) run queued :=
    script_queueCommand hqueued (actionFor_ne_deliver kind)
  split at h
  · exact hqueue.trans (script_upsertOperation h)
  · exact hqueue.trans (script_upsertOperation h)
  · cases h
    exact hqueue

theorem script_queueNodes {nodes : List NodeRow}
    (h : run.queueNodes generation revision nodes = .ok run') : Script (·.Beside claim) run run' :=
  script_foldlM (fun _ _ _ _ hmid => script_queueForNode hmid) h

theorem script_requeueReview {n : NodeRow} (h : run.requeueReview generation n = .ok run') :
    Script (·.Beside claim) run run' := by
  unfold requeueReview at h
  split at h
  · exact script_queueForNode h
  · cases h
    exact .refl run

theorem script_maybeQueueReReview (h : run.maybeQueueReReview generation = .ok run') :
    Script (·.Beside claim) run run' := by
  unfold maybeQueueReReview at h
  split at h
  · cases h
    exact .refl run
  · exact script_foldlM (fun _ _ _ _ hmid => script_requeueReview hmid) h

theorem script_settleWithReReview {cause : Option String}
    (h : run.settleWithReReview generation revision cause = .ok (effect, run')) :
    Script (·.Beside claim) run run' := by
  unfold settleWithReReview at h
  dsimp only at h
  split at h
  · cases h
    exact .refl run
  · obtain ⟨mid, hmid, h⟩ := ok_of_match h
    cases h
    exact script_maybeQueueReReview hmid

theorem script_releaseDependents (h : run.releaseDependents generation revision nodeId = .ok run') :
    Script (·.Beside claim) run run' := by
  have hmark : Script (·.Beside claim) run (run.markSatisfied revision nodeId) :=
    script_rest ⟨rfl, rfl, keepsNodes_of_eq rfl⟩ rfl rfl
  exact hmark.trans (script_queueNodes h)

theorem script_succeedNodeEffect {artifactsJson : String}
    (h : run.succeedNodeEffect generation revision nodeId attemptId artifactsJson =
      .ok (effect, run')) : Script (·.Beside claim) run run' := by
  obtain ⟨settled, hsettled, h⟩ := ok_of_match h
  obtain ⟨released, hreleased, h⟩ := ok_of_match h
  have hset : Script (·.Beside claim) run settled := script_closeNode hsettled rfl
  exact (hset.trans (script_releaseDependents hreleased)).trans (script_settleWithReReview h)

theorem script_retryNode (hopen : run.NodeOpen revision nodeId)
    (h : run.retryNode generation revision nodeId attemptId cause = .ok (effect, run')) :
    Script (·.Beside claim) run run' := by
  obtain ⟨settled, hsettled, h⟩ := ok_of_match h
  obtain ⟨queued, hqueued, h⟩ := ok_of_match h
  cases h
  have hset : Script (·.Beside claim) run settled :=
    script_setNodeOutcome (fun _ => hopen) hsettled
  exact hset.trans (script_queueCommand hqueued (by simp))

theorem script_closeFailedNode
    (h : run.closeFailedNode generation revision nodeId attemptId cause = .ok (effect, run')) :
    Script (·.Beside claim) run run' := by
  obtain ⟨settled, hsettled, h⟩ := ok_of_match h
  have hset : Script (·.Beside claim) run settled := script_closeNode hsettled rfl
  split at h
  · obtain ⟨released, hreleased, h⟩ := ok_of_match h
    exact (hset.trans (script_releaseDependents hreleased)).trans
      (script_settleWithReReview h)
  · exact (hset.trans (script_skipDependents revision nodeId settled)).trans
      (script_settleWithReReview h)

theorem script_failNodeEffect {retrySafe : Bool}
    (hopen : run.NodeOpen revision nodeId)
    (h : run.failNodeEffect generation revision nodeId attemptId cause retrySafe =
      .ok (effect, run')) : Script (·.Beside claim) run run' := by
  unfold failNodeEffect at h
  split at h
  · split at h
    · rename_i mid hmid
      have hpaid : Script (·.Beside claim) run mid := script_consumeBudget hmid
      have hopen' : mid.NodeOpen revision nodeId := by
        have hmid' : mid = (run.consumeBudget .workRetry).2 := by rw [hmid]
        rw [hmid', consumeBudget_eq]
        exact hopen
      exact hpaid.trans (script_retryNode hopen' h)
    · rename_i mid hmid
      exact (script_consumeBudget hmid).trans (script_closeFailedNode h)
  · exact script_closeFailedNode h

theorem script_storedAcceptanceEffect {cardId : Nat}
    {envelopeJson : WorkerResultEnvelope → String} {db : Db} (hopen : run.NodeOpen revision nodeId)
    (h : run.storedAcceptanceEffect envelopeJson db generation revision nodeId cardId attemptId =
      .ok (effect, run')) : Script (·.Beside claim) run run' := by
  unfold storedAcceptanceEffect at h
  split at h
  · exact script_failNodeEffect hopen h
  · exact script_succeedNodeEffect h

theorem script_attemptSucceededEffect {artifactsJson : String}
    {envelopeJson : WorkerResultEnvelope → String} {db : Db}
    (h : run.attemptSucceededEffect envelopeJson db revision nodeId attemptId artifactsJson =
      .ok (effect, run')) : Script (·.Beside claim) run run' := by
  unfold attemptSucceededEffect at h
  split at h
  · cases h
  rename_i n hn
  split at h
  · cases h
  · exact script_succeedNodeEffect h
  · exact script_storedAcceptanceEffect (nodeOpen_of_requireNode hn) h

theorem script_attemptFailedEffect {retrySafe : Bool}
    (h : run.attemptFailedEffect revision nodeId attemptId cause retrySafe =
      .ok (effect, run')) : Script (·.Beside claim) run run' := by
  unfold attemptFailedEffect at h
  split at h
  · cases h
  · rename_i n hn
    exact script_failNodeEffect (nodeOpen_of_requireNode hn) h

end Nodes

section Plans

variable {opId : Option OpId}

variable {generation revision : Nat} {plan : PlanProposal} {effect : TransitionEffect}

theorem script_rejectPlanEffect (reason : String) (run : WorkflowRun) :
    Script (·.Beside claim) run (run.rejectPlanEffect reason).2 := by
  unfold rejectPlanEffect
  split <;> rename_i mid hmid <;> exact script_consumeBudget hmid

theorem script_failOperation (h : run.failOperation opId = .ok run') :
    Script (·.Beside claim) run run' := by
  unfold failOperation at h
  split at h
  · cases h
    exact .refl run
  · exact script_upsertOperation h

theorem script_succeedOperation
    (h : run.succeedOperation opId revision = .ok run') : Script (·.Beside claim) run run' := by
  unfold succeedOperation at h
  split at h
  · cases h
    exact .refl run
  · exact script_upsertOperation h

theorem script_drop {p : WorkflowCommand → Bool} {f : WorkflowCommand → WorkflowCommand}
    (hf : ∀ c, Keyed.key (f c) = Keyed.key c) (run : WorkflowRun)
    (hopen : ∀ c, p c = true → c.status.isOpen = true)
    (hdrop : ∀ c, (f c).status = .cancelled ∧ (f c).claimToken = c.claimToken) :
    Script (·.Beside claim) run { run with commands := run.commands.updateWhere p f hf } := by
  have hbeside : RunStatement.cancel.Beside claim := trivial
  have hevolves : Table.Evolves Dropped (fun _ => False) run.commands
      (run.commands.updateWhere p f hf) := by
    refine Table.evolves_updateWhere Dropped.refl hf fun c _ hp => .inr ?_
    exact ⟨hopen c hp, (hdrop c).1, hf c, (hdrop c).2⟩
  exact .single hbeside (.cancel hevolves)

theorem script_supersedeCommand (key : CommandKey) (run : WorkflowRun) :
    Script (·.Beside claim) run (run.supersedeCommand key) :=
  script_drop _ run (fun c hp => by simpa using (of_decide_eq_true hp).2) fun _ => ⟨rfl, rfl⟩

theorem script_cancelCommand (key : CommandKey) (run : WorkflowRun) :
    Script (·.Beside claim) run (run.cancelCommand key) :=
  script_drop _ run (fun c hp => by rw [(of_decide_eq_true hp).2]; rfl) fun _ => ⟨rfl, rfl⟩

theorem script_cancelPendingCommands (run : WorkflowRun) :
    Script (·.Beside claim) run run.cancelPendingCommands :=
  script_drop _ run (fun c hp => by rw [of_decide_eq_true hp]; rfl) fun _ => ⟨rfl, rfl⟩

theorem script_supersedeClaim (held : Option ClaimAuthority) (run : WorkflowRun) :
    Script (·.Beside claim) run (run.supersedeClaim held) := by
  unfold supersedeClaim
  split
  · exact .refl run
  · exact script_supersedeCommand _ run

theorem script_completeAuthor {node : Option (Nat × NodeId)}
    (h : run.completeAuthor node = .ok run') : Script (·.Beside claim) run run' := by
  unfold completeAuthor at h
  split at h
  · cases h
    exact .refl run
  · exact script_closeNode h rfl

theorem script_requeueRound {round : PlanRound}
    (h : run.requeueRound opId round = .ok run') : Script (·.Beside claim) run run' := by
  obtain ⟨opened, hopened, h⟩ := ok_of_match h
  exact ((script_supersedeCommand _ run).trans (script_upsertOperation hopened)).trans
    (script_queueCommand h (by simp))

theorem script_rejectPlanRoundEffect {reason : String}
    {round : Option PlanRound} {held : Option ClaimAuthority}
    (h : run.rejectPlanRoundEffect reason opId round held = .ok (effect, run')) :
    Script (·.Beside claim) run run' := by
  obtain ⟨-, h⟩ := ok_of_check h
  split at h
  · rename_i mid hmid
    obtain ⟨failed, hfailed, h⟩ := ok_of_match h
    cases h
    exact ((script_consumeBudget hmid).trans (script_failOperation hfailed)).trans
      (script_supersedeClaim held failed)
  rename_i mid hmid
  split at h
  · cases h
    exact (script_consumeBudget hmid).trans (script_supersedeClaim held mid)
  · obtain ⟨requeued, hrequeued, h⟩ := ok_of_match h
    cases h
    exact (script_consumeBudget hmid).trans (script_requeueRound hrequeued)

theorem script_insertNode {row : NodeRow} (hnamed : row.nodeId.IsOf row.revision)
    (h : run.insertNode row = .ok run') : Script (·.Beside claim) run run' := by
  have hbeside : (RunStatement.node row).Beside claim := trivial
  exact .single hbeside (.node hnamed h)

theorem script_insertNodes (h : run.insertNodes (plan.nodeRows revision) = .ok run') :
    Script (·.Beside claim) run run' :=
  script_foldlM (fun _ n _ hn hmid => by
    obtain ⟨_, _, -, rfl⟩ := mem_nodeRows.1 hn
    exact script_insertNode (by rfl) hmid) h

theorem script_insertDeps {rows : List DepRow} (h : run.insertDeps rows = .ok run') :
    Script (·.Beside claim) run run' := by
  have hrest := insertDeps_rest h
  refine script_rest ⟨?_, ?_, keepsNodes_of_eq ?_⟩ ?_ ?_ <;> rw [hrest]

theorem script_appendHostReviewIfMissing
    (h : run.appendHostReviewIfMissing generation revision = .ok run') :
    Script (·.Beside claim) run run' := by
  unfold appendHostReviewIfMissing at h
  split at h
  · cases h
    exact .refl run
  obtain ⟨noded, hnoded, h⟩ := ok_of_match h
  obtain ⟨depped, hdepped, h⟩ := ok_of_match h
  have hgrown : Script (·.Beside claim) run depped :=
    (script_insertNode (by rfl) hnoded).trans (script_insertDeps hdepped)
  split at h
  · cases h
    exact hgrown
  · exact hgrown.trans (script_queueForNode h)

theorem script_admitRevision (h : run.admitRevision generation plan = .ok run') :
    Script (·.Beside claim) run run' := by
  unfold admitRevision at h
  have hplan : Script (·.Beside claim) run (run.insertPlanRevision plan) :=
    script_rest ⟨rfl, rfl, keepsNodes_of_eq rfl⟩ rfl rfl
  obtain ⟨noded, hnoded, h⟩ := ok_of_match h
  obtain ⟨depped, hdepped, h⟩ := ok_of_match h
  obtain ⟨queued, hqueued, h⟩ := ok_of_match h
  exact (((hplan.trans (script_insertNodes hnoded)).trans (script_insertDeps hdepped)).trans
    (script_queueNodes hqueued)).trans (script_appendHostReviewIfMissing h)

theorem script_settleClaim (h : run.settleClaim claim = .ok run') :
    Script (·.Beside claim) run run' := by
  unfold settleClaim at h
  split at h
  · cases h
    exact .refl run
  · rename_i held
    have hbeside : (RunStatement.complete held.key held.owner held.token).Beside (some held) := rfl
    exact .single hbeside (.complete h)

theorem script_admitProposalEffect {opts : ProposalOpts}
    (h : run.admitProposalEffect plan opts = .ok (effect, run')) :
    Script (·.Beside opts.claim) run run' := by
  obtain ⟨-, h⟩ := ok_of_check h
  obtain ⟨ready, hready, h⟩ := ok_of_match h
  obtain ⟨grown, hgrown, h⟩ := ok_of_match h
  obtain ⟨closed, hclosed, h⟩ := ok_of_match h
  obtain ⟨final, hfinal, h⟩ := ok_of_match h
  cases h
  exact ((((script_cancelPriorNodes _ _ run).trans (script_completeAuthor hready)).trans
    (script_admitRevision hgrown)).trans (script_succeedOperation hclosed)).trans
    (script_settleClaim hfinal)

end Plans

section Verdicts

variable {home judged : Nat} {nodeId : NodeId} {effect : TransitionEffect}

theorem script_failReviewEffect {outcome cause : String}
    (h : run.failReviewEffect home judged nodeId outcome cause claim = .ok (effect, run')) :
    Script (·.Beside claim) run run' := by
  obtain ⟨closed, hclosed, h⟩ := ok_of_match h
  obtain ⟨settled, hsettled, h⟩ := ok_of_match h
  obtain ⟨final, hfinal, h⟩ := ok_of_match h
  cases h
  exact ((script_upsertOperation hclosed).trans (script_closeNode hsettled rfl)).trans
    (script_settleClaim hfinal)

theorem script_malformedVerdictEffect {malformed : String}
    (h : run.malformedVerdictEffect home judged nodeId malformed claim = .ok (effect, run')) :
    Script (·.Beside claim) run run' := by
  unfold malformedVerdictEffect at h
  split at h
  · rename_i mid hmid
    exact (script_consumeBudget hmid).trans (script_failReviewEffect h)
  rename_i mid hmid
  obtain ⟨queued, hqueued, h⟩ := ok_of_match h
  obtain ⟨final, hfinal, h⟩ := ok_of_match h
  cases h
  exact ((script_consumeBudget hmid).trans (script_queueCommand hqueued (by simp))).trans
    (script_settleClaim hfinal)

theorem script_changesRequiredEffect {defects : List Defect}
    (h : run.changesRequiredEffect home judged nodeId defects claim = .ok (effect, run')) :
    Script (·.Beside claim) run run' := by
  unfold changesRequiredEffect at h
  split at h
  · rename_i mid hmid
    exact (script_consumeBudget hmid).trans (script_failReviewEffect h)
  rename_i mid hmid
  obtain ⟨opened, hopened, h⟩ := ok_of_match h
  obtain ⟨queued, hqueued, h⟩ := ok_of_match h
  obtain ⟨final, hfinal, h⟩ := ok_of_match h
  cases h
  exact (((script_consumeBudget hmid).trans (script_upsertOperation hopened)).trans
    (script_queueCommand hqueued (by simp))).trans (script_settleClaim hfinal)

theorem verdictEffect_cases {verdict : ReviewVerdict}
    (h : run.verdictEffect home nodeId verdict claim = .ok (effect, run')) :
    Script (·.Beside claim) run run' ∨ verdict = .accept ∧
      run.acceptedVerdictEffect home run.currentRevision nodeId claim = .ok (effect, run') := by
  obtain ⟨-, h⟩ := ok_of_check h
  split at h
  · exact .inl (script_malformedVerdictEffect h)
  split at h
  · exact .inr ⟨rfl, h⟩
  · exact .inl (script_failReviewEffect h)
  · exact .inl (script_changesRequiredEffect h)
  · cases h

/-- An acceptance: the review is closed, its delivery is owed, and a command sends it. -/
theorem acceptedVerdictEffect_ok
    (h : run.acceptedVerdictEffect home judged nodeId claim = .ok (effect, run')) :
    ∃ settled queued, Script (·.Beside claim) run settled ∧
      (∃ n ∈ settled.nodes, n.nodeId = nodeId ∧ n.status.isOpen = false) ∧
      (settled.insertDelivery nodeId judged).queueCommand ⟨settled.generation, nodeId, .deliver,
        settled.nextCommandOrdinal settled.generation nodeId .deliver⟩
        ⟨some judged, none, [], none⟩ = .ok queued ∧ queued.settleClaim claim = .ok run' := by
  obtain ⟨closed, hclosed, h⟩ := ok_of_match h
  obtain ⟨settled, hsettled, h⟩ := ok_of_match h
  obtain ⟨queued, hqueued, h⟩ := ok_of_match h
  obtain ⟨final, hfinal, h⟩ := ok_of_match h
  cases h
  refine ⟨settled, queued, ?_, closed_of_setNodeOutcome hsettled rfl, ?_, hfinal⟩
  · exact (script_upsertOperation hclosed).trans (script_closeNode hsettled rfl)
  have hdelivery : ∀ run : WorkflowRun, run.insertDelivery nodeId judged =
      { run with deliveries := (run.insertDelivery nodeId judged).deliveries } := by
    intro run
    unfold insertDelivery
    split <;> rfl
  rw [hdelivery] at hqueued ⊢
  exact hqueued

theorem script_breakerRefusedEffect {resource : String} {ordinal : Nat}
    (h : run.breakerRefusedEffect nodeId resource ordinal = .ok (effect, run')) :
    Script (·.Beside claim) run run' := by
  unfold breakerRefusedEffect at h
  dsimp only at h
  split at h
  · cases h
    exact .refl run
  split at h
  · obtain ⟨settled, hsettled, h⟩ := ok_of_match h
    obtain ⟨released, hreleased, h⟩ := ok_of_match h
    exact (((script_cancelCommand _ run).trans (script_closeNode hsettled rfl)).trans
      (script_releaseDependents hreleased)).trans (script_settleWithReReview h)
  · cases h
    exact (script_cancelCommand _ run).trans (script_cancelPendingCommands _)

theorem script_shaHandoffEffect {final : Bool}
    (h : run.shaHandoffEffect final = .ok (effect, run')) : Script (·.Beside claim) run run' := by
  unfold shaHandoffEffect at h
  split at h
  · cases h
    exact .refl run
  · obtain ⟨queued, hqueued, h⟩ := ok_of_match h
    cases h
    exact script_foldlM (fun _ _ _ _ hmid => script_requeueReview hmid) hqueued

end Verdicts

section Inspections

variable {key : CommandKey} {gen : Nat} {c : WorkflowCommand} {effect : TransitionEffect}
  {owner : String} {token : Nat} {now : Millis}

theorem Script.inspects (h : Script (·.Beside none) run run') :
    Script (·.Inspects key gen) run run' := h.mono fun _ hw => .inl hw

theorem script_inspected (c : WorkflowCommand) (inconclusive : Nat) (next : Millis)
    (hc : run.commands.get key = some c) (hclaimed : c.status = .claimed)
    (hgen : c.inspectGen + 1 = gen) :
    Script (·.Inspects key gen) run (run.noteInspectionInconclusive key gen inconclusive next) := by
  have hinspects : (RunStatement.inspect key gen).Inspects key gen := .inr (.inr (.inl rfl))
  exact .single hinspects (.inspect c inconclusive next hc hclaimed hgen)

theorem script_finish (h : run.completeCommand key owner token = .ok run') :
    Script (·.Inspects key gen) run run' := by
  have hinspects : (RunStatement.complete key owner token).Inspects key gen :=
    .inr (.inl ⟨owner, token, .inl rfl⟩)
  exact .single hinspects (.complete h)

theorem script_giveBack (run : WorkflowRun) (key : CommandKey) (owner : String) (token : Nat) :
    Script (·.Inspects key gen) run (run.releaseClaim key owner token) := by
  have hinspects : (RunStatement.release key owner token).Inspects key gen :=
    .inr (.inl ⟨owner, token, .inr rfl⟩)
  exact .single hinspects (.release run key owner token)

theorem script_of_map_complete {α : Type*} {a : α} {out : α × WorkflowRun}
    (h : (run.completeCommand key owner token).map (fun run => (a, run)) = .ok out) :
    Script (·.Inspects key gen) run out.2 := by
  obtain ⟨mid, hmid, rfl⟩ := map_eq_ok.1 h
  exact script_finish hmid

theorem script_inconclusiveEffect {onMax : WorkflowRun → Except WorkflowError WorkflowRun}
    {unknown : Bool} (hc : run.commands.get c.toCommandKey = some c) (hclaimed : c.status = .claimed)
    (hgen : c.inspectGen + 1 = gen)
    (hmax : ∀ mid, onMax run = .ok mid → Script (·.Beside none) run mid)
    (h : run.inconclusiveEffect now c gen onMax unknown = .ok (effect, run')) :
    Script (·.Inspects c.toCommandKey gen) run run' := by
  unfold inconclusiveEffect at h
  dsimp only at h
  split at h
  · obtain ⟨mid, hmid, h⟩ := ok_of_match h
    split at h <;> cases h <;> exact (hmax _ hmid).inspects
  · cases h
    exact script_inspected c _ _ hc hclaimed hgen

theorem script_inspectDeliver (haction : c.action = .deliver)
    (h : run.inspectDeliver c owner token = .ok (effect, run')) :
    Script (·.Inspects c.toCommandKey gen) run run' := by
  unfold inspectDeliver at h
  split at h
  · exact script_of_map_complete h
  split at h
  · cases h
    exact script_giveBack run _ owner token
  obtain ⟨settled, hsettled, h⟩ := ok_of_match h
  have hinspects : (RunStatement.outcome c.nodeId .unknown).Inspects c.toCommandKey gen :=
    .inr (.inr (.inr ⟨haction, rfl⟩))
  exact (Script.single hinspects (.outcome hsettled)).trans (script_of_map_complete h)

theorem script_failModelNode {home : Option Nat} (h : run.failModelNode c home = .ok run') :
    Script (·.Beside claim) run run' := by
  obtain ⟨closed, hclosed, h⟩ := ok_of_match h
  have hop : Script (·.Beside claim) run closed := script_upsertOperation hclosed
  split at h
  · cases h
    exact hop
  · exact hop.trans (script_closeNode h rfl)

theorem script_inspectDispatch {envelopeJson : WorkerResultEnvelope → String} {db : Db}
    (hc : run.commands.get c.toCommandKey = some c) (hclaimed : c.status = .claimed)
    (hgen : c.inspectGen + 1 = gen) (hopen : run.NodeOpen run.currentRevision c.nodeId)
    (h : run.inspectDispatch envelopeJson now db c owner token gen = .ok (effect, run')) :
    Script (·.Inspects c.toCommandKey gen) run run' := by
  have hunobserved : ∀ {effect run'}, run.inconclusiveEffect now c gen (fun run' =>
      run'.setNodeOutcome run.currentRevision c.nodeId .failed
        (some (.text "observation_unknown")) none) true = .ok (effect, run') →
      Script (·.Inspects c.toCommandKey gen) run run' := fun hout =>
    script_inconclusiveEffect hc hclaimed hgen (fun mid hmid => script_closeNode hmid rfl) hout
  unfold inspectDispatch at h
  dsimp only at h
  split at h
  · exact script_of_map_complete h
  split at h
  · cases h
    exact script_giveBack run _ owner token
  split at h
  · split at h
    · cases h
    · cases h
    split at h
    · cases h
    · rename_i stored hstored
      exact (script_storedAcceptanceEffect hopen hstored).inspects.trans
        (script_of_map_complete h)
  · split at h
    · split at h
      · exact hunobserved h
      split at h
      · cases h
        exact script_giveBack run _ owner token
      split at h
      · cases h
      rename_i settled hsettled
      obtain ⟨mid, hmid, hout⟩ := map_eq_ok.1 h
      cases hout
      exact (script_closeNode hsettled rfl).inspects.trans (script_finish hmid)
    · split at h
      · cases h
        exact script_inspected c 0 _ hc hclaimed hgen
      · exact hunobserved h

theorem script_claimExpiredEffect {envelopeJson : WorkerResultEnvelope → String} {db : Db}
    (h : run.claimExpiredEffect envelopeJson now db key gen = .ok (effect, run')) :
    Script (·.Inspects key gen) run run' := by
  rcases claimExpiredEffect_cases h with ⟨-, rfl⟩ |
    ⟨c, owner, token, hc, rfl, hclaimed, hgen, ⟨-, hmid, -⟩ | ⟨hopen, h⟩⟩
  · exact .refl run'
  · exact script_finish hmid
  · have hjob : ∀ {effect run'}, run.inspectModelJob now c gen = .ok (effect, run') →
        Script (·.Inspects c.toCommandKey gen) run run' := fun hout =>
      script_inconclusiveEffect hc hclaimed hgen (fun mid hmid => script_failModelNode hmid) hout
    split at h
    · rename_i haction
      exact script_inspectDeliver haction h
    · exact hjob h
    · exact hjob h
    · exact script_inspectDispatch hc hclaimed hgen hopen h
    · exact script_inspectDispatch hc hclaimed hgen hopen h

end Inspections

/-! ## What a statement does to a command -/

theorem heldBy_iff {owner : String} {token : Nat} {c : WorkflowCommand} :
    c.heldBy owner token = true ↔
      c.status = .claimed ∧ c.owner = some owner ∧ c.claimToken = some token := by
  simp [WorkflowCommand.heldBy]

section Commands

variable {w : RunStatement} {key : CommandKey}

inductive Turns (w : RunStatement) (c : WorkflowCommand) : WorkflowCommand → Prop
  | same : Turns w c c
  | completed (owner : String) (token : Nat) (hw : w = .complete c.toCommandKey owner token)
      (hheld : c.heldBy owner token = true) : Turns w c (c.close .done)
  | released (owner : String) (token : Nat) (hw : w = .release c.toCommandKey owner token)
      (hheld : c.heldBy owner token = true) : Turns w c c.release
  | dropped {c' : WorkflowCommand} (hw : w = .cancel ∨ w = .cancelWork)
      (hopen : c.status.isOpen = true) (hstatus : c'.status = .cancelled)
      (hkey : c'.toCommandKey = c.toCommandKey) (htoken : c'.claimToken = c.claimToken) :
      Turns w c c'
  | inspected (gen inconclusive : Nat) (next : Millis) (hw : w = .inspect c.toCommandKey gen)
      (hclaimed : c.status = .claimed) (hgen : c.inspectGen + 1 = gen) :
      Turns w c (c.inspected gen inconclusive next)

theorem turns_modify {commands : Table WorkflowCommand} {target : CommandKey}
    {f : WorkflowCommand → WorkflowCommand} (hf : ∀ c, Keyed.key (f c) = Keyed.key c)
    (hturns : ∀ c, commands.get target = some c → Turns w c (f c)) {c : WorkflowCommand}
    (hc : commands.get key = some c) :
    ∃ c', (commands.modify target f hf).get key = some c' ∧ Turns w c c' := by
  by_cases hkey : key = target
  · subst hkey
    exact ⟨f c, by rw [Table.get_modify_same, hc]; rfl, hturns c hc⟩
  · exact ⟨c, by rw [Table.get_modify_of_ne _ _ _ hkey]; exact hc, .same⟩

theorem commands_insertDelivery (nodeId : NodeId) (revision : Nat) (run : WorkflowRun) :
    (run.insertDelivery nodeId revision).commands = run.commands := by
  unfold insertDelivery
  split <;> rfl

theorem bumpDeliveryAttempts_ok {nodeId : NodeId} {attempts : Nat}
    (h : run.bumpDeliveryAttempts nodeId = .ok (attempts, run')) :
    (∃ d, run.deliveries.get nodeId = some d ∧ d.outcome = .pending ∧ attempts = d.attempts + 1) ∧
      run' = { run with deliveries := run.deliveries.modify nodeId DeliveryRow.bump } := by
  unfold bumpDeliveryAttempts at h
  split at h
  · rename_i d hd
    split at h
    · rename_i hpending
      cases h
      exact ⟨⟨d, hd, hpending, rfl⟩, rfl⟩
    · cases h
  · cases h

theorem setDeliveryOutcome_ok {nodeId : NodeId} {outcome : DeliveryOutcome}
    {receipt : Option String} (h : run.setDeliveryOutcome nodeId outcome receipt = .ok run') :
    (∃ d, run.deliveries.get nodeId = some d) ∧ run' = { run with
      deliveries := run.deliveries.modify nodeId (DeliveryRow.settle outcome receipt) } := by
  unfold setDeliveryOutcome at h
  split at h
  · cases h
  · rename_i d hd
    cases h
    exact ⟨⟨d, hd⟩, rfl⟩

/-- A command that is there stays, and the statement turns it. -/
theorem Executes.command {c : WorkflowCommand} (h : Executes w run run')
    (hc : run.commands.get key = some c) :
    ∃ c', run'.commands.get key = some c' ∧ Turns w c c' := by
  cases h with
  | rest _ hcommands _ => exact ⟨c, by rw [hcommands]; exact hc, .same⟩
  | node _ h =>
    obtain ⟨_, -, rfl⟩ := insertNode_ok h
    exact ⟨c, hc, .same⟩
  | queue h =>
    obtain ⟨commands, hinsert, rfl⟩ := queueCommand_ok h
    exact ⟨c, Table.get_insert_of_some hinsert hc, .same⟩
  | complete h =>
    obtain ⟨⟨d, hd, hheld⟩, rfl⟩ := completeCommand_ok h
    refine turns_modify (f := WorkflowCommand.close .done) (fun _ => rfl) (fun c' hc' => ?_) hc
    cases hd.symm.trans hc'
    obtain rfl := Table.key_of_get hd
    exact .completed _ _ rfl hheld
  | release _ target owner token =>
    unfold releaseClaim
    split
    · rename_i d hd
      split
      · rename_i hheld
        refine turns_modify (f := WorkflowCommand.release) (fun _ => rfl) (fun c' hc' => ?_) hc
        cases hd.symm.trans hc'
        obtain rfl := Table.key_of_get hd
        exact .released owner token rfl hheld
      · exact ⟨c, hc, .same⟩
    · exact ⟨c, hc, .same⟩
  | cancel h =>
    obtain ⟨c', hc', hdropped⟩ := h.get_of_get (fun a b hab => by
      rcases hab with rfl | ⟨-, -, hkey, -⟩
      · rfl
      · exact hkey) hc
    refine ⟨c', hc', ?_⟩
    rcases hdropped with rfl | ⟨hopen, hstatus, hkey, htoken⟩
    · exact .same
    · exact .dropped (.inl rfl) hopen hstatus hkey htoken
  | cancelWork =>
    refine ⟨_, by rw [WorkflowRun.cancelWork, Table.get_updateWhere, hc]; rfl, ?_⟩
    dsimp only
    split
    · rename_i hopen
      exact .dropped (.inr rfl) hopen rfl rfl rfl
    · exact .same
  | inspect d inconclusive next hd hclaimed hgen =>
    refine turns_modify (f := WorkflowCommand.inspected _ inconclusive next) (fun _ => rfl)
      (fun c' hc' => ?_) hc
    cases hd.symm.trans hc'
    obtain rfl := Table.key_of_get hd
    exact .inspected _ inconclusive next rfl hclaimed hgen
  | oblige nodeId revision =>
    exact ⟨c, by rw [commands_insertDelivery]; exact hc, .same⟩
  | send h =>
    obtain ⟨-, rfl⟩ := bumpDeliveryAttempts_ok h
    exact ⟨c, hc, .same⟩
  | outcome h =>
    obtain ⟨-, rfl⟩ := setDeliveryOutcome_ok h
    exact ⟨c, hc, .same⟩

/-- Only a queued command is new. -/
theorem Executes.new_command {c' : WorkflowCommand} (h : Executes w run run')
    (hfree : run.commands.get key = none) (hc' : run'.commands.get key = some c') :
    ∃ payload, w = .queue key payload ∧ c' = newCommand key payload := by
  have hold : run'.commands.get key ≠ run.commands.get key := by
    rw [hfree, hc']
    simp
  cases h with
  | rest _ hcommands _ => exact absurd (by rw [hcommands]) hold
  | node _ h =>
    obtain ⟨_, -, rfl⟩ := insertNode_ok h
    exact absurd rfl hold
  | queue h =>
    obtain ⟨commands, hinsert, rfl⟩ := queueCommand_ok h
    rw [Table.get_of_insert hinsert] at hc'
    split at hc'
    · rename_i hkey
      rw [hkey]
      exact ⟨_, rfl, (Option.some.inj hc').symm⟩
    · cases hfree.symm.trans hc'
  | complete h =>
    obtain ⟨-, rfl⟩ := completeCommand_ok h
    rw [Table.get_modify] at hc'
    simp [hfree] at hc'
  | release _ target owner token =>
    unfold releaseClaim at hold hc'
    split at hc'
    · split at hc'
      · rw [Table.get_modify] at hc'
        simp [hfree] at hc'
      · cases hfree.symm.trans hc'
    · cases hfree.symm.trans hc'
  | cancel h =>
    rcases h.origin (Table.mem_of_get hc') with ⟨c, hc, hdropped⟩ | hnew
    · have hkey : c'.toCommandKey = c.toCommandKey := by
        rcases hdropped with rfl | ⟨-, -, hkey, -⟩
        · rfl
        · exact hkey
      exact absurd ((Table.key_of_get hc').symm.trans hkey).symm
        (Table.get_eq_none_iff.1 hfree c hc)
    · exact hnew.elim
  | cancelWork =>
    rw [WorkflowRun.cancelWork, Table.get_updateWhere, hfree] at hc'
    cases hc'
  | inspect d inconclusive next hd hclaimed hgen =>
    unfold noteInspectionInconclusive at hc'
    rw [Table.get_modify] at hc'
    simp [hfree] at hc'
  | oblige nodeId revision =>
    rw [commands_insertDelivery, hfree] at hc'
    cases hc'
  | send h =>
    obtain ⟨-, rfl⟩ := bumpDeliveryAttempts_ok h
    exact absurd rfl hold
  | outcome h =>
    obtain ⟨-, rfl⟩ := setDeliveryOutcome_ok h
    exact absurd rfl hold

theorem Executes.command_origin {c' : WorkflowCommand} (h : Executes w run run')
    (hc' : run'.commands.get key = some c') :
    (∃ payload, w = .queue key payload ∧ run.commands.get key = none ∧
      c' = newCommand key payload) ∨ ∃ c, run.commands.get key = some c ∧ Turns w c c' := by
  cases hc : run.commands.get key with
  | none =>
    obtain ⟨payload, hw, hnew⟩ := h.new_command hc hc'
    exact .inl ⟨payload, hw, rfl, hnew⟩
  | some c =>
    obtain ⟨d, hd, hturns⟩ := h.command hc
    obtain rfl : d = c' := Option.some.inj (hd.symm.trans hc')
    exact .inr ⟨c, rfl, hturns⟩

theorem Executes.sameName (h : Executes w run run') :
    run'.runId = run.runId ∧ run'.generation = run.generation := by
  cases h with
  | rest hwork _ _ => exact ⟨hwork.runId, hwork.generation⟩
  | node _ h =>
    obtain ⟨_, -, rfl⟩ := insertNode_ok h
    exact ⟨rfl, rfl⟩
  | queue h =>
    obtain ⟨_, -, rfl⟩ := queueCommand_ok h
    exact ⟨rfl, rfl⟩
  | complete h =>
    obtain ⟨-, rfl⟩ := completeCommand_ok h
    exact ⟨rfl, rfl⟩
  | release _ key owner token =>
    unfold releaseClaim
    split
    · split <;> exact ⟨rfl, rfl⟩
    · exact ⟨rfl, rfl⟩
  | oblige nodeId revision =>
    unfold insertDelivery
    split <;> exact ⟨rfl, rfl⟩
  | send h =>
    obtain ⟨-, rfl⟩ := bumpDeliveryAttempts_ok h
    exact ⟨rfl, rfl⟩
  | outcome h =>
    obtain ⟨-, rfl⟩ := setDeliveryOutcome_ok h
    exact ⟨rfl, rfl⟩
  | _ => exact ⟨rfl, rfl⟩

end Commands

end WorkflowRun

end Abtars
