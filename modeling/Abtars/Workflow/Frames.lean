import Abtars.Workflow.Steps

/-!
# What the operations of a run leave alone

The statement that writes a row of `workflow_runs` belongs to the commit: no applier touches the
row.  An operation therefore leaves a run under its id, its root card and the operation it was
admitted by, and an applier that runs on a terminal run asks for no other state than a terminal
one.
-/

namespace Abtars

open Lib

namespace WorkflowRun

/-! ## The row of the run -/

/-- The same row of `workflow_runs`. -/
structure SameRow (run run' : WorkflowRun) : Prop where
  row : run'.toWorkflowRunRow = run.toWorkflowRunRow
  generation : run'.generation = run.generation
  stateVersion : run'.stateVersion = run.stateVersion
  clientOperationId : run'.clientOperationId = run.clientOperationId

variable {run run' : WorkflowRun} {effect : TransitionEffect} {nodeId : NodeId}
  {claim : Option ClaimAuthority} {home judged revision generation : Nat}

theorem SameRow.refl (run : WorkflowRun) : run.SameRow run := ⟨rfl, rfl, rfl, rfl⟩

theorem SameRow.trans {a b c : WorkflowRun} (h : a.SameRow b) (h' : b.SameRow c) : a.SameRow c :=
  ⟨h'.row.trans h.row, h'.generation.trans h.generation, h'.stateVersion.trans h.stateVersion,
    h'.clientOperationId.trans h.clientOperationId⟩

theorem SameHeader.sameRow (h : run.SameHeader run') : run.SameRow run' :=
  ⟨h.row, h.generation, h.stateVersion, h.clientOperationId⟩

theorem sameRow_consumeBudget {scope : BudgetScope} {ok : Bool}
    (h : run.consumeBudget scope = (ok, run')) : run.SameRow run' := by
  have hrun' : run' = (run.consumeBudget scope).2 := by rw [h]
  rw [hrun', consumeBudget_eq]
  exact ⟨rfl, rfl, rfl, rfl⟩

theorem sameRow_upsertOperation {op : OperationRow} (h : run.upsertOperation op = .ok run') :
    run.SameRow run' := by
  rw [upsertOperation_rest h]
  exact ⟨rfl, rfl, rfl, rfl⟩

theorem sameRow_queueCommand {key : CommandKey} {payload : CommandPayload}
    (h : run.queueCommand key payload = .ok run') : run.SameRow run' := by
  rw [queueCommand_rest h]
  exact ⟨rfl, rfl, rfl, rfl⟩

theorem sameRow_queueForNode {kind : NodeKind} {ordinal : Nat}
    (h : run.queueForNode generation revision nodeId kind ordinal = .ok run') :
    run.SameRow run' := by
  rw [queueForNode_rest h]
  exact ⟨rfl, rfl, rfl, rfl⟩

theorem sameRow_requeueRound {opId : Option OpId} {round : PlanRound}
    (h : run.requeueRound opId round = .ok run') : run.SameRow run' := by
  unfold requeueRound at h
  have hfailed : run.SameRow (run.supersedeCommand
      ⟨run.generation, round.nodeId, .plan, round.ordinal⟩) :=
    (writes_supersedeCommand (Q := False) _ run).sameHeader.sameRow
  obtain ⟨opened, hopened, h⟩ := ok_of_match h
  exact (hfailed.trans (sameRow_upsertOperation hopened)).trans (sameRow_queueCommand h)

theorem sameRow_rejectPlanEffect (reason : String) (run : WorkflowRun) :
    run.SameRow (run.rejectPlanEffect reason).2 :=
  (writes_rejectPlanEffect (Q := False) reason run).sameHeader.sameRow

theorem sameRow_rejectPlanRoundEffect {reason : String} {opId : Option OpId}
    {round : Option PlanRound}
    (h : run.rejectPlanRoundEffect reason opId round claim = .ok (effect, run')) :
    run.SameRow run' := by
  obtain ⟨-, h⟩ := ok_of_check h
  split at h
  · rename_i paid hpaid
    refine (sameRow_consumeBudget hpaid).trans ?_
    obtain ⟨failed, hfailed, h⟩ := ok_of_match h
    cases h
    exact (writes_failOperation False.elim hfailed).sameHeader.sameRow.trans
      (writes_supersedeClaim (Q := False) claim failed).sameHeader.sameRow
  · rename_i paid hpaid
    refine (sameRow_consumeBudget hpaid).trans ?_
    split at h
    · cases h
      exact (writes_supersedeClaim (Q := False) claim paid).sameHeader.sameRow
    · obtain ⟨requeued, hrequeued, h⟩ := ok_of_match h
      cases h
      exact sameRow_requeueRound hrequeued

theorem sameRow_appendHostReviewIfMissing
    (h : run.appendHostReviewIfMissing generation revision = .ok run') : run.SameRow run' := by
  unfold appendHostReviewIfMissing at h
  split at h
  · cases h
    exact .refl run
  obtain ⟨noded, hnoded, h⟩ := ok_of_match h
  obtain ⟨nodes, -, rfl⟩ := insertNode_ok hnoded
  obtain ⟨depped, hdepped, h⟩ := ok_of_match h
  have hdeps : run.SameRow depped := by
    rw [insertDeps_rest hdepped]
    exact ⟨rfl, rfl, rfl, rfl⟩
  split at h
  · cases h
    exact hdeps
  · exact hdeps.trans (sameRow_queueForNode h)

theorem sameRow_admitRevision {plan : PlanProposal}
    (h : run.admitRevision generation plan = .ok run') : run.SameRow run' := by
  obtain ⟨noded, hnoded, h⟩ := ok_of_match h
  obtain ⟨depped, hdepped, h⟩ := ok_of_match h
  have hplanted : run.SameRow depped := by
    rw [insertDeps_rest hdepped, insertNodes_rest hnoded]
    exact ⟨rfl, rfl, rfl, rfl⟩
  obtain ⟨queued, hqueued, h⟩ := ok_of_match h
  have hready : depped.SameRow queued := by
    rw [queueNodes_rest hqueued]
    exact ⟨rfl, rfl, rfl, rfl⟩
  exact (hplanted.trans hready).trans (sameRow_appendHostReviewIfMissing h)

theorem sameRow_admitProposalEffect {proposal : PlanProposal} {opts : ProposalOpts}
    (h : run.admitProposalEffect proposal opts = .ok (effect, run')) : run.SameRow run' := by
  obtain ⟨-, -, ready, grown, closed, hready, hgrown, hclosed, hfinal⟩ := admitProposalEffect_ok h
  have hcloses : grown.SameRow closed :=
    (writes_succeedOperation False.elim False.elim hclosed).sameHeader.sameRow
  have hsettles : closed.SameRow run' := (writes_settleClaim (Q := False) hfinal).sameHeader.sameRow
  exact ((hready.sameHeader.sameRow.trans (sameRow_admitRevision hgrown)).trans hcloses).trans
    hsettles

theorem sameRow_changesRequiredEffect {defects : List Defect}
    (h : run.changesRequiredEffect home judged nodeId defects claim = .ok (effect, run')) :
    run.SameRow run' := by
  unfold changesRequiredEffect at h
  split at h
  · rename_i paid hpaid
    exact (sameRow_consumeBudget hpaid).trans
      (writes_failReviewEffect False.elim False.elim h).sameHeader.sameRow
  rename_i paid hpaid
  obtain ⟨opened, hopened, h⟩ := ok_of_match h
  obtain ⟨queued, hqueued, h⟩ := ok_of_match h
  obtain ⟨final, hfinal, h⟩ := ok_of_match h
  cases h
  exact (((sameRow_consumeBudget hpaid).trans (sameRow_upsertOperation hopened)).trans
    (sameRow_queueCommand hqueued)).trans
      (writes_settleClaim (Q := False) hfinal).sameHeader.sameRow

theorem sameRow_verdictEffect {verdict : ReviewVerdict}
    (h : run.verdictEffect home nodeId verdict claim = .ok (effect, run')) : run.SameRow run' := by
  obtain ⟨-, h⟩ := ok_of_check h
  split at h
  · exact (writes_malformedVerdictEffect False.elim False.elim h).sameHeader.sameRow
  split at h
  · exact (writes_acceptedVerdictEffect False.elim False.elim False.elim h).sameHeader.sameRow
  · exact (writes_failReviewEffect False.elim False.elim h).sameHeader.sameRow
  · exact sameRow_changesRequiredEffect h
  · cases h

section Allowances

variable {attemptId cause : String} {retrySafe : Bool}

theorem budgets_skipPasses (revision fuel : Nat) (run : WorkflowRun) :
    (run.skipPasses revision fuel).budgets = run.budgets := by
  induction fuel generalizing run with
  | zero => rfl
  | succ fuel ih =>
    unfold skipPasses
    split
    · exact ih (run.skipPass revision)
    · rfl

theorem budgets_releaseDependents
    (h : run.releaseDependents generation revision nodeId = .ok run') :
    run'.budgets = run.budgets := by
  rw [queueNodes_rest h]
  rfl

theorem budgets_settleWithReReview {cause : Option String}
    (h : run.settleWithReReview generation revision cause = .ok (effect, run')) :
    run'.budgets = run.budgets := by
  unfold settleWithReReview at h
  dsimp only at h
  split at h
  · cases h
    rfl
  obtain ⟨requeued, hrequeued, h⟩ := ok_of_match h
  cases h
  unfold maybeQueueReReview at hrequeued
  split at hrequeued
  · cases hrequeued
    rfl
  refine foldlM_keeps (P := fun mid => mid.budgets = run.budgets)
    (fun mid n mid' _ hmid hstep => ?_) rfl hrequeued
  unfold requeueReview at hstep
  split at hstep
  · rw [queueForNode_rest hstep]
    exact hmid
  · cases hstep
    exact hmid

theorem budgets_closeFailedNode
    (h : run.closeFailedNode generation revision nodeId attemptId cause = .ok (effect, run')) :
    run'.budgets = run.budgets := by
  obtain ⟨settled, hsettled, h⟩ := ok_of_match h
  obtain ⟨-, rfl⟩ := setNodeOutcome_ok hsettled
  split at h
  · obtain ⟨released, hreleased, h⟩ := ok_of_match h
    have hrelease := budgets_releaseDependents hreleased
    exact (budgets_settleWithReReview h).trans hrelease
  · exact (budgets_settleWithReReview h).trans (budgets_skipPasses _ _ _)

theorem budgets_retryNode
    (h : run.retryNode generation revision nodeId attemptId cause = .ok (effect, run')) :
    run'.budgets = run.budgets := by
  obtain ⟨settled, hsettled, h⟩ := ok_of_match h
  obtain ⟨-, rfl⟩ := setNodeOutcome_ok hsettled
  obtain ⟨queued, hqueued, h⟩ := ok_of_match h
  cases h
  rw [queueCommand_rest hqueued]

theorem workRetry_failNodeEffect
    (h : run.failNodeEffect generation revision nodeId attemptId cause retrySafe =
      .ok (effect, run')) :
    run'.budgets.workRetry.consumed ≤ run.budgets.workRetry.consumed + 1 := by
  unfold failNodeEffect at h
  split at h
  · split at h
    · rename_i paid hpaid
      obtain ⟨-, rfl⟩ := consumeBudget_true hpaid
      rw [budgets_retryNode h]
      exact le_refl _
    rename_i paid hpaid
    obtain ⟨rfl, -⟩ := consumeBudget_false hpaid
    rw [budgets_closeFailedNode h]
    omega
  · rw [budgets_closeFailedNode h]
    omega

end Allowances

/-! ## The states an applier asks for -/

def EndsOnly (effect : TransitionEffect) : Prop :=
  ∀ state, effect.nextState = some state → state.isTerminal = true

theorem endsOnly_stay : EndsOnly .stay := fun _ h => by cases h

theorem endsOnly_noChange : EndsOnly .noChange := fun _ h => by cases h

theorem endsOnly_fail (code reason : String) : EndsOnly (.fail code reason) := fun _ h => by
  cases h
  rfl

theorem endsOnly_judgeNodes (plan : PlanProposal) (cause : Option String) :
    EndsOnly (run.judgeNodes revision plan cause) := by
  unfold judgeNodes
  dsimp only
  intro state h
  split at h
  · cases h
    rfl
  split at h
  · split at h <;> cases h <;> rfl
  · cases h
    rfl

theorem endsOnly_evaluateTerminal (run : WorkflowRun) (revision : Nat) (cause : Option String) :
    EndsOnly (run.evaluateTerminal revision cause) := by
  unfold evaluateTerminal
  split
  · exact endsOnly_fail _ _
  split
  · exact endsOnly_stay
  split
  · exact endsOnly_stay
  split
  · exact endsOnly_stay
  · split
    · exact endsOnly_fail _ _
    · exact endsOnly_judgeNodes _ _

theorem endsOnly_settleWithReReview {cause : Option String}
    (h : run.settleWithReReview generation revision cause = .ok (effect, run')) :
    EndsOnly effect := by
  have heffect : effect = run.evaluateTerminal revision cause := by
    unfold settleWithReReview at h
    dsimp only at h
    split at h
    · cases h
      rfl
    · split at h <;> cases h
      rfl
  rw [heffect]
  exact endsOnly_evaluateTerminal _ _ _

theorem endsOnly_succeedNodeEffect {attemptId artifactsJson : String}
    (h : run.succeedNodeEffect generation revision nodeId attemptId artifactsJson =
      .ok (effect, run')) : EndsOnly effect := by
  obtain ⟨_, -, h⟩ := ok_of_match h
  obtain ⟨_, -, h⟩ := ok_of_match h
  exact endsOnly_settleWithReReview h

theorem endsOnly_closeFailedNode {attemptId cause : String}
    (h : run.closeFailedNode generation revision nodeId attemptId cause = .ok (effect, run')) :
    EndsOnly effect := by
  obtain ⟨_, -, h⟩ := ok_of_match h
  split at h
  · obtain ⟨_, -, h⟩ := ok_of_match h
    exact endsOnly_settleWithReReview h
  · exact endsOnly_settleWithReReview h

theorem endsOnly_failNodeEffect {attemptId cause : String} {retrySafe : Bool}
    (h : run.failNodeEffect generation revision nodeId attemptId cause retrySafe =
      .ok (effect, run')) : EndsOnly effect := by
  unfold failNodeEffect at h
  split at h
  · split at h
    · obtain ⟨_, -, h⟩ := ok_of_match h
      obtain ⟨_, -, h⟩ := ok_of_match h
      cases h
      exact endsOnly_stay
    · exact endsOnly_closeFailedNode h
  · exact endsOnly_closeFailedNode h

section Attempts

variable {envelopeJson : WorkerResultEnvelope → String} {db : Db} {attemptId : String}

theorem endsOnly_storedAcceptanceEffect {cardId : Nat}
    (h : run.storedAcceptanceEffect envelopeJson db generation revision nodeId cardId attemptId =
      .ok (effect, run')) : EndsOnly effect := by
  unfold storedAcceptanceEffect at h
  split at h
  · exact endsOnly_failNodeEffect h
  · exact endsOnly_succeedNodeEffect h

theorem endsOnly_attemptSucceededEffect {artifactsJson : String}
    (h : run.attemptSucceededEffect envelopeJson db revision nodeId attemptId artifactsJson =
      .ok (effect, run')) : EndsOnly effect := by
  unfold attemptSucceededEffect at h
  split at h
  · cases h
  split at h
  · cases h
  · exact endsOnly_succeedNodeEffect h
  · exact endsOnly_storedAcceptanceEffect h

theorem endsOnly_attemptFailedEffect {cause : String} {retrySafe : Bool}
    (h : run.attemptFailedEffect revision nodeId attemptId cause retrySafe =
      .ok (effect, run')) : EndsOnly effect := by
  unfold attemptFailedEffect at h
  split at h
  · cases h
  · exact endsOnly_failNodeEffect h

end Attempts

section Inspections

variable {c : WorkflowCommand} {owner : String} {token expectedGen : Nat} {now : Millis}

theorem endsOnly_of_map_complete {key : CommandKey} {asked : WorkflowRun → TransitionEffect}
    (hasked : ∀ run, EndsOnly (asked run))
    (h : (run.completeCommand key owner token).map (fun run => (asked run, run)) =
      .ok (effect, run')) : EndsOnly effect := by
  obtain ⟨closed, -, hout⟩ := map_eq_ok.1 h
  obtain ⟨rfl, -⟩ := Prod.mk.inj hout
  exact hasked closed

theorem endsOnly_inconclusiveEffect {onMax : WorkflowRun → Except WorkflowError WorkflowRun}
    {resolveRunUnknown : Bool}
    (h : run.inconclusiveEffect now c expectedGen onMax resolveRunUnknown =
      .ok (effect, run')) : EndsOnly effect := by
  unfold inconclusiveEffect at h
  dsimp only at h
  split at h
  · obtain ⟨_, -, h⟩ := ok_of_match h
    split at h <;> cases h
    · exact endsOnly_fail _ _
    · exact endsOnly_evaluateTerminal _ _ _
  · cases h
    exact endsOnly_stay

theorem endsOnly_inspectDeliver (h : run.inspectDeliver c owner token = .ok (effect, run')) :
    EndsOnly effect := by
  unfold inspectDeliver at h
  split at h
  · exact endsOnly_of_map_complete (fun _ => endsOnly_noChange) h
  split at h
  · cases h
    exact endsOnly_stay
  · obtain ⟨_, -, h⟩ := ok_of_match h
    exact endsOnly_of_map_complete (fun _ => endsOnly_stay) h

theorem endsOnly_inspectDispatch {envelopeJson : WorkerResultEnvelope → String} {db : Db}
    (h : run.inspectDispatch envelopeJson now db c owner token expectedGen = .ok (effect, run')) :
    EndsOnly effect := by
  unfold inspectDispatch at h
  dsimp only at h
  split at h
  · exact endsOnly_of_map_complete (fun _ => endsOnly_noChange) h
  split at h
  · cases h
    exact endsOnly_stay
  split at h
  · -- the stored evidence decides
    split at h
    · cases h
    · cases h
    split at h
    · cases h
    · rename_i asked settled hsettled
      exact endsOnly_of_map_complete (fun _ => endsOnly_storedAcceptanceEffect hsettled) h
  · split at h
    · split at h
      · exact endsOnly_inconclusiveEffect h
      split at h
      · cases h
        exact endsOnly_stay
      · obtain ⟨_, -, h⟩ := ok_of_match h
        exact endsOnly_of_map_complete (fun _ => endsOnly_evaluateTerminal _ _ _) h
    · split at h
      · cases h
        exact endsOnly_stay
      · exact endsOnly_inconclusiveEffect h

theorem endsOnly_claimExpiredEffect {envelopeJson : WorkerResultEnvelope → String} {db : Db}
    {key : CommandKey}
    (h : run.claimExpiredEffect envelopeJson now db key expectedGen = .ok (effect, run')) :
    EndsOnly effect := by
  rcases claimExpiredEffect_cases h with ⟨rfl, -⟩ |
    ⟨c, owner, token, -, -, -, -, ⟨rfl, -, -⟩ | ⟨-, h⟩⟩
  · exact endsOnly_noChange
  · exact endsOnly_noChange
  · split at h
    · exact endsOnly_inspectDeliver h
    · exact endsOnly_inconclusiveEffect h
    · exact endsOnly_inconclusiveEffect h
    · exact endsOnly_inspectDispatch h
    · exact endsOnly_inspectDispatch h

end Inspections

end WorkflowRun

/-! ## Operations -/

/-- A run later on: under the same id, root card and operation, and not revived. -/
structure Continues (run run' : WorkflowRun) : Prop where
  runId : run'.runId = run.runId
  rootCardId : run'.rootCardId = run.rootCardId
  clientOperationId : run'.clientOperationId = run.clientOperationId
  ended : run.state.isTerminal = true → run'.state.isTerminal = true

theorem Continues.refl (run : WorkflowRun) : Continues run run := ⟨rfl, rfl, rfl, id⟩

theorem Continues.trans {a b c : WorkflowRun} (h : Continues a b) (h' : Continues b c) :
    Continues a c :=
  ⟨h'.runId.trans h.runId, h'.rootCardId.trans h.rootCardId,
    h'.clientOperationId.trans h.clientOperationId, h'.ended ∘ h.ended⟩

theorem WorkflowRun.SameRow.continues {run run' : WorkflowRun} (h : run.SameRow run') :
    Continues run run' :=
  ⟨congrArg WorkflowRunRow.runId h.row, congrArg WorkflowRunRow.rootCardId h.row,
    h.clientOperationId, fun hended => by rw [congrArg WorkflowRunRow.state h.row]; exact hended⟩

theorem WorkflowRun.Writes.continues {run run' : WorkflowRun} (h : Writes False run run') :
    Continues run run' := h.sameHeader.sameRow.continues

theorem continues_bump {run run' : WorkflowRun} {effect : TransitionEffect}
    (hrow : run.SameRow run') (hends : run.state.isTerminal = true → WorkflowRun.EndsOnly effect) :
    Continues run (run'.bump effect) := by
  have hcontinues := hrow.continues
  refine ⟨hcontinues.runId, hcontinues.rootCardId, hcontinues.clientOperationId, fun hended => ?_⟩
  change (effect.nextState.getD run'.state).isTerminal = true
  cases hnext : effect.nextState with
  | none => exact hcontinues.ended hended
  | some state => exact hends hended state hnext

theorem continues_of_live {run run' : WorkflowRun} {effect : TransitionEffect}
    (hlive : run.state.isTerminal = false) (hrow : run.SameRow run') :
    Continues run (run'.bump effect) :=
  continues_bump hrow fun hended => by cases hlive.symm.trans hended

namespace RunView

open WorkflowRun

variable {v : RunView}

theorem sameRow_cancelRun_close (status : OperationStatus) (v : RunView) :
    v.run.SameRow (v.cancelRun.closeOperations status).run :=
  (writes_cancelWork (Q := False) v.run).sameHeader.sameRow.trans ⟨rfl, rfl, rfl, rfl⟩

theorem sameRow_failModelJobEffect {claim : ClaimAuthority} {reason : String}
    {effect : TransitionEffect} {v' : RunView}
    (h : failModelJobEffect claim reason v = .ok (effect, v')) : v.run.SameRow v'.run := by
  unfold failModelJobEffect at h
  split at h
  · cases h
  obtain ⟨failed, hfailed, h⟩ := ok_of_match h
  have hfail : v.run.SameRow failed := by
    split at hfailed
    · exact (writes_closeNode (Q := False) hfailed rfl).sameHeader.sameRow
    · cases hfailed
      exact .refl v.run
  obtain ⟨closed, hclosed, h⟩ := ok_of_match h
  cases h
  exact (hfail.trans (sameRow_upsertOperation hclosed)).trans
    (sameRow_cancelRun_close .failed { v with run := closed })

theorem sameRow_requestInputEffect {question kind : String} {criteria : List String}
    {effect : TransitionEffect} {v' : RunView}
    (h : requestInputEffect question criteria kind v = .ok (effect, v')) :
    v.run.SameRow v'.run := by
  obtain ⟨queued, hqueued, h⟩ := ok_of_match h
  cases h
  exact sameRow_queueCommand hqueued

theorem sameRow_inputAnsweredEffect {run run' : WorkflowRun} {effect : TransitionEffect}
    (h : inputAnsweredEffect run = .ok (effect, run')) : run.SameRow run' := by
  obtain ⟨queued, hqueued, hout⟩ := map_eq_ok.1 h
  cases hout
  exact sameRow_queueCommand hqueued

theorem continues_completeCommand {run run' : WorkflowRun} {key : CommandKey} {owner : String}
    {token : Nat} (h : run.completeCommand key owner token = .ok run') : Continues run run' :=
  (writes_completeCommand (Q := False) h).continues

theorem continues_setDeliveryOutcome {run run' : WorkflowRun} {nodeId : NodeId}
    {outcome : DeliveryOutcome} {receipt : Option String}
    (h : run.setDeliveryOutcome nodeId outcome receipt = .ok run') : Continues run run' :=
  (writes_setDeliveryOutcome (Q := False) h).continues

theorem continues_startOperation {run run' : WorkflowRun} {c : WorkflowCommand}
    (h : startOperation c run = .ok run') : Continues run run' := by
  unfold startOperation at h
  split at h <;> exact (sameRow_upsertOperation h).continues

theorem sends_continues {key : CommandKey} {owner : String} {token : Nat} :
    Sends key owner token fun v v' => Continues v.run v'.run where
  refl v := .refl v.run
  trans := .trans
  complete := continues_completeCommand
  bump h := (writes_bumpDeliveryAttempts (Q := False) h).continues
  outcome := continues_setDeliveryOutcome
  retry h := (sameRow_queueCommand h).continues
  settle v hlive := continues_of_live hlive (.refl v.run)

theorem carries_continues {c : WorkflowCommand} {owner : String} {token : Nat} :
    Carries c owner token fun v v' => Continues v.run v'.run where
  refl v := .refl v.run
  trans := .trans
  complete := continues_completeCommand
  release v := (writes_releaseClaim (Q := False) _ _ _ v.run).continues
  mark v revision := (writes_markNodeRunning (Q := False) revision c.nodeId v.run).continues
  start := continues_startOperation
  sends _ := sends_continues

/-- No operation moves a run under another name or revives it. -/
theorem continues_step (host : RunnerHost) (v : RunView) (op : WorkflowOp) :
    Continues v.run (workflowStep host v op).run := by
  have hdoes := does_step host v op
  generalize workflowStep host v op = v' at hdoes
  cases hdoes with
  | nothing | workers => exact .refl v.run
  | @transaction op f effect run' hop h =>
    cases hop with
    | rejectPlan hlive =>
      obtain rfl : _ = run' := congrArg Prod.snd (Except.ok.inj h)
      exact continues_of_live hlive (sameRow_rejectPlanEffect _ v.run)
    | admitPlan hlive =>
      obtain ⟨grown, hgrown, hout⟩ := map_eq_ok.1 h
      cases hout
      exact continues_of_live hlive (sameRow_admitRevision hgrown)
    | rejectProposal hlive | rejectRound hlive =>
      exact continues_of_live hlive (sameRow_rejectPlanRoundEffect h)
    | admitProposal hlive => exact continues_of_live hlive (sameRow_admitProposalEffect h)
    | succeed | succeedStored =>
      exact continues_bump (writes_attemptSucceededEffect (Q := False) False.elim h).sameHeader.sameRow
        fun _ => endsOnly_attemptSucceededEffect h
    | fail | failStored =>
      exact continues_bump (writes_attemptFailedEffect (Q := False) False.elim h).sameHeader.sameRow
        fun _ => endsOnly_attemptFailedEffect h
    | verdict hlive => exact continues_of_live hlive (sameRow_verdictEffect h)
    | refuse hlive | refuseDispatch _ hlive =>
      exact continues_of_live hlive
        (writes_breakerRefusedEffect (Q := False) False.elim h).sameHeader.sameRow
    | handoff hlive =>
      exact continues_of_live hlive
        (writes_shaHandoffEffect (Q := False) False.elim h).sameHeader.sameRow
    | inspect | inspectToken =>
      exact continues_bump (writes_claimExpiredEffect (Q := False) False.elim h).sameHeader.sameRow
        fun _ => endsOnly_claimExpiredEffect h
  | cancel hlive =>
    exact continues_of_live hlive (writes_cancelWork (Q := False) v.run).sameHeader.sameRow
  | fail hlive => exact continues_of_live hlive (.refl v.run)
  | interrupt hlive => exact continues_of_live hlive (sameRow_cancelRun_close .cancelled v)
  | failJob hlive _ h => exact continues_of_live hlive (sameRow_failModelJobEffect h)
  | note => exact (writes_noteInspection (Q := False) _ _ _ _ v.run).continues
  | ask hlive h => exact continues_of_live hlive (sameRow_requestInputEffect h)
  | answer _ _ hrun =>
    rcases hrun with rfl | ⟨effect, mid, hlive, h, rfl⟩
    · exact .refl v.run
    · exact continues_of_live hlive (sameRow_inputAnsweredEffect h)
  | bind h => exact (writes_bindNodeWorker (Q := False) h).continues
  | complete h => exact continues_completeCommand h
  | deliver c _ _ hclaim =>
    exact (writes_claimCommand (Q := False) hclaim).continues.trans
      (sends_continues.runDeliverySend _ { v with run := _, minted := v.minted + 1 })
  | drain c _ _ hclaim =>
    exact (writes_claimCommand (Q := False) hclaim).continues.trans
      (carries_continues.startCommand _ _ { v with run := _, minted := v.minted + 1 })

end RunView

end Abtars
