import Abtars.Workflow.Deeds
import Abtars.Workflow.Moves

/-!
# The steps of a workflow run

Every operation of the runner moves a run or admits one revision.
-/

namespace Abtars

open Lib

namespace RunView

open WorkflowRun

variable {v : RunView}

section Moves

variable {host : RunnerHost} {key : CommandKey} {owner : String} {token : Nat} {c : WorkflowCommand}

theorem writes_cancelRun_close {status : OperationStatus} (hstatus : status.isOpen = false)
    (v : RunView) : Writes True v.run (v.cancelRun.closeOperations status).run :=
  (writes_cancelWork v.run).tail (.closeOperations _ status hstatus)

theorem writes_failModelJobEffect {claim : ClaimAuthority} {reason : String}
    {effect : TransitionEffect} {v' : RunView} (hw : v.run.Within)
    (h : failModelJobEffect claim reason v = .ok (effect, v')) : Writes True v.run v'.run := by
  unfold failModelJobEffect at h
  split at h
  · cases h
  rename_i c hc
  have hmem := Table.mem_of_get (requireOwnedClaim_ok hc).1
  dsimp only at h
  split at h
  · cases h
  rename_i failed hfailed
  have hfail : Writes True v.run failed := by
    split at hfailed
    · exact writes_closeNode hfailed rfl
    · cases hfailed
      exact .refl
  have hcurrent := hfail.sameHeader.currentRevision
  split at h
  · cases h
  rename_i closed hclosed
  cases h
  have hop : Write True failed closed := by
    refine .operation _ _ _ hclosed fun _ => ⟨hcurrent.symm ▸ hw.opIdOf hmem, ?_⟩
    intro r hr
    exact hcurrent.symm ▸ (hw.commands c hmem).2.revision r hr
  exact (hfail.tail hop).trans
    (writes_cancelRun_close (v := { v with run := closed }) rfl)

theorem write_queueNotice {run run' : WorkflowRun} (hid : key.nodeId.Within run.currentRevision)
    (h : run.queueCommand key ⟨none, none, [], none⟩ = .ok run') : Write True run run' :=
  .queue _ _ _ _ h (fun _ => hid) (fun _ => ⟨by simp, by simp⟩) (by simp)

theorem write_startOperation {run run' : WorkflowRun} (hid : c.nodeId.Within run.currentRevision)
    (hpayload : c.payload.Within run.currentRevision) (hop : c.opIdOf.Within run.currentRevision)
    (h : startOperation c run = .ok run') : Write True run run' := by
  unfold startOperation at h
  split at h
  · refine .operation _ _ _ h fun _ => ⟨⟨?_, hid⟩, hpayload.revision⟩
    cases hrevision : c.payload.revision with
    | none => exact Nat.zero_le _
    | some r => exact hpayload.revision r hrevision
  · exact .operation _ _ _ h fun _ => ⟨hop, hpayload.revision⟩

/-- What a command names was admitted. -/
structure Named (c : WorkflowCommand) (revision : Nat) : Prop where
  nodeId : c.nodeId.Within revision
  payload : c.payload.Within revision
  opId : c.opIdOf.Within revision

def Handles (c : WorkflowCommand) (v v' : RunView) : Prop :=
  v'.run.currentRevision = v.run.currentRevision ∧
    (Named c v.run.currentRevision → Moves v.run v'.run)

theorem handles_of_writes {run' : WorkflowRun}
    (h : Named c v.run.currentRevision → Writes True v.run run')
    (hcurrent : run'.currentRevision = v.run.currentRevision) :
    Handles c v { v with run := run' } :=
  ⟨hcurrent, fun hnamed => (h hnamed).moves⟩

theorem handles_trans {a b d : RunView} (h : Handles c a b) (h' : Handles c b d) : Handles c a d :=
  ⟨h'.1.trans h.1, fun hnamed => (h.2 hnamed).trans (h'.2 (h.1.symm ▸ hnamed))⟩

theorem sends_handles : Sends c.toCommandKey owner token (Handles c) where
  refl v := ⟨rfl, fun _ => .refl⟩
  trans := handles_trans
  complete h := handles_of_writes (fun _ => writes_completeCommand h)
    (writes_completeCommand (Q := True) h).sameHeader.currentRevision
  bump h := handles_of_writes (fun _ => writes_bumpDeliveryAttempts h)
    (writes_bumpDeliveryAttempts (Q := True) h).sameHeader.currentRevision
  outcome h := handles_of_writes (fun _ => writes_setDeliveryOutcome h)
    (writes_setDeliveryOutcome (Q := True) h).sameHeader.currentRevision
  retry h := handles_of_writes (fun hnamed => (write_queueNotice (by exact hnamed.nodeId) h).single)
    (by rw [queueCommand_rest h]; rfl)
  settle v _ := ⟨rfl, fun _ => .single (.bump v.run _)⟩

theorem carries_handles : Carries c owner token (Handles c) where
  refl v := ⟨rfl, fun _ => .refl⟩
  trans := handles_trans
  complete h := sends_handles.complete h
  release v := handles_of_writes (fun _ => writes_releaseClaim _ _ _ v.run)
    (writes_releaseClaim (Q := True) _ _ _ v.run).sameHeader.currentRevision
  mark v revision := handles_of_writes (fun _ => writes_markNodeRunning revision _ v.run)
    (writes_markNodeRunning (Q := True) revision _ v.run).sameHeader.currentRevision
  start h := by
    refine handles_of_writes (fun hnamed =>
      (write_startOperation hnamed.nodeId hnamed.payload hnamed.opId h).single) ?_
    unfold startOperation at h
    split at h <;> rw [upsertOperation_rest h] <;> rfl
  sends _ := sends_handles

theorem named_of_get (hw : v.run.Within) (hc : v.run.commands.get key = some c) :
    Named c v.run.currentRevision :=
  have hmem := Table.mem_of_get hc
  ⟨(hw.commands c hmem).1, (hw.commands c hmem).2, hw.opIdOf hmem⟩

/-- What follows a claim moves the run with it. -/
theorem moves_claimed {now : Millis} {run' : WorkflowRun} (hw : v.run.Within)
    (hc : v.run.commands.get key = some c)
    (hclaim : v.run.claimCommand key owner v.minted now = some run')
    {v' : RunView} (h : Handles c { v with run := run', minted := v.minted + 1 } v') :
    Moves v.run v'.run :=
  have hwrites : Writes True v.run run' := writes_claimCommand hclaim
  hwrites.moves.trans
    (h.2 (hwrites.sameHeader.currentRevision.symm ▸ named_of_get hw hc))

end Moves

/-! ## Steps -/

inductive Admits (host : RunnerHost) (v : RunView) : WorkflowOp → PlanProposal → WorkflowRun → Prop
  | initial (report : ReportConstraint) (proposal : PlanProposal) (run : WorkflowRun)
      (hfirst : v.run.currentRevision = 0)
      (h : v.run.admitRevision v.run.generation proposal = .ok run) :
      Admits host v (.acceptPlan report proposal) proposal (run.bump (.enter .dispatched))
  | proposal (report : ReportConstraint) (proposal : PlanProposal) (opts : ProposalOpts)
      (run : WorkflowRun) (effect : TransitionEffect)
      (hlive : v.run.state.isTerminal = false)
      (hheld : v.run.claimHeld opts.claim = .ok ())
      (hbase : opts.baseRevision.filter (· ≠ v.run.currentRevision) = none)
      (hvalid : v.run.validatePlanForRun host.capabilities report proposal = [])
      (hkept : droppedOutputs v.run proposal = [])
      (h : v.run.admitProposalEffect proposal opts = .ok (effect, run)) :
      Admits host v (.submitPlanProposal report proposal opts) proposal (run.bump effect)

/-- The rows that a call under a held claim, or without one, names belong to admitted
revisions. -/
def NamesWithin (run : WorkflowRun) : WorkflowOp → Prop
  | .submitPlanProposal _ _ opts => run.state.isTerminal = false →
      run.claimHeld opts.claim = .ok () → run.RoundWithin opts.opId opts.planRound
  | .rejectPlanRound _ opId round claim => run.state.isTerminal = false →
      run.claimHeld claim = .ok () → run.RoundWithin opId round
  | _ => True

/-- A step moves the run, or admits one revision. -/
theorem step_moves_or_admits {host : RunnerHost} {op : WorkflowOp} (hw : v.run.Within)
    (hnames : NamesWithin v.run op) : Moves v.run (workflowStep host v op).run ∨
      ∃ proposal, Admits host v op proposal (workflowStep host v op).run := by
  have hdoes := does_step host v op
  generalize workflowStep host v op = v' at hdoes
  cases hdoes with
  | nothing => exact .inl .refl
  | @transaction op f effect run' hop h =>
    suffices hmoves : Moves v.run run' ∨ ∃ proposal, Admits host v op proposal (run'.bump effect)
      from hmoves.imp_left fun h => h.tail (.bump _ effect)
    cases hop with
    | rejectPlan =>
      obtain rfl : _ = run' := congrArg Prod.snd (Except.ok.inj h)
      exact .inl (writes_rejectPlanEffect _ v.run).moves
    | @admitPlan report proposal _ hfirst =>
      obtain ⟨grown, hgrown, hout⟩ := map_eq_ok.1 h
      cases hout
      exact .inr ⟨proposal, .initial report proposal _ hfirst hgrown⟩
    | rejectProposal hlive hheld =>
      exact .inl (moves_rejectPlanRoundEffect hw (fun _ => hnames hlive hheld) h)
    | @admitProposal report proposal opts hlive hheld hbase hvalid hkept =>
      exact .inr ⟨proposal, .proposal report proposal opts run' effect hlive hheld hbase hvalid
        hkept h⟩
    | rejectRound hlive => exact .inl (moves_rejectPlanRoundEffect hw (hnames hlive) h)
    | succeed | succeedStored => exact .inl (writes_attemptSucceededEffect (fun _ => hw) h).moves
    | fail | failStored => exact .inl (writes_attemptFailedEffect (fun _ => hw) h).moves
    | verdict _ _ hhome =>
      obtain ⟨n, hn, -, -⟩ := locateReviewNode_some hhome
      obtain ⟨hle, hid⟩ := revision_le_of_findNode hw hn
      exact .inl (moves_verdictEffect hw hle hid h)
    | refuse | refuseDispatch => exact .inl (writes_breakerRefusedEffect (fun _ => hw) h).moves
    | handoff => exact .inl (writes_shaHandoffEffect (fun _ => hw) h).moves
    | inspect | inspectToken => exact .inl (writes_claimExpiredEffect (fun _ => hw) h).moves
  | cancel => exact .inl ((writes_cancelWork v.run).moves.tail (.bump _ _))
  | fail => exact .inl (.single (.bump v.run _))
  | interrupt => exact .inl ((writes_cancelRun_close rfl v).moves.tail (.bump _ _))
  | failJob _ _ h => exact .inl ((writes_failModelJobEffect hw h).moves.tail (.bump _ _))
  | note => exact .inl (writes_noteInspection _ _ _ _ v.run).moves
  | ask _ h =>
    obtain ⟨queued, hqueued, h⟩ := ok_of_match h
    cases h
    have hid : NodeId.Within v.run.currentRevision .input := trivial
    exact .inl ((write_queueNotice hid hqueued).moves.tail (.bump _ _))
  | answer _ _ hrun =>
    rcases hrun with rfl | ⟨effect, mid, -, h, rfl⟩
    · exact .inl .refl
    obtain ⟨queued, hqueued, hout⟩ := map_eq_ok.1 h
    cases hout
    have hid : NodeId.Within v.run.currentRevision .input := trivial
    exact .inl ((write_queueNotice hid hqueued).moves.tail (.bump _ _))
  | bind h => exact .inl (writes_bindNodeWorker h).moves
  | complete h => exact .inl (writes_completeCommand h).moves
  | workers => exact .inl .refl
  | deliver c _ _ hclaim =>
    obtain ⟨⟨c', hc, -⟩, -⟩ := claimCommand_some hclaim
    have hkey : c'.toCommandKey = c.toCommandKey := Table.key_of_get hc
    exact .inl (moves_claimed hw hc hclaim (hkey ▸ sends_handles.runDeliverySend _ _))
  | drain c hc _ hclaim =>
    exact .inl (moves_claimed hw hc hclaim (carries_handles.startCommand _ _ _))

end RunView

/-! ## The start of a run -/

/-- A run as it is admitted with the given allowances, its initial planning queued or not. -/
def WorkflowRun.Starts (budgets : ResolvedBudgets) (run : WorkflowRun) : Prop :=
  ∃ runId rootKind rootCardId scheduledRunId clientOperationId createdAt, ∃ admitted,
    admitted = WorkflowRun.admitted runId rootKind rootCardId scheduledRunId clientOperationId
      budgets createdAt ∧ (run = admitted ∨ admitted.queueInitialPlanning = .ok run)

namespace WorkflowRun

variable {budgets : ResolvedBudgets} {run : WorkflowRun}

theorem writes_queueInitialPlanning {run' : WorkflowRun}
    (h : run.queueInitialPlanning = .ok run') : Writes True run run' := by
  obtain ⟨opened, hopened, h⟩ := ok_of_match h
  refine Relation.ReflTransGen.tail
    (Write.single (.operation _ _ _ hopened fun _ => ⟨trivial, by simp⟩))
    (.queue _ _ _ _ h (fun _ => trivial) (fun _ => ⟨by simp, ?_⟩) (by simp))
  intro id hid
  cases hid
  trivial

theorem Starts.writes (h : run.Starts budgets) : ∃ runId rootKind rootCardId scheduledRunId
    clientOperationId createdAt, Writes True (WorkflowRun.admitted runId rootKind rootCardId
      scheduledRunId clientOperationId budgets createdAt) run := by
  obtain ⟨runId, rootKind, rootCardId, scheduledRunId, clientOperationId, createdAt, _, rfl, h⟩ :=
    h
  refine ⟨runId, rootKind, rootCardId, scheduledRunId, clientOperationId, createdAt, ?_⟩
  rcases h with rfl | h
  · exact .refl
  · exact writes_queueInitialPlanning h

theorem within_admitted (runId : String) (rootKind : RootKind) (rootCardId : Nat)
    (scheduledRunId : Option String) (clientOperationId : String) (budgets : ResolvedBudgets)
    (createdAt : Millis) : (WorkflowRun.admitted runId rootKind rootCardId scheduledRunId
      clientOperationId budgets createdAt).Within :=
  ⟨fun _ h => absurd h (Table.not_mem_empty _), fun _ h => absurd h (Table.not_mem_empty _),
    fun _ h => absurd h (Table.not_mem_empty _), fun _ h => absurd h (Table.not_mem_empty _),
    fun _ h => absurd h (Table.not_mem_empty _), fun _ h => absurd h (Table.not_mem_empty _),
    fun _ h => absurd h (Table.not_mem_empty _)⟩

theorem Starts.within (h : run.Starts budgets) : run.Within := by
  obtain ⟨_, _, _, _, _, _, hwrites⟩ := h.writes
  exact hwrites.within (fun _ => within_admitted ..) trivial

theorem Starts.revisions (h : run.Starts budgets) : run.revisions = [] := by
  obtain ⟨_, _, _, _, _, _, hwrites⟩ := h.writes
  exact hwrites.sameHeader.revisions

theorem Starts.allowed (h : run.Starts budgets) (scope : BudgetScope) :
    (run.budgets.get scope).allowed = (budgets.rows.get scope).allowed := by
  obtain ⟨_, _, _, _, _, _, hwrites⟩ := h.writes
  exact hwrites.sameHeader.allowed scope

end WorkflowRun

end Abtars
