import Abtars.Lib.Run
import Abtars.Workflow.Endings
import Abtars.Workflow.Frames

/-!
# Ended runs are quiet

A run may end in a dozen operations, and most of them close only what they are about.  Here each
exit is held against the rows it finds: where these are all closed with the run, an ended run has
no open work, and no operation changes its state or starts a command of it.
-/

namespace Abtars

open Lib

namespace RunView

open WorkflowRun SettledWork

variable {run run' : WorkflowRun}

variable {host : RunnerHost} {v v' : RunView} {S : SettledWork} {op : WorkflowOp}

structure Quiescent (v : RunView) : Prop where
  nodes : ∀ n ∈ v.run.nodes, n.status.isOpen = false
  commands : ∀ c ∈ v.run.commands, c.status.isOpen = false
  operations : ∀ o ∈ v.run.operations, o.status.isOpen = false
  inputs : ∀ q ∈ v.inputs, q.runId = v.run.runId → q.status ≠ .pending

/-- What is open is among the given rows; an open input request is one of the root card, which
expire with the run or not. -/
structure Covers (v : RunView) (S : SettledWork) (expire : Bool) : Prop where
  nodes : ∀ n ∈ v.run.nodes, n.status.isOpen = true → S.node (n.revision, n.nodeId)
  commands : ∀ c ∈ v.run.commands, c.status.isOpen = true → S.command c.toCommandKey
  operations : ∀ o ∈ v.run.operations, o.status.isOpen = true → S.operation o.opId
  inputs : ∀ q ∈ v.inputs, q.runId = v.run.runId → q.status = .pending →
    expire = true ∧ q.projectCardId = v.run.rootCardId

def cancels : WorkflowOp → Bool
  | .requestCancel _ | .interruptRun | .failModelJob .. | .submitModelJobInspection .. => true
  | _ => false

def Exit (host : RunnerHost) (v : RunView) (S : SettledWork) : WorkflowOp → Prop
  | .acceptPlan report proposal =>
    v.run.currentRevision = 0 ∧ v.run.Spent .planRevision ∧
      v.run.validatePlanForRun host.capabilities report proposal ≠ [] ∧ S = nothing
  | .submitPlanProposal report proposal opts =>
    opts.baseRevision.filter (· ≠ v.run.currentRevision) = none ∧
      v.run.validatePlanForRun host.capabilities report proposal ≠ [] ∧
      v.run.RoundExit opts.claim opts.opId S
  | .rejectPlanRound _ opId _ claim => v.run.RoundExit claim opId S
  | .attemptSucceeded nodeId attemptId _ =>
    v.run.SucceededExit v.db v.run.currentRevision nodeId attemptId S
  | .attemptFailed nodeId _ _ retrySafe =>
    v.run.FailedExit v.run.currentRevision nodeId retrySafe S
  | .storedAttemptSucceeded revision nodeId attemptId _ =>
    v.run.SucceededExit v.db revision nodeId attemptId S
  | .storedAttemptFailed revision nodeId _ _ retrySafe =>
    v.run.FailedExit revision nodeId retrySafe S
  | .submitVerdict nodeId verdict claim => ∃ home, v.run.locateReviewNode nodeId = some home ∧
      v.run.VerdictExit home nodeId (boundVerdict verdict) claim S
  | .submitBreakerRefused nodeId _ ordinal => v.run.RefusalExit nodeId ordinal S
  | .requestCancel _ => S = { everything with operation := fun _ => False }
  | .failRun _ _ => S = nothing
  | .interruptRun => S = everything
  | .failModelJob claim _ => (∃ c, v.run.requireOwnedClaim claim = .ok c) ∧ S = everything
  | .executeDelivery _ nodeId outcome => ∃ c, v.run.findPendingCommand nodeId .deliver = some c ∧
      v.run.DeliveryExit c.toCommandKey outcome S
  | .inspectClaim now key expectedGen => v.run.InspectionExit now v.db key expectedGen S
  | .submitClaimInspection now token gen => ∃ c, v.run.findCommandByToken token = some c ∧
      v.run.InspectionExit now v.db c.toCommandKey gen S
  | .submitModelJobInspection _ token gen disposition _ =>
    disposition ≠ .active ∧ S = everything ∧ ∃ c, v.run.findCommandByToken token = some c ∧
      c.status = .claimed ∧ c.inspectGen + 1 = gen
  | .drainCommand _ key refused _ _ send => ∃ c, v.run.commands.get key = some c ∧
      if refused ∧ c.action = .dispatch then v.run.RefusalExit c.nodeId c.ordinal S
      else c.status = .pending ∧ c.action = .deliver ∧ v.run.DeliveryExit key send S
  | _ => False

def EndsSettled (host : RunnerHost) (v : RunView) (op : WorkflowOp) : Prop :=
  v.run.state.isTerminal = false → ∀ S, v.Exit host S op → v.Covers S (cancels op)

/-! ## What an exit leaves -/

/-- The view after the step: the given rows of the run are closed, no row is opened, and the
input requests of the root card expire or stay as they are. -/
structure Leaves (S : SettledWork) (expire : Bool) (v v' : RunView) : Prop where
  run : Closes S v.run v'.run
  runId : v'.run.runId = v.run.runId
  inputs : v'.inputs = if expire then v.inputs.updateWhere
      (fun q => q.projectCardId = v.run.rootCardId ∧ q.status = .pending) InputRequest.expire
    else v.inputs

theorem Covers.covered {expire : Bool} (h : v.Covers S expire) : v.run.Covered S := by
  refine ⟨fun key hopen => ?_, fun key hopen => ?_, fun id hopen => ?_⟩
  · obtain ⟨n, hn, hstatus⟩ := (Option.any_eq_true _ _).1 hopen
    have hkey : (n.revision, n.nodeId) = key := Table.key_of_get hn
    exact hkey ▸ h.nodes n (Table.mem_of_get hn) hstatus
  · obtain ⟨c, hc, hstatus⟩ := (Option.any_eq_true _ _).1 hopen
    have hkey : c.toCommandKey = key := Table.key_of_get hc
    exact hkey ▸ h.commands c (Table.mem_of_get hc) hstatus
  · obtain ⟨o, ho, hstatus⟩ := (Option.any_eq_true _ _).1 hopen
    have hkey : o.opId = id := Table.key_of_get ho
    exact hkey ▸ h.operations o (Table.mem_of_get ho) hstatus

theorem Covers.quiescent {expire : Bool} (h : v.Covers S expire)
    (hleaves : Leaves S expire v v') : v'.Quiescent := by
  have hcovered := h.covered
  refine ⟨fun n hn => ?_, fun c hc => ?_, fun o ho => ?_, fun q hq hrun hpending => ?_⟩
  · by_contra hopen
    have hget : v'.run.nodes.get (n.revision, n.nodeId) = some n := Table.get_key_of_mem hn
    have hopen' : v'.run.openNode (n.revision, n.nodeId) = true := by
      rw [openNode, hget]
      simpa using hopen
    rcases hleaves.run.node (n.revision, n.nodeId) with ⟨hnot, hsame⟩ | ⟨-, hclosed, -⟩
    · rw [openNode, hsame] at hopen'
      exact hnot (hcovered.node _ hopen')
    · cases hclosed.symm.trans hopen'
  · by_contra hopen
    have hget : v'.run.commands.get c.toCommandKey = some c := Table.get_key_of_mem hc
    have hopen' : v'.run.openCommand c.toCommandKey = true := by
      rw [openCommand, hget]
      simpa using hopen
    obtain ⟨hbefore, hnot⟩ := hleaves.run.command _ hopen'
    exact hnot (hcovered.command _ hbefore)
  · by_contra hopen
    have hget : v'.run.operations.get o.opId = some o := Table.get_key_of_mem ho
    have hopen' : v'.run.openOperation o.opId = true := by
      rw [openOperation, hget]
      simpa using hopen
    obtain ⟨hbefore, hnot⟩ := hleaves.run.operation _ hopen'
    exact hnot (hcovered.operation _ hbefore)
  · rw [hleaves.runId] at hrun
    rw [hleaves.inputs] at hq
    cases expire with
    | false => cases (h.inputs q hq hrun hpending).1
    | true =>
      rw [if_pos rfl] at hq
      obtain ⟨p, hp, rfl⟩ := Table.mem_updateWhere.1 hq
      by_cases hexpire : p.projectCardId = v.run.rootCardId ∧ p.status = .pending
      · rw [if_pos (by simpa using hexpire)] at hpending
        cases hpending
      · rw [if_neg (by simpa using hexpire)] at hrun hpending
        exact hexpire ⟨(h.inputs p hp hrun hpending).2, hpending⟩

/-! ## Commits that end the run -/

/-- An exit of the operation was taken, and nothing else was left of what it covers. -/
def Ends (exit : SettledWork → Prop) (expire : Bool) (v v' : RunView) : Prop :=
  ∃ S, exit S ∧ (v.Covers S expire → Leaves S expire v v')

theorem transacted_ends {exit : SettledWork → Prop} {effect : TransitionEffect}
    (hlive : v.Live) (hrow : run'.toWorkflowRunRow = v.run.toWorkflowRunRow)
    (hends : ∀ state, effect.nextState = some state → state.isTerminal = true →
      EndsBy exit v.run run')
    (hend : (run'.bump effect).state.isTerminal = true) :
    Ends exit false v { v with run := run'.bump effect } := by
  have hstate : (effect.nextState.getD run'.state).isTerminal = true := hend
  cases hnext : effect.nextState with
  | none =>
    rw [hnext, Option.getD_none, hrow, hlive] at hstate
    cases hstate
  | some state =>
    rw [hnext] at hstate
    obtain ⟨S, hexit, hcloses⟩ := hends state hnext hstate
    refine ⟨S, hexit, fun hcovers => ⟨(hcloses hcovers.covered).bump effect, ?_, rfl⟩⟩
    show run'.runId = v.run.runId
    rw [hrow]

theorem Ends.imp {exit exit' : SettledWork → Prop} {expire : Bool} (h : Ends exit expire v v')
    (hexit : ∀ S, exit S → exit' S) : Ends exit' expire v v' := by
  obtain ⟨S, hS, hleaves⟩ := h
  exact ⟨S, hexit S hS, hleaves⟩

/-! ### Statements outside a transaction -/

theorem statement_ends {write : WorkflowRun → Except WorkflowError WorkflowRun}
    {next : RunView → Except WorkflowError Unit × RunView} (hlive : v.run.state.isTerminal = false)
    (hwrite : ∀ run', write v.run = .ok run' → v.run.SameHeader run')
    (hend : (statement write next v).2.run.state.isTerminal = true) :
    ∃ run', write v.run = .ok run' ∧ v.run.SameHeader run' ∧ run'.state.isTerminal = false ∧
      statement write next v = next { v with run := run' } ∧
      (next { v with run := run' }).2.run.state.isTerminal = true := by
  unfold statement at hend ⊢
  split at hend
  · rw [hlive] at hend
    cases hend
  rename_i run' hrun'
  have hsame := hwrite run' hrun'
  refine ⟨run', hrun', hsame, ?_, rfl, hend⟩
  rw [congrArg WorkflowRunRow.state hsame.row]
  exact hlive

theorem sameHeader_completeCommand {key : CommandKey} {owner : String} {token : Nat}
    (h : run.completeCommand key owner token = .ok run') :
    run.SameHeader run' := (writes_completeCommand (Q := True) h).sameHeader

theorem sameHeader_setDeliveryOutcome {nodeId : NodeId} {outcome : DeliveryOutcome}
    {receipt : Option String}
    (h : run.setDeliveryOutcome nodeId outcome receipt = .ok run') : run.SameHeader run' :=
  (writes_setDeliveryOutcome (Q := True) h).sameHeader

theorem sameHeader_queueCommand {key : CommandKey} {payload : CommandPayload}
    (h : run.queueCommand key payload = .ok run') : run.SameHeader run' := by
  rw [queueCommand_rest h]
  exact ⟨rfl, rfl, rfl, rfl, rfl, rfl, fun _ => rfl⟩

theorem Leaves.trans {T : SettledWork} {m : RunView} (h : Closes S v.run m.run)
    (hrow : v.run.SameHeader m.run) (hinputs : m.inputs = v.inputs)
    (h' : Leaves T false m v') : Leaves (S.also T) false v v' :=
  ⟨h.trans h'.run, h'.runId.trans (congrArg WorkflowRunRow.runId hrow.row),
    h'.inputs.trans hinputs⟩

section Operations

variable {nodeId : NodeId} {key : CommandKey} {owner : String} {token : Nat} {send : DeliverySend}
  {now : Millis} {answer : PortOutcome}

variable (hlive : v.run.state.isTerminal = false)
include hlive

omit hlive in
theorem failModelJobEffect_leaves {claim : ClaimAuthority} {reason : String}
    {effect : TransitionEffect} (h : failModelJobEffect claim reason v = .ok (effect, v')) :
    (∃ c, v.run.requireOwnedClaim claim = .ok c) ∧
      Leaves everything true v { v' with run := v'.run.bump effect } := by
  unfold failModelJobEffect at h
  split at h
  · cases h
  rename_i c hc
  refine ⟨⟨c, hc⟩, ?_⟩
  obtain ⟨failed, hfailed, h⟩ := ok_of_match h
  obtain ⟨closed, hclosed, h⟩ := ok_of_match h
  cases h
  have hfail : ∃ S, Closes S v.run failed ∧
      failed.toWorkflowRunRow = v.run.toWorkflowRunRow := by
    split at hfailed
    · refine ⟨_, closes_setNodeOutcome rfl hfailed, ?_⟩
      obtain ⟨-, rfl⟩ := setNodeOutcome_ok hfailed
      rfl
    · cases hfailed
      exact ⟨_, .refl _, rfl⟩
  obtain ⟨S, hcloses, hrow⟩ := hfail
  have hrow' : closed.toWorkflowRunRow = v.run.toWorkflowRunRow := by
    rw [upsertOperation_rest hclosed]
    exact hrow
  have hrun := (hcloses.trans (closes_upsertOperation rfl hclosed)).trans
    (closes_cancelRun (show OperationStatus.isOpen .failed = false from rfl) closed)
  have hid : closed.runId = v.run.runId := congrArg WorkflowRunRow.runId hrow'
  have hroot : closed.rootCardId = v.run.rootCardId :=
    congrArg WorkflowRunRow.rootCardId hrow'
  refine ⟨Closes.bump (hrun.mono ?_ ?_ ?_ ?_) _, hid, ?_⟩
  · intro key
    simp [also, everything]
  · exact fun key _ _ => .inr trivial
  · exact fun id _ => .inr trivial
  · exact fun id _ => trivial
  · rw [if_pos rfl, ← hroot]
    rfl

/-! ### Deliveries -/

theorem settleIfDeliverable_ends (hend : (settleIfDeliverable v).2.run.state.isTerminal = true) :
    v.run.Decided v.run.currentRevision nothing ∧
      Leaves nothing false v (settleIfDeliverable v).2 := by
  unfold settleIfDeliverable at hend ⊢
  rw [if_neg (by simp [hlive])] at hend ⊢
  have hstate : ((v.run.evaluateTerminal v.run.currentRevision none).nextState.getD
    v.run.state).isTerminal = true := hend
  have hends : (v.run.evaluateTerminal v.run.currentRevision none).nextState ≠ none := by
    intro hnone
    rw [hnone, Option.getD_none, hlive] at hstate
    cases hstate
  exact ⟨decided_of_evaluateTerminal hends, closes_bump _ v.run, rfl, rfl⟩

/-- After a send only the settlement of an acknowledged delivery ends the run. -/
theorem afterSend_ends {attempts : Nat}
    (hend : (afterSend key owner token attempts send v).2.run.state.isTerminal = true) :
    (∃ json, send = .receipt json) ∧ ∃ S, S = (ofDelivery key.nodeId).also (ofCommand key) ∧
      v.run.Decided v.run.currentRevision S ∧
      Leaves S false v (afterSend key owner token attempts send v).2 := by
  cases send with
  | receipt json =>
    refine ⟨⟨json, rfl⟩, _, rfl, ?_⟩
    unfold afterSend at hend ⊢
    dsimp only at hend ⊢
    obtain ⟨sent, hsent, hsame, hlive', heq, hend⟩ :=
      statement_ends hlive (fun _ => sameHeader_setDeliveryOutcome) hend
    obtain ⟨final, hfinal, hsame', hlive'', heq', hend⟩ := statement_ends
      (v := { v with run := sent }) hlive' (fun _ => sameHeader_completeCommand) hend
    rw [heq, heq']
    obtain ⟨hdecided, hleaves⟩ :=
      settleIfDeliverable_ends (v := { v with run := final }) hlive'' hend
    have hcloses := (closes_setDeliveryOutcome hsent).trans (closes_completeCommand hfinal)
    have hheader := hsame.trans hsame'
    have hnothing : ∀ T : SettledWork, T.also nothing = T := fun T => by simp [also, nothing]
    have hboth := Leaves.trans (v := v) (m := { v with run := final }) hcloses hheader rfl
      hleaves
    have hbefore := hdecided.before hcloses
    rw [hnothing] at hboth hbefore
    exact ⟨hheader.currentRevision ▸ hbefore, hboth⟩
  | definitive message =>
    exfalso
    unfold afterSend at hend
    dsimp only at hend
    split at hend
    · obtain ⟨sent, -, -, hlive', -, hend⟩ :=
        statement_ends hlive (fun _ => sameHeader_completeCommand) hend
      obtain ⟨queued, -, -, hlive'', -, hend⟩ := statement_ends
        (v := { v with run := sent }) hlive' (fun _ => sameHeader_queueCommand) hend
      cases hlive''.symm.trans hend
    · obtain ⟨sent, -, -, hlive', -, hend⟩ :=
        statement_ends hlive (fun _ => sameHeader_setDeliveryOutcome) hend
      obtain ⟨final, -, -, hlive'', -, hend⟩ := statement_ends
        (v := { v with run := sent }) hlive' (fun _ => sameHeader_completeCommand) hend
      cases hlive''.symm.trans hend
  | ambiguous =>
    exfalso
    obtain ⟨sent, -, -, hlive', -, hend⟩ :=
      statement_ends hlive (fun _ => sameHeader_setDeliveryOutcome) hend
    obtain ⟨final, -, -, hlive'', -, hend⟩ := statement_ends
      (v := { v with run := sent }) hlive' (fun _ => sameHeader_completeCommand) hend
    cases hlive''.symm.trans hend

theorem runDeliverySend_ends
    (hend : (runDeliverySend key owner token send v).2.run.state.isTerminal = true) :
    ∃ S, v.run.DeliveryExit key send S ∧
      Leaves S false v (runDeliverySend key owner token send v).2 := by
  unfold runDeliverySend at hend ⊢
  split at hend
  · cases hlive.symm.trans hend
  rename_i delivery hdelivery
  split at hend
  · obtain ⟨final, -, -, hlive', -, hend⟩ :=
      statement_ends hlive (fun _ => sameHeader_completeCommand) hend
    cases hlive'.symm.trans hend
  rename_i hpending
  rw [if_neg hpending]
  split at hend
  · cases hlive.symm.trans hend
  rename_i attempts run' hrun'
  have hsame : v.run.SameHeader run' :=
    (writes_bumpDeliveryAttempts (Q := True) hrun').sameHeader
  have hlive' : run'.state.isTerminal = false := by
    rw [congrArg WorkflowRunRow.state hsame.row]
    exact hlive
  obtain ⟨hreceipt, S, rfl, hdecided, hleaves⟩ :=
    afterSend_ends (v := { v with run := run' }) hlive' hend
  have hbump := closes_bumpDeliveryAttempts hrun'
  have hagain : (ofDelivery key.nodeId).also ((ofDelivery key.nodeId).also (ofCommand key)) =
      (ofDelivery key.nodeId).also (ofCommand key) := by
    simp [also, ofDelivery, ofCommand, nothing]
  have hbefore := hdecided.before hbump
  have hboth := Leaves.trans (v := v) (m := { v with run := run' }) hbump hsame rfl
    hleaves
  rw [hagain] at hbefore hboth
  refine ⟨_, ⟨hreceipt, ?_, rfl, hsame.currentRevision ▸ hbefore⟩, hboth⟩
  rw [hdelivery]
  simpa using hpending

theorem claimed_send_ends
    (hclaim : v.run.claimCommand key owner v.minted now = some run')
    (hend : (runDeliverySend key owner token send
      { v with run := run', minted := v.minted + 1 }).2.run.state.isTerminal = true) :
    ∃ S, v.run.DeliveryExit key send S ∧ Leaves S false v
      (runDeliverySend key owner token send { v with run := run', minted := v.minted + 1 }).2 := by
  obtain ⟨-, hrun'⟩ := claimCommand_some hclaim
  have hsame : v.run.SameHeader run' := (writes_claimCommand (Q := True) hclaim).sameHeader
  have hlive' : run'.state.isTerminal = false := by
    rw [congrArg WorkflowRunRow.state hsame.row]
    exact hlive
  obtain ⟨S, hexit, hleaves⟩ := runDeliverySend_ends
    (v := { v with run := run', minted := v.minted + 1 }) hlive' hend
  have hboth := Leaves.trans (v := v)
    (m := { v with run := run', minted := v.minted + 1 }) (closes_claimCommand hclaim) hsame rfl
    hleaves
  have hnothing : nothing.also S = S := by simp [also, nothing]
  rw [hnothing] at hboth
  refine ⟨S, ?_, hboth⟩
  rw [hrun'] at hexit
  exact hexit

omit hlive in
/-- Only a deliver command may end the run when it is started. -/
theorem carries_state {c : WorkflowCommand} (haction : c.action ≠ .deliver) :
    Carries c owner token fun v v' => v'.run.state = v.run.state where
  refl _ := rfl
  trans h h' := h'.trans h
  complete h := congrArg WorkflowRunRow.state (sameHeader_completeCommand h).row
  release v := congrArg WorkflowRunRow.state
    (writes_releaseClaim (Q := True) _ _ _ v.run).sameHeader.row
  mark _ _ := rfl
  start h := by
    unfold startOperation at h
    split at h <;> rw [upsertOperation_rest h]
  sends hdeliver := absurd hdeliver haction

/-- A step that ends the run took an exit. -/
theorem ends_step (hend : (workflowStep host v op).run.state.isTerminal = true) :
    Ends (v.Exit host · op) (cancels op) v (workflowStep host v op) := by
  have hdoes := does_step host v op
  generalize workflowStep host v op = v' at hdoes hend ⊢
  cases hdoes with
  | nothing | workers => cases hlive.symm.trans hend
  | @transaction op f effect run' hop h =>
    have hne : ∀ {state}, effect.nextState = some state → effect.nextState ≠ none :=
      fun hnext => by simp [hnext]
    cases hop with
    | rejectPlan _ hfirst hproblems =>
      have hout := Except.ok.inj h
      refine transacted_ends hlive ?_ (fun state hnext hterminal => ?_) hend
      · rw [← (Prod.mk.inj hout).2]
        exact (writes_rejectPlanEffect (Q := True) _ v.run).sameHeader.row
      unfold rejectPlanEffect at hout
      split at hout
      · obtain ⟨rfl, -⟩ := Prod.mk.inj hout
        obtain rfl := Option.some.inj hnext
        cases hterminal
      · rename_i mid hmid
        obtain ⟨-, rfl⟩ := Prod.mk.inj hout
        obtain ⟨rfl, hspent⟩ := consumeBudget_false hmid
        exact ⟨nothing, ⟨hfirst, hspent, hproblems, rfl⟩, fun _ => .refl _⟩
    | admitPlan =>
      obtain ⟨_, -, hout⟩ := map_eq_ok.1 h
      cases hout
      cases hend
    | admitProposal =>
      rw [(admitProposalEffect_ok h).1] at hend
      cases hend
    | @rejectProposal report proposal opts _ _ hbase hproblems =>
      have hround : Ends (v.run.RoundExit opts.claim opts.opId) false v _ :=
        transacted_ends hlive (sameRow_rejectPlanRoundEffect h).row
          (fun state hnext hterminal => rejectPlanRoundEffect_ends h fun hplanning => by
            obtain rfl := Option.some.inj (hplanning.symm.trans hnext)
            cases hterminal) hend
      exact hround.imp fun _ hexit => ⟨hbase, hproblems, hexit⟩
    | rejectRound =>
      refine transacted_ends hlive (sameRow_rejectPlanRoundEffect h).row
        (fun state hnext hterminal => rejectPlanRoundEffect_ends h fun hplanning => ?_) hend
      obtain rfl := Option.some.inj (hplanning.symm.trans hnext)
      cases hterminal
    | succeed | succeedStored =>
      exact transacted_ends hlive (writes_attemptSucceededEffect False.elim h).sameHeader.row
        (fun _ hnext _ => attemptSucceededEffect_ends h (hne hnext)) hend
    | fail | failStored =>
      exact transacted_ends hlive (writes_attemptFailedEffect False.elim h).sameHeader.row
        (fun _ hnext _ => attemptFailedEffect_ends h (hne hnext)) hend
    | @verdict nodeId verdict claim home _ _ hhome =>
      obtain ⟨n, hn, -, hopen⟩ := locateReviewNode_some hhome
      have hreview : v.run.openNode (home, nodeId) = true := by
        have hget : v.run.nodes.get (home, nodeId) = some n := hn
        rw [openNode, hget]
        exact hopen
      exact (transacted_ends hlive (sameRow_verdictEffect h).row
        (fun _ hnext _ => verdictEffect_ends hreview h (hne hnext)) hend).imp
          fun S hexit => ⟨home, hhome, hexit⟩
    | refuse =>
      exact transacted_ends hlive (writes_breakerRefusedEffect False.elim h).sameHeader.row
        (fun _ hnext _ => breakerRefusedEffect_ends h (hne hnext)) hend
    | refuseDispatch c _ hc hrefused =>
      refine (transacted_ends hlive (writes_breakerRefusedEffect False.elim h).sameHeader.row
        (fun _ hnext _ => breakerRefusedEffect_ends h (hne hnext)) hend).imp
          fun S hexit => ⟨c, hc, ?_⟩
      rw [if_pos hrefused]
      exact hexit
    | handoff =>
      refine transacted_ends hlive (writes_shaHandoffEffect False.elim h).sameHeader.row
        (fun state hnext _ => ?_) hend
      exfalso
      unfold shaHandoffEffect at h
      split at h
      · cases h
        cases hnext
      dsimp only at h
      split at h
      · cases h
      · cases h
        split at hnext <;> cases hnext
    | inspect =>
      exact transacted_ends hlive (writes_claimExpiredEffect False.elim h).sameHeader.row
        (fun _ hnext _ => claimExpiredEffect_ends h (hne hnext)) hend
    | inspectToken c hc =>
      exact (transacted_ends hlive (writes_claimExpiredEffect False.elim h).sameHeader.row
        (fun _ hnext _ => claimExpiredEffect_ends h (hne hnext)) hend).imp
          fun S hexit => ⟨c, hc, hexit⟩
  | cancel => exact ⟨_, rfl, fun _ => ⟨(closes_cancelWork v.run).bump _, rfl, rfl⟩⟩
  | fail => exact ⟨nothing, rfl, fun _ => ⟨closes_bump _ v.run, rfl, rfl⟩⟩
  | interrupt => exact ⟨_, rfl, fun _ => ⟨(closes_cancelRun rfl v.run).bump _, rfl, rfl⟩⟩
  | failJob _ hop h =>
    obtain ⟨howned, hleaves⟩ := failModelJobEffect_leaves h
    rcases hop with rfl | ⟨_, _, _, _, _, c, rfl, hc, hclaimed, hgen, hgone⟩
    · exact ⟨everything, ⟨howned, rfl⟩, fun _ => hleaves⟩
    · exact ⟨everything, ⟨hgone, rfl, c, hc, hclaimed, hgen⟩, fun _ => hleaves⟩
  | note => cases hlive.symm.trans hend
  | ask _ h =>
    obtain ⟨_, -, h⟩ := ok_of_match h
    cases h
    cases hend
  | answer _ _ hrun =>
    rcases hrun with rfl | ⟨effect, mid, -, h, rfl⟩
    · cases hlive.symm.trans hend
    · obtain ⟨_, -, hout⟩ := map_eq_ok.1 h
      cases hout
      cases hend
  | bind h =>
    have hrow := (writes_bindNodeWorker (Q := True) h).sameHeader.row
    cases hlive.symm.trans (congrArg WorkflowRunRow.state hrow ▸ hend)
  | complete h =>
    cases hlive.symm.trans
      (congrArg WorkflowRunRow.state (sameHeader_completeCommand h).row ▸ hend)
  | deliver c _ hfound hclaim =>
    obtain ⟨S, hexit, hleaves⟩ := claimed_send_ends hlive hclaim hend
    exact ⟨S, ⟨c, hfound, hexit⟩, fun _ => hleaves⟩
  | @drain now refused owner answer send run' c hc hrefused hclaim =>
    obtain ⟨⟨c', hc', hpending⟩, -⟩ := claimCommand_some hclaim
    obtain rfl := Option.some.inj (hc.symm.trans hc')
    by_cases haction : c.action = .deliver
    · have hstart : startCommand c owner answer send v.minted =
          runDeliverySend c.toCommandKey owner v.minted send := by
        funext w
        unfold startCommand
        rw [haction]
      rw [hstart] at hend ⊢
      obtain ⟨S, hexit, hleaves⟩ := claimed_send_ends hlive hclaim hend
      refine ⟨S, ⟨c, hc, ?_⟩, fun _ => hleaves⟩
      rw [if_neg hrefused]
      exact ⟨hpending, haction, hexit⟩
    · have hstate := (carries_state haction : Carries c owner v.minted _).startCommand answer send
        { v with run := run', minted := v.minted + 1 }
      have hsame : v.run.SameHeader run' := (writes_claimCommand (Q := True) hclaim).sameHeader
      rw [hstate, congrArg WorkflowRunRow.state hsame.row] at hend
      cases hlive.symm.trans hend

end Operations

section Ended

variable {revision : Nat} {nodeId : NodeId}

variable (hq : v.Quiescent) (hended : v.run.state.isTerminal = true)
include hq hended

omit hq in
theorem whenLive_ended {f : RunView → Except WorkflowError Unit × RunView} :
    whenLive f v = (.error (.runTerminal v.run.state), v) := by
  rw [whenLive, if_pos hended]

omit hended in
theorem not_open_of_quiescent {n : NodeRow} : v.run.requireNode revision nodeId ≠ .ok n := by
  intro h
  obtain ⟨hn, hopen⟩ := requireNode_ok h
  cases (hq.nodes n (Table.mem_of_get hn)).symm.trans hopen

omit hended in
theorem attemptSucceededEffect_quiet {db : Db}
    {attemptId artifactsJson : String} (out : TransitionEffect × WorkflowRun) :
    v.run.attemptSucceededEffect host.envelopeJson db revision nodeId attemptId artifactsJson ≠
      .ok out := by
  unfold attemptSucceededEffect
  split
  · exact fun h => by cases h
  · rename_i n hn
    exact absurd hn (not_open_of_quiescent hq)

omit hended in
theorem attemptFailedEffect_quiet {attemptId cause : String}
    {retrySafe : Bool} (out : TransitionEffect × WorkflowRun) :
    v.run.attemptFailedEffect revision nodeId attemptId cause retrySafe ≠ .ok out := by
  unfold attemptFailedEffect
  split
  · exact fun h => by cases h
  · rename_i n hn
    exact absurd hn (not_open_of_quiescent hq)

theorem drainCommand_quiet {now : Millis} {key : CommandKey} {refused : Bool} {owner : String}
    {answer : PortOutcome} {send : DeliverySend} :
    (drainCommand now key refused owner answer send v).2 = v := by
  unfold drainCommand
  split
  · rfl
  rename_i c hc
  split
  · unfold submitBreakerRefused
    rw [whenLive_ended hended]
  have hclosed := hq.commands c (Table.mem_of_get hc)
  have hlost : v.run.claimCommand key owner v.minted now = none := by
    unfold claimCommand
    rw [hc]
    dsimp only
    rw [if_neg (by rintro hpending; rw [hpending] at hclosed; cases hclosed)]
  unfold claiming
  rw [hlost]

structure Rests (v v' : RunView) : Prop where
  state : v'.run.state = v.run.state
  quiescent : v'.Quiescent

theorem rests_step : Rests v (workflowStep host v op) := by
  have hdoes := does_step host v op
  generalize workflowStep host v op = v' at hdoes ⊢
  have hdead : ¬ v.Live := fun hlive => by cases hlive.symm.trans hended
  cases hdoes with
  | nothing => exact ⟨rfl, hq⟩
  | @transaction op f effect run' hop h =>
    cases hop with
    | succeedStored => exact absurd h (attemptSucceededEffect_quiet hq _)
    | failStored => exact absurd h (attemptFailedEffect_quiet hq _)
    | inspectToken c hc =>
      rcases claimExpiredEffect_cases h with ⟨rfl, rfl⟩ | ⟨c', _, _, hc', -, hclaimed, -, -⟩
      · exact ⟨rfl, hq.nodes, hq.commands, hq.operations, hq.inputs⟩
      · have hclosed := hq.commands c' (Table.mem_of_get hc')
        rw [hclaimed] at hclosed
        cases hclosed
    | rejectPlan hlive | admitPlan hlive | rejectProposal hlive | admitProposal hlive
    | rejectRound hlive | succeed hlive | fail hlive | verdict hlive | refuse hlive
    | refuseDispatch _ hlive | handoff hlive | inspect hlive => exact absurd hlive hdead
  | cancel hlive | fail hlive | interrupt hlive | failJob hlive | note _ _ _ _ _ hlive
  | ask hlive | deliver _ hlive => exact absurd hlive hdead
  | answer q hfound =>
    obtain ⟨hget, hpending⟩ := Option.filter_eq_some_iff.1 hfound
    simp only [decide_eq_true_eq] at hpending
    exact absurd hpending.1 (hq.inputs q (Table.mem_of_get hget) hpending.2)
  | @bind revision nodeId cardId attemptId run' h =>
    unfold WorkflowRun.bindNodeWorker at h
    split at h
    · cases h
    cases h
    refine ⟨rfl, fun n hn => ?_, hq.commands, hq.operations, hq.inputs⟩
    change n ∈ v.run.nodes.modify (revision, nodeId) (NodeRow.bind cardId attemptId) at hn
    obtain ⟨hmem, -⟩ | ⟨m, hm, rfl⟩ := Table.mem_modify.1 hn
    · exact hq.nodes n hmem
    · exact hq.nodes m (Table.mem_of_get hm)
  | complete h =>
    obtain ⟨⟨c, hc, hheld⟩, -⟩ := completeCommand_ok h
    have hclosed := hq.commands c (Table.mem_of_get hc)
    simp only [WorkflowCommand.heldBy, decide_eq_true_eq] at hheld
    rw [hheld.1] at hclosed
    cases hclosed
  | workers db => exact ⟨rfl, hq.nodes, hq.commands, hq.operations, hq.inputs⟩
  | drain c hc _ hclaim =>
    obtain ⟨⟨c', hc', hpending⟩, -⟩ := claimCommand_some hclaim
    have hclosed := hq.commands c' (Table.mem_of_get hc')
    rw [hpending] at hclosed
    cases hclosed

end Ended

theorem rests_run (hq : v.Quiescent) (hended : v.run.state.isTerminal = true)
    (ops : List WorkflowOp) : Rests v (runFrom (workflowStep host) v ops) := by
  induction ops generalizing v with
  | nil => exact ⟨rfl, hq⟩
  | cons op ops ih =>
    have hstep : Rests v (workflowStep host v op) := rests_step hq hended
    have hrest := ih hstep.quiescent (by rw [hstep.state]; exact hended)
    exact ⟨hrest.state.trans hstep.state, hrest.quiescent⟩

/-- When every operation that ends the live run closes with it what is open then: the ended run
has no open work, its state never changes again, and no drain starts a command of it. -/
theorem ended_runs_quiescent (host : RunnerHost) (v : RunView) (ops : List WorkflowOp)
    (hlive : v.run.state.isTerminal = false)
    (hsettled : StepsMeet (workflowStep host) (fun v op => v.EndsSettled host op) v ops)
    (hended : (runFrom (workflowStep host) v ops).run.state.isTerminal = true) :
    (runFrom (workflowStep host) v ops).Quiescent ∧ ∀ more : List WorkflowOp,
      (runFrom (workflowStep host) v (ops ++ more)).run.state =
        (runFrom (workflowStep host) v ops).run.state ∧
      (runFrom (workflowStep host) v (ops ++ more)).Quiescent ∧
      ∀ now key refused owner answer send, workflowStep host
        (runFrom (workflowStep host) v (ops ++ more))
          (.drainCommand now key refused owner answer send) =
            runFrom (workflowStep host) v (ops ++ more) := by
  have hquiet : ∀ v op, (v.run.state.isTerminal = true → Quiescent v) → v.EndsSettled host op →
      ((workflowStep host v op).run.state.isTerminal = true →
        (workflowStep host v op).Quiescent) := by
    intro v op hv hsettled hend
    cases hstate : v.run.state.isTerminal with
    | true => exact (rests_step (hv hstate) hstate).quiescent
    | false =>
      obtain ⟨S, hexit, hleaves⟩ := ends_step hstate hend
      have hcovers := hsettled hstate S hexit
      exact hcovers.quiescent (hleaves hcovers)
  have hq : (runFrom (workflowStep host) v ops).Quiescent :=
    invariant_of_stepsMeet (I := fun v => v.run.state.isTerminal = true → Quiescent v) hquiet ops v
      (fun h => by cases hlive.symm.trans h) hsettled hended
  refine ⟨hq, fun more => ?_⟩
  rw [runFrom_append]
  have hrest : Rests _ (runFrom (workflowStep host) _ more) := rests_run hq hended more
  refine ⟨hrest.state, hrest.quiescent, fun now key refused owner answer send => ?_⟩
  exact drainCommand_quiet hrest.quiescent (by rw [hrest.state]; exact hended)

/-! ### Runs that end with work left -/

def quietHost : RunnerHost := ⟨["general"], fun _ => ""⟩

def admittedView (queue : Bool) : RunView where
  run :=
    let run := WorkflowRun.admitted "run" .interactive 1 none "operation" ⟨1, 2, 2, 1⟩ 0
    if queue then (run.queueInitialPlanning.toOption).getD run else run
  inputs := ∅
  db := Db.empty
  minted := 0

theorem admittedView_starts (queue : Bool) : (admittedView queue).run.Starts ⟨1, 2, 2, 1⟩ := by
  refine ⟨"run", .interactive, 1, none, "operation", 0, _, rfl, ?_⟩
  cases queue with
  | false => exact .inl rfl
  | true => exact .inr rfl

def planningKey : CommandKey := ⟨1, .initialPlan, .plan, 0⟩

def reviewedPlan : PlanProposal where
  nodes := [⟨"work", .work, "do it", "general", ["out"], ["done"], [], false⟩,
    ⟨"review", .review, "judge it", "general", [], [], [], false⟩]
  requiredOutputs := ["out"]
  allowPartial := false

/-- A failed run leaves its planning command pending and its operation open, and a drain starts
it; and the stored success of a node left open turns a failed run into a succeeded one. -/
theorem failRun_leaves_planning :
    (∀ queue, (admittedView queue).run.Starts ⟨1, 2, 2, 1⟩) ∧
    (let failed := workflowStep quietHost (admittedView true) (.failRun "code" "reason")
      let drained := workflowStep quietHost failed
        (.drainCommand 0 planningKey false "planner" .started .ambiguous)
      failed.run.state = .failed ∧
        (failed.run.commands.get planningKey).map (·.status) = some .pending ∧
        (failed.run.operations.get .initialPlan).map (·.status) = some .pending ∧
        (drained.run.commands.get planningKey).map (·.status) = some .claimed ∧
        (drained.run.operations.get .initialPlan).map (·.status) = some .running) ∧
    let failed := runFrom (workflowStep quietHost) (admittedView false)
      [.acceptPlan .none reviewedPlan, .submitVerdict (.planned 1 1) .accept none,
        .executeDelivery 0 (.planned 1 1) (.receipt "sent"), .failRun "code" "reason"]
    failed.run.state = .failed ∧ (workflowStep quietHost failed
      (.storedAttemptSucceeded 1 (.planned 1 0) "attempt" "")).run.state = .succeeded := by
  refine ⟨admittedView_starts, ?_⟩
  decide +kernel

theorem ended_runs_quiescent_interrupted :
    (runFrom (workflowStep quietHost) (admittedView true) [.interruptRun]).Quiescent := by
  refine (ended_runs_quiescent quietHost (admittedView true) [.interruptRun] rfl ⟨?_, trivial⟩
    (by decide +kernel)).1
  rintro - S rfl
  exact ⟨fun _ _ _ => trivial, fun _ _ _ => trivial, fun _ _ _ => trivial,
    fun q hq => absurd hq (Table.not_mem_empty q)⟩

end RunView

end Abtars
