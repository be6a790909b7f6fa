import Abtars.Workflow.Statements
import Abtars.Workflow.Steps

/-!
# The statements of an operation

An operation of the runner is a sequence of statements on the view: those on the rows of the run,
a claim, which mints a token, and those on the input requests and the database.
-/

namespace Abtars

open Lib

namespace RunView

open WorkflowRun

variable {run run' : WorkflowRun}

/-- A statement on the view, from a set of statements on the run; a question is asked only where
`asks` holds. -/
inductive Makes (A : RunStatement → Prop) (asks : Prop) : RunView → RunView → Prop
  | row {v : RunView} {run' : WorkflowRun} {w : RunStatement} (hA : A w)
      (h : Executes w v.run run') : Makes A asks v { v with run := run' }
  | claim {v : RunView} {run' : WorkflowRun} {key : CommandKey} {owner : String} {now : Millis}
      (hA : A (.claim key)) (h : v.run.claimCommand key owner v.minted now = some run') :
      Makes A asks v { v with run := run', minted := v.minted + 1 }
  | expire (v : RunView) : Makes A asks v { v with
      inputs := v.inputs.updateWhere
        (fun q => q.projectCardId = v.run.rootCardId ∧ q.status = .pending) InputRequest.expire }
  | workers (v : RunView) (db : Db) : Makes A asks v { v with db }
  | ask (v : RunView) (q : InputRequest) (hasks : asks) (hid : q.id = v.minted) :
      Makes A asks v { v with inputs := v.inputs.put q, minted := v.minted + 1 }
  | answer (v : RunView) (inputId : Nat) (response : String) :
      Makes A asks v { v with inputs := v.inputs.modify inputId (InputRequest.answer response) }

def Trace (A : RunStatement → Prop) (asks : Prop) : RunView → RunView → Prop :=
  Relation.ReflTransGen (Makes A asks)

variable {A B : RunStatement → Prop} {asks : Prop} {host : RunnerHost} {v v' : RunView}

namespace Trace

theorem refl (v : RunView) : Trace A asks v v := Relation.ReflTransGen.refl

theorem trans {a b c : RunView} (h : Trace A asks a b) (h' : Trace A asks b c) :
    Trace A asks a c := Relation.ReflTransGen.trans h h'

theorem single (h : Makes A asks v v') : Trace A asks v v' := Relation.ReflTransGen.single h

theorem mono (h : Trace A asks v v') (hAB : ∀ w, A w → B w) : Trace B asks v v' :=
  h.lift id fun _ _ hmakes => by
    cases hmakes with
    | row hA hexec => exact .row (hAB _ hA) hexec
    | claim hA hclaim => exact .claim (hAB _ hA) hclaim
    | expire => exact .expire _
    | workers db => exact .workers _ db
    | ask q hasks hid => exact .ask _ q hasks hid
    | answer inputId response => exact .answer _ inputId response

theorem keeps {P : RunView → Prop} (hstep : ∀ a b, Makes A asks a b → P a → P b)
    (h : Trace A asks v v') (hP : P v) : P v' := by
  induction h with
  | refl => exact hP
  | tail _ hlast ih => exact hstep _ _ hlast ih

end Trace

theorem trace_of_script {run' : WorkflowRun} (h : Script A v.run run') :
    Trace A asks v { v with run := run' } := by
  induction h with
  | refl => exact .refl v
  | tail _ hlast ih =>
    obtain ⟨w, hw, hexec⟩ := hlast
    exact ih.trans (.single (.row (v := { v with run := _ }) hw hexec))

theorem trace_rest {run' : WorkflowRun} (hA : A .rest) (hwork : v.run.SameWork run')
    (hcommands : run'.commands = v.run.commands) (hdeliveries : run'.deliveries = v.run.deliveries) :
    Trace A asks v { v with run := run' } :=
  .single (.row hA (.rest hwork hcommands hdeliveries))

/-! ## Parts of an operation -/

theorem trace_bump (hA : A .rest) (h : Trace A asks v v') (effect : TransitionEffect) :
    Trace A asks v { v' with run := v'.run.bump effect } :=
  h.trans (trace_rest hA ⟨rfl, rfl, keepsNodes_of_eq rfl⟩ rfl rfl)

variable {effect : TransitionEffect} {owner : String} {token : Nat}

theorem trace_transacted {run' : WorkflowRun} (hA : A .rest) (h : Script A v.run run') :
    Trace A asks v { v with run := run'.bump effect } :=
  trace_bump hA (trace_of_script h) effect

theorem script_complete {key : CommandKey} (hA : A (.complete key owner token))
    (h : run.completeCommand key owner token = .ok run') :
    Script A run run' := .single hA (.complete h)

theorem trace_cancelRun (claim : Option ClaimAuthority) (v : RunView) :
    Trace (·.Beside claim) asks v v.cancelRun := by
  have hbeside : RunStatement.cancelWork.Beside claim := trivial
  exact ((Trace.single (.row hbeside (.cancelWork v.run))).trans
    (.single (.expire { v with run := v.run.cancelWork }))).trans (.single (.workers _ _))

theorem trace_cancelRun_close (claim : Option ClaimAuthority) (status : OperationStatus)
    (v : RunView) : Trace (·.Beside claim) asks v (v.cancelRun.closeOperations status) :=
  (trace_cancelRun claim v).trans
    (trace_of_script (script_closeOpenOperations status v.cancelRun.run))

theorem trace_failModelJobEffect {claim : ClaimAuthority} {reason : String}
    (h : failModelJobEffect claim reason v = .ok (effect, v')) :
    Trace (·.Beside none) asks v v' := by
  unfold failModelJobEffect at h
  split at h
  · cases h
  obtain ⟨failed, hfailed, h⟩ := ok_of_match h
  have hfail : Script (·.Beside none) v.run failed := by
    split at hfailed
    · exact script_closeNode hfailed rfl
    · cases hfailed
      exact .refl v.run
  obtain ⟨closed, hclosed, h⟩ := ok_of_match h
  cases h
  exact (trace_of_script (hfail.trans (script_upsertOperation hclosed))).trans
    (trace_cancelRun_close none .failed { v with run := closed })

/-- The statements of an acceptance: besides those of every verdict, an obligation and the command
that sends it. -/
theorem script_acceptedVerdictEffect {home judged : Nat} {nodeId : NodeId}
    {claim : Option ClaimAuthority}
    (h : run.acceptedVerdictEffect home judged nodeId claim = .ok (effect, run')) :
    Script (fun _ => True) run run' := by
  obtain ⟨settled, queued, hsettled, -, hqueued, hfinal⟩ := acceptedVerdictEffect_ok h
  refine (hsettled.mono fun _ _ => trivial).trans (.trans ?_
    ((script_settleClaim hfinal).mono fun _ _ => trivial))
  exact (Script.single trivial (.oblige settled nodeId judged)).trans
    (.single trivial (.queue hqueued))

theorem boundVerdict_eq_accept {verdict : ReviewVerdict}
    (h : boundVerdict verdict = .accept) : verdict = .accept := by
  cases verdict <;> first | rfl | cases h

/-! ## Claimed commands -/

theorem sends_trace {key : CommandKey} (hA : ∀ w, A w) :
    Sends key owner token (Trace A asks) where
  refl := .refl
  trans := .trans
  complete h := trace_of_script (script_complete (hA _) h)
  bump h := .single (.row (hA _) (.send h))
  outcome h := .single (.row (hA _) (.outcome h))
  retry h := .single (.row (hA _) (.queue h))
  settle v _ := trace_bump (hA _) (.refl v) _

def Drains (key : CommandKey) (w : RunStatement) : Prop :=
  w.Beside none ∨ ∃ owner token, w = .complete key owner token ∨ w = .release key owner token

theorem script_startOperation {c : WorkflowCommand} {claim : Option ClaimAuthority}
    (h : startOperation c run = .ok run') : Script (·.Beside claim) run run' := by
  unfold startOperation at h
  split at h <;> exact script_upsertOperation h

theorem carries_trace {c : WorkflowCommand} :
    Carries c owner token
      (Trace (fun w => c.action = .deliver ∨ Drains c.toCommandKey w) asks) where
  refl := .refl
  trans := .trans
  complete h := trace_of_script (script_complete (.inr (.inr ⟨owner, token, .inl rfl⟩)) h)
  release v := by
    have hdrains : Drains c.toCommandKey (.release c.toCommandKey owner token) :=
      .inr ⟨owner, token, .inr rfl⟩
    exact .single (.row (.inr hdrains) (.release v.run _ owner token))
  mark v revision := trace_of_script
    ((script_markNodeRunning revision c.nodeId v.run).mono fun _ hw => .inr (.inl hw))
  start h := trace_of_script ((script_startOperation h).mono fun _ hw => .inr (.inl hw))
  sends haction := sends_trace fun _ => .inl haction

/-! ## Every operation -/

def allowed (v : RunView) : WorkflowOp → RunStatement → Prop
  | .submitPlanProposal _ _ opts, w => w.Beside opts.claim
  | .submitVerdict _ verdict claim, w => verdict = .accept ∨ w.Beside claim
  | .executeDelivery _ _ _, _ => True
  | .inspectClaim _ key gen, w => w.Inspects key gen
  | .submitClaimInspection _ token gen, w =>
    ∃ c, v.run.findCommandByToken token = some c ∧ w.Inspects c.toCommandKey gen
  | .drainCommand _ key _ _ _ _, w => key.action = .deliver ∨ Drains key w
  | .completeCommand key owner token, w => w = .complete key owner token
  | _, w => w.Beside none

def asksInput : WorkflowOp → Prop
  | .requestInput _ _ _ => True
  | _ => False

/-- **An operation makes the statements it is allowed, and no others.** -/
theorem trace_does {op : WorkflowOp} (hdoes : Does host v op v') :
    Trace (v.allowed op) (asksInput op) v v' := by
  cases hdoes with
  | nothing => exact .refl v
  | @transaction op f effect run' hop h =>
    cases hop with
    | rejectPlan =>
      obtain rfl : _ = run' := congrArg Prod.snd (Except.ok.inj h)
      exact trace_transacted trivial (script_rejectPlanEffect _ v.run)
    | admitPlan =>
      obtain ⟨grown, hgrown, hout⟩ := map_eq_ok.1 h
      cases hout
      exact trace_transacted trivial (script_admitRevision hgrown)
    | rejectProposal | rejectRound =>
      exact trace_transacted trivial (script_rejectPlanRoundEffect h)
    | admitProposal => exact trace_transacted trivial (script_admitProposalEffect h)
    | succeed | succeedStored => exact trace_transacted trivial (script_attemptSucceededEffect h)
    | fail | failStored => exact trace_transacted trivial (script_attemptFailedEffect h)
    | @verdict nodeId verdict claim =>
      refine trace_transacted (.inr trivial) ?_
      rcases verdictEffect_cases h with hbeside | ⟨haccept, haccepted⟩
      · exact hbeside.mono fun _ => .inr
      · exact (script_acceptedVerdictEffect haccepted).mono fun _ _ =>
          .inl (boundVerdict_eq_accept haccept)
    | refuse => exact trace_transacted trivial (script_breakerRefusedEffect h)
    | refuseDispatch =>
      exact trace_transacted (.inr (.inl trivial))
        ((script_breakerRefusedEffect h).mono fun _ hw => .inr (.inl hw))
    | handoff => exact trace_transacted trivial (script_shaHandoffEffect h)
    | inspect => exact trace_transacted (.inl trivial) (script_claimExpiredEffect h)
    | inspectToken c hc =>
      exact trace_transacted ⟨c, hc, .inl trivial⟩
        ((script_claimExpiredEffect h).mono fun _ hw => ⟨c, hc, hw⟩)
  | cancel => exact trace_bump trivial (trace_cancelRun none v) _
  | fail => exact trace_bump trivial (.refl v) _
  | interrupt => exact trace_bump trivial (trace_cancelRun_close none .cancelled v) _
  | @failJob op claim reason effect v' _ hop h =>
    have htrace : ∀ asks, Trace _ asks v _ := fun asks =>
      trace_bump trivial (trace_failModelJobEffect h) effect
    rcases hop with rfl | ⟨now, token, gen, disposition, activeWithin, c, rfl, -⟩
    · exact htrace _
    · exact htrace _
  | note c next hc hclaimed hgen =>
    have hget : v.run.commands.get c.toCommandKey = some c :=
      Table.get_key_of_mem (List.mem_of_find?_eq_some hc)
    subst hgen
    exact .single (.row (w := .inspect c.toCommandKey (c.inspectGen + 1)) trivial
      (.inspect c 0 _ hget hclaimed rfl))
  | ask _ h =>
    obtain ⟨queued, hqueued, h⟩ := ok_of_match h
    cases h
    exact trace_bump trivial ((trace_of_script (script_queueCommand hqueued (by simp))).trans
      (.single (.ask { v with run := queued } _ trivial rfl))) _
  | @answer inputId response _ _ _ hrun =>
    have hanswer : Trace (·.Beside none) False v _ :=
      .single (.answer v inputId (boundText response 2000))
    rcases hrun with rfl | ⟨effect, mid, -, h, rfl⟩
    · exact hanswer
    · obtain ⟨queued, hqueued, hout⟩ := map_eq_ok.1 h
      cases hout
      exact hanswer.trans (trace_transacted trivial (script_queueCommand hqueued (by simp)))
  | bind h => exact trace_of_script (script_bindNodeWorker h)
  | complete h => exact trace_of_script (script_complete rfl h)
  | workers db => exact .single (.workers v db)
  | deliver c _ _ hclaim =>
    exact (Trace.single (.claim trivial hclaim)).trans
      ((sends_trace fun _ => trivial).runDeliverySend _ _)
  | drain c _ _ hclaim =>
    refine (Trace.single (.claim ?_ hclaim)).trans (carries_trace.startCommand _ _ _)
    by_cases haction : c.action = .deliver
    · exact .inl haction
    · exact .inr (.inl haction)

theorem trace_step (host : RunnerHost) (v : RunView) (op : WorkflowOp) :
    Trace (v.allowed op) (asksInput op) v (workflowStep host v op) :=
  trace_does (does_step host v op)

end RunView

end Abtars
