import Abtars.Workflow.Runner

/-!
# What an operation does

An operation commits one transaction, makes one statement, or handles a command that it has
claimed; otherwise the view stays as it is.  What a step keeps is proved by these cases.
-/

namespace Abtars

open Lib

namespace RunView

open WorkflowRun

variable {v : RunView}

theorem committing_cases (apply : Applier) (v : RunView) :
    (∃ effect v', apply v = .ok (effect, v') ∧
      committing apply v = (.ok (), { v' with run := v'.run.bump effect })) ∨
    ∃ e, apply v = .error e ∧ committing apply v = (.error e, v) := by
  unfold committing transaction commit
  cases h : apply v with
  | error e => exact .inr ⟨e, rfl, rfl⟩
  | ok out => exact .inl ⟨out.1, out.2, rfl, rfl⟩

theorem onRun_ok {f : WorkflowRun → Except WorkflowError (TransitionEffect × WorkflowRun)}
    {effect : TransitionEffect} {v v' : RunView} (h : onRun f v = .ok (effect, v')) :
    ∃ run', f v.run = .ok (effect, run') ∧ v' = { v with run := run' } := by
  unfold onRun at h
  split at h
  · cases h
  · rename_i effect' run' hf
    cases h
    exact ⟨run', hf, rfl⟩

abbrev Live (v : RunView) : Prop := v.run.state.isTerminal = false

/-- The transactions of the operations on the rows of the run, with their guards. -/
inductive Transacts (host : RunnerHost) (v : RunView) : WorkflowOp →
    (WorkflowRun → Except WorkflowError (TransitionEffect × WorkflowRun)) → Prop
  | rejectPlan {report proposal} (hlive : v.Live) (hfirst : v.run.currentRevision = 0)
      (hproblems : v.run.validatePlanForRun host.capabilities report proposal ≠ []) :
      Transacts host v (.acceptPlan report proposal) fun run => .ok (run.rejectPlanEffect
        (diagnosticsText (v.run.validatePlanForRun host.capabilities report proposal)))
  | admitPlan {report proposal} (hlive : v.Live) (hfirst : v.run.currentRevision = 0) :
      Transacts host v (.acceptPlan report proposal) fun run =>
        (run.admitRevision run.generation proposal).map fun run => (.enter .dispatched, run)
  | rejectProposal {report proposal opts} (hlive : v.Live)
      (hheld : v.run.claimHeld opts.claim = .ok ())
      (hbase : opts.baseRevision.filter (· ≠ v.run.currentRevision) = none)
      (hproblems : v.run.validatePlanForRun host.capabilities report proposal ≠ []) :
      Transacts host v (.submitPlanProposal report proposal opts) fun run =>
        run.rejectPlanRoundEffect (diagnosticsText (v.run.validatePlanForRun host.capabilities
          report proposal)) opts.opId opts.planRound opts.claim
  | admitProposal {report proposal opts} (hlive : v.Live)
      (hheld : v.run.claimHeld opts.claim = .ok ())
      (hbase : opts.baseRevision.filter (· ≠ v.run.currentRevision) = none)
      (hvalid : v.run.validatePlanForRun host.capabilities report proposal = [])
      (hkept : droppedOutputs v.run proposal = []) :
      Transacts host v (.submitPlanProposal report proposal opts) fun run =>
        run.admitProposalEffect proposal opts
  | rejectRound {problems opId round claim} (hlive : v.Live) :
      Transacts host v (.rejectPlanRound problems opId round claim) fun run =>
        run.rejectPlanRoundEffect (diagnosticsText problems) opId round claim
  | succeed {nodeId attemptId artifactsJson} (hlive : v.Live) :
      Transacts host v (.attemptSucceeded nodeId attemptId artifactsJson) fun run =>
        run.attemptSucceededEffect host.envelopeJson v.db run.currentRevision nodeId attemptId
          artifactsJson
  | fail {nodeId attemptId cause retrySafe} (hlive : v.Live) :
      Transacts host v (.attemptFailed nodeId attemptId cause retrySafe) fun run =>
        run.attemptFailedEffect run.currentRevision nodeId attemptId (boundText cause 2000)
          retrySafe
  | succeedStored {revision nodeId attemptId artifactsJson} :
      Transacts host v (.storedAttemptSucceeded revision nodeId attemptId artifactsJson) fun run =>
        run.attemptSucceededEffect host.envelopeJson v.db revision nodeId attemptId artifactsJson
  | failStored {revision nodeId attemptId cause retrySafe} :
      Transacts host v (.storedAttemptFailed revision nodeId attemptId cause retrySafe) fun run =>
        run.attemptFailedEffect revision nodeId attemptId cause retrySafe
  | verdict {nodeId verdict claim home} (hlive : v.Live) (hheld : v.run.claimHeld claim = .ok ())
      (hhome : v.run.locateReviewNode nodeId = some home) :
      Transacts host v (.submitVerdict nodeId verdict claim) fun run =>
        run.verdictEffect home nodeId (boundVerdict verdict) claim
  | refuse {nodeId resource ordinal} (hlive : v.Live) :
      Transacts host v (.submitBreakerRefused nodeId resource ordinal) fun run =>
        run.breakerRefusedEffect nodeId (boundText resource 500) ordinal
  | refuseDispatch {now key refused owner answer send} (c : WorkflowCommand) (hlive : v.Live)
      (hc : v.run.commands.get key = some c) (hrefused : refused = true ∧ c.action = .dispatch) :
      Transacts host v (.drainCommand now key refused owner answer send) fun run =>
        run.breakerRefusedEffect c.nodeId (boundText "default" 500) c.ordinal
  | handoff {final} (hlive : v.Live) :
      Transacts host v (.acceptShaHandoff final) (shaHandoffEffect final)
  | inspect {now key expectedGen} (hlive : v.Live) :
      Transacts host v (.inspectClaim now key expectedGen) fun run =>
        run.claimExpiredEffect host.envelopeJson now v.db key expectedGen
  | inspectToken {now token gen} (c : WorkflowCommand)
      (hc : v.run.findCommandByToken token = some c) :
      Transacts host v (.submitClaimInspection now token gen) fun run =>
        run.claimExpiredEffect host.envelopeJson now v.db c.toCommandKey gen

/-- What an operation makes of the view. -/
inductive Does (host : RunnerHost) (v : RunView) : WorkflowOp → RunView → Prop
  | nothing (op : WorkflowOp) : Does host v op v
  | transaction {op f effect run'} (hop : Transacts host v op f)
      (h : f v.run = .ok (effect, run')) : Does host v op { v with run := run'.bump effect }
  | cancel {cause} (hlive : v.Live) : Does host v (.requestCancel cause)
      { v.cancelRun with run := v.cancelRun.run.bump { TransitionEffect.enter .cancelled with
        failureCode := some "cancelled", failureReason := some (boundText cause 2000) } }
  | fail {code reason} (hlive : v.Live) : Does host v (.failRun code reason)
      { v with run := v.run.bump (.fail code (boundText reason 2000)) }
  | interrupt (hlive : v.Live) : Does host v .interruptRun
      { v.cancelRun.closeOperations .cancelled with
        run := (v.cancelRun.closeOperations .cancelled).run.bump
          (.fail "observation_unknown" interruptedByRestart) }
  | failJob {op claim reason effect v'} (hlive : v.Live)
      (hop : op = .failModelJob claim reason ∨ ∃ now token gen disposition activeWithin, ∃ c,
        op = .submitModelJobInspection now token gen disposition activeWithin ∧
          v.run.findCommandByToken token = some c ∧ c.status = .claimed ∧
          c.inspectGen + 1 = gen ∧ disposition ≠ .active)
      (h : failModelJobEffect claim reason v = .ok (effect, v')) :
      Does host v op { v' with run := v'.run.bump effect }
  | note {now token gen activeWithin} (c : WorkflowCommand) (next : Millis)
      (hc : v.run.findCommandByToken token = some c) (hclaimed : c.status = .claimed)
      (hgen : c.inspectGen + 1 = gen) (hlive : v.Live) :
      Does host v (.submitModelJobInspection now token gen .active activeWithin)
        { v with run := v.run.noteInspectionAlive c.toCommandKey gen next }
  | ask {question criteria kind effect v'} (hlive : v.Live)
      (h : requestInputEffect (boundText question 2000) criteria kind v = .ok (effect, v')) :
      Does host v (.requestInput question criteria kind) { v' with run := v'.run.bump effect }
  | answer {inputId response run'} (q : InputRequest)
      (hq : (v.inputs.get inputId).filter (fun q => q.status = .pending ∧ q.runId = v.run.runId) =
        some q)
      (hrun : run' = v.run ∨ ∃ effect mid, v.Live ∧ inputAnsweredEffect v.run = .ok (effect, mid) ∧
        run' = mid.bump effect) :
      Does host v (.answerInput inputId response) { v with
        run := run'
        inputs := v.inputs.modify inputId (InputRequest.answer (boundText response 2000)) }
  | bind {revision nodeId cardId attemptId run'}
      (h : v.run.bindNodeWorker revision nodeId cardId attemptId = .ok run') :
      Does host v (.bindNodeWorker revision nodeId cardId attemptId) { v with run := run' }
  | complete {key owner token run'} (h : v.run.completeCommand key owner token = .ok run') :
      Does host v (.completeCommand key owner token) { v with run := run' }
  | workers (db : Db) : Does host v (.workers db) { v with db }
  | deliver {now nodeId send run'} (c : WorkflowCommand) (hlive : v.Live)
      (hfound : v.run.findPendingCommand nodeId .deliver = some c)
      (hclaim : v.run.claimCommand c.toCommandKey "delivery" v.minted now = some run') :
      Does host v (.executeDelivery now nodeId send) (runDeliverySend c.toCommandKey "delivery"
        v.minted send { v with run := run', minted := v.minted + 1 }).2
  | drain {now refused owner answer send run'} (c : WorkflowCommand)
      (hc : v.run.commands.get c.toCommandKey = some c)
      (hrefused : ¬ (refused = true ∧ c.action = .dispatch))
      (hclaim : v.run.claimCommand c.toCommandKey owner v.minted now = some run') :
      Does host v (.drainCommand now c.toCommandKey refused owner answer send)
        (startCommand c owner answer send v.minted
          { v with run := run', minted := v.minted + 1 }).2

section Does

variable {host : RunnerHost} {op : WorkflowOp}

theorem does_committing {apply : Applier} (h : ∀ effect v', apply v = .ok (effect, v') →
      Does host v op { v' with run := v'.run.bump effect }) :
    Does host v op (committing apply v).2 := by
  rcases committing_cases apply v with ⟨effect, v', happly, heq⟩ | ⟨e, -, heq⟩
  · rw [heq]
    exact h effect v' happly
  · rw [heq]
    exact .nothing op

theorem does_onRun {f : WorkflowRun → Except WorkflowError (TransitionEffect × WorkflowRun)}
    (hop : Transacts host v op f) : Does host v op (committing (onRun f) v).2 :=
  does_committing fun effect v' hf => by
    obtain ⟨run', hrun', rfl⟩ := onRun_ok hf
    exact .transaction hop hrun'

theorem does_whenLive {f : RunView → Except WorkflowError Unit × RunView}
    (h : v.Live → Does host v op (f v).2) : Does host v op (whenLive f v).2 := by
  unfold whenLive
  split
  · exact .nothing op
  · rename_i hlive
    exact h (Bool.eq_false_iff.2 hlive)

theorem does_guarded {check : Except WorkflowError Unit}
    {f : RunView → Except WorkflowError Unit × RunView}
    (h : check = .ok () → Does host v op (f v).2) : Does host v op (guarded check f v).2 := by
  unfold guarded
  split
  · exact .nothing op
  · exact h rfl

theorem does_statement {write : WorkflowRun → Except WorkflowError WorkflowRun}
    (h : ∀ run', write v.run = .ok run' → Does host v op { v with run := run' }) :
    Does host v op (statement write done v).2 := by
  unfold statement
  split
  · exact .nothing op
  · rename_i run' hrun'
    exact h run' hrun'

theorem does_acceptPlan (report : ReportConstraint) (proposal : PlanProposal) :
    Does host v (.acceptPlan report proposal) (acceptPlan host report proposal v).2 := by
  refine does_whenLive fun hlive => ?_
  dsimp only
  split
  · exact .nothing _
  rename_i hfirst
  split
  · rename_i hproblems
    have hreject := does_onRun (.rejectPlan hlive (not_not.1 hfirst) hproblems)
    split <;> rename_i hout <;> rw [hout] at hreject <;> exact hreject
  · exact does_onRun (.admitPlan hlive (not_not.1 hfirst))

theorem does_submitPlanProposal (report : ReportConstraint) (proposal : PlanProposal)
    (opts : ProposalOpts) : Does host v (.submitPlanProposal report proposal opts)
      (submitPlanProposal host report proposal opts v).2 := by
  refine does_whenLive fun hlive => does_guarded fun hheld => ?_
  dsimp only
  split
  · exact .nothing _
  rename_i hbase
  split
  · rename_i hproblems
    have hreject : Does host v (.submitPlanProposal report proposal opts) (rejectPlanRound
        (v.run.validatePlanForRun host.capabilities report proposal) opts.opId opts.planRound
        opts.claim v).2 :=
      does_whenLive fun _ => does_onRun (.rejectProposal hlive hheld hbase hproblems)
    split <;> rename_i hout <;> rw [hout] at hreject <;> exact hreject
  · rename_i hvalid
    split
    · exact .nothing _
    · rename_i hkept
      exact does_onRun
        (.admitProposal hlive hheld hbase (not_not.1 hvalid) (not_not.1 hkept))

theorem does_submitModelJobInspection (now : Millis) (token gen : Nat)
    (disposition : JobDisposition) (activeWithin : Option Millis) :
    Does host v (.submitModelJobInspection now token gen disposition activeWithin)
      (submitModelJobInspection now token gen disposition activeWithin v).2 := by
  unfold submitModelJobInspection
  split
  · exact .nothing _
  rename_i hlive
  split
  · exact .nothing _
  rename_i c hc
  split
  · exact .nothing _
  rename_i owner howner
  split
  · exact .nothing _
  rename_i hguard
  obtain ⟨hclaimed, hgen⟩ := (not_or.1 hguard).imp not_not.1 not_not.1
  have hfail : ∀ reason, disposition ≠ .active → Does host v
      (.submitModelJobInspection now token gen disposition activeWithin)
      (failModelJob ⟨c.toCommandKey, owner, token⟩ reason v).2 := fun reason hgone =>
    does_whenLive fun hlive => does_committing fun _ _ h => .failJob hlive
      (.inr ⟨now, token, gen, disposition, activeWithin, c, rfl, hc, hclaimed, hgen,
        hgone⟩) h
  split
  · exact .note c _ hc hclaimed hgen (Bool.eq_false_iff.2 hlive)
  · exact hfail _ (by decide)
  · exact hfail _ (by decide)

/-- **Every step is one of the deeds of its operation.** -/
theorem does_step (host : RunnerHost) (v : RunView) (op : WorkflowOp) :
    Does host v op (workflowStep host v op) := by
  cases op with
  | acceptPlan report proposal => exact does_acceptPlan report proposal
  | submitPlanProposal report proposal opts => exact does_submitPlanProposal report proposal opts
  | rejectPlanRound => exact does_whenLive fun hlive => does_onRun (.rejectRound hlive)
  | attemptSucceeded => exact does_whenLive fun hlive => does_onRun (.succeed hlive)
  | attemptFailed => exact does_whenLive fun hlive => does_onRun (.fail hlive)
  | storedAttemptSucceeded => exact does_onRun .succeedStored
  | storedAttemptFailed => exact does_onRun .failStored
  | submitVerdict nodeId verdict claim =>
    refine does_whenLive fun hlive => does_guarded fun hheld => ?_
    split
    · exact .nothing _
    · rename_i home hhome
      exact does_onRun (.verdict hlive hheld hhome)
  | submitBreakerRefused => exact does_whenLive fun hlive => does_onRun (.refuse hlive)
  | acceptShaHandoff => exact does_whenLive fun hlive => does_onRun (.handoff hlive)
  | requestCancel cause =>
    show Does host v _ (requestCancel cause v).2
    unfold requestCancel
    split
    · exact .nothing _
    · rename_i hlive
      exact .cancel (Bool.eq_false_iff.2 hlive)
  | failRun => exact does_whenLive fun hlive => .fail hlive
  | interruptRun =>
    show Does host v _ (interruptRun v).2
    unfold interruptRun
    split
    · exact .nothing _
    · rename_i hlive
      exact .interrupt (Bool.eq_false_iff.2 hlive)
  | failModelJob =>
    exact does_whenLive fun hlive => does_committing fun _ _ h => .failJob hlive (.inl rfl) h
  | requestInput =>
    refine does_whenLive fun hlive => ?_
    split
    · exact .nothing _
    · exact does_committing fun _ _ h => .ask hlive h
  | answerInput inputId response =>
    show Does host v _ (answerInput inputId response v).2
    unfold answerInput
    split
    · exact .nothing _
    rename_i q hq
    unfold whenLive
    split
    · exact .answer q hq (.inl rfl)
    rename_i hlive
    dsimp only
    split
    · exact .answer q hq (.inl rfl)
    rcases committing_cases (onRun inputAnsweredEffect) { v with
        inputs := v.inputs.modify inputId (InputRequest.answer (boundText response 2000)) }
      with ⟨effect, v', happly, heq⟩ | ⟨e, -, heq⟩
    · obtain ⟨run', hrun', rfl⟩ := onRun_ok happly
      rw [heq]
      exact .answer q hq (.inr ⟨effect, run', Bool.eq_false_iff.2 hlive, hrun', rfl⟩)
    · rw [heq]
      exact .answer q hq (.inl rfl)
  | executeDelivery =>
    refine does_whenLive fun hlive => ?_
    split
    · exact .nothing _
    rename_i c hfound
    unfold claiming
    split
    · exact .nothing _
    · rename_i run' hclaim
      exact .deliver c hlive hfound hclaim
  | inspectClaim => exact does_whenLive fun hlive => does_onRun (.inspect hlive)
  | submitClaimInspection now token gen =>
    show Does host v _ (submitClaimInspection host now token gen v).2
    unfold submitClaimInspection
    split
    · exact .nothing _
    · rename_i c hc
      exact does_onRun (.inspectToken c hc)
  | submitModelJobInspection => exact does_submitModelJobInspection ..
  | drainCommand now key refused owner answer send =>
    show Does host v _ (drainCommand now key refused owner answer send v).2
    unfold drainCommand
    split
    · exact .nothing _
    rename_i c hc
    split
    · rename_i hrefused
      exact does_whenLive fun hlive => does_onRun (.refuseDispatch c hlive hc hrefused)
    rename_i hrefused
    obtain rfl : c.toCommandKey = key := Table.key_of_get hc
    unfold claiming
    split
    · exact .nothing _
    · rename_i run' hclaim
      exact .drain c hc hrefused hclaim
  | bindNodeWorker => exact does_statement fun _ h => .bind h
  | completeCommand => exact does_statement fun _ h => .complete h
  | workers db => exact .workers db

end Does

/-! ## Claimed commands

What holds of each statement of a send, or of a command that is started, holds of the whole. -/

structure Sends (key : CommandKey) (owner : String) (token : Nat)
    (R : RunView → RunView → Prop) : Prop where
  refl : ∀ v, R v v
  trans : ∀ {a b c}, R a b → R b c → R a c
  complete : ∀ {v run'}, v.run.completeCommand key owner token = .ok run' →
    R v { v with run := run' }
  bump : ∀ {v n run'}, v.run.bumpDeliveryAttempts key.nodeId = .ok (n, run') →
    R v { v with run := run' }
  outcome : ∀ {v outcome receipt run'},
    v.run.setDeliveryOutcome key.nodeId outcome receipt = .ok run' → R v { v with run := run' }
  retry : ∀ {v ordinal run'}, v.run.queueCommand ⟨key.generation, key.nodeId, .deliver, ordinal⟩
    ⟨none, none, [], none⟩ = .ok run' → R v { v with run := run' }
  settle : ∀ v, v.Live →
    R v { v with run := v.run.bump (v.run.evaluateTerminal v.run.currentRevision none) }

structure Carries (c : WorkflowCommand) (owner : String) (token : Nat)
    (R : RunView → RunView → Prop) : Prop where
  refl : ∀ v, R v v
  trans : ∀ {a b d}, R a b → R b d → R a d
  complete : ∀ {v run'}, v.run.completeCommand c.toCommandKey owner token = .ok run' →
    R v { v with run := run' }
  release : ∀ v, R v { v with run := v.run.releaseClaim c.toCommandKey owner token }
  mark : ∀ v revision, R v { v with run := v.run.markNodeRunning revision c.nodeId }
  start : ∀ {v run'}, startOperation c v.run = .ok run' → R v { v with run := run' }
  sends : c.action = .deliver → Sends c.toCommandKey owner token R

section Carries

variable {key : CommandKey} {owner : String} {token : Nat} {R : RunView → RunView → Prop}
  {c : WorkflowCommand}

theorem rel_statement (hrefl : ∀ v, R v v) (htrans : ∀ {a b c}, R a b → R b c → R a c)
    {write : WorkflowRun → Except WorkflowError WorkflowRun}
    {next : RunView → Except WorkflowError Unit × RunView}
    (hwrite : ∀ {v run'}, write v.run = .ok run' → R v { v with run := run' })
    (hnext : ∀ v, R v (next v).2) (v : RunView) : R v (statement write next v).2 := by
  unfold statement
  split
  · exact hrefl v
  · rename_i run' hrun'
    exact htrans (hwrite hrun') (hnext _)

theorem Sends.settleIfDeliverable (h : Sends key owner token R) (v : RunView) :
    R v (settleIfDeliverable v).2 := by
  unfold RunView.settleIfDeliverable
  split
  · exact h.refl v
  · rename_i hlive
    exact h.settle v (Bool.eq_false_iff.2 hlive)

theorem Sends.afterSend (h : Sends key owner token R) (attempts : Nat) (send : DeliverySend)
    (v : RunView) : R v (afterSend key owner token attempts send v).2 := by
  have hclose : ∀ v, R v (statement (·.completeCommand key owner token) done v).2 :=
    rel_statement h.refl h.trans h.complete h.refl
  cases send with
  | receipt json =>
    exact rel_statement h.refl h.trans h.outcome
      (rel_statement h.refl h.trans h.complete h.settleIfDeliverable) v
  | definitive message =>
    unfold RunView.afterSend
    split
    · refine rel_statement h.refl h.trans h.complete (fun v => ?_) v
      exact rel_statement h.refl h.trans (fun hqueued => h.retry hqueued) h.refl v
    · exact rel_statement h.refl h.trans h.outcome hclose v
  | ambiguous => exact rel_statement h.refl h.trans h.outcome hclose v

theorem Sends.runDeliverySend (h : Sends key owner token R) (send : DeliverySend) (v : RunView) :
    R v (runDeliverySend key owner token send v).2 := by
  unfold RunView.runDeliverySend
  split
  · exact h.refl v
  split
  · exact rel_statement h.refl h.trans h.complete h.refl v
  split
  · exact h.refl v
  · rename_i attempts run' hbump
    exact h.trans (h.bump hbump) (h.afterSend attempts send _)

theorem Carries.startCommand (h : Carries c owner token R) (answer : PortOutcome)
    (send : DeliverySend) (v : RunView) : R v (startCommand c owner answer send token v).2 := by
  have hport : ∀ v, R v (portAnswer c.toCommandKey owner token answer v).2 := by
    intro v
    unfold portAnswer
    split
    · exact h.refl v
    · exact h.refl v
    · exact h.release v
  unfold RunView.startCommand
  dsimp only
  split
  · exact hport v
  · rename_i hdeliver
    exact (h.sends hdeliver).runDeliverySend send v
  · split
    · exact h.trans (h.mark v _) (hport _)
    · exact rel_statement h.refl h.trans h.complete h.refl v
  all_goals
    cases c.payload.revision with
    | none =>
      dsimp only
      split
      · exact h.refl v
      · rename_i hstarted
        exact h.trans (h.start hstarted) (hport _)
    | some revision =>
      dsimp only
      split
      · exact h.mark v revision
      · rename_i hstarted
        exact h.trans (h.trans (h.mark v revision) (h.start hstarted)) (hport _)

end Carries

end RunView

end Abtars
