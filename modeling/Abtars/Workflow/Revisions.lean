import Mathlib.Algebra.Order.Ring.Int
import Abtars.Lib.Run
import Abtars.Workflow.Steps
import Abtars.Workflow.Storable

/-!
# Revisions are bounded and only grow

A run starts with the budgets it is admitted with.  A repair round is opened against the repair
budget and a rejected round is queued again against the revision budget, so the revisions that
repairs admit are counted; the rounds of planning nodes are not.
-/

namespace Abtars

open Lib

def WorkflowCommand.opensRepair (c : WorkflowCommand) : Bool :=
  c.status.isOpen ∧ c.payload.purpose = some .repair

theorem WorkflowCommand.Kept.opensRepair {c c' : WorkflowCommand} (h : c.Kept c')
    (hopen : c'.opensRepair = true) : c.opensRepair = true := by
  simp only [WorkflowCommand.opensRepair, decide_eq_true_eq] at hopen ⊢
  exact ⟨h.isOpen hopen.1, h.payload ▸ hopen.2⟩

namespace WorkflowRun

section Counting

variable {key : CommandKey} {run run' : WorkflowRun}

def openRepairs (run : WorkflowRun) : Int :=
  run.commands.sum fun c => if c.opensRepair then 1 else 0

def paidRounds (run : WorkflowRun) : Int :=
  run.budgets.reviewRepair.consumed + run.budgets.planRevision.consumed

theorem openRepairs_nonneg (run : WorkflowRun) : 0 ≤ run.openRepairs := by
  refine List.sum_nonneg fun x hx => ?_
  obtain ⟨c, -, rfl⟩ := List.mem_map.1 hx
  split <;> simp

theorem openRepairs_insert {commands : Table WorkflowCommand} {c : WorkflowCommand}
    (h : run.commands.insert (fun _ => false) c = some commands) :
    ({ run with commands } : WorkflowRun).openRepairs =
      run.openRepairs + if c.opensRepair then 1 else 0 := by
  obtain ⟨-, -, hrows⟩ := Table.insert_eq_some_iff.1 h
  simp [openRepairs, Table.sum, hrows]

theorem Write.openRepairs_le (h : Write True run run') : run'.openRepairs ≤ run.openRepairs := by
  cases h with
  | nodes | deps | closeOperations | deliveries => exact le_rfl
  | commands commands hrows =>
    refine hrows.sum_le _ (fun c _ c' hkept => ?_) fun _ hnew => hnew.elim
    by_cases hopen : c'.opensRepair = true
    · rw [if_pos hopen, if_pos (hkept.opensRepair hopen)]
    · rw [if_neg hopen]
      split <;> simp
  | queue _ key payload hqueue _ _ hrepair =>
    obtain ⟨commands, hinsert, rfl⟩ := queueCommand_ok hqueue
    rw [openRepairs_insert hinsert]
    simp [WorkflowCommand.opensRepair, newCommand, hrepair]
  | operation _ _ hupsert _ =>
    rcases upsertOperation_ok hupsert with ⟨_, -, -, rfl⟩ | ⟨-, _, -, rfl⟩ <;> exact le_rfl
  | budget scope _ =>
    rw [consumeBudget_eq]
    exact le_rfl

theorem Writes.openRepairs_le (h : Writes True run run') : run'.openRepairs ≤ run.openRepairs := by
  induction h with
  | refl => exact le_rfl
  | tail _ h ih => exact h.openRepairs_le.trans ih

theorem Growth.openRepairs_le (h : Growth run run') : run'.openRepairs ≤ run.openRepairs := by
  cases h with
  | write h => exact h.openRepairs_le
  | node row h _ _ _ =>
    obtain ⟨_, -, rfl⟩ := insertNode_ok h
    exact le_rfl
  | dep row h _ =>
    obtain ⟨_, -, rfl⟩ := insertDep_ok h
    exact le_rfl

theorem Growths.openRepairs_le (h : Growths run run') : run'.openRepairs ≤ run.openRepairs := by
  induction h with
  | refl => exact le_rfl
  | tail _ h ih => exact h.openRepairs_le.trans ih

theorem Growth.kept_command (h : Growth run run') {c : WorkflowCommand}
    (hc : run.commands.get key = some c) : ∃ c', run'.commands.get key = some c' ∧ c.Kept c' := by
  cases h with
  | write h =>
    cases h with
    | nodes | deps | closeOperations | deliveries => exact ⟨c, hc, .refl c⟩
    | commands commands hrows => exact hrows.get_of_get (fun _ _ hkept => hkept.key) hc
    | queue _ key payload hqueue _ _ _ =>
      obtain ⟨commands, hinsert, rfl⟩ := queueCommand_ok hqueue
      exact ⟨c, Table.get_insert_of_some hinsert hc, .refl c⟩
    | operation _ _ hupsert _ =>
      rcases upsertOperation_ok hupsert with ⟨_, -, -, rfl⟩ | ⟨-, _, -, rfl⟩ <;>
        exact ⟨c, hc, .refl c⟩
    | budget scope _ =>
      rw [consumeBudget_eq]
      exact ⟨c, hc, .refl c⟩
  | node row h _ _ _ =>
    obtain ⟨_, -, rfl⟩ := insertNode_ok h
    exact ⟨c, hc, .refl c⟩
  | dep row h _ =>
    obtain ⟨_, -, rfl⟩ := insertDep_ok h
    exact ⟨c, hc, .refl c⟩

theorem Growths.kept_command (h : Growths run run') {c : WorkflowCommand}
    (hc : run.commands.get key = some c) : ∃ c', run'.commands.get key = some c' ∧ c.Kept c' := by
  induction h with
  | refl => exact ⟨c, hc, .refl c⟩
  | tail _ h ih =>
    obtain ⟨c', hc', hkept⟩ := ih
    obtain ⟨c'', hc'', hkept'⟩ := h.kept_command hc'
    exact ⟨c'', hc'', hkept.trans hkept'⟩

/-! ### Budgets -/

def Solvent (run : WorkflowRun) : Prop :=
  ∀ scope, 0 ≤ (run.budgets.get scope).allowed →
    ((run.budgets.get scope).consumed : Int) ≤ (run.budgets.get scope).allowed

theorem Solvent.consumeBudget {scope : BudgetScope} {ok : Bool} (hs : run.Solvent)
    (h : run.consumeBudget scope = (ok, run')) : run'.Solvent := by
  cases ok with
  | false =>
    rw [(consumeBudget_false h).1]
    exact hs
  | true =>
    obtain ⟨hlt, rfl⟩ := consumeBudget_true h
    intro scope' hallowed
    by_cases hscope : scope = scope'
    · subst hscope
      simp only [Budgets.get_set, if_true]
      push_cast
      omega
    · simp only [Budgets.get_set, if_neg hscope] at hallowed ⊢
      exact hs scope' hallowed

theorem Write.budgets_of (h : Write True run run') :
    run'.budgets = run.budgets ∨ ∃ scope, scope ≠ .reviewRepair ∧
      run' = (run.consumeBudget scope).2 := by
  cases h with
  | nodes | deps | commands | closeOperations | deliveries => exact .inl rfl
  | queue _ key payload hqueue _ _ _ =>
    rw [queueCommand_rest hqueue]
    exact .inl rfl
  | operation _ _ hupsert _ =>
    rw [upsertOperation_rest hupsert]
    exact .inl rfl
  | budget scope hscope => exact .inr ⟨scope, hscope, rfl⟩

theorem Write.solvent (h : Write True run run') (hs : run.Solvent) : run'.Solvent := by
  rcases h.budgets_of with hsame | ⟨scope, -, rfl⟩
  · intro scope
    rw [hsame]
    exact hs scope
  · exact hs.consumeBudget rfl

theorem Writes.solvent (h : Writes True run run') (hs : run.Solvent) : run'.Solvent := by
  induction h with
  | refl => exact hs
  | tail _ h ih => exact h.solvent ih

theorem Growth.solvent (h : Growth run run') (hs : run.Solvent) : run'.Solvent := by
  cases h with
  | write h => exact h.solvent hs
  | node row h _ _ _ =>
    obtain ⟨_, -, rfl⟩ := insertNode_ok h
    exact hs
  | dep row h _ =>
    obtain ⟨_, -, rfl⟩ := insertDep_ok h
    exact hs

theorem Growths.solvent (h : Growths run run') (hs : run.Solvent) : run'.Solvent := by
  induction h with
  | refl => exact hs
  | tail _ h ih => exact h.solvent ih

theorem Write.paidRounds_le (h : Write True run run') : run.paidRounds ≤ run'.paidRounds := by
  rcases h.budgets_of with hsame | ⟨scope, hscope, rfl⟩
  · rw [paidRounds, paidRounds, hsame]
  cases hok : run.consumeBudget scope with
  | mk ok paid =>
    cases ok with
    | false =>
      rw [(consumeBudget_false hok).1]
    | true =>
      obtain ⟨-, rfl⟩ := consumeBudget_true hok
      cases scope with
      | reviewRepair => exact absurd rfl hscope
      | workRetry => exact le_rfl
      | protocolCorrection => exact le_rfl
      | planRevision =>
        simp only [paidRounds, Budgets.set, Budgets.get]
        push_cast
        omega

theorem Writes.paidRounds_le (h : Writes True run run') : run.paidRounds ≤ run'.paidRounds := by
  induction h with
  | refl => exact le_rfl
  | tail _ h ih => exact ih.trans h.paidRounds_le

/-! ### The invariant -/

/-- The revisions of a run with the repair rounds that may still admit one never exceed what was
paid for, and none asks for less than an earlier one. -/
structure Bounded (run : WorkflowRun) : Prop where
  within : run.Within
  solvent : run.Solvent
  counted : (run.revisions.length : Int) + run.openRepairs ≤
    (if run.revisions = [] then 0 else 1) + run.paidRounds
  monotone : run.revisions.Pairwise fun p q => p.requiredOutputs ⊆ q.requiredOutputs

theorem Bounded.length_le (h : run.Bounded) (hplan : 0 ≤ run.budgets.planRevision.allowed)
    (hrepair : 0 ≤ run.budgets.reviewRepair.allowed) : (run.revisions.length : Int) ≤
      1 + run.budgets.planRevision.allowed + run.budgets.reviewRepair.allowed := by
  have hcounted := h.counted
  have hopen := run.openRepairs_nonneg
  have hplan' := h.solvent .planRevision hplan
  have hrepair' := h.solvent .reviewRepair hrepair
  simp only [Budgets.get] at hplan' hrepair'
  unfold paidRounds at hcounted
  split at hcounted <;> omega

theorem openRepairs_queue_le {payload : CommandPayload}
    (h : run.queueCommand key payload = .ok run') : run'.openRepairs ≤ run.openRepairs + 1 := by
  obtain ⟨commands, hinsert, rfl⟩ := queueCommand_ok h
  rw [openRepairs_insert hinsert]
  split <;> omega

theorem Move.counted (h : Move run run') :
    run'.openRepairs + run.paidRounds ≤ run.openRepairs + run'.paidRounds := by
  cases h with
  | write h =>
    have hopen := h.openRepairs_le
    have hpaid := h.paidRounds_le
    omega
  | bump effect => exact le_rfl
  | @round paid ready _ scope hscope hpaid hready key payload hqueue _ _ =>
    have hqueued := openRepairs_queue_le hqueue
    have hopen := hready.openRepairs_le
    have hrounds := hready.paidRounds_le
    have hsame : run'.paidRounds = ready.paidRounds := by
      rw [queueCommand_rest hqueue]
      rfl
    obtain ⟨-, hpaid⟩ := consumeBudget_true hpaid
    have hcount : paid.paidRounds = run.paidRounds + 1 := by
      rw [hpaid]
      rcases hscope with rfl | rfl <;> simp only [paidRounds, Budgets.set, Budgets.get] <;>
        push_cast <;> omega
    have hsupply : paid.openRepairs = run.openRepairs := by
      rw [hpaid]
      rfl
    omega

theorem Move.bounded (h : Move run run') (hb : run.Bounded) : run'.Bounded := by
  have hsame := h.sameRun
  refine ⟨h.within hb.within, ?_, ?_, ?_⟩
  · cases h with
    | write h => exact h.solvent hb.solvent
    | bump effect => exact hb.solvent
    | round scope _ hpaid hready key payload hqueue _ _ =>
      intro scope'
      rw [queueCommand_rest hqueue]
      exact hready.solvent (hb.solvent.consumeBudget hpaid) scope'
  · have hcounted := hb.counted
    have hmove := h.counted
    rw [hsame.revisions]
    omega
  · rw [hsame.revisions]
    exact hb.monotone

theorem Moves.bounded (h : Moves run run') (hb : run.Bounded) : run'.Bounded := by
  induction h with
  | refl => exact hb
  | tail _ h ih => exact h.bounded ih

def Extends (run : WorkflowRun) (proposal : PlanProposal) : Prop :=
  ∀ plan, run.revisions.getLast? = some plan → plan.requiredOutputs ⊆ proposal.requiredOutputs

theorem Extends.pairwise {proposal : PlanProposal} (h : run.Extends proposal)
    (hmonotone : run.revisions.Pairwise fun p q => p.requiredOutputs ⊆ q.requiredOutputs) :
    (run.revisions ++ [proposal]).Pairwise fun p q => p.requiredOutputs ⊆ q.requiredOutputs := by
  refine List.pairwise_append.2 ⟨hmonotone, List.pairwise_singleton _ _, ?_⟩
  intro p hp q hq
  obtain rfl : q = proposal := by simpa using hq
  obtain ⟨init, last, hlist⟩ := List.eq_nil_or_concat run.revisions |>.resolve_left
    (List.ne_nil_of_mem hp)
  have hlast := h last (by rw [hlist]; simp)
  rw [hlist, List.concat_eq_append] at hp hmonotone
  rcases List.mem_append.1 hp with hp | hp
  · exact List.Subset.trans ((List.pairwise_append.1 hmonotone).2.2 p hp last (by simp)) hlast
  · obtain rfl : p = last := by simpa using hp
    exact hlast

/-- One more revision than was counted fits where its round is no longer open, and where it is
the first. -/
theorem Bounded.admission {grown : WorkflowRun} {proposal : PlanProposal} (hb : run.Bounded)
    (hwithin : grown.Within) (hsolvent : grown.Solvent)
    (hrevisions : grown.revisions = run.revisions ++ [proposal])
    (hpaid : run.paidRounds ≤ grown.paidRounds)
    (hrounds : grown.openRepairs + (if run.revisions = [] then 0 else 1) ≤ run.openRepairs)
    (hextends : run.Extends proposal) : grown.Bounded := by
  refine ⟨hwithin, hsolvent, ?_, hrevisions ▸ hextends.pairwise hb.monotone⟩
  have hcounted := hb.counted
  have hne : grown.revisions ≠ [] := by simp [hrevisions]
  have hlength : (grown.revisions.length : Int) = run.revisions.length + 1 := by
    simp [hrevisions]
  rw [if_neg hne]
  split at hcounted <;> rename_i hnil <;> simp only [hnil, if_true, if_false] at hrounds <;> omega

theorem Growths.paidRounds_le (h : Growths run run') : run.paidRounds ≤ run'.paidRounds := by
  induction h with
  | refl => exact le_rfl
  | tail _ h ih =>
    refine ih.trans ?_
    cases h with
    | write h => exact h.paidRounds_le
    | node row h _ _ _ =>
      obtain ⟨_, -, rfl⟩ := insertNode_ok h
      exact le_rfl
    | dep row h _ =>
      obtain ⟨_, -, rfl⟩ := insertDep_ok h
      exact le_rfl

end Counting

section Answers

variable {run run' : WorkflowRun} {claim : ClaimAuthority} {c : WorkflowCommand}
  {opId : Option OpId} {round : Option PlanRound}

/-- The round a proposal is handed in for is that of the command it was claimed with, and its
operation may be opened again. -/
structure OwnRound (run : WorkflowRun) (c : WorkflowCommand) (opId : Option OpId)
    (round : Option PlanRound) : Prop where
  action : c.action = .plan
  generation : c.generation = run.generation
  round : round = some ⟨c.nodeId, c.ordinal, c.payload⟩
  reopens : ∀ old,
    run.operations.get (run.roundOpId opId ⟨c.nodeId, c.ordinal, c.payload⟩) = some old →
    ∀ o ∈ run.operations, o.opId ≠ old.opId →
      (OperationRow.withStatus .pending old).clashesOpen o = false

theorem lt_nextCommandOrdinal (hc : c ∈ run.commands) :
    c.ordinal < run.nextCommandOrdinal c.generation c.nodeId c.action := by
  have hmem : c ∈ run.commandsOf c.generation c.nodeId c.action := by
    simp [commandsOf, hc]
  unfold nextCommandOrdinal
  revert hmem
  induction run.commandsOf c.generation c.nodeId c.action with
  | nil => simp
  | cons d commands ih =>
    intro hmem
    rw [List.foldr_cons]
    rcases List.mem_cons.1 hmem with rfl | hmem
    · omega
    · have := ih hmem
      omega

theorem get_nextCommandOrdinal (run : WorkflowRun) (generation : Nat) (nodeId : NodeId)
    (action : CommandAction) : run.commands.get
      ⟨generation, nodeId, action, run.nextCommandOrdinal generation nodeId action⟩ = none := by
  refine Table.get_eq_none_iff.2 fun c hc hkey => ?_
  have hlt := lt_nextCommandOrdinal hc
  rw [key_workflowCommand] at hkey
  rw [hkey] at hlt
  exact Nat.lt_irrefl _ hlt

end Answers

end WorkflowRun

namespace RunView

open WorkflowRun

section Condition

variable (host : RunnerHost) (v : RunView)

def PassesChecks (report : ReportConstraint) (proposal : PlanProposal) : Prop :=
  v.run.validatePlanForRun host.capabilities report proposal = []

structure RejectsOwnRound (opId : Option OpId) (round : Option PlanRound)
    (claim : Option ClaimAuthority) : Prop where
  within : v.run.RoundWithin opId round
  own : ∀ authority c, claim = some authority → v.run.requireOwnedClaim authority = .ok c →
    v.run.OwnRound c opId round

/-- A proposal under a claim is made for the current revision; one that passes the checks drops
no output of the first plan, can be stored, and completes a node there is. -/
structure AnswersRound (report : ReportConstraint) (proposal : PlanProposal)
    (opts : ProposalOpts) : Prop where
  current : ∀ base, opts.baseRevision = some base → base = v.run.currentRevision
  kept : v.PassesChecks host report proposal → droppedOutputs v.run proposal = []
  storable : v.PassesChecks host report proposal → proposal.Storable
  author : ∀ revision nodeId, opts.completesNode = some (revision, nodeId) →
    (v.run.findNode revision nodeId).isSome = true

/-- A proposal that is admitted keeps the outputs of the latest revision, and comes from a repair
round where there is one. -/
structure PaidRevision (proposal : PlanProposal) (opts : ProposalOpts) : Prop where
  extends' : v.run.Extends proposal
  repair : v.run.revisions ≠ [] → ∃ claim c, opts.claim = some claim ∧
    v.run.requireOwnedClaim claim = .ok c ∧ c.payload.purpose = some .repair

/-- The condition on a step: what a backend hands in under a claim it holds, or without one,
answers its own round, and what is admitted was paid for. -/
def RoundsPaid : WorkflowOp → Prop
  | .submitPlanProposal report proposal opts =>
    v.run.state.isTerminal = false → v.run.claimHeld opts.claim = .ok () →
      v.RejectsOwnRound opts.opId opts.planRound opts.claim ∧
      (opts.claim ≠ none → v.AnswersRound host report proposal opts) ∧
      (opts.baseRevision.filter (· ≠ v.run.currentRevision) = none →
        v.PassesChecks host report proposal → droppedOutputs v.run proposal = [] →
        v.PaidRevision proposal opts)
  | .rejectPlanRound _ opId round claim =>
    v.run.state.isTerminal = false → v.run.claimHeld claim = .ok () →
      v.RejectsOwnRound opId round claim
  | _ => True

end Condition

section Steps

variable {proposal : PlanProposal} {host : RunnerHost} {v : RunView} {op : WorkflowOp}

theorem RoundsPaid.namesWithin (h : v.RoundsPaid host op) : NamesWithin v.run op := by
  cases op with
  | submitPlanProposal report proposal opts => exact fun hlive hheld => (h hlive hheld).1.within
  | rejectPlanRound problems opId round claim => exact fun hlive hheld => (h hlive hheld).within
  | _ => trivial

theorem bounded_bump {run : WorkflowRun} (effect : TransitionEffect) (h : run.Bounded) :
    (run.bump effect).Bounded :=
  Move.bounded (.bump run effect) h

theorem openRepairs_settleClaim {run final : WorkflowRun} {claim : ClaimAuthority}
    {c : WorkflowCommand} (hc : run.commands.get claim.key = some c)
    (hrepair : c.payload.purpose = some .repair)
    (h : run.settleClaim (some claim) = .ok final) : final.openRepairs + 1 ≤ run.openRepairs := by
  obtain ⟨⟨d, hd, hheld⟩, rfl⟩ := completeCommand_ok h
  obtain rfl : c = d := Option.some.inj (hc.symm.trans hd)
  have hclaimed : c.status = .claimed := by
    simp only [WorkflowCommand.heldBy, decide_eq_true_eq] at hheld
    exact hheld.1
  have hopen : c.opensRepair = true := by
    simp [WorkflowCommand.opensRepair, hclaimed, hrepair, CommandStatus.isOpen]
  have hclosed : (c.close .done).opensRepair = false := by
    simp [WorkflowCommand.opensRepair, WorkflowCommand.close, CommandStatus.isOpen]
  unfold openRepairs
  rw [Table.sum_modify hc, hopen, hclosed]
  simp

theorem Admits.bounded {run : WorkflowRun} (h : Admits host v op proposal run) (hb : v.run.Bounded)
    (hpaid : v.RoundsPaid host op) : run.Bounded := by
  cases h with
  | initial report _ grown hfirst hgrown =>
    have hgrows := growths_admitRevision hb.within hgrown
    have hnil : v.run.revisions = [] := List.length_eq_zero_iff.1 hfirst
    refine bounded_bump _ (hb.admission (hgrows.within (hb.within.plan _)) (hgrows.solvent hb.solvent)
      hgrows.sameHeader.revisions hgrows.paidRounds_le ?_ ?_)
    · rw [if_pos hnil, add_zero]
      exact hgrows.openRepairs_le
    · intro plan hplan
      rw [hnil] at hplan
      cases hplan
  | proposal report _ opts final effect hlive hheld hbase hvalid hkept hadmitted =>
    obtain ⟨hown, -, hpays⟩ := hpaid hlive hheld
    obtain ⟨hextends, hrepair⟩ := hpays hbase hvalid hkept
    obtain ⟨-, -, ready, grown, closed, hready, hgrown, hclosed, hfinal⟩ :=
      admitProposalEffect_ok hadmitted
    have hready' : ready.Within := hready.within (fun _ => hb.within) trivial
    have hgrows := growths_admitRevision hready' hgrown
    have hcurrent : grown.currentRevision = v.run.currentRevision + 1 := by
      rw [hgrows.sameHeader.currentRevision, currentRevision_insertPlanRevision,
        hready.sameHeader.currentRevision]
    have hclose : Writes True grown closed := by
      refine writes_succeedOperation (fun _ id hid => ?_) (fun _ => hcurrent.ge) hclosed
      exact (hown.within.opId id hid).mono (by omega)
    have hfinal' : Writes True closed final := writes_settleClaim hfinal
    have hplanned : (ready.insertPlanRevision proposal).Within := hready'.plan proposal
    have hclosed' : closed.Within := hclose.within (fun _ => hgrows.within hplanned) trivial
    have hrounds : closed.openRepairs ≤ v.run.openRepairs :=
      (hclose.openRepairs_le.trans hgrows.openRepairs_le).trans hready.openRepairs_le
    refine bounded_bump _ (hb.admission (hfinal'.within (fun _ => hclosed') trivial)
      (hfinal'.solvent (hclose.solvent (hgrows.solvent (hready.solvent hb.solvent)))) ?_ ?_ ?_
      hextends)
    · rw [hfinal'.sameHeader.revisions, hclose.sameHeader.revisions,
        hgrows.sameHeader.revisions]
      change ready.revisions ++ [proposal] = _
      rw [hready.sameHeader.revisions]
    · exact (hready.paidRounds_le.trans hgrows.paidRounds_le).trans
        (hclose.paidRounds_le.trans hfinal'.paidRounds_le)
    · by_cases hnil : v.run.revisions = []
      · rw [if_pos hnil, add_zero]
        exact hfinal'.openRepairs_le.trans hrounds
      obtain ⟨claim, c, hclaim, hc, hpurpose⟩ := hrepair hnil
      obtain ⟨c', hc', hkept'⟩ := hready.growths.kept_command (requireOwnedClaim_ok hc).1
      obtain ⟨c'', hc'', hkept''⟩ := hgrows.kept_command hc'
      obtain ⟨d, hd, hkeptd⟩ := hclose.growths.kept_command hc''
      rw [hclaim] at hfinal
      have hpayload : d.payload.purpose = some .repair := by
        rw [hkeptd.payload, hkept''.payload, hkept'.payload]
        exact hpurpose
      have hone := openRepairs_settleClaim hd hpayload hfinal
      omega

theorem bounded_step (hb : v.run.Bounded) (hpaid : v.RoundsPaid host op) :
    (workflowStep host v op).run.Bounded := by
  rcases step_moves_or_admits hb.within hpaid.namesWithin with hmoves | ⟨proposal, hadmits⟩
  · exact hmoves.bounded hb
  · exact hadmits.bounded hb hpaid

/-! ## Refusals -/

theorem Admits.allowed {run : WorkflowRun}
    (h : Admits host v op proposal run) (hb : v.run.Bounded) (hpaid : v.RoundsPaid host op)
    (scope : BudgetScope) : (run.budgets.get scope).allowed = (v.run.budgets.get scope).allowed := by
  cases h with
  | initial report _ grown hfirst hgrown =>
    exact (growths_admitRevision hb.within hgrown).sameHeader.allowed scope
  | proposal report _ opts final effect hlive hheld hbase hvalid hkept hadmitted =>
    obtain ⟨-, -, ready, grown, closed, hready, hgrown, hclosed, hfinal⟩ :=
      admitProposalEffect_ok hadmitted
    have hready' : ready.Within := hready.within (fun _ => hb.within) trivial
    have hgrows := growths_admitRevision hready' hgrown
    have hclose : (closed.budgets.get scope).allowed = (grown.budgets.get scope).allowed := by
      unfold succeedOperation at hclosed
      split at hclosed
      · cases hclosed
        rfl
      · rw [upsertOperation_rest hclosed]
    change (final.budgets.get scope).allowed = _
    have hfinal' : Writes True closed final := writes_settleClaim hfinal
    rw [hfinal'.sameHeader.allowed, hclose, hgrows.sameHeader.allowed]
    exact hready.sameHeader.allowed scope

end Steps

def waveHost : RunnerHost := ⟨["general"], fun _ => ""⟩

def waveStart : RunView where
  run := .admitted "run" .interactive 1 none "operation" ⟨1, 2, 2, 1⟩ 0
  inputs := ∅
  db := Db.empty
  minted := 0

def wavePlan (outputs : List String) : PlanProposal where
  nodes := [⟨"work", .work, "do it", "general", outputs, ["done"], [], false⟩,
    ⟨"next", .planning, "plan on", "general", [], [], [], false⟩]
  requiredOutputs := outputs
  allowPartial := false

def waveKey (base : Nat) : CommandKey := ⟨1, .planned base 1, .plan, 0⟩

/-- The proposal of the planning node of a revision, under the claim of its command. -/
def waveProposal (base : Nat) (outputs : List String) : WorkflowOp :=
  .submitPlanProposal .none (wavePlan outputs)
    { baseRevision := some base
      opId := some (.node base (.planned base 1))
      completesNode := some (base, .planned base 1)
      planRound := some ⟨.planned base 1, 0, ⟨some base, some .nextWave, [], none⟩⟩
      claim := some ⟨waveKey base, "planner", base - 1⟩ }

/-- The drain of the planning command of a revision, and the proposal made for it. -/
def nextWave (base : Nat) (outputs : List String) : List WorkflowOp :=
  [.drainCommand 0 (waveKey base) false "planner" .started .ambiguous, waveProposal base outputs]

end RunView

end Abtars
