import Abtars.Workflow.Runner
import Abtars.Workflow.Writes

/-!
# How the appliers move a run

The appliers of the runner are sequences of `Write`s.  A run of the workflow is moved by these
statements, by the commits that end an applier, and by planning rounds opened against a budget;
an admission grows the run by the rows of one more revision.
-/

namespace Abtars

open Lib

namespace WorkflowRun

variable {scope : BudgetScope}

section Appliers

variable {revision expectedGen token : Nat} {key : CommandKey} {now : Millis} {c : WorkflowCommand}
  {owner : String}

variable {Q : Prop} {run run' : WorkflowRun} {effect : TransitionEffect}

theorem writes_rejectPlanEffect (reason : String) (run : WorkflowRun) :
    Writes Q run (run.rejectPlanEffect reason).2 := by
  unfold rejectPlanEffect
  split <;> rename_i mid hmid <;> exact writes_consumeBudget hmid (by decide)

theorem writes_failOperation {opId : Option OpId}
    (hop : Q → ∀ id, opId = some id → id.Within run.currentRevision)
    (h : run.failOperation opId = .ok run') : Writes Q run run' := by
  unfold failOperation at h
  split at h
  · cases h
    exact .refl
  · rename_i id
    exact Write.single (.operation _ _ _ h fun hq => ⟨hop hq id rfl, by simp⟩)

theorem writes_succeedOperation {opId : Option OpId}
    (hop : Q → ∀ id, opId = some id → id.Within run.currentRevision)
    (hrevision : Q → revision ≤ run.currentRevision)
    (h : run.succeedOperation opId revision = .ok run') : Writes Q run run' := by
  unfold succeedOperation at h
  split at h
  · cases h
    exact .refl
  rename_i id
  refine Write.single (.operation _ _ _ h fun hq => ⟨hop hq id rfl, ?_⟩)
  intro r hr
  cases hr
  exact hrevision hq

theorem writes_supersedeClaim (claim : Option ClaimAuthority) (run : WorkflowRun) :
    Writes Q run (run.supersedeClaim claim) := by
  unfold supersedeClaim
  split
  · exact .refl
  · exact writes_supersedeCommand _ run

theorem writes_settleClaim {claim : Option ClaimAuthority}
    (h : run.settleClaim claim = .ok run') : Writes Q run run' := by
  unfold settleClaim at h
  split at h
  · cases h
    exact .refl
  · exact writes_completeCommand h

theorem writes_completeAuthor {node : Option (Nat × NodeId)}
    (h : run.completeAuthor node = .ok run') : Writes Q run run' := by
  unfold completeAuthor at h
  split at h
  · cases h
    exact .refl
  · exact writes_closeNode h rfl

/-! ### Verdicts -/

variable {home judged : Nat} {nodeId : NodeId} {claim : Option ClaimAuthority}

theorem writes_reviewOperation {status : OperationStatus}
    (hhome : Q → home ≤ run.currentRevision) (hid : Q → nodeId.Within run.currentRevision)
    (h : run.upsertOperation ⟨.node home nodeId, .review, some home, status⟩ = .ok run') :
    Writes Q run run' := by
  refine Write.single (.operation _ _ _ h fun hq => ⟨⟨hhome hq, hid hq⟩, ?_⟩)
  intro r hr
  cases hr
  exact hhome hq

theorem writes_failReviewEffect {outcome cause : String} (hhome : Q → home ≤ run.currentRevision)
    (hid : Q → nodeId.Within run.currentRevision)
    (h : run.failReviewEffect home judged nodeId outcome cause claim = .ok (effect, run')) :
    Writes Q run run' := by
  obtain ⟨closed, hclosed, h⟩ := ok_of_match h
  obtain ⟨settled, hsettled, h⟩ := ok_of_match h
  obtain ⟨final, hfinal, h⟩ := ok_of_match h
  cases h
  exact ((writes_reviewOperation hhome hid hclosed).trans
    (writes_closeNode hsettled rfl)).trans (writes_settleClaim hfinal)

theorem write_queueRound
    (hr : Q → revision ≤ run.currentRevision) (hid : Q → key.nodeId.Within run.currentRevision)
    (h : run.queueCommand key ⟨some revision, none, [], none⟩ = .ok run') : Write Q run run' := by
  refine .queue _ _ _ _ h hid (fun hq => ⟨?_, ?_⟩) (by simp)
  · intro r hr'
    cases hr'
    exact hr hq
  · intro id hid'
    cases hid'

theorem writes_malformedVerdictEffect {malformed : String} (hhome : Q → home ≤ run.currentRevision)
    (hid : Q → nodeId.Within run.currentRevision)
    (h : run.malformedVerdictEffect home judged nodeId malformed claim = .ok (effect, run')) :
    Writes Q run run' := by
  unfold malformedVerdictEffect at h
  split at h
  · rename_i mid hmid
    have hbudget : Writes Q _ _ := writes_consumeBudget hmid (by decide)
    have hcurrent := hbudget.sameHeader.currentRevision
    exact hbudget.trans (writes_failReviewEffect (hcurrent ▸ hhome) (hcurrent ▸ hid) h)
  rename_i mid hmid
  have hbudget : Writes Q _ _ := writes_consumeBudget hmid (by decide)
  have hcurrent := hbudget.sameHeader.currentRevision
  obtain ⟨queued, hqueued, h⟩ := ok_of_match h
  obtain ⟨final, hfinal, h⟩ := ok_of_match h
  cases h
  exact (hbudget.tail (write_queueRound (hcurrent ▸ hhome) (hcurrent ▸ hid) hqueued)).trans
    (writes_settleClaim hfinal)

theorem closed_of_setNodeOutcome {status : NodeStatus}
    {outcome : Option NodeOutcome} {attemptId : Option String}
    (h : run.setNodeOutcome revision nodeId status outcome attemptId = .ok run')
    (hstatus : status.isOpen = false) :
    ∃ n ∈ run'.nodes, n.nodeId = nodeId ∧ n.status.isOpen = false := by
  obtain ⟨n, -, hn⟩ := findNode_of_setNodeOutcome h
  exact ⟨_, Table.mem_of_get hn, congrArg Prod.snd (Table.key_of_get hn), hstatus⟩

theorem writes_acceptedVerdictEffect (hhome : Q → home ≤ run.currentRevision)
    (hjudged : Q → judged ≤ run.currentRevision) (hid : Q → nodeId.Within run.currentRevision)
    (h : run.acceptedVerdictEffect home judged nodeId claim = .ok (effect, run')) :
    Writes Q run run' := by
  obtain ⟨closed, hclosed, h⟩ := ok_of_match h
  obtain ⟨settled, hsettled, h⟩ := ok_of_match h
  have howed : Writes Q run (settled.insertDelivery nodeId judged) :=
    ((writes_reviewOperation hhome hid hclosed).trans
      (writes_closeNode hsettled rfl)).trans (writes_insertDelivery judged (closed_of_setNodeOutcome hsettled rfl))
  have hcurrent := howed.sameHeader.currentRevision
  obtain ⟨queued, hqueued, h⟩ := ok_of_match h
  obtain ⟨final, hfinal, h⟩ := ok_of_match h
  cases h
  exact (howed.tail (write_queueRound (hcurrent ▸ hjudged) (hcurrent ▸ hid)
    hqueued)).trans (writes_settleClaim hfinal)

/-! ### Refusals, handoffs and inspections -/

theorem writes_breakerRefusedEffect {resource : String} {ordinal : Nat} (hw : Q → run.Within)
    (h : run.breakerRefusedEffect nodeId resource ordinal = .ok (effect, run')) :
    Writes Q run run' := by
  unfold breakerRefusedEffect at h
  dsimp only at h
  split at h
  · cases h
    exact .refl
  have hcancel : Writes Q _ _ := writes_cancelCommand ⟨run.generation, nodeId, .dispatch, ordinal⟩ run
  split at h
  · obtain ⟨settled, hsettled, h⟩ := ok_of_match h
    obtain ⟨released, hreleased, h⟩ := ok_of_match h
    have hset : Writes Q run settled := hcancel.trans (writes_closeNode hsettled rfl)
    have hr := fun hq => (revision_le_of_setNodeOutcome (hcancel.within hw hq) hsettled).1
    have hrelease : Writes Q run released :=
      hset.trans (writes_releaseDependents (hset.within hw) hr hreleased)
    exact hrelease.trans (writes_settleWithReReview (hrelease.within hw) h)
  · cases h
    exact hcancel.trans (writes_cancelPendingCommands _)

theorem writes_shaHandoffEffect {final : Bool} (hw : Q → run.Within)
    (h : run.shaHandoffEffect final = .ok (effect, run')) : Writes Q run run' := by
  unfold shaHandoffEffect at h
  split at h
  · cases h
    exact .refl
  obtain ⟨queued, hqueued, h⟩ := ok_of_match h
  cases h
  refine writes_foldlM (fun mid n mid' hn hcurrent hmid => ?_) hqueued
  have hrow := fun hq => (hw hq).nodes n (mem_listNodes.1 (List.mem_of_mem_filter hn)).1
  exact writes_requeueReview hmid (fun hq => hcurrent ▸ (hrow hq).1)
    fun hq => hcurrent ▸ (hrow hq).2

theorem writes_inconclusiveEffect {onMax : WorkflowRun → Except WorkflowError WorkflowRun}
    {unknown : Bool} (hmax : ∀ mid, onMax run = .ok mid → Writes Q run mid)
    (h : run.inconclusiveEffect now c expectedGen onMax unknown = .ok (effect, run')) :
    Writes Q run run' := by
  unfold inconclusiveEffect at h
  dsimp only at h
  split at h
  · obtain ⟨mid, hmid, h⟩ := ok_of_match h
    split at h <;> cases h <;> exact hmax _ hmid
  · cases h
    exact writes_noteInspection _ _ _ _ run

theorem writes_of_map_complete {α : Type*} {a : α} {out : α × WorkflowRun}
    (h : (run.completeCommand key owner token).map (fun run => (a, run)) = .ok out) :
    Writes Q run out.2 := by
  obtain ⟨mid, hmid, rfl⟩ := map_eq_ok.1 h
  exact writes_completeCommand hmid

theorem writes_inspectDeliver
    (h : run.inspectDeliver c owner token = .ok (effect, run')) : Writes Q run run' := by
  unfold inspectDeliver at h
  split at h
  · exact writes_of_map_complete h
  split at h
  · cases h
    exact writes_releaseClaim _ _ _ run
  · obtain ⟨settled, hsettled, h⟩ := ok_of_match h
    exact (writes_setDeliveryOutcome hsettled).trans (writes_of_map_complete h)

theorem locateAnyRevision_le (h : run.locateAnyRevision nodeId = some revision) :
    revision ≤ run.currentRevision := by
  have hmem := List.mem_of_find?_eq_some h
  simp only [List.mem_map, List.mem_reverse, List.mem_range] at hmem
  omega

theorem locateReviewNode_some (h : run.locateReviewNode nodeId = some revision) :
    ∃ n, run.findNode revision nodeId = some n ∧ n.kind = .review ∧ n.status.isOpen = true := by
  have hsome := List.find?_some h
  simp only [Option.any_eq_true, decide_eq_true_eq] at hsome
  obtain ⟨n, hn, hkind, hopen⟩ := hsome
  exact ⟨n, hn, hkind, hopen⟩

theorem Within.opIdOf (hw : run.Within) (hc : c ∈ run.commands) :
    c.opIdOf.Within run.currentRevision := by
  obtain ⟨hid, hpayload⟩ := hw.commands c hc
  unfold WorkflowCommand.opIdOf
  cases hop : c.payload.opId with
  | some id => exact hpayload.opId id hop
  | none =>
    refine ⟨?_, hid⟩
    cases hrevision : c.payload.revision with
    | none => exact Nat.zero_le _
    | some r => exact hpayload.revision r hrevision

theorem writes_failModelNode (hw : Q → run.Within) (hc : c ∈ run.commands)
    (h : run.failModelNode c (run.locateAnyRevision c.nodeId) = .ok run') : Writes Q run run' := by
  obtain ⟨closed, hclosed, h⟩ := ok_of_match h
  have hop : Write Q run closed := by
    refine .operation _ _ _ hclosed fun hq => ⟨(hw hq).opIdOf hc, ?_⟩
    intro r hr
    exact locateAnyRevision_le hr
  split at h
  · cases h
    exact hop.single
  · exact hop.single.trans (writes_closeNode h rfl)

theorem writes_inspectModelJob (hw : Q → run.Within) (hc : c ∈ run.commands)
    (h : run.inspectModelJob now c expectedGen = .ok (effect, run')) : Writes Q run run' := by
  exact writes_inconclusiveEffect (fun mid hmid => writes_failModelNode hw hc hmid) h

variable {envelopeJson : WorkerResultEnvelope → String} {db : Db}

theorem writes_inspectDispatch (hw : Q → run.Within)
    (hopen : run.NodeOpen run.currentRevision c.nodeId)
    (h : run.inspectDispatch envelopeJson now db c owner token expectedGen = .ok (effect, run')) :
    Writes Q run run' := by
  have hunobserved : ∀ {out}, run.inconclusiveEffect now c expectedGen (fun run' =>
      run'.setNodeOutcome run.currentRevision c.nodeId .failed
        (some (.text "observation_unknown")) none) true = .ok out → Writes Q run out.2 :=
    fun hout => writes_inconclusiveEffect (fun mid hmid => writes_closeNode hmid rfl) hout
  unfold inspectDispatch at h
  dsimp only at h
  split at h
  · exact writes_of_map_complete h
  split at h
  · cases h
    exact writes_releaseClaim _ _ _ run
  split at h
  · split at h
    · cases h
    · cases h
    split at h
    · cases h
    · rename_i stored hstored
      exact (writes_storedAcceptanceEffect hw hopen hstored).trans (writes_of_map_complete h)
  · split at h
    · split at h
      · exact hunobserved h
      split at h
      · cases h
        exact writes_releaseClaim _ _ _ run
      split at h
      · cases h
      rename_i settled hsettled
      obtain ⟨mid, hmid, hout⟩ := map_eq_ok.1 h
      cases hout
      exact (writes_closeNode hsettled rfl).trans (writes_completeCommand hmid)
    · split at h
      · cases h
        exact writes_noteInspection _ _ _ _ run
      · exact hunobserved h

/-- **What a look at a claim comes to**: nothing, unless the claim and the look are current; it is
completed where its node is closed, else its action says what is asked. -/
theorem claimExpiredEffect_cases
    (h : run.claimExpiredEffect envelopeJson now db key expectedGen = .ok (effect, run')) :
    (effect = .noChange ∧ run' = run) ∨ ∃ c owner token, run.commands.get key = some c ∧
      c.toCommandKey = key ∧ c.status = .claimed ∧ c.inspectGen + 1 = expectedGen ∧
      (effect = .noChange ∧ run.completeCommand key owner token = .ok run' ∧
          ¬ run.NodeOpen run.currentRevision key.nodeId ∨
        run.NodeOpen run.currentRevision key.nodeId ∧
          (match key.action with
            | .deliver => run.inspectDeliver c owner token
            | .review | .plan => run.inspectModelJob now c expectedGen
            | .dispatch | .notify =>
              run.inspectDispatch envelopeJson now db c owner token expectedGen) =
            .ok (effect, run')) := by
  unfold claimExpiredEffect at h
  split at h
  · cases h
    exact .inl ⟨rfl, rfl⟩
  rename_i c hc
  split at h
  · cases h
    exact .inl ⟨rfl, rfl⟩
  rename_i hclaimed
  split at h
  · rename_i owner token _ _
    split at h
    · cases h
      exact .inl ⟨rfl, rfl⟩
    rename_i hgen
    refine .inr ⟨c, owner, token, hc, Table.key_of_get hc, not_not.1 hclaimed,
      not_not.1 hgen, ?_⟩
    split at h
    · rename_i hfound
      obtain ⟨mid, hmid, hout⟩ := map_eq_ok.1 h
      cases hout
      obtain ⟨n, hn, hnot⟩ := (Option.any_eq_true _ _).1 hfound
      refine .inl ⟨rfl, hmid, fun hopen => ?_⟩
      simp [hopen n hn] at hnot
    · rename_i hclosed
      refine .inr ⟨fun n hn => ?_, h⟩
      by_contra hnot
      refine hclosed ?_
      rw [hn]
      simpa using hnot
  · cases h
    exact .inl ⟨rfl, rfl⟩

theorem writes_claimExpiredEffect (hw : Q → run.Within)
    (h : run.claimExpiredEffect envelopeJson now db key expectedGen = .ok (effect, run')) :
    Writes Q run run' := by
  rcases claimExpiredEffect_cases h with ⟨-, rfl⟩ |
    ⟨c, owner, token, hc, rfl, -, -, ⟨-, hmid, -⟩ | ⟨hopen, h⟩⟩
  · exact .refl
  · exact writes_completeCommand hmid
  · have hmem := Table.mem_of_get hc
    split at h
    · exact writes_inspectDeliver h
    · exact writes_inspectModelJob hw hmem h
    · exact writes_inspectModelJob hw hmem h
    · exact writes_inspectDispatch hw hopen h
    · exact writes_inspectDispatch hw hopen h

end Appliers

/-! ## Moves -/

/-- A statement, the commit of an applier, or a planning round opened against a budget that
counts rounds. -/
inductive Move : WorkflowRun → WorkflowRun → Prop
  | write {run run' : WorkflowRun} (h : Write True run run') : Move run run'
  | bump (run : WorkflowRun) (effect : TransitionEffect) : Move run (run.bump effect)
  | round {run paid ready run' : WorkflowRun} (scope : BudgetScope)
      (hscope : scope = .planRevision ∨ scope = .reviewRepair)
      (hpaid : run.consumeBudget scope = (true, paid)) (hready : Writes True paid ready)
      (key : CommandKey) (payload : CommandPayload)
      (hqueue : ready.queueCommand key payload = .ok run')
      (hid : key.nodeId.Within ready.currentRevision)
      (hpayload : payload.Within ready.currentRevision) : Move run run'

abbrev Moves : WorkflowRun → WorkflowRun → Prop := Relation.ReflTransGen Move

theorem Writes.moves {run run' : WorkflowRun} (h : Writes True run run') : Moves run run' :=
  h.lift id fun _ _ => Move.write

theorem Write.moves {run run' : WorkflowRun} (h : Write True run run') : Moves run run' :=
  Relation.ReflTransGen.single (.write h)

theorem consumeBudget_true {run run' : WorkflowRun} {scope : BudgetScope}
    (h : run.consumeBudget scope = (true, run')) :
    ((run.budgets.get scope).consumed : Int) < (run.budgets.get scope).allowed ∧
      run' = { run with budgets := run.budgets.set scope { run.budgets.get scope with
        consumed := (run.budgets.get scope).consumed + 1 } } := by
  unfold consumeBudget at h
  dsimp only at h
  split at h
  · rename_i hlt
    exact ⟨hlt, (Prod.mk.inj h).2.symm⟩
  · cases h

theorem consumeBudget_false {run run' : WorkflowRun} (h : run.consumeBudget scope = (false, run')) :
    run' = run ∧ (run.budgets.get scope).allowed ≤ (run.budgets.get scope).consumed := by
  unfold consumeBudget at h
  dsimp only at h
  split at h
  · cases h
  · exact ⟨(Prod.mk.inj h).2.symm, by omega⟩

theorem Within.consumeBudget {run paid : WorkflowRun} {ok : Bool}
    (hw : run.Within) (h : run.consumeBudget scope = (ok, paid)) :
    paid.Within ∧ paid.currentRevision = run.currentRevision := by
  have hpaid : paid = (run.consumeBudget scope).2 := by rw [h]
  rw [hpaid, consumeBudget_eq]
  exact ⟨{ hw with }, rfl⟩

theorem Within.queue {run run' : WorkflowRun} {key : CommandKey} {payload : CommandPayload}
    (hw : run.Within) (h : run.queueCommand key payload = .ok run')
    (hid : key.nodeId.Within run.currentRevision)
    (hpayload : payload.Within run.currentRevision) : run'.Within := by
  obtain ⟨commands, hinsert, rfl⟩ := queueCommand_ok h
  refine { hw with commands := ?_ }
  intro c hc
  rcases (Table.mem_insert hinsert).1 hc with hc | rfl
  · exact hw.commands c hc
  · exact ⟨hid, hpayload⟩

structure SameRun (run run' : WorkflowRun) : Prop where
  runId : run'.runId = run.runId
  rootCardId : run'.rootCardId = run.rootCardId
  generation : run'.generation = run.generation
  revisions : run'.revisions = run.revisions
  allowed : ∀ scope, (run'.budgets.get scope).allowed = (run.budgets.get scope).allowed

theorem SameRun.refl (run : WorkflowRun) : run.SameRun run := ⟨rfl, rfl, rfl, rfl, fun _ => rfl⟩

theorem SameRun.trans {a b c : WorkflowRun} (h : a.SameRun b) (h' : b.SameRun c) : a.SameRun c :=
  ⟨h'.runId.trans h.runId, h'.rootCardId.trans h.rootCardId, h'.generation.trans h.generation,
    h'.revisions.trans h.revisions, fun scope => (h'.allowed scope).trans (h.allowed scope)⟩

theorem SameHeader.sameRun {run run' : WorkflowRun} (h : run.SameHeader run') : run.SameRun run' :=
  ⟨congrArg WorkflowRunRow.runId h.row, congrArg WorkflowRunRow.rootCardId h.row, h.generation,
    h.revisions, h.allowed⟩

theorem sameRun_consumeBudget {run paid : WorkflowRun} {ok : Bool}
    (h : run.consumeBudget scope = (ok, paid)) : run.SameRun paid := by
  have hpaid : paid = (run.consumeBudget scope).2 := by rw [h]
  have hrest := consumeBudget_eq scope run
  rw [hpaid]
  exact ⟨by rw [hrest], by rw [hrest], by rw [hrest], by rw [hrest],
    fun scope' => allowed_consumeBudget scope scope' run⟩

theorem sameRun_queueCommand {run run' : WorkflowRun} {key : CommandKey} {payload : CommandPayload}
    (h : run.queueCommand key payload = .ok run') : run.SameRun run' := by
  obtain ⟨_, -, rfl⟩ := queueCommand_ok h
  exact ⟨rfl, rfl, rfl, rfl, fun _ => rfl⟩

theorem Move.sameRun {run run' : WorkflowRun} (h : Move run run') : run.SameRun run' := by
  cases h with
  | write h => exact h.sameHeader.sameRun
  | bump effect => exact ⟨rfl, rfl, rfl, rfl, fun _ => rfl⟩
  | round scope _ hpaid hready key payload hqueue _ _ =>
    exact ((sameRun_consumeBudget hpaid).trans hready.sameHeader.sameRun).trans
      (sameRun_queueCommand hqueue)

theorem Moves.sameRun {run run' : WorkflowRun} (h : Moves run run') : run.SameRun run' := by
  induction h with
  | refl => exact .refl _
  | tail _ h ih => exact ih.trans h.sameRun

theorem Move.within {run run' : WorkflowRun} (h : Move run run') (hw : run.Within) :
    run'.Within := by
  cases h with
  | write h => exact h.within (fun _ => hw) trivial
  | bump effect => exact { hw with }
  | round scope _ hpaid hready key payload hqueue hid hpayload =>
    have hready' := hready.within (fun _ => (hw.consumeBudget hpaid).1) trivial
    exact hready'.queue hqueue hid hpayload

theorem requireOwnedClaim_ok {run : WorkflowRun} {claim : ClaimAuthority} {c : WorkflowCommand}
    (h : run.requireOwnedClaim claim = .ok c) :
    run.commands.get claim.key = some c ∧ c.heldBy claim.owner claim.token = true := by
  unfold requireOwnedClaim at h
  split at h
  · rename_i c' hc'
    split at h
    · rename_i hheld
      cases h
      exact ⟨hc', hheld⟩
    · cases h
  · cases h

section Rounds

variable {opId : Option OpId}

variable {run run' : WorkflowRun} {effect : TransitionEffect} {claim : Option ClaimAuthority}

theorem moves_changesRequiredEffect {home judged : Nat} {nodeId : NodeId} {defects : List Defect}
    (hw : run.Within) (hhome : home ≤ run.currentRevision) (hjudged : judged ≤ run.currentRevision)
    (hid : nodeId.Within run.currentRevision)
    (h : run.changesRequiredEffect home judged nodeId defects claim = .ok (effect, run')) :
    Moves run run' := by
  unfold changesRequiredEffect at h
  split at h
  · rename_i mid hmid
    rw [(consumeBudget_false hmid).1] at h
    exact (writes_failReviewEffect (fun _ => hhome) (fun _ => hid) h).moves
  rename_i paid hpaid
  have hcurrent := (hw.consumeBudget hpaid).2
  obtain ⟨opened, hopened, h⟩ := ok_of_match h
  have hopen : Write True paid opened := by
    refine .operation _ _ _ hopened fun _ => ⟨hcurrent ▸ ⟨hjudged, hid⟩, ?_⟩
    intro r hr
    cases hr
    exact hcurrent ▸ hjudged
  have hopened' := hopen.sameHeader.currentRevision.trans hcurrent
  obtain ⟨queued, hqueued, h⟩ := ok_of_match h
  obtain ⟨final, hfinal, h⟩ := ok_of_match h
  cases h
  refine Relation.ReflTransGen.head (.round .reviewRepair (.inr rfl) hpaid hopen.single
    _ _ hqueued (hopened'.symm ▸ hid) ⟨?_, ?_⟩) (writes_settleClaim hfinal).moves
  · intro r hr
    cases hr
    exact hopened'.symm ▸ hjudged
  · intro id hid'
    cases hid'
    exact hopened'.symm ▸ ⟨hjudged, hid⟩

theorem moves_verdictEffect {home : Nat} {nodeId : NodeId} {verdict : ReviewVerdict}
    (hw : run.Within) (hhome : home ≤ run.currentRevision) (hid : nodeId.Within run.currentRevision)
    (h : run.verdictEffect home nodeId verdict claim = .ok (effect, run')) : Moves run run' := by
  obtain ⟨-, h⟩ := ok_of_check h
  split at h
  · exact (writes_malformedVerdictEffect (fun _ => hhome) (fun _ => hid) h).moves
  split at h
  · exact (writes_acceptedVerdictEffect (fun _ => hhome) (fun _ => le_rfl) (fun _ => hid) h).moves
  · exact (writes_failReviewEffect (fun _ => hhome) (fun _ => hid) h).moves
  · exact moves_changesRequiredEffect hw hhome le_rfl hid h
  · cases h

structure RoundWithin (run : WorkflowRun) (opId : Option OpId) (round : Option PlanRound) :
    Prop where
  opId : ∀ id, opId = some id → id.Within run.currentRevision
  nodeId : ∀ r, round = some r → r.nodeId.Within run.currentRevision
  payload : ∀ r, round = some r → r.payload.Within run.currentRevision

def roundOpId (run : WorkflowRun) (opId : Option OpId) (round : PlanRound) : OpId :=
  (round.payload.opId <|> opId).getD (.node run.currentRevision round.nodeId)

theorem RoundWithin.roundOpId {round : PlanRound} (h : run.RoundWithin opId (some round)) :
    (run.roundOpId opId round).Within run.currentRevision := by
  unfold WorkflowRun.roundOpId
  cases hpayload : round.payload.opId with
  | some id => exact (h.payload round rfl).opId id hpayload
  | none =>
    cases hop : opId with
    | some id => exact h.opId id hop
    | none => exact ⟨le_rfl, h.nodeId round rfl⟩

theorem requeueRound_ok {round : PlanRound} (h : run.requeueRound opId round = .ok run') : ∃ opened,
      (run.supersedeCommand ⟨run.generation, round.nodeId, .plan, round.ordinal⟩).upsertOperation
        ⟨run.roundOpId opId round, .planning, none, .pending⟩ = .ok opened ∧
      opened.queueCommand ⟨opened.generation, round.nodeId, .plan,
        opened.nextCommandOrdinal opened.generation round.nodeId .plan⟩ round.payload =
          .ok run' := by
  obtain ⟨opened, hopened, h⟩ := ok_of_match h
  exact ⟨opened, hopened, h⟩

theorem moves_rejectPlanRoundEffect {reason : String} {round : Option PlanRound} (hw : run.Within)
    (hround : run.claimHeld claim = .ok () → run.RoundWithin opId round)
    (h : run.rejectPlanRoundEffect reason opId round claim = .ok (effect, run')) :
    Moves run run' := by
  unfold rejectPlanRoundEffect at h
  split at h
  · cases h
  rename_i hheld
  replace hround := hround hheld
  split at h
  · rename_i mid hmid
    have hbudget : Writes True run mid := writes_consumeBudget hmid (by decide)
    obtain ⟨failed, hfailed, h⟩ := ok_of_match h
    cases h
    have hop : ∀ id, opId = some id → id.Within mid.currentRevision := by
      rw [hbudget.sameHeader.currentRevision]
      exact hround.opId
    exact Writes.moves ((hbudget.trans (writes_failOperation (fun _ => hop) hfailed)).trans
      (writes_supersedeClaim claim failed))
  · rename_i paid hpaid
    split at h
    · cases h
      exact Writes.moves ((writes_consumeBudget hpaid (by decide)).trans
        (writes_supersedeClaim claim paid))
    rename_i round
    obtain ⟨queued, hqueued, h⟩ := ok_of_match h
    cases h
    obtain ⟨opened, hopened, hqueue⟩ := requeueRound_ok hqueued
    have hcurrent := (hw.consumeBudget hpaid).2
    have hsupersede : Writes True paid _ := writes_supersedeCommand
      ⟨paid.generation, round.nodeId, .plan, round.ordinal⟩ paid
    have hid : (paid.roundOpId opId round).Within paid.currentRevision := by
      rw [WorkflowRun.roundOpId, hcurrent]
      exact hround.roundOpId
    have hready : Writes True paid opened := hsupersede.tail
      (.operation _ _ _ hopened fun _ => ⟨hsupersede.sameHeader.currentRevision.symm ▸ hid,
        by simp⟩)
    have hopened' := hready.sameHeader.currentRevision.trans hcurrent
    exact Relation.ReflTransGen.single (.round .planRevision (.inl rfl) hpaid hready _ _
      hqueue (hopened'.symm ▸ hround.nodeId round rfl)
      (hopened'.symm ▸ hround.payload round rfl))

end Rounds

section Admission

variable {revision generation : Nat} {key : CommandKey} {c : WorkflowCommand}

variable {run run' : WorkflowRun}

/-- A statement of an admission: besides those of the appliers, a new node or edge. -/
inductive Growth : WorkflowRun → WorkflowRun → Prop
  | write {run run' : WorkflowRun} (h : Write True run run') : Growth run run'
  | node {run run' : WorkflowRun} (row : NodeRow) (h : run.insertNode row = .ok run')
      (hrevision : row.revision ≤ run.currentRevision)
      (hid : row.nodeId.Within run.currentRevision) (hnamed : row.nodeId.IsOf row.revision) :
      Growth run run'
  | dep {run run' : WorkflowRun} (row : DepRow) (h : run.insertDep row = .ok run')
      (hrevision : row.revision ≤ run.currentRevision) : Growth run run'

abbrev Growths : WorkflowRun → WorkflowRun → Prop := Relation.ReflTransGen Growth

theorem Writes.growths (h : Writes True run run') : Growths run run' :=
  h.lift id fun _ _ => Growth.write

theorem insertNode_ok {row : NodeRow} (h : run.insertNode row = .ok run') :
    ∃ nodes, run.nodes.insert (fun _ => false) row = some nodes ∧ run' = { run with nodes } := by
  unfold insertNode at h
  split at h
  · cases h
  · rename_i nodes hinsert
    cases h
    exact ⟨nodes, hinsert, rfl⟩

theorem insertDep_ok {row : DepRow} (h : run.insertDep row = .ok run') :
    ∃ deps, run.deps.insert (fun _ => false) row = some deps ∧ run' = { run with deps } := by
  unfold insertDep at h
  split at h
  · cases h
  · rename_i deps hinsert
    cases h
    exact ⟨deps, hinsert, rfl⟩

theorem Growth.sameHeader (h : Growth run run') : run.SameHeader run' := by
  cases h with
  | write h => exact h.sameHeader
  | node row h _ _ _ =>
    obtain ⟨_, -, rfl⟩ := insertNode_ok h
    exact ⟨rfl, rfl, rfl, rfl, rfl, rfl, fun _ => rfl⟩
  | dep row h _ =>
    obtain ⟨_, -, rfl⟩ := insertDep_ok h
    exact ⟨rfl, rfl, rfl, rfl, rfl, rfl, fun _ => rfl⟩

theorem Growths.sameHeader (h : Growths run run') : run.SameHeader run' := by
  induction h with
  | refl => exact .refl _
  | tail _ h ih => exact ih.trans h.sameHeader

theorem Growth.within (h : Growth run run') (hw : run.Within) : run'.Within := by
  cases h with
  | write h => exact h.within (fun _ => hw) trivial
  | node row h hrevision hid hnamed =>
    obtain ⟨nodes, hinsert, rfl⟩ := insertNode_ok h
    refine { hw with nodes := fun n hn => ?_, named := fun n hn => ?_, delivered := ?_ }
    · rcases (Table.mem_insert hinsert).1 hn with hn | rfl
      · exact hw.nodes n hn
      · exact ⟨hrevision, hid⟩
    · rcases (Table.mem_insert hinsert).1 hn with hn | rfl
      · exact hw.named n hn
      · exact hnamed
    · intro d hd
      obtain ⟨n, hn, hclosed⟩ := hw.delivered d hd
      exact ⟨n, (Table.mem_insert hinsert).2 (.inl hn), hclosed⟩
  | dep row h hrevision =>
    obtain ⟨deps, hinsert, rfl⟩ := insertDep_ok h
    refine { hw with deps := ?_ }
    intro d hd
    rcases (Table.mem_insert hinsert).1 hd with hd | rfl
    · exact hw.deps d hd
    · exact hrevision

theorem Growths.within (h : Growths run run') (hw : run.Within) : run'.Within := by
  induction h with
  | refl => exact hw
  | tail _ h ih => exact h.within ih

theorem currentRevision_insertPlanRevision (plan : PlanProposal) (run : WorkflowRun) :
    (run.insertPlanRevision plan).currentRevision = run.currentRevision + 1 :=
  List.length_append

theorem Within.plan (hw : run.Within) (plan : PlanProposal) :
    (run.insertPlanRevision plan).Within := by
  have hle : run.currentRevision ≤ (run.insertPlanRevision plan).currentRevision := by
    rw [currentRevision_insertPlanRevision]
    omega
  refine ⟨fun n hn => ?_, fun d hd => (hw.deps d hd).trans hle, fun c hc => ?_,
    fun o ho => (hw.operations o ho).mono hle, hw.single, hw.named, hw.delivered⟩
  · exact ⟨(hw.nodes n hn).1.trans hle, (hw.nodes n hn).2.mono hle⟩
  · exact ⟨(hw.commands c hc).1.mono hle, (hw.commands c hc).2.mono hle⟩

theorem growths_foldlM {α : Type*} {f : WorkflowRun → α → Except WorkflowError WorkflowRun}
    {l : List α}
    (hf : ∀ mid a mid', a ∈ l → mid.currentRevision = run.currentRevision →
      f mid a = .ok mid' → Growth mid mid')
    (h : l.foldlM f run = .ok run') : Growths run run' := by
  refine foldlM_keeps (P := Growths run) (fun mid a mid' ha hmid hstep => ?_) .refl h
  exact hmid.tail (hf mid a mid' ha hmid.sameHeader.currentRevision hstep)

theorem growths_insertNodes {rows : List NodeRow} (h : run.insertNodes rows = .ok run')
    (hrows : ∀ n ∈ rows, n.revision ≤ run.currentRevision ∧
      n.nodeId.Within run.currentRevision ∧ n.nodeId.IsOf n.revision) : Growths run run' := by
  refine growths_foldlM (fun mid n mid' hn hcurrent hmid => ?_) h
  obtain ⟨hrevision, hid, hnamed⟩ := hrows n hn
  exact .node n hmid (hcurrent.symm ▸ hrevision) (hcurrent.symm ▸ hid) hnamed

theorem growths_insertDeps {rows : List DepRow} (h : run.insertDeps rows = .ok run')
    (hrows : ∀ d ∈ rows, d.revision ≤ run.currentRevision) : Growths run run' := by
  refine growths_foldlM (fun mid d mid' hd hcurrent hmid => ?_) h
  exact .dep d hmid (hcurrent.symm ▸ hrows d hd)

variable {plan : PlanProposal}

theorem mem_nodeRows {n : NodeRow} :
    n ∈ plan.nodeRows revision ↔ ∃ i p, plan.nodes[i]? = some p ∧
      n = newNode revision (.planned revision i) p.kind := by
  constructor
  · intro h
    obtain ⟨q, hq, rfl⟩ := List.mem_map.1 h
    obtain ⟨p, hp, rfl⟩ := List.mem_map.1 hq
    exact ⟨p.2, p.1, List.mem_zipIdx_iff_getElem?.1 hp, rfl⟩
  · rintro ⟨i, p, hp, rfl⟩
    refine List.mem_map.2 ⟨(p, .planned revision i), List.mem_map.2 ⟨(p, i), ?_, rfl⟩, rfl⟩
    exact List.mem_zipIdx_iff_getElem?.2 hp

theorem mem_depRows {d : DepRow} :
    d ∈ plan.depRows revision ↔ ∃ i p dep j, plan.nodes[i]? = some p ∧ dep ∈ p.dependsOn ∧
      plan.indexOf dep = some j ∧
      d = ⟨revision, .planned revision i, .planned revision j, false⟩ := by
  constructor
  · intro h
    obtain ⟨q, hq, hd⟩ := List.mem_flatMap.1 h
    obtain ⟨p, hp, rfl⟩ := List.mem_map.1 hq
    obtain ⟨dep, hdep, hrow⟩ := List.mem_filterMap.1 hd
    obtain ⟨j, hj, rfl⟩ := Option.map_eq_some_iff.1 hrow
    exact ⟨p.2, p.1, dep, j, List.mem_zipIdx_iff_getElem?.1 hp, hdep, hj, rfl⟩
  · rintro ⟨i, p, dep, j, hp, hdep, hj, rfl⟩
    refine List.mem_flatMap.2 ⟨(p, .planned revision i), List.mem_map.2 ⟨(p, i), ?_, rfl⟩, ?_⟩
    · exact List.mem_zipIdx_iff_getElem?.2 hp
    · exact List.mem_filterMap.2 ⟨dep, hdep, by simp [hj]⟩

theorem growths_appendHostReviewIfMissing (hrevision : revision ≤ run.currentRevision)
    (h : run.appendHostReviewIfMissing generation revision = .ok run') : Growths run run' := by
  unfold appendHostReviewIfMissing at h
  split at h
  · cases h
    exact .refl
  have hid : (NodeId.hostReview revision).Within run.currentRevision := hrevision
  obtain ⟨noded, hnoded, h⟩ := ok_of_match h
  have hnode : Growth run noded := .node _ hnoded hrevision hid rfl
  obtain ⟨depped, hdepped, h⟩ := ok_of_match h
  have hdeps : Growths noded depped := by
    refine growths_insertDeps hdepped fun d hd => ?_
    obtain ⟨n, -, rfl⟩ := List.mem_map.1 hd
    exact hnode.sameHeader.currentRevision.symm ▸ hrevision
  have hgrown : Growths run depped := Relation.ReflTransGen.head hnode hdeps
  split at h
  · cases h
    exact hgrown
  · have hcurrent := hgrown.sameHeader.currentRevision
    exact hgrown.trans (writes_queueForNode h (fun _ => hcurrent.symm ▸ hrevision)
      fun _ => hcurrent.symm ▸ hid).growths

/-- An admitted revision: the plan, and the rows it grows. -/
theorem growths_admitRevision (hw : run.Within) (h : run.admitRevision generation plan = .ok run') :
    Growths (run.insertPlanRevision plan) run' := by
  unfold admitRevision at h
  have hcurrent := currentRevision_insertPlanRevision plan run
  obtain ⟨noded, hnoded, h⟩ := ok_of_match h
  have hnodes : Growths (run.insertPlanRevision plan) noded := by
    refine growths_insertNodes hnoded fun n hn => ?_
    obtain ⟨i, p, -, rfl⟩ := mem_nodeRows.1 hn
    exact ⟨hcurrent.ge, hcurrent.ge, rfl⟩
  obtain ⟨depped, hdepped, h⟩ := ok_of_match h
  have hdeps : Growths noded depped := by
    refine growths_insertDeps hdepped fun d hd => ?_
    obtain ⟨i, p, dep, j, -, -, -, rfl⟩ := mem_depRows.1 hd
    exact (hnodes.sameHeader.currentRevision.trans hcurrent).ge
  have hgrown : Growths (run.insertPlanRevision plan) depped := hnodes.trans hdeps
  have hgrown' := hgrown.sameHeader.currentRevision.trans hcurrent
  have hdepped' : depped.Within := hgrown.within (hw.plan plan)
  obtain ⟨queued, hqueued, h⟩ := ok_of_match h
  have hqueue : Writes True depped queued := by
    refine writes_queueNodes hqueued (fun _ => hgrown'.ge) fun _ n hn => ?_
    exact (hdepped'.nodes n (mem_listNodes.1 (List.mem_of_mem_filter hn)).1).2
  have hqueued' := hqueue.sameHeader.currentRevision.trans hgrown'
  exact (hgrown.trans hqueue.growths).trans
    (growths_appendHostReviewIfMissing hqueued'.ge h)

/-! The commands that are there before an admission stay as they are. -/

theorem insertNodes_rest {rows : List NodeRow} (h : run.insertNodes rows = .ok run') :
    run' = { run with nodes := run'.nodes } := by
  refine foldlM_keeps (P := fun mid => mid = { run with nodes := mid.nodes })
    (fun mid row mid' _ hmid hstep => ?_) rfl h
  obtain ⟨nodes, -, rfl⟩ := insertNode_ok hstep
  rw [hmid]

theorem insertDeps_rest {rows : List DepRow} (h : run.insertDeps rows = .ok run') :
    run' = { run with deps := run'.deps } := by
  refine foldlM_keeps (P := fun mid => mid = { run with deps := mid.deps })
    (fun mid row mid' _ hmid hstep => ?_) rfl h
  obtain ⟨deps, -, rfl⟩ := insertDep_ok hstep
  rw [hmid]

theorem admitProposalEffect_ok {proposal : PlanProposal} {opts : ProposalOpts}
    {effect : TransitionEffect} (h : run.admitProposalEffect proposal opts = .ok (effect, run')) :
    effect = .enter .dispatched ∧ run.claimHeld opts.claim = .ok () ∧ ∃ ready grown closed,
      Writes True run ready ∧ ready.admitRevision ready.generation proposal = .ok grown ∧
      grown.succeedOperation opts.opId (run.currentRevision + 1) = .ok closed ∧
      closed.settleClaim opts.claim = .ok run' := by
  obtain ⟨hheld, h⟩ := ok_of_check h
  obtain ⟨ready, hready, h⟩ := ok_of_match h
  obtain ⟨grown, hgrown, h⟩ := ok_of_match h
  obtain ⟨closed, hclosed, h⟩ := ok_of_match h
  obtain ⟨final, hfinal, h⟩ := ok_of_match h
  cases h
  exact ⟨rfl, hheld, ready, grown, closed,
    (writes_cancelPriorNodes _ _ run).trans (writes_completeAuthor hready), hgrown,
    hclosed, hfinal⟩

end Admission

end WorkflowRun

end Abtars
