import Abtars.Workflow.Endings
import Abtars.Workflow.Ingress
import Abtars.Workflow.Revisions
import Abtars.Workflow.Traces

/-!
# The inspections of a claim

The audit looks at a claim under an event that is named by the token and the number of the look.
A look that finds the claim over closes it; one that does not counts itself and schedules the
next.  The fifth in a row that finds nothing out does neither, and its event is consumed.
-/

namespace Abtars

open Lib

/-! ## Operations -/

namespace WorkflowLedger

variable (host : RunnerHost) (digest : IngressPayload → String)

/-- `findCommandByToken`, with the run the command is of. -/
def findCommandByToken (token : Nat) (s : WorkflowLedger) : Option (String × WorkflowCommand) :=
  s.runs.rows.findSome? fun run => (run.findCommandByToken token).map (run.runId, ·)

def inspectionEvent (run : WorkflowRun) (token : Nat) (key : CommandKey) (gen : Nat) :
    RunnerIngress where
  eventId := .inspect token gen
  runId := run.runId
  payloadHash := digest (.claimExpired key gen)
  payload := .claimExpired key gen
  generation := run.generation
  stateVersion := run.stateVersion

def submitClaimInspection (now : Millis) (runId : String) (token gen : Nat) (s : WorkflowLedger) :
    Except IngressError CommitResult × WorkflowLedger :=
  match s.getRun runId with
  | none => (.error (.runMissing runId), s)
  | some run =>
    match (s.findCommandByToken token).filter (·.1 = runId) with
    | none => (.error (.applier .claimTokenUnknown), s)
    | some (_, c) => s.commitTransition (inspectionEvent digest run token c.toCommandKey gen)
        ((RunnerEvent.claimExpired now c.toCommandKey gen).apply host)

end WorkflowLedger

inductive InspectionCall
  | inspect (now : Millis) (runId : String) (token gen : Nat)
  | call (runId : String) (op : WorkflowOp)

namespace WorkflowLedger

variable (host : RunnerHost) (digest : IngressPayload → String)

/-- The other operations commit under ids no look has, so that their events are left out. -/
def inspectionStep (s : WorkflowLedger) : InspectionCall → WorkflowLedger
  | .inspect now runId token gen => (s.submitClaimInspection host digest now runId token gen).2
  | .call runId op =>
    match s.getRun runId with
    | none => s
    | some run => s.writeBack (workflowStep host (s.view run) op)

end WorkflowLedger

/-! ## What is wanted of a look -/

structure WorkflowCommand.Advances (now : Millis) (c c' : WorkflowCommand) : Prop where
  gen : c'.inspectGen = c.inspectGen + 1
  scheduled : ∃ next, c'.nextInspectionAt = some next ∧ now < next ∧
    ∀ due ∈ c.nextInspectionAt, due ≤ now → due < next
  counted : c'.consecutiveInconclusive = 0 ∨
    c'.consecutiveInconclusive = c.consecutiveInconclusive + 1 ∧
      c'.consecutiveInconclusive < maxConsecutiveInconclusive

namespace WorkflowRun

def Progressed (now : Millis) (c : WorkflowCommand) (run' : WorkflowRun) : Prop :=
  ∃ c', run'.commands.get c.toCommandKey = some c' ∧
    (c'.status ≠ .claimed ∨ c.Advances now c')

/-- Does a look at the claim find nothing out?  A model job is never observed; a worker is not
whose attempt runs without a fresh lease. -/
def unobserved (now : Millis) (db : Db) (c : WorkflowCommand) (run : WorkflowRun) : Bool :=
  match c.action with
  | .deliver => false
  | .review | .plan => true
  | .dispatch | .notify =>
    ((run.findNode run.currentRevision c.nodeId).bind fun node =>
      node.workerCardId.bind (latestAttempt db)).any fun latest =>
        if latest.lifecycle.isTerminal then
          latest.lifecycle ≠ .completed ∧ c.claimedAt.isNone
        else latest.lifecycle ≠ .pending ∧ leaseFresh now db latest.id = false

structure Capped (now : Millis) (db : Db) (c : WorkflowCommand) (run : WorkflowRun) : Prop where
  atCap : AtCap c
  nodeOpen : run.NodeOpen run.currentRevision c.nodeId
  unobserved : run.unobserved now db c = true

end WorkflowRun

namespace WorkflowLedger

variable (host : RunnerHost) (digest : IngressPayload → String)

def Inspectable (s : WorkflowLedger) : Prop :=
  ∀ runId run, s.getRun runId = some run → ∀ c ∈ run.commands, c.status = .claimed →
    ∃ token, c.claimToken = some token ∧
      s.ingress.get (.inspect token (c.inspectGen + 1)) = none

structure Claims (s : WorkflowLedger) (runId : String) (token : Nat) (run : WorkflowRun)
    (c : WorkflowCommand) : Prop where
  found : s.getRun runId = some run
  mem : c ∈ run.commands
  claimed : c.status = .claimed
  token : c.claimToken = some token

/-- A look that is taken closes the claim or is counted, and its successor stays free. -/
structure InspectionLaws (s : WorkflowLedger) (call : InspectionCall) : Prop where
  progress : ∀ now runId token gen, call = .inspect now runId token gen →
    ∀ run c, s.Claims runId token run c → c.inspectGen + 1 = gen →
      (s.submitClaimInspection host digest now runId token gen).1.isOk = true →
      ∃ run', (s.inspectionStep host digest call).getRun runId = some run' ∧
        run'.Progressed now c
  inspectable : (s.inspectionStep host digest call).Inspectable

/-- No look comes before its turn, and none is the fifth in a row that finds nothing out. -/
def Timely (s : WorkflowLedger) : InspectionCall → Prop
  | .inspect now runId token gen => ∀ run c, s.Claims runId token run c →
      gen ≤ c.inspectGen + 1 ∧ (gen = c.inspectGen + 1 → ¬ run.Capped now s.db c)
  | .call _ _ => True

end WorkflowLedger

/-! ## One look -/

namespace WorkflowRun

section OneLook

variable {envelopeJson : WorkerResultEnvelope → String}

variable {run run' : WorkflowRun} {c : WorkflowCommand} {now : Millis} {db : Db} {gen : Nat}
  {owner : String} {token : Nat} {effect : TransitionEffect}

theorem progressed_of_complete (h : run.completeCommand c.toCommandKey owner token = .ok run') :
    run'.Progressed now c := by
  obtain ⟨⟨d, hd, -⟩, rfl⟩ := completeCommand_ok h
  refine ⟨d.close .done, ?_, .inl (by simp [WorkflowCommand.close])⟩
  rw [Table.get_modify_same, hd]
  rfl

theorem progressed_of_map_complete {α : Type*} {a : α} {out : α × WorkflowRun}
    (h : (run.completeCommand c.toCommandKey owner token).map (fun run => (a, run)) = .ok out) :
    out.2.Progressed now c := by
  obtain ⟨closed, hclosed, rfl⟩ := map_eq_ok.1 h
  exact progressed_of_complete hclosed

theorem progressed_of_release (hc : run.commands.get c.toCommandKey = some c)
    (hheld : c.heldBy owner token = true) :
    (run.releaseClaim c.toCommandKey owner token).Progressed now c := by
  refine ⟨c.release, ?_, .inl (by simp [WorkflowCommand.release])⟩
  unfold releaseClaim
  simp only [hc, hheld, if_true]
  rw [Table.get_modify_same, hc]
  rfl

theorem progressed_of_inspected {inconclusive : Nat}
    (hc : run.commands.get c.toCommandKey = some c) (hgen : c.inspectGen + 1 = gen)
    (hcount : inconclusive = 0 ∨ inconclusive = c.consecutiveInconclusive + 1 ∧
      inconclusive < maxConsecutiveInconclusive) :
    (run.noteInspectionInconclusive c.toCommandKey gen inconclusive
      (now + claimLease)).Progressed now c := by
  have hlater : now < now + claimLease := lt_add_of_pos_right now (by decide)
  refine ⟨c.inspected gen inconclusive (now + claimLease), ?_, .inr ?_⟩
  · unfold noteInspectionInconclusive
    rw [Table.get_modify_same, hc]
    rfl
  · refine ⟨hgen.symm, ⟨now + claimLease, rfl, hlater, fun due _ hdue => ?_⟩, hcount⟩
    exact lt_of_le_of_lt hdue hlater

theorem inconclusiveEffect_progresses {onMax : WorkflowRun → Except WorkflowError WorkflowRun}
    {unknown : Bool} (hc : run.commands.get c.toCommandKey = some c) (hgen : c.inspectGen + 1 = gen)
    (hbelow : ¬ AtCap c) (h : run.inconclusiveEffect now c gen onMax unknown = .ok (effect, run')) :
    run'.Progressed now c := by
  unfold inconclusiveEffect at h
  dsimp only at h
  split at h
  · rename_i hcap
    exact absurd hcap hbelow
  · rename_i hcount
    cases h
    exact progressed_of_inspected hc hgen (.inr ⟨rfl, not_le.1 hcount⟩)

theorem inspectDeliver_progresses (hc : run.commands.get c.toCommandKey = some c)
    (hheld : c.heldBy owner token = true)
    (h : run.inspectDeliver c owner token = .ok (effect, run')) : run'.Progressed now c := by
  unfold inspectDeliver at h
  split at h
  · exact progressed_of_map_complete h
  split at h
  · cases h
    exact progressed_of_release hc hheld
  · split at h
    · cases h
    · exact progressed_of_map_complete h

theorem inspectDispatch_progresses (haction : c.action = .dispatch ∨ c.action = .notify)
    (hc : run.commands.get c.toCommandKey = some c) (hheld : c.heldBy owner token = true)
    (hgen : c.inspectGen + 1 = gen) (hfine : run.unobserved now db c = true → ¬ AtCap c)
    (h : run.inspectDispatch envelopeJson now db c owner token gen = .ok (effect, run')) :
    run'.Progressed now c := by
  unfold inspectDispatch at h
  dsimp only at h
  split at h
  · exact progressed_of_map_complete h
  rename_i node hnode
  split at h
  · cases h
    exact progressed_of_release hc hheld
  rename_i latest hlatest
  -- which looks find nothing out, now that the attempt is known
  have hvain : run.unobserved now db c = (if latest.lifecycle.isTerminal then
      decide (latest.lifecycle ≠ .completed ∧ c.claimedAt.isNone)
      else decide (latest.lifecycle ≠ .pending ∧ leaseFresh now db latest.id = false)) := by
    unfold unobserved
    rcases haction with haction | haction <;> simp [haction, hnode, hlatest]
  split at h
  · split at h
    · cases h
    · cases h
    · split at h
      · cases h
      · exact progressed_of_map_complete h
  · rename_i hcompleted
    split at h
    · rename_i hterminal
      split at h
      · rename_i hnever
        refine inconclusiveEffect_progresses hc hgen (hfine ?_) h
        rw [hvain, if_pos hterminal]
        simp [hcompleted, hnever]
      split at h
      · cases h
        exact progressed_of_release hc hheld
      split at h
      · cases h
      · obtain ⟨closed, hclosed, hout⟩ := map_eq_ok.1 h
        cases hout
        exact progressed_of_complete hclosed
    · rename_i hactive
      split at h
      · cases h
        exact progressed_of_inspected hc hgen (.inl rfl)
      rename_i hstale
      refine inconclusiveEffect_progresses hc hgen (hfine ?_) h
      rw [hvain, if_neg hactive]
      simpa using hstale

/-- **A look in its turn closes the claim or is counted, unless it is the fifth in a row that
finds nothing out.** -/
theorem claimExpiredEffect_progresses
    (hc : run.commands.get c.toCommandKey = some c) (hheld : c.heldBy owner token = true)
    (hgen : c.inspectGen + 1 = gen) (hfine : ¬ run.Capped now db c)
    (h : run.claimExpiredEffect envelopeJson now db c.toCommandKey gen = .ok (effect, run')) :
    run'.Progressed now c := by
  obtain ⟨hclaimed, howner, htoken⟩ := heldBy_iff.1 hheld
  unfold claimExpiredEffect at h
  simp only [hc, hclaimed, howner, htoken, hgen, ne_eq, not_true_eq_false, if_false] at h
  split at h
  · exact progressed_of_map_complete h
  rename_i hclosed
  have hopen : run.NodeOpen run.currentRevision c.nodeId := by
    intro n hn
    by_contra hnot
    refine hclosed ?_
    rw [hn]
    simpa using hnot
  have hbelow : run.unobserved now db c = true → ¬ AtCap c :=
    fun hvain hcap => hfine ⟨hcap, hopen, hvain⟩
  split at h
  · exact inspectDeliver_progresses hc hheld h
  · rename_i haction
    exact inconclusiveEffect_progresses hc hgen (hbelow (by simp [unobserved, haction])) h
  · rename_i haction
    exact inconclusiveEffect_progresses hc hgen (hbelow (by simp [unobserved, haction])) h
  · rename_i haction
    exact inspectDispatch_progresses (.inl haction) hc hheld hgen hbelow h
  · rename_i haction
    exact inspectDispatch_progresses (.inr haction) hc hheld hgen hbelow h

theorem commands_failModelNode {home : Option Nat} (h : run.failModelNode c home = .ok run') :
    run'.commands = run.commands := by
  unfold failModelNode at h
  obtain ⟨closed, hclosed, h⟩ := ok_of_match h
  have hop : closed.commands = run.commands := by rw [upsertOperation_rest hclosed]
  split at h
  · cases h
    exact hop
  · obtain ⟨-, rfl⟩ := setNodeOutcome_ok h
    exact hop

theorem inconclusiveEffect_capped {onMax : WorkflowRun → Except WorkflowError WorkflowRun}
    {unknown : Bool} (hcap : AtCap c)
    (honMax : ∀ mid, onMax run = .ok mid → mid.commands = run.commands)
    (h : run.inconclusiveEffect now c gen onMax unknown = .ok (effect, run')) :
    run'.commands = run.commands := by
  unfold inconclusiveEffect at h
  rw [if_pos (show maxConsecutiveInconclusive ≤ c.consecutiveInconclusive + 1 from hcap)] at h
  obtain ⟨mid, hmid, h⟩ := ok_of_match h
  split at h <;> cases h <;> exact honMax _ hmid

theorem inspectDispatch_capped (haction : c.action = .dispatch ∨ c.action = .notify)
    (hcap : AtCap c) (hvain : run.unobserved now db c = true)
    (h : run.inspectDispatch envelopeJson now db c owner token gen = .ok (effect, run')) :
    run'.commands = run.commands := by
  have hlost : ∀ {effect run'}, run.inconclusiveEffect now c gen (fun mid =>
      mid.setNodeOutcome run.currentRevision c.nodeId .failed
        (some (.text "observation_unknown")) none) true = .ok (effect, run') →
      run'.commands = run.commands := fun hout =>
    inconclusiveEffect_capped hcap (fun mid hmid => by
      obtain ⟨-, rfl⟩ := setNodeOutcome_ok hmid
      rfl) hout
  have hany : ((run.findNode run.currentRevision c.nodeId).bind fun node =>
      node.workerCardId.bind (latestAttempt db)).any (fun latest =>
        if latest.lifecycle.isTerminal then
          latest.lifecycle ≠ .completed ∧ c.claimedAt.isNone
        else latest.lifecycle ≠ .pending ∧ leaseFresh now db latest.id = false) = true := by
    unfold unobserved at hvain
    rcases haction with haction | haction <;> simpa only [haction] using hvain
  unfold inspectDispatch at h
  dsimp only at h
  split at h
  · rename_i hnode
    simp [hnode] at hany
  rename_i node hnode
  split at h
  · rename_i hlatest
    simp [hnode, hlatest] at hany
  rename_i latest hlatest
  simp only [hnode, Option.bind_some, hlatest, Option.any_some] at hany
  split at h
  · rename_i hcompleted
    simp [hcompleted, AttemptLifecycle.isTerminal] at hany
  split at h
  · rename_i hterminal
    rw [if_pos hterminal] at hany
    split at h
    · exact hlost h
    · rename_i claimedAt hclaimed
      simp [hclaimed] at hany
  · rename_i hactive
    rw [if_neg hactive] at hany
    split at h
    · rename_i hfresh
      rcases hfresh with hpending | hfresh
      · simp [hpending] at hany
      · simp [hfresh] at hany
    · exact hlost h

theorem claimExpiredEffect_capped
    (hc : run.commands.get c.toCommandKey = some c) (hheld : c.heldBy owner token = true)
    (hgen : c.inspectGen + 1 = gen) (hcapped : run.Capped now db c)
    (h : run.claimExpiredEffect envelopeJson now db c.toCommandKey gen = .ok (effect, run')) :
    run'.commands = run.commands := by
  obtain ⟨hclaimed, howner, htoken⟩ := heldBy_iff.1 hheld
  unfold claimExpiredEffect at h
  simp only [hc, hclaimed, howner, htoken, hgen, ne_eq, not_true_eq_false, if_false] at h
  split at h
  · rename_i hclosed
    obtain ⟨n, hn, hnot⟩ := (Option.any_eq_true _ _).1 hclosed
    simp [hcapped.nodeOpen n hn] at hnot
  split at h
  · rename_i haction
    have hvain := hcapped.unobserved
    simp [unobserved, haction] at hvain
  · exact inconclusiveEffect_capped hcapped.atCap (fun _ => commands_failModelNode) h
  · exact inconclusiveEffect_capped hcapped.atCap (fun _ => commands_failModelNode) h
  · rename_i haction
    exact inspectDispatch_capped (.inl haction) hcapped.atCap hcapped.unobserved h
  · rename_i haction
    exact inspectDispatch_capped (.inr haction) hcapped.atCap hcapped.unobserved h

end OneLook

end WorkflowRun

/-! ## The looks at a claim are consumed in order -/

namespace RunView

/-- The tokens of a run are its own, and of the looks under the token of a claim only those up to
its count are used up.  `taken` says which tokens other runs hold, `seen` which looks are used. -/
structure Watched (taken : Nat → Prop) (seen : Nat → Nat → Prop) (v : RunView) : Prop where
  held : ∀ key c, v.run.commands.get key = some c → c.status = .claimed →
    (∃ owner, c.owner = some owner) ∧ ∃ token, c.claimToken = some token
  minted : ∀ key c token, v.run.commands.get key = some c → c.claimToken = some token →
    token < v.minted ∧ ¬ taken token
  distinct : ∀ key key' c c' token, v.run.commands.get key = some c →
    v.run.commands.get key' = some c' → c.claimToken = some token →
    c'.claimToken = some token → key = key'
  taken : ∀ token, taken token → token < v.minted
  seen : ∀ token gen, seen token gen → token < v.minted ∧ ∀ key c,
    v.run.commands.get key = some c → c.status = .claimed → c.claimToken = some token →
    gen ≤ c.inspectGen

section Watched

variable {w : RunStatement} {c' : WorkflowCommand}

variable {A : RunStatement → Prop} {asks : Prop} {v v' : RunView} {taken : Nat → Prop}
  {seen : Nat → Nat → Prop}

theorem turns_claimed {c : WorkflowCommand} (h : WorkflowRun.Turns w c c')
    (hclaimed : c'.status = .claimed) : c.status = .claimed ∧ c'.owner = c.owner ∧
      c'.claimToken = c.claimToken ∧ c.inspectGen ≤ c'.inspectGen := by
  cases h with
  | same => exact ⟨hclaimed, rfl, rfl, le_refl _⟩
  | completed _ _ _ _ => cases hclaimed
  | released _ _ _ _ => cases hclaimed
  | dropped _ _ hstatus _ _ => cases hstatus.symm.trans hclaimed
  | inspected gen inconclusive next _ hwas hgen =>
    refine ⟨hwas, rfl, rfl, ?_⟩
    show c.inspectGen ≤ gen
    omega

theorem turns_token {c : WorkflowCommand} (h : WorkflowRun.Turns w c c')
    {token : Nat} (htoken : c'.claimToken = some token) : c.claimToken = some token := by
  cases h with
  | released _ _ _ _ => cases htoken
  | dropped _ _ _ _ hsame => exact hsame.symm.trans htoken
  | _ => exact htoken

theorem executes_token {run run' : WorkflowRun} (h : WorkflowRun.Executes w run run')
    {key : CommandKey} (hc' : run'.commands.get key = some c')
    (hheld : c'.status = .claimed ∨ ∃ token, c'.claimToken = some token) :
    ∃ c, run.commands.get key = some c ∧ WorkflowRun.Turns w c c' := by
  rcases h.command_origin hc' with ⟨payload, -, -, rfl⟩ | hturned
  · rcases hheld with hclaimed | ⟨token, htoken⟩
    · cases hclaimed
    · cases htoken
  · exact hturned

theorem Watched.row {w : RunStatement} {run' : WorkflowRun}
    (hexec : WorkflowRun.Executes w v.run run') (hv : v.Watched taken seen) :
    ({ v with run := run' } : RunView).Watched taken seen where
  held := by
    intro key c' hc' hclaimed
    obtain ⟨c, hc, hturns⟩ := executes_token hexec hc' (.inl hclaimed)
    obtain ⟨hwas, howner, htoken, -⟩ := turns_claimed hturns hclaimed
    rw [howner, htoken]
    exact hv.held key c hc hwas
  minted := by
    intro key c' token hc' htoken
    obtain ⟨c, hc, hturns⟩ := executes_token hexec hc' (.inr ⟨token, htoken⟩)
    exact hv.minted key c token hc (turns_token hturns htoken)
  distinct := by
    intro key key' c' d' token hc' hd' htoken htoken'
    obtain ⟨c, hc, hturns⟩ := executes_token hexec hc' (.inr ⟨token, htoken⟩)
    obtain ⟨d, hd, hturns'⟩ := executes_token hexec hd' (.inr ⟨token, htoken'⟩)
    exact hv.distinct key key' c d token hc hd (turns_token hturns htoken)
      (turns_token hturns' htoken')
  taken := hv.taken
  seen := by
    intro token gen hseen
    refine ⟨(hv.seen token gen hseen).1, fun key c' hc' hclaimed htoken => ?_⟩
    obtain ⟨c, hc, hturns⟩ := executes_token hexec hc' (.inl hclaimed)
    obtain ⟨hwas, -, hsame, hgen⟩ := turns_claimed hturns hclaimed
    exact le_trans ((hv.seen token gen hseen).2 key c hc hwas (hsame ▸ htoken)) hgen

/-- A claim is made under a fresh token. -/
theorem Watched.claim {key : CommandKey} {owner : String} {now : Millis} {run' : WorkflowRun}
    (h : v.run.claimCommand key owner v.minted now = some run') (hv : v.Watched taken seen) :
    ({ v with run := run', minted := v.minted + 1 } : RunView).Watched taken seen := by
  obtain ⟨⟨d, hd, -⟩, rfl⟩ := WorkflowRun.claimCommand_some h
  have hcases : ∀ key' c', (v.run.commands.modify key
      (WorkflowCommand.claim owner v.minted now)).get key' = some c' →
      (key' = key ∧ c' = d.claim owner v.minted now) ∨ v.run.commands.get key' = some c' := by
    intro key' c' hc'
    rw [Table.get_modify] at hc'
    split at hc'
    · rename_i hkey
      rw [hkey, hd] at hc'
      exact .inl ⟨hkey, (Option.some.inj hc').symm⟩
    · exact .inr hc'
  have hfresh : ∀ key' c' token, v.run.commands.get key' = some c' →
      c'.claimToken = some token → token ≠ v.minted :=
    fun key' c' token hc' htoken => (hv.minted key' c' token hc' htoken).1.ne
  refine ⟨?_, ?_, ?_, ?_, ?_⟩
  · intro key' c' hc' hclaimed
    rcases hcases key' c' hc' with ⟨-, rfl⟩ | hold
    · exact ⟨⟨owner, rfl⟩, v.minted, rfl⟩
    · exact hv.held key' c' hold hclaimed
  · intro key' c' token hc' htoken
    rcases hcases key' c' hc' with ⟨-, rfl⟩ | hold
    · cases htoken
      exact ⟨Nat.lt_succ_self _, fun htaken => Nat.lt_irrefl _ (hv.taken _ htaken)⟩
    · obtain ⟨hlt, hnot⟩ := hv.minted key' c' token hold htoken
      exact ⟨Nat.lt_succ_of_lt hlt, hnot⟩
  · intro key' key'' c' d' token hc' hd' htoken htoken'
    rcases hcases key' c' hc' with ⟨hkey, rfl⟩ | hold
    · rcases hcases key'' d' hd' with ⟨hkey', -⟩ | hold'
      · exact hkey.trans hkey'.symm
      · cases htoken
        exact absurd rfl (hfresh key'' d' _ hold' htoken')
    rcases hcases key'' d' hd' with ⟨-, rfl⟩ | hold'
    · cases htoken'
      exact absurd rfl (hfresh key' c' _ hold htoken)
    · exact hv.distinct key' key'' c' d' token hold hold' htoken htoken'
  · exact fun token htaken => Nat.lt_succ_of_lt (hv.taken token htaken)
  · intro token gen hseen
    obtain ⟨hlt, hgen⟩ := hv.seen token gen hseen
    refine ⟨Nat.lt_succ_of_lt hlt, fun key' c' hc' hclaimed htoken => ?_⟩
    rcases hcases key' c' hc' with ⟨-, rfl⟩ | hold
    · cases htoken
      exact absurd hlt (Nat.lt_irrefl _)
    · exact hgen key' c' hold hclaimed htoken

theorem Watched.mint (hv : v.Watched taken seen) (inputs : Table InputRequest) (db : Db) (n : Nat) :
    (⟨v.run, inputs, db, v.minted + n⟩ : RunView).Watched taken seen where
  held := hv.held
  minted := fun key c token hc htoken =>
    ⟨Nat.lt_add_right n (hv.minted key c token hc htoken).1, (hv.minted key c token hc htoken).2⟩
  distinct := hv.distinct
  taken := fun token htaken => Nat.lt_add_right n (hv.taken token htaken)
  seen := fun token gen hseen =>
    ⟨Nat.lt_add_right n (hv.seen token gen hseen).1, (hv.seen token gen hseen).2⟩

theorem watched_makes (h : Makes A asks v v') (hv : v.Watched taken seen) :
    v'.Watched taken seen := by
  cases h with
  | row _ hexec => exact hv.row hexec
  | claim _ hclaim => exact hv.claim hclaim
  | ask => exact hv.mint _ _ 1
  | _ => exact hv.mint _ _ 0

theorem name_makes (h : Makes A asks v v') : v'.run.runId = v.run.runId ∧ v.minted ≤ v'.minted := by
  cases h with
  | row _ hexec => exact ⟨hexec.sameName.1, le_refl _⟩
  | claim _ hclaim =>
    obtain ⟨-, rfl⟩ := WorkflowRun.claimCommand_some hclaim
    exact ⟨rfl, Nat.le_succ _⟩
  | ask => exact ⟨rfl, Nat.le_succ _⟩
  | _ => exact ⟨rfl, le_refl _⟩

theorem name_trace (h : Trace A asks v v') : v'.run.runId = v.run.runId ∧ v.minted ≤ v'.minted :=
  h.keeps (P := fun u => u.run.runId = v.run.runId ∧ v.minted ≤ u.minted)
    (fun _ _ hmakes hu => ⟨(name_makes hmakes).1.trans hu.1, hu.2.trans (name_makes hmakes).2⟩)
    ⟨rfl, le_refl _⟩

end Watched

end RunView

namespace WorkflowLedger

section Store

variable {token : Nat}

variable {host : RunnerHost} {digest : IngressPayload → String} {s s' : WorkflowLedger}
  {runId : String} {run : WorkflowRun}

def taken (s : WorkflowLedger) (runId : String) (token : Nat) : Prop :=
  ∃ other run, other ≠ runId ∧ s.getRun other = some run ∧
    ∃ key c, run.commands.get key = some c ∧ c.claimToken = some token

def seen (s : WorkflowLedger) (token gen : Nat) : Prop :=
  ∃ row, s.ingress.get (.inspect token gen) = some row

def Watched (s : WorkflowLedger) : Prop :=
  ∀ runId run, s.getRun runId = some run →
    (s.view run).Watched (s.taken runId) s.seen

theorem inspectable_of_watched (hs : s.Watched) : s.Inspectable := by
  intro runId run hrun c hc hclaimed
  have hv := hs runId run hrun
  have hget : (s.view run).run.commands.get c.toCommandKey = some c := Table.get_key_of_mem hc
  obtain ⟨-, token, htoken⟩ := hv.held _ c hget hclaimed
  refine ⟨token, htoken, ?_⟩
  by_contra hrow
  obtain ⟨row, hrow⟩ := Option.ne_none_iff_exists'.1 hrow
  have := (hv.seen token _ ⟨row, hrow⟩).2 _ c hget hclaimed htoken
  omega

/-- A step on one run: its own rows are watched, and the events it adds are for tokens it held. -/
theorem Watched.writeBack {v : RunView} (hs : s.Watched) (hrun : s.getRun runId = some run)
    (hid : v.run.runId = runId) (hruns : s'.runs = s.runs.put v.run) (hminted : s'.minted = v.minted)
    (hle : s.minted ≤ v.minted) (hv : v.Watched (s.taken runId) s'.seen)
    (hseen : ∀ token gen, s'.seen token gen → s.seen token gen ∨
      ∃ key c, run.commands.get key = some c ∧ c.claimToken = some token) : s'.Watched := by
  have hget : ∀ other, s'.getRun other = if other = runId then some v.run else s.getRun other := by
    intro other
    rw [getRun, hruns, Table.get_put]
    simp only [key_workflowRun, hid]
    rfl
  have hbelow : ∀ {token : Nat} {u : WorkflowRun}, token < v.minted →
      token < (s'.view u).minted := by
    intro token u hlt
    show token < s'.minted
    rwa [hminted]
  intro other run' hrun'
  rw [hget] at hrun'
  split at hrun'
  · rename_i hother
    cases hrun'
    refine ⟨hv.held, fun key c token hc htoken => ?_, hv.distinct, ?_, ?_⟩
    · obtain ⟨hlt, hnot⟩ := hv.minted key c token hc htoken
      refine ⟨hbelow hlt, ?_⟩
      rintro ⟨third, run', hne, hrun', hheld⟩
      rw [hget, if_neg (hother ▸ hne)] at hrun'
      exact hnot ⟨third, run', hother ▸ hne, hrun', hheld⟩
    · rintro token ⟨third, run', hne, hrun', hheld⟩
      rw [hget, if_neg (hother ▸ hne)] at hrun'
      exact hbelow (hv.taken token ⟨third, run', hother ▸ hne, hrun', hheld⟩)
    · intro token gen hs'
      exact ⟨hbelow (hv.seen token gen hs').1, (hv.seen token gen hs').2⟩
  · rename_i hother
    have hold := hs other run' hrun'
    have hmine : ∀ key c token, run'.commands.get key = some c → c.claimToken = some token →
        s.taken runId token := fun key c token hc htoken =>
      ⟨other, run', hother, hrun', key, c, hc, htoken⟩
    refine ⟨hold.held, fun key c token hc htoken => ?_, hold.distinct, ?_, ?_⟩
    · obtain ⟨hlt, hnot⟩ := hold.minted key c token hc htoken
      refine ⟨hbelow (lt_of_lt_of_le hlt hle), ?_⟩
      rintro ⟨third, run₃, hne, hrun₃, key₃, c₃, hc₃, htoken₃⟩
      rw [hget] at hrun₃
      split at hrun₃
      · cases hrun₃
        exact (hv.minted key₃ c₃ token hc₃ htoken₃).2 (hmine key c token hc htoken)
      · exact hnot ⟨third, run₃, hne, hrun₃, key₃, c₃, hc₃, htoken₃⟩
    · rintro token ⟨third, run₃, hne, hrun₃, key₃, c₃, hc₃, htoken₃⟩
      rw [hget] at hrun₃
      split at hrun₃
      · cases hrun₃
        exact hbelow (hv.minted key₃ c₃ token hc₃ htoken₃).1
      · exact hbelow (lt_of_lt_of_le
          (hold.taken token ⟨third, run₃, hne, hrun₃, key₃, c₃, hc₃, htoken₃⟩) hle)
    · intro token gen hs'
      refine ⟨hbelow (hv.seen token gen hs').1, fun key c hc hclaimed htoken => ?_⟩
      rcases hseen token gen hs' with hseen | ⟨key₀, c₀, hc₀, htoken₀⟩
      · exact (hold.seen token gen hseen).2 key c hc hclaimed htoken
      · exact absurd ⟨runId, run, fun h => hother h.symm, hrun, key₀, c₀, hc₀, htoken₀⟩
          (hold.minted key c token hc htoken).2

theorem Watched.congr (hs : s.Watched) (hruns : s'.runs = s.runs) (hminted : s'.minted = s.minted)
    (hseen : ∀ token gen, s'.seen token gen ↔ s.seen token gen) : s'.Watched := by
  intro runId run hrun
  have htaken : s'.taken runId = s.taken runId := by
    funext token
    simp only [taken, getRun, hruns]
  have hall : s'.seen = s.seen := by
    funext token gen
    exact propext (hseen token gen)
  have hview : s'.view run = ⟨run, s'.inputs, s'.db, (s.view run).minted + 0⟩ := by
    rw [view, hminted]
    rfl
  rw [getRun, hruns] at hrun
  rw [htaken, hall, hview]
  exact (hs runId run hrun).mint s'.inputs s'.db 0

theorem watched_call (op : WorkflowOp) (hs : s.Watched) (hrun : s.getRun runId = some run) :
    (s.writeBack (workflowStep host (s.view run) op)).Watched := by
  have htrace := RunView.trace_step host (s.view run) op
  obtain ⟨hname, hle⟩ := RunView.name_trace htrace
  have hv := htrace.keeps (P := RunView.Watched (s.taken runId) s.seen)
    (fun _ _ => RunView.watched_makes) (hs runId run hrun)
  exact hs.writeBack hrun (hname.trans (Table.key_of_get hrun)) rfl rfl hle hv
    fun token gen hseen => .inl hseen

inductive Look (host : RunnerHost) (digest : IngressPayload → String) (s : WorkflowLedger)
    (now : Millis) (runId : String) (token gen : Nat) :
    Except IngressError CommitResult → WorkflowLedger → Prop
  | thrown (error : IngressError) : Look host digest s now runId token gen (.error error) s
  | known {s' : WorkflowLedger} (result : CommitResult) (hseen : s.seen token gen)
      (hruns : s'.runs = s.runs) (hminted : s'.minted = s.minted)
      (hsame : ∀ token gen, s'.seen token gen ↔ s.seen token gen) :
      Look host digest s now runId token gen (.ok result) s'
  | applied {run run' : WorkflowRun} {c : WorkflowCommand} {effect : TransitionEffect}
      (result : CommitResult) (hrun : s.getRun runId = some run)
      (hc : run.commands.get c.toCommandKey = some c) (htoken : c.claimToken = some token)
      (heffect : run.claimExpiredEffect host.envelopeJson now s.db c.toCommandKey gen =
        .ok (effect, run')) :
      Look host digest s now runId token gen (.ok result)
        (s.committed (inspectionEvent digest run token c.toCommandKey gen) effect
          { s.view run with run := run' })

theorem seen_markConsumed {eventId : EventId} {disposition : IngressDisposition}
    (token gen : Nat) : (s.markConsumed eventId disposition).seen token gen ↔ s.seen token gen := by
  unfold seen markConsumed
  simp only [Table.get_updateWhere]
  cases s.ingress.get (.inspect token gen) <;> simp

theorem findCommandByToken_some {found : String × WorkflowCommand}
    (hrun : s.getRun runId = some run)
    (h : (s.findCommandByToken token).filter (·.1 = runId) = some found) :
    run.commands.get found.2.toCommandKey = some found.2 ∧ found.2.claimToken = some token := by
  obtain ⟨hfound, hid⟩ := Option.filter_eq_some_iff.1 h
  obtain ⟨other, hother, hmap⟩ := List.exists_of_findSome?_eq_some hfound
  obtain ⟨c, hc, rfl⟩ := Option.map_eq_some_iff.1 hmap
  have hsame : other = run := by
    refine Table.eq_of_key_eq hother (Table.mem_of_get hrun) ?_
    show other.runId = run.runId
    rw [show run.runId = runId from Table.key_of_get hrun]
    simpa using hid
  subst hsame
  exact ⟨Table.get_key_of_mem (List.mem_of_find?_eq_some hc), by
    simpa using List.find?_some hc⟩

theorem look_submitClaimInspection (host : RunnerHost) (digest : IngressPayload → String)
    (now : Millis) (runId : String) (token gen : Nat) (s : WorkflowLedger) : Look host digest s now runId token gen
      (s.submitClaimInspection host digest now runId token gen).1
      (s.submitClaimInspection host digest now runId token gen).2 := by
  unfold submitClaimInspection
  split
  · exact .thrown _
  rename_i run hrun
  split
  · exact .thrown _
  rename_i owner c hfound
  obtain ⟨hc, htoken⟩ := findCommandByToken_some hrun hfound
  have hid : run.runId = runId := Table.key_of_get hrun
  have hout := outcome_commitTransition (inspectionEvent digest run token c.toCommandKey gen)
    ((RunnerEvent.claimExpired now c.toCommandKey gen).apply host) s
  generalize s.commitTransition (inspectionEvent digest run token c.toCommandKey gen)
    ((RunnerEvent.claimExpired now c.toCommandKey gen).apply host) = out at hout ⊢
  obtain ⟨result, s'⟩ := out
  cases hout with
  | thrown error => exact .thrown error
  | conflict row hget => exact .known _ ⟨row, hget⟩ rfl rfl fun _ _ => Iff.rfl
  | known row result hget => exact .known _ ⟨row, hget⟩ rfl rfl fun _ _ => Iff.rfl
  | moot row run' hget => exact .known _ ⟨row, hget⟩ rfl rfl seen_markConsumed
  | applied run' effect v _ _ hrun' happly =>
    obtain rfl : run = run' := by
      have hrun'' : s.getRun run.runId = some run' := hrun'
      rw [hid, hrun] at hrun''
      exact Option.some.inj hrun''
    obtain ⟨run₁, hrun₁, rfl⟩ := RunView.onRun_ok happly
    exact .applied _ hrun hc htoken hrun₁

theorem seen_committed {event : RunnerIngress} {effect : TransitionEffect} {v : RunView}
    (token gen : Nat) : (s.committed event effect v).seen token gen ↔
      s.seen token gen ∨ .inspect token gen = event.eventId := by
  rw [committed, seen_markConsumed]
  show (∃ row, (s.receive event).ingress.get (.inspect token gen) = some row) ↔ _
  rw [get_receive]
  unfold seen
  by_cases hid : EventId.inspect token gen = event.eventId <;>
    cases s.ingress.get (.inspect token gen) <;> simp [hid]

theorem script_claimed {A : RunStatement → Prop} {run' : WorkflowRun}
    (h : WorkflowRun.Script A run run') {key : CommandKey} {c' : WorkflowCommand}
    (hc' : run'.commands.get key = some c') (hclaimed : c'.status = .claimed) :
    ∃ c, run.commands.get key = some c ∧ c.status = .claimed ∧ c'.claimToken = c.claimToken ∧
      c.inspectGen ≤ c'.inspectGen := by
  refine h.keeps (P := fun mid => ∀ c', mid.commands.get key = some c' → c'.status = .claimed →
    ∃ c, run.commands.get key = some c ∧ c.status = .claimed ∧ c'.claimToken = c.claimToken ∧
      c.inspectGen ≤ c'.inspectGen) ?_
    (fun c hc hclaimed => ⟨c, hc, hclaimed, rfl, le_refl _⟩) c' hc' hclaimed
  intro w a b _ hexec hold c' hc' hclaimed
  obtain ⟨d, hd, hturns⟩ := RunView.executes_token hexec hc' (.inl hclaimed)
  obtain ⟨hwas, -, htoken, hgen⟩ := RunView.turns_claimed hturns hclaimed
  obtain ⟨c, hc, hclaimed₀, htoken₀, hgen₀⟩ := hold d hd hwas
  exact ⟨c, hc, hclaimed₀, htoken.trans htoken₀, le_trans hgen₀ hgen⟩

theorem claims_unique {c d : WorkflowCommand} (hs : s.Watched)
    (hclaims : s.Claims runId token run d) (hc : run.commands.get c.toCommandKey = some c)
    (htoken : c.claimToken = some token) : d = c := by
  have hd : run.commands.get d.toCommandKey = some d := Table.get_key_of_mem hclaims.mem
  have hkey := (hs runId run hclaims.found).distinct _ _ d c token hd hc hclaims.token htoken
  rw [hkey, hc] at hd
  exact (Option.some.inj hd).symm

theorem Claims.heldBy {c : WorkflowCommand} (hs : s.Watched)
    (hclaims : s.Claims runId token run c) : ∃ owner, c.heldBy owner token = true := by
  obtain ⟨⟨owner, howner⟩, -⟩ := (hs runId run hclaims.found).held _ c
    (Table.get_key_of_mem hclaims.mem) hclaims.claimed
  exact ⟨owner, WorkflowRun.heldBy_iff.2 ⟨hclaims.claimed, howner, hclaims.token⟩⟩

/-- **A look in time keeps the claims watched.** -/
theorem watched_inspect {now : Millis} {gen : Nat} (hs : s.Watched)
    (htimely : s.Timely (.inspect now runId token gen)) :
    (s.submitClaimInspection host digest now runId token gen).2.Watched := by
  have hlook := look_submitClaimInspection host digest now runId token gen s
  generalize s.submitClaimInspection host digest now runId token gen = out at hlook ⊢
  obtain ⟨result, s'⟩ := out
  cases hlook with
  | thrown error => exact hs
  | known result hseen hruns hminted hsame => exact hs.congr hruns hminted hsame
  | @applied run run' c effect result hrun hc htoken heffect =>
    have hv := hs runId run hrun
    have hscript := WorkflowRun.script_claimExpiredEffect heffect
    have htrace : RunView.Trace (·.Inspects c.toCommandKey gen) False (s.view run)
        { s.view run with run := run' } := RunView.trace_of_script (v := s.view run) hscript
    have hname := RunView.name_trace htrace
    have hafter : ({ s.view run with run := run'.bump effect } : RunView).Watched
        (s.taken runId) s.seen := by
      have hkept := htrace.keeps (P := RunView.Watched (s.taken runId) s.seen)
        (fun _ _ => RunView.watched_makes) hv
      exact ⟨hkept.held, hkept.minted, hkept.distinct, hkept.taken, hkept.seen⟩
    -- the look itself is used up now, and no claim under its token is behind it
    have hcounted : ∀ key c', run'.commands.get key = some c' → c'.status = .claimed →
        c'.claimToken = some token → gen ≤ c'.inspectGen := by
      intro key c' hc' hclaimed htoken'
      obtain ⟨d, hd, hwas, hsame, hle⟩ := script_claimed hscript hc' hclaimed
      obtain rfl : key = c.toCommandKey :=
        hv.distinct key _ d c token hd hc (hsame ▸ htoken') htoken
      obtain rfl : d = c := Option.some.inj (hd.symm.trans hc)
      have hclaims : s.Claims runId token run d := ⟨hrun, Table.mem_of_get hc, hwas, htoken⟩
      obtain ⟨hturn, hfine⟩ := htimely run d hclaims
      rcases Nat.lt_or_ge d.inspectGen gen with hlt | hge
      · have hgen : d.inspectGen + 1 = gen := by omega
        obtain ⟨owner, hheld⟩ := hclaims.heldBy hs
        obtain ⟨e, he, hprogress⟩ := WorkflowRun.claimExpiredEffect_progresses hc hheld hgen
          (hfine hgen.symm) heffect
        obtain rfl : e = c' := Option.some.inj (he.symm.trans hc')
        rcases hprogress with hclosed | hadvanced
        · exact absurd hclaimed hclosed
        · rw [hadvanced.gen, hgen]
      · exact le_trans hge hle
    refine hs.writeBack (v := { s.view run with run := run'.bump effect }) hrun
      (hname.1.trans (Table.key_of_get hrun)) rfl rfl (le_refl _)
      ⟨hafter.held, hafter.minted, hafter.distinct, hafter.taken, fun token' gen' hseen => ?_⟩
      fun token' gen' hseen => ?_
    · rcases seen_committed token' gen' |>.1 hseen with hold | hnew
      · exact hafter.seen token' gen' hold
      · obtain ⟨rfl, rfl⟩ := EventId.inspect.inj hnew
        exact ⟨(hv.minted _ c _ hc htoken).1, hcounted⟩
    · rcases seen_committed token' gen' |>.1 hseen with hold | hnew
      · exact .inl hold
      · obtain ⟨rfl, rfl⟩ := EventId.inspect.inj hnew
        exact .inr ⟨_, c, hc, htoken⟩

theorem watched_inspectionStep (call : InspectionCall) (hs : s.Watched) (htimely : s.Timely call) :
    (s.inspectionStep host digest call).Watched := by
  cases call with
  | inspect now runId token gen => exact watched_inspect hs htimely
  | call runId op =>
    change (match s.getRun runId with
      | none => s
      | some run => s.writeBack (workflowStep host (s.view run) op)).Watched
    split
    · exact hs
    · rename_i run hrun
      exact watched_call op hs hrun

/-- A look that is taken at a claim applies what the expiry of the claim does to the run. -/
theorem inspected_of_ok {now : Millis} {gen : Nat} {c : WorkflowCommand} (hs : s.Watched)
    (hclaims : s.Claims runId token run c) (hgen : c.inspectGen + 1 = gen)
    (hok : (s.submitClaimInspection host digest now runId token gen).1.isOk = true) :
    ∃ owner effect after, run.commands.get c.toCommandKey = some c ∧
      c.heldBy owner token = true ∧
      run.claimExpiredEffect host.envelopeJson now s.db c.toCommandKey gen = .ok (effect, after) ∧
      (s.submitClaimInspection host digest now runId token gen).2.getRun runId =
        some (after.bump effect) := by
  have hlook := look_submitClaimInspection host digest now runId token gen s
  generalize s.submitClaimInspection host digest now runId token gen = out at hlook hok ⊢
  obtain ⟨result, s'⟩ := out
  cases hlook with
  | thrown error => cases hok
  | known result hseen _ _ _ =>
    have hbehind := ((hs runId run hclaims.found).seen token gen hseen).2 _ c
      (Table.get_key_of_mem hclaims.mem) hclaims.claimed hclaims.token
    omega
  | @applied found after d effect result hrun hd htoken heffect =>
    obtain rfl : run = found := Option.some.inj (hclaims.found.symm.trans hrun)
    obtain rfl : c = d := claims_unique hs hclaims hd htoken
    obtain ⟨owner, hheld⟩ := hclaims.heldBy hs
    have htrace : RunView.Trace (·.Inspects c.toCommandKey gen) False (s.view run)
        { s.view run with run := after } :=
      RunView.trace_of_script (v := s.view run) (WorkflowRun.script_claimExpiredEffect heffect)
    have hid : after.runId = runId := (RunView.name_trace htrace).1.trans (Table.key_of_get hrun)
    have hput := getRun_writeBack { s.view run with run := after.bump effect }
      (s.receive (inspectionEvent digest run token c.toCommandKey gen)) runId
    exact ⟨owner, effect, after, hd, hheld, heffect, hput.trans (if_pos hid.symm)⟩

theorem progress_of_timely {now : Millis} {gen : Nat} {c : WorkflowCommand} (hs : s.Watched)
    (htimely : s.Timely (.inspect now runId token gen)) (hclaims : s.Claims runId token run c)
    (hgen : c.inspectGen + 1 = gen)
    (hok : (s.submitClaimInspection host digest now runId token gen).1.isOk = true) :
    ∃ run', (s.submitClaimInspection host digest now runId token gen).2.getRun runId = some run' ∧
      run'.Progressed now c := by
  obtain ⟨owner, effect, after, hc, hheld, heffect, hafter⟩ := inspected_of_ok hs hclaims hgen hok
  have hprogress := WorkflowRun.claimExpiredEffect_progresses hc hheld hgen
    ((htimely run c hclaims).2 hgen.symm) heffect
  exact ⟨after.bump effect, hafter, hprogress⟩

theorem not_progress_of_capped {now : Millis} {gen : Nat} {c : WorkflowCommand}
    (hs : s.Watched) (hclaims : s.Claims runId token run c) (hgen : c.inspectGen + 1 = gen)
    (hcapped : run.Capped now s.db c)
    (hok : (s.submitClaimInspection host digest now runId token gen).1.isOk = true)
    {run' : WorkflowRun}
    (hrun' : (s.submitClaimInspection host digest now runId token gen).2.getRun runId = some run') :
    ¬ run'.Progressed now c := by
  obtain ⟨owner, effect, after, hc, hheld, heffect, hafter⟩ := inspected_of_ok hs hclaims hgen hok
  have hsame := WorkflowRun.claimExpiredEffect_capped hc hheld hgen hcapped heffect
  obtain rfl : after.bump effect = run' := Option.some.inj (hafter.symm.trans hrun')
  rintro ⟨c', hc', hprogress⟩
  have hc'' : run.commands.get c.toCommandKey = some c' := hsame ▸ hc'
  obtain rfl : c = c' := Option.some.inj (hc.symm.trans hc'')
  rcases hprogress with hopen | hadvanced
  · exact hopen hclaims.claimed
  · exact absurd hadvanced.gen (by omega)

/-! ## Runs -/

/-- **Looks at claims make progress.**  In a store where nothing is claimed yet, whatever the
operations between them, looks that come in their turn close their claim or are counted, and leave
no claim whose next look is used up, as long as none is the fifth in a row that finds nothing
out; and one that is, and is taken, never makes progress. -/
theorem inspections_progress (host : RunnerHost) (digest : IngressPayload → String)
    (s : WorkflowLedger)
    (hfree : ∀ runId run, s.getRun runId = some run → ∀ c ∈ run.commands,
      c.status ≠ .claimed ∧ c.claimToken = none)
    (hunseen : ∀ token gen, s.ingress.get (.inspect token gen) = none)
    (calls : List InspectionCall)
    (htimely : StepsMeet (inspectionStep host digest) Timely s calls) :
    StepsMeet (inspectionStep host digest) (InspectionLaws host digest) s calls ∧
    let t := runFrom (inspectionStep host digest) s calls
    ∀ now runId token run c, t.Claims runId token run c → run.Capped now t.db c →
      (t.submitClaimInspection host digest now runId token (c.inspectGen + 1)).1.isOk = true →
      ¬ t.InspectionLaws host digest (.inspect now runId token (c.inspectGen + 1)) := by
  have hstart : s.Watched := by
    intro runId run hrun
    have hnone : ∀ key c, run.commands.get key = some c →
        c.status ≠ .claimed ∧ c.claimToken = none := fun key c hc =>
      hfree runId run hrun c (Table.mem_of_get hc)
    refine ⟨fun key c hc hclaimed => absurd hclaimed (hnone key c hc).1,
      fun key c token hc htoken => ?_, fun key key' c c' token hc _ htoken _ => ?_, ?_, ?_⟩
    · cases (hnone key c hc).2.symm.trans htoken
    · cases (hnone key c hc).2.symm.trans htoken
    · rintro token ⟨other, run', -, hrun', key, c, hc, htoken⟩
      cases (hfree other run' hrun' c (Table.mem_of_get hc)).2.symm.trans htoken
    · rintro token gen ⟨row, hrow⟩
      cases (hunseen token gen).symm.trans hrow
  constructor
  · refine stepsMeet_of_kept (fun s call => watched_inspectionStep call) (fun s call hs htimely =>
      ⟨?_, inspectable_of_watched (watched_inspectionStep call hs htimely)⟩) calls s hstart htimely
    rintro now runId token gen rfl run c hclaims hgen hok
    exact progress_of_timely hs htimely hclaims hgen hok
  intro t now runId token run c hclaims hcapped hok hlaws
  have ht : t.Watched := invariant_of_stepsMeet (fun s call => watched_inspectionStep call)
    calls s hstart htimely
  obtain ⟨run', hrun', hprogress⟩ := hlaws.progress _ _ _ _ rfl run c hclaims rfl hok
  exact not_progress_of_capped ht hclaims rfl hcapped hok hrun' hprogress

end Store

/-! ### A worker that is not heard of -/

def watchStart : WorkflowLedger where
  runs := (∅ : Table WorkflowRun).put RunView.waveStart.run
  ingress := ∅
  inputs := ∅
  db := { Db.empty with
    workerAttempts := (∅ : Table AttemptRow).put
      { pendingAttempt "attempt" 2 "contract" 1 .agent "worker" 0 with lifecycle := .running } }
  minted := 0

def workKey : CommandKey := ⟨1, .planned 1 0, .dispatch, 0⟩

def dispatchCalls : List InspectionCall :=
  [.call "run" (.acceptPlan .none (RunView.wavePlan ["out"])),
    .call "run" (.drainCommand 0 workKey false "drain" .started .ambiguous),
    .call "run" (.bindNodeWorker 1 (.planned 1 0) 2 (some "attempt"))]

def looks (n : Nat) : List InspectionCall :=
  (List.range n).map fun (k : Nat) => .inspect (((k : Int) + 1) * claimLease) "run" 0 (k + 1)

def watchRun (calls : List InspectionCall) : WorkflowLedger :=
  runFrom (inspectionStep RunView.waveHost fun _ => "") watchStart calls

/-- The fifth look fails the run and leaves its claim as it was: due, and with its next look used
up. -/
theorem claim_left_at_cap :
    let s := watchRun (dispatchCalls ++ looks 5)
    (s.getRun "run").map (·.state) = some .failed ∧
      (((s.getRun "run").bind fun run => run.commands.get workKey).map fun c =>
        (c.status, c.claimToken, c.inspectGen, c.nextInspectionAt)) =
          some (.claimed, some 0, 4, some (5 * claimLease)) ∧
      s.consumed (.inspect 0 5) = true ∧
      ¬ StepsMeet (inspectionStep RunView.waveHost fun _ => "")
        (InspectionLaws RunView.waveHost fun _ => "") watchStart (dispatchCalls ++ looks 5) := by
  have hleft : (((watchRun (dispatchCalls ++ looks 5)).getRun "run").bind fun run =>
      run.commands.get workKey).map (fun c => (c.status, c.claimToken, c.inspectGen,
        c.nextInspectionAt)) = some (.claimed, some 0, 4, some (5 * claimLease)) := by
    decide +kernel
  refine ⟨by decide +kernel, hleft, by decide +kernel, fun hlaws => ?_⟩
  obtain ⟨c, hc, hout⟩ := Option.map_eq_some_iff.1 hleft
  obtain ⟨run, hrun, hget⟩ := Option.bind_eq_some_iff.1 hc
  obtain ⟨hclaimed, htoken, hgen, -⟩ := by simpa only [Prod.mk.injEq] using hout
  obtain ⟨token, htoken', hfree⟩ := hlaws.2.2.2.2.2.2.2.1.inspectable "run" run hrun c
    (Table.mem_of_get hget) hclaimed
  obtain rfl : 0 = token := Option.some.inj (htoken.symm.trans htoken')
  rw [hgen] at hfree
  revert hfree
  decide +kernel

theorem inspections_progress_lookOnce :
    StepsMeet (inspectionStep RunView.waveHost fun _ => "")
      (InspectionLaws RunView.waveHost fun _ => "") watchStart (dispatchCalls ++ looks 1) := by
  refine (inspections_progress RunView.waveHost (fun _ => "") watchStart ?_ (fun _ _ => rfl)
    (dispatchCalls ++ looks 1) ⟨trivial, trivial, trivial, ?_, trivial⟩).1
  · intro runId run hrun c hc
    obtain rfl : run = RunView.waveStart.run := List.mem_singleton.1 (Table.mem_of_get hrun)
    exact absurd hc (Table.not_mem_empty c)
  · intro run c hclaims
    have hcounts : ∀ run ∈ (watchRun dispatchCalls).getRun "run", ∀ c ∈ run.commands.rows,
        c.consecutiveInconclusive = 0 := by decide +kernel
    refine ⟨Nat.succ_le_succ (Nat.zero_le c.inspectGen), fun _ hcapped => ?_⟩
    have hcap : 5 ≤ c.consecutiveInconclusive + 1 := hcapped.atCap
    have hcount := hcounts run hclaims.found c hclaims.mem
    omega

end WorkflowLedger

end Abtars
