import Abtars.Workflow.Deliveries
import Abtars.Workflow.Revisions

/-!
# Accepted content is delivered once

The drain claims a command that sends a delivery, counts the send, hands the message to the sender
and writes down what came of it, statement after statement: a crash can come between any two.
-/

namespace Abtars

open Lib WorkflowRun

/-! ## Operations -/

namespace RunView

variable (key : CommandKey) (owner : String)

def sendStatements (token attempts : Nat) :
    DeliverySend → List (WorkflowRun → Except WorkflowError WorkflowRun)
  | .receipt json => [(·.setDeliveryOutcome key.nodeId .acknowledged (some json)),
      (·.completeCommand key owner token)]
  | .definitive message =>
    if attempts < deliveryMaxAttempts then
      [(·.completeCommand key owner token), fun run => run.queueCommand
        ⟨key.generation, key.nodeId, .deliver,
          run.nextCommandOrdinal key.generation key.nodeId .deliver⟩ ⟨none, none, [], none⟩]
    else [(·.setDeliveryOutcome key.nodeId .failed (some (boundText message 500))),
      (·.completeCommand key owner token)]
  | .ambiguous => [(·.setDeliveryOutcome key.nodeId .unknown (some s!"attempt {attempts}")),
      (·.completeCommand key owner token)]

def statements : List (WorkflowRun → Except WorkflowError WorkflowRun) →
    (RunView → Except WorkflowError Unit × RunView) → RunView →
      Except WorkflowError Unit × RunView
  | [], next => next
  | write :: rest, next => statement write (statements rest next)

def afterwards : DeliverySend → RunView → Except WorkflowError Unit × RunView
  | .receipt _ => settleIfDeliverable
  | .definitive _ | .ambiguous => done

theorem afterSend_eq (token attempts : Nat) (send : DeliverySend) :
    afterSend key owner token attempts send =
      statements (sendStatements key owner token attempts send) (afterwards send) := by
  cases send with
  | receipt json => rfl
  | definitive message =>
    by_cases hbelow : attempts < deliveryMaxAttempts
    · simp only [afterSend, sendStatements, hbelow, if_true]
      rfl
    · simp only [afterSend, sendStatements, hbelow, if_false]
      rfl
  | ambiguous => rfl

/-- `runDeliverySend` cut off after some of the statements behind the send. -/
def crashedSend (token : Nat) (send : DeliverySend) (written : Nat) (v : RunView) :
    Except WorkflowError Unit × RunView :=
  match v.run.deliveries.get key.nodeId with
  | none => (.ok (), v)
  | some delivery =>
    if delivery.outcome ≠ .pending then (.ok (), v)
    else
      match v.run.bumpDeliveryAttempts key.nodeId with
      | .error e => (.error e, v)
      | .ok (attempts, run) => statements
          ((sendStatements key owner token attempts send).take written) done { v with run }

end RunView

/-- An operation of the runner; a drain that has no sender and hands a delivery to a port; or a
drain of a delivery that is cut off. -/
inductive DeliveryCall
  | call (op : WorkflowOp)
  | handOver (now : Millis) (key : CommandKey) (owner : String) (answer : PortOutcome)
  | crash (now : Millis) (key : CommandKey) (owner : String) (send : DeliverySend)
      (written : Nat)

namespace RunView

variable (host : RunnerHost) (v : RunView)

def deliveryStep : DeliveryCall → RunView
  | .call op => workflowStep host v op
  | .handOver now key owner answer =>
    if key.action = .deliver then
      (claiming key owner now (.ok ()) (fun token => portAnswer key owner token answer) v).2
    else v
  | .crash now key owner send written =>
    if key.action = .deliver then
      (claiming key owner now (.ok ()) (fun token =>
        crashedSend key owner token send written) v).2
    else v

/-! ## Sends -/

/-- The message a drain of the command hands to the sender: none when the command is not pending,
or its delivery is settled. -/
def messageOf (key : CommandKey) (send : DeliverySend) : List DeliveryMessage :=
  match v.run.commands.get key, v.run.deliveries.get key.nodeId with
  | some c, some d => if c.status = .pending ∧ d.outcome = .pending then
      [⟨key.nodeId, d.revision, d.attempts + 1, send⟩] else []
  | _, _ => []

def sends : DeliveryCall → List DeliveryMessage
  | .call (.executeDelivery _ nodeId send) =>
    if v.run.state.isTerminal then []
    else ((v.run.findPendingCommand nodeId .deliver).map fun c =>
      v.messageOf c.toCommandKey send).getD []
  | .call (.drainCommand _ key _ _ _ send) | .crash _ key _ send _ =>
    if key.action = .deliver then v.messageOf key send else []
  | .call _ | .handOver _ _ _ _ => []

def acceptsNode (id : NodeId) (v : RunView) : DeliveryCall → Bool
  | .call (.submitVerdict nodeId verdict claim) => nodeId = id ∧ boundVerdict verdict = .accept ∧
      v.run.checkVerdict v.run.currentRevision .accept = none ∧
        (workflowCall host (.submitVerdict nodeId verdict claim) v).1.isOk
  | _ => false

/-! ## Who closes the command of a delivery -/

structure HoldsUnsent (v : RunView) (held : ClaimAuthority) : Prop where
  action : held.key.action = .deliver
  holds : ∃ c, v.run.commands.get held.key = some c ∧ c.heldBy held.owner held.token = true
  unsent : v.run.attempts held.key.nodeId = 0

/-- The look is in its turn at the command of a delivery that was not sent, and the review it
comes from is found closed. -/
structure InspectsUnsent (v : RunView) (key : CommandKey) (gen : Nat) : Prop where
  action : key.action = .deliver
  claimed : ∃ c, v.run.commands.get key = some c ∧ c.status = .claimed ∧ c.inspectGen + 1 = gen
  closed : ∃ n, v.run.findNode v.run.currentRevision key.nodeId = some n ∧
    n.status.isOpen = false
  unsent : v.run.attempts key.nodeId = 0

def Careful : DeliveryCall → Prop
  | .call (.submitVerdict _ _ claim) =>
    v.run.state.isTerminal = false → ∀ held ∈ claim, ¬ v.HoldsUnsent held
  | .call (.submitPlanProposal _ _ opts) =>
    v.run.state.isTerminal = false → ∀ held ∈ opts.claim, ¬ v.HoldsUnsent held
  | .call (.completeCommand key owner token) => ¬ v.HoldsUnsent ⟨key, owner, token⟩
  | .call (.inspectClaim _ key gen) =>
    v.run.state.isTerminal = false → ¬ v.InspectsUnsent key gen
  | .call (.submitClaimInspection _ token gen) =>
    ∀ c ∈ v.run.findCommandByToken token, ¬ v.InspectsUnsent c.toCommandKey gen
  | _ => True

end RunView

/-! ## What an operation keeps -/

namespace RunView

variable {w : RunStatement} {run' : WorkflowRun} {token : Nat}

variable {A : RunStatement → Prop} {asks : Prop} {host : RunnerHost} {v v' : RunView}
  {L : List DeliveryMessage} {id : NodeId} {key : CommandKey} {claim : Option ClaimAuthority}

theorem orderly_trace (h : Trace A asks v v') (hA : ∀ w, A w → w.Quiet)
    (ho : Orderly L v.run) : Orderly L v'.run := by
  refine h.keeps (P := fun u => Orderly L u.run) (fun a b hmakes hu => ?_) ho
  cases hmakes with
  | row hw hexec => exact hu.quiet hexec (hA _ hw)
  | claim _ hclaim => exact hu.claim hclaim
  | _ => exact hu

theorem sent_trace (h : Trace A asks v v')
    (hA : ∀ w, A w → w.Quiet ∧ ∀ id result, w ≠ .outcome id result)
    (hcomplete : ∀ key owner token, A (.complete key owner token) → key.action = .deliver →
      v.run.attempts key.nodeId ≠ 0) (hs : Sent v.run) : Sent v'.run := by
  refine (h.keeps (P := fun u => Sent u.run ∧ ∀ id, u.run.attempts id = v.run.attempts id)
    (fun a b hmakes hu => ?_) ⟨hs, fun _ => rfl⟩).1
  cases hmakes with
  | row hw hexec =>
    refine ⟨hu.1.steady hexec (hA _ hw).1.steady (fun key owner token hcompletes haction => ?_)
      fun id result hsettles => absurd hsettles ((hA _ hw).2 id result), fun id => ?_⟩
    · subst hcompletes
      rw [hu.2]
      exact hcomplete key owner token hw haction
    · rw [hexec.attempts (hA _ hw).1.steady]
      exact hu.2 id
  | claim _ hclaim =>
    obtain ⟨_, -, -, -, hrest⟩ := claimCommand_get hclaim
    refine ⟨hu.1.claim hclaim, fun id => ?_⟩
    rw [← hu.2 id]
    rw [hrest]
    rfl
  | _ => exact hu

theorem beside_quiet (h : w.Beside claim) : w.Quiet ∧ ∀ id result, w ≠ .outcome id result := by
  refine ⟨h.quiet, ?_⟩
  rintro id result rfl
  exact h

theorem sent_beside (h : Trace (·.Beside claim) asks v v')
    (hspares : ∀ held ∈ claim, held.key.action = .deliver → v.run.attempts held.key.nodeId ≠ 0)
    (hs : Sent v.run) : Sent v'.run := by
  refine sent_trace h (fun w => beside_quiet) (fun key owner token hbeside haction => ?_) hs
  have hclaim : claim = some ⟨key, owner, token⟩ := hbeside
  exact hspares ⟨key, owner, token⟩ hclaim haction

def OnOther (key : CommandKey) (w : RunStatement) : Prop :=
  w.Beside none ∨ (∃ owner token, w = .complete key owner token ∨ w = .release key owner token) ∨
    ∃ gen, w = .inspect key gen

theorem onOther_quiet (hother : key.action ≠ .deliver) (h : OnOther key w) :
    w.Quiet ∧ ∀ id result, w ≠ .outcome id result := by
  rcases h with hbeside | ⟨owner, token, rfl | rfl⟩ | ⟨gen, rfl⟩
  · exact beside_quiet hbeside
  · exact ⟨trivial, fun _ _ h => by cases h⟩
  · exact ⟨hother, fun _ _ h => by cases h⟩
  · exact ⟨trivial, fun _ _ h => by cases h⟩

theorem sent_onOther (hother : key.action ≠ .deliver) (h : Trace (OnOther key) asks v v')
    (hs : Sent v.run) : Sent v'.run := by
  refine sent_trace h (fun w => onOther_quiet hother) (fun k owner token hw haction => ?_) hs
  rcases hw with hbeside | ⟨owner', token', hw | hw⟩ | ⟨gen, hw⟩
  · cases hbeside
  · cases hw
    exact absurd haction hother
  · cases hw
  · cases hw

theorem executes_bump (effect : TransitionEffect) (run : WorkflowRun) :
    Executes .rest run (run.bump effect) := .rest ⟨rfl, rfl, keepsNodes_of_eq rfl⟩ rfl rfl

theorem sent_bump (effect : TransitionEffect) {run : WorkflowRun} (hs : Sent run) :
    Sent (run.bump effect) :=
  hs.steady (executes_bump effect run) trivial
    (fun k owner token hcompletes => by cases hcompletes) fun id result hsettles => by cases hsettles

/-! ### Acceptances -/

variable {n : NodeRow} {effect : TransitionEffect}

theorem orderly_node_unique {run : WorkflowRun} (ho : Orderly L run) {m : NodeRow}
    (hn : n ∈ run.nodes) (hm : m ∈ run.nodes) (hid : n.nodeId = m.nodeId) : n = m := by
  refine Table.eq_of_key_eq hn hm ?_
  have hrevision : n.revision = m.revision :=
    (ho.named n hn).unique (by rw [hid]; exact ho.named m hm)
  rw [key_nodeRow, key_nodeRow, hrevision, hid]

theorem delivery_none_of_open {run : WorkflowRun} (ho : Orderly L run) (hn : n ∈ run.nodes)
    (hopen : n.status.isOpen = true) : run.deliveries.get n.nodeId = none := by
  cases hd : run.deliveries.get n.nodeId with
  | none => rfl
  | some d =>
    rw [(ho.closed _ d hd).2 n hn rfl] at hopen
    cases hopen

theorem orderly_script {run : WorkflowRun} (h : Script (·.Beside claim) run run')
    (hnone : run.deliveries.get id = none) (ho : Orderly L run) :
    Orderly L run' ∧ run'.deliveries.get id = none ∧ ∀ k, run'.attempts k = run.attempts k := by
  refine h.keeps (P := fun u => Orderly L u ∧ u.deliveries.get id = none ∧
    ∀ k, u.attempts k = run.attempts k) ?_ ⟨ho, hnone, fun _ => rfl⟩
  rintro w a b hw hexec ⟨ha, hfree, hcount⟩
  refine ⟨ha.quiet hexec hw.quiet, ?_, fun k => ?_⟩
  · rcases hexec.settles hw.quiet.steady id with ⟨hnone', -⟩ | ⟨d, -, hd, -, -⟩
    · exact hnone'
    · cases hfree.symm.trans hd
  · rw [hexec.attempts hw.quiet.steady]
    exact hcount k

theorem sent_script {run : WorkflowRun} (h : Script (·.Beside claim) run run')
    (hspares : ∀ held ∈ claim, held.key.action = .deliver → run.attempts held.key.nodeId ≠ 0)
    (hs : Sent run) : Sent run' := by
  refine (h.keeps (P := fun u => Sent u ∧ ∀ k, u.attempts k = run.attempts k) ?_
    ⟨hs, fun _ => rfl⟩).1
  rintro w a b hw hexec ⟨ha, hcount⟩
  have hquiet := beside_quiet hw
  refine ⟨ha.steady hexec hquiet.1.steady (fun key owner token hcompletes haction => ?_)
    fun id result hsettles => absurd hsettles (hquiet.2 id result), fun k => ?_⟩
  · subst hcompletes
    have hclaim : claim = some ⟨key, owner, token⟩ := hw
    rw [hcount]
    exact hspares ⟨key, owner, token⟩ hclaim haction
  · rw [hexec.attempts hquiet.1.steady]
    exact hcount k

/-- **An acceptance owes one delivery, in one command.** -/
theorem orderly_acceptedVerdictEffect {run : WorkflowRun} {home judged : Nat} (hn : n ∈ run.nodes)
    (hid : n.nodeId = id) (hopen : n.status.isOpen = true)
    (h : run.acceptedVerdictEffect home judged id claim = .ok (effect, run')) (ho : Orderly L run) :
    Orderly L run' ∧ (∃ d, run'.deliveries.get id = some d) ∧
      ((∀ held ∈ claim, held.key.action = .deliver → run.attempts held.key.nodeId ≠ 0) →
        Sent run → Sent run') := by
  obtain ⟨settled, queued, hscript, ⟨m, hm, hmid, hmclosed⟩, hqueued, hfinal⟩ :=
    acceptedVerdictEffect_ok h
  have hnone : run.deliveries.get id = none := hid ▸ delivery_none_of_open ho hn hopen
  obtain ⟨hsettled, hnew, hcount⟩ := orderly_script hscript hnone ho
  obtain ⟨hget, hattempts, hrest⟩ := insertDelivery_get judged hnew
  have howes : Orderly L (settled.insertDelivery id judged) := by
    refine hsettled.oblige judged hnew ⟨m, hm, hmid⟩ fun k hk hkid => ?_
    rw [orderly_node_unique hsettled hk hm (hkid.trans hmid.symm)]
    exact hmclosed
  have hrow : (settled.insertDelivery id judged).deliveries.get id =
      some ⟨id, judged, .pending, 0, none⟩ := by rw [hget, if_pos rfl]
  have hqueue : Orderly L queued := by
    refine howes.queue hqueued ⟨_, hrow⟩ ?_ ?_
    · rintro k ⟨haction, hkid, c, hc, -⟩
      rw [commands_insertDelivery] at hc
      obtain ⟨d, hd⟩ := hsettled.owed k c hc haction
      rw [hkid, hnew] at hd
      cases hd
    -- nothing was sent for this node
    intro d hd _
    cases hrow.symm.trans hd
    refine ⟨show 0 < deliveryMaxAttempts by decide, fun s hs hnode => ?_⟩
    have hcounted := hsettled.counted id
    rw [attempts_of_none hnew, List.length_eq_zero_iff, List.filter_eq_nil_iff] at hcounted
    exact absurd (by simpa using hnode) (hcounted s hs)
  obtain ⟨-, hqueuedRest⟩ := queueCommand_get hqueued
  have hqueuedRow : queued.deliveries.get id = some ⟨id, judged, .pending, 0, none⟩ := by
    rw [hqueuedRest]
    exact hrow
  have hsent : Sent run → (∀ held ∈ claim, held.key.action = .deliver →
      run.attempts held.key.nodeId ≠ 0) → Sent queued := fun hs hspares =>
    ((sent_script hscript hspares hs).oblige judged hnew).queue hqueued fun d hd => by
      cases hrow.symm.trans hd
      rfl
  unfold settleClaim at hfinal
  split at hfinal
  · cases hfinal
    exact ⟨hqueue, ⟨_, hqueuedRow⟩, fun hspares hs => hsent hs hspares⟩
  rename_i held
  have hexec : Executes (.complete held.key held.owner held.token) queued run' :=
    .complete hfinal
  have hquiet : (RunStatement.complete held.key held.owner held.token).Quiet := trivial
  refine ⟨hqueue.quiet hexec hquiet, ?_, fun hspares hs => ?_⟩
  · rcases hexec.settles hquiet.steady id with ⟨-, hgone⟩ | ⟨-, d, -, hd, -⟩
    · cases hgone.symm.trans hqueuedRow
    · exact ⟨d, hd⟩
  refine (hsent hs hspares).steady hexec hquiet.steady
    (fun key owner token hcompletes haction => ?_) fun id result hsettles => by cases hsettles
  cases hcompletes
  have hcounts : queued.attempts held.key.nodeId = run.attempts held.key.nodeId := by
    rw [← hcount, ← hattempts, hqueuedRest]
    rfl
  rw [hcounts]
  exact hspares held rfl haction

/-! ### Inspections -/

theorem sendable_of_unsent {run : WorkflowRun} (ho : Orderly L run)
    (hunsent : run.attempts id = 0) : run.Sendable L id := by
  intro d hd _
  have hcounted := ho.counted id
  rw [hunsent, List.length_eq_zero_iff, List.filter_eq_nil_iff] at hcounted
  rw [attempts_of_get hd] at hunsent
  refine ⟨by rw [hunsent]; decide, fun s hs hnode => ?_⟩
  exact absurd (by simpa using hnode) (hcounted s hs)

theorem orderly_complete {run : WorkflowRun} {owner : String}
    (h : run.completeCommand key owner token = .ok run') (ho : Orderly L run) :
    Orderly L run' := ho.quiet (.complete h) trivial

theorem sent_complete {run : WorkflowRun} {owner : String}
    (h : run.completeCommand key owner token = .ok run')
    (hsent : key.action = .deliver → run.attempts key.nodeId ≠ 0) (hs : Sent run) : Sent run' := by
  have hexec : Executes (.complete key owner token) run run' := .complete h
  refine hs.steady hexec trivial (fun k owner' token' hcompletes haction => ?_)
    fun id result hsettles => by cases hsettles
  cases hcompletes
  exact hsent haction

theorem sent_settle {run : WorkflowRun} {result : DeliveryOutcome} {receipt : Option String}
    (h : run.setDeliveryOutcome id result receipt = .ok run') (hresult : result ≠ .pending)
    (hsent : run.attempts id ≠ 0) (hs : Sent run) :
    Sent run' ∧ ∀ k, run'.attempts k = run.attempts k := by
  have hexec : Executes (.outcome id result) run run' := .outcome h
  refine ⟨hs.steady hexec hresult (fun k owner token hcompletes => by cases hcompletes)
    fun k result' hsettles => ?_, fun k => hexec.attempts hresult k⟩
  cases hsettles
  exact hsent

/-- The look at the command of a delivery. -/
theorem orderly_inspectDeliver {run : WorkflowRun} {c : WorkflowCommand} {owner : String}
    (haction : c.action = .deliver) (hc : run.commands.get c.toCommandKey = some c)
    (hclaimed : c.status = .claimed) (h : run.inspectDeliver c owner token = .ok (effect, run'))
    (ho : Orderly L run) : Orderly L run' ∧ (Sent run → Sent run') := by
  unfold inspectDeliver at h
  split at h
  · rename_i hsettled
    obtain ⟨closed, hclosed, hout⟩ := map_eq_ok.1 h
    cases hout
    refine ⟨orderly_complete hclosed ho, fun hs => sent_complete hclosed (fun _ => ?_) hs⟩
    -- a delivery whose command is open is settled after a send only
    intro hunsent
    obtain ⟨d, hd⟩ := ho.owed _ c hc haction
    have hpending := hs.fresh _ c hc haction (by rw [hclaimed]; rfl) hunsent d hd
    rw [hd] at hsettled
    simp [Option.filter, hpending] at hsettled
  · rename_i d hd
    have hd' : run.deliveries.get c.nodeId = some d := (Option.filter_eq_some_iff.1 hd).1
    split at h
    · rename_i hunsent
      cases h
      have hexec : Executes (.release c.toCommandKey owner token) run
          (run.releaseClaim c.toCommandKey owner token) := .release run _ owner token
      refine ⟨ho.steady hexec trivial fun key owner token hreleases _ => ?_,
        fun hs => hs.steady hexec trivial (fun k owner' token' hcompletes => by cases hcompletes)
          fun id result hsettles => by cases hsettles⟩
      cases hreleases
      exact sendable_of_unsent ho (by rw [attempts_of_get hd', hunsent])
    · rename_i hwas
      obtain ⟨settled, hsettled, h⟩ := ok_of_match h
      obtain ⟨closed, hclosed, hout⟩ := map_eq_ok.1 h
      cases hout
      have hunknown : DeliveryOutcome.unknown ≠ .pending := by decide
      have hsent : run.attempts c.nodeId ≠ 0 := by rw [attempts_of_get hd']; exact hwas
      refine ⟨orderly_complete hclosed (ho.quiet (.outcome hsettled) hunknown), fun hs => ?_⟩
      obtain ⟨hs', hcounts⟩ := sent_settle hsettled hunknown hsent hs
      exact sent_complete hclosed (fun _ => by rw [hcounts]; exact hsent) hs'

theorem orderly_claimExpiredEffect {now : Millis} {gen : Nat} (haction : key.action = .deliver)
    (h : v.run.claimExpiredEffect host.envelopeJson now v.db key gen = .ok (effect, run'))
    (ho : Orderly L v.run) :
    Orderly L run' ∧ (¬ v.InspectsUnsent key gen → Sent v.run → Sent run') := by
  rcases claimExpiredEffect_cases h with ⟨-, rfl⟩ |
    ⟨c, owner, token, hc, rfl, hclaimed, hgen, ⟨-, hclosed, hnode⟩ | ⟨-, h⟩⟩
  · exact ⟨ho, fun _ hs => hs⟩
  · refine ⟨orderly_complete hclosed ho, fun hfine hs => sent_complete hclosed
      (fun _ hunsent => hfine ⟨haction, ⟨c, hc, hclaimed, hgen⟩, ?_, hunsent⟩) hs⟩
    by_contra hnone
    refine hnode fun n hn => ?_
    by_contra hnot
    exact hnone ⟨n, hn, by simpa using hnot⟩
  · simp only [haction] at h
    obtain ⟨horder, hsent⟩ := orderly_inspectDeliver haction hc hclaimed h ho
    exact ⟨horder, fun _ => hsent⟩

/-! ### Sends -/

/-- What holds while a send is written down: the order, that the node was sent, and, where it held
before, that what is done was sent. -/
structure Kept (S : Prop) (L : List DeliveryMessage) (id : NodeId) (run : WorkflowRun) : Prop where
  order : Orderly L run
  counted : run.attempts id ≠ 0
  sent : S → Sent run

variable {S : Prop}

theorem Kept.complete {run run' : WorkflowRun} {owner : String} {token : Nat}
    (h : run.completeCommand key owner token = .ok run') (hk : Kept S L key.nodeId run) :
    Kept S L key.nodeId run' where
  order := orderly_complete h hk.order
  counted := by
    have hexec : Executes (.complete key owner token) run run' := .complete h
    rw [hexec.attempts trivial]
    exact hk.counted
  sent := fun hS => sent_complete h (fun _ => hk.counted) (hk.sent hS)

theorem Kept.settle {run run' : WorkflowRun} {result : DeliveryOutcome} {receipt : Option String}
    (hresult : result ≠ .pending) (h : run.setDeliveryOutcome id result receipt = .ok run')
    (hk : Kept S L id run) : Kept S L id run' where
  order := hk.order.quiet (.outcome h) hresult
  counted := by
    have hexec : Executes (.outcome id result) run run' := .outcome h
    rw [hexec.attempts hresult]
    exact hk.counted
  sent := fun hS => (sent_settle h hresult hk.counted (hk.sent hS)).1

theorem Kept.settleIfDeliverable (hk : Kept S L id v.run) :
    Kept S L id (settleIfDeliverable v).2.run := by
  unfold RunView.settleIfDeliverable
  split
  · exact hk
  rcases committing_cases (onRun fun run => .ok (run.evaluateTerminal run.currentRevision none, run))
    v with ⟨effect, v', happly, heq⟩ | ⟨e, -, heq⟩
  · cases happly
    exact ⟨hk.order.quiet (executes_bump _ v.run) trivial, hk.counted,
      fun hS => sent_bump _ (hk.sent hS)⟩
  · rw [heq]
    exact hk

theorem statements_keep {P : WorkflowRun → Prop}
    {next : RunView → Except WorkflowError Unit × RunView}
    (hnext : ∀ u : RunView, P u.run → P (next u).2.run)
    (ws : List (WorkflowRun → Except WorkflowError WorkflowRun))
    (hws : ∀ w ∈ ws, ∀ run run', w run = .ok run' → P run → P run') :
    ∀ u : RunView, P u.run → P (statements ws next u).2.run := by
  induction ws with
  | nil => exact hnext
  | cons write rest ih =>
    intro u hu
    unfold statements statement
    split
    · exact hu
    · rename_i run' hrun'
      exact ih (fun w hw => hws w (List.mem_cons_of_mem _ hw)) _
        (hws write List.mem_cons_self u.run run' hrun' hu)

structure Turned (S : Prop) (L : List DeliveryMessage) (key : CommandKey) (n : Nat) (send : DeliverySend)
    (run : WorkflowRun) : Prop where
  kept : Kept S L key.nodeId run
  alone : ∀ k, run.OpenDeliver key.nodeId k → k = key
  row : ∃ d, run.deliveries.get key.nodeId = some d ∧ d.attempts = n ∧ d.outcome = .pending
  last : send.isDefinitive = true → ∀ s ∈ L, s.nodeId = key.nodeId → s.outcome.isDefinitive = true

/-- A definitive failure is queued to be sent again. -/
theorem Turned.retry {n : Nat} {message : String} {run closed : WorkflowRun} {owner : String}
    {payload : CommandPayload} {ordinal : Nat}
    (ht : Turned S L key n (.definitive message) run) (hbelow : n < deliveryMaxAttempts)
    (hclosed : run.completeCommand key owner token = .ok closed)
    (hqueued : closed.queueCommand ⟨key.generation, key.nodeId, .deliver, ordinal⟩ payload =
      .ok run') : Kept S L key.nodeId run' := by
  have hkept := ht.kept.complete hclosed
  have hexec : Executes (.complete key owner token) run closed := .complete hclosed
  obtain ⟨d, hd, hattempts, hpending⟩ := ht.row
  have hd' : closed.deliveries.get key.nodeId = some d := by
    rw [hexec.untouched trivial (by simp) (by simp)]
    exact hd
  have hdone : ∀ k, ¬ closed.OpenDeliver key.nodeId k := by
    intro k hk
    rcases hexec.openDeliver hk with ⟨payload', hw⟩ | hold
    · cases hw
    obtain rfl := ht.alone k hold
    obtain ⟨c, hc, hstatus⟩ := hk.isOpen
    obtain ⟨⟨e, he, -⟩, rfl⟩ := completeCommand_ok hclosed
    rw [Table.get_modify_same, he] at hc
    cases hc
    cases hstatus
  obtain ⟨-, hrest⟩ := queueCommand_get hqueued
  refine ⟨hkept.order.queue hqueued ⟨d, hd'⟩ hdone fun d' h' _ => ?_, ?_,
    fun hS => (hkept.sent hS).queue hqueued fun d' h' => ?_⟩
  · cases hd'.symm.trans h'
    exact ⟨hattempts ▸ hbelow, ht.last rfl⟩
  · rw [hrest]
    exact hkept.counted
  · cases hd'.symm.trans h'
    exact hpending

/-- **What is written behind a send keeps the order, wherever it is cut off.** -/
theorem Turned.statements {n : Nat} {send : DeliverySend} (owner : String) (token : Nat)
    (next : RunView → Except WorkflowError Unit × RunView) (written : Nat)
    (hnext : ∀ u : RunView, Kept S L key.nodeId u.run → Kept S L key.nodeId (next u).2.run)
    (ht : Turned S L key n send v.run) : Kept S L key.nodeId
      (statements ((sendStatements key owner token n send).take written) next v).2.run := by
  have hsettling : ∀ {result : DeliveryOutcome} {receipt : Option String}, result ≠ .pending →
      Kept S L key.nodeId (RunView.statements (([(·.setDeliveryOutcome key.nodeId result receipt),
        (·.completeCommand key owner token)] :
          List (WorkflowRun → Except WorkflowError WorkflowRun)).take written) next v).2.run := by
    intro result receipt hresult
    refine statements_keep hnext _ (fun w hw run run' h hk => ?_) v ht.kept
    rcases List.mem_pair.1 (List.mem_of_mem_take hw) with rfl | rfl
    · exact hk.settle hresult h
    · exact hk.complete h
  cases send with
  | receipt json => exact hsettling (by decide)
  | ambiguous => exact hsettling (by decide)
  | definitive message =>
    by_cases hbelow : n < deliveryMaxAttempts
    · simp only [sendStatements, hbelow, if_true]
      -- none, one or both of the statements
      rcases written with _ | _ | written
      · exact hnext v ht.kept
      · simp only [List.take_succ_cons, List.take_zero, RunView.statements, statement]
        split
        · exact ht.kept
        · rename_i closed hclosed
          exact hnext _ (ht.kept.complete hclosed)
      simp only [List.take_succ_cons, List.take_nil, RunView.statements, statement]
      split
      · exact ht.kept
      rename_i closed hclosed
      split
      · exact ht.kept.complete hclosed
      · rename_i run' hqueued
        exact hnext _ (ht.retry hbelow hclosed hqueued)
    · simp only [sendStatements, hbelow, if_false]
      exact hsettling (by decide)

section Claimed

variable {d : DeliveryRow} {token : Nat} {owner : String} {now : Millis} {run : WorkflowRun}

theorem bumpDeliveryAttempts_of_pending (hd : run.deliveries.get id = some d)
    (hpending : d.outcome = .pending) : ∃ n run', run.bumpDeliveryAttempts id = .ok (n, run') := by
  unfold bumpDeliveryAttempts
  rw [hd]
  exact ⟨_, _, if_pos hpending⟩

variable (send : DeliverySend)

theorem messageOf_of_lost (h : v.run.claimCommand key owner token now = none) :
    v.messageOf key send = [] := by
  unfold messageOf
  split
  · rename_i c d hc hd
    unfold claimCommand at h
    rw [hc] at h
    dsimp only at h
    split at h
    · cases h
    · rename_i hpending
      rw [if_neg (fun hboth => hpending hboth.1)]
  · rfl

/-- The rows right after a claim: nothing but the command changed, and it is the only open one of
its delivery. -/
theorem claimed_rows (haction : key.action = .deliver)
    (h : v.run.claimCommand key owner token now = some run) (ho : Orderly L v.run) :
    (∃ c, v.run.commands.get key = some c ∧ c.status = .pending) ∧
      (∃ c, run.commands.get key = some c ∧ c.status = .claimed) ∧
      run.deliveries = v.run.deliveries ∧ ∀ k, run.OpenDeliver key.nodeId k → k = key := by
  have hrun := ho.claim h
  obtain ⟨c, hc, hpending, hget, hrest⟩ := claimCommand_get h
  have hc' : run.commands.get key = some (c.claim owner token now) := by rw [hget, if_pos rfl]
  refine ⟨⟨c, hc, hpending⟩, ⟨_, hc', rfl⟩, by rw [hrest], fun k hk => ?_⟩
  exact hrun.single key.nodeId k key hk ⟨haction, rfl, _, hc', rfl⟩

theorem turned_of_bump {n : Nat} (haction : key.action = .deliver)
    (h : v.run.claimCommand key owner token now = some run) (ho : Orderly L v.run)
    (hd : run.deliveries.get key.nodeId = some d)
    (hbump : run.bumpDeliveryAttempts key.nodeId = .ok (n, run')) :
    v.messageOf key send = [⟨key.nodeId, d.revision, n, send⟩] ∧
      Turned (Sent v.run) (L ++ [⟨key.nodeId, d.revision, n, send⟩]) key n send run' := by
  obtain ⟨⟨c, hc, hwaits⟩, ⟨c', hc', hclaimed⟩, hdeliveries, halone⟩ := claimed_rows haction h ho
  obtain ⟨e, he, hpending, rfl, hget, hattempts, hrest⟩ := bumpDeliveryAttempts_get hbump
  obtain rfl : e = d := Option.some.inj (he.symm.trans hd)
  have hd' : v.run.deliveries.get key.nodeId = some e := hdeliveries ▸ hd
  have hsendable : run.Sendable L key.nodeId := by
    unfold WorkflowRun.Sendable
    rw [hdeliveries]
    exact ho.ready key c hc haction hwaits
  have hidle : ∀ k c, run.commands.get k = some c → k.action = .deliver →
      k.nodeId = key.nodeId → c.status ≠ .pending := by
    intro k c₂ hc₂ hk hnode hstill
    obtain rfl := halone k ⟨hk, hnode, c₂, hc₂, by rw [hstill]; rfl⟩
    obtain rfl : c' = c₂ := Option.some.inj (hc'.symm.trans hc₂)
    cases hclaimed.symm.trans hstill
  have hcommands : run'.commands = run.commands := by rw [hrest]
  refine ⟨?_, ⟨(ho.claim h).send send hbump hd hsendable hidle, ?_,
    fun hs => (hs.claim h).send hbump⟩, fun k hk => halone k
      ⟨hk.action, hk.node, hcommands ▸ hk.isOpen⟩, ⟨e.bump, ?_, rfl, hpending⟩, ?_⟩
  · unfold messageOf
    rw [hc, hd']
    exact if_pos ⟨hwaits, hpending⟩
  · rw [hattempts, if_pos rfl]
    omega
  · rw [hget, if_pos rfl]
  · intro hdefinitive s hs hnode
    rcases List.mem_append.1 hs with hold | hnew
    · exact (hsendable e hd hpending).2 s hold hnode
    · rw [List.mem_singleton.1 hnew]
      exact hdefinitive

theorem messageOf_of_settled (hd : v.run.deliveries.get key.nodeId = some d)
    (hsettled : d.outcome ≠ .pending) : v.messageOf key send = [] := by
  unfold messageOf
  split
  · rename_i hc hd'
    obtain rfl := Option.some.inj (hd.symm.trans hd')
    rw [if_neg (fun hboth => hsettled hboth.2)]
  · rfl

theorem messageOf_of_none (hd : v.run.deliveries.get key.nodeId = none) :
    v.messageOf key send = [] := by
  unfold messageOf
  split
  · rename_i hc hd'
    cases hd.symm.trans hd'
  · rfl

/-- **A claim and a send keep the order.** -/
theorem orderly_send (haction : key.action = .deliver) (lost : Except WorkflowError Unit)
    (send : DeliverySend) (ho : Orderly L v.run) :
    Orderly (L ++ v.messageOf key send)
      (claiming key owner now lost (fun token => runDeliverySend key owner token send) v).2.run ∧
    (Sent v.run → Sent
      (claiming key owner now lost (fun token => runDeliverySend key owner token send) v).2.run) := by
  unfold claiming
  split
  · rename_i hlost
    rw [messageOf_of_lost send hlost, List.append_nil]
    exact ⟨ho, fun hs => hs⟩
  rename_i run hclaim
  obtain ⟨-, ⟨c', hc', hclaimed⟩, hdeliveries, -⟩ := claimed_rows haction hclaim ho
  dsimp only [runDeliverySend]
  split
  · rename_i hnone
    rw [messageOf_of_none send (hdeliveries ▸ hnone), List.append_nil]
    exact ⟨ho.claim hclaim, fun hs => hs.claim hclaim⟩
  rename_i d hd
  split
  · rename_i hsettled
    rw [messageOf_of_settled send (hdeliveries ▸ hd) hsettled, List.append_nil]
    unfold statement
    split
    · exact ⟨ho.claim hclaim, fun hs => hs.claim hclaim⟩
    rename_i closed hclosed
    refine ⟨orderly_complete hclosed (ho.claim hclaim), fun hs =>
      sent_complete hclosed (fun _ hunsent => hsettled ?_) (hs.claim hclaim)⟩
    exact (hs.claim hclaim).fresh key c' hc' haction (by rw [hclaimed]; rfl) hunsent d hd
  · rename_i hpending
    obtain ⟨n, run', hbump⟩ := bumpDeliveryAttempts_of_pending hd (not_not.1 hpending)
    rw [hbump]
    dsimp only
    obtain ⟨hmessage, hturned⟩ := turned_of_bump send haction hclaim ho hd hbump
    rw [hmessage, afterSend_eq]
    have hkept := Turned.statements (v := { v with run := run', minted := v.minted + 1 })
      owner v.minted (afterwards send) 2 (fun u hu => by
        cases send with
        | receipt json => exact hu.settleIfDeliverable
        | _ => exact hu) hturned
    rw [List.take_of_length_le] at hkept
    · exact ⟨hkept.order, hkept.sent⟩
    cases send with
    | definitive message =>
      unfold sendStatements
      by_cases hbelow : n < deliveryMaxAttempts <;> simp [hbelow]
    | _ => simp [sendStatements]

/-- So does one that is cut off. -/
theorem orderly_crash (haction : key.action = .deliver) (lost : Except WorkflowError Unit)
    (send : DeliverySend) (written : Nat) (ho : Orderly L v.run) :
    Orderly (L ++ v.messageOf key send) (claiming key owner now lost
      (fun token => crashedSend key owner token send written) v).2.run ∧
    (Sent v.run → Sent (claiming key owner now lost
      (fun token => crashedSend key owner token send written) v).2.run) := by
  unfold claiming
  split
  · rename_i hlost
    rw [messageOf_of_lost send hlost, List.append_nil]
    exact ⟨ho, fun hs => hs⟩
  rename_i run hclaim
  obtain ⟨-, -, hdeliveries, -⟩ := claimed_rows haction hclaim ho
  dsimp only [crashedSend]
  split
  · rename_i hnone
    rw [messageOf_of_none send (hdeliveries ▸ hnone), List.append_nil]
    exact ⟨ho.claim hclaim, fun hs => hs.claim hclaim⟩
  rename_i d hd
  split
  · rename_i hsettled
    rw [messageOf_of_settled send (hdeliveries ▸ hd) hsettled, List.append_nil]
    exact ⟨ho.claim hclaim, fun hs => hs.claim hclaim⟩
  rename_i hpending
  obtain ⟨n, run', hbump⟩ := bumpDeliveryAttempts_of_pending hd (not_not.1 hpending)
  rw [hbump]
  obtain ⟨hmessage, hturned⟩ := turned_of_bump send haction hclaim ho hd hbump
  rw [hmessage]
  have hkept := Turned.statements (v := { v with run := run', minted := v.minted + 1 })
    owner v.minted done written (fun u hu => hu) hturned
  exact ⟨hkept.order, hkept.sent⟩

end Claimed

/-! ### One operation -/

theorem keeps_beside (h : Trace (·.Beside claim) asks v v')
    (hspares : ∀ held ∈ claim, held.key.action = .deliver → v.run.attempts held.key.nodeId ≠ 0)
    (ho : Orderly L v.run) : Orderly L v'.run ∧ (Sent v.run → Sent v'.run) :=
  ⟨orderly_trace h (fun _ => RunStatement.Beside.quiet) ho, sent_beside h hspares⟩

theorem keeps_beside_none (h : Trace (·.Beside none) asks v v') (ho : Orderly L v.run) :
    Orderly L v'.run ∧ (Sent v.run → Sent v'.run) :=
  keeps_beside h (fun _ hheld => by cases hheld) ho

theorem spares_of_held (hheld : v.run.claimHeld claim = .ok ())
    (hcareful : ∀ held ∈ claim, ¬ v.HoldsUnsent held) :
    ∀ held ∈ claim, held.key.action = .deliver → v.run.attempts held.key.nodeId ≠ 0 := by
  rintro held hmem haction hunsent
  obtain rfl : claim = some held := hmem
  obtain ⟨c, hc, -⟩ := map_eq_ok.1 hheld
  exact hcareful held rfl ⟨haction, ⟨c, requireOwnedClaim_ok hc⟩, hunsent⟩

theorem mem_of_foldl_pick {pick : Option WorkflowCommand → WorkflowCommand → Option WorkflowCommand}
    {c : WorkflowCommand} (hpick : ∀ best r, pick best r = best ∨ pick best r = some r)
    (rows : List WorkflowCommand) :
    ∀ best, rows.foldl pick best = some c → best = some c ∨ c ∈ rows := by
  induction rows with
  | nil => exact fun best hbest => .inl hbest
  | cons r rest ih =>
    intro best hbest
    rcases ih _ hbest with hlast | hmem
    · rcases hpick best r with hkept | htaken
      · exact .inl (hkept.symm.trans hlast)
      · cases htaken.symm.trans hlast
        exact .inr List.mem_cons_self
    · exact .inr (List.mem_cons_of_mem _ hmem)

theorem findPendingCommand_some {run : WorkflowRun} {nodeId : NodeId} {action : CommandAction}
    {c : WorkflowCommand} (h : run.findPendingCommand nodeId action = some c) :
    c ∈ run.commands ∧ c.nodeId = nodeId ∧ c.action = action ∧ c.status = .pending := by
  refine (mem_of_foldl_pick (fun best r => ?_) _ none h).elim (fun hnone => ?_) fun hmem => ?_
  · cases best with
    | none => exact .inr rfl
    | some b =>
      dsimp only
      split
      · exact .inr rfl
      · exact .inl rfl
  · cases hnone
  obtain ⟨hmem, hwanted⟩ := (Table.mem_select _ _ _).1 hmem
  exact ⟨hmem, by simpa using hwanted⟩

theorem keeps_executeDelivery (now : Millis) (nodeId : NodeId) (send : DeliverySend)
    (ho : Orderly L v.run) :
    Orderly (L ++ v.sends (.call (.executeDelivery now nodeId send)))
      (executeDelivery now nodeId send v).2.run ∧
      (Sent v.run → Sent (executeDelivery now nodeId send v).2.run) := by
  simp only [executeDelivery, whenLive, sends]
  by_cases hended : v.run.state.isTerminal = true
  · rw [if_pos hended, if_pos hended, List.append_nil]
    exact ⟨ho, fun hs => hs⟩
  rw [if_neg hended, if_neg hended]
  cases hfound : v.run.findPendingCommand nodeId .deliver with
  | none =>
    rw [Option.map_none, Option.getD_none, List.append_nil]
    exact ⟨ho, fun hs => hs⟩
  | some c =>
    exact orderly_send (findPendingCommand_some hfound).2.2.1 _ send ho

theorem keeps_drainCommand (now : Millis) (key : CommandKey) (refused : Bool) (owner : String)
    (answer : PortOutcome) (send : DeliverySend) (ho : Orderly L v.run) :
    Orderly (L ++ v.sends (.call (.drainCommand now key refused owner answer send)))
      (drainCommand now key refused owner answer send v).2.run ∧
      (Sent v.run → Sent (drainCommand now key refused owner answer send v).2.run) := by
  simp only [sends]
  by_cases haction : key.action = .deliver
  · rw [if_pos haction]
    unfold drainCommand
    cases hc : v.run.commands.get key with
    | none =>
      unfold messageOf
      rw [hc, List.append_nil]
      exact ⟨ho, fun hs => hs⟩
    | some c =>
      obtain rfl : c.toCommandKey = key := Table.key_of_get hc
      dsimp only
      rw [if_neg (fun hboth => by cases hboth.2.symm.trans haction)]
      have hstart : startCommand c owner answer send =
          fun token => runDeliverySend c.toCommandKey owner token send := by
        funext token u
        unfold startCommand
        rw [haction]
      rw [hstart]
      exact orderly_send haction _ send ho
  · rw [if_neg haction, List.append_nil]
    have htrace : Trace (OnOther key) False v _ :=
      (trace_step ⟨[], fun _ => ""⟩ v (.drainCommand now key refused owner answer send)).mono fun w hw => by
        rcases hw with hdeliver | hbeside | hclosed
        · exact absurd hdeliver haction
        · exact .inl hbeside
        · exact .inr (.inl hclosed)
    exact ⟨orderly_trace htrace (fun w hw => (onOther_quiet haction hw).1) ho,
      sent_onOther haction htrace⟩

theorem keeps_claimExpiredEffect {now : Millis} {gen : Nat} {effect : TransitionEffect}
    (h : v.run.claimExpiredEffect host.envelopeJson now v.db key gen = .ok (effect, run'))
    (ho : Orderly L v.run) :
    Orderly L run' ∧ (¬ v.InspectsUnsent key gen → Sent v.run → Sent run') := by
  by_cases haction : key.action = .deliver
  · exact orderly_claimExpiredEffect haction h ho
  have htrace : Trace (OnOther key) False v { v with run := run' } :=
    trace_of_script ((script_claimExpiredEffect h).mono fun w hw => by
      rcases hw with hbeside | hclosed | hlooked | ⟨hdeliver, -⟩
      · exact .inl hbeside
      · exact .inr (.inl hclosed)
      · exact .inr (.inr ⟨gen, hlooked⟩)
      · exact absurd hdeliver haction)
  exact ⟨orderly_trace htrace (fun w hw => (onOther_quiet haction hw).1) ho,
    fun _ => sent_onOther haction htrace⟩

theorem keeps_verdictEffect {home : Nat} {nodeId : NodeId} {verdict : ReviewVerdict}
    {effect : TransitionEffect} (hheld : v.run.claimHeld claim = .ok ())
    (hhome : v.run.locateReviewNode nodeId = some home)
    (h : v.run.verdictEffect home nodeId verdict claim = .ok (effect, run'))
    (ho : Orderly L v.run) : Orderly L run' ∧
      ((∀ held ∈ claim, ¬ v.HoldsUnsent held) → Sent v.run → Sent run') := by
  rcases verdictEffect_cases h with hscript | ⟨-, haccept⟩
  · have htrace : Trace (·.Beside claim) False v { v with run := run' } := trace_of_script hscript
    exact ⟨orderly_trace htrace (fun _ => RunStatement.Beside.quiet) ho,
      fun hcareful hs => sent_beside htrace (spares_of_held hheld hcareful) hs⟩
  obtain ⟨n, hn, -, hopen⟩ := locateReviewNode_some hhome
  obtain ⟨horder, -, hsent⟩ := orderly_acceptedVerdictEffect (Table.mem_of_get hn)
    (Prod.mk.inj (Table.key_of_get hn)).2 hopen haccept ho
  exact ⟨horder, fun hcareful hs => hsent (spares_of_held hheld hcareful) hs⟩

/-- Any operation but the two that send. -/
theorem keeps_does {op : WorkflowOp} (hdoes : Does host v op v') (ho : Orderly L v.run)
    (hdeliver : ∀ now nodeId send, op ≠ .executeDelivery now nodeId send)
    (hdrain : ∀ now key refused owner answer send,
      op ≠ .drainCommand now key refused owner answer send) :
    Orderly L v'.run ∧ (v.Careful (.call op) → Sent v.run → Sent v'.run) := by
  have htrace := trace_does hdoes
  have hquiet : (∀ w, v.allowed op w → w.Beside none) →
      Orderly L v'.run ∧ (v.Careful (.call op) → Sent v.run → Sent v'.run) := fun hallowed =>
    (keeps_beside_none (htrace.mono hallowed) ho).imp_right fun hsent _ => hsent
  cases hdoes with
  | nothing => exact ⟨ho, fun _ hs => hs⟩
  | @transaction op f effect run' hop h =>
    have hbumped : ∀ {fine : Prop}, Orderly L run' ∧ (fine → Sent v.run → Sent run') →
        Orderly L (run'.bump effect) ∧ (fine → Sent v.run → Sent (run'.bump effect)) :=
      fun hkept => ⟨hkept.1.quiet (executes_bump effect run') trivial,
        fun hfine hs => sent_bump effect (hkept.2 hfine hs)⟩
    cases hop with
    | rejectProposal hlive hheld | admitProposal hlive hheld =>
      exact ⟨orderly_trace htrace (fun _ => RunStatement.Beside.quiet) ho,
        fun hcareful hs => sent_beside htrace (spares_of_held hheld (hcareful hlive)) hs⟩
    | verdict hlive hheld hhome =>
      exact (hbumped (keeps_verdictEffect hheld hhome h ho)).imp_right fun hsent hcareful =>
        hsent (hcareful hlive)
    | inspect hlive =>
      exact (hbumped (keeps_claimExpiredEffect h ho)).imp_right fun hsent hcareful =>
        hsent (hcareful hlive)
    | inspectToken c hc =>
      exact (hbumped (keeps_claimExpiredEffect h ho)).imp_right fun hsent hcareful =>
        hsent (hcareful c hc)
    | refuseDispatch => exact absurd rfl (hdrain _ _ _ _ _ _)
    | _ => exact hquiet fun _ hw => hw
  | complete h =>
    refine ⟨orderly_complete h ho, fun hcareful hs =>
      sent_complete h (fun haction hunsent => hcareful ⟨haction, ?_, hunsent⟩) hs⟩
    exact (completeCommand_ok h).1
  | failJob _ hop =>
    rcases hop with rfl | ⟨_, _, _, _, _, _, rfl, -⟩
    · exact hquiet fun _ hw => hw
    · exact hquiet fun _ hw => hw
  | deliver => exact absurd rfl (hdeliver _ _ _)
  | drain => exact absurd rfl (hdrain _ _ _ _ _ _)
  | _ => exact hquiet fun _ hw => hw

theorem keeps_handOver (now : Millis) (owner : String) (answer : PortOutcome)
    (ho : Orderly L v.run) (haction : key.action = .deliver) :
    Orderly L (claiming key owner now (.ok ())
      (fun token => portAnswer key owner token answer) v).2.run ∧
    (Sent v.run → Sent (claiming key owner now (.ok ())
      (fun token => portAnswer key owner token answer) v).2.run) := by
  unfold claiming
  split
  · exact ⟨ho, fun hs => hs⟩
  rename_i run hclaim
  obtain ⟨⟨c, hc, hpending⟩, -, hdeliveries, -⟩ := claimed_rows haction hclaim ho
  unfold portAnswer
  split
  · exact ⟨ho.claim hclaim, fun hs => hs.claim hclaim⟩
  · exact ⟨ho.claim hclaim, fun hs => hs.claim hclaim⟩
  have hexec : Executes (.release key owner v.minted) run
      (run.releaseClaim key owner v.minted) := .release run key owner v.minted
  refine ⟨(ho.claim hclaim).steady hexec trivial fun key owner token hreleases _ => ?_,
    fun hs => (hs.claim hclaim).steady hexec trivial
      (fun k owner' token' hcompletes => by cases hcompletes)
      fun id result hsettles => by cases hsettles⟩
  cases hreleases
  unfold WorkflowRun.Sendable
  rw [hdeliveries]
  exact ho.ready key c hc haction hpending

/-- **One operation keeps the order, and, where nobody closes the command of a delivery that was
not sent, that what is done was sent.** -/
theorem keeps_step (op : DeliveryCall) (ho : Orderly L v.run) :
    Orderly (L ++ v.sends op) (deliveryStep host v op).run ∧
      (v.Careful op → Sent v.run → Sent (deliveryStep host v op).run) := by
  cases op with
  | handOver now key owner answer =>
    simp only [sends, List.append_nil, deliveryStep]
    split
    · rename_i haction
      obtain ⟨horder, hsent⟩ := keeps_handOver now owner answer ho haction
      exact ⟨horder, fun _ => hsent⟩
    · exact ⟨ho, fun _ hs => hs⟩
  | crash now key owner send written =>
    simp only [sends, deliveryStep]
    split
    · rename_i haction
      obtain ⟨horder, hsent⟩ := orderly_crash haction (.ok ()) send written ho
      exact ⟨horder, fun _ => hsent⟩
    · rw [List.append_nil]
      exact ⟨ho, fun _ hs => hs⟩
  | call op =>
    cases op with
    | executeDelivery now nodeId send =>
      obtain ⟨horder, hsent⟩ := keeps_executeDelivery now nodeId send ho
      exact ⟨horder, fun _ => hsent⟩
    | drainCommand now key refused owner answer send =>
      obtain ⟨horder, hsent⟩ := keeps_drainCommand now key refused owner answer send ho
      exact ⟨horder, fun _ => hsent⟩
    | _ =>
      rw [show v.sends (.call _) = [] from rfl, List.append_nil]
      exact keeps_does (does_step host v _) ho (by simp) (by simp)

/-! ## Acceptances -/

/-- A delivery that is owed stays so. -/
theorem owed_executes {run : WorkflowRun} (h : Executes w run run')
    (howed : (run.deliveries.get id).isSome = true) : (run'.deliveries.get id).isSome = true := by
  have hmodify : ∀ (k : NodeId) (f : DeliveryRow → DeliveryRow)
      (hf : ∀ d, Keyed.key (f d) = Keyed.key d),
      ((run.deliveries.modify k f hf).get id).isSome = true := by
    intro k f hf
    rw [Table.get_modify]
    split <;> simpa using howed
  cases h with
  | rest _ _ hdeliveries => rwa [hdeliveries]
  | node _ h =>
    obtain ⟨_, -, rfl⟩ := insertNode_ok h
    exact howed
  | queue h =>
    obtain ⟨_, -, rfl⟩ := queueCommand_ok h
    exact howed
  | complete h =>
    obtain ⟨-, rfl⟩ := completeCommand_ok h
    exact howed
  | release _ key owner token =>
    unfold releaseClaim
    split
    · split <;> exact howed
    · exact howed
  | cancel h => exact howed
  | cancelWork =>
    rw [WorkflowRun.cancelWork, Table.get_updateWhere]
    simpa using howed
  | inspect => exact howed
  | oblige _ nodeId revision =>
    unfold insertDelivery
    split
    · exact hmodify nodeId (DeliveryRow.refresh revision) fun _ => rfl
    rw [Table.get_put]
    split
    · rfl
    · exact howed
  | send h =>
    obtain ⟨-, rfl⟩ := bumpDeliveryAttempts_ok h
    exact hmodify _ DeliveryRow.bump fun _ => rfl
  | outcome h =>
    obtain ⟨-, rfl⟩ := setDeliveryOutcome_ok h
    exact hmodify _ (DeliveryRow.settle _ _) fun _ => rfl

theorem owed_claiming {owner : String} {now : Millis} {lost : Except WorkflowError Unit}
    {next : Nat → RunView → Except WorkflowError Unit × RunView}
    (hnext : ∀ token u, (u.run.deliveries.get id).isSome = true →
      (((next token u).2).run.deliveries.get id).isSome = true)
    (howed : (v.run.deliveries.get id).isSome = true) :
    ((claiming key owner now lost next v).2.run.deliveries.get id).isSome = true := by
  unfold claiming
  split
  · exact howed
  rename_i run hclaim
  obtain ⟨-, -, -, -, hrest⟩ := claimCommand_get hclaim
  refine hnext _ _ ?_
  rw [hrest]
  exact howed

theorem owed_crashedSend (owner : String) (token : Nat) (send : DeliverySend) (written : Nat)
    (howed : (v.run.deliveries.get id).isSome = true) :
    ((crashedSend key owner token send written v).2.run.deliveries.get id).isSome = true := by
  unfold crashedSend
  split
  · exact howed
  split
  · exact howed
  split
  · exact howed
  rename_i attempts run' hbump
  refine statements_keep (P := fun run => (run.deliveries.get id).isSome = true)
    (fun u hu => hu) _ (fun write hw run run' hrun' hrun => ?_) _
    (owed_executes (.send hbump) howed)
  have hwrite := List.mem_of_mem_take hw
  unfold sendStatements at hwrite
  split at hwrite
  · rcases List.mem_pair.1 hwrite with rfl | rfl
    · exact owed_executes (.outcome hrun') hrun
    · exact owed_executes (.complete hrun') hrun
  · split at hwrite
    · rcases List.mem_pair.1 hwrite with rfl | rfl
      · exact owed_executes (.complete hrun') hrun
      · exact owed_executes (.queue hrun') hrun
    · rcases List.mem_pair.1 hwrite with rfl | rfl
      · exact owed_executes (.outcome hrun') hrun
      · exact owed_executes (.complete hrun') hrun
  · rcases List.mem_pair.1 hwrite with rfl | rfl
    · exact owed_executes (.outcome hrun') hrun
    · exact owed_executes (.complete hrun') hrun

theorem owed_step (op : DeliveryCall) (howed : (v.run.deliveries.get id).isSome = true) :
    ((deliveryStep host v op).run.deliveries.get id).isSome = true := by
  cases op with
  | call op =>
    refine (trace_step host v op).keeps
      (P := fun u => (u.run.deliveries.get id).isSome = true) (fun a b hmakes hu => ?_) howed
    cases hmakes with
    | row _ hexec => exact owed_executes hexec hu
    | claim _ hclaim =>
      obtain ⟨_, -, -, -, hrest⟩ := claimCommand_get hclaim
      rw [hrest]
      exact hu
    | _ => exact hu
  | handOver now key owner answer =>
    simp only [deliveryStep]
    split
    · refine owed_claiming (fun token u hu => ?_) howed
      unfold portAnswer
      split
      · exact hu
      · exact hu
      · exact owed_executes (.release u.run _ owner token) hu
    · exact howed
  | crash now key owner send written =>
    simp only [deliveryStep]
    split
    · exact owed_claiming (fun token u hu => owed_crashedSend owner token send written hu) howed
    · exact howed

/-- An acceptance finds no delivery of its node and leaves one. -/
theorem owed_accepts {op : DeliveryCall} (ho : Orderly L v.run)
    (haccepts : v.acceptsNode host id op = true) :
    v.run.deliveries.get id = none ∧
      ((deliveryStep host v op).run.deliveries.get id).isSome = true := by
  unfold acceptsNode at haccepts
  split at haccepts
  · rename_i nodeId verdict claim
    obtain ⟨rfl, haccept, hchecked, hok⟩ := by simpa using haccepts
    change (submitVerdict nodeId verdict claim v).1.isOk = true at hok
    show v.run.deliveries.get nodeId = none ∧
      ((submitVerdict nodeId verdict claim v).2.run.deliveries.get nodeId).isSome = true
    unfold submitVerdict whenLive at hok ⊢
    split at hok
    · cases hok
    rename_i hlive
    rw [if_neg hlive]
    unfold guarded at hok ⊢
    dsimp only at hok ⊢
    split at hok
    · cases hok
    rename_i hheld
    split at hok
    · cases hok
    rename_i home hhome
    obtain ⟨n, hn, -, hopen⟩ := locateReviewNode_some hhome
    have hid : n.nodeId = nodeId := (Prod.mk.inj (Table.key_of_get hn)).2
    have hmem := Table.mem_of_get hn
    refine ⟨hid ▸ delivery_none_of_open ho hmem hopen, ?_⟩
    rcases committing_cases (onRun fun run =>
        run.verdictEffect home nodeId (boundVerdict verdict) claim) v with
      ⟨effect, v', happly, heq⟩ | ⟨e, -, heq⟩
    · obtain ⟨run', h, rfl⟩ := onRun_ok happly
      rw [heq]
      unfold verdictEffect at h
      rw [haccept] at h
      dsimp only at h
      rw [hheld, hchecked] at h
      obtain ⟨-, ⟨d, hd⟩, -⟩ := orderly_acceptedVerdictEffect hmem hid hopen h ho
      show (run'.deliveries.get nodeId).isSome = true
      rw [hd]
      rfl
    · rw [heq] at hok
      cases hok
  · cases haccepts

/-! ## Runs -/

/-- **Accepted content is delivered once.**  In every run of the operations on a run that starts
without deliveries, cut off where it may be: a node is accepted at most once, its delivery is sent
at most as often as allowed, and never after a send of which anything but a definitive failure
came; no two sends have the same idempotence key; and where nobody closes the command of a
delivery that was not sent, a delivery whose command is done was sent. -/
theorem deliveries_once (host : RunnerHost) (v : RunView)
    (hnamed : ∀ n ∈ v.run.nodes, n.nodeId.IsOf n.revision)
    (hfree : ∀ id, v.run.deliveries.get id = none)
    (hcommands : ∀ c ∈ v.run.commands, c.action ≠ .deliver) (ops : List DeliveryCall) :
    let log := outputs (deliveryStep host) sends v ops
    (∀ id, countSteps (deliveryStep host) (acceptsNode host id) v ops ≤ 1) ∧
    (∀ id, (log.filter (·.nodeId = id)).length ≤ deliveryMaxAttempts) ∧
    log.Pairwise (fun s t => s.nodeId = t.nodeId → s.outcome.isDefinitive = true) ∧
    (log.map (·.idempotenceKey v.run.runId)).Nodup ∧
    (StepsMeet (deliveryStep host) Careful v ops →
      ∀ c ∈ (runFrom (deliveryStep host) v ops).run.commands, c.action = .deliver →
        c.status = .done → ∃ s ∈ log, s.nodeId = c.nodeId) := by
  intro log
  have hno : ∀ key c, v.run.commands.get key = some c → key.action ≠ .deliver := fun key c hc => by
    obtain rfl : c.toCommandKey = key := Table.key_of_get hc
    exact hcommands c (Table.mem_of_get hc)
  have hzero : ∀ id, v.run.attempts id = 0 := fun id => attempts_of_none (hfree id)
  have hstart : Orderly [] v.run := by
    refine ⟨hnamed, (fun id d hd => by cases (hfree id).symm.trans hd),
      fun key c hc haction => absurd haction (hno key c hc),
      fun id key key' hkey _ => ?_, fun key c hc haction => absurd haction (hno key c hc),
      fun id => (hzero id).symm, (fun id => by rw [hzero]; exact Nat.zero_le _),
      (fun s hs => by cases hs), List.nodup_nil, List.Pairwise.nil⟩
    obtain ⟨c, hc, -⟩ := hkey.isOpen
    exact absurd hkey.action (hno key c hc)
  have hunsent : Sent v.run := ⟨fun key c hc haction => absurd haction (hno key c hc),
    fun key c hc haction => absurd haction (hno key c hc)⟩
  have horder : Orderly log (runFrom (deliveryStep host) v ops).run :=
    logged_of_stepsMeet (I := fun L (u : RunView) => Orderly L u.run)
      (fun L u op hu _ => (keeps_step op hu).1) ops [] v hstart
      (stepsMeet_of_all (fun _ _ => trivial) ops v : StepsMeet _ (fun _ _ => True) v ops)
  refine ⟨fun id => ?_, fun id => ?_, horder.final, ?_, fun hcareful c hc haction hdone => ?_⟩
  · -- a node that was accepted has a delivery, and keeps it
    have hflag : ∀ u op, (∃ L, Orderly L u.run) → (u.acceptsNode host id op).toNat +
        ((u.run.deliveries.get id).isSome).toNat ≤
          (((deliveryStep host u op).run.deliveries.get id).isSome).toNat := by
      rintro u op ⟨L, hu⟩
      cases haccepts : u.acceptsNode host id op with
      | true =>
        obtain ⟨hnone, hsome⟩ := owed_accepts hu haccepts
        rw [hnone, hsome]
        exact Nat.le_refl _
      | false =>
        cases howed : (u.run.deliveries.get id).isSome with
        | false => simp
        | true => rw [owed_step op howed]; simp
    exact countSteps_le_one_of_invariant (fun u op ⟨L, hu⟩ => ⟨_, (keeps_step op hu).1⟩) hflag
      ops v ⟨[], hstart⟩
  · rw [horder.counted]
    exact horder.bounded id
  · have hkeys := horder.distinct
    refine List.Nodup.of_map (fun key => (key.nodeId, key.attempt)) ?_
    rw [List.map_map]
    exact hkeys
  · have hboth : Orderly log (runFrom (deliveryStep host) v ops).run ∧
        Sent (runFrom (deliveryStep host) v ops).run :=
      logged_of_stepsMeet (I := fun L (u : RunView) => Orderly L u.run ∧ Sent u.run)
        (fun L u op hu hmeets => ⟨(keeps_step op hu.1).1, (keeps_step op hu.1).2 hmeets hu.2⟩)
        ops [] v ⟨hstart, hunsent⟩ hcareful
    have hcounts := hboth.2.done c.toCommandKey c (Table.get_key_of_mem hc) haction hdone
    rw [← horder.counted] at hcounts
    obtain ⟨s, hs⟩ := List.exists_mem_of_length_pos (Nat.pos_of_ne_zero hcounts)
    obtain ⟨hmem, hnode⟩ := List.mem_filter.1 hs
    exact ⟨s, hmem, by simpa using hnode⟩

/-! ### A delivery nobody sent -/

def soloPlan : PlanProposal where
  nodes := [⟨"work", .work, "do it", "general", ["out"], ["done"], [], false⟩]
  requiredOutputs := ["out"]
  allowPartial := false

def deliverKey : CommandKey := ⟨1, .hostReview 1, .deliver, 0⟩

def acceptance : List DeliveryCall :=
  [.call (.acceptPlan .none soloPlan), .call (.attemptSucceeded (.planned 1 0) "attempt" "[]"),
    .call (.submitVerdict (.hostReview 1) .accept none)]

/-- The drain claims the command of the delivery and does nothing more; the look at the claim
finds the review closed. -/
def lostClaim : List DeliveryCall :=
  [.handOver 0 deliverKey "drain" .started, .call (.inspectClaim claimLease deliverKey 1)]

/-- The command is done, the delivery is still owed, and nothing was sent. -/
theorem delivery_done_unsent :
    let v := runFrom (deliveryStep waveHost) waveStart (acceptance ++ lostClaim)
    (v.run.commands.get deliverKey).map (·.status) = some .done ∧
      (v.run.deliveries.get (.hostReview 1)).map (fun d => (d.outcome, d.attempts)) =
        some (.pending, 0) ∧
      v.run.state = .dispatched ∧
      v.run.commands.rows.all (fun c => c.action ≠ .deliver ∨ c.status.isOpen = false) = true ∧
      outputs (deliveryStep waveHost) sends waveStart (acceptance ++ lostClaim) = [] := by
  decide +kernel

theorem deliveries_once_acknowledged :
    ((outputs (deliveryStep waveHost) sends waveStart
      (acceptance ++ [.call (.executeDelivery 0 (.hostReview 1) (.receipt "seen"))])).filter
        (·.nodeId = .hostReview 1)).length ≤ deliveryMaxAttempts :=
  (deliveries_once waveHost waveStart (fun n hn => absurd hn (Table.not_mem_empty n))
    (fun _ => rfl) (fun c hc => absurd hc (Table.not_mem_empty c)) _).2.1 (.hostReview 1)

end RunView

end Abtars
