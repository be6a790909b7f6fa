import Abtars.Workflow.Traces

/-!
# Deliveries and their commands

An acceptance owes a delivery, and a command sends it.  A log of the sends is kept beside the rows;
what relates the two is kept by every statement that handles no delivery, and by those that do as
long as each comes in its turn.
-/

namespace Abtars

open Lib

/-! ## Sends -/

/-- A message as the sender is given it, and what comes of it.  Its idempotence key is made of the
run, the node and the number of the attempt. -/
structure DeliveryMessage where
  nodeId : NodeId
  revision : Nat
  attempt : Nat
  outcome : DeliverySend

structure IdempotenceKey where
  runId : String
  nodeId : NodeId
  attempt : Nat

def DeliveryMessage.idempotenceKey (runId : String) (s : DeliveryMessage) : IdempotenceKey :=
  ⟨runId, s.nodeId, s.attempt⟩

def DeliverySend.isDefinitive : DeliverySend → Bool
  | .definitive _ => true
  | .receipt _ | .ambiguous => false

/-- The statements that neither owe nor send a delivery, and queue no command for one. -/
def RunStatement.Steady : RunStatement → Prop
  | .queue key _ => key.action ≠ .deliver
  | .outcome _ result => result ≠ .pending
  | .oblige _ _ | .send _ => False
  | _ => True

def RunStatement.Quiet : RunStatement → Prop
  | .release key _ _ => key.action ≠ .deliver
  | w => w.Steady

theorem RunStatement.Quiet.steady {w : RunStatement} (h : w.Quiet) : w.Steady := by
  cases w with
  | release key owner token => trivial
  | _ => exact h

theorem RunStatement.Beside.quiet {claim : Option ClaimAuthority} {w : RunStatement}
    (h : w.Beside claim) : w.Quiet := by
  cases w with
  | queue key payload => exact h
  | release | oblige | send | outcome => exact h.elim
  | _ => trivial

namespace WorkflowRun

def attempts (run : WorkflowRun) (id : NodeId) : Nat :=
  ((run.deliveries.get id).map (·.attempts)).getD 0

structure OpenDeliver (run : WorkflowRun) (id : NodeId) (key : CommandKey) : Prop where
  action : key.action = .deliver
  node : key.nodeId = id
  isOpen : ∃ c, run.commands.get key = some c ∧ c.status.isOpen = true

def Sendable (L : List DeliveryMessage) (run : WorkflowRun) (id : NodeId) : Prop :=
  ∀ d, run.deliveries.get id = some d → d.outcome = .pending →
    d.attempts < deliveryMaxAttempts ∧ ∀ s ∈ L, s.nodeId = id → s.outcome.isDefinitive = true

structure Orderly (L : List DeliveryMessage) (run : WorkflowRun) : Prop where
  named : ∀ n ∈ run.nodes, n.nodeId.IsOf n.revision
  closed : ∀ id d, run.deliveries.get id = some d → (∃ n ∈ run.nodes, n.nodeId = id) ∧
    ∀ n ∈ run.nodes, n.nodeId = id → n.status.isOpen = false
  owed : ∀ key c, run.commands.get key = some c → key.action = .deliver →
    ∃ d, run.deliveries.get key.nodeId = some d
  single : ∀ id key key', run.OpenDeliver id key → run.OpenDeliver id key' → key = key'
  ready : ∀ key c, run.commands.get key = some c → key.action = .deliver →
    c.status = .pending → run.Sendable L key.nodeId
  counted : ∀ id, (L.filter (·.nodeId = id)).length = run.attempts id
  bounded : ∀ id, run.attempts id ≤ deliveryMaxAttempts
  numbered : ∀ s ∈ L, s.attempt ≤ run.attempts s.nodeId
  distinct : (L.map fun s => (s.nodeId, s.attempt)).Nodup
  final : L.Pairwise fun s t => s.nodeId = t.nodeId → s.outcome.isDefinitive = true

/-- A command of a delivery is done only after a send, and closed only while it is open. -/
structure Sent (run : WorkflowRun) : Prop where
  done : ∀ key c, run.commands.get key = some c → key.action = .deliver → c.status = .done →
    run.attempts key.nodeId ≠ 0
  fresh : ∀ key c, run.commands.get key = some c → key.action = .deliver →
    c.status.isOpen = true → run.attempts key.nodeId = 0 →
    ∀ d, run.deliveries.get key.nodeId = some d → d.outcome = .pending

section Statements

variable {L : List DeliveryMessage} {run run' : WorkflowRun} {w : RunStatement} {id : NodeId}
  {key : CommandKey}

theorem attempts_of_get {d : DeliveryRow} (h : run.deliveries.get id = some d) :
    run.attempts id = d.attempts := by
  rw [attempts, h]
  rfl

theorem attempts_of_none (h : run.deliveries.get id = none) : run.attempts id = 0 := by
  rw [attempts, h]
  rfl

structure Settles (d d' : DeliveryRow) : Prop where
  attempts : d'.attempts = d.attempts
  revision : d'.revision = d.revision
  outcome : d'.outcome = .pending → d.outcome = .pending

theorem Settles.refl (d : DeliveryRow) : Settles d d := ⟨rfl, rfl, fun h => h⟩

/-- A statement that handles no delivery may settle one, and adds none. -/
theorem Executes.settles (h : Executes w run run') (hw : w.Steady) (id : NodeId) :
    (run'.deliveries.get id = none ∧ run.deliveries.get id = none) ∨
      ∃ d d', run.deliveries.get id = some d ∧ run'.deliveries.get id = some d' ∧
        Settles d d' := by
  have hsame : run'.deliveries = run.deliveries →
      (run'.deliveries.get id = none ∧ run.deliveries.get id = none) ∨
        ∃ d d', run.deliveries.get id = some d ∧ run'.deliveries.get id = some d' ∧
          Settles d d' := by
    intro hsame
    rw [hsame]
    cases run.deliveries.get id with
    | none => exact .inl ⟨rfl, rfl⟩
    | some d => exact .inr ⟨d, d, rfl, rfl, .refl d⟩
  cases h with
  | rest _ _ hdeliveries => exact hsame hdeliveries
  | node _ h =>
    obtain ⟨_, -, rfl⟩ := insertNode_ok h
    exact hsame rfl
  | queue h =>
    obtain ⟨_, -, rfl⟩ := queueCommand_ok h
    exact hsame rfl
  | complete h =>
    obtain ⟨-, rfl⟩ := completeCommand_ok h
    exact hsame rfl
  | release _ key owner token =>
    refine hsame ?_
    unfold releaseClaim
    split
    · split <;> rfl
    · rfl
  | cancel h => exact hsame rfl
  | cancelWork =>
    have hget : run.cancelWork.deliveries.get id = (run.deliveries.get id).map fun d =>
        if d.outcome = .pending then d.abandon else d := by
      rw [WorkflowRun.cancelWork, Table.get_updateWhere]
      cases run.deliveries.get id <;> simp
    cases hd : run.deliveries.get id with
    | none => exact .inl ⟨by rw [hget, hd]; rfl, rfl⟩
    | some d =>
      refine .inr ⟨d, _, rfl, by rw [hget, hd]; rfl, ?_⟩
      dsimp only
      split
      · exact ⟨rfl, rfl, fun h => by cases h⟩
      · exact .refl d
  | inspect => exact hsame rfl
  | oblige nodeId revision => exact hw.elim
  | send h => exact hw.elim
  | @outcome _ _ nodeId outcome receipt h =>
    obtain ⟨-, rfl⟩ := setDeliveryOutcome_ok h
    rw [Table.get_modify]
    cases hd : run.deliveries.get id with
    | none => exact .inl ⟨by simp, rfl⟩
    | some d =>
      by_cases hid : id = nodeId
      · refine .inr ⟨d, d.settle outcome receipt, rfl, by simp [hid], rfl, rfl, ?_⟩
        exact fun hpending => absurd hpending hw
      · exact .inr ⟨d, d, rfl, by simp [hid], .refl d⟩

theorem Executes.attempts (h : Executes w run run') (hw : w.Steady) (id : NodeId) :
    run'.attempts id = run.attempts id := by
  rcases h.settles hw id with ⟨hnone', hnone⟩ | ⟨d, d', hd, hd', hsettles⟩
  · rw [attempts_of_none hnone', attempts_of_none hnone]
  · rw [attempts_of_get hd, attempts_of_get hd', hsettles.attempts]

theorem Executes.sendable (h : Executes w run run') (hw : w.Steady)
    (hsendable : run.Sendable L id) : run'.Sendable L id := by
  intro d' hd' hpending
  rcases h.settles hw id with ⟨hnone, -⟩ | ⟨d, e, hd, he, hsettles⟩
  · cases hnone.symm.trans hd'
  · obtain rfl := Option.some.inj (he.symm.trans hd')
    rw [hsettles.attempts]
    exact hsendable d hd (hsettles.outcome hpending)

/-- No statement opens a node again. -/
theorem Executes.nodes (h : Executes w run run') :
    (∃ row, row.nodeId.IsOf row.revision ∧ run.insertNode row = .ok run') ∨
      run.KeepsNodes run' := by
  cases h with
  | rest hwork _ _ => exact .inr hwork.nodes
  | node hnamed h => exact .inl ⟨_, hnamed, h⟩
  | queue h =>
    obtain ⟨_, -, rfl⟩ := queueCommand_ok h
    exact .inr (keepsNodes_of_eq rfl)
  | complete h =>
    obtain ⟨-, rfl⟩ := completeCommand_ok h
    exact .inr (keepsNodes_of_eq rfl)
  | release _ key owner token =>
    refine .inr (keepsNodes_of_eq ?_)
    unfold releaseClaim
    split
    · split <;> rfl
    · rfl
  | cancel h => exact .inr (keepsNodes_of_eq rfl)
  | cancelWork => exact .inr (writes_cancelWork (Q := False) run).keepsNodes
  | inspect => exact .inr (keepsNodes_of_eq rfl)
  | oblige nodeId revision =>
    refine .inr (keepsNodes_of_eq ?_)
    unfold insertDelivery
    split <;> rfl
  | send h =>
    obtain ⟨-, rfl⟩ := bumpDeliveryAttempts_ok h
    exact .inr (keepsNodes_of_eq rfl)
  | outcome h =>
    obtain ⟨-, rfl⟩ := setDeliveryOutcome_ok h
    exact .inr (keepsNodes_of_eq rfl)

theorem Turns.isOpen {c c' : WorkflowCommand} (h : Turns w c c') (hopen : c'.status.isOpen = true) :
    c.status.isOpen = true := by
  cases h with
  | same => exact hopen
  | completed _ _ _ _ => cases hopen
  | released owner token _ hheld =>
    rw [(heldBy_iff.1 hheld).1]
    rfl
  | dropped _ hopen' _ _ _ => exact hopen'
  | inspected gen inconclusive next _ _ _ => exact hopen

theorem Executes.openDeliver (h : Executes w run run') (hopen : run'.OpenDeliver id key) :
    (∃ payload, w = .queue key payload) ∨ run.OpenDeliver id key := by
  obtain ⟨c', hc', hstatus⟩ := hopen.isOpen
  rcases h.command_origin hc' with ⟨payload, hw, -, -⟩ | ⟨c, hc, hturns⟩
  · exact .inl ⟨payload, hw⟩
  · exact .inr ⟨hopen.action, hopen.node, c, hc, hturns.isOpen hstatus⟩

/-! ## The rows after a statement -/

variable {owner : String} {token n : Nat} {now : Millis} {payload : CommandPayload}

theorem claimCommand_get (h : run.claimCommand key owner token now = some run') :
    ∃ c, run.commands.get key = some c ∧ c.status = .pending ∧
      (∀ key', run'.commands.get key' =
        if key' = key then some (c.claim owner token now) else run.commands.get key') ∧
      run' = { run with commands := run'.commands } := by
  obtain ⟨⟨c, hc, hpending⟩, rfl⟩ := claimCommand_some h
  refine ⟨c, hc, hpending, fun key' => ?_, rfl⟩
  rw [Table.get_modify]
  split
  · rename_i hkey
    rw [hkey, hc]
    rfl
  · rfl

theorem queueCommand_get (h : run.queueCommand key payload = .ok run') :
    (∀ k, run'.commands.get k =
      if k = key then some (newCommand key payload) else run.commands.get k) ∧
      run' = { run with commands := run'.commands } := by
  obtain ⟨commands, hinsert, rfl⟩ := queueCommand_ok h
  refine ⟨fun k => ?_, rfl⟩
  rw [Table.get_of_insert hinsert]
  rfl

variable (revision : Nat)

theorem insertDelivery_get (hnew : run.deliveries.get id = none) :
    (∀ k, (run.insertDelivery id revision).deliveries.get k =
      if k = id then some ⟨id, revision, .pending, 0, none⟩ else run.deliveries.get k) ∧
    (∀ k, (run.insertDelivery id revision).attempts k = run.attempts k) ∧
      run.insertDelivery id revision =
        { run with deliveries := (run.insertDelivery id revision).deliveries } := by
  have hget : ∀ k, (run.insertDelivery id revision).deliveries.get k =
      if k = id then some ⟨id, revision, .pending, 0, none⟩ else run.deliveries.get k := by
    intro k
    rw [insertDelivery, hnew]
    exact Table.get_put _ _ _
  refine ⟨hget, fun k => ?_, by rw [insertDelivery, hnew]⟩
  rw [attempts, hget]
  split
  · rename_i hk
    rw [hk, attempts_of_none hnew]
    rfl
  · rfl

theorem bumpDeliveryAttempts_get (h : run.bumpDeliveryAttempts id = .ok (n, run')) :
    ∃ d, run.deliveries.get id = some d ∧ d.outcome = .pending ∧ n = d.attempts + 1 ∧
      (∀ k, run'.deliveries.get k = if k = id then some d.bump else run.deliveries.get k) ∧
      (∀ k, run'.attempts k = run.attempts k + if k = id then 1 else 0) ∧
      run' = { run with deliveries := run'.deliveries } := by
  obtain ⟨⟨d, hd, hpending, rfl⟩, rfl⟩ := bumpDeliveryAttempts_ok h
  have hget : ∀ k, (run.deliveries.modify id DeliveryRow.bump).get k =
      if k = id then some d.bump else run.deliveries.get k := by
    intro k
    rw [Table.get_modify]
    split
    · rename_i hk
      rw [hk, hd]
      rfl
    · rfl
  refine ⟨d, hd, hpending, rfl, hget, fun k => ?_, rfl⟩
  rw [attempts, hget]
  split
  · rename_i hk
    rw [hk, attempts_of_get hd]
    rfl
  · rfl

/-! ## Statements that handle no delivery -/

theorem Orderly.nodes (h : Executes w run run') (ho : Orderly L run) :
    (∀ n ∈ run'.nodes, n.nodeId.IsOf n.revision) ∧
      ∀ id d, run.deliveries.get id = some d → (∃ n ∈ run'.nodes, n.nodeId = id) ∧
        ∀ n ∈ run'.nodes, n.nodeId = id → n.status.isOpen = false := by
  rcases h.nodes with ⟨row, hnamed, hinsert⟩ | hkeeps
  · obtain ⟨nodes, hnodes, rfl⟩ := insertNode_ok hinsert
    constructor
    · intro n hn
      rcases (Table.mem_insert hnodes).1 hn with hold | rfl
      · exact ho.named n hold
      · exact hnamed
    intro id d hd
    obtain ⟨⟨m, hm, hid⟩, hclosed⟩ := ho.closed id d hd
    refine ⟨⟨m, (Table.mem_insert hnodes).2 (.inl hm), hid⟩, fun n hn hid' => ?_⟩
    rcases (Table.mem_insert hnodes).1 hn with hold | rfl
    · exact hclosed n hold hid'
    -- a node of this id has its row already
    have hrevision : m.revision = n.revision :=
      (ho.named m hm).unique (by rw [hid, ← hid']; exact hnamed)
    have hfree := (Table.insert_eq_some_iff.1 hnodes).1
    exact absurd (by rw [key_nodeRow, key_nodeRow, hrevision, hid, hid'])
      (Table.get_eq_none_iff.1 hfree m hm)
  · constructor
    · intro n' hn'
      obtain ⟨n, hn, hkept⟩ := hkeeps.origin n' hn'
      rw [hkept.nodeId, hkept.revision]
      exact ho.named n hn
    intro id d hd
    obtain ⟨⟨m, hm, hid⟩, hclosed⟩ := ho.closed id d hd
    obtain ⟨m', hm', hkept⟩ := hkeeps.successor m hm
    refine ⟨⟨m', hm', hkept.nodeId.trans hid⟩, fun n' hn' hid' => ?_⟩
    obtain ⟨n, hn, hkept'⟩ := hkeeps.origin n' hn'
    have hwas := hclosed n hn (hkept'.nodeId.symm.trans hid')
    by_contra hopen
    rw [hkept'.isOpen (by simpa using hopen)] at hwas
    cases hwas

/-- A statement that owes, sends and queues no delivery keeps the order, where what it gives back
may be sent. -/
theorem Orderly.steady (h : Executes w run run') (hw : w.Steady)
    (hback : ∀ key owner token, w = .release key owner token → key.action = .deliver →
      run.Sendable L key.nodeId) (ho : Orderly L run) : Orderly L run' where
  named := (ho.nodes h).1
  closed := by
    intro id d' hd'
    rcases h.settles hw id with ⟨hnone, -⟩ | ⟨d, -, hd, -, -⟩
    · cases hnone.symm.trans hd'
    · exact (ho.nodes h).2 id d hd
  owed := by
    intro key c' hc' haction
    rcases h.command_origin hc' with ⟨payload, rfl, -, -⟩ | ⟨c, hc, -⟩
    · exact absurd haction hw
    obtain ⟨d, hd⟩ := ho.owed key c hc haction
    rcases h.settles hw key.nodeId with ⟨-, hnone⟩ | ⟨-, d', -, hd', -⟩
    · cases hnone.symm.trans hd
    · exact ⟨d', hd'⟩
  single := by
    intro id key key' hkey hkey'
    have hold : ∀ {k}, run'.OpenDeliver id k → run.OpenDeliver id k := fun hk => by
      rcases h.openDeliver hk with ⟨payload, rfl⟩ | hk'
      · exact absurd hk.action hw
      · exact hk'
    exact ho.single id key key' (hold hkey) (hold hkey')
  ready := by
    intro key c' hc' haction hpending
    rcases h.command_origin hc' with ⟨payload, rfl, -, -⟩ | ⟨c, hc, hturns⟩
    · exact absurd haction hw
    refine h.sendable hw ?_
    obtain rfl : c.toCommandKey = key := Table.key_of_get hc
    cases hturns with
    | same => exact ho.ready _ _ hc haction hpending
    | completed _ _ _ _ => cases hpending
    | released owner token hw' _ => exact hback _ owner token hw' haction
    | dropped _ _ hstatus _ _ => cases hstatus.symm.trans hpending
    | inspected gen inconclusive next _ _ _ => exact ho.ready _ c hc haction hpending
  counted := fun id => by rw [h.attempts hw]; exact ho.counted id
  bounded := fun id => by rw [h.attempts hw]; exact ho.bounded id
  numbered := fun s hs => by rw [h.attempts hw]; exact ho.numbered s hs
  distinct := ho.distinct
  final := ho.final

theorem Orderly.quiet (h : Executes w run run') (hw : w.Quiet) (ho : Orderly L run) :
    Orderly L run' :=
  ho.steady h hw.steady fun key owner token hrelease haction => by
    subst hrelease
    exact absurd haction hw

theorem Orderly.claim (h : run.claimCommand key owner token now = some run') (ho : Orderly L run) :
    Orderly L run' := by
  obtain ⟨c, hc, hpending, hget, hrest⟩ := claimCommand_get h
  have hopen : ∀ {id k}, run'.OpenDeliver id k → run.OpenDeliver id k := by
    rintro id k ⟨haction, hnode, c', hc', hstatus⟩
    rw [hget] at hc'
    split at hc'
    · rename_i hkey
      subst hkey
      exact ⟨haction, hnode, c, hc, by rw [hpending]; rfl⟩
    · exact ⟨haction, hnode, c', hc', hstatus⟩
  have hdeliveries : run'.deliveries = run.deliveries := by rw [hrest]
  have hnodes : run'.nodes = run.nodes := by rw [hrest]
  refine ⟨by rw [hnodes]; exact ho.named, by rw [hnodes, hdeliveries]; exact ho.closed, ?_,
    fun id k k' hk hk' => ho.single id k k' (hopen hk) (hopen hk'), ?_, ?_, ?_, ?_,
    ho.distinct, ho.final⟩
  · intro k c' hc' haction
    rw [hdeliveries]
    rw [hget] at hc'
    split at hc'
    · rename_i hkey
      subst hkey
      exact ho.owed k c hc haction
    · exact ho.owed k c' hc' haction
  · intro k c' hc' haction hstatus
    rw [hget] at hc'
    split at hc'
    · cases hc'
      cases hstatus
    · unfold Sendable
      rw [hdeliveries]
      exact ho.ready k c' hc' haction hstatus
  · intro id
    rw [attempts, hdeliveries]
    exact ho.counted id
  · intro id
    rw [attempts, hdeliveries]
    exact ho.bounded id
  · intro s hs
    rw [attempts, hdeliveries]
    exact ho.numbered s hs

/-! ## Statements that handle one -/

/-- A delivery that was never owed: the review is closed. -/
theorem Orderly.oblige (hnew : run.deliveries.get id = none)
    (hnode : ∃ n ∈ run.nodes, n.nodeId = id)
    (hclosed : ∀ n ∈ run.nodes, n.nodeId = id → n.status.isOpen = false) (ho : Orderly L run) :
    Orderly L (run.insertDelivery id revision) := by
  obtain ⟨hget, hattempts, hrest⟩ := insertDelivery_get revision hnew
  have hnone : ∀ k c, run.commands.get k = some c → k.action = .deliver → k.nodeId ≠ id := by
    intro k c hc haction hk
    obtain ⟨d, hd⟩ := ho.owed k c hc haction
    rw [hk, hnew] at hd
    cases hd
  generalize run.insertDelivery id revision = run' at hget hattempts hrest ⊢
  have hnodes : run'.nodes = run.nodes := by rw [hrest]
  have hcommands : run'.commands = run.commands := by rw [hrest]
  have hopen : ∀ {k key}, run'.OpenDeliver k key → run.OpenDeliver k key :=
    fun ⟨haction, hid, hc⟩ => ⟨haction, hid, hcommands ▸ hc⟩
  refine ⟨by rw [hnodes]; exact ho.named, fun k d hd => ?_, fun k c hc haction => ?_,
    fun k key key' hkey hkey' => ho.single k key key' (hopen hkey) (hopen hkey'),
    fun k c hc haction hpending => ?_, fun k => by rw [hattempts]; exact ho.counted k,
    fun k => by rw [hattempts]; exact ho.bounded k,
    fun s hs => by rw [hattempts]; exact ho.numbered s hs, ho.distinct, ho.final⟩
  · rw [hnodes]
    rw [hget] at hd
    split at hd
    · rename_i hk
      rw [hk]
      exact ⟨hnode, hclosed⟩
    · exact ho.closed k d hd
  · rw [hcommands] at hc
    rw [hget, if_neg (hnone k c hc haction)]
    exact ho.owed k c hc haction
  · intro d hd
    rw [hcommands] at hc
    rw [hget, if_neg (hnone k c hc haction)] at hd
    exact ho.ready k c hc haction hpending d hd

/-- A command for a delivery that waits in no other. -/
theorem Orderly.queue (h : run.queueCommand key payload = .ok run')
    (howed : ∃ d, run.deliveries.get key.nodeId = some d)
    (hfree : ∀ k, ¬ run.OpenDeliver key.nodeId k) (hsendable : run.Sendable L key.nodeId)
    (ho : Orderly L run) : Orderly L run' := by
  obtain ⟨hget, hrest⟩ := queueCommand_get h
  have hnodes : run'.nodes = run.nodes := by rw [hrest]
  have hdeliveries : run'.deliveries = run.deliveries := by rw [hrest]
  have hopen : ∀ {id k}, run'.OpenDeliver id k → k = key ∨ run.OpenDeliver id k := by
    rintro id k ⟨haction, hnode, c', hc', hstatus⟩
    rw [hget] at hc'
    split at hc'
    · rename_i hkey
      exact .inl hkey
    · exact .inr ⟨haction, hnode, c', hc', hstatus⟩
  refine ⟨by rw [hnodes]; exact ho.named, by rw [hnodes, hdeliveries]; exact ho.closed,
    fun k c hc haction => ?_, fun id k k' hk hk' => ?_, fun k c hc haction hpending => ?_,
    fun id => by rw [attempts, hdeliveries]; exact ho.counted id,
    fun id => by rw [attempts, hdeliveries]; exact ho.bounded id,
    fun s hs => by rw [attempts, hdeliveries]; exact ho.numbered s hs, ho.distinct, ho.final⟩
  · rw [hdeliveries]
    rw [hget] at hc
    split at hc
    · rename_i hkey
      rw [hkey]
      exact howed
    · exact ho.owed k c hc haction
  · rcases hopen hk with rfl | hold
    · rcases hopen hk' with rfl | hold'
      · rfl
      · exact absurd (hk.node ▸ hold') (hfree k')
    · rcases hopen hk' with rfl | hold'
      · exact absurd (hk'.node ▸ hold) (hfree k)
      · exact ho.single id k k' hold hold'
  · unfold Sendable
    rw [hdeliveries]
    rw [hget] at hc
    split at hc
    · rename_i hkey
      rw [hkey]
      exact hsendable
    · exact ho.ready k c hc haction hpending

/-- A send of a delivery that may be sent, and that no pending command waits to send again. -/
theorem Orderly.send {d : DeliveryRow} (outcome : DeliverySend)
    (h : run.bumpDeliveryAttempts id = .ok (n, run')) (hd : run.deliveries.get id = some d)
    (hsendable : run.Sendable L id)
    (hidle : ∀ key c, run.commands.get key = some c → key.action = .deliver →
      key.nodeId = id → c.status ≠ .pending) (ho : Orderly L run) :
    Orderly (L ++ [⟨id, d.revision, n, outcome⟩]) run' := by
  obtain ⟨e, he, hpending, rfl, hget, hattempts, hrest⟩ := bumpDeliveryAttempts_get h
  obtain rfl : e = d := Option.some.inj (he.symm.trans hd)
  obtain ⟨hbelow, hlast⟩ := hsendable e hd hpending
  have hnodes : run'.nodes = run.nodes := by rw [hrest]
  have hcommands : run'.commands = run.commands := by rw [hrest]
  have hopen : ∀ {k key}, run'.OpenDeliver k key → run.OpenDeliver k key :=
    fun ⟨haction, hid, hc⟩ => ⟨haction, hid, hcommands ▸ hc⟩
  refine ⟨by rw [hnodes]; exact ho.named, fun k d' hd' => ?_, fun k c hc haction => ?_,
    fun k key key' hkey hkey' => ho.single k key key' (hopen hkey) (hopen hkey'),
    fun k c hc haction hwaits => ?_, fun k => ?_, fun k => ?_, fun s hs => ?_, ?_, ?_⟩
  · rw [hnodes]
    rw [hget] at hd'
    split at hd'
    · rename_i hk
      rw [hk]
      exact ho.closed id e hd
    · exact ho.closed k d' hd'
  · rw [hcommands] at hc
    obtain ⟨d', hd'⟩ := ho.owed k c hc haction
    rw [hget]
    split
    · exact ⟨_, rfl⟩
    · exact ⟨d', hd'⟩
  · rw [hcommands] at hc
    have hk : k.nodeId ≠ id := fun hk => hidle k c hc haction hk hwaits
    intro d' hd' hpending'
    rw [hget, if_neg hk] at hd'
    obtain ⟨hbelow', hlast'⟩ := ho.ready k c hc haction hwaits d' hd' hpending'
    refine ⟨hbelow', fun s hs hnode => ?_⟩
    rcases List.mem_append.1 hs with hold | hnew
    · exact hlast' s hold hnode
    · rw [List.mem_singleton.1 hnew] at hnode
      exact absurd hnode.symm hk
  · rw [hattempts, List.filter_append, List.length_append, ho.counted k]
    by_cases hk : k = id
    · simp [hk]
    · simp [hk, Ne.symm hk]
  · rw [hattempts]
    split
    · rename_i hk
      rw [hk, attempts_of_get hd]
      omega
    · exact ho.bounded k
  · rw [hattempts]
    rcases List.mem_append.1 hs with hold | hnew
    · exact Nat.le_add_right_of_le (ho.numbered s hold)
    · rw [List.mem_singleton.1 hnew]
      rw [if_pos rfl, attempts_of_get hd]
  · rw [List.map_append, List.nodup_append]
    refine ⟨ho.distinct, by simp, ?_⟩
    intro a ha b hb hab
    obtain ⟨s, hs, rfl⟩ := List.mem_map.1 ha
    obtain rfl : b = (id, e.attempts + 1) := by simpa using hb
    have hnumber := ho.numbered s hs
    rw [(Prod.mk.inj hab).1, attempts_of_get hd, (Prod.mk.inj hab).2] at hnumber
    omega
  · rw [List.pairwise_append]
    refine ⟨ho.final, List.pairwise_singleton _ _, fun s hs t ht hnode => ?_⟩
    rw [List.mem_singleton.1 ht] at hnode
    exact hlast s hs hnode

/-! ## A command that is done was sent -/

theorem Executes.untouched (h : Executes w run run') (hw : w.Steady)
    (hcancel : w ≠ .cancelWork) (houtcome : ∀ result, w ≠ .outcome id result) :
    run'.deliveries.get id = run.deliveries.get id := by
  cases h with
  | rest _ _ hdeliveries => rw [hdeliveries]
  | node _ h =>
    obtain ⟨_, -, rfl⟩ := insertNode_ok h
    rfl
  | queue h =>
    obtain ⟨_, -, rfl⟩ := queueCommand_ok h
    rfl
  | complete h =>
    obtain ⟨-, rfl⟩ := completeCommand_ok h
    rfl
  | release _ key owner token =>
    unfold releaseClaim
    split
    · split <;> rfl
    · rfl
  | cancel h => rfl
  | cancelWork => exact absurd rfl hcancel
  | inspect => rfl
  | oblige nodeId revision => exact hw.elim
  | send h => exact hw.elim
  | @outcome _ _ nodeId result receipt h =>
    obtain ⟨-, rfl⟩ := setDeliveryOutcome_ok h
    refine Table.get_modify_of_ne _ (DeliveryRow.settle result receipt) (fun _ => rfl) ?_
    rintro rfl
    exact houtcome result rfl

theorem Sent.steady (h : Executes w run run') (hw : w.Steady)
    (hcomplete : ∀ key owner token, w = .complete key owner token → key.action = .deliver →
      run.attempts key.nodeId ≠ 0)
    (houtcome : ∀ id result, w = .outcome id result → run.attempts id ≠ 0) (hs : Sent run) :
    Sent run' := by
  constructor
  · intro key c' hc' haction hdone
    rw [h.attempts hw]
    rcases h.command_origin hc' with ⟨payload, rfl, -, rfl⟩ | ⟨c, hc, hturns⟩
    · cases hdone
    obtain rfl : c.toCommandKey = key := Table.key_of_get hc
    cases hturns with
    | same => exact hs.done _ _ hc haction hdone
    | completed owner token hw' _ => exact hcomplete _ owner token hw' haction
    | released _ _ _ _ => cases hdone
    | dropped _ _ hstatus _ _ => cases hstatus.symm.trans hdone
    | inspected gen inconclusive next _ _ _ => exact hs.done _ _ hc haction hdone
  · intro key c' hc' haction hopen hzero
    rw [h.attempts hw] at hzero
    rcases h.command_origin hc' with ⟨payload, rfl, -, rfl⟩ | ⟨c, hc, hturns⟩
    · exact absurd haction hw
    have hpending := hs.fresh key c hc haction (hturns.isOpen hopen) hzero
    by_cases hcancel : w = .cancelWork
    · -- everything that was open is cancelled
      subst hcancel
      cases h with
      | cancelWork =>
        rw [WorkflowRun.cancelWork, Table.get_updateWhere, hc] at hc'
        obtain rfl := Option.some.inj hc'
        dsimp only at hopen
        split at hopen
        · cases hopen
        · rename_i hwas
          exact absurd hopen hwas
    · rw [h.untouched hw hcancel fun result hw' => houtcome _ result hw' hzero]
      exact hpending

theorem Sent.claim (h : run.claimCommand key owner token now = some run') (hs : Sent run) :
    Sent run' := by
  obtain ⟨c, hc, hpending, hget, hrest⟩ := claimCommand_get h
  have hdeliveries : run'.deliveries = run.deliveries := by rw [hrest]
  constructor
  · intro k c' hc' haction hdone
    rw [attempts, hdeliveries]
    rw [hget] at hc'
    split at hc'
    · cases hc'
      cases hdone
    · exact hs.done k c' hc' haction hdone
  · intro k c' hc' haction hopen hzero
    rw [attempts, hdeliveries] at hzero
    rw [hdeliveries]
    rw [hget] at hc'
    split at hc'
    · rename_i hkey
      subst hkey
      exact hs.fresh k c hc haction (by rw [hpending]; rfl) hzero
    · exact hs.fresh k c' hc' haction hopen hzero

theorem Sent.oblige (hnew : run.deliveries.get id = none) (hs : Sent run) :
    Sent (run.insertDelivery id revision) := by
  obtain ⟨hget, hattempts, -⟩ := insertDelivery_get revision hnew
  constructor
  · intro k c hc haction hdone
    rw [commands_insertDelivery] at hc
    rw [hattempts]
    exact hs.done k c hc haction hdone
  intro k c hc haction hopen hzero d hd
  rw [commands_insertDelivery] at hc
  rw [hattempts] at hzero
  rw [hget] at hd
  split at hd
  · cases hd
    rfl
  · exact hs.fresh k c hc haction hopen hzero d hd

theorem Sent.queue (h : run.queueCommand key payload = .ok run')
    (hpending : ∀ d, run.deliveries.get key.nodeId = some d → d.outcome = .pending) (hs : Sent run) : Sent run' := by
  obtain ⟨hget, hrest⟩ := queueCommand_get h
  have hdeliveries : run'.deliveries = run.deliveries := by rw [hrest]
  constructor
  · intro k c hc haction hdone
    rw [attempts, hdeliveries]
    rw [hget] at hc
    split at hc
    · cases hc
      cases hdone
    · exact hs.done k c hc haction hdone
  · intro k c hc haction hopen hzero
    rw [attempts, hdeliveries] at hzero
    rw [hdeliveries]
    rw [hget] at hc
    split at hc
    · rename_i hkey
      rw [hkey]
      exact hpending
    · exact hs.fresh k c hc haction hopen hzero

theorem Sent.send (h : run.bumpDeliveryAttempts id = .ok (n, run')) (hs : Sent run) :
    Sent run' := by
  obtain ⟨d, hd, -, -, hget, hattempts, hrest⟩ := bumpDeliveryAttempts_get h
  have hcommands : run'.commands = run.commands := by rw [hrest]
  constructor
  · intro k c hc haction hdone
    rw [hcommands] at hc
    rw [hattempts]
    have := hs.done k c hc haction hdone
    omega
  intro k c hc haction hopen hzero d' hd'
  rw [hcommands] at hc
  rw [hattempts] at hzero
  rw [hget] at hd'
  split at hd'
  · rename_i hk
    rw [if_pos hk] at hzero
    omega
  · exact hs.fresh k c hc haction hopen (by omega) d' hd'

end Statements

end WorkflowRun

end Abtars
