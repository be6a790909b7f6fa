import Mathlib.Logic.Relation
import Abtars.Lib.Evolution
import Abtars.Workflow.Appliers

/-!
# What the appliers write

Apart from admitting a revision and opening a repair round, every applier of the runner is a
sequence of `Write`s: single statements on the rows of one run.  A fact that each `Write` keeps is
kept by all of them.
-/

namespace Abtars

open Lib

variable {r r' : Nat}

/-! ## Rows within the admitted revisions -/

def NodeId.Within (current : Nat) : NodeId → Prop
  | .planned r _ => r ≤ current
  | .hostReview r => r ≤ current
  | .initialPlan => True
  | .input => True

def NodeId.IsOf (revision : Nat) : NodeId → Prop
  | .planned r _ => r = revision
  | .hostReview r => r = revision
  | .initialPlan => False
  | .input => False

def OpId.Within (current : Nat) : OpId → Prop
  | .initialPlan => True
  | .node r nodeId => r ≤ current ∧ nodeId.Within current
  | .repair r nodeId => r ≤ current ∧ nodeId.Within current

structure CommandPayload.Within (current : Nat) (p : CommandPayload) : Prop where
  revision : ∀ r, p.revision = some r → r ≤ current
  opId : ∀ id, p.opId = some id → id.Within current

structure OperationRow.Within (current : Nat) (o : OperationRow) : Prop where
  opId : o.opId.Within current
  revision : ∀ r, o.revision = some r → r ≤ current

theorem NodeId.Within.mono {id : NodeId} (h : id.Within r) (hle : r ≤ r') : id.Within r' := by
  cases id <;> simp only [NodeId.Within] at h ⊢ <;> omega

theorem NodeId.IsOf.unique {id : NodeId} (h : id.IsOf r) (h' : id.IsOf r') : r = r' := by
  cases id <;> simp only [NodeId.IsOf] at h h' <;> omega

theorem OpId.Within.mono {id : OpId} (h : id.Within r) (hle : r ≤ r') : id.Within r' := by
  cases id with
  | initialPlan => trivial
  | node _ _ => exact ⟨h.1.trans hle, h.2.mono hle⟩
  | repair _ _ => exact ⟨h.1.trans hle, h.2.mono hle⟩

theorem CommandPayload.Within.mono {p : CommandPayload} (h : p.Within r)
    (hle : r ≤ r') : p.Within r' :=
  ⟨fun s hs => (h.revision s hs).trans hle, fun id hid => (h.opId id hid).mono hle⟩

theorem OperationRow.Within.mono {o : OperationRow} (h : o.Within r) (hle : r ≤ r') : o.Within r' :=
  ⟨h.opId.mono hle, fun s hs => (h.revision s hs).trans hle⟩

/-! ## Statements -/

structure NodeRow.Kept (n n' : NodeRow) : Prop where
  revision : n'.revision = n.revision
  nodeId : n'.nodeId = n.nodeId
  kind : n'.kind = n.kind
  isOpen : n'.status.isOpen = true → n.status.isOpen = true

structure DepRow.Kept (d d' : DepRow) : Prop where
  revision : d'.revision = d.revision
  nodeId : d'.nodeId = d.nodeId
  dependsOn : d'.dependsOn = d.dependsOn
  satisfied : d.satisfied = true → d'.satisfied = true

structure WorkflowCommand.Kept (c c' : WorkflowCommand) : Prop where
  key : c'.toCommandKey = c.toCommandKey
  payload : c'.payload = c.payload
  isOpen : c'.status.isOpen = true → c.status.isOpen = true

structure DeliveryRow.Kept (d d' : DeliveryRow) : Prop where
  nodeId : d'.nodeId = d.nodeId

theorem NodeRow.Kept.refl (n : NodeRow) : n.Kept n := ⟨rfl, rfl, rfl, id⟩
theorem DeliveryRow.Kept.refl (d : DeliveryRow) : d.Kept d := ⟨rfl⟩
theorem DepRow.Kept.refl (d : DepRow) : d.Kept d := ⟨rfl, rfl, rfl, id⟩
theorem WorkflowCommand.Kept.refl (c : WorkflowCommand) : c.Kept c := ⟨rfl, rfl, id⟩

theorem WorkflowCommand.Kept.trans {a b c : WorkflowCommand} (h : a.Kept b) (h' : b.Kept c) :
    a.Kept c :=
  ⟨h'.key.trans h.key, h'.payload.trans h.payload, h.isOpen ∘ h'.isOpen⟩

theorem NodeRow.kept_withStatus {status : NodeStatus} {n : NodeRow}
    (h : status.isOpen = true → n.status.isOpen = true) : n.Kept (n.withStatus status) :=
  ⟨rfl, rfl, rfl, h⟩

theorem WorkflowCommand.kept_close {status : CommandStatus} (h : status.isOpen = false)
    (c : WorkflowCommand) : c.Kept (c.close status) :=
  ⟨rfl, rfl, fun hopen => by simp [WorkflowCommand.close, h] at hopen⟩

namespace WorkflowRun

variable {run run' : WorkflowRun} {nodeId : NodeId} {status : NodeStatus}
  {outcome : Option NodeOutcome} {attemptId : Option String}

def Delivers (run : WorkflowRun) (d : DeliveryRow) : Prop :=
  ∃ n ∈ run.nodes, n.nodeId = d.nodeId ∧ n.status.isOpen = false

/-- One statement of an applier on the rows of a run; none admits a revision, opens a repair
round or counts one.  What it names is admitted where `Q` holds. -/
inductive Write (Q : Prop) : WorkflowRun → WorkflowRun → Prop
  | nodes (run : WorkflowRun) (nodes : Table NodeRow)
      (h : Table.Evolves NodeRow.Kept (fun _ => False) run.nodes nodes) :
      Write Q run { run with nodes }
  | deps (run : WorkflowRun) (deps : Table DepRow)
      (h : Table.Evolves DepRow.Kept (fun _ => False) run.deps deps) :
      Write Q run { run with deps }
  | commands (run : WorkflowRun) (commands : Table WorkflowCommand)
      (h : Table.Evolves WorkflowCommand.Kept (fun _ => False) run.commands commands) :
      Write Q run { run with commands }
  | queue (run run' : WorkflowRun) (key : CommandKey) (payload : CommandPayload)
      (h : run.queueCommand key payload = .ok run')
      (hid : Q → key.nodeId.Within run.currentRevision)
      (hpayload : Q → payload.Within run.currentRevision)
      (hrepair : payload.purpose ≠ some .repair) : Write Q run run'
  | operation (run run' : WorkflowRun) (op : OperationRow) (h : run.upsertOperation op = .ok run')
      (hop : Q → op.Within run.currentRevision) : Write Q run run'
  | closeOperations (run : WorkflowRun) (status : OperationStatus) (h : status.isOpen = false) :
      Write Q run (run.closeOpenOperations status)
  | budget (run : WorkflowRun) (scope : BudgetScope) (h : scope ≠ .reviewRepair) :
      Write Q run (run.consumeBudget scope).2
  | deliveries (run : WorkflowRun) (deliveries : Table DeliveryRow)
      (h : Table.Evolves DeliveryRow.Kept run.Delivers run.deliveries deliveries) :
      Write Q run { run with deliveries }

abbrev Writes (Q : Prop) : WorkflowRun → WorkflowRun → Prop := Relation.ReflTransGen (Write Q)

variable {Q : Prop}

theorem Write.single (h : Write Q run run') : Writes Q run run' :=
  Relation.ReflTransGen.single h

variable {key : CommandKey} {owner : String} {token : Nat}

theorem queueCommand_ok {run run' : WorkflowRun} {payload : CommandPayload}
    (h : run.queueCommand key payload = .ok run') :
    ∃ commands, run.commands.insert (fun _ => false) (newCommand key payload) = some commands ∧
      run' = { run with commands } := by
  unfold queueCommand at h
  split at h
  · cases h
  · rename_i commands hinsert
    cases h
    exact ⟨commands, hinsert, rfl⟩

theorem upsertOperation_ok {run run' : WorkflowRun} {op : OperationRow}
    (h : run.upsertOperation op = .ok run') :
    (∃ old, run.operations.get op.opId = some old ∧
      (∀ o ∈ run.operations, o.opId ≠ op.opId →
        ({ old with status := op.status } : OperationRow).clashesOpen o = false) ∧
      run' = { run with operations :=
        run.operations.modify op.opId (OperationRow.withStatus op.status) }) ∨
    (run.operations.get op.opId = none ∧ ∃ operations,
      run.operations.insert op.clashesOpen op = some operations ∧
      run' = { run with operations }) := by
  unfold upsertOperation at h
  split at h
  · rename_i old hget
    split at h
    · cases h
    rename_i hfree
    cases h
    refine .inl ⟨old, hget, ?_, rfl⟩
    intro o ho hne
    by_contra hclash
    refine hfree (List.any_eq_true.2 ⟨o, ho, ?_⟩)
    simpa using ⟨hne, by simpa using hclash⟩
  · rename_i hget
    split at h
    · cases h
    · rename_i operations hinsert
      cases h
      exact .inr ⟨hget, operations, hinsert, rfl⟩

structure SameHeader (run run' : WorkflowRun) : Prop where
  row : run'.toWorkflowRunRow = run.toWorkflowRunRow
  generation : run'.generation = run.generation
  stateVersion : run'.stateVersion = run.stateVersion
  clientOperationId : run'.clientOperationId = run.clientOperationId
  revisions : run'.revisions = run.revisions
  reviewRepair : run'.budgets.reviewRepair = run.budgets.reviewRepair
  allowed : ∀ scope, (run'.budgets.get scope).allowed = (run.budgets.get scope).allowed

theorem SameHeader.refl (run : WorkflowRun) : run.SameHeader run :=
  ⟨rfl, rfl, rfl, rfl, rfl, rfl, fun _ => rfl⟩

theorem SameHeader.trans {a b c : WorkflowRun} (h : a.SameHeader b) (h' : b.SameHeader c) :
    a.SameHeader c :=
  ⟨h'.row.trans h.row, h'.generation.trans h.generation, h'.stateVersion.trans h.stateVersion,
    h'.clientOperationId.trans h.clientOperationId, h'.revisions.trans h.revisions,
    h'.reviewRepair.trans h.reviewRepair, fun scope => (h'.allowed scope).trans (h.allowed scope)⟩

theorem consumeBudget_eq (scope : BudgetScope) (run : WorkflowRun) :
    (run.consumeBudget scope).2 = { run with budgets := (run.consumeBudget scope).2.budgets } := by
  unfold consumeBudget
  dsimp only
  split <;> rfl

theorem allowed_consumeBudget (scope scope' : BudgetScope) (run : WorkflowRun) :
    ((run.consumeBudget scope).2.budgets.get scope').allowed =
      (run.budgets.get scope').allowed := by
  unfold consumeBudget
  dsimp only
  split
  · by_cases hs : scope = scope'
    · simp [hs]
    · simp [hs]
  · rfl

theorem Write.sameHeader (h : Write Q run run') : run.SameHeader run' := by
  cases h with
  | nodes | deps | commands | closeOperations | deliveries =>
    exact ⟨rfl, rfl, rfl, rfl, rfl, rfl, fun _ => rfl⟩
  | queue _ _ _ h _ _ _ =>
    obtain ⟨_, -, rfl⟩ := queueCommand_ok h
    exact ⟨rfl, rfl, rfl, rfl, rfl, rfl, fun _ => rfl⟩
  | operation _ _ h _ =>
    rcases upsertOperation_ok h with ⟨_, -, -, rfl⟩ | ⟨-, _, -, rfl⟩ <;>
      exact ⟨rfl, rfl, rfl, rfl, rfl, rfl, fun _ => rfl⟩
  | budget scope hscope =>
    have hrest := consumeBudget_eq scope run
    refine ⟨by rw [hrest], by rw [hrest], by rw [hrest], by rw [hrest], by rw [hrest], ?_,
      fun scope' => allowed_consumeBudget scope scope' run⟩
    unfold consumeBudget
    dsimp only
    split
    · cases scope <;> first | rfl | exact absurd rfl hscope
    · rfl

theorem Writes.sameHeader (h : Writes Q run run') : run.SameHeader run' := by
  induction h with
  | refl => exact .refl _
  | tail _ h ih => exact ih.trans h.sameHeader

theorem SameHeader.currentRevision (h : run.SameHeader run') :
    run'.currentRevision = run.currentRevision := by
  rw [WorkflowRun.currentRevision, WorkflowRun.currentRevision, h.revisions]

/-! ## The invariant -/

/-- The rows of a run refer to its admitted revisions, at most one operation of a kind is open for
a revision, a node id names its revision, and what is delivered is closed. -/
structure Within (run : WorkflowRun) : Prop where
  nodes : ∀ n ∈ run.nodes,
    n.revision ≤ run.currentRevision ∧ n.nodeId.Within run.currentRevision
  deps : ∀ d ∈ run.deps, d.revision ≤ run.currentRevision
  commands : ∀ c ∈ run.commands,
    c.nodeId.Within run.currentRevision ∧ c.payload.Within run.currentRevision
  operations : ∀ o ∈ run.operations, o.Within run.currentRevision
  single : ∀ o ∈ run.operations, ∀ o' ∈ run.operations, o.opId ≠ o'.opId →
    o.clashesOpen o' = false
  named : ∀ n ∈ run.nodes, n.nodeId.IsOf n.revision
  delivered : ∀ d ∈ run.deliveries, run.Delivers d

theorem clashesOpen_comm (o o' : OperationRow) : o.clashesOpen o' = o'.clashesOpen o := by
  simp only [OperationRow.clashesOpen, decide_eq_decide]
  constructor
  · rintro ⟨h, h', hkind, hsome, hrev⟩
    exact ⟨h', h, hkind.symm, hrev ▸ hsome, hrev.symm⟩
  · rintro ⟨h, h', hkind, hsome, hrev⟩
    exact ⟨h', h, hkind.symm, hrev ▸ hsome, hrev.symm⟩

theorem clashesOpen_closed {o o' : OperationRow} (h : o.status.isOpen = false) :
    o.clashesOpen o' = false := by
  simp [OperationRow.clashesOpen, h]

theorem Within.upsert {op : OperationRow} (hw : run.Within) (h : run.upsertOperation op = .ok run')
    (hop : op.Within run.currentRevision) : run'.Within := by
  rcases upsertOperation_ok h with ⟨old, hget, hfree, rfl⟩ | ⟨hget, operations, hinsert, rfl⟩
  · have hrow : ∀ o, o ∈ run.operations.modify op.opId (OperationRow.withStatus op.status) →
        (o ∈ run.operations ∧ o.opId ≠ op.opId) ∨ o = OperationRow.withStatus op.status old := by
      intro o ho
      rcases Table.mem_modify.1 ho with ⟨ho, hne⟩ | ⟨s, hs, rfl⟩
      · exact .inl ⟨ho, hne⟩
      · obtain rfl : old = s := Option.some.inj (hget.symm.trans hs)
        exact .inr rfl
    refine { hw with operations := ?_, single := ?_ }
    · intro o ho
      rcases hrow o ho with ⟨ho, -⟩ | rfl
      · exact hw.operations o ho
      · have hold := hw.operations old (Table.mem_of_get hget)
        exact ⟨hold.opId, hold.revision⟩
    intro o ho o' ho' hne
    rcases hrow o ho with ⟨ho, hid⟩ | rfl <;> rcases hrow o' ho' with ⟨ho', hid'⟩ | rfl
    · exact hw.single o ho o' ho' hne
    · rw [clashesOpen_comm]
      exact hfree o ho hid
    · exact hfree o' ho' hid'
    · exact absurd rfl hne
  · have hrow : ∀ o, o ∈ operations → o ∈ run.operations ∨ o = op := fun o ho =>
      (Table.mem_insert hinsert).1 ho
    have hfree := (Table.insert_eq_some_iff.1 hinsert).2.1
    refine { hw with operations := ?_, single := ?_ }
    · intro o ho
      rcases hrow o ho with ho | rfl
      · exact hw.operations o ho
      · exact hop
    intro o ho o' ho' hne
    rcases hrow o ho with ho | rfl <;> rcases hrow o' ho' with ho' | rfl
    · exact hw.single o ho o' ho' hne
    · rw [clashesOpen_comm]
      exact hfree o ho
    · exact hfree o' ho'
    · exact absurd rfl hne

theorem Write.within (h : Write Q run run') (hw : Q → run.Within) (hq : Q) : run'.Within := by
  replace hw := hw hq
  cases h with
  | nodes nodes hrows =>
    refine { hw with nodes := fun n hn => ?_, named := fun n hn => ?_, delivered := ?_ }
    · obtain ⟨m, hm, hkept⟩ | hnew := hrows.origin hn
      · rw [hkept.revision, hkept.nodeId]
        exact hw.nodes m hm
      · exact hnew.elim
    · obtain ⟨m, hm, hkept⟩ | hnew := hrows.origin hn
      · rw [hkept.revision, hkept.nodeId]
        exact hw.named m hm
      · exact hnew.elim
    intro d hd
    obtain ⟨m, hm, hid, hclosed⟩ := hw.delivered d hd
    obtain ⟨n, hn, hkept⟩ := hrows.successor hm
    refine ⟨n, hn, hkept.nodeId.trans hid, ?_⟩
    by_contra hopen
    rw [hkept.isOpen (by simpa using hopen)] at hclosed
    cases hclosed
  | deps deps hrows =>
    refine { hw with deps := ?_ }
    intro d hd
    obtain ⟨m, hm, hkept⟩ | hnew := hrows.origin hd
    · rw [hkept.revision]
      exact hw.deps m hm
    · exact hnew.elim
  | commands commands hrows =>
    refine { hw with commands := ?_ }
    intro c hc
    obtain ⟨m, hm, hkept⟩ | hnew := hrows.origin hc
    · have hid : c.nodeId = m.nodeId := congrArg CommandKey.nodeId hkept.key
      rw [hid, hkept.payload]
      exact hw.commands m hm
    · exact hnew.elim
  | queue _ key payload hqueue hid hpayload _ =>
    obtain ⟨commands, hinsert, rfl⟩ := queueCommand_ok hqueue
    refine { hw with commands := ?_ }
    intro c hc
    rcases (Table.mem_insert hinsert).1 hc with hc | rfl
    · exact hw.commands c hc
    · exact ⟨hid hq, hpayload hq⟩
  | operation _ op hupsert hop => exact hw.upsert hupsert (hop hq)
  | closeOperations status hclosed =>
    have hrow : ∀ o, o ∈ (run.closeOpenOperations status).operations →
        ∃ m ∈ run.operations, o = m ∨ o = OperationRow.withStatus status m := by
      intro o ho
      change o ∈ run.operations.updateWhere (·.status.isOpen)
        (OperationRow.withStatus status) at ho
      obtain ⟨m, hm, rfl⟩ := Table.mem_updateWhere.1 ho
      refine ⟨m, hm, ?_⟩
      split
      · exact .inr rfl
      · exact .inl rfl
    refine { hw with operations := ?_, single := ?_ }
    · intro o ho
      obtain ⟨m, hm, rfl | rfl⟩ := hrow o ho
      · exact hw.operations _ hm
      · exact ⟨(hw.operations m hm).opId, (hw.operations m hm).revision⟩
    intro o ho o' ho' hne
    obtain ⟨m, hm, rfl | rfl⟩ := hrow o ho
    · obtain ⟨m', hm', rfl | rfl⟩ := hrow o' ho'
      · exact hw.single _ hm _ hm' hne
      · rw [clashesOpen_comm]
        exact clashesOpen_closed hclosed
    · exact clashesOpen_closed hclosed
  | budget scope _ =>
    rw [consumeBudget_eq]
    exact { hw with }
  | deliveries deliveries hrows =>
    refine { hw with delivered := fun d hd => ?_ }
    obtain ⟨d₀, hd₀, hkept⟩ | hnew := hrows.origin hd
    · obtain ⟨n, hn, hid, hclosed⟩ := hw.delivered d₀ hd₀
      exact ⟨n, hn, hid.trans hkept.nodeId.symm, hclosed⟩
    · exact hnew

theorem Writes.within (h : Writes Q run run') (hw : Q → run.Within) (hq : Q) : run'.Within := by
  induction h with
  | refl => exact hw hq
  | tail _ h ih => exact h.within (fun _ => ih) hq

/-! ## The granular writers -/

theorem writes_updateNodes (run : WorkflowRun) (p : NodeRow → Bool) (f : NodeRow → NodeRow)
    (hf : ∀ n, Keyed.key (f n) = Keyed.key n) (hkept : ∀ n ∈ run.nodes, p n = true → n.Kept (f n)) :
    Writes Q run { run with nodes := run.nodes.updateWhere p f hf } :=
  Write.single (.nodes run _ (Table.evolves_updateWhere NodeRow.Kept.refl hf hkept))

theorem writes_closeNodes (run : WorkflowRun) (p : NodeRow → Bool) {status : NodeStatus}
    (hstatus : status.isOpen = false) :
    Writes Q run { run with nodes := run.nodes.updateWhere p (NodeRow.withStatus status) } :=
  writes_updateNodes run p _ _ fun _ _ _ => NodeRow.kept_withStatus fun hopen => by
    rw [hstatus] at hopen
    cases hopen

theorem writes_updateCommands (run : WorkflowRun) (p : WorkflowCommand → Bool)
    (f : WorkflowCommand → WorkflowCommand) (hf : ∀ c, Keyed.key (f c) = Keyed.key c)
    (hkept : ∀ c ∈ run.commands, p c = true → c.Kept (f c)) :
    Writes Q run { run with commands := run.commands.updateWhere p f hf } :=
  Write.single (.commands run _ (Table.evolves_updateWhere WorkflowCommand.Kept.refl hf hkept))

theorem writes_updateDeliveries (run : WorkflowRun) (p : DeliveryRow → Bool)
    (f : DeliveryRow → DeliveryRow) (hf : ∀ d, Keyed.key (f d) = Keyed.key d)
    (hkept : ∀ d, (f d).nodeId = d.nodeId) :
    Writes Q run { run with deliveries := run.deliveries.updateWhere p f hf } :=
  Write.single (.deliveries run _ (Table.evolves_updateWhere DeliveryRow.Kept.refl hf
    fun d _ _ => ⟨hkept d⟩))

theorem setNodeOutcome_ok {run run' : WorkflowRun} {revision : Nat} {nodeId : NodeId}
    {status : NodeStatus} {outcome : Option NodeOutcome} {attemptId : Option String}
    (h : run.setNodeOutcome revision nodeId status outcome attemptId = .ok run') :
    (∃ n, run.findNode revision nodeId = some n) ∧ run' = { run with
      nodes := run.nodes.modify (revision, nodeId) (NodeRow.settle status outcome attemptId) } := by
  unfold setNodeOutcome at h
  split at h
  · cases h
  · rename_i n hn
    cases h
    exact ⟨⟨n, hn⟩, rfl⟩

theorem findNode_of_setNodeOutcome {revision : Nat}
    (h : run.setNodeOutcome revision nodeId status outcome attemptId = .ok run') :
    ∃ n, run.findNode revision nodeId = some n ∧
      run'.findNode revision nodeId = some (n.settle status outcome attemptId) := by
  obtain ⟨⟨n, hn⟩, rfl⟩ := setNodeOutcome_ok h
  refine ⟨n, hn, ?_⟩
  unfold findNode at hn ⊢
  rw [Table.get_modify_same, hn]
  rfl

def NodeOpen (run : WorkflowRun) (revision : Nat) (nodeId : NodeId) : Prop :=
  ∀ n, run.findNode revision nodeId = some n → n.status.isOpen = true

theorem writes_setNodeOutcome {revision : Nat}
    (hstatus : status.isOpen = true → run.NodeOpen revision nodeId)
    (h : run.setNodeOutcome revision nodeId status outcome attemptId = .ok run') :
    Writes Q run run' := by
  obtain ⟨-, rfl⟩ := setNodeOutcome_ok h
  refine writes_updateNodes run _ _ _ fun n hn hkey => ⟨rfl, rfl, rfl, fun hopen => ?_⟩
  exact hstatus hopen n (Table.get_eq_some_iff.2 ⟨hn, by simpa using hkey⟩)

theorem writes_closeNode {revision : Nat}
    (h : run.setNodeOutcome revision nodeId status outcome attemptId = .ok run')
    (hstatus : status.isOpen = false) : Writes Q run run' :=
  writes_setNodeOutcome (fun hopen => by rw [hstatus] at hopen; cases hopen) h

variable (revision : Nat)

theorem writes_markNodeRunning (nodeId : NodeId) (run : WorkflowRun) :
    Writes Q run (run.markNodeRunning revision nodeId) :=
  writes_updateNodes run _ _ _ fun n _ hn => NodeRow.kept_withStatus fun _ => by
    simp only [decide_eq_true_eq] at hn
    rw [hn.2.2]
    rfl

theorem writes_bindNodeWorker {revision : Nat} {cardId : Nat}
    (h : run.bindNodeWorker revision nodeId cardId attemptId = .ok run') : Writes Q run run' := by
  unfold bindNodeWorker at h
  split at h
  · cases h
  · cases h
    exact writes_updateNodes run _ _ _ fun n _ _ => ⟨rfl, rfl, rfl, id⟩

theorem writes_skipPasses (fuel : Nat) (run : WorkflowRun) :
    Writes Q run (run.skipPasses revision fuel) := by
  induction fuel generalizing run with
  | zero => exact .refl
  | succ fuel ih =>
    rw [skipPasses]
    split
    · exact (writes_closeNodes run _ rfl).trans (ih _)
    · exact .refl

theorem writes_skipDependents (nodeId : NodeId) (run : WorkflowRun) :
    Writes Q run (run.skipDependents revision nodeId) :=
  (writes_closeNodes run _ rfl).trans
    (writes_skipPasses revision _ _)

theorem writes_cancelPriorNodes (spare : List NodeId) (run : WorkflowRun) :
    Writes Q run (run.cancelPriorNodes revision spare) :=
  writes_closeNodes run _ rfl

theorem writes_markSatisfied (dep : NodeId) (run : WorkflowRun) :
    Writes Q run (run.markSatisfied revision dep) :=
  Write.single (.deps run _ (Table.evolves_updateWhere DepRow.Kept.refl _
    fun _ _ _ => ⟨rfl, rfl, rfl, fun _ => rfl⟩))

theorem writes_consumeBudget {scope : BudgetScope} {ok : Bool}
    (h : run.consumeBudget scope = (ok, run')) (hscope : scope ≠ .reviewRepair) :
    Writes Q run run' := by
  have hrun : run' = (run.consumeBudget scope).2 := by rw [h]
  rw [hrun]
  exact Write.single (.budget run scope hscope)

theorem completeCommand_ok {run run' : WorkflowRun}
    (h : run.completeCommand key owner token = .ok run') :
    (∃ c, run.commands.get key = some c ∧ c.heldBy owner token = true) ∧
      run' = { run with commands := run.commands.modify key (WorkflowCommand.close .done) } := by
  unfold completeCommand at h
  split at h
  · rename_i c hc
    split at h
    · rename_i hheld
      cases h
      exact ⟨⟨c, hc, hheld⟩, rfl⟩
    · cases h
  · cases h

theorem writes_completeCommand (h : run.completeCommand key owner token = .ok run') :
    Writes Q run run' := by
  obtain ⟨-, rfl⟩ := completeCommand_ok h
  exact writes_updateCommands run _ _ _ fun c _ _ => WorkflowCommand.kept_close rfl c

theorem claimCommand_some {run run' : WorkflowRun} {now : Millis}
    (h : run.claimCommand key owner token now = some run') :
    (∃ c, run.commands.get key = some c ∧ c.status = .pending) ∧ run' = { run with
      commands := run.commands.modify key (WorkflowCommand.claim owner token now) } := by
  unfold claimCommand at h
  split at h
  · rename_i c hc
    split at h
    · rename_i hpending
      exact ⟨⟨c, hc, hpending⟩, (Option.some.inj h).symm⟩
    · cases h
  · cases h

theorem writes_claimCommand {now : Millis} (h : run.claimCommand key owner token now = some run') :
    Writes Q run run' := by
  obtain ⟨⟨c, hc, hpending⟩, rfl⟩ := claimCommand_some h
  refine writes_updateCommands run _ _ _ fun c' hc' hkey => ?_
  have hsame : c' = c := by
    have := Table.get_eq_some_iff.2 ⟨hc', by simpa using hkey⟩
    exact Option.some.inj (this.symm.trans hc)
  exact ⟨rfl, rfl, fun _ => by rw [hsame, hpending]; rfl⟩

theorem writes_releaseClaim (key : CommandKey) (owner : String) (token : Nat)
    (run : WorkflowRun) : Writes Q run (run.releaseClaim key owner token) := by
  unfold releaseClaim
  split
  · rename_i c hc
    split
    · rename_i hheld
      refine writes_updateCommands run _ _ _ fun c' hc' hkey => ?_
      have hsame : c' = c := by
        have := Table.get_eq_some_iff.2 ⟨hc', by simpa using hkey⟩
        exact Option.some.inj (this.symm.trans hc)
      have hclaimed : c.status = .claimed := by
        simp only [WorkflowCommand.heldBy, decide_eq_true_eq] at hheld
        exact hheld.1
      exact ⟨rfl, rfl, fun _ => by rw [hsame, hclaimed]; rfl⟩
    · exact .refl
  · exact .refl

theorem writes_cancelCommand (key : CommandKey) (run : WorkflowRun) :
    Writes Q run (run.cancelCommand key) :=
  writes_updateCommands run _ _ _ fun c _ _ => WorkflowCommand.kept_close rfl c

theorem writes_supersedeCommand (key : CommandKey) (run : WorkflowRun) :
    Writes Q run (run.supersedeCommand key) :=
  writes_updateCommands run _ _ _ fun c _ _ => WorkflowCommand.kept_close rfl c

theorem writes_cancelPendingCommands (run : WorkflowRun) : Writes Q run run.cancelPendingCommands :=
  writes_updateCommands run _ _ _ fun _ _ _ => ⟨rfl, rfl, fun h => by cases h⟩

theorem writes_noteInspection (key : CommandKey) (gen inconclusive : Nat) (next : Millis)
    (run : WorkflowRun) : Writes Q run (run.noteInspectionInconclusive key gen inconclusive next) :=
  writes_updateCommands run _ _ _ fun _ _ _ => ⟨rfl, rfl, id⟩

theorem writes_setDeliveryOutcome {outcome : DeliveryOutcome} {receipt : Option String}
    (h : run.setDeliveryOutcome nodeId outcome receipt = .ok run') : Writes Q run run' := by
  unfold setDeliveryOutcome at h
  split at h
  · cases h
  · cases h
    exact writes_updateDeliveries run _ _ _ fun _ => rfl

theorem writes_bumpDeliveryAttempts {attempts : Nat}
    (h : run.bumpDeliveryAttempts nodeId = .ok (attempts, run')) : Writes Q run run' := by
  unfold bumpDeliveryAttempts at h
  split at h
  · split at h
    · cases h
      exact writes_updateDeliveries run _ _ _ fun _ => rfl
    · cases h
  · cases h

theorem writes_insertDelivery
    (hclosed : ∃ n ∈ run.nodes, n.nodeId = nodeId ∧ n.status.isOpen = false) :
    Writes Q run (run.insertDelivery nodeId revision) := by
  unfold insertDelivery
  split
  · exact writes_updateDeliveries run _ _ _ fun _ => rfl
  · rename_i hfree
    exact Write.single (.deliveries run _
      (Table.evolves_put DeliveryRow.Kept.refl hfree hclosed))

theorem writes_cancelWork (run : WorkflowRun) : Writes Q run run.cancelWork :=
  ((writes_updateCommands run (·.status.isOpen) (WorkflowCommand.close .cancelled) (fun _ => rfl)
    fun c _ _ => WorkflowCommand.kept_close rfl c).trans
    (writes_closeNodes _ (·.status.isOpen) rfl)).trans
    (writes_updateDeliveries _ (·.outcome = .pending) DeliveryRow.abandon (fun _ => rfl)
      fun _ => rfl)

section Nodes

variable {run run' : WorkflowRun} {nodeId : NodeId} {n : NodeRow} {cause attemptId : String}
  {effect : TransitionEffect}

variable {generation revision : Nat}

theorem writes_foldlM {α : Type*} {f : WorkflowRun → α → Except WorkflowError WorkflowRun}
    {l : List α}
    (hf : ∀ mid a mid', a ∈ l → mid.currentRevision = run.currentRevision →
      f mid a = .ok mid' → Writes Q mid mid')
    (h : l.foldlM f run = .ok run') : Writes Q run run' := by
  refine foldlM_keeps (P := Writes Q run) (fun mid a mid' ha hmid hstep => ?_) .refl h
  exact hmid.trans (hf mid a mid' ha hmid.sameHeader.currentRevision hstep)

theorem queueCommand_rest {run run' : WorkflowRun} {key : CommandKey} {payload : CommandPayload}
    (h : run.queueCommand key payload = .ok run') :
    run' = { run with commands := run'.commands } := by
  obtain ⟨_, -, rfl⟩ := queueCommand_ok h
  rfl

theorem upsertOperation_rest {run run' : WorkflowRun} {op : OperationRow}
    (h : run.upsertOperation op = .ok run') :
    run' = { run with operations := run'.operations } := by
  rcases upsertOperation_ok h with ⟨_, -, -, rfl⟩ | ⟨-, _, -, rfl⟩ <;> rfl

theorem queueForNode_rest {run run' : WorkflowRun} {nodeId : NodeId} {kind : NodeKind}
    {ordinal : Nat} (h : run.queueForNode generation revision nodeId kind ordinal = .ok run') :
    run' = { run with
      commands := run'.commands
      operations := run'.operations } := by
  obtain ⟨mid, hmid, h⟩ := ok_of_match h
  have hqueue := queueCommand_rest hmid
  split at h
  · rw [upsertOperation_rest h, hqueue]
  · rw [upsertOperation_rest h, hqueue]
  · cases h
    rw [hqueue]

theorem queueNodes_rest {run run' : WorkflowRun} {nodes : List NodeRow}
    (h : run.queueNodes generation revision nodes = .ok run') :
    run' = { run with
      commands := run'.commands
      operations := run'.operations } := by
  refine foldlM_keeps (P := fun mid => mid = { run with
      commands := mid.commands
      operations := mid.operations }) (fun mid n mid' _ hmid hstep => ?_) rfl h
  rw [queueForNode_rest hstep, hmid]

theorem writes_queueForNode {kind : NodeKind}
    {ordinal : Nat} (h : run.queueForNode generation revision nodeId kind ordinal = .ok run')
    (hr : Q → revision ≤ run.currentRevision) (hid : Q → nodeId.Within run.currentRevision) :
    Writes Q run run' := by
  obtain ⟨mid, hmid, h⟩ := ok_of_match h
  have hqueue : Write Q run mid := by
    refine .queue run mid _ _ hmid hid (fun hq => ⟨?_, ?_⟩) ?_
    · intro r hr'
      cases hr'
      exact hr hq
    · intro id hid'
      cases hid'
    · split
      · simp
      · simp
  have hcurrent := hqueue.sameHeader.currentRevision
  have hop : ∀ kind, Q → OperationRow.Within mid.currentRevision
      ⟨.node revision nodeId, kind, some revision, .pending⟩ := by
    intro kind hq
    rw [hcurrent]
    exact ⟨⟨hr hq, hid hq⟩, fun r hr' => Option.some.inj hr' ▸ hr hq⟩
  split at h
  · exact hqueue.single.tail (.operation _ _ _ h (hop _))
  · exact hqueue.single.tail (.operation _ _ _ h (hop _))
  · cases h
    exact hqueue.single

theorem writes_queueNodes {nodes : List NodeRow}
    (h : run.queueNodes generation revision nodes = .ok run')
    (hr : Q → revision ≤ run.currentRevision)
    (hnodes : Q → ∀ n ∈ nodes, n.nodeId.Within run.currentRevision) : Writes Q run run' := by
  refine writes_foldlM (fun mid n mid' hn hcurrent hmid => ?_) h
  exact writes_queueForNode hmid (hcurrent ▸ hr) fun hq => hcurrent ▸ hnodes hq n hn

theorem writes_requeueReview
    (h : run.requeueReview generation n = .ok run') (hr : Q → n.revision ≤ run.currentRevision)
    (hid : Q → n.nodeId.Within run.currentRevision) : Writes Q run run' := by
  unfold requeueReview at h
  split at h
  · exact writes_queueForNode h hr hid
  · cases h
    exact .refl

theorem mem_listNodes : n ∈ run.listNodes revision ↔ n ∈ run.nodes ∧ n.revision = revision := by
  simp [listNodes]

theorem mem_priorNodes (h : n ∈ run.priorNodes revision) :
    n ∈ run.nodes ∧ n.revision < revision := by
  obtain ⟨i, hi, hn⟩ := List.mem_flatMap.1 h
  obtain ⟨hn, hrevision⟩ := mem_listNodes.1 hn
  simp only [List.mem_reverse, List.mem_range] at hi
  exact ⟨hn, by omega⟩

theorem writes_maybeQueueReReview (hw : Q → run.Within)
    (h : run.maybeQueueReReview generation = .ok run') : Writes Q run run' := by
  unfold maybeQueueReReview at h
  split at h
  · cases h
    exact .refl
  refine writes_foldlM (fun mid n mid' hn hcurrent hmid => ?_) h
  have hrow := fun hq => (hw hq).nodes n (mem_priorNodes hn).1
  exact writes_requeueReview hmid (fun hq => hcurrent ▸ (hrow hq).1)
    fun hq => hcurrent ▸ (hrow hq).2

theorem writes_settleWithReReview {cause : Option String} (hw : Q → run.Within)
    (h : run.settleWithReReview generation revision cause = .ok (effect, run')) :
    Writes Q run run' := by
  unfold settleWithReReview at h
  dsimp only at h
  split at h
  · cases h
    exact .refl
  · obtain ⟨mid, hmid, h⟩ := ok_of_match h
    cases h
    exact writes_maybeQueueReReview hw hmid

theorem writes_releaseDependents (hw : Q → run.Within) (hr : Q → revision ≤ run.currentRevision)
    (h : run.releaseDependents generation revision nodeId = .ok run') : Writes Q run run' := by
  have hmark : Writes Q run _ := writes_markSatisfied revision nodeId run
  refine hmark.trans (writes_queueNodes h hr ?_)
  intro hq n hn
  exact ((Writes.within hmark hw hq).nodes n ((Table.mem_select _ _ _).1 hn).1).2

/-! ## Settling nodes -/

theorem revision_le_of_findNode (hw : run.Within) (h : run.findNode revision nodeId = some n) :
    revision ≤ run.currentRevision ∧ nodeId.Within run.currentRevision := by
  have hkey : (n.revision, n.nodeId) = (revision, nodeId) := Table.key_of_get h
  obtain ⟨hrevision, hid⟩ := Prod.mk.inj hkey
  rw [← hrevision, ← hid]
  exact hw.nodes n (Table.mem_of_get h)

theorem revision_le_of_setNodeOutcome {attemptId : Option String} (hw : run.Within)
    (h : run.setNodeOutcome revision nodeId status outcome attemptId = .ok run') :
    revision ≤ run'.currentRevision ∧ nodeId.Within run'.currentRevision := by
  obtain ⟨⟨n, hn⟩, rfl⟩ := setNodeOutcome_ok h
  have hle := revision_le_of_findNode hw hn
  exact hle

theorem writes_succeedNodeEffect
    {artifactsJson : String} (hw : Q → run.Within)
    (h : run.succeedNodeEffect generation revision nodeId attemptId artifactsJson =
      .ok (effect, run')) : Writes Q run run' := by
  obtain ⟨settled, hsettled, h⟩ := ok_of_match h
  obtain ⟨released, hreleased, h⟩ := ok_of_match h
  have hset : Writes Q run settled := writes_closeNode hsettled rfl
  have hrelease : Writes Q run released := hset.trans (writes_releaseDependents (hset.within hw)
    (fun hq => (revision_le_of_setNodeOutcome (hw hq) hsettled).1) hreleased)
  exact hrelease.trans (writes_settleWithReReview (hrelease.within hw) h)

theorem writes_retryNode (hw : Q → run.Within) (hopen : run.NodeOpen revision nodeId)
    (h : run.retryNode generation revision nodeId attemptId cause = .ok (effect, run')) :
    Writes Q run run' := by
  obtain ⟨settled, hsettled, h⟩ := ok_of_match h
  obtain ⟨queued, hqueued, h⟩ := ok_of_match h
  cases h
  have hle := fun hq => revision_le_of_setNodeOutcome (hw hq) hsettled
  refine (writes_setNodeOutcome (fun _ => hopen) hsettled).tail
    (.queue _ _ _ _ hqueued (fun hq => (hle hq).2) (fun hq => ⟨?_, ?_⟩) ?_)
  · intro r hr'
    cases hr'
    exact (hle hq).1
  · intro id hid'
    cases hid'
  · simp

theorem writes_closeFailedNode (hw : Q → run.Within)
    (h : run.closeFailedNode generation revision nodeId attemptId cause = .ok (effect, run')) :
    Writes Q run run' := by
  obtain ⟨settled, hsettled, h⟩ := ok_of_match h
  have hset : Writes Q run settled := writes_closeNode hsettled rfl
  split at h
  · obtain ⟨released, hreleased, h⟩ := ok_of_match h
    have hrelease : Writes Q run released := hset.trans (writes_releaseDependents (hset.within hw)
      (fun hq => (revision_le_of_setNodeOutcome (hw hq) hsettled).1) hreleased)
    exact hrelease.trans (writes_settleWithReReview (hrelease.within hw) h)
  · have hskip : Writes Q run (settled.skipDependents revision nodeId) :=
      hset.trans (writes_skipDependents revision nodeId settled)
    exact hskip.trans (writes_settleWithReReview (hskip.within hw) h)

theorem writes_failNodeEffect {retrySafe : Bool} (hw : Q → run.Within)
    (hopen : run.NodeOpen revision nodeId)
    (h : run.failNodeEffect generation revision nodeId attemptId cause retrySafe =
      .ok (effect, run')) : Writes Q run run' := by
  unfold failNodeEffect at h
  split at h
  · split at h
    · rename_i mid hmid
      have hbudget : Writes Q run mid := writes_consumeBudget hmid (by decide)
      have hopen' : mid.NodeOpen revision nodeId := by
        have hmid' : mid = (run.consumeBudget .workRetry).2 := by rw [hmid]
        rw [hmid', consumeBudget_eq]
        exact hopen
      exact hbudget.trans (writes_retryNode (hbudget.within hw) hopen' h)
    · rename_i mid hmid
      have hbudget : Writes Q run mid := writes_consumeBudget hmid (by decide)
      exact hbudget.trans (writes_closeFailedNode (hbudget.within hw) h)
  · exact writes_closeFailedNode hw h

theorem writes_storedAcceptanceEffect {cardId : Nat} {envelopeJson : WorkerResultEnvelope → String}
    {db : Db} (hw : Q → run.Within) (hopen : run.NodeOpen revision nodeId)
    (h : run.storedAcceptanceEffect envelopeJson db generation revision nodeId cardId attemptId =
      .ok (effect, run')) : Writes Q run run' := by
  unfold storedAcceptanceEffect at h
  split at h
  · exact writes_failNodeEffect hw hopen h
  · exact writes_succeedNodeEffect hw h

theorem requireNode_ok (h : run.requireNode revision nodeId = .ok n) :
    run.findNode revision nodeId = some n ∧ n.status.isOpen = true := by
  unfold requireNode at h
  split at h
  · cases h
  rename_i m hm
  split at h
  · rename_i hopen
    cases h
    exact ⟨hm, hopen⟩
  · cases h

theorem nodeOpen_of_requireNode
    (h : run.requireNode revision nodeId = .ok n) : run.NodeOpen revision nodeId := by
  obtain ⟨hn, hopen⟩ := requireNode_ok h
  intro m hm
  cases hn.symm.trans hm
  exact hopen

theorem writes_attemptSucceededEffect
    {artifactsJson : String} {envelopeJson : WorkerResultEnvelope → String} {db : Db}
    (hw : Q → run.Within)
    (h : run.attemptSucceededEffect envelopeJson db revision nodeId attemptId artifactsJson =
      .ok (effect, run')) : Writes Q run run' := by
  unfold attemptSucceededEffect at h
  split at h
  · cases h
  rename_i n hn
  split at h
  · cases h
  · exact writes_succeedNodeEffect hw h
  · exact writes_storedAcceptanceEffect hw (nodeOpen_of_requireNode hn) h

theorem writes_attemptFailedEffect {retrySafe : Bool} (hw : Q → run.Within)
    (h : run.attemptFailedEffect revision nodeId attemptId cause retrySafe =
      .ok (effect, run')) : Writes Q run run' := by
  unfold attemptFailedEffect at h
  split at h
  · cases h
  · rename_i n hn
    exact writes_failNodeEffect hw (nodeOpen_of_requireNode hn) h

end Nodes

end WorkflowRun

end Abtars
