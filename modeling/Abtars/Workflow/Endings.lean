import Abtars.Workflow.Skips
import Abtars.Workflow.Moves

/-!
# How the work of a run ends

What an applier closes, and when an evaluation ends the run.
-/

namespace Abtars

open Lib

/-- The rows that are closed: nodes, commands, operations, and the deliveries that are written. -/
structure SettledWork where
  node : Nat × NodeId → Prop
  command : CommandKey → Prop
  operation : OpId → Prop
  delivery : NodeId → Prop

namespace SettledWork

def nothing : SettledWork := ⟨fun _ => False, fun _ => False, fun _ => False, fun _ => False⟩

def everything : SettledWork := ⟨fun _ => True, fun _ => True, fun _ => True, fun _ => True⟩

def ofNode (key : Nat × NodeId) : SettledWork := { nothing with node := (· = key) }

def ofCommand (key : CommandKey) : SettledWork := { nothing with command := (· = key) }

def ofOperation (id : OpId) : SettledWork := { nothing with operation := (· = id) }

def ofJob (opId : Option OpId) : SettledWork := { nothing with operation := fun id => opId = some id }

def ofDelivery (nodeId : NodeId) : SettledWork := { nothing with delivery := (· = nodeId) }

def ofClaim (claim : Option ClaimAuthority) : SettledWork :=
  { nothing with command := fun key => ∃ c, claim = some c ∧ key = c.key }

def also (S T : SettledWork) : SettledWork where
  node key := S.node key ∨ T.node key
  command key := S.command key ∨ T.command key
  operation id := S.operation id ∨ T.operation id
  delivery nodeId := S.delivery nodeId ∨ T.delivery nodeId

end SettledWork

namespace WorkflowRun

open SettledWork

variable {run mid run' : WorkflowRun} {S T : SettledWork} {revision : Nat} {nodeId : NodeId}

/-! ## Open rows -/

def openNode (run : WorkflowRun) (key : Nat × NodeId) : Bool :=
  (run.nodes.get key).any (·.status.isOpen)

def openCommand (run : WorkflowRun) (key : CommandKey) : Bool :=
  (run.commands.get key).any (·.status.isOpen)

def openOperation (run : WorkflowRun) (id : OpId) : Bool :=
  (run.operations.get id).any (·.status.isOpen)

/-- The named rows are closed, no row is opened, and no other node or delivery is written. -/
structure Closes (S : SettledWork) (run run' : WorkflowRun) : Prop where
  node : ∀ key, (¬ S.node key ∧ run'.nodes.get key = run.nodes.get key) ∨
    S.node key ∧ run'.openNode key = false ∧
      (run'.nodes.get key).isSome = (run.nodes.get key).isSome
  command : ∀ key, run'.openCommand key = true → run.openCommand key = true ∧ ¬ S.command key
  operation : ∀ id, run'.openOperation id = true → run.openOperation id = true ∧ ¬ S.operation id
  delivery : ∀ id, S.delivery id ∨ run'.deliveries.get id = run.deliveries.get id

theorem Closes.of_rows (hnodes : run'.nodes = run.nodes) (hcommands : run'.commands = run.commands)
    (hoperations : run'.operations = run.operations) (hdeliveries : run'.deliveries = run.deliveries) :
    Closes nothing run run' := by
  refine ⟨fun key => .inl ⟨id, by rw [hnodes]⟩, fun key h => ⟨?_, id⟩, fun key h => ⟨?_, id⟩,
    fun key => .inr (by rw [hdeliveries])⟩
  · rwa [openCommand, hcommands] at h
  · rwa [openOperation, hoperations] at h

theorem Closes.refl (run : WorkflowRun) : Closes nothing run run := .of_rows rfl rfl rfl rfl

theorem Closes.trans (h : Closes S run mid) (h' : Closes T mid run') :
    Closes (S.also T) run run' := by
  refine ⟨fun key => ?_, fun key hopen => ?_, fun id hopen => ?_, fun id => ?_⟩
  · rcases h.node key with ⟨hS, hsame⟩ | ⟨hS, hclosed, hsome⟩ <;>
      rcases h'.node key with ⟨hT, hsame'⟩ | ⟨hT, hclosed', hsome'⟩
    · exact .inl ⟨fun hor => hor.elim hS hT, hsame'.trans hsame⟩
    · exact .inr ⟨.inr hT, hclosed', hsome'.trans (by rw [hsame])⟩
    · refine .inr ⟨.inl hS, ?_, by rw [hsame', hsome]⟩
      rw [openNode, hsame']
      exact hclosed
    · exact .inr ⟨.inl hS, hclosed', hsome'.trans hsome⟩
  · obtain ⟨hmid, hT⟩ := h'.command key hopen
    obtain ⟨hrun, hS⟩ := h.command key hmid
    exact ⟨hrun, fun hor => hor.elim hS hT⟩
  · obtain ⟨hmid, hT⟩ := h'.operation id hopen
    obtain ⟨hrun, hS⟩ := h.operation id hmid
    exact ⟨hrun, fun hor => hor.elim hS hT⟩
  · rcases h.delivery id with hS | hsame
    · exact .inl (.inl hS)
    · rcases h'.delivery id with hT | hsame'
      · exact .inl (.inr hT)
      · exact .inr (hsame'.trans hsame)

/-! ## The statements that close -/

theorem closes_setNodeOutcome {status : NodeStatus} {outcome : Option NodeOutcome}
    {attemptId : Option String} (hstatus : status.isOpen = false)
    (h : run.setNodeOutcome revision nodeId status outcome attemptId = .ok run') :
    Closes (ofNode (revision, nodeId)) run run' := by
  obtain ⟨-, rfl⟩ := setNodeOutcome_ok h
  refine { Closes.of_rows rfl rfl rfl rfl with node := fun key => ?_ }
  by_cases hkey : key = (revision, nodeId)
  · refine .inr ⟨hkey, ?_, ?_⟩
    · rw [openNode, hkey, Table.get_modify_same]
      cases run.nodes.get (revision, nodeId) with
      | none => rfl
      | some n => exact hstatus
    · rw [hkey, Table.get_modify_same, Option.isSome_map]
  · exact .inl ⟨hkey, Table.get_modify_of_ne run.nodes
      (NodeRow.settle status outcome attemptId) (fun _ => rfl) hkey⟩

theorem closes_skipDependents (run : WorkflowRun) (revision : Nat) (nodeId : NodeId) :
    Closes { nothing with node := fun key => key.1 = revision ∧ run.Doomed revision nodeId key.2 }
      run (run.skipDependents revision nodeId) := by
  have hrest := (skipping_skipDependents run revision nodeId).rest
  have hsame : Closes nothing run
      { run.skipDependents revision nodeId with nodes := run.nodes } :=
    .of_rows rfl (by rw [hrest]) (by rw [hrest]) (by rw [hrest])
  refine ⟨fun key => ?_, hsame.command, hsame.operation, hsame.delivery⟩
  obtain ⟨r, id⟩ := key
  rcases findNode_skipDependents run revision nodeId r id with ⟨hr, hdoomed, hskip⟩ | ⟨hnot, hskip⟩
  · refine .inr ⟨⟨hr, hdoomed⟩, ?_, ?_⟩
    · have hget : (run.skipDependents revision nodeId).nodes.get (r, id) = _ := hskip
      rw [openNode, hget]
      cases run.findNode r id <;> rfl
    · exact (congrArg Option.isSome hskip).trans Option.isSome_map
  · exact .inl ⟨hnot, hskip⟩

theorem closes_upsertOperation {op : OperationRow} (hstatus : op.status.isOpen = false)
    (h : run.upsertOperation op = .ok run') : Closes (ofOperation op.opId) run run' := by
  have hrest := upsertOperation_rest h
  have hsame : Closes nothing run { run' with operations := run.operations } :=
    .of_rows (by rw [hrest]) (by rw [hrest]) rfl (by rw [hrest])
  refine ⟨hsame.node, hsame.command, fun id hopen => ?_, hsame.delivery⟩
  rcases upsertOperation_ok h with ⟨old, hget, -, rfl⟩ | ⟨hget, operations, hinsert, rfl⟩
  · by_cases hid : id = op.opId
    · rw [openOperation, hid, Table.get_modify_same, hget] at hopen
      cases hstatus.symm.trans hopen
    · rw [openOperation, Table.get_modify_of_ne _ _ _ hid] at hopen
      exact ⟨hopen, hid⟩
  rw [openOperation, Table.get_of_insert hinsert] at hopen
  split at hopen
  · cases hstatus.symm.trans hopen
  · rename_i hid
    exact ⟨hopen, fun h => hid h⟩

theorem closes_updateCommands (p : WorkflowCommand → Bool) (f : WorkflowCommand → WorkflowCommand)
    (hf : ∀ c, Keyed.key (f c) = Keyed.key c)
    (hclosed : ∀ c, p c = true → (f c).status.isOpen = true → c.status.isOpen = true) (run : WorkflowRun) :
    Closes { nothing with command := fun key =>
        ∃ c, run.commands.get key = some c ∧ p c = true ∧ (f c).status.isOpen = false }
      run { run with commands := run.commands.updateWhere p f hf } := by
  refine { Closes.of_rows rfl rfl rfl rfl with command := fun key hopen => ?_ }
  rw [openCommand, Table.get_updateWhere] at hopen
  rw [openCommand]
  cases hc : run.commands.get key with
  | none =>
    rw [hc] at hopen
    cases hopen
  | some c =>
    rw [hc] at hopen
    have hopen' : (if p c = true then f c else c).status.isOpen = true := hopen
    by_cases hp : p c = true
    · rw [if_pos hp] at hopen'
      refine ⟨hclosed c hp hopen', ?_⟩
      rintro ⟨c', hc', -, hnot⟩
      rw [← Option.some.inj (hc.symm.trans hc')] at hnot
      cases hnot.symm.trans hopen'
    rw [if_neg hp] at hopen'
    refine ⟨hopen', ?_⟩
    rintro ⟨c', hc', hp', -⟩
    rw [← Option.some.inj (hc.symm.trans hc')] at hp'
    exact hp hp'

theorem Closes.mono (h : Closes S run run') (hnode : ∀ key, T.node key ↔ S.node key)
    (hcommand : ∀ key, run.openCommand key = true → T.command key → S.command key)
    (hoperation : ∀ id, T.operation id → S.operation id)
    (hdelivery : ∀ id, S.delivery id → T.delivery id) : Closes T run run' where
  node key := by
    rw [hnode key]
    exact h.node key
  command key hopen :=
    ⟨(h.command key hopen).1, fun hT => (h.command key hopen).2
      (hcommand key (h.command key hopen).1 hT)⟩
  operation id hopen :=
    ⟨(h.operation id hopen).1, fun hT => (h.operation id hopen).2 (hoperation id hT)⟩
  delivery key := (h.delivery key).imp (hdelivery key) id

theorem closes_completeCommand {key : CommandKey} {owner : String} {token : Nat}
    (h : run.completeCommand key owner token = .ok run') : Closes (ofCommand key) run run' := by
  obtain ⟨⟨c, hc, -⟩, rfl⟩ := completeCommand_ok h
  refine (closes_updateCommands _ _ _ (fun c _ hopen => by cases hopen) run).mono (fun _ => Iff.rfl)
    ?_ (fun _ => id) (fun _ => id)
  rintro _ - rfl
  exact ⟨c, hc, by simpa using Table.key_of_get hc, rfl⟩

theorem closes_supersedeCommand (key : CommandKey) (run : WorkflowRun) :
    Closes (ofCommand key) run (run.supersedeCommand key) := by
  refine (closes_updateCommands _ _ _ (fun c _ hopen => by cases hopen) run).mono (fun _ => Iff.rfl)
    ?_ (fun _ => id) (fun _ => id)
  rintro _ hopen rfl
  obtain ⟨c, hc, hstatus⟩ := (Option.any_eq_true _ _).1 hopen
  exact ⟨c, hc, by simpa [hstatus] using Table.key_of_get hc, rfl⟩

theorem closes_settleClaim {claim : Option ClaimAuthority} (h : run.settleClaim claim = .ok run') :
    Closes (ofClaim claim) run run' := by
  unfold settleClaim at h
  split at h
  · cases h
    exact (Closes.refl run).mono (fun _ => Iff.rfl) (fun _ _ ⟨_, h, _⟩ => by cases h)
      (fun _ => id) (fun _ => id)
  refine (closes_completeCommand h).mono (fun _ => Iff.rfl) ?_ (fun _ => id) (fun _ => id)
  rintro key - ⟨c, hc, rfl⟩
  cases hc
  rfl

theorem closes_supersedeClaim (claim : Option ClaimAuthority) (run : WorkflowRun) :
    Closes (ofClaim claim) run (run.supersedeClaim claim) := by
  unfold supersedeClaim
  split
  · exact (Closes.refl run).mono (fun _ => Iff.rfl) (fun _ _ ⟨_, h, _⟩ => by cases h)
      (fun _ => id) (fun _ => id)
  refine (closes_supersedeCommand _ run).mono (fun _ => Iff.rfl) ?_ (fun _ => id) (fun _ => id)
  rintro key - ⟨c, hc, rfl⟩
  cases hc
  rfl

theorem closes_claimCommand {key : CommandKey} {owner : String} {token : Nat} {now : Millis}
    (h : run.claimCommand key owner token now = some run') : Closes nothing run run' := by
  obtain ⟨⟨c, hc, hpending⟩, rfl⟩ := claimCommand_some h
  refine { Closes.of_rows rfl rfl rfl rfl with command := fun key' hopen => ⟨?_, id⟩ }
  rw [openCommand, Table.get_modify] at hopen
  split at hopen
  · rename_i hkey
    rw [openCommand, hkey, hc, Option.any_some, hpending]
    rfl
  · exact hopen

theorem closes_modifyDelivery (f : DeliveryRow → DeliveryRow)
    (hf : ∀ d, Keyed.key (f d) = Keyed.key d) (run : WorkflowRun) :
    Closes (ofDelivery nodeId) run
      { run with deliveries := run.deliveries.modify nodeId f hf } := by
  refine { Closes.of_rows rfl rfl rfl rfl with delivery := fun key => ?_ }
  by_cases hkey : key = nodeId
  · exact .inl hkey
  · exact .inr (Table.get_modify_of_ne run.deliveries f hf hkey)

theorem closes_setDeliveryOutcome {outcome : DeliveryOutcome} {receipt : Option String}
    (h : run.setDeliveryOutcome nodeId outcome receipt = .ok run') :
    Closes (ofDelivery nodeId) run run' := by
  unfold setDeliveryOutcome at h
  split at h
  · cases h
  · cases h
    exact closes_modifyDelivery _ _ run

theorem closes_bumpDeliveryAttempts {attempts : Nat}
    (h : run.bumpDeliveryAttempts nodeId = .ok (attempts, run')) :
    Closes (ofDelivery nodeId) run run' := by
  unfold bumpDeliveryAttempts at h
  split at h
  · split at h
    · cases h
      exact closes_modifyDelivery _ _ run
    · cases h
  · cases h

/-! ### Whole runs -/

theorem closes_cancelWork (run : WorkflowRun) :
    Closes { everything with operation := fun _ => False } run run.cancelWork := by
  refine ⟨fun key => .inr ⟨trivial, ?_, ?_⟩, fun key hopen => ?_, fun _ hopen => ⟨hopen, id⟩,
    fun _ => .inl trivial⟩
  · rw [openNode, cancelWork, Table.get_updateWhere]
    cases run.nodes.get key with
    | none => rfl
    | some n =>
      simp only [Option.map_some, Option.any_some]
      split
      · rfl
      · rename_i hclosed
        simpa using hclosed
  · rw [cancelWork, Table.get_updateWhere, Option.isSome_map]
  · rw [openCommand, cancelWork, Table.get_updateWhere] at hopen
    exfalso
    cases hc : run.commands.get key with
    | none =>
      rw [hc] at hopen
      cases hopen
    | some c =>
      rw [hc] at hopen
      simp only [Option.map_some, Option.any_some] at hopen
      split at hopen
      · cases hopen
      · rename_i hclosed
        exact hclosed hopen

theorem closes_closeOpenOperations {status : OperationStatus} (hstatus : status.isOpen = false)
    (run : WorkflowRun) :
    Closes { nothing with operation := fun _ => True } run (run.closeOpenOperations status) := by
  refine { Closes.of_rows rfl rfl rfl rfl with operation := fun id hopen => ?_ }
  exfalso
  rw [openOperation, closeOpenOperations, Table.get_updateWhere] at hopen
  cases ho : run.operations.get id with
  | none =>
    rw [ho] at hopen
    cases hopen
  | some o =>
    rw [ho] at hopen
    simp only [Option.map_some, Option.any_some] at hopen
    split at hopen
    · cases hstatus.symm.trans hopen
    · rename_i hclosed
      exact hclosed hopen

theorem closes_cancelRun {status : OperationStatus} (hstatus : status.isOpen = false)
    (run : WorkflowRun) : Closes everything run (run.cancelWork.closeOpenOperations status) := by
  refine ((closes_cancelWork run).trans (closes_closeOpenOperations hstatus _)).mono ?_ ?_ ?_ ?_ <;>
    simp [also, everything, nothing]

theorem closes_bump (effect : TransitionEffect) (run : WorkflowRun) :
    Closes nothing run (run.bump effect) := .of_rows rfl rfl rfl rfl

theorem Closes.bump (h : Closes S run run') (effect : TransitionEffect) :
    Closes S run (run'.bump effect) := by
  refine ((h.trans (closes_bump effect run'))).mono (fun _ => ?_) (fun _ _ => .inl)
    (fun _ => .inl) fun _ h => h.elim id False.elim
  simp [also, nothing]

/-! ## Evaluations -/

/-- Only the given rows keep the evaluation of a revision from ending the run: its other nodes
are closed, no other review is running and no other delivery is owed.  A revision without nodes
ends it at once. -/
def Decided (run : WorkflowRun) (revision : Nat) (S : SettledWork) : Prop :=
  run.listNodes revision = [] ∨
    (∀ n ∈ run.nodes, n.revision = revision → n.status.isOpen = true →
      S.node (revision, n.nodeId)) ∧
    (∀ n ∈ run.nodes, 1 ≤ n.revision → n.revision ≤ revision → n.kind = .review →
      n.status = .running → S.node (n.revision, n.nodeId)) ∧
    ∀ d ∈ run.deliveries, d.outcome = .pending → S.delivery d.nodeId

theorem decided_of_evaluateTerminal {cause : Option String}
    (h : (run.evaluateTerminal revision cause).nextState ≠ none) : run.Decided revision nothing := by
  unfold evaluateTerminal at h
  split at h
  · rename_i hnil
    exact .inl hnil
  split at h
  · exact absurd rfl h
  rename_i hopen
  split at h
  · exact absurd rfl h
  rename_i hreview
  split at h
  · exact absurd rfl h
  rename_i howed
  refine .inr ⟨fun n hn hrevision hstatus => hopen ?_, fun n hn hle hle' hkind hrunning =>
    hreview ?_, fun d hd hpending => howed ?_⟩
  · exact List.any_eq_true.2 ⟨n, mem_listNodes.2 ⟨hn, hrevision⟩, hstatus⟩
  · exact List.any_eq_true.2 ⟨n, hn, by simp [hle, hle', hkind, hrunning]⟩
  · exact List.any_eq_true.2 ⟨d, hd, by simp [hpending]⟩

theorem Closes.listNodes_nil (h : Closes S run run') (hnil : run'.listNodes revision = []) :
    run.listNodes revision = [] := by
  rw [List.eq_nil_iff_forall_not_mem] at hnil ⊢
  intro n hn
  obtain ⟨hmem, rfl⟩ := mem_listNodes.1 hn
  have hget : run.nodes.get (n.revision, n.nodeId) = some n := Table.get_key_of_mem hmem
  have hsome : (run'.nodes.get (n.revision, n.nodeId)).isSome = true := by
    rcases h.node (n.revision, n.nodeId) with ⟨-, hsame⟩ | ⟨-, -, hsome⟩
    · rw [hsame, hget]
      rfl
    · rw [hsome, hget]
      rfl
  obtain ⟨n', hn'⟩ := Option.isSome_iff_exists.1 hsome
  refine hnil n' (mem_listNodes.2 ⟨Table.mem_of_get hn', ?_⟩)
  exact congrArg Prod.fst (Table.key_of_get hn' : (n'.revision, n'.nodeId) = _)

theorem Decided.before (h : run'.Decided revision T) (hcloses : Closes S run run') :
    run.Decided revision (S.also T) := by
  have hnode : ∀ n ∈ run.nodes, S.node (n.revision, n.nodeId) ∨ n ∈ run'.nodes := by
    intro n hn
    rcases hcloses.node (n.revision, n.nodeId) with ⟨-, hsame⟩ | ⟨hS, -, -⟩
    · exact .inr (Table.mem_of_get (hsame.trans (Table.get_key_of_mem hn)))
    · exact .inl hS
  rcases h with hnil | ⟨hopen, hreview, howed⟩
  · exact .inl (hcloses.listNodes_nil hnil)
  refine .inr ⟨fun n hn hrevision hstatus => ?_, fun n hn hle hle' hkind hrunning => ?_,
    fun d hd hpending => ?_⟩
  · subst hrevision
    exact (hnode n hn).imp id fun hn' => hopen n hn' rfl hstatus
  · exact (hnode n hn).imp id fun hn' => hreview n hn' hle hle' hkind hrunning
  · rcases hcloses.delivery d.nodeId with hS | hsame
    · exact .inl hS
    · exact .inr (howed d (Table.mem_of_get (hsame.trans (Table.get_key_of_mem hd))) hpending)

theorem Decided.mono (h : run.Decided revision S) (hnode : ∀ key, S.node key → T.node key)
    (hdelivery : ∀ id, S.delivery id → T.delivery id) : run.Decided revision T :=
  h.imp id fun ⟨hopen, hreview, howed⟩ =>
    ⟨fun n hn hr hstatus => hnode _ (hopen n hn hr hstatus),
      fun n hn hle hle' hkind hrunning => hnode _ (hreview n hn hle hle' hkind hrunning),
      fun d hd hpending => hdelivery _ (howed d hd hpending)⟩

/-- An applier that ended the run by an evaluation: what it closed was all that was undecided. -/
structure Ended (S : SettledWork) (revision : Nat) (run run' : WorkflowRun) : Prop where
  closes : Closes S run run'
  decided : run.Decided revision S

theorem Ended.of_evaluate {cause : Option String} (hcloses : Closes S run run')
    (h : (run'.evaluateTerminal revision cause).nextState ≠ none) : Ended S revision run run' :=
  ⟨hcloses, ((decided_of_evaluateTerminal h).before hcloses).mono
    (fun _ hkey => hkey.elim id False.elim) fun _ hkey => hkey.elim id False.elim⟩

theorem Ended.after (h : Ended T revision mid run') (hcloses : Closes S run mid) :
    Ended (S.also T) revision run run' :=
  ⟨hcloses.trans h.closes, h.decided.before hcloses⟩

theorem Ended.mono (h : Ended S revision run run') (hnode : ∀ key, T.node key ↔ S.node key)
    (hcommand : ∀ key, run.openCommand key = true → T.command key → S.command key)
    (hoperation : ∀ id, T.operation id → S.operation id)
    (hdelivery : ∀ id, S.delivery id → T.delivery id) : Ended T revision run run' :=
  ⟨h.closes.mono hnode hcommand hoperation hdelivery,
    h.decided.mono (fun key => (hnode key).2) hdelivery⟩

section Attempts

variable {cause : String} {generation : Nat} {effect : TransitionEffect} {attemptId : String}

theorem releaseDependents_idle (h : run.releaseDependents generation revision nodeId = .ok run')
    (hdecided : run'.Decided revision nothing) : run' = run.markSatisfied revision nodeId := by
  unfold releaseDependents satisfyDependents at h
  dsimp only at h
  have hrest := queueNodes_rest h
  have hnodes : run'.nodes = run.nodes := by
    rw [hrest]
    rfl
  rw [Table.select, List.filter_eq_nil_iff.2] at h
  · exact (Except.ok.inj h).symm
  intro n hn
  change n ∈ run.nodes at hn
  rw [← hnodes] at hn
  intro hready
  simp only [decide_eq_true_eq] at hready
  rcases hdecided with hnil | ⟨hopen, -, -⟩
  · rw [List.eq_nil_iff_forall_not_mem] at hnil
    exact hnil n (mem_listNodes.2 ⟨hn, hready.1⟩)
  · exact hopen n hn hready.1 (by rw [hready.2.1]; rfl)

theorem closes_markSatisfied (revision : Nat) (nodeId : NodeId) (run : WorkflowRun) :
    Closes nothing run (run.markSatisfied revision nodeId) := .of_rows rfl rfl rfl rfl

theorem settleWithReReview_ends {cause : Option String}
    (h : run.settleWithReReview generation revision cause = .ok (effect, run'))
    (hend : effect.nextState ≠ none) :
    run' = run ∧ (run'.evaluateTerminal revision cause).nextState ≠ none := by
  unfold settleWithReReview at h
  dsimp only at h
  split at h
  · cases h
    exact ⟨rfl, hend⟩
  rename_i hstay
  obtain ⟨_, -, h⟩ := ok_of_match h
  cases h
  exact absurd hstay hend

theorem releaseAndSettle_ends {released : WorkflowRun} {generation' : Nat} {cause : Option String}
    (hreleased : run.releaseDependents generation revision nodeId = .ok released)
    (h : released.settleWithReReview generation' revision cause = .ok (effect, run'))
    (hend : effect.nextState ≠ none) : Ended nothing revision run run' := by
  obtain ⟨rfl, heval⟩ := settleWithReReview_ends h hend
  have hidle := releaseDependents_idle hreleased (decided_of_evaluateTerminal heval)
  refine .of_evaluate ?_ heval
  rw [hidle]
  exact closes_markSatisfied revision nodeId run

theorem succeedNodeEffect_ends {artifactsJson : String}
    (h : run.succeedNodeEffect generation revision nodeId attemptId artifactsJson =
      .ok (effect, run')) (hend : effect.nextState ≠ none) :
    Ended (ofNode (revision, nodeId)) revision run run' := by
  obtain ⟨settled, hsettled, h⟩ := ok_of_match h
  obtain ⟨released, hreleased, h⟩ := ok_of_match h
  have hclose := closes_setNodeOutcome rfl hsettled
  refine ((releaseAndSettle_ends hreleased h hend).after hclose).mono ?_ ?_ ?_ ?_ <;>
    simp [also, nothing, ofNode]

def failClosing (run : WorkflowRun) (revision : Nat) (nodeId : NodeId) : SettledWork :=
  { nothing with node := fun key => key = (revision, nodeId) ∨
      run.isOptionalNode revision nodeId = false ∧ key.1 = revision ∧
        run.Doomed revision nodeId key.2 }

def Retries (run : WorkflowRun) (revision : Nat) (nodeId : NodeId) (retrySafe : Bool) : Prop :=
  run.isOptionalNode revision nodeId = false ∧ retrySafe = true ∧
    ((run.budgets.get .workRetry).consumed : Int) < (run.budgets.get .workRetry).allowed

/-- A node that failed dooms the same nodes as it did before. -/
theorem doomed_of_setNodeOutcome {status : NodeStatus} {outcome : Option NodeOutcome}
    {attempt : Option String} {id : NodeId} (hqueued : status ≠ .queued)
    (hskipped : status ≠ .skipped)
    (h : run.setNodeOutcome revision nodeId status outcome attempt = .ok run') :
    run'.Doomed revision nodeId id ↔ id ≠ nodeId ∧ run.Doomed revision nodeId id := by
  obtain ⟨n, hn, hn'⟩ := findNode_of_setNodeOutcome h
  obtain ⟨-, rfl⟩ := setNodeOutcome_ok h
  set run' : WorkflowRun := { run with
    nodes := run.nodes.modify (revision, nodeId) (NodeRow.settle status outcome attempt) } with hrun'
  have hother : ∀ id, id ≠ nodeId → run'.statusOf revision id = run.statusOf revision id := by
    intro id hid
    refine congrArg (Option.map NodeRow.status) ?_
    exact Table.get_modify_of_ne run.nodes (NodeRow.settle status outcome attempt) (fun _ => rfl)
      fun h => hid (congrArg Prod.snd h)
  have hself : run'.statusOf revision nodeId = some status := by
    rw [statusOf, hn']
    rfl
  constructor
  · intro hdoomed
    induction hdoomed with
    | direct hq hdep =>
      have hid : _ ≠ nodeId := fun hid => hqueued (Option.some.inj (hself.symm.trans (hid ▸ hq)))
      exact ⟨hid, .direct (hother _ hid ▸ hq) hdep⟩
    | behind hq hs hdep =>
      have hid : _ ≠ nodeId := fun hid => hqueued (Option.some.inj (hself.symm.trans (hid ▸ hq)))
      have hid' : _ ≠ nodeId := fun hid => hskipped (Option.some.inj (hself.symm.trans (hid ▸ hs)))
      exact ⟨hid, .behind (hother _ hid ▸ hq) (hother _ hid' ▸ hs) hdep⟩
    | next hq _ hdep ih =>
      have hid : _ ≠ nodeId := fun hid => hqueued (Option.some.inj (hself.symm.trans (hid ▸ hq)))
      exact ⟨hid, .next (hother _ hid ▸ hq) ih.2 hdep⟩
  · rintro ⟨hid, hdoomed⟩
    induction hdoomed with
    | direct hq hdep => exact .direct ((hother _ hid).trans hq) hdep
    | @behind id dep hq hs hdep =>
      by_cases hdep' : dep = nodeId
      · exact .direct ((hother _ hid).trans hq) (hdep' ▸ hdep)
      · exact .behind ((hother _ hid).trans hq) ((hother _ hdep').trans hs) hdep
    | @next id dep hq _ hdep ih =>
      by_cases hdep' : dep = nodeId
      · exact .direct ((hother _ hid).trans hq) (hdep' ▸ hdep)
      · exact .next ((hother _ hid).trans hq) (ih hdep') hdep

theorem closeFailedNode_ends
    (h : run.closeFailedNode generation revision nodeId attemptId cause = .ok (effect, run'))
    (hend : effect.nextState ≠ none) :
    Ended (run.failClosing revision nodeId) revision run run' := by
  obtain ⟨settled, hsettled, h⟩ := ok_of_match h
  have hclose := closes_setNodeOutcome rfl hsettled
  have hplan : settled.isOptionalNode revision nodeId = run.isOptionalNode revision nodeId := by
    obtain ⟨-, rfl⟩ := setNodeOutcome_ok hsettled
    rfl
  split at h
  · rename_i hoptional
    obtain ⟨released, hreleased, h⟩ := ok_of_match h
    refine ((releaseAndSettle_ends hreleased h hend).after hclose).mono ?_ ?_ ?_ ?_ <;>
      simp [also, nothing, ofNode, failClosing, ← hplan, hoptional]
  rename_i hrequired
  obtain ⟨rfl, heval⟩ := settleWithReReview_ends h hend
  have hskip := closes_skipDependents settled revision nodeId
  refine (Ended.of_evaluate (hclose.trans hskip) heval).mono (fun key => ?_) ?_ ?_ ?_
  · obtain ⟨r, id⟩ := key
    simp only [also, ofNode, failClosing, ← hplan, Bool.eq_false_iff.2 hrequired,
      doomed_of_setNodeOutcome (by decide) (by decide) hsettled, Prod.mk.injEq, true_and]
    tauto
  all_goals simp [also, nothing, ofNode, failClosing]

theorem failNodeEffect_ends {retrySafe : Bool}
    (h : run.failNodeEffect generation revision nodeId attemptId cause retrySafe =
      .ok (effect, run')) (hend : effect.nextState ≠ none) :
    ¬ run.Retries revision nodeId retrySafe ∧
      Ended (run.failClosing revision nodeId) revision run run' := by
  unfold failNodeEffect at h
  split at h
  · split at h
    · -- a retry leaves the run as it is
      obtain ⟨_, -, h⟩ := ok_of_match h
      obtain ⟨_, -, h⟩ := ok_of_match h
      cases h
      exact absurd rfl hend
    · rename_i mid hmid
      obtain ⟨rfl, hspent⟩ := consumeBudget_false hmid
      exact ⟨fun hretry => absurd hretry.2.2 (by omega), closeFailedNode_ends h hend⟩
  · rename_i hfinal
    exact ⟨fun hretry => hfinal ⟨hretry.1, hretry.2.1⟩, closeFailedNode_ends h hend⟩

/-! ## Exits

The ways an applier may end the run, read off the rows it finds: what is closed then. -/

def Spent (run : WorkflowRun) (scope : BudgetScope) : Prop :=
  (run.budgets.get scope).allowed ≤ (run.budgets.get scope).consumed

structure Covered (run : WorkflowRun) (S : SettledWork) : Prop where
  node : ∀ key, run.openNode key = true → S.node key
  command : ∀ key, run.openCommand key = true → S.command key
  operation : ∀ id, run.openOperation id = true → S.operation id

/-- Such an exit was taken, and left no other row where the open ones were covered. -/
def EndsBy (exit : SettledWork → Prop) (run run' : WorkflowRun) : Prop :=
  ∃ S, exit S ∧ (run.Covered S → Closes S run run')

def SuccessExit (run : WorkflowRun) (revision : Nat) (nodeId : NodeId) (S : SettledWork) : Prop :=
  S = ofNode (revision, nodeId) ∧ run.Decided revision S

def FailureExit (run : WorkflowRun) (revision : Nat) (nodeId : NodeId) (S : SettledWork) : Prop :=
  S = run.failClosing revision nodeId ∧ run.Decided revision S

def StoredExit (run : WorkflowRun) (db : Db) (revision : Nat) (nodeId : NodeId) (cardId : Nat)
    (attemptId : String) (S : SettledWork) : Prop :=
  match readWorkerAcceptance db cardId attemptId with
  | .rejected _ => run.FailureExit revision nodeId S
  | .accepted _ => run.SuccessExit revision nodeId S

def SucceededExit (run : WorkflowRun) (db : Db) (revision : Nat) (nodeId : NodeId)
    (attemptId : String) (S : SettledWork) : Prop :=
  ∃ n, run.requireNode revision nodeId = .ok n ∧
    match requireCurrentAttempt db n attemptId with
    | .error _ => False
    | .ok none => run.SuccessExit revision nodeId S
    | .ok (some cardId) => run.StoredExit db revision nodeId cardId attemptId S

def FailedExit (run : WorkflowRun) (revision : Nat) (nodeId : NodeId) (retrySafe : Bool)
    (S : SettledWork) : Prop :=
  run.openNode (revision, nodeId) = true ∧ ¬ run.Retries revision nodeId retrySafe ∧
    run.FailureExit revision nodeId S

theorem storedAcceptanceEffect_ends {envelopeJson : WorkerResultEnvelope → String} {db : Db}
    {cardId : Nat} (h : run.storedAcceptanceEffect envelopeJson db generation revision nodeId
      cardId attemptId = .ok (effect, run')) (hend : effect.nextState ≠ none) :
    ∃ S, run.StoredExit db revision nodeId cardId attemptId S ∧ Closes S run run' := by
  unfold storedAcceptanceEffect at h
  split at h
  · rename_i hread
    obtain ⟨-, hcloses, hdecided⟩ := failNodeEffect_ends h hend
    refine ⟨_, ?_, hcloses⟩
    rw [StoredExit, hread]
    exact ⟨rfl, hdecided⟩
  rename_i hread
  obtain ⟨hcloses, hdecided⟩ := succeedNodeEffect_ends h hend
  refine ⟨_, ?_, hcloses⟩
  rw [StoredExit, hread]
  exact ⟨rfl, hdecided⟩

theorem attemptSucceededEffect_ends {envelopeJson : WorkerResultEnvelope → String} {db : Db}
    {artifactsJson : String} (h : run.attemptSucceededEffect envelopeJson db revision nodeId
      attemptId artifactsJson = .ok (effect, run')) (hend : effect.nextState ≠ none) :
    EndsBy (run.SucceededExit db revision nodeId attemptId) run run' := by
  unfold attemptSucceededEffect at h
  split at h
  · cases h
  rename_i n hn
  split at h
  · cases h
  · rename_i hcurrent
    obtain ⟨hcloses, hdecided⟩ := succeedNodeEffect_ends h hend
    exact ⟨_, ⟨n, hn, by rw [hcurrent]; exact ⟨rfl, hdecided⟩⟩, fun _ => hcloses⟩
  · rename_i cardId hcurrent
    obtain ⟨S, hexit, hcloses⟩ := storedAcceptanceEffect_ends h hend
    exact ⟨S, ⟨n, hn, by rw [hcurrent]; exact hexit⟩, fun _ => hcloses⟩

theorem openNode_of_requireNode {n : NodeRow} (h : run.requireNode revision nodeId = .ok n) :
    run.openNode (revision, nodeId) = true := by
  obtain ⟨hn, hopen⟩ := requireNode_ok h
  have hget : run.nodes.get (revision, nodeId) = some n := hn
  rw [openNode, hget]
  exact hopen

theorem attemptFailedEffect_ends {retrySafe : Bool}
    (h : run.attemptFailedEffect revision nodeId attemptId cause retrySafe = .ok (effect, run'))
    (hend : effect.nextState ≠ none) :
    EndsBy (run.FailedExit revision nodeId retrySafe) run run' := by
  unfold attemptFailedEffect at h
  split at h
  · cases h
  · rename_i n hn
    obtain ⟨hretry, hcloses, hdecided⟩ := failNodeEffect_ends h hend
    exact ⟨_, ⟨openNode_of_requireNode hn, hretry, rfl, hdecided⟩, fun _ => hcloses⟩

end Attempts

section Reviews

variable {home judged : Nat} {effect : TransitionEffect} {claim : Option ClaimAuthority}

def RoundExit (run : WorkflowRun) (claim : Option ClaimAuthority) (opId : Option OpId)
    (S : SettledWork) : Prop :=
  run.claimHeld claim = .ok () ∧ run.Spent .planRevision ∧ S = (ofJob opId).also (ofClaim claim)

theorem closes_failOperation {opId : Option OpId} (h : run.failOperation opId = .ok run') :
    Closes (ofJob opId) run run' := by
  unfold failOperation at h
  split at h
  · cases h
    exact (Closes.refl run).mono (fun _ => Iff.rfl) (fun _ _ => id) (fun _ h => by cases h)
      (fun _ => id)
  · refine (closes_upsertOperation rfl h).mono (fun _ => Iff.rfl) (fun _ _ => id) ?_ (fun _ => id)
    intro id hid
    exact (Option.some.inj hid).symm

theorem rejectPlanRoundEffect_ends {reason : String} {opId : Option OpId} {round : Option PlanRound}
    (h : run.rejectPlanRoundEffect reason opId round claim = .ok (effect, run'))
    (hend : effect.nextState ≠ some .planning) : EndsBy (run.RoundExit claim opId) run run' := by
  unfold rejectPlanRoundEffect at h
  split at h
  · cases h
  rename_i hheld
  split at h
  · rename_i mid hmid
    obtain ⟨rfl, hspent⟩ := consumeBudget_false hmid
    obtain ⟨failed, hfailed, h⟩ := ok_of_match h
    cases h
    exact ⟨_, ⟨hheld, hspent, rfl⟩, fun _ =>
      (closes_failOperation hfailed).trans (closes_supersedeClaim claim failed)⟩
  · split at h
    · cases h
      exact absurd rfl hend
    · obtain ⟨_, -, h⟩ := ok_of_match h
      cases h
      exact absurd rfl hend

def FailsReview (run : WorkflowRun) (verdict : ReviewVerdict) : Prop :=
  match run.checkVerdict run.currentRevision verdict, verdict with
  | some _, _ => run.Spent .protocolCorrection
  | none, .cannotAssess _ => True
  | none, .changesRequired _ => run.Spent .reviewRepair
  | none, _ => False

/-- The review that fails is the last node undecided.  An acceptance ends the run only where its
delivery is over before it is owed. -/
def VerdictExit (run : WorkflowRun) (home : Nat) (nodeId : NodeId) (verdict : ReviewVerdict)
    (claim : Option ClaimAuthority) (S : SettledWork) : Prop :=
  run.claimHeld claim = .ok () ∧
    (run.FailsReview verdict ∧
        S = ((ofOperation (.node home nodeId)).also (ofNode (home, nodeId))).also (ofClaim claim) ∧
        run.Decided run.currentRevision S ∨
      verdict = .accept ∧ S = nothing ∧ (run.listNodes run.currentRevision = [] ∨
        ∃ d, run.deliveries.get nodeId = some d ∧ d.outcome ≠ .pending))

theorem failReviewEffect_ends {outcome cause : String}
    (h : run.failReviewEffect home judged nodeId outcome cause claim = .ok (effect, run'))
    (hend : effect.nextState ≠ none) :
    Ended (((ofOperation (.node home nodeId)).also (ofNode (home, nodeId))).also (ofClaim claim))
      judged run run' := by
  obtain ⟨closed, hclosed, h⟩ := ok_of_match h
  obtain ⟨settled, hsettled, h⟩ := ok_of_match h
  obtain ⟨final, hfinal, h⟩ := ok_of_match h
  cases h
  have hop : Closes (ofOperation (.node home nodeId)) run closed :=
    closes_upsertOperation rfl hclosed
  exact .of_evaluate ((hop.trans (closes_setNodeOutcome rfl hsettled)).trans
    (closes_settleClaim hfinal)) hend

/-- The delivery an acceptance owes keeps the run alive, unless it is over already. -/
theorem acceptedVerdictEffect_ends
    (h : run.acceptedVerdictEffect home judged nodeId claim = .ok (effect, run'))
    (hend : effect.nextState ≠ none) :
    run.listNodes judged = [] ∨ ∃ d, run.deliveries.get nodeId = some d ∧ d.outcome ≠ .pending := by
  obtain ⟨closed, hclosed, h⟩ := ok_of_match h
  obtain ⟨settled, hsettled, h⟩ := ok_of_match h
  obtain ⟨queued, hqueued, h⟩ := ok_of_match h
  obtain ⟨final, hfinal, h⟩ := ok_of_match h
  cases h
  have hcloses : Closes (ofNode (home, nodeId)) run settled := by
    refine (Closes.trans (closes_upsertOperation rfl hclosed)
      (closes_setNodeOutcome rfl hsettled)).mono ?_ ?_ ?_ ?_ <;>
      simp [also, ofOperation, ofNode, nothing]
  have hsettle := closes_settleClaim hfinal
  have hqueue := queueCommand_rest hqueued
  have hdeliveries : run'.deliveries.get nodeId =
      (settled.insertDelivery nodeId judged).deliveries.get nodeId := by
    rcases hsettle.delivery nodeId with h | h
    · exact h.elim
    · rw [h, hqueue]
  rcases decided_of_evaluateTerminal hend with hnil | ⟨-, -, howed⟩
  · refine .inl (hcloses.listNodes_nil ?_)
    have hnodes : queued.nodes = settled.nodes := by
      rw [hqueue]
      unfold insertDelivery
      split <;> rfl
    have hqueued := hsettle.listNodes_nil hnil
    rwa [listNodes, hnodes] at hqueued
  · refine .inr ?_
    have hsame : settled.deliveries.get nodeId = run.deliveries.get nodeId := by
      rcases hcloses.delivery nodeId with h | h
      · exact h.elim
      · exact h
    rw [← hsame]
    unfold insertDelivery at hdeliveries
    split at hdeliveries
    · rename_i d hd
      refine ⟨d, hd, fun hpending => ?_⟩
      rw [Table.get_modify_same, hd] at hdeliveries
      exact howed _ (Table.mem_of_get hdeliveries) hpending
    · rw [Table.get_put, key_deliveryRow, if_pos rfl] at hdeliveries
      exact absurd rfl (howed _ (Table.mem_of_get hdeliveries))

theorem malformedVerdictEffect_ends {malformed : String}
    (h : run.malformedVerdictEffect home judged nodeId malformed claim = .ok (effect, run'))
    (hend : effect.nextState ≠ none) : run.Spent .protocolCorrection ∧
      Ended (((ofOperation (.node home nodeId)).also (ofNode (home, nodeId))).also (ofClaim claim))
        judged run run' := by
  unfold malformedVerdictEffect at h
  split at h
  · rename_i mid hmid
    obtain ⟨rfl, hspent⟩ := consumeBudget_false hmid
    exact ⟨hspent, failReviewEffect_ends h hend⟩
  obtain ⟨_, -, h⟩ := ok_of_match h
  obtain ⟨_, -, h⟩ := ok_of_match h
  cases h
  exact absurd rfl hend

theorem changesRequiredEffect_ends {defects : List Defect}
    (h : run.changesRequiredEffect home judged nodeId defects claim = .ok (effect, run'))
    (hend : effect.nextState ≠ none) : run.Spent .reviewRepair ∧
      Ended (((ofOperation (.node home nodeId)).also (ofNode (home, nodeId))).also (ofClaim claim))
        judged run run' := by
  unfold changesRequiredEffect at h
  split at h
  · rename_i mid hmid
    obtain ⟨rfl, hspent⟩ := consumeBudget_false hmid
    exact ⟨hspent, failReviewEffect_ends h hend⟩
  obtain ⟨_, -, h⟩ := ok_of_match h
  obtain ⟨_, -, h⟩ := ok_of_match h
  obtain ⟨_, -, h⟩ := ok_of_match h
  cases h
  exact absurd rfl hend

theorem verdictEffect_ends {verdict : ReviewVerdict} (hreview : run.openNode (home, nodeId) = true)
    (h : run.verdictEffect home nodeId verdict claim = .ok (effect, run'))
    (hend : effect.nextState ≠ none) :
    EndsBy (run.VerdictExit home nodeId verdict claim) run run' := by
  obtain ⟨hheld, h⟩ := ok_of_check h
  have hfails : run.FailsReview verdict → Ended
      (((ofOperation (.node home nodeId)).also (ofNode (home, nodeId))).also (ofClaim claim))
      run.currentRevision run run' → EndsBy (run.VerdictExit home nodeId verdict claim) run run' :=
    fun hfail hended => ⟨_, ⟨hheld, .inl ⟨hfail, rfl, hended.decided⟩⟩, fun _ => hended.closes⟩
  unfold FailsReview at hfails
  split at h
  · rename_i hcheck
    obtain ⟨hspent, hended⟩ := malformedVerdictEffect_ends h hend
    rw [hcheck] at hfails
    exact hfails hspent hended
  rename_i hcheck
  rw [hcheck] at hfails
  split at h
  · refine ⟨nothing, ⟨hheld, .inr ⟨rfl, rfl, acceptedVerdictEffect_ends h hend⟩⟩, fun hcovered => ?_⟩
    exact (hcovered.node _ hreview).elim
  · exact hfails trivial (failReviewEffect_ends h hend)
  · obtain ⟨hspent, hended⟩ := changesRequiredEffect_ends h hend
    exact hfails hspent hended
  · cases h

/-- A refused optional node is the last one undecided; a refused required node ends the run where
it stands, itself still open. -/
def RefusalExit (run : WorkflowRun) (nodeId : NodeId) (ordinal : Nat) (S : SettledWork) : Prop :=
  let key : CommandKey := ⟨run.generation, nodeId, .dispatch, ordinal⟩
  run.openNode (run.currentRevision, nodeId) = true ∧
    if run.isOptionalNode run.currentRevision nodeId then
      S = { ofNode (run.currentRevision, nodeId) with
        command := fun k => k = key ∧ (run.commands.get key).any (·.status = .pending) } ∧
      run.Decided run.currentRevision S
    else S = nothing

theorem closes_cancelCommand (key : CommandKey) (run : WorkflowRun) :
    Closes { nothing with command := fun k =>
        k = key ∧ (run.commands.get key).any (·.status = .pending) } run (run.cancelCommand key) := by
  refine (closes_updateCommands _ _ _ (fun c _ hopen => by cases hopen) run).mono (fun _ => Iff.rfl)
    ?_ (fun _ => id) (fun _ => id)
  rintro _ - ⟨rfl, hpending⟩
  obtain ⟨c, hc, hstatus⟩ := (Option.any_eq_true _ _).1 hpending
  refine ⟨c, hc, ?_, rfl⟩
  simpa using ⟨Table.key_of_get hc, by simpa using hstatus⟩

theorem breakerRefusedEffect_ends {resource : String} {ordinal : Nat}
    (h : run.breakerRefusedEffect nodeId resource ordinal = .ok (effect, run'))
    (hend : effect.nextState ≠ none) : EndsBy (run.RefusalExit nodeId ordinal) run run' := by
  unfold breakerRefusedEffect at h
  dsimp only at h
  split at h
  · cases h
    exact absurd rfl hend
  rename_i n hn
  obtain ⟨hfound, hstatus⟩ := Option.filter_eq_some_iff.1 hn
  have hopen : run.openNode (run.currentRevision, nodeId) = true := by
    have hget : run.nodes.get (run.currentRevision, nodeId) = some n := hfound
    rw [openNode, hget]
    exact hstatus
  have hcancel := closes_cancelCommand ⟨run.generation, nodeId, .dispatch, ordinal⟩ run
  split at h
  · rename_i hoptional
    obtain ⟨settled, hsettled, h⟩ := ok_of_match h
    obtain ⟨released, hreleased, h⟩ := ok_of_match h
    have hclose := hcancel.trans (closes_setNodeOutcome rfl hsettled)
    have hended := (releaseAndSettle_ends hreleased h hend).after hclose
    refine ⟨_, ⟨hopen, ?_⟩, fun _ => hended.closes⟩
    rw [if_pos (by exact hoptional)]
    refine ⟨?_, hended.decided⟩
    simp [also, nothing, ofNode]
  · rename_i hrequired
    refine ⟨nothing, ⟨hopen, ?_⟩, fun hcovered => (hcovered.node _ hopen).elim⟩
    rw [if_neg (by exact hrequired)]

end Reviews

/-! ### Deliveries and inspections -/

def DeliveryExit (run : WorkflowRun) (key : CommandKey) (send : DeliverySend) (S : SettledWork) : Prop :=
  (∃ json, send = .receipt json) ∧ (run.deliveries.get key.nodeId).any (·.outcome = .pending) ∧
    S = (ofDelivery key.nodeId).also (ofCommand key) ∧ run.Decided run.currentRevision S

section Inspections

variable {c : WorkflowCommand}

variable {effect : TransitionEffect} {now : Millis} {db : Db} {expectedGen : Nat}

def AtCap (c : WorkflowCommand) : Prop := maxConsecutiveInconclusive ≤ c.consecutiveInconclusive + 1

/-- A model job found without a verdict for the last time: its command stays claimed. -/
def JobExit (run : WorkflowRun) (c : WorkflowCommand) (S : SettledWork) : Prop :=
  AtCap c ∧ S = nothing ∧ match run.locateAnyRevision c.nodeId with
    | none => c.action = .plan ∨ run.Decided run.currentRevision nothing
    | some home => run.Decided run.currentRevision (ofNode (home, c.nodeId))

/-- A worker's attempt found over is the last node undecided; one that cannot be observed ends
the run for the last time, and its command stays claimed. -/
def AttemptExit (run : WorkflowRun) (now : Millis) (db : Db) (c : WorkflowCommand)
    (S : SettledWork) : Prop :=
  ∃ node latest, run.findNode run.currentRevision c.nodeId = some node ∧
    node.workerCardId.bind (latestAttempt db) = some latest ∧
    if latest.lifecycle = .completed then
      ∃ cardId S₀, run.StoredExit db run.currentRevision c.nodeId cardId latest.id S₀ ∧
        requireCurrentAttempt db node latest.id = .ok (some cardId) ∧
        S = S₀.also (ofCommand c.toCommandKey)
    else if latest.lifecycle.isTerminal then
      match c.claimedAt with
      | none => AtCap c ∧ S = nothing
      | some claimedAt => claimedAt - 60000 < latest.startedAt ∧
          S = (ofNode (run.currentRevision, c.nodeId)).also (ofCommand c.toCommandKey) ∧
          run.Decided run.currentRevision S
    else latest.lifecycle ≠ .pending ∧ leaseFresh now db latest.id = false ∧ AtCap c ∧ S = nothing

/-- The inspection of a claim that is still this one, on a node that is not closed. -/
def InspectionExit (run : WorkflowRun) (now : Millis) (db : Db) (key : CommandKey)
    (expectedGen : Nat) (S : SettledWork) : Prop :=
  ∃ c, run.commands.get key = some c ∧ c.status = .claimed ∧ c.inspectGen + 1 = expectedGen ∧
    run.NodeOpen run.currentRevision key.nodeId ∧
    match key.action with
    | .deliver => False
    | .review | .plan => run.JobExit c S
    | .dispatch | .notify => run.AttemptExit now db c S

theorem inconclusiveEffect_ends {unknown : Bool}
    {onMax : WorkflowRun → Except WorkflowError WorkflowRun}
    (h : run.inconclusiveEffect now c expectedGen onMax unknown = .ok (effect, run'))
    (hend : effect.nextState ≠ none) : AtCap c ∧ ∃ mid, onMax run = .ok mid ∧
      (unknown = true ∨ mid.Decided mid.currentRevision nothing) := by
  unfold inconclusiveEffect at h
  dsimp only at h
  split at h
  · rename_i hcap
    refine ⟨hcap, ?_⟩
    obtain ⟨mid, hmid, h⟩ := ok_of_match h
    refine ⟨mid, hmid, ?_⟩
    split at h
    · rename_i hunknown
      exact .inl hunknown
    · cases h
      exact .inr (decided_of_evaluateTerminal hend)
  · cases h
    exact absurd rfl hend

theorem inspectModelJob_ends (h : run.inspectModelJob now c expectedGen = .ok (effect, run'))
    (hend : effect.nextState ≠ none) : run.JobExit c nothing := by
  unfold inspectModelJob at h
  obtain ⟨hcap, mid, hmid, hdecided⟩ := inconclusiveEffect_ends h hend
  refine ⟨hcap, rfl, ?_⟩
  obtain ⟨closed, hclosed, hmid⟩ := ok_of_match hmid
  have hop := closes_upsertOperation rfl hclosed
  have hcurrent : closed.currentRevision = run.currentRevision := by
    rw [upsertOperation_rest hclosed]
    rfl
  cases hhome : run.locateAnyRevision c.nodeId with
  | none =>
    rw [hhome] at hmid hdecided
    cases hmid
    refine hdecided.imp (fun hunknown => (by simpa using hunknown)) fun hdecided => ?_
    rw [hcurrent] at hdecided
    exact (hdecided.before hop).mono (fun _ => by simp [also, nothing, ofOperation])
      fun _ => by simp [also, nothing, ofOperation]
  | some home =>
    rw [hhome] at hmid hdecided
    have hclose := closes_setNodeOutcome rfl hmid
    have hcurrent' : mid.currentRevision = run.currentRevision := by
      obtain ⟨-, rfl⟩ := setNodeOutcome_ok hmid
      exact hcurrent
    rcases hdecided with hunknown | hdecided
    · simp at hunknown
    rw [hcurrent'] at hdecided
    exact (hdecided.before (hop.trans hclose)).mono
      (fun _ => by simp [also, nothing, ofOperation, ofNode])
      fun _ => by simp [also, nothing, ofOperation, ofNode]

theorem inspectDispatch_ends {envelopeJson : WorkerResultEnvelope → String}
    {owner : String} {token : Nat} (hopen : run.openCommand c.toCommandKey = true)
    (h : run.inspectDispatch envelopeJson now db c owner token expectedGen = .ok (effect, run'))
    (hend : effect.nextState ≠ none) : EndsBy (run.AttemptExit now db c) run run' := by
  have hcapped : ∀ {S : SettledWork}, S = nothing → run.Covered S → Closes S run run' := by
    rintro _ rfl hcovered
    exact (hcovered.command _ hopen).elim
  have hunobserved : run.inconclusiveEffect now c expectedGen (fun mid =>
      mid.setNodeOutcome run.currentRevision c.nodeId .failed
        (some (.text "observation_unknown")) none) true = .ok (effect, run') → AtCap c :=
    fun hout => (inconclusiveEffect_ends hout hend).1
  unfold inspectDispatch at h
  dsimp only at h
  split at h
  · obtain ⟨_, -, hout⟩ := map_eq_ok.1 h
    cases hout
    exact absurd rfl hend
  rename_i node hnode
  split at h
  · cases h
    exact absurd rfl hend
  rename_i latest hlatest
  split at h
  · rename_i hcompleted
    split at h
    · cases h
    · cases h
    rename_i cardId hcurrent
    split at h
    · cases h
    rename_i stored hstored
    obtain ⟨mid, hmid, hout⟩ := map_eq_ok.1 h
    cases hout
    obtain ⟨S₀, hexit, hcloses⟩ := storedAcceptanceEffect_ends hstored hend
    refine ⟨_, ⟨node, latest, hnode, hlatest, ?_⟩,
      fun _ => hcloses.trans (closes_completeCommand hmid)⟩
    rw [if_pos hcompleted]
    exact ⟨cardId, S₀, hexit, hcurrent, rfl⟩
  · rename_i hcompleted
    split at h
    · rename_i hterminal
      split at h
      · rename_i hclaimed
        refine ⟨nothing, ⟨node, latest, hnode, hlatest, ?_⟩, hcapped rfl⟩
        rw [if_neg hcompleted, if_pos hterminal, hclaimed]
        exact ⟨hunobserved h, rfl⟩
      rename_i claimedAt hclaimed
      split at h
      · cases h
        exact absurd rfl hend
      rename_i hfresh
      split at h
      · cases h
      rename_i settled hsettled
      obtain ⟨mid, hmid, hout⟩ := map_eq_ok.1 h
      cases hout
      have hended := Ended.of_evaluate ((closes_setNodeOutcome rfl hsettled).trans
        (closes_completeCommand hmid)) hend
      refine ⟨_, ⟨node, latest, hnode, hlatest, ?_⟩, fun _ => hended.closes⟩
      rw [if_neg hcompleted, if_pos hterminal, hclaimed]
      exact ⟨by simpa using hfresh, rfl, hended.decided⟩
    · rename_i hterminal
      split at h
      · cases h
        exact absurd rfl hend
      rename_i hlost
      obtain ⟨hpending, hstale⟩ := not_or.1 hlost
      refine ⟨nothing, ⟨node, latest, hnode, hlatest, ?_⟩, hcapped rfl⟩
      rw [if_neg hcompleted, if_neg hterminal]
      exact ⟨hpending, Bool.eq_false_iff.2 hstale, hunobserved h, rfl⟩

theorem claimExpiredEffect_ends {envelopeJson : WorkerResultEnvelope → String} {key : CommandKey}
    (h : run.claimExpiredEffect envelopeJson now db key expectedGen = .ok (effect, run'))
    (hend : effect.nextState ≠ none) :
    EndsBy (run.InspectionExit now db key expectedGen) run run' := by
  rcases claimExpiredEffect_cases h with ⟨rfl, -⟩ |
    ⟨c, owner, token, hc, rfl, hclaimed, hgen, ⟨rfl, -, -⟩ | ⟨hnode, h⟩⟩
  · exact absurd rfl hend
  · exact absurd rfl hend
  · have hopen : run.openCommand c.toCommandKey = true := by
      rw [openCommand, hc, Option.any_some, hclaimed]
      rfl
    have hexit : ∀ S, (match c.action with
        | .deliver => False
        | .review | .plan => run.JobExit c S
        | .dispatch | .notify => run.AttemptExit now db c S) →
        run.InspectionExit now db c.toCommandKey expectedGen S :=
      fun S hS => ⟨c, hc, hclaimed, hgen, hnode, hS⟩
    have hjob : run.inspectModelJob now c expectedGen = .ok (effect, run') →
        run.JobExit c nothing := fun hout => inspectModelJob_ends hout hend
    split at h
    · -- a deliver claim is given back, completed, or its delivery left unknown
      unfold inspectDeliver at h
      split at h
      · obtain ⟨_, -, hout⟩ := map_eq_ok.1 h
        cases hout
        exact absurd rfl hend
      split at h
      · cases h
        exact absurd rfl hend
      obtain ⟨_, -, h⟩ := ok_of_match h
      obtain ⟨_, -, hout⟩ := map_eq_ok.1 h
      cases hout
      exact absurd rfl hend
    all_goals rename_i haction
    · exact ⟨nothing, hexit _ (by rw [haction]; exact hjob h),
        fun hcovered => (hcovered.command _ hopen).elim⟩
    · exact ⟨nothing, hexit _ (by rw [haction]; exact hjob h),
        fun hcovered => (hcovered.command _ hopen).elim⟩
    · obtain ⟨S, hattempt, hcloses⟩ := inspectDispatch_ends hopen h hend
      exact ⟨S, hexit S (by rw [haction]; exact hattempt), hcloses⟩
    · obtain ⟨S, hattempt, hcloses⟩ := inspectDispatch_ends hopen h hend
      exact ⟨S, hexit S (by rw [haction]; exact hattempt), hcloses⟩

end Inspections

end WorkflowRun

end Abtars
