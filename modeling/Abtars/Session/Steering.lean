import Abtars.Lib.Run
import Abtars.Session.Moves

/-!
# Steering instructions end once

A run is any sequence of the operations, on handles of any age, interleaved with
changes of the session.  Every operation is a sequence of moves
(`steerStep_moves`), so every run keeps the docket of the accepted instructions
balanced, and `instructions_end_once` reads the promise off it.
-/

namespace Abtars

open Lib

/-! ## Runs -/

inductive SteerOp
  | queueInstruction (now : Millis) (text : String) (source : InstructionSource)
      (kind : Option ExecutionInstructionKind)
  | leaseInstructions (now : Millis) (kind : Option ExecutionInstructionKind)
  | markDelivered (handle : Nat)
  | markConsumed (handle : Nat) (now : Millis)
  | restoreBeforeDelivery (handle : Nat)
  | failAfterDelivery (handle : Nat) (reason : String) (now : Millis)
  | drainInstructionBatch (now : Millis)
  | expireInstructions (reason : String) (now : Millis)
  | failInstructions (ids : List String) (reason : String) (now : Millis)
  | setActiveExecution (executionId : Option String)
  | setSession (peer : Option String) (status : SessionStatus) (steeringAccepting : Bool)
  -- the sequence counters are shared by all sessions of the process
  | otherSessions (instructions leases : Nat)

def SteerState.onLease (s : SteerState) (handle : Nat)
    (call : InstructionLease → SteerState → SteerState) : SteerState :=
  match s.leases[handle]? with
  | none => s
  | some lease => call lease s

def steerStep (s : SteerState) : SteerOp → SteerState
  | .queueInstruction now text source kind => (queueInstruction now text source kind s).2
  | .leaseInstructions now kind => (leaseInstructions now kind s).2
  | .markDelivered handle => s.onLease handle markDelivered
  | .markConsumed handle now => s.onLease handle fun lease => markConsumed lease now
  | .restoreBeforeDelivery handle => s.onLease handle restoreBeforeDelivery
  | .failAfterDelivery handle reason now =>
    s.onLease handle fun lease => failAfterDelivery lease reason now
  | .drainInstructionBatch now => (drainInstructionBatch now s).2
  | .expireInstructions reason now => expireInstructions reason now s
  | .failInstructions ids reason now => failInstructions ids reason now s
  | .setActiveExecution executionId =>
    { s with session := { s.session with activeExecutionId := executionId } }
  | .setSession peer status steeringAccepting =>
    { s with session := { s.session with peer, status, steeringAccepting } }
  | .otherSessions instructions leases =>
    { s with
      instructionSeq := s.instructionSeq + instructions
      leaseSeq := s.leaseSeq + leases }

def openSession (session : ManagedSession) (instructionSeq leaseSeq : Nat) : SteerState where
  session := { session with instructionQueue := [] }
  instructions := ∅
  instructionSeq := instructionSeq
  leaseSeq := leaseSeq
  leases := []
  published := []

def steerRun (session : ManagedSession) (instructionSeq leaseSeq : Nat) (ops : List SteerOp) :
    SteerState :=
  runFrom steerStep (openSession session instructionSeq leaseSeq) ops

def Restores (id : String) (s : SteerState) (op : SteerOp) : Prop :=
  ∃ handle lease, op = .restoreBeforeDelivery handle ∧ s.leases[handle]? = some lease ∧
    id ∈ lease.instructions ∧ (s.instructions.get id).any (·.state = .leased) = true

section Operations

variable {p : QueuedSessionInstruction → Bool} {restorable : String → Prop} {s : SteerState}

theorem SteerMoves.single {s' : SteerState} (h : SteerMove restorable s s') :
    SteerMoves restorable s s' :=
  Relation.ReflTransGen.single h

theorem map_id_filterMap_get {ids : List String} (h : ids ⊆ s.accepted) :
    (ids.filterMap s.instructions.get).map (·.id) = ids := by
  induction ids with
  | nil => rfl
  | cons id ids ih =>
    obtain ⟨hid, hids⟩ := List.cons_subset.1 h
    obtain ⟨record, hrecord, rfl⟩ := List.mem_map.1 hid
    have hget : s.instructions.get record.id = some record := Table.get_key_of_mem hrecord
    rw [List.filterMap_cons, hget, List.map_cons, ih hids]

theorem subjects_publishMultiGroup {ids : List String} (h : ids ⊆ s.accepted)
    {type : SteerEventType} (htype : type = .expired ∨ type = .failed)
    (sessionId reason : String) (now : Millis) :
    (terminalSubjects (publishMultiGroup (ids.filterMap s.instructions.get) type sessionId reason
      now)).Perm ids := by
  have hevents : ∀ records : List QueuedSessionInstruction,
      terminalSubjects (publishMultiGroup records type sessionId reason now) =
        ((records.map (·.executionId)).eraseDups.flatMap fun executionId =>
          records.filter (·.executionId = executionId)).map (·.id) := by
    intro records
    have hterminal : ∀ event ∈ publishMultiGroup records type sessionId reason now,
        event.isTerminal = true := by
      intro event hevent
      obtain ⟨executionId, -, rfl⟩ := List.mem_map.1 hevent
      rcases htype with rfl | rfl <;> rfl
    rw [terminalSubjects, List.filter_eq_self.2 hterminal, publishMultiGroup, List.flatMap_map,
      List.map_flatMap]
    rfl
  rw [hevents]
  have hgroups := (groups_perm (·.executionId) (ids.filterMap s.instructions.get)).map (·.id)
  rwa [map_id_filterMap_get h] at hgroups

theorem queueWhere_subset (p : QueuedSessionInstruction → Bool) :
    s.queueWhere p ⊆ s.session.instructionQueue :=
  List.filter_subset_self _

theorem Coherent.nodup_queueWhere (h : Coherent s) (p : QueuedSessionInstruction → Bool) :
    (s.queueWhere p).Nodup :=
  h.docket.pending_nodup.filter _

theorem Coherent.queue_subset (h : Coherent s) : s.session.instructionQueue ⊆ s.accepted :=
  fun _ hid => h.docket.mem_opened hid

theorem Coherent.queueWhere_accepted (h : Coherent s) (p : QueuedSessionInstruction → Bool) :
    s.queueWhere p ⊆ s.accepted :=
  List.Subset.trans (queueWhere_subset p) h.queue_subset

theorem any_of_mem_queueWhere {id : String}
    (h : id ∈ s.queueWhere p) : (s.instructions.get id).any p = true :=
  (List.mem_filter.1 h).2

theorem any_mono {q : QueuedSessionInstruction → Bool}
    (hpq : ∀ record, p record = true → q record = true) {record : Option QueuedSessionInstruction}
    (h : record.any p = true) : record.any q = true := by
  cases record with
  | none => exact h
  | some record => exact hpq record h

variable (restorable) in
theorem expireStaleInstructions_moves (h : Coherent s) (now : Millis) :
    SteerMoves restorable s (expireStaleInstructions now s) := by
  unfold expireStaleInstructions
  dsimp only
  split
  · exact .refl
  · exact .single (.close s _ .expired _ (fun _ => rfl) (queueWhere_subset _)
      (h.nodup_queueWhere _)
      (subjects_publishMultiGroup (h.queueWhere_accepted _) (.inl rfl) _ _ _))

theorem queueInstruction_moves (now : Millis) (text : String) (source : InstructionSource)
    (kind : Option ExecutionInstructionKind) :
    SteerMoves restorable s (queueInstruction now text source kind s).2 := by
  unfold queueInstruction
  split
  · exact .refl
  split
  · exact .refl
  split
  · exact .refl
  split
  · exact .refl
  split
  · exact .refl
  split
  · exact .refl
  split
  · exact .refl
  · rename_i hbytes hlength
    exact .single (.accept s _ now rfl rfl (Nat.not_lt.1 hbytes) (Nat.not_le.1 hlength))

def SteerState.handOut (s : SteerState) (handle : InstructionLease) : SteerState :=
  { s with
    instructions := setStates handle.instructions .leased s.instructions
    leaseSeq := s.leaseSeq + 1
    leases := s.leases ++ [handle] }

theorem leaseInstructions_cases (now : Millis) (kind : Option ExecutionInstructionKind)
    (s : SteerState) :
    leaseInstructions now kind s = (none, s) ∨
    leaseInstructions now kind s = (none, expireStaleInstructions now s) ∨
    ∃ handle p, handle.instructions = (expireStaleInstructions now s).queueWhere p ∧
      (∀ record, p record = true → record.state = .queued) ∧
      leaseInstructions now kind s =
        (some handle, (expireStaleInstructions now s).handOut handle) := by
  unfold leaseInstructions
  split
  · exact .inl rfl
  dsimp only
  split
  · exact .inr (.inl rfl)
  split
  · exact .inr (.inl rfl)
  · refine .inr (.inr ⟨_, _, rfl, fun record hrecord => ?_, rfl⟩)
    rw [decide_eq_true_eq] at hrecord
    exact hrecord.2.1

theorem handOut_moves {handle : InstructionLease} (hids : handle.instructions = s.queueWhere p)
    (hp : ∀ record, p record = true → record.state = .queued) :
    SteerMoves restorable s (s.handOut handle) := by
  refine .single (.lease s handle _ fun id hid => ?_)
  refine any_mono (fun record hrecord => ?_) (any_of_mem_queueWhere (hids ▸ hid))
  rw [decide_eq_true_eq]
  exact hp record hrecord

theorem leaseInstructions_moves (h : Coherent s) (now : Millis)
    (kind : Option ExecutionInstructionKind) :
    SteerMoves restorable s (leaseInstructions now kind s).2 := by
  have hstale := expireStaleInstructions_moves restorable h now
  rcases leaseInstructions_cases now kind s with heq | heq | ⟨handle, p, hids, hp, heq⟩
  · rw [heq]
    exact .refl
  · rw [heq]
    exact hstale
  · rw [heq]
    exact hstale.trans (handOut_moves hids hp)

theorem moved_of_state (from_ state : ExecutionInstructionState) (hne : state ≠ from_)
    (ids : List String) (records : Table QueuedSessionInstruction) :
    (moveStates (·.state = from_) state ids records).2 =
        setStates (moveStates (·.state = from_) state ids records).1 state records ∧
      (moveStates (·.state = from_) state ids records).1.Nodup ∧
      ∀ id ∈ (moveStates (·.state = from_) state ids records).1,
        id ∈ ids ∧ (records.get id).any (·.state = from_) = true :=
  moveStates_eq _ _ (fun record => by simp [QueuedSessionInstruction.withState, hne]) ids records

theorem markDelivered_moves (lease : InstructionLease) :
    SteerMoves restorable s (markDelivered lease s) := by
  obtain ⟨htable, -, hmoved⟩ :=
    moved_of_state .leased .delivered (by decide) lease.instructions s.instructions
  rw [markDelivered, htable]
  exact .single (.deliver s _ fun id hid => (hmoved id hid).2)

theorem restoreBeforeDelivery_moves (lease : InstructionLease)
    (hrestorable : ∀ id ∈ lease.instructions,
      (s.instructions.get id).any (·.state = .leased) = true → restorable id) :
    SteerMoves restorable s (restoreBeforeDelivery lease s) := by
  obtain ⟨htable, -, hmoved⟩ :=
    moved_of_state .leased .queued (by decide) lease.instructions s.instructions
  rw [restoreBeforeDelivery, htable]
  exact .single (.restore s _ (fun id hid => (hmoved id hid).2)
    fun id hid => hrestorable id (hmoved id hid).1 (hmoved id hid).2)

theorem endDelivered_moves (h : Coherent s) {state : ExecutionInstructionState}
    {type : SteerEventType}
    (hended : (state = .consumed ∧ type = .consumed) ∨ (state = .failed ∧ type = .failed))
    (description : List String → String) (lease : InstructionLease) (now : Millis) :
    SteerMoves restorable s (endDelivered state type description lease now s) := by
  have hne : state ≠ .delivered := by
    rcases hended with ⟨rfl, -⟩ | ⟨rfl, -⟩ <;> decide
  obtain ⟨htable, hnodup, hmoved⟩ := moved_of_state _ _ hne lease.instructions s.instructions
  unfold endDelivered
  dsimp only
  rw [htable]
  split
  · rename_i hnone
    rw [hnone, setStates_nil]
    exact .refl
  refine .single (.close s _ state _ (fun record => ?_) (fun id hid => ?_) hnodup
    (List.Perm.of_eq ?_))
  · rcases hended with ⟨rfl, -⟩ | ⟨rfl, -⟩ <;> rfl
  · refine h.mem_queue (fun record hrecord => ?_) (hmoved id hid).2
    simp [QueuedSessionInstruction.isLive, hrecord]
  · rcases hended with ⟨-, rfl⟩ | ⟨-, rfl⟩ <;>
      simp [terminalSubjects, steerEvent, SteerEvent.isTerminal]

theorem expireInstructions_moves (h : Coherent s) (reason : String) (now : Millis) :
    SteerMoves restorable s (expireInstructions reason now s) := by
  unfold expireInstructions
  split
  · exact .refl
  -- what is queued is live, so all of it expires
  have hall : s.queueWhere (·.isOpen) = s.session.instructionQueue := by
    refine List.filter_eq_self.2 fun id hid => ?_
    obtain ⟨record, hrecord, rfl⟩ := List.mem_map.1 (h.queue_subset hid)
    have hget : s.instructions.get record.id = some record := Table.get_key_of_mem hrecord
    rw [hget, Option.any_some]
    have hlive := (h.live record hrecord).2 hid
    revert hlive
    cases hstate : record.state <;>
      simp [QueuedSessionInstruction.isLive, QueuedSessionInstruction.isOpen, hstate]
  have hclose : SteerMove restorable s _ := .close s (s.queueWhere (·.isOpen)) .expired
    (publishMultiGroup ((s.queueWhere (·.isOpen)).filterMap s.instructions.get) .expired
      s.session.id reason now) (fun _ => rfl) (queueWhere_subset _) (h.nodup_queueWhere _)
    (subjects_publishMultiGroup (h.queueWhere_accepted _) (.inl rfl) _ _ _)
  have hempty : s.session.instructionQueue.filter
      (fun id => id ∉ s.queueWhere (·.isOpen)) = [] := by
    rw [hall, List.filter_eq_nil_iff]
    intro id hid
    simpa using hid
  refine .single ?_
  rw [SteerState.publish, SteerState.dequeue] at hclose
  simp only [hempty] at hclose
  exact hclose

theorem failInstructions_moves (h : Coherent s) (ids : List String) (reason : String)
    (now : Millis) : SteerMoves restorable s (failInstructions ids reason now s) := by
  obtain ⟨htable, hnodup, hmoved⟩ := moveStates_eq
    (fun record => record.id ∈ s.session.instructionQueue ∧ record.isOpen) .failed
    (fun record => by simp [QueuedSessionInstruction.isOpen, QueuedSessionInstruction.withState])
    ids s.instructions
  unfold failInstructions
  dsimp only
  rw [htable]
  split
  · rename_i hnone
    rw [hnone, setStates_nil]
    exact .refl
  have hsub : (moveStates (fun record => record.id ∈ s.session.instructionQueue ∧ record.isOpen)
      .failed ids s.instructions).1 ⊆ s.session.instructionQueue := by
    intro id hid
    obtain ⟨record, -, rfl, hrecord⟩ := any_get_iff.1 (hmoved id hid).2
    rw [decide_eq_true_eq] at hrecord
    exact hrecord.1
  exact .single (.close s _ .failed _ (fun _ => rfl) hsub hnodup
    (subjects_publishMultiGroup (List.Subset.trans hsub h.queue_subset) (.inr rfl) _ _ _))

theorem drainInstructionBatch_moves (h : Coherent s) (now : Millis) :
    SteerMoves restorable s (drainInstructionBatch now s).2 := by
  have hstale := expireStaleInstructions_moves restorable h now
  rcases leaseInstructions_cases now none s with heq | heq | ⟨handle, p, hids, hp, heq⟩
  · rw [drainInstructionBatch, heq]
    exact .refl
  · rw [drainInstructionBatch, heq]
    exact hstale
  have hcoherent := hstale.coherent h
  have hbefore : SteerMoves restorable s
      (markDelivered handle ((expireStaleInstructions now s).handOut handle)) :=
    (hstale.trans (handOut_moves hids hp)).trans (markDelivered_moves handle)
  rw [drainInstructionBatch, heq]
  refine hbefore.tail (.close _ handle.instructions .consumed _ (fun _ => rfl) ?_ ?_ ?_)
  · rw [hids]
    exact queueWhere_subset p
  · rw [hids]
    exact hcoherent.nodup_queueWhere p
  · exact List.Perm.of_eq (by simp [terminalSubjects, steerEvent, SteerEvent.isTerminal])

/-- **Every operation is a sequence of moves that puts back only what it restores.** -/
theorem steerStep_moves (h : Coherent s) (op : SteerOp) :
    SteerMoves (fun id => Restores id s op) s (steerStep s op) := by
  have honLease : ∀ {P : String → Prop} (handle : Nat)
      (call : InstructionLease → SteerState → SteerState),
      (∀ lease, s.leases[handle]? = some lease → SteerMoves P s (call lease s)) →
      SteerMoves P s (s.onLease handle call) := by
    intro P handle call hcall
    unfold SteerState.onLease
    split
    · exact .refl
    · rename_i lease hlease
      exact hcall lease hlease
  cases op with
  | queueInstruction now text source kind => exact queueInstruction_moves now text source kind
  | leaseInstructions now kind => exact leaseInstructions_moves h now kind
  | markDelivered handle => exact honLease _ _ fun lease _ => markDelivered_moves lease
  | markConsumed handle now =>
    exact honLease _ _ fun lease _ =>
      endDelivered_moves h (.inl ⟨rfl, rfl⟩) batchText lease now
  | restoreBeforeDelivery handle =>
    refine honLease _ _ fun lease hlease => restoreBeforeDelivery_moves lease ?_
    intro id hid hleased
    exact ⟨handle, lease, rfl, hlease, hid, hleased⟩
  | failAfterDelivery handle reason now =>
    exact honLease _ _ fun lease _ =>
      endDelivered_moves h (.inr ⟨rfl, rfl⟩) (fun _ => reason) lease now
  | drainInstructionBatch now => exact drainInstructionBatch_moves h now
  | expireInstructions reason now => exact expireInstructions_moves h reason now
  | failInstructions ids reason now => exact failInstructions_moves h ids reason now
  | setActiveExecution executionId =>
    exact .single (.configure s _ _ _ rfl (le_refl _))
  | setSession peer status steeringAccepting =>
    exact .single (.configure s _ _ _ rfl (le_refl _))
  | otherSessions instructions leases =>
    exact .single (.configure s _ _ _ rfl (Nat.le_add_right _ _))

end Operations

/-! ## Runs of operations -/

theorem coherent_openSession (session : ManagedSession) (instructionSeq leaseSeq : Nat) :
    Coherent (openSession session instructionSeq leaseSeq) where
  docket := .nil
  live record h := absurd h (Table.not_mem_empty record)
  few := by simp [openSession]
  small := by simp [openSession, SteerState.queuedBytes]
  counted id h := absurd h List.not_mem_nil
  handles lease h := absurd h List.not_mem_nil

section Runs

variable (session : ManagedSession) (instructionSeq leaseSeq : Nat) (ops : List SteerOp)

theorem coherent_run : Coherent (steerRun session instructionSeq leaseSeq ops) :=
  invariant_of_step (I := Coherent) (fun _ op h => (steerStep_moves h op).coherent h) ops _
    (coherent_openSession session instructionSeq leaseSeq)

theorem handedOnce_run (id : String)
    (hkept : StepsMeet steerStep (fun s op => ¬ Restores id s op)
      (openSession session instructionSeq leaseSeq) ops) :
    HandedOnce id (steerRun session instructionSeq leaseSeq ops) := by
  have hopen := coherent_openSession session instructionSeq leaseSeq
  refine (invariant_of_stepsMeet (I := fun s => Coherent s ∧ HandedOnce id s) ?_ ops _
    ⟨hopen, Nat.zero_le 1, fun _ => rfl⟩ hkept).2
  rintro s op ⟨h, honce⟩ hrestores
  have hmoves := steerStep_moves h op
  exact ⟨hmoves.coherent h, hmoves.handedOnce h hrestores honce⟩

structure EndsOnce (s : SteerState) (instruction : QueuedSessionInstruction) : Prop where
  queued_iff : instruction.id ∈ s.session.instructionQueue ↔
    instruction.state = .queued ∨ instruction.state = .leased ∨ instruction.state = .delivered
  atMostOnce : (terminalSubjects s.published).count instruction.id ≤ 1
  onceLeft : instruction.id ∉ s.session.instructionQueue →
    (terminalSubjects s.published).count instruction.id = 1

/-- **Steering instructions end once.**  After any sequence of operations, on
handles of any age, every accepted instruction is in the queue exactly while it is
queued, leased or delivered, and is the subject of one terminal event once it has
left and of none before; the queue is within its limits; and an instruction that
was never put back is named by at most one handle. -/
theorem instructions_end_once :
    (∀ instruction ∈ (steerRun session instructionSeq leaseSeq ops).instructions,
        EndsOnce (steerRun session instructionSeq leaseSeq ops) instruction) ∧
      (∀ id ∈ (steerRun session instructionSeq leaseSeq ops).session.instructionQueue,
        ∃ instruction ∈ (steerRun session instructionSeq leaseSeq ops).instructions,
          instruction.id = id) ∧
      (steerRun session instructionSeq leaseSeq ops).session.instructionQueue.length ≤ 20 ∧
      (steerRun session instructionSeq leaseSeq ops).queuedBytes ≤ 32 * 1024 ∧
      ∀ id, StepsMeet steerStep (fun s op => ¬ Restores id s op)
          (openSession session instructionSeq leaseSeq) ops →
        (steerRun session instructionSeq leaseSeq ops).handouts id ≤ 1 := by
  have h := coherent_run session instructionSeq leaseSeq ops
  refine ⟨?_, ?_, h.few, h.small, ?_⟩
  · intro instruction hmem
    have hcount := h.docket.count_closed (List.mem_map_of_mem (f := (·.id)) hmem)
    refine ⟨?_, h.docket.count_closed_le_one _, ?_⟩
    · rw [← h.live instruction hmem]
      simp [QueuedSessionInstruction.isLive]
    · intro hleft
      rw [hcount, if_neg hleft]
  · intro id hid
    obtain ⟨instruction, hmem, rfl⟩ := List.mem_map.1 (h.queue_subset hid)
    exact ⟨instruction, hmem, rfl⟩
  · intro id hkept
    exact (handedOnce_run session instructionSeq leaseSeq ops id hkept).1

end Runs

def steeredSession : ManagedSession := ⟨"s", none, .ready, some "e", true, []⟩

/-- An instruction leased and delivered, and consumed through a handle that was
already used. -/
def steeredOps : List SteerOp :=
  [.queueInstruction 1 "stop" .tui none, .leaseInstructions 2 none, .markDelivered 0,
    .markConsumed 0 3, .failAfterDelivery 0 "late" 4]

theorem consumed_once :
    (steerRun steeredSession 0 0 steeredOps).handouts (instructionId 1 1) ≤ 1 := by
  refine (instructions_end_once steeredSession 0 0 steeredOps).2.2.2.2 _ ?_
  simp [steeredOps, StepsMeet, Restores]

end Abtars
