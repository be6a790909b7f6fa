import Abtars.Lib.Docket
import Abtars.Session.Instruction
import Mathlib.Logic.Relation

/-!
# Moves of the steering queue

The ten operations are made of six moves on the queue and its records: the
session changes, an instruction is accepted, a handle is handed out, leased
records are delivered or restored, and records are closed (`SteerMove`).  Each
move keeps `Coherent`: the accepted ids are those ended and those queued, each
once, and a record is live exactly while it is queued.  A move other than a
restoration lets no instruction be handed out twice (`SteerMove.handedOnce`).
-/

namespace Abtars

open Lib

/-! ## Live records and terminal events -/

def QueuedSessionInstruction.isLive (record : QueuedSessionInstruction) : Bool :=
  record.state = .queued ∨ record.state = .leased ∨ record.state = .delivered

def SteerEvent.isTerminal (event : SteerEvent) : Bool :=
  event.type = .consumed ∨ event.type = .failed ∨ event.type = .expired

def terminalSubjects (events : List SteerEvent) : List String :=
  (events.filter (·.isTerminal)).flatMap (·.instructionIds)

def SteerState.accepted (s : SteerState) : List String := s.instructions.rows.map (·.id)

def SteerState.handouts (s : SteerState) (id : String) : Nat :=
  s.leases.countP fun lease => id ∈ lease.instructions

section Records

variable {ids : List String} {state : ExecutionInstructionState}
  {records : Table QueuedSessionInstruction}

theorem mem_setStates {record : QueuedSessionInstruction} :
    record ∈ setStates ids state records ↔
      ∃ earlier ∈ records,
        record = if earlier.id ∈ ids then earlier.withState state else earlier := by
  rw [setStates, Table.mem_updateWhere]
  simp only [decide_eq_true_eq]
  exact exists_congr fun earlier => and_congr_right fun _ => eq_comm

theorem get_setStates (id : String) :
    (setStates ids state records).get id = (records.get id).map fun record =>
      if record.id ∈ ids then record.withState state else record := by
  rw [setStates, Table.get_updateWhere]
  simp only [decide_eq_true_eq]

theorem accepted_setStates :
    (setStates ids state records).rows.map (·.id) = records.rows.map (·.id) :=
  Table.map_key_rewrite records.rows _ _ (key_withState state)

theorem setStates_setStates (more : List String) :
    setStates more state (setStates ids state records) = setStates (ids ++ more) state records := by
  refine Table.ext ?_
  simp only [setStates, Table.updateWhere, List.map_map]
  refine List.map_congr_left fun record _ => ?_
  by_cases hids : record.id ∈ ids <;> by_cases hmore : record.id ∈ more <;>
    simp [hids, hmore, QueuedSessionInstruction.withState]

theorem setStates_nil : setStates [] state records = records := by
  refine Table.ext ?_
  simp [setStates, Table.updateWhere]

/-- The loop of the calls on a handle writes the state of what moved, once each. -/
theorem moveStates_eq (may : QueuedSessionInstruction → Bool) (state : ExecutionInstructionState)
    (hdone : ∀ record : QueuedSessionInstruction, may (record.withState state) = false)
    (ids : List String) :
    ∀ records : Table QueuedSessionInstruction,
      (moveStates may state ids records).2 =
          setStates (moveStates may state ids records).1 state records ∧
        (moveStates may state ids records).1.Nodup ∧
        ∀ id ∈ (moveStates may state ids records).1,
          id ∈ ids ∧ (records.get id).any may = true := by
  induction ids with
  | nil =>
    intro records
    simp [moveStates, setStates_nil]
  | cons id ids ih =>
    intro records
    by_cases hmay : (records.get id).any may = true
    · obtain ⟨htable, hnodup, hmoved⟩ := ih (setStates [id] state records)
      -- what moves later was not moved now: it may not move again
      have hlater : ∀ id' ∈ (moveStates may state ids (setStates [id] state records)).1,
          id' ≠ id ∧ (records.get id').any may = true := by
        intro id' hid'
        have hnow := (hmoved id' hid').2
        rw [get_setStates] at hnow
        cases hget : records.get id' with
        | none => simp [hget] at hnow
        | some record =>
          have hkey : record.id = id' := Table.key_of_get hget
          rw [hget, Option.map_some, Option.any_some, hkey] at hnow
          by_cases heq : id' = id
          · simp [heq, hdone] at hnow
          · refine ⟨heq, ?_⟩
            simpa [heq] using hnow
      simp only [moveStates, hmay, if_true]
      refine ⟨?_, ?_, ?_⟩
      · rw [htable, setStates_setStates]
        rfl
      · exact List.nodup_cons.2 ⟨fun hmem => (hlater id hmem).1 rfl, hnodup⟩
      intro id' hid'
      rcases List.mem_cons.1 hid' with rfl | hmem
      · exact ⟨List.mem_cons_self, hmay⟩
      · exact ⟨List.mem_cons_of_mem _ (hmoved id' hmem).1, (hlater id' hmem).2⟩
    · obtain ⟨htable, hnodup, hmoved⟩ := ih records
      simp only [moveStates, hmay]
      refine ⟨htable, hnodup, fun id' hid' => ?_⟩
      exact ⟨List.mem_cons_of_mem _ (hmoved id' hid').1, (hmoved id' hid').2⟩

end Records

/-! ## Moves -/

inductive SteerMove (restorable : String → Prop) : SteerState → SteerState → Prop
  | configure (s : SteerState) (session : ManagedSession) (instructionSeq leaseSeq : Nat)
      (hqueue : session.instructionQueue = s.session.instructionQueue)
      (hseq : s.instructionSeq ≤ instructionSeq) :
      SteerMove restorable s { s with session, instructionSeq, leaseSeq }
  | accept (s : SteerState) (instruction : QueuedSessionInstruction) (now : Millis)
      (hid : instruction.id = instructionId now (s.instructionSeq + 1))
      (hstate : instruction.state = .queued)
      (hbytes : s.queuedBytes + instruction.text.utf8ByteSize ≤ maxTotalBytes)
      (hlength : s.session.instructionQueue.length < maxQueueSize) :
      SteerMove restorable s (s.push instruction now)
  | lease (s : SteerState) (handle : InstructionLease) (leaseSeq : Nat)
      (hqueued : ∀ id ∈ handle.instructions,
        (s.instructions.get id).any (·.state = .queued) = true) :
      SteerMove restorable s
        { s with
          instructions := setStates handle.instructions .leased s.instructions
          leaseSeq := leaseSeq
          leases := s.leases ++ [handle] }
  | deliver (s : SteerState) (ids : List String)
      (hleased : ∀ id ∈ ids, (s.instructions.get id).any (·.state = .leased) = true) :
      SteerMove restorable s
        { s with instructions := setStates ids .delivered s.instructions }
  | restore (s : SteerState) (ids : List String)
      (hleased : ∀ id ∈ ids, (s.instructions.get id).any (·.state = .leased) = true)
      (hrestorable : ∀ id ∈ ids, restorable id) :
      SteerMove restorable s
        { s with instructions := setStates ids .queued s.instructions }
  | close (s : SteerState) (ids : List String) (state : ExecutionInstructionState)
      (events : List SteerEvent)
      (hstate : ∀ record : QueuedSessionInstruction, (record.withState state).isLive = false)
      (hsub : ids ⊆ s.session.instructionQueue) (hnodup : ids.Nodup)
      (hsubjects : (terminalSubjects events).Perm ids) :
      SteerMove restorable s
        (({ s with instructions := setStates ids state s.instructions }.dequeue ids).publish
          events)

def SteerMoves (restorable : String → Prop) : SteerState → SteerState → Prop :=
  Relation.ReflTransGen (SteerMove restorable)

/-! ## Coherence -/

/-- The accepted ids are those ended and those queued, each once; a record is live
exactly while it is queued; the queue is within its limits; ids are older than the
counter; handles name accepted instructions. -/
structure Coherent (s : SteerState) : Prop where
  docket : Balanced s.accepted s.session.instructionQueue (terminalSubjects s.published)
  live : ∀ record ∈ s.instructions,
    record.isLive = true ↔ record.id ∈ s.session.instructionQueue
  few : s.session.instructionQueue.length ≤ maxQueueSize
  small : s.queuedBytes ≤ maxTotalBytes
  counted : ∀ id ∈ s.accepted, ∃ now seq, id = instructionId now seq ∧ seq ≤ s.instructionSeq
  handles : ∀ lease ∈ s.leases, lease.instructions ⊆ s.accepted

theorem terminalSubjects_append (events more : List SteerEvent) :
    terminalSubjects (events ++ more) = terminalSubjects events ++ terminalSubjects more := by
  simp [terminalSubjects]

theorem underscore_not_mem_millis (now : Millis) : '_' ∉ (toString now).toList := by
  cases now with
  | ofNat n =>
    show '_' ∉ (toString n).toList
    rw [Nat.toString_eq_repr, Nat.toList_repr]
    exact Nat.underscore_not_in_toDigits
  | negSucc n =>
    show '_' ∉ ("-" ++ toString (n + 1)).toList
    rw [String.toList_append, Nat.toString_eq_repr, Nat.toList_repr, List.mem_append, not_or]
    exact ⟨by decide, Nat.underscore_not_in_toDigits⟩

theorem instructionId_inj {now now' : Millis} {seq seq' : Nat}
    (h : instructionId now seq = instructionId now' seq') : seq = seq' := by
  have hlist := congrArg String.toList h
  simp only [instructionId, String.toList_append, Nat.toString_eq_repr, Nat.toList_repr,
    List.append_assoc] at hlist
  have htail : (toString now).toList ++ '_' :: Nat.toDigits 10 seq =
      (toString now').toList ++ '_' :: Nat.toDigits 10 seq' :=
    List.append_cancel_left hlist
  -- neither a clock reading nor digits hold an underscore
  obtain ⟨-, -, hseq⟩ := (List.append_cons_inj_of_notMem (underscore_not_mem_millis now)
    Nat.underscore_not_in_toDigits).1 htail
  have hnumber := congrArg (fun digits => Nat.ofDigitChars 10 digits 0) hseq
  simpa using hnumber

section Move

variable {records : Table QueuedSessionInstruction} {id : String}
  {p : QueuedSessionInstruction → Bool}

variable {restorable : String → Prop} {s s' : SteerState}

theorem any_get_iff :
    (records.get id).any p = true ↔ ∃ record ∈ records, record.id = id ∧ p record = true := by
  rw [Option.any_eq_true]
  constructor
  · rintro ⟨record, hget, hp⟩
    exact ⟨record, Table.mem_of_get hget, Table.key_of_get hget, hp⟩
  · rintro ⟨record, hmem, rfl, hp⟩
    exact ⟨record, Table.get_key_of_mem hmem, hp⟩

theorem Coherent.mem_queue (h : Coherent s) (hp : ∀ record, p record = true → record.isLive = true)
    (hany : (s.instructions.get id).any p = true) : id ∈ s.session.instructionQueue := by
  obtain ⟨record, hmem, rfl, hrecord⟩ := any_get_iff.1 hany
  exact (h.live record hmem).1 (hp record hrecord)

theorem mem_accepted_of_any (hany : (s.instructions.get id).any p = true) : id ∈ s.accepted := by
  obtain ⟨record, hmem, rfl, -⟩ := any_get_iff.1 hany
  exact List.mem_map_of_mem hmem

theorem queuedBytes_congr {records' : Table QueuedSessionInstruction} {queue : List String}
    (h : ∀ id ∈ queue, (records'.get id).map (·.text) = (records.get id).map (·.text)) :
    queue.foldl (fun sum id => sum + (records'.get id).elim 0 (·.text.utf8ByteSize)) 0 =
      queue.foldl (fun sum id => sum + (records.get id).elim 0 (·.text.utf8ByteSize)) 0 := by
  have hweight : ∀ record : Option QueuedSessionInstruction,
      record.elim 0 (·.text.utf8ByteSize) = (record.map (·.text)).elim 0 (·.utf8ByteSize) := by
    intro record
    cases record <;> rfl
  refine List.foldl_ext _ _ 0 fun sum id hid => ?_
  rw [hweight, hweight, h id hid]

theorem foldl_filter_le (weight : String → Nat) (p : String → Bool) (queue : List String) :
    ∀ {n m : Nat}, n ≤ m →
      (queue.filter p).foldl (fun sum id => sum + weight id) n ≤
        queue.foldl (fun sum id => sum + weight id) m := by
  induction queue with
  | nil =>
    intro n m hnm
    exact hnm
  | cons id queue ih =>
    intro n m hnm
    rw [List.filter_cons]
    split
    · exact ih (Nat.add_le_add_right hnm _)
    · exact ih (hnm.trans (Nat.le_add_right _ _))

theorem map_text_setStates (ids : List String) (state : ExecutionInstructionState)
    (records : Table QueuedSessionInstruction) (id : String) :
    ((setStates ids state records).get id).map (·.text) = (records.get id).map (·.text) := by
  exact Table.map_get_updateWhere _ _ _ (key_withState state) id _ fun _ => rfl

theorem Coherent.relabel (h : Coherent s) {ids : List String} {state : ExecutionInstructionState}
    (hstate : ∀ record : QueuedSessionInstruction, (record.withState state).isLive = true)
    (hsub : ids ⊆ s.session.instructionQueue) (leaseSeq : Nat) (leases : List InstructionLease)
    (hhandles : ∀ lease ∈ leases, lease.instructions ⊆ s.accepted) :
    Coherent { s with instructions := setStates ids state s.instructions, leaseSeq, leases } where
  docket := by
    rw [SteerState.accepted, accepted_setStates]
    exact h.docket
  live record hrecord := by
    obtain ⟨earlier, hmem, rfl⟩ := mem_setStates.1 hrecord
    split
    · rename_i hid
      exact ⟨fun _ => hsub hid, fun _ => hstate earlier⟩
    · exact h.live earlier hmem
  few := h.few
  small := by
    refine le_trans (le_of_eq ?_) h.small
    exact queuedBytes_congr fun id _ => map_text_setStates ids state s.instructions id
  counted := by
    rw [SteerState.accepted, accepted_setStates]
    exact h.counted
  handles := by
    rw [SteerState.accepted, accepted_setStates]
    exact hhandles

/-- Closing queued records keeps coherence. -/
theorem Coherent.close (h : Coherent s) {ids : List String} {state : ExecutionInstructionState}
    {events : List SteerEvent}
    (hstate : ∀ record : QueuedSessionInstruction, (record.withState state).isLive = false)
    (hsub : ids ⊆ s.session.instructionQueue) (hnodup : ids.Nodup)
    (hsubjects : (terminalSubjects events).Perm ids) :
    Coherent (({ s with instructions := setStates ids state s.instructions }.dequeue ids).publish
      events) where
  docket := by
    show Balanced ((setStates ids state s.instructions).rows.map (·.id)) _
      (terminalSubjects (s.published ++ events))
    rw [accepted_setStates, terminalSubjects_append]
    exact h.docket.close hsub hnodup hsubjects
  live record hrecord := by
    obtain ⟨earlier, hmem, rfl⟩ := mem_setStates.1 hrecord
    show _ ↔ _ ∈ s.session.instructionQueue.filter fun id => id ∉ ids
    rw [List.mem_filter, decide_eq_true_eq]
    split
    · rename_i hid
      rw [hstate earlier]
      exact ⟨fun hfalse => by simp at hfalse, fun hleft => absurd hid hleft.2⟩
    · rename_i hid
      rw [h.live earlier hmem]
      exact ⟨fun hmemq => ⟨hmemq, hid⟩, fun hleft => hleft.1⟩
  few := (List.length_filter_le _ _).trans h.few
  small := by
    refine le_trans (le_of_eq ?_) ((foldl_filter_le _ (fun id => decide (id ∉ ids))
      s.session.instructionQueue (le_refl 0)).trans h.small)
    exact queuedBytes_congr fun id _ => map_text_setStates ids state s.instructions id
  counted := by
    show ∀ id ∈ (setStates ids state s.instructions).rows.map (·.id), _
    rw [accepted_setStates]
    exact h.counted
  handles := by
    show ∀ lease ∈ s.leases,
      lease.instructions ⊆ (setStates ids state s.instructions).rows.map (·.id)
    rw [accepted_setStates]
    exact h.handles

/-- Accepting an instruction keeps coherence. -/
theorem Coherent.push (h : Coherent s) {instruction : QueuedSessionInstruction} {now : Millis}
    (hid : instruction.id = instructionId now (s.instructionSeq + 1))
    (hstate : instruction.state = .queued)
    (hbytes : s.queuedBytes + instruction.text.utf8ByteSize ≤ maxTotalBytes)
    (hlength : s.session.instructionQueue.length < maxQueueSize) :
    Coherent (s.push instruction now) := by
  -- ids are older than the counter
  have hfresh : instruction.id ∉ s.accepted := by
    intro hmem
    obtain ⟨then_, seq, heq, hle⟩ := h.counted _ hmem
    have hseq := instructionId_inj (hid.symm.trans heq)
    omega
  have hget : s.instructions.get instruction.id = none :=
    Table.get_eq_none_iff.2 fun record hrecord hkey => hfresh (hkey ▸ List.mem_map_of_mem hrecord)
  have hfits : s.instructions.Fits (fun _ => false) instruction := ⟨hget, fun _ _ => rfl⟩
  have hrows : (s.push instruction now).instructions.rows =
      s.instructions.rows ++ [instruction] := Table.rows_insertOrIgnore_of_fits hfits
  have haccepted : (s.push instruction now).accepted = s.accepted ++ [instruction.id] := by
    rw [SteerState.accepted, hrows, List.map_append]
    rfl
  constructor
  · have hsubjects : terminalSubjects (s.push instruction now).published =
        terminalSubjects s.published := by
      show terminalSubjects (s.published ++ _) = _
      simp [terminalSubjects, steerEvent, SteerEvent.isTerminal]
    rw [haccepted, hsubjects]
    exact h.docket.enter hfresh
  · intro record hrecord
    have hmem : record ∈ s.instructions.rows ++ [instruction] := hrows ▸ hrecord
    show _ ↔ record.id ∈ s.session.instructionQueue ++ [instruction.id]
    rw [List.mem_append, List.mem_singleton] at hmem ⊢
    rcases hmem with hold | rfl
    · have hne : record.id ≠ instruction.id := fun heq =>
        hfresh (heq ▸ List.mem_map_of_mem hold)
      rw [h.live record hold]
      exact ⟨.inl, fun hor => hor.resolve_right hne⟩
    · simp [QueuedSessionInstruction.isLive, hstate]
  · show (s.session.instructionQueue ++ [instruction.id]).length ≤ maxQueueSize
    rw [List.length_append, List.length_singleton]
    exact hlength
  · have hnew : (s.push instruction now).instructions.get instruction.id = some instruction :=
      Table.get_insertOrIgnore_of_fits hfits
    have hold : ∀ id ∈ s.session.instructionQueue,
        ((s.push instruction now).instructions.get id).map (·.text) =
          (s.instructions.get id).map (·.text) := by
      intro id hmem
      have hne : id ≠ instruction.id := fun heq => hfresh (heq ▸ h.docket.mem_opened hmem)
      exact congrArg _ (Table.get_insertOrIgnore_of_ne hne)
    show (s.session.instructionQueue ++ [instruction.id]).foldl (fun sum id => sum +
      ((s.push instruction now).instructions.get id).elim 0 (·.text.utf8ByteSize)) 0 ≤ _
    rw [List.foldl_append, queuedBytes_congr hold, List.foldl_cons, List.foldl_nil, hnew]
    exact hbytes
  · rw [haccepted]
    intro id hmem
    rcases List.mem_append.1 hmem with hold | hnew
    · obtain ⟨then_, seq, heq, hle⟩ := h.counted id hold
      exact ⟨then_, seq, heq, Nat.le_succ_of_le hle⟩
    · rw [List.mem_singleton.1 hnew]
      exact ⟨now, _, hid, le_refl _⟩
  · rw [haccepted]
    intro lease hlease
    exact List.subset_append_of_subset_left _ (h.handles lease hlease)

/-- **Every move keeps coherence.** -/
theorem SteerMove.coherent (hmove : SteerMove restorable s s') (h : Coherent s) : Coherent s' := by
  have hlive : ∀ {ids : List String} {state : ExecutionInstructionState},
      state = .queued ∨ state = .leased →
      (∀ id ∈ ids, (s.instructions.get id).any (·.state = state) = true) →
      ids ⊆ s.session.instructionQueue := by
    intro ids state hstate hall id hid
    refine h.mem_queue (fun record hrecord => ?_) (hall id hid)
    rcases hstate with rfl | rfl <;> simp [QueuedSessionInstruction.isLive, hrecord]
  cases hmove with
  | configure session instructionSeq leaseSeq hqueue hseq =>
    constructor
    · rw [hqueue]
      exact h.docket
    · intro record hrecord
      rw [hqueue]
      exact h.live record hrecord
    · rw [hqueue]
      exact h.few
    · show session.instructionQueue.foldl _ 0 ≤ _
      rw [hqueue]
      exact h.small
    · intro id hid
      obtain ⟨now, seq, heq, hle⟩ := h.counted id hid
      exact ⟨now, seq, heq, hle.trans hseq⟩
    · exact h.handles
  | accept instruction now hid hstate hbytes hlength => exact h.push hid hstate hbytes hlength
  | lease handle leaseSeq hqueued =>
    refine h.relabel (fun _ => rfl) (hlive (.inl rfl) hqueued) leaseSeq _ ?_
    intro lease hlease
    rcases List.mem_append.1 hlease with hold | hnew
    · exact h.handles lease hold
    · rw [List.mem_singleton.1 hnew]
      exact fun id hid => mem_accepted_of_any (hqueued id hid)
  | deliver ids hleased =>
    exact h.relabel (fun _ => rfl) (hlive (.inr rfl) hleased) _ _ h.handles
  | restore ids hleased hrestorable =>
    exact h.relabel (fun _ => rfl) (hlive (.inr rfl) hleased) _ _ h.handles
  | close ids state events hstate hsub hnodup hsubjects =>
    exact h.close hstate hsub hnodup hsubjects

theorem SteerMoves.coherent (hmoves : SteerMoves restorable s s') (h : Coherent s) :
    Coherent s' := by
  induction hmoves with
  | refl => exact h
  | tail _ hmove ih => exact hmove.coherent ih

def HandedOnce (id : String) (s : SteerState) : Prop :=
  s.handouts id ≤ 1 ∧
    ((s.instructions.get id).any (·.state = .queued) = true → s.handouts id = 0)

theorem queued_of_setStates {ids : List String} {state : ExecutionInstructionState}
    (h : ((setStates ids state records).get id).any (·.state = .queued) = true) :
    (id ∈ ids ∧ state = .queued) ∨
      (id ∉ ids ∧ (records.get id).any (·.state = .queued) = true) := by
  rw [get_setStates] at h
  cases hget : records.get id with
  | none => simp [hget] at h
  | some record =>
    have hkey : record.id = id := Table.key_of_get hget
    rw [hget, Option.map_some, Option.any_some, hkey, decide_eq_true_eq] at h
    split at h
    · rename_i hid
      exact .inl ⟨hid, h⟩
    · rename_i hid
      exact .inr ⟨hid, by simpa using h⟩

theorem Coherent.handouts_eq_zero (h : Coherent s) (hid : id ∉ s.accepted) : s.handouts id = 0 := by
  rw [SteerState.handouts, List.countP_eq_zero]
  intro lease hlease hmem
  rw [decide_eq_true_eq] at hmem
  exact hid (h.handles lease hlease hmem)

/-- **A move that puts an instruction back is the only one that lets it be handed
out again.** -/
theorem SteerMove.handedOnce (hmove : SteerMove restorable s s') (h : Coherent s)
    (hkept : ¬ restorable id) (honce : HandedOnce id s) : HandedOnce id s' := by
  have hrelabel : ∀ {ids : List String} {state : ExecutionInstructionState},
      (id ∈ ids → state ≠ .queued) →
      ((setStates ids state s.instructions).get id).any (·.state = .queued) = true →
        s.handouts id = 0 := by
    intro ids state hstate hqueued
    rcases queued_of_setStates hqueued with ⟨hid, hq⟩ | ⟨-, hbefore⟩
    · exact absurd hq (hstate hid)
    · exact honce.2 hbefore
  cases hmove with
  | configure session instructionSeq leaseSeq hqueue hseq => exact honce
  | accept instruction now hid hstate hbytes hlength =>
    refine ⟨honce.1, fun hqueued => ?_⟩
    by_cases hold : id ∈ s.accepted
    · by_cases heq : id = instruction.id
      · obtain ⟨then_, seq, hname, hle⟩ := h.counted id hold
        have hseq := instructionId_inj ((heq.trans hid).symm.trans hname)
        omega
      refine honce.2 ?_
      have hget : (s.push instruction now).instructions.get id = s.instructions.get id :=
        Table.get_insertOrIgnore_of_ne heq
      rwa [hget] at hqueued
    · exact h.handouts_eq_zero hold
  | lease handle leaseSeq hready =>
    have hcount : SteerState.handouts
        { s with
          instructions := setStates handle.instructions .leased s.instructions
          leaseSeq := leaseSeq
          leases := s.leases ++ [handle] } id =
        s.handouts id + if id ∈ handle.instructions then 1 else 0 := by
      simp [SteerState.handouts, List.countP_append, List.countP_cons]
    by_cases hmem : id ∈ handle.instructions
    · rw [if_pos hmem, honce.2 (hready id hmem)] at hcount
      refine ⟨hcount.le, fun hqueued => ?_⟩
      rcases queued_of_setStates hqueued with ⟨-, hfalse⟩ | ⟨hnot, -⟩
      · cases hfalse
      · exact absurd hmem hnot
    · rw [if_neg hmem, Nat.add_zero] at hcount
      rw [HandedOnce, hcount]
      exact ⟨honce.1, hrelabel fun hid => absurd hid hmem⟩
  | deliver ids hleased => exact ⟨honce.1, hrelabel fun _ hfalse => by cases hfalse⟩
  | restore ids hleased hrestorable =>
    exact ⟨honce.1, hrelabel fun hid => absurd (hrestorable id hid) hkept⟩
  | close ids state events hstate hsub hnodup hsubjects =>
    refine ⟨honce.1, hrelabel fun _ hqueued => ?_⟩
    subst hqueued
    have hdead := hstate
      ⟨"", "", "", .steer, .system, "", 0, 0, .queued⟩
    cases hdead

theorem SteerMoves.handedOnce (hmoves : SteerMoves restorable s s')
    (h : Coherent s) (hkept : ¬ restorable id) (honce : HandedOnce id s) : HandedOnce id s' := by
  induction hmoves with
  | refl => exact honce
  | tail hbefore hmove ih =>
    exact hmove.handedOnce (SteerMoves.coherent hbefore h) hkept ih

end Move

end Abtars
