import Abtars.Lib.InOrder
import Abtars.Pi.Origin
import Mathlib.Data.List.Chain

/-!
# Convergence of the origin

An owner's log of one run reaches the origin in any order, with duplicates and gaps.  The
origin's row is then the fold of the longest prefix delivered in order exactly for the
logs whose every event is valid and may follow the one before it.
-/

namespace Abtars

open Lib

variable {event : RemotePiEvent} {store : OriginStore}

variable {digest : RemotePiEventPayload → String} {runId : String} {log : List RemotePiEvent}

def OriginStore.deliver (digest : RemotePiEventPayload → String) (store : OriginStore)
    (deliveries : List RemotePiEvent) : OriginStore :=
  runFrom (fun store event => (store.reduce digest event).2) store deliveries

/-- The projection of a log: its first event's, with the others applied in order. -/
def projectionOf (log : List RemotePiEvent) : Option OriginProjectionRow :=
  log.foldl (fun row event =>
    match row with
    | none => some (initializeProjection event).toOriginProjectionRow
    | some row =>
      some (applyProjection { row with latestProgress := none } event).toOriginProjectionRow)
    none

def Consecutive (runId : String) (log : List RemotePiEvent) : Prop :=
  (∀ event ∈ log, event.runId = runId) ∧
    log.map (·.sequence) = List.range' 1 log.length

/-- However a log is delivered, the origin holds the longest prefix delivered in order. -/
def Converges (digest : RemotePiEventPayload → String) (runId : String)
    (log : List RemotePiEvent) : Prop :=
  ∀ deliveries : List RemotePiEvent, (∀ delivery ∈ deliveries, delivery ∈ log) →
    ∀ count, IsGreatest {count | count ≤ log.length ∧ (log.take count).Sublist deliveries} count →
      (OriginStore.empty.deliver digest deliveries).latestSequence runId = count ∧
      (OriginStore.empty.deliver digest deliveries).projections.get runId =
        projectionOf (log.take count)

/-- Each event is valid and may follow the one before it; only the first is an acceptance. -/
def Admissible (digest : RemotePiEventPayload → String) (log : List RemotePiEvent) : Prop :=
  (∀ event ∈ log, event.isValid digest = true) ∧
    log.IsChain fun event next =>
      next.kind ≠ .accepted ∧ Follows event.generation event.projection.status next

/-! ## Logs -/

theorem projectionOf_concat (log : List RemotePiEvent) (event : RemotePiEvent) :
    projectionOf (log ++ [event]) =
      match projectionOf log with
      | none => some (initializeProjection event).toOriginProjectionRow
      | some row =>
        some (applyProjection { row with latestProgress := none } event).toOriginProjectionRow := by
  rw [projectionOf, List.foldl_append]
  rfl

theorem projectionOf_last (log : List RemotePiEvent) (event : RemotePiEvent) :
    ∃ row, projectionOf (log ++ [event]) = some row ∧ row.latestSequence = event.sequence ∧
      row.latestGeneration = event.generation ∧ row.latestStatus = event.projection.status := by
  rw [projectionOf_concat]
  cases projectionOf log with
  | none => exact ⟨_, rfl, rfl, rfl, rfl⟩
  | some row =>
    refine ⟨_, rfl, ?_⟩
    simp only [applyProjection]
    split <;> exact ⟨rfl, rfl, rfl⟩

theorem Consecutive.sequence_getElem (h : Consecutive runId log) {i : Nat} (hi : i < log.length) :
    log[i].sequence = i + 1 := by
  have hentry : (log.map (·.sequence))[i]? = some (i + 1) := by
    rw [h.2, List.getElem?_range' hi]
    congr 1
    omega
  rw [List.getElem?_map, List.getElem?_eq_getElem hi] at hentry
  simpa using hentry

theorem Consecutive.of_concat (h : Consecutive runId (log ++ [event])) :
    Consecutive runId log ∧ event.runId = runId ∧ event.sequence = log.length + 1 := by
  refine ⟨⟨fun e he => h.1 e (List.mem_append_left _ he), ?_⟩, h.1 event (by simp), ?_⟩
  · have hsequences := h.2
    rw [List.map_append, List.length_append, List.length_singleton, List.range'_1_concat] at hsequences
    exact (List.append_inj' hsequences rfl).1
  · have hlast := h.sequence_getElem (i := log.length) (by simp)
    simpa using hlast

theorem Consecutive.take (h : Consecutive runId log) (count : Nat) :
    Consecutive runId (log.take count) := by
  refine ⟨fun event hevent => h.1 event (List.mem_of_mem_take hevent), ?_⟩
  rw [List.map_take, h.2, List.length_take]
  rcases le_total count log.length with hle | hle
  · rw [List.take_range'_of_length_ge hle, min_eq_left hle]
  · rw [List.take_range'_of_length_le hle, min_eq_right hle]

theorem Admissible.take (h : Admissible digest log) (count : Nat) :
    Admissible digest (log.take count) :=
  ⟨fun event hevent => h.1 event (List.mem_of_mem_take hevent), h.2.take count⟩

/-! ## A log delivered in order -/

structure Holds (runId : String) (log : List RemotePiEvent) (store : OriginStore) : Prop where
  row : store.projections.get runId = projectionOf log
  identities : ∀ sequence,
    (store.events.get (runId, sequence)).isSome = true ↔ 1 ≤ sequence ∧ sequence ≤ log.length
  ids : store.IdsDerived

theorem holds_empty (runId : String) : Holds runId [] OriginStore.empty where
  row := rfl
  identities sequence := by
    simp [OriginStore.empty]
    omega
  ids row hrow := absurd hrow (Table.not_mem_empty row)

theorem Holds.latestSequence (h : Holds runId log store)
    (hlog : Consecutive runId log) : store.latestSequence runId = log.length := by
  rw [OriginStore.latestSequence, h.row]
  rcases List.eq_nil_or_concat' log with rfl | ⟨front, event, rfl⟩
  · rfl
  · obtain ⟨row, hrow, hsequence, -⟩ := projectionOf_last front event
    rw [hrow, Option.map_some, Option.getD_some, hsequence, hlog.of_concat.2.2]
    simp

theorem Holds.projects (h : Holds runId log store)
    (hlog : Consecutive runId (log ++ [event])) (hadm : Admissible digest (log ++ [event])) :
    ∃ projection, Projects store event projection ∧
      projectionOf (log ++ [event]) = some projection.toOriginProjectionRow := by
  obtain ⟨-, hrun, hsequence⟩ := hlog.of_concat
  have hget : store.projections.get event.runId = projectionOf log := by rw [hrun, h.row]
  rw [projectionOf_concat]
  rcases List.eq_nil_or_concat' log with rfl | ⟨front, last, rfl⟩
  · exact ⟨_, .first hget hsequence, rfl⟩
  obtain ⟨row, hrow, hlatest, hgeneration, hstatus⟩ := projectionOf_last front last
  rw [hrow] at hget ⊢
  refine ⟨_, .next row hget ?_ ?_ ?_, rfl⟩
  · rw [hlatest, hlog.of_concat.1.of_concat.2.2, hsequence]
    simp
  · intro haccepted
    have hchain := hadm.2
    rw [List.append_assoc, List.isChain_append] at hchain
    have hpair := hchain.2.1
    exact absurd haccepted (by simpa using (List.isChain_pair.1 hpair).1)
  have hchain := hadm.2
  rw [List.append_assoc, List.isChain_append] at hchain
  rw [hgeneration, hstatus]
  exact (List.isChain_pair.1 hchain.2.1).2

theorem Holds.concat (h : Holds runId log store)
    (hlog : Consecutive runId (log ++ [event])) (hadm : Admissible digest (log ++ [event])) :
    Holds runId (log ++ [event]) (store.reduce digest event).2 := by
  obtain ⟨-, hrun, hsequence⟩ := hlog.of_concat
  obtain ⟨projection, hprojects, hprojection⟩ := h.projects hlog hadm
  have hvalid : event.isValid digest = true := hadm.1 event (by simp)
  have hfree : store.events.get (event.runId, event.sequence) = none := by
    have hnot : ¬ (store.events.get (runId, event.sequence)).isSome = true := by
      rw [h.identities, hsequence]
      omega
    rw [hrun]
    simpa using hnot
  obtain ⟨committed, happly⟩ := exists_commit projection h.ids hvalid hfree
  have hcommitted := committed_of_apply hprojects happly
  have hids := idsDerived_reduce digest event h.ids
  rw [hprojects.reduce_eq hvalid hfree, OriginStore.commit, happly] at hids ⊢
  refine ⟨?_, fun sequence => ?_, hids⟩
  · rw [hcommitted.get_projections, if_pos hrun.symm, hprojection]
  rw [hcommitted.get_events, hrun, List.length_append, List.length_singleton]
  by_cases hkey : sequence = event.sequence
  · rw [if_pos (by rw [hkey])]
    simp only [Option.isSome_some, true_iff]
    omega
  · rw [if_neg (by simp [hkey]), h.identities]
    omega

theorem holds_deliver (log : List RemotePiEvent) :
    Consecutive runId log → Admissible digest log →
      Holds runId log (OriginStore.empty.deliver digest log) := by
  induction log using List.reverseRecOn with
  | nil =>
    intro _ _
    exact holds_empty runId
  | append_singleton front event ih =>
    intro hlog hadm
    have hfront : Admissible digest front := by
      have htake := hadm.take front.length
      rwa [List.take_left'] at htake
      rfl
    rw [OriginStore.deliver, runFrom_append]
    exact (ih hlog.of_concat.1 hfront).concat hlog hadm

theorem Holds.idle {taken : Nat} (h : Holds runId (log.take taken) store)
    (hlog : Consecutive runId log) (htaken : taken ≤ log.length) (hevent : event ∈ log)
    (hother : log[taken]? ≠ some event) : (store.reduce digest event).2 = store := by
  obtain ⟨i, hi, rfl⟩ := List.getElem_of_mem hevent
  have hlength : (log.take taken).length = taken := by simpa using htaken
  have hsequence := hlog.sequence_getElem hi
  have hrun := hlog.1 _ hevent
  rcases reduce_spec digest log[i] store with
    ⟨outcome, -, heq⟩ | ⟨projection, committed, -, hfree, hcommitted, -⟩
  · rw [heq]
  · exfalso
    have hnext := hcommitted.sequence_eq
    rw [hrun, h.latestSequence (hlog.take taken), hlength] at hnext
    have hindex : i = taken := by omega
    exact hother (by rw [← hindex, List.getElem?_eq_getElem hi])

theorem converges_of_admissible (hlog : Consecutive runId log) (hadm : Admissible digest log) :
    Converges digest runId log := by
  intro deliveries hdeliveries count hcount
  have hheld : ∀ taken, Holds runId (log.take taken)
      (OriginStore.empty.deliver digest (log.take taken)) := fun taken =>
    holds_deliver _ (hlog.take taken) (hadm.take taken)
  have hreceived : count = received log deliveries :=
    hcount.unique (isGreatest_received log deliveries)
  have hstore : OriginStore.empty.deliver digest deliveries =
      OriginStore.empty.deliver digest (log.take count) := by
    rw [hreceived]
    exact runFrom_received (fun taken htaken event hevent hother =>
      (hheld taken).idle hlog htaken hevent hother) hdeliveries
  rw [hstore]
  refine ⟨?_, (hheld count).row⟩
  rw [(hheld count).latestSequence (hlog.take count)]
  simpa using hcount.1.1

/-! ## What convergence asks of a log -/

theorem legal_of_advance
    (hadvance : store.latestSequence event.runId <
      (store.reduce digest event).2.latestSequence event.runId) :
    event.isValid digest = true ∧
      ∀ row, store.projections.get event.runId = some row →
        (event.kind = .accepted → event.sequence = 1) ∧
          Follows row.latestGeneration row.latestStatus event := by
  rcases reduce_spec digest event store with
    ⟨outcome, -, heq⟩ | ⟨projection, committed, hvalid, -, hcommitted, -⟩
  · rw [heq] at hadvance
    exact absurd hadvance (lt_irrefl _)
  · refine ⟨hvalid, fun row hrow => ?_⟩
    cases hcommitted.projects with
    | first hnone hfirst =>
      rw [hrow] at hnone
      exact absurd hnone (by simp)
    | next stored hstored hnext haccepted hfollows =>
      rw [hrow] at hstored
      obtain rfl := Option.some.inj hstored
      exact ⟨haccepted, hfollows⟩

theorem isGreatest_length (log : List RemotePiEvent) (count : Nat) (hcount : count ≤ log.length) :
    IsGreatest {other | other ≤ log.length ∧ (log.take other).Sublist (log.take count)} count := by
  refine ⟨⟨hcount, List.Sublist.refl _⟩, fun other hother => ?_⟩
  have hlength := hother.2.length_le
  simp only [List.length_take] at hlength
  have hle := hother.1
  omega

theorem legal_of_converges (hlog : Consecutive runId log) (h : Converges digest runId log)
    {i : Nat} (hi : i < log.length) :
    log[i].isValid digest = true ∧
      ∀ row, projectionOf (log.take i) = some row →
        (log[i].kind = .accepted → log[i].sequence = 1) ∧
          Follows row.latestGeneration row.latestStatus log[i] := by
  have hbefore := h (log.take i) (fun _ hd => List.mem_of_mem_take hd) i
    (isGreatest_length log i hi.le)
  have hafter := h (log.take (i + 1)) (fun _ hd => List.mem_of_mem_take hd) (i + 1)
    (isGreatest_length log (i + 1) hi)
  have hrun : log[i].runId = runId := hlog.1 _ (List.getElem_mem hi)
  rw [List.take_succ_eq_append_getElem hi, OriginStore.deliver, runFrom_append] at hafter
  have hadvance : (OriginStore.empty.deliver digest (log.take i)).latestSequence log[i].runId <
      ((OriginStore.empty.deliver digest (log.take i)).reduce digest log[i]).2.latestSequence
        log[i].runId := by
    rw [hrun, hbefore.1]
    exact lt_of_lt_of_eq (Nat.lt_succ_self i) hafter.1.symm
  have hlegal := legal_of_advance hadvance
  rw [hrun, hbefore.2] at hlegal
  exact hlegal

theorem admissible_of_converges (hlog : Consecutive runId log) (h : Converges digest runId log) :
    Admissible digest log := by
  constructor
  · intro event hevent
    obtain ⟨i, hi, rfl⟩ := List.getElem_of_mem hevent
    exact (legal_of_converges hlog h hi).1
  rw [List.isChain_iff_getElem]
  intro i hi
  have hlegal := (legal_of_converges hlog h hi).2
  rw [List.take_succ_eq_append_getElem (by omega)] at hlegal
  obtain ⟨row, hrow, -, hgeneration, hstatus⟩ := projectionOf_last (log.take i) log[i]
  obtain ⟨haccepted, hfollows⟩ := hlegal row hrow
  rw [hgeneration, hstatus] at hfollows
  refine ⟨fun hkind => ?_, hfollows⟩
  have hfirst := haccepted hkind
  rw [hlog.sequence_getElem hi] at hfirst
  omega

/-- The origin converges on a log exactly when every event is valid and follows the one
before it. -/
theorem converges_iff_admissible (hlog : Consecutive runId log) :
    Converges digest runId log ↔ Admissible digest log :=
  ⟨admissible_of_converges hlog, converges_of_admissible hlog⟩

end Abtars
