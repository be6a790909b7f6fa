import Abtars.Pi.RunStore

/-!
# The events of a run mirror the run

The last event of a delegated run describes its status and generation.  Most calls of the
store keep this, for they write the row and append the event in one transaction; a workspace
that is released for a later start and a start whose card is not queued write the row without
an event, and the calls on pending requests leave the row written when the event is refused.
-/

namespace Abtars

open Lib

section Append

variable {outbox stored : Outbox} {row : OutboxRow}

theorem select_append_of_ne {runId : String} (hrows : stored.rows = outbox.rows ++ [row])
    (hne : row.runId ≠ runId) :
    stored.select (·.runId = runId) = outbox.select (·.runId = runId) := by
  rw [Table.select, Table.select, hrows, List.filter_append]
  simp [hne]

theorem latestEvent_append_of_ne {runId : String} (hrows : stored.rows = outbox.rows ++ [row])
    (hne : row.runId ≠ runId) : latestEvent stored runId = latestEvent outbox runId := by
  have hmax : getMaxSequence stored runId = getMaxSequence outbox runId := by
    rw [getMaxSequence, getMaxSequence, select_append_of_ne hrows hne]
  have hget : ∀ sequence, stored.get (runId, sequence) = outbox.get (runId, sequence) := by
    intro sequence
    rw [Table.get, Table.get, hrows, List.find?_append]
    have hother : List.find? (fun r : OutboxRow => decide (Keyed.key r = (runId, sequence)))
        [row] = none := by
      have hkey : Keyed.key row ≠ (runId, sequence) := fun h => hne (Prod.mk.inj h).1
      simp [hkey]
    rw [hother, Option.or_none]
  rw [latestEvent, latestEvent, hmax, hget]

theorem latestEvent_append (hrows : stored.rows = outbox.rows ++ [row])
    (hsequence : row.sequence = getMaxSequence outbox row.runId + 1) :
    latestEvent stored row.runId = some row := by
  have hmem : row ∈ stored := by
    rw [Table.mem_def, hrows]
    simp
  have hmax : getMaxSequence stored row.runId = row.sequence := by
    have hle := le_getMaxSequence hmem
    have hpos : 0 < getMaxSequence stored row.runId := by omega
    obtain ⟨last, hlast, hrun, hsame⟩ := exists_last hpos
    rw [Table.mem_def, hrows, List.mem_append, List.mem_singleton] at hlast
    rcases hlast with hold | hnew
    · have hbound : last.sequence ≤ getMaxSequence outbox last.runId := le_getMaxSequence hold
      rw [hrun] at hbound
      omega
    · rw [← hsame, hnew]
  have hget : stored.get (row.runId, row.sequence) = some row :=
    Table.get_eq_some_iff.2 ⟨hmem, rfl⟩
  rw [latestEvent, hmax, hget, if_pos (by omega)]

end Append

theorem appendEventAuto_conflict_or (input : AppendInput) (outbox : Outbox) :
    (appendEventAuto input outbox = (.conflict, outbox) ∧
        ∃ row ∈ outbox.rows,
          row.eventId = (input.row (getMaxSequence outbox input.runId + 1)).eventId) ∨
      ∃ stored : Outbox,
        appendEventAuto input outbox =
          (.appended (getMaxSequence outbox input.runId + 1), stored) ∧
        ∀ row ∈ outbox.rows,
          row.eventId ≠ (input.row (getMaxSequence outbox input.runId + 1)).eventId := by
  by_cases hfree : ∀ row ∈ outbox.rows,
      row.eventId ≠ (input.row (getMaxSequence outbox input.runId + 1)).eventId
  · have hfits : outbox.Fits
        (·.eventId = (input.row (getMaxSequence outbox input.runId + 1)).eventId)
        (input.row (getMaxSequence outbox input.runId + 1)) :=
      ⟨get_next_sequence outbox input.runId, fun row hrow => by simpa using hfree row hrow⟩
    obtain ⟨stored, hstored⟩ := Table.exists_insert_iff.2 hfits
    refine .inr ⟨stored, ?_, hfree⟩
    rw [appendEventAuto]
    simp only [hstored]
  · push Not at hfree
    obtain ⟨row, hrow, hid⟩ := hfree
    refine .inl ⟨?_, row, hrow, hid⟩
    rw [appendEventAuto]
    cases hinsert : outbox.insert
        (·.eventId = (input.row (getMaxSequence outbox input.runId + 1)).eventId)
        (input.row (getMaxSequence outbox input.runId + 1)) with
    | none => simp only [get_next_sequence]
    | some inserted =>
      have hclash := (Table.insert_eq_some_iff.1 hinsert).2.1 row hrow
      simp [hid] at hclash

/-! ## What a transition tells -/

def PiRunRecord.IsDelegated (run : PiRunRecord) : Prop := (nonEmpty run.originPeer).isSome

instance (run : PiRunRecord) : Decidable run.IsDelegated :=
  inferInstanceAs (Decidable (_ = true))

def Told (outbox : Outbox) (run : PiRunRecord) : Prop :=
  ∃ event, latestEvent outbox run.id = some event ∧
    event.projection.status = run.status ∧ event.generation = run.executionGeneration

instance (outbox : Outbox) (run : PiRunRecord) : Decidable (Told outbox run) :=
  decidable_of_iff
    ((latestEvent outbox run.id).any fun event =>
      event.projection.status = run.status ∧ event.generation = run.executionGeneration)
    (by simp [Told, Option.any_eq_true])

def Mirrors (s : PiRunStore) : Prop :=
  ∀ run ∈ s.runs, run.IsDelegated → Told s.outbox run.toPiRunRecord

instance (s : PiRunStore) : Decidable (Mirrors s) :=
  inferInstanceAs (Decidable (∀ run ∈ s.runs.rows, _ → _))

/-- The event of a run in a transition that is no resumption can be appended: its projection is
within the bounds, and the database takes it. -/
def CanTell (reads : PiReads) (outbox : Outbox) (run : PiRun) : Prop :=
  (boundedProjection run.toPiRunRecord (reads.producer.uiRequest run.id)).isSome ∧
    reads.failsInsert = false ∧
    ∀ row ∈ outbox.rows, row.eventId ≠ deriveEventId run.id (getMaxSequence outbox run.id + 1)

instance (reads : PiReads) (outbox : Outbox) (run : PiRun) : Decidable (CanTell reads outbox run) :=
  inferInstanceAs (Decidable (_ ∧ _ ∧ ∀ row ∈ outbox.rows, _))

def ShowsRun (input : TransitionInput) (run : PiRun) : Prop :=
  (input.toStatus = .status run.status ∧ input.newGeneration.all (· = run.executionGeneration)) ∨
    (input.toStatus = .accepted ∧ input.newGeneration = none)

section Emit

variable {host : PiHost} {reads : PiReads} {runId : String} {input : TransitionInput}
  {s s' : PiRunStore} {run : PiRun}

theorem transitionedRun_of_shows (h : ShowsRun input run) (kind : RemotePiEventKind) :
    (transitionedRun run.toPiRunRecord kind input.toStatus input.newGeneration).status =
        run.status ∧
      (transitionedRun run.toPiRunRecord kind input.toStatus
        input.newGeneration).executionGeneration = run.executionGeneration := by
  rcases h with ⟨hto, hnew⟩ | ⟨hto, hnew⟩
  · cases hgeneration : input.newGeneration with
    | none =>
      rw [hto]
      cases kind <;> exact ⟨rfl, rfl⟩
    | some generation =>
      rw [hgeneration] at hnew
      have hsame : generation = run.executionGeneration := by simpa using hnew
      rw [hto, hsame]
      cases kind <;> exact ⟨rfl, rfl⟩
  · rw [hto, hnew]
    cases kind <;> exact ⟨rfl, rfl⟩

theorem transitionDraft_shows {draft : EventDraft} {uiRequest : Option Json} {occurredAt : String}
    (hshows : ShowsRun input run)
    (h : transitionDraft input run.toPiRunRecord uiRequest occurredAt = some draft) :
    draft.runId = run.id ∧ draft.projection.status = run.status ∧
      draft.generation = run.executionGeneration := by
  obtain ⟨peer, -, h⟩ := Option.bind_eq_some_iff.1 h
  obtain ⟨kind, -, h⟩ := Option.bind_eq_some_iff.1 h
  obtain ⟨projection, hprojection, rfl⟩ := Option.map_eq_some_iff.1 h
  obtain ⟨hstatus, hgeneration⟩ := transitionedRun_of_shows hshows kind
  refine ⟨rfl, ?_, hgeneration⟩
  rw [boundedProjection] at hprojection
  split at hprojection
  · cases hprojection
    exact hstatus
  · cases hprojection

theorem emitInTx_frame (h : emitInTx host reads runId input s = .ok s') :
    s'.runs = s.runs ∧ s'.claims = s.claims ∧ s'.db = s.db := by
  rw [emitInTx] at h
  split at h
  · cases h
    exact ⟨rfl, rfl, rfl⟩
  split at h
  · cases h
    exact ⟨rfl, rfl, rfl⟩
  split at h
  · cases h
  split at h
  · cases h
  split at h
  · cases h
  · cases h
    exact ⟨rfl, rfl, rfl⟩

/-- Everything a transition that does not throw can do: nothing, for a run that is not
delegated or a transition without event, or append the event that describes the run. -/
theorem emitInTx_ok (hget : s.runs.get runId = some run) (hshows : ShowsRun input run)
    (h : emitInTx host reads runId input s = .ok s') :
    (∀ other, other ≠ runId → latestEvent s'.outbox other = latestEvent s.outbox other) ∧
      (s' = s ∧ (¬ run.IsDelegated ∨
          kindForTransition input.fromStatus input.toStatus input.newGeneration.isSome = none) ∨
        Told s'.outbox run.toPiRunRecord) := by
  have hid : run.id = runId := Table.key_of_get hget
  rw [emitInTx, hget] at h
  simp only [] at h
  split at h
  · rename_i hsilent
    cases h
    refine ⟨fun _ _ => rfl, .inl ⟨rfl, ?_⟩⟩
    rcases hsilent with hpeer | hkind
    · exact .inl (by rw [PiRunRecord.IsDelegated]; simpa using hpeer)
    · exact .inr hkind
  · split at h
    · cases h
    rename_i draft hdraft
    obtain ⟨hrun, hstatus, hgeneration⟩ := transitionDraft_shows hshows hdraft
    split at h
    · cases h
    rcases appendEventAuto_cases (draft.seal host.digest) s.outbox with hcase | hcase
    · rw [hcase] at h
      cases h
    obtain ⟨stored, hrows, hcase⟩ := hcase
    rw [hcase] at h
    cases h
    have hname : ((draft.seal host.digest).row
        (getMaxSequence s.outbox (draft.seal host.digest).runId + 1)).runId = runId :=
      hrun.trans hid
    refine ⟨fun other hne => ?_, .inr ?_⟩
    · exact latestEvent_append_of_ne hrows (by rw [hname]; exact hne.symm)
    · have hlast := latestEvent_append hrows rfl
      rw [hname, ← hid] at hlast
      exact ⟨_, hlast, hstatus, hgeneration⟩

/-- A transition without resumption goes through for a delegated run exactly when its event
can be appended. -/
theorem emitInTx_throws_iff (hget : s.runs.get runId = some run) (hdelegated : run.IsDelegated)
    (hnew : input.newGeneration = none)
    (hkind : kindForTransition input.fromStatus input.toStatus false ≠ none) :
    (∃ e, emitInTx host reads runId input s = .error e) ↔ ¬ CanTell reads s.outbox run := by
  have hid : run.id = runId := Table.key_of_get hget
  obtain ⟨peer, hpeer⟩ := Option.isSome_iff_exists.1 hdelegated
  obtain ⟨kind, hkind⟩ := Option.ne_none_iff_exists'.1 hkind
  have hshown : transitionedRun run.toPiRunRecord kind input.toStatus none = run.toPiRunRecord := by
    cases kind <;> cases input.toStatus <;> rfl
  have hdraft : transitionDraft input run.toPiRunRecord (reads.producer.uiRequest runId)
      reads.producer.occurredAt =
        (boundedProjection run.toPiRunRecord (reads.producer.uiRequest run.id)).map
          fun projection =>
            { runId := run.id, cardId := run.cardId, generation := run.executionGeneration
              originPeer := peer, originRequestId := run.toPiRunRecord.requestId, kind
              occurredAt := reads.producer.occurredAt, projection } := by
    rw [transitionDraft, hpeer, hnew]
    simp only [Option.isSome_none, Option.bind_some, hkind, hshown, hid]
  rw [emitInTx, hget]
  simp only [hnew, Option.isSome_none, hkind, hpeer, Option.isNone_some, Bool.false_eq_true,
    reduceCtorEq, or_self, if_false, hdraft, CanTell]
  cases hprojection : boundedProjection run.toPiRunRecord (reads.producer.uiRequest run.id) with
  | none => simp
  | some projection =>
    simp only [Option.map_some, Option.isSome_some, true_and]
    cases hfails : reads.failsInsert with
    | true => simp
    | false =>
      simp only [Bool.false_eq_true, if_false, true_and]
      rcases appendEventAuto_conflict_or (EventDraft.seal host.digest _) s.outbox with
        ⟨hcase, row, hrow, hid⟩ | ⟨stored, hcase, hfree⟩
      · rw [hcase]
        exact iff_of_true ⟨_, rfl⟩ fun hall => hall row hrow hid
      · rw [hcase]
        exact iff_of_false (by simp) fun hnot => hnot hfree

end Emit

section Calls

variable {f : PiRun → PiRun} {other : String} {answer : PiCommit Nat}

variable {host : PiHost} {reads : PiReads} {runId : String} {input : TransitionInput}
  {s s₁ s' : PiRunStore} {run : PiRun}

theorem status_eq_of_silent {fromStatus toStatus : PiRunStatus} {bumped : Bool}
    (h : kindForTransition (some fromStatus) (.status toStatus) bumped = none) :
    fromStatus = toStatus ∧ bumped = false := by
  cases bumped with
  | true => cases h
  | false =>
    simp only [kindForTransition, Bool.false_eq_true, if_false] at h
    split at h
    · cases h
    split at h
    · exact ⟨by simp_all, rfl⟩
    · cases h

theorem mirrors_of_emit (hget : s₁.runs.get runId = some run) (hshows : ShowsRun input run)
    (hothers : ∀ other ∈ s₁.runs, other.id ≠ runId → other.IsDelegated →
      Told s₁.outbox other.toPiRunRecord)
    (hsilent : kindForTransition input.fromStatus input.toStatus input.newGeneration.isSome = none →
      run.IsDelegated → Told s₁.outbox run.toPiRunRecord)
    (h : emitInTx host reads runId input s₁ = .ok s') : Mirrors s' := by
  obtain ⟨hkept, hlast⟩ := emitInTx_ok hget hshows h
  have hruns := (emitInTx_frame h).1
  intro other hother hdelegated
  rw [hruns] at hother
  by_cases hid : other.id = runId
  · have hsame : other = run := by
      have hkey := Table.get_key_of_mem hother
      rw [key_piRun, hid, hget] at hkey
      exact (Option.some.inj hkey).symm
    subst hsame
    rcases hlast with ⟨rfl, hplain | hquiet⟩ | htold
    · exact absurd hdelegated hplain
    · exact hsilent hquiet hdelegated
    · exact htold
  · obtain ⟨event, hevent, htold⟩ := hothers other hother hid hdelegated
    exact ⟨event, by rw [hkept other.id hid]; exact hevent, htold⟩

theorem get_write {hf : ∀ run, (f run).id = run.id}
    (hget : s.runs.get runId = some run) : (s.write runId f hf).runs.get runId = some (f run) := by
  rw [PiRunStore.write, Table.get_modify_same, hget]
  rfl

theorem get_write_of_ne {hf : ∀ run, (f run).id = run.id}
    (hne : other ≠ runId) : (s.write runId f hf).runs.get other = s.runs.get other :=
  Table.get_modify_of_ne s.runs f hf hne

theorem mirrors_write_emit {hf : ∀ run, (f run).id = run.id} (hs : Mirrors s)
    (hget : s.runs.get runId = some run) (hruns : s₁.runs = (s.write runId f hf).runs)
    (houtbox : s₁.outbox = s.outbox) (hpeer : (f run).originPeer = run.originPeer)
    (hshows : ShowsRun input (f run))
    (hsilent : kindForTransition input.fromStatus input.toStatus input.newGeneration.isSome = none →
      (f run).status = run.status ∧ (f run).executionGeneration = run.executionGeneration)
    (h : emitInTx host reads runId input s₁ = .ok s') : Mirrors s' := by
  have hwritten : s₁.runs.get runId = some (f run) := by
    rw [hruns]
    exact get_write hget
  refine mirrors_of_emit hwritten hshows (fun other hother hid hdelegated => ?_)
    (fun hquiet hdelegated => ?_) h
  · rw [hruns, PiRunStore.write, Table.mem_modify] at hother
    rw [houtbox]
    rcases hother with ⟨hmem, -⟩ | ⟨old, hold, rfl⟩
    · exact hs other hmem hdelegated
    · exact absurd ((hf old).trans (Table.key_of_get hold)) hid
  · obtain ⟨hstatus, hgeneration⟩ := hsilent hquiet
    rw [PiRunRecord.IsDelegated, hpeer] at hdelegated
    obtain ⟨event, hevent, htold⟩ := hs run (Table.mem_of_get hget) hdelegated
    rw [houtbox]
    exact ⟨event, by rw [hf run]; exact hevent, by rw [hstatus, hgeneration]; exact htold⟩

theorem mirrors_write {hf : ∀ run, (f run).id = run.id} (hs : Mirrors s)
    (hget : s.runs.get runId = some run) (hruns : s₁.runs = (s.write runId f hf).runs)
    (houtbox : s₁.outbox = s.outbox) (hpeer : (f run).originPeer = run.originPeer)
    (hstatus : (f run).status = run.status)
    (hgeneration : (f run).executionGeneration = run.executionGeneration) : Mirrors s₁ := by
  intro other hother hdelegated
  rw [houtbox]
  rw [hruns, PiRunStore.write, Table.mem_modify] at hother
  rcases hother with ⟨hmem, -⟩ | ⟨old, hold, rfl⟩
  · exact hs other hmem hdelegated
  rw [hget] at hold
  cases hold
  rw [PiRunRecord.IsDelegated, hpeer] at hdelegated
  obtain ⟨event, hevent, htold⟩ := hs run (Table.mem_of_get hget) hdelegated
  exact ⟨event, by rw [hf run]; exact hevent, by rw [hstatus, hgeneration]; exact htold⟩

theorem mirrors_write_plain {hf : ∀ run, (f run).id = run.id} (hs : Mirrors s)
    (hget : s.runs.get runId = some run) (hplain : ¬ run.IsDelegated)
    (hruns : s₁.runs = (s.write runId f hf).runs) (houtbox : s₁.outbox = s.outbox)
    (hpeer : (f run).originPeer = run.originPeer) : Mirrors s₁ := by
  intro other hother hdelegated
  rw [houtbox]
  rw [hruns, PiRunStore.write, Table.mem_modify] at hother
  rcases hother with ⟨hmem, -⟩ | ⟨old, hold, rfl⟩
  · exact hs other hmem hdelegated
  rw [hget] at hold
  cases hold
  rw [PiRunRecord.IsDelegated, hpeer] at hdelegated
  exact absurd hdelegated hplain

theorem mirrors_congr (hs : Mirrors s) (hruns : s'.runs = s.runs) (houtbox : s'.outbox = s.outbox) :
    Mirrors s' := by
  rw [Mirrors, hruns, houtbox]
  exact hs

theorem cardTransition_ok {req : TransitionRequest} {outcome : TransitionOutcome}
    (h : cardTransition host reads req s = .ok (outcome, s')) :
    s'.runs = s.runs ∧ s'.outbox = s.outbox ∧ s'.claims = s.claims := by
  rw [cardTransition] at h
  split at h
  · cases h
  · cases h
    exact ⟨rfl, rfl, rfl⟩

theorem pairedCard_ok {req : TransitionRequest} (h : pairedCard host reads req s = .ok s') :
    s'.runs = s.runs ∧ s'.outbox = s.outbox ∧ s'.claims = s.claims := by
  obtain ⟨⟨outcome, moved⟩, hmoved, h⟩ := bind_eq_ok.1 h
  obtain ⟨hruns, houtbox, hclaims⟩ := cardTransition_ok hmoved
  simp only [] at h
  split at h
  · cases h
    exact ⟨hruns, houtbox, hclaims⟩
  · cases h

/-! ### What a call writes -/

/-- A call wrote the row of a run, and told of it. -/
structure Wrote (host : PiHost) (reads : PiReads) (s s' : PiRunStore) (run : PiRun)
    (f : PiRun → PiRun) (input : TransitionInput) : Prop where
  named : ∀ run, (f run).id = run.id
  get : s.runs.get run.id = some run
  told : ∃ s₁ s₂, emitInTx host reads run.id input s₁ = .ok s₂ ∧
    s₁.runs = (s.write run.id f named).runs ∧ s₁.outbox = s.outbox ∧ s'.runs = s₂.runs ∧
    s'.outbox = s₂.outbox

theorem Wrote.runs (h : Wrote host reads s s' run f input) :
    s'.runs = (s.write run.id f h.named).runs := by
  obtain ⟨s₁, s₂, htold, hruns, -, hruns', -⟩ := h.told
  rw [hruns', (emitInTx_frame htold).1, hruns]

theorem Wrote.mirrors (h : Wrote host reads s s' run f input) (hs : Mirrors s)
    (hpeer : (f run).originPeer = run.originPeer) (hshows : ShowsRun input (f run))
    (hsilent : kindForTransition input.fromStatus input.toStatus input.newGeneration.isSome = none →
      (f run).status = run.status ∧ (f run).executionGeneration = run.executionGeneration) :
    Mirrors s' := by
  obtain ⟨s₁, s₂, htold, hruns, houtbox, hruns', houtbox'⟩ := h.told
  exact mirrors_congr (mirrors_write_emit hs h.get hruns houtbox hpeer hshows hsilent htold) hruns'
    houtbox'

theorem unless_refused {α : Type} {a b : α} {p Q : Prop} [Decidable p]
    {x : Except PiStoreError (α × PiRunStore)} (h : (if p then .ok (a, s) else x) = .ok (b, s'))
    (hnext : ¬ p → x = .ok (b, s') → s' = s ∨ Q) : s' = s ∨ Q := by
  split at h
  · cases h
    exact .inl rfl
  · rename_i hp
    exact hnext hp h

theorem casTransition_cases {fromStatuses : List PiRunStatus} {toStatus : PiRunStatus}
    {updates : RunUpdates} {expectedGeneration : Option Nat} {changed : Bool}
    (h : casTransition host reads runId fromStatuses toStatus updates expectedGeneration s =
      .ok (changed, s')) :
    s' = s ∨ ∃ run, run.status ∈ fromStatuses ∧
      Wrote host reads s s' run (updates.write toStatus reads.now)
        ⟨singleStatus fromStatuses, .status toStatus, updates.bumpOf run⟩ := by
  rw [casTransition] at h
  split at h
  · cases h
    exact .inl rfl
  rename_i run hget
  obtain rfl : run.id = runId := Table.key_of_get hget
  split at h
  · rename_i hguard
    obtain ⟨told, htold, heq⟩ := map_eq_ok.1 h
    cases heq
    exact .inr ⟨run, hguard.1, fun _ => rfl, hget, _, _, htold, rfl, rfl, rfl, rfl⟩
  · cases h
    exact .inl rfl

theorem settleTerminal_cases {generation : Nat} {expectedStatuses : List PiRunStatus}
    {outcome : PiTerminalOutcome} {metadata : PiTerminalMetadata}
    (h : settleTerminal host reads runId generation expectedStatuses outcome metadata s =
      .ok (answer, s')) :
    s' = s ∨ ∃ run, Wrote host reads s s' run (metadata.write outcome reads.now)
      ⟨some run.status, .status outcome.status, none⟩ := by
  rw [settleTerminal] at h
  split at h
  · cases h
    exact .inl rfl
  rename_i run hget
  obtain rfl : run.id = runId := Table.key_of_get hget
  refine unless_refused h fun _ h => unless_refused h fun _ h => unless_refused h fun _ h => ?_
  obtain ⟨told, htold, h⟩ := bind_eq_ok.1 h
  obtain ⟨settled, hsettled, h⟩ := map_eq_ok.1 h
  cases h
  obtain ⟨hruns, houtbox, -⟩ := pairedCard_ok hsettled
  exact .inr ⟨run, fun _ => rfl, hget, _, _, htold, rfl, rfl, hruns, houtbox⟩

theorem interruptGeneration_cases {generation : Nat} {continuity : SessionProof}
    (h : interruptGeneration host reads runId generation continuity s = .ok (answer, s')) :
    s' = s ∨ ∃ run, run.status ∈ activeStatuses ∧
      Wrote host reads s s' run (interruptedRun continuity reads.now)
        ⟨some run.status, .status .interrupted, none⟩ := by
  rw [interruptGeneration] at h
  split at h
  · cases h
    exact .inl rfl
  rename_i run hget
  obtain rfl : run.id = runId := Table.key_of_get hget
  refine unless_refused h fun _ h => unless_refused h fun hactive h => unless_refused h fun _ h => ?_
  obtain ⟨paired, hpaired, h⟩ := bind_eq_ok.1 h
  obtain ⟨told, htold, h⟩ := map_eq_ok.1 h
  cases h
  obtain ⟨hruns, houtbox, -⟩ := pairedCard_ok hpaired
  exact .inr ⟨run, not_not.1 hactive, fun _ => rfl, hget, _, _, htold, hruns, houtbox, rfl, rfl⟩

theorem queueSupervisedGeneration_cases {expectedGeneration : Nat} {newSessionId : String}
    {sessionFile : Option String} {continuity : Continuity}
    (h : queueSupervisedGeneration host reads runId expectedGeneration newSessionId sessionFile
      continuity s = .ok (answer, s')) :
    s' = s ∨ ∃ run, Wrote host reads s s' run (supervisedGeneration (expectedGeneration + 1)
      newSessionId sessionFile continuity reads.now)
        ⟨some run.status, .status .queued, some (expectedGeneration + 1)⟩ := by
  rw [queueSupervisedGeneration] at h
  split at h
  · cases h
    exact .inl rfl
  rename_i run hget
  obtain rfl : run.id = runId := Table.key_of_get hget
  refine unless_refused h fun _ h => unless_refused h fun _ h => unless_refused h fun _ h => ?_
  obtain ⟨told, htold, h⟩ := map_eq_ok.1 h
  cases h
  exact .inr ⟨run, fun _ => by cases continuity <;> rfl, hget, _, _, htold, rfl, rfl, rfl, rfl⟩

/-- A resumption that finds the session lost writes that down, and tells nobody. -/
theorem queueResumeGeneration_cases {expectedGeneration : Nat} {newSessionId : String}
    (h : queueResumeGeneration host reads runId expectedGeneration newSessionId s =
      .ok (answer, s')) :
    s' = s ∨ ∃ run, s.runs.get run.id = some run ∧
      ((∃ capability, s' = s.write run.id fun run =>
          { run with resumeCapability := capability, updatedAt := reads.now }) ∨
        ∃ sessionId canonicalFile, Wrote host reads s s' run
          (resumedGeneration (expectedGeneration + 1) newSessionId sessionId canonicalFile reads.now)
            ⟨some run.status, .status .queued, some (expectedGeneration + 1)⟩) := by
  rw [queueResumeGeneration] at h
  split at h
  · cases h
    exact .inl rfl
  rename_i run hget
  obtain rfl : run.id = runId := Table.key_of_get hget
  refine unless_refused h fun _ h => unless_refused h fun _ h => unless_refused h fun _ h =>
    unless_refused h fun _ h => ?_
  refine .inr ⟨run, hget, ?_⟩
  split at h
  · cases h
    exact .inl ⟨_, rfl⟩
  obtain ⟨paired, hpaired, h⟩ := bind_eq_ok.1 h
  obtain ⟨told, htold, h⟩ := map_eq_ok.1 h
  cases h
  obtain ⟨hruns, houtbox, -⟩ := pairedCard_ok hpaired
  exact .inr ⟨_, _, fun _ => rfl, hget, _, _, htold, hruns, houtbox, rfl, rfl⟩

theorem interruptAtRestart_wrote (hget : s.runs.get run.id = some run)
    (h : interruptAtRestart host reads run s = .ok s') :
    Wrote host reads s s' run (restartedRun (reads.session run.piSessionId run.piSessionFile)
      reads.now) ⟨some run.status, .status .interrupted, none⟩ := by
  obtain ⟨paired, hpaired, h⟩ := bind_eq_ok.1 h
  obtain ⟨hruns, houtbox, -⟩ := pairedCard_ok hpaired
  exact ⟨fun _ => rfl, hget, _, _, h, hruns, houtbox, rfl, rfl⟩

/-- A run that was queued stays so; the card of any other was elsewhere, so that the savepoint takes
its row back, or it is interrupted. -/
theorem recoverPiRun_cases (hget : s.runs.get run.id = some run)
    (h : recoverPiRun host reads s run = .ok s') :
    s' = s ∨
      (run.status = .queued ∧ s' = s.write run.id
        (requeuedRun (reads.session run.piSessionId run.piSessionFile) reads.now)) ∨
      run.status ≠ .queued ∧
        Wrote host reads s s' run (restartedRun (reads.session run.piSessionId run.piSessionFile)
          reads.now) ⟨some run.status, .status .interrupted, none⟩ := by
  rw [recoverPiRun] at h
  split at h
  · rename_i hqueued
    cases h
    exact .inr (.inl ⟨hqueued, rfl⟩)
  rename_i hqueued
  split at h
  · exact .inr (.inr ⟨hqueued, fun _ => rfl, hget, _, _, h, rfl, rfl, rfl, rfl⟩)
  split at h
  · cases h
    exact .inl rfl
  · exact .inr (.inr ⟨hqueued, interruptAtRestart_wrote hget h⟩)

/-! ### What the events show of it -/

theorem mirrors_casTransition {fromStatuses : List PiRunStatus} {toStatus : PiRunStatus}
    {updates : RunUpdates} {expectedGeneration : Option Nat} {changed : Bool} (hs : Mirrors s)
    (h : casTransition host reads runId fromStatuses toStatus updates expectedGeneration s =
      .ok (changed, s')) : Mirrors s' := by
  rcases casTransition_cases h with rfl | ⟨run, hfrom, hwrote⟩
  · exact hs
  refine hwrote.mirrors hs rfl (.inl ⟨rfl, ?_⟩) (fun hquiet => ?_)
  · -- a bump names the generation that was written
    cases hgeneration : updates.executionGeneration with
    | none => simp [RunUpdates.bumpOf, hgeneration]
    | some generation =>
      by_cases hsame : generation = run.executionGeneration <;>
        simp [RunUpdates.bumpOf, RunUpdates.write, hgeneration, hsame]
  · -- no event: a single expected status that stays, and no other generation
    cases hsingle : singleStatus fromStatuses with
    | none =>
      rw [hsingle] at hquiet
      simp only [kindForTransition] at hquiet
      split at hquiet <;> simp at hquiet
    | some status =>
      rw [hsingle] at hquiet
      obtain ⟨hstatus, hbump⟩ := status_eq_of_silent hquiet
      have honly : fromStatuses = [status] := by
        cases fromStatuses with
        | nil => cases hsingle
        | cons first rest =>
          cases rest with
          | nil =>
            cases hsingle
            rfl
          | cons second rest => cases hsingle
      rw [honly] at hfrom
      refine ⟨(hstatus.symm.trans (List.mem_singleton.1 hfrom).symm), ?_⟩
      cases hgeneration : updates.executionGeneration with
      | none => simp [RunUpdates.write, hgeneration]
      | some generation =>
        simp only [RunUpdates.bumpOf, hgeneration, Option.filter_some] at hbump
        by_cases hsame : generation = run.executionGeneration
        · simp [RunUpdates.write, hgeneration, hsame]
        · simp [hsame] at hbump

theorem interrupted_tells {status : PiRunStatus} (hactive : status ∈ activeStatuses) :
    kindForTransition (some status) (.status .interrupted) false ≠ none := by
  intro hquiet
  have hsame := (status_eq_of_silent hquiet).1
  subst hsame
  simp [activeStatuses] at hactive

theorem mirrors_createPiCardAndRun {input : CreatePiRunInput} {cardId : Nat} (hs : Mirrors s)
    (h : createPiCardAndRun host reads input s = .ok (cardId, s')) : Mirrors s' := by
  rw [createPiCardAndRun] at h
  split at h
  · cases h
  split at h
  · rename_i board runs hboard hruns
    obtain ⟨accepted, haccepted, h⟩ := bind_eq_ok.1 h
    obtain ⟨queued, hqueued, h⟩ := bind_eq_ok.1 h
    split at h
    · cases h
    cases h
    have hget : runs.get input.runId = some (input.run s.nextCardId reads.now) :=
      Table.get_insert_new hruns
    have hmirrors : Mirrors accepted := by
      refine mirrors_of_emit hget (.inr ⟨rfl, rfl⟩) (fun other hother hid hdelegated => ?_)
        (fun hquiet => by cases hquiet) haccepted
      rcases (Table.mem_insert hruns).1 hother with hold | rfl
      · exact hs other hold hdelegated
      · exact absurd rfl hid
    have hkept : accepted.runs = runs := (emitInTx_frame haccepted).1
    rw [← hkept] at hget
    exact mirrors_of_emit hget (.inl ⟨rfl, rfl⟩)
      (fun other hother _ hdelegated => hmirrors other hother hdelegated)
      (fun hquiet => by cases hquiet) hqueued
  · cases h

theorem interruptAtRestart_others (hne : other ≠ run.id)
    (h : interruptAtRestart host reads run s = .ok s') : s'.runs.get other = s.runs.get other := by
  obtain ⟨paired, hpaired, h⟩ := bind_eq_ok.1 h
  rw [(emitInTx_frame h).1]
  change paired.runs.get other = _
  rw [(pairedCard_ok hpaired).1]
  exact get_write_of_ne hne

theorem recoverPiRun_others (hne : other ≠ run.id) (h : recoverPiRun host reads s run = .ok s') :
    s'.runs.get other = s.runs.get other := by
  rw [recoverPiRun] at h
  split at h
  · cases h
    exact get_write_of_ne hne
  split at h
  · rw [(emitInTx_frame h).1]
    change (s.write run.id (restartedRun (reads.session run.piSessionId run.piSessionFile)
      reads.now)).runs.get other = _
    exact get_write_of_ne hne
  split at h
  · cases h
    rfl
  · exact interruptAtRestart_others hne h

theorem mirrors_recoverPiRun (hs : Mirrors s) (hget : s.runs.get run.id = some run)
    (hlive : run.status.isTerminal = false ∧ run.status ≠ .interrupted)
    (h : recoverPiRun host reads s run = .ok s') : Mirrors s' := by
  rcases recoverPiRun_cases hget h with rfl | ⟨-, rfl⟩ | ⟨hqueued, hwrote⟩
  · exact hs
  · exact mirrors_write hs hget rfl rfl rfl rfl rfl
  have hactive : run.status ∈ activeStatuses := by
    cases hstatus : run.status <;> simp_all [activeStatuses, PiRunStatus.isTerminal]
  exact hwrote.mirrors hs rfl (.inl ⟨rfl, rfl⟩)
    fun hquiet => absurd hquiet (interrupted_tells hactive)

/-- What the recovery of each row keeps, when it takes the row as it finds it, the recovery of
all keeps: each row is taken once. -/
theorem recover_induction {I : PiRunStore → Prop}
    (hrow : ∀ s s' run, I s → s.runs.get run.id = some run →
      run.status.isTerminal = false ∧ run.status ≠ .interrupted →
        recoverPiRun host reads s run = .ok s' → I s') (runs : List PiRun) :
    ∀ s, I s → (runs.map (·.id)).Nodup →
      (∀ run ∈ runs, s.runs.get run.id = some run ∧
        run.status.isTerminal = false ∧ run.status ≠ .interrupted) →
      ∀ s', runs.foldlM (recoverPiRun host reads) s = .ok s' → I s' := by
  induction runs with
  | nil =>
    intro s hs _ _ s' h
    cases h
    exact hs
  | cons run rest ih =>
    intro s hs hnodup hrows s' h
    rw [List.map_cons, List.nodup_cons] at hnodup
    obtain ⟨next, hnext, h⟩ := bind_eq_ok.1 h
    obtain ⟨hget, hlive⟩ := hrows run List.mem_cons_self
    refine ih next (hrow s next run hs hget hlive hnext) hnodup.2 (fun other hother => ?_) s' h
    have hne : other.id ≠ run.id := fun heq => hnodup.1 (heq ▸ List.mem_map_of_mem hother)
    rw [recoverPiRun_others hne hnext]
    exact hrows other (List.mem_cons_of_mem run hother)

theorem recoverNonterminal_keeps {I : PiRunStore → Prop} {answer : Unit}
    (hrow : ∀ s s' run, I s → s.runs.get run.id = some run →
      run.status.isTerminal = false ∧ run.status ≠ .interrupted →
        recoverPiRun host reads s run = .ok s' → I s') (hs : I s)
    (h : recoverNonterminal host reads s = .ok (answer, s')) : I s' := by
  obtain ⟨recovered, hrecovered, h⟩ := map_eq_ok.1 h
  cases h
  refine recover_induction hrow (nonterminalRuns s) s hs ?_ (fun run hrun => ?_) _ hrecovered
  · exact (List.filter_sublist.map _).nodup s.runs.keys_nodup
  · obtain ⟨hmem, hlive⟩ := (Table.mem_select _ _ _).1 hrun
    refine ⟨Table.get_key_of_mem hmem, ?_⟩
    simpa using hlive

theorem mirrors_recoverNonterminal {answer : Unit} (hs : Mirrors s)
    (h : recoverNonterminal host reads s = .ok (answer, s')) : Mirrors s' :=
  recoverNonterminal_keeps (fun _ _ _ hs hget hlive h => mirrors_recoverPiRun hs hget hlive h) hs h

end Calls

/-! ## Calls that may not -/

/-- A call of the store, in the state it is made in, tells the producer of each status it
writes: no workspace is released for a later start of a run that is starting, no start that
gets its workspace finds the card elsewhere, and the event of a pending request can be appended. -/
def TellsOrigin (s : PiRunStore) (call : PiReads × PiOp) : Prop :=
  match call.2 with
  | .claimUi runId generation requestId =>
    ∀ run ∈ s.runs.get runId, run.IsDelegated →
      (claimableUi run generation requestId).isSome →
        CanTell call.1 s.outbox (claimedUi generation requestId call.1.now run)
  | .restoreUi runId generation requestId requestType =>
    ∀ run ∈ s.runs.get runId, run.IsDelegated → run.isRestorable generation requestId = true →
      CanTell call.1 s.outbox
        { awaitingUi requestId requestType call.1.now run with lastUiReplyOutcome := none }
  | .setUi runId generation requestId requestType =>
    ∀ run ∈ s.runs.get runId, run.IsDelegated → uiSetRefusal run generation requestId = none →
      CanTell call.1 s.outbox (awaitingUi requestId requestType call.1.now run)
  | .release canonicalPath runId generation restoreQueued =>
    ∀ run ∈ s.runs.get runId, run.IsDelegated →
      ¬ (restoreQueued = true ∧ run.executionGeneration = generation ∧ run.status = .starting ∧
        (releaseExact canonicalPath runId generation s.claims).1 = true)
  | .start cardId canonicalPath =>
    ∀ run ∈ queuedRun s cardId, run.IsDelegated →
      (tryAcquireInTx ⟨canonicalPath, run.id, run.executionGeneration, .standalone⟩
        s.claims).1 = .claimed →
      CanTell call.1 s.outbox (withStatus .starting call.1.now run) →
        (s.db.kanbanBoard.get cardId).map (·.status) = some .queued
  | _ => True

/-- What a call owes the origin: the last event of every delegated run describes it, and a call
that throws leaves the rows as they were. -/
def KeepsOrigin (host : PiHost) (s : PiRunStore) (call : PiReads × PiOp) : Prop :=
  Mirrors (piStep host s call) ∧
    ∀ e, (piCall host call.1 s call.2).1 = .error e → (piStep host s call).runs = s.runs

section Untold

variable {f : PiRun → PiRun} {generation : Nat} {requestId : String}
  {requestType : PendingInputType}

variable (host : PiHost) (reads : PiReads) {runId : String} {s : PiRunStore} {run : PiRun}

theorem not_mirrors_write {s₁ : PiRunStore}
    {hf : ∀ run, (f run).id = run.id} (hs : Mirrors s) (hget : s.runs.get runId = some run)
    (hdelegated : run.IsDelegated) (hruns : s₁.runs = (s.write runId f hf).runs)
    (houtbox : s₁.outbox = s.outbox) (hpeer : (f run).originPeer = run.originPeer)
    (hstatus : (f run).status ≠ run.status) : ¬ Mirrors s₁ := by
  intro hmirrors
  have hwritten : s₁.runs.get runId = some (f run) := by
    rw [hruns]
    exact get_write hget
  have hstill : (f run).IsDelegated := by
    rw [PiRunRecord.IsDelegated, hpeer]
    exact hdelegated
  obtain ⟨event, hevent, htold, -⟩ := hs run (Table.mem_of_get hget) hdelegated
  obtain ⟨event', hevent', htold', -⟩ := hmirrors (f run) (Table.mem_of_get hwritten) hstill
  rw [houtbox, hf run, hevent] at hevent'
  cases hevent'
  exact hstatus (htold'.symm.trans htold)

variable {α : Type} {op : PiOp}

/-- An update told outside of a transaction is mirrored, and its rows are kept when it throws,
exactly when the event of a delegated run can be appended. -/
theorem tellUpdate_keeps_iff (value : α) (hf : ∀ run, (f run).id = run.id) (hs : Mirrors s)
    (hget : s.runs.get runId = some run) (hpeer : (f run).originPeer = run.originPeer)
    (hstatus : (f run).status ≠ run.status) :
    (Mirrors (tellUpdate host reads runId ⟨some run.status, .status (f run).status, none⟩ value
        (s.write runId f hf)).2 ∧
      ∀ e, (tellUpdate host reads runId ⟨some run.status, .status (f run).status, none⟩ value
          (s.write runId f hf)).1 = .error e →
        (tellUpdate host reads runId ⟨some run.status, .status (f run).status, none⟩ value
          (s.write runId f hf)).2.runs = s.runs) ↔
      (run.IsDelegated → CanTell reads s.outbox (f run)) := by
  have hwritten : (s.write runId f hf).runs.get runId = some (f run) := get_write hget
  have hloud : kindForTransition (some run.status) (.status (f run).status) false ≠ none :=
    fun hquiet => hstatus (status_eq_of_silent hquiet).1.symm
  have hdelegation : (f run).IsDelegated ↔ run.IsDelegated := by
    rw [PiRunRecord.IsDelegated, PiRunRecord.IsDelegated, hpeer]
  have hthrows : run.IsDelegated →
      ((∃ e, emitInTx host reads runId ⟨some run.status, .status (f run).status, none⟩
        (s.write runId f hf) = .error e) ↔ ¬ CanTell reads s.outbox (f run)) :=
    fun hdelegated => emitInTx_throws_iff hwritten (hdelegation.2 hdelegated) rfl hloud
  rw [tellUpdate]
  cases htell : emitInTx host reads runId ⟨some run.status, .status (f run).status, none⟩
      (s.write runId f hf) with
  | error e =>
    have hdelegated : run.IsDelegated := by
      by_contra hplain
      rw [emitInTx, hwritten] at htell
      have hnone : (nonEmpty (f run).originPeer).isNone = true := by
        rw [← hdelegation, PiRunRecord.IsDelegated] at hplain
        simpa using hplain
      simp [hnone] at htell
    have hcannot := (hthrows hdelegated).1 ⟨e, htell⟩
    refine iff_of_false (fun hkept => ?_) (fun hcan => hcannot (hcan hdelegated))
    -- the update stays although the call throws
    have hrow := hkept.2 e rfl
    rw [hrow, hget] at hwritten
    exact hstatus (congrArg (·.status) (Option.some.inj hwritten)).symm
  | ok told =>
    refine iff_of_true ⟨?_, fun e he => by cases he⟩ fun hdelegated => ?_
    · exact mirrors_write_emit hs hget rfl rfl hpeer (.inl ⟨rfl, rfl⟩)
        (fun hquiet => absurd hquiet hloud) htell
    by_contra hcannot
    obtain ⟨e, he⟩ := (hthrows hdelegated).2 hcannot
    rw [htell] at he
    cases he

variable {host reads}

theorem keeps_of_unchanged (hs : Mirrors s) (hcall : piCall host reads s op = (.ok (), s)) :
    KeepsOrigin host s (reads, op) := by
  rw [KeepsOrigin, piStep, hcall]
  exact ⟨hs, fun e he => by cases he⟩

theorem keeps_tell_iff {value : α} {fromStatus toStatus : PiRunStatus}
    {hf : ∀ run, (f run).id = run.id}
    (hcall : piCall host reads s op =
      ((tellUpdate host reads runId ⟨some fromStatus, .status toStatus, none⟩ value
        (s.write runId f hf)).1.map fun _ => (),
        (tellUpdate host reads runId ⟨some fromStatus, .status toStatus, none⟩ value
          (s.write runId f hf)).2)) (hs : Mirrors s) (hget : s.runs.get runId = some run)
    (hpeer : (f run).originPeer = run.originPeer) (hfrom : run.status = fromStatus)
    (hto : (f run).status = toStatus) (hne : toStatus ≠ fromStatus) :
    KeepsOrigin host s (reads, op) ↔ (run.IsDelegated → CanTell reads s.outbox (f run)) := by
  subst hfrom hto
  rw [← tellUpdate_keeps_iff host reads value hf hs hget hpeer hne, KeepsOrigin, piStep, hcall]
  refine and_congr Iff.rfl (forall_congr' fun e => ?_)
  cases (tellUpdate host reads runId _ value (s.write runId f hf)).1 <;> simp [Except.map]

theorem claimPendingUi_eq (hget : s.runs.get runId = some run)
    (hclaim : claimableUi run generation requestId = some requestType) :
    claimPendingUi host reads runId generation requestId s =
      tellUpdate host reads runId ⟨some .awaitingInput, .status .running, none⟩
        (.claimed requestType) (s.write runId (claimedUi generation requestId reads.now)) := by
  simp only [claimPendingUi, hget, hclaim]

theorem restorePendingUi_eq {generation : Nat} {requestId : String} {requestType : PendingInputType}
    (hget : s.runs.get runId = some run) (hrestorable : run.isRestorable generation requestId = true) :
    restorePendingUi host reads runId generation requestId requestType s =
      tellUpdate host reads runId ⟨some .running, .status .awaitingInput, none⟩ true
        (s.write runId fun run =>
          { awaitingUi requestId requestType reads.now run with lastUiReplyOutcome := none }) := by
  simp only [restorePendingUi, hget, hrestorable, if_true]

theorem setPendingUi_eq
    (hget : s.runs.get runId = some run) (hrefusal : uiSetRefusal run generation requestId = none) :
    setPendingUi host reads runId generation requestId requestType s =
      tellUpdate host reads runId ⟨some .running, .status .awaitingInput, none⟩ .ok
        (s.write runId (awaitingUi requestId requestType reads.now)) := by
  simp only [setPendingUi, hget, hrefusal]

/-- A call about a request that tells of what it writes where the run lets it, and does nothing
elsewhere. -/
theorem ui_keeps_iff (fromStatus : PiRunStatus) {toStatus : PiRunStatus} {p : PiRun → Prop}
    (hs : Mirrors s) (hf : ∀ run, (f run).id = run.id)
    (hpeer : ∀ run, (f run).originPeer = run.originPeer) (hto : ∀ run, (f run).status = toStatus)
    (hfrom : ∀ run, p run → run.status = fromStatus)
    (hquiet : (∀ run ∈ s.runs.get runId, ¬ p run) → piCall host reads s op = (.ok (), s))
    (hcall : ∀ run ∈ s.runs.get runId, p run → ∃ value : α, piCall host reads s op =
      ((tellUpdate host reads runId ⟨some fromStatus, .status toStatus, none⟩ value
        (s.write runId f hf)).1.map fun _ => (),
        (tellUpdate host reads runId ⟨some fromStatus, .status toStatus, none⟩ value
          (s.write runId f hf)).2)) (hne : toStatus ≠ fromStatus) :
    KeepsOrigin host s (reads, op) ↔
      ∀ run ∈ s.runs.get runId, run.IsDelegated → p run → CanTell reads s.outbox (f run) := by
  by_cases hsome : ∃ run ∈ s.runs.get runId, p run
  · obtain ⟨run, hget, hrun⟩ := hsome
    obtain ⟨value, hvalue⟩ := hcall run hget hrun
    rw [keeps_tell_iff hvalue hs hget (hpeer run) (hfrom run hrun) (hto run) hne]
    constructor
    · intro h other hother hdelegated _
      obtain rfl : run = other := Option.some.inj (hget.symm.trans hother)
      exact h hdelegated
    · exact fun h hdelegated => h run hget hdelegated hrun
  · push Not at hsome
    exact iff_of_true (keeps_of_unchanged hs (hquiet hsome))
      fun run hget _ hrun => absurd hrun (hsome run hget)

theorem claimUi_keeps_iff (hs : Mirrors s) :
    KeepsOrigin host s (reads, .claimUi runId generation requestId) ↔
      TellsOrigin s (reads, .claimUi runId generation requestId) := by
  refine ui_keeps_iff (α := PendingUiClaim) .awaitingInput hs (fun _ => rfl) (fun _ => rfl)
    (fun _ => rfl) (fun run hsome => ?_) (fun hnone => ?_) (fun run hget hsome => ?_)
    (by decide)
  · unfold claimableUi at hsome
    split at hsome
    · rename_i hguard
      exact hguard.2.1
    · cases hsome
  · cases hget : s.runs.get runId with
    | none => simp [piCall, claimPendingUi, hget, Except.map]
    | some run =>
      have hclaim : claimableUi run generation requestId = none := by simpa using hnone run hget
      simp [piCall, claimPendingUi, hget, hclaim, Except.map]
  · obtain ⟨requestType, hclaim⟩ := Option.isSome_iff_exists.1 hsome
    exact ⟨.claimed requestType, by simp only [piCall, claimPendingUi_eq hget hclaim]⟩

theorem restoreUi_keeps_iff (hs : Mirrors s) :
    KeepsOrigin host s (reads, .restoreUi runId generation requestId requestType) ↔
      TellsOrigin s (reads, .restoreUi runId generation requestId requestType) := by
  refine ui_keeps_iff (α := Bool) .running hs (fun _ => rfl) (fun _ => rfl)
    (fun _ => rfl) (fun run hrestorable => ?_) (fun hnone => ?_) (fun run hget hrestorable => ?_)
    (by decide)
  · simp only [PiRun.isRestorable, decide_eq_true_eq] at hrestorable
    exact hrestorable.2.1
  · cases hget : s.runs.get runId with
    | none => simp [piCall, restorePendingUi, hget, Except.map]
    | some run => simp [piCall, restorePendingUi, hget, hnone run hget, Except.map]
  · exact ⟨true, by simp only [piCall, restorePendingUi_eq hget hrestorable]⟩

theorem setUi_keeps_iff (hs : Mirrors s) :
    KeepsOrigin host s (reads, .setUi runId generation requestId requestType) ↔
      TellsOrigin s (reads, .setUi runId generation requestId requestType) := by
  refine ui_keeps_iff (α := PendingUiSetResult) .running hs (fun _ => rfl) (fun _ => rfl)
    (fun _ => rfl) (fun run hrefusal => ?_) (fun hsome => ?_) (fun run hget hrefusal => ?_)
    (by decide)
  · rw [uiSetRefusal] at hrefusal
    split_ifs at hrefusal with _ _ _ hstatus
    exact not_not.1 hstatus
  · cases hget : s.runs.get runId with
    | none => simp [piCall, setPendingUi, hget, Except.map]
    | some run =>
      obtain ⟨reason, hrefusal⟩ := Option.ne_none_iff_exists'.1 (hsome run hget)
      simp [piCall, setPendingUi, hget, hrefusal, Except.map]
  · exact ⟨.ok, by simp only [piCall, setPendingUi_eq hget hrefusal]⟩

theorem release_keeps_iff {canonicalPath : String} {restoreQueued : Bool} (hs : Mirrors s) :
    KeepsOrigin host s (reads, .release canonicalPath runId generation restoreQueued) ↔
      TellsOrigin s (reads, .release canonicalPath runId generation restoreQueued) := by
  have hquiet : KeepsOrigin host s (reads, .release canonicalPath runId generation restoreQueued) ↔
      Mirrors (releaseWorkspaceClaim reads canonicalPath runId generation restoreQueued s).2 :=
    and_iff_left fun e he => by cases he
  rw [hquiet, TellsOrigin, releaseWorkspaceClaim]
  cases hrelease : releaseExact canonicalPath runId generation s.claims with
  | mk released claims =>
    cases released with
    | false => exact iff_of_true hs fun run _ _ hbad => by simp [hrelease] at hbad
    | true =>
      cases hget : s.runs.get runId with
      | none =>
        simp only [hget]
        exact iff_of_true (mirrors_congr hs rfl rfl) fun run hrun => by simp at hrun
      | some run =>
        simp only [hget]
        split
        · rename_i hrestored
          by_cases hdelegated : run.IsDelegated
          · refine iff_of_false ?_ fun hall => ?_
            · exact not_mirrors_write hs hget hdelegated rfl rfl rfl
                (by rw [hrestored.2.2]; exact (by decide : PiRunStatus.queued ≠ .starting))
            · exact hall run rfl hdelegated
                ⟨hrestored.1, hrestored.2.1, hrestored.2.2, by rw [hrelease]⟩
          refine iff_of_true (mirrors_write_plain hs hget hdelegated rfl rfl rfl)
            fun other hother hd => ?_
          cases hother
          exact absurd hd hdelegated
        · rename_i hkept
          refine iff_of_true (mirrors_congr hs rfl rfl) fun other hother _ hbad => ?_
          cases hother
          exact hkept ⟨hbad.1, hbad.2.1, hbad.2.2.1⟩

variable (host reads)

theorem cardTransition_start (s : PiRunStore) (cardId : Nat) (reason : String)
    (attempt : Option (String × Nat)) :
    ∃ outcome s', cardTransition host reads
        (piCardRequest cardId [.queued] .running .piRunDispatch reason attempt []) s =
          .ok (outcome, s') ∧
      (outcome.isApplied = true ↔
        (s.db.kanbanBoard.get cardId).map (·.status) = some .queued) := by
  have hdeclared : declarationError
      (piCardRequest cardId [.queued] .running .piRunDispatch reason attempt []) = none := rfl
  simp only [cardTransition, kanbanTransition, hdeclared]
  refine ⟨_, _, rfl, ?_⟩
  simp only [transitionInTransaction, piCardRequest]
  cases hcard : s.db.kanbanBoard.get cardId with
  | none => simp [TransitionOutcome.isApplied]
  | some card =>
    cases hstatus : card.status <;>
      simp [extraHolds, hstatus, TransitionOutcome.isApplied]

theorem claimWorkspace_cases {generation : Nat} (canonicalPath : String)
    (ownerKind : ClaimOwnerKind) (hget : s.runs.get runId = some run)
    (hqueued : run.status = .queued) (hgeneration : run.executionGeneration = generation) :
    ((tryAcquireInTx ⟨canonicalPath, runId, generation, ownerKind⟩ s.claims).1 ≠ .claimed ∧
        ∃ answer, answer ≠ .claimed ∧
          claimWorkspaceForStartInTx host reads runId generation canonicalPath ownerKind s =
            .ok (answer, s)) ∨
      ∃ claims, (tryAcquireInTx ⟨canonicalPath, runId, generation, ownerKind⟩ s.claims) =
          (.claimed, claims) ∧
        claimWorkspaceForStartInTx host reads runId generation canonicalPath ownerKind s =
          (emitInTx host reads runId ⟨some .queued, .status .starting, none⟩
            ({ s with claims }.write runId (withStatus .starting reads.now))).map fun told =>
              (.claimed, told) := by
  rw [claimWorkspaceForStartInTx, hget]
  simp only [hgeneration, hqueued, ne_eq, not_true_eq_false, if_false, false_and]
  cases hacquire : tryAcquireInTx ⟨canonicalPath, runId, generation, ownerKind⟩ s.claims with
  | mk answer claims =>
    cases answer with
    | claimed => exact .inr ⟨claims, rfl, rfl⟩
    | idempotent => exact .inl ⟨by simp, .idempotent, by simp, rfl⟩
    | busy holder => exact .inl ⟨by simp, .busy holder, by simp, rfl⟩

theorem queuedRun_spec {cardId : Nat} (h : queuedRun s cardId = some run) :
    s.runs.get run.id = some run ∧ run.cardId = cardId ∧ run.status = .queued := by
  have hmem := List.mem_of_find?_eq_some h
  have hfound := List.find?_some h
  simp only [decide_eq_true_eq] at hfound
  exact ⟨Table.get_key_of_mem hmem, hfound⟩

theorem mismatch_frame (s : PiRunStore) (canonicalPath runId : String) (generation : Nat) :
    ∃ claims, (releaseWorkspaceClaim reads canonicalPath runId generation false s).2 =
      { s with claims } := by
  rw [releaseWorkspaceClaim]
  cases releaseExact canonicalPath runId generation s.claims with
  | mk released claims =>
    cases released with
    | false => exact ⟨s.claims, rfl⟩
    | true =>
      cases hget : s.runs.get runId with
      | none => exact ⟨claims, by simp⟩
      | some run => exact ⟨claims, by simp⟩

theorem startCard_ok (s : PiRunStore) (run : PiRun) (canonicalPath : String) :
    ∃ answer s', startCard host reads run canonicalPath s = .ok (answer, s') ∧
      s'.outbox = s.outbox ∧
      (((s.db.kanbanBoard.get run.cardId).map (·.status) = some .queued ∧ s'.runs = s.runs) ∨
        ((s.db.kanbanBoard.get run.cardId).map (·.status) ≠ some .queued ∧
          s'.runs = (s.write run.id (withStatus .queued reads.now)).runs)) := by
  obtain ⟨outcome, moved, hmoved, happlied⟩ := cardTransition_start host reads s
    run.cardId "pi dispatch claim" (some (run.id, run.executionGeneration))
  obtain ⟨hruns, houtbox, -⟩ := cardTransition_ok hmoved
  rw [startCard, hmoved]
  simp only [Except.bind]
  split
  · rename_i hyes
    exact ⟨_, _, rfl, houtbox, .inl ⟨happlied.1 hyes, hruns⟩⟩
  rename_i hno
  obtain ⟨claims, hclaims⟩ := mismatch_frame reads moved canonicalPath run.id
    run.executionGeneration
  refine ⟨_, _, rfl, ?_, .inr ⟨fun hqueued => hno (happlied.2 hqueued), ?_⟩⟩
  · rw [hclaims]
    exact houtbox
  · rw [hclaims]
    simp only [PiRunStore.write, hruns]

variable {host reads}

theorem keeps_transaction_iff {body : Body PiRunStore PiStoreError α} (hs : Mirrors s)
    (hcall : piCall host reads s op = transactionOf body s) :
    KeepsOrigin host s (reads, op) ↔ ∀ answer s', body s = .ok (answer, s') → Mirrors s' := by
  rw [KeepsOrigin, piStep, hcall, transactionOf, transaction]
  cases hbody : body s with
  | ok result =>
    constructor
    · rintro ⟨hmirrors, -⟩ answer s' h
      cases h
      exact hmirrors
    · intro h
      exact ⟨h result.1 result.2 rfl, fun e he => by cases he⟩
  | error e =>
    refine iff_of_true ?_ fun answer s' h => by cases h
    cases e <;> exact ⟨hs, fun _ _ => rfl⟩

theorem start_keeps_iff {cardId : Nat} {canonicalPath : String} (hs : Mirrors s) :
    KeepsOrigin host s (reads, .start cardId canonicalPath) ↔
      TellsOrigin s (reads, .start cardId canonicalPath) := by
  rw [keeps_transaction_iff hs rfl]
  cases hrun : queuedRun s cardId with
  | none =>
    refine iff_of_true (fun answer s' h => ?_) fun run hbad => by simp [hrun] at hbad
    rw [claimQueuedGeneration, hrun] at h
    cases h
    exact hs
  | some run =>
    obtain ⟨hget, hcard, hqueued⟩ := queuedRun_spec hrun
    rcases claimWorkspace_cases host reads canonicalPath .standalone hget hqueued rfl with
      ⟨hunclaimed, claim, hclaim, hanswer⟩ | ⟨claims, hacquire, hanswer⟩
    · -- the workspace was not taken by this call: the row stays queued
      refine iff_of_true (fun answer s' h => ?_) fun other hother _ hclaimed => ?_
      · rw [claimQueuedGeneration, hrun] at h
        simp only [hanswer, Except.bind] at h
        cases claim with
        | claimed => exact absurd rfl hclaim
        | busy holder =>
          cases h
          exact hs
        | stale reason =>
          cases h
          exact hs
        | idempotent =>
          obtain ⟨answer', s'', hstart, houtbox, hruns⟩ := startCard_ok host reads s run
            canonicalPath
          have hsame := hstart.symm.trans h
          cases hsame
          rcases hruns with ⟨-, hruns⟩ | ⟨-, hruns⟩
          · exact mirrors_congr hs hruns houtbox
          · exact mirrors_write hs hget hruns houtbox rfl hqueued.symm rfl
      · cases hrun.symm.trans hother
        exact absurd hclaimed hunclaimed
    · -- the workspace is taken: the run starts, unless its event is refused
      have hloud : kindForTransition (some .queued) (.status .starting) false ≠ none := by decide
      have hstarting : ({ s with claims }.write run.id (withStatus .starting reads.now)).runs.get
          run.id = some (withStatus .starting reads.now run) := get_write hget
      have hwrite : ({ s with claims }.write run.id (withStatus .starting reads.now)).runs =
          (s.write run.id (withStatus .starting reads.now)).runs := rfl
      have hthrows : run.IsDelegated →
          ((∃ e, emitInTx host reads run.id ⟨some .queued, .status .starting, none⟩
            ({ s with claims }.write run.id (withStatus .starting reads.now)) = .error e) ↔
              ¬ CanTell reads s.outbox (withStatus .starting reads.now run)) :=
        fun hdelegated => emitInTx_throws_iff hstarting hdelegated rfl hloud
      cases htell : emitInTx host reads run.id ⟨some .queued, .status .starting, none⟩
          ({ s with claims }.write run.id (withStatus .starting reads.now)) with
      | error e =>
        refine iff_of_true (fun answer s' h => ?_) fun other hother hdelegated _ hcan => ?_
        · rw [claimQueuedGeneration, hrun] at h
          simp only [hanswer, htell, Except.bind, Except.map] at h
          cases h
        · cases hrun.symm.trans hother
          exact absurd hcan ((hthrows hdelegated).1 ⟨e, htell⟩)
      | ok told =>
        have hmirrors : Mirrors told :=
          mirrors_write_emit hs hget hwrite rfl rfl (.inl ⟨rfl, rfl⟩)
            (fun hquiet => absurd hquiet hloud) htell
        have hcan : run.IsDelegated →
            CanTell reads s.outbox (withStatus .starting reads.now run) := by
          intro hdelegated
          by_contra hcannot
          obtain ⟨e, he⟩ := (hthrows hdelegated).2 hcannot
          rw [htell] at he
          cases he
        obtain ⟨htoldRuns, -, htoldDb⟩ := emitInTx_frame htell
        have hheld : told.runs.get run.id = some (withStatus .starting reads.now run) := by
          rw [htoldRuns]
          exact hstarting
        obtain ⟨answer, s', hstart, houtbox, hruns⟩ := startCard_ok host reads told run
          canonicalPath
        have hresult : claimQueuedGeneration host reads cardId canonicalPath s =
            .ok (answer, s') := by
          rw [claimQueuedGeneration, hrun]
          simp only [hanswer, htell, Except.bind, Except.map]
          exact hstart
        have hdb : told.db.kanbanBoard = s.db.kanbanBoard := by
          rw [htoldDb]
          rfl
        rw [hdb, hcard] at hruns
        simp only [hresult, Except.ok.injEq, Prod.mk.injEq, and_imp, forall_eq',
          forall_apply_eq_imp_iff]
        rcases hruns with ⟨hmoved, hruns⟩ | ⟨hmissed, hruns⟩
        · exact iff_of_true (mirrors_congr hmirrors hruns houtbox) fun _ _ _ _ _ => hmoved
        by_cases hdelegated : run.IsDelegated
        · refine iff_of_false ?_ fun hall => ?_
          · exact not_mirrors_write hmirrors hheld hdelegated hruns houtbox rfl
              (by simp [withStatus])
          · refine hmissed (hall run hrun hdelegated ?_ (hcan hdelegated))
            rw [hacquire]
        refine iff_of_true
          (mirrors_write_plain hmirrors hheld hdelegated hruns houtbox rfl)
          fun other hother hd => ?_
        cases hrun.symm.trans hother
        exact absurd hd hdelegated

theorem keeps_iff_tells (hs : Mirrors s) (op : PiOp) :
    KeepsOrigin host s (reads, op) ↔ TellsOrigin s (reads, op) := by
  cases op with
  | create input =>
    rw [keeps_transaction_iff hs rfl]
    exact iff_of_true (fun _ _ h => mirrors_createPiCardAndRun hs h) trivial
  | cas runId fromStatuses toStatus updates expectedGeneration =>
    rw [keeps_transaction_iff hs rfl]
    exact iff_of_true (fun _ _ h => mirrors_casTransition hs h) trivial
  | settle runId generation expectedStatuses outcome metadata =>
    rw [keeps_transaction_iff hs rfl]
    refine iff_of_true (fun _ _ h => ?_) trivial
    rcases settleTerminal_cases h with rfl | ⟨run, hwrote⟩
    · exact hs
    · exact hwrote.mirrors hs rfl (.inl ⟨rfl, rfl⟩)
        fun hquiet => ⟨(status_eq_of_silent hquiet).1.symm, rfl⟩
  | interrupt runId generation continuity =>
    rw [keeps_transaction_iff hs rfl]
    refine iff_of_true (fun _ _ h => ?_) trivial
    rcases interruptGeneration_cases h with rfl | ⟨run, hactive, hwrote⟩
    · exact hs
    · exact hwrote.mirrors hs rfl (.inl ⟨rfl, rfl⟩)
        fun hquiet => absurd hquiet (interrupted_tells hactive)
  | queueSupervised runId expectedGeneration newSessionId sessionFile continuity =>
    rw [keeps_transaction_iff hs rfl]
    refine iff_of_true (fun _ _ h => ?_) trivial
    rcases queueSupervisedGeneration_cases h with rfl | ⟨run, hwrote⟩
    · exact hs
    · cases continuity <;>
        exact hwrote.mirrors hs rfl
          (.inl ⟨rfl, by simp [supervisedGeneration, nextGeneration]⟩) fun hquiet => by cases hquiet
  | queueResume runId expectedGeneration newSessionId =>
    rw [keeps_transaction_iff hs rfl]
    refine iff_of_true (fun _ _ h => ?_) trivial
    rcases queueResumeGeneration_cases h with rfl | ⟨run, hget, ⟨_, rfl⟩ | ⟨_, _, hwrote⟩⟩
    · exact hs
    · exact mirrors_write hs hget rfl rfl rfl rfl rfl
    · exact hwrote.mirrors hs rfl (.inl ⟨rfl, by simp [resumedGeneration, nextGeneration]⟩)
        fun hquiet => by cases hquiet
  | claimUi runId generation requestId => exact claimUi_keeps_iff hs
  | restoreUi runId generation requestId requestType => exact restoreUi_keeps_iff hs
  | setUi runId generation requestId requestType => exact setUi_keeps_iff hs
  | release canonicalPath runId generation restoreQueued => exact release_keeps_iff hs
  | start cardId canonicalPath => exact start_keeps_iff hs
  | recover =>
    rw [keeps_transaction_iff hs rfl]
    exact iff_of_true (fun _ _ h => mirrors_recoverNonterminal hs h) trivial
  | recordUi runId generation requestId =>
    refine iff_of_true ⟨?_, fun e he => by cases he⟩ trivial
    change Mirrors (recordUiReplyOutcome reads runId generation requestId s).2
    rw [recordUiReplyOutcome]
    split
    · exact hs
    rename_i run hget
    split
    · exact mirrors_write hs hget rfl rfl rfl rfl rfl
    · exact hs
  | others db claims =>
    exact iff_of_true ⟨mirrors_congr hs rfl rfl, fun e he => by cases he⟩ trivial

end Untold

def PiRunStore.fresh (db : Db) (claims : Table WorkspaceClaim) (nextCardId : Nat) : PiRunStore :=
  ⟨∅, claims, ∅, db, nextCardId⟩

/-- In every run of the store, after each call the last event of every delegated run describes
its status and generation and a call that throws has left the rows as they were, exactly when
every call tells the producer of each status it writes. -/
theorem run_events_mirror_iff (host : PiHost) (db : Db) (claims : Table WorkspaceClaim)
    (nextCardId : Nat) (calls : List (PiReads × PiOp)) :
    StepsMeet (piStep host) (KeepsOrigin host) (.fresh db claims nextCardId) calls ↔
      StepsMeet (piStep host) TellsOrigin (.fresh db claims nextCardId) calls := by
  refine stepsMeet_iff_of_kept (I := Mirrors) (fun s call _ hkept => hkept.1)
    (fun s call hs => keeps_iff_tells hs call.2) calls _ fun run hrun => ?_
  exact absurd hrun (Table.not_mem_empty run)

def plainPiHost : PiHost := ⟨fun _ => "sha256:", id⟩

def plainPiReads : PiReads :=
  ⟨delegatedReads, "2026-01-01 00:00:00", 0, fun _ _ => .ok "session" "file", false⟩

def delegatedInput : CreatePiRunInput where
  runId := "run"
  sessionId := "s"
  title := "fix"
  priority := none
  origin := .peer
  originChatId := none
  originPeer := some "peer"
  originRequestId := some "request"
  deliveryPolicy := none
  modelProvider := none
  modelId := none
  thinking := none
  idempotency := none

def requeuedCalls : List (PiReads × PiOp) :=
  [(plainPiReads, .create delegatedInput), (plainPiReads, .start 1 "/w"),
    (plainPiReads, .release "/w" "run" 1 true)]

/-- The run is queued again, and the last its origin hears is that it starts. -/
theorem requeued_run_untold :
    ¬ ∀ (host : PiHost) (db : Db) (claims : Table WorkspaceClaim) (nextCardId : Nat)
        (calls : List (PiReads × PiOp)),
      StepsMeet (piStep host) (KeepsOrigin host) (.fresh db claims nextCardId) calls := by
  intro hall
  obtain ⟨-, -, ⟨hmirrors, -⟩, -⟩ := hall plainPiHost Db.empty ∅ 1 requeuedCalls
  exact absurd hmirrors (by decide +kernel)

end Abtars
