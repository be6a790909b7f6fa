import Abtars.Memory.OutboxReload

/-!
# What a failed write leaves

An operation whose write fails puts back by hand what it has changed.  Two of them do not put back
a field, but leave it out.
-/

namespace Abtars

open Lib

namespace RequestOutbox

variable {deps : OutboxDeps} {s : RequestOutbox} {changed restored : List OutboxEntry}

def TakesBack (s : RequestOutbox) : RequestOutboxOp → Prop
  | .markInFlight id _ => ∀ e ∈ s.find id, e.lastAttemptAt = none
  | .markTerminalUnknown id _ => ∀ e ∈ s.find id, e.lastFailure = none
  | _ => True

theorem restored_eq_iff {op : RequestOutboxOp} (hchange : op.change deps s = .saves changed restored) :
    restored = s.entries ↔ s.TakesBack op := by
  cases op with
  | append id method requestId idempotencyKey body version payload now =>
    simp only [RequestOutboxOp.change, append] at hchange
    split at hchange
    · cases hchange
    split at hchange
    · cases hchange
    split at hchange
    · cases hchange
    · split at hchange <;> cases hchange
      exact iff_of_true rfl trivial
  | markInFlight id now =>
    simp only [RequestOutboxOp.change, markInFlight] at hchange
    split at hchange
    · cases hchange
    rename_i e hfound
    split at hchange <;> cases hchange
    rw [updateEntry_updateEntry (inFlight now) fun _ => rfl, updateEntry_eq_self hfound]
    constructor
    · rintro hsame a ha
      cases hfound.symm.trans ha
      exact (congrArg OutboxEntry.lastAttemptAt hsame).symm
    intro hnone
    have hattempt := hnone e hfound
    cases e
    simp_all [inFlight]
  | markRetryWait id failure nextAttemptAt now =>
    simp only [RequestOutboxOp.change, markRetryWait] at hchange
    split at hchange
    · cases hchange
    rename_i e hfound
    split at hchange
    · cases hchange
    split at hchange <;> cases hchange
    rename_i next _
    rw [updateEntry_updateEntry (retryWait failure next now) fun _ => rfl]
    exact iff_of_true ((updateEntry_eq_self hfound).2 rfl) trivial
  | markTerminalUnknown id failure =>
    simp only [RequestOutboxOp.change, markTerminalUnknown] at hchange
    split at hchange
    · cases hchange
    rename_i e hfound
    split at hchange <;> cases hchange
    rw [updateEntry_updateEntry (terminalUnknown failure) fun _ => rfl,
      updateEntry_eq_self hfound]
    constructor
    · rintro hsame a ha
      cases hfound.symm.trans ha
      exact (congrArg OutboxEntry.lastFailure hsame).symm
    intro hnone
    have hfailure := hnone e hfound
    cases e
    simp_all [terminalUnknown]
  | acknowledge id =>
    simp only [RequestOutboxOp.change, acknowledge] at hchange
    split at hchange <;> cases hchange
    exact iff_of_true rfl trivial
  | pruneTerminalUnknown now =>
    simp only [RequestOutboxOp.change, pruneTerminalUnknown] at hchange
    split at hchange <;> cases hchange
    exact iff_of_true rfl trivial

theorem outboxCall_of_fails {call : OutboxCall} (h : s.Fails deps call) :
    ∃ changed restored, call.op.change deps s = .saves changed restored ∧
      outboxCall deps s call = (some false, { s with entries := restored, degraded := true }) := by
  obtain ⟨changed, restored, hchange, hfails⟩ := h
  refine ⟨changed, restored, hchange, ?_⟩
  unfold outboxCall
  rw [hchange]
  simp only [perform]
  unfold checkpoint at hfails ⊢
  split at hfails
  · rename_i hlarge
    rw [if_pos hlarge]
  rename_i hroom
  rw [if_neg hroom]
  split at hfails
  · cases hfails
  · rename_i hwritten
    rw [if_neg hwritten]

/-! ## One call -/

/-- A call whose write fails returns false and changes no entry and no file; and whatever a call
does, the file holds what is in memory. -/
structure AtomicCall (deps : OutboxDeps) (s : RequestOutbox) (call : OutboxCall) : Prop where
  refused : s.Fails deps call → (outboxCall deps s call).1 = some false
  entries : s.Fails deps call → (requestOutboxStep deps s call).entries = s.entries
  file : s.Fails deps call → (requestOutboxStep deps s call).file = s.file
  saved : (requestOutboxStep deps s call).Saved deps

/-- A write that fails is of an operation that takes back what it changes, and no retry is put off
to a time that is no date. -/
structure Restores (deps : OutboxDeps) (s : RequestOutbox) (call : OutboxCall) : Prop where
  takesBack : s.Fails deps call → s.TakesBack call.op
  dated : ∀ id failure nextAttemptAt now, call.op = .markRetryWait id failure nextAttemptAt now →
    ∀ e ∈ s.find id, e.state ≠ .terminalUnknown → (Date.ofMillis? nextAttemptAt).isSome = true

theorem not_saved_of_attempted {id : String} {e : OutboxEntry} (now : Date) (hs : s.Saved deps)
    (hfound : s.find id = some e) :
    ¬ Saved deps { s with entries := updateEntry id (attempted now) s.entries } := by
  have hnot : updateEntry id (attempted now) s.entries ≠ s.entries := by
    intro hsame
    have hattempts := congrArg OutboxEntry.attempts ((updateEntry_eq_self hfound).1 hsame)
    change e.attempts + 1 = e.attempts at hattempts
    omega
  rintro (⟨hfile, -⟩ | ⟨hfile, hempty⟩)
  · rcases hs with ⟨hfile', -⟩ | ⟨hfile', hempty⟩
    · have hsame := hfile.symm.trans hfile'
      simp only [savedFile, Option.some.injEq, OutboxFile.v2.injEq, true_and] at hsame
      exact hnot (List.map_injective_iff.2 (Option.some_injective _) hsame)
    · cases hfile.symm.trans hfile'
  have hlength := congrArg List.length hempty
  rw [length_updateEntry, List.length_nil, List.length_eq_zero_iff] at hlength
  rw [RequestOutbox.find, hlength] at hfound
  cases hfound

theorem atomicCall_iff (hs : s.Saved deps) (call : OutboxCall) :
    s.AtomicCall deps call ↔ s.Restores deps call := by
  by_cases hfails : s.Fails deps call
  · obtain ⟨changed, restored, hchange, heq⟩ := outboxCall_of_fails hfails
    have hstep : requestOutboxStep deps s call = { s with entries := restored, degraded := true } := by
      rw [requestOutboxStep, heq]
    have hdated : ∀ id failure nextAttemptAt now,
        call.op = .markRetryWait id failure nextAttemptAt now → ∀ e ∈ s.find id,
          e.state ≠ .terminalUnknown → (Date.ofMillis? nextAttemptAt).isSome = true := by
      intro id failure nextAttemptAt now hop e hfound hstate
      rw [hop] at hchange
      simp only [RequestOutboxOp.change, markRetryWait, Option.mem_def.1 hfound, if_neg hstate] at hchange
      split at hchange
      · cases hchange
      · rename_i hsome
        rw [hsome]
        rfl
    constructor
    · intro h
      have hentries := h.entries hfails
      rw [hstep] at hentries
      exact ⟨fun _ => (restored_eq_iff hchange).1 hentries, hdated⟩
    intro h
    obtain rfl := (restored_eq_iff hchange).2 (h.takesBack hfails)
    refine ⟨fun _ => by rw [heq], fun _ => by rw [hstep], fun _ => by rw [hstep], ?_⟩
    rw [hstep]
    exact hs
  · refine Iff.trans (b := (requestOutboxStep deps s call).Saved deps)
      ⟨fun h => h.saved, fun h => ⟨fun hf => absurd hf hfails, fun hf => absurd hf hfails,
        fun hf => absurd hf hfails, h⟩⟩ ?_
    rcases outboxStep_cases s call hfails with
      ⟨done, hchange, heq⟩ | ⟨entries, hchange, heq⟩ | ⟨changed, restored, hchange, -, hsaved⟩
    · rw [heq]
      refine iff_of_true hs ⟨fun hf => absurd hf hfails, ?_⟩
      intro id failure nextAttemptAt now hop e hfound hstate
      rw [hop] at hchange
      simp only [RequestOutboxOp.change, markRetryWait, Option.mem_def.1 hfound, if_neg hstate] at hchange
      split at hchange <;> cases hchange
    · rw [heq]
      rcases throws_cases hchange with ⟨rfl, id, method, requestId, idempotencyKey, body, version,
        payload, now, hop⟩ | ⟨id, failure, nextAttemptAt, now, e, hop, hfound, hstate, hnone, rfl⟩
      · refine iff_of_true hs ⟨fun hf => absurd hf hfails, ?_⟩
        intro id failure nextAttemptAt now hop'
        cases hop.symm.trans hop'
      · refine iff_of_false (not_saved_of_attempted now hs hfound) fun h => ?_
        have hsome := h.dated id failure nextAttemptAt now hop e hfound hstate
        rw [hnone] at hsome
        cases hsome
    · refine iff_of_true hsaved ⟨fun hf => absurd hf hfails, ?_⟩
      intro id failure nextAttemptAt now hop e hfound hstate
      rw [hop] at hchange
      simp only [RequestOutboxOp.change, markRetryWait, Option.mem_def.1 hfound, if_neg hstate] at hchange
      split at hchange
      · cases hchange
      · rename_i hsome
        rw [hsome]
        rfl

/-! ## Runs -/

/-- **A failed write changes nothing.**  In every run of calls, whichever of their writes fail, on
an outbox whose file holds its entries: every call is atomic exactly when every call takes back what
it changes. -/
theorem outbox_atomic_on_failure (deps : OutboxDeps) (s : RequestOutbox) (hsaved : s.Saved deps)
    (calls : List OutboxCall) :
    StepsMeet (requestOutboxStep deps) (AtomicCall deps) s calls ↔
      StepsMeet (requestOutboxStep deps) (Restores deps) s calls :=
  stepsMeet_iff_of_kept (fun _ _ _ hatomic => hatomic.saved) (fun _ call hs => atomicCall_iff hs call)
    calls s hsaved

def retried : List OutboxCall :=
  [recallCall "f" "\x7b\x7d", sent, ⟨.markRetryWait "f" .timeout 1000 .epoch, true⟩]

theorem perform_lost (deps : OutboxDeps) (s : RequestOutbox) (changed restored : List OutboxEntry) :
    s.perform deps false (.saves changed restored) =
      (some false, { s with entries := restored, degraded := true }) := by
  simp only [perform, checkpoint, Bool.false_eq_true, if_false, ite_self]

def waiting : OutboxEntry :=
  retryWait .timeout ⟨1000, by decide⟩ .epoch (inFlight .epoch (recalled "\x7b\x7d"))

theorem run_retried : runFrom (requestOutboxStep peerDeps) freshOutbox retried = holding waiting := by
  have hsize : (Json.quote "\x7b\x7d").utf8ByteSize ≤ 524105 := by decide
  obtain ⟨hrecall, hsent⟩ := outboxCall_recall hsize
  have hsmall : entryBytes peerDeps waiting ≤ 600000 := by decide +kernel
  have hwaits : outboxCall peerDeps (holding (inFlight .epoch (recalled "\x7b\x7d")))
      ⟨.markRetryWait "f" .timeout 1000 .epoch, true⟩ = (some true, holding waiting) :=
    perform_holding hsmall rfl rfl _
  rw [retried, runFrom_cons, runFrom_cons, runFrom_cons, runFrom_nil, requestOutboxStep,
    requestOutboxStep, requestOutboxStep, hrecall, hsent, hwaits]

/-- An entry that was tried before forgets when, and what its failure was. -/
theorem failure_forgotten :
    let s := runFrom (requestOutboxStep peerDeps) freshOutbox retried
    (s.entries.map fun e => (e.lastAttemptAt, e.lastFailure)) =
        [(some Date.epoch, some .timeout)] ∧
      (outboxCall peerDeps s ⟨.markInFlight "f" .epoch, false⟩).1 = some false ∧
      ((requestOutboxStep peerDeps s ⟨.markInFlight "f" .epoch, false⟩).entries.map (·.lastAttemptAt)) =
        [none] ∧
      ((requestOutboxStep peerDeps s ⟨.markTerminalUnknown "f" .timeout, false⟩).entries.map
        (·.lastFailure)) = [none] := by
  intro s
  have hs : s = holding waiting := run_retried
  have hsent : ∃ changed, RequestOutboxOp.change peerDeps (holding waiting)
      (.markInFlight "f" .epoch) = .saves changed [{ waiting with lastAttemptAt := none }] :=
    ⟨_, rfl⟩
  have hclosed : ∃ changed, RequestOutboxOp.change peerDeps (holding waiting)
      (.markTerminalUnknown "f" .timeout) = .saves changed [{ waiting with lastFailure := none }] :=
    ⟨_, rfl⟩
  obtain ⟨sent, hsent⟩ := hsent
  obtain ⟨closed, hclosed⟩ := hclosed
  rw [hs]
  refine ⟨rfl, ?_, ?_, ?_⟩
  · rw [outboxCall, hsent, perform_lost]
  · rw [requestOutboxStep, outboxCall, hsent, perform_lost]
    rfl
  · rw [requestOutboxStep, outboxCall, hclosed, perform_lost]
    rfl

theorem outbox_atomic_on_failure_recall :
    StepsMeet (requestOutboxStep peerDeps) (AtomicCall peerDeps) freshOutbox
      [recallCall "f" "\x7b\x7d", ⟨.markInFlight "f" .epoch, false⟩] := by
  refine (outbox_atomic_on_failure peerDeps freshOutbox (.inr ⟨rfl, rfl⟩) _).2
    ⟨⟨fun _ => trivial, ?_⟩, ⟨fun _ => ?_, ?_⟩, trivial⟩
  · rintro id failure nextAttemptAt now ⟨⟩
  · show ∀ e ∈ (requestOutboxStep peerDeps freshOutbox (recallCall "f" "\x7b\x7d")).find "f",
      e.lastAttemptAt = none
    decide +kernel
  · rintro id failure nextAttemptAt now ⟨⟩

end RequestOutbox

end Abtars
