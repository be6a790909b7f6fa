import Abtars.Lib.Run
import Abtars.Memory.RequestOutbox

/-!
# What is written can be loaded

The loader takes a file as a whole: one entry out of order, and nothing of it is loaded.  The
writer looks at the size of a new entry only.
-/

namespace Abtars

open Lib

namespace RequestOutbox

variable {call : OutboxCall}

variable {deps : OutboxDeps} {s s' : RequestOutbox} {entries : List OutboxEntry}
  {e : OutboxEntry} {id : String}

/-! ## Loading what was written -/

structure Loadable (deps : OutboxDeps) (entries : List OutboxEntry) : Prop where
  valid : ∀ e ∈ entries, isValidV2Entry e = true
  small : ∀ e ∈ entries, entryBytes deps e ≤ outboxMaxEntryBytes
  once : (entries.map (·.id)).Nodup
  few : entries.length ≤ outboxMaxEntries

theorem loadable_nil (deps : OutboxDeps) : Loadable deps [] :=
  ⟨by simp, by simp, List.nodup_nil, Nat.zero_le _⟩

theorem Loadable.sublist {entries' : List OutboxEntry} (h : Loadable deps entries)
    (hsub : entries'.Sublist entries) : Loadable deps entries' where
  valid := fun e he => h.valid e (hsub.subset he)
  small := fun e he => h.small e (hsub.subset he)
  once := h.once.sublist (hsub.map _)
  few := Nat.le_trans hsub.length_le h.few

structure Passes (deps : OutboxDeps) (seen : List String) (entries : List OutboxEntry) : Prop where
  valid : ∀ e ∈ entries, isValidV2Entry e = true
  small : ∀ e ∈ entries, entryBytes deps e ≤ outboxMaxEntryBytes
  once : (entries.map (·.id)).Nodup
  fresh : ∀ e ∈ entries, e.id ∉ seen

theorem passes_cons {seen : List String} {rest : List OutboxEntry} :
    Passes deps seen (e :: rest) ↔ isValidV2Entry e = true ∧ e.id ∉ seen ∧
      entryBytes deps e ≤ outboxMaxEntryBytes ∧ Passes deps (e.id :: seen) rest := by
  constructor
  · intro h
    have honce := List.nodup_cons.1 h.once
    refine ⟨h.valid e List.mem_cons_self, h.fresh e List.mem_cons_self,
      h.small e List.mem_cons_self, fun a ha => h.valid a (List.mem_cons_of_mem _ ha),
      fun a ha => h.small a (List.mem_cons_of_mem _ ha), honce.2, fun a ha hmem => ?_⟩
    rcases List.mem_cons.1 hmem with hsame | hseen
    · exact honce.1 (List.mem_map.2 ⟨a, ha, hsame⟩)
    · exact h.fresh a (List.mem_cons_of_mem _ ha) hseen
  · rintro ⟨hvalid, hfresh, hsmall, h⟩
    refine ⟨List.forall_mem_cons.2 ⟨hvalid, h.valid⟩, List.forall_mem_cons.2 ⟨hsmall, h.small⟩,
      List.nodup_cons.2 ⟨fun hmem => ?_, h.once⟩, List.forall_mem_cons.2 ⟨hfresh, fun a ha hmem =>
        h.fresh a ha (List.mem_cons_of_mem _ hmem)⟩⟩
    obtain ⟨a, ha, hid⟩ := List.mem_map.1 hmem
    exact h.fresh a ha (by rw [hid]; exact List.mem_cons_self)

/-- The loop gives the entries back, or nothing. -/
theorem checkEntries_map_some (deps : OutboxDeps) (entries : List OutboxEntry) : ∀ seen,
    (Passes deps seen entries → checkEntries deps (entries.map some) seen = some entries) ∧
      (¬ Passes deps seen entries → checkEntries deps (entries.map some) seen = none) := by
  induction entries with
  | nil =>
    intro seen
    exact ⟨fun _ => rfl, fun h => absurd ⟨by simp, by simp, List.nodup_nil, by simp⟩ h⟩
  | cons e rest ih =>
    intro seen
    rw [passes_cons, List.map_cons]
    unfold checkEntries
    by_cases hvalid : isValidV2Entry e = true
    · rw [if_neg (by simp [hvalid])]
      by_cases hseen : e.id ∈ seen
      · rw [if_pos hseen]
        exact ⟨fun h => absurd hseen h.2.1, fun _ => rfl⟩
      rw [if_neg hseen]
      by_cases hsmall : entryBytes deps e ≤ outboxMaxEntryBytes
      · rw [if_neg (by omega)]
        obtain ⟨hpass, hfail⟩ := ih (e.id :: seen)
        constructor
        · intro h
          rw [hpass h.2.2.2]
          rfl
        · intro h
          rw [hfail fun hrest => h ⟨hvalid, hseen, hsmall, hrest⟩]
          rfl
      · rw [if_pos (by omega)]
        exact ⟨fun h => absurd h.2.2.1 hsmall, fun _ => rfl⟩
    · rw [if_pos (by simpa using hvalid)]
      exact ⟨fun h => absurd h.1 hvalid, fun _ => rfl⟩

theorem loadable_iff_passes : Loadable deps entries ↔
    Passes deps [] entries ∧ entries.length ≤ outboxMaxEntries :=
  ⟨fun h => ⟨⟨h.valid, h.small, h.once, fun _ _ => List.not_mem_nil⟩, h.few⟩,
    fun h => ⟨h.1.valid, h.1.small, h.1.once, h.2⟩⟩

/-- A constructor on the file is not quarantined and has the entries, those in flight waiting. -/
def Reloads (deps : OutboxDeps) (s : RequestOutbox) : Prop :=
  ∀ now renamed written, ∃ s', load deps s.file now renamed written = some s' ∧
    s'.quarantined = false ∧ s'.entries = s.entries.map normalize

def Saved (deps : OutboxDeps) (s : RequestOutbox) : Prop :=
  s.file = some (savedFile deps s.entries) ∧ listBytes deps s.entries ≤ outboxMaxFileBytes ∨
    s.file = none ∧ s.entries = []

theorem reloads_iff (hs : s.Saved deps) : s.Reloads deps ↔ Loadable deps s.entries := by
  rcases hs with ⟨hfile, hbytes⟩ | ⟨hfile, hempty⟩
  · have hload : ∀ now renamed written, load deps s.file now renamed written =
        some (validateV2 deps (s.entries.map some) renamed written ⟨s.file, [], false, false⟩) := by
      intro now renamed written
      rw [hfile]
      exact if_neg (not_not.2 rfl)
    have hall : (s.entries.map some).reduceOption = s.entries :=
      List.filterMap_map.trans List.filterMap_some
    rw [loadable_iff_passes]
    constructor
    · intro h
      obtain ⟨s', hs', hfree, -⟩ := h 0 false false
      rw [hload] at hs'
      obtain rfl := Option.some.inj hs'
      rw [validateV2, hall, List.length_map] at hfree
      split at hfree
      · cases hfree
      by_cases hpass : Passes deps [] s.entries
      · exact ⟨hpass, by omega⟩
      · rw [(checkEntries_map_some deps s.entries []).2 hpass] at hfree
        cases hfree
    · rintro ⟨hpass, hfew⟩ now renamed written
      refine ⟨_, hload now renamed written, ?_⟩
      rw [validateV2, hall, List.length_map, if_neg (by omega),
        (checkEntries_map_some deps s.entries []).1 hpass]
      dsimp only
      split
      · refine ⟨?_, rfl⟩
        unfold checkpoint
        split
        · rfl
        · split <;> rfl
      · exact ⟨rfl, rfl⟩
  · constructor
    · intro _
      rw [hempty]
      exact loadable_nil deps
    intro _ now renamed written
    refine ⟨⟨none, [], false, false⟩, by rw [hfile]; rfl, rfl, ?_⟩
    rw [hempty]
    rfl

/-! ## What a call writes -/

def Fails (deps : OutboxDeps) (s : RequestOutbox) (call : OutboxCall) : Prop :=
  ∃ changed restored, call.op.change deps s = .saves changed restored ∧
    (checkpoint deps call.written { s with entries := changed }).1 = false

theorem checkpoint_true {s : RequestOutbox} {written : Bool}
    (h : (checkpoint deps written s).1 = true) :
    (checkpoint deps written s).2 = { s with file := some (savedFile deps s.entries) } ∧
      fileBytes deps s.entries ≤ outboxMaxFileBytes := by
  unfold checkpoint at h ⊢
  split at h
  · cases h
  rename_i hroom
  split at h
  · rename_i hwritten
    rw [if_neg hroom, if_pos hwritten]
    exact ⟨rfl, by omega⟩
  · cases h

theorem listBytes_le_fileBytes (deps : OutboxDeps) (entries : List OutboxEntry) :
    listBytes deps entries ≤ fileBytes deps entries :=
  utf8ByteSize_member_le deps.renderFraction
    (m := ("entries", .arr (entries.map OutboxEntry.toJson))) (by simp)

theorem outboxStep_cases (s : RequestOutbox) (call : OutboxCall) (h : ¬ s.Fails deps call) :
    (∃ done, call.op.change deps s = .returns done ∧ requestOutboxStep deps s call = s) ∨
    (∃ entries, call.op.change deps s = .throws entries ∧
      requestOutboxStep deps s call = { s with entries }) ∨
    ∃ changed restored, call.op.change deps s = .saves changed restored ∧
      (requestOutboxStep deps s call).entries = changed ∧ (requestOutboxStep deps s call).Saved deps := by
  unfold requestOutboxStep outboxCall
  cases hchange : call.op.change deps s with
  | returns done => exact .inl ⟨done, rfl, rfl⟩
  | throws entries => exact .inr (.inl ⟨entries, rfl, rfl⟩)
  | saves changed restored =>
    refine .inr (.inr ⟨changed, restored, rfl, ?_⟩)
    have htrue : (checkpoint deps call.written { s with entries := changed }).1 = true := by
      by_contra hfalse
      exact h ⟨changed, restored, hchange, by simpa using hfalse⟩
    obtain ⟨hafter, hroom⟩ := checkpoint_true htrue
    simp only [perform]
    split
    · rename_i s' heq
      rw [heq] at hafter
      rw [hafter]
      exact ⟨rfl, .inl ⟨rfl, Nat.le_trans (listBytes_le_fileBytes deps changed) hroom⟩⟩
    · rename_i s' heq
      rw [heq] at htrue
      cases htrue

/-! ## Which calls keep the entries loadable -/

theorem loadable_append (h : Loadable deps entries) (hroom : entries.length < outboxMaxEntries)
    (hsmall : entryBytes deps e ≤ outboxMaxEntryBytes) :
    Loadable deps (entries ++ [e]) ↔ isValidV2Entry e = true ∧ e.id ∉ entries.map (·.id) := by
  have hlast : e ∈ entries ++ [e] := List.mem_append_right _ List.mem_cons_self
  constructor
  · intro happended
    have honce := happended.once
    rw [List.map_append, List.nodup_append] at honce
    exact ⟨happended.valid e hlast, fun hmem => honce.2.2 _ hmem _ List.mem_cons_self rfl⟩
  rintro ⟨hvalid, hfresh⟩
  refine ⟨?_, ?_, ?_, ?_⟩
  · intro a ha
    rcases List.mem_append.1 ha with hold | hnew
    · exact h.valid a hold
    · rwa [List.mem_singleton.1 hnew]
  · intro a ha
    rcases List.mem_append.1 ha with hold | hnew
    · exact h.small a hold
    · rwa [List.mem_singleton.1 hnew]
  · rw [List.map_append, List.nodup_append]
    refine ⟨h.once, by simp, ?_⟩
    rintro a ha b hb rfl
    rw [List.map_singleton, List.mem_singleton] at hb
    exact hfresh (hb ▸ ha)
  · rw [List.length_append, List.length_singleton]
    omega

theorem loadable_updateEntry (f : OutboxEntry → OutboxEntry) (hid : ∀ e, (f e).id = e.id)
    (hvalid : ∀ e, isValidV2Entry (f e) = isValidV2Entry e)
    (hfound : entries.find? (·.id = id) = some e) (h : Loadable deps entries) :
    Loadable deps (updateEntry id f entries) ↔ entryBytes deps (f e) ≤ outboxMaxEntryBytes := by
  have hchanged : f e ∈ updateEntry id f entries := by
    refine List.mem_of_find?_eq_some (p := (·.id = id)) ?_
    rw [find?_updateEntry hid, hfound, Option.map_some]
  constructor
  · exact fun hloads => hloads.small _ hchanged
  intro hsmall
  refine ⟨fun a ha => ?_, fun a ha => ?_, ?_, ?_⟩
  · rcases mem_updateEntry hfound ha with hold | rfl
    · exact h.valid a hold
    · rw [hvalid]
      exact h.valid e (List.mem_of_find?_eq_some hfound)
  · rcases mem_updateEntry hfound ha with hold | rfl
    · exact h.small a hold
    · exact hsmall
  · rw [map_id_updateEntry hid]
    exact h.once
  · rw [length_updateEntry]
    exact h.few

/-- A call that leaves entries a file can be loaded with: an entry that is accepted is in order and
has an id of its own, and one that is marked does not outgrow the limit; a time that is no date is
not printed. -/
def Keepable (deps : OutboxDeps) (s : RequestOutbox) (call : OutboxCall) : Prop :=
  match call.op with
  | .append id method requestId _ _ version _ _ =>
    (∃ changed restored, call.op.change deps s = .saves changed restored) →
      (id ≠ "" ∧ id ∉ s.entries.map (·.id)) ∧
        (method ≠ "" ∧ utf16Length method ≤ routeMethodMaxBytes) ∧ requestId ≠ "" ∧
          version.isSome = true ∧ 0 ≤ deps.retryDeadlineMs
  | .markInFlight id now => ∀ e ∈ s.find id, e.state = .admitted ∨ e.state = .retryWait →
      entryBytes deps (inFlight now e) ≤ outboxMaxEntryBytes
  | .markRetryWait id failure nextAttemptAt now => ∀ e ∈ s.find id, e.state ≠ .terminalUnknown →
      ∃ next, Date.ofMillis? nextAttemptAt = some next ∧
        entryBytes deps (retryWait failure next now e) ≤ outboxMaxEntryBytes
  | .markTerminalUnknown id failure => ∀ e ∈ s.find id, e.state ≠ .terminalUnknown →
      entryBytes deps (terminalUnknown failure e) ≤ outboxMaxEntryBytes
  | .acknowledge _ | .pruneTerminalUnknown _ => True

theorem isValidV2Entry_newEntry {method requestId body : String} {idempotencyKey : Option String}
    {version : Option Rat} {payload : Option Json} {now deadlineAt : Date}
    (h : Date.ofMillis? (now.ms + deps.retryDeadlineMs) = some deadlineAt) :
    isValidV2Entry (newEntry id method requestId idempotencyKey body version payload now
        deadlineAt) = true ↔
      id ≠ "" ∧ (method ≠ "" ∧ utf16Length method ≤ routeMethodMaxBytes) ∧ requestId ≠ "" ∧
        version.isSome = true ∧ 0 ≤ deps.retryDeadlineMs := by
  have hms := Date.ms_of_ofMillis? h
  have hlater : now.ms ≤ deadlineAt.ms ↔ 0 ≤ deps.retryDeadlineMs := by omega
  simp only [isValidV2Entry, newEntry, decide_eq_true_eq, hlater]
  rw [isValidV1Entry, decide_eq_true_iff]
  simp only [and_assoc]

/-- What is written can be loaded exactly when the call is one of these. -/
theorem loadable_iff {changed restored : List OutboxEntry}
    (h : Loadable deps s.entries) (hchange : call.op.change deps s = .saves changed restored) :
    Loadable deps changed ↔ s.Keepable deps call := by
  obtain ⟨op, written⟩ := call
  cases op with
  | append id method requestId idempotencyKey body version payload now =>
    simp only [Keepable, hchange]
    simp only [RequestOutboxOp.change, append] at hchange
    split at hchange
    · cases hchange
    split at hchange
    · cases hchange
    split at hchange
    · cases hchange
    rename_i deadlineAt hdeadline
    split at hchange
    · cases hchange
    cases hchange
    rw [loadable_append h (by omega) (by omega)]
    rw [isValidV2Entry_newEntry hdeadline]
    constructor
    · rintro ⟨⟨hid, hmethod, hrequest, hversion, hlater⟩, hfresh⟩ -
      exact ⟨⟨hid, hfresh⟩, hmethod, hrequest, hversion, hlater⟩
    intro hkeeps
    obtain ⟨⟨hid, hfresh⟩, hmethod, hrequest, hversion, hlater⟩ :=
      hkeeps ⟨_, _, rfl⟩
    exact ⟨⟨hid, hmethod, hrequest, hversion, hlater⟩, hfresh⟩
  | markInFlight id now =>
    simp only [RequestOutboxOp.change, markInFlight] at hchange
    split at hchange
    · cases hchange
    rename_i e hfound
    split at hchange
    · cases hchange
    rename_i hstate
    cases hchange
    rw [loadable_updateEntry (inFlight now) (fun _ => rfl) (fun _ => rfl) hfound h]
    constructor
    · rintro hsmall a ha -
      cases hfound.symm.trans ha
      exact hsmall
    intro hkeeps
    refine hkeeps e hfound ?_
    revert hstate
    cases e.state <;> simp
  | markRetryWait id failure nextAttemptAt now =>
    simp only [RequestOutboxOp.change, markRetryWait] at hchange
    split at hchange
    · cases hchange
    rename_i e hfound
    split at hchange
    · cases hchange
    rename_i hstate
    split at hchange
    · cases hchange
    rename_i next hnext
    cases hchange
    rw [loadable_updateEntry (retryWait failure next now) (fun _ => rfl) (fun _ => rfl)
      hfound h]
    constructor
    · rintro hsmall a ha -
      cases hfound.symm.trans ha
      exact ⟨next, hnext, hsmall⟩
    intro hkeeps
    obtain ⟨next', hnext', hsmall⟩ := hkeeps e hfound hstate
    cases hnext.symm.trans hnext'
    exact hsmall
  | markTerminalUnknown id failure =>
    simp only [RequestOutboxOp.change, markTerminalUnknown] at hchange
    split at hchange
    · cases hchange
    rename_i e hfound
    split at hchange
    · cases hchange
    rename_i hstate
    cases hchange
    rw [loadable_updateEntry (terminalUnknown failure) (fun _ => rfl) (fun _ => rfl) hfound h]
    constructor
    · rintro hsmall a ha -
      cases hfound.symm.trans ha
      exact hsmall
    · exact fun hkeeps => hkeeps e hfound hstate
  | acknowledge id =>
    simp only [RequestOutboxOp.change, acknowledge] at hchange
    split at hchange
    · cases hchange
      exact iff_of_true (h.sublist List.eraseP_sublist) trivial
    · cases hchange
  | pruneTerminalUnknown now =>
    simp only [RequestOutboxOp.change, pruneTerminalUnknown] at hchange
    split at hchange
    · cases hchange
    · cases hchange
      exact iff_of_true (h.sublist List.filter_sublist) trivial

theorem keepable_of_returns {done : Bool}
    (hchange : call.op.change deps s = .returns done) : s.Keepable deps call := by
  obtain ⟨op, written⟩ := call
  cases op with
  | append id method requestId idempotencyKey body version payload now =>
    rintro ⟨changed, restored, hsaves⟩
    cases hchange.symm.trans hsaves
  | markInFlight id now =>
    intro e hfound hstate
    simp only [RequestOutboxOp.change, markInFlight, Option.mem_def.1 hfound] at hchange
    split at hchange
    · rename_i hnot
      rcases hstate with h | h <;> simp [h] at hnot
    · cases hchange
  | markRetryWait id failure nextAttemptAt now =>
    intro e hfound hstate
    simp only [RequestOutboxOp.change, markRetryWait, Option.mem_def.1 hfound, if_neg hstate] at hchange
    split at hchange <;> cases hchange
  | markTerminalUnknown id failure =>
    intro e hfound hstate
    simp only [RequestOutboxOp.change, markTerminalUnknown, Option.mem_def.1 hfound,
      if_neg hstate] at hchange
    cases hchange
  | acknowledge id => trivial
  | pruneTerminalUnknown now => trivial

/-- A call that throws has changed nothing, or is a retry at a time that is no date. -/
theorem throws_cases {op : RequestOutboxOp} (hchange : op.change deps s = .throws entries) :
    (entries = s.entries ∧ ∃ id method requestId idempotencyKey body version payload now,
      op = .append id method requestId idempotencyKey body version payload now) ∨
    ∃ id failure nextAttemptAt now e, op = .markRetryWait id failure nextAttemptAt now ∧
      s.find id = some e ∧ e.state ≠ .terminalUnknown ∧ Date.ofMillis? nextAttemptAt = none ∧
      entries = updateEntry id (attempted now) s.entries := by
  cases op with
  | append id method requestId idempotencyKey body version payload now =>
    refine .inl ⟨?_, id, method, requestId, idempotencyKey, body, version, payload, now, rfl⟩
    simp only [RequestOutboxOp.change, append] at hchange
    split at hchange
    · cases hchange
    split at hchange
    · cases hchange
    split at hchange
    · cases hchange
      rfl
    · split at hchange <;> cases hchange
  | markInFlight id now =>
    simp only [RequestOutboxOp.change, markInFlight] at hchange
    split at hchange
    · cases hchange
    · split at hchange <;> cases hchange
  | markRetryWait id failure nextAttemptAt now =>
    simp only [RequestOutboxOp.change, markRetryWait] at hchange
    split at hchange
    · cases hchange
    rename_i e hfound
    split at hchange
    · cases hchange
    rename_i hstate
    split at hchange
    · rename_i hnone
      cases hchange
      exact .inr ⟨id, failure, nextAttemptAt, now, e, rfl, hfound, hstate, hnone, rfl⟩
    · cases hchange
  | markTerminalUnknown id failure =>
    simp only [RequestOutboxOp.change, markTerminalUnknown] at hchange
    split at hchange
    · cases hchange
    · split at hchange <;> cases hchange
  | acknowledge id =>
    simp only [RequestOutboxOp.change, acknowledge] at hchange
    split at hchange <;> cases hchange
  | pruneTerminalUnknown now =>
    simp only [RequestOutboxOp.change, pruneTerminalUnknown] at hchange
    split at hchange <;> cases hchange

/-! ## Runs -/

theorem sum_attempts_attempted (now : Date) (h : entries.find? (·.id = id) = some e) :
    ((updateEntry id (attempted now) entries).map (·.attempts)).sum =
      (entries.map (·.attempts)).sum + 1 := by
  induction entries with
  | nil => cases h
  | cons b rest ih =>
    rw [List.find?_cons] at h
    unfold updateEntry
    by_cases hb : b.id = id
    · rw [if_pos hb, List.map_cons, List.sum_cons, List.map_cons, List.sum_cons]
      show b.attempts + 1 + _ = _
      omega
    · simp only [hb, decide_false] at h
      rw [if_neg hb, List.map_cons, List.sum_cons, ih h, List.map_cons, List.sum_cons]
      omega

theorem not_reloads_of_attempted (now : Date) (hs : s.Saved deps) (hl : Loadable deps s.entries)
    (hfound : s.find id = some e) :
    ¬ Reloads deps { s with entries := updateEntry id (attempted now) s.entries } := by
  intro h
  obtain ⟨s', hs', -, hentries⟩ := h 0 false false
  obtain ⟨s'', hs'', -, hentries'⟩ := (reloads_iff hs).2 hl 0 false false
  obtain rfl : s' = s'' := Option.some.inj (hs'.symm.trans hs'')
  have hattempts : ∀ l : List OutboxEntry,
      ((l.map normalize).map (·.attempts)).sum = (l.map (·.attempts)).sum := by
    intro l
    rw [List.map_map]
    congr 1
    refine List.map_congr_left fun a _ => ?_
    show (normalize a).attempts = a.attempts
    unfold normalize
    split <;> rfl
  have hsum := congrArg (fun l => (l.map (·.attempts)).sum) (hentries.symm.trans hentries')
  simp only [hattempts] at hsum
  rw [sum_attempts_attempted now hfound] at hsum
  omega

/-- **One call.** -/
theorem reloads_outboxStep (hs : s.Saved deps) (hl : Loadable deps s.entries)
    (hwrites : ¬ s.Fails deps call) :
    ((requestOutboxStep deps s call).Reloads deps ↔ s.Keepable deps call) ∧
      (s.Keepable deps call → (requestOutboxStep deps s call).Saved deps ∧
        Loadable deps (requestOutboxStep deps s call).entries) := by
  rcases outboxStep_cases s call hwrites with
    ⟨done, hchange, heq⟩ | ⟨entries, hchange, heq⟩ | ⟨changed, restored, hchange, heq, hsaved⟩
  · rw [heq]
    have hkeeps : s.Keepable deps call := keepable_of_returns hchange
    exact ⟨iff_of_true ((reloads_iff hs).2 hl) hkeeps, fun _ => ⟨hs, hl⟩⟩
  · rw [heq]
    obtain ⟨op, written⟩ := call
    rcases throws_cases hchange with ⟨rfl, id, method, requestId, idempotencyKey, body, version,
      payload, now, rfl⟩ | ⟨id, failure, nextAttemptAt, now, e, rfl, hfound, hstate, hnone, rfl⟩
    · have hkeeps : s.Keepable deps ⟨.append id method requestId idempotencyKey body version payload
          now, written⟩ := by
        rintro ⟨changed, restored, hsaves⟩
        cases hchange.symm.trans hsaves
      exact ⟨iff_of_true ((reloads_iff hs).2 hl) hkeeps, fun _ => ⟨hs, hl⟩⟩
    · have hlost : ¬ s.Keepable deps ⟨.markRetryWait id failure nextAttemptAt now, written⟩ := by
        intro hkeeps
        obtain ⟨next, hnext, -⟩ := hkeeps e hfound hstate
        cases hnone.symm.trans hnext
      exact ⟨iff_of_false (not_reloads_of_attempted now hs hl hfound) hlost,
        fun h => absurd h hlost⟩
  · rw [reloads_iff hsaved, heq]
    have hiff := loadable_iff hl hchange
    exact ⟨hiff, fun hkeeps => ⟨hsaved, hiff.2 hkeeps⟩⟩

/-- **What is written can be loaded.**  In every run of calls whose writes succeed, on an outbox
whose file gives its entries back, the file gives them back after every call exactly when every
call is one that keeps them loadable. -/
theorem outbox_reloads (deps : OutboxDeps) (s : RequestOutbox) (hsaved : s.Saved deps)
    (hreloads : s.Reloads deps) (calls : List OutboxCall)
    (hwrites : StepsMeet (requestOutboxStep deps) (fun s call => ¬ s.Fails deps call) s calls) :
    StepsMeet (requestOutboxStep deps) (fun s call => (requestOutboxStep deps s call).Reloads deps) s calls ↔
      StepsMeet (requestOutboxStep deps) (Keepable deps) s calls := by
  have hloadable := (reloads_iff hsaved).1 hreloads
  constructor
  · intro h
    refine stepsMeet_of_kept (I := fun s => s.Saved deps ∧ Loadable deps s.entries)
      (fun s call hs hmeets => ?_) (fun s call hs hmeets => ?_) calls s ⟨hsaved, hloadable⟩
      (hwrites.and calls s h)
    · obtain ⟨hiff, hkept⟩ := reloads_outboxStep hs.1 hs.2 hmeets.1
      exact hkept (hiff.1 hmeets.2)
    · exact (reloads_outboxStep hs.1 hs.2 hmeets.1).1.1 hmeets.2
  · intro h
    refine stepsMeet_of_kept (I := fun s => s.Saved deps ∧ Loadable deps s.entries)
      (fun s call hs hmeets => ?_) (fun s call hs hmeets => ?_) calls s ⟨hsaved, hloadable⟩
      (hwrites.and calls s h)
    · exact (reloads_outboxStep hs.1 hs.2 hmeets.1).2 hmeets.2
    · exact (reloads_outboxStep hs.1 hs.2 hmeets.1).1.2 hmeets.2

/-! ### Files that are lost -/

theorem entryBytes_body (deps : OutboxDeps) (e : OutboxEntry) : entryBytes deps e + 2 =
    entryBytes deps { e with body := "" } + (Json.quote e.body).utf8ByteSize := by
  let before : List (String × Option Json) := [("id", some (.str e.id)),
    ("method", some (.str e.method)), ("requestId", some (.str e.requestId)),
    ("idempotencyKey", e.idempotencyKey.map .str)]
  let after : List (String × Option Json) := [("version", some (numberJson e.version)),
    ("payload", e.payload), ("state", some (.str e.state.text)),
    ("createdAt", some (dateJson e.createdAt)), ("deadlineAt", some (dateJson e.deadlineAt)),
    ("attempts", some (.num e.attempts)), ("lastAttemptAt", e.lastAttemptAt.map dateJson),
    ("nextAttemptAt", e.nextAttemptAt.map dateJson),
    ("lastFailure", e.lastFailure.map fun failure => .str failure.text)]
  let undefinedLeftOut : String × Option Json → Option (String × Json) :=
    fun m => m.2.map (m.1, ·)
  have hjson : ∀ body, { e with body := body }.toJson =
      .obj (before.filterMap undefinedLeftOut ++
        ("body", .str body) :: after.filterMap undefinedLeftOut) := by
    intro body
    show Json.obj ((before ++ ("body", some (.str body)) :: after).filterMap undefinedLeftOut) = _
    rw [List.filterMap_append]
    rfl
  have hexchange := utf8ByteSize_obj_exchange deps.renderFraction
    (before.filterMap undefinedLeftOut) (after.filterMap undefinedLeftOut) "body"
    (.str e.body) (.str "")
  have hempty : (Json.stringify deps.renderFraction (.str "")).utf8ByteSize = 2 := by
    rw [Json.stringify]
    decide
  rw [hempty, ← hjson e.body, ← hjson "", Json.stringify.eq_4] at hexchange
  exact hexchange

def plainText (n : Nat) : String := String.ofList (List.replicate n 'x')

theorem utf8ByteSize_quote_plainText (n : Nat) :
    (Json.quote (plainText n)).utf8ByteSize = n + 2 := by
  have hescaped : (List.replicate n 'x').flatMap Json.escapeChar = List.replicate n 'x' := by
    induction n with
    | zero => rfl
    | succ n ih =>
      rw [List.replicate_succ, List.flatMap_cons, ih]
      rfl
  rw [Json.quote, plainText, String.toList_ofList, hescaped, utf8ByteSize_ofList]
  have hsizes : ('x' : Char).utf8Size = 1 ∧ ('"' : Char).utf8Size = 1 := by decide
  simp [hsizes.1, hsizes.2]
  omega

def peerDeps : OutboxDeps := ⟨"peer", 900000, fun _ => ""⟩

def freshOutbox : RequestOutbox := ⟨none, [], false, false⟩

def recallCall (id body : String) : OutboxCall :=
  ⟨.append id "private.recall" "r" none body (some 1) none .epoch, true⟩

variable (body : String)

def recalled : OutboxEntry :=
  newEntry "f" "private.recall" "r" none body (some 1) none .epoch ⟨900000, by decide⟩

def fullBody : String := plainText 524103

def sent : OutboxCall := ⟨.markInFlight "f" .epoch, true⟩

theorem entryBytes_recalled :
    entryBytes peerDeps (recalled body) + 2 = 185 + (Json.quote body).utf8ByteSize ∧
      entryBytes peerDeps (inFlight .epoch (recalled body)) + 2 =
        229 + (Json.quote body).utf8ByteSize := by
  have hfresh : entryBytes peerDeps (recalled "") = 185 := by decide +kernel
  have hsent : entryBytes peerDeps (inFlight .epoch (recalled "")) = 229 := by decide +kernel
  rw [← hfresh, ← hsent]
  exact ⟨entryBytes_body peerDeps (recalled body),
    entryBytes_body peerDeps (inFlight .epoch (recalled body))⟩

theorem fileBytes_singleton (e : OutboxEntry) :
    fileBytes peerDeps [e] = 40 + entryBytes peerDeps e := by
  have hbracket : ("[" : String).utf8ByteSize = 1 ∧ ("]" : String).utf8ByteSize = 1 := by decide
  have hempty : jsonBytes peerDeps (.obj [("version", .num 2), ("peer", .str "peer"),
      ("entries", .arr [])]) = 40 := by decide +kernel
  have hexchange := utf8ByteSize_obj_exchange peerDeps.renderFraction
    [("version", .num 2), ("peer", .str "peer")] [] "entries" (.arr [e.toJson]) (.arr [])
  have hlist : (Json.stringify peerDeps.renderFraction (.arr [e.toJson])).utf8ByteSize =
      entryBytes peerDeps e + 2 := by
    rw [Json.stringify, stringifyItems_eq_map, List.map_singleton, String.intercalate_singleton,
      String.utf8ByteSize_append, String.utf8ByteSize_append, hbracket.1, hbracket.2]
    show 1 + entryBytes peerDeps e + 1 = _
    omega
  have hnone : (Json.stringify peerDeps.renderFraction (.arr [])).utf8ByteSize = 2 := by
    decide +kernel
  rw [hlist, hnone] at hexchange
  change fileBytes peerDeps [e] + 2 = jsonBytes peerDeps (.obj [("version", .num 2),
    ("peer", .str "peer"), ("entries", .arr [])]) + (entryBytes peerDeps e + 2) at hexchange
  omega

def holding (e : OutboxEntry) : RequestOutbox := ⟨some (savedFile peerDeps [e]), [e], false, false⟩

theorem perform_holding (hsmall : entryBytes peerDeps e ≤ 600000) (hdegraded : s.degraded = false)
    (hquarantined : s.quarantined = false) (restored : List OutboxEntry) :
    s.perform peerDeps true (.saves [e] restored) = (some true, holding e) := by
  obtain ⟨file, entries, degraded, quarantined⟩ := s
  cases hdegraded
  cases hquarantined
  have hfile := fileBytes_singleton e
  have hmax : outboxMaxFileBytes = 10000000 := rfl
  simp only [perform, checkpoint, if_true]
  rw [if_neg (by omega)]
  rfl

theorem change_recall {body : String} (hbody : (Json.quote body).utf8ByteSize ≤ 524105) :
    (recallCall "f" body).op.change peerDeps freshOutbox = .saves [recalled body] [] := by
  have hfresh := (entryBytes_recalled body).1
  have hmax : outboxMaxEntryBytes = 524288 := rfl
  have hdeadline : Date.ofMillis? (Date.epoch.ms + peerDeps.retryDeadlineMs) =
      some ⟨900000, by decide⟩ := by decide
  have hroom : ¬ outboxMaxEntryBytes < entryBytes peerDeps (recalled body) := by omega
  simp only [recallCall, RequestOutboxOp.change, append, freshOutbox, hdeadline, Bool.false_eq_true,
    or_self, if_false, List.length_nil, List.nil_append]
  rw [if_neg (by decide)]
  unfold recalled at hroom ⊢
  rw [if_neg hroom]

theorem change_sent : sent.op.change peerDeps (holding (recalled body)) =
    .saves [inFlight .epoch (recalled body)] [recalled body] := rfl

theorem outboxCall_recall {body : String} (hbody : (Json.quote body).utf8ByteSize ≤ 524105) :
    outboxCall peerDeps freshOutbox (recallCall "f" body) = (some true, holding (recalled body)) ∧
      outboxCall peerDeps (holding (recalled body)) sent =
        (some true, holding (inFlight .epoch (recalled body))) := by
  obtain ⟨hfresh, hsent⟩ := entryBytes_recalled body
  constructor
  · rw [outboxCall, change_recall hbody]
    exact perform_holding (by omega) rfl rfl []
  · exact perform_holding (by omega) rfl rfl [recalled body]

theorem not_reloads_sent {body : String} (hbody : (Json.quote body).utf8ByteSize = 524105) :
    ¬ (runFrom (requestOutboxStep peerDeps) freshOutbox [recallCall "f" body, sent]).Reloads peerDeps := by
  obtain ⟨hrecall, hsent⟩ := outboxCall_recall (Nat.le_of_eq hbody)
  have hrun : runFrom (requestOutboxStep peerDeps) freshOutbox [recallCall "f" body, sent] =
      holding (inFlight .epoch (recalled body)) := by
    rw [runFrom_cons, runFrom_cons, runFrom_nil, requestOutboxStep, requestOutboxStep, hrecall, hsent]
  have hlarge := (entryBytes_recalled body).2
  have hfile := fileBytes_singleton (inFlight .epoch (recalled body))
  have hmax : outboxMaxEntryBytes = 524288 ∧ outboxMaxFileBytes = 10000000 := ⟨rfl, rfl⟩
  have hlist := listBytes_le_fileBytes peerDeps [inFlight .epoch (recalled body)]
  have hsaved : (holding (inFlight .epoch (recalled body))).Saved peerDeps :=
    .inl ⟨rfl, by change listBytes peerDeps [inFlight .epoch (recalled body)] ≤ _; omega⟩
  rw [hrun]
  intro hreloads
  have hsmall := ((reloads_iff hsaved).1 hreloads).small _ List.mem_cons_self
  omega

/-- Two entries of one id are accepted, and an entry that is as large as it may be outgrows the limit
when it is marked as sent: neither file is loaded. -/
theorem outbox_unreadable :
    (let s := runFrom (requestOutboxStep peerDeps) freshOutbox
        [recallCall "f" "\x7b\x7d", recallCall "f" "\x7b\x7d"];
      s.entries.length = 2 ∧ s.degraded = false ∧ (load peerDeps s.file 0 false true).map
        (fun s => (s.quarantined, s.entries.length)) = some (true, 0)) ∧
    (outboxCall peerDeps freshOutbox (recallCall "f" fullBody)).1 = some true ∧
    (outboxCall peerDeps (requestOutboxStep peerDeps freshOutbox (recallCall "f" fullBody)) sent).1 =
      some true ∧
    ¬ (runFrom (requestOutboxStep peerDeps) freshOutbox [recallCall "f" fullBody, sent]).Reloads peerDeps := by
  have hsize : (Json.quote fullBody).utf8ByteSize = 524105 := utf8ByteSize_quote_plainText 524103
  obtain ⟨hrecall, hsent⟩ := outboxCall_recall (Nat.le_of_eq hsize)
  refine ⟨by decide +kernel, ?_, ?_, not_reloads_sent hsize⟩
  · rw [hrecall]
  · rw [requestOutboxStep, hrecall, hsent]

theorem outbox_reloads_recall : StepsMeet (requestOutboxStep peerDeps)
    (fun s call => (requestOutboxStep peerDeps s call).Reloads peerDeps) freshOutbox
      [recallCall "f" "\x7b\x7d", sent] := by
  have hbody : (Json.quote "\x7b\x7d").utf8ByteSize = 4 := by decide
  have hsize : (Json.quote "\x7b\x7d").utf8ByteSize ≤ 524105 := by omega
  obtain ⟨hfresh, hsent⟩ := entryBytes_recalled "\x7b\x7d"
  have hmax : outboxMaxEntryBytes = 524288 ∧ outboxMaxFileBytes = 10000000 := ⟨rfl, rfl⟩
  have hroom : ¬ outboxMaxFileBytes < fileBytes peerDeps [recalled "\x7b\x7d"] := by
    have hfile := fileBytes_singleton (recalled "\x7b\x7d")
    omega
  have hroom' : ¬ outboxMaxFileBytes <
      fileBytes peerDeps [inFlight .epoch (recalled "\x7b\x7d")] := by
    have hfile := fileBytes_singleton (inFlight .epoch (recalled "\x7b\x7d"))
    omega
  have hrecall : requestOutboxStep peerDeps freshOutbox (recallCall "f" "\x7b\x7d") =
      holding (recalled "\x7b\x7d") := by
    rw [requestOutboxStep, (outboxCall_recall hsize).1]
  have hkeeps : (holding (recalled "\x7b\x7d")).Keepable peerDeps sent := by
    intro e hfound _
    obtain rfl : recalled "\x7b\x7d" = e := Option.some.inj hfound
    omega
  have hwrites : StepsMeet (requestOutboxStep peerDeps) (fun s call => ¬ s.Fails peerDeps call) freshOutbox
      [recallCall "f" "\x7b\x7d", sent] := by
    refine ⟨?_, ?_, trivial⟩
    · rintro ⟨changed, restored, hchange, hfails⟩
      rw [change_recall hsize] at hchange
      cases hchange
      rw [checkpoint, if_neg hroom] at hfails
      cases hfails
    rw [hrecall]
    rintro ⟨changed, restored, hchange, hfails⟩
    rw [change_sent] at hchange
    cases hchange
    rw [checkpoint, if_neg hroom'] at hfails
    cases hfails
  exact (outbox_reloads peerDeps freshOutbox (.inr ⟨rfl, rfl⟩)
    ((reloads_iff (.inr ⟨rfl, rfl⟩)).2 (loadable_nil peerDeps)) _ hwrites).2
    ⟨fun _ => by decide, hrecall ▸ hkeeps, trivial⟩

end RequestOutbox

end Abtars
