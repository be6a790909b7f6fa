import Abtars.Lib.Lineage
import Abtars.Retry.Decision
import Abtars.Retry.Service
import Abtars.Worker.Runs

/-!
# The attempt cap of a lineage

A card's attempts form a line: the first one, and each further one as the
successor of a terminal attempt without a successor.  So an admitted allocation
finds every attempt of its card terminal, and the number of terminal attempts it
is admitted against is the length of the lineage.
-/

namespace Abtars

open Lib

/-! ## Runs of the retry store -/

inductive LineageOp
  | worker (op : WorkerOp)
  | decide (op : DecisionOp)

def lineageStep (rt : Runtime) (db : Db) : LineageOp → Db
  | .worker op => workerStep rt db op
  | .decide op => decisionStep db op

def WithinCap (db : Db) : Prop :=
  ∀ cardId, (attemptsForCard db cardId).length ≤ GlobalLimits.maxAttempts

/-- An allocation that goes through finds fewer terminal attempts on its card than
the limit. -/
def LeavesRoom (db : Db) : LineageOp → Prop
  | .worker (.allocateRetry now req) =>
    ∀ source decision, admitAllocation db req = .ok (source, decision) →
      AllocationFits now req source db →
      (terminalAttempts db req.cardId).length < GlobalLimits.maxAttempts
  | _ => True

/-! ## Attempts as a lineage -/

def attemptLineage : Lineage AttemptRow String Nat where
  id := AttemptRow.id
  source := AttemptRow.sourceAttemptId
  group := AttemptRow.cardId
  settled := fun a => a.lifecycle.isTerminal = true

def SoundLineages (db : Db) : Prop :=
  attemptLineage.Linear db.workerAttempts.rows

theorem length_attemptsForCard (db : Db) (cardId : Nat) :
    (attemptsForCard db cardId).length = attemptLineage.size db.workerAttempts.rows cardId :=
  rfl

theorem soundLineages_of_firstAttempts {db : Db}
    (hsource : ∀ a ∈ db.workerAttempts, a.sourceAttemptId = none)
    (hfirst : ∀ a ∈ db.workerAttempts, ∀ b ∈ db.workerAttempts, a.cardId = b.cardId → a = b) :
    SoundLineages db where
  nodup := db.workerAttempts.keys_nodup
  exists_source := by
    intro c hc k hk
    have hnone : c.sourceAttemptId = some k := hk
    rw [hsource c hc] at hnone
    cases hnone
  ends := fun a ha b hb hcard _ _ => congrArg AttemptRow.id (hfirst a ha b hb hcard)

/-! ## What the other operations leave alone -/

structure AttemptRow.KeepsPlace (a a' : AttemptRow) : Prop where
  id : a'.id = a.id
  cardId : a'.cardId = a.cardId
  source : a'.sourceAttemptId = a.sourceAttemptId
  terminal : a.lifecycle.isTerminal = true → a'.lifecycle.isTerminal = true

theorem AttemptRow.KeepsPlace.refl (a : AttemptRow) : a.KeepsPlace a :=
  ⟨rfl, rfl, rfl, fun h => h⟩

theorem AttemptRow.Moves.keepsPlace {claims cancels : String → Prop} {a a' : AttemptRow}
    (h : a.Moves claims cancels a') : a.KeepsPlace a' where
  id := h.id_eq
  cardId := h.cardId_eq
  source := by cases h <;> rfl
  terminal := fun hterminal => by rwa [h.eq_of_terminal hterminal]

section Keeps

variable {attemptId : String} {rt : Runtime} {db db' : Db}

theorem keeps_of_evolves {R : AttemptRow → AttemptRow → Prop} {N : AttemptRow → Prop}
    {attempts attempts' : Table AttemptRow} (h : attempts.Evolves R N attempts')
    (hlength : attempts'.rows.length = attempts.rows.length)
    (hR : ∀ a a', R a a' → a.KeepsPlace a') :
    attemptLineage.Keeps attempts.rows attempts'.rows := by
  obtain ⟨f, fresh, hrows, hf, -⟩ := h
  have hfresh : fresh = [] := by
    rw [hrows, List.length_append, List.length_map] at hlength
    exact List.eq_nil_of_length_eq_zero (by omega)
  refine ⟨f, by rw [hrows, hfresh, List.append_nil], fun a ha => ?_⟩
  have hplace := hR a (f a) (hf a ha)
  exact ⟨hplace.id, hplace.source, hplace.cardId, hplace.terminal⟩

theorem QuietStep.keeps {claims cancels closes : String → Prop}
    (h : QuietStep claims cancels closes db db')
    (hlength : db'.workerAttempts.rows.length = db.workerAttempts.rows.length) :
    attemptLineage.Keeps db.workerAttempts.rows db'.workerAttempts.rows :=
  keeps_of_evolves h.attempts hlength fun _ _ hmoves => hmoves.keepsPlace

theorem keeps_modify (write : AttemptRow → AttemptRow)
    (hwrite : ∀ a, Keyed.key (write a) = Keyed.key a)
    (hplace : ∀ a, db.workerAttempts.get attemptId = some a → a.KeepsPlace (write a)) :
    attemptLineage.Keeps db.workerAttempts.rows
      (db.workerAttempts.modify attemptId write hwrite).rows :=
  keeps_of_evolves (N := fun _ => True) (Table.evolves_modify .refl hwrite hplace)
    (by simp [Table.modify, Table.updateWhere]) fun _ _ h => h

/-! ### The number of attempts -/

theorem length_lifecycleTransition {fromLifecycles : List AttemptLifecycle}
    {write : AttemptRow → AttemptRow} {hwrite : ∀ a, (write a).id = a.id} :
    (lifecycleTransition attemptId fromLifecycles write hwrite db).2.workerAttempts.rows.length =
      db.workerAttempts.rows.length := by
  unfold lifecycleTransition
  split
  · rfl
  · split
    · exact List.length_map _
    · rfl

theorem length_authorizedLifecycleTransition {fromLifecycles : List AttemptLifecycle}
    {write : AttemptRow → AttemptRow} {hwrite : ∀ a, (write a).id = a.id} :
    (authorizedLifecycleTransition attemptId fromLifecycles write hwrite
        db).2.workerAttempts.rows.length = db.workerAttempts.rows.length := by
  unfold authorizedLifecycleTransition
  split
  · rfl
  · split
    · rfl
    · exact length_lifecycleTransition

theorem length_stopAttempt (now : Millis) (reason : String) (attempt : AttemptRow) (db : Db) :
    (stopAttempt now reason attempt db).2.workerAttempts.rows.length =
      db.workerAttempts.rows.length := by
  unfold stopAttempt
  split
  · exact length_lifecycleTransition
  · exact length_lifecycleTransition
  · exact length_lifecycleTransition
  · exact length_lifecycleTransition
  · rfl
  · rfl

theorem attempts_kanbanTransition {redactSecrets : String → String} {now : Millis}
    {req : TransitionRequest} {outcome : TransitionOutcome}
    (h : kanbanTransition redactSecrets now req db = .ok (outcome, db')) :
    db'.workerAttempts = db.workerAttempts := by
  obtain ⟨_, _, _, _, -, rfl⟩ := kanbanTransition_frame h
  rfl

theorem length_cancelProjectChild {now : Millis} {cardId : Nat}
    {authority : ProjectMutationAuthority} {reason : String} {cancelled : Bool}
    (h : cancelProjectChild rt now cardId authority reason db = .ok (cancelled, db')) :
    db'.workerAttempts.rows.length = db.workerAttempts.rows.length := by
  unfold cancelProjectChild at h
  split at h
  · cases h
    rfl
  rename_i attempt _
  have hstop := length_stopAttempt now reason attempt db
  split at h
  · rename_i hstopped
    cases h
    rwa [hstopped] at hstop
  rename_i hstopped
  rw [hstopped] at hstop
  split at h
  · cases h
  · rename_i hcard
    cases h
    rwa [attempts_kanbanTransition hcard]
  · rename_i hcard
    cases h
    rwa [attempts_kanbanTransition hcard]

theorem length_applySuccessorEffect {clock : Millis} {effect : SuccessorEffect} {done : Unit}
    (h : applySuccessorEffect rt clock effect db = .ok (done, db')) :
    db'.workerAttempts.rows.length = db.workerAttempts.rows.length := by
  have hready : ∀ d, (effect.markReady d).workerAttempts = d.workerAttempts := by
    intro d
    unfold SuccessorEffect.markReady
    split <;> rfl
  have hfence : (effect.fence clock (effect.advance db)).workerAttempts.rows.length =
      db.workerAttempts.rows.length := by
    unfold SuccessorEffect.fence
    split
    · rfl
    · exact List.length_map _
  unfold applySuccessorEffect at h
  dsimp only at h
  split at h
  · cases h
    rw [hready, hfence]
  split at h
  · cases h
  · rename_i hcard
    cases h
    rw [hready, attempts_kanbanTransition hcard, hfence]

theorem length_commitSuccessor (hook : SuccessorHook) (input : SettleInput)
    (attempt : AttemptRow) (verdict : DesiredState) (clock : Millis) :
    (commitSuccessor rt hook input attempt verdict clock db).workerAttempts.rows.length =
      db.workerAttempts.rows.length := by
  unfold commitSuccessor
  split
  · rfl
  rename_i effect _
  rcases transactionCatching_cases (applySuccessorEffect rt clock effect) (fun _ => ()) db with
    ⟨⟨done, after⟩, hbody, hrun⟩ | ⟨_, -, hrun⟩
  · rw [hrun]
    exact length_applySuccessorEffect hbody
  · rw [hrun]

/-- Only an allocation brings a new attempt. -/
theorem length_workerStep (rt : Runtime) (db : Db) (op : WorkerOp)
    (hop : ∀ now req, op ≠ .allocateRetry now req) :
    (workerStep rt db op).workerAttempts.rows.length = db.workerAttempts.rows.length := by
  cases op with
  | claimWithinLimits now req =>
    simp only [workerStep, claimAttemptWithinLimits]
    split
    · rfl
    · exact List.length_map _
  | claimAttempt now cardId kind executorId generation deadline =>
    simp only [workerStep, claimAttempt]
    split
    · rfl
    split_ifs
    · rfl
    · rfl
    · rfl
    · exact length_lifecycleTransition
  | claimRetry now cardId attemptId contractId kind executorId generation source deadline =>
    simp only [workerStep, claimRetryAttempt]
    split
    · rfl
    · split
      · exact List.length_map _
      · rfl
  | markStartObservable attemptId => exact length_authorizedLifecycleTransition
  | markRunning attemptId => exact length_authorizedLifecycleTransition
  | requestCancel attemptId reason => exact length_lifecycleTransition
  | defer now attemptId generation reason =>
    simp only [workerStep, deferClaimAfterProvenNoStart]
    split
    · rfl
    rename_i attempt _
    obtain ⟨_, _, hclose⟩ := closeLease_frame now
      { db with workerAttempts := db.workerAttempts.modify attemptId AttemptRow.defer }
      attemptId attempt.generation ("deferred:" ++ reason.text)
    rw [hclose]
    exact List.length_map _
  | cancelPending now attemptId reason => exact length_lifecycleTransition
  | cancelProjectChild now cardId authority reason =>
    simp only [workerStep, transaction]
    split
    · rename_i hbody
      exact length_cancelProjectChild hbody
    · rfl
  | settle hook clock input =>
    simp only [workerStep, settleAttempt]
    split
    · rfl
    rename_i attempt _
    rw [length_commitSuccessor]
    obtain ⟨_, _, _, _, -, hwrites⟩ := settleWrites_eq rt input attempt clock db
    rw [hwrites]
    exact List.length_map _
  | allocateRetry now req => exact absurd rfl (hop now req)
  | appendFact now policy resolver fact =>
    rcases appendFact_cases rt now policy resolver db fact with
      h | ⟨_, _, _, -, -, -, h⟩ <;> rw [workerStep, h]
    rfl
  | closeLease now attemptId generation reason =>
    obtain ⟨_, _, h⟩ := closeLease_frame now db attemptId generation reason
    rw [workerStep, h]
  | transition now req =>
    simp only [workerStep, transaction]
    split
    · rename_i hbody
      rw [attempts_kanbanTransition hbody]
    · rfl

theorem workerStep_keeps (op : WorkerOp) (hop : ∀ now req, op ≠ .allocateRetry now req) :
    attemptLineage.Keeps db.workerAttempts.rows (workerStep rt db op).workerAttempts.rows := by
  have hlength := length_workerStep rt db op hop
  rcases workerStep_cases rt db op with
    hquiet | ⟨now, req, rfl, hadmitted, hstep⟩ | ⟨hook, clock, input, attempt, rfl, hadmits, hquiet⟩
  · exact hquiet.keeps hlength
  · rw [hstep]
    obtain ⟨attempt, _, hattempt, -, -⟩ := claimRefusal_none hadmitted
    obtain ⟨hget, -, hpending⟩ := attemptRefusal_ok hattempt
    refine keeps_modify (AttemptRow.claim now req.generation req.hardDeadlineAt
      req.reservedTokens) (fun _ => rfl) fun a ha => ?_
    obtain rfl : attempt = a := Option.some.inj (hget.symm.trans ha)
    refine ⟨rfl, rfl, rfl, fun hterminal => ?_⟩
    simp [hpending, AttemptLifecycle.isTerminal] at hterminal
  · obtain ⟨write, hwrite, _, _, hrow, hwrites⟩ := settleWrites_eq rt input attempt clock db
    obtain ⟨hget, -⟩ := admitSettlement_ok hadmits
    have hsettled : attemptLineage.Keeps db.workerAttempts.rows
        (settleWrites rt input attempt clock db).workerAttempts.rows := by
      rw [hwrites]
      refine keeps_modify write hwrite fun a ha => ?_
      obtain rfl : attempt = a := Option.some.inj (hget.symm.trans ha)
      have hid : (write attempt).id = attempt.id := hwrite attempt
      rw [hrow] at hid ⊢
      refine ⟨hid, settledRow_cardId _, settledRow_sourceAttemptId _, fun _ => ?_⟩
      rw [settledRow_lifecycle, DesiredState.isTerminal_lifecycle]
    refine hsettled.trans (hquiet.keeps ?_)
    rw [hlength, hwrites]
    exact (List.length_map _).symm

end Keeps

section Allocation

variable {rt : Runtime} {now : Millis} {req : AllocationRequest} {db : Db}
  {source : AttemptRow} {decision : DecisionRow}

/-- The source of an admitted allocation is terminal and has no successor. -/
theorem admitAllocation_source (h : admitAllocation db req = .ok (source, decision)) :
    db.workerAttempts.get req.sourceAttemptId = some source ∧
      source.lifecycle.isTerminal = true ∧ existingAllocation db req = none := by
  unfold admitAllocation at h
  cases hget : db.workerAttempts.get req.sourceAttemptId with
  | none => simp [hget] at h
  | some s =>
    simp only [hget] at h
    split at h
    · cases h
    rename_i hterminal
    split at h
    · cases h
    split at h
    · cases h
    split at h
    · cases h
    rename_i hexisting
    split at h
    · cases h
    split at h
    · cases h
    split at h
    · cases h
    cases h
    exact ⟨rfl, by simpa using hterminal, hexisting⟩

theorem targetForSource_of_admitted (h : existingAllocation db req = none) :
    targetForSource db req.sourceAttemptId = none := by
  unfold existingAllocation at h
  split at h
  · split at h <;> cases h
  · split at h
    · cases h
    · assumption

/-- The source of an admitted allocation is an open end. -/
theorem source_open_of_admitted (hget : db.workerAttempts.get req.sourceAttemptId = some source)
    (h : existingAllocation db req = none) : attemptLineage.Open db.workerAttempts.rows source := by
  have hnone := List.find?_eq_none.1 (targetForSource_of_admitted h)
  have hid : source.id = req.sourceAttemptId := Table.key_of_get hget
  intro c hc hsource
  have hnamed : c.sourceAttemptId = some source.id := hsource
  rw [hid] at hnamed
  exact hnone c hc (by simpa using hnamed)

theorem accept_workerAttempts {inserted : Db}
    (hadmits : admitAllocation db req = .ok (source, decision))
    (hinsert : insertAllocation now req source decision db = some inserted) :
    (acceptDirectiveAndAllocateTarget rt now req db).2.workerAttempts =
      inserted.workerAttempts := by
  by_cases hcard : CardRequeueable inserted req.cardId
  · obtain ⟨card, -, hrequeue⟩ := requeue_of_requeueable rt.redactSecrets now hcard
    have hbody : allocateBody rt now req db = .ok (.created,
        applyTransition rt.redactSecrets now (requeueRequest req.cardId) card inserted) := by
      simp [allocateBody, hadmits, hinsert, hrequeue]
    rw [acceptDirectiveAndAllocateTarget, transactionCatching_of_ok hbody]
    exact attempts_kanbanTransition hrequeue
  · obtain ⟨observed, hrequeue⟩ := requeue_of_not_requeueable rt.redactSecrets now hcard
    have hbody : allocateBody rt now req db = .ok (.staleSource, inserted) := by
      simp [allocateBody, hadmits, hinsert, hrequeue]
    rw [acceptDirectiveAndAllocateTarget, transactionCatching_of_ok hbody]

theorem accept_attempts_cases (rt : Runtime) (now : Millis) (req : AllocationRequest) (db : Db) :
    (acceptDirectiveAndAllocateTarget rt now req db).2 = db ∧
      (∀ source decision, admitAllocation db req = .ok (source, decision) →
        ¬ AllocationFits now req source db) ∨
    ∃ source decision, admitAllocation db req = .ok (source, decision) ∧
      AllocationFits now req source db ∧
      (acceptDirectiveAndAllocateTarget rt now req db).2.workerAttempts.rows =
        db.workerAttempts.rows ++ [req.attemptRow source] := by
  cases hadmits : admitAllocation db req with
  | error outcome =>
    left
    rw [accept_of_refused hadmits]
    exact ⟨rfl, fun _ _ h => by cases h⟩
  | ok admitted =>
    obtain ⟨source, decision⟩ := admitted
    by_cases hfits : AllocationFits now req source db
    · obtain ⟨inserted, hinsert⟩ := exists_insertAllocation_iff.2 hfits
      refine .inr ⟨source, decision, rfl, hfits, ?_⟩
      rw [accept_workerAttempts hadmits hinsert]
      obtain ⟨_, attempts, _, _, -, hattempts, -, -, rfl⟩ := insertAllocation_eq_some hinsert
      exact (Table.insert_eq_some_iff.1 hattempts).2.2
    left
    rw [accept_of_unfit hadmits hfits]
    refine ⟨rfl, fun source' decision' h => ?_⟩
    cases h
    exact hfits

theorem attempts_terminal_of_admitted (hsound : SoundLineages db)
    (hadmits : admitAllocation db req = .ok (source, decision)) :
    terminalAttempts db req.cardId = attemptsForCard db req.cardId := by
  obtain ⟨hget, hterminal, hexisting⟩ := admitAllocation_source hadmits
  have hlineage := (admitAllocation_ok hadmits).1
  simp only [lineageMatches, Bool.decide_and, Bool.and_eq_true, decide_eq_true_eq] at hlineage
  refine List.filter_eq_self.2 fun a ha => ?_
  obtain ⟨hmem, hcard⟩ := (Table.mem_select _ _ _).1 ha
  have hgroup : a.cardId = source.cardId := by
    rw [hlineage.1]
    simpa using hcard
  exact hsound.settled_of_open (Table.mem_of_get hget) hterminal
    (source_open_of_admitted hget hexisting) hmem hgroup

end Allocation

section Step

variable {rt : Runtime} {db : Db}

/-- An operation rewrites attempts in place, or is an allocation that adds one to
the line of its card. -/
theorem lineageStep_cases (rt : Runtime) (db : Db) (op : LineageOp) :
    attemptLineage.Keeps db.workerAttempts.rows (lineageStep rt db op).workerAttempts.rows ∧
      LeavesRoom db op ∨
    ∃ now req source decision, op = .worker (.allocateRetry now req) ∧
      admitAllocation db req = .ok (source, decision) ∧ AllocationFits now req source db ∧
      (lineageStep rt db op).workerAttempts.rows =
        db.workerAttempts.rows ++ [req.attemptRow source] := by
  cases op with
  | decide op =>
    obtain ⟨_, _, _, h⟩ := decisionStep_frame db op
    left
    rw [lineageStep, h]
    exact ⟨.refl _, trivial⟩
  | worker op =>
    by_cases hop : ∃ now req, op = .allocateRetry now req
    · obtain ⟨now, req, rfl⟩ := hop
      rcases accept_attempts_cases rt now req db with
        ⟨hsame, hunfit⟩ | ⟨source, decision, hadmits, hfits, hrows⟩
      · left
        rw [lineageStep, workerStep, hsame]
        exact ⟨.refl _, fun source decision hadmits hfits =>
          absurd hfits (hunfit source decision hadmits)⟩
      · exact .inr ⟨now, req, source, decision, rfl, hadmits, hfits, hrows⟩
    · have hother : ∀ now req, op ≠ .allocateRetry now req :=
        fun now req heq => hop ⟨now, req, heq⟩
      refine .inl ⟨workerStep_keeps op hother, ?_⟩
      cases op with
      | allocateRetry now req => exact absurd rfl (hother now req)
      | _ => trivial

theorem soundLineages_step (op : LineageOp) (h : SoundLineages db) :
    SoundLineages (lineageStep rt db op) := by
  rcases lineageStep_cases rt db op with
    ⟨hkeeps, -⟩ | ⟨now, req, source, decision, -, hadmits, hfits, hrows⟩
  · exact h.of_keeps hkeeps
  · obtain ⟨hget, hterminal, hexisting⟩ := admitAllocation_source hadmits
    have hlineage := (admitAllocation_ok hadmits).1
    simp only [lineageMatches, Bool.decide_and, Bool.and_eq_true, decide_eq_true_eq] at hlineage
    obtain ⟨hcard, hinsertCard, -, -, hinsertSource⟩ := hlineage
    have hid : source.id = req.sourceAttemptId := Table.key_of_get hget
    have hline : attemptLineage.Linear
        (db.workerAttempts.rows ++ [req.attemptRow source]) := by
      refine h.concat (Table.mem_of_get hget) hterminal (source_open_of_admitted hget hexisting)
        ?_ ?_ fun a ha => Table.get_eq_none_iff.1 hfits.attempt.1 a ha
      · show some req.attemptInsert.sourceAttemptId = some source.id
        rw [hinsertSource, hid]
      · show req.attemptInsert.cardId = source.cardId
        rw [hinsertCard, hcard]
    rwa [SoundLineages, hrows]

/-- One step keeps the cap exactly when it meets the condition. -/
theorem withinCap_step_iff (op : LineageOp) (hsound : SoundLineages db) (hcap : WithinCap db) :
    WithinCap (lineageStep rt db op) ↔ LeavesRoom db op := by
  rcases lineageStep_cases rt db op with
    ⟨hkeeps, hroom⟩ | ⟨now, req, source, decision, rfl, hadmits, hfits, hrows⟩
  · refine ⟨fun _ => hroom, fun _ cardId => ?_⟩
    have hsize := hcap cardId
    rw [length_attemptsForCard] at hsize ⊢
    rwa [hkeeps.size_eq]
  · have hlineage := (admitAllocation_ok hadmits).1
    simp only [lineageMatches, Bool.decide_and, Bool.and_eq_true, decide_eq_true_eq] at hlineage
    have hgroup : (req.attemptRow source).cardId = req.cardId := hlineage.2.1
    have hlength : ∀ cardId,
        (attemptsForCard (lineageStep rt db (.worker (.allocateRetry now req))) cardId).length =
          (attemptsForCard db cardId).length + if req.cardId = cardId then 1 else 0 := by
      intro cardId
      rw [length_attemptsForCard, hrows, Lineage.size_concat, ← length_attemptsForCard, ← hgroup]
      rfl
    have hterminal := attempts_terminal_of_admitted hsound hadmits
    constructor
    · intro hnext _ _ _ _
      have hfull := hnext req.cardId
      rw [hlength, if_pos rfl] at hfull
      rw [hterminal]
      omega
    intro hroom cardId
    have hfew := hroom source decision hadmits hfits
    rw [hterminal] at hfew
    rw [hlength]
    split
    · rename_i heq
      subst heq
      omega
    · exact hcap cardId

end Step

/-! ## What a run preserves -/

/-- In every run whose allocations find fewer than five terminal attempts on their
card, no card's lineage exceeds the limit. -/
theorem attempts_capped (rt : Runtime) (db : Db) (ops : List LineageOp)
    (hsound : SoundLineages db) (hcap : WithinCap db)
    (hroom : StepsMeet (lineageStep rt) LeavesRoom db ops) :
    WithinCap (runFrom (lineageStep rt) db ops) := by
  have hboth := invariant_of_stepsMeet (I := fun s => SoundLineages s ∧ WithinCap s)
    (fun s op hs hop =>
      ⟨soundLineages_step op hs.1, (withinCap_step_iff op hs.1 hs.2).2 hop⟩)
    ops db ⟨hsound, hcap⟩ hroom
  exact hboth.2

/-! ## Six attempts -/

/-- The name of the `n`-th row of a kind. -/
def nthName (kind : String) (n : Nat) : String := kind ++ toString n

/-- The decision on attempt `n`. -/
def nthDecision (n : Nat) : RetryPolicyDecision :=
  { sampleDecision with sourceAttemptId := nthName "a" n, inputDigest := nthName "a" n }

/-- The request that retries attempt `n` of card 1 as attempt `n + 1`. -/
def nthRetry (n : Nat) : AllocationRequest where
  sourceAttemptId := nthName "a" n
  cardId := 1
  decision := nthDecision n
  directive :=
    { sampleDirective with
      id := nthName "d" n
      sourceAttemptId := nthName "a" n
      targetOrdinal := n + 1
      decisionId := nthName "a" n }
  revisedContract :=
    sampleContract (n + 1) (nthName "c" (n + 1)) (some (nthName "c" n)) (some (nthName "a" n))
  targetAttemptId := nthName "a" (n + 1)
  budgetReservation := { tokens := 0, cost := 0, switches := 0 }
  attemptInsert :=
    { id := nthName "a" (n + 1), cardId := 1, contractId := nthName "c" (n + 1)
      ordinal := n + 1, executorKind := .agent, executorId := agentExecutorId
      status := "pending", startedAt := 0, sourceAttemptId := nthName "a" n
      earliestClaimAt := 0 }
  authority := none

/-- Attempt `n` is put up for review and retried; the retry is claimed, started and
settled as failed, and so is its card. -/
def retryAndFail (n : Nat) : List LineageOp :=
  [.decide (.insertDecision 5 (nthDecision n) .reviewRequired none),
   .worker (.allocateRetry 10 (nthRetry n)),
   .worker (.claimRetry 20 1 (nthName "a" (n + 1)) (nthName "c" (n + 1)) .agent
     agentExecutorId 1 (nthName "a" n) none),
   .worker (.markRunning (nthName "a" (n + 1))),
   .worker (.settle (fun _ _ => none) 30
     { attemptId := nthName "a" (n + 1), expectedGeneration := 1, desiredState := .failed
       stableReason := "worker failed", normalizedUsage := none, envelope := none
       now := none, inputRequested := false }),
   .worker (.transition 40 (cancelChildRequest 40 1 "worker failed"))]

/-- The fifth attempt waits for input, as failures that need input do whatever the
budget; the review is opened again, and accepted. -/
def retryAfterInput : List LineageOp :=
  [.decide (.insertDecision 50 (nthDecision 5) .needsInput none),
   .decide (.compareAndSet 60 (nthName "a" 5) .needsInput .reviewRequired),
   .worker (.allocateRetry 70 (nthRetry 5))]

theorem timedOutAttemptDb_soundLineages (status : CardStatus) :
    SoundLineages (timedOutAttemptDb status) := by
  have hrows : (timedOutAttemptDb status).workerAttempts.rows =
      [{ pendingAttempt "a1" 1 "c1" 1 .agent agentExecutorId 0 with
         lifecycle := .timedOut, status := "timed_out", settledAt := some 0 }] := rfl
  refine soundLineages_of_firstAttempts (fun a ha => ?_) fun a ha b hb _ => ?_
  · rw [Table.mem_def, hrows, List.mem_singleton] at ha
    rw [ha]
    rfl
  · rw [Table.mem_def, hrows, List.mem_singleton] at ha hb
    rw [ha, hb]

theorem timedOutAttemptDb_withinCap (status : CardStatus) :
    WithinCap (timedOutAttemptDb status) := by
  intro cardId
  refine (List.length_filter_le _ _).trans ?_
  show 1 ≤ GlobalLimits.maxAttempts
  decide

/-- A first retry that fails leaves the lineage within the limit. -/
theorem attempts_capped_after_retry :
    WithinCap (runFrom (lineageStep Runtime.plain) (timedOutAttemptDb .failed)
      (retryAndFail 1)) := by
  refine attempts_capped Runtime.plain _ _ (timedOutAttemptDb_soundLineages .failed)
    (timedOutAttemptDb_withinCap .failed)
    ⟨trivial, fun _ _ _ _ => ?_, trivial, trivial, trivial, trivial, trivial⟩
  decide

/-- Five attempts fail, the last one asks for input, and a sixth is allocated. -/
theorem sixth_attempt :
    ¬ ∀ (rt : Runtime) (db : Db) (ops : List LineageOp), SoundLineages db → WithinCap db →
      WithinCap (runFrom (lineageStep rt) db ops) := by
  intro hclaim
  have hcap := hclaim Runtime.plain (timedOutAttemptDb .failed)
    (retryAndFail 1 ++ retryAndFail 2 ++ retryAndFail 3 ++ retryAndFail 4 ++ retryAfterInput)
    (timedOutAttemptDb_soundLineages .failed) (timedOutAttemptDb_withinCap .failed) 1
  have hsix : (attemptsForCard (runFrom (lineageStep Runtime.plain) (timedOutAttemptDb .failed)
      (retryAndFail 1 ++ retryAndFail 2 ++ retryAndFail 3 ++ retryAndFail 4 ++
        retryAfterInput)) 1).length = 6 := by
    decide +kernel
  rw [hsix] at hcap
  exact absurd hcap (by decide)

end Abtars
