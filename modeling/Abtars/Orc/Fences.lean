import Abtars.Lib.PartialIndex
import Abtars.Orc.RunStore

/-!
# Runs are exclusive, and work under a run is fenced

At most one run of a project is live and at most one run overall is in its turn; no generation of a
project is claimed twice; work runs only under a row that its context still owns.  Where the work
throws, its writes stay: the throw is caught inside the transaction.
-/

namespace Abtars

open Lib

namespace OrcDb

variable {s : OrcDb}

/-! ## What a claim does -/

def clearedGeneration (s : OrcDb) (projectCardId : Nat) : Nat :=
  ((s.fuses (.card projectCardId)).getD .default).clearedGeneration

structure OnlyOpens (s s' : OrcDb) : Prop where
  db : s'.db = s.db
  runs : s'.runs = s.runs
  counters : s'.ownershipCounters = s.ownershipCounters
  sequence : s'.nextSequence = s.nextSequence
  cleared : ∀ card, s'.clearedGeneration card = s.clearedGeneration card

theorem OnlyOpens.refl (s : OrcDb) : OnlyOpens s s := ⟨rfl, rfl, rfl, rfl, fun _ => rfl⟩

theorem onlyOpens_openFuse (now : Millis) (scope : FuseScope) (reason : String) :
    OnlyOpens s (s.openFuse now scope reason).2 := by
  refine ⟨rfl, rfl, rfl, rfl, fun card => ?_⟩
  unfold clearedGeneration openFuse
  dsimp only
  by_cases hscope : FuseScope.card card = scope
  · subst hscope
    rw [Function.update_self]
    cases hrow : s.fuses (.card card) with
    | none => rfl
    | some row =>
      dsimp only
      split <;> rfl
  · rw [Function.update_of_ne hscope]

theorem onlyOpens_evaluateCardFuse {guardrails : OrcGuardrails} {now : Millis}
    {input : OrcClaimInput} {r : String × OrcDb}
    (h : s.evaluateCardFuse guardrails now input = some r) : OnlyOpens s r.2 := by
  unfold evaluateCardFuse at h
  dsimp only at h
  split at h
  · cases h
    exact .refl s
  split at h
  · cases h
    exact onlyOpens_openFuse ..
  split at h
  · cases h
    exact onlyOpens_openFuse ..
  split at h
  · cases h
    exact onlyOpens_openFuse ..
  · cases h

theorem onlyOpens_evaluateBridgeFuse {guardrails : OrcGuardrails} {now : Millis}
    {r : String × OrcDb} (h : s.evaluateBridgeFuse guardrails now = some r) : OnlyOpens s r.2 := by
  unfold evaluateBridgeFuse at h
  dsimp only at h
  split at h
  · cases h
    exact .refl s
  split at h
  · cases h
    exact onlyOpens_openFuse ..
  split at h
  · cases h
    exact onlyOpens_openFuse ..
  split at h
  · cases h
    exact onlyOpens_openFuse ..
  · cases h

/-- A claim that inserts a row: no run of the project is live and no fuse refuses. -/
structure Claims (guardrails : OrcGuardrails) (now : Millis) (input : OrcClaimInput)
    (new : OrcProjectRunRow) (s s' : OrcDb) : Prop where
  idle : s.liveRun input.projectCardId = none
  closed : s.evaluateCardFuse guardrails now input = none
  card : new.projectCardId = input.projectCardId
  generation : new.ownershipGeneration = (s.ownershipCounters input.projectCardId).getD 1
  scheduled : new.state = .scheduled
  unended : new.outcome = none
  created : new.createdAt = now
  db : s'.db = s.db
  inserted : s.runs.insert (uniqueClash new) new = some s'.runs
  counters : s'.ownershipCounters = Function.update s.ownershipCounters input.projectCardId
    (some (new.ownershipGeneration + 1))
  fuses : s'.fuses = s.fuses

/-- A claim inserts a row and returns its context, or returns none and leaves the rows. -/
theorem claimIntent_cases (guardrails : OrcGuardrails) (now : Millis) (input : OrcClaimInput)
    (ownerPeer ownerInstanceId : String) (s : OrcDb) :
    (∃ new s', s.claimIntent guardrails now input ownerPeer ownerInstanceId =
        (.ok (.claimed (buildContextFromRow new)), s') ∧ Claims guardrails now input new s s') ∨
      OnlyOpens s (s.claimIntent guardrails now input ownerPeer ownerInstanceId).2 ∧
        ∀ context, (s.claimIntent guardrails now input ownerPeer ownerInstanceId).1 ≠
          .ok (.claimed context) := by
  cases hbody : s.claimIntentBody guardrails now input ownerPeer ownerInstanceId with
  | error e =>
    have hclaim : s.claimIntent guardrails now input ownerPeer ownerInstanceId = (.error e, s) :=
      transaction_of_error hbody
    rw [hclaim]
    exact .inr ⟨.refl s, by simp⟩
  | ok r =>
    obtain ⟨result, s'⟩ := r
    have hclaim : s.claimIntent guardrails now input ownerPeer ownerInstanceId =
        (.ok result, s') := transaction_of_ok hbody
    rw [hclaim]
    -- every return before the insert
    have hreturns : OnlyOpens s s' → (∀ context, result ≠ .claimed context) →
        OnlyOpens s s' ∧ ∀ context,
          (Except.ok result : Except String OrcRunClaimResult) ≠ .ok (.claimed context) := by
      intro hopens hresult
      refine ⟨hopens, fun context h => ?_⟩
      cases h
      exact hresult context rfl
    unfold claimIntentBody at hbody
    split at hbody
    · cases hbody
      exact .inr (hreturns (.refl s) (by simp))
    split at hbody
    · cases hbody
      exact .inr (hreturns (.refl s) (by simp))
    split at hbody
    · cases hbody
      exact .inr (hreturns (.refl s) (by simp))
    split at hbody
    · cases hbody
      exact .inr (hreturns (.refl s) (by simp))
    split at hbody
    · split at hbody <;> cases hbody <;> exact .inr (hreturns (.refl s) (by simp))
    rename_i hidle
    obtain ⟨actionable, -, hbody⟩ := bind_eq_ok.1 hbody
    split at hbody
    · cases hbody
      exact .inr (hreturns (.refl s) (by simp))
    split at hbody
    · rename_i hfuse
      cases hbody
      exact .inr (hreturns (onlyOpens_evaluateCardFuse hfuse) (by simp))
    rename_i hclosed
    split at hbody
    · rename_i hfuse
      cases hbody
      exact .inr (hreturns (onlyOpens_evaluateBridgeFuse hfuse) (by simp))
    unfold insertRun at hbody
    split at hbody
    · cases hbody
    · rename_i runs hinsert
      cases hbody
      exact .inl ⟨_, _, rfl, hidle, hclosed, rfl, rfl, rfl, rfl, rfl, rfl, hinsert, rfl, rfl⟩

end OrcDb

/-! ## Exclusive runs -/

structure Exclusive (runs : Table OrcProjectRunRow) : Prop where
  live : Indexed runs (·.state.isLive) (·.projectCardId)
  turn : Indexed runs (fun row => OrcDb.isTurn row.state) (fun _ => ())

namespace OrcDb

variable {context : OrcInvocationContext} {row : OrcProjectRunRow} {s : OrcDb}

theorem not_live_of_liveRun {projectCardId : Nat} (h : s.liveRun projectCardId = none) :
    ∀ row ∈ s.runs, row.state.isLive = true → row.projectCardId ≠ projectCardId := by
  intro row hrow hlive hcard
  have hnone := List.find?_eq_none.1 h row hrow
  simp [hcard, hlive] at hnone

theorem isLive_of_isTurn {state : OrcRunState} (h : isTurn state = true) : state.isLive = true := by
  cases state <;> simp_all [isTurn, OrcRunState.isLive]

theorem runs_update (p : OrcProjectRunRow → Bool) (f : OrcProjectRunRow → OrcProjectRunRow)
    (hf : ∀ row, (f row).id = row.id) : (s.update p f hf).2.runs = s.runs.updateWhere p f hf := rfl

theorem exclusive_claims {guardrails : OrcGuardrails} {now : Millis} {input : OrcClaimInput}
    {new : OrcProjectRunRow} {s' : OrcDb} (h : Exclusive s.runs)
    (hclaims : Claims guardrails now input new s s') : Exclusive s'.runs where
  live := h.live.insert hclaims.inserted fun _ row hrow hlive => by
    rw [hclaims.card]
    exact not_live_of_liveRun hclaims.idle row hrow hlive
  turn := h.turn.insert hclaims.inserted fun hturn => by
    simp [hclaims.scheduled, isTurn] at hturn

theorem exclusive_promoteRun (h : Exclusive s.runs) (now : Millis) (runId : String) :
    Exclusive (s.promoteRun now runId).2.runs := by
  unfold promoteRun
  split
  · exact h
  rename_i hidle
  have hnone : ∀ row ∈ s.runs, isTurn row.state = false := by
    intro row hrow
    by_contra hturn
    exact hidle (List.any_eq_true.2 ⟨row, hrow, by simpa using hturn⟩)
  rw [runs_update]
  constructor
  · refine h.live.updateWhere fun row _ hp _ => ⟨?_, rfl⟩
    simp only [decide_eq_true_eq] at hp
    simp [hp.2, OrcRunState.isLive]
  · refine Indexed.updateWhere_key (k := runId) hnone fun row _ hp => ?_
    simp only [decide_eq_true_eq] at hp
    exact hp.1

theorem bindExecution_cases (now : Millis) (context : OrcInvocationContext)
    (sessionId executionId : String) (s : OrcDb) :
    (s.bindExecution now context sessionId executionId).2 = s ∨
      (s.bindExecution now context sessionId executionId).2 =
        (s.update (bindable context) (·.bind now sessionId executionId)
          (·.id_bind now sessionId executionId)).2 := by
  unfold bindExecution
  split
  · exact .inl rfl
  · dsimp only
    repeat' split
    all_goals first | exact .inl rfl | exact .inr rfl

theorem exclusive_bindExecution (h : Exclusive s.runs) (now : Millis)
    (context : OrcInvocationContext) (sessionId executionId : String) :
    Exclusive (s.bindExecution now context sessionId executionId).2.runs := by
  rcases bindExecution_cases now context sessionId executionId s with hsame | hwrite
  · rw [hsame]
    exact h
  rw [hwrite, runs_update]
  have hstate : ∀ row, bindable context row = true → row.state = .dispatching := by
    intro row hp
    simp only [bindable, decide_eq_true_eq] at hp
    exact hp.2.1
  constructor
  · refine h.live.updateWhere fun row _ hp _ => ⟨?_, rfl⟩
    simp [hstate row hp, OrcRunState.isLive]
  · refine h.turn.updateWhere fun row _ hp _ => ⟨?_, rfl⟩
    simp [hstate row hp, isTurn]

theorem exclusive_update {p : OrcProjectRunRow → Bool} {f : OrcProjectRunRow → OrcProjectRunRow}
    {hf : ∀ row, (f row).id = row.id} (h : Exclusive s.runs)
    (hends : ∀ row, (f row).state.isLive = false) : Exclusive (s.update p f hf).2.runs := by
  rw [runs_update]
  constructor
  · refine h.live.updateWhere fun row _ _ hlive => ?_
    rw [hends row] at hlive
    cases hlive
  refine h.turn.updateWhere fun row _ _ hturn => ?_
  have hlive := isLive_of_isTurn hturn
  rw [hends row] at hlive
  cases hlive

theorem release_spec (now : Millis) (context : OrcInvocationContext) (outcome : OrcRunOutcome)
    (failureCode : Option OrcRunFailureCode) (s : OrcDb) :
    ∃ code, (s.release now context outcome failureCode).2.runs =
        (s.update (releasable context) (·.release now outcome code)
          (·.id_release now outcome code)).2.runs ∧
      (s.release now context outcome failureCode).2.ownershipCounters = s.ownershipCounters ∧
      ∀ card, (context.projectCardId = card → outcome ≠ .completed) →
        (s.release now context outcome failureCode).2.clearedGeneration card =
          s.clearedGeneration card := by
  refine ⟨if outcome = .completed then none else some (failureCode.getD .providerFailure), ?_⟩
  unfold release
  dsimp only
  generalize (if outcome = .completed then none else some (failureCode.getD .providerFailure)) =
    code
  split
  · rename_i hcompleted
    refine ⟨rfl, rfl, fun card hcard => ?_⟩
    have hne : FuseScope.card card ≠ .card context.projectCardId := by
      rintro heq
      cases heq
      exact hcard rfl hcompleted.2
    simp [clearedGeneration, recordCardProgress, writeFuse, Function.update_of_ne hne, update]
  · exact ⟨rfl, rfl, fun _ _ => rfl⟩

theorem cleanupBatches_spec (batchSize fuel : Nat) : ∀ (lastId : String) (s : OrcDb),
    (∀ row ∈ (cleanupBatches batchSize fuel lastId s).2.2.runs, row ∈ s.runs) ∧
      (cleanupBatches batchSize fuel lastId s).2.2.ownershipCounters = s.ownershipCounters ∧
      (cleanupBatches batchSize fuel lastId s).2.2.fuses = s.fuses := by
  induction fuel with
  | zero =>
    intro lastId s
    exact ⟨fun row hrow => hrow, rfl, rfl⟩
  | succ fuel ih =>
    intro lastId s
    unfold cleanupBatches
    dsimp only
    split
    · exact ⟨fun row hrow => hrow, rfl, rfl⟩
    split
    · exact ⟨fun row hrow => (Table.mem_deleteWhere.1 hrow).1, rfl, rfl⟩
    · rename_i last _ _
      obtain ⟨hrows, hcounters, hfuses⟩ := ih last _
      exact ⟨fun row hrow => (Table.mem_deleteWhere.1 (hrows row hrow)).1, hcounters, hfuses⟩

theorem exclusive_opStep (h : Exclusive s.runs) (op : OrcOp) : Exclusive (opStep s op).runs := by
  cases op with
  | claimIntent guardrails now input ownerPeer ownerInstanceId =>
    show Exclusive (s.claimIntent guardrails now input ownerPeer ownerInstanceId).2.runs
    rcases claimIntent_cases guardrails now input ownerPeer ownerInstanceId s with
      ⟨new, s', hclaim, hclaims⟩ | ⟨hopens, -⟩
    · rw [hclaim]
      exact exclusive_claims h hclaims
    · rw [hopens.runs]
      exact h
  | promoteRun now runId => exact exclusive_promoteRun h now runId
  | bindExecution now context sessionId executionId =>
    exact exclusive_bindExecution h now context sessionId executionId
  | release now context outcome failureCode =>
    show Exclusive (s.release now context outcome failureCode).2.runs
    obtain ⟨code, hruns, -, -⟩ := release_spec now context outcome failureCode s
    rw [hruns]
    exact exclusive_update h fun _ => rfl
  | supersede now runId outcome => exact exclusive_update h fun _ => rfl
  | cleanupOrphanedRuns batchSize maxBatches =>
    obtain ⟨hrows, -⟩ := cleanupBatches_spec (min (max (batchSize.getD 200) 1) 5000)
      (min (max (maxBatches.getD 250) 1) 10000) "" s
    exact ⟨h.live.of_subset hrows, h.turn.of_subset hrows⟩
  | _ => exact h

/-! ## Generations -/

def claimed (s : OrcDb) : OrcOp → List (Nat × Nat)
  | .claimIntent guardrails now input ownerPeer ownerInstanceId =>
    match (s.claimIntent guardrails now input ownerPeer ownerInstanceId).1 with
    | .ok (.claimed context) => [(context.projectCardId, context.ownershipGeneration)]
    | _ => []
  | _ => []

structure Numbered (log : List (Nat × Nat)) (s : OrcDb) : Prop where
  nodup : log.Nodup
  past : ∀ x ∈ log, x.2 < (s.ownershipCounters x.1).getD 1

theorem Numbered.congr {log : List (Nat × Nat)} {s' : OrcDb} (h : Numbered log s)
    (hcounters : s'.ownershipCounters = s.ownershipCounters) : Numbered log s' :=
  ⟨h.nodup, by rw [hcounters]; exact h.past⟩

theorem numbered_opStep (log : List (Nat × Nat)) (s : OrcDb) (op : OrcOp) (h : Numbered log s) :
    Numbered (log ++ s.claimed op) (opStep s op) := by
  have kept : ∀ s' : OrcDb, s'.ownershipCounters = s.ownershipCounters →
      Numbered (log ++ []) s' := by
    intro s' hcounters
    rw [List.append_nil]
    exact h.congr hcounters
  cases op with
  | claimIntent guardrails now input ownerPeer ownerInstanceId =>
    show Numbered (log ++ s.claimed (.claimIntent guardrails now input ownerPeer ownerInstanceId))
      (s.claimIntent guardrails now input ownerPeer ownerInstanceId).2
    rcases claimIntent_cases guardrails now input ownerPeer ownerInstanceId s with
      ⟨new, s', hclaim, hclaims⟩ | ⟨hopens, hnone⟩
    · rw [claimed, hclaim]
      dsimp only [buildContextFromRow]
      -- the new generation is where the counter stood
      have hnew : (new.projectCardId, new.ownershipGeneration) ∉ log := by
        intro hmem
        have hpast := h.past _ hmem
        rw [hclaims.generation, hclaims.card] at hpast
        exact absurd hpast (Nat.lt_irrefl _)
      constructor
      · rw [List.nodup_append]
        refine ⟨h.nodup, List.nodup_singleton _, ?_⟩
        rintro x hx y hy rfl
        rw [List.mem_singleton] at hy
        exact hnew (hy ▸ hx)
      intro x hx
      rw [hclaims.counters]
      by_cases hcard : x.1 = input.projectCardId
      · rw [hcard, Function.update_self, Option.getD_some]
        rcases List.mem_append.1 hx with hold | hsingle
        · have hpast := h.past x hold
          rw [hcard, ← hclaims.generation] at hpast
          omega
        · rw [List.mem_singleton] at hsingle
          rw [hsingle]
          omega
      · rw [Function.update_of_ne hcard]
        rcases List.mem_append.1 hx with hold | hsingle
        · exact h.past x hold
        · rw [List.mem_singleton] at hsingle
          rw [hsingle] at hcard
          exact absurd hclaims.card hcard
    · have hlog : s.claimed (.claimIntent guardrails now input ownerPeer ownerInstanceId) = [] := by
        rw [claimed]
        split
        · rename_i context hclaimed
          exact absurd hclaimed (hnone context)
        · rfl
      rw [hlog]
      exact kept _ hopens.counters
  | promoteRun now runId =>
    refine kept _ ?_
    show (s.promoteRun now runId).2.ownershipCounters = s.ownershipCounters
    unfold promoteRun
    split <;> rfl
  | bindExecution now context sessionId executionId =>
    refine kept _ ?_
    show (s.bindExecution now context sessionId executionId).2.ownershipCounters = _
    rcases bindExecution_cases now context sessionId executionId s with hsame | hwrite
    · rw [hsame]
    · rw [hwrite]
      rfl
  | release now context outcome failureCode =>
    obtain ⟨code, -, hcounters, -⟩ := release_spec now context outcome failureCode s
    exact kept _ hcounters
  | cleanupOrphanedRuns batchSize maxBatches => exact kept _ (cleanupBatches_spec _ _ _ s).2.1
  | _ => exact kept _ rfl

/-! ## The fence -/

/-- The row is the context's, live, and of the project's present generation.  A context without a
session or an execution has none to compare. -/
structure Owns (s : OrcDb) (context : OrcInvocationContext) (row : OrcProjectRunRow) : Prop where
  found : s.runs.get context.runId = some row
  live : row.state.isLive = true
  project : row.projectCardId = context.projectCardId
  projectGeneration : row.projectGeneration = context.projectGeneration
  ownershipGeneration : row.ownershipGeneration = context.ownershipGeneration
  owner : row.ownerInstanceId = context.ownerInstanceId
  intent : row.intentKey = context.intentKey ∧ row.intentKind = context.intentKind ∧
    row.intentRef = context.intentRef
  origin : row.originKind = context.originKind ∧ row.originPeer = context.originPeer
  session : ∀ sessionId, context.sessionId = some sessionId → row.sessionId = some sessionId
  execution : ∀ executionId, context.executionId = some executionId →
    row.executionId = some executionId
  present : ∃ sup, s.db.projectSupervision.get row.projectCardId = some sup ∧
    sup.generation = row.projectGeneration

def fenceHolds (s : OrcDb) (context : OrcInvocationContext) (row : OrcProjectRunRow) : Prop :=
  row.state.isLive = true ∧
    (evaluateOwnerFence row context).intentMatches = true ∧
    (evaluateOwnerFence row context).originMatches = true ∧
    (evaluateOwnerFence row context).ownerInstanceMatches = true ∧
    (evaluateOwnerFence row context).projectCardMatches = true ∧
    (evaluateOwnerFence row context).projectGenerationMatches = true ∧
    (evaluateOwnerFence row context).ownershipGenerationMatches = true ∧
    (evaluateOwnerFence row context).sessionMatches = true ∧
    (evaluateOwnerFence row context).executionMatches = true ∧
    s.currentSupervisionMatches row = true

theorem isLive_iff (state : OrcRunState) :
    state.isLive = true ↔ ¬ (state = .released ∨ state = .superseded) := by
  cases state <;> simp [OrcRunState.isLive]

theorem validateCurrentContext_eq_ok :
    s.validateCurrentContext context = .ok row ↔
      s.runs.get context.runId = some row ∧ s.fenceHolds context row := by
  unfold validateCurrentContext fenceHolds
  cases hrow : s.runs.get context.runId with
  | none => simp
  | some r =>
    dsimp only
    constructor
    · intro h
      repeat' split at h
      all_goals simp_all [isLive_iff]
    · rintro ⟨heq, hfence⟩
      cases heq
      simp_all [isLive_iff]

theorem revalidate_eq_ok :
    s.revalidate context = .ok row ↔
      s.runs.get context.runId = some row ∧ s.fenceHolds context row := by
  unfold revalidate fenceHolds
  cases hrow : s.runs.get context.runId with
  | none => simp
  | some r =>
    dsimp only
    constructor
    · intro h
      repeat' split at h
      all_goals simp_all [isLive_iff]
    · rintro ⟨heq, hfence⟩
      cases heq
      simp_all [isLive_iff]

theorem owns_iff :
    s.Owns context row ↔ s.runs.get context.runId = some row ∧ s.fenceHolds context row := by
  have hoptional : ∀ (asked held : Option String),
      (asked = none ∨ held = asked) ↔ ∀ x, asked = some x → held = some x := by
    intro asked held
    cases asked <;> simp
  have hpresent : s.currentSupervisionMatches row = true ↔
      ∃ sup, s.db.projectSupervision.get row.projectCardId = some sup ∧
        sup.generation = row.projectGeneration := by
    simp [currentSupervisionMatches, Option.any_eq_true]
  unfold fenceHolds evaluateOwnerFence
  simp only [decide_eq_true_eq, hoptional, hpresent]
  constructor
  · rintro ⟨h1, h2, h3, h4, h5, h6, h7, h8, h9, h10, h11⟩
    exact ⟨h1, h2, h7, h8, h6, h3, h4, h5, h9, h10, h11⟩
  rintro ⟨hfound, hlive, hintent, horigin, howner, hproject, hgeneration, hownership, hsession,
    hexecution, hpresent⟩
  exact ⟨hfound, hlive, hproject, hgeneration, hownership, howner, hintent, horigin, hsession,
    hexecution, hpresent⟩

theorem currentRun_eq_ok : s.currentRun context = .ok row ↔ s.Owns context row := by
  unfold currentRun
  rw [bind_eq_ok, owns_iff]
  constructor
  · rintro ⟨_, -, h⟩
    exact revalidate_eq_ok.1 h
  · intro h
    exact ⟨row, validateCurrentContext_eq_ok.2 h, revalidate_eq_ok.2 h⟩

def workResult : Option String → Except String Unit
  | none => .ok ()
  | some err => .error err

theorem withCurrentRun_spec (context : OrcInvocationContext) (s : OrcDb) :
    (∃ row, s.Owns context row ∧ ∀ fn, s.withCurrentRun context fn =
        (workResult (fn row s).2, runFrom opStep s (fn row s).1)) ∨
      (∀ row, ¬ s.Owns context row) ∧
        ∃ reason, ∀ fn, s.withCurrentRun context fn = (.error reason, s) := by
  cases hrun : s.currentRun context with
  | ok row =>
    refine .inl ⟨row, currentRun_eq_ok.1 hrun, fun fn => ?_⟩
    unfold withCurrentRun
    rw [hrun]
    dsimp only
    cases (fn row s).2 <;> rfl
  | error reason =>
    refine .inr ⟨fun row h => ?_, reason.text, fun fn => ?_⟩
    · rw [currentRun_eq_ok.2 h] at hrun
      cases hrun
    · unfold withCurrentRun
      rw [hrun]

end OrcDb

/-! ## Laws of a call -/

def OrcDb.claimedBy (s : OrcDb) : OrcCall → List (Nat × Nat)
  | .op op => s.claimed op
  | .withCurrentRun context fn =>
    match s.currentRun context with
    | .error _ => []
    | .ok row => outputs opStep OrcDb.claimed s (fn row s).1

/-- Work is run on the row that its context owns, and on none when it owns none. -/
def FencedCall (s : OrcDb) : OrcCall → Prop
  | .op _ => True
  | .withCurrentRun context fn =>
    (∃ row, s.Owns context row ∧ s.withCurrentRun context fn =
      (OrcDb.workResult (fn row s).2, runFrom opStep s (fn row s).1)) ∨
    (∀ row, ¬ s.Owns context row) ∧ (s.withCurrentRun context fn).2 = s

/-- Where `withCurrentRun` returns no `ok`, nothing has changed. -/
def FailsUnchanged (s : OrcDb) : OrcCall → Prop
  | .op _ => True
  | .withCurrentRun context fn =>
    ∀ reason, (s.withCurrentRun context fn).1 = .error reason →
      (s.withCurrentRun context fn).2 = s

def ThrowsUnchanged (s : OrcDb) : OrcCall → Prop
  | .op _ => True
  | .withCurrentRun context fn =>
    ∀ row, s.Owns context row → ∀ err, (fn row s).2 = some err →
      runFrom opStep s (fn row s).1 = s

theorem exclusive_orcStep (s : OrcDb) (call : OrcCall) (h : Exclusive s.runs) :
    Exclusive (orcStep s call).runs := by
  cases call with
  | op op => exact OrcDb.exclusive_opStep h op
  | withCurrentRun context fn =>
    show Exclusive (s.withCurrentRun context fn).2.runs
    rcases OrcDb.withCurrentRun_spec context s with ⟨row, -, hrun⟩ | ⟨-, reason, hrun⟩
    · rw [hrun]
      exact invariant_of_step (I := fun s => Exclusive s.runs)
        (fun s op hs => OrcDb.exclusive_opStep hs op) (fn row s).1 s h
    · rw [hrun]
      exact h

theorem numbered_orcStep (log : List (Nat × Nat)) (s : OrcDb) (call : OrcCall)
    (h : OrcDb.Numbered log s) : OrcDb.Numbered (log ++ s.claimedBy call) (orcStep s call) := by
  cases call with
  | op op => exact OrcDb.numbered_opStep log s op h
  | withCurrentRun context fn =>
    show OrcDb.Numbered (log ++ s.claimedBy (.withCurrentRun context fn))
      (s.withCurrentRun context fn).2
    cases hrun : s.currentRun context with
    | error reason => simpa [OrcDb.claimedBy, OrcDb.withCurrentRun, hrun] using h
    | ok row =>
      simp only [OrcDb.claimedBy, OrcDb.withCurrentRun, hrun]
      exact logged_of_stepsMeet (fun L s op hs _ => OrcDb.numbered_opStep L s op hs)
        (fn row s).1 log s h
        (stepsMeet_of_all (fun _ _ => trivial) _ s : StepsMeet _ (fun _ _ => True) s _)

theorem fencedCall (s : OrcDb) (call : OrcCall) : FencedCall s call := by
  cases call with
  | op op => trivial
  | withCurrentRun context fn =>
    rcases OrcDb.withCurrentRun_spec context s with ⟨row, howns, hrun⟩ | ⟨hnone, reason, hrun⟩
    · exact .inl ⟨row, howns, hrun fn⟩
    · exact .inr ⟨hnone, by rw [hrun]⟩

theorem failsUnchanged_iff (s : OrcDb) (call : OrcCall) :
    FailsUnchanged s call ↔ ThrowsUnchanged s call := by
  cases call with
  | op op => exact Iff.rfl
  | withCurrentRun context fn =>
    simp only [FailsUnchanged, ThrowsUnchanged]
    rcases OrcDb.withCurrentRun_spec context s with ⟨row, howns, hrun⟩ | ⟨hnone, reason, hrun⟩
    · rw [hrun]
      have honly : ∀ other, s.Owns context other → other = row := fun other hother =>
        Option.some.inj (hother.found.symm.trans howns.found)
      constructor
      · intro hfails other hother err hthrown
        rw [honly other hother] at hthrown ⊢
        exact hfails err (by rw [hthrown]; rfl)
      intro hthrows reason hresult
      cases hthrown : (fn row s).2 with
      | none =>
        rw [hthrown] at hresult
        cases hresult
      | some err => exact hthrows row howns err hthrown
    · rw [hrun]
      exact ⟨fun _ row howns => absurd howns (hnone row), fun _ _ _ => rfl⟩

/-- In every run from a new store the live runs are exclusive, no generation of a project is
claimed twice, and work runs only under a row its context owns.  And `withCurrentRun` leaves
everything unchanged when it returns no `ok` exactly when no work that it runs throws after it
changed something. -/
theorem orc_mutations_fenced (db : Db) (calls : List OrcCall) :
    Exclusive (runFrom orcStep (.fresh db) calls).runs ∧
    (outputs orcStep OrcDb.claimedBy (.fresh db) calls).Nodup ∧
    StepsMeet orcStep FencedCall (.fresh db) calls ∧
    (StepsMeet orcStep FailsUnchanged (.fresh db) calls ↔
      StepsMeet orcStep ThrowsUnchanged (.fresh db) calls) := by
  have hexclusive : Exclusive (OrcDb.fresh db).runs := ⟨Indexed.empty _ _, Indexed.empty _ _⟩
  have hnumbered : OrcDb.Numbered [] (OrcDb.fresh db) := ⟨List.nodup_nil, by simp⟩
  refine ⟨?_, ?_, stepsMeet_of_all fencedCall calls _, ?_⟩
  · exact invariant_of_step (I := fun s : OrcDb => Exclusive s.runs) exclusive_orcStep calls _ hexclusive
  · have hend := logged_of_stepsMeet (fun log s call hs _ => numbered_orcStep log s call hs)
      calls [] _ hnumbered
      (stepsMeet_of_all (fun _ _ => trivial) _ _ : StepsMeet _ (fun _ _ => True) _ _)
    simpa using hend.nodup
  · exact stepsMeet_iff_of_invariant (I := fun _ => True) (fun _ _ _ => trivial)
      (fun s call _ => failsUnchanged_iff s call) calls _ trivial

def projectDb : Db :=
  { Db.empty with projectSupervision := ⟨[⟨1, .executing, 1⟩], by decide⟩ }

def operatorTurn : OrcClaimInput where
  projectCardId := 1
  intentKind := .operatorTurn
  intentRef := none
  goal := "execute"
  taskRunId := none
  originKind := .localPeer
  originPeer := none
  sourcePeer := none
  cardSource := "task"
  expectedProjectGeneration := none

def thrownWork : List OrcCall :=
  [.op (.claimIntent .default 0 operatorTurn "p" "inst"),
    .withCurrentRun
      (buildContextFromRow ((OrcDb.fresh projectDb).newRun 0 operatorTurn 1 "p" "inst"))
      fun row _ => ([.supersede 0 row.id .cancelled], some "Error: later")]

/-- The caller is told of a failure, and the run is superseded. -/
theorem thrownWork_commits :
    ¬ StepsMeet orcStep FailsUnchanged (.fresh projectDb) thrownWork := by
  rintro ⟨-, hfails, -⟩
  have hsame := hfails "Error: later" (by rfl)
  have hstates := congrArg (fun s : OrcDb => s.runs.rows.map (·.state)) hsame
  revert hstates
  decide +kernel

end Abtars
