import Abtars.Orc.Fences

/-!
# What the fuse counts

The limits of a card's fuse count attempts by two conditions on the rows; `classifyAttemptOutcome`
says of a row what its attempt came to.  The two agree on a row unless it escapes: an attempt that
ended without progress before it was bound is not counted, and one that was superseded after it
was bound is.  Where no attempt ends uncounted, a card has no more failed attempts and no more
attempts without progress inside a window than its limits.
-/

namespace Abtars

open Lib

variable {row : OrcProjectRunRow}

/-! ## Rows -/

structure InWindows (projectCardId clearedGen : Nat) (now : Millis) (row : OrcProjectRunRow) :
    Prop where
  card : row.projectCardId = projectCardId
  generation : clearedGen < row.ownershipGeneration
  created : seconds now - 300 ≤ seconds row.createdAt

structure CountsAgree (projectCardId clearedGen : Nat) (now : Millis) (row : OrcProjectRunRow) :
    Prop where
  failed : classifyAttemptOutcome row = .failed →
    countedFailed projectCardId clearedGen now row = true
  noProgress : classifyAttemptOutcome row = .noProgress →
    countedNoProgress projectCardId clearedGen now row = true
  neither : classifyAttemptOutcome row = .progress ∨ classifyAttemptOutcome row = .superseded →
    countedFailed projectCardId clearedGen now row = false ∧
      countedNoProgress projectCardId clearedGen now row = false

/-- A row released without progress that was never bound or has no outcome, or one superseded
after it was bound. -/
def Escapes (row : OrcProjectRunRow) : Prop :=
  row.outcome ≠ some .completed ∧ row.outcome ≠ some .failed ∧
    (row.state = .released ∧ (row.startedAt = none ∨ row.outcome = none) ∨
      row.state = .superseded ∧ row.startedAt ≠ none ∧ row.outcome ≠ none)

instance (row : OrcProjectRunRow) : Decidable (Escapes row) :=
  inferInstanceAs (Decidable (_ ∧ _))

theorem classify_eq_failed :
    classifyAttemptOutcome row = .failed ↔ row.state = .released ∧ row.outcome = some .failed := by
  unfold classifyAttemptOutcome
  cases row.state <;> cases row.outcome with
    | none => simp
    | some outcome => cases outcome <;> simp

theorem classify_eq_noProgress :
    classifyAttemptOutcome row = .noProgress ↔
      row.state = .released ∧ row.outcome ≠ some .completed ∧ row.outcome ≠ some .failed := by
  unfold classifyAttemptOutcome
  cases row.state <;> cases row.outcome with
    | none => simp
    | some outcome => cases outcome <;> simp

theorem classify_eq_progress :
    classifyAttemptOutcome row = .progress ↔
      row.state = .released ∧ row.outcome = some .completed := by
  unfold classifyAttemptOutcome
  cases row.state <;> cases row.outcome with
    | none => simp
    | some outcome => cases outcome <;> simp

theorem classify_eq_superseded :
    classifyAttemptOutcome row = .superseded ↔ row.state = .superseded := by
  unfold classifyAttemptOutcome
  cases row.state <;> cases row.outcome with
    | none => simp
    | some outcome => cases outcome <;> simp

/-- On a row inside the windows the counts agree with the classifier unless it escapes. -/
theorem countsAgree_iff {projectCardId clearedGen : Nat} {now : Millis}
    (h : InWindows projectCardId clearedGen now row) :
    CountsAgree projectCardId clearedGen now row ↔ ¬ Escapes row := by
  obtain ⟨hcard, hgeneration, hcreated⟩ := h
  have hwide : seconds now - 600 ≤ seconds row.createdAt := by omega
  have hfailed : countedFailed projectCardId clearedGen now row = true ↔
      row.state = .released ∧ row.outcome = some .failed := by
    simp [countedFailed, hcard, hgeneration, hwide]
  have hnoProgress : countedNoProgress projectCardId clearedGen now row = true ↔
      row.startedAt ≠ none ∧ (row.state = .released ∨ row.state = .superseded) ∧
        row.outcome ≠ none ∧ row.outcome ≠ some .completed ∧ row.outcome ≠ some .failed := by
    simp [countedNoProgress, hcard, hgeneration, hcreated]
  constructor
  · rintro ⟨-, hcounted, hneither⟩ ⟨hcompleted, hnotFailed, hescapes⟩
    rcases hescapes with ⟨hstate, hopen⟩ | ⟨hstate, hstarted, houtcome⟩
    · have hcount := hnoProgress.1
        (hcounted (classify_eq_noProgress.2 ⟨hstate, hcompleted, hnotFailed⟩))
      rcases hopen with hunstarted | hnone
      · exact hcount.1 hunstarted
      · exact hcount.2.2.1 hnone
    · have hcount := (hneither (.inr (classify_eq_superseded.2 hstate))).2
      rw [hnoProgress.2 ⟨hstarted, .inr hstate, houtcome, hcompleted, hnotFailed⟩] at hcount
      cases hcount
  · intro hescapes
    refine ⟨fun hlabel => hfailed.2 (classify_eq_failed.1 hlabel), fun hlabel => ?_, fun hlabel => ?_⟩
    · obtain ⟨hstate, hcompleted, hnotFailed⟩ := classify_eq_noProgress.1 hlabel
      refine hnoProgress.2 ⟨?_, .inl hstate, ?_, hcompleted, hnotFailed⟩
      · intro hunstarted
        exact hescapes ⟨hcompleted, hnotFailed, .inl ⟨hstate, .inl hunstarted⟩⟩
      · intro hnone
        exact hescapes ⟨hcompleted, hnotFailed, .inl ⟨hstate, .inr hnone⟩⟩
    · rw [classify_eq_progress, classify_eq_superseded] at hlabel
      constructor
      · rw [← Bool.not_eq_true, hfailed]
        rintro ⟨hstate, houtcome⟩
        rcases hlabel with ⟨-, hcompleted⟩ | hsuperseded
        · simp [houtcome] at hcompleted
        · simp [hstate] at hsuperseded
      rw [← Bool.not_eq_true, hnoProgress]
      rintro ⟨hstarted, hstate, houtcome, hcompleted, hnotFailed⟩
      rcases hlabel with ⟨-, hlabel⟩ | hsuperseded
      · exact hcompleted hlabel
      · exact hescapes ⟨hcompleted, hnotFailed, .inr ⟨hsuperseded, hstarted, houtcome⟩⟩

/-! ## Calls inside a window -/

variable (projectCardId : Nat)

/-- A claim, turn or end of a run.  Claims are made inside the window and under limits no higher
than the two; no run of the card is released as completed. -/
def StormOp (start window : Millis) (maxFailed maxNoProgress : Nat) :
    OrcOp → Prop
  | .claimIntent guardrails now _ _ _ => start ≤ now ∧ now ≤ start + window ∧
      guardrails.failedOrNoProgress ≤ maxFailed ∧ guardrails.startsWithoutProgress ≤ maxNoProgress
  | .promoteRun .. | .bindExecution .. | .supersede .. => True
  | .release _ context outcome _ => context.projectCardId = projectCardId → outcome ≠ .completed
  | .cleanupOrphanedRuns .. | .resetProjectFuse .. | .resetBridgeFuse .. | .elsewhere .. => False

/-- A run of the card that is released was bound before, or is released as failed. -/
def EndsCounted (s : OrcDb) : OrcOp → Prop
  | .release _ context outcome _ => outcome = .failed ∨ ∀ row ∈ s.runs,
      OrcDb.releasable context row = true → row.projectCardId = projectCardId →
        row.startedAt ≠ none
  | _ => True

/-- Live rows are rewritten, each with the card, the generation and the time of its claim. -/
structure Rewrites (projectCardId : Nat) (s s' : OrcDb) (p : OrcProjectRunRow → Bool)
    (f : OrcProjectRunRow → OrcProjectRunRow) : Prop where
  counters : s'.ownershipCounters = s.ownershipCounters
  cleared : s'.clearedGeneration projectCardId = s.clearedGeneration projectCardId
  runs : ∃ hf, s'.runs = s.runs.updateWhere p f hf
  live : ∀ row, p row = true → row.state.isLive = true
  card : ∀ row, (f row).projectCardId = row.projectCardId
  generation : ∀ row, (f row).ownershipGeneration = row.ownershipGeneration
  created : ∀ row, (f row).createdAt = row.createdAt

def Counts (s : OrcDb) (p : OrcProjectRunRow → Bool) (f : OrcProjectRunRow → OrcProjectRunRow) :
    Prop :=
  ∀ row ∈ s.runs, p row = true → row.projectCardId = projectCardId →
    classifyAttemptOutcome (f row) = .noProgress →
      (f row).startedAt ≠ none ∧ (f row).outcome ≠ none

section Steps

variable {op : OrcOp} {now : Millis}

variable {card : Nat} {start window : Millis} {maxFailed maxNoProgress : Nat} {s : OrcDb}

variable {s' : OrcDb} {guardrails : OrcGuardrails} {input : OrcClaimInput}
  {p : OrcProjectRunRow → Bool} {f : OrcProjectRunRow → OrcProjectRunRow}

theorem rewrites_of_onlyOpens (h : OrcDb.OnlyOpens s s') :
    Rewrites card s s' (fun _ => false) id where
  counters := h.counters
  cleared := h.cleared card
  runs := ⟨fun _ => rfl, by rw [Table.updateWhere_of_none (fun _ _ => rfl), h.runs]⟩
  live := by simp
  card := fun _ => rfl
  generation := fun _ => rfl
  created := fun _ => rfl

theorem isLive_of_releasable {context : OrcInvocationContext}
    (h : OrcDb.releasable context row = true) : row.state.isLive = true := by
  simp only [OrcDb.releasable, decide_eq_true_eq] at h
  tauto

/-- A call inside the window is a claim, or rewrites live rows. -/
theorem stormOp_cases (hop : StormOp card start window maxFailed maxNoProgress op) :
    (∃ guardrails now input new, start ≤ now ∧ now ≤ start + window ∧
        guardrails.failedOrNoProgress ≤ maxFailed ∧
        guardrails.startsWithoutProgress ≤ maxNoProgress ∧
        OrcDb.Claims guardrails now input new s (opStep s op)) ∨
      ∃ p f, Rewrites card s (opStep s op) p f ∧ (EndsCounted card s op → Counts card s p f) := by
  have kept : ∀ {s' : OrcDb}, OrcDb.OnlyOpens s s' →
      ∃ p f, Rewrites card s s' p f ∧ (EndsCounted card s op → Counts card s p f) := by
    intro s' h
    exact ⟨_, _, rewrites_of_onlyOpens h, fun _ row _ hp => by simp at hp⟩
  cases op with
  | claimIntent guardrails now input ownerPeer ownerInstanceId =>
    obtain ⟨hfrom, hto, hfailed, hnoProgress⟩ := hop
    rcases OrcDb.claimIntent_cases guardrails now input ownerPeer ownerInstanceId s with
      ⟨new, s', hclaim, hclaims⟩ | ⟨hopens, -⟩
    · refine .inl ⟨guardrails, now, input, new, hfrom, hto, hfailed, hnoProgress, ?_⟩
      show OrcDb.Claims _ _ _ _ _ (s.claimIntent guardrails now input ownerPeer ownerInstanceId).2
      rw [hclaim]
      exact hclaims
    · exact .inr (kept hopens)
  | promoteRun now runId =>
    refine .inr ?_
    show ∃ p f, Rewrites card s (s.promoteRun now runId).2 p f ∧ _
    unfold OrcDb.promoteRun
    split
    · exact kept (.refl s)
    refine ⟨_, _, ⟨rfl, rfl, ⟨(·.id_dispatch now), rfl⟩, ?_, fun _ => rfl, fun _ => rfl,
      fun _ => rfl⟩, ?_⟩
    · intro row hp
      simp only [decide_eq_true_eq] at hp
      simp [hp.2, OrcRunState.isLive]
    · intro _ row _ _ _ hlabel
      simp [classify_eq_noProgress, OrcProjectRunRow.dispatch] at hlabel
  | bindExecution now context sessionId executionId =>
    refine .inr ?_
    show ∃ p f, Rewrites card s (s.bindExecution now context sessionId executionId).2 p f ∧ _
    rcases OrcDb.bindExecution_cases now context sessionId executionId s with hsame | hwrite
    · rw [hsame]
      exact kept (.refl s)
    rw [hwrite]
    refine ⟨_, _, ⟨rfl, rfl, ⟨(·.id_bind now sessionId executionId), rfl⟩, ?_, fun _ => rfl,
      fun _ => rfl, fun _ => rfl⟩, ?_⟩
    · intro row hp
      simp only [OrcDb.bindable, decide_eq_true_eq] at hp
      simp [hp.2.1, OrcRunState.isLive]
    · intro _ row _ _ _ hlabel
      simp [classify_eq_noProgress, OrcProjectRunRow.bind] at hlabel
  | release now context outcome failureCode =>
    obtain ⟨code, hruns, hcounters, hfuses⟩ :=
      OrcDb.release_spec now context outcome failureCode s
    refine .inr ⟨_, _, ⟨hcounters, hfuses card hop, ⟨(·.id_release now outcome code), hruns⟩, ?_,
      fun _ => rfl, fun _ => rfl, fun _ => rfl⟩, ?_⟩
    · intro row hp
      exact isLive_of_releasable hp
    · intro hcounted row hrow hp hcard hlabel
      refine ⟨?_, by simp [OrcProjectRunRow.release]⟩
      rcases hcounted with hfailed | hstarted
      · simp [classify_eq_noProgress, OrcProjectRunRow.release, hfailed] at hlabel
      · exact hstarted row hrow hp hcard
  | supersede now runId outcome =>
    refine .inr ⟨_, _, ⟨rfl, rfl, ⟨(·.id_supersede now outcome), rfl⟩, ?_, fun _ => rfl,
      fun _ => rfl, fun _ => rfl⟩, ?_⟩
    · intro row hp
      simp only [decide_eq_true_eq] at hp
      exact hp.2
    · intro _ row _ _ _ hlabel
      simp [classify_eq_noProgress, OrcProjectRunRow.supersede] at hlabel
  | _ => exact hop.elim

/-- A row of the card that was claimed from generation `first` on. -/
def attemptOf (projectCardId first : Nat) (row : OrcProjectRunRow) : Bool :=
  row.projectCardId = projectCardId ∧ first ≤ row.ownershipGeneration

/-- The attempts that came to `label`. -/
def attempts (projectCardId first : Nat) (label : AttemptOutcome) (s : OrcDb) : Nat :=
  (s.runs.select fun row => attemptOf projectCardId first row ∧
    classifyAttemptOutcome row = label).length

/-- An attempt that came to `label`, or may still. -/
def mayComeTo (projectCardId first : Nat) (label : AttemptOutcome) (row : OrcProjectRunRow) :
    Bool :=
  attemptOf projectCardId first row ∧
    (row.state.isLive ∨ classifyAttemptOutcome row = label)

/-- The attempts since generation `first` were claimed inside the window, behind the cleared
generation. -/
structure Storm (projectCardId first : Nat) (start window : Millis) (s : OrcDb) : Prop where
  counter : first ≤ (s.ownershipCounters projectCardId).getD 1
  cleared : s.clearedGeneration projectCardId < first
  created : ∀ row ∈ s.runs, attemptOf projectCardId first row = true →
    start ≤ row.createdAt ∧ row.createdAt ≤ start + window

def AllCounted (projectCardId first : Nat) (s : OrcDb) : Prop :=
  ∀ row ∈ s.runs, attemptOf projectCardId first row = true →
    classifyAttemptOutcome row = .noProgress → row.startedAt ≠ none ∧ row.outcome ≠ none

variable {first : Nat}

theorem Storm.claims {now : Millis} {new : OrcProjectRunRow} (h : Storm card first start window s)
    (hclaims : OrcDb.Claims guardrails now input new s s') (hfrom : start ≤ now)
    (hto : now ≤ start + window) : Storm card first start window s' where
  counter := by
    rw [hclaims.counters]
    by_cases hcard : card = input.projectCardId
    · subst hcard
      have hcounter := h.counter
      rw [← hclaims.generation] at hcounter
      rw [Function.update_self, Option.getD_some]
      omega
    · rw [Function.update_of_ne hcard]
      exact h.counter
  cleared := by
    unfold OrcDb.clearedGeneration
    rw [hclaims.fuses]
    exact h.cleared
  created := by
    intro row hrow hattempt
    rcases (Table.mem_insert hclaims.inserted).1 hrow with hold | rfl
    · exact h.created row hold hattempt
    · rw [hclaims.created]
      exact ⟨hfrom, hto⟩

theorem attemptOf_rewrite (h : Rewrites card s s' p f) (row : OrcProjectRunRow) :
    attemptOf card first (f row) = attemptOf card first row := by
  simp [attemptOf, h.card, h.generation]

theorem Storm.rewrites (h : Storm card first start window s) (hrewrites : Rewrites card s s' p f) :
    Storm card first start window s' where
  counter := by
    rw [hrewrites.counters]
    exact h.counter
  cleared := by
    rw [hrewrites.cleared]
    exact h.cleared
  created := by
    intro row hrow hattempt
    obtain ⟨hf, hruns⟩ := hrewrites.runs
    rw [hruns] at hrow
    obtain ⟨r, hr, rfl⟩ := Table.mem_updateWhere.1 hrow
    by_cases hp : p r = true
    · rw [if_pos hp] at hattempt ⊢
      rw [attemptOf_rewrite hrewrites] at hattempt
      rw [hrewrites.created]
      exact h.created r hr hattempt
    · rw [if_neg hp] at hattempt ⊢
      exact h.created r hr hattempt

theorem mayComeTo_rewrites (hrewrites : Rewrites card s s' p f) (label : AttemptOutcome) :
    (s'.runs.select (mayComeTo card first label)).length ≤
      (s.runs.select (mayComeTo card first label)).length := by
  obtain ⟨hf, hruns⟩ := hrewrites.runs
  rw [hruns]
  refine Table.length_select_updateWhere_le f hf fun row hp hcome => ?_
  simp only [mayComeTo, decide_eq_true_eq] at hcome ⊢
  rw [attemptOf_rewrite hrewrites] at hcome
  exact ⟨hcome.1, .inl (hrewrites.live row hp)⟩

theorem mayComeTo_claims {new : OrcProjectRunRow}
    (hclaims : OrcDb.Claims guardrails now input new s s') (label : AttemptOutcome) {limit : Nat}
    (hroom : input.projectCardId = card → attempts card first label s < limit)
    (h : (s.runs.select (mayComeTo card first label)).length ≤ limit) :
    (s'.runs.select (mayComeTo card first label)).length ≤ limit := by
  rw [Table.length_select_insert hclaims.inserted]
  by_cases hcard : input.projectCardId = card
  · have hidle : (s.runs.select (mayComeTo card first label)).length ≤
        attempts card first label s := by
      refine Table.length_select_le_of_imp fun row hrow hcome => ?_
      simp only [mayComeTo, decide_eq_true_eq] at hcome ⊢
      refine ⟨hcome.1, hcome.2.resolve_left fun hlive => ?_⟩
      have hsame : row.projectCardId = card := by
        have hattempt := hcome.1
        simp only [attemptOf, decide_eq_true_eq] at hattempt
        exact hattempt.1
      exact OrcDb.not_live_of_liveRun hclaims.idle row hrow hlive (hsame.trans hcard.symm)
    split <;> omega
  · have hother : mayComeTo card first label new = false := by
      simp [mayComeTo, attemptOf, hclaims.card, hcard]
    rw [hother]
    simpa using h

theorem lt_of_closed (h : s.evaluateCardFuse guardrails now input = none) :
    (s.runs.select (countedFailed input.projectCardId
        (s.clearedGeneration input.projectCardId) now)).length < guardrails.failedOrNoProgress ∧
      (s.runs.select (countedNoProgress input.projectCardId
        (s.clearedGeneration input.projectCardId) now)).length <
          guardrails.startsWithoutProgress := by
  unfold OrcDb.evaluateCardFuse at h
  dsimp only at h
  split at h
  · cases h
  split at h
  · cases h
  rename_i hfailed
  split at h
  · cases h
  rename_i hnoProgress
  exact ⟨Nat.lt_of_not_le hfailed, Nat.lt_of_not_le hnoProgress⟩

theorem seconds_window (length : Int) {start window now created : Int} (hfrom : start ≤ created)
    (hto : now ≤ start + window) (hwindow : window ≤ 1000 * length) :
    seconds now - length ≤ seconds created := by
  unfold seconds
  omega

theorem attempts_failed_le (hs : Storm card first start window s) (hwindow : window ≤ 600000)
    (hto : now ≤ start + window) : attempts card first .failed s ≤
      (s.runs.select (countedFailed card (s.clearedGeneration card) now)).length := by
  refine Table.length_select_le_of_imp fun row hrow hlabel => ?_
  simp only [decide_eq_true_eq] at hlabel
  obtain ⟨hattempt, hlabel⟩ := hlabel
  have hcreated := hs.created row hrow hattempt
  simp only [attemptOf, decide_eq_true_eq] at hattempt
  obtain ⟨hcard, hfirst⟩ := hattempt
  obtain ⟨hstate, houtcome⟩ := classify_eq_failed.1 hlabel
  have hbehind : s.clearedGeneration card < row.ownershipGeneration := by
    have := hs.cleared
    omega
  have htime := seconds_window 600 hcreated.1 hto hwindow
  simp [countedFailed, hcard, hstate, houtcome, hbehind, htime]

theorem attempts_noProgress_le (hs : Storm card first start window s)
    (hcounted : AllCounted card first s) (hwindow : window ≤ 300000)
    (hto : now ≤ start + window) : attempts card first .noProgress s ≤
      (s.runs.select (countedNoProgress card (s.clearedGeneration card) now)).length := by
  refine Table.length_select_le_of_imp fun row hrow hlabel => ?_
  simp only [decide_eq_true_eq] at hlabel
  obtain ⟨hattempt, hlabel⟩ := hlabel
  have hcreated := hs.created row hrow hattempt
  obtain ⟨hstarted, hended⟩ := hcounted row hrow hattempt hlabel
  simp only [attemptOf, decide_eq_true_eq] at hattempt
  obtain ⟨hcard, hfirst⟩ := hattempt
  obtain ⟨hstate, hcompleted, hfailed⟩ := classify_eq_noProgress.1 hlabel
  have hbehind : s.clearedGeneration card < row.ownershipGeneration := by
    have := hs.cleared
    omega
  have htime := seconds_window 300 hcreated.1 hto hwindow
  simp [countedNoProgress, hcard, hstate, hstarted, hended, hcompleted, hfailed, hbehind, htime]

theorem storm_opStep (hop : StormOp card start window maxFailed maxNoProgress op)
    (hs : Storm card first start window s) : Storm card first start window (opStep s op) := by
  rcases stormOp_cases hop with
    ⟨guardrails, now, input, new, hfrom, hto, -, -, hclaims⟩ | ⟨p, f, hrewrites, -⟩
  · exact hs.claims hclaims hfrom hto
  · exact hs.rewrites hrewrites

theorem failed_opStep (hop : StormOp card start window maxFailed maxNoProgress op)
    (hs : Storm card first start window s) (hwindow : window ≤ 600000)
    (h : (s.runs.select (mayComeTo card first .failed)).length ≤ maxFailed) :
    ((opStep s op).runs.select (mayComeTo card first .failed)).length ≤ maxFailed := by
  rcases stormOp_cases hop with
    ⟨guardrails, now, input, new, -, hto, hmax, -, hclaims⟩ | ⟨p, f, hrewrites, -⟩
  · refine mayComeTo_claims hclaims .failed (fun hcard => ?_) h
    have hlt := (lt_of_closed hclaims.closed).1
    rw [hcard] at hlt
    have hle := attempts_failed_le hs hwindow hto
    omega
  · exact (mayComeTo_rewrites hrewrites .failed).trans h

theorem noProgress_opStep (hop : StormOp card start window maxFailed maxNoProgress op)
    (hs : Storm card first start window s) (hcounted : AllCounted card first s)
    (hwindow : window ≤ 300000)
    (h : (s.runs.select (mayComeTo card first .noProgress)).length ≤ maxNoProgress) :
    ((opStep s op).runs.select (mayComeTo card first .noProgress)).length ≤ maxNoProgress := by
  rcases stormOp_cases hop with
    ⟨guardrails, now, input, new, -, hto, -, hmax, hclaims⟩ | ⟨p, f, hrewrites, -⟩
  · refine mayComeTo_claims hclaims .noProgress (fun hcard => ?_) h
    have hlt := (lt_of_closed hclaims.closed).2
    rw [hcard] at hlt
    have hle := attempts_noProgress_le hs hcounted hwindow hto
    omega
  · exact (mayComeTo_rewrites hrewrites .noProgress).trans h

theorem allCounted_opStep
    (hop : StormOp card start window maxFailed maxNoProgress op) (hends : EndsCounted card s op)
    (h : AllCounted card first s) : AllCounted card first (opStep s op) := by
  intro row hrow hattempt hlabel
  rcases stormOp_cases hop with
    ⟨guardrails, now, input, new, -, -, -, -, hclaims⟩ | ⟨p, f, hrewrites, hcounts⟩
  · rcases (Table.mem_insert hclaims.inserted).1 hrow with hold | rfl
    · exact h row hold hattempt hlabel
    · simp [classify_eq_noProgress, hclaims.scheduled] at hlabel
  · obtain ⟨hf, hruns⟩ := hrewrites.runs
    rw [hruns] at hrow
    obtain ⟨r, hr, rfl⟩ := Table.mem_updateWhere.1 hrow
    by_cases hp : p r = true
    · rw [if_pos hp] at hattempt hlabel ⊢
      rw [attemptOf_rewrite hrewrites] at hattempt
      simp only [attemptOf, decide_eq_true_eq] at hattempt
      exact hcounts hends r hr hp hattempt.1 hlabel
    · rw [if_neg hp] at hattempt hlabel ⊢
      exact h r hr hattempt hlabel

end Steps

/-! ## Before the window -/

structure Behind (s : OrcDb) : Prop where
  rows : ∀ row ∈ s.runs, row.ownershipGeneration < (s.ownershipCounters row.projectCardId).getD 1
  cleared : ∀ card, s.clearedGeneration card < (s.ownershipCounters card).getD 1

namespace Behind

variable {s : OrcDb}

theorem of_subset {s' : OrcDb} (h : Behind s) (hrows : ∀ row ∈ s'.runs, row ∈ s.runs)
    (hcounters : s'.ownershipCounters = s.ownershipCounters) (hfuses : s'.fuses = s.fuses) :
    Behind s' := by
  constructor
  · intro row hrow
    rw [hcounters]
    exact h.rows row (hrows row hrow)
  intro card
  unfold OrcDb.clearedGeneration
  rw [hfuses, hcounters]
  exact h.cleared card

theorem foldl_max_lt {l : List Nat} {bound : Nat} (h : ∀ n ∈ l, n < bound) :
    ∀ a, a < bound → l.foldl max a < bound := by
  induction l with
  | nil =>
    intro a ha
    exact ha
  | cons n l ih =>
    intro a ha
    refine ih (fun m hm => h m (List.mem_cons_of_mem _ hm)) (max a n) ?_
    have := h n List.mem_cons_self
    omega

theorem maxOwnershipGeneration_lt (h : Behind s) (card : Nat) :
    s.maxOwnershipGeneration card < (s.ownershipCounters card).getD 1 := by
  refine foldl_max_lt (fun n hn => ?_) 0 (Nat.zero_lt_of_lt (h.cleared card))
  obtain ⟨row, hrow, rfl⟩ := List.mem_map.1 hn
  obtain ⟨hmem, hcard⟩ := (Table.mem_select _ _ _).1 hrow
  have hlt := h.rows row hmem
  rwa [of_decide_eq_true hcard] at hlt

theorem writeFuse (h : Behind s) (scope : FuseScope) {f : FuseRow → FuseRow} {new : FuseRow}
    (hboundary : ∀ card, scope = .card card →
      (∀ row, (f row).clearedGeneration = s.maxOwnershipGeneration card) ∧
        new.clearedGeneration = s.maxOwnershipGeneration card) : Behind (s.writeFuse scope f new) := by
  refine ⟨h.rows, fun card => ?_⟩
  unfold OrcDb.clearedGeneration OrcDb.writeFuse
  dsimp only
  by_cases hscope : FuseScope.card card = scope
  · subst hscope
    obtain ⟨hf, hnew⟩ := hboundary card rfl
    have hmax := h.maxOwnershipGeneration_lt card
    rw [Function.update_self, Option.getD_some]
    cases s.fuses (.card card) with
    | none =>
      rw [Option.elim_none, hnew]
      exact hmax
    | some row =>
      rw [Option.elim_some, hf]
      exact hmax
  · rw [Function.update_of_ne hscope]
    exact h.cleared card

theorem update {p : OrcProjectRunRow → Bool} {f : OrcProjectRunRow → OrcProjectRunRow}
    {hf : ∀ row, (f row).id = row.id} (h : Behind s)
    (hcard : ∀ row, (f row).projectCardId = row.projectCardId)
    (hgeneration : ∀ row, (f row).ownershipGeneration = row.ownershipGeneration) :
    Behind (s.update p f hf).2 := by
  refine ⟨fun row hrow => ?_, h.cleared⟩
  rw [OrcDb.runs_update] at hrow
  obtain ⟨r, hr, rfl⟩ := Table.mem_updateWhere.1 hrow
  have hlt := h.rows r hr
  by_cases hp : p r = true
  · rw [if_pos hp, hcard, hgeneration]
    exact hlt
  · rw [if_neg hp]
    exact hlt

end Behind

theorem behind_opStep (s : OrcDb) (op : OrcOp) (h : Behind s) : Behind (opStep s op) := by
  cases op with
  | claimIntent guardrails now input ownerPeer ownerInstanceId =>
    show Behind (s.claimIntent guardrails now input ownerPeer ownerInstanceId).2
    rcases OrcDb.claimIntent_cases guardrails now input ownerPeer ownerInstanceId s with
      ⟨new, s', hclaim, hclaims⟩ | ⟨hopens, -⟩
    · rw [hclaim]
      have hcounter : ∀ card, (s.ownershipCounters card).getD 1 ≤
          (s'.ownershipCounters card).getD 1 := by
        intro card
        rw [hclaims.counters]
        by_cases hcard : card = input.projectCardId
        · rw [hcard, Function.update_self, Option.getD_some, hclaims.generation]
          omega
        · rw [Function.update_of_ne hcard]
      constructor
      · intro row hrow
        rcases (Table.mem_insert hclaims.inserted).1 hrow with hold | rfl
        · exact Nat.lt_of_lt_of_le (h.rows row hold) (hcounter _)
        · rw [hclaims.counters, hclaims.card, Function.update_self, Option.getD_some]
          omega
      intro card
      unfold OrcDb.clearedGeneration
      rw [hclaims.fuses]
      exact Nat.lt_of_lt_of_le (h.cleared card) (hcounter card)
    · constructor
      · rw [hopens.runs, hopens.counters]
        exact h.rows
      · intro card
        rw [hopens.cleared, hopens.counters]
        exact h.cleared card
  | promoteRun now runId =>
    show Behind (s.promoteRun now runId).2
    unfold OrcDb.promoteRun
    split
    · exact h
    · exact h.update (fun _ => rfl) (fun _ => rfl)
  | bindExecution now context sessionId executionId =>
    show Behind (s.bindExecution now context sessionId executionId).2
    rcases OrcDb.bindExecution_cases now context sessionId executionId s with hsame | hwrite
    · rw [hsame]
      exact h
    · rw [hwrite]
      exact h.update (fun _ => rfl) (fun _ => rfl)
  | release now context outcome failureCode =>
    show Behind (s.release now context outcome failureCode).2
    unfold OrcDb.release
    dsimp only
    generalize (if outcome = .completed then none
      else some (failureCode.getD .providerFailure)) = code
    have hupdate : Behind (s.update (OrcDb.releasable context) (·.release now outcome code)
        (·.id_release now outcome code)).2 := h.update (fun _ => rfl) (fun _ => rfl)
    split
    · refine hupdate.writeFuse (.card context.projectCardId) fun card hcard => ?_
      cases hcard
      exact ⟨fun _ => rfl, rfl⟩
    · exact hupdate
  | supersede now runId outcome => exact h.update (fun _ => rfl) (fun _ => rfl)
  | cleanupOrphanedRuns batchSize maxBatches =>
    obtain ⟨hrows, hcounters, hfuses⟩ :=
      OrcDb.cleanupBatches_spec (min (max (batchSize.getD 200) 1) 5000)
        (min (max (maxBatches.getD 250) 1) 10000) "" s
    exact h.of_subset hrows hcounters hfuses
  | resetProjectFuse now projectCardId =>
    refine h.writeFuse (.card projectCardId) fun card hcard => ?_
    cases hcard
    exact ⟨fun _ => rfl, rfl⟩
  | resetBridgeFuse now => exact h.writeFuse .bridge fun card hcard => by cases hcard
  | elsewhere write => exact ⟨h.rows, h.cleared⟩

theorem behind_orcStep (s : OrcDb) (call : OrcCall) (h : Behind s) : Behind (orcStep s call) := by
  cases call with
  | op op => exact behind_opStep s op h
  | withCurrentRun context fn =>
    show Behind (s.withCurrentRun context fn).2
    rcases OrcDb.withCurrentRun_spec context s with ⟨row, -, hrun⟩ | ⟨-, reason, hrun⟩
    · rw [hrun]
      exact invariant_of_step behind_opStep (fn row s).1 s h
    · rw [hrun]
      exact h

theorem not_attemptOf (s : OrcDb) (card : Nat) (h : Behind s) :
    ∀ row ∈ s.runs, attemptOf card ((s.ownershipCounters card).getD 1) row = false := by
  intro row hrow
  have hlt := h.rows row hrow
  simp only [attemptOf, decide_eq_false_iff_not, not_and, not_le]
  rintro rfl
  exact hlt

theorem length_mayComeTo_eq_zero (s : OrcDb) (card : Nat) (label : AttemptOutcome) (h : Behind s) :
    (s.runs.select (mayComeTo card ((s.ownershipCounters card).getD 1) label)).length = 0 := by
  rw [List.length_eq_zero_iff, List.eq_nil_iff_forall_not_mem]
  intro row hrow
  obtain ⟨hmem, hcome⟩ := (Table.mem_select _ _ _).1 hrow
  simp [mayComeTo, not_attemptOf s card h row hmem] at hcome

theorem attempts_le_mayComeTo (card first : Nat) (label : AttemptOutcome) (s : OrcDb) :
    attempts card first label s ≤ (s.runs.select (mayComeTo card first label)).length := by
  refine Table.length_select_le_of_imp fun row _ hlabel => ?_
  simp only [mayComeTo, decide_eq_true_eq] at hlabel ⊢
  exact ⟨hlabel.1, .inr hlabel.2⟩

/-- For the rows of every database the limits count what the classifier says exactly when none of
the card's rows inside the windows escapes.  And in every run of calls inside one window, from any
database the store reaches, a card has no more failed attempts than the first limit allows, and no
more attempts without progress than the second allows where every run of the card that is released
was bound before or is released as failed. -/
theorem fuse_counts_attempts (db : Db) (history : List OrcCall) (card : Nat)
    (start window : Millis) (maxFailed maxNoProgress : Nat) (ops : List OrcOp)
    (hops : ∀ op ∈ ops, StormOp card start window maxFailed maxNoProgress op) :
    (∀ (s : OrcDb) (now : Millis),
      (∀ row ∈ s.runs, InWindows card (s.clearedGeneration card) now row →
        CountsAgree card (s.clearedGeneration card) now row) ↔
      ∀ row ∈ s.runs, InWindows card (s.clearedGeneration card) now row → ¬ Escapes row) ∧
    (window ≤ 600000 →
      attempts card (((runFrom orcStep (.fresh db) history).ownershipCounters card).getD 1) .failed
        (runFrom opStep (runFrom orcStep (.fresh db) history) ops) ≤ maxFailed) ∧
    (window ≤ 300000 →
      StepsMeet opStep (EndsCounted card) (runFrom orcStep (.fresh db) history) ops →
      attempts card (((runFrom orcStep (.fresh db) history).ownershipCounters card).getD 1)
        .noProgress (runFrom opStep (runFrom orcStep (.fresh db) history) ops) ≤
          maxNoProgress) := by
  have hfresh : Behind (OrcDb.fresh db) :=
    ⟨fun row hrow => absurd hrow (Table.not_mem_empty row), fun _ => Nat.zero_lt_one⟩
  have hbehind := invariant_of_step behind_orcStep history _ hfresh
  generalize runFrom orcStep (.fresh db) history = s at hbehind ⊢
  generalize hfirst : (s.ownershipCounters card).getD 1 = first
  have hstorm : Storm card first start window s := by
    refine ⟨hfirst.ge, hfirst ▸ hbehind.cleared card, fun row hrow hattempt => ?_⟩
    rw [← hfirst, not_attemptOf s card hbehind row hrow] at hattempt
    cases hattempt
  have hnone : ∀ label, (s.runs.select (mayComeTo card first label)).length = 0 := fun label =>
    hfirst ▸ length_mayComeTo_eq_zero s card label hbehind
  have hmeets : StepsMeet opStep
      (fun _ op => StormOp card start window maxFailed maxNoProgress op) s ops :=
    (stepsMeet_forall ops s).2 hops
  refine ⟨fun s now => ?_, fun hwindow => ?_, fun hwindow hends => ?_⟩
  · exact forall₂_congr fun row _ => forall_congr' fun hrow => countsAgree_iff hrow
  · have hend := invariant_of_stepsMeet
      (I := fun s => Storm card first start window s ∧
        (s.runs.select (mayComeTo card first .failed)).length ≤ maxFailed)
      (fun s op hs hop => ⟨storm_opStep hop hs.1, failed_opStep hop hs.1 hwindow hs.2⟩)
      ops s ⟨hstorm, by rw [hnone]; exact Nat.zero_le _⟩ hmeets
    exact (attempts_le_mayComeTo ..).trans hend.2
  · have hcounted : AllCounted card first s := fun row hrow hattempt => by
      rw [← hfirst, not_attemptOf s card hbehind row hrow] at hattempt
      cases hattempt
    have hend := invariant_of_stepsMeet
      (I := fun s => Storm card first start window s ∧ AllCounted card first s ∧
        (s.runs.select (mayComeTo card first .noProgress)).length ≤ maxNoProgress)
      (fun s op hs hop => ⟨storm_opStep hop.1 hs.1, allCounted_opStep hop.1 hop.2 hs.2.1,
        noProgress_opStep hop.1 hs.1 hs.2.1 hwindow hs.2.2⟩)
      ops s ⟨hstorm, hcounted, by rw [hnone]; exact Nat.zero_le _⟩ (hmeets.and ops s hends)
    exact (attempts_le_mayComeTo ..).trans hend.2.2

/-- The context of the `n`-th turn on the project. -/
def turnContext (n : Nat) : OrcInvocationContext :=
  { buildContextFromRow ((OrcDb.fresh projectDb).newRun 0 operatorTurn 1 "p" "inst") with
    runId := s!"or_1_{n}_0", ownershipGeneration := n }

def unboundTurn (outcome : OrcRunOutcome) (n : Nat) : List OrcOp :=
  [.claimIntent .default 0 operatorTurn "p" "inst", .release 0 (turnContext n) outcome none]

def cancelledTurns : List OrcOp := ((List.range 6).map (· + 1)).flatMap (unboundTurn .cancelled)

def supersededTurn : List OrcOp :=
  [.claimIntent .default 0 operatorTurn "p" "inst", .promoteRun 0 "or_1_1_0",
    .bindExecution 0 (turnContext 1) "session" "execution",
    .supersede 0 "or_1_1_0" .generationChanged]

/-- Six attempts without progress under a limit of five, and a superseded one that counts. -/
theorem cancelled_uncounted :
    OrcGuardrails.default.startsWithoutProgress <
        attempts 1 1 .noProgress (runFrom opStep (.fresh projectDb) cancelledTurns) ∧
      ∃ row ∈ (runFrom opStep (.fresh projectDb) supersededTurn).runs,
        classifyAttemptOutcome row = .superseded ∧ countedNoProgress 1 0 0 row = true := by
  constructor
  · decide +kernel
  have hany : ((runFrom opStep (.fresh projectDb) supersededTurn).runs.rows.any fun row =>
      decide (classifyAttemptOutcome row = .superseded ∧ countedNoProgress 1 0 0 row = true)) =
        true := by decide +kernel
  obtain ⟨row, hrow, hboth⟩ := List.any_eq_true.1 hany
  exact ⟨row, hrow, of_decide_eq_true hboth⟩

/-- Two failed turns, in a window of no length. -/
theorem fuse_counts_attempts_twice :
    attempts 1 1 .failed (runFrom opStep (.fresh projectDb)
      (unboundTurn .failed 1 ++ unboundTurn .failed 2)) ≤ 3 :=
  (fuse_counts_attempts projectDb [] 1 0 0 3 5 (unboundTurn .failed 1 ++ unboundTurn .failed 2)
    (by simp [unboundTurn, StormOp, OrcGuardrails.default])).2.1 (by decide)

end Abtars
