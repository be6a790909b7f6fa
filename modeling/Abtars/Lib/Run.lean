import Mathlib.Data.List.Basic

/-!
# Runs of a deterministic step function

A component is a state and a total step function; a run is the left fold of the
step over the list of calls made on it.  The rules below turn what one step
preserves into what every run preserves, with or without a condition that every
step of the run has to meet.
-/

namespace Lib

variable {σ ι : Type*} (step : σ → ι → σ)

/-- The state reached from `s` after the given calls, first call first. -/
def runFrom (s : σ) (ops : List ι) : σ :=
  ops.foldl step s

@[simp]
theorem runFrom_nil (s : σ) : runFrom step s [] = s := rfl

@[simp]
theorem runFrom_cons (s : σ) (op : ι) (ops : List ι) :
    runFrom step s (op :: ops) = runFrom step (step s op) ops := rfl

theorem runFrom_append (s : σ) (ops more : List ι) :
    runFrom step s (ops ++ more) = runFrom step (runFrom step s ops) more :=
  List.foldl_append

/-- Every step of the run meets the condition, in the state it is taken in. -/
def StepsMeet (step : σ → ι → σ) (meets : σ → ι → Prop) : σ → List ι → Prop
  | _, [] => True
  | s, op :: ops => meets s op ∧ StepsMeet step meets (step s op) ops

instance decidableStepsMeet (step : σ → ι → σ) (meets : σ → ι → Prop)
    [∀ s op, Decidable (meets s op)] : ∀ s ops, Decidable (StepsMeet step meets s ops)
  | _, [] => inferInstanceAs (Decidable True)
  | s, op :: ops =>
    have := decidableStepsMeet step meets (step s op) ops
    inferInstanceAs (Decidable (meets s op ∧ StepsMeet step meets (step s op) ops))

/-- An invariant kept by every step that meets the condition holds at the end
of every run whose steps all meet it. -/
theorem invariant_of_stepsMeet {step : σ → ι → σ} {meets : σ → ι → Prop} {I : σ → Prop}
    (hstep : ∀ s op, I s → meets s op → I (step s op)) (ops : List ι) :
    ∀ s, I s → StepsMeet step meets s ops → I (runFrom step s ops) := by
  induction ops with
  | nil =>
    intro s hs _
    exact hs
  | cons op ops ih =>
    intro s hs hmeets
    exact ih (step s op) (hstep s op hs hmeets.1) hmeets.2

/-- An invariant kept by every step holds at the end of every run. -/
theorem invariant_of_step {step : σ → ι → σ} {I : σ → Prop} (hstep : ∀ s op, I s → I (step s op))
    (ops : List ι) : ∀ s, I s → I (runFrom step s ops) := by
  induction ops with
  | nil =>
    intro s hs
    exact hs
  | cons op ops ih =>
    intro s hs
    exact ih (step s op) (hstep s op hs)

/-- A transitive relation, reflexive on the states an invariant describes, that
every step of a run respects relates the two ends of the run. -/
theorem relation_of_stepsMeet {step : σ → ι → σ} {meets : σ → ι → Prop} {I : σ → Prop}
    {R : σ → σ → Prop} (hrefl : ∀ s, I s → R s s) (htrans : ∀ a b c, R a b → R b c → R a c)
    (hinv : ∀ s op, I s → meets s op → I (step s op))
    (hstep : ∀ s op, I s → meets s op → R s (step s op)) (ops : List ι) :
    ∀ s, I s → StepsMeet step meets s ops → R s (runFrom step s ops) := by
  induction ops with
  | nil =>
    intro s hs _
    exact hrefl s hs
  | cons op ops ih =>
    intro s hs hmeets
    exact htrans s (step s op) _ (hstep s op hs hmeets.1)
      (ih (step s op) (hinv s op hs hmeets.1) hmeets.2)

theorem relation_of_step {step : σ → ι → σ} {I : σ → Prop} {R : σ → σ → Prop}
    (hrefl : ∀ s, I s → R s s) (htrans : ∀ a b c, R a b → R b c → R a c)
    (hinv : ∀ s op, I s → I (step s op)) (hstep : ∀ s op, I s → R s (step s op))
    (ops : List ι) : ∀ s, I s → R s (runFrom step s ops) := by
  induction ops with
  | nil => exact hrefl
  | cons op ops ih =>
    intro s hs
    exact htrans s (step s op) _ (hstep s op hs) (ih (step s op) (hinv s op hs))

/-- A run meets a condition when both its parts do, the second from where the
first ends. -/
theorem stepsMeet_append {step : σ → ι → σ} {meets : σ → ι → Prop} (ops more : List ι) :
    ∀ s, StepsMeet step meets s (ops ++ more) ↔
      StepsMeet step meets s ops ∧ StepsMeet step meets (runFrom step s ops) more := by
  induction ops with
  | nil =>
    intro s
    simp [StepsMeet]
  | cons op ops ih =>
    intro s
    simp [StepsMeet, ih, and_assoc]

/-- How many steps of the run are of a kind, each in the state it is taken in. -/
def countSteps (step : σ → ι → σ) (kind : σ → ι → Bool) : σ → List ι → Nat
  | _, [] => 0
  | s, op :: ops => (kind s op).toNat + countSteps step kind (step s op) ops

theorem countSteps_add {step : σ → ι → σ} {kind : σ → ι → Bool} {measure : σ → Nat}
    (hstep : ∀ s op, (kind s op).toNat + measure s = measure (step s op)) (ops : List ι) :
    ∀ s, countSteps step kind s ops + measure s = measure (runFrom step s ops) := by
  induction ops with
  | nil =>
    intro s
    simp [countSteps]
  | cons op ops ih =>
    intro s
    have hrest := ih (step s op)
    rw [countSteps, runFrom_cons, ← hrest, ← hstep]
    omega

theorem countSteps_add_le {step : σ → ι → σ} {kind : σ → ι → Bool} {measure : σ → Nat}
    (hstep : ∀ s op, (kind s op).toNat + measure s ≤ measure (step s op)) (ops : List ι) :
    ∀ s, countSteps step kind s ops + measure s ≤ measure (runFrom step s ops) := by
  induction ops with
  | nil =>
    intro s
    simp [countSteps]
  | cons op ops ih =>
    intro s
    have hrest := ih (step s op)
    have hfirst := hstep s op
    rw [countSteps, runFrom_cons]
    omega

theorem countSteps_le_one {step : σ → ι → σ} {kind : σ → ι → Bool} {flag : σ → Bool}
    (hstep : ∀ s op, (kind s op).toNat + (flag s).toNat ≤ (flag (step s op)).toNat)
    (s : σ) (ops : List ι) : countSteps step kind s ops ≤ 1 := by
  have hcount := countSteps_add_le hstep ops s
  have hend := Bool.toNat_le (flag (runFrom step s ops))
  omega

/-- The same where a step keeps a flag in the states of an invariant only. -/
theorem countSteps_le_one_of_invariant {step : σ → ι → σ} {kind : σ → ι → Bool} {flag : σ → Bool}
    {I : σ → Prop} (hinv : ∀ s op, I s → I (step s op))
    (hstep : ∀ s op, I s → (kind s op).toNat + (flag s).toNat ≤ (flag (step s op)).toNat)
    (ops : List ι) : ∀ s, I s → countSteps step kind s ops ≤ 1 := by
  have hcount : ∀ s, I s → countSteps step kind s ops + (flag s).toNat ≤ 1 := by
    induction ops with
    | nil =>
      intro s _
      simpa [countSteps] using Bool.toNat_le (flag s)
    | cons op ops ih =>
      intro s hs
      have hrest := ih (step s op) (hinv s op hs)
      have hfirst := hstep s op hs
      rw [countSteps]
      omega
  intro s hs
  have := hcount s hs
  omega

theorem countSteps_le_of_imp {step : σ → ι → σ} {kind kind' : σ → ι → Bool}
    (himp : ∀ s op, kind s op = true → kind' s op = true) (ops : List ι) :
    ∀ s, countSteps step kind s ops ≤ countSteps step kind' s ops := by
  induction ops with
  | nil =>
    intro s
    exact Nat.le_refl _
  | cons op ops ih =>
    intro s
    refine Nat.add_le_add ?_ (ih (step s op))
    cases hkind : kind s op with
    | false => exact Nat.zero_le _
    | true => simp [himp s op hkind]

def outputs {β : Type*} (step : σ → ι → σ) (out : σ → ι → List β) : σ → List ι → List β
  | _, [] => []
  | s, op :: ops => out s op ++ outputs step out (step s op) ops

/-- A relation between what has been put out and the state, kept by every step that meets the
condition, holds between all that a run has put out and where it ends. -/
theorem logged_of_stepsMeet {β : Type*} {step : σ → ι → σ} {out : σ → ι → List β}
    {meets : σ → ι → Prop} {I : List β → σ → Prop}
    (hstep : ∀ log s op, I log s → meets s op → I (log ++ out s op) (step s op))
    (ops : List ι) : ∀ log s, I log s → StepsMeet step meets s ops →
      I (log ++ outputs step out s ops) (runFrom step s ops) := by
  induction ops with
  | nil =>
    intro log s hs _
    simpa [outputs] using hs
  | cons op ops ih =>
    intro log s hs hmeets
    rw [runFrom_cons, outputs, ← List.append_assoc]
    exact ih _ _ (hstep log s op hs hmeets.1) hmeets.2

/-- Two conditions that agree in every state of an invariant are met by the same
runs from its states. -/
theorem stepsMeet_iff_of_invariant {step : σ → ι → σ} {meets meets' : σ → ι → Prop} {I : σ → Prop}
    (hinv : ∀ s op, I s → I (step s op)) (hiff : ∀ s op, I s → (meets s op ↔ meets' s op))
    (ops : List ι) : ∀ s, I s → (StepsMeet step meets s ops ↔ StepsMeet step meets' s ops) := by
  induction ops with
  | nil =>
    intro s _
    exact Iff.rfl
  | cons op ops ih =>
    intro s hs
    exact and_congr (hiff s op hs) (ih (step s op) (hinv s op hs))

/-- Two conditions that agree in every state of an invariant are met by the same
runs, when the steps that meet them keep the invariant. -/
theorem stepsMeet_iff_of_kept {step : σ → ι → σ} {meets meets' : σ → ι → Prop} {I : σ → Prop}
    (hkept : ∀ s op, I s → meets s op → I (step s op))
    (hiff : ∀ s op, I s → (meets s op ↔ meets' s op)) (ops : List ι) :
    ∀ s, I s → (StepsMeet step meets s ops ↔ StepsMeet step meets' s ops) := by
  induction ops with
  | nil =>
    intro s _
    exact Iff.rfl
  | cons op ops ih =>
    intro s hs
    constructor
    · rintro ⟨hop, hrest⟩
      exact ⟨(hiff s op hs).1 hop, (ih _ (hkept s op hs hop)).1 hrest⟩
    · rintro ⟨hop, hrest⟩
      have hmeets := (hiff s op hs).2 hop
      exact ⟨hmeets, (ih _ (hkept s op hs hmeets)).2 hrest⟩

/-- A run whose steps meet a condition that keeps an invariant meets what the two imply. -/
theorem stepsMeet_of_kept {step : σ → ι → σ} {meets meets' : σ → ι → Prop} {I : σ → Prop}
    (hkept : ∀ s op, I s → meets s op → I (step s op))
    (himp : ∀ s op, I s → meets s op → meets' s op) (ops : List ι) :
    ∀ s, I s → StepsMeet step meets s ops → StepsMeet step meets' s ops := by
  induction ops with
  | nil =>
    intro s _ _
    trivial
  | cons op ops ih =>
    intro s hs hmeets
    exact ⟨himp s op hs hmeets.1, ih (step s op) (hkept s op hs hmeets.1) hmeets.2⟩

/-- What holds of every step from the states of an invariant is met by every run from them. -/
theorem stepsMeet_of_invariant {step : σ → ι → σ} {meets : σ → ι → Prop} {I : σ → Prop}
    (hinv : ∀ s op, I s → I (step s op)) (hmeets : ∀ s op, I s → meets s op) (ops : List ι) :
    ∀ s, I s → StepsMeet step meets s ops := by
  induction ops with
  | nil =>
    intro s _
    trivial
  | cons op ops ih =>
    intro s hs
    exact ⟨hmeets s op hs, ih (step s op) (hinv s op hs)⟩

theorem stepsMeet_of_all {step : σ → ι → σ} {meets : σ → ι → Prop} (h : ∀ s op, meets s op)
    (ops : List ι) : ∀ s, StepsMeet step meets s ops := by
  intro s
  exact stepsMeet_of_invariant (I := fun _ => True) (fun _ _ _ => trivial)
    (fun s op _ => h s op) ops s trivial

theorem stepsMeet_forall {step : σ → ι → σ} {meets : ι → Prop} (ops : List ι) :
    ∀ s, StepsMeet step (fun _ op => meets op) s ops ↔ ∀ op ∈ ops, meets op := by
  induction ops with
  | nil =>
    intro s
    simp [StepsMeet]
  | cons op ops ih =>
    intro s
    rw [StepsMeet, ih, List.forall_mem_cons]

theorem StepsMeet.and {step : σ → ι → σ} {meets meets' : σ → ι → Prop} (ops : List ι) :
    ∀ s, StepsMeet step meets s ops → StepsMeet step meets' s ops →
      StepsMeet step (fun s op => meets s op ∧ meets' s op) s ops := by
  induction ops with
  | nil =>
    intro s _ _
    trivial
  | cons op ops ih =>
    intro s h h'
    exact ⟨⟨h.1, h'.1⟩, ih (step s op) h.2 h'.2⟩

/-- From the first state of a run that is of one kind on, none is of the other. -/
def NeverAfter (first second : σ → Prop) (s : σ) (ops : List ι) : Prop :=
  ∀ before between after, ops = before ++ between ++ after →
    first (runFrom step s before) → ¬ second (runFrom step s (before ++ between))

theorem NeverAfter.tail {step : σ → ι → σ} {first second : σ → Prop} {s : σ} {op : ι}
    {ops : List ι} (h : NeverAfter step first second s (op :: ops)) :
    NeverAfter step first second (step s op) ops := by
  intro before between after hops
  exact h (op :: before) between after (by rw [hops]; rfl)

/-- Where some steps undo the first kind for the second, and no others among the steps of a run
do, the run has no state of the second kind after one of the first exactly when it has no step
that undoes. -/
theorem neverAfter_iff {step : σ → ι → σ} {first second : σ → Prop} {meets undoes : σ → ι → Prop}
    (hdisjoint : ∀ s, first s → ¬ second s)
    (hkept : ∀ s op, first s → meets s op → ¬ undoes s op → first (step s op))
    (hundone : ∀ s op, undoes s op → first s ∧ second (step s op)) (ops : List ι) :
    ∀ s, StepsMeet step meets s ops →
      (NeverAfter step first second s ops ↔ StepsMeet step (fun s op => ¬ undoes s op) s ops) := by
  intro s hmeets
  constructor
  · intro hnever
    induction ops generalizing s with
    | nil => trivial
    | cons op ops ih =>
      refine ⟨fun hop => ?_, ih (step s op) hmeets.2 hnever.tail⟩
      obtain ⟨hfirst, hsecond⟩ := hundone s op hop
      exact hnever [] [op] ops rfl hfirst hsecond
  · rintro hsafe before between after rfl hfirst
    have hsteps := (stepsMeet_append _ _ s).1 (hmeets.and _ s hsafe)
    have hbetween := ((stepsMeet_append _ _ s).1 hsteps.1).2
    rw [runFrom_append]
    exact hdisjoint _ (invariant_of_stepsMeet
      (fun s op hs hop => hkept s op hs hop.1 hop.2) between _ hfirst hbetween)

end Lib
