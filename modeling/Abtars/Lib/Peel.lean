import Abtars.Lib.Table

/-!
# Peeling a forest leaf first

Rows name a parent row by key.  A pass removes the candidates no row names as
its parent, and passes repeat until one removes nothing.  What goes is exactly
`Removable`: a candidate all of whose children go.  A row that names a removed row
as its parent is removed itself, so peeling leaves no dangling link.
-/

namespace Lib

variable {ρ κ : Type*} [Keyed ρ κ] [DecidableEq κ]

def hasChild (parent : ρ → Option κ) (t : Table ρ) (k : κ) : Bool :=
  t.rows.any fun r => parent r = some k

def peelOnce (parent : ρ → Option κ) (candidate : κ → Bool) (t : Table ρ) : Table ρ :=
  t.deleteWhere fun r => candidate (Keyed.key r) ∧ hasChild parent t (Keyed.key r) = false

inductive Removable (parent : ρ → Option κ) (candidate : κ → Bool) (t : Table ρ) : κ → Prop
  | peel (k : κ) (hcandidate : candidate k = true)
      (hchildren : ∀ r ∈ t, parent r = some k → Removable parent candidate t (Keyed.key r)) :
      Removable parent candidate t k

section Pass

variable {parent : ρ → Option κ} {candidate : κ → Bool} {t : Table ρ}

theorem hasChild_eq_true_iff {k : κ} : hasChild parent t k = true ↔ ∃ r ∈ t, parent r = some k := by
  rw [hasChild, List.any_eq_true]
  simp only [decide_eq_true_eq, Table.mem_def]

theorem mem_peelOnce {r : ρ} :
    r ∈ peelOnce parent candidate t ↔
      r ∈ t ∧ (candidate (Keyed.key r) = true → ∃ c ∈ t, parent c = some (Keyed.key r)) := by
  rw [peelOnce, Table.mem_deleteWhere, ← hasChild_eq_true_iff]
  simp

theorem length_peelOnce_le (parent : ρ → Option κ) (candidate : κ → Bool) (t : Table ρ) :
    (peelOnce parent candidate t).rows.length ≤ t.rows.length :=
  List.length_filter_le _ _

theorem peelOnce_of_length (h : (peelOnce parent candidate t).rows.length = t.rows.length) :
    ∀ r ∈ t, candidate (Keyed.key r) = true → ∃ c ∈ t, parent c = some (Keyed.key r) := by
  intro r hr
  have hkept : r ∈ peelOnce parent candidate t := by
    have hall := List.length_filter_eq_length_iff.1 h r hr
    exact List.mem_filter.2 ⟨hr, hall⟩
  exact (mem_peelOnce.1 hkept).2

end Pass

/-- Passes until one removes nothing; each other pass makes the table shorter. -/
def peel (parent : ρ → Option κ) (candidate : κ → Bool) (t : Table ρ) : Table ρ :=
  if (peelOnce parent candidate t).rows.length = t.rows.length then t
  else peel parent candidate (peelOnce parent candidate t)
termination_by t.rows.length
decreasing_by
  rename_i hne
  exact lt_of_le_of_ne (length_peelOnce_le parent candidate t) hne

section Peel

variable {parent : ρ → Option κ} {candidate : κ → Bool} {t : Table ρ}

theorem removable_peelOnce_iff {k : κ} :
    Removable parent candidate (peelOnce parent candidate t) k ↔
      Removable parent candidate t k := by
  constructor
  · intro h
    induction h with
    | peel k hcandidate _ ih =>
      refine .peel k hcandidate fun c hc hparent => ?_
      by_cases hkept : c ∈ peelOnce parent candidate t
      · exact ih c hkept hparent
      -- a row removed by the pass is a candidate without a child
      rw [mem_peelOnce, not_and, Classical.not_imp] at hkept
      obtain ⟨hgone, hnone⟩ := hkept hc
      exact .peel _ hgone fun d hd hlink => absurd ⟨d, hd, hlink⟩ hnone
  · intro h
    induction h with
    | peel k hcandidate _ ih =>
      exact .peel k hcandidate fun c hc hparent => ih c (mem_peelOnce.1 hc).1 hparent

omit [DecidableEq κ] in
theorem not_removable_of_stable
    (hstable : ∀ r ∈ t, candidate (Keyed.key r) = true → ∃ c ∈ t, parent c = some (Keyed.key r))
    {k : κ} (h : Removable parent candidate t k) : ∀ r ∈ t, Keyed.key r ≠ k := by
  induction h with
  | peel k hcandidate _ ih =>
    rintro r hr rfl
    obtain ⟨c, hc, hlink⟩ := hstable r hr hcandidate
    exact ih c hc hlink c hc rfl

/-- **What peeling leaves is what is not removable.** -/
theorem mem_peel_iff (parent : ρ → Option κ) (candidate : κ → Bool) (t : Table ρ) (r : ρ) :
    r ∈ peel parent candidate t ↔ r ∈ t ∧ ¬ Removable parent candidate t (Keyed.key r) := by
  fun_induction peel parent candidate t with
  | case1 t hdone =>
    constructor
    · intro hr
      refine ⟨hr, fun hremovable => ?_⟩
      exact not_removable_of_stable (peelOnce_of_length hdone) hremovable r hr rfl
    · exact fun h => h.1
  | case2 t hmore ih =>
    rw [ih, removable_peelOnce_iff, mem_peelOnce]
    constructor
    · rintro ⟨⟨hr, -⟩, hkept⟩
      exact ⟨hr, hkept⟩
    rintro ⟨hr, hkept⟩
    refine ⟨⟨hr, fun hcandidate => ?_⟩, hkept⟩
    by_contra hnone
    exact hkept (.peel _ hcandidate fun c hc hlink => absurd ⟨c, hc, hlink⟩ hnone)

theorem get_peel_of_not {k : κ} (h : ¬ Removable parent candidate t k) :
    (peel parent candidate t).get k = t.get k := by
  cases hget : t.get k with
  | none =>
    rw [Table.get_eq_none_iff] at hget ⊢
    exact fun r hr => hget r ((mem_peel_iff parent candidate t r).1 hr).1
  | some r =>
    have hkey := Table.key_of_get hget
    rw [Table.get_eq_some_iff]
    exact ⟨(mem_peel_iff parent candidate t r).2 ⟨Table.mem_of_get hget, hkey ▸ h⟩, hkey⟩

omit [DecidableEq κ] in
theorem Removable.child {r : ρ} (hr : r ∈ t) {k : κ} (hlink : parent r = some k)
    (h : Removable parent candidate t k) : Removable parent candidate t (Keyed.key r) := by
  cases h with
  | peel _ _ hchildren => exact hchildren r hr hlink

omit [DecidableEq κ] in
theorem Removable.isCandidate {k : κ} (h : Removable parent candidate t k) : candidate k = true := by
  cases h with
  | peel _ hcandidate _ => exact hcandidate

end Peel

end Lib
