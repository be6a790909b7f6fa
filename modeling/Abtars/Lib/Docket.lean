import Mathlib.Data.List.Perm.Basic
import Mathlib.Data.List.Perm.Subperm
import Mathlib.Data.List.Nodup

/-!
# Dockets

Entries are opened once, stay pending, and are closed.  A docket is balanced when
the entries opened are those closed and those pending, each counted once: so an
opened entry is closed exactly once when it is no longer pending, and not at all
while it is.
-/

namespace Lib

variable {α : Type*}

structure Balanced (opened pending closed : List α) : Prop where
  nodup : opened.Nodup
  perm : opened.Perm (closed ++ pending)

namespace Balanced

variable {opened pending closed : List α}

theorem nil : Balanced ([] : List α) [] [] := ⟨List.nodup_nil, .nil⟩

theorem mem_opened (h : Balanced opened pending closed) {a : α} (ha : a ∈ pending) : a ∈ opened :=
  h.perm.mem_iff.2 (List.mem_append_right closed ha)

theorem pending_nodup (h : Balanced opened pending closed) : pending.Nodup :=
  (List.nodup_append.1 (h.perm.nodup_iff.1 h.nodup)).2.1

theorem enter (h : Balanced opened pending closed) {a : α} (ha : a ∉ opened) :
    Balanced (opened ++ [a]) (pending ++ [a]) closed := by
  constructor
  · rw [List.nodup_append_comm, List.singleton_append, List.nodup_cons]
    exact ⟨ha, h.nodup⟩
  · rw [← List.append_assoc]
    exact h.perm.append_right [a]

variable [DecidableEq α]

theorem close (h : Balanced opened pending closed) {ended subjects : List α}
    (hsub : ended ⊆ pending) (hnodup : ended.Nodup) (hsubjects : subjects.Perm ended) :
    Balanced opened (pending.filter (· ∉ ended)) (closed ++ subjects) := by
  refine ⟨h.nodup, ?_⟩
  -- the entries filtered out are the ended ones
  have hended : (pending.filter (· ∈ ended)).Perm ended := by
    rw [List.perm_ext_iff_of_nodup (h.pending_nodup.filter _) hnodup]
    intro a
    simp only [List.mem_filter, decide_eq_true_eq]
    exact ⟨fun ha => ha.2, fun ha => ⟨hsub ha, ha⟩⟩
  have hsplit : pending.Perm (ended ++ pending.filter (· ∉ ended)) := by
    have hfilter := List.filter_append_perm (fun a => decide (a ∈ ended)) pending
    refine (hfilter.symm.trans (hended.append_right _)).trans (List.Perm.of_eq ?_)
    simp
  rw [List.append_assoc]
  exact h.perm.trans ((hsplit.trans (hsubjects.symm.append_right _)).append_left closed)

theorem count_eq_one (h : Balanced opened pending closed) {a : α} (ha : a ∈ opened) :
    closed.count a + pending.count a = 1 := by
  rw [← List.count_append, ← h.perm.count_eq]
  exact List.count_eq_one_of_mem h.nodup ha

theorem count_closed_le_one (h : Balanced opened pending closed) (a : α) : closed.count a ≤ 1 := by
  have hle := List.nodup_iff_count_le_one.1 h.nodup a
  rw [h.perm.count_eq, List.count_append] at hle
  omega

/-- Closed exactly once after it has left, and never before. -/
theorem count_closed (h : Balanced opened pending closed) {a : α} (ha : a ∈ opened) :
    closed.count a = if a ∈ pending then 0 else 1 := by
  have hone := h.count_eq_one ha
  split
  · rename_i hmem
    rw [List.count_eq_one_of_mem h.pending_nodup hmem] at hone
    omega
  · rename_i hmem
    rw [List.count_eq_zero_of_not_mem hmem] at hone
    omega

end Balanced

/-! ## Groups -/

variable {κ : Type*} [DecidableEq κ]

/-- The groups of a list by a key, the keys in any order, hold what the list
holds. -/
theorem flatMap_filter_perm (key : α → κ) (l : List α) :
    ∀ keys : List κ, keys.Nodup →
      (keys.flatMap fun k => l.filter (key · = k)).Perm (l.filter (key · ∈ keys)) := by
  intro keys
  induction keys with
  | nil =>
    intro _
    simp
  | cons k keys ih =>
    intro hnodup
    rw [List.nodup_cons] at hnodup
    have hsplit := List.filter_append_perm (fun a => decide (key a = k))
      (l.filter fun a => decide (key a ∈ k :: keys))
    refine List.Perm.trans ?_ hsplit
    have hfirst : (l.filter fun a => decide (key a ∈ k :: keys)).filter
        (fun a => decide (key a = k)) = l.filter fun a => decide (key a = k) := by
      rw [List.filter_filter]
      refine List.filter_congr fun a _ => ?_
      by_cases hk : key a = k <;> simp [hk]
    have hrest : (l.filter fun a => decide (key a ∈ k :: keys)).filter
        (fun a => !decide (key a = k)) = l.filter fun a => decide (key a ∈ keys) := by
      rw [List.filter_filter]
      refine List.filter_congr fun a _ => ?_
      by_cases hk : key a = k
      · simp [hk, hnodup.1]
      · simp [hk]
    rw [hfirst, hrest]
    exact (ih hnodup.2).append_left _

theorem nodup_eraseDups (l : List κ) : l.eraseDups.Nodup := by
  cases l with
  | nil => exact List.nodup_nil
  | cons k l =>
    rw [List.eraseDups_cons, List.nodup_cons]
    refine ⟨?_, nodup_eraseDups _⟩
    simp
termination_by l.length
decreasing_by
  exact Nat.lt_succ_of_le (List.length_filter_le _ _)

theorem groups_perm (key : α → κ) (l : List α) :
    ((l.map key).eraseDups.flatMap fun k => l.filter (key · = k)).Perm l := by
  refine (flatMap_filter_perm key l _ (nodup_eraseDups _)).trans (List.Perm.of_eq ?_)
  refine List.filter_eq_self.2 fun a ha => ?_
  rw [decide_eq_true_eq, List.mem_eraseDups]
  exact List.mem_map_of_mem ha

end Lib
