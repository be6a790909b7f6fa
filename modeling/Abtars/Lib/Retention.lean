import Abtars.Lib.Table
import Mathlib.Data.List.Chain
import Mathlib.Data.List.DropRight

/-!
# Bounded retention

A log that grows without a timer is cut back after every append to its newest
entries.  The cut is stated as an SQL delete states it: an entry goes when the
retained number of entries rank above it.  On a log in rank order this keeps a
suffix, so every property of adjacent entries survives it.
-/

namespace Lib

variable {ρ κ : Type*} [Preorder κ] [DecidableLT κ]

/-- The entries with fewer than `k` entries ranking above them. -/
def newest (rank : ρ → κ) (k : Nat) (entries : List ρ) : List ρ :=
  entries.filter fun r => (entries.filter fun s => rank r < rank s).length < k

theorem newest_eq_drop {rank : ρ → κ} {entries : List ρ} (k : Nat)
    (hsorted : entries.Pairwise fun earlier later => rank earlier < rank later) :
    newest rank k entries = entries.drop (entries.length - k) := by
  induction entries with
  | nil => simp [newest]
  | cons r rest ih =>
    obtain ⟨habove, hrest⟩ := List.pairwise_cons.1 hsorted
    have hall : rest.filter (fun s => rank r < rank s) = rest := by
      rw [List.filter_eq_self]
      exact fun s hs => decide_eq_true (habove s hs)
    -- the head ranks above nobody, so the counts of the tail are those of the tail alone
    have htail : rest.filter (fun s =>
        ((r :: rest).filter fun u => rank s < rank u).length < k) = newest rank k rest := by
      refine List.filter_congr fun s hs => ?_
      have hnot : ¬ rank s < rank r := (habove s hs).asymm
      simp [hnot]
    have hhead : ((r :: rest).filter fun s => rank r < rank s).length = rest.length := by
      rw [List.filter_cons, if_neg (by simp), hall]
    rw [newest, List.filter_cons, hhead, htail, ih hrest, List.length_cons]
    by_cases hlt : rest.length < k
    · have hnone : rest.length - k = 0 := by omega
      have hnone' : rest.length + 1 - k = 0 := by omega
      simp [hlt, hnone, hnone']
    · have hsome : rest.length + 1 - k = (rest.length - k) + 1 := by omega
      rw [hsome, List.drop_succ_cons]
      simp [hlt]

theorem newest_suffix {rank : ρ → κ} {entries : List ρ} (k : Nat)
    (hsorted : entries.Pairwise fun earlier later => rank earlier < rank later) :
    newest rank k entries <:+ entries := by
  rw [newest_eq_drop k hsorted]
  exact List.drop_suffix _ _

theorem length_newest_le {rank : ρ → κ} {entries : List ρ} (k : Nat)
    (hsorted : entries.Pairwise fun earlier later => rank earlier < rank later) :
    (newest rank k entries).length ≤ k := by
  rw [newest_eq_drop k hsorted, List.length_drop]
  omega

/-- The cut never takes the last entry. -/
theorem getLast?_newest {rank : ρ → κ} {entries : List ρ} {k : Nat}
    (hsorted : entries.Pairwise fun earlier later => rank earlier < rank later)
    (hk : 0 < k) : (newest rank k entries).getLast? = entries.getLast? := by
  rw [newest_eq_drop k hsorted, List.getLast?_drop]
  by_cases hnil : entries.length = 0
  · simp [List.length_eq_zero_iff.1 hnil]
  · rw [if_neg (by omega)]

theorem rtake_append_singleton (k : Nat) (entries : List ρ) (r : ρ) :
    (entries.rtake k ++ [r]).rtake k = (entries ++ [r]).rtake k := by
  cases k with
  | zero => simp
  | succ n =>
    rw [List.rtake_concat_succ, List.rtake_concat_succ]
    congr 1
    simp only [List.rtake, List.drop_drop, List.length_drop]
    congr 1
    omega

theorem map_rtake {σ : Type*} (f : ρ → σ) (k : Nat) (entries : List ρ) :
    (entries.rtake k).map f = (entries.map f).rtake k := by
  rw [List.rtake, List.rtake, List.map_drop, List.length_map]

/-- A log that shows the tail of a longer one still does after both have grown by
entries that look alike and the log was cut. -/
theorem map_newest_append {σ τ : Type*} {rank : ρ → κ} {k : Nat} {entries : List ρ} {r : ρ}
    {full : List σ} {s : σ} {f : ρ → τ} {g : σ → τ}
    (hsorted : (entries ++ [r]).Pairwise fun earlier later => rank earlier < rank later)
    (hshows : entries.map f = (full.rtake k).map g) (hlook : f r = g s) :
    (newest rank k (entries ++ [r])).map f = ((full ++ [s]).rtake k).map g := by
  have hgrown : (entries ++ [r]).map f = (full.rtake k ++ [s]).map g := by
    simp [hshows, hlook]
  calc (newest rank k (entries ++ [r])).map f
      = ((entries ++ [r]).rtake k).map f := by rw [newest_eq_drop k hsorted, List.rtake]
    _ = ((full.rtake k ++ [s]).rtake k).map g := by rw [map_rtake, hgrown, ← map_rtake]
    _ = ((full ++ [s]).rtake k).map g := by rw [rtake_append_singleton]

/-! ## One group of a table -/

namespace Table

variable {ι : Type*} [Keyed ρ ι]

/-- Delete the rows of a group that have the retained number of rows of the
group above them. -/
def prune (t : Table ρ) (group : ρ → Bool) (rank : ρ → κ) (k : Nat) : Table ρ :=
  t.deleteWhere fun r =>
    group r ∧ k ≤ (t.select fun s => group s ∧ rank r < rank s).length

theorem select_prune (t : Table ρ) (group : ρ → Bool) (rank : ρ → κ) (k : Nat) :
    (t.prune group rank k).select group = newest rank k (t.select group) := by
  simp only [prune, select, deleteWhere, newest, List.filter_filter]
  refine List.filter_congr fun r _ => ?_
  cases hgroup : group r with
  | false => simp
  | true =>
    have hcut : ∀ n : Nat, (!decide (k ≤ n)) = decide (n < k) := by
      intro n
      rw [← decide_not, decide_eq_decide, Nat.not_le]
    simp only [Bool.decide_and, Bool.decide_eq_true, Bool.true_and, Bool.and_comm, decide_true]
    exact hcut _

theorem select_prune_of_disjoint (t : Table ρ) {group other : ρ → Bool} (rank : ρ → κ) (k : Nat)
    (hdisjoint : ∀ r, other r = true → group r = false) :
    (t.prune group rank k).select other = t.select other := by
  simp only [prune, select, deleteWhere, List.filter_filter]
  refine List.filter_congr fun r _ => ?_
  cases hother : other r with
  | false => simp
  | true => simp [hdisjoint r hother]

end Table

end Lib
