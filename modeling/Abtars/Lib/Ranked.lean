import Mathlib.Data.List.Sort

/-!
# Lists in the order of a rank

The higher rank comes first, and a key decides between equal ranks.  Two ranks
give a list the same order exactly when they agree on every pair whose keys
would put it the other way round.
-/

namespace Lib

variable {α κ : Type*} [LinearOrder κ] {rank rank' : α → Int} {key : α → κ} {l : List α}

def RankedBefore (rank : α → Int) (key : α → κ) (a b : α) : Prop :=
  rank b < rank a ∨ rank a = rank b ∧ key a ≤ key b

instance : DecidableRel (RankedBefore rank key) := fun _ _ =>
  inferInstanceAs (Decidable (_ ∨ _))

def ranked (rank : α → Int) (key : α → κ) (l : List α) : List α :=
  l.insertionSort (RankedBefore rank key)

instance : Std.Total (RankedBefore rank key) where
  total a b := by
    unfold RankedBefore
    have := le_total (key a) (key b)
    grind

instance : IsTrans α (RankedBefore rank key) where
  trans a b c := by
    unfold RankedBefore
    intro hab hbc
    have := le_trans (a := key a) (b := key b) (c := key c)
    grind

theorem pairwise_ranked (rank : α → Int) (key : α → κ) (l : List α) :
    (ranked rank key l).Pairwise (RankedBefore rank key) :=
  List.pairwise_insertionSort _ l

theorem ranked_perm (rank : α → Int) (key : α → κ) (l : List α) : (ranked rank key l).Perm l :=
  List.perm_insertionSort _ l

/-- The ranks agree on the elements, in the order that the key would give them. -/
def RanksAgree (rank rank' : α → Int) (key : α → κ) (l : List α) : Prop :=
  ∀ a ∈ l, ∀ b ∈ l, key a < key b → (rank a < rank b ↔ rank' a < rank' b)

theorem rankedBefore_iff (hkey : ∀ a ∈ l, ∀ b ∈ l, key a = key b → a = b) :
    RanksAgree rank rank' key l ↔
      ∀ a ∈ l, ∀ b ∈ l, RankedBefore rank key a b ↔ RankedBefore rank' key a b := by
  unfold RanksAgree RankedBefore
  constructor
  · intro h a ha b hb
    rcases lt_trichotomy (key a) (key b) with hlt | heq | hgt
    · grind
    · rw [hkey a ha b hb heq]
      simp
    · grind
  · intro h a ha b hb hlt
    grind

theorem ranked_eq_iff (hkey : ∀ a ∈ l, ∀ b ∈ l, key a = key b → a = b) :
    ranked rank key l = ranked rank' key l ↔ RanksAgree rank rank' key l := by
  have hanti : ∀ rank : α → Int, ∀ a ∈ l, ∀ b ∈ l, RankedBefore rank key a b →
      RankedBefore rank key b a → a = b := by
    intro rank a ha b hb hab hba
    refine hkey a ha b hb (le_antisymm ?_ ?_) <;> unfold RankedBefore at hab hba <;> grind
  rw [rankedBefore_iff hkey]
  constructor
  · intro heq a ha b hb
    have hmem : ∀ {a}, a ∈ ranked rank key l ↔ a ∈ l := (ranked_perm rank key l).mem_iff
    have hboth : (ranked rank key l).Pairwise fun a b =>
        RankedBefore rank key a b ∧ RankedBefore rank' key a b :=
      (pairwise_ranked rank key l).and (heq ▸ pairwise_ranked rank' key l)
    refine List.Pairwise.forall_of_forall_of_flip
      (R := fun c d => RankedBefore rank key c d ↔ RankedBefore rank' key c d)
      (fun c _ => ?_) (hboth.imp fun h => ?_)
      (hboth.imp_of_mem fun {c d} hc hd h => ?_) (hmem.2 ha) (hmem.2 hb)
    · simp [RankedBefore]
    · exact iff_of_true h.1 h.2
    · constructor
      · intro hback
        exact hanti rank c (hmem.1 hc) d (hmem.1 hd) h.1 hback ▸ h.2
      · intro hback
        exact hanti rank' c (hmem.1 hc) d (hmem.1 hd) h.2 hback ▸ h.1
  · intro hagree
    refine List.Perm.eq_of_pairwise ?_ (pairwise_ranked rank key l) ?_
      ((ranked_perm rank key l).trans (ranked_perm rank' key l).symm)
    · intro a b ha hb
      exact hanti rank a ((ranked_perm rank key l).subset ha) b
        ((ranked_perm rank' key l).subset hb)
    · refine (pairwise_ranked rank' key l).imp_of_mem ?_
      intro a b ha hb
      exact (hagree a ((ranked_perm rank' key l).subset ha) b
        ((ranked_perm rank' key l).subset hb)).2

end Lib
