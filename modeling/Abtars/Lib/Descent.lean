import Mathlib.Data.Set.Card
import Mathlib.Logic.Relation

/-!
# The depth of a recursion along a relation

A recursion that calls itself for every successor of its argument returns when
its calls are nested to a bounded depth.  With finitely many arguments in reach
that is so exactly when none of them can be reached from itself.
-/

namespace Lib

open Relation

variable {α : Type*} {r : α → α → Prop} {a b : α} {n : Nat}

/-- The calls for the argument are nested less than `n` deep. -/
def Within (r : α → α → Prop) : Nat → α → Prop
  | 0, _ => False
  | n + 1, a => ∀ b, r a b → Within r n b

theorem Within.succ (h : Within r n a) : Within r (n + 1) a := by
  induction n generalizing a with
  | zero => exact h.elim
  | succ n ih => exact fun b hab => ih (h b hab)

theorem Within.of_transGen (h : Within r (n + 1) a) (hab : TransGen r a b) : Within r n b := by
  induction hab with
  | single hstep => exact h _ hstep
  | tail _ hstep ih =>
    cases n with
    | zero => exact ih.elim
    | succ n => exact (ih _ hstep).succ

theorem not_within_of_cycle (hcycle : TransGen r a a) : ¬ Within r n a := by
  induction n with
  | zero => exact id
  | succ n ih => exact fun h => ih (h.of_transGen hcycle)

theorem within_of_acyclic (hfinite : {b | TransGen r a b}.Finite)
    (hacyclic : ∀ b, TransGen r a b → ¬ TransGen r b b)
    (hcount : {b | TransGen r a b}.ncard < n) : Within r n a := by
  induction n generalizing a with
  | zero => exact absurd hcount (Nat.not_lt_zero _)
  | succ n ih =>
    intro b hab
    have hsub : {c | TransGen r b c} ⊆ {c | TransGen r a c} := fun c hbc => .head hab hbc
    refine ih (hfinite.subset hsub) (fun c hbc => hacyclic c (hsub hbc)) ?_
    -- the successor is within reach of its caller, but not of itself
    have hfewer := Set.ncard_lt_ncard
      ((Set.ssubset_iff_of_subset hsub).2 ⟨b, .single hab, hacyclic b (.single hab)⟩) hfinite
    omega

theorem exists_within_iff (hfinite : {b | TransGen r a b}.Finite) :
    (∃ n, Within r n a) ↔ ¬ ∃ b, TransGen r a b ∧ TransGen r b b := by
  constructor
  · rintro ⟨n, h⟩ ⟨b, hab, hcycle⟩
    exact not_within_of_cycle hcycle (h.succ.of_transGen hab)
  · intro hacyclic
    exact ⟨_, within_of_acyclic hfinite (fun b hab hcycle => hacyclic ⟨b, hab, hcycle⟩)
      (Nat.lt_succ_self _)⟩

end Lib
