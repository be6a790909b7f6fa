import Mathlib.Algebra.Order.Group.Defs
import Mathlib.Logic.Relation
import Mathlib.Tactic.Abel

/-!
# Capped accounts

An account under a cap counts what has been committed and what is on hold.  A
hold is admitted against the cap, and may later be released or turned into a
commitment that is no larger.  Committed and held amounts together then never
exceed the cap, whatever the order of the steps.
-/

namespace Lib

@[ext]
structure Account (M : Type*) where
  committed : M
  held : M

namespace Account

variable {M : Type*} [AddCommGroup M] [PartialOrder M]

inductive Step (cap : M) : Account M → Account M → Prop
  | hold (a : Account M) (n : M) (h : a.committed + a.held + n ≤ cap) :
      Step cap a ⟨a.committed, a.held + n⟩
  | settle (a : Account M) (n charge : M) (h : charge ≤ n) :
      Step cap a ⟨a.committed + charge, a.held - n⟩

abbrev Steps (cap : M) : Account M → Account M → Prop :=
  Relation.ReflTransGen (Step cap)

def Within (cap : M) (a : Account M) : Prop :=
  a.committed + a.held ≤ cap

theorem step_of_held_le {cap : M} {a b : Account M} [IsOrderedAddMonoid M]
    (hcommitted : b.committed = a.committed) (hheld : b.held ≤ a.held) : Step cap a b := by
  have hstep := @Step.settle M _ _ cap a (a.held - b.held) 0 (sub_nonneg.2 hheld)
  have hb : b = ⟨a.committed + 0, a.held - (a.held - b.held)⟩ :=
    Account.ext (by rw [hcommitted, add_zero]) (sub_sub_cancel a.held b.held).symm
  rw [hb]
  exact hstep

variable [IsOrderedAddMonoid M]

theorem Within.step {cap : M} {a b : Account M} (h : a.Within cap) (hstep : Step cap a b) :
    b.Within cap := by
  cases hstep with
  | hold n hn =>
    show a.committed + (a.held + n) ≤ cap
    rw [← add_assoc]
    exact hn
  | settle n charge hcharge =>
    have hle : a.committed + charge + (a.held - n) ≤ a.committed + n + (a.held - n) :=
      add_le_add_left (add_le_add_right hcharge a.committed) (a.held - n)
    refine hle.trans (le_of_eq_of_le ?_ h)
    abel

theorem Within.steps {cap : M} {a b : Account M} (h : a.Within cap) (hsteps : Steps cap a b) :
    b.Within cap := by
  induction hsteps with
  | refl => exact h
  | tail _ hstep ih => exact ih.step hstep

end Account

end Lib
