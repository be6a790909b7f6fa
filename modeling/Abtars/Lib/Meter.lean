import Mathlib.Algebra.Order.Ring.Defs
import Mathlib.Logic.Relation
import Mathlib.Tactic.Linarith
import Mathlib.Tactic.Ring

/-!
# Metered spending

A meter holds credit that never exceeds a burst and grows no faster than a rate; every spend
takes one unit of it.  Whatever else happens to the credit, the spends in any window of time
are then at most the burst and what the window refills.
-/

namespace Lib

/-- An instant, the credit there, and the instants of the spends so far, newest first. -/
@[ext]
structure Meter (K : Type*) where
  now : K
  credit : K
  spends : List K

namespace Meter

section Windows

variable {K : Type*} [LinearOrder K]

def count (spends : List K) (start stop : K) : Nat :=
  spends.countP fun t => start ≤ t ∧ t ≤ stop

theorem count_nil (start stop : K) : count ([] : List K) start stop = 0 := rfl

theorem count_cons (t : K) (spends : List K) (start stop : K) :
    count (t :: spends) start stop =
      count spends start stop + if start ≤ t ∧ t ≤ stop then 1 else 0 := by
  simp [count, List.countP_cons]

theorem count_of_past {spends : List K} {now : K} (hpast : ∀ t ∈ spends, t ≤ now) (start : K)
    {stop : K} (hstop : now ≤ stop) : count spends start stop = count spends start now := by
  refine List.countP_congr fun t ht => ?_
  have hle := hpast t ht
  simp only [decide_eq_true_eq]
  exact and_congr_right fun _ => ⟨fun _ => hle, fun _ => hle.trans hstop⟩

theorem count_of_future {spends : List K} {now : K} (hpast : ∀ t ∈ spends, t ≤ now) {start : K}
    (stop : K) (hstart : now < start) : count spends start stop = 0 := by
  refine List.countP_eq_zero.2 fun t ht => ?_
  have hlt := (hpast t ht).trans_lt hstart
  simp [hlt.not_ge]

end Windows

variable {K : Type*} [CommRing K] [LinearOrder K] [IsStrictOrderedRing K]

/-- One step of a meter: time passes, and a unit is spent or not.  Credit may be lost freely. -/
inductive Step (burst rate : K) : Meter K → Meter K → Prop
  | keep (m : Meter K) (now credit : K) (hnow : m.now ≤ now) (hpos : 0 ≤ credit)
      (hburst : credit ≤ burst) (hcredit : credit ≤ m.credit + rate * (now - m.now)) :
      Step burst rate m ⟨now, credit, m.spends⟩
  | spend (m : Meter K) (now credit : K) (hnow : m.now ≤ now) (hpos : 0 ≤ credit)
      (hburst : credit + 1 ≤ burst) (hcredit : credit + 1 ≤ m.credit + rate * (now - m.now)) :
      Step burst rate m ⟨now, credit, now :: m.spends⟩

abbrev Steps (burst rate : K) : Meter K → Meter K → Prop :=
  Relation.ReflTransGen (Step burst rate)

/-- What every window of spends leaves: those up to now leave room for the credit. -/
structure Bounded (burst rate : K) (m : Meter K) : Prop where
  past : ∀ t ∈ m.spends, t ≤ m.now
  pos : 0 ≤ m.credit
  capped : m.credit ≤ burst
  upToNow : ∀ start ≤ m.now,
    (count m.spends start m.now : K) + m.credit ≤ burst + rate * (m.now - start)
  window : ∀ start stop, start ≤ stop →
    (count m.spends start stop : K) ≤ burst + rate * (stop - start)

theorem Bounded.start {burst rate : K} (hrate : 0 ≤ rate) {m : Meter K} (hpos : 0 ≤ m.credit)
    (hburst : m.credit ≤ burst) (hempty : m.spends = []) : Bounded burst rate m where
  past := by simp [hempty]
  pos := hpos
  capped := hburst
  upToNow := by
    intro start hstart
    have hgain : 0 ≤ rate * (m.now - start) := mul_nonneg hrate (sub_nonneg.2 hstart)
    rw [hempty, count_nil, Nat.cast_zero]
    linarith
  window := by
    intro start stop hle
    have hgain : 0 ≤ rate * (stop - start) := mul_nonneg hrate (sub_nonneg.2 hle)
    rw [hempty, count_nil, Nat.cast_zero]
    linarith

theorem Bounded.upTo {burst rate : K} {m : Meter K} (h : m.Bounded burst rate) (hrate : 0 ≤ rate)
    {now credit : K} (hnow : m.now ≤ now) (hburst : credit ≤ burst)
    (hcredit : credit ≤ m.credit + rate * (now - m.now)) {start : K} (hstart : start ≤ now) :
    (count m.spends start now : K) + credit ≤ burst + rate * (now - start) := by
  rw [count_of_past h.past start hnow]
  rcases le_or_gt start m.now with hle | hgt
  · have hbefore := h.upToNow start hle
    linarith
  · rw [count_of_future h.past _ hgt, Nat.cast_zero]
    have hgain : 0 ≤ rate * (now - start) := mul_nonneg hrate (sub_nonneg.2 hstart)
    linarith

theorem Bounded.step {burst rate : K} {m m' : Meter K} (h : m.Bounded burst rate)
    (hrate : 0 ≤ rate) (hstep : Step burst rate m m') : m'.Bounded burst rate := by
  cases hstep with
  | keep now credit hnow hpos hburst hcredit =>
    exact
      { past := fun t ht => (h.past t ht).trans hnow
        pos := hpos
        capped := hburst
        upToNow := fun start hstart => h.upTo hrate hnow hburst hcredit hstart
        window := h.window }
  | spend now credit hnow hpos hburst hcredit =>
    have hpast : ∀ t ∈ now :: m.spends, t ≤ now := by
      intro t ht
      rcases List.mem_cons.1 ht with rfl | ht
      · exact le_rfl
      · exact (h.past t ht).trans hnow
    have hupTo : ∀ start ≤ now, (count (now :: m.spends) start now : K) + credit ≤
        burst + rate * (now - start) := by
      intro start hstart
      have hroom := h.upTo hrate hnow hburst hcredit hstart
      rw [count_cons, if_pos ⟨hstart, le_rfl⟩, Nat.cast_add, Nat.cast_one]
      linarith
    refine { past := hpast, pos := hpos, capped := by linarith, upToNow := hupTo,
             window := fun start stop hle => ?_ }
    by_cases hin : start ≤ now ∧ now ≤ stop
    · -- the window reaches past the last spend
      have hroom := hupTo start hin.1
      have hlonger : rate * (now - start) ≤ rate * (stop - start) :=
        mul_le_mul_of_nonneg_left (by linarith [hin.2]) hrate
      rw [count_of_past hpast start hin.2]
      linarith
    · rw [count_cons, if_neg hin, Nat.add_zero]
      exact h.window start stop hle

theorem Bounded.steps {burst rate : K} {m m' : Meter K} (h : m.Bounded burst rate)
    (hrate : 0 ≤ rate) (hsteps : Steps burst rate m m') : m'.Bounded burst rate := by
  induction hsteps with
  | refl => exact h
  | tail _ hstep ih => exact ih.step hrate hstep

/-- **The spends in any window are at most the burst and what the window refills.** -/
theorem Steps.count_le {burst rate : K} (hrate : 0 ≤ rate) {m m' : Meter K} (hpos : 0 ≤ m.credit)
    (hburst : m.credit ≤ burst) (hempty : m.spends = []) (hsteps : Steps burst rate m m')
    {start stop : K} (hle : start ≤ stop) :
    (count m'.spends start stop : K) ≤ burst + rate * (stop - start) :=
  ((Bounded.start hrate hpos hburst hempty).steps hrate hsteps).window start stop hle

end Meter

end Lib
