import Abtars.Lib.Run
import Mathlib.Data.List.Induction
import Mathlib.Order.Bounds.Basic

/-!
# In-order reception of a log

A log is delivered in any order, with duplicates and losses, to a receiver that takes an
entry only when it is the next one.  How far the receiver gets is how far the log has
been delivered in order.
-/

namespace Lib

variable {σ ι : Type*} [DecidableEq ι] (log : List ι)

/-- One delivery: the next entry of the log is taken, any other is dropped. -/
def receive (taken : Nat) (delivery : ι) : Nat :=
  if log[taken]? = some delivery then taken + 1 else taken

variable (deliveries : List ι)

def received : Nat :=
  runFrom (receive log) 0 deliveries

@[simp]
theorem received_nil : received log [] = 0 := rfl

theorem received_concat (delivery : ι) :
    received log (deliveries ++ [delivery]) = receive log (received log deliveries) delivery := by
  rw [received, runFrom_append]
  rfl

theorem le_receive (taken : Nat) (delivery : ι) : taken ≤ receive log taken delivery := by
  rw [receive]
  split
  · exact Nat.le_succ taken
  · exact le_refl taken

theorem received_le_length : received log deliveries ≤ log.length := by
  induction deliveries using List.reverseRecOn with
  | nil => exact Nat.zero_le _
  | append_singleton deliveries delivery ih =>
    rw [received_concat, receive]
    split
    · next hnext =>
        obtain ⟨hlt, -⟩ := List.getElem?_eq_some_iff.1 hnext
        exact hlt
    · exact ih

theorem take_received_sublist : (log.take (received log deliveries)).Sublist deliveries := by
  induction deliveries using List.reverseRecOn with
  | nil => simp
  | append_singleton deliveries delivery ih =>
    rw [received_concat, receive]
    split
    · next hnext =>
        obtain ⟨hlt, hentry⟩ := List.getElem?_eq_some_iff.1 hnext
        rw [List.take_succ_eq_append_getElem hlt, hentry]
        exact ih.append (List.Sublist.refl [delivery])
    · exact ih.trans (List.sublist_append_left _ _)

/-- No longer prefix of the log is among the deliveries in its order. -/
theorem le_received :
    ∀ {count : Nat}, count ≤ log.length → (log.take count).Sublist deliveries →
      count ≤ received log deliveries := by
  induction deliveries using List.reverseRecOn with
  | nil =>
    intro count hcount hsub
    have hlength := hsub.length_le
    simp only [List.length_take, List.length_nil] at hlength
    omega
  | append_singleton deliveries delivery ih =>
    intro count hcount hsub
    rw [received_concat]
    have hmono := le_receive log (received log deliveries) delivery
    rcases Nat.eq_zero_or_pos count with rfl | hpos
    · exact Nat.zero_le _
    obtain ⟨earlier, rfl⟩ : ∃ earlier, count = earlier + 1 := ⟨count - 1, by omega⟩
    rw [List.take_succ_eq_append_getElem (by omega)] at hsub
    obtain ⟨front, back, hsplit, hfront, hback⟩ := List.sublist_append_iff.1 hsub
    cases back with
    | nil =>
      -- the prefix is among the earlier deliveries
      rw [List.append_nil] at hsplit
      rw [← hsplit, ← List.take_succ_eq_append_getElem (by omega)] at hfront
      exact (ih hcount hfront).trans hmono
    | cons last rest =>
      -- its last entry is the one delivered now
      have hone := hback.length_le
      have hlast : last = delivery ∧ rest = [] := by
        cases rest with
        | nil => exact ⟨by simpa using hback.subset List.mem_cons_self, rfl⟩
        | cons other more =>
          simp only [List.length_cons, List.length_nil] at hone
          omega
      obtain ⟨rfl, rfl⟩ := hlast
      obtain ⟨htaken, hentry⟩ := List.append_inj' hsplit rfl
      rw [← htaken] at hfront
      have hle := ih (by omega) hfront
      rcases Nat.lt_or_eq_of_le hle with hlt | heq
      · exact hlt.trans_le hmono
      have hnext : log[received log deliveries]? = some last := by
        rw [← heq, List.getElem?_eq_getElem (by omega)]
        exact congrArg some (List.cons.inj hentry).1
      rw [receive, if_pos hnext, heq]

theorem isGreatest_received :
    IsGreatest {count | count ≤ log.length ∧ (log.take count).Sublist deliveries}
      (received log deliveries) :=
  ⟨⟨received_le_length log deliveries, take_received_sublist log deliveries⟩,
    fun _ hcount => le_received log deliveries hcount.1 hcount.2⟩

/-- A receiver that is idle on all but the next entry ends where the prefix delivered in
order, delivered by itself, leads. -/
theorem runFrom_received {step : σ → ι → σ} {s : σ} {log : List ι}
    (hidle : ∀ taken, taken ≤ log.length → ∀ entry ∈ log, log[taken]? ≠ some entry →
      step (runFrom step s (log.take taken)) entry = runFrom step s (log.take taken))
    {deliveries : List ι} (hdeliveries : ∀ delivery ∈ deliveries, delivery ∈ log) :
    runFrom step s deliveries = runFrom step s (log.take (received log deliveries)) := by
  induction deliveries using List.reverseRecOn with
  | nil => simp
  | append_singleton deliveries delivery ih =>
    have hearlier := ih fun d hd => hdeliveries d (List.mem_append_left _ hd)
    rw [runFrom_append, hearlier, received_concat, receive]
    split
    · next hnext =>
        obtain ⟨hlt, hentry⟩ := List.getElem?_eq_some_iff.1 hnext
        rw [List.take_succ_eq_append_getElem hlt, runFrom_append, hentry]
    · next hother =>
        exact hidle _ (received_le_length log deliveries) delivery
          (hdeliveries delivery (by simp)) hother

end Lib
