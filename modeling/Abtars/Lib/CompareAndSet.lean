import Abtars.Lib.Table

/-!
# Compare-and-set on one row

A conditional update of the row with a given key, whose affected-row count is
the answer: it lands on a row that meets the guard, and otherwise changes
nothing.  Among writers that each undo their own guard, one wins.
-/

namespace Lib
namespace Table

variable {ρ κ : Type*} [Keyed ρ κ] [DecidableEq κ]

def cas (t : Table ρ) (k : κ) (guard : ρ → Bool) (f : ρ → ρ)
    (hf : ∀ r, Keyed.key (f r) = Keyed.key r := by intro _; exact Eq.trans rfl rfl) :
    Bool × Table ρ :=
  ((t.get k).any guard, t.updateWhere (fun r => Keyed.key r = k ∧ guard r) f hf)

variable {t : Table ρ} {k : κ} {guard : ρ → Bool} {f : ρ → ρ}
  {hf : ∀ r, Keyed.key (f r) = Keyed.key r}

theorem cas_cases (t : Table ρ) (k : κ) (guard : ρ → Bool) (f : ρ → ρ)
    (hf : ∀ r, Keyed.key (f r) = Keyed.key r) :
    ((∀ r, t.get k = some r → guard r = false) ∧ t.cas k guard f hf = (false, t)) ∨
    ∃ r, t.get k = some r ∧ guard r = true ∧
      t.cas k guard f hf = (true, t.modify k f hf) := by
  cases hany : (t.get k).any guard with
  | false =>
    have hnone : ∀ r, t.get k = some r → guard r = false := by
      intro r hr
      simpa [hr] using hany
    refine .inl ⟨hnone, ?_⟩
    rw [cas, hany, updateWhere_of_none]
    intro r hr
    by_cases hkey : Keyed.key r = k
    · simp [hnone r (get_eq_some_iff.2 ⟨hr, hkey⟩)]
    · simp [hkey]
  | true =>
    obtain ⟨r, hget, hguard⟩ := (Option.any_eq_true _ _).1 hany
    refine .inr ⟨r, hget, hguard, ?_⟩
    rw [cas, hany, modify]
    congr 1
    refine Table.ext (List.map_congr_left fun s hs => ?_)
    by_cases hkey : Keyed.key s = k
    · have hsame : s = r :=
        Option.some.inj ((get_eq_some_iff.2 ⟨hs, hkey⟩).symm.trans hget)
      simp [hsame, key_of_get hget, hguard]
    · simp [hkey]

theorem cas_of_never (f : ρ → ρ) (hf : ∀ r, Keyed.key (f r) = Keyed.key r)
    (hnever : ∀ r, guard r = false) : (t.cas k guard f hf).2 = t := by
  rcases cas_cases t k guard f hf with ⟨-, h⟩ | ⟨r, -, hguard, -⟩
  · rw [h]
  · simp [hnever r] at hguard

theorem get_cas_of_ne (f : ρ → ρ) (hf : ∀ r, Keyed.key (f r) = Keyed.key r) {k' : κ}
    (hne : k' ≠ k) : (t.cas k guard f hf).2.get k' = t.get k' := by
  rcases cas_cases t k guard f hf with ⟨-, h⟩ | ⟨_, -, -, h⟩
  · rw [h]
  · rw [h, get_modify_of_ne _ _ _ hne]

theorem map_get_cas {β : Type*} (f : ρ → ρ) (hf : ∀ r, Keyed.key (f r) = Keyed.key r)
    (column : ρ → β) (hcolumn : ∀ r, column (f r) = column r) (k' : κ) :
    ((t.cas k guard f hf).2.get k').map column = (t.get k').map column :=
  map_get_updateWhere t _ f hf k' column hcolumn

/-- After an attempt every row is related to its former self, when a row is
related to itself and a guarded row to what the attempt makes of it. -/
theorem rowRelation_cas (f : ρ → ρ) (hf : ∀ r, Keyed.key (f r) = Keyed.key r) {R : ρ → ρ → Prop} (hrefl : ∀ r ∈ t, R r r)
    (hstep : ∀ r, t.get k = some r → guard r = true → R r (f r))
    {k' : κ} {r : ρ} (hget : t.get k' = some r) :
    ∃ r', (t.cas k guard f hf).2.get k' = some r' ∧ R r r' := by
  by_cases hk : k' = k
  · subst hk
    rcases cas_cases t k' guard f hf with ⟨-, h⟩ | ⟨s, hs, hguard, h⟩
    · exact ⟨r, by rw [h]; exact hget, hrefl r (mem_of_get hget)⟩
    · rw [hget, Option.some.injEq] at hs
      subst hs
      exact ⟨f r, by rw [h, get_modify_same, hget, Option.map_some], hstep r hget hguard⟩
  · exact ⟨r, by rw [get_cas_of_ne f hf hk]; exact hget, hrefl r (mem_of_get hget)⟩

end Table
end Lib
