import Abtars.Lib.Table

/-!
# Partial unique indexes

A partial unique index of a table allows one row of each value of a column among the rows under a
condition.  The rules below say which statements respect one.
-/

namespace Lib

variable {ρ κ β : Type*} [Keyed ρ κ]

/-- Two rows under the condition with the same value of the column are the same row. -/
def Indexed (t : Table ρ) (q : ρ → Bool) (column : ρ → β) : Prop :=
  ∀ r ∈ t, ∀ s ∈ t, q r = true → q s = true → column r = column s → r = s

namespace Indexed

variable {t t' : Table ρ} {q : ρ → Bool} {column : ρ → β}

theorem empty (q : ρ → Bool) (column : ρ → β) : Indexed (∅ : Table ρ) q column := by
  intro r hr
  exact absurd hr (Table.not_mem_empty r)

theorem of_subset (h : Indexed t q column) (hsub : ∀ r ∈ t', r ∈ t) : Indexed t' q column :=
  fun r hr s hs => h r (hsub r hr) s (hsub s hs)

theorem updateWhere {p : ρ → Bool} {f : ρ → ρ} {hf : ∀ r, Keyed.key (f r) = Keyed.key r}
    (h : Indexed t q column)
    (hkept : ∀ r ∈ t, p r = true → q (f r) = true → q r = true ∧ column (f r) = column r) :
    Indexed (t.updateWhere p f hf) q column := by
  have hback : ∀ r ∈ t, q (if p r then f r else r) = true →
      q r = true ∧ column (if p r then f r else r) = column r := by
    intro r hr hq
    by_cases hp : p r = true
    · rw [if_pos hp] at hq ⊢
      exact hkept r hr hp hq
    · rw [if_neg hp] at hq ⊢
      exact ⟨hq, rfl⟩
  intro r' hr' s' hs' hq hq' hcolumn
  obtain ⟨r, hr, rfl⟩ := Table.mem_updateWhere.1 hr'
  obtain ⟨s, hs, rfl⟩ := Table.mem_updateWhere.1 hs'
  obtain ⟨hqr, hcr⟩ := hback r hr hq
  obtain ⟨hqs, hcs⟩ := hback s hs hq'
  have hsame : r = s := h r hr s hs hqr hqs (hcr.symm.trans (hcolumn.trans hcs))
  rw [hsame]

theorem updateWhere_key {p : ρ → Bool} {f : ρ → ρ} {hf : ∀ r, Keyed.key (f r) = Keyed.key r}
    {k : κ} (hnone : ∀ r ∈ t, q r = false) (hkey : ∀ r ∈ t, p r = true → Keyed.key r = k) :
    Indexed (t.updateWhere p f hf) q column := by
  have hback : ∀ r ∈ t, q (if p r then f r else r) = true → Keyed.key r = k := by
    intro r hr hq
    by_cases hp : p r = true
    · exact hkey r hr hp
    · rw [if_neg hp, hnone r hr] at hq
      cases hq
  intro r' hr' s' hs' hq hq' _
  obtain ⟨r, hr, rfl⟩ := Table.mem_updateWhere.1 hr'
  obtain ⟨s, hs, rfl⟩ := Table.mem_updateWhere.1 hs'
  have hsame : r = s := Table.eq_of_key_eq hr hs ((hback r hr hq).trans (hback s hs hq').symm)
  rw [hsame]

theorem insert [DecidableEq κ] {clash : ρ → Bool} {new : ρ} (h : Indexed t q column)
    (hinsert : t.insert clash new = some t')
    (hnew : q new = true → ∀ r ∈ t, q r = true → column r ≠ column new) : Indexed t' q column := by
  intro r hr s hs hq hq' hcolumn
  rcases (Table.mem_insert hinsert).1 hr with hold | rfl
  · rcases (Table.mem_insert hinsert).1 hs with hold' | rfl
    · exact h r hold s hold' hq hq' hcolumn
    · exact absurd hcolumn (hnew hq' r hold hq)
  · rcases (Table.mem_insert hinsert).1 hs with hold' | rfl
    · exact absurd hcolumn.symm (hnew hq s hold' hq')
    · rfl

end Indexed

end Lib
