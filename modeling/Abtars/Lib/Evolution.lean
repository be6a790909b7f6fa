import Mathlib.Algebra.Order.BigOperators.Group.List
import Abtars.Lib.Table

/-!
# Row-wise evolution of a table

A step of a component rarely rebuilds a table: it rewrites rows in place and
appends new ones.  `Table.Evolves R N` says so for a relation `R` between the old
and the new version of a row and a condition `N` on appended rows, and turns
facts about single rows into facts about the table.
-/

namespace Lib.Table

variable {ρ κ : Type*} [Keyed ρ κ]

/-- Every row of the first table has a successor in place in the second, whose
other rows are new. -/
def Evolves (R : ρ → ρ → Prop) (N : ρ → Prop) (t t' : Table ρ) : Prop :=
  ∃ (f : ρ → ρ) (fresh : List ρ), t'.rows = t.rows.map f ++ fresh ∧
    (∀ r ∈ t, R r (f r)) ∧ ∀ r ∈ fresh, N r

section Statements

variable {R : ρ → ρ → Prop} {N : ρ → Prop} {t : Table ρ}

theorem evolves_refl (hrefl : ∀ r, R r r) : Evolves R N t t :=
  ⟨id, [], by simp, fun r _ => hrefl r, by simp⟩

theorem evolves_updateWhere (hrefl : ∀ r, R r r) {p : ρ → Bool} {f : ρ → ρ}
    (hf : ∀ r, Keyed.key (f r) = Keyed.key r)
    (hrow : ∀ r ∈ t, p r = true → R r (f r)) : Evolves R N t (t.updateWhere p f hf) := by
  refine ⟨fun r => if p r then f r else r, [], by simp [updateWhere], ?_, by simp⟩
  intro r hr
  by_cases hp : p r = true
  · simpa [hp] using hrow r hr hp
  · simpa [hp] using hrefl r

theorem evolves_modify [DecidableEq κ] (hrefl : ∀ r, R r r) {k : κ} {f : ρ → ρ}
    (hf : ∀ r, Keyed.key (f r) = Keyed.key r)
    (hrow : ∀ r, t.get k = some r → R r (f r)) : Evolves R N t (t.modify k f hf) := by
  refine evolves_updateWhere hrefl hf fun r hr hkey => hrow r ?_
  exact get_eq_some_iff.2 ⟨hr, by simpa using hkey⟩

theorem evolves_insert [DecidableEq κ] (hrefl : ∀ r, R r r) {t' : Table ρ} {clash : ρ → Bool}
    {r : ρ} (h : t.insert clash r = some t') (hnew : N r) : Evolves R N t t' := by
  obtain ⟨-, -, hrows⟩ := insert_eq_some_iff.1 h
  exact ⟨id, [r], by simpa using hrows, fun r _ => hrefl r, by simpa using hnew⟩

theorem evolves_put [DecidableEq κ] (hrefl : ∀ r, R r r) {r : ρ}
    (hfree : t.get (Keyed.key r) = none) (hnew : N r) : Evolves R N t (t.put r) := by
  have hrows : (t.put r).rows = t.rows ++ [r] := by
    change (t.rows.filter fun s => !decide (Keyed.key s = Keyed.key r)) ++ [r] = _
    rw [List.filter_eq_self.2]
    intro s hs
    simpa using get_eq_none_iff.1 hfree s hs
  exact ⟨id, [r], by simpa using hrows, fun r _ => hrefl r, by simpa using hnew⟩

end Statements

section Consequences

variable {R R' : ρ → ρ → Prop} {N N' : ρ → Prop} {t t' : Table ρ}

theorem Evolves.mono (h : Evolves R N t t') (hR : ∀ r ∈ t, ∀ r', R r r' → R' r r')
    (hN : ∀ r, N r → N' r) : Evolves R' N' t t' := by
  obtain ⟨f, fresh, hrows, hf, hfresh⟩ := h
  exact ⟨f, fresh, hrows, fun r hr => hR r hr _ (hf r hr), fun r hr => hN r (hfresh r hr)⟩

theorem Evolves.origin (h : Evolves R N t t') {r' : ρ} (hr' : r' ∈ t') :
    (∃ r ∈ t, R r r') ∨ N r' := by
  obtain ⟨f, fresh, hrows, hf, hfresh⟩ := h
  rw [mem_def, hrows, List.mem_append, List.mem_map] at hr'
  rcases hr' with ⟨r, hr, rfl⟩ | hr'
  · exact .inl ⟨r, hr, hf r hr⟩
  · exact .inr (hfresh r' hr')

theorem Evolves.successor (h : Evolves R N t t') {r : ρ} (hr : r ∈ t) : ∃ r' ∈ t', R r r' := by
  obtain ⟨f, fresh, hrows, hf, -⟩ := h
  refine ⟨f r, ?_, hf r hr⟩
  rw [mem_def, hrows]
  exact List.mem_append_left _ (List.mem_map_of_mem hr)

theorem Evolves.get_of_get [DecidableEq κ] (h : Evolves R N t t')
    (hkey : ∀ r r', R r r' → Keyed.key r' = Keyed.key r) {k : κ} {r : ρ}
    (hr : t.get k = some r) : ∃ r', t'.get k = some r' ∧ R r r' := by
  obtain ⟨r', hr', hR⟩ := h.successor (mem_of_get hr)
  exact ⟨r', get_eq_some_iff.2 ⟨hr', (hkey r r' hR).trans (key_of_get hr)⟩, hR⟩

section Sum

variable {M : Type*} [AddCommGroup M]

theorem Evolves.sum_eq (h : Evolves R N t t') (w : ρ → M) (hR : ∀ r ∈ t, ∀ r', R r r' → w r' = w r)
    (hN : ∀ r, N r → w r = 0) : t'.sum w = t.sum w := by
  obtain ⟨f, fresh, hrows, hf, hfresh⟩ := h
  have hold : (t.rows.map f).map w = t.rows.map w := by
    rw [List.map_map]
    exact List.map_congr_left fun r hr => hR r hr _ (hf r hr)
  have hnew : (fresh.map w).sum = 0 :=
    List.sum_eq_zero fun x hx => by
      obtain ⟨r, hr, rfl⟩ := List.mem_map.1 hx
      exact hN r (hfresh r hr)
  rw [sum, hrows, List.map_append, List.sum_append, hold, hnew, add_zero, sum]

theorem Evolves.sum_le [PartialOrder M] [IsOrderedAddMonoid M] (h : Evolves R N t t') (w : ρ → M)
    (hR : ∀ r ∈ t, ∀ r', R r r' → w r' ≤ w r) (hN : ∀ r, N r → w r = 0) : t'.sum w ≤ t.sum w := by
  obtain ⟨f, fresh, hrows, hf, hfresh⟩ := h
  have hold : ((t.rows.map f).map w).sum ≤ (t.rows.map w).sum := by
    rw [List.map_map]
    exact List.sum_le_sum fun r hr => hR r hr _ (hf r hr)
  have hnew : (fresh.map w).sum = 0 :=
    List.sum_eq_zero fun x hx => by
      obtain ⟨r, hr, rfl⟩ := List.mem_map.1 hx
      exact hN r (hfresh r hr)
  rw [sum, hrows, List.map_append, List.sum_append, hnew, add_zero]
  exact hold

end Sum

end Consequences

end Lib.Table
