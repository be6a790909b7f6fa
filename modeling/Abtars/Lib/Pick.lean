import Mathlib.Data.List.Basic

/-!
# The first and the last entry of a kind

Queues are searched from either end for one entry of a kind, which is then taken out or
changed where it stands.  Both searches give the entry with what stands before and after it.
-/

namespace Lib

variable {α κ : Type*}

def firstMatch (p : α → Bool) : List α → Option (List α × α × List α)
  | [] => none
  | a :: rest =>
    if p a then some ([], a, rest)
    else (firstMatch p rest).map fun (before, found, after) => (a :: before, found, after)

def lastMatch (p : α → Bool) : List α → Option (List α × α × List α)
  | [] => none
  | a :: rest =>
    match lastMatch p rest with
    | some (before, found, after) => some (a :: before, found, after)
    | none => if p a then some ([], a, rest) else none

theorem firstMatch_eq_none {p : α → Bool} {l : List α} :
    firstMatch p l = none ↔ ∀ a ∈ l, p a = false := by
  induction l with
  | nil => simp [firstMatch]
  | cons a rest ih =>
    cases ha : p a <;> simp [firstMatch, ha, ih]

theorem firstMatch_eq_some {p : α → Bool} {l before after : List α} {found : α}
    (h : firstMatch p l = some (before, found, after)) :
    l = before ++ found :: after ∧ p found = true ∧ ∀ a ∈ before, p a = false := by
  induction l generalizing before with
  | nil => simp [firstMatch] at h
  | cons a rest ih =>
    by_cases ha : p a = true
    · simp only [firstMatch, ha, if_true, Option.some.injEq, Prod.mk.injEq] at h
      obtain ⟨rfl, rfl, rfl⟩ := h
      simp [ha]
    simp only [firstMatch, ha, Bool.false_eq_true, if_false, Option.map_eq_some_iff] at h
    obtain ⟨⟨before', found', after'⟩, hrest, heq⟩ := h
    obtain ⟨rfl, rfl, rfl⟩ := heq
    obtain ⟨hl, hfound, hbefore⟩ := ih hrest
    refine ⟨by rw [hl, List.cons_append], hfound, ?_⟩
    intro b hb
    rcases List.mem_cons.mp hb with rfl | hb
    · simpa using ha
    · exact hbefore b hb

theorem lastMatch_eq_none {p : α → Bool} {l : List α} :
    lastMatch p l = none ↔ ∀ a ∈ l, p a = false := by
  induction l with
  | nil => simp [lastMatch]
  | cons a rest ih =>
    cases hrest : lastMatch p rest with
    | none =>
      have hnone := ih.mp hrest
      cases ha : p a with
      | false => simpa [lastMatch, hrest, ha] using hnone
      | true => simp [lastMatch, hrest, ha]
    | some found =>
      have hsome : ¬ ∀ a ∈ rest, p a = false := by
        intro hall
        rw [ih.mpr hall] at hrest
        cases hrest
      simp only [lastMatch, hrest, reduceCtorEq, false_iff]
      intro hall
      exact hsome fun b hb => hall b (List.mem_cons_of_mem a hb)

theorem lastMatch_eq_some {p : α → Bool} {l before after : List α} {found : α}
    (h : lastMatch p l = some (before, found, after)) :
    l = before ++ found :: after ∧ p found = true ∧ ∀ a ∈ after, p a = false := by
  induction l generalizing before with
  | nil => simp [lastMatch] at h
  | cons a rest ih =>
    cases hrest : lastMatch p rest with
    | none =>
      by_cases ha : p a = true
      · simp only [lastMatch, hrest, ha, if_true, Option.some.injEq, Prod.mk.injEq] at h
        obtain ⟨rfl, rfl, rfl⟩ := h
        exact ⟨rfl, ha, lastMatch_eq_none.mp hrest⟩
      · simp [lastMatch, hrest, ha] at h
    | some found' =>
      simp only [lastMatch, hrest, Option.some.injEq, Prod.mk.injEq] at h
      obtain ⟨rfl, rfl, rfl⟩ := h
      obtain ⟨hl, hfound, hafter⟩ := ih hrest
      exact ⟨by rw [hl, List.cons_append], hfound, hafter⟩

section Priority

variable [DecidableEq κ]

/-- The entries of the listed kinds: all of the first kind, then all of the next. -/
def byPriority (kind : α → κ) (order : List κ) (l : List α) : List α :=
  order.flatMap fun k => l.filter (kind · = k)

theorem byPriority_cons (kind : α → κ) (k : κ) (order : List κ) (l : List α) :
    byPriority kind (k :: order) l = l.filter (kind · = k) ++ byPriority kind order l := rfl

theorem mem_byPriority {kind : α → κ} {order : List κ} {l : List α} {a : α} :
    a ∈ byPriority kind order l ↔ a ∈ l ∧ kind a ∈ order := by
  simp only [byPriority, List.mem_flatMap, List.mem_filter, decide_eq_true_eq]
  constructor
  · rintro ⟨k, hk, ha, rfl⟩
    exact ⟨ha, hk⟩
  · rintro ⟨ha, hk⟩
    exact ⟨kind a, hk, ha, rfl⟩

theorem byPriority_skip {kind : α → κ} {k : κ} {order : List κ} {l : List α}
    (h : ∀ a ∈ l, kind a ≠ k) : byPriority kind (k :: order) l = byPriority kind order l := by
  have hnil : l.filter (kind · = k) = [] := by
    simpa [List.filter_eq_nil_iff] using h
  rw [byPriority_cons, hnil, List.nil_append]

theorem byPriority_append_skip {kind : α → κ} {lower order : List κ} {l : List α}
    (h : ∀ a ∈ l, kind a ∉ lower) :
    byPriority kind (lower ++ order) l = byPriority kind order l := by
  induction lower with
  | nil => rfl
  | cons k lower ih =>
    have hk : ∀ a ∈ l, kind a ≠ k := fun a ha heq => h a ha (by simp [heq])
    rw [List.cons_append, byPriority_skip hk]
    exact ih fun a ha hmem => h a ha (List.mem_cons_of_mem k hmem)

theorem byPriority_append_other {kind : α → κ} {order : List κ} {a : α} (l : List α)
    (h : kind a ∉ order) : byPriority kind order (l ++ [a]) = byPriority kind order l := by
  induction order with
  | nil => rfl
  | cons k order ih =>
    have hne : kind a ≠ k := fun heq => h (heq ▸ List.mem_cons_self)
    have hrest := ih fun hk => h (List.mem_cons_of_mem k hk)
    simp [byPriority_cons, List.filter_append, hne, hrest]

theorem byPriority_remove {kind : α → κ} {k : κ} {order : List κ} {before after : List α} {a : α}
    (hk : kind a = k) (hbefore : ∀ b ∈ before, kind b ≠ k) (horder : k ∉ order) :
    byPriority kind (k :: order) (before ++ a :: after) =
      a :: byPriority kind (k :: order) (before ++ after) := by
  have hnil : before.filter (kind · = k) = [] := by
    simpa [List.filter_eq_nil_iff] using hbefore
  have hother : byPriority kind order (before ++ a :: after) =
      byPriority kind order (before ++ after) := by
    have hskip : ∀ k' ∈ order, (before ++ a :: after).filter (kind · = k') =
        (before ++ after).filter (kind · = k') := by
      intro k' hk'
      have hne : kind a ≠ k' := fun heq => horder (hk ▸ heq ▸ hk')
      simp [List.filter_append, hne]
    simp only [byPriority, List.flatMap_def]
    rw [List.map_congr_left hskip]
  rw [byPriority_cons, byPriority_cons, hother]
  simp [List.filter_append, hnil, hk]

end Priority

end Lib
