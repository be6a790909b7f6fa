import Mathlib.Data.List.Nodup

/-!
# Lineages

Rows that fall into groups and may name another row as the one they succeed.  A
group is linear when only one of its rows has no successor; if moreover a row is
succeeded only once it is settled, then whoever holds a settled row without a
successor knows that its whole group is settled.
-/

namespace Lib

/-- How rows are read: their id, the id of the row they succeed, their group, and
whether they are settled. -/
structure Lineage (α κ γ : Type*) where
  id : α → κ
  source : α → Option κ
  group : α → γ
  settled : α → Prop

namespace Lineage

variable {α κ γ : Type*} (L : Lineage α κ γ)

def Open (rows : List α) (a : α) : Prop :=
  ∀ c ∈ rows, L.source c ≠ some (L.id a)

/-- Ids are unique, sources are there and settled, and each group has at most one
open end. -/
structure Linear (rows : List α) : Prop where
  nodup : (rows.map L.id).Nodup
  exists_source : ∀ c ∈ rows, ∀ k, L.source c = some k → ∃ a ∈ rows, L.id a = k ∧ L.settled a
  ends : ∀ a ∈ rows, ∀ b ∈ rows, L.group a = L.group b → L.Open rows a → L.Open rows b →
    L.id a = L.id b

/-- The rows are rewritten in place: ids, sources and groups stay, and what is
settled stays settled. -/
def Keeps (rows rows' : List α) : Prop :=
  ∃ f : α → α, rows' = rows.map f ∧ ∀ a ∈ rows,
    L.id (f a) = L.id a ∧ L.source (f a) = L.source a ∧ L.group (f a) = L.group a ∧
      (L.settled a → L.settled (f a))

def size [DecidableEq γ] (rows : List α) (g : γ) : Nat :=
  (rows.filter fun a => L.group a = g).length

variable {L} {rows rows' more : List α}

/-! ## Rows rewritten in place -/

theorem Keeps.refl (rows : List α) : L.Keeps rows rows :=
  ⟨fun a => a, by simp, fun _ _ => ⟨rfl, rfl, rfl, fun h => h⟩⟩

theorem Keeps.trans (h : L.Keeps rows rows') (h' : L.Keeps rows' more) : L.Keeps rows more := by
  obtain ⟨f, rfl, hf⟩ := h
  obtain ⟨g, rfl, hg⟩ := h'
  refine ⟨g ∘ f, by rw [List.map_map], fun a ha => ?_⟩
  obtain ⟨hid, hsource, hgroup, hsettled⟩ := hf a ha
  obtain ⟨hid', hsource', hgroup', hsettled'⟩ := hg (f a) (List.mem_map_of_mem ha)
  exact ⟨hid'.trans hid, hsource'.trans hsource, hgroup'.trans hgroup,
    fun h => hsettled' (hsettled h)⟩

theorem Keeps.size_eq [DecidableEq γ] (h : L.Keeps rows rows') (g : γ) :
    L.size rows' g = L.size rows g := by
  obtain ⟨f, rfl, hf⟩ := h
  unfold size
  rw [List.filter_map, List.length_map]
  congr 1
  refine List.filter_congr fun a ha => ?_
  simp [(hf a ha).2.2.1]

theorem Linear.of_keeps (h : L.Linear rows) (hkeeps : L.Keeps rows rows') : L.Linear rows' := by
  obtain ⟨f, rfl, hf⟩ := hkeeps
  have hids : (rows.map f).map L.id = rows.map L.id := by
    rw [List.map_map]
    exact List.map_congr_left fun a ha => (hf a ha).1
  have hopen : ∀ a ∈ rows, L.Open (rows.map f) (f a) → L.Open rows a := by
    intro a ha hfa c hc
    have hnot := hfa (f c) (List.mem_map_of_mem hc)
    rwa [(hf c hc).2.1, (hf a ha).1] at hnot
  refine ⟨by rw [hids]; exact h.nodup, ?_, ?_⟩
  · intro c' hc' k hk
    obtain ⟨c, hc, rfl⟩ := List.mem_map.1 hc'
    rw [(hf c hc).2.1] at hk
    obtain ⟨a, ha, hid, hsettled⟩ := h.exists_source c hc k hk
    exact ⟨f a, List.mem_map_of_mem ha, (hf a ha).1.trans hid, (hf a ha).2.2.2 hsettled⟩
  intro a' ha' b' hb' hgroup hopenA hopenB
  obtain ⟨a, ha, rfl⟩ := List.mem_map.1 ha'
  obtain ⟨b, hb, rfl⟩ := List.mem_map.1 hb'
  rw [(hf a ha).2.2.1, (hf b hb).2.2.1] at hgroup
  rw [(hf a ha).1, (hf b hb).1]
  exact h.ends a ha b hb hgroup (hopen a ha hopenA) (hopen b hb hopenB)

/-! ## A new end -/

theorem Linear.eq_of_id (h : L.Linear rows) {a b : α} (ha : a ∈ rows) (hb : b ∈ rows)
    (hid : L.id a = L.id b) : a = b :=
  List.inj_on_of_nodup_map h.nodup ha hb hid

theorem Linear.settled_or_open (h : L.Linear rows) {a : α} (ha : a ∈ rows) :
    L.settled a ∨ L.Open rows a := by
  by_cases hopen : L.Open rows a
  · exact .inr hopen
  left
  unfold Open at hopen
  push Not at hopen
  obtain ⟨c, hc, hsource⟩ := hopen
  obtain ⟨b, hb, hid, hsettled⟩ := h.exists_source c hc _ hsource
  rwa [h.eq_of_id hb ha hid] at hsettled

theorem Linear.settled_of_open (h : L.Linear rows) {s a : α} (hs : s ∈ rows)
    (hsettled : L.settled s) (hopen : L.Open rows s) (ha : a ∈ rows)
    (hgroup : L.group a = L.group s) : L.settled a := by
  rcases h.settled_or_open ha with hdone | hopenA
  · exact hdone
  · rwa [h.eq_of_id ha hs (h.ends a ha s hs hgroup hopenA hopen)]

/-- A settled open end is succeeded by a new row of its group. -/
theorem Linear.concat (h : L.Linear rows) {s t : α} (hs : s ∈ rows) (hsettled : L.settled s)
    (hopen : L.Open rows s) (hsource : L.source t = some (L.id s)) (hgroup : L.group t = L.group s)
    (hnew : ∀ a ∈ rows, L.id a ≠ L.id t) : L.Linear (rows ++ [t]) := by
  have hopens : ∀ a, L.Open (rows ++ [t]) a → L.Open rows a ∧ L.id a ≠ L.id s := by
    intro a ha
    refine ⟨fun c hc => ha c (List.mem_append_left _ hc), fun hid => ?_⟩
    exact ha t (List.mem_append_right _ (List.mem_singleton.2 rfl)) (by rw [hsource, hid])
  -- an end of the old rows in the group of `t` is `s`, which is succeeded now
  have hclash : ∀ a ∈ rows, L.group a = L.group t → ¬ L.Open (rows ++ [t]) a := by
    intro a ha hga hopenA
    obtain ⟨hold, hne⟩ := hopens a hopenA
    exact hne (h.ends a ha s hs (hga.trans hgroup) hold hopen)
  refine ⟨?_, ?_, ?_⟩
  · rw [List.map_append, List.map_singleton]
    refine h.nodup.append (List.nodup_singleton _) ?_
    rw [List.disjoint_singleton]
    intro hmem
    obtain ⟨a, ha, hid⟩ := List.mem_map.1 hmem
    exact hnew a ha hid
  · intro c hc k hk
    rcases List.mem_append.1 hc with hc | hc
    · obtain ⟨a, ha, hid, hdone⟩ := h.exists_source c hc k hk
      exact ⟨a, List.mem_append_left _ ha, hid, hdone⟩
    · rw [List.mem_singleton.1 hc, hsource] at hk
      exact ⟨s, List.mem_append_left _ hs, Option.some.inj hk, hsettled⟩
  · intro a ha b hb hab hopenA hopenB
    rcases List.mem_append.1 ha with ha | ha <;> rcases List.mem_append.1 hb with hb | hb
    · exact h.ends a ha b hb hab (hopens a hopenA).1 (hopens b hopenB).1
    · rw [List.mem_singleton.1 hb] at hab
      exact absurd hopenA (hclash a ha hab)
    · rw [List.mem_singleton.1 ha] at hab
      exact absurd hopenB (hclash b hb hab.symm)
    · rw [List.mem_singleton.1 ha, List.mem_singleton.1 hb]

theorem size_concat [DecidableEq γ] (rows : List α) (t : α) (g : γ) :
    L.size (rows ++ [t]) g = L.size rows g + if L.group t = g then 1 else 0 := by
  unfold size
  split <;> simp_all

end Lineage

end Lib
