import Mathlib.Algebra.BigOperators.Group.List.Basic
import Mathlib.Data.List.Nodup
import Mathlib.Tactic.Abel

/-!
# Keyed tables

A relational table is a list of rows in insertion order together with the
proof that no two rows share a primary key, so a table with a duplicated key
cannot be built.  The operations are the statements a program issues against
one table: a lookup by key, an update of the rows that satisfy a condition, an
insert that a uniqueness conflict refuses, a replacement and a delete.
-/

namespace Lib

/-- Rows that carry their own primary key. -/
class Keyed (ρ : Type*) (κ : outParam (Type*)) where
  key : ρ → κ

@[ext]
structure Table (ρ : Type*) {κ : Type*} [Keyed ρ κ] where
  rows : List ρ
  keys_nodup : (rows.map Keyed.key).Nodup

namespace Table

variable {ρ κ : Type*} [Keyed ρ κ]

def empty : Table ρ := ⟨[], List.nodup_nil⟩

instance : EmptyCollection (Table ρ) := ⟨empty⟩

instance : Membership ρ (Table ρ) := ⟨fun t r => r ∈ t.rows⟩

instance [DecidableEq ρ] : DecidableEq (Table ρ) := fun s t =>
  decidable_of_iff (s.rows = t.rows) Table.ext_iff.symm

theorem mem_def (r : ρ) (t : Table ρ) : r ∈ t ↔ r ∈ t.rows := Iff.rfl

@[simp]
theorem not_mem_empty (r : ρ) : r ∉ (∅ : Table ρ) :=
  List.not_mem_nil

theorem eq_of_key_eq {t : Table ρ} {r s : ρ} (hr : r ∈ t) (hs : s ∈ t)
    (h : Keyed.key r = Keyed.key s) : r = s :=
  List.inj_on_of_nodup_map t.keys_nodup hr hs h

variable (t : Table ρ) (p : ρ → Bool)

def select : List ρ :=
  t.rows.filter p

@[simp]
theorem mem_select (r : ρ) : r ∈ t.select p ↔ r ∈ t ∧ p r = true :=
  List.mem_filter

theorem map_key_rewrite (rows : List ρ) (p : ρ → Bool) (f : ρ → ρ)
    (hf : ∀ r, Keyed.key (f r) = Keyed.key r) :
    (rows.map fun r => if p r then f r else r).map Keyed.key = rows.map Keyed.key := by
  rw [List.map_map]
  refine List.map_congr_left fun r _ => ?_
  by_cases hp : p r = true
  · simp [hp, hf]
  · simp [hp]

/-- Rewrite the rows satisfying a condition; the rewriting keeps every key. -/
def updateWhere (f : ρ → ρ)
    (hf : ∀ r, Keyed.key (f r) = Keyed.key r := by intro _; exact Eq.trans rfl rfl) : Table ρ where
  rows := t.rows.map fun r => if p r then f r else r
  keys_nodup := by
    rw [map_key_rewrite t.rows p f hf]
    exact t.keys_nodup

def deleteWhere : Table ρ where
  rows := t.rows.filter fun r => !p r
  keys_nodup := (List.filter_sublist.map Keyed.key).nodup t.keys_nodup

def sum {M : Type*} [AddMonoid M] (t : Table ρ) (w : ρ → M) : M :=
  (t.rows.map w).sum

theorem mem_updateWhere {t : Table ρ} {p : ρ → Bool} {f : ρ → ρ}
    {hf : ∀ r, Keyed.key (f r) = Keyed.key r} {r : ρ} :
    r ∈ t.updateWhere p f hf ↔ ∃ s ∈ t, (if p s then f s else s) = r := by
  simp [updateWhere, mem_def]

@[simp]
theorem mem_deleteWhere {t : Table ρ} {p : ρ → Bool} {r : ρ} :
    r ∈ t.deleteWhere p ↔ r ∈ t ∧ p r = false := by
  simp [deleteWhere, mem_def]

theorem updateWhere_of_none {t : Table ρ} {p : ρ → Bool} {f : ρ → ρ}
    {hf : ∀ r, Keyed.key (f r) = Keyed.key r} (h : ∀ r ∈ t, p r = false) :
    t.updateWhere p f hf = t := by
  refine Table.ext ?_
  conv_rhs => rw [← List.map_id t.rows]
  refine List.map_congr_left fun r hr => ?_
  simp [h r hr]

theorem length_select_le_of_imp {t : Table ρ} {p q : ρ → Bool}
    (h : ∀ r ∈ t, p r = true → q r = true) : (t.select p).length ≤ (t.select q).length := by
  unfold select
  rw [← List.countP_eq_length_filter, ← List.countP_eq_length_filter]
  exact List.countP_mono_left h

theorem length_select_updateWhere_le {t : Table ρ} {p q : ρ → Bool} (f : ρ → ρ)
    (hf : ∀ r, Keyed.key (f r) = Keyed.key r) (h : ∀ r, p r = true → q (f r) = true → q r = true) :
    ((t.updateWhere p f hf).select q).length ≤ (t.select q).length := by
  have hsub : (t.rows.filter (q ∘ fun r => if p r then f r else r)).Sublist (t.rows.filter q) := by
    refine List.monotone_filter_right _ fun r hr => ?_
    by_cases hp : p r = true
    · exact h r hp (by simpa [hp] using hr)
    · simpa [hp] using hr
  unfold select updateWhere
  rw [List.filter_map, List.length_map]
  exact hsub.length_le

theorem select_updateWhere_of_false {t : Table ρ} {p q : ρ → Bool} {f : ρ → ρ}
    {hf : ∀ r, Keyed.key (f r) = Keyed.key r} (h : ∀ r, p r = true → q (f r) = false) :
    (t.updateWhere p f hf).select q = t.select fun r => q r && !p r := by
  show (t.rows.map fun r => if p r then f r else r).filter q = t.rows.filter fun r => q r && !p r
  induction t.rows with
  | nil => rfl
  | cons r rows ih =>
    by_cases hp : p r = true
    · simp [hp, h r hp, ih]
    · simp [hp, List.filter_cons, ih]

section Lookup

variable [DecidableEq κ] (t : Table ρ) (k : κ)

def get : Option ρ :=
  t.rows.find? fun r => Keyed.key r = k

def has : Bool :=
  (t.get k).isSome

theorem get_eq_some_iff {t : Table ρ} {k : κ} {r : ρ} :
    t.get k = some r ↔ r ∈ t ∧ Keyed.key r = k := by
  constructor
  · intro h
    exact ⟨List.mem_of_find?_eq_some h, by simpa using List.find?_some h⟩
  rintro ⟨hr, rfl⟩
  cases hget : t.get (Keyed.key r) with
  | none =>
    have hnone := List.find?_eq_none.1 hget r hr
    simp at hnone
  | some s =>
    have hs : s ∈ t := List.mem_of_find?_eq_some hget
    have hkey : Keyed.key s = Keyed.key r := by
      simpa using List.find?_some hget
    rw [eq_of_key_eq hs hr hkey]

theorem get_eq_none_iff {t : Table ρ} {k : κ} : t.get k = none ↔ ∀ r ∈ t, Keyed.key r ≠ k := by
  simp [get, List.find?_eq_none, mem_def]

theorem mem_of_get {t : Table ρ} {k : κ} {r : ρ} (h : t.get k = some r) : r ∈ t :=
  (get_eq_some_iff.1 h).1

theorem key_of_get {t : Table ρ} {k : κ} {r : ρ} (h : t.get k = some r) : Keyed.key r = k :=
  (get_eq_some_iff.1 h).2

theorem get_key_of_mem {t : Table ρ} {r : ρ} (h : r ∈ t) : t.get (Keyed.key r) = some r :=
  get_eq_some_iff.2 ⟨h, rfl⟩

theorem length_select_key_le_one : (t.select fun r => Keyed.key r = k).length ≤ 1 := by
  have hnodup : ((t.select fun r => Keyed.key r = k).map Keyed.key).Nodup :=
    t.keys_nodup.sublist (List.filter_sublist.map _)
  have hsame : (t.select fun r => Keyed.key r = k).map Keyed.key =
      List.replicate (t.select fun r => Keyed.key r = k).length k := by
    refine List.eq_replicate_iff.2 ⟨List.length_map _, fun key hkey => ?_⟩
    obtain ⟨r, hr, rfl⟩ := List.mem_map.1 hkey
    simpa using ((mem_select _ _ _).1 hr).2
  rw [hsame] at hnodup
  exact List.nodup_replicate.1 hnodup

@[simp]
theorem get_empty : (∅ : Table ρ).get k = none := rfl

@[simp]
theorem get_updateWhere (p : ρ → Bool) (f : ρ → ρ) (hf : ∀ r, Keyed.key (f r) = Keyed.key r) (k : κ) :
    (t.updateWhere p f hf).get k = (t.get k).map fun r => if p r then f r else r := by
  cases hget : t.get k with
  | none =>
    rw [Option.map_none, get_eq_none_iff]
    intro r hr hkey
    obtain ⟨s, hs, rfl⟩ := mem_updateWhere.1 hr
    refine get_eq_none_iff.1 hget s hs ?_
    by_cases hp : p s = true
    · simpa [hp, hf] using hkey
    · simpa [hp] using hkey
  | some s =>
    rw [Option.map_some, get_eq_some_iff]
    refine ⟨mem_updateWhere.2 ⟨s, mem_of_get hget, rfl⟩, ?_⟩
    have hkey := key_of_get hget
    by_cases hp : p s = true
    · simpa [hp, hf] using hkey
    · simpa [hp] using hkey

/-- Lookup after a delete: what the lookup read, unless it was deleted. -/
@[simp]
theorem get_deleteWhere (p : ρ → Bool) (k : κ) :
    (t.deleteWhere p).get k = (t.get k).filter fun r => !p r := by
  cases hget : t.get k with
  | none =>
    rw [Option.filter_none, get_eq_none_iff]
    exact fun r hr => get_eq_none_iff.1 hget r (mem_deleteWhere.1 hr).1
  | some s =>
    obtain ⟨hs, hkey⟩ := get_eq_some_iff.1 hget
    by_cases hp : p s = true
    · rw [Option.filter_some_neg (by simp [hp]), get_eq_none_iff]
      rintro r hr rfl
      obtain ⟨hrt, hpr⟩ := mem_deleteWhere.1 hr
      rw [eq_of_key_eq hs hrt hkey, hpr] at hp
      cases hp
    · rw [Option.filter_some_pos (by simp [hp])]
      exact get_eq_some_iff.2 ⟨mem_deleteWhere.2 ⟨hs, by simpa using hp⟩, hkey⟩

theorem map_get_updateWhere {β : Type*} (p : ρ → Bool) (f : ρ → ρ)
    (hf : ∀ r, Keyed.key (f r) = Keyed.key r) (k : κ) (column : ρ → β)
    (hcolumn : ∀ r, column (f r) = column r) :
    ((t.updateWhere p f hf).get k).map column = (t.get k).map column := by
  rw [get_updateWhere, Option.map_map]
  congr 1
  funext r
  by_cases hp : p r = true <;> simp [hp, hcolumn]

def modify (f : ρ → ρ)
    (hf : ∀ r, Keyed.key (f r) = Keyed.key r := by intro _; exact Eq.trans rfl rfl) : Table ρ :=
  t.updateWhere (fun r => Keyed.key r = k) f hf

theorem get_modify (f : ρ → ρ) (hf : ∀ r, Keyed.key (f r) = Keyed.key r) (k' : κ) :
    (t.modify k f hf).get k' = if k' = k then (t.get k').map f else t.get k' := by
  rw [modify, get_updateWhere]
  cases hget : t.get k' with
  | none => simp
  | some r =>
    by_cases hk : k' = k
    · simp [key_of_get hget, hk]
    · simp [key_of_get hget, hk]

@[simp]
theorem get_modify_same (f : ρ → ρ) (hf : ∀ r, Keyed.key (f r) = Keyed.key r) :
    (t.modify k f hf).get k = (t.get k).map f := by
  simp [get_modify]

theorem get_modify_of_ne {k k' : κ} (f : ρ → ρ) (hf : ∀ r, Keyed.key (f r) = Keyed.key r)
    (h : k' ≠ k) : (t.modify k f hf).get k' = t.get k' := by
  simp [get_modify, h]

theorem map_get_modify {β : Type*} (f : ρ → ρ) (hf : ∀ r, Keyed.key (f r) = Keyed.key r) (k' : κ)
    (column : ρ → β) (hcolumn : ∀ r, column (f r) = column r) :
    ((t.modify k f hf).get k').map column = (t.get k').map column :=
  map_get_updateWhere t _ f hf k' column hcolumn

theorem modify_modify (f g : ρ → ρ) (hf : ∀ r, Keyed.key (f r) = Keyed.key r)
    (hg : ∀ r, Keyed.key (g r) = Keyed.key r) :
    (t.modify k f hf).modify k g hg =
      t.modify k (fun r => g (f r)) fun r => (hg (f r)).trans (hf r) := by
  refine Table.ext ?_
  simp only [modify, updateWhere, List.map_map]
  refine List.map_congr_left fun r _ => ?_
  by_cases hk : Keyed.key r = k
  · simp [hk, hf]
  · simp [hk]

theorem mem_modify {t : Table ρ} {k : κ} {f : ρ → ρ} {hf : ∀ r, Keyed.key (f r) = Keyed.key r}
    {r : ρ} :
    r ∈ t.modify k f hf ↔ (r ∈ t ∧ Keyed.key r ≠ k) ∨ ∃ s, t.get k = some s ∧ r = f s := by
  rw [modify, mem_updateWhere]
  constructor
  · rintro ⟨s, hs, rfl⟩
    by_cases hkey : Keyed.key s = k
    · exact .inr ⟨s, get_eq_some_iff.2 ⟨hs, hkey⟩, by simp [hkey]⟩
    · exact .inl ⟨by simpa [hkey] using hs, by simp [hkey]⟩
  · rintro (⟨hr, hkey⟩ | ⟨s, hs, rfl⟩)
    · exact ⟨r, hr, by simp [hkey]⟩
    · exact ⟨s, mem_of_get hs, by simp [key_of_get hs]⟩

end Lookup

section Insert

variable [DecidableEq κ]

theorem keys_nodup_append {t : Table ρ} {r : ρ} (h : t.get (Keyed.key r) = none) :
    ((t.rows ++ [r]).map Keyed.key).Nodup := by
  rw [List.map_append, List.nodup_append]
  refine ⟨t.keys_nodup, List.nodup_singleton _, ?_⟩
  intro k hk k' hk' heq
  obtain ⟨s, hs, rfl⟩ := List.mem_map.1 hk
  obtain rfl : k' = Keyed.key r := by simpa using hk'
  exact get_eq_none_iff.1 h s hs heq

variable (t : Table ρ) (clash : ρ → Bool)

/-- Append a row, refusing it when its key is taken or when it agrees with an
existing row on another unique column. -/
def insert (r : ρ) : Option (Table ρ) :=
  if h : t.get (Keyed.key r) = none then
    if t.rows.any clash then none else some ⟨t.rows ++ [r], keys_nodup_append h⟩
  else none

theorem insert_eq_some_iff {t t' : Table ρ} {clash : ρ → Bool} {r : ρ} :
    t.insert clash r = some t' ↔
      t.get (Keyed.key r) = none ∧ (∀ s ∈ t, clash s = false) ∧ t'.rows = t.rows ++ [r] := by
  rw [insert]
  by_cases h : t.get (Keyed.key r) = none
  · by_cases hc : t.rows.any clash = true
    · have hex : ¬ ∀ s ∈ t, clash s = false := by
        obtain ⟨s, hs, hcs⟩ := List.any_eq_true.1 hc
        intro hall
        simp [hall s hs] at hcs
      simp [h, hc, hex]
    have hall : ∀ s ∈ t, clash s = false := by
      intro s hs
      by_contra hcs
      exact hc (List.any_eq_true.2 ⟨s, hs, by simpa using hcs⟩)
    simp only [h, dif_pos, hc, Bool.false_eq_true, if_false, Option.some.injEq, true_and]
    constructor
    · rintro rfl
      exact ⟨hall, rfl⟩
    · rintro ⟨-, hrows⟩
      exact Table.ext hrows.symm
  · simp [h]

/-- A row fits a table when its key is free and it agrees with no existing row on
another unique column. -/
def Fits (r : ρ) : Prop :=
  t.get (Keyed.key r) = none ∧ ∀ s ∈ t, clash s = false

theorem exists_insert_iff {t : Table ρ} {clash : ρ → Bool} {r : ρ} :
    (∃ t', t.insert clash r = some t') ↔ t.Fits clash r := by
  constructor
  · rintro ⟨t', h⟩
    obtain ⟨hfree, hclash, -⟩ := insert_eq_some_iff.1 h
    exact ⟨hfree, hclash⟩
  · rintro ⟨hfree, hclash⟩
    exact ⟨⟨t.rows ++ [r], keys_nodup_append hfree⟩,
      insert_eq_some_iff.2 ⟨hfree, hclash, rfl⟩⟩

/-- An insert always changes the table. -/
theorem insert_ne_self {t t' : Table ρ} {clash : ρ → Bool} {r : ρ}
    (h : t.insert clash r = some t') : t' ≠ t := by
  rintro rfl
  obtain ⟨-, -, hrows⟩ := insert_eq_some_iff.1 h
  simpa using congrArg List.length hrows

theorem mem_insert {t t' : Table ρ} {clash : ρ → Bool} {r s : ρ}
    (h : t.insert clash r = some t') : s ∈ t' ↔ s ∈ t ∨ s = r := by
  obtain ⟨-, -, hrows⟩ := insert_eq_some_iff.1 h
  rw [mem_def, hrows, List.mem_append, List.mem_singleton, ← mem_def]

theorem length_select_insert {t t' : Table ρ} {clash : ρ → Bool} {r : ρ}
    (h : t.insert clash r = some t') (p : ρ → Bool) :
    (t'.select p).length = (t.select p).length + (if p r then 1 else 0) := by
  obtain ⟨-, -, hrows⟩ := insert_eq_some_iff.1 h
  unfold select
  rw [hrows, List.filter_append, List.length_append]
  by_cases hp : p r = true <;> simp [hp]

theorem get_of_insert {t t' : Table ρ} {clash : ρ → Bool} {r : ρ} (h : t.insert clash r = some t')
    (k : κ) : t'.get k = if k = Keyed.key r then some r else t.get k := by
  by_cases hk : k = Keyed.key r
  · subst hk
    rw [if_pos rfl]
    exact get_eq_some_iff.2 ⟨(mem_insert h).2 (.inr rfl), rfl⟩
  rw [if_neg hk]
  cases hget : t.get k with
  | none =>
    refine get_eq_none_iff.2 fun s hs => ?_
    rcases (mem_insert h).1 hs with hs | rfl
    · exact get_eq_none_iff.1 hget s hs
    · exact fun heq => hk heq.symm
  | some s =>
    exact get_eq_some_iff.2
      ⟨(mem_insert h).2 (.inl (mem_of_get hget)), key_of_get hget⟩

theorem get_insert_new {t t' : Table ρ} {clash : ρ → Bool} {r : ρ}
    (h : t.insert clash r = some t') : t'.get (Keyed.key r) = some r := by
  rw [get_of_insert h, if_pos rfl]

theorem get_insert_of_some {t t' : Table ρ} {clash : ρ → Bool} {r s : ρ} {k : κ}
    (h : t.insert clash r = some t') (hget : t.get k = some s) : t'.get k = some s := by
  obtain ⟨hs, hkey⟩ := get_eq_some_iff.1 hget
  exact get_eq_some_iff.2 ⟨(mem_insert h).2 (.inl hs), hkey⟩

def insertOrIgnore (r : ρ) : Table ρ :=
  (t.insert clash r).getD t

/-- The table holding the given rows, a repeated key keeping its first row. -/
def ofRows (rows : List ρ) : Table ρ :=
  rows.foldl (fun t r => t.insertOrIgnore (fun _ => false) r) ∅

theorem mem_of_mem_insertOrIgnore {t : Table ρ} {clash : ρ → Bool} {r s : ρ}
    (h : s ∈ t.insertOrIgnore clash r) : s ∈ t ∨ s = r := by
  rw [insertOrIgnore] at h
  cases hins : t.insert clash r with
  | none =>
    rw [hins] at h
    exact .inl h
  | some t' =>
    rw [hins] at h
    exact (mem_insert hins).1 h

theorem mem_insertOrIgnore_of_mem {t : Table ρ} {clash : ρ → Bool} {r s : ρ}
    (h : s ∈ t) : s ∈ t.insertOrIgnore clash r := by
  rw [insertOrIgnore]
  cases hins : t.insert clash r with
  | none => exact h
  | some t' => exact (mem_insert hins).2 (.inl h)

theorem get_insertOrIgnore_of_some {t : Table ρ} {clash : ρ → Bool} {r s : ρ} {k : κ}
    (h : t.get k = some s) : (t.insertOrIgnore clash r).get k = some s := by
  obtain ⟨hs, hkey⟩ := get_eq_some_iff.1 h
  exact get_eq_some_iff.2 ⟨mem_insertOrIgnore_of_mem hs, hkey⟩

theorem insertOrIgnore_of_taken {t : Table ρ} {clash : ρ → Bool} {r s : ρ}
    (h : t.get (Keyed.key r) = some s) : t.insertOrIgnore clash r = t := by
  rw [insertOrIgnore]
  cases hins : t.insert clash r with
  | none => rfl
  | some t' => cases h.symm.trans (insert_eq_some_iff.1 hins).1

theorem get_insertOrIgnore_of_fits {t : Table ρ} {clash : ρ → Bool} {r : ρ}
    (h : t.Fits clash r) : (t.insertOrIgnore clash r).get (Keyed.key r) = some r := by
  obtain ⟨t', hinsert⟩ := exists_insert_iff.2 h
  rw [insertOrIgnore, hinsert, Option.getD_some, get_of_insert hinsert, if_pos rfl]

theorem rows_insertOrIgnore_of_fits {t : Table ρ} {clash : ρ → Bool} {r : ρ}
    (h : t.Fits clash r) : (t.insertOrIgnore clash r).rows = t.rows ++ [r] := by
  obtain ⟨t', hinsert⟩ := exists_insert_iff.2 h
  rw [insertOrIgnore, hinsert]
  exact (insert_eq_some_iff.1 hinsert).2.2

theorem select_insertOrIgnore_of_not {t : Table ρ} {clash p : ρ → Bool} {r : ρ}
    (h : p r = false) : (t.insertOrIgnore clash r).select p = t.select p := by
  rw [insertOrIgnore]
  cases hinsert : t.insert clash r with
  | none => rfl
  | some t' =>
    rw [Option.getD_some, select, (insert_eq_some_iff.1 hinsert).2.2, List.filter_append, select]
    simp [h]

theorem get_insertOrIgnore_of_ne {t : Table ρ} {clash : ρ → Bool} {r : ρ} {k : κ}
    (hne : k ≠ Keyed.key r) : (t.insertOrIgnore clash r).get k = t.get k := by
  rw [insertOrIgnore]
  cases hinsert : t.insert clash r with
  | none => rfl
  | some t' => rw [Option.getD_some, get_of_insert hinsert, if_neg hne]

/-- Replace the row with the new row's key, if there is one, by the new row. -/
def put (r : ρ) : Table ρ where
  rows := (t.deleteWhere fun s => Keyed.key s = Keyed.key r).rows ++ [r]
  keys_nodup := keys_nodup_append <| by
    rw [get_eq_none_iff]
    intro s hs
    simpa using (mem_deleteWhere.1 hs).2

theorem mem_put {t : Table ρ} {r s : ρ} :
    s ∈ t.put r ↔ (s ∈ t ∧ Keyed.key s ≠ Keyed.key r) ∨ s = r := by
  simp [put, mem_def, deleteWhere]

theorem get_put (r : ρ) (k : κ) :
    (t.put r).get k = if k = Keyed.key r then some r else t.get k := by
  by_cases hk : k = Keyed.key r
  · rw [if_pos hk]
    exact get_eq_some_iff.2 ⟨mem_put.2 (.inr rfl), hk.symm⟩
  rw [if_neg hk]
  cases hget : t.get k with
  | none =>
    refine get_eq_none_iff.2 fun s hs => ?_
    rcases mem_put.1 hs with ⟨hs, -⟩ | rfl
    · exact get_eq_none_iff.1 hget s hs
    · exact fun heq => hk heq.symm
  | some s =>
    obtain ⟨hs, rfl⟩ := get_eq_some_iff.1 hget
    exact get_eq_some_iff.2 ⟨mem_put.2 (.inl ⟨hs, hk⟩), rfl⟩

end Insert

section Sum

variable {M : Type*} [AddCommGroup M]

theorem sum_updateWhere (t : Table ρ) (p : ρ → Bool) (f : ρ → ρ)
    (hf : ∀ r, Keyed.key (f r) = Keyed.key r) (w : ρ → M) :
    (t.updateWhere p f hf).sum w = t.sum w + t.sum (fun r => if p r then w (f r) - w r else 0) := by
  simp only [sum, updateWhere, List.map_map]
  induction t.rows with
  | nil => simp
  | cons r rs ih =>
    simp only [List.map_cons, List.sum_cons, Function.comp_apply, ih]
    by_cases hp : p r = true
    · simp only [hp, if_true]
      abel
    · simp only [hp, Bool.false_eq_true, if_false]
      abel

theorem sum_ite_key [DecidableEq κ] (t : Table ρ) (k : κ) (w : ρ → M) :
    t.sum (fun r => if Keyed.key r = k then w r else 0) = ((t.get k).map w).getD 0 := by
  obtain ⟨rows, hnd⟩ := t
  induction rows with
  | nil => simp [sum, get]
  | cons r rs ih =>
    rw [List.map_cons, List.nodup_cons] at hnd
    have hrest := ih hnd.2
    simp only [sum, List.map_cons, List.sum_cons, get] at hrest ⊢
    by_cases hk : Keyed.key r = k
    · have hzero : (rs.map fun s => if Keyed.key s = k then w s else 0).sum = 0 := by
        refine List.sum_eq_zero fun x hx => ?_
        obtain ⟨s, hs, rfl⟩ := List.mem_map.1 hx
        have hne : Keyed.key s ≠ k := by
          intro hsk
          exact hnd.1 (List.mem_map.2 ⟨s, hs, hsk.trans hk.symm⟩)
        simp [hne]
      simp [hk, hzero]
    · simp [hk, hrest]

theorem sum_modify [DecidableEq κ] {t : Table ρ} {k : κ} {r : ρ} (h : t.get k = some r)
    (f : ρ → ρ) (hf : ∀ r, Keyed.key (f r) = Keyed.key r) (w : ρ → M) :
    (t.modify k f hf).sum w = t.sum w + (w (f r) - w r) := by
  have hone := sum_ite_key t k fun r => w (f r) - w r
  rw [h, Option.map_some, Option.getD_some] at hone
  rw [modify, sum_updateWhere, ← hone]
  simp

end Sum

end Table

end Lib
