import Mathlib.Data.List.Sort

/-!
# Scanning rows in pages

Rows with a numeric key are read in pages: the rows after a cursor in the order of their keys,
at most `limit` of them.  A scan moves the cursor to the highest key it saw, and starts over
once a page after the cursor is empty.
-/

namespace Lib

section Paging

variable {cursor : Nat} {α : Type*} (key : α → Nat) (rows : List α) (limit : Nat)

def after (cursor : Nat) : List α :=
  (rows.filter fun a => cursor < key a).insertionSort fun a b => key a ≤ key b

def page (cursor : Nat) : List α := (after key rows cursor).take limit

def advance (cursor : Nat) (seen : List α) : Nat := seen.foldl (fun c a => max c (key a)) cursor

/-- Where a scan starts: at the cursor, or over when nothing is left after it. -/
def scanStart (cursor : Nat) : Nat :=
  if page key rows limit cursor = [] ∧ 0 < cursor then 0 else cursor

def scanned (cursor : Nat) : List α := page key rows limit (scanStart key rows limit cursor)

def scanNext (cursor : Nat) : Nat :=
  advance key (scanStart key rows limit cursor) (scanned key rows limit cursor)

variable {key rows limit}

theorem mem_after {a : α} : a ∈ after key rows cursor ↔ a ∈ rows ∧ cursor < key a := by
  simp [after]

theorem lt_of_mem_page {a : α} (h : a ∈ page key rows limit cursor) : cursor < key a :=
  (mem_after.1 (List.mem_of_mem_take h)).2

theorem le_advance (key : α → Nat) (seen : List α) (cursor : Nat) :
    cursor ≤ advance key cursor seen := by
  induction seen generalizing cursor with
  | nil => exact Nat.le_refl cursor
  | cons a seen ih =>
    have hrest := ih (max cursor (key a))
    change cursor ≤ advance key (max cursor (key a)) seen
    omega

theorem key_le_advance (key : α → Nat) {seen : List α} {a : α} (h : a ∈ seen) (cursor : Nat) :
    key a ≤ advance key cursor seen := by
  induction seen generalizing cursor with
  | nil => cases h
  | cons b seen ih =>
    change key a ≤ advance key (max cursor (key b)) seen
    rcases List.mem_cons.1 h with rfl | h
    · have hfirst := le_advance key seen (max cursor (key a))
      omega
    · exact ih h _

theorem advance_lt {seen : List α} {bound : Nat} (hcursor : cursor < bound)
    (h : ∀ a ∈ seen, key a < bound) : advance key cursor seen < bound := by
  induction seen generalizing cursor with
  | nil => exact hcursor
  | cons b seen ih =>
    have hfirst := h b List.mem_cons_self
    have hmax : max cursor (key b) < bound := by omega
    exact ih hmax fun a ha => h a (List.mem_cons_of_mem _ ha)

theorem page_ne_nil {a : α} (hlimit : 0 < limit) (hrow : a ∈ rows)
    (hkey : cursor < key a) : page key rows limit cursor ≠ [] := by
  intro hnil
  have hafter : after key rows cursor ≠ [] := List.ne_nil_of_mem (mem_after.2 ⟨hrow, hkey⟩)
  simp only [page, List.take_eq_nil_iff] at hnil
  rcases hnil with hzero | hnil
  · omega
  · exact hafter hnil

theorem mem_page_or_lt (limit : Nat) {a : α} (hnodup : (rows.map key).Nodup) (hrow : a ∈ rows)
    (hkey : cursor < key a) :
    a ∈ page key rows limit cursor ∨ ∀ b ∈ page key rows limit cursor, key b < key a := by
  have hmem : a ∈ after key rows cursor := mem_after.2 ⟨hrow, hkey⟩
  rw [← List.take_append_drop limit (after key rows cursor), List.mem_append] at hmem
  refine hmem.imp id fun hdrop b hb => ?_
  have hsorted : (after key rows cursor).Pairwise fun a b => key a ≤ key b :=
    List.pairwise_insertionSort _ _
  have hperm : (after key rows cursor).Perm (rows.filter fun a => cursor < key a) :=
    List.perm_insertionSort _ _
  have hkeys : ((after key rows cursor).map key).Nodup :=
    (hperm.map key).nodup_iff.2 (hnodup.sublist (List.filter_sublist.map key))
  rw [← List.take_append_drop limit (after key rows cursor)] at hsorted hkeys
  have hle : key b ≤ key a := (List.pairwise_append.1 hsorted).2.2 b hb a hdrop
  have hne : key b ≠ key a := by
    rw [List.map_append, List.nodup_append] at hkeys
    exact hkeys.2.2 _ (List.mem_map_of_mem hb) _ (List.mem_map_of_mem hdrop)
  omega

/-! ## Repeated scans -/

def Visited (key : α → Nat) (rows : List α) (limit cursor : Nat) (a : α) : Prop :=
  ∃ n, a ∈ scanned key rows limit ((scanNext key rows limit)^[n] cursor)

theorem Visited.next {a : α} (h : Visited key rows limit (scanNext key rows limit cursor) a) :
    Visited key rows limit cursor a := by
  obtain ⟨n, hn⟩ := h
  exact ⟨n + 1, hn⟩

theorem scanStart_of_ne_nil (h : page key rows limit cursor ≠ []) :
    scanStart key rows limit cursor = cursor := by
  rw [scanStart, if_neg fun hover => h hover.1]

theorem visited_of_lt {a : α} (hlimit : 0 < limit) (hnodup : (rows.map key).Nodup) (hrow : a ∈ rows)
    (hkey : cursor < key a) : Visited key rows limit cursor a := by
  -- the distance to the row shrinks with every page it is not on
  induction hdistance : key a - cursor using Nat.strong_induction_on generalizing cursor with
  | _ distance ih =>
    have hsome := page_ne_nil hlimit hrow hkey
    have hstart := scanStart_of_ne_nil hsome
    rcases mem_page_or_lt limit hnodup hrow hkey with hon | hbefore
    · refine ⟨0, ?_⟩
      change a ∈ page key rows limit (scanStart key rows limit cursor)
      rw [hstart]
      exact hon
    obtain ⟨b, hb⟩ := List.exists_mem_of_ne_nil _ hsome
    have hmoved : cursor < scanNext key rows limit cursor := by
      have hafter := lt_of_mem_page hb
      have hreach := key_le_advance key hb cursor
      rw [scanNext, scanned, hstart]
      omega
    have hshort : scanNext key rows limit cursor < key a := by
      rw [scanNext, scanned, hstart]
      exact advance_lt hkey hbefore
    exact (ih (key a - scanNext key rows limit cursor) (by omega) hshort rfl).next

/-- From any cursor every row is visited: what lies before the cursor, once the scan starts
over. -/
theorem exists_visited {a : α} (hlimit : 0 < limit) (hnodup : (rows.map key).Nodup)
    (hrow : a ∈ rows) (hpos : 0 < key a) (cursor : Nat) : Visited key rows limit cursor a := by
  obtain ⟨top, htop⟩ : ∃ top, ∀ b ∈ rows, key b < top := by
    refine ⟨advance key 0 rows + 1, fun b hb => ?_⟩
    have hreach := key_le_advance key hb 0
    omega
  induction hdistance : top - cursor using Nat.strong_induction_on generalizing cursor with
  | _ distance ih =>
    by_cases hkey : cursor < key a
    · exact visited_of_lt hlimit hnodup hrow hkey
    by_cases hnil : page key rows limit cursor = []
    · have hover : scanStart key rows limit cursor = 0 := if_pos ⟨hnil, by omega⟩
      rcases mem_page_or_lt limit hnodup hrow hpos with hon | hbefore
      · refine ⟨0, ?_⟩
        change a ∈ page key rows limit (scanStart key rows limit cursor)
        rw [hover]
        exact hon
      · refine Visited.next (visited_of_lt hlimit hnodup hrow ?_)
        rw [scanNext, scanned, hover]
        exact advance_lt hpos hbefore
    · have hstart := scanStart_of_ne_nil hnil
      obtain ⟨b, hb⟩ := List.exists_mem_of_ne_nil _ hnil
      have hafter := lt_of_mem_page hb
      have hunder := htop b (mem_after.1 (List.mem_of_mem_take hb)).1
      have hmoved : cursor < scanNext key rows limit cursor := by
        have hreach := key_le_advance key hb cursor
        rw [scanNext, scanned, hstart]
        omega
      exact (ih (top - scanNext key rows limit cursor) (by omega) _ rfl).next

end Paging

end Lib
