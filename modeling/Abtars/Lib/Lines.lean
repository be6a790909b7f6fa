import Mathlib.Data.List.Basic

/-!
# Lines of a stream

Cutting a sequence at a separator, into the lines it ends and the tail that is still
open.  A stream that arrives in pieces is cut piece by piece: the open tail is put in
front of the next piece.
-/

namespace Lib

variable {α : Type*} [DecidableEq α]

/-- The lines `sep` ends, and what follows the last one. -/
def cutLines (sep : α) : List α → List (List α) × List α
  | [] => ([], [])
  | a :: rest =>
    if a = sep then ([] :: (cutLines sep rest).1, (cutLines sep rest).2)
    else
      match (cutLines sep rest).1 with
      | [] => ([], a :: (cutLines sep rest).2)
      | line :: lines => ((a :: line) :: lines, (cutLines sep rest).2)

variable {sep : α}

@[simp]
theorem cutLines_nil (sep : α) : cutLines sep [] = ([], []) := rfl

@[simp]
theorem cutLines_sep (rest : List α) :
    cutLines sep (sep :: rest) = ([] :: (cutLines sep rest).1, (cutLines sep rest).2) := by
  simp [cutLines]

theorem cutLines_of_not_mem {xs : List α} (h : sep ∉ xs) : cutLines sep xs = ([], xs) := by
  induction xs with
  | nil => rfl
  | cons a xs ih =>
    have hhead : a ≠ sep := fun heq => h (by simp [heq])
    rw [cutLines, if_neg hhead, ih (List.not_mem_of_not_mem_cons h)]

theorem cutLines_append_sep {line : List α} (h : sep ∉ line) (rest : List α) :
    cutLines sep (line ++ sep :: rest) = (line :: (cutLines sep rest).1, (cutLines sep rest).2) := by
  induction line with
  | nil => simp
  | cons a line ih =>
    have hhead : a ≠ sep := fun heq => h (by simp [heq])
    rw [List.cons_append, cutLines, if_neg hhead, ih (List.not_mem_of_not_mem_cons h)]

theorem cutLines_cases (sep : α) (xs : List α) :
    sep ∉ xs ∨ ∃ line rest, sep ∉ line ∧ xs = line ++ sep :: rest := by
  by_cases h : sep ∈ xs
  · obtain ⟨line, rest, heq, hline⟩ := List.eq_append_cons_of_mem h
    exact .inr ⟨line, rest, hline, heq⟩
  · exact .inl h

theorem lines_induction (sep : α) {motive : List α → Prop} (tail : ∀ xs, sep ∉ xs → motive xs)
    (line : ∀ line rest, sep ∉ line → motive rest → motive (line ++ sep :: rest)) (xs : List α) :
    motive xs := by
  generalize hlength : xs.length = n
  induction n using Nat.strongRecOn generalizing xs with
  | _ n ih =>
    rcases cutLines_cases sep xs with hopen | ⟨first, rest, hfirst, rfl⟩
    · exact tail xs hopen
    · refine line first rest hfirst (ih rest.length ?_ rest rfl)
      rw [← hlength, List.length_append, List.length_cons]
      omega

theorem not_mem_cutLines_tail (sep : α) (xs : List α) : sep ∉ (cutLines sep xs).2 := by
  induction xs using lines_induction sep with
  | tail xs h => rwa [cutLines_of_not_mem h]
  | line line rest h ih => rwa [cutLines_append_sep h]

/-- **A stream is cut piece by piece.** -/
theorem cutLines_append (sep : α) (xs ys : List α) :
    cutLines sep (xs ++ ys) =
      ((cutLines sep xs).1 ++ (cutLines sep ((cutLines sep xs).2 ++ ys)).1,
        (cutLines sep ((cutLines sep xs).2 ++ ys)).2) := by
  induction xs using lines_induction sep with
  | tail xs h => simp [cutLines_of_not_mem h]
  | line line rest h ih =>
    rw [List.append_assoc, List.cons_append, cutLines_append_sep h, ih, cutLines_append_sep h]
    rfl

theorem cutLines_append_of_not_mem {xs : List α} (h : sep ∉ xs) (ys : List α) :
    cutLines sep (xs ++ ys) =
      match (cutLines sep ys).1 with
      | [] => ([], xs ++ (cutLines sep ys).2)
      | line :: lines => ((xs ++ line) :: lines, (cutLines sep ys).2) := by
  rcases cutLines_cases sep ys with hopen | ⟨line, rest, hline, rfl⟩
  · rw [cutLines_of_not_mem hopen, cutLines_of_not_mem (by simp [h, hopen])]
  · have hboth : sep ∉ xs ++ line := by simp [h, hline]
    rw [← List.append_assoc, cutLines_append_sep hboth, cutLines_append_sep hline]

end Lib
