import Mathlib.Algebra.Order.BigOperators.Group.List
import Mathlib.Tactic.NormNum
import Abtars.Lib.Json

/-!
# Sizes of texts

How long a cut text is in UTF-16 code units, and how many bytes of UTF-8 the JSON
text of a value takes at most.
-/

namespace Lib

/-! ## Cut texts -/

variable (cs : List Char)

theorem foldl_utf16Units (n : Nat) :
    cs.foldl (fun n c => n + utf16Units c) n = n + (cs.map utf16Units).sum := by
  induction cs generalizing n with
  | nil => simp
  | cons c cs ih =>
    rw [List.foldl_cons, ih, List.map_cons, List.sum_cons]
    omega

variable (s : String)

theorem utf16Length_eq_sum : utf16Length s = (s.toList.map utf16Units).sum := by
  rw [utf16Length, foldl_utf16Units, Nat.zero_add]

theorem utf16Units_takeUtf16_le : ∀ n, ((takeUtf16 n cs).map utf16Units).sum ≤ n := by
  induction cs with
  | nil =>
    intro n
    cases n <;> simp [takeUtf16]
  | cons c cs ih =>
    intro n
    match n with
    | 0 => simp [takeUtf16]
    | 1 =>
      by_cases hc : c.toNat < 0x10000
      · have hrest := ih 0
        simp only [takeUtf16, hc, if_true, List.map_cons, List.sum_cons, utf16Units] at hrest ⊢
        omega
      · simp only [takeUtf16, hc, if_false]
        decide
    | n + 2 =>
      by_cases hc : c.toNat < 0x10000
      · have hrest := ih (n + 1)
        simp only [takeUtf16, hc, if_true, List.map_cons, List.sum_cons, utf16Units] at hrest ⊢
        omega
      · have hrest := ih n
        simp only [takeUtf16, hc, if_false, List.map_cons, List.sum_cons, utf16Units] at hrest ⊢
        omega

theorem utf16Length_sliceText_le (n : Nat) : utf16Length (sliceText s n) ≤ n := by
  rw [utf16Length_eq_sum, sliceText, String.toList_ofList]
  exact utf16Units_takeUtf16_le s.toList n

theorem sliceText_eq_empty_iff {s : String} {n : Nat} (hn : 0 < n) :
    sliceText s n = "" ↔ s = "" := by
  have hempty : ∀ t : String, t = "" ↔ t.toList = [] := fun t => by
    rw [← String.toList_inj, String.toList_empty]
  obtain ⟨m, rfl⟩ : ∃ m, n = m + 1 := ⟨n - 1, by omega⟩
  rw [hempty, hempty s, sliceText, String.toList_ofList]
  cases s.toList with
  | nil => simp [takeUtf16]
  | cons c cs =>
    cases m <;> by_cases hc : c.toNat < 0x10000 <;> simp [takeUtf16, hc]

/-! ## Bytes -/

theorem utf8ByteSize_ofList : (String.ofList cs).utf8ByteSize = (cs.map Char.utf8Size).sum := by
  induction cs with
  | nil => rfl
  | cons c cs ih =>
    have hsplit : String.ofList (c :: cs) = String.singleton c ++ String.ofList cs := by
      simp
    rw [hsplit, String.utf8ByteSize_append, String.utf8ByteSize_singleton, ih, List.map_cons,
      List.sum_cons]

/-- A code unit takes at most four bytes, and a byte holds no two. -/
theorem utf8ByteSize_le : s.utf8ByteSize ≤ 4 * utf16Length s ∧ utf16Length s ≤ s.utf8ByteSize := by
  have hchar : ∀ c : Char, c.utf8Size ≤ 4 * utf16Units c ∧ utf16Units c ≤ c.utf8Size := by
    intro c
    have hfour := Char.utf8Size_le_four c
    have hpos := Char.utf8Size_pos c
    unfold utf16Units
    split
    · omega
    rename_i hwide
    have hnot : c.utf8Size ≠ 1 := fun hone => by
      have hlow := UInt32.le_iff_toNat_le.1 (Char.utf8Size_eq_one_iff.1 hone)
      have hval : c.val.toNat = c.toNat := rfl
      have hmax : (127 : UInt32).toNat = 127 := rfl
      omega
    omega
  rw [utf16Length_eq_sum, ← String.ofList_toList (s := s), utf8ByteSize_ofList,
    String.toList_ofList]
  induction s.toList with
  | nil => simp
  | cons c cs ih =>
    have hc := hchar c
    rw [List.map_cons, List.sum_cons, List.map_cons, List.sum_cons]
    omega

theorem utf8Size_hexDigit : ∀ n < 16, (Json.hexDigit n).utf8Size = 1 := by decide

theorem utf8Size_escapeChar_le (c : Char) :
    ((Json.escapeChar c).map Char.utf8Size).sum ≤ 6 * utf16Units c := by
  have hunits : 1 ≤ utf16Units c := by
    unfold utf16Units
    split <;> omega
  have hpair : ∀ d : Char, d.utf8Size = 1 →
      (['\\', d].map Char.utf8Size).sum ≤ 6 * utf16Units c := by
    intro d hd
    have hbackslash : ('\\' : Char).utf8Size = 1 := by decide
    simp only [List.map_cons, List.map_nil, List.sum_cons, List.sum_nil, hd, hbackslash]
    omega
  unfold Json.escapeChar
  split_ifs with _ _ _ _ _ _ _ hcontrol
  iterate 7 exact hpair _ (by decide)
  · have hlow := utf8Size_hexDigit (c.toNat / 16) (by omega)
    have hhigh := utf8Size_hexDigit (c.toNat % 16) (by omega)
    have hescape : (['\\', 'u', '0', '0'].map Char.utf8Size).sum = 4 := by decide
    simp only [List.map_cons, List.map_nil, List.sum_cons, List.sum_nil, hlow, hhigh] at hescape ⊢
    omega
  · have hsize := Char.utf8Size_le_four c
    simp only [List.map_cons, List.map_nil, List.sum_cons, List.sum_nil]
    omega

theorem utf8ByteSize_quote_le : (Json.quote s).utf8ByteSize ≤ 6 * utf16Length s + 2 := by
  have hescaped : ∀ cs : List Char,
      ((cs.flatMap Json.escapeChar).map Char.utf8Size).sum ≤ 6 * (cs.map utf16Units).sum := by
    intro cs
    induction cs with
    | nil => simp
    | cons c cs ih =>
      have hc := utf8Size_escapeChar_le c
      rw [List.flatMap_cons, List.map_append, List.sum_append, List.map_cons, List.sum_cons]
      omega
  have hquote : ('"' : Char).utf8Size = 1 := by decide
  have hlength := hescaped s.toList
  rw [Json.quote, utf8ByteSize_ofList, utf16Length_eq_sum]
  simp only [List.map_append, List.map_cons, List.map_nil, List.sum_append, List.sum_cons,
    List.sum_nil, List.cons_append, hquote]
  omega

theorem utf8ByteSize_intercalate (sep : String) (texts : List String) :
    (sep.intercalate texts).utf8ByteSize =
      (texts.map String.utf8ByteSize).sum + (texts.length - 1) * sep.utf8ByteSize := by
  induction texts with
  | nil => simp
  | cons t rest ih =>
    cases rest with
    | nil => simp
    | cons u rest =>
      rw [String.intercalate_cons_cons, String.utf8ByteSize_append,
        String.utf8ByteSize_append, ih]
      simp only [List.map_cons, List.sum_cons, List.length_cons, Nat.add_sub_cancel,
        Nat.add_one_mul]
      omega

theorem utf8ByteSize_intercalate_le (sep : String) (hsep : sep.utf8ByteSize = 1) (bound : Nat)
    (texts : List String) (htexts : ∀ t ∈ texts, t.utf8ByteSize ≤ bound) :
    (sep.intercalate texts).utf8ByteSize ≤ texts.length * (bound + 1) := by
  induction texts with
  | nil => simp
  | cons t rest ih =>
    have ht := htexts t List.mem_cons_self
    have hrest := ih fun u hu => htexts u (List.mem_cons_of_mem t hu)
    cases rest with
    | nil =>
      rw [String.intercalate_singleton, List.length_singleton]
      omega
    | cons u rest =>
      rw [String.intercalate_cons_cons, String.utf8ByteSize_append,
        String.utf8ByteSize_append, hsep, List.length_cons, Nat.add_one_mul]
      omega

/-! ## Values -/

variable (renderFraction : Rat → String)

theorem stringifyItems_eq_map (items : List Json) :
    Json.stringifyItems renderFraction items = items.map (Json.stringify renderFraction) := by
  induction items with
  | nil => rfl
  | cons v vs ih => rw [Json.stringifyItems, ih, List.map_cons]

theorem stringifyMembers_eq_map (members : List (String × Json)) :
    Json.stringifyMembers renderFraction members =
      members.map fun m => Json.quote m.1 ++ ":" ++ Json.stringify renderFraction m.2 := by
  induction members with
  | nil => rfl
  | cons m ms ih => rw [Json.stringifyMembers, ih, List.map_cons]

theorem utf8ByteSize_obj (members : List (String × Json)) :
    (Json.stringify renderFraction (.obj members)).utf8ByteSize = (members.map fun m =>
      (Json.quote m.1).utf8ByteSize + 1 +
        (Json.stringify renderFraction m.2).utf8ByteSize).sum + (members.length - 1) + 2 := by
  have hbraces : ("\x7b" : String).utf8ByteSize = 1 ∧ ("\x7d" : String).utf8ByteSize = 1 ∧
      ("," : String).utf8ByteSize = 1 ∧ (":" : String).utf8ByteSize = 1 := by decide
  rw [Json.stringify, String.utf8ByteSize_append, String.utf8ByteSize_append,
    utf8ByteSize_intercalate, stringifyMembers_eq_map, List.map_map, List.length_map]
  simp only [Function.comp_def, String.utf8ByteSize_append, hbraces]
  omega

theorem utf8ByteSize_obj_exchange (before after : List (String × Json)) (k : String) (v v' : Json) :
    (Json.stringify renderFraction (.obj (before ++ (k, v) :: after))).utf8ByteSize +
        (Json.stringify renderFraction v').utf8ByteSize =
      (Json.stringify renderFraction (.obj (before ++ (k, v') :: after))).utf8ByteSize +
        (Json.stringify renderFraction v).utf8ByteSize := by
  simp only [utf8ByteSize_obj, List.map_append, List.map_cons, List.sum_append, List.sum_cons,
    List.length_append, List.length_cons]
  omega

theorem utf8ByteSize_member_le {members : List (String × Json)} {m : String × Json}
    (h : m ∈ members) :
    (Json.stringify renderFraction m.2).utf8ByteSize ≤
      (Json.stringify renderFraction (.obj members)).utf8ByteSize := by
  have hmember : (Json.quote m.1).utf8ByteSize + 1 +
      (Json.stringify renderFraction m.2).utf8ByteSize ≤ (members.map fun m =>
        (Json.quote m.1).utf8ByteSize + 1 +
          (Json.stringify renderFraction m.2).utf8ByteSize).sum :=
    List.single_le_sum (fun _ _ => Nat.zero_le _) _ (List.mem_map_of_mem h)
  rw [utf8ByteSize_obj]
  omega

end Lib
