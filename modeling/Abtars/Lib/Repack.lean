import Mathlib.Data.Nat.Digits.Lemmas
import Mathlib.Tactic.Ring

/-!
# Repacking digits through a machine accumulator

A stream of digits of one size is written again in digits of another size, most
significant first.  The digits read go into an accumulator of fixed width that keeps
the low bits and lets the high ones fall off; whenever enough bits are there, the next
digit is taken from the top of those not yet written.
-/

namespace Lib

/-! ## Numerals -/

variable (base : Nat) (digits : List Nat)

def numeral : Nat :=
  Nat.ofDigits base digits.reverse

@[simp]
theorem numeral_nil : numeral base [] = 0 := rfl

theorem numeral_append (more : List Nat) :
    numeral base (digits ++ more) =
      numeral base digits * base ^ more.length + numeral base more := by
  rw [numeral, List.reverse_append, Nat.ofDigits_append, List.length_reverse, numeral, numeral]
  ring

theorem numeral_concat (digit : Nat) :
    numeral base (digits ++ [digit]) = numeral base digits * base + digit := by
  rw [numeral_append]
  simp [numeral]

theorem numeral_lt {base : Nat} {digits : List Nat} (hbase : 1 < base)
    (hdigits : ∀ d ∈ digits, d < base) : numeral base digits < base ^ digits.length := by
  rw [numeral, ← List.length_reverse]
  exact Nat.ofDigits_lt_base_pow_length hbase (by simpa using hdigits)

theorem numeral_injective {base : Nat} {digits others : List Nat} (hbase : 1 < base)
    (hlength : digits.length = others.length) (hdigits : ∀ d ∈ digits, d < base)
    (hothers : ∀ d ∈ others, d < base) (hsame : numeral base digits = numeral base others) :
    digits = others := by
  apply List.reverse_injective
  apply Nat.ofDigits_inj_of_len_eq hbase
  · simpa using hlength
  · simpa using hdigits
  · simpa using hothers
  · exact hsame

/-! ## The accumulator -/

/-- The accumulator, how many of its low bits are not written yet, and the digits
written. -/
structure Packer (width : Nat) where
  acc : BitVec width
  bits : Nat
  out : List Nat

namespace Packer

variable {width : Nat}

def start : Packer width := ⟨0, 0, []⟩

/-- The low bits of the accumulator above a position, shifting the sign in. -/
def window (acc : BitVec width) (position size : Nat) : Nat :=
  (acc.sshiftRight position &&& BitVec.ofNat width (2 ^ size - 1)).toNat

variable (size : Nat) (p : Packer width)

/-- `acc = (acc << size) | digit; bits += size`. -/
def read (digit : Nat) : Packer width :=
  { p with
    acc := p.acc <<< size ||| BitVec.ofNat width digit
    bits := p.bits + size }

/-- `bits -= size`, then write `(acc >> bits) & (2 ^ size - 1)`. -/
def emit : Packer width :=
  { p with
    bits := p.bits - size
    out := p.out ++ [window p.acc (p.bits - size) size] }

def drainFor (size : Nat) : (fuel : Nat) → Packer width → Packer width
  | 0, p => p
  | fuel + 1, p => if size ≤ p.bits then drainFor size fuel (p.emit size) else p

def drain : Packer width :=
  drainFor size p.bits p

/-- Write the bits left over, if any, at the top of a last digit:
`(acc << (size - bits)) & (2 ^ size - 1)`. -/
def flush : List Nat :=
  if 0 < p.bits then
    p.out ++ [(p.acc <<< (size - p.bits) &&& BitVec.ofNat width (2 ^ size - 1)).toNat]
  else p.out

/-! ## What a packer holds -/

structure Holds (inSize outSize : Nat) (digits : List Nat) (p : Packer width) : Prop where
  bits : p.bits + outSize * p.out.length = inSize * digits.length
  /-- The accumulator has lost all but the low bits. -/
  acc : p.acc.toNat = numeral (2 ^ inSize) digits % 2 ^ width
  out : numeral (2 ^ outSize) p.out = numeral (2 ^ inSize) digits / 2 ^ p.bits
  small : ∀ d ∈ p.out, d < 2 ^ outSize

theorem holds_start (inSize outSize : Nat) : Holds inSize outSize [] (start : Packer width) where
  bits := by simp [start]
  acc := by simp [start]
  out := by simp [start]
  small := by simp [start]

theorem toNat_mask {size : Nat} (hsize : size ≤ width) :
    (BitVec.ofNat width (2 ^ size - 1)).toNat = 2 ^ size - 1 := by
  rw [BitVec.toNat_ofNat, Nat.mod_eq_of_lt]
  have hpow : 2 ^ size ≤ 2 ^ width := Nat.pow_le_pow_right (by omega) hsize
  have hpos : 0 < 2 ^ size := Nat.two_pow_pos size
  omega

theorem window_eq (acc : BitVec width) {position size : Nat} (hfits : position + size ≤ width) :
    window acc position size = acc.toNat / 2 ^ position % 2 ^ size := by
  rw [window, BitVec.toNat_and, toNat_mask (by omega), Nat.and_two_pow_sub_one_eq_mod]
  apply Nat.eq_of_testBit_eq
  intro i
  rw [Nat.testBit_mod_two_pow, Nat.testBit_mod_two_pow, Nat.testBit_div_two_pow]
  by_cases hi : i < size
  · have hposition : position + i < width := by omega
    have hwidth : ¬ width ≤ i := by omega
    rw [BitVec.testBit_toNat, BitVec.testBit_toNat, BitVec.getLsbD_sshiftRight]
    simp [hi, hposition, hwidth, Nat.add_comm]
  · simp [hi]

theorem window_lt (acc : BitVec width) {position size : Nat} (hfits : position + size ≤ width) :
    window acc position size < 2 ^ size := by
  rw [window_eq acc hfits]
  exact Nat.mod_lt _ (Nat.two_pow_pos size)

section Steps

variable {inSize outSize : Nat} {digits : List Nat} {p : Packer width}

theorem Holds.read (h : Holds inSize outSize digits p) {digit : Nat} (hdigit : digit < 2 ^ inSize)
    (hfits : inSize ≤ width) : Holds inSize outSize (digits ++ [digit]) (p.read inSize digit) := by
  have hpow : 2 ^ inSize ≤ 2 ^ width := Nat.pow_le_pow_right (by omega) hfits
  refine ⟨?_, ?_, ?_, h.small⟩
  · have hbits := h.bits
    simp only [Packer.read, List.length_append, List.length_singleton, Nat.mul_add, Nat.mul_one]
    omega
  · simp only [Packer.read, BitVec.toNat_or, BitVec.toNat_shiftLeft, BitVec.toNat_ofNat]
    -- what falls off the left shift is what the number loses
    rw [← Nat.or_mod_two_pow, ← Nat.shiftLeft_add_eq_or_of_lt hdigit, h.acc, numeral_concat,
      Nat.shiftLeft_eq, Nat.add_mod, Nat.mul_mod, Nat.mod_mod, ← Nat.mul_mod, ← Nat.add_mod]
  have hdiv : (numeral (2 ^ inSize) digits * 2 ^ inSize + digit) / 2 ^ inSize =
      numeral (2 ^ inSize) digits := by
    rw [Nat.mul_comm, Nat.mul_add_div (Nat.two_pow_pos inSize), Nat.div_eq_of_lt hdigit,
      Nat.add_zero]
  show numeral (2 ^ outSize) p.out = _ / 2 ^ (p.bits + inSize)
  rw [numeral_concat, Nat.add_comm p.bits, pow_add, ← Nat.div_div_eq_div_mul, hdiv, h.out]

theorem Holds.emit (h : Holds inSize outSize digits p) (henough : outSize ≤ p.bits)
    (hfits : p.bits ≤ width) : Holds inSize outSize digits (p.emit outSize) := by
  have hinside : p.bits - outSize + outSize ≤ width := by omega
  have hbits : p.bits = (p.bits - outSize) + outSize := by omega
  refine ⟨?_, h.acc, ?_, ?_⟩
  · have hcount := h.bits
    simp only [Packer.emit, List.length_append, List.length_singleton, Nat.mul_add, Nat.mul_one]
    omega
  · show numeral (2 ^ outSize) (p.out ++ [window p.acc (p.bits - outSize) outSize]) =
      _ / 2 ^ (p.bits - outSize)
    have hlow : p.acc.toNat / 2 ^ (p.bits - outSize) % 2 ^ outSize =
        numeral (2 ^ inSize) digits / 2 ^ (p.bits - outSize) % 2 ^ outSize := by
      apply Nat.eq_of_testBit_eq
      intro i
      rw [h.acc, Nat.testBit_mod_two_pow, Nat.testBit_mod_two_pow, Nat.testBit_div_two_pow,
        Nat.testBit_div_two_pow, Nat.testBit_mod_two_pow]
      by_cases hi : i < outSize
      · have hwidth : i + (p.bits - outSize) < width := by omega
        simp [hwidth]
      · simp [hi]
    have hhigh : numeral (2 ^ inSize) digits / 2 ^ p.bits =
        numeral (2 ^ inSize) digits / 2 ^ (p.bits - outSize) / 2 ^ outSize := by
      rw [Nat.div_div_eq_div_mul, ← pow_add, ← hbits]
    rw [numeral_concat, window_eq p.acc hinside, hlow, h.out, hhigh, Nat.mul_comm]
    exact Nat.div_add_mod _ _
  · intro d hd
    rcases List.mem_append.1 hd with hd | hd
    · exact h.small d hd
    · rw [List.mem_singleton.1 hd]
      exact window_lt p.acc hinside

theorem Holds.drainFor (fuel : Nat) :
    ∀ {p : Packer width}, Holds inSize outSize digits p → p.bits ≤ width →
      Holds inSize outSize digits (p.drainFor outSize fuel) := by
  induction fuel with
  | zero =>
    intro p h _
    exact h
  | succ fuel ih =>
    intro p h hfits
    rw [Packer.drainFor]
    split
    · rename_i henough
      apply ih (h.emit henough hfits)
      show p.bits - outSize ≤ width
      omega
    · exact h

theorem Holds.drain (h : Holds inSize outSize digits p) (hfits : p.bits ≤ width) :
    Holds inSize outSize digits (p.drain outSize) :=
  h.drainFor p.bits hfits

theorem bits_drainFor_lt (hsize : 0 < outSize) (fuel : Nat) :
    ∀ {p : Packer width}, p.bits ≤ fuel → (p.drainFor outSize fuel).bits < outSize := by
  induction fuel with
  | zero =>
    intro p hfuel
    show p.bits < outSize
    omega
  | succ fuel ih =>
    intro p hfuel
    rw [Packer.drainFor]
    split
    · apply ih
      show p.bits - outSize ≤ fuel
      omega
    · omega

theorem bits_drain_lt (hsize : 0 < outSize) (p : Packer width) : (p.drain outSize).bits < outSize :=
  bits_drainFor_lt hsize p.bits (le_refl _)

/-- The digits written with what is left over, as one number. -/
theorem Holds.flush (h : Holds inSize outSize digits p) (hrest : p.bits < outSize)
    (hfits : outSize ≤ width) :
    ∃ pad, outSize * (p.flush outSize).length = inSize * digits.length + pad ∧ pad < outSize ∧
      numeral (2 ^ outSize) (p.flush outSize) = numeral (2 ^ inSize) digits * 2 ^ pad ∧
      ∀ d ∈ p.flush outSize, d < 2 ^ outSize := by
  have hcount := h.bits
  rw [Packer.flush]
  split
  · refine ⟨outSize - p.bits, ?_, by omega, ?_, ?_⟩
    · rw [List.length_append, List.length_singleton, Nat.mul_add, Nat.mul_one]
      omega
    · have hlast : (p.acc <<< (outSize - p.bits) &&&
          BitVec.ofNat width (2 ^ outSize - 1)).toNat =
            numeral (2 ^ inSize) digits % 2 ^ p.bits * 2 ^ (outSize - p.bits) := by
        rw [BitVec.toNat_and, toNat_mask hfits, Nat.and_two_pow_sub_one_eq_mod,
          BitVec.toNat_shiftLeft, Nat.shiftLeft_eq, h.acc,
          Nat.mod_mod_of_dvd _ (pow_dvd_pow 2 hfits), Nat.mul_mod,
          Nat.mod_mod_of_dvd _ (pow_dvd_pow 2 hfits), ← Nat.mul_mod]
        have hsplit : 2 ^ outSize = 2 ^ p.bits * 2 ^ (outSize - p.bits) := by
          rw [← pow_add]
          congr 1
          omega
        rw [hsplit, Nat.mul_mod_mul_right]
      have hsplit : 2 ^ outSize = 2 ^ p.bits * 2 ^ (outSize - p.bits) := by
        rw [← pow_add]
        congr 1
        omega
      rw [numeral_concat, hlast, h.out, hsplit, ← Nat.mul_assoc, ← Nat.add_mul,
        Nat.mul_comm _ (2 ^ p.bits), Nat.div_add_mod]
    · intro d hd
      rcases List.mem_append.1 hd with hd | hd
      · exact h.small d hd
      · rw [List.mem_singleton.1 hd, BitVec.toNat_and, toNat_mask hfits,
          Nat.and_two_pow_sub_one_eq_mod]
        exact Nat.mod_lt _ (Nat.two_pow_pos outSize)
  · have hzero : p.bits = 0 := by omega
    refine ⟨0, by omega, by omega, ?_, h.small⟩
    rw [h.out, hzero]
    simp

end Steps

end Packer
end Lib
