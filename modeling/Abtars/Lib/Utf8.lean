import Mathlib.Algebra.Order.Ring.Nat
import Mathlib.Data.List.Induction
import Mathlib.Tactic.Common
import Abtars.Lib.Lines

/-!
# Decoding UTF-8

The decoder of byte streams that are UTF-8 or claim to be: a malformed sequence is
replaced up to the byte that cannot continue it.  The chunk decoder holds back the
bytes of a sequence its chunk leaves unfinished.
-/

namespace Lib.Utf8

def replacement : Char := '\uFFFD'

def byteLength (text : List Char) : Nat := (text.map Char.utf8Size).sum

def isContinuation (b : UInt8) : Bool := 0x80 ≤ b.toNat ∧ b.toNat < 0xC0

/-- A sequence under way: the bytes still needed, the bounds of the next one and the bits
read so far, which belong to no ASCII character. -/
structure Decoder where
  needed : Nat
  lower : Nat
  upper : Nat
  codePoint : Nat
  continues : 0x80 ≤ lower ∧ upper < 0xC0
  nonAscii : needed ≠ 0 → (needed = 1 → 2 ≤ codePoint) ∧
    (needed ≠ 1 → 2 ≤ codePoint * 64 + (lower - 0x80))

def Decoder.start : Decoder where
  needed := 0
  lower := 0x80
  upper := 0xBF
  codePoint := 0
  continues := by decide
  nonAscii := by decide

def lead (b : UInt8) : Decoder × List Char :=
  if b.toNat < 0x80 then (.start, [Char.ofNat b.toNat])
  else if h : 0xC2 ≤ b.toNat ∧ b.toNat < 0xE0 then
    ({ needed := 1
       lower := 0x80
       upper := 0xBF
       codePoint := b.toNat - 0xC0
       continues := by decide
       nonAscii := by omega }, [])
  else if h : 0xE0 ≤ b.toNat ∧ b.toNat < 0xF0 then
    ({ needed := 2
       -- neither overlong nor a surrogate
       lower := if b.toNat = 0xE0 then 0xA0 else 0x80
       upper := if b.toNat = 0xED then 0x9F else 0xBF
       codePoint := b.toNat - 0xE0
       continues := by split <;> split <;> omega
       nonAscii := by split <;> omega }, [])
  else if h : 0xF0 ≤ b.toNat ∧ b.toNat < 0xF5 then
    ({ needed := 3
       -- neither overlong nor beyond the last code point
       lower := if b.toNat = 0xF0 then 0x90 else 0x80
       upper := if b.toNat = 0xF4 then 0x8F else 0xBF
       codePoint := b.toNat - 0xF0
       continues := by split <;> split <;> omega
       nonAscii := by split <;> omega }, [])
  else (.start, [replacement])

/-- One byte: the sequence goes on, is complete, or is malformed and ends before it. -/
def step (s : Decoder) (b : UInt8) : Decoder × List Char :=
  if hneeded : s.needed = 0 then lead b
  else if h : s.lower ≤ b.toNat ∧ b.toNat ≤ s.upper then
    if hlast : s.needed = 1 then (.start, [Char.ofNat (s.codePoint * 64 + (b.toNat - 0x80))])
    else
      ({ needed := s.needed - 1
         lower := 0x80
         upper := 0xBF
         codePoint := s.codePoint * 64 + (b.toNat - 0x80)
         continues := by decide
         nonAscii := by
           have hbits := (s.nonAscii hneeded).2 hlast
           omega }, [])
  else ((lead b).1, replacement :: (lead b).2)

def finish (s : Decoder) : List Char := if s.needed = 0 then [] else [replacement]

def decodeFrom (s : Decoder) : List UInt8 → List Char
  | [] => finish s
  | b :: bytes => (step s b).2 ++ decodeFrom (step s b).1 bytes

def decode (bytes : List UInt8) : List Char := decodeFrom .start bytes

def after (s : Decoder) (bytes : List UInt8) : Decoder :=
  bytes.foldl (fun s b => (step s b).1) s

/-! ## The chunk decoder -/

def sequenceLength (b : UInt8) : Nat :=
  if 0xC0 ≤ b.toNat ∧ b.toNat < 0xE0 then 2
  else if 0xE0 ≤ b.toNat ∧ b.toNat < 0xF0 then 3
  else if 0xF0 ≤ b.toNat ∧ b.toNat < 0xF8 then 4
  else 1

/-- How many of the last bytes are an unfinished sequence, the last byte first. -/
def heldBack (seen : Nat) : List UInt8 → Nat
  | [] => 0
  | b :: earlier =>
    if isContinuation b then (if 4 ≤ seen + 1 then 0 else heldBack (seen + 1) earlier)
    else if seen + 1 < sequenceLength b then seen + 1
    else 0

/-- Decode a chunk after the bytes held back: the text, and what is held back now. -/
def write (pending chunk : List UInt8) : List Char × List UInt8 :=
  let bytes := pending ++ chunk
  let complete := bytes.length - heldBack 0 bytes.reverse
  (decode (bytes.take complete), bytes.drop complete)

section Split

variable {s : Decoder} {b : UInt8}

theorem continuation_bounds : isContinuation b = true ↔ 0x80 ≤ b.toNat ∧ b.toNat < 0xC0 := by
  simp [isContinuation]

theorem step_of_lead (s : Decoder) (hlead : isContinuation b = false) :
    step s b = ((lead b).1, finish s ++ (lead b).2) := by
  unfold step finish
  by_cases hneeded : s.needed = 0
  · simp [hneeded]
  have hbounds := s.continues
  have hout : ¬ (s.lower ≤ b.toNat ∧ b.toNat ≤ s.upper) := by
    intro h
    have hcontinues : isContinuation b = true := continuation_bounds.2 (by omega)
    rw [hcontinues] at hlead
    cases hlead
  simp [hneeded, hout]

theorem decodeFrom_of_idle (hidle : s.needed = 0) (bytes : List UInt8) :
    decodeFrom s bytes = decode bytes := by
  cases bytes with
  | nil => simp [decode, decodeFrom, finish, hidle, Decoder.start]
  | cons b bytes => simp [decode, decodeFrom, step, hidle, Decoder.start]

/-- **Decoding splits before a byte that continues nothing.** -/
theorem decodeFrom_append_lead (hlead : isContinuation b = false) (done rest : List UInt8) :
    ∀ s, decodeFrom s (done ++ b :: rest) = decodeFrom s done ++ decode (b :: rest) := by
  induction done with
  | nil =>
    intro s
    simp [decode, decodeFrom, step_of_lead _ hlead, finish, Decoder.start]
  | cons a done ih =>
    intro s
    rw [List.cons_append, decodeFrom, ih, decodeFrom, List.append_assoc]

theorem decode_append_lead (hlead : isContinuation b = false) (done rest : List UInt8) :
    decode (done ++ b :: rest) = decode done ++ decode (b :: rest) :=
  decodeFrom_append_lead hlead done rest .start

theorem decodeFrom_append_idle (rest done : List UInt8) :
    ∀ s, (after s done).needed = 0 →
      decodeFrom s (done ++ rest) = decodeFrom s done ++ decode rest := by
  induction done with
  | nil =>
    intro s hidle
    have hidle : s.needed = 0 := hidle
    rw [List.nil_append, decodeFrom_of_idle hidle, decodeFrom, finish, if_pos hidle,
      List.nil_append]
  | cons a done ih =>
    intro s hidle
    rw [List.cons_append, decodeFrom, ih _ hidle, decodeFrom, List.append_assoc]

theorem after_append (s : Decoder) (done more : List UInt8) :
    after s (done ++ more) = after (after s done) more := List.foldl_append

theorem after_of_idle (hidle : s.needed = 0) (bytes : List UInt8) :
    (after s bytes).needed = (after .start bytes).needed := by
  cases bytes with
  | nil => exact hidle
  | cons b bytes =>
    have hstep : (step s b).1 = (step .start b).1 := by simp [step, hidle, Decoder.start]
    rw [after, List.foldl_cons, hstep]
    rfl

theorem after_of_lead (s : Decoder) (hlead : isContinuation b = false) (bytes : List UInt8) :
    after s (b :: bytes) = after .start (b :: bytes) := by
  have hstep : (step s b).1 = (step .start b).1 := by
    rw [step_of_lead _ hlead, step_of_lead _ hlead]
  rw [after, List.foldl_cons, hstep]
  rfl

theorem decode_ascii (hascii : b.toNat < 0x80) (rest : List UInt8) :
    decode (b :: rest) = Char.ofNat b.toNat :: decode rest := by
  have hlead : lead b = (.start, [Char.ofNat b.toNat]) := by rw [lead, if_pos hascii]
  have hfirst : isContinuation b = false := by
    rw [Bool.eq_false_iff]
    intro h
    have hbounds := continuation_bounds.1 h
    omega
  rw [decode, decodeFrom, step_of_lead _ hfirst, hlead]
  simp [finish, Decoder.start, decode]

end Split

/-! ## Characters that are no ASCII characters -/

def NonAscii (c : Char) : Prop := ∃ n, 0x80 ≤ n ∧ c = Char.ofNat n

theorem nonAscii_replacement : NonAscii replacement := ⟨0xFFFD, by decide, rfl⟩

theorem toNat_ofNat (n : Nat) : (Char.ofNat n).toNat = if n.isValidChar then n else 0 := by
  by_cases hvalid : n.isValidChar
  · rw [Char.ofNat, dif_pos hvalid, if_pos hvalid]
    rfl
  · rw [Char.ofNat, dif_neg hvalid, if_neg hvalid]
    rfl

theorem NonAscii.ne {c : Char} (h : NonAscii c) {n : Nat} (hpos : 0 < n) (hascii : n < 0x80) :
    c ≠ Char.ofNat n := by
  obtain ⟨m, hm, rfl⟩ := h
  intro heq
  have hnat := congrArg Char.toNat heq
  rw [toNat_ofNat, toNat_ofNat] at hnat
  have hvalid : n.isValidChar := .inl (by omega)
  split at hnat
  · omega
  · omega

theorem nonAscii_finish (s : Decoder) : ∀ c ∈ finish s, NonAscii c := by
  intro c hc
  unfold finish at hc
  split at hc
  · cases hc
  · rw [List.mem_singleton.1 hc]
    exact nonAscii_replacement

theorem nonAscii_lead {b : UInt8} (hb : 0x80 ≤ b.toNat) : ∀ c ∈ (lead b).2, NonAscii c := by
  intro c hc
  unfold lead at hc
  split at hc
  · omega
  split at hc
  · cases hc
  split at hc
  · cases hc
  split at hc
  · cases hc
  · rw [List.mem_singleton.1 hc]
    exact nonAscii_replacement

theorem nonAscii_step {b : UInt8} (s : Decoder) (hb : 0x80 ≤ b.toNat) :
    ∀ c ∈ (step s b).2, NonAscii c := by
  intro c hc
  unfold step at hc
  split at hc
  · exact nonAscii_lead hb c hc
  rename_i hneeded
  split at hc
  · split at hc
    · rename_i hbounds hlast
      rw [List.mem_singleton.1 hc]
      have hbits := (s.nonAscii hneeded).1 hlast
      exact ⟨_, by omega, rfl⟩
    · cases hc
  · rcases List.mem_cons.1 hc with rfl | hlead
    · exact nonAscii_replacement
    · exact nonAscii_lead hb c hlead

variable (bytes : List UInt8)

theorem mem_decodeFrom {c : Char} :
    ∀ s, c ∈ decodeFrom s bytes →
      NonAscii c ∨ ∃ b ∈ bytes, b.toNat < 0x80 ∧ c = Char.ofNat b.toNat := by
  induction bytes with
  | nil =>
    intro s hc
    exact .inl (nonAscii_finish s c hc)
  | cons b bytes ih =>
    intro s hc
    rcases List.mem_append.1 hc with hnow | hrest
    · by_cases hb : 0x80 ≤ b.toNat
      · exact .inl (nonAscii_step s hb c hnow)
      have hfirst : isContinuation b = false := by
        rw [Bool.eq_false_iff]
        intro h
        have hbounds := continuation_bounds.1 h
        omega
      rw [step_of_lead _ hfirst] at hnow
      rcases List.mem_append.1 hnow with hended | hchar
      · exact .inl (nonAscii_finish s c hended)
      · rw [lead, if_pos (by omega)] at hchar
        exact .inr ⟨b, List.mem_cons_self, by omega, List.mem_singleton.1 hchar⟩
    · rcases ih _ hrest with hnon | ⟨b', hb', hascii⟩
      · exact .inl hnon
      · exact .inr ⟨b', List.mem_cons_of_mem _ hb', hascii⟩

theorem nonAscii_decodeFrom_single {b : UInt8} (s : Decoder) (hb : 0x80 ≤ b.toNat) :
    decodeFrom s [b] ≠ [] ∧ ∀ c ∈ decodeFrom s [b], NonAscii c := by
  constructor
  · unfold decodeFrom decodeFrom step lead finish
    split
    · split
      · omega
      split
      · simp
      · split
        · simp
        · split <;> simp [Decoder.start]
    · split
      · split
        · simp
        · have hmore : s.needed - 1 ≠ 0 := by omega
          simp [hmore]
      · simp
  · intro c hc
    rcases mem_decodeFrom [b] s hc with hnon | ⟨b', hb', hascii, -⟩
    · exact hnon
    · rw [List.mem_singleton.1 hb'] at hascii
      omega

/-- The text of a sequence of two bytes or more starts with no ASCII character. -/
theorem nonAscii_head :
    ∀ s : Decoder, s.needed ≠ 0 → ∀ c, (decodeFrom s bytes).head? = some c → NonAscii c := by
  induction bytes with
  | nil =>
    intro s hneeded c hc
    exact nonAscii_finish s c (List.mem_of_mem_head? hc)
  | cons b bytes ih =>
    intro s hneeded c hc
    by_cases hcontinues : isContinuation b = true
    · have hbounds := continuation_bounds.1 hcontinues
      rw [decodeFrom] at hc
      cases hout : (step s b).2 with
      | nil =>
        rw [hout, List.nil_append] at hc
        refine ih _ ?_ c hc
        unfold step at hout ⊢
        rw [dif_neg hneeded] at hout ⊢
        split
        · rename_i hgoes
          rw [dif_pos hgoes] at hout
          split
          · rename_i hlast
            rw [dif_pos hlast] at hout
            cases hout
          · show s.needed - 1 ≠ 0
            omega
        · rename_i hstops
          rw [dif_neg hstops] at hout
          cases hout
      | cons first out =>
        rw [hout] at hc
        obtain rfl : first = c := Option.some.inj hc
        exact nonAscii_step s hbounds.1 first (by rw [hout]; exact List.mem_cons_self)
    · rw [decodeFrom, step_of_lead _ (by simpa using hcontinues), finish, if_neg hneeded] at hc
      obtain rfl : replacement = c := Option.some.inj hc
      exact nonAscii_replacement

/-- A text starts with an ASCII character exactly when its bytes do. -/
theorem head_decode_iff {a : UInt8} (hpos : 0 < a.toNat) (hascii : a.toNat < 0x80)
    (bytes : List UInt8) :
    (decode bytes).head? = some (Char.ofNat a.toNat) ↔ bytes.head? = some a := by
  cases bytes with
  | nil => simp [decode, decodeFrom, finish, Decoder.start]
  | cons b bytes =>
    by_cases hb : b.toNat < 0x80
    · rw [decode_ascii hb, List.head?_cons, List.head?_cons, Option.some.injEq, Option.some.injEq]
      constructor
      · intro heq
        have hnat := congrArg Char.toNat heq
        rw [toNat_ofNat, toNat_ofNat, if_pos (.inl (by omega)),
          if_pos (.inl (by omega))] at hnat
        exact UInt8.toNat_inj.1 hnat
      · rintro rfl
        rfl
    · constructor
      · intro hhead
        refine absurd rfl (NonAscii.ne ?_ hpos hascii)
        have hbig : 0x80 ≤ b.toNat := by omega
        rw [decode, decodeFrom] at hhead
        cases hout : (step .start b).2 with
        | cons first out =>
          rw [hout] at hhead
          obtain rfl : first = Char.ofNat a.toNat := Option.some.inj hhead
          exact nonAscii_step .start hbig _ (by rw [hout]; exact List.mem_cons_self)
        | nil =>
          rw [hout, List.nil_append] at hhead
          refine nonAscii_head bytes _ ?_ _ hhead
          have hlead : step .start b = lead b := rfl
          rw [hlead] at hout ⊢
          unfold lead at hout ⊢
          split
          · omega
          split
          · simp
          split
          · simp
          split
          · simp
          · rename_i h1 h2 h3 h4
            rw [if_neg h1, dif_neg h2, dif_neg h3, dif_neg h4] at hout
            cases hout
      · intro hsame
        obtain rfl : b = a := Option.some.inj hsame
        omega

theorem decodeFrom_append (done rest : List UInt8) :
    ∀ s, ∃ text, decodeFrom s (done ++ rest) = text ++ decodeFrom (after s done) rest := by
  induction done with
  | nil =>
    intro s
    exact ⟨[], rfl⟩
  | cons b done ih =>
    intro s
    obtain ⟨text, htext⟩ := ih (step s b).1
    refine ⟨(step s b).2 ++ text, ?_⟩
    rw [List.cons_append, decodeFrom, htext, List.append_assoc]
    rfl

/-- A text ends with an ASCII character exactly when its bytes do. -/
theorem decode_append_ascii_iff {a : UInt8} (hpos : 0 < a.toNat) (hascii : a.toNat < 0x80)
    (bytes : List UInt8) (text : List Char) :
    decode bytes = text ++ [Char.ofNat a.toNat] ↔
      ∃ line, bytes = line ++ [a] ∧ decode line = text := by
  have hfirst : ∀ b : UInt8, b.toNat < 0x80 → isContinuation b = false := by
    intro b hb
    rw [Bool.eq_false_iff]
    intro h
    have hbounds := continuation_bounds.1 h
    omega
  have hone : ∀ (line : List UInt8) (b : UInt8), b.toNat < 0x80 →
      decode (line ++ [b]) = decode line ++ [Char.ofNat b.toNat] := by
    intro line b hb
    rw [decode_append_lead (hfirst b hb) line [], decode_ascii hb]
    rfl
  constructor
  · intro htext
    induction bytes using List.reverseRecOn with
    | nil => simp [decode, decodeFrom, finish, Decoder.start] at htext
    | append_singleton line b _ =>
      by_cases hb : b.toNat < 0x80
      · rw [hone line b hb] at htext
        obtain ⟨hline, hlast⟩ := List.append_inj' htext rfl
        have hnat := congrArg Char.toNat (List.singleton_inj.1 hlast)
        rw [toNat_ofNat, toNat_ofNat, if_pos (.inl (by omega)),
          if_pos (.inl (by omega))] at hnat
        rw [UInt8.toNat_inj.1 hnat]
        exact ⟨line, rfl, hline⟩
      · obtain ⟨out, hout⟩ := decodeFrom_append line [b] .start
        have hbig : 0x80 ≤ b.toNat := by omega
        obtain ⟨hsome, hnon⟩ := nonAscii_decodeFrom_single (after .start line) hbig
        have hlast := congrArg List.getLast? (hout.symm.trans htext)
        rw [List.getLast?_append_of_ne_nil _ hsome, List.getLast?_concat] at hlast
        exact absurd rfl ((hnon _ (List.mem_of_getLast? hlast)).ne hpos hascii)
  · rintro ⟨line, rfl, rfl⟩
    exact hone line a hascii

/-! ## What is held back -/

def CutAt (done held : List UInt8) : Prop :=
  held = [] ∧ (after .start done).needed = 0 ∨
    ∃ b rest, held = b :: rest ∧ 0xC0 ≤ b.toNat ∧ ∀ a ∈ rest, isContinuation a = true

/-- Cut after cut, the texts are that of the bytes. -/
theorem CutAt.append {done held chunk more held' : List UInt8} (h : CutAt done held)
    (hchunk : held ++ chunk = more ++ held') (hmore : CutAt more held') :
    CutAt (done ++ more) held' ∧ decode (done ++ more) = decode done ++ decode more := by
  have hsplit : (after .start (done ++ more)).needed = (after .start more).needed ∧
      decode (done ++ more) = decode done ++ decode more ∨ more = [] := by
    rw [after_append]
    rcases h with ⟨-, hidle⟩ | ⟨b, rest, rfl, hb, -⟩
    · exact .inl ⟨after_of_idle hidle more, decodeFrom_append_idle more done .start hidle⟩
    have hfirst : isContinuation b = false := by
      rw [Bool.eq_false_iff]
      intro h
      have hbounds := continuation_bounds.1 h
      omega
    cases more with
    | nil => exact .inr rfl
    | cons a more =>
      obtain ⟨rfl, -⟩ := List.cons_eq_cons.1 hchunk
      exact .inl ⟨by rw [after_of_lead _ hfirst], decode_append_lead hfirst done more⟩
  constructor
  · rcases hmore with ⟨rfl, hidle⟩ | hheld
    · rcases hsplit with ⟨hafter, -⟩ | rfl
      · exact .inl ⟨rfl, hafter.trans hidle⟩
      -- nothing was written and nothing is held: nothing was held before
      obtain ⟨rfl, -⟩ := List.append_eq_nil_iff.1 hchunk
      rw [List.append_nil]
      exact h
    · exact .inr hheld
  · rcases hsplit with ⟨-, hdecode⟩ | rfl
    · exact hdecode
    · rw [List.append_nil]
      show decode done = decode done ++ []
      rw [List.append_nil]

/-- What is held back is an unfinished sequence. -/
theorem heldBack_spec :
    ∀ seen, heldBack seen bytes = 0 ∨
      ∃ rest b earlier, bytes = rest ++ b :: earlier ∧ (∀ a ∈ rest, isContinuation a = true) ∧
        0xC0 ≤ b.toNat ∧ heldBack seen bytes = seen + rest.length + 1 := by
  induction bytes with
  | nil =>
    intro seen
    exact .inl rfl
  | cons a bytes ih =>
    intro seen
    by_cases hcontinues : isContinuation a = true
    · rw [heldBack, if_pos hcontinues]
      split
      · exact .inl rfl
      rcases ih (seen + 1) with hnone | ⟨rest, b, earlier, rfl, hrest, hb, hheld⟩
      · exact .inl hnone
      refine .inr ⟨a :: rest, b, earlier, rfl, ?_, hb, ?_⟩
      · exact List.forall_mem_cons.2 ⟨hcontinues, hrest⟩
      · rw [hheld, List.length_cons]
        omega
    · rw [heldBack, if_neg hcontinues]
      split
      · rename_i hlonger
        refine .inr ⟨[], a, bytes, rfl, by simp, ?_, rfl⟩
        unfold sequenceLength at hlonger
        split at hlonger
        · omega
        · split at hlonger
          · omega
          · split at hlonger <;> omega
      · exact .inl rfl

theorem lead_cases (b : UInt8) :
    (lead b).1.needed = 0 ∨
    (0xC2 ≤ b.toNat ∧ b.toNat < 0xE0) ∧ (lead b).1.needed = 1 ∨
    (0xE0 ≤ b.toNat ∧ b.toNat < 0xF0) ∧ (lead b).1.needed = 2 ∨
    (0xF0 ≤ b.toNat ∧ b.toNat < 0xF5) ∧ (lead b).1.needed = 3 := by
  unfold lead
  split
  · exact .inl rfl
  split
  · rename_i h
    exact .inr (.inl ⟨h, rfl⟩)
  split
  · rename_i h
    exact .inr (.inr (.inl ⟨h, rfl⟩))
  split
  · rename_i h
    exact .inr (.inr (.inr ⟨h, rfl⟩))
  · exact .inl rfl

theorem sequenceLength_of_lead {b : UInt8} (hneeded : (lead b).1.needed ≠ 0) :
    sequenceLength b = 1 + (lead b).1.needed := by
  unfold sequenceLength
  rcases lead_cases b with hnone | ⟨hb, hone⟩ | ⟨hb, htwo⟩ | ⟨hb, hthree⟩
  · exact absurd hnone hneeded
  · rw [if_pos (by omega), hone]
  · rw [if_neg (by omega), if_pos (by omega), htwo]
  · rw [if_neg (by omega), if_neg (by omega), if_pos (by omega), hthree]

theorem sequenceLength_le (b : UInt8) : sequenceLength b ≤ 4 := by
  unfold sequenceLength
  split
  · omega
  · split
    · omega
    · split <;> omega

/-- A byte that continues a sequence is one less to come, unless it ends it. -/
theorem needed_of_continuation {s : Decoder} {b : UInt8} (hcontinues : isContinuation b = true)
    (hneeded : (step s b).1.needed ≠ 0) : s.needed = (step s b).1.needed + 1 := by
  have hbounds := continuation_bounds.1 hcontinues
  have hnoLead : (lead b).1.needed = 0 := by
    rcases lead_cases b with hnone | ⟨hb, -⟩ | ⟨hb, -⟩ | ⟨hb, -⟩
    · exact hnone
    · omega
    · omega
    · omega
  unfold step at hneeded ⊢
  split
  · rename_i hidle
    rw [dif_pos hidle] at hneeded
    exact absurd hnoLead hneeded
  rename_i hunder
  rw [dif_neg hunder] at hneeded
  split
  · rename_i hgoes
    rw [dif_pos hgoes] at hneeded
    split
    · rename_i hlast
      rw [dif_pos hlast] at hneeded
      exact absurd rfl hneeded
    · show s.needed = s.needed - 1 + 1
      omega
  · rename_i hstops
    rw [dif_neg hstops] at hneeded
    exact absurd hnoLead hneeded

/-- A sequence under way is the end of the bytes. -/
theorem unfinished_of_after :
    (after .start bytes).needed ≠ 0 →
    ∃ done b rest, bytes = done ++ b :: rest ∧ (∀ a ∈ rest, isContinuation a = true) ∧
      isContinuation b = false ∧
      sequenceLength b = rest.length + 1 + (after .start bytes).needed := by
  induction bytes using List.reverseRecOn with
  | nil =>
    intro hneeded
    exact absurd rfl hneeded
  | append_singleton bytes b ih =>
    have hafter : after .start (bytes ++ [b]) = (step (after .start bytes) b).1 := by
      rw [after, List.foldl_append]
      rfl
    rw [hafter]
    intro hneeded
    cases hcontinues : isContinuation b with
    | false =>
      rw [step_of_lead _ hcontinues] at hneeded ⊢
      exact ⟨bytes, b, [], rfl, by simp, hcontinues, sequenceLength_of_lead hneeded⟩
    | true =>
      have hbefore := needed_of_continuation hcontinues hneeded
      obtain ⟨done, first, rest, hbytes, hrest, hfirst, hlength⟩ := ih (by omega)
      refine ⟨done, first, rest ++ [b], ?_, ?_, hfirst, ?_⟩
      · rw [hbytes, List.append_assoc, List.cons_append]
      · intro a ha
        rcases List.mem_append.1 ha with hold | hnew
        · exact hrest a hold
        · rw [List.mem_singleton.1 hnew]
          exact hcontinues
      · rw [List.length_append, List.length_singleton]
        omega

theorem heldBack_of_unfinished {b : UInt8} (hb : isContinuation b = false)
    (rest earlier : List UInt8) :
    ∀ seen, (∀ a ∈ rest, isContinuation a = true) →
      seen + rest.length + 1 < sequenceLength b →
      heldBack seen (rest ++ b :: earlier) = seen + rest.length + 1 := by
  have hfour := sequenceLength_le b
  induction rest with
  | nil =>
    intro seen _ hshort
    have hnow : seen + 1 < sequenceLength b := hshort
    rw [List.nil_append, heldBack, hb, if_neg (by simp), if_pos hnow]
    rfl
  | cons a rest ih =>
    intro seen hrest hshort
    obtain ⟨ha, hrest⟩ := List.forall_mem_cons.1 hrest
    rw [List.length_cons] at hshort ⊢
    rw [List.cons_append, heldBack, if_pos ha, if_neg (by omega),
      ih (seen + 1) hrest (by omega)]
    omega

/-- **A chunk is decoded up to an unfinished sequence.** -/
theorem write_spec (pending chunk : List UInt8) :
    ∃ done, pending ++ chunk = done ++ (write pending chunk).2 ∧
      (write pending chunk).1 = decode done ∧ CutAt done (write pending chunk).2 := by
  refine ⟨_, (List.take_append_drop _ _).symm, rfl, ?_⟩
  unfold write
  dsimp only
  rcases heldBack_spec (pending ++ chunk).reverse 0 with
    hnone | ⟨rest, b, earlier, hreverse, hrest, hb, hheld⟩
  · left
    rw [hnone, Nat.sub_zero, List.drop_length, List.take_length]
    refine ⟨rfl, ?_⟩
    by_contra hneeded
    obtain ⟨done, b, rest, hbytes, hrest, hb, hlength⟩ := unfinished_of_after _ hneeded
    have hheld := heldBack_of_unfinished hb rest.reverse done.reverse 0
      (fun a ha => hrest a (List.mem_reverse.1 ha)) (by rw [List.length_reverse]; omega)
    rw [hbytes] at hnone
    rw [List.reverse_append, List.reverse_cons, List.append_assoc, List.singleton_append] at hnone
    omega
  · right
    have hbytes : pending ++ chunk = earlier.reverse ++ b :: rest.reverse := by
      rw [← List.reverse_reverse (pending ++ chunk), hreverse]
      simp
    have hcomplete : (pending ++ chunk).length - heldBack 0 (pending ++ chunk).reverse =
        earlier.reverse.length := by
      rw [hheld, hbytes]
      simp
    rw [hcomplete, hbytes, List.drop_left]
    exact ⟨b, rest.reverse, rfl, hb, fun a ha => hrest a (List.mem_reverse.1 ha)⟩

/-! ## Lines -/

theorem cutLines_decode :
    cutLines '\n' (decode bytes) =
      ((cutLines 10 bytes).1.map decode, decode (cutLines 10 bytes).2) := by
  have hopen : ∀ line : List UInt8, 10 ∉ line → '\n' ∉ decode line := by
    intro line hline hmem
    rcases mem_decodeFrom line .start hmem with hnon | ⟨b, hb, hascii, hchar⟩
    · exact hnon.ne (by decide : 0 < 10) (by decide) rfl
    have hten : b = 10 := by
      have hnat := congrArg Char.toNat hchar
      rw [toNat_ofNat b.toNat, if_pos (.inl (by omega))] at hnat
      exact UInt8.toNat_inj.1 hnat.symm
    exact hline (hten ▸ hb)
  induction bytes using lines_induction (10 : UInt8) with
  | tail bytes h =>
    rw [cutLines_of_not_mem h, cutLines_of_not_mem (hopen bytes h)]
    rfl
  | line line rest h ih =>
    rw [cutLines_append_sep h, decode_append_lead (by decide) line rest,
      decode_ascii (by decide) rest]
    show cutLines '\n' (decode line ++ '\n' :: decode rest) = _
    rw [cutLines_append_sep (hopen line h), ih]
    rfl

end Lib.Utf8
