import Abtars.Lib.Repack
import Mathlib.Tactic.IntervalCases

/-!
# Doorbell payloads

The signed payloads of the peer doorbell protocol, the fixed-offset bytes they are
serialized to, and the unpadded lowercase base32 text a query payload travels as.

A function that reads or writes a buffer either returns, returns a `ParseError`, or throws
because it left the buffer or the range of a fixed-width number; the last two are the
two cases of `Abort`.
-/

namespace Abtars

open Lib

variable {size start stop : Nat} {buf : Bytes} {values : List Nat}

/-- The contents of a `Buffer`. -/
abbrev Bytes := List UInt8

inductive ParseErrorCode
  | tooShort | tooLong | badFlags | badCounts | compression | badLabel | badName | badSuffix
  | badBase32 | badLength | unknownVersion | unknownKind | badQtype | badQclass | trailing
  | responseMismatch | badTtl | multiTxt | extraRecords | responseTooLarge | ackQueryHash
  | badSelectorLength | badNonceLength | badRequestHashLength | badSignatureLength | badTxtString
  deriving DecidableEq

structure ParseError where
  code : ParseErrorCode
  detail : Option String
  deriving DecidableEq

/-- How a call ends that does not return what it computes: it returns an error, or a read or
write out of range throws. -/
inductive Abort
  | returned (e : ParseError)
  | thrown (offset : Nat)
  deriving DecidableEq

abbrev Attempt (α : Type) := Except Abort α

/-- `fail(code, detail)`. -/
def fail {α : Type} (code : ParseErrorCode) (detail : String) : Attempt α :=
  .error (.returned ⟨code, some detail⟩)

/-- `fail(code)`. -/
def failPlain {α : Type} (code : ParseErrorCode) : Attempt α :=
  .error (.returned ⟨code, none⟩)

/-! ## Fixed-width numbers -/

def bigEndian : (size : Nat) → (v : Nat) → Bytes
  | 0, _ => []
  | size + 1, v => bigEndian size (v / 256) ++ [UInt8.ofNat v]

variable (bytes : Bytes)

def numberOf : Nat := numeral 256 (bytes.map UInt8.toNat)

/-- `buf.subarray(start, stop)`, clamped to the buffer. -/
def subarray (buf : Bytes) (start stop : Nat) : Bytes :=
  (buf.take stop).drop start

def readBE (size : Nat) (buf : Bytes) (offset : Nat) : Attempt Nat :=
  if offset + size ≤ buf.length then .ok (numberOf (subarray buf offset (offset + size)))
  else .error (.thrown offset)

def u16BE (v : Nat) : Bytes := bigEndian 2 v

def u32BE (v : Nat) : Bytes := bigEndian 4 v

/-- `u64BE`: a number that does not fit throws. -/
def u64BE (v : Nat) : Attempt Bytes :=
  if v < 2 ^ 64 then .ok (bigEndian 8 v) else .error (.thrown 0)

def readUInt16BE (buf : Bytes) (offset : Nat) : Attempt Nat := readBE 2 buf offset

def readUInt32BE (buf : Bytes) (offset : Nat) : Attempt Nat := readBE 4 buf offset

def readU64BE (buf : Bytes) (offset : Nat) : Attempt Nat := readBE 8 buf offset

/-! ## Queries and acknowledgements -/

/-- `DoorbellQueryV1`; `version` and `kind` have the literal type 1. -/
structure DoorbellQuery where
  senderSelector : Bytes
  targetSelector : Bytes
  timestampSec : Nat
  nonce : Bytes
  signature : Bytes

/-- `DoorbellAckV1`; `version` has the literal type 1, `kind` the literal type 2. -/
structure DoorbellAck where
  responderSelector : Bytes
  requestNonce : Bytes
  requestHash : Bytes
  timestampSec : Nat
  signature : Bytes

structure DoorbellQuery.WellFormed (q : DoorbellQuery) : Prop where
  senderSelector : q.senderSelector.length = 16
  targetSelector : q.targetSelector.length = 16
  timestampSec : q.timestampSec < 2 ^ 64
  nonce : q.nonce.length = 16
  signature : q.signature.length = 64

structure DoorbellAck.WellFormed (a : DoorbellAck) : Prop where
  responderSelector : a.responderSelector.length = 16
  requestNonce : a.requestNonce.length = 16
  requestHash : a.requestHash.length = 16
  timestampSec : a.timestampSec < 2 ^ 64
  signature : a.signature.length = 64

def queryPayloadBytes : Nat := 122
def ackPayloadBytes : Nat := 122

def serializeQueryPayload (q : DoorbellQuery) : Attempt Bytes := do
  let timestamp ← u64BE q.timestampSec
  return [1, 1] ++ (q.senderSelector ++ (q.targetSelector ++ (timestamp ++ (q.nonce ++
    q.signature))))

def serializeAckPayload (a : DoorbellAck) : Attempt Bytes := do
  let timestamp ← u64BE a.timestampSec
  return [1, 2] ++ (a.responderSelector ++ (a.requestNonce ++ (a.requestHash ++ (timestamp ++
    a.signature))))

/-- A byte inside a message text, `undefined` past the end. -/
def byteText (byte : Option UInt8) : String :=
  (byte.map fun b => toString b.toNat).getD "undefined"

/-- `decodeQueryPayload`, its running offset written out. -/
def decodeQueryPayload (buf : Bytes) : Attempt DoorbellQuery :=
  if buf[0]? ≠ some 1 then fail .unknownVersion ("version=" ++ byteText buf[0]?)
  else if buf[1]? ≠ some 1 then fail .unknownKind ("kind=" ++ byteText buf[1]?)
  else if 2 + 16 > buf.length then failPlain .tooShort
  else if 18 + 16 > buf.length then failPlain .tooShort
  else if 34 + 8 > buf.length then failPlain .tooShort
  else do
    let timestampSec ← readU64BE buf 34
    if 42 + 16 > buf.length then failPlain .tooShort
    else if 58 + 64 > buf.length then failPlain .badSignatureLength
    else if 58 + 64 ≠ buf.length then fail .trailing "extra bytes in payload"
    else
      .ok
        { senderSelector := subarray buf 2 18
          targetSelector := subarray buf 18 34
          timestampSec := timestampSec
          nonce := subarray buf 42 58
          signature := subarray buf 58 122 }

/-- `decodeAckPayload`; unlike a query's, bytes after the signature are not refused. -/
def decodeAckPayload (buf : Bytes) : Attempt DoorbellAck :=
  if buf[0]? ≠ some 1 then failPlain .unknownVersion
  else if buf[1]? ≠ some 2 then failPlain .unknownKind
  else if 2 + 16 > buf.length then failPlain .badSelectorLength
  else if 18 + 16 > buf.length then failPlain .badNonceLength
  else if 34 + 16 > buf.length then failPlain .badRequestHashLength
  else if 50 + 8 > buf.length then failPlain .tooShort
  else do
    let timestampSec ← readU64BE buf 50
    if 58 + 64 > buf.length then failPlain .badSignatureLength
    else
      .ok
        { responderSelector := subarray buf 2 18
          requestNonce := subarray buf 18 34
          requestHash := subarray buf 34 50
          timestampSec := timestampSec
          signature := subarray buf 58 122 }

/-! ## Base32 -/

/-- `BASE32_ALPHABET`. -/
def base32Alphabet : List Char :=
  ['a', 'b', 'c', 'd', 'e', 'f', 'g', 'h', 'i', 'j', 'k', 'l', 'm', 'n', 'o', 'p',
    'q', 'r', 's', 't', 'u', 'v', 'w', 'x', 'y', 'z', '2', '3', '4', '5', '6', '7']

def base32Char (value : Nat) : Char := base32Alphabet.getD value 'a'

/-- The characters `[a-z2-7]`. -/
def isBase32Char (c : Char) : Bool :=
  (97 ≤ c.toNat ∧ c.toNat ≤ 122) ∨ (50 ≤ c.toNat ∧ c.toNat ≤ 55)

variable (data : Bytes)

/-- `base32Encode`, its accumulator a 32-bit integer. -/
def base32Encode : List Char :=
  let packed := data.foldl (fun p byte => (p.read 8 byte.toNat).drain 5) (Packer.start : Packer 32)
  (packed.flush 5).map base32Char

/-- One character of `base32Decode`. -/
def base32Read (p : Packer 32) (c : Char) : Attempt (Packer 32) :=
  match base32Alphabet.idxOf? c with
  | none => fail .badBase32 ("invalid char " ++ c.toString)
  | some value =>
    let p := p.read 5 value
    .ok (if 8 ≤ p.bits then p.emit 8 else p)

/-- `base32Decode`: the result buffer starts as zeros and takes the first `byteLen` bytes. -/
def base32Decode (s : List Char) : Attempt Bytes :=
  let cleaned := (s.map Char.toLower).filter isBase32Char
  if cleaned.length = 0 ∧ 0 < s.length then fail .badBase32 "invalid characters"
  else do
    let byteLen := cleaned.length * 5 / 8
    let packed ← cleaned.foldlM base32Read (Packer.start : Packer 32)
    return ((packed.out.map UInt8.ofNat) ++ List.replicate byteLen 0).take byteLen

/-! ## Numbers read back -/

@[simp]
theorem length_bigEndian (size v : Nat) : (bigEndian size v).length = size := by
  induction size generalizing v with
  | zero => rfl
  | succ size ih => simp [bigEndian, ih]

theorem numberOf_append (more : Bytes) :
    numberOf (bytes ++ more) = numberOf bytes * 256 ^ more.length + numberOf more := by
  simp [numberOf, numeral_append]

theorem numberOf_singleton (byte : UInt8) : numberOf [byte] = byte.toNat := by
  simp [numberOf, numeral]

theorem numberOf_lt : numberOf bytes < 256 ^ bytes.length := by
  have hsmall : ∀ d ∈ bytes.map UInt8.toNat, d < 256 := by
    intro d hd
    obtain ⟨byte, -, rfl⟩ := List.mem_map.1 hd
    exact byte.toNat_lt
  simpa [numberOf] using numeral_lt (by omega) hsmall

theorem numberOf_bigEndian {v : Nat} (hfits : v < 256 ^ size) :
    numberOf (bigEndian size v) = v := by
  induction size generalizing v with
  | zero =>
    have hzero : v = 0 := by simpa using hfits
    rw [hzero]
    rfl
  | succ size ih =>
    have hhigh : v / 256 < 256 ^ size := by
      exact Nat.div_lt_of_lt_mul (by omega)
    rw [bigEndian, numberOf_append, ih hhigh, numberOf_singleton, UInt8.toNat_ofNat']
    simp only [List.length_singleton, pow_one]
    omega

theorem bigEndian_numberOf : bigEndian bytes.length (numberOf bytes) = bytes := by
  induction bytes using List.reverseRecOn with
  | nil => rfl
  | append_singleton bytes byte ih =>
    have hbyte := byte.toNat_lt
    have hhigh : (numberOf bytes * 256 + byte.toNat) / 256 = numberOf bytes := by omega
    have hlow : UInt8.ofNat (numberOf bytes * 256 + byte.toNat) = byte := by
      apply UInt8.toNat_inj.1
      rw [UInt8.toNat_ofNat']
      omega
    rw [numberOf_append, numberOf_singleton, List.length_append, List.length_singleton, pow_one,
      bigEndian, hhigh, hlow, ih]

/-! ## Payloads read back -/

theorem length_subarray (hstop : stop ≤ buf.length) :
    (subarray buf start stop).length = stop - start := by
  simp [subarray, Nat.min_eq_left hstop]

theorem subarray_append {before field : Bytes} (more : Bytes)
    (hstart : before.length = start) (hstop : start + field.length = stop) :
    subarray (before ++ (field ++ more)) start stop = field := by
  subst hstart hstop
  simp [subarray, List.take_append]

theorem subarray_shift (before more : Bytes) (start stop : Nat) :
    subarray (before ++ more) (before.length + start) (before.length + stop) =
      subarray more start stop := by
  rw [subarray, subarray, List.take_length_add_append, List.drop_length_add_append]

theorem readBE_shift {before more : Bytes} {offset v : Nat}
    (hread : readBE size more offset = .ok v) :
    readBE size (before ++ more) (before.length + offset) = .ok v := by
  rw [readBE] at hread ⊢
  split at hread
  · rw [if_pos (by rw [List.length_append]; omega), Nat.add_assoc, subarray_shift]
    exact hread
  · cases hread

theorem subarray_parts {tag first second third fourth last : Bytes}
    (hbuf : tag ++ (first ++ (second ++ (third ++ (fourth ++ last)))) = buf) {i j k l m n : Nat}
    (hi : tag.length = i) (hj : i + first.length = j) (hk : j + second.length = k)
    (hl : k + third.length = l) (hm : l + fourth.length = m) (hn : m + last.length = n) :
    subarray buf i j = first ∧ subarray buf j k = second ∧ subarray buf k l = third ∧
      subarray buf l m = fourth ∧ subarray buf m n = last := by
  subst hbuf
  refine ⟨subarray_append _ hi hj, ?_, ?_, ?_, ?_⟩
  · rw [← List.append_assoc]
    exact subarray_append _ (by rw [List.length_append]; omega) hk
  · rw [← List.append_assoc, ← List.append_assoc]
    exact subarray_append _ (by simp only [List.length_append]; omega) hl
  · rw [← List.append_assoc, ← List.append_assoc, ← List.append_assoc]
    exact subarray_append _ (by simp only [List.length_append]; omega) hm
  · have hend : subarray (tag ++ first ++ second ++ third ++ fourth ++ (last ++ [])) m n = last :=
      subarray_append [] (by simp only [List.length_append]; omega) hn
    simpa using hend

theorem subarray_join (buf : Bytes) {middle : Nat} (hstart : start ≤ middle)
    (hstop : middle ≤ stop) :
    subarray buf start middle ++ subarray buf middle stop = subarray buf start stop := by
  have hcut : buf.take middle = (buf.take stop).take middle := by
    rw [List.take_take, Nat.min_eq_left hstop]
  rw [subarray, subarray, subarray, hcut]
  conv_rhs => rw [← List.take_append_drop middle (buf.take stop)]
  by_cases hlong : start ≤ ((buf.take stop).take middle).length
  · rw [List.drop_append_of_le_length hlong]
  have hshort : (buf.take stop).length < start := by
    rw [List.length_take] at hlong
    omega
  simp [List.drop_eq_nil_of_le (show (buf.take stop).length ≤ middle by omega),
    List.take_of_length_le (show (buf.take stop).length ≤ middle by omega)]

theorem subarray_whole (buf : Bytes) : subarray buf 0 buf.length = buf := by
  simp [subarray]

theorem subarray_two {first second : UInt8} (hfirst : buf[0]? = some first)
    (hsecond : buf[1]? = some second) : subarray buf 0 2 = [first, second] := by
  match buf, hfirst, hsecond with
  | _ :: _ :: _, hfirst, hsecond => simp_all [subarray]

theorem readBE_ok {offset : Nat} (hinside : offset + size ≤ buf.length) :
    readBE size buf offset = .ok (numberOf (subarray buf offset (offset + size))) :=
  if_pos hinside

theorem u64BE_ok {v : Nat} (hfits : v < 2 ^ 64) : u64BE v = .ok (bigEndian 8 v) :=
  if_pos hfits

theorem serializeQueryPayload_ok {q : DoorbellQuery} (hfits : q.timestampSec < 2 ^ 64) :
    serializeQueryPayload q = .ok ([1, 1] ++ (q.senderSelector ++ (q.targetSelector ++
      (bigEndian 8 q.timestampSec ++ (q.nonce ++ q.signature))))) := by
  simp [serializeQueryPayload, u64BE_ok hfits, bind, Except.bind, pure, Except.pure]

theorem serializeAckPayload_ok {a : DoorbellAck} (hfits : a.timestampSec < 2 ^ 64) :
    serializeAckPayload a = .ok ([1, 2] ++ (a.responderSelector ++ (a.requestNonce ++
      (a.requestHash ++ (bigEndian 8 a.timestampSec ++ a.signature))))) := by
  simp [serializeAckPayload, u64BE_ok hfits, bind, Except.bind, pure, Except.pure]

theorem bigEndian_subarray (hinside : start + size ≤ buf.length) :
    bigEndian size (numberOf (subarray buf start (start + size))) =
      subarray buf start (start + size) := by
  have hlength : (subarray buf start (start + size)).length = size := by
    rw [length_subarray hinside]
    omega
  calc bigEndian size (numberOf (subarray buf start (start + size)))
      = bigEndian (subarray buf start (start + size)).length
          (numberOf (subarray buf start (start + size))) := by rw [hlength]
    _ = subarray buf start (start + size) := bigEndian_numberOf _

theorem numberOf_subarray_lt (hinside : start + size ≤ buf.length) :
    numberOf (subarray buf start (start + size)) < 256 ^ size := by
  have hlt := numberOf_lt (subarray buf start (start + size))
  rw [length_subarray hinside] at hlt
  simpa using hlt

/-- **A query payload is accepted exactly when it is the serialization of the query read
from it.** -/
theorem decodeQueryPayload_eq_ok_iff (buf : Bytes) (q : DoorbellQuery) :
    decodeQueryPayload buf = .ok q ↔ q.WellFormed ∧ serializeQueryPayload q = .ok buf := by
  constructor
  · intro h
    unfold decodeQueryPayload at h
    split at h
    · cases h
    rename_i hversion
    split at h
    · cases h
    rename_i hkind
    split at h
    · cases h
    split at h
    · cases h
    split at h
    · cases h
    rw [readU64BE, readBE_ok (by omega)] at h
    simp only [bind, Except.bind] at h
    split at h
    · cases h
    split at h
    · cases h
    split at h
    · cases h
    have hlength : buf.length = 122 := by omega
    simp only [Except.ok.injEq] at h
    subst h
    have hstamp : numberOf (subarray buf 34 (34 + 8)) < 2 ^ 64 :=
      numberOf_subarray_lt (by omega)
    refine ⟨⟨?_, ?_, hstamp, ?_, ?_⟩, ?_⟩
    · exact length_subarray (by omega)
    · exact length_subarray (by omega)
    · exact length_subarray (by omega)
    · exact length_subarray (by omega)
    · have htag : ([1, 1] : Bytes) = subarray buf 0 2 :=
        (subarray_two (not_not.1 hversion) (not_not.1 hkind)).symm
      rw [serializeQueryPayload_ok hstamp, Except.ok.injEq, bigEndian_subarray (by omega),
        subarray_join buf (by omega) (by omega), subarray_join buf (by omega) (by omega),
        subarray_join buf (by omega) (by omega), subarray_join buf (by omega) (by omega), htag,
        subarray_join buf (by omega) (by omega), ← hlength, subarray_whole]
  · rintro ⟨hq, hbuf⟩
    rw [serializeQueryPayload_ok hq.timestampSec, Except.ok.injEq] at hbuf
    have hs := hq.senderSelector
    have ht := hq.targetSelector
    have hn := hq.nonce
    have hsig := hq.signature
    have hlength : buf.length = 122 := by
      rw [← hbuf]
      simp
      omega
    obtain ⟨hsender, htarget, hstamp, hnonce, hsignature⟩ := subarray_parts hbuf
      (i := 2) (j := 18) (k := 34) (l := 42) (m := 58) (n := 122) rfl (by omega) (by omega)
      (by simp) (by omega) (by omega)
    have hversion : buf[0]? = some 1 := by
      rw [← hbuf]
      rfl
    have hkind : buf[1]? = some 1 := by
      rw [← hbuf]
      rfl
    have hread : readU64BE buf 34 = .ok q.timestampSec := by
      rw [readU64BE, readBE_ok (by omega), hstamp, numberOf_bigEndian hq.timestampSec]
    simp only [decodeQueryPayload, hversion, hkind, hlength, hread, hsender, htarget, hnonce,
      hsignature]
    rfl

theorem decodeAckPayload_serialize {a : DoorbellAck} (ha : a.WellFormed) :
    ∃ buf, serializeAckPayload a = .ok buf ∧ buf.length = 122 ∧ decodeAckPayload buf = .ok a := by
  refine ⟨_, serializeAckPayload_ok ha.timestampSec, ?_, ?_⟩
  · simp [ha.responderSelector, ha.requestNonce, ha.requestHash, ha.signature]
  generalize hbuf : [1, 2] ++ (a.responderSelector ++ (a.requestNonce ++ (a.requestHash ++
    (bigEndian 8 a.timestampSec ++ a.signature)))) = buf
  have hr := ha.responderSelector
  have hn := ha.requestNonce
  have hh := ha.requestHash
  have hsig := ha.signature
  have hlength : buf.length = 122 := by
    rw [← hbuf]
    simp [hr, hn, hh, hsig]
  obtain ⟨hresponder, hnonce, hhash, hstamp, hsignature⟩ := subarray_parts hbuf
    (i := 2) (j := 18) (k := 34) (l := 50) (m := 58) (n := 122) rfl (by omega) (by omega)
    (by omega) (by simp) (by omega)
  have hversion : buf[0]? = some 1 := by
    rw [← hbuf]
    rfl
  have hkind : buf[1]? = some 2 := by
    rw [← hbuf]
    rfl
  have hread : readU64BE buf 50 = .ok a.timestampSec := by
    rw [readU64BE, readBE_ok (by omega), hstamp, numberOf_bigEndian ha.timestampSec]
  simp only [decodeAckPayload, hversion, hkind, hlength, hread, hresponder, hnonce, hhash,
    hsignature]
  rfl

/-! ## Base32 texts read back -/

theorem isBase32Char_base32Char {value : Nat} (hvalue : value < 32) :
    isBase32Char (base32Char value) = true ∧ (base32Char value).toLower = base32Char value ∧
      base32Alphabet.idxOf? (base32Char value) = some value := by
  revert value
  decide

theorem exists_base32Char {c : Char} (hc : isBase32Char c = true) :
    ∃ value < 32, base32Char value = c := by
  have hnumber : ∀ n : Nat, ((97 ≤ n ∧ n ≤ 122) ∨ (50 ≤ n ∧ n ≤ 55)) →
      ∃ value < 32, base32Char value = Char.ofNat n := by
    rintro n (⟨hlow, hhigh⟩ | ⟨hlow, hhigh⟩)
    · refine ⟨n - 97, by omega, ?_⟩
      interval_cases n <;> rfl
    · refine ⟨n - 50 + 26, by omega, ?_⟩
      interval_cases n <;> rfl
  obtain ⟨value, hvalue, hchar⟩ := hnumber c.toNat (by simpa [isBase32Char] using hc)
  exact ⟨value, hvalue, by rw [hchar, Char.ofNat_toNat]⟩

theorem exists_values {s : List Char} (hs : ∀ c ∈ s, isBase32Char c = true) :
    ∃ values : List Nat, (∀ v ∈ values, v < 32) ∧ values.map base32Char = s := by
  induction s with
  | nil => exact ⟨[], by simp, rfl⟩
  | cons c s ih =>
    obtain ⟨values, hvalues, htext⟩ := ih fun c' hc' => hs c' (List.mem_cons_of_mem _ hc')
    obtain ⟨value, hvalue, hchar⟩ := exists_base32Char (hs c List.mem_cons_self)
    refine ⟨value :: values, ?_, by rw [List.map_cons, hchar, htext]⟩
    intro v hv
    rcases List.mem_cons.1 hv with rfl | hv
    · exact hvalue
    · exact hvalues v hv

theorem packed_holds :
    Packer.Holds 8 5 (data.map UInt8.toNat)
        (data.foldl (fun p byte => (p.read 8 byte.toNat).drain 5) (Packer.start : Packer 32)) ∧
      (data.foldl (fun p byte => (p.read 8 byte.toNat).drain 5)
        (Packer.start : Packer 32)).bits < 5 := by
  induction data using List.reverseRecOn with
  | nil => exact ⟨Packer.holds_start 8 5, by decide⟩
  | append_singleton data byte ih =>
    obtain ⟨hholds, hbits⟩ := ih
    rw [List.foldl_concat, List.map_append]
    refine ⟨Packer.Holds.drain (hholds.read byte.toNat_lt (by omega)) ?_,
      Packer.bits_drain_lt (by omega) _⟩
    show Packer.bits _ + 8 ≤ 32
    omega

theorem base32Encode_values :
    ∃ (values : List Nat) (pad : Nat), base32Encode data = values.map base32Char ∧
      (∀ v ∈ values, v < 32) ∧ 5 * values.length = 8 * data.length + pad ∧ pad < 5 ∧
      numeral 32 values = numberOf data * 2 ^ pad := by
  obtain ⟨hholds, hbits⟩ := packed_holds data
  obtain ⟨pad, hlength, hpad, hnumber, hsmall⟩ := hholds.flush hbits (by omega)
  refine ⟨_, pad, rfl, hsmall, ?_, hpad, hnumber⟩
  simpa using hlength

theorem foldlM_base32Read (values : List Nat) (hvalues : ∀ v ∈ values, v < 32) :
    ∃ p : Packer 32, (values.map base32Char).foldlM base32Read Packer.start = .ok p ∧
      p.Holds 5 8 values ∧ p.bits < 8 := by
  induction values using List.reverseRecOn with
  | nil => exact ⟨Packer.start, rfl, Packer.holds_start 5 8, by decide⟩
  | append_singleton values value ih =>
    obtain ⟨p, hfold, hholds, hbits⟩ := ih fun v hv => hvalues v (List.mem_append_left _ hv)
    have hvalue : value < 32 := hvalues value (by simp)
    have hread : (p.read 5 value).Holds 5 8 (values ++ [value]) := hholds.read hvalue (by omega)
    have hcount : (p.read 5 value).bits = p.bits + 5 := rfl
    refine ⟨if 8 ≤ (p.read 5 value).bits then (p.read 5 value).emit 8 else p.read 5 value,
      ?_, ?_, ?_⟩
    · rw [List.map_append, List.foldlM_append, hfold]
      simp [base32Read, (isBase32Char_base32Char hvalue).2.2, bind, Except.bind, pure,
        Except.pure]
    · split
      · rename_i henough
        exact hread.emit henough (by omega)
      · exact hread
    · split
      · show (p.read 5 value).bits - 8 < 8
        omega
      · omega

theorem filter_map_base32Char (hvalues : ∀ v ∈ values, v < 32) :
    ((values.map base32Char).map Char.toLower).filter isBase32Char = values.map base32Char := by
  have hlower : (values.map base32Char).map Char.toLower = values.map base32Char := by
    rw [List.map_map]
    exact List.map_congr_left fun v hv => (isBase32Char_base32Char (hvalues v hv)).2.1
  rw [hlower, List.filter_eq_self]
  intro c hc
  obtain ⟨v, hv, rfl⟩ := List.mem_map.1 hc
  exact (isBase32Char_base32Char (hvalues v hv)).1

theorem base32Decode_values (hvalues : ∀ v ∈ values, v < 32) :
    ∃ data, base32Decode (values.map base32Char) = .ok data ∧
      data.length = values.length * 5 / 8 ∧
      numberOf data = numeral 32 values / 2 ^ (values.length * 5 % 8) := by
  obtain ⟨p, hfold, hholds, hbits⟩ := foldlM_base32Read values hvalues
  have hcount := hholds.bits
  have hout : p.out.length = values.length * 5 / 8 := by omega
  have hrest : p.bits = values.length * 5 % 8 := by omega
  have hbytes : (p.out.map UInt8.ofNat).map UInt8.toNat = p.out := by
    rw [List.map_map]
    conv_rhs => rw [← List.map_id p.out]
    refine List.map_congr_left fun d hd => ?_
    exact UInt8.toNat_ofNat_of_lt (hholds.small d hd)
  refine ⟨p.out.map UInt8.ofNat, ?_, by rw [List.length_map, hout], ?_⟩
  · have hsome : ¬ ((values.map base32Char).length = 0 ∧
        0 < (values.map base32Char).length) := by omega
    simp only [base32Decode, filter_map_base32Char hvalues]
    rw [if_neg hsome, hfold]
    show Except.ok (List.take _ _) = _
    rw [List.length_map, ← hout, List.take_left' (List.length_map _)]
  · rw [numberOf, hbytes, ← hrest]
    exact hholds.out

/-- **Every byte string reads back from its text.** -/
theorem base32Decode_encode : base32Decode (base32Encode data) = .ok data := by
  obtain ⟨values, pad, htext, hvalues, hlength, hpad, hnumber⟩ := base32Encode_values data
  obtain ⟨data', hdecode, hlength', hnumber'⟩ := base32Decode_values hvalues
  have hsame : data'.length = data.length := by omega
  have hrest : values.length * 5 % 8 = pad := by omega
  rw [htext, hdecode, Except.ok.injEq, ← bigEndian_numberOf data', ← bigEndian_numberOf data,
    hsame, hnumber', hnumber, hrest, Nat.mul_div_cancel _ (Nat.two_pow_pos pad)]

theorem base32Encode_decode {data : Bytes} (hvalues : ∀ v ∈ values, v < 32)
    (hdecode : base32Decode (values.map base32Char) = .ok data) (hfew : values.length * 5 % 8 < 5)
    (hclean : numeral 32 values % 2 ^ (values.length * 5 % 8) = 0) :
    base32Encode data = values.map base32Char := by
  obtain ⟨data', hdecode', hlength', hnumber'⟩ := base32Decode_values hvalues
  rw [hdecode, Except.ok.injEq] at hdecode'
  subst hdecode'
  obtain ⟨values', pad, htext, hsmall, hlength, hpad, hnumber⟩ := base32Encode_values data
  have hrest : values.length * 5 % 8 = pad := by omega
  have hsame : values' = values := by
    apply numeral_injective (by omega) (by omega) hsmall hvalues
    rw [hnumber, hnumber', hrest]
    rw [hrest] at hclean
    exact Nat.div_mul_cancel (Nat.dvd_of_mod_eq_zero hclean)
  rw [htext, hsame]

end Abtars
