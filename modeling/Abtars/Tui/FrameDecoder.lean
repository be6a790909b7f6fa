import Abtars.Pi.JsonlReader

/-!
# The frame decoder of the TUI socket

A frame is a JSON text ended by LF; a CR before the LF is dropped.  The decoder takes the stream
in chunks, keeps the line that is still open and fails for good at a line beyond the limit.
-/

namespace Abtars

open Lib

/-- The limit of a decoder, and `JSON.stringify` and `JSON.parse` on the bytes of a text: no
control character is written, and what is written is read back. -/
structure FrameCodec (T : Type) where
  maxBytes : Nat
  stringify : T → List UInt8
  parse : List UInt8 → Option T
  nonempty : ∀ t, stringify t ≠ []
  plain : ∀ t, ∀ b ∈ stringify t, 32 ≤ b.toNat
  parse_stringify : ∀ t, parse (stringify t) = some t

structure TuiFrameDecodeError where
  code : String
  message : String
  maxBytes : Nat

/-- `errors` are the calls of `onFatal`. -/
structure FrameDecoder where
  failed : Bool
  fatalCalled : Bool
  remainder : List UInt8
  errors : List TuiFrameDecodeError

namespace FrameDecoder

def createFrameDecoder : FrameDecoder := ⟨false, false, [], []⟩

def bufferedBytes (d : FrameDecoder) : Nat := d.remainder.length

def newLineTooLargeError (maxBytes actual : Nat) : TuiFrameDecodeError :=
  ⟨"overflow", s!"Frame exceeds {maxBytes} byte limit (found {actual})", maxBytes⟩

def fatal (error : TuiFrameDecodeError) (d : FrameDecoder) : FrameDecoder where
  failed := true
  fatalCalled := true
  remainder := []
  errors := if d.fatalCalled then d.errors else d.errors ++ [error]

end FrameDecoder

namespace FrameCodec

open FrameDecoder

variable {T : Type}

section Decoding

variable (c : FrameCodec T)

def encodeFrame (f : T) : List UInt8 := c.stringify f ++ [10]

/-- The frame of a line, unless it is empty or malformed. -/
def frameOf (line : List UInt8) : Option T :=
  if 0 < (stripCrByte line).length then c.parse (stripCrByte line) else none

/-- `processChunk`, on the lines that LFs end and what follows them: the frames, and what is
retained or the length that is beyond the limit. -/
def processChunk : List (List UInt8) → List UInt8 → List T × Except Nat (List UInt8)
  | [], rest => ([], if c.maxBytes < rest.length then .error rest.length else .ok rest)
  | line :: lines, rest =>
    let lineLenNoCr := (stripCrByte line).length
    if c.maxBytes < lineLenNoCr then ([], .error lineLenNoCr)
    else ((c.frameOf line).toList ++ (processChunk lines rest).1, (processChunk lines rest).2)

def push (d : FrameDecoder) (chunk : List UInt8) : FrameDecoder × List T :=
  if d.failed then (d, [])
  else
    let (lines, rest) := cutLines 10 (d.remainder ++ chunk)
    match c.processChunk lines rest with
    | (out, .error actual) => (d.fatal (newLineTooLargeError c.maxBytes actual), out)
    | (out, .ok remainder) => ({ d with remainder }, out)

def pushAll (d : FrameDecoder) : List (List UInt8) → FrameDecoder × List T
  | [] => (d, [])
  | chunk :: chunks =>
    let (next, out) := c.push d chunk
    ((pushAll next chunks).1, out ++ (pushAll next chunks).2)

/-- The frames of a stream, whether it failed, and the number of calls of `onFatal`. -/
def decodeChunks (chunks : List (List UInt8)) : List T × Bool × Nat :=
  let (d, out) := c.pushAll createFrameDecoder chunks
  (out, d.failed, d.errors.length)

/-- There is a line beyond the limit and no frame before it. -/
def endsBare : List (List UInt8) → List UInt8 → Bool
  | [], rest => c.maxBytes < rest.length
  | line :: lines, rest =>
    c.maxBytes < (stripCrByte line).length || (c.frameOf line).isNone && endsBare lines rest

/-- Up to a line beyond the limit, no line exceeds it by its CR unless no frame is lost there. -/
def cuttable : List (List UInt8) → List UInt8 → Bool
  | [], _ => true
  | line :: lines, rest =>
    c.maxBytes < (stripCrByte line).length ||
      (line.length ≤ c.maxBytes || c.endsBare (line :: lines) rest) &&
        cuttable lines rest

def CuttableStream (bytes : List UInt8) : Prop :=
  c.cuttable (cutLines 10 bytes).1 (cutLines 10 bytes).2 = true

/-- The frames of a chunk, and whether it fails. -/
def verdict (lines : List (List UInt8)) (rest : List UInt8) : List T × Bool :=
  ((c.processChunk lines rest).1, (c.processChunk lines rest).2.toOption.isNone)

def streamVerdict (bytes : List UInt8) : List T × Bool :=
  c.verdict (cutLines 10 bytes).1 (cutLines 10 bytes).2

end Decoding

section Chunks

variable {c : FrameCodec T} {d : FrameDecoder} {line rest rest' : List UInt8}
  {lines lines' chunks : List (List UInt8)}

@[simp]
theorem verdict_nil (rest : List UInt8) :
    c.verdict [] rest = ([], decide (c.maxBytes < rest.length)) := by
  by_cases h : c.maxBytes < rest.length <;> simp [verdict, processChunk, h, Except.toOption]

theorem verdict_over (h : c.maxBytes < (stripCrByte line).length) :
    c.verdict (line :: lines) rest = ([], true) := by
  simp [verdict, processChunk, h, Except.toOption]

theorem verdict_line (h : ¬ c.maxBytes < (stripCrByte line).length) :
    c.verdict (line :: lines) rest =
      ((c.frameOf line).toList ++ (c.verdict lines rest).1, (c.verdict lines rest).2) := by
  simp [verdict, processChunk, h]

theorem endsBare_iff : c.endsBare lines rest = true ↔ c.verdict lines rest = ([], true) := by
  induction lines with
  | nil => simp [endsBare]
  | cons line lines ih =>
    by_cases h : c.maxBytes < (stripCrByte line).length
    · simp [endsBare, verdict_over h, h]
    · cases hframe : c.frameOf line <;>
        simp [endsBare, verdict_line h, h, hframe, ih, Prod.ext_iff]

/-- A chunk that leaves a line open beyond the limit fails as the whole stream does. -/
theorem streamVerdict_of_open (hopen : 10 ∉ rest) (hover : c.maxBytes < rest.length)
    {more : List UInt8} (hcut : c.CuttableStream (rest ++ more)) :
    c.streamVerdict (rest ++ more) = ([], true) := by
  rw [streamVerdict, ← endsBare_iff, cutLines_append_of_not_mem hopen]
  rw [CuttableStream, cutLines_append_of_not_mem hopen] at hcut
  cases hlines : (cutLines 10 more).1 with
  | nil =>
    simp only [endsBare, List.length_append, decide_eq_true_eq]
    omega
  | cons line lines =>
    have hlong : ¬ (rest ++ line).length ≤ c.maxBytes := by simp; omega
    rw [hlines] at hcut
    simp only [cuttable, hlong, decide_false, Bool.false_or, Bool.or_eq_true,
      Bool.and_eq_true] at hcut
    rcases hcut with hover' | hbare
    · simp [endsBare, hover']
    · exact hbare.1

/-- Lines in front: the stream fails among them, or it goes on with what they leave open. -/
theorem verdict_append (hopen : c.maxBytes < rest.length → c.cuttable lines' rest' = true →
      c.verdict lines' rest' = ([], true))
    (hcut : c.cuttable (lines ++ lines') rest' = true) :
    ((c.verdict lines rest).2 = true ∧
      c.verdict (lines ++ lines') rest' = c.verdict lines rest) ∨
    ((c.verdict lines rest).2 = false ∧ c.cuttable lines' rest' = true ∧
      c.verdict (lines ++ lines') rest' =
        ((c.verdict lines rest).1 ++ (c.verdict lines' rest').1, (c.verdict lines' rest').2)) := by
  induction lines with
  | nil =>
    by_cases h : c.maxBytes < rest.length
    · exact .inl (by simpa [h] using hopen h hcut)
    · exact .inr (by simpa [h] using hcut)
  | cons line lines ih =>
    by_cases h : c.maxBytes < (stripCrByte line).length
    · exact .inl (by simp [verdict_over h])
    · simp only [List.cons_append, cuttable, h, decide_false, Bool.false_or,
        Bool.and_eq_true] at hcut
      simpa [verdict_line h, Prod.ext_iff] using ih hcut.2

/-- What holds of a decoder after any chunks. -/
def Sound (c : FrameCodec T) (d : FrameDecoder) : Prop :=
  d.remainder.length ≤ c.maxBytes ∧ 10 ∉ d.remainder ∧ d.fatalCalled = d.failed ∧
    d.errors.length = d.failed.toNat

theorem retains {remainder : List UInt8} (h : (c.processChunk lines rest).2 = .ok remainder) :
    remainder = rest ∧ rest.length ≤ c.maxBytes := by
  induction lines with
  | nil =>
    simp only [processChunk] at h
    split at h
    · cases h
    · cases h
      exact ⟨rfl, by omega⟩
  | cons line lines ih =>
    simp only [processChunk] at h
    split at h
    · cases h
    · exact ih h

/-- A decoder that has not failed gives the verdict on what it holds and the chunk. -/
theorem push_live (hd : c.Sound d) (hlive : d.failed = false) (chunk : List UInt8) :
    c.Sound (c.push d chunk).1 ∧
      ((c.push d chunk).2, (c.push d chunk).1.failed) = c.streamVerdict (d.remainder ++ chunk) ∧
      ((c.push d chunk).1.failed = false →
        (c.push d chunk).1.remainder = (cutLines 10 (d.remainder ++ chunk)).2) := by
  obtain ⟨-, -, hcalled, herrors⟩ := hd
  unfold push streamVerdict verdict
  rw [if_neg (by simp [hlive])]
  dsimp only
  split
  · rename_i out actual heq
    rw [heq]
    refine ⟨⟨Nat.zero_le _, by simp [fatal], rfl, ?_⟩, rfl, by simp [fatal]⟩
    simp [fatal, hcalled, hlive, herrors]
  rename_i out remainder heq
  obtain ⟨rfl, hlength⟩ := retains (congrArg Prod.snd heq)
  rw [heq]
  exact ⟨⟨hlength, not_mem_cutLines_tail _ _, hcalled, herrors⟩, by rw [hlive]; rfl,
    fun _ => rfl⟩

theorem push_of_failed (h : d.failed = true) (chunk : List UInt8) : c.push d chunk = (d, []) :=
  if_pos h

theorem pushAll_of_failed (h : d.failed = true) : c.pushAll d chunks = (d, []) := by
  induction chunks with
  | nil => rfl
  | cons chunk chunks ih => simp [pushAll, push_of_failed h, ih]

theorem pushAll_sound (hd : c.Sound d) (chunks : List (List UInt8)) :
    c.Sound (c.pushAll d chunks).1 := by
  induction chunks generalizing d with
  | nil => exact hd
  | cons chunk chunks ih =>
    cases hfailed : d.failed with
    | true => rwa [pushAll_of_failed hfailed]
    | false => exact ih (push_live hd hfailed chunk).1

theorem pushAll_of_cuttable (hd : c.Sound d) (hlive : d.failed = false)
    (hcut : c.CuttableStream (d.remainder ++ chunks.flatten)) :
    ((c.pushAll d chunks).2, (c.pushAll d chunks).1.failed) =
      c.streamVerdict (d.remainder ++ chunks.flatten) := by
  induction chunks generalizing d with
  | nil =>
    have hfits := hd.1
    simp [pushAll, streamVerdict, cutLines_of_not_mem hd.2.1, hfits, hlive]
  | cons chunk chunks ih =>
    obtain ⟨hsound, hpush, hheld⟩ := push_live (c := c) hd hlive chunk
    rw [List.flatten_cons, ← List.append_assoc] at hcut ⊢
    unfold CuttableStream at hcut
    unfold streamVerdict at hpush ⊢
    rw [cutLines_append] at hcut ⊢
    have happend := verdict_append (fun hover hlater =>
      streamVerdict_of_open (not_mem_cutLines_tail _ _) hover hlater) hcut
    rw [← hpush] at happend
    rcases happend with ⟨hfailed, hwhole⟩ | ⟨hnext, hlater, hwhole⟩
    · rw [hwhole]
      simp only [pushAll, pushAll_of_failed hfailed, List.append_nil]
    have hrec := ih hsound hnext (by rwa [hheld hnext])
    rw [hheld hnext] at hrec
    rw [hwhole]
    change _ = (_ ++ (c.streamVerdict _).1, (c.streamVerdict _).2)
    rw [← hrec]
    rfl

theorem createFrameDecoder_sound : c.Sound createFrameDecoder :=
  ⟨Nat.zero_le _, by simp [createFrameDecoder], rfl, rfl⟩

theorem decodeChunks_eq (chunks : List (List UInt8)) :
    c.decodeChunks chunks = ((c.pushAll createFrameDecoder chunks).2,
      (c.pushAll createFrameDecoder chunks).1.failed,
      (c.pushAll createFrameDecoder chunks).1.failed.toNat) := by
  rw [← (pushAll_sound (c := c) createFrameDecoder_sound chunks).2.2.2]
  rfl

theorem decodeChunks_of_cuttable (hcut : c.CuttableStream chunks.flatten) :
    c.decodeChunks chunks = ((c.streamVerdict chunks.flatten).1,
      (c.streamVerdict chunks.flatten).2, (c.streamVerdict chunks.flatten).2.toNat) := by
  have hall := pushAll_of_cuttable createFrameDecoder_sound rfl hcut
  rw [decodeChunks_eq, ← show _ = c.streamVerdict chunks.flatten from hall]

/-- A stream that is not cuttable is cut before the LF of a line that its CR takes beyond the
limit: the decoder fails there, and something is lost. -/
theorem exists_cut {bytes : List UInt8} (h : ¬ c.CuttableStream bytes) :
    ∃ pre post, bytes = pre ++ 10 :: post ∧ (c.streamVerdict pre).2 = true ∧
      c.streamVerdict bytes ≠ c.streamVerdict pre := by
  induction bytes using lines_induction (10 : UInt8) with
  | tail bytes hopen =>
    rw [CuttableStream, cutLines_of_not_mem hopen] at h
    exact absurd rfl h
  | line line rest hline ih =>
    unfold CuttableStream at h ih
    rw [cutLines_append_sep hline, cuttable, Bool.or_eq_true, Bool.and_eq_true, Bool.or_eq_true,
      endsBare_iff, not_or, decide_eq_true_eq, decide_eq_true_eq] at h
    obtain ⟨hfits, hloses⟩ := h
    by_cases hlater : c.cuttable (cutLines 10 rest).1 (cutLines 10 rest).2 = true
    · obtain ⟨hcr, hbare⟩ := not_or.1 fun hcut => hloses ⟨hcut, hlater⟩
      have hpre : c.streamVerdict line = ([], true) := by
        simpa [streamVerdict, cutLines_of_not_mem hline] using hcr
      refine ⟨line, rest, rfl, by rw [hpre], ?_⟩
      rwa [hpre, streamVerdict, cutLines_append_sep hline]
    obtain ⟨pre, post, rfl, hfails, hne⟩ := ih hlater
    refine ⟨line ++ 10 :: pre, post, by simp, ?_, ?_⟩
    · rwa [streamVerdict, cutLines_append_sep hline, verdict_line hfits]
    rw [streamVerdict, streamVerdict, cutLines_append_sep hline, cutLines_append_sep hline,
      verdict_line hfits, verdict_line hfits]
    intro heq
    obtain ⟨hout, hfailed⟩ := Prod.mk.inj heq
    exact hne (Prod.ext (List.append_cancel_left hout) hfailed)

theorem encoded {frames : List T} (hfits : ∀ f ∈ frames, (c.stringify f).length ≤ c.maxBytes) :
    c.CuttableStream (frames.flatMap c.encodeFrame) ∧
      c.streamVerdict (frames.flatMap c.encodeFrame) = (frames, false) := by
  unfold CuttableStream streamVerdict
  induction frames with
  | nil => exact ⟨rfl, by simp⟩
  | cons f frames ih =>
    obtain ⟨hcut, hverdict⟩ := ih fun g hg => hfits g (List.mem_cons_of_mem f hg)
    have hlength := hfits f List.mem_cons_self
    have hline : 10 ∉ c.stringify f := fun h => absurd (c.plain f 10 h) (by decide)
    have hstrip : stripCrByte (c.stringify f) = c.stringify f := if_neg fun hlast =>
      absurd (c.plain f 13 (List.mem_of_getLast? hlast)) (by decide)
    have hframe : c.frameOf (c.stringify f) = some f := by
      rw [frameOf, hstrip, if_pos (List.length_pos_iff.2 (c.nonempty f)), c.parse_stringify]
    rw [List.flatMap_cons, encodeFrame, List.append_assoc, List.singleton_append,
      cutLines_append_sep hline]
    constructor
    · simp [cuttable, hlength, hcut]
    · rw [verdict_line (by rw [hstrip]; omega), hframe, hverdict]
      rfl

end Chunks

/-- **Frame decoding depends on the chunks exactly where a CR exceeds the limit**: every way of
chunking a stream gives the same frames, the same failure and as many calls of `onFatal`, if and
only if up to its first line beyond the limit no line is taken beyond it by its CR, or from such a
line on there is no frame before a line beyond the limit.  Whatever comes, `onFatal` is called
once at most, no more than `maxBytes` are retained, and encoded frames within the limit are read
back. -/
theorem chunking_irrelevant_iff (c : FrameCodec T) :
    (∀ bytes, (∀ chunks chunks', chunks.flatten = bytes → chunks'.flatten = bytes →
        c.decodeChunks chunks = c.decodeChunks chunks') ↔ c.CuttableStream bytes) ∧
    (∀ chunks, (c.pushAll createFrameDecoder chunks).1.errors.length ≤ 1 ∧
      (c.pushAll createFrameDecoder chunks).1.bufferedBytes ≤ c.maxBytes) ∧
    ∀ frames chunks, (∀ f ∈ frames, (c.stringify f).length ≤ c.maxBytes) →
      chunks.flatten = frames.flatMap c.encodeFrame →
        c.decodeChunks chunks = (frames, false, 0) := by
  refine ⟨fun bytes => ⟨fun hsame => ?_, ?_⟩, fun chunks => ?_, ?_⟩
  · by_contra hcut
    obtain ⟨pre, post, rfl, hfails, hne⟩ := exists_cut hcut
    have hsplit := hsame [pre ++ 10 :: post] [pre, 10 :: post] (by simp) (by simp)
    obtain ⟨-, hwhole, -⟩ := push_live (c := c) createFrameDecoder_sound rfl (pre ++ 10 :: post)
    obtain ⟨-, hpre, -⟩ := push_live (c := c) createFrameDecoder_sound rfl pre
    have hskip := push_of_failed (c := c) ((congrArg Prod.snd hpre).trans hfails) (10 :: post)
    rw [decodeChunks_eq, decodeChunks_eq] at hsplit
    simp only [pushAll, hskip, List.append_nil, Prod.mk.injEq] at hsplit
    exact hne (hwhole.symm.trans ((Prod.ext hsplit.1 hsplit.2.1).trans hpre))
  · rintro hcut chunks chunks' rfl hflat
    rw [decodeChunks_of_cuttable hcut, decodeChunks_of_cuttable (hflat ▸ hcut), hflat]
  · obtain ⟨hlength, -, -, herrors⟩ := pushAll_sound (c := c) createFrameDecoder_sound chunks
    exact ⟨herrors ▸ Bool.toNat_le _, hlength⟩
  · intro frames chunks hfits hflat
    obtain ⟨hcut, hverdict⟩ := encoded hfits
    rw [← hflat] at hcut hverdict
    rw [decodeChunks_of_cuttable hcut, hverdict]
    rfl

/-- Booleans, in frames of four bytes. -/
def booleans : FrameCodec Bool where
  maxBytes := 4
  stringify b := if b then [116, 114, 117, 101] else [102, 97, 108, 115, 101]
  parse text :=
    if text = [116, 114, 117, 101] then some true
    else if text = [102, 97, 108, 115, 101] then some false else none
  nonempty := by decide
  plain b := by cases b <;> simp
  parse_stringify := by decide

/-- The text `true` fills the limit: cut before its LF, the CR is one byte too many. -/
theorem frame_lost_before_lf :
    ¬ ∀ chunks chunks' : List (List UInt8), chunks.flatten = chunks'.flatten →
      booleans.decodeChunks chunks = booleans.decodeChunks chunks' := by
  intro hsame
  have hboth := hsame [[116, 114, 117, 101, 13, 10]] [[116, 114, 117, 101, 13], [10]] rfl
  revert hboth
  decide

end FrameCodec

end Abtars
