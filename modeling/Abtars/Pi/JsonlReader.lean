import Abtars.Lib.Utf8

/-!
# The line reader of the Pi stream

Records of the Pi stream are separated by LF alone; one CR before it is dropped.  The
reader decodes each chunk, keeps the open line in a buffer and bounds it: an open line
that grows beyond the limit is dropped through its LF.
-/

namespace Abtars

open Lib Utf8

inductive DiscardReason
  | oversized | partialOverflow

inductive ReaderEvent
  | onRecord (record : List Char)
  | onDiscarded (reason : DiscardReason) (bytes : Nat)

/-- The reader; `pending` are the bytes its decoder holds back. -/
structure JsonlReader where
  pending : List UInt8
  buffer : List Char
  discardUntilLf : Bool

def JsonlReader.new : JsonlReader := ⟨[], [], false⟩

def stripCr (line : List Char) : List Char :=
  if line.getLast? = some '\r' then line.dropLast else line

variable (maxLineBytes : Nat)

/-- One turn of the loop, on a line taken off the buffer: the discard flag and the
callbacks made. -/
def takeLine (discard : Bool) (line : List Char) : Bool × List ReaderEvent :=
  let line := stripCr line
  -- the rest of a line that was dropped while it was open
  if discard then (false, [])
  else
    let bytes := byteLength line
    if maxLineBytes < bytes then (false, [.onDiscarded .oversized bytes])
    else if 0 < line.length ∨ 0 < bytes then (false, [.onRecord line])
    else (false, [])

/-- The loop of `push`. -/
def takeLines (maxLineBytes : Nat) : Bool → List (List Char) → Bool × List ReaderEvent
  | discard, [] => (discard, [])
  | discard, line :: lines =>
    let (discard, events) := takeLine maxLineBytes discard line
    let (discard, more) := takeLines maxLineBytes discard lines
    (discard, events ++ more)

/-- `push`: one chunk of the stream. -/
def JsonlReader.push (reader : JsonlReader) (chunk : List UInt8) : JsonlReader × List ReaderEvent :=
  let (text, pending) := write reader.pending chunk
  let (lines, buffer) := cutLines '\n' (reader.buffer ++ text)
  let (discard, events) := takeLines maxLineBytes reader.discardUntilLf lines
  let partialBytes := byteLength buffer
  if maxLineBytes < partialBytes then
    (⟨pending, [], true⟩, events ++ [.onDiscarded .partialOverflow partialBytes])
  else (⟨pending, buffer, discard⟩, events)

def JsonlReader.pushAll (maxLineBytes : Nat) : JsonlReader → List (List UInt8) → List ReaderEvent
  | _, [] => []
  | reader, chunk :: chunks =>
    (reader.push maxLineBytes chunk).2 ++
      (reader.push maxLineBytes chunk).1.pushAll maxLineBytes chunks

def recordsOf (events : List ReaderEvent) : List (List Char) :=
  events.filterMap fun
    | .onRecord record => some record
    | .onDiscarded _ _ => none

def delivered (chunks : List (List UInt8)) : List (List Char) :=
  recordsOf (JsonlReader.new.pushAll maxLineBytes chunks)

/-! ## The records of a stream -/

def stripCrByte (line : List UInt8) : List UInt8 :=
  if line.getLast? = some 13 then line.dropLast else line

/-- What a stream says, however it is chunked: the lines its LFs end, each without one
trailing CR, that are not empty and at most `maxLineBytes` long. -/
def streamRecords (bytes : List UInt8) : List (List Char) :=
  ((cutLines 10 bytes).1.map fun line => decode (stripCrByte line)).filter fun record =>
    record ≠ [] ∧ byteLength record ≤ maxLineBytes

def fillsLimit (bytes : List UInt8) : Bool :=
  (cutLines 10 bytes).2.getLast? = some 13 ∧ 0 < maxLineBytes ∧
    byteLength (decode (cutLines 10 bytes).2.dropLast) = maxLineBytes

/-- Does one of the chunks, which follow the bytes `before`, start with the LF of a line
that fills the limit and ends with a CR? -/
def splitsCrLf (maxLineBytes : Nat) : List UInt8 → List (List UInt8) → Bool
  | _, [] => false
  | before, chunk :: chunks =>
    (chunk.head? = some 10 && fillsLimit maxLineBytes before) ||
      splitsCrLf maxLineBytes (before ++ chunk) chunks

/-! ## Lines of text -/

def lineRecord (line : List Char) : Option (List Char) :=
  if stripCr line ≠ [] ∧ byteLength (stripCr line) ≤ maxLineBytes then some (stripCr line) else none

def TextFillsLimit (text : List Char) : Prop :=
  ∃ line, text = line ++ ['\r'] ∧ 0 < maxLineBytes ∧ byteLength line = maxLineBytes

section Text

variable {maxLineBytes : Nat}

theorem byteLength_append (text more : List Char) :
    byteLength (text ++ more) = byteLength text + byteLength more := by
  simp [byteLength]

theorem length_le_byteLength (text : List Char) : text.length ≤ byteLength text := by
  induction text with
  | nil => exact Nat.le_refl 0
  | cons c text ih =>
    have hsize := Char.utf8Size_pos c
    simp only [byteLength, List.map_cons, List.sum_cons, List.length_cons] at ih ⊢
    omega

@[simp]
theorem recordsOf_append (events more : List ReaderEvent) :
    recordsOf (events ++ more) = recordsOf events ++ recordsOf more :=
  List.filterMap_append

variable (line : List Char)

theorem stripCr_append_cr : stripCr (line ++ ['\r']) = line := by
  simp [stripCr]

theorem stripCr_of_other {line : List Char} (h : line.getLast? ≠ some '\r') :
    stripCr line = line := by
  rw [stripCr, if_neg h]

theorem stripCr_cases : stripCr line = line ∨ line = stripCr line ++ ['\r'] := by
  by_cases h : line.getLast? = some '\r'
  · right
    rw [stripCr, if_pos h]
    exact (List.dropLast_append_getLast? '\r' h).symm
  · exact .inl (stripCr_of_other h)

theorem recordsOf_takeLine :
    recordsOf (takeLine maxLineBytes false line).2 = (lineRecord maxLineBytes line).toList := by
  unfold takeLine lineRecord
  dsimp only
  rw [if_neg (by simp)]
  split
  · rw [if_neg (by omega)]
    rfl
  split
  · rename_i hsome
    have hne : stripCr line ≠ [] := by
      intro hnil
      rw [hnil] at hsome
      simp [byteLength] at hsome
    rw [if_pos ⟨hne, by omega⟩]
    rfl
  · rename_i hempty
    have hnil : stripCr line = [] := by
      by_contra hne
      exact hempty (.inl (List.length_pos_iff.2 hne))
    rw [if_neg (fun h => h.1 hnil)]
    rfl

theorem takeLine_discard (maxLineBytes : Nat) (discard : Bool) (line : List Char) :
    (takeLine maxLineBytes discard line).1 = false := by
  unfold takeLine
  dsimp only
  split
  · rfl
  · split
    · rfl
    · split <;> rfl

theorem takeLines_spec (maxLineBytes : Nat) (lines : List (List Char)) :
    (takeLines maxLineBytes false lines).1 = false ∧
      recordsOf (takeLines maxLineBytes false lines).2 =
        lines.filterMap (lineRecord maxLineBytes) := by
  induction lines with
  | nil => exact ⟨rfl, rfl⟩
  | cons line lines ih =>
    have hdiscard := takeLine_discard maxLineBytes false line
    simp only [takeLines, hdiscard]
    refine ⟨ih.1, ?_⟩
    rw [recordsOf_append, recordsOf_takeLine, ih.2, List.filterMap_cons]
    cases lineRecord maxLineBytes line <;> rfl

/-- The line of an open text that grew beyond the limit is a record in one case only:
nothing but its LF was missing, and its CR is what exceeded the limit. -/
theorem lineRecord_of_overflow {lost : List Char} (hover : maxLineBytes < byteLength lost)
    (rest : List Char) :
    lineRecord maxLineBytes (lost ++ rest) ≠ none ↔
      rest = [] ∧ TextFillsLimit maxLineBytes lost := by
  have hsum := byteLength_append lost rest
  have hstrip := stripCr_cases (lost ++ rest)
  constructor
  · intro hrecord
    obtain ⟨hne, hfits⟩ : stripCr (lost ++ rest) ≠ [] ∧
        byteLength (stripCr (lost ++ rest)) ≤ maxLineBytes := by
      by_contra hnone
      exact hrecord (if_neg hnone)
    have hcr : lost ++ rest = stripCr (lost ++ rest) ++ ['\r'] := by
      rcases hstrip with hsame | hcr
      · rw [hsame] at hfits
        omega
      · exact hcr
    have hlength := congrArg byteLength hcr
    rw [byteLength_append, byteLength_append] at hlength
    have hone : byteLength ['\r'] = 1 := rfl
    have hrest : rest = [] := by
      have hle := length_le_byteLength rest
      exact List.eq_nil_of_length_eq_zero (by omega)
    subst hrest
    rw [List.append_nil] at hcr hne hfits hlength hsum
    refine ⟨rfl, stripCr lost, hcr, ?_, by omega⟩
    have hpos := length_le_byteLength (stripCr lost)
    have hsome := List.length_pos_iff.2 hne
    omega
  · rintro ⟨rfl, line, rfl, hpos, hline⟩
    have hne : line ≠ [] := by
      rintro rfl
      simp [byteLength] at hline
      omega
    rw [List.append_nil, lineRecord, stripCr_append_cr, if_pos ⟨hne, by omega⟩]
    simp

/-- How the buffer goes on from the open text: it is all of it, or what followed a part
that was dropped. -/
inductive Framed (maxLineBytes : Nat) (text : List Char) (buffer : List Char) : Bool → Prop
  | kept (hbuffer : buffer = text) (hfits : byteLength text ≤ maxLineBytes) :
      Framed maxLineBytes text buffer false
  | dropped (lost : List Char) (htext : text = lost ++ buffer)
      (hover : maxLineBytes < byteLength lost) : Framed maxLineBytes text buffer true

/-- What the loop makes of a chunk's text, beside the lines it ends: at most one record
is missed, that of a line that was dropped for its CR. -/
structure LoopSpec (maxLineBytes : Nat) (opened text buffer : List Char) (discard : Bool) :
    Prop where
  missed : ∃ missed : List (List Char),
    (cutLines '\n' (opened ++ text)).1.filterMap (lineRecord maxLineBytes) =
      missed ++ recordsOf (takeLines maxLineBytes discard (cutLines '\n' (buffer ++ text)).1).2 ∧
    (missed = [] ↔ ¬ (TextFillsLimit maxLineBytes opened ∧ text.head? = some '\n'))
  goesOn : (takeLines maxLineBytes discard (cutLines '\n' (buffer ++ text)).1).1 = false ∧
      (cutLines '\n' (buffer ++ text)).2 = (cutLines '\n' (opened ++ text)).2 ∨
    (takeLines maxLineBytes discard (cutLines '\n' (buffer ++ text)).1).1 = true ∧
      ∃ lost, (cutLines '\n' (opened ++ text)).2 = lost ++ (cutLines '\n' (buffer ++ text)).2 ∧
        maxLineBytes < byteLength lost

theorem loopSpec_of_kept {opened : List Char} (hfits : byteLength opened ≤ maxLineBytes)
    (text : List Char) : LoopSpec maxLineBytes opened text opened false where
  missed := by
    refine ⟨[], by rw [(takeLines_spec _ _).2, List.nil_append], fun _ => ?_, fun _ => rfl⟩
    rintro ⟨⟨line, rfl, -, hline⟩, -⟩
    rw [byteLength_append] at hfits
    have hone : byteLength ['\r'] = 1 := rfl
    omega
  goesOn := .inl ⟨(takeLines_spec _ _).1, rfl⟩

theorem takeLines_of_dropped (maxLineBytes : Nat) (line : List Char) (lines : List (List Char)) :
    (takeLines maxLineBytes true (line :: lines)).1 = false ∧
      recordsOf (takeLines maxLineBytes true (line :: lines)).2 =
        lines.filterMap (lineRecord maxLineBytes) := by
  obtain ⟨hdiscard, hrecords⟩ := takeLines_spec maxLineBytes lines
  exact ⟨hdiscard, hrecords⟩

theorem loopSpec_of_dropped {lost buffer : List Char} (hover : maxLineBytes < byteLength lost)
    (hopen : '\n' ∉ lost ++ buffer) (text : List Char) :
    LoopSpec maxLineBytes (lost ++ buffer) text buffer true := by
  have hlost : '\n' ∉ lost := fun h => hopen (List.mem_append_left _ h)
  have hbuffer : '\n' ∉ buffer := fun h => hopen (List.mem_append_right _ h)
  have hcut := cutLines_append_of_not_mem hlost (buffer ++ text)
  rw [← List.append_assoc] at hcut
  -- the text has no other way to end the line at once
  have hends : ∀ line lines, (cutLines '\n' (buffer ++ text)).1 = line :: lines →
      (line = [] ↔ buffer = [] ∧ text.head? = some '\n') := by
    intro line lines hlines
    rcases cutLines_cases '\n' text with htext | ⟨first, rest, hfirst, rfl⟩
    · rw [cutLines_of_not_mem (by simp [hbuffer, htext])] at hlines
      cases hlines
    have hboth : '\n' ∉ buffer ++ first := by simp [hbuffer, hfirst]
    rw [← List.append_assoc, cutLines_append_sep hboth] at hlines
    obtain ⟨rfl, -⟩ := List.cons_eq_cons.1 hlines
    rw [List.append_eq_nil_iff]
    refine and_congr_right fun _ => ?_
    cases first with
    | nil => simp
    | cons c first =>
      have hc : c ≠ '\n' := fun heq => hfirst (by simp [heq])
      simp [hc]
  have hwhole : TextFillsLimit maxLineBytes (lost ++ buffer) ↔
      buffer = [] ∧ TextFillsLimit maxLineBytes lost := by
    constructor
    · rintro ⟨line, hline, hpos, hlength⟩
      have hsum := congrArg byteLength hline
      rw [byteLength_append, byteLength_append] at hsum
      have hone : byteLength ['\r'] = 1 := rfl
      have hle := length_le_byteLength buffer
      have hnil : buffer = [] := List.eq_nil_of_length_eq_zero (by omega)
      rw [hnil, List.append_nil] at hline
      exact ⟨hnil, line, hline, hpos, hlength⟩
    · rintro ⟨rfl, hfills⟩
      rwa [List.append_nil]
  cases hlines : (cutLines '\n' (buffer ++ text)).1 with
  | nil =>
    constructor
    · refine ⟨[], by rw [hcut, hlines]; rfl, fun _ => ?_, fun _ => rfl⟩
      rintro ⟨-, hhead⟩
      obtain ⟨rest, rfl⟩ : ∃ rest, text = '\n' :: rest := by
        cases text with
        | nil => cases hhead
        | cons c rest => exact ⟨rest, by rw [Option.some.inj hhead]⟩
      rw [cutLines_append_sep hbuffer] at hlines
      cases hlines
    · right
      rw [hcut, hlines]
      exact ⟨rfl, lost, rfl, hover⟩
  | cons line lines =>
    obtain ⟨hdiscard, hrecords⟩ :=
      takeLines_of_dropped maxLineBytes line lines
    constructor
    · refine ⟨(lineRecord maxLineBytes (lost ++ line)).toList, ?_, ?_⟩
      · rw [hcut, hlines, hrecords, List.filterMap_cons]
        cases lineRecord maxLineBytes (lost ++ line) <;> rfl
      · rw [hwhole, and_assoc, and_comm (a := TextFillsLimit maxLineBytes lost), ← and_assoc,
          ← hends line lines hlines, ← lineRecord_of_overflow hover line]
        cases lineRecord maxLineBytes (lost ++ line) <;> simp
    · left
      rw [hcut, hlines]
      exact ⟨hdiscard, rfl⟩

end Text

section Bytes

variable {done held : List UInt8} {maxLineBytes : Nat}

/-- The reader after some bytes: all but the ones held back are decoded, and the buffer
goes on from their open line. -/
def Reading (maxLineBytes : Nat) (bytes : List UInt8) (reader : JsonlReader) : Prop :=
  ∃ done, bytes = done ++ reader.pending ∧ CutAt done reader.pending ∧
    Framed maxLineBytes (cutLines '\n' (decode done)).2 reader.buffer reader.discardUntilLf

theorem stripCr_decode (line : List UInt8) : stripCr (decode line) = decode (stripCrByte line) := by
  have hends := decode_append_ascii_iff (a := 13) (by decide) (by decide) line
  by_cases hcr : line.getLast? = some 13
  · have hline : line = line.dropLast ++ [13] := (List.dropLast_append_getLast? 13 hcr).symm
    rw [stripCrByte, if_pos hcr, (hends (decode line.dropLast)).2 ⟨line.dropLast, hline, rfl⟩]
    exact stripCr_append_cr _
  rw [stripCrByte, if_neg hcr]
  rcases stripCr_cases (decode line) with hsame | htext
  · exact hsame
  · obtain ⟨prior, rfl, -⟩ := (hends (stripCr (decode line))).1 htext
    simp at hcr

theorem ascii_not_mem_held (h : CutAt done held) {b : UInt8} (hb : b.toNat < 0x80) : b ∉ held := by
  rcases h with ⟨rfl, -⟩ | ⟨first, rest, rfl, hfirst, hrest⟩
  · simp
  intro hmem
  rcases List.mem_cons.1 hmem with rfl | hlater
  · omega
  · have hbounds := continuation_bounds.1 (hrest b hlater)
    omega

theorem cutLines_held (h : CutAt done held) :
    cutLines 10 (done ++ held) = ((cutLines 10 done).1, (cutLines 10 done).2 ++ held) := by
  have hopen : 10 ∉ (cutLines 10 done).2 ++ held := by
    intro hmem
    rcases List.mem_append.1 hmem with htail | hheld
    · exact not_mem_cutLines_tail 10 done htail
    · exact ascii_not_mem_held h (by decide) hheld
  rw [cutLines_append, cutLines_of_not_mem hopen, List.append_nil]

theorem streamRecords_eq (h : CutAt done held) :
    streamRecords maxLineBytes (done ++ held) =
      (cutLines '\n' (decode done)).1.filterMap (lineRecord maxLineBytes) := by
  rw [streamRecords, cutLines_held h, cutLines_decode]
  induction (cutLines 10 done).1 with
  | nil => rfl
  | cons line lines ih =>
    rw [List.map_cons, List.filter_cons, ih, List.map_cons, List.filterMap_cons, lineRecord,
      stripCr_decode]
    split
    · rename_i hrecord
      rw [if_pos (by simpa using hrecord)]
    · rename_i hnone
      rw [if_neg (by simpa using hnone)]

/-- The open line of the bytes fills the limit when that of the text does, and the chunk
starts with its LF when the chunk's text does. -/
theorem fillsLimit_iff (maxLineBytes : Nat) {chunk more held' : List UInt8} (h : CutAt done held)
    (hchunk : held ++ chunk = more ++ held') (hmore : CutAt more held') :
    TextFillsLimit maxLineBytes (cutLines '\n' (decode done)).2 ∧
        (decode more).head? = some '\n' ↔
      (chunk.head? = some 10 && fillsLimit maxLineBytes (done ++ held)) = true := by
  have hlf := head_decode_iff (a := 10) (by decide) (by decide) more
  have hcr := decode_append_ascii_iff (a := 13) (by decide) (by decide) (cutLines 10 done).2
  rw [cutLines_decode, fillsLimit, cutLines_held h, Bool.and_eq_true, decide_eq_true_eq,
    decide_eq_true_eq]
  constructor
  · rintro ⟨⟨text, htext, hpos, hlength⟩, hhead⟩
    obtain ⟨line, hline, rfl⟩ := (hcr text).1 htext
    have hfirst : more.head? = some 10 := hlf.1 hhead
    have hnone : held = [] := by
      cases hheld : held with
      | nil => rfl
      | cons b rest =>
        cases more with
        | nil => cases hfirst
        | cons a more =>
          obtain rfl : a = 10 := Option.some.inj hfirst
          rw [hheld] at hchunk
          obtain ⟨rfl, -⟩ := List.cons_eq_cons.1 hchunk
          exact absurd (hheld ▸ List.mem_cons_self) (ascii_not_mem_held h (by decide : _ < 0x80))
    subst hnone
    rw [List.nil_append] at hchunk
    refine ⟨?_, ?_⟩
    · rw [hchunk]
      cases more with
      | nil => cases hfirst
      | cons a more => exact hfirst
    · rw [List.append_nil, hline]
      simp [hpos, hlength]
  · rintro ⟨hhead, hlast, hpos, hlength⟩
    have hnone : held = [] := by
      by_contra hsome
      rw [List.getLast?_append_of_ne_nil _ hsome] at hlast
      exact ascii_not_mem_held h (by decide : _ < 0x80) (List.mem_of_getLast? hlast)
    subst hnone
    rw [List.nil_append] at hchunk
    rw [List.append_nil] at hlast hlength
    refine ⟨⟨decode (cutLines 10 done).2.dropLast, ?_, hpos, hlength⟩, hlf.2 ?_⟩
    · exact (hcr _).2 ⟨_, (List.dropLast_append_getLast? 13 hlast).symm, rfl⟩
    rw [hchunk] at hhead
    cases more with
    | nil =>
      refine absurd (List.mem_of_mem_head? hhead) ?_
      exact ascii_not_mem_held hmore (by decide)
    | cons a more => exact hhead

/-- A chunk's records are those of its loop; the buffer it leaves goes on from the open
text, or is dropped. -/
theorem push_framed {reader : JsonlReader} {opened : List Char} (chunk : List UInt8)
    (hloop : LoopSpec maxLineBytes opened (write reader.pending chunk).1 reader.buffer
      reader.discardUntilLf) :
    (reader.push maxLineBytes chunk).1.pending = (write reader.pending chunk).2 ∧
      recordsOf (reader.push maxLineBytes chunk).2 =
        recordsOf (takeLines maxLineBytes reader.discardUntilLf
          (cutLines '\n' (reader.buffer ++ (write reader.pending chunk).1)).1).2 ∧
      Framed maxLineBytes (cutLines '\n' (opened ++ (write reader.pending chunk).1)).2
        (reader.push maxLineBytes chunk).1.buffer
        (reader.push maxLineBytes chunk).1.discardUntilLf := by
  have hgoesOn := hloop.goesOn
  unfold JsonlReader.push
  dsimp only
  split
  · rename_i hover
    refine ⟨rfl, ?_, ?_⟩
    · rw [recordsOf_append]
      exact List.append_nil _
    rcases hgoesOn with ⟨-, htail⟩ | ⟨-, lost, htail, hlost⟩
    · rw [← htail]
      exact .dropped _ (List.append_nil _).symm hover
    · refine .dropped _ (List.append_nil _).symm ?_
      rw [htail, byteLength_append]
      omega
  · refine ⟨rfl, rfl, ?_⟩
    rcases hgoesOn with ⟨hdiscard, htail⟩ | ⟨hdiscard, lost, htail, hlost⟩
    · rw [hdiscard, ← htail]
      exact .kept rfl (by omega)
    · rw [hdiscard]
      exact .dropped lost htail hlost

/-- **One chunk**: the stream gains the records the reader delivers and those it misses,
and none is missed unless the chunk splits a line that fills the limit. -/
theorem push_reading {bytes : List UInt8} {reader : JsonlReader}
    (h : Reading maxLineBytes bytes reader) (chunk : List UInt8) :
    Reading maxLineBytes (bytes ++ chunk) (reader.push maxLineBytes chunk).1 ∧
      ∃ missed, streamRecords maxLineBytes (bytes ++ chunk) =
          streamRecords maxLineBytes bytes ++
            (missed ++ recordsOf (reader.push maxLineBytes chunk).2) ∧
        (missed = [] ↔ (chunk.head? = some 10 && fillsLimit maxLineBytes bytes) = false) := by
  obtain ⟨done, rfl, hcut, hframed⟩ := h
  obtain ⟨more, hchunk, htext, hmore⟩ := write_spec reader.pending chunk
  obtain ⟨hcut', hdecode⟩ := hcut.append hchunk hmore
  have hbytes : done ++ reader.pending ++ chunk =
      done ++ more ++ (write reader.pending chunk).2 := by
    rw [List.append_assoc, hchunk, List.append_assoc]
  have hfills := fillsLimit_iff maxLineBytes hcut hchunk hmore
  have hloop : LoopSpec maxLineBytes (cutLines '\n' (decode done)).2 (decode more) reader.buffer
      reader.discardUntilLf := by
    have hopen := not_mem_cutLines_tail '\n' (decode done)
    cases hstate : reader.discardUntilLf with
    | false =>
      rw [hstate] at hframed
      obtain ⟨hbuffer, hfits⟩ := hframed
      rw [hbuffer]
      exact loopSpec_of_kept hfits _
    | true =>
      rw [hstate] at hframed
      obtain ⟨-⟩ | ⟨lost, htail, hover⟩ := hframed
      rw [htail] at hopen ⊢
      exact loopSpec_of_dropped hover hopen _
  rw [← htext] at hloop hfills
  obtain ⟨hpending, hrecords, hframed'⟩ := push_framed chunk hloop
  obtain ⟨missed, hlines, hmissed⟩ := hloop.missed
  have htail : (cutLines '\n' (decode (done ++ more))).2 =
      (cutLines '\n' ((cutLines '\n' (decode done)).2 ++ (write reader.pending chunk).1)).2 := by
    rw [hdecode, cutLines_append, htext]
  rw [← htail] at hframed'
  constructor
  · refine ⟨done ++ more, ?_, ?_, hframed'⟩
    · rw [hbytes, hpending]
    · rw [hpending]
      exact hcut'
  refine ⟨missed, ?_, ?_⟩
  · rw [hbytes, streamRecords_eq hcut', streamRecords_eq hcut, hdecode, cutLines_append,
      List.filterMap_append, hrecords, ← hlines, htext]
  · rw [hmissed, hfills, Bool.not_eq_true]

/-- The records of a run of chunks are a sublist of those of the stream, and all of them
exactly when no chunk splits a line that fills the limit. -/
theorem pushAll_reading (chunks : List (List UInt8)) :
    ∀ bytes reader, Reading maxLineBytes bytes reader →
      ∃ later, streamRecords maxLineBytes (bytes ++ chunks.flatten) =
          streamRecords maxLineBytes bytes ++ later ∧
        (recordsOf (reader.pushAll maxLineBytes chunks)).length ≤ later.length ∧
        (later = recordsOf (reader.pushAll maxLineBytes chunks) ↔
          splitsCrLf maxLineBytes bytes chunks = false) := by
  induction chunks with
  | nil =>
    intro bytes reader _
    refine ⟨[], by simp, Nat.le_refl 0, ?_⟩
    exact ⟨fun _ => rfl, fun _ => rfl⟩
  | cons chunk chunks ih =>
    intro bytes reader hreading
    obtain ⟨hnext, missed, hstream, hmissed⟩ := push_reading hreading chunk
    obtain ⟨later, hlater, hlength, hsame⟩ := ih _ _ hnext
    refine ⟨missed ++ recordsOf (reader.push maxLineBytes chunk).2 ++ later, ?_, ?_, ?_⟩
    · rw [List.flatten_cons, ← List.append_assoc, hlater, hstream]
      simp only [List.append_assoc]
    · rw [JsonlReader.pushAll, recordsOf_append]
      simp only [List.length_append]
      omega
    rw [splitsCrLf, Bool.or_eq_false_iff, ← hmissed, ← hsame, JsonlReader.pushAll,
      recordsOf_append]
    constructor
    · intro heq
      -- a missed record would make the stream longer than what is delivered
      have hlengths := congrArg List.length heq
      simp only [List.length_append] at hlengths
      have hnone : missed = [] := List.eq_nil_of_length_eq_zero (by omega)
      refine ⟨hnone, ?_⟩
      rw [hnone, List.nil_append] at heq
      exact List.append_cancel_left heq
    · rintro ⟨rfl, rfl⟩
      rfl

end Bytes

theorem reading_new (maxLineBytes : Nat) : Reading maxLineBytes [] .new :=
  ⟨[], rfl, .inl ⟨rfl, rfl⟩, .kept rfl (Nat.zero_le _)⟩

/-- **The records do not depend on the chunks exactly when none splits a full line**: for
every limit and every way of chunking a stream, the reader delivers the stream's records
if and only if no chunk starts with the LF of a line that fills the limit and ends with a
CR. -/
theorem records_chunked_iff (maxLineBytes : Nat) (chunks : List (List UInt8)) :
    delivered maxLineBytes chunks = streamRecords maxLineBytes chunks.flatten ↔
      splitsCrLf maxLineBytes [] chunks = false := by
  obtain ⟨later, hstream, -, hsame⟩ := pushAll_reading chunks [] .new (reading_new maxLineBytes)
  have hlater : streamRecords maxLineBytes chunks.flatten = later := hstream
  rw [hlater, ← hsame, eq_comm]
  rfl

/-- A chunk that ends between the CR and the LF of a full line costs it its record. -/
theorem split_line_lost :
    ¬ ∀ chunks chunks' : List (List UInt8), chunks.flatten = chunks'.flatten →
      delivered 3 chunks = delivered 3 chunks' := by
  intro hindependent
  have hsame := hindependent [[123, 125, 49, 13, 10]] [[123, 125, 49, 13], [10]] rfl
  revert hsame
  decide

end Abtars
