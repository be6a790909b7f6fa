import Abtars.Peer.DoorbellPayload

/-!
# The doorbell's DNS packets

A query travels as the name of a TXT question under `_abtars-doorbell._udp.local`, an
acknowledgement as the TXT record that answers it.  `encodeQuery` and `encodeResponse`
build the packets, `parseQuery` and `parseResponse` read them.
-/

namespace Abtars

open Lib

variable {labels : List Bytes} {dnsId : UInt16} {size : Nat} {text : List Char} {payload : Bytes}
  {ack : DoorbellAck}

/-! ## Names -/

def maxQueryBytes : Nat := 384
def maxResponseBytes : Nat := 512
def maxNameBytes : Nat := 255

/-- `Buffer.from(text, "ascii")`. -/
def asciiBytes (text : List Char) : Bytes := text.map fun c => UInt8.ofNat c.toNat

/-- `toString("ascii")`, which drops the high bit of every byte. -/
def asciiText (bytes : Bytes) : List Char := bytes.map fun b => Char.ofNat (b.toNat % 128)

def doorbellLabel : List Char := "_abtars-doorbell".toList

/-- The parts of `SUFFIX_LABELS`. -/
def suffixLabels : List (List Char) := [doorbellLabel, "_udp".toList, "local".toList]

def splitFor (size : Nat) : (fuel : Nat) → List Char → List (List Char)
  | 0, _ => []
  | fuel + 1, text =>
    if text = [] then [] else text.take size :: splitFor size fuel (text.drop size)

def splitLabels (b32Payload : List Char) : List (List Char) :=
  splitFor 52 b32Payload.length b32Payload

def wireLabels (labels : List Bytes) : Bytes :=
  labels.flatMap fun label => UInt8.ofNat label.length :: label

def buildQueryName (b32Payload : List Char) : Bytes :=
  wireLabels ((splitLabels b32Payload ++ suffixLabels).map asciiBytes) ++ [0]

def encodeQuestion (qname : Bytes) : Bytes := qname ++ u16BE 16 ++ u16BE 1

/-! ## Encoders -/

/-- `encodeQuery`, under the id that `Math.random` drew. -/
def encodeQuery (dnsId : UInt16) (q : DoorbellQuery) : Attempt Bytes := do
  let payload ← serializeQueryPayload q
  if payload.length ≠ queryPayloadBytes then
    fail .badLength ("query payload " ++ toString payload.length ++ " != " ++
      toString queryPayloadBytes)
  else
    let qname := buildQueryName (base32Encode payload)
    if maxNameBytes < qname.length then
      fail .badName ("query name " ++ toString qname.length ++ " > " ++ toString maxNameBytes)
    else
      let header := u16BE dnsId.toNat ++ u16BE 0 ++ u16BE 1 ++ u16BE 0 ++ u16BE 0 ++ u16BE 0
      let packet := header ++ encodeQuestion qname
      if maxQueryBytes < packet.length then
        fail .tooLong ("query " ++ toString packet.length ++ " > " ++ toString maxQueryBytes)
      else .ok packet

/-- The loop of `findQnameEnd`, over the bytes from a position on. -/
def findQnameEndFor : (fuel : Nat) → (rest : Bytes) → (pos : Nat) → Except String Nat
  | 0, _, _ => .error "no null terminator"
  | _, [], _ => .error "no null terminator"
  | fuel + 1, len :: rest, pos =>
    if len = 0 then .ok (pos + 1)
    else if len &&& 0xc0 = 0xc0 then .ok (pos + 2)
    else if 63 < len.toNat then .error "bad label"
    else if rest.length < len.toNat then .error "truncated"
    else findQnameEndFor fuel (rest.drop len.toNat) (pos + 1 + len.toNat)

variable (packet : Bytes)

def findQnameEnd (start : Nat) : Except String Nat :=
  findQnameEndFor packet.length (packet.drop start) start

variable (queryPacket : Bytes)

def encodeResponse (ack : DoorbellAck) : Attempt Bytes :=
  if queryPacket.length < 12 then fail .tooShort "query < 12"
  else do
    let payload ← serializeAckPayload ack
    if payload.length ≠ ackPayloadBytes then
      fail .badLength ("ack payload " ++ toString payload.length ++ " != " ++
        toString ackPayloadBytes)
    else
      let txtRdata := UInt8.ofNat payload.length :: payload
      if 255 < txtRdata.length then
        fail .badTxtString ("TXT rdata " ++ toString txtRdata.length ++ " > 255")
      else
        match findQnameEnd queryPacket 12 with
        | .error _ => fail .badName "cannot find qname end"
        | .ok qnameEnd =>
          let originalQuestion := subarray queryPacket 12 (qnameEnd + 4)
          let answerRR := [0xc0, 0x0c] ++ u16BE 16 ++ u16BE 1 ++ u32BE 0 ++
            u16BE txtRdata.length ++ txtRdata
          let respHeader := subarray queryPacket 0 2 ++ u16BE 0x8400 ++ u16BE 1 ++ u16BE 1 ++
            u16BE 0 ++ u16BE 0
          let response := respHeader ++ originalQuestion ++ answerRR
          if min maxResponseBytes (queryPacket.length * 2) < response.length then
            fail .responseTooLarge ("response " ++ toString response.length ++ " > min(512, " ++
              toString (queryPacket.length * 2) ++ ")")
          else .ok response

/-! ## Parsers -/

/-- What `parseStrictQueryName` returns. -/
structure QueryName where
  labels : List (List Char)
  endOffset : Nat
  nameBytes : Nat

/-- The characters `[a-z0-9_-]`. -/
def isLabelChar (c : Char) : Bool :=
  (97 ≤ c.toNat ∧ c.toNat ≤ 122) ∨ (48 ≤ c.toNat ∧ c.toNat ≤ 57) ∨ c = '_' ∨ c = '-'

/-- The test `/^[a-z0-9_-]+$/`. -/
def isLabel (label : List Char) : Bool := label ≠ [] ∧ label.all isLabelChar

def finishName (labels : List (List Char)) (pos nameLen : Nat) : Attempt QueryName :=
  if labels.length = 0 then fail .badName "empty name" else .ok ⟨labels, pos, nameLen⟩

/-- The loop of `parseStrictQueryName`, over the bytes from a position on.  It also stops,
without a terminator, at the end of the packet. -/
def strictNameLoop (maxBytes : Nat) :
    (fuel : Nat) → (rest : Bytes) → (pos nameLen : Nat) → (labels : List (List Char)) →
      Attempt QueryName
  | 0, _, pos, nameLen, labels => finishName labels pos nameLen
  | _, [], pos, nameLen, labels => finishName labels pos nameLen
  | fuel + 1, len :: rest, pos, nameLen, labels =>
    if len = 0 then finishName labels (pos + 1) nameLen
    else if len &&& 0xc0 ≠ 0 then fail .compression "compression pointer in question name"
    else if 63 < len.toNat then
      fail .badLabel ("label length " ++ toString len.toNat ++ " > 63")
    else if rest.length < len.toNat then fail .tooShort "label truncated"
    else
      let label := asciiText (rest.take len.toNat)
      if isLabel label then
        if maxBytes < nameLen + (1 + len.toNat) then
          fail .badName ("name > " ++ toString maxBytes)
        else
          strictNameLoop maxBytes fuel (rest.drop len.toNat) (pos + 1 + len.toNat)
            (nameLen + (1 + len.toNat)) (labels ++ [label])
      else fail .badLabel "non-ascii chars in label"

def parseStrictQueryName (start maxBytes : Nat) : Attempt QueryName :=
  strictNameLoop maxBytes packet.length (packet.drop start) start 0 []

/-- `flags.toString(16)`. -/
def hexText (n : Nat) : String := String.ofList (Nat.toDigits 16 n)

/-- What `parseQueryPacket` returns. -/
structure ParsedQuery where
  dnsId : Nat
  questionLabels : List (List Char)
  questionEnd : Nat
  rawB32 : List Char
  decoded : Bytes
  parsed : DoorbellQuery

/-- The end of `parseQueryPacket`: the payload in the labels before the suffix. -/
def decodeQuestion (dnsId : Nat) (labels : List (List Char)) (questionEnd : Nat) :
    Attempt ParsedQuery :=
  match labels.findIdx? (· = doorbellLabel) with
  | none => fail .badSuffix "no _abtars-doorbell label"
  | some suffixIdx => do
    let rawB32 := (labels.take suffixIdx).flatten
    let decoded ← base32Decode rawB32
    if decoded.length ≠ queryPayloadBytes then
      fail .badLength ("decoded " ++ toString decoded.length ++ " != " ++
        toString queryPayloadBytes)
    else
      let parsed ← decodeQueryPayload decoded
      .ok ⟨dnsId, labels, questionEnd, rawB32, decoded, parsed⟩

/-- The middle of `parseQueryPacket`: the question and nothing after it. -/
def parseQuestion : Attempt ParsedQuery := do
  let qnameResult ← parseStrictQueryName packet 12 maxNameBytes
  let qtype ← readUInt16BE packet qnameResult.endOffset
  let qclass ← readUInt16BE packet (qnameResult.endOffset + 2)
  if qtype ≠ 16 then fail .badQtype ("QTYPE=" ++ toString qtype)
  else if qclass ≠ 1 then fail .badQclass ("QCLASS=" ++ toString qclass)
  else
    let questionEnd := qnameResult.endOffset + 4
    if questionEnd ≠ packet.length then
      fail .trailing (toString ((packet.length : Int) - questionEnd) ++ " trailing bytes")
    else do
      let dnsId ← readUInt16BE packet 0
      decodeQuestion dnsId qnameResult.labels questionEnd

def parseQueryPacket : Attempt ParsedQuery :=
  if packet.length < 12 then fail .tooShort "<12"
  else if maxQueryBytes < packet.length then fail .tooLong (">" ++ toString maxQueryBytes)
  else do
    let flags ← readUInt16BE packet 2
    if flags ≠ 0 then fail .badFlags ("flags 0x" ++ hexText flags)
    else
      let qdcount ← readUInt16BE packet 4
      let ancount ← readUInt16BE packet 6
      let nscount ← readUInt16BE packet 8
      let arcount ← readUInt16BE packet 10
      if qdcount ≠ 1 ∨ ancount ≠ 0 ∨ nscount ≠ 0 ∨ arcount ≠ 0 then
        fail .badCounts ("QD=" ++ toString qdcount ++ " AN=" ++ toString ancount ++ " NS=" ++
          toString nscount ++ " AR=" ++ toString arcount)
      else parseQuestion packet

def parseQuery : Attempt ParsedQuery := parseQueryPacket packet

/-- What `parseResponsePacket` returns. -/
structure ParsedResponse where
  dnsId : Nat
  ack : DoorbellAck

def answerNameEnd (pos : Nat) : Attempt Nat :=
  match packet[pos]? with
  | none => failPlain .tooShort
  | some nameLen =>
    if nameLen &&& 0xc0 = 0xc0 then
      -- a pointer cut off after its first byte reads a missing byte, which counts as zero
      let ptr := (nameLen &&& 0x3f).toNat * 256 + ((packet[pos + 1]?).getD 0).toNat
      if ptr ≠ 12 then fail .compression "answer name pointer not to question"
      else .ok (pos + 2)
    else do
      let r ← parseStrictQueryName packet pos maxNameBytes
      .ok r.endOffset

def parseTxt (pos rdlength : Nat) : Attempt DoorbellAck :=
  if packet.length < pos + rdlength then failPlain .tooShort
  else if rdlength < 1 then fail .badTxtString "empty TXT RDATA"
  else
    let txtLen := ((packet[pos]?).getD 0).toNat
    if txtLen + 1 ≠ rdlength then
      fail .badTxtString ("TXT len " ++ toString txtLen ++ " != RDATA " ++ toString rdlength)
    else
      let ackPayload := subarray packet (pos + 1) (pos + rdlength)
      if ackPayload.length ≠ ackPayloadBytes then
        fail .badLength ("ack payload " ++ toString ackPayload.length)
      else decodeAckPayload ackPayload

/-- A round of the loop over the answers, which returns on every path: the rounds after the
first, which would refuse a second TXT record, are never reached. -/
def parseAnswer (pos : Nat) : Attempt DoorbellAck := do
  let pos ← answerNameEnd packet pos
  if packet.length < pos + 10 then failPlain .tooShort
  else
    let atype ← readUInt16BE packet pos
    let aclass ← readUInt16BE packet (pos + 2)
    let ttl ← readUInt32BE packet (pos + 4)
    if atype ≠ 16 then fail .badQtype ("answer TYPE=" ++ toString atype ++ " not TXT")
    else if aclass ≠ 1 then fail .badQclass ("answer CLASS=" ++ toString aclass ++ " not IN")
    else if ttl ≠ 0 then fail .badTtl ("answer TTL=" ++ toString ttl)
    else
      let rdlength ← readUInt16BE packet (pos + 8)
      parseTxt packet (pos + 10) rdlength

def parseResponsePacket : Attempt ParsedResponse :=
  if packet.length < 12 then failPlain .tooShort
  else do
    let dnsId ← readUInt16BE packet 0
    let flags ← readUInt16BE packet 2
    if flags &&& 0x8000 = 0 then fail .badFlags "QR=0 (not a response)"
    else
      let qdcount ← readUInt16BE packet 4
      let ancount ← readUInt16BE packet 6
      if qdcount ≠ 1 ∨ ancount < 1 then failPlain .badCounts
      else
        let qnameResult ← parseStrictQueryName packet 12 maxNameBytes
        let questionEnd := qnameResult.endOffset + 4
        if queryPacket.drop 12 ≠ subarray packet 12 questionEnd then
          fail .responseMismatch "question mismatch"
        else
          let ack ← parseAnswer packet questionEnd
          .ok ⟨dnsId, ack⟩

def parseResponse : Attempt ParsedResponse :=
  parseResponsePacket packet queryPacket

/-! ## Names read back -/

structure WireLabel (label : Bytes) : Prop where
  text : isLabel (asciiText label) = true
  short : label.length ≤ 63

theorem length_asciiText (bytes : Bytes) : (asciiText bytes).length = bytes.length := by
  simp [asciiText]

theorem WireLabel.length_pos {label : Bytes} (h : WireLabel label) : 0 < label.length := by
  have htext := h.text
  simp only [isLabel, ne_eq, Bool.decide_and, Bool.and_eq_true, decide_eq_true_eq] at htext
  rw [← length_asciiText]
  exact List.length_pos_of_ne_nil htext.1

@[simp]
theorem wireLabels_nil : wireLabels [] = [] := rfl

@[simp]
theorem wireLabels_cons (label : Bytes) (labels : List Bytes) :
    wireLabels (label :: labels) = UInt8.ofNat label.length :: (label ++ wireLabels labels) := rfl

theorem wireLabels_append (labels more : List Bytes) :
    wireLabels (labels ++ more) = wireLabels labels ++ wireLabels more := by
  simp [wireLabels]

theorem length_le_wireLabels (labels : List Bytes) :
    labels.length ≤ (wireLabels labels).length := by
  induction labels with
  | nil => simp
  | cons label labels ih =>
    simp only [wireLabels_cons, List.length_cons, List.length_append]
    omega

theorem lengthByte {n : Nat} (hpos : 0 < n) (hshort : n ≤ 63) :
    (UInt8.ofNat n).toNat = n ∧ UInt8.ofNat n ≠ 0 ∧ UInt8.ofNat n &&& 0xc0 = 0 ∧
      UInt8.ofNat n &&& 0xc0 ≠ 0xc0 := by
  have hsmall : ∀ m < 64, 0 < m → (UInt8.ofNat m).toNat = m ∧ UInt8.ofNat m ≠ 0 ∧
      UInt8.ofNat m &&& 0xc0 = 0 ∧ UInt8.ofNat m &&& 0xc0 ≠ 0xc0 := by decide
  exact hsmall n (by omega) hpos

theorem strictNameLoop_wire {maxBytes : Nat}
    (hvalid : ∀ label ∈ labels, WireLabel label) (fuel : Nat) (tail : Bytes) :
    ∀ pos nameLen texts, nameLen + (wireLabels labels).length ≤ maxBytes →
      strictNameLoop maxBytes (fuel + labels.length) (wireLabels labels ++ tail) pos nameLen
          texts =
        strictNameLoop maxBytes fuel tail (pos + (wireLabels labels).length)
          (nameLen + (wireLabels labels).length) (texts ++ labels.map asciiText) := by
  induction labels with
  | nil => simp
  | cons label labels ih =>
    intro pos nameLen texts hsize
    have hlabel := hvalid label List.mem_cons_self
    obtain ⟨hlen, hzero, hpointer, -⟩ := lengthByte hlabel.length_pos hlabel.short
    have hshort := hlabel.short
    simp only [wireLabels_cons, List.length_cons, List.length_append] at hsize ⊢
    rw [← Nat.add_assoc, List.cons_append, List.append_assoc, strictNameLoop, if_neg hzero,
      if_neg (not_not.2 hpointer), hlen, if_neg (by omega),
      if_neg (by rw [List.length_append]; omega), List.take_left, List.drop_left]
    simp only [hlabel.text, if_true]
    rw [if_neg (by omega), ih (fun l hl => hvalid l (List.mem_cons_of_mem _ hl)) _ _ _ (by omega)]
    congr 1
    · omega
    · omega
    · simp

theorem parseStrictQueryName_wire {packet : Bytes} {start maxBytes : Nat}
    {more : Bytes} (hpacket : packet.drop start = wireLabels labels ++ 0 :: more)
    (hvalid : ∀ label ∈ labels, WireLabel label) (hsome : labels ≠ [])
    (hsize : (wireLabels labels).length ≤ maxBytes) :
    parseStrictQueryName packet start maxBytes =
      .ok ⟨labels.map asciiText, start + (wireLabels labels).length + 1,
        (wireLabels labels).length⟩ := by
  have hmany := length_le_wireLabels labels
  have hlong : (packet.drop start).length = (wireLabels labels).length + (more.length + 1) := by
    rw [hpacket]
    simp
  obtain ⟨fuel, hfuel⟩ : ∃ fuel, packet.length = fuel + 1 + labels.length := by
    rw [List.length_drop] at hlong
    exact ⟨packet.length - labels.length - 1, by omega⟩
  rw [parseStrictQueryName, hfuel, hpacket, strictNameLoop_wire hvalid _ _ _ _ _ (by omega),
    strictNameLoop, if_pos rfl, finishName, if_neg]
  · simp
  · simpa using hsome

theorem findQnameEndFor_wire (hvalid : ∀ label ∈ labels, WireLabel label)
    (fuel : Nat) (tail : Bytes) :
    ∀ pos, findQnameEndFor (fuel + labels.length) (wireLabels labels ++ tail) pos =
      findQnameEndFor fuel tail (pos + (wireLabels labels).length) := by
  induction labels with
  | nil => simp
  | cons label labels ih =>
    intro pos
    have hlabel := hvalid label List.mem_cons_self
    obtain ⟨hlen, hzero, -, hpointer⟩ := lengthByte hlabel.length_pos hlabel.short
    have hshort := hlabel.short
    rw [wireLabels_cons, List.length_cons, ← Nat.add_assoc, List.cons_append, List.append_assoc,
      findQnameEndFor, if_neg hzero, if_neg hpointer, hlen, if_neg (by omega),
      if_neg (by rw [List.length_append]; omega), List.drop_left,
      ih fun l hl => hvalid l (List.mem_cons_of_mem _ hl)]
    congr 1
    simp only [List.length_cons, List.length_append]
    omega

/-! ## Queries read back -/

def queryFrame (dnsId : UInt16) (labels : List Bytes) : Bytes :=
  u16BE dnsId.toNat ++ u16BE 0 ++ u16BE 1 ++ u16BE 0 ++ u16BE 0 ++ u16BE 0 ++
    encodeQuestion (wireLabels labels ++ [0])

theorem length_queryFrame (dnsId : UInt16) (labels : List Bytes) :
    (queryFrame dnsId labels).length = (wireLabels labels).length + 17 := by
  simp only [queryFrame, encodeQuestion, u16BE, List.length_append, length_bigEndian,
    List.length_singleton]
  omega

theorem drop_queryFrame (dnsId : UInt16) (labels : List Bytes) :
    (queryFrame dnsId labels).drop 12 = wireLabels labels ++ 0 :: (u16BE 16 ++ u16BE 1) := by
  show wireLabels labels ++ [0] ++ u16BE 16 ++ u16BE 1 = _
  simp

theorem readBE_queryFrame {offset v : Nat}
    (hread : readBE size (0 :: (u16BE 16 ++ u16BE 1)) offset = .ok v) :
    readBE size (queryFrame dnsId labels) (12 + (wireLabels labels).length + offset) = .ok v := by
  have hframe : queryFrame dnsId labels =
      ((queryFrame dnsId labels).take 12 ++ wireLabels labels) ++ 0 :: (u16BE 16 ++ u16BE 1) := by
    rw [List.append_assoc, ← drop_queryFrame dnsId labels, List.take_append_drop]
  have hhead : ((queryFrame dnsId labels).take 12 ++ wireLabels labels).length =
      12 + (wireLabels labels).length := by
    rw [List.length_append, List.length_take, length_queryFrame]
    omega
  rw [hframe, ← hhead]
  exact readBE_shift hread

/-- A well-framed query is read from its labels alone. -/
theorem parseQuery_wire (hvalid : ∀ label ∈ labels, WireLabel label) (hsome : labels ≠ [])
    (hsize : (wireLabels labels).length ≤ maxNameBytes) :
    parseQuery (queryFrame dnsId labels) =
      decodeQuestion dnsId.toNat (labels.map asciiText) (queryFrame dnsId labels).length := by
  have hlength := length_queryFrame dnsId labels
  have hmax : maxNameBytes = 255 := rfl
  have hid : readUInt16BE (queryFrame dnsId labels) 0 = .ok dnsId.toNat := by
    rw [readUInt16BE, readBE_ok (by omega)]
    have hbytes : subarray (queryFrame dnsId labels) 0 (0 + 2) = u16BE dnsId.toNat := rfl
    rw [hbytes, u16BE, numberOf_bigEndian dnsId.toNat_lt]
  have hflags : readUInt16BE (queryFrame dnsId labels) 2 = .ok 0 := readBE_ok (by omega)
  have hqd : readUInt16BE (queryFrame dnsId labels) 4 = .ok 1 := readBE_ok (by omega)
  have han : readUInt16BE (queryFrame dnsId labels) 6 = .ok 0 := readBE_ok (by omega)
  have hns : readUInt16BE (queryFrame dnsId labels) 8 = .ok 0 := readBE_ok (by omega)
  have har : readUInt16BE (queryFrame dnsId labels) 10 = .ok 0 := readBE_ok (by omega)
  have hname := parseStrictQueryName_wire (drop_queryFrame dnsId labels) hvalid hsome hsize
  have htype : readUInt16BE (queryFrame dnsId labels) (12 + (wireLabels labels).length + 1) =
      .ok 16 := readBE_queryFrame rfl
  have hclass : readUInt16BE (queryFrame dnsId labels)
      (12 + (wireLabels labels).length + 1 + 2) = .ok 1 := by
    show readBE 2 _ (12 + (wireLabels labels).length + 3) = _
    exact readBE_queryFrame rfl
  have hend : 12 + (wireLabels labels).length + 1 + 4 = (queryFrame dnsId labels).length := by
    omega
  have hlow : ¬ (queryFrame dnsId labels).length < 12 := by omega
  have hhigh : ¬ maxQueryBytes < (queryFrame dnsId labels).length := by
    show ¬ 384 < (queryFrame dnsId labels).length
    omega
  rw [parseQuery, parseQueryPacket, if_neg hlow, if_neg hhigh, hflags, hqd, han, hns, har]
  simp [bind, Except.bind, parseQuestion, hname, htype, hclass, hend, hid]

/-! ## What the encoder frames -/

theorem asciiText_asciiBytes (htext : ∀ c ∈ text, c.toNat < 128) :
    asciiText (asciiBytes text) = text := by
  rw [asciiText, asciiBytes, List.map_map]
  conv_rhs => rw [← List.map_id text]
  refine List.map_congr_left fun c hc => ?_
  have hc' := htext c hc
  have hbyte : (UInt8.ofNat c.toNat).toNat = c.toNat :=
    UInt8.toNat_ofNat_of_lt (show c.toNat < 256 by omega)
  simp only [Function.comp_apply, hbyte, id_eq]
  rw [Nat.mod_eq_of_lt hc', Char.ofNat_toNat]

/-- Characters of the alphabet may stand in a label, and none is the underscore of the
suffix. -/
theorem isLabelChar_of_base32 {c : Char} (hc : isBase32Char c = true) :
    isLabelChar c = true ∧ c.toNat < 128 ∧ c ≠ '_' := by
  have hrange : (97 ≤ c.toNat ∧ c.toNat ≤ 122) ∨ (50 ≤ c.toNat ∧ c.toNat ≤ 55) := by
    simpa [isBase32Char] using hc
  refine ⟨?_, by omega, ?_⟩
  · rw [isLabelChar, decide_eq_true_eq]
    omega
  · rintro rfl
    exact absurd hc (by decide)

theorem wireLabel_of_base32 (htext : ∀ c ∈ text, isBase32Char c = true)
    (hsome : text ≠ []) (hshort : text.length ≤ 63) : WireLabel (asciiBytes text) := by
  have hback : asciiText (asciiBytes text) = text :=
    asciiText_asciiBytes fun c hc => (isLabelChar_of_base32 (htext c hc)).2.1
  refine ⟨?_, by simpa [asciiBytes] using hshort⟩
  rw [hback, isLabel, decide_eq_true_eq, List.all_eq_true]
  exact ⟨hsome, fun c hc => (isLabelChar_of_base32 (htext c hc)).1⟩

theorem splitFor_short {fuel : Nat} (hsome : text ≠ [])
    (hshort : text.length ≤ size) : splitFor size (fuel + 1) text = [text] := by
  rw [splitFor, if_neg hsome, List.take_of_length_le hshort, List.drop_eq_nil_of_le hshort]
  cases fuel <;> simp [splitFor]

theorem splitFor_long {fuel : Nat} (hlong : size < text.length) :
    splitFor size (fuel + 1) text = text.take size :: splitFor size fuel (text.drop size) := by
  rw [splitFor, if_neg]
  rintro rfl
  simp at hlong

theorem splitLabels_parts {a b c d : List Char} (ha : a.length = 52) (hb : b.length = 52)
    (hc : c.length = 52) (hd : d.length = 40) :
    splitLabels (a ++ (b ++ (c ++ d))) = [a, b, c, d] := by
  have hlength : (a ++ (b ++ (c ++ d))).length = 196 := by simp [ha, hb, hc, hd]
  have hd' : d ≠ [] := by
    rintro rfl
    simp at hd
  rw [splitLabels, hlength]
  rw [splitFor_long (by omega), List.take_left' ha, List.drop_left' ha]
  rw [splitFor_long (by simp [hb, hc, hd]), List.take_left' hb, List.drop_left' hb]
  rw [splitFor_long (by simp [hc, hd]), List.take_left' hc, List.drop_left' hc]
  rw [splitFor_short hd' (by omega)]

structure PayloadLabels (a b c d : List Char) : Prop where
  first : a.length = 52
  second : b.length = 52
  third : c.length = 52
  last : d.length = 40
  alphabet : ∀ ch ∈ a ++ (b ++ (c ++ d)), isBase32Char ch = true

def questionLabels (a b c d : List Char) : List Bytes :=
  ([a, b, c, d] ++ suffixLabels).map asciiBytes

theorem PayloadLabels.buildQueryName {a b c d : List Char} (h : PayloadLabels a b c d) :
    buildQueryName (a ++ (b ++ (c ++ d))) = wireLabels (questionLabels a b c d) ++ [0] := by
  rw [Abtars.buildQueryName, splitLabels_parts h.first h.second h.third h.last, questionLabels]

theorem exists_payloadLabels (hlength : text.length = 196)
    (htext : ∀ c ∈ text, isBase32Char c = true) :
    ∃ a b c d, PayloadLabels a b c d ∧ text = a ++ (b ++ (c ++ d)) := by
  have hwhole : text = text.take 52 ++ ((text.drop 52).take 52 ++
      ((text.drop 104).take 52 ++ text.drop 156)) := by
    have hthird : (text.drop 104).take 52 ++ text.drop 156 = text.drop 104 := by
      rw [show text.drop 156 = (text.drop 104).drop 52 by rw [List.drop_drop],
        List.take_append_drop]
    have hsecond : (text.drop 52).take 52 ++ text.drop 104 = text.drop 52 := by
      rw [show text.drop 104 = (text.drop 52).drop 52 by rw [List.drop_drop],
        List.take_append_drop]
    rw [hthird, hsecond, List.take_append_drop]
  refine ⟨_, _, _, _, ⟨?_, ?_, ?_, ?_, ?_⟩, hwhole⟩
  · simp [hlength]
  · simp [hlength]
  · simp [hlength]
  · simp [hlength]
  · rw [← hwhole]
    exact htext

section Question

variable {a b c d : List Char}

theorem PayloadLabels.wireLabel (h : PayloadLabels a b c d) {label : Bytes}
    (hlabel : label ∈ questionLabels a b c d) : WireLabel label := by
  obtain ⟨text, htext, rfl⟩ := List.mem_map.1 hlabel
  have hfirst := h.first
  have hsecond := h.second
  have hthird := h.third
  have hlast := h.last
  have hchars : ∀ ch ∈ text, text ∈ [a, b, c, d] → isBase32Char ch = true := by
    intro ch hch hpart
    apply h.alphabet
    simp only [List.mem_cons, List.not_mem_nil, or_false] at hpart
    rcases hpart with rfl | rfl | rfl | rfl <;> simp [hch]
  rcases List.mem_append.1 htext with hpart | hsuffix
  · have hsize : 0 < text.length ∧ text.length ≤ 63 := by
      simp only [List.mem_cons, List.not_mem_nil, or_false] at hpart
      rcases hpart with rfl | rfl | rfl | rfl <;> omega
    exact wireLabel_of_base32 (fun ch hch => hchars ch hch hpart)
      (List.ne_nil_of_length_pos hsize.1) hsize.2
  simp only [suffixLabels, List.mem_cons, List.not_mem_nil, or_false] at hsuffix
  rcases hsuffix with rfl | rfl | rfl
  · exact ⟨by decide, by decide⟩
  · exact ⟨by decide, by decide⟩
  · exact ⟨by decide, by decide⟩

theorem PayloadLabels.length_wireLabels (h : PayloadLabels a b c d) :
    (wireLabels (questionLabels a b c d)).length = 228 := by
  simp only [questionLabels, suffixLabels, List.map_append, List.map_cons, List.map_nil,
    wireLabels_append, wireLabels_cons, wireLabels_nil, List.length_append, List.length_cons,
    List.length_nil, asciiBytes, List.length_map, h.first, h.second, h.third, h.last]
  rfl

theorem PayloadLabels.texts (h : PayloadLabels a b c d) :
    (questionLabels a b c d).map asciiText = [a, b, c, d] ++ suffixLabels := by
  have hback : ∀ part ∈ [a, b, c, d], asciiText (asciiBytes part) = part := by
    intro part hpart
    refine asciiText_asciiBytes fun ch hch => ?_
    refine (isLabelChar_of_base32 (h.alphabet ch ?_)).2.1
    simp only [List.mem_cons, List.not_mem_nil, or_false] at hpart
    rcases hpart with rfl | rfl | rfl | rfl <;> simp [hch]
  rw [questionLabels, List.map_map, List.map_append]
  congr 1
  simpa using ⟨hback a (by simp), hback b (by simp), hback c (by simp), hback d (by simp)⟩

theorem PayloadLabels.findSuffix (h : PayloadLabels a b c d) :
    ([a, b, c, d] ++ suffixLabels).findIdx? (· = doorbellLabel) = some 4 ∧
      (([a, b, c, d] ++ suffixLabels).take 4).flatten = a ++ (b ++ (c ++ d)) := by
  have hne : ∀ part ∈ [a, b, c, d], part ≠ doorbellLabel := by
    intro part hpart hsuffix
    have hunderscore : '_' ∈ part := by
      rw [hsuffix]
      decide
    have hpayload : '_' ∈ a ++ (b ++ (c ++ d)) := by
      simp only [List.mem_cons, List.not_mem_nil, or_false] at hpart
      rcases hpart with rfl | rfl | rfl | rfl <;> simp [hunderscore]
    exact (isLabelChar_of_base32 (h.alphabet _ hpayload)).2.2 rfl
  have ha := hne a (by simp)
  have hb := hne b (by simp)
  have hc := hne c (by simp)
  have hd := hne d (by simp)
  exact ⟨by simp [List.findIdx?_cons, suffixLabels, ha, hb, hc, hd], by simp⟩

theorem PayloadLabels.decodeQuestion (h : PayloadLabels a b c d) (dnsId questionEnd : Nat)
    {q : DoorbellQuery} (hdecode : base32Decode (a ++ (b ++ (c ++ d))) = .ok payload)
    (hlength : payload.length = 122) (hquery : decodeQueryPayload payload = .ok q) :
    Abtars.decodeQuestion dnsId ([a, b, c, d] ++ suffixLabels) questionEnd =
      .ok ⟨dnsId, [a, b, c, d] ++ suffixLabels, questionEnd, a ++ (b ++ (c ++ d)), payload, q⟩ := by
  obtain ⟨hidx, htext⟩ := h.findSuffix
  have hbytes : ¬ payload.length ≠ queryPayloadBytes := not_not.2 hlength
  rw [Abtars.decodeQuestion, hidx]
  simp only [htext, hdecode, bind, Except.bind]
  rw [if_neg hbytes, hquery]

end Question

/-- A well-formed query is framed around the labels of its payload text. -/
theorem encodeQuery_spec {q : DoorbellQuery} (hq : q.WellFormed) (dnsId : UInt16) :
    ∃ payload a b c d, decodeQueryPayload payload = .ok q ∧ payload.length = 122 ∧
      base32Encode payload = a ++ (b ++ (c ++ d)) ∧ PayloadLabels a b c d ∧
      encodeQuery dnsId q = .ok (queryFrame dnsId (questionLabels a b c d)) := by
  have hpayload := serializeQueryPayload_ok hq.timestampSec
  set payload := [1, 1] ++ (q.senderSelector ++ (q.targetSelector ++
    (bigEndian 8 q.timestampSec ++ (q.nonce ++ q.signature)))) with hdef
  have hlength : payload.length = 122 := by
    rw [hdef]
    simp [hq.senderSelector, hq.targetSelector, hq.nonce, hq.signature]
  obtain ⟨values, pad, htext, hvalues, hcount, hpad, -⟩ := base32Encode_values payload
  have hchars : ∀ c ∈ base32Encode payload, isBase32Char c = true := by
    intro c hc
    rw [htext] at hc
    obtain ⟨v, hv, rfl⟩ := List.mem_map.1 hc
    exact (isBase32Char_base32Char (hvalues v hv)).1
  have hlong : (base32Encode payload).length = 196 := by
    rw [htext, List.length_map]
    omega
  obtain ⟨a, b, c, d, hlabels, hparts⟩ := exists_payloadLabels hlong hchars
  refine ⟨payload, a, b, c, d, (decodeQueryPayload_eq_ok_iff payload q).2 ⟨hq, hpayload⟩, hlength,
    hparts, hlabels, ?_⟩
  have hwire := hlabels.length_wireLabels
  have hframe := length_queryFrame dnsId (questionLabels a b c d)
  have hname : ¬ maxNameBytes < (wireLabels (questionLabels a b c d) ++ [0]).length := by
    rw [List.length_append, hwire]
    decide
  have hpacket : ¬ maxQueryBytes < (queryFrame dnsId (questionLabels a b c d)).length := by
    rw [hframe, hwire]
    decide
  rw [encodeQuery, hpayload]
  simp only [bind, Except.bind, hlength, queryPayloadBytes, ne_eq, not_true_eq_false, if_false,
    hparts, hlabels.buildQueryName]
  rw [if_neg hname]
  exact if_neg hpacket

/-! ## Acknowledgements read back -/

def answerRecord (payload : Bytes) : Bytes :=
  [0xc0, 0x0c] ++ u16BE 16 ++ u16BE 1 ++ u32BE 0 ++ u16BE 123 ++ 122 :: payload

/-- A record at a position is read as the acknowledgement in it. -/
theorem parseAnswer_record (before : Bytes)
    (hlength : payload.length = 122) (hack : decodeAckPayload payload = .ok ack) :
    parseAnswer (before ++ answerRecord payload) before.length = .ok ack := by
  have hrecord : (answerRecord payload).length = 135 := by
    simp [answerRecord, u16BE, u32BE, hlength]
  have hall : (before ++ answerRecord payload).length = before.length + 135 := by
    rw [List.length_append, hrecord]
  have hbyte : ∀ i, (before ++ answerRecord payload)[before.length + i]? =
      (answerRecord payload)[i]? := by
    intro i
    rw [List.getElem?_append_right (by omega), Nat.add_sub_cancel_left]
  have hname : answerNameEnd (before ++ answerRecord payload) before.length =
      .ok (before.length + 2) := by
    have hfirst : (before ++ answerRecord payload)[before.length]? = some 0xc0 := hbyte 0
    have hsecond : (before ++ answerRecord payload)[before.length + 1]? = some 0x0c := hbyte 1
    have hpointer : (0xc0 : UInt8) &&& 0xc0 = 0xc0 := by decide
    have hptr : ¬ ((0xc0 : UInt8) &&& 0x3f).toNat * 256 +
        ((some (0x0c : UInt8)).getD 0).toNat ≠ 12 := by decide
    rw [answerNameEnd, hfirst]
    simp only [hsecond]
    rw [if_pos hpointer, if_neg hptr]
  have htype : readUInt16BE (before ++ answerRecord payload) (before.length + 2) = .ok 16 :=
    readBE_shift (readBE_ok (by omega))
  have hclass : readUInt16BE (before ++ answerRecord payload) (before.length + 2 + 2) = .ok 1 := by
    show readBE 2 _ (before.length + 4) = _
    exact readBE_shift (readBE_ok (by omega))
  have httl : readUInt32BE (before ++ answerRecord payload) (before.length + 2 + 4) = .ok 0 := by
    show readBE 4 _ (before.length + 6) = _
    exact readBE_shift (readBE_ok (by omega))
  have hrdata : readUInt16BE (before ++ answerRecord payload) (before.length + 2 + 8) =
      .ok 123 := by
    show readBE 2 _ (before.length + 10) = _
    exact readBE_shift (readBE_ok (by omega))
  have htxt : parseTxt (before ++ answerRecord payload) (before.length + 2 + 10) 123 =
      .ok ack := by
    have hlen : (before ++ answerRecord payload)[before.length + 2 + 10]? = some 122 := hbyte 12
    have hcut : subarray (before ++ answerRecord payload) (before.length + 2 + 10 + 1)
        (before.length + 2 + 10 + 123) = payload := by
      show subarray _ (before.length + 13) (before.length + 135) = _
      rw [subarray_shift, ← hrecord]
      show ((answerRecord payload).take (answerRecord payload).length).drop 13 = _
      rw [List.take_length]
      rfl
    have hbytes : ¬ payload.length ≠ ackPayloadBytes := not_not.2 hlength
    have hinside : ¬ (before ++ answerRecord payload).length < before.length + 2 + 10 + 123 := by
      omega
    simp only [parseTxt, hlen, hcut, if_neg hbytes, if_neg hinside, hack]
    rfl
  have hinside : ¬ (before ++ answerRecord payload).length < before.length + 2 + 10 := by omega
  rw [parseAnswer, hname]
  simp only [bind, Except.bind, if_neg hinside, htype, hclass, httl, hrdata, htxt]
  rfl

def responseFrame (dnsId : UInt16) (labels : List Bytes) (payload : Bytes) : Bytes :=
  u16BE dnsId.toNat ++ u16BE 0x8400 ++ u16BE 1 ++ u16BE 1 ++ u16BE 0 ++ u16BE 0 ++
    (queryFrame dnsId labels).drop 12 ++ answerRecord payload

theorem length_responseFrame (hlength : payload.length = 122) :
    (responseFrame dnsId labels payload).length = (wireLabels labels).length + 152 := by
  simp [responseFrame, answerRecord, u16BE, u32BE, length_queryFrame, hlength]
  omega

theorem encodeResponse_frame (hvalid : ∀ label ∈ labels, WireLabel label)
    (hsize : (wireLabels labels).length = 228) (hpayload : serializeAckPayload ack = .ok payload)
    (hlength : payload.length = 122) :
    encodeResponse (queryFrame dnsId labels) ack = .ok (responseFrame dnsId labels payload) := by
  have hframe : (queryFrame dnsId labels).length = 245 := by rw [length_queryFrame, hsize]
  have hresponse : (responseFrame dnsId labels payload).length = 380 := by
    rw [length_responseFrame hlength, hsize]
  have hmany := length_le_wireLabels labels
  have hend : findQnameEnd (queryFrame dnsId labels) 12 = .ok 241 := by
    obtain ⟨fuel, hfuel⟩ : ∃ fuel, (queryFrame dnsId labels).length = fuel + 1 + labels.length :=
      ⟨(queryFrame dnsId labels).length - labels.length - 1, by omega⟩
    rw [findQnameEnd, drop_queryFrame, hfuel, findQnameEndFor_wire hvalid, hsize]
    rfl
  have hquestion : subarray (queryFrame dnsId labels) 12 (241 + 4) =
      (queryFrame dnsId labels).drop 12 := by
    rw [subarray, List.take_of_length_le (by omega)]
  have hlow : ¬ (queryFrame dnsId labels).length < 12 := by omega
  have hbound : ¬ min maxResponseBytes (245 * 2) < (responseFrame dnsId labels payload).length := by
    rw [hresponse]
    decide
  have hbytes : ¬ 122 ≠ ackPayloadBytes := by decide
  have hrdata : ¬ 255 < 122 + 1 := by omega
  rw [encodeResponse, if_neg hlow, hpayload]
  simp only [bind, Except.bind, hlength, hend, hquestion, hframe, List.length_cons]
  rw [if_neg hbytes, if_neg hrdata]
  exact if_neg hbound

/-- A response frame is read against its query as the acknowledgement in it. -/
theorem parseResponse_frame (hvalid : ∀ label ∈ labels, WireLabel label) (hsome : labels ≠ [])
    (hsize : (wireLabels labels).length = 228) (hlength : payload.length = 122)
    (hack : decodeAckPayload payload = .ok ack) :
    parseResponse (responseFrame dnsId labels payload) (queryFrame dnsId labels) =
      .ok ⟨dnsId.toNat, ack⟩ := by
  set response := responseFrame dnsId labels payload with hdef
  have hresponse : response.length = 380 := by
    rw [hdef, length_responseFrame hlength, hsize]
  have hid : readUInt16BE response 0 = .ok dnsId.toNat := by
    rw [readUInt16BE, readBE_ok (by omega)]
    have hbytes : subarray response 0 (0 + 2) = u16BE dnsId.toNat := rfl
    rw [hbytes, u16BE, numberOf_bigEndian dnsId.toNat_lt]
  have hflags : readUInt16BE response 2 = .ok 0x8400 := readBE_ok (by omega)
  have hqd : readUInt16BE response 4 = .ok 1 := readBE_ok (by omega)
  have han : readUInt16BE response 6 = .ok 1 := readBE_ok (by omega)
  have hdrop : response.drop 12 =
      wireLabels labels ++ 0 :: (u16BE 16 ++ u16BE 1 ++ answerRecord payload) := by
    show (queryFrame dnsId labels).drop 12 ++ answerRecord payload = _
    rw [drop_queryFrame]
    simp
  have hname := parseStrictQueryName_wire hdrop hvalid hsome
    (show (wireLabels labels).length ≤ maxNameBytes by rw [hsize]; decide)
  rw [hsize] at hname
  have hframe : (queryFrame dnsId labels).length = 245 := by rw [length_queryFrame, hsize]
  have hquestion : (queryFrame dnsId labels).drop 12 = subarray response 12 245 := by
    have hlong : ((queryFrame dnsId labels).drop 12).length = 233 := by
      rw [List.length_drop, hframe]
    have hcut : subarray response (12 + 0) (12 + 233) =
        ((queryFrame dnsId labels).drop 12 ++ answerRecord payload).take 233 :=
      subarray_shift (response.take 12) ((queryFrame dnsId labels).drop 12 ++ answerRecord payload)
        0 233
    rw [List.take_left' hlong] at hcut
    exact hcut.symm
  have hanswer : parseAnswer response 245 = .ok ack := by
    have hbefore : (u16BE dnsId.toNat ++ u16BE 0x8400 ++ u16BE 1 ++ u16BE 1 ++ u16BE 0 ++
        u16BE 0 ++ (queryFrame dnsId labels).drop 12).length = 245 := by
      simp [u16BE, hframe]
    rw [hdef, responseFrame, ← hbefore]
    exact parseAnswer_record _ hlength hack
  have hlow : ¬ response.length < 12 := by omega
  rw [parseResponse, parseResponsePacket, if_neg hlow, hid]
  simp only [bind, Except.bind, hflags, hqd, han, hname, hanswer, ← hquestion]
  simp

/-- **What the encoders write, the parsers read.**  Every well-formed query is encoded, under any
id, to a packet that parses to it; every well-formed acknowledgement of that packet is encoded
to a response that the receiver takes and that parses to it against the packet. -/
theorem codec_round_trip (dnsId : UInt16) (q : DoorbellQuery) (hq : q.WellFormed) :
    ∃ packet, encodeQuery dnsId q = .ok packet ∧
      (∃ r, parseQuery packet = .ok r ∧ r.parsed = q ∧ r.dnsId = dnsId.toNat) ∧
      ∀ a : DoorbellAck, a.WellFormed →
        ∃ response, encodeResponse packet a = .ok response ∧ response.length ≤ maxQueryBytes ∧
          ∃ r, parseResponse response packet = .ok r ∧ r.ack = a ∧ r.dnsId = dnsId.toNat := by
  obtain ⟨payload, a, b, c, d, hquery, hlength, htext, hlabels, hencode⟩ :=
    encodeQuery_spec hq dnsId
  have hvalid : ∀ label ∈ questionLabels a b c d, WireLabel label := fun _ => hlabels.wireLabel
  have hsize := hlabels.length_wireLabels
  have hsome : questionLabels a b c d ≠ [] := by simp [questionLabels]
  refine ⟨_, hencode, ?_, ?_⟩
  · have hdecode : base32Decode (a ++ (b ++ (c ++ d))) = .ok payload := by
      rw [← htext]
      exact base32Decode_encode payload
    have hparse : parseQuery (queryFrame dnsId (questionLabels a b c d)) =
        decodeQuestion dnsId.toNat ([a, b, c, d] ++ suffixLabels)
          (queryFrame dnsId (questionLabels a b c d)).length := by
      rw [parseQuery_wire hvalid hsome (by rw [hsize]; decide), hlabels.texts]
    exact ⟨_, hparse.trans (hlabels.decodeQuestion dnsId.toNat _ hdecode hlength hquery), rfl, rfl⟩
  · intro ack hack
    obtain ⟨bytes, hserialize, hbytes, hread⟩ := decodeAckPayload_serialize hack
    refine ⟨_, encodeResponse_frame hvalid hsize hserialize hbytes, ?_, _,
      parseResponse_frame hvalid hsome hsize hbytes hread, rfl, rfl⟩
    rw [length_responseFrame hbytes, hsize]
    decide

/-- A query whose bytes are all zeros, as `Buffer.alloc` leaves them. -/
def blankQuery : DoorbellQuery where
  senderSelector := List.replicate 16 0
  targetSelector := List.replicate 16 0
  timestampSec := 0
  nonce := List.replicate 16 0
  signature := List.replicate 64 0

theorem codec_round_trip_blank :
    ∃ packet, encodeQuery 7 blankQuery = .ok packet ∧
      (∃ r, parseQuery packet = .ok r ∧ r.parsed = blankQuery ∧ r.dnsId = (7 : UInt16).toNat) ∧
      ∀ a : DoorbellAck, a.WellFormed →
        ∃ response, encodeResponse packet a = .ok response ∧ response.length ≤ maxQueryBytes ∧
          ∃ r, parseResponse response packet = .ok r ∧ r.ack = a ∧
            r.dnsId = (7 : UInt16).toNat :=
  codec_round_trip 7 blankQuery
    { senderSelector := rfl, targetSelector := rfl, timestampSec := by decide, nonce := rfl,
      signature := rfl }

end Abtars
