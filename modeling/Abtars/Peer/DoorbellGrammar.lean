import Abtars.Peer.DoorbellCodec

/-!
# The grammar of doorbell queries

Which packets `parseQuery` accepts without their being what `encodeQuery` writes, and on
which it reads past the end.
-/

namespace Abtars

open Lib

variable {offset : Nat} {buf packet : Bytes} {r : ParsedQuery}

/-! ## What an accepted packet has passed -/

variable {α : Type} {v : Nat}

theorem attempt_bind_eq_ok {β : Type} {x : Attempt α} {f : α → Attempt β} {b : β} :
    (x >>= f) = .ok b ↔ ∃ a, x = .ok a ∧ f a = .ok b := by
  cases x with
  | error e => simp [bind, Except.bind]
  | ok a => simp [bind, Except.bind]

theorem exists_of_isOk {x : Attempt α} (h : x.isOk = true) : ∃ a, x = .ok a := by
  cases x with
  | error e => cases h
  | ok a => exact ⟨a, rfl⟩

theorem fail_ne_ok {code : ParseErrorCode} {detail : String} {a : α} :
    (fail code detail : Attempt α) ≠ .ok a := by
  rintro ⟨⟩

theorem readBE_eq_ok_iff {size : Nat} :
    readBE size buf offset = .ok v ↔
      offset + size ≤ buf.length ∧ numberOf (subarray buf offset (offset + size)) = v := by
  rw [readBE]
  split
  · simp_all
  · simp_all

theorem subarray_of_readUInt16BE (hread : readUInt16BE buf offset = .ok v) :
    subarray buf offset (offset + 2) = u16BE v ∧ v < 65536 := by
  obtain ⟨hinside, rfl⟩ := readBE_eq_ok_iff.1 hread
  exact ⟨(bigEndian_subarray hinside).symm, numberOf_subarray_lt hinside⟩

theorem decodeQuestion_inv {dnsId questionEnd : Nat} {labels : List (List Char)}
    (h : decodeQuestion dnsId labels questionEnd = .ok r) :
    r.dnsId = dnsId ∧ ∃ suffixIdx, labels.findIdx? (· = doorbellLabel) = some suffixIdx ∧
      base32Decode (labels.take suffixIdx).flatten = .ok r.decoded ∧
      r.decoded.length = queryPayloadBytes ∧ decodeQueryPayload r.decoded = .ok r.parsed := by
  unfold decodeQuestion at h
  split at h
  · exact absurd h fail_ne_ok
  rename_i suffixIdx hidx
  obtain ⟨decoded, hdecoded, h⟩ := attempt_bind_eq_ok.1 h
  split at h
  · exact absurd h fail_ne_ok
  rename_i hlength
  obtain ⟨parsed, hparsed, h⟩ := attempt_bind_eq_ok.1 h
  cases h
  exact ⟨rfl, suffixIdx, hidx, hdecoded, not_not.1 hlength, hparsed⟩

theorem parseQuestion_inv (h : parseQuestion packet = .ok r) :
    ∃ name dnsId, parseStrictQueryName packet 12 maxNameBytes = .ok name ∧
      readUInt16BE packet 0 = .ok dnsId ∧
      decodeQuestion dnsId name.labels (name.endOffset + 4) = .ok r := by
  obtain ⟨name, hname, h⟩ := attempt_bind_eq_ok.1 h
  obtain ⟨qtype, -, h⟩ := attempt_bind_eq_ok.1 h
  obtain ⟨qclass, -, h⟩ := attempt_bind_eq_ok.1 h
  split at h
  · exact absurd h fail_ne_ok
  split at h
  · exact absurd h fail_ne_ok
  dsimp only at h
  split at h
  · exact absurd h fail_ne_ok
  obtain ⟨dnsId, hid, h⟩ := attempt_bind_eq_ok.1 h
  exact ⟨name, dnsId, hname, hid, h⟩

/-- The header `parseQueryPacket` insists on, before it looks at the question. -/
structure QueryHeader (packet : Bytes) : Prop where
  long : 12 ≤ packet.length
  short : packet.length ≤ maxQueryBytes
  flags : readUInt16BE packet 2 = .ok 0
  qdcount : readUInt16BE packet 4 = .ok 1
  ancount : readUInt16BE packet 6 = .ok 0
  nscount : readUInt16BE packet 8 = .ok 0
  arcount : readUInt16BE packet 10 = .ok 0

/-- A packet without the header is refused; one with it is left to the question. -/
theorem parseQuery_header (packet : Bytes) :
    (QueryHeader packet ∧ parseQuery packet = parseQuestion packet) ∨
      (¬ QueryHeader packet ∧ ∃ e, parseQuery packet = .error (.returned e)) := by
  by_cases hlow : packet.length < 12
  · refine .inr ⟨fun h => absurd h.long (by omega), ⟨.tooShort, some "<12"⟩, ?_⟩
    rw [parseQuery, parseQueryPacket, if_pos hlow]
    rfl
  by_cases hhigh : maxQueryBytes < packet.length
  · refine .inr ⟨fun h => absurd h.short (by omega), ⟨.tooLong, some (">" ++
      toString maxQueryBytes)⟩, ?_⟩
    rw [parseQuery, parseQueryPacket, if_neg hlow, if_pos hhigh]
    rfl
  have hread : ∀ offset, offset ≤ 10 → ∃ v, readUInt16BE packet offset = .ok v :=
    fun offset hoffset => ⟨_, readBE_ok (by omega)⟩
  obtain ⟨flags, hflags⟩ := hread 2 (by omega)
  obtain ⟨qd, hqd⟩ := hread 4 (by omega)
  obtain ⟨an, han⟩ := hread 6 (by omega)
  obtain ⟨ns, hns⟩ := hread 8 (by omega)
  obtain ⟨ar, har⟩ := hread 10 (by omega)
  rw [parseQuery, parseQueryPacket, if_neg hlow, if_neg hhigh, hflags, hqd, han, hns, har]
  simp only [bind, Except.bind]
  by_cases hzero : flags ≠ 0
  · refine .inr ⟨fun h => ?_, _, if_pos hzero⟩
    rw [h.flags, Except.ok.injEq] at hflags
    exact hzero hflags.symm
  rw [if_neg hzero]
  by_cases hcounts : qd ≠ 1 ∨ an ≠ 0 ∨ ns ≠ 0 ∨ ar ≠ 0
  · refine .inr ⟨fun h => ?_, _, if_pos hcounts⟩
    rw [h.qdcount, Except.ok.injEq] at hqd
    rw [h.ancount, Except.ok.injEq] at han
    rw [h.nscount, Except.ok.injEq] at hns
    rw [h.arcount, Except.ok.injEq] at har
    omega
  · rw [if_neg hcounts]
    refine .inl ⟨⟨by omega, by omega, ?_, ?_, ?_, ?_, ?_⟩, rfl⟩
    · rw [hflags, not_not.1 hzero]
    · rw [hqd, show qd = 1 by omega]
    · rw [han, show an = 0 by omega]
    · rw [hns, show ns = 0 by omega]
    · rw [har, show ar = 0 by omega]

theorem parseQuery_inv (h : parseQuery packet = .ok r) :
    QueryHeader packet ∧ parseQuestion packet = .ok r := by
  rcases parseQuery_header packet with ⟨hheader, heq⟩ | ⟨-, e, herror⟩
  · exact ⟨hheader, heq ▸ h⟩
  · rw [herror] at h
    cases h

theorem frame_of_parseQuery (h : parseQuery packet = .ok r) {labels : List Bytes}
    (hquestion : packet.drop 12 = encodeQuestion (wireLabels labels ++ [0])) :
    packet = queryFrame (UInt16.ofNat r.dnsId) labels := by
  obtain ⟨hheader, hparse⟩ := parseQuery_inv h
  obtain ⟨name, dnsId, -, hid, hdecode⟩ := parseQuestion_inv hparse
  obtain ⟨hidBytes, hsmall⟩ := subarray_of_readUInt16BE hid
  have hnumber : (UInt16.ofNat r.dnsId).toNat = dnsId := by
    rw [(decodeQuestion_inv hdecode).1, UInt16.toNat_ofNat', Nat.mod_eq_of_lt hsmall]
  have hflags : subarray packet 2 4 = u16BE 0 := (subarray_of_readUInt16BE hheader.flags).1
  have hqd : subarray packet 4 6 = u16BE 1 := (subarray_of_readUInt16BE hheader.qdcount).1
  have han : subarray packet 6 8 = u16BE 0 := (subarray_of_readUInt16BE hheader.ancount).1
  have hns : subarray packet 8 10 = u16BE 0 := (subarray_of_readUInt16BE hheader.nscount).1
  have har : subarray packet 10 12 = u16BE 0 := (subarray_of_readUInt16BE hheader.arcount).1
  have htake : packet.take 12 = u16BE dnsId ++ u16BE 0 ++ u16BE 1 ++ u16BE 0 ++ u16BE 0 ++
      u16BE 0 := by
    calc packet.take 12
        = subarray packet 0 2 ++ subarray packet 2 4 ++ subarray packet 4 6 ++
            subarray packet 6 8 ++ subarray packet 8 10 ++ subarray packet 10 12 := by
          rw [subarray_join packet (by omega) (by omega), subarray_join packet (by omega) (by omega),
            subarray_join packet (by omega) (by omega), subarray_join packet (by omega) (by omega),
            subarray_join packet (by omega) (by omega)]
          rfl
      _ = _ := by rw [hidBytes, hflags, hqd, han, hns, har]
  rw [queryFrame, hnumber, ← htake, ← hquestion, List.take_append_drop]

theorem wellFormed_of_parseQuery (h : parseQuery packet = .ok r) : r.parsed.WellFormed := by
  obtain ⟨-, hparse⟩ := parseQuery_inv h
  obtain ⟨name, dnsId, -, -, hdecode⟩ := parseQuestion_inv hparse
  obtain ⟨-, suffixIdx, -, -, -, hparsed⟩ := decodeQuestion_inv hdecode
  exact ((decodeQueryPayload_eq_ok_iff _ _).1 hparsed).1

/-! ## The accepted packets that the encoder writes -/

/-- A question as the encoder writes it: four labels of base32 characters, the last of which
carries one bit of the payload and four zeros, and the suffix. -/
def CanonicalQuestion (packet : Bytes) : Prop :=
  ∃ a b c d, PayloadLabels a b c d ∧ (d.getLast? = some 'a' ∨ d.getLast? = some 'q') ∧
    packet.drop 12 = encodeQuestion (wireLabels (questionLabels a b c d) ++ [0])

theorem base32Char_of_clean (hv : v < 32) :
    v % 16 = 0 ↔ base32Char v = 'a' ∨ base32Char v = 'q' := by
  revert v
  decide

theorem getLast?_clean {values : List Nat} (hvalues : ∀ v ∈ values, v < 32) (hsome : values ≠ []) :
    numeral 32 values % 16 = 0 ↔
      (values.map base32Char).getLast? = some 'a' ∨ (values.map base32Char).getLast? = some 'q' := by
  obtain ⟨init, last, rfl⟩ : ∃ init last, values = init ++ [last] :=
    ⟨_, _, (List.dropLast_append_getLast hsome).symm⟩
  have hlast : last < 32 := hvalues last (by simp)
  have hnumber : numeral 32 (init ++ [last]) % 16 = last % 16 := by
    rw [numeral_concat]
    omega
  rw [hnumber, base32Char_of_clean hlast]
  simp

theorem PayloadLabels.getLast? {a b c d : List Char} (h : PayloadLabels a b c d) :
    (a ++ (b ++ (c ++ d))).getLast? = d.getLast? := by
  have hd : d ≠ [] := List.ne_nil_of_length_pos (by rw [h.last]; omega)
  have hcd : c ++ d ≠ [] := by simp [hd]
  have hbcd : b ++ (c ++ d) ≠ [] := by simp [hd]
  rw [List.getLast?_append_of_ne_nil _ hbcd, List.getLast?_append_of_ne_nil _ hcd,
    List.getLast?_append_of_ne_nil _ hd]

theorem PayloadLabels.unique {a b c d a' b' c' d' : List Char} (h : PayloadLabels a b c d)
    (h' : PayloadLabels a' b' c' d') (heq : a ++ (b ++ (c ++ d)) = a' ++ (b' ++ (c' ++ d'))) :
    questionLabels a b c d = questionLabels a' b' c' d' := by
  obtain ⟨hfirst, hrest⟩ := List.append_inj heq (h.first.trans h'.first.symm)
  obtain ⟨hsecond, hrest⟩ := List.append_inj hrest (h.second.trans h'.second.symm)
  obtain ⟨hthird, hlast⟩ := List.append_inj hrest (h.third.trans h'.third.symm)
  rw [hfirst, hsecond, hthird, hlast]

theorem length_of_encodeQuery {dnsId : UInt16} {q : DoorbellQuery}
    (hq : q.WellFormed) (hencode : encodeQuery dnsId q = .ok packet) : packet.length = 245 := by
  obtain ⟨payload, a, b, c, d, -, -, -, hlabels, hframe⟩ := encodeQuery_spec hq dnsId
  rw [hencode, Except.ok.injEq] at hframe
  rw [hframe, length_queryFrame, hlabels.length_wireLabels]

theorem canonicalQuestion_of_encodeQuery {dnsId : UInt16} {q : DoorbellQuery} (hq : q.WellFormed)
    (hencode : encodeQuery dnsId q = .ok packet) : CanonicalQuestion packet := by
  obtain ⟨payload, a, b, c, d, -, hlength, htext, hlabels, hframe⟩ := encodeQuery_spec hq dnsId
  obtain ⟨values, pad, hvaluesText, hvalues, hcount, hpad, hnumber⟩ := base32Encode_values payload
  rw [hencode, Except.ok.injEq] at hframe
  refine ⟨a, b, c, d, hlabels, ?_, by rw [hframe]; rfl⟩
  have hfour : pad = 4 := by omega
  have hsome : values ≠ [] := List.ne_nil_of_length_pos (by omega)
  have hclean : numeral 32 values % 16 = 0 := by
    rw [hnumber, hfour]
    omega
  rw [← hlabels.getLast?, ← htext, hvaluesText]
  exact (getLast?_clean hvalues hsome).1 hclean

/-- The payload of a canonical question is written back to the same text. -/
theorem encodeQuery_of_canonicalQuestion
    (h : parseQuery packet = .ok r) (hcanonical : CanonicalQuestion packet) :
    encodeQuery (UInt16.ofNat r.dnsId) r.parsed = .ok packet := by
  obtain ⟨a, b, c, d, hlabels, hlast, hquestion⟩ := hcanonical
  have hframe := frame_of_parseQuery h hquestion
  have hlong : (a ++ (b ++ (c ++ d))).length = 196 := by
    simp [hlabels.first, hlabels.second, hlabels.third, hlabels.last]
  -- what the parser read is the base32 text of the four labels
  have hread : base32Decode (a ++ (b ++ (c ++ d))) = .ok r.decoded ∧
      decodeQueryPayload r.decoded = .ok r.parsed := by
    have hsize := hlabels.length_wireLabels
    have hparse := h
    rw [hframe, parseQuery_wire (fun _ => hlabels.wireLabel) (by simp [questionLabels])
      (by rw [hsize]; decide), hlabels.texts] at hparse
    obtain ⟨-, suffixIdx, hidx, hdecode, -, hparsed⟩ := decodeQuestion_inv hparse
    obtain ⟨hfour, htext⟩ := hlabels.findSuffix
    rw [hfour, Option.some.injEq] at hidx
    rw [← hidx, htext] at hdecode
    exact ⟨hdecode, hparsed⟩
  obtain ⟨hdecode, hparsed⟩ := hread
  -- and that text has no leftover bits
  have htext : base32Encode r.decoded = a ++ (b ++ (c ++ d)) := by
    obtain ⟨values, hvalues, hmap⟩ := exists_values hlabels.alphabet
    have hcount : values.length = 196 := by rw [← hlong, ← hmap, List.length_map]
    have hsome : values ≠ [] := List.ne_nil_of_length_pos (by omega)
    rw [← hlabels.getLast?, ← hmap] at hlast
    have hclean := (getLast?_clean hvalues hsome).2 hlast
    rw [← hmap] at hdecode ⊢
    refine base32Encode_decode hvalues hdecode ?_ ?_
    · omega
    · rw [hcount]
      exact hclean
  obtain ⟨hq, hserialize⟩ := (decodeQueryPayload_eq_ok_iff _ _).1 hparsed
  obtain ⟨payload, a', b', c', d', hquery, -, htext', hlabels', hencode⟩ :=
    encodeQuery_spec hq (UInt16.ofNat r.dnsId)
  have hsame : payload = r.decoded := by
    have hserialize' := ((decodeQueryPayload_eq_ok_iff _ _).1 hquery).2
    rw [hserialize', Except.ok.injEq] at hserialize
    exact hserialize
  rw [hsame, htext] at htext'
  rw [hencode, hframe, hlabels.unique hlabels' htext']

/-- **Which accepted packets have the form the encoder gives them.**  A packet that parses is
encoded again to itself exactly when its question is canonical: any other split into labels,
label after the suffix, character outside the alphabet or leftover bit is accepted too. -/
theorem reencodes_iff_canonical (packet : Bytes) (r : ParsedQuery)
    (h : parseQuery packet = .ok r) :
    encodeQuery (UInt16.ofNat r.dnsId) r.parsed = .ok packet ↔ CanonicalQuestion packet :=
  ⟨canonicalQuestion_of_encodeQuery (wellFormed_of_parseQuery h),
    encodeQuery_of_canonicalQuestion h⟩

def blankPacket (more : List Bytes) : Bytes :=
  queryFrame 7 (questionLabels ("aeaq".toList ++ List.replicate 48 'a') (List.replicate 52 'a')
    (List.replicate 52 'a') (List.replicate 40 'a') ++ more)

theorem reencodes_iff_canonical_blank :
    ∃ r, parseQuery (blankPacket []) = .ok r ∧
      (encodeQuery (UInt16.ofNat r.dnsId) r.parsed = .ok (blankPacket []) ↔
        CanonicalQuestion (blankPacket [])) := by
  have hok : (parseQuery (blankPacket [])).isOk = true := by decide +kernel
  obtain ⟨r, hr⟩ := exists_of_isOk hok
  exact ⟨r, hr, reencodes_iff_canonical _ r hr⟩

/-- A packet with one more label behind the suffix is accepted, and no query is encoded
to it. -/
theorem trailing_label_not_reencoded :
    ∃ r, parseQuery (blankPacket [asciiBytes ['x']]) = .ok r ∧
      encodeQuery (UInt16.ofNat r.dnsId) r.parsed ≠ .ok (blankPacket [asciiBytes ['x']]) := by
  have hok : (parseQuery (blankPacket [asciiBytes ['x']])).isOk = true := by decide +kernel
  obtain ⟨r, hr⟩ := exists_of_isOk hok
  refine ⟨r, hr, fun hencode => ?_⟩
  have hlength := length_of_encodeQuery (wellFormed_of_parseQuery hr) hencode
  exact absurd hlength (by decide +kernel)

/-! ## Reads past the end -/

def Attempt.InRange {α : Type} (x : Attempt α) : Prop :=
  ∀ offset, x ≠ .error (.thrown offset)

theorem inRange_ok (a : α) : Attempt.InRange (.ok a : Attempt α) := by
  rintro offset ⟨⟩

theorem inRange_fail (code : ParseErrorCode) (detail : String) :
    Attempt.InRange (fail code detail : Attempt α) := by
  rintro offset ⟨⟩

theorem inRange_failPlain (code : ParseErrorCode) :
    Attempt.InRange (failPlain code : Attempt α) := by
  rintro offset ⟨⟩

theorem Attempt.InRange.bind {β : Type} {x : Attempt α} {f : α → Attempt β} (hx : x.InRange)
    (hf : ∀ a, x = .ok a → (f a).InRange) : Attempt.InRange (x >>= f) := by
  cases x with
  | error e =>
    rintro offset h
    cases h
    exact hx offset rfl
  | ok a => exact hf a rfl

theorem inRange_readBE {size : Nat} (hinside : offset + size ≤ buf.length) :
    (readBE size buf offset).InRange := by
  rw [readBE_ok hinside]
  exact inRange_ok _

theorem inRange_finishName (labels : List (List Char)) (pos nameLen : Nat) :
    (finishName labels pos nameLen).InRange := by
  rw [finishName]
  split
  · exact inRange_fail _ _
  · exact inRange_ok _

theorem inRange_strictNameLoop (maxBytes fuel : Nat) :
    ∀ rest pos nameLen labels, (strictNameLoop maxBytes fuel rest pos nameLen labels).InRange := by
  induction fuel with
  | zero => exact fun _ pos nameLen labels => inRange_finishName labels pos nameLen
  | succ fuel ih =>
    intro rest pos nameLen labels
    cases rest with
    | nil => exact inRange_finishName labels pos nameLen
    | cons len rest =>
      rw [strictNameLoop]
      split
      · exact inRange_finishName _ _ _
      split
      · exact inRange_fail _ _
      split
      · exact inRange_fail _ _
      split
      · exact inRange_fail _ _
      dsimp only
      split
      · split
        · exact inRange_fail _ _
        · exact ih _ _ _ _
      · exact inRange_fail _ _

theorem inRange_base32Decode (s : List Char) : (base32Decode s).InRange := by
  have hfold : ∀ (cleaned : List Char) (p : Packer 32),
      Attempt.InRange (cleaned.foldlM base32Read p) := by
    intro cleaned
    induction cleaned with
    | nil => exact fun p => inRange_ok p
    | cons c cleaned ih =>
      intro p
      refine Attempt.InRange.bind ?_ fun p' _ => ih p'
      rw [base32Read]
      split
      · exact inRange_fail _ _
      · exact inRange_ok _
  rw [base32Decode]
  split
  · exact inRange_fail _ _
  · exact (hfold _ _).bind fun _ _ => inRange_ok _

theorem inRange_decodeQueryPayload (buf : Bytes) : (decodeQueryPayload buf).InRange := by
  rw [decodeQueryPayload]
  split
  · exact inRange_fail _ _
  split
  · exact inRange_fail _ _
  split
  · exact inRange_failPlain _
  split
  · exact inRange_failPlain _
  split
  · exact inRange_failPlain _
  refine Attempt.InRange.bind (inRange_readBE (by omega)) fun timestampSec _ => ?_
  split
  · exact inRange_failPlain _
  split
  · exact inRange_failPlain _
  split
  · exact inRange_fail _ _
  · exact inRange_ok _

theorem inRange_decodeAckPayload (buf : Bytes) : (decodeAckPayload buf).InRange := by
  rw [decodeAckPayload]
  split
  · exact inRange_failPlain _
  split
  · exact inRange_failPlain _
  split
  · exact inRange_failPlain _
  split
  · exact inRange_failPlain _
  split
  · exact inRange_failPlain _
  split
  · exact inRange_failPlain _
  refine Attempt.InRange.bind (inRange_readBE (by omega)) fun timestampSec _ => ?_
  split
  · exact inRange_failPlain _
  · exact inRange_ok _

theorem inRange_decodeQuestion (dnsId questionEnd : Nat) (labels : List (List Char)) :
    (decodeQuestion dnsId labels questionEnd).InRange := by
  unfold decodeQuestion
  split
  · exact inRange_fail _ _
  refine (inRange_base32Decode _).bind fun decoded _ => ?_
  split
  · exact inRange_fail _ _
  · exact (inRange_decodeQueryPayload _).bind fun _ _ => inRange_ok _

theorem inRange_answerNameEnd (packet : Bytes) (pos : Nat) :
    (answerNameEnd packet pos).InRange := by
  rw [answerNameEnd]
  split
  · exact inRange_failPlain _
  split
  · dsimp only
    split
    · exact inRange_fail _ _
    · exact inRange_ok _
  · exact (inRange_strictNameLoop _ _ _ _ _ _).bind fun _ _ => inRange_ok _

theorem inRange_parseTxt (packet : Bytes) (pos rdlength : Nat) :
    (parseTxt packet pos rdlength).InRange := by
  rw [parseTxt]
  split
  · exact inRange_failPlain _
  split
  · exact inRange_fail _ _
  dsimp only
  split
  · exact inRange_fail _ _
  split
  · exact inRange_fail _ _
  · exact inRange_decodeAckPayload _

theorem inRange_parseAnswer (packet : Bytes) (pos : Nat) : (parseAnswer packet pos).InRange := by
  refine (inRange_answerNameEnd packet pos).bind fun pos' _ => ?_
  split
  · exact inRange_failPlain _
  refine (inRange_readBE (by omega)).bind fun atype _ => ?_
  refine (inRange_readBE (by omega)).bind fun aclass _ => ?_
  refine (inRange_readBE (by omega)).bind fun ttl _ => ?_
  split
  · exact inRange_fail _ _
  split
  · exact inRange_fail _ _
  split
  · exact inRange_fail _ _
  · exact (inRange_readBE (by omega)).bind fun rdlength _ => inRange_parseTxt _ _ _

/-- **The response parser stays in the packet**, whatever the packet and the query are. -/
theorem inRange_parseResponse (packet queryPacket : Bytes) :
    (parseResponse packet queryPacket).InRange := by
  rw [parseResponse, parseResponsePacket]
  split
  · exact inRange_failPlain _
  refine (inRange_readBE (by omega)).bind fun dnsId _ => ?_
  refine (inRange_readBE (by omega)).bind fun flags _ => ?_
  split
  · exact inRange_fail _ _
  refine (inRange_readBE (by omega)).bind fun qdcount _ => ?_
  refine (inRange_readBE (by omega)).bind fun ancount _ => ?_
  split
  · exact inRange_failPlain _
  refine (inRange_strictNameLoop _ _ _ _ _ _).bind fun qnameResult _ => ?_
  dsimp only
  split
  · exact inRange_fail _ _
  · exact (inRange_parseAnswer _ _).bind fun _ _ => inRange_ok _

/-! ## Where the query parser leaves the packet -/

theorem finishName_eq_ok {labels : List (List Char)} {pos nameLen : Nat} {name : QueryName}
    (h : finishName labels pos nameLen = .ok name) :
    labels ≠ [] ∧ name.labels = labels ∧ name.endOffset = pos := by
  rw [finishName] at h
  split at h
  · exact absurd h fail_ne_ok
  · cases h
    exact ⟨List.ne_nil_of_length_pos (by omega), rfl, rfl⟩

/-- What the name loop has read when it returns: valid labels, and then either a terminator or
the end of the packet. -/
theorem strictNameLoop_sound {maxBytes : Nat} (fuel : Nat) :
    ∀ rest pos nameLen texts name, rest.length ≤ fuel → nameLen ≤ maxBytes →
      strictNameLoop maxBytes fuel rest pos nameLen texts = .ok name →
      ∃ labels, (∀ label ∈ labels, WireLabel label) ∧
        nameLen + (wireLabels labels).length ≤ maxBytes ∧ texts ++ labels.map asciiText ≠ [] ∧
        ((rest = wireLabels labels ∧ name.endOffset = pos + (wireLabels labels).length) ∨
          ∃ more, rest = wireLabels labels ++ 0 :: more ∧
            name.endOffset = pos + (wireLabels labels).length + 1) := by
  induction fuel with
  | zero =>
    intro rest pos nameLen texts name hfuel hmax h
    obtain ⟨hsome, -, hend⟩ := finishName_eq_ok h
    have hempty : rest = [] := List.eq_nil_of_length_eq_zero (by omega)
    exact ⟨[], by simp, by simpa using hmax, by simpa using hsome, .inl ⟨hempty, hend⟩⟩
  | succ fuel ih =>
    intro rest pos nameLen texts name hfuel hmax h
    cases rest with
    | nil =>
      obtain ⟨hsome, -, hend⟩ := finishName_eq_ok h
      exact ⟨[], by simp, by simpa using hmax, by simpa using hsome, .inl ⟨rfl, hend⟩⟩
    | cons len rest =>
      rw [strictNameLoop] at h
      split at h
      · rename_i hzero
        obtain ⟨hsome, -, hend⟩ := finishName_eq_ok h
        refine ⟨[], by simp, by simpa using hmax, by simpa using hsome, .inr ⟨rest, ?_, hend⟩⟩
        rw [hzero]
        rfl
      split at h
      · exact absurd h fail_ne_ok
      split at h
      · exact absurd h fail_ne_ok
      split at h
      · exact absurd h fail_ne_ok
      dsimp only at h
      split at h
      · rename_i htext
        split at h
        · exact absurd h fail_ne_ok
        have hlabel : (rest.take len.toNat).length = len.toNat := by
          rw [List.length_take]
          omega
        have hbyte : UInt8.ofNat (rest.take len.toNat).length = len := by
          rw [hlabel, UInt8.ofNat_toNat]
        simp only [List.length_cons] at hfuel
        obtain ⟨labels, hvalid, hfits, -, hrest⟩ := ih _ _ _ _ name
          (by rw [List.length_drop]; omega) (by omega) h
        have hwire : (wireLabels (rest.take len.toNat :: labels)).length =
            1 + len.toNat + (wireLabels labels).length := by
          rw [wireLabels_cons, List.length_cons, List.length_append, hlabel]
          omega
        refine ⟨rest.take len.toNat :: labels, ?_, by rw [hwire]; omega, by simp, ?_⟩
        · intro label hmem
          rcases List.mem_cons.1 hmem with rfl | hmem
          · exact ⟨htext, by omega⟩
          · exact hvalid label hmem
        rw [wireLabels_cons, hbyte, List.length_cons, List.length_append, hlabel]
        rcases hrest with ⟨hrest, hend⟩ | ⟨more, hrest, hend⟩
        · refine .inl ⟨?_, by omega⟩
          rw [← hrest, List.take_append_drop]
        · refine .inr ⟨more, ?_, by omega⟩
          rw [List.cons_append, List.append_assoc, ← hrest, List.take_append_drop]
      · exact absurd h fail_ne_ok

/-- A question whose labels are valid and which then breaks off: in its name, or in the type
and class behind it. -/
def BrokenQuestion (packet : Bytes) : Prop :=
  ∃ labels : List Bytes, labels ≠ [] ∧ (∀ label ∈ labels, WireLabel label) ∧
    (wireLabels labels).length ≤ maxNameBytes ∧
    (packet.drop 12 = wireLabels labels ∨
      ∃ rest, rest.length < 4 ∧ packet.drop 12 = wireLabels labels ++ 0 :: rest)

theorem parseStrictQueryName_open {labels : List Bytes} {start maxBytes : Nat}
    (hpacket : packet.drop start = wireLabels labels) (hvalid : ∀ label ∈ labels, WireLabel label)
    (hsome : labels ≠ []) (hsize : (wireLabels labels).length ≤ maxBytes) :
    parseStrictQueryName packet start maxBytes =
      .ok ⟨labels.map asciiText, start + (wireLabels labels).length,
        (wireLabels labels).length⟩ := by
  have hmany := length_le_wireLabels labels
  have hlong : (packet.drop start).length = (wireLabels labels).length := by rw [hpacket]
  obtain ⟨fuel, hfuel⟩ : ∃ fuel, packet.length = fuel + labels.length := by
    rw [List.length_drop] at hlong
    exact ⟨packet.length - labels.length, by omega⟩
  have hfinish : ∀ pos nameLen texts, strictNameLoop maxBytes fuel [] pos nameLen texts =
      finishName texts pos nameLen := by
    intro pos nameLen texts
    cases fuel with
    | zero => rfl
    | succ fuel => rfl
  rw [parseStrictQueryName, hfuel, hpacket, ← List.append_nil (wireLabels labels),
    strictNameLoop_wire hvalid _ _ _ _ _ (by omega), hfinish, finishName, if_neg]
  · simp
  · simpa using hsome

theorem parseQuestion_thrown_iff {name : QueryName}
    (hname : parseStrictQueryName packet 12 maxNameBytes = .ok name) (hlong : 2 ≤ packet.length) :
    (∃ offset, parseQuestion packet = .error (.thrown offset)) ↔
      packet.length < name.endOffset + 4 := by
  constructor
  · rintro ⟨offset, hthrown⟩
    by_contra hinside
    refine Attempt.InRange.bind (x := parseStrictQueryName packet 12 maxNameBytes)
      (inRange_strictNameLoop _ _ _ _ _ _) (fun name' hname' => ?_) offset hthrown
    obtain rfl : name = name' := by
      rw [hname, Except.ok.injEq] at hname'
      exact hname'
    refine (inRange_readBE (by omega)).bind fun qtype _ => ?_
    refine (inRange_readBE (by omega)).bind fun qclass _ => ?_
    split
    · exact inRange_fail _ _
    split
    · exact inRange_fail _ _
    dsimp only
    split
    · exact inRange_fail _ _
    · exact (inRange_readBE (by omega)).bind fun dnsId _ => inRange_decodeQuestion _ _ _
  · intro hshort
    rw [parseQuestion, hname]
    simp only [bind, Except.bind]
    by_cases htype : name.endOffset + 2 ≤ packet.length
    · rw [readUInt16BE, readBE_ok htype, readUInt16BE, readBE, if_neg (by omega)]
      exact ⟨_, rfl⟩
    · rw [readUInt16BE, readBE, if_neg htype]
      exact ⟨_, rfl⟩

/-- **Where the query parser throws.**  It leaves the packet exactly when a valid header is
followed by a question that breaks off. -/
theorem parseQuery_thrown_iff (packet : Bytes) :
    (∃ offset, parseQuery packet = .error (.thrown offset)) ↔
      QueryHeader packet ∧ BrokenQuestion packet := by
  rcases parseQuery_header packet with ⟨hheader, heq⟩ | ⟨hno, e, herror⟩
  · have hlong := hheader.long
    rw [heq]
    constructor
    · rintro ⟨offset, hthrown⟩
      refine ⟨hheader, ?_⟩
      cases hname : parseStrictQueryName packet 12 maxNameBytes with
      | error e =>
        rw [parseQuestion, hname] at hthrown
        cases hthrown
        exact absurd hname (inRange_strictNameLoop _ _ _ _ _ _ _)
      | ok name =>
        have hshort := (parseQuestion_thrown_iff hname (by omega)).1 ⟨offset, hthrown⟩
        obtain ⟨labels, hvalid, hsize, hsome, hrest⟩ := strictNameLoop_sound _ _ _ _ _ name
          (by rw [List.length_drop]; omega) (Nat.zero_le _) hname
        refine ⟨labels, by simpa using hsome, hvalid, by omega, ?_⟩
        rcases hrest with ⟨hrest, -⟩ | ⟨more, hrest, hend⟩
        · exact .inl hrest
        refine .inr ⟨more, ?_, hrest⟩
        have hcount : (packet.drop 12).length = (wireLabels labels).length + 1 + more.length := by
          rw [hrest, List.length_append, List.length_cons]
          omega
        rw [List.length_drop] at hcount
        omega
    · rintro ⟨-, labels, hsome, hvalid, hsize, hrest | ⟨more, hmore, hrest⟩⟩
      · have hname := parseStrictQueryName_open hrest hvalid hsome hsize
        refine (parseQuestion_thrown_iff hname (by omega)).2 ?_
        have hcount : (packet.drop 12).length = (wireLabels labels).length := by rw [hrest]
        rw [List.length_drop] at hcount
        dsimp only
        omega
      · have hname := parseStrictQueryName_wire hrest hvalid hsome hsize
        refine (parseQuestion_thrown_iff hname (by omega)).2 ?_
        have hcount : (packet.drop 12).length = (wireLabels labels).length + 1 + more.length := by
          rw [hrest, List.length_append, List.length_cons]
          omega
        rw [List.length_drop] at hcount
        dsimp only
        omega
  · constructor
    · rintro ⟨offset, hthrown⟩
      rw [herror] at hthrown
      cases hthrown
    · rintro ⟨hheader, -⟩
      exact absurd hheader hno

end Abtars
