import SmppGateway.Client.Encode

-- The bodies of a message that goes out as text: when they are accepted, and what they are read back as.

namespace SmppGateway

open Go Parse

theorem splitUDH_concatUDH (ref : UInt16) (part total : Nat) (payload : Bytes) :
    splitUDH (concatUDH ref part total ++ payload) 0x40 =
      if validConcatPart (UInt8.ofNat total) (UInt8.ofNat part) then
        .ok (some (concatUDH ref part total), payload)
      else
        .error .malformedConcat := by
  cases h : validConcatPart (UInt8.ofNat total) (UInt8.ofNat part) <;>
    simp [splitUDH, concatUDH, many, many.go, readIE, IE.malformed, IE.concat?, h, Except.map]

theorem validConcatPart_all_iff (n : Nat) :
    (∀ i < n, validConcatPart (UInt8.ofNat n) (UInt8.ofNat (i + 1)) = true) ↔ n ≤ 255 := by
  constructor
  case mp =>
    intro h
    by_contra hn
    have h₀ := h 255 (by omega)
    simp [validConcatPart] at h₀
  case mpr =>
    intro hn i hi
    have hn' : (UInt8.ofNat n).toNat = n := by rw [UInt8.toNat_ofNat']; omega
    have hi' : (UInt8.ofNat (i + 1)).toNat = i + 1 := by rw [UInt8.toNat_ofNat']; omega
    simp only [validConcatPart, Bool.and_eq_true, decide_eq_true_eq, UInt8.lt_iff_toNat_lt,
      UInt8.le_iff_toNat_le, hn', hi', UInt8.toNat_zero]
    omega

namespace Client

theorem concatInfo_sarTLVs (ref : UInt16) (total part : UInt8) :
    concatInfo none (sarTLVs (putUint16 ref) [total] [part]) =
      if validConcatPart total part then
        .ok (some { reference := ref, total, part })
      else
        .error .malformedSAR := by
  have hparse : parseSAR (sarTLVs (putUint16 ref) [total] [part]) = newConcatInfo ref total part := by
    conv_rhs => rw [← uint16_putUint16 ref]
    rfl
  unfold concatInfo
  rw [hparse, newConcatInfo]
  cases validConcatPart total part <;> rfl

theorem length_encodeText_gsm7 (text packing : Str) :
    (encodeText text 0x00 packing).length ≤ unitLen gsm7RuneLen (runes text) := by
  rw [unitLen_gsm7]
  unfold encodeText
  split
  case isTrue h => exact absurd h (by decide)
  case isFalse =>
    split
    case isTrue =>
      rw [SmppGateway.encodeText, if_neg (by decide), if_neg (by decide), length_encodeGSM7Packed]
      omega
    case isFalse => exact Nat.le_refl _

theorem length_encodeText_ucs2 (text packing : Str) :
    (encodeText text 0x08 packing).length = 2 * unitLen utf16RuneLen (runes text) := by
  rw [unitLen_ucs2, encodeText, if_pos rfl]

def detectedDataCoding (text : Str) : UInt8 :=
  if detectEncoding text = lit "ucs2" then 0x08 else 0x00

theorem length_le_unitLen {size : Char → Nat} (h : ∀ r, 1 ≤ size r) (rs : List Char) : rs.length ≤ unitLen size rs := by
  induction rs
  case nil => exact Nat.le_refl _
  case cons r rs hi =>
    have hr := h r
    simp only [unitLen, List.map_cons, List.sum_cons, List.length_cons] at hi ⊢
    omega

theorem length_encodeText_le (text : Str) {dataCoding : UInt8} (h : dataCoding ≠ 0x08) (packing : Str) :
    (encodeText text dataCoding packing).length ≤ 2 * (runes text).length := by
  have hunpacked : (encodeGSM7Unpacked text).length ≤ 2 * (runes text).length := by
    rw [← unitLen_gsm7]
    have hle : ∀ n ∈ (runes text).map gsm7RuneLen, n ≤ 2 := by
      intro n hn
      obtain ⟨r, -, rfl⟩ := List.mem_map.mp hn
      unfold gsm7RuneLen
      split <;> omega
    have hsum := List.sum_le_card_nsmul _ _ hle
    rw [List.length_map, nsmul_eq_mul, Nat.cast_id, Nat.mul_comm] at hsum
    exact hsum
  unfold encodeText
  rw [if_neg h]
  split
  case isTrue =>
    rw [SmppGateway.encodeText, if_neg h]
    split
    case isTrue => rw [List.length_map]; omega
    case isFalse => rw [length_encodeGSM7Packed]; omega
  case isFalse => exact hunpacked

theorem length_text (ref : UInt16) (text packing : Str) :
    (encodeText text (detectedDataCoding text) packing).length ≤
      (split ref text { forceEncoding := detectEncoding text }).length * 160 := by
  unfold detectedDataCoding
  rcases detectEncoding_cases text with he | he <;> rw [he]
  case inl =>
    rw [if_neg (by decide)]
    exact (length_encodeText_gsm7 _ _).trans (unitLen_le_split (splitRule_gsm7 text).cuts)
  case inr =>
    rw [if_pos rfl, length_encodeText_ucs2]
    have : unitLen utf16RuneLen (runes text) ≤ (split ref text { forceEncoding := lit "ucs2" }).length * 70 :=
      unitLen_le_split (splitRule_ucs2 text).cuts
    omega

structure IsPlain (msg : Message) : Prop where
  raw : msg.rawPayloadSet = false
  udh : msg.udh = []
  sar : msg.sarSet = false

def textSegments (ref : UInt16) (msg : Message) : List Segment :=
  split ref msg.text { forceEncoding := wireEncoding msg }

theorem length_segment {ref : UInt16} {msg : Message} {segment : Segment} (hs : segment ∈ textSegments ref msg)
    (packing : Str) : (encodeText segment.text (wireDataCoding msg) packing).length ≤ 320 := by
  have hcuts := splitRule_cuts (resolveEncoding (wireEncoding msg) msg.text)
  have hlen := unitLen_segment hcuts hs
  obtain ⟨-, -, hlimit⟩ := splitRule_limits (resolveEncoding (wireEncoding msg) msg.text)
  by_cases hdc : wireDataCoding msg = 0x08
  case pos =>
    have hucs2 : wireEncoding msg = lit "ucs2" := if_pos hdc
    have hunits : runeLen (resolveEncoding (wireEncoding msg) msg.text) = utf16RuneLen := by
      rw [hucs2]
      rfl
    rw [hunits] at hlen
    rw [hdc, length_encodeText_ucs2]
    omega
  case neg =>
    have hrunes := length_le_unitLen (runeLen_pos (resolveEncoding (wireEncoding msg) msg.text)) (runes segment.text)
    have hoctets := length_encodeText_le segment.text hdc packing
    omega

structure IsText (msg : Message) : Prop where
  dataCoding : msg.dataCoding = 0
  encoding   : msg.encoding = detectEncoding msg.text
  raw        : msg.rawPayloadSet = false
  udh        : msg.udh = []
  sar        : msg.sarSet = false

namespace IsText

variable {msg : Message} (h : IsText msg)
include h

theorem givenEncoding_eq : givenEncoding msg = detectEncoding msg.text := by
  unfold givenEncoding resolveEncoding
  rw [h.encoding]
  split <;> rfl

theorem wireDataCoding_eq : wireDataCoding msg = detectedDataCoding msg.text := by
  unfold wireDataCoding detectedDataCoding
  rw [h.givenEncoding_eq, h.raw, h.dataCoding]
  rcases detectEncoding_cases msg.text with he | he <;> rw [he] <;> decide

theorem wireEncoding_eq : wireEncoding msg = detectEncoding msg.text := by
  unfold wireEncoding
  rw [h.wireDataCoding_eq, h.givenEncoding_eq, detectedDataCoding]
  rcases detectEncoding_cases msg.text with he | he <;> rw [he] <;> decide

theorem isPlain : IsPlain msg :=
  ⟨h.raw, h.udh, h.sar⟩

end IsText

def Addressed (sequenceID : UInt32) (body : Bytes) (sender dest : Str) : Prop :=
  ∃ sm, parseSubmitSM { sequenceID, body } = .ok sm ∧ sm.sender = sender ∧ sm.dest = dest

theorem Addressed.sender_fits {sequenceID : UInt32} {body : Bytes} {sender dest : Str}
    (h : Addressed sequenceID body sender dest) : FitsCString smppMaxAddress sender := by
  obtain ⟨sm, hsm, rfl, -⟩ := h
  obtain ⟨f, rest, tlvs, hfields, -, hfin⟩ := parseSubmitSM_eq_ok.mp hsm
  obtain ⟨l, hl, rfl, -⟩ := readSubmitFields_ok hfields
  obtain ⟨udh, body, concat, -, rfl⟩ := finishSubmit_eq_ok.mp hfin
  exact hl.sender

-- Whether the octets that a 16-bit length does not cover pass for optional parameters. Up to 65535
-- octets there are none.
def overflowAccepted (octets : Bytes) : Bool :=
  match parseTLVsStrict (octets.drop (octets.length % 65536)) with
  | .ok tlvs => !hasDuplicateSARTag tlvs && (!hasSAR tlvs || (parseSAR tlvs).isSome)
  | .error _ => false

theorem overflowAccepted_of_length {octets : Bytes} (h : octets.length < 65536) :
    overflowAccepted octets = true := by
  rw [overflowAccepted, Nat.mod_eq_of_lt h, List.drop_length]
  rfl

theorem acceptable_payload_iff {f : SubmitFields} (hs : f.shortMessage = []) (he : f.esmClass = 0)
    (value : Bytes) (tlvs : List TLV) :
    (∃ udh body concat, Acceptable f ({ tag := tagMessagePayload, value } :: tlvs) udh body concat) ↔
      hasDuplicateSARTag tlvs = false ∧ (hasSAR tlvs = false ∨ (parseSAR tlvs).isSome) := by
  have hno : isSARTag tagMessagePayload = false := by decide
  have hdup : hasDuplicateSARTag ({ tag := tagMessagePayload, value } :: tlvs) = hasDuplicateSARTag tlvs := by
    simp [hasDuplicateSARTag, hno]
  have hconcat : concatInfo none ({ tag := tagMessagePayload, value } :: tlvs) = concatInfo none tlvs := by
    refine concatInfo_congr none (fun tag ht => ?_) (by simp [hasSAR, hno])
    simp [findTLV, (ne_messagePayload_of_isSARTag ht).symm]
  have huser : userData f ({ tag := tagMessagePayload, value } :: tlvs) = .ok value := by
    simp [userData, findTLV, hs]
  have hok : (∃ concat, concatInfo none tlvs = .ok concat) ↔ hasSAR tlvs = false ∨ (parseSAR tlvs).isSome := by
    unfold concatInfo
    cases parseSAR tlvs <;> cases hasSAR tlvs <;> simp
  rw [← hok]
  constructor
  case mp =>
    rintro ⟨udh, body, concat, h⟩
    obtain ⟨raw, hraw, hsplit⟩ := h.user
    cases huser.symm.trans hraw
    rw [he, splitUDH_zero] at hsplit
    cases hsplit
    exact ⟨hdup ▸ h.noDuplicate, concat, hconcat ▸ h.concat⟩
  case mpr =>
    rintro ⟨hd, concat, hc⟩
    exact ⟨none, value, concat, hdup.trans hd, ⟨value, huser, by rw [he, splitUDH_zero]⟩, hconcat.trans hc, by simp⟩

section Bodies

variable {p : SubmitBodyParams} (hf : p.Fits) (sequenceID : UInt32)
include hf

theorem addressed_iff (ho : p.OnePlace) (hsize : ∀ item ∈ p.allTLVs, item.value.length < 65536) :
    Addressed sequenceID (buildSubmitBody p) (stripPlus p.msg.sourceAddr) (stripPlus p.msg.destAddr) ↔
      hasDuplicateSARTag p.tlvs = false ∧ ∃ udh body concat,
        splitUDH (p.shortMessage ++ p.messagePayload) p.esmClass = .ok (udh, body) ∧
        concatInfo udh p.tlvs = .ok concat ∧ (udh.isSome → hasSAR p.tlvs = false) := by
  constructor
  case mp =>
    rintro ⟨sm, hsm, -, -⟩
    obtain ⟨udh, body, concat, hacc, -⟩ :=
      (SubmitBodyParams.parse_buildSubmitBody_iff hf hsize sequenceID sm).mp hsm
    obtain ⟨hd, hrest⟩ := ho.acceptable_iff.mp hacc
    exact ⟨hd, udh, body, concat, hrest⟩
  case mpr =>
    rintro ⟨hd, udh, body, concat, hu, hc, hk⟩
    obtain ⟨sm, hsm, hr⟩ := SubmitBodyParams.parse_buildSubmitBody hf ho hsize hd hu hc hk sequenceID
    exact ⟨sm, hsm, hr.sender, hr.dest⟩

theorem addressed_plain (ht : p.tlvs = []) (hm : p.messagePayload = []) (he : p.esmClass = 0)
    (hlen : p.shortMessage.length < 65536) :
    Addressed sequenceID (buildSubmitBody p) (stripPlus p.msg.sourceAddr) (stripPlus p.msg.destAddr) := by
  refine (addressed_iff hf sequenceID ⟨.inr hm, by simp [ht]⟩ ?_).mpr ?_
  case refine_1 => exact SubmitBodyParams.length_allTLVs (by simp [ht]) hlen (by simp [hm])
  case refine_2 =>
    rw [ht, he]
    exact ⟨rfl, none, _, none, splitUDH_zero _, rfl, nofun⟩

theorem addressed_udh_iff (ht : p.tlvs = []) (hm : p.messagePayload = []) (he : p.esmClass = 0x40)
    {ref : UInt16} {part total : Nat} {payload : Bytes}
    (hs : p.shortMessage = concatUDH ref part total ++ payload) (hlen : payload.length ≤ 320) :
    Addressed sequenceID (buildSubmitBody p) (stripPlus p.msg.sourceAddr) (stripPlus p.msg.destAddr) ↔
      validConcatPart (UInt8.ofNat total) (UInt8.ofNat part) := by
  have hlen' : p.shortMessage.length < 65536 := by rw [hs, List.length_append]; simp [concatUDH]; omega
  rw [addressed_iff hf sequenceID ⟨.inr hm, by simp [ht]⟩
    (SubmitBodyParams.length_allTLVs (by simp [ht]) hlen' (by simp [hm]))]
  rw [ht, he, hm, hs, List.append_nil, splitUDH_concatUDH]
  cases validConcatPart (UInt8.ofNat total) (UInt8.ofNat part)
  case true =>
    exact iff_of_true ⟨rfl, some (concatUDH ref part total), payload, _, rfl, concatInfo_udh _, fun _ => rfl⟩ rfl
  case false => simp

theorem addressed_sar_iff (hm : p.messagePayload = []) (he : p.esmClass = 0)
    {ref : UInt16} {part total : UInt8} (ht : p.tlvs = sarTLVs (putUint16 ref) [total] [part])
    (hlen : p.shortMessage.length < 65536) :
    Addressed sequenceID (buildSubmitBody p) (stripPlus p.msg.sourceAddr) (stripPlus p.msg.destAddr) ↔
      validConcatPart total part := by
  have htags : ∀ item ∈ p.tlvs, item.tag ≠ tagMessagePayload := by rw [ht]; simp [sarTLVs]; decide
  have hsizes : ∀ item ∈ p.tlvs, item.value.length < 65536 := by rw [ht]; simp [sarTLVs, putUint16]
  rw [addressed_iff hf sequenceID ⟨.inr hm, htags⟩
    (SubmitBodyParams.length_allTLVs hsizes hlen (by simp [hm]))]
  rw [ht, he, hm, List.append_nil, splitUDH_zero]
  constructor
  case mp =>
    rintro ⟨-, udh, body, concat, hu, hc, -⟩
    cases hu
    rw [concatInfo_sarTLVs] at hc
    split at hc
    case isTrue hv => exact hv
    case isFalse => cases hc
  case mpr =>
    intro hv
    exact ⟨hasDuplicateSARTag_sarTLVs .., none, _, _, rfl, by rw [concatInfo_sarTLVs, if_pos hv], by simp⟩

theorem addressed_payload_iff (ht : p.tlvs = []) (hs : p.shortMessage = []) (he : p.esmClass = 0) :
    Addressed sequenceID (buildSubmitBody p) (stripPlus p.msg.sourceAddr) (stripPlus p.msg.destAddr) ↔
      overflowAccepted p.messagePayload := by
  by_cases hm : p.messagePayload = []
  case pos =>
    refine iff_of_true (addressed_plain hf sequenceID ht hm he (by simp [hs])) ?_
    rw [hm]
    decide
  case neg =>
    have hall : p.allTLVs = [{ tag := tagMessagePayload, value := p.messagePayload }] := by
      simp [SubmitBodyParams.allTLVs, SubmitBodyParams.inTLV, hs, ht, hm]
    have hsize : (UInt16.ofNat p.messagePayload.length).toNat = p.messagePayload.length % 65536 := by
      rw [UInt16.toNat_ofNat']
    have hle : ¬p.messagePayload.length < p.messagePayload.length % 65536 := not_lt.mpr (Nat.mod_le _ _)
    have hparse : parseTLVsStrict (p.allTLVs.flatMap appendTLV) =
        (parseTLVsStrict (p.messagePayload.drop (p.messagePayload.length % 65536))).map
          ({ tag := tagMessagePayload
             value := p.messagePayload.take (p.messagePayload.length % 65536) } :: ·) := by
      rw [hall, List.flatMap_singleton, parseTLVsStrict, many_ne_nil readTLV_consumes (by simp [appendTLV, putUint16]),
        appendTLV, readTLV_header, hsize, if_neg hle]
      rfl
    have hread : Addressed sequenceID (buildSubmitBody p) (stripPlus p.msg.sourceAddr)
        (stripPlus p.msg.destAddr) ↔ ∃ tlvs, parseTLVsStrict (p.allTLVs.flatMap appendTLV) = .ok tlvs ∧
          ∃ udh body concat, Acceptable p.layout.toSubmitFields tlvs udh body concat := by
      unfold Addressed
      rw [SubmitBodyParams.parseSubmitSM_eq hf]
      constructor
      case mp =>
        rintro ⟨sm, hsm, -⟩
        obtain ⟨tlvs, htlvs, hfin⟩ := bind_eq_ok.mp hsm
        obtain ⟨udh, body, concat, hacc, -⟩ := finishSubmit_eq_ok.mp hfin
        exact ⟨tlvs, htlvs, udh, body, concat, hacc⟩
      case mpr =>
        rintro ⟨tlvs, htlvs, udh, body, concat, hacc⟩
        exact ⟨_, bind_eq_ok.mpr ⟨tlvs, htlvs, finishSubmit_eq_ok.mpr ⟨udh, body, concat, hacc, rfl⟩⟩, rfl, rfl⟩
    rw [hread, hparse, overflowAccepted]
    cases parseTLVsStrict (p.messagePayload.drop (p.messagePayload.length % 65536))
    case error e => simp [Except.map]
    case ok tlvs =>
      simp only [Except.map, Except.ok.injEq, exists_eq_left']
      rw [acceptable_payload_iff (by simp [SubmitBodyParams.layout, SubmitBodyParams.inShort, hs]) he]
      simp

end Bodies

-- Whether a text, in the encoding detected for it, does not stand in the way of acceptance.
def textAccepted (text : Str) (cfg : SMPPClientConfig) : Bool :=
  if cfg.longMessage = lit "payload" then
    overflowAccepted (encodeText text (detectedDataCoding text) cfg.gsm7Packing)
  else
    (split 0 text { forceEncoding := detectEncoding text }).length ≤ 255

namespace IsPlain

variable {msg : Message} {cfg : SMPPClientConfig} (h : IsPlain msg) (isLetter : Char → Bool) (ref : UInt16)
include h

theorem buildSubmitSM_eq :
    buildSubmitSM isLetter ref msg cfg =
      if cfg.longMessage = lit "payload" then
        [buildSubmitBody { bodyParams isLetter msg cfg with
          messagePayload := encodeText msg.text (wireDataCoding msg) cfg.gsm7Packing }]
      else
        (textSegments ref msg).map (buildSegment (bodyParams isLetter msg cfg) (textSegments ref msg).length) := by
  unfold buildSubmitSM textSegments
  simp [h.sar, h.udh, h.raw, encodeMessagePayload, bodyParams]

omit h in
theorem addressed_segment_iff (hf : (bodyParams isLetter msg cfg).Fits) (sequenceID : UInt32) {i : Nat}
    {segment : Segment} (hi : (textSegments ref msg)[i]? = some segment) :
    let count := (textSegments ref msg).length
    Addressed sequenceID (buildSegment (bodyParams isLetter msg cfg) count segment)
      (stripPlus msg.sourceAddr) (stripPlus msg.destAddr) ↔
      validConcatPart (UInt8.ofNat count) (UInt8.ofNat (i + 1)) = true := by
  intro count
  have hlen := length_segment (List.mem_of_getElem? hi) cfg.gsm7Packing
  have hlen' := hlen.trans_lt (show 320 < 65536 by decide)
  have hfits {short : Bytes} {tlvs : List TLV} {esmClass : UInt8} : SubmitBodyParams.Fits
      { bodyParams isLetter msg cfg with shortMessage := short, tlvs, esmClass } := ⟨hf.1, hf.2, hf.3, hf.4⟩
  unfold buildSegment
  by_cases hc : 1 < count
  case neg =>
    -- A single part is number one of one.
    obtain ⟨hi₀, hn⟩ : i = 0 ∧ count = 1 := by
      have : i < count := (List.getElem?_eq_some_iff.mp hi).1
      omega
    rw [if_neg hc, hi₀, hn]
    exact iff_of_true (addressed_plain hfits sequenceID rfl rfl rfl hlen') (by decide)
  case pos =>
    obtain ⟨-, hp, ht, hu⟩ : segment.reference = ref ∧ segment.part = i + 1 ∧ segment.total = count ∧
      segment.udh = concatUDH ref (i + 1) count := split_numbered hc hi
    rw [if_pos hc]
    split
    case isTrue =>
      rw [← ht, ← hp]
      exact addressed_sar_iff (p := { bodyParams isLetter msg cfg with
        shortMessage := encodeText segment.text (wireDataCoding msg) cfg.gsm7Packing
        tlvs := sarTLVs (putUint16 segment.reference) [UInt8.ofNat segment.total]
          [UInt8.ofNat segment.part] }) hfits sequenceID rfl rfl rfl hlen'
    case isFalse =>
      rw [hu]
      exact addressed_udh_iff (p := { bodyParams isLetter msg cfg with
        shortMessage := concatUDH ref (i + 1) count ++
          encodeText segment.text (wireDataCoding msg) cfg.gsm7Packing
        esmClass := 0x40 }) hfits sequenceID rfl rfl rfl rfl hlen

theorem addressed_all_iff (hservice : FitsCString smppMaxServiceType cfg.serviceType)
    (hvalidity : FitsCString 16 cfg.validityPeriod)
    (hdest : FitsCString smppMaxAddress (stripPlus msg.destAddr)) (sequenceID : UInt32) :
    (∀ body ∈ buildSubmitSM isLetter ref msg cfg,
      Addressed sequenceID body (stripPlus msg.sourceAddr) (stripPlus msg.destAddr)) ↔
    FitsCString smppMaxAddress (stripPlus msg.sourceAddr) ∧
      if cfg.longMessage = lit "payload" then
        overflowAccepted (encodeText msg.text (wireDataCoding msg) cfg.gsm7Packing) = true
      else
        (textSegments ref msg).length ≤ 255 := by
  by_cases hsender : FitsCString smppMaxAddress (stripPlus msg.sourceAddr)
  case neg =>
    refine iff_of_false (fun hall => ?_) (fun hc => hsender hc.1)
    obtain ⟨body, hb⟩ := List.exists_mem_of_ne_nil _ (buildSubmitSM_ne_nil isLetter ref msg cfg)
    exact hsender (hall body hb).sender_fits
  case pos =>
    have hf : (bodyParams isLetter msg cfg).Fits := ⟨hservice, hvalidity, hsender, hdest⟩
    rw [h.buildSubmitSM_eq, and_iff_right hsender]
    split
    case isTrue =>
      rw [List.forall_mem_singleton]
      have hfits : SubmitBodyParams.Fits { bodyParams isLetter msg cfg with
          messagePayload := encodeText msg.text (wireDataCoding msg) cfg.gsm7Packing } :=
        ⟨hf.1, hf.2, hf.3, hf.4⟩
      exact addressed_payload_iff hfits sequenceID rfl rfl rfl
    case isFalse =>
      rw [List.forall_mem_map, ← validConcatPart_all_iff]
      constructor
      case mp =>
        intro hall i hi
        exact (addressed_segment_iff isLetter ref hf sequenceID (List.getElem?_eq_getElem hi)).mp
          (hall _ (List.getElem_mem hi))
      case mpr =>
        intro hall segment hm
        obtain ⟨i, hi, rfl⟩ := List.mem_iff_getElem.mp hm
        exact (addressed_segment_iff isLetter ref hf sequenceID (List.getElem?_eq_getElem hi)).mpr (hall i hi)

end IsPlain

theorem IsText.addressed_all_iff {msg : Message} {cfg : SMPPClientConfig} (h : IsText msg) (isLetter : Char → Bool)
    (ref : UInt16) (hservice : FitsCString smppMaxServiceType cfg.serviceType)
    (hvalidity : FitsCString 16 cfg.validityPeriod)
    (hdest : FitsCString smppMaxAddress (stripPlus msg.destAddr)) (sequenceID : UInt32) :
    (∀ body ∈ buildSubmitSM isLetter ref msg cfg,
      Addressed sequenceID body (stripPlus msg.sourceAddr) (stripPlus msg.destAddr)) ↔
    FitsCString smppMaxAddress (stripPlus msg.sourceAddr) ∧ textAccepted msg.text cfg = true := by
  rw [h.isPlain.addressed_all_iff isLetter ref hservice hvalidity hdest sequenceID, textAccepted, textSegments,
    h.wireEncoding_eq, h.wireDataCoding_eq, length_split ref 0]
  split
  case isTrue => rfl
  case isFalse => rw [decide_eq_true_eq]

end Client

end SmppGateway
