import SmppGateway.Client.Text

-- The parts of a long message: whether all of them are accepted, and the numbers they carry.

namespace SmppGateway

open Go Parse

theorem parseConcat_concatUDH {ref : UInt16} {part total : Nat}
    (h : validConcatPart (UInt8.ofNat total) (UInt8.ofNat part) = true) :
    parseConcat (concatUDH ref part total) =
      some { reference := ref.toUInt8.toUInt16, total := UInt8.ofNat total, part := UInt8.ofNat part } := by
  simp [parseConcat, concatUDH, parseConcat.go, IE.concat?, newConcatInfo, h]

namespace Client

theorem fits_stripPlus {max : Nat} {value : Str} (h : FitsCString max value) : FitsCString max (stripPlus value) := by
  unfold stripPlus trimPrefix
  split
  case isTrue => exact ⟨(List.drop_sublist _ _).length_le.trans h.length, fun hm => h.noNUL (List.mem_of_mem_drop hm)⟩
  case isFalse => exact h

theorem addressed_of_ok {p : SubmitBodyParams} (hf : p.Fits) {sequenceID : UInt32} {sm : SubmitSM}
    (h : parseSubmitSM { sequenceID, body := buildSubmitBody p } = .ok sm) :
    Addressed sequenceID (buildSubmitBody p) (stripPlus p.msg.sourceAddr) (stripPlus p.msg.destAddr) := by
  refine ⟨sm, h, ?_⟩
  rw [SubmitBodyParams.parseSubmitSM_eq hf] at h
  obtain ⟨tlvs, -, hfin⟩ := bind_eq_ok.mp h
  obtain ⟨udh, body, concat, -, rfl⟩ := finishSubmit_eq_ok.mp hfin
  exact ⟨rfl, rfl⟩

def wireReference (cfg : SMPPClientConfig) (ref : UInt16) : UInt16 :=
  if cfg.longMessage = lit "sar" then ref else ref.toUInt8.toUInt16

-- All parts are accepted, and where there are several they are numbered from one to their number, under one
-- reference.
def Numbered (sequenceID : UInt32) (parts : List Bytes) : Prop :=
  ∃ reference, ∀ i body, parts[i]? = some body → ∃ sm, parseSubmitSM { sequenceID, body } = .ok sm ∧
    (1 < parts.length → ∃ info, sm.concat = some info ∧ info.reference = reference ∧
      info.part.toNat = i + 1 ∧ info.total.toNat = parts.length)

def partParams (base : SubmitBodyParams) (count : Nat) (segment : Segment) : SubmitBodyParams :=
  let payload := encodeText segment.text base.dataCoding base.cfg.gsm7Packing
  if 1 < count then
    if base.cfg.longMessage = lit "sar" then
      { base with
        shortMessage := payload
        tlvs := sarTLVs (putUint16 segment.reference) [UInt8.ofNat segment.total] [UInt8.ofNat segment.part] }
    else
      { base with shortMessage := segment.udh ++ payload, esmClass := 0x40 }
  else
    { base with shortMessage := payload }

theorem buildSegment_eq (base : SubmitBodyParams) (count : Nat) (segment : Segment) :
    buildSegment base count segment = buildSubmitBody (partParams base count segment) := by
  unfold buildSegment partParams
  dsimp only
  split_ifs <;> rfl

structure Carries (p : SubmitBodyParams) (udh : Option Bytes) (octets : Bytes) (concat : Option ConcatInfo) :
    Prop where
  user : splitUDH (p.shortMessage ++ p.messagePayload) p.esmClass = .ok (udh, octets)
  read : p.Fits → ∀ sequenceID, ∃ sm, parseSubmitSM { sequenceID, body := buildSubmitBody p } = .ok sm ∧
    p.ReadBack udh octets concat sm

theorem Carries.of_params {p : SubmitBodyParams} {udh : Option Bytes} {octets : Bytes} {concat : Option ConcatInfo}
    (ho : p.OnePlace) (hsize : ∀ item ∈ p.allTLVs, item.value.length < 65536) (hd : hasDuplicateSARTag p.tlvs = false)
    (hu : splitUDH (p.shortMessage ++ p.messagePayload) p.esmClass = .ok (udh, octets))
    (hc : concatInfo udh p.tlvs = .ok concat) (hk : udh.isSome → hasSAR p.tlvs = false) : Carries p udh octets concat where
  user := hu
  read hf sequenceID := SubmitBodyParams.parse_buildSubmitBody hf ho hsize hd hu hc hk sequenceID

section Parts

variable {msg : Message} {cfg : SMPPClientConfig} (isLetter : Char → Bool) (ref : UInt16)

theorem partParams_carries {i : Nat} {segment : Segment} (hi : (textSegments ref msg)[i]? = some segment)
    (hv : validConcatPart (UInt8.ofNat (textSegments ref msg).length) (UInt8.ofNat (i + 1)) = true) :
    ∃ udh, (udh.getD []).length ≤ 6 ∧
      Carries (partParams (bodyParams isLetter msg cfg) (textSegments ref msg).length segment) udh
        (encodeText segment.text (wireDataCoding msg) cfg.gsm7Packing)
        (if 1 < (textSegments ref msg).length then
          some { reference := wireReference cfg ref, total := UInt8.ofNat (textSegments ref msg).length
                 part := UInt8.ofNat (i + 1) }
        else none) := by
  have hlen := length_segment (List.mem_of_getElem? hi) cfg.gsm7Packing
  have hempty : (bodyParams isLetter msg cfg).messagePayload.length < 65536 := Nat.zero_lt_succ _
  have hnone : ∀ item ∈ (bodyParams isLetter msg cfg).tlvs, item.tag ≠ tagMessagePayload := by simp
  unfold partParams
  dsimp only
  by_cases hc : 1 < (textSegments ref msg).length
  case neg =>
    rw [if_neg hc, if_neg hc]
    refine ⟨none, Nat.zero_le _, .of_params ⟨.inr rfl, hnone⟩ ?_ rfl ?_ rfl (by simp)⟩
    case refine_1 => exact SubmitBodyParams.length_allTLVs (by simp) (hlen.trans_lt (by decide)) hempty
    case refine_2 => exact (splitUDH_zero _).trans (by simp [bodyParams])
  case pos =>
    obtain ⟨hr, hp, ht, hu⟩ : segment.reference = ref ∧ segment.part = i + 1 ∧
      segment.total = (textSegments ref msg).length ∧
      segment.udh = concatUDH ref (i + 1) (textSegments ref msg).length := split_numbered hc hi
    rw [if_pos hc, if_pos hc]
    by_cases hsar : cfg.longMessage = lit "sar"
    case pos =>
      rw [if_pos (show (bodyParams isLetter msg cfg).cfg.longMessage = lit "sar" from hsar), wireReference, if_pos hsar]
      refine ⟨none, Nat.zero_le _, .of_params ⟨.inr rfl, ?_⟩ ?_ (hasDuplicateSARTag_sarTLVs ..) ?_ ?_ (by simp)⟩
      case refine_1 => simp [sarTLVs]; decide
      case refine_2 =>
        refine SubmitBodyParams.length_allTLVs ?_ (hlen.trans_lt (by decide)) hempty
        simp [sarTLVs, putUint16]
      case refine_3 => exact (splitUDH_zero _).trans (by simp [bodyParams])
      case refine_4 =>
        rw [hr, ht, hp]
        exact (concatInfo_sarTLVs ..).trans (if_pos hv)
    case neg =>
      rw [if_neg (show ¬(bodyParams isLetter msg cfg).cfg.longMessage = lit "sar" from hsar), wireReference,
        if_neg hsar, hu]
      refine ⟨some (concatUDH ref (i + 1) (textSegments ref msg).length), Nat.le_refl _,
        .of_params ⟨.inr rfl, hnone⟩ ?_ rfl ?_ ?_ fun _ => rfl⟩
      case refine_1 =>
        refine SubmitBodyParams.length_allTLVs (by simp) ?_ hempty
        simp only [List.length_append, concatUDH, List.length_cons, List.length_nil]
        exact Nat.lt_of_le_of_lt (Nat.add_le_add_left hlen _) (by decide)
      case refine_2 =>
        simp only [bodyParams, List.append_nil]
        rw [splitUDH_concatUDH, if_pos hv]
      case refine_3 => exact (concatInfo_udh _).trans (congrArg _ (parseConcat_concatUDH hv))

end Parts

def textParts (isLetter : Char → Bool) (ref : UInt16) (msg : Message) (cfg : SMPPClientConfig) :
    List SubmitBodyParams :=
  let base := bodyParams isLetter msg cfg
  if cfg.longMessage = lit "payload" then
    [{ base with messagePayload := encodeText msg.text base.dataCoding cfg.gsm7Packing }]
  else
    (textSegments ref msg).map (partParams base (textSegments ref msg).length)

section TextParts

variable {msg : Message} {cfg : SMPPClientConfig} {isLetter : Char → Bool} {ref : UInt16}

theorem IsPlain.buildSubmitSM_eq_map (h : IsPlain msg) :
    buildSubmitSM isLetter ref msg cfg = (textParts isLetter ref msg cfg).map buildSubmitBody := by
  rw [h.buildSubmitSM_eq, textParts]
  split
  case isTrue => rfl
  case isFalse =>
    rw [List.map_map]
    exact List.map_congr_left fun segment _ => buildSegment_eq _ _ segment

theorem partParams_fits {base : SubmitBodyParams} (hf : base.Fits) (count : Nat) (segment : Segment) :
    (partParams base count segment).Fits ∧ (partParams base count segment).msg = base.msg := by
  unfold partParams
  dsimp only
  split_ifs <;> exact ⟨⟨hf.1, hf.2, hf.3, hf.4⟩, rfl⟩

theorem textParts_fits (hf : (bodyParams isLetter msg cfg).Fits) :
    ∀ p ∈ textParts isLetter ref msg cfg, p.Fits ∧ p.msg = msg := by
  intro p hp
  unfold textParts at hp
  simp only at hp
  split at hp
  case isTrue =>
    rw [List.mem_singleton.mp hp]
    exact ⟨⟨hf.1, hf.2, hf.3, hf.4⟩, rfl⟩
  case isFalse =>
    obtain ⟨segment, -, rfl⟩ := List.mem_map.mp hp
    exact partParams_fits hf _ segment

theorem numbered_of_count (hf : (bodyParams isLetter msg cfg).Fits) (hcount : (textSegments ref msg).length ≤ 255)
    (sequenceID : UInt32) :
    Numbered sequenceID ((textSegments ref msg).map fun segment =>
      buildSubmitBody (partParams (bodyParams isLetter msg cfg) (textSegments ref msg).length segment)) := by
  refine ⟨wireReference cfg ref, fun i body hi => ?_⟩
  rw [List.getElem?_map] at hi
  obtain ⟨segment, hsegment, rfl⟩ := Option.map_eq_some_iff.mp hi
  have hlt : i < (textSegments ref msg).length := (List.getElem?_eq_some_iff.mp hsegment).1
  have hv := (validConcatPart_all_iff _).mpr hcount i hlt
  obtain ⟨udh, -, hcarries⟩ := partParams_carries isLetter ref hsegment hv
  obtain ⟨sm, hsm, hread⟩ := hcarries.read (partParams_fits hf _ segment).1 sequenceID
  refine ⟨sm, hsm, fun hlong => ?_⟩
  rw [List.length_map] at hlong ⊢
  refine ⟨_, hread.concat.trans (if_pos hlong), rfl, ?_, ?_⟩
  case refine_1 => rw [UInt8.toNat_ofNat']; omega
  case refine_2 => rw [UInt8.toNat_ofNat']; omega

end TextParts

def PartsFit (ref : UInt16) (msg : Message) (cfg : SMPPClientConfig) : Prop :=
  if cfg.longMessage = lit "payload" then
    overflowAccepted (encodeText msg.text (wireDataCoding msg) cfg.gsm7Packing) = true
  else
    (textSegments ref msg).length ≤ 255

section Fits

variable {msg : Message} {cfg : SMPPClientConfig} (h : IsPlain msg)
  (hsource : FitsCString smppMaxAddress msg.sourceAddr) (hdest : FitsCString smppMaxAddress msg.destAddr)
  (hservice : FitsCString smppMaxServiceType cfg.serviceType) (hvalidity : FitsCString 16 cfg.validityPeriod)
  (isLetter : Char → Bool) (ref : UInt16) (sequenceID : UInt32)
include h hsource hdest hservice hvalidity

theorem partsFit_of_numbered (hnumbered : Numbered sequenceID (buildSubmitSM isLetter ref msg cfg)) :
    PartsFit ref msg cfg := by
  have hf : (bodyParams isLetter msg cfg).Fits := ⟨hservice, hvalidity, fits_stripPlus hsource, fits_stripPlus hdest⟩
  refine ((h.addressed_all_iff isLetter ref hservice hvalidity (fits_stripPlus hdest) sequenceID).mp ?_).2
  intro body hbody
  obtain ⟨reference, hparts⟩ := hnumbered
  obtain ⟨i, hi⟩ := List.mem_iff_getElem?.mp hbody
  obtain ⟨sm, hsm, -⟩ := hparts i body hi
  rw [h.buildSubmitSM_eq_map] at hbody
  obtain ⟨p, hp, rfl⟩ := List.mem_map.mp hbody
  obtain ⟨hfits, hmsg⟩ := textParts_fits hf p hp
  have haddressed := addressed_of_ok hfits hsm
  rwa [hmsg] at haddressed

-- The parts of a text are accepted and numbered exactly when there are at most 255 of them or, in one parameter,
-- the octets beyond its length pass for parameters; up to 65535 octets there are none.
theorem submit_parts_numbered_iff :
    Numbered sequenceID (buildSubmitSM isLetter ref msg cfg) ↔ PartsFit ref msg cfg := by
  have hf : (bodyParams isLetter msg cfg).Fits := ⟨hservice, hvalidity, fits_stripPlus hsource, fits_stripPlus hdest⟩
  refine ⟨partsFit_of_numbered h hsource hdest hservice hvalidity isLetter ref sequenceID, fun hfit => ?_⟩
  by_cases hmode : cfg.longMessage = lit "payload"
  case pos =>
    have hall := (h.addressed_all_iff isLetter ref hservice hvalidity (fits_stripPlus hdest) sequenceID).mpr
      ⟨fits_stripPlus hsource, hfit⟩
    have hone : (buildSubmitSM isLetter ref msg cfg).length = 1 := by
      rw [h.buildSubmitSM_eq, if_pos hmode]
      rfl
    refine ⟨0, fun i body hi => ?_⟩
    obtain ⟨sm, hsm, -⟩ := hall body (List.mem_of_getElem? hi)
    exact ⟨sm, hsm, fun hlong => absurd hlong (by rw [hone]; exact Nat.lt_irrefl 1)⟩
  case neg =>
    rw [PartsFit, if_neg hmode] at hfit
    rw [h.buildSubmitSM_eq_map, textParts]
    simp only [if_neg hmode, List.map_map]
    exact numbered_of_count hf hfit sequenceID

end Fits

def letters (n : Nat) : Message where
  sourceAddr := lit "1001"
  destAddr   := lit "8613800138000"
  text       := utf8 (List.replicate n 'a')
  encoding   := lit "gsm7"

theorem letters_plain (n : Nat) : IsPlain (letters n) :=
  ⟨rfl, rfl, rfl⟩

theorem letters_length (n : Nat) : unitLen gsm7RuneLen (runes (letters n).text) = n := by
  have hone : gsm7RuneLen 'a' = 1 := by decide
  simp [letters, runes_utf8, unitLen, hone]

theorem submit_parts_numbered_iff_two :
    (textSegments 9 (letters 161)).length = 2 ∧
      Numbered 1 (buildSubmitSM (fun _ => false) 9 (letters 161) {}) := by
  have hcount : (textSegments 9 (letters 161)).length = 2 := by decide +kernel
  have hsource : FitsCString smppMaxAddress (lit "1001") := by decide
  have hdest : FitsCString smppMaxAddress (lit "8613800138000") := by decide
  have hfit : PartsFit 9 (letters 161) {} := by
    rw [PartsFit, if_neg (by decide), hcount]
    decide
  exact ⟨hcount, (submit_parts_numbered_iff (letters_plain 161) hsource hdest (by decide) (by decide)
    (fun _ => false) 9 1).mpr hfit⟩

theorem letters_parts {n : Nat} {ref : UInt16} {sequenceID : UInt32}
    (h : Numbered sequenceID (buildSubmitSM (fun _ => false) ref (letters n) {})) : n ≤ 255 * 160 := by
  have hsource : FitsCString smppMaxAddress (lit "1001") := by decide
  have hdest : FitsCString smppMaxAddress (lit "8613800138000") := by decide
  have hfit := partsFit_of_numbered (letters_plain n) hsource hdest (by decide) (by decide) (fun _ => false) ref
    sequenceID h
  rw [PartsFit, if_neg (by decide)] at hfit
  have hlen : unitLen gsm7RuneLen (runes (letters n).text) ≤
      (textSegments ref (letters n)).length * (splitRule (resolveEncoding (lit "gsm7") (letters n).text)).singleLimit :=
    unitLen_le_split (splitRule_gsm7 _).cuts
  rw [letters_length, singleLimit_gsm7] at hlen
  omega

-- More letters than 255 parts can hold: the number of parts does not fit its octet.
theorem too_many_parts : ¬Numbered 1 (buildSubmitSM (fun _ => false) 9 (letters 40801) {}) :=
  fun h => absurd (letters_parts h) (by decide)

end Client

end SmppGateway
