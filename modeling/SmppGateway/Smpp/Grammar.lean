import Mathlib.Data.List.Nodup
import SmppGateway.Smpp.Cursor

-- The language of `ParseSubmitSM`, said without a parser, and that exactly its words are accepted.

namespace SmppGateway

open Go Parse Slice

variable {tlvs : List TLV} {concat : Option ConcatInfo}

theorem putUint16_uint16 (high low : UInt8) : putUint16 (uint16 high low) = [high, low] := by
  have hhigh := high.toNat_lt
  have hlow := low.toNat_lt
  have hnat : (uint16 high low).toNat = high.toNat * 256 + low.toNat := by
    rw [uint16, UInt16.toNat_ofNat', Nat.mod_eq_of_lt (by omega)]
  have hdiv : (high.toNat * 256 + low.toNat) / 256 = high.toNat := by omega
  have hmod : (high.toNat * 256 + low.toNat) % 256 = low.toNat := by omega
  rw [putUint16, hnat, hdiv, UInt8.ofNat_toNat]
  congr 2
  apply UInt8.toNat_inj.mp
  rw [UInt8.toNat_ofNat', hmod]

theorem readTLV_ok {l rest : Bytes} {item : TLV} (h : readTLV l = .ok (item, rest)) : l = appendTLV item ++ rest := by
  unfold readTLV at h
  split at h
  case h_1 t₁ t₂ l₁ l₂ rest' =>
    simp only at h
    split at h
    case isTrue => cases h
    case isFalse hlen =>
      cases h
      have hvalue : (rest'.take (uint16 l₁ l₂).toNat).length = (uint16 l₁ l₂).toNat :=
        List.length_take_of_le (Nat.le_of_not_lt hlen)
      simp [appendTLV, hvalue, putUint16_uint16]
  case h_2 => cases h

theorem parseTLVsStrict_eq_ok {body : Bytes} : parseTLVsStrict body = .ok tlvs ↔
    body = tlvs.flatMap appendTLV ∧ ∀ item ∈ tlvs, item.value.length < 65536 := by
  constructor
  case mp => exact fun h => ⟨many_ok readTLV_consumes readTLV_ok h, length_of_parseTLVsStrict h⟩
  case mpr =>
    rintro ⟨rfl, hlen⟩
    exact many_flatMap readTLV_consumes fun item hm rest => readTLV_appendTLV (hlen item hm) rest

theorem findTLV_eq_some {tag : UInt16} (honce : (tlvs.map (·.tag)).count tag ≤ 1) {value : Bytes} :
    findTLV tlvs tag = some value ↔ ⟨tag, value⟩ ∈ tlvs := by
  refine ⟨mem_of_findTLV, fun hm => ?_⟩
  induction tlvs
  case nil => cases hm
  case cons item tlvs hi =>
    rw [List.map_cons, List.count_cons] at honce
    rcases List.mem_cons.mp hm with rfl | hm
    case inl => simp [findTLV]
    case inr =>
      have hpos : 0 < (tlvs.map (·.tag)).count tag := List.count_pos_iff.mpr (List.mem_map.mpr ⟨_, hm, rfl⟩)
      have hne : item.tag ≠ tag := by
        intro heq
        simp only [heq, beq_self_eq_true, if_true] at honce
        omega
      have ih := hi (by omega) hm
      rw [← ih, findTLV, findTLV, List.find?_cons_of_neg (by simpa using hne)]

theorem findTLV_eq_none {tag : UInt16} : findTLV tlvs tag = none ↔ ∀ item ∈ tlvs, item.tag ≠ tag := by
  simp [findTLV]

theorem hasSAR_eq_false : hasSAR tlvs = false ↔ ∀ item ∈ tlvs, isSARTag item.tag = false := by
  simp [hasSAR]

theorem hasDuplicateSARTag_eq_false : hasDuplicateSARTag tlvs = false ↔
    ∀ tag, isSARTag tag → (tlvs.map (·.tag)).count tag ≤ 1 := by
  simp only [hasDuplicateSARTag, decide_eq_false_iff_not, not_not, List.nodup_iff_count_le_one]
  refine forall_congr' fun tag => ?_
  by_cases hsar : isSARTag tag
  case pos => simp [hsar, List.count_filter hsar]
  case neg =>
    have hzero : ((tlvs.map (·.tag)).filter isSARTag).count tag = 0 :=
      List.count_eq_zero.mpr fun hm => hsar (List.mem_filter.mp hm).2
    simp [hsar, hzero]

inductive SARSays (tlvs : List TLV) : ConcatInfo → Prop
  | short {ref total part : UInt8} : ⟨tagSARMsgRefNum, [ref]⟩ ∈ tlvs → ⟨tagSARTotalSegments, [total]⟩ ∈ tlvs →
      ⟨tagSARSegmentSeqnum, [part]⟩ ∈ tlvs → SARSays tlvs ⟨ref.toUInt16, total, part⟩
  | long {high low total part : UInt8} : ⟨tagSARMsgRefNum, [high, low]⟩ ∈ tlvs →
      ⟨tagSARTotalSegments, [total]⟩ ∈ tlvs → ⟨tagSARSegmentSeqnum, [part]⟩ ∈ tlvs →
      SARSays tlvs ⟨uint16 high low, total, part⟩

-- How the message may be numbered as a part: by its header, by parameters, or not at all.
inductive Numbering (esmClass : UInt8) (tlvs : List TLV) : Option Bytes → Option ConcatInfo → Prop
  | header {udh : Bytes} {ies : List IE} {concat : Option ConcatInfo} (flag : esmClass &&& 0x40 ≠ 0)
      (noSAR : ∀ item ∈ tlvs, isSARTag item.tag = false) (wellFormed : WellFormedHeader udh ies)
      (unnumbered : concat = none ↔ ∀ ie ∈ ies, ¬(ie.id = 0x00 ∨ ie.id = 0x08))
      (first : ∀ info, concat = some info → FirstSays ies info) : Numbering esmClass tlvs (some udh) concat
  | sar {info : ConcatInfo} (flag : esmClass &&& 0x40 = 0) (meaning : SARSays tlvs info)
      (part : 1 ≤ info.part ∧ info.part ≤ info.total) : Numbering esmClass tlvs none (some info)
  | plain (flag : esmClass &&& 0x40 = 0) (noSAR : ∀ item ∈ tlvs, isSARTag item.tag = false) :
      Numbering esmClass tlvs none none

def userOctets (f : SubmitFields) (tlvs : List TLV) : Bytes :=
  (findTLV tlvs tagMessagePayload).getD f.shortMessage

structure Legal (f : SubmitFields) (tlvs : List TLV) (udh : Option Bytes) (payload : Bytes)
    (concat : Option ConcatInfo) : Prop where
  sarOnce   : ∀ tag, isSARTag tag → (tlvs.map (·.tag)).count tag ≤ 1
  oneText   : f.shortMessage ≠ [] → ∀ item ∈ tlvs, item.tag ≠ tagMessagePayload
  octets    : udh.getD [] ++ payload = userOctets f tlvs
  numbering : Numbering f.esmClass tlvs udh concat

-- A word of the language, taken apart. A C-octet string of a field holds at most the field's number of
-- octets in front of its terminator.
structure SubmitGrammar (body : Bytes) (l : SubmitLayout) (tlvs : List TLV) (udh : Option Bytes) (payload : Bytes)
    (concat : Option ConcatInfo) : Prop where
  fits   : l.Fits
  values : ∀ item ∈ tlvs, item.value.length < 65536
  octets : body = l.bytes ++ tlvs.flatMap appendTLV
  legal  : Legal l.toSubmitFields tlvs udh payload concat

theorem newConcatInfo_eq_some {reference : UInt16} {total part : UInt8} {info : ConcatInfo} :
    newConcatInfo reference total part = some info ↔ info = ⟨reference, total, part⟩ ∧ 1 ≤ part ∧ part ≤ total := by
  rw [newConcatInfo, ← validConcatPart_iff]
  cases validConcatPart total part <;> simp [eq_comm]

theorem parseSAR_eq_some (honce : ∀ tag, isSARTag tag → (tlvs.map (·.tag)).count tag ≤ 1) {info : ConcatInfo} :
    parseSAR tlvs = some info ↔ SARSays tlvs info ∧ 1 ≤ info.part ∧ info.part ≤ info.total := by
  have href {value : Bytes} : findTLV tlvs tagSARMsgRefNum = some value ↔ ⟨tagSARMsgRefNum, value⟩ ∈ tlvs :=
    findTLV_eq_some (honce _ (by decide))
  have htotal {value : Bytes} : findTLV tlvs tagSARTotalSegments = some value ↔ ⟨tagSARTotalSegments, value⟩ ∈ tlvs :=
    findTLV_eq_some (honce _ (by decide))
  have hpart {value : Bytes} : findTLV tlvs tagSARSegmentSeqnum = some value ↔ ⟨tagSARSegmentSeqnum, value⟩ ∈ tlvs :=
    findTLV_eq_some (honce _ (by decide))
  constructor
  case mp =>
    intro h
    unfold parseSAR at h
    split at h
    case h_1 ref total part h₁ h₂ h₃ =>
      obtain ⟨rfl, hvalid⟩ := newConcatInfo_eq_some.mp h
      exact ⟨.short (href.mp h₁) (htotal.mp h₂) (hpart.mp h₃), hvalid⟩
    case h_2 high low total part h₁ h₂ h₃ =>
      obtain ⟨rfl, hvalid⟩ := newConcatInfo_eq_some.mp h
      exact ⟨.long (href.mp h₁) (htotal.mp h₂) (hpart.mp h₃), hvalid⟩
    case h_3 => cases h
  case mpr =>
    rintro ⟨hmeans, hvalid⟩
    cases hmeans
    case short h₁ h₂ h₃ =>
      simp only [parseSAR, href.mpr h₁, htotal.mpr h₂, hpart.mpr h₃]
      exact newConcatInfo_eq_some.mpr ⟨rfl, hvalid⟩
    case long h₁ h₂ h₃ =>
      simp only [parseSAR, href.mpr h₁, htotal.mpr h₂, hpart.mpr h₃]
      exact newConcatInfo_eq_some.mpr ⟨rfl, hvalid⟩

theorem parseSAR_eq_none (h : hasSAR tlvs = false) : parseSAR tlvs = none := by
  have hnone : findTLV tlvs tagSARMsgRefNum = none := by
    refine findTLV_eq_none.mpr fun item hm heq => ?_
    have := hasSAR_eq_false.mp h item hm
    rw [heq] at this
    exact absurd this (by decide)
  simp only [parseSAR, hnone]

theorem userData_eq_ok {f : SubmitFields} {raw : Bytes} : userData f tlvs = .ok raw ↔
    (f.shortMessage ≠ [] → ∀ item ∈ tlvs, item.tag ≠ tagMessagePayload) ∧ raw = userOctets f tlvs := by
  unfold userData userOctets
  rw [← findTLV_eq_none]
  cases findTLV tlvs tagMessagePayload
  case none => simp [eq_comm]
  case some payload =>
    by_cases hshort : f.shortMessage = []
    case pos => simp [hshort, eq_comm]
    case neg => simp [hshort, List.length_pos_iff]

theorem concatInfo_header {udh : Bytes} (hsar : hasSAR tlvs = false) :
    concatInfo (some udh) tlvs = .ok (parseConcat udh) := by
  simp only [concatInfo, Option.bind_some, parseSAR_eq_none hsar, hsar]
  cases parseConcat udh <;> rfl

theorem WellFormedHeader.parseConcat_eq {udh : Bytes} {ies : List IE} (h : WellFormedHeader udh ies) :
    parseConcat udh = concat ↔
      (concat = none ↔ ∀ ie ∈ ies, ¬(ie.id = 0x00 ∨ ie.id = 0x08)) ∧ ∀ info, concat = some info → FirstSays ies info := by
  rcases h.parseConcat_cases with ⟨hnone, hall⟩ | ⟨info, hsome, ⟨ie, hie, hid⟩, hfirst⟩
  case inl =>
    constructor
    case mp =>
      rintro rfl
      refine ⟨⟨fun _ => hall, fun _ => hnone⟩, fun info heq => ?_⟩
      cases hnone.symm.trans heq
    case mpr => rintro ⟨hiff, -⟩; rw [hnone, hiff.mpr hall]
  case inr =>
    constructor
    case mp =>
      rintro rfl
      rw [hsome]
      refine ⟨⟨fun heq => absurd heq (by simp), fun hall => absurd hid (hall ie hie)⟩, fun info' heq => ?_⟩
      cases heq
      exact hfirst
    case mpr =>
      rintro ⟨hiff, hfirst'⟩
      cases concat
      case none => exact absurd hid (hiff.mp rfl ie hie)
      case some info' => rw [hsome, hfirst.unique (hfirst' info' rfl)]

theorem numbering_header {esmClass : UInt8} {udh raw payload : Bytes} :
    (splitUDH raw esmClass = .ok (some udh, payload) ∧ concatInfo (some udh) tlvs = .ok concat ∧ hasSAR tlvs = false) ↔
      udh ++ payload = raw ∧ Numbering esmClass tlvs (some udh) concat := by
  constructor
  case mp =>
    rintro ⟨hsplit, hconcat, hsar⟩
    have hflag := (splitUDH_some hsplit).1
    obtain ⟨hraw, ies, hies⟩ := (splitUDH_eq_some hflag).mp hsplit
    rw [concatInfo_header hsar] at hconcat
    obtain ⟨hnone, hfirst⟩ := hies.parseConcat_eq.mp (Except.ok.inj hconcat)
    exact ⟨hraw.symm, .header hflag (hasSAR_eq_false.mp hsar) hies hnone hfirst⟩
  case mpr =>
    rintro ⟨hraw, hnum⟩
    cases hnum
    case header ies hflag hsar hies hnone hfirst =>
      refine ⟨(splitUDH_eq_some hflag).mpr ⟨hraw.symm, ies, hies⟩, ?_, hasSAR_eq_false.mpr hsar⟩
      rw [concatInfo_header (hasSAR_eq_false.mpr hsar), hies.parseConcat_eq.mpr ⟨hnone, hfirst⟩]

theorem numbering_plain {esmClass : UInt8} {raw payload : Bytes}
    (honce : ∀ tag, isSARTag tag → (tlvs.map (·.tag)).count tag ≤ 1) :
    (splitUDH raw esmClass = .ok (none, payload) ∧ concatInfo none tlvs = .ok concat) ↔
      payload = raw ∧ Numbering esmClass tlvs none concat := by
  constructor
  case mp =>
    rintro ⟨hsplit, hconcat⟩
    obtain ⟨hflag, rfl⟩ := splitUDH_none hsplit
    refine ⟨rfl, ?_⟩
    cases hsar : parseSAR tlvs
    case some info =>
      obtain ⟨hmeans, hpart⟩ := (parseSAR_eq_some honce).mp hsar
      simp only [concatInfo, Option.bind_none, hsar] at hconcat
      cases hconcat
      exact .sar hflag hmeans hpart
    case none =>
      simp only [concatInfo, Option.bind_none, hsar] at hconcat
      split at hconcat
      case isTrue => cases hconcat
      case isFalse hno => cases hconcat; exact .plain hflag (hasSAR_eq_false.mp (Bool.eq_false_iff.mpr hno))
  case mpr =>
    rintro ⟨rfl, hnum⟩
    cases hnum
    case sar hflag hmeans hpart =>
      simp [splitUDH, hflag, concatInfo, (parseSAR_eq_some honce).mpr ⟨hmeans, hpart⟩]
    case plain hflag hsar =>
      have hno := hasSAR_eq_false.mpr hsar
      simp [splitUDH, hflag, concatInfo, parseSAR_eq_none hno, hno]

theorem acceptable_iff {f : SubmitFields} {udh : Option Bytes} {payload : Bytes} :
    Acceptable f tlvs udh payload concat ↔ Legal f tlvs udh payload concat := by
  constructor
  case mp =>
    rintro ⟨hdup, ⟨raw, hraw, hsplit⟩, hconcat, hkind⟩
    have honce := hasDuplicateSARTag_eq_false.mp hdup
    obtain ⟨htext, rfl⟩ := userData_eq_ok.mp hraw
    cases udh
    case none =>
      obtain ⟨hoctets, hnum⟩ := (numbering_plain honce).mp ⟨hsplit, hconcat⟩
      exact ⟨honce, htext, hoctets, hnum⟩
    case some udh =>
      obtain ⟨hoctets, hnum⟩ := numbering_header.mp ⟨hsplit, hconcat, hkind rfl⟩
      exact ⟨honce, htext, hoctets, hnum⟩
  case mpr =>
    rintro ⟨honce, htext, hoctets, hnum⟩
    have hdup := hasDuplicateSARTag_eq_false.mpr honce
    have hraw := userData_eq_ok.mpr ⟨htext, rfl⟩
    cases udh
    case none =>
      obtain ⟨hsplit, hconcat⟩ := (numbering_plain honce).mpr ⟨hoctets, hnum⟩
      exact ⟨hdup, ⟨_, hraw, hsplit⟩, hconcat, fun hsome => by cases hsome⟩
    case some udh =>
      obtain ⟨hsplit, hconcat, hsar⟩ := numbering_header.mpr ⟨hoctets, hnum⟩
      exact ⟨hdup, ⟨_, hraw, hsplit⟩, hconcat, fun _ => hsar⟩

theorem parseSubmitSM_eq_ok_iff {pdu : PDU} {sm : SubmitSM} : parseSubmitSM pdu = .ok sm ↔
    ∃ l tlvs udh payload concat, SubmitGrammar pdu.body l tlvs udh payload concat ∧
      sm = l.submitSM pdu.sequenceID l.bytes.length tlvs udh payload concat := by
  rw [parseSubmitSM_eq_ok]
  constructor
  case mp =>
    rintro ⟨f, rest, tlvs, hfields, htlvs, hfinish⟩
    obtain ⟨l, hfits, rfl, hbody⟩ := readSubmitFields_ok hfields
    obtain ⟨hrest, hvalues⟩ := parseTLVsStrict_eq_ok.mp htlvs
    obtain ⟨udh, payload, concat, hacceptable, hsm⟩ := finishSubmit_eq_ok.mp hfinish
    refine ⟨l, tlvs, udh, payload, concat, ⟨hfits, hvalues, hrest ▸ hbody, acceptable_iff.mp hacceptable⟩, ?_⟩
    rw [← hsm, hbody, List.length_append, Nat.add_sub_cancel]
  case mpr =>
    rintro ⟨l, tlvs, udh, payload, concat, ⟨hfits, hvalues, hbody, hlegal⟩, rfl⟩
    refine ⟨l.toSubmitFields, tlvs.flatMap appendTLV, tlvs, ?_, parseTLVsStrict_eq_ok.mpr ⟨rfl, hvalues⟩, ?_⟩
    case refine_1 => rw [hbody, readSubmitFields_bytes hfits]
    case refine_2 =>
      refine finishSubmit_eq_ok.mpr ⟨udh, payload, concat, acceptable_iff.mpr hlegal, ?_⟩
      rw [hbody, List.length_append, Nat.add_sub_cancel]

-- A body is accepted if and only if it is a word of the language, the fields are those of its parts, and the
-- walk over it never leaves it.
theorem parseSubmitSM_grammar (pdu : PDU) :
    (∀ sm, Cursor.parseSubmitSM pdu = .ok sm ↔
      ∃ l tlvs udh payload concat, SubmitGrammar pdu.body l tlvs udh payload concat ∧
        sm = l.submitSM pdu.sequenceID l.bytes.length tlvs udh payload concat) ∧
    (∀ sm, Cursor.parseSubmitSM pdu = .ok sm → ∃ l tlvs udh payload concat,
      SubmitGrammar pdu.body l tlvs udh payload concat ∧ sm.udh ++ sm.payload = userOctets l.toSubmitFields tlvs) ∧
    Cursor.parseSubmitSM pdu ≠ .error .outOfRange := by
  have hiff {sm : SubmitSM} : Cursor.parseSubmitSM pdu = .ok sm ↔ parseSubmitSM pdu = .ok sm := by
    rw [Cursor.parseSubmitSM_eq, lift_eq_ok]
  refine ⟨fun sm => hiff.trans parseSubmitSM_eq_ok_iff, fun sm hok => ?_, ?_⟩
  case refine_1 =>
    obtain ⟨l, tlvs, udh, payload, concat, hgrammar, rfl⟩ := parseSubmitSM_eq_ok_iff.mp (hiff.mp hok)
    exact ⟨l, tlvs, udh, payload, concat, hgrammar, hgrammar.legal.octets⟩
  case refine_2 =>
    rw [Cursor.parseSubmitSM_eq]
    exact lift_ne_outOfRange _

end SmppGateway
