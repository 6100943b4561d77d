import SmppGateway.Message.Codec
import SmppGateway.Smpp.Udh

-- `ParseSubmitSM` of `internal/smpp/submit.go`.

namespace SmppGateway

open Go Parse

structure PDU where
  length     : UInt32 := 0
  commandID  : UInt32 := 0
  status     : UInt32 := 0
  sequenceID : UInt32 := 0
  body       : Bytes
  deriving DecidableEq, Repr

structure SubmitSM where
  sequenceID           : UInt32
  sender               : Str
  dest                 : Str
  text                 : Str
  dataCoding           : UInt8
  registeredDelivery   : UInt8
  esmClass             : UInt8
  protocolID           : UInt8
  priorityFlag         : UInt8
  replaceIfPresent     : UInt8
  smDefaultMsgID       : UInt8
  optionalParamsOffset : Nat
  payload              : Bytes
  udh                  : Bytes
  concat               : Option ConcatInfo
  tlvs                 : List TLV
  deriving DecidableEq, Repr

def smppMaxServiceType : Nat := 6

def smppMaxAddress : Nat := 20

def readBytes (n : Nat) (err : ParseError) (body : Bytes) : Except ParseError (Bytes × Bytes) :=
  if body.length < n then .error err else .ok (body.take n, body.drop n)

structure SubmitFields where
  sender             : Str
  dest               : Str
  esmClass           : UInt8
  protocolID         : UInt8
  priorityFlag       : UInt8
  registeredDelivery : UInt8
  replaceIfPresent   : UInt8
  dataCoding         : UInt8
  smDefaultMsgID     : UInt8
  shortMessage       : Bytes
  deriving DecidableEq, Repr

def readSubmitFields (body : Bytes) : Except ParseError (SubmitFields × Bytes) := do
  let (_, rest) ← readCStringMax smppMaxServiceType body
  let (_, rest) ← readBytes 2 .shortSubmit rest
  let (sender, rest) ← readCStringMax smppMaxAddress rest
  let (_, rest) ← readBytes 2 .missingDestination rest
  let (dest, rest) ← readCStringMax smppMaxAddress rest
  let (fixed, rest) ← readBytes 3 .missingFixedFields rest
  let (_, rest) ← readCStringMax 16 rest
  let (_, rest) ← readCStringMax 16 rest
  -- The length octet is checked together with the four delivery octets, so the source's own check for
  -- it never fires.
  let (delivery, rest) ← readBytes 5 .missingDeliveryFields rest
  let (shortMessage, rest) ← readBytes (delivery.getD 4 0).toNat .shortShortMessage rest
  pure ({
    sender, dest, shortMessage
    esmClass           := fixed.getD 0 0
    protocolID         := fixed.getD 1 0
    priorityFlag       := fixed.getD 2 0
    registeredDelivery := delivery.getD 0 0
    replaceIfPresent   := delivery.getD 1 0
    dataCoding         := delivery.getD 2 0
    smDefaultMsgID     := delivery.getD 3 0 }, rest)

def userData (f : SubmitFields) (tlvs : List TLV) : Except ParseError Bytes :=
  match findTLV tlvs tagMessagePayload with
  | none         => .ok f.shortMessage
  | some payload => if 0 < f.shortMessage.length then .error .bothPayloads else .ok payload

def concatInfo (udh : Option Bytes) (tlvs : List TLV) : Except ParseError (Option ConcatInfo) :=
  match udh.bind parseConcat with
  | some info => .ok (some info)
  | none      =>
    match parseSAR tlvs with
    | some info => .ok (some info)
    | none      => if hasSAR tlvs then .error .malformedSAR else .ok none

def SubmitFields.submitSM (f : SubmitFields) (sequenceID : UInt32) (offset : Nat) (tlvs : List TLV)
    (udh : Option Bytes) (body : Bytes) (concat : Option ConcatInfo) : SubmitSM where
  sequenceID           := sequenceID
  sender               := f.sender
  dest                 := f.dest
  text                 := decodeSubmitText body f.dataCoding
  dataCoding           := f.dataCoding
  registeredDelivery   := f.registeredDelivery
  esmClass             := f.esmClass
  protocolID           := f.protocolID
  priorityFlag         := f.priorityFlag
  replaceIfPresent     := f.replaceIfPresent
  smDefaultMsgID       := f.smDefaultMsgID
  optionalParamsOffset := offset
  payload              := body
  udh                  := udh.getD []
  concat               := concat
  tlvs                 := tlvs

def finishSubmit (sequenceID : UInt32) (f : SubmitFields) (offset : Nat) (tlvs : List TLV) :
    Except ParseError SubmitSM := do
  if hasDuplicateSARTag tlvs then
    throw .duplicateSAR
  let raw ← userData f tlvs
  let (udh, body) ← splitUDH raw f.esmClass
  let concat ← concatInfo udh tlvs
  if udh.isSome ∧ hasSAR tlvs then
    throw .udhAndSAR
  pure (f.submitSM sequenceID offset tlvs udh body concat)

def parseSubmitSM (pdu : PDU) : Except ParseError SubmitSM := do
  let (f, rest) ← readSubmitFields pdu.body
  let tlvs ← parseTLVsStrict rest
  finishSubmit pdu.sequenceID f (pdu.body.length - rest.length) tlvs

structure SubmitLayout extends SubmitFields where
  serviceType    : Str
  sourceTON      : UInt8
  sourceNPI      : UInt8
  destTON        : UInt8
  destNPI        : UInt8
  schedule       : Str
  validityPeriod : Str

namespace SubmitLayout

def bytes (l : SubmitLayout) : Bytes :=
  cString l.serviceType ++ [l.sourceTON, l.sourceNPI] ++ cString l.sender ++ [l.destTON, l.destNPI] ++
  cString l.dest ++ [l.esmClass, l.protocolID, l.priorityFlag] ++ cString l.schedule ++
  cString l.validityPeriod ++
  [l.registeredDelivery, l.replaceIfPresent, l.dataCoding, l.smDefaultMsgID,
    UInt8.ofNat l.shortMessage.length] ++ l.shortMessage

structure Fits (l : SubmitLayout) : Prop where
  serviceType    : FitsCString smppMaxServiceType l.serviceType
  sender         : FitsCString smppMaxAddress l.sender
  dest           : FitsCString smppMaxAddress l.dest
  schedule       : FitsCString 16 l.schedule
  validityPeriod : FitsCString 16 l.validityPeriod
  shortMessage   : l.shortMessage.length < 256

end SubmitLayout

theorem readBytes_append {n : Nat} {field : Bytes} (h : field.length = n) (err : ParseError)
    (rest : Bytes) : readBytes n err (field ++ rest) = .ok (field, rest) := by
  subst h
  simp [readBytes]

theorem readBytes_ok {n : Nat} {err : ParseError} {body field rest : Bytes}
    (h : readBytes n err body = .ok (field, rest)) : field.length = n ∧ body = field ++ rest := by
  unfold readBytes at h
  split at h
  case isTrue => cases h
  case isFalse hn => cases h; exact ⟨by simp; omega, (List.take_append_drop n body).symm⟩

theorem readSubmitFields_bytes {l : SubmitLayout} (h : l.Fits) (rest : Bytes) :
    readSubmitFields (l.bytes ++ rest) = .ok (l.toSubmitFields, rest) := by
  have hsize : l.shortMessage.length = (UInt8.ofNat l.shortMessage.length).toNat := by
    rw [UInt8.toNat_ofNat', Nat.mod_eq_of_lt h.shortMessage]
  simp only [SubmitLayout.bytes, List.append_assoc]
  rw [readSubmitFields, bind_of_ok (readCStringMax_cString h.serviceType _)]
  simp only
  rw [bind_of_ok (readBytes_append (by rfl) _ _), bind_of_ok (readCStringMax_cString h.sender _),
    bind_of_ok (readBytes_append (by rfl) _ _), bind_of_ok (readCStringMax_cString h.dest _),
    bind_of_ok (readBytes_append (by rfl) _ _), bind_of_ok (readCStringMax_cString h.schedule _),
    bind_of_ok (readCStringMax_cString h.validityPeriod _), bind_of_ok (readBytes_append (by rfl) _ _)]
  simp only [List.getD_cons_zero, List.getD_cons_succ]
  rw [bind_of_ok (readBytes_append hsize _ _)]
  rfl

theorem readSubmitFields_ok {body rest : Bytes} {f : SubmitFields}
    (h : readSubmitFields body = .ok (f, rest)) :
    ∃ l : SubmitLayout, l.Fits ∧ l.toSubmitFields = f ∧ body = l.bytes ++ rest := by
  obtain ⟨⟨serviceType, r₁⟩, h₁, h⟩ := bind_eq_ok.mp h
  obtain ⟨⟨source, r₂⟩, h₂, h⟩ := bind_eq_ok.mp h
  obtain ⟨⟨sender, r₃⟩, h₃, h⟩ := bind_eq_ok.mp h
  obtain ⟨⟨destination, r₄⟩, h₄, h⟩ := bind_eq_ok.mp h
  obtain ⟨⟨dest, r₅⟩, h₅, h⟩ := bind_eq_ok.mp h
  obtain ⟨⟨fixed, r₆⟩, h₆, h⟩ := bind_eq_ok.mp h
  obtain ⟨⟨schedule, r₇⟩, h₇, h⟩ := bind_eq_ok.mp h
  obtain ⟨⟨validityPeriod, r₈⟩, h₈, h⟩ := bind_eq_ok.mp h
  obtain ⟨⟨delivery, r₉⟩, h₉, h⟩ := bind_eq_ok.mp h
  obtain ⟨⟨shortMessage, r₁₀⟩, h₁₀, hfields⟩ := bind_eq_ok.mp h
  obtain ⟨hf₁, rfl⟩ := readCStringMax_ok h₁
  obtain ⟨hl₂, rfl⟩ := readBytes_ok h₂
  obtain ⟨hf₃, rfl⟩ := readCStringMax_ok h₃
  obtain ⟨hl₄, rfl⟩ := readBytes_ok h₄
  obtain ⟨hf₅, rfl⟩ := readCStringMax_ok h₅
  obtain ⟨hl₆, rfl⟩ := readBytes_ok h₆
  obtain ⟨hf₇, rfl⟩ := readCStringMax_ok h₇
  obtain ⟨hf₈, rfl⟩ := readCStringMax_ok h₈
  obtain ⟨hl₉, rfl⟩ := readBytes_ok h₉
  obtain ⟨hl₁₀, rfl⟩ := readBytes_ok h₁₀
  obtain ⟨sourceTON, sourceNPI, rfl⟩ := List.length_eq_two.mp hl₂
  obtain ⟨destTON, destNPI, rfl⟩ := List.length_eq_two.mp hl₄
  obtain ⟨esmClass, protocolID, priorityFlag, rfl⟩ := List.length_eq_three.mp hl₆
  obtain ⟨registeredDelivery, replaceIfPresent, dataCoding, smDefaultMsgID, size, rfl⟩ :
      ∃ a b c d e, delivery = [a, b, c, d, e] := by
    match delivery, hl₉ with
    | [a, b, c, d, e], _ => exact ⟨a, b, c, d, e, rfl⟩
  cases hfields
  have hsize : shortMessage.length = size.toNat := hl₁₀
  refine ⟨{
    serviceType, sourceTON, sourceNPI, sender, destTON, destNPI, dest, esmClass, protocolID, priorityFlag
    schedule, validityPeriod, registeredDelivery, replaceIfPresent, dataCoding, smDefaultMsgID
    shortMessage }, ⟨hf₁, hf₃, hf₅, hf₇, hf₈, hsize ▸ size.toNat_lt⟩, rfl, ?_⟩
  simp [SubmitLayout.bytes, hsize]

theorem concatInfo_congr {tlvs tlvs' : List TLV} (udh : Option Bytes)
    (h : ∀ tag, isSARTag tag → findTLV tlvs tag = findTLV tlvs' tag) (hs : hasSAR tlvs = hasSAR tlvs') :
    concatInfo udh tlvs = concatInfo udh tlvs' := by
  unfold concatInfo
  rw [parseSAR_congr h, hs]

theorem concatInfo_udh (udh : Bytes) : concatInfo (some udh) [] = .ok (parseConcat udh) := by
  unfold concatInfo
  simp only [Option.bind_some]
  cases parseConcat udh <;> rfl

structure Acceptable (f : SubmitFields) (tlvs : List TLV) (udh : Option Bytes) (body : Bytes)
    (concat : Option ConcatInfo) : Prop where
  noDuplicate : hasDuplicateSARTag tlvs = false
  user        : ∃ raw, userData f tlvs = .ok raw ∧ splitUDH raw f.esmClass = .ok (udh, body)
  concat      : concatInfo udh tlvs = .ok concat
  oneKind     : udh.isSome → hasSAR tlvs = false

theorem finishSubmit_eq_ok {sequenceID : UInt32} {f : SubmitFields} {offset : Nat} {tlvs : List TLV}
    {sm : SubmitSM} : finishSubmit sequenceID f offset tlvs = .ok sm ↔
      ∃ udh body concat, Acceptable f tlvs udh body concat ∧
        f.submitSM sequenceID offset tlvs udh body concat = sm := by
  unfold finishSubmit
  cases hd : hasDuplicateSARTag tlvs
  case true => exact ⟨nofun, fun ⟨_, _, _, h, _⟩ => by cases hd.symm.trans h.noDuplicate⟩
  case false =>
    constructor
    case mp =>
      intro h
      obtain ⟨raw, hraw, h⟩ := bind_eq_ok.mp h
      obtain ⟨⟨udh, body⟩, hudh, h⟩ := bind_eq_ok.mp h
      obtain ⟨concat, hconcat, h⟩ := bind_eq_ok.mp h
      simp only at h
      split at h
      case isTrue => cases h
      case isFalse hk =>
        refine ⟨udh, body, concat, ⟨hd, ⟨raw, hraw, hudh⟩, hconcat, fun hs => ?_⟩, by cases h; rfl⟩
        simpa [hs] using hk
    case mpr =>
      rintro ⟨udh, body, concat, ⟨-, ⟨raw, hraw, hudh⟩, hconcat, hk⟩, rfl⟩
      have hk : ¬(udh.isSome ∧ hasSAR tlvs) := fun ⟨hs, hsar⟩ => by cases (hk hs).symm.trans hsar
      change (userData f tlvs >>= _) = _
      rw [bind_of_ok hraw, bind_of_ok hudh]
      simp only
      rw [bind_of_ok hconcat, if_neg hk]
      rfl

theorem parseSubmitSM_eq_ok {pdu : PDU} {sm : SubmitSM} : parseSubmitSM pdu = .ok sm ↔
    ∃ f rest tlvs, readSubmitFields pdu.body = .ok (f, rest) ∧ parseTLVsStrict rest = .ok tlvs ∧
      finishSubmit pdu.sequenceID f (pdu.body.length - rest.length) tlvs = .ok sm := by
  simp only [parseSubmitSM, bind_eq_ok, Prod.exists]
  exact ⟨fun ⟨f, rest, h₁, tlvs, h₂, h₃⟩ => ⟨f, rest, tlvs, h₁, h₂, h₃⟩,
    fun ⟨f, rest, tlvs, h₁, h₂, h₃⟩ => ⟨f, rest, h₁, tlvs, h₂, h₃⟩⟩

end SmppGateway
