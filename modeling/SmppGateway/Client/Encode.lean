import SmppGateway.Client.Config
import SmppGateway.Message.Split
import SmppGateway.Smpp.Submit

-- `BuildSubmitSM` of `internal/smppclient/encode.go`: the bodies of the submit_sm PDUs for one message.

namespace SmppGateway

open Go Parse

namespace Client

structure Message where
  gatewayID          : Str := []
  sourceAddr         : Str
  destAddr           : Str
  text               : Str
  dataCoding         : UInt8 := 0
  registeredDelivery : UInt8 := 0
  encoding           : Str := []
  udh                : Bytes := []
  rawPayload         : Bytes := []
  rawPayloadSet      : Bool := false
  sarRefNum          : Bytes := []
  sarTotalSegments   : Bytes := []
  sarSegmentSeqnum   : Bytes := []
  sarSet             : Bool := false
  deriving DecidableEq, Repr

def stripPlus (value : Str) : Str :=
  trimPrefix value (lit "+")

def hasLetter (isLetter : Char → Bool) (value : Str) : Bool :=
  (runes value).any isLetter

def sourceTON (isLetter : Char → Bool) (addr : Str) (configured : Int) : UInt8 :=
  if 0 ≤ configured then
    .ofInt configured
  else if hasLetter isLetter addr then
    5
  else if lit "+" <+: addr ∨ 8 < (stripPlus addr).length then
    1
  else
    3

def sourceNPI (isLetter : Char → Bool) (addr : Str) (configured : Int) : UInt8 :=
  if 0 ≤ configured then
    .ofInt configured
  else if hasLetter isLetter addr ∨ (stripPlus addr).length ≤ 8 then
    0
  else
    1

def encodeText (text : Str) (dataCoding : UInt8) (packing : Str) : Bytes :=
  if dataCoding = 0x08 then
    SmppGateway.encodeText text dataCoding
  else if packing = lit "packed" then
    SmppGateway.encodeText text dataCoding
  else
    encodeGSM7Unpacked text

def encodeMessagePayload (msg : Message) (dataCoding : UInt8) (packing : Str) : Bytes :=
  if msg.rawPayloadSet then msg.rawPayload else encodeText msg.text dataCoding packing

structure SubmitBodyParams where
  cfg                : SMPPClientConfig
  msg                : Message
  dataCoding         : UInt8
  registeredDelivery : UInt8
  shortMessage       : Bytes := []
  messagePayload     : Bytes := []
  tlvs               : List TLV := []
  sourceTON          : UInt8
  sourceNPI          : UInt8
  destTON            : UInt8
  destNPI            : UInt8
  esmClass           : UInt8 := 0

def buildSubmitBody (p : SubmitBodyParams) : Bytes :=
  let head := cString p.cfg.serviceType ++ [p.sourceTON, p.sourceNPI] ++
    cString (stripPlus p.msg.sourceAddr) ++ [p.destTON, p.destNPI] ++
    cString (stripPlus p.msg.destAddr) ++ [p.esmClass, 0x00, 0x00] ++ cString [] ++
    cString p.cfg.validityPeriod ++ [p.registeredDelivery, 0x00, p.dataCoding, 0x00]
  let (short, messagePayload) :=
    if 254 < p.shortMessage.length then
      ([0x00], p.shortMessage)
    else
      (UInt8.ofNat p.shortMessage.length :: p.shortMessage, p.messagePayload)
  let tlvs :=
    if messagePayload ≠ [] then p.tlvs ++ [{ tag := tagMessagePayload, value := messagePayload }] else p.tlvs
  head ++ short ++ tlvs.flatMap appendTLV

def givenEncoding (msg : Message) : Str :=
  resolveEncoding msg.encoding msg.text

def wireDataCoding (msg : Message) : UInt8 :=
  if !msg.rawPayloadSet ∧ msg.dataCoding = 0 ∧ equalFold (givenEncoding msg) (lit "ucs2") then
    0x08
  else
    msg.dataCoding

def wireEncoding (msg : Message) : Str :=
  if wireDataCoding msg = 0x08 then
    lit "ucs2"
  else if wireDataCoding msg = 0x03 then
    lit "8bit"
  else
    givenEncoding msg

def wireRegisteredDelivery (msg : Message) (cfg : SMPPClientConfig) : UInt8 :=
  if 0 ≤ cfg.registeredDelivery then .ofInt cfg.registeredDelivery else msg.registeredDelivery

def bodyParams (isLetter : Char → Bool) (msg : Message) (cfg : SMPPClientConfig) : SubmitBodyParams where
  cfg                := cfg
  msg                := msg
  dataCoding         := wireDataCoding msg
  registeredDelivery := wireRegisteredDelivery msg cfg
  sourceTON          := sourceTON isLetter msg.sourceAddr cfg.sourceTON
  sourceNPI          := sourceNPI isLetter msg.sourceAddr cfg.sourceNPI
  destTON            := .ofInt cfg.destTON
  destNPI            := .ofInt cfg.destNPI

@[simp]
theorem bodyParams_tlvs (isLetter : Char → Bool) (msg : Message) (cfg : SMPPClientConfig) :
    (bodyParams isLetter msg cfg).tlvs = [] := rfl

def sarTLVs (ref total part : Bytes) : List TLV :=
  [{ tag := tagSARMsgRefNum, value := ref }, { tag := tagSARTotalSegments, value := total },
    { tag := tagSARSegmentSeqnum, value := part }]

theorem hasDuplicateSARTag_sarTLVs (ref total part : Bytes) :
    hasDuplicateSARTag (sarTLVs ref total part) = false := by
  simp [sarTLVs, hasDuplicateSARTag]
  decide

def buildSplitSubmitSM (base : SubmitBodyParams) (segments : List Segment) : List Bytes :=
  segments.map fun segment =>
    let payload := encodeText segment.text base.dataCoding base.cfg.gsm7Packing
    buildSubmitBody { base with shortMessage := segment.udh ++ payload, esmClass := 0x40 }

def buildSegment (base : SubmitBodyParams) (count : Nat) (segment : Segment) : Bytes :=
  let payload := encodeText segment.text base.dataCoding base.cfg.gsm7Packing
  if 1 < count then
    if base.cfg.longMessage = lit "sar" then
      buildSubmitBody { base with
        shortMessage := payload
        tlvs := sarTLVs (putUint16 segment.reference) [UInt8.ofNat segment.total]
          [UInt8.ofNat segment.part] }
    else
      buildSubmitBody { base with shortMessage := segment.udh ++ payload, esmClass := 0x40 }
  else
    buildSubmitBody { base with shortMessage := payload }

def buildSubmitSM (isLetter : Char → Bool) (ref : UInt16) (msg : Message) (cfg : SMPPClientConfig) :
    List Bytes :=
  let base := bodyParams isLetter msg cfg
  let payload := encodeMessagePayload msg base.dataCoding cfg.gsm7Packing
  let segments := split ref msg.text { forceEncoding := wireEncoding msg }
  if msg.sarSet then
    [buildSubmitBody { base with
      shortMessage := payload
      tlvs := sarTLVs msg.sarRefNum msg.sarTotalSegments msg.sarSegmentSeqnum }]
  else if msg.udh ≠ [] then
    let concat := if cfg.longMessage = lit "sar" ∧ !msg.rawPayloadSet then parseConcat msg.udh else none
    match concat with
    | some info =>
      [buildSubmitBody { base with
        shortMessage := payload
        tlvs := sarTLVs (putUint16 info.reference) [info.total] [info.part] }]
    | none =>
      if cfg.longMessage = lit "udh" ∧ !msg.rawPayloadSet ∧ 254 < (msg.udh ++ payload).length then
        buildSplitSubmitSM base segments
      else
        [buildSubmitBody { base with shortMessage := msg.udh ++ payload, esmClass := 0x40 }]
  else if cfg.longMessage = lit "payload" then
    [buildSubmitBody { base with messagePayload := payload }]
  else if msg.rawPayloadSet then
    [buildSubmitBody { base with shortMessage := msg.rawPayload }]
  else
    segments.map (buildSegment base segments.length)

theorem buildSubmitSM_ne_nil (isLetter : Char → Bool) (ref : UInt16) (msg : Message)
    (cfg : SMPPClientConfig) : buildSubmitSM isLetter ref msg cfg ≠ [] := by
  have hsplit := split_ne_nil ref msg.text { forceEncoding := wireEncoding msg }
  unfold buildSubmitSM buildSplitSubmitSM
  simp only
  repeat' split
  all_goals simp [hsplit]

namespace SubmitBodyParams

def inShort (p : SubmitBodyParams) : Bytes :=
  if 254 < p.shortMessage.length then [] else p.shortMessage

def inTLV (p : SubmitBodyParams) : Bytes :=
  if 254 < p.shortMessage.length then p.shortMessage else p.messagePayload

def allTLVs (p : SubmitBodyParams) : List TLV :=
  if p.inTLV ≠ [] then p.tlvs ++ [{ tag := tagMessagePayload, value := p.inTLV }] else p.tlvs

def layout (p : SubmitBodyParams) : SubmitLayout where
  serviceType        := p.cfg.serviceType
  sourceTON          := p.sourceTON
  sourceNPI          := p.sourceNPI
  sender             := stripPlus p.msg.sourceAddr
  destTON            := p.destTON
  destNPI            := p.destNPI
  dest               := stripPlus p.msg.destAddr
  esmClass           := p.esmClass
  protocolID         := 0
  priorityFlag       := 0
  schedule           := []
  validityPeriod     := p.cfg.validityPeriod
  registeredDelivery := p.registeredDelivery
  replaceIfPresent   := 0
  dataCoding         := p.dataCoding
  smDefaultMsgID     := 0
  shortMessage       := p.inShort

theorem buildSubmitBody_eq (p : SubmitBodyParams) :
    buildSubmitBody p = p.layout.bytes ++ p.allTLVs.flatMap appendTLV := by
  unfold buildSubmitBody
  by_cases h : 254 < p.shortMessage.length <;>
    simp [SubmitLayout.bytes, layout, allTLVs, inShort, inTLV, h]

variable {p : SubmitBodyParams}

structure Fits (p : SubmitBodyParams) : Prop where
  serviceType    : FitsCString smppMaxServiceType p.cfg.serviceType
  validityPeriod : FitsCString 16 p.cfg.validityPeriod
  sender         : FitsCString smppMaxAddress (stripPlus p.msg.sourceAddr)
  dest           : FitsCString smppMaxAddress (stripPlus p.msg.destAddr)

theorem length_inShort : p.inShort.length < 256 := by
  unfold inShort
  split
  case isTrue => simp
  case isFalse h => omega

theorem Fits.layout (h : p.Fits) : p.layout.Fits where
  serviceType    := h.serviceType
  sender         := h.sender
  dest           := h.dest
  schedule       := ⟨Nat.zero_le _, List.not_mem_nil⟩
  validityPeriod := h.validityPeriod
  shortMessage   := length_inShort

theorem parseSubmitSM_eq (h : p.Fits) (sequenceID : UInt32) :
    parseSubmitSM { sequenceID, body := buildSubmitBody p } =
      (parseTLVsStrict (p.allTLVs.flatMap appendTLV) >>=
        finishSubmit sequenceID p.layout.toSubmitFields p.layout.bytes.length) := by
  rw [parseSubmitSM, buildSubmitBody_eq, bind_of_ok (readSubmitFields_bytes h.layout _)]
  simp

-- The user data is in one place only, and the caller's parameters are not the `message_payload`.
structure OnePlace (p : SubmitBodyParams) : Prop where
  user : p.shortMessage = [] ∨ p.messagePayload = []
  tags : ∀ item ∈ p.tlvs, item.tag ≠ tagMessagePayload

theorem findTLV_allTLVs {tag : UInt16} (h : tag ≠ tagMessagePayload) :
    findTLV p.allTLVs tag = findTLV p.tlvs tag := by
  unfold allTLVs
  split
  case isTrue => simp [findTLV, List.find?_append, Ne.symm h]
  case isFalse => rfl

theorem hasSAR_allTLVs : hasSAR p.allTLVs = hasSAR p.tlvs := by
  unfold allTLVs
  split
  case isTrue => simp [hasSAR, show isSARTag tagMessagePayload = false by decide]
  case isFalse => rfl

theorem hasDuplicateSARTag_allTLVs : hasDuplicateSARTag p.allTLVs = hasDuplicateSARTag p.tlvs := by
  unfold allTLVs
  split
  case isTrue => simp [hasDuplicateSARTag, show isSARTag tagMessagePayload = false by decide]
  case isFalse => rfl

theorem concatInfo_allTLVs {udh : Option Bytes} : concatInfo udh p.allTLVs = concatInfo udh p.tlvs :=
  concatInfo_congr udh (fun _ ht => findTLV_allTLVs (ne_messagePayload_of_isSARTag ht)) hasSAR_allTLVs

theorem OnePlace.userData (h : p.OnePlace) :
    userData p.layout.toSubmitFields p.allTLVs = .ok (p.shortMessage ++ p.messagePayload) := by
  have hnone : p.tlvs.find? (fun item => decide (item.tag = tagMessagePayload)) = none := by
    simpa using h.tags
  have hempty (hl : 254 < p.shortMessage.length) : p.messagePayload = [] := by
    cases h.user
    case inl he => simp [he] at hl
    case inr he => exact he
  unfold SmppGateway.userData allTLVs inTLV
  by_cases hl : 254 < p.shortMessage.length
  case pos =>
    have hne : p.shortMessage ≠ [] := by
      rintro he
      simp [he] at hl
    simp [findTLV, List.find?_append, hnone, layout, inShort, hl, hne, hempty hl]
  case neg =>
    by_cases hm : p.messagePayload = []
    case pos => simp [findTLV, hnone, layout, inShort, hl, hm]
    case neg =>
      have hs : p.shortMessage = [] := h.user.resolve_right hm
      simp [findTLV, List.find?_append, hnone, layout, inShort, hm, hs]

theorem length_allTLVs (ht : ∀ item ∈ p.tlvs, item.value.length < 65536)
    (hs : p.shortMessage.length < 65536) (hm : p.messagePayload.length < 65536) :
    ∀ item ∈ p.allTLVs, item.value.length < 65536 := by
  intro item hi
  unfold allTLVs at hi
  split at hi
  case isFalse => exact ht item hi
  case isTrue =>
    rcases List.mem_append.mp hi with hi | hi
    case inl => exact ht item hi
    case inr =>
      rw [List.mem_singleton.mp hi]
      unfold inTLV
      split
      case isTrue => exact hs
      case isFalse => exact hm

structure ReadBack (p : SubmitBodyParams) (udh : Option Bytes) (body : Bytes) (concat : Option ConcatInfo)
    (sm : SubmitSM) : Prop where
  sender     : sm.sender = stripPlus p.msg.sourceAddr
  dest       : sm.dest = stripPlus p.msg.destAddr
  dataCoding : sm.dataCoding = p.dataCoding
  udh        : sm.udh = udh.getD []
  payload    : sm.payload = body
  concat     : sm.concat = concat
  tlvs       : ∀ tag, tag ≠ tagMessagePayload → findTLV sm.tlvs tag = findTLV p.tlvs tag

theorem OnePlace.acceptable_iff (ho : p.OnePlace) {udh : Option Bytes} {body : Bytes}
    {concat : Option ConcatInfo} :
    Acceptable p.layout.toSubmitFields p.allTLVs udh body concat ↔
      hasDuplicateSARTag p.tlvs = false ∧
      splitUDH (p.shortMessage ++ p.messagePayload) p.esmClass = .ok (udh, body) ∧
      concatInfo udh p.tlvs = .ok concat ∧ (udh.isSome → hasSAR p.tlvs = false) := by
  constructor
  case mp =>
    intro h
    obtain ⟨raw, hraw, hsplit⟩ := h.user
    cases ho.userData.symm.trans hraw
    exact ⟨hasDuplicateSARTag_allTLVs ▸ h.noDuplicate, hsplit, concatInfo_allTLVs ▸ h.concat,
      hasSAR_allTLVs ▸ h.oneKind⟩
  case mpr =>
    rintro ⟨hd, hu, hc, hk⟩
    exact {
      noDuplicate := by rw [hasDuplicateSARTag_allTLVs, hd]
      user        := ⟨_, ho.userData, hu⟩
      concat      := by rw [concatInfo_allTLVs, hc]
      oneKind     := fun h => by rw [hasSAR_allTLVs, hk h] }

theorem parseTLVsStrict_allTLVs (hsize : ∀ item ∈ p.allTLVs, item.value.length < 65536) :
    parseTLVsStrict (p.allTLVs.flatMap appendTLV) = .ok p.allTLVs := by
  have h := parseTLVsStrict_append hsize []
  rw [List.append_nil] at h
  rw [h]
  simp [parseTLVsStrict, Except.map]

theorem parse_buildSubmitBody_iff (hf : p.Fits)
    (hsize : ∀ item ∈ p.allTLVs, item.value.length < 65536) (sequenceID : UInt32) (sm : SubmitSM) :
    parseSubmitSM { sequenceID, body := buildSubmitBody p } = .ok sm ↔
      ∃ udh body concat, Acceptable p.layout.toSubmitFields p.allTLVs udh body concat ∧
        p.layout.submitSM sequenceID p.layout.bytes.length p.allTLVs udh body concat = sm := by
  rw [parseSubmitSM_eq hf, bind_of_ok (parseTLVsStrict_allTLVs hsize), finishSubmit_eq_ok]

theorem parse_buildSubmitBody (hf : p.Fits) (ho : p.OnePlace)
    (hsize : ∀ item ∈ p.allTLVs, item.value.length < 65536) {udh : Option Bytes} {body : Bytes}
    {concat : Option ConcatInfo} (hd : hasDuplicateSARTag p.tlvs = false)
    (hu : splitUDH (p.shortMessage ++ p.messagePayload) p.esmClass = .ok (udh, body))
    (hc : concatInfo udh p.tlvs = .ok concat) (hk : udh.isSome → hasSAR p.tlvs = false)
    (sequenceID : UInt32) :
    ∃ sm, parseSubmitSM { sequenceID, body := buildSubmitBody p } = .ok sm ∧
      p.ReadBack udh body concat sm := by
  refine ⟨_, (parse_buildSubmitBody_iff hf hsize sequenceID _).mpr
    ⟨udh, body, concat, ho.acceptable_iff.mpr ⟨hd, hu, hc, hk⟩, rfl⟩, ?_⟩
  exact ⟨rfl, rfl, rfl, rfl, rfl, rfl, fun tag ht => findTLV_allTLVs ht⟩

end SubmitBodyParams

end Client

end SmppGateway
