import SmppGateway.Dispatch.Submit

-- A submit_sm of an ESME on its way through the gateway (`cmd/mysmpp/main.go`) to the submit_sm that
-- goes upstream.

namespace SmppGateway

open Go Machine Client

def smppSubmitEncoding (dataCoding : UInt8) : Str :=
  if dataCoding = 0x00 then
    lit "gsm7"
  else if dataCoding = 0x03 then
    lit "8bit"
  else if dataCoding = 0x08 then
    lit "ucs2"
  else
    lit "8bit"

-- `clientMsgID` is the idempotency key of the submission, and `now` the clock.
def smppSubmitEnvelope (sessionID systemID clientMsgID : Str) (now : Time) (submit : SubmitSM) :
    Envelope :=
  let ref := findTLV submit.tlvs tagSARMsgRefNum
  let total := findTLV submit.tlvs tagSARTotalSegments
  let part := findTLV submit.tlvs tagSARSegmentSeqnum
  let env : Envelope := {
    sender             := submit.sender
    dest               := submit.dest
    text               := submit.text
    clientID           := lit "smpp:" ++ systemID
    clientMsgID        := clientMsgID
    dataCoding         := submit.dataCoding
    encoding           := smppSubmitEncoding submit.dataCoding
    registeredDelivery := submit.registeredDelivery
    udh                := submit.udh
    rawPayload         := submit.payload
    rawPayloadSet      := true
    receivedAt         := now
    source             := { kind := .smpp, smppSessionID := sessionID, smppSystemID := systemID } }
  match ref, total, part with
  | some ref, some total, some part =>
    { env with sarRefNum := ref, sarTotalSegments := total, sarSegmentSeqnum := part, sarSet := true }
  | _, _, _ => env

theorem findTLV_of_not_hasSAR {tlvs : List TLV} (h : hasSAR tlvs = false) {tag : UInt16}
    (ht : isSARTag tag) : findTLV tlvs tag = none := by
  rw [findTLV, Option.map_eq_none_iff, List.find?_eq_none]
  intro item hm he
  have hno := List.any_eq_false.mp h item hm
  rw [of_decide_eq_true he] at hno
  exact hno ht

theorem parseSAR_some {tlvs : List TLV} {info : ConcatInfo} (h : parseSAR tlvs = some info) :
    ∃ ref total part, findTLV tlvs tagSARMsgRefNum = some ref ∧
      findTLV tlvs tagSARTotalSegments = some total ∧ findTLV tlvs tagSARSegmentSeqnum = some part := by
  unfold parseSAR at h
  split at h
  case h_1 h₁ h₂ h₃ => exact ⟨_, _, _, h₁, h₂, h₃⟩
  case h_2 h₁ h₂ h₃ => exact ⟨_, _, _, h₁, h₂, h₃⟩
  case h_3 => cases h

inductive Content (tlvs : List TLV) : Option Bytes → Option ConcatInfo → Prop
  | udh {udh} (noSAR : hasSAR tlvs = false) : Content tlvs (some udh) (parseConcat udh)
  | sar {info ref total part} (parsed : parseSAR tlvs = some info)
      (ref : findTLV tlvs tagSARMsgRefNum = some ref)
      (total : findTLV tlvs tagSARTotalSegments = some total)
      (part : findTLV tlvs tagSARSegmentSeqnum = some part) : Content tlvs none (some info)
  | plain (noSAR : hasSAR tlvs = false) : Content tlvs none none

theorem Acceptable.content {f : SubmitFields} {tlvs : List TLV} {udh : Option Bytes} {body : Bytes}
    {concat : Option ConcatInfo} (h : Acceptable f tlvs udh body concat) : Content tlvs udh concat := by
  have hc := h.concat
  unfold concatInfo at hc
  have hno {tlvs : List TLV} {info : ConcatInfo} (hs : hasSAR tlvs = false) : parseSAR tlvs ≠ some info := by
    intro hi
    obtain ⟨ref, -, -, hr, -, -⟩ := parseSAR_some hi
    cases (findTLV_of_not_hasSAR hs (by decide)).symm.trans hr
  cases udh
  case some udh =>
    have hs := h.oneKind rfl
    simp only [Option.bind_some] at hc
    split at hc
    case h_1 info hp => cases hc; rw [← hp]; exact .udh hs
    case h_2 hp =>
      split at hc
      case h_1 info hi => exact absurd hi (hno hs)
      case h_2 => rw [hs] at hc; cases hc; rw [← hp]; exact .udh hs
  case none =>
    simp only [Option.bind_none] at hc
    split at hc
    case h_1 info hi =>
      cases hc
      obtain ⟨ref, total, part, h₁, h₂, h₃⟩ := parseSAR_some hi
      exact .sar hi h₁ h₂ h₃
    case h_2 hi =>
      split at hc
      case isTrue => cases hc
      case isFalse hs => cases hc; exact .plain (by simpa using hs)

theorem Acceptable.length {f : SubmitFields} {tlvs : List TLV} {udh : Option Bytes} {body : Bytes}
    {concat : Option ConcatInfo} (h : Acceptable f tlvs udh body concat)
    (hshort : f.shortMessage.length < 256) (hsize : ∀ item ∈ tlvs, item.value.length < 65536) :
    (udh.getD [] ++ body).length < 65536 := by
  obtain ⟨raw, hraw, hsplit⟩ := h.user
  have hlen : raw.length < 65536 := by
    unfold userData at hraw
    split at hraw
    case h_1 => cases hraw; omega
    case h_2 payload hp =>
      split at hraw
      case isTrue => cases hraw
      case isFalse =>
        cases hraw
        exact hsize _ (mem_of_findTLV hp)
  cases udh
  case none => obtain ⟨-, rfl⟩ := splitUDH_none hsplit; exact hlen
  case some udh => obtain ⟨-, rfl, -⟩ := splitUDH_some hsplit; exact hlen

structure Parsed (sm : SubmitSM) (udh : Option Bytes) : Prop where
  sender  : FitsCString smppMaxAddress sm.sender
  dest    : FitsCString smppMaxAddress sm.dest
  header  : sm.udh = udh.getD []
  content : Content sm.tlvs udh sm.concat
  length  : (sm.udh ++ sm.payload).length < 65536
  tlvs    : ∀ item ∈ sm.tlvs, item.value.length < 65536
  split   : ∀ u, udh = some u → u ≠ [] ∧ splitUDH (u ++ sm.payload) 0x40 = .ok (some u, sm.payload)

theorem parseSubmitSM_parsed {pdu : PDU} {sm : SubmitSM} (h : parseSubmitSM pdu = .ok sm) :
    ∃ udh, Parsed sm udh := by
  obtain ⟨f, rest, tlvs, hfields, htlvs, hfin⟩ := parseSubmitSM_eq_ok.mp h
  obtain ⟨l, hl, rfl, -⟩ := readSubmitFields_ok hfields
  obtain ⟨udh, body, concat, hacc, rfl⟩ := finishSubmit_eq_ok.mp hfin
  have hsizes := length_of_parseTLVsStrict htlvs
  obtain ⟨raw, -, hsplit⟩ := hacc.user
  refine ⟨udh, hl.sender, hl.dest, rfl, hacc.content, hacc.length hl.shortMessage hsizes, hsizes, ?_⟩
  rintro u rfl
  obtain ⟨hesm, rfl, hne⟩ := splitUDH_some hsplit
  refine ⟨hne, Eq.trans ?_ hsplit⟩
  exact splitUDH_congr ⟨fun h => absurd h (by decide), fun h => absurd h hesm⟩

theorem FitsCString.stripPlus {max : Nat} {value : Str} (h : FitsCString max value) :
    FitsCString max (stripPlus value) := by
  unfold Client.stripPlus trimPrefix
  split
  case isTrue =>
    refine ⟨?_, fun hm => h.noNUL (List.mem_of_mem_drop hm)⟩
    have := h.length
    rw [List.length_drop]
    omega
  case isFalse => exact h

structure Relays (msg : Client.Message) (sm : SubmitSM) : Prop where
  sender     : FitsCString smppMaxAddress (stripPlus msg.sourceAddr)
  dest       : FitsCString smppMaxAddress (stripPlus msg.destAddr)
  dataCoding : msg.dataCoding = sm.dataCoding
  udh        : msg.udh = sm.udh
  raw        : msg.rawPayloadSet = true ∧ msg.rawPayload = sm.payload
  sar        : match findTLV sm.tlvs tagSARMsgRefNum, findTLV sm.tlvs tagSARTotalSegments,
      findTLV sm.tlvs tagSARSegmentSeqnum with
    | some ref, some total, some part =>
      msg.sarSet = true ∧ msg.sarRefNum = ref ∧ msg.sarTotalSegments = total ∧ msg.sarSegmentSeqnum = part
    | _, _, _ => msg.sarSet = false

structure Transparent (sm out : SubmitSM) : Prop where
  udh        : out.udh = sm.udh
  payload    : out.payload = sm.payload
  dataCoding : out.dataCoding = sm.dataCoding
  sar        : ∀ tag, isSARTag tag → findTLV out.tlvs tag = findTLV sm.tlvs tag
  concat     : out.concat = sm.concat

section Build

variable {msg : Client.Message} {sm : SubmitSM} {cfg : SMPPClientConfig} {pdu : PDU}

inductive RawParams (msg : Client.Message) (base : SubmitBodyParams) : SubmitBodyParams → Prop
  | sar (set : msg.sarSet = true) : RawParams msg base { base with
      shortMessage := msg.rawPayload
      tlvs := sarTLVs msg.sarRefNum msg.sarTotalSegments msg.sarSegmentSeqnum }
  | udh (noSAR : msg.sarSet = false) (udh : msg.udh ≠ []) : RawParams msg base { base with
      shortMessage := msg.udh ++ msg.rawPayload, esmClass := 0x40 }
  | payload (noSAR : msg.sarSet = false) (noUDH : msg.udh = []) :
      RawParams msg base { base with messagePayload := msg.rawPayload }
  | short (noSAR : msg.sarSet = false) (noUDH : msg.udh = []) :
      RawParams msg base { base with shortMessage := msg.rawPayload }

theorem buildSubmitSM_raw (isLetter : Char → Bool) (ref : UInt16) (cfg : SMPPClientConfig)
    (hraw : msg.rawPayloadSet = true) :
    ∃ p, RawParams msg (bodyParams isLetter msg cfg) p ∧
      buildSubmitSM isLetter ref msg cfg = [buildSubmitBody p] := by
  unfold buildSubmitSM encodeMessagePayload
  simp only [hraw, if_true, Bool.not_true, Bool.false_eq_true, and_false, false_and, if_false]
  cases hs : msg.sarSet
  case true => exact ⟨_, .sar hs, rfl⟩
  case false =>
    by_cases hu : msg.udh = []
    case neg => exact ⟨_, .udh hs hu, by simp [hu]⟩
    case pos =>
      by_cases hm : cfg.longMessage = lit "payload"
      case pos => exact ⟨_, .payload hs hu, by simp [hu, hm]⟩
      case neg => exact ⟨_, .short hs hu, by simp [hu, hm]⟩

theorem findTLV_sarTLVs {tlvs : List TLV} {ref total part : Bytes}
    (h₁ : findTLV tlvs tagSARMsgRefNum = some ref) (h₂ : findTLV tlvs tagSARTotalSegments = some total)
    (h₃ : findTLV tlvs tagSARSegmentSeqnum = some part) {tag : UInt16} (ht : isSARTag tag) :
    findTLV (sarTLVs ref total part) tag = findTLV tlvs tag := by
  rcases isSARTag_iff.mp ht with rfl | rfl | rfl
  case inl => rw [h₁]; rfl
  case inr.inl => rw [h₂]; rfl
  case inr.inr => rw [h₃]; rfl

structure Written (sm : SubmitSM) (p : SubmitBodyParams) (udh : Option Bytes) : Prop where
  onePlace : p.OnePlace
  sizes    : ∀ item ∈ p.allTLVs, item.value.length < 65536
  noDup    : hasDuplicateSARTag p.tlvs = false
  split    : splitUDH (p.shortMessage ++ p.messagePayload) p.esmClass = .ok (udh, sm.payload)
  concat   : concatInfo udh p.tlvs = .ok sm.concat
  oneKind  : udh.isSome → hasSAR p.tlvs = false
  sar      : ∀ tag, isSARTag tag → findTLV p.tlvs tag = findTLV sm.tlvs tag

theorem Written.transparent {p : SubmitBodyParams} {udh : Option Bytes} (h : Written sm p udh)
    (hudh : sm.udh = udh.getD []) (hdc : p.dataCoding = sm.dataCoding) (hf : p.Fits)
    (sequenceID : UInt32) :
    ∃ out, parseSubmitSM { sequenceID, body := buildSubmitBody p } = .ok out ∧ Transparent sm out := by
  obtain ⟨out, hp, hr⟩ :=
    SubmitBodyParams.parse_buildSubmitBody hf h.onePlace h.sizes h.noDup h.split h.concat h.oneKind sequenceID
  refine ⟨out, hp, hr.udh.trans hudh.symm, hr.payload, hr.dataCoding.trans hdc, fun tag ht => ?_, hr.concat⟩
  rw [hr.tlvs tag (ne_messagePayload_of_isSARTag ht), h.sar tag ht]

theorem Relays.sarSet_eq_false (h : Relays msg sm) (hs : hasSAR sm.tlvs = false) : msg.sarSet = false := by
  have hsar := h.sar
  rwa [findTLV_of_not_hasSAR hs (by decide)] at hsar

theorem Relays.sarSet_eq_true (h : Relays msg sm) {ref total part : Bytes}
    (h₁ : findTLV sm.tlvs tagSARMsgRefNum = some ref) (h₂ : findTLV sm.tlvs tagSARTotalSegments = some total)
    (h₃ : findTLV sm.tlvs tagSARSegmentSeqnum = some part) :
    msg.sarSet = true ∧ msg.sarRefNum = ref ∧ msg.sarTotalSegments = total ∧ msg.sarSegmentSeqnum = part := by
  have hsar := h.sar
  rwa [h₁, h₂, h₃] at hsar

theorem Parsed.written {udh : Option Bytes} (hp : Parsed sm udh) (h : Relays msg sm)
    {isLetter : Char → Bool} {p : SubmitBodyParams} (hr : RawParams msg (bodyParams isLetter msg cfg) p) :
    Written sm p udh := by
  have hlen := hp.length
  rw [List.length_append] at hlen
  have hraw : msg.rawPayload.length < 65536 := by rw [h.raw.2]; omega
  have hudh := h.udh.trans hp.header
  have hcontent := hp.content
  generalize he : sm.concat = concat at hcontent
  cases hcontent
  case udh udh hs =>
    have hset := h.sarSet_eq_false hs
    obtain ⟨hne, hsplit⟩ := hp.split udh rfl
    cases hr
    case sar hset' => cases hset.symm.trans hset'
    case payload hu => exact absurd (hudh.symm.trans hu) hne
    case short hu => exact absurd (hudh.symm.trans hu) hne
    case udh =>
      exact {
        onePlace := ⟨.inr rfl, by simp⟩
        sizes    := SubmitBodyParams.length_allTLVs (by simp) (by simp [h.raw.2, h.udh]; omega)
          (Nat.zero_lt_succ _)
        noDup    := rfl
        split    := by
          change splitUDH (msg.udh ++ msg.rawPayload ++ []) 0x40 = _
          rw [List.append_nil, hudh, h.raw.2]
          exact hsplit
        concat   := he ▸ concatInfo_udh udh
        oneKind  := fun _ => rfl
        sar      := fun tag ht => (findTLV_of_not_hasSAR hs ht).symm }
  case sar info ref total part hi h₁ h₂ h₃ =>
    obtain ⟨hset, e₁, e₂, e₃⟩ := h.sarSet_eq_true h₁ h₂ h₃
    cases hr
    case udh hset' _ => cases hset.symm.trans hset'
    case payload hset' _ => cases hset.symm.trans hset'
    case short hset' _ => cases hset.symm.trans hset'
    case sar =>
      rw [e₁, e₂, e₃]
      have hfind {tag : UInt16} (ht : isSARTag tag) :
          findTLV (sarTLVs ref total part) tag = findTLV sm.tlvs tag := findTLV_sarTLVs h₁ h₂ h₃ ht
      have hparse : parseSAR (sarTLVs ref total part) = some info := by
        rw [← hi, parseSAR_congr fun _ ht => hfind ht]
      exact {
        onePlace := ⟨.inr rfl, by simp [sarTLVs]; decide⟩
        sizes    := by
          refine SubmitBodyParams.length_allTLVs ?_ hraw (Nat.zero_lt_succ _)
          simp only [sarTLVs, List.forall_mem_cons, List.not_mem_nil, false_imp_iff, implies_true, and_true]
          exact ⟨hp.tlvs _ (mem_of_findTLV h₁), hp.tlvs _ (mem_of_findTLV h₂), hp.tlvs _ (mem_of_findTLV h₃)⟩
        noDup    := hasDuplicateSARTag_sarTLVs ..
        split    := by
          change splitUDH (msg.rawPayload ++ []) 0 = _
          rw [List.append_nil, h.raw.2, splitUDH_zero]
        concat   := by rw [he]; simp [concatInfo, hparse]
        oneKind  := by simp
        sar      := fun tag ht => hfind ht }
  case plain hs =>
    have hset := h.sarSet_eq_false hs
    cases hr
    case sar hset' => cases hset.symm.trans hset'
    case udh hne => exact absurd hudh hne
    case payload =>
      exact {
        onePlace := ⟨.inl rfl, by simp⟩
        sizes    := SubmitBodyParams.length_allTLVs (by simp) (Nat.zero_lt_succ _) hraw
        noDup    := rfl
        split    := by rw [← h.raw.2]; exact splitUDH_zero _
        concat   := he ▸ rfl
        oneKind  := by simp
        sar      := fun tag ht => (findTLV_of_not_hasSAR hs ht).symm }
    case short =>
      exact {
        onePlace := ⟨.inr rfl, by simp⟩
        sizes    := SubmitBodyParams.length_allTLVs (by simp) hraw (Nat.zero_lt_succ _)
        noDup    := rfl
        split    := by
          change splitUDH (msg.rawPayload ++ []) 0 = _
          rw [List.append_nil, h.raw.2, splitUDH_zero]
        concat   := he ▸ rfl
        oneKind  := by simp
        sar      := fun tag ht => (findTLV_of_not_hasSAR hs ht).symm }

end Build

theorem relays_smppSubmitEnvelope {sm : SubmitSM} {udh : Option Bytes} (hp : Parsed sm udh)
    (sessionID systemID clientMsgID : Str) (t : Time) (gatewayID : Str) (route : RouteConfig)
    (provider : Str) :
    Relays (((smppSubmitEnvelope sessionID systemID clientMsgID t sm).trimmed.payload gatewayID route
      provider).outbound) sm := by
  unfold smppSubmitEnvelope
  cases h₁ : findTLV sm.tlvs tagSARMsgRefNum <;> cases h₂ : findTLV sm.tlvs tagSARTotalSegments <;>
    cases h₃ : findTLV sm.tlvs tagSARSegmentSeqnum
  all_goals
    refine ⟨hp.sender.stripPlus, hp.dest.stripPlus.stripPlus, rfl, rfl, ⟨rfl, rfl⟩, ?_⟩
    rw [h₁, h₂, h₃]
    simp [OutboxPayload.outbound, Envelope.payload, Envelope.trimmed]

section EndToEnd

variable (d : Submitter) {s : MemoryStore} (c : SubmitChance) {pdu : PDU} {sm : SubmitSM}
  {sessionID systemID clientMsgID : Str} {t : Time}

-- Whatever the store goes through between the submission and the claim of its row, and whatever the
-- settings of the upstream, one submit_sm goes out that has the content of the one that came in.
theorem raw_passthrough_transparent (wf : OutboxWF s) (hsm : parseSubmitSM pdu = .ok sm)
    (hmask : d.masks (smppSubmitEnvelope sessionID systemID clientMsgID t sm) = false)
    (hrewrite : ∀ route, d.routeOf c (smppSubmitEnvelope sessionID systemID clientMsgID t sm) = some route →
      route.addrRewrite = {})
    {id : Int} (hold : id ∉ s.outbox)
    (hnew : id ∈ (d.submit s c (smppSubmitEnvelope sessionID systemID clientMsgID t sm)).2.outbox)
    (ops : List StoreOp) {now : Time} {workerID : Str} {limit : Int} {items : List OutboxItem}
    (hclaim : ((run StoreOp.step (d.submit s c (smppSubmitEnvelope sessionID systemID clientMsgID t sm)).2
      ops).claimOutbox now workerID limit).1 = .ok items)
    {item : OutboxItem} (hitem : item ∈ items) (hid : item.id = id) {cfg : SMPPClientConfig}
    (hservice : FitsCString 6 cfg.serviceType) (hvalidity : FitsCString 16 cfg.validityPeriod)
    (isLetter : Char → Bool) (ref : UInt16) (sequenceID : UInt32) :
    ∃ body out, buildSubmitSM isLetter ref item.payload.outbound cfg = [body] ∧
      parseSubmitSM { sequenceID, body } = .ok out ∧ Transparent sm out := by
  obtain ⟨udh, hp⟩ := parseSubmitSM_parsed hsm
  obtain ⟨row, hnew⟩ := Option.isSome_iff_exists.mp (AList.lookup_isSome.mpr hnew)
  obtain ⟨hs, gatewayID, route, provider, hpay⟩ :=
    d.submit_outbound wf (AList.lookup_eq_none.mpr hold) hnew hrewrite
  have hcarries : (d.submit s c (smppSubmitEnvelope sessionID systemID clientMsgID t sm)).2.Carries id
      row.payload := ⟨row, hnew, fun _ => rfl⟩
  obtain ⟨wf', hrun⟩ := hcarries.run (d.submit_wf wf) ops
  rw [hrun.claimed wf' hclaim hitem hid]
  rw [d.filtered_of_not_masks hmask] at hpay
  have hrelays : Relays row.payload.outbound sm := by
    rw [hpay]
    exact relays_smppSubmitEnvelope hp ..
  obtain ⟨p, hraw, hbuild⟩ := buildSubmitSM_raw isLetter ref cfg hrelays.raw.1
  have hfits : p.Fits := by
    cases hraw <;> exact ⟨hservice, hvalidity, hrelays.sender, hrelays.dest⟩
  have hdc : p.dataCoding = sm.dataCoding := by
    have : wireDataCoding row.payload.outbound = sm.dataCoding := by
      simp [wireDataCoding, hrelays.raw.1, hrelays.dataCoding]
    cases hraw <;> exact this
  obtain ⟨out, hout, ht⟩ := (hp.written hrelays hraw).transparent hp.header hdc hfits sequenceID
  exact ⟨buildSubmitBody p, out, hbuild, hout, ht⟩

end EndToEnd

def binaryPartPDU : PDU where
  sequenceID := 7
  body       := cString [] ++ [1, 1] ++ cString (lit "1001") ++ [1, 1] ++ cString (lit "+8613800138000") ++
    [0x40, 0, 0] ++ cString [] ++ cString [] ++ [1, 0, 0xF5, 0, 8] ++ [5, 0, 3, 42, 2, 1, 0xAB, 0xCD]

def binaryPart : SubmitSM where
  sequenceID           := 7
  sender               := lit "1001"
  dest                 := lit "+8613800138000"
  text                 := decodeSubmitText [0xAB, 0xCD] 0xF5
  dataCoding           := 0xF5
  registeredDelivery   := 1
  esmClass             := 0x40
  protocolID           := 0
  priorityFlag         := 0
  replaceIfPresent     := 0
  smDefaultMsgID       := 0
  optionalParamsOffset := 43
  payload              := [0xAB, 0xCD]
  udh                  := [5, 0, 3, 42, 2, 1]
  concat               := some { reference := 42, total := 2, part := 1 }
  tlvs                 := []

def plainSubmitter : Submitter where
  router := some {
    matchRoute     := fun _ => some { name := lit "all" }
    selectProvider := fun _ _ => some (lit "up") }

def binaryPartStore : MemoryStore :=
  (plainSubmitter.submit newMemory { now := 5, storeNow := 5, gatewayID := some (lit "m0000001") }
    (smppSubmitEnvelope (lit "s") (lit "esme") (lit "k") 5 binaryPart)).2

def binaryPartItems : List OutboxItem :=
  (binaryPartStore.claimCandidates 6 1).map (MemoryStore.claimItem (lit "w") 6)

theorem raw_passthrough_binary_part :
    binaryPartItems.length = 1 ∧ ∀ item ∈ binaryPartItems,
      ∃ body out, buildSubmitSM (fun _ => false) 9 item.payload.outbound {} = [body] ∧
        parseSubmitSM { sequenceID := 1, body } = .ok out ∧ Transparent binaryPart out := by
  have hids : binaryPartItems.map (·.id) = [1] := by decide +kernel
  have hid : ∀ item ∈ binaryPartItems, item.id = 1 :=
    fun item hm => List.mem_singleton.mp (hids ▸ List.mem_map_of_mem hm)
  refine ⟨by simpa using congrArg List.length hids, fun item hm => ?_⟩
  have hparse : parseSubmitSM binaryPartPDU = .ok binaryPart := by decide
  have hnew : 1 ∈ binaryPartStore.outbox := by decide +kernel
  unfold binaryPartItems binaryPartStore at hm
  unfold binaryPartStore at hnew
  exact raw_passthrough_transparent plainSubmitter _ .newMemory hparse rfl
    (by rintro route ⟨⟩; rfl) (by decide) hnew [] rfl hm (hid item hm) (by decide) (by decide)
    _ _ _

end SmppGateway
