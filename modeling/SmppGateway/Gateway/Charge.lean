import SmppGateway.Gateway.Passthrough
import SmppGateway.Message.Guess
import SmppGateway.Store.Submit

-- What a tenant pays for one submit_sm: `Submit` counts the segments of the text that it has read from the octets,
-- while the octets themselves go upstream in one submit_sm.

namespace SmppGateway

open Go Parse MemoryStore

theorem length_unpackSeptets_le (body : Bytes) : (unpackSeptets body).length ≤ body.length * 8 / 7 := by
  have hraw := length_rawSeptets_le body
  unfold unpackSeptets
  simp only
  split
  case isTrue =>
    rw [List.length_dropLast]
    exact (Nat.sub_le _ _).trans hraw
  case isFalse => exact hraw

theorem gsm7SeptetLen_packedRunes (body : Bytes) : gsm7SeptetLen (utf8 (packedRunes body)) ≤ body.length * 8 / 7 := by
  have hdefault : (gsm7DefaultRunes.all fun r => gsm7RuneLen r ≤ 1) = true := by decide +kernel
  have hext : (gsm7ExtToRune.all fun e => gsm7RuneLen e.2 ≤ 2) = true := by decide +kernel
  rw [gsm7SeptetLen, runes_utf8]
  refine (sum_decodeSeptets_le gsm7RuneLen ?_ ?_ _).trans (length_unpackSeptets_le body)
  case refine_1 => exact fun r hr => of_decide_eq_true (List.all_eq_true.mp hdefault r hr)
  case refine_2 => exact fun e he => of_decide_eq_true (List.all_eq_true.mp hext e he)

theorem length_unitsOfBytes (body : Bytes) : (unitsOfBytes body).length = body.length / 2 := by
  fun_induction unitsOfBytes body
  case case1 hi =>
    simp only [List.length_cons, hi]
    omega
  case case2 body h =>
    cases body
    case nil => rfl
    case cons b body =>
      cases body
      case nil => simp
      case cons => exact absurd rfl (h _ _ _)

theorem unitsOfBytes_lt (body : Bytes) : ∀ u ∈ unitsOfBytes body, u < 0x10000 := by
  fun_induction unitsOfBytes body
  case case1 high low _ hi =>
    have hhigh := high.toNat_lt
    have hlow := low.toNat_lt
    exact List.forall_mem_cons.mpr ⟨by omega, hi⟩
  case case2 => exact fun _ h => absurd h List.not_mem_nil

theorem utf16RuneLen_ofNat {u : Nat} (h : u < 0x10000) : utf16RuneLen (Char.ofNat u) = 1 := by
  have hlt : (Char.ofNat u).toNat < 0x10000 := by
    by_cases hvalid : u.isValidChar
    case pos =>
      rw [Char.ofNat, dif_pos hvalid]
      exact h
    case neg =>
      rw [Char.ofNat, dif_neg hvalid]
      decide
  exact if_pos hlt

theorem sum_utf16Decode_le {units : List Nat} (h : ∀ u ∈ units, u < 0x10000) :
    ((utf16Decode units).map utf16RuneLen).sum ≤ units.length := by
  have herror : utf16RuneLen runeError = 1 := by decide
  have htwo (r : Char) : utf16RuneLen r ≤ 2 := by unfold utf16RuneLen; split <;> omega
  fun_induction utf16Decode units
  case case1 => exact Nat.le_refl _
  case case2 u =>
    have hu := utf16RuneLen_ofNat (h u List.mem_cons_self)
    split <;> simp [herror, hu]
  case case3 u v rest _ hi =>
    have hrest := hi fun x hx => h x (List.mem_cons_of_mem _ (List.mem_cons_of_mem _ hx))
    have hpair := htwo (Char.ofNat ((u - 0xD800) * 0x400 + (v - 0xDC00) + 0x10000))
    simp only [List.map_cons, List.sum_cons, List.length_cons]
    omega
  case case4 u v rest _ _ hi =>
    have hrest := hi fun x hx => h x (List.mem_cons_of_mem _ hx)
    simp only [List.map_cons, List.sum_cons, List.length_cons] at hrest ⊢
    omega
  case case5 u v rest _ _ hi =>
    have hrest := hi fun x hx => h x (List.mem_cons_of_mem _ hx)
    have hu := utf16RuneLen_ofNat (h u List.mem_cons_self)
    simp only [List.map_cons, List.sum_cons, List.length_cons] at hrest ⊢
    omega

def CountsOnce (dataCoding : UInt8) (payload : Bytes) : Prop :=
  if dataCoding = 0x00 then
    -- Octets that are taken for text as they stand: extension characters count twice.
    decodeSubmitText payload 0x00 = payload → gsm7SeptetLen payload ≤ 160
  else if dataCoding = 0x03 then
    True
  else if dataCoding = 0x08 then
    -- An odd number of octets is taken for text as it stands.
    payload.length % 2 ≠ 0 → ucs2UnitLen payload ≤ 70
  else
    -- The octets of any other coding are read as septets and counted as octets.
    (packedRunes payload).length ≤ 140

instance {dataCoding : UInt8} {payload : Bytes} : Decidable (CountsOnce dataCoding payload) :=
  inferInstanceAs (Decidable (if dataCoding = 0x00 then _ else if dataCoding = 0x03 then _ else
    if dataCoding = 0x08 then _ else _))

theorem decodeSubmitText_of_ne {body : Bytes} {dataCoding : UInt8} (h : dataCoding ≠ 0x00) :
    decodeSubmitText body dataCoding = decodeText body dataCoding := by
  simp only [decodeSubmitText]
  exact if_neg fun hc => h hc.1

theorem decodeSubmitText_cases (body : Bytes) :
    decodeSubmitText body 0x00 = body ∨ decodeSubmitText body 0x00 = utf8 (packedRunes body) := by
  simp only [decodeSubmitText]
  split
  case isTrue => exact .inl rfl
  case isFalse => exact .inr rfl

section Segments

variable (ref : UInt16) {payload : Bytes} (h : payload.length ≤ 140)
include h

theorem length_split_gsm7 :
    (split ref (decodeSubmitText payload 0x00) { forceEncoding := lit "gsm7" }).length = 1 ↔
      (decodeSubmitText payload 0x00 = payload → gsm7SeptetLen payload ≤ 160) := by
  rw [length_split_eq_one_iff]
  change gsm7SeptetLen _ ≤ 160 ↔ _
  obtain he | he := decodeSubmitText_cases payload
  case inl => simp only [he, true_imp_iff]
  case inr =>
    have hpacked := gsm7SeptetLen_packedRunes payload
    have hle : gsm7SeptetLen (decodeSubmitText payload 0x00) ≤ 160 := by
      rw [he]
      omega
    refine iff_of_true hle fun hp => ?_
    rwa [hp] at hle

theorem length_split_ucs2 :
    (split ref (decodeText payload 0x08) { forceEncoding := lit "ucs2" }).length = 1 ↔
      (payload.length % 2 ≠ 0 → ucs2UnitLen payload ≤ 70) := by
  rw [length_split_eq_one_iff]
  change ucs2UnitLen (if payload.length % 2 ≠ 0 then payload else utf8 (utf16Decode (unitsOfBytes payload))) ≤ 70 ↔ _
  split
  case isTrue hodd => exact ⟨fun hle _ => hle, fun himp => himp hodd⟩
  case isFalse heven =>
    have hunits := sum_utf16Decode_le (unitsOfBytes_lt payload)
    rw [length_unitsOfBytes] at hunits
    refine iff_of_true ?_ fun hodd => absurd hodd heven
    rw [ucs2UnitLen, runes_utf8]
    omega

theorem length_split_latin1 :
    (split ref (decodeText payload 0x03) { forceEncoding := lit "8bit" }).length = 1 := by
  rw [length_split_eq_one_iff]
  change (runes (utf8 (payload.map fun b => Char.ofNat b.toNat))).length ≤ 140
  rw [runes_utf8, List.length_map]
  exact h

end Segments

theorem length_split_packed (ref : UInt16) (payload : Bytes) :
    (split ref (utf8 (packedRunes payload)) { forceEncoding := lit "8bit" }).length = 1 ↔
      (packedRunes payload).length ≤ 140 := by
  rw [length_split_eq_one_iff]
  change (runes (utf8 (packedRunes payload))).length ≤ 140 ↔ _
  rw [runes_utf8]

theorem length_split_payload (ref : UInt16) (dataCoding : UInt8) {payload : Bytes} (h : payload.length ≤ 140) :
    (split ref (decodeSubmitText payload dataCoding) { forceEncoding := smppSubmitEncoding dataCoding }).length = 1 ↔
      CountsOnce dataCoding payload := by
  unfold CountsOnce smppSubmitEncoding
  split
  case isTrue h0 => rw [h0, length_split_gsm7 ref h]
  case isFalse h0 =>
    rw [decodeSubmitText_of_ne h0]
    split
    case isTrue h3 => rw [h3]; exact iff_of_true (length_split_latin1 ref h) trivial
    case isFalse h3 =>
      split
      case isTrue h8 => rw [h8, length_split_ucs2 ref h]
      case isFalse h8 =>
        have hpacked : decodeText payload dataCoding = utf8 (packedRunes payload) := by
          simp only [decodeText, if_neg h8, if_neg h3]
          rfl
        rw [hpacked, length_split_packed]

namespace Submitter

variable {d : Submitter} {s : MemoryStore} {c : SubmitChance} {env : Envelope}

theorem text_of_routed {env₁ env₂ : Envelope} {router : Router} {route : RouteConfig} (hmask : d.masks env = false)
    (hr : d.routed env = .ok (env₁, router, route)) (hd : d.checkDest env₁ route = .ok env₂) :
    env₂.text = env.text ∧ env₂.encoding = env.encoding := by
  obtain ⟨⟨env₀, tags⟩, hf, hm⟩ := bind_eq_ok.mp hr
  obtain ⟨_, _, heq⟩ := bind_eq_ok.mp hm
  obtain ⟨rfl, -⟩ := Prod.mk.inj (Except.ok.inj heq)
  have hkept : env₀ = env.trimmed := by
    obtain ⟨-, rfl⟩ | ⟨_, -, hyes, -⟩ := filter_ok hf
    case inl => rfl
    case inr => exact absurd (hyes.symm.trans hmask) (by decide)
  obtain ⟨dest, rfl, -⟩ := checkDest_eq_ok hd
  rw [hkept]
  exact ⟨rfl, rfl⟩

def debit? (d : Submitter) (c : SubmitChance) (env : Envelope) (segments : Nat) : Option DailyQuotaDebit :=
  (env.submitOptions c (d.resolveTenant env) segments).quota

theorem queue_accepted (wf : SubmitWF s) {identity : Option Identity} (hmask : d.masks env = false) {id : Int}
    (hold : id ∉ s.outbox) (hnew : id ∈ (d.queue s c identity env).2.outbox) :
    ∃ call : SubmitCall, AcceptedInto s (d.queue s c identity env).2 call ∧ c.gatewayID = some call.msg.id ∧
      call.msg.segments = split c.ref env.text { forceEncoding := env.rowEncoding } ∧
      call.opts.quota = (env.submitOptions c identity call.msg.segments.length).quota := by
  obtain he | ⟨sub, hp, he⟩ := d.queue_cases s c identity env <;> rw [he] at hnew ⊢
  case inl => exact absurd hnew hold
  case inr =>
    obtain ⟨env₁, router, route, env₂, gatewayID, provider, hr, hd, hg, hmsg, -, hopts⟩ := prepare_eq_ok hp
    obtain ⟨htext, hencoding⟩ := text_of_routed hmask hr hd
    have hrow : env₂.rowEncoding = env.rowEncoding := by
      rw [Envelope.rowEncoding, htext, hencoding]
      rfl
    refine ⟨⟨c.storeNow, sub.msg, sub.item, sub.opts⟩, ?_, ?_, ?_, ?_⟩
    case refine_1 =>
      cases submitAtomic_cases s c.storeNow sub.msg sub.item sub.opts
      case duplicate h => rw [h] at hnew; exact absurd hnew hold
      case refused h => rw [h] at hnew; exact absurd hnew hold
      case accepted hq h =>
        rw [h]
        exact acceptedInto (c := ⟨c.storeNow, sub.msg, sub.item, sub.opts⟩) wf hq
    case refine_2 => rw [hg, hmsg]; rfl
    case refine_3 => rw [hmsg, ← htext, ← hrow]; rfl
    case refine_4 => rw [hopts]; rfl

-- A submission that is queued leaves a message of as many segments as its text has, and is charged for them.
theorem submit_accepted (wf : SubmitWF s) (hmask : d.masks env = false) {id : Int} (hold : id ∉ s.outbox)
    (hnew : id ∈ (d.submit s c env).2.outbox) :
    ∃ call : SubmitCall, AcceptedInto s (d.submit s c env).2 call ∧ c.gatewayID = some call.msg.id ∧
      call.msg.segments = split c.ref env.text { forceEncoding := env.rowEncoding } ∧
      call.opts.quota = d.debit? c env call.msg.segments.length := by
  obtain ⟨t, ht⟩ := received_eq env c
  unfold submit at hnew ⊢
  simp only at hnew ⊢
  rw [ht] at hnew ⊢
  have htenant : d.resolveTenant { env with receivedAt := t } = d.resolveTenant env := rfl
  rw [htenant] at hnew ⊢
  unfold debit?
  cases hi : d.resolveTenant env
  case none =>
    rw [hi] at hnew
    exact queue_accepted wf hmask hold hnew
  case some identity =>
    rw [hi] at hnew
    simp only at hnew ⊢
    split at hnew
    case isTrue => exact absurd hnew hold
    case isFalse henabled =>
      split at hnew
      case isTrue =>
        exact absurd (overRate_outbox.1 ▸ hnew) hold
      case isFalse hallow =>
        rw [if_neg henabled, if_neg hallow]
        exact queue_accepted wf hmask hold hnew

end Submitter

theorem smppSubmitEnvelope_text (sessionID systemID clientMsgID : Str) (t : Time) (sm : SubmitSM) :
    (smppSubmitEnvelope sessionID systemID clientMsgID t sm).text = sm.text ∧
      (smppSubmitEnvelope sessionID systemID clientMsgID t sm).rowEncoding = smppSubmitEncoding sm.dataCoding := by
  have hne : smppSubmitEncoding sm.dataCoding ≠ [] := by
    unfold smppSubmitEncoding
    split_ifs <;> decide
  have henv : (smppSubmitEnvelope sessionID systemID clientMsgID t sm).text = sm.text ∧
      (smppSubmitEnvelope sessionID systemID clientMsgID t sm).encoding = smppSubmitEncoding sm.dataCoding := by
    unfold smppSubmitEnvelope
    simp only
    split <;> exact ⟨rfl, rfl⟩
  rw [Envelope.rowEncoding, henv.2, if_neg hne]
  exact ⟨henv.1, rfl⟩

theorem parseSubmitSM_text {pdu : PDU} {sm : SubmitSM} (h : parseSubmitSM pdu = .ok sm) :
    sm.text = decodeSubmitText sm.payload sm.dataCoding := by
  obtain ⟨f, rest, tlvs, -, -, hfin⟩ := parseSubmitSM_eq_ok.mp h
  obtain ⟨udh, body, concat, -, rfl⟩ := finishSubmit_eq_ok.mp hfin
  rfl

structure ChargedOnce (d : Submitter) (c : SubmitChance) (env : Envelope) (g : Str) (s s' : MemoryStore) : Prop where
  segment : ∃ msg, s'.getMessage g = some msg ∧ msg.segments.length = 1
  unit    : ∀ identity, d.resolveTenant env = some identity → 0 < identity.dailySegments →
    (s'.usage identity.tenantID c.date).toInt = (s.usage identity.tenantID c.date).toInt + 1

section Charge

variable {d : Submitter} {s : MemoryStore} {c : SubmitChance} {pdu : PDU} {sm : SubmitSM}
  {sessionID systemID clientMsgID g : Str} {t : Time}

theorem sms_charged_once_iff (wf : SubmitWF s) (hsm : parseSubmitSM pdu = .ok sm)
    (hsize : (sm.udh ++ sm.payload).length ≤ 140)
    (hmask : d.masks (smppSubmitEnvelope sessionID systemID clientMsgID t sm) = false)
    (hg : c.gatewayID = some g) (hfresh : g ∉ s.messageByID) {id : Int} (hold : id ∉ s.outbox)
    (hnew : id ∈ (d.submit s c (smppSubmitEnvelope sessionID systemID clientMsgID t sm)).2.outbox) :
    ChargedOnce d c (smppSubmitEnvelope sessionID systemID clientMsgID t sm) g s
        (d.submit s c (smppSubmitEnvelope sessionID systemID clientMsgID t sm)).2 ↔
      CountsOnce sm.dataCoding sm.payload := by
  obtain ⟨call, hinto, hid, hsegments, hquota⟩ := Submitter.submit_accepted wf hmask hold hnew
  obtain rfl : g = call.msg.id := Option.some.inj (hg.symm.trans hid)
  have hmessage := (hinto.messages hfresh).2
  have hpayload : sm.payload.length ≤ 140 := by
    rw [List.length_append] at hsize
    omega
  obtain ⟨htext, hencoding⟩ := smppSubmitEnvelope_text sessionID systemID clientMsgID t sm
  rw [htext, hencoding, parseSubmitSM_text hsm] at hsegments
  rw [← length_split_payload c.ref sm.dataCoding hpayload, ← hsegments]
  constructor
  case mp =>
    rintro ⟨⟨msg, hmsg, hone⟩, -⟩
    rwa [Option.some.inj (hmessage.symm.trans hmsg)]
  case mpr =>
    intro hone
    refine ⟨⟨call.msg, hmessage, hone⟩, ?_⟩
    intro identity hidentity hlimit
    rw [hinto.usage, SubmitCall.debit, hquota, Submitter.debit?, Envelope.submitOptions, hidentity, hone]
    simp [hlimit]

end Charge

def payingTenant : Identity where
  tenantID      := lit "t"
  accountID     := lit "a"
  enabled       := true
  tps           := 10
  burst         := 10
  dailySegments := 100

def payingSubmitter : Submitter :=
  { plainSubmitter with tenantResolver := some fun _ _ => some payingTenant }

def payingChance : SubmitChance where
  now       := 5
  storeNow  := 5
  date      := lit "2026-07-18"
  gatewayID := some (lit "m0000001")

def payingEnvelope (sm : SubmitSM) : Envelope :=
  smppSubmitEnvelope (lit "s") (lit "esme") (lit "k") 5 sm

theorem sms_charged_once_iff_part :
    ChargedOnce payingSubmitter payingChance (payingEnvelope binaryPart) (lit "m0000001") newMemory
      (payingSubmitter.submit newMemory payingChance (payingEnvelope binaryPart)).2 := by
  have hparse : parseSubmitSM binaryPartPDU = .ok binaryPart := by decide
  have hnew : 1 ∈ (payingSubmitter.submit newMemory payingChance (payingEnvelope binaryPart)).2.outbox := by
    decide +kernel
  unfold payingEnvelope at hnew ⊢
  have honce : CountsOnce binaryPart.dataCoding binaryPart.payload := by decide +kernel
  exact (sms_charged_once_iff .newMemory hparse (by decide) rfl rfl (by decide) (by decide) hnew).mpr honce

def fullBinaryPDU : PDU where
  sequenceID := 7
  body       := cString [] ++ [1, 1] ++ cString (lit "1001") ++ [1, 1] ++ cString (lit "8613800138000") ++
    [0, 0, 0] ++ cString [] ++ cString [] ++ [1, 0, 0x04, 0, 140] ++ List.replicate 140 0

def fullBinary : SubmitSM :=
  { binaryPart with
    dest := lit "8613800138000", text := decodeSubmitText (List.replicate 140 0) 0x04, dataCoding := 0x04, esmClass := 0
    optionalParamsOffset := 174, payload := List.replicate 140 0, udh := [], concat := none }

-- Read as septets it has 159 characters, which are counted against the 140 of a binary message.
theorem full_binary_charged_twice :
    parseSubmitSM fullBinaryPDU = .ok fullBinary ∧ (fullBinary.udh ++ fullBinary.payload).length = 140 ∧
    payingSubmitter.masks (payingEnvelope fullBinary) = false ∧
    let s := (payingSubmitter.submit newMemory payingChance (payingEnvelope fullBinary)).2
    1 ∈ s.outbox ∧ newMemory.usage (lit "t") (lit "2026-07-18") = 0 ∧
    s.usage (lit "t") (lit "2026-07-18") = 2 ∧
    (s.getMessage (lit "m0000001")).map (·.segments.length) = some 2 := by
  decide +kernel

end SmppGateway
