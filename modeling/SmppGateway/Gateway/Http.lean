import SmppGateway.Client.Text
import SmppGateway.Gateway.Passthrough

-- Submissions over HTTP (`internal/httpgw/rules.go`) on their way to the submit_sm that goes upstream.

namespace SmppGateway

open Go Machine Client

structure SubmitRequest where
  sender       : Str
  dest         : Str
  text         : Str
  clientMsgID  : Str := []
  callbackURL  : Str := []
  callbackRule : Str := []
  metadata     : Map Str Str := ∅

inductive RequestError
  | sender                      -- from must be 1-32 characters
  | dest                        -- to must be E.164 or 11 digits
  | text                        -- text must not be empty
  | segments (encoding : Str)   -- text exceeds %d SMS segments for %s encoding
  | clientMsgID                 -- client_msg_id must be 1-64 non-space characters
  | callbackURL                 -- callback_url must be https
  | metaKeys                    -- meta can contain at most 10 keys
  | metaValue                   -- meta values must be at most 200 characters
  deriving DecidableEq, Repr

def maxHTTPSubmitSegments : Nat := 20

def allDigits (value : Str) : Bool :=
  (runes value).all (fun r => '0' ≤ r && r ≤ '9') && value ≠ []

def validPhone (value : Str) : Bool :=
  (value.length = 11 && allDigits value) ||
    (lit "+" <+: value && 8 ≤ value.length && value.length ≤ 16 && allDigits (value.drop 1))

-- `isHTTPS` says whether `url.Parse` takes the URL and finds the scheme https and a host in it, and `ref`
-- is the random reference that `Split` draws.
def validateSubmitRequest (isHTTPS : Str → Bool) (ref : UInt16) (req : SubmitRequest) :
    Except RequestError Unit := do
  let encoding := detectEncoding req.text
  let segments := split ref req.text { forceEncoding := encoding }
  if (runes req.sender).length < 1 ∨ 32 < (runes req.sender).length then
    throw .sender
  if !validPhone req.dest then
    throw .dest
  if (runes req.text).length < 1 then
    throw .text
  if maxHTTPSubmitSegments < segments.length then
    throw (.segments encoding)
  if req.clientMsgID ≠ [] ∧ ((runes req.clientMsgID).length < 1 ∨ 64 < (runes req.clientMsgID).length ∨
      req.clientMsgID.any (· ∈ lit " \t\r\n")) then
    throw .clientMsgID
  if req.callbackURL ≠ [] ∧ !isHTTPS req.callbackURL then
    throw .callbackURL
  if 10 < req.metadata.keys.length then
    throw .metaKeys
  if req.metadata.entries.any fun e => e.1 = [] || 200 < (runes e.2).length then
    throw .metaValue

def httpEnvelope (clientID : Str) (now : Time) (req : SubmitRequest) : Envelope where
  sender             := req.sender
  dest               := req.dest
  text               := req.text
  clientID           := clientID
  clientMsgID        := req.clientMsgID
  encoding           := detectEncoding req.text
  registeredDelivery := 1
  source             := { kind := .http, callbackURL := req.callbackURL, callbackRule := req.callbackRule }
  receivedAt         := now
  metadata           := req.metadata

theorem isDigit_of_mem_utf8EncodeChar {r : Char} (h : '0' ≤ r) (h' : r ≤ '9') {b : UInt8}
    (hb : b ∈ String.utf8EncodeChar r) : isDigit b := by
  have hge : 48 ≤ r.val.toNat := h
  have hle : r.val.toNat ≤ 57 := h'
  rw [String.utf8EncodeChar, if_pos (by omega), List.mem_singleton] at hb
  have hn : (UInt8.ofNat r.val.toNat).toNat = r.val.toNat := by rw [UInt8.toNat_ofNat']; omega
  simp only [hb, isDigit, Bool.and_eq_true, decide_eq_true_eq, UInt8.le_iff_toNat_le, hn]
  exact ⟨hge, hle⟩

theorem isDigit_of_allDigits {value : Str} (h : allDigits value) : ∀ b ∈ value, isDigit b := by
  simp only [allDigits, Bool.and_eq_true, List.all_eq_true, decide_eq_true_eq] at h
  have hvalue : utf8 (runes value) = value := by
    refine utf8_runes fun he => ?_
    exact absurd (h.1 _ he) (by decide)
  intro b hb
  rw [← hvalue] at hb
  obtain ⟨r, hr, hb⟩ := List.mem_flatMap.mp hb
  exact isDigit_of_mem_utf8EncodeChar (h.1 r hr).1 (h.1 r hr).2 hb

theorem trimPrefix_digits {value : Str} (h : ∀ b ∈ value, isDigit b) :
    trimPrefix value (lit "+") = value := by
  refine if_neg fun hp => ?_
  have := h _ (hp.subset (List.mem_cons_self))
  exact absurd this (by decide)

theorem validPhone_digits {value : Str} (h : validPhone value) :
    (trimPrefix value (lit "+")).length ≤ 15 ∧ ∀ b ∈ trimPrefix value (lit "+"), isDigit b := by
  rw [validPhone, Bool.or_eq_true] at h
  cases h
  case inl h =>
    rw [Bool.and_eq_true, decide_eq_true_eq] at h
    have hd := isDigit_of_allDigits h.2
    rw [trimPrefix_digits hd]
    exact ⟨by omega, hd⟩
  case inr h =>
    simp only [Bool.and_eq_true, decide_eq_true_eq] at h
    obtain ⟨⟨⟨hp, -⟩, hlen⟩, hd⟩ := h
    rw [trimPrefix, if_pos hp]
    refine ⟨?_, isDigit_of_allDigits hd⟩
    have : (lit "+").length = 1 := by decide
    rw [List.length_drop]
    omega

theorem validPhone_fits {value : Str} (h : validPhone value) :
    FitsCString smppMaxAddress (trimPrefix value (lit "+")) := by
  obtain ⟨hlen, hd⟩ := validPhone_digits h
  refine ⟨hlen.trans (by decide), fun h₀ => ?_⟩
  exact absurd (hd _ h₀) (by decide)

theorem stripPlus_of_validPhone {value : Str} (h : validPhone value) :
    stripPlus (trimPrefix value (lit "+")) = trimPrefix value (lit "+") :=
  trimPrefix_digits (validPhone_digits h).2

theorem throw_bind_eq_ok {α β : Type} {c : Prop} [Decidable c] {e : RequestError}
    {next : β → Except RequestError α} {rest : Except RequestError α} {a : α} :
    (if c then throw e >>= next else rest) = .ok a ↔ ¬c ∧ rest = .ok a := by
  by_cases hc : c
  case pos => rw [if_pos hc]; exact iff_of_false nofun fun h => h.1 hc
  case neg => rw [if_neg hc]; exact ⟨fun h => ⟨hc, h⟩, And.right⟩

theorem validateSubmitRequest_ok {isHTTPS : Str → Bool} {ref : UInt16} {req : SubmitRequest}
    (h : validateSubmitRequest isHTTPS ref req = .ok ()) :
    validPhone req.dest ∧
    (split ref req.text { forceEncoding := detectEncoding req.text }).length ≤ maxHTTPSubmitSegments := by
  simp only [validateSubmitRequest, ↓throw_bind_eq_ok] at h
  obtain ⟨-, hdest, -, hsegments, -⟩ := h
  exact ⟨by simpa using hdest, Nat.le_of_not_lt hsegments⟩

theorem textAccepted_of_segments {ref : UInt16} {text : Str}
    (h : (split ref text { forceEncoding := detectEncoding text }).length ≤ maxHTTPSubmitSegments)
    (cfg : SMPPClientConfig) : textAccepted text cfg = true := by
  have hmax : maxHTTPSubmitSegments = 20 := rfl
  unfold textAccepted
  split
  case isTrue =>
    refine overflowAccepted_of_length ?_
    have := length_text ref text cfg.gsm7Packing
    omega
  case isFalse =>
    rw [decide_eq_true_eq, length_split 0 ref]
    omega

theorem isText_httpEnvelope (d : Submitter) (clientID : Str) (now : Time) (req : SubmitRequest)
    (gatewayID : Str) (route : RouteConfig) (provider : Str) :
    IsText ((d.filtered (httpEnvelope clientID now req)).trimmed.payload gatewayID route provider).outbound := by
  have hrow (env : Envelope) (h : env.encoding = [] ∨ env.encoding = detectEncoding env.text) :
      (env.trimmed.payload gatewayID route provider).outbound.encoding = detectEncoding env.text := by
    change (if env.encoding = [] then detectEncoding env.text else env.encoding) = _
    split
    case isTrue => rfl
    case isFalse hne => exact h.resolve_left hne
  unfold Submitter.filtered
  split
  case h_1 => exact ⟨rfl, hrow _ (.inr rfl), rfl, rfl, rfl⟩
  case h_2 evaluate _ =>
    split
    case isTrue =>
      have he := hrow ((httpEnvelope clientID now req).masked (evaluate req.text).newText) (.inl rfl)
      exact ⟨rfl, he, rfl, rfl, rfl⟩
    case isFalse => exact ⟨rfl, hrow _ (.inr rfl), rfl, rfl, rfl⟩

theorem Submitter.filtered_addresses (d : Submitter) (env : Envelope) :
    (d.filtered env).sender = env.sender ∧ (d.filtered env).dest = env.dest := by
  unfold Submitter.filtered
  split
  case h_1 => exact ⟨rfl, rfl⟩
  case h_2 => split <;> exact ⟨rfl, rfl⟩

section EndToEnd

variable (d : Submitter) {s : MemoryStore} (c : SubmitChance) {isHTTPS : Str → Bool} {draw : UInt16}
  {req : SubmitRequest} {clientID : Str} {t : Time}

-- The addresses of an accepted request arrive exactly when the sender fits the field it is written to
-- and a text that the filter put in place of the received one can be sent at all.
theorem http_addresses_arrive_iff (wf : OutboxWF s)
    (hreq : validateSubmitRequest isHTTPS draw req = .ok ())
    (hrewrite : ∀ route, d.routeOf c (httpEnvelope clientID t req) = some route → route.addrRewrite = {})
    {id : Int} (hold : id ∉ s.outbox)
    (hnew : id ∈ (d.submit s c (httpEnvelope clientID t req)).2.outbox)
    (ops : List StoreOp) {now : Time} {workerID : Str} {limit : Int} {items : List OutboxItem}
    (hclaim : ((run StoreOp.step (d.submit s c (httpEnvelope clientID t req)).2
      ops).claimOutbox now workerID limit).1 = .ok items)
    {item : OutboxItem} (hitem : item ∈ items) (hid : item.id = id) {cfg : SMPPClientConfig}
    (hservice : FitsCString 6 cfg.serviceType) (hvalidity : FitsCString 16 cfg.validityPeriod)
    (isLetter : Char → Bool) (ref : UInt16) (sequenceID : UInt32) :
    (∀ body ∈ buildSubmitSM isLetter ref item.payload.outbound cfg,
        Addressed sequenceID body (trimPrefix req.sender (lit "+")) (trimPrefix req.dest (lit "+"))) ↔
      FitsCString smppMaxAddress (trimPrefix req.sender (lit "+")) ∧
      (d.masks (httpEnvelope clientID t req) = true →
        textAccepted (d.filtered (httpEnvelope clientID t req)).text cfg = true) := by
  obtain ⟨hphone, hsegments⟩ := validateSubmitRequest_ok hreq
  obtain ⟨row, hnew⟩ := Option.isSome_iff_exists.mp (AList.lookup_isSome.mpr hnew)
  obtain ⟨-, gatewayID, route, provider, hpay⟩ :=
    d.submit_outbound wf (AList.lookup_eq_none.mpr hold) hnew hrewrite
  have hcarries : (d.submit s c (httpEnvelope clientID t req)).2.Carries id row.payload :=
    ⟨row, hnew, fun _ => rfl⟩
  obtain ⟨wf', hrun⟩ := hcarries.run (d.submit_wf wf) ops
  rw [hrun.claimed wf' hclaim hitem hid]
  have htext := isText_httpEnvelope d clientID t req gatewayID route provider
  rw [← hpay] at htext
  obtain ⟨hfrom, hto⟩ := d.filtered_addresses (httpEnvelope clientID t req)
  have hsender : stripPlus row.payload.outbound.sourceAddr = trimPrefix req.sender (lit "+") := by
    rw [hpay]
    exact congrArg stripPlus hfrom
  have hdest : stripPlus row.payload.outbound.destAddr = trimPrefix req.dest (lit "+") := by
    rw [hpay, ← stripPlus_of_validPhone hphone]
    exact congrArg (fun a => stripPlus (trimPrefix a (lit "+"))) hto
  have hsent : row.payload.outbound.text = (d.filtered (httpEnvelope clientID t req)).text := by
    rw [hpay]
    rfl
  have hfits : FitsCString smppMaxAddress (stripPlus row.payload.outbound.destAddr) := by
    rw [hdest]
    exact validPhone_fits hphone
  have hall := htext.addressed_all_iff isLetter ref hservice hvalidity hfits sequenceID
  rw [hsender, hdest, hsent] at hall
  rw [hall]
  refine and_congr_right fun _ => ⟨fun h _ => h, fun h => ?_⟩
  cases hmask : d.masks (httpEnvelope clientID t req)
  case true => exact h hmask
  case false =>
    rw [d.filtered_of_not_masks hmask]
    exact textAccepted_of_segments hsegments cfg

end EndToEnd

def httpStore (req : SubmitRequest) : MemoryStore :=
  (plainSubmitter.submit newMemory { now := 5, storeNow := 5, gatewayID := some (lit "m0000001") }
    (httpEnvelope (lit "app") 5 req)).2

def httpItems (req : SubmitRequest) : List OutboxItem :=
  ((httpStore req).claimCandidates 6 1).map (MemoryStore.claimItem (lit "w") 6)

def plainRequest : SubmitRequest where
  sender := lit "+1001"
  dest   := lit "+8613800138000"
  text   := lit "hi"

theorem http_addresses_arrive_plain :
    (httpItems plainRequest).length = 1 ∧ ∀ item ∈ httpItems plainRequest,
      ∀ body ∈ buildSubmitSM (fun _ => false) 9 item.payload.outbound {},
        Addressed 1 body (lit "1001") (lit "8613800138000") := by
  have hids : (httpItems plainRequest).map (·.id) = [1] := by decide +kernel
  have hid : ∀ item ∈ httpItems plainRequest, item.id = 1 :=
    fun item hm => List.mem_singleton.mp (hids ▸ List.mem_map_of_mem hm)
  refine ⟨by simpa using congrArg List.length hids, fun item hm => ?_⟩
  have hreq : validateSubmitRequest (fun _ => false) 0 plainRequest = .ok () := by decide
  have hnew : 1 ∈ (httpStore plainRequest).outbox := by decide +kernel
  unfold httpItems httpStore at hm
  unfold httpStore at hnew
  exact (http_addresses_arrive_iff plainSubmitter _ .newMemory hreq
    (by rintro route ⟨⟩; rfl) (by decide) hnew [] rfl hm (hid item hm) (by decide) (by decide)
    _ _ _).mpr ⟨by decide, nofun⟩

-- A sender with NUL octets in it ends the source address early and goes on with fields of its own: the
-- type and number of the destination, and a destination.
def forgedRequest : SubmitRequest where
  sender := lit "A" ++ [0, 1, 1] ++ lit "15550001111" ++ [0, 0, 0, 0]
  dest   := lit "+8613800138000"
  text   := lit "x@$yz"

theorem http_destination_forged :
    validateSubmitRequest (fun _ => false) 0 forgedRequest = .ok () ∧
    (httpItems forgedRequest).length = 1 ∧ ∀ item ∈ httpItems forgedRequest,
      ∃ body ∈ buildSubmitSM (fun _ => false) 9 item.payload.outbound {},
        Addressed 1 body (lit "A") (lit "15550001111") := by
  have hread : ∀ item ∈ httpItems forgedRequest,
      ∃ body ∈ buildSubmitSM (fun _ => false) 9 item.payload.outbound {},
        ((parseSubmitSM { sequenceID := 1, body }).toOption.map fun sm => (sm.sender, sm.dest)) =
          some (lit "A", lit "15550001111") := by
    decide +kernel
  refine ⟨by decide, by decide +kernel, fun item hm => ?_⟩
  obtain ⟨body, hb, h⟩ := hread item hm
  refine ⟨body, hb, ?_⟩
  cases hp : parseSubmitSM { sequenceID := 1, body }
  case error e => rw [hp] at h; cases h
  case ok sm =>
    rw [hp] at h
    obtain ⟨hs, hd⟩ := Prod.mk.inj (Option.some.inj h)
    exact ⟨sm, hp, hs, hd⟩

end SmppGateway
