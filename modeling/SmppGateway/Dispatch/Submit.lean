import SmppGateway.Client.Encode
import SmppGateway.Dispatch.Addr
import SmppGateway.Dispatch.Process
import SmppGateway.Filter.Engine
import SmppGateway.Lib.Machine
import SmppGateway.Router.Route

-- `Submit` of `internal/dispatch/dispatcher.go`: from an envelope to a row of the outbox.

namespace SmppGateway

open Go Parse Machine

structure SubmitSource where
  kind          : SourceKind
  smppSessionID : Str := []
  smppSystemID  : Str := []
  callbackURL   : Str := []
  callbackRule  : Str := []
  deriving DecidableEq, Repr

structure Envelope where
  sender             : Str
  dest               : Str
  text               : Str
  clientID           : Str := []
  clientMsgID        : Str := []
  tenantID           : Str := []
  accountID          : Str := []
  dataCoding         : UInt8 := 0
  encoding           : Str := []
  registeredDelivery : UInt8 := 0
  source             : SubmitSource
  receivedAt         : Time := 0
  metadata           : Map Str Str := ∅
  udh                : Bytes := []
  rawPayload         : Bytes := []
  rawPayloadSet      : Bool := false
  sarRefNum          : Bytes := []
  sarTotalSegments   : Bytes := []
  sarSegmentSeqnum   : Bytes := []
  sarSet             : Bool := false

structure Receipt where
  gatewayID  : Str
  providerID : Str := []
  provider   : Str := []
  route      : Str := []
  state      : Str
  deriving DecidableEq, Repr

inductive SubmitError
  | tenantDisabled              -- tenant is disabled
  | rateExceeded                -- tenant rate limit exceeded
  | blocked (reason : Str)      -- message blocked by content filter: %s
  | maskedMultipart             -- message blocked by content filter: cannot mask an individual …
  | noRouter                    -- router not initialized
  | noRoute (dest : Str)        -- no route matched %q
  | noProvider (route : Str)    -- no route matched for route %q
  | invalidDestAddr             -- invalid destination address
  | gatewayID                   -- what the id allocator returned, or gateway id sequence exhausted
  | store (err : StoreError)
  deriving DecidableEq, Repr

structure Identity where
  tenantID      : Str
  accountID     : Str
  enabled       : Bool
  tps           : Int
  burst         : Int
  dailySegments : Int64
  deriving DecidableEq, Repr

structure Router where
  matchRoute     : MatchInput → Option RouteConfig
  selectProvider : RouteConfig → Str → Option Str

-- The parts and settings of the dispatcher that `Submit` reads. The tenant resolver is asked with the
-- protocol of the source and the name of the account.
structure Submitter where
  tenantResolver : Option (SourceKind → Str → Option Identity) := none
  filterEngine   : Option (Str → Decision) := none
  router         : Option Router
  validateDest   : Bool := true
  maxAttempts    : Int := 5

-- What the surroundings decide in one call: the clock of the dispatcher and of the store, the answer of
-- the rate limiter, the day in the tenant's location, the new gateway id, the random reference of the
-- segments, and how the write to the store ends.
structure SubmitChance where
  now       : Time
  storeNow  : Time
  allow     : Bool := true
  date      : Str := []
  gatewayID : Option Str
  ref       : UInt16 := 0
  fault     : Fault := .none

-- A masked text is sent as text: what was received in its place is dropped.
def Envelope.masked (env : Envelope) (newText : Str) : Envelope :=
  { env with
    text := newText, rawPayload := [], rawPayloadSet := false, encoding := [], dataCoding := 0 }

namespace Submitter

variable (d : Submitter)

def resolveTenant (env : Envelope) : Option Identity :=
  match d.tenantResolver, env.source.kind with
  | some resolve, .smpp    => resolve .smpp env.source.smppSystemID
  | some resolve, .http    => resolve .http env.clientID
  | some _,       .unknown => none
  | none,         _        => none

def filter (env : Envelope) : Except SubmitError (Envelope × List Str) :=
  match d.filterEngine with
  | none => .ok (env, [])
  | some evaluate =>
    let decision := evaluate env.text
    match decision.action with
    | .pass  => .ok (env, decision.tags)
    | .block => .error (.blocked decision.reason)
    | .mask =>
      if env.udh ≠ [] ∨ env.sarSet then
        .error .maskedMultipart
      else
        .ok (env.masked decision.newText, decision.tags)

def matchRoute (env : Envelope) (tags : List Str) : Except SubmitError (Router × RouteConfig) :=
  match d.router with
  | none => .error .noRouter
  | some router =>
    let input : MatchInput := {
      dest     := env.dest
      sender   := env.sender
      systemID := env.source.smppSystemID
      clientID := env.clientID
      tags     := tags
      now      := env.receivedAt }
    match router.matchRoute input with
    | none       => .error (.noRoute env.dest)
    | some route => .ok (router, route)

def checkDest (env : Envelope) (route : RouteConfig) : Except SubmitError Envelope :=
  let env :=
    if route.addrRewrite ≠ {} then
      { env with dest := rewriteDestAddr env.dest route.addrRewrite }
    else
      env
  let shouldValidate := route.destAddr.validateEnabled d.validateDest || route.addrRewrite.enforceE164Len
  if shouldValidate && !validateDestAddr env.dest route.destAddr then
    .error .invalidDestAddr
  else
    .ok env

def clientMeta (env : Envelope) : Map Str Str :=
  if env.clientID ≠ [] then env.metadata.insert (lit "client_id") env.clientID else env.metadata

end Submitter

def SourceKind.string : SourceKind → Str
  | .smpp    => lit "smpp"
  | .http    => lit "http"
  | .unknown => lit "unknown"

namespace Envelope

variable (env : Envelope)

def received (c : SubmitChance) : Envelope :=
  if env.receivedAt = 0 then { env with receivedAt := c.now } else env

def trimmed : Envelope :=
  { env with dest := trimPrefix env.dest (lit "+") }

def identify (identity : Identity) : Envelope :=
  { env with tenantID := identity.tenantID, accountID := identity.accountID }

def rowEncoding : Str :=
  if env.encoding = [] then detectEncoding env.text else env.encoding

def message (c : SubmitChance) (gatewayID : Str) (route : RouteConfig) (provider : Str) : Message where
  id          := gatewayID
  direction   := .mt
  sender      := env.sender
  dest        := env.dest
  text        := env.text
  encoding    := env.rowEncoding
  route       := route.name
  provider    := provider
  sourceKind  := env.source.kind.string
  sourceID    := env.source.smppSessionID
  tenantID    := env.tenantID
  accountID   := env.accountID
  clientMsgID := env.clientMsgID
  metadata    := Submitter.clientMeta env
  segments    := split c.ref env.text { forceEncoding := env.rowEncoding }
  state       := lit "queued"
  submittedAt := c.now

def payload (gatewayID : Str) (route : RouteConfig) (provider : Str) : OutboxPayload where
  gatewayID          := gatewayID
  tenantID           := env.tenantID
  accountID          := env.accountID
  clientMsgID        := env.clientMsgID
  provider           := provider
  route              := route.name
  sender             := env.sender
  dest               := env.dest
  text               := env.text
  dataCoding         := env.dataCoding
  registeredDelivery := env.registeredDelivery
  encoding           := env.rowEncoding
  metadata           := Submitter.clientMeta env
  sourceKind         := env.source.kind
  sourceSession      := env.source.smppSessionID
  sourceSystem       := env.source.smppSystemID
  callbackURL        := env.source.callbackURL
  callbackRule       := env.source.callbackRule
  receivedAt         := env.receivedAt
  udh                := env.udh
  rawPayload         := env.rawPayload
  rawPayloadSet      := env.rawPayloadSet
  sarRefNum          := env.sarRefNum
  sarTotalSegments   := env.sarTotalSegments
  sarSegmentSeqnum   := env.sarSegmentSeqnum
  sarSet             := env.sarSet

def submitOptions (c : SubmitChance) (identity : Option Identity) (segments : Nat) : SubmitOptions where
  idempotency := { clientID := env.clientID, key := env.clientMsgID, ttl := 24 * hour }
  quota       := identity.bind fun identity =>
    if 0 < identity.dailySegments then
      some {
        tenantID := identity.tenantID
        date     := c.date
        segments := .ofNat segments
        limit    := identity.dailySegments }
    else
      none

end Envelope

structure Submission where
  msg     : Message
  item    : OutboxItem
  opts    : SubmitOptions
  receipt : Receipt

namespace Submitter

variable (d : Submitter)

def routed (env : Envelope) : Except SubmitError (Envelope × Router × RouteConfig) := do
  let (env, tags) ← d.filter env.trimmed
  let (router, route) ← d.matchRoute env tags
  pure (env, router, route)

-- The part of `Submit` from the tenant's admission to the call of the store.
def prepare (c : SubmitChance) (identity : Option Identity) (env : Envelope) :
    Except SubmitError Submission := do
  let (env, router, route) ← d.routed env
  let env ← d.checkDest env route
  match c.gatewayID with
  | none => throw .gatewayID
  | some gatewayID =>
    match router.selectProvider route gatewayID with
    | none => throw (.noProvider route.name)
    | some provider =>
      let msg := env.message c gatewayID route provider
      pure {
        msg
        item    := {
          gatewayID, provider
          payload     := env.payload gatewayID route provider
          maxAttempts := d.maxAttempts }
        opts    := env.submitOptions c identity msg.segments.length
        receipt := { gatewayID, provider, route := route.name, state := lit "queued" } }

def receiptForExisting (s : MemoryStore) (gatewayID : Str) : Receipt :=
  match s.getMessage gatewayID with
  | none     => { gatewayID, state := lit "queued" }
  | some msg =>
    { gatewayID, providerID := msg.providerID, provider := msg.provider, route := msg.route
      state := msg.state }

def queue (s : MemoryStore) (c : SubmitChance) (identity : Option Identity) (env : Envelope) :
    Except SubmitError Receipt × MemoryStore :=
  match d.prepare c identity env with
  | .error e => (.error e, s)
  | .ok sub =>
    match c.fault.apply s (s.submitAtomic c.storeNow sub.msg sub.item sub.opts) with
    | (.error e, s) => (.error (.store e), s)
    | (.ok res, s)  =>
      (.ok (if res.duplicate then receiptForExisting s res.gatewayID else sub.receipt), s)

-- A submission over the tenant's rate is only answered if it repeats an earlier one.
def overRate (s : MemoryStore) (c : SubmitChance) (env : Envelope) :
    Except SubmitError Receipt × MemoryStore :=
  match s.checkIdempotency c.storeNow env.clientID env.clientMsgID with
  | (.error e, s)             => (.error (.store e), s)
  | (.ok (some gatewayID), s) => (.ok (receiptForExisting s gatewayID), s)
  | (.ok none, s)             => (.error .rateExceeded, s)

def submit (s : MemoryStore) (c : SubmitChance) (env : Envelope) :
    Except SubmitError Receipt × MemoryStore :=
  let env := env.received c
  match d.resolveTenant env with
  | none => d.queue s c none env
  | some identity =>
    let env := env.identify identity
    if !identity.enabled then
      (.error .tenantDisabled, s)
    else if !c.allow then
      overRate s c env
    else
      d.queue s c (some identity) env

def masks (env : Envelope) : Bool :=
  match d.filterEngine with
  | none          => false
  | some evaluate => (evaluate env.text).action = .mask

def filtered (env : Envelope) : Envelope :=
  match d.filterEngine with
  | none          => env
  | some evaluate => if d.masks env then env.masked (evaluate env.text).newText else env

def routeOf (c : SubmitChance) (env : Envelope) : Option RouteConfig :=
  match d.routed (env.received c) with
  | .ok (_, _, route) => some route
  | .error _          => none

end Submitter

def OutboxPayload.outbound (p : OutboxPayload) : Client.Message where
  gatewayID          := p.gatewayID
  sourceAddr         := p.sender
  destAddr           := p.dest
  text               := p.text
  dataCoding         := p.dataCoding
  registeredDelivery := p.registeredDelivery
  encoding           := p.encoding
  udh                := p.udh
  rawPayload         := p.rawPayload
  rawPayloadSet      := p.rawPayloadSet
  sarRefNum          := p.sarRefNum
  sarTotalSegments   := p.sarTotalSegments
  sarSegmentSeqnum   := p.sarSegmentSeqnum
  sarSet             := p.sarSet

namespace Submitter

variable {d : Submitter} {s : MemoryStore} {c : SubmitChance} {env : Envelope} {identity : Option Identity} {id : Int}
  {row : OutboxItem}

theorem routed_identify (identity : Identity) :
    d.routed (env.identify identity) =
      (d.routed env).map fun (env, router, route) => (env.identify identity, router, route) := by
  have hf : d.filter (env.identify identity).trimmed =
      (d.filter env.trimmed).map fun (env, tags) => (env.identify identity, tags) := by
    unfold filter Envelope.identify Envelope.trimmed
    cases d.filterEngine
    case none => rfl
    case some evaluate =>
      simp only
      split
      case h_1 => rfl
      case h_2 => rfl
      case h_3 => split <;> rfl
  have hm (env : Envelope) (tags : List Str) :
      d.matchRoute (env.identify identity) tags = d.matchRoute env tags := rfl
  rw [routed, hf, routed]
  cases d.filter env.trimmed
  case error e => rfl
  case ok r =>
    obtain ⟨env', tags⟩ := r
    change (d.matchRoute (env'.identify identity) tags >>= _) = Except.map _ (d.matchRoute env' tags >>= _)
    rw [hm]
    cases d.matchRoute env' tags <;> rfl

theorem checkDest_identify (identity : Identity) (route : RouteConfig) :
    d.checkDest (env.identify identity) route = (d.checkDest env route).map (·.identify identity) := by
  unfold checkDest Envelope.identify
  by_cases hr : route.addrRewrite = {} <;> simp only [hr, ne_eq, not_true, not_false_iff, if_true, if_false]
    <;> split <;> rfl

-- What is handed to the store is made of the envelope that the filter and the check of the destination leave.
theorem prepare_eq_ok {sub : Submission} (h : d.prepare c identity env = .ok sub) :
    ∃ env₁ router route env₂ gatewayID provider,
      d.routed env = .ok (env₁, router, route) ∧ d.checkDest env₁ route = .ok env₂ ∧ c.gatewayID = some gatewayID ∧
      sub.msg = env₂.message c gatewayID route provider ∧
      sub.item =
        { gatewayID, provider, payload := env₂.payload gatewayID route provider, maxAttempts := d.maxAttempts } ∧
      sub.opts = env₂.submitOptions c identity sub.msg.segments.length := by
  obtain ⟨⟨env₁, router, route⟩, hr, h⟩ := bind_eq_ok.mp h
  obtain ⟨env₂, hd, h⟩ := bind_eq_ok.mp h
  split at h
  case h_1 => cases h
  case h_2 gatewayID hg =>
    split at h
    case h_1 => cases h
    case h_2 provider _ => cases h; exact ⟨env₁, router, route, env₂, gatewayID, provider, hr, hd, hg, rfl, rfl, rfl⟩

theorem prepare_ok {sub : Submission} (h : d.prepare c identity env = .ok sub) :
    ∃ env₁ router route env₂ gatewayID provider,
      d.routed env = .ok (env₁, router, route) ∧ d.checkDest env₁ route = .ok env₂ ∧
      sub.item.state = .unset ∧ sub.item.payload = env₂.payload gatewayID route provider := by
  obtain ⟨env₁, router, route, env₂, gatewayID, provider, hr, hd, -, -, hitem, -⟩ := prepare_eq_ok h
  exact ⟨env₁, router, route, env₂, gatewayID, provider, hr, hd, by rw [hitem], by rw [hitem]⟩

theorem queue_cases (d : Submitter) (s : MemoryStore) (c : SubmitChance) (identity : Option Identity)
    (env : Envelope) :
    (d.queue s c identity env).2 = s ∨ ∃ sub, d.prepare c identity env = .ok sub ∧
      (d.queue s c identity env).2 = (s.submitAtomic c.storeNow sub.msg sub.item sub.opts).2 := by
  unfold queue
  cases d.prepare c identity env
  case error => exact .inl rfl
  case ok sub =>
    have hstore := c.fault.apply_store s (s.submitAtomic c.storeNow sub.msg sub.item sub.opts)
    simp only
    split
    all_goals
      rename_i he
      rw [he] at hstore
      exact hstore.imp_right fun h => ⟨sub, rfl, h⟩

theorem queue_row (wf : OutboxWF s) (hold : s.outbox.lookup id = none)
    (hnew : (d.queue s c identity env).2.outbox.lookup id = some row) :
    ∃ sub now, d.prepare c identity env = .ok sub ∧ row = s.newOutboxItem now sub.item := by
  obtain he | ⟨sub, hp, he⟩ := d.queue_cases s c identity env <;> rw [he] at hnew
  case inl => cases hold.symm.trans hnew
  case inr =>
    cases (StoreOp.submitAtomic c.storeNow sub.msg sub.item sub.opts).exec_row wf id
    case same he => cases hold.symm.trans (he.symm.trans hnew)
    case evolves ha _ _ => cases hold.symm.trans ha
    case new now hg _ hd _ _ =>
      cases hg
      cases hd.symm.trans hnew
      exact ⟨sub, now, hp, rfl⟩

theorem overRate_outbox :
    (overRate s c env).2.outbox = s.outbox ∧ (overRate s c env).2.nextOutbox = s.nextOutbox := by
  have h : (s.checkIdempotency c.storeNow env.clientID env.clientMsgID).2.outbox = s.outbox ∧
      (s.checkIdempotency c.storeNow env.clientID env.clientMsgID).2.nextOutbox = s.nextOutbox := by
    unfold MemoryStore.checkIdempotency
    split
    case h_1 => exact ⟨rfl, rfl⟩
    case h_2 =>
      simp only
      split
      case h_1 => simp
      case h_2 => split <;> simp
  unfold overRate
  split
  all_goals
    rename_i he
    rw [he] at h
    exact h

theorem queue_wf (wf : OutboxWF s) : OutboxWF (d.queue s c identity env).2 := by
  obtain he | ⟨sub, _, he⟩ := d.queue_cases s c identity env <;> rw [he]
  case inl => exact wf
  case inr => exact (StoreOp.submitAtomic c.storeNow sub.msg sub.item sub.opts).exec_wf wf

theorem submit_wf (wf : OutboxWF s) : OutboxWF (d.submit s c env).2 := by
  unfold submit
  simp only
  split
  case h_1 => exact queue_wf wf
  case h_2 identity _ =>
    split
    case isTrue => exact wf
    case isFalse =>
      split
      case isTrue =>
        refine ⟨fun h => wf.keyed ?_, fun h => ?_⟩
        case refine_1 => rwa [overRate_outbox.1] at h
        case refine_2 =>
          rw [overRate_outbox.1] at h
          rw [overRate_outbox.2]
          exact wf.bounded h
      case isFalse => exact queue_wf wf

-- A row that `Submit` adds carries the payload of the envelope after the filter and the check of the
-- destination.
theorem submit_row (wf : OutboxWF s) (hold : s.outbox.lookup id = none)
    (hnew : (d.submit s c env).2.outbox.lookup id = some row) :
    ∃ env₁ router route env₂ gatewayID provider,
      d.routed (env.received c) = .ok (env₁, router, route) ∧ d.checkDest env₁ route = .ok env₂ ∧
      row.state = .pending ∧ row.payload.outbound = (env₂.payload gatewayID route provider).outbound := by
  have hqueued {identity : Option Identity} {env : Envelope}
      (h : (d.queue s c identity env).2.outbox.lookup id = some row) :
      ∃ env₁ router route env₂ gatewayID provider,
        d.routed env = .ok (env₁, router, route) ∧ d.checkDest env₁ route = .ok env₂ ∧
        row.state = .pending ∧ row.payload = env₂.payload gatewayID route provider := by
    obtain ⟨sub, now, hp, rfl⟩ := queue_row wf hold h
    obtain ⟨env₁, router, route, env₂, gatewayID, provider, hr, hd, hs, hpay⟩ := prepare_ok hp
    refine ⟨env₁, router, route, env₂, gatewayID, provider, hr, hd, ?_, hpay⟩
    simp [MemoryStore.newOutboxItem, hs]
  unfold submit at hnew
  simp only at hnew
  split at hnew
  case h_1 =>
    obtain ⟨env₁, router, route, env₂, gatewayID, provider, hr, hd, hs, hpay⟩ := hqueued hnew
    exact ⟨env₁, router, route, env₂, gatewayID, provider, hr, hd, hs, by rw [hpay]⟩
  case h_2 identity _ =>
    split at hnew
    case isTrue => cases hold.symm.trans hnew
    case isFalse =>
      split at hnew
      case isTrue => rw [overRate_outbox.1] at hnew; cases hold.symm.trans hnew
      case isFalse =>
        obtain ⟨env₁, router, route, env₂, gatewayID, provider, hr, hd, hs, hpay⟩ := hqueued hnew
        rw [routed_identify] at hr
        obtain ⟨⟨env₁', _, _⟩, hr', heq⟩ := map_eq_ok.mp hr
        cases heq
        rw [checkDest_identify] at hd
        obtain ⟨env₂', hd', rfl⟩ := map_eq_ok.mp hd
        exact ⟨env₁', router, route, env₂', gatewayID, provider, hr', hd', hs, by rw [hpay]; rfl⟩

theorem filter_ok {env₁ : Envelope} {tags : List Str} (h : d.filter env = .ok (env₁, tags)) :
    (d.masks env = false ∧ env₁ = env) ∨
    ∃ evaluate, d.filterEngine = some evaluate ∧ d.masks env = true ∧ env.udh = [] ∧ env.sarSet = false ∧
      env₁ = env.masked (evaluate env.text).newText := by
  unfold filter at h
  split at h
  case h_1 hf => cases h; exact .inl ⟨by simp [masks, hf], rfl⟩
  case h_2 evaluate hf =>
    simp only at h
    split at h
    case h_1 ha => cases h; exact .inl ⟨by simp [masks, hf, ha], rfl⟩
    case h_2 => cases h
    case h_3 ha =>
      split at h
      case isTrue => cases h
      case isFalse hm =>
        cases h
        simp only [not_or, ne_eq, not_not, Bool.not_eq_true] at hm
        exact .inr ⟨evaluate, hf, by simp [masks, hf, ha], hm.1, hm.2, rfl⟩

theorem checkDest_eq_ok {route : RouteConfig} {env₂ : Envelope} (h : d.checkDest env route = .ok env₂) :
    ∃ dest, env₂ = { env with dest } ∧ (route.addrRewrite = {} → dest = env.dest) := by
  unfold checkDest at h
  by_cases hr : route.addrRewrite = {} <;> simp only [hr, ne_eq, not_true, not_false_iff, if_true, if_false] at h
  case pos =>
    split at h
    case isTrue => cases h
    case isFalse => exact ⟨env.dest, (Except.ok.inj h).symm, fun _ => rfl⟩
  case neg =>
    split at h
    case isTrue => cases h
    case isFalse => exact ⟨_, (Except.ok.inj h).symm, fun he => absurd he hr⟩

theorem checkDest_ok {route : RouteConfig} {env₂ : Envelope} (hr : route.addrRewrite = {})
    (h : d.checkDest env route = .ok env₂) : env₂ = env := by
  obtain ⟨dest, rfl, hdest⟩ := checkDest_eq_ok h
  rw [hdest hr]

theorem filtered_of_not_masks (h : d.masks env = false) : d.filtered env = env := by
  unfold filtered
  split
  case h_1 => rfl
  case h_2 => rw [h]; rfl

theorem received_eq (env : Envelope) (c : SubmitChance) : ∃ t, env.received c = { env with receivedAt := t } := by
  unfold Envelope.received
  split
  case isTrue => exact ⟨c.now, rfl⟩
  case isFalse => exact ⟨env.receivedAt, rfl⟩

-- Without an address rewrite, what goes upstream is what the filter left, with the destination trimmed.
theorem submit_outbound (wf : OutboxWF s) (hold : s.outbox.lookup id = none)
    (hnew : (d.submit s c env).2.outbox.lookup id = some row)
    (hrewrite : ∀ route, d.routeOf c env = some route → route.addrRewrite = {}) :
    row.state = .pending ∧ ∃ gatewayID route provider,
      row.payload.outbound = ((d.filtered env).trimmed.payload gatewayID route provider).outbound := by
  obtain ⟨env₁, router, route, env₂, gatewayID, provider, hr, hd, hs, hpay⟩ := submit_row wf hold hnew
  obtain rfl := checkDest_ok (hrewrite route (by rw [routeOf, hr])) hd
  obtain ⟨⟨env₀, tags⟩, hf, hm⟩ := bind_eq_ok.mp hr
  obtain ⟨_, _, heq⟩ := bind_eq_ok.mp hm
  obtain ⟨rfl, -⟩ := Prod.mk.inj (Except.ok.inj heq)
  obtain ⟨t, ht⟩ := received_eq env c
  rw [ht] at hf
  refine ⟨hs, gatewayID, route, provider, hpay.trans ?_⟩
  cases filter_ok hf
  case inl h =>
    obtain ⟨hno, rfl⟩ := h
    have hno : d.masks env = false := hno
    rw [filtered_of_not_masks hno]
    rfl
  case inr h =>
    obtain ⟨evaluate, he, hyes, -, -, rfl⟩ := h
    have hyes : d.masks env = true := hyes
    have hmasked : d.filtered env = env.masked (evaluate env.text).newText := by
      unfold filtered
      rw [he, hyes]
      rfl
    rw [hmasked]
    rfl

end Submitter

theorem Evolves.payload_eq {a b : OutboxItem} (h : Evolves a b) (hb : b.state.IsLive) :
    b.payload = a.payload := by
  cases h <;> grind [OutboxState.IsLive, MemoryStore.claimItem, MemoryStore.requeueItem]

def MemoryStore.Carries (s : MemoryStore) (id : Int) (payload : OutboxPayload) : Prop :=
  ∃ row, s.outbox.lookup id = some row ∧ (row.state.IsLive → row.payload = payload)

namespace MemoryStore.Carries

variable {s : MemoryStore} {id : Int} {payload : OutboxPayload}

theorem step (wf : OutboxWF s) (h : s.Carries id payload) (op : StoreOp) :
    (op.step s).Carries id payload := by
  obtain ⟨a, ha, hpay⟩ := h
  cases op.exec_row wf id
  case same he => exact ⟨a, he.trans ha, hpay⟩
  case evolves b ha' hb he =>
    cases ha.symm.trans ha'
    exact ⟨b, hb, fun hl => (he.payload_eq hl).trans (hpay (he.live hl))⟩
  case new hn _ _ _ => cases ha.symm.trans hn

theorem run (wf : OutboxWF s) (h : s.Carries id payload) (ops : List StoreOp) :
    OutboxWF (run StoreOp.step s ops) ∧ (Machine.run StoreOp.step s ops).Carries id payload :=
  invariant (P := fun s => OutboxWF s ∧ s.Carries id payload) ⟨wf, h⟩
    (.of_forall fun _ _ _ => trivial : Along StoreOp.step (fun _ _ => True) s ops)
    fun _ op ⟨wf, h⟩ _ => ⟨op.exec_wf wf, h.step wf op⟩

theorem claimed (wf : OutboxWF s) (h : s.Carries id payload) {now : Time} {workerID : Str} {limit : Int}
    {items : List OutboxItem} (hc : (s.claimOutbox now workerID limit).1 = .ok items) {item : OutboxItem}
    (hm : item ∈ items) (hid : item.id = id) : item.payload = payload := by
  cases hc
  obtain ⟨old, hl, hs, rfl⟩ := mem_claimOutbox wf hm
  obtain ⟨row, hr, hpay⟩ := h
  rw [hid] at hl
  cases hl.symm.trans hr
  exact hpay (.inl hs)

end MemoryStore.Carries

end SmppGateway
