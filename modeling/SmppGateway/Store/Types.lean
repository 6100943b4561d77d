import SmppGateway.Message.Basic

-- The records of `internal/store`.

namespace SmppGateway

open Go

-- `SourceKind.String()`: the only values the dispatcher writes into a source kind.
inductive SourceKind
  | smpp
  | http
  | unknown
  deriving DecidableEq, Repr

-- The states of an outbox row. `unset` is the empty string a caller leaves in a new row.
inductive OutboxState
  | unset
  | pending
  | claimed
  | sending
  | done
  | failed
  | uncertain
  deriving DecidableEq, Repr

structure Pending where
  providerID         : Str
  gatewayID          : Str
  tenantID           : Str := []
  accountID          : Str := []
  clientMsgID        : Str := []
  segmentIndex       : Int := 1
  segmentCount       : Int := 1
  sourceKind         : SourceKind := .smpp
  sourceSession      : Str := []
  sourceSystem       : Str := []
  callbackURL        : Str := []
  callbackRule       : Str := []
  sender             : Str := []
  dest               : Str := []
  text               : Str := []
  dataCoding         : UInt8 := 0
  registeredDelivery : UInt8 := 0
  provider           : Str
  route              : Str := []
  receivedAt         : Time := 0
  expiresAt          : Time := 0
  dlrReady           : Bool := false
  dlrDelivered       : Bool := false
  dlrState           : Str := []
  dlrErrorCode       : Int := 0
  dlrDoneAt          : Time := 0
  deriving DecidableEq, Repr

structure OutboxPayload where
  gatewayID          : Str
  tenantID           : Str := []
  accountID          : Str := []
  clientMsgID        : Str := []
  provider           : Str := []
  route              : Str := []
  sender             : Str := []
  dest               : Str := []
  text               : Str := []
  dataCoding         : UInt8 := 0
  registeredDelivery : UInt8 := 0
  encoding           : Str := []
  metadata           : Map Str Str := ∅
  sourceKind         : SourceKind := .smpp
  sourceSession      : Str := []
  sourceSystem       : Str := []
  callbackURL        : Str := []
  callbackRule       : Str := []
  receivedAt         : Time := 0
  udh                : List UInt8 := []
  rawPayload         : List UInt8 := []
  rawPayloadSet      : Bool := false
  sarRefNum          : List UInt8 := []
  sarTotalSegments   : List UInt8 := []
  sarSegmentSeqnum   : List UInt8 := []
  sarSet             : Bool := false

structure OutboxItem where
  id          : Int := 0
  gatewayID   : Str
  provider    : Str := []
  payload     : OutboxPayload
  state       : OutboxState := .unset
  claimedBy   : Str := []
  claimedAt   : Time := 0
  nextRetryAt : Time := 0
  attempt     : Int := 0
  maxAttempts : Int := 0
  lastError   : Str := []
  createdAt   : Time := 0

structure IdempotencyOptions where
  clientID : Str := []
  key      : Str := []
  ttl      : Duration := 0
  deriving DecidableEq, Repr

structure DailyQuotaDebit where
  tenantID : Str
  date     : Str
  segments : Int64
  limit    : Int64
  deriving DecidableEq, Repr

structure SubmitOptions where
  idempotency : IdempotencyOptions := {}
  quota       : Option DailyQuotaDebit := none
  deriving DecidableEq, Repr

structure IdempotencyRecord where
  gatewayID : Str
  expiresAt : Time
  deriving DecidableEq, Repr

-- The errors of the store. Each constructor is one `errors.New` or `fmt.Errorf` of the source with
-- the values it formats.
inductive StoreError
  | notFound                                             -- not found
  | quotaExceeded                                        -- daily segment quota exceeded
  | notClaimedBy (id : Int) (worker : Str)               -- outbox %d is not claimed by %q
  | notSendingFor (id : Int) (worker : Str)              -- outbox %d is not sending for worker %q
  | notSending (id : Int)                                -- outbox %d is not sending
  | notOwnedBy (id : Int) (worker : Str)                 -- outbox %d is not owned by worker %q
  | notClaimed (id : Int)                                -- outbox %d is not claimed
  | cannotFail (id : Int) (state : OutboxState)          -- outbox %d cannot fail from state %q
  | cannotRetry (id : Int) (state : OutboxState)         -- outbox %d cannot retry from state %q
  | completionEmpty             -- outbox completion requires at least one pending record
  | completionProviderID (i : Nat)  -- outbox completion pending record %d has empty provider id
  | completionMismatch (i : Nat)    -- outbox completion pending record %d does not match outbox
  | invalidQuota                    -- invalid daily quota debit
  | invalidQuotaDate                -- invalid daily quota date: %w
  | persist                         -- writing the snapshot file failed
  deriving DecidableEq, Repr

def pendingKey (provider providerID : Str) : Str :=
  provider ++ 0 :: providerID

def Pending.key (p : Pending) : Str :=
  pendingKey p.provider p.providerID

theorem pendingKey_inj {p q id id' : Str} (hp : 0 ∉ p) (hq : 0 ∉ q) (h : pendingKey p id = pendingKey q id') :
    p = q ∧ id = id' := by
  induction p generalizing q
  case nil =>
    cases q
    case nil => exact ⟨rfl, (List.cons.inj h).2⟩
    case cons b q => exact absurd (List.mem_cons.mpr (.inl (List.cons.inj h).1)) hq
  case cons b p hi =>
    cases q
    case nil => exact absurd (List.mem_cons.mpr (.inl (List.cons.inj h).1.symm)) hp
    case cons c q =>
      obtain ⟨hb, h⟩ := List.cons.inj h
      obtain ⟨rfl, rfl⟩ := hi (fun hm => hp (List.mem_cons_of_mem b hm)) (fun hm => hq (List.mem_cons_of_mem c hm)) h
      exact ⟨by rw [hb], rfl⟩

def normalizePending (p : Pending) : Pending :=
  { p with
    segmentIndex := if p.segmentIndex ≤ 0 then 1 else p.segmentIndex
    segmentCount := if p.segmentCount ≤ 0 then 1 else p.segmentCount }

def scrubOutboxPayload (payload : OutboxPayload) : OutboxPayload :=
  { payload with
    udh := [], rawPayload := [], rawPayloadSet := false, sarRefNum := [], sarTotalSegments := [],
    sarSegmentSeqnum := [], sarSet := false }

def validateDailyQuotaDebit (quota : DailyQuotaDebit) : Except StoreError Unit :=
  if quota.tenantID = [] ∨ quota.segments ≤ 0 ∨ quota.limit ≤ 0 then
    .error .invalidQuota
  else if !parsesDateOnly quota.date then
    .error .invalidQuotaDate
  else
    .ok ()

def validateOutboxCompletion (item : OutboxItem) (pending : List Pending) :
    Except StoreError (List Pending) :=
  if pending = [] then .error .completionEmpty else go 0 pending
where
  go (i : Nat) : List Pending → Except StoreError (List Pending)
    | [] => .ok []
    | rec :: rest =>
      let rec' := normalizePending rec
      if rec'.providerID = [] then
        .error (.completionProviderID i)
      else if rec'.gatewayID ≠ item.gatewayID ∨ rec'.provider ≠ item.provider then
        .error (.completionMismatch i)
      else
        (go (i + 1) rest).map (rec' :: ·)

end SmppGateway
