import Mathlib.Data.List.Sort
import SmppGateway.Store.Types

-- `MemoryStore` of `internal/store/memory.go`. Every method runs under the store's lock, so each is
-- one function from a store to its result and the store it leaves. Where a method reads the clock,
-- the reading is its argument `now`.

namespace SmppGateway

open Go

structure MemoryStore where
  messages    : List Message
  messageByID : Map Str Nat
  pending     : Map Str Pending
  outbox      : Map Int OutboxItem
  nextOutbox  : Int
  idempotency : Map (Str × Str) IdempotencyRecord
  quotaUsage  : Map (Str × Str) Int64
  gatewaySeq  : UInt64
  lastSweep   : Time
  maxMessages : Nat

abbrev StoreResult (α : Type) := Except StoreError α × MemoryStore

def newMemory : MemoryStore where
  messages    := []
  messageByID := ∅
  pending     := ∅
  outbox      := ∅
  nextOutbox  := 0
  idempotency := ∅
  quotaUsage  := ∅
  gatewaySeq  := 0
  lastSweep   := 0
  maxMessages := 10000

namespace MemoryStore

-- The index that `trimMessagesLocked` and `load` rebuild: the last message of an id wins.
def indexMessages (messages : List Message) : Map Str Nat :=
  Map.insertAll (·.1.id) (·.2) ∅ messages.zipIdx

def trimMessagesLocked (s : MemoryStore) : MemoryStore :=
  if s.maxMessages = 0 ∨ s.messages.length ≤ s.maxMessages then
    s
  else
    let kept := s.messages.drop (s.messages.length - s.maxMessages)
    { s with messages := kept, messageByID := indexMessages kept }

def putMessage (s : MemoryStore) (msg : Message) : MemoryStore :=
  match s.messageByID.lookup msg.id with
  | some idx => { s with messages := s.messages.set idx msg }
  | none =>
    trimMessagesLocked
      { s with
        messageByID := s.messageByID.insert msg.id s.messages.length
        messages := s.messages ++ [msg] }

def sweepLocked (s : MemoryStore) (now : Time) : MemoryStore :=
  { s with
    pending := s.pending.filter fun _ p => !(!p.dlrReady && p.expiresAt != 0 && p.expiresAt < now)
    idempotency := s.idempotency.filter fun _ rec => !(rec.expiresAt != 0 && rec.expiresAt < now)
    lastSweep := now }

def saveMessage (s : MemoryStore) (msg : Message) : StoreResult Unit :=
  (.ok (), s.putMessage msg)

def getMessage (s : MemoryStore) (gatewayID : Str) : Option Message :=
  s.messageByID.lookup gatewayID >>= (s.messages[·]?)

def modifyMessage (s : MemoryStore) (gatewayID : Str) (f : Message → Message) : MemoryStore :=
  match s.messageByID.lookup gatewayID with
  | some idx => { s with messages := s.messages.modify idx f }
  | none => s

def updateMessageSent (s : MemoryStore) (now : Time) (gatewayID providerID : Str) : StoreResult Unit :=
  if gatewayID ∈ s.messageByID then
    (.ok (), s.modifyMessage gatewayID fun msg =>
      { msg with providerID := providerID, state := lit "sent", sentAt := now })
  else
    (.error .notFound, s)

def updateMessageState (s : MemoryStore) (now : Time) (gatewayID state : Str) (errCode : Int) :
    StoreResult Unit :=
  if gatewayID ∈ s.messageByID then
    (.ok (), s.modifyMessage gatewayID fun msg =>
      { msg with state := state, errorCode := errCode, doneAt := now })
  else
    (.error .notFound, s)

def savePending (s : MemoryStore) (now : Time) (p : Pending) : StoreResult Unit :=
  let s := s.sweepLocked now
  let p := normalizePending p
  (.ok (), { s with pending := s.pending.insert (pendingKey p.provider p.providerID) p })

def modifyPending (s : MemoryStore) (provider providerID : Str) (f : Pending → Pending) :
    StoreResult Unit :=
  match s.pending.lookup (pendingKey provider providerID) with
  | none => (.error .notFound, s)
  | some p => (.ok (), { s with pending := s.pending.insert (pendingKey provider providerID) (f p) })

def updatePendingDLR (s : MemoryStore) (provider providerID state : Str) (errCode : Int)
    (doneAt : Time) : StoreResult Unit :=
  s.modifyPending provider providerID fun p =>
    { p with dlrDelivered := false, dlrState := state, dlrErrorCode := errCode, dlrDoneAt := doneAt }

def markDLRReady (s : MemoryStore) (provider providerID state : Str) (errCode : Int)
    (doneAt : Time) : StoreResult Unit :=
  s.modifyPending provider providerID fun p =>
    { p with
      dlrReady := true, dlrDelivered := false, dlrState := state, dlrErrorCode := errCode
      dlrDoneAt := doneAt }

def markDLRDelivered (s : MemoryStore) (provider providerID : Str) : StoreResult Unit :=
  s.modifyPending provider providerID fun p => { p with dlrReady := false, dlrDelivered := true }

def getPending (s : MemoryStore) (now : Time) (provider providerID : Str) :
    Option Pending × MemoryStore :=
  let s := s.sweepLocked now
  let key := pendingKey provider providerID
  match s.pending.lookup key with
  | none => (none, s)
  | some p =>
    if !p.dlrReady && p.expiresAt != 0 && p.expiresAt < now then
      (none, { s with pending := s.pending.erase key })
    else
      (some p, s)

def segmentLe (p q : Pending) : Prop :=
  p.segmentIndex < q.segmentIndex ∨ p.segmentIndex = q.segmentIndex ∧
    (p.provider < q.provider ∨ p.provider = q.provider ∧ p.providerID ≤ q.providerID)

instance : DecidableRel segmentLe :=
  fun _ _ => inferInstanceAs (Decidable (_ ∨ _))

def listPendingByGatewayID (s : MemoryStore) (now : Time) (gatewayID : Str) :
    List Pending × MemoryStore :=
  let s := s.sweepLocked now
  let rows := (s.pending.entries.map (·.2)).filter (·.gatewayID = gatewayID)
  (rows.insertionSort segmentLe, s)

def listReadyDLR (s : MemoryStore) (now : Time) (order : List Str) (systemID : Str) (limit : Int) :
    List Pending × MemoryStore :=
  let s := s.sweepLocked now
  let rows := (order.filterMap s.pending.lookup).filter fun p =>
    p.dlrReady && (systemID = [] || p.sourceSystem = systemID)
  (rows.take (if limit ≤ 0 then 100 else limit.toNat), s)

def deletePending (s : MemoryStore) (provider providerID : Str) : StoreResult Unit :=
  (.ok (), { s with pending := s.pending.erase (pendingKey provider providerID) })

def deletePendingByGatewayID (s : MemoryStore) (gatewayID : Str) : StoreResult Unit :=
  (.ok (), { s with pending := s.pending.filter fun _ p => p.gatewayID ≠ gatewayID })

-- Unlike the sweep of the other methods, this one also takes rows that never expire.
def sweepExpiredPending (s : MemoryStore) (before : Time) : Nat × MemoryStore :=
  let kept := s.pending.filter fun _ p => !(!p.dlrReady && p.expiresAt < before)
  (s.pending.entries.length - kept.entries.length, { s with pending := kept })

def reserveGatewayIDRange (s : MemoryStore) (span : UInt64) : (UInt64 × UInt64) × MemoryStore :=
  let seq := s.gatewaySeq + if span = 0 then 1 else span
  ((s.gatewaySeq + 1, seq), { s with gatewaySeq := seq })

def newOutboxItem (s : MemoryStore) (now : Time) (item : OutboxItem) : OutboxItem :=
  { item with
    id := s.nextOutbox + 1
    state := if item.state = .unset then .pending else item.state
    nextRetryAt := if item.nextRetryAt = 0 then now else item.nextRetryAt
    createdAt := if item.createdAt = 0 then now else item.createdAt
    maxAttempts := if item.maxAttempts ≤ 0 then 5 else item.maxAttempts }

def putOutbox (s : MemoryStore) (now : Time) (item : OutboxItem) : MemoryStore :=
  { s with
    nextOutbox := s.nextOutbox + 1
    outbox := s.outbox.insert (s.nextOutbox + 1) (s.newOutboxItem now item) }

def enqueueOutbox (s : MemoryStore) (now : Time) (item : OutboxItem) : StoreResult Int :=
  (.ok (s.nextOutbox + 1), s.putOutbox now item)

def claimLe (a b : OutboxItem) : Prop :=
  a.nextRetryAt < b.nextRetryAt ∨ a.nextRetryAt = b.nextRetryAt ∧ a.id ≤ b.id

instance : DecidableRel claimLe :=
  fun _ _ => inferInstanceAs (Decidable (_ ∨ _))

def claimItem (workerID : Str) (now : Time) (item : OutboxItem) : OutboxItem :=
  { item with
    state := .claimed, claimedBy := workerID, claimedAt := now, attempt := item.attempt + 1 }

def claimCandidates (s : MemoryStore) (now : Time) (limit : Int) : List OutboxItem :=
  let due := (s.outbox.entries.map (·.2)).filter fun item =>
    item.state = .pending ∧ item.nextRetryAt ≤ now
  (due.insertionSort claimLe).take (if limit ≤ 0 then 1 else limit.toNat)

def claimOutbox (s : MemoryStore) (now : Time) (workerID : Str) (limit : Int) :
    StoreResult (List OutboxItem) :=
  let out := (s.claimCandidates now limit).map (claimItem workerID now)
  (.ok out, { s with outbox := Map.insertAll (·.id) (·) s.outbox out })

def markOutboxSending (s : MemoryStore) (id : Int) (workerID : Str) : StoreResult Unit :=
  match s.outbox.lookup id with
  | none => (.error .notFound, s)
  | some item =>
    if item.state = .sending ∧ item.claimedBy = workerID then
      (.ok (), s)
    else if item.state ≠ .claimed ∨ item.claimedBy ≠ workerID then
      (.error (.notClaimedBy id workerID), s)
    else
      (.ok (), { s with outbox := s.outbox.insert id { item with state := .sending } })

def completeOutboxSend (s : MemoryStore) (now : Time) (id : Int) (workerID : Str)
    (pending : List Pending) : StoreResult Unit :=
  match s.outbox.lookup id with
  | none => (.error .notFound, s)
  | some item =>
    if item.state = .done then
      (.ok (), s)
    else if item.state ≠ .sending ∨ item.claimedBy ≠ workerID then
      (.error (.notSendingFor id workerID), s)
    else
      match validateOutboxCompletion item pending with
      | .error e => (.error e, s)
      | .ok recs =>
        if item.gatewayID ∈ s.messageByID then
          let s := s.modifyMessage item.gatewayID fun msg =>
            { msg with
              providerID := (recs.head?.map (·.providerID)).getD []
              state := lit "sent", sentAt := now }
          (.ok (), { s with
            pending := Map.insertAll (fun r => pendingKey r.provider r.providerID) (·) s.pending recs
            outbox := s.outbox.insert id
              { item with state := .done, payload := scrubOutboxPayload item.payload } })
        else
          (.error .notFound, s)

def markOutboxUncertain (s : MemoryStore) (now : Time) (id : Int) (workerID errMsg : Str) :
    StoreResult Unit :=
  match s.outbox.lookup id with
  | none => (.error .notFound, s)
  | some item =>
    if item.state ≠ .sending ∧ item.state ≠ .uncertain then
      (.error (.notSending id), s)
    else if item.claimedBy ≠ workerID then
      (.error (.notOwnedBy id workerID), s)
    else
      let s := { s with
        outbox := s.outbox.insert id { item with state := .uncertain, lastError := errMsg } }
      (.ok (), s.modifyMessage item.gatewayID fun msg =>
        { msg with state := lit "UNKNOWN", errorCode := 1, doneAt := now })

def isStale (before : Time) (item : OutboxItem) : Bool :=
  item.state == .claimed && item.claimedAt != 0 && item.claimedAt < before

def requeueItem (before : Time) (item : OutboxItem) : OutboxItem :=
  { item with
    state := .pending, claimedBy := [], claimedAt := 0
    nextRetryAt :=
      if item.nextRetryAt = 0 ∨ before < item.nextRetryAt then before else item.nextRetryAt }

-- `order` is the order in which the loop visits the keys of the outbox. It stops after `limit` rows.
def requeueStaleOutbox (s : MemoryStore) (order : List Int) (before : Time) (limit : Int) :
    StoreResult Nat :=
  let (outbox, count) := go (if limit ≤ 0 then 1000 else limit.toNat) s.outbox 0 order
  (.ok count, { s with outbox })
where
  go (limit : Nat) (outbox : Map Int OutboxItem) (count : Nat) : List Int → Map Int OutboxItem × Nat
    | [] => (outbox, count)
    | id :: order =>
      match outbox.lookup id with
      | none => go limit outbox count order
      | some item =>
        if !isStale before item then
          go limit outbox count order
        else if limit ≤ count + 1 then
          (outbox.insert id (requeueItem before item), count + 1)
        else
          go limit (outbox.insert id (requeueItem before item)) (count + 1) order

def ackOutbox (s : MemoryStore) (id : Int) : StoreResult Unit :=
  match s.outbox.lookup id with
  | none => (.error .notFound, s)
  | some item =>
    if item.state ≠ .claimed then
      (.error (.notClaimed id), s)
    else
      (.ok (), { s with
        outbox := s.outbox.insert id
          { item with state := .done, payload := scrubOutboxPayload item.payload } })

def failOutbox (s : MemoryStore) (id : Int) (errMsg : Str) (nextRetryAt : Time) : StoreResult Unit :=
  match s.outbox.lookup id with
  | none => (.error .notFound, s)
  | some item =>
    if nextRetryAt = 0 ∨ item.maxAttempts ≤ item.attempt then
      if item.state ≠ .claimed ∧ item.state ≠ .sending then
        (.error (.cannotFail id item.state), s)
      else
        (.ok (), { s with
          outbox := s.outbox.insert id { item with lastError := errMsg, state := .failed } })
    else if item.state ≠ .claimed then
      (.error (.cannotRetry id item.state), s)
    else
      (.ok (), { s with
        outbox := s.outbox.insert id
          { item with
            lastError := errMsg, state := .pending, nextRetryAt := nextRetryAt, claimedBy := []
            claimedAt := 0 } })

structure Submitted where
  outboxID  : Int
  gatewayID : Str
  duplicate : Bool
  deriving DecidableEq, Repr

def idempotencyKey? (opts : IdempotencyOptions) : Option (Str × Str) :=
  if opts.clientID ≠ [] ∧ opts.key ≠ [] then some (opts.clientID, opts.key) else none

def effectiveTTL (opts : IdempotencyOptions) : Duration :=
  if opts.ttl ≤ 0 then 24 * hour else opts.ttl

def usage (s : MemoryStore) (tenantID date : Str) : Int64 :=
  (s.quotaUsage.lookup (tenantID, date)).getD 0

def debitQuota (s : MemoryStore) : Option DailyQuotaDebit → Except StoreError MemoryStore
  | none => .ok s
  | some quota =>
    if quota.limit ≤ 0 then
      .ok s
    else
      match validateDailyQuotaDebit quota with
      | .error e => .error e
      | .ok () =>
        let used := s.usage quota.tenantID quota.date
        if quota.limit < quota.segments ∨ quota.limit - quota.segments < used then
          .error .quotaExceeded
        else
          .ok { s with
            quotaUsage := s.quotaUsage.insert (quota.tenantID, quota.date) (used + quota.segments) }

def rememberKey (s : MemoryStore) (now : Time) (gatewayID : Str) (opts : IdempotencyOptions) :
    MemoryStore :=
  match idempotencyKey? opts with
  | none => s
  | some k =>
    { s with idempotency := s.idempotency.insert k ⟨gatewayID, now + effectiveTTL opts⟩ }

def liveDuplicate (s : MemoryStore) (now : Time) (opts : IdempotencyOptions) : Option Str :=
  match idempotencyKey? opts >>= s.idempotency.lookup with
  | some rec => if now < rec.expiresAt then some rec.gatewayID else none
  | none => none

-- Unlike `submitAtomic`, this takes a key for live at the very instant it expires.
def checkIdempotency (s : MemoryStore) (now : Time) (clientID key : Str) : StoreResult (Option Str) :=
  match idempotencyKey? { clientID, key } with
  | none => (.ok none, s)
  | some k =>
    let s := s.sweepLocked now
    match s.idempotency.lookup k with
    | none => (.ok none, s)
    | some rec =>
      if rec.expiresAt < now then
        (.ok none, { s with idempotency := s.idempotency.erase k })
      else
        (.ok (some rec.gatewayID), s)

def saveIdempotency (s : MemoryStore) (now : Time) (gatewayID : Str) (opts : IdempotencyOptions) : StoreResult Unit :=
  match idempotencyKey? opts with
  | none   => (.ok (), s)
  | some _ => (.ok (), (s.sweepLocked now).rememberKey now gatewayID opts)

def submitAtomic (s : MemoryStore) (now : Time) (msg : Message) (item : OutboxItem)
    (opts : SubmitOptions) : StoreResult Submitted :=
  let s := s.sweepLocked now
  match s.liveDuplicate now opts.idempotency with
  | some gatewayID => (.ok ⟨0, gatewayID, true⟩, s)
  | none =>
    match s.debitQuota opts.quota with
    | .error e => (.error e, s)
    | .ok debited =>
      let s := (debited.rememberKey now msg.id opts.idempotency).putMessage msg
      (.ok ⟨s.nextOutbox + 1, msg.id, false⟩, s.putOutbox now item)

end MemoryStore
end SmppGateway
