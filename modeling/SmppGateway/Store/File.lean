import SmppGateway.Lib.Machine
import SmppGateway.Store.Outbox

-- `FileStore` of `internal/store/file.go`: a `MemoryStore` that writes its whole content to a file
-- after each call that changed something, and reads it back when the process starts.

namespace SmppGateway

open Go

-- `encoding/json` writes U+FFFD in place of every byte that is not UTF-8.
def jsonStr (s : Str) : Str :=
  utf8 (runes s)

def jsonMap {V : Type} (f : V → V) (m : Map Str V) : Map Str V :=
  Map.insertAll (fun e => jsonStr e.1) (fun e => f e.2) ∅ (m.entries.insertionSort fun a b => a.1 ≤ b.1)

def Segment.json (seg : Segment) : Segment :=
  { seg with text := jsonStr seg.text }

def Message.json (msg : Message) : Message :=
  { msg with
    id := jsonStr msg.id, providerID := jsonStr msg.providerID, tenantID := jsonStr msg.tenantID
    accountID := jsonStr msg.accountID, clientMsgID := jsonStr msg.clientMsgID
    sender := jsonStr msg.sender, dest := jsonStr msg.dest, text := jsonStr msg.text
    encoding := jsonStr msg.encoding, route := jsonStr msg.route, provider := jsonStr msg.provider
    sourceKind := jsonStr msg.sourceKind, sourceID := jsonStr msg.sourceID
    state := jsonStr msg.state, segments := msg.segments.map Segment.json
    metadata := jsonMap jsonStr msg.metadata }

def Pending.json (p : Pending) : Pending :=
  { p with
    providerID := jsonStr p.providerID, gatewayID := jsonStr p.gatewayID
    tenantID := jsonStr p.tenantID, accountID := jsonStr p.accountID
    clientMsgID := jsonStr p.clientMsgID, sourceSession := jsonStr p.sourceSession
    sourceSystem := jsonStr p.sourceSystem, callbackURL := jsonStr p.callbackURL
    callbackRule := jsonStr p.callbackRule, sender := jsonStr p.sender, dest := jsonStr p.dest
    text := jsonStr p.text, provider := jsonStr p.provider, route := jsonStr p.route
    dlrState := jsonStr p.dlrState }

def OutboxPayload.json (p : OutboxPayload) : OutboxPayload :=
  { p with
    gatewayID := jsonStr p.gatewayID, tenantID := jsonStr p.tenantID
    accountID := jsonStr p.accountID, clientMsgID := jsonStr p.clientMsgID
    provider := jsonStr p.provider, route := jsonStr p.route, sender := jsonStr p.sender
    dest := jsonStr p.dest, text := jsonStr p.text, encoding := jsonStr p.encoding
    metadata := jsonMap jsonStr p.metadata, sourceSession := jsonStr p.sourceSession
    sourceSystem := jsonStr p.sourceSystem, callbackURL := jsonStr p.callbackURL
    callbackRule := jsonStr p.callbackRule }

def OutboxItem.json (item : OutboxItem) : OutboxItem :=
  { item with
    gatewayID := jsonStr item.gatewayID, provider := jsonStr item.provider
    payload := item.payload.json, claimedBy := jsonStr item.claimedBy
    lastError := jsonStr item.lastError }

structure FileIdempotencyRecord where
  clientID  : Str
  key       : Str
  gatewayID : Str
  expiresAt : Time

structure FileQuotaUsage where
  tenantID     : Str
  date         : Str
  usedSegments : Int64

structure FileSnapshot where
  messages    : List Message
  pending     : Map Str Pending
  outbox      : Map Int OutboxItem
  nextOutbox  : Int
  gatewaySeq  : UInt64
  idempotency : List FileIdempotencyRecord
  quotaUsage  : List FileQuotaUsage

def FileSnapshot.json (snap : FileSnapshot) : FileSnapshot :=
  { snap with
    messages := snap.messages.map Message.json
    pending := jsonMap Pending.json snap.pending
    outbox := snap.outbox.mapVal OutboxItem.json
    idempotency := snap.idempotency.map fun rec =>
      { rec with
        clientID := jsonStr rec.clientID, key := jsonStr rec.key, gatewayID := jsonStr rec.gatewayID }
    quotaUsage := snap.quotaUsage.map fun rec =>
      { rec with tenantID := jsonStr rec.tenantID, date := jsonStr rec.date } }

def parseGatewaySeq : Str → Option UInt64
  | b :: rest =>
    if rest = [] then
      none
    else if b = 'g'.toUInt8 then
      parseUint rest 10
    else if b = 'm'.toUInt8 then
      parseUint rest 36
    else
      none
  | [] => none

namespace MemoryStore

def snapshot (s : MemoryStore) : FileSnapshot where
  messages    := s.messages
  pending     := s.pending
  outbox      := s.outbox
  nextOutbox  := s.nextOutbox
  gatewaySeq  := s.gatewaySeq
  idempotency := s.idempotency.entries.map fun e => ⟨e.1.1, e.1.2, e.2.gatewayID, e.2.expiresAt⟩
  quotaUsage  := s.quotaUsage.entries.map fun e => ⟨e.1.1, e.1.2, e.2⟩

-- A claim does not outlive the process that made it.
def reloadItem (item : OutboxItem) : OutboxItem :=
  if item.state = .claimed then
    { item with state := .pending, claimedBy := [], claimedAt := 0 }
  else
    item

def load (snap : FileSnapshot) : MemoryStore :=
  { newMemory with
    messages    := snap.messages
    messageByID := indexMessages snap.messages
    pending     := Map.insertAll (fun p => pendingKey p.provider p.providerID) normalizePending ∅
      (snap.pending.entries.map (·.2))
    outbox      := snap.outbox.mapVal reloadItem
    nextOutbox  := max (snap.outbox.keys.foldl max 0) snap.nextOutbox
    gatewaySeq  := snap.messages.foldl
      (fun seq msg => match parseGatewaySeq msg.id with
        | some n => if seq < n then n else seq
        | none   => seq)
      snap.gatewaySeq
    idempotency := Map.insertAll (fun rec => (rec.clientID, rec.key))
      (fun rec => ⟨rec.gatewayID, rec.expiresAt⟩) ∅ snap.idempotency
    quotaUsage  := Map.insertAll (fun rec => (rec.tenantID, rec.date)) (·.usedSegments) ∅
      snap.quotaUsage }

theorem le_load_gatewaySeq (snap : FileSnapshot) : snap.gatewaySeq ≤ (load snap).gatewaySeq := by
  have hfold : ∀ (messages : List Message) (seq : UInt64), seq ≤ messages.foldl
      (fun seq msg => match parseGatewaySeq msg.id with
        | some n => if seq < n then n else seq
        | none   => seq) seq := by
    intro messages
    induction messages
    case nil => exact fun seq => UInt64.le_refl seq
    case cons msg messages hi =>
      intro seq
      refine UInt64.le_trans ?_ (hi _)
      simp only
      split
      case h_1 n _ =>
        split
        case isTrue hlt => exact UInt64.le_of_lt hlt
        case isFalse => exact UInt64.le_refl seq
      case h_2 => exact UInt64.le_refl seq
  exact hfold snap.messages snap.gatewaySeq

end MemoryStore

structure FileStore where
  mem  : MemoryStore
  disk : Option FileSnapshot

structure FileReply where
  value : Option StoreReply
  err   : Option StoreError

def StoreReply.persists : StoreReply → Bool
  | .submitted res => !res.duplicate
  | .items rows    => !rows.isEmpty
  | .count n       => n != 0
  | _              => true

namespace FileStore

def empty : FileStore :=
  ⟨newMemory, none⟩

def writes (s : FileStore) (op : StoreOp) (persistOk : Bool) : Bool :=
  match (op.exec s.mem).1 with
  | .ok r    => r.persists && persistOk
  | .error _ => false

def call (s : FileStore) (op : StoreOp) (persistOk : Bool) : FileReply × FileStore :=
  match op.exec s.mem with
  | (.error e, mem) => (⟨none, some e⟩, { s with mem })
  | (.ok r, mem) =>
    if !r.persists then
      (⟨some r, none⟩, { s with mem })
    else if persistOk then
      (⟨some r, none⟩, ⟨mem, some mem.snapshot.json⟩)
    else
      (⟨some r, some .persist⟩, { s with mem })

def restart (s : FileStore) : FileStore :=
  { s with mem := s.disk.elim newMemory .load }

end FileStore

inductive FileEvent
  | call (op : StoreOp) (persistOk : Bool)
  | restart

def FileEvent.IsCall : FileEvent → Prop
  | call .. => True
  | restart => False

instance : DecidablePred FileEvent.IsCall
  | .call .. => .isTrue trivial
  | .restart => .isFalse id

def FileStore.step (s : FileStore) : FileEvent → FileStore
  | .call op persistOk => (s.call op persistOk).2
  | .restart           => s.restart

end SmppGateway
