import SmppGateway.Store.Lifecycle
import SmppGateway.Store.Log
import SmppGateway.Store.Pending

-- Whether a store that is written to its file and read back is the same store. What the file cannot hold are
-- strings that are not UTF-8: `encoding/json` writes them, but other ones come back.

namespace SmppGateway

open Go Machine

def ValidUtf8 (s : Str) : Prop :=
  ∃ cs, s = utf8 cs

theorem validUtf8_jsonStr (s : Str) : ValidUtf8 (jsonStr s) :=
  ⟨_, rfl⟩

theorem jsonStr_eq_self_iff {s : Str} : jsonStr s = s ↔ ValidUtf8 s := by
  constructor
  case mp => exact fun h => ⟨_, h.symm⟩
  case mpr =>
    rintro ⟨cs, rfl⟩
    rw [jsonStr, runes_utf8]

instance : DecidablePred ValidUtf8 :=
  fun _ => decidable_of_iff _ jsonStr_eq_self_iff

theorem ValidUtf8.pendingKey {provider providerID : Str} (hp : ValidUtf8 provider) (hi : ValidUtf8 providerID) :
    ValidUtf8 (pendingKey provider providerID) := by
  obtain ⟨cs, rfl⟩ := hp
  obtain ⟨ds, rfl⟩ := hi
  refine ⟨cs ++ Char.ofNat 0 :: ds, ?_⟩
  rw [utf8_append, utf8_cons]
  rfl

@[simp]
theorem jsonStr_jsonStr (s : Str) : jsonStr (jsonStr s) = jsonStr s :=
  jsonStr_eq_self_iff.mpr (validUtf8_jsonStr s)

theorem jsonMap_eq_some {V : Type} {f : V → V} {m : Map Str V} {k : Str} {v : V}
    (h : (jsonMap f m).lookup k = some v) : ∃ k' v', m.lookup k' = some v' ∧ jsonStr k' = k ∧ f v' = v := by
  rcases Map.lookup_insertAll_eq_some h with ⟨e, he, hk, hv⟩ | ⟨hempty, -⟩
  case inl => exact ⟨e.1, e.2, Map.mem_entries_iff.mp ((List.mem_insertionSort _).mp he), hk, hv⟩
  case inr => cases hempty

theorem jsonMap_lookup_iff {V : Type} {f : V → V} (hf : ∀ v, f (f v) = f v) {m : Map Str V} :
    (∀ k, (jsonMap f m).lookup k = m.lookup k) ↔ ∀ k v, m.lookup k = some v → ValidUtf8 k ∧ f v = v := by
  simp only [← jsonStr_eq_self_iff]
  exact Map.lookup_insertAll_eq_iff jsonStr_jsonStr hf (List.perm_insertionSort _ _)

-- Go maps have no order, so that two of them are the same when they have the same entries.
def Message.Same (m m' : Message) : Prop :=
  m' = { m with metadata := m'.metadata } ∧ ∀ k, m'.metadata.lookup k = m.metadata.lookup k

def OutboxItem.Same (a a' : OutboxItem) : Prop :=
  a' = { a with payload := { a.payload with metadata := a'.payload.metadata } } ∧
    ∀ k, a'.payload.metadata.lookup k = a.payload.metadata.lookup k

def metadataStrings (m : Map Str Str) : List Str :=
  m.entries.flatMap fun e => [e.1, e.2]

def Message.strings (m : Message) : List Str :=
  [m.id, m.providerID, m.tenantID, m.accountID, m.clientMsgID, m.sender, m.dest, m.text, m.encoding, m.route,
    m.provider, m.sourceKind, m.sourceID, m.state] ++ m.segments.map Segment.text ++ metadataStrings m.metadata

def Pending.strings (p : Pending) : List Str :=
  [p.providerID, p.gatewayID, p.tenantID, p.accountID, p.clientMsgID, p.sourceSession, p.sourceSystem, p.callbackURL,
    p.callbackRule, p.sender, p.dest, p.text, p.provider, p.route, p.dlrState]

def OutboxPayload.strings (p : OutboxPayload) : List Str :=
  [p.gatewayID, p.tenantID, p.accountID, p.clientMsgID, p.provider, p.route, p.sender, p.dest, p.text, p.encoding,
    p.sourceSession, p.sourceSystem, p.callbackURL, p.callbackRule] ++ metadataStrings p.metadata

-- The name of the worker is dropped with a claim.
def OutboxItem.strings (item : OutboxItem) : List Str :=
  [item.gatewayID, item.provider, item.lastError] ++ (if item.state = .claimed then [] else [item.claimedBy]) ++
    item.payload.strings

theorem metadataStrings_valid_iff {m : Map Str Str} : (∀ x ∈ metadataStrings m, ValidUtf8 x) ↔
    ∀ k, (jsonMap jsonStr m).lookup k = m.lookup k := by
  rw [jsonMap_lookup_iff jsonStr_jsonStr]
  simp only [jsonStr_eq_self_iff, metadataStrings, List.mem_flatMap, forall_exists_index, and_imp]
  constructor
  case mp =>
    intro h k v hk
    have he := Map.mem_entries_iff.mpr hk
    exact ⟨h k _ he (by simp), h v _ he (by simp)⟩
  case mpr =>
    intro h x e he hx
    obtain ⟨hk, hv⟩ := h e.1 e.2 (Map.mem_entries_iff.mp he)
    rcases List.mem_pair.mp hx with rfl | rfl
    case inl => exact hk
    case inr => exact hv

theorem Segment.map_json_eq_iff {l : List Segment} :
    l.map Segment.json = l ↔ ∀ x ∈ l.map Segment.text, ValidUtf8 x := by
  induction l
  case nil => simp
  case cons seg l hi =>
    obtain ⟨⟩ := seg
    simp [hi, json, jsonStr_eq_self_iff]

theorem Message.same_json_iff {m : Message} : m.Same m.json ↔ ∀ x ∈ m.strings, ValidUtf8 x := by
  simp only [Same, strings, List.forall_mem_append, metadataStrings_valid_iff, ← Segment.map_json_eq_iff]
  simp only [json, List.forall_mem_cons, ← jsonStr_eq_self_iff, Message.mk.injEq]
  simp [and_assoc]

theorem Pending.json_eq_iff {p : Pending} : p.json = p ↔ ∀ x ∈ p.strings, ValidUtf8 x := by
  obtain ⟨⟩ := p
  simp [json, strings, ← jsonStr_eq_self_iff]

inductive OutboxItem.Reopens (a b : OutboxItem) : Prop
  | claimed (state : a.state = .claimed) (same : Same { a with state := .pending, claimedBy := [], claimedAt := 0 } b)
  | other (state : a.state ≠ .claimed) (same : Same a b)

theorem OutboxItem.same_json_iff {a : OutboxItem} : a.Same a.json ↔
    ValidUtf8 a.claimedBy ∧ ∀ x ∈ [a.gatewayID, a.provider, a.lastError] ++ a.payload.strings, ValidUtf8 x := by
  simp only [Same, OutboxPayload.strings, List.forall_mem_append, metadataStrings_valid_iff]
  obtain ⟨id, gatewayID, provider, ⟨⟩⟩ := a
  simp [json, OutboxPayload.json, ← jsonStr_eq_self_iff]
  grind

theorem OutboxItem.reopens_json_iff {a : OutboxItem} :
    a.Reopens (MemoryStore.reloadItem a.json) ↔ ∀ x ∈ a.strings, ValidUtf8 x := by
  have hstate : a.json.state = a.state := rfl
  by_cases h : a.state = .claimed
  case pos =>
    let b : OutboxItem := { a with state := .pending, claimedBy := [], claimedAt := 0 }
    have hreload : MemoryStore.reloadItem a.json = b.json := by
      rw [MemoryStore.reloadItem, if_pos (hstate.trans h)]
      rfl
    have hsame : a.Reopens b.json ↔ b.Same b.json :=
      ⟨fun hr => by cases hr <;> trivial, .claimed h⟩
    rw [hreload, hsame, same_json_iff]
    simp only [strings, h, if_true, List.append_nil]
    exact and_iff_right ⟨[], rfl⟩
  case neg =>
    have hreload : MemoryStore.reloadItem a.json = a.json := by
      rw [MemoryStore.reloadItem, if_neg (hstate ▸ h)]
    have hsame : a.Reopens a.json ↔ a.Same a.json :=
      ⟨fun hr => by cases hr <;> trivial, .other h⟩
    rw [hreload, hsame, same_json_iff]
    simp only [strings, h, if_false, List.forall_mem_append, List.forall_mem_singleton]
    tauto

-- Two stores are the same to every caller: they have the same messages at the same places, and the same rows and
-- entries under the same keys.
structure MemoryStore.Reopens (s t : MemoryStore) : Prop where
  messages    : List.Forall₂ Message.Same s.messages t.messages
  index       : ∀ id, t.messageByID.lookup id = s.messageByID.lookup id
  outbox      : ∀ id, Option.Rel OutboxItem.Reopens (s.outbox.lookup id) (t.outbox.lookup id)
  pending     : ∀ k, t.pending.lookup k = s.pending.lookup k
  idempotency : ∀ k, t.idempotency.lookup k = s.idempotency.lookup k
  quotaUsage  : ∀ k, t.quotaUsage.lookup k = s.quotaUsage.lookup k
  nextOutbox  : t.nextOutbox = s.nextOutbox
  gatewaySeq  : s.gatewaySeq ≤ t.gatewaySeq

structure MemoryStore.Utf8 (s : MemoryStore) : Prop where
  messages    : ∀ m ∈ s.messages, ∀ x ∈ m.strings, ValidUtf8 x
  outbox      : ∀ {id item}, s.outbox.lookup id = some item → ∀ x ∈ item.strings, ValidUtf8 x
  pending     : ∀ {k p}, s.pending.lookup k = some p → ∀ x ∈ p.strings, ValidUtf8 x
  idempotency : ∀ {k rec}, s.idempotency.lookup k = some rec → ValidUtf8 k.1 ∧ ValidUtf8 k.2 ∧ ValidUtf8 rec.gatewayID
  quotaUsage  : ∀ {k used}, s.quotaUsage.lookup k = some used → ValidUtf8 k.1 ∧ ValidUtf8 k.2

def PendingWF (pending : Map Str Pending) : Prop :=
  ∀ k p, pending.lookup k = some p → p.key = k ∧ normalizePending p = p

def IndexWF (s : MemoryStore) : Prop :=
  ∀ id, s.messageByID.lookup id = (MemoryStore.indexMessages s.messages).lookup id

structure StoreWF (s : MemoryStore) : Prop where
  outbox  : OutboxWF s
  next    : 0 ≤ s.nextOutbox
  index   : IndexWF s
  pending : PendingWF s.pending

namespace MemoryStore

variable {s : MemoryStore}

theorem indexMessages_congr {l l' : List Message} (h : l.map Message.id = l'.map Message.id) :
    indexMessages l = indexMessages l' := by
  have hids : ∀ l : List Message, indexMessages l = Map.insertAll (·.1) (·.2) ∅ (l.map Message.id).zipIdx := by
    intro l
    rw [List.zipIdx_map, Map.insertAll_map]
    rfl
  rw [hids l, hids l', h]

theorem load_messages_iff :
    List.Forall₂ Message.Same s.messages (load s.snapshot.json).messages ↔
      ∀ m ∈ s.messages, ∀ x ∈ m.strings, ValidUtf8 x := by
  change List.Forall₂ _ s.messages (s.messages.map Message.json) ↔ _
  rw [List.forall₂_map_right_iff, List.forall₂_same]
  exact forall₂_congr fun m _ => Message.same_json_iff

theorem load_outbox_iff : (∀ id, Option.Rel OutboxItem.Reopens (s.outbox.lookup id)
      ((load s.snapshot.json).outbox.lookup id)) ↔
    ∀ id item, s.outbox.lookup id = some item → ∀ x ∈ item.strings, ValidUtf8 x := by
  refine forall_congr' fun id => ?_
  rw [load_lookup, snapshot_lookup, Option.map_map]
  cases s.outbox.lookup id
  case none => simp
  case some item =>
    rw [Option.map_some, Option.rel_some_some, Function.comp, OutboxItem.reopens_json_iff]
    simp

theorem load_pending_iff (wf : StoreWF s) :
    (∀ k, (load s.snapshot.json).pending.lookup k = s.pending.lookup k) ↔
      ∀ k p, s.pending.lookup k = some p → ∀ x ∈ p.strings, ValidUtf8 x := by
  constructor
  case mp =>
    intro h k p hk
    rcases Map.lookup_insertAll_eq_some ((h k).trans hk) with ⟨q, hq, -, rfl⟩ | ⟨hempty, -⟩
    case inr => cases hempty
    case inl =>
      obtain ⟨e, he, rfl⟩ := List.mem_map.mp hq
      obtain ⟨-, p, -, -, hp⟩ := jsonMap_eq_some (Map.mem_entries_iff.mp he)
      have hstrings : (normalizePending e.2).strings = p.strings.map jsonStr := by rw [← hp]; rfl
      rw [hstrings]
      intro x hx
      obtain ⟨y, -, rfl⟩ := List.mem_map.mp hx
      exact validUtf8_jsonStr y
  case mpr =>
    intro h
    have hjson : ∀ k, (jsonMap Pending.json s.pending).lookup k = s.pending.lookup k := by
      refine (jsonMap_lookup_iff fun p => ?_).mpr fun k p hk => ⟨?_, Pending.json_eq_iff.mpr (h k p hk)⟩
      case refine_1 => simp [Pending.json]
      case refine_2 =>
        have hvalid := h k p hk
        rw [← (wf.pending k p hk).1]
        exact (hvalid p.provider (by simp [Pending.strings])).pendingKey (hvalid p.providerID (by simp [Pending.strings]))
    intro k
    rw [← hjson k]
    refine Map.lookup_insertAll_perm (.of_eq ?_)
    rw [List.map_map]
    refine (List.map_congr_left fun e he => ?_).trans (List.map_id _)
    have hrow := (hjson e.1).symm.trans (Map.mem_entries_iff.mp he)
    obtain ⟨hkey, hnormal⟩ := wf.pending e.1 e.2 hrow
    have hkey : pendingKey e.2.provider e.2.providerID = e.1 := hkey
    simp only [Function.comp, hkey, hnormal]
    rfl

theorem load_idempotency_iff :
    (∀ k, (load s.snapshot.json).idempotency.lookup k = s.idempotency.lookup k) ↔
      ∀ k rec, s.idempotency.lookup k = some rec → ValidUtf8 k.1 ∧ ValidUtf8 k.2 ∧ ValidUtf8 rec.gatewayID := by
  have hload : (load s.snapshot.json).idempotency =
      Map.insertAll (fun e => (jsonStr e.1.1, jsonStr e.1.2))
        (fun e => ⟨jsonStr e.2.gatewayID, e.2.expiresAt⟩) ∅ s.idempotency.entries := by
    simp only [load, snapshot, FileSnapshot.json, Map.insertAll_map]
    rfl
  rw [hload]
  refine (Map.lookup_insertAll_eq_iff (κ := fun k => (jsonStr k.1, jsonStr k.2)) (by simp)
    (φ := fun rec => IdempotencyRecord.mk (jsonStr rec.gatewayID) rec.expiresAt) (by simp) (.refl _)).trans ?_
  refine forall₃_congr fun k rec _ => ?_
  obtain ⟨⟩ := rec
  simp [Prod.ext_iff, jsonStr_eq_self_iff, and_assoc]

theorem load_quotaUsage_iff :
    (∀ k, (load s.snapshot.json).quotaUsage.lookup k = s.quotaUsage.lookup k) ↔
      ∀ k used, s.quotaUsage.lookup k = some used → ValidUtf8 k.1 ∧ ValidUtf8 k.2 := by
  have hload : (load s.snapshot.json).quotaUsage =
      Map.insertAll (fun e => (jsonStr e.1.1, jsonStr e.1.2)) (fun e => e.2) ∅ s.quotaUsage.entries := by
    simp only [load, snapshot, FileSnapshot.json, Map.insertAll_map]
    rfl
  rw [hload]
  refine (Map.lookup_insertAll_eq_iff (κ := fun k => (jsonStr k.1, jsonStr k.2)) (by simp) (φ := id) (by simp)
    (.refl _)).trans ?_
  simp [Prod.ext_iff, jsonStr_eq_self_iff]

theorem load_nextOutbox (wf : StoreWF s) : (load s.snapshot.json).nextOutbox = s.nextOutbox := by
  refine max_eq_right ?_
  have hkeys : ∀ k ∈ s.snapshot.json.outbox.keys, k ≤ s.nextOutbox := by
    intro k hk
    obtain ⟨item, hitem⟩ := Option.isSome_iff_exists.mp (AList.lookup_isSome.mpr (AList.mem_keys.mpr hk))
    exact (snapshot_wf wf.outbox).bounded hitem
  have hfold : ∀ (l : List Int) (n : Int), n ≤ s.nextOutbox → (∀ k ∈ l, k ≤ s.nextOutbox) →
      l.foldl max n ≤ s.nextOutbox := by
    intro l
    induction l
    case nil => exact fun n hn _ => hn
    case cons k l hi =>
      intro n hn hl
      obtain ⟨hk, hl⟩ := List.forall_mem_cons.mp hl
      exact hi _ (max_le hn hk) hl
  exact hfold _ 0 wf.next hkeys

theorem reopens_load_iff (wf : StoreWF s) : s.Reopens (load s.snapshot.json) ↔ s.Utf8 := by
  constructor
  case mp =>
    exact fun h => ⟨load_messages_iff.mp h.messages, load_outbox_iff.mp h.outbox _ _,
      (load_pending_iff wf).mp h.pending _ _, load_idempotency_iff.mp h.idempotency _ _,
      load_quotaUsage_iff.mp h.quotaUsage _ _⟩
  case mpr =>
    intro h
    have hids : (s.messages.map Message.json).map Message.id = s.messages.map Message.id := by
      rw [List.map_map]
      refine List.map_congr_left fun m hm => ?_
      exact jsonStr_eq_self_iff.mpr (h.messages m hm m.id (by simp [Message.strings]))
    constructor
    case messages => exact load_messages_iff.mpr h.messages
    case index =>
      intro id
      rw [wf.index id, ← indexMessages_congr hids]
      rfl
    case outbox => exact load_outbox_iff.mpr fun _ _ => h.outbox
    case pending => exact (load_pending_iff wf).mpr fun _ _ => h.pending
    case idempotency => exact load_idempotency_iff.mpr fun _ _ => h.idempotency
    case quotaUsage => exact load_quotaUsage_iff.mpr fun _ _ => h.quotaUsage
    case nextOutbox => exact load_nextOutbox wf
    case gatewaySeq => exact le_load_gatewaySeq s.snapshot.json

end MemoryStore

inductive StoreCall
  | outbox (op : StoreOp)
  | updateMessageSent (now : Time) (gatewayID providerID : Str)
  | updateMessageState (now : Time) (gatewayID state : Str) (errCode : Int)
  | savePending (now : Time) (p : Pending)
  | getPending (now : Time) (provider providerID : Str)
  | listPendingByGatewayID (now : Time) (gatewayID : Str)
  | listReadyDLR (now : Time) (order : List Str) (systemID : Str) (limit : Int)
  | pendingSize (now : Time)
  | updatePendingDLR (provider providerID state : Str) (errCode : Int) (doneAt : Time)
  | markDLRReady (provider providerID state : Str) (errCode : Int) (doneAt : Time)
  | markDLRDelivered (provider providerID : Str)
  | deletePending (provider providerID : Str)
  | deletePendingByGatewayID (gatewayID : Str)
  | sweepExpiredPending (before : Time)
  | reserveGatewayIDRange (span : UInt64)
  | checkIdempotency (now : Time) (clientID key : Str)
  | saveIdempotency (now : Time) (gatewayID : Str) (opts : IdempotencyOptions)

def StoreCall.exec (s : MemoryStore) : StoreCall → MemoryStore
  | outbox op                                     => op.step s
  | updateMessageSent now gatewayID providerID    => (s.updateMessageSent now gatewayID providerID).2
  | updateMessageState now gatewayID state errCode => (s.updateMessageState now gatewayID state errCode).2
  | savePending now p                             => (s.savePending now p).2
  | getPending now provider providerID            => (s.getPending now provider providerID).2
  | listPendingByGatewayID now gatewayID          => (s.listPendingByGatewayID now gatewayID).2
  | listReadyDLR now order systemID limit         => (s.listReadyDLR now order systemID limit).2
  | pendingSize now                               => s.sweepLocked now
  | updatePendingDLR provider providerID state errCode doneAt =>
    (s.updatePendingDLR provider providerID state errCode doneAt).2
  | markDLRReady provider providerID state errCode doneAt =>
    (s.markDLRReady provider providerID state errCode doneAt).2
  | markDLRDelivered provider providerID          => (s.markDLRDelivered provider providerID).2
  | deletePending provider providerID             => (s.deletePending provider providerID).2
  | deletePendingByGatewayID gatewayID            => (s.deletePendingByGatewayID gatewayID).2
  | sweepExpiredPending before                    => (s.sweepExpiredPending before).2
  | reserveGatewayIDRange span                    => (s.reserveGatewayIDRange span).2
  | checkIdempotency now clientID key             => (s.checkIdempotency now clientID key).2
  | saveIdempotency now gatewayID opts            => (s.saveIdempotency now gatewayID opts).2

-- A call changes the memory, the write after it comes at any later moment or fails, and the process may end.
inductive ReopenEvent
  | exec (call : StoreCall)
  | persist
  | restart

theorem normalizePending_eq_iff {p : Pending} :
    normalizePending p = p ↔ 0 < p.segmentIndex ∧ 0 < p.segmentCount := by
  obtain ⟨⟩ := p
  simp only [normalizePending, Pending.mk.injEq, true_and, and_true, ite_eq_right_iff]
  constructor
  case mp => intro h; omega
  case mpr => intro h; omega

theorem normalizePending_normalizePending (p : Pending) :
    normalizePending (normalizePending p) = normalizePending p := by
  refine normalizePending_eq_iff.mpr ⟨?_, ?_⟩ <;>
  · simp only [normalizePending]
    split <;> omega

namespace PendingWF

variable {m : Map Str Pending}

theorem filter (h : PendingWF m) (f : Str → Pending → Bool) : PendingWF (m.filter f) :=
  fun k p hk => h k p (Map.lookup_filter_eq_some.mp hk).1

theorem erase (h : PendingWF m) (key : Str) : PendingWF (m.erase key) := by
  intro k p hk
  rw [Map.lookup_erase_eq] at hk
  split at hk
  case isTrue => cases hk
  case isFalse => exact h k p hk

theorem insert (h : PendingWF m) {row : Pending} (hn : normalizePending row = row) : PendingWF (m.insert row.key row) := by
  intro k p hk
  rw [Map.lookup_insert_eq] at hk
  split at hk
  case isTrue heq => cases hk; exact ⟨heq.symm, hn⟩
  case isFalse => exact h k p hk

theorem insertAll (h : PendingWF m) {rows : List Pending} (hn : ∀ row ∈ rows, normalizePending row = row) :
    PendingWF (Map.insertAll (fun r => pendingKey r.provider r.providerID) (·) m rows) := by
  intro k p hk
  rcases Map.lookup_insertAll_eq_some hk with ⟨row, hrow, hkey, rfl⟩ | ⟨hold, -⟩
  case inl => exact ⟨hkey, hn row hrow⟩
  case inr => exact h k p hold

theorem modifyPending {s : MemoryStore} (h : PendingWF s.pending) (provider providerID : Str) {f : Pending → Pending}
    (hkey : ∀ p, (f p).key = p.key) (hn : ∀ p, (f p).segmentIndex = p.segmentIndex ∧ (f p).segmentCount = p.segmentCount) :
    PendingWF (s.modifyPending provider providerID f).2.pending := by
  unfold MemoryStore.modifyPending
  split
  case h_1 => exact h
  case h_2 p hp =>
    obtain ⟨hk, hnormal⟩ := h _ p hp
    have hafter : normalizePending (f p) = f p := by
      rw [normalizePending_eq_iff, (hn p).1, (hn p).2]
      exact normalizePending_eq_iff.mp hnormal
    have hins := h.insert hafter
    rwa [hkey, hk] at hins

end PendingWF

namespace IndexWF

variable {s s' : MemoryStore}

theorem congr (h : IndexWF s) (hindex : s'.messageByID = s.messageByID) (hids : s'.ids = s.ids) : IndexWF s' := by
  intro id
  rw [hindex, h id, MemoryStore.indexMessages_congr hids.symm]

theorem putMessage (h : IndexWF s) (msg : Message) : IndexWF (s.putMessage msg) := by
  unfold MemoryStore.putMessage
  split
  case h_1 i hi =>
    refine h.congr rfl ?_
    obtain ⟨hlt, hid⟩ := List.getElem?_eq_some_iff.mp (MemoryStore.indexMessages_getElem? ((h _).symm.trans hi))
    simp only [MemoryStore.ids, List.map_set]
    rw [← hid]
    exact List.set_getElem_self hlt
  case h_2 =>
    unfold MemoryStore.trimMessagesLocked
    split
    case isFalse => exact fun _ => rfl
    case isTrue =>
      intro id
      rw [MemoryStore.indexMessages_snoc, Map.lookup_insert_eq, Map.lookup_insert_eq, h id]

theorem logStep (h : IndexWF s) {m : Option Message} (hstep : LogStep s s' m) : IndexWF s' := by
  cases hstep
  case same hindex hids _ => exact h.congr hindex hids
  case put msg hindex hids _ => exact (h.putMessage msg).congr hindex hids

end IndexWF

theorem MemoryStore.putMessage_pending {s : MemoryStore} {msg : Message} : (s.putMessage msg).pending = s.pending := by
  unfold putMessage trimMessagesLocked
  split
  case h_1 => rfl
  case h_2 => split <;> rfl

-- The receipts after a call on messages and outbox rows: as they were, swept, or with those of a finished send.
inductive StoreOp.PendingStep (s : MemoryStore) : Map Str Pending → Prop
  | same : PendingStep s s.pending
  | swept (now : Time) : PendingStep s (s.sweepLocked now).pending
  | completed (ps : List Pending) : PendingStep s
      (Map.insertAll (fun r => pendingKey r.provider r.providerID) (·) s.pending (ps.map normalizePending))

theorem StoreOp.exec_pending (s : MemoryStore) (op : StoreOp) : PendingStep s (op.exec s).2.pending := by
  cases op <;> simp only [exec, reply]
  case saveMessage msg => rw [MemoryStore.saveMessage, MemoryStore.putMessage_pending]; exact .same
  case enqueueOutbox | claimOutbox | requeueStaleOutbox => exact .same
  case submitAtomic now msg item opts =>
    cases s.submitAtomic_cases now msg item opts
    case duplicate eq => rw [eq]; exact .swept now
    case refused eq => rw [eq]; exact .swept now
    case accepted d fresh debit eq =>
      obtain ⟨i, hi⟩ := MemoryStore.rememberKey_frame d now msg.id opts.idempotency
      obtain ⟨q, rfl⟩ := MemoryStore.debitQuota_frame debit
      rw [eq, MemoryStore.putOutbox, MemoryStore.putMessage_pending, hi]
      exact .swept now
  case completeOutboxSend now id workerID ps =>
    unfold MemoryStore.completeOutboxSend
    split
    case h_1 => exact .same
    case h_2 =>
      split
      case isTrue => exact .same
      case isFalse =>
        split
        case isTrue => exact .same
        case isFalse =>
          split
          case h_1 => exact .same
          case h_2 recs hv =>
            split
            case isFalse => exact .same
            case isTrue =>
              simp only [MemoryStore.modifyMessage_pending, (validateOutboxCompletion_ok hv).1]
              exact .completed ps
  case markOutboxUncertain =>
    unfold MemoryStore.markOutboxUncertain
    repeat' split
    case _ => exact .same
    case _ => exact .same
    case _ => exact .same
    case _ => rw [MemoryStore.modifyMessage_pending]; exact .same
  case markOutboxSending =>
    unfold MemoryStore.markOutboxSending
    repeat' split
    all_goals exact .same
  case ackOutbox =>
    unfold MemoryStore.ackOutbox
    repeat' split
    all_goals exact .same
  case failOutbox =>
    unfold MemoryStore.failOutbox
    repeat' split
    all_goals exact .same

theorem PendingWF.pendingStep {s : MemoryStore} (h : PendingWF s.pending) {m : Map Str Pending}
    (hm : StoreOp.PendingStep s m) : PendingWF m := by
  cases hm
  case same => exact h
  case swept => exact h.filter _
  case completed ps =>
    refine h.insertAll fun row hrow => ?_
    obtain ⟨p, -, rfl⟩ := List.mem_map.mp hrow
    exact normalizePending_normalizePending p

namespace StoreWF

variable {s s' : MemoryStore}

theorem of_frame (wf : StoreWF s) (houtbox : s'.outbox = s.outbox) (hnext : s'.nextOutbox = s.nextOutbox)
    (hindex : IndexWF s') (hpending : PendingWF s'.pending) : StoreWF s' where
  outbox  := ⟨fun h => wf.outbox.keyed (houtbox ▸ h), fun h => hnext ▸ wf.outbox.bounded (houtbox ▸ h)⟩
  next    := hnext ▸ wf.next
  index   := hindex
  pending := hpending

theorem modifyPending (wf : StoreWF s) (provider providerID : Str) {f : Pending → Pending}
    (hkey : ∀ p, (f p).key = p.key) (hn : ∀ p, (f p).segmentIndex = p.segmentIndex ∧ (f p).segmentCount = p.segmentCount) :
    StoreWF (s.modifyPending provider providerID f).2 := by
  have hpending := wf.pending.modifyPending provider providerID hkey hn
  unfold MemoryStore.modifyPending at hpending ⊢
  split at hpending
  case h_1 => exact wf
  case h_2 => exact wf.of_frame rfl rfl wf.index hpending

theorem modifyMessage (wf : StoreWF s) (g : Str) {f : Message → Message} (hf : ∀ msg, (f msg).id = msg.id) :
    StoreWF (s.modifyMessage g f) :=
  wf.of_frame MemoryStore.modifyMessage_outbox MemoryStore.modifyMessage_nextOutbox
    (wf.index.logStep (MemoryStore.modifyMessage_log hf)) (by rw [MemoryStore.modifyMessage_pending]; exact wf.pending)

theorem sweepLocked (wf : StoreWF s) (now : Time) : StoreWF (s.sweepLocked now) :=
  wf.of_frame rfl rfl wf.index (wf.pending.filter _)

theorem call (wf : StoreWF s) (call : StoreCall) : StoreWF (call.exec s) := by
  cases call <;> simp only [StoreCall.exec]
  case outbox op =>
    exact ⟨op.exec_wf wf.outbox, wf.next.trans op.exec_nextOutbox_le, wf.index.logStep op.exec_log,
      wf.pending.pendingStep (op.exec_pending s)⟩
  case updateMessageSent =>
    unfold MemoryStore.updateMessageSent
    split
    case isTrue => exact wf.modifyMessage _ fun _ => rfl
    case isFalse => exact wf
  case updateMessageState =>
    unfold MemoryStore.updateMessageState
    split
    case isTrue => exact wf.modifyMessage _ fun _ => rfl
    case isFalse => exact wf
  case savePending now p =>
    exact (wf.sweepLocked now).of_frame rfl rfl wf.index
      ((wf.sweepLocked now).pending.insert (normalizePending_normalizePending p))
  case getPending now provider providerID =>
    have hs := wf.sweepLocked now
    unfold MemoryStore.getPending
    simp only
    split
    case h_1 => exact hs
    case h_2 =>
      split
      case isTrue => exact hs.of_frame rfl rfl hs.index (hs.pending.erase _)
      case isFalse => exact hs
  case listPendingByGatewayID | listReadyDLR | pendingSize => exact wf.sweepLocked _
  case updatePendingDLR | markDLRReady | markDLRDelivered =>
    exact wf.modifyPending _ _ (fun _ => rfl) fun _ => ⟨rfl, rfl⟩
  case deletePending => exact wf.of_frame rfl rfl wf.index (wf.pending.erase _)
  case deletePendingByGatewayID => exact wf.of_frame rfl rfl wf.index (wf.pending.filter _)
  case sweepExpiredPending => exact wf.of_frame rfl rfl wf.index (wf.pending.filter _)
  case reserveGatewayIDRange => exact wf.of_frame rfl rfl wf.index wf.pending
  case checkIdempotency now clientID key =>
    have hs := wf.sweepLocked now
    unfold MemoryStore.checkIdempotency
    split
    case h_1 => exact wf
    case h_2 =>
      simp only
      split
      case h_1 => exact hs
      case h_2 =>
        split
        case isTrue => exact hs.of_frame rfl rfl hs.index hs.pending
        case isFalse => exact hs
  case saveIdempotency now gatewayID opts =>
    have hs := wf.sweepLocked now
    unfold MemoryStore.saveIdempotency
    split
    case h_1 => exact wf
    case h_2 =>
      obtain ⟨i, hi⟩ := MemoryStore.rememberKey_frame (s.sweepLocked now) now gatewayID opts
      rw [hi]
      exact hs.of_frame rfl rfl hs.index hs.pending

theorem newMemory : StoreWF newMemory where
  outbox  := .newMemory
  next    := le_rfl
  index _ := rfl
  pending := fun _ _ h => nomatch h

theorem load {snap : FileSnapshot} (wf : SnapshotWF snap) : StoreWF (.load snap) where
  outbox  := MemoryStore.load_wf wf
  next    := by
    have hfold : ∀ (l : List Int) (n : Int), n ≤ l.foldl max n := by
      intro l
      induction l
      case nil => exact fun n => le_rfl
      case cons k l hi => exact fun n => (le_max_left n k).trans (hi _)
    exact (hfold _ 0).trans (le_max_left _ _)
  index _ := rfl
  pending := by
    intro k p hk
    rcases Map.lookup_insertAll_eq_some hk with ⟨q, -, hkey, rfl⟩ | ⟨hempty, -⟩
    case inl => exact ⟨hkey, normalizePending_normalizePending q⟩
    case inr => cases hempty

end StoreWF

def FileStore.reopenStep (s : FileStore) : ReopenEvent → FileStore
  | .exec call => { s with mem := call.exec s.mem }
  | .persist   => { s with disk := some s.mem.snapshot.json }
  | .restart   => s.restart

structure ReopenInv (s : FileStore) : Prop where
  mem  : StoreWF s.mem
  disk : ∀ {snap}, s.disk = some snap → SnapshotWF snap

theorem ReopenInv.step {s : FileStore} (h : ReopenInv s) (e : ReopenEvent) : ReopenInv (s.reopenStep e) := by
  cases e
  case exec call => exact ⟨h.mem.call call, h.disk⟩
  case persist => exact ⟨h.mem, fun hd => by cases hd; exact MemoryStore.snapshot_wf h.mem.outbox⟩
  case restart =>
    refine ⟨?_, h.disk⟩
    cases hd : s.disk
    case none => simpa [FileStore.reopenStep, FileStore.restart, hd] using StoreWF.newMemory
    case some snap => simpa [FileStore.reopenStep, FileStore.restart, hd] using StoreWF.load (h.disk hd)

-- Whatever calls, writes and restarts have come before: what the store reads back from its file is what it has
-- exactly when all its strings are UTF-8.
theorem reopening_transparent_iff (es : List ReopenEvent) :
    let s := (run FileStore.reopenStep .empty es).mem
    s.Reopens (.load s.snapshot.json) ↔ s.Utf8 := by
  have hinv : ReopenInv (run FileStore.reopenStep .empty es) :=
    invariant (G := fun _ _ => True) ⟨.newMemory, fun h => nomatch h⟩ (.of_forall fun _ _ _ => trivial)
      fun _ e h _ => h.step e
  exact MemoryStore.reopens_load_iff hinv.mem

-- A message whose text is one byte of UCS-2, which is kept as it came, is sent under an id that is not UTF-8
-- either. After a restart its text is another one, and no receipt for it finds the row.
theorem reopening_loses_row :
    let id : Str := [0x41, 0xE9]
    let item : OutboxItem := { gatewayID := lit "m1", provider := lit "up", payload := { gatewayID := lit "m1" } }
    let s := (run FileStore.reopenStep .empty
      [.exec (.outbox (.submitAtomic 1 { id := lit "m1", text := [0xE9] } item {})),
        .exec (.outbox (.claimOutbox 1 (lit "w") 1)), .exec (.outbox (.markOutboxSending 1 (lit "w"))),
        .exec (.outbox (.completeOutboxSend 1 1 (lit "w")
          [{ providerID := id, gatewayID := lit "m1", provider := lit "up" }]))]).mem
    let t := MemoryStore.load s.snapshot.json
    s.messages.map Message.text = [[0xE9]] ∧ t.messages.map Message.text = [[0xEF, 0xBF, 0xBD]] ∧
      (s.getPending 2 (lit "up") id).1.isSome ∧ (t.getPending 2 (lit "up") id).1 = none ∧ ¬s.Reopens t := by
  refine ⟨by decide +kernel, by decide +kernel, by decide +kernel, by decide +kernel, fun h => ?_⟩
  exact absurd (h.pending (pendingKey (lit "up") [0x41, 0xE9])) (by decide +kernel)

end SmppGateway
