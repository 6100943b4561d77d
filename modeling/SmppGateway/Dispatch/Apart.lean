import SmppGateway.Dispatch.Provenance

-- Stores that agree on a portion of the messages, and what the calls of the store make of two such stores.

namespace SmppGateway

open Go Machine

def IdempotencyRecord.live (now : Time) (rec : IdempotencyRecord) : Bool :=
  !(rec.expiresAt != 0 && rec.expiresAt < now)

-- A portion of the messages: their ids, and the keys of their rows.
structure Portion where
  ids  : Str → Bool
  keys : Str → Bool

def Portion.has (p : Portion) (row : Pending) : Bool :=
  p.ids row.gatewayID

def Message.hide (p : Portion) (m : Message) : Message :=
  if p.ids m.id then m else { id := m.id, provider := m.provider }

-- The stores differ in rows and messages outside the portion, and in idempotency keys that are live at none of the
-- times at which a submission is still to come.
structure MemoryStore.Apart (p : Portion) (ts : List Time) (s s' : MemoryStore) : Prop where
  messages    : s.messages.map (Message.hide p) = s'.messages.map (Message.hide p)
  index       : s.messageByID = s'.messageByID
  rows        : ∀ k, (s.pending.lookup k).filter p.has = (s'.pending.lookup k).filter p.has
  outbox      : s.outbox = s'.outbox
  nextOutbox  : s.nextOutbox = s'.nextOutbox
  quotaUsage  : s.quotaUsage = s'.quotaUsage
  maxMessages : s.maxMessages = s'.maxMessages
  keys        : ∀ t ∈ ts, ∀ k,
    (s.idempotency.lookup k).filter (·.live t) = (s'.idempotency.lookup k).filter (·.live t)

namespace Message

variable {p : Portion} {m : Message}

@[simp]
theorem hide_id : (m.hide p).id = m.id := by
  unfold hide; split <;> rfl

@[simp]
theorem hide_provider : (m.hide p).provider = m.provider := by
  unfold hide; split <;> rfl

theorem hide_of_mem (h : p.ids m.id) : m.hide p = m :=
  if_pos h

theorem hide_apply {f : Message → Message} (hf : ∀ m, (f m).id = m.id ∧ (f m).provider = m.provider) :
    (f m).hide p = if p.ids (m.hide p).id then f (m.hide p) else m.hide p := by
  obtain ⟨hid, hprovider⟩ := hf m
  rw [hide_id]
  by_cases h : p.ids m.id
  case pos => rw [if_pos h, hide_of_mem h, hide_of_mem (hid ▸ h)]
  case neg => rw [if_neg h, hide, hide, if_neg (hid ▸ h), if_neg h, hid, hprovider]

end Message

theorem filter_comm {α : Type} (o : Option α) (p q : α → Bool) : (o.filter p).filter q = (o.filter q).filter p := by
  rw [Option.filter_filter, Option.filter_filter]
  simp only [Bool.and_comm]

theorem filter_of_imp {α : Type} {o : Option α} {p q : α → Bool} (h : ∀ x ∈ o, p x → q x) :
    o.filter p = (o.filter q).filter p := by
  rw [Option.filter_filter]
  cases o
  case none => rfl
  case some x => by_cases hp : p x <;> simp [Option.filter_some, hp, h x rfl]

theorem MemoryStore.sweepLocked_keys {s : MemoryStore} {now : Time} {k : Str × Str} :
    (s.sweepLocked now).idempotency.lookup k = (s.idempotency.lookup k).filter (·.live now) :=
  Map.lookup_filter

namespace MemoryStore.Apart

variable {p : Portion} {ts : List Time} {s s' s'' : MemoryStore} {now : Time}

theorem refl (s : MemoryStore) : Apart p ts s s :=
  ⟨rfl, rfl, fun _ => rfl, rfl, rfl, rfl, rfl, fun _ _ _ => rfl⟩

theorem symm (h : Apart p ts s s') : Apart p ts s' s :=
  ⟨h.messages.symm, h.index.symm, fun k => (h.rows k).symm, h.outbox.symm, h.nextOutbox.symm, h.quotaUsage.symm,
    h.maxMessages.symm, fun t ht k => (h.keys t ht k).symm⟩

theorem trans (h : Apart p ts s s') (h' : Apart p ts s' s'') : Apart p ts s s'' :=
  ⟨h.messages.trans h'.messages, h.index.trans h'.index, fun k => (h.rows k).trans (h'.rows k),
    h.outbox.trans h'.outbox, h.nextOutbox.trans h'.nextOutbox, h.quotaUsage.trans h'.quotaUsage,
    h.maxMessages.trans h'.maxMessages, fun t ht k => (h.keys t ht k).trans (h'.keys t ht k)⟩

theorem mono {ts' : List Time} (h : Apart p ts s s') (hts : ts' ⊆ ts) : Apart p ts' s s' :=
  { h with keys := fun t ht => h.keys t (hts ht) }

theorem ids (h : Apart p ts s s') : s.messages.map Message.id = s'.messages.map Message.id := by
  have hids : ∀ l : List Message, l.map Message.id = (l.map (Message.hide p)).map Message.id := by
    intro l
    rw [List.map_map]
    exact List.map_congr_left fun m _ => Message.hide_id.symm
  rw [hids, h.messages, ← hids]

theorem withPending {m m' : Map Str Pending} (h : Apart p ts s s')
    (hrows : ∀ k, (m.lookup k).filter p.has = (m'.lookup k).filter p.has) :
    Apart p ts { s with pending := m } { s' with pending := m' } :=
  ⟨h.messages, h.index, hrows, h.outbox, h.nextOutbox, h.quotaUsage, h.maxMessages, h.keys⟩

theorem withOutbox (h : Apart p ts s s') (m : Map Int OutboxItem) :
    Apart p ts { s with outbox := m } { s' with outbox := m } :=
  ⟨h.messages, h.index, h.rows, rfl, h.nextOutbox, h.quotaUsage, h.maxMessages, h.keys⟩

theorem sweepLocked (h : Apart p ts s s') (now : Time) : Apart p ts (s.sweepLocked now) (s'.sweepLocked now) := by
  refine ⟨h.messages, h.index, fun k => ?_, h.outbox, h.nextOutbox, h.quotaUsage, h.maxMessages, fun t ht k => ?_⟩
  case refine_1 =>
    rw [sweepLocked_lookup, sweepLocked_lookup, filter_comm, h.rows k, filter_comm]
  case refine_2 =>
    rw [sweepLocked_keys, sweepLocked_keys, filter_comm, h.keys t ht k, filter_comm]

theorem modifyMessage (h : Apart p ts s s') (g : Str) {f : Message → Message}
    (hf : ∀ m, (f m).id = m.id ∧ (f m).provider = m.provider) :
    Apart p ts (s.modifyMessage g f) (s'.modifyMessage g f) := by
  unfold MemoryStore.modifyMessage
  rw [← h.index]
  split
  case h_2 => exact h
  case h_1 i _ =>
    have hmodify : ∀ l : List Message, (l.modify i f).map (Message.hide p) =
        (l.map (Message.hide p)).modify i fun m => if p.ids m.id then f m else m := by
      intro l
      ext1 j
      simp only [List.getElem?_map, List.getElem?_modify, Option.map_eq_map]
      cases l[j]?
      case none => rfl
      case some m =>
        simp only [Option.map_some, Option.some.injEq]
        split
        case isTrue => exact Message.hide_apply hf
        case isFalse => rfl
    refine ⟨?_, rfl, h.rows, h.outbox, h.nextOutbox, h.quotaUsage, h.maxMessages, h.keys⟩
    rw [hmodify, hmodify, h.messages]

theorem putMessage (h : Apart p ts s s') (msg : Message) : Apart p ts (s.putMessage msg) (s'.putMessage msg) := by
  unfold MemoryStore.putMessage
  rw [← h.index]
  split
  case h_1 i _ =>
    refine ⟨?_, rfl, h.rows, h.outbox, h.nextOutbox, h.quotaUsage, h.maxMessages, h.keys⟩
    rw [List.map_set, List.map_set, h.messages]
  case h_2 =>
    have hlength : s.messages.length = s'.messages.length := by
      have := congrArg List.length h.messages
      rwa [List.length_map, List.length_map] at this
    have hmap : (s.messages ++ [msg]).map (Message.hide p) = (s'.messages ++ [msg]).map (Message.hide p) := by
      rw [List.map_append, List.map_append, h.messages]
    have hids : (s.messages ++ [msg]).map Message.id = (s'.messages ++ [msg]).map Message.id := by
      rw [List.map_append, List.map_append, h.ids]
    simp only [trimMessagesLocked, List.length_append, ← h.maxMessages, ← hlength]
    split
    case isTrue => exact ⟨hmap, rfl, h.rows, h.outbox, h.nextOutbox, h.quotaUsage, rfl, h.keys⟩
    case isFalse =>
      refine ⟨?_, ?_, h.rows, h.outbox, h.nextOutbox, h.quotaUsage, rfl, h.keys⟩
      case refine_1 => rw [List.map_drop, List.map_drop, hmap]
      case refine_2 =>
        refine indexMessages_congr ?_
        rw [List.map_drop, List.map_drop, hids]

theorem updateMessageState (h : Apart p ts s s') (now : Time) (g state : Str) (errCode : Int) :
    Alike (Apart p ts) (s.updateMessageState now g state errCode) (s'.updateMessageState now g state errCode) := by
  unfold MemoryStore.updateMessageState
  rw [← h.index]
  split
  case isTrue => exact ⟨rfl, h.modifyMessage g fun _ => ⟨rfl, rfl⟩⟩
  case isFalse => exact ⟨rfl, h⟩

theorem insert {k : Str} (h : Apart p ts s s') (row : Pending) :
    Apart p ts { s with pending := s.pending.insert k row } { s' with pending := s'.pending.insert k row } := by
  refine h.withPending fun k' => ?_
  rw [Map.lookup_insert_eq, Map.lookup_insert_eq]
  split
  case isTrue => rfl
  case isFalse => exact h.rows k'

theorem savePending (h : Apart p ts s s') (now : Time) (row : Pending) :
    Apart p ts (s.savePending now row).2 (s'.savePending now row).2 :=
  (h.sweepLocked now).insert _

theorem deletePending (h : Apart p ts s s') (provider providerID : Str) :
    Apart p ts (s.deletePending provider providerID).2 (s'.deletePending provider providerID).2 := by
  refine h.withPending fun k => ?_
  rw [Map.lookup_erase_eq, Map.lookup_erase_eq]
  split
  case isTrue => rfl
  case isFalse => exact h.rows k

theorem deletePendingByGatewayID (h : Apart p ts s s') (g : Str) :
    Apart p ts (s.deletePendingByGatewayID g).2 (s'.deletePendingByGatewayID g).2 := by
  refine h.withPending fun k => ?_
  rw [Map.lookup_filter, Map.lookup_filter, filter_comm, h.rows k, filter_comm]

theorem insertAll (h : Apart p ts s s') (rows : List Pending) :
    Apart p ts { s with pending := Map.insertAll (fun r => pendingKey r.provider r.providerID) (·) s.pending rows }
      { s' with pending := Map.insertAll (fun r => pendingKey r.provider r.providerID) (·) s'.pending rows } := by
  induction rows generalizing s s'
  case nil => exact h
  case cons r rows ih => exact ih (h.insert r)

theorem completeOutboxSend (h : Apart p ts s s') (now : Time) (id : Int) (workerID : Str) (ps : List Pending) :
    Alike (Apart p ts) (s.completeOutboxSend now id workerID ps) (s'.completeOutboxSend now id workerID ps) := by
  unfold MemoryStore.completeOutboxSend
  rw [← h.outbox, ← h.index]
  split
  case h_1 => exact ⟨rfl, h⟩
  case h_2 item _ =>
    split
    case isTrue => exact ⟨rfl, h⟩
    case isFalse =>
      split
      case isTrue => exact ⟨rfl, h⟩
      case isFalse =>
        split
        case h_1 => exact ⟨rfl, h⟩
        case h_2 recs _ =>
          split
          case isTrue =>
            have hm := h.modifyMessage item.gatewayID (f := sentMessage now recs) fun _ => ⟨rfl, rfl⟩
            refine ⟨rfl, hm.messages, hm.index, (hm.insertAll recs).rows, ?_, hm.nextOutbox, hm.quotaUsage,
              hm.maxMessages, hm.keys⟩
            exact congrArg (AList.insert id { item with state := .done, payload := scrubOutboxPayload item.payload }) hm.outbox
          case isFalse => exact ⟨rfl, h⟩

theorem markOutboxUncertain (h : Apart p ts s s') (now : Time) (id : Int) (workerID errMsg : Str) :
    Alike (Apart p ts) (s.markOutboxUncertain now id workerID errMsg) (s'.markOutboxUncertain now id workerID errMsg) := by
  unfold MemoryStore.markOutboxUncertain
  rw [← h.outbox]
  split
  case h_1 => exact ⟨rfl, h⟩
  case h_2 item _ =>
    split
    case isTrue => exact ⟨rfl, h⟩
    case isFalse =>
      split
      case isTrue => exact ⟨rfl, h⟩
      case isFalse => exact ⟨rfl, (h.withOutbox _).modifyMessage item.gatewayID fun _ => ⟨rfl, rfl⟩⟩

theorem markOutboxSending (h : Apart p ts s s') (id : Int) (workerID : Str) :
    Alike (Apart p ts) (s.markOutboxSending id workerID) (s'.markOutboxSending id workerID) := by
  unfold MemoryStore.markOutboxSending
  rw [← h.outbox]
  split
  case h_1 => exact ⟨rfl, h⟩
  case h_2 item _ =>
    split
    case isTrue => exact ⟨rfl, h⟩
    case isFalse =>
      split
      case isTrue => exact ⟨rfl, h⟩
      case isFalse => exact ⟨rfl, h.withOutbox _⟩

theorem failOutbox (h : Apart p ts s s') (id : Int) (errMsg : Str) (next : Time) :
    Alike (Apart p ts) (s.failOutbox id errMsg next) (s'.failOutbox id errMsg next) := by
  unfold MemoryStore.failOutbox
  rw [← h.outbox]
  split
  case h_1 => exact ⟨rfl, h⟩
  case h_2 item _ =>
    split
    case isTrue =>
      split
      case isTrue => exact ⟨rfl, h⟩
      case isFalse => exact ⟨rfl, h.withOutbox _⟩
    case isFalse =>
      split
      case isTrue => exact ⟨rfl, h⟩
      case isFalse => exact ⟨rfl, h.withOutbox _⟩

theorem claimOutbox (h : Apart p ts s s') (now : Time) (workerID : Str) (limit : Int) :
    Alike (Apart p ts) (s.claimOutbox now workerID limit) (s'.claimOutbox now workerID limit) := by
  have hrows : s.claimCandidates now limit = s'.claimCandidates now limit := by
    unfold claimCandidates
    rw [h.outbox]
  unfold MemoryStore.claimOutbox
  rw [hrows, h.outbox]
  exact ⟨rfl, h.withOutbox _⟩

theorem requeueStaleOutbox (h : Apart p ts s s') (order : List Int) (before : Time) (limit : Int) :
    Apart p ts (s.requeueStaleOutbox order before limit).2 (s'.requeueStaleOutbox order before limit).2 := by
  unfold MemoryStore.requeueStaleOutbox
  rw [h.outbox]
  exact h.withOutbox _

theorem respects (d : Dispatcher) (item : OutboxItem) : item.Respects d (Apart p ts) where
  mark h             := h.markOutboxSending item.id item.claimedBy
  complete now ps h  := h.completeOutboxSend now item.id item.claimedBy ps
  doubt now reason h := h.markOutboxUncertain now item.id item.claimedBy reason
  update now _ _ h   := h.updateMessageState now item.gatewayID _ _
  queue now _ _ h    := h.savePending now _
  fail errMsg next h := h.failOutbox item.id errMsg next
  drop h             := h.deletePending _ _

theorem swept_keys (h : Apart p ts s s') (ht : now ∈ ts) (k : Str × Str) :
    (s.sweepLocked now).idempotency.lookup k = (s'.sweepLocked now).idempotency.lookup k := by
  rw [sweepLocked_keys, sweepLocked_keys, h.keys now ht k]

theorem debitQuota (h : Apart p ts s s') (quota : Option DailyQuotaDebit) :
    (∃ e, s.debitQuota quota = .error e ∧ s'.debitQuota quota = .error e) ∨
    ∃ q, s.debitQuota quota = .ok { s with quotaUsage := q } ∧ s'.debitQuota quota = .ok { s' with quotaUsage := q } := by
  unfold MemoryStore.debitQuota usage
  rw [h.quotaUsage]
  split
  case h_1 => exact .inr ⟨s'.quotaUsage, by rw [← h.quotaUsage], rfl⟩
  case h_2 =>
    split
    case isTrue => exact .inr ⟨s'.quotaUsage, by rw [← h.quotaUsage], rfl⟩
    case isFalse =>
      split
      case h_1 => exact .inl ⟨_, rfl, rfl⟩
      case h_2 =>
        simp only
        split
        case isTrue => exact .inl ⟨_, rfl, rfl⟩
        case isFalse => exact .inr ⟨_, rfl, rfl⟩

theorem rememberKey (h : Apart p ts s s') (hkeys : ∀ k, s.idempotency.lookup k = s'.idempotency.lookup k) (g : Str)
    (opts : IdempotencyOptions) : Apart p ts (s.rememberKey now g opts) (s'.rememberKey now g opts) := by
  unfold MemoryStore.rememberKey
  split
  case h_1 => exact h
  case h_2 =>
    refine { h with keys := fun t _ k' => ?_ }
    rw [Map.lookup_insert_eq, Map.lookup_insert_eq, hkeys k']

theorem putOutbox (h : Apart p ts s s') (item : OutboxItem) :
    Apart p ts (s.putOutbox now item) (s'.putOutbox now item) := by
  refine { h with nextOutbox := congrArg (· + 1) h.nextOutbox, outbox := ?_ }
  simp only [MemoryStore.putOutbox, newOutboxItem, h.nextOutbox, h.outbox]

theorem submitAtomic (h : Apart p ts s s') (ht : now ∈ ts) (msg : Message) (item : OutboxItem) (opts : SubmitOptions) :
    Apart p ts (s.submitAtomic now msg item opts).2 (s'.submitAtomic now msg item opts).2 := by
  have hkeys := h.swept_keys ht
  have hs := h.sweepLocked now
  simp only [MemoryStore.submitAtomic]
  generalize s.sweepLocked now = t at hkeys hs ⊢
  generalize s'.sweepLocked now = t' at hkeys hs ⊢
  have hduplicate : t.liveDuplicate now opts.idempotency = t'.liveDuplicate now opts.idempotency := by
    unfold liveDuplicate
    cases idempotencyKey? opts.idempotency
    case none => rfl
    case some k => simp only [Option.bind_eq_bind, Option.bind_some, hkeys k]
  rw [hduplicate]
  cases t'.liveDuplicate now opts.idempotency
  case some => exact hs
  case none =>
    rcases hs.debitQuota opts.quota with ⟨e, he, he'⟩ | ⟨q, hq, hq'⟩
    case inl => rw [he, he']; exact hs
    case inr =>
      rw [hq, hq']
      have hdebited : Apart p ts { t with quotaUsage := q } { t' with quotaUsage := q } := { hs with quotaUsage := rfl }
      exact ((hdebited.rememberKey hkeys msg.id opts.idempotency).putMessage msg).putOutbox item

theorem checkIdempotency (h : Apart p ts s s') (ht : now ∈ ts) (clientID key : Str) :
    Apart p ts (s.checkIdempotency now clientID key).2 (s'.checkIdempotency now clientID key).2 := by
  have hkeys := h.swept_keys ht
  have hs := h.sweepLocked now
  unfold MemoryStore.checkIdempotency
  split
  case h_1 => exact h
  case h_2 k _ =>
    simp only [hkeys k]
    split
    case h_1 => exact hs
    case h_2 =>
      split
      case isTrue =>
        refine { hs with keys := fun t _ k' => ?_ }
        rw [Map.lookup_erase_eq, Map.lookup_erase_eq, hkeys k']
      case isFalse => exact hs

end MemoryStore.Apart

namespace MemoryStore

def Fresh (p : Portion) (now : Time) (s : MemoryStore) : Prop :=
  ∀ e ∈ s.pending.entries, p.has e.2 → e.2.live now

-- No key is one of the portion for some rows and not for others.
structure Split (p : Portion) (s : MemoryStore) : Prop where
  wf   : StoreWF s
  keys : ∀ {k row}, s.pending.lookup k = some row → p.keys k = p.has row

end MemoryStore

-- The calls that `HandleDLR` and `FlushDLR` make for a receipt outside the portion.
def StoreCall.Outside (p : Portion) (now : Time) : StoreCall → Prop
  | .getPending t _ _ | .listPendingByGatewayID t _                                  => t = now
  | .updatePendingDLR a id _ _ _ | .markDLRReady a id _ _ _ | .markDLRDelivered a id => p.keys (pendingKey a id) = false
  | .updateMessageState _ g _ _ | .deletePendingByGatewayID g                        => p.ids g = false
  | _                                                                                => False

namespace MemoryStore.Apart

variable {p : Portion} {ts : List Time} {s s' : MemoryStore} {now : Time}

theorem of_sweep (hfresh : s.Fresh p now) (hts : ∀ t ∈ ts, now ≤ t) : Apart p ts s (s.sweepLocked now) := by
  refine { (refl s : Apart p [] s s) with rows := fun k => ?_, keys := fun t ht k => ?_ }
  case refine_1 =>
    rw [sweepLocked_lookup]
    exact filter_of_imp fun row hk => hfresh _ (Map.mem_entries_iff.mpr hk)
  case refine_2 =>
    -- What is swept now is not live at any later time.
    rw [sweepLocked_keys]
    refine filter_of_imp fun rec _ => ?_
    simp only [IdempotencyRecord.live, Bool.not_eq_true', Bool.and_eq_false_imp, decide_eq_false_iff_not]
    exact fun h hne hlt => h hne (lt_of_lt_of_le hlt (hts t ht))

theorem of_modifyPending (hs : s.Split p) {provider providerID : Str}
    (hk : p.keys (pendingKey provider providerID) = false) {f : Pending → Pending}
    (hf : ∀ row, (f row).gatewayID = row.gatewayID) : Apart p ts s (s.modifyPending provider providerID f).2 := by
  obtain ⟨r, pending, hframe⟩ := s.modifyPending_frame provider providerID f
  have hlookup := fun k => s.modifyPending_lookup (k := k) provider providerID f
  rw [hframe] at hlookup ⊢
  refine { refl s with rows := fun k => ?_ }
  rw [hlookup]
  split
  case isFalse => rfl
  case isTrue heq =>
    cases hl : s.pending.lookup k
    case none => rfl
    case some row =>
      have hrow : p.has row = false := by rw [← hs.keys hl, heq, hk]
      have hrow' : p.has (f row) = false := by rw [Portion.has, hf, ← Portion.has, hrow]
      simp [Option.filter_some, hrow, hrow']

theorem of_modifyMessage (wf : StoreWF s) {g : Str} (hg : p.ids g = false) {f : Message → Message}
    (hf : ∀ m, (f m).id = m.id ∧ (f m).provider = m.provider) : Apart p ts s (s.modifyMessage g f) := by
  unfold MemoryStore.modifyMessage
  split
  case h_2 => exact refl s
  case h_1 i hi =>
    refine { refl s with messages := ?_ }
    ext1 j
    simp only [List.getElem?_map, List.getElem?_modify, Option.map_eq_map]
    cases hj : s.messages[j]?
    case none => rfl
    case some m =>
      simp only [Option.map_some, Option.some.injEq]
      split
      case isFalse => rfl
      case isTrue hij =>
        -- The index leads to the message of the id.
        subst hij
        have hid := indexMessages_getElem? ((wf.index g).symm.trans hi)
        rw [List.getElem?_map, hj, Option.map_some, Option.some.injEq] at hid
        rw [Message.hide_apply hf, Message.hide_id, hid, hg]
        rfl

theorem of_call (hs : s.Split p) {call : StoreCall} (hc : call.Outside p now)
    (hfresh : s.Fresh p now) (hts : ∀ t ∈ ts, now ≤ t) : Apart p ts s (call.exec s) := by
  have hsweep : Apart p ts s (s.sweepLocked now) := of_sweep hfresh hts
  cases call <;> try exact hc.elim
  case updateMessageState t g state code =>
    simp only [StoreCall.exec, MemoryStore.updateMessageState]
    split
    case isTrue => exact of_modifyMessage hs.wf hc fun _ => ⟨rfl, rfl⟩
    case isFalse => exact refl s
  case getPending t provider providerID =>
    obtain rfl : t = now := hc
    obtain ⟨r, pending, hframe⟩ := s.getPending_frame t provider providerID
    have hlookup := fun k => s.getPending_lookup (k := k) t provider providerID
    rw [StoreCall.exec]
    rw [hframe] at hlookup ⊢
    refine { hsweep with rows := fun k => ?_ }
    rw [hsweep.rows k, hlookup, sweepLocked_lookup]
  case listPendingByGatewayID t g =>
    obtain rfl : t = now := hc
    exact hsweep
  case updatePendingDLR | markDLRReady | markDLRDelivered => exact of_modifyPending hs hc fun _ => rfl
  case deletePendingByGatewayID g =>
    refine (refl s).withPending fun k => ?_
    rw [Map.lookup_filter]
    refine filter_of_imp fun row _ hrow => decide_eq_true ?_
    rintro rfl
    cases hc.symm.trans hrow

theorem fresh (h : Apart p ts s s') (hf : s.Fresh p now) : s'.Fresh p now := by
  intro e he hp
  have hrow := h.rows e.1
  rw [Map.mem_entries_iff.mp he, Option.filter_some, if_pos hp, Option.filter_eq_some_iff] at hrow
  exact hf _ (Map.mem_entries_iff.mpr hrow.1) hp

end MemoryStore.Apart

namespace MemoryStore

variable {p : Portion} {ts : List Time} {s s' : MemoryStore} {now : Time}

theorem getPending_fst (s : MemoryStore) (now : Time) (provider providerID : Str) :
    (s.getPending now provider providerID).1 =
      (s.pending.lookup (pendingKey provider providerID)).filter (·.live now) := by
  rw [← sweepLocked_lookup]
  unfold getPending
  simp only
  split
  case h_1 hl => rw [hl]
  case h_2 p hl =>
    have hlive := (Map.lookup_filter_eq_some.mp hl).2
    split
    case isTrue he => simp [he] at hlive
    case isFalse => rw [hl]

theorem mem_filter_gatewayID {g : Str} {row : Pending} :
    row ∈ (s.pending.entries.map (·.2)).filter (·.gatewayID = g) ↔ ∃ k, s.rowOf g k = some row := by
  simp only [List.mem_filter, List.mem_map, rowOf_eq_some, decide_eq_true_eq, Sigma.exists, Map.mem_entries_iff]
  constructor
  case mp =>
    rintro ⟨⟨k, _, hk, rfl⟩, hg⟩
    exact ⟨k, hk, hg⟩
  case mpr =>
    rintro ⟨k, hk, hg⟩
    exact ⟨⟨k, row, hk, rfl⟩, hg⟩

theorem Keyed.nodup_rows (hs : s.Keyed) : (s.pending.entries.map (·.2)).Nodup := by
  refine List.Nodup.map_on (fun e he e' he' heq => ?_) s.pending.nodupKeys.nodup
  have hk : e.1 = e'.1 := (hs (Map.mem_entries_iff.mp he)).symm.trans (heq ▸ hs (Map.mem_entries_iff.mp he'))
  exact Sigma.ext hk (heq_of_eq heq)

theorem listPendingByGatewayID_congr {g : Str} (hs : s.Keyed) (hs' : s'.Keyed)
    (hrows : ∀ k, s.rowOf g k = s'.rowOf g k) :
    ((s.pending.entries.map (·.2)).filter (·.gatewayID = g)).insertionSort segmentLe =
      ((s'.pending.entries.map (·.2)).filter (·.gatewayID = g)).insertionSort segmentLe := by
  have hperm : ((s.pending.entries.map (·.2)).filter (·.gatewayID = g)).Perm
      ((s'.pending.entries.map (·.2)).filter (·.gatewayID = g)) := by
    refine (List.perm_ext_iff_of_nodup (hs.nodup_rows.filter _) (hs'.nodup_rows.filter _)).mpr fun p => ?_
    rw [mem_filter_gatewayID, mem_filter_gatewayID]
    exact exists_congr fun k => by rw [hrows k]
  refine ((List.perm_insertionSort _ _).trans (hperm.trans (List.perm_insertionSort _ _).symm)).eq_of_pairwise
    (fun p q hp hq hle hle' => ?_) (List.pairwise_insertionSort ..) (List.pairwise_insertionSort ..)
  -- Rows that come before each other have the same key.
  obtain ⟨k, hk⟩ := mem_filter_gatewayID.mp ((List.mem_insertionSort _).mp hp)
  obtain ⟨k', hk'⟩ := mem_filter_gatewayID.mp ((List.mem_insertionSort _).mp hq)
  rw [← hrows] at hk'
  have hkey : p.key = q.key := by
    unfold Pending.key
    obtain ⟨hprovider, hid⟩ : p.provider = q.provider ∧ p.providerID = q.providerID := by grind [segmentLe]
    rw [hprovider, hid]
  have hp := hs (rowOf_eq_some.mp hk).1
  have hq := hs (rowOf_eq_some.mp hk').1
  rw [hp, hq] at hkey
  rw [hkey] at hk
  exact Option.some.inj (hk.symm.trans hk')

theorem take_eq_take_filter {α : Type} {q : α → Bool} {l : List α} {n : Nat} (h : ∀ x ∈ l.take n, q x) :
    l.take n = (l.filter q).take n := by
  induction l generalizing n
  case nil => rfl
  case cons x l ih =>
    cases n
    case zero => rfl
    case succ n =>
      have hx : q x := h x List.mem_cons_self
      rw [List.filter_cons_of_pos hx, List.take_succ_cons, List.take_succ_cons,
        ih fun y hy => h y (List.mem_cons_of_mem x hy)]

namespace Apart

theorem lookup_eq (h : Apart p ts s s') (hs : s.Split p) (hs' : s'.Split p) {k : Str} (hk : p.keys k) :
    s.pending.lookup k = s'.pending.lookup k := by
  have hkeep : ∀ {t : MemoryStore}, t.Split p → t.pending.lookup k = (t.pending.lookup k).filter p.has := by
    intro t ht
    cases hl : t.pending.lookup k
    case none => rfl
    case some row => rw [Option.filter_some, ← ht.keys hl, if_pos hk]
  rw [hkeep hs, h.rows, ← hkeep hs']

theorem getPending (h : Apart p ts s s') (hs : s.Split p) (hs' : s'.Split p) {provider providerID : Str}
    (hk : p.keys (pendingKey provider providerID)) (now : Time) :
    Alike (Apart p ts) (s.getPending now provider providerID) (s'.getPending now provider providerID) := by
  refine ⟨?_, ?_⟩
  case refine_1 => rw [getPending_fst, getPending_fst, h.lookup_eq hs hs' hk]
  case refine_2 =>
    have hsweep := h.sweepLocked now
    obtain ⟨r, m, hframe⟩ := s.getPending_frame now provider providerID
    obtain ⟨r', m', hframe'⟩ := s'.getPending_frame now provider providerID
    have hlookup := fun k => s.getPending_lookup (k := k) now provider providerID
    have hlookup' := fun k => s'.getPending_lookup (k := k) now provider providerID
    rw [hframe] at hlookup ⊢
    rw [hframe'] at hlookup' ⊢
    refine hsweep.withPending fun k => ?_
    rw [hlookup, hlookup', ← sweepLocked_lookup, ← sweepLocked_lookup, hsweep.rows k]

theorem modifyPending (h : Apart p ts s s') (hs : s.Split p) (hs' : s'.Split p) {provider providerID : Str}
    (hk : p.keys (pendingKey provider providerID)) (f : Pending → Pending) :
    Alike (Apart p ts) (s.modifyPending provider providerID f) (s'.modifyPending provider providerID f) := by
  unfold MemoryStore.modifyPending
  rw [h.lookup_eq hs hs' hk]
  split
  case h_1 => exact ⟨rfl, h⟩
  case h_2 => exact ⟨rfl, h.insert _⟩

theorem listPendingByGatewayID (h : Apart p ts s s') (hs : s.Split p) (hs' : s'.Split p) {g : Str} (hg : p.ids g)
    (now : Time) : Alike (Apart p ts) (s.listPendingByGatewayID now g) (s'.listPendingByGatewayID now g) := by
  have ht := hs.wf.sweepLocked now
  have ht' := hs'.wf.sweepLocked now
  have hsweep := h.sweepLocked now
  refine ⟨listPendingByGatewayID_congr (fun hl => (ht.pending _ _ hl).1) (fun hl => (ht'.pending _ _ hl).1)
    fun k => ?_, hsweep⟩
  have hkeep : ∀ t : MemoryStore, t.rowOf g k = ((t.pending.lookup k).filter p.has).filter (·.gatewayID = g) := by
    intro t
    rw [rowOf, Option.filter_filter]
    congr 1
    funext row
    by_cases hrow : row.gatewayID = g
    case pos => simp [Portion.has, hrow, hg]
    case neg => simp [hrow]
  rw [hkeep, hsweep.rows k, ← hkeep]

-- A batch of rows of the portion: how many others there are does not matter.
theorem listReadyDLR (h : Apart p ts s s') {now : Time} {order : List Str} {systemID : Str} {limit : Int}
    (hrows : ∀ row ∈ (s.listReadyDLR now order systemID limit).1, p.has row)
    (hrows' : ∀ row ∈ (s'.listReadyDLR now order systemID limit).1, p.has row) :
    Alike (Apart p ts) (s.listReadyDLR now order systemID limit) (s'.listReadyDLR now order systemID limit) := by
  have hsweep := h.sweepLocked now
  refine ⟨?_, hsweep⟩
  have hkeep : ∀ t : MemoryStore, ((order.filterMap (t.sweepLocked now).pending.lookup).filter fun row =>
      row.dlrReady && (systemID = [] || row.sourceSystem = systemID)).filter p.has =
      (order.filterMap fun k => ((t.sweepLocked now).pending.lookup k).filter p.has).filter fun row =>
        row.dlrReady && (systemID = [] || row.sourceSystem = systemID) := by
    intro t
    rw [List.filter_filter, ← List.filter_filterMap, List.filter_filter]
    simp only [Bool.and_comm]
  have hcut := take_eq_take_filter hrows
  have hcut' := take_eq_take_filter hrows'
  rw [hkeep] at hcut hcut'
  simp only [hsweep.rows] at hcut
  exact hcut.trans hcut'.symm

end Apart

end MemoryStore

end SmppGateway
