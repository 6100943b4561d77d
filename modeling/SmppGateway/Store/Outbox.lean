import SmppGateway.Store.Memory

-- What the calls of the store do to a single row of the outbox.

namespace SmppGateway

open Go

inductive StoreOp
  | saveMessage (msg : Message)
  | enqueueOutbox (now : Time) (item : OutboxItem)
  | submitAtomic (now : Time) (msg : Message) (item : OutboxItem) (opts : SubmitOptions)
  | claimOutbox (now : Time) (workerID : Str) (limit : Int)
  | markOutboxSending (id : Int) (workerID : Str)
  | completeOutboxSend (now : Time) (id : Int) (workerID : Str) (pending : List Pending)
  | markOutboxUncertain (now : Time) (id : Int) (workerID errMsg : Str)
  | requeueStaleOutbox (order : List Int) (before : Time) (limit : Int)
  | ackOutbox (id : Int)
  | failOutbox (id : Int) (errMsg : Str) (nextRetryAt : Time)

inductive StoreReply
  | done
  | row (id : Int)
  | submitted (res : MemoryStore.Submitted)
  | items (items : List OutboxItem)
  | count (n : Nat)

namespace StoreOp

open MemoryStore

def reply {α : Type} (f : α → StoreReply) (r : StoreResult α) : StoreResult StoreReply :=
  (r.1.map f, r.2)

theorem reply_eq_ok {α : Type} {f : α → StoreReply} {r : StoreResult α} {x : StoreReply}
    (h : (reply f r).1 = .ok x) : ∃ a, r.1 = .ok a ∧ x = f a := by
  obtain ⟨_ | a, _⟩ := r <;> cases h
  exact ⟨a, rfl, rfl⟩

def exec (s : MemoryStore) : StoreOp → StoreResult StoreReply
  | saveMessage msg                       => reply (fun _ => .done) (s.saveMessage msg)
  | enqueueOutbox now item                => reply .row (s.enqueueOutbox now item)
  | submitAtomic now msg item opts        => reply .submitted (s.submitAtomic now msg item opts)
  | claimOutbox now workerID limit        => reply .items (s.claimOutbox now workerID limit)
  | markOutboxSending id workerID         => reply (fun _ => .done) (s.markOutboxSending id workerID)
  | completeOutboxSend now id workerID ps =>
    reply (fun _ => .done) (s.completeOutboxSend now id workerID ps)
  | markOutboxUncertain now id workerID e =>
    reply (fun _ => .done) (s.markOutboxUncertain now id workerID e)
  | requeueStaleOutbox order before limit => reply .count (s.requeueStaleOutbox order before limit)
  | ackOutbox id                          => reply (fun _ => .done) (s.ackOutbox id)
  | failOutbox id errMsg nextRetryAt      => reply (fun _ => .done) (s.failOutbox id errMsg nextRetryAt)

def step (s : MemoryStore) (op : StoreOp) : MemoryStore :=
  (op.exec s).2

def newRow? : StoreOp → Option OutboxItem
  | enqueueOutbox _ item    => some item
  | submitAtomic _ _ item _ => some item
  | _                       => none

end StoreOp

inductive Evolves : OutboxItem → OutboxItem → Prop
  | claim {a} (workerID now) : a.state = .pending → Evolves a (MemoryStore.claimItem workerID now a)
  | send {a} : a.state = .claimed → Evolves a { a with state := .sending }
  | complete {a} : a.state = .sending →
      Evolves a { a with state := .done, payload := scrubOutboxPayload a.payload }
  | doubt {a} (e) : a.state = .sending ∨ a.state = .uncertain →
      Evolves a { a with state := .uncertain, lastError := e }
  | requeue {a} (before) : a.state = .claimed → Evolves a (MemoryStore.requeueItem before a)
  | ack {a} : a.state = .claimed →
      Evolves a { a with state := .done, payload := scrubOutboxPayload a.payload }
  | fail {a} (e) : a.state = .claimed ∨ a.state = .sending →
      Evolves a { a with lastError := e, state := .failed }
  | retry {a} (e next) : a.state = .claimed →
      Evolves a { a with
        lastError := e, state := .pending, nextRetryAt := next, claimedBy := [], claimedAt := 0 }

def OutboxState.IsFinal (s : OutboxState) : Prop :=
  s = .done ∨ s = .failed ∨ s = .uncertain

def OutboxState.IsLive (s : OutboxState) : Prop :=
  s = .pending ∨ s = .claimed ∨ s = .sending

def OutboxState.IsSealed (s : OutboxState) : Prop :=
  s = .sending ∨ s.IsFinal

instance : DecidablePred OutboxState.IsFinal := fun _ => inferInstanceAs (Decidable (_ ∨ _))

instance : DecidablePred OutboxState.IsLive := fun _ => inferInstanceAs (Decidable (_ ∨ _))

instance : DecidablePred OutboxState.IsSealed := fun _ => inferInstanceAs (Decidable (_ ∨ _))

namespace Evolves

variable {a b : OutboxItem}

theorem id_eq (h : Evolves a b) : b.id = a.id := by
  cases h <;> rfl

theorem gatewayID_eq (h : Evolves a b) : b.gatewayID = a.gatewayID := by
  cases h <;> rfl

theorem live (h : Evolves a b) (hb : b.state.IsLive) : a.state.IsLive := by
  cases h <;> grind [OutboxState.IsLive, MemoryStore.claimItem, MemoryStore.requeueItem]

theorem final (h : Evolves a b) (ha : a.state.IsFinal) : b.state = a.state := by
  cases h <;> grind [OutboxState.IsFinal]

theorem sealed (h : Evolves a b) (ha : a.state.IsSealed) :
    b.state.IsSealed ∧ b.claimedBy = a.claimedBy := by
  cases h <;> grind [OutboxState.IsSealed, OutboxState.IsFinal]

end Evolves

-- Rows sit under their own id, and no id beyond the counter is in use.
structure OutboxWF (s : MemoryStore) : Prop where
  keyed   : ∀ {k item}, s.outbox.lookup k = some item → item.id = k
  bounded : ∀ {k item}, s.outbox.lookup k = some item → k ≤ s.nextOutbox

theorem OutboxWF.fresh {s : MemoryStore} (wf : OutboxWF s) :
    s.outbox.lookup (s.nextOutbox + 1) = none := by
  by_contra hc
  obtain ⟨_, h⟩ := Option.ne_none_iff_exists'.mp hc
  have := wf.bounded h
  omega

theorem OutboxWF.newMemory : OutboxWF newMemory where
  keyed   h := by simp [SmppGateway.newMemory] at h
  bounded h := by simp [SmppGateway.newMemory] at h

namespace MemoryStore

variable {s : MemoryStore} {k : Int} {g : Str} {item : OutboxItem} {f : Message → Message}

@[simp]
theorem trimMessagesLocked_outbox : s.trimMessagesLocked.outbox = s.outbox := by
  unfold trimMessagesLocked; split <;> rfl

@[simp]
theorem trimMessagesLocked_nextOutbox : s.trimMessagesLocked.nextOutbox = s.nextOutbox := by
  unfold trimMessagesLocked; split <;> rfl

@[simp]
theorem putMessage_outbox {msg : Message} : (s.putMessage msg).outbox = s.outbox := by
  unfold putMessage; split <;> simp

@[simp]
theorem putMessage_nextOutbox {msg : Message} : (s.putMessage msg).nextOutbox = s.nextOutbox := by
  unfold putMessage; split <;> simp

@[simp]
theorem modifyMessage_outbox : (s.modifyMessage g f).outbox = s.outbox := by
  unfold modifyMessage; split <;> rfl

@[simp]
theorem modifyMessage_pending : (s.modifyMessage g f).pending = s.pending := by
  unfold modifyMessage; split <;> rfl

@[simp]
theorem updateMessageState_pending (now : Time) (gatewayID state : Str) (errCode : Int) :
    (s.updateMessageState now gatewayID state errCode).2.pending = s.pending := by
  unfold updateMessageState
  split
  case isTrue => exact modifyMessage_pending
  case isFalse => rfl

@[simp]
theorem modifyMessage_nextOutbox : (s.modifyMessage g f).nextOutbox = s.nextOutbox := by
  unfold modifyMessage; split <;> rfl

@[simp]
theorem sweepLocked_outbox {now : Time} : (s.sweepLocked now).outbox = s.outbox := rfl

@[simp]
theorem sweepLocked_nextOutbox {now : Time} : (s.sweepLocked now).nextOutbox = s.nextOutbox := rfl

@[simp]
theorem rememberKey_outbox {now : Time} {opts : IdempotencyOptions} : (s.rememberKey now g opts).outbox = s.outbox := by
  unfold rememberKey; split <;> rfl

@[simp]
theorem rememberKey_nextOutbox {now : Time} {opts : IdempotencyOptions} :
    (s.rememberKey now g opts).nextOutbox = s.nextOutbox := by
  unfold rememberKey; split <;> rfl

theorem rememberKey_frame (s : MemoryStore) (now : Time) (g : Str) (opts : IdempotencyOptions) :
    ∃ i, s.rememberKey now g opts = { s with idempotency := i } := by
  unfold rememberKey; split <;> exact ⟨_, rfl⟩

theorem debitQuota_frame {quota : Option DailyQuotaDebit} {s' : MemoryStore}
    (h : s.debitQuota quota = .ok s') : ∃ q, s' = { s with quotaUsage := q } := by
  unfold debitQuota at h
  split at h
  case _ => cases h; exact ⟨_, rfl⟩
  case _ =>
    split at h
    case isTrue => cases h; exact ⟨_, rfl⟩
    case isFalse =>
      split at h
      case _ => cases h
      case _ =>
        simp only at h
        split at h
        case isTrue => cases h
        case isFalse => cases h; exact ⟨_, rfl⟩

theorem debitQuota_outbox {quota : Option DailyQuotaDebit} {s' : MemoryStore}
    (h : s.debitQuota quota = .ok s') : s'.outbox = s.outbox ∧ s'.nextOutbox = s.nextOutbox := by
  obtain ⟨q, rfl⟩ := debitQuota_frame h
  exact ⟨rfl, rfl⟩

theorem markOutboxSending_frame (s : MemoryStore) (id : Int) (workerID : Str) :
    ∃ r outbox, s.markOutboxSending id workerID = (r, { s with outbox }) := by
  unfold markOutboxSending
  repeat' split
  all_goals exact ⟨_, _, rfl⟩

theorem ackOutbox_frame (s : MemoryStore) (id : Int) : ∃ r outbox, s.ackOutbox id = (r, { s with outbox }) := by
  unfold ackOutbox
  repeat' split
  all_goals exact ⟨_, _, rfl⟩

theorem failOutbox_frame (s : MemoryStore) (id : Int) (errMsg : Str) (nextRetryAt : Time) :
    ∃ r outbox, s.failOutbox id errMsg nextRetryAt = (r, { s with outbox }) := by
  unfold failOutbox
  repeat' split
  all_goals exact ⟨_, _, rfl⟩

theorem markOutboxSending_cases (s : MemoryStore) (id : Int) (workerID : Str) :
    (∃ r, s.markOutboxSending id workerID = (r, s)) ∨
    ∃ item, s.outbox.lookup id = some item ∧ s.markOutboxSending id workerID =
      (.ok (), { s with outbox := s.outbox.insert id { item with state := .sending } }) := by
  unfold markOutboxSending
  split
  case h_1 => exact .inl ⟨_, rfl⟩
  case h_2 item hl =>
    split
    case isTrue => exact .inl ⟨_, rfl⟩
    case isFalse =>
      split
      case isTrue => exact .inl ⟨_, rfl⟩
      case isFalse => exact .inr ⟨item, hl, rfl⟩

theorem ackOutbox_cases (s : MemoryStore) (id : Int) :
    (∃ r, s.ackOutbox id = (r, s)) ∨
    ∃ item, s.outbox.lookup id = some item ∧ s.ackOutbox id = (.ok (), { s with
      outbox := s.outbox.insert id { item with state := .done, payload := scrubOutboxPayload item.payload } }) := by
  unfold ackOutbox
  split
  case h_1 => exact .inl ⟨_, rfl⟩
  case h_2 item hl =>
    split
    case isTrue => exact .inl ⟨_, rfl⟩
    case isFalse => exact .inr ⟨item, hl, rfl⟩

theorem failOutbox_cases (s : MemoryStore) (id : Int) (errMsg : Str) (nextRetryAt : Time) :
    (∃ e, s.failOutbox id errMsg nextRetryAt = (.error e, s)) ∨
    (∃ item, s.outbox.lookup id = some item ∧ s.failOutbox id errMsg nextRetryAt = (.ok (), { s with
      outbox := s.outbox.insert id { item with lastError := errMsg, state := .failed } })) ∨
    ∃ item, s.outbox.lookup id = some item ∧ item.attempt < item.maxAttempts ∧
      s.failOutbox id errMsg nextRetryAt = (.ok (), { s with
        outbox := s.outbox.insert id { item with
          lastError := errMsg, state := .pending, nextRetryAt := nextRetryAt, claimedBy := [], claimedAt := 0 } }) := by
  unfold failOutbox
  split
  case h_1 => exact .inl ⟨_, rfl⟩
  case h_2 item hl =>
    split <;> split
    case isTrue.isTrue => exact .inl ⟨_, rfl⟩
    case isTrue.isFalse => exact .inr (.inl ⟨item, hl, rfl⟩)
    case isFalse.isTrue => exact .inl ⟨_, rfl⟩
    case isFalse.isFalse hleft _ => exact .inr (.inr ⟨item, hl, not_le.mp fun h => hleft (.inr h), rfl⟩)

def sentMessage (now : Time) (recs : List Pending) (msg : Message) : Message :=
  { msg with
    providerID := (recs.head?.map (·.providerID)).getD []
    state := lit "sent", sentAt := now }

theorem completeOutboxSend_cases (s : MemoryStore) (now : Time) (id : Int) (workerID : Str) (ps : List Pending) :
    (∃ r, s.completeOutboxSend now id workerID ps = (r, s)) ∨
    ∃ item recs, s.outbox.lookup id = some item ∧ validateOutboxCompletion item ps = .ok recs ∧
      s.completeOutboxSend now id workerID ps = (.ok (), { s.modifyMessage item.gatewayID (sentMessage now recs) with
        pending := Map.insertAll (fun r => pendingKey r.provider r.providerID) (·) s.pending recs
        outbox := s.outbox.insert id { item with state := .done, payload := scrubOutboxPayload item.payload } }) := by
  unfold completeOutboxSend
  split
  case h_1 => exact .inl ⟨_, rfl⟩
  case h_2 item hl =>
    split
    case isTrue => exact .inl ⟨_, rfl⟩
    case isFalse =>
      split
      case isTrue => exact .inl ⟨_, rfl⟩
      case isFalse =>
        split
        case h_1 => exact .inl ⟨_, rfl⟩
        case h_2 recs hv =>
          split
          case isFalse => exact .inl ⟨_, rfl⟩
          case isTrue =>
            refine .inr ⟨item, recs, hl, hv, ?_⟩
            simp only [modifyMessage_pending, modifyMessage_outbox]
            rfl

def unknownMessage (now : Time) (msg : Message) : Message :=
  { msg with state := lit "UNKNOWN", errorCode := 1, doneAt := now }

theorem markOutboxUncertain_cases (s : MemoryStore) (now : Time) (id : Int) (workerID errMsg : Str) :
    (∃ r, s.markOutboxUncertain now id workerID errMsg = (r, s)) ∨
    ∃ item, s.outbox.lookup id = some item ∧ s.markOutboxUncertain now id workerID errMsg =
      (.ok (), { s with outbox := s.outbox.insert id { item with state := .uncertain, lastError := errMsg } }.modifyMessage
        item.gatewayID (unknownMessage now)) := by
  unfold markOutboxUncertain
  split
  case h_1 => exact .inl ⟨_, rfl⟩
  case h_2 item hl =>
    split
    case isTrue => exact .inl ⟨_, rfl⟩
    case isFalse =>
      split
      case isTrue => exact .inl ⟨_, rfl⟩
      case isFalse => exact .inr ⟨item, hl, rfl⟩

variable {now : Time} {workerID : Str} {limit : Int}

theorem claimCandidates_sublist (s : MemoryStore) (now : Time) (limit : Int) :
    ∃ l, l.Perm ((s.outbox.entries.map (·.2)).filter fun item =>
      item.state = .pending ∧ item.nextRetryAt ≤ now) ∧ (s.claimCandidates now limit).Sublist l :=
  ⟨_, List.perm_insertionSort .., List.take_sublist ..⟩

theorem mem_claimCandidates (h : item ∈ s.claimCandidates now limit) :
    ∃ k, s.outbox.lookup k = some item ∧ item.state = .pending ∧ item.nextRetryAt ≤ now := by
  obtain ⟨l, hp, hs⟩ := claimCandidates_sublist s now limit
  have hm := hp.mem_iff.mp (hs.subset h)
  simp only [List.mem_filter, List.mem_map, decide_eq_true_eq] at hm
  obtain ⟨⟨⟨k, _⟩, he, rfl⟩, hm⟩ := hm
  exact ⟨k, Map.mem_entries_iff.mp he, hm⟩

theorem claimCandidates_nodup (wf : OutboxWF s) : ((s.claimCandidates now limit).map (·.id)).Nodup := by
  obtain ⟨l, hp, hs⟩ := claimCandidates_sublist s now limit
  refine List.Nodup.sublist (hs.map _) ((hp.map _).nodup_iff.mpr ?_)
  refine List.Nodup.sublist (List.filter_sublist.map _) ?_
  have hk : (s.outbox.entries.map (·.2)).map (·.id) = s.outbox.keys := by
    rw [List.map_map]
    refine List.map_congr_left fun ⟨k, item⟩ he => wf.keyed (Map.mem_entries_iff.mp he)
  exact hk ▸ s.outbox.keys_nodup

theorem claimOutbox_lookup (wf : OutboxWF s) (now : Time) (workerID : Str) (limit : Int) (k : Int) :
    let out := (s.claimCandidates now limit).map (claimItem workerID now)
    (∃ item, s.outbox.lookup k = some item ∧ item.state = .pending ∧
      claimItem workerID now item ∈ out ∧
      (s.claimOutbox now workerID limit).2.outbox.lookup k = some (claimItem workerID now item)) ∨
    ((∀ item ∈ out, item.id ≠ k) ∧
      (s.claimOutbox now workerID limit).2.outbox.lookup k = s.outbox.lookup k) := by
  intro out
  by_cases h : ∃ item ∈ out, item.id = k
  case pos =>
    obtain ⟨item', hm, hk⟩ := h
    obtain ⟨item, hc, rfl⟩ := List.mem_map.mp hm
    obtain ⟨k', hl, hs, _⟩ := mem_claimCandidates hc
    have hid := wf.keyed hl
    obtain rfl : k = k' := hk.symm.trans hid
    refine .inl ⟨item, hl, hs, hm, ?_⟩
    have hn : (out.map (·.id)).Nodup := by
      simpa [out, List.map_map, Function.comp_def, claimItem] using claimCandidates_nodup wf
    have := Map.lookup_insertAll_of_mem (m := s.outbox) (g := (·)) hn hm
    rwa [hk] at this
  case neg =>
    push Not at h
    exact .inr ⟨h, Map.lookup_insertAll_of_notMem h⟩

theorem mem_claimOutbox (wf : OutboxWF s) (h : item ∈ (s.claimCandidates now limit).map (claimItem workerID now)) :
    ∃ old, s.outbox.lookup item.id = some old ∧ old.state = .pending ∧
      item = claimItem workerID now old := by
  obtain ⟨old, hc, rfl⟩ := List.mem_map.mp h
  obtain ⟨k, hl, hs, _⟩ := mem_claimCandidates hc
  obtain rfl := wf.keyed hl
  exact ⟨old, hl, hs, rfl⟩

theorem requeueStaleOutbox.go_lookup (before : Time) (limit : Nat) (outbox : Map Int OutboxItem)
    (count : Nat) (order : List Int) :
    (requeueStaleOutbox.go before limit outbox count order).1.lookup k = outbox.lookup k ∨
      ∃ item, outbox.lookup k = some item ∧ item.state = .claimed ∧
        (requeueStaleOutbox.go before limit outbox count order).1.lookup k =
          some (requeueItem before item) := by
  induction order generalizing outbox count
  case nil => exact .inl rfl
  case cons id order hi =>
    unfold go
    split
    case _ => exact hi ..
    case _ item hl =>
      split
      case isTrue => exact hi ..
      case isFalse hs =>
        have hc : item.state = .claimed := by simp [isStale] at hs; exact hs.1.1
        split
        case isTrue =>
          by_cases hk : k = id
          case pos => subst hk; exact .inr ⟨item, hl, hc, AList.lookup_insert _⟩
          case neg => exact .inl (AList.lookup_insert_ne hk)
        case isFalse =>
          by_cases hk : k = id
          case pos =>
            subst hk
            cases hi (outbox.insert k (requeueItem before item)) (count + 1)
            case inl h => exact .inr ⟨item, hl, hc, h.trans (AList.lookup_insert _)⟩
            -- A requeued row is pending, so the rest of the loop leaves it alone.
            case inr h =>
              obtain ⟨item', h, hs, _⟩ := h
              rw [AList.lookup_insert, Option.some.injEq] at h
              simp [← h, requeueItem] at hs
          case neg =>
            have := hi (outbox.insert id (requeueItem before item)) (count + 1)
            rwa [AList.lookup_insert_ne hk] at this

end MemoryStore

-- How one call changes the row under one id. A row only appears under the id after the last one, and
-- only the row that was given to the call.
inductive RowStep (row? : Option OutboxItem) (s s' : MemoryStore) (k : Int) : Prop
  | same (eq : s'.outbox.lookup k = s.outbox.lookup k)
  | evolves {a b} (src : s.outbox.lookup k = some a) (dst : s'.outbox.lookup k = some b)
      (step : Evolves a b)
  | new {item} (now) (given : row? = some item) (src : s.outbox.lookup k = none)
      (dst : s'.outbox.lookup k = some (s.newOutboxItem now item)) (id : k = s.nextOutbox + 1)
      (count : s'.nextOutbox = s.nextOutbox + 1)

theorem RowStep.insert {row? : Option OutboxItem} {s s' : MemoryStore} {k id : Int}
    {a b : OutboxItem} (hl : s.outbox.lookup id = some a) (he : Evolves a b)
    (hs : s'.outbox = s.outbox.insert id b) : RowStep row? s s' k := by
  by_cases hk : k = id
  case pos => subst hk; exact .evolves hl (hs ▸ AList.lookup_insert _) he
  case neg => exact .same (hs ▸ AList.lookup_insert_ne hk)

namespace MemoryStore

variable {row? : Option OutboxItem} {s : MemoryStore} {k : Int} {now : Time} {workerID : Str}

theorem newOutboxItem_congr {s' : MemoryStore} {item : OutboxItem} (h : s'.nextOutbox = s.nextOutbox) :
    s'.newOutboxItem now item = s.newOutboxItem now item := by
  simp [newOutboxItem, h]

inductive SubmitCase (s : MemoryStore) (now : Time) (msg : Message) (item : OutboxItem)
    (opts : SubmitOptions) : Prop
  | duplicate (g)
      (live : (s.sweepLocked now).liveDuplicate now opts.idempotency = some g)
      (eq : s.submitAtomic now msg item opts = (.ok ⟨0, g, true⟩, s.sweepLocked now))
  | refused (e)
      (fresh : (s.sweepLocked now).liveDuplicate now opts.idempotency = none)
      (debit : (s.sweepLocked now).debitQuota opts.quota = .error e)
      (eq : s.submitAtomic now msg item opts = (.error e, s.sweepLocked now))
  | accepted (d)
      (fresh : (s.sweepLocked now).liveDuplicate now opts.idempotency = none)
      (debit : (s.sweepLocked now).debitQuota opts.quota = .ok d)
      (eq : s.submitAtomic now msg item opts =
        (.ok ⟨s.nextOutbox + 1, msg.id, false⟩,
          ((d.rememberKey now msg.id opts.idempotency).putMessage msg).putOutbox now item))

theorem submitAtomic_cases (s : MemoryStore) (now : Time) (msg : Message) (item : OutboxItem)
    (opts : SubmitOptions) : SubmitCase s now msg item opts := by
  cases hd : (s.sweepLocked now).liveDuplicate now opts.idempotency
  case some g => exact .duplicate g hd (by simp [submitAtomic, hd])
  case none =>
    cases hq : (s.sweepLocked now).debitQuota opts.quota
    case error e => exact .refused e hd hq (by simp [submitAtomic, hd, hq])
    case ok d => exact .accepted d hd hq (by simp [submitAtomic, hd, hq, (debitQuota_outbox hq).2])

theorem putOutbox_row {s' : MemoryStore} {item : OutboxItem} (wf : OutboxWF s)
    (ho : s'.outbox = s.outbox) (hn : s'.nextOutbox = s.nextOutbox) :
    RowStep (some item) s (s'.putOutbox now item) k := by
  by_cases hk : k = s.nextOutbox + 1
  case pos =>
    refine .new now rfl (hk ▸ wf.fresh) ?_ hk (by simp [putOutbox, hn])
    simp [putOutbox, ho, hn, newOutboxItem_congr hn, ← hk]
  case neg => exact .same (by simp [putOutbox, ho, hn, hk])

theorem markOutboxSending_row (id : Int) : RowStep row? s (s.markOutboxSending id workerID).2 k := by
  unfold markOutboxSending
  split
  case _ => exact .same rfl
  case _ item hl =>
    split
    case isTrue => exact .same rfl
    case isFalse =>
      split
      case isTrue => exact .same rfl
      case isFalse hc => exact .insert hl (.send (by grind)) rfl

theorem markOutboxSending_ok {id : Int} (h : (s.markOutboxSending id workerID).1 = .ok ()) :
    ∃ b, (s.markOutboxSending id workerID).2.outbox.lookup id = some b ∧ b.state = .sending ∧
      b.claimedBy = workerID := by
  unfold markOutboxSending at h ⊢
  split at h
  case _ => cases h
  case _ item hl =>
    split at h
    case isTrue hs => exact ⟨item, by simpa [hs] using hl, hs⟩
    case isFalse hs =>
      split at h
      case isTrue => cases h
      case isFalse hc =>
        have hw : item.claimedBy = workerID := by grind
        exact ⟨{ item with state := .sending }, by simp [hs, hc], rfl, hw⟩

theorem completeOutboxSend_row (id : Int) (ps : List Pending) :
    RowStep row? s (s.completeOutboxSend now id workerID ps).2 k := by
  unfold completeOutboxSend
  split
  case _ => exact .same rfl
  case _ item hl =>
    split
    case isTrue => exact .same rfl
    case isFalse =>
      split
      case isTrue => exact .same rfl
      case isFalse hc =>
        split
        case _ => exact .same rfl
        case _ =>
          split
          case isTrue => exact .insert hl (.complete (by grind)) (by simp)
          case isFalse => exact .same rfl

theorem markOutboxUncertain_row (id : Int) (e : Str) :
    RowStep row? s (s.markOutboxUncertain now id workerID e).2 k := by
  unfold markOutboxUncertain
  split
  case _ => exact .same rfl
  case _ item hl =>
    split
    case isTrue => exact .same rfl
    case isFalse hs =>
      split
      case isTrue => exact .same rfl
      case isFalse => exact .insert hl (.doubt e (by grind)) (by simp)

theorem ackOutbox_row (id : Int) : RowStep row? s (s.ackOutbox id).2 k := by
  unfold ackOutbox
  split
  case _ => exact .same rfl
  case _ item hl =>
    split
    case isTrue => exact .same rfl
    case isFalse hs => exact .insert hl (.ack (by grind)) rfl

theorem failOutbox_row (id : Int) (e : Str) (next : Time) :
    RowStep row? s (s.failOutbox id e next).2 k := by
  unfold failOutbox
  split
  case _ => exact .same rfl
  case _ item hl =>
    split <;> split
    case isTrue.isTrue => exact .same rfl
    case isFalse.isTrue => exact .same rfl
    case isTrue.isFalse hs => exact .insert hl (.fail e (by grind)) rfl
    case isFalse.isFalse hs => exact .insert hl (.retry e next (by grind)) rfl

theorem claimOutbox_row (wf : OutboxWF s) (limit : Int) :
    RowStep row? s (s.claimOutbox now workerID limit).2 k := by
  cases claimOutbox_lookup wf now workerID limit k
  case inl h =>
    obtain ⟨item, hl, hs, _, h⟩ := h
    exact .evolves hl h (.claim workerID now hs)
  case inr h => exact .same h.2

theorem requeueStaleOutbox_row (order : List Int) (before : Time) (limit : Int) :
    RowStep row? s (s.requeueStaleOutbox order before limit).2 k := by
  cases requeueStaleOutbox.go_lookup (k := k) before (if limit ≤ 0 then 1000 else limit.toNat)
    s.outbox 0 order
  case inl h => exact .same h
  case inr h =>
    obtain ⟨item, hl, hs, h⟩ := h
    exact .evolves hl h (.requeue before hs)

end MemoryStore

theorem StoreOp.exec_row {s : MemoryStore} (wf : OutboxWF s) (op : StoreOp) (k : Int) :
    RowStep op.newRow? s (op.exec s).2 k := by
  cases op
  case saveMessage => exact .same (by simp [exec, reply, MemoryStore.saveMessage])
  case enqueueOutbox => exact MemoryStore.putOutbox_row wf rfl rfl
  case claimOutbox => exact MemoryStore.claimOutbox_row wf _
  case markOutboxSending => exact MemoryStore.markOutboxSending_row _
  case completeOutboxSend => exact MemoryStore.completeOutboxSend_row _ _
  case markOutboxUncertain => exact MemoryStore.markOutboxUncertain_row _ _
  case requeueStaleOutbox => exact MemoryStore.requeueStaleOutbox_row _ _ _
  case ackOutbox => exact MemoryStore.ackOutbox_row _
  case failOutbox => exact MemoryStore.failOutbox_row _ _ _
  case submitAtomic now msg item opts =>
    simp only [exec, reply]
    cases MemoryStore.submitAtomic_cases s now msg item opts
    case duplicate h => exact .same (by simp [h])
    case refused h => exact .same (by simp [h])
    case accepted d _ hq h =>
      have ⟨ho, hn⟩ := MemoryStore.debitQuota_outbox hq
      rw [h]
      exact MemoryStore.putOutbox_row wf (by simp [ho]) (by simp [hn])

def StoreReply.created? : StoreReply → Option Int
  | .row id        => some id
  | .submitted res => if res.duplicate then none else some res.outboxID
  | _              => none

namespace StoreOp

variable {s : MemoryStore}

theorem exec_nextOutbox (op : StoreOp) :
    (∃ r, (op.exec s).1 = .ok r ∧ r.created? = some (s.nextOutbox + 1) ∧
      (op.exec s).2.nextOutbox = s.nextOutbox + 1) ∨
    ((∀ r, (op.exec s).1 = .ok r → r.created? = none) ∧
      (op.exec s).2.nextOutbox = s.nextOutbox) := by
  cases op
  case enqueueOutbox => exact .inl ⟨_, rfl, rfl, rfl⟩
  case submitAtomic now msg item opts =>
    simp only [exec, reply]
    cases MemoryStore.submitAtomic_cases s now msg item opts
    case duplicate h => simp [h, Except.map, StoreReply.created?]
    case refused h => simp [h, Except.map]
    case accepted d _ hq h =>
      simp [h, Except.map, StoreReply.created?, MemoryStore.putOutbox,
        (MemoryStore.debitQuota_outbox hq).2]
  case saveMessage => simp [exec, reply, MemoryStore.saveMessage, Except.map, StoreReply.created?]
  all_goals
    refine .inr ⟨fun r h => ?_, ?_⟩
    · obtain ⟨_, _, rfl⟩ := reply_eq_ok h
      rfl
    · simp only [exec, reply]
      first
        | rfl
        | simp only [MemoryStore.markOutboxSending, MemoryStore.completeOutboxSend,
            MemoryStore.markOutboxUncertain, MemoryStore.ackOutbox, MemoryStore.failOutbox]
          repeat' split
          all_goals simp

theorem exec_wf (wf : OutboxWF s) (op : StoreOp) : OutboxWF (op.exec s).2 where
  keyed {k b} h := by
    cases op.exec_row wf k
    case same he => exact wf.keyed (he ▸ h)
    case evolves hl hd he => cases hd.symm.trans h; exact he.id_eq.trans (wf.keyed hl)
    case new hd hk _ => cases hd.symm.trans h; exact hk.symm
  bounded {k b} h := by
    have hn : s.nextOutbox ≤ (op.exec s).2.nextOutbox := by
      cases op.exec_nextOutbox (s := s) <;> grind
    cases op.exec_row wf k
    case same he => exact (wf.bounded (he ▸ h)).trans hn
    case evolves hl hd he => exact (wf.bounded hl).trans hn
    case new hk hc => exact (hk.trans hc.symm).le

end StoreOp
end SmppGateway
