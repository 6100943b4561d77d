import SmppGateway.Dispatch.Desk
import SmppGateway.Dispatch.Submit
import SmppGateway.Store.Reopen

-- Whose message everything in the gateway is about. A gateway id is given to one submission, and the provider that
-- this submission was routed to is the provider of all that bears the id: the message, its row in the outbox, and
-- its receipts.

namespace SmppGateway

open Go Machine

structure Belongs (own : Str → Str) (p : Pending) : Prop where
  provider : p.provider = own p.gatewayID
  clean    : 0 ∉ p.provider

structure OutboxItem.Belongs (own : Str → Str) (item : OutboxItem) : Prop where
  provider  : item.provider = own item.gatewayID
  clean     : 0 ∉ item.provider
  payloadID : item.payload.gatewayID = item.gatewayID
  payload   : item.payload.provider = item.provider

def Message.Belongs (own : Str → Str) (msg : Message) : Prop :=
  msg.provider = own msg.id

structure MemoryStore.Owned (own : Str → Str) (s : MemoryStore) : Prop where
  wf       : StoreWF s
  messages : ∀ m ∈ s.messages, m.Belongs own
  rows     : ∀ {k p}, s.pending.lookup k = some p → Belongs own p
  items    : ∀ {id item}, s.outbox.lookup id = some item → item.Belongs own

def StoreCall.Owned (own : Str → Str) : StoreCall → Prop
  | .outbox (.saveMessage msg)             => msg.Belongs own
  | .outbox (.enqueueOutbox _ item)        => item.Belongs own
  | .outbox (.submitAtomic _ msg item _)   => msg.Belongs own ∧ item.Belongs own
  | .savePending _ p                       => Belongs own p
  | _                                      => True

section Calls

variable {own : Str → Str} {s s' : MemoryStore} {now : Time} {k : Str} {p : Pending}

theorem Belongs.congr {p' : Pending} (h : Belongs own p) (hg : p'.gatewayID = p.gatewayID)
    (hp : p'.provider = p.provider) : Belongs own p' where
  provider := by rw [hp, hg, h.provider]
  clean    := hp ▸ h.clean

theorem OutboxItem.Belongs.evolves {a b : OutboxItem} (h : a.Belongs own) (he : Evolves a b) : b.Belongs own := by
  cases he <;> exact ⟨h.provider, h.clean, h.payloadID, h.payload⟩

theorem OutboxItem.Belongs.new {item : OutboxItem} (h : item.Belongs own) : (s.newOutboxItem now item).Belongs own :=
  ⟨h.provider, h.clean, h.payloadID, h.payload⟩

namespace MemoryStore

theorem modifyPending_frame (s : MemoryStore) (provider providerID : Str) (f : Pending → Pending) :
    ∃ r pending, s.modifyPending provider providerID f = (r, { s with pending }) := by
  unfold modifyPending
  split
  case h_1 => exact ⟨_, _, rfl⟩
  case h_2 => exact ⟨_, _, rfl⟩

theorem getPending_frame (s : MemoryStore) (now : Time) (provider providerID : Str) :
    ∃ r pending, s.getPending now provider providerID = (r, { s.sweepLocked now with pending }) := by
  unfold getPending
  simp only
  split
  case h_1 => exact ⟨_, _, rfl⟩
  case h_2 => split <;> exact ⟨_, _, rfl⟩

theorem checkIdempotency_frame (s : MemoryStore) (now : Time) (clientID key : Str) :
    (s.checkIdempotency now clientID key).2 = s ∨
    ∃ idempotency, (s.checkIdempotency now clientID key).2 = { s.sweepLocked now with idempotency } := by
  unfold checkIdempotency
  split
  case h_1 => exact .inl rfl
  case h_2 =>
    simp only
    split
    case h_1 => exact .inr ⟨_, rfl⟩
    case h_2 => split <;> exact .inr ⟨_, rfl⟩

theorem saveIdempotency_frame (s : MemoryStore) (now : Time) (g : Str) (opts : IdempotencyOptions) :
    (s.saveIdempotency now g opts).2 = s ∨
    ∃ idempotency, (s.saveIdempotency now g opts).2 = { s.sweepLocked now with idempotency } := by
  unfold saveIdempotency
  split
  case h_1 => exact .inl rfl
  case h_2 => exact .inr ((s.sweepLocked now).rememberKey_frame now g opts)

theorem mem_modifyMessage {g : Str} {f : Message → Message} {m : Message} (h : m ∈ (s.modifyMessage g f).messages) :
    m ∈ s.messages ∨ ∃ m₀ ∈ s.messages, m = f m₀ := by
  unfold modifyMessage at h
  split at h
  case h_2 => exact .inl h
  case h_1 i _ =>
    obtain ⟨j, hj⟩ := List.mem_iff_getElem?.mp h
    rw [List.getElem?_modify] at hj
    obtain ⟨m₀, hm₀, rfl⟩ := Option.map_eq_some_iff.mp hj
    have hmem := List.mem_of_getElem? hm₀
    split
    case isTrue => exact .inr ⟨m₀, hmem, rfl⟩
    case isFalse => exact .inl hmem

theorem mem_putMessage {msg m : Message} (h : m ∈ (s.putMessage msg).messages) : m ∈ s.messages ∨ m = msg := by
  unfold putMessage at h
  split at h
  case h_1 => exact (List.mem_or_eq_of_mem_set h)
  case h_2 =>
    have hm : m ∈ s.messages ++ [msg] := by
      unfold trimMessagesLocked at h
      split at h
      case isTrue => exact h
      case isFalse => exact List.mem_of_mem_drop h
    rcases List.mem_append.mp hm with hm | hm
    case inl => exact .inl hm
    case inr => exact .inr (List.mem_singleton.mp hm)

end MemoryStore

theorem Message.Belongs.modifyMessage (h : ∀ m ∈ s.messages, m.Belongs own) {g : Str} {f : Message → Message}
    (hf : ∀ m, (f m).id = m.id ∧ (f m).provider = m.provider) : ∀ m ∈ (s.modifyMessage g f).messages, m.Belongs own := by
  intro m hm
  rcases MemoryStore.mem_modifyMessage hm with hm | ⟨m₀, hm₀, rfl⟩
  case inl => exact h m hm
  case inr =>
    obtain ⟨hid, hprovider⟩ := hf m₀
    exact (hprovider.trans (h m₀ hm₀)).trans (congrArg own hid.symm)

theorem Message.Belongs.putMessage (h : ∀ m ∈ s.messages, m.Belongs own) {msg : Message} (hmsg : msg.Belongs own) :
    ∀ m ∈ (s.putMessage msg).messages, m.Belongs own := by
  intro m hm
  rcases MemoryStore.mem_putMessage hm with hm | rfl
  case inl => exact h m hm
  case inr => exact hmsg

theorem Message.Belongs.exec (h : ∀ m ∈ s.messages, m.Belongs own) (op : StoreOp) (hop : (StoreCall.outbox op).Owned own) :
    ∀ m ∈ (op.exec s).2.messages, m.Belongs own := by
  cases op <;> simp only [StoreOp.exec, StoreOp.reply]
  case saveMessage msg => exact putMessage h hop
  case enqueueOutbox | claimOutbox | requeueStaleOutbox => exact h
  case submitAtomic now msg item opts =>
    cases s.submitAtomic_cases now msg item opts
    case duplicate eq => rw [eq]; exact h
    case refused eq => rw [eq]; exact h
    case accepted d fresh debit eq =>
      have hold : (d.rememberKey now msg.id opts.idempotency).messages = s.messages := by
        obtain ⟨i, hi⟩ := d.rememberKey_frame now msg.id opts.idempotency
        obtain ⟨q, rfl⟩ := MemoryStore.debitQuota_frame debit
        rw [hi]
        rfl
      rw [eq]
      exact putMessage (hold ▸ h) hop.1
  case completeOutboxSend now id workerID ps =>
    rcases s.completeOutboxSend_cases now id workerID ps with ⟨r, hr⟩ | ⟨item, recs, -, -, hr⟩
    case inl => rw [hr]; exact h
    case inr => rw [hr]; exact modifyMessage h fun _ => ⟨rfl, rfl⟩
  case markOutboxUncertain now id workerID errMsg =>
    rcases s.markOutboxUncertain_cases now id workerID errMsg with ⟨r, hr⟩ | ⟨item, -, hr⟩
    case inl => rw [hr]; exact h
    case inr =>
      rw [hr]
      exact modifyMessage (s := { s with
        outbox := s.outbox.insert id { item with state := .uncertain, lastError := errMsg } }) h fun _ => ⟨rfl, rfl⟩
  case markOutboxSending id workerID =>
    obtain ⟨r, outbox, hr⟩ := s.markOutboxSending_frame id workerID
    rw [hr]
    exact h
  case ackOutbox id =>
    obtain ⟨r, outbox, hr⟩ := s.ackOutbox_frame id
    rw [hr]
    exact h
  case failOutbox id errMsg nextRetryAt =>
    obtain ⟨r, outbox, hr⟩ := s.failOutbox_frame id errMsg nextRetryAt
    rw [hr]
    exact h

theorem Belongs.exec (hrows : ∀ {k p}, s.pending.lookup k = some p → Belongs own p)
    (hitems : ∀ {id item}, s.outbox.lookup id = some item → item.Belongs own) (op : StoreOp)
    (hp : (op.exec s).2.pending.lookup k = some p) : Belongs own p := by
  cases op <;> simp only [StoreOp.exec, StoreOp.reply] at hp
  case saveMessage =>
    rw [MemoryStore.saveMessage, MemoryStore.putMessage_pending] at hp
    exact hrows hp
  case enqueueOutbox | claimOutbox | requeueStaleOutbox => exact hrows hp
  case submitAtomic now msg item opts =>
    have hswept : (s.submitAtomic now msg item opts).2.pending = (s.sweepLocked now).pending := by
      cases s.submitAtomic_cases now msg item opts
      case duplicate eq => rw [eq]
      case refused eq => rw [eq]
      case accepted d fresh debit eq =>
        obtain ⟨i, hi⟩ := d.rememberKey_frame now msg.id opts.idempotency
        obtain ⟨q, rfl⟩ := MemoryStore.debitQuota_frame debit
        rw [eq, MemoryStore.putOutbox, MemoryStore.putMessage_pending, hi]
    rw [hswept] at hp
    exact hrows (Map.lookup_filter_eq_some.mp hp).1
  case completeOutboxSend now id workerID ps =>
    rcases s.completeOutboxSend_cases now id workerID ps with ⟨r, hr⟩ | ⟨item, recs, hl, hv, hr⟩ <;> rw [hr] at hp
    case inl => exact hrows hp
    case inr =>
      obtain ⟨rfl, hmatch⟩ := validateOutboxCompletion_ok hv
      rcases Map.lookup_insertAll_eq_some hp with ⟨rec, hrec, -, rfl⟩ | ⟨hold, -⟩
      case inr => exact hrows hold
      case inl =>
        obtain ⟨q, hq, rfl⟩ := List.mem_map.mp hrec
        obtain ⟨-, hg, hprovider⟩ := hmatch q hq
        have hitem := hitems hl
        exact ⟨hprovider.trans (hitem.provider.trans (congrArg own hg.symm)), hprovider ▸ hitem.clean⟩
  case markOutboxUncertain now id workerID errMsg =>
    rcases s.markOutboxUncertain_cases now id workerID errMsg with ⟨r, hr⟩ | ⟨item, -, hr⟩ <;> rw [hr] at hp
    case inl => exact hrows hp
    case inr =>
      rw [MemoryStore.modifyMessage_pending] at hp
      exact hrows hp
  case markOutboxSending id workerID =>
    obtain ⟨r, outbox, hr⟩ := s.markOutboxSending_frame id workerID
    rw [hr] at hp
    exact hrows hp
  case ackOutbox id =>
    obtain ⟨r, outbox, hr⟩ := s.ackOutbox_frame id
    rw [hr] at hp
    exact hrows hp
  case failOutbox id errMsg nextRetryAt =>
    obtain ⟨r, outbox, hr⟩ := s.failOutbox_frame id errMsg nextRetryAt
    rw [hr] at hp
    exact hrows hp

end Calls

namespace MemoryStore.Owned

variable {own : Str → Str} {s s' : MemoryStore} {now : Time}

theorem of_frame (h : s.Owned own) (wf : StoreWF s') (hm : s'.messages = s.messages) (ho : s'.outbox = s.outbox)
    (hrows : ∀ {k p}, s'.pending.lookup k = some p → Belongs own p) : s'.Owned own where
  wf       := wf
  messages := hm ▸ h.messages
  rows     := hrows
  items    := fun hi => h.items (ho ▸ hi)

theorem modifyMessage (h : s.Owned own) (g : Str) {f : Message → Message}
    (hf : ∀ m, (f m).id = m.id ∧ (f m).provider = m.provider) : (s.modifyMessage g f).Owned own where
  wf       := h.wf.modifyMessage g fun m => (hf m).1
  messages := Message.Belongs.modifyMessage h.messages hf
  rows     := by rw [modifyMessage_pending]; exact h.rows
  items    := by rw [modifyMessage_outbox]; exact h.items

theorem modifyPending (h : s.Owned own) (provider providerID : Str) {f : Pending → Pending}
    (wf : StoreWF (s.modifyPending provider providerID f).2)
    (hf : ∀ p, (f p).gatewayID = p.gatewayID ∧ (f p).provider = p.provider) :
    (s.modifyPending provider providerID f).2.Owned own := by
  obtain ⟨r, pending, hframe⟩ := s.modifyPending_frame provider providerID f
  refine h.of_frame wf (by rw [hframe]) (by rw [hframe]) fun hp => ?_
  rw [modifyPending_lookup] at hp
  split at hp
  case isFalse => exact h.rows hp
  case isTrue =>
    obtain ⟨p₀, hp₀, rfl⟩ := Option.map_eq_some_iff.mp hp
    exact (h.rows hp₀).congr (hf p₀).1 (hf p₀).2

theorem sweepLocked (h : s.Owned own) (now : Time) : (s.sweepLocked now).Owned own :=
  h.of_frame (h.wf.sweepLocked now) rfl rfl fun hp => h.rows (Map.lookup_filter_eq_some.mp hp).1

theorem call (h : s.Owned own) (call : StoreCall) (hc : call.Owned own) : (call.exec s).Owned own := by
  have wf := h.wf.call call
  cases call
  case outbox op =>
    refine ⟨wf, Message.Belongs.exec h.messages op hc, fun hp => Belongs.exec h.rows h.items op hp, fun {id item} hi => ?_⟩
    cases op.exec_row h.wf.outbox id
    case same heq => exact h.items (heq.symm.trans hi)
    case evolves a b ha hb he =>
      cases hi.symm.trans hb
      exact (h.items ha).evolves he
    case new row now hgiven _ hdst _ _ =>
      cases hi.symm.trans hdst
      refine OutboxItem.Belongs.new ?_
      cases op
      case enqueueOutbox => cases hgiven; exact hc
      case submitAtomic => cases hgiven; exact hc.2
      all_goals cases hgiven
  case updateMessageSent gatewayID providerID =>
    simp only [StoreCall.exec, updateMessageSent]
    split
    case isTrue => exact h.modifyMessage gatewayID fun _ => ⟨rfl, rfl⟩
    case isFalse => exact h
  case updateMessageState gatewayID state errCode =>
    simp only [StoreCall.exec, updateMessageState]
    split
    case isTrue => exact h.modifyMessage gatewayID fun _ => ⟨rfl, rfl⟩
    case isFalse => exact h
  case savePending now p =>
    refine h.of_frame wf rfl rfl fun {k q} hq => ?_
    simp only [StoreCall.exec, savePending, Map.lookup_insert_eq] at hq
    split at hq
    case isTrue => cases hq; exact hc.congr rfl rfl
    case isFalse => exact (h.sweepLocked now).rows hq
  case getPending now provider providerID =>
    obtain ⟨r, pending, hframe⟩ := s.getPending_frame now provider providerID
    refine h.of_frame wf (by rw [StoreCall.exec, hframe]; rfl) (by rw [StoreCall.exec, hframe]; rfl) fun hp => ?_
    rw [StoreCall.exec, getPending_lookup] at hp
    exact h.rows (Option.filter_eq_some_iff.mp hp).1
  case listPendingByGatewayID | listReadyDLR | pendingSize => exact h.sweepLocked _
  case updatePendingDLR | markDLRReady | markDLRDelivered => exact h.modifyPending _ _ wf fun _ => ⟨rfl, rfl⟩
  case deletePending provider providerID =>
    refine h.of_frame wf rfl rfl fun {k p} hp => ?_
    simp only [StoreCall.exec, deletePending, Map.lookup_erase_eq] at hp
    split at hp
    case isTrue => cases hp
    case isFalse => exact h.rows hp
  case deletePendingByGatewayID | sweepExpiredPending =>
    exact h.of_frame wf rfl rfl fun hp => h.rows (Map.lookup_filter_eq_some.mp hp).1
  case reserveGatewayIDRange => exact h.of_frame wf rfl rfl h.rows
  case checkIdempotency now clientID key =>
    rcases s.checkIdempotency_frame now clientID key with heq | ⟨idempotency, heq⟩
    case inl => rw [StoreCall.exec, heq]; exact h
    case inr =>
      rw [StoreCall.exec, heq] at wf ⊢
      exact (h.sweepLocked now).of_frame wf rfl rfl (h.sweepLocked now).rows
  case saveIdempotency now gatewayID opts =>
    rcases s.saveIdempotency_frame now gatewayID opts with heq | ⟨idempotency, heq⟩
    case inl => rw [StoreCall.exec, heq]; exact h
    case inr =>
      rw [StoreCall.exec, heq] at wf ⊢
      exact (h.sweepLocked now).of_frame wf rfl rfl (h.sweepLocked now).rows

theorem newMemory : newMemory.Owned own where
  wf           := .newMemory
  messages _ h := nomatch h
  rows h       := nomatch h
  items h      := nomatch h

end MemoryStore.Owned

def StoreCall.execOption (s : MemoryStore) (call : Option StoreCall) : MemoryStore :=
  call.elim s (exec s)

-- What `Submit` asks of the store. It depends on the store in nothing.
def Submitter.queueCall? (d : Submitter) (c : SubmitChance) (identity : Option Identity) (env : Envelope) :
    Option StoreCall :=
  match d.prepare c identity env with
  | .error _ => none
  | .ok sub  => if c.fault = .lost then none else some (.outbox (.submitAtomic c.storeNow sub.msg sub.item sub.opts))

def Submitter.call? (d : Submitter) (c : SubmitChance) (env : Envelope) : Option StoreCall :=
  let env := env.received c
  match d.resolveTenant env with
  | none          => d.queueCall? c none env
  | some identity =>
    if !identity.enabled then
      none
    else if !c.allow then
      some (.checkIdempotency c.storeNow env.clientID env.clientMsgID)
    else
      d.queueCall? c (some identity) (env.identify identity)

def Handler.call? (h : Handler) (m : HandlerMove) : Option StoreCall :=
  match h.phase with
  | .lookup                => some (.getPending m.now h.dlr.provider h.dlr.providerID)
  | .update rec            =>
    some (.updatePendingDLR rec.provider rec.providerID h.dlr.state h.dlr.errorCode h.dlr.doneAt)
  | .list rec | .relist rec => some (.listPendingByGatewayID m.now rec.gatewayID)
  | .write rec aggregate   => some (.updateMessageState m.now rec.gatewayID aggregate.state aggregate.errorCode)
  | .ready rec             => some (.markDLRReady rec.provider rec.providerID h.dlr.state h.dlr.errorCode h.dlr.doneAt)
  | .mark rec              => some (.markDLRDelivered rec.provider rec.providerID)
  | .delete rec            => some (.deletePendingByGatewayID rec.gatewayID)
  | .push _ | .done        => none

def Flush.call? (f : Flush) (m : HandlerMove) : Option StoreCall :=
  match f.phase with
  | .mark   => some (.markDLRDelivered f.row.provider f.row.providerID)
  | .relist => some (.listPendingByGatewayID m.now f.row.gatewayID)
  | .delete => some (.deletePendingByGatewayID f.row.gatewayID)
  | .listed | .push | .done => none

section Calls

variable {s : MemoryStore}

theorem Submitter.queue_store (d : Submitter) (c : SubmitChance) (identity : Option Identity) (env : Envelope) :
    (d.queue s c identity env).2 = StoreCall.execOption s (d.queueCall? c identity env) := by
  unfold queue queueCall?
  cases d.prepare c identity env
  case error => rfl
  case ok sub =>
    have hstore : (c.fault.apply s (s.submitAtomic c.storeNow sub.msg sub.item sub.opts)).2 =
        StoreCall.execOption s (if c.fault = .lost then none else
          some (.outbox (.submitAtomic c.storeNow sub.msg sub.item sub.opts))) := by
      cases c.fault <;> rfl
    simp only [← hstore]
    generalize c.fault.apply s _ = r
    obtain ⟨_ | _, _⟩ := r <;> rfl

theorem Submitter.submit_store (d : Submitter) (c : SubmitChance) (env : Envelope) :
    (d.submit s c env).2 = StoreCall.execOption s (d.call? c env) := by
  simp only [submit, call?]
  cases d.resolveTenant (env.received c)
  case none => exact d.queue_store c none _
  case some identity =>
    by_cases henabled : identity.enabled <;> simp only [henabled, Bool.not_true, Bool.not_false, if_true, Bool.false_eq_true, if_false]
    case neg => rfl
    case pos =>
      by_cases hallow : c.allow <;> simp only [hallow, Bool.not_true, Bool.not_false, if_true, Bool.false_eq_true, if_false]
      case pos => exact d.queue_store c (some identity) _
      case neg =>
        simp only [overRate, StoreCall.execOption, StoreCall.exec, Option.elim_some, Envelope.identify]
        generalize s.checkIdempotency _ _ _ = r
        obtain ⟨_ | _ | _, _⟩ := r <;> rfl

theorem Handler.step_store (h : Handler) (m : HandlerMove) :
    (h.step s m).2 = StoreCall.execOption s (h.call? m) := by
  cases hp : h.phase <;> simp only [step, call?, hp, StoreCall.execOption, StoreCall.exec, Option.elim_some, Option.elim_none]
  case lookup =>
    generalize s.getPending m.now h.dlr.provider h.dlr.providerID = r
    obtain ⟨_ | _, _⟩ := r <;> rfl
  case update rec =>
    generalize s.updatePendingDLR rec.provider rec.providerID h.dlr.state h.dlr.errorCode h.dlr.doneAt = r
    obtain ⟨_ | _, _⟩ := r <;> rfl
  case push => split <;> rfl
  case mark rec =>
    generalize s.markDLRDelivered rec.provider rec.providerID = r
    obtain ⟨_ | _, _⟩ := r <;> rfl

theorem Flush.step_store (f : Flush) (m : HandlerMove) :
    (f.step s m).2 = StoreCall.execOption s (f.call? m) := by
  cases hp : f.phase <;> simp only [step, call?, hp, StoreCall.execOption, StoreCall.exec, Option.elim_some, Option.elim_none]
  case mark =>
    generalize s.markDLRDelivered f.row.provider f.row.providerID = r
    obtain ⟨_ | _, _⟩ := r <;> rfl

end Calls

inductive FailCall
  | update (now : Time)
  | queue (now : Time)
  | fail (now : Time) (jitter : Nat)
  | drop

def FailCall.exec (d : Dispatcher) (th : Thread) (s : MemoryStore) (call : FailCall) : MemoryStore :=
  match th.phase with
  | .failing err =>
    let (state, errorCode) := terminalFailureDLR err
    match call with
    | .update now      =>
      if Dispatcher.isTerminal th.item err then
        (s.updateMessageState now th.item.gatewayID state errorCode).2
      else
        s
    | .queue now       =>
      if Dispatcher.isTerminal th.item err then
        (d.queueTerminalFailureDLR s now .none th.item state errorCode).2
      else
        s
    | .fail now jitter => (s.failOutbox th.item.id err.text (Dispatcher.nextRetryAt now jitter th.item err)).2
    | .drop            =>
      (s.deletePending th.item.payload.provider (localFailureID th.item.payload.gatewayID)).2
  | _ => s

namespace FlushLoop

variable {systemID : Str} {s : MemoryStore} {order : List Str} {m : HandlerMove}

def rows : FlushLoop → List Pending
  | .work f rest  => f.row :: rest
  | .list | .done => []

def listed (systemID : Str) (s : MemoryStore) (order : List Str) (now : Time) : FlushLoop → List Pending
  | .list              => (s.listReadyDLR now order systemID 500).1
  | .work _ _ | .done => []

theorem next_rows (systemID : Str) (rest : List Pending) : (next systemID rest).rows = rest := by
  cases rest
  case nil => simp only [next]; split <;> rfl
  case cons => rfl

theorem step_list_store : (FlushLoop.list.step systemID s order m).2 = s.sweepLocked m.now := by
  have hs : (s.listReadyDLR m.now order systemID 500).2 = s.sweepLocked m.now := rfl
  simp only [step]
  generalize s.listReadyDLR m.now order systemID 500 = r at hs
  obtain ⟨_ | _, _⟩ := r <;> exact hs

theorem step_work_store {f : Flush} {rest : List Pending} :
    ((FlushLoop.work f rest).step systemID s order m).2 = (f.step s m).2 := by
  simp only [step]
  split <;> rename_i heq <;> rw [heq]

theorem mem_step_rows {l : FlushLoop} {row : Pending} (h : row ∈ (l.step systemID s order m).1.rows) :
    row ∈ l.rows ∨ row ∈ l.listed systemID s order m.now := by
  cases l
  case list =>
    refine .inr ?_
    simp only [step] at h
    simp only [listed]
    generalize s.listReadyDLR m.now order systemID 500 = r at h
    obtain ⟨_ | _, _⟩ := r
    case nil => cases h
    case cons => exact h
  case done => cases h
  case work f rest =>
    refine .inl ?_
    simp only [step] at h
    have hrow := f.step_row s m
    split at h
    case h_1 =>
      split at h
      case isTrue => cases h
      case isFalse =>
        rw [next_rows] at h
        exact List.mem_cons_of_mem _ h
    case h_2 heq =>
      rw [heq] at hrow
      rw [rows, hrow] at h
      exact h

end FlushLoop

structure FlushDLRCall where
  systemID : Str
  loop     : FlushLoop := .list

-- The receiver may take some receipts and refuse others.
def FlushLoop.move (now : Time) (outcome : Pending → PushOutcome) : FlushLoop → HandlerMove
  | .work f _     => { now, outcome := outcome f.row }
  | .list | .done => { now }

theorem FlushLoop.move_now (now : Time) (outcome : Pending → PushOutcome) (l : FlushLoop) :
    (l.move now outcome).now = now := by
  cases l <;> rfl

structure Relay where
  store    : MemoryStore
  threads  : List Thread := []
  handlers : Map Nat Handler := ∅
  calls    : Map Nat FlushDLRCall := ∅

inductive RelayEvent
  | submit (d : Submitter) (c : SubmitChance) (env : Envelope)
  | requeueStaleOutbox (order : List Int) (before : Time) (limit : Int)
  | claimOutbox (now : Time) (workerID : Str) (limit : Int) (fault : Fault)
  | move (i : Nat) (m : Move)
  | failing (i : Nat) (call : FailCall)
  | receive (i : Nat) (dlr : Dlr)
  | handle (i : Nat) (m : HandlerMove)
  | flushDLR (i : Nat) (systemID : Str)
  | flush (i : Nat) (now : Time) (order : List Str) (outcome : Pending → PushOutcome)

namespace Relay

def init : Relay where
  store := newMemory

def step (d : Dispatcher) (w : Relay) : RelayEvent → Relay
  | .submit sub c env => { w with store := (sub.submit w.store c env).2 }
  | .requeueStaleOutbox order before limit => { w with store := (w.store.requeueStaleOutbox order before limit).2 }
  | .claimOutbox now workerID limit fault =>
    let r := fault.apply w.store (w.store.claimOutbox now workerID limit)
    { w with store := r.2, threads := w.threads ++ Workers.spawn r.1 }
  | .move i m =>
    match w.threads[i]? with
    | none    => w
    | some th =>
      let (th', s) := th.step d w.store m
      { w with store := s, threads := w.threads.set i th' }
  | .failing i call =>
    match w.threads[i]? with
    | none    => w
    | some th => { w with store := call.exec d th w.store }
  | .receive i dlr => { w with handlers := w.handlers.insert i { dlr } }
  | .handle i m =>
    match w.handlers.lookup i with
    | none   => w
    | some h =>
      let (h', s) := h.step w.store m
      { w with store := s, handlers := w.handlers.insert i h' }
  | .flushDLR i systemID => { w with calls := w.calls.insert i { systemID } }
  | .flush i now order outcome =>
    match w.calls.lookup i with
    | none   => w
    | some c =>
      let (loop, s) := c.loop.step c.systemID w.store order (c.loop.move now outcome)
      { w with store := s, calls := w.calls.insert i { c with loop } }

end Relay

structure Relay.Owned (own : Str → Str) (w : Relay) : Prop where
  store   : w.store.Owned own
  threads : ∀ th ∈ w.threads, th.item.Belongs own

def RelayEvent.Owned (own : Str → Str) : RelayEvent → Prop
  | .submit d c env => ∀ call ∈ d.call? c env, call.Owned own
  | _               => True

section Steps

variable {own : Str → Str} {s : MemoryStore} {d : Dispatcher}

theorem MemoryStore.Owned.execOption (h : s.Owned own) {call : Option StoreCall} (hc : ∀ c ∈ call, c.Owned own) :
    (StoreCall.execOption s call).Owned own := by
  cases call
  case none => exact h
  case some c => exact h.call c (hc c rfl)

theorem Handler.call?_owned (h : Handler) (m : HandlerMove) : ∀ c ∈ h.call? m, c.Owned own := by
  intro c hc
  cases hp : h.phase <;> rw [call?, hp] at hc <;> cases hc <;> trivial

theorem Flush.call?_owned (f : Flush) (m : HandlerMove) : ∀ c ∈ f.call? m, c.Owned own := by
  intro c hc
  cases hp : f.phase <;> rw [call?, hp] at hc <;> cases hc <;> trivial

theorem FlushLoop.step_owned (hs : s.Owned own) (l : FlushLoop) (systemID : Str) (order : List Str)
    (m : HandlerMove) : (l.step systemID s order m).2.Owned own := by
  cases l
  case list =>
    rw [step_list_store]
    exact hs.sweepLocked m.now
  case work f rest =>
    rw [step_work_store, f.step_store]
    exact hs.execOption (f.call?_owned m)
  case done => exact hs

theorem OutboxItem.Belongs.respects {item : OutboxItem} (hi : item.Belongs own) :
    item.Respects d fun s s' => s' = s ∧ s.Owned own where
  mark       := by
    rintro s _ ⟨rfl, h⟩
    exact ⟨rfl, rfl, h.call (.outbox (.markOutboxSending item.id item.claimedBy)) trivial⟩
  complete   := by
    rintro s _ now ps ⟨rfl, h⟩
    exact ⟨rfl, rfl, h.call (.outbox (.completeOutboxSend now item.id item.claimedBy ps)) trivial⟩
  doubt      := by
    rintro s _ now reason ⟨rfl, h⟩
    exact ⟨rfl, rfl, h.call (.outbox (.markOutboxUncertain now item.id item.claimedBy reason)) trivial⟩
  update     := by
    rintro s _ now state code ⟨rfl, h⟩
    exact ⟨rfl, rfl, h.call (.updateMessageState now item.gatewayID state code) trivial⟩
  queue      := by
    rintro s _ now state code ⟨rfl, h⟩
    refine ⟨rfl, h.call (.savePending now (d.terminalFailurePending now item.payload state code)) ⟨?_, ?_⟩⟩
    case refine_1 => exact hi.payload.trans (hi.provider.trans (congrArg own hi.payloadID.symm))
    case refine_2 =>
      have hclean := hi.clean
      rwa [← hi.payload] at hclean
  fail       := by
    rintro s _ errMsg next ⟨rfl, h⟩
    exact ⟨rfl, rfl, h.call (.outbox (.failOutbox item.id errMsg next)) trivial⟩
  drop       := by
    rintro s _ ⟨rfl, h⟩
    exact ⟨rfl, h.call (.deletePending _ _) trivial⟩

theorem FailCall.exec_respects {R : MemoryStore → MemoryStore → Prop} {s s' : MemoryStore} {th : Thread}
    (h : th.item.Respects d R) (hs : R s s') (call : FailCall) : R (call.exec d th s) (call.exec d th s') := by
  unfold exec
  split
  case h_2 => exact hs
  case h_1 =>
    cases call <;> simp only
    case update now =>
      split
      case isTrue => exact (h.update now _ _ hs).2
      case isFalse => exact hs
    case queue now =>
      split
      case isTrue => exact (h.queueTerminalFailureDLR hs now .none _ _).2
      case isFalse => exact hs
    case fail => exact (h.fail _ _ hs).2
    case drop => exact h.drop hs

end Steps

namespace Relay.Owned

variable {own : Str → Str} {d : Dispatcher} {w : Relay} {s : MemoryStore}

theorem init : Relay.init.Owned own where
  store       := .newMemory
  threads _ h := nomatch h

theorem spawn (h : w.Owned own) (now : Time) (workerID : Str) (limit : Int) (fault : Fault) :
    ∀ th ∈ Workers.spawn (fault.apply w.store (w.store.claimOutbox now workerID limit)).1, th.item.Belongs own := by
  intro th hth
  cases fault
  case lost | applied => cases hth
  case none =>
    obtain ⟨item, hitem, rfl⟩ := List.mem_map.mp hth
    obtain ⟨row, hrow, rfl⟩ := List.mem_map.mp hitem
    obtain ⟨id, hl, hpending, -⟩ := MemoryStore.mem_claimCandidates hrow
    exact (h.store.items hl).evolves (.claim workerID now hpending)

theorem step (h : w.Owned own) {e : RelayEvent} (he : e.Owned own) : (w.step d e).Owned own := by
  cases e
  case submit sub c env =>
    refine ⟨?_, h.threads⟩
    simp only [Relay.step, sub.submit_store]
    exact h.store.execOption he
  case requeueStaleOutbox order before limit =>
    exact ⟨h.store.call (.outbox (.requeueStaleOutbox order before limit)) trivial, h.threads⟩
  case claimOutbox now workerID limit fault =>
    have hclaim := h.store.call (.outbox (.claimOutbox now workerID limit)) trivial
    refine ⟨?_, ?_⟩
    case refine_1 => cases fault <;> first | exact hclaim | exact h.store
    case refine_2 =>
      intro th hth
      rcases List.mem_append.mp hth with hth | hth
      case inl => exact h.threads th hth
      case inr => exact h.spawn now workerID limit fault th hth
  case move i m =>
    simp only [Relay.step]
    split
    case h_1 => exact h
    case h_2 th hth =>
      have hitem := h.threads th (List.mem_of_getElem? hth)
      refine ⟨th.step_invariant hitem.respects h.store m, ?_⟩
      intro th' hth'
      rcases List.mem_or_eq_of_mem_set hth' with hold | rfl
      case inl => exact h.threads th' hold
      case inr => rw [Thread.step_item]; exact hitem
  case failing i call =>
    simp only [Relay.step]
    split
    case h_1 => exact h
    case h_2 th hth =>
      have hitem := h.threads th (List.mem_of_getElem? hth)
      exact ⟨(FailCall.exec_respects hitem.respects ⟨rfl, h.store⟩ call).2, h.threads⟩
  case receive | flushDLR => exact ⟨h.store, h.threads⟩
  case handle i m =>
    simp only [Relay.step]
    split
    case h_1 => exact h
    case h_2 c _ =>
      refine ⟨?_, h.threads⟩
      simp only [c.step_store]
      exact h.store.execOption (c.call?_owned m)
  case flush i now order outcome =>
    simp only [Relay.step]
    split
    case h_1 => exact h
    case h_2 c _ => exact ⟨c.loop.step_owned h.store c.systemID order _, h.threads⟩

end Relay.Owned

end SmppGateway
