import SmppGateway.Lib.Machine
import SmppGateway.Store.Outbox

-- How often the rows of the outbox are tried.

namespace SmppGateway

open Go Machine MemoryStore

def OutboxItem.UsedUp (item : OutboxItem) : Prop :=
  item.maxAttempts ≤ item.attempt

namespace StoreOp

def picks (s : MemoryStore) : StoreOp → List Int
  | claimOutbox now _ limit => (s.claimCandidates now limit).map (·.id)
  | _                       => []

def added (s : MemoryStore) (op : StoreOp) : Option OutboxItem :=
  (op.exec s).2.outbox.lookup (s.nextOutbox + 1)

def PutBack (s : MemoryStore) (op : StoreOp) (k : Int) : Prop :=
  (∃ order before limit, op = .requeueStaleOutbox order before limit) ∧
    ∃ a b, s.outbox.lookup k = some a ∧ a.state = .claimed ∧ a.UsedUp ∧
      (op.exec s).2.outbox.lookup k = some b ∧ b.state = .pending

variable {s : MemoryStore} {op : StoreOp} {k : Int}

inductive RowChange (s : MemoryStore) (op : StoreOp) (k : Int) : Prop
  | absent (src : s.outbox.lookup k = none) (dst : (op.exec s).2.outbox.lookup k = none)
  | added (src : s.outbox.lookup k = none) (id : k = s.nextOutbox + 1)
  | claimed (a b : OutboxItem) (src : s.outbox.lookup k = some a) (dst : (op.exec s).2.outbox.lookup k = some b)
    (pick : k ∈ op.picks s) (pending : a.state = .pending) (attempt : b.attempt = a.attempt + 1)
    (limit : b.maxAttempts = a.maxAttempts) (state : b.state ≠ .pending)
  | kept (a b : OutboxItem) (src : s.outbox.lookup k = some a) (dst : (op.exec s).2.outbox.lookup k = some b)
    (unpicked : k ∉ op.picks s) (attempt : b.attempt = a.attempt) (limit : b.maxAttempts = a.maxAttempts)
    (queued : b.state = .pending → b.UsedUp → a.state = .pending ∨ PutBack s op k)

theorem RowChange.of_same (h : (op.exec s).2.outbox.lookup k = s.outbox.lookup k) (hp : k ∉ op.picks s) :
    RowChange s op k := by
  cases hl : s.outbox.lookup k
  case none => exact .absent hl (h.trans hl)
  case some a => exact .kept a a hl (h.trans hl) hp rfl rfl fun hs _ => .inl hs

theorem RowChange.of_insert {id : Int} {a b : OutboxItem} (hl : s.outbox.lookup id = some a)
    (hs : (op.exec s).2.outbox = s.outbox.insert id b) (hp : op.picks s = []) (attempt : b.attempt = a.attempt)
    (limit : b.maxAttempts = a.maxAttempts) (queued : b.state = .pending → ¬b.UsedUp) : RowChange s op k := by
  have hpk : k ∉ op.picks s := by simp [hp]
  by_cases hk : k = id
  case pos =>
    subst hk
    exact .kept a b hl (hs ▸ AList.lookup_insert _) hpk attempt limit fun h h' => absurd h' (queued h)
  case neg => exact .of_same (hs ▸ AList.lookup_insert_ne hk) hpk

theorem RowChange.of_putOutbox {s' : MemoryStore} {now : Time} {item : OutboxItem} (wf : OutboxWF s)
    (hs : (op.exec s).2 = s'.putOutbox now item) (ho : s'.outbox = s.outbox) (hn : s'.nextOutbox = s.nextOutbox)
    (hp : op.picks s = []) : RowChange s op k := by
  by_cases hk : k = s.nextOutbox + 1
  case pos => exact .added (hk ▸ wf.fresh) hk
  case neg => exact .of_same (by simp [hs, putOutbox, ho, hn, hk]) (by simp [hp])

theorem exec_change (wf : OutboxWF s) (op : StoreOp) (k : Int) : RowChange s op k := by
  cases op
  case saveMessage => exact .of_same (by simp [exec, reply, MemoryStore.saveMessage]) (by simp [picks])
  case enqueueOutbox => exact .of_putOutbox wf rfl rfl rfl rfl
  case submitAtomic now msg item opts =>
    cases submitAtomic_cases s now msg item opts
    case duplicate h => exact .of_same (by simp [exec, reply, h]) (by simp [picks])
    case refused h => exact .of_same (by simp [exec, reply, h]) (by simp [picks])
    case accepted d _ hq h =>
      obtain ⟨ho, hn⟩ := debitQuota_outbox hq
      have hs : (exec s (.submitAtomic now msg item opts)).2 =
          ((d.rememberKey now msg.id opts.idempotency).putMessage msg).putOutbox now item := by simp [exec, reply, h]
      exact .of_putOutbox wf hs (by simp [ho]) (by simp [hn]) rfl
  case claimOutbox now workerID limit =>
    rcases claimOutbox_lookup wf now workerID limit k with ⟨a, hl, hs, hout, h⟩ | ⟨hno, h⟩
    case inl =>
      have hpick : k ∈ (s.claimCandidates now limit).map (·.id) := by
        obtain ⟨c, hc, heq⟩ := List.mem_map.mp hout
        have hid : c.id = a.id := by simpa [claimItem] using congrArg OutboxItem.id heq
        exact List.mem_map.mpr ⟨c, hc, hid.trans (wf.keyed hl)⟩
      exact .claimed a _ hl h hpick hs rfl rfl (by simp [claimItem])
    case inr =>
      refine .of_same h fun hpick => ?_
      obtain ⟨c, hc, rfl⟩ := List.mem_map.mp hpick
      exact hno _ (List.mem_map_of_mem hc) rfl
  case markOutboxSending id workerID =>
    rcases markOutboxSending_cases s id workerID with ⟨r, h⟩ | ⟨a, hl, h⟩
    case inl => exact .of_same (by simp [exec, reply, h]) (by simp [picks])
    case inr =>
      exact .of_insert (b := { a with state := .sending }) hl
        (congrArg (·.2.outbox) h) rfl rfl rfl (by simp)
  case completeOutboxSend now id workerID ps =>
    rcases completeOutboxSend_cases s now id workerID ps with ⟨r, h⟩ | ⟨a, recs, hl, -, h⟩
    case inl => exact .of_same (by simp [exec, reply, h]) (by simp [picks])
    case inr =>
      exact .of_insert (b := { a with state := .done, payload := scrubOutboxPayload a.payload }) hl
        (congrArg (·.2.outbox) h) rfl rfl rfl (by simp)
  case markOutboxUncertain now id workerID e =>
    rcases markOutboxUncertain_cases s now id workerID e with ⟨r, h⟩ | ⟨a, hl, h⟩
    case inl => exact .of_same (by simp [exec, reply, h]) (by simp [picks])
    case inr =>
      exact .of_insert (b := { a with state := .uncertain, lastError := e }) hl
        ((congrArg (·.2.outbox) h).trans modifyMessage_outbox) rfl rfl rfl (by simp)
  case requeueStaleOutbox order before limit =>
    have hpk : k ∉ picks s (.requeueStaleOutbox order before limit) := by simp [picks]
    rcases requeueStaleOutbox.go_lookup (k := k) before (if limit ≤ 0 then 1000 else limit.toNat) s.outbox 0 order with
      h | ⟨a, hl, hs, h⟩
    case inl => exact .of_same h hpk
    case inr =>
      refine .kept a _ hl h hpk rfl rfl fun _ hused => .inr ?_
      exact ⟨⟨order, before, limit, rfl⟩, a, _, hl, hs, hused, h, rfl⟩
  case ackOutbox id =>
    rcases ackOutbox_cases s id with ⟨r, h⟩ | ⟨a, hl, h⟩
    case inl => exact .of_same (by simp [exec, reply, h]) (by simp [picks])
    case inr =>
      exact .of_insert (b := { a with state := .done, payload := scrubOutboxPayload a.payload }) hl
        (congrArg (·.2.outbox) h) rfl rfl rfl (by simp)
  case failOutbox id e next =>
    rcases failOutbox_cases s id e next with ⟨r, h⟩ | ⟨a, hl, h⟩ | ⟨a, hl, hleft, h⟩
    case inl => exact .of_same (by simp [exec, reply, h]) (by simp [picks])
    case inr.inl =>
      exact .of_insert (b := { a with lastError := e, state := .failed }) hl
        (congrArg (·.2.outbox) h) rfl rfl rfl (by simp)
    case inr.inr =>
      exact .of_insert (b := { a with
        lastError := e, state := .pending, nextRetryAt := next, claimedBy := [], claimedAt := 0 }) hl
        (congrArg (·.2.outbox) h) rfl rfl rfl fun _ hused => not_le.mpr hleft hused

theorem exec_usedUp {a : OutboxItem} (wf : OutboxWF s) (op : StoreOp) (hl : s.outbox.lookup k = some a)
    (hused : a.UsedUp) : ∃ b, (op.exec s).2.outbox.lookup k = some b ∧ b.UsedUp := by
  unfold OutboxItem.UsedUp at *
  cases op.exec_change wf k
  case absent src _ => cases hl.symm.trans src
  case added src _ => cases hl.symm.trans src
  case claimed a' b src dst pick pending attempt limit state =>
    cases hl.symm.trans src
    exact ⟨b, dst, by omega⟩
  case kept a' b src dst unpicked attempt limit queued =>
    cases hl.symm.trans src
    exact ⟨b, dst, by omega⟩

end StoreOp

def MemoryStore.WithinLimits (s : MemoryStore) : Prop :=
  ∀ k item, s.outbox.lookup k = some item → item.attempt ≤ item.maxAttempts

-- The store, and the rows that were queued without an attempt left: put back after their last one, or submitted so.
structure Attempts where
  store : MemoryStore
  spent : Set Int

namespace Attempts

def step (t : Attempts) (op : StoreOp) : Attempts where
  store := (op.exec t.store).2
  spent := { k | k ∈ t.spent ∨ op.PutBack t.store k ∨
    k = t.store.nextOutbox + 1 ∧ ∃ item ∈ op.added t.store, item.UsedUp }

def Careful (t : Attempts) (op : StoreOp) : Prop :=
  (∀ item ∈ op.added t.store, item.attempt ≤ item.maxAttempts) ∧ ∀ k ∈ op.picks t.store, k ∉ t.spent

structure WF (t : Attempts) : Prop where
  outbox : OutboxWF t.store
  queued : ∀ k item, t.store.outbox.lookup k = some item → item.state = .pending → item.UsedUp → k ∈ t.spent
  spent  : ∀ k ∈ t.spent, ∃ item, t.store.outbox.lookup k = some item ∧ item.UsedUp

variable {t : Attempts} {op : StoreOp}

theorem WF.step (wf : WF t) : WF (t.step op) where
  outbox := StoreOp.exec_wf wf.outbox op
  queued k item hfound hstate hused := by
    cases op.exec_change wf.outbox k
    case absent dst => cases dst.symm.trans hfound
    case added id =>
      subst id
      exact .inr (.inr ⟨rfl, item, hfound, hused⟩)
    case claimed a b src dst pick pending attempt limit state =>
      cases dst.symm.trans hfound
      exact absurd hstate state
    case kept a b src dst unpicked attempt limit queued =>
      cases dst.symm.trans hfound
      rcases queued hstate hused with hpending | hback
      case inl =>
        refine .inl (wf.queued k a src hpending ?_)
        rwa [OutboxItem.UsedUp, ← attempt, ← limit]
      case inr => exact .inr (.inl hback)
  spent k hk := by
    rcases hk with hk | ⟨-, a, b, src, -, hused, -⟩ | ⟨rfl, item, hfound, hused⟩
    case inl =>
      obtain ⟨a, src, hused⟩ := wf.spent k hk
      exact op.exec_usedUp wf.outbox src hused
    case inr.inl => exact op.exec_usedUp wf.outbox src hused
    case inr.inr => exact ⟨item, hfound, hused⟩

theorem step_withinLimits_iff (wf : WF t) (hw : t.store.WithinLimits) :
    Careful t op ↔ (t.step op).store.WithinLimits := by
  constructor
  case mp =>
    rintro ⟨hadded, hpicks⟩ k item hfound
    cases op.exec_change wf.outbox k
    case absent dst => cases dst.symm.trans hfound
    case added id =>
      subst id
      exact hadded item hfound
    case claimed a b src dst pick pending attempt limit state =>
      cases dst.symm.trans hfound
      have hleft : ¬a.UsedUp := fun hused => hpicks k pick (wf.queued k a src pending hused)
      rw [OutboxItem.UsedUp] at hleft
      omega
    case kept a b src dst unpicked attempt limit queued =>
      cases dst.symm.trans hfound
      have := hw k a src
      omega
  case mpr =>
    intro hstep
    refine ⟨fun item hfound => hstep _ item hfound, fun k hpick hspent => ?_⟩
    obtain ⟨a, src, hused⟩ := wf.spent k hspent
    rw [OutboxItem.UsedUp] at hused
    cases op.exec_change wf.outbox k
    case absent src' _ => cases src.symm.trans src'
    case added src' _ => cases src.symm.trans src'
    case claimed a' b src' dst _ pending attempt limit state =>
      cases src.symm.trans src'
      have := hstep k b dst
      omega
    case kept unpicked _ _ _ => exact unpicked hpick

-- The limits are kept along a run if no row that was put back after its last attempt is claimed, and only then (rows
-- that are submitted without an attempt left count among them).
theorem withinLimits_iff (ops : List StoreOp) :
    Always step (·.store.WithinLimits) ⟨newMemory, ∅⟩ ops ↔ Along step Careful ⟨newMemory, ∅⟩ ops := by
  have wf : WF ⟨newMemory, ∅⟩ := by
    refine ⟨.newMemory, fun k item hfound => ?_, fun k hk => absurd hk (Set.notMem_empty k)⟩
    simp [newMemory] at hfound
  have hw : newMemory.WithinLimits := by
    intro k item hfound
    simp [newMemory] at hfound
  refine Always.iff_along (I := WF) (A := fun _ => True) wf hw (fun _ _ => trivial) ?_ ?_
  case refine_1 => exact fun t op hi _ => hi.step
  case refine_2 => exact fun t op hi _ hw => step_withinLimits_iff hi hw

-- One attempt is allowed. The worker that has claimed the row goes away, and the row is put back and claimed again.
def lastAttemptLost : List StoreOp :=
  [.submitAtomic 1 { id := lit "m1" }
      { gatewayID := lit "m1", payload := { gatewayID := lit "m1" }, maxAttempts := 1 } {},
    .claimOutbox 1 (lit "w1") 1, .requeueStaleOutbox [1] 10 1, .claimOutbox 10 (lit "w2") 1]

theorem last_attempt_repeated : ¬Always step (·.store.WithinLimits) ⟨newMemory, ∅⟩ lastAttemptLost := by
  intro h
  have hrow : ((run step ⟨newMemory, ∅⟩ lastAttemptLost).store.outbox.lookup 1).map
      (fun item => (item.attempt, item.maxAttempts)) = some (2, 1) := by
    decide +kernel
  obtain ⟨item, hfound, heq⟩ := Option.map_eq_some_iff.mp hrow
  have hle := h lastAttemptLost List.prefix_rfl 1 item hfound
  rw [(Prod.mk.inj heq).1, (Prod.mk.inj heq).2] at hle
  exact absurd hle (by decide)

end Attempts

end SmppGateway
