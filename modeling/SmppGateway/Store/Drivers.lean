import SmppGateway.Lib.Machine
import SmppGateway.Store.Outbox
import SmppGateway.Store.Postgres
import SmppGateway.Store.Submit

-- The same calls on both drivers of the store, one after the other and under one clock.

namespace SmppGateway

open Go Machine

inductive OutboxCall
  | submitAtomic (msg : Message) (item : OutboxItem) (opts : SubmitOptions)
  | claimOutbox (workerID : Str) (limit : Int)
  | markOutboxSending (id : Int) (workerID : Str)
  | completeOutboxSend (id : Int) (workerID : Str) (pending : List Pending)
  | markOutboxUncertain (id : Int) (workerID errMsg : Str)
  | requeueStaleOutbox (before : Time) (limit : Int)
  | ackOutbox (id : Int)
  | failOutbox (id : Int) (errMsg : Str) (nextRetryAt : Time)

-- A call with what it meets: the time, the order in which the memory driver would visit its rows,
-- and whether the database reports an error.
structure DriverCall where
  call    : OutboxCall
  now     : Time
  order   : List Int := []
  refused : Bool := false

namespace DriverCall

def storeOp (c : DriverCall) : StoreOp :=
  match c.call with
  | .submitAtomic msg item opts             => .submitAtomic c.now msg item opts
  | .claimOutbox workerID limit             => .claimOutbox c.now workerID limit
  | .markOutboxSending id workerID          => .markOutboxSending id workerID
  | .completeOutboxSend id workerID pending => .completeOutboxSend c.now id workerID pending
  | .markOutboxUncertain id workerID errMsg => .markOutboxUncertain c.now id workerID errMsg
  | .requeueStaleOutbox before limit        => .requeueStaleOutbox c.order before limit
  | .ackOutbox id                           => .ackOutbox id
  | .failOutbox id errMsg nextRetryAt       => .failOutbox id errMsg nextRetryAt

def reply {α : Type} (f : α → StoreReply) (r : PostgresResult α) : PostgresResult StoreReply :=
  (r.1.map f, r.2)

def sql (c : DriverCall) (t : PostgresStore) : PostgresResult StoreReply :=
  if c.refused then
    (.error .database, t)
  else
    match c.call with
    | .submitAtomic msg item opts             => reply .submitted (t.submitAtomic c.now msg item opts)
    | .claimOutbox workerID limit             => reply .items (t.claimOutbox c.now workerID limit)
    | .markOutboxSending id workerID          => reply (fun _ => .done) (t.markOutboxSending id workerID)
    | .completeOutboxSend id workerID pending =>
      reply (fun _ => .done) (t.completeOutboxSend c.now id workerID pending)
    | .markOutboxUncertain id workerID errMsg =>
      reply (fun _ => .done) (t.markOutboxUncertain c.now id workerID errMsg)
    | .requeueStaleOutbox before limit        => reply .count (t.requeueStaleOutbox c.now before limit)
    | .ackOutbox id                           => reply (fun _ => .done) (t.ackOutbox id)
    | .failOutbox id errMsg nextRetryAt       => reply (fun _ => .done) (t.failOutbox id errMsg nextRetryAt)

end DriverCall

structure Drivers where
  memory   : MemoryStore
  postgres : PostgresStore
  clock    : Time -- the last reading of the clock

namespace Drivers

def empty : Drivers where
  memory   := newMemory
  postgres := newPostgres
  clock    := 0

def step (d : Drivers) (c : DriverCall) : Drivers where
  memory   := (c.storeOp.exec d.memory).2
  postgres := (c.sql d.postgres).2
  clock    := c.now

def SameOutcome (d : Drivers) (c : DriverCall) : Prop :=
  (c.storeOp.exec d.memory).1.isOk = (c.sql d.postgres).1.isOk

instance : DecidableRel SameOutcome :=
  fun _ _ => inferInstanceAs (Decidable (_ = _))

def SameRows (d : Drivers) : Prop :=
  ∀ id, (d.memory.outbox.lookup id).map (fun item => (item.state, item.attempt, item.gatewayID)) =
    (d.postgres.outbox.lookup id).map fun row => (row.state, row.attempt, row.gatewayID)

def Comparable (d : Drivers) (now : Time) (order : List Int) : OutboxCall → Prop
  -- The row is a new one, there is room for the message, and the key does not expire at this instant.
  | .submitAtomic _ item opts =>
    d.memory.messages.length < d.memory.maxMessages ∧
    item.attempt = 0 ∧ item.state ≠ .claimed ∧
    (item.state = .sending ∨ item.state = .uncertain → item.claimedBy = []) ∧
    1000 ∣ item.nextRetryAt ∧
    ∀ rec ∈ MemoryStore.idempotencyKey? opts.idempotency >>= d.memory.idempotency.lookup, rec.expiresAt ≠ now
  -- The row's message is known.
  | .markOutboxUncertain id workerID _ =>
    ∀ item ∈ d.memory.outbox.lookup id, item.state = .sending ∨ item.state = .uncertain →
      item.claimedBy = workerID → item.gatewayID ∈ d.memory.messageByID
  -- The limit does not bind.
  | .requeueStaleOutbox before limit =>
    1000 ∣ before ∧ order.Perm d.memory.outbox.keys ∧
    (d.memory.outbox.entries.filter fun e => MemoryStore.isStale before e.2).length ≤
      if limit ≤ 0 then 1000 else limit.toNat
  -- A row is only given another try while it has attempts left.
  | .failOutbox id _ nextRetryAt =>
    1000 ∣ nextRetryAt ∧ (nextRetryAt ≠ 0 → ∀ item ∈ d.memory.outbox.lookup id,
      item.state = .claimed ∨ item.state = .sending → item.attempt < item.maxAttempts)
  | _ => True

-- The database takes the statement, and the clock shows whole microseconds and never goes back.
structure Permits (d : Drivers) (c : DriverCall) : Prop where
  accepted   : c.refused = false
  started    : 0 < c.now
  forward    : d.clock ≤ c.now
  micros     : 1000 ∣ c.now
  comparable : d.Comparable c.now c.order c.call

end Drivers

-- A row in both drivers. Whose claim it is matters only while there is one.
structure SameRow (clock : Time) (item : OutboxItem) (row : OutboxRow) : Prop where
  gatewayID   : row.gatewayID = item.gatewayID
  provider    : row.provider = item.provider
  state       : row.state = item.state
  attempt     : row.attempt = item.attempt
  maxAttempts : row.maxAttempts = item.maxAttempts
  nextRetryAt : row.nextRetryAt = item.nextRetryAt
  dated       : item.state = .pending ∨ item.state = .claimed → item.nextRetryAt ≠ 0
  owner       : item.state = .sending ∨ item.state = .uncertain → row.claimedBy.getD [] = item.claimedBy
  claimedBy   : item.state = .claimed → row.claimedBy = some item.claimedBy
  claimedAt   : item.state = .claimed → row.claimedAt = some item.claimedAt ∧ item.claimedAt ≠ 0 ∧
    item.nextRetryAt ≤ item.claimedAt ∧ item.claimedAt ≤ clock

structure Related (clock : Time) (s : MemoryStore) (t : PostgresStore) : Prop where
  rows     : ∀ id, Option.Rel (SameRow clock) (s.outbox.lookup id) (t.outbox.lookup id)
  ids      : t.outboxIDSeq = s.nextOutbox
  messages : ∀ g, g ∈ t.messages ↔ g ∈ s.messageByID
  quota    : ∀ k, t.tenantQuotaUsage.lookup k = s.quotaUsage.lookup k
  keys     : ∀ {k rec}, s.idempotency.lookup k = some rec →
    t.idempotency.lookup k = some ⟨rec.gatewayID, timestamptz rec.expiresAt⟩
  expired  : ∀ {k rec}, s.idempotency.lookup k = none → t.idempotency.lookup k = some rec →
    rec.expiresAt < clock

theorem timestamptz_le (t : Time) : timestamptz t ≤ t :=
  Int.ediv_mul_le t (by decide)

theorem timestamptz_eq {t : Time} (h : 1000 ∣ t) : timestamptz t = t :=
  Int.ediv_mul_cancel h

theorem le_timestamptz {now t : Time} (h : 1000 ∣ now) : now ≤ timestamptz t ↔ now ≤ t := by
  obtain ⟨k, rfl⟩ := h
  have hcol : k * 1000 ≤ t / 1000 * 1000 ↔ k ≤ t / 1000 := Int.mul_le_mul_iff_of_pos_right (by decide)
  rw [timestamptz, Int.mul_comm 1000 k]
  exact hcol.trans (Int.le_ediv_iff_mul_le (by decide))

theorem SameRow.tick {c c' : Time} {item : OutboxItem} {row : OutboxRow} (hc : c ≤ c') (h : SameRow c item row) :
    SameRow c' item row :=
  { h with
    claimedAt := fun hs =>
      have ⟨ha, hz, hr, hle⟩ := h.claimedAt hs
      ⟨ha, hz, hr, hle.trans hc⟩ }

namespace Related

variable {c c' : Time} {s : MemoryStore} {t : PostgresStore} {id : Int} {item : OutboxItem} {row : OutboxRow}

theorem tick (hc : c ≤ c') (h : Related c s t) : Related c' s t :=
  { h with
    rows := fun id =>
      match s.outbox.lookup id, t.outbox.lookup id, h.rows id with
      | _, _, .some hrow => .some (hrow.tick hc)
      | _, _, .none      => .none
    expired := fun hs ht => (h.expired hs ht).trans_le hc }

theorem empty : Related 0 newMemory newPostgres where
  rows id  := .none
  ids      := rfl
  messages := fun g => by simp [newPostgres, newMemory]
  quota k  := rfl
  keys     := nofun
  expired  := nofun

theorem row_cases (h : Related c s t) (id : Int) :
    (s.outbox.lookup id = none ∧ t.outbox.lookup id = none) ∨
    ∃ item row, s.outbox.lookup id = some item ∧ t.outbox.lookup id = some row ∧ SameRow c item row := by
  have hr := h.rows id
  generalize s.outbox.lookup id = a, t.outbox.lookup id = b at hr ⊢
  cases hr
  case none => exact .inl ⟨rfl, rfl⟩
  case some item row hrow => exact .inr ⟨item, row, rfl, rfl, hrow⟩

theorem put (h : Related c s t) (hrow : SameRow c item row) :
    Related c { s with outbox := s.outbox.insert id item } { t with outbox := t.outbox.insert id row } :=
  { h with
    rows := fun id' => by
      simp only [Map.lookup_insert_eq]
      split
      case isTrue => exact .some hrow
      case isFalse => exact h.rows id' }

end Related

structure Agree {α β : Type} (clock : Time) (r : StoreResult α) (r' : PostgresResult β) : Prop where
  outcome : r.1.isOk = r'.1.isOk
  related : Related clock r.2 r'.2

theorem SameRow.final {c : Time} {item item' : OutboxItem} {row row' : OutboxRow} (h : SameRow c item row)
    (hitem : item' = { item with state := item'.state, payload := item'.payload, lastError := item'.lastError })
    (hg : row'.gatewayID = row.gatewayID) (hp : row'.provider = row.provider) (hs : row'.state = item'.state)
    (ha : row'.attempt = row.attempt) (hm : row'.maxAttempts = row.maxAttempts)
    (hn : row'.nextRetryAt = row.nextRetryAt) (hf : item'.state = .done ∨ item'.state = .failed) :
    SameRow c item' row' where
  gatewayID   := hg.trans (h.gatewayID.trans (by rw [hitem]))
  provider    := hp.trans (h.provider.trans (by rw [hitem]))
  state       := hs
  attempt     := ha.trans (h.attempt.trans (by rw [hitem]))
  maxAttempts := hm.trans (h.maxAttempts.trans (by rw [hitem]))
  nextRetryAt := hn.trans (h.nextRetryAt.trans (by rw [hitem]))
  dated       := by rcases hf with hf | hf <;> simp [hf]
  owner       := by rcases hf with hf | hf <;> simp [hf]
  claimedBy   := by rcases hf with hf | hf <;> simp [hf]
  claimedAt   := by rcases hf with hf | hf <;> simp [hf]

theorem validateOutboxCompletion_congr {item item' : OutboxItem} {pending : List Pending}
    (hg : item.gatewayID = item'.gatewayID) (hp : item.provider = item'.provider) :
    validateOutboxCompletion item pending = validateOutboxCompletion item' pending := by
  have hgo (i : Nat) : validateOutboxCompletion.go item i pending = validateOutboxCompletion.go item' i pending := by
    induction pending generalizing i
    case nil => rfl
    case cons p ps hi => simp only [validateOutboxCompletion.go, hg, hp, hi]
  rw [validateOutboxCompletion, validateOutboxCompletion, hgo]

namespace MemoryStore

theorem modifyMessage_frame (s : MemoryStore) (g : Str) (f : Message → Message) :
    ∃ messages, s.modifyMessage g f = { s with messages } := by
  unfold modifyMessage
  split
  case h_1 => exact ⟨_, rfl⟩
  case h_2 => exact ⟨_, rfl⟩

end MemoryStore

namespace Related

variable {c now : Time} {s : MemoryStore} {t : PostgresStore} {id : Int} {workerID errMsg : Str}

theorem markOutboxSending (h : Related c s t) :
    Agree c (s.markOutboxSending id workerID) (t.markOutboxSending id workerID) := by
  rcases h.row_cases id with ⟨hs, ht⟩ | ⟨item, row, hs, ht, hrow⟩
  case inl =>
    rw [PostgresStore.markOutboxSending_none ht]
    simp only [MemoryStore.markOutboxSending, hs]
    exact ⟨rfl, h⟩
  case inr =>
    rw [PostgresStore.markOutboxSending_some ht, hrow.state]
    simp only [MemoryStore.markOutboxSending, hs]
    by_cases hc : item.state = .claimed
    case pos =>
      have hmine : row.claimedBy = some workerID ↔ item.claimedBy = workerID := by
        rw [hrow.claimedBy hc, Option.some.injEq]
      by_cases hw : item.claimedBy = workerID
      case pos =>
        subst hw
        simp only [hc, hmine, reduceCtorEq, false_and, if_false, ne_eq, not_true_eq_false, or_self, and_self, if_true]
        have howner : row.claimedBy.getD [] = item.claimedBy := by rw [hrow.claimedBy hc]; rfl
        exact ⟨rfl, h.put { hrow with
          state := rfl, dated := by simp, owner := fun _ => howner, claimedBy := by simp, claimedAt := by simp }⟩
      case neg =>
        simp only [hc, hmine, hw, reduceCtorEq, false_and, and_false, if_false, ne_eq, not_false_eq_true, or_true, if_true]
        exact ⟨rfl, h⟩
    case neg =>
      simp only [hc, false_and, if_false, ne_eq, not_false_eq_true, true_or, if_true]
      by_cases hsend : item.state = .sending
      case pos =>
        rw [hrow.owner (.inl hsend)]
        split <;> exact ⟨rfl, h⟩
      case neg =>
        simp only [hsend, false_and, if_false]
        exact ⟨rfl, h⟩

theorem completeOutboxSend (h : Related c s t) {pending : List Pending} :
    Agree c (s.completeOutboxSend now id workerID pending) (t.completeOutboxSend now id workerID pending) := by
  rcases h.row_cases id with ⟨hs, ht⟩ | ⟨item, row, hs, ht, hrow⟩
  case inl =>
    simp only [MemoryStore.completeOutboxSend, PostgresStore.completeOutboxSend, hs, ht]
    exact ⟨rfl, h⟩
  case inr =>
    by_cases hsend : item.state = .sending ∧ item.claimedBy = workerID
    case neg =>
      have hsend' : ¬(item.state = .sending ∧ row.claimedBy.getD [] = workerID) :=
        fun h => hsend ⟨h.1, (hrow.owner (.inl h.1)).symm.trans h.2⟩
      simp only [MemoryStore.completeOutboxSend, PostgresStore.completeOutboxSend, hs, ht, hrow.state, ne_eq,
        not_and_or.mp hsend, not_and_or.mp hsend', if_true]
      split <;> exact ⟨rfl, h⟩
    case pos =>
      obtain ⟨hst, rfl⟩ := hsend
      have hval : validateOutboxCompletion
          { id, gatewayID := row.gatewayID, provider := row.provider, payload := { gatewayID := [] } } pending =
          validateOutboxCompletion item pending :=
        validateOutboxCompletion_congr hrow.gatewayID hrow.provider
      have howner := hrow.owner (.inl hst)
      cases hv : validateOutboxCompletion item pending
      case error e =>
        simp only [MemoryStore.completeOutboxSend, PostgresStore.completeOutboxSend, hs, ht, hrow.state, hst, howner,
          hval, hv, reduceCtorEq, if_false, ne_eq, not_true_eq_false, or_self]
        exact ⟨rfl, h⟩
      case ok recs =>
        have hpg := PostgresStore.completeOutboxSend_checked now ht (hrow.state.trans hst) howner (hval.trans hv)
        simp only [hrow.gatewayID, h.messages] at hpg
        simp only [MemoryStore.completeOutboxSend, hs, hst, hv, reduceCtorEq, if_false, ne_eq, not_true_eq_false,
          or_self]
        split at hpg
        case isFalse hm =>
          rw [if_neg hm, hpg]
          exact ⟨rfl, h⟩
        case isTrue hm =>
          obtain ⟨messages, pending', hkeys, hpg⟩ := hpg
          obtain ⟨messages', hmod⟩ := s.modifyMessage_frame item.gatewayID fun msg =>
            { msg with
              providerID := (recs.head?.map (·.providerID)).getD []
              state := lit "sent", sentAt := now }
          rw [if_pos hm, hpg, hmod]
          have hdone : SameRow c { item with state := .done, payload := scrubOutboxPayload item.payload }
              (PostgresStore.finishRow row) :=
            hrow.final rfl rfl rfl rfl rfl rfl rfl (.inl rfl)
          exact ⟨rfl, { h.put hdone with messages := hkeys }⟩

theorem markOutboxUncertain (h : Related c s t)
    (hm : ∀ item ∈ s.outbox.lookup id, item.state = .sending ∨ item.state = .uncertain →
      item.claimedBy = workerID → item.gatewayID ∈ s.messageByID) :
    Agree c (s.markOutboxUncertain now id workerID errMsg) (t.markOutboxUncertain now id workerID errMsg) := by
  rcases h.row_cases id with ⟨hs, ht⟩ | ⟨item, row, hs, ht, hrow⟩
  case inl =>
    simp only [MemoryStore.markOutboxUncertain, PostgresStore.markOutboxUncertain, hs, ht]
    exact ⟨rfl, h⟩
  case inr =>
    by_cases hst : item.state = .sending ∨ item.state = .uncertain
    case neg =>
      simp only [MemoryStore.markOutboxUncertain, PostgresStore.markOutboxUncertain, hs, ht, hrow.state, ne_eq,
        not_or.mp hst, not_false_eq_true, and_self, true_or, if_true]
      exact ⟨rfl, h⟩
    case pos =>
      have hst' : ¬(item.state ≠ .sending ∧ item.state ≠ .uncertain) := fun hn => hst.elim hn.1 hn.2
      have howner := hrow.owner hst
      by_cases hw : item.claimedBy = workerID
      case neg =>
        simp only [MemoryStore.markOutboxUncertain, PostgresStore.markOutboxUncertain, hs, ht, hrow.state, hst',
          howner, ne_eq, hw, not_false_eq_true, or_true, if_true, if_false]
        exact ⟨rfl, h⟩
      case pos =>
        obtain ⟨messages, hkeys, hpg⟩ := PostgresStore.markOutboxUncertain_checked now errMsg ht
          (hrow.state ▸ hst) (howner.trans hw) (hrow.gatewayID ▸ (h.messages _).mpr (hm item hs hst hw))
        subst hw
        rw [hpg]
        simp only [MemoryStore.markOutboxUncertain, hs, hst', ne_eq, not_true_eq_false, if_false]
        obtain ⟨messages', hmod⟩ := MemoryStore.modifyMessage_frame
          { s with outbox := s.outbox.insert id { item with state := .uncertain, lastError := errMsg } } item.gatewayID
          fun msg => { msg with state := lit "UNKNOWN", errorCode := 1, doneAt := now }
        rw [hmod]
        have hdoubt : SameRow c { item with state := .uncertain, lastError := errMsg }
            { row with state := .uncertain, lastError := some errMsg } :=
          { hrow with
            state := rfl, dated := by simp, owner := fun _ => howner, claimedBy := by simp, claimedAt := by simp }
        exact ⟨rfl, { h.put hdoubt with messages := fun g => (hkeys g).trans (h.messages g) }⟩

theorem ackOutbox (h : Related c s t) : Agree c (s.ackOutbox id) (t.ackOutbox id) := by
  rcases h.row_cases id with ⟨hs, ht⟩ | ⟨item, row, hs, ht, hrow⟩
  case inl =>
    simp only [MemoryStore.ackOutbox, PostgresStore.ackOutbox, hs, Table.updateKey_none ht]
    exact ⟨rfl, h⟩
  case inr =>
    rw [PostgresStore.ackOutbox_some ht, hrow.state]
    simp only [MemoryStore.ackOutbox, hs]
    by_cases hc : item.state = .claimed
    case neg =>
      simp only [hc, ne_eq, not_false_eq_true, if_true, if_false]
      exact ⟨rfl, h⟩
    case pos =>
      simp only [hc, ne_eq, not_true_eq_false, if_true, if_false]
      exact ⟨rfl, h.put (hrow.final rfl rfl rfl rfl rfl rfl rfl (.inl rfl))⟩

theorem failOutbox {nextRetryAt : Time} (h : Related c s t) (hmicros : 1000 ∣ nextRetryAt)
    (hleft : nextRetryAt ≠ 0 → ∀ item ∈ s.outbox.lookup id,
      item.state = .claimed ∨ item.state = .sending → item.attempt < item.maxAttempts) :
    Agree c (s.failOutbox id errMsg nextRetryAt) (t.failOutbox id errMsg nextRetryAt) := by
  rcases h.row_cases id with ⟨hs, ht⟩ | ⟨item, row, hs, ht, hrow⟩
  case inl =>
    simp only [MemoryStore.failOutbox, PostgresStore.failOutbox, hs, Table.updateKey_none ht]
    exact ⟨rfl, h⟩
  case inr =>
    rw [PostgresStore.failOutbox_some ht, hrow.state]
    simp only [MemoryStore.failOutbox, hs]
    by_cases hlive : item.state = .claimed ∨ item.state = .sending
    case neg =>
      obtain ⟨hc, hsend⟩ := not_or.mp hlive
      simp only [hc, hsend, ne_eq, not_false_eq_true, and_self, or_self, if_true, if_false, ite_self]
      split <;> exact ⟨rfl, h⟩
    case pos =>
      have hlive' : ¬(item.state ≠ .claimed ∧ item.state ≠ .sending) := fun hn => hlive.elim hn.1 hn.2
      by_cases hz : nextRetryAt = 0
      case pos =>
        simp only [hz, true_or, if_true, hlive, hlive', if_false]
        exact ⟨rfl, h.put (hrow.final rfl rfl rfl rfl rfl rfl rfl (.inr rfl))⟩
      case neg =>
        have hmore : ¬item.maxAttempts ≤ item.attempt := Int.not_le.mpr (hleft hz item hs hlive)
        simp only [hz, hmore, or_self, if_false]
        by_cases hc : item.state = .claimed
        case neg =>
          simp only [hc, ne_eq, not_false_eq_true, if_true, if_false]
          exact ⟨rfl, h⟩
        case pos =>
          simp only [hc, ne_eq, not_true_eq_false, if_true, if_false]
          exact ⟨rfl, h.put { hrow with
            state := rfl, nextRetryAt := timestamptz_eq hmicros, dated := fun _ => hz, owner := by simp
            claimedBy := by simp, claimedAt := by simp }⟩

end Related

namespace MemoryStore

variable {s : MemoryStore} {now : Time} {limit : Int}

def dueKeys (s : MemoryStore) (now : Time) (limit : Int) : List Int :=
  Table.selectKeys (fun item : OutboxItem => item.state = .pending ∧ item.nextRetryAt ≤ now) (·.nextRetryAt)
    (if limit ≤ 0 then 1 else limit.toNat) s.outbox

theorem claimCandidates_ids (wf : OutboxWF s) : (s.claimCandidates now limit).map (·.id) = s.dueKeys now limit := by
  have hkey {a b : OutboxItem} : claimLe a b ↔ toLex (a.nextRetryAt, a.id) ≤ toLex (b.nextRetryAt, b.id) := by
    rw [Prod.Lex.toLex_le_toLex]
    rfl
  have hentries : ((s.outbox.entries.map (·.2)).filter fun item => item.state = .pending ∧ item.nextRetryAt ≤ now).map
      (fun item => toLex (item.nextRetryAt, item.id)) =
      (s.outbox.entries.filter fun e => e.2.state = .pending ∧ e.2.nextRetryAt ≤ now).map
        fun e => toLex (e.2.nextRetryAt, e.1) := by
    rw [List.filter_map, List.map_map]
    refine List.map_congr_left fun e he => ?_
    rw [Function.comp_apply, wf.keyed (Map.mem_entries_iff.mp (List.mem_of_mem_filter he))]
  rw [dueKeys, Table.selectKeys, Table.ordered, ← hentries,
    ← List.map_insertionSort claimLe _ _ _ fun a _ b _ => hkey, ← List.map_take, List.map_map]
  rfl

theorem lookup_claimOutbox (wf : OutboxWF s) {workerID : Str} {k : Int} :
    (s.claimOutbox now workerID limit).2.outbox.lookup k =
      (s.outbox.lookup k).map fun item => if k ∈ s.dueKeys now limit then claimItem workerID now item else item := by
  rw [← claimCandidates_ids wf]
  rcases claimOutbox_lookup wf now workerID limit k with ⟨item, hl, -, hm, h⟩ | ⟨hne, h⟩
  case inl =>
    obtain ⟨item', hc, he⟩ := List.mem_map.mp hm
    have hid : item'.id = item.id := (OutboxItem.mk.inj he).1
    have hk : k ∈ (s.claimCandidates now limit).map (·.id) :=
      List.mem_map.mpr ⟨item', hc, hid.trans (wf.keyed hl)⟩
    rw [h, hl, Option.map_some, if_pos hk]
  case inr =>
    have hk : k ∉ (s.claimCandidates now limit).map (·.id) := by
      intro hk
      obtain ⟨item, hc, rfl⟩ := List.mem_map.mp hk
      exact hne _ (List.mem_map_of_mem hc) rfl
    simp only [if_neg hk, Option.map_id', h]

end MemoryStore

namespace Related

variable {c now : Time} {s : MemoryStore} {t : PostgresStore} {limit : Int}

theorem claimOutbox {workerID : Str} (wf : OutboxWF s) (h : Related now s t) (hnow : 0 < now) (hmicros : 1000 ∣ now) :
    Agree now (s.claimOutbox now workerID limit) (t.claimOutbox now workerID limit) := by
  -- Both drivers pick the same ids.
  have hids : Table.selectKeys (PostgresStore.isDue now) (·.nextRetryAt) (if limit ≤ 0 then 1 else limit.toNat) t.outbox =
      s.dueKeys now limit := by
    unfold MemoryStore.dueKeys Table.selectKeys
    rw [Table.ordered_congr]
    intro k x
    rcases h.row_cases k with ⟨hs, ht⟩ | ⟨item, row, hs, ht, hrow⟩
    case inl => simp [hs, ht]
    case inr => simp [hs, ht, PostgresStore.isDue, hrow.state, hrow.nextRetryAt, timestamptz_eq hmicros]
  refine ⟨rfl, { h with rows := fun k => ?_ }⟩
  rw [MemoryStore.lookup_claimOutbox wf]
  simp only [PostgresStore.claimOutbox, hids, Table.lookup_updateIn]
  rcases h.row_cases k with ⟨hs, ht⟩ | ⟨item, row, hs, ht, hrow⟩
  case inl => rw [hs, ht]; exact .none
  case inr =>
    rw [hs, ht]
    refine .some ?_
    split
    case isFalse => exact hrow
    case isTrue hk =>
      obtain ⟨item', hl, hdue⟩ := Table.cond_of_mem_selectKeys hk
      cases hs.symm.trans hl
      obtain ⟨hst, hle⟩ := of_decide_eq_true hdue
      exact { hrow with
        state := rfl, attempt := congrArg (· + 1) hrow.attempt, dated := fun _ => hrow.dated (.inl hst), owner := nofun
        claimedBy := fun _ => rfl
        claimedAt := fun _ => ⟨congrArg some (timestamptz_eq hmicros), Int.ne_of_gt hnow, hle, Int.le_refl now⟩ }

end Related

namespace MemoryStore

theorem isStale_iff {before : Time} {item : OutboxItem} :
    isStale before item ↔ item.state = .claimed ∧ item.claimedAt ≠ 0 ∧ item.claimedAt < before := by
  simp [isStale, and_assoc]

theorem requeueStaleOutbox.go_lookup_all {before : Time} {limit : Nat} {order : List Int} {k : Int}
    {outbox : Map Int OutboxItem} {count : Nat} (hn : order.Nodup)
    (hc : count + (order.filter fun id => (outbox.lookup id).any (isStale before)).length ≤ limit) :
    (go before limit outbox count order).1.lookup k =
      (outbox.lookup k).map fun item => if k ∈ order ∧ isStale before item then requeueItem before item else item := by
  induction order generalizing outbox count
  case nil => simp [go]
  case cons id order hi =>
    obtain ⟨hid, hn⟩ := List.nodup_cons.mp hn
    have hother (hk : k ≠ id) : k ∈ id :: order ↔ k ∈ order := by simp [hk]
    cases hl : outbox.lookup id
    case none =>
      rw [List.filter_cons_of_neg (by simp [hl])] at hc
      simp only [go, hl, hi hn hc]
      by_cases hk : k = id
      case pos => rw [hk, hl]; rfl
      case neg => simp only [hother hk]
    case some item =>
      by_cases hst : isStale before item
      case neg =>
        rw [List.filter_cons_of_neg (by simp [hl, hst])] at hc
        simp only [go, hl, hst, Bool.not_false, if_true, hi hn hc]
        by_cases hk : k = id
        case pos => subst hk; simp [hl, hst]
        case neg => simp only [hother hk]
      case pos =>
        rw [List.filter_cons_of_pos (by simp [hl, hst]), List.length_cons] at hc
        -- The row just requeued does not come up again.
        have hrest : (order.filter fun i => ((outbox.insert id (requeueItem before item)).lookup i).any (isStale before)) =
            order.filter fun i => (outbox.lookup i).any (isStale before) := by
          refine List.filter_congr fun i hmem => ?_
          rw [AList.lookup_insert_ne (ne_of_mem_of_not_mem hmem hid)]
        simp only [go, hl, hst, Bool.not_true, Bool.false_eq_true, if_false]
        split
        case isTrue hstop =>
          have hnone : ∀ i ∈ order, ¬(outbox.lookup i).any (isStale before) := by
            refine List.filter_eq_nil_iff.mp (List.length_eq_zero_iff.mp ?_)
            omega
          by_cases hk : k = id
          case pos => subst hk; simp [hl, hst]
          case neg =>
            rw [AList.lookup_insert_ne hk]
            cases hlk : outbox.lookup k
            case none => rfl
            case some item' =>
              have hquiet : ¬(k ∈ id :: order ∧ isStale before item') := by
                rintro ⟨hmem, hst'⟩
                exact hnone k ((hother hk).mp hmem) (by simp [hlk, hst'])
              rw [Option.map_some, if_neg hquiet]
        case isFalse =>
          rw [hi hn (by rw [hrest]; omega)]
          by_cases hk : k = id
          case pos => subst hk; simp [hl, hst, hid]
          case neg => simp only [AList.lookup_insert_ne hk, hother hk]

theorem lookup_requeueStaleOutbox {s : MemoryStore} {order : List Int} {before : Time} {limit : Int} {k : Int}
    (hperm : order.Perm s.outbox.keys)
    (hfit : (s.outbox.entries.filter fun e => isStale before e.2).length ≤ if limit ≤ 0 then 1000 else limit.toNat) :
    (s.requeueStaleOutbox order before limit).2.outbox.lookup k =
      (s.outbox.lookup k).map fun item => if isStale before item then requeueItem before item else item := by
  have hcount : (order.filter fun id => (s.outbox.lookup id).any (isStale before)).length =
      (s.outbox.entries.filter fun e => isStale before e.2).length := by
    rw [(hperm.filter _).length_eq]
    have hkeys : s.outbox.keys = s.outbox.entries.map Sigma.fst := rfl
    rw [hkeys, List.filter_map, List.length_map]
    refine congrArg List.length (List.filter_congr fun e he => ?_)
    simp [Map.mem_entries_iff.mp he]
  have hall : ∀ item, s.outbox.lookup k = some item → k ∈ order := fun item hl =>
    hperm.mem_iff.mpr (AList.mem_keys.mpr (AList.lookup_isSome.mp (by rw [hl]; rfl)))
  refine (requeueStaleOutbox.go_lookup_all (hperm.nodup_iff.mpr s.outbox.keys_nodup) (by omega)).trans ?_
  cases hl : s.outbox.lookup k
  case none => rfl
  case some item => simp only [Option.map_some, hall item hl, true_and]

end MemoryStore

namespace SameRow

variable {now before : Time} {item : OutboxItem} {row : OutboxRow}

theorem isStale (h : SameRow now item row) (hbefore : 1000 ∣ before) :
    PostgresStore.isStale before row = MemoryStore.isStale before item := by
  by_cases hc : item.state = .claimed
  case neg => simp [PostgresStore.isStale, MemoryStore.isStale, h.state, hc]
  case pos =>
    obtain ⟨hat, hz, -⟩ := h.claimedAt hc
    simp [PostgresStore.isStale, MemoryStore.isStale, h.state, hc, hat, hz, timestamptz_eq hbefore]

-- The row was due when it was claimed, and it was claimed before the limit: neither driver moves its time.
theorem requeue (h : SameRow now item row) (hnow : 1000 ∣ now) (hst : MemoryStore.isStale before item) :
    SameRow now (MemoryStore.requeueItem before item) (PostgresStore.requeueRow now row) := by
  obtain ⟨hc, -, hlt⟩ := MemoryStore.isStale_iff.mp hst
  obtain ⟨-, -, hle, hclock⟩ := h.claimedAt hc
  have hdated := h.dated (.inr hc)
  have hmem : (MemoryStore.requeueItem before item).nextRetryAt = item.nextRetryAt := by
    have hkeep : ¬(item.nextRetryAt = 0 ∨ before < item.nextRetryAt) := by
      rintro (hz | hb)
      case inl => exact hdated hz
      case inr => exact absurd (hb.trans_le hle) (lt_asymm hlt)
    simp only [MemoryStore.requeueItem, if_neg hkeep]
  have hpg : (PostgresStore.requeueRow now row).nextRetryAt = item.nextRetryAt := by
    simp only [PostgresStore.requeueRow, h.nextRetryAt, timestamptz_eq hnow]
    exact min_eq_left (hle.trans hclock)
  exact { h with
    state := rfl, nextRetryAt := hpg.trans hmem.symm, dated := fun _ => hmem ▸ hdated, owner := by simp [MemoryStore.requeueItem]
    claimedBy := by simp [MemoryStore.requeueItem], claimedAt := by simp [MemoryStore.requeueItem] }

end SameRow

namespace Related

variable {c now before : Time} {s : MemoryStore} {t : PostgresStore} {limit : Int}

theorem requeueStaleOutbox {order : List Int} (h : Related now s t) (hnow : 1000 ∣ now) (hbefore : 1000 ∣ before)
    (hperm : order.Perm s.outbox.keys)
    (hfit : (s.outbox.entries.filter fun e => MemoryStore.isStale before e.2).length ≤
      if limit ≤ 0 then 1000 else limit.toNat) :
    Agree now (s.requeueStaleOutbox order before limit) (t.requeueStaleOutbox now before limit) := by
  have hordered : Table.ordered (PostgresStore.isStale before) (·.claimedAt.getD 0) t.outbox =
      Table.ordered (MemoryStore.isStale before) (·.claimedAt) s.outbox := by
    refine Table.ordered_congr fun k x => ?_
    rcases h.row_cases k with ⟨hs, ht⟩ | ⟨item, row, hs, ht, hrow⟩
    case inl => simp [hs, ht]
    case inr =>
      simp only [hs, ht, Option.some.injEq, exists_eq_left', hrow.isStale hbefore]
      refine and_congr_right fun hst => ?_
      rw [(hrow.claimedAt (MemoryStore.isStale_iff.mp hst).1).1]
      rfl
  have hfit' : (t.outbox.entries.filter fun e => PostgresStore.isStale before e.2).length ≤
      if limit ≤ 0 then 1000 else limit.toNat := by
    have hlength := congrArg List.length hordered
    rw [Table.length_ordered, Table.length_ordered] at hlength
    exact hlength.trans_le hfit
  refine ⟨rfl, { h with rows := fun k => ?_ }⟩
  rw [MemoryStore.lookup_requeueStaleOutbox hperm hfit]
  simp only [PostgresStore.requeueStaleOutbox, Table.lookup_updateIn, Table.mem_selectKeys hfit']
  rcases h.row_cases k with ⟨hs, ht⟩ | ⟨item, row, hs, ht, hrow⟩
  case inl => rw [hs, ht]; exact .none
  case inr =>
    simp only [hs, ht, Option.some.injEq, exists_eq_left', hrow.isStale hbefore, Option.map_some]
    refine .some ?_
    split
    case isFalse => exact hrow
    case isTrue hst => exact hrow.requeue hnow hst

end Related

namespace MemoryStore

variable {s : MemoryStore}

theorem putMessage_frame (msg : Message) (h : s.messages.length < s.maxMessages) : ∃ messages messageByID,
    s.putMessage msg = { s with messages, messageByID } ∧
    ∀ g, g ∈ messageByID ↔ g = msg.id ∨ g ∈ s.messageByID := by
  unfold putMessage
  split
  case h_1 idx hidx =>
    refine ⟨_, s.messageByID, rfl, fun g => ⟨.inr, ?_⟩⟩
    rintro (rfl | hg)
    case inl => exact AList.lookup_isSome.mp (by rw [hidx]; rfl)
    case inr => exact hg
  case h_2 =>
    have hroom : s.maxMessages = 0 ∨ (s.messages ++ [msg]).length ≤ s.maxMessages := by
      rw [List.length_append]
      exact .inr h
    refine ⟨_, _, if_pos hroom, fun g => AList.mem_insert _⟩

theorem rememberKey_withQuota {now : Time} {g : Str} {opts : IdempotencyOptions} {q : Map (Str × Str) Int64} :
    { s with quotaUsage := q }.rememberKey now g opts = { s.rememberKey now g opts with quotaUsage := q } := by
  unfold rememberKey
  split <;> rfl

end MemoryStore

namespace Related

variable {now : Time} {s : MemoryStore} {t : PostgresStore} {item : OutboxItem}

theorem debitQuota (hq : ∀ k, t.tenantQuotaUsage.lookup k = s.quotaUsage.lookup k) (quota : Option DailyQuotaDebit) :
    (∃ e e', s.debitQuota quota = .error e ∧ t.debitQuota quota = .error e') ∨
    ∃ q q', s.debitQuota quota = .ok { s with quotaUsage := q } ∧
      t.debitQuota quota = .ok { t with tenantQuotaUsage := q' } ∧ ∀ k, q'.lookup k = q.lookup k := by
  cases quota
  case none => exact .inr ⟨_, _, rfl, rfl, hq⟩
  case some quota =>
    simp only [MemoryStore.debitQuota, PostgresStore.debitQuota]
    split
    case isTrue => exact .inr ⟨_, _, rfl, rfl, hq⟩
    case isFalse hl =>
      cases hv : validateDailyQuotaDebit quota
      case error e => exact .inl ⟨_, _, rfl, rfl⟩
      case ok =>
        by_cases hbig : quota.limit < quota.segments
        case pos =>
          simp only [hbig, true_or, if_true]
          exact .inl ⟨_, _, rfl, rfl⟩
        case neg =>
          simp only [hbig, false_or, if_false, MemoryStore.usage, hq]
          cases hu : s.quotaUsage.lookup (quota.tenantID, quota.date)
          case none =>
            have hroom : ¬quota.limit - quota.segments < 0 := by
              obtain ⟨hseg, hlim⟩ := MemoryStore.validateDailyQuotaDebit_pos hv
              have hmax := quota.limit.toInt_lt
              rw [Int64.lt_iff_toInt_lt] at hbig ⊢
              rw [Int64.toInt_sub, Int.bmod_eq_of_le (by omega) (by omega), Int64.toInt_zero]
              omega
            simp only [Option.getD_none, hroom, if_false, Int64.zero_add]
            refine .inr ⟨_, _, rfl, rfl, fun k => ?_⟩
            simp only [Map.lookup_insert_eq, hq]
          case some used =>
            simp only [Option.getD_some]
            by_cases hle : used ≤ quota.limit - quota.segments
            case pos =>
              simp only [hle, Int64.not_lt.mpr hle, if_true, if_false]
              refine .inr ⟨_, _, rfl, rfl, fun k => ?_⟩
              simp only [Map.lookup_insert_eq, hq]
            case neg =>
              simp only [hle, Int64.not_le.mp hle, if_true, if_false]
              exact .inl ⟨_, _, rfl, rfl⟩

theorem sweepLocked (h : Related now s t) : Related now (s.sweepLocked now) t :=
  { h with
    keys := fun hk => h.keys (Map.lookup_filter_eq_some.mp hk).1
    expired := fun {k rec} hs ht => by
      cases hk : s.idempotency.lookup k
      case none => exact h.expired hk ht
      case some rec₀ =>
        simp only [MemoryStore.sweepLocked, Map.lookup_filter, hk, Option.filter_eq_none_iff] at hs
        have hswept := hs rec₀ rfl
        simp only [Bool.not_eq_true, Bool.not_eq_false', Bool.and_eq_true, decide_eq_true_eq] at hswept
        cases ht.symm.trans (h.keys hk)
        exact (timestamptz_le _).trans_lt hswept.2 }

theorem takeKey {opts : IdempotencyOptions} (gatewayID : Str) (h : Related now s t) (hmicros : 1000 ∣ now)
    (hexact : ∀ rec ∈ MemoryStore.idempotencyKey? opts >>= s.idempotency.lookup, rec.expiresAt ≠ now) :
    (∃ g, s.liveDuplicate now opts = some g ∧ t.takeKey now gatewayID opts = .ok (.inl g)) ∨
    s.liveDuplicate now opts = none ∧ ∃ idempotency,
      t.takeKey now gatewayID opts = .ok (.inr { t with idempotency }) ∧
      Related now (s.rememberKey now gatewayID opts) { t with idempotency } := by
  cases hopts : MemoryStore.idempotencyKey? opts
  case none =>
    refine .inr ⟨by simp [MemoryStore.liveDuplicate, hopts], t.idempotency, by simp [PostgresStore.takeKey, hopts], ?_⟩
    simp only [MemoryStore.rememberKey, hopts]
    exact h
  case some k =>
    simp only [hopts, Option.bind_eq_bind, Option.bind_some] at hexact
    have hdup : s.liveDuplicate now opts =
        ((s.idempotency.lookup k).filter (now < ·.expiresAt)).map (·.gatewayID) := by
      simp only [MemoryStore.liveDuplicate, hopts, Option.bind_eq_bind, Option.bind_some]
      cases s.idempotency.lookup k
      case none => rfl
      case some rec =>
        rw [Option.filter_some]
        by_cases hlive : now < rec.expiresAt <;> simp [hlive]
    by_cases hlive : ∃ rec, s.idempotency.lookup k = some rec ∧ now < rec.expiresAt
    case pos =>
      obtain ⟨rec, hs, hlt⟩ := hlive
      have hlive : timestamptz now ≤ timestamptz rec.expiresAt := by
        rw [timestamptz_eq hmicros, le_timestamptz hmicros]
        exact hlt.le
      have htake := PostgresStore.takeKey_live gatewayID hopts (h.keys hs) hlive
      exact .inl ⟨rec.gatewayID, by simp [hdup, hs, hlt], htake⟩
    case neg =>
      have hnone : s.liveDuplicate now opts = none := by
        rw [hdup, Option.map_eq_none_iff, Option.filter_eq_none_iff]
        exact fun rec hs hlt => hlive ⟨rec, hs, of_decide_eq_true hlt⟩
      have hold : ∀ rec, t.idempotency.lookup k = some rec → rec.expiresAt < timestamptz now := by
        intro rec hrec
        rw [timestamptz_eq hmicros]
        cases hs : s.idempotency.lookup k
        case none => exact h.expired hs hrec
        case some rec₀ =>
          cases hrec.symm.trans (h.keys hs)
          have hle : rec₀.expiresAt ≤ now := not_lt.mp fun hlt => hlive ⟨rec₀, hs, hlt⟩
          exact (timestamptz_le _).trans_lt (lt_of_le_of_ne hle (hexact rec₀ hs))
      obtain ⟨idempotency, htake, hlookup⟩ := PostgresStore.takeKey_free gatewayID hopts hold
      refine .inr ⟨hnone, idempotency, htake, ?_⟩
      simp only [MemoryStore.rememberKey, hopts]
      refine { h with keys := fun {k' rec} hs => ?_, expired := fun {k' rec} hs ht => ?_ }
      case refine_1 =>
        rw [hlookup]
        rw [Map.lookup_insert_eq] at hs
        split at hs
        case isTrue hk => cases hs; rw [if_pos hk]
        case isFalse hk => rw [if_neg hk]; exact h.keys hs
      case refine_2 =>
        rw [Map.lookup_insert_eq] at hs
        split at hs
        case isTrue => cases hs
        case isFalse hk =>
          rw [hlookup, if_neg hk] at ht
          exact h.expired hs ht

theorem newRow (hnow : 0 < now) (hmicros : 1000 ∣ now) (hattempt : item.attempt = 0) (hstate : item.state ≠ .claimed)
    (howner : item.state = .sending ∨ item.state = .uncertain → item.claimedBy = [])
    (hretry : 1000 ∣ item.nextRetryAt) : SameRow now (s.newOutboxItem now item) (PostgresStore.newOutboxRow now item) where
  gatewayID   := rfl
  provider    := rfl
  state       := rfl
  attempt     := hattempt.symm
  maxAttempts := rfl
  nextRetryAt := by
    refine timestamptz_eq ?_
    split
    case isTrue => exact hmicros
    case isFalse => exact hretry
  dated _ := by
    simp only [MemoryStore.newOutboxItem]
    split
    case isTrue => exact Int.ne_of_gt hnow
    case isFalse hz => exact hz
  owner hs := by
    simp only [MemoryStore.newOutboxItem] at hs
    split at hs
    case isTrue => cases hs <;> contradiction
    case isFalse => exact (howner hs).symm
  claimedBy hs := by
    simp only [MemoryStore.newOutboxItem] at hs
    split at hs
    case isTrue => cases hs
    case isFalse => exact absurd hs hstate
  claimedAt hs := by
    simp only [MemoryStore.newOutboxItem] at hs
    split at hs
    case isTrue => cases hs
    case isFalse => exact absurd hs hstate

theorem putOutbox (h : Related now s t)
    (hrow : SameRow now (s.newOutboxItem now item) (PostgresStore.newOutboxRow now item)) :
    Related now (s.putOutbox now item) (t.insertOutbox now item) := by
  unfold MemoryStore.putOutbox PostgresStore.insertOutbox
  rw [h.ids]
  exact { h.put hrow with ids := rfl }

theorem putMessage {msg : Message} (h : Related now s t) (hroom : s.messages.length < s.maxMessages) :
    Related now (s.putMessage msg) (t.saveMessageSQL now msg) := by
  obtain ⟨messages, messageByID, heq, hkeys⟩ := MemoryStore.putMessage_frame msg hroom
  rw [heq]
  refine { h with messages := fun g => ?_ }
  rw [hkeys, ← h.messages]
  exact AList.mem_insert _

theorem submitAtomic {msg : Message} {opts : SubmitOptions} (h : Related now s t) (hmicros : 1000 ∣ now)
    (hroom : s.messages.length < s.maxMessages)
    (hrow : ∀ s : MemoryStore, SameRow now (s.newOutboxItem now item) (PostgresStore.newOutboxRow now item))
    (hexact : ∀ rec ∈ MemoryStore.idempotencyKey? opts.idempotency >>= s.idempotency.lookup, rec.expiresAt ≠ now) :
    Agree now (s.submitAtomic now msg item opts) (t.submitAtomic now msg item opts) := by
  have hsweep := h.sweepLocked
  have hexact' : ∀ rec ∈ MemoryStore.idempotencyKey? opts.idempotency >>= (s.sweepLocked now).idempotency.lookup,
      rec.expiresAt ≠ now := by
    intro rec hrec
    obtain ⟨k, hk, hrec⟩ := Option.bind_eq_some_iff.mp hrec
    exact hexact rec (Option.bind_eq_some_iff.mpr ⟨k, hk, (Map.lookup_filter_eq_some.mp hrec).1⟩)
  unfold MemoryStore.submitAtomic PostgresStore.submitAtomic
  rcases hsweep.takeKey msg.id hmicros hexact' with ⟨g, hdup, htake⟩ | ⟨hdup, idempotency, htake, hrem⟩
  case inl =>
    simp only [hdup, htake]
    exact ⟨rfl, hsweep⟩
  case inr =>
    simp only [hdup, htake]
    have hquota := debitQuota (t := { t with idempotency }) hsweep.quota opts.quota
    rcases hquota with ⟨e, e', hs, ht⟩ | ⟨q, q', hs, ht, hq⟩
    case inl =>
      simp only [hs, ht]
      exact ⟨rfl, hsweep⟩
    case inr =>
      simp only [hs, ht]
      rw [MemoryStore.rememberKey_withQuota]
      obtain ⟨i, hi⟩ := (s.sweepLocked now).rememberKey_frame now msg.id opts.idempotency
      rw [hi] at hrem ⊢
      have hdebited : Related now { s.sweepLocked now with idempotency := i, quotaUsage := q }
          { t with idempotency, tenantQuotaUsage := q' } :=
        { hrem with quota := hq }
      exact ⟨rfl, putOutbox (hdebited.putMessage hroom) (hrow _)⟩

end Related

theorem Agree.reply {α β : Type} {c : Time} {r : StoreResult α} {r' : PostgresResult β} {f : α → StoreReply}
    {f' : β → StoreReply} (h : Agree c r r') : Agree c (StoreOp.reply f r) (DriverCall.reply f' r') where
  outcome := by
    have houtcome := h.outcome
    obtain ⟨_ | _, _⟩ := r <;> obtain ⟨_ | _, _⟩ := r' <;> exact houtcome
  related := h.related

namespace Drivers

structure Inv (d : Drivers) : Prop where
  wf      : OutboxWF d.memory
  related : Related d.clock d.memory d.postgres

theorem agree {d : Drivers} {c : DriverCall} (hi : Inv d) (hp : d.Permits c) :
    Agree c.now (c.storeOp.exec d.memory) (c.sql d.postgres) := by
  obtain ⟨call, now, order, refused⟩ := c
  obtain ⟨rfl, hnow, hforward, hmicros, hcomp⟩ := hp
  have h : Related now d.memory d.postgres := hi.related.tick hforward
  cases call
  case submitAtomic msg item opts =>
    obtain ⟨hroom, hattempt, hstate, howner, hretry, hexact⟩ := hcomp
    exact (h.submitAtomic hmicros hroom (fun _ => Related.newRow hnow hmicros hattempt hstate howner hretry) hexact).reply
  case claimOutbox => exact (h.claimOutbox hi.wf hnow hmicros).reply
  case markOutboxSending => exact h.markOutboxSending.reply
  case completeOutboxSend => exact h.completeOutboxSend.reply
  case markOutboxUncertain => exact (h.markOutboxUncertain hcomp).reply
  case requeueStaleOutbox =>
    obtain ⟨hbefore, hperm, hfit⟩ := hcomp
    exact (h.requeueStaleOutbox hmicros hbefore hperm hfit).reply
  case ackOutbox => exact h.ackOutbox.reply
  case failOutbox =>
    obtain ⟨hretry, hleft⟩ := hcomp
    exact (h.failOutbox hretry hleft).reply

theorem Inv.step {d : Drivers} {c : DriverCall} (hi : Inv d) (hp : d.Permits c) : Inv (d.step c) where
  wf      := c.storeOp.exec_wf hi.wf
  related := (agree hi hp).related

theorem Inv.sameRows {d : Drivers} (hi : Inv d) : d.SameRows := by
  intro id
  rcases hi.related.row_cases id with ⟨hs, ht⟩ | ⟨item, row, hs, ht, hrow⟩
  case inl => rw [hs, ht]; rfl
  case inr => rw [hs, ht, Option.map_some, Option.map_some, hrow.state, hrow.attempt, hrow.gatewayID]

end Drivers

-- In every run of permitted calls the drivers succeed and fail together and keep the same rows.
theorem drivers_agree {calls : List DriverCall} (h : Along Drivers.step Drivers.Permits Drivers.empty calls) :
    Along Drivers.step Drivers.SameOutcome Drivers.empty calls ∧
    Always Drivers.step Drivers.SameRows Drivers.empty calls := by
  have hempty : Drivers.Inv Drivers.empty := ⟨.newMemory, .empty⟩
  have hinv : Always Drivers.step Drivers.Inv Drivers.empty calls :=
    .of_along hempty h fun _ _ => Drivers.Inv.step
  exact ⟨h.of_invariant hempty (fun _ _ => Drivers.Inv.step) fun _ _ hi hp => (Drivers.agree hi hp).outcome,
    fun pre hpre => (hinv pre hpre).sameRows⟩

namespace Drivers

instance {d : Drivers} {now : Time} {order : List Int} : (call : OutboxCall) → Decidable (d.Comparable now order call)
  | .submitAtomic ..        => inferInstanceAs (Decidable (_ ∧ _))
  | .claimOutbox ..         => .isTrue trivial
  | .markOutboxSending ..   => .isTrue trivial
  | .completeOutboxSend ..  => .isTrue trivial
  | .markOutboxUncertain .. => inferInstanceAs (Decidable (∀ item ∈ _, _))
  | .requeueStaleOutbox ..  => inferInstanceAs (Decidable (_ ∧ _))
  | .ackOutbox _            => .isTrue trivial
  | .failOutbox ..          => inferInstanceAs (Decidable (_ ∧ _))

instance {d : Drivers} {c : DriverCall} : Decidable (d.Permits c) :=
  decidable_of_iff (c.refused = false ∧ 0 < c.now ∧ d.clock ≤ c.now ∧ 1000 ∣ c.now ∧ d.Comparable c.now c.order c.call)
    ⟨fun ⟨h₁, h₂, h₃, h₄, h₅⟩ => ⟨h₁, h₂, h₃, h₄, h₅⟩, fun ⟨h₁, h₂, h₃, h₄, h₅⟩ => ⟨h₁, h₂, h₃, h₄, h₅⟩⟩

end Drivers

def DriverCall.submit (gatewayID : Str) (maxAttempts : Int) (now : Time) : DriverCall where
  call := .submitAtomic { id := gatewayID }
    { gatewayID, provider := lit "p", payload := { gatewayID }, maxAttempts }
    { idempotency := { clientID := lit "c", key := gatewayID } }
  now  := now

def sampleCalls : List DriverCall :=
  [.submit (lit "m1") 5 1000, .submit (lit "m2") 5 1000, .submit (lit "m1") 5 1000,
    ⟨.claimOutbox (lit "w") 1, 2000, [], false⟩,
    ⟨.markOutboxSending 1 (lit "w"), 3000, [], false⟩,
    ⟨.completeOutboxSend 1 (lit "w") [{ providerID := lit "x", gatewayID := lit "m1", provider := lit "p" }], 4000, [], false⟩,
    ⟨.claimOutbox (lit "w") 1, 5000, [], false⟩,
    ⟨.failOutbox 2 (lit "busy") 7000, 6000, [], false⟩,
    ⟨.claimOutbox (lit "v") 0, 8000, [], false⟩,
    ⟨.requeueStaleOutbox 9000 0, 9000, [1, 2], false⟩,
    ⟨.claimOutbox (lit "w") 5, 9000, [], false⟩,
    ⟨.markOutboxUncertain 2 (lit "w") (lit "lost"), 10000, [], false⟩,
    ⟨.failOutbox 2 (lit "down") 0, 11000, [], false⟩]

theorem drivers_agree_sampleCalls :
    Along Drivers.step Drivers.SameOutcome Drivers.empty sampleCalls ∧
    Always Drivers.step Drivers.SameRows Drivers.empty sampleCalls :=
  drivers_agree (by decide +kernel)

def exhaustedRetry : List DriverCall :=
  [.submit (lit "m1") 1 1000, ⟨.claimOutbox (lit "w") 1, 2000, [], false⟩,
    ⟨.failOutbox 1 (lit "busy") 7000, 3000, [], false⟩]

theorem drivers_differ_exhaustedRetry :
    Along Drivers.step Drivers.SameOutcome Drivers.empty exhaustedRetry ∧
    ¬Always Drivers.step Drivers.SameRows Drivers.empty exhaustedRetry ∧
    let d := run Drivers.step Drivers.empty exhaustedRetry
    (d.memory.outbox.lookup 1).map (·.state) = some .failed ∧
      (d.postgres.outbox.lookup 1).map (·.state) = some .pending := by
  have hmemory : ((run Drivers.step Drivers.empty exhaustedRetry).memory.outbox.lookup 1).map (·.state) =
      some .failed := by decide +kernel
  have hpostgres : ((run Drivers.step Drivers.empty exhaustedRetry).postgres.outbox.lookup 1).map (·.state) =
      some .pending := by decide +kernel
  refine ⟨by decide +kernel, fun h => ?_, hmemory, hpostgres⟩
  have hrow := h exhaustedRetry List.prefix_rfl 1
  have hstate := congrArg (Option.map Prod.fst) hrow
  simp only [Option.map_map, Function.comp_def] at hstate
  cases hmemory.symm.trans (hstate.trans hpostgres)

end SmppGateway
