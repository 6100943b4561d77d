import SmppGateway.Lib.Table
import SmppGateway.Store.Memory

-- `PostgresStore` of `internal/store/postgres.go`: the tables behind the outbox, and the methods on
-- it. A statement, or a transaction of several, is one function on the tables; `NOW()` and
-- `time.Now()` are its argument `now`.

namespace SmppGateway

open Go

-- A column of type `TIMESTAMPTZ` counts microseconds, and the driver cuts off what is finer.
def timestamptz (t : Time) : Time :=
  t / 1000 * 1000

-- A row of `outbox` apart from its key `id`. A column that is NULL is `none`.
structure OutboxRow where
  gatewayID   : Str
  provider    : Str
  payload     : OutboxPayload
  state       : OutboxState
  claimedBy   : Option Str := none
  claimedAt   : Option Time := none
  nextRetryAt : Time
  attempt     : Int := 0
  maxAttempts : Int
  lastError   : Option Str := none
  createdAt   : Time

structure PostgresStore where
  messages         : Map Str Message
  pending          : Map (Str × Str) Pending
  outbox           : Map Int OutboxRow
  outboxIDSeq      : Int -- the last id that the sequence behind `outbox.id` gave out
  idempotency      : Map (Str × Str) IdempotencyRecord
  tenantQuotaUsage : Map (Str × Str) Int64

def newPostgres : PostgresStore where
  messages         := ∅
  pending          := ∅
  outbox           := ∅
  outboxIDSeq      := 0
  idempotency      := ∅
  tenantQuotaUsage := ∅

-- Errors with the text of the other driver, a query without the row it needs, and any error that
-- the database itself reports: a value that does not fit its column, a lost connection.
inductive PostgresError
  | store (e : StoreError)
  | noRows
  | database
  deriving DecidableEq, Repr

abbrev PostgresResult (α : Type) := Except PostgresError α × PostgresStore

def checkRows (affected : Nat) : Except PostgresError Unit :=
  if affected = 0 then .error (.store .notFound) else .ok ()

namespace PostgresStore

def zeroAsNow (now t : Time) : Time :=
  if t = 0 then now else t

def messageRow (now : Time) (msg : Message) : Message :=
  { msg with
    segments := []
    submittedAt := timestamptz (zeroAsNow now msg.submittedAt)
    sentAt := timestamptz msg.sentAt, doneAt := timestamptz msg.doneAt }

def saveMessageSQL (t : PostgresStore) (now : Time) (msg : Message) : PostgresStore :=
  { t with messages := t.messages.insert msg.id (messageRow now msg) }

def pendingRow (now : Time) (p : Pending) : Pending :=
  { p with
    receivedAt := timestamptz (zeroAsNow now p.receivedAt)
    expiresAt := timestamptz p.expiresAt, dlrDoneAt := timestamptz p.dlrDoneAt }

def savePendingSQL (now : Time) (pending : Map (Str × Str) Pending) (p : Pending) : Map (Str × Str) Pending :=
  let p := normalizePending p
  pending.insert (p.provider, p.providerID) (pendingRow now p)

def newOutboxRow (now : Time) (item : OutboxItem) : OutboxRow where
  gatewayID   := item.gatewayID
  provider    := item.provider
  payload     := item.payload
  state       := if item.state = .unset then .pending else item.state
  nextRetryAt := timestamptz (if item.nextRetryAt = 0 then now else item.nextRetryAt)
  maxAttempts := if item.maxAttempts ≤ 0 then 5 else item.maxAttempts
  createdAt   := timestamptz now

def insertOutbox (t : PostgresStore) (now : Time) (item : OutboxItem) : PostgresStore :=
  { t with
    outboxIDSeq := t.outboxIDSeq + 1
    outbox := t.outbox.insert (t.outboxIDSeq + 1) (newOutboxRow now item) }

def scanOutbox (id : Int) (row : OutboxRow) : OutboxItem where
  id          := id
  gatewayID   := row.gatewayID
  provider    := row.provider
  payload     := row.payload
  state       := row.state
  claimedBy   := row.claimedBy.getD []
  claimedAt   := row.claimedAt.getD 0
  nextRetryAt := row.nextRetryAt
  attempt     := row.attempt
  maxAttempts := row.maxAttempts
  lastError   := row.lastError.getD []
  createdAt   := row.createdAt

def isDue (now : Time) (row : OutboxRow) : Bool :=
  row.state = .pending ∧ row.nextRetryAt ≤ timestamptz now

def claimRow (workerID : Str) (now : Time) (row : OutboxRow) : OutboxRow :=
  { row with
    state := .claimed, claimedBy := some workerID, claimedAt := some (timestamptz now)
    attempt := row.attempt + 1 }

def claimOutbox (t : PostgresStore) (now : Time) (workerID : Str) (limit : Int) :
    PostgresResult (List OutboxItem) :=
  let ids := Table.selectKeys (isDue now) (·.nextRetryAt) (if limit ≤ 0 then 1 else limit.toNat) t.outbox
  let outbox := Table.updateIn ids (claimRow workerID now) t.outbox
  (.ok ((outbox.entries.filter (·.1 ∈ ids)).map fun e => scanOutbox e.1 e.2), { t with outbox })

-- `claimed_by = $2` is not true of a row without a claim.
def markOutboxSending (t : PostgresStore) (id : Int) (workerID : Str) : PostgresResult Unit :=
  let (affected, outbox) := Table.updateKey id
    (fun row => row.state = .claimed ∧ row.claimedBy = some workerID) ({ · with state := .sending }) t.outbox
  if affected = 1 then
    (.ok (), { t with outbox })
  else
    match outbox.lookup id with
    | none => (.error (.store .notFound), t)
    | some row =>
      if row.state = .sending ∧ row.claimedBy.getD [] = workerID then
        (.ok (), t)
      else
        (.error (.store (.notClaimedBy id workerID)), t)

def finishRow (row : OutboxRow) : OutboxRow :=
  { row with state := .done, payload := scrubOutboxPayload row.payload }

def completeOutboxSend (t : PostgresStore) (now : Time) (id : Int) (workerID : Str) (pending : List Pending) :
    PostgresResult Unit :=
  match t.outbox.lookup id with
  | none => (.error (.store .notFound), t)
  | some row =>
    if row.state = .done then
      (.ok (), t)
    else if row.state ≠ .sending ∨ row.claimedBy.getD [] ≠ workerID then
      (.error (.store (.notSendingFor id workerID)), t)
    else
      let item : OutboxItem := { id, gatewayID := row.gatewayID, provider := row.provider, payload := { gatewayID := [] } }
      match validateOutboxCompletion item pending with
      | .error e => (.error (.store e), t)
      | .ok recs =>
        let (affected, messages) := Table.updateKey row.gatewayID (fun _ => true) (fun msg =>
          { msg with
            providerID := (recs.head?.map (·.providerID)).getD []
            state := lit "sent", sentAt := timestamptz now }) t.messages
        if affected ≠ 1 then
          (checkRows affected, t)
        else
          let pending := recs.foldl (savePendingSQL now) t.pending
          let (affected, outbox) := Table.updateKey id (fun _ => true) finishRow t.outbox
          if affected ≠ 1 then
            (checkRows affected, t)
          else
            (.ok (), { t with messages, pending, outbox })

def markOutboxUncertain (t : PostgresStore) (now : Time) (id : Int) (workerID errMsg : Str) :
    PostgresResult Unit :=
  match t.outbox.lookup id with
  | none => (.error (.store .notFound), t)
  | some row =>
    if (row.state ≠ .sending ∧ row.state ≠ .uncertain) ∨ row.claimedBy.getD [] ≠ workerID then
      (.error (.store (.notSendingFor id workerID)), t)
    else
      let (affected, outbox) := Table.updateKey id (fun _ => true)
        ({ · with state := .uncertain, lastError := some errMsg }) t.outbox
      if affected ≠ 1 then
        (checkRows affected, t)
      else
        let (affected, messages) := Table.updateKey row.gatewayID (fun _ => true)
          ({ · with state := lit "UNKNOWN", errorCode := 1, doneAt := timestamptz now }) t.messages
        if affected ≠ 1 then
          (checkRows affected, t)
        else
          (.ok (), { t with outbox, messages })

def isStale (before : Time) (row : OutboxRow) : Bool :=
  row.state = .claimed ∧ row.claimedAt.any (· < timestamptz before)

def requeueRow (now : Time) (row : OutboxRow) : OutboxRow :=
  { row with
    state := .pending, claimedBy := none, claimedAt := none
    nextRetryAt := min row.nextRetryAt (timestamptz now) }

def requeueStaleOutbox (t : PostgresStore) (now before : Time) (limit : Int) : PostgresResult Nat :=
  let ids := Table.selectKeys (isStale before) (·.claimedAt.getD 0)
    (if limit ≤ 0 then 1000 else limit.toNat) t.outbox
  (.ok ids.length, { t with outbox := Table.updateIn ids (requeueRow now) t.outbox })

def ackOutbox (t : PostgresStore) (id : Int) : PostgresResult Unit :=
  let (affected, outbox) := Table.updateKey id (·.state = .claimed) finishRow t.outbox
  (checkRows affected, { t with outbox })

-- Unlike `MemoryStore.failOutbox`, the statement does not look at the attempts of the row.
def failOutbox (t : PostgresStore) (id : Int) (errMsg : Str) (nextRetryAt : Time) : PostgresResult Unit :=
  let state := if nextRetryAt = 0 then .failed else .pending
  let retry := if nextRetryAt = 0 then none else some (timestamptz nextRetryAt)
  let allowedState := if state = .failed then .sending else .claimed
  let (affected, outbox) := Table.updateKey id (fun row => row.state = .claimed ∨ row.state = allowedState)
    (fun row =>
      { row with
        state := state, lastError := some errMsg, nextRetryAt := retry.getD row.nextRetryAt
        claimedBy := none, claimedAt := none }) t.outbox
  (checkRows affected, { t with outbox })

section Row

variable {t : PostgresStore} {id : Int} {row : OutboxRow} {workerID errMsg : Str} {nextRetryAt : Time}

theorem markOutboxSending_none (h : t.outbox.lookup id = none) :
    t.markOutboxSending id workerID = (.error (.store .notFound), t) := by
  simp only [markOutboxSending, Table.updateKey_none h, h]
  rfl

theorem markOutboxSending_some (h : t.outbox.lookup id = some row) : t.markOutboxSending id workerID =
    if row.state = .claimed ∧ row.claimedBy = some workerID then
      (.ok (), { t with outbox := t.outbox.insert id { row with state := .sending } })
    else if row.state = .sending ∧ row.claimedBy.getD [] = workerID then
      (.ok (), t)
    else
      (.error (.store (.notClaimedBy id workerID)), t) := by
  simp only [markOutboxSending, Table.updateKey_some h, decide_eq_true_eq]
  by_cases hc : row.state = .claimed ∧ row.claimedBy = some workerID
  case pos => simp only [if_pos hc, if_true]
  case neg => simp only [if_neg hc, h]; rfl

theorem completeOutboxSend_checked (now : Time) {pending recs : List Pending} (h : t.outbox.lookup id = some row)
    (hs : row.state = .sending) (hw : row.claimedBy.getD [] = workerID)
    (hv : validateOutboxCompletion
      { id, gatewayID := row.gatewayID, provider := row.provider, payload := { gatewayID := [] } } pending = .ok recs) :
    if row.gatewayID ∈ t.messages then
      ∃ messages pending', (∀ g, g ∈ messages ↔ g ∈ t.messages) ∧
        t.completeOutboxSend now id workerID pending =
          (.ok (), { t with messages, pending := pending', outbox := t.outbox.insert id (finishRow row) })
    else
      t.completeOutboxSend now id workerID pending = (.error (.store .notFound), t) := by
  have hguard : ¬(row.state ≠ .sending ∨ row.claimedBy.getD [] ≠ workerID) := by simp [hs, hw]
  simp only [completeOutboxSend, h, if_neg hguard, hv, Table.updateKey_some h]
  simp only [hs, reduceCtorEq, if_false]
  split
  case isTrue hm =>
    obtain ⟨messages, hu, hkeys⟩ := Table.updateKey_of_mem hm
    rw [hu]
    exact ⟨messages, _, hkeys, rfl⟩
  case isFalse hm =>
    rw [Table.updateKey_none (AList.lookup_eq_none.mpr hm)]
    rfl

theorem markOutboxUncertain_checked (now : Time) (errMsg : Str) (h : t.outbox.lookup id = some row)
    (hs : row.state = .sending ∨ row.state = .uncertain) (hw : row.claimedBy.getD [] = workerID)
    (hm : row.gatewayID ∈ t.messages) :
    ∃ messages, (∀ g, g ∈ messages ↔ g ∈ t.messages) ∧ t.markOutboxUncertain now id workerID errMsg =
      (.ok (), { t with
        messages, outbox := t.outbox.insert id { row with state := .uncertain, lastError := some errMsg } }) := by
  have hguard : ¬((row.state ≠ .sending ∧ row.state ≠ .uncertain) ∨ row.claimedBy.getD [] ≠ workerID) := by
    simp only [hw, ne_eq, not_true_eq_false, or_false, not_and_or, not_not]
    exact hs
  obtain ⟨messages, hu, hkeys⟩ := Table.updateKey_of_mem hm
  simp only [markOutboxUncertain, h, if_neg hguard, Table.updateKey_some h]
  rw [hu]
  exact ⟨messages, hkeys, rfl⟩

theorem ackOutbox_some (h : t.outbox.lookup id = some row) : t.ackOutbox id =
    if row.state = .claimed then
      (.ok (), { t with outbox := t.outbox.insert id (finishRow row) })
    else
      (.error (.store .notFound), t) := by
  simp only [ackOutbox, Table.updateKey_some h, decide_eq_true_eq]
  by_cases hc : row.state = .claimed
  case pos => simp only [if_pos hc]; rfl
  case neg => simp only [if_neg hc]; rfl

theorem failOutbox_some (h : t.outbox.lookup id = some row) : t.failOutbox id errMsg nextRetryAt =
    if nextRetryAt = 0 then
      if row.state = .claimed ∨ row.state = .sending then
        (.ok (), { t with
          outbox := t.outbox.insert id
            { row with state := .failed, lastError := some errMsg, claimedBy := none, claimedAt := none } })
      else
        (.error (.store .notFound), t)
    else if row.state = .claimed then
      (.ok (), { t with
        outbox := t.outbox.insert id
          { row with
            state := .pending, lastError := some errMsg, nextRetryAt := timestamptz nextRetryAt
            claimedBy := none, claimedAt := none } })
    else
      (.error (.store .notFound), t) := by
  simp only [failOutbox, Table.updateKey_some h, decide_eq_true_eq]
  by_cases hz : nextRetryAt = 0
  case pos =>
    simp only [if_pos hz, if_true]
    split <;> rfl
  case neg =>
    simp only [if_neg hz, reduceCtorEq, if_false, or_self]
    split <;> rfl

end Row

def dropExpired (t : PostgresStore) (now : Time) (k : Str × Str) : Map (Str × Str) IdempotencyRecord :=
  t.idempotency.filter fun k' rec => !(k' = k && rec.expiresAt < timestamptz now)

-- The first statements of `SubmitAtomic`: an acceptance that still answers for this one, or the
-- tables with the key taken.
def takeKey (t : PostgresStore) (now : Time) (gatewayID : Str) (opts : IdempotencyOptions) :
    Except PostgresError (Str ⊕ PostgresStore) :=
  match MemoryStore.idempotencyKey? opts with
  | none => .ok (.inr t)
  | some k =>
    match (t.dropExpired now k).lookup k with
    | none =>
      let rec' := ⟨gatewayID, timestamptz (now + MemoryStore.effectiveTTL opts)⟩
      .ok (.inr { t with idempotency := (t.dropExpired now k).insert k rec' })
    | some rec => if timestamptz now ≤ rec.expiresAt then .ok (.inl rec.gatewayID) else .error .noRows

section Key

variable {t : PostgresStore} {now : Time} {opts : IdempotencyOptions} {k : Str × Str}

theorem takeKey_live (gatewayID : Str) {rec : IdempotencyRecord} (hk : MemoryStore.idempotencyKey? opts = some k)
    (hl : t.idempotency.lookup k = some rec) (hlive : timestamptz now ≤ rec.expiresAt) :
    t.takeKey now gatewayID opts = .ok (.inl rec.gatewayID) := by
  have hkept : (t.dropExpired now k).lookup k = some rec :=
    Map.lookup_filter_eq_some.mpr ⟨hl, by simp [hlive]⟩
  simp only [takeKey, hk, hkept, if_pos hlive]

theorem takeKey_free (gatewayID : Str) (hk : MemoryStore.idempotencyKey? opts = some k)
    (hold : ∀ rec, t.idempotency.lookup k = some rec → rec.expiresAt < timestamptz now) :
    ∃ idempotency, t.takeKey now gatewayID opts = .ok (.inr { t with idempotency }) ∧
      ∀ k', idempotency.lookup k' =
        if k' = k then some ⟨gatewayID, timestamptz (now + MemoryStore.effectiveTTL opts)⟩
        else t.idempotency.lookup k' := by
  have hnone : (t.dropExpired now k).lookup k = none := by
    rw [dropExpired, Map.lookup_filter]
    refine Option.filter_eq_none_iff.mpr fun rec hrec => ?_
    simp [hold rec hrec]
  simp only [takeKey, hk, hnone]
  refine ⟨_, rfl, fun k' => ?_⟩
  rw [Map.lookup_insert_eq, dropExpired, Map.lookup_filter]
  split
  case isTrue => rfl
  case isFalse hne => ext rec; simp [hne, Option.filter_eq_some_iff]

end Key

-- A date that passes the check is the text of a day in one way only, so it stands for the column.
def debitQuota (t : PostgresStore) : Option DailyQuotaDebit → Except PostgresError PostgresStore
  | none => .ok t
  | some quota =>
    if quota.limit ≤ 0 then
      .ok t
    else
      match validateDailyQuotaDebit quota with
      | .error e => .error (.store e)
      | .ok () =>
        if quota.limit < quota.segments then
          .error (.store .quotaExceeded)
        else
          let k := (quota.tenantID, quota.date)
          match t.tenantQuotaUsage.lookup k with
          | none => .ok { t with tenantQuotaUsage := t.tenantQuotaUsage.insert k quota.segments }
          | some used =>
            if used ≤ quota.limit - quota.segments then
              .ok { t with tenantQuotaUsage := t.tenantQuotaUsage.insert k (used + quota.segments) }
            else
              .error (.store .quotaExceeded)

def submitAtomic (t : PostgresStore) (now : Time) (msg : Message) (item : OutboxItem) (opts : SubmitOptions) :
    PostgresResult MemoryStore.Submitted :=
  match t.takeKey now msg.id opts.idempotency with
  | .error e => (.error e, t)
  | .ok (.inl existing) => (.ok ⟨0, existing, true⟩, t)
  | .ok (.inr taken) =>
    match taken.debitQuota opts.quota with
    | .error e => (.error e, t)
    | .ok debited =>
      let t := debited.saveMessageSQL now msg
      (.ok ⟨t.outboxIDSeq + 1, msg.id, false⟩, t.insertOutbox now item)

end PostgresStore
end SmppGateway
