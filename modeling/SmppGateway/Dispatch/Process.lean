import SmppGateway.Lib.Machine
import SmppGateway.Store.Outbox

-- `processOutbox` of `internal/dispatch/dispatcher.go`. A goroutine works on its own copy of a claimed row
-- and touches the shared store in single steps, so it is a small machine: its phase says which store
-- call or provider call comes next.

namespace SmppGateway

open Go Machine

structure Dlr where
  provider   : Str
  providerID : Str
  state      : Str
  errorCode  : Int := 0
  doneAt     : Time := 0
  deriving DecidableEq, Repr

def Dlr.key (dlr : Dlr) : Str :=
  pendingKey dlr.provider dlr.providerID

-- What the dispatcher reads of an error that a provider returns: its text, whether `errors.As` finds a
-- permanent error in its chain, and the SMPP status found there.
structure SendError where
  text       : Str
  permanent  : Bool := false
  smppStatus : Option UInt32 := none
  deriving DecidableEq, Repr

-- The settings of the dispatcher that this file reads, and how Go's `fmt` prints a store error and a
-- quoted string.
structure Dispatcher where
  pendingTTL     : Duration
  storeErrorText : StoreError → Str
  quote          : Str → Str

-- How a write to the store can go wrong for its caller: it gets an error without any effect, or after the
-- effect (the file store has changed its memory when the snapshot cannot be written).
inductive Fault
  | none
  | lost
  | applied
  deriving DecidableEq, Repr

def Fault.apply {α : Type} (f : Fault) (s : MemoryStore) (r : StoreResult α) : StoreResult α :=
  match f with
  | .none    => r
  | .lost    => (.error .persist, s)
  | .applied => (r.1.bind fun _ => .error .persist, r.2)

theorem Fault.apply_store {α : Type} (f : Fault) (s : MemoryStore) (r : StoreResult α) :
    (f.apply s r).2 = s ∨ (f.apply s r).2 = r.2 := by
  cases f
  case lost => exact .inl rfl
  all_goals exact .inr rfl

def second : Duration := 1000000000

def millisecond : Duration := 1000000

def retryDelay (attempt : Int) (jitter : Nat) : Duration :=
  2 ^ (min (max attempt 1) 6 - 1).toNat * second + jitter * millisecond

def terminalFailureDLR (err : SendError) : Str × Int :=
  match err.smppStatus with
  | some status => (lit "REJECTD", min status.toNat 999)
  | none        => (lit "UNDELIV", 1)

structure FailFaults where
  update : Fault := .none
  save   : Fault := .none
  fail   : Fault := .none
  delete : Fault := .none
  deriving DecidableEq, Repr

def localFailureID (gatewayID : Str) : Str :=
  lit "local-failure:" ++ gatewayID

def OutboxItem.failureKey (item : OutboxItem) : Str :=
  pendingKey item.payload.provider (localFailureID item.payload.gatewayID)

namespace Dispatcher

variable (d : Dispatcher)

def terminalFailurePending (now : Time) (payload : OutboxPayload) (state : Str) (errorCode : Int) :
    Pending where
  providerID         := localFailureID payload.gatewayID
  gatewayID          := payload.gatewayID
  tenantID           := payload.tenantID
  accountID          := payload.accountID
  clientMsgID        := payload.clientMsgID
  segmentIndex       := 1
  segmentCount       := 1
  sourceKind         := payload.sourceKind
  sourceSession      := payload.sourceSession
  sourceSystem       := payload.sourceSystem
  sender             := payload.sender
  dest               := payload.dest
  text               := payload.text
  dataCoding         := payload.dataCoding
  registeredDelivery := payload.registeredDelivery
  provider           := payload.provider
  route              := payload.route
  receivedAt         := if payload.receivedAt = 0 then now else payload.receivedAt
  expiresAt          := now + d.pendingTTL
  dlrReady           := true
  dlrState           := state
  dlrErrorCode       := errorCode
  dlrDoneAt          := now

def queueTerminalFailureDLR (s : MemoryStore) (now : Time) (fault : Fault) (item : OutboxItem)
    (state : Str) (errorCode : Int) : Option Pending × MemoryStore :=
  if item.payload.sourceKind ≠ .smpp ∨ item.payload.registeredDelivery &&& 0x03 = 0 then
    (none, s)
  else
    let rec' := d.terminalFailurePending now item.payload state errorCode
    match fault.apply s (s.savePending now rec') with
    | (.ok (), s)   => (some rec', s)
    | (.error _, s) => (none, s)

-- The receipt that is handed to `OnDLR` when the row has failed for good.
def failureDlr (rec : Pending) : Dlr where
  provider   := rec.provider
  providerID := rec.providerID
  state      := rec.dlrState
  errorCode  := rec.dlrErrorCode
  doneAt     := rec.dlrDoneAt

def isTerminal (item : OutboxItem) (err : SendError) : Prop :=
  item.maxAttempts ≤ item.attempt ∨ err.permanent

instance (item : OutboxItem) (err : SendError) : Decidable (isTerminal item err) :=
  inferInstanceAs (Decidable (_ ∨ _))

-- The part of `failOutbox` before the row itself is failed: a terminal failure is written into the
-- message, and its receipt is queued.
def announceFailure (s : MemoryStore) (now : Time) (faults : FailFaults) (item : OutboxItem)
    (err : SendError) : Option Pending × MemoryStore :=
  if isTerminal item err then
    let (state, errorCode) := terminalFailureDLR err
    let s := (faults.update.apply s (s.updateMessageState now item.gatewayID state errorCode)).2
    d.queueTerminalFailureDLR s now faults.save item state errorCode
  else
    (none, s)

def failOutbox (s : MemoryStore) (now : Time) (jitter : Nat) (faults : FailFaults) (item : OutboxItem)
    (err : SendError) : Option Dlr × MemoryStore :=
  let next := if isTerminal item err then 0 else now + retryDelay item.attempt jitter
  let (queued, s) := d.announceFailure s now faults item err
  match faults.fail.apply s (s.failOutbox item.id err.text next) with
  | (.ok (), s) => (queued.map failureDlr, s)
  | (.error _, s) =>
    match queued with
    | some rec => (none, (faults.delete.apply s (s.deletePending rec.provider rec.providerID)).2)
    | none     => (none, s)

theorem queueTerminalFailureDLR_outbox (s : MemoryStore) (now : Time) (fault : Fault) (item : OutboxItem)
    (state : Str) (errorCode : Int) :
    (d.queueTerminalFailureDLR s now fault item state errorCode).2.outbox = s.outbox := by
  unfold queueTerminalFailureDLR
  split
  case isTrue => rfl
  case isFalse =>
    have h := fault.apply_store s (s.savePending now (d.terminalFailurePending now item.payload state errorCode))
    simp only
    generalize fault.apply s _ = r at h ⊢
    obtain ⟨_ | _, s'⟩ := r <;> rcases h with rfl | rfl <;> rfl

theorem announceFailure_outbox (s : MemoryStore) (now : Time) (faults : FailFaults) (item : OutboxItem)
    (err : SendError) : (d.announceFailure s now faults item err).2.outbox = s.outbox := by
  unfold announceFailure
  split
  case isFalse => rfl
  case isTrue =>
    simp only [queueTerminalFailureDLR_outbox]
    rcases faults.update.apply_store s (s.updateMessageState now item.gatewayID (terminalFailureDLR err).1
      (terminalFailureDLR err).2) with h | h <;> rw [h]
    unfold MemoryStore.updateMessageState
    split
    case isTrue => exact MemoryStore.modifyMessage_outbox
    case isFalse => rfl

def nextRetryAt (now : Time) (jitter : Nat) (item : OutboxItem) (err : SendError) : Time :=
  if isTerminal item err then 0 else now + retryDelay item.attempt jitter

theorem failOutbox_outbox (s : MemoryStore) (now : Time) (jitter : Nat) (faults : FailFaults)
    (item : OutboxItem) (err : SendError) :
    (d.failOutbox s now jitter faults item err).2.outbox =
      if faults.fail = .lost then
        s.outbox
      else
        (s.failOutbox item.id err.text (nextRetryAt now jitter item err)).2.outbox := by
  simp only [failOutbox, ← nextRetryAt.eq_1]
  generalize nextRetryAt now jitter item err = next
  have hs := d.announceFailure_outbox s now faults item err
  generalize d.announceFailure s now faults item err = q at hs ⊢
  obtain ⟨queued, s₁⟩ := q
  have hcongr : (s₁.failOutbox item.id err.text next).2.outbox =
      (s.failOutbox item.id err.text next).2.outbox := by
    have hs : s₁.outbox = s.outbox := hs
    unfold MemoryStore.failOutbox
    rw [hs]
    repeat' split
    all_goals first
      | exact hs
      | rfl
  have hf : (faults.fail.apply s₁ (s₁.failOutbox item.id err.text next)).2.outbox =
      if faults.fail = .lost then s.outbox else (s.failOutbox item.id err.text next).2.outbox := by
    rw [← hcongr]
    cases faults.fail
    case lost => exact hs
    all_goals rfl
  rw [← hf]
  simp only
  generalize faults.fail.apply s₁ _ = r
  obtain ⟨_ | _, s₂⟩ := r
  case ok => rfl
  case error =>
    cases queued
    case none => rfl
    case some rec =>
      simp only
      rcases faults.delete.apply_store s₂ (s₂.deletePending rec.provider rec.providerID) with h | h <;> rw [h]
      rfl

end Dispatcher

inductive Phase
  | start
  | marking (attempt : Nat)
  | sending
  | completing (attempt : Nat) (pending : List Pending)
  | doubting (attempt : Nat) (reason : Str)
  | failing (err : SendError)
  | done
  deriving DecidableEq

structure Thread where
  item  : OutboxItem
  phase : Phase := .start

inductive Move
  | resolve (found : Bool)
  | mark (fault : Fault) (cancelled : Bool)
  | send (now : Time) (outcome : Except SendError (List Str))
  | complete (now : Time) (fault : Fault) (cancelled : Bool)
  | doubt (now : Time) (fault : Fault) (cancelled : Bool)
  | fail (now : Time) (jitter : Nat) (faults : FailFaults)

-- `retryStoreTransition` tries three times, unless its context ends while it waits.
def retries (attempt : Nat) (cancelled : Bool) : Bool :=
  attempt < 2 && !cancelled

-- A provider that returned no id, or an empty one, is given the gateway id instead.
def sentIDs (payload : OutboxPayload) (ids : List Str) : List Str :=
  (if ids = [] then [payload.gatewayID] else ids).map fun id =>
    if id = [] then payload.gatewayID else id

def sentPending (now : Time) (ttl : Duration) (payload : OutboxPayload) (ids : List Str) :
    List Pending :=
  ids.zipIdx.map fun (id, i) =>
    { providerID         := id
      gatewayID          := payload.gatewayID
      tenantID           := payload.tenantID
      accountID          := payload.accountID
      clientMsgID        := payload.clientMsgID
      segmentIndex       := i + 1
      segmentCount       := ids.length
      sourceKind         := payload.sourceKind
      sourceSession      := payload.sourceSession
      sourceSystem       := payload.sourceSystem
      callbackURL        := payload.callbackURL
      callbackRule       := payload.callbackRule
      sender             := payload.sender
      dest               := payload.dest
      text               := payload.text
      dataCoding         := payload.dataCoding
      registeredDelivery := payload.registeredDelivery
      provider           := payload.provider
      route              := payload.route
      receivedAt         := payload.receivedAt
      expiresAt          := now + ttl }

namespace Thread

def become (th : Thread) (phase : Phase) : Thread :=
  { th with phase }

-- One step of the goroutine. A move that does not fit the phase does nothing.
def step (d : Dispatcher) (s : MemoryStore) (th : Thread) : Move → Thread × MemoryStore
  | .resolve found =>
    match th.phase with
    | .start =>
      if found then
        (th.become (.marking 0), s)
      else
        let text := lit "provider " ++ d.quote th.item.provider ++ lit " not found"
        (th.become (.failing { text }), s)
    | _ => (th, s)
  | .mark fault cancelled =>
    match th.phase with
    | .marking n =>
      match fault.apply s (s.markOutboxSending th.item.id th.item.claimedBy) with
      | (.ok (), s)   => (th.become .sending, s)
      | (.error _, s) => (th.become (if retries n cancelled then .marking (n + 1) else .done), s)
    | _ => (th, s)
  | .send now outcome =>
    match th.phase with
    | .sending =>
      match outcome with
      | .ok ids =>
        let pending := sentPending now d.pendingTTL th.item.payload (sentIDs th.item.payload ids)
        (th.become (.completing 0 pending), s)
      | .error e => (th.become (if e.permanent then .failing e else .doubting 0 e.text), s)
    | _ => (th, s)
  | .complete now fault cancelled =>
    match th.phase with
    | .completing n pending =>
      match fault.apply s (s.completeOutboxSend now th.item.id th.item.claimedBy pending) with
      | (.ok (), s) => (th.become .done, s)
      | (.error e, s) =>
        let reason := lit "persist sent result: " ++ d.storeErrorText e
        (th.become (if retries n cancelled then .completing (n + 1) pending else .doubting 0 reason), s)
    | _ => (th, s)
  | .doubt now fault cancelled =>
    match th.phase with
    | .doubting n reason =>
      match fault.apply s (s.markOutboxUncertain now th.item.id th.item.claimedBy reason) with
      | (.ok (), s)   => (th.become .done, s)
      | (.error _, s) =>
        (th.become (if retries n cancelled then .doubting (n + 1) reason else .done), s)
    | _ => (th, s)
  | .fail now jitter faults =>
    match th.phase with
    | .failing err => (th.become .done, (d.failOutbox s now jitter faults th.item err).2)
    | _ => (th, s)

def calls (th : Thread) : Move → Bool
  | .send .. => match th.phase with
    | .sending => true
    | _        => false
  | _ => false

end Thread

theorem Fault.apply_alike {α : Type} {R : MemoryStore → MemoryStore → Prop} {s s' : MemoryStore} {r r' : StoreResult α}
    (f : Fault) (hs : R s s') (h : Alike R r r') : Alike R (f.apply s r) (f.apply s' r') := by
  cases f
  case none => exact h
  case lost => exact ⟨rfl, hs⟩
  case applied => exact ⟨congrArg (fun x : Except StoreError α => x.bind fun _ => Except.error .persist) h.1, h.2⟩

-- The calls that `processOutbox` makes for a row keep two stores related and get the same answers from them.
structure OutboxItem.Respects (d : Dispatcher) (item : OutboxItem) (R : MemoryStore → MemoryStore → Prop) : Prop where
  mark     : ∀ {s s'}, R s s' →
    Alike R (s.markOutboxSending item.id item.claimedBy) (s'.markOutboxSending item.id item.claimedBy)
  complete : ∀ {s s'} (now ps), R s s' →
    Alike R (s.completeOutboxSend now item.id item.claimedBy ps) (s'.completeOutboxSend now item.id item.claimedBy ps)
  doubt    : ∀ {s s'} (now reason), R s s' → Alike R (s.markOutboxUncertain now item.id item.claimedBy reason)
    (s'.markOutboxUncertain now item.id item.claimedBy reason)
  update   : ∀ {s s'} (now state code), R s s' →
    Alike R (s.updateMessageState now item.gatewayID state code) (s'.updateMessageState now item.gatewayID state code)
  queue    : ∀ {s s'} (now state code), R s s' →
    R (s.savePending now (d.terminalFailurePending now item.payload state code)).2
      (s'.savePending now (d.terminalFailurePending now item.payload state code)).2
  fail     : ∀ {s s'} (errMsg next), R s s' →
    Alike R (s.failOutbox item.id errMsg next) (s'.failOutbox item.id errMsg next)
  drop     : ∀ {s s'}, R s s' →
    R (s.deletePending item.payload.provider (localFailureID item.payload.gatewayID)).2
      (s'.deletePending item.payload.provider (localFailureID item.payload.gatewayID)).2

theorem Dispatcher.announceFailure_eq_some {d : Dispatcher} {s : MemoryStore} {now : Time} {faults : FailFaults}
    {item : OutboxItem} {err : SendError} {rec : Pending} (h : (d.announceFailure s now faults item err).1 = some rec) :
    rec.provider = item.payload.provider ∧ rec.providerID = localFailureID item.payload.gatewayID := by
  unfold announceFailure queueTerminalFailureDLR at h
  split at h
  case isFalse => cases h
  case isTrue =>
    simp only at h
    split at h
    case isTrue => cases h
    case isFalse =>
      split at h
      case h_1 => cases h; exact ⟨rfl, rfl⟩
      case h_2 => cases h

namespace OutboxItem.Respects

variable {d : Dispatcher} {item : OutboxItem} {R : MemoryStore → MemoryStore → Prop} {s s' : MemoryStore}

theorem queueTerminalFailureDLR (h : item.Respects d R) (hs : R s s') (now : Time) (fault : Fault) (state : Str)
    (code : Int) : Alike R (d.queueTerminalFailureDLR s now fault item state code)
      (d.queueTerminalFailureDLR s' now fault item state code) := by
  unfold Dispatcher.queueTerminalFailureDLR
  split
  case isTrue => exact ⟨rfl, hs⟩
  case isFalse =>
    have hsave : Alike R (s.savePending now (d.terminalFailurePending now item.payload state code))
        (s'.savePending now (d.terminalFailurePending now item.payload state code)) := ⟨rfl, h.queue now state code hs⟩
    obtain ⟨a, t, t', hr, hr', ht⟩ := (fault.apply_alike hs hsave).cases
    simp only [hr, hr']
    cases a <;> exact ⟨rfl, ht⟩

theorem announceFailure (h : item.Respects d R) (hs : R s s') (now : Time) (faults : FailFaults) (err : SendError) :
    Alike R (d.announceFailure s now faults item err) (d.announceFailure s' now faults item err) := by
  unfold Dispatcher.announceFailure
  split
  case isTrue =>
    exact h.queueTerminalFailureDLR (faults.update.apply_alike hs (h.update now _ _ hs)).2 now _ _ _
  case isFalse => exact ⟨rfl, hs⟩

theorem failOutbox (h : item.Respects d R) (hs : R s s') (now : Time) (jitter : Nat) (faults : FailFaults)
    (err : SendError) :
    R (d.failOutbox s now jitter faults item err).2 (d.failOutbox s' now jitter faults item err).2 := by
  simp only [Dispatcher.failOutbox]
  generalize (if Dispatcher.isTerminal item err then 0 else now + retryDelay item.attempt jitter) = next
  obtain ⟨queued, t, t', hq, hq', ht⟩ := (h.announceFailure hs now faults err).cases
  have hqueued : (d.announceFailure s now faults item err).1 = queued := by rw [hq]
  simp only [hq, hq']
  obtain ⟨a, u, u', hf, hf', hu⟩ := (faults.fail.apply_alike ht (h.fail err.text next ht)).cases
  simp only [hf, hf']
  cases a
  case ok => exact hu
  case error =>
    cases queued
    case none => exact hu
    case some rec =>
      obtain ⟨hprovider, hid⟩ := d.announceFailure_eq_some hqueued
      have hdrop : Alike R (u.deletePending rec.provider rec.providerID) (u'.deletePending rec.provider rec.providerID) := by
        rw [hprovider, hid]
        exact ⟨rfl, h.drop hu⟩
      exact (faults.delete.apply_alike hu hdrop).2

end OutboxItem.Respects

theorem Thread.step_alike {d : Dispatcher} {th : Thread} {R : MemoryStore → MemoryStore → Prop} {s s' : MemoryStore}
    (h : th.item.Respects d R) (hs : R s s') (m : Move) : Alike R (th.step d s m) (th.step d s' m) := by
  cases m <;> simp only [step]
  case resolve found =>
    split
    case h_1 => split <;> exact ⟨rfl, hs⟩
    case h_2 => exact ⟨rfl, hs⟩
  case mark fault cancelled =>
    split
    case h_1 =>
      obtain ⟨a, t, t', hr, hr', ht⟩ := (fault.apply_alike hs (h.mark hs)).cases
      rw [hr, hr']
      cases a <;> exact ⟨rfl, ht⟩
    case h_2 => exact ⟨rfl, hs⟩
  case send now outcome =>
    split
    case h_1 => split <;> exact ⟨rfl, hs⟩
    case h_2 => exact ⟨rfl, hs⟩
  case complete now fault cancelled =>
    split
    case h_1 =>
      obtain ⟨a, t, t', hr, hr', ht⟩ := (fault.apply_alike hs (h.complete now _ hs)).cases
      rw [hr, hr']
      cases a <;> exact ⟨rfl, ht⟩
    case h_2 => exact ⟨rfl, hs⟩
  case doubt now fault cancelled =>
    split
    case h_1 =>
      obtain ⟨a, t, t', hr, hr', ht⟩ := (fault.apply_alike hs (h.doubt now _ hs)).cases
      rw [hr, hr']
      cases a <;> exact ⟨rfl, ht⟩
    case h_2 => exact ⟨rfl, hs⟩
  case fail now jitter faults =>
    split
    case h_1 => exact ⟨rfl, h.failOutbox hs now jitter faults _⟩
    case h_2 => exact ⟨rfl, hs⟩

theorem Thread.step_invariant {d : Dispatcher} {th : Thread} {P : MemoryStore → Prop} {s : MemoryStore}
    (h : th.item.Respects d fun s s' => s' = s ∧ P s) (hs : P s) (m : Move) : P (th.step d s m).2 :=
  (th.step_alike h ⟨rfl, hs⟩ m).2.2

def Phase.PreCall : Phase → Prop
  | start | marking _ | sending => True
  | _                           => False

instance : DecidablePred Phase.PreCall
  | .start | .marking _ | .sending => .isTrue trivial
  | .completing .. | .doubting .. | .failing _ | .done => .isFalse id

end SmppGateway
