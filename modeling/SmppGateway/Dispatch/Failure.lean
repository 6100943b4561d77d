import SmppGateway.Dispatch.Desk

-- A failure that the store refuses because the row has been moved in the meantime.

namespace SmppGateway

open Go

structure MemoryStore.Traceless (s s' : MemoryStore) (gatewayID : Str) : Prop where
  message : (s'.getMessage gatewayID).map (fun msg => (msg.state, msg.errorCode)) =
    (s.getMessage gatewayID).map fun msg => (msg.state, msg.errorCode)
  pending : ∀ k, s'.pending.lookup k = s.pending.lookup k

def OutboxItem.WantsReceipt (item : OutboxItem) : Prop :=
  item.payload.sourceKind = .smpp ∧ item.payload.registeredDelivery &&& 0x03 ≠ 0

instance (item : OutboxItem) : Decidable item.WantsReceipt :=
  inferInstanceAs (Decidable (_ ∧ _))

namespace Dispatcher

variable {d : Dispatcher} {s : MemoryStore} {now : Time} {jitter : Nat} {item : OutboxItem} {err : SendError}

def announced (s : MemoryStore) (now : Time) (item : OutboxItem) (err : SendError) : MemoryStore :=
  (s.updateMessageState now item.gatewayID (terminalFailureDLR err).1 (terminalFailureDLR err).2).2

theorem announced_message_iff (s : MemoryStore) (now : Time) (item : OutboxItem) (err : SendError) :
    ((announced s now item err).getMessage item.gatewayID).map (fun msg => (msg.state, msg.errorCode)) =
      (s.getMessage item.gatewayID).map (fun msg => (msg.state, msg.errorCode)) ↔
    ∀ msg, s.getMessage item.gatewayID = some msg → (msg.state, msg.errorCode) = terminalFailureDLR err := by
  cases hm : s.getMessage item.gatewayID
  case some msg =>
    rw [announced, MemoryStore.getMessage_updateMessageState hm]
    simp [eq_comm]
  case none =>
    have hnone : (announced s now item err).getMessage item.gatewayID = none := by
      unfold announced MemoryStore.updateMessageState MemoryStore.modifyMessage
      split
      case isFalse => exact hm
      case isTrue =>
        split
        case h_2 => exact hm
        case h_1 idx hidx =>
          simp only [MemoryStore.getMessage, hidx, Option.bind_eq_bind, Option.bind_some] at hm ⊢
          rw [List.getElem?_modify, hm]
          rfl
    simp [hnone]

theorem failOutbox_refused {e : StoreError}
    (h : ((d.announceFailure s now {} item err).2.failOutbox item.id err.text (nextRetryAt now jitter item err)).1 =
      .error e) :
    (d.failOutbox s now jitter {} item err).2 =
      if ¬isTerminal item err then
        s
      else if item.WantsReceipt then
        (((announced s now item err).savePending now (d.terminalFailurePending now item.payload
          (terminalFailureDLR err).1 (terminalFailureDLR err).2)).2.deletePending item.payload.provider
            (localFailureID item.payload.gatewayID)).2
      else
        announced s now item err := by
  -- A refusal leaves the store alone.
  have hsame : ∀ s₁ : MemoryStore, (s₁.failOutbox item.id err.text (nextRetryAt now jitter item err)).1 = .error e →
      s₁.failOutbox item.id err.text (nextRetryAt now jitter item err) = (.error e, s₁) := by
    intro s₁ he
    rcases s₁.failOutbox_cases item.id err.text (nextRetryAt now jitter item err) with
      ⟨e', heq⟩ | ⟨_, _, heq⟩ | ⟨_, _, _, heq⟩
    all_goals rw [heq] at he ⊢; cases he
    rfl
  have hrefused := hsame _ h
  simp only [failOutbox, ← nextRetryAt.eq_1, Fault.apply]
  unfold announceFailure at hrefused ⊢
  by_cases hterminal : isTerminal item err
  case neg =>
    simp only [hterminal, if_false, not_false_eq_true, if_true] at hrefused ⊢
    rw [hrefused]
  case pos =>
    have hguard : item.payload.sourceKind ≠ .smpp ∨ item.payload.registeredDelivery &&& 0x03 = 0 ↔
        ¬item.WantsReceipt := by
      rw [OutboxItem.WantsReceipt, not_and_or, not_not]
    simp only [hterminal, if_true, not_true_eq_false, if_false, Fault.apply, queueTerminalFailureDLR,
      hguard] at hrefused ⊢
    by_cases hwants : item.WantsReceipt
    case neg =>
      simp only [hwants, not_false_eq_true, if_true, if_false] at hrefused ⊢
      rw [hrefused]
      rfl
    case pos =>
      simp only [hwants, not_true_eq_false, if_true, if_false, MemoryStore.savePending] at hrefused ⊢
      rw [hrefused]
      rfl

-- The rows after the receipt was queued and taken back: what has expired is gone, and so is what stood under its key.
theorem takenBack_lookup {p : Pending} (s : MemoryStore) (now : Time) (k : Str) :
    ((s.savePending now p).2.deletePending p.provider p.providerID).2.pending.lookup k =
      if k = p.key then none else (s.pending.lookup k).filter (·.live now) := by
  have hkey : pendingKey p.provider p.providerID = p.key := rfl
  have hnormal : pendingKey (normalizePending p).provider (normalizePending p).providerID = p.key := rfl
  simp only [MemoryStore.savePending, MemoryStore.deletePending, hnormal, hkey]
  rw [Map.lookup_erase_eq]
  by_cases hk : k = p.key
  case pos => rw [if_pos hk, if_pos hk]
  case neg => rw [if_neg hk, if_neg hk, AList.lookup_insert_ne hk, MemoryStore.sweepLocked_lookup]

theorem takenBack_iff (s : MemoryStore) (now : Time) (p : Pending) :
    (∀ k, ((s.savePending now p).2.deletePending p.provider p.providerID).2.pending.lookup k = s.pending.lookup k) ↔
      p.key ∉ s.pending ∧ ∀ k q, s.pending.lookup k = some q → q.live now := by
  simp only [takenBack_lookup]
  constructor
  case mp =>
    intro hall
    have hkey := hall p.key
    rw [if_pos rfl] at hkey
    refine ⟨AList.lookup_eq_none.mp hkey.symm, fun k q hq => ?_⟩
    have hk := hall k
    split at hk
    case isTrue => cases hk.trans hq
    case isFalse =>
      rw [hq] at hk
      exact (Option.filter_eq_some_iff.mp hk).2
  case mpr =>
    rintro ⟨hkey, hlive⟩ k
    split
    case isTrue hk => rw [hk, AList.lookup_eq_none.mpr hkey]
    case isFalse =>
      cases hq : s.pending.lookup k
      case none => rfl
      case some q => exact Option.filter_eq_some_iff.mpr ⟨rfl, hlive k q hq⟩

-- A refused failure leaves no trace if it is not final. One that is final has been written into the message already,
-- and its receipt was queued and taken back: this shows unless the message had failed in the same way, no receipt
-- stood under the key, and no other was due to be swept.
theorem refused_failure_traceless_iff (d : Dispatcher) (s : MemoryStore) (now : Time) (jitter : Nat) (item : OutboxItem)
    (err : SendError) (e : StoreError)
    (h : ((d.announceFailure s now {} item err).2.failOutbox item.id err.text (nextRetryAt now jitter item err)).1 =
      .error e) :
    s.Traceless (d.failOutbox s now jitter {} item err).2 item.gatewayID ↔
      (isTerminal item err →
        (∀ msg, s.getMessage item.gatewayID = some msg → (msg.state, msg.errorCode) = terminalFailureDLR err) ∧
        (item.WantsReceipt → item.failureKey ∉ s.pending ∧ ∀ k p, s.pending.lookup k = some p → p.live now)) := by
  have hpending : (announced s now item err).pending = s.pending :=
    s.updateMessageState_pending now item.gatewayID _ _
  rw [failOutbox_refused h, ← announced_message_iff s now item err]
  by_cases hterminal : isTerminal item err
  case neg =>
    simp only [hterminal, not_false_eq_true, if_true, false_implies, iff_true]
    exact ⟨rfl, fun _ => rfl⟩
  case pos =>
    simp only [hterminal, not_true_eq_false, if_false, true_implies]
    by_cases hwants : item.WantsReceipt
    case neg =>
      simp only [hwants, if_false, false_implies, and_true]
      exact ⟨fun ht => ht.message, fun hm => ⟨hm, fun k => by rw [hpending]⟩⟩
    case pos =>
      have hrows := takenBack_iff (announced s now item err) now
        (d.terminalFailurePending now item.payload (terminalFailureDLR err).1 (terminalFailureDLR err).2)
      rw [hpending] at hrows
      simp only [hwants, if_true, true_implies]
      exact ⟨fun ht => ⟨ht.message, hrows.mp ht.pending⟩, fun hc => ⟨hc.1, hrows.mpr hc.2⟩⟩

def overtakenItem : OutboxItem where
  id          := 1
  gatewayID   := lit "m1"
  provider    := lit "p"
  payload     := { gatewayID := lit "m1", provider := lit "p", registeredDelivery := 1 }
  attempt     := 1
  maxAttempts := 1

def overtakenStore : MemoryStore :=
  Machine.run StoreOp.step newMemory
    [.submitAtomic 1 { id := lit "m1" } { overtakenItem with id := 0, attempt := 0 } {},
      .claimOutbox 1 (lit "w1") 1, .requeueStaleOutbox [1] 10 1, .claimOutbox 10 (lit "w2") 1,
      .markOutboxSending 1 (lit "w2"),
      .completeOutboxSend 11 1 (lit "w2") [{ provider := lit "p", providerID := lit "x", gatewayID := lit "m1" }]]

-- A worker that would try again leaves no trace,
theorem refused_failure_traceless_iff_retry :
    let d : Dispatcher := ⟨hour, fun _ => [], id⟩
    overtakenStore.Traceless (d.failOutbox overtakenStore 12 0 {} { overtakenItem with maxAttempts := 2 }
      { text := lit "timeout" }).2 (lit "m1") :=
  (refused_failure_traceless_iff ⟨hour, fun _ => [], id⟩ overtakenStore 12 0 { overtakenItem with maxAttempts := 2 }
    { text := lit "timeout" } (.cannotFail 1 .done) (by decide +kernel)).mpr
      fun hterminal => absurd hterminal (by decide)

-- one that gives up turns the message that was sent into one that was not delivered.
theorem overtaken_failure_leaves_trace :
    let d : Dispatcher := ⟨hour, fun _ => [], id⟩
    let err : SendError := { text := lit "timeout" }
    ((d.announceFailure overtakenStore 12 {} overtakenItem err).2.failOutbox 1 err.text
      (nextRetryAt 12 0 overtakenItem err)).1 = .error (.cannotFail 1 .done) ∧
    ¬overtakenStore.Traceless (d.failOutbox overtakenStore 12 0 {} overtakenItem err).2 (lit "m1") := by
  refine ⟨by decide +kernel, fun ht => ?_⟩
  have hmessage := ht.message
  revert hmessage
  decide +kernel

end Dispatcher

end SmppGateway
