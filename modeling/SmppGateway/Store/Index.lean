import SmppGateway.Store.Eviction
import SmppGateway.Store.Reopen

-- The message log over whole runs of the store: which messages were inserted, which of them are kept, and that the
-- index names the place of each.

namespace SmppGateway

open Go Machine

namespace StoreCall

def saves (s : MemoryStore) : StoreCall → Option Message
  | outbox op => op.inserts s
  | _         => none

def insertion (s : MemoryStore) (call : StoreCall) : List Message :=
  (call.saves s).toList.filter (·.id ∉ s.ids)

def insertions : MemoryStore → List StoreCall → List Message
  | _, []            => []
  | s, call :: calls => call.insertion s ++ insertions (call.exec s) calls

variable {s : MemoryStore} {call : StoreCall}

theorem modifyPending_log {provider providerID : Str} {f : Pending → Pending} :
    LogStep s (s.modifyPending provider providerID f).2 none := by
  unfold MemoryStore.modifyPending
  split <;> exact .same rfl rfl rfl

theorem exec_log : LogStep s (call.exec s) (call.saves s) := by
  cases call <;> simp only [exec, saves]
  case outbox op => exact op.exec_log
  case updateMessageSent =>
    unfold MemoryStore.updateMessageSent
    split
    case isTrue => exact MemoryStore.modifyMessage_log fun _ => rfl
    case isFalse => exact .same rfl rfl rfl
  case updateMessageState =>
    unfold MemoryStore.updateMessageState
    split
    case isTrue => exact MemoryStore.modifyMessage_log fun _ => rfl
    case isFalse => exact .same rfl rfl rfl
  case updatePendingDLR | markDLRReady | markDLRDelivered => exact modifyPending_log
  case getPending =>
    simp only [MemoryStore.getPending]
    repeat' split
    all_goals exact .same rfl rfl rfl
  case checkIdempotency =>
    simp only [MemoryStore.checkIdempotency]
    repeat' split
    all_goals exact .same rfl rfl rfl
  case saveIdempotency now gatewayID opts =>
    unfold MemoryStore.saveIdempotency
    split
    case h_1 => exact .same rfl rfl rfl
    case h_2 =>
      obtain ⟨i, hi⟩ := MemoryStore.rememberKey_frame (s.sweepLocked now) now gatewayID opts
      rw [hi]
      exact .same rfl rfl rfl
  all_goals exact .same rfl rfl rfl

theorem exec_logWF (wf : LogWF s) : LogWF (call.exec s) :=
  wf.logStep exec_log

theorem exec_maxMessages : (call.exec s).maxMessages = s.maxMessages := by
  have h : LogStep s (call.exec s) (call.saves s) := exec_log
  generalize call.saves s = m at h
  cases h <;> assumption

end StoreCall

namespace LogWF

variable {s : MemoryStore}

theorem keepNewest_ids (wf : LogWF s) : keepNewest s.maxMessages s.ids = s.ids := by
  unfold keepNewest
  split
  case isTrue => rfl
  case isFalse h => rw [Nat.sub_eq_zero_of_le (wf.bound h), List.drop_zero]

theorem exec_ids (wf : LogWF s) (call : StoreCall) :
    (call.exec s).ids = keepNewest s.maxMessages (s.ids ++ (call.insertion s).map (·.id)) := by
  have h : LogStep s (call.exec s) (call.saves s) := StoreCall.exec_log
  unfold StoreCall.insertion
  generalize call.saves s = m at h
  cases h
  case same _ hids _ => simpa [hids] using wf.keepNewest_ids.symm
  case put msg _ hids _ =>
    rw [hids]
    by_cases hm : msg.id ∈ s.messageByID
    case pos =>
      have hmem : msg.id ∈ s.ids := wf.index.mem_iff.mp hm
      rw [(wf.putMessage_known hm).2]
      simpa [hmem] using wf.keepNewest_ids.symm
    case neg =>
      have hmem : msg.id ∉ s.ids := fun h => hm (wf.index.mem_iff.mpr h)
      rw [MemoryStore.putMessage_ids hm]
      simp [hmem]

theorem run_ids (wf : LogWF s) (calls : List StoreCall) : LogWF (run StoreCall.exec s calls) ∧
    (run StoreCall.exec s calls).maxMessages = s.maxMessages ∧
    (run StoreCall.exec s calls).ids =
      keepNewest s.maxMessages (s.ids ++ (StoreCall.insertions s calls).map (·.id)) := by
  induction calls generalizing s
  case nil => simpa [StoreCall.insertions] using ⟨wf, wf.keepNewest_ids.symm⟩
  case cons call calls hi =>
    have wf₁ : LogWF (call.exec s) := StoreCall.exec_logWF wf
    obtain ⟨hwf, hmax, hids⟩ := hi wf₁
    refine ⟨hwf, hmax.trans StoreCall.exec_maxMessages, hids.trans ?_⟩
    rw [StoreCall.exec_maxMessages, wf.exec_ids, keepNewest_append, StoreCall.insertions, List.map_append,
      List.append_assoc]

end LogWF

def newMemoryOf (maxMessages : Nat) : MemoryStore :=
  { newMemory with maxMessages }

theorem newMemoryOf_wf (maxMessages : Nat) : LogWF (newMemoryOf maxMessages) where
  index _ _ := by simp [newMemoryOf, newMemory, MemoryStore.ids]
  bound := by simp [newMemoryOf, newMemory, MemoryStore.ids]

theorem message_index_exact {maxMessages : Nat} (hmax : 0 < maxMessages) (calls : List StoreCall) :
    let start := newMemoryOf maxMessages
    let s := run StoreCall.exec start calls
    let inserted := StoreCall.insertions start calls
    (∀ id i, s.messageByID.lookup id = some i ↔ i < s.messages.length ∧ (s.messages[i]?).map (·.id) = some id) ∧
    (s.messages.map (·.id)).Nodup ∧
    s.messages.length ≤ maxMessages ∧
    s.messages.map (·.id) = (inserted.drop (inserted.length - maxMessages)).map (·.id) := by
  intro start s inserted
  obtain ⟨hwf, hsame, hids⟩ := (newMemoryOf_wf maxMessages).run_ids calls
  have hsame : s.maxMessages = maxMessages := hsame
  refine ⟨fun id i => ?index, hwf.index.nodup, ?bound, ?newest⟩
  case index =>
    rw [hwf.index id i, MemoryStore.ids, List.getElem?_map]
    refine (and_iff_right_of_imp fun h => ?_).symm
    obtain ⟨msg, hmsg, -⟩ := Option.map_eq_some_iff.mp h
    exact (List.getElem?_eq_some_iff.mp hmsg).1
  case bound =>
    have hbound := hwf.bound (by rw [hsame]; exact Nat.ne_of_gt hmax)
    rwa [hsame, MemoryStore.ids, List.length_map] at hbound
  case newest =>
    have hnil : (newMemoryOf maxMessages).ids = [] := rfl
    have hkept : s.ids = keepNewest maxMessages (inserted.map (·.id)) := by rw [hids, hnil, List.nil_append]; rfl
    calc s.messages.map (·.id)
      _ = keepNewest maxMessages (inserted.map (·.id))                := hkept
      _ = (keepNewest maxMessages inserted).map (·.id)                := keepNewest_map.symm
      _ = (inserted.drop (inserted.length - maxMessages)).map (·.id)  := by rw [keepNewest, if_neg (Nat.ne_of_gt hmax)]

theorem message_index_exact_at :
    let row : OutboxItem := { gatewayID := lit "m2", payload := { gatewayID := lit "m2" } }
    let s := run StoreCall.exec (newMemoryOf 2)
      [.outbox (.saveMessage { id := lit "m1" }), .outbox (.submitAtomic 1 { id := lit "m2" } row {}),
        .outbox (.saveMessage { id := lit "m2" }), .outbox (.saveMessage { id := lit "m3" }),
        .updateMessageSent 2 (lit "m2") (lit "p")]
    s.messages.length ≤ 2 ∧ s.messageByID.lookup (lit "m2") = some 0 ∧ s.messageByID.lookup (lit "m1") = none := by
  intro row
  have h := message_index_exact (by decide : 0 < 2)
    [.outbox (.saveMessage { id := lit "m1" }), .outbox (.submitAtomic 1 { id := lit "m2" } row {}),
      .outbox (.saveMessage { id := lit "m2" }), .outbox (.saveMessage { id := lit "m3" }),
      .updateMessageSent 2 (lit "m2") (lit "p")]
  exact ⟨h.2.2.1, (h.1 _ _).mpr (by decide +kernel), by decide +kernel⟩

end SmppGateway
