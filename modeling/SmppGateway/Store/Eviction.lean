import SmppGateway.Store.Log

-- The bounded message log against the unbounded outbox.

namespace SmppGateway

open Go Machine

variable {s : MemoryStore} {op : StoreOp} {msg : Message} {id : Str} {k : Int}

theorem LogWF.mem_putMessage (wf : LogWF s) :
    id ∈ (s.putMessage msg).messageByID ↔
      id = msg.id ∨ id ∈ s.messageByID ∧ s.evicted msg ≠ some id := by
  by_cases hm : msg.id ∈ s.messageByID
  case pos =>
    have hnone : s.evicted msg = none := if_neg fun h => h.1 hm
    rw [(wf.putMessage_known hm).1, hnone]
    grind
  case neg =>
    rw [(wf.putMessage msg).index.mem_iff, MemoryStore.putMessage_ids hm, wf.index.mem_iff, keepNewest]
    have hlen : s.ids.length = s.messages.length := List.length_map ..
    by_cases h₀ : s.maxMessages = 0
    case pos =>
      have hnone : s.evicted msg = none := if_neg fun h => h.2.1 h₀
      simp [h₀, hnone, or_comm]
    case neg =>
      have hb := wf.bound h₀
      by_cases hf : s.maxMessages ≤ s.messages.length
      case pos =>
        have hone : (s.ids ++ [msg.id]).length - s.maxMessages = 1 := by simp; omega
        have hev : s.evicted msg = s.ids.head? := if_pos ⟨hm, h₀, hf⟩
        have hn := wf.index.nodup
        rw [if_neg h₀, hone, hev]
        cases hids : s.ids
        case nil => rw [hids] at hlen; simp at hlen; omega
        case cons x xs =>
          rw [hids] at hn
          simp
          grind
      case neg =>
        have hzero : (s.ids ++ [msg.id]).length - s.maxMessages = 0 := by simp; omega
        have hnone : s.evicted msg = none := if_neg fun h => hf h.2.2
        rw [if_neg h₀, hzero, hnone]
        simp [or_comm]

theorem StoreOp.exec_logWF (wf : LogWF s) : LogWF (op.exec s).2 :=
  wf.logStep op.exec_log

-- The calls that run against the gateway's own store: a row comes from a submission and names the
-- message of that submission.
def StoreOp.Linked : StoreOp → Prop
  | enqueueOutbox ..          => False
  | submitAtomic _ msg item _ => item.gatewayID = msg.id
  | _                         => True

def LiveRowsHaveMessages (s : MemoryStore) : Prop :=
  ∀ k row, s.outbox.lookup k = some row → row.state.IsLive →
    ∃ msg, s.getMessage row.gatewayID = some msg ∧ msg.id = row.gatewayID

-- The call drops no message from the log that a live row still needs.
def StoreOp.SparesLive (s : MemoryStore) (op : StoreOp) : Prop :=
  ∀ msg id, op.inserts s = some msg → s.evicted msg = some id →
    ∀ k row, s.outbox.lookup k = some row → row.state.IsLive → row.gatewayID ≠ id

theorem LogWF.liveRows_iff (wf : LogWF s) :
    LiveRowsHaveMessages s ↔
      ∀ k row, s.outbox.lookup k = some row → row.state.IsLive → row.gatewayID ∈ s.messageByID := by
  simp only [LiveRowsHaveMessages, wf.getMessage]

namespace StoreOp

theorem sparesLive_of_room (h : s.messages.length < s.maxMessages) : op.SparesLive s := by
  intro msg id _ he
  have hnone : s.evicted msg = none := if_neg fun hfull => by omega
  rw [hnone] at he
  cases he

theorem sparesLive_of_idle (h : ∀ k row, s.outbox.lookup k = some row → ¬row.state.IsLive) : op.SparesLive s :=
  fun _ _ _ _ k row hr hlive => absurd hlive (h k row hr)

theorem live_origin (wf : OutboxWF s) (hl : op.Linked) {b : OutboxItem}
    (hb : (op.exec s).2.outbox.lookup k = some b) (hlive : b.state.IsLive) :
    (∃ a, s.outbox.lookup k = some a ∧ a.state.IsLive ∧ a.gatewayID = b.gatewayID) ∨
    (∃ msg, op.inserts s = some msg ∧ msg.id = b.gatewayID) := by
  cases op.exec_row wf k
  case same he => exact .inl ⟨b, he ▸ hb, hlive, rfl⟩
  case evolves a _ ha hd he =>
    cases hb.symm.trans hd
    exact .inl ⟨a, ha, he.live hlive, he.gatewayID_eq.symm⟩
  case new item now hg hn hd hk hc =>
    cases hb.symm.trans hd
    cases op <;> simp only [newRow?, Option.some.injEq, reduceCtorEq] at hg
    case enqueueOutbox => exact hl.elim
    case submitAtomic now' msg item' opts =>
      subst hg
      refine .inr ⟨msg, ?_, hl.symm⟩
      simp only [exec, reply] at hd
      simp only [inserts]
      cases MemoryStore.submitAtomic_cases s now' msg item' opts
      case duplicate h => simp [h, hn] at hd
      case refused h => simp [h, hn] at hd
      case accepted h => simp [h]

theorem inserts_outbox (wf : OutboxWF s) (hm : op.inserts s = some msg) {a : OutboxItem}
    (ha : s.outbox.lookup k = some a) : (op.exec s).2.outbox.lookup k = some a := by
  cases op
  case saveMessage => simpa [exec, reply, MemoryStore.saveMessage] using ha
  case submitAtomic now msg item opts =>
    simp only [inserts, exec, reply] at hm ⊢
    cases MemoryStore.submitAtomic_cases s now msg item opts
    case duplicate h => simp [h] at hm
    case refused h => simp [h] at hm
    case accepted d _ hq h =>
      obtain ⟨ho, hn⟩ := MemoryStore.debitQuota_outbox hq
      have hk : k ≠ s.nextOutbox + 1 := by have := wf.bounded ha; omega
      simpa [h, MemoryStore.putOutbox, ho, hn, hk] using ha
  all_goals simp [inserts] at hm

theorem sparesLive_iff (wf : OutboxWF s) (lwf : LogWF s) (hl : op.Linked)
    (h : LiveRowsHaveMessages s) : op.SparesLive s ↔ LiveRowsHaveMessages (op.exec s).2 := by
  rw [(exec_logWF lwf).liveRows_iff]
  rw [lwf.liveRows_iff] at h
  have hlog := (op.exec_log (s := s)).mem_iff
  constructor
  case mp =>
    intro hs k b hb hlive
    rw [hlog]
    cases live_origin wf hl hb hlive
    case inl ho =>
      obtain ⟨a, ha, hla, hg⟩ := ho
      have hmem := hg ▸ h k a ha hla
      cases hm : op.inserts s
      case none => exact hmem
      case some msg => exact lwf.mem_putMessage.mpr (.inr ⟨hmem, fun he => hs msg _ hm he k a ha hla hg⟩)
    case inr ho =>
      obtain ⟨msg, hm, hg⟩ := ho
      rw [hm]
      exact lwf.mem_putMessage.mpr (.inl hg.symm)
  case mpr =>
    rintro hs msg id hm he k a ha hla rfl
    have hmem := hs k a (inserts_outbox wf hm ha) hla
    rw [hlog, hm, Option.elim_some, lwf.mem_putMessage, he] at hmem
    -- The evicted id was in the log, so it is not the new one either.
    have hnew : msg.id ∉ s.messageByID := by
      by_contra hc
      simp [MemoryStore.evicted, hc] at he
    have hold := h k a ha hla
    grind

end StoreOp

theorem validateOutboxCompletion.go_ne_notFound {item : OutboxItem} (i : Nat) (ps : List Pending) :
    validateOutboxCompletion.go item i ps ≠ .error .notFound := by
  induction ps generalizing i
  case nil => simp [go]
  case cons rec rest hi =>
    simp only [go]
    split
    case isTrue => simp
    case isFalse =>
      split
      case isTrue => simp
      case isFalse =>
        have := hi (i + 1)
        cases h : go item (i + 1) rest <;> simp_all [Except.map]

theorem validateOutboxCompletion_ne_notFound (item : OutboxItem) (ps : List Pending) :
    validateOutboxCompletion item ps ≠ .error .notFound := by
  unfold validateOutboxCompletion
  split
  case isTrue => simp
  case isFalse => exact validateOutboxCompletion.go_ne_notFound 0 ps

theorem completeOutboxSend_ne_notFound (wf : LogWF s) (h : LiveRowsHaveMessages s) {row : OutboxItem}
    (hr : s.outbox.lookup k = some row) (now : Time) (workerID : Str) (ps : List Pending) :
    (s.completeOutboxSend now k workerID ps).1 ≠ .error .notFound := by
  unfold MemoryStore.completeOutboxSend
  rw [hr]
  simp only
  split
  case isTrue => simp
  case isFalse =>
    split
    case isTrue => simp
    case isFalse hs =>
      have hlive : row.state.IsLive := by simp at hs; exact .inr (.inr hs.1)
      split
      case _ e he =>
        simpa [he] using validateOutboxCompletion_ne_notFound row ps
      case _ => rw [if_pos (wf.liveRows_iff.mp h k row hr hlive)]; simp

theorem run_saveMessage (wf : LogWF s) (ms : List Message)
    (hn : (s.ids ++ ms.map (·.id)).Nodup) :
    let t := run StoreOp.step s (ms.map .saveMessage)
    LogWF t ∧ t.ids = keepNewest s.maxMessages (s.ids ++ ms.map (·.id)) ∧ t.outbox = s.outbox := by
  induction ms generalizing s
  case nil =>
    refine ⟨wf, ?_, rfl⟩
    have hb := wf.bound
    unfold keepNewest
    split
    case isTrue => simp
    case isFalse h => simp [Nat.sub_eq_zero_of_le (hb h)]
  case cons m ms hi =>
    have hm : m.id ∉ s.messageByID := by
      rw [wf.index.mem_iff]
      simp at hn
      grind
    have hids := MemoryStore.putMessage_ids hm
    have hsub : ((s.putMessage m).ids ++ ms.map (·.id)).Nodup := by
      refine hn.sublist ?_
      have hk : (keepNewest s.maxMessages (s.ids ++ [m.id])).Sublist (s.ids ++ [m.id]) :=
        keepNewest_sublist
      simpa [hids] using hk.append_right (ms.map (·.id))
    have ⟨hwf, hk, ho⟩ := hi (wf.putMessage m) hsub
    refine ⟨hwf, hk.trans ?_, ho.trans MemoryStore.putMessage_outbox⟩
    rw [hids, MemoryStore.putMessage_maxMessages, keepNewest_append]
    simp

theorem run_saveMessage_evicts (wf : LogWF s) (ms : List Message)
    (hn : (s.ids ++ ms.map (·.id)).Nodup) (h₀ : s.maxMessages ≠ 0)
    (hlen : s.maxMessages ≤ ms.length) (hid : id ∈ s.ids) :
    let t := run StoreOp.step s (ms.map .saveMessage)
    id ∉ t.messageByID ∧ t.outbox = s.outbox := by
  have ⟨hwf, ht, ho⟩ := run_saveMessage wf ms hn
  refine ⟨fun h => ?_, ho⟩
  rw [hwf.index.mem_iff, ht, keepNewest, if_neg h₀, List.drop_append] at h
  have hall : s.ids.length ≤ (s.ids ++ ms.map (·.id)).length - s.maxMessages := by simp; omega
  rw [List.drop_eq_nil_of_le hall, List.nil_append] at h
  exact (List.nodup_append.mp hn).2.2 id hid id (List.mem_of_mem_drop h) rfl

theorem completion_fails_when_evicted (wf : LogWF s) (ms : List Message)
    (hn : (s.ids ++ ms.map (·.id)).Nodup) (h₀ : s.maxMessages ≠ 0)
    (hlen : s.maxMessages ≤ ms.length) {row : OutboxItem} {workerID : Str} {ps recs : List Pending}
    (hid : row.gatewayID ∈ s.ids) (hr : s.outbox.lookup k = some row) (hs : row.state = .sending)
    (hw : row.claimedBy = workerID) (hv : validateOutboxCompletion row ps = .ok recs) (now : Time) :
    let t := run StoreOp.step s (ms.map .saveMessage)
    (t.outbox.lookup k).map (·.state) = some .sending ∧
    (t.completeOutboxSend now k workerID ps).1 = .error .notFound := by
  intro t
  have h : row.gatewayID ∉ t.messageByID ∧ t.outbox = s.outbox :=
    run_saveMessage_evicts wf ms hn h₀ hlen hid
  clear_value t
  obtain ⟨hgone, ho⟩ := h
  simp [MemoryStore.completeOutboxSend, ho, hr, hs, hw, hv, hgone]

def otherMessages (n : Nat) : List Message :=
  (List.range n).map fun i => { id := List.replicate i 0 }

theorem length_otherMessages {n : Nat} : (otherMessages n).length = n := by
  simp [otherMessages]

theorem otherMessages_ids {n : Nat} (h : id ≠ [] ∧ 0 ∉ id) :
    ([id] ++ (otherMessages n).map (·.id)).Nodup := by
  rw [List.singleton_append, List.nodup_cons, otherMessages, List.map_map]
  constructor
  case left =>
    rw [List.mem_map]
    rintro ⟨i, -, rfl⟩
    simp at h
  case right =>
    refine List.Nodup.map (fun i j hij => ?_) List.nodup_range
    simpa using congrArg List.length hij

def sendingOps : List StoreOp :=
  [.submitAtomic 1 { id := lit "m1" } { gatewayID := lit "m1", payload := { gatewayID := lit "m1" } } {},
    .claimOutbox 1 (lit "w") 1, .markOutboxSending 1 (lit "w")]

def sendingStore : MemoryStore :=
  run StoreOp.step newMemory sendingOps

theorem sendingStore_wf : LogWF sendingStore :=
  StoreOp.exec_logWF (StoreOp.exec_logWF (StoreOp.exec_logWF .newMemory))

def sentReceipt : Pending :=
  { providerID := lit "p1", gatewayID := lit "m1", provider := [] }

def sentOps : List StoreOp :=
  sendingOps ++ [.completeOutboxSend 2 1 (lit "w") [sentReceipt]]

-- Over every run of calls from an empty store, all live rows have their messages in every state
-- exactly when no call evicts the message of a live row. In such a run a row that is in the outbox
-- can always be completed.
theorem live_rows_keep_messages_iff (ops : List StoreOp) (hl : ∀ op ∈ ops, op.Linked) :
    (Along StoreOp.step StoreOp.SparesLive newMemory ops ↔
      Always StoreOp.step LiveRowsHaveMessages newMemory ops) ∧
    (Along StoreOp.step StoreOp.SparesLive newMemory ops →
      Always StoreOp.step (fun s => ∀ id row now workerID ps, s.outbox.lookup id = some row →
        (s.completeOutboxSend now id workerID ps).1 ≠ .error .notFound) newMemory ops) := by
  have hinv : ∀ (s : MemoryStore) (op : StoreOp), OutboxWF s ∧ LogWF s → op.Linked →
      OutboxWF (op.step s) ∧ LogWF (op.step s) :=
    fun s op h _ => ⟨op.exec_wf h.1, op.exec_logWF h.2⟩
  have hnew : LiveRowsHaveMessages newMemory := fun k row h => by simp [newMemory] at h
  have hiff := Always.iff_along ⟨.newMemory, .newMemory⟩ hnew hl hinv fun s op h hl hp =>
    op.sparesLive_iff h.1 h.2 hl hp
  refine ⟨hiff.symm, fun h pre hp id row now workerID ps hr => ?_⟩
  obtain ⟨post, rfl⟩ := hp
  have hpre : Along StoreOp.step (fun _ op => op.Linked) newMemory pre :=
    .of_forall fun _ op ho => hl op (List.mem_append_left post ho)
  have hwf := invariant (P := fun s => OutboxWF s ∧ LogWF s) ⟨.newMemory, .newMemory⟩ hpre hinv
  exact completeOutboxSend_ne_notFound hwf.2 (hiff.mpr h pre ⟨post, rfl⟩) hr now workerID ps

theorem live_rows_keep_messages_done :
    let ops := sentOps ++ (otherMessages 10000).map .saveMessage
    lit "m1" ∈ (run StoreOp.step newMemory sentOps).messageByID ∧
    lit "m1" ∉ (run StoreOp.step newMemory ops).messageByID ∧
    Always StoreOp.step LiveRowsHaveMessages newMemory ops := by
  intro ops
  have wf : LogWF (run StoreOp.step newMemory sentOps) :=
    invariant .newMemory (.of_forall fun _ _ _ => trivial) fun _ _ (h : LogWF _) (_ : True) => StoreOp.exec_logWF h
  have hids : (run StoreOp.step newMemory sentOps).ids = [lit "m1"] := by decide +kernel
  have hmax : (run StoreOp.step newMemory sentOps).maxMessages = 10000 := by decide +kernel
  have hidle : ∀ e ∈ (run StoreOp.step newMemory sentOps).outbox.entries, ¬e.2.state.IsLive := by decide +kernel
  have hn : ((run StoreOp.step newMemory sentOps).ids ++ (otherMessages 10000).map (·.id)).Nodup := by
    rw [hids]
    exact otherMessages_ids (by decide)
  refine ⟨by decide +kernel, ?_, (live_rows_keep_messages_iff ops ?_).1.mp (Along.append.mpr ⟨?_, ?_⟩)⟩
  case refine_1 =>
    rw [run_append]
    refine (run_saveMessage_evicts wf _ hn (by simp [hmax]) (by rw [hmax, length_otherMessages]) ?_).1
    rw [hids]
    exact List.mem_singleton_self _
  case refine_2 =>
    intro op hop
    rcases List.mem_append.mp hop with hop | hop
    case inl =>
      have hsent : ∀ op ∈ sentOps, op.Linked := by simp [sentOps, sendingOps, StoreOp.Linked]
      exact hsent op hop
    case inr => obtain ⟨msg, -, rfl⟩ := List.mem_map.mp hop; trivial
  case refine_3 =>
    have hroom : Along StoreOp.step (fun s _ => s.messages.length < s.maxMessages) newMemory sentOps := by
      decide +kernel
    exact hroom.mono fun _ _ h => StoreOp.sparesLive_of_room h
  case refine_4 =>
    generalize run StoreOp.step newMemory sentOps = t at hidle ⊢
    have hsaves : ∀ op ∈ (otherMessages 10000).map StoreOp.saveMessage, ∃ msg, op = .saveMessage msg := by
      intro op hop
      obtain ⟨msg, -, rfl⟩ := List.mem_map.mp hop
      exact ⟨msg, rfl⟩
    generalize (otherMessages 10000).map StoreOp.saveMessage = saves at hsaves ⊢
    refine Along.of_invariant (P := fun u => u.outbox = t.outbox) rfl (.of_forall fun _ => hsaves) ?_ ?_
    case refine_1 =>
      rintro u _ hu ⟨msg, rfl⟩
      exact (MemoryStore.putMessage_outbox).trans hu
    case refine_2 =>
      rintro u op hu -
      exact StoreOp.sparesLive_of_idle fun k row hr => hidle ⟨k, row⟩ (Map.mem_entries_iff.mpr (hu ▸ hr))

-- A full log of later messages pushes out the message of a row that is being sent, and its
-- completion fails.
theorem live_message_evicted :
    let t := run StoreOp.step sendingStore ((otherMessages 10000).map .saveMessage)
    (sendingStore.completeOutboxSend 2 1 (lit "w") [sentReceipt]).1 = .ok () ∧
    (t.outbox.lookup 1).map (·.state) = some .sending ∧
    (t.completeOutboxSend 2 1 (lit "w") [sentReceipt]).1 = .error .notFound := by
  have hids : sendingStore.ids = [lit "m1"] := rfl
  have hmax : sendingStore.maxMessages = 10000 := rfl
  have hn : (sendingStore.ids ++ (otherMessages 10000).map (·.id)).Nodup := by
    rw [hids]
    exact otherMessages_ids (by decide)
  have hlen : sendingStore.maxMessages ≤ (otherMessages 10000).length := by
    rw [hmax, length_otherMessages]
  obtain ⟨r, hr, hs, hw, hg, recs, hv⟩ : ∃ r, sendingStore.outbox.lookup 1 = some r ∧
      r.state = .sending ∧ r.claimedBy = lit "w" ∧ r.gatewayID = lit "m1" ∧
      ∃ recs, validateOutboxCompletion r [sentReceipt] = .ok recs :=
    ⟨_, rfl, rfl, rfl, rfl, _, rfl⟩
  have hid : r.gatewayID ∈ sendingStore.ids := by rw [hids, hg]; exact List.mem_singleton_self _
  exact ⟨rfl, completion_fails_when_evicted sendingStore_wf _ hn (by simp [hmax]) hlen hid hr hs hw
    hv 2⟩

end SmppGateway
