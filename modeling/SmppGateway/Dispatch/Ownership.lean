import SmppGateway.Dispatch.Worker

-- A goroutine whose claim was recovered as stale and given to another worker: what the calls that it still
-- makes for its old copy can do to the row.

namespace SmppGateway

open Go Machine

def MemoryStore.Away (s : MemoryStore) (id : Int) (workerID : Str) : Prop :=
  ∃ row, s.outbox.lookup id = some row ∧ (row.state = .pending ∨ row.claimedBy ≠ workerID)

namespace MemoryStore

variable {s s' : MemoryStore} {id : Int} {workerID : Str}

def Marks (s : MemoryStore) (id : Int) (workerID : Str) : Prop :=
  ∃ row, s.outbox.lookup id = some row ∧ row.claimedBy = workerID ∧ row.state = .claimed

def Completes (s : MemoryStore) (id : Int) (workerID : Str) (pending : List Pending) : Prop :=
  ∃ row, s.outbox.lookup id = some row ∧ row.claimedBy = workerID ∧ row.state = .sending ∧
    (∃ recs, validateOutboxCompletion row pending = .ok recs) ∧ row.gatewayID ∈ s.messageByID

def Doubts (s : MemoryStore) (id : Int) (workerID errMsg : Str) : Prop :=
  ∃ row, s.outbox.lookup id = some row ∧ row.claimedBy = workerID ∧
    (row.state = .sending ∨ row.state = .uncertain ∧ row.lastError ≠ errMsg)

def Fails (s : MemoryStore) (id : Int) (next : Time) : Prop :=
  ∃ row, s.outbox.lookup id = some row ∧
    (row.state = .claimed ∨ row.state = .sending ∧ (next = 0 ∨ row.maxAttempts ≤ row.attempt))

theorem lookup_insert_iff {row new : OutboxItem} {p : Prop} (ho : s'.outbox = s.outbox.insert id new)
    (hstate : row.state ≠ new.state) (hp : p) : s'.outbox.lookup id = some row ↔ ¬p := by
  refine iff_of_false (fun heq => ?_) fun hnot => hnot hp
  rw [ho, AList.lookup_insert] at heq
  exact hstate (congrArg OutboxItem.state (Option.some.inj heq)).symm

theorem markOutboxSending_lookup_iff (s : MemoryStore) (id : Int) (workerID : Str) :
    (s.markOutboxSending id workerID).2.outbox.lookup id = s.outbox.lookup id ↔ ¬s.Marks id workerID := by
  unfold Marks markOutboxSending
  cases hr : s.outbox.lookup id
  case none => simp [hr]
  case some row =>
    simp only [Option.some.injEq, exists_eq_left']
    split
    case isTrue hs => exact iff_of_true hr (by simp [hs])
    case isFalse =>
      split
      case isTrue hc => exact iff_of_true hr (by grind)
      case isFalse hc =>
        exact lookup_insert_iff rfl (by grind) (by grind)

theorem completeOutboxSend_lookup_iff (s : MemoryStore) (now : Time) (id : Int) (workerID : Str)
    (pending : List Pending) :
    (s.completeOutboxSend now id workerID pending).2.outbox.lookup id = s.outbox.lookup id ↔
      ¬s.Completes id workerID pending := by
  unfold Completes completeOutboxSend
  cases hr : s.outbox.lookup id
  case none => simp [hr]
  case some row =>
    simp only [Option.some.injEq, exists_eq_left']
    split
    case isTrue hd => exact iff_of_true hr (by simp [hd])
    case isFalse =>
      split
      case isTrue hc => exact iff_of_true hr (by grind)
      case isFalse hc =>
        split
        case h_1 e he => exact iff_of_true hr (by simp [he])
        case h_2 recs hrecs =>
          split
          case isFalse hm => exact iff_of_true hr (by simp [hm])
          case isTrue hm =>
            exact lookup_insert_iff (congrArg (AList.insert id _) modifyMessage_outbox) (by grind) (by grind)

theorem markOutboxUncertain_lookup_iff (s : MemoryStore) (now : Time) (id : Int) (workerID errMsg : Str) :
    (s.markOutboxUncertain now id workerID errMsg).2.outbox.lookup id = s.outbox.lookup id ↔
      ¬s.Doubts id workerID errMsg := by
  unfold Doubts markOutboxUncertain
  cases hr : s.outbox.lookup id
  case none => simp [hr]
  case some row =>
    simp only [Option.some.injEq, exists_eq_left']
    split
    case isTrue hs =>
      refine iff_of_true hr ?_
      rintro ⟨-, h | h⟩
      case inl => exact hs.1 h
      case inr => exact hs.2 h.1
    case isFalse hs =>
      split
      case isTrue hc => exact iff_of_true hr fun h => hc h.1
      case isFalse hc =>
        rw [modifyMessage_outbox, AList.lookup_insert, Option.some.injEq]
        cases row
        grind

theorem failOutbox_lookup_iff (s : MemoryStore) (id : Int) (errMsg : Str) (next : Time) :
    (s.failOutbox id errMsg next).2.outbox.lookup id = s.outbox.lookup id ↔ ¬s.Fails id next := by
  unfold Fails failOutbox
  cases hr : s.outbox.lookup id
  case none => simp [hr]
  case some row =>
    simp only [Option.some.injEq, exists_eq_left']
    split
    case isTrue hn =>
      split
      case isTrue hs => exact iff_of_true hr fun h => h.elim hs.1 fun h => hs.2 h.1
      case isFalse hs =>
        exact lookup_insert_iff rfl (by grind) (by grind)
    case isFalse hn =>
      split
      case isTrue hs => exact iff_of_true hr fun h => h.elim hs fun h => hn h.2
      case isFalse hs =>
        exact lookup_insert_iff rfl (by grind) (.inl (not_ne_iff.mp hs))

theorem Away.pending {row : OutboxItem} (h : s.Away id workerID) (hr : s.outbox.lookup id = some row)
    (hc : row.claimedBy = workerID) : row.state = .pending := by
  obtain ⟨row', hr', haway⟩ := h
  cases hr.symm.trans hr'
  exact haway.resolve_right fun h => h hc

theorem Away.not_marks (h : s.Away id workerID) : ¬s.Marks id workerID := by
  rintro ⟨row, hr, hc, hs⟩
  cases hs.symm.trans (h.pending hr hc)

theorem Away.not_completes (h : s.Away id workerID) (pending : List Pending) :
    ¬s.Completes id workerID pending := by
  rintro ⟨row, hr, hc, hs, -⟩
  cases hs.symm.trans (h.pending hr hc)

theorem Away.not_doubts (h : s.Away id workerID) (errMsg : Str) : ¬s.Doubts id workerID errMsg := by
  rintro ⟨row, hr, hc, hs⟩
  have hpending := h.pending hr hc
  grind

theorem Away.congr (h : s.Away id workerID) (ho : s'.outbox.lookup id = s.outbox.lookup id) :
    s'.Away id workerID := by
  obtain ⟨row, hr, haway⟩ := h
  exact ⟨row, ho.trans hr, haway⟩

theorem Away.insert {k : Int} {a b : OutboxItem} (h : s.Away id workerID) (ha : s.outbox.lookup k = some a)
    (ho : s'.outbox = s.outbox.insert k b) (hlive : a.state ≠ .pending)
    (hb : b.state = .pending ∨ b.claimedBy = a.claimedBy) : s'.Away id workerID := by
  obtain ⟨row, hr, haway⟩ := h
  by_cases hk : id = k
  case neg => exact ⟨row, by rw [ho, AList.lookup_insert_ne hk, hr], haway⟩
  case pos =>
    subst hk
    cases ha.symm.trans hr
    refine ⟨b, by rw [ho, AList.lookup_insert], hb.imp_right fun hc => ?_⟩
    rw [hc]
    exact haway.resolve_left hlive

theorem Away.fault {α : Type} {r : StoreResult α} (h : s.Away id workerID) (hr : r.2.Away id workerID)
    (f : Fault) : (f.apply s r).2.Away id workerID := by
  rcases f.apply_store s r with hf | hf <;> rw [hf]
  case inl => exact h
  case inr => exact hr

section Calls

variable (h : s.Away id workerID)
include h

theorem Away.markOutboxSending (k : Int) (other : Str) :
    (s.markOutboxSending k other).2.Away id workerID := by
  unfold MemoryStore.markOutboxSending
  split
  case h_1 => exact h
  case h_2 a ha =>
    split
    case isTrue => exact h
    case isFalse =>
      split
      case isTrue => exact h
      case isFalse hc => exact h.insert ha rfl (by grind) (.inr rfl)

theorem Away.completeOutboxSend (now : Time) (k : Int) (other : Str) (ps : List Pending) :
    (s.completeOutboxSend now k other ps).2.Away id workerID := by
  unfold MemoryStore.completeOutboxSend
  split
  case h_1 => exact h
  case h_2 a ha =>
    split
    case isTrue => exact h
    case isFalse =>
      split
      case isTrue => exact h
      case isFalse hc =>
        split
        case h_1 => exact h
        case h_2 =>
          split
          case isFalse => exact h
          case isTrue =>
            exact h.insert ha (congrArg (AList.insert k _) modifyMessage_outbox) (by grind) (.inr rfl)

theorem Away.markOutboxUncertain (now : Time) (k : Int) (other errMsg : Str) :
    (s.markOutboxUncertain now k other errMsg).2.Away id workerID := by
  unfold MemoryStore.markOutboxUncertain
  split
  case h_1 => exact h
  case h_2 a ha =>
    split
    case isTrue => exact h
    case isFalse hc =>
      split
      case isTrue => exact h
      case isFalse => exact h.insert ha modifyMessage_outbox (by grind) (.inr rfl)

theorem Away.failOutbox (k : Int) (errMsg : Str) (next : Time) :
    (s.failOutbox k errMsg next).2.Away id workerID := by
  unfold MemoryStore.failOutbox
  split
  case h_1 => exact h
  case h_2 a ha =>
    split
    case isTrue =>
      split
      case isTrue => exact h
      case isFalse hc => exact h.insert ha rfl (by grind) (.inr rfl)
    case isFalse =>
      split
      case isTrue => exact h
      case isFalse hc => exact h.insert ha rfl (by grind) (.inl rfl)

theorem Away.requeueStaleOutbox (order : List Int) (before : Time) (limit : Int) :
    (s.requeueStaleOutbox order before limit).2.Away id workerID := by
  obtain ⟨row, hr, haway⟩ := h
  rcases requeueStaleOutbox.go_lookup before (if limit ≤ 0 then 1000 else limit.toNat) s.outbox 0 order
    (k := id) with hl | ⟨a, -, -, hl⟩
  case inl => exact ⟨row, hl.trans hr, haway⟩
  case inr => exact ⟨requeueItem before a, hl, .inl rfl⟩

theorem Away.putOutbox (wf : OutboxWF s) (ho : s'.outbox = s.outbox) (hn : s'.nextOutbox = s.nextOutbox)
    (now : Time) (item : OutboxItem) : (s'.putOutbox now item).Away id workerID := by
  obtain ⟨row, hr, haway⟩ := h
  have hne : id ≠ s'.nextOutbox + 1 := by
    have := wf.bounded hr
    omega
  exact ⟨row, by simp [MemoryStore.putOutbox, ho, hne, hr], haway⟩

theorem Away.submitAtomic (wf : OutboxWF s) (now : Time) (msg : Message) (item : OutboxItem)
    (opts : SubmitOptions) : (s.submitAtomic now msg item opts).2.Away id workerID := by
  cases s.submitAtomic_cases now msg item opts
  case duplicate eq => rw [eq]; exact h.congr rfl
  case refused eq => rw [eq]; exact h.congr rfl
  case accepted hd eq =>
    rw [eq]
    obtain ⟨ho, hn⟩ := debitQuota_outbox hd
    exact h.putOutbox wf (by simp [ho]) (by simp [hn]) now item

theorem Away.claimOutbox (wf : OutboxWF s) {now : Time} {other : Str} {limit : Int}
    (hno : other = workerID → ∀ item ∈ s.claimCandidates now limit, item.id ≠ id) :
    (s.claimOutbox now other limit).2.Away id workerID := by
  rcases claimOutbox_lookup wf now other limit id with ⟨item, hl, -, hm, hnew⟩ | ⟨-, hsame⟩
  case inr => exact h.congr hsame
  case inl =>
    refine ⟨_, hnew, .inr fun heq => ?_⟩
    obtain ⟨old, hc, hitem⟩ := List.mem_map.mp hm
    have hid : (claimItem other now old).id = (claimItem other now item).id := congrArg (·.id) hitem
    have hkey : item.id = id := wf.keyed hl
    exact hno heq old hc (hid.trans hkey)

end Calls

end MemoryStore

namespace Thread

variable {d : Dispatcher} {s : MemoryStore} {th : Thread} {m : Move}

theorem step_away {id : Int} {workerID : Str} (h : s.Away id workerID) :
    (th.step d s m).2.Away id workerID := by
  cases m <;> simp only [step]
  case resolve found =>
    split
    case h_1 => split <;> exact h
    case h_2 => exact h
  case mark fault cancelled =>
    split
    case h_1 =>
      have hs := h.fault (h.markOutboxSending th.item.id th.item.claimedBy) fault
      generalize fault.apply s _ = r at hs ⊢
      obtain ⟨_ | _, _⟩ := r <;> exact hs
    case h_2 => exact h
  case send now outcome =>
    split
    case h_1 => split <;> exact h
    case h_2 => exact h
  case complete now fault cancelled =>
    split
    case h_1 pending _ =>
      have hs := h.fault (h.completeOutboxSend now th.item.id th.item.claimedBy pending) fault
      generalize fault.apply s _ = r at hs ⊢
      obtain ⟨_ | _, _⟩ := r <;> exact hs
    case h_2 => exact h
  case doubt now fault cancelled =>
    split
    case h_1 reason _ =>
      have hs := h.fault (h.markOutboxUncertain now th.item.id th.item.claimedBy reason) fault
      generalize fault.apply s _ = r at hs ⊢
      obtain ⟨_ | _, _⟩ := r <;> exact hs
    case h_2 => exact h
  case fail now jitter faults =>
    split
    case h_1 err _ =>
      have ho := d.failOutbox_outbox s now jitter faults th.item err
      split at ho
      case isTrue => exact h.congr (by rw [ho])
      case isFalse => exact (h.failOutbox th.item.id err.text _).congr (by rw [ho])
    case h_2 => exact h

-- The move fails the row: its goroutine has found no provider, or got a permanent error.
def FailsRow (s : MemoryStore) (th : Thread) : Move → Prop
  | .fail now jitter faults => ∃ err, th.phase = .failing err ∧ faults.fail ≠ .lost ∧
      s.Fails th.item.id (Dispatcher.nextRetryAt now jitter th.item err)
  | _ => False

def ActsAsHolder (s : MemoryStore) (th : Thread) : Move → Prop
  | .mark fault _ => ∃ n, th.phase = .marking n ∧ fault ≠ .lost ∧ s.Marks th.item.id th.item.claimedBy
  | .complete _ fault _ => ∃ n pending, th.phase = .completing n pending ∧ fault ≠ .lost ∧
      s.Completes th.item.id th.item.claimedBy pending
  | .doubt _ fault _ => ∃ n reason, th.phase = .doubting n reason ∧ fault ≠ .lost ∧
      s.Doubts th.item.id th.item.claimedBy reason
  | _ => False

theorem not_actsAsHolder (h : s.Away th.item.id th.item.claimedBy) : ¬th.ActsAsHolder s m := by
  cases m <;> simp only [ActsAsHolder, not_false_iff]
  case mark =>
    rintro ⟨_, -, -, hm⟩
    exact h.not_marks hm
  case complete =>
    rintro ⟨_, pending, -, -, hc⟩
    exact h.not_completes pending hc
  case doubt =>
    rintro ⟨_, reason, -, -, hd⟩
    exact h.not_doubts reason hd

theorem fault_lookup_iff {α : Type} {r : StoreResult α} {id : Int} {p : Prop}
    (hr : r.2.outbox.lookup id = s.outbox.lookup id ↔ ¬p) (f : Fault) :
    (f.apply s r).2.outbox.lookup id = s.outbox.lookup id ↔ ¬(f ≠ .lost ∧ p) := by
  cases f
  case lost => simp [Fault.apply]
  all_goals simpa [Fault.apply] using hr

theorem step_lookup_iff :
    (th.step d s m).2.outbox.lookup th.item.id = s.outbox.lookup th.item.id ↔
      ¬th.FailsRow s m ∧ ¬th.ActsAsHolder s m := by
  cases m <;> simp only [step, FailsRow, ActsAsHolder, not_false_iff, true_and, and_true, iff_true]
  case resolve found =>
    split
    case h_1 => split <;> rfl
    case h_2 => rfl
  case send now outcome =>
    split
    case h_1 => split <;> rfl
    case h_2 => rfl
  case mark fault cancelled =>
    split
    case h_1 n hp =>
      have hs := fault_lookup_iff (s.markOutboxSending_lookup_iff th.item.id th.item.claimedBy) fault
      generalize fault.apply s _ = r at hs ⊢
      obtain ⟨_ | _, _⟩ := r <;> simpa [hp] using hs
    case h_2 hno =>
      refine iff_of_true rfl ?_
      rintro ⟨n, hp, -⟩
      exact hno n hp
  case complete now fault cancelled =>
    split
    case h_1 n pending hp =>
      have hs := fault_lookup_iff
        (s.completeOutboxSend_lookup_iff now th.item.id th.item.claimedBy pending) fault
      generalize fault.apply s _ = r at hs ⊢
      obtain ⟨_ | _, _⟩ := r <;> simpa [hp] using hs
    case h_2 hno =>
      refine iff_of_true rfl ?_
      rintro ⟨n, pending, hp, -⟩
      exact hno n pending hp
  case doubt now fault cancelled =>
    split
    case h_1 n reason hp =>
      have hs := fault_lookup_iff
        (s.markOutboxUncertain_lookup_iff now th.item.id th.item.claimedBy reason) fault
      generalize fault.apply s _ = r at hs ⊢
      obtain ⟨_ | _, _⟩ := r <;> simpa [hp] using hs
    case h_2 hno =>
      refine iff_of_true rfl ?_
      rintro ⟨n, reason, hp, -⟩
      exact hno n reason hp
  case fail now jitter faults =>
    split
    case h_1 err hp =>
      rw [d.failOutbox_outbox]
      by_cases hlost : faults.fail = .lost
      case pos => simp [hp, hlost]
      case neg => simp [hp, hlost, s.failOutbox_lookup_iff]
    case h_2 hno =>
      refine iff_of_true rfl ?_
      rintro ⟨err, hp, -⟩
      exact hno err hp

end Thread

namespace Workers

variable {d : Dispatcher} {w : Workers} {i : Nat} {id : Int} {workerID : Str}

def Copy (i : Nat) (id : Int) (workerID : Str) (w : Workers) : Prop :=
  ∃ th, w.threads[i]? = some th ∧ th.item.id = id ∧ th.item.claimedBy = workerID

def Keeps (d : Dispatcher) (i : Nat) (id : Int) (w : Workers) (e : WorkerEvent) : Prop :=
  (∃ m, e = .move i m) → (w.step d e).store.outbox.lookup id = w.store.outbox.lookup id

def Spares (i : Nat) (w : Workers) : WorkerEvent → Prop
  | .move j m => j = i → ∀ th, w.threads[i]? = some th → ¬th.FailsRow w.store m
  | _         => True

def NotHolder (i : Nat) (w : Workers) : WorkerEvent → Prop
  | .move j m => j = i → ∀ th, w.threads[i]? = some th → ¬th.ActsAsHolder w.store m
  | _         => True

def NotReclaimed (id : Int) (workerID : Str) (w : Workers) : WorkerEvent → Prop
  | .claimOutbox now other limit _ =>
    other = workerID → ∀ item ∈ w.store.claimCandidates now limit, item.id ≠ id
  | _ => True

theorem Copy.keeps_iff (h : Copy i id workerID w) (e : WorkerEvent) :
    w.Keeps d i id e ↔ w.Spares i e ∧ w.NotHolder i e := by
  cases e
  case move j m =>
    by_cases hj : j = i
    case neg =>
      refine iff_of_true ?_ ⟨fun he => (hj he).elim, fun he => (hj he).elim⟩
      rintro ⟨_, ⟨⟩⟩
      exact (hj rfl).elim
    case pos =>
      subst hj
      obtain ⟨th, hth, rfl, rfl⟩ := h
      have hstep : (w.step d (.move j m)).store = (th.step d w.store m).2 := by
        simp only [step, moveThread, hth]
      simp only [Keeps, Spares, NotHolder, hstep, Thread.step_lookup_iff, hth, Option.some.injEq,
        forall_eq', forall_const]
      exact ⟨fun hk => hk ⟨m, rfl⟩, fun hk _ => hk⟩
  all_goals exact iff_of_true (by rintro ⟨_, ⟨⟩⟩) ⟨trivial, trivial⟩

theorem Copy.step (h : Copy i id workerID w) (e : WorkerEvent) : Copy i id workerID (w.step d e) := by
  obtain ⟨th, hth, hitem⟩ := h
  have hi : i < w.threads.length := (List.getElem?_eq_some_iff.mp hth).1
  cases e
  case claimOutbox => exact ⟨th, (List.getElem?_append_left hi).trans hth, hitem⟩
  case move j m =>
    simp only [Workers.step, moveThread]
    split
    case h_1 => exact ⟨th, hth, hitem⟩
    case h_2 mover hmover =>
      by_cases hj : j = i
      case neg => exact ⟨th, (List.getElem?_set_ne hj).trans hth, hitem⟩
      case pos =>
        subst hj
        cases hth.symm.trans hmover
        refine ⟨(th.step d w.store m).1, List.getElem?_set_self hi, ?_⟩
        rwa [Thread.step_item]
  all_goals exact ⟨th, hth, hitem⟩

structure Stale (i : Nat) (id : Int) (workerID : Str) (w : Workers) : Prop where
  copy : Copy i id workerID w
  wf   : OutboxWF w.store
  away : w.store.Away id workerID

theorem step_wf (wf : OutboxWF w.store) (e : WorkerEvent) : OutboxWF (w.step d e).store := by
  cases e
  case saveMessage msg => exact StoreOp.exec_wf wf (.saveMessage msg)
  case enqueueOutbox now item => exact StoreOp.exec_wf wf (.enqueueOutbox now item)
  case submitAtomic now msg item opts => exact StoreOp.exec_wf wf (.submitAtomic now msg item opts)
  case requeueStaleOutbox order before limit =>
    exact StoreOp.exec_wf wf (.requeueStaleOutbox order before limit)
  case claimOutbox now other limit fault =>
    exact (KeepsSealed.fault (r := w.store.claimOutbox now other limit) wf
      (.exec wf (.claimOutbox now other limit)) fault).wf
  case move j m =>
    simp only [step, moveThread]
    split
    case h_1 => exact wf
    case h_2 mover hmover => exact (mover.step_keeps wf).wf

theorem run_wf (es : List WorkerEvent) : OutboxWF (run (Workers.step d) init es).store :=
  invariant (G := fun _ _ => True) (P := fun w : Workers => OutboxWF w.store) OutboxWF.newMemory
    (.of_forall fun _ _ _ => trivial) fun _ e wf _ => step_wf wf e

theorem Stale.step (h : Stale i id workerID w) {e : WorkerEvent} (hno : w.NotReclaimed id workerID e) :
    Stale i id workerID (w.step d e) := by
  refine ⟨h.copy.step e, step_wf h.wf e, ?_⟩
  cases e
  case saveMessage msg => exact h.away.congr (congrArg (AList.lookup id) MemoryStore.putMessage_outbox)
  case enqueueOutbox now item => exact h.away.putOutbox h.wf rfl rfl now item
  case submitAtomic now msg item opts => exact h.away.submitAtomic h.wf now msg item opts
  case requeueStaleOutbox order before limit => exact h.away.requeueStaleOutbox order before limit
  case claimOutbox now other limit fault => exact h.away.fault (h.away.claimOutbox h.wf hno) fault
  case move j m =>
    simp only [Workers.step, moveThread]
    split
    case h_1 => exact h.away
    case h_2 mover hmover => exact mover.step_away h.away

theorem Stale.notHolder (h : Stale i id workerID w) (e : WorkerEvent) : w.NotHolder i e := by
  cases e
  case move j m =>
    rintro rfl th hth
    obtain ⟨_, hth', rfl, rfl⟩ := h.copy
    cases hth.symm.trans hth'
    exact Thread.not_actsAsHolder h.away
  all_goals trivial

end Workers

-- The goroutine of the old worker leaves the row alone, in all that it still does, exactly when it neither
-- fails a row that is claimed or being sent, nor acts on a row that its worker id has got once more.
theorem stale_goroutine_harmless_iff (d : Dispatcher) (before after : List WorkerEvent) {i : Nat} {th : Thread}
    {row : OutboxItem}
    (hth : (run (Workers.step d) Workers.init before).threads[i]? = some th)
    (hrow : (run (Workers.step d) Workers.init before).store.outbox.lookup th.item.id = some row)
    (hother : row.claimedBy ≠ th.item.claimedBy) :
    let w := run (Workers.step d) Workers.init before
    (Along (Workers.step d) (Workers.Keeps d i th.item.id) w after ↔
      Along (Workers.step d) (fun w e => w.Spares i e ∧ w.NotHolder i e) w after) ∧
    (Along (Workers.step d) (Workers.NotReclaimed th.item.id th.item.claimedBy) w after →
      Along (Workers.step d) (Workers.NotHolder i) w after) := by
  intro w
  have hcopy : Workers.Copy i th.item.id th.item.claimedBy w := ⟨th, hth, rfl, rfl⟩
  have hstale : Workers.Stale i th.item.id th.item.claimedBy w :=
    ⟨hcopy, Workers.run_wf before, ⟨row, hrow, .inr hother⟩⟩
  constructor
  case left => exact Along.congr hcopy (fun _ e h => h.step e) fun _ e h => h.keeps_iff e
  case right => exact fun hno => .of_invariant hstale hno (fun _ _ h => h.step) fun _ e h _ => h.notHolder e

theorem stale_goroutine_harmless_sending :
    Along (Workers.step plainDispatcher) (Workers.Keeps plainDispatcher 0 1)
      (run (Workers.step plainDispatcher) Workers.init (claimTwice (lit "w1") (lit "w2")))
      (sendMoves 1 ++ sendMoves 0) := by
  obtain ⟨hiff, hholder⟩ := stale_goroutine_harmless_iff plainDispatcher (claimTwice (lit "w1") (lit "w2"))
    (sendMoves 1 ++ sendMoves 0) (i := 0) rfl rfl (by decide)
  refine hiff.mpr (.and (.of_forall ?_) (hholder (.of_forall ?_)))
  case refine_1 =>
    intro w e he
    simp only [sendMoves, List.cons_append, List.nil_append, List.mem_cons, List.not_mem_nil, or_false] at he
    rcases he with rfl | rfl | rfl | rfl | rfl | rfl <;> exact fun _ _ _ => id
  case refine_2 =>
    intro w e he
    simp only [sendMoves, List.cons_append, List.nil_append, List.mem_cons, List.not_mem_nil, or_false] at he
    rcases he with rfl | rfl | rfl | rfl | rfl | rfl <;> trivial

-- The old worker finds no provider and fails its copy: the row that the new worker has claimed is `pending`
-- once more.
theorem stale_goroutine_fails_row :
    let w := run (Workers.step plainDispatcher) Workers.init (claimTwice (lit "w1") (lit "w2"))
    let es : List WorkerEvent := [.move 0 (.resolve false), .move 0 (.fail 3 0 {})]
    (w.store.outbox.lookup 1).map (fun row => (row.state, row.claimedBy)) = some (.claimed, lit "w2") ∧
    ((run (Workers.step plainDispatcher) w es).store.outbox.lookup 1).map (fun row => (row.state, row.claimedBy)) =
      some (.pending, []) := by
  decide

end SmppGateway
