import SmppGateway.Lib.Machine
import SmppGateway.Dispatch.Process

-- Workers that claim rows and send them, in any interleaving with each other and with the recovery of
-- stale claims.

namespace SmppGateway

open Go Machine

structure Workers where
  store   : MemoryStore
  threads : List Thread
  -- The ids of the rows for which the provider was called, one entry for each call.
  calls   : List Int

inductive WorkerEvent
  | saveMessage (msg : Message)
  | enqueueOutbox (now : Time) (item : OutboxItem)
  | submitAtomic (now : Time) (msg : Message) (item : OutboxItem) (opts : SubmitOptions)
  | requeueStaleOutbox (order : List Int) (before : Time) (limit : Int)
  | claimOutbox (now : Time) (workerID : Str) (limit : Int) (fault : Fault)
  | move (i : Nat) (m : Move)

namespace Workers

def init : Workers where
  store   := newMemory
  threads := []
  calls   := []

-- The goroutines that `workerLoop` starts for the rows it got. After an error it starts none.
def spawn (r : Except StoreError (List OutboxItem)) : List Thread :=
  match r with
  | .ok items => items.map fun item => { item }
  | .error _  => []

def claim (w : Workers) (now : Time) (workerID : Str) (limit : Int) (fault : Fault) : Workers :=
  let r := fault.apply w.store (w.store.claimOutbox now workerID limit)
  { w with store := r.2, threads := w.threads ++ spawn r.1 }

def moveThread (d : Dispatcher) (w : Workers) (i : Nat) (m : Move) : Workers :=
  match w.threads[i]? with
  | none    => w
  | some th =>
    let (th', s) := th.step d w.store m
    { store   := s
      threads := w.threads.set i th'
      calls   := if th.calls m then w.calls ++ [th.item.id] else w.calls }

def step (d : Dispatcher) (w : Workers) : WorkerEvent → Workers
  | .saveMessage msg                       => { w with store := (w.store.saveMessage msg).2 }
  | .enqueueOutbox now item                => { w with store := (w.store.enqueueOutbox now item).2 }
  | .submitAtomic now msg item opts        =>
    { w with store := (w.store.submitAtomic now msg item opts).2 }
  | .requeueStaleOutbox order before limit =>
    { w with store := (w.store.requeueStaleOutbox order before limit).2 }
  | .claimOutbox now workerID limit fault  => w.claim now workerID limit fault
  | .move i m                              => w.moveThread d i m

-- A claim hands out a row only when no goroutine of the same worker id still holds an earlier copy of
-- that row which may go on to call the provider.
def ClaimsApart (w : Workers) : WorkerEvent → Prop
  | .claimOutbox now workerID limit _ =>
    ∀ item ∈ w.store.claimCandidates now limit, ∀ th ∈ w.threads,
      th.item.id = item.id → th.item.claimedBy = workerID → ¬th.phase.PreCall
  | _ => True

instance (w : Workers) : (e : WorkerEvent) → Decidable (w.ClaimsApart e)
  | .claimOutbox now workerID limit _ =>
    inferInstanceAs (Decidable (∀ item ∈ w.store.claimCandidates now limit, ∀ th ∈ w.threads,
      th.item.id = item.id → th.item.claimedBy = workerID → ¬th.phase.PreCall))
  | .saveMessage _ | .enqueueOutbox _ _ | .submitAtomic _ _ _ _ | .requeueStaleOutbox _ _ _
  | .move _ _ => .isTrue trivial

end Workers

def MemoryStore.SealedBy (s : MemoryStore) (id : Int) (workerID : Str) : Prop :=
  ∃ row, s.outbox.lookup id = some row ∧ row.state.IsSealed ∧ row.claimedBy = workerID

theorem MemoryStore.SealedBy.unique {s : MemoryStore} {id : Int} {w w' : Str}
    (h : s.SealedBy id w) (h' : s.SealedBy id w') : w = w' := by
  obtain ⟨row, hr, _, rfl⟩ := h
  obtain ⟨row', hr', _, rfl⟩ := h'
  cases hr.symm.trans hr'
  rfl

structure KeepsSealed (s s' : MemoryStore) : Prop where
  wf   : OutboxWF s'
  rows : ∀ {id w}, s.SealedBy id w → s'.SealedBy id w

namespace KeepsSealed

variable {s s' s'' : MemoryStore}

theorem of_outbox (wf : OutboxWF s) (ho : s'.outbox = s.outbox) (hn : s'.nextOutbox = s.nextOutbox) :
    KeepsSealed s s' where
  wf             := ⟨fun h => wf.keyed (ho ▸ h), fun h => hn ▸ wf.bounded (ho ▸ h)⟩
  rows {id w} h  := by unfold MemoryStore.SealedBy; rw [ho]; exact h

theorem refl (wf : OutboxWF s) : KeepsSealed s s :=
  .of_outbox wf rfl rfl

theorem trans (h₁ : KeepsSealed s s') (h₂ : KeepsSealed s' s'') : KeepsSealed s s'' where
  wf     := h₂.wf
  rows h := h₂.rows (h₁.rows h)

theorem exec (wf : OutboxWF s) (op : StoreOp) : KeepsSealed s (op.exec s).2 where
  wf := op.exec_wf wf
  rows {id w} h := by
    obtain ⟨a, ha, hs, rfl⟩ := h
    cases op.exec_row wf id
    case same he => exact ⟨a, he.trans ha, hs, rfl⟩
    case evolves b ha' hb he =>
      cases ha.symm.trans ha'
      exact ⟨b, hb, he.sealed hs⟩
    case new hn _ _ _ => cases ha.symm.trans hn

theorem fault {α : Type} {r : StoreResult α} (wf : OutboxWF s) (h : KeepsSealed s r.2) (f : Fault) :
    KeepsSealed s (f.apply s r).2 := by
  cases f
  case none => exact h
  case lost => exact .refl wf
  case applied => exact h

end KeepsSealed

theorem Fault.apply_ok {α : Type} {f : Fault} {s s' : MemoryStore} {r : StoreResult α} {a : α}
    (h : f.apply s r = (.ok a, s')) : r.1 = .ok a ∧ s' = r.2 := by
  obtain ⟨_ | _, _⟩ := r <;> cases f <;> cases h
  exact ⟨rfl, rfl⟩

section Steps

variable (d : Dispatcher) {s : MemoryStore} (wf : OutboxWF s)
include wf

theorem KeepsSealed.updateMessageState (now : Time) (g state : Str) (errCode : Int) :
    KeepsSealed s (s.updateMessageState now g state errCode).2 := by
  unfold MemoryStore.updateMessageState
  split
  case isTrue => exact .of_outbox wf MemoryStore.modifyMessage_outbox MemoryStore.modifyMessage_nextOutbox
  case isFalse => exact .refl wf

theorem Dispatcher.queueTerminalFailureDLR_keeps (now : Time) (fault : Fault) (item : OutboxItem)
    (state : Str) (errorCode : Int) :
    KeepsSealed s (d.queueTerminalFailureDLR s now fault item state errorCode).2 := by
  unfold queueTerminalFailureDLR
  split
  case isTrue => exact .refl wf
  case isFalse =>
    have h := KeepsSealed.fault (r := s.savePending now
      (d.terminalFailurePending now item.payload state errorCode)) wf (.of_outbox wf rfl rfl) fault
    simp only
    generalize fault.apply s _ = r at h ⊢
    obtain ⟨_ | _, _⟩ := r <;> exact h

theorem Dispatcher.announceFailure_keeps (now : Time) (faults : FailFaults) (item : OutboxItem)
    (err : SendError) : KeepsSealed s (d.announceFailure s now faults item err).2 := by
  unfold announceFailure
  split
  case isTrue =>
    have h := KeepsSealed.fault wf (.updateMessageState wf now item.gatewayID
      (terminalFailureDLR err).1 (terminalFailureDLR err).2) faults.update
    exact h.trans (d.queueTerminalFailureDLR_keeps h.wf ..)
  case isFalse => exact .refl wf

theorem Dispatcher.failOutbox_keeps (now : Time) (jitter : Nat) (faults : FailFaults)
    (item : OutboxItem) (err : SendError) :
    KeepsSealed s (d.failOutbox s now jitter faults item err).2 := by
  simp only [failOutbox]
  generalize (if isTerminal item err then 0 else now + retryDelay item.attempt jitter) = next
  have h₁ := d.announceFailure_keeps wf now faults item err
  generalize d.announceFailure s now faults item err = q at h₁ ⊢
  obtain ⟨queued, s₁⟩ := q
  have h₂ := KeepsSealed.fault (r := s₁.failOutbox item.id err.text next) h₁.wf
    (.exec h₁.wf (.failOutbox item.id err.text next)) faults.fail
  simp only
  generalize faults.fail.apply s₁ _ = r at h₂ ⊢
  obtain ⟨_ | _, s₂⟩ := r
  case ok => exact h₁.trans h₂
  case error =>
    cases queued
    case none => exact h₁.trans h₂
    case some rec =>
      have h₃ := KeepsSealed.fault (r := s₂.deletePending rec.provider rec.providerID) h₂.wf
        (.of_outbox h₂.wf rfl rfl) faults.delete
      exact (h₁.trans h₂).trans h₃

end Steps

namespace Thread

variable {d : Dispatcher} {s : MemoryStore} {th : Thread} {m : Move}

theorem step_item : (th.step d s m).1.item = th.item := by
  cases m <;> simp only [step]
  all_goals repeat' split
  all_goals rfl

theorem step_keeps (wf : OutboxWF s) : KeepsSealed s (th.step d s m).2 := by
  cases m <;> simp only [step]
  case resolve found =>
    split
    case _ => split <;> exact .refl wf
    case _ => exact .refl wf
  case mark fault cancelled =>
    split
    case _ =>
      have h := KeepsSealed.fault (r := s.markOutboxSending th.item.id th.item.claimedBy) wf
        (.exec wf (.markOutboxSending ..)) fault
      generalize fault.apply s _ = r at h ⊢
      obtain ⟨_ | _, _⟩ := r <;> exact h
    case _ => exact .refl wf
  case send now outcome =>
    split
    case _ => split <;> exact .refl wf
    case _ => exact .refl wf
  case complete now fault cancelled =>
    split
    case _ pending _ =>
      have h := KeepsSealed.fault
        (r := s.completeOutboxSend now th.item.id th.item.claimedBy pending) wf
        (.exec wf (.completeOutboxSend ..)) fault
      generalize fault.apply s _ = r at h ⊢
      obtain ⟨_ | _, _⟩ := r <;> exact h
    case _ => exact .refl wf
  case doubt now fault cancelled =>
    split
    case _ reason _ =>
      have h := KeepsSealed.fault
        (r := s.markOutboxUncertain now th.item.id th.item.claimedBy reason) wf
        (.exec wf (.markOutboxUncertain ..)) fault
      generalize fault.apply s _ = r at h ⊢
      obtain ⟨_ | _, _⟩ := r <;> exact h
    case _ => exact .refl wf
  case fail now jitter faults =>
    split
    case _ => exact d.failOutbox_keeps wf ..
    case _ => exact .refl wf

theorem step_preCall (h : (th.step d s m).1.phase.PreCall) : th.phase.PreCall := by
  obtain ⟨item, phase⟩ := th
  cases phase
  case start | marking | sending => trivial
  all_goals cases m <;> simp only [step, become] at h
  all_goals
    repeat' split at h
    all_goals exact h.elim

theorem step_sending (h : (th.step d s m).1.phase = .sending) :
    th.phase = .sending ∨ (th.step d s m).2.SealedBy th.item.id th.item.claimedBy := by
  obtain ⟨item, phase⟩ := th
  cases phase
  case marking n =>
    cases m
    case mark fault cancelled =>
      right
      simp only [step] at h ⊢
      -- Only a mark that returned no error leads on to the provider.
      cases hr : fault.apply s (s.markOutboxSending item.id item.claimedBy) with
      | mk r s' =>
        rw [hr] at h
        cases r
        case error => simp only [become] at h; split at h <;> cases h
        case ok =>
          obtain ⟨hm, rfl⟩ := Fault.apply_ok hr
          obtain ⟨b, hb, hs, hc⟩ := MemoryStore.markOutboxSending_ok hm
          exact ⟨b, hb, .inl hs, hc⟩
    all_goals cases h
  case sending =>
    left
    cases m
    case send now outcome =>
      cases outcome
      case ok => cases h
      case error e => simp only [step, become] at h; split at h <;> cases h
    all_goals rfl
  all_goals cases m <;> simp only [step, become] at h
  all_goals
    repeat' split at h
    all_goals cases h

theorem step_calls (h : th.calls m) : th.phase = .sending ∧ ¬(th.step d s m).1.phase.PreCall := by
  obtain ⟨item, phase⟩ := th
  cases m <;> simp only [calls, Bool.false_eq_true] at h
  case send now outcome =>
    cases phase <;> simp only [Bool.false_eq_true] at h
    case sending =>
      refine ⟨rfl, ?_⟩
      simp only [step, become]
      split
      case _ => exact id
      case _ e => cases hp : e.permanent <;> simp [Phase.PreCall]

end Thread

namespace Workers

variable {d : Dispatcher} {w : Workers} {m : Move}

-- Two copies of one row under the same worker id, both of which may go on to call the provider. The
-- store cannot tell them apart.
structure Rivals (th th' : Thread) : Prop where
  left      : th.phase.PreCall
  right     : th'.phase.PreCall
  id        : th.item.id = th'.item.id
  claimedBy : th.item.claimedBy = th'.item.claimedBy

structure AtMostOnce (w : Workers) : Prop where
  wf      : OutboxWF w.store
  apart   : ∀ {i j : Nat} {th th' : Thread}, w.threads[i]? = some th → w.threads[j]? = some th' →
    Rivals th th' → i = j
  sending : ∀ th ∈ w.threads, th.phase = .sending → w.store.SealedBy th.item.id th.item.claimedBy
  called  : ∀ id ∈ w.calls, ∃ owner, w.store.SealedBy id owner ∧
    ∀ th ∈ w.threads, th.phase.PreCall → th.item.id = id → th.item.claimedBy ≠ owner
  once    : w.calls.Nodup

theorem AtMostOnce.init : AtMostOnce init where
  wf          := OutboxWF.newMemory
  apart h     := by simp [Workers.init] at h
  sending _ h := by cases h
  called _ h  := by cases h
  once        := List.nodup_nil

theorem AtMostOnce.store {s : MemoryStore} (h : AtMostOnce w) (hk : KeepsSealed w.store s) :
    AtMostOnce { w with store := s } where
  wf            := hk.wf
  apart         := h.apart
  sending th hm hp := hk.rows (h.sending th hm hp)
  called id hc     :=
    have ⟨owner, hs, ht⟩ := h.called id hc
    ⟨owner, hk.rows hs, ht⟩
  once             := h.once

theorem spawn_fault (now : Time) (workerID : Str) (limit : Int) (fault : Fault) :
    let r := fault.apply w.store (w.store.claimOutbox now workerID limit)
    spawn r.1 = [] ∨
    spawn r.1 = (w.store.claimCandidates now limit).map fun item =>
      { item := MemoryStore.claimItem workerID now item } := by
  cases fault
  case none => simp [Fault.apply, MemoryStore.claimOutbox, spawn]
  all_goals exact .inl rfl

theorem AtMostOnce.spawn {now : Time} {workerID : Str} {limit : Int} {fault : Fault} {s : MemoryStore}
    (h : AtMostOnce w) (hk : KeepsSealed w.store s)
    (hg : w.ClaimsApart (.claimOutbox now workerID limit fault)) :
    AtMostOnce { w with
      store   := s
      threads := w.threads ++ (w.store.claimCandidates now limit).map fun item =>
        { item := MemoryStore.claimItem workerID now item } } where
  wf   := hk.wf
  once := h.once
  apart {i j th th'} hi hj hr := by
    rw [List.getElem?_append, List.getElem?_map] at hi hj
    split at hi <;> split at hj
    case isTrue.isTrue => exact h.apart hi hj hr
    case isTrue.isFalse =>
      obtain ⟨item, hc, rfl⟩ := Option.map_eq_some_iff.mp hj
      have hm := List.mem_of_getElem? hi
      exact absurd hr.left (hg item (List.mem_of_getElem? hc) th hm hr.id hr.claimedBy)
    case isFalse.isTrue =>
      obtain ⟨item, hc, rfl⟩ := Option.map_eq_some_iff.mp hi
      have hm := List.mem_of_getElem? hj
      exact absurd hr.right (hg item (List.mem_of_getElem? hc) th' hm hr.id.symm hr.claimedBy.symm)
    case isFalse.isFalse =>
      obtain ⟨item, hci, rfl⟩ := Option.map_eq_some_iff.mp hi
      obtain ⟨item', hcj, rfl⟩ := Option.map_eq_some_iff.mp hj
      -- One claim lists a row once.
      have hid : item.id = item'.id := hr.id
      have hlen := (List.getElem?_eq_some_iff.mp hci).1
      have hnodup : ((w.store.claimCandidates now limit).map (·.id)).Nodup :=
        MemoryStore.claimCandidates_nodup h.wf
      have hij := (List.getElem?_inj (by simpa using hlen) hnodup (j := j - w.threads.length)).mp
        (by simp [List.getElem?_map, hci, hcj, hid])
      omega
  sending th hm hp := by
    rcases List.mem_append.mp hm with hm | hm
    case inl => exact hk.rows (h.sending th hm hp)
    case inr =>
      obtain ⟨item, _, rfl⟩ := List.mem_map.mp hm
      cases hp
  called id hc := by
    obtain ⟨owner, hs, ht⟩ := h.called id hc
    refine ⟨owner, hk.rows hs, fun th hm hp hid => ?_⟩
    rcases List.mem_append.mp hm with hm | hm
    case inl => exact ht th hm hp hid
    case inr =>
      obtain ⟨item, hi, rfl⟩ := List.mem_map.mp hm
      obtain ⟨k, hl, hpending, _⟩ := MemoryStore.mem_claimCandidates hi
      obtain rfl := h.wf.keyed hl
      obtain rfl : item.id = id := hid
      obtain ⟨row, hrow, hsealed, _⟩ := hs
      cases hl.symm.trans hrow
      rw [hpending] at hsealed
      exact absurd hsealed (by decide)

theorem AtMostOnce.claim {now : Time} {workerID : Str} {limit : Int} {fault : Fault}
    (h : AtMostOnce w) (hg : w.ClaimsApart (.claimOutbox now workerID limit fault)) :
    AtMostOnce (w.claim now workerID limit fault) := by
  have hk := KeepsSealed.fault (r := w.store.claimOutbox now workerID limit) h.wf
    (.exec h.wf (.claimOutbox now workerID limit)) fault
  simp only [Workers.claim]
  rcases spawn_fault (w := w) now workerID limit fault with hs | hs
  case inl => rw [hs, List.append_nil]; exact h.store hk
  case inr => rw [hs]; exact h.spawn hk hg

theorem set_step {i j : Nat} {th th' : Thread} (hth : w.threads[i]? = some th)
    (hj : (w.threads.set i (th.step d w.store m).1)[j]? = some th') :
    ∃ old, w.threads[j]? = some old ∧ th'.item = old.item ∧
      (th'.phase.PreCall → old.phase.PreCall) := by
  rcases getElem?_set_cases hj with ⟨rfl, rfl⟩ | ⟨_, hj⟩
  case inl => exact ⟨th, hth, Thread.step_item, Thread.step_preCall⟩
  case inr => exact ⟨th', hj, rfl, id⟩

theorem Rivals.of_old {th th' old old' : Thread} (hr : Rivals th th') (hi : th.item = old.item)
    (hi' : th'.item = old'.item) (hp : th.phase.PreCall → old.phase.PreCall)
    (hp' : th'.phase.PreCall → old'.phase.PreCall) : Rivals old old' where
  left      := hp hr.left
  right     := hp' hr.right
  id        := hi ▸ hi' ▸ hr.id
  claimedBy := hi ▸ hi' ▸ hr.claimedBy

-- The goroutine that calls the provider has sealed the row, and every other copy of the row carries
-- another worker id.
theorem AtMostOnce.call {i : Nat} {th : Thread} (h : AtMostOnce w) (hth : w.threads[i]? = some th) (hc : th.calls m) :
    th.item.id ∉ w.calls ∧ ∃ owner, w.store.SealedBy th.item.id owner ∧
    ∀ th' ∈ w.threads.set i (th.step d w.store m).1, th'.phase.PreCall → th'.item.id = th.item.id →
      th'.item.claimedBy ≠ owner := by
  obtain ⟨hp, hafter⟩ := Thread.step_calls (d := d) (s := w.store) hc
  have hs := h.sending th (List.mem_of_getElem? hth) hp
  have hpre : th.phase.PreCall := by rw [hp]; trivial
  constructor
  case left =>
    intro hm
    obtain ⟨owner, hso, ht⟩ := h.called _ hm
    exact ht th (List.mem_of_getElem? hth) hpre rfl (hs.unique hso)
  case right =>
    refine ⟨_, hs, fun th' hm hp' hid hcl => ?_⟩
    rcases mem_set_cases hm with rfl | ⟨j, hij, hj⟩
    case inl => exact hafter hp'
    case inr => exact hij (h.apart hth hj ⟨hpre, hp', hid.symm, hcl.symm⟩)

theorem AtMostOnce.moveThread {i : Nat} (h : AtMostOnce w) : AtMostOnce (w.moveThread d i m) := by
  unfold Workers.moveThread
  split
  case h_1 => exact h
  case h_2 th hth =>
    have hk : KeepsSealed w.store (th.step d w.store m).2 := th.step_keeps h.wf
    constructor
    case wf => exact hk.wf
    case apart =>
      intro j j' th₁ th₂ hj hj' hr
      obtain ⟨old, hold, hitem, hp⟩ := set_step hth hj
      obtain ⟨old', hold', hitem', hp'⟩ := set_step hth hj'
      exact h.apart hold hold' (hr.of_old hitem hitem' hp hp')
    case sending =>
      intro th' hm hp
      rcases List.mem_or_eq_of_mem_set hm with hm | rfl
      case inl => exact hk.rows (h.sending th' hm hp)
      case inr =>
        rw [Thread.step_item]
        rcases Thread.step_sending hp with hp | hs
        case inl => exact hk.rows (h.sending th (List.mem_of_getElem? hth) hp)
        case inr => exact hs
    case called =>
      have hold : ∀ id ∈ w.calls, ∃ owner, (th.step d w.store m).2.SealedBy id owner ∧
          ∀ th' ∈ w.threads.set i (th.step d w.store m).1, th'.phase.PreCall → th'.item.id = id →
            th'.item.claimedBy ≠ owner := by
        intro id hc
        obtain ⟨owner, hs, ht⟩ := h.called id hc
        refine ⟨owner, hk.rows hs, fun th' hm hp hid => ?_⟩
        obtain ⟨j, hj⟩ := List.mem_iff_getElem?.mp hm
        obtain ⟨old, hold, hitem, hpold⟩ := set_step hth hj
        exact hitem ▸ ht old (List.mem_of_getElem? hold) (hpold hp) (hitem ▸ hid)
      intro id hm
      simp only at hm
      split at hm
      case isTrue hc =>
        rcases List.mem_append.mp hm with hm | hm
        case inl => exact hold id hm
        case inr =>
          obtain rfl := List.mem_singleton.mp hm
          obtain ⟨_, owner, hs, ht⟩ := h.call (d := d) hth hc
          exact ⟨owner, hk.rows hs, ht⟩
      case isFalse => exact hold id hm
    case once =>
      simp only
      split
      case isTrue hc =>
        exact List.Nodup.append h.once (List.nodup_singleton _)
          (List.disjoint_singleton.mpr (h.call (d := d) hth hc).1)
      case isFalse => exact h.once

theorem AtMostOnce.step (h : AtMostOnce w) (e : WorkerEvent) (hg : w.ClaimsApart e) :
    AtMostOnce (w.step d e) := by
  cases e
  case saveMessage msg => exact h.store (.exec h.wf (.saveMessage msg))
  case enqueueOutbox now item => exact h.store (.exec h.wf (.enqueueOutbox now item))
  case submitAtomic now msg item opts => exact h.store (.exec h.wf (.submitAtomic now msg item opts))
  case requeueStaleOutbox order before limit =>
    exact h.store (.exec h.wf (.requeueStaleOutbox order before limit))
  case claimOutbox => exact h.claim hg
  case move => exact h.moveThread

end Workers

-- While every claim is apart from the copies that the same worker id still holds, no row is sent twice.
theorem provider_entered_at_most_once (d : Dispatcher) (es : List WorkerEvent)
    (h : Along (Workers.step d) Workers.ClaimsApart Workers.init es) :
    Always (Workers.step d) (fun w => ∀ id, w.calls.count id ≤ 1) Workers.init es := by
  rintro pre ⟨post, rfl⟩ id
  have hi : Workers.AtMostOnce (run (Workers.step d) Workers.init pre) :=
    invariant .init (Along.append.mp h).1 fun _ e hw hg => hw.step e hg
  exact List.nodup_iff_count_le_one.mp hi.once id

def plainDispatcher : Dispatcher where
  pendingTTL       := second
  storeErrorText _ := []
  quote            := id

def sendMoves (i : Nat) : List WorkerEvent :=
  [.move i (.resolve true), .move i (.mark .none false), .move i (.send 3 (.ok []))]

def claimTwice (first again : Str) : List WorkerEvent :=
  [.enqueueOutbox 1 { gatewayID := lit "m1", payload := { gatewayID := lit "m1" } },
    .claimOutbox 1 first 1 .none, .requeueStaleOutbox [1] 2 1, .claimOutbox 2 again 1 .none]

theorem provider_entered_once_across_workers :
    let es := claimTwice (lit "w1") (lit "w2") ++ sendMoves 1 ++ sendMoves 0
    Along (Workers.step plainDispatcher) Workers.ClaimsApart Workers.init es ∧
    ∀ id, (run (Workers.step plainDispatcher) Workers.init es).calls.count id ≤ 1 := by
  intro es
  have h : Along (Workers.step plainDispatcher) Workers.ClaimsApart Workers.init es := by decide
  exact ⟨h, provider_entered_at_most_once plainDispatcher es h es (List.prefix_refl es)⟩

-- Two goroutines of one worker both pass `MarkOutboxSending`: for the second, the row is `sending`
-- under its own worker id.
theorem provider_entered_twice :
    (run (Workers.step plainDispatcher) Workers.init
      (claimTwice (lit "w1") (lit "w1") ++ sendMoves 0 ++ sendMoves 1)).calls = [1, 1] := by
  decide

end SmppGateway
