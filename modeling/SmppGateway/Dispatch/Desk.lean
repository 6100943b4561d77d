import SmppGateway.Dispatch.Receipts
import SmppGateway.Dispatch.Worker

-- All receipts that are under way at a time: calls of `HandleDLR`, rows that calls of `FlushDLR` have listed,
-- and the receipts that `failOutbox` makes for rows that failed for good. They share the store, and each of
-- their store calls is a step of its own.

namespace SmppGateway

open Go Machine

inductive FlushPhase
  | listed
  | push
  | mark
  | relist
  | delete
  | done
  deriving DecidableEq, Repr

-- A row that a call of `FlushDLR` has read, and how far the call has got with its copy of it.
structure Flush where
  row   : Pending
  phase : FlushPhase := .listed

namespace Flush

def become (f : Flush) (phase : FlushPhase) : Flush :=
  { f with phase }

-- The body of the loop of `FlushDLR`. The first step takes the lock of the row.
def step (s : MemoryStore) (f : Flush) (m : HandlerMove) : Flush × MemoryStore :=
  match f.phase with
  | .listed => (f.become .push, s)
  | .push   => (f.become (if m.outcome = .accepted then .mark else .done), s)
  | .mark   =>
    match s.markDLRDelivered f.row.provider f.row.providerID with
    | (.ok (), s)   => (f.become .relist, s)
    | (.error _, s) => (f.become .done, s)
  | .relist =>
    let (segments, s) := s.listPendingByGatewayID m.now f.row.gatewayID
    let aggregate := aggregateDLR segments
    (f.become (if aggregate.final && aggregate.allDelivered then .delete else .done), s)
  | .delete => (f.become .done, (s.deletePendingByGatewayID f.row.gatewayID).2)
  | .done   => (f, s)

theorem step_row (s : MemoryStore) (f : Flush) (m : HandlerMove) : (f.step s m).1.row = f.row := by
  cases hp : f.phase <;> simp only [step, hp]
  case mark =>
    generalize s.markDLRDelivered f.row.provider f.row.providerID = r
    obtain ⟨_ | _, _⟩ := r <;> rfl
  all_goals rfl

end Flush

structure Desk where
  store    : MemoryStore
  handlers : Map Nat Handler := ∅
  flushes  : Map (Nat × Str) Flush := ∅

inductive DeskEvent
  | receive (i : Nat) (dlr : Dlr)
  | handle (i : Nat) (m : HandlerMove)
  | listReady (i : Nat) (now : Time) (order : List Str) (systemID : Str)
  | flush (i : Nat) (k : Str) (m : HandlerMove)
  | queueFailure (now : Time) (item : OutboxItem) (err : SendError)
  | dropFailure (item : OutboxItem)

namespace Desk

-- The rows of one batch are worked off in any order here, and each only as far as the step says. `FlushDLR`
-- keeps to the order of its list and stops early, but calls that list the rows in another order may be under
-- way at the same time, so that no state of the store is added.
def step (d : Dispatcher) (w : Desk) : DeskEvent → Desk
  | .receive i dlr => { w with handlers := w.handlers.insert i { dlr } }
  | .handle i m =>
    match w.handlers.lookup i with
    | none   => w
    | some h =>
      let (h', s) := h.step w.store m
      { w with store := s, handlers := w.handlers.insert i h' }
  | .listReady i now order systemID =>
    let (rows, s) := w.store.listReadyDLR now order systemID 500
    { w with store := s, flushes := Map.insertAll (fun row => (i, row.key)) (fun row => { row }) w.flushes rows }
  | .flush i k m =>
    match w.flushes.lookup (i, k) with
    | none   => w
    | some f =>
      let (f', s) := f.step w.store m
      { w with store := s, flushes := w.flushes.insert (i, k) f' }
  | .queueFailure now item err =>
    let (state, errorCode) := terminalFailureDLR err
    { w with store := (d.queueTerminalFailureDLR w.store now .none item state errorCode).2 }
  | .dropFailure item =>
    let rec' := d.terminalFailurePending 0 item.payload [] 0
    { w with store := (w.store.deletePending rec'.provider rec'.providerID).2 }

end Desk

def Pending.live (now : Time) (p : Pending) : Bool :=
  !(!p.dlrReady && p.expiresAt != 0 && p.expiresAt < now)

def Pending.delivered (p : Pending) : Pending :=
  { p with dlrReady := false, dlrDelivered := true }

namespace MemoryStore

variable {s : MemoryStore} {k : Str} {now : Time}

theorem sweepLocked_lookup : (s.sweepLocked now).pending.lookup k = (s.pending.lookup k).filter (·.live now) :=
  Map.lookup_filter

theorem modifyPending_lookup (s : MemoryStore) (provider providerID : Str) (f : Pending → Pending) :
    (s.modifyPending provider providerID f).2.pending.lookup k =
      if k = pendingKey provider providerID then (s.pending.lookup k).map f else s.pending.lookup k := by
  unfold modifyPending
  split
  case h_1 hl =>
    split
    case isTrue hk => rw [hk, hl]; rfl
    case isFalse => rfl
  case h_2 p hl =>
    simp only [Map.lookup_insert_eq]
    split
    case isTrue hk => rw [hk, hl]; rfl
    case isFalse => rfl

theorem getPending_lookup (s : MemoryStore) (now : Time) (provider providerID : Str) :
    (s.getPending now provider providerID).2.pending.lookup k = (s.pending.lookup k).filter (·.live now) := by
  rw [← sweepLocked_lookup]
  unfold getPending
  simp only
  split
  case h_1 => rfl
  case h_2 p hl =>
    split
    case isFalse => rfl
    case isTrue he =>
      -- A row that the sweep has left is not deleted once more.
      have hlive := (Map.lookup_filter_eq_some.mp hl).2
      simp [he] at hlive

theorem getPending_eq_some {provider providerID : Str} {p : Pending}
    (h : (s.getPending now provider providerID).1 = some p) :
    s.pending.lookup (pendingKey provider providerID) = some p := by
  unfold getPending at h
  simp only at h
  split at h
  case h_1 => cases h
  case h_2 q hl =>
    split at h
    case isTrue => cases h
    case isFalse =>
      cases h
      exact (Map.lookup_filter_eq_some.mp hl).1

end MemoryStore

theorem Handler.step_record {s : MemoryStore} {h : Handler} {m : HandlerMove} {rec' : Pending}
    (hr : (h.step s m).1.phase.record = some rec') :
    (∃ rec, h.phase.record = some rec ∧ rec'.provider = rec.provider ∧ rec'.providerID = rec.providerID ∧
      rec'.gatewayID = rec.gatewayID) ∨
    h.phase = .lookup ∧ s.pending.lookup h.dlr.key = some rec' := by
  cases hp : h.phase <;> simp only [step, hp] at hr
  case lookup =>
    have hget : (s.getPending m.now h.dlr.provider h.dlr.providerID).1 = some rec' →
        s.pending.lookup h.dlr.key = some rec' := MemoryStore.getPending_eq_some
    refine .inr ⟨rfl, hget ?_⟩
    generalize s.getPending m.now h.dlr.provider h.dlr.providerID = r at hr ⊢
    obtain ⟨_ | rec, _⟩ := r
    case none =>
      simp only [become] at hr
      split at hr <;> cases hr
    case some => exact hr
  case update rec =>
    generalize s.updatePendingDLR rec.provider rec.providerID h.dlr.state h.dlr.errorCode h.dlr.doneAt = r at hr
    obtain ⟨_ | _, _⟩ := r <;> cases hr
    exact .inl ⟨_, rfl, rfl, rfl, rfl⟩
  case list rec =>
    simp only [become] at hr
    split at hr
    case isTrue =>
      cases hr
      exact .inl ⟨_, rfl, rfl, rfl, rfl⟩
    case isFalse =>
      cases HandlerPhase.deliver_record hr
      exact .inl ⟨_, rfl, rfl, rfl, rfl⟩
  case write rec aggregate =>
    cases HandlerPhase.deliver_record hr
    exact .inl ⟨_, rfl, rfl, rfl, rfl⟩
  case push rec =>
    split at hr <;> cases hr <;> exact .inl ⟨_, rfl, rfl, rfl, rfl⟩
  case ready => cases hr
  case mark rec =>
    generalize s.markDLRDelivered rec.provider rec.providerID = r at hr
    obtain ⟨_ | _, _⟩ := r <;> cases hr
    exact .inl ⟨_, rfl, rfl, rfl, rfl⟩
  case relist rec =>
    simp only [become] at hr
    split at hr <;> cases hr
    exact .inl ⟨_, rfl, rfl, rfl, rfl⟩
  case delete => cases hr
  case done => cases hr

theorem Handler.step_dlr (s : MemoryStore) (h : Handler) (m : HandlerMove) :
    (h.step s m).1.dlr.provider = h.dlr.provider ∧ (h.step s m).1.dlr.providerID = h.dlr.providerID := by
  cases hp : h.phase <;> simp only [step, hp]
  case lookup =>
    generalize s.getPending m.now h.dlr.provider h.dlr.providerID = r
    obtain ⟨_ | _, _⟩ := r <;> exact ⟨rfl, rfl⟩
  case update rec =>
    generalize s.updatePendingDLR rec.provider rec.providerID h.dlr.state h.dlr.errorCode h.dlr.doneAt = r
    obtain ⟨_ | _, _⟩ := r <;> exact ⟨rfl, rfl⟩
  case push => split <;> exact ⟨rfl, rfl⟩
  case mark rec =>
    generalize s.markDLRDelivered rec.provider rec.providerID = r
    obtain ⟨_ | _, _⟩ := r <;> exact ⟨rfl, rfl⟩
  case done => trivial
  all_goals exact ⟨rfl, rfl⟩

def Handler.rowAfter (h : Handler) (m : HandlerMove) (k : Str) (row : Option Pending) : Option Pending :=
  match h.phase with
  | .lookup | .list _ | .relist _ => row.filter (·.live m.now)
  | .update rec => if k = rec.key then row.map h.dlr.into else row
  | .ready rec  => if k = rec.key then row.map fun p => { h.dlr.into p with dlrReady := true } else row
  | .mark rec   => if k = rec.key then row.map Pending.delivered else row
  | .delete rec => row.filter (·.gatewayID ≠ rec.gatewayID)
  | .write .. | .push _ | .done => row

theorem Handler.step_lookup (s : MemoryStore) (h : Handler) (m : HandlerMove) (k : Str) :
    (h.step s m).2.pending.lookup k = h.rowAfter m k (s.pending.lookup k) := by
  cases hp : h.phase <;> simp only [step, rowAfter, hp]
  case lookup =>
    have hl := s.getPending_lookup (k := k) m.now h.dlr.provider h.dlr.providerID
    generalize s.getPending m.now h.dlr.provider h.dlr.providerID = r at hl ⊢
    obtain ⟨_ | _, _⟩ := r <;> exact hl
  case update rec =>
    rw [h.dlr.updatePendingDLR_into]
    have hl := s.modifyPending_lookup (k := k) rec.provider rec.providerID h.dlr.into
    generalize s.modifyPending rec.provider rec.providerID h.dlr.into = r at hl ⊢
    obtain ⟨_ | _, _⟩ := r <;> exact hl
  case list => exact MemoryStore.sweepLocked_lookup
  case write => rw [MemoryStore.updateMessageState_pending]
  case push => split <;> rfl
  case ready rec => exact s.modifyPending_lookup rec.provider rec.providerID _
  case mark rec =>
    have hl := s.modifyPending_lookup (k := k) rec.provider rec.providerID Pending.delivered
    change ((s.markDLRDelivered rec.provider rec.providerID).2.pending.lookup k = _) at hl
    generalize s.markDLRDelivered rec.provider rec.providerID = r at hl ⊢
    obtain ⟨_ | _, _⟩ := r <;> exact hl
  case relist => exact MemoryStore.sweepLocked_lookup
  case delete => exact Map.lookup_filter

inductive Handler.Writes (h : Handler) (k : Str) (p : Pending) : Pending → Prop
  | nothing : Writes h k p p
  | update {rec : Pending} (phase : h.phase = .update rec) (key : rec.key = k) : Writes h k p (h.dlr.into p)
  | ready {rec : Pending} (phase : h.phase = .ready rec) (key : rec.key = k) :
    Writes h k p { h.dlr.into p with dlrReady := true }
  | mark {rec : Pending} (phase : h.phase = .mark rec) (key : rec.key = k) : Writes h k p p.delivered

theorem Handler.rowAfter_cases {h : Handler} {m : HandlerMove} {k : Str} {row : Option Pending} {p' : Pending}
    (hr : h.rowAfter m k row = some p') : ∃ p, row = some p ∧ h.Writes k p p' := by
  cases hp : h.phase <;> simp only [rowAfter, hp] at hr
  case write | push | done => exact ⟨p', hr, .nothing⟩
  case lookup | list | relist | delete =>
    rw [Option.filter_eq_some_iff] at hr
    exact ⟨p', hr.1, .nothing⟩
  case update rec =>
    split at hr
    case isFalse => exact ⟨p', hr, .nothing⟩
    case isTrue hk =>
      obtain ⟨p, hrow, rfl⟩ := Option.map_eq_some_iff.mp hr
      exact ⟨p, hrow, .update hp hk.symm⟩
  case ready rec =>
    split at hr
    case isFalse => exact ⟨p', hr, .nothing⟩
    case isTrue hk =>
      obtain ⟨p, hrow, rfl⟩ := Option.map_eq_some_iff.mp hr
      exact ⟨p, hrow, .ready hp hk.symm⟩
  case mark rec =>
    split at hr
    case isFalse => exact ⟨p', hr, .nothing⟩
    case isTrue hk =>
      obtain ⟨p, hrow, rfl⟩ := Option.map_eq_some_iff.mp hr
      exact ⟨p, hrow, .mark hp hk.symm⟩

def Flush.rowAfter (f : Flush) (m : HandlerMove) (k : Str) (row : Option Pending) : Option Pending :=
  match f.phase with
  | .relist => row.filter (·.live m.now)
  | .mark   => if k = f.row.key then row.map Pending.delivered else row
  | .delete => row.filter (·.gatewayID ≠ f.row.gatewayID)
  | .listed | .push | .done => row

theorem Flush.step_lookup (s : MemoryStore) (f : Flush) (m : HandlerMove) (k : Str) :
    (f.step s m).2.pending.lookup k = f.rowAfter m k (s.pending.lookup k) := by
  cases hp : f.phase <;> simp only [step, rowAfter, hp]
  case mark =>
    have hl := s.modifyPending_lookup (k := k) f.row.provider f.row.providerID Pending.delivered
    change ((s.markDLRDelivered f.row.provider f.row.providerID).2.pending.lookup k = _) at hl
    generalize s.markDLRDelivered f.row.provider f.row.providerID = r at hl ⊢
    obtain ⟨_ | _, _⟩ := r <;> exact hl
  case relist => exact MemoryStore.sweepLocked_lookup
  case delete => exact Map.lookup_filter

theorem Flush.rowAfter_cases {f : Flush} {m : HandlerMove} {k : Str} {row : Option Pending} {p' : Pending}
    (hr : f.rowAfter m k row = some p') :
    ∃ p, row = some p ∧ (p' = p ∨ f.phase = .mark ∧ f.row.key = k ∧ p' = p.delivered) := by
  cases hp : f.phase <;> simp only [rowAfter, hp] at hr
  case listed | push | done => exact ⟨p', hr, .inl rfl⟩
  case relist | delete =>
    rw [Option.filter_eq_some_iff] at hr
    exact ⟨p', hr.1, .inl rfl⟩
  case mark =>
    split at hr
    case isFalse => exact ⟨p', hr, .inl rfl⟩
    case isTrue hk =>
      obtain ⟨p, hrow, rfl⟩ := Option.map_eq_some_iff.mp hr
      exact ⟨p, hrow, .inr ⟨rfl, hk.symm, rfl⟩⟩

inductive FlushLoop
  | list
  | work (f : Flush) (rest : List Pending)
  | done

namespace FlushLoop

def next (systemID : Str) : List Pending → FlushLoop
  | []          => if systemID = [] then .done else .list
  | row :: rest => .work { row } rest

def step (systemID : Str) (s : MemoryStore) (order : List Str) (m : HandlerMove) :
    FlushLoop → FlushLoop × MemoryStore
  | .list =>
    match s.listReadyDLR m.now order systemID 500 with
    | ([], s)          => (.done, s)
    | (row :: rest, s) => (.work { row } rest, s)
  | .work f rest =>
    match f.step s m with
    | ({ phase := .done, .. }, s) =>
      -- A receipt that was not taken ends the call, unless it is the sweep.
      (if f.phase = .push ∧ systemID ≠ [] then .done else .next systemID rest, s)
    | (f', s) => (.work f' rest, s)
  | .done => (.done, s)

inductive OnDesk (i : Nat) (w : Desk) : FlushLoop → Prop
  | list : OnDesk i w .list
  | done : OnDesk i w .done
  | work {f : Flush} {rest : List Pending} (keys : ((f.row :: rest).map Pending.key).Nodup)
    (current : w.flushes.lookup (i, f.row.key) = some f)
    (listed : ∀ row ∈ rest, w.flushes.lookup (i, row.key) = some { row }) : OnDesk i w (.work f rest)

end FlushLoop

def MemoryStore.Keyed (s : MemoryStore) : Prop :=
  ∀ {k : Str} {p : Pending}, s.pending.lookup k = some p → p.key = k

theorem MemoryStore.listReadyDLR_keys {s : MemoryStore} (hk : s.Keyed) (now : Time) (order : List Str)
    (systemID : Str) (limit : Int) :
    ((s.listReadyDLR now order systemID limit).1.map Pending.key).Sublist order := by
  have hrows : ((order.filterMap (s.sweepLocked now).pending.lookup).map Pending.key).Sublist order := by
    induction order
    case nil => exact .slnil
    case cons k order hi =>
      rw [List.filterMap_cons]
      split
      case h_1 => exact hi.cons k
      case h_2 p hp =>
        rw [sweepLocked_lookup, Option.filter_eq_some_iff] at hp
        rw [List.map_cons, hk hp.1]
        exact hi.cons_cons k
  exact (((List.take_sublist _ _).trans List.filter_sublist).map _).trans hrows

namespace FlushLoop

variable {i : Nat} {w : Desk} {l : FlushLoop}

theorem OnDesk.next (systemID : Str) {rest : List Pending} (keys : (rest.map Pending.key).Nodup)
    (listed : ∀ row ∈ rest, w.flushes.lookup (i, row.key) = some { row }) :
    OnDesk i w (FlushLoop.next systemID rest) := by
  cases rest
  case nil =>
    simp only [FlushLoop.next]
    split
    case isTrue => exact .done
    case isFalse => exact .list
  case cons row rest =>
    exact .work keys (listed row List.mem_cons_self) fun row' h => listed row' (List.mem_cons_of_mem row h)

-- Each step of the call is a run of the desk: the store is the same after it, and the rows of the call are again
-- on the desk.
theorem OnDesk.step (d : Dispatcher) (h : OnDesk i w l) (hk : w.store.Keyed) {order : List Str}
    (hn : order.Nodup) (systemID : Str) (m : HandlerMove) :
    ∃ es, (run (Desk.step d) w es).store = (l.step systemID w.store order m).2 ∧
      OnDesk i (run (Desk.step d) w es) (l.step systemID w.store order m).1 := by
  cases h
  case done => exact ⟨[], rfl, .done⟩
  case list =>
    refine ⟨[.listReady i m.now order systemID], ?_⟩
    have hkeys := (w.store.listReadyDLR_keys hk m.now order systemID 500).nodup hn
    simp only [run_cons, run_nil, Desk.step, FlushLoop.step]
    generalize w.store.listReadyDLR m.now order systemID 500 = r at hkeys ⊢
    obtain ⟨_ | ⟨row, rest⟩, s⟩ := r
    case nil => exact ⟨rfl, .done⟩
    case cons =>
      have hlabels : ((row :: rest).map fun row => (i, row.key)).Nodup := by
        have := hkeys.map (Prod.mk_right_injective i)
        rwa [List.map_map] at this
      exact ⟨rfl, OnDesk.next systemID hkeys fun row' hr => Map.lookup_insertAll_of_mem hlabels hr⟩
  case work f rest keys current listed =>
    refine ⟨[.flush i f.row.key m], ?_⟩
    have hrow : (f.step w.store m).1.row = f.row := f.step_row w.store m
    obtain ⟨hnot, hrest⟩ := List.nodup_cons.mp keys
    have hlisted : ∀ f' : Flush, ∀ row ∈ rest,
        (w.flushes.insert (i, f.row.key) f').lookup (i, row.key) = some { row } := by
      intro f' row hr
      have hne : (i, row.key) ≠ (i, f.row.key) := by
        intro heq
        exact hnot (List.mem_map.mpr ⟨row, hr, (Prod.mk.inj heq).2⟩)
      rw [AList.lookup_insert_ne hne]
      exact listed row hr
    simp only [run_cons, run_nil, Desk.step, FlushLoop.step, current]
    generalize f.step w.store m = r at hrow ⊢
    obtain ⟨⟨row, phase⟩, s⟩ := r
    subst hrow
    split
    case h_1 heq =>
      cases heq
      refine ⟨rfl, ?_⟩
      split
      case isTrue => exact .done
      case isFalse => exact .next systemID hrest (hlisted _)
    case h_2 hne heq =>
      cases heq
      exact ⟨rfl, .work keys (AList.lookup_insert _) (hlisted _)⟩

end FlushLoop

theorem Dispatcher.queueTerminalFailureDLR_cases (d : Dispatcher) (s : MemoryStore) (now : Time) (item : OutboxItem)
    (state : Str) (errorCode : Int) :
    d.queueTerminalFailureDLR s now .none item state errorCode = (none, s) ∨
    d.queueTerminalFailureDLR s now .none item state errorCode =
      (some (d.terminalFailurePending now item.payload state errorCode),
        (s.savePending now (d.terminalFailurePending now item.payload state errorCode)).2) := by
  unfold queueTerminalFailureDLR
  split
  case isTrue => exact .inl rfl
  case isFalse => exact .inr rfl

inductive Desk.RowStep (d : Dispatcher) (w : Desk) (k : Str) : DeskEvent → Pending → Prop
  | same {e : DeskEvent} {p : Pending} (row : w.store.pending.lookup k = some p) : RowStep d w k e p
  | handled {i : Nat} {m : HandlerMove} {h : Handler} {p p' : Pending} (call : w.handlers.lookup i = some h)
    (row : w.store.pending.lookup k = some p) (writes : h.Writes k p p') : RowStep d w k (.handle i m) p'
  | flushed {i : Nat} {k' : Str} {m : HandlerMove} {f : Flush} {p : Pending}
    (call : w.flushes.lookup (i, k') = some f) (row : w.store.pending.lookup k = some p) (phase : f.phase = .mark)
    (key : f.row.key = k) : RowStep d w k (.flush i k' m) p.delivered
  | queued {now : Time} {item : OutboxItem} {err : SendError} {rec : Pending}
    (made : rec = d.terminalFailurePending now item.payload (terminalFailureDLR err).1 (terminalFailureDLR err).2)
    (saved : (d.queueTerminalFailureDLR w.store now .none item (terminalFailureDLR err).1
      (terminalFailureDLR err).2).1 = some rec)
    (key : rec.key = k) : RowStep d w k (.queueFailure now item err) (normalizePending rec)

theorem Desk.rowStep {d : Dispatcher} {w : Desk} {e : DeskEvent} {k : Str} {p' : Pending}
    (h : (w.step d e).store.pending.lookup k = some p') : RowStep d w k e p' := by
  cases e
  case receive => exact .same h
  case handle i m =>
    simp only [step] at h
    split at h
    case h_1 => exact .same h
    case h_2 c hi =>
      simp only [c.step_lookup] at h
      obtain ⟨p, hp, hwrites⟩ := Handler.rowAfter_cases h
      exact .handled hi hp hwrites
  case listReady =>
    have hl : (w.store.sweepLocked _).pending.lookup k = some p' := h
    rw [MemoryStore.sweepLocked_lookup, Option.filter_eq_some_iff] at hl
    exact .same hl.1
  case flush i k' m =>
    simp only [step] at h
    split at h
    case h_1 => exact .same h
    case h_2 f hi =>
      simp only [f.step_lookup] at h
      obtain ⟨p, hp, rfl | ⟨hphase, hkey, rfl⟩⟩ := Flush.rowAfter_cases h
      case inl => exact .same hp
      case inr => exact .flushed hi hp hphase hkey
  case queueFailure now item err =>
    simp only [step] at h
    rcases d.queueTerminalFailureDLR_cases w.store now item (terminalFailureDLR err).1 (terminalFailureDLR err).2
      with hq | hq <;> simp only [hq] at h
    case inl => exact .same h
    case inr =>
      simp only [MemoryStore.savePending, Map.lookup_insert_eq] at h
      split at h
      case isTrue hk =>
        cases h
        exact .queued rfl (by rw [hq]) hk.symm
      case isFalse =>
        rw [MemoryStore.sweepLocked_lookup, Option.filter_eq_some_iff] at h
        exact .same h.1
  case dropFailure item =>
    simp only [step, MemoryStore.deletePending, Map.lookup_erase_eq] at h
    split at h
    case isTrue => cases h
    case isFalse => exact .same h

namespace Desk

variable {d : Dispatcher} {k : Str} {w : Desk}

def HoldsFinal (k : Str) (w : Desk) : Prop :=
  ∃ p, w.store.pending.lookup k = some p ∧ isFinalDLRState p.dlrState ∧ p.dlrDelivered = false

-- While the row holds a final receipt, the step stores no other kind of state in it.
def KeepsFinal (d : Dispatcher) (k : Str) (w : Desk) (e : DeskEvent) : Prop :=
  w.HoldsFinal k → ∀ p, (w.step d e).store.pending.lookup k = some p → isFinalDLRState p.dlrState

-- A call of `HandleDLR` for an intermediate receipt writes into a row that holds a final one.
def Overwrites (k : Str) (w : Desk) : DeskEvent → Prop
  | .handle i _ => w.HoldsFinal k ∧ ∃ h rec, w.handlers.lookup i = some h ∧
      (h.phase = .update rec ∨ h.phase = .ready rec) ∧ rec.key = k ∧ ¬isFinalDLRState h.dlr.state
  | _ => False

theorem terminalFailureDLR_final (err : SendError) : isFinalDLRState (terminalFailureDLR err).1 := by
  unfold terminalFailureDLR
  cases err.smppStatus
  case none => decide
  case some => exact (by decide : isFinalDLRState (lit "REJECTD"))

theorem not_keepsFinal {i : Nat} {m : HandlerMove} (h : w.Overwrites k (.handle i m)) :
    ¬w.KeepsFinal d k (.handle i m) := by
  obtain ⟨hf, h, rec, hi, hphase, rfl, hstate⟩ := h
  obtain ⟨p, hp, -⟩ := id hf
  intro hkeeps
  have hafter : (w.step d (.handle i m)).store.pending.lookup rec.key = h.rowAfter m rec.key (some p) := by
    simp only [step, hi, h.step_lookup, hp]
  have hwritten : ∃ p', h.rowAfter m rec.key (some p) = some p' ∧ p'.dlrState = h.dlr.state := by
    rcases hphase with hphase | hphase
    case inl => exact ⟨h.dlr.into p, by simp [Handler.rowAfter, hphase], rfl⟩
    case inr => exact ⟨{ h.dlr.into p with dlrReady := true }, by simp [Handler.rowAfter, hphase], rfl⟩
  obtain ⟨p', hp', hs⟩ := hwritten
  have hfinal := hkeeps hf p' (hafter.trans hp')
  rw [hs] at hfinal
  exact hstate hfinal

theorem keepsFinal_iff (e : DeskEvent) : w.KeepsFinal d k e ↔ ¬w.Overwrites k e := by
  constructor
  case mp =>
    intro hk ho
    cases e
    case handle => exact not_keepsFinal ho hk
    all_goals exact ho
  case mpr =>
    intro hno hf p' hp'
    obtain ⟨q, hq, hfinal, -⟩ := id hf
    cases rowStep hp'
    case same hrow => cases hq.symm.trans hrow; exact hfinal
    case flushed hrow _ _ => cases hq.symm.trans hrow; exact hfinal
    case queued made _ _ => rw [made]; exact terminalFailureDLR_final _
    case handled h _ hi hrow hwrites =>
      cases hq.symm.trans hrow
      cases hwrites
      case nothing | mark => exact hfinal
      case update rec hphase hkey =>
        exact by_contra fun hnot => hno ⟨hf, h, rec, hi, .inl hphase, hkey, hnot⟩
      case ready rec hphase hkey =>
        exact by_contra fun hnot => hno ⟨hf, h, rec, hi, .inr hphase, hkey, hnot⟩

end Desk

-- In every run, no state but a final one is ever stored over a final receipt that waits to be delivered,
-- exactly when no call of `HandleDLR` writes an intermediate receipt into such a row.
theorem final_receipt_kept_iff (d : Dispatcher) (k : Str) (w : Desk) (es : List DeskEvent) :
    Along (Desk.step d) (Desk.KeepsFinal d k) w es ↔
      Along (Desk.step d) (fun w e => ¬w.Overwrites k e) w es :=
  Along.congr (P := fun _ => True) trivial (fun _ _ _ => trivial) fun _ e _ => Desk.keepsFinal_iff e

def waitingRow : Pending where
  providerID         := lit "id-1"
  gatewayID          := lit "m1"
  provider           := lit "up"
  registeredDelivery := 1

def waitingDesk : Desk where
  store := { newMemory with pending := (∅ : Map Str Pending).insert waitingRow.key waitingRow }

def handleAll (i : Nat) (state : Str) (outcome : PushOutcome) : List DeskEvent :=
  .receive i { provider := lit "up", providerID := lit "id-1", state } ::
    List.replicate 8 (.handle i { now := 1, outcome })

def Desk.stored (w : Desk) (k : Str) : Option (Str × Bool × Bool) :=
  (w.store.pending.lookup k).map fun p => (p.dlrState, p.dlrReady, p.dlrDelivered)

-- The receiver is offline for both receipts. The one that says `DELIVRD` is stored, and the next, which says
-- `ENROUTE`, takes its place: a flush will deliver that.
theorem final_receipt_overwritten :
    (run (Desk.step plainDispatcher) waitingDesk (handleAll 0 (lit "DELIVRD") .deferred)).stored waitingRow.key =
      some (lit "DELIVRD", true, false) ∧
    (run (Desk.step plainDispatcher) waitingDesk (handleAll 0 (lit "DELIVRD") .deferred ++
      handleAll 1 (lit "ENROUTE") .deferred)).stored waitingRow.key = some (lit "ENROUTE", true, false) := by
  decide +kernel

end SmppGateway
