import SmppGateway.Dispatch.Desk

-- One call of `FlushDLR` for a system, on its own, whose receiver takes every receipt. The call lists rows in
-- batches until there are none. In between, finishing a row may delete every row of its message.

namespace SmppGateway

open Go Machine

def Pending.receipt (p : Pending) (now : Time) : Dlr where
  provider   := p.provider
  providerID := p.providerID
  state      := p.dlrState
  errorCode  := p.dlrErrorCode
  doneAt     := if p.dlrDoneAt = 0 then now else p.dlrDoneAt

structure FlushCall where
  loop   : FlushLoop := .list
  store  : MemoryStore
  pushed : List (Pending × Dlr) := []

structure FlushMove where
  order : List Str
  move  : HandlerMove

namespace FlushCall

def pushes (m : HandlerMove) : FlushLoop → List (Pending × Dlr)
  | .work f _    => if f.phase = .push then [(f.row, f.row.receipt m.now)] else []
  | .list | .done => []

def step (systemID : Str) (c : FlushCall) (e : FlushMove) : FlushCall :=
  let (loop, store) := c.loop.step systemID c.store e.order e.move
  { loop, store, pushed := c.pushed ++ pushes e.move c.loop }

-- The loop over the map meets every key once, the receiver takes the receipt, and the clock shows `latest` at most.
structure Undisturbed (latest : Time) (c : FlushCall) (e : FlushMove) : Prop where
  order : e.order.Perm c.store.pending.keys
  taken : e.move.outcome = .accepted
  time  : e.move.now ≤ latest

instance {latest : Time} {c : FlushCall} {e : FlushMove} : Decidable (Undisturbed latest c e) :=
  decidable_of_iff (e.order.Perm c.store.pending.keys ∧ e.move.outcome = .accepted ∧ e.move.now ≤ latest)
    ⟨fun h => ⟨h.1, h.2.1, h.2.2⟩, fun h => ⟨h.order, h.taken, h.time⟩⟩

end FlushCall

namespace MemoryStore

variable {s s' : MemoryStore} {systemID : Str} {p : Pending} {now : Time}

def readyRows (s : MemoryStore) (systemID : Str) : List Pending :=
  (s.pending.entries.map (·.2)).filter fun p => p.dlrReady && p.sourceSystem = systemID

def Unmixed (s : MemoryStore) : Prop :=
  ∀ {k : Str} {p : Pending}, s.pending.lookup k = some p → p.dlrReady → ¬p.dlrDelivered

theorem mem_readyRows :
    p ∈ s.readyRows systemID ↔ ∃ k, s.pending.lookup k = some p ∧ p.dlrReady ∧ p.sourceSystem = systemID := by
  simp only [readyRows, List.mem_filter, List.mem_map, Bool.and_eq_true, decide_eq_true_eq]
  constructor
  case mp =>
    rintro ⟨⟨⟨k, q⟩, hq, rfl⟩, h⟩
    exact ⟨k, Map.mem_entries_iff.mp hq, h⟩
  case mpr =>
    rintro ⟨k, hq, h⟩
    exact ⟨⟨⟨k, p⟩, Map.mem_entries_iff.mpr hq, rfl⟩, h⟩

theorem readyRows_filter {f : Str → Pending → Bool}
    (h : ∀ {k p}, s.pending.lookup k = some p → p.dlrReady → f k p) (hs : s'.pending = s.pending.filter f) :
    s'.readyRows systemID = s.readyRows systemID := by
  simp only [readyRows, hs, Map.filter, List.filter_map, List.filter_filter]
  congr 1
  apply List.filter_congr
  rintro ⟨k, p⟩ hp
  have := h (Map.mem_entries_iff.mp hp)
  simp only [Function.comp_apply]
  grind

theorem readyRows_sweepLocked : (s.sweepLocked now).readyRows systemID = s.readyRows systemID := by
  have hs : (s.sweepLocked now).pending = s.pending.filter fun _ => Pending.live now := rfl
  refine readyRows_filter ?_ hs
  intro k p _ hr
  simp [Pending.live, hr]

theorem readyRows_markDLRDelivered (hp : s.pending.lookup p.key = some p) (hr : p ∈ s.readyRows systemID) :
    List.Perm ((s.markDLRDelivered p.provider p.providerID).2.readyRows systemID ++ [p]) (s.readyRows systemID) := by
  have hready : p.dlrReady && p.sourceSystem = systemID := (List.mem_filter.mp hr).2
  have hmark : (s.markDLRDelivered p.provider p.providerID).2.pending = s.pending.insert p.key p.delivered := by
    simp only [markDLRDelivered, modifyPending]
    rw [show s.pending.lookup (pendingKey p.provider p.providerID) = some p from hp]
    rfl
  have hentries := Map.entries_insert_perm (m := s.pending) (k := p.key) (v := p.delivered)
  rw [hp, Option.elim_some] at hentries
  have hrows := (hentries.map (·.2)).filter fun p => p.dlrReady && p.sourceSystem = systemID
  simpa [readyRows, hmark, hready, Pending.delivered] using hrows

theorem mem_listReadyDLR (hs : systemID ≠ []) {order : List Str} {limit : Int}
    (h : p ∈ (s.listReadyDLR now order systemID limit).1) : p ∈ s.readyRows systemID := by
  obtain ⟨hp, hr⟩ := List.mem_filter.mp (List.mem_of_mem_take h)
  obtain ⟨k, _, hk⟩ := List.mem_filterMap.mp hp
  rw [sweepLocked_lookup, Option.filter_eq_some_iff] at hk
  simp only [hs, decide_false, Bool.false_or, Bool.and_eq_true, decide_eq_true_eq] at hr
  exact mem_readyRows.mpr ⟨k, hk.1, hr⟩

theorem readyRows_of_listReadyDLR {order : List Str} (ho : order.Perm s.pending.keys)
    (h : (s.listReadyDLR now order systemID 500).1 = []) : s.readyRows systemID = [] := by
  apply List.eq_nil_iff_forall_not_mem.mpr
  intro p hp
  obtain ⟨k, hk, hr, hsys⟩ := mem_readyRows.mp hp
  have hlive : (s.sweepLocked now).pending.lookup k = some p := by
    rw [sweepLocked_lookup, hk, Option.filter_eq_some_iff]
    exact ⟨rfl, by simp [Pending.live, hr]⟩
  have hmem : k ∈ order := ho.mem_iff.mpr (AList.mem_keys.mp (AList.lookup_isSome.mp (by simp [hk])))
  simp only [listReadyDLR, List.take_eq_nil_iff] at h
  obtain hlimit | hrows := h
  case inl => simp at hlimit
  case inr =>
    have hnot := List.filter_eq_nil_iff.mp hrows p (List.mem_filterMap.mpr ⟨k, hmem, hlive⟩)
    simp [hr, hsys] at hnot

end MemoryStore

namespace FlushLoop

variable {s : MemoryStore} {systemID : Str} {order : List Str} {m : HandlerMove} {f : Flush} {rest : List Pending}

theorem step_listed (hp : f.phase = .listed) :
    FlushLoop.step systemID s order m (.work f rest) = (.work (f.become .push) rest, s) := by
  simp [step, Flush.step, hp, Flush.become]

theorem step_push (hp : f.phase = .push) (hm : m.outcome = .accepted) :
    FlushLoop.step systemID s order m (.work f rest) = (.work (f.become .mark) rest, s) := by
  simp [step, Flush.step, hp, hm, Flush.become]

theorem step_mark (hp : f.phase = .mark) (hrow : s.pending.lookup f.row.key = some f.row) :
    FlushLoop.step systemID s order m (.work f rest) =
      (.work (f.become .relist) rest, (s.markDLRDelivered f.row.provider f.row.providerID).2) := by
  have hl : s.pending.lookup (pendingKey f.row.provider f.row.providerID) = some f.row := hrow
  simp [step, Flush.step, hp, Flush.become, MemoryStore.markDLRDelivered, MemoryStore.modifyPending, hl]

theorem step_relist (hp : f.phase = .relist) :
    FlushLoop.step systemID s order m (.work f rest) =
      (let aggregate := aggregateDLR (s.listPendingByGatewayID m.now f.row.gatewayID).1
       if aggregate.final && aggregate.allDelivered then .work (f.become .delete) rest else .next systemID rest,
        s.sweepLocked m.now) := by
  have hs : (s.listPendingByGatewayID m.now f.row.gatewayID).2 = s.sweepLocked m.now := rfl
  simp only [step, Flush.step, hp, Flush.become, ← hs]
  generalize s.listPendingByGatewayID m.now f.row.gatewayID = r
  by_cases h : (aggregateDLR r.1).final && (aggregateDLR r.1).allDelivered <;> simp [h]

theorem step_delete (hp : f.phase = .delete) :
    FlushLoop.step systemID s order m (.work f rest) =
      (.next systemID rest, (s.deletePendingByGatewayID f.row.gatewayID).2) := by
  simp [step, Flush.step, hp, Flush.become]

end FlushLoop

theorem Pending.live_mono {p : Pending} {now latest : Time} (h : p.live latest) (hn : now ≤ latest) : p.live now := by
  simp only [Pending.live, Bool.not_eq_true', Bool.and_eq_false_iff, decide_eq_false_iff_not] at h ⊢
  exact h.imp_right fun h hlt => h (lt_of_lt_of_le hlt hn)

-- The store of a call that began with `s₀`. The rows of messages of which no row was flushed are as they were,
-- except that those are gone which were not ready and had expired by `latest`.
structure Kept (systemID : Str) (latest : Time) (s₀ s : MemoryStore) : Prop where
  keyed   : s.Keyed
  unmixed : s.Unmixed
  old     : ∀ {k p}, (∀ q ∈ s₀.readyRows systemID, q.gatewayID ≠ p.gatewayID) →
    s.pending.lookup k = some p → s₀.pending.lookup k = some p
  spared  : ∀ {k p}, (∀ q ∈ s₀.readyRows systemID, q.gatewayID ≠ p.gatewayID) →
    s₀.pending.lookup k = some p → p.live latest → s.pending.lookup k = some p

namespace Kept

variable {systemID : Str} {latest now : Time} {s₀ s s' : MemoryStore}

theorem filter {g : Pending → Bool} (h : Kept systemID latest s₀ s)
    (hl : ∀ k, s'.pending.lookup k = (s.pending.lookup k).filter g)
    (hg : ∀ p, (∀ q ∈ s₀.readyRows systemID, q.gatewayID ≠ p.gatewayID) → p.live latest → g p) :
    Kept systemID latest s₀ s' := by
  have hback {k p} (hp : s'.pending.lookup k = some p) : s.pending.lookup k = some p := by
    rw [hl, Option.filter_eq_some_iff] at hp
    exact hp.1
  refine ⟨fun hp => h.keyed (hback hp), fun hp => h.unmixed (hback hp), fun ho hp => h.old ho (hback hp), ?_⟩
  intro k p ho hp hlive
  rw [hl, h.spared ho hp hlive, Option.filter_eq_some_iff]
  exact ⟨rfl, hg p ho hlive⟩

theorem sweepLocked (h : Kept systemID latest s₀ s) (hn : now ≤ latest) :
    Kept systemID latest s₀ (s.sweepLocked now) :=
  h.filter (fun _ => MemoryStore.sweepLocked_lookup) fun _ _ hlive => Pending.live_mono hlive hn

theorem deletePendingByGatewayID (h : Kept systemID latest s₀ s) {row : Pending}
    (hrow : row ∈ s₀.readyRows systemID) :
    Kept systemID latest s₀ (s.deletePendingByGatewayID row.gatewayID).2 := by
  refine h.filter (g := fun p => p.gatewayID ≠ row.gatewayID) (fun _ => Map.lookup_filter) ?_
  intro p ho _
  exact decide_eq_true (ho row hrow).symm

theorem markDLRDelivered (h : Kept systemID latest s₀ s) {row : Pending} (hrow : row ∈ s₀.readyRows systemID)
    (hcur : s.pending.lookup row.key = some row) :
    Kept systemID latest s₀ (s.markDLRDelivered row.provider row.providerID).2 := by
  have hl (k : Str) : (s.markDLRDelivered row.provider row.providerID).2.pending.lookup k =
      if k = row.key then some row.delivered else s.pending.lookup k := by
    refine (s.modifyPending_lookup row.provider row.providerID Pending.delivered).trans ?_
    change (if k = row.key then _ else _) = _
    split
    case isTrue hk => rw [hk, hcur]; rfl
    case isFalse => rfl
  -- A row of the new store is the marked one or one of the old store.
  have hback {k p} (hp : (s.markDLRDelivered row.provider row.providerID).2.pending.lookup k = some p) :
      k = row.key ∧ p = row.delivered ∨ s.pending.lookup k = some p := by
    rw [hl] at hp
    split at hp
    case isTrue hk => exact .inl ⟨hk, (Option.some.inj hp).symm⟩
    case isFalse => exact .inr hp
  constructor
  case keyed =>
    intro k p hp
    obtain ⟨rfl, rfl⟩ | hp := hback hp
    case inl => rfl
    case inr => exact h.keyed hp
  case unmixed =>
    intro k p hp hr
    obtain ⟨rfl, rfl⟩ | hp := hback hp
    case inl => simp [Pending.delivered] at hr
    case inr => exact h.unmixed hp hr
  case old =>
    intro k p ho hp
    obtain ⟨rfl, rfl⟩ | hp := hback hp
    case inl => exact absurd rfl (ho row hrow)
    case inr => exact h.old ho hp
  case spared =>
    intro k p ho hp hlive
    have hs := h.spared ho hp hlive
    rw [hl, if_neg, hs]
    rintro rfl
    rw [hcur] at hs
    exact ho row hrow (congrArg Pending.gatewayID (Option.some.inj hs))

end Kept

-- The row in work and those still to come, as far as their receipts are not pushed or not yet marked, are ready and
-- as they were listed.
structure Batch (systemID : Str) (s₀ s : MemoryStore) (f : Flush) (rest : List Pending) : Prop where
  working : f.phase ≠ .done
  keys    : ((f.row :: rest).map Pending.key).Nodup
  begun   : f.row ∈ s₀.readyRows systemID
  current : f.phase ≠ .relist → f.phase ≠ .delete → f.row ∈ s.readyRows systemID
  listed  : ∀ row ∈ rest, row ∈ s.readyRows systemID
  clear   : f.phase = .delete → ∀ {k p}, s.pending.lookup k = some p → p.dlrReady → p.gatewayID ≠ f.row.gatewayID

theorem Batch.become {systemID : Str} {s₀ s s' : MemoryStore} {f : Flush} {rest : List Pending} {phase : FlushPhase}
    (hb : Batch systemID s₀ s f rest) (working : phase ≠ .done)
    (current : phase ≠ .relist → phase ≠ .delete → f.row ∈ s'.readyRows systemID)
    (listed : ∀ row ∈ rest, row ∈ s'.readyRows systemID)
    (clear : phase = .delete →
      ∀ {k p}, s'.pending.lookup k = some p → p.dlrReady → p.gatewayID ≠ f.row.gatewayID) :
    Batch systemID s₀ s' (f.become phase) rest :=
  ⟨working, hb.keys, hb.begun, current, listed, clear⟩

namespace FlushCall

def marking : FlushLoop → List Pending
  | .work f _     => if f.phase = .mark then [f.row] else []
  | .list | .done => []

def phaseWeight : FlushPhase → Nat
  | .listed => 6
  | .push   => 5
  | .mark   => 4
  | .relist => 11
  | .delete => 10
  | .done   => 9

def weight (systemID : Str) (c : FlushCall) : Nat :=
  match c.loop with
  | .list     => 8 * (c.store.readyRows systemID).length + 7
  | .work f _ => 8 * (c.store.readyRows systemID).length + phaseWeight f.phase
  | .done     => 0

end FlushCall

structure Flushing (systemID : Str) (latest : Time) (s₀ : MemoryStore) (c : FlushCall) : Prop where
  kept  : Kept systemID latest s₀ c.store
  rows  : List.Perm (c.pushed.map (·.1) ++ c.store.readyRows systemID)
    (FlushCall.marking c.loop ++ s₀.readyRows systemID)
  told  : ∀ x ∈ c.pushed, x.2.state = x.1.dlrState ∧ x.2.errorCode = x.1.dlrErrorCode
  batch : ∀ {f rest}, c.loop = .work f rest → Batch systemID s₀ c.store f rest
  ended : c.loop = .done → c.store.readyRows systemID = []

namespace Flushing

variable {systemID : Str} {latest : Time} {s₀ s : MemoryStore} {c : FlushCall} {e : FlushMove}
  {f : Flush} {row : Pending} {rest : List Pending} {pushed : List (Pending × Dlr)}

theorem start (hk : s.Keyed) (hu : s.Unmixed) : Flushing systemID latest s { store := s } where
  kept  := ⟨hk, hu, fun _ h => h, fun _ h _ => h⟩
  rows  := .refl _
  told  := by simp
  batch := by simp
  ended := by simp

theorem lookup_row (h : Kept systemID latest s₀ s) (hr : row ∈ s.readyRows systemID) :
    s.pending.lookup row.key = some row := by
  obtain ⟨k, hk, _⟩ := MemoryStore.mem_readyRows.mp hr
  rw [h.keyed hk]
  exact hk

theorem of_batch (hb : Batch systemID s₀ s f rest) (kept : Kept systemID latest s₀ s)
    (rows : List.Perm (pushed.map (·.1) ++ s.readyRows systemID)
      (FlushCall.marking (.work f rest) ++ s₀.readyRows systemID))
    (told : ∀ x ∈ pushed, x.2.state = x.1.dlrState ∧ x.2.errorCode = x.1.dlrErrorCode) :
    Flushing systemID latest s₀ ⟨.work f rest, s, pushed⟩ := by
  refine ⟨kept, rows, told, ?_, by simp⟩
  intro f' rest' heq
  cases heq
  exact hb

theorem work (kept : Kept systemID latest s₀ s)
    (rows : List.Perm (pushed.map (·.1) ++ s.readyRows systemID) (s₀.readyRows systemID))
    (told : ∀ x ∈ pushed, x.2.state = x.1.dlrState ∧ x.2.errorCode = x.1.dlrErrorCode)
    (keys : ((row :: rest).map Pending.key).Nodup) (listed : ∀ p ∈ row :: rest, p ∈ s.readyRows systemID) :
    Flushing systemID latest s₀ ⟨.work { row } rest, s, pushed⟩ := by
  have hrow := listed row List.mem_cons_self
  refine of_batch ?_ kept rows told
  exact
    { working := by simp
      keys
      begun   := rows.mem_iff.mp (List.mem_append_right _ hrow)
      current := fun _ _ => hrow
      listed  := fun p hp => listed p (List.mem_cons_of_mem row hp)
      clear   := by simp }

theorem next (hs : systemID ≠ []) (kept : Kept systemID latest s₀ s)
    (rows : List.Perm (pushed.map (·.1) ++ s.readyRows systemID) (s₀.readyRows systemID))
    (told : ∀ x ∈ pushed, x.2.state = x.1.dlrState ∧ x.2.errorCode = x.1.dlrErrorCode)
    (keys : (rest.map Pending.key).Nodup) (listed : ∀ p ∈ rest, p ∈ s.readyRows systemID) :
    Flushing systemID latest s₀ ⟨.next systemID rest, s, pushed⟩ ∧
      FlushCall.weight systemID ⟨.next systemID rest, s, pushed⟩ ≤ 8 * (s.readyRows systemID).length + 7 := by
  cases rest
  case nil =>
    have hnext : FlushLoop.next systemID [] = .list := if_neg hs
    rw [hnext]
    exact ⟨⟨kept, rows, told, by simp, by simp⟩, Nat.le_refl _⟩
  case cons row rest => exact ⟨.work kept rows told keys listed, Nat.le_succ _⟩

def StepsOn (systemID : Str) (latest : Time) (s₀ : MemoryStore) (c : FlushCall) (e : FlushMove) : Prop :=
  Flushing systemID latest s₀ (c.step systemID e) ∧
    (c.step systemID e).weight systemID ≤ c.weight systemID - 1

theorem step_list (hs : systemID ≠ []) (h : Flushing systemID latest s₀ ⟨.list, s, pushed⟩)
    (hu : FlushCall.Undisturbed latest ⟨.list, s, pushed⟩ e) :
    StepsOn systemID latest s₀ ⟨.list, s, pushed⟩ e := by
  have hstore : (s.listReadyDLR e.move.now e.order systemID 500).2 = s.sweepLocked e.move.now := rfl
  have hempty : (s.listReadyDLR e.move.now e.order systemID 500).1 = [] → s.readyRows systemID = [] :=
    MemoryStore.readyRows_of_listReadyDLR hu.order
  have hnodup : e.order.Nodup := hu.order.nodup_iff.mpr s.pending.keys_nodup
  have hkeys := (s.listReadyDLR_keys h.kept.keyed e.move.now e.order systemID 500).nodup hnodup
  have hlisted {p} (hp : p ∈ (s.listReadyDLR e.move.now e.order systemID 500).1) : p ∈ s.readyRows systemID :=
    MemoryStore.mem_listReadyDLR hs hp
  have hready : (s.sweepLocked e.move.now).readyRows systemID = s.readyRows systemID :=
    MemoryStore.readyRows_sweepLocked
  have hkept := h.kept.sweepLocked hu.time
  simp only [StepsOn, FlushCall.step, FlushLoop.step, FlushCall.pushes, List.append_nil]
  generalize s.listReadyDLR e.move.now e.order systemID 500 = r at hstore hempty hkeys hlisted
  obtain ⟨_ | ⟨row, rest⟩, s'⟩ := r
  case nil =>
    subst hstore
    exact ⟨⟨hkept, hready ▸ h.rows, h.told, by simp, fun _ => hready.trans (hempty rfl)⟩, Nat.zero_le _⟩
  case cons =>
    subst hstore
    refine ⟨.work hkept (hready ▸ h.rows) h.told hkeys fun p hp => hready ▸ hlisted hp, ?_⟩
    simp [FlushCall.weight, FlushCall.phaseWeight, hready]

theorem step_listed (h : Flushing systemID latest s₀ ⟨.work f rest, s, pushed⟩) (hp : f.phase = .listed) :
    StepsOn systemID latest s₀ ⟨.work f rest, s, pushed⟩ e := by
  have hb := h.batch rfl
  have hrows := h.rows
  simp only [FlushCall.marking, hp, reduceCtorEq, if_false] at hrows
  simp only [StepsOn, FlushCall.step, FlushLoop.step_listed hp, FlushCall.pushes, hp, reduceCtorEq, if_false,
    List.append_nil]
  refine ⟨of_batch ?_ h.kept hrows h.told, ?_⟩
  case refine_1 =>
    have hcurrent := hb.current (by simp [hp]) (by simp [hp])
    exact hb.become (by simp) (fun _ _ => hcurrent) hb.listed (by simp)
  case refine_2 => simp [FlushCall.weight, FlushCall.phaseWeight, hp, Flush.become]

theorem step_push (h : Flushing systemID latest s₀ ⟨.work f rest, s, pushed⟩) (hp : f.phase = .push)
    (hu : FlushCall.Undisturbed latest ⟨.work f rest, s, pushed⟩ e) :
    StepsOn systemID latest s₀ ⟨.work f rest, s, pushed⟩ e := by
  have hb := h.batch rfl
  have hrows := h.rows
  simp only [FlushCall.marking, hp, reduceCtorEq, if_false] at hrows
  simp only [StepsOn, FlushCall.step, FlushLoop.step_push hp hu.taken, FlushCall.pushes, hp, if_true]
  refine ⟨of_batch ?_ h.kept ?_ ?_, ?_⟩
  case refine_1 =>
    have hcurrent := hb.current (by simp [hp]) (by simp [hp])
    exact hb.become (by simp) (fun _ _ => hcurrent) hb.listed (by simp)
  case refine_2 =>
    -- The receipt is pushed, and its row is still ready.
    simp only [FlushCall.marking, Flush.become, if_true, List.map_append, List.map_singleton, List.append_assoc,
      List.singleton_append]
    exact List.perm_middle.trans (hrows.cons _)
  case refine_3 =>
    intro x hx
    obtain hx | hx := List.mem_append.mp hx
    case inl => exact h.told x hx
    case inr =>
      obtain rfl := List.mem_singleton.mp hx
      exact ⟨rfl, rfl⟩
  case refine_4 => simp [FlushCall.weight, FlushCall.phaseWeight, hp, Flush.become]

theorem step_mark (h : Flushing systemID latest s₀ ⟨.work f rest, s, pushed⟩) (hp : f.phase = .mark) :
    StepsOn systemID latest s₀ ⟨.work f rest, s, pushed⟩ e := by
  have hb := h.batch rfl
  have hrow := hb.current (by simp [hp]) (by simp [hp])
  have hcur := lookup_row h.kept hrow
  have hready := MemoryStore.readyRows_markDLRDelivered hcur hrow
  have hkept := h.kept.markDLRDelivered hb.begun hcur
  have hrows := h.rows
  simp only [FlushCall.marking, hp, if_true, List.singleton_append] at hrows
  simp only [StepsOn, FlushCall.step, FlushLoop.step_mark hp hcur, FlushCall.pushes, hp, reduceCtorEq, if_false,
    List.append_nil]
  refine ⟨of_batch ?_ hkept ?_ h.told, ?_⟩
  case refine_1 =>
    obtain ⟨hnot, _⟩ := List.nodup_cons.mp hb.keys
    have hlisted : ∀ row ∈ rest, row ∈ (s.markDLRDelivered f.row.provider f.row.providerID).2.readyRows systemID := by
      intro row hr
      obtain hr' | hr' := List.mem_append.mp (hready.mem_iff.mpr (hb.listed row hr))
      case inl => exact hr'
      case inr =>
        obtain rfl := List.mem_singleton.mp hr'
        exact absurd (List.mem_map_of_mem hr) hnot
    exact hb.become (by simp) (by simp) hlisted (by simp)
  case refine_2 =>
    simp only [FlushCall.marking, Flush.become, reduceCtorEq, if_false, List.nil_append]
    apply (List.perm_cons f.row).mp
    refine List.Perm.trans ?_ hrows
    refine List.Perm.trans ?_ (hready.append_left _)
    rw [← List.append_assoc]
    exact (List.perm_append_singleton _ _).symm
  case refine_3 =>
    have hlen := hready.length_eq
    simp only [List.length_append, List.length_singleton] at hlen
    simp only [FlushCall.weight, FlushCall.phaseWeight, hp, Flush.become]
    omega

theorem clear_of_aggregateDLR {now : Time} {gatewayID : Str} (hu : s.Unmixed)
    (h : (aggregateDLR (s.listPendingByGatewayID now gatewayID).1).allDelivered) {k : Str} {p : Pending}
    (hp : (s.sweepLocked now).pending.lookup k = some p) (hr : p.dlrReady) : p.gatewayID ≠ gatewayID := by
  intro hg
  have hmem : p ∈ (s.listPendingByGatewayID now gatewayID).1 := by
    refine (List.perm_insertionSort _ _).mem_iff.mpr (List.mem_filter.mpr ⟨?_, decide_eq_true hg⟩)
    exact List.mem_map.mpr ⟨⟨k, p⟩, Map.mem_entries_iff.mpr hp, rfl⟩
  rw [MemoryStore.sweepLocked_lookup, Option.filter_eq_some_iff] at hp
  exact hu hp.1 hr (allDelivered_of_aggregateDLR h p hmem)

theorem step_relist (hs : systemID ≠ []) (h : Flushing systemID latest s₀ ⟨.work f rest, s, pushed⟩)
    (hp : f.phase = .relist) (hu : FlushCall.Undisturbed latest ⟨.work f rest, s, pushed⟩ e) :
    StepsOn systemID latest s₀ ⟨.work f rest, s, pushed⟩ e := by
  have hb := h.batch rfl
  have hkept := h.kept.sweepLocked hu.time
  have hready : (s.sweepLocked e.move.now).readyRows systemID = s.readyRows systemID :=
    MemoryStore.readyRows_sweepLocked
  have hlisted : ∀ row ∈ rest, row ∈ (s.sweepLocked e.move.now).readyRows systemID :=
    fun row hr => hready ▸ hb.listed row hr
  have hrows := h.rows
  simp only [FlushCall.marking, hp, reduceCtorEq, if_false] at hrows
  rw [← hready] at hrows
  simp only [StepsOn, FlushCall.step, FlushLoop.step_relist hp, FlushCall.pushes, hp, reduceCtorEq, if_false,
    List.append_nil]
  split
  case isTrue hd =>
    refine ⟨of_batch ?_ hkept hrows h.told, ?_⟩
    case refine_1 =>
      have hall := (Bool.and_eq_true_iff.mp hd).2
      exact hb.become (by simp) (by simp) hlisted fun _ => clear_of_aggregateDLR h.kept.unmixed hall
    case refine_2 => simp [FlushCall.weight, FlushCall.phaseWeight, hp, Flush.become, hready]
  case isFalse =>
    have ⟨hnext, hweight⟩ := next hs hkept hrows h.told (List.nodup_cons.mp hb.keys).2 hlisted
    refine ⟨hnext, hweight.trans ?_⟩
    simp [FlushCall.weight, FlushCall.phaseWeight, hp, hready]

theorem step_delete (hs : systemID ≠ []) (h : Flushing systemID latest s₀ ⟨.work f rest, s, pushed⟩)
    (hp : f.phase = .delete) : StepsOn systemID latest s₀ ⟨.work f rest, s, pushed⟩ e := by
  have hb := h.batch rfl
  have hkept := h.kept.deletePendingByGatewayID hb.begun
  have hready : (s.deletePendingByGatewayID f.row.gatewayID).2.readyRows systemID = s.readyRows systemID :=
    MemoryStore.readyRows_filter (fun hk hr => decide_eq_true (hb.clear hp hk hr)) rfl
  have hlisted : ∀ row ∈ rest, row ∈ (s.deletePendingByGatewayID f.row.gatewayID).2.readyRows systemID :=
    fun row hr => hready ▸ hb.listed row hr
  have hrows := h.rows
  simp only [FlushCall.marking, hp, reduceCtorEq, if_false] at hrows
  rw [← hready] at hrows
  simp only [StepsOn, FlushCall.step, FlushLoop.step_delete hp, FlushCall.pushes, hp, reduceCtorEq, if_false,
    List.append_nil]
  have ⟨hnext, hweight⟩ := next hs hkept hrows h.told (List.nodup_cons.mp hb.keys).2 hlisted
  refine ⟨hnext, hweight.trans ?_⟩
  simp [FlushCall.weight, FlushCall.phaseWeight, hp, hready]

theorem step (hs : systemID ≠ []) (h : Flushing systemID latest s₀ c) (hu : FlushCall.Undisturbed latest c e) :
    StepsOn systemID latest s₀ c e := by
  obtain ⟨_ | ⟨f, rest⟩ | _, s, pushed⟩ := c
  case list => exact step_list hs h hu
  case work =>
    cases hp : f.phase
    case listed => exact step_listed h hp
    case push => exact step_push h hp hu
    case mark => exact step_mark h hp
    case relist => exact step_relist hs h hp hu
    case delete => exact step_delete hs h hp
    case done => exact absurd hp (h.batch rfl).working
  case done =>
    simp only [StepsOn, FlushCall.step, FlushLoop.step, FlushCall.pushes, List.append_nil]
    exact ⟨h, Nat.zero_le _⟩

end Flushing

variable {systemID : Str} {latest : Time} {s : MemoryStore} {es : List FlushMove}

theorem Flushing.run (hs : systemID ≠ []) (hk : s.Keyed) (hu : s.Unmixed)
    (h : Along (FlushCall.step systemID) (FlushCall.Undisturbed latest) { store := s } es) :
    Flushing systemID latest s (Machine.run (FlushCall.step systemID) { store := s } es) :=
  invariant (.start hk hu) h fun _ _ hf hu => (hf.step hs hu).1

theorem FlushCall.returns (hs : systemID ≠ []) (hk : s.Keyed) (hu : s.Unmixed)
    (h : Along (FlushCall.step systemID) (FlushCall.Undisturbed latest) { store := s } es)
    (hlong : 8 * (s.readyRows systemID).length + 7 ≤ es.length) :
    (Machine.run (FlushCall.step systemID) { store := s } es).loop = .done := by
  have hbegin : Flushing systemID latest s { store := s } := .start hk hu
  have hle := measure_run_le (FlushCall.weight systemID) hbegin h fun _ _ hf hu => hf.step hs hu
  generalize Machine.run (FlushCall.step systemID) { store := s } es = c at hle
  have hstart : FlushCall.weight systemID { store := s } = 8 * (s.readyRows systemID).length + 7 := rfl
  obtain ⟨_ | ⟨f, rest⟩ | _, s', pushed⟩ := c
  case list => simp only [FlushCall.weight] at hle; omega
  case work =>
    have hpos : 0 < FlushCall.phaseWeight f.phase := by cases f.phase <;> decide
    simp only [FlushCall.weight] at hle
    omega
  case done => rfl

theorem FlushCall.flush_complete (hs : systemID ≠ []) (hk : s.Keyed) (hu : s.Unmixed)
    (h : Along (FlushCall.step systemID) (FlushCall.Undisturbed latest) { store := s } es)
    (hlong : 8 * (s.readyRows systemID).length + 7 ≤ es.length) :
    let c := Machine.run (FlushCall.step systemID) { store := s } es
    c.loop = .done ∧
    (c.pushed.map (·.1)).Perm (s.readyRows systemID) ∧
    (∀ x ∈ c.pushed, x.2.state = x.1.dlrState ∧ x.2.errorCode = x.1.dlrErrorCode) ∧
    c.store.readyRows systemID = [] ∧
    ∀ k p, (∀ q ∈ s.readyRows systemID, q.gatewayID ≠ p.gatewayID) →
      (c.store.pending.lookup k = some p → s.pending.lookup k = some p) ∧
      (s.pending.lookup k = some p → p.live latest → c.store.pending.lookup k = some p) := by
  intro c
  have hdone : c.loop = .done := FlushCall.returns hs hk hu h hlong
  have hf : Flushing systemID latest s c := .run hs hk hu h
  have hempty := hf.ended hdone
  have hrows := hf.rows
  rw [hempty, List.append_nil, hdone] at hrows
  exact ⟨hdone, hrows, hf.told, hempty, fun k p ho => ⟨hf.kept.old ho, hf.kept.spared ho⟩⟩

def readySegment : Pending where
  provider     := lit "p"
  providerID   := lit "1"
  gatewayID    := lit "g"
  sourceSystem := lit "esme"
  segmentCount := 2
  dlrReady     := true
  dlrState     := lit "DELIVRD"

def staleRow : Pending where
  provider   := lit "p"
  providerID := lit "2"
  gatewayID  := lit "h"
  expiresAt  := 1

def staleStore : MemoryStore :=
  { newMemory with pending := Map.insertAll Pending.key (·) ∅ [readySegment, staleRow] }

def flushMove (rows : List Pending) : FlushMove where
  order := rows.map Pending.key
  move  := { now := 2 }

theorem MemoryStore.Keyed.of_entries (h : ∀ e ∈ s.pending.entries, e.2.key = e.1) : s.Keyed :=
  fun hp => Map.forall_lookup (P := fun k p => p.key = k) h hp

theorem MemoryStore.Unmixed.of_entries (h : ∀ e ∈ s.pending.entries, e.2.dlrReady → ¬e.2.dlrDelivered) : s.Unmixed :=
  fun hp => Map.forall_lookup (P := fun _ p => p.dlrReady → ¬p.dlrDelivered) h hp

def secondSegment : Pending :=
  { readySegment with providerID := lit "3", segmentIndex := 2 }

def singleRow : Pending :=
  { readySegment with providerID := lit "4", gatewayID := lit "i", segmentCount := 1 }

def otherSystem : Pending :=
  { readySegment with providerID := lit "5", gatewayID := lit "j", sourceSystem := lit "mail" }

def mixedStore : MemoryStore :=
  { newMemory with pending := Map.insertAll Pending.key (·) ∅ [readySegment, secondSegment, singleRow, otherSystem] }

theorem FlushCall.flush_complete_mixed :
    let es := List.replicate 10 (flushMove [readySegment, secondSegment, singleRow, otherSystem]) ++
      List.replicate 5 (flushMove [singleRow, otherSystem]) ++ List.replicate 16 (flushMove [otherSystem])
    let c := Machine.run (FlushCall.step (lit "esme")) { store := mixedStore } es
    c.loop = .done ∧ (c.pushed.map (·.1)).Perm [readySegment, secondSegment, singleRow] ∧
    c.store.pending.lookup otherSystem.key = some otherSystem := by
  intro es
  have hkeyed : mixedStore.Keyed := MemoryStore.Keyed.of_entries (by decide +kernel)
  have hunmixed : mixedStore.Unmixed := MemoryStore.Unmixed.of_entries (by decide +kernel)
  have hrun : Along (FlushCall.step (lit "esme")) (FlushCall.Undisturbed 2) { store := mixedStore } es := by
    decide +kernel
  have h := FlushCall.flush_complete (by decide) hkeyed hunmixed hrun (by decide +kernel)
  have hready : (mixedStore.readyRows (lit "esme")).Perm [readySegment, secondSegment, singleRow] := by decide +kernel
  exact ⟨h.1, h.2.1.trans hready, (h.2.2.2.2 otherSystem.key otherSystem (by decide +kernel)).2 (by decide +kernel) rfl⟩

-- The first listing sweeps the store, and the row of the other message is gone.
theorem FlushCall.flush_sweeps_others :
    staleStore.Keyed ∧ staleStore.Unmixed ∧
    let es := flushMove [readySegment, staleRow] :: List.replicate 5 (flushMove [readySegment])
    let c := Machine.run (FlushCall.step (lit "esme")) { store := staleStore } es
    Along (FlushCall.step (lit "esme")) (FlushCall.Undisturbed 2) { store := staleStore } es ∧
    c.loop matches .done ∧
    staleStore.readyRows (lit "esme") = [readySegment] ∧ staleRow.gatewayID ≠ readySegment.gatewayID ∧
    staleStore.pending.lookup staleRow.key = some staleRow ∧ c.store.pending.lookup staleRow.key = none := by
  refine ⟨?_, ?_, ?_⟩
  case refine_1 => exact MemoryStore.Keyed.of_entries (by decide +kernel)
  case refine_2 => exact MemoryStore.Unmixed.of_entries (by decide +kernel)
  case refine_3 => decide +kernel

end SmppGateway
