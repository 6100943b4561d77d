import SmppGateway.Store.File

-- The life of an outbox row over calls, failed writes and restarts.

namespace SmppGateway

open Go Machine

namespace FileStore

variable {s : FileStore} {op : StoreOp} {ok : Bool}

@[simp]
theorem call_mem : (s.call op ok).2.mem = (op.exec s.mem).2 := by
  unfold call
  repeat' split
  all_goals simp_all

theorem call_disk :
    (s.call op ok).2.disk =
      if s.writes op ok then some (op.exec s.mem).2.snapshot.json else s.disk := by
  unfold call writes
  repeat' split
  all_goals simp_all

theorem call_value : (s.call op ok).1.value = (op.exec s.mem).1.toOption := by
  unfold call
  repeat' split
  all_goals simp_all [Except.toOption]

theorem call_err_none (h : (s.call op ok).1.err = none) :
    ∃ r, (op.exec s.mem).1 = .ok r ∧ (r.persists → s.writes op ok) := by
  unfold call at h
  unfold writes
  repeat' split at h
  all_goals simp_all

end FileStore

structure SnapshotWF (snap : FileSnapshot) : Prop where
  keyed   : ∀ {k item}, snap.outbox.lookup k = some item → item.id = k
  bounded : ∀ {k item}, snap.outbox.lookup k = some item → k ≤ snap.nextOutbox

namespace MemoryStore

variable {s : MemoryStore} {snap : FileSnapshot} {k : Int} {item : OutboxItem}

theorem snapshot_lookup :
    s.snapshot.json.outbox.lookup k = (s.outbox.lookup k).map OutboxItem.json :=
  Map.lookup_mapVal

theorem load_lookup : (load snap).outbox.lookup k = (snap.outbox.lookup k).map reloadItem :=
  Map.lookup_mapVal

theorem reloadItem_id : (reloadItem item).id = item.id := by
  unfold reloadItem; split <;> rfl

theorem reloadItem_sealed (h : item.state.IsSealed) : reloadItem item = item := by
  unfold reloadItem
  split
  case isTrue hc => simp [hc, OutboxState.IsSealed, OutboxState.IsFinal] at h
  case isFalse => rfl

theorem snapshot_wf (wf : OutboxWF s) : SnapshotWF s.snapshot.json where
  keyed h := by
    obtain ⟨item, hl, rfl⟩ := Option.map_eq_some_iff.mp (snapshot_lookup ▸ h)
    have hk := wf.keyed hl
    exact hk
  bounded h := by
    obtain ⟨item, hl, rfl⟩ := Option.map_eq_some_iff.mp (snapshot_lookup ▸ h)
    exact wf.bounded hl

theorem load_wf (wf : SnapshotWF snap) : OutboxWF (load snap) where
  keyed h := by
    obtain ⟨item, hl, rfl⟩ := Option.map_eq_some_iff.mp (load_lookup ▸ h)
    exact reloadItem_id.trans (wf.keyed hl)
  bounded h := by
    obtain ⟨item, hl, rfl⟩ := Option.map_eq_some_iff.mp (load_lookup ▸ h)
    exact (wf.bounded hl).trans (le_max_right _ _)

end MemoryStore

theorem StoreOp.exec_nextOutbox_le {s : MemoryStore} (op : StoreOp) :
    s.nextOutbox ≤ (op.exec s).2.nextOutbox := by
  cases op.exec_nextOutbox (s := s) <;> grind

structure FileWF (s : FileStore) : Prop where
  mem  : OutboxWF s.mem
  disk : ∀ {snap}, s.disk = some snap → SnapshotWF snap
  next : ∀ {snap}, s.disk = some snap → snap.nextOutbox ≤ s.mem.nextOutbox

namespace FileWF

variable {s : FileStore}

theorem empty : FileWF .empty where
  mem    := .newMemory
  disk h := by cases h
  next h := by cases h

theorem call (wf : FileWF s) (op : StoreOp) (ok : Bool) : FileWF (s.call op ok).2 := by
  have hm := op.exec_wf wf.mem
  refine ⟨by simpa using hm, ?_, ?_⟩
  all_goals
    simp only [FileStore.call_disk, FileStore.call_mem]
    split
  case refine_1.isTrue => rintro _ ⟨⟩; exact MemoryStore.snapshot_wf hm
  case refine_1.isFalse => exact wf.disk
  case refine_2.isTrue => rintro _ ⟨⟩; exact le_rfl
  case refine_2.isFalse => exact fun h => (wf.next h).trans op.exec_nextOutbox_le

theorem restart (wf : FileWF s) : FileWF s.restart := by
  cases hd : s.disk
  case none => exact ⟨by simpa [FileStore.restart, hd] using .newMemory, wf.disk,
    fun h => by cases hd.symm.trans h⟩
  case some snap =>
    refine ⟨by simpa [FileStore.restart, hd] using MemoryStore.load_wf (wf.disk hd), wf.disk, ?_⟩
    rintro _ h
    cases hd.symm.trans h
    simp [FileStore.restart, hd, MemoryStore.load]

theorem step (wf : FileWF s) : (e : FileEvent) → FileWF (s.step e)
  | .call op ok => wf.call op ok
  | .restart    => wf.restart

theorem run (wf : FileWF s) {es : List FileEvent} : FileWF (run FileStore.step s es) :=
  invariant (G := fun _ _ => True) wf (.of_forall fun _ _ _ => trivial) fun _ e h _ => h.step e

end FileWF

def RowsKept (s t : FileStore) : Prop :=
  ∀ k a, s.mem.outbox.lookup k = some a → ∃ b, t.mem.outbox.lookup k = some b ∧
    (a.state.IsFinal → b.state = a.state) ∧ (a.state.IsSealed → b.state.IsSealed)

theorem RowsKept.trans {s t u : FileStore} (h₁ : RowsKept s t) (h₂ : RowsKept t u) : RowsKept s u := by
  intro k a ha
  obtain ⟨b, hb, hf, hs⟩ := h₁ k a ha
  obtain ⟨c, hc, hf', hs'⟩ := h₂ k b hb
  exact ⟨c, hc, fun h => (hf' (hf h ▸ h)).trans (hf h), hs' ∘ hs⟩

theorem RowsKept.call {s : FileStore} (wf : FileWF s) (op : StoreOp) (ok : Bool) :
    RowsKept s (s.call op ok).2 := by
  intro k a ha
  rw [FileStore.call_mem]
  cases op.exec_row wf.mem k
  case same he => exact ⟨a, he.trans ha, fun _ => rfl, id⟩
  case evolves b hl hd he =>
    cases ha.symm.trans hl
    exact ⟨b, hd, he.final, fun h => (he.sealed h).1⟩
  case new hn _ _ _ => cases ha.symm.trans hn

theorem RowsKept.run {s : FileStore} (wf : FileWF s) {es : List FileEvent}
    (h : ∀ e ∈ es, e.IsCall) : RowsKept s (run FileStore.step s es) := by
  refine relates (P := FileWF) (G := fun _ e => e.IsCall) (fun s k a ha => ⟨a, ha, fun _ => rfl, id⟩)
    RowsKept.trans wf (.of_forall fun _ => h) fun s e wf he => ?_
  cases e
  case call op ok => exact ⟨wf.call op ok, .call wf op ok⟩
  case restart => exact he.elim

structure SealedRow (id : Int) (s : FileStore) : Prop where
  mem  : ∃ a, s.mem.outbox.lookup id = some a ∧ a.state.IsSealed
  disk : ∃ snap a, s.disk = some snap ∧ snap.outbox.lookup id = some a ∧ a.state.IsSealed

namespace SealedRow

variable {s : FileStore} {id : Int} {ok : Bool}

theorem of_writes {op : StoreOp} (hw : s.writes op ok)
    (hm : ∃ a, (op.exec s.mem).2.outbox.lookup id = some a ∧ a.state.IsSealed) : SealedRow id (s.call op ok).2 := by
  obtain ⟨a, ha, hs⟩ := hm
  refine ⟨⟨a, by simpa using ha, hs⟩, _, a.json, by rw [FileStore.call_disk, if_pos hw], ?_, hs⟩
  rw [MemoryStore.snapshot_lookup, ha]
  rfl

theorem mark {workerID : Str} (h : (s.call (.markOutboxSending id workerID) ok).1.err = none) :
    SealedRow id (s.call (.markOutboxSending id workerID) ok).2 := by
  obtain ⟨r, hr, hw⟩ := FileStore.call_err_none h
  obtain ⟨_, hm, rfl⟩ := StoreOp.reply_eq_ok hr
  obtain ⟨b, hb, hs, _⟩ := MemoryStore.markOutboxSending_ok hm
  exact of_writes (hw rfl) ⟨b, hb, .inl hs⟩

theorem step (wf : FileWF s) (h : SealedRow id s) (e : FileEvent) : SealedRow id (s.step e) := by
  obtain ⟨⟨a, ha, hs⟩, snap, d, hd, hl, hds⟩ := h
  cases e
  case call op ok =>
    obtain ⟨b, hb, _, hk⟩ := RowsKept.call wf op ok id a ha
    rw [FileStore.call_mem] at hb
    by_cases hw : s.writes op ok
    case pos => exact of_writes hw ⟨b, hb, hk hs⟩
    case neg =>
      refine ⟨⟨b, by simpa [FileStore.step] using hb, hk hs⟩, snap, d, ?_, hl, hds⟩
      simp only [FileStore.step, FileStore.call_disk, hd, if_neg hw]
  case restart =>
    refine ⟨⟨d, ?_, hds⟩, snap, d, hd, hl, hds⟩
    simp [FileStore.step, FileStore.restart, hd, MemoryStore.load_lookup, hl,
      MemoryStore.reloadItem_sealed hds]

theorem run (wf : FileWF s) (h : SealedRow id s) (es : List FileEvent) :
    SealedRow id (run FileStore.step s es) :=
  (invariant (P := fun s => FileWF s ∧ SealedRow id s) (G := fun _ _ => True) ⟨wf, h⟩
    (.of_forall fun _ _ _ => trivial) fun _ e h _ => ⟨h.1.step e, h.2.step h.1 e⟩).2

theorem not_claimed (wf : FileWF s) (h : SealedRow id s) {now : Time} {workerID : Str} {limit : Int}
    {rows : List OutboxItem} (hr : (s.call (.claimOutbox now workerID limit) ok).1.value = some (.items rows)) :
    ∀ item ∈ rows, item.id ≠ id := by
  rintro item hi rfl
  rw [FileStore.call_value] at hr
  cases hr
  obtain ⟨old, hl, hp, _⟩ := MemoryStore.mem_claimOutbox wf.mem hi
  obtain ⟨a, ha, hs⟩ := h.mem
  cases ha.symm.trans hl
  simp [hp, OutboxState.IsSealed, OutboxState.IsFinal] at hs

end SealedRow

def FileReply.created? (r : FileReply) : Option Int :=
  r.value >>= StoreReply.created?

def FileStore.savedBeforeRestart (s : FileStore) : List FileEvent → Bool
  | []                       => false
  | .restart :: _            => false
  | .call op persistOk :: es =>
    s.writes op persistOk || savedBeforeRestart (s.call op persistOk).2 es

theorem FileStore.call_created {s : FileStore} {op : StoreOp} {ok : Bool} {id : Int}
    (h : (s.call op ok).1.created? = some id) :
    id = s.mem.nextOutbox + 1 ∧ (s.call op ok).2.mem.nextOutbox = id := by
  rw [FileReply.created?, call_value] at h
  cases op.exec_nextOutbox (s := s.mem)
  case inl hc =>
    obtain ⟨r, hr, hid, hn⟩ := hc
    simp [hr, Except.toOption, hid] at h
    exact ⟨h.symm, by rw [call_mem, hn, h]⟩
  case inr hc =>
    cases hr : (op.exec s.mem).1
    case error => simp [hr, Except.toOption] at h
    case ok r => simp [hr, Except.toOption, hc.1 r hr] at h

def IdSaved (id : Int) (s : FileStore) : Prop :=
  id ≤ s.mem.nextOutbox ∧ ∃ snap, s.disk = some snap ∧ id ≤ snap.nextOutbox

namespace IdSaved

variable {s : FileStore} {id : Int} {op : StoreOp} {ok : Bool}

theorem of_writes (hw : s.writes op ok) (h : id ≤ (s.call op ok).2.mem.nextOutbox) :
    IdSaved id (s.call op ok).2 := by
  refine ⟨h, _, by rw [FileStore.call_disk, if_pos hw], ?_⟩
  rwa [FileStore.call_mem] at h

theorem step (h : IdSaved id s) (e : FileEvent) : IdSaved id (s.step e) := by
  obtain ⟨hm, snap, hd, hs⟩ := h
  cases e
  case call op ok =>
    have hm' : id ≤ (s.call op ok).2.mem.nextOutbox := by
      simpa using hm.trans op.exec_nextOutbox_le
    by_cases hw : s.writes op ok
    case pos => exact of_writes hw hm'
    case neg => exact ⟨hm', snap, by simpa [FileStore.step, FileStore.call_disk, hw] using hd, hs⟩
  case restart =>
    refine ⟨?_, snap, hd, hs⟩
    simp only [FileStore.step, FileStore.restart, hd, Option.elim_some, MemoryStore.load]
    exact hs.trans (le_max_right _ _)

theorem run (h : IdSaved id s) {es : List FileEvent} : IdSaved id (run FileStore.step s es) :=
  invariant (G := fun _ _ => True) h (.of_forall fun _ _ _ => trivial) fun _ e h _ => h.step e

theorem of_saved {es : List FileEvent} (hm : id ≤ (s.call op ok).2.mem.nextOutbox)
    (h : s.savedBeforeRestart (.call op ok :: es)) :
    IdSaved id (Machine.run FileStore.step s (.call op ok :: es)) := by
  induction es generalizing s op ok
  case nil =>
    simp only [FileStore.savedBeforeRestart, Bool.or_false] at h
    exact of_writes h hm
  case cons e es hi =>
    rw [FileStore.savedBeforeRestart, Bool.or_eq_true] at h
    cases h
    case inl hw => exact (of_writes hw hm).run
    case inr h =>
      cases e
      case restart => simp [FileStore.savedBeforeRestart] at h
      case call op' ok' =>
        refine hi (s := (s.call op ok).2) (hm.trans (op'.exec_nextOutbox_le.trans_eq ?_)) h
        simp

end IdSaved

theorem FileStore.run_nextOutbox_le {s : FileStore} {es : List FileEvent} (h : ∀ e ∈ es, e.IsCall) :
    s.mem.nextOutbox ≤ (run FileStore.step s es).mem.nextOutbox := by
  have hcalls : Along FileStore.step (fun _ e => e.IsCall) s es := .of_forall fun _ => h
  refine relates (P := fun _ => True) (R := fun s t => s.mem.nextOutbox ≤ t.mem.nextOutbox)
    (fun _ => le_rfl) le_trans trivial hcalls fun s e _ he => ⟨trivial, ?_⟩
  cases e
  case call op ok => simpa [FileStore.step] using op.exec_nextOutbox_le
  case restart => exact he.elim

def FileStore.after (es : List FileEvent) : FileStore :=
  run FileStore.step .empty es

-- In one process final rows keep their state and a row that is being sent can only become final.
-- A row that was marked as sending without an error is never claimed again, in this process or a
-- later one. An id is given out twice only if a restart came in between and nothing was written
-- from the first use of the id up to that restart.
theorem outbox_lifecycle :
    (∀ es es', (∀ e ∈ es', e.IsCall) → RowsKept (.after es) (.after (es ++ es'))) ∧
    (∀ es es' id workerID ok now workerID' limit ok' rows,
      ((FileStore.after es).call (.markOutboxSending id workerID) ok).1.err = none →
      ((FileStore.after (es ++ .call (.markOutboxSending id workerID) ok :: es')).call
        (.claimOutbox now workerID' limit) ok').1.value = some (.items rows) →
      ∀ item ∈ rows, item.id ≠ id) ∧
    (∀ es es' op ok op' ok' id,
      ((FileStore.after es).call op ok).1.created? = some id →
      ((FileStore.after (es ++ .call op ok :: es')).call op' ok').1.created? = some id →
      .restart ∈ es' ∧ (FileStore.after es).savedBeforeRestart (.call op ok :: es') = false) := by
  refine ⟨fun es es' h => ?_, fun es es' id workerID ok now workerID' limit ok' rows hm hr => ?_,
    fun es es' op ok op' ok' id h h' => ?_⟩
  case refine_1 =>
    rw [FileStore.after, FileStore.after, run_append]
    exact .run FileWF.empty.run h
  case refine_2 =>
    have wf : FileWF (.after es) := FileWF.empty.run
    rw [FileStore.after, run_append, run_cons] at hr
    have hs := (SealedRow.mark hm).run (wf.step (.call _ ok)) es'
    exact hs.not_claimed (wf.step (.call _ ok)).run hr
  case refine_3 =>
    have ⟨_, hid⟩ := FileStore.call_created h
    have ⟨hid', _⟩ := FileStore.call_created h'
    rw [FileStore.after, run_append, run_cons] at hid'
    constructor
    case left =>
      by_contra hn
      have hc : ∀ e ∈ es', e.IsCall := by
        intro e he
        cases e
        case call => trivial
        case restart => exact hn he
      have := FileStore.run_nextOutbox_le (s := (FileStore.after es).step (.call op ok)) hc
      simp only [FileStore.after, FileStore.step] at this hid hid'
      omega
    case right =>
      by_contra hs
      have := (IdSaved.of_saved hid.ge (Bool.not_eq_false _ ▸ hs)).1
      simp only [FileStore.after, run_cons] at this hid'
      omega

-- The reuse does happen: the row of a submission whose write failed is lost in a restart, and the
-- next submission gets its id.
theorem outbox_id_reused_after_lost_write :
    let submit (g : Str) : StoreOp :=
      .submitAtomic 1 { id := g } { gatewayID := g, payload := { gatewayID := g } } {}
    let first := submit (lit "m1")
    let second := submit (lit "m2")
    let lost := FileStore.after [.call first false, .restart]
    (FileStore.empty.call first false).1.created? = some 1 ∧
    (lost.call second true).1.created? = some 1 ∧
    (((FileStore.empty.call first false).2.mem.outbox.lookup 1).map (·.gatewayID) ≠
      ((lost.call second true).2.mem.outbox.lookup 1).map (·.gatewayID)) := by
  decide

end SmppGateway
