import SmppGateway.Dispatch.Desk

-- Whether a receipt that was acknowledged is pushed once more. The calls for a row exclude each other by the
-- lock of the row, and the numbers of the receipts are kept beside the desk.

namespace SmppGateway

open Go Machine

-- The index that `lockDLR` computes: FNV-1a over the two strings, each closed by a zero.
def lockDLR (provider providerID : Str) : UInt64 :=
  let mix (hash byte : UInt64) : UInt64 := (hash ^^^ byte) * 1099511628211
  let hash := [provider, providerID].foldl
    (fun hash value => mix (value.foldl (fun hash b => mix hash b.toUInt64) hash) 0) 14695981039346656037
  hash % 256

def Handler.lock? (h : Handler) : Option UInt64 :=
  if h.phase = .done then none else some (lockDLR h.dlr.provider h.dlr.providerID)

def Flush.lock? (f : Flush) : Option UInt64 :=
  match f.phase with
  | .listed | .done => none
  | .push | .mark | .relist | .delete => some (lockDLR f.row.provider f.row.providerID)

namespace Desk

def Free (w : Desk) (lock : UInt64) : Prop :=
  (∀ e ∈ w.handlers.entries, e.2.lock? ≠ some lock) ∧ ∀ e ∈ w.flushes.entries, e.2.lock? ≠ some lock

instance (w : Desk) (lock : UInt64) : Decidable (w.Free lock) :=
  inferInstanceAs (Decidable (_ ∧ _))

-- What the locks allow, where a label stands for one call: a call goes on to a row when no one has its lock, and
-- `FlushDLR` lists again when it has worked off its rows.
def Locked (w : Desk) : DeskEvent → Prop
  | .receive i dlr     => w.handlers.lookup i = none ∧ w.Free (lockDLR dlr.provider dlr.providerID)
  | .listReady i _ _ _ => ∀ e ∈ w.flushes.entries, e.1.1 = i → e.2.lock? = none
  | .flush i k _       =>
    ∀ f ∈ w.flushes.lookup (i, k), f.phase = .listed → w.Free (lockDLR f.row.provider f.row.providerID)
  | _ => True

instance (w : Desk) : (e : DeskEvent) → Decidable (w.Locked e)
  | .receive i dlr     =>
    inferInstanceAs (Decidable (w.handlers.lookup i = none ∧ w.Free (lockDLR dlr.provider dlr.providerID)))
  | .listReady i _ _ _ =>
    inferInstanceAs (Decidable (∀ e ∈ w.flushes.entries, e.1.1 = i → e.2.lock? = none))
  | .flush i k _       =>
    inferInstanceAs (Decidable (∀ f ∈ w.flushes.lookup (i, k), f.phase = .listed →
      w.Free (lockDLR f.row.provider f.row.providerID)))
  | .handle _ _ | .queueFailure _ _ _ | .dropFailure _ => .isTrue trivial

def phaseOf (w : Desk) (i : Nat) : Option HandlerPhase :=
  (w.handlers.lookup i).map Handler.phase

end Desk

-- The desk with a record of what happened. Receipts are numbered in the order in which they are received, by
-- `HandleDLR` or from a failed row.
structure Audit where
  desk     : Desk
  received : Nat := 0
  -- the number of the receipt that a call handles, that a row holds, and that a listed copy holds
  numbers  : Nat → Nat := fun _ => 0
  stamps   : Str → Nat := fun _ => 0
  copies   : Nat × Str → Nat := fun _ => 0
  -- for each acknowledgement the row, and how many receipts had been received by then
  acks     : List (Str × Nat) := []

namespace Audit

def written? (d : Dispatcher) (a : Audit) : DeskEvent → Option (Str × Nat)
  | .handle i _ =>
    match a.desk.phaseOf i with
    | some (.update rec) | some (.ready rec) => some (rec.key, a.numbers i)
    | _ => none
  | .queueFailure now item err =>
    let (state, errorCode) := terminalFailureDLR err
    (d.queueTerminalFailureDLR a.desk.store now .none item state errorCode).1.map (·.key, a.received + 1)
  | _ => none

def acked? (a : Audit) : DeskEvent → Option Str
  | .handle i m =>
    match a.desk.phaseOf i with
    | some (.push rec) => if m.outcome = .accepted then some rec.key else none
    | _ => none
  | .flush i k m =>
    match a.desk.flushes.lookup (i, k) with
    | some f => if f.phase = .push ∧ m.outcome = .accepted then some f.row.key else none
    | none   => none
  | _ => none

def step (d : Dispatcher) (a : Audit) (e : DeskEvent) : Audit where
  desk     := a.desk.step d e
  received := match e with
    | .receive ..      => a.received + 1
    | .queueFailure .. => if (a.written? d e).isSome then a.received + 1 else a.received
    | _                => a.received
  numbers  := match e with
    | .receive i _ => Function.update a.numbers i (a.received + 1)
    | _            => a.numbers
  stamps   := (a.written? d e).elim a.stamps fun (k, n) => Function.update a.stamps k n
  copies   := match e with
    | .listReady i now order systemID => fun x =>
      let rows := (a.desk.store.listReadyDLR now order systemID 500).1
      if x.1 = i ∧ x.2 ∈ rows.map Pending.key then a.stamps x.2 else a.copies x
    | _ => a.copies
  acks     := match a.acked? e with
    | some k => (k, a.received) :: a.acks
    | none   => a.acks

def Fresh (a : Audit) : DeskEvent → Prop
  | .handle i _  => ∀ h rec, a.desk.handlers.lookup i = some h → h.phase = .push rec →
      ∀ c, (rec.key, c) ∈ a.acks → c < a.numbers i
  | .flush i k _ => ∀ f, a.desk.flushes.lookup (i, k) = some f → f.phase = .push →
      ∀ c, (f.row.key, c) ∈ a.acks → c < a.copies (i, k)
  | _ => True

-- A row that is flushed is still ready, and no receipt was recorded in it since it was listed.
def Current (a : Audit) : DeskEvent → Prop
  | .flush i k _ => ∀ f ∈ a.desk.flushes.lookup (i, k), f.phase = .push →
      (∃ p ∈ a.desk.store.pending.lookup f.row.key, p.dlrReady) ∧ a.stamps f.row.key = a.copies (i, k)
  | _ => True

instance (a : Audit) : (e : DeskEvent) → Decidable (a.Current e)
  | .flush i k _ =>
    inferInstanceAs (Decidable (∀ f ∈ a.desk.flushes.lookup (i, k), f.phase = .push →
      (∃ p ∈ a.desk.store.pending.lookup f.row.key, p.dlrReady) ∧ a.stamps f.row.key = a.copies (i, k)))
  | .receive .. | .handle .. | .listReady .. | .queueFailure .. | .dropFailure _ => .isTrue trivial

end Audit

def DeskEvent.Plain : DeskEvent → Prop
  | receive _ dlr         => 0 ∉ dlr.provider
  | queueFailure _ item _ => 0 ∉ item.payload.provider
  | _                     => True

instance : (e : DeskEvent) → Decidable e.Plain
  | .receive _ dlr         => inferInstanceAs (Decidable (0 ∉ dlr.provider))
  | .queueFailure _ item _ => inferInstanceAs (Decidable (0 ∉ item.payload.provider))
  | .handle .. | .listReady .. | .flush .. | .dropFailure _ => .isTrue trivial

inductive Holder
  | handler (i : Nat)
  | flush (i : Nat) (k : Str)
  deriving DecidableEq

namespace Desk

variable {d : Dispatcher} {w : Desk} {e : DeskEvent} {x : Holder} {lock : UInt64}

def lockOf (w : Desk) : Holder → Option UInt64
  | .handler i => w.handlers.lookup i >>= Handler.lock?
  | .flush i k => w.flushes.lookup (i, k) >>= Flush.lock?

def Exclusive (w : Desk) : Prop :=
  ∀ x y lock, w.lockOf x = some lock → w.lockOf y = some lock → x = y

theorem Free.lockOf (h : w.Free lock) (x : Holder) : w.lockOf x ≠ some lock := by
  intro hl
  cases x
  case handler i =>
    obtain ⟨c, hc, hl⟩ := Option.bind_eq_some_iff.mp hl
    exact h.1 _ (Map.mem_entries_iff.mpr hc) hl
  case flush i k =>
    obtain ⟨f, hf, hl⟩ := Option.bind_eq_some_iff.mp hl
    exact h.2 _ (Map.mem_entries_iff.mpr hf) hl

end Desk

theorem Handler.step_lock {s : MemoryStore} {h : Handler} {m : HandlerMove} {lock : UInt64}
    (hl : (h.step s m).1.lock? = some lock) : h.lock? = some lock := by
  obtain ⟨hprovider, hid⟩ := h.step_dlr s m
  unfold lock? at hl ⊢
  by_cases hp : h.phase = .done
  case pos =>
    have hdone : (h.step s m).1.phase = .done := by simp only [step, hp]
    simp [hdone] at hl
  case neg =>
    split at hl
    case isTrue => cases hl
    case isFalse => rw [if_neg hp, ← hl, hprovider, hid]

theorem Flush.step_lock {s : MemoryStore} {f : Flush} {m : HandlerMove} {lock : UInt64}
    (hl : (f.step s m).1.lock? = some lock) :
    f.lock? = some lock ∨ f.phase = .listed ∧ lock = lockDLR f.row.provider f.row.providerID := by
  have hrow := f.step_row s m
  have hsame : lock = lockDLR f.row.provider f.row.providerID := by
    unfold lock? at hl
    split at hl
    case h_1 | h_2 => cases hl
    all_goals
      rw [hrow] at hl
      exact (Option.some.inj hl).symm
  cases hp : f.phase
  case listed => exact .inr ⟨rfl, hsame⟩
  case done =>
    simp only [step, hp] at hl
    exact .inl hl
  all_goals exact .inl (by simp [lock?, hp, hsame])

namespace Desk

variable {d : Dispatcher} {w : Desk} {e : DeskEvent} {x : Holder} {lock : UInt64}

def Takes (x : Holder) : DeskEvent → Prop
  | .receive i _ => x = .handler i
  | .flush i k _ => x = .flush i k
  | _            => False

theorem lockOf_insert_handler {i : Nat} {h : Handler} :
    { w with handlers := w.handlers.insert i h }.lockOf x =
      if x = .handler i then h.lock? else w.lockOf x := by
  cases x
  case flush => simp [lockOf]
  case handler j =>
    by_cases hj : j = i
    case pos => subst hj; simp [lockOf]
    case neg => simp [lockOf, hj]

theorem lockOf_insert_flush {i : Nat} {k : Str} {f : Flush} :
    { w with flushes := w.flushes.insert (i, k) f }.lockOf x =
      if x = .flush i k then f.lock? else w.lockOf x := by
  cases x
  case handler => simp [lockOf]
  case flush j k' =>
    by_cases hj : (j, k') = (i, k)
    case pos => cases hj; simp [lockOf]
    case neg =>
      have hne : Holder.flush j k' ≠ .flush i k := fun h => hj (by cases h; rfl)
      simp [lockOf, hne, AList.lookup_insert_ne hj]

theorem lockOf_step (hlocked : w.Locked e) (hl : (w.step d e).lockOf x = some lock) :
    w.lockOf x = some lock ∨ w.Free lock ∧ Takes x e := by
  cases e
  case receive i dlr =>
    change { w with handlers := w.handlers.insert i { dlr } }.lockOf x = some lock at hl
    rw [lockOf_insert_handler] at hl
    split at hl
    case isFalse => exact .inl hl
    case isTrue hx =>
      have hlock : lockDLR dlr.provider dlr.providerID = lock := by simpa [Handler.lock?] using hl
      exact .inr ⟨hlock ▸ hlocked.2, hx⟩
  case handle i m =>
    simp only [step] at hl
    split at hl
    case h_1 => exact .inl hl
    case h_2 h hi =>
      change { w with handlers := w.handlers.insert i (h.step w.store m).1 }.lockOf x = some lock at hl
      rw [lockOf_insert_handler] at hl
      split at hl
      case isFalse => exact .inl hl
      case isTrue hx =>
        subst hx
        exact .inl (Option.bind_eq_some_iff.mpr ⟨h, hi, Handler.step_lock hl⟩)
  case listReady i now order systemID =>
    refine .inl ?_
    cases x
    case handler => exact hl
    case flush j k =>
      obtain ⟨f, hf, hlock⟩ := Option.bind_eq_some_iff.mp hl
      rcases Map.lookup_insertAll_eq_some hf with ⟨row, -, -, rfl⟩ | ⟨hold, -⟩
      case inl => cases hlock
      case inr => exact Option.bind_eq_some_iff.mpr ⟨f, hold, hlock⟩
  case flush i k m =>
    simp only [step] at hl
    split at hl
    case h_1 => exact .inl hl
    case h_2 f hi =>
      change { w with flushes := w.flushes.insert (i, k) (f.step w.store m).1 }.lockOf x = some lock at hl
      rw [lockOf_insert_flush] at hl
      split at hl
      case isFalse => exact .inl hl
      case isTrue hx =>
        rcases Flush.step_lock hl with hold | ⟨hp, rfl⟩
        case inl =>
          subst hx
          exact .inl (Option.bind_eq_some_iff.mpr ⟨f, hi, hold⟩)
        case inr => exact .inr ⟨hlocked f hi hp, hx⟩
  case queueFailure => exact .inl hl
  case dropFailure => exact .inl hl

theorem Takes.unique {y : Holder} (h : Takes x e) (h' : Takes y e) : x = y := by
  cases e
  case receive | flush => exact Eq.trans h (Eq.symm h')
  all_goals cases h

theorem Exclusive.step (hw : w.Exclusive) (hlocked : w.Locked e) : (w.step d e).Exclusive := by
  intro x y lock hx hy
  rcases lockOf_step hlocked hx with hx | ⟨hfree, htx⟩ <;> rcases lockOf_step hlocked hy with hy | ⟨hfree', hty⟩
  case inl.inl => exact hw x y lock hx hy
  case inl.inr => exact absurd hx (hfree'.lockOf x)
  case inr.inl => exact absurd hy (hfree.lockOf y)
  case inr.inr => exact htx.unique hty

end Desk

def HandlerPhase.Unacked : HandlerPhase → Prop
  | lookup | update _ | list _ | write .. | push _ | ready _ => True
  | mark _ | relist _ | delete _ | done                      => False

namespace Desk

variable {d : Dispatcher} {w : Desk} {e : DeskEvent} {x y : Holder} {k : Str}

def keyOf (w : Desk) : Holder → Option Str
  | .handler i => (w.handlers.lookup i).bind fun h => if h.phase = .done then none else some h.dlr.key
  | .flush i k => (w.flushes.lookup (i, k)).bind fun f => if f.lock? = none then none else some f.row.key

def Marks (w : Desk) (k : Str) : Holder → Prop
  | .handler i  => ∃ h rec, w.handlers.lookup i = some h ∧ h.phase = .mark rec ∧ rec.key = k
  | .flush i k' => ∃ f, w.flushes.lookup (i, k') = some f ∧ f.phase = .mark ∧ f.row.key = k

structure Tidy (w : Desk) : Prop where
  keyed    : w.store.Keyed
  plain    : ∀ {k p}, w.store.pending.lookup k = some p → 0 ∉ p.provider
  handlers : ∀ {i h}, w.handlers.lookup i = some h →
    0 ∉ h.dlr.provider ∧ ∀ rec, h.phase.record = some rec → rec.key = h.dlr.key
  flushes  : ∀ {i k f}, w.flushes.lookup (i, k) = some f → 0 ∉ f.row.provider ∧ f.row.key = k

theorem Tidy.lockOf (ht : w.Tidy) (hx : w.keyOf x = some k) :
    ∃ provider providerID, 0 ∉ provider ∧ pendingKey provider providerID = k ∧
      w.lockOf x = some (lockDLR provider providerID) := by
  cases x
  case handler i =>
    obtain ⟨h, hi, hx⟩ := Option.bind_eq_some_iff.mp hx
    split at hx
    case isTrue => cases hx
    case isFalse hp =>
      cases hx
      exact ⟨_, _, (ht.handlers hi).1, rfl, by simp [Desk.lockOf, hi, Handler.lock?, hp]⟩
  case flush i k' =>
    obtain ⟨f, hf, hx⟩ := Option.bind_eq_some_iff.mp hx
    split at hx
    case isTrue => cases hx
    case isFalse hp =>
      cases hx
      refine ⟨_, _, (ht.flushes hf).1, rfl, ?_⟩
      simp only [Desk.lockOf, hf, Option.bind_eq_bind, Option.bind_some]
      unfold Flush.lock? at hp ⊢
      split at hp <;> simp_all

theorem Tidy.holder_unique (ht : w.Tidy) (hw : w.Exclusive) (hx : w.keyOf x = some k) (hy : w.keyOf y = some k) :
    x = y := by
  obtain ⟨p, id, hp, rfl, hlx⟩ := ht.lockOf hx
  obtain ⟨q, id', hq, hk, hly⟩ := ht.lockOf hy
  obtain ⟨rfl, rfl⟩ := pendingKey_inj hq hp hk
  exact hw x y _ hlx hly

theorem Marks.keyOf (ht : w.Tidy) (h : w.Marks k x) : w.keyOf x = some k := by
  cases x
  case handler i =>
    obtain ⟨h, rec, hi, hp, rfl⟩ := h
    have hk := (ht.handlers hi).2 rec (by rw [hp]; rfl)
    simp [Desk.keyOf, hi, hp, hk]
  case flush i k' =>
    obtain ⟨f, hf, hp, rfl⟩ := h
    simp [Desk.keyOf, hf, Flush.lock?, hp]

end Desk

theorem Handler.Writes.key {h : Handler} {k : Str} {p p' : Pending} (hw : h.Writes k p p') :
    p'.provider = p.provider ∧ p'.key = p.key := by
  cases hw <;> exact ⟨rfl, rfl⟩

namespace Desk

variable {d : Dispatcher} {w : Desk} {e : DeskEvent} {x y : Holder} {k : Str}

theorem RowStep.key {p' : Pending} (hr : RowStep d w k e p') (ht : w.Tidy) (hplain : e.Plain) :
    p'.key = k ∧ 0 ∉ p'.provider := by
  cases hr
  case same hrow => exact ⟨ht.keyed hrow, ht.plain hrow⟩
  case handled hrow hwrites => rw [hwrites.key.1, hwrites.key.2]; exact ⟨ht.keyed hrow, ht.plain hrow⟩
  case flushed hrow _ _ =>
    have hkey := ht.keyed hrow
    have hplain := ht.plain hrow
    exact ⟨hkey, hplain⟩
  case queued made _ hkey => exact ⟨hkey, by rw [made]; exact hplain⟩

theorem Tidy.handler_step (ht : w.Tidy) {i : Nat} {h : Handler} (hi : w.handlers.lookup i = some h)
    (m : HandlerMove) : 0 ∉ (h.step w.store m).1.dlr.provider ∧
      ∀ rec, (h.step w.store m).1.phase.record = some rec → rec.key = (h.step w.store m).1.dlr.key := by
  obtain ⟨hprovider, hid⟩ := h.step_dlr w.store m
  obtain ⟨hplain, hrec⟩ := ht.handlers hi
  have hkey : (h.step w.store m).1.dlr.key = h.dlr.key := by rw [Dlr.key, hprovider, hid, Dlr.key]
  refine ⟨by rw [hprovider]; exact hplain, fun rec hr => ?_⟩
  rw [hkey]
  rcases Handler.step_record hr with ⟨old, hold, hp, hid, -⟩ | ⟨-, hrow⟩
  case inl =>
    rw [← hrec old hold, Pending.key, hp, hid, Pending.key]
  case inr => exact ht.keyed hrow

theorem Tidy.step (ht : w.Tidy) (hplain : e.Plain) : (w.step d e).Tidy where
  keyed hp := ((rowStep hp).key ht hplain).1
  plain hp := ((rowStep hp).key ht hplain).2
  handlers {i h} hi := by
    cases e
    case receive j dlr =>
      simp only [Desk.step, Map.lookup_insert_eq] at hi
      split at hi
      case isTrue => cases hi; exact ⟨hplain, by simp [HandlerPhase.record]⟩
      case isFalse => exact ht.handlers hi
    case handle j m =>
      simp only [Desk.step] at hi
      split at hi
      case h_1 => exact ht.handlers hi
      case h_2 h' hj =>
        simp only [Map.lookup_insert_eq] at hi
        split at hi
        case isTrue => cases hi; exact ht.handler_step hj m
        case isFalse => exact ht.handlers hi
    case flush j k' m =>
      simp only [Desk.step] at hi
      split at hi <;> exact ht.handlers hi
    all_goals exact ht.handlers hi
  flushes {i k f} hf := by
    cases e
    case handle j m =>
      simp only [Desk.step] at hf
      split at hf <;> exact ht.flushes hf
    case listReady j now order systemID =>
      rcases Map.lookup_insertAll_eq_some hf with ⟨row, hm, hk, rfl⟩ | ⟨hold, -⟩
      case inr => exact ht.flushes hold
      case inl =>
        obtain ⟨k', -, hrow⟩ := List.mem_filterMap.mp (List.mem_filter.mp (List.mem_of_mem_take hm)).1
        rw [MemoryStore.sweepLocked_lookup, Option.filter_eq_some_iff] at hrow
        exact ⟨ht.plain hrow.1, (Prod.mk.inj hk).2⟩
    case flush j k' m =>
      simp only [Desk.step] at hf
      split at hf
      case h_1 => exact ht.flushes hf
      case h_2 f' hj =>
        simp only [Map.lookup_insert_eq] at hf
        split at hf
        case isFalse => exact ht.flushes hf
        case isTrue hk =>
          cases hf
          cases hk
          rw [f'.step_row]
          exact ht.flushes hj
    all_goals exact ht.flushes hf

theorem Marks.step (hm : w.Marks k x) (hlocked : w.Locked e) :
    (w.step d e).Marks k x ∨ ∀ p, (w.step d e).store.pending.lookup k = some p → p.dlrReady = false := by
  cases x
  case handler i =>
    obtain ⟨h, rec, hi, hp, hk⟩ := hm
    cases e
    case receive j dlr =>
      have hij : i ≠ j := by
        rintro rfl
        cases hi.symm.trans hlocked.1
      exact .inl ⟨h, rec, (AList.lookup_insert_ne hij).trans hi, hp, hk⟩
    case handle j m =>
      by_cases hij : i = j
      case neg =>
        refine .inl ⟨h, rec, ?_, hp, hk⟩
        simp only [Desk.step]
        split
        case h_1 => exact hi
        case h_2 => exact (AList.lookup_insert_ne hij).trans hi
      case pos =>
        subst hij
        refine .inr fun p hafter => ?_
        simp only [Desk.step, hi, h.step_lookup, Handler.rowAfter, hp, if_pos hk.symm] at hafter
        obtain ⟨q, -, rfl⟩ := Option.map_eq_some_iff.mp hafter
        rfl
    case flush j k' m =>
      refine .inl ⟨h, rec, ?_, hp, hk⟩
      simp only [Desk.step]
      split <;> exact hi
    all_goals exact .inl ⟨h, rec, hi, hp, hk⟩
  case flush i k' =>
    obtain ⟨f, hf, hp, hk⟩ := hm
    cases e
    case handle j m =>
      refine .inl ⟨f, ?_, hp, hk⟩
      simp only [Desk.step]
      split <;> exact hf
    case listReady j now order systemID =>
      refine .inl ⟨f, ?_, hp, hk⟩
      refine (Map.lookup_insertAll_of_notMem fun row _ heq => ?_).trans hf
      obtain ⟨rfl, rfl⟩ := Prod.mk.inj heq
      have hnone := hlocked _ (Map.mem_entries_iff.mpr hf) rfl
      simp [Flush.lock?, hp] at hnone
    case flush j k'' m =>
      by_cases hij : (i, k') = (j, k'')
      case neg =>
        refine .inl ⟨f, ?_, hp, hk⟩
        simp only [Desk.step]
        split
        case h_1 => exact hf
        case h_2 => exact (AList.lookup_insert_ne hij).trans hf
      case pos =>
        cases hij
        refine .inr fun p hafter => ?_
        simp only [Desk.step, hf, f.step_lookup, Flush.rowAfter, hp, if_pos hk.symm] at hafter
        obtain ⟨q, -, rfl⟩ := Option.map_eq_some_iff.mp hafter
        rfl
    all_goals exact .inl ⟨f, hf, hp, hk⟩

end Desk

theorem Handler.step_unacked {s : MemoryStore} {h : Handler} {m : HandlerMove}
    (hu : (h.step s m).1.phase.Unacked) : h.phase.Unacked := by
  cases hp : h.phase <;> simp only [step, hp] at hu
  case mark rec =>
    generalize s.markDLRDelivered rec.provider rec.providerID = r at hu
    obtain ⟨_ | _, _⟩ := r <;> exact hu
  case relist =>
    simp only [become] at hu
    split at hu <;> exact hu
  case delete | done => exact hu
  all_goals trivial

namespace Audit

variable {d : Dispatcher} {a : Audit} {e : DeskEvent} {k : Str} {c : Nat}

theorem acked?_eq_some (ht : a.desk.Tidy) (h : a.acked? e = some k) :
    ∃ x, a.desk.keyOf x = some k ∧ (a.desk.step d e).Marks k x := by
  cases e <;> simp only [acked?, reduceCtorEq] at h
  case handle i m =>
    cases hi : a.desk.handlers.lookup i <;>
      simp only [Desk.phaseOf, hi, Option.map_none, Option.map_some, reduceCtorEq] at h
    case some call =>
      cases hp : call.phase <;> simp only [hp, reduceCtorEq] at h
      case push rec =>
        split at h
        case isFalse => cases h
        case isTrue haccepted =>
          cases h
          have hkey := (ht.handlers hi).2 rec (by rw [hp]; rfl)
          refine ⟨.handler i, by simp [Desk.keyOf, hi, hp, hkey], ?_⟩
          exact ⟨call.become (.mark rec), rec, by simp [Desk.step, hi, Handler.step, hp, haccepted], rfl, rfl⟩
  case flush i k' m =>
    split at h
    case h_2 => cases h
    case h_1 f hf =>
      split at h
      case isFalse => cases h
      case isTrue hpush =>
        cases h
        refine ⟨.flush i k', by simp [Desk.keyOf, hf, Flush.lock?, hpush.1], ?_⟩
        exact ⟨f.become .mark, by simp [Desk.step, hf, Flush.step, hpush], rfl, rfl⟩

theorem step_acks (ht : a.desk.Tidy) (h : (k, c) ∈ (a.step d e).acks) :
    (k, c) ∈ a.acks ∨ c = a.received ∧ ∃ x, a.desk.keyOf x = some k ∧ (a.step d e).desk.Marks k x := by
  simp only [step] at h
  split at h
  case h_2 => exact .inl h
  case h_1 k' hacked =>
    rcases List.mem_cons.mp h with heq | hold
    case inr => exact .inl hold
    case inl =>
      obtain ⟨rfl, rfl⟩ := Prod.mk.inj heq
      exact .inr ⟨rfl, acked?_eq_some ht hacked⟩

theorem written?_eq_some (ht : a.desk.Tidy) {n : Nat} (h : a.written? d e = some (k, n)) :
    (∃ i h, a.desk.handlers.lookup i = some h ∧ h.phase.Unacked ∧ h.dlr.key = k ∧ n = a.numbers i) ∨
      n = a.received + 1 := by
  cases e <;> simp only [written?, reduceCtorEq] at h
  case handle i m =>
    cases hi : a.desk.handlers.lookup i <;>
      simp only [Desk.phaseOf, hi, Option.map_none, Option.map_some, reduceCtorEq] at h
    case some call =>
      have hrec := (ht.handlers hi).2
      cases hp : call.phase <;> simp only [hp, reduceCtorEq] at h hrec
      case update rec | ready rec =>
        cases h
        exact .inl ⟨i, call, hi, by rw [hp]; trivial, (hrec rec rfl).symm, rfl⟩
  case queueFailure =>
    obtain ⟨rec, -, heq⟩ := Option.map_eq_some_iff.mp h
    exact .inr (Prod.mk.inj heq).2.symm

theorem step_stamps : (a.step d e).stamps k = a.stamps k ∧ (∀ n, a.written? d e ≠ some (k, n)) ∨
    a.written? d e = some (k, (a.step d e).stamps k) := by
  cases hw : a.written? d e
  case none => exact .inl ⟨by simp [step, hw], by simp⟩
  case some x =>
    obtain ⟨k', n⟩ := x
    by_cases hk : k = k'
    case neg => exact .inl ⟨by simp [step, hw, hk], by simp [Ne.symm hk]⟩
    case pos =>
      subst hk
      exact .inr (by simp [step, hw])

structure Inv (a : Audit) : Prop where
  tidy      : a.desk.Tidy
  exclusive : a.desk.Exclusive
  acks      : ∀ {k c}, (k, c) ∈ a.acks → c ≤ a.received
  calls     : ∀ {i h}, a.desk.handlers.lookup i = some h → h.phase.Unacked →
    ∀ c, (h.dlr.key, c) ∈ a.acks → c < a.numbers i
  ready     : ∀ {k p}, a.desk.store.pending.lookup k = some p → p.dlrReady → (∀ x, ¬a.desk.Marks k x) →
    ∀ c, (k, c) ∈ a.acks → c < a.stamps k

theorem le_received_step : a.received ≤ (a.step d e).received := by
  cases e <;> simp only [step, Nat.le_refl, Nat.le_succ]
  split
  case isTrue => exact Nat.le_succ _
  case isFalse => exact Nat.le_refl _

theorem step_unacked {i : Nat} {h : Handler} (hi : (a.step d e).desk.handlers.lookup i = some h)
    (hu : h.phase.Unacked) : (a.step d e).numbers i = a.received + 1 ∨
      (a.step d e).numbers i = a.numbers i ∧
        ∃ h₀, a.desk.handlers.lookup i = some h₀ ∧ h₀.phase.Unacked ∧ h₀.dlr.key = h.dlr.key := by
  cases e
  case receive j dlr =>
    simp only [step, Desk.step, Map.lookup_insert_eq] at hi
    split at hi
    case isTrue hij => exact .inl (by simp [step, hij])
    case isFalse hij => exact .inr ⟨by simp [step, hij], h, hi, hu, rfl⟩
  case handle j m =>
    refine .inr ⟨rfl, ?_⟩
    simp only [step, Desk.step] at hi
    split at hi
    case h_1 => exact ⟨h, hi, hu, rfl⟩
    case h_2 h₀ hj =>
      simp only [Map.lookup_insert_eq] at hi
      split at hi
      case isFalse => exact ⟨h, hi, hu, rfl⟩
      case isTrue hij =>
        cases hi
        obtain ⟨hprovider, hid⟩ := h₀.step_dlr a.desk.store m
        exact ⟨h₀, hij ▸ hj, Handler.step_unacked hu, by rw [Dlr.key, Dlr.key, hprovider, hid]⟩
  case flush j k m =>
    refine .inr ⟨rfl, h, ?_, hu, rfl⟩
    simp only [step, Desk.step] at hi
    split at hi <;> exact hi
  all_goals exact .inr ⟨rfl, h, hi, hu, rfl⟩

theorem ready_before {p' : Pending} (hp' : (a.step d e).desk.store.pending.lookup k = some p')
    (hready : p'.dlrReady) (hnot : ∀ n, a.written? d e ≠ some (k, n)) :
    ∃ p, a.desk.store.pending.lookup k = some p ∧ p.dlrReady := by
  cases Desk.rowStep hp'
  case same hrow => exact ⟨p', hrow, hready⟩
  case flushed => cases hready
  case queued saved hkey => exact absurd (by simp [written?, saved, hkey]) (hnot (a.received + 1))
  case handled i m h p hi hrow hwrites =>
    cases hwrites
    case nothing => exact ⟨p', hrow, hready⟩
    case update => exact ⟨p, hrow, hready⟩
    case ready hphase hkey => exact absurd (by simp [written?, Desk.phaseOf, hi, hphase, hkey]) (hnot (a.numbers i))
    case mark => cases hready

theorem Inv.step (hinv : a.Inv) (hlocked : a.desk.Locked e) (hplain : e.Plain) : (a.step d e).Inv where
  tidy := hinv.tidy.step hplain
  exclusive := hinv.exclusive.step hlocked
  acks {k c} h := by
    rcases step_acks hinv.tidy h with h | ⟨rfl, -⟩
    case inl => exact (hinv.acks h).trans le_received_step
    case inr => exact le_received_step
  calls {i h} hi hu c hc := by
    rcases step_unacked hi hu with hnew | ⟨hsame, h₀, hi₀, hu₀, hkey⟩
    case inl =>
      rw [hnew]
      rcases step_acks hinv.tidy hc with hc | ⟨rfl, -⟩
      case inl => exact Nat.lt_succ_of_le (hinv.acks hc)
      case inr => exact Nat.lt_succ_self _
    case inr =>
      rw [hsame]
      rcases step_acks hinv.tidy hc with hc | ⟨-, x, hx, hmarks⟩
      case inl => exact hinv.calls hi₀ hu₀ c (hkey ▸ hc)
      case inr =>
        -- Whoever got this acknowledgement has the row, so it is this very call, and it goes on to mark.
        have hown : a.desk.keyOf (.handler i) = some h.dlr.key := by
          have hnot : h₀.phase ≠ .done := fun hp => by rw [hp] at hu₀; exact hu₀
          simp [Desk.keyOf, hi₀, hnot, hkey]
        cases hinv.tidy.holder_unique hinv.exclusive hx hown
        obtain ⟨h', rec, hi', hp, -⟩ := hmarks
        cases hi.symm.trans hi'
        rw [hp] at hu
        exact hu.elim
  ready {k p'} hp' hready hno c hc := by
    rcases step_acks hinv.tidy hc with hc | ⟨-, x, -, hmarks⟩
    case inr => exact absurd hmarks (hno x)
    case inl =>
      rcases step_stamps (d := d) (a := a) (e := e) (k := k) with ⟨hsame, hnot⟩ | hwritten
      case inr =>
        rcases written?_eq_some hinv.tidy hwritten with ⟨i, h, hi, hu, rfl, hstamp⟩ | hnew
        case inl => rw [hstamp]; exact hinv.calls hi hu c hc
        case inr => rw [hnew]; exact Nat.lt_succ_of_le (hinv.acks hc)
      case inl =>
        obtain ⟨p, hp, hr⟩ := ready_before hp' hready hnot
        rw [hsame]
        refine hinv.ready hp hr (fun x hx => ?_) c hc
        rcases hx.step (d := d) hlocked with hmarks | hunready
        case inl => exact hno x hmarks
        case inr => exact absurd hready (by rw [hunready p' hp']; decide)

-- A push by a call of `HandleDLR` is that of a receipt nobody has acknowledged yet. A push by `FlushDLR` is
-- one as long as the row that was listed is what the store holds.
theorem Inv.fresh (hinv : a.Inv) (hcurrent : a.Current e) : a.Fresh e := by
  cases e
  case handle i m =>
    intro h rec hi hp c hc
    have hkey := (hinv.tidy.handlers hi).2 rec (by rw [hp]; rfl)
    exact hinv.calls hi (by rw [hp]; trivial) c (hkey ▸ hc)
  case flush i k m =>
    intro f hf hp c hc
    obtain ⟨⟨p, hrow, hready⟩, hstamp⟩ := hcurrent f hf hp
    rw [← hstamp]
    refine hinv.ready hrow hready (fun x hx => ?_) c hc
    have hown : a.desk.keyOf (.flush i k) = some f.row.key := by simp [Desk.keyOf, hf, Flush.lock?, hp]
    cases hinv.tidy.holder_unique hinv.exclusive (hx.keyOf hinv.tidy) hown
    obtain ⟨f', hf', hmark, -⟩ := hx
    cases hf.symm.trans hf'
    rw [hp] at hmark
    cases hmark
  all_goals trivial

theorem Inv.init {s : MemoryStore} (hkeyed : s.Keyed)
    (hplain : ∀ {k p}, s.pending.lookup k = some p → 0 ∉ p.provider) : Inv { desk := { store := s } } where
  tidy      := ⟨hkeyed, hplain, (fun h => nomatch h), (fun h => nomatch h)⟩
  exclusive := fun x _ _ h => by cases x <;> cases h
  acks h    := nomatch h
  calls h   := nomatch h
  ready _ _ _ _ h := nomatch h

end Audit

-- In every interleaving that the row locks allow, each receipt that is pushed was received after every
-- acknowledgement of its row, as long as a flush pushes no row that has changed since it was listed.
theorem acknowledged_receipt_not_pushed_again (d : Dispatcher) {s : MemoryStore} (hkeyed : s.Keyed)
    (hplain : ∀ {k p}, s.pending.lookup k = some p → 0 ∉ p.provider) {es : List DeskEvent}
    (hnames : ∀ e ∈ es, e.Plain) (hlocked : Along (Audit.step d) (·.desk.Locked ·) { desk := { store := s } } es)
    (hcurrent : Along (Audit.step d) Audit.Current { desk := { store := s } } es) :
    Along (Audit.step d) Audit.Fresh { desk := { store := s } } es := by
  have hnames : Along (Audit.step d) (fun _ => DeskEvent.Plain) { desk := { store := s } } es :=
    .of_forall fun _ => hnames
  exact .of_invariant (P := Audit.Inv) (.init hkeyed hplain) ((hlocked.and hnames).and hcurrent)
    (fun _ _ hinv h => hinv.step h.1.1 h.1.2) (fun _ _ hinv h => hinv.fresh h.2)

def listWaiting (i : Nat) : DeskEvent :=
  .listReady i 1 [waitingRow.key] []

def flushWaiting (i : Nat) : DeskEvent :=
  .flush i waitingRow.key { now := 1, outcome := .accepted }

theorem waitingDesk_row {k : Str} {p : Pending} (h : waitingDesk.store.pending.lookup k = some p) :
    p = waitingRow ∧ k = waitingRow.key := by
  simp only [waitingDesk, Map.lookup_insert_eq] at h
  split at h
  case isTrue hk => exact ⟨(Option.some.inj h).symm, hk⟩
  case isFalse => cases h

theorem acknowledged_receipt_flushed_once :
    Along (Audit.step plainDispatcher) Audit.Fresh { desk := waitingDesk }
      (handleAll 0 (lit "DELIVRD") .deferred ++ listWaiting 1 :: List.replicate 5 (flushWaiting 1)) := by
  refine acknowledged_receipt_not_pushed_again plainDispatcher ?_ ?_ ?_ ?_ ?_
  case refine_1 =>
    intro k p h
    obtain ⟨rfl, rfl⟩ := waitingDesk_row h
    rfl
  case refine_2 =>
    intro k p h
    obtain ⟨rfl, rfl⟩ := waitingDesk_row h
    decide
  case refine_3 => decide
  case refine_4 => decide +kernel
  case refine_5 => decide +kernel

-- Two flushes list the row, and one after the other they take its lock and push it: the only receipt that was
-- ever received is acknowledged twice.
theorem acknowledged_receipt_pushed_again :
    let before := handleAll 0 (lit "DELIVRD") .deferred ++ listWaiting 1 :: listWaiting 2 ::
      List.replicate 5 (flushWaiting 1) ++ [flushWaiting 2]
    let a := run (Audit.step plainDispatcher) { desk := waitingDesk } before
    Along (Audit.step plainDispatcher) (·.desk.Locked ·) { desk := waitingDesk } (before ++ [flushWaiting 2]) ∧
      ¬a.Fresh (flushWaiting 2) ∧ (a.step plainDispatcher (flushWaiting 2)).received = 1 ∧
      (a.step plainDispatcher (flushWaiting 2)).acks = [(waitingRow.key, 1), (waitingRow.key, 1)] := by
  refine ⟨by decide +kernel, fun hfresh => ?_, by decide +kernel, by decide +kernel⟩
  have hlisted : ∃ f ∈ (run (Audit.step plainDispatcher) { desk := waitingDesk }
      (handleAll 0 (lit "DELIVRD") .deferred ++ listWaiting 1 :: listWaiting 2 ::
        List.replicate 5 (flushWaiting 1) ++ [flushWaiting 2])).desk.flushes.lookup (2, waitingRow.key),
      f.phase = .push ∧ f.row.key = waitingRow.key := by
    decide +kernel
  obtain ⟨f, hf, hp, hk⟩ := hlisted
  have hold := hfresh f hf hp 1
  rw [hk] at hold
  exact absurd (hold (by decide +kernel)) (by decide +kernel)

end SmppGateway
