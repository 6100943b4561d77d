import SmppGateway.Go.Digits
import SmppGateway.Lib.Ledger
import SmppGateway.Store.File

-- Where gateway ids come from: `idAllocator` of `internal/dispatch/idalloc.go` takes ranges of numbers from the
-- store, and `newGatewayID` writes a number as an id. All dispatchers share one file store.

namespace SmppGateway

open Go Machine

-- `newGatewayID` once it has its number: `m` and seven digits, or the error that the sequence is exhausted.
def encodeGatewayID (n : UInt64) : Option Str :=
  let encoded := formatUintBase n 36
  if 7 < encoded.length then
    none
  else
    some (lit "m" ++ encoded.leftpad 7 '0'.toUInt8)

theorem encodeGatewayID_length {n : UInt64} {id : Str} (h : encodeGatewayID n = some id) : id.length = 8 := by
  simp only [encodeGatewayID] at h
  split at h
  case isTrue => cases h
  case isFalse hlt =>
    cases h
    rw [List.length_append, List.length_leftpad, Nat.max_eq_left (Nat.not_lt.mp hlt)]
    rfl

theorem parseGatewaySeq_encode {n : UInt64} {id : Str} (h : encodeGatewayID n = some id) :
    parseGatewaySeq id = some n := by
  have hlen := encodeGatewayID_length h
  simp only [encodeGatewayID] at h
  split at h
  case isTrue => cases h
  case isFalse =>
    cases h
    have hrest : (formatUintBase n 36).leftpad 7 '0'.toUInt8 ≠ [] := by
      intro hnil
      rw [hnil] at hlen
      cases hlen
    have hm : lit "m" = ['m'.toUInt8] := by decide
    have hg : 'm'.toUInt8 ≠ 'g'.toUInt8 := by decide
    rw [hm, List.singleton_append, parseGatewaySeq, if_neg hrest, if_neg hg, if_pos rfl]
    exact parseUint_leftpad_format n (by decide) (by decide) 7

structure IdAllocator where
  next : UInt64 := 0
  stop : UInt64 := 0  -- `end` in the source
  span : UInt64
  -- The range that a call of `Next` has reserved in memory, while the store writes the file. The call keeps the
  -- lock of the allocator meanwhile.
  reserving : Option (UInt64 × UInt64) := none

def newIDAllocator (span : UInt64) : IdAllocator where
  span := if span = 0 then 1000 else span

-- The dispatchers of a process over one file store, and all ids that were ever issued, with their numbers.
structure Issuance where
  store      : FileStore := .empty
  allocators : Map Nat IdAllocator := ∅
  issued     : List (UInt64 × Str) := []

-- Other calls change the content in memory and write it, both at any moment. A write that fails changes nothing.
inductive IssueEvent
  | newDispatcher (i : Nat)
  | newGatewayID (i : Nat)
  | reserved (i : Nat) (persistOk : Bool)
  | exec (op : StoreOp)
  | persist
  | restart

namespace Issuance

def persist (w : Issuance) : Issuance :=
  { w with store := { w.store with disk := some w.store.mem.snapshot.json } }

def issue (w : Issuance) (i : Nat) (a : IdAllocator) : Issuance :=
  { w with
    allocators := w.allocators.insert i { a with next := a.next + 1 }
    issued := match encodeGatewayID a.next with
      | some id => (a.next, id) :: w.issued
      | none    => w.issued }

def reserve (w : Issuance) (i : Nat) (a : IdAllocator) : Issuance :=
  let (range, mem) := w.store.mem.reserveGatewayIDRange a.span
  { w with store := { w.store with mem }, allocators := w.allocators.insert i { a with reserving := some range } }

def step (w : Issuance) : IssueEvent → Issuance
  | .newDispatcher i => { w with allocators := w.allocators.insert i (newIDAllocator 1000) }
  | .newGatewayID i =>
    match w.allocators.lookup i with
    | none   => w
    | some a =>
      if a.reserving.isSome then
        w
      else if a.next = 0 ∨ a.stop < a.next then
        w.reserve i a
      else
        w.issue i a
  | .reserved i persistOk =>
    match w.allocators.lookup i with
    | none   => w
    | some a =>
      match a.reserving with
      | none               => w
      | some (start, stop) =>
        if persistOk then
          w.persist.issue i { a with next := start, stop, reserving := none }
        else
          { w with allocators := w.allocators.insert i { a with reserving := none } }
  | .exec op => { w with store := { w.store with mem := op.step w.store.mem } }
  | .persist => w.persist
  | .restart => { w with store := w.store.restart, allocators := ∅ }

end Issuance

namespace MemoryStore

variable {s : MemoryStore}

theorem putMessage_gatewaySeq {msg : Message} : (s.putMessage msg).gatewaySeq = s.gatewaySeq := by
  unfold putMessage trimMessagesLocked
  split
  case h_1 => rfl
  case h_2 => split <;> rfl

theorem modifyMessage_gatewaySeq {g : Str} {f : Message → Message} :
    (s.modifyMessage g f).gatewaySeq = s.gatewaySeq := by
  unfold modifyMessage; split <;> rfl

end MemoryStore

theorem StoreOp.step_gatewaySeq (s : MemoryStore) (op : StoreOp) : (op.step s).gatewaySeq = s.gatewaySeq := by
  cases op <;> simp only [step, exec, reply]
  case saveMessage => exact MemoryStore.putMessage_gatewaySeq
  case enqueueOutbox | claimOutbox | requeueStaleOutbox => rfl
  case submitAtomic now msg item opts =>
    cases s.submitAtomic_cases now msg item opts
    case duplicate eq => rw [eq]; rfl
    case refused eq => rw [eq]; rfl
    case accepted d fresh debit eq =>
      rw [eq]
      obtain ⟨q, rfl⟩ := MemoryStore.debitQuota_frame debit
      simp only [MemoryStore.putOutbox, MemoryStore.putMessage_gatewaySeq]
      unfold MemoryStore.rememberKey
      split <;> rfl
  case markOutboxSending => unfold MemoryStore.markOutboxSending; repeat' split <;> try rfl
  case ackOutbox => unfold MemoryStore.ackOutbox; repeat' split <;> try rfl
  case failOutbox => unfold MemoryStore.failOutbox; repeat' split <;> try rfl
  case completeOutboxSend =>
    unfold MemoryStore.completeOutboxSend
    repeat' split <;> try first | rfl | exact MemoryStore.modifyMessage_gatewaySeq
  case markOutboxUncertain =>
    unfold MemoryStore.markOutboxUncertain
    repeat' split <;> try first | rfl | exact MemoryStore.modifyMessage_gatewaySeq

def IdAllocator.reserved (a : IdAllocator) : Set Nat :=
  { n | ∃ r ∈ a.reserving, r.1.toNat ≤ n ∧ n ≤ r.2.toNat }

def IdAllocator.granted (a : IdAllocator) : Set Nat :=
  { n | a.next ≠ 0 ∧ a.next.toNat ≤ n ∧ n ≤ a.stop.toNat }

namespace Issuance

def ledger (w : Issuance) : Ledger.State Nat where
  counter    := w.store.mem.gatewaySeq.toNat
  saved      := w.store.restart.mem.gatewaySeq.toNat
  reserved i := (w.allocators.lookup i).elim ∅ IdAllocator.reserved
  granted i  := (w.allocators.lookup i).elim ∅ IdAllocator.granted
  issued     := w.issued.map (·.1.toNat)

structure WF (w : Issuance) : Prop where
  span  : ∀ {i a}, w.allocators.lookup i = some a → a.span = 1000
  range : ∀ {i a r}, w.allocators.lookup i = some a → a.reserving = some r → r.1 ≠ 0 ∧ r.1 ≤ r.2

variable {w : Issuance} {i j : Nat} {a b : IdAllocator} {s : FileStore} {issued : List (UInt64 × Str)}

theorem insert_reserved :
    (ledger ⟨s, w.allocators.insert i b, issued⟩).reserved j = if j = i then b.reserved else w.ledger.reserved j := by
  simp only [ledger, Map.lookup_insert_eq]
  split <;> rfl

theorem insert_granted :
    (ledger ⟨s, w.allocators.insert i b, issued⟩).granted j = if j = i then b.granted else w.ledger.granted j := by
  simp only [ledger, Map.lookup_insert_eq]
  split <;> rfl

theorem insert_drops (hr : b.reserved ⊆ w.ledger.reserved i) (hg : b.granted ⊆ w.ledger.granted i) (j : Nat) :
    Ledger.Drops w.ledger (ledger ⟨s, w.allocators.insert i b, issued⟩) j := by
  constructor
  case reserved =>
    rw [insert_reserved]
    split
    case isTrue hj => exact hj ▸ hr
    case isFalse => exact subset_rfl
  case granted =>
    rw [insert_granted]
    split
    case isTrue hj => exact hj ▸ hg
    case isFalse => exact subset_rfl

theorem insert_drops_ne (hj : j ≠ i) : Ledger.Drops w.ledger (ledger ⟨s, w.allocators.insert i b, issued⟩) j where
  reserved := by rw [insert_reserved, if_neg hj]
  granted  := by rw [insert_granted, if_neg hj]

theorem le_persist_saved : w.ledger.counter ≤ w.persist.ledger.saved :=
  MemoryStore.le_load_gatewaySeq w.store.mem.snapshot.json

theorem issue_step (hi : w.allocators.lookup i = some a) (hnone : a.reserving = none) (hne : a.next ≠ 0)
    (hle : a.next ≤ a.stop) : Ledger.Step w.ledger (w.issue i a).ledger := by
  have hgranted : w.ledger.granted i = a.granted := by simp [ledger, hi]
  have hafter : ∀ n ∈ IdAllocator.granted { a with next := a.next + 1 }, a.next.toNat < n ∧ n ≤ a.stop.toNat := by
    rintro n ⟨hpos, hlo, hhi⟩
    refine ⟨?_, hhi⟩
    have hwrap : (a.next + 1).toNat = a.next.toNat + 1 := by
      have hne : (a.next + 1).toNat ≠ 0 := fun h => hpos (UInt64.toNat_inj.mp h)
      rw [UInt64.toNat_add] at hne ⊢
      have := a.next.toNat_lt
      simp only [UInt64.toNat_one] at hne ⊢
      omega
    exact Nat.lt_of_lt_of_le (hwrap ▸ Nat.lt_succ_self _) hlo
  have hdrops : ∀ issued j, Ledger.Drops w.ledger
      (ledger ⟨w.store, w.allocators.insert i { a with next := a.next + 1 }, issued⟩) j := by
    refine fun issued => insert_drops ?_ ?_
    case _ => simp [ledger, hi, IdAllocator.reserved]
    case _ => exact fun n hn => hgranted ▸ ⟨hne, (hafter n hn).1.le, (hafter n hn).2⟩
  unfold issue
  split
  case h_2 => exact .drop rfl rfl rfl (hdrops _)
  case h_1 id _ =>
    refine .issue i a.next.toNat rfl rfl (hgranted ▸ ⟨hne, le_rfl, hle⟩) rfl ?_ (hdrops _)
    rw [insert_reserved, insert_granted, if_pos rfl, if_pos rfl]
    rintro (⟨r, hr, -⟩ | hg)
    case inl => rw [hnone] at hr; cases hr
    case inr => exact absurd (hafter _ hg).1 (lt_irrefl _)

theorem reserve_range {s : MemoryStore} (hroom : s.gatewaySeq.toNat + 1000 < 2 ^ 64) :
    (s.reserveGatewayIDRange 1000).1.1.toNat = s.gatewaySeq.toNat + 1 ∧
    (s.reserveGatewayIDRange 1000).1.2.toNat = s.gatewaySeq.toNat + 1000 ∧
    (s.reserveGatewayIDRange 1000).2.gatewaySeq = (s.reserveGatewayIDRange 1000).1.2 := by
  refine ⟨?_, ?_, rfl⟩ <;>
  · simp only [MemoryStore.reserveGatewayIDRange, UInt64.toNat_add]
    rw [Nat.mod_eq_of_lt]
    case _ => rfl
    case _ => exact Nat.lt_of_le_of_lt (Nat.add_le_add_left (by decide) _) hroom

theorem reserve_ordered {s : MemoryStore} (hroom : s.gatewaySeq.toNat + 1000 < 2 ^ 64) :
    (s.reserveGatewayIDRange 1000).1.1 ≠ 0 ∧ (s.reserveGatewayIDRange 1000).1.1 ≤ (s.reserveGatewayIDRange 1000).1.2 := by
  obtain ⟨hstart, hend, -⟩ := reserve_range hroom
  constructor
  case left =>
    intro hzero
    rw [hzero] at hstart
    cases hstart
  case right =>
    rw [UInt64.le_iff_toNat_le, hstart, hend]
    exact Nat.add_le_add_left (by decide) _

theorem reserve_step (hi : w.allocators.lookup i = some a) (hspan : a.span = 1000)
    (hroom : w.store.mem.gatewaySeq.toNat + 1000 < 2 ^ 64) : Ledger.Step w.ledger (w.reserve i a).ledger := by
  obtain ⟨hstart, hend, hseq⟩ := reserve_range hroom
  have hcounter : (w.reserve i a).ledger.counter = w.store.mem.gatewaySeq.toNat + 1000 := by
    simp only [reserve, hspan, ledger]
    rw [hseq, hend]
  refine .reserve i ?_ rfl rfl ?_ ?_ fun j hj => insert_drops_ne hj
  case _ => rw [hcounter]; exact Nat.le_add_right _ _
  case _ =>
    intro n hn
    rw [hcounter]
    simp only [reserve, hspan] at hn
    rw [insert_reserved, if_pos rfl] at hn
    obtain ⟨r, hr, hlo, hhi⟩ := hn
    cases hr
    have hlo : w.store.mem.gatewaySeq.toNat + 1 ≤ n := hstart ▸ hlo
    exact ⟨hlo, hend ▸ hhi⟩
  case _ =>
    simp only [reserve]
    rw [insert_granted, if_pos rfl]
    simp [ledger, hi, IdAllocator.granted]

def Fits (w : Issuance) : IssueEvent → Prop
  | .newGatewayID i => ∀ a, w.allocators.lookup i = some a → a.reserving.isSome = false →
    a.next = 0 ∨ a.stop < a.next → w.store.mem.gatewaySeq.toNat + 1000 < 2 ^ 64
  | _               => True

theorem ledger_step (hw : w.WF) (e : IssueEvent) (hroom : w.Fits e) :
    Relation.ReflTransGen Ledger.Step w.ledger (w.step e).ledger := by
  cases e <;> simp only [step]
  case newDispatcher i =>
    refine .single (.drop rfl rfl rfl (insert_drops ?_ ?_))
    case _ => rintro n ⟨r, hr, -⟩; cases hr
    case _ => rintro n ⟨hne, -⟩; exact absurd rfl hne
  case newGatewayID i =>
    split
    case h_1 => exact .refl
    case h_2 a hi =>
      split
      case isTrue => exact .refl
      case isFalse hnone =>
        split
        case isTrue hcur =>
          exact .single (reserve_step hi (hw.span hi) (hroom a hi (Bool.eq_false_iff.mpr hnone) hcur))
        case isFalse hcur =>
          obtain ⟨hne, hle⟩ := not_or.mp hcur
          exact .single (issue_step hi (by simpa using hnone) hne (UInt64.not_lt.mp hle))
  case reserved i persistOk =>
    split
    case h_1 => exact .refl
    case h_2 a hi =>
      split
      case h_1 => exact .refl
      case h_2 start stop hr =>
        have hown : a.reserved = w.ledger.reserved i := by simp [ledger, hi]
        split
        case isTrue =>
          -- The write has saved the counter, so that the range is granted, and its first number is issued.
          obtain ⟨hne, hle⟩ := hw.range hi hr
          let b : IdAllocator := { a with next := start, stop, reserving := none }
          let granted : Issuance := { w.persist with allocators := w.allocators.insert i b }
          have hgrant : Ledger.Step w.ledger granted.ledger := by
            refine .grant i rfl le_persist_saved rfl ?_ ?_ fun j hj => insert_drops_ne hj
            case _ =>
              rw [insert_reserved, if_pos rfl]
              exact Set.eq_empty_of_forall_notMem fun n ⟨r, hr, _⟩ => nomatch hr
            case _ =>
              rw [insert_granted, if_pos rfl, ← hown]
              exact fun n ⟨_, hlo, hhi⟩ => ⟨_, hr, hlo, hhi⟩
          have hissue : Ledger.Step granted.ledger (granted.issue i b).ledger :=
            issue_step (AList.lookup_insert _) rfl hne hle
          have hsame : granted.issue i b = w.persist.issue i b := by
            simp [issue, granted, persist, AList.insert_insert]
          exact .tail (.single hgrant) (hsame ▸ hissue)
        case isFalse =>
          refine .single (.drop rfl rfl rfl (insert_drops ?_ ?_))
          case _ => rintro n ⟨r, hr, -⟩; cases hr
          case _ => simp [ledger, hi, IdAllocator.granted]
  case exec op =>
    refine .single (.drop ?_ rfl rfl fun j => ⟨subset_rfl, subset_rfl⟩)
    exact congrArg UInt64.toNat (op.step_gatewaySeq w.store.mem)
  case persist => exact .single (.save rfl le_persist_saved rfl fun j => ⟨subset_rfl, subset_rfl⟩)
  case restart => exact .single (.crash rfl rfl rfl (fun _ => rfl) (fun _ => rfl))

theorem WF.insert (hw : w.WF) (i : Nat) (b : IdAllocator) (hspan : b.span = 1000)
    (hrange : ∀ r, b.reserving = some r → r.1 ≠ 0 ∧ r.1 ≤ r.2) : WF ⟨s, w.allocators.insert i b, issued⟩ where
  span {j c} hj := by
    simp only [Map.lookup_insert_eq] at hj
    split at hj
    case isTrue => cases hj; exact hspan
    case isFalse => exact hw.span hj
  range {j c r} hj hr := by
    simp only [Map.lookup_insert_eq] at hj
    split at hj
    case isTrue => cases hj; exact hrange r hr
    case isFalse => exact hw.range hj hr

theorem WF.step (hw : w.WF) (e : IssueEvent) (hroom : w.Fits e) : (w.step e).WF := by
  cases e <;> simp only [Issuance.step]
  case newDispatcher i => exact hw.insert i (newIDAllocator 1000) rfl fun _ h => nomatch h
  case newGatewayID i =>
    split
    case h_1 => exact hw
    case h_2 a hi =>
      have hspan : a.span = 1000 := hw.span hi
      split
      case isTrue => exact hw
      case isFalse hnone =>
        split
        case isFalse => exact hw.insert i { a with next := a.next + 1 } hspan fun _ hr => hw.range hi hr
        case isTrue hcur =>
          refine hw.insert i { a with reserving := _ } hspan fun r hr => ?_
          rw [hspan] at hr
          cases hr
          exact reserve_ordered (hroom a hi (Bool.eq_false_iff.mpr hnone) hcur)
  case reserved i persistOk =>
    split
    case h_1 => exact hw
    case h_2 a hi =>
      have hspan : a.span = 1000 := hw.span hi
      split
      case h_1 => exact hw
      case h_2 start stop _ =>
        split
        case isTrue =>
          exact hw.insert i { a with next := start + 1, stop, reserving := none } hspan fun _ h => nomatch h
        case isFalse => exact hw.insert i { a with reserving := none } hspan fun _ h => nomatch h
  case exec | persist => exact ⟨hw.span, hw.range⟩
  case restart => exact ⟨nofun, nofun⟩

theorem issue_issued (w : Issuance) (i : Nat) (a : IdAllocator) :
    ∃ new, (w.issue i a).issued = new ++ w.issued ∧ ∀ x ∈ new, encodeGatewayID x.1 = some x.2 := by
  cases hid : encodeGatewayID a.next
  case none => exact ⟨[], by simp [issue, hid], nofun⟩
  case some id => exact ⟨[(a.next, id)], by simp [issue, hid], by simpa using hid⟩

theorem step_issued (w : Issuance) (e : IssueEvent) :
    ∃ new, (w.step e).issued = new ++ w.issued ∧ ∀ x ∈ new, encodeGatewayID x.1 = some x.2 := by
  have hsame : ∀ {w' : Issuance}, w'.issued = w.issued →
      ∃ new, w'.issued = new ++ w.issued ∧ ∀ x ∈ new, encodeGatewayID x.1 = some x.2 :=
    fun h => ⟨[], h, nofun⟩
  cases e <;> simp only [step]
  case newGatewayID i =>
    split
    case h_1 => exact hsame rfl
    case h_2 a hi =>
      split
      case isTrue => exact hsame rfl
      case isFalse =>
        split
        case isTrue => exact hsame rfl
        case isFalse => exact w.issue_issued i a
  case reserved i persistOk =>
    split
    case h_1 => exact hsame rfl
    case h_2 a hi =>
      split
      case h_1 => exact hsame rfl
      case h_2 =>
        split
        case isTrue => exact w.persist.issue_issued i _
        case isFalse => exact hsame rfl
  all_goals exact hsame rfl

def Issues (w w' : Issuance) : Prop :=
  ∃ new, w'.issued = new ++ w.issued ∧ ∀ x ∈ new, encodeGatewayID x.1 = some x.2

theorem Issues.refl (w : Issuance) : Issues w w :=
  ⟨[], rfl, nofun⟩

theorem Issues.trans {w w' w'' : Issuance} (h : Issues w w') (h' : Issues w' w'') : Issues w w'' := by
  obtain ⟨new, hnew, hid⟩ := h
  obtain ⟨new', hnew', hid'⟩ := h'
  refine ⟨new' ++ new, by rw [hnew', hnew, List.append_assoc], fun x hx => ?_⟩
  rcases List.mem_append.mp hx with hx | hx
  case inl => exact hid' x hx
  case inr => exact hid x hx

theorem Issues.run {ε : Type} {next : Issuance → ε → Issuance} (h : ∀ w e, Issues w (next w e)) (w : Issuance)
    (es : List ε) : Issues w (run next w es) :=
  relates (P := fun _ => True) (G := fun _ _ => True) Issues.refl .trans trivial (.of_forall fun _ _ _ => trivial)
    fun w e _ _ => ⟨trivial, h w e⟩

theorem Issues.encode (h : Issues {} w) : ∀ x ∈ w.issued, encodeGatewayID x.1 = some x.2 := by
  obtain ⟨new, hnew, hid⟩ := h
  intro x hx
  exact hid x (by simpa [hnew] using hx)

theorem Issues.fresh {w' : Issuance} (h : Issues w w') (hnodup : (w'.issued.map (·.2)).Nodup) :
    ∃ later, w'.issued = later ++ w.issued ∧ ∀ x ∈ later, ∀ y ∈ w.issued, x.2 ≠ y.2 := by
  obtain ⟨later, hlater, -⟩ := h
  refine ⟨later, hlater, fun x hx y hy heq => ?_⟩
  rw [hlater, List.map_append] at hnodup
  exact List.disjoint_of_nodup_append hnodup (List.mem_map_of_mem hx) (heq ▸ List.mem_map_of_mem hy)

def Below (w : Issuance) : Prop :=
  w.store.mem.gatewaySeq.toNat < 36 ^ 7

instance : DecidablePred Below :=
  fun _ => inferInstanceAs (Decidable (_ < _))

theorem ledger_init : Ledger.Inv (ledger {}) := by
  have hnone : ∀ i, Ledger.held (ledger {}) i = ∅ := fun _ => Set.union_empty ∅
  constructor
  case bounded | disjoint => intro i; simp [hnone]
  case saved => intro i n hn; cases hn
  case issued => intro n hn; cases hn
  case nodup => exact List.nodup_nil

theorem Below.fits (h : w.Below) (e : IssueEvent) : w.Fits e := by
  have hroom : w.store.mem.gatewaySeq.toNat + 1000 < 2 ^ 64 :=
    (Nat.add_lt_add_right h 1000).trans (by decide)
  cases e
  case newGatewayID i => exact fun _ _ _ _ => hroom
  all_goals exact trivial

theorem run_ledger {es : List IssueEvent} (hbelow : Always step Below w es) (hw : w.WF) :
    Relation.ReflTransGen Ledger.Step w.ledger (run step w es).ledger :=
  relates (R := fun w w' => Relation.ReflTransGen Ledger.Step w.ledger w'.ledger) (fun _ => .refl)
    .trans hw hbelow.along fun _ e hw hbelow => ⟨hw.step e (hbelow.fits e), ledger_step hw e (hbelow.fits e)⟩

theorem issued_nodup (hledger : Relation.ReflTransGen Ledger.Step (ledger {}) w.ledger)
    (hids : ∀ x ∈ w.issued, encodeGatewayID x.1 = some x.2) : (w.issued.map (·.2)).Nodup := by
  have hparse : ∀ x ∈ w.issued, parseGatewaySeq x.2 = some x.1 := fun x hx => parseGatewaySeq_encode (hids x hx)
  have hnumbers : (w.issued.map (·.1.toNat)).Nodup := Ledger.issued_nodup ledger_init hledger
  refine List.Nodup.map_on (fun x hx y hy heq => Prod.ext ?_ heq) hnumbers.of_map
  have hsome : some x.1 = some y.1 := by rw [← hparse x hx, ← hparse y hy, heq]
  exact Option.some.inj hsome

end Issuance

-- Whatever the dispatchers, failing writes and restarts do, no id is issued twice; each has eight characters and
-- is read back as its number; and those issued after a restart are none of those before it.
theorem gateway_ids_unique {es : List IssueEvent} (hbelow : Always Issuance.step Issuance.Below {} es) :
    let w := run Issuance.step {} es
    (w.issued.map (·.2)).Nodup ∧
    (∀ x ∈ w.issued, x.2.length = 8 ∧ parseGatewaySeq x.2 = some x.1) ∧
    ∀ before after, es = before ++ .restart :: after → ∃ later,
      w.issued = later ++ (run Issuance.step {} before).issued ∧
      ∀ x ∈ later, ∀ y ∈ (run Issuance.step {} before).issued, x.2 ≠ y.2 := by
  intro w
  have hids : ∀ x ∈ w.issued, encodeGatewayID x.1 = some x.2 := (Issuance.Issues.run Issuance.step_issued {} es).encode
  have hnodup : (w.issued.map (·.2)).Nodup :=
    Issuance.issued_nodup (Issuance.run_ledger hbelow ⟨nofun, nofun⟩) hids
  refine ⟨hnodup, fun x hx => ⟨encodeGatewayID_length (hids x hx), parseGatewaySeq_encode (hids x hx)⟩, ?_⟩
  rintro before after rfl
  have hlater := Issuance.Issues.run Issuance.step_issued (run Issuance.step {} before) (.restart :: after)
  rw [← run_append] at hlater
  exact hlater.fresh hnodup

-- Two dispatchers share the store. The second reservation is not written, and is made again after a restart.
def twoDispatchers : List IssueEvent :=
  [.newDispatcher 0, .newDispatcher 1, .newGatewayID 0, .newGatewayID 1, .reserved 1 false, .reserved 0 true,
    .newGatewayID 0, .restart, .newDispatcher 0, .newGatewayID 0, .reserved 0 true]

theorem gateway_ids_unique_twoDispatchers :
    (run Issuance.step {} twoDispatchers).issued =
      [(2001, lit "m00001jl"), (2, lit "m0000002"), (1, lit "m0000001")] ∧
    ((run Issuance.step {} twoDispatchers).issued.map (·.2)).Nodup := by
  refine ⟨by decide +kernel, (gateway_ids_unique fun pre hpre => ?_).1⟩
  have hall : ∀ pre ∈ twoDispatchers.inits, (run Issuance.step {} pre).Below := by decide +kernel
  exact hall pre ((List.mem_inits pre twoDispatchers).mpr hpre)

end SmppGateway
