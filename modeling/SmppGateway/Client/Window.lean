import SmppGateway.Client.Pool
import SmppGateway.Go.Map
import SmppGateway.Lib.Machine

-- The window of an upstream connection: `internal/smppclient/window.go` with the calls of `connection.submit`, the
-- responses that `readLoop` hands over and the `failAll` of a disconnect. The lock covers one removal from
-- `pending`; what follows it, and what comes before a registration, are steps of their own.

namespace SmppGateway.Client

open Go Machine

abbrev Result := Except UpstreamError PDU

inductive CallPlace
  | acquired              -- it has a slot
  | waiting (seq : UInt32)
  | left                  -- it has its result, or has called `fail`
  deriving DecidableEq, Repr

structure SubmitCall where
  place : CallPlace
  inbox : List Result := []  -- what its channel holds: one result at most
  sent  : List Result := []  -- everything that was put into the channel

-- An entry that was taken out of `pending`, in the hands of the goroutine that did it.
structure Removed where
  call      : Nat
  result    : Result
  delivered : Bool := false

structure Window where
  size    : Nat
  slots   : Nat := 0
  pending : Map UInt32 Nat := ∅
  calls   : List SubmitCall := []
  removed : List Removed := []

def newWindow (size : Int) : Window where
  size := if size ≤ 0 then 1 else size.toNat

inductive WindowEvent
  | acquire
  | register (i : Nat) (seq : UInt32)
  | complete (seq : UInt32) (pdu : PDU)    -- a response arrives
  | fail (i : Nat) (err : UpstreamError)   -- call `i` could not send, waited too long or was cancelled
  | failAll (err : UpstreamError)
  | deliver (k : Nat)
  | release (k : Nat)
  | receive (i : Nat)                      -- call `i` takes its result

namespace Window

variable (w : Window)

def take (seq : UInt32) (result : Result) : Window :=
  match w.pending.lookup seq with
  | some call => { w with
      pending := w.pending.erase seq
      removed := w.removed ++ [{ call, result }] }
  | none      => w

def step : WindowEvent → Window
  | .acquire           =>
    if w.slots < w.size then
      { w with slots := w.slots + 1, calls := w.calls ++ [{ place := .acquired }] }
    else
      w
  | .register i seq    =>
    match w.calls[i]? with
    | some call =>
      if call.place = .acquired then
        { w with
          pending := w.pending.insert seq i
          calls   := w.calls.set i { call with place := .waiting seq } }
      else
        w
    | none      => w
  | .complete seq pdu  => w.take seq (.ok pdu)
  | .fail i err        =>
    match w.calls[i]? with
    | some { place := .waiting seq, inbox, sent } =>
      let w' := w.take seq (.error err)
      { w' with calls := w'.calls.set i { place := .left, inbox, sent } }
    | _                                           => w
  | .failAll err       => { w with
      pending := ∅
      removed := w.removed ++ w.pending.entries.map fun e => { call := e.2, result := .error err } }
  -- A delivery waits while the channel is full, a release while no slot is taken.
  | .deliver k         =>
    match w.removed[k]? with
    | some r =>
      match w.calls[r.call]? with
      | some call =>
        if r.delivered = false ∧ call.inbox = [] then
          { w with
            calls   := w.calls.set r.call { call with inbox := [r.result], sent := call.sent ++ [r.result] }
            removed := w.removed.set k { r with delivered := true } }
        else
          w
      | none      => w
    | none   => w
  | .release k         =>
    match w.removed[k]? with
    | some r =>
      if r.delivered ∧ 0 < w.slots then
        { w with slots := w.slots - 1, removed := w.removed.eraseIdx k }
      else
        w
    | none   => w
  | .receive i         =>
    match w.calls[i]? with
    | some { place := .waiting _, inbox := _ :: inbox, sent } => { w with
        calls := w.calls.set i { place := .left, inbox, sent } }
    | _                                                       => w

end Window

def owes (pending : Map UInt32 Nat) (removed : List Removed) (i : Nat) : Nat :=
  pending.entries.countP (·.2 = i) + removed.countP fun r => r.call = i ∧ r.delivered = false

def sentTo (calls : List SubmitCall) (i : Nat) : Nat :=
  (calls[i]?).elim 0 (·.sent.length)

def registered (calls : List SubmitCall) (i : Nat) : Bool :=
  (calls[i]?).elim false (·.place ≠ .acquired)

section

variable {pending : Map UInt32 Nat} {removed : List Removed} {calls : List SubmitCall} {call call' : SubmitCall}
  {i j : Nat} {seq : UInt32} {r : Removed}

theorem elim_set {α : Type} {d : α} {f : SubmitCall → α} (h : calls[j]? = some call) :
    ((calls.set j call')[i]?).elim d f = if i = j then f call' else (calls[i]?).elim d f := by
  have hj := (List.getElem?_eq_some_iff.mp h).1
  by_cases hij : i = j
  case pos => simp [hij, hj]
  case neg => simp [hij, List.getElem?_set_ne (Ne.symm hij)]

theorem sentTo_set (h : calls[j]? = some call) :
    sentTo (calls.set j call') i = if i = j then call'.sent.length else sentTo calls i :=
  elim_set h

theorem registered_set (h : calls[j]? = some call) :
    registered (calls.set j call') i = if i = j then decide (call'.place ≠ .acquired) else registered calls i :=
  elim_set h

theorem elim_append {α : Type} {d : α} {f : SubmitCall → α} (h : f call = d) :
    ((calls ++ [call])[i]?).elim d f = (calls[i]?).elim d f := by
  rcases Nat.lt_trichotomy i calls.length with hi | hi | hi
  case inl => rw [List.getElem?_append_left hi]
  case inr.inl => simp [hi, h]
  case inr.inr =>
    rw [List.getElem?_eq_none (by simp; omega), List.getElem?_eq_none (by omega)]

theorem sentTo_append_acquired : sentTo (calls ++ [{ place := .acquired }]) i = sentTo calls i :=
  elim_append rfl

theorem registered_append_acquired : registered (calls ++ [{ place := .acquired }]) i = registered calls i :=
  elim_append rfl

theorem owes_insert (h : seq ∉ pending) : owes (pending.insert seq j) removed i =
    owes pending removed i + if i = j then 1 else 0 := by
  unfold owes
  rw [AList.entries_insert_of_notMem h, List.countP_cons]
  by_cases hij : i = j
  case pos => simp [hij]; omega
  case neg => simp [hij, Ne.symm hij]

theorem owes_take {result : Result} (h : pending.lookup seq = some j) :
    owes (pending.erase seq) (removed ++ [{ call := j, result }]) i = owes pending removed i := by
  unfold owes
  rw [(Map.entries_perm_erase h).countP_eq, List.countP_cons, List.countP_append, List.countP_singleton]
  by_cases hij : j = i
  case pos => simp [hij]; omega
  case neg => simp [hij]

theorem owes_takeAll {err : UpstreamError} :
    owes ∅ (removed ++ pending.entries.map fun e => { call := e.2, result := .error err }) i =
      owes pending removed i := by
  unfold owes
  rw [List.countP_append, List.countP_map]
  simp [Function.comp_def, Nat.add_comm]

theorem owes_deliver {k : Nat} (h : removed[k]? = some r) (hr : r.delivered = false) :
    owes pending (removed.set k { r with delivered := true }) i + (if i = r.call then 1 else 0) =
      owes pending removed i := by
  have := countP_set (fun r => decide (r.call = i ∧ r.delivered = false)) h { r with delivered := true }
  unfold owes
  by_cases hi : i = r.call
  case pos => simp_all; omega
  case neg => simp_all [Ne.symm hi]

theorem owes_release {k : Nat} (h : removed[k]? = some r) (hr : r.delivered) :
    owes pending (removed.eraseIdx k) i = owes pending removed i := by
  unfold owes
  rw [(perm_cons_eraseIdx h).countP_eq, List.countP_cons]
  simp [hr]

end

namespace Window

structure Inv (w : Window) : Prop where
  slots : w.slots = w.calls.countP (·.place = .acquired) + w.pending.entries.length + w.removed.length
  bound : w.slots ≤ w.size
  once  : ∀ i, owes w.pending w.removed i + sentTo w.calls i = if registered w.calls i then 1 else 0
  waits : ∀ seq i, w.pending.lookup seq = some i → ∃ call, w.calls[i]? = some call ∧ call.place = .waiting seq
  inbox : ∀ call ∈ w.calls, call.inbox.length ≤ call.sent.length

variable {w : Window}

theorem Inv.acquire (h : w.Inv) : (w.step .acquire).Inv := by
  simp only [step]
  split
  case isFalse => exact h
  case isTrue hroom =>
    refine ⟨?_, hroom, fun i => ?_, fun seq i hl => ?_, ?_⟩
    case refine_1 =>
      have := h.slots
      simp
      omega
    case refine_2 => simpa only [sentTo_append_acquired, registered_append_acquired] using h.once i
    case refine_3 =>
      obtain ⟨call, hi, hp⟩ := h.waits seq i hl
      exact ⟨call, by rw [List.getElem?_append_left (List.getElem?_eq_some_iff.mp hi).1]; exact hi, hp⟩
    case refine_4 => exact List.forall_mem_append.mpr ⟨h.inbox, by simp⟩

theorem Inv.register (h : w.Inv) {i : Nat} {seq : UInt32} (hseq : seq ∉ w.pending) :
    (w.step (.register i seq)).Inv := by
  simp only [step]
  split
  case h_2 => exact h
  case h_1 call hi =>
  split
  case isFalse => exact h
  case isTrue hp =>
    have hcount := countP_set (fun c => decide (c.place = .acquired)) hi { call with place := .waiting seq }
    refine ⟨?_, h.bound, fun j => ?_, fun seq' j hl => ?_, fun c hc => ?_⟩
    case refine_1 =>
      have := h.slots
      simp only [hp, decide_true, if_true, reduceCtorEq, decide_false, Bool.false_eq_true, if_false] at hcount
      simp only [AList.entries_insert_of_notMem hseq, List.length_cons]
      omega
    case refine_2 =>
      have honce := h.once j
      simp only [owes_insert hseq, sentTo_set hi, registered_set hi]
      by_cases hj : j = i
      case pos =>
        subst hj
        have hr : registered w.calls j = false := by simp [registered, hi, hp]
        have hs : sentTo w.calls j = call.sent.length := by simp [sentTo, hi]
        rw [hr, hs, if_neg Bool.false_ne_true] at honce
        simp only [if_true, ne_eq, reduceCtorEq, not_false_eq_true, decide_true]
        omega
      case neg => simpa [hj] using honce
    case refine_3 =>
      rw [Map.lookup_insert_eq] at hl
      split at hl
      case isTrue hs =>
        cases hl
        exact ⟨_, List.getElem?_set_self (List.getElem?_eq_some_iff.mp hi).1, by rw [hs]⟩
      case isFalse =>
        obtain ⟨c, hc, hcp⟩ := h.waits seq' j hl
        have hij : i ≠ j := by
          rintro rfl
          cases hi.symm.trans hc
          cases hp.symm.trans hcp
        exact ⟨c, (List.getElem?_set_ne hij).trans hc, hcp⟩
    case refine_4 =>
      rcases mem_set_cases hc with rfl | ⟨j, _, hj⟩
      case inl => exact h.inbox call (List.mem_of_getElem? hi)
      case inr => exact h.inbox c (List.mem_of_getElem? hj)

theorem Inv.take (h : w.Inv) (seq : UInt32) (result : Result) : (w.take seq result).Inv := by
  unfold Window.take
  split
  case h_2 => exact h
  case h_1 call hl =>
    refine ⟨?_, h.bound, fun i => ?_, fun seq' i hl' => ?_, h.inbox⟩
    case refine_1 =>
      have := h.slots
      have hlen := (Map.entries_perm_erase hl).length_eq
      simp only [List.length_append, List.length_cons, List.length_nil] at hlen ⊢
      omega
    case refine_2 => rw [owes_take hl]; exact h.once i
    case refine_3 =>
      rw [Map.lookup_erase_eq] at hl'
      split at hl'
      case isTrue => cases hl'
      case isFalse => exact h.waits seq' i hl'

theorem lookup_take (w : Window) (seq : UInt32) (result : Result) : (w.take seq result).pending.lookup seq = none := by
  unfold take
  split
  case h_1 => simp
  case h_2 hl => exact hl

theorem calls_take (w : Window) (seq : UInt32) (result : Result) : (w.take seq result).calls = w.calls := by
  unfold take
  split <;> rfl

theorem Inv.leave (h : w.Inv) {i : Nat} {call : SubmitCall} {seq : UInt32} {inbox : List Result}
    (hi : w.calls[i]? = some call) (hp : call.place = .waiting seq) (hnone : ∀ seq, w.pending.lookup seq ≠ some i)
    (hin : inbox.length ≤ call.sent.length) :
    Inv { w with calls := w.calls.set i { place := .left, inbox, sent := call.sent } } := by
  have hcount := countP_set (fun c => decide (c.place = .acquired)) hi { place := .left, inbox, sent := call.sent }
  refine ⟨?_, h.bound, fun j => ?_, fun seq' j hl => ?_, fun c hc => ?_⟩
  case refine_1 =>
    have := h.slots
    simp [hp] at hcount
    simp only [hcount]
    exact this
  case refine_2 =>
    have honce := h.once j
    rw [sentTo_set hi, registered_set hi]
    by_cases hj : j = i
    case pos =>
      subst hj
      simpa [registered, sentTo, hi, hp] using honce
    case neg => simpa [hj] using honce
  case refine_3 =>
    obtain ⟨c, hc, hcp⟩ := h.waits seq' j hl
    have hij : i ≠ j := by
      rintro rfl
      exact hnone seq' hl
    exact ⟨c, (List.getElem?_set_ne hij).trans hc, hcp⟩
  case refine_4 =>
    rcases mem_set_cases hc with rfl | ⟨j, _, hj⟩
    case inl => exact hin
    case inr => exact h.inbox c (List.mem_of_getElem? hj)

theorem Inv.fail (h : w.Inv) (i : Nat) (err : UpstreamError) : (w.step (.fail i err)).Inv := by
  simp only [step]
  split
  case h_2 => exact h
  case h_1 seq inbox sent hi =>
    have ht := h.take seq (.error err)
    rw [← calls_take w seq (.error err)] at hi
    refine ht.leave hi rfl (fun seq' hl => ?_) (ht.inbox _ (List.mem_of_getElem? hi))
    obtain ⟨c, hc, hcp⟩ := ht.waits seq' i hl
    cases hi.symm.trans hc
    cases hcp
    exact nomatch (lookup_take w seq (.error err)).symm.trans hl

theorem Inv.failAll (h : w.Inv) (err : UpstreamError) : (w.step (.failAll err)).Inv := by
  refine ⟨?_, h.bound, fun i => ?_, fun _ _ hl => (nomatch hl), h.inbox⟩
  case refine_1 =>
    have := h.slots
    simp [step]
    omega
  case refine_2 =>
    simp only [step, owes_takeAll]
    exact h.once i

theorem Inv.not_pending_of_sent (h : w.Inv) {i : Nat} {call : SubmitCall} (hi : w.calls[i]? = some call)
    (hs : call.sent ≠ []) (seq : UInt32) : w.pending.lookup seq ≠ some i := by
  intro hl
  have honce := h.once i
  have hpos : 0 < w.pending.entries.countP (·.2 = i) :=
    List.countP_pos_iff.mpr ⟨⟨seq, i⟩, Map.mem_entries_iff.mpr hl, by simp⟩
  have hlen := List.length_pos_iff.mpr hs
  simp only [owes, sentTo, hi, Option.elim] at honce
  split at honce <;> omega

theorem Inv.receive (h : w.Inv) (i : Nat) : (w.step (.receive i)).Inv := by
  simp only [step]
  split
  case h_2 => exact h
  case h_1 seq r inbox sent hi =>
    have hin := h.inbox _ (List.mem_of_getElem? hi)
    refine h.leave hi rfl (h.not_pending_of_sent hi ?_) (Nat.le_of_succ_le hin)
    exact List.ne_nil_of_length_pos (Nat.lt_of_lt_of_le (Nat.succ_pos _) hin)

theorem Inv.deliver (h : w.Inv) (k : Nat) : (w.step (.deliver k)).Inv := by
  simp only [step]
  split
  case h_2 => exact h
  case h_1 r hk =>
  split
  case h_2 => exact h
  case h_1 call hi =>
  split
  case isFalse => exact h
  case isTrue hc =>
    have hcount : (w.calls.set r.call { call with inbox := [r.result], sent := call.sent ++ [r.result] }).countP
        (·.place = .acquired) = w.calls.countP (·.place = .acquired) :=
      Nat.add_right_cancel (countP_set (fun c => decide (c.place = .acquired)) hi _)
    refine ⟨?_, h.bound, fun j => ?_, fun seq j hl => ?_, fun c hm => ?_⟩
    case refine_1 =>
      rw [hcount, List.length_set]
      exact h.slots
    case refine_2 =>
      have honce := h.once j
      have howes : owes w.pending (w.removed.set k { r with delivered := true }) j + _ = _ := owes_deliver hk hc.1
      simp only [sentTo_set hi, registered_set hi]
      by_cases hj : j = r.call
      case pos =>
        subst hj
        simp only [sentTo, registered, hi, Option.elim] at honce
        simp only [if_true, List.length_append, List.length_singleton] at howes ⊢
        omega
      case neg => simpa [hj, ← howes] using honce
    case refine_3 =>
      obtain ⟨c, hcj, hcp⟩ := h.waits seq j hl
      by_cases hj : r.call = j
      case pos =>
        subst hj
        cases hi.symm.trans hcj
        exact ⟨_, List.getElem?_set_self (List.getElem?_eq_some_iff.mp hi).1, hcp⟩
      case neg => exact ⟨c, (List.getElem?_set_ne hj).trans hcj, hcp⟩
    case refine_4 =>
      rcases mem_set_cases hm with rfl | ⟨j, _, hj⟩
      case inl => simp
      case inr => exact h.inbox c (List.mem_of_getElem? hj)

theorem Inv.release (h : w.Inv) (k : Nat) : (w.step (.release k)).Inv := by
  simp only [step]
  split
  case h_2 => exact h
  case h_1 r hk =>
  split
  case isFalse => exact h
  case isTrue hc =>
    have hlen := (perm_cons_eraseIdx hk).length_eq
    refine ⟨?_, Nat.le_trans (Nat.sub_le _ _) h.bound, fun i => ?_, h.waits, h.inbox⟩
    case refine_1 =>
      have := h.slots
      simp only [List.length_cons] at hlen ⊢
      omega
    case refine_2 => rw [owes_release hk hc.1]; exact h.once i

def Unused (w : Window) : WindowEvent → Prop
  | .register _ seq => seq ∉ w.pending
  | _               => True

instance (w : Window) : (e : WindowEvent) → Decidable (w.Unused e)
  | .register _ seq => inferInstanceAs (Decidable (seq ∉ w.pending))
  | .acquire        => .isTrue trivial
  | .complete _ _   => .isTrue trivial
  | .fail _ _       => .isTrue trivial
  | .failAll _      => .isTrue trivial
  | .deliver _      => .isTrue trivial
  | .release _      => .isTrue trivial
  | .receive _      => .isTrue trivial

theorem Inv.step (h : w.Inv) {e : WindowEvent} (he : w.Unused e) : (w.step e).Inv := by
  cases e
  case acquire => exact h.acquire
  case register => exact h.register he
  case complete seq pdu => exact h.take seq (.ok pdu)
  case fail i err => exact h.fail i err
  case failAll err => exact h.failAll err
  case deliver k => exact h.deliver k
  case release k => exact h.release k
  case receive i => exact h.receive i

theorem Inv.new (size : Int) : (newWindow size).Inv := by
  refine ⟨rfl, Nat.zero_le _, fun _ => rfl, fun _ _ hl => (nomatch hl), fun _ hc => nomatch hc⟩

-- No slot is lost or given back twice, and every call gets one result.
structure Sound (w : Window) : Prop where
  slots    : w.slots = w.calls.countP (·.place = .acquired) + w.pending.entries.length + w.removed.length
  bound    : w.slots ≤ w.size
  -- The result of a registered call has been sent once, or is still to be sent once.
  once     : ∀ (i : Nat) (call : SubmitCall), w.calls[i]? = some call → call.place ≠ .acquired →
    call.sent.length = 1 ∧ owes w.pending w.removed i = 0 ∨ call.sent = [] ∧ owes w.pending w.removed i = 1
  -- It is owed to a call that has left only by an entry that is on its way.
  finished : ∀ (i : Nat) (call : SubmitCall), w.calls[i]? = some call → call.place = .left → w.removed = [] →
    call.sent.length = 1
  -- Neither a delivery nor a release waits.
  deliver  : ∀ r ∈ w.removed, r.delivered = false →
    ∃ call : SubmitCall, w.calls[r.call]? = some call ∧ call.inbox = []
  release  : ∀ r ∈ w.removed, 0 < w.slots

theorem Inv.sound (h : w.Inv) : w.Sound := by
  have once (i : Nat) (call : SubmitCall) (hi : w.calls[i]? = some call) (hp : call.place ≠ .acquired) :
      owes w.pending w.removed i + call.sent.length = 1 := by
    have honce := h.once i
    simpa [sentTo, registered, hi, hp] using honce
  refine ⟨h.slots, h.bound, fun i call hi hp => ?_, fun i call hi hp hr => ?_, fun r hr hd => ?_, fun r hr => ?_⟩
  case refine_1 =>
    have := once i call hi hp
    by_cases hs : call.sent = []
    case pos => exact .inr ⟨hs, by simpa [hs] using this⟩
    case neg =>
      have := List.length_pos_iff.mpr hs
      exact .inl ⟨by omega, by omega⟩
  case refine_2 =>
    have honce := once i call hi (by rw [hp]; nofun)
    have hnone : owes w.pending w.removed i = 0 := by
      simp only [owes, hr, List.countP_nil, Nat.add_zero, List.countP_eq_zero]
      intro e he hei
      obtain ⟨c, hc, hcp⟩ := h.waits e.1 e.2 (Map.mem_entries_iff.mp he)
      rw [of_decide_eq_true hei] at hc
      cases hi.symm.trans hc
      cases hp.symm.trans hcp
    omega
  case refine_3 =>
    have honce := h.once r.call
    have hpos : 0 < w.removed.countP fun r' => r'.call = r.call ∧ r'.delivered = false :=
      List.countP_pos_iff.mpr ⟨r, hr, by simp [hd]⟩
    cases hi : w.calls[r.call]?
    case none =>
      simp only [owes, sentTo, registered, hi, Option.elim, Bool.false_eq_true, if_false] at honce
      omega
    case some call =>
      have hin := h.inbox call (List.mem_of_getElem? hi)
      have hle : owes w.pending w.removed r.call + call.sent.length ≤ 1 := by
        simp only [sentTo, registered, hi, Option.elim] at honce
        split at honce <;> omega
      refine ⟨call, rfl, List.length_eq_zero_iff.mp ?_⟩
      unfold owes at hle
      omega
  case refine_4 =>
    have := h.slots
    have := List.length_pos_of_mem hr
    omega

end Window

def sampleWindowRun : List WindowEvent :=
  [.acquire, .acquire, .acquire, .register 0 7, .register 1 8, .complete 7 { commandID := 0x80000004, body := [] },
    .complete 7 { commandID := 0x80000004, body := [] }, .failAll .connectionClosed, .fail 1 .notReady, .deliver 0,
    .deliver 1, .receive 0, .release 0, .release 0, .acquire]

end SmppGateway.Client
