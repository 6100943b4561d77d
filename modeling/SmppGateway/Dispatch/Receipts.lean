import SmppGateway.Lib.Machine
import SmppGateway.Store.Pending
import SmppGateway.Dispatch.Aggregate

-- `HandleDLR`, run once for each segment of a message. The calls exclude each other only when they are
-- about the same provider id, so their store calls interleave freely: each call is a small machine whose
-- phase says which store call comes next.

namespace SmppGateway

open Go Machine

inductive HandlerPhase
  | lookup
  | update (rec : Pending)
  | list (rec : Pending)
  | write (rec : Pending) (aggregate : DlrAggregate)
  | push (rec : Pending)
  | ready (rec : Pending)
  | mark (rec : Pending)
  | relist (rec : Pending)
  | delete (rec : Pending)
  | done
  deriving DecidableEq

structure Handler where
  dlr   : Dlr
  phase : HandlerPhase := .lookup

-- What the destination of a receipt made of it: `pushSMPPDLR` defers a receipt that no receiver took.
inductive PushOutcome
  | accepted
  | deferred
  | failed
  deriving DecidableEq, Repr

structure HandlerMove where
  now     : Time
  giveUp  : Bool := false
  outcome : PushOutcome := .accepted

-- The receipt of this step, if there is one, is accepted by its destination. One from an unknown kind
-- of source has none.
def HandlerPhase.Accepts (m : HandlerMove) : HandlerPhase → Prop
  | .push _                  => m.outcome = .accepted
  | .list rec | .write rec _ => rec.sourceKind ≠ .unknown
  | _                        => True

instance (m : HandlerMove) : (phase : HandlerPhase) → Decidable (phase.Accepts m)
  | .push _                  => inferInstanceAs (Decidable (m.outcome = .accepted))
  | .list rec | .write rec _ => inferInstanceAs (Decidable (rec.sourceKind ≠ .unknown))
  | .lookup | .update _ | .ready _ | .mark _ | .relist _ | .delete _ | .done => .isTrue trivial

def HandlerPhase.deliver (rec : Pending) : HandlerPhase :=
  match rec.sourceKind with
  | .smpp    => if rec.registeredDelivery &&& 0x03 = 0 then .mark rec else .push rec
  | .http    => if rec.callbackURL ≠ [] then .push rec else .mark rec
  | .unknown => .done

namespace Handler

def become (h : Handler) (phase : HandlerPhase) : Handler :=
  { h with phase }

def step (s : MemoryStore) (h : Handler) (m : HandlerMove) : Handler × MemoryStore :=
  match h.phase with
  | .lookup =>
    match s.getPending m.now h.dlr.provider h.dlr.providerID with
    | (none, s)     => (h.become (if m.giveUp then .done else .lookup), s)
    | (some rec, s) =>
      ({ dlr   := { h.dlr with doneAt := if h.dlr.doneAt = 0 then m.now else h.dlr.doneAt }
         phase := .update rec }, s)
  | .update rec =>
    match s.updatePendingDLR rec.provider rec.providerID h.dlr.state h.dlr.errorCode h.dlr.doneAt with
    | (.error _, s) => (h.become .done, s)
    | (.ok (), s)   =>
      (h.become (.list
        { rec with
          dlrReady := false, dlrDelivered := false, dlrState := h.dlr.state
          dlrErrorCode := h.dlr.errorCode, dlrDoneAt := h.dlr.doneAt }), s)
  | .list rec =>
    let (segments, s) := s.listPendingByGatewayID m.now rec.gatewayID
    let aggregate := aggregateDLR segments
    (h.become (if aggregate.final then .write rec aggregate else .deliver rec), s)
  | .write rec aggregate =>
    -- The error of this write is only logged.
    (h.become (.deliver rec),
      (s.updateMessageState m.now rec.gatewayID aggregate.state aggregate.errorCode).2)
  | .push rec =>
    match m.outcome, rec.sourceKind with
    | .accepted, _     => (h.become (.mark rec), s)
    | .deferred, .smpp => (h.become (.ready rec), s)
    | _, _             => (h.become .done, s)
  | .ready rec =>
    (h.become .done,
      (s.markDLRReady rec.provider rec.providerID h.dlr.state h.dlr.errorCode h.dlr.doneAt).2)
  | .mark rec =>
    match s.markDLRDelivered rec.provider rec.providerID with
    | (.ok (), s)   => (h.become (.relist rec), s)
    | (.error _, s) => (h.become .done, s)
  | .relist rec =>
    let (segments, s) := s.listPendingByGatewayID m.now rec.gatewayID
    let aggregate := aggregateDLR segments
    (h.become (if aggregate.final && aggregate.allDelivered then .delete rec else .done), s)
  | .delete rec => (h.become .done, (s.deletePendingByGatewayID rec.gatewayID).2)
  | .done => (h, s)

end Handler

structure Receipts where
  store    : MemoryStore
  handlers : List Handler

namespace Receipts

def start (s : MemoryStore) (dlrs : List Dlr) : Receipts where
  store    := s
  handlers := dlrs.map fun dlr => { dlr }

def step (w : Receipts) (e : Nat × HandlerMove) : Receipts :=
  match w.handlers[e.1]? with
  | none   => w
  | some h =>
    let (h', s) := h.step w.store e.2
    { store := s, handlers := w.handlers.set e.1 h' }

def NotExpired (gatewayID : Str) (w : Receipts) (e : Nat × HandlerMove) : Prop :=
  w.store.Unexpired gatewayID e.2.now

instance {gatewayID : Str} (w : Receipts) (e : Nat × HandlerMove) :
    Decidable (NotExpired gatewayID w e) :=
  inferInstanceAs (Decidable (w.store.Unexpired gatewayID e.2.now))

def Accepted (w : Receipts) (e : Nat × HandlerMove) : Prop :=
  ∀ h ∈ w.handlers[e.1]?, h.phase.Accepts e.2

instance (w : Receipts) (e : Nat × HandlerMove) : Decidable (w.Accepted e) :=
  inferInstanceAs (Decidable (∀ h ∈ w.handlers[e.1]?, h.phase.Accepts e.2))

def AllDone (w : Receipts) : Prop :=
  ∀ h ∈ w.handlers, h.phase = .done

instance (w : Receipts) : Decidable w.AllDone :=
  inferInstanceAs (Decidable (∀ h ∈ w.handlers, h.phase = .done))

end Receipts

namespace HandlerPhase

def Waiting : HandlerPhase → Prop
  | lookup | update _ => True
  | _                 => False

-- The row has the state of the receipt, and `MarkDLRDelivered` was not called.
def Open : HandlerPhase → Prop
  | list _ | write .. | push _ | ready _ | mark _ => True
  | _                                             => False

def Closing : HandlerPhase → Prop
  | relist _ | delete _ | done => True
  | _                          => False

def Deciding : HandlerPhase → Prop
  | list _ | write .. => True
  | _                 => False

def Leaving : HandlerPhase → Prop
  | relist _ | delete _ => True
  | _                   => False

def record : HandlerPhase → Option Pending
  | update rec | list rec | write rec _ | push rec | ready rec | mark rec | relist rec | delete rec =>
    some rec
  | lookup | done => none

variable {rec : Pending}

theorem deliver_cases (rec : Pending) :
    deliver rec = mark rec ∨ deliver rec = push rec ∨ rec.sourceKind = .unknown ∧ deliver rec = done := by
  unfold deliver
  cases rec.sourceKind <;> simp only
  case smpp => split <;> simp
  case http => split <;> simp
  case unknown => simp

theorem deliver_record {r : Pending} (h : (deliver rec).record = some r) : r = rec := by
  rcases deliver_cases rec with he | he | ⟨_, he⟩ <;> rw [he] at h <;> cases h <;> rfl

theorem not_waiting_deliver : ¬(deliver rec).Waiting := by
  rcases deliver_cases rec with he | he | ⟨_, he⟩ <;> rw [he] <;> exact id

theorem cases (phase : HandlerPhase) : phase.Waiting ∨ phase.Open ∨ phase.Closing := by
  cases phase <;> simp [Waiting, Open, Closing]

end HandlerPhase

structure Awaits (s : MemoryStore) (gatewayID : Str) (dlrs : List Dlr) (msg : Message) : Prop where
  message  : s.getMessage gatewayID = some msg
  nonempty : dlrs ≠ []
  final    : ∀ dlr ∈ dlrs, isFinalDLRState dlr.state
  rows     : ∀ {i : Nat} {dlr : Dlr}, dlrs[i]? = some dlr →
    ∃ p, s.rowOf gatewayID (pendingKey dlr.provider dlr.providerID) = some p ∧
      p.provider = dlr.provider ∧ p.providerID = dlr.providerID ∧
      p.segmentIndex = i + 1 ∧ p.segmentCount = dlrs.length ∧ ¬isFinalDLRState p.dlrState
  only     : ∀ {k : Str} {p : Pending}, s.rowOf gatewayID k = some p →
    ∃ dlr ∈ dlrs, pendingKey dlr.provider dlr.providerID = k

structure Handler.Owns (n i : Nat) (h : Handler) (p : Pending) : Prop where
  key       : pendingKey p.provider p.providerID = h.dlr.key
  index     : p.segmentIndex = i + 1
  count     : p.segmentCount = n
  waiting   : h.phase.Waiting → ¬isFinalDLRState p.dlrState
  updated   : ¬h.phase.Waiting → p.verdict = h.dlr.verdict
  undelivered : h.phase.Open → p.dlrDelivered = false

namespace Receipts

variable {gatewayID : Str} {w : Receipts} {i j : Nat} {h h' : Handler} {p : Pending}

structure Present (gatewayID : Str) (w : Receipts) : Prop where
  row  : ∀ {i : Nat} {h : Handler}, w.handlers[i]? = some h →
    ∃ p, w.store.rowOf gatewayID h.dlr.key = some p ∧ h.Owns w.handlers.length i p
  only : ∀ {k : Str} {p : Pending}, w.store.rowOf gatewayID k = some p → ∃ h ∈ w.handlers, h.dlr.key = k

structure Gone (gatewayID : Str) (w : Receipts) : Prop where
  rows    : ∀ k, w.store.rowOf gatewayID k = none
  closing : ∀ h ∈ w.handlers, h.phase.Closing

def Complete (gatewayID : Str) (w : Receipts) : Prop :=
  ∀ h ∈ w.handlers, ¬h.phase.Waiting ∧
    ∃ p, w.store.rowOf gatewayID h.dlr.key = some p ∧ p.dlrDelivered

instance : Inhabited Pending := ⟨{ providerID := [], gatewayID := [], provider := [] }⟩

def rows (gatewayID : Str) (w : Receipts) : List Pending :=
  w.handlers.map fun h => (w.store.rowOf gatewayID h.dlr.key).getD default

namespace Present

variable (hp : Present gatewayID w)
include hp

theorem key_inj (hi : w.handlers[i]? = some h) (hj : w.handlers[j]? = some h') (hk : h.dlr.key = h'.dlr.key) :
    i = j := by
  obtain ⟨p, hr, ho⟩ := hp.row hi
  obtain ⟨p', hr', ho'⟩ := hp.row hj
  cases (hk ▸ hr).symm.trans hr'
  have := ho.index.symm.trans ho'.index
  omega

theorem getElem_rows (hi : (rows gatewayID w)[i]? = some p) :
    ∃ h, w.handlers[i]? = some h ∧ w.store.rowOf gatewayID h.dlr.key = some p ∧
      h.Owns w.handlers.length i p := by
  rw [rows, List.getElem?_map, Option.map_eq_some_iff] at hi
  obtain ⟨h, hh, hd⟩ := hi
  obtain ⟨q, hq, ho⟩ := hp.row hh
  rw [hq, Option.getD_some] at hd
  exact ⟨h, hh, hd ▸ hq, hd ▸ ho⟩

theorem mem_rows_iff : p ∈ rows gatewayID w ↔ ∃ k, w.store.rowOf gatewayID k = some p := by
  constructor
  case mp =>
    intro hm
    obtain ⟨i, hi⟩ := List.mem_iff_getElem?.mp hm
    obtain ⟨h, _, hr, _⟩ := hp.getElem_rows hi
    exact ⟨h.dlr.key, hr⟩
  case mpr =>
    rintro ⟨k, hk⟩
    obtain ⟨h, hm, rfl⟩ := hp.only hk
    exact List.mem_map.mpr ⟨h, hm, by rw [hk, Option.getD_some]⟩

theorem row_key_inj {k k' : Str} (hk : w.store.rowOf gatewayID k = some p)
    (hk' : w.store.rowOf gatewayID k' = some p) : k = k' := by
  obtain ⟨h, hm, rfl⟩ := hp.only hk
  obtain ⟨h', hm', rfl⟩ := hp.only hk'
  obtain ⟨i, hi⟩ := List.mem_iff_getElem?.mp hm
  obtain ⟨j, hj⟩ := List.mem_iff_getElem?.mp hm'
  obtain ⟨q, hq, ho⟩ := hp.row hi
  obtain ⟨q', hq', ho'⟩ := hp.row hj
  cases hk.symm.trans hq
  cases hk'.symm.trans hq'
  rw [← ho.key, ← ho'.key]

theorem inOrder : AggregateLoop.InOrder (rows gatewayID w).length (rows gatewayID w) := by
  intro i p hi
  obtain ⟨h, _, _, ho⟩ := hp.getElem_rows hi
  exact ⟨ho.index, by rw [ho.count, rows, List.length_map]⟩

theorem list {now : Time} (hu : w.store.Unexpired gatewayID now) :
    w.store.listPendingByGatewayID now gatewayID = (rows gatewayID w, w.store.sweepLocked now) := by
  refine MemoryStore.listPendingByGatewayID_eq (fun p => hp.mem_rows_iff) hp.row_key_inj ?_ hu
  rw [List.pairwise_iff_getElem]
  intro i j hi hj hij
  have h₁ := (hp.inOrder (List.getElem?_eq_getElem hi)).1
  have h₂ := (hp.inOrder (List.getElem?_eq_getElem hj)).1
  omega

-- What the aggregate of the listed rows says about the handlers.

variable (hf : ∀ h ∈ w.handlers, isFinalDLRState h.dlr.state) (hne : w.handlers ≠ [])

omit hp in
include hne in
theorem rows_ne_nil : rows gatewayID w ≠ [] := by
  simpa [rows] using hne

include hf in
theorem row_final_iff (hi : w.handlers[i]? = some h) (hr : w.store.rowOf gatewayID h.dlr.key = some p) :
    isFinalDLRState p.dlrState ↔ ¬h.phase.Waiting := by
  obtain ⟨q, hq, ho⟩ := hp.row hi
  cases hr.symm.trans hq
  constructor
  case mp => exact fun hfin hw => ho.waiting hw hfin
  case mpr =>
    intro hw
    have hv : upperTrim p.dlrState = upperTrim h.dlr.state := congrArg Prod.fst (ho.updated hw)
    rw [isFinalDLRState, hv]
    exact hf h (List.mem_of_getElem? hi)

include hf hne

theorem final_iff : (aggregateDLR (rows gatewayID w)).final ↔ ∀ h ∈ w.handlers, ¬h.phase.Waiting := by
  rw [aggregateDLR_final (rows_ne_nil hne) hp.inOrder]
  constructor
  case mp =>
    intro hall h hm
    obtain ⟨i, hi⟩ := List.mem_iff_getElem?.mp hm
    obtain ⟨p, hr, _⟩ := hp.row hi
    exact (hp.row_final_iff hf hi hr).mp (hall p (hp.mem_rows_iff.mpr ⟨_, hr⟩))
  case mpr =>
    intro hall p hm
    obtain ⟨i, hi⟩ := List.mem_iff_getElem?.mp hm
    obtain ⟨h, hh, hr, _⟩ := hp.getElem_rows hi
    exact (hp.row_final_iff hf hh hr).mpr (hall h (List.mem_of_getElem? hh))

theorem decided (hall : ∀ h ∈ w.handlers, ¬h.phase.Waiting) :
    Decided (w.handlers.map (·.dlr.verdict)) (aggregateDLR (rows gatewayID w)).state
      (aggregateDLR (rows gatewayID w)).errorCode := by
  have hfin := (aggregateDLR_final (rows_ne_nil hne) hp.inOrder).mp ((hp.final_iff hf hne).mpr hall)
  have hv : (rows gatewayID w).map Pending.verdict = w.handlers.map (·.dlr.verdict) := by
    rw [rows, List.map_map]
    refine List.map_congr_left fun h hm => ?_
    obtain ⟨i, hi⟩ := List.mem_iff_getElem?.mp hm
    obtain ⟨p, hr, ho⟩ := hp.row hi
    rw [Function.comp, hr, Option.getD_some]
    exact ho.updated (hall h hm)
  rw [← hv]
  exact aggregateDLR_decided (rows_ne_nil hne) hp.inOrder hfin

theorem complete_iff :
    (aggregateDLR (rows gatewayID w)).final ∧ (aggregateDLR (rows gatewayID w)).allDelivered ↔
      Complete gatewayID w := by
  rw [hp.final_iff hf hne, aggregateDLR_allDelivered (rows_ne_nil hne) hp.inOrder]
  constructor
  case mp =>
    rintro ⟨hw, hd⟩ h hm
    obtain ⟨i, hi⟩ := List.mem_iff_getElem?.mp hm
    obtain ⟨p, hr, _⟩ := hp.row hi
    exact ⟨hw h hm, p, hr, hd p (hp.mem_rows_iff.mpr ⟨_, hr⟩)⟩
  case mpr =>
    intro hc
    refine ⟨fun h hm => (hc h hm).1, fun p hm => ?_⟩
    obtain ⟨i, hi⟩ := List.mem_iff_getElem?.mp hm
    obtain ⟨h, hh, hr, _⟩ := hp.getElem_rows hi
    obtain ⟨_, q, hq, hd⟩ := hc h (List.mem_of_getElem? hh)
    cases hr.symm.trans hq
    exact hd

end Present

theorem Present.closing_of_complete (hp : Present gatewayID w) (hc : Complete gatewayID w) :
    ∀ h ∈ w.handlers, h.phase.Closing := by
  intro h hm
  obtain ⟨i, hi⟩ := List.mem_iff_getElem?.mp hm
  obtain ⟨p, hr, ho⟩ := hp.row hi
  obtain ⟨hw, q, hq, hd⟩ := hc h hm
  cases hr.symm.trans hq
  rcases h.phase.cases with hph | hph | hph
  case inl => exact absurd hph hw
  case inr.inl => simp [ho.undelivered hph] at hd
  case inr.inr => exact hph

namespace Gone

variable (hg : Gone gatewayID w)
include hg

theorem list {now : Time} (hu : w.store.Unexpired gatewayID now) :
    w.store.listPendingByGatewayID now gatewayID = ([], w.store.sweepLocked now) :=
  MemoryStore.listPendingByGatewayID_eq (by simp [hg.rows]) (by simp [hg.rows]) .nil hu

theorem not_complete (hne : w.handlers ≠ []) : ¬Complete gatewayID w := by
  obtain ⟨h, hm⟩ := List.exists_mem_of_ne_nil _ hne
  intro hc
  obtain ⟨_, p, hp, _⟩ := hc h hm
  cases (hg.rows _).symm.trans hp

end Gone

structure Inv (gatewayID : Str) (verdicts : List (Str × Int)) (w : Receipts) : Prop where
  nonempty : w.handlers ≠ []
  final    : ∀ h ∈ w.handlers, isFinalDLRState h.dlr.state
  verdict  : w.handlers.map (·.dlr.verdict) = verdicts
  record   : ∀ h ∈ w.handlers, ∀ rec, h.phase.record = some rec →
    rec.gatewayID = gatewayID ∧ pendingKey rec.provider rec.providerID = h.dlr.key
  deletes  : ∀ h ∈ w.handlers, ∀ rec, h.phase = .delete rec → ∀ h' ∈ w.handlers, h'.phase.Closing
  rows     : Present gatewayID w ∨ Gone gatewayID w

end Receipts

def Dlr.into (dlr : Dlr) (p : Pending) : Pending :=
  { p with
    dlrDelivered := false, dlrState := dlr.state, dlrErrorCode := dlr.errorCode
    dlrDoneAt := dlr.doneAt }

theorem Dlr.updatePendingDLR_into (dlr : Dlr) {s : MemoryStore} {provider providerID : Str} :
    s.updatePendingDLR provider providerID dlr.state dlr.errorCode dlr.doneAt =
      s.modifyPending provider providerID dlr.into := rfl

-- The steps of a handler while the rows of its message are in order, with their effect on these rows
-- and on the message.
inductive Moved (gatewayID : Str) (verdicts : List (Str × Int)) (w : Receipts) (m : HandlerMove)
    (h : Handler) : Handler → MemoryStore → Prop
  | found {p : Pending} {doneAt : Time} {s : MemoryStore} (phase : h.phase = .lookup)
    (row : w.store.rowOf gatewayID h.dlr.key = some p) (quiet : MemoryStore.Quiet gatewayID w.store s) :
    Moved _ _ _ _ _ { dlr := { h.dlr with doneAt }, phase := .update p } s
  | updated {rec rec' : Pending} {s : MemoryStore} (phase : h.phase = .update rec)
    (same : rec'.gatewayID = rec.gatewayID ∧ rec'.provider = rec.provider ∧
      rec'.providerID = rec.providerID)
    (rewrites : MemoryStore.Rewrites gatewayID h.dlr.key h.dlr.into w.store s) :
    Moved _ _ _ _ _ (h.become (.list rec')) s
  | undecided {rec : Pending} {s : MemoryStore} (phase : h.phase = .list rec)
    (waiting : ∃ h' ∈ w.handlers, h'.phase.Waiting)
    (quiet : MemoryStore.Quiet gatewayID w.store s) : Moved _ _ _ _ _ (h.become (.deliver rec)) s
  | decided {rec : Pending} {aggregate : DlrAggregate} {s : MemoryStore}
    (phase : h.phase = .list rec) (all : ∀ h' ∈ w.handlers, ¬h'.phase.Waiting)
    (decided : Decided verdicts aggregate.state aggregate.errorCode)
    (quiet : MemoryStore.Quiet gatewayID w.store s) :
    Moved _ _ _ _ _ (h.become (.write rec aggregate)) s
  | written {rec : Pending} {aggregate : DlrAggregate} {s : MemoryStore}
    (phase : h.phase = .write rec aggregate)
    (rows : ∀ k, s.rowOf gatewayID k = w.store.rowOf gatewayID k)
    (message : ∀ msg, w.store.getMessage gatewayID = some msg → s.getMessage gatewayID =
      some { msg with state := aggregate.state, errorCode := aggregate.errorCode, doneAt := m.now }) :
    Moved _ _ _ _ _ (h.become (.deliver rec)) s
  | pushed {rec : Pending} (phase : h.phase = .push rec) :
    Moved _ _ _ _ _ (h.become (.mark rec)) w.store
  | dropped {rec : Pending} {next : HandlerPhase} (phase : h.phase = .push rec)
    (refused : m.outcome ≠ .accepted) (next_eq : next = .ready rec ∨ next = .done) :
    Moved _ _ _ _ _ (h.become next) w.store
  | deferred {rec : Pending} {s : MemoryStore} (phase : h.phase = .ready rec)
    (rewrites : MemoryStore.Rewrites gatewayID h.dlr.key
      (fun p => { h.dlr.into p with dlrReady := true }) w.store s) :
    Moved _ _ _ _ _ (h.become .done) s
  | marked {rec : Pending} {s : MemoryStore} (phase : h.phase = .mark rec)
    (rewrites : MemoryStore.Rewrites gatewayID h.dlr.key
      (fun p => { p with dlrReady := false, dlrDelivered := true }) w.store s) :
    Moved _ _ _ _ _ (h.become (.relist rec)) s
  | finished {rec : Pending} {s : MemoryStore} (phase : h.phase = .relist rec)
    (incomplete : ¬w.Complete gatewayID) (quiet : MemoryStore.Quiet gatewayID w.store s) :
    Moved _ _ _ _ _ (h.become .done) s
  | closed {rec : Pending} {s : MemoryStore} (phase : h.phase = .relist rec)
    (closing : ∀ h' ∈ w.handlers, h'.phase.Closing)
    (quiet : MemoryStore.Quiet gatewayID w.store s) : Moved _ _ _ _ _ (h.become (.delete rec)) s
  | deleted {rec : Pending} {s : MemoryStore} (phase : h.phase = .delete rec)
    (rows : ∀ k, s.rowOf gatewayID k = none)
    (message : s.getMessage gatewayID = w.store.getMessage gatewayID) :
    Moved _ _ _ _ _ (h.become .done) s
  | idle (phase : h.phase = .done) : Moved _ _ _ _ _ h w.store

namespace Receipts

variable {gatewayID : Str} {verdicts : List (Str × Int)} {w : Receipts} {m : HandlerMove} {i : Nat}
  {h : Handler}

theorem Inv.moved (inv : Inv gatewayID verdicts w) (hi : w.handlers[i]? = some h)
    (hu : w.store.Unexpired gatewayID m.now) :
    Moved gatewayID verdicts w m h (h.step w.store m).1 (h.step w.store m).2 := by
  have hrec := inv.record h (List.mem_of_getElem? hi)
  -- A handler that still has something to do with its row finds it.
  have hrow : ¬h.phase.Closing → Present gatewayID w := fun hc =>
    inv.rows.resolve_right fun hg => hc (hg.closing h (List.mem_of_getElem? hi))
  obtain ⟨dlr, phase⟩ := h
  cases phase
  case lookup =>
    obtain ⟨p, hr, _⟩ := (hrow id).row hi
    simp only [Handler.step, MemoryStore.getPending_unexpired hu hr]
    exact .found rfl hr (MemoryStore.sweepLocked_quiet hu)
  case update rec =>
    obtain ⟨p, hr, _⟩ := (hrow id).row hi
    obtain ⟨_, hk⟩ := hrec rec rfl
    rw [← hk] at hr
    obtain ⟨s', he, hrw⟩ := MemoryStore.modifyPending_ok (f := dlr.into) (fun _ => rfl) hr
    simp only [Handler.step, dlr.updatePendingDLR_into, he]
    exact .updated rfl ⟨rfl, rfl, rfl⟩ (hk ▸ hrw)
  case list rec =>
    obtain ⟨rfl, _⟩ := hrec rec rfl
    have hp := hrow id
    simp only [Handler.step, hp.list hu]
    split
    case isTrue hfin =>
      have hall := (hp.final_iff inv.final inv.nonempty).mp hfin
      have hd := inv.verdict ▸ hp.decided inv.final inv.nonempty hall
      exact .decided rfl hall hd (MemoryStore.sweepLocked_quiet hu)
    case isFalse hfin =>
      rw [hp.final_iff inv.final inv.nonempty] at hfin
      push Not at hfin
      exact .undecided rfl hfin (MemoryStore.sweepLocked_quiet hu)
  case write rec aggregate =>
    obtain ⟨rfl, _⟩ := hrec rec rfl
    exact .written rfl (fun _ => MemoryStore.rowOf_updateMessageState)
      fun _ => MemoryStore.getMessage_updateMessageState
  case push rec =>
    simp only [Handler.step]
    split
    case h_1 => exact .pushed rfl
    case h_2 ho _ => exact .dropped rfl (by simp [ho]) (.inl rfl)
    case h_3 ho _ => exact .dropped rfl ho (.inr rfl)
  case ready rec =>
    obtain ⟨_, hk⟩ := hrec rec rfl
    exact .deferred rfl (hk ▸ MemoryStore.modifyPending_rewrites fun _ => rfl)
  case mark rec =>
    obtain ⟨p, hr, _⟩ := (hrow id).row hi
    obtain ⟨_, hk⟩ := hrec rec rfl
    rw [← hk] at hr
    obtain ⟨s', he, hrw⟩ := MemoryStore.modifyPending_ok
      (f := fun p => { p with dlrReady := false, dlrDelivered := true }) (fun _ => rfl) hr
    simp only [Handler.step, MemoryStore.markDLRDelivered, he]
    exact .marked rfl (hk ▸ hrw)
  case relist rec =>
    obtain ⟨rfl, _⟩ := hrec rec rfl
    rcases inv.rows with hp | hg
    case inl =>
      have hc := hp.complete_iff inv.final inv.nonempty
      simp only [Handler.step, hp.list hu]
      split
      case isTrue hfin =>
        have hall := hp.closing_of_complete (hc.mp (by simpa using hfin))
        exact .closed rfl hall (MemoryStore.sweepLocked_quiet hu)
      case isFalse hfin =>
        exact .finished rfl (fun h => hfin (by simpa using hc.mpr h)) (MemoryStore.sweepLocked_quiet hu)
    case inr =>
      simp only [Handler.step, hg.list hu]
      exact .finished rfl (hg.not_complete inv.nonempty) (MemoryStore.sweepLocked_quiet hu)
  case delete rec =>
    obtain ⟨rfl, _⟩ := hrec rec rfl
    exact .deleted rfl (fun _ => MemoryStore.rowOf_deletePendingByGatewayID) rfl
  case done => exact .idle rfl

end Receipts

namespace Moved

variable {gatewayID : Str} {verdicts : List (Str × Int)} {w : Receipts} {m : HandlerMove}
  {h h' : Handler} {s' : MemoryStore} (mv : Moved gatewayID verdicts w m h h' s') {rec : Pending}
include mv

theorem dlr_eq : h'.dlr.state = h.dlr.state ∧ h'.dlr.verdict = h.dlr.verdict ∧ h'.dlr.key = h.dlr.key := by
  cases mv <;> exact ⟨rfl, rfl, rfl⟩

theorem waiting (hw : h'.phase.Waiting) : h.phase.Waiting := by
  cases mv
  case found hp _ _ => rw [hp]; trivial
  case idle => exact hw
  case undecided | written => exact absurd hw HandlerPhase.not_waiting_deliver
  case dropped hn => rcases hn with rfl | rfl <;> exact hw.elim
  all_goals exact hw.elim

theorem closing (hc : h.phase.Closing) : h'.phase.Closing := by
  cases mv
  case idle => exact hc
  case finished | closed | deleted => trivial
  all_goals
    rw [‹h.phase = _›] at hc
    exact hc.elim

theorem record {rec' : Pending} (hr : h'.phase.record = some rec') :
    w.store.rowOf gatewayID h.dlr.key = some rec' ∨
    ∃ rec, h.phase.record = some rec ∧ rec'.gatewayID = rec.gatewayID ∧
      rec'.provider = rec.provider ∧ rec'.providerID = rec.providerID := by
  cases mv
  case found hrow _ => cases hr; exact .inl hrow
  case updated hp hs _ => cases hr; exact .inr ⟨_, by rw [hp]; rfl, hs⟩
  case undecided hp _ _ | written hp _ _ =>
    cases HandlerPhase.deliver_record hr
    exact .inr ⟨_, by rw [hp]; rfl, rfl, rfl, rfl⟩
  case dropped hp _ hn =>
    rcases hn with rfl | rfl
    case inl => cases hr; exact .inr ⟨_, by rw [hp]; rfl, rfl, rfl, rfl⟩
    case inr => cases hr
  case idle => exact .inr ⟨rec', hr, rfl, rfl, rfl⟩
  case decided hp _ _ _ | pushed hp | marked hp _ | closed hp _ _ =>
    cases hr; exact .inr ⟨_, by rw [hp]; rfl, rfl, rfl, rfl⟩
  all_goals cases hr

theorem deletes (hd : h'.phase = .delete rec) : ∀ x ∈ w.handlers, x.phase.Closing := by
  cases mv
  case closed hc _ => exact hc
  case undecided | written =>
    rcases HandlerPhase.deliver_cases ‹_› with he | he | ⟨_, he⟩ <;> cases he.symm.trans hd
  case dropped hn => rcases hn with rfl | rfl <;> cases hd
  case idle hp => cases hp.symm.trans hd
  all_goals cases hd

theorem rows_none (hn : ∀ k, w.store.rowOf gatewayID k = none) (k : Str) :
    s'.rowOf gatewayID k = none := by
  cases mv
  case found hq | undecided hq | decided hq | finished hq | closed hq => rw [hq.rows, hn]
  case updated hrw | deferred hrw | marked hrw => rw [hrw.rows, hn, Option.map_none, ite_self]
  case written hr _ => rw [hr, hn]
  case pushed | dropped | idle => exact hn k
  case deleted hr _ => exact hr k

theorem rows_deleted (hd : h.phase = .delete rec) (k : Str) : s'.rowOf gatewayID k = none := by
  cases mv
  case deleted hr _ => exact hr k
  all_goals cases hd.symm.trans ‹h.phase = _›

theorem message (hw : ∀ rec aggregate, h.phase ≠ .write rec aggregate) :
    s'.getMessage gatewayID = w.store.getMessage gatewayID := by
  cases mv
  case found hq | undecided hq | decided hq | finished hq | closed hq => exact hq.message
  case updated hrw | deferred hrw | marked hrw => exact hrw.message
  case written hp _ _ => exact absurd hp (hw _ _)
  case pushed | dropped | idle => rfl
  case deleted hm => exact hm

theorem frame {k : Str} {p : Pending} (hk : k ≠ h.dlr.key) (hr : s'.rowOf gatewayID k = some p) :
    w.store.rowOf gatewayID k = some p := by
  cases mv
  case found hq | undecided hq | decided hq | finished hq | closed hq => rwa [hq.rows] at hr
  case updated hrw | deferred hrw | marked hrw => rwa [hrw.rows, if_neg hk] at hr
  case written hrows _ => rwa [hrows] at hr
  case pushed | dropped | idle => exact hr
  case deleted hrows _ => cases (hrows k).symm.trans hr

theorem closing_frame {k : Str} {p : Pending} (hc : h.phase.Closing)
    (hr : s'.rowOf gatewayID k = some p) : w.store.rowOf gatewayID k = some p := by
  cases mv
  case finished hq | closed hq => rwa [hq.rows] at hr
  case deleted hrows _ => cases (hrows k).symm.trans hr
  case idle => exact hr
  all_goals
    rw [‹h.phase = _›] at hc
    exact hc.elim

theorem leaving (hl : h.phase.Leaving) :
    h'.phase.Leaving ∨ (∀ k, s'.rowOf gatewayID k = none) ∨ ¬w.Complete gatewayID := by
  cases mv
  case finished hi _ => exact .inr (.inr hi)
  case closed => exact .inl trivial
  case deleted hrows _ => exact .inr (.inl hrows)
  all_goals
    rw [‹h.phase = _›] at hl
    exact hl.elim

theorem writes {aggregate : DlrAggregate} (hw : h'.phase = .write rec aggregate) :
    Decided verdicts aggregate.state aggregate.errorCode ∧ ∀ x ∈ w.handlers, ¬x.phase.Waiting := by
  cases mv
  case decided hall hd _ => cases hw; exact ⟨hd, hall⟩
  case undecided | written =>
    rcases HandlerPhase.deliver_cases ‹_› with he | he | ⟨_, he⟩ <;> cases he.symm.trans hw
  case dropped hn => rcases hn with rfl | rfl <;> cases hw
  case idle hp => cases hp.symm.trans hw
  all_goals cases hw

theorem not_deciding (hall : ∀ x ∈ w.handlers, x ≠ h → ¬x.phase.Waiting)
    (hw : ∀ rec aggregate, h.phase ≠ .write rec aggregate) (hn : ¬h'.phase.Waiting)
    (hd : ¬h'.phase.Deciding) : ¬h.phase.Waiting ∧ ¬h.phase.Deciding := by
  cases mv
  case found => exact absurd trivial hn
  case updated => exact absurd trivial hd
  case undecided hp hwait _ =>
    obtain ⟨x, hx, hxw⟩ := hwait
    by_cases he : x = h
    case pos => rw [he, hp] at hxw; exact hxw.elim
    case neg => exact absurd hxw (hall x hx he)
  case decided => exact absurd trivial hd
  case written hp _ _ => exact absurd hp (hw _ _)
  all_goals rw [‹h.phase = _›]; exact ⟨id, id⟩

end Moved

namespace Handler.Owns

variable {n i : Nat} {h h' : Handler} {p : Pending}

theorem keep (ho : h.Owns n i p) (hk : h'.dlr.key = h.dlr.key) (hv : h'.dlr.verdict = h.dlr.verdict)
    (hw : h'.phase.Waiting ↔ h.phase.Waiting) (hopen : h'.phase.Open → h.phase.Open) :
    h'.Owns n i p where
  key              := ho.key.trans hk.symm
  index            := ho.index
  count            := ho.count
  waiting hw'      := ho.waiting (hw.mp hw')
  updated hw'      := (ho.updated (hw.not.mp hw')).trans hv.symm
  undelivered hop  := ho.undelivered (hopen hop)

end Handler.Owns

namespace Receipts

variable {gatewayID : Str} {verdicts : List (Str × Int)} {w : Receipts} {m : HandlerMove}
  {i j : Nat} {h h' : Handler} {s' : MemoryStore}

theorem Present.set {p' : Pending} (hp : Present gatewayID w) (hi : w.handlers[i]? = some h)
    (hk : h'.dlr.key = h.dlr.key) (hrow : s'.rowOf gatewayID h.dlr.key = some p')
    (ho : h'.Owns w.handlers.length i p')
    (hframe : ∀ k, k ≠ h.dlr.key → s'.rowOf gatewayID k = w.store.rowOf gatewayID k) :
    Present gatewayID { store := s', handlers := w.handlers.set i h' } where
  row {j x} hj := by
    rw [List.length_set]
    rcases getElem?_set_cases hj with ⟨rfl, rfl⟩ | ⟨hne, hj⟩
    case inl => exact ⟨p', hk ▸ hrow, ho⟩
    case inr =>
      have hkey : x.dlr.key ≠ h.dlr.key := fun e => hne (hp.key_inj hi hj e.symm)
      rw [hframe _ hkey]
      exact hp.row hj
  only {k p} hr := by
    by_cases hkey : k = h.dlr.key
    case pos => exact ⟨h', mem_set_self hi, hk.trans hkey.symm⟩
    case neg =>
      obtain ⟨x, hm, rfl⟩ := hp.only (hframe k hkey ▸ hr)
      obtain ⟨j, hj⟩ := List.mem_iff_getElem?.mp hm
      have hij : i ≠ j := by
        rintro rfl
        cases hi.symm.trans hj
        exact hkey rfl
      exact ⟨x, mem_set_of_ne hij hj, rfl⟩

section Step

variable (hi : w.handlers[i]? = some h)
include hi

theorem Present.keep (hp : Present gatewayID w)
    (hq : ∀ k, s'.rowOf gatewayID k = w.store.rowOf gatewayID k) (hk : h'.dlr.key = h.dlr.key)
    (hv : h'.dlr.verdict = h.dlr.verdict) (hw : h'.phase.Waiting ↔ h.phase.Waiting)
    (hopen : h'.phase.Open → h.phase.Open) :
    Present gatewayID { store := s', handlers := w.handlers.set i h' } := by
  obtain ⟨p, hr, ho⟩ := hp.row hi
  exact hp.set hi hk ((hq _).trans hr) (ho.keep hk hv hw hopen) fun k _ => hq k

theorem Present.rewrite {f : Pending → Pending} (hp : Present gatewayID w)
    (hf : MemoryStore.Rewrites gatewayID h.dlr.key f w.store s') (hk : h'.dlr.key = h.dlr.key)
    (ho : ∀ p, h.Owns w.handlers.length i p → h'.Owns w.handlers.length i (f p)) :
    Present gatewayID { store := s', handlers := w.handlers.set i h' } := by
  obtain ⟨p, hr, hown⟩ := hp.row hi
  have hrow : s'.rowOf gatewayID h.dlr.key = some (f p) := by rw [hf.rows, if_pos rfl, hr]; rfl
  refine hp.set hi hk hrow (ho p hown) fun k hne => ?_
  rw [hf.rows, if_neg hne]

theorem Present.moved (hp : Present gatewayID w) (mv : Moved gatewayID verdicts w m h h' s')
    (hd : ∀ rec, h.phase ≠ .delete rec) :
    Present gatewayID { store := s', handlers := w.handlers.set i h' } := by
  obtain ⟨-, hv, hk⟩ := mv.dlr_eq
  cases mv
  case found hph _ hq =>
    exact hp.keep hi hq.rows hk hv (iff_of_true trivial (by rw [hph]; trivial)) False.elim
  case updated hph _ hrw | deferred hph hrw =>
    refine hp.rewrite hi hrw hk fun p ho => ?_
    exact ⟨ho.key, ho.index, ho.count, False.elim, fun _ => rfl, fun _ => rfl⟩
  case marked hph hrw =>
    refine hp.rewrite hi hrw hk fun p ho => ?_
    have hu := ho.updated (by rw [hph]; exact id)
    exact ⟨ho.key, ho.index, ho.count, False.elim, fun _ => hu, False.elim⟩
  case undecided hph _ hq =>
    have hw : ¬h.phase.Waiting := by rw [hph]; exact id
    exact hp.keep hi hq.rows hk hv (iff_of_false HandlerPhase.not_waiting_deliver hw)
      fun _ => by rw [hph]; trivial
  case written hph hq _ =>
    have hw : ¬h.phase.Waiting := by rw [hph]; exact id
    exact hp.keep hi hq hk hv (iff_of_false HandlerPhase.not_waiting_deliver hw)
      fun _ => by rw [hph]; trivial
  case decided hph _ _ hq =>
    exact hp.keep hi hq.rows hk hv (by rw [hph]; rfl) fun _ => by rw [hph]; trivial
  case pushed hph =>
    exact hp.keep hi (fun _ => rfl) hk hv (by rw [hph]; rfl) fun _ => by rw [hph]; trivial
  case dropped hph _ hn =>
    refine hp.keep hi (fun _ => rfl) hk hv ?_ fun _ => by rw [hph]; trivial
    rcases hn with rfl | rfl <;> rw [hph] <;> rfl
  case finished hph _ hq | closed hph _ hq =>
    exact hp.keep hi hq.rows hk hv (by rw [hph]; rfl) False.elim
  case deleted hph _ _ => exact absurd hph (hd _)
  case idle => exact hp.keep hi (fun _ => rfl) rfl rfl Iff.rfl id

theorem Gone.of_moved (mv : Moved gatewayID verdicts w m h h' s')
    (hn : ∀ k, s'.rowOf gatewayID k = none) (hc : ∀ x ∈ w.handlers, x.phase.Closing) :
    Gone gatewayID { store := s', handlers := w.handlers.set i h' } where
  rows := hn
  closing x hm := by
    rcases mem_set_cases hm with rfl | ⟨j, _, hj⟩
    case inl => exact mv.closing (hc h (List.mem_of_getElem? hi))
    case inr => exact hc x (List.mem_of_getElem? hj)

theorem Inv.moved_record (inv : Inv gatewayID verdicts w)
    (mv : Moved gatewayID verdicts w m h h' s') {rec : Pending} (hr : h'.phase.record = some rec) :
    rec.gatewayID = gatewayID ∧ pendingKey rec.provider rec.providerID = h.dlr.key := by
  rcases mv.record hr with hrow | ⟨old, ho, hg, hp, hid⟩
  case inl =>
    rcases inv.rows with hp | hg
    case inl =>
      obtain ⟨p, hr, ho⟩ := hp.row hi
      cases hrow.symm.trans hr
      exact ⟨(MemoryStore.rowOf_eq_some.mp hr).2, ho.key⟩
    case inr => cases (hg.rows _).symm.trans hrow
  case inr =>
    rw [hg, hp, hid]
    exact inv.record h (List.mem_of_getElem? hi) old ho

theorem Inv.step (inv : Inv gatewayID verdicts w) (mv : Moved gatewayID verdicts w m h h' s') :
    Inv gatewayID verdicts { store := s', handlers := w.handlers.set i h' } := by
  have hm := List.mem_of_getElem? hi
  have ⟨hst, hv, hk⟩ := mv.dlr_eq
  constructor
  case nonempty => simpa using inv.nonempty
  case final =>
    intro x hx
    rcases mem_set_cases hx with rfl | ⟨j, _, hj⟩
    case inl => rw [hst]; exact inv.final h hm
    case inr => exact inv.final x (List.mem_of_getElem? hj)
  case verdict => exact (map_set_eq hi hv).trans inv.verdict
  case record =>
    intro x hx rec hr
    rcases mem_set_cases hx with rfl | ⟨j, _, hj⟩
    case inl => rw [hk]; exact inv.moved_record hi mv hr
    case inr => exact inv.record x (List.mem_of_getElem? hj) rec hr
  case deletes =>
    intro x hx rec hd y hy
    have hall : ∀ y ∈ w.handlers, y.phase.Closing := by
      rcases mem_set_cases hx with rfl | ⟨j, _, hj⟩
      case inl => exact mv.deletes hd
      case inr => exact inv.deletes x (List.mem_of_getElem? hj) rec hd
    rcases mem_set_cases hy with rfl | ⟨j, _, hj⟩
    case inl => exact mv.closing (hall h hm)
    case inr => exact hall y (List.mem_of_getElem? hj)
  case rows =>
    rcases inv.rows with hp | hg
    case inl =>
      by_cases hd : ∃ rec, h.phase = .delete rec
      case pos =>
        obtain ⟨rec, hd⟩ := hd
        exact .inr (.of_moved hi mv (mv.rows_deleted hd) (inv.deletes h hm rec hd))
      case neg => exact .inl (hp.moved hi mv fun rec hr => hd ⟨rec, hr⟩)
    case inr => exact .inr (.of_moved hi mv (mv.rows_none hg.rows) hg.closing)

end Step

end Receipts

end SmppGateway
