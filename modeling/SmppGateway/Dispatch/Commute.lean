import SmppGateway.Dispatch.Receipts

-- The receipts of the segments of a message lead to the same message state in every order and every
-- interleaving of their handlers.

namespace SmppGateway

open Go Machine

namespace Receipts

variable {gatewayID : Str} {verdicts : List (Str × Int)} {msg : Message} {w : Receipts}
  {m : HandlerMove} {i : Nat} {h h' : Handler} {s' : MemoryStore}

-- The message is untouched while a receipt is missing; afterwards it is decided, or a handler is on its
-- way to write the decision.
structure Told (gatewayID : Str) (verdicts : List (Str × Int)) (msg : Message) (w : Receipts) :
    Prop where
  message : ∃ msg, w.store.getMessage gatewayID = some msg
  early   : ∀ h ∈ w.handlers, h.phase.Waiting → w.store.getMessage gatewayID = some msg
  writes  : ∀ h ∈ w.handlers, ∀ rec aggregate, h.phase = .write rec aggregate →
    Decided verdicts aggregate.state aggregate.errorCode ∧ ∀ x ∈ w.handlers, ¬x.phase.Waiting
  settled : (∀ h ∈ w.handlers, ¬h.phase.Waiting) → (∃ h ∈ w.handlers, h.phase.Deciding) ∨
    ∃ msg, w.store.getMessage gatewayID = some msg ∧ Decided verdicts msg.state msg.errorCode

section Step

variable (hi : w.handlers[i]? = some h) (mv : Moved gatewayID verdicts w m h h' s')
include hi mv

theorem not_waiting_set (hall : ∀ x ∈ w.handlers, ¬x.phase.Waiting) :
    ∀ x ∈ w.handlers.set i h', ¬x.phase.Waiting := by
  intro x hx
  rcases mem_set_cases hx with rfl | ⟨j, _, hj⟩
  case inl => exact fun hw => hall h (List.mem_of_getElem? hi) (mv.waiting hw)
  case inr => exact hall x (List.mem_of_getElem? hj)

theorem Told.write {rec : Pending} {aggregate : DlrAggregate} (ht : Told gatewayID verdicts msg w)
    (hw : h.phase = .write rec aggregate) :
    Told gatewayID verdicts msg { store := s', handlers := w.handlers.set i h' } := by
  obtain ⟨hd, hall⟩ := ht.writes h (List.mem_of_getElem? hi) rec aggregate hw
  have hall' := not_waiting_set hi mv hall
  obtain ⟨old, hold⟩ := ht.message
  have hmsg : ∃ msg, s'.getMessage gatewayID = some msg ∧ Decided verdicts msg.state msg.errorCode := by
    cases mv
    case written hp _ hm => cases hp.symm.trans hw; exact ⟨_, hm old hold, hd⟩
    all_goals cases hw.symm.trans ‹h.phase = _›
  constructor
  case message => exact hmsg.imp fun _ => And.left
  case early => exact fun x hx hwait => absurd hwait (hall' x hx)
  case writes =>
    intro x hx rec aggregate hxw
    rcases mem_set_cases hx with rfl | ⟨j, _, hj⟩
    case inl => exact ⟨(mv.writes hxw).1, hall'⟩
    case inr => exact ⟨(ht.writes x (List.mem_of_getElem? hj) rec aggregate hxw).1, hall'⟩
  case settled => exact fun _ => .inr hmsg

theorem Told.other (ht : Told gatewayID verdicts msg w)
    (hw : ∀ rec aggregate, h.phase ≠ .write rec aggregate) :
    Told gatewayID verdicts msg { store := s', handlers := w.handlers.set i h' } := by
  have hmsg := mv.message hw
  constructor
  case message => simpa only [hmsg] using ht.message
  case early =>
    intro x hx hwait
    rw [hmsg]
    rcases mem_set_cases hx with rfl | ⟨j, _, hj⟩
    case inl => exact ht.early h (List.mem_of_getElem? hi) (mv.waiting hwait)
    case inr => exact ht.early x (List.mem_of_getElem? hj) hwait
  case writes =>
    intro x hx rec aggregate hxw
    have ⟨hd, hall⟩ : Decided verdicts aggregate.state aggregate.errorCode ∧
        ∀ x ∈ w.handlers, ¬x.phase.Waiting := by
      rcases mem_set_cases hx with rfl | ⟨j, _, hj⟩
      case inl => exact mv.writes hxw
      case inr => exact ht.writes x (List.mem_of_getElem? hj) rec aggregate hxw
    exact ⟨hd, not_waiting_set hi mv hall⟩
  case settled =>
    intro hall
    by_cases hd : h'.phase.Deciding
    case pos => exact .inl ⟨h', mem_set_self hi, hd⟩
    case neg =>
      -- Before this step no handler was waiting either, and whoever was to decide still is.
      have hother : ∀ x ∈ w.handlers, x ≠ h → ¬x.phase.Waiting := by
        intro x hx hne
        obtain ⟨j, hj⟩ := List.mem_iff_getElem?.mp hx
        have hij : i ≠ j := by rintro rfl; cases hi.symm.trans hj; exact hne rfl
        exact hall x (mem_set_of_ne hij hj)
      have ⟨hnw, hnd⟩ := mv.not_deciding hother hw (hall h' (mem_set_self hi)) hd
      have hbefore : ∀ x ∈ w.handlers, ¬x.phase.Waiting := by
        intro x hx
        by_cases he : x = h
        case pos => exact he ▸ hnw
        case neg => exact hother x hx he
      rcases ht.settled hbefore with ⟨x, hx, hxd⟩ | hdone
      case inl =>
        obtain ⟨j, hj⟩ := List.mem_iff_getElem?.mp hx
        have hij : i ≠ j := by rintro rfl; cases hi.symm.trans hj; exact hnd hxd
        exact .inl ⟨x, mem_set_of_ne hij hj, hxd⟩
      case inr => simpa only [hmsg] using Or.inr hdone

theorem Told.step (ht : Told gatewayID verdicts msg w) :
    Told gatewayID verdicts msg { store := s', handlers := w.handlers.set i h' } := by
  by_cases hw : ∃ rec aggregate, h.phase = .write rec aggregate
  case pos =>
    obtain ⟨rec, aggregate, hw⟩ := hw
    exact ht.write hi mv hw
  case neg => exact ht.other hi mv fun rec aggregate he => hw ⟨rec, aggregate, he⟩

end Step

-- While every receipt is accepted, a handler that has come to its end leaves its row delivered, and when
-- all have, the rows are gone or some handler will still look at them.
structure Acked (gatewayID : Str) (w : Receipts) : Prop where
  notReady  : ∀ h ∈ w.handlers, ∀ rec, h.phase ≠ .ready rec
  delivered : ∀ h ∈ w.handlers, h.phase.Closing → ∀ p, w.store.rowOf gatewayID h.dlr.key = some p →
    p.dlrDelivered
  closes    : (∀ h ∈ w.handlers, h.phase.Closing) →
    Gone gatewayID w ∨ ∃ h ∈ w.handlers, h.phase.Leaving

theorem Acked.complete (ha : Acked gatewayID w) (hp : Present gatewayID w)
    (hc : ∀ h ∈ w.handlers, h.phase.Closing) : Complete gatewayID w := by
  intro h hm
  obtain ⟨i, hi⟩ := List.mem_iff_getElem?.mp hm
  obtain ⟨p, hr, _⟩ := hp.row hi
  have hch := hc h hm
  refine ⟨fun hw => ?_, p, hr, ha.delivered h hm hch p hr⟩
  cases hph : h.phase <;> simp only [hph] at hw hch <;> first | exact hw.elim | exact hch.elim

section Step

variable (hi : w.handlers[i]? = some h) (mv : Moved gatewayID verdicts w m h h' s')
  (hacc : w.Accepted (i, m))
include hi hacc

theorem Accepted.accepts : h.phase.Accepts m :=
  hacc h hi

include mv

theorem Acked.closing_cases (ha : Acked gatewayID w) (hc : h'.phase.Closing) :
    h.phase.Closing ∨ h'.phase.Leaving ∧ ∀ p, s'.rowOf gatewayID h.dlr.key = some p → p.dlrDelivered := by
  have hdeliver {rec : Pending} (hk : rec.sourceKind ≠ .unknown) :
      ¬(HandlerPhase.deliver rec).Closing := by
    rcases HandlerPhase.deliver_cases rec with he | he | ⟨hu, _⟩
    case inl => rw [he]; exact id
    case inr.inl => rw [he]; exact id
    case inr.inr => exact absurd hu hk
  cases mv
  case undecided hp _ _ | written hp _ _ =>
    have hk := Accepted.accepts hi hacc
    rw [hp] at hk
    exact absurd hc (hdeliver hk)
  case dropped hp hr _ =>
    have hk := Accepted.accepts hi hacc
    rw [hp] at hk
    exact absurd hk hr
  case deferred hp _ => exact absurd hp (ha.notReady h (List.mem_of_getElem? hi) _)
  case marked hrw =>
    refine .inr ⟨trivial, fun p hp => ?_⟩
    rw [hrw.rows, if_pos rfl] at hp
    obtain ⟨q, _, rfl⟩ := Option.map_eq_some_iff.mp hp
    rfl
  case finished hp _ _ | closed hp _ _ | deleted hp _ _ => rw [hp]; exact .inl trivial
  case idle => exact .inl hc
  all_goals exact hc.elim

theorem Accepted.not_ready {rec : Pending} (hr : h'.phase = .ready rec) : False := by
  cases mv
  case dropped hp hne _ =>
    have hk := Accepted.accepts hi hacc
    rw [hp] at hk
    exact hne hk
  case undecided | written =>
    rcases HandlerPhase.deliver_cases ‹_› with he | he | ⟨_, he⟩ <;> cases he.symm.trans hr
  case idle hp => cases hp.symm.trans hr
  all_goals cases hr

theorem Acked.closes_step (ha : Acked gatewayID w) (inv : Inv gatewayID verdicts w)
    (hall : ∀ x ∈ w.handlers.set i h', x.phase.Closing) :
    Gone gatewayID { store := s', handlers := w.handlers.set i h' } ∨
    ∃ x ∈ w.handlers.set i h', x.phase.Leaving := by
  rcases ha.closing_cases hi mv hacc (hall h' (mem_set_self hi)) with hch | ⟨hl, _⟩
  case inr => exact .inr ⟨h', mem_set_self hi, hl⟩
  case inl =>
    have hbefore : ∀ x ∈ w.handlers, x.phase.Closing := by
      intro x hx
      obtain ⟨j, hj⟩ := List.mem_iff_getElem?.mp hx
      by_cases hij : i = j
      case pos => subst hij; cases hi.symm.trans hj; exact hch
      case neg => exact hall x (mem_set_of_ne hij hj)
    have hgone (hg : Gone gatewayID w) := Gone.of_moved hi mv (mv.rows_none hg.rows) hg.closing
    rcases ha.closes hbefore with hg | ⟨x, hx, hl⟩
    case inl => exact .inl (hgone hg)
    case inr =>
      obtain ⟨j, hj⟩ := List.mem_iff_getElem?.mp hx
      by_cases hij : i = j
      case neg => exact .inr ⟨x, mem_set_of_ne hij hj, hl⟩
      case pos =>
        -- The handler that was to look at the rows has done so.
        subst hij
        cases hi.symm.trans hj
        rcases mv.leaving hl with hl' | hnone | hinc
        case inl => exact .inr ⟨h', mem_set_self hi, hl'⟩
        case inr.inl => exact .inl (Gone.of_moved hi mv hnone hbefore)
        case inr.inr =>
          rcases inv.rows with hp | hg
          case inl => exact absurd (ha.complete hp hbefore) hinc
          case inr => exact .inl (hgone hg)

theorem Acked.step (ha : Acked gatewayID w) (inv : Inv gatewayID verdicts w) :
    Acked gatewayID { store := s', handlers := w.handlers.set i h' } := by
  constructor
  case notReady =>
    intro x hx rec hr
    rcases mem_set_cases hx with rfl | ⟨j, _, hj⟩
    case inl => exact Accepted.not_ready hi mv hacc hr
    case inr => exact ha.notReady x (List.mem_of_getElem? hj) rec hr
  case delivered =>
    intro x hx hc p hr
    rcases mem_set_cases hx with rfl | ⟨j, hij, hj⟩
    case inl =>
      rw [mv.dlr_eq.2.2] at hr
      rcases ha.closing_cases hi mv hacc hc with hch | ⟨_, hd⟩
      case inl => exact ha.delivered h (List.mem_of_getElem? hi) hch p (mv.closing_frame hch hr)
      case inr => exact hd p hr
    case inr =>
      rcases inv.rows with hp | hg
      case inl =>
        have hk : x.dlr.key ≠ h.dlr.key := fun e => hij (hp.key_inj hi hj e.symm)
        exact ha.delivered x (List.mem_of_getElem? hj) hc p (mv.frame hk hr)
      case inr => cases (mv.rows_none hg.rows _).symm.trans hr
  case closes => exact ha.closes_step hi mv hacc inv

end Step

variable {s : MemoryStore} {dlrs : List Dlr}

theorem Inv.start (ha : Awaits s gatewayID dlrs msg) :
    Inv gatewayID (dlrs.map Dlr.verdict) (start s dlrs) := by
  have hmem {h} (hm : h ∈ (Receipts.start s dlrs).handlers) : ∃ dlr ∈ dlrs, h = { dlr } := by
    obtain ⟨dlr, hd, rfl⟩ := List.mem_map.mp hm
    exact ⟨dlr, hd, rfl⟩
  constructor
  case nonempty => simpa [Receipts.start] using ha.nonempty
  case final => intro h hm; obtain ⟨dlr, hd, rfl⟩ := hmem hm; exact ha.final dlr hd
  case verdict => simp [Receipts.start, Function.comp_def]
  case record => intro h hm rec hr; obtain ⟨dlr, hd, rfl⟩ := hmem hm; cases hr
  case deletes => intro h hm rec hr; obtain ⟨dlr, hd, rfl⟩ := hmem hm; cases hr
  case rows =>
    left
    constructor
    case row =>
      intro i h hi
      rw [Receipts.start, List.getElem?_map] at hi
      obtain ⟨dlr, hd, rfl⟩ := Option.map_eq_some_iff.mp hi
      obtain ⟨p, hr, hpr, hid, hix, hct, hst⟩ := ha.rows hd
      refine ⟨p, hr, ⟨by rw [hpr, hid]; rfl, hix, by simpa [Receipts.start] using hct, fun _ => hst,
        fun hw => absurd trivial hw, False.elim⟩⟩
    case only =>
      intro k p hr
      obtain ⟨dlr, hd, rfl⟩ := ha.only hr
      exact ⟨_, List.mem_map_of_mem hd, rfl⟩

theorem Told.start (ha : Awaits s gatewayID dlrs msg) :
    Told gatewayID (dlrs.map Dlr.verdict) msg (start s dlrs) where
  message := ⟨msg, ha.message⟩
  early _ _ _ := ha.message
  writes h hm rec aggregate hw := by obtain ⟨dlr, _, rfl⟩ := List.mem_map.mp hm; cases hw
  settled hall := by
    obtain ⟨dlr, hd⟩ := List.exists_mem_of_ne_nil _ ha.nonempty
    exact absurd trivial (hall _ (List.mem_map_of_mem hd))

theorem Acked.start (ha : Awaits s gatewayID dlrs msg) : Acked gatewayID (start s dlrs) where
  notReady h hm rec hr := by obtain ⟨dlr, _, rfl⟩ := List.mem_map.mp hm; cases hr
  delivered h hm hc := by obtain ⟨dlr, _, rfl⟩ := List.mem_map.mp hm; exact hc.elim
  closes hall := by
    obtain ⟨dlr, hd⟩ := List.exists_mem_of_ne_nil _ ha.nonempty
    exact (hall _ (List.mem_map_of_mem hd)).elim

theorem step_inv (e : Nat × HandlerMove) (inv : Inv gatewayID verdicts w)
    (ht : Told gatewayID verdicts msg w) (hu : NotExpired gatewayID w e) :
    Inv gatewayID verdicts (w.step e) ∧ Told gatewayID verdicts msg (w.step e) := by
  unfold Receipts.step
  split
  case h_1 => exact ⟨inv, ht⟩
  case h_2 h hi =>
    have mv := inv.moved hi hu
    exact ⟨inv.step hi mv, ht.step hi mv⟩

theorem step_acked (e : Nat × HandlerMove) (inv : Inv gatewayID verdicts w) (ha : Acked gatewayID w)
    (hu : NotExpired gatewayID w e) (hacc : w.Accepted e) : Acked gatewayID (w.step e) := by
  unfold Receipts.step
  split
  case h_1 => exact ha
  case h_2 h hi => exact ha.step hi (inv.moved hi hu) hacc inv

-- Over every interleaving: the message keeps its state until the last receipt is in, ends in the state
-- that its segments decide, and leaves no pending row when every receipt was accepted.
theorem segment_receipts_commute (s : MemoryStore) (gatewayID : Str) (dlrs : List Dlr) (msg : Message)
    (es : List (Nat × HandlerMove)) (ha : Awaits s gatewayID dlrs msg)
    (hu : Along Receipts.step (NotExpired gatewayID) (start s dlrs) es) :
    Always Receipts.step (fun w => (∃ h ∈ w.handlers, h.phase.Waiting) →
      w.store.getMessage gatewayID = some msg) (start s dlrs) es ∧
    (AllDone (run Receipts.step (start s dlrs) es) →
      (∃ msg', (run Receipts.step (start s dlrs) es).store.getMessage gatewayID = some msg' ∧
        Decided (dlrs.map Dlr.verdict) msg'.state msg'.errorCode) ∧
      (Along Receipts.step Accepted (start s dlrs) es →
        ∀ k, (run Receipts.step (start s dlrs) es).store.rowOf gatewayID k = none)) := by
  have hrun {es} (hu : Along Receipts.step (NotExpired gatewayID) (start s dlrs) es) :=
    invariant (P := fun w => Inv gatewayID (dlrs.map Dlr.verdict) w ∧
        Told gatewayID (dlrs.map Dlr.verdict) msg w)
      ⟨.start ha, .start ha⟩ hu fun _ e hw hu => step_inv e hw.1 hw.2 hu
  refine ⟨?_, fun hdone => ⟨?_, fun hacc => ?_⟩⟩
  case refine_1 =>
    rintro pre ⟨post, rfl⟩ ⟨h, hm, hw⟩
    exact (hrun (Along.append.mp hu).1).2.early h hm hw
  case refine_2 =>
    have hsettled := (hrun hu).2.settled fun h hm => by rw [hdone h hm]; exact id
    rcases hsettled with ⟨h, hm, hd⟩ | hd
    case inl => rw [hdone h hm] at hd; exact hd.elim
    case inr => exact hd
  case refine_3 =>
    have hack := invariant
      (P := fun w => (Inv gatewayID (dlrs.map Dlr.verdict) w ∧
        Told gatewayID (dlrs.map Dlr.verdict) msg w) ∧ Acked gatewayID w)
      ⟨⟨.start ha, .start ha⟩, .start ha⟩ (hu.and hacc) fun _ e hw hg =>
        ⟨step_inv e hw.1.1 hw.1.2 hg.1, step_acked e hw.1.1 hw.2 hg.1 hg.2⟩
    have hcloses := hack.2.closes fun h hm => by rw [hdone h hm]; trivial
    rcases hcloses with hg | ⟨h, hm, hl⟩
    case inl => exact hg.rows
    case inr => rw [hdone h hm] at hl; exact hl.elim

def awaitingStore (ids : List Str) : MemoryStore :=
  let rows := ids.zipIdx.map fun (id, i) =>
    { providerID := id, gatewayID := lit "m1", provider := lit "p", segmentIndex := i + 1
      segmentCount := ids.length, registeredDelivery := 1 : Pending }
  { newMemory with
    messages := [{ id := lit "m1" }]
    messageByID := MemoryStore.indexMessages [{ id := lit "m1" }]
    pending := Map.insertAll (fun p => pendingKey p.provider p.providerID) (·) ∅ rows }

def twoReceipts : List Dlr :=
  [{ provider := lit "p", providerID := lit "a", state := lit "delivrd" },
    { provider := lit "p", providerID := lit "b", state := lit "UNDELIV", errorCode := 5 }]

theorem twoReceipts_awaited :
    Awaits (awaitingStore [lit "a", lit "b"]) (lit "m1") twoReceipts { id := lit "m1" } where
  message  := rfl
  nonempty := by decide
  final    := by decide
  rows {i dlr} h := by
    match i with
    | 0     => cases h; exact ⟨_, rfl, rfl, rfl, rfl, rfl, by decide⟩
    | 1     => cases h; exact ⟨_, rfl, rfl, rfl, rfl, rfl, by decide⟩
    | _ + 2 => cases h
  only {k p} h := by
    have hkeys : ∀ k ∈ (awaitingStore [lit "a", lit "b"]).pending.keys,
      ∃ dlr ∈ twoReceipts, pendingKey dlr.provider dlr.providerID = k := by decide
    have hl := (MemoryStore.rowOf_eq_some.mp h).1
    exact hkeys k (AList.lookup_isSome.mp (by rw [hl]; rfl))

def turns : List (Nat × HandlerMove) :=
  [1, 0, 1, 1, 0, 0, 1, 0, 0, 0, 0, 1, 1, 1].map fun i => (i, { now := 1 })

theorem two_receipts_commute :
    AllDone (run Receipts.step (start (awaitingStore [lit "a", lit "b"]) twoReceipts) turns) ∧
    (∃ msg, (run Receipts.step (start (awaitingStore [lit "a", lit "b"]) twoReceipts)
        turns).store.getMessage (lit "m1") = some msg ∧
      Decided (twoReceipts.map Dlr.verdict) msg.state msg.errorCode) ∧
    ∀ k, (run Receipts.step (start (awaitingStore [lit "a", lit "b"]) twoReceipts)
      turns).store.rowOf (lit "m1") k = none := by
  have h := segment_receipts_commute (awaitingStore [lit "a", lit "b"]) (lit "m1") twoReceipts
    { id := lit "m1" } turns twoReceipts_awaited (by decide)
  have hdone : AllDone (run Receipts.step (start (awaitingStore [lit "a", lit "b"]) twoReceipts)
    turns) := by decide
  exact ⟨hdone, (h.2 hdone).1, (h.2 hdone).2 (by decide)⟩

def delivered (id : Str) (errorCode : Int) : Dlr :=
  { provider := lit "p", providerID := id, state := lit "DELIVRD", errorCode }

-- A delivered message has error code 0, whatever code its receipts carry. And a row that has a final state from before
-- counts until its receipt is in: the call that has read it writes last, and both segments are delivered.
theorem delivered_receipt_code_dropped :
    let outcome (s : MemoryStore) (dlrs : List Dlr) (turns : List Nat) :=
      let w := run Receipts.step (start s dlrs) (turns.map fun i => (i, { now := 1 }))
      (decide w.AllDone, (w.store.getMessage (lit "m1")).map fun msg => (msg.state, msg.errorCode))
    let old := ((awaitingStore [lit "a", lit "b"]).updatePendingDLR (lit "p") (lit "b") (lit "EXPIRED") 3 0).2
    outcome (awaitingStore [lit "a"]) [delivered (lit "a") 7] (List.replicate 8 0) = (true, some (lit "DELIVRD", 0)) ∧
    outcome old [delivered (lit "a") 0, delivered (lit "b") 0] ([0, 0, 0] ++ List.replicate 8 1 ++ List.replicate 6 0) =
      (true, some (lit "EXPIRED", 3)) := by
  decide +kernel

end Receipts

end SmppGateway
