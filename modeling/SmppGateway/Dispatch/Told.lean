import SmppGateway.Dispatch.Receipts
import SmppGateway.Smpp.Receipt

-- What one receipt says in each of the places that show its state: the `stat` field of its text, the TLV
-- `message_state` and the record of the message.

namespace SmppGateway

open Go Machine

def messageStates : List (Str × UInt8) :=
  [(lit "ENROUTE", 1), (lit "DELIVRD", 2), (lit "EXPIRED", 3), (lit "DELETED", 4), (lit "UNDELIV", 5),
    (lit "ACCEPTD", 6), (lit "UNKNOWN", 7), (lit "REJECTD", 8)]

def Denotes (state : Str) (code : UInt8) : Prop :=
  (state, code) ∈ messageStates

instance {state : Str} {code : UInt8} : Decidable (Denotes state code) :=
  inferInstanceAs (Decidable (_ ∈ _))

theorem Denotes.state_inj {state state' : Str} {code : UInt8} (h : Denotes state code) (h' : Denotes state' code) :
    state = state' := by
  have hall : ∀ x ∈ messageStates, ∀ y ∈ messageStates, x.2 = y.2 → x.1 = y.1 := by decide
  exact hall _ h _ h' rfl

namespace DLRParams

variable {p : DLRParams} {stat : Str} {code : UInt8}

def beforeStat (p : DLRParams) : Str :=
  let delivered := if normalizeState p.state = lit "DELIVRD" then 1 else 0
  lit "id:" ++ p.gatewayID ++ lit " sub:001 dlvrd:" ++ threeDigits delivered ++
    lit " submit date:" ++ formatMinute p.submittedAt ++ lit " done date:" ++ formatMinute p.doneAt ++ lit " stat:"

def afterStat (p : DLRParams) : Str :=
  lit " err:" ++ threeDigits p.errorCode ++ lit " text:" ++ truncateRunes p.originalText 20

def Stat (p : DLRParams) (stat : Str) : Prop :=
  formatReceiptText p = p.beforeStat ++ stat ++ p.afterStat

def MessageState (p : DLRParams) (code : UInt8) : Prop :=
  (buildDLR p).body = buildDeliverSMBody p ++
    appendTLV { tag := tagReceiptedMessageID, value := cString p.gatewayID } ++
    appendTLV { tag := tagMessageState, value := [code] }

theorem stat_iff : p.Stat stat ↔ stat = normalizeState p.state := by
  have htext : formatReceiptText p = p.beforeStat ++ normalizeState p.state ++ p.afterStat := by
    simp only [formatReceiptText, beforeStat, afterStat, List.append_assoc]
  rw [Stat, htext, List.append_left_inj, List.append_right_inj, eq_comm]

theorem messageState_iff : p.MessageState code ↔ code = stateToCode p.state := by
  rw [MessageState, buildDLR, List.append_right_inj, eq_comm]
  simp [appendTLV]

end DLRParams

def Pending.params (rec : Pending) (dlr : Dlr) : DLRParams where
  gatewayID    := rec.gatewayID
  sourceAddr   := rec.dest
  destAddr     := rec.sender
  submittedAt  := rec.receivedAt
  doneAt       := dlr.doneAt
  state        := dlr.state
  errorCode    := dlr.errorCode
  originalText := rec.text

-- A call on its own, with what it has told so far: the state for the record of the message, and the receipt.
structure HandlerCall where
  handler : Handler
  store   : MemoryStore
  written : Option Str := none
  receipt : Option DLRParams := none

namespace HandlerCall

def writes : HandlerPhase → Option Str
  | .write _ aggregate => some aggregate.state
  | _                  => none

def pushes (dlr : Dlr) : HandlerPhase → Option DLRParams
  | .push rec => some (rec.params dlr)
  | _         => none

def step (c : HandlerCall) (m : HandlerMove) : HandlerCall :=
  let (handler, store) := c.handler.step c.store m
  { handler, store
    written := (writes c.handler.phase).or c.written
    receipt := (pushes c.handler.dlr c.handler.phase).or c.receipt }

def InTime (gatewayID : Str) (c : HandlerCall) (m : HandlerMove) : Prop :=
  c.store.Unexpired gatewayID m.now

instance {gatewayID : Str} (c : HandlerCall) (m : HandlerMove) : Decidable (InTime gatewayID c m) :=
  inferInstanceAs (Decidable (c.store.Unexpired gatewayID m.now))

end HandlerCall

structure SingleSegment (s : MemoryStore) (dlr : Dlr) (rec : Pending) : Prop where
  row    : s.rowOf rec.gatewayID dlr.key = some rec
  key    : rec.key = dlr.key
  alone  : ∀ {k p}, s.rowOf rec.gatewayID k = some p → k = dlr.key
  index  : rec.segmentIndex = 1
  count  : rec.segmentCount = 1
  smpp   : rec.sourceKind = .smpp
  wanted : rec.registeredDelivery &&& 0x03 ≠ 0

-- The places that show the state agree, and the receipt shows a final one exactly if the dispatcher takes it for final.
def ToldAlike (state : Str) (c : HandlerCall) : Prop :=
  ∃ p stat code, c.receipt = some p ∧ p.Stat stat ∧ p.MessageState code ∧ Denotes stat code ∧
    (isFinalDLRState state → ∃ written, c.written = some written ∧ Denotes written code) ∧
    (stat ∈ finalDLRStates ↔ isFinalDLRState state)

def HandlerPhase.Told : HandlerPhase → Prop
  | ready _ | mark _ | relist _ | delete _ | done => True
  | _                                             => False

theorem aggregateDLR_singleton {p : Pending} (hi : p.segmentIndex = 1) (hc : p.segmentCount = 1) :
    ((aggregateDLR [p]).final = isFinalDLRState p.dlrState) ∧
      (isFinalDLRState p.dlrState → (aggregateDLR [p]).state = upperTrim p.dlrState) := by
  have hne : [p] ≠ [] := by simp
  have ho : AggregateLoop.InOrder [p].length [p] := by
    intro i q hq
    obtain ⟨rfl, rfl⟩ : i = 0 ∧ q = p := by
      cases i <;> simp_all
    simp [hi, hc]
  constructor
  case left =>
    rw [Bool.eq_iff_iff, aggregateDLR_final hne ho]
    simp
  case right =>
    intro hf
    obtain ⟨hall, hstate, _⟩ | ⟨i, v, hw, _, hstate, _⟩ := aggregateDLR_decided hne ho (by simpa using hf)
    case inl => rw [hstate, ← hall p.verdict (by simp)]; rfl
    case inr =>
      have hv : v = p.verdict := by
        have := List.mem_of_getElem? hw.at_i
        simpa using this
      rw [hstate, hv]; rfl

theorem SingleSegment.of_rows {s s' : MemoryStore} {dlr dlr' : Dlr} {rec : Pending} (h : SingleSegment s dlr rec)
    (hrows : ∀ k, s'.rowOf rec.gatewayID k = s.rowOf rec.gatewayID k) (hkey : dlr'.key = dlr.key) :
    SingleSegment s' dlr' rec where
  row    := by rw [hrows, hkey]; exact h.row
  key    := h.key.trans hkey.symm
  alone  := by
    intro k p hp
    rw [hrows] at hp
    exact (h.alone hp).trans hkey.symm
  index  := h.index
  count  := h.count
  smpp   := h.smpp
  wanted := h.wanted

def stateWritten (state : Str) : Option Str :=
  if isFinalDLRState state then some (upperTrim state) else none

inductive Telling (state : Str) (rec : Pending) : HandlerCall → Prop
  | lookup {dlr : Dlr} {s : MemoryStore} (single : SingleSegment s dlr rec) (shows : dlr.state = state) :
    Telling state rec ⟨⟨dlr, .lookup⟩, s, none, none⟩
  | update {dlr : Dlr} {s : MemoryStore} (single : SingleSegment s dlr rec) (shows : dlr.state = state) :
    Telling state rec ⟨⟨dlr, .update rec⟩, s, none, none⟩
  | list {dlr : Dlr} {s : MemoryStore} {rec' p : Pending} (same : rec'.gatewayID = rec.gatewayID)
    (wants : HandlerPhase.deliver rec' = .push rec')
    (rows : ∀ k, s.rowOf rec.gatewayID k = if k = dlr.key then some p else none)
    (index : p.segmentIndex = 1) (count : p.segmentCount = 1) (stored : p.dlrState = state)
    (shows : dlr.state = state) : Telling state rec ⟨⟨dlr, .list rec'⟩, s, none, none⟩
  | write {dlr : Dlr} {s : MemoryStore} {rec' : Pending} {aggregate : DlrAggregate}
    (wants : HandlerPhase.deliver rec' = .push rec') (written : some aggregate.state = stateWritten state)
    (shows : dlr.state = state) :
    Telling state rec ⟨⟨dlr, .write rec' aggregate⟩, s, none, none⟩
  | push {dlr : Dlr} {s : MemoryStore} {rec' : Pending} {w : Option Str} (written : w = stateWritten state)
    (shows : dlr.state = state) : Telling state rec ⟨⟨dlr, .push rec'⟩, s, w, none⟩
  | told {h : Handler} {s : MemoryStore} {p : DLRParams} {w : Option Str} (written : w = stateWritten state)
    (closed : h.phase.Told) (shows : p.state = state) : Telling state rec ⟨h, s, w, some p⟩

def HandlerCall.weight (c : HandlerCall) : Nat :=
  match c.handler.phase with
  | .lookup   => 5
  | .update _ => 4
  | .list _   => 3
  | .write .. => 2
  | .push _   => 1
  | .ready _ | .mark _ | .relist _ | .delete _ | .done => 0

namespace Telling

variable {state : Str} {dlr : Dlr} {rec rec' p : Pending} {s : MemoryStore} {c : HandlerCall} {m : HandlerMove}
  {ms : List HandlerMove}

theorem step_lookup (single : SingleSegment s dlr rec) (shows : dlr.state = state)
    (hu : s.Unexpired rec.gatewayID m.now) :
    Telling state rec (HandlerCall.step ⟨⟨dlr, .lookup⟩, s, none, none⟩ m) ∧
      (HandlerCall.step ⟨⟨dlr, .lookup⟩, s, none, none⟩ m).weight = 4 := by
  have hget := MemoryStore.getPending_unexpired hu single.row
  simp only [HandlerCall.step, Handler.step, hget]
  exact ⟨.update (single.of_rows (fun _ => MemoryStore.rowOf_sweepLocked hu) rfl) shows, rfl⟩

theorem step_update (single : SingleSegment s dlr rec) (shows : dlr.state = state) :
    Telling state rec (HandlerCall.step ⟨⟨dlr, .update rec⟩, s, none, none⟩ m) ∧
      (HandlerCall.step ⟨⟨dlr, .update rec⟩, s, none, none⟩ m).weight = 3 := by
  have hrow : s.rowOf rec.gatewayID rec.key = some rec := by rw [single.key]; exact single.row
  obtain ⟨s', hs', hr⟩ := MemoryStore.modifyPending_ok (f := dlr.into) (fun _ => rfl) hrow
  have hrows (k : Str) : s'.rowOf rec.gatewayID k = if k = dlr.key then some (dlr.into rec) else none := by
    have hk : s'.rowOf rec.gatewayID k =
      if k = rec.key then (s.rowOf rec.gatewayID k).map dlr.into else s.rowOf rec.gatewayID k := hr.rows k
    rw [hk, single.key]
    split
    case isTrue h => rw [h, single.row]; rfl
    case isFalse h =>
      cases hp : s.rowOf rec.gatewayID k
      case none => rfl
      case some => exact absurd (single.alone hp) h
  simp only [HandlerCall.step, Handler.step, Dlr.updatePendingDLR_into, hs', Handler.become]
  refine ⟨.list rfl ?_ hrows single.index single.count shows shows, rfl⟩
  simp [HandlerPhase.deliver, single.smpp, single.wanted]

theorem step_list (same : rec'.gatewayID = rec.gatewayID) (wants : HandlerPhase.deliver rec' = .push rec')
    (rows : ∀ k, s.rowOf rec.gatewayID k = if k = dlr.key then some p else none)
    (index : p.segmentIndex = 1) (count : p.segmentCount = 1) (stored : p.dlrState = state) (shows : dlr.state = state)
    (hu : s.Unexpired rec.gatewayID m.now) :
    Telling state rec (HandlerCall.step ⟨⟨dlr, .list rec'⟩, s, none, none⟩ m) ∧
      (HandlerCall.step ⟨⟨dlr, .list rec'⟩, s, none, none⟩ m).weight ≤ 2 := by
  have hsome {k q} : s.rowOf rec.gatewayID k = some q ↔ k = dlr.key ∧ q = p := by
    rw [rows]
    split <;> simp_all [eq_comm]
  have hlist : s.listPendingByGatewayID m.now rec.gatewayID = ([p], s.sweepLocked m.now) := by
    refine MemoryStore.listPendingByGatewayID_eq ?_ ?_ (List.pairwise_singleton _ _) hu
    case refine_1 => simp [hsome]
    case refine_2 =>
      intro k k' q hk hk'
      exact (hsome.mp hk).1.trans (hsome.mp hk').1.symm
  obtain ⟨hfinal, hstate⟩ := aggregateDLR_singleton index count
  rw [stored] at hfinal hstate
  simp only [HandlerCall.step, Handler.step, same, hlist, Handler.become, hfinal]
  by_cases hf : isFinalDLRState state
  case pos =>
    rw [if_pos hf]
    refine ⟨.write wants ?_ shows, Nat.le_refl _⟩
    rw [hstate hf, stateWritten, if_pos hf]
  case neg =>
    rw [if_neg hf, wants]
    exact ⟨.push (by rw [stateWritten, if_neg hf]; rfl) shows, Nat.le_succ _⟩

theorem quiet_of_told {phase : HandlerPhase} (dlr : Dlr) (h : phase.Told) :
    HandlerCall.writes phase = none ∧ HandlerCall.pushes dlr phase = none := by
  cases phase <;> first | exact ⟨rfl, rfl⟩ | cases h

theorem weight_told (h : c.handler.phase.Told) : c.weight = 0 := by
  unfold HandlerCall.weight
  split <;> simp_all [HandlerPhase.Told]

theorem step_told {h : Handler} (hc : h.phase.Told) :
    (h.step s m).1.phase.Told := by
  obtain ⟨dlr, phase⟩ := h
  cases phase <;> simp only [HandlerPhase.Told] at hc
  case ready => trivial
  case mark rec =>
    simp only [Handler.step]
    split <;> trivial
  case relist rec =>
    simp only [Handler.step, Handler.become]
    split <;> trivial
  case delete => trivial
  case done => trivial

theorem step (h : Telling state rec c) (hu : HandlerCall.InTime rec.gatewayID c m) :
    Telling state rec (c.step m) ∧ (c.step m).weight ≤ c.weight - 1 := by
  cases h
  case lookup dlr s single shows =>
    have ⟨ht, hw⟩ := step_lookup single shows hu
    exact ⟨ht, Nat.le_of_eq hw⟩
  case update dlr s single shows =>
    have ⟨ht, hw⟩ := step_update (m := m) single shows
    exact ⟨ht, Nat.le_of_eq hw⟩
  case list same wants rows index count stored shows =>
    exact step_list same wants rows index count stored shows hu
  case write dlr s rec' aggregate wants written shows =>
    simp only [HandlerCall.step, Handler.step, Handler.become, wants]
    exact ⟨.push written shows, Nat.le_refl _⟩
  case push dlr s rec' w written shows =>
    have ht : ((⟨dlr, .push rec'⟩ : Handler).step s m).1.phase.Told := by
      simp only [Handler.step]
      split <;> trivial
    exact ⟨.told written ht shows, Nat.le_of_eq (weight_told ht)⟩
  case told h s p w written closed shows =>
    have ht := step_told (s := s) (m := m) closed
    obtain ⟨hw, hp⟩ := quiet_of_told h.dlr closed
    refine ⟨?_, (weight_told ht).trans_le (Nat.zero_le _)⟩
    simp only [HandlerCall.step, hw, hp, Option.none_or]
    exact .told written ht shows

theorem run (single : SingleSegment s dlr rec)
    (h : Along HandlerCall.step (HandlerCall.InTime rec.gatewayID) { handler := { dlr }, store := s } ms)
    (hlong : 5 ≤ ms.length) :
    ∃ p, (Machine.run HandlerCall.step { handler := { dlr }, store := s } ms).receipt = some p ∧
      p.state = dlr.state ∧
      (Machine.run HandlerCall.step { handler := { dlr }, store := s } ms).written = stateWritten dlr.state := by
  have hstart : Telling dlr.state rec { handler := { dlr }, store := s } := .lookup single rfl
  have hrun := invariant hstart h fun _ _ ht hu => (ht.step hu).1
  have hle := measure_run_le HandlerCall.weight hstart h fun _ _ ht hu => ht.step hu
  have hfive : HandlerCall.weight { handler := { dlr }, store := s } = 5 := rfl
  generalize Machine.run HandlerCall.step { handler := { dlr }, store := s } ms = c at hrun hle
  have hzero : c.weight = 0 := by omega
  cases hrun
  case told p w written closed shows => exact ⟨p, rfl, shows, written⟩
  all_goals cases hzero

end Telling

def TablesAgree (state : Str) : Prop :=
  Denotes (normalizeState state) (stateToCode state) ∧
  (isFinalDLRState state → Denotes (upperTrim state) (stateToCode state)) ∧
  (normalizeState state ∈ finalDLRStates ↔ isFinalDLRState state)

instance {state : Str} : Decidable (TablesAgree state) :=
  inferInstanceAs (Decidable (_ ∧ _))

theorem toldAlike_iff_tablesAgree {p : DLRParams} {c : HandlerCall} (hr : c.receipt = some p)
    (hw : c.written = stateWritten p.state) : ToldAlike p.state c ↔ TablesAgree p.state := by
  have hfinal (h : isFinalDLRState p.state) : c.written = some (upperTrim p.state) := by
    rw [hw, stateWritten, if_pos h]
  constructor
  case mp =>
    rintro ⟨q, stat, code, hq, hstat, hcode, hd, hwritten, hshown⟩
    obtain rfl : p = q := Option.some.inj (hr.symm.trans hq)
    rw [DLRParams.stat_iff] at hstat
    rw [DLRParams.messageState_iff] at hcode
    subst hstat hcode
    refine ⟨hd, ?_, hshown⟩
    intro h
    obtain ⟨w, hw, hd⟩ := hwritten h
    obtain rfl : w = upperTrim p.state := Option.some.inj (hw.symm.trans (hfinal h))
    exact hd
  case mpr =>
    rintro ⟨hd, hwritten, hshown⟩
    refine ⟨p, _, _, hr, DLRParams.stat_iff.mpr rfl, DLRParams.messageState_iff.mpr rfl, hd, ?_, hshown⟩
    exact fun h => ⟨_, hfinal h, hwritten h⟩

-- The text shows any other spelling as unknown, which is a final state, where the record has the state itself.
theorem tablesAgree_iff {state : Str} :
    TablesAgree state ↔ state ∈ textStates ∨ upperTrim state = lit "UNKNOWN" := by
  have hknown : ∀ state ∈ textStates, TablesAgree state := by decide +kernel
  by_cases ht : state ∈ textStates
  case pos => exact iff_of_true (hknown state ht) (.inl ht)
  case neg =>
    have hnorm : normalizeState state = lit "UNKNOWN" := if_neg ht
    rw [or_iff_right ht]
    constructor
    case mp =>
      rintro ⟨hd, hwritten, hshown⟩
      rw [hnorm] at hd hshown
      exact (hwritten (hshown.mp (by decide))).state_inj hd
    case mpr =>
      intro hu
      have hcode : stateToCode state = 7 := by
        have henroute : state ≠ lit "ENROUTE" := by
          rintro rfl
          exact absurd hu (by decide +kernel)
        simp only [textStates, List.mem_cons, List.not_mem_nil, or_false, not_or] at ht
        simp [stateToCode, henroute, ht]
      have hfinal : isFinalDLRState state := by
        rw [isFinalDLRState, hu]
        decide
      rw [TablesAgree, hnorm, hu, hcode]
      exact ⟨by decide, fun _ => by decide, iff_of_true (by decide) hfinal⟩

theorem told_alike_iff {s : MemoryStore} {dlr : Dlr} {rec : Pending} {ms : List HandlerMove}
    (single : SingleSegment s dlr rec)
    (h : Along HandlerCall.step (HandlerCall.InTime rec.gatewayID) { handler := { dlr }, store := s } ms)
    (hlong : 5 ≤ ms.length) :
    ToldAlike dlr.state (run HandlerCall.step { handler := { dlr }, store := s } ms) ↔
      dlr.state ∈ textStates ∨ upperTrim dlr.state = lit "UNKNOWN" := by
  obtain ⟨p, hr, hp, hw⟩ := Telling.run single h hlong
  rw [← hp] at hw ⊢
  rw [toldAlike_iff_tablesAgree hr hw]
  exact tablesAgree_iff

def sentRow : Pending where
  provider           := lit "p"
  providerID         := lit "1"
  gatewayID          := lit "g"
  registeredDelivery := 1

def sentStore : MemoryStore :=
  { newMemory with pending := Map.insertAll Pending.key (·) ∅ [sentRow] }

def sentDlr (state : Str) : Dlr where
  provider   := lit "p"
  providerID := lit "1"
  state      := state

theorem sentRow_single (state : Str) : SingleSegment sentStore (sentDlr state) sentRow where
  row    := by
    change sentStore.rowOf sentRow.gatewayID sentRow.key = some sentRow
    decide +kernel
  key    := rfl
  alone  := by
    intro k p hp
    have hall : ∀ e ∈ sentStore.pending.entries, e.1 = sentRow.key := by decide +kernel
    exact Map.forall_lookup (P := fun k _ => k = sentRow.key) hall (MemoryStore.rowOf_eq_some.mp hp).1
  index  := rfl
  count  := rfl
  smpp   := rfl
  wanted := by decide

def sentCall (state : Str) : HandlerCall where
  handler := { dlr := sentDlr state }
  store   := sentStore

theorem told_alike_iff_delivrd :
    SingleSegment sentStore (sentDlr (lit "DELIVRD")) sentRow ∧
    ToldAlike (lit "DELIVRD") (run HandlerCall.step (sentCall (lit "DELIVRD")) (List.replicate 5 { now := 1 })) := by
  have hsingle := sentRow_single (lit "DELIVRD")
  have hrun : Along HandlerCall.step (HandlerCall.InTime (lit "g")) (sentCall (lit "DELIVRD"))
      (List.replicate 5 { now := 1 }) := by decide +kernel
  exact ⟨hsingle, (told_alike_iff hsingle hrun (by decide)).mpr (.inl (by decide))⟩

theorem not_toldAlike_of_tables {state : Str} (hdiffer : ¬TablesAgree state)
    (hrun : Along HandlerCall.step (HandlerCall.InTime (lit "g")) (sentCall state) (List.replicate 5 { now := 1 })) :
    ¬ToldAlike state (run HandlerCall.step (sentCall state) (List.replicate 5 { now := 1 })) := by
  obtain ⟨p, hr, hp, hw⟩ := Telling.run (sentRow_single state) hrun (by decide)
  obtain rfl : p.state = state := hp
  exact mt (toldAlike_iff_tablesAgree hr hw).mp hdiffer

-- In small letters the state is final and the message is recorded as delivered, but the receipt says that its state
-- is unknown. A message that is on its way is unknown in the text and on its way in the TLV.
theorem spellings_told_apart :
    (SingleSegment sentStore (sentDlr (lit "delivrd")) sentRow ∧
      ¬ToldAlike (lit "delivrd") (run HandlerCall.step (sentCall (lit "delivrd")) (List.replicate 5 { now := 1 }))) ∧
    SingleSegment sentStore (sentDlr (lit "ENROUTE")) sentRow ∧
      ¬ToldAlike (lit "ENROUTE") (run HandlerCall.step (sentCall (lit "ENROUTE")) (List.replicate 5 { now := 1 })) := by
  have hsmall := @not_toldAlike_of_tables (lit "delivrd") (by decide +kernel) (by decide +kernel)
  have hway := @not_toldAlike_of_tables (lit "ENROUTE") (by decide +kernel) (by decide +kernel)
  exact ⟨⟨sentRow_single _, hsmall⟩, sentRow_single _, hway⟩

end SmppGateway
