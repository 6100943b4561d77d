import SmppGateway.Dispatch.Ids
import SmppGateway.Dispatch.Process
import SmppGateway.Message.Split
import SmppGateway.Store.Reopen

-- Inbound messages over HTTP, `handleInboundRule` of `internal/httpgw/rules.go`: the sender chooses the id under which
-- a message is stored. Outbound messages and the ids of the gateway live in the same store.

namespace SmppGateway

open Go Machine

structure HTTPRuleConfig where
  name          : Str := []
  method        : Str := []
  provider      : Str := []
  authHeader    : Str := []
  authToken     : Str := []
  fields        : Map Str Str := ∅
  successStatus : Int := 0
  successBody   : Str := []

structure InboundRequest where
  method : Str
  header : Str → Str                  -- `r.Header.Get`
  values : Except Str (Map Str Str)   -- `requestValues`, or the text of its error

inductive InboundResult
  | reply (status : Int) (body : Str)
  | receipt (dlr : Dlr)                              -- `HandleDLR` of the dispatcher is called
  | message (msg : Message) (success : Int × Str)    -- `SaveMessage` is called, then this reply is written

def constantTimeEqual (a b : Str) : Bool :=
  a ≠ [] && b ≠ [] && a = b

def valueOf (values : Map Str Str) (key fallback : Str) : Str :=
  let v := (values.lookup key).getD []
  if key = [] ∨ v = [] then fallback else v

def HTTPRuleConfig.field (rule : HTTPRuleConfig) (key : String) : Str :=
  (rule.fields.lookup (lit key)).getD []

def HTTPRuleConfig.success (rule : HTTPRuleConfig) : Int × Str :=
  (if rule.successStatus = 0 then 200 else rule.successStatus,
    if rule.successBody = [] then lit "\x7b\"status\":\"accepted\"\x7d" else rule.successBody)

-- `newID` is what the function of that name returns, `ref` the reference for a text of several segments.
def inboundMessage (now : Time) (newID : Str) (ref : UInt16) (rule : HTTPRuleConfig) (values : Map Str Str) :
    Message :=
  let text := valueOf values (rule.field "text") []
  { id          := valueOf values (rule.field "id") newID
    direction   := .mo
    sender      := valueOf values (rule.field "from") []
    dest        := valueOf values (rule.field "to") []
    text        := text
    encoding    := detectEncoding text
    provider    := rule.name
    state       := lit "submitted"
    segments    := split ref text { forceEncoding := detectEncoding text }
    submittedAt := now }

def handleInboundRule (dispatcher : Bool) (now : Time) (newID : Str) (ref : UInt16) (rule : HTTPRuleConfig)
    (r : InboundRequest) : InboundResult :=
  if rule.method ≠ [] ∧ ¬equalFold rule.method r.method then
    .reply 405 (lit "method not allowed")
  else if rule.authHeader = [] ∨ rule.authToken = [] then
    .reply 401 (lit "inbound rule auth is required")
  else if ¬constantTimeEqual (r.header rule.authHeader) rule.authToken then
    .reply 401 (lit "unauthorized")
  else
    match r.values with
    | .error err  => .reply 400 err
    | .ok values =>
      if dispatcher ∧ rule.field "provider_id" ≠ [] ∧ rule.field "status" ≠ [] then
        .receipt
          { provider   := rule.provider
            providerID := valueOf values (rule.field "provider_id") []
            state      := valueOf values (rule.field "status") []
            errorCode  := atoi (valueOf values (rule.field "error_code") (lit "0"))
            doneAt     := now }
      else
        .message (inboundMessage now newID ref rule values) rule.success

theorem handleInboundRule_message {dispatcher : Bool} {now : Time} {newID : Str} {ref : UInt16}
    {rule : HTTPRuleConfig} {r : InboundRequest} {msg : Message} {success : Int × Str}
    (h : handleInboundRule dispatcher now newID ref rule r = .message msg success) :
    ∃ values, r.values = .ok values ∧ msg = inboundMessage now newID ref rule values := by
  unfold handleInboundRule at h
  repeat' split at h
  case _ => cases h
  case _ => cases h
  case _ => cases h
  case _ => cases h
  case _ => cases h
  case _ values hvalues _ =>
    cases h
    exact ⟨values, hvalues, rfl⟩

section Log

variable {l : List Message} {p : Message → Bool} {a : Message}

theorem filter_set_iff {i : Nat} (ha : p a = false) :
    (l.set i a).filter p = l.filter p ↔ ∀ x, l[i]? = some x → p x = false := by
  induction l generalizing i
  case nil => simp
  case cons y l hi =>
    cases i
    case zero =>
      cases hy : p y
      case false => simp [ha, hy]
      case true =>
        refine iff_of_false (fun h => ?_) (by simp [hy])
        have hlen := congrArg List.length h
        simp [ha, hy] at hlen
    case succ i =>
      rw [List.set_cons_succ, List.getElem?_cons_succ, ← hi, List.filter_cons, List.filter_cons]
      split
      case isTrue => exact List.cons_inj_right y
      case isFalse => rfl

theorem filter_drop_snoc_iff {k : Nat} (ha : p a = false) (hk : k ≤ l.length) :
    ((l ++ [a]).drop k).filter p = l.filter p ↔ ∀ x ∈ l.take k, p x = false := by
  have hsplit : l.filter p = (l.take k).filter p ++ (l.drop k).filter p := by
    rw [← List.filter_append, List.take_append_drop]
  have hsnoc : ((l ++ [a]).drop k).filter p = (l.drop k).filter p := by
    rw [List.drop_append_of_le_length hk, List.filter_append, List.filter_cons_of_neg (by simp [ha]), List.filter_nil,
      List.append_nil]
  rw [hsnoc, hsplit, List.self_eq_append_left, List.filter_eq_nil_iff]
  simp

end Log

namespace MemoryStore

variable {s : MemoryStore} {msg : Message}

def mtMessages (s : MemoryStore) : List Message :=
  s.messages.filter (·.direction = .mt)

structure KeepsMT (s s' : MemoryStore) : Prop where
  messages : s'.mtMessages = s.mtMessages
  found    : ∀ id m, s.getMessage id = some m → m.direction = .mt → s'.getMessage id = some m

-- A message under this id takes neither the place of an outbound message nor pushes one out of the log.
structure Spares (s : MemoryStore) (id : Str) : Prop where
  known  : ∀ m, s.getMessage id = some m → m.direction ≠ .mt
  oldest : id ∉ s.messageByID → s.maxMessages ≠ 0 →
    ∀ m ∈ s.messages.take (s.messages.length + 1 - s.maxMessages), m.direction ≠ .mt

theorem indexMessages_drop {l : List Message} {k i : Nat} {id : Str} (h : (indexMessages l).lookup id = some (k + i)) :
    (indexMessages (l.drop k)).lookup id = some i := by
  rw [indexMessages_eq_some] at h ⊢
  simp only [List.map_drop, List.getElem?_drop]
  exact ⟨h.1, fun j hj => h.2 (k + j) (Nat.add_lt_add_left hj k)⟩

theorem keepsMT_known {idx : Nat} (hidx : s.messageByID.lookup msg.id = some idx) (hmo : msg.direction = .mo) :
    s.KeepsMT (s.putMessage msg) ↔ s.Spares msg.id := by
  have hput : s.putMessage msg = { s with messages := s.messages.set idx msg } := by
    rw [putMessage, hidx]
  have hget : s.getMessage msg.id = s.messages[idx]? := by
    rw [getMessage, hidx]
    rfl
  have hiff : (s.putMessage msg).mtMessages = s.mtMessages ↔ ∀ m, s.getMessage msg.id = some m → m.direction ≠ .mt := by
    rw [hput, hget, mtMessages, mtMessages, filter_set_iff (by simp [hmo])]
    simp
  constructor
  case mp =>
    intro h
    refine ⟨hiff.mp h.messages, fun hnot => absurd (AList.lookup_isSome.mp ?_) hnot⟩
    rw [hidx]
    rfl
  case mpr =>
    intro h
    refine ⟨hiff.mpr h.known, fun id m hm hmt => ?_⟩
    rw [hput]
    simp only [getMessage, Option.bind_eq_bind, Option.bind_eq_some_iff] at hm ⊢
    obtain ⟨j, hj, hm⟩ := hm
    refine ⟨j, hj, ?_⟩
    by_cases hij : idx = j
    case pos => exact absurd hmt (h.known m (by rw [hget, hij, hm]))
    case neg => rw [List.getElem?_set_ne hij, hm]

theorem keepsMT_unknown (hwf : IndexWF s) (hnot : msg.id ∉ s.messageByID) (hmo : msg.direction = .mo) :
    s.KeepsMT (s.putMessage msg) ↔ s.Spares msg.id := by
  have hnone : s.messageByID.lookup msg.id = none := AList.lookup_eq_none.mpr hnot
  have hknown : ∀ m, s.getMessage msg.id = some m → m.direction ≠ .mt := by
    intro m hm
    rw [getMessage, hnone] at hm
    cases hm
  have hother {id : Str} {m : Message} (hm : s.getMessage id = some m) :
      ∃ j, s.messageByID.lookup id = some j ∧ s.messages[j]? = some m ∧ id ≠ msg.id := by
    simp only [getMessage, Option.bind_eq_bind, Option.bind_eq_some_iff] at hm
    obtain ⟨j, hj, hm⟩ := hm
    refine ⟨j, hj, hm, ?_⟩
    rintro rfl
    cases hnone.symm.trans hj
  have hput := putMessage.eq_1 s msg
  rw [hnone] at hput
  simp only [trimMessagesLocked, List.length_append, List.length_singleton] at hput
  split at hput
  case isTrue hfits =>
    -- Nothing is dropped.
    refine iff_of_true ⟨?_, fun id m hm _ => ?_⟩ ⟨hknown, fun _ hmax => ?_⟩
    case refine_1 => simp [hput, mtMessages, hmo]
    case refine_2 =>
      obtain ⟨j, hj, hm, hid⟩ := hother hm
      rw [hput, getMessage]
      simp only [Option.bind_eq_bind, Option.bind_eq_some_iff]
      exact ⟨j, by rw [AList.lookup_insert_ne hid, hj],
        by rw [List.getElem?_append_left (List.getElem?_eq_some_iff.mp hm).1, hm]⟩
    case refine_3 =>
      have hzero : s.messages.length + 1 - s.maxMessages = 0 := by
        rcases hfits with h | h
        case inl => exact absurd h hmax
        case inr => omega
      simp [hzero]
  case isFalse hfull =>
    obtain ⟨hmax, hlen⟩ := not_or.mp hfull
    have hk : s.messages.length + 1 - s.maxMessages ≤ s.messages.length := by omega
    have hiff : (s.putMessage msg).mtMessages = s.mtMessages ↔
        ∀ m ∈ s.messages.take (s.messages.length + 1 - s.maxMessages), m.direction ≠ .mt := by
      rw [hput, mtMessages, mtMessages, filter_drop_snoc_iff (by simp [hmo]) hk]
      simp
    constructor
    case mp => exact fun h => ⟨hknown, fun _ _ => hiff.mp h.messages⟩
    case mpr =>
      intro h
      have holdest := h.oldest hnot hmax
      refine ⟨hiff.mpr holdest, fun id m hm hmt => ?_⟩
      obtain ⟨j, hj, hm, hid⟩ := hother hm
      rw [hput, getMessage]
      simp only [Option.bind_eq_bind, Option.bind_eq_some_iff]
      have hkept : s.messages.length + 1 - s.maxMessages ≤ j := by
        by_contra hlt
        refine holdest m (List.mem_of_getElem? (i := j) ?_) hmt
        rw [List.getElem?_take_of_lt (Nat.not_le.mp hlt), hm]
      obtain ⟨i, rfl⟩ := Nat.exists_eq_add_of_le hkept
      refine ⟨i, indexMessages_drop ?_, ?_⟩
      case refine_1 => rw [indexMessages_snoc, AList.lookup_insert_ne hid, ← hwf id, hj]
      case refine_2 =>
        rw [List.getElem?_drop, List.getElem?_append_left (List.getElem?_eq_some_iff.mp hm).1, hm]

theorem keepsMT_iff (hwf : IndexWF s) (hmo : msg.direction = .mo) :
    s.KeepsMT (s.putMessage msg) ↔ s.Spares msg.id := by
  cases h : s.messageByID.lookup msg.id
  case some idx => exact keepsMT_known h hmo
  case none => exact keepsMT_unknown hwf (AList.lookup_eq_none.mp h) hmo

end MemoryStore

structure InboundCall where
  dispatcher : Bool
  now        : Time
  newID      : Str
  ref        : UInt16
  rule       : HTTPRuleConfig
  request    : InboundRequest

def InboundCall.result (c : InboundCall) : InboundResult :=
  handleInboundRule c.dispatcher c.now c.newID c.ref c.rule c.request

-- Only allocators reserve ids. A receipt is no step of its own: what the dispatcher does with it are calls.
inductive TrafficEvent
  | issue (e : IssueEvent)
  | call (c : StoreCall)
  | inbound (c : InboundCall)

def StoreCall.isReserve : StoreCall → Bool
  | reserveGatewayIDRange _ => true
  | _                       => false

namespace Issuance

def exec (w : Issuance) (c : StoreCall) : Issuance :=
  { w with store := { w.store with mem := c.exec w.store.mem } }

def trafficStep (w : Issuance) : TrafficEvent → Issuance
  | .issue e   => w.step e
  | .call c    => if c.isReserve then w else w.exec c
  | .inbound c =>
    match c.result with
    | .message msg _ => w.exec (.outbox (.saveMessage msg))
    | _              => w

def Harmless (w : Issuance) (e : TrafficEvent) : Prop :=
  ∀ c, e = .inbound c → w.store.mem.KeepsMT (w.trafficStep e).store.mem

-- The id of an inbound message is not that of an outbound one, and the message pushes none out of the log.
def SparesMT (w : Issuance) (e : TrafficEvent) : Prop :=
  ∀ c msg success, e = .inbound c → c.result = .message msg success → w.store.mem.Spares msg.id

def TrafficFits (w : Issuance) : TrafficEvent → Prop
  | .issue e => w.Fits e
  | _        => True

variable {w : Issuance}

theorem modifyPending_gatewaySeq {s : MemoryStore} {provider providerID : Str} {f : Pending → Pending} :
    (s.modifyPending provider providerID f).2.gatewaySeq = s.gatewaySeq := by
  unfold MemoryStore.modifyPending
  split <;> rfl

theorem exec_gatewaySeq (s : MemoryStore) {c : StoreCall} (h : c.isReserve = false) :
    (c.exec s).gatewaySeq = s.gatewaySeq := by
  cases c <;> simp only [StoreCall.exec]
  case outbox op => exact op.step_gatewaySeq s
  case reserveGatewayIDRange => cases h
  case updateMessageSent =>
    unfold MemoryStore.updateMessageSent
    split
    case isTrue => exact MemoryStore.modifyMessage_gatewaySeq
    case isFalse => rfl
  case updateMessageState =>
    unfold MemoryStore.updateMessageState
    split
    case isTrue => exact MemoryStore.modifyMessage_gatewaySeq
    case isFalse => rfl
  case updatePendingDLR | markDLRReady | markDLRDelivered => exact modifyPending_gatewaySeq
  case getPending =>
    unfold MemoryStore.getPending
    simp only
    split
    case h_1 => rfl
    case h_2 => split <;> rfl
  case checkIdempotency =>
    unfold MemoryStore.checkIdempotency
    split
    case h_1 => rfl
    case h_2 =>
      simp only
      split
      case h_1 => rfl
      case h_2 => split <;> rfl
  case saveIdempotency now gatewayID opts =>
    unfold MemoryStore.saveIdempotency
    split
    case h_1 => rfl
    case h_2 =>
      obtain ⟨i, hi⟩ := MemoryStore.rememberKey_frame (s.sweepLocked now) now gatewayID opts
      rw [hi]
      rfl
  all_goals rfl

inductive Moves (w : Issuance) : TrafficEvent → Issuance → Prop
  | issue (e) : Moves w (.issue e) (w.step e)
  | exec {e c} (reserve : c.isReserve = false) : Moves w e (w.exec c)
  | idle {e} : Moves w e w

theorem trafficStep_moves (w : Issuance) (e : TrafficEvent) : w.Moves e (w.trafficStep e) := by
  cases e
  case issue e => exact .issue e
  case call c =>
    simp only [trafficStep]
    split
    case isTrue => exact .idle
    case isFalse h => exact .exec (Bool.eq_false_iff.mpr h)
  case inbound c =>
    simp only [trafficStep]
    split
    case h_1 => exact .exec rfl
    case h_2 => exact .idle

theorem step_store (w : Issuance) (e : IssueEvent) : ∃ es, (w.step e).store = run FileStore.reopenStep w.store es := by
  cases e <;> simp only [step]
  case newDispatcher => exact ⟨[], rfl⟩
  case newGatewayID i =>
    split
    case h_1 => exact ⟨[], rfl⟩
    case h_2 a _ =>
      split
      case isTrue => exact ⟨[], rfl⟩
      case isFalse =>
        split
        case isTrue => exact ⟨[.exec (.reserveGatewayIDRange a.span)], rfl⟩
        case isFalse => exact ⟨[], rfl⟩
  case reserved i persistOk =>
    split
    case h_1 => exact ⟨[], rfl⟩
    case h_2 =>
      split
      case h_1 => exact ⟨[], rfl⟩
      case h_2 =>
        split
        case isTrue => exact ⟨[.persist], rfl⟩
        case isFalse => exact ⟨[], rfl⟩
  case exec op => exact ⟨[.exec (.outbox op)], rfl⟩
  case persist => exact ⟨[.persist], rfl⟩
  case restart => exact ⟨[.restart], rfl⟩

theorem Moves.store {e : TrafficEvent} {w' : Issuance} (h : w.Moves e w') (hw : ReopenInv w.store) :
    ReopenInv w'.store := by
  cases h
  case issue e =>
    obtain ⟨es, hes⟩ := w.step_store e
    rw [hes]
    exact invariant (G := fun _ _ => True) hw (.of_forall fun _ _ _ => trivial) fun _ e h _ => h.step e
  case exec c _ => exact hw.step (.exec c)
  case idle => exact hw

theorem Moves.wf {e : TrafficEvent} {w' : Issuance} (h : w.Moves e w') (hw : w.WF) (hfits : w.TrafficFits e) :
    w'.WF := by
  cases h
  case issue e => exact hw.step e hfits
  case exec => exact ⟨hw.span, hw.range⟩
  case idle => exact hw

theorem Moves.ledger {e : TrafficEvent} {w' : Issuance} (h : w.Moves e w') (hw : w.WF) (hfits : w.TrafficFits e) :
    Relation.ReflTransGen Ledger.Step w.ledger w'.ledger := by
  cases h
  case issue e => exact ledger_step hw e hfits
  case exec c hc =>
    refine .single (.drop ?_ rfl rfl fun _ => ⟨subset_rfl, subset_rfl⟩)
    exact congrArg UInt64.toNat (exec_gatewaySeq w.store.mem hc)
  case idle => exact .refl

theorem Moves.issues {e : TrafficEvent} {w' : Issuance} (h : w.Moves e w') : Issues w w' := by
  cases h
  case issue e => exact w.step_issued e
  case exec => exact .refl _
  case idle => exact .refl _

theorem harmless_iff (hw : ReopenInv w.store) (e : TrafficEvent) : w.Harmless e ↔ w.SparesMT e := by
  constructor
  case mp =>
    rintro h c msg success rfl hmsg
    obtain ⟨values, -, rfl⟩ := handleInboundRule_message hmsg
    have hkeeps := h c rfl
    simp only [trafficStep, hmsg] at hkeeps
    exact (MemoryStore.keepsMT_iff hw.mem.index rfl).mp hkeeps
  case mpr =>
    rintro h c rfl
    cases hmsg : c.result
    case message msg success =>
      obtain ⟨values, -, rfl⟩ := handleInboundRule_message hmsg
      simp only [trafficStep, hmsg]
      exact (MemoryStore.keepsMT_iff hw.mem.index rfl).mpr (h c _ success rfl hmsg)
    all_goals
      simp only [trafficStep, hmsg]
      exact ⟨rfl, fun _ _ hm _ => hm⟩

end Issuance

-- In every run of the gateway on its file store, the inbound messages leave the outbound ones alone exactly if
-- each of them spares them. As long as the sequence does not wrap around, all ids that are issued are different
-- ones, and those after a restart are none of those before it.
theorem inbound_apart_iff (es : List TrafficEvent) :
    (Along Issuance.trafficStep Issuance.Harmless {} es ↔ Along Issuance.trafficStep Issuance.SparesMT {} es) ∧
    (Along Issuance.trafficStep Issuance.TrafficFits {} es →
      let w := run Issuance.trafficStep {} es
      (w.issued.map (·.2)).Nodup ∧
      ∀ before after, es = before ++ .issue .restart :: after → ∃ later,
        w.issued = later ++ (run Issuance.trafficStep {} before).issued ∧
        ∀ x ∈ later, ∀ y ∈ (run Issuance.trafficStep {} before).issued, x.2 ≠ y.2) := by
  constructor
  case left =>
    exact Along.congr (P := fun w => ReopenInv w.store) ⟨.newMemory, fun h => nomatch h⟩
      (fun w e hw => (w.trafficStep_moves e).store hw) fun w e hw => Issuance.harmless_iff hw e
  case right =>
    intro hfits w
    have hledger : Relation.ReflTransGen Ledger.Step (Issuance.ledger {}) w.ledger :=
      relates (R := fun w w' => Relation.ReflTransGen Ledger.Step (Issuance.ledger w) (Issuance.ledger w'))
        (fun _ => .refl) .trans (P := Issuance.WF) ⟨nofun, nofun⟩ hfits fun w e hw hfits =>
          ⟨(w.trafficStep_moves e).wf hw hfits, (w.trafficStep_moves e).ledger hw hfits⟩
    have hissues := Issuance.Issues.run fun w e => (w.trafficStep_moves e).issues
    have hnodup : (w.issued.map (·.2)).Nodup := Issuance.issued_nodup hledger (hissues {} es).encode
    refine ⟨hnodup, ?_⟩
    rintro before after rfl
    have hlater := hissues (run Issuance.trafficStep {} before) (.issue .restart :: after)
    rw [← run_append] at hlater
    exact hlater.fresh hnodup

def inboundCall (id : Str) : InboundCall where
  dispatcher := true
  now        := 5
  newID      := lit "mo-1"
  ref        := 0
  rule       :=
    { name := lit "mo", authHeader := lit "X-Token", authToken := lit "t"
      fields := (∅ : Map Str Str).insert (lit "id") (lit "id") }
  request    :=
    { method := lit "POST", header := fun _ => lit "t", values := .ok ((∅ : Map Str Str).insert (lit "id") id) }

def issueOne : List TrafficEvent :=
  [.issue (.newDispatcher 0), .issue (.newGatewayID 0), .issue (.reserved 0 true)]

theorem inbound_apart_iff_sample :
    let es := issueOne ++ [.inbound (inboundCall (lit "m0000zzz")), .issue .persist, .issue .restart] ++ issueOne
    (run Issuance.trafficStep {} es).issued.map (·.2) = [lit "m0001000", lit "m0000001"] ∧
      ((run Issuance.trafficStep {} es).issued.map (·.2)).Nodup := by
  intro es
  have hfits : Along Issuance.trafficStep Issuance.TrafficFits {} es :=
    ⟨trivial, fun _ _ _ _ => by decide +kernel, trivial, trivial, trivial, trivial, trivial,
      fun _ _ _ _ => by decide +kernel, trivial, trivial⟩
  exact ⟨by decide +kernel, ((inbound_apart_iff es).2 hfits).1⟩

-- The id of a message that was sent out, and the last number that ids can have. The first message is gone, and after
-- a restart its id is issued again.
theorem inbound_interferes :
    let item : OutboxItem := { gatewayID := lit "m0000001", payload := { gatewayID := lit "m0000001" } }
    let sent := run Issuance.trafficStep {}
      (issueOne ++ [.call (.outbox (.submitAtomic 1 { id := lit "m0000001" } item {}))])
    let hit := sent.trafficStep (.inbound (inboundCall (lit "m0000001")))
    let w := run Issuance.trafficStep hit
      ([.inbound (inboundCall (lit "m3w5e11264sgsf")), .issue .persist, .issue .restart] ++ issueOne ++
        [.issue (.newGatewayID 0)])
    (sent.store.mem.getMessage (lit "m0000001")).map (·.direction) = some .mt ∧
      (hit.store.mem.getMessage (lit "m0000001")).map (·.direction) = some .mo ∧
      ¬sent.store.mem.KeepsMT hit.store.mem ∧
      w.issued.map (·.2) = [lit "m0000001", lit "m0000000", lit "m0000001"] := by
  intro item sent hit w
  have hsent : sent.store.mem.mtMessages.length = 1 := by decide +kernel
  have hhit : hit.store.mem.mtMessages.length = 0 := by decide +kernel
  refine ⟨by decide +kernel, by decide +kernel, fun h => ?_, by decide +kernel⟩
  rw [h.messages, hsent] at hhit
  cases hhit

end SmppGateway
