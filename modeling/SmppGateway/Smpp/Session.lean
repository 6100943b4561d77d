import SmppGateway.Go.Map
import SmppGateway.Lib.Machine
import SmppGateway.Smpp.Submit

-- One session of the SMPP server: `dispatch` and `handleBind` of `internal/smpp/session.go`.

namespace SmppGateway

open Go Machine

def commandBindReceiver : UInt32 := 0x00000001
def commandBindTransmitter : UInt32 := 0x00000002
def commandSubmitSM : UInt32 := 0x00000004
def commandDeliverSM : UInt32 := 0x00000005
def commandUnbind : UInt32 := 0x00000006
def commandBindTransceiver : UInt32 := 0x00000009
def commandEnquireLink : UInt32 := 0x00000015
def commandGenericNack : UInt32 := 0x80000000
def commandBindReceiverResp : UInt32 := 0x80000001
def commandBindTransmitterResp : UInt32 := 0x80000002
def commandSubmitSMResp : UInt32 := 0x80000004
def commandDeliverSMResp : UInt32 := 0x80000005
def commandUnbindResp : UInt32 := 0x80000006
def commandBindTransceiverResp : UInt32 := 0x80000009
def commandEnquireLinkResp : UInt32 := 0x80000015

def statusOK : UInt32 := 0x00000000
def statusInvalidCmd : UInt32 := 0x00000003
def statusInvalidBind : UInt32 := 0x00000004
def statusAlreadyBound : UInt32 := 0x00000005
def statusBindFailed : UInt32 := 0x0000000D
def statusInvalidPassword : UInt32 := 0x0000000E
def statusInvalidSystemID : UInt32 := 0x0000000F
def statusThrottled : UInt32 := 0x00000058

def smppMaxSystemID : Nat := 15
def smppMaxPassword : Nat := 8
def smppMaxSystemType : Nat := 12

inductive BindMode
  | none
  | rx
  | tx
  | trx
  deriving DecidableEq, Repr

namespace BindMode

def canSubmit (m : BindMode) : Bool :=
  m = .tx ∨ m = .trx

def canReceive (m : BindMode) : Bool :=
  m = .rx ∨ m = .trx

theorem eq_none {m : BindMode} (hs : m.canSubmit = false) (hr : m.canReceive = false) : m = .none := by
  cases m <;> simp_all [canSubmit, canReceive]

end BindMode

structure SessionConfig where
  ownSystemID : Str
  windowSize  : Int32
  onSubmit    : Bool := true  -- is there a handler?

-- What the callbacks `Auth` and `BindAllowed` answer when they are asked (a missing one agrees).
structure Answers where
  auth        : Str → Str → Bool := fun _ _ => true
  bindAllowed : Str → Bool       := fun _ => true

structure Session where
  bindMode    : BindMode := .none
  systemID    : Str := []
  inflight    : Int32 := 0
  -- Who waits for a deliver_sm_resp, with the status that was put into the channel.
  deliverResp : Map UInt32 (Option UInt32) := ∅

inductive Effect
  | send (pdu : PDU)
  | onSubmit (msg : SubmitSM)
  | onReceiverBound (systemID : Str)
  deriving DecidableEq, Repr

def PDU.response (pdu : PDU) (commandID status : UInt32) (body : Bytes := []) : PDU where
  commandID  := commandID
  status     := status
  sequenceID := pdu.sequenceID
  body       := body

def bindRespID (commandID : UInt32) : UInt32 :=
  if commandID = commandBindReceiver then
    commandBindReceiverResp
  else if commandID = commandBindTransmitter then
    commandBindTransmitterResp
  else
    commandBindTransceiverResp

def bindModeOf (commandID : UInt32) : BindMode :=
  if commandID = commandBindReceiver then .rx else if commandID = commandBindTransmitter then .tx else .trx

def readBind (body : Bytes) : Except UInt32 (Str × Str) := do
  let (systemID, rest) ← (readCStringMax smppMaxSystemID body).mapError fun _ => statusInvalidSystemID
  let (password, rest) ← (readCStringMax smppMaxPassword rest).mapError fun _ => statusInvalidPassword
  let _ ← (readCStringMax smppMaxSystemType rest).mapError fun _ => statusBindFailed
  pure (systemID, password)

def isBind (commandID : UInt32) : Bool :=
  commandID = commandBindReceiver ∨ commandID = commandBindTransmitter ∨ commandID = commandBindTransceiver

namespace Session

variable (cfg : SessionConfig) (s : Session)

def bindStatus (ask : Answers) (systemID password : Str) : UInt32 :=
  if s.bindMode ≠ .none then
    statusAlreadyBound
  else if !ask.auth systemID password then
    statusBindFailed
  else if !ask.bindAllowed systemID then
    statusBindFailed
  else
    statusOK

def handleBind (ask : Answers) (pdu : PDU) : Session × List Effect :=
  let respond status := Effect.send (pdu.response (bindRespID pdu.commandID) status (cString cfg.ownSystemID))
  match readBind pdu.body with
  | .error status            => (s, [respond status])
  | .ok (systemID, password) =>
    let status := s.bindStatus ask systemID password
    let mode := bindModeOf pdu.commandID
    if status = statusOK then
      ({ s with bindMode := mode, systemID },
        respond status :: if mode.canReceive then [.onReceiverBound systemID] else [])
    else
      (s, [respond status])

def windowSize : Int32 :=
  if cfg.windowSize ≤ 0 then 16 else cfg.windowSize

def handleSubmit (pdu : PDU) : Session × List Effect :=
  let respond status := Effect.send (pdu.response commandSubmitSMResp status)
  if !s.bindMode.canSubmit then
    (s, [respond statusInvalidBind])
  else if windowSize cfg < s.inflight + 1 then
    (s, [respond statusThrottled])
  else
    match parseSubmitSM pdu with
    | .error _ => (s, [respond statusInvalidCmd])
    | .ok msg  =>
      if cfg.onSubmit then
        ({ s with inflight := s.inflight + 1 }, [.onSubmit msg])
      else
        (s, [])

-- The channel of a waiter holds one status: a second one is dropped.
def completeDeliverResp (seq status : UInt32) : Session :=
  match s.deliverResp.lookup seq with
  | some none => { s with deliverResp := s.deliverResp.insert seq (some status) }
  | _         => s

def dispatch (ask : Answers) (pdu : PDU) : Session × List Effect :=
  if isBind pdu.commandID then
    s.handleBind cfg ask pdu
  else if pdu.commandID = commandSubmitSM then
    s.handleSubmit cfg pdu
  else if pdu.commandID = commandDeliverSMResp then
    (s.completeDeliverResp pdu.sequenceID pdu.status, [])
  else if pdu.commandID = commandEnquireLink then
    (s, [.send (pdu.response commandEnquireLinkResp statusOK)])
  else if pdu.commandID = commandUnbind then
    (s, [.send (pdu.response commandUnbindResp statusOK)])
  else if pdu.commandID = commandEnquireLinkResp ∨ pdu.commandID = commandUnbindResp then
    (s, [])
  else
    (s, [.send (pdu.response commandGenericNack statusInvalidCmd)])

def completeSubmit : Session :=
  { s with inflight := s.inflight - 1 }

end Session

variable {cfg : SessionConfig} {s : Session} {ask : Answers} {pdu : PDU} {body : Bytes} {status : UInt32}

theorem Session.bindStatus_eq_ok {systemID password : Str} :
    s.bindStatus ask systemID password = statusOK ↔
      s.bindMode = .none ∧ ask.auth systemID password = true ∧ ask.bindAllowed systemID = true := by
  have hbound : statusAlreadyBound ≠ statusOK := by decide
  have hfailed : statusBindFailed ≠ statusOK := by decide
  unfold bindStatus
  split
  case isTrue h => simp [h, hbound]
  case isFalse h =>
    cases ask.auth systemID password <;> cases ask.bindAllowed systemID <;> simp_all

theorem readBind_error (h : readBind body = .error status) : status ≠ statusOK := by
  unfold readBind at h
  cases h₁ : readCStringMax smppMaxSystemID body
  case error => simp only [h₁, Except.mapError, bind, Except.bind] at h; cases h; decide
  case ok r₁ =>
    cases h₂ : readCStringMax smppMaxPassword r₁.2
    case error => simp only [h₁, h₂, Except.mapError, bind, Except.bind] at h; cases h; decide
    case ok r₂ =>
      cases h₃ : readCStringMax smppMaxSystemType r₂.2
      case error => simp only [h₁, h₂, h₃, Except.mapError, bind, Except.bind] at h; cases h; decide
      case ok => simp only [h₁, h₂, h₃, Except.mapError, bind, Except.bind] at h; cases h

theorem Session.handleBind_cases (cfg : SessionConfig) (s : Session) (ask : Answers) (pdu : PDU) :
    (∃ systemID password, s.bindMode = .none ∧ readBind pdu.body = .ok (systemID, password) ∧
      s.handleBind cfg ask pdu = ({ s with bindMode := bindModeOf pdu.commandID, systemID },
        .send (pdu.response (bindRespID pdu.commandID) statusOK (cString cfg.ownSystemID)) ::
          if (bindModeOf pdu.commandID).canReceive then [.onReceiverBound systemID] else [])) ∨
    ∃ status, status ≠ statusOK ∧ s.handleBind cfg ask pdu =
      (s, [.send (pdu.response (bindRespID pdu.commandID) status (cString cfg.ownSystemID))]) := by
  unfold handleBind
  cases hread : readBind pdu.body
  case error status => exact .inr ⟨status, readBind_error hread, rfl⟩
  case ok r =>
    by_cases hok : s.bindStatus ask r.1 r.2 = statusOK
    case pos => exact .inl ⟨r.1, r.2, (bindStatus_eq_ok.mp hok).1, rfl, by simp [hok]⟩
    case neg => exact .inr ⟨_, hok, by simp [hok]⟩

theorem Session.handleSubmit_cases (cfg : SessionConfig) (s : Session) (pdu : PDU) :
    (∃ status, s.handleSubmit cfg pdu = (s, [.send (pdu.response commandSubmitSMResp status)])) ∨
    s.handleSubmit cfg pdu = (s, []) ∨
    ∃ msg, s.bindMode.canSubmit = true ∧ parseSubmitSM pdu = .ok msg ∧
      s.handleSubmit cfg pdu = ({ s with inflight := s.inflight + 1 }, [.onSubmit msg]) := by
  unfold handleSubmit
  cases hbind : s.bindMode.canSubmit
  case false => exact .inl ⟨_, rfl⟩
  case true =>
    by_cases hfull : windowSize cfg < s.inflight + 1
    case pos => exact .inl ⟨statusThrottled, by simp [hfull]⟩
    case neg =>
      cases hparse : parseSubmitSM pdu
      case error => exact .inl ⟨statusInvalidCmd, by simp [hfull]⟩
      case ok msg =>
        cases hhandler : cfg.onSubmit
        case false => exact .inr (.inl (by simp [hfull]))
        case true => exact .inr (.inr ⟨msg, rfl, rfl, by simp [hfull]⟩)

theorem Session.completeDeliverResp_bindMode {seq status : UInt32} :
    (s.completeDeliverResp seq status).bindMode = s.bindMode := by
  unfold completeDeliverResp
  split <;> rfl

inductive Session.Handles (cfg : SessionConfig) (s : Session) (pdu : PDU) : Session × List Effect → Prop
  | bound (systemID : Str) (command : isBind pdu.commandID) (unbound : s.bindMode = .none) :
      Handles cfg s pdu ({ s with bindMode := bindModeOf pdu.commandID, systemID },
        .send (pdu.response (bindRespID pdu.commandID) statusOK (cString cfg.ownSystemID)) ::
          if (bindModeOf pdu.commandID).canReceive then [.onReceiverBound systemID] else [])
  | refused (status : UInt32) (command : isBind pdu.commandID) (failed : status ≠ statusOK) :
      Handles cfg s pdu
        (s, [.send (pdu.response (bindRespID pdu.commandID) status (cString cfg.ownSystemID))])
  | answered (status : UInt32) (command : pdu.commandID = commandSubmitSM) :
      Handles cfg s pdu (s, [.send (pdu.response commandSubmitSMResp status)])
  | unhandled (command : pdu.commandID = commandSubmitSM) : Handles cfg s pdu (s, [])
  | handed (msg : SubmitSM) (command : pdu.commandID = commandSubmitSM) (allowed : s.bindMode.canSubmit)
      (parsed : parseSubmitSM pdu = .ok msg) :
      Handles cfg s pdu ({ s with inflight := s.inflight + 1 }, [.onSubmit msg])
  | delivered (command : pdu.commandID = commandDeliverSMResp) :
      Handles cfg s pdu (s.completeDeliverResp pdu.sequenceID pdu.status, [])
  | enquired (command : pdu.commandID = commandEnquireLink) :
      Handles cfg s pdu (s, [.send (pdu.response commandEnquireLinkResp statusOK)])
  | unbound (command : pdu.commandID = commandUnbind) :
      Handles cfg s pdu (s, [.send (pdu.response commandUnbindResp statusOK)])
  | ignored (command : pdu.commandID = commandEnquireLinkResp ∨ pdu.commandID = commandUnbindResp) :
      Handles cfg s pdu (s, [])
  | nacked (bind : ¬isBind pdu.commandID)
      (command : pdu.commandID ∉ [commandSubmitSM, commandDeliverSMResp, commandEnquireLink, commandUnbind,
        commandEnquireLinkResp, commandUnbindResp]) :
      Handles cfg s pdu (s, [.send (pdu.response commandGenericNack statusInvalidCmd)])

theorem Session.dispatch_handles (cfg : SessionConfig) (s : Session) (ask : Answers) (pdu : PDU) :
    s.Handles cfg pdu (s.dispatch cfg ask pdu) := by
  unfold dispatch
  split
  case isTrue hbind =>
    rcases handleBind_cases cfg s ask pdu with ⟨systemID, _, hmode, _, h⟩ | ⟨status, hs, h⟩
    case inl => exact h ▸ .bound systemID hbind hmode
    case inr => exact h ▸ .refused status hbind hs
  case isFalse hbind =>
  split
  case isTrue hsubmit =>
    rcases handleSubmit_cases cfg s pdu with ⟨status, h⟩ | h | ⟨msg, ha, hp, h⟩
    case inl => exact h ▸ .answered status hsubmit
    case inr.inl => exact h ▸ .unhandled hsubmit
    case inr.inr => exact h ▸ .handed msg hsubmit ha hp
  case isFalse hsubmit =>
  split
  case isTrue h => exact .delivered h
  case isFalse hdeliver =>
  split
  case isTrue h => exact .enquired h
  case isFalse henquire =>
  split
  case isTrue h => exact .unbound h
  case isFalse hunbind =>
  split
  case isTrue h => exact .ignored h
  case isFalse hresp =>
    apply Handles.nacked hbind
    simp_all

inductive SessionEvent
  | receive (ask : Answers) (pdu : PDU)
  | completeSubmit                      -- a submit worker is done with a job
  | registerDeliverResp (seq : UInt32)  -- `SendDeliverSM` starts to wait
  | unregisterDeliverResp (seq : UInt32)

structure Conversation where
  session : Session := {}
  effects : List Effect := []

namespace Conversation

variable (cfg : SessionConfig)

def effectsOf (c : Conversation) : SessionEvent → List Effect
  | .receive ask pdu => (c.session.dispatch cfg ask pdu).2
  | _                => []

def step (c : Conversation) : SessionEvent → Conversation
  | .receive ask pdu           => {
      session := (c.session.dispatch cfg ask pdu).1
      effects := c.effects ++ c.effectsOf cfg (.receive ask pdu) }
  | .completeSubmit            => { c with session := c.session.completeSubmit }
  | .registerDeliverResp seq   => { c with
      session := { c.session with deliverResp := c.session.deliverResp.insert seq none } }
  | .unregisterDeliverResp seq => { c with
      session := { c.session with deliverResp := c.session.deliverResp.erase seq } }

end Conversation

def Effect.announces : Effect → Option BindMode
  | .send pdu =>
    if pdu.status ≠ statusOK then
      none
    else if pdu.commandID = commandBindReceiverResp then
      some .rx
    else if pdu.commandID = commandBindTransmitterResp then
      some .tx
    else if pdu.commandID = commandBindTransceiverResp then
      some .trx
    else if pdu.commandID = commandUnbindResp then
      some .none
    else
      none
  | _ => none

def answeredMode (effects : List Effect) : BindMode :=
  effects.foldl (fun mode e => e.announces.getD mode) .none

theorem answeredMode_append (effects effects' : List Effect) :
    answeredMode (effects ++ effects') =
      effects'.foldl (fun mode e => e.announces.getD mode) (answeredMode effects) :=
  List.foldl_append

theorem announces_failed {commandID : UInt32} (h : status ≠ statusOK) :
    (Effect.send (pdu.response commandID status body)).announces = none := by
  simp [Effect.announces, PDU.response, h]

theorem announces_bind :
    (Effect.send (pdu.response (bindRespID pdu.commandID) statusOK body)).announces =
      some (bindModeOf pdu.commandID) := by
  unfold bindRespID bindModeOf
  by_cases hrx : pdu.commandID = commandBindReceiver
  case pos => rw [if_pos hrx, if_pos hrx]; rfl
  case neg =>
    rw [if_neg hrx, if_neg hrx]
    by_cases htx : pdu.commandID = commandBindTransmitter
    case pos => rw [if_pos htx, if_pos htx]; rfl
    case neg => rw [if_neg htx, if_neg htx]; rfl

theorem announces_submit : (Effect.send (pdu.response commandSubmitSMResp status)).announces = none := by
  by_cases hok : status = statusOK
  case pos => subst hok; rfl
  case neg => exact announces_failed hok

namespace Conversation

def Announced (c : Conversation) : Prop :=
  answeredMode c.effects = c.session.bindMode ∨ answeredMode c.effects = .none

-- The session hands submits over, and takes receipts, only in the mode that its answers announce.
structure Consistent (c : Conversation) : Prop where
  submit  : c.session.bindMode.canSubmit → (answeredMode c.effects).canSubmit
  receive : c.session.bindMode.canReceive → (answeredMode c.effects).canReceive

def UnbindsUnbound (c : Conversation) : SessionEvent → Prop
  | .receive _ pdu => pdu.commandID = commandUnbind → c.session.bindMode = .none
  | _              => True

variable {c : Conversation}

theorem Consistent.iff_eq (h : c.Announced) :
    c.Consistent ↔ answeredMode c.effects = c.session.bindMode := by
  constructor
  case mp =>
    intro hc
    rcases h with h | h
    case inl => exact h
    case inr =>
      have hs : c.session.bindMode.canSubmit = false := by
        simpa [h, BindMode.canSubmit] using hc.submit
      have hr : c.session.bindMode.canReceive = false := by
        simpa [h, BindMode.canReceive] using hc.receive
      rw [h, BindMode.eq_none hs hr]
  case mpr => exact fun h => ⟨fun hs => h ▸ hs, fun hr => h ▸ hr⟩

theorem isBind_ne_unbind (h : isBind pdu.commandID) : pdu.commandID ≠ commandUnbind := by
  intro hu
  rw [hu] at h
  exact absurd h (by decide)

theorem modes_of_handles {r : Session × List Effect} (h : s.Handles cfg pdu r) (effects : List Effect) :
    s.bindMode = .none ∧ pdu.commandID ≠ commandUnbind ∧ answeredMode (effects ++ r.2) = r.1.bindMode ∨
    r.1.bindMode = s.bindMode ∧ pdu.commandID = commandUnbind ∧ answeredMode (effects ++ r.2) = .none ∨
    r.1.bindMode = s.bindMode ∧ pdu.commandID ≠ commandUnbind ∧
      answeredMode (effects ++ r.2) = answeredMode effects := by
  have other {commandID : UInt32} (hne : commandID ≠ commandUnbind) (h : pdu.commandID = commandID) :
      pdu.commandID ≠ commandUnbind := h ▸ hne
  cases h <;> rw [answeredMode_append]
  case bound systemID hc hn =>
    refine .inl ⟨hn, isBind_ne_unbind hc, ?_⟩
    rw [List.foldl_cons, announces_bind]
    split <;> rfl
  case refused status hc hs =>
    exact .inr (.inr ⟨rfl, isBind_ne_unbind hc, by rw [List.foldl_cons, announces_failed hs]; rfl⟩)
  case answered status hc =>
    exact .inr (.inr ⟨rfl, other (by decide) hc, by rw [List.foldl_cons, announces_submit]; rfl⟩)
  case unhandled hc => exact .inr (.inr ⟨rfl, other (by decide) hc, rfl⟩)
  case handed msg hc _ _ => exact .inr (.inr ⟨rfl, other (by decide) hc, rfl⟩)
  case delivered hc => exact .inr (.inr ⟨Session.completeDeliverResp_bindMode, other (by decide) hc, rfl⟩)
  case enquired hc => exact .inr (.inr ⟨rfl, other (by decide) hc, rfl⟩)
  case unbound hc => exact .inr (.inl ⟨rfl, hc, rfl⟩)
  case ignored hc => exact .inr (.inr ⟨rfl, hc.elim (other (by decide)) (other (by decide)), rfl⟩)
  case nacked _ hc => exact .inr (.inr ⟨rfl, fun hu => hc (by simp [hu]), rfl⟩)

theorem Announced.step (h : c.Announced) (e : SessionEvent) : (c.step cfg e).Announced := by
  cases e
  case receive ask pdu =>
    have hh := c.session.dispatch_handles cfg ask pdu
    rcases modes_of_handles hh c.effects with ⟨_, _, ha⟩ | ⟨_, _, ha⟩ | ⟨hm, _, ha⟩
    case inl => exact .inl ha
    case inr.inl => exact .inr ha
    case inr.inr => exact h.imp (fun h => ha.trans (h.trans hm.symm)) ha.trans
  all_goals exact h

theorem Consistent.step_iff (hi : c.Announced) (hc : c.Consistent) (e : SessionEvent) :
    c.UnbindsUnbound e ↔ (c.step cfg e).Consistent := by
  rw [iff_eq (hi.step e)]
  rw [iff_eq hi] at hc
  cases e
  case receive ask pdu =>
    have hh := c.session.dispatch_handles cfg ask pdu
    rcases modes_of_handles hh c.effects with ⟨_, hne, ha⟩ | ⟨hm, hu, ha⟩ | ⟨hm, hne, ha⟩
    case inl => exact ⟨fun _ => ha, fun _ hu => absurd hu hne⟩
    case inr.inl => exact ⟨fun h => ha.trans ((h hu).symm.trans hm.symm), fun h _ => hm.symm.trans (h.symm.trans ha)⟩
    case inr.inr => exact ⟨fun _ => ha.trans (hc.trans hm.symm), fun _ hu => absurd hu hne⟩
  all_goals exact ⟨fun _ => hc, fun _ => trivial⟩

theorem canSubmit_of_handed {e : SessionEvent} {msg : SubmitSM} (h : .onSubmit msg ∈ c.effectsOf cfg e) :
    c.session.bindMode.canSubmit := by
  cases e
  case receive ask pdu =>
    have hh := c.session.dispatch_handles cfg ask pdu
    change .onSubmit msg ∈ (c.session.dispatch cfg ask pdu).2 at h
    generalize c.session.dispatch cfg ask pdu = r at h hh
    cases hh
    case handed => assumption
    case bound => split at h <;> simp at h
    all_goals simp at h
  all_goals cases h

end Conversation

-- A session keeps to what its answers announce exactly as long as no unbind arrives while it is bound; as long
-- as it does, only submits of a session that was last answered as a transmitter or transceiver are handed over.
theorem conversation_consistent_iff (cfg : SessionConfig) (es : List SessionEvent) :
    (Always (Conversation.step cfg) Conversation.Consistent {} es ↔
      Along (Conversation.step cfg) Conversation.UnbindsUnbound {} es) ∧
    (Along (Conversation.step cfg) Conversation.UnbindsUnbound {} es →
      Along (Conversation.step cfg) (fun c e => ∀ msg, .onSubmit msg ∈ c.effectsOf cfg e →
        (answeredMode c.effects).canSubmit) {} es) := by
  have hiff : Always (Conversation.step cfg) Conversation.Consistent {} es ↔
      Along (Conversation.step cfg) Conversation.UnbindsUnbound {} es :=
    Always.iff_along (I := Conversation.Announced) (A := fun _ => True) (.inl rfl)
      ⟨fun h => h, fun h => h⟩ (fun _ _ => trivial) (fun _ e hi _ => hi.step e)
      fun _ e hi _ hc => hc.step_iff hi e
  refine ⟨hiff, fun h => ?_⟩
  apply (hiff.mpr h).along.mono
  intro c e hc msg hm
  exact hc.submit (Conversation.canSubmit_of_handed hm)

def bindBody (systemID password : Str) : Bytes :=
  cString systemID ++ cString password ++ cString [] ++ [0x34, 0x00, 0x00] ++ cString []

-- After a bind and an unbind, both answered with success, the session still takes receipts and hands a submit over.
theorem submit_handed_after_unbind :
    let cfg : SessionConfig := { ownSystemID := lit "gw", windowSize := 16 }
    let bind : PDU := {
      commandID := commandBindTransceiver, sequenceID := 1, body := bindBody (lit "esme") (lit "pw") }
    let unbind : PDU := { commandID := commandUnbind, sequenceID := 2, body := [] }
    let submit : PDU := {
      commandID := commandSubmitSM, sequenceID := 3
      body := cString [] ++ [1, 1] ++ cString [] ++ [1, 1] ++ cString (lit "1") ++ [0, 0, 0] ++ cString [] ++
        cString [] ++ [0, 0, 0, 0, 0] }
    let c := run (Conversation.step cfg) {} [.receive {} bind, .receive {} unbind]
    answeredMode c.effects = .none ∧ c.session.bindMode.canReceive ∧
      ∃ msg, .onSubmit msg ∈ c.effectsOf cfg (.receive {} submit) := by
  refine ⟨by decide +kernel, by decide +kernel, {
    sequenceID := 3, sender := [], dest := lit "1", text := [], dataCoding := 0, registeredDelivery := 0
    esmClass := 0, protocolID := 0, priorityFlag := 0, replaceIfPresent := 0, smDefaultMsgID := 0
    optionalParamsOffset := 18, payload := [], udh := [], concat := none, tlvs := [] }, by decide +kernel⟩

end SmppGateway
