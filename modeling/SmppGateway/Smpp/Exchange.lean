import SmppGateway.Smpp.Session

-- A client connection and a server session that talk to each other: `readLoop` of
-- `internal/smppclient/connection.go` against `dispatch` of `internal/smpp/session.go`, over two channels that
-- keep the order of what is sent.

namespace SmppGateway

open Go Machine

inductive ReadEffect
  | complete (pdu : PDU)    -- the window is told of the response
  | send (pdu : PDU)
  | receipt (body : Bytes)  -- the body is parsed as a receipt
  | unbound                 -- the loop ends
  deriving DecidableEq, Repr

def readLoop (pdu : PDU) : List ReadEffect :=
  if pdu.commandID = commandSubmitSMResp then
    [.complete pdu]
  else if pdu.commandID = commandDeliverSM then
    [.send (pdu.response commandDeliverSMResp statusOK (cString [])), .receipt pdu.body]
  else if pdu.commandID = commandEnquireLink then
    [.send (pdu.response commandEnquireLinkResp statusOK)]
  else if pdu.commandID = commandEnquireLinkResp then
    []
  else if pdu.commandID = commandUnbind then
    [.send (pdu.response commandUnbindResp statusOK), .unbound]
  else
    [.send (pdu.response commandGenericNack statusInvalidCmd)]

structure Exchange where
  session  : Session := {}
  jobs     : List SubmitSM := []  -- submits that were handed over and are not answered
  toServer : List PDU
  toClient : List PDU
  reading  : Bool := true         -- the client's loop has not ended

-- What reaches the peer at once: a submit for which the job queue is full is answered by `onSubmit` itself.
def Effect.sent (full : Bool) : Effect → List PDU
  | .send pdu          => [pdu]
  | .onSubmit msg      =>
    if full then
      [{ commandID := commandSubmitSMResp, status := statusThrottled, sequenceID := msg.sequenceID, body := [] }]
    else
      []
  | .onReceiverBound _ => []

def Effect.queued (full : Bool) : Effect → List SubmitSM
  | .onSubmit msg => if full then [] else [msg]
  | _             => []

def ReadEffect.sent : ReadEffect → List PDU
  | .send pdu => [pdu]
  | _         => []

namespace Exchange

variable (cfg : SessionConfig) (x : Exchange)

def serve (ask : Answers) (full : Bool) (pdu : PDU) (rest : List PDU) : Exchange :=
  let (session, effects) := x.session.dispatch cfg ask pdu
  { x with
    session
    jobs     := x.jobs ++ effects.flatMap (Effect.queued full)
    toServer := rest
    toClient := x.toClient ++ effects.flatMap (Effect.sent full) }

def read (pdu : PDU) (rest : List PDU) : Exchange :=
  let effects := readLoop pdu
  { x with
    toServer := x.toServer ++ effects.flatMap ReadEffect.sent
    toClient := rest
    reading  := x.reading ∧ .unbound ∉ effects }

def work (job : SubmitSM) (rest : List SubmitSM) (status : UInt32) (body : Bytes) : Exchange :=
  { x with
    session  := x.session.completeSubmit
    jobs     := rest
    toClient := x.toClient ++ [{ commandID := commandSubmitSMResp, status, sequenceID := job.sequenceID, body }] }

inductive Step : Exchange → Exchange → Prop
  | serve {x : Exchange} {pdu rest} (ask : Answers) (full : Bool) (next : x.toServer = pdu :: rest) :
      Step x (x.serve cfg ask full pdu rest)
  | read {x : Exchange} {pdu rest} (reading : x.reading) (next : x.toClient = pdu :: rest) :
      Step x (x.read pdu rest)
  | work {x : Exchange} {job before after} (status : UInt32) (body : Bytes) (next : x.jobs = before ++ job :: after) :
      Step x (x.work job (before ++ after) status body)

end Exchange

-- What a side answers at most once, with something that the other side does not answer.
def settlesAtServer (pdu : PDU) : Bool :=
  pdu.commandID ∈ [commandSubmitSM, commandDeliverSMResp, commandEnquireLink, commandEnquireLinkResp,
    commandUnbindResp]

def settlesAtClient (pdu : PDU) : Bool :=
  pdu.commandID ∈ [commandSubmitSMResp, commandDeliverSM, commandEnquireLink, commandEnquireLinkResp]

def isUnbind (pdu : PDU) : Bool :=
  pdu.commandID = commandUnbind

def PDU.weight (pdu : PDU) : Nat :=
  if pdu.commandID ∈ [commandSubmitSM, commandDeliverSM, commandEnquireLink] then 3 else 1

inductive ServerReaction (pdu : PDU) : List PDU → List SubmitSM → Prop
  | silent (settles : settlesAtServer pdu) : ServerReaction pdu [] []
  | queued (msg : SubmitSM) (settles : settlesAtServer pdu) (weight : pdu.weight = 3) : ServerReaction pdu [] [msg]
  | answers (resp : PDU) (settles : settlesAtServer pdu) (weight : pdu.weight = 3)
      (light : resp.weight = 1) (settles' : settlesAtClient resp) : ServerReaction pdu [resp] []
  | echoes (resp : PDU) (unsettled : ¬settlesAtServer pdu) (unsettled' : ¬settlesAtClient resp)
      (stays : ¬isUnbind resp) : ServerReaction pdu [resp] []

inductive ClientReaction (pdu : PDU) : List PDU → Prop
  | silent (settles : settlesAtClient pdu) : ClientReaction pdu []
  | leaves (resp : PDU) (unbind : isUnbind pdu) : ClientReaction pdu [resp]
  | answers (resp : PDU) (settles : settlesAtClient pdu) (weight : pdu.weight = 3)
      (light : resp.weight = 1) (settles' : settlesAtServer resp) : ClientReaction pdu [resp]
  | echoes (resp : PDU) (unsettled : ¬settlesAtClient pdu) (stays : ¬isUnbind pdu)
      (unsettled' : ¬settlesAtServer resp) : ClientReaction pdu [resp]

theorem not_settlesAtServer_of_isBind {pdu : PDU} (h : isBind pdu.commandID) : ¬settlesAtServer pdu := by
  simp only [isBind, Bool.decide_or, Bool.or_eq_true, decide_eq_true_eq] at h
  rcases h with h | h | h <;> simp only [settlesAtServer, h] <;> decide

theorem bindRespID_unsettled (pdu : PDU) (status : UInt32) (body : Bytes) :
    ¬settlesAtClient (pdu.response (bindRespID pdu.commandID) status body) ∧
      ¬isUnbind (pdu.response (bindRespID pdu.commandID) status body) := by
  simp only [settlesAtClient, isUnbind, PDU.response, bindRespID]
  split
  case isTrue => decide
  case isFalse => split <;> decide

theorem settlesAtServer_of_command {pdu : PDU} {commandID : UInt32} (h : pdu.commandID = commandID)
    (hs : settlesAtServer { commandID, body := [] }) : settlesAtServer pdu := by
  simpa only [settlesAtServer, h] using hs

theorem settlesAtClient_of_command {pdu : PDU} {commandID : UInt32} (h : pdu.commandID = commandID)
    (hs : settlesAtClient { commandID, body := [] }) : settlesAtClient pdu := by
  simpa only [settlesAtClient, h] using hs

theorem weight_of_command {pdu : PDU} {commandID : UInt32} (h : pdu.commandID = commandID) :
    pdu.weight = PDU.weight { commandID, body := [] } := by
  simp only [PDU.weight, h]

theorem not_isUnbind_of_settles {pdu : PDU} (h : settlesAtClient pdu) : ¬isUnbind pdu := by
  intro hu
  have hc : pdu.commandID = commandUnbind := of_decide_eq_true hu
  simp only [settlesAtClient, hc] at h
  exact absurd h (by decide)

theorem nack_unsettled (pdu : PDU) :
    ¬settlesAtClient (pdu.response commandGenericNack statusInvalidCmd) ∧
      ¬isUnbind (pdu.response commandGenericNack statusInvalidCmd) ∧
      ¬settlesAtServer (pdu.response commandGenericNack statusInvalidCmd) :=
  ⟨Bool.false_ne_true, Bool.false_ne_true, Bool.false_ne_true⟩

theorem dispatch_reacts (cfg : SessionConfig) (s : Session) (ask : Answers) (full : Bool) (pdu : PDU) :
    ServerReaction pdu ((s.dispatch cfg ask pdu).2.flatMap (Effect.sent full))
      ((s.dispatch cfg ask pdu).2.flatMap (Effect.queued full)) := by
  have hh := s.dispatch_handles cfg ask pdu
  generalize s.dispatch cfg ask pdu = r at hh
  cases hh
  case bound systemID hb _ =>
    have hresp := bindRespID_unsettled pdu statusOK (cString cfg.ownSystemID)
    split <;> exact .echoes _ (not_settlesAtServer_of_isBind hb) hresp.1 hresp.2
  case refused status hb _ =>
    have hresp := bindRespID_unsettled pdu status (cString cfg.ownSystemID)
    exact .echoes _ (not_settlesAtServer_of_isBind hb) hresp.1 hresp.2
  case answered status hc =>
    exact .answers _ (settlesAtServer_of_command hc (by decide)) (weight_of_command hc) rfl rfl
  case unhandled hc => exact .silent (settlesAtServer_of_command hc (by decide))
  case handed msg hc _ _ =>
    have hs := settlesAtServer_of_command hc (by decide)
    cases full
    case false => exact .queued msg hs (weight_of_command hc)
    case true => exact .answers _ hs (weight_of_command hc) rfl rfl
  case delivered hc => exact .silent (settlesAtServer_of_command hc (by decide))
  case enquired hc =>
    exact .answers _ (settlesAtServer_of_command hc (by decide)) (weight_of_command hc) rfl rfl
  case unbound hc =>
    have hs : ¬settlesAtServer pdu := by
      simp only [settlesAtServer, hc]
      decide
    exact .echoes _ hs Bool.false_ne_true Bool.false_ne_true
  case ignored hc =>
    rcases hc with hc | hc <;> exact .silent (settlesAtServer_of_command hc (by decide))
  case nacked _ hc =>
    have hs : ¬settlesAtServer pdu := by simp_all [settlesAtServer]
    exact .echoes _ hs (nack_unsettled pdu).1 (nack_unsettled pdu).2.1

theorem readLoop_reacts (pdu : PDU) : ClientReaction pdu ((readLoop pdu).flatMap ReadEffect.sent) := by
  unfold readLoop
  split
  case isTrue hc => exact .silent (settlesAtClient_of_command hc (by decide))
  case isFalse hsubmit =>
  split
  case isTrue hc => exact .answers _ (settlesAtClient_of_command hc (by decide)) (weight_of_command hc) rfl rfl
  case isFalse hdeliver =>
  split
  case isTrue hc => exact .answers _ (settlesAtClient_of_command hc (by decide)) (weight_of_command hc) rfl rfl
  case isFalse henquire =>
  split
  case isTrue hc => exact .silent (settlesAtClient_of_command hc (by decide))
  case isFalse hresp =>
  split
  case isTrue hc => exact .leaves _ (decide_eq_true hc)
  case isFalse hunbind =>
    have hs : ¬settlesAtClient pdu := by simp_all [settlesAtClient]
    have hu : ¬isUnbind pdu := by simp_all [isUnbind]
    exact .echoes _ hs hu (nack_unsettled pdu).2.2

theorem unbound_mem_readLoop (pdu : PDU) : .unbound ∈ readLoop pdu ↔ isUnbind pdu := by
  unfold readLoop isUnbind
  constructor
  case mp =>
    intro h
    split_ifs at h with _ _ _ _ hu <;> simp_all
  case mpr =>
    intro h
    rw [decide_eq_true_eq] at h
    rw [h]
    exact List.mem_cons_of_mem _ List.mem_cons_self

namespace Exchange

variable {cfg : SessionConfig} {x y : Exchange} {pdu : PDU} {rest : List PDU}

structure Settling (x : Exchange) : Prop where
  toServer : ∀ p ∈ x.toServer, settlesAtServer p
  toClient : ∀ p ∈ x.toClient, settlesAtClient p

def load (x : Exchange) : Nat :=
  (x.toServer.map PDU.weight).sum + (x.toClient.map PDU.weight).sum + 2 * x.jobs.length

theorem weight_pos (p : PDU) : 0 < p.weight := by
  unfold PDU.weight
  split <;> decide

theorem Settling.serve (h : x.Settling) (ask : Answers) (full : Bool) (hnext : x.toServer = pdu :: rest) :
    (x.serve cfg ask full pdu rest).Settling ∧ (x.serve cfg ask full pdu rest).load < x.load := by
  have hr := dispatch_reacts cfg x.session ask full pdu
  have hpdu : settlesAtServer pdu := h.toServer pdu (hnext ▸ List.mem_cons_self)
  have hrest : ∀ p ∈ rest, settlesAtServer p := fun p hp => h.toServer p (hnext ▸ List.mem_cons_of_mem pdu hp)
  simp only [load, Exchange.serve, hnext]
  generalize List.flatMap (Effect.sent full) _ = out at hr
  generalize List.flatMap (Effect.queued full) _ = jobs at hr
  cases hr
  case silent => exact ⟨⟨hrest, by simpa using h.toClient⟩, by simp [weight_pos]⟩
  case queued msg _ hw => exact ⟨⟨hrest, by simpa using h.toClient⟩, by simp [hw]; omega⟩
  case answers resp _ hw hl hs =>
    exact ⟨⟨hrest, List.forall_mem_append.mpr ⟨h.toClient, by simpa using hs⟩⟩, by simp [hw, hl]; omega⟩
  case echoes hu _ _ => exact absurd hpdu hu

theorem Settling.read (h : x.Settling) (hnext : x.toClient = pdu :: rest) :
    (x.read pdu rest).Settling ∧ (x.read pdu rest).load < x.load := by
  have hr := readLoop_reacts pdu
  have hpdu : settlesAtClient pdu := h.toClient pdu (hnext ▸ List.mem_cons_self)
  have hrest : ∀ p ∈ rest, settlesAtClient p := fun p hp => h.toClient p (hnext ▸ List.mem_cons_of_mem pdu hp)
  simp only [load, Exchange.read, hnext]
  generalize List.flatMap ReadEffect.sent _ = out at hr
  cases hr
  case silent => exact ⟨⟨by simpa using h.toServer, hrest⟩, by simp [weight_pos]⟩
  case leaves resp hu => exact absurd hu (not_isUnbind_of_settles hpdu)
  case answers resp _ hw hl hs =>
    exact ⟨⟨List.forall_mem_append.mpr ⟨h.toServer, by simpa using hs⟩, hrest⟩, by simp [hw, hl]; omega⟩
  case echoes hu _ _ => exact absurd hpdu hu

theorem Settling.step (h : x.Settling) (hs : Step cfg x y) : y.Settling ∧ y.load < x.load := by
  cases hs
  case serve ask full hnext => exact h.serve ask full hnext
  case read hnext => exact h.read hnext
  case work job before after status body hnext =>
    refine ⟨⟨h.toServer, List.forall_mem_append.mpr ⟨h.toClient, by simp [settlesAtClient]⟩⟩, ?_⟩
    have hw : PDU.weight { commandID := commandSubmitSMResp, status, sequenceID := job.sequenceID, body } = 1 := rfl
    simp [load, Exchange.work, hnext, hw]
    omega

def Leaving (x : Exchange) : Prop :=
  x.reading → ∃ p ∈ x.toClient, isUnbind p

def patience (x : Exchange) : Nat :=
  3 * (if x.reading then x.toClient.findIdx isUnbind + 1 else 0) + 2 * x.toServer.length + x.jobs.length

theorem findIdx_append_of_exists {l l' : List PDU} (h : ∃ p ∈ l, isUnbind p) :
    (l ++ l').findIdx isUnbind = l.findIdx isUnbind := by
  rw [List.findIdx_append, if_pos (List.findIdx_lt_length_of_exists h)]

theorem Leaving.append {session : Session} {jobs : List SubmitSM} {toServer out : List PDU} (h : x.Leaving) :
    Leaving { x with session, jobs, toServer, toClient := x.toClient ++ out } ∧
      patience { x with session, jobs, toServer, toClient := x.toClient ++ out } =
        patience { x with jobs, toServer } := by
  cases hr : x.reading
  case false => exact ⟨nofun, by simp [patience]⟩
  case true =>
    obtain ⟨p, hp, hu⟩ := h hr
    refine ⟨fun _ => ⟨p, List.mem_append_left _ hp, hu⟩, ?_⟩
    simp only [patience]
    rw [findIdx_append_of_exists ⟨p, hp, hu⟩]

theorem Leaving.read (h : x.Leaving) (hreading : x.reading) (hnext : x.toClient = pdu :: rest) :
    (x.read pdu rest).Leaving ∧ (x.read pdu rest).patience < x.patience := by
  have hlen : ((readLoop pdu).flatMap ReadEffect.sent).length ≤ 1 := by
    have hr := readLoop_reacts pdu
    generalize List.flatMap ReadEffect.sent _ = out at hr
    cases hr <;> simp
  have hmem := unbound_mem_readLoop pdu
  simp only [patience, Exchange.read, List.length_append]
  generalize ((readLoop pdu).flatMap ReadEffect.sent).length = n at hlen ⊢
  cases hu : isUnbind pdu
  case true =>
    refine ⟨fun hr => ?_, ?_⟩
    case refine_1 => simp [hmem, hu] at hr
    case refine_2 =>
      simp [hmem, hu, hreading]
      omega
  case false =>
    obtain ⟨p, hp, hpu⟩ := h hreading
    have hp : p ∈ rest := by
      rcases List.mem_cons.mp (hnext ▸ hp) with rfl | hp
      case inl => exact absurd (hu.symm.trans hpu) Bool.false_ne_true
      case inr => exact hp
    refine ⟨fun _ => ⟨p, hp, hpu⟩, ?_⟩
    simp [hmem, hu, hreading, hnext, List.findIdx_cons]
    omega

theorem Leaving.step (h : x.Leaving) (hs : Step cfg x y) : y.Leaving ∧ y.patience < x.patience := by
  cases hs
  case serve pdu rest ask full hnext =>
    have hr := dispatch_reacts cfg x.session ask full pdu
    simp only [serve]
    generalize List.flatMap (Effect.sent full) _ = out at hr ⊢
    generalize List.flatMap (Effect.queued full) _ = jobs at hr ⊢
    have hlen : jobs.length ≤ 1 := by cases hr <;> simp
    refine ⟨h.append.1, h.append.2.trans_lt ?_⟩
    simp only [patience, hnext, List.length_append, List.length_cons]
    omega
  case read hreading hnext => exact h.read hreading hnext
  case work job before after status body hnext =>
    refine ⟨h.append.1, h.append.2.trans_lt ?_⟩
    simp only [patience, hnext, List.length_append, List.length_cons]
    omega

structure Echoing (x : Exchange) : Prop where
  reading : x.reading
  stays   : ∀ p ∈ x.toClient, ¬isUnbind p
  echo    : (∃ p ∈ x.toServer, ¬settlesAtServer p) ∨ ∃ p ∈ x.toClient, ¬settlesAtClient p

theorem Echoing.serve (h : x.Echoing) (ask : Answers) (full : Bool) (hnext : x.toServer = pdu :: rest) :
    (x.serve cfg ask full pdu rest).Echoing := by
  have hr := dispatch_reacts cfg x.session ask full pdu
  -- If the PDU settles, what echoes is further back or on its way to the client.
  have later (hs : settlesAtServer pdu) :
      (∃ p ∈ rest, ¬settlesAtServer p) ∨ ∃ p ∈ x.toClient, ¬settlesAtClient p := by
    refine h.echo.imp_left ?_
    rintro ⟨p, hp, hu⟩
    rcases List.mem_cons.mp (hnext ▸ hp) with rfl | hp
    case inl => exact absurd hs hu
    case inr => exact ⟨p, hp, hu⟩
  simp only [Exchange.serve]
  generalize List.flatMap (Effect.sent full) _ = out at hr ⊢
  generalize List.flatMap (Effect.queued full) _ = jobs at hr ⊢
  cases hr
  case silent hs => exact ⟨h.reading, by simpa using h.stays, by simpa using later hs⟩
  case queued msg hs _ => exact ⟨h.reading, by simpa using h.stays, by simpa using later hs⟩
  case answers resp hs _ _ hs' =>
    refine ⟨h.reading, List.forall_mem_append.mpr ⟨h.stays, by simpa using not_isUnbind_of_settles hs'⟩, ?_⟩
    exact (later hs).imp_right fun ⟨p, hp, hu⟩ => ⟨p, List.mem_append_left _ hp, hu⟩
  case echoes resp _ hu hstays =>
    refine ⟨h.reading, List.forall_mem_append.mpr ⟨h.stays, by simpa using hstays⟩, ?_⟩
    exact .inr ⟨resp, List.mem_append_right _ List.mem_cons_self, hu⟩

theorem Echoing.read (h : x.Echoing) (hnext : x.toClient = pdu :: rest) : (x.read pdu rest).Echoing := by
  have hr := readLoop_reacts pdu
  have hstays : ¬isUnbind pdu := h.stays pdu (hnext ▸ List.mem_cons_self)
  have hrest : ∀ p ∈ rest, ¬isUnbind p := fun p hp => h.stays p (hnext ▸ List.mem_cons_of_mem pdu hp)
  have hreading : (x.reading ∧ .unbound ∉ readLoop pdu) :=
    ⟨h.reading, fun hm => hstays ((unbound_mem_readLoop pdu).mp hm)⟩
  have later (hs : settlesAtClient pdu) :
      (∃ p ∈ x.toServer, ¬settlesAtServer p) ∨ ∃ p ∈ rest, ¬settlesAtClient p := by
    refine h.echo.imp_right ?_
    rintro ⟨p, hp, hu⟩
    rcases List.mem_cons.mp (hnext ▸ hp) with rfl | hp
    case inl => exact absurd hs hu
    case inr => exact ⟨p, hp, hu⟩
  refine ⟨decide_eq_true hreading, hrest, ?_⟩
  simp only [Exchange.read]
  generalize List.flatMap ReadEffect.sent _ = out at hr ⊢
  cases hr
  case silent hs => simpa using later hs
  case leaves hu => exact absurd hu hstays
  case answers resp hs _ _ _ =>
    exact (later hs).imp_left fun ⟨p, hp, hu⟩ => ⟨p, List.mem_append_left _ hp, hu⟩
  case echoes resp _ _ hu => exact .inl ⟨resp, List.mem_append_right _ List.mem_cons_self, hu⟩

theorem Echoing.step (h : x.Echoing) : ∃ y, Step cfg x y ∧ y.Echoing := by
  cases hserver : x.toServer
  case cons pdu rest => exact ⟨_, .serve {} false hserver, h.serve {} false hserver⟩
  case nil =>
    cases hclient : x.toClient
    case cons pdu rest => exact ⟨_, .read h.reading hclient, h.read hclient⟩
    case nil => exact absurd h.echo (by simp [hserver, hclient])

end Exchange

-- From given contents of the two channels no run goes on for ever exactly if the client will read an unbind, or
-- nothing on the way is answered with something that is answered again.
theorem exchange_ends_iff (cfg : SessionConfig) (session : Session) (jobs : List SubmitSM)
    (toServer toClient : List PDU) :
    ¬Endless (Exchange.Step cfg) { session, jobs, toServer, toClient } ↔
      (∃ p ∈ toClient, isUnbind p) ∨
      (∀ p ∈ toServer, settlesAtServer p) ∧ ∀ p ∈ toClient, settlesAtClient p := by
  constructor
  case mp =>
    intro h
    by_contra hc
    push Not at hc
    obtain ⟨hstays, hecho⟩ := hc
    apply h
    apply Endless.of_invariant (P := Exchange.Echoing) _ fun x hx => hx.step
    refine ⟨rfl, hstays, ?_⟩
    by_cases hserver : ∃ p ∈ toServer, ¬settlesAtServer p
    case pos => exact .inl hserver
    case neg =>
      push Not at hserver
      exact .inr (hecho hserver)
  case mpr =>
    rintro (hleaves | ⟨hserver, hclient⟩)
    case inl =>
      exact not_endless (P := Exchange.Leaving) Exchange.patience (fun _ => hleaves) fun _ _ h hs => h.step hs
    case inr =>
      exact not_endless (P := Exchange.Settling) Exchange.load ⟨hserver, hclient⟩ fun _ _ h hs => h.step hs

-- One generic_nack on its way to a new session is answered for ever.
theorem nack_exchange_endless :
    Endless (Exchange.Step { ownSystemID := lit "gw", windowSize := 16 })
      { toServer := [{ commandID := commandGenericNack, body := [] }], toClient := [] } := by
  apply Endless.of_invariant (P := Exchange.Echoing) _ fun x hx => hx.step
  exact ⟨rfl, nofun, .inl ⟨_, List.mem_cons_self, Bool.false_ne_true⟩⟩

end SmppGateway
