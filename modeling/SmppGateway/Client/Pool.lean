import Mathlib.Data.List.Rotate
import SmppGateway.Client.Encode
import SmppGateway.Client.Id

-- The way of a message upstream: `internal/smppclient/{pool,connection,window,errors}.go` and the rate
-- limit of `internal/provider/ratelimit.go`. Connections come and go on their own, so what one of them
-- looks like when it is read is given from outside, for each part of a message anew.

namespace SmppGateway.Client

open Go

inductive ContextError
  | canceled
  | deadlineExceeded
  deriving DecidableEq, Repr

inductive UpstreamError
  | rateLimited (cause : ContextError)
  | emptySubmit
  | noBoundConnection
  | notBound
  | windowFull
  | notReady
  | connectionClosed
  | submitStatus (status : UInt32)
  | timeout (duration : Duration)
  | context (cause : ContextError)
  | permanent (err : UpstreamError)
  deriving DecidableEq, Repr

def ContextError.text : ContextError → Str
  | canceled         => lit "context canceled"
  | deadlineExceeded => lit "context deadline exceeded"

def hex8 (n : UInt32) : Str :=
  (List.range 8).reverse.map fun i =>
    ((Nat.toDigits 16 (n.toNat / 16 ^ i % 16)).headD '0').toUInt8

namespace UpstreamError

def text (durationText : Duration → Str) : UpstreamError → Str
  | rateLimited cause   => lit "rate limited: " ++ cause.text
  | emptySubmit         => lit "empty smpp submit"
  | noBoundConnection   => lit "no bound smpp upstream connection"
  | notBound            => lit "smpp upstream not bound"
  | windowFull          => lit "smpp upstream window full"
  | notReady            => lit "smpp upstream connection not ready"
  | connectionClosed    => lit "smpp upstream connection closed"
  | submitStatus status => lit "submit_sm_resp status=0x" ++ hex8 status
  | timeout duration    => lit "smpp submit_sm_resp timeout after " ++ durationText duration
  | context cause       => cause.text
  | permanent err       => err.text durationText

def isPermanent : UpstreamError → Bool
  | permanent _ => true
  | _           => false

def smppStatus : UpstreamError → Option UInt32
  | submitStatus status => some status
  | permanent err       => err.smppStatus
  | _                   => none

end UpstreamError

inductive Reply
  | response (status : UInt32) (body : Bytes)
  | connectionClosed
  | timer
  | done (cause : ContextError)
  deriving DecidableEq, Repr

-- What a connection looks like at the moments at which `pick` and `submit` read it: its flag in either
-- of the two, the slots in use, and whether `send` can put a PDU into the out queue.
structure Connection where
  bound         : Bool := true
  boundInSubmit : Bool := true
  inFlight      : Nat := 0
  sends         : Bool := true
  reply         : Reply
  deriving DecidableEq, Repr

def permanentStatus (status : UInt32) : Bool :=
  status ∈ [0x0000000A, 0x0000000B, 0x00000003, 0x00000004]

def responseTimeout (cfg : SMPPClientConfig) : Duration :=
  if cfg.responseTimeoutMS ≤ 0 then 5 * 1000000000 else cfg.responseTimeoutMS * 1000000

def windowSlots (cfg : SMPPClientConfig) : Nat :=
  if cfg.windowSize ≤ 0 then 1 else cfg.windowSize.toNat

def readCString (body : Bytes) : Str :=
  body.takeWhile (· ≠ 0x00)

namespace Connection

variable (cfg : SMPPClientConfig) (c : Connection)

def answer : Except UpstreamError Str :=
  match c.reply with
  | .connectionClosed => .error .connectionClosed
  | .response status body =>
    if status ≠ 0 then
      .error (if permanentStatus status then .permanent (.submitStatus status) else .submitStatus status)
    else
      .ok (readCString body)
  | .timer =>
    let err := UpstreamError.timeout (responseTimeout cfg)
    .error (if cfg.retryOnTimeout then err else .permanent err)
  | .done cause => .error (.context cause)

def submit : Bool × Except UpstreamError Str :=
  if !c.boundInSubmit then
    (false, .error .notBound)
  else if windowSlots cfg ≤ c.inFlight then
    (false, .error .windowFull)
  else if !c.sends then
    (false, .error .notReady)
  else
    (true, c.answer cfg)

end Connection

-- The surroundings of one part: the counter of the pool, which others count on as well, and the
-- connections.
structure PartChance where
  next  : UInt64 := 0
  conns : List Connection
  deriving DecidableEq, Repr

def PartChance.pick (c : PartChance) : Option Connection :=
  (c.conns.rotate ((c.next + 1).toNat % c.conns.length)).find? (·.bound)

structure Sent where
  handed : List Bytes := []
  ids    : List Str := []
  err    : Option UpstreamError := none
  deriving DecidableEq, Repr

def sendParts (cfg : SMPPClientConfig) (chance : Nat → PartChance) : Nat → List Bytes → Sent
  | _, [] => {}
  | i, part :: parts =>
    match (chance i).pick with
    | none => { err := some .noBoundConnection }
    | some conn =>
      let (handed, res) := conn.submit cfg
      let sent : List Bytes := if handed then [part] else []
      match res with
      | .error err => { handed := sent, err := some err }
      | .ok id =>
        let rest := sendParts cfg chance (i + 1) parts
        { rest with
          handed := sent ++ rest.handed
          ids    := normalizeID id cfg.messageIDRespFormat :: rest.ids }

-- An SMPP provider as the registry holds it, with or without the rate limit around it.
structure Provider where
  cfg         : SMPPClientConfig
  rateLimited : Bool := false

-- The surroundings of one call: how the wait for a token ends where there is one, the draw of the
-- encoder, and what each part meets.
structure SendChance where
  wait     : Option ContextError := none
  isLetter : Char → Bool := fun _ => false
  ref      : UInt16 := 0
  part     : Nat → PartChance

def Pool.sendAll (cfg : SMPPClientConfig) (c : SendChance) (msg : Message) : Sent :=
  match buildSubmitSM c.isLetter c.ref msg cfg with
  | []    => { err := some .emptySubmit }
  | parts => sendParts cfg c.part 0 parts

def Provider.sendAll (p : Provider) (c : SendChance) (msg : Message) : Sent :=
  match p.rateLimited, c.wait with
  | true, some cause => { err := some (.rateLimited cause) }
  | _,    _          => Pool.sendAll p.cfg c msg

def PartChance.Ready (cfg : SMPPClientConfig) (c : PartChance) : Prop :=
  ∃ conn, c.pick = some conn ∧ conn.boundInSubmit = true ∧ conn.inFlight < windowSlots cfg ∧
    conn.sends = true

instance (cfg : SMPPClientConfig) (c : PartChance) : Decidable (c.Ready cfg) :=
  match h : c.pick with
  | none => .isFalse (by rintro ⟨_, hc, -⟩; cases h.symm.trans hc)
  | some conn =>
    decidable_of_iff (conn.boundInSubmit = true ∧ conn.inFlight < windowSlots cfg ∧ conn.sends = true)
      ⟨fun hc => ⟨conn, h, hc⟩, by rintro ⟨_, h', hc⟩; cases h.symm.trans h'; exact hc⟩

structure Provider.Ready (p : Provider) (c : SendChance) : Prop where
  token : p.rateLimited = true → c.wait = none
  first : (c.part 0).Ready p.cfg

variable {cfg : SMPPClientConfig} {chance : Nat → PartChance} {i : Nat} {p : Provider} {c : SendChance} {msg : Message}
  {id : Str}

theorem Connection.submit_handed (cfg : SMPPClientConfig) (c : Connection) :
    (c.submit cfg).1 = true ↔
      c.boundInSubmit = true ∧ c.inFlight < windowSlots cfg ∧ c.sends = true := by
  unfold submit
  rw [← Nat.not_le]
  by_cases hb : c.boundInSubmit <;> by_cases hw : windowSlots cfg ≤ c.inFlight <;>
    by_cases hs : c.sends <;> simp [hb, hw, hs]

theorem Connection.submit_not_handed {c : Connection} (h : (c.submit cfg).1 = false) :
    ∃ err, (c.submit cfg).2 = .error err ∧ err.isPermanent = false := by
  unfold submit at h ⊢
  split
  case isTrue => exact ⟨_, rfl, rfl⟩
  case isFalse hb =>
    split
    case isTrue => exact ⟨_, rfl, rfl⟩
    case isFalse hw =>
      split
      case isTrue => exact ⟨_, rfl, rfl⟩
      case isFalse hs => rw [if_neg hb, if_neg hw, if_neg hs] at h; cases h

theorem sendParts_ready (h : (chance i).Ready cfg) (part : Bytes) (parts : List Bytes) :
    (sendParts cfg chance i (part :: parts)).handed ≠ [] := by
  obtain ⟨conn, hp, hc⟩ := h
  have hh := (conn.submit_handed cfg).mpr hc
  simp only [sendParts, hp, hh, if_true]
  split <;> simp

theorem sendParts_not_ready (h : ¬(chance i).Ready cfg) (part : Bytes) (parts : List Bytes) :
    ∃ err, sendParts cfg chance i (part :: parts) = { err := some err } ∧ err.isPermanent = false := by
  unfold sendParts
  split
  case h_1 => exact ⟨_, rfl, rfl⟩
  case h_2 conn hp =>
    have hh : (conn.submit cfg).1 = false := by
      by_contra hne
      exact h ⟨conn, hp, (conn.submit_handed cfg).mp (by simpa using hne)⟩
    obtain ⟨err, he, hperm⟩ := Connection.submit_not_handed hh
    exact ⟨err, by simp [hh, he], hperm⟩

def Provider.Passes (p : Provider) (c : SendChance) : Prop :=
  p.rateLimited = true → c.wait = none

instance (p : Provider) (c : SendChance) : Decidable (p.Passes c) :=
  inferInstanceAs (Decidable (_ → _))

theorem Provider.sendAll_eq (p : Provider) (c : SendChance) (msg : Message) :
    p.sendAll c msg = if p.Passes c then
        sendParts p.cfg c.part 0 (buildSubmitSM c.isLetter c.ref msg p.cfg)
      else
        { err := c.wait.map .rateLimited } := by
  obtain ⟨part, parts, hb⟩ := List.exists_cons_of_ne_nil (buildSubmitSM_ne_nil c.isLetter c.ref msg p.cfg)
  by_cases hpasses : p.Passes c
  case pos =>
    rw [if_pos hpasses, sendAll]
    split
    case h_1 hr hw => cases hw.symm.trans (hpasses hr)
    case h_2 => rw [Pool.sendAll, hb]
  case neg =>
    obtain ⟨hr, hw⟩ := Classical.not_imp.mp hpasses
    obtain ⟨cause, hcause⟩ := Option.ne_none_iff_exists'.mp hw
    simp [sendAll, hr, hcause, hpasses]

-- A call that is ready hands something over. Any other fails, with an error that says nothing about it.
theorem Provider.sendAll_ready (h : p.Ready c) (msg : Message) : (p.sendAll c msg).handed ≠ [] := by
  obtain ⟨part, parts, hb⟩ := List.exists_cons_of_ne_nil (buildSubmitSM_ne_nil c.isLetter c.ref msg p.cfg)
  have hpasses : p.Passes c := h.token
  rw [sendAll_eq, if_pos hpasses, hb]
  exact sendParts_ready h.first part parts

theorem Provider.sendAll_not_ready (h : ¬p.Ready c) (msg : Message) :
    ∃ err, p.sendAll c msg = { err := some err } ∧ err.isPermanent = false := by
  obtain ⟨part, parts, hb⟩ := List.exists_cons_of_ne_nil (buildSubmitSM_ne_nil c.isLetter c.ref msg p.cfg)
  rw [sendAll_eq]
  by_cases hpasses : p.Passes c
  case pos =>
    rw [if_pos hpasses, hb]
    exact sendParts_not_ready (fun hfirst => h ⟨hpasses, hfirst⟩) part parts
  case neg =>
    obtain ⟨-, hw⟩ := Classical.not_imp.mp hpasses
    obtain ⟨cause, hcause⟩ := Option.ne_none_iff_exists'.mp hw
    exact ⟨.rateLimited cause, by rw [if_neg hpasses, hcause]; rfl, rfl⟩

-- The id, in its normal form, with which the upstream accepts a part in these surroundings.
def PartChance.accepted (cfg : SMPPClientConfig) (c : PartChance) : Option Str :=
  match c.pick with
  | none      => none
  | some conn =>
    if conn.boundInSubmit ∧ conn.inFlight < windowSlots cfg ∧ conn.sends then
      match conn.reply with
      | .response status body => if status = 0 then some (normalizeID (readCString body) cfg.messageIDRespFormat) else none
      | _                     => none
    else
      none

-- The id with which the upstream accepts part `i` of the message. No part follows one that was not accepted.
def Provider.accepted (p : Provider) (c : SendChance) (msg : Message) (i : Nat) : Option Str :=
  if p.Passes c ∧ i < (buildSubmitSM c.isLetter c.ref msg p.cfg).length ∧
      ∀ j < i, ((c.part j).accepted p.cfg).isSome then
    (c.part i).accepted p.cfg
  else
    none

theorem Connection.submit_eq_ok {c : Connection} {raw : Str} :
    (c.submit cfg).2 = .ok raw ↔ (c.boundInSubmit ∧ c.inFlight < windowSlots cfg ∧ c.sends) ∧
      ∃ body, c.reply = .response 0 body ∧ raw = readCString body := by
  have hanswer : c.answer cfg = .ok raw ↔ ∃ body, c.reply = .response 0 body ∧ raw = readCString body := by
    unfold answer
    cases c.reply
    case response status body =>
      by_cases h : status = 0
      case pos => simp [h, eq_comm]
      case neg => simp [h]
    all_goals simp
  have hhanded := c.submit_handed cfg
  rw [← hanswer, ← hhanded]
  unfold submit
  repeat' split
  all_goals simp

theorem PartChance.accepted_eq_some {c : PartChance} :
    c.accepted cfg = some id ↔ ∃ conn raw, c.pick = some conn ∧ (conn.submit cfg).2 = .ok raw ∧
      id = normalizeID raw cfg.messageIDRespFormat := by
  unfold accepted
  cases c.pick
  case none => simp
  case some conn =>
    simp only [Option.some.injEq, Connection.submit_eq_ok]
    split
    case isTrue hready =>
      cases hreply : conn.reply
      case response status body =>
        by_cases h : status = 0
        case pos => simp [h, hready, hreply, eq_comm]
        case neg => simp [h, hreply]
      all_goals simp [hreply]
    case isFalse hready =>
      refine iff_of_false (by simp) ?_
      rintro ⟨_, _, rfl, ⟨hready', -⟩, -⟩
      exact hready hready'

theorem sendParts_cons (cfg : SMPPClientConfig) (chance : Nat → PartChance) (i : Nat) (part : Bytes)
    (parts : List Bytes) :
    match (chance i).accepted cfg with
    | none    => (sendParts cfg chance i (part :: parts)).ids = [] ∧
        (sendParts cfg chance i (part :: parts)).err ≠ none
    | some id => (sendParts cfg chance i (part :: parts)).ids = id :: (sendParts cfg chance (i + 1) parts).ids ∧
        (sendParts cfg chance i (part :: parts)).err = (sendParts cfg chance (i + 1) parts).err := by
  cases h : (chance i).accepted cfg
  case some id =>
    obtain ⟨conn, raw, hp, hr, rfl⟩ := PartChance.accepted_eq_some.mp h
    simp [sendParts, hp, hr]
  case none =>
    cases hp : (chance i).pick
    case none => simp [sendParts, hp]
    case some conn =>
      cases hr : (conn.submit cfg).2
      case ok raw => cases h.symm.trans (PartChance.accepted_eq_some.mpr ⟨conn, raw, hp, hr, rfl⟩)
      case error => simp [sendParts, hp, hr]

theorem mem_sendParts_ids {parts : List Bytes} : id ∈ (sendParts cfg chance i parts).ids ↔ ∃ j < parts.length,
      (∀ k < j, ((chance (i + k)).accepted cfg).isSome) ∧ (chance (i + j)).accepted cfg = some id := by
  induction parts generalizing i
  case nil => simp [sendParts]
  case cons part parts hi =>
    have hturn := sendParts_cons cfg chance i part parts
    -- The first part stands for itself, the others for a call that starts one further on.
    rw [List.length_cons, Nat.exists_lt_succ_left]
    simp only [Nat.not_lt_zero, IsEmpty.forall_iff, implies_true, true_and, Nat.add_zero, Nat.forall_lt_succ_left]
    split at hturn
    case h_1 hnone => simp [hturn.1, hnone]
    case h_2 first hfirst =>
      rw [hturn.1, List.mem_cons, hi, hfirst, Option.some_inj, eq_comm]
      simp only [Option.isSome_some, true_and, Nat.add_right_comm, Nat.add_assoc]

theorem sendParts_err {parts : List Bytes} :
    (sendParts cfg chance i parts).err = none ↔ ∀ j < parts.length, ((chance (i + j)).accepted cfg).isSome := by
  induction parts generalizing i
  case nil => simp [sendParts]
  case cons part parts hi =>
    have hturn := sendParts_cons cfg chance i part parts
    rw [List.length_cons, Nat.forall_lt_succ_left]
    split at hturn
    case h_1 hnone => simp [hturn.2, hnone]
    case h_2 first hfirst =>
      rw [hturn.2, hi]
      simp only [Nat.add_zero, hfirst, Option.isSome_some, true_and, Nat.add_right_comm, Nat.add_assoc]

-- The ids that `SendAll` returns are those that the upstream gave out,
theorem Provider.mem_sendAll_ids : id ∈ (p.sendAll c msg).ids ↔ ∃ i, p.accepted c msg i = some id := by
  rw [sendAll_eq]
  by_cases hpasses : p.Passes c
  case pos => simp [accepted, hpasses, mem_sendParts_ids, Option.ite_none_right_eq_some, and_assoc]
  case neg => simp [accepted, hpasses]

-- and there is no error if it gave one to every part.
theorem Provider.sendAll_err :
    (p.sendAll c msg).err = none ↔
      ∀ i < (buildSubmitSM c.isLetter c.ref msg p.cfg).length, (p.accepted c msg i).isSome := by
  have hpos := List.length_pos_iff.mpr (buildSubmitSM_ne_nil c.isLetter c.ref msg p.cfg)
  rw [sendAll_eq]
  by_cases hpasses : p.Passes c
  case pos =>
    rw [if_pos hpasses, sendParts_err]
    simp only [accepted, hpasses, true_and, Nat.zero_add]
    constructor
    case mp =>
      intro h i hi
      rw [if_pos ⟨hi, fun j hj => h j (Nat.lt_trans hj hi)⟩]
      exact h i hi
    case mpr =>
      intro h i hi
      have hsome := h i hi
      split at hsome
      case isTrue => exact hsome
      case isFalse => cases hsome
  case neg =>
    obtain ⟨-, hwait⟩ := Classical.not_imp.mp hpasses
    rw [if_neg hpasses]
    refine iff_of_false (by simpa using hwait) fun h => ?_
    simpa [accepted, hpasses] using h 0 hpos

end SmppGateway.Client
