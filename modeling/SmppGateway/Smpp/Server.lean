import SmppGateway.Smpp.Session

-- The sessions of one SMPP server and the limit on the sessions of an account: `bindAllowed`, `register` and
-- `unregister` of `internal/smpp/server.go` beside the `handleBind` of every connection. The check takes the
-- server's lock, what follows it does not.

namespace SmppGateway

open Go Machine

inductive BindPlace
  | outside
  | storing (mode : BindMode) (systemID : Str)  -- the check has passed, the mode is stored next
  | naming (systemID : Str)                     -- the mode is stored, the system id is stored next
  deriving DecidableEq, Repr

structure Peer where
  session    : Session := {}
  place      : BindPlace := .outside
  registered : Bool := true

structure Server where
  peers : List Peer := []

structure ServerConfig where
  maxSessions            : Nat  -- 0: no limit
  maxSessionsPerSystemID : Nat  -- 0: no limit

inductive ServerEvent
  | register
  | check (i : Nat) (auth : Str → Str → Bool) (pdu : PDU)  -- `handleBind` up to the answer of `bindAllowed`
  | store (i : Nat)                                        -- its next store
  | unregister (i : Nat)                                   -- after the read loop has ended

def Peer.store (p : Peer) : Peer :=
  match p.place with
  | .outside               => p
  | .storing mode systemID => { p with session := { p.session with bindMode := mode }, place := .naming systemID }
  | .naming systemID       => { p with session := { p.session with systemID }, place := .outside }

namespace Server

variable (cfg : ServerConfig) (srv : Server)

def bindAllowed (candidate : Nat) (systemID : Str) : Bool :=
  cfg.maxSessionsPerSystemID = 0 ∨
  ((srv.peers.eraseIdx candidate).countP fun p => p.registered ∧ p.session.systemID = systemID) <
    cfg.maxSessionsPerSystemID

-- The system id for which a bind on connection `i` passes all checks of `handleBind`.
def admits (i : Nat) (auth : Str → Str → Bool) (pdu : PDU) : Option Str :=
  match srv.peers[i]?, readBind pdu.body with
  | some p, .ok (systemID, password) =>
    if p.registered ∧ p.place = .outside ∧ isBind pdu.commandID ∧
        p.session.bindStatus { auth, bindAllowed := srv.bindAllowed cfg i } systemID password = statusOK then
      some systemID
    else
      none
  | _, _ => none

def update (i : Nat) (f : Peer → Peer) : Server :=
  match srv.peers[i]? with
  | some p => { srv with peers := srv.peers.set i (f p) }
  | none   => srv

def step : ServerEvent → Server
  | .register         =>
    if cfg.maxSessions = 0 ∨ srv.peers.countP (·.registered) < cfg.maxSessions then
      { srv with peers := srv.peers ++ [{}] }
    else
      srv
  | .check i auth pdu =>
    match srv.admits cfg i auth pdu with
    | some systemID => srv.update i ({ · with place := .storing (bindModeOf pdu.commandID) systemID })
    | none          => srv
  | .store i          => srv.update i Peer.store
  | .unregister i     => srv.update i fun p => if p.place = .outside then { p with registered := false } else p

end Server

def BindPlace.target? : BindPlace → Option Str
  | .outside            => none
  | .storing _ systemID => some systemID
  | .naming systemID    => some systemID

namespace Peer

def boundAs (systemID : Str) (p : Peer) : Bool :=
  p.registered ∧ p.place = .outside ∧ p.session.bindMode ≠ .none ∧ p.session.systemID = systemID

def engagedAs (systemID : Str) (p : Peer) : Bool :=
  p.boundAs systemID ∨ p.registered ∧ p.place.target? = some systemID

structure WF (p : Peer) : Prop where
  storing : ∀ mode systemID, p.place = .storing mode systemID → mode ≠ .none
  naming  : ∀ systemID, p.place = .naming systemID → p.session.bindMode ≠ .none

theorem engagedAs_of_boundAs {p : Peer} {x : Str} (h : p.boundAs x) : p.engagedAs x := by
  simp [engagedAs, h]

theorem WF.store {p : Peer} (h : p.WF) : p.store.WF := by
  unfold Peer.store
  split
  case h_1 => exact h
  case h_2 mode systemID hp => exact ⟨nofun, fun _ _ => h.storing mode systemID hp⟩
  case h_3 => exact ⟨nofun, nofun⟩

theorem WF.engagedAs_store {p : Peer} (h : p.WF) (x : Str) : p.store.engagedAs x = p.engagedAs x := by
  unfold Peer.store
  split
  case h_1 => rfl
  case h_2 mode systemID hp => simp [engagedAs, boundAs, BindPlace.target?, hp]
  case h_3 systemID hp => simp [engagedAs, boundAs, BindPlace.target?, hp, h.naming systemID hp]

end Peer

namespace Server

def bound (srv : Server) (systemID : Str) : Nat :=
  srv.peers.countP (Peer.boundAs systemID)

def engaged (srv : Server) (systemID : Str) : Nat :=
  srv.peers.countP (Peer.engagedAs systemID)

variable {cfg : ServerConfig} {srv : Server} {i : Nat} {p : Peer} {f : Peer → Peer} {auth : Str → Str → Bool} {pdu : PDU}
  {x : Str}

theorem bound_le_engaged (srv : Server) (x : Str) : srv.bound x ≤ srv.engaged x :=
  List.countP_mono_left fun _ _ h => Peer.engagedAs_of_boundAs h

def WF (srv : Server) : Prop :=
  ∀ p ∈ srv.peers, p.WF

theorem WF.update (h : srv.WF) (hf : ∀ p, p.WF → (f p).WF) : (srv.update i f).WF := by
  unfold Server.update
  split
  case h_1 p hp =>
    intro q hq
    rcases mem_set_cases hq with rfl | ⟨j, _, hj⟩
    case inl => exact hf p (h p (List.mem_of_getElem? hp))
    case inr => exact h q (List.mem_of_getElem? hj)
  case h_2 => exact h

theorem bindModeOf_ne_none (commandID : UInt32) : bindModeOf commandID ≠ .none := by
  unfold bindModeOf
  split
  case isTrue => nofun
  case isFalse => split <;> nofun

theorem WF.step (cfg : ServerConfig) (h : srv.WF) (e : ServerEvent) : (srv.step cfg e).WF := by
  cases e
  case register =>
    simp only [Server.step]
    split
    case isTrue =>
      intro p hp
      rcases List.mem_append.mp hp with hp | hp
      case inl => exact h p hp
      case inr => exact List.mem_singleton.mp hp ▸ ⟨nofun, nofun⟩
    case isFalse => exact h
  case check i auth pdu =>
    simp only [Server.step]
    split
    case h_1 systemID _ =>
      apply h.update
      intro p _
      refine ⟨fun mode _ hp => ?_, nofun⟩
      cases hp
      exact bindModeOf_ne_none pdu.commandID
    case h_2 => exact h
  case store i => exact h.update fun _ => Peer.WF.store
  case unregister i =>
    apply h.update
    intro p hp
    split
    case isTrue => exact ⟨hp.storing, hp.naming⟩
    case isFalse => exact hp

theorem engaged_update (h : srv.peers[i]? = some p) (f : Peer → Peer) (x : Str) :
    (srv.update i f).engaged x + (if p.engagedAs x then 1 else 0) =
      srv.engaged x + (if (f p).engagedAs x then 1 else 0) := by
  simp only [update, h, engaged]
  exact countP_set _ h (f p)

theorem engaged_update_le (hf : ∀ p ∈ srv.peers, (f p).engagedAs x → p.engagedAs x) :
    (srv.update i f).engaged x ≤ srv.engaged x := by
  cases hi : srv.peers[i]?
  case none => simp only [update, hi, le_refl]
  case some p =>
    have hu := engaged_update hi f x
    have hp := hf p (List.mem_of_getElem? hi)
    split_ifs at hu <;> first | omega | simp_all

theorem engaged_update_of_eq (hf : ∀ p ∈ srv.peers, (f p).engagedAs x = p.engagedAs x) :
    (srv.update i f).engaged x = srv.engaged x := by
  cases hi : srv.peers[i]?
  case none => simp only [update, hi]
  case some p =>
    have hu := engaged_update hi f x
    rw [hf p (List.mem_of_getElem? hi)] at hu
    omega

theorem admits_eq_some {systemID : Str} (h : srv.admits cfg i auth pdu = some systemID) :
    ∃ p, srv.peers[i]? = some p ∧ p.registered ∧ p.place = .outside ∧ p.session.bindMode = .none ∧
      srv.bindAllowed cfg i systemID := by
  unfold admits at h
  split at h
  case h_1 p systemID' password hp hread =>
    split at h
    case isTrue hc =>
      cases h
      obtain ⟨hr, ho, _, hstatus⟩ := hc
      obtain ⟨hm, _, ha⟩ := Session.bindStatus_eq_ok.mp hstatus
      exact ⟨p, hp, hr, ho, hm, ha⟩
    case isFalse => cases h
  case h_2 => cases h

theorem engaged_check {systemID : Str} (h : srv.admits cfg i auth pdu = some systemID) (x : Str) :
    (srv.step cfg (.check i auth pdu)).engaged x = srv.engaged x + if x = systemID then 1 else 0 := by
  obtain ⟨p, hp, hr, ho, hm, _⟩ := admits_eq_some h
  have hu := engaged_update hp ({ · with place := .storing (bindModeOf pdu.commandID) systemID }) x
  simp only [Server.step, h]
  rw [if_neg (by simp [Peer.engagedAs, Peer.boundAs, BindPlace.target?, ho, hm])] at hu
  rw [Nat.add_zero] at hu
  rw [hu]
  simp [Peer.engagedAs, Peer.boundAs, BindPlace.target?, hr, eq_comm]

theorem engaged_store (h : srv.WF) (i : Nat) (x : Str) : (srv.step cfg (.store i)).engaged x = srv.engaged x :=
  engaged_update_of_eq fun p hp => (h p hp).engagedAs_store x

theorem engaged_register (x : Str) : (srv.step cfg .register).engaged x = srv.engaged x := by
  simp only [Server.step]
  split
  case isTrue => simp [engaged, Peer.engagedAs, Peer.boundAs, BindPlace.target?]
  case isFalse => rfl

theorem engaged_unregister (i : Nat) (x : Str) : (srv.step cfg (.unregister i)).engaged x ≤ srv.engaged x := by
  apply engaged_update_le
  intro p _ h
  split at h
  case isTrue => simp [Peer.engagedAs, Peer.boundAs] at h
  case isFalse => exact h

theorem getElem?_update (h : srv.peers[i]? = some p) (f : Peer → Peer) : (srv.update i f).peers[i]? = some (f p) := by
  simp only [update, h]
  exact List.getElem?_set_self (List.getElem?_eq_some_iff.mp h).1

theorem handleBind_uninterrupted (scfg : SessionConfig) (hi : srv.peers[i]? = some p) (hr : p.registered)
    (ho : p.place = .outside) (hb : isBind pdu.commandID) :
    (run (step cfg) srv [.check i auth pdu, .store i, .store i]).peers[i]? = some { p with
      session := (p.session.handleBind scfg { auth, bindAllowed := srv.bindAllowed cfg i } pdu).1 } := by
  have finish {srv' : Server} {p' : Peer} (h : srv'.peers[i]? = some p') :
      (run (step cfg) srv' [.store i, .store i]).peers[i]? = some p'.store.store :=
    getElem?_update (getElem?_update h Peer.store) Peer.store
  have hstore : p.store = p := by simp only [Peer.store, ho]
  rw [run_cons]
  unfold Session.handleBind
  cases hread : readBind pdu.body
  case error status =>
    have ha : srv.admits cfg i auth pdu = none := by simp only [admits, hi, hread]
    simp only [Server.step, ha]
    rw [finish hi, hstore, hstore]
  case ok r =>
    by_cases hs : p.session.bindStatus { auth, bindAllowed := srv.bindAllowed cfg i } r.1 r.2 = statusOK
    case pos =>
      have ha : srv.admits cfg i auth pdu = some r.1 := by simp [admits, hi, hread, hr, ho, hb, hs]
      simp only [Server.step, ha, hs, if_pos]
      rw [finish (getElem?_update hi _)]
      simp only [Peer.store, ho]
    case neg =>
      have ha : srv.admits cfg i auth pdu = none := by simp [admits, hi, hread, hs]
      simp only [Server.step, ha, hs, if_false]
      rw [finish hi, hstore, hstore]

def Limited (cfg : ServerConfig) (srv : Server) : Prop :=
  ∀ systemID, srv.bound systemID ≤ cfg.maxSessionsPerSystemID

def Safe (cfg : ServerConfig) (srv : Server) : Prop :=
  ∀ order : List Nat, (run (step cfg) srv (order.map .store)).Limited cfg

-- A check passes only if there is room for the session beside those that are bound and those that are binding.
def Room (cfg : ServerConfig) (srv : Server) : ServerEvent → Prop
  | .check i auth pdu => ∀ systemID, srv.admits cfg i auth pdu = some systemID →
      srv.engaged systemID < cfg.maxSessionsPerSystemID
  | _                 => True

theorem engaged_stores (h : srv.WF) (order : List Nat) :
    (run (step cfg) srv (order.map .store)).WF ∧
      ∀ x, (run (step cfg) srv (order.map .store)).engaged x = srv.engaged x := by
  induction order generalizing srv
  case nil => exact ⟨h, fun _ => rfl⟩
  case cons i order hi =>
    obtain ⟨hw, he⟩ := hi (h.step cfg (.store i))
    exact ⟨hw, fun x => (he x).trans (engaged_store h i x)⟩

def BindPlace.stores : BindPlace → Nat
  | .outside     => 0
  | .storing _ _ => 2
  | .naming _    => 1

theorem stores_store (h : p.place ≠ .outside) : BindPlace.stores p.store.place < BindPlace.stores p.place := by
  unfold Peer.store
  split
  case h_1 ho => exact absurd ho h
  case h_2 mode systemID hp => simp [hp, BindPlace.stores]
  case h_3 systemID hp => simp [hp, BindPlace.stores]

theorem exists_finish (cfg : ServerConfig) (srv : Server) :
    ∃ order : List Nat, ∀ p ∈ (run (step cfg) srv (order.map .store)).peers, p.place = .outside := by
  induction hn : (srv.peers.map (BindPlace.stores ·.place)).sum using Nat.strong_induction_on generalizing srv
  case _ n ih =>
    by_cases hall : ∀ p ∈ srv.peers, p.place = .outside
    case pos => exact ⟨[], hall⟩
    case neg =>
      push Not at hall
      obtain ⟨p, hp, ho⟩ := hall
      obtain ⟨i, hi⟩ := List.mem_iff_getElem?.mp hp
      have hstep : (srv.step cfg (.store i)).peers = srv.peers.set i p.store := by
        simp only [Server.step, update, hi]
      have hlt : ((srv.step cfg (.store i)).peers.map (BindPlace.stores ·.place)).sum < n := by
        rw [hstep, ← hn, ((set_perm_cons_eraseIdx hi p.store).map _).sum_nat, ((perm_cons_eraseIdx hi).map _).sum_nat,
          List.map_cons, List.map_cons, List.sum_cons, List.sum_cons]
        have := stores_store ho
        omega
      obtain ⟨order, h⟩ := ih _ hlt _ rfl
      exact ⟨i :: order, h⟩

theorem bound_eq_engaged (h : ∀ p ∈ srv.peers, p.place = .outside) (x : Str) : srv.bound x = srv.engaged x := by
  apply List.countP_congr
  intro p hp
  simp [Peer.engagedAs, h p hp, BindPlace.target?]

theorem safe_iff (h : srv.WF) : srv.Safe cfg ↔ ∀ x, srv.engaged x ≤ cfg.maxSessionsPerSystemID := by
  constructor
  case mp =>
    intro hs x
    obtain ⟨order, ho⟩ := exists_finish cfg srv
    rw [← (engaged_stores h order).2 x, ← bound_eq_engaged ho]
    exact hs order x
  case mpr =>
    intro he order x
    exact (bound_le_engaged _ x).trans (((engaged_stores h order).2 x).le.trans (he x))

theorem engaged_le_step_iff (hw : srv.WF) (he : ∀ x, srv.engaged x ≤ cfg.maxSessionsPerSystemID) (e : ServerEvent) :
    srv.Room cfg e ↔ ∀ x, (srv.step cfg e).engaged x ≤ cfg.maxSessionsPerSystemID := by
  cases e
  case register => exact ⟨fun _ x => (engaged_register x).le.trans (he x), fun _ => trivial⟩
  case store i => exact ⟨fun _ x => (engaged_store hw i x).le.trans (he x), fun _ => trivial⟩
  case unregister i => exact ⟨fun _ x => (engaged_unregister i x).trans (he x), fun _ => trivial⟩
  case check i auth pdu =>
    cases ha : srv.admits cfg i auth pdu
    case none =>
      have hs : srv.step cfg (.check i auth pdu) = srv := by simp only [Server.step, ha]
      rw [hs]
      exact ⟨fun _ => he, fun _ _ h => nomatch ha.symm.trans h⟩
    case some systemID =>
      constructor
      case mp =>
        intro hroom x
        rw [engaged_check ha x]
        split
        case isTrue h => exact h ▸ hroom systemID ha
        case isFalse => exact he x
      case mpr =>
        intro h systemID' ha'
        cases ha.symm.trans ha'
        have := h systemID
        rw [engaged_check ha systemID, if_pos rfl] at this
        exact this

end Server

-- The limit is kept, however the binds under way are finished, exactly if every check that passes leaves room for
-- the sessions that have passed theirs and are not counted yet.
theorem session_limit_iff (cfg : ServerConfig) (es : List ServerEvent) :
    (Always (Server.step cfg) (Server.Safe cfg) {} es ↔ Along (Server.step cfg) (Server.Room cfg) {} es) ∧
    (Along (Server.step cfg) (Server.Room cfg) {} es → Always (Server.step cfg) (Server.Limited cfg) {} es) := by
  have hw : (Server.mk []).WF := fun _ h => nomatch h
  have hiff : Always (Server.step cfg) (Server.Safe cfg) {} es ↔
      Along (Server.step cfg) (Server.Room cfg) {} es := by
    apply Always.iff_along (I := Server.WF) (A := fun _ => True) hw
    case hp => exact (Server.safe_iff hw).mpr fun _ => Nat.zero_le _
    case ha => exact fun _ _ => trivial
    case hinv => exact fun _ e h _ => h.step cfg e
    case hstep =>
      intro srv e h _ hsafe
      rw [Server.engaged_le_step_iff h ((Server.safe_iff h).mp hsafe), Server.safe_iff (h.step cfg e)]
  exact ⟨hiff, fun h pre hpre => hiff.mpr h pre hpre []⟩

-- Two connections that bind one after the other under a limit of one: both checks come before either store.
theorem two_sessions_over_limit :
    let cfg : ServerConfig := { maxSessions := 128, maxSessionsPerSystemID := 1 }
    let bind : PDU := {
      commandID := commandBindTransceiver, sequenceID := 1, body := bindBody (lit "esme") (lit "pw") }
    let srv := run (Server.step cfg) {} [.register, .register, .check 0 (fun _ _ => true) bind,
      .check 1 (fun _ _ => true) bind, .store 0, .store 0, .store 1, .store 1]
    srv.bound (lit "esme") = 2 := by
  decide +kernel

end SmppGateway
