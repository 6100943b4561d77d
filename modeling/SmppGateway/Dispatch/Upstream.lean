import SmppGateway.Client.Pool
import SmppGateway.Dispatch.Submit
import SmppGateway.Dispatch.Worker
import SmppGateway.Lib.Machine

-- `processOutbox` over a row whose provider is an SMPP provider: what the dispatcher makes of the ways in
-- which a call can end.

namespace SmppGateway

open Go Machine

def Client.Sent.outcome (durationText : Duration → Str) (sent : Client.Sent) : Except SendError (List Str) :=
  match sent.err with
  | none     => .ok sent.ids
  | some err =>
    .error { text := err.text durationText, permanent := err.isPermanent, smppStatus := err.smppStatus }

inductive Turn
  | resolve (found : Bool)
  | mark (fault : Fault) (cancelled : Bool)
  | send (now : Time) (chance : Client.SendChance)
  | complete (now : Time) (fault : Fault) (cancelled : Bool)
  | doubt (now : Time) (fault : Fault) (cancelled : Bool)
  | fail (now : Time) (jitter : Nat) (faults : FailFaults)

structure Sending where
  thread : Thread
  store  : MemoryStore
  sent   : List Client.Sent := []

structure SmppRoute where
  dispatcher   : Dispatcher
  provider     : Client.Provider
  durationText : Duration → Str

namespace Sending

variable (r : SmppRoute)

def move (x : Sending) : Turn → Move
  | .resolve found               => .resolve found
  | .mark fault cancelled         => .mark fault cancelled
  | .send now chance              =>
    .send now ((r.provider.sendAll chance x.thread.item.payload.outbound).outcome r.durationText)
  | .complete now fault cancelled => .complete now fault cancelled
  | .doubt now fault cancelled    => .doubt now fault cancelled
  | .fail now jitter faults       => .fail now jitter faults

def called (x : Sending) : Turn → List Client.Sent
  | .send _ chance => match x.thread.phase with
    | .sending => [r.provider.sendAll chance x.thread.item.payload.outbound]
    | _        => []
  | _ => []

def step (x : Sending) (t : Turn) : Sending :=
  let (thread, store) := x.thread.step r.dispatcher x.store (x.move r t)
  { thread, store, sent := x.sent ++ x.called r t }

def handed (x : Sending) : List Bytes :=
  x.sent.flatMap (·.handed)

def CallsReady (x : Sending) : Turn → Prop
  | .send _ chance => x.thread.phase = .sending → r.provider.Ready chance
  | _              => True

end Sending

def OutboxItem.Retryable (row : OutboxItem) : Prop :=
  row.state = .pending ∨ (row.state = .failed ∧ row.maxAttempts ≤ row.attempt)

-- The row is given up as ambiguous only when something was handed over, and a call that handed over
-- nothing leaves it retryable.
structure Sending.Faithful (x : Sending) : Prop where
  uncertain : ∀ row, x.store.outbox.lookup x.thread.item.id = some row → row.state = .uncertain →
    x.handed ≠ []
  retryable : x.sent ≠ [] → x.handed = [] →
    ∀ row, x.store.outbox.lookup x.thread.item.id = some row → row.Retryable

def MemoryStore.stateOf (s : MemoryStore) (id : Int) : Option OutboxState :=
  (s.outbox.lookup id).map (·.state)

namespace MemoryStore

variable {s : MemoryStore} {id : Int}

theorem stateOf_eq_some {state : OutboxState} :
    s.stateOf id = some state ↔ ∃ row, s.outbox.lookup id = some row ∧ row.state = state :=
  Option.map_eq_some_iff

theorem markOutboxSending_stateOf (workerID : Str)
    (h : s.stateOf id = some .claimed ∨ s.stateOf id = some .sending) :
    let r := s.markOutboxSending id workerID
    (r.2.stateOf id = some .claimed ∨ r.2.stateOf id = some .sending) ∧
    (r.1 = .ok () → r.2.stateOf id = some .sending) := by
  unfold markOutboxSending
  split
  case h_1 => exact ⟨h, nofun⟩
  case h_2 item hl =>
    split
    case isTrue hs => exact ⟨h, fun _ => stateOf_eq_some.mpr ⟨item, hl, hs.1⟩⟩
    case isFalse =>
      split
      case isTrue => exact ⟨h, nofun⟩
      case isFalse => simp [stateOf]

theorem markOutboxUncertain_stateOf (now : Time) (workerID errMsg : Str)
    (h : s.stateOf id = some .sending ∨ s.stateOf id = some .uncertain) :
    let r := s.markOutboxUncertain now id workerID errMsg
    r.2.stateOf id = some .sending ∨ r.2.stateOf id = some .uncertain := by
  unfold markOutboxUncertain
  split
  case h_1 => exact h
  case h_2 item hl =>
    split
    case isTrue => exact h
    case isFalse =>
      split
      case isTrue => exact h
      case isFalse => simp [stateOf, modifyMessage_outbox]

theorem failOutbox_stateOf {errMsg : Str} {next : Time} (h : s.stateOf id ≠ some .uncertain) :
    (s.failOutbox id errMsg next).2.stateOf id ≠ some .uncertain := by
  unfold failOutbox
  split
  case h_1 => exact h
  case h_2 item hl =>
    repeat' split
    all_goals first
      | exact h
      | simp [stateOf]

end MemoryStore

namespace Sending

inductive Stage : Phase → List Client.Sent → Option OutboxState → Prop
  | before {phase state} :
      (phase = .start ∨ ∃ n, phase = .marking n) → (state = some .claimed ∨ state = some .sending) →
      Stage phase [] state
  | sending : Stage .sending [] (some .sending)
  -- The provider was not found.
  | unsent {err state} : state ≠ some .uncertain → Stage (.failing err) [] state
  | given {state} : state ≠ some .uncertain → Stage .done [] state
  | handed {phase sent state} : sent.handed ≠ [] → ¬phase.PreCall → Stage phase [sent] state
  | kept {phase sent state} :
      sent.handed = [] → (phase = .done ∨ ∃ n reason, phase = .doubting n reason) →
      (state = some .sending ∨ state = some .uncertain) → Stage phase [sent] state

def At (x : Sending) : Prop :=
  Stage x.thread.phase x.sent (x.store.stateOf x.thread.item.id)

variable {r : SmppRoute} {x : Sending}

theorem sendAll_cases (p : Client.Provider) (c : Client.SendChance) (msg : Client.Message) :
    (p.Ready c ∧ (p.sendAll c msg).handed ≠ []) ∨
    (¬p.Ready c ∧ ∃ err, p.sendAll c msg = { err := some err } ∧ err.isPermanent = false) := by
  by_cases h : p.Ready c
  case pos => exact .inl ⟨h, Client.Provider.sendAll_ready h msg⟩
  case neg => exact .inr ⟨h, Client.Provider.sendAll_not_ready h msg⟩

def Fits : Phase → Turn → Prop
  | .start,         .resolve _      => True
  | .marking _,     .mark _ _       => True
  | .sending,       .send _ _       => True
  | .completing .., .complete _ _ _ => True
  | .doubting ..,   .doubt _ _ _    => True
  | .failing _,     .fail _ _ _     => True
  | _,              _               => False

theorem step_of_not_fits {t : Turn} (h : ¬Fits x.thread.phase t) : x.step r t = x := by
  obtain ⟨⟨item, phase⟩, s, sent⟩ := x
  cases t <;> cases phase <;> first
    | exact (h trivial).elim
    | simp [step, move, called, Thread.step]

theorem Stage.ne_uncertain {state : Option OutboxState}
    (h : state = some .claimed ∨ state = some .sending) : state ≠ some .uncertain := by
  rcases h with rfl | rfl <;> nofun

section Step

variable {item : OutboxItem} {s : MemoryStore} {sent : List Client.Sent} {n : Nat}

theorem at_resolve (found : Bool) (h : At { thread := { item, phase := .start }, store := s, sent }) :
    (step r { thread := { item, phase := .start }, store := s, sent } (.resolve found)).At := by
  unfold At at h ⊢
  generalize hst : s.stateOf item.id = state at h
  cases h
  case handed hp => exact (hp trivial).elim
  case kept hp _ => rcases hp with hp | ⟨_, _, hp⟩ <;> cases hp
  case before _ hs =>
    simp only [step, move, called, Thread.step, List.append_nil]
    split
    case isTrue => exact .before (.inr ⟨0, rfl⟩) (by simpa [Thread.become, hst] using hs)
    case isFalse => exact .unsent (by simpa [Thread.become, hst] using Stage.ne_uncertain hs)

theorem at_mark (fault : Fault) (cancelled : Bool)
    (h : At { thread := { item, phase := .marking n }, store := s, sent }) :
    (step r { thread := { item, phase := .marking n }, store := s, sent } (.mark fault cancelled)).At := by
  unfold At at h ⊢
  generalize hst : s.stateOf item.id = state at h
  cases h
  case handed hp => exact (hp trivial).elim
  case kept hp _ => rcases hp with hp | ⟨_, _, hp⟩ <;> cases hp
  case before _ hs =>
    rw [← hst] at hs
    obtain ⟨hkeep, hok⟩ := MemoryStore.markOutboxSending_stateOf item.claimedBy hs
    simp only [step, move, called, Thread.step, List.append_nil]
    have hstore := fault.apply_store s (s.markOutboxSending item.id item.claimedBy)
    cases hr : fault.apply s (s.markOutboxSending item.id item.claimedBy) with
    | mk res s' =>
      rw [hr] at hstore
      have hs' : s'.stateOf item.id = some .claimed ∨ s'.stateOf item.id = some .sending := by
        rcases hstore with rfl | rfl
        case inl => exact hs
        case inr => exact hkeep
      cases res
      case ok =>
        obtain ⟨hm, rfl⟩ := Fault.apply_ok hr
        simp only [Thread.become]
        rw [hok hm]
        exact .sending
      case error e =>
        simp only [Thread.become]
        split
        case isTrue => exact .before (.inr ⟨n + 1, rfl⟩) hs'
        case isFalse => exact .given (Stage.ne_uncertain hs')

theorem at_send (now : Time) (chance : Client.SendChance)
    (h : At { thread := { item, phase := .sending }, store := s, sent }) :
    (step r { thread := { item, phase := .sending }, store := s, sent } (.send now chance)).At := by
  unfold At at h ⊢
  generalize hst : s.stateOf item.id = state at h
  cases h
  case before hp _ => rcases hp with hp | ⟨_, hp⟩ <;> cases hp
  case handed hp => exact (hp trivial).elim
  case kept hp _ => rcases hp with hp | ⟨_, _, hp⟩ <;> cases hp
  case sending =>
    simp only [step, move, called, List.nil_append]
    rcases sendAll_cases r.provider chance item.payload.outbound with ⟨-, hh⟩ | ⟨-, err, he, hperm⟩
    case inl =>
      refine .handed hh ?_
      simp only [Thread.step]
      split
      case h_1 => exact id
      case h_2 e _ => cases hp : e.permanent <;> simp [Thread.become, Phase.PreCall]
    case inr =>
      rw [he]
      simp only [Thread.step, Client.Sent.outcome, hperm, Thread.become]
      exact .kept rfl (.inr ⟨0, _, rfl⟩) (.inl hst)

theorem at_complete {pending : List Pending} (now : Time) (fault : Fault) (cancelled : Bool)
    (h : At { thread := { item, phase := .completing n pending }, store := s, sent }) :
    (step r { thread := { item, phase := .completing n pending }, store := s, sent }
      (.complete now fault cancelled)).At := by
  unfold At at h ⊢
  generalize hst : s.stateOf item.id = state at h
  cases h
  case before hp _ => rcases hp with hp | ⟨_, hp⟩ <;> cases hp
  case kept hp _ => rcases hp with hp | ⟨_, _, hp⟩ <;> cases hp
  case handed hh _ =>
    simp only [step, move, called, List.append_nil, Thread.step]
    refine .handed hh ?_
    split
    case h_1 => exact id
    case h_2 => simp only [Thread.become]; split <;> exact id

theorem at_doubt {reason : Str} (now : Time) (fault : Fault) (cancelled : Bool)
    (h : At { thread := { item, phase := .doubting n reason }, store := s, sent }) :
    (step r { thread := { item, phase := .doubting n reason }, store := s, sent }
      (.doubt now fault cancelled)).At := by
  unfold At at h ⊢
  generalize hst : s.stateOf item.id = state at h
  cases h
  case before hp _ => rcases hp with hp | ⟨_, hp⟩ <;> cases hp
  case handed hh _ =>
    simp only [step, move, called, List.append_nil, Thread.step]
    refine .handed hh ?_
    split
    case h_1 => exact id
    case h_2 => simp only [Thread.become]; split <;> exact id
  case kept hn _ hs =>
    rw [← hst] at hs
    have hkeep := MemoryStore.markOutboxUncertain_stateOf now item.claimedBy reason hs
    have hstore := fault.apply_store s (s.markOutboxUncertain now item.id item.claimedBy reason)
    simp only [step, move, called, List.append_nil, Thread.step]
    generalize fault.apply s _ = res at hstore ⊢
    have hs' : res.2.stateOf item.id = some .sending ∨ res.2.stateOf item.id = some .uncertain := by
      rcases hstore with h | h <;> rw [h]
      case inl => exact hs
      case inr => exact hkeep
    obtain ⟨_ | _, s'⟩ := res
    case ok => exact .kept hn (.inl rfl) hs'
    case error =>
      refine .kept hn ?_ hs'
      simp only [Thread.become]
      split
      case isTrue => exact .inr ⟨n + 1, reason, rfl⟩
      case isFalse => exact .inl rfl

theorem at_fail {err : SendError} (now : Time) (jitter : Nat) (faults : FailFaults)
    (h : At { thread := { item, phase := .failing err }, store := s, sent }) :
    (step r { thread := { item, phase := .failing err }, store := s, sent } (.fail now jitter faults)).At := by
  unfold At at h ⊢
  generalize hst : s.stateOf item.id = state at h
  simp only [step, move, called, List.append_nil, Thread.step]
  cases h
  case before hp _ => rcases hp with hp | ⟨_, hp⟩ <;> cases hp
  case kept hp _ => rcases hp with hp | ⟨_, _, hp⟩ <;> cases hp
  case handed hh _ => exact .handed hh id
  case unsent hs =>
    rw [← hst] at hs
    refine .given ?_
    simp only [Thread.become, MemoryStore.stateOf, r.dispatcher.failOutbox_outbox]
    split
    case isTrue => exact hs
    case isFalse => exact MemoryStore.failOutbox_stateOf hs

end Step

theorem step_at (h : x.At) (t : Turn) : (x.step r t).At := by
  by_cases hf : Fits x.thread.phase t
  case neg => rwa [step_of_not_fits hf]
  case pos =>
    obtain ⟨⟨item, phase⟩, s, sent⟩ := x
    cases t <;> cases phase <;> first
      | exact hf.elim
      | skip
    case resolve.start found => exact at_resolve found h
    case mark.marking fault cancelled n => exact at_mark fault cancelled h
    case send.sending now chance => exact at_send now chance h
    case complete.completing now fault cancelled n pending => exact at_complete now fault cancelled h
    case doubt.doubting now fault cancelled n reason => exact at_doubt now fault cancelled h
    case fail.failing now jitter faults err => exact at_fail now jitter faults h

theorem run_at (h : x.At) (turns : List Turn) : (run (step r) x turns).At :=
  invariant h (.of_forall (G := fun _ _ => True) fun _ _ _ => trivial) fun _ t hx _ => step_at hx t

theorem step_item (t : Turn) : (x.step r t).thread.item = x.thread.item :=
  Thread.step_item

def Productive (x : Sending) : Prop :=
  ∀ sent ∈ x.sent, sent.handed ≠ []

theorem step_productive_iff (t : Turn) :
    (x.step r t).Productive ↔ x.Productive ∧ x.CallsReady r t := by
  have hcalled : (∀ sent ∈ x.called r t, sent.handed ≠ []) ↔ x.CallsReady r t := by
    cases t
    case send now chance =>
      simp only [called, CallsReady]
      split
      case h_1 hp =>
        rcases sendAll_cases r.provider chance x.thread.item.payload.outbound with ⟨hr, hh⟩ | ⟨hr, err, he, -⟩
        case inl => simp [hp, hr, hh]
        case inr => simp [hp, hr, he]
      case h_2 hp => simpa using fun h => (hp h).elim
    all_goals simp [called, CallsReady]
  rw [← hcalled]
  simp only [Productive, step, List.mem_append, or_imp, forall_and]

theorem run_productive_iff (turns : List Turn) :
    (run (step r) x turns).Productive ↔ x.Productive ∧ Along (step r) (CallsReady r) x turns := by
  induction turns generalizing x
  case nil => simp [Along]
  case cons t turns hi => rw [run_cons, hi, step_productive_iff, Along, and_assoc]

theorem At.faithful_iff (h : x.At) (hdone : x.thread.phase = .done) : x.Faithful ↔ x.Productive := by
  obtain ⟨⟨item, phase⟩, s, sent⟩ := x
  cases hdone
  unfold At at h
  generalize hst : s.stateOf item.id = state at h
  cases h
  case before hp _ => rcases hp with hp | ⟨_, hp⟩ <;> cases hp
  case given hs =>
    refine iff_of_true ⟨fun row hr hu => ?_, fun h => (h rfl).elim⟩ nofun
    exact absurd (MemoryStore.stateOf_eq_some.mpr ⟨row, hr, hu⟩) (hst ▸ hs)
  case handed sent hh _ =>
    refine iff_of_true ⟨fun _ _ _ => ?_, fun _ hn => ?_⟩ ?_
    case refine_1 => simpa [handed] using hh
    case refine_2 => exact absurd hn (by simpa [handed] using hh)
    case refine_3 => simpa [Productive] using hh
  case kept sent hn _ hs =>
    refine iff_of_false (fun hf => ?_) (by simp [Productive, hn])
    have hst' : ∃ row, s.outbox.lookup item.id = some row ∧ (row.state = .sending ∨ row.state = .uncertain) := by
      rcases hs with rfl | rfl <;> obtain ⟨row, hr, hstate⟩ := MemoryStore.stateOf_eq_some.mp hst
      case inl => exact ⟨row, hr, .inl hstate⟩
      case inr => exact ⟨row, hr, .inr hstate⟩
    obtain ⟨row, hr, hstate⟩ := hst'
    have hretry := hf.retryable (by simp) (by simp [handed, hn]) row hr
    rcases hretry with hp | ⟨hp, -⟩ <;> rcases hstate with hq | hq <;> cases hp.symm.trans hq

end Sending

-- A finished run over a claimed row is faithful exactly when every call it made met a provider that
-- took its first part.
theorem uncertain_only_if_handed_iff (r : SmppRoute) {s : MemoryStore} {item : OutboxItem}
    (hrow : s.outbox.lookup item.id = some item) (hclaimed : item.state = .claimed) (turns : List Turn)
    (hdone : (run (Sending.step r) { thread := { item }, store := s } turns).thread.phase = .done) :
    (run (Sending.step r) { thread := { item }, store := s } turns).Faithful ↔
      Along (Sending.step r) (Sending.CallsReady r) { thread := { item }, store := s } turns := by
  have hstart : Sending.At { thread := { item }, store := s } :=
    .before (.inl rfl) (.inl (MemoryStore.stateOf_eq_some.mpr ⟨item, hrow, hclaimed⟩))
  rw [(Sending.run_at hstart turns).faithful_iff hdone, Sending.run_productive_iff]
  simp [Sending.Productive]

def claimedRow : OutboxItem where
  id          := 1
  gatewayID   := lit "m0000001"
  provider    := lit "up"
  payload     := { gatewayID := lit "m0000001", provider := lit "up", dest := lit "8613800138000", text := lit "hi" }
  state       := .claimed
  claimedBy   := lit "w"
  claimedAt   := 5
  attempt     := 1
  maxAttempts := 5

def claimedStore : MemoryStore :=
  { newMemory with outbox := newMemory.outbox.insert 1 claimedRow, nextOutbox := 1 }

def smppRoute : SmppRoute where
  dispatcher   := { pendingTTL := hour, storeErrorText := fun _ => [], quote := id }
  provider     := { cfg := {} }
  durationText := fun _ => []

def oneConnection (conn : Client.Connection) : List Turn :=
  [.resolve true, .mark .none false, .send 6 { part := fun _ => { conns := [conn] } }, .doubt 7 .none false]

theorem uncertain_throttled :
    (run (Sending.step smppRoute) { thread := { item := claimedRow }, store := claimedStore }
      (oneConnection { reply := .response 0x58 [] })).Faithful := by
  refine (uncertain_only_if_handed_iff smppRoute rfl rfl _ rfl).mpr ⟨trivial, trivial, fun _ => ?_, trivial, trivial⟩
  exact ⟨nofun, by decide⟩

-- All slots of the window are in use: nothing is handed over, and the row is given up all the same.
theorem uncertain_window_full :
    let x := run (Sending.step smppRoute) { thread := { item := claimedRow }, store := claimedStore }
      (oneConnection { inFlight := 16, reply := .timer })
    x.thread.phase = .done ∧ x.store.stateOf 1 = some .uncertain ∧ x.handed = [] := by
  exact ⟨rfl, by decide, by decide⟩

end SmppGateway
