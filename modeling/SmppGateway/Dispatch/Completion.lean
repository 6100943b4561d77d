import Mathlib.Data.List.Perm.Subperm
import SmppGateway.Dispatch.Receipts
import SmppGateway.Dispatch.Upstream

-- What a finished send leaves among the pending receipts: which ids of the upstream can be traced back to
-- the message, and whether its receipts can ever add up to a final state.

namespace SmppGateway

open Go Machine

def completedPending (pending : Map Str Pending) (ps : List Pending) : Map Str Pending :=
  Map.insertAll (fun r => pendingKey r.provider r.providerID) (·) pending (ps.map normalizePending)

namespace MemoryStore

variable {s : MemoryStore} {now : Time} {id : Int} {workerID : Str} {ps : List Pending}

theorem completeOutboxSend_pending (hs : s.stateOf id = some .sending)
    (h : (s.completeOutboxSend now id workerID ps).1 = .ok ()) :
    (s.completeOutboxSend now id workerID ps).2.pending = completedPending s.pending ps := by
  obtain ⟨row, hr, hstate⟩ := stateOf_eq_some.mp hs
  unfold completeOutboxSend at h ⊢
  simp only [hr, hstate, reduceCtorEq, if_false] at h ⊢
  split at h
  case isTrue => cases h
  case isFalse hw =>
    rw [if_neg hw]
    split at h
    case h_1 => cases h
    case h_2 recs hv =>
      split at h
      case isFalse => cases h
      case isTrue hm =>
        simp only [if_pos hm, (validateOutboxCompletion_ok hv).1, completedPending, MemoryStore.modifyMessage_pending]

end MemoryStore

theorem normalizePending_sent {p : Pending} (hi : 0 < p.segmentIndex) (hc : 0 < p.segmentCount) :
    normalizePending p = p := by
  unfold normalizePending
  rw [if_neg (by omega), if_neg (by omega)]

section SentPending

variable {now : Time} {ttl : Duration} {payload : OutboxPayload} {ids : List Str}

theorem mem_sentPending {p : Pending} :
    p ∈ sentPending now ttl payload ids → p.gatewayID = payload.gatewayID ∧ p.provider = payload.provider ∧
      0 < p.segmentIndex ∧ p.segmentCount = ids.length ∧ p.providerID ∈ ids := by
  intro h
  obtain ⟨⟨id, i⟩, hm, rfl⟩ := List.mem_map.mp h
  exact ⟨rfl, rfl, Int.natCast_succ_pos i, rfl, List.fst_mem_of_mem_zipIdx hm⟩

theorem map_normalizePending_sentPending :
    (sentPending now ttl payload ids).map normalizePending = sentPending now ttl payload ids := by
  refine (List.map_congr_left fun p hp => ?_).trans (List.map_id _)
  obtain ⟨-, -, hi, hc, hm⟩ := mem_sentPending hp
  refine normalizePending_sent hi ?_
  have := List.length_pos_of_mem hm
  omega

theorem exists_sentPending (now : Time) (ttl : Duration) (payload : OutboxPayload) {id : Str} (h : id ∈ ids) :
    ∃ p ∈ sentPending now ttl payload ids, p.providerID = id := by
  obtain ⟨i, hi⟩ := List.mem_iff_getElem?.mp h
  exact ⟨_, List.mem_map.mpr ⟨(id, i), List.mem_zipIdx_iff_getElem?.mpr hi, rfl⟩, rfl⟩

theorem rowOf_completed {id : Str} (h : id ∈ ids) {s : MemoryStore} {m : Map Str Pending}
    (hs : s.pending = completedPending m (sentPending now ttl payload ids)) :
    (s.rowOf payload.gatewayID (pendingKey payload.provider id)).isSome := by
  rw [completedPending, map_normalizePending_sentPending] at hs
  have hkey : pendingKey payload.provider id ∈ s.pending := by
    obtain ⟨p, hp, rfl⟩ := exists_sentPending now ttl payload h
    rw [hs, Map.mem_insertAll]
    exact .inl ⟨p, hp, by rw [(mem_sentPending hp).2.1]⟩
  obtain ⟨row, hrow⟩ := Option.isSome_iff_exists.mp (AList.lookup_isSome.mpr hkey)
  refine Option.isSome_iff_exists.mpr ⟨row, MemoryStore.rowOf_eq_some.mpr ⟨hrow, ?_⟩⟩
  rw [hs] at hrow
  rcases Map.lookup_insertAll_eq_some hrow with ⟨p, hp, -, rfl⟩ | ⟨-, hnone⟩
  case inl => exact (mem_sentPending hp).1
  case inr =>
    obtain ⟨p, hp, rfl⟩ := exists_sentPending now ttl payload h
    exact absurd (by rw [(mem_sentPending hp).2.1]) (hnone p hp)

end SentPending

def NoNewRows (k : Str) (s s' : MemoryStore) : Prop :=
  ∀ k', k' ≠ k → ∀ p, s'.pending.lookup k' = some p → s.pending.lookup k' = some p

namespace NoNewRows

variable {k : Str} {s s' s'' : MemoryStore}

theorem of_pending (h : s'.pending = s.pending) : NoNewRows k s s' := by
  intro k' _ p hp
  rwa [h] at hp

theorem trans (h₁ : NoNewRows k s s') (h₂ : NoNewRows k s' s'') : NoNewRows k s s'' :=
  fun k' hk p hp => h₁ k' hk p (h₂ k' hk p hp)

theorem fault {α : Type} {r : StoreResult α} (h : NoNewRows k s r.2) (f : Fault) :
    NoNewRows k s (f.apply s r).2 := by
  rcases f.apply_store s r with hf | hf <;> rw [hf]
  case inl => exact of_pending rfl
  case inr => exact h

theorem savePending (now : Time) {p : Pending} (hk : pendingKey p.provider p.providerID = k) :
    NoNewRows k s (s.savePending now p).2 := by
  intro k' hne q hq
  have hkey : pendingKey (normalizePending p).provider (normalizePending p).providerID = k := hk
  simp only [MemoryStore.savePending, hkey, Map.lookup_insert_eq, if_neg hne] at hq
  exact (Map.lookup_filter_eq_some.mp hq).1

theorem deletePending {provider providerID : Str} :
    NoNewRows k s (s.deletePending provider providerID).2 := by
  intro k' _ q hq
  simp only [MemoryStore.deletePending, Map.lookup_erase_eq] at hq
  split at hq
  case isTrue => cases hq
  case isFalse => exact hq

theorem updateMessageState (now : Time) (g state : Str) (errCode : Int) :
    NoNewRows k s (s.updateMessageState now g state errCode).2 :=
  of_pending (s.updateMessageState_pending now g state errCode)

theorem failOutbox {id : Int} {errMsg : Str} {next : Time} :
    NoNewRows k s (s.failOutbox id errMsg next).2 := by
  refine of_pending ?_
  unfold MemoryStore.failOutbox
  repeat' split
  all_goals rfl

end NoNewRows

namespace Dispatcher

variable (d : Dispatcher) {s : MemoryStore} {item : OutboxItem} {k : Str}
  (hk : item.failureKey = k)
include hk

theorem announceFailure_noNewRows (now : Time) (faults : FailFaults) (err : SendError) :
    NoNewRows k s (d.announceFailure s now faults item err).2 := by
  unfold announceFailure
  split
  case isFalse => exact .of_pending rfl
  case isTrue =>
    simp only
    refine ((NoNewRows.updateMessageState now item.gatewayID (terminalFailureDLR err).1
      (terminalFailureDLR err).2).fault faults.update).trans ?_
    unfold queueTerminalFailureDLR
    split
    case isTrue => exact .of_pending rfl
    case isFalse =>
      generalize (faults.update.apply s _).2 = t
      have h := NoNewRows.fault (s := t) (.savePending now
        (p := d.terminalFailurePending now item.payload (terminalFailureDLR err).1 (terminalFailureDLR err).2) hk)
        faults.save
      simp only
      generalize faults.save.apply t _ = r at h ⊢
      obtain ⟨_ | _, _⟩ := r <;> exact h

theorem failOutbox_noNewRows (now : Time) (jitter : Nat) (faults : FailFaults) (err : SendError) :
    NoNewRows k s (d.failOutbox s now jitter faults item err).2 := by
  simp only [failOutbox]
  generalize (if isTerminal item err then 0 else now + retryDelay item.attempt jitter) = next
  have h₁ := d.announceFailure_noNewRows (s := s) hk now faults err
  generalize d.announceFailure s now faults item err = q at h₁ ⊢
  obtain ⟨queued, s₁⟩ := q
  have h₂ := NoNewRows.fault (k := k) (r := s₁.failOutbox item.id err.text next) .failOutbox faults.fail
  simp only
  generalize faults.fail.apply s₁ _ = r at h₂ ⊢
  obtain ⟨_ | _, s₂⟩ := r
  case ok => exact h₁.trans h₂
  case error =>
    cases queued
    case none => exact h₁.trans h₂
    case some rec => exact (h₁.trans h₂).trans (NoNewRows.deletePending.fault faults.delete)

end Dispatcher

namespace Sending

def chances (x : Sending) : Turn → List Client.SendChance
  | .send _ chance => match x.thread.phase with
    | .sending => [chance]
    | _        => []
  | _ => []

def calls (r : SmppRoute) : Sending → List Turn → List Client.SendChance
  | _, []         => []
  | x, t :: turns => x.chances t ++ calls r (x.step r t) turns

-- Every id that the upstream gave to a part leads to a row of the message.
def Traceable (p : Client.Provider) (item : OutboxItem) (calls : List Client.SendChance) (s : MemoryStore) : Prop :=
  ∀ chance ∈ calls, ∀ i id, p.accepted chance item.payload.outbound i = some id → id ≠ [] →
    (s.rowOf item.payload.gatewayID (pendingKey item.payload.provider id)).isSome

-- The upstream accepts every part, or none with an id.
def Unbroken (p : Client.Provider) (msg : Client.Message) (chance : Client.SendChance) : Prop :=
  (∀ i < (Client.buildSubmitSM chance.isLetter chance.ref msg p.cfg).length, (p.accepted chance msg i).isSome) ∨
  ∀ i id, p.accepted chance msg i = some id → id = []

def FreshIDs (p : Client.Provider) (item : OutboxItem) (calls : List Client.SendChance) (s : MemoryStore) : Prop :=
  ∀ chance ∈ calls, ∀ i id, p.accepted chance item.payload.outbound i = some id → id ≠ [] →
    id ≠ localFailureID item.payload.gatewayID ∧
    s.rowOf item.payload.gatewayID (pendingKey item.payload.provider id) = none

def StoresAt (x : Sending) (now : Time) (fault : Fault) : Phase → Prop
  | .completing _ pending =>
    (fault.apply x.store
      (x.store.completeOutboxSend now x.thread.item.id x.thread.item.claimedBy pending)).1 = .ok ()
  | _ => True

instance (x : Sending) (now : Time) (fault : Fault) : DecidablePred (x.StoresAt now fault)
  | .completing _ _ => inferInstanceAs (Decidable (_ = _))
  | .start | .marking _ | .sending | .doubting .. | .failing _ | .done => .isTrue trivial

def Stores (x : Sending) : Turn → Prop
  | .complete now fault _ => x.StoresAt now fault x.thread.phase
  | _                     => True

instance (x : Sending) : DecidablePred x.Stores
  | .complete now fault _ => inferInstanceAs (Decidable (x.StoresAt now fault x.thread.phase))
  | .resolve _ | .mark _ _ | .send _ _ | .doubt _ _ _ | .fail _ _ _ => .isTrue trivial

inductive Trace (item : OutboxItem) (s₀ : MemoryStore) : Phase → List Client.Sent → MemoryStore → Prop
  | before {phase s} : phase.PreCall → (phase = .sending → s.stateOf item.id = some .sending) →
      s.pending = s₀.pending → Trace item s₀ phase [] s
  | unsent {phase s} : (phase = .done ∨ ∃ err, phase = .failing err) → Trace item s₀ phase [] s
  | completing {n now ttl sent s} : sent.err = none → s.stateOf item.id = some .sending →
      Trace item s₀ (.completing n (sentPending now ttl item.payload (sentIDs item.payload sent.ids))) [sent] s
  | completed {sent s} : sent.err = none →
      (∀ id ∈ sent.ids, id ≠ [] →
        (s.rowOf item.payload.gatewayID (pendingKey item.payload.provider id)).isSome) →
      Trace item s₀ .done [sent] s
  | failed {phase sent s} : sent.err ≠ none →
      (phase = .done ∨ (∃ err, phase = .failing err) ∨ ∃ n reason, phase = .doubting n reason) →
      NoNewRows item.failureKey s₀ s → Trace item s₀ phase [sent] s

end Sending

theorem mem_sentIDs {payload : OutboxPayload} {ids : List Str} {id : Str} (h : id ∈ ids) (hne : id ≠ []) :
    id ∈ sentIDs payload ids := by
  unfold sentIDs
  rw [if_neg (List.ne_nil_of_mem h)]
  exact List.mem_map.mpr ⟨id, h, if_neg hne⟩

namespace MemoryStore

variable {s : MemoryStore} {id : Int}

theorem markOutboxSending_pending (workerID : Str) :
    (s.markOutboxSending id workerID).2.pending = s.pending := by
  unfold markOutboxSending
  repeat' split
  all_goals rfl

theorem markOutboxUncertain_pending (now : Time) (workerID errMsg : Str) :
    (s.markOutboxUncertain now id workerID errMsg).2.pending = s.pending := by
  unfold markOutboxUncertain
  repeat' split
  all_goals first
    | rfl
    | exact modifyMessage_pending

end MemoryStore

namespace Sending

variable {r : SmppRoute} {s₀ : MemoryStore} {n : Nat} {x : Sending}

theorem Trace.of_preCall {item : OutboxItem} {phase : Phase} {sent : List Client.Sent} {s : MemoryStore}
    (h : Trace item s₀ phase sent s) (hp : phase.PreCall) :
    sent = [] ∧ (phase = .sending → s.stateOf item.id = some .sending) ∧ s.pending = s₀.pending := by
  cases h
  case before hpending hs => exact ⟨rfl, hs, hpending⟩
  case unsent h => rcases h with rfl | ⟨_, rfl⟩ <;> exact hp.elim
  case completing => exact hp.elim
  case completed => exact hp.elim
  case failed h _ => rcases h with rfl | ⟨_, rfl⟩ | ⟨_, _, rfl⟩ <;> exact hp.elim

theorem Trace.of_completing {item : OutboxItem} {pending : List Pending} {sent : List Client.Sent} {s : MemoryStore}
    (h : Trace item s₀ (.completing n pending) sent s) :
    ∃ call now ttl, sent = [call] ∧
      pending = sentPending now ttl item.payload (sentIDs item.payload call.ids) ∧ call.err = none ∧
      s.stateOf item.id = some .sending := by
  generalize hphase : Phase.completing n pending = phase at h
  cases h
  case before hp _ _ => rw [← hphase] at hp; exact hp.elim
  case unsent hp => rw [← hphase] at hp; rcases hp with hp | ⟨_, hp⟩ <;> cases hp
  case completed => cases hphase
  case failed hp _ => rw [← hphase] at hp; rcases hp with hp | ⟨_, hp⟩ | ⟨_, _, hp⟩ <;> cases hp
  case completing he hs => cases hphase; exact ⟨_, _, _, rfl, rfl, he, hs⟩

def Traced (s₀ : MemoryStore) (x : Sending) : Prop :=
  Trace x.thread.item s₀ x.thread.phase x.sent x.store

section Step

variable {item : OutboxItem} {s : MemoryStore} {sent : List Client.Sent}

theorem traced_mark (fault : Fault) (cancelled : Bool)
    (h : Traced s₀ { thread := { item, phase := .marking n }, store := s, sent }) :
    Traced s₀ (step r { thread := { item, phase := .marking n }, store := s, sent } (.mark fault cancelled)) := by
  have htrace : Trace item s₀ (.marking n) sent s := h
  obtain ⟨rfl, -, hp⟩ := htrace.of_preCall trivial
  simp only [Traced, step, move, called, Thread.step, List.append_nil]
  have hpending : (fault.apply s (s.markOutboxSending item.id item.claimedBy)).2.pending = s₀.pending := by
    rcases fault.apply_store s (s.markOutboxSending item.id item.claimedBy) with h | h <;> rw [h]
    case inl => exact hp
    case inr => rw [MemoryStore.markOutboxSending_pending, hp]
  cases hr : fault.apply s (s.markOutboxSending item.id item.claimedBy) with
  | mk res s' =>
    rw [hr] at hpending
    cases res
    case ok =>
      obtain ⟨hm, rfl⟩ := Fault.apply_ok hr
      obtain ⟨row, hrow, hstate, -⟩ := MemoryStore.markOutboxSending_ok hm
      exact .before trivial (fun _ => MemoryStore.stateOf_eq_some.mpr ⟨row, hrow, hstate⟩) hpending
    case error e =>
      simp only [Thread.become]
      split
      case isTrue => exact .before trivial (by simp) hpending
      case isFalse => exact .unsent (.inl rfl)

theorem traced_send (now : Time) (chance : Client.SendChance)
    (h : Traced s₀ { thread := { item, phase := .sending }, store := s, sent }) :
    Traced s₀ (step r { thread := { item, phase := .sending }, store := s, sent } (.send now chance)) := by
  have htrace : Trace item s₀ .sending sent s := h
  obtain ⟨rfl, hs, hp⟩ := htrace.of_preCall trivial
  simp only [Traced, step, move, called, List.nil_append, Thread.step, Client.Sent.outcome]
  cases he : (r.provider.sendAll chance item.payload.outbound).err
  case none => exact .completing he (hs rfl)
  case some err =>
    simp only [Thread.become]
    refine .failed (by rw [he]; simp) ?_ (.of_pending hp)
    split
    case isTrue => exact .inr (.inl ⟨_, rfl⟩)
    case isFalse => exact .inr (.inr ⟨_, _, rfl⟩)

theorem traced_complete {n : Nat} {pending : List Pending} {now : Time} {fault : Fault} {cancelled : Bool}
    (h : Traced s₀ { thread := { item, phase := .completing n pending }, store := s, sent })
    (hok : Stores { thread := { item, phase := .completing n pending }, store := s, sent }
      (.complete now fault cancelled)) :
    Traced s₀ (step r { thread := { item, phase := .completing n pending }, store := s, sent }
      (.complete now fault cancelled)) := by
  have htrace : Trace item s₀ (.completing n pending) sent s := h
  obtain ⟨call, sentAt, ttl, rfl, rfl, he, hs⟩ := htrace.of_completing
  have hok : (fault.apply s (s.completeOutboxSend now item.id item.claimedBy _)).1 = .ok () := hok
  simp only [Traced, step, move, called, List.append_nil, Thread.step]
  cases hr : fault.apply s (s.completeOutboxSend now item.id item.claimedBy _) with
  | mk res s' =>
    have hres : res = .ok () := by rw [← hok]; exact (congrArg Prod.fst hr).symm
    subst hres
    obtain ⟨hc, rfl⟩ := Fault.apply_ok hr
    refine .completed he fun id hid hne => ?_
    exact rowOf_completed (mem_sentIDs hid hne) (MemoryStore.completeOutboxSend_pending hs hc)

theorem traced_doubt {reason : Str} (now : Time) (fault : Fault) (cancelled : Bool)
    (h : Traced s₀ { thread := { item, phase := .doubting n reason }, store := s, sent }) :
    Traced s₀ (step r { thread := { item, phase := .doubting n reason }, store := s, sent }
      (.doubt now fault cancelled)) := by
  unfold Traced at h ⊢
  cases h
  case before hp _ _ => exact hp.elim
  case unsent hp => rcases hp with hp | ⟨_, hp⟩ <;> cases hp
  case failed he _ hn =>
    have hn' := hn.trans ((NoNewRows.of_pending (MemoryStore.markOutboxUncertain_pending now item.claimedBy reason)).fault
      (r := s.markOutboxUncertain now item.id item.claimedBy reason) fault)
    simp only [step, move, called, List.append_nil, Thread.step]
    generalize fault.apply s _ = res at hn' ⊢
    obtain ⟨_ | _, s'⟩ := res
    case ok => exact .failed he (.inl rfl) hn'
    case error =>
      refine .failed he ?_ hn'
      simp only [Thread.become]
      split
      case isTrue => exact .inr (.inr ⟨_, _, rfl⟩)
      case isFalse => exact .inl rfl

theorem traced_fail {err : SendError} (now : Time) (jitter : Nat) (faults : FailFaults)
    (h : Traced s₀ { thread := { item, phase := .failing err }, store := s, sent }) :
    Traced s₀ (step r { thread := { item, phase := .failing err }, store := s, sent }
      (.fail now jitter faults)) := by
  unfold Traced at h ⊢
  simp only [step, move, called, List.append_nil, Thread.step]
  cases h
  case before hp _ _ => exact hp.elim
  case unsent => exact .unsent (.inl rfl)
  case failed he _ hn =>
    exact .failed he (.inl rfl) (hn.trans (r.dispatcher.failOutbox_noNewRows rfl now jitter faults err))

end Step

theorem step_traced {t : Turn} (h : x.Traced s₀) (hok : x.Stores t) : (x.step r t).Traced s₀ := by
  by_cases hf : Fits x.thread.phase t
  case neg => rwa [step_of_not_fits hf]
  case pos =>
    obtain ⟨⟨item, phase⟩, s, sent⟩ := x
    cases t <;> cases phase <;> first
      | exact hf.elim
      | skip
    case resolve.start found =>
      unfold Traced at h ⊢
      cases h
      case unsent hp => rcases hp with hp | ⟨_, hp⟩ <;> cases hp
      case failed hp _ => rcases hp with hp | ⟨_, hp⟩ | ⟨_, _, hp⟩ <;> cases hp
      case before hp _ =>
        simp only [step, move, called, Thread.step, List.append_nil]
        split
        case isTrue => exact .before trivial (by simp [Thread.become]) hp
        case isFalse => exact .unsent (.inr ⟨_, rfl⟩)
    case mark.marking fault cancelled n => exact traced_mark fault cancelled h
    case send.sending now chance => exact traced_send now chance h
    case complete.completing now fault cancelled n pending => exact traced_complete h hok
    case doubt.doubting now fault cancelled n reason => exact traced_doubt now fault cancelled h
    case fail.failing now jitter faults err => exact traced_fail now jitter faults h

theorem run_traced {turns : List Turn} (h : x.Traced s₀) (hok : Along (step r) Stores x turns) :
    (run (step r) x turns).Traced s₀ :=
  invariant h hok fun _ _ h hok => step_traced h hok

theorem Traced.done (h : x.Traced s₀) (hdone : x.thread.phase = .done) : ∀ sent ∈ x.sent,
    (sent.err = none ∧ ∀ id ∈ sent.ids, id ≠ [] →
      (x.store.rowOf x.thread.item.payload.gatewayID (pendingKey x.thread.item.payload.provider id)).isSome) ∨
    (sent.err ≠ none ∧ NoNewRows x.thread.item.failureKey s₀ x.store) := by
  obtain ⟨⟨item, phase⟩, s, calls⟩ := x
  cases hdone
  have htrace : Trace item s₀ .done calls s := h
  intro sent hm
  cases htrace
  case before hp _ _ => exact hp.elim
  case unsent => cases hm
  case completed he hrows =>
    cases List.mem_singleton.mp hm
    exact .inl ⟨he, hrows⟩
  case failed he _ hn =>
    cases List.mem_singleton.mp hm
    exact .inr ⟨he, hn⟩

theorem step_sent (x : Sending) (t : Turn) : (x.step r t).sent =
    x.sent ++ (x.chances t).map (r.provider.sendAll · x.thread.item.payload.outbound) := by
  change x.sent ++ x.called r t = _
  cases t
  case send now chance =>
    simp only [called, chances]
    cases x.thread.phase <;> rfl
  all_goals rfl

theorem run_sent (x : Sending) (turns : List Turn) : (run (step r) x turns).sent =
    x.sent ++ (x.calls r turns).map (r.provider.sendAll · x.thread.item.payload.outbound) := by
  induction turns generalizing x
  case nil => simp [calls]
  case cons t turns hi => rw [run_cons, hi, step_sent, step_item, calls, List.map_append, List.append_assoc]

theorem run_item (x : Sending) (turns : List Turn) : (run (step r) x turns).thread.item = x.thread.item := by
  induction turns generalizing x
  case nil => rfl
  case cons t turns hi => rw [run_cons, hi, step_item]

section Finished

variable {item : OutboxItem} {s : MemoryStore} {chances : List Client.SendChance}
  (hfinished : ∀ chance ∈ chances, let sent := r.provider.sendAll chance item.payload.outbound
    (sent.err = none ∧ ∀ id ∈ sent.ids, id ≠ [] →
      (s.rowOf item.payload.gatewayID (pendingKey item.payload.provider id)).isSome) ∨
    (sent.err ≠ none ∧ NoNewRows item.failureKey s₀ s))
include hfinished

theorem traceable_of_unbroken (hu : ∀ chance ∈ chances, Unbroken r.provider item.payload.outbound chance) :
    Traceable r.provider item chances s := by
  intro chance hm i id hid hne
  rcases hfinished chance hm with ⟨-, hrows⟩ | ⟨he, -⟩
  case inl => exact hrows id (Client.Provider.mem_sendAll_ids.mpr ⟨i, hid⟩) hne
  case inr =>
    rcases hu chance hm with hall | hempty
    case inl => exact absurd (Client.Provider.sendAll_err.mpr hall) he
    case inr => exact absurd (hempty i id hid) hne

theorem unbroken_of_traceable (hfresh : FreshIDs r.provider item chances s₀)
    (ht : Traceable r.provider item chances s) :
    ∀ chance ∈ chances, Unbroken r.provider item.payload.outbound chance := by
  intro chance hm
  rcases hfinished chance hm with ⟨he, -⟩ | ⟨-, hn⟩
  case inl => exact .inl (Client.Provider.sendAll_err.mp he)
  case inr =>
    refine .inr fun i id hid => ?_
    by_contra hne
    obtain ⟨hlocal, hnone⟩ := hfresh chance hm i id hid hne
    obtain ⟨row, hrow⟩ := Option.isSome_iff_exists.mp (ht chance hm i id hid hne)
    obtain ⟨hl, hg⟩ := MemoryStore.rowOf_eq_some.mp hrow
    have hkey : pendingKey item.payload.provider id ≠ item.failureKey := by
      intro heq
      have := List.append_cancel_left heq
      exact hlocal (List.cons.inj this).2
    cases hnone.symm.trans (MemoryStore.rowOf_eq_some.mpr ⟨hn _ hkey row hl, hg⟩)

end Finished

end Sending

-- A finished run whose completion was stored leaves every id that the upstream gave out traceable when no
-- part failed after another had been given one, and, for ids that are new to the message, only then.
theorem accepted_segments_traceable (r : SmppRoute) (s : MemoryStore) (item : OutboxItem) (turns : List Turn)
    (hdone : (run (Sending.step r) { thread := { item }, store := s } turns).thread.phase = .done)
    (hstored : Along (Sending.step r) Sending.Stores { thread := { item }, store := s } turns) :
    let x := run (Sending.step r) { thread := { item }, store := s } turns
    let calls := Sending.calls r { thread := { item }, store := s } turns
    ((∀ chance ∈ calls, Sending.Unbroken r.provider item.payload.outbound chance) →
      Sending.Traceable r.provider item calls x.store) ∧
    (Sending.FreshIDs r.provider item calls s → (Sending.Traceable r.provider item calls x.store ↔
      ∀ chance ∈ calls, Sending.Unbroken r.provider item.payload.outbound chance)) := by
  have hstart : Sending.Traced s { thread := { item }, store := s } := .before trivial nofun rfl
  have htraced := (Sending.run_traced hstart hstored).done hdone
  rw [Sending.run_sent, Sending.run_item, List.nil_append] at htraced
  have hfinished := List.forall_mem_map.mp htraced
  exact ⟨Sending.traceable_of_unbroken hfinished, fun hfresh =>
    ⟨Sending.unbroken_of_traceable hfinished hfresh, Sending.traceable_of_unbroken hfinished⟩⟩

def longRow : OutboxItem :=
  { claimedRow with
    payload := { claimedRow.payload with
      dataCoding := 0x03, encoding := lit "8bit", text := List.replicate 141 'a'.toUInt8 } }

def longStore : MemoryStore :=
  let s := newMemory.putMessage { id := lit "m0000001" }
  { s with outbox := s.outbox.insert 1 longRow, nextOutbox := 1 }

def secondPart (reply : Client.Reply) : Client.SendChance where
  part i := { conns := [{ reply := if i = 0 then .response 0 (lit "id-1") else reply }] }

def longTurns (reply : Client.Reply) : List Turn :=
  [.resolve true, .mark .none false, .send 6 (secondPart reply)]

theorem traceable_both_accepted :
    let turns := longTurns (.response 0 (lit "id-2")) ++ [.complete 7 .none false]
    let x := run (Sending.step smppRoute) { thread := { item := longRow }, store := longStore } turns
    (List.range 2).map (smppRoute.provider.accepted (secondPart (.response 0 (lit "id-2"))) longRow.payload.outbound) =
      [some (lit "id-1"), some (lit "id-2")] ∧
    Sending.Traceable smppRoute.provider longRow
      (Sending.calls smppRoute { thread := { item := longRow }, store := longStore } turns) x.store := by
  intro turns x
  refine ⟨by decide +kernel, (accepted_segments_traceable smppRoute longStore longRow turns (by decide +kernel)
    (by decide +kernel)).1 fun chance hm => ?_⟩
  cases List.mem_singleton.mp hm
  exact .inl (by decide +kernel)

-- The second part is rejected: the row fails, and the id of the first part leads nowhere.
theorem accepted_segment_lost :
    let turns := longTurns (.response 0x0B []) ++ [.fail 7 0 {}]
    let x := run (Sending.step smppRoute) { thread := { item := longRow }, store := longStore } turns
    x.thread.phase = .done ∧ x.store.stateOf 1 = some .failed ∧
    smppRoute.provider.accepted (secondPart (.response 0x0B [])) longRow.payload.outbound 0 = some (lit "id-1") ∧
    x.store.pending.lookup (pendingKey (lit "up") (lit "id-1")) = none ∧
    ¬Sending.Traceable smppRoute.provider longRow
      (Sending.calls smppRoute { thread := { item := longRow }, store := longStore } turns) x.store := by
  intro turns x
  have hid : smppRoute.provider.accepted (secondPart (.response 0x0B [])) longRow.payload.outbound 0 =
      some (lit "id-1") := by decide +kernel
  refine ⟨by decide +kernel, by decide +kernel, hid, by decide +kernel, fun ht => ?_⟩
  have hrow := ht _ (List.mem_singleton.mpr rfl) 0 _ hid (by decide)
  revert hrow
  decide +kernel

def MemoryStore.recordAll (s : MemoryStore) (dlrs : List Dlr) : MemoryStore :=
  dlrs.foldl
    (fun s dlr => (s.updatePendingDLR dlr.provider dlr.providerID dlr.state dlr.errorCode dlr.doneAt).2) s

def lastInto (dlrs : List Dlr) (k : Str) (p : Pending) : Pending :=
  match (dlrs.filter (·.key = k)).getLast? with
  | none     => p
  | some dlr => dlr.into p

theorem MemoryStore.rowOf_recordAll (s : MemoryStore) (gatewayID k : Str) (dlrs : List Dlr) :
    (s.recordAll dlrs).rowOf gatewayID k = (s.rowOf gatewayID k).map (lastInto dlrs k) := by
  induction dlrs using List.reverseRecOn
  case nil => exact Option.map_id'.symm
  case append_singleton dlrs dlr hi =>
    have hr : Rewrites gatewayID dlr.key dlr.into (s.recordAll dlrs) (s.recordAll (dlrs ++ [dlr])) := by
      have happ : s.recordAll (dlrs ++ [dlr]) =
          ((s.recordAll dlrs).modifyPending dlr.provider dlr.providerID dlr.into).2 := List.foldl_append
      rw [happ]
      exact modifyPending_rewrites fun _ => rfl
    rw [hr.rows, hi]
    by_cases hk : k = dlr.key
    case pos =>
      subst hk
      rw [if_pos rfl, Option.map_map]
      congr 1
      funext p
      -- A later receipt overwrites all that an earlier one has written.
      have hlast : lastInto (dlrs ++ [dlr]) dlr.key p = dlr.into p := by simp [lastInto]
      rw [hlast, Function.comp, lastInto]
      split <;> rfl
    case neg =>
      have hlast : lastInto (dlrs ++ [dlr]) k = lastInto dlrs k := by
        funext p
        simp [lastInto, Ne.symm hk]
      rw [if_neg hk, hlast]

theorem lastInto_frame (dlrs : List Dlr) (k : Str) (p : Pending) :
    (lastInto dlrs k p).key = p.key ∧ (lastInto dlrs k p).segmentIndex = p.segmentIndex ∧
      (lastInto dlrs k p).segmentCount = p.segmentCount ∧ (lastInto dlrs k p).expiresAt = p.expiresAt := by
  unfold lastInto
  split <;> exact ⟨rfl, rfl, rfl, rfl⟩

theorem lastInto_eq_into {dlrs : List Dlr} {dlr : Dlr} (hdlr : dlr ∈ dlrs) (p : Pending) :
    ∃ last ∈ dlrs, lastInto dlrs dlr.key p = last.into p := by
  have hmem : dlr ∈ dlrs.filter (·.key = dlr.key) := List.mem_filter.mpr ⟨hdlr, by simp⟩
  have hne := List.ne_nil_of_mem hmem
  refine ⟨_, List.mem_of_mem_filter (List.getLast_mem hne), ?_⟩
  rw [lastInto, List.getLast?_eq_some_getLast hne]

section Completed

variable {now : Time} {ttl : Duration} {payload : OutboxPayload} {ids : List Str}

theorem length_sentIDs (payload : OutboxPayload) (h : ids ≠ []) : (sentIDs payload ids).length = ids.length := by
  simp [sentIDs, h]

theorem length_sentPending : (sentPending now ttl payload ids).length = ids.length := by
  simp [sentPending]

theorem getElem_sentPending {i : Nat} {p : Pending} (h : (sentPending now ttl payload ids)[i]? = some p) :
    p.segmentIndex = i + 1 ∧ p.segmentCount = ids.length ∧ p.expiresAt = now + ttl ∧ p.dlrReady = false ∧
    ids[i]? = some p.providerID := by
  rw [sentPending, List.getElem?_map, Option.map_eq_some_iff] at h
  obtain ⟨⟨id, j⟩, hm, rfl⟩ := h
  rw [List.getElem?_zipIdx, Option.map_eq_some_iff] at hm
  obtain ⟨_, hid, heq⟩ := hm
  cases heq
  simp [hid]

theorem map_key_sentPending (now : Time) (ttl : Duration) (payload : OutboxPayload) (ids : List Str) :
    (sentPending now ttl payload ids).map Pending.key = ids.map (pendingKey payload.provider) := by
  ext1 i
  simp [sentPending, Pending.key, List.getElem?_zipIdx, Function.comp_def]

theorem pairwise_sentPending :
    (sentPending now ttl payload ids).Pairwise fun p q => p.segmentIndex < q.segmentIndex := by
  rw [List.pairwise_iff_getElem]
  intro i j hi hj hij
  have h₁ := (getElem_sentPending (List.getElem?_eq_getElem hi)).1
  have h₂ := (getElem_sentPending (List.getElem?_eq_getElem hj)).1
  omega

theorem sentPending_inOrder : AggregateLoop.InOrder ids.length (sentPending now ttl payload ids) :=
  fun h => ⟨(getElem_sentPending h).1, (getElem_sentPending h).2.1⟩

end Completed

structure AllSent (s : MemoryStore) (payload : OutboxPayload) (rows : List Pending) : Prop where
  nodup : (rows.map Pending.key).Nodup
  rowOf : ∀ k p, s.rowOf payload.gatewayID k = some p ↔ p ∈ rows ∧ p.key = k

namespace AllSent

variable {s : MemoryStore} {payload : OutboxPayload} {rows : List Pending} {t : Time}

theorem list (h : AllSent s payload rows)
    (hsorted : rows.Pairwise fun p q => p.segmentIndex < q.segmentIndex)
    (hu : ∀ p ∈ rows, p.expiresAt = 0 ∨ t ≤ p.expiresAt) :
    (s.listPendingByGatewayID t payload.gatewayID).1 = rows := by
  have hrows : ∀ p, p ∈ rows ↔ ∃ k, s.rowOf payload.gatewayID k = some p := by simp [h.rowOf]
  rw [MemoryStore.listPendingByGatewayID_eq hrows (fun hk hk' => ?_) hsorted
    fun k p hp => hu p ((h.rowOf k p).mp hp).1]
  exact ((h.rowOf _ _).mp hk).2.symm.trans ((h.rowOf _ _).mp hk').2

theorem recordAll (h : AllSent s payload rows) (dlrs : List Dlr) :
    AllSent (s.recordAll dlrs) payload (rows.map fun p => lastInto dlrs p.key p) := by
  have hkey (p : Pending) : (lastInto dlrs p.key p).key = p.key := (lastInto_frame dlrs p.key p).1
  constructor
  case nodup => simpa [Function.comp_def, hkey] using h.nodup
  case rowOf =>
    intro k p
    rw [MemoryStore.rowOf_recordAll, Option.map_eq_some_iff]
    simp only [h.rowOf, List.mem_map]
    constructor
    case mp =>
      rintro ⟨q, ⟨hq, rfl⟩, rfl⟩
      exact ⟨⟨q, hq, rfl⟩, hkey q⟩
    case mpr =>
      rintro ⟨⟨q, hq, rfl⟩, rfl⟩
      exact ⟨q, ⟨hq, (hkey q).symm⟩, by rw [hkey]⟩

end AllSent

-- A message of `n` segments is complete: its rows are there, in order, and final receipts for all of
-- them make it final.
structure CanBecomeFinal (s : MemoryStore) (gatewayID : Str) (t : Time) (n : Nat) : Prop where
  length  : (s.listPendingByGatewayID t gatewayID).1.length = n
  inOrder : AggregateLoop.InOrder n (s.listPendingByGatewayID t gatewayID).1
  final   : ∀ dlrs : List Dlr, (∀ dlr ∈ dlrs, isFinalDLRState dlr.state) →
    (∀ row ∈ (s.listPendingByGatewayID t gatewayID).1, ∃ dlr ∈ dlrs, dlr.key = row.key) →
    (aggregateDLR ((s.recordAll dlrs).listPendingByGatewayID t gatewayID).1).final

-- The ids under which the rows are stored are pairwise different, and the rows have not expired.
structure Distinct (payload : OutboxPayload) (ids : List Str) (expiresAt t : Time) : Prop where
  nodup     : (sentIDs payload ids).Nodup
  unexpired : expiresAt = 0 ∨ t ≤ expiresAt

section Final

variable {s s' : MemoryStore} {now t : Time} {ttl : Duration} {payload : OutboxPayload} {ids : List Str}
  (hs : s'.pending = completedPending s.pending (sentPending now ttl payload (sentIDs payload ids)))
include hs

theorem allSent_of_distinct (hn : (sentIDs payload ids).Nodup)
    (hother : ∀ k p, s.rowOf payload.gatewayID k = some p →
      k ∈ (sentIDs payload ids).map (pendingKey payload.provider)) :
    AllSent s' payload (sentPending now ttl payload (sentIDs payload ids)) := by
  rw [completedPending, map_normalizePending_sentPending] at hs
  have hkeys : ((sentPending now ttl payload (sentIDs payload ids)).map Pending.key).Nodup := by
    rw [map_key_sentPending]
    exact hn.map fun id id' h => (List.cons.inj (List.append_cancel_left h)).2
  refine ⟨hkeys, fun k p => ?_⟩
  rw [MemoryStore.rowOf_eq_some, hs]
  constructor
  case mp =>
    rintro ⟨hl, hg⟩
    rcases Map.lookup_insertAll_eq_some hl with ⟨q, hq, hk, rfl⟩ | ⟨hl, hnone⟩
    case inl => exact ⟨hq, hk⟩
    case inr =>
      have hk := hother k p (MemoryStore.rowOf_eq_some.mpr ⟨hl, hg⟩)
      rw [← map_key_sentPending now ttl] at hk
      obtain ⟨q, hq, hk⟩ := List.mem_map.mp hk
      exact absurd hk (hnone q hq)
  case mpr =>
    rintro ⟨hp, rfl⟩
    exact ⟨Map.lookup_insertAll_of_mem hkeys hp, (mem_sentPending hp).1⟩

theorem canBecomeFinal_of_distinct (hne : ids ≠ []) (hd : Distinct payload ids (now + ttl) t)
    (hother : ∀ k p, s.rowOf payload.gatewayID k = some p →
      k ∈ (sentIDs payload ids).map (pendingKey payload.provider)) :
    CanBecomeFinal s' payload.gatewayID t ids.length := by
  have hall := allSent_of_distinct hs hd.nodup hother
  have hu : ∀ p ∈ sentPending now ttl payload (sentIDs payload ids), p.expiresAt = 0 ∨ t ≤ p.expiresAt := by
    intro p hp
    obtain ⟨i, hi⟩ := List.mem_iff_getElem?.mp hp
    rw [(getElem_sentPending hi).2.2.1]
    exact hd.unexpired
  have hlist := hall.list pairwise_sentPending hu
  have hlen : (sentPending now ttl payload (sentIDs payload ids)).length = ids.length := by
    rw [length_sentPending, length_sentIDs payload hne]
  have horder : AggregateLoop.InOrder ids.length (sentPending now ttl payload (sentIDs payload ids)) := by
    rw [← length_sentIDs payload hne]
    exact sentPending_inOrder
  refine ⟨by rw [hlist, hlen], by rw [hlist]; exact horder, fun dlrs hfinal hrows => ?_⟩
  rw [hlist] at hrows
  have hinto (p : Pending) := (lastInto_frame dlrs p.key p).2
  have hsorted : ((sentPending now ttl payload (sentIDs payload ids)).map
      fun p => lastInto dlrs p.key p).Pairwise fun p q => p.segmentIndex < q.segmentIndex := by
    simpa only [List.pairwise_map, hinto] using pairwise_sentPending
  have hu' : ∀ p ∈ (sentPending now ttl payload (sentIDs payload ids)).map fun p => lastInto dlrs p.key p,
      p.expiresAt = 0 ∨ t ≤ p.expiresAt := by
    simpa only [List.forall_mem_map, hinto] using hu
  rw [(hall.recordAll dlrs).list hsorted hu', aggregateDLR_final]
  case hne => rw [← List.length_pos_iff, List.length_map, hlen]; exact List.length_pos_iff.mpr hne
  case ho =>
    intro i p hi
    rw [List.getElem?_map, Option.map_eq_some_iff] at hi
    obtain ⟨q, hq, rfl⟩ := hi
    rw [List.length_map, hlen, (hinto q).1, (hinto q).2.1]
    exact horder hq
  intro p hp
  obtain ⟨q, hq, rfl⟩ := List.mem_map.mp hp
  obtain ⟨dlr, hdlr, hkey⟩ := hrows q hq
  -- The last receipt for the row is one of the final ones.
  obtain ⟨last, hlast, heq⟩ := lastInto_eq_into hdlr q
  rw [← hkey, heq]
  exact hfinal last hlast

theorem distinct_of_length (hne : ids ≠ []) (hnone : ∀ k, s.rowOf payload.gatewayID k = none)
    (hlen : (s'.listPendingByGatewayID t payload.gatewayID).1.length = ids.length) :
    Distinct payload ids (now + ttl) t := by
  rw [completedPending, map_normalizePending_sentPending] at hs
  have hrow : ∀ k p, s'.rowOf payload.gatewayID k = some p →
      p ∈ sentPending now ttl payload (sentIDs payload ids) ∧ p.key = k := by
    intro k p hp
    obtain ⟨hl, hg⟩ := MemoryStore.rowOf_eq_some.mp hp
    rw [hs] at hl
    rcases Map.lookup_insertAll_eq_some hl with ⟨q, hq, hk, rfl⟩ | ⟨hl, -⟩
    case inl => exact ⟨hq, hk⟩
    case inr => cases (hnone k).symm.trans (MemoryStore.rowOf_eq_some.mpr ⟨hl, hg⟩)
  set entries := (s'.sweepLocked t).pending.entries.filter (fun e => e.2.gatewayID = payload.gatewayID)
    with hentries
  have hcount : entries.length = ids.length := by
    rw [← hlen, MemoryStore.listPendingByGatewayID]
    simp only [List.length_insertionSort, List.filter_map, List.length_map, hentries]
    rfl
  have hmem : ∀ e ∈ entries, (s'.rowOf payload.gatewayID e.1 = some e.2) ∧
      (e.2.dlrReady = true ∨ e.2.expiresAt = 0 ∨ t ≤ e.2.expiresAt) := by
    intro e he
    obtain ⟨he, hg⟩ := List.mem_filter.mp he
    have hl := Map.mem_entries_iff.mp he
    obtain ⟨hl, hk⟩ := Map.lookup_filter_eq_some.mp hl
    exact ⟨MemoryStore.rowOf_eq_some.mpr ⟨hl, by simpa using hg⟩, by simpa [or_assoc] using hk⟩
  have hkeys : (entries.map (·.1)).Nodup := by
    have hn : ((s'.sweepLocked t).pending.entries.map (·.1)).Nodup := (s'.sweepLocked t).pending.nodupKeys
    exact hn.sublist (List.filter_sublist.map _)
  constructor
  case nodup =>
    have hsub : entries.map (·.1) ⊆ (sentIDs payload ids).map (pendingKey payload.provider) := by
      intro k hk
      obtain ⟨e, he, rfl⟩ := List.mem_map.mp hk
      obtain ⟨hp, hk⟩ := hrow _ _ (hmem e he).1
      rw [← map_key_sentPending now ttl]
      exact List.mem_map.mpr ⟨e.2, hp, hk⟩
    have hperm := (List.subperm_of_subset hkeys hsub).perm_of_length_le (by
      rw [List.length_map, List.length_map, length_sentIDs payload hne, hcount])
    exact (hperm.nodup_iff.mp hkeys).of_map
  case unexpired =>
    obtain ⟨e, he⟩ := List.exists_mem_of_length_pos (hcount ▸ List.length_pos_iff.mpr hne)
    obtain ⟨hp, hkeep⟩ := hmem e he
    obtain ⟨i, hi⟩ := List.mem_iff_getElem?.mp (hrow _ _ hp).1
    obtain ⟨-, -, hexp, hready, -⟩ := getElem_sentPending hi
    rw [hready, hexp] at hkeep
    exact hkeep.resolve_left (by simp)

end Final

def completed (d : Dispatcher) (s : MemoryStore) (item : OutboxItem) (sentAt now : Time) (ids : List Str) :
    Thread × MemoryStore :=
  let sent := Thread.step d s { item, phase := .sending } (.send sentAt (.ok ids))
  sent.1.step d sent.2 (.complete now .none false)

-- A completed send can become final when its ids are pairwise different, once a missing one has been
-- replaced, and the rows are read before they expire. With no earlier rows of the message in the store it
-- can only then.
theorem completed_send_final (d : Dispatcher) {s : MemoryStore} {item : OutboxItem} {sentAt now t : Time}
    {ids : List Str} (hne : ids ≠ []) (hrow : s.stateOf item.id = some .sending)
    (hdone : (completed d s item sentAt now ids).1.phase = .done) :
    let s' := (completed d s item sentAt now ids).2
    let distinct := Distinct item.payload ids (sentAt + d.pendingTTL) t
    ((∀ k p, s.rowOf item.payload.gatewayID k = some p →
        k ∈ (sentIDs item.payload ids).map (pendingKey item.payload.provider)) →
      distinct → CanBecomeFinal s' item.payload.gatewayID t ids.length) ∧
    ((∀ k, s.rowOf item.payload.gatewayID k = none) →
      (CanBecomeFinal s' item.payload.gatewayID t ids.length ↔ distinct)) := by
  have hs : (completed d s item sentAt now ids).2.pending =
      completedPending s.pending (sentPending sentAt d.pendingTTL item.payload (sentIDs item.payload ids)) := by
    unfold completed at hdone ⊢
    simp only [Thread.step, Thread.become, Fault.apply] at hdone ⊢
    cases hr : s.completeOutboxSend now item.id item.claimedBy
      (sentPending sentAt d.pendingTTL item.payload (sentIDs item.payload ids)) with
    | mk res s' =>
      rw [hr] at hdone
      cases res
      case error e => simp [retries] at hdone
      case ok =>
        have h := MemoryStore.completeOutboxSend_pending hrow (congrArg Prod.fst hr)
        rwa [hr] at h
  refine ⟨fun hother hd => canBecomeFinal_of_distinct hs hne hd hother, fun hnone => ⟨?_, fun hd => ?_⟩⟩
  case refine_1 => exact fun h => distinct_of_length hs hne hnone h.length
  case refine_2 =>
    refine canBecomeFinal_of_distinct hs hne hd fun k p hp => ?_
    cases (hnone k).symm.trans hp

def sendingLongStore : MemoryStore :=
  (longStore.markOutboxSending 1 (lit "w")).2

theorem completed_send_final_two_ids :
    CanBecomeFinal (completed smppRoute.dispatcher sendingLongStore longRow 6 7 [lit "id-1", []]).2
      (lit "m0000001") 8 2 := by
  refine ((completed_send_final smppRoute.dispatcher (by decide) (by decide +kernel) (by decide +kernel)).2
    fun k => ?_).mpr ⟨by decide, by decide⟩
  rfl

-- Two parts for which the upstream returns no id share one row, and their message stays open for ever.
theorem completed_send_shares_row :
    let s := (completed smppRoute.dispatcher sendingLongStore longRow 6 7 [[], []]).2
    let dlr : Dlr := { provider := lit "up", providerID := lit "m0000001", state := lit "DELIVRD" }
    s.stateOf 1 = some .done ∧ (s.listPendingByGatewayID 8 (lit "m0000001")).1.length = 1 ∧
    (aggregateDLR ((s.recordAll [dlr, dlr]).listPendingByGatewayID 8 (lit "m0000001")).1).final = false := by
  intro s dlr
  decide +kernel

end SmppGateway
