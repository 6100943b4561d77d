import SmppGateway.Lib.Parse
import SmppGateway.Store.Memory

-- The pending receipts of one message, under the methods that touch them.

namespace SmppGateway

open Go

theorem validateOutboxCompletion.go_ok {item : OutboxItem} {i : Nat} {ps recs : List Pending}
    (h : go item i ps = .ok recs) :
    recs = ps.map normalizePending ∧
    ∀ p ∈ ps, p.providerID ≠ [] ∧ p.gatewayID = item.gatewayID ∧ p.provider = item.provider := by
  induction ps generalizing i recs
  case nil => cases h; exact ⟨rfl, fun _ hq => absurd hq List.not_mem_nil⟩
  case cons p ps hi =>
    simp only [go] at h
    split at h
    case isTrue => cases h
    case isFalse hp =>
      split at h
      case isTrue => cases h
      case isFalse hm =>
        obtain ⟨recs', hr, rfl⟩ := Parse.map_eq_ok.mp h
        obtain ⟨rfl, hall⟩ := hi hr
        simp only [not_or, ne_eq, not_not] at hm
        refine ⟨rfl, fun q hq => ?_⟩
        rcases List.mem_cons.mp hq with rfl | hq
        case inl => exact ⟨hp, hm⟩
        case inr => exact hall q hq

theorem validateOutboxCompletion_ok {item : OutboxItem} {ps recs : List Pending}
    (h : validateOutboxCompletion item ps = .ok recs) :
    recs = ps.map normalizePending ∧
    ∀ p ∈ ps, p.providerID ≠ [] ∧ p.gatewayID = item.gatewayID ∧ p.provider = item.provider := by
  unfold validateOutboxCompletion at h
  split at h
  case isTrue => cases h
  case isFalse => exact validateOutboxCompletion.go_ok h

namespace MemoryStore

variable {s : MemoryStore} {gatewayID : Str} {k : Str} {p : Pending} {now : Time}

def rowOf (s : MemoryStore) (gatewayID k : Str) : Option Pending :=
  (s.pending.lookup k).filter (·.gatewayID = gatewayID)

theorem rowOf_eq_some :
    s.rowOf gatewayID k = some p ↔ s.pending.lookup k = some p ∧ p.gatewayID = gatewayID := by
  simp [rowOf, Option.filter_eq_some_iff]

def Unexpired (s : MemoryStore) (gatewayID : Str) (now : Time) : Prop :=
  ∀ k p, s.rowOf gatewayID k = some p → p.expiresAt = 0 ∨ now ≤ p.expiresAt

instance : Decidable (s.Unexpired gatewayID now) :=
  decidable_of_iff (∀ e ∈ s.pending.entries, e.2.gatewayID = gatewayID →
      e.2.expiresAt = 0 ∨ now ≤ e.2.expiresAt) <| by
    simp only [Unexpired, rowOf_eq_some, Sigma.forall, Map.mem_entries_iff, and_imp]

theorem Unexpired.not_swept (h : s.Unexpired gatewayID now) (hp : s.rowOf gatewayID k = some p) :
    (!p.dlrReady && p.expiresAt != 0 && decide (p.expiresAt < now)) = false := by
  rcases h k p hp with h | h
  case inl => simp [h]
  case inr => simp [Int.not_lt.mpr h]

theorem rowOf_sweepLocked (h : s.Unexpired gatewayID now) :
    (s.sweepLocked now).rowOf gatewayID k = s.rowOf gatewayID k := by
  ext p
  have hs := h.not_swept (k := k) (p := p)
  simp only [rowOf_eq_some] at hs ⊢
  simp only [sweepLocked, Map.lookup_filter_eq_some]
  constructor
  case mp => exact fun ⟨⟨hl, _⟩, hg⟩ => ⟨hl, hg⟩
  case mpr => exact fun hp => ⟨⟨hp.1, by rw [hs hp]; rfl⟩, hp.2⟩

theorem getPending_unexpired {provider providerID : Str} (h : s.Unexpired gatewayID now)
    (hp : s.rowOf gatewayID (pendingKey provider providerID) = some p) :
    s.getPending now provider providerID = (some p, s.sweepLocked now) := by
  have hs := h.not_swept hp
  rw [← rowOf_sweepLocked h] at hp
  unfold getPending
  simp only [(rowOf_eq_some.mp hp).1, hs, Bool.false_eq_true, if_false]

structure Quiet (gatewayID : Str) (s s' : MemoryStore) : Prop where
  rows    : ∀ k, s'.rowOf gatewayID k = s.rowOf gatewayID k
  message : s'.getMessage gatewayID = s.getMessage gatewayID

-- Of the rows of the message only the one under `k` changes, and the message does not.
structure Rewrites (gatewayID k : Str) (f : Pending → Pending) (s s' : MemoryStore) : Prop where
  rows    : ∀ k', s'.rowOf gatewayID k' =
    if k' = k then (s.rowOf gatewayID k').map f else s.rowOf gatewayID k'
  message : s'.getMessage gatewayID = s.getMessage gatewayID

theorem sweepLocked_quiet (h : s.Unexpired gatewayID now) : Quiet gatewayID s (s.sweepLocked now) :=
  ⟨fun _ => rowOf_sweepLocked h, rfl⟩

theorem modifyPending_rewrites {provider providerID : Str} {f : Pending → Pending}
    (hf : ∀ p, (f p).gatewayID = p.gatewayID) :
    Rewrites gatewayID (pendingKey provider providerID) f s (s.modifyPending provider providerID f).2 := by
  unfold modifyPending
  split
  case h_1 hl =>
    refine ⟨fun k' => ?_, rfl⟩
    split
    case isTrue hk => subst hk; rw [rowOf, hl]; rfl
    case isFalse => rfl
  case h_2 p hl =>
    refine ⟨fun k' => ?_, rfl⟩
    simp only [rowOf, Map.lookup_insert_eq]
    split
    case isTrue hk =>
      subst hk
      rw [hl, Option.filter_some, Option.filter_some, hf]
      split <;> rfl
    case isFalse => rfl

theorem modifyPending_ok {provider providerID : Str} {f : Pending → Pending}
    (hf : ∀ p, (f p).gatewayID = p.gatewayID)
    (hp : s.rowOf gatewayID (pendingKey provider providerID) = some p) :
    ∃ s', s.modifyPending provider providerID f = (.ok (), s') ∧
      Rewrites gatewayID (pendingKey provider providerID) f s s' := by
  refine ⟨_, ?_, modifyPending_rewrites hf⟩
  simp [modifyPending, (rowOf_eq_some.mp hp).1]

theorem rowOf_deletePendingByGatewayID :
    (s.deletePendingByGatewayID gatewayID).2.rowOf gatewayID k = none := by
  simp only [deletePendingByGatewayID, rowOf, Map.lookup_filter, Option.filter_filter]
  simp

instance : Std.Total segmentLe where
  total p q := by grind [segmentLe]

instance : IsTrans Pending segmentLe where
  trans p q r h₁ h₂ := by grind [segmentLe]

theorem listPendingByGatewayID_eq {rows : List Pending}
    (hrows : ∀ p, p ∈ rows ↔ ∃ k, s.rowOf gatewayID k = some p)
    (hkeys : ∀ {k k' p}, s.rowOf gatewayID k = some p → s.rowOf gatewayID k' = some p → k = k')
    (hsorted : rows.Pairwise fun p q => p.segmentIndex < q.segmentIndex)
    (h : s.Unexpired gatewayID now) :
    s.listPendingByGatewayID now gatewayID = (rows, s.sweepLocked now) := by
  have hrow {k p} : (s.sweepLocked now).rowOf gatewayID k = some p ↔ s.rowOf gatewayID k = some p := by
    rw [rowOf_sweepLocked h]
  simp only [listPendingByGatewayID, Prod.mk.injEq, and_true]
  generalize s.sweepLocked now = t at hrow ⊢
  rw [List.filter_map]
  set entries := t.pending.entries.filter ((·.gatewayID = gatewayID) ∘ (·.2)) with he
  have hmem {e} : e ∈ entries ↔ s.rowOf gatewayID e.1 = some e.2 := by
    rw [← hrow, rowOf_eq_some, he, List.mem_filter, ← Map.mem_entries_iff]
    simp
  have hnodup : (entries.map (·.2)).Nodup := by
    refine List.Nodup.map_on (fun e he e' he' heq => ?_)
      (List.NodupKeys.nodup t.pending.nodupKeys |>.filter _)
    have hk := hkeys (hmem.mp he) (heq ▸ hmem.mp he')
    exact Sigma.ext hk (heq_of_eq heq)
  have hperm : (entries.map (·.2)).Perm rows := by
    refine (List.perm_ext_iff_of_nodup hnodup (hsorted.imp fun hlt e => ?_)).mpr fun p => ?_
    case refine_1 => exact absurd hlt (e ▸ Int.lt_irrefl _)
    case refine_2 =>
      rw [hrows, List.mem_map]
      constructor
      case mp => exact fun ⟨e, he, hp⟩ => ⟨e.1, hp ▸ hmem.mp he⟩
      case mpr => exact fun ⟨k, hk⟩ => ⟨⟨k, p⟩, hmem.mpr hk, rfl⟩
  -- Both lists are sorted, and no two rows have the same index.
  have hp := (List.perm_insertionSort segmentLe (entries.map (·.2))).trans hperm
  refine hp.eq_of_pairwise (fun p q hp' hq hle hle' => ?_) (List.pairwise_insertionSort ..)
    (hsorted.imp fun hlt => .inl hlt)
  have hindex : (rows.map (·.segmentIndex)).Nodup :=
    List.pairwise_map.mpr (hsorted.imp fun hlt => Int.ne_of_lt hlt)
  exact List.inj_on_of_nodup_map hindex (hp.subset hp') hq (by grind [segmentLe])

theorem getMessage_updateMessageState {msg : Message} {state : Str} {errCode : Int}
    (h : s.getMessage gatewayID = some msg) :
    (s.updateMessageState now gatewayID state errCode).2.getMessage gatewayID =
      some { msg with state := state, errorCode := errCode, doneAt := now } := by
  obtain ⟨idx, hi, hm⟩ := Option.bind_eq_some_iff.mp h
  have hmem : gatewayID ∈ s.messageByID := AList.lookup_isSome.mp (by rw [hi]; rfl)
  simp only [updateMessageState, if_pos hmem, modifyMessage, hi]
  simp [getMessage, hi, hm]

theorem rowOf_updateMessageState {state : Str} {errCode : Int} {g : Str} :
    (s.updateMessageState now g state errCode).2.rowOf gatewayID k = s.rowOf gatewayID k := by
  unfold updateMessageState modifyMessage
  split
  case isTrue => split <;> rfl
  case isFalse => rfl

end MemoryStore
end SmppGateway
