import SmppGateway.Lib.Machine
import SmppGateway.Store.Outbox

-- The message log: a bounded list with an index from message ids to positions.

namespace SmppGateway

open Go Machine

-- The newest elements a log of the given size keeps. Size zero means no bound.
def keepNewest {α : Type} (max : Nat) (l : List α) : List α :=
  if max = 0 then l else l.drop (l.length - max)

theorem keepNewest_map {α β : Type} {f : α → β} {max : Nat} {l : List α} :
    (keepNewest max l).map f = keepNewest max (l.map f) := by
  unfold keepNewest; split <;> simp

theorem keepNewest_sublist {α : Type} {max : Nat} {l : List α} : (keepNewest max l).Sublist l := by
  unfold keepNewest
  split
  case isTrue => exact .refl l
  case isFalse => exact List.drop_sublist ..

theorem length_keepNewest {α : Type} {max : Nat} {l : List α} (h : max ≠ 0) :
    (keepNewest max l).length ≤ max := by
  simp [keepNewest, h]
  omega

theorem keepNewest_append {α : Type} {max : Nat} {l l' : List α} :
    keepNewest max (keepNewest max l ++ l') = keepNewest max (l ++ l') := by
  unfold keepNewest
  by_cases h₀ : max = 0
  case pos => simp [h₀]
  case neg =>
    simp only [h₀, if_false]
    have hd : l.length - max ≤ l.length := Nat.sub_le ..
    rw [← List.drop_append_of_le_length hd, List.drop_drop]
    simp
    omega

namespace MemoryStore

variable {s : MemoryStore} {msg : Message} {l : List Message} {id : Str} {i : Nat}

def ids (s : MemoryStore) : List Str :=
  s.messages.map (·.id)

theorem trimMessagesLocked_messages :
    s.trimMessagesLocked.messages = keepNewest s.maxMessages s.messages := by
  unfold trimMessagesLocked keepNewest
  by_cases h₀ : s.maxMessages = 0
  case pos => simp [h₀]
  case neg =>
    split
    case isTrue h =>
      have : s.messages.length - s.maxMessages = 0 := by omega
      simp [this]
    case isFalse => simp

theorem putMessage_messages (h : msg.id ∉ s.messageByID) :
    (s.putMessage msg).messages = keepNewest s.maxMessages (s.messages ++ [msg]) := by
  rw [putMessage, AList.lookup_eq_none.mpr h]
  exact trimMessagesLocked_messages

theorem putMessage_ids (h : msg.id ∉ s.messageByID) :
    (s.putMessage msg).ids = keepNewest s.maxMessages (s.ids ++ [msg.id]) := by
  simp [ids, putMessage_messages h, keepNewest_map]

theorem putMessage_getMessage (h : msg.id ∉ s.messageByID) :
    (s.putMessage msg).getMessage msg.id = some msg := by
  rw [putMessage, AList.lookup_eq_none.mpr h]
  simp only [trimMessagesLocked, getMessage]
  split
  case isTrue => simp
  case isFalse hm =>
    simp only [List.length_append, List.length_singleton, not_or, not_le] at hm ⊢
    have hd : s.messages.length + 1 - s.maxMessages ≤ s.messages.length := by omega
    rw [List.drop_append_of_le_length hd]
    simp [indexMessages, List.zipIdx_append, Map.insertAll, List.foldl_append]

@[simp]
theorem putMessage_maxMessages : (s.putMessage msg).maxMessages = s.maxMessages := by
  unfold putMessage trimMessagesLocked; repeat' split
  all_goals rfl

theorem indexMessages_snoc {m : Message} : indexMessages (l ++ [m]) = (indexMessages l).insert m.id l.length := by
  simp [indexMessages, Map.insertAll, List.zipIdx_append]

theorem indexMessages_eq_some :
    (indexMessages l).lookup id = some i ↔
      (l.map (·.id))[i]? = some id ∧ ∀ j, i < j → (l.map (·.id))[j]? ≠ some id := by
  induction l using List.reverseRecOn
  case nil => simp [indexMessages, Map.insertAll]
  case append_singleton l m hi =>
    rw [indexMessages_snoc, Map.lookup_insert_eq]
    simp only [List.map_append, List.map_cons, List.map_nil, List.getElem?_append, List.length_map] at hi ⊢
    by_cases hid : id = m.id
    case pos =>
      rw [if_pos hid]
      constructor
      case mp =>
        rintro h
        cases h
        refine ⟨by simp [hid], fun j hj => ?_⟩
        rw [if_neg (by omega), List.getElem?_eq_none (by simp; omega)]
        simp
      case mpr =>
        rintro ⟨hi', hlast⟩
        rcases Nat.lt_trichotomy i l.length with hlt | heq | hgt
        case inl => exact absurd (by simp [hid]) (hlast l.length hlt)
        case inr.inl => rw [heq]
        case inr.inr =>
          rw [if_neg (by omega), List.getElem?_eq_none (by simp; omega)] at hi'
          cases hi'
    case neg =>
      rw [if_neg hid, hi]
      have hnew (j : Nat) : (if j < l.length then (l.map (·.id))[j]? else [m.id][j - l.length]?) = some id ↔
          (l.map (·.id))[j]? = some id := by
        split
        case isTrue => rfl
        case isFalse hj =>
          have hnone : (l.map (·.id))[j]? = none := List.getElem?_eq_none (by simpa using hj)
          rw [hnone]
          refine iff_of_false (fun h => hid ?_) (by simp)
          exact List.mem_singleton.mp (List.mem_of_getElem? h)
      exact and_congr (hnew i).symm (forall₂_congr fun j _ => not_congr (hnew j).symm)

theorem indexMessages_getElem? (h : (indexMessages l).lookup id = some i) : (l.map Message.id)[i]? = some id :=
  (indexMessages_eq_some.mp h).1

theorem indexMessages_lookup (hn : (l.map (·.id)).Nodup) :
    (indexMessages l).lookup id = some i ↔ (l.map (·.id))[i]? = some id := by
  rw [indexMessages_eq_some]
  refine and_iff_left_of_imp fun h j hj h' => ?_
  obtain ⟨hi, rfl⟩ := List.getElem?_eq_some_iff.mp h
  obtain ⟨hj', heq⟩ := List.getElem?_eq_some_iff.mp h'
  exact Nat.ne_of_gt hj (hn.getElem_inj_iff.mp heq)

end MemoryStore

def IsIndex (index : Map Str Nat) (ids : List Str) : Prop :=
  ∀ id i, index.lookup id = some i ↔ ids[i]? = some id

namespace IsIndex

variable {index : Map Str Nat} {ids : List Str} {id : Str}

theorem nodup (h : IsIndex index ids) : ids.Nodup := by
  refine List.nodup_iff_getElem?_ne_getElem?.mpr fun i j hij hj he => ?_
  have hi := List.getElem?_eq_getElem (hij.trans hj)
  have h₁ := (h _ _).mpr hi
  have h₂ := (h _ _).mpr (he ▸ hi)
  exact hij.ne (Option.some.inj (h₁.symm.trans h₂))

theorem mem_iff (h : IsIndex index ids) : id ∈ index ↔ id ∈ ids := by
  rw [← AList.lookup_isSome, Option.isSome_iff_exists, List.mem_iff_getElem?]
  exact exists_congr (h id)

theorem snoc (h : IsIndex index ids) (hn : id ∉ index) :
    IsIndex (index.insert id ids.length) (ids ++ [id]) := by
  intro id' i
  rw [Map.lookup_insert_eq]
  by_cases hi : i < ids.length
  case pos =>
    rw [List.getElem?_append_left hi, ← h]
    split
    case isTrue he =>
      subst he
      simp [AList.lookup_eq_none.mpr hn]
      omega
    case isFalse => rfl
  case neg =>
    rw [List.getElem?_append_right (not_lt.mp hi)]
    split
    case isTrue he =>
      subst he
      simp [List.getElem?_singleton]
      omega
    case isFalse he =>
      have hnone : index.lookup id' ≠ some i := by
        rw [ne_eq, h, List.getElem?_eq_none (not_lt.mp hi)]
        simp
      simp [hnone, List.getElem?_singleton, Ne.symm he]

end IsIndex

structure LogWF (s : MemoryStore) : Prop where
  index : IsIndex s.messageByID s.ids
  bound : s.maxMessages ≠ 0 → s.ids.length ≤ s.maxMessages

namespace LogWF

variable {s : MemoryStore} {msg : Message} {id : Str}

theorem newMemory : LogWF newMemory where
  index _ _ := by simp [SmppGateway.newMemory, MemoryStore.ids]
  bound := by simp [SmppGateway.newMemory, MemoryStore.ids]

theorem getMessage (wf : LogWF s) :
    id ∈ s.messageByID ↔ ∃ msg, s.getMessage id = some msg ∧ msg.id = id := by
  constructor
  case mp =>
    intro h
    obtain ⟨i, hi⟩ := Option.isSome_iff_exists.mp (AList.lookup_isSome.mpr h)
    have hm := (wf.index _ _).mp hi
    rw [MemoryStore.ids, List.getElem?_map, Option.map_eq_some_iff] at hm
    obtain ⟨msg, hm, rfl⟩ := hm
    exact ⟨msg, by simp [MemoryStore.getMessage, hi, hm], rfl⟩
  case mpr =>
    rintro ⟨msg, h, rfl⟩
    rw [MemoryStore.getMessage, Option.bind_eq_bind, Option.bind_eq_some_iff] at h
    obtain ⟨i, hi, _⟩ := h
    exact AList.lookup_isSome.mp (by simp [hi])

theorem putMessage_known (wf : LogWF s) (h : msg.id ∈ s.messageByID) :
    (s.putMessage msg).messageByID = s.messageByID ∧ (s.putMessage msg).ids = s.ids := by
  obtain ⟨i, hi⟩ := Option.isSome_iff_exists.mp (AList.lookup_isSome.mpr h)
  obtain ⟨hlt, he⟩ := List.getElem?_eq_some_iff.mp ((wf.index _ _).mp hi)
  rw [MemoryStore.putMessage, hi]
  refine ⟨rfl, ?_⟩
  rw [MemoryStore.ids, List.map_set, ← he]
  exact List.set_getElem_self hlt

theorem trimMessagesLocked (h : IsIndex s.messageByID s.ids) :
    IsIndex s.trimMessagesLocked.messageByID s.trimMessagesLocked.ids := by
  unfold MemoryStore.trimMessagesLocked
  split
  case isTrue => exact h
  case isFalse =>
    refine fun id i => MemoryStore.indexMessages_lookup ?_
    exact h.nodup.sublist ((List.drop_sublist ..).map _)

theorem putMessage (wf : LogWF s) (msg : Message) : LogWF (s.putMessage msg) := by
  by_cases hm : msg.id ∈ s.messageByID
  case pos =>
    have ⟨hi, hids⟩ := wf.putMessage_known hm
    exact ⟨by rw [hi, hids]; exact wf.index, by simpa [hids] using wf.bound⟩
  case neg =>
    refine ⟨?_, fun h₀ => ?_⟩
    case refine_1 =>
      rw [MemoryStore.putMessage, AList.lookup_eq_none.mpr hm]
      refine trimMessagesLocked ?_
      simpa [MemoryStore.ids] using wf.index.snoc hm
    case refine_2 =>
      rw [MemoryStore.putMessage_maxMessages] at h₀ ⊢
      rw [MemoryStore.putMessage_ids hm]
      exact length_keepNewest h₀

end LogWF

def StoreOp.inserts (s : MemoryStore) : StoreOp → Option Message
  | saveMessage msg                => some msg
  | submitAtomic now msg item opts =>
    match (s.submitAtomic now msg item opts).1 with
    | .ok res  => if res.duplicate then none else some msg
    | .error _ => none
  | _                              => none

-- The id that goes when the given message is saved: the oldest one, if the id is new and the log is
-- full.
def MemoryStore.evicted (s : MemoryStore) (msg : Message) : Option Str :=
  if msg.id ∉ s.messageByID ∧ s.maxMessages ≠ 0 ∧ s.maxMessages ≤ s.messages.length then
    s.ids.head?
  else
    none

inductive LogStep (s s' : MemoryStore) : Option Message → Prop
  | same (index : s'.messageByID = s.messageByID) (ids : s'.ids = s.ids)
      (max : s'.maxMessages = s.maxMessages) : LogStep s s' none
  | put {msg} (index : s'.messageByID = (s.putMessage msg).messageByID)
      (ids : s'.ids = (s.putMessage msg).ids) (max : s'.maxMessages = s.maxMessages) :
      LogStep s s' (some msg)

namespace MemoryStore

variable {s t : MemoryStore} {msg : Message}

theorem putMessage_congr (msg : Message) (hm : t.messages = s.messages)
    (hi : t.messageByID = s.messageByID) (hx : t.maxMessages = s.maxMessages) :
    (t.putMessage msg).messageByID = (s.putMessage msg).messageByID ∧
      (t.putMessage msg).messages = (s.putMessage msg).messages := by
  unfold putMessage trimMessagesLocked
  rw [hi, hm, hx]
  split
  case _ => exact ⟨rfl, rfl⟩
  case _ => simp only; split <;> exact ⟨rfl, rfl⟩

theorem modifyMessage_log {g : Str} {f : Message → Message} (hf : ∀ msg, (f msg).id = msg.id) :
    LogStep s (s.modifyMessage g f) none := by
  unfold modifyMessage
  split
  case _ i hi =>
    refine .same rfl ?_ rfl
    simp only [ids]
    refine List.ext_getElem? fun j => ?_
    simp only [List.getElem?_map, List.getElem?_modify]
    cases s.messages[j]? <;> simp
    split <;> simp [hf]
  case _ => exact .same rfl rfl rfl

end MemoryStore

theorem LogStep.mem_iff {s s' : MemoryStore} {m : Option Message} (h : LogStep s s' m) (id : Str) :
    id ∈ s'.messageByID ↔ id ∈ (m.elim s s.putMessage).messageByID := by
  cases h
  case same hi _ _ => simp [hi]
  case put msg hi _ _ => simp [hi]

theorem LogStep.trans_same {s t u : MemoryStore} (h₁ : LogStep s t none) (h₂ : LogStep t u none) :
    LogStep s u none := by
  cases h₁
  case same hi hm hx =>
    cases h₂
    case same hi' hm' hx' => exact .same (hi'.trans hi) (hm'.trans hm) (hx'.trans hx)

theorem LogWF.logStep {s s' : MemoryStore} (wf : LogWF s) {m : Option Message} (h : LogStep s s' m) : LogWF s' := by
  cases h
  case same hi hm hx => exact ⟨hi ▸ hm ▸ wf.index, hx ▸ hm ▸ wf.bound⟩
  case put msg hi hm hx =>
    have := wf.putMessage msg
    refine ⟨hi ▸ hm ▸ this.index, ?_⟩
    rw [hx, hm]
    simpa using this.bound

namespace MemoryStore

variable {s : MemoryStore} {now : Time} {workerID : Str}

theorem completeOutboxSend_log (id : Int) (ps : List Pending) :
    LogStep s (s.completeOutboxSend now id workerID ps).2 none := by
  unfold completeOutboxSend
  split
  case _ => exact .same rfl rfl rfl
  case _ item _ =>
    split
    case isTrue => exact .same rfl rfl rfl
    case isFalse =>
      split
      case isTrue => exact .same rfl rfl rfl
      case isFalse =>
        split
        case _ => exact .same rfl rfl rfl
        case _ recs _ =>
          split
          case isTrue =>
            have h : LogStep s (s.modifyMessage item.gatewayID fun msg =>
              { msg with
                providerID := (recs.head?.map (·.providerID)).getD []
                state := lit "sent", sentAt := now }) none := modifyMessage_log fun _ => rfl
            exact h.trans_same (.same rfl rfl rfl)
          case isFalse => exact .same rfl rfl rfl

theorem markOutboxUncertain_log (id : Int) (e : Str) :
    LogStep s (s.markOutboxUncertain now id workerID e).2 none := by
  unfold markOutboxUncertain
  split
  case _ => exact .same rfl rfl rfl
  case _ item _ =>
    split
    case isTrue => exact .same rfl rfl rfl
    case isFalse =>
      split
      case isTrue => exact .same rfl rfl rfl
      case isFalse =>
        have h : LogStep s { s with
          outbox := s.outbox.insert id { item with state := .uncertain, lastError := e } } none :=
            .same rfl rfl rfl
        exact h.trans_same (modifyMessage_log fun _ => rfl)

theorem submitAtomic_log {msg : Message} {item : OutboxItem} {opts : SubmitOptions} :
    LogStep s (s.submitAtomic now msg item opts).2
      ((StoreOp.submitAtomic now msg item opts).inserts s) := by
  simp only [StoreOp.inserts]
  cases submitAtomic_cases s now msg item opts
  case duplicate h => rw [h]; exact .same rfl rfl rfl
  case refused h => rw [h]; exact .same rfl rfl rfl
  case accepted d _ hq h =>
    rw [h]
    obtain ⟨i, hi⟩ := rememberKey_frame d now msg.id opts.idempotency
    rw [hi]
    obtain ⟨q, rfl⟩ := debitQuota_frame hq
    have ⟨hb, hm⟩ := putMessage_congr msg (s := s)
      (t := { s.sweepLocked now with quotaUsage := q, idempotency := i }) rfl rfl rfl
    refine .put hb (congrArg (List.map Message.id) hm) ?_
    exact putMessage_maxMessages

end MemoryStore

theorem StoreOp.exec_log {s : MemoryStore} (op : StoreOp) :
    LogStep s (op.exec s).2 (op.inserts s) := by
  cases op
  case saveMessage msg => exact .put rfl rfl MemoryStore.putMessage_maxMessages
  case submitAtomic => exact MemoryStore.submitAtomic_log
  case completeOutboxSend => exact MemoryStore.completeOutboxSend_log ..
  case markOutboxUncertain => exact MemoryStore.markOutboxUncertain_log ..
  all_goals
    simp only [exec, reply, inserts, MemoryStore.enqueueOutbox, MemoryStore.putOutbox,
      MemoryStore.claimOutbox, MemoryStore.markOutboxSending, MemoryStore.requeueStaleOutbox,
      MemoryStore.ackOutbox, MemoryStore.failOutbox]
    repeat' split
    all_goals exact .same rfl rfl rfl

end SmppGateway
