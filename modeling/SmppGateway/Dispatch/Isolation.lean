import SmppGateway.Dispatch.Apart
import SmppGateway.Dispatch.Ids

-- What receipts of one provider can do to the messages of the others: two runs of the gateway that differ in the
-- receipts of one provider only.

namespace SmppGateway

open Go Machine

def KeyOf (a k : Str) : Prop :=
  a ++ [0] <+: k

instance {a k : Str} : Decidable (KeyOf a k) :=
  inferInstanceAs (Decidable (a ++ [0] <+: k))

theorem keyOf_key {a : Str} {p : Pending} (ha : 0 ∉ a) (hp : 0 ∉ p.provider) : KeyOf a p.key ↔ p.provider = a := by
  constructor
  case mp =>
    rintro ⟨x, hx⟩
    rw [List.append_assoc] at hx
    exact (pendingKey_inj ha hp hx).1.symm
  case mpr =>
    rintro rfl
    exact ⟨p.providerID, by rw [List.append_assoc]; rfl⟩

theorem keyOf_dlr {a : Str} {dlr : Dlr} (h : dlr.provider = a) : KeyOf a dlr.key :=
  ⟨dlr.providerID, by rw [Dlr.key, pendingKey, h, List.append_assoc]; rfl⟩

def Handler.Within (p : Portion) (h : Handler) : Prop :=
  ∀ rec ∈ h.phase.record, rec.key = h.dlr.key ∧ p.has rec = p.keys h.dlr.key

def FlushLoop.Within (p : Portion) (inside : Bool) (l : FlushLoop) : Prop :=
  ∀ row ∈ l.rows, p.has row = inside ∧ p.keys row.key = inside

section Receipts

variable {p : Portion} {ts : List Time} {s s' : MemoryStore} {m : HandlerMove} {h : Handler} {l : FlushLoop}
  {systemID : Str} {order : List Str}

theorem MemoryStore.Split.listed (hs : s.Split p) {now : Time} {row : Pending}
    (h : row ∈ l.listed systemID s order now) : p.keys row.key = p.has row := by
  cases l
  case work | done => cases h
  case list =>
    obtain ⟨k, -, hk⟩ := List.mem_filterMap.mp (List.mem_of_mem_filter (List.mem_of_mem_take h))
    have hrow := (Map.lookup_filter_eq_some.mp hk).1
    rw [(hs.wf.pending _ _ hrow).1]
    exact hs.keys hrow

theorem Handler.step_key (s : MemoryStore) (h : Handler) (m : HandlerMove) : (h.step s m).1.dlr.key = h.dlr.key := by
  obtain ⟨hprovider, hid⟩ := h.step_dlr s m
  rw [Dlr.key, Dlr.key, hprovider, hid]

theorem Handler.Within.step (hh : h.Within p) (hs : s.Split p) (m : HandlerMove) : (h.step s m).1.Within p := by
  intro rec' hr
  rw [h.step_key]
  rcases Handler.step_record hr with ⟨rec, hrec, hp, hid, hg⟩ | ⟨-, hl⟩
  case inl =>
    obtain ⟨hkey, hhas⟩ := hh rec hrec
    refine ⟨?_, ?_⟩
    case refine_1 => rw [Pending.key, hp, hid, ← hkey, Pending.key]
    case refine_2 => rw [Portion.has, hg, ← Portion.has, hhas]
  case inr => exact ⟨(hs.wf.pending _ _ hl).1, (hs.keys hl).symm⟩

theorem FlushLoop.Within.step {inside : Bool} (hl : l.Within p inside) (hs : s.Split p)
    (hlisted : ∀ row ∈ l.listed systemID s order m.now, p.has row = inside) :
    (l.step systemID s order m).1.Within p inside := by
  intro row hrow
  rcases FlushLoop.mem_step_rows hrow with hold | hnew
  case inl => exact hl row hold
  case inr => exact ⟨hlisted row hnew, (hs.listed hnew).trans (hlisted row hnew)⟩

theorem Handler.Within.outside (hh : h.Within p) (hk : p.keys h.dlr.key = false) (m : HandlerMove) :
    ∀ c ∈ h.call? m, c.Outside p m.now := by
  have hkey : ∀ {rec}, h.phase.record = some rec → p.keys rec.key = false := fun hr => (hh _ hr).1 ▸ hk
  have hid : ∀ {rec}, h.phase.record = some rec → p.ids rec.gatewayID = false := fun hr => (hh _ hr).2.trans hk
  intro c hc
  cases hp : h.phase <;> rw [Handler.call?, hp] at hc <;> cases hc
  case lookup | list | relist => exact rfl
  case update | ready | mark => exact hkey (by rw [hp]; rfl)
  case write | delete => exact hid (by rw [hp]; rfl)

theorem Flush.outside {f : Flush} (hrow : p.has f.row = false) (hk : p.keys f.row.key = false) (m : HandlerMove) :
    ∀ c ∈ f.call? m, c.Outside p m.now := by
  intro c hc
  cases hp : f.phase <;> rw [call?, hp] at hc <;> cases hc
  case mark => exact hk
  case relist => exact rfl
  case delete => exact hrow

theorem MemoryStore.Apart.of_execOption (hs : s.Split p) {call : Option StoreCall} {now : Time}
    (hc : ∀ c ∈ call, c.Outside p now) (hfresh : s.Fresh p now) (hts : ∀ t ∈ ts, now ≤ t) :
    s.Apart p ts (StoreCall.execOption s call) := by
  cases call
  case none => exact .refl s
  case some c => exact .of_call hs (hc c rfl) hfresh hts

theorem Handler.Within.apart (hh : h.Within p) (hk : p.keys h.dlr.key = false) (hs : s.Split p)
    (hfresh : s.Fresh p m.now) (hts : ∀ t ∈ ts, m.now ≤ t) : s.Apart p ts (h.step s m).2 := by
  rw [h.step_store]
  exact .of_execOption hs (hh.outside hk m) hfresh hts

theorem FlushLoop.Within.apart (hl : l.Within p false) (hs : s.Split p) (systemID : Str) (order : List Str)
    (hfresh : s.Fresh p m.now) (hts : ∀ t ∈ ts, m.now ≤ t) : s.Apart p ts (l.step systemID s order m).2 := by
  cases l
  case list =>
    rw [step_list_store]
    exact .of_sweep hfresh hts
  case work f rest =>
    obtain ⟨hrow, hk⟩ := hl f.row List.mem_cons_self
    rw [step_work_store, f.step_store]
    exact .of_execOption hs (f.outside hrow hk m) hfresh hts
  case done => exact .refl s

theorem Handler.Within.step_alike (hh : h.Within p) (hk : p.keys h.dlr.key) (hs : s.Split p) (hs' : s'.Split p)
    (hr : s.Apart p ts s') (m : HandlerMove) : Alike (MemoryStore.Apart p ts) (h.step s m) (h.step s' m) := by
  have hkey : ∀ {rec}, h.phase.record = some rec → p.keys rec.key := fun hr => (hh _ hr).1 ▸ hk
  have hid : ∀ {rec}, h.phase.record = some rec → p.ids rec.gatewayID := fun hr => (hh _ hr).2.trans hk
  cases hp : h.phase <;> rw [hp] at hkey hid <;> simp only [Handler.step, hp]
  case lookup =>
    obtain ⟨x, t, t', hx, hx', ht⟩ := (hr.getPending hs hs' hk m.now).cases
    rw [hx, hx']
    cases x <;> exact ⟨rfl, ht⟩
  case update rec =>
    rw [MemoryStore.updatePendingDLR, MemoryStore.updatePendingDLR]
    obtain ⟨x, t, t', hx, hx', ht⟩ := (hr.modifyPending hs hs' (hkey rfl) _).cases
    rw [hx, hx']
    cases x <;> exact ⟨rfl, ht⟩
  case list rec =>
    obtain ⟨x, t, t', hx, hx', ht⟩ := (hr.listPendingByGatewayID hs hs' (hid rfl) m.now).cases
    rw [hx, hx']
    exact ⟨rfl, ht⟩
  case write rec aggregate => exact ⟨rfl, (hr.updateMessageState m.now _ _ _).2⟩
  case push => split <;> exact ⟨rfl, hr⟩
  case ready rec => exact ⟨rfl, (hr.modifyPending hs hs' (hkey rfl) _).2⟩
  case mark rec =>
    rw [MemoryStore.markDLRDelivered, MemoryStore.markDLRDelivered]
    obtain ⟨x, t, t', hx, hx', ht⟩ := (hr.modifyPending hs hs' (hkey rfl) _).cases
    rw [hx, hx']
    cases x <;> exact ⟨rfl, ht⟩
  case relist rec =>
    obtain ⟨x, t, t', hx, hx', ht⟩ := (hr.listPendingByGatewayID hs hs' (hid rfl) m.now).cases
    rw [hx, hx']
    exact ⟨rfl, ht⟩
  case delete rec => exact ⟨rfl, hr.deletePendingByGatewayID rec.gatewayID⟩
  case done => exact ⟨rfl, hr⟩

theorem Flush.step_alike {f : Flush} (hrow : p.has f.row) (hk : p.keys f.row.key) (hs : s.Split p) (hs' : s'.Split p)
    (hr : s.Apart p ts s') (m : HandlerMove) : Alike (MemoryStore.Apart p ts) (f.step s m) (f.step s' m) := by
  cases hp : f.phase <;> simp only [step, hp]
  case listed | push | done => exact ⟨rfl, hr⟩
  case mark =>
    rw [MemoryStore.markDLRDelivered, MemoryStore.markDLRDelivered]
    obtain ⟨x, t, t', hx, hx', ht⟩ := (hr.modifyPending hs hs' hk _).cases
    rw [hx, hx']
    cases x <;> exact ⟨rfl, ht⟩
  case relist =>
    obtain ⟨x, t, t', hx, hx', ht⟩ := (hr.listPendingByGatewayID hs hs' hrow m.now).cases
    rw [hx, hx']
    exact ⟨rfl, ht⟩
  case delete => exact ⟨rfl, hr.deletePendingByGatewayID f.row.gatewayID⟩

theorem FlushLoop.Within.step_alike (hl : l.Within p true) (hs : s.Split p) (hs' : s'.Split p) (hr : s.Apart p ts s')
    (hlisted : ∀ row ∈ l.listed systemID s order m.now, p.has row)
    (hlisted' : ∀ row ∈ l.listed systemID s' order m.now, p.has row) :
    Alike (MemoryStore.Apart p ts) (l.step systemID s order m) (l.step systemID s' order m) := by
  cases l
  case list =>
    obtain ⟨x, t, t', hx, hx', ht⟩ := (hr.listReadyDLR hlisted hlisted').cases
    simp only [FlushLoop.step, hx, hx']
    cases x <;> exact ⟨rfl, ht⟩
  case work f rest =>
    obtain ⟨hrow, hk⟩ := hl f.row List.mem_cons_self
    obtain ⟨x, t, t', hx, hx', ht⟩ := (f.step_alike hrow hk hs hs' hr m).cases
    simp only [FlushLoop.step, hx, hx']
    obtain ⟨row, phase⟩ := x
    cases phase <;> exact ⟨rfl, ht⟩
  case done => exact ⟨rfl, hr⟩

end Receipts

inductive StoreCall.Submits (c : SubmitChance) : StoreCall → Prop
  | check (clientID key : Str) : Submits c (.checkIdempotency c.storeNow clientID key)
  | submit {msg : Message} {item : OutboxItem} (opts : SubmitOptions) (id : c.gatewayID = some msg.id)
    (gatewayID : item.gatewayID = msg.id) (payloadID : item.payload.gatewayID = msg.id)
    (provider : item.provider = msg.provider) (payload : item.payload.provider = msg.provider) :
    Submits c (.outbox (.submitAtomic c.storeNow msg item opts))

theorem Submitter.queueCall?_submits (d : Submitter) (c : SubmitChance) (identity : Option Identity) (env : Envelope) :
    ∀ call ∈ d.queueCall? c identity env, call.Submits c := by
  intro call hcall
  unfold queueCall? at hcall
  split at hcall
  case h_1 => cases hcall
  case h_2 sub hsub =>
    split at hcall
    case isTrue => cases hcall
    case isFalse =>
      cases hcall
      obtain ⟨⟨env₁, router, route⟩, -, hsub⟩ := Parse.bind_eq_ok.mp hsub
      obtain ⟨env₂, -, hsub⟩ := Parse.bind_eq_ok.mp hsub
      split at hsub
      case h_1 => cases hsub
      case h_2 gatewayID hid =>
        split at hsub
        case h_1 => cases hsub
        case h_2 => cases hsub; exact .submit _ hid rfl rfl rfl rfl

theorem Submitter.call?_submits (d : Submitter) (c : SubmitChance) (env : Envelope) :
    ∀ call ∈ d.call? c env, call.Submits c := by
  intro call hcall
  simp only [call?] at hcall
  split at hcall
  case h_1 => exact d.queueCall?_submits c _ _ call hcall
  case h_2 =>
    split at hcall
    case isTrue => cases hcall
    case isFalse =>
      split at hcall
      case isTrue => cases hcall; exact .check _ _
      case isFalse => exact d.queueCall?_submits c _ _ call hcall

theorem MemoryStore.Apart.submit {p : Portion} {ts : List Time} {s s' : MemoryStore} (h : s.Apart p ts s')
    {d : Submitter} {c : SubmitChance} (ht : c.storeNow ∈ ts) (env : Envelope) :
    (d.submit s c env).2.Apart p ts (d.submit s' c env).2 := by
  rw [d.submit_store, d.submit_store]
  have hsubmits := d.call?_submits c env
  cases hcall : d.call? c env
  case none => exact h
  case some call =>
    cases hsubmits call hcall
    case check => exact h.checkIdempotency ht _ _
    case submit => exact h.submitAtomic ht _ _ _

namespace RelayEvent

def gatewayID? : RelayEvent → Option Str
  | .submit _ c _ => c.gatewayID
  | _             => none

def routed? : RelayEvent → Option (Str × Str)
  | .submit d c env =>
    match d.call? c env with
    | some (.outbox (.submitAtomic _ msg _ _)) => some (msg.id, msg.provider)
    | _                                        => none
  | _ => none

def Clean (e : RelayEvent) : Prop :=
  ∀ x ∈ e.routed?, 0 ∉ x.2

instance (e : RelayEvent) : Decidable e.Clean :=
  inferInstanceAs (Decidable (∀ x ∈ e.routed?, 0 ∉ x.2))

end RelayEvent

def ownerOf (es : List RelayEvent) (g : Str) : Str :=
  ((Map.insertAll (·.1) (·.2) ∅ (es.filterMap RelayEvent.routed?)).lookup g).getD []

theorem RelayEvent.routed?_id {e : RelayEvent} {x : Str × Str} (h : e.routed? = some x) : e.gatewayID? = some x.1 := by
  cases e <;> simp only [routed?, reduceCtorEq] at h
  case submit d c env =>
    split at h
    case h_2 => cases h
    case h_1 hcall =>
      cases h
      cases d.call?_submits c env _ hcall
      case submit id _ _ _ _ => exact id

theorem ownerOf_routed {es : List RelayEvent} (hids : (es.filterMap RelayEvent.gatewayID?).Nodup) {e : RelayEvent}
    (he : e ∈ es) {x : Str × Str} (hx : e.routed? = some x) : ownerOf es x.1 = x.2 := by
  have hsub : ((es.filterMap RelayEvent.routed?).map (·.1)).Sublist (es.filterMap RelayEvent.gatewayID?) := by
    clear he hx hids
    induction es
    case nil => exact .slnil
    case cons e es ih =>
      rw [List.filterMap_cons, List.filterMap_cons]
      cases hr : e.routed?
      case none =>
        cases e.gatewayID?
        case none => exact ih
        case some => exact ih.cons _
      case some y =>
        rw [RelayEvent.routed?_id hr]
        exact ih.cons_cons _
  have hmem : x ∈ es.filterMap RelayEvent.routed? := List.mem_filterMap.mpr ⟨e, he, hx⟩
  rw [ownerOf, Map.lookup_insertAll_of_mem (hsub.nodup hids) hmem]
  rfl

theorem RelayEvent.owned_ownerOf {es : List RelayEvent} (hids : (es.filterMap RelayEvent.gatewayID?).Nodup)
    {e : RelayEvent} (he : e ∈ es) (hclean : e.Clean) : e.Owned (ownerOf es) := by
  cases e
  case submit d c env =>
    intro call hcall
    cases d.call?_submits c env call hcall
    case check => trivial
    case submit msg item opts id gatewayID payloadID provider payload =>
      have hrouted : (RelayEvent.submit d c env).routed? = some (msg.id, msg.provider) := by
        rw [routed?, Option.mem_def.mp hcall]
      have hown := ownerOf_routed hids he hrouted
      have hz := hclean _ hrouted
      refine ⟨hown.symm, ⟨?_, ?_, ?_, ?_⟩⟩
      case refine_1 => rw [provider, gatewayID, hown]
      case refine_2 => rw [provider]; exact hz
      case refine_3 => rw [payloadID, gatewayID]
      case refine_4 => rw [payload, provider]
  all_goals trivial

namespace RelayEvent

def dropped (drop : Nat → Bool) : RelayEvent → Bool
  | .receive i _ | .handle i _ => drop i
  | _                          => false

-- The calls that are left out are about receipts of the provider.
def About (a : Str) (drop : Nat → Bool) : RelayEvent → Prop
  | .receive i dlr => drop i → dlr.provider = a
  | _              => True

instance {a : Str} {drop : Nat → Bool} : (e : RelayEvent) → Decidable (e.About a drop)
  | .receive i dlr => inferInstanceAs (Decidable (drop i → dlr.provider = a))
  | .submit .. | .requeueStaleOutbox .. | .claimOutbox .. | .move .. | .failing .. | .handle .. | .flushDLR ..
  | .flush .. => .isTrue trivial

def submitTime? : RelayEvent → Option Time
  | .submit _ c _ => some c.storeNow
  | _             => none

end RelayEvent

namespace Relay

-- The time that a step of a receipt with one of these keys, or of one of these calls of `FlushDLR`, reads.
def time? (keys : Str → Bool) (calls : Nat → Bool) (w : Relay) : RelayEvent → Option Time
  | .handle i m      => (w.handlers.lookup i).bind fun h => if keys h.dlr.key then some m.now else none
  | .flush i now _ _ => if calls i then some now else none
  | _                => none

def Lists (has : Pending → Bool) (calls : Nat → Bool) (w : Relay) : RelayEvent → Prop
  | .flush i now order _ =>
    ∀ c ∈ w.calls.lookup i, ∀ row ∈ c.loop.listed c.systemID w.store order now, has row = calls i
  | _ => True

instance {has : Pending → Bool} {calls : Nat → Bool} {w : Relay} : (e : RelayEvent) → Decidable (w.Lists has calls e)
  | .flush i now order _ => inferInstanceAs (Decidable
    (∀ c ∈ w.calls.lookup i, ∀ row ∈ c.loop.listed c.systemID w.store order now, has row = calls i))
  | .submit .. | .requeueStaleOutbox .. | .claimOutbox .. | .move .. | .failing .. | .receive .. | .handle ..
  | .flushDLR .. => .isTrue trivial

structure Run (p : Portion) (calls drop : Nat → Bool) (w : Relay) : Prop where
  handlers : ∀ {i h}, w.handlers.lookup i = some h → h.Within p
  calls    : ∀ {i c}, w.calls.lookup i = some c → c.loop.Within p (calls i)
  dropped  : ∀ {i h}, drop i → w.handlers.lookup i = some h → p.keys h.dlr.key = false

-- The run with all receipts, and the run without those that are left out.
structure Beside (p : Portion) (calls drop : Nat → Bool) (ts : List Time) (w v : Relay) : Prop where
  store    : w.store.Apart p ts v.store
  threads  : w.threads = v.threads
  handlers : ∀ i, drop i = false → Option.Rel
    (fun h h' => h = h' ∨ p.keys h.dlr.key = false ∧ p.keys h'.dlr.key = false) (w.handlers.lookup i) (v.handlers.lookup i)
  calls    : ∀ i, Option.Rel (fun c c' => calls i → c = c') (w.calls.lookup i) (v.calls.lookup i)

variable {p : Portion} {calls drop : Nat → Bool} {ts : List Time} {w v : Relay} {d : Dispatcher}
  {e : RelayEvent} {i : Nat}

theorem Run.init : Run p calls drop Relay.init where
  handlers h  := nomatch h
  calls h     := nomatch h
  dropped _ h := nomatch h

theorem Run.step (hw : Run p calls drop w) (hs : w.store.Split p) (hlists : w.Lists p.has calls e)
    (hdrop : ∀ {i dlr}, e = .receive i dlr → drop i → p.keys dlr.key = false) : Run p calls drop (w.step d e) := by
  cases e
  case receive i dlr =>
    refine ⟨fun {j h} hj => ?_, hw.calls, fun {j h} hd hj => ?_⟩ <;>
      simp only [Relay.step, Map.lookup_insert_eq] at hj <;> split at hj
    case refine_1.isTrue => cases hj; rintro _ ⟨⟩
    case refine_1.isFalse => exact hw.handlers hj
    case refine_2.isTrue heq => cases hj; exact hdrop rfl (heq ▸ hd)
    case refine_2.isFalse => exact hw.dropped hd hj
  case handle i m =>
    simp only [Relay.step]
    split
    case h_1 => exact hw
    case h_2 c hc =>
      refine ⟨fun {j h} hj => ?_, hw.calls, fun {j h} hd hj => ?_⟩ <;>
        simp only [Map.lookup_insert_eq] at hj <;> split at hj
      case refine_1.isTrue => cases hj; exact (hw.handlers hc).step hs m
      case refine_1.isFalse => exact hw.handlers hj
      case refine_2.isTrue heq => cases hj; rw [c.step_key]; exact hw.dropped (heq ▸ hd) hc
      case refine_2.isFalse => exact hw.dropped hd hj
  case flushDLR i systemID =>
    refine ⟨hw.handlers, fun {j c} hj => ?_, hw.dropped⟩
    simp only [Relay.step, Map.lookup_insert_eq] at hj
    split at hj
    case isTrue => cases hj; rintro _ ⟨⟩
    case isFalse => exact hw.calls hj
  case flush i now order outcome =>
    simp only [Relay.step]
    split
    case h_1 => exact hw
    case h_2 c hc =>
      refine ⟨hw.handlers, fun {j c'} hj => ?_, hw.dropped⟩
      simp only [Map.lookup_insert_eq] at hj
      split at hj
      case isTrue heq =>
        cases hj
        rw [heq]
        refine (hw.calls hc).step hs ?_
        rw [c.loop.move_now]
        exact hlists c hc
      case isFalse => exact hw.calls hj
  case move | failing => simp only [Relay.step]; split <;> exact ⟨hw.handlers, hw.calls, hw.dropped⟩
  all_goals exact ⟨hw.handlers, hw.calls, hw.dropped⟩

namespace Beside

theorem init : Beside p calls drop ts Relay.init Relay.init where
  store        := .refl newMemory
  threads      := rfl
  handlers _ _ := .none
  calls _      := .none

theorem mono {ts' : List Time} (h : Beside p calls drop ts w v) (hts : ts' ⊆ ts) : Beside p calls drop ts' w v :=
  { h with store := h.store.mono hts }

theorem withHandlers {c c' : Handler} {s s' : MemoryStore} (h : Beside p calls drop ts w v) (hs : s.Apart p ts s')
    (hc : c = c' ∨ p.keys c.dlr.key = false ∧ p.keys c'.dlr.key = false) :
    Beside p calls drop ts { w with store := s, handlers := w.handlers.insert i c }
      { v with store := s', handlers := v.handlers.insert i c' } := by
  refine ⟨hs, h.threads, fun j hj => ?_, h.calls⟩
  simp only [Map.lookup_insert_eq]
  split
  case isTrue => exact .some hc
  case isFalse => exact h.handlers j hj

theorem withCalls {c c' : FlushDLRCall} {s s' : MemoryStore} (h : Beside p calls drop ts w v) (hs : s.Apart p ts s')
    (hc : calls i → c = c') : Beside p calls drop ts { w with store := s, calls := w.calls.insert i c }
      { v with store := s', calls := v.calls.insert i c' } := by
  refine ⟨hs, h.threads, h.handlers, fun j => ?_⟩
  simp only [Map.lookup_insert_eq]
  split
  case isTrue heq => exact .some (heq ▸ hc)
  case isFalse => exact h.calls j

def Spared (p : Portion) (calls : Nat → Bool) (ts : List Time) (w : Relay) (e : RelayEvent) : Prop :=
  ∀ t ∈ w.time? (!p.keys ·) (!calls ·) e, w.store.Fresh p t ∧ ∀ t' ∈ ts, t ≤ t'

theorem skip (h : Beside p calls drop ts w v) (hw : Run p calls drop w) (hs : w.store.Split p)
    (hdropped : e.dropped drop) (hspared : Spared p calls ts w e) : Beside p calls drop ts (w.step d e) v := by
  have hne : ∀ {i j : Nat}, drop i → drop j = false → j ≠ i := by
    rintro i _ hi hj rfl
    cases hi.symm.trans hj
  cases e <;> simp only [RelayEvent.dropped, Bool.false_eq_true] at hdropped
  case receive i dlr =>
    refine ⟨h.store, h.threads, fun j hj => ?_, h.calls⟩
    simp only [Relay.step, AList.lookup_insert_ne (hne hdropped hj)]
    exact h.handlers j hj
  case handle i m =>
    simp only [Relay.step]
    split
    case h_1 => exact h
    case h_2 c hc =>
      have hk := hw.dropped hdropped hc
      obtain ⟨hfresh, htimes⟩ := hspared m.now (by simp [time?, hc, hk])
      refine ⟨?_, h.threads, fun j hj => ?_, h.calls⟩
      case refine_1 => exact ((hw.handlers hc).apart hk hs hfresh htimes).symm.trans h.store
      case refine_2 =>
        simp only [AList.lookup_insert_ne (hne hdropped hj)]
        exact h.handlers j hj

theorem handle (h : Beside p calls drop ts w v) (hw : Run p calls drop w) (hv : Run p calls drop v)
    (hs : w.store.Split p) (hs' : v.store.Split p) {m : HandlerMove} (hi : drop i = false)
    (hspared : Spared p calls ts w (.handle i m)) :
    Beside p calls drop ts (w.step d (.handle i m)) (v.step d (.handle i m)) := by
  have hrel := h.handlers i hi
  simp only [Relay.step]
  cases hc : w.handlers.lookup i <;> cases hc' : v.handlers.lookup i <;> rw [hc, hc'] at hrel <;> cases hrel
  case none => exact h
  case some c c' hcc =>
    cases hk : p.keys c.dlr.key
    case true =>
      obtain rfl : c = c' := hcc.resolve_right fun hn => Bool.noConfusion (hk.symm.trans hn.1)
      obtain ⟨hstep, hstore⟩ := (hw.handlers hc).step_alike hk hs hs' h.store m
      exact h.withHandlers hstore (.inl hstep)
    case false =>
      have hk' : p.keys c'.dlr.key = false := by
        rcases hcc with rfl | ⟨-, hk'⟩
        case inl => exact hk
        case inr => exact hk'
      obtain ⟨hfresh, htimes⟩ := hspared m.now (by simp [time?, hc, hk])
      have hapart := (hw.handlers hc).apart hk hs hfresh htimes
      have hapart' := (hv.handlers hc').apart hk' hs' (h.store.fresh hfresh) htimes
      refine h.withHandlers (hapart.symm.trans (h.store.trans hapart')) (.inr ⟨?_, ?_⟩)
      case refine_1 => rw [c.step_key, hk]
      case refine_2 => rw [c'.step_key, hk']

theorem flush (h : Beside p calls drop ts w v) (hw : Run p calls drop w) (hv : Run p calls drop v)
    (hs : w.store.Split p) (hs' : v.store.Split p) {now : Time} {order : List Str} {outcome : Pending → PushOutcome}
    (hlists : w.Lists p.has calls (.flush i now order outcome))
    (hlists' : v.Lists p.has calls (.flush i now order outcome))
    (hspared : Spared p calls ts w (.flush i now order outcome)) :
    Beside p calls drop ts (w.step d (.flush i now order outcome)) (v.step d (.flush i now order outcome)) := by
  have hrel := h.calls i
  simp only [Relay.step]
  cases hc : w.calls.lookup i <;> cases hc' : v.calls.lookup i <;> rw [hc, hc'] at hrel <;> cases hrel
  case none => exact h
  case some c c' hcc =>
    have hl := hw.calls hc
    have hl' := hv.calls hc'
    cases hi : calls i <;> rw [hi] at hl hl'
    case true =>
      obtain rfl : c = c' := hcc hi
      have hrows := hlists c hc
      have hrows' := hlists' c hc'
      rw [hi, ← c.loop.move_now now outcome] at hrows hrows'
      obtain ⟨hstep, hstore⟩ := hl.step_alike hs hs' h.store hrows hrows'
      refine h.withCalls hstore fun _ => ?_
      rw [hstep]
    case false =>
      obtain ⟨hfresh, htimes⟩ := hspared now (by simp [time?, hi])
      have hapart : w.store.Apart p ts (c.loop.step c.systemID w.store order (c.loop.move now outcome)).2 :=
        hl.apart hs _ _ (by rwa [c.loop.move_now]) (by rwa [c.loop.move_now])
      have hapart' : v.store.Apart p ts (c'.loop.step c'.systemID v.store order (c'.loop.move now outcome)).2 :=
        hl'.apart hs' _ _ (by rw [c'.loop.move_now]; exact h.store.fresh hfresh) (by rwa [c'.loop.move_now])
      exact h.withCalls (hapart.symm.trans (h.store.trans hapart')) fun htrue => Bool.noConfusion (hi.symm.trans htrue)

theorem both (h : Beside p calls drop ts w v) (hw : Run p calls drop w) (hv : Run p calls drop v) (hs : w.store.Split p)
    (hs' : v.store.Split p) (hdropped : e.dropped drop = false) (hlists : w.Lists p.has calls e)
    (hlists' : v.Lists p.has calls e) (hspared : Spared p calls ts w e) (hsubmit : ∀ t ∈ e.submitTime?, t ∈ ts) :
    Beside p calls drop ts (w.step d e) (v.step d e) := by
  cases e
  case submit sub c env => exact ⟨h.store.submit (hsubmit c.storeNow rfl) env, h.threads, h.handlers, h.calls⟩
  case requeueStaleOutbox order before limit =>
    exact ⟨h.store.requeueStaleOutbox order before limit, h.threads, h.handlers, h.calls⟩
  case claimOutbox now workerID limit fault =>
    have hclaim := fault.apply_alike h.store (h.store.claimOutbox now workerID limit)
    refine ⟨hclaim.2, ?_, h.handlers, h.calls⟩
    simp only [Relay.step, h.threads, hclaim.1]
  case move i m =>
    simp only [Relay.step, ← h.threads]
    split
    case h_1 => exact h
    case h_2 th _ =>
      obtain ⟨hth, hstore⟩ := th.step_alike (MemoryStore.Apart.respects d th.item) h.store m
      refine ⟨hstore, ?_, h.handlers, h.calls⟩
      simp only [hth]
  case failing i call =>
    simp only [Relay.step, ← h.threads]
    split
    case h_1 => exact h
    case h_2 th _ =>
      exact ⟨FailCall.exec_respects (MemoryStore.Apart.respects d th.item) h.store call, rfl, h.handlers, h.calls⟩
  case receive i dlr => exact h.withHandlers h.store (.inl rfl)
  case handle i m => exact h.handle hw hv hs hs' hdropped hspared
  case flushDLR i systemID => exact h.withCalls h.store fun _ => rfl
  case flush i now order outcome => exact h.flush hw hv hs hs' hlists hlists' hspared

end Beside

end Relay

-- What receipts of a provider draw in: messages of other providers, the keys of their rows, and calls of `FlushDLR`.
structure Drawn where
  ids   : Str → Bool := fun _ => false
  keys  : Str → Bool := fun _ => false
  calls : Nat → Bool := fun _ => false

namespace Drawn

def row (a : Str) (x : Drawn) (row : Pending) : Bool :=
  row.provider = a || x.ids row.gatewayID

def key (a : Str) (x : Drawn) (k : Str) : Bool :=
  KeyOf a k || x.keys k

-- When a receipt of the provider, or one that is drawn in, is handled or flushed, no other row has expired, and no
-- later submission reads an earlier time.
def Spares (d : Dispatcher) (a : Str) (x : Drawn) : Relay → List RelayEvent → Prop
  | _, []      => True
  | w, e :: es =>
    (∀ t ∈ w.time? (x.key a) x.calls e, (∀ r ∈ w.store.pending.entries, x.row a r.2 = false → r.2.live t) ∧
      ∀ t' ∈ es.filterMap RelayEvent.submitTime?, t ≤ t') ∧ Spares d a x (w.step d e) es

-- A message is drawn in with its rows, and a call of `FlushDLR` with all that it lists.
structure Closed (a : Str) (x : Drawn) (w : Relay) (e : RelayEvent) : Prop where
  keys  : ∀ r ∈ w.store.pending.entries, r.2.provider ≠ a → x.ids r.2.gatewayID = x.keys r.1
  lists : w.Lists (x.row a) x.calls e

instance Spares.decidable {d : Dispatcher} {a : Str} {x : Drawn} :
    (w : Relay) → (es : List RelayEvent) → Decidable (x.Spares d a w es)
  | _, []      => .isTrue trivial
  | w, e :: es =>
    have := decidable (d := d) (a := a) (x := x) (w.step d e) es
    inferInstanceAs (Decidable (_ ∧ _))

instance {a : Str} {x : Drawn} {w : Relay} {e : RelayEvent} : Decidable (x.Closed a w e) :=
  decidable_of_iff ((∀ r ∈ w.store.pending.entries, r.2.provider ≠ a → x.ids r.2.gatewayID = x.keys r.1) ∧
    w.Lists (x.row a) x.calls e) ⟨fun h => ⟨h.1, h.2⟩, fun h => ⟨h.keys, h.lists⟩⟩

def rest (own : Str → Str) (a : Str) (x : Drawn) : Portion where
  ids g  := !(own g = a || x.ids g)
  keys k := !x.key a k

variable {own : Str → Str} {a b : Str} {x : Drawn} {d : Dispatcher} {drop : Nat → Bool} {w : Relay} {s s' : MemoryStore}
  {e : RelayEvent} {es : List RelayEvent}

theorem rest_has {row : Pending} (h : Belongs own row) : (x.rest own a).has row = !x.row a row := by
  simp only [Portion.has, rest, Drawn.row, h.provider]

theorem rest_ids {g : Str} (hg : own g = b) (hab : a ≠ b) : (x.rest own a).ids g = !x.ids g := by
  simp [rest, hg, hab.symm]

theorem Closed.split (h : x.Closed a w e) (hw : w.store.Owned own) (ha : 0 ∉ a) : w.store.Split (x.rest own a) where
  wf   := hw.wf
  keys := by
    intro k row hl
    have hrow := hw.rows hl
    have hkey := keyOf_key ha hrow.clean
    rw [(hw.wf.pending _ _ hl).1] at hkey
    rw [rest_has hrow]
    simp only [rest, key, Drawn.row, hkey]
    by_cases hp : row.provider = a
    case pos => simp [hp]
    case neg => rw [h.keys _ (Map.mem_entries_iff.mpr hl) hp]

theorem Closed.within (h : x.Closed a w e) (hw : w.store.Owned own) : w.Lists (x.rest own a).has (!x.calls ·) e := by
  have hlists := h.lists
  cases e
  case flush i now order outcome =>
    intro c hc row hrow
    have hb : Belongs own row := by
      cases hl : c.loop <;> rw [hl] at hrow
      case work | done => cases hrow
      case list =>
        obtain ⟨k, -, hk⟩ := List.mem_filterMap.mp (List.mem_of_mem_filter (List.mem_of_mem_take hrow))
        exact (hw.sweepLocked now).rows hk
    rw [rest_has hb, hlists c hc row hrow]
  all_goals trivial

theorem Spares.spared (h : x.Spares d a w (e :: es)) (hw : w.store.Owned own) :
    Relay.Beside.Spared (x.rest own a) (!x.calls ·) ((e :: es).filterMap RelayEvent.submitTime?) w e := by
  intro t ht
  simp only [rest, Bool.not_not] at ht
  obtain ⟨hlive, htimes⟩ := h.1 t ht
  refine ⟨fun r hr hrow => ?_, ?_⟩
  case refine_1 =>
    rw [rest_has (hw.rows (Map.mem_entries_iff.mp hr))] at hrow
    exact hlive r hr (by simpa using hrow)
  case refine_2 =>
    -- A step of a receipt is not a submission.
    have hnone : e.submitTime? = none := by
      cases e
      case submit => cases ht
      all_goals rfl
    rw [List.filterMap_cons_none hnone]
    exact htimes

theorem rows_eq (hab : a ≠ b) (hs : s.Owned own) (hs' : s'.Owned own) (h : s.Apart (x.rest own a) [] s') (k : Str) :
    (s'.pending.lookup k).filter (fun row => row.provider = b && !x.ids row.gatewayID) =
      (s.pending.lookup k).filter (fun row => row.provider = b && !x.ids row.gatewayID) := by
  have hkeep : ∀ {t : MemoryStore}, t.Owned own →
      (t.pending.lookup k).filter (fun row => row.provider = b && !x.ids row.gatewayID) =
        ((t.pending.lookup k).filter (x.rest own a).has).filter (·.provider = b) := by
    intro t ht
    rw [Option.filter_filter]
    cases hl : t.pending.lookup k
    case none => rfl
    case some row =>
      have hown := (ht.rows hl).provider
      by_cases hp : row.provider = b
      case pos => simp [Option.filter_some, hp, Portion.has, rest_ids (hown.symm.trans hp) hab]
      case neg => simp [Option.filter_some, hp]
  rw [hkeep hs, hkeep hs', h.rows]

theorem messages_eq (hab : a ≠ b) (hs : s.Owned own) (hs' : s'.Owned own) (h : s.Apart (x.rest own a) [] s') :
    s'.messages.filter (fun m => m.provider = b && !x.ids m.id) =
      s.messages.filter (fun m => m.provider = b && !x.ids m.id) := by
  have hkeep : ∀ {t : MemoryStore}, t.Owned own → t.messages.filter (fun m => m.provider = b && !x.ids m.id) =
      (t.messages.map (Message.hide (x.rest own a))).filter (fun m => m.provider = b && !x.ids m.id) := by
    intro t ht
    rw [List.filter_map]
    simp only [Function.comp_def, Message.hide_provider, Message.hide_id]
    refine (List.map_id _).symm.trans (List.map_congr_left fun m hm => ?_)
    obtain ⟨hm, hkept⟩ := List.mem_filter.mp hm
    rw [Bool.and_eq_true, decide_eq_true_eq] at hkept
    have hids : (x.rest own a).ids m.id = !x.ids m.id := rest_ids ((ht.messages m hm).symm.trans hkept.1) hab
    exact (Message.hide_of_mem (hids.trans hkept.2)).symm
  rw [hkeep hs, hkeep hs', h.messages]

end Drawn

def twoProviders : Submitter where
  router := some {
    matchRoute     := fun _ => some { name := lit "all" }
    selectProvider := fun _ id => some (if id = lit "m0000001" then lit "alpha" else lit "beta") }
  validateDest := false

def submitFor (id : Str) : RelayEvent :=
  .submit twoProviders { now := 1, storeNow := 1, gatewayID := some id } {
    sender := lit "s", dest := lit "1", text := [], registeredDelivery := 1
    source := { kind := .smpp, smppSystemID := lit "esme" } }

def sendWith (i : Nat) (providerID : Str) (now : Time) : List RelayEvent :=
  [.move i (.resolve true), .move i (.mark .none false), .move i (.send now (.ok [providerID])),
    .move i (.complete now .none false)]

def receiptOf (i : Nat) (provider : Str) (m : HandlerMove) : List RelayEvent :=
  .receive i { provider, providerID := lit "x", state := lit "DELIVRD" } :: List.replicate 8 (.handle i m)

def flushTimes (n : Nat) (now : Time) (refused : Str) : List RelayEvent :=
  .flushDLR 0 (lit "esme") :: List.replicate n (.flush 0 now
    [pendingKey (lit "alpha") (lit "x"), pendingKey (lit "beta") (lit "x")]
    fun row => if row.provider = refused then .deferred else .accepted)

def issueThree : List IssueEvent :=
  [.newDispatcher 0, .newGatewayID 0, .reserved 0 true, .newGatewayID 0, .newGatewayID 0]

-- The receipt of the second message waits for its receiver, who then takes it. When that of the first one comes, the
-- row of the third has expired and the others have not.
def threeSent : List RelayEvent :=
  [submitFor (lit "m0000001"), submitFor (lit "m0000002"), submitFor (lit "m0000003"), .claimOutbox 2 (lit "w") 3 .none] ++
    sendWith 0 (lit "x") second ++ sendWith 1 (lit "x") second ++ sendWith 2 (lit "y") 3 ++
    receiptOf 1 (lit "beta") { now := second, outcome := .deferred } ++ flushTimes 4 second [] ++
    receiptOf 0 (lit "alpha") { now := second + 4 }

def thirdDrawn : Drawn where
  ids  := (· == lit "m0000003")
  keys := (· == pendingKey (lit "beta") (lit "y"))

def bothSent : List RelayEvent :=
  [submitFor (lit "m0000001"), submitFor (lit "m0000002"), .claimOutbox 2 (lit "w") 2 .none] ++
    sendWith 0 (lit "x") 3 ++ sendWith 1 (lit "x") 3

-- A submission under a key, and the same again with the clock set back, with a receipt of the first provider between.
def keyRepeated : List RelayEvent :=
  let env : Envelope := {
    sender := lit "s", dest := lit "1", text := [], clientID := lit "c", clientMsgID := lit "k"
    source := { kind := .smpp } }
  .submit twoProviders { now := 1, storeNow := 1, gatewayID := some (lit "m0000001") } env ::
    receiptOf 0 (lit "alpha") { now := 25 * hour } ++
    [.submit twoProviders { now := 2, storeNow := 2, gatewayID := some (lit "m0000002") } env]

-- Receipts of both providers wait, and the receiver refuses that of the first one.
def oneRefused : List RelayEvent :=
  bothSent ++ receiptOf 0 (lit "alpha") { now := 4, outcome := .deferred } ++
    receiptOf 1 (lit "beta") { now := 4, outcome := .deferred } ++ flushTimes 7 4 (lit "alpha")

-- The other provider uses the id of its message again, while a second receipt for it is under way.
def idReused : List RelayEvent :=
  oneRefused ++ (receiptOf 2 (lit "beta") { now := 4 }).take 2 ++
    submitFor (lit "m0000003") :: .claimOutbox 5 (lit "w") 1 .none :: sendWith 2 (lit "x") 5 ++
    List.replicate 8 (.handle 2 { now := 6 })

end SmppGateway
