import SmppGateway.Store.Log

-- Sequences of `SubmitAtomic` calls: idempotency, quota and what a call leaves behind.

namespace SmppGateway

open Go Machine

structure SubmitCall where
  now  : Time
  msg  : Message
  item : OutboxItem
  opts : SubmitOptions := {}

-- What an accepted call takes from the daily quota of a tenant. A debit without a positive limit is
-- not counted.
def SubmitCall.debit (c : SubmitCall) (tenantID date : Str) : Int :=
  match c.opts.quota with
  | none       => 0
  | some quota =>
    if 0 < quota.limit ∧ quota.tenantID = tenantID ∧ quota.date = date then quota.segments.toInt else 0

namespace MemoryStore

def submit (s : MemoryStore) (c : SubmitCall) : StoreResult Submitted :=
  s.submitAtomic c.now c.msg c.item c.opts

def submitStep (s : MemoryStore) (c : SubmitCall) : MemoryStore :=
  (s.submit c).2

def accepts (s : MemoryStore) (c : SubmitCall) : Bool :=
  match (s.submit c).1 with
  | .ok res  => !res.duplicate
  | .error _ => false

def acceptedCalls (s : MemoryStore) : List SubmitCall → List SubmitCall
  | []      => []
  | c :: cs => (if s.accepts c then [c] else []) ++ acceptedCalls (s.submitStep c) cs

def isExpired (now : Time) (rec : IdempotencyRecord) : Prop :=
  rec.expiresAt ≠ 0 ∧ rec.expiresAt < now

def LiveAt (s : MemoryStore) (k : Str × Str) (now : Time) (gatewayID : Str) : Prop :=
  ∃ rec, s.idempotency.lookup k = some rec ∧ now < rec.expiresAt ∧ rec.gatewayID = gatewayID

variable {s : MemoryStore} {c : SubmitCall} {now : Time} {k : Str × Str} {g tenantID date : Str}
  {quota : DailyQuotaDebit} {d : MemoryStore} {t : Time} {msg : Message} {calls : List SubmitCall}

theorem validateDailyQuotaDebit_pos (h : validateDailyQuotaDebit quota = .ok ()) :
    0 < quota.segments.toInt ∧ 0 < quota.limit.toInt := by
  unfold validateDailyQuotaDebit at h
  split at h
  case isTrue => cases h
  case isFalse hq =>
    simp only [not_or, Int64.le_iff_toInt_le, not_le] at hq
    exact hq.2

theorem debitQuota_exact (h : validateDailyQuotaDebit quota = .ok ())
    (hu : 0 ≤ (s.usage quota.tenantID quota.date).toInt) :
    let used := s.usage quota.tenantID quota.date
    (used.toInt + quota.segments.toInt ≤ quota.limit.toInt ∧
      (used + quota.segments).toInt = used.toInt + quota.segments.toInt ∧
      s.debitQuota (some quota) = .ok { s with
        quotaUsage := s.quotaUsage.insert (quota.tenantID, quota.date) (used + quota.segments) }) ∨
    (quota.limit.toInt < used.toInt + quota.segments.toInt ∧
      s.debitQuota (some quota) = .error .quotaExceeded) := by
  intro used
  have hu : 0 ≤ used.toInt := hu
  have ⟨hs, hl⟩ := validateDailyQuotaDebit_pos h
  have hlim : ¬quota.limit ≤ 0 := by simpa [Int64.le_iff_toInt_le] using hl
  have hsub : (quota.limit - quota.segments).toInt = quota.limit.toInt - quota.segments.toInt := by
    have := quota.limit.toInt_lt
    have := quota.segments.toInt_lt
    rw [Int64.toInt_sub, Int.bmod_eq_of_le] <;> omega
  have hcheck : quota.limit < quota.segments ∨ quota.limit - quota.segments < used ↔
      quota.limit.toInt < used.toInt + quota.segments.toInt := by
    rw [Int64.lt_iff_toInt_lt, Int64.lt_iff_toInt_lt, hsub]
    omega
  by_cases hle : used.toInt + quota.segments.toInt ≤ quota.limit.toInt
  case pos =>
    have hadd : (used + quota.segments).toInt = used.toInt + quota.segments.toInt := by
      have := quota.limit.toInt_lt
      rw [Int64.toInt_add, Int.bmod_eq_of_le] <;> omega
    refine .inl ⟨hle, hadd, ?_⟩
    simp only [debitQuota, if_neg hlim, h]
    exact if_neg fun hc => not_lt.mpr hle (hcheck.mp hc)
  case neg =>
    refine .inr ⟨not_le.mp hle, ?_⟩
    simp only [debitQuota, if_neg hlim, h]
    exact if_pos (hcheck.mpr (not_le.mp hle))

theorem debitQuota_unlimited (h : ∀ quota, c.opts.quota = some quota → quota.limit ≤ 0) :
    s.debitQuota c.opts.quota = .ok s := by
  cases hq : c.opts.quota
  case none => rfl
  case some quota => simp [debitQuota, h quota hq]

theorem debitQuota_invalid {e : StoreError} (hl : ¬quota.limit ≤ 0)
    (h : validateDailyQuotaDebit quota = .error e) : s.debitQuota (some quota) = .error e := by
  simp [debitQuota, hl, h]

theorem debitQuota_usage (tenantID date : Str) (hu : ∀ t d, 0 ≤ (s.usage t d).toInt)
    (h : s.debitQuota c.opts.quota = .ok d) :
    (d.usage tenantID date).toInt = (s.usage tenantID date).toInt + c.debit tenantID date := by
  unfold SubmitCall.debit
  cases hq : c.opts.quota
  case none => rw [hq] at h; cases h; simp
  case some quota =>
    rw [hq] at h
    by_cases hl : quota.limit ≤ 0
    case pos =>
      simp only [debitQuota, if_pos hl, Except.ok.injEq] at h
      subst h
      have : ¬0 < quota.limit := by simpa [Int64.le_iff_toInt_le, Int64.lt_iff_toInt_lt] using hl
      simp [this]
    case neg =>
      have hpos : 0 < quota.limit := by
        simpa [Int64.le_iff_toInt_le, Int64.lt_iff_toInt_lt] using hl
      cases hv : validateDailyQuotaDebit quota
      case error e => cases (debitQuota_invalid hl hv).symm.trans h
      case ok =>
        cases debitQuota_exact hv (hu ..)
        case inl hd =>
          obtain ⟨_, hadd, hd⟩ := hd
          cases hd.symm.trans h
          by_cases hk : quota.tenantID = tenantID ∧ quota.date = date
          case pos =>
            obtain ⟨rfl, rfl⟩ := hk
            simpa [usage, hpos] using hadd
          case neg =>
            have hne : (tenantID, date) ≠ (quota.tenantID, quota.date) := by
              rintro ⟨⟩
              exact hk ⟨rfl, rfl⟩
            simp [usage, AList.lookup_insert_ne hne, hk]
        case inr hd => cases hd.2.symm.trans h

-- A store that only lost what had expired.
structure SweptOnly (s s' : MemoryStore) (now : Time) : Prop where
  messages    : s'.messages = s.messages ∧ s'.messageByID = s.messageByID
  outbox      : s'.outbox = s.outbox ∧ s'.nextOutbox = s.nextOutbox
  quotaUsage  : s'.quotaUsage = s.quotaUsage
  idempotency : ∀ k rec, s'.idempotency.lookup k = some rec ↔
    s.idempotency.lookup k = some rec ∧ ¬isExpired now rec

theorem sweepLocked_idempotency {rec : IdempotencyRecord} :
    (s.sweepLocked now).idempotency.lookup k = some rec ↔
      s.idempotency.lookup k = some rec ∧ ¬isExpired now rec := by
  simp only [sweepLocked, Map.lookup_filter_eq_some, isExpired]
  grind

theorem sweepLocked_sweptOnly : SweptOnly s (s.sweepLocked now) now where
  messages      := ⟨rfl, rfl⟩
  outbox        := ⟨rfl, rfl⟩
  quotaUsage    := rfl
  idempotency _ _ := sweepLocked_idempotency

theorem liveAt_sweepLocked (h : now ≤ t) : LiveAt (s.sweepLocked now) k t g ↔ LiveAt s k t g := by
  simp only [LiveAt, sweepLocked_idempotency, isExpired]
  grind

theorem liveDuplicate_eq_some {opts : IdempotencyOptions} :
    s.liveDuplicate now opts = some g ↔ ∃ k, idempotencyKey? opts = some k ∧ LiveAt s k now g := by
  unfold liveDuplicate
  cases hk : idempotencyKey? opts
  case none => simp
  case some k =>
    cases hl : s.idempotency.lookup k
    case none => simp [LiveAt, hl]
    case some rec => simp [LiveAt, hl]

@[simp]
theorem putMessage_idempotency : (s.putMessage msg).idempotency = s.idempotency := by
  unfold putMessage trimMessagesLocked; repeat' split
  all_goals rfl

@[simp]
theorem putMessage_quotaUsage : (s.putMessage msg).quotaUsage = s.quotaUsage := by
  unfold putMessage trimMessagesLocked; repeat' split
  all_goals rfl

theorem rememberKey_idempotency (s : MemoryStore) (now : Time) (g : Str) (opts : IdempotencyOptions)
    (k : Str × Str) (rec : IdempotencyRecord) :
    (s.rememberKey now g opts).idempotency.lookup k = some rec ↔
      if idempotencyKey? opts = some k then rec = ⟨g, now + effectiveTTL opts⟩
      else s.idempotency.lookup k = some rec := by
  unfold rememberKey
  split
  case _ hk => simp [hk]
  case _ k' hk =>
    simp only [Map.lookup_insert_eq, hk, Option.some.injEq, eq_comm (a := k)]
    split <;> simp [eq_comm]

structure AcceptedInto (s s' : MemoryStore) (c : SubmitCall) : Prop where
  messages    : c.msg.id ∉ s.messageByID →
    s'.messages = keepNewest s.maxMessages (s.messages ++ [c.msg]) ∧
    s'.getMessage c.msg.id = some c.msg
  fresh       : s.outbox.lookup (s.nextOutbox + 1) = none
  outbox      : s'.outbox = s.outbox.insert (s.nextOutbox + 1) (s.newOutboxItem c.now c.item)
  nextOutbox  : s'.nextOutbox = s.nextOutbox + 1
  pending     : c.item.state = .unset → (s.newOutboxItem c.now c.item).state = .pending
  idempotency : ∀ k rec, s'.idempotency.lookup k = some rec ↔
    if idempotencyKey? c.opts.idempotency = some k then
      rec = ⟨c.msg.id, c.now + effectiveTTL c.opts.idempotency⟩
    else
      s.idempotency.lookup k = some rec ∧ ¬isExpired c.now rec
  usage       : ∀ tenantID date,
    (s'.usage tenantID date).toInt = (s.usage tenantID date).toInt + c.debit tenantID date

-- The states the calls start from: row ids up to the counter, and no negative usage.
structure SubmitWF (s : MemoryStore) : Prop where
  outbox : OutboxWF s
  usage  : ∀ tenantID date, 0 ≤ (s.usage tenantID date).toInt

theorem acceptedInto (wf : SubmitWF s) (hq : (s.sweepLocked c.now).debitQuota c.opts.quota = .ok d) :
    AcceptedInto s (((d.rememberKey c.now c.msg.id c.opts.idempotency).putMessage c.msg).putOutbox
      c.now c.item) c := by
  have hu := fun t d => debitQuota_usage (s := s.sweepLocked c.now) t d wf.usage hq
  have hk := rememberKey_idempotency d c.now c.msg.id c.opts.idempotency
  obtain ⟨i, hi⟩ := rememberKey_frame d c.now c.msg.id c.opts.idempotency
  rw [hi] at hk ⊢
  obtain ⟨q, rfl⟩ := debitQuota_frame hq
  refine ⟨fun hm => ⟨putMessage_messages hm, putMessage_getMessage hm⟩, wf.outbox.fresh, ?_, ?_, ?_,
    fun k rec => ?_, fun t d => ?_⟩
  case refine_1 => simp [putOutbox, newOutboxItem]
  case refine_2 => simp [putOutbox]
  case refine_3 => intro h; simp [newOutboxItem, h]
  case refine_4 => simpa [putOutbox, sweepLocked_idempotency] using hk k rec
  case refine_5 => simpa [putOutbox, usage, sweepLocked] using hu t d

theorem debit_nonneg (hq : s.debitQuota c.opts.quota = .ok d) : 0 ≤ c.debit tenantID date := by
  unfold SubmitCall.debit
  split
  case _ => exact le_rfl
  case _ quota hc =>
    split
    case isFalse => exact le_rfl
    case isTrue hl =>
      rw [hc] at hq
      have hl : ¬quota.limit ≤ 0 := by
        simpa [Int64.le_iff_toInt_le, Int64.lt_iff_toInt_lt] using hl.1
      cases hv : validateDailyQuotaDebit quota
      case error e => cases (debitQuota_invalid hl hv).symm.trans hq
      case ok => exact (validateDailyQuotaDebit_pos hv).1.le

theorem SubmitWF.newMemory : SubmitWF newMemory where
  outbox    := .newMemory
  usage _ _ := by simp [MemoryStore.usage, SmppGateway.newMemory]

theorem SubmitWF.step (wf : SubmitWF s) (c : SubmitCall) : SubmitWF (s.submitStep c) := by
  refine ⟨StoreOp.exec_wf wf.outbox (.submitAtomic c.now c.msg c.item c.opts), fun t d => ?_⟩
  unfold submitStep submit
  cases submitAtomic_cases s c.now c.msg c.item c.opts
  case duplicate h => rw [h]; exact wf.usage t d
  case refused h => rw [h]; exact wf.usage t d
  case accepted hq h =>
    rw [h, (acceptedInto wf hq).usage]
    exact Int.add_nonneg (wf.usage t d) (debit_nonneg hq)

theorem SubmitWF.run (wf : SubmitWF s) : SubmitWF (run submitStep s calls) :=
  invariant (G := fun _ _ => True) wf (.of_forall fun _ _ _ => trivial) fun _ c h _ => h.step c

theorem submitStep_usage (wf : SubmitWF s) :
    ((s.submitStep c).usage tenantID date).toInt =
      (s.usage tenantID date).toInt + if s.accepts c then c.debit tenantID date else 0 := by
  unfold submitStep submit
  cases submitAtomic_cases s c.now c.msg c.item c.opts
  case duplicate h => simp [accepts, submit, h, usage, sweepLocked]
  case refused h => simp [accepts, submit, h, usage, sweepLocked]
  case accepted hq h =>
    have ha : s.accepts c = true := by simp [accepts, submit, h]
    rw [h, (acceptedInto wf hq).usage, if_pos ha]

theorem run_usage (wf : SubmitWF s) :
    ((run submitStep s calls).usage tenantID date).toInt =
      (s.usage tenantID date).toInt +
        ((s.acceptedCalls calls).map (·.debit tenantID date)).sum := by
  induction calls generalizing s
  case nil => simp [acceptedCalls]
  case cons c calls hi =>
    rw [run_cons, hi (wf.step c), submitStep_usage wf, acceptedCalls]
    split <;> simp [Int.add_assoc]

theorem submitStep_liveAt (wf : SubmitWF s) (ht : c.now ≤ t) :
    LiveAt (s.submitStep c) k t g ↔ LiveAt s k t g ∨
      (s.accepts c ∧ idempotencyKey? c.opts.idempotency = some k ∧
        t < c.now + effectiveTTL c.opts.idempotency ∧ c.msg.id = g) := by
  unfold submitStep submit
  cases submitAtomic_cases s c.now c.msg c.item c.opts
  case duplicate h => simp [accepts, submit, h, liveAt_sweepLocked ht]
  case refused h => simp [accepts, submit, h, liveAt_sweepLocked ht]
  case accepted d hf hq h =>
    have ha : s.accepts c = true := by simp [accepts, submit, h]
    have hnew := (acceptedInto wf hq).idempotency k
    simp only [h, ha, LiveAt, hnew, true_and]
    by_cases hk : idempotencyKey? c.opts.idempotency = some k
    case pos =>
      -- The key cannot have been live before, or the call would have been a duplicate.
      have hdead : ¬LiveAt s k t g := by
        rintro ⟨rec, hl, hx, hg⟩
        have : LiveAt (s.sweepLocked c.now) k c.now g :=
          (liveAt_sweepLocked le_rfl).mpr ⟨rec, hl, ht.trans_lt hx, hg⟩
        rw [liveDuplicate_eq_some.mpr ⟨k, hk, this⟩] at hf
        cases hf
      simp only [LiveAt] at hdead
      simp [hk, hdead]
    case neg =>
      simp only [hk, if_false, false_and, or_false, isExpired]
      grind

def AcceptedBefore (s : MemoryStore) (calls : List SubmitCall) (k : Str × Str) (now : Time) (g : Str) :
    Prop :=
  LiveAt s k now g ∨ ∃ pre c post, calls = pre ++ c :: post ∧ (run submitStep s pre).accepts c ∧
    idempotencyKey? c.opts.idempotency = some k ∧
    now < c.now + effectiveTTL c.opts.idempotency ∧ c.msg.id = g

theorem run_liveAt (wf : SubmitWF s) (ht : ∀ c ∈ calls, c.now ≤ t) :
    LiveAt (run submitStep s calls) k t g ↔ AcceptedBefore s calls k t g := by
  induction calls generalizing s
  case nil => simp [AcceptedBefore]
  case cons c calls hi =>
    have hc := ht c List.mem_cons_self
    rw [run_cons, hi (wf.step c) fun d hd => ht d (List.mem_cons_of_mem c hd), AcceptedBefore,
      AcceptedBefore, submitStep_liveAt wf hc, or_assoc]
    refine or_congr_right ⟨?_, ?_⟩
    case refine_1 =>
      rintro (h | ⟨pre, d, post, rfl, h⟩)
      case inl => exact ⟨[], c, calls, rfl, h⟩
      case inr => exact ⟨c :: pre, d, post, rfl, h⟩
    case refine_2 =>
      rintro ⟨_ | ⟨c', pre⟩, d, post, he, h⟩
      case nil => cases he; exact .inl h
      case cons => cases he; exact .inr ⟨pre, d, post, rfl, h⟩

-- After any calls, a call that an earlier acceptance answers for is a duplicate of that acceptance and
-- changes nothing. Any other call with a valid debit succeeds exactly when the debit fits, and a call
-- that succeeds leaves exactly its own traces. A call that fails changes nothing. The usage of a day
-- is what it was at the start and the debits of the accepted calls.
theorem submitAtomic_exact {s₀ : MemoryStore} (wf : SubmitWF s₀) {calls : List SubmitCall}
    {c : SubmitCall} (clock : (calls ++ [c]).Pairwise (·.now ≤ ·.now)) :
    let s := run submitStep s₀ calls
    let r := s.submit c
    (∀ k g, idempotencyKey? c.opts.idempotency = some k → AcceptedBefore s₀ calls k c.now g →
      r.1 = .ok ⟨0, g, true⟩ ∧ SweptOnly s r.2 c.now) ∧
    ((∀ k g, idempotencyKey? c.opts.idempotency = some k → ¬AcceptedBefore s₀ calls k c.now g) →
      (∀ quota, c.opts.quota = some quota → validateDailyQuotaDebit quota = .ok () →
        ((∃ res, r.1 = .ok res) ↔
          (s.usage quota.tenantID quota.date).toInt + quota.segments.toInt ≤ quota.limit.toInt)) ∧
      ((∀ quota, c.opts.quota = some quota → quota.limit ≤ 0) → ∃ res, r.1 = .ok res) ∧
      (∀ res, r.1 = .ok res →
        res = ⟨s.nextOutbox + 1, c.msg.id, false⟩ ∧ AcceptedInto s r.2 c)) ∧
    (∀ e, r.1 = .error e → SweptOnly s r.2 c.now) ∧
    (∀ tenantID date, (s.usage tenantID date).toInt =
      (s₀.usage tenantID date).toInt +
        ((s₀.acceptedCalls calls).map (·.debit tenantID date)).sum) := by
  intro s r
  have wfs : SubmitWF s := wf.run
  have hclock : ∀ d ∈ calls, d.now ≤ c.now := fun d hd =>
    (List.pairwise_append.mp clock).2.2 d hd c List.mem_cons_self
  have hlive : ∀ g, (s.sweepLocked c.now).liveDuplicate c.now c.opts.idempotency = some g ↔
      ∃ k, idempotencyKey? c.opts.idempotency = some k ∧ AcceptedBefore s₀ calls k c.now g := by
    intro g
    simp only [liveDuplicate_eq_some, liveAt_sweepLocked le_rfl, s, run_liveAt wf hclock]
  refine ⟨fun k g hk hb => ?_, fun hn => ?_, fun e he => ?_, fun t d => run_usage wf⟩
  case refine_1 =>
    have hd := (hlive g).mpr ⟨k, hk, hb⟩
    cases submitAtomic_cases s c.now c.msg c.item c.opts
    case duplicate g' hd' h =>
      cases hd.symm.trans hd'
      simp only [r, submit, h, true_and]
      exact sweepLocked_sweptOnly
    case refused hf _ _ => cases hd.symm.trans hf
    case accepted hf _ _ => cases hd.symm.trans hf
  case refine_2 =>
    cases submitAtomic_cases s c.now c.msg c.item c.opts
    case duplicate g hd h =>
      obtain ⟨k, hk, hb⟩ := (hlive g).mp hd
      exact absurd hb (hn k g hk)
    case refused e _ hq h =>
      refine ⟨fun quota hc hv => ?_, fun hu => ?_, fun res hr => by simp [r, submit, h] at hr⟩
      case refine_1 =>
        rw [hc] at hq
        cases debitQuota_exact (s := s.sweepLocked c.now) hv (wfs.usage ..)
        case inl hd => cases hd.2.2.symm.trans hq
        case inr hd =>
          simp only [r, submit, h, reduceCtorEq, exists_false, false_iff, not_le]
          exact hd.1
      case refine_2 => cases (debitQuota_unlimited hu).symm.trans hq
    case accepted d _ hq h =>
      refine ⟨fun quota hc hv => ?_, fun _ => ⟨_, congrArg Prod.fst h⟩, fun res hr => ?_⟩
      case refine_1 =>
        rw [hc] at hq
        cases debitQuota_exact (s := s.sweepLocked c.now) hv (wfs.usage ..)
        case inl hd => exact iff_of_true ⟨_, congrArg Prod.fst h⟩ hd.1
        case inr hd => cases hd.2.symm.trans hq
      case refine_2 =>
        simp only [r, submit, h] at hr ⊢
        cases hr
        exact ⟨rfl, acceptedInto wfs hq⟩
  case refine_3 =>
    cases submitAtomic_cases s c.now c.msg c.item c.opts
    case duplicate h => simp [r, submit, h] at he
    case refused h => simp only [r, submit, h]; exact sweepLocked_sweptOnly
    case accepted h => simp [r, submit, h] at he

theorem submitAtomic_exact_repeated_key :
    let opts : SubmitOptions := { idempotency := { clientID := lit "c", key := lit "k" } }
    let row (g : Str) : OutboxItem := { gatewayID := g, payload := { gatewayID := g } }
    let first : SubmitCall := ⟨1, { id := lit "m1" }, row (lit "m1"), opts⟩
    let second : SubmitCall := ⟨2, { id := lit "m2" }, row (lit "m2"), opts⟩
    ((run submitStep newMemory [first]).submit second).1 = .ok ⟨0, lit "m1", true⟩ := by
  intro opts row first second
  refine ((submitAtomic_exact (c := second) .newMemory ?_).1 (lit "c", lit "k") (lit "m1") rfl ?_).1
  case refine_1 => simp [first, second]
  case refine_2 => exact .inr ⟨[], first, [], rfl, rfl, rfl, by decide, rfl⟩

-- Four accepted or answered calls that leave more or less behind than their own traces: a debit
-- without a limit is not counted, an empty key is not remembered, a duplicate sweeps the entries of
-- other keys that have expired, and a full log drops its oldest message.
theorem submitAtomic_inexact_cases :
    let row (g : Str) : OutboxItem := { gatewayID := g, payload := { gatewayID := g } }
    let call (now : Time) (g : Str) (opts : SubmitOptions) : SubmitCall := ⟨now, { id := g }, row g, opts⟩
    let key (key : Str) (ttl : Duration) : SubmitOptions := { idempotency := ⟨lit "c", key, ttl⟩ }
    let unlimited : SubmitOptions := { quota := some ⟨lit "t", lit "2024-01-01", 5, 0⟩ }
    let keyed := run submitStep newMemory [call 1 (lit "m1") (key (lit "a") 1),
      call 1 (lit "m2") (key (lit "b") 9)]
    let full := { newMemory with maxMessages := 1 }
    (newMemory.accepts (call 1 (lit "m1") unlimited) ∧
      (newMemory.submitStep (call 1 (lit "m1") unlimited)).usage (lit "t") (lit "2024-01-01") = 0) ∧
    (newMemory.accepts (call 1 (lit "m1") (key [] 9)) ∧
      (newMemory.submitStep (call 1 (lit "m1") (key [] 9))).accepts (call 2 (lit "m2") (key [] 9))) ∧
    ((keyed.submit (call 5 (lit "m3") (key (lit "b") 9))).1 = .ok ⟨0, lit "m2", true⟩ ∧
      keyed.idempotency.lookup (lit "c", lit "a") ≠ none ∧
      (keyed.submitStep (call 5 (lit "m3") (key (lit "b") 9))).idempotency.lookup
        (lit "c", lit "a") = none) ∧
    ((full.submitStep (call 1 (lit "m1") {})).accepts (call 2 (lit "m2") {}) ∧
      (run submitStep full [call 1 (lit "m1") {}, call 2 (lit "m2") {}]).messages.map (·.id) =
        [lit "m2"]) := by
  decide

theorem checkIdempotency_eq_some {clientID key : Str} :
    (s.checkIdempotency now clientID key).1 = .ok (some g) ↔
      ∃ k, idempotencyKey? { clientID, key } = some k ∧
        ∃ rec, s.idempotency.lookup k = some rec ∧ now ≤ rec.expiresAt ∧ rec.gatewayID = g := by
  unfold checkIdempotency
  cases idempotencyKey? { clientID, key }
  case none => simp
  case some k =>
    simp only [Option.some.injEq, exists_eq_left']
    cases hl : (s.sweepLocked now).idempotency.lookup k
    case none =>
      simp only [Except.ok.injEq, reduceCtorEq, false_iff]
      rintro ⟨rec, hrec, hlive, -⟩
      have hkept := sweepLocked_idempotency.mpr ⟨hrec, fun hexp => not_lt.mpr hlive hexp.2⟩
      cases hl.symm.trans hkept
    case some rec =>
      have hrec := (sweepLocked_idempotency.mp hl).1
      simp only [hrec, Option.some.injEq, exists_eq_left']
      split
      case isTrue hexp => simp [not_le.mpr hexp]
      case isFalse hlive => simp [not_lt.mp hlive]

theorem submitAtomic_eq_duplicate {item : OutboxItem} {opts : SubmitOptions} :
    (∃ id, (s.submitAtomic now msg item opts).1 = .ok ⟨id, g, true⟩) ↔
      ∃ k, idempotencyKey? opts.idempotency = some k ∧ LiveAt s k now g := by
  simp only [← liveAt_sweepLocked (s := s) (le_refl now)]
  rw [← liveDuplicate_eq_some]
  cases submitAtomic_cases s now msg item opts
  case duplicate g' hd h => simp [h, hd]
  case refused hf _ h => simp [h, hf]
  case accepted hf _ h => simp [h, hf]

theorem lookup_agrees_iff (s : MemoryStore) (now : Time) (msg : Message) (item : OutboxItem) (opts : SubmitOptions) :
    (∀ g, (s.checkIdempotency now opts.idempotency.clientID opts.idempotency.key).1 = .ok (some g) ↔
      ∃ id, (s.submitAtomic now msg item opts).1 = .ok ⟨id, g, true⟩) ↔
    ∀ k, idempotencyKey? opts.idempotency = some k → ∀ rec, s.idempotency.lookup k = some rec →
      rec.expiresAt ≠ now := by
  have hkey : idempotencyKey? { clientID := opts.idempotency.clientID, key := opts.idempotency.key } =
      idempotencyKey? opts.idempotency := rfl
  simp only [checkIdempotency_eq_some, submitAtomic_eq_duplicate, hkey, LiveAt]
  constructor
  case mp =>
    rintro hagree k hk rec hrec rfl
    obtain ⟨k', hk', rec', hrec', hlt, -⟩ := (hagree rec.gatewayID).mp ⟨k, hk, rec, hrec, le_rfl, rfl⟩
    cases hk.symm.trans hk'
    cases hrec.symm.trans hrec'
    exact lt_irrefl _ hlt
  case mpr =>
    intro hne g
    constructor
    case mp =>
      rintro ⟨k, hk, rec, hrec, hle, hg⟩
      exact ⟨k, hk, rec, hrec, lt_of_le_of_ne hle (hne k hk rec hrec).symm, hg⟩
    case mpr =>
      rintro ⟨k, hk, rec, hrec, hlt, hg⟩
      exact ⟨k, hk, rec, hrec, hlt.le, hg⟩

-- A key that is remembered at 1 for 9 is found at 10, and the same submission is accepted again.
theorem lookup_disagrees_at_expiry :
    let opts : SubmitOptions := { idempotency := ⟨lit "c", lit "k", 9⟩ }
    let row (g : Str) : OutboxItem := { gatewayID := g, payload := { gatewayID := g } }
    let s := newMemory.submitStep ⟨1, { id := lit "m1" }, row (lit "m1"), opts⟩
    (s.checkIdempotency 10 (lit "c") (lit "k")).1 = .ok (some (lit "m1")) ∧
    (s.submitAtomic 10 { id := lit "m2" } (row (lit "m2")) opts).1 = .ok ⟨2, lit "m2", false⟩ := by
  decide

end MemoryStore
end SmppGateway
