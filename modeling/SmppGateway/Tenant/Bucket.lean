import Mathlib.Algebra.Order.Ring.Int
import Mathlib.Algebra.Order.Field.Rat
import Mathlib.Tactic.Linarith
import SmppGateway.Go.Map
import SmppGateway.Go.Time
import SmppGateway.Lib.Potential

-- The limit on a tenant's messages a second (`TokenBucket` of `internal/tenant/tenant.go`). The tokens are exact.

namespace SmppGateway

open Go Machine

def seconds (d : Int) : ℚ :=
  d / 1000000000

structure Bucket where
  tokens : ℚ
  last   : Time
  tps    : Int
  burst  : Int
  deriving DecidableEq

namespace Bucket

def full (tps burst : Int) (now : Time) : Bucket where
  tokens := burst
  last   := now
  tps    := tps
  burst  := burst

def refill (b : Bucket) (now : Time) : Bucket :=
  let elapsed := seconds (timeSub now b.last)
  if 0 < elapsed then
    let tokens := b.tokens + elapsed * b.tps
    { b with tokens := if tokens > b.burst then b.burst else tokens, last := now }
  else
    b

-- The bucket of a call: that of the tenant, brought up to date, unless its limits have changed.
def current (found : Option Bucket) (tps burst : Int) (now : Time) : Bucket :=
  match found with
  | none   => full tps burst now
  | some b => if b.tps ≠ tps ∨ b.burst ≠ burst then full tps burst now else b.refill now

def take (b : Bucket) : Bool × Bucket :=
  if 1 ≤ b.tokens then (true, { b with tokens := b.tokens - 1 }) else (false, b)

end Bucket

structure AllowCall where
  tenantID : Str
  tps      : Int
  burst    : Int
  now      : Time

abbrev TokenBucket := Map Str Bucket

namespace TokenBucket

def allow (l : TokenBucket) (c : AllowCall) : Bool × TokenBucket :=
  if c.tenantID = [] ∨ c.tps ≤ 0 then
    (true, l)
  else
    let burst := if c.burst ≤ 0 then c.tps else c.burst
    let (allowed, b) := (Bucket.current (l.lookup c.tenantID) c.tps burst c.now).take
    (allowed, l.insert c.tenantID b)

def step (l : TokenBucket) (c : AllowCall) : TokenBucket :=
  (l.allow c).2

end TokenBucket

-- A tenant with a limit. `config.Validate` wants a name of every tenant.
structure Tenant where
  id        : Str
  tps       : Int
  burst     : Int
  named     : id ≠ []
  tps_pos   : 0 < tps
  burst_pos : 0 < burst

namespace Tenant

variable (t : Tenant)

def readings (calls : List AllowCall) : List Time :=
  (calls.filter (·.tenantID = t.id)).map (·.now)

def allowed (l : TokenBucket) : List AllowCall → Nat :=
  spent TokenBucket.step (fun l c => if c.tenantID = t.id ∧ (l.allow c).1 then 1 else 0) l

def grant (found : Option Bucket) (now : Time) : Bool × Bucket :=
  (Bucket.current found t.tps t.burst now).take

def step (found : Option Bucket) (now : Time) : Option Bucket :=
  some (t.grant found now).2

def admitted (found : Option Bucket) (now : Time) : Nat :=
  if (t.grant found now).1 then 1 else 0

variable {t}

def Keeps (t : Tenant) (c : AllowCall) : Prop :=
  c.tenantID = t.id → c.tps = t.tps ∧ c.burst = t.burst

instance (t : Tenant) (c : AllowCall) : Decidable (t.Keeps c) :=
  inferInstanceAs (Decidable (_ → _))

theorem Keeps.allow_eq {c : AllowCall} (h : t.Keeps c) (hid : c.tenantID = t.id) (l : TokenBucket) :
    l.allow c = ((t.grant (l.lookup t.id) c.now).1, l.insert t.id (t.grant (l.lookup t.id) c.now).2) := by
  obtain ⟨htps, hburst⟩ := h hid
  have hguard : ¬(t.id = [] ∨ t.tps ≤ 0) := not_or.mpr ⟨t.named, t.tps_pos.not_ge⟩
  rw [TokenBucket.allow, hid, htps, hburst, if_neg hguard, if_neg t.burst_pos.not_ge]
  rfl

theorem lookup_step_of_ne {c : AllowCall} (h : c.tenantID ≠ t.id) (l : TokenBucket) :
    (l.step c).lookup t.id = l.lookup t.id := by
  unfold TokenBucket.step TokenBucket.allow
  split
  case isTrue => rfl
  case isFalse => exact AList.lookup_insert_ne (Ne.symm h)

theorem lookup_run {calls : List AllowCall} (h : ∀ c ∈ calls, t.Keeps c) (l : TokenBucket) :
    (run TokenBucket.step l calls).lookup t.id = run t.step (l.lookup t.id) (t.readings calls) := by
  induction calls generalizing l
  case nil => rfl
  case cons c calls hi =>
    obtain ⟨hc, hcalls⟩ := List.forall_mem_cons.mp h
    rw [run_cons, hi hcalls]
    by_cases hid : c.tenantID = t.id
    case pos => simp [readings, hid, TokenBucket.step, hc.allow_eq hid, step]
    case neg => simp [readings, hid, lookup_step_of_ne hid]

theorem allowed_eq {calls : List AllowCall} (h : ∀ c ∈ calls, t.Keeps c) (l : TokenBucket) :
    t.allowed l calls = spent t.step t.admitted (l.lookup t.id) (t.readings calls) := by
  induction calls generalizing l
  case nil => rfl
  case cons c calls hi =>
    obtain ⟨hc, hcalls⟩ := List.forall_mem_cons.mp h
    have hi := hi hcalls (l.step c)
    rw [allowed] at hi ⊢
    rw [spent, hi]
    by_cases hid : c.tenantID = t.id
    case pos => simp [readings, hid, TokenBucket.step, hc.allow_eq hid, step, spent, admitted]
    case neg => simp [readings, hid, lookup_step_of_ne hid]

structure Owns (t : Tenant) (b : Bucket) : Prop where
  tps    : b.tps = t.tps
  burst  : b.burst = t.burst
  nonneg : 0 ≤ b.tokens
  le     : b.tokens ≤ t.burst

theorem owns_full (now : Time) : t.Owns (.full t.tps t.burst now) where
  tps    := rfl
  burst  := rfl
  nonneg := Int.cast_nonneg t.burst_pos.le
  le     := le_rfl

theorem seconds_pos {d : Int} : 0 < seconds d ↔ 0 < d := by
  rw [seconds, lt_div_iff₀ (by norm_num), zero_mul, Int.cast_pos]

theorem seconds_le {d d' : Int} (h : d ≤ d') : seconds d ≤ seconds d' :=
  div_le_div_of_nonneg_right (Int.cast_le.mpr h) (by norm_num)

-- A reading in the past leaves the bucket as it is. A later one adds at most what the time between them brings.
theorem Owns.refill {b : Bucket} (h : t.Owns b) (now : Time) :
    t.Owns (b.refill now) ∧ (b.refill now).last = max b.last now ∧
      (b.refill now).tokens ≤ b.tokens + t.tps * seconds (max b.last now - b.last) := by
  simp only [Bucket.refill, seconds_pos, timeSub_pos]
  split
  case isFalse hle =>
    have hmax : max b.last now = b.last := max_eq_left (not_lt.mp hle)
    refine ⟨h, hmax.symm, ?_⟩
    simp [hmax, seconds]
  case isTrue hlt =>
    have hmax : max b.last now = now := max_eq_right hlt.le
    have htps : (0 : ℚ) < t.tps := Int.cast_pos.mpr t.tps_pos
    have hgain : 0 < seconds (timeSub now b.last) * b.tps := by
      rw [h.tps]
      exact mul_pos (seconds_pos.mpr (timeSub_pos.mpr hlt)) htps
    have hbound : seconds (timeSub now b.last) * b.tps ≤ t.tps * seconds (now - b.last) := by
      rw [h.tps, mul_comm]
      exact mul_le_mul_of_nonneg_left (seconds_le (timeSub_le hlt)) htps.le
    have hnonneg := h.nonneg
    have hle := h.le
    have hburst : (b.burst : ℚ) = t.burst := by rw [h.burst]
    rw [hmax]
    refine ⟨⟨h.tps, h.burst, ?_, ?_⟩, rfl, ?_⟩ <;> dsimp only <;> split <;> linarith

theorem grant_none (now : Time) : t.grant none now = t.grant (some (.full t.tps t.burst now)) now := by
  have hzero : ¬0 < seconds (timeSub now now) := by
    rw [seconds_pos, timeSub_pos]
    exact lt_irrefl now
  simp [grant, Bucket.current, Bucket.full, Bucket.refill, hzero]

theorem run_none (now : Time) (rs : List Time) :
    run t.step none (now :: rs) = run t.step (some (.full t.tps t.burst now)) (now :: rs) := by
  rw [run_cons, run_cons, step, step, grant_none]

theorem spent_none (now : Time) (rs : List Time) :
    spent t.step t.admitted none (now :: rs) =
      spent t.step t.admitted (some (.full t.tps t.burst now)) (now :: rs) := by
  rw [spent, spent, admitted, admitted, step, step, grant_none]

theorem Owns.current {b : Bucket} (h : t.Owns b) (now : Time) :
    Bucket.current (some b) t.tps t.burst now = b.refill now := by
  simp [Bucket.current, h.tps, h.burst]

def potential (t : Tenant) : Option Bucket → ℚ
  | none   => 0
  | some b => b.tokens - t.tps * seconds b.last

theorem Owns.step {b : Bucket} (h : t.Owns b) (now : Time) :
    ∃ b', t.step (some b) now = some b' ∧ t.Owns b' ∧ b'.last = max b.last now ∧
      t.admitted (some b) now + t.potential (some b') ≤ t.potential (some b) := by
  obtain ⟨howns, hlast, htokens⟩ := h.refill now
  have hsplit : seconds (max b.last now - b.last) = seconds (max b.last now) - seconds b.last := by
    simp [seconds, sub_div]
  rw [hsplit, mul_sub] at htokens
  rw [Tenant.step, admitted, grant, h.current now, Bucket.take]
  split
  case isTrue hone =>
    refine ⟨_, rfl, ⟨howns.tps, howns.burst, ?_, ?_⟩, hlast, ?_⟩
    case refine_1 => simpa using hone
    case refine_2 => exact (sub_le_self _ zero_le_one).trans howns.le
    case refine_3 =>
      simp only [potential, hlast, if_true, Nat.cast_one]
      linarith
  case isFalse =>
    refine ⟨_, rfl, howns, hlast, ?_⟩
    simp only [potential, hlast, Bool.false_eq_true, if_false, Nat.cast_zero]
    linarith

theorem Owns.run_step {b : Bucket} (h : t.Owns b) (rs : List Time) :
    ∃ b', run t.step (some b) rs = some b' ∧ t.Owns b' ∧ b'.last = rs.foldl max b.last := by
  induction rs generalizing b
  case nil => exact ⟨b, rfl, h, rfl⟩
  case cons now rs hi =>
    obtain ⟨b₁, hstep, howns, hlast, -⟩ := h.step now
    obtain ⟨b', hrun, howns', hlast'⟩ := hi howns
    rw [run_cons, hstep, List.foldl_cons, ← hlast]
    exact ⟨b', hrun, howns', hlast'⟩

theorem Owns.spent_le {b : Bucket} (h : t.Owns b) (rs : List Time) :
    ((spent t.step t.admitted (some b) rs : Nat) : ℚ) ≤
      t.burst + t.tps * seconds (rs.foldl max b.last - b.last) := by
  obtain ⟨b', hrun, howns, hlast⟩ := h.run_step rs
  have hpaid : spent t.step (fun s now => (t.admitted s now : ℚ)) (some b) rs + t.potential (run t.step (some b) rs) ≤
      t.potential (some b) := by
    refine spent_add_le (P := fun s => ∃ b, s = some b ∧ t.Owns b) (G := fun _ _ => True) ⟨b, rfl, h⟩
      (Along.of_forall fun _ _ _ => trivial) ?_ ?_
    case refine_1 =>
      rintro _ now ⟨b, rfl, hb⟩ -
      obtain ⟨b₁, hstep, howns₁, -⟩ := hb.step now
      exact ⟨b₁, hstep, howns₁⟩
    case refine_2 =>
      rintro _ now ⟨b, rfl, hb⟩ -
      obtain ⟨b₁, hstep, -, -, hpays⟩ := hb.step now
      rwa [hstep]
  have hcast := map_spent (Nat.castAddMonoidHom ℚ) t.step t.admitted (some b) rs
  simp only [Nat.coe_castAddMonoidHom] at hcast
  have hsplit : seconds (rs.foldl max b.last - b.last) = seconds (rs.foldl max b.last) - seconds b.last := by
    simp [seconds, sub_div]
  have hfull := h.le
  have hnonneg := howns.nonneg
  rw [hrun, ← hcast] at hpaid
  simp only [potential, hlast] at hpaid
  rw [hsplit, mul_sub]
  linarith

-- In a row of calls no more are allowed than the bucket holds and the time between the latest reading before them
-- and the latest up to their end brings. Readings may go back, and calls of others may stand between. The first call
-- of the tenant finds a full bucket, so the time counts from its reading.
theorem allowed_le_burst (t : Tenant) (before block : List AllowCall) (h : ∀ c ∈ before ++ block, t.Keeps c)
    (start latest : Time) (hstart : ((t.readings before).max?.or (t.readings block).head?) = some start)
    (hlatest : (t.readings (before ++ block)).max? = some latest) :
    (t.allowed (run TokenBucket.step ∅ before) block : ℚ) ≤ t.burst + t.tps * seconds (latest - start) := by
  have hbefore : ∀ c ∈ before, t.Keeps c := fun c hc => h c (List.mem_append_left block hc)
  have hblock : ∀ c ∈ block, t.Keeps c := fun c hc => h c (List.mem_append_right before hc)
  have happend : t.readings (before ++ block) = t.readings before ++ t.readings block := by simp [readings]
  rw [allowed_eq hblock, lookup_run hbefore, AList.lookup_empty]
  rw [happend] at hlatest
  generalize t.readings before = rs at hstart hlatest ⊢
  generalize t.readings block = rs' at hstart hlatest ⊢
  have hfirst (first : Time) (rs : List Time) : (first :: rs).foldl max first = rs.foldl max first := by simp
  cases rs
  case nil =>
    cases rs'
    case nil => cases hstart
    case cons first rs' =>
      obtain rfl : first = start := Option.some.inj hstart
      rw [List.nil_append, List.max?_cons'] at hlatest
      obtain rfl : rs'.foldl max first = latest := Option.some.inj hlatest
      rw [run_nil, spent_none, ← hfirst]
      exact (owns_full first).spent_le (first :: rs')
  case cons first rs =>
    rw [List.max?_cons'] at hstart
    obtain rfl : rs.foldl max first = start := Option.some.inj hstart
    rw [List.cons_append, List.max?_cons', List.foldl_append] at hlatest
    obtain rfl : rs'.foldl max (rs.foldl max first) = latest := Option.some.inj hlatest
    obtain ⟨b, hrun, howns, hlast⟩ := (owns_full first).run_step (first :: rs)
    rw [Bucket.full, hfirst] at hlast
    rw [run_none, hrun, ← hlast]
    exact howns.spent_le rs'

theorem allowed_le_burst_two :
    let t : Tenant := ⟨lit "acme", 2, 2, by decide, by decide, by decide⟩
    let call (ms : Int) : AllowCall := ⟨lit "acme", 2, 2, ms * 1000000⟩
    let before := [call 500, call 200, ⟨lit "other", 1, 1, 9000000000⟩]
    let block := [call 100, ⟨lit "other", 1, 1, 0⟩, call 1000, call 1000]
    t.allowed (run TokenBucket.step ∅ before) block = 1 ∧
    (t.allowed (run TokenBucket.step ∅ before) block : ℚ) ≤ 2 + 2 * seconds (1000000000 - 500000000) :=
  ⟨by decide +kernel, allowed_le_burst ⟨lit "acme", 2, 2, by decide, by decide, by decide⟩ _ _ (by decide +kernel)
    500000000 1000000000 (by decide +kernel) (by decide +kernel)⟩

end Tenant

end SmppGateway
