import SmppGateway.Config.Types
import SmppGateway.Lib.Machine

-- The limit on failed logins of `internal/admin/ratelimit.go`, and the requests of `Server.login` in
-- `internal/admin/server.go` that go through it side by side.

namespace SmppGateway

open Go Machine

namespace Admin

structure LoginFailure where
  start : Time := 0
  count : Nat := 0

structure LoginLimiter where
  failures : Map Str LoginFailure := ∅
  limit    : Int
  window   : Duration

def newLoginLimiter (limit : Int) (window : Duration) : LoginLimiter where
  limit  := if limit ≤ 0 then 5 else limit
  window := if window ≤ 0 then 15 * 60 * 1000000000 else window

namespace LoginLimiter

variable (l : LoginLimiter) (key : Str) (now : Time)

-- A map gives the zero value for a key that it does not have.
def failure : LoginFailure :=
  (l.failures.lookup key).getD {}

def expired : Bool :=
  (l.failure key).start = 0 ∨ l.window ≤ timeSub now (l.failure key).start

def allow : Bool × LoginLimiter :=
  if l.expired key now then
    (true, { l with failures := l.failures.erase key })
  else
    ((l.failure key).count < l.limit, l)

def fail : LoginLimiter :=
  if l.expired key now then
    { l with failures := l.failures.insert key { start := now, count := 1 } }
  else
    { l with failures := l.failures.insert key { l.failure key with count := (l.failure key).count + 1 } }

def reset : LoginLimiter :=
  { l with failures := l.failures.erase key }

def charged : Nat :=
  (l.failure key).count

variable {l key now} {k : Str}

theorem charged_erase : charged { l with failures := l.failures.erase key } k = if k = key then 0 else l.charged k := by
  simp only [charged, failure, Map.lookup_erase_eq]
  split <;> rfl

theorem charged_insert {f : LoginFailure} :
    charged { l with failures := l.failures.insert key f } k = if k = key then f.count else l.charged k := by
  simp only [charged, failure, Map.lookup_insert_eq]
  split <;> rfl

theorem limit_allow : (l.allow key now).2.limit = l.limit := by
  rw [allow]
  split <;> rfl

theorem limit_fail : (l.fail key now).limit = l.limit := by
  rw [fail]
  split <;> rfl

theorem charged_allow_le : (l.allow key now).2.charged k ≤ l.charged k := by
  rw [allow]
  split
  case isTrue =>
    rw [charged_erase]
    split <;> omega
  case isFalse => exact Nat.le_refl _

theorem charged_fail_le : (l.fail key now).charged k ≤ l.charged k + if k = key then 1 else 0 := by
  rw [fail]
  split
  case isTrue =>
    rw [charged_insert]
    split
    case isTrue => exact Nat.le_add_left 1 _
    case isFalse => omega
  case isFalse =>
    rw [charged_insert]
    split
    case isTrue hk => rw [hk, charged]
    case isFalse => omega

theorem charged_reset_le : (l.reset key).charged k ≤ l.charged k := by
  rw [reset, charged_erase]
  split <;> omega

theorem charged_allow (h : l.failures.lookup k ≠ none → k = key → l.expired key now = false) :
    (l.allow key now).2.charged k = l.charged k := by
  rw [allow]
  split
  case isTrue hexpired =>
    rw [charged_erase]
    split
    case isTrue hk =>
      cases hl : l.failures.lookup k
      case none => rw [charged, failure, hl]; rfl
      case some => cases hexpired.symm.trans (h (by simp [hl]) hk)
    case isFalse => rfl
  case isFalse => rfl

theorem charged_fail (h : l.failures.lookup k ≠ none → k = key → l.expired key now = false) :
    (l.fail key now).charged k = l.charged k + if k = key then 1 else 0 := by
  rw [fail]
  split
  case isTrue hexpired =>
    rw [charged_insert]
    split
    case isTrue hk =>
      cases hl : l.failures.lookup k
      case none => rw [charged, failure, hl]; rfl
      case some => cases hexpired.symm.trans (h (by simp [hl]) hk)
    case isFalse => rfl
  case isFalse =>
    rw [charged_insert]
    split
    case isTrue hk => rw [hk, charged]
    case isFalse => rfl

end LoginLimiter

structure LoginForm where
  ip       : Str
  username : Str
  password : Str

def LoginForm.wrong (admin : Config.AdminConfig) (form : LoginForm) : Bool :=
  !constantTimeEqual (trimSpaceStr form.username) admin.username || !constantTimeEqual form.password admin.password

inductive Phase
  | arrived
  | allowed  -- `Allow` has returned true
  | failed   -- the comparison has failed, `Fail` is still to come
  | passed   -- the comparison has succeeded
  | done
  deriving DecidableEq

structure Request where
  form  : LoginForm
  phase : Phase := .arrived

structure Logins where
  limiter  : LoginLimiter
  requests : List Request := []

inductive Event
  | arrive (form : LoginForm)
  | allow (i : Nat) (now : Time)
  | compare (i : Nat)
  | fail (i : Nat) (now : Time)
  | session (i : Nat) (created : Bool)  -- `sessions.New`, and `Reset` where it succeeds

namespace Logins

def step (admin : Config.AdminConfig) (s : Logins) : Event → Logins
  | .arrive form => { s with requests := s.requests ++ [{ form := form }] }
  | .allow i now =>
    match s.requests[i]? with
    | some ⟨form, .arrived⟩ =>
      let (ok, l) := s.limiter.allow form.ip now
      { limiter := l, requests := s.requests.set i ⟨form, if ok then .allowed else .done⟩ }
    | _ => s
  | .compare i =>
    match s.requests[i]? with
    | some ⟨form, .allowed⟩ =>
      { s with requests := s.requests.set i ⟨form, if form.wrong admin then .failed else .passed⟩ }
    | _ => s
  | .fail i now =>
    match s.requests[i]? with
    | some ⟨form, .failed⟩ =>
      { limiter := s.limiter.fail form.ip now, requests := s.requests.set i ⟨form, .done⟩ }
    | _ => s
  | .session i created =>
    match s.requests[i]? with
    | some ⟨form, .passed⟩ =>
      { limiter := if created then s.limiter.reset form.ip else s.limiter, requests := s.requests.set i ⟨form, .done⟩ }
    | _ => s

inductive Moves (admin : Config.AdminConfig) (s : Logins) : Event → Logins → Prop
  | idle {e} : Moves admin s e s
  | arrive (form : LoginForm) : Moves admin s (.arrive form) { s with requests := s.requests ++ [{ form := form }] }
  | allow {i now form} (at_i : s.requests[i]? = some ⟨form, .arrived⟩)
    (ok : (s.limiter.allow form.ip now).1 = true) :
      Moves admin s (.allow i now)
        { limiter := (s.limiter.allow form.ip now).2, requests := s.requests.set i ⟨form, .allowed⟩ }
  | refuse {i now form} (at_i : s.requests[i]? = some ⟨form, .arrived⟩) :
      Moves admin s (.allow i now)
        { limiter := (s.limiter.allow form.ip now).2, requests := s.requests.set i ⟨form, .done⟩ }
  | mismatch {i form} (at_i : s.requests[i]? = some ⟨form, .allowed⟩) (wrong : form.wrong admin = true) :
      Moves admin s (.compare i) { s with requests := s.requests.set i ⟨form, .failed⟩ }
  | accept {i form} (at_i : s.requests[i]? = some ⟨form, .allowed⟩) (right : form.wrong admin = false) :
      Moves admin s (.compare i) { s with requests := s.requests.set i ⟨form, .passed⟩ }
  | fail {i now form} (at_i : s.requests[i]? = some ⟨form, .failed⟩) :
      Moves admin s (.fail i now)
        { limiter := s.limiter.fail form.ip now, requests := s.requests.set i ⟨form, .done⟩ }
  | session {i form} (created : Bool) (at_i : s.requests[i]? = some ⟨form, .passed⟩) :
      Moves admin s (.session i created)
        { limiter := if created then s.limiter.reset form.ip else s.limiter
          requests := s.requests.set i ⟨form, .done⟩ }

theorem step_moves (admin : Config.AdminConfig) (s : Logins) (e : Event) : Moves admin s e (s.step admin e) := by
  cases e <;> simp only [step]
  case arrive form => exact .arrive form
  case allow i now =>
    split
    case h_1 form hi =>
      cases hok : (s.limiter.allow form.ip now).1
      case true => exact .allow hi hok
      case false => exact .refuse hi
    case h_2 => exact .idle
  case compare i =>
    split
    case h_1 form hi =>
      cases hw : form.wrong admin
      case true => exact .mismatch hi hw
      case false => exact .accept hi hw
    case h_2 => exact .idle
  case fail i now =>
    split
    case h_1 form hi => exact .fail hi
    case h_2 => exact .idle
  case session i created =>
    split
    case h_1 form hi => exact .session created hi
    case h_2 => exact .idle

variable (admin : Config.AdminConfig) (key : Str) (s : Logins)

-- The requests of an address that have been let through and whose failure is not charged yet.
def underway (r : Request) : Bool :=
  r.form.ip = key ∧ r.form.wrong admin ∧ (r.phase = .allowed ∨ r.phase = .failed)

def uncharged (r : Request) : Bool :=
  r.form.ip = key ∧ r.form.wrong admin ∧ r.phase = .failed

-- A request that will fail is let through only where the window has room for it, next to the failures that are charged
-- and to the requests under way that will fail too.
def Room : Event → Prop
  | .allow i now =>
    ∀ r ∈ s.requests[i]?, r.phase = .arrived → r.form.wrong admin = true →
      (s.limiter.allow r.form.ip now).1 = true →
        ((s.limiter.allow r.form.ip now).2.charged r.form.ip + s.requests.countP (underway admin r.form.ip) : Int) <
          s.limiter.limit
  | _ => True

def Within : Event → Prop
  | .allow i now | .fail i now =>
    (s.requests[i]?).any (·.form.ip = key) → s.limiter.failures.lookup key ≠ none → s.limiter.expired key now = false
  | .session i created => (s.requests[i]?).any (·.form.ip = key) → created = false
  | _ => True

def mismatches : Event → Bool
  | .compare i => (s.requests[i]?).any fun r => r.form.ip = key ∧ r.form.wrong admin ∧ r.phase = .allowed
  | _          => false

def failures : Logins → List Event → Nat
  | _, []      => 0
  | s, e :: es => (if s.mismatches admin key e then 1 else 0) + failures (s.step admin e) es

-- In every part of the run in which an address has one window and does not log in, at most `limit` of its comparisons
-- fail.
def Limited (es : List Event) : Prop :=
  ∀ key pre mid post, es = pre ++ mid ++ post → Along (step admin) (Within key) (run (step admin) s pre) mid →
    failures admin key (run (step admin) s pre) mid ≤ s.limiter.limit

instance : (e : Event) → Decidable (Room admin s e)
  | .arrive _    => inferInstanceAs (Decidable True)
  | .allow ..    => inferInstanceAs (Decidable (∀ r ∈ _, _))
  | .compare _   => inferInstanceAs (Decidable True)
  | .fail ..     => inferInstanceAs (Decidable True)
  | .session ..  => inferInstanceAs (Decidable True)

instance : (e : Event) → Decidable (Within key s e)
  | .arrive _    => inferInstanceAs (Decidable True)
  | .allow ..    => inferInstanceAs (Decidable (_ → _ → _))
  | .compare _   => inferInstanceAs (Decidable True)
  | .fail ..     => inferInstanceAs (Decidable (_ → _ → _))
  | .session ..  => inferInstanceAs (Decidable (_ → _))

structure Inv (limit : Int) : Prop where
  limit_eq : s.limiter.limit = limit
  failed   : ∀ r ∈ s.requests, r.phase = .failed → r.form.wrong admin = true
  bounded  : ∀ key, (s.limiter.charged key + s.requests.countP (underway admin key) : Int) ≤ limit

variable {admin key s} {s' : Logins} {e : Event} {limit : Int} {i : Nat} {l : LoginLimiter}

theorem Inv.move {r r' : Request} (h : Inv admin s limit) (hi : s.requests[i]? = some r)
    (hlimit : l.limit = s.limiter.limit) (hfailed : r'.phase = .failed → r'.form.wrong admin = true)
    (hle : ∀ key, (l.charged key + s.requests.countP (underway admin key) +
      if underway admin key r' then 1 else 0 : Nat) ≤ limit + (if underway admin key r then 1 else 0 : Nat)) :
    Inv admin ⟨l, s.requests.set i r'⟩ limit := by
  refine ⟨hlimit.trans h.limit_eq, fun x hx => ?_, fun key => ?_⟩
  case refine_1 =>
    rcases List.mem_or_eq_of_mem_set hx with hmem | rfl
    case inl => exact h.failed x hmem
    case inr => exact hfailed
  case refine_2 =>
    have hcount := countP_set (underway admin key) hi r'
    have hmove := hle key
    dsimp only
    omega

theorem Inv.move_of_le {r r' : Request} (h : Inv admin s limit) (hi : s.requests[i]? = some r)
    (hlimit : l.limit = s.limiter.limit) (hfailed : r'.phase = .failed → r'.form.wrong admin = true)
    (hle : ∀ key, l.charged key + (if underway admin key r' then 1 else 0) ≤
      s.limiter.charged key + if underway admin key r then 1 else 0) :
    Inv admin ⟨l, s.requests.set i r'⟩ limit := by
  refine h.move hi hlimit hfailed fun key => ?_
  have hbounded := h.bounded key
  have hmove := hle key
  omega

theorem Inv.step (h : Inv admin s limit) (hroom : Room admin s e) : Inv admin (s.step admin e) limit := by
  have hmoves := step_moves admin s e
  generalize s.step admin e = s' at hmoves
  cases hmoves
  case idle => exact h
  case arrive form =>
    refine ⟨h.limit_eq, ?_, fun key => ?_⟩
    case refine_1 => simpa [or_imp, forall_and] using h.failed
    case refine_2 => simpa [underway] using h.bounded key
  case allow i now form hi hok =>
    refine h.move hi LoginLimiter.limit_allow nofun fun key => ?_
    by_cases hkey : form.ip = key ∧ form.wrong admin = true
    case pos =>
      obtain ⟨rfl, hwrong⟩ := hkey
      have hspare := hroom ⟨form, .arrived⟩ hi rfl hwrong hok
      rw [h.limit_eq] at hspare
      simpa [underway, hwrong] using Int.add_one_le_of_lt hspare
    case neg =>
      have hle : (s.limiter.allow form.ip now).2.charged key ≤ s.limiter.charged key := LoginLimiter.charged_allow_le
      have hbounded := h.bounded key
      have hnot : underway admin key ⟨form, .allowed⟩ = false :=
        decide_eq_false fun hu => hkey ⟨hu.1, hu.2.1⟩
      simp only [hnot, Bool.false_eq_true, if_false]
      omega
  case refuse i now form hi =>
    refine h.move_of_le hi LoginLimiter.limit_allow nofun fun key => ?_
    simpa [underway] using LoginLimiter.charged_allow_le
  case mismatch i form hi hwrong =>
    refine h.move_of_le hi rfl (fun _ => hwrong) fun key => ?_
    simp [underway]
  case accept i form hi hright =>
    refine h.move_of_le hi rfl nofun fun key => ?_
    simp [underway]
  case fail i now form hi =>
    have hwrong := h.failed _ (List.mem_of_getElem? hi) rfl
    refine h.move_of_le hi LoginLimiter.limit_fail nofun fun key => ?_
    have hle : (s.limiter.fail form.ip now).charged key ≤ _ := LoginLimiter.charged_fail_le
    simpa [underway, hwrong, eq_comm] using hle
  case session i form created hi =>
    refine h.move_of_le hi ?_ nofun fun key => ?_
    case refine_1 => cases created <;> rfl
    case refine_2 =>
      cases created
      case true => simpa [underway] using LoginLimiter.charged_reset_le
      case false => simp [underway]

def tally (admin : Config.AdminConfig) (key : Str) (s : Logins) : Nat :=
  s.limiter.charged key + s.requests.countP (uncharged admin key)

theorem tally_move {r r' : Request} (hi : s.requests[i]? = some r)
    (hle : s.limiter.charged key + (if uncharged admin key r then 1 else 0) ≤
      l.charged key + if uncharged admin key r' then 1 else 0) :
    tally admin key s ≤ tally admin key ⟨l, s.requests.set i r'⟩ := by
  have hcount := countP_set (uncharged admin key) hi r'
  simp only [tally]
  omega

theorem tally_le_step (h : Within key s e) : tally admin key s ≤ tally admin key (s.step admin e) := by
  have hmoves := step_moves admin s e
  generalize s.step admin e = s' at hmoves
  cases hmoves
  case idle => exact Nat.le_refl _
  case arrive form => simp [tally, uncharged]
  case allow i now form hi hok =>
    refine tally_move hi ?_
    rw [LoginLimiter.charged_allow fun hk he => he ▸ h (by simp [hi, he]) hk]
    simp [uncharged]
  case refuse i now form hi =>
    refine tally_move hi ?_
    rw [LoginLimiter.charged_allow fun hk he => he ▸ h (by simp [hi, he]) hk]
    simp [uncharged]
  case mismatch i form hi hwrong =>
    refine tally_move hi ?_
    simp [uncharged]
  case accept i form hi hright =>
    refine tally_move hi ?_
    simp [uncharged]
  case fail i now form hi =>
    refine tally_move hi ?_
    rw [LoginLimiter.charged_fail fun hk he => he ▸ h (by simp [hi, he]) hk]
    simp only [uncharged]
    grind
  case session i form created hi =>
    refine tally_move hi ?_
    cases created
    case false => simp [uncharged]
    case true =>
      have hne : key ≠ form.ip := by
        rintro rfl
        cases h (by simp [hi])
      simp [LoginLimiter.reset, LoginLimiter.charged_erase, hne, uncharged]

theorem tally_step (h : Within key s e) :
    tally admin key s + (if s.mismatches admin key e then 1 else 0) ≤ tally admin key (s.step admin e) := by
  cases hm : s.mismatches admin key e
  case false => exact tally_le_step h
  case true =>
    cases e <;> simp only [mismatches, Bool.false_eq_true] at hm
    case compare i =>
      obtain ⟨⟨form, phase⟩, hi, hr⟩ := Option.any_eq_true _ _ |>.mp hm
      obtain ⟨rfl, hwrong, rfl⟩ := of_decide_eq_true hr
      have hcount := countP_set (uncharged admin form.ip) hi ⟨form, .failed⟩
      simp [uncharged, hwrong] at hcount
      simp [step, hi, hwrong, tally]
      omega

theorem failures_le (es : List Event) (h : Along (step admin) (Within key) s es) :
    tally admin key s + failures admin key s es ≤ tally admin key (run (step admin) s es) := by
  induction es generalizing s
  case nil => exact Nat.le_refl _
  case cons e es ih =>
    have hstep : tally admin key s + _ ≤ _ := tally_step h.1
    have hrun := ih h.2
    rw [failures, run_cons]
    omega

theorem Inv.tally_le (h : Inv admin s limit) : (tally admin key s : Int) ≤ limit := by
  have hle : s.requests.countP (uncharged admin key) ≤ s.requests.countP (underway admin key) := by
    refine List.countP_mono_left fun r _ hr => ?_
    obtain ⟨hip, hwrong, hphase⟩ := of_decide_eq_true hr
    exact decide_eq_true ⟨hip, hwrong, .inr hphase⟩
  have hbounded := h.bounded key
  rw [tally]
  omega

def init (limit : Int) (window : Duration) : Logins where
  limiter := newLoginLimiter limit window

theorem inv_init (limit : Int) (window : Duration) :
    Inv admin (init limit window) (newLoginLimiter limit window).limit := by
  refine ⟨rfl, by simp [init], fun key => ?_⟩
  have hcharged : (newLoginLimiter limit window).charged key = 0 := rfl
  have hpositive : 0 ≤ (newLoginLimiter limit window).limit := by
    simp only [newLoginLimiter]
    split <;> omega
  simpa [init, hcharged] using hpositive

theorem room_of_alone {now : Time} (hlimit : 0 < s.limiter.limit)
    (halone : ∀ r ∈ s.requests[i]?, s.requests.countP (underway admin r.form.ip) = 0) :
    Room admin s (.allow i now) := by
  intro r hr _ _ hok
  rw [halone r hr, Int.natCast_zero, Int.add_zero]
  rw [LoginLimiter.allow] at hok ⊢
  split
  case isTrue => simpa [LoginLimiter.charged_erase] using hlimit
  case isFalse hopen =>
    rw [if_neg hopen] at hok
    exact of_decide_eq_true hok

-- Where a request that will fail is let through only while there is room for it, the limit holds whatever the order in
-- which the steps of the requests come.
theorem logins_limited (admin : Config.AdminConfig) (limit : Int) (window : Duration) (es : List Event)
    (h : Along (step admin) (Room admin) (init limit window) es) : Limited admin (init limit window) es := by
  rintro key pre mid post rfl hmid
  rw [List.append_assoc, Along.append] at h
  obtain ⟨hpre, h⟩ := h
  let I := fun s : Logins => Inv admin s (newLoginLimiter limit window).limit
  have hstart : I _ := invariant (inv_init limit window) hpre fun _ _ => Inv.step
  have hend : I _ := invariant hstart (Along.append.mp h).1 fun _ _ => Inv.step
  have hle := failures_le mid hmid
  have hbound : (tally admin key _ : Int) ≤ _ := hend.tally_le
  change (failures admin key _ mid : Int) ≤ (newLoginLimiter limit window).limit
  omega

theorem logins_limited_in_a_row :
    let form : LoginForm := ⟨lit "10.0.0.7", lit "admin", lit "guess"⟩
    let es : List Event := [.arrive form, .allow 0 1, .compare 0, .fail 0 2, .arrive form, .allow 1 3, .compare 1,
      .fail 1 4, .arrive form, .allow 2 5, .compare 2]
    let admin : Config.AdminConfig := ⟨lit "admin", lit "secret"⟩
    failures admin (lit "10.0.0.7") (init 2 0) es = 2 ∧ Limited admin (init 2 0) es := by
  intro form es admin
  exact ⟨by decide +kernel, logins_limited admin 2 0 es (by decide +kernel)⟩

-- The first of six requests opens the window of the server's limiter, which allows five failures. The others are let
-- through before any of them has failed, and all of them fail.
theorem limit_overrun :
    let form : LoginForm := ⟨lit "10.0.0.7", lit "admin", lit "guess"⟩
    let es := List.replicate 6 (.arrive form) ++ [.allow 0 1, .compare 0, .fail 0 1] ++
      (List.range 5).map (fun i => .allow (i + 1) 2) ++ (List.range 5).map (fun i => .compare (i + 1)) ++
      (List.range 5).map (fun i => .fail (i + 1) 3)
    ¬Limited ⟨lit "admin", lit "secret"⟩ (init 5 (15 * 60 * 1000000000)) es := by
  intro form es h
  have hle := h (lit "10.0.0.7") [] es [] (by simp) (by decide +kernel)
  exact absurd hle (by decide +kernel)

end Logins

end Admin

end SmppGateway
