import SmppGateway.Gateway.Http
import SmppGateway.Go.Date
import SmppGateway.Lib.Machine

-- The limits on the submissions of a client and to a number (`applyRisk` and `allowRate` of
-- `internal/httpgw/rules.go`).

namespace SmppGateway

open Go Machine

structure RateWindow where
  start     : Time := 0
  expiresAt : Time := 0
  count     : Int := 0
  deriving DecidableEq

structure RiskConfig where
  perNumberPerMinute : Int
  perNumberPerDay    : Int
  perClientPerSecond : Int

structure RiskCounts where
  riskCounts : Map Str RateWindow := ∅
  riskSweep  : Time := 0

structure RiskRequest where
  clientID : Str
  dest     : Str
  now      : Time

structure Refusal where
  reason : Str
  answer : Str
  deriving DecidableEq

namespace RiskCounts

variable (g : RiskCounts)

def sweep (now : Time) : RiskCounts :=
  if g.riskSweep = 0 ∨ Go.minute ≤ timeSub now g.riskSweep then
    { riskCounts := g.riskCounts.filter fun _ record => !(record.expiresAt ≠ 0 && record.expiresAt < now)
      riskSweep  := now }
  else
    g

def record (key : Str) : RateWindow :=
  (g.riskCounts.lookup key).getD {}

def allowRate (now : Time) (key : Str) (window : Duration) (limit : Int) : Bool × RiskCounts :=
  let g := g.sweep now
  let record := g.record key
  if record.start = 0 ∨ window ≤ timeSub now record.start then
    (true, { g with riskCounts :=
      g.riskCounts.insert key { start := now, expiresAt := now + window, count := 1 } })
  else if record.count ≥ limit then
    (false, g)
  else
    (true, { g with riskCounts := g.riskCounts.insert key { record with count := record.count + 1 } })

end RiskCounts

inductive Budget
  | numberMinute
  | numberDay
  | clientSecond
  deriving DecidableEq

namespace Budget

def key : Budget → Str → Str
  | numberMinute, dest     => lit "num:min:" ++ dest
  | numberDay, dest        => lit "num:day:" ++ dest
  | clientSecond, clientID => lit "client:sec:" ++ clientID

def window : Budget → Duration
  | numberMinute => Go.minute
  | numberDay    => 24 * Go.hour
  | clientSecond => Go.second

def limit (cfg : RiskConfig) : Budget → Int
  | numberMinute => cfg.perNumberPerMinute
  | numberDay    => cfg.perNumberPerDay
  | clientSecond => cfg.perClientPerSecond

def refusal : Budget → Refusal
  | numberMinute => ⟨lit "number_rate_minute", lit "number rate limit exceeded"⟩
  | numberDay    => ⟨lit "number_rate_day", lit "number daily limit exceeded"⟩
  | clientSecond => ⟨lit "client_rate_second", lit "client rate limit exceeded"⟩

end Budget

namespace RiskCounts

variable (g : RiskCounts)

def charge (cfg : RiskConfig) (b : Budget) (name : Str) (now : Time) : Bool × RiskCounts :=
  if b.limit cfg > 0 then g.allowRate now (b.key name) b.window (b.limit cfg) else (true, g)

def applyRisk (cfg : RiskConfig) (r : RiskRequest) : Option Refusal × RiskCounts :=
  let (ok, g) := g.charge cfg .numberMinute r.dest r.now
  if !ok then
    (some (Budget.refusal .numberMinute), g)
  else
    let (ok, g) := g.charge cfg .numberDay r.dest r.now
    if !ok then
      (some (Budget.refusal .numberDay), g)
    else if r.clientID = [] then
      (none, g)
    else
      let (ok, g) := g.charge cfg .clientSecond r.clientID r.now
      if !ok then (some (Budget.refusal .clientSecond), g) else (none, g)

end RiskCounts

theorem Budget.key_inj {b b' : Budget} {name name' : Str} : b.key name = b'.key name' ↔ b = b' ∧ name = name' := by
  constructor
  case mp =>
    intro h
    have hb : b = b' := by
      -- The fifth byte tells the three apart.
      have hbyte := congrArg (·[4]?) h
      cases b <;> cases b' <;> first | rfl | exact absurd (Option.some.inj hbyte) (by decide)
    subst hb
    refine ⟨rfl, ?_⟩
    cases b <;> exact List.append_cancel_left h
  case mpr =>
    rintro ⟨rfl, rfl⟩
    rfl

theorem Budget.window_bounds (b : Budget) : 0 < b.window ∧ b.window < 2 ^ 63 := by
  cases b <;> decide

namespace RiskCounts

variable {g g' g'' : RiskCounts} {cfg : RiskConfig} {b : Budget} {name key : Str} {now : Time} {record : RateWindow}
  {ok : Bool}

def Timed (g : RiskCounts) : Prop :=
  ∀ (b : Budget) (name : Str), ∀ record ∈ g.riskCounts.lookup (b.key name),
    record.expiresAt = record.start + b.window

def Idle (g : RiskCounts) (b : Budget) (name : Str) (now : Time) : Prop :=
  ∀ record ∈ g.riskCounts.lookup (b.key name), record.start = 0 ∨ b.window ≤ now - record.start

def Room (g : RiskCounts) (cfg : RiskConfig) (b : Budget) (name : Str) (now : Time) : Prop :=
  ∀ record ∈ g.riskCounts.lookup (b.key name),
    record.start = 0 ∨ b.window ≤ now - record.start ∨ record.count < b.limit cfg

-- A key that is not charged keeps its window, unless the sweep finds it over.
def Fades (g g' : RiskCounts) (now : Time) (key : Str) : Prop :=
  g'.riskCounts.lookup key = g.riskCounts.lookup key ∨
    g'.riskCounts.lookup key = none ∧ ∃ record ∈ g.riskCounts.lookup key, record.expiresAt < now

theorem Fades.trans (h : Fades g g' now key) (h' : Fades g' g'' now key) : Fades g g'' now key := by
  rcases h with h | ⟨h, hover⟩
  case inl => rwa [Fades, h] at h'
  case inr =>
    refine .inr ⟨?_, hover⟩
    rcases h' with h' | ⟨h', -⟩
    case inl => exact h'.trans h
    case inr => exact h'

theorem Fades.keeps (h : Fades g g' now key) (hfound : g.riskCounts.lookup key = some record)
    (hrunning : now ≤ record.expiresAt) : g'.riskCounts.lookup key = some record := by
  rcases h with h | ⟨-, gone, hgone, hlt⟩
  case inl => exact h.trans hfound
  case inr =>
    cases Option.some.inj (hgone.symm.trans hfound)
    exact absurd hrunning (not_le.mpr hlt)

theorem Fades.mem (h : Fades g g' now key) (hfound : record ∈ g'.riskCounts.lookup key) :
    record ∈ g.riskCounts.lookup key := by
  rcases h with h | ⟨h, -⟩
  case inl => rwa [h] at hfound
  case inr =>
    rw [h] at hfound
    cases hfound

theorem Fades.forall_iff {P : RateWindow → Prop} (h : Fades g g' now (b.key name)) (ht : g.Timed)
    (hover : ∀ record : RateWindow, b.window ≤ now - record.start → P record) :
    (∀ record ∈ g'.riskCounts.lookup (b.key name), P record) ↔
      ∀ record ∈ g.riskCounts.lookup (b.key name), P record := by
  constructor
  case mpr => exact fun hall record hfound => hall record (h.mem hfound)
  case mp =>
    intro hall record hfound
    rcases h with h | ⟨-, gone, hgone, hlt⟩
    case inl => exact hall record (h ▸ hfound)
    case inr =>
      cases Option.some.inj (hgone.symm.trans hfound)
      have hend := ht b name record hfound
      rw [hend] at hlt
      exact hover record (lt_sub_iff_add_lt'.mpr hlt).le

theorem Fades.room_iff (h : Fades g g' now (b.key name)) (ht : g.Timed) :
    g'.Room cfg b name now ↔ g.Room cfg b name now :=
  h.forall_iff ht fun _ hover => .inr (.inl hover)

theorem Fades.idle_iff (h : Fades g g' now (b.key name)) (ht : g.Timed) :
    g'.Idle b name now ↔ g.Idle b name now :=
  h.forall_iff ht fun _ hover => .inr hover

theorem sweep_fades (g : RiskCounts) (now : Time) (key : Str) : Fades g (g.sweep now) now key := by
  unfold sweep
  split
  case isFalse => exact .inl rfl
  case isTrue =>
    rw [Fades]
    simp only [Map.lookup_filter]
    cases hfound : g.riskCounts.lookup key
    case none => exact .inl rfl
    case some record =>
      rw [Option.filter_some]
      split
      case isTrue => exact .inl rfl
      case isFalse hover =>
        simp only [Bool.not_eq_true', Bool.and_eq_false_iff, decide_eq_false_iff_not, not_or, not_not] at hover
        exact .inr ⟨rfl, record, rfl, hover.2⟩

inductive Charge (g g' : RiskCounts) (cfg : RiskConfig) (b : Budget) (name : Str) (now : Time) : Bool → Prop
  | opened (idle : g.Idle b name now)
    (self : g'.riskCounts.lookup (b.key name) = some { start := now, expiresAt := now + b.window, count := 1 }) :
    Charge g g' cfg b name now true
  | counted (record : RateWindow) (found : g.riskCounts.lookup (b.key name) = some record) (started : record.start ≠ 0)
    (running : now - record.start < b.window) (room : record.count < b.limit cfg)
    (self : g'.riskCounts.lookup (b.key name) = some { record with count := record.count + 1 }) :
    Charge g g' cfg b name now true
  | refused (record : RateWindow) (found : g.riskCounts.lookup (b.key name) = some record) (started : record.start ≠ 0)
    (running : now - record.start < b.window) (full : b.limit cfg ≤ record.count)
    (self : g'.riskCounts.lookup (b.key name) = some record) :
    Charge g g' cfg b name now false

theorem Charge.room_iff (h : Charge g g' cfg b name now ok) : ok = true ↔ g.Room cfg b name now := by
  cases h
  case opened idle self =>
    simp only [true_iff]
    intro record hfound
    rcases idle record hfound with h | h
    case inl => exact .inl h
    case inr => exact .inr (.inl h)
  case counted record found started running room self =>
    simp [Room, found, room]
  case refused record found started running full self =>
    simp only [Room, found, Option.mem_some_iff, forall_eq', Bool.false_eq_true, false_iff, not_or]
    exact ⟨started, not_le.mpr running, not_lt.mpr full⟩

theorem record_eq (h : g.riskCounts.lookup key = some record) : g.record key = record := by
  rw [RiskCounts.record, h, Option.getD_some]

theorem charge_cases (ht : g.Timed) (hlimit : 0 < b.limit cfg) (name : Str) (now : Time) :
    Charge g (g.charge cfg b name now).2 cfg b name now (g.charge cfg b name now).1 ∧
      ∀ key ≠ b.key name, Fades g (g.charge cfg b name now).2 now key := by
  have hsweep := sweep_fades g now
  obtain ⟨hpos, hfits⟩ := b.window_bounds
  have hother (record : RateWindow) : ∀ key ≠ b.key name,
      Fades g ⟨(g.sweep now).riskCounts.insert (b.key name) record, (g.sweep now).riskSweep⟩ now key := by
    intro key hne
    rw [Fades, AList.lookup_insert_ne hne]
    exact hsweep key
  rw [charge, if_pos hlimit]
  simp only [allowRate, ge_iff_le, le_timeSub (lt_trans (by decide) hpos) hfits]
  split
  case isTrue hidle =>
    refine ⟨.opened ?_ (AList.lookup_insert _), hother _⟩
    rw [← (hsweep _).idle_iff ht]
    intro record hfound
    rwa [record_eq hfound] at hidle
  case isFalse hrunning =>
    obtain ⟨hstarted, hrunning⟩ := not_or.mp hrunning
    -- A window that has started is one that was found.
    obtain ⟨record, hswept⟩ : ∃ record, (g.sweep now).riskCounts.lookup (b.key name) = some record := by
      refine Option.ne_none_iff_exists'.mp fun hnone => hstarted ?_
      rw [RiskCounts.record, hnone, Option.getD_none]
    have hfound := (hsweep _).mem hswept
    rw [record_eq hswept] at hstarted hrunning ⊢
    split
    case isTrue hfull =>
      exact ⟨.refused record hfound hstarted (not_le.mp hrunning) hfull hswept, fun key _ => hsweep key⟩
    case isFalse hroom =>
      exact ⟨.counted record hfound hstarted (not_le.mp hrunning) (not_le.mp hroom) (AList.lookup_insert _), hother _⟩

structure Charged (g g' : RiskCounts) (cfg : RiskConfig) (b : Budget) (name : Str) (now : Time) (ok : Bool) : Prop where
  timed : g'.Timed
  self  : Charge g g' cfg b name now ok
  other : ∀ key ≠ b.key name, Fades g g' now key

theorem charged (ht : g.Timed) (hlimit : 0 < b.limit cfg) (name : Str) (now : Time) :
    Charged g (g.charge cfg b name now).2 cfg b name now (g.charge cfg b name now).1 := by
  obtain ⟨self, other⟩ := charge_cases ht hlimit name now
  refine ⟨?_, self, other⟩
  intro b' name' record hfound
  by_cases hkey : b'.key name' = b.key name
  case neg => exact ht b' name' record ((other _ hkey).mem hfound)
  case pos =>
    obtain ⟨rfl, rfl⟩ := Budget.key_inj.mp hkey
    generalize g.charge cfg b' name' now = res at self hfound
    obtain ⟨ok, g'⟩ := res
    cases self
    case opened idle self =>
      cases Option.some.inj (hfound.symm.trans self)
      rfl
    case counted old found started running room self =>
      cases Option.some.inj (hfound.symm.trans self)
      exact ht b' name' old found
    case refused old found started running full self =>
      cases Option.some.inj (hfound.symm.trans self)
      exact ht b' name' record found

theorem Charge.fades (h : Charge g g' cfg b name now ok) (ht : g.Timed) (hf : Fades g' g'' now (b.key name)) :
    Charge g g'' cfg b name now ok := by
  have hend {record : RateWindow} (found : g.riskCounts.lookup (b.key name) = some record)
      (running : now - record.start < b.window) : now ≤ record.expiresAt := by
    rw [ht b name record found]
    exact (sub_lt_iff_lt_add'.mp running).le
  cases h
  case opened idle self =>
    have hwindow := b.window_bounds.1
    exact .opened idle (hf.keeps self (le_add_of_nonneg_right hwindow.le))
  case counted record found started running room self =>
    have hkeeps := hend found running
    exact .counted record found started running room (hf.keeps self hkeeps)
  case refused record found started running full self =>
    exact .refused record found started running full (hf.keeps self (hend found running))

theorem Charge.of_fades (h : Charge g' g'' cfg b name now ok) (ht : g.Timed) (hf : Fades g g' now (b.key name)) :
    Charge g g'' cfg b name now ok := by
  cases h
  case opened idle self => exact .opened ((hf.idle_iff ht).mp idle) self
  case counted record found started running room self =>
    exact .counted record (hf.mem found) started running room self
  case refused record found started running full self =>
    exact .refused record (hf.mem found) started running full self

theorem Charged.fades {b' : Budget} {name' : Str} (h : Charged g g' cfg b name now ok) (hb : b' ≠ b) :
    Fades g g' now (b'.key name') :=
  h.other _ fun hkey => hb (Budget.key_inj.mp hkey).1

end RiskCounts

structure RiskConfig.Positive (cfg : RiskConfig) : Prop where
  minute : 0 < cfg.perNumberPerMinute
  day    : 0 < cfg.perNumberPerDay
  client : 0 < cfg.perClientPerSecond

theorem RiskConfig.Positive.limit {cfg : RiskConfig} (h : cfg.Positive) (b : Budget) : 0 < b.limit cfg := by
  cases b
  case numberMinute => exact h.minute
  case numberDay => exact h.day
  case clientSecond => exact h.client

namespace RiskCounts

variable {g : RiskCounts} {cfg : RiskConfig} {r : RiskRequest}

-- The minute is charged first; what it lets pass is charged to the day, and what the day lets pass to the client.
structure Billed (g g' : RiskCounts) (cfg : RiskConfig) (r : RiskRequest) (refusal : Option Refusal) : Prop where
  timed         : g'.Timed
  minute        : ∃ ok, Charge g g' cfg .numberMinute r.dest r.now ok
  day           : g.Room cfg .numberMinute r.dest r.now → ∃ ok, Charge g g' cfg .numberDay r.dest r.now ok
  day_spared    : ¬g.Room cfg .numberMinute r.dest r.now → Fades g g' r.now (Budget.numberDay.key r.dest)
  other         : ∀ b : Budget, b ≠ .clientSecond → ∀ name ≠ r.dest, Fades g g' r.now (b.key name)
  admitted_iff  : refusal = none ↔ g.Room cfg .numberMinute r.dest r.now ∧ g.Room cfg .numberDay r.dest r.now ∧
    (r.clientID ≠ [] → g.Room cfg .clientSecond r.clientID r.now)

theorem Billed.of_charged {gm gd g' : RiskCounts} {okd : Bool} {refusal : Option Refusal} (ht : g.Timed)
    (hm : Charged g gm cfg .numberMinute r.dest r.now true) (hd : Charged gm gd cfg .numberDay r.dest r.now okd)
    (timed : g'.Timed) (hrest : ∀ b : Budget, b ≠ .clientSecond → ∀ name, Fades gd g' r.now (b.key name))
    (hadmitted : refusal = none ↔ okd = true ∧ (r.clientID ≠ [] → g.Room cfg .clientSecond r.clientID r.now)) :
    Billed g g' cfg r refusal := by
  have hroom : g.Room cfg .numberMinute r.dest r.now := hm.self.room_iff.mp rfl
  have hday : Fades g gm r.now (Budget.numberDay.key r.dest) := hm.fades (by decide)
  have hminute : Fades gm gd r.now (Budget.numberMinute.key r.dest) := hd.fades (by decide)
  refine ⟨timed, ⟨true, ?_⟩, fun _ => ⟨okd, ?_⟩, fun h => absurd hroom h, ?_, ?_⟩
  case refine_1 => exact hm.self.fades ht (hminute.trans (hrest .numberMinute (by decide) r.dest))
  case refine_2 => exact (hd.self.fades hm.timed (hrest .numberDay (by decide) r.dest)).of_fades ht hday
  case refine_3 =>
    intro b hb name hname
    have hkey {b' : Budget} : b.key name ≠ b'.key r.dest := fun hkey => hname (Budget.key_inj.mp hkey).2
    exact ((hm.other _ hkey).trans (hd.other _ hkey)).trans (hrest b hb name)
  case refine_4 => rw [hadmitted, hd.self.room_iff, hday.room_iff ht, and_iff_right hroom]

theorem billed (ht : g.Timed) (hpos : cfg.Positive) (r : RiskRequest) :
    Billed g (g.applyRisk cfg r).2 cfg r (g.applyRisk cfg r).1 := by
  unfold applyRisk
  have hm := charged ht (hpos.limit .numberMinute) r.dest r.now
  generalize g.charge cfg .numberMinute r.dest r.now = minute at hm ⊢
  obtain ⟨okm, gm⟩ := minute
  cases okm
  case false =>
    have hfull : ¬g.Room cfg .numberMinute r.dest r.now := by simpa using hm.self.room_iff
    refine ⟨hm.timed, ⟨false, hm.self⟩, fun h => absurd h hfull, fun _ => hm.fades (by decide), ?_, ?_⟩
    case refine_1 => exact fun b _ name hname => hm.other _ fun hkey => hname (Budget.key_inj.mp hkey).2
    case refine_2 => simp [hfull]
  case true =>
    have hd := charged hm.timed (hpos.limit .numberDay) r.dest r.now
    simp only [Bool.not_true, Bool.false_eq_true, if_false]
    generalize gm.charge cfg .numberDay r.dest r.now = day at hd ⊢
    obtain ⟨okd, gd⟩ := day
    have hself (b : Budget) (name : Str) : Fades gd gd r.now (b.key name) := .inl rfl
    cases okd
    case false => exact .of_charged ht hm hd hd.timed (fun b _ => hself b) (by simp)
    case true =>
      simp only [Bool.not_true, Bool.false_eq_true, if_false]
      split
      case isTrue hclient => exact .of_charged ht hm hd hd.timed (fun b _ => hself b) (by simp [hclient])
      case isFalse hclient =>
        have hc := charged hd.timed (hpos.limit .clientSecond) r.clientID r.now
        generalize gd.charge cfg .clientSecond r.clientID r.now = client at hc ⊢
        obtain ⟨okc, gc⟩ := client
        have hfades : Fades g gd r.now (Budget.clientSecond.key r.clientID) :=
          Fades.trans (hm.fades (by decide)) (hd.fades (by decide))
        have hroom := hc.self.room_iff.trans (hfades.room_iff ht)
        cases okc
        case false => exact .of_charged ht hm hd hc.timed (fun b hb name => hc.fades hb) (by simp [hclient, ← hroom])
        case true => exact .of_charged ht hm hd hc.timed (fun b hb name => hc.fades hb) (by simp [hclient, ← hroom])

end RiskCounts

def numberOf (dest : Str) : Str :=
  trimPrefix dest (lit "+")

namespace RiskCounts

variable (g : RiskCounts) (cfg : RiskConfig)

instance (b : Budget) (name : Str) (now : Time) : Decidable (g.Idle b name now) :=
  inferInstanceAs (Decidable (∀ record ∈ g.riskCounts.lookup (b.key name), _))

instance (b : Budget) (name : Str) (now : Time) : Decidable (g.Room cfg b name now) :=
  inferInstanceAs (Decidable (∀ record ∈ g.riskCounts.lookup (b.key name), _))

def Opens (r : RiskRequest) (b : Budget) (dest : Str) : Prop :=
  r.dest = dest ∧ g.Idle b dest r.now ∧ (b = .numberMinute ∨ g.Room cfg .numberMinute dest r.now)

instance (r : RiskRequest) (b : Budget) (dest : Str) : Decidable (g.Opens cfg r b dest) :=
  inferInstanceAs (Decidable (_ ∧ _))

-- Where the minute has room, so have the day and the client, and no window of the number runs under another spelling.
def Fair (r : RiskRequest) : Prop :=
  g.Room cfg .numberMinute r.dest r.now →
    (g.Room cfg .numberDay r.dest r.now ∧ (r.clientID ≠ [] → g.Room cfg .clientSecond r.clientID r.now)) ∧
    ∀ b : Budget, b ≠ .clientSecond → ∀ dest ≠ r.dest, numberOf dest = numberOf r.dest →
      ∀ record ∈ g.riskCounts.lookup (b.key dest), b.window ≤ r.now - record.start

-- The destination that the key of a window is made of is what comes after its first words.
instance (r : RiskRequest) : Decidable (g.Fair cfg r) :=
  decidable_of_iff (g.Room cfg .numberMinute r.dest r.now →
    (g.Room cfg .numberDay r.dest r.now ∧ (r.clientID ≠ [] → g.Room cfg .clientSecond r.clientID r.now)) ∧
    ∀ e ∈ g.riskCounts.entries, ∀ b ∈ [Budget.numberMinute, .numberDay],
      let dest := e.1.drop (b.key []).length
      b.key dest = e.1 → dest ≠ r.dest → numberOf dest = numberOf r.dest → b.window ≤ r.now - e.2.start) <| by
    have hdrop : ∀ (b : Budget) (dest : Str), (b.key dest).drop (b.key []).length = dest := by
      intro b dest
      cases b <;> exact List.drop_left' (by simp [Budget.key])
    refine imp_congr_right fun _ => and_congr_right fun _ => ?_
    constructor
    case mp =>
      intro h b hb dest hne hsame record hfound
      have hmem : b ∈ [Budget.numberMinute, .numberDay] := by cases b <;> simp_all
      have hentry := h ⟨b.key dest, record⟩ (Map.mem_entries_iff.mpr hfound) b hmem
      simp only [hdrop] at hentry
      exact hentry trivial hne hsame
    case mpr =>
      intro h e he b hmem dest hkey hne hsame
      have hb : b ≠ .clientSecond := by rintro rfl; simp at hmem
      exact h b hb dest hne hsame e.2 (hkey ▸ Map.mem_entries_iff.mp he)

end RiskCounts

-- The counters, and for each window of a destination the requests since it was opened and whether they were admitted.
structure RiskAudit where
  counts : RiskCounts := {}
  since  : Budget → Str → List (RiskRequest × Bool) := fun _ _ => []

namespace RiskAudit

def step (cfg : RiskConfig) (a : RiskAudit) (r : RiskRequest) : RiskAudit :=
  let res := a.counts.applyRisk cfg r
  let entry := (r, res.1.isNone)
  { counts := res.2
    since  := fun b dest => if a.counts.Opens cfg r b dest then [entry] else a.since b dest ++ [entry] }

def counts? (b : Budget) (dest : Str) (start : Time) (entry : RiskRequest × Bool) : Bool :=
  entry.2 && numberOf entry.1.dest = numberOf dest && entry.1.now - start < b.window

def Exact (a : RiskAudit) : Prop :=
  ∀ b : Budget, b ≠ .clientSecond → ∀ dest, ∀ record ∈ a.counts.riskCounts.lookup (b.key dest),
    record.count = (a.since b dest).countP (counts? b dest record.start)

variable {cfg : RiskConfig} {a : RiskAudit} {r : RiskRequest} {b : Budget} {dest : Str}

theorem countP_entry {es : List (RiskRequest × Bool)} {start : Time} {ok : Bool} :
    (es ++ [(r, ok)]).countP (counts? b dest start) = es.countP (counts? b dest start) +
      if ok ∧ numberOf r.dest = numberOf dest ∧ r.now - start < b.window then 1 else 0 := by
  rw [List.countP_append, List.countP_singleton]
  simp [counts?, and_assoc]

-- The window of the request's own destination stays exact if what is charged is admitted, and only then.
theorem exact_self_iff {ok : Bool} (hself : RiskCounts.Charge a.counts (a.step cfg r).counts cfg b r.dest r.now ok)
    (hexact : ∀ record ∈ a.counts.riskCounts.lookup (b.key r.dest),
      record.count = (a.since b r.dest).countP (counts? b r.dest record.start))
    (hreached : b = .numberMinute ∨ a.counts.Room cfg .numberMinute r.dest r.now) :
    (∀ record ∈ (a.step cfg r).counts.riskCounts.lookup (b.key r.dest),
      record.count = ((a.step cfg r).since b r.dest).countP (counts? b r.dest record.start)) ↔
      ok = (a.counts.applyRisk cfg r).1.isNone := by
  have hwindow := b.window_bounds.1
  -- A window that is running is not opened, and the request is added to what has come to it.
  have hsince {record : RateWindow} (found : a.counts.riskCounts.lookup (b.key r.dest) = some record)
      (started : record.start ≠ 0) (running : r.now - record.start < b.window) :
      (a.step cfg r).since b r.dest = a.since b r.dest ++ [(r, (a.counts.applyRisk cfg r).1.isNone)] := by
    refine if_neg ?_
    rintro ⟨-, hidle, -⟩
    rcases hidle record found with h | h
    case inl => exact started h
    case inr => exact not_le.mpr running h
  cases hself
  case opened idle self =>
    have hopened : (a.step cfg r).since b r.dest = [(r, (a.counts.applyRisk cfg r).1.isNone)] :=
      if_pos ⟨rfl, idle, hreached⟩
    rw [self, hopened]
    simp [counts?, hwindow]
  case counted record found started running room self =>
    rw [self, hsince found started running]
    simp only [Option.mem_some_iff, forall_eq', countP_entry, hexact record found, running, and_true]
    cases (a.counts.applyRisk cfg r).1.isNone <;> simp
  case refused record found started running full self =>
    rw [self, hsince found started running]
    simp only [Option.mem_some_iff, forall_eq', countP_entry, hexact record found, running, and_true]
    cases (a.counts.applyRisk cfg r).1.isNone <;> simp

theorem exact_other_iff {record : RateWindow} (hno : ¬a.counts.Opens cfg r b dest)
    (hexact : record.count = (a.since b dest).countP (counts? b dest record.start)) :
    record.count = ((a.step cfg r).since b dest).countP (counts? b dest record.start) ↔
      ¬((a.counts.applyRisk cfg r).1.isNone ∧ numberOf r.dest = numberOf dest ∧ r.now - record.start < b.window) := by
  have hsince : (a.step cfg r).since b dest = a.since b dest ++ [(r, (a.counts.applyRisk cfg r).1.isNone)] := if_neg hno
  rw [hsince, countP_entry, hexact]
  split
  case isTrue h => exact iff_of_false (by simp) (not_not.mpr h)
  case isFalse h => exact iff_of_true (by simp) h

theorem step_exact_iff (hpos : cfg.Positive) (ht : a.counts.Timed) (hexact : a.Exact) :
    a.counts.Fair cfg r ↔ (a.step cfg r).Exact := by
  have hbill := RiskCounts.billed ht hpos r
  have hadmitted := hbill.admitted_iff
  rw [← Option.isNone_iff_eq_none] at hadmitted
  obtain ⟨okm, hminute⟩ := hbill.minute
  have hself := exact_self_iff (a := a) hminute (hexact .numberMinute (by decide) r.dest) (.inl rfl)
  constructor
  case mp =>
    intro hfair b hb dest
    have hroom_iff : a.counts.Room cfg .numberMinute r.dest r.now ↔ (a.counts.applyRisk cfg r).1.isNone :=
      ⟨fun hroom => hadmitted.mpr ⟨hroom, (hfair hroom).1⟩, fun hnone => (hadmitted.mp hnone).1⟩
    by_cases hdest : dest = r.dest
    case neg =>
      intro record hfound
      have hold := (hbill.other b hb dest hdest).mem hfound
      refine (exact_other_iff (fun h => hdest h.1.symm) (hexact b hb dest record hold)).mpr ?_
      rintro ⟨hnone, hsame, hrunning⟩
      exact not_le.mpr hrunning ((hfair (hroom_iff.mpr hnone)).2 b hb dest hdest hsame.symm record hold)
    case pos =>
      subst hdest
      cases b
      case clientSecond => exact absurd rfl hb
      case numberMinute => exact hself.mpr (Bool.eq_iff_iff.mpr (hminute.room_iff.trans hroom_iff))
      case numberDay =>
        by_cases hroom : a.counts.Room cfg .numberMinute r.dest r.now
        case pos =>
          obtain ⟨okd, hday⟩ := hbill.day hroom
          have hokd : okd = true := hday.room_iff.mpr (hfair hroom).1.1
          rw [exact_self_iff (a := a) hday (hexact .numberDay hb r.dest) (.inr hroom), hokd, hroom_iff.mp hroom]
        case neg =>
          intro record hfound
          have hold := (hbill.day_spared hroom).mem hfound
          have hno : ¬a.counts.Opens cfg r .numberDay r.dest := by
            rintro ⟨-, -, h | h⟩
            case inl => cases h
            case inr => exact hroom h
          refine (exact_other_iff hno (hexact .numberDay hb r.dest record hold)).mpr ?_
          exact fun h => hroom (hroom_iff.mpr h.1)
  case mpr =>
    intro hstep hroom
    have hnone : (a.counts.applyRisk cfg r).1.isNone := by
      rw [← hself.mp (hstep .numberMinute (by decide) r.dest)]
      exact hminute.room_iff.mpr hroom
    refine ⟨(hadmitted.mp hnone).2, ?_⟩
    intro b hb dest hne hsame record hfound
    by_contra hrunning
    have hno : ¬a.counts.Opens cfg r b dest := fun h => hne h.1.symm
    have hend : r.now ≤ record.expiresAt := by
      rw [ht b dest record hfound]
      exact (sub_lt_iff_lt_add'.mp (not_le.mp hrunning)).le
    have hkept := (hbill.other b hb dest hne).keeps hfound hend
    have hclaim := hstep b hb dest record hkept
    exact (exact_other_iff hno (hexact b hb dest record hfound)).mp hclaim ⟨hnone, hsame.symm, not_le.mp hrunning⟩

-- The counts are exact all along a sequence of submissions if each of them that the minute lets pass is admitted and
-- finds no window of its number under another spelling, and only then.
theorem counts_exact_iff (cfg : RiskConfig) (hpos : cfg.Positive) (rs : List RiskRequest) :
    Always (step cfg) Exact {} rs ↔ Along (step cfg) (fun a r => a.counts.Fair cfg r) {} rs := by
  have ht : ({} : RiskAudit).counts.Timed := by
    intro b name record hfound
    cases hfound
  have hexact : ({} : RiskAudit).Exact := by
    intro b hb dest record hfound
    cases hfound
  refine Always.iff_along (I := fun a => a.counts.Timed) (A := fun _ => True) ht hexact (fun _ _ => trivial) ?_ ?_
  case refine_1 => exact fun a r hi _ => (RiskCounts.billed hi hpos r).timed
  case refine_2 => exact fun a r hi _ he => step_exact_iff hpos hi he

def atNoon (dest : String) (later : Duration := 0) : RiskRequest where
  clientID := lit "acme"
  dest     := lit dest
  now      := 12 * Go.hour + later

def dayRequests : List RiskRequest :=
  [atNoon "13800138000", atNoon "13800138000" Go.second, atNoon "13800138000" (2 * Go.second),
    atNoon "+13900139000" (3 * Go.second), atNoon "13800138000" (61 * Go.second)]

-- The third submission is refused by the minute, and the last one opens a window of its own within the same day.
theorem counts_exact_iff_day :
    ((run (step ⟨2, 3, 100⟩) {} (dayRequests.take 2)).counts.applyRisk ⟨2, 3, 100⟩
      (atNoon "13800138000" (2 * Go.second))).1 = some (Budget.refusal .numberMinute) ∧
    ((run (step ⟨2, 3, 100⟩) {} dayRequests).counts.record (Budget.key .numberDay (lit "13800138000"))).count = 3 ∧
    Always (step ⟨2, 3, 100⟩) Exact {} dayRequests := by
  refine ⟨by decide +kernel, by decide +kernel, ?_⟩
  exact (counts_exact_iff ⟨2, 3, 100⟩ ⟨by decide, by decide, by decide⟩ _).mpr (by decide +kernel)

-- With one submission a day, the second within a minute is refused and yet uses up the minute. With one a minute, the
-- second is admitted because it is spelled differently.
theorem refused_counted_and_spellings_apart :
    (validPhone (lit "13800138000") ∧ validPhone (lit "+13800138000") ∧
      numberOf (lit "13800138000") = numberOf (lit "+13800138000")) ∧
    ¬Always (step ⟨2, 1, 100⟩) Exact {} [atNoon "13800138000", atNoon "13800138000"] ∧
    ¬Always (step ⟨1, 20, 100⟩) Exact {} [atNoon "13800138000", atNoon "+13800138000"] := by
  refine ⟨by decide +kernel, fun h => ?_, fun h => ?_⟩
  case refine_1 =>
    have hexact := h _ List.prefix_rfl .numberMinute (by decide) (lit "13800138000")
      ⟨12 * Go.hour, 12 * Go.hour + Go.minute, 2⟩ (by decide +kernel)
    revert hexact
    decide +kernel
  case refine_2 =>
    have hexact := h _ List.prefix_rfl .numberMinute (by decide) (lit "13800138000")
      ⟨12 * Go.hour, 12 * Go.hour + Go.minute, 1⟩ (by decide +kernel)
    revert hexact
    decide +kernel

end RiskAudit

end SmppGateway
