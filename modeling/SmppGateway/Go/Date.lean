import SmppGateway.Go.Digits
import SmppGateway.Go.Time

-- The calendar of `time.Time` in UTC, with the layouts of two-digit fields that the program prints and reads.

namespace Go

def daysBeforeYear (year : Nat) : Nat :=
  let y := year - 1
  365 * y + y / 4 - y / 100 + y / 400

def daysOfYear (year : Nat) : Nat :=
  if isLeap year then 366 else 365

def cycleYear (d : Nat) : Nat :=
  let n100 := d / 36524 - d / 36524 / 4
  let d := d - 36524 * n100
  let n4 := d / 1461
  let d := d - 1461 * n4
  let n := d / 365 - d / 365 / 4
  100 * n100 + 4 * n4 + n + 1

-- Month and day for a number of days that have passed since the first of `month`.
def monthDay (year : Nat) : (months month days : Nat) → Nat × Nat
  | 0, month, days          => (month, days + 1)
  | months + 1, month, days =>
    if days < daysIn month year then (month, days + 1) else monthDay year months (month + 1) (days - daysIn month year)

def daysOfMonths (year month : Nat) : Nat → Nat
  | 0     => 0
  | n + 1 => daysIn month year + daysOfMonths year (month + 1) n

theorem isLeap_iff {year : Nat} : isLeap year ↔ year % 4 = 0 ∧ (year % 100 ≠ 0 ∨ year % 400 = 0) := by
  simp [isLeap]

theorem daysBeforeYear_succ {year : Nat} (h : 1 ≤ year) :
    daysBeforeYear (year + 1) = daysBeforeYear year + daysOfYear year := by
  obtain ⟨y, rfl⟩ := Nat.exists_eq_add_of_le' h
  have h₄ : (y + 1) / 4 = y / 4 + if (y + 1) % 4 = 0 then 1 else 0 := by split <;> omega
  have h₁₀₀ : (y + 1) / 100 = y / 100 + if (y + 1) % 100 = 0 then 1 else 0 := by split <;> omega
  have h₄₀₀ : (y + 1) / 400 = y / 400 + if (y + 1) % 400 = 0 then 1 else 0 := by split <;> omega
  have hle : y / 100 ≤ y / 4 := by omega
  have hdvd : (y + 1) % 100 = 0 → (y + 1) % 4 = 0 := by omega
  have hdvd' : (y + 1) % 400 = 0 → (y + 1) % 100 = 0 := by omega
  simp only [daysBeforeYear, daysOfYear, Nat.add_sub_cancel, isLeap_iff, h₄, h₁₀₀, h₄₀₀]
  split_ifs <;> grind

theorem daysBeforeYear_mono {year year' : Nat} (h : year ≤ year') : daysBeforeYear year ≤ daysBeforeYear year' := by
  induction h
  case refl => exact Nat.le_refl _
  case step year'' _ hi =>
    rcases Nat.eq_zero_or_pos year'' with rfl | hpos
    case inl => exact hi
    case inr => exact hi.trans (daysBeforeYear_succ hpos ▸ Nat.le_add_right _ _)

theorem daysBeforeYear_cycle (n : Nat) {year : Nat} (h : 1 ≤ year) :
    daysBeforeYear (400 * n + year) = 146097 * n + daysBeforeYear year := by
  simp only [daysBeforeYear]
  omega

theorem isLeap_cycle (n year : Nat) : isLeap (400 * n + year) = isLeap year := by
  have h₁ : (400 * n + year) % 4 = year % 4 := by omega
  have h₂ : (400 * n + year) % 100 = year % 100 := by omega
  have h₃ : (400 * n + year) % 400 = year % 400 := by omega
  rw [isLeap, h₁, h₂, h₃, isLeap]

theorem daysBeforeYear_parts {b c n : Nat} (hb : b ≤ 3) (hc : c ≤ 24) (hn : n ≤ 3) :
    daysBeforeYear (100 * b + 4 * c + n + 1) = 36524 * b + 1461 * c + 365 * n := by
  simp only [daysBeforeYear, Nat.add_sub_cancel]
  omega

theorem cycleYear_spec {d : Nat} (h : d < 146097) :
    1 ≤ cycleYear d ∧ cycleYear d ≤ 400 ∧ daysBeforeYear (cycleYear d) ≤ d ∧
      d < daysBeforeYear (cycleYear d) + daysOfYear (cycleYear d) := by
  -- `b` centuries, `c` periods of four years and `n` years have passed.
  obtain ⟨b, hb⟩ : ∃ b, b = d / 36524 - d / 36524 / 4 := ⟨_, rfl⟩
  obtain ⟨d₁, hd₁⟩ : ∃ d₁, d₁ = d - 36524 * b := ⟨_, rfl⟩
  obtain ⟨c, hc⟩ : ∃ c, c = d₁ / 1461 := ⟨_, rfl⟩
  obtain ⟨d₂, hd₂⟩ : ∃ d₂, d₂ = d₁ - 1461 * c := ⟨_, rfl⟩
  obtain ⟨n, hn⟩ : ∃ n, n = d₂ / 365 - d₂ / 365 / 4 := ⟨_, rfl⟩
  have hyear : cycleYear d = 100 * b + 4 * c + n + 1 := by simp only [cycleYear, hn, hd₂, hc, hd₁, hb]
  have hb3 : b ≤ 3 ∧ 36524 * b ≤ d ∧ d₁ ≤ 36524 ∧ (d₁ = 36524 → b = 3) := by omega
  have hc24 : c ≤ 24 ∧ d₂ ≤ 1460 ∧ d₁ = 1461 * c + d₂ := by omega
  have hn3 : n ≤ 3 ∧ 365 * n ≤ d₂ ∧ d₂ ≤ 365 * n + 365 ∧ (d₂ = 365 * n + 365 → n = 3) := by omega
  rw [hyear, daysBeforeYear_parts hb3.1 hc24.1 hn3.1]
  refine ⟨by omega, by omega, by omega, ?_⟩
  -- A last day of 366 ends a period of four years, and a century only with the whole cycle.
  by_cases hlast : d₂ = 365 * n + 365
  case pos =>
    have hleap : isLeap (100 * b + 4 * c + n + 1) := by
      rw [isLeap_iff]
      omega
    rw [daysOfYear, if_pos hleap]
    omega
  case neg =>
    have : 365 ≤ daysOfYear (100 * b + 4 * c + n + 1) := by
      unfold daysOfYear
      split <;> omega
    omega

theorem daysOfMonths_year (year : Nat) : daysOfMonths year 1 12 = daysOfYear year := by
  simp only [daysOfMonths, daysIn, daysOfYear]
  split <;> rfl

theorem monthDay_spec {year months month days : Nat} (h : days < daysOfMonths year month (months + 1)) :
    ∃ k, k ≤ months ∧ (monthDay year months month days).1 = month + k ∧
      1 ≤ (monthDay year months month days).2 ∧
      (monthDay year months month days).2 ≤ daysIn (month + k) year ∧
      daysOfMonths year month k + (monthDay year months month days).2 = days + 1 := by
  induction months generalizing month days
  case zero =>
    simp only [daysOfMonths] at h
    exact ⟨0, by simp [monthDay, daysOfMonths]; omega⟩
  case succ months hi =>
    unfold monthDay
    split
    case isTrue hlt => exact ⟨0, by simp [daysOfMonths]; omega⟩
    case isFalse hge =>
      rw [daysOfMonths] at h
      have hlt : days - daysIn month year < daysOfMonths year (month + 1) (months + 1) := by omega
      obtain ⟨k, hk, hm, hd, hle, hsum⟩ := hi hlt
      have hk' : month + (k + 1) = month + 1 + k := by omega
      refine ⟨k + 1, by omega, by omega, hd, by rw [hk']; exact hle, ?_⟩
      rw [daysOfMonths]
      omega

structure Civil where
  year   : Int
  month  : Nat
  day    : Nat
  hour   : Nat
  minute : Nat
  second : Nat
  deriving DecidableEq, Repr

def second : Duration := 1000000000

def minute : Duration := 60 * second

def civil (t : Time) : Civil :=
  let seconds := t / second
  let days := seconds / 86400
  let s := (seconds % 86400).toNat
  let d := (days % 146097).toNat
  let year := cycleYear d
  let (month, day) := monthDay year 11 1 (d - daysBeforeYear year)
  { year   := 400 * (days / 146097) + year
    month  := month
    day    := day
    hour   := s / 3600
    minute := s / 60 % 60
    second := s % 60 }

def date (year month day hour minute sec : Nat) : Time :=
  (((daysBeforeYear year + daysOfMonths year 1 (month - 1) + (day - 1)) * 86400 + hour * 3600 + minute * 60 + sec :
    Nat) : Int) * second

structure Civil.Valid (c : Civil) : Prop where
  month  : 1 ≤ c.month ∧ c.month ≤ 12
  day    : 1 ≤ c.day ∧ c.day ≤ daysIn c.month c.year.toNat
  hour   : c.hour < 24
  minute : c.minute < 60
  second : c.second < 60

theorem daysIn_cycle (month n year : Nat) : daysIn month (400 * n + year) = daysIn month year := by
  unfold daysIn
  rw [isLeap_cycle]

theorem daysOfMonths_cycle (n year month k : Nat) :
    daysOfMonths (400 * n + year) month k = daysOfMonths year month k := by
  induction k generalizing month
  case zero => rfl
  case succ k hi => rw [daysOfMonths, daysOfMonths, daysIn_cycle, hi]

theorem civil_of_seconds {t : Time} {n : Nat} (h : t / second = n) :
    let d := n / 86400 % 146097
    let year := cycleYear d
    let md := monthDay year 11 1 (d - daysBeforeYear year)
    civil t = {
      year := (400 * (n / 86400 / 146097) + year : Nat), month := md.1, day := md.2
      hour := n % 86400 / 3600, minute := n % 86400 / 60 % 60, second := n % 86400 % 60 } := by
  have hdays : (n : Int) / 86400 = (n / 86400 : Nat) := by omega
  have hs : ((n : Int) % 86400).toNat = n % 86400 := by omega
  have hd : ((n / 86400 : Nat) % 146097 : Int).toNat = n / 86400 % 146097 := by omega
  simp only [civil, h, hdays, hs, hd]
  congr 1

theorem civil_spec {t : Time} (h : 0 ≤ t) :
    (civil t).Valid ∧
      ((daysBeforeYear (civil t).year.toNat : Int) ≤ t / second / 86400 ∧
        t / second / 86400 < (daysBeforeYear ((civil t).year.toNat + 1) : Int)) ∧
      date (civil t).year.toNat (civil t).month (civil t).day (civil t).hour (civil t).minute (civil t).second =
        t / second * second := by
  obtain ⟨n, hn⟩ : ∃ n : Nat, t / second = n :=
    ⟨(t / second).toNat, (Int.toNat_of_nonneg (Int.ediv_nonneg h (by decide))).symm⟩
  have hd : n / 86400 % 146097 < 146097 := Nat.mod_lt _ (by decide)
  obtain ⟨hy₁, hy₂, hlo, hhi⟩ := cycleYear_spec hd
  have hcivil := civil_of_seconds hn
  simp only at hcivil
  generalize hdd : n / 86400 % 146097 = d at *
  generalize cycleYear d = year at *
  have hdays : d - daysBeforeYear year < daysOfMonths year 1 12 := by
    rw [daysOfMonths_year]
    omega
  obtain ⟨k, hk, hm, hday₁, hday₂, hsum⟩ := monthDay_spec hdays
  generalize monthDay year 11 1 (d - daysBeforeYear year) = md at *
  rw [hcivil, hn]
  refine ⟨⟨?_, ?_, ?_, ?_, ?_⟩, ?_, ?_⟩
  case refine_1 => simp only; omega
  case refine_2 =>
    simp only [Int.toNat_natCast, daysIn_cycle, hm]
    exact ⟨hday₁, hday₂⟩
  case refine_3 => simp only; omega
  case refine_4 => simp only; omega
  case refine_5 => simp only; omega
  case refine_6 =>
    rw [daysBeforeYear_succ (by simp only; omega)]
    simp only [Int.toNat_natCast, daysBeforeYear_cycle _ hy₁, daysOfYear, isLeap_cycle] at hhi ⊢
    change _ ≤ (n : Int) / 86400 ∧ (n : Int) / 86400 < _
    omega
  case refine_7 =>
    have hk' : md.1 - 1 = k := by omega
    simp only [date, Int.toNat_natCast, daysBeforeYear_cycle _ hy₁, daysOfMonths_cycle, hk']
    congr 1
    omega

def twoDigits (n : Nat) : Str :=
  [digitByte (n / 10 % 10), digitByte (n % 10)]

def formatMinute (t : Time) : Str :=
  let c := civil t
  twoDigits (c.year.toNat % 100) ++ twoDigits c.month ++ twoDigits c.day ++ twoDigits c.hour ++ twoDigits c.minute

def formatSecond (t : Time) : Str :=
  let c := civil t
  (formatUintBase (.ofNat c.year.toNat) 10).leftpad 4 '0'.toUInt8 ++ twoDigits c.month ++ twoDigits c.day ++
    twoDigits c.hour ++ twoDigits c.minute ++ twoDigits c.second

def getnum : Str → Option (Nat × Str)
  | a :: b :: rest => if isDigit a ∧ isDigit b then some (10 * digit a + digit b, rest) else none
  | _              => none

-- The fields that the layouts `0601021504` and `060102150405` have in common. A year of two digits is one of the
-- years from 1969 to 2068.
def parseToMinute (s : Str) : Option ((Nat → Time) × Str) := do
  let (yy, s) ← getnum s
  let year := if yy ≥ 69 then 1900 + yy else 2000 + yy
  let (month, s) ← getnum s
  let (day, s) ← getnum s
  let (hour, s) ← getnum s
  let (minute, s) ← getnum s
  if 1 ≤ month ∧ month ≤ 12 ∧ 1 ≤ day ∧ day ≤ daysIn month year ∧ hour < 24 ∧ minute < 60 then
    some (date year month day hour minute, s)
  else
    none

-- `time.ParseInLocation("0601021504", s, time.UTC)` of a string of digits.
def parseMinute (s : Str) : Option Time := do
  let (t, rest) ← parseToMinute s
  if rest = [] then some (t 0) else none

-- `time.ParseInLocation("060102150405", s, time.UTC)` of a string of digits.
def parseSecond (s : Str) : Option Time := do
  let (t, rest) ← parseToMinute s
  let (sec, rest) ← getnum rest
  if sec < 60 ∧ rest = [] then some (t sec) else none

theorem getnum_twoDigits {n : Nat} (h : n < 100) (rest : Str) : getnum (twoDigits n ++ rest) = some (n, rest) := by
  have hall : ∀ n : Fin 100, getnum (twoDigits n) = some (n.val, []) := by decide
  have := hall ⟨n, h⟩
  simp only [twoDigits, getnum, List.cons_append, List.nil_append] at this ⊢
  split at this
  case isTrue hd => simp_all
  case isFalse => cases this

theorem twoDigits_digits (n : Nat) : ∀ b ∈ twoDigits n, isDigit b = true := by
  rintro b (_ | ⟨_, _ | ⟨_, hb⟩⟩)
  case head => exact isDigit_digitByte (Nat.mod_lt _ (by decide))
  case tail.head => exact isDigit_digitByte (Nat.mod_lt _ (by decide))
  case tail.tail => cases hb

theorem formatMinute_digits (t : Time) : (formatMinute t).length = 10 ∧ ∀ b ∈ formatMinute t, isDigit b = true := by
  refine ⟨rfl, fun b hb => ?_⟩
  simp only [formatMinute, List.mem_append] at hb
  rcases hb with (((hb | hb) | hb) | hb) | hb
  all_goals exact twoDigits_digits _ b hb

theorem date_minute (year month day hour minute : Nat) {sec : Nat} (h : sec < 60) :
    date year month day hour minute 0 =
      date year month day hour minute sec / Go.minute * Go.minute := by
  unfold date Go.minute second
  generalize daysBeforeYear year + daysOfMonths year 1 (month - 1) + (day - 1) = days
  change ((_ : Nat) : Int) * 1000000000 =
    ((_ : Nat) : Int) * 1000000000 / (60 * 1000000000) * (60 * 1000000000)
  omega

theorem parseMinute_formatMinute {t : Time} (h : date 2000 1 1 0 0 0 ≤ t) (h' : t < date 2069 1 1 0 0 0) :
    parseMinute (formatMinute t) = some (t / minute * minute) := by
  have h₀ : date 2000 1 1 0 0 0 = (daysBeforeYear 2000 * 86400 * 1000000000 : Int) := by decide
  have h₁ : date 2069 1 1 0 0 0 = (daysBeforeYear 2069 * 86400 * 1000000000 : Int) := by decide
  have ht : 0 ≤ t := le_trans (by decide) h
  obtain ⟨⟨hmonth, hday, hhour, hminute, hsecond⟩, ⟨hlo, hhi⟩, hdate⟩ := civil_spec ht
  unfold formatMinute
  generalize civil t = c at *
  have hdays : (daysBeforeYear 2000 : Int) ≤ t / second / 86400 ∧ t / second / 86400 < daysBeforeYear 2069 := by
    have bounds (x lo hi : Int) (hlo : lo * 86400 * 1000000000 ≤ x) (hhi : x < hi * 86400 * 1000000000) :
        lo ≤ x / 1000000000 / 86400 ∧ x / 1000000000 / 86400 < hi := by omega
    exact bounds t _ _ (h₀ ▸ h) (h₁ ▸ h')
  have hyear : 2000 ≤ c.year.toNat ∧ c.year.toNat < 2069 := by
    constructor
    case left =>
      by_contra hlt
      have hmono := daysBeforeYear_mono (by omega : c.year.toNat + 1 ≤ 2000)
      have := lt_of_le_of_lt hdays.1 hhi
      omega
    case right =>
      by_contra hge
      have hmono := daysBeforeYear_mono (by omega : 2069 ≤ c.year.toNat)
      have := lt_of_le_of_lt hlo hdays.2
      omega
  have hcentury : (if c.year.toNat % 100 ≥ 69 then 1900 + c.year.toNat % 100 else 2000 + c.year.toNat % 100) =
      c.year.toNat := by
    split <;> omega
  have hday31 : daysIn c.month c.year.toNat ≤ 31 := by
    unfold daysIn
    split
    case h_1 => split <;> decide
    all_goals decide
  have hfields : parseToMinute (twoDigits (c.year.toNat % 100) ++ twoDigits c.month ++ twoDigits c.day ++
      twoDigits c.hour ++ twoDigits c.minute) = some (date c.year.toNat c.month c.day c.hour c.minute, []) := by
    simp only [parseToMinute, List.append_assoc]
    rw [← List.append_nil (twoDigits c.minute)]
    rw [getnum_twoDigits (by omega), Option.bind_eq_bind, Option.bind_some]
    simp only [getnum_twoDigits (by omega : c.month < 100), getnum_twoDigits (by omega : c.day < 100),
      getnum_twoDigits (by omega : c.hour < 100), getnum_twoDigits (by omega : c.minute < 100), hcentury,
      Option.bind_some]
    rw [if_pos ⟨hmonth.1, hmonth.2, hday.1, hday.2, hhour, hminute⟩]
  have hsec : date c.year.toNat c.month c.day c.hour c.minute 0 = t / minute * minute := by
    have floor (x : Int) : x / 1000000000 * 1000000000 / (60 * 1000000000) * (60 * 1000000000) =
        x / (60 * 1000000000) * (60 * 1000000000) := by omega
    rw [date_minute _ _ _ _ _ hsecond, hdate]
    exact floor t
  simp only [parseMinute, hfields, Option.bind_eq_bind, Option.bind_some, if_true, hsec]

end Go
