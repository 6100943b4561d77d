import SmppGateway.Go.Regexp
import SmppGateway.Router.Route

-- Time windows of a route: what `validateTimeWindow` of `internal/config` accepts and how `inAnyWindow` of
-- `internal/router` reads it.

namespace SmppGateway

open Go

inductive Weekday
  | sunday
  | monday
  | tuesday
  | wednesday
  | thursday
  | friday
  | saturday
  deriving DecidableEq, Repr

def Weekday.ofDay (day : Int) : Weekday :=
  match day % 7 with
  | 0 => sunday
  | 1 => monday
  | 2 => tuesday
  | 3 => wednesday
  | 4 => thursday
  | 5 => friday
  | _ => saturday

structure CivilTime where
  day    : Int
  hour   : Fin 24
  minute : Fin 60
  deriving DecidableEq, Repr

def dayName (value : Str) : Option Weekday :=
  let value := toLower value
  if value = lit "sun" ∨ value = lit "sunday" then some .sunday
  else if value = lit "mon" ∨ value = lit "monday" then some .monday
  else if value = lit "tue" ∨ value = lit "tuesday" then some .tuesday
  else if value = lit "wed" ∨ value = lit "wednesday" then some .wednesday
  else if value = lit "thu" ∨ value = lit "thursday" then some .thursday
  else if value = lit "fri" ∨ value = lit "friday" then some .friday
  else if value = lit "sat" ∨ value = lit "saturday" then some .saturday
  else none

def hourDuration : Int64 := 3600000000000

def minuteDuration : Int64 := 60000000000

def digitRune (r : Char) : Int64 :=
  .ofNat (r.toNat - '0'.toNat)

-- Any number of digits is read, and the sum wraps around.
def parseTwoDigit (value : Str) : Option Int64 :=
  if value = [] then
    none
  else
    (runes value).foldlM (fun n r => if isDigitRune r then some (n * 10 + digitRune r) else none) 0

inductive ClockError
  | format   -- expected HH:MM
  | hour     -- invalid hour
  | minute   -- invalid minute
  deriving DecidableEq, Repr

def parseClock (value : Str) : Except ClockError Int64 :=
  match value.splitOn ':'.toUInt8 with
  | [first, second] =>
    match parseTwoDigit first with
    | none   => .error .hour
    | some h =>
      if h < 0 ∨ 23 < h then
        .error .hour
      else
        match parseTwoDigit second with
        | none   => .error .minute
        | some m =>
          if m < 0 ∨ 59 < m then
            .error .minute
          else
            .ok (h * hourDuration + m * minuteDuration)
  | _ => .error .format

inductive WindowError
  | start (route : Str) (err : ClockError)  -- route %q time_window.start is invalid: %w
  | stop (route : Str) (err : ClockError)   -- route %q time_window.end is invalid: %w
  | day (route value : Str)                 -- route %q time_window day %q is invalid
  deriving DecidableEq, Repr

def validateTimeWindow (route : Str) (window : TimeWindow) : Except WindowError Unit :=
  match parseClock window.start with
  | .error e => .error (.start route e)
  | .ok _ =>
    match parseClock window.stop with
    | .error e => .error (.stop route e)
    | .ok _ =>
      match window.days.find? fun value => (dayName value).isNone with
      | some value => .error (.day route value)
      | none       => .ok ()

def Routing.atoi (value : Str) : Int64 :=
  ((runes value).foldlM (fun n r => if isDigitRune r then some (n * 10 + digitRune r) else none) 0).getD 0

def clock (value : Str) : Int64 :=
  match value.splitOn ':'.toUInt8 with
  | [first, second] => Routing.atoi first * hourDuration + Routing.atoi second * minuteDuration
  | _               => 0

def dayMatches (day : Weekday) (days : List Str) : Bool :=
  days = [] || days.any fun value => dayName value = some day

def CivilTime.weekday (now : CivilTime) : Weekday :=
  .ofDay now.day

def CivilTime.cur (now : CivilTime) : Int64 :=
  .ofNat now.hour * hourDuration + .ofNat now.minute * minuteDuration

def inWindow (now : CivilTime) (window : TimeWindow) : Bool :=
  dayMatches now.weekday window.days &&
    let start := clock window.start
    let stop := clock window.stop
    if start ≤ stop then
      start ≤ now.cur && now.cur ≤ stop
    else
      start ≤ now.cur || now.cur ≤ stop

def inAnyWindow (now : CivilTime) (windows : List TimeWindow) : Bool :=
  windows.any (inWindow now)

def clockTime (value : Str) : Int :=
  match parseClock value with
  | .ok d    => d.toInt
  | .error _ => 0

def dayLength : Int := 24 * 3600000000000

def CivilTime.instant (now : CivilTime) : Int :=
  now.day * dayLength + now.cur.toInt

def TimeWindow.Allows (window : TimeWindow) (day : Int) : Prop :=
  window.days = [] ∨ ∃ value ∈ window.days, dayName value = some (.ofDay day)

structure TimeWindow.Covers (window : TimeWindow) (day : Int) (now : CivilTime) : Prop where
  allowed : window.Allows day
  begins  : day * dayLength + clockTime window.start ≤ now.instant
  ends    : now.instant ≤
    (if clockTime window.start ≤ clockTime window.stop then day else day + 1) * dayLength + clockTime window.stop

theorem atoi_of_parseTwoDigit {value : Str} {n : Int64} (h : parseTwoDigit value = some n) : Routing.atoi value = n := by
  unfold parseTwoDigit at h
  split at h
  case isTrue => cases h
  case isFalse => rw [Routing.atoi, h, Option.getD_some]

theorem toInt_clock {hour minute : Int64} (hhour : ¬(hour < 0 ∨ 23 < hour)) (hminute : ¬(minute < 0 ∨ 59 < minute)) :
    0 ≤ (hour * hourDuration + minute * minuteDuration).toInt ∧
      (hour * hourDuration + minute * minuteDuration).toInt < dayLength := by
  have hzero : (0 : Int64).toInt = 0 := rfl
  have h23 : (23 : Int64).toInt = 23 := rfl
  have h59 : (59 : Int64).toInt = 59 := rfl
  have hhd : hourDuration.toInt = 3600000000000 := rfl
  have hmd : minuteDuration.toInt = 60000000000 := rfl
  simp only [not_or, Int64.lt_iff_toInt_lt, not_lt, hzero, h23, h59] at hhour hminute
  obtain ⟨hlow, hhigh⟩ := hhour
  obtain ⟨mlow, mhigh⟩ := hminute
  have hhours : (hour * hourDuration).toInt = hour.toInt * 3600000000000 := by
    rw [Int64.toInt_mul, hhd, Int.bmod_eq_of_le (by omega) (by omega)]
  have hminutes : (minute * minuteDuration).toInt = minute.toInt * 60000000000 := by
    rw [Int64.toInt_mul, hmd, Int.bmod_eq_of_le (by omega) (by omega)]
  rw [Int64.toInt_add, hhours, hminutes, Int.bmod_eq_of_le (by omega) (by omega), dayLength]
  omega

theorem parseClock_ok {value : Str} {d : Int64} (h : parseClock value = .ok d) :
    clock value = d ∧ 0 ≤ d.toInt ∧ d.toInt < dayLength := by
  unfold parseClock at h
  split at h
  case h_2 => cases h
  case h_1 first second hparts =>
    cases hfirst : parseTwoDigit first
    case none => rw [hfirst] at h; cases h
    case some hour =>
      simp only [hfirst] at h
      split at h
      case isTrue => cases h
      case isFalse hhour =>
        cases hsecond : parseTwoDigit second
        case none => rw [hsecond] at h; cases h
        case some minute =>
          simp only [hsecond] at h
          split at h
          case isTrue => cases h
          case isFalse hminute =>
            cases h
            refine ⟨?_, toInt_clock hhour hminute⟩
            simp only [clock, hparts, atoi_of_parseTwoDigit hfirst, atoi_of_parseTwoDigit hsecond]

theorem CivilTime.cur_bounds (now : CivilTime) : 0 ≤ now.cur.toInt ∧ now.cur.toInt < dayLength := by
  have hhour : ∀ h : Fin 24, ¬(Int64.ofNat h < 0 ∨ 23 < Int64.ofNat h) := by decide
  have hminute : ∀ m : Fin 60, ¬(Int64.ofNat m < 0 ∨ 59 < Int64.ofNat m) := by decide
  exact toInt_clock (hhour now.hour) (hminute now.minute)

structure TimeWindow.Valid (window : TimeWindow) : Prop where
  start : 0 ≤ clockTime window.start ∧ clockTime window.start < dayLength
  stop  : 0 ≤ clockTime window.stop ∧ clockTime window.stop < dayLength
  reads : (clock window.start).toInt = clockTime window.start ∧ (clock window.stop).toInt = clockTime window.stop

theorem valid_of_validateTimeWindow {route : Str} {window : TimeWindow} (h : validateTimeWindow route window = .ok ()) :
    window.Valid := by
  unfold validateTimeWindow at h
  cases hstart : parseClock window.start
  case error => rw [hstart] at h; cases h
  case ok s =>
    cases hstop : parseClock window.stop
    case error => rw [hstart, hstop] at h; cases h
    case ok e =>
      obtain ⟨hs, hsb⟩ := parseClock_ok hstart
      obtain ⟨he, heb⟩ := parseClock_ok hstop
      have hsc : clockTime window.start = s.toInt := by rw [clockTime, hstart]
      have hec : clockTime window.stop = e.toInt := by rw [clockTime, hstop]
      exact ⟨hsc ▸ hsb, hec ▸ heb, by rw [hs, hsc], by rw [he, hec]⟩

structure TimeWindow.Today (window : TimeWindow) (now : CivilTime) : Prop where
  allowed : window.Allows now.day
  begins  : clockTime window.start ≤ now.cur.toInt
  ends    : clockTime window.start ≤ clockTime window.stop → now.cur.toInt ≤ clockTime window.stop

-- The part behind midnight of an interval that begins on an earlier day, if that is `day`.
structure TimeWindow.Morning (window : TimeWindow) (day : Int) (now : CivilTime) : Prop where
  allowed : window.Allows day
  wraps   : clockTime window.stop < clockTime window.start
  ends    : now.cur.toInt ≤ clockTime window.stop

theorem dayMatches_iff {window : TimeWindow} {day : Int} :
    dayMatches (.ofDay day) window.days = true ↔ window.Allows day := by
  simp [dayMatches, TimeWindow.Allows]

theorem TimeWindow.Valid.covers_iff {window : TimeWindow} (h : window.Valid) (now : CivilTime) :
    (∃ day, window.Covers day now) ↔ window.Today now ∨ window.Morning (now.day - 1) now := by
  obtain ⟨hcur, hcur'⟩ := now.cur_bounds
  obtain ⟨⟨hs, hs'⟩, ⟨he, he'⟩, -⟩ := h
  constructor
  case mp =>
    rintro ⟨day, hallowed, hbegins, hends⟩
    unfold CivilTime.instant dayLength at *
    by_cases hwrap : clockTime window.start ≤ clockTime window.stop
    case pos =>
      rw [if_pos hwrap] at hends
      obtain rfl : day = now.day := by omega
      exact .inl ⟨hallowed, by omega, fun _ => by omega⟩
    case neg =>
      rw [if_neg hwrap] at hends
      by_cases hday : day = now.day
      case pos =>
        subst hday
        exact .inl ⟨hallowed, by omega, fun hle => absurd hle hwrap⟩
      case neg =>
        obtain rfl : day = now.day - 1 := by omega
        exact .inr ⟨hallowed, by omega, by omega⟩
  case mpr =>
    rintro (⟨hallowed, hbegins, hends⟩ | ⟨hallowed, hwrap, hends⟩)
    case inl =>
      refine ⟨now.day, hallowed, ?_, ?_⟩
      case refine_1 => unfold CivilTime.instant; omega
      case refine_2 =>
        unfold CivilTime.instant dayLength at *
        split
        case isTrue hle => have := hends hle; omega
        case isFalse => omega
    case inr =>
      refine ⟨now.day - 1, hallowed, ?_, ?_⟩
      case refine_1 => unfold CivilTime.instant dayLength at *; omega
      case refine_2 =>
        rw [if_neg (by omega)]
        unfold CivilTime.instant dayLength at *
        omega

theorem TimeWindow.Valid.inWindow_iff {window : TimeWindow} (h : window.Valid) (now : CivilTime) :
    inWindow now window = true ↔ window.Today now ∨ window.Morning now.day now := by
  obtain ⟨-, -, hstart, hstop⟩ := h
  rw [inWindow, Bool.and_eq_true, CivilTime.weekday, dayMatches_iff]
  simp only [Int64.le_iff_toInt_le, hstart, hstop]
  by_cases hwrap : clockTime window.start ≤ clockTime window.stop
  case pos =>
    simp only [if_pos hwrap, Bool.and_eq_true, decide_eq_true_eq]
    constructor
    case mp => rintro ⟨hallowed, hbegins, hends⟩; exact .inl ⟨hallowed, hbegins, fun _ => hends⟩
    case mpr =>
      rintro (⟨hallowed, hbegins, hends⟩ | ⟨-, hlt, -⟩)
      case inl => exact ⟨hallowed, hbegins, hends hwrap⟩
      case inr => omega
  case neg =>
    simp only [if_neg hwrap, Bool.or_eq_true, decide_eq_true_eq]
    constructor
    case mp =>
      rintro ⟨hallowed, hbegins | hends⟩
      case inl => exact .inl ⟨hallowed, hbegins, fun hle => absurd hle hwrap⟩
      case inr => exact .inr ⟨hallowed, by omega, hends⟩
    case mpr =>
      rintro (⟨hallowed, hbegins, -⟩ | ⟨hallowed, -, hends⟩)
      case inl => exact ⟨hallowed, .inl hbegins⟩
      case inr => exact ⟨hallowed, .inr hends⟩

-- The router is right about a time if some window covers it on the day on which the interval began, or if
-- today and yesterday are alike to the windows that reach over midnight and have not ended yet.
theorem inAnyWindow_iff_covers {route : Str} {windows : List TimeWindow}
    (h : ∀ window ∈ windows, validateTimeWindow route window = .ok ()) (now : CivilTime) :
    (inAnyWindow now windows = true ↔ ∃ window ∈ windows, ∃ day, window.Covers day now) ↔
      (∃ window ∈ windows, window.Today now) ∨
      ((∃ window ∈ windows, window.Morning now.day now) ↔ ∃ window ∈ windows, window.Morning (now.day - 1) now) := by
  have hfound : inAnyWindow now windows = true ↔
      (∃ window ∈ windows, window.Today now) ∨ ∃ window ∈ windows, window.Morning now.day now := by
    rw [inAnyWindow, List.any_eq_true, ← exists_or]
    refine exists_congr fun window => ?_
    rw [← and_or_left]
    exact and_congr_right fun hm => (valid_of_validateTimeWindow (h window hm)).inWindow_iff now
  have hcovered : (∃ window ∈ windows, ∃ day, window.Covers day now) ↔
      (∃ window ∈ windows, window.Today now) ∨ ∃ window ∈ windows, window.Morning (now.day - 1) now := by
    rw [← exists_or]
    refine exists_congr fun window => ?_
    rw [← and_or_left]
    exact and_congr_right fun hm => (valid_of_validateTimeWindow (h window hm)).covers_iff now
  rw [hfound, hcovered]
  by_cases htoday : ∃ window ∈ windows, window.Today now
  case pos => simp [htoday]
  case neg => simp only [htoday, false_or]

def mondayNight : TimeWindow where
  days  := [lit "mon"]
  start := lit "22:00"
  stop  := lit "02:00"

theorem inAnyWindow_iff_covers_evening :
    (inAnyWindow { day := 1, hour := 23, minute := 0 } [mondayNight] = true ↔
      ∃ window ∈ [mondayNight], ∃ day, window.Covers day { day := 1, hour := 23, minute := 0 }) := by
  have hvalid : ∀ window ∈ [mondayNight], validateTimeWindow (lit "night") window = .ok () :=
    List.forall_mem_singleton.mpr (by decide)
  refine (inAnyWindow_iff_covers hvalid _).mpr (.inl ⟨mondayNight, List.mem_singleton_self _, ?_⟩)
  exact ⟨.inr ⟨lit "mon", List.mem_singleton_self _, by decide⟩, by decide, by decide⟩

theorem tuesday_morning_missed :
    validateTimeWindow (lit "night") mondayNight = .ok () ∧
    inAnyWindow { day := 2, hour := 1, minute := 0 } [mondayNight] = false ∧
    mondayNight.Covers 1 { day := 2, hour := 1, minute := 0 } :=
  ⟨by decide, by decide, ⟨.inr ⟨lit "mon", List.mem_singleton_self _, by decide⟩, by decide, by decide⟩⟩

end SmppGateway
