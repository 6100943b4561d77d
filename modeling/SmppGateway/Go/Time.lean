import SmppGateway.Go.Str

namespace Go

-- An instant in nanoseconds, counted from the zero time. `t.IsZero()` is `t = 0`.
abbrev Time := Int

abbrev Duration := Int

def hour : Duration := 3600 * 1000000000

def timeSub (t u : Int) : Int :=
  max (-2 ^ 63) (min (t - u) (2 ^ 63 - 1))

theorem timeSub_pos {t u : Int} : 0 < timeSub t u ↔ u < t := by
  unfold timeSub
  omega

theorem timeSub_le {t u : Int} (h : u < t) : timeSub t u ≤ t - u := by
  unfold timeSub
  omega

theorem le_timeSub {t u d : Int} (h : -2 ^ 63 < d) (h' : d < 2 ^ 63) : d ≤ timeSub t u ↔ d ≤ t - u := by
  unfold timeSub
  omega

def isLeap (year : Nat) : Bool :=
  year % 4 == 0 && (year % 100 != 0 || year % 400 == 0)

def daysIn (month year : Nat) : Nat :=
  match month with
  | 2 => if isLeap year then 29 else 28
  | 4 | 6 | 9 | 11 => 30
  | _ => 31

-- Whether `time.Parse(time.DateOnly, s)` succeeds: four, two and two digits around dashes that name
-- a day of the calendar.
def parsesDateOnly : Str → Bool
  | [y₁, y₂, y₃, y₄, s₁, m₁, m₂, s₂, d₁, d₂] =>
    let year  := 1000 * digit y₁ + 100 * digit y₂ + 10 * digit y₃ + digit y₄
    let month := 10 * digit m₁ + digit m₂
    let day   := 10 * digit d₁ + digit d₂
    [y₁, y₂, y₃, y₄, m₁, m₂, d₁, d₂].all isDigit && s₁ == '-'.toUInt8 && s₂ == '-'.toUInt8 &&
      1 ≤ month && month ≤ 12 && 1 ≤ day && day ≤ daysIn month year
  | _ => false

example : parsesDateOnly (lit "2024-02-29") = true := by decide

example : parsesDateOnly (lit "2023-02-29") = false := by decide

end Go
