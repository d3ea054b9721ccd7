import Courier.Number.Integer

/-!
# Dates

Days of the Gregorian calendar in the years 1 to 9999. A date is numbered by its place in that
range, the first of January of year 1 being day 1.
-/

namespace Courier.Calendar

def isLeap (year : Nat) : Bool :=
  year % 4 == 0 && (year % 100 != 0 || year % 400 == 0)

def monthLength (year month : Nat) : Nat :=
  match month with
  | 2 => if isLeap year then 29 else 28
  | 4 | 6 | 9 | 11 => 30
  | _ => 31

def lastYear : Nat := 9999

/-- Whether three numbers name a day of the calendar. -/
def IsDate (year month day : Nat) : Prop :=
  (1 ≤ year ∧ year ≤ lastYear) ∧ (1 ≤ month ∧ month ≤ 12) ∧
    (1 ≤ day ∧ day ≤ monthLength year month)

instance (year month day : Nat) : Decidable (IsDate year month day) :=
  inferInstanceAs (Decidable (_ ∧ _ ∧ _))

structure Date where
  year : Nat
  month : Nat
  day : Nat
  isDate : IsDate year month day
deriving DecidableEq

namespace Date

def of? (year month day : Nat) : Option Date :=
  if h : IsDate year month day then some ⟨year, month, day, h⟩ else none

/-- The number of days in the years before a year. -/
def daysBeforeYear (year : Nat) : Nat :=
  let y := year - 1
  365 * y + y / 4 - y / 100 + y / 400

def daysBeforeMonth (year month : Nat) : Nat :=
  (List.range (month - 1)).foldl (fun days m => days + monthLength year (m + 1)) 0

def ordinal (d : Date) : Nat :=
  daysBeforeYear d.year + daysBeforeMonth d.year d.month + d.day

/-- The month and the day of the month of a day counted from the start of `month`. -/
def findMonth (year : Nat) : Nat → Nat → Nat → Nat × Nat
  | 0, month, left => (month, left + 1)
  | more + 1, month, left =>
    if left < monthLength year month then (month, left + 1)
    else findMonth year more (month + 1) (left - monthLength year month)

/-- The year that holds a day counted from zero, and the number of the day in it. Leap years repeat
after 400, 100 and 4 years; the last year of such a span takes its extra day. -/
def yearOf (days : Nat) : Nat × Nat :=
  let n400 := days / 146097
  let r400 := days % 146097
  let n100 := min 3 (r400 / 36524)
  let r100 := r400 - 36524 * n100
  let n4 := r100 / 1461
  let r4 := r100 % 1461
  let n1 := min 3 (r4 / 365)
  (400 * n400 + 100 * n100 + 4 * n4 + n1 + 1, r4 - 365 * n1)

def ofOrdinal? (n : Nat) : Option Date :=
  if n = 0 then none
  else
    let (year, left) := yearOf (n - 1)
    let (month, day) := findMonth year 11 1 left
    of? year month day

/-- The day of the week, Monday being 0. -/
def weekday (d : Date) : Nat :=
  (d.ordinal + 6) % 7

/-- Whether a year numbered by weeks has a week 53. -/
def hasWeek53 (year : Nat) : Bool :=
  let first := (daysBeforeYear year + 7) % 7
  first == 3 || (first == 2 && isLeap year)

/-- The Monday of the first week, the one that holds the first Thursday of the year. It may lie
before the first day of the calendar. -/
def firstMonday (year : Nat) : Int :=
  let first : Nat := daysBeforeYear year + 1
  let weekday := (first + 6) % 7
  let monday : Int := first - weekday
  if 3 < weekday then monday + 7 else monday

/-- The date of a weekday, Monday being 1, in a week of a year. -/
def ofWeek? (year week day : Nat) : Option Date :=
  if year = 0 ∨ week = 0 ∨ 53 < week ∨ (week = 53 ∧ !hasWeek53 year) ∨ day = 0 ∨ 7 < day then none
  else ofOrdinal? (firstMonday year + 7 * (week - 1) + (day - 1)).toNat

/-- The text `2024-03-01`. -/
def isoText (d : Date) : String :=
  Number.padded 4 d.year ++ "-" ++ Number.padded 2 d.month ++ "-" ++ Number.padded 2 d.day

/-- The text `2024-03-01`, with no zeros before a year of less than four digits. -/
def shortText (d : Date) : String :=
  toString d.year ++ "-" ++ Number.padded 2 d.month ++ "-" ++ Number.padded 2 d.day

end Date

end Courier.Calendar
