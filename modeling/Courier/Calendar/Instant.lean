import Courier.Calendar.Date

/-!
# Instants

An instant is a number of microseconds since the start of year 1 in universal time, before the end
of year 9999. Its text is read from left to right in the order of time.
-/

namespace Courier.Calendar

def microsPerSecond : Nat := 1000000

def microsPerDay : Nat := 86400 * microsPerSecond

def calendarDays : Nat := 3652059

/-- The microsecond after the last one of the calendar. -/
def endOfTime : Nat := calendarDays * microsPerDay

structure Instant where
  micros : Nat
  inRange : micros < endOfTime
deriving DecidableEq

namespace Instant

def ofMicros? (micros : Int) : Option Instant :=
  if h : micros.toNat < endOfTime then
    if micros < 0 then none else some ⟨micros.toNat, h⟩
  else
    none

/-- The instant a number of microseconds later. -/
def add? (t : Instant) (micros : Int) : Option Instant :=
  ofMicros? (t.micros + micros)

instance : LE Instant where
  le s t := s.micros ≤ t.micros

instance : LT Instant where
  lt s t := s.micros < t.micros

instance (s t : Instant) : Decidable (s ≤ t) :=
  inferInstanceAs (Decidable (s.micros ≤ t.micros))

instance (s t : Instant) : Decidable (s < t) :=
  inferInstanceAs (Decidable (s.micros < t.micros))

end Instant

/-- The text of the date on a day counted from zero. -/
def dayText (day : Nat) : String :=
  match Date.ofOrdinal? (day + 1) with
  | some d => d.isoText
  | none => ""

/-- The text `12:05:09`, and `12:05:09.000123` for a time that is not a whole second. -/
def timeText (micros : Nat) : String :=
  let seconds := micros / microsPerSecond
  let rest := micros % microsPerSecond
  Number.padded 2 (seconds / 3600) ++ ":" ++ Number.padded 2 (seconds / 60 % 60) ++ ":" ++
    Number.padded 2 (seconds % 60) ++ if rest = 0 then "" else "." ++ Number.padded 6 rest

/-- The text of a date and a time of day, which `separator` keeps apart. -/
def dayTimeText (separator : String) (micros : Nat) : String :=
  dayText (micros / microsPerDay) ++ separator ++ timeText (micros % microsPerDay)

/-- The text `2024-03-01T12:00:00+00:00`. -/
def Instant.text (t : Instant) : String :=
  dayTimeText "T" t.micros ++ "+00:00"

end Courier.Calendar
