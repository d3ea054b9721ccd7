import Courier.Calendar.DateText
import Courier.Calendar.Instant

/-!
# Moments

A moment is a reading of a clock: a date, a time of day and the distance of the clock from universal
time, if that is known. A clock whose distance is not known shows universal time.
-/

namespace Courier.Calendar

structure Moment where
  /-- The date and the time that the clock shows. -/
  shown : Instant
  /-- By how many microseconds the clock is ahead of universal time. -/
  offset : Option Int
deriving DecidableEq

namespace Moment

def ofInstant (t : Instant) : Moment :=
  ⟨t, some 0⟩

/-- The instant of a moment. A moment near an end of the calendar may have none. -/
def utc? (m : Moment) : Option Instant :=
  m.shown.add? (-(m.offset.getD 0))

/-- The text `+02:00`, with seconds and their fraction only where they are not zero. -/
def offsetText (offset : Int) : String :=
  let size := offset.natAbs
  let seconds := size / microsPerSecond
  let rest := size % microsPerSecond
  (if offset < 0 then "-" else "+") ++ Number.padded 2 (seconds / 3600) ++ ":" ++
    Number.padded 2 (seconds / 60 % 60) ++
    (if seconds % 60 = 0 ∧ rest = 0 then "" else ":" ++ Number.padded 2 (seconds % 60)) ++
    if rest = 0 then "" else "." ++ Number.padded 6 rest

/-- The text of a moment, with a character between the date and the time. -/
def textWith (separator : String) (m : Moment) : String :=
  dayTimeText separator m.shown.micros ++ (m.offset.map offsetText).getD ""

def isoText (m : Moment) : String :=
  m.textWith "T"

/-- The text with a space between the date and the time. -/
def text (m : Moment) : String :=
  m.textWith " "

end Moment

/-- The first six digits of a fraction of a second, and what follows all its digits. -/
def takeFraction (cs : List Char) : Nat × List Char :=
  let digits := cs.takeWhile fun c => '0' ≤ c ∧ c ≤ '9'
  let six := (digits ++ List.replicate 6 '0').take 6
  (six.foldl (fun n c => 10 * n + (c.toNat - '0'.toNat)) 0, cs.drop digits.length)

/-- A colon or the start of the next part, which may follow without one. -/
def dropColon : List Char → List Char
  | ':' :: rest => rest
  | cs => cs

def startsNumber : List Char → Bool
  | ':' :: c :: _ => '0' ≤ c && c ≤ '9'
  | c :: _ => '0' ≤ c && c ≤ '9'
  | [] => false

/-- The microseconds of a time of day, in hours and as many smaller units as there are. -/
def takeTime (cs : List Char) : Option (Nat × List Char) := do
  let (hours, rest) ← takeNumber 2 0 cs
  if !startsNumber rest then return (hours * 3600 * microsPerSecond, rest)
  let (minutes, rest) ← takeNumber 2 0 (dropColon rest)
  if !startsNumber rest then return ((hours * 3600 + minutes * 60) * microsPerSecond, rest)
  let (seconds, rest) ← takeNumber 2 0 (dropColon rest)
  let whole := (hours * 3600 + minutes * 60 + seconds) * microsPerSecond
  match rest with
  | '.' :: digits | ',' :: digits =>
    let (micros, rest) := takeFraction digits
    return (whole + micros, rest)
  | _ => return (whole, rest)

def readOffset : List Char → Option (Option Int)
  | [] => some none
  | ['Z'] => some (some 0)
  | '+' :: cs =>
    match takeTime cs with
    | some (micros, []) => some (some (Int.ofNat micros))
    | _ => none
  | '-' :: cs =>
    match takeTime cs with
    | some (micros, []) => some (some (-Int.ofNat micros))
    | _ => none
  | _ => none

/-- Reads `2024-03-01T12:00:00.5+02:00`; the time, its smaller units and the distance from
universal time may be missing. -/
def readMoment (s : String) : Option Moment := do
  let cs := s.toList
  let date ← readDate (String.ofList (cs.take 10))
  let start := (date.ordinal - 1) * microsPerDay
  match cs.drop 10 with
  | [] =>
    let shown ← Instant.ofMicros? start
    return ⟨shown, none⟩
  | _ :: rest =>
    let (time, rest) ← takeTime rest
    let offset ← readOffset rest
    let shown ← Instant.ofMicros? (start + time : Nat)
    return ⟨shown, offset⟩

end Courier.Calendar
