import Courier.Failure

/-!
# Spans of time

A span is a number of microseconds. Spans of more than `maxDays` days are refused.
-/

namespace Courier.Span

open Calendar (microsPerSecond microsPerDay)

def maxDays : Nat := 999999999

/-- The bound of the numbers of days that a machine word of 32 bits holds. -/
def wordBound : Int := 2147483648

def ofMicros (micros : Int) : Except Failure Int :=
  let days := micros.fdiv microsPerDay
  if days < -wordBound ∨ wordBound ≤ days then .error .machineIntegerTooLarge
  else if maxDays < days.natAbs then .error (.spanTooLong days)
  else .ok micros

def ofSeconds (seconds : Int) : Except Failure Int :=
  ofMicros (seconds * microsPerSecond)

def ofMinutes (minutes : Int) : Except Failure Int :=
  ofSeconds (minutes * 60)

/-- A span of so many seconds, to the nearest microsecond. The fraction of a second is turned into
microseconds first. -/
def ofRealSeconds (seconds : Number.Binary64) : Except Failure Int :=
  match seconds with
  | .nan => .error .undefinedInteger
  | .infinite _ => .error .infiniteInteger
  | x =>
    let whole := x.truncate?.getD 0
    let rest := (x.fraction.timesNat microsPerSecond).round?.getD 0
    ofMicros (whole * microsPerSecond + rest)

end Courier.Span
