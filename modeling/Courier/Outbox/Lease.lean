import Courier.Span

/-!
# Leases of claims

A claim lasts as long as its lease; an older one counts as abandoned. The cutoff is the text of the
instant before which a claim is stale. Without a lease, or with one that is not positive, the cutoff
is the empty text, which comes before the text of every instant, so no claim is ever stale.
-/

namespace Courier.Outbox

inductive Lease where
  | none
  | whole (seconds : Int)
  | real (seconds : Number.Binary64)
deriving DecidableEq, Repr

namespace Lease

/-- The lease that a value stands for. Only numbers are lengths of time; a value that is not given
is no lease. -/
def ofValue : Value → Except Failure Lease
  | .int n => .ok (whole n)
  | .bool b => .ok (whole (if b then 1 else 0))
  | .float x => .ok (real x)
  | v => if v.isGiven then .error (.notOrdered v.kindName "int") else .ok none

def isOff : Lease → Bool
  | none => true
  | whole seconds => seconds ≤ 0
  | real seconds => seconds.isZero || seconds.isNonPositive

def span : Lease → Except Failure Int
  | none => .ok 0
  | whole seconds => Span.ofSeconds seconds
  | real seconds => Span.ofRealSeconds seconds

end Lease

def instantOf (m : Calendar.Moment) : Except Failure Calendar.Instant :=
  match m.utc? with
  | some t => .ok t
  | none => .error .dateOutOfRange

def earlier (t : Calendar.Instant) (span : Int) : Except Failure Calendar.Instant :=
  match t.add? (-span) with
  | some t => .ok t
  | none => .error .dateOutOfRange

/-- The text before which the times of stale claims come. -/
def staleCutoff (now : Calendar.Moment) (lease : Lease) : Except Failure String :=
  if lease.isOff then .ok ""
  else do
    let now ← instantOf now
    let span ← lease.span
    let cutoff ← earlier now span
    return cutoff.text

end Courier.Outbox
