import Courier.Outbox.File
import Courier.Report.Bridge

/-!
# The desk

What all parts of the program share while it runs: the store, the clock, the log, and the source of
reports with the queries that were put to it.
-/

namespace Courier

structure Desk where
  store : Outbox.Store
  now : Calendar.Instant
  journal : Log.Journal
  source : Option Report.Source
  /-- The queries put to the source of reports, oldest first. -/
  asked : List Report.Query

namespace Desk

def log (r : Log.Record) (d : Desk) : Desk :=
  { d with journal := d.journal ++ [r] }

def logAll (records : Log.Journal) (d : Desk) : Desk :=
  { d with journal := d.journal ++ records }

def perform {α : Type} (operation : Outbox.Operation α) (d : Desk) : Except Failure (α × Desk) :=
  match operation d.store with
  | .ok (a, store) => .ok (a, { d with store })
  | .error f => .error f

/-- What the clock shows. -/
def moment (d : Desk) : Calendar.Moment :=
  .ofInstant d.now

end Desk

end Courier
