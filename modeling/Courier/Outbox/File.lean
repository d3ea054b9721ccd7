import Courier.Log.Record
import Courier.Outbox.Store

/-!
# Opening and closing the store

The store may live in a file. A file of an earlier release lacks columns; opening it adds them, with
the value that means that nothing happened yet, and changes nothing else.
-/

namespace Courier.Outbox

/-- The columns that earlier releases did not have. -/
inductive LateColumn where
  | claimedAt
  | lastError
  | delivered
deriving DecidableEq, Repr

/-- A table of pending messages without some of the late columns; what its rows hold in those is of
no meaning. -/
structure OldTable where
  missing : List LateColumn
  rows : List Row
deriving DecidableEq, Repr

def Row.addColumns (missing : List LateColumn) (r : Row) : Row :=
  { r with
    claimedAt := if missing.contains .claimedAt then none else r.claimedAt
    lastError := if missing.contains .lastError then none else r.lastError
    deliveredJson := if missing.contains .delivered then "[]" else r.deliveredJson }

def greatestId (rows : List Row) : Int :=
  rows.foldl (fun n r => max n r.id) 0

def idBefore (r r' : Row) : Bool :=
  r.id ≤ r'.id

/-- The store that a file of an earlier release is opened as. -/
def OldTable.open (t : OldTable) : Store :=
  { Store.empty with
    rows := (t.rows.map (Row.addColumns t.missing)).mergeSort idBefore
    lastId := greatestId t.rows }

namespace Store

/-- The store after it was closed and opened again: the same if it lives in a file, else empty. -/
def reopen (inFile : Bool) (s : Store) : Store :=
  if inFile then { s with closed := false } else empty

def close (s : Store) : Store :=
  { s with closed := true }

/-- The record of settings that could not be made when the store was opened. -/
def settingsRecord (message : String) : Log.Record :=
  Log.Channel.store.record Log.warning "failed to configure sqlite pragmas"
    [("event", .text "sqlite_pragmas_error")] (some (.storeFault message))

def closeRecord (message : String) : Log.Record :=
  Log.Channel.store.record Log.warning "failed to close sqlite connection"
    [("event", .text "sqlite_close_error")] (some (.storeFault message))

end Store

end Courier.Outbox
