import Courier.Json.Writer
import Courier.Outbox.Cell

/-!
# Rows of pending messages

A row as the store keeps it, and the pending message that it stands for. Lists of recipients are
kept as JSON texts. A text that is no list stands for the empty one.
-/

namespace Courier.Outbox

structure Row where
  id : Int
  createdAt : String
  automationId : Cell
  title : String
  body : String
  recipientsJson : String
  scheduledAt : String
  claimedAt : Option String
  attempts : Int
  lastError : Option String
  deliveredJson : String
deriving DecidableEq, Repr

/-- The texts of the items of a list that is kept as a JSON text. -/
def loadList (raw : String) : Except Failure (List String) :=
  if raw.isEmpty then .ok []
  else
    match Json.read raw with
    | .ok (.list items) => .ok (items.map Value.display)
    | .ok _ => .ok []
    | .error (.syntaxAt _ _) => .ok []
    | .error (.integerTooLong digits) => .error (.integerTooLong digits)

structure Pending where
  id : Int
  createdAt : String
  automationId : Option Int
  title : String
  body : String
  recipients : List String
  delivered : List String
  scheduledAt : String
  claimedAt : Option String
  attempts : Int
  lastError : Option String
deriving DecidableEq, Repr

def Row.pending (r : Row) : Except Failure Pending := do
  let automationId ← r.automationId.toInt?
  let recipients ← loadList r.recipientsJson
  let delivered ← loadList r.deliveredJson
  return {
    id := r.id
    createdAt := r.createdAt
    automationId
    title := r.title
    body := r.body
    recipients
    delivered
    scheduledAt := r.scheduledAt
    claimedAt := r.claimedAt
    attempts := r.attempts
    lastError := r.lastError }

/-- The recipients that were not reached when the message was read. -/
def Pending.remaining (p : Pending) : List String :=
  p.recipients.filter fun r => !p.delivered.contains r

/-! ## Setting single columns -/

def rowTable : String := "pending_messages"

/-- Sets a column of a row by its name. Columns that must not be empty refuse to become so. -/
def Row.set (column : String) (c : Cell) (r : Row) : Except Failure Row :=
  match column with
  | "created_at" => (c.requireText rowTable column).map fun s => { r with createdAt := s }
  | "automation_id" => .ok { r with automationId := c.toInteger }
  | "title" => (c.requireText rowTable column).map fun s => { r with title := s }
  | "body" => (c.requireText rowTable column).map fun s => { r with body := s }
  | "recipients_json" => (c.requireText rowTable column).map fun s => { r with recipientsJson := s }
  | "scheduled_at_utc" => (c.requireText rowTable column).map fun s => { r with scheduledAt := s }
  | "claimed_at_utc" => .ok { r with claimedAt := c.toText? }
  | "send_attempts" =>
    match c.toInteger with
    | .null => .error (.missingColumn rowTable column)
    | .int n => .ok { r with attempts := n }
    | _ => .error (.storeFault "datatype mismatch")
  | "last_error" => .ok { r with lastError := c.toText? }
  | "delivered_json" => (c.requireText rowTable column).map fun s => { r with deliveredJson := s }
  | _ => .error (.storeFault ("no such column: " ++ column))

end Courier.Outbox
