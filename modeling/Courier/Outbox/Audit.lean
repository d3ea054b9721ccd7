import Courier.Json.Writer
import Courier.Outbox.Cell
import Courier.Redaction
import Courier.Text.Case

/-!
# The audit log

Events of deliveries are kept for good, in the order in which they were recorded. Their payloads are
kept as JSON texts with their secrets hidden.
-/

namespace Courier.Outbox

structure Event where
  id : Int
  createdAt : String
  eventType : String
  automationId : Cell
  status : Option String
  severity : Option String
  payloadJson : Option String
deriving DecidableEq, Repr

def eventTable : String := "audit_log"

/-- What is to be recorded. -/
structure Entry where
  eventType : Value
  automationId : Value
  status : Value
  severity : Value
  payload : Option Value

def payloadText (payload : Value) : String :=
  Json.write (Redaction.redact payload)

def Entry.event (id : Int) (createdAt : String) (e : Entry) : Except Failure Event := do
  let eventType ← Cell.ofParameter 2 e.eventType
  let automationId ← Cell.ofParameter 3 e.automationId
  let status ← Cell.ofParameter 4 e.status
  let severity ← Cell.ofParameter 5 e.severity
  let eventType ← eventType.requireText eventTable "event_type"
  return {
    id
    createdAt
    eventType
    automationId := automationId.toInteger
    status := status.toText?
    severity := severity.toText?
    payloadJson := e.payload.map payloadText }

def Event.isError (e : Event) : Bool :=
  Text.lowerAscii (e.status.getD "") == "error"

/-- The payload of an event; one that cannot be read is null. -/
def Event.payload (e : Event) : Except Failure Value :=
  match e.payloadJson with
  | none => .ok .null
  | some raw =>
    if raw.isEmpty then .ok .null
    else
      match Json.read raw with
      | .ok v => .ok v
      | .error (.syntaxAt _ _) => .ok .null
      | .error (.integerTooLong digits) => .error (.integerTooLong digits)

def Event.set (column : String) (c : Cell) (e : Event) : Except Failure Event :=
  match column with
  | "created_at" => (c.requireText eventTable column).map fun s => { e with createdAt := s }
  | "event_type" => (c.requireText eventTable column).map fun s => { e with eventType := s }
  | "automation_id" => .ok { e with automationId := c.toInteger }
  | "status" => .ok { e with status := c.toText? }
  | "severity" => .ok { e with severity := c.toText? }
  | "payload_json" => .ok { e with payloadJson := c.toText? }
  | _ => .error (.storeFault ("no such column: " ++ column))

end Courier.Outbox
