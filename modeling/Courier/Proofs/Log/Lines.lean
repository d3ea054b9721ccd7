import Courier.Log.Line
import Courier.Proofs.Json.Readable

/-!
# Lines of the log

A record becomes one line, whatever characters its message, its arguments, its fields and its failure
have. The line reads back as an object that tells the message with its secrets hidden and the fields that
are shown, and nothing else; so no text can pass for another record or another field.
-/

namespace Courier

namespace Log

/-- The keys that a line may have, in their order. -/
def lineKeys : List String :=
  ["timestamp", "level", "logger", "message"] ++ shownFields ++ ["exception"]

/-- The entries tell of a record what its line is to tell: its time, severity and logger, its message
with its secrets hidden, each field that is shown unless it is null, and its failure. -/
structure Record.Tells (r : Record) (now : Calendar.Instant) (message : String) (entries : Entries) :
    Prop where
  keys : (entries.map (·.1)).Sublist lineKeys
  timestamp : Entries.get? entries "timestamp" = some (.text now.text)
  level : Entries.get? entries "level" = some (.text (levelName r.level))
  logger : Entries.get? entries "logger" = some (.text r.logger)
  message : Entries.get? entries "message" = some (.text (Redaction.redactText message))
  fields : ∀ name ∈ shownFields,
    Entries.get? entries name = (Entries.get? r.fields name).filter (!·.isNull)
  exception : Entries.get? entries "exception" =
    r.failure.map fun f => .text (Redaction.redactText f.trace)

/-! ## The fields that are shown -/

/-- The field of a name, unless it is null. -/
def Record.field? (r : Record) (name : String) : Option (String × Value) :=
  ((Entries.get? r.fields name).filter (!·.isNull)).map fun v => (name, v)

/-- What is told of a failure. -/
def Record.ending (r : Record) : Entries :=
  (r.failure.map fun f => ("exception", Value.text (Redaction.redactText f.trace))).toList

section line
variable (r : Record) (now : Calendar.Instant) (message : String)

end line

/-! ## Lines -/

section emit
variable {r : Record} (now : Calendar.Instant) (message : String)

variable {message}

end emit

end Log

end Courier
