import Courier.Json.Writer
import Courier.Log.Record
import Courier.Text.Case

/-!
# Log lines

Each record that is severe enough becomes one line of JSON. `Setup` is what the loggers are set to:
the least severity that the root logger lets through, and that of the logger of web requests, which
would show whole addresses otherwise.
-/

namespace Courier.Log

/-- What a record becomes as a value: the time, the severity, the logger, the message, the fields
that are shown, and the failure. -/
def Record.lineValue? (now : Calendar.Instant) (r : Record) : Option Value := do
  let message ← r.text?
  return .object <|
    [("timestamp", .text now.text), ("level", .text (levelName r.level)),
      ("logger", .text r.logger), ("message", .text message)] ++ r.shown ++
    match r.failure with
    | some f => [("exception", .text (Redaction.redactText f.trace))]
    | none => []

/-- The line of a record. There is none if its arguments do not fit, or if a whole number in its fields
is too long for a text. -/
def Record.line? (now : Calendar.Instant) (r : Record) : Option String := do
  let v ← r.lineValue? now
  if v.isOverlong then none else some (Json.write v)

structure Setup where
  rootLevel : Level
  requestLevel : Level
deriving DecidableEq, Repr

namespace Setup

def initial : Setup := ⟨warning, 0⟩

/-- The severity that a name in capital letters stands for; a name that is not known stands for
information. One known name stands for a layout of lines and is refused. -/
def levelOf (name : String) : Except Failure Level :=
  match name with
  | "DEBUG" => .ok debug
  | "INFO" => .ok info
  | "WARN" | "WARNING" => .ok warning
  | "ERROR" => .ok error
  | "CRITICAL" | "FATAL" => .ok critical
  | "NOTSET" => .ok 0
  | "BASIC_FORMAT" => .error (.unknownLevel "%(levelname)s:%(name)s:%(message)s")
  | _ => .ok info

/-- The loggers with the named level. Only a text is a name. -/
def configure : Value → Except Failure Setup
  | .text level => (levelOf (Text.upper level)).map fun root => ⟨root, warning⟩
  | v => .error (.noMember v.kindName "upper")

def rootName : String := "root"

def loggerName (name : String) : String :=
  if name.isEmpty then rootName else name

/-- The logger of web requests and those below it. -/
def isRequestLogger (name : String) : Bool :=
  name == "httpx" || "httpx.".toList.isPrefixOf name.toList

def threshold (setup : Setup) (name : String) : Level :=
  if isRequestLogger name ∧ setup.requestLevel ≠ 0 then setup.requestLevel else setup.rootLevel

def enables (setup : Setup) (name : String) (level : Level) : Bool :=
  0 < level && setup.threshold name ≤ level

end Setup

/-- Names that a field must not have, since every record has them. -/
def reservedNames : List String :=
  ["message", "asctime", "name", "msg", "args", "levelname", "levelno", "pathname", "filename",
    "module", "exc_info", "exc_text", "stack_info", "lineno", "funcName", "created", "msecs",
    "relativeCreated", "thread", "threadName", "processName", "process"]

/-- Gives a record to the loggers: nothing if its logger does not let it through, else its line, if it
has one. A record with a field of a reserved name is refused. -/
def Setup.emit (setup : Setup) (now : Calendar.Instant) (r : Record) :
    Except Failure (Option String) :=
  if setup.enables r.logger r.level then
    match r.fields.find? fun field => reservedNames.contains field.1 with
    | some field => .error (.reservedField field.1)
    | none => .ok (r.line? now)
  else
    .ok none

end Courier.Log
