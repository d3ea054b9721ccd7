import Courier.Failure
import Courier.Log.Pattern
import Courier.Redaction

/-!
# Log records

A record names the part of the program that wrote it, its severity, its message and named fields.
Fields that are null count as missing. The message of a record is shown with its secrets hidden,
after the arguments have taken their places in it, so that a secret that is split between the two is
hidden as well.
-/

namespace Courier.Log

/-- A severity, as a number that grows with it. -/
abbrev Level := Int

def debug : Level := 10

def info : Level := 20

def warning : Level := 30

def error : Level := 40

def critical : Level := 50

def levelName (level : Level) : String :=
  if level = critical then "CRITICAL"
  else if level = error then "ERROR"
  else if level = warning then "WARNING"
  else if level = info then "INFO"
  else if level = debug then "DEBUG"
  else if level = 0 then "NOTSET"
  else "Level " ++ toString level

structure Record where
  logger : String
  level : Level
  message : Value
  args : List Value
  fields : Entries
  failure : Option Failure

/-- The records of a program, oldest first. -/
abbrev Journal := List Record

/-- The fields that are shown, in the order in which they are shown. -/
def shownFields : List String :=
  ["trace_id", "event", "script", "trigger", "automation_id", "pending_id", "report", "source",
    "status", "severity", "latency_ms", "result_count"]

/-- The fields of a record that are shown: those with a known name and a value. -/
def Record.shown (r : Record) : Entries :=
  shownFields.filterMap fun name =>
    match Entries.get? r.fields name with
    | some .null => none
    | some v => some (name, v)
    | none => none

/-- The message as it is shown; none if the arguments do not fit. -/
def Record.text? (r : Record) : Option String :=
  (format r.message r.args).map Redaction.redactText

/-! ## Records of this program -/

/-- The parts of the program that write records. -/
inductive Channel where
  | store
  | pending
  | dispatch
  | registry
  | runner
  | placeholders
  | reports
  | reportSource
  | sendMessage
  | application
deriving DecidableEq, Repr

def Channel.logger : Channel → String
  | store => "autoscript.state_store"
  | pending => "autoscript.pending_service"
  | dispatch => "autoscript.scripting_lib.dispatch"
  | registry => "autoscript.scripting_lib.registry"
  | runner => "autoscript.scripting_lib.runner"
  | placeholders => "autoscript.scripting_lib.placeholders"
  | reports => "autoscript.scripting_lib.reports"
  | reportSource => "autoscript.scripting_lib.providers.report_api_provider"
  | sendMessage => "autoscript.scripting_lib.scripts.send_message"
  | application => "autoscript.telegram_app"

def Channel.record (channel : Channel) (level : Level) (message : String) (fields : Entries)
    (failure : Option Failure) : Record :=
  ⟨channel.logger, level, .text message, [], fields, failure⟩

end Courier.Log
