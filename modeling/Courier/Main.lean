import Courier.Application
import Courier.Log.Line
import Courier.Program
import Std.Time.DateTime.Timestamp

/-!
# The command line

The program reads its settings from the environment of the process, writes its log to the standard
output and lets the worker sweep. The store lives as long as the process does. There is no
connection to a bot, so a message that the worker wants to send is refused.
-/

namespace Courier.Program

open Calendar (Instant)

/-- The microseconds from the start of the calendar to that of the year 1970. -/
def clockStart : Nat := 719162 * Calendar.microsPerDay

def readClock : IO Instant := do
  let nanoseconds := (← Std.Time.Timestamp.now).toNanosecondsSinceUnixEpoch.val
  return (Instant.ofMicros? (clockStart + nanoseconds / 1000)).getD ⟨0, by decide⟩

def readEnvironment : IO Environment :=
  Settings.variableNames.filterMapM fun name => do
    return (← IO.getEnv name).map fun value => (name, value)

def writeLog (setup : Log.Setup) (now : Instant) (records : Log.Journal) : IO Unit := do
  for r in records do
    if let .ok (some line) := setup.emit now r then
      IO.println line
  (← IO.getStdout).flush

def noConnection : Failure :=
  .transport "NetworkError" "no connection"

/-- A pause of so many seconds, one day after another. -/
partial def sleep (seconds : Nat) : IO Unit := do
  let part := min seconds 86400
  IO.sleep (part * 1000).toUInt32
  if part < seconds then sleep (seconds - part)

/-- Lets the worker go on until it ends. -/
partial def serve (setup : Log.Setup) (s : Settings) (w : Outbox.Worker) (d : Desk) : IO Unit := do
  writeLog setup d.now d.journal
  let d := { d with journal := [] }
  if w.request?.isSome then
    let (d, w) := w.resume (.error noConnection) { d with now := ← readClock }
    serve setup s w d
  else if w.isRunning then
    if let .asleep := w then
      sleep (Outbox.Worker.pause s.pollInterval).toNat
    let (d, w) := w.wake s.policy { d with now := ← readClock }
    serve setup s w d

/-- What the actions so far have set up. -/
structure Progress where
  setup : Log.Setup
  settings : Option Settings

def perform (p : Progress) : Action → IO Progress
  | .configureLogging level =>
    match Log.Setup.configure (.text level) with
    | .ok setup => return { p with setup }
    | .error f => throw (.userError f.trace)
  | .buildApplication s => do
    writeLog p.setup (← readClock) (Application.build s).2
    return { p with settings := some s }
  | .runPolling => do
    if let some s := p.settings then
      let (d, w) := Outbox.Worker.unstarted.start ⟨.empty, ← readClock, [], none, []⟩
      serve p.setup s w d
    return p

def run : IO UInt32 := do
  match plan (← readEnvironment) with
  | .error f =>
    IO.eprintln f.trace
    return 1
  | .ok actions =>
    discard <| actions.foldlM perform ⟨.initial, none⟩
    return 0

end Courier.Program

def main : IO UInt32 :=
  Courier.Program.run
