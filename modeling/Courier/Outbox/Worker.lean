import Courier.Number.Binary64
import Courier.Outbox.Sweep

/-!
# The worker

A worker sweeps again and again, and pauses in between. It ends when it is stopped, when a failure
ends a sweep, or when the clock cannot count the pause.
-/

namespace Courier.Outbox

inductive Worker where
  | unstarted
  /-- The worker is started and has not had its first turn. -/
  | scheduled
  | asleep
  | sweeping (s : Sweep)
  /-- The worker ended, by a failure or because it was stopped. -/
  | ended (failure : Failure)

namespace Worker

def startedRecord : Log.Record :=
  Log.Channel.pending.record Log.info "pending message service started"
    [("event", .text "pending_started")] none

def stoppedRecord : Log.Record :=
  Log.Channel.pending.record Log.info "pending message service stopped"
    [("event", .text "pending_stopped")] none

def leastPause : Int := 5

/-- The seconds that the worker pauses. -/
def pause (interval : Int) : Int :=
  max leastPause interval

def isRunning : Worker → Bool
  | scheduled | asleep | sweeping _ => true
  | unstarted | ended _ => false

/-- The worker after a sweep that returned. The clock counts in binary numbers, so a pause that is
too large for them fails. -/
def rest (policy : Policy) : Worker :=
  if (Number.Binary64.ofInt (pause policy.pollInterval)).isInfinite then
    ended .realIntegerTooLarge
  else asleep

/-- The worker during or after a sweep. -/
def ofSweep (s : Sweep) : Worker :=
  match s.activity with
  | .ended none => rest s.policy
  | .ended (some f) => ended f
  | _ => sweeping s

def beginSweep (policy : Policy) (d : Desk) : Desk × Worker :=
  let (d, s) := Sweep.start policy d.moment d
  (d, ofSweep s)

/-- Starts the worker, unless it runs. It sweeps when it has its first turn. -/
def start (w : Worker) (d : Desk) : Desk × Worker :=
  if w.isRunning then (d, w) else (d.log startedRecord, scheduled)

/-- Gives the worker its turn: the first one, or the one after a pause. -/
def wake (policy : Policy) (w : Worker) (d : Desk) : Desk × Worker :=
  match w with
  | scheduled | asleep => beginSweep policy d
  | w => (d, w)

def request? : Worker → Option Message.Payload
  | sweeping s => s.request?
  | _ => none

/-- Goes on with the answer to the call of the messenger that the worker waits for. -/
def resume (answer : Except Failure String) (w : Worker) (d : Desk) : Desk × Worker :=
  match w with
  | sweeping s =>
    let (d, s) := s.resume answer d
    (d, ofSweep s)
  | w => (d, w)

def interrupt (w : Worker) (d : Desk) : Desk × Worker :=
  match w with
  | scheduled | asleep => (d, ended .cancellation)
  | sweeping s =>
    let (d, s) := s.resume (.error .cancellation) d
    (d, ofSweep s)
  | w => (d, w)

/-- Stops the worker. The failure of a worker that ended by itself is given on. -/
def stop (w : Worker) (d : Desk) : Except Failure Unit × Desk × Worker :=
  match w with
  | unstarted => (.ok (), d, unstarted)
  | w =>
    let (d, w) := w.interrupt d
    match w with
    | ended f =>
      if f.isCancellation then (.ok (), d.log stoppedRecord, w) else (.error f, d, w)
    | w => (.ok (), d.log stoppedRecord, w)

end Worker

end Courier.Outbox
