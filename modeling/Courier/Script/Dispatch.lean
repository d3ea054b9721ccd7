import Courier.Desk
import Courier.Routine
import Courier.Span

/-!
# Dispatching messages

A message is sent at once, or stored to be sent after a delay. Either one of the two happens, or
nothing does: without recipients, or if the message cannot be stored, the dispatch fails before it
has an effect.
-/

namespace Courier.Script.Dispatch

open Message (Payload)

/-- What became of a message. -/
inductive Dispatched where
  | sent (receipt : String)
  | pending (id : Int)
deriving DecidableEq, Repr

def checkRecipients (payload : Payload) : Except Failure Unit :=
  if payload.recipients.isEmpty then
    .error (.invalidPayload "message needs at least one recipient")
  else
    .ok ()

/-- The delay in minutes, if there is one. -/
def minutes (delay : Value) : Except Failure (Option Int) :=
  if delay.isNull then .ok none
  else delay.toInt.map fun n => if 0 < n then some n else none

/-- The draft of a message that is to be sent so many minutes from now. -/
def draftAfter (now : Calendar.Instant) (minutes : Int) (automationId : Value)
    (payload : Payload) : Except Failure Outbox.Draft := do
  let span ← Span.ofMinutes minutes
  match now.add? span with
  | none => .error .dateOutOfRange
  | some scheduledAt =>
    return {
      automationId
      title := payload.title
      body := payload.body
      recipients := .list (payload.recipients.map .text)
      scheduledAt := .ofInstant scheduledAt }

def fields (event status : String) (automationId : Value) : Entries :=
  [("event", .text event), ("automation_id", automationId), ("status", .text status)]

def scheduledRecord (automationId : Value) (id : Int) : Log.Record :=
  Log.Channel.dispatch.record Log.info "message scheduled"
    (fields "message_pending" "pending" automationId ++ [("pending_id", .int id)]) none

def sentRecord (automationId : Value) : Log.Record :=
  Log.Channel.dispatch.record Log.info "message sent" (fields "message_sent" "sent" automationId)
    none

def cancelledRecord (automationId : Value) : Log.Record :=
  Log.Channel.dispatch.record Log.info "pending messages cancelled"
    (fields "message_pending_cancelled" "ok" automationId) none

def schedule (payload : Payload) (minutes : Int) (automationId : Value) (d : Desk) :
    Except Failure (Dispatched × Desk) := do
  let draft ← draftAfter d.now minutes automationId payload
  let (id, d) ← d.perform (Outbox.Store.create d.now draft)
  return (.pending id, d.log (scheduledRecord automationId id))

/-- What a dispatch does first. -/
inductive Plan where
  | refuse (f : Failure)
  | store (result : Dispatched) (d : Desk)
  | send

def plan (payload : Payload) (delay automationId : Value) (d : Desk) : Plan :=
  match checkRecipients payload with
  | .error f => .refuse f
  | .ok () =>
    match minutes delay with
    | .error f => .refuse f
    | .ok none => .send
    | .ok (some minutes) =>
      match schedule payload minutes automationId d with
      | .error f => .refuse f
      | .ok (result, d) => .store result d

/-- Sends a message now, or stores it to be sent after a delay. -/
def send (payload : Payload) (delay automationId : Value) :
    Routine Desk (Except Failure Dispatched) :=
  .read fun d =>
    match plan payload delay automationId d with
    | .refuse f => .done (.error f)
    | .store result d => .write d (.done (.ok result))
    | .send =>
      .send payload fun
        | .error f => .done (.error f)
        | .ok receipt => .read fun d =>
            .write (d.log (sentRecord automationId)) (.done (.ok (.sent receipt)))

/-- Deletes the stored messages of an automation that are not being sent; gives their number. -/
def cancelPending (automationId : Value) (d : Desk) : Except Failure (Nat × Desk) := do
  let (count, d) ← d.perform (Outbox.Store.cancelAll automationId)
  return (count, d.log (cancelledRecord automationId))

end Courier.Script.Dispatch
