import Courier.Desk
import Courier.Message.Payload

/-!
# Sweeps

A sweep delivers the messages that are due. It lists them first and then takes one after another: it
claims the message, sends it to each recipient that was not reached before, and deletes it. After a
failure the message is released; when it failed for the last time, the operator is told. A
cancellation hands the message back and ends the sweep.

A sweep performs one operation on the store at a time (`Sweep.advance`), and stops at every call of
the messenger. `Sweep.request?` is the call that it waits for, `Sweep.answered` takes the answer, and
`Sweep.resume` goes on with it to the next call; in between others may act on the desk.
-/

namespace Courier.Outbox

open Message (Payload)

/-- What sweeps go by, and the worker between them. -/
structure Policy where
  retryLimit : Int
  lease : Lease
  operatorChat : Option Int
  /-- The seconds from the end of a sweep to the next one. -/
  pollInterval : Int
deriving DecidableEq, Repr

/-- What a sweep does next. -/
inductive Activity where
  /-- Claiming the next of the messages that are due. -/
  | taking
  /-- Waiting for the answer to a call that sends a message to a recipient; `rest` come after that
  one, and `receipts` are those of the recipients before. -/
  | sending (p : Pending) (recipient : String) (rest receipts : List String)
  /-- Noting that a recipient was reached. -/
  | noting (p : Pending) (recipient : String) (rest receipts : List String)
  /-- Deleting a message that reached all its recipients. -/
  | completing (p : Pending) (receipts : List String)
  /-- Recording that a message was delivered. -/
  | confirming (p : Pending) (receipts : List String)
  /-- Releasing a message after a failure. -/
  | releasing (p : Pending) (cause : Failure)
  /-- Recording a failure; `attempts` counts those of the message. -/
  | reporting (p : Pending) (attempts : Int) (cause : Failure)
  /-- Waiting for the answer to a call that tells the operator of the last failure of a message. -/
  | alerting (p : Pending) (attempts : Int) (cause : Failure)
  /-- Handing a message back after a cancellation. -/
  | returning (p : Pending) (cause : Failure)
  /-- Nothing more: all messages were taken, or a failure ended the sweep. -/
  | ended (failure : Option Failure)

namespace Activity

/-- Sending a message to the next recipient, or deleting it if there is none. -/
def toNext (p : Pending) (receipts : List String) : List String → Activity
  | [] => completing p receipts
  | recipient :: rest => sending p recipient rest receipts

/-- A bound of the number of operations before the next message is taken, if the messenger is not
called. -/
def size : Activity → Nat
  | sending .. | alerting .. | ended _ => 0
  | taking => 1
  | confirming .. | reporting .. | returning .. => 2
  | completing .. | releasing .. => 3
  | noting .. => 4

theorem size_toNext_le (p : Pending) (receipts rest : List String) :
    (toNext p receipts rest).size ≤ 3 := by
  cases rest
  · exact Nat.le_refl 3
  · exact Nat.zero_le 3

end Activity

structure Sweep where
  policy : Policy
  /-- The messages that were not taken yet. -/
  due : List Pending
  /-- The number of messages that were delivered. -/
  delivered : Nat
  activity : Activity

namespace Sweep

def listLimit : Int := 100

def turnTo (activity : Activity) (s : Sweep) : Sweep :=
  { s with activity }

def stopWith (f : Failure) (s : Sweep) : Sweep :=
  s.turnTo (.ended (some f))

/-! ## Records and events -/

def fields (p : Pending) (event status : String) : Entries :=
  [("event", .text event), ("pending_id", .int p.id),
    ("automation_id", .ofOptionInt p.automationId), ("status", .text status)]

def sentRecord (p : Pending) (count : Nat) : Log.Record :=
  Log.Channel.pending.record Log.info "pending message delivered"
    (fields p "pending_sent" "ok" ++ [("result_count", .int count)]) none

def interruptedRecord (p : Pending) : Log.Record :=
  Log.Channel.pending.record Log.warning "pending message delivery interrupted"
    (fields p "pending_interrupted" "cancelled") none

def failedRecord (p : Pending) (severity : String) (f : Failure) : Log.Record :=
  Log.Channel.pending.record Log.error "pending message delivery failed"
    (fields p "pending_send_error" "error" ++ [("severity", .text severity)]) (some f)

def unalertedRecord (p : Pending) (f : Failure) : Log.Record :=
  Log.Channel.pending.record Log.error "operator notification failed"
    [("event", .text "operator_notify_error"), ("pending_id", .int p.id)] (some f)

def sentEntry (p : Pending) (receipts : List String) : Entry :=
  { eventType := .text "pending_message_sent"
    automationId := .ofOptionInt p.automationId
    status := .text "ok"
    severity := .text "info"
    payload := some <| .object
      [("pending_id", .int p.id), ("message_id", .text (",".intercalate receipts))] }

def errorEntry (p : Pending) (severity : String) (attempts : Int) (f : Failure) : Entry :=
  { eventType := .text "pending_message_error"
    automationId := .ofOptionInt p.automationId
    status := .text "error"
    severity := .text severity
    payload := some <| .object
      [("pending_id", .int p.id), ("attempts", .int attempts), ("error", .text f.message)] }

/-- The severity of a failure, which is greater if it is the last one. -/
def severity (exhausted : Bool) : String :=
  if exhausted then "critico" else "alerta"

/-! ## Operations -/

/-- Performs an operation on the store and goes on with its result. A failure ends the sweep. -/
def perform {α : Type} (operation : Operation α) (s : Sweep) (d : Desk)
    (next : α → Desk → Desk × Sweep) : Desk × Sweep :=
  match d.perform operation with
  | .error f => (d, s.stopWith f)
  | .ok (a, d) => next a d

def list (policy : Policy) (now : Calendar.Moment) (d : Desk) : Sweep :=
  match d.store.listDue now policy.retryLimit listLimit policy.lease with
  | .error f => ⟨policy, [], 0, .ended (some f)⟩
  | .ok due => ⟨policy, due, 0, .taking⟩

/-- Claims the next message; one that cannot be claimed is passed over. -/
def take (s : Sweep) (d : Desk) : Desk × Sweep :=
  match s.due with
  | [] => (d, s.turnTo (.ended none))
  | p :: due =>
    { s with due }.perform (Store.claim p.id d.moment s.policy.lease) d fun claimed d =>
      (d, { s with due, activity := if claimed then .toNext p [] p.remaining else .taking })

/-- Notes that a recipient was reached. If that fails, the message counts as failed. -/
def note (p : Pending) (recipient : String) (rest receipts : List String) (s : Sweep) (d : Desk) :
    Desk × Sweep :=
  match d.perform (Store.mark p.id (.text recipient)) with
  | .error f => (d, s.turnTo (.releasing p f))
  | .ok ((), d) => (d, s.turnTo (.toNext p receipts rest))

def complete (p : Pending) (receipts : List String) (s : Sweep) (d : Desk) : Desk × Sweep :=
  s.perform (Store.complete p.id) d fun () d => (d, s.turnTo (.confirming p receipts))

def confirm (p : Pending) (receipts : List String) (s : Sweep) (d : Desk) : Desk × Sweep :=
  s.perform (Store.record d.now (sentEntry p receipts)) d fun () d =>
    (d.log (sentRecord p receipts.length), { s with delivered := s.delivered + 1, activity := .taking })

def release (p : Pending) (cause : Failure) (s : Sweep) (d : Desk) : Desk × Sweep :=
  s.perform (Store.release p.id cause.message) d fun attempts d =>
    (d, s.turnTo (.reporting p attempts cause))

/-- Records a failure. The operator is told of the last one. -/
def report (p : Pending) (attempts : Int) (cause : Failure) (s : Sweep) (d : Desk) : Desk × Sweep :=
  let severity := severity (s.policy.retryLimit ≤ attempts)
  s.perform (Store.record d.now (errorEntry p severity attempts cause)) d fun () d =>
    (d.log (failedRecord p severity cause),
      s.turnTo
        (if s.policy.retryLimit ≤ attempts ∧ s.policy.operatorChat.isSome then
          .alerting p attempts cause
        else .taking))

/-- Hands a message back as it was, and ends the sweep. -/
def handBack (p : Pending) (cause : Failure) (s : Sweep) (d : Desk) : Desk × Sweep :=
  s.perform (Store.unclaim p.id) d fun () d => (d.log (interruptedRecord p), s.stopWith cause)

/-- Performs the next operation on the store. A sweep that waits for the messenger or is over stays
as it is. -/
def advance (s : Sweep) (d : Desk) : Desk × Sweep :=
  match s.activity with
  | .taking => s.take d
  | .noting p recipient rest receipts => s.note p recipient rest receipts d
  | .completing p receipts => s.complete p receipts d
  | .confirming p receipts => s.confirm p receipts d
  | .releasing p cause => s.release p cause d
  | .reporting p attempts cause => s.report p attempts cause d
  | .returning p cause => s.handBack p cause d
  | .sending .. | .alerting .. | .ended _ => (d, s)

/-! ## Calls of the messenger -/

def alert (chat : Int) (p : Pending) (attempts : Int) (cause : Failure) : Payload :=
  { title := .text "Delivery failed"
    body := .text <|
      "Pending message " ++ toString p.id ++ " (automation " ++
        (Value.ofOptionInt p.automationId).display ++ ") gave up after " ++ toString attempts ++
        " attempts: " ++ cause.message
    recipients := [toString chat] }

/-- The call of the messenger that the sweep waits for. -/
def request? (s : Sweep) : Option Payload :=
  match s.activity with
  | .sending p recipient _ _ => some ⟨.text p.title, .text p.body, [recipient]⟩
  | .alerting p attempts cause => s.policy.operatorChat.map fun chat => alert chat p attempts cause
  | _ => none

/-- Takes the answer to the call: the receipt of the message, or a failure. -/
def answered (answer : Except Failure String) (s : Sweep) (d : Desk) : Desk × Sweep :=
  match s.activity, answer with
  | .sending p recipient rest receipts, .ok receipt =>
    (d, s.turnTo (.noting p recipient rest (receipts ++ [receipt])))
  | .sending p _ _ _, .error f =>
    (d, s.turnTo (if f.isCancellation then .returning p f else .releasing p f))
  | .alerting _ _ _, .ok _ => (d, s.turnTo .taking)
  | .alerting p _ _, .error f =>
    if f.isCancellation then (d, s.stopWith f) else (d.log (unalertedRecord p f), s.turnTo .taking)
  | _, _ => (d, s)

/-! ## Sweeps -/

/-- Whether the sweep has an operation to perform before it waits or is over. -/
def isBusy (s : Sweep) : Bool :=
  match s.activity with
  | .sending .. | .alerting .. | .ended _ => false
  | _ => true

/-- A bound of the number of operations that are left if the messenger is not called. -/
def size (s : Sweep) : Nat :=
  4 * s.due.length + s.activity.size

theorem size_perform_lt {α : Type} {operation : Operation α} {s : Sweep} {d : Desk}
    {next : α → Desk → Desk × Sweep} {n : Nat} (hs : 4 * s.due.length < n)
    (hnext : ∀ a d, (next a d).2.size < n) : (s.perform operation d next).2.size < n := by
  unfold perform
  split
  · simpa [stopWith, turnTo, size, Activity.size] using hs
  · exact hnext _ _

theorem size_advance_lt {s : Sweep} (h : s.isBusy) (d : Desk) : (s.advance d).2.size < s.size := by
  obtain ⟨policy, due, delivered, activity⟩ := s
  cases activity with
  | taking =>
    cases due with
    | nil => simp [advance, take, turnTo, size, Activity.size]
    | cons p due =>
      refine size_perform_lt (by simp [size]; omega) fun claimed d => ?_
      have hnext := Activity.size_toNext_le p [] p.remaining
      cases claimed
      · simp [size]
      · simp only [size, if_true, List.length_cons]
        omega
  | noting p recipient rest receipts =>
    have hnext := Activity.size_toNext_le p receipts rest
    have hnoting : (Activity.noting p recipient rest receipts).size = 4 := rfl
    have hreleasing (f : Failure) : (Activity.releasing p f).size = 3 := rfl
    simp only [advance, note]
    split <;> simp only [turnTo, size, hnoting, hreleasing] <;> omega
  | completing | confirming | releasing | returning =>
    exact size_perform_lt (by simp [size, Activity.size])
      fun _ _ => by simp [turnTo, stopWith, size, Activity.size]
  | reporting =>
    refine size_perform_lt (by simp [size, Activity.size]) fun _ _ => ?_
    dsimp only [turnTo, size]
    split <;> simp [Activity.size]
  | sending | alerting | ended => simp [isBusy] at h

/-- Goes on to the next call of the messenger, or to the end. -/
def proceed (s : Sweep) (d : Desk) : Desk × Sweep :=
  if h : s.isBusy then
    have := size_advance_lt h d
    proceed (s.advance d).2 (s.advance d).1
  else (d, s)
termination_by s.size

/-- Lists the messages that are due at a moment and goes on to the first call of the messenger. -/
def start (policy : Policy) (now : Calendar.Moment) (d : Desk) : Desk × Sweep :=
  (list policy now d).proceed d

/-- Goes on with the answer to the call, up to the next one. -/
def resume (answer : Except Failure String) (s : Sweep) (d : Desk) : Desk × Sweep :=
  (s.answered answer d).2.proceed (s.answered answer d).1

/-- The outcome of a sweep that is over: the number of messages that it delivered. -/
def outcome? (s : Sweep) : Option (Except Failure Nat) :=
  match s.activity with
  | .ended none => some (.ok s.delivered)
  | .ended (some f) => some (.error f)
  | _ => none

end Sweep

end Courier.Outbox
