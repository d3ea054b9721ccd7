import Courier.Outbox.Audit
import Courier.Outbox.Lease
import Courier.Outbox.Row

/-!
# The store of pending messages

Pending messages wait here until they are delivered. A message is claimed before it is sent, so that
two workers do not send it at once; it is released after a failure and deleted when it was
delivered. Messages are numbered from one, and no number is used twice. The rows are kept in the
order of their numbers, and so are the events of the audit log beside them.

Every operation gives its result and the store after it, or a failure that leaves the store as it
was.
-/

namespace Courier.Outbox

open Calendar (Instant Moment)

structure Store where
  rows : List Row
  lastId : Int
  events : List Event
  lastEventId : Int
  closed : Bool
deriving DecidableEq, Repr

/-- An operation on the store. -/
abbrev Operation (α : Type) := Store → Except Failure (α × Store)

/-- A message that is to be stored. -/
structure Draft where
  automationId : Value
  title : Value
  body : Value
  recipients : Value
  scheduledAt : Moment

namespace Store

def empty : Store := ⟨[], 0, [], 0, false⟩

/-! ## Rows -/

def find? (s : Store) (id : Int) : Option Row :=
  s.rows.find? fun r => r.id == id

def modify (id : Int) (change : Row → Row) (s : Store) : Store :=
  { s with rows := s.rows.map fun r => if r.id = id then change r else r }

def remove (p : Row → Bool) (s : Store) : Store :=
  { s with rows := s.rows.filter fun r => !p r }

def checkOpen (s : Store) : Except Failure Unit :=
  if s.closed then .error .storeClosed else .ok ()

/-- Refuses a number that no column holds. -/
def checkWord (n : Int) : Except Failure Unit :=
  if Cell.isWord n then .ok () else .error .columnIntegerTooLarge

/-- Refuses to number a row beyond the last number that a column holds. -/
def checkRoom (id : Int) : Except Failure Unit :=
  if Cell.isWord id then .ok () else .error (.storeFault "database or disk is full")

/-! ## Creating and reading -/

def draftRow (id : Int) (now : Instant) (draft : Draft) (scheduledAt : Instant)
    (recipients : List Value) : Except Failure Row := do
  let automationId ← Cell.ofParameter 2 draft.automationId
  let title ← Cell.ofParameter 3 draft.title
  let body ← Cell.ofParameter 4 draft.body
  let title ← title.requireText rowTable "title"
  let body ← body.requireText rowTable "body"
  return {
    id
    createdAt := now.text
    automationId := automationId.toInteger
    title
    body
    recipientsJson := Json.write (.list recipients)
    scheduledAt := scheduledAt.text
    claimedAt := none
    attempts := 0
    lastError := none
    deliveredJson := "[]" }

/-- Stores a message; gives its number. -/
def create (now : Instant) (draft : Draft) : Operation Int := fun s => do
  let scheduledAt ← instantOf draft.scheduledAt
  s.checkOpen
  let recipients ← draft.recipients.toItems
  let id := s.lastId + 1
  let row ← draftRow id now draft scheduledAt recipients
  checkRoom id
  return (id, { s with rows := s.rows ++ [row], lastId := id })

def count (automationId : Value) (s : Store) : Except Failure Nat := do
  s.checkOpen
  if automationId.isNull then return s.rows.length
  else
    let key ← Cell.ofParameter 1 automationId
    return (s.rows.filter fun r => r.automationId.agrees key.toInteger).length

def get? (id : Int) (s : Store) : Except Failure (Option Pending) := do
  s.checkOpen
  checkWord id
  match s.find? id with
  | some r => (r.pending).map some
  | none => return none

/-- Whether a row is free, or claimed before a cutoff. -/
def isClaimable (cutoff : String) (r : Row) : Bool :=
  match r.claimedAt with
  | none => true
  | some claimedAt => claimedAt < cutoff

/-- Whether a row is to be sent at a time. -/
def isDue (now cutoff : String) (retryLimit : Int) (r : Row) : Bool :=
  isClaimable cutoff r && r.scheduledAt ≤ now && r.attempts < retryLimit

/-- The first rows of a list; a negative limit is none. -/
def takeLimit (limit : Int) (rows : List Row) : List Row :=
  if limit < 0 then rows else rows.take limit.toNat

def scheduledBefore (r r' : Row) : Bool :=
  r.scheduledAt ≤ r'.scheduledAt

def dueRows (now cutoff : String) (retryLimit limit : Int) (rows : List Row) : List Row :=
  takeLimit limit ((rows.filter (isDue now cutoff retryLimit)).mergeSort scheduledBefore)

/-- The messages that are due at a time and were not tried too often, the earliest first and of
those of one time the one with the lower number. -/
def listDue (now : Moment) (retryLimit limit : Int) (lease : Lease) (s : Store) :
    Except Failure (List Pending) := do
  let nowText := (← instantOf now).text
  let cutoff ← staleCutoff now lease
  s.checkOpen
  checkWord retryLimit
  checkWord limit
  (dueRows nowText cutoff retryLimit limit s.rows).mapM Row.pending

/-! ## Claims -/

/-- Claims a message for a worker; tells whether it was free or its claim stale. -/
def claim (id : Int) (now : Moment) (lease : Lease) : Operation Bool := fun s => do
  let claimedAt := (← instantOf now).text
  let cutoff ← staleCutoff now lease
  s.checkOpen
  checkWord id
  let claimable := s.rows.any fun r => r.id == id && isClaimable cutoff r
  if claimable then return (true, s.modify id fun r => { r with claimedAt := some claimedAt })
  else return (false, s)

def unclaim (id : Int) : Operation Unit := fun s => do
  s.checkOpen
  checkWord id
  return ((), s.modify id fun r => { r with claimedAt := none })

/-- Whether a list of texts has a value in it, which is a text. -/
def holds (items : List String) (v : Value) : Bool :=
  match v with
  | .text s => items.contains s
  | _ => false

def appendedText (items : List String) (v : Value) : String :=
  Json.write (.list (items.map Value.text ++ [v]))

/-- Notes that a recipient was reached. -/
def mark (id : Int) (recipient : Value) : Operation Unit := fun s => do
  s.checkOpen
  checkWord id
  match s.find? id with
  | none => return ((), s)
  | some r =>
    let delivered ← loadList r.deliveredJson
    if holds delivered recipient then return ((), s)
    else
      let text := appendedText delivered recipient
      return ((), s.modify id fun r => { r with deliveredJson := text })

/-- Deletes a message that was delivered. -/
def complete (id : Int) : Operation Unit := fun s => do
  s.checkOpen
  checkWord id
  return ((), s.remove fun r => r.id == id)

/-- The length of the text that is kept of an error. -/
def errorLength : Nat := 500

def errorStart (text : String) : String :=
  String.ofList (text.toList.take errorLength)

/-- Gives up the claim of a message after a failure; gives the number of its failures, 0 if there is
no such message. -/
def release (id : Int) (errorText : String) : Operation Int := fun s => do
  s.checkOpen
  checkWord id
  let s := s.modify id fun r =>
    { r with
      claimedAt := none
      attempts := r.attempts + 1
      lastError := some (errorStart errorText) }
  return (((s.find? id).map (·.attempts)).getD 0, s)

/-! ## Cancelling -/

/-- Deletes a message unless it is claimed; tells whether it was deleted. -/
def cancel (id : Int) : Operation Bool := fun s => do
  s.checkOpen
  checkWord id
  let free (r : Row) : Bool := r.id == id && r.claimedAt.isNone
  return (s.rows.any free, s.remove free)

/-- Deletes the messages of an automation that are not claimed; gives their number. -/
def cancelAll (automationId : Value) : Operation Nat := fun s => do
  s.checkOpen
  let key ← Cell.ofParameter 1 automationId
  let free (r : Row) : Bool := r.automationId.agrees key.toInteger && r.claimedAt.isNone
  return ((s.rows.filter free).length, s.remove free)

/-! ## The audit log -/

def record (now : Instant) (entry : Entry) : Operation Unit := fun s => do
  s.checkOpen
  let id := s.lastEventId + 1
  let event ← entry.event id now.text
  return ((), { s with events := s.events ++ [event], lastEventId := id })

def leastListed : Int := 1

def mostListed : Int := 200

/-- The latest events, the last one first; only those of errors if `onlyError` is set. -/
def listEvents (limit : Value) (onlyError : Bool) (s : Store) :
    Except Failure (List (Event × Value)) := do
  let limit ← limit.toInt
  s.checkOpen
  let listed := s.events.reverse.filter fun e => !onlyError || e.isError
  (listed.take (max leastListed (min mostListed limit)).toNat).mapM fun e => do
    return (e, ← e.payload)

/-! ## Single columns -/

def setRow (id : Int) (column : String) (v : Value) : Operation Unit := fun s => do
  s.checkOpen
  let c ← Cell.ofParameter 1 v
  checkWord id
  match s.find? id with
  | none => return ((), s)
  | some r =>
    let row ← r.set column c
    return ((), s.modify id fun _ => row)

def setEvent (id : Int) (column : String) (v : Value) : Operation Unit := fun s => do
  s.checkOpen
  let c ← Cell.ofParameter 1 v
  checkWord id
  match s.events.find? fun e => e.id == id with
  | none => return ((), s)
  | some e =>
    let event ← e.set column c
    return ((), { s with events := s.events.map fun e => if e.id = id then event else e })

end Store

end Courier.Outbox
