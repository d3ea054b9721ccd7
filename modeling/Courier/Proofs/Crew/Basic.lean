import Courier.Proofs.Outbox.Steps
import Courier.Script.Dispatch

/-!
# Crews

A crew is a number of sweeps that share a desk, where others store and cancel messages. A run of the
crew is a list of turns, in any order: a sweep begins, performs its next operation on the store or is
answered by the messenger, the clock is set, a message is stored or cancelled. So a sweep may be
stopped between any two of its operations, not only where it waits for the messenger.

What happens in a run is read off its turns by observers (`claim?`, `giveUp?`, `call?` and others),
each of which tells what a single turn does; `along` collects what an observer sees.
-/

namespace Courier.Outbox

open Message (Payload)

structure Crew where
  desk : Desk
  /-- All sweeps that began, in their order; a sweep is known by its place. -/
  sweeps : List Sweep

inductive Turn where
  | setClock (now : Calendar.Instant)
  | create (draft : Draft)
  | dispatch (payload : Payload) (delay automationId : Value)
  | cancel (id : Int)
  | cancelAll (automationId : Value)
  /-- A sweep begins and lists the messages that are due. -/
  | join (policy : Policy) (now : Calendar.Moment)
  /-- A sweep performs its next operation on the store. -/
  | advance (i : Nat)
  /-- The messenger answers the call that a sweep waits for. -/
  | answer (i : Nat) (answer : Except Failure String)

def Turn.sweep? : Turn → Option Nat
  | advance i | answer i _ => some i
  | _ => none

def Turn.isCancel : Turn → Bool
  | cancel _ | cancelAll _ => true
  | _ => false

/-- A sweep that begins has no lease. -/
def Turn.LeaseOff : Turn → Prop
  | join policy _ => policy.lease.isOff = true
  | _ => True

namespace Crew

def store (c : Crew) : Store :=
  c.desk.store

/-! ## Turns -/

/-- Performs an operation on the store for somebody who is no sweep. -/
def perform {α : Type} (operation : Operation α) (c : Crew) : Crew :=
  match c.desk.perform operation with
  | .error _ => c
  | .ok (_, desk) => { c with desk }

/-- Dispatches a message. One that is sent at once does not come to the store. -/
def dispatch (payload : Payload) (delay automationId : Value) (c : Crew) : Crew :=
  match Script.Dispatch.plan payload delay automationId c.desk with
  | .store _ desk => { c with desk }
  | _ => c

def act (i : Nat) (action : Sweep → Desk → Desk × Sweep) (c : Crew) : Crew :=
  match c.sweeps[i]? with
  | none => c
  | some s => ⟨(action s c.desk).1, c.sweeps.set i (action s c.desk).2⟩

def turn (c : Crew) : Turn → Crew
  | .setClock now => { c with desk := { c.desk with now } }
  | .create draft => c.perform (Store.create c.desk.now draft)
  | .dispatch payload delay automationId => c.dispatch payload delay automationId
  | .cancel id => c.perform (Store.cancel id)
  | .cancelAll automationId => c.perform (Store.cancelAll automationId)
  | .join policy now => { c with sweeps := c.sweeps ++ [Sweep.list policy now c.desk] }
  | .advance i => c.act i Sweep.advance
  | .answer i answer => c.act i (Sweep.answered answer)

def after (c : Crew) (ts : List Turn) : Crew :=
  ts.foldl turn c

/-- The crew before the first sweep. -/
structure IsFresh (c : Crew) : Prop where
  wellNumbered : c.store.WellNumbered
  noSweeps : c.sweeps = []

def idle (now : Calendar.Instant) : Crew :=
  ⟨⟨.empty, now, [], none, []⟩, []⟩

theorem isFresh_idle (now : Calendar.Instant) : (idle now).IsFresh :=
  ⟨Store.wellNumbered_empty, rfl⟩

/-! ## Observers -/

/-- What an observer sees along a run, in order. -/
def along {α : Type} (observer : Crew → Turn → Option α) : Crew → List Turn → List α
  | _, [] => []
  | c, t :: ts => (observer c t).toList ++ along observer (c.turn t) ts

/-- What is seen of the next operation of a sweep, with the place of the sweep. -/
def seeAdvance {α : Type} (see : Sweep → Desk → Option α) (c : Crew) : Turn → Option (Nat × α)
  | .advance i => (c.sweeps[i]?).bind fun s => (see s c.desk).map fun a => (i, a)
  | _ => none

/-- The sweep and the message, if a turn is the successful claim of a message. -/
def claim? : Crew → Turn → Option (Nat × Int) :=
  seeAdvance Sweep.claims?

/-- The sweep and the message, if a turn deletes, releases or hands back a message. -/
def giveUp? : Crew → Turn → Option (Nat × Int) :=
  seeAdvance fun s _ => s.activity.givesUp?

/-- The sweep and the message, if a turn deletes a message that reached all its recipients. -/
def complete? : Crew → Turn → Option (Nat × Int) :=
  seeAdvance fun s _ => s.activity.completes?

/-- The sweep and the message, if a turn releases a message after a failure. -/
def release? : Crew → Turn → Option (Nat × Int) :=
  seeAdvance fun s _ => s.activity.releases?

/-- The sweep, the message and the recipient, if a turn notes that a recipient was reached. -/
def note? : Crew → Turn → Option (Nat × Int × String) :=
  seeAdvance fun s _ => s.activity.notes?

/-- A call of the messenger that delivers a message, and its answer. -/
structure Call where
  sweep : Nat
  id : Int
  payload : Payload
  answer : Except Failure String

def call? (c : Crew) : Turn → Option Call
  | .answer i answer =>
    match c.sweeps[i]? with
    | some s =>
      match s.activity, s.request? with
      | .sending p _ _ _, some payload => some ⟨i, p.id, payload, answer⟩
      | _, _ => none
    | none => none
  | _ => none

/-! ## A small example -/

def noon : Calendar.Instant :=
  ⟨63844891200000000, by decide⟩

def oneOClock : Calendar.Instant :=
  ⟨63844894800000000, by decide⟩

/-- Three tries, no lease, and no operator. -/
def thrice : Policy :=
  ⟨3, .none, none, 15⟩

def greeting : Payload :=
  ⟨.text "Hello", .text "See you at five.", ["ann"]⟩

end Crew

end Courier.Outbox
