import Courier.Proofs.Crew.Exclusion
import Courier.Proofs.Script.Reset

/-!
# Cancelling through the dispatcher

Besides the turns of a crew, the dispatcher may cancel the messages of an automation, and an automation
of the built-in script may be reset. Both leave records in the log, which no sweep reads; otherwise
they do what the turn `cancelAll` does. So what is known of runs holds with them as well.
-/

namespace Courier

/-! ## What sweeps see of a desk -/

/-- The desks have the same store and the same time. -/
structure Desk.Agrees (d d' : Desk) : Prop where
  store : d'.store = d.store
  now : d'.now = d.now

namespace Outbox

namespace Sweep

/-- The sweep is the same, on desks that agree. -/
structure Agrees (a b : Desk × Sweep) : Prop where
  desk : a.1.Agrees b.1
  sweep : b.2 = a.2

section agrees
variable {d d' : Desk} (h : d.Agrees d')
include h

theorem agrees_perform {α : Type} (operation : Operation α) (s : Sweep)
    {next next' : α → Desk → Desk × Sweep}
    (hnext : ∀ a st, Agrees (next a { d with store := st }) (next' a { d' with store := st })) :
    Agrees (s.perform operation d next) (s.perform operation d' next') := by
  unfold perform Desk.perform
  rw [h.store]
  cases operation d.store with
  | error f => exact ⟨h, rfl⟩
  | ok result => exact hnext result.1 result.2

theorem agrees_take (s : Sweep) : Agrees (s.take d) (s.take d') := by
  have hmoment : d'.moment = d.moment := by rw [Desk.moment, Desk.moment, h.now]
  unfold take
  split
  · exact ⟨h, rfl⟩
  · rw [hmoment]
    exact agrees_perform h _ _ fun claimed st => ⟨⟨rfl, h.now⟩, rfl⟩

theorem agrees_note (p : Pending) (recipient : String) (rest receipts : List String) (s : Sweep) :
    Agrees (s.note p recipient rest receipts d) (s.note p recipient rest receipts d') := by
  unfold note Desk.perform
  rw [h.store]
  cases Store.mark p.id (.text recipient) d.store with
  | error f => exact ⟨h, rfl⟩
  | ok result => exact ⟨⟨rfl, h.now⟩, rfl⟩

theorem agrees_advance (s : Sweep) : Agrees (s.advance d) (s.advance d') := by
  unfold advance
  split
  · exact agrees_take h s
  · exact agrees_note h _ _ _ _ s
  · exact agrees_perform h _ s fun _ _ => ⟨⟨rfl, h.now⟩, rfl⟩
  · unfold confirm
    rw [h.now]
    exact agrees_perform h _ s fun _ _ => ⟨⟨rfl, h.now⟩, rfl⟩
  · exact agrees_perform h _ s fun _ _ => ⟨⟨rfl, h.now⟩, rfl⟩
  · unfold report
    rw [h.now]
    exact agrees_perform h _ s fun _ _ => ⟨⟨rfl, h.now⟩, rfl⟩
  · exact agrees_perform h _ s fun _ _ => ⟨⟨rfl, h.now⟩, rfl⟩
  · exact ⟨h, rfl⟩
  · exact ⟨h, rfl⟩
  · exact ⟨h, rfl⟩

theorem agrees_answered (answer : Except Failure String) (s : Sweep) :
    Agrees (s.answered answer d) (s.answered answer d') := by
  unfold answered
  split
  · exact ⟨h, rfl⟩
  · exact ⟨h, rfl⟩
  · exact ⟨h, rfl⟩
  · split
    · exact ⟨h, rfl⟩
    · exact ⟨⟨h.store, h.now⟩, rfl⟩
  · exact ⟨h, rfl⟩

theorem list_eq (policy : Policy) (now : Calendar.Moment) :
    list policy now d' = list policy now d := by
  rw [list, list, h.store]

end agrees

end Sweep

namespace Crew

/-- The crews differ in their logs only. -/
structure Agrees (c c' : Crew) : Prop where
  desk : c.desk.Agrees c'.desk
  sweeps : c'.sweeps = c.sweeps

theorem Agrees.refl (c : Crew) : c.Agrees c :=
  ⟨⟨rfl, rfl⟩, rfl⟩

section agrees
variable {c c' : Crew} (h : c.Agrees c')
include h

theorem Agrees.store : c'.store = c.store :=
  h.desk.store

theorem Agrees.perform {α : Type} (operation : Operation α) :
    (c.perform operation).Agrees (c'.perform operation) := by
  unfold Crew.perform Desk.perform
  rw [h.desk.store]
  cases operation c.desk.store with
  | error f => exact h
  | ok result => exact ⟨⟨rfl, h.desk.now⟩, h.sweeps⟩

theorem Agrees.dispatch (payload : Message.Payload) (delay automationId : Value) :
    (c.dispatch payload delay automationId).Agrees (c'.dispatch payload delay automationId) := by
  unfold Crew.dispatch Script.Dispatch.plan
  cases Script.Dispatch.checkRecipients payload with
  | error f => exact h
  | ok u =>
    cases Script.Dispatch.minutes delay with
    | error f => exact h
    | ok minutes =>
      cases minutes with
      | none => exact h
      | some minutes =>
        dsimp only
        unfold Script.Dispatch.schedule Desk.perform
        rw [h.desk.now, h.desk.store]
        cases Script.Dispatch.draftAfter c.desk.now minutes automationId payload with
        | error f => exact h
        | ok draft =>
          simp only [bind, Except.bind]
          cases Store.create c.desk.now draft c.desk.store with
          | error f => exact h
          | ok result => exact ⟨⟨rfl, rfl⟩, h.sweeps⟩

theorem Agrees.act {i : Nat} {action : Sweep → Desk → Desk × Sweep}
    (haction : ∀ s, Sweep.Agrees (action s c.desk) (action s c'.desk)) :
    (c.act i action).Agrees (c'.act i action) := by
  unfold Crew.act
  rw [h.sweeps]
  split
  · exact h
  · rename_i s hs
    exact ⟨(haction s).desk, by rw [(haction s).sweep]⟩

theorem Agrees.turn (t : Turn) : (c.turn t).Agrees (c'.turn t) := by
  cases t with
  | setClock now => exact ⟨⟨h.desk.store, rfl⟩, h.sweeps⟩
  | create draft =>
    rw [Crew.turn, Crew.turn, h.desk.now]
    exact h.perform _
  | dispatch payload delay automationId => exact h.dispatch payload delay automationId
  | cancel id => exact h.perform _
  | cancelAll automationId => exact h.perform _
  | join policy now =>
    refine ⟨h.desk, ?_⟩
    rw [Crew.turn, Crew.turn, Sweep.list_eq h.desk, h.sweeps]
  | advance i => exact h.act (Sweep.agrees_advance h.desk)
  | answer i answer => exact h.act (Sweep.agrees_answered h.desk answer)

end agrees

/-! ## Runs with cancellations of other kinds -/

inductive Action where
  | turn (t : Turn)
  /-- The dispatcher cancels the messages of an automation. -/
  | cancelPending (automationId : Value)
  | reset (r : Script.Reset)

namespace Action

/-- The turn that does the same but for the log. -/
def toTurn : Action → Turn
  | turn t => t
  | cancelPending automationId => .cancelAll automationId
  | reset r => .cancelAll r.automation.id

def isCancel (a : Action) : Bool :=
  a.toTurn.isCancel

def LeaseOff (a : Action) : Prop :=
  a.toTurn.LeaseOff

end Action

def cancelPending (automationId : Value) (c : Crew) : Crew :=
  match Script.Dispatch.cancelPending automationId c.desk with
  | .error _ => c
  | .ok (_, desk) => { c with desk }

/-- Resets an automation. No hook is running before. -/
def reset (r : Script.Reset) (c : Crew) : Crew :=
  match r.work.settle? ⟨c.desk, none⟩ with
  | none => c
  | some (_, s) => { c with desk := s.desk }

def action (c : Crew) : Action → Crew
  | .turn t => c.turn t
  | .cancelPending automationId => c.cancelPending automationId
  | .reset r => c.reset r

def actions (c : Crew) (as : List Action) : Crew :=
  as.foldl action c

theorem agrees_cancelPending {c c' : Crew} (h : c.Agrees c') (automationId : Value) :
    (c.turn (.cancelAll automationId)).Agrees (c'.cancelPending automationId) := by
  change (c.perform (Store.cancelAll automationId)).Agrees _
  unfold Crew.perform cancelPending Script.Dispatch.cancelPending Desk.perform
  rw [h.desk.store]
  cases Store.cancelAll automationId c.desk.store with
  | error f => exact h
  | ok result => exact ⟨⟨rfl, h.desk.now⟩, h.sweeps⟩

theorem reset_agrees (c : Crew) (r : Script.Reset) :
    (c.cancelPending r.automation.id).Agrees (c.reset r) := by
  obtain ⟨results, journal, hwork⟩ := r.settle?_work c.desk none
  rw [reset, hwork, cancelPending, Script.Reset.outcome]
  cases Script.Dispatch.cancelPending r.automation.id c.desk with
  | error f => exact ⟨⟨rfl, rfl⟩, rfl⟩
  | ok result => exact ⟨⟨rfl, rfl⟩, rfl⟩

theorem Agrees.trans {c c' c'' : Crew} (h : c.Agrees c') (h' : c'.Agrees c'') : c.Agrees c'' :=
  ⟨⟨h'.desk.store.trans h.desk.store, h'.desk.now.trans h.desk.now⟩, h'.sweeps.trans h.sweeps⟩

theorem agrees_action {c c' : Crew} (h : c.Agrees c') (a : Action) :
    (c.turn a.toTurn).Agrees (c'.action a) := by
  cases a with
  | turn t => exact h.turn t
  | cancelPending automationId => exact agrees_cancelPending h automationId
  | reset r => exact (agrees_cancelPending h r.automation.id).trans (reset_agrees c' r)

theorem agrees_actions {c c' : Crew} (h : c.Agrees c') (as : List Action) :
    (c.after (as.map Action.toTurn)).Agrees (c'.actions as) := by
  induction as generalizing c c' with
  | nil => exact h
  | cons a as ih => exact ih (agrees_action h a)

end Crew

end Outbox

end Courier
