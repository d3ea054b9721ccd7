import Courier.Outbox.Worker
import Courier.Proofs.Crew.Steps
import Courier.Proofs.Outbox.Completion

/-!
# The service

The worker of the application sits at the desk that it shares with a crew: others store and cancel
messages there, and sweeps that are not its own go on. What happens to the worker in between is that it
is started, has its turn, is answered by the messenger, or is stopped. A history of the service is a list
of such occurrences, in any order.

`Service.Step` says what an occurrence can do; what holds along histories is proved from its cases.
-/

namespace Courier.Outbox

/-- The store after a message was handed back, if there is one. -/
def Store.withFreed (st : Store) : Option Int → Store
  | some id => st.modify id Row.freed
  | none => st

/-! ## Sweeps that wait -/

namespace Sweep

/-- A rule for what a sweep does up to its next call of the messenger: what each of its operations keeps
is kept. -/
theorem proceed_keeps {I : Sweep → Desk → Prop}
    (hstep : ∀ s d, s.isBusy = true → I s d → I (s.advance d).2 (s.advance d).1) {s : Sweep} {d : Desk}
    (h : I s d) : I (s.proceed d).2 (s.proceed d).1 ∧ (s.proceed d).2.isBusy = false := by
  induction s, d using Sweep.proceed.induct with
  | case1 s d hbusy _ ih =>
    rw [proceed_of_busy hbusy]
    exact ih (hstep s d hbusy h)
  | case2 s d hbusy =>
    rw [proceed_of_not_busy hbusy]
    exact ⟨h, Bool.not_eq_true _ ▸ hbusy⟩

/-- The store is open, and the sweep holds only messages whose numbers a column holds. -/
structure Handles (s : Sweep) (d : Desk) : Prop where
  wellNumbered : d.store.WellNumbered
  isOpen : d.store.closed = false
  isWord : ∀ id, s.activity.holding? = some id → Cell.isWord id = true

/-- The sweep waits for the messenger. -/
inductive Waiting (s : Sweep) : Prop where
  | sending {p : Pending} {recipient : String} {rest receipts : List String}
    (hact : s.activity = .sending p recipient rest receipts) (hword : Cell.isWord p.id = true)
  | alerting {p : Pending} {attempts : Int} {cause : Failure}
    (hact : s.activity = .alerting p attempts cause)

section handles
variable {s : Sweep} {d : Desk}

theorem handles_list (hst : d.store.WellNumbered) (hopen : d.store.closed = false) (policy : Policy)
    (now : Calendar.Moment) : (list policy now d).Handles d := by
  refine ⟨hst, hopen, fun id hid => ?_⟩
  rw [list_holding] at hid
  cases hid

theorem Handles.advance (h : s.Handles d) : (s.advance d).2.Handles (s.advance d).1 := by
  have hstep := advance_step (s := s) h.wellNumbered
  refine ⟨hstep.wellNumbered h.wellNumbered, hstep.closed_eq.trans h.isOpen, fun id hid => ?_⟩
  rcases hstep.holding hid with hclaims | ⟨hheld, -⟩
  · obtain ⟨-, -, -, -, -, -, -, -, hadmits, -⟩ := hstep.of_claims hclaims
    exact hadmits.isWord
  · exact h.isWord id hheld

theorem Handles.answered (h : s.Handles d) (answer : Except Failure String) :
    (s.answered answer d).2.Handles (s.answered answer d).1 := by
  have hstore := answered_store answer s d
  exact ⟨hstore ▸ h.wellNumbered, hstore ▸ h.isOpen, fun id hid => h.isWord id (answered_holding hid)⟩

theorem Handles.proceed (h : s.Handles d) :
    (s.proceed d).2.Handles (s.proceed d).1 ∧ (s.proceed d).2.isBusy = false :=
  proceed_keeps (fun _ _ _ h => h.advance) h

/-- A sweep that has nothing to do is over or waits for the messenger. -/
theorem Handles.waiting (h : s.Handles d) (hidle : s.isBusy = false)
    (hlive : ∀ f, s.activity ≠ .ended f) : s.Waiting := by
  cases hact : s.activity with
  | sending p recipient rest receipts =>
    exact .sending hact (h.isWord p.id (by rw [hact]; rfl))
  | alerting => exact .alerting hact
  | ended f => exact absurd hact (hlive f)
  | taking | noting | completing | confirming | releasing | reporting | returning =>
    simp [isBusy, hact] at hidle

theorem Waiting.handles (h : s.Waiting) (hst : d.store.WellNumbered) (hopen : d.store.closed = false) :
    s.Handles d := by
  refine ⟨hst, hopen, fun id hid => ?_⟩
  cases h with
  | sending hact hword =>
    rw [hact] at hid
    cases hid
    exact hword
  | alerting hact =>
    rw [hact] at hid
    cases hid

/-- A cancellation ends a sweep that waits, which hands its message back. -/
theorem Waiting.interrupted (h : s.Waiting) (hopen : d.store.closed = false) :
    (s.resume (.error .cancellation) d).1.store = d.store.withFreed s.activity.holding? ∧
      (s.resume (.error .cancellation) d).2.activity = .ended (some .cancellation) := by
  cases h with
  | @sending p recipient rest receipts hact hword =>
    have hreturns : s.answered (.error .cancellation) d = (d, s.turnTo (.returning p .cancellation)) :=
      answered_error hact .cancellation d
    have hunclaim := Store.unclaim_of_admits (s := d.store) ⟨hopen, hword⟩
    have hadvance : (s.turnTo (.returning p .cancellation)).advance d =
        ({ d with store := d.store.modify p.id Row.freed }.log (interruptedRecord p),
          (s.turnTo (.returning p .cancellation)).stopWith .cancellation) :=
      perform_of_ok hunclaim
    rw [resume, hreturns, proceed_advance, hadvance,
      proceed_of_not_busy (by simp [isBusy, stopWith, turnTo]), hact]
    exact ⟨rfl, rfl⟩
  | alerting hact =>
    have hstops : s.answered (.error .cancellation) d = (d, s.stopWith .cancellation) := by
      simp only [Sweep.answered, hact]
      rfl
    rw [resume, hstops, proceed_of_not_busy (by simp [isBusy, stopWith, turnTo]), hact]
    exact ⟨rfl, rfl⟩

end handles

end Sweep

theorem Worker.rest_cases (policy : Policy) :
    rest policy = asleep ∨ rest policy = ended .realIntegerTooLarge := by
  unfold rest
  split
  · exact Or.inr rfl
  · exact Or.inl rfl

theorem Worker.rest_ne_sweeping (policy : Policy) (s : Sweep) : rest policy ≠ sweeping s := by
  rcases rest_cases policy with h | h
  · rw [h]
    nofun
  · rw [h]
    nofun

theorem Worker.ofSweep_eq_sweeping {s s' : Sweep} (h : ofSweep s = sweeping s') :
    s' = s ∧ ∀ f, s.activity ≠ .ended f := by
  unfold ofSweep at h
  split at h
  · exact absurd h (rest_ne_sweeping s.policy s')
  · cases h
  · rename_i hnone hsome
    cases h
    refine ⟨rfl, fun f hf => ?_⟩
    cases f with
    | none => exact hnone hf
    | some f => exact hsome f hf

/-- The message that the worker is about to send. -/
def Worker.held? : Worker → Option Int
  | sweeping s => s.activity.holding?
  | _ => none

/-! ## Histories of the service -/

structure Service where
  /-- Those at the desk beside the worker. -/
  crew : Crew
  worker : Worker

inductive Occurrence where
  | start
  /-- The worker has its turn: the first one, or the one after a pause. -/
  | wake
  /-- The messenger answers the call that the worker waits for. -/
  | answer (answer : Except Failure String)
  | stop
  /-- Somebody else takes a turn. -/
  | other (t : Turn)

namespace Service

def desk (v : Service) : Desk :=
  v.crew.desk

/-- The service after the worker left the desk so. -/
def leave (v : Service) (result : Desk × Worker) : Service :=
  ⟨{ v.crew with desk := result.1 }, result.2⟩

def occur (policy : Policy) (v : Service) : Occurrence → Service
  | .start => v.leave (v.worker.start v.desk)
  | .wake => v.leave (v.worker.wake policy v.desk)
  | .answer answer => v.leave (v.worker.resume answer v.desk)
  | .stop => v.leave (v.worker.stop v.desk).2
  | .other t => { v with crew := v.crew.turn t }

def after (policy : Policy) (v : Service) (os : List Occurrence) : Service :=
  os.foldl (occur policy) v

/-- The service before its worker was started. -/
def before (c : Crew) : Service :=
  ⟨c, .unstarted⟩

variable {policy : Policy} {v v' : Service}

theorem after_keeps {I : Service → Prop} {P : Occurrence → Prop}
    (hstep : ∀ v o, I v → P o → I (v.occur policy o)) (h : I v) {os : List Occurrence}
    (hos : ∀ o ∈ os, P o) : I (v.after policy os) := by
  induction os generalizing v with
  | nil => exact h
  | cons o os ih =>
    exact ih (hstep v o h (hos o List.mem_cons_self)) fun o' ho' => hos o' (List.mem_cons_of_mem o ho')

/-! ## Steps -/

inductive Step (policy : Policy) (v : Service) : Occurrence → Service → Prop where
  /-- The worker goes on as it was; at most the log differs. -/
  | still {o : Occurrence} (journal : Log.Journal)
    (ho : ∀ s, v.worker = .sweeping s → o = .start ∨ o = .wake) :
    Step policy v o (v.leave ({ v.desk with journal }, v.worker))
  | scheduled (journal : Log.Journal) (hw : v.worker.isRunning = false) :
    Step policy v .start (v.leave ({ v.desk with journal }, .scheduled))
  /-- The worker is stopped before its turn. -/
  | halted (journal : Log.Journal) (hw : v.worker = .scheduled ∨ v.worker = .asleep) :
    Step policy v .stop (v.leave ({ v.desk with journal }, .ended .cancellation))
  | begun (hw : v.worker = .scheduled ∨ v.worker = .asleep) :
    Step policy v .wake (v.leave (Worker.beginSweep policy v.desk))
  /-- The call of the worker is answered, or cancelled if the worker is stopped. -/
  | resumed {o : Occurrence} {s : Sweep} (answer : Except Failure String) (journal : Log.Journal)
    (hw : v.worker = .sweeping s) (ho : o = .answer answer ∨ o = .stop ∧ answer = .error .cancellation) :
    Step policy v o
      (v.leave ({ (s.resume answer v.desk).1 with journal }, .ofSweep (s.resume answer v.desk).2))
  | other (t : Turn) : Step policy v (.other t) { v with crew := v.crew.turn t }

theorem start_step : Step policy v .start (v.occur policy .start) := by
  rw [occur]
  unfold Worker.start
  split
  · exact .still v.desk.journal fun _ _ => Or.inl rfl
  · rename_i hidle
    exact .scheduled (v.desk.log Worker.startedRecord).journal (Bool.not_eq_true _ ▸ hidle)

theorem wake_step : Step policy v .wake (v.occur policy .wake) := by
  rw [occur]
  unfold Worker.wake
  split
  · rename_i hscheduled
    exact .begun (Or.inl hscheduled)
  · rename_i hasleep
    exact .begun (Or.inr hasleep)
  · exact .still v.desk.journal fun _ _ => Or.inr rfl

theorem answer_step (answer : Except Failure String) :
    Step policy v (.answer answer) (v.occur policy (.answer answer)) := by
  rw [occur]
  unfold Worker.resume
  split
  · rename_i s hs
    exact .resumed answer (s.resume answer v.desk).1.journal hs (Or.inl rfl)
  · rename_i hother
    exact .still v.desk.journal fun s hs => absurd hs (hother s)

/-- Stopping the worker leaves it as the interruption does; at most the log differs. -/
theorem stop_eq (w : Worker) (d : Desk) :
    ∃ journal, (w.stop d).2 = ({ (w.interrupt d).1 with journal }, (w.interrupt d).2) := by
  unfold Worker.stop
  split
  · exact ⟨d.journal, rfl⟩
  · dsimp only
    split
    · rename_i f hended
      rw [hended]
      split
      · exact ⟨_, rfl⟩
      · exact ⟨_, rfl⟩
    · exact ⟨_, rfl⟩

theorem stop_step : Step policy v .stop (v.occur policy .stop) := by
  obtain ⟨journal, hstop⟩ := stop_eq v.worker v.desk
  rw [occur, hstop]
  unfold Worker.interrupt
  split
  · rename_i hscheduled
    exact .halted journal (Or.inl hscheduled)
  · rename_i hasleep
    exact .halted journal (Or.inr hasleep)
  · rename_i s hs
    exact .resumed (.error .cancellation) journal hs (Or.inr ⟨rfl, rfl⟩)
  · rename_i hother
    exact .still journal fun s hs => absurd hs (hother s)

theorem occur_step (o : Occurrence) : Step policy v o (v.occur policy o) := by
  cases o with
  | start => exact start_step
  | wake => exact wake_step
  | answer answer => exact answer_step answer
  | stop => exact stop_step
  | other t => exact .other t

/-! ## Orderly services -/

/-- The store is open, and the worker makes a sweep only while that waits for the messenger. -/
structure Orderly (v : Service) : Prop where
  wellNumbered : v.desk.store.WellNumbered
  isOpen : v.desk.store.closed = false
  waiting : ∀ s, v.worker = .sweeping s → s.Waiting

theorem orderly_before {c : Crew} (hc : c.store.WellNumbered) (hopen : c.store.closed = false) :
    (before c).Orderly :=
  ⟨hc, hopen, fun s hs => by cases hs⟩

/-- The worker goes on with a sweep up to the next call. -/
theorem orderly_proceed {s : Sweep} {d d' : Desk} (h : s.Handles d)
    (hd' : d'.store = (s.proceed d).1.store) :
    (v.leave (d', .ofSweep (s.proceed d).2)).Orderly := by
  obtain ⟨hhandles, hidle⟩ := h.proceed
  refine ⟨hd' ▸ hhandles.wellNumbered, hd' ▸ hhandles.isOpen, fun s' hs' => ?_⟩
  obtain ⟨rfl, hlive⟩ := Worker.ofSweep_eq_sweeping hs'
  exact hhandles.waiting hidle hlive

theorem Orderly.occur (h : v.Orderly) (o : Occurrence) : (v.occur policy o).Orderly := by
  have hstep : Step policy v o (v.occur policy o) := occur_step o
  generalize v.occur policy o = v' at hstep
  cases hstep with
  | still => exact ⟨h.wellNumbered, h.isOpen, h.waiting⟩
  | scheduled | halted => exact ⟨h.wellNumbered, h.isOpen, fun s hs => by cases hs⟩
  | begun =>
    exact orderly_proceed (Sweep.handles_list h.wellNumbered h.isOpen policy v.desk.moment) rfl
  | @resumed _ s answer journal hw =>
    have hhandles := (h.waiting s hw).handles h.wellNumbered h.isOpen
    exact orderly_proceed (hhandles.answered answer) rfl
  | other t =>
    have hturn := Crew.turn_step (c := v.crew) h.wellNumbered t
    exact ⟨hturn.wellNumbered h.wellNumbered, hturn.closed_eq.trans h.isOpen, h.waiting⟩

theorem Orderly.after (h : v.Orderly) (os : List Occurrence) : (v.after policy os).Orderly :=
  after_keeps (P := fun _ => True) (fun _ o h _ => h.occur o) h fun _ _ => trivial

end Service

end Courier.Outbox
