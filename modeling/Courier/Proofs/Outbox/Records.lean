import Courier.Proofs.Outbox.Steps

/-!
# What sweeps record

A sweep records one event for each message that it deletes or releases, right after it did so, and
nothing else adds to the audit log. `Sweep.Step` leaves the log out; the lemmas here say what an
operation adds to it, and how the sweep goes on.
-/

namespace Courier.Outbox

/-- The event is one that the entry makes. -/
def Entry.Makes (e : Entry) (event : Event) : Prop :=
  ∃ id createdAt, e.event id createdAt = .ok event

/-- The event was recorded last. -/
structure Store.Recorded (st : Store) (e : Entry) (st' : Store) : Prop where
  sameRows : st.SameRows st'
  events : ∃ event, e.Makes event ∧ st'.events = st.events ++ [event]

/-- The store with one more event in its log. -/
def Store.withEvent (event : Event) (s : Store) : Store :=
  { s with events := s.events ++ [event], lastEventId := s.lastEventId + 1 }

theorem Store.record_of_open {s : Store} (hopen : s.closed = false) (now : Calendar.Instant) (entry : Entry) :
    record now entry s = (entry.event (s.lastEventId + 1) now.text).map fun event =>
      ((), s.withEvent event) := by
  rw [record, checkOpen, if_neg (by simp [hopen])]
  dsimp only [bind, Except.bind]
  cases entry.event (s.lastEventId + 1) now.text <;> rfl

theorem Store.recorded_of_record {st st' : Store} {now : Calendar.Instant} {e : Entry} {u : Unit}
    (h : record now e st = .ok (u, st')) : st.Recorded e st' := by
  have hsame := Sweep.sameRows_of_record h
  simp only [record, bind_eq_ok] at h
  obtain ⟨_, _, event, hevent, h⟩ := h
  cases h
  exact ⟨hsame, event, ⟨_, _, hevent⟩, rfl⟩

theorem Store.Recorded.mem {st st' : Store} {e : Entry} (h : st.Recorded e st') :
    ∃ event ∈ st'.events, e.Makes event := by
  obtain ⟨event, hmakes, hevents⟩ := h.events
  exact ⟨event, by simp [hevents], hmakes⟩

namespace Sweep

variable {s : Sweep} {d : Desk}

theorem advance_confirming {p : Pending} {receipts : List String}
    (hact : s.activity = .confirming p receipts) :
    (d.store.Recorded (sentEntry p receipts) (s.advance d).1.store ∧
        (s.advance d).2 = { s with delivered := s.delivered + 1, activity := .taking }) ∨
      ∃ f, Store.record d.now (sentEntry p receipts) d.store = .error f ∧
        s.advance d = (d, s.stopWith f) := by
  rw [advance, hact]
  dsimp only [confirm]
  rcases perform_cases (Store.record d.now (sentEntry p receipts)) s d (fun () d =>
    (d.log (sentRecord p receipts.length), { s with delivered := s.delivered + 1, activity := .taking }))
    with ⟨u, st, hok, he⟩ | ⟨f, hf, he⟩
  · left
    rw [he]
    exact ⟨Store.recorded_of_record hok, rfl⟩
  · right
    exact ⟨f, hf, he⟩

/-- The operator is told of the last failure of a message, if there is one to be told. -/
def alerts (policy : Policy) (attempts : Int) : Bool :=
  policy.retryLimit ≤ attempts && policy.operatorChat.isSome

theorem advance_reporting {p : Pending} {attempts : Int} {cause : Failure}
    (hact : s.activity = .reporting p attempts cause) :
    (d.store.Recorded (errorEntry p (severity (s.policy.retryLimit ≤ attempts)) attempts cause)
          (s.advance d).1.store ∧
        (s.advance d).2 = s.turnTo
          (if alerts s.policy attempts then .alerting p attempts cause else .taking)) ∨
      ∃ f, Store.record d.now (errorEntry p (severity (s.policy.retryLimit ≤ attempts)) attempts cause)
          d.store = .error f ∧ s.advance d = (d, s.stopWith f) := by
  rw [advance, hact]
  dsimp only [report]
  rcases perform_cases (Store.record d.now
    (errorEntry p (severity (s.policy.retryLimit ≤ attempts)) attempts cause)) s d (fun () d =>
      (d.log (failedRecord p (severity (s.policy.retryLimit ≤ attempts)) cause),
        s.turnTo
          (if s.policy.retryLimit ≤ attempts ∧ s.policy.operatorChat.isSome then
            .alerting p attempts cause
          else .taking)))
    with ⟨u, st, hok, he⟩ | ⟨f, hf, he⟩
  · left
    rw [he]
    refine ⟨Store.recorded_of_record hok, ?_⟩
    simp [alerts]
  · right
    exact ⟨f, hf, he⟩

/-- The number of failures of a message, with the one for which it is released. -/
def attemptsOf (p : Pending) (d : Desk) : Int :=
  ((d.store.find? p.id).map (·.attempts + 1)).getD 0

theorem advance_releasing_of_admits {p : Pending} {cause : Failure}
    (hact : s.activity = .releasing p cause) (hadmits : d.store.Admits p.id) :
    s.advance d = ({ d with store := d.store.modify p.id (Row.failed cause.message) },
      s.turnTo (.reporting p (attemptsOf p d) cause)) := by
  rw [advance, hact]
  dsimp only [release, perform, Desk.perform]
  rw [Store.release_of_admits hadmits, Store.find?_modify_self (Row.keepsId_failed _), Option.map_map]
  rfl

theorem advance_releasing {p : Pending} {cause : Failure} {r : Row}
    (hact : s.activity = .releasing p cause) (hadmits : d.store.Admits p.id)
    (hr : d.store.find? p.id = some r) :
    s.advance d = ({ d with store := d.store.modify p.id (Row.failed cause.message) },
      s.turnTo (.reporting p (r.attempts + 1) cause)) := by
  rw [advance_releasing_of_admits hact hadmits, attemptsOf, hr]
  rfl

/-- A message is passed over only if somebody claimed it. -/
theorem claimed_of_passed (hst : d.store.WellNumbered) {p : Pending} {due : List Pending} {r : Row}
    (hact : s.activity = .taking) (hdue : s.due = p :: due)
    (hpassed : (s.advance d).2.activity = .taking) (hr : d.store.find? p.id = some r) :
    r.claimedAt ≠ none := by
  intro hfree
  rw [advance, hact] at hpassed
  dsimp only [take] at hpassed
  rw [hdue] at hpassed
  dsimp only at hpassed
  rcases perform_cases (Store.claim p.id d.moment s.policy.lease) { s with due } d
    (fun claimed d =>
      (d, { s with due, activity := if claimed then .toNext p [] p.remaining else .taking }))
    with ⟨b, st, hok, he⟩ | ⟨f, -, he⟩
  · rw [he] at hpassed
    obtain ⟨-, claimedAt, cutoff, -, ⟨rfl, -⟩ | ⟨rfl, hnone, -⟩⟩ := Store.claim_ok hst hok
    · cases hrest : p.remaining <;> simp [hrest, Activity.toNext] at hpassed
    · have hnot := hnone r hr
      simp [Store.isClaimable, hfree] at hnot
  · rw [he] at hpassed
    cases hpassed

/-- What an operation adds to the audit log. -/
inductive Adds (s : Sweep) (st st' : Store) : Prop where
  | nothing (h : st'.events = st.events)
  | sent {p : Pending} {receipts : List String} (hact : s.activity = .confirming p receipts)
    (h : st.Recorded (sentEntry p receipts) st')
  | failed {p : Pending} {attempts : Int} {cause : Failure}
    (hact : s.activity = .reporting p attempts cause)
    (h : st.Recorded (errorEntry p (severity (s.policy.retryLimit ≤ attempts)) attempts cause) st')

theorem advance_adds (hst : d.store.WellNumbered) : s.Adds d.store (s.advance d).1.store := by
  have hstep := advance_step (s := s) hst
  generalize hs' : (s.advance d).2 = s' at hstep
  generalize hst' : (s.advance d).1.store = st' at hstep
  cases hstep with
  | confirmed hact =>
    rcases advance_confirming (d := d) hact with ⟨h, -⟩ | ⟨f, -, he⟩
    · exact .sent hact (hst' ▸ h)
    · exact .nothing (by rw [← hst', he])
  | reported hact =>
    rcases advance_reporting (d := d) hact with ⟨h, -⟩ | ⟨f, -, he⟩
    · exact .failed hact (hst' ▸ h)
    · exact .nothing (by rw [← hst', he])
  | _ => exact .nothing rfl

theorem Adds.grows {st st' : Store} (h : s.Adds st st') : st.events <+: st'.events := by
  cases h with
  | nothing h => exact h ▸ List.prefix_refl _
  | sent _ h | failed _ h =>
    obtain ⟨event, -, hevents⟩ := h.events
    exact ⟨[event], hevents.symm⟩

end Sweep

end Courier.Outbox
