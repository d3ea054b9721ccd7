import Courier.Proofs.Json.RoundTrip
import Courier.Proofs.Outbox.Records

/-!
# The failures of a message in the audit log

An event tells the failure of a message if its payload, read back from the log, names that message.
-/

namespace Courier.Outbox

/-- The message whose failure the event tells. -/
def Event.failure? (e : Event) : Option Int :=
  if e.eventType = "pending_message_error" then
    match e.payload with
    | .ok (.object entries) =>
      match Entries.get? entries "pending_id" with
      | some (.int id) => some id
      | _ => none
    | _ => none
  else none

/-- The severities of the failures of a message, the earliest first. -/
def Store.failures (id : Int) (st : Store) : List (Option String) :=
  (st.events.filter fun e => e.failure? == some id).map (·.severity)

/-- A number that a column holds is short enough to be read. -/
theorem not_overlong_of_isWord {n : Int} (h : Cell.isWord n = true) : ¬ Value.Overlong (.int n) := by
  rw [Cell.isWord, Bool.and_eq_true] at h
  have hlow := of_decide_eq_true h.1
  have hhigh := of_decide_eq_true h.2
  simp only [Cell.wordBound] at hlow hhigh
  have hlength : (decimals n).length ≤ 20 := by
    rw [decimals, Nat.length_toDigits_le_iff (by decide) (by decide)]
    omega
  rintro (hlong | _ | _)
  simp only [Number.digitLimit] at hlong
  omega

/-! ## What is written of a failure -/

section failure
variable {p : Pending} {severity : String} {attempts : Int} {f : Failure}

/-- Nothing of what is written of a failure is a secret by its name. -/
theorem redact_failure (id attempts : Int) (message : String) :
    Redaction.redact (.object
      [("pending_id", .int id), ("attempts", .int attempts), ("error", .text message)]) =
      .object [("pending_id", .int id), ("attempts", .int attempts),
        ("error", .text (Redaction.redactText message))] := by
  have hid : Redaction.isSensitiveKey "pending_id" = false := by decide +kernel
  have hattempts : Redaction.isSensitiveKey "attempts" = false := by decide +kernel
  have herror : Redaction.isSensitiveKey "error" = false := by decide +kernel
  simp [Redaction.redact, Redaction.redactEntries, hid, hattempts, herror]

theorem plain_failure (id attempts : Int) (message : String) :
    (Value.object [("pending_id", .int id), ("attempts", .int attempts),
      ("error", .text message)]).Plain := by
  refine .object (by simp) fun e he => ?_
  simp only [List.mem_cons, List.not_mem_nil, or_false] at he
  rcases he with rfl | rfl | rfl
  · exact .int id
  · exact .int attempts
  · exact .text message

theorem event_errorEntry {id : Int} {createdAt : String} {event : Event}
    (h : (Sweep.errorEntry p severity attempts f).event id createdAt = .ok event) :
    event.eventType = "pending_message_error" ∧ event.severity = some severity ∧
      event.payloadJson = some (Json.write (.object [("pending_id", .int p.id),
        ("attempts", .int attempts), ("error", .text (Redaction.redactText f.message))])) := by
  simp only [Sweep.errorEntry, Entry.event, Cell.ofParameter, bind_eq_ok] at h
  obtain ⟨_, htype, _, _, _, _, _, hseverity, _, hrequire, h⟩ := h
  cases htype
  cases hseverity
  cases hrequire
  cases h
  refine ⟨rfl, rfl, ?_⟩
  simp only [Option.map_some, payloadText, redact_failure]

theorem isEmpty_write {v : Value} (h : v.Plain) : (Json.write v).isEmpty = false := by
  obtain ⟨c, cs, hcs, -⟩ := Json.write_head h
  rw [← Bool.not_eq_true, String.isEmpty_iff]
  intro hempty
  rw [hempty] at hcs
  cases hcs

theorem payload_of_written {event : Event} {v : Value} (hplain : v.Plain)
    (h : event.payloadJson = some (Json.write v)) :
    event.payload = .ok v ∨ (v.Overlong ∧ ∀ entries, event.payload ≠ .ok (.object entries)) := by
  rw [Event.payload, h]
  dsimp only
  rw [isEmpty_write hplain, if_neg Bool.false_ne_true]
  rcases Json.read_write hplain with hread | ⟨hlong, e, hread⟩
  · left
    rw [hread]
  · right
    refine ⟨hlong, fun entries => ?_⟩
    rw [hread]
    cases e <;> simp

/-- The event tells the failure of the message, unless its numbers are too long. -/
theorem failure?_errorEntry {event : Event}
    (h : (Sweep.errorEntry p severity attempts f).Makes event) :
    event.severity = some severity ∧
      (event.failure? = some p.id ∨
        (event.failure? = none ∧ ¬ (Cell.isWord p.id = true ∧ Cell.isWord attempts = true))) := by
  obtain ⟨id, createdAt, h⟩ := h
  obtain ⟨htype, hseverity, hpayload⟩ := event_errorEntry h
  refine ⟨hseverity, ?_⟩
  rw [Event.failure?, if_pos htype]
  rcases payload_of_written (plain_failure _ _ _) hpayload with hread | ⟨hlong, hnone⟩
  · left
    rw [hread]
    rfl
  · right
    constructor
    · split
      · rename_i entries hread
        exact absurd hread (hnone entries)
      · rfl
    · rintro ⟨hid, hattempts⟩
      cases hlong with
      | entry hmem hlong =>
        simp only [List.mem_cons, List.not_mem_nil, or_false] at hmem
        rcases hmem with rfl | rfl | rfl
        · exact not_overlong_of_isWord hid hlong
        · exact not_overlong_of_isWord hattempts hlong
        · cases hlong

theorem failure?_sentEntry {receipts : List String} {event : Event}
    (h : (Sweep.sentEntry p receipts).Makes event) : event.failure? = none := by
  obtain ⟨id, createdAt, h⟩ := h
  simp only [Sweep.sentEntry, Entry.event, Cell.ofParameter, bind_eq_ok] at h
  obtain ⟨_, htype, _, _, _, _, _, _, _, hrequire, h⟩ := h
  cases htype
  cases hrequire
  cases h
  rfl

end failure

/-! ## What is added to the log -/

namespace Store
variable {st st' : Store}

theorem failures_of_events_eq {id : Int} (h : st'.events = st.events) :
    st'.failures id = st.failures id := by
  rw [failures, failures, h]

theorem failures_append {id : Int} {event : Event} (h : st'.events = st.events ++ [event]) :
    st'.failures id =
      st.failures id ++ if event.failure? = some id then [event.severity] else [] := by
  rw [failures, failures, h, List.filter_append, List.map_append]
  by_cases hid : event.failure? = some id
  · simp [hid]
  · simp [hid]

theorem Recorded.failures_eq {p : Pending} {severity : String} {attempts id : Int} {f : Failure}
    (h : st.Recorded (Sweep.errorEntry p severity attempts f) st') (hid : p.id ≠ id) :
    st'.failures id = st.failures id := by
  obtain ⟨event, hmakes, hevents⟩ := h.events
  have hne : event.failure? ≠ some id := by
    rcases (failure?_errorEntry hmakes).2 with hsome | ⟨hnone, -⟩
    · rw [hsome]
      exact fun he => hid (Option.some.inj he)
    · rw [hnone]
      intro h
      cases h
  rw [failures_append hevents, if_neg hne, List.append_nil]

theorem Recorded.failures_concat {p : Pending} {severity : String} {attempts : Int} {f : Failure}
    (h : st.Recorded (Sweep.errorEntry p severity attempts f) st')
    (hid : Cell.isWord p.id = true) (hattempts : Cell.isWord attempts = true) :
    st'.failures p.id = st.failures p.id ++ [some severity] := by
  obtain ⟨event, hmakes, hevents⟩ := h.events
  obtain ⟨hseverity, hsome | ⟨-, hlong⟩⟩ := failure?_errorEntry hmakes
  · rw [failures_append hevents, if_pos hsome, hseverity]
  · exact absurd ⟨hid, hattempts⟩ hlong

theorem Recorded.failures_sent {p : Pending} {receipts : List String} {id : Int}
    (h : st.Recorded (Sweep.sentEntry p receipts) st') : st'.failures id = st.failures id := by
  obtain ⟨event, hmakes, hevents⟩ := h.events
  rw [failures_append hevents, failure?_sentEntry hmakes, if_neg (Option.some_ne_none id).symm, List.append_nil]

end Store

/-- Only a sweep that records a failure of the message adds to its failures. -/
theorem Sweep.Adds.failures_eq {s : Sweep} {st st' : Store} {id : Int} (h : s.Adds st st')
    (hreports : ∀ p attempts cause, s.activity = .reporting p attempts cause → p.id ≠ id) :
    st'.failures id = st.failures id := by
  cases h with
  | nothing h => exact Store.failures_of_events_eq h
  | sent _ h => exact h.failures_sent
  | failed hact h => exact h.failures_eq (hreports _ _ _ hact)

/-! ## Events that are always recorded -/

theorem exists_cell {automationId : Option Int}
    (h : ∀ n, automationId = some n → Cell.isWord n = true) (index : Nat) :
    ∃ c, Cell.ofParameter index (.ofOptionInt automationId) = .ok c := by
  cases automationId with
  | none => exact ⟨.null, rfl⟩
  | some n => exact ⟨.int n, by simp [Value.ofOptionInt, Cell.ofParameter, h n rfl]⟩

theorem Store.record_of_event {st : Store} (hopen : st.closed = false) {now : Calendar.Instant}
    {entry : Entry} (h : ∃ event, entry.event (st.lastEventId + 1) now.text = .ok event) :
    ∃ st', record now entry st = .ok ((), st') := by
  obtain ⟨event, hevent⟩ := h
  refine ⟨st.withEvent event, ?_⟩
  rw [record_of_open hopen, hevent]
  rfl

section recorded
variable {st : Store} (hopen : st.closed = false) {p : Pending}
  (hautomation : ∀ n, p.automationId = some n → Cell.isWord n = true)
include hopen hautomation

/-- A failure is recorded if the automation is one that a column holds. -/
theorem Store.record_errorEntry (now : Calendar.Instant) (severity : String) (attempts : Int)
    (f : Failure) : ∃ st', record now (Sweep.errorEntry p severity attempts f) st = .ok ((), st') := by
  obtain ⟨c, hc⟩ := exists_cell hautomation 3
  apply record_of_event hopen
  simp only [Entry.event, Sweep.errorEntry, hc]
  exact ⟨_, rfl⟩

/-- So is a delivery. -/
theorem Store.record_sentEntry (now : Calendar.Instant) (receipts : List String) :
    ∃ st', record now (Sweep.sentEntry p receipts) st = .ok ((), st') := by
  obtain ⟨c, hc⟩ := exists_cell hautomation 3
  apply record_of_event hopen
  simp only [Entry.event, Sweep.sentEntry, hc]
  exact ⟨_, rfl⟩

end recorded

end Courier.Outbox
