import Courier.Proofs.Crew.Basic
import Courier.Proofs.Json.Readable
import Courier.Proofs.Outbox.Failures
import Courier.Proofs.Outbox.Usage
import Courier.Proofs.Redaction.Payloads

/-!
# The audit log

Events are only ever added to the audit log, one by each record that the store takes. However the store
is used in between, the log lists the latest records first, with what was recorded and the payload with
its secrets hidden.
-/

namespace Courier

/-- The secrets of a value that a text can hold are hidden by a value that a text can hold. -/
theorem Redaction.isJson_redact {v : Value} (h : v.IsJson) : (redact v).IsJson := by
  obtain ⟨hplain, hshort⟩ := h
  induction hplain with
  | null | bool _ | int _ => exact ⟨by constructor, hshort⟩
  | float hx => exact .float hx
  | text s => exact .text _
  | list hplain ih =>
    rw [redact, redactItems_eq, Value.IsJson.list_iff, List.forall_mem_map]
    exact fun v hv => ih v hv fun hlong => hshort (.item hv hlong)
  | object hkeys hplain ih =>
    rw [redact, redactEntries_eq, Value.IsJson.object_iff, List.map_map, List.forall_mem_map]
    refine ⟨hkeys, fun e he => ?_⟩
    rw [redactEntry]
    split
    · exact .text _
    · exact ih e he fun hlong => hshort (.entry he hlong)

namespace Outbox

open Calendar (Instant)

/-! ## Records -/

/-- What is recorded: texts, a number or none, and a payload that some JSON text holds or none. -/
structure Notice where
  eventType : String
  automationId : Option Int
  status : Option String
  severity : Option String
  payload : Option Value
  isJson : ∀ v ∈ payload, ∃ text, Json.read text = .ok v

/-- What the log lists of an event. -/
structure Line where
  createdAt : String
  eventType : String
  automationId : Cell
  status : Option String
  severity : Option String
  payload : Value

def Event.line (e : Event) (payload : Value) : Line :=
  { createdAt := e.createdAt
    eventType := e.eventType
    automationId := e.automationId
    status := e.status
    severity := e.severity
    payload }

/-- An event and its payload. -/
def Event.withPayload (e : Event) : Except Failure (Event × Value) := do
  return (e, ← e.payload)

namespace Notice

def entry (n : Notice) : Entry :=
  { eventType := .text n.eventType
    automationId := .ofOptionInt n.automationId
    status := .ofOption n.status
    severity := .ofOption n.severity
    payload := n.payload }

/-- The number fits its column. -/
def fits (n : Notice) : Bool :=
  n.automationId.all Cell.isWord

/-- The status is that of an error, in letters of whatever case. -/
def isError (n : Notice) : Bool :=
  (n.status.getD "").toList.map Char.toLower == "error".toList

def line (now : Instant) (n : Notice) : Line :=
  { createdAt := now.text
    eventType := n.eventType
    automationId := (n.automationId.map Cell.int).getD .null
    status := n.status
    severity := n.severity
    payload := (n.payload.map Redaction.redact).getD .null }

/-- What the store keeps of it. -/
def event (n : Notice) (id : Int) (now : Instant) : Event :=
  { id
    createdAt := now.text
    eventType := n.eventType
    automationId := (n.automationId.map Cell.int).getD .null
    status := n.status
    severity := n.severity
    payloadJson := n.payload.map payloadText }

theorem event_entry (n : Notice) (id : Int) (now : Instant) :
    n.entry.event id now.text =
      if n.fits then .ok (n.event id now) else .error .columnIntegerTooLarge := by
  have hnumber : Cell.ofParameter 3 (.ofOptionInt n.automationId) =
      if n.fits then .ok ((n.automationId.map Cell.int).getD .null)
      else .error .columnIntegerTooLarge := by
    rw [fits]
    cases n.automationId <;> rfl
  have hinteger : ((n.automationId.map Cell.int).getD .null).toInteger =
      (n.automationId.map Cell.int).getD .null := by
    cases n.automationId <;> rfl
  by_cases hfits : n.fits = true
  · rw [if_pos hfits] at hnumber ⊢
    simp only [entry, Entry.event, hnumber, event]
    generalize (n.automationId.map Cell.int).getD .null = number at hinteger
    cases n.status <;> cases n.severity <;>
      exact congrArg (fun c => Except.ok (Event.mk _ _ _ c _ _ _)) hinteger
  · rw [if_neg hfits] at hnumber ⊢
    simp only [entry, Entry.event, hnumber]
    rfl

/-- The payload is read back with its secrets hidden. -/
theorem payload_event (n : Notice) (id : Int) (now : Instant) :
    (n.event id now).payload = .ok (n.line now).payload := by
  obtain ⟨eventType, automationId, status, severity, payload, hjson⟩ := n
  cases payload with
  | none => rfl
  | some v =>
    have hshown := Redaction.isJson_redact ((Json.isJson_iff v).mpr (hjson v rfl))
    have hwritten : (event ⟨eventType, automationId, status, severity, some v, hjson⟩ id
        now).payloadJson = some (Json.write (Redaction.redact v)) := rfl
    rcases payload_of_written hshown.plain hwritten with hpayload | ⟨hlong, -⟩
    · exact hpayload
    · exact absurd hlong hshown.short

theorem isError_event (n : Notice) (id : Int) (now : Instant) :
    (n.event id now).isError = n.isError := by
  rw [Event.isError, isError, Text.lowerAscii, Bool.eq_iff_iff, beq_iff_eq, beq_iff_eq,
    ← String.toList_inj, String.toList_ofList]
  rfl

end Notice

/-! ## Histories -/

/-- A use of the store: something is recorded, or the store is used in another way. -/
inductive Call where
  | record (now : Instant) (notice : Notice)
  | other (u : Usage) (h : ∀ now entry, u ≠ .record now entry)

def Call.usage : Call → Usage
  | record now notice => .record now notice.entry
  | other u _ => u

/-- What a history tells of the log: whether the store is closed, and what was recorded, the latest
first. -/
structure Logbook where
  closed : Bool
  notices : List (Instant × Notice)

namespace Logbook

/-- Everything is recorded but what comes while the store is closed or does not fit. -/
def note (l : Logbook) : Call → Logbook
  | .record now n => if l.closed || !n.fits then l else { l with notices := (now, n) :: l.notices }
  | .other .close _ => { l with closed := true }
  | .other .reopen _ => { l with closed := false }
  | .other _ _ => l

def after (l : Logbook) (calls : List Call) : Logbook :=
  calls.foldl note l

end Logbook

/-! ## What adds to the log -/

namespace Store

/-- The operation leaves the log as it is, and the store open or closed. -/
def KeepsLog {α : Type} (operation : Operation α) : Prop :=
  ∀ s a s', operation s = .ok (a, s') → s'.events = s.events ∧ s'.closed = s.closed

section keeps
variable {α β : Type}

theorem keepsLog_ok {value : Store → α} {next : Store → Store}
    (h : ∀ s, (next s).events = s.events ∧ (next s).closed = s.closed) :
    KeepsLog fun s => .ok (value s, next s) := by
  intro s a s' hok
  cases hok
  exact h s

theorem KeepsLog.checked {x : Store → Except Failure β} {operation : β → Operation α}
    (h : ∀ b, KeepsLog (operation b)) : KeepsLog fun s => x s >>= fun b => operation b s := by
  intro s a s' hok
  obtain ⟨b, -, hok⟩ := bind_eq_ok.mp hok
  exact h b s a s' hok

theorem KeepsLog.admitted {id : Int} {operation : Operation α} (h : KeepsLog operation) :
    KeepsLog fun s => (do s.checkOpen; checkWord id; operation s) :=
  .checked fun _ => .checked fun _ => h

end keeps

theorem keepsLog_create (now : Instant) (draft : Draft) : KeepsLog (create now draft) :=
  .checked fun _ => .checked fun _ => .checked fun _ => .checked fun _ => .checked fun _ =>
    keepsLog_ok fun _ => ⟨rfl, rfl⟩

theorem keepsLog_claim (id : Int) (now : Calendar.Moment) (lease : Lease) :
    KeepsLog (claim id now lease) := by
  refine .checked fun _ => .checked fun _ => .checked fun _ => .checked fun _ => ?_
  intro s a s' hok
  dsimp only at hok
  split at hok <;> cases hok <;> exact ⟨rfl, rfl⟩

theorem keepsLog_mark (id : Int) (recipient : Value) : KeepsLog (mark id recipient) := by
  refine .admitted ?_
  intro s a s' hok
  dsimp only at hok
  split at hok
  · cases hok
    exact ⟨rfl, rfl⟩
  · obtain ⟨delivered, -, hok⟩ := bind_eq_ok.mp hok
    split at hok <;> cases hok <;> exact ⟨rfl, rfl⟩

theorem keepsLog_unclaim (id : Int) : KeepsLog (unclaim id) :=
  .admitted (keepsLog_ok fun _ => ⟨rfl, rfl⟩)

theorem keepsLog_complete (id : Int) : KeepsLog (complete id) :=
  .admitted (keepsLog_ok fun _ => ⟨rfl, rfl⟩)

theorem keepsLog_release (id : Int) (errorText : String) : KeepsLog (release id errorText) :=
  .admitted (keepsLog_ok fun _ => ⟨rfl, rfl⟩)

theorem keepsLog_cancel (id : Int) : KeepsLog (cancel id) :=
  .admitted (keepsLog_ok fun _ => ⟨rfl, rfl⟩)

theorem keepsLog_cancelAll (automationId : Value) : KeepsLog (cancelAll automationId) :=
  .checked fun _ => .checked fun _ => keepsLog_ok fun _ => ⟨rfl, rfl⟩

theorem KeepsLog.note {α : Type} {operation : Operation α} (h : KeepsLog operation)
    (told : α → Answered) (s : Store) :
    (Command.note operation told s).2.events = s.events ∧
      (Command.note operation told s).2.closed = s.closed := by
  rw [Command.note]
  split
  · exact h s _ _ ‹_›
  · exact ⟨rfl, rfl⟩

theorem keepsLog_serve (c : Command) (s : Store) :
    (c.serve s).2.events = s.events ∧ (c.serve s).2.closed = s.closed := by
  cases c with
  | create now draft => exact (keepsLog_create now draft).note _ s
  | claim id now lease => exact (keepsLog_claim id now lease).note _ s
  | unclaim id => exact (keepsLog_unclaim id).note _ s
  | mark id recipient => exact (keepsLog_mark id _).note _ s
  | complete id => exact (keepsLog_complete id).note _ s
  | release id errorText => exact (keepsLog_release id errorText).note _ s
  | cancel id => exact (keepsLog_cancel id).note _ s
  | cancelAll automationId => exact (keepsLog_cancelAll automationId).note _ s

end Store

/-- Only a record touches the log. -/
theorem Usage.events_serve {u : Usage} (h : ∀ now entry, u ≠ .record now entry) (s : Store) :
    (u.serve s).2.events = s.events := by
  cases u with
  | command c => exact (Store.keepsLog_serve c s).1
  | record now entry => exact absurd rfl (h now entry)
  | count | get | listDue | listEvents | close | reopen => rfl

/-- A record adds at most one event, behind the others. -/
theorem Usage.events_serve_record (now : Instant) (entry : Entry) (s : Store) :
    ∃ added, added.length ≤ 1 ∧
      ((Usage.record now entry).serve s).2.events = s.events ++ added := by
  cases hrecord : Store.record now entry s with
  | error f => exact ⟨[], Nat.zero_le 1, by simp [serve, hrecord]⟩
  | ok result =>
    obtain ⟨event, -, hevents⟩ := (Store.recorded_of_record hrecord).events
    exact ⟨[event], Nat.le_refl 1, by simp [serve, hrecord, hevents]⟩

/-! ## What the log tells -/

namespace Logbook

/-- The events of the store are those of the logbook, in the order in which they were recorded. -/
structure Tells (l : Logbook) (s : Store) : Prop where
  closed : s.closed = l.closed
  events : List.Forall₂ (fun r e => ∃ id, e = r.2.event id r.1) l.notices s.events.reverse

variable {l : Logbook} {s : Store}

theorem serve_record (n : Notice) (now : Instant) (s : Store) :
    ((Usage.record now n.entry).serve s).2 =
      if s.closed || !n.fits then s else s.withEvent (n.event (s.lastEventId + 1) now) := by
  have hrecord : Store.record now n.entry s =
      if s.closed then .error .storeClosed
      else if n.fits then .ok ((), s.withEvent (n.event (s.lastEventId + 1) now))
      else .error .columnIntegerTooLarge := by
    by_cases hclosed : s.closed = true
    · rw [Store.record, Store.checkOpen, if_pos hclosed, if_pos hclosed]
      rfl
    · rw [Store.record_of_open (Bool.eq_false_iff.mpr hclosed), n.event_entry, if_neg hclosed]
      split <;> rfl
  rw [Usage.serve, hrecord]
  cases s.closed <;> cases n.fits <;> rfl

theorem Tells.record (h : l.Tells s) (now : Instant) (n : Notice) :
    (l.note (.record now n)).Tells ((Usage.record now n.entry).serve s).2 := by
  rw [serve_record, Logbook.note, ← h.closed]
  split
  · exact h
  · refine ⟨rfl, ?_⟩
    rw [Store.withEvent, List.reverse_append]
    exact .cons ⟨_, rfl⟩ h.events

theorem Tells.note (h : l.Tells s) (c : Call) : (l.note c).Tells (c.usage.serve s).2 := by
  cases c with
  | record now n => exact h.record now n
  | other u hu =>
    have hevents : (l.note (.other u hu)).notices = l.notices := by cases u <;> rfl
    refine ⟨?_, by rw [hevents, Call.usage, Usage.events_serve hu]; exact h.events⟩
    cases u with
    | command c => exact (Store.keepsLog_serve c s).2.trans h.closed
    | record now entry => exact absurd rfl (hu now entry)
    | count | get | listDue | listEvents => exact h.closed
    | close | reopen => rfl

theorem Tells.after (h : l.Tells s) (calls : List Call) :
    (l.after calls).Tells (s.after (calls.map Call.usage)) := by
  induction calls generalizing l s with
  | nil => exact h
  | cons c calls ih => exact ih (h.note c)

/-- Each event is listed with what was recorded. -/
theorem mapM_withPayload {notices : List (Instant × Notice)} {events : List Event}
    (h : List.Forall₂ (fun r e => ∃ id, e = r.2.event id r.1) notices events) :
    (events.mapM Event.withPayload).map (List.map fun listed => listed.1.line listed.2) =
      .ok (notices.map fun r => r.2.line r.1) := by
  induction h with
  | nil => rfl
  | @cons r e notices events hkept hrest ih =>
    obtain ⟨id, rfl⟩ := hkept
    rw [List.mapM_cons, Event.withPayload, Notice.payload_event]
    cases hlisted : events.mapM Event.withPayload with
    | error f =>
      rw [hlisted] at ih
      cases ih
    | ok listed =>
      rw [hlisted] at ih
      rw [List.map_cons, ← Except.ok.inj ih]
      rfl

theorem Tells.listed (h : l.Tells s) (hopen : l.closed = false) (limit : Int) (onlyError : Bool) :
    (s.listEvents (.int limit) onlyError).map (List.map fun listed => listed.1.line listed.2) =
      .ok (((l.notices.filter fun r => !onlyError || r.2.isError).take
        (max 1 (min 200 limit)).toNat).map fun r => r.2.line r.1) := by
  have hfiltered := List.rel_filter (p := fun r : Instant × Notice => !onlyError || r.2.isError)
    (q := fun e => !onlyError || e.isError)
    (fun r e ⟨id, he⟩ => by simp only [he, Notice.isError_event]) h.events
  rw [Store.listEvents, Store.checkOpen, h.closed, hopen]
  exact mapM_withPayload (List.forall₂_take _ hfiltered)

end Logbook

/-- Each record that fits adds one event to an open store, and nothing else touches the log. However the
store was used, the log lists the latest records, or the latest of those with the status of an error,
each with its time and what was recorded, and with the secrets of its payload hidden. -/
theorem audit_log_lists_records {s : Store} (hs : s.events = []) (calls : List Call) (limit : Int)
    (onlyError : Bool) :
    let logbook := Logbook.after ⟨s.closed, []⟩ calls
    let store := s.after (calls.map Call.usage)
    (store.listEvents (.int limit) onlyError).map
        (List.map fun listed => listed.1.line listed.2) =
      (if logbook.closed then .error .storeClosed
      else .ok (((logbook.notices.filter fun r => !onlyError || r.2.isError).take
        (max 1 (min 200 limit)).toNat).map fun r => r.2.line r.1)) ∧
    (∀ now entry, ∃ added, added.length ≤ 1 ∧
      ((Usage.record now entry).serve store).2.events = store.events ++ added) ∧
    ∀ u : Usage, (∀ now entry, u ≠ .record now entry) →
      (u.serve store).2.events = store.events := by
  intro logbook store
  have htells : logbook.Tells store :=
    Logbook.Tells.after ⟨rfl, by rw [hs]; exact .nil⟩ calls
  refine ⟨?_, fun now entry => Usage.events_serve_record now entry store,
    fun u hu => Usage.events_serve hu store⟩
  split
  · rename_i hclosed
    rw [Store.listEvents, Store.checkOpen, if_pos (htells.closed.trans hclosed)]
    rfl
  · rename_i hopen
    exact htells.listed (Bool.eq_false_iff.mpr hopen) limit onlyError

def sentNotice : Notice :=
  { eventType := "pending_message_sent"
    automationId := some 7
    status := some "sent"
    severity := none
    payload := none
    isJson := nofun }

def failedPayload : Value :=
  .object [("Api-Key", .list [.int 1]), ("error", .text "token=a b")]

theorem isJson_failedPayload : failedPayload.IsJson := by
  refine (Value.IsJson.object_iff _).mpr ⟨by decide, ?_⟩
  simp only [List.forall_mem_cons]
  refine ⟨(Value.IsJson.list_iff _).mpr ?_, .text _, fun _ he => absurd he List.not_mem_nil⟩
  simp only [List.forall_mem_cons]
  exact ⟨(Value.IsJson.int_iff 1).mpr (by decide), fun _ hv => absurd hv List.not_mem_nil⟩

def failedNotice : Notice :=
  { eventType := "pending_message_error"
    automationId := none
    status := some "Error"
    severity := some "warning"
    payload := some failedPayload
    isJson := by
      rintro v ⟨⟩
      exact (Json.isJson_iff _).mp isJson_failedPayload }

/-- An error is recorded between a message that was sent and one that is stored; nothing is recorded
while the store is closed. -/
def auditedDay : List Call :=
  [.record Crew.noon sentNotice, .record Crew.noon failedNotice,
    .other (.command (.create Crew.noon (textDraft none "Hello" "" ["ann"] (.ofInstant Crew.noon))))
      nofun,
    .record Crew.oneOClock sentNotice, .other .close nofun, .record Crew.oneOClock failedNotice,
    .other .reopen nofun]

theorem audit_log_lists_records_error :
    Store.empty.events = [] ∧
      ((Store.empty.after (auditedDay.map Call.usage)).listEvents (.int (-3)) true).map
          (List.map fun listed => listed.1.line listed.2) =
        .ok [{ failedNotice.line Crew.noon with
          payload := .object [("Api-Key", .text "<redacted>"), ("error", .text "token=<redacted> b")] }] := by
  have hkey : Redaction.isSensitiveKey "Api-Key" = true := by decide +kernel
  have herrorKey : Redaction.isSensitiveKey "error" = false := by decide +kernel
  have htext : Redaction.redactText "token=a b" = "token=<redacted> b" := by decide +kernel
  have hmask : String.ofList Redaction.mask = "<redacted>" := by decide +kernel
  have hshown : Redaction.redact failedPayload =
      .object [("Api-Key", .text "<redacted>"), ("error", .text "token=<redacted> b")] := by
    simp [failedPayload, Redaction.redact, Redaction.redactEntries, hkey, herrorKey, htext, hmask]
  have hfailed : failedNotice.isError = true := by decide +kernel
  have hsent : sentNotice.isError = false := by decide +kernel
  have hlogbook : Logbook.after ⟨Store.empty.closed, []⟩ auditedDay =
      ⟨false, [(Crew.oneOClock, sentNotice), (Crew.noon, failedNotice), (Crew.noon, sentNotice)]⟩ :=
    rfl
  refine ⟨rfl, (audit_log_lists_records rfl auditedDay (-3) true).1.trans ?_⟩
  rw [← hshown]
  have hline : failedNotice.line Crew.noon =
      { failedNotice.line Crew.noon with payload := Redaction.redact failedPayload } := rfl
  simp [hlogbook, hfailed, hsent, ← hline]

end Outbox

end Courier
