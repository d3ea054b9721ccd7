import Courier.Proofs.Crew.Basic
import Courier.Proofs.Outbox.Failures

/-!
# What tells failures apart

Two failures may have texts that are the same once their secrets are hidden. After one of them or the other
the audit log is the same. The row of the message keeps the start of the text as it is, though, and the
operator is sent all of it: they tell the two apart whenever the texts differ there.
-/

namespace Courier.Outbox

def Row.withoutError (r : Row) : Row :=
  { r with lastError := none }

namespace Store

/-- A store that refuses to release a message does so whatever the failure was. -/
theorem release_of_not_admits {s : Store} {id : Int} (h : ¬ s.Admits id) :
    ∃ e, ∀ text, release id text s = .error e := by
  by_cases hclosed : s.closed = true
  · exact ⟨.storeClosed, fun text => by rw [release, checkOpen, if_pos hclosed]; rfl⟩
  · have hword : ¬ Cell.isWord id = true := fun hword => h ⟨by simpa using hclosed, hword⟩
    refine ⟨.columnIntegerTooLarge, fun text => ?_⟩
    rw [release, checkOpen, if_neg hclosed, checkWord, if_neg hword]
    rfl

theorem modify_modify (s : Store) (id : Int) {change : Row → Row} (hc : KeepsId change)
    (change' : Row → Row) : (s.modify id change).modify id change' = s.modify id (change' ∘ change) := by
  simp only [modify, List.map_map]
  congr 1
  refine List.map_congr_left fun r _ => ?_
  simp only [Function.comp_apply]
  split
  · rw [if_pos ((hc r).trans ‹_›)]
  · rfl

/-- The rows after two failures of a message are the same if the texts that are kept are. -/
theorem rows_modify_failed_iff (s : Store) (id : Int) (text text' : String) :
    (s.modify id (Row.failed text)).rows = (s.modify id (Row.failed text')).rows ↔
      ((∃ r ∈ s.rows, r.id = id) → errorStart text = errorStart text') := by
  rw [modify, modify, List.map_inj_left]
  constructor
  · rintro h ⟨r, hr, hid⟩
    have hrow := h r hr
    rw [if_pos hid, if_pos hid] at hrow
    exact Option.some.inj (congrArg Row.lastError hrow)
  · intro h r hr
    split
    · rw [Row.failed, Row.failed, h ⟨r, hr, ‹_›⟩]
    · rfl

end Store

namespace Sweep

/-- Releases a message after a failure, and records the failure. -/
def handle (p : Pending) (f : Failure) (s : Sweep) (d : Desk) : Desk × Sweep :=
  let released := (s.turnTo (.releasing p f)).advance d
  released.2.advance released.1

variable {s : Sweep} {d : Desk} {p : Pending}

/-- A sweep that is told that a call failed handles the failure and goes on. -/
theorem resume_failed {recipient : String} {rest receipts : List String}
    (hact : s.activity = .sending p recipient rest receipts) {f : Failure}
    (hf : f.isCancellation = false) :
    s.resume (.error f) d = (s.handle p f d).2.proceed (s.handle p f d).1 := by
  have hanswered : s.answered (.error f) d = (d, s.turnTo (.releasing p f)) := by
    simp [answered, hact, hf]
  rw [resume, hanswered, proceed_advance, proceed_advance, handle]

/-- The event of a failure, if it can be recorded. -/
def eventOf (policy : Policy) (p : Pending) (d : Desk) (f : Failure) : Except Failure Event :=
  let attempts := attemptsOf p d
  (errorEntry p (severity (policy.retryLimit ≤ attempts)) attempts f).event (d.store.lastEventId + 1)
    d.now.text

theorem eventOf_congr {f g : Failure}
    (h : Redaction.redactText f.message = Redaction.redactText g.message) (policy : Policy) :
    eventOf policy p d f = eventOf policy p d g := by
  simp only [eventOf, errorEntry, Entry.event, Option.map_some, payloadText, redact_failure, h]

/-- A failure of a message that can be released is recorded, or the sweep ends. -/
theorem handle_cases (hadmits : d.store.Admits p.id) (f : Failure) :
    (∃ e, eventOf s.policy p d f = .error e ∧
        (s.handle p f d).1.store = d.store.modify p.id (Row.failed f.message) ∧
        (s.handle p f d).2.request? = none) ∨
      ∃ event, eventOf s.policy p d f = .ok event ∧
        (s.handle p f d).1.store =
          (d.store.withEvent event).modify p.id (Row.failed f.message) ∧
        (s.handle p f d).2.request? = if alerts s.policy (attemptsOf p d) then
          s.policy.operatorChat.map fun chat => alert chat p (attemptsOf p d) f else none := by
  have hopen : (d.store.modify p.id (Row.failed f.message)).closed = false := hadmits.isOpen
  have hrecord := Store.record_of_open hopen d.now (errorEntry p
    (severity (s.policy.retryLimit ≤ attemptsOf p d)) (attemptsOf p d) f)
  have hevent : (errorEntry p (severity (s.policy.retryLimit ≤ attemptsOf p d)) (attemptsOf p d)
      f).event ((d.store.modify p.id (Row.failed f.message)).lastEventId + 1) d.now.text =
      eventOf s.policy p d f := rfl
  rw [hevent] at hrecord
  rw [handle, advance_releasing_of_admits rfl hadmits, advance]
  dsimp only [turnTo, report, perform, Desk.perform]
  rw [hrecord]
  cases eventOf s.policy p d f with
  | error e => exact .inl ⟨e, rfl, rfl, rfl⟩
  | ok event =>
    refine .inr ⟨event, rfl, rfl, ?_⟩
    change (s.turnTo (if s.policy.retryLimit ≤ attemptsOf p d ∧ s.policy.operatorChat.isSome then
      .alerting p (attemptsOf p d) f else .taking)).request? = _
    by_cases htold : alerts s.policy (attemptsOf p d) = true
    · rw [if_pos htold, if_pos (by simpa [alerts] using htold)]
      rfl
    · rw [if_neg htold, if_neg (by simpa [alerts] using htold)]
      rfl

/-- A message may be one that cannot be released, whatever its failure was. Otherwise two failures that
look the same when their secrets are hidden leave the same behind, but for the text that is kept and the one
that the operator is sent. -/
theorem exists_handled (s : Sweep) (d : Desk) (p : Pending) {f₁ f₂ : Failure}
    (h : Redaction.redactText f₁.message = Redaction.redactText f₂.message) :
    (¬ d.store.Admits p.id ∧ ∃ e, ∀ f, s.handle p f d = (d, s.stopWith e)) ∨
      d.store.Admits p.id ∧ ∃ (st : Store) (told : Bool), st.rows = d.store.rows ∧
        ∀ f, f = f₁ ∨ f = f₂ → (s.handle p f d).1.store = st.modify p.id (Row.failed f.message) ∧
          (s.handle p f d).2.request? = if told then
            s.policy.operatorChat.map fun chat => alert chat p (attemptsOf p d) f else none := by
  by_cases hadmits : d.store.Admits p.id
  · right
    refine ⟨hadmits, ?_⟩
    have hsame {f : Failure} (hf : f = f₁ ∨ f = f₂) :
        eventOf s.policy p d f = eventOf s.policy p d f₁ := by
      rcases hf with rfl | rfl
      · rfl
      · exact eventOf_congr h.symm s.policy
    -- Whether the failure can be recorded is settled by the first one, and is the same for the other.
    rcases handle_cases (s := s) hadmits f₁ with ⟨e, he, -⟩ | ⟨event, hevent, -⟩
    · refine ⟨d.store, false, rfl, fun f hf => ?_⟩
      rcases handle_cases (s := s) hadmits f with ⟨_, -, hhandled⟩ | ⟨_, hevent', -⟩
      · exact hhandled
      · cases (hevent'.symm.trans (hsame hf)).trans he
    · refine ⟨d.store.withEvent event, alerts s.policy (attemptsOf p d), rfl, fun f hf => ?_⟩
      rcases handle_cases (s := s) hadmits f with ⟨_, he', -⟩ | ⟨event', hevent', hhandled⟩
      · cases (he'.symm.trans (hsame hf)).trans hevent
      · cases (hevent'.symm.trans (hsame hf)).trans hevent
        exact hhandled
  · left
    obtain ⟨e, he⟩ := Store.release_of_not_admits hadmits
    refine ⟨hadmits, e, fun f => ?_⟩
    have hreleased : (s.turnTo (.releasing p f)).advance d = (d, s.stopWith e) := by
      rw [advance]
      dsimp only [turnTo, release, perform, Desk.perform]
      rw [he]
      rfl
    rw [handle, hreleased]
    rfl

theorem alert_inj {chat attempts : Int} {f g : Failure} :
    alert chat p attempts f = alert chat p attempts g ↔ f.message = g.message := by
  simp [alert, String.append_right_inj]

/-- Of two failures of a call that look the same when their secrets are hidden, the audit log does not show
which one it was, nor does the rest of the store, except for the error that is kept with the message. That
error shows it exactly if the texts differ in the part that is kept, and the call that tells the operator,
if there is one, exactly if the texts differ at all. -/
theorem audit_hides_what_alert_shows (policy : Policy) (due : List Pending) (delivered : Nat)
    (p : Pending) (recipient : String) (rest receipts : List String) (d : Desk) {f₁ f₂ : Failure}
    (hf₁ : f₁.isCancellation = false) (hf₂ : f₂.isCancellation = false)
    (hsame : Redaction.redactText f₁.message = Redaction.redactText f₂.message) :
    let s : Sweep := ⟨policy, due, delivered, .sending p recipient rest receipts⟩
    let after (f : Failure) : Desk × Sweep := s.handle p f d
    (∀ f, f = f₁ ∨ f = f₂ → s.resume (.error f) d = (after f).2.proceed (after f).1) ∧
      (after f₁).1.store.events = (after f₂).1.store.events ∧
      (after f₁).1.store.modify p.id Row.withoutError =
        (after f₂).1.store.modify p.id Row.withoutError ∧
      ((after f₁).1.store.rows = (after f₂).1.store.rows ↔
        (d.store.Admits p.id → (∃ r ∈ d.store.rows, r.id = p.id) →
          Store.errorStart f₁.message = Store.errorStart f₂.message)) ∧
      (after f₁).2.request?.isSome = (after f₂).2.request?.isSome ∧
      ((after f₁).2.request? = (after f₂).2.request? ↔
        ((after f₁).2.request?.isSome → f₁.message = f₂.message)) := by
  intro s after
  refine ⟨?_, ?_⟩
  · rintro f (rfl | rfl)
    · exact resume_failed rfl hf₁
    · exact resume_failed rfl hf₂
  · rcases exists_handled s d p hsame with ⟨hrefused, e, hhandled⟩ |
      ⟨hadmits, st, told, hrows, hhandled⟩
    · have hafter (f : Failure) : after f = (d, s.stopWith e) := hhandled f
      rw [hafter, hafter]
      exact ⟨rfl, rfl, iff_of_true rfl fun hadmits => absurd hadmits hrefused, rfl,
        iff_of_true rfl fun hnone => by cases hnone⟩
    · obtain ⟨hstore₁, hrequest₁⟩ := hhandled f₁ (.inl rfl)
      obtain ⟨hstore₂, hrequest₂⟩ := hhandled f₂ (.inr rfl)
      simp only [after, hstore₁, hstore₂, hrequest₁, hrequest₂]
      refine ⟨rfl, ?_, ?_, ?_, ?_⟩
      · rw [Store.modify_modify _ _ (Row.keepsId_failed _), Store.modify_modify _ _ (Row.keepsId_failed _)]
        rfl
      · rw [Store.rows_modify_failed_iff, hrows]
        exact ⟨fun h _ => h, fun h => h hadmits⟩
      · cases told <;> simp
      · cases told with
        | false => simp
        | true => cases policy.operatorChat <;> simp [alert_inj]

/-- A failure whose text has the token of a bot in it. -/
def exposing (token : String) : Failure :=
  .collaborator .runtime
    [.text ("POST https://api.telegram.org/bot" ++ token ++ "/sendMessage timed out")]

/-- The only message, which a worker has claimed. -/
def claimedRow : Row :=
  ⟨1, "2024-03-01T12:00:00+00:00", .null, "Hello", "See you at five.", "[\"ann\"]",
    "2024-03-01T12:05:00+00:00", some "2024-03-01T12:10:00+00:00", 0, none, "[]"⟩

def claimedDesk : Desk :=
  { (Crew.idle Crew.noon).desk with store := ⟨[claimedRow], 1, [], 0, false⟩ }

def claimedPending : Pending :=
  ⟨1, claimedRow.createdAt, none, "Hello", "See you at five.", ["ann"], [], claimedRow.scheduledAt, none,
    0, none⟩

/-- A sweep that tries each message once and tells the operator of failures. -/
def onlyTry : Sweep :=
  ⟨⟨1, .none, some 7, 15⟩, [], 0, .sending claimedPending "ann" [] []⟩

theorem redacted_exposing :
    Redaction.redactText (exposing "123:ABC-def").message =
      Redaction.redactText (exposing "456:ghi").message := by
  decide +kernel

theorem audit_hides_what_alert_shows_tokens :
    let f₁ := exposing "123:ABC-def"
    let f₂ := exposing "456:ghi"
    let after (f : Failure) : Desk × Sweep := onlyTry.handle claimedPending f claimedDesk
    f₁.isCancellation = false ∧ f₂.isCancellation = false ∧
      Redaction.redactText f₁.message = Redaction.redactText f₂.message ∧
      (after f₁).1.store.events = (after f₂).1.store.events ∧
      (after f₁).1.store.rows ≠ (after f₂).1.store.rows ∧
      (after f₁).2.request? ≠ (after f₂).2.request? := by
  intro f₁ f₂ after
  have hstart : Store.errorStart f₁.message ≠ Store.errorStart f₂.message := by decide +kernel
  have htold : (after f₁).2.request?.isSome = true := by decide +kernel
  obtain ⟨-, hevents, -, hrows, -, hrequest⟩ := audit_hides_what_alert_shows ⟨1, .none, some 7, 15⟩ [] 0
    claimedPending "ann" [] [] claimedDesk (show f₁.isCancellation = false from rfl)
    (show f₂.isCancellation = false from rfl) redacted_exposing
  refine ⟨rfl, rfl, redacted_exposing, hevents, fun h => ?_, fun h => ?_⟩
  · exact hstart (hrows.mp h ⟨rfl, by decide⟩ ⟨claimedRow, List.mem_singleton_self _, rfl⟩)
  · have hmessage := hrequest.mp h htold
    exact hstart (congrArg Store.errorStart hmessage)

/-- The token is kept with the message, and sent to the operator. -/
theorem token_reaches_row_and_operator :
    let f₁ := exposing "123:ABC-def"
    let f₂ := exposing "456:ghi"
    let after (f : Failure) : Desk × Sweep := onlyTry.resume (.error f) claimedDesk
    Redaction.redactText f₁.message = Redaction.redactText f₂.message ∧
      (after f₁).1.store.rows ≠ (after f₂).1.store.rows ∧
      (after f₁).2.request? ≠ (after f₂).2.request? := by
  intro f₁ f₂ after
  have hafter (f : Failure) (hf : f.isCancellation = false)
      (hidle : ¬ (onlyTry.handle claimedPending f claimedDesk).2.isBusy = true) :
      after f = onlyTry.handle claimedPending f claimedDesk :=
    (resume_failed rfl hf).trans (proceed_of_not_busy hidle _)
  have hafter₁ := hafter f₁ rfl (by decide +kernel)
  have hafter₂ := hafter f₂ rfl (by decide +kernel)
  refine ⟨redacted_exposing, ?_, fun h => ?_⟩
  · rw [hafter₁, hafter₂]
    decide +kernel
  · rw [hafter₁, hafter₂] at h
    have hbody := congrArg (Option.map fun payload => payload.body.display) h
    revert hbody
    decide +kernel

end Sweep

end Courier.Outbox
