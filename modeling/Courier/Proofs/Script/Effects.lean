import Courier.Proofs.Script.Asking
import Courier.Proofs.Crew.Posting
import Courier.Proofs.Outbox.LeaseWindow

/-!
# The effect of a dispatch

A dispatch has one effect or none. It stores the message, to be sent so many minutes later; or it calls
the messenger once; or it is refused, and then everything is as it was before. `Dispatch.Takes` lists
what it can do among others.
-/

namespace Courier

open Calendar (Instant microsPerSecond)

theorem Span.ofMicros_of_add? {t u : Instant} {span : Int} (h : t.add? span = some u) :
    Span.ofMicros span = .ok span := by
  have hmicros := Outbox.Lease.micros_of_add? h
  have ht := t.inRange
  have hu := u.inRange
  exact ofMicros_of_le (by omega)

namespace Script.Dispatch

open Message (Payload)
open Outbox (Store Row instantOf_ofInstant)

/-- The instant so many minutes from now. -/
def minutesFrom? (now : Instant) (minutes : Int) : Option Instant :=
  now.add? (minutes * 60 * microsPerSecond)

def draftAt (t : Instant) (automationId : Value) (payload : Payload) : Outbox.Draft where
  automationId := automationId
  title := payload.title
  body := payload.body
  recipients := .list (payload.recipients.map .text)
  scheduledAt := .ofInstant t

/-- Why a dispatch is refused. -/
inductive Refuses (payload : Payload) (delay : Option Int) (automationId : Value) (d : Desk) : Prop where
  | noRecipients (h : payload.recipients = [])
  | noInstant {minutes : Int} (hdelay : delay = some minutes) (hpositive : 0 < minutes)
    (h : minutesFrom? d.now minutes = none)
  | notStored {minutes : Int} {t : Instant} {f : Failure} (hdelay : delay = some minutes)
    (hpositive : 0 < minutes) (ht : minutesFrom? d.now minutes = some t)
    (h : Store.create d.now (draftAt t automationId payload) d.store = .error f)

/-- The row of a message that was stored just now, to be sent at an instant. -/
structure Stores (title body : String) (recipients : List String) (automationId : Option Int)
    (t : Instant) (row : Row) : Prop where
  waits : row.Waits title body recipients []
  automationId : row.automationId.toInt? = .ok automationId
  scheduledAt : row.scheduledAt = t.text
  attempts : row.attempts = 0

/-- What a dispatch of a message does among others. Either nothing happens, or a row is added, or the
messenger is called. -/
inductive Takes (title body : String) (recipients : List String) (delay automationId : Option Int)
    (w : Surroundings Desk) (calls : Nat) (d : Desk) : Trace Desk (Except Failure Dispatched) → Prop where
  | refused (f : Failure)
    (hwhy : Refuses ⟨.text title, .text body, recipients⟩ delay (.ofOptionInt automationId) d) :
    Takes title body recipients delay automationId w calls d ⟨[], .error f, d⟩
  | stored {minutes : Int} {t : Instant} {row : Row} {d' : Desk} (hrecipients : recipients ≠ [])
    (hdelay : delay = some minutes) (hpositive : 0 < minutes)
    (ht : minutesFrom? d.now minutes = some t) (hnew : row.id = d.store.lastId + 1)
    (hrow : Stores title body recipients automationId t row)
    (hstore : d'.store = d.store.insertLast row) :
    Takes title body recipients delay automationId w calls d
      ⟨[.change d d'], .ok (.pending row.id), d'⟩
  | failed {f : Failure} (hrecipients : recipients ≠ []) (hdelay : ∀ minutes, delay = some minutes → minutes ≤ 0)
    (hanswer : w.answer calls ⟨.text title, .text body, recipients⟩ = .error f) :
    Takes title body recipients delay automationId w calls d
      ⟨[.call ⟨.text title, .text body, recipients⟩ (.error f)], .error f, w.meanwhile calls d⟩
  | sent {receipt : String} {before after : Desk} (hrecipients : recipients ≠ [])
    (hdelay : ∀ minutes, delay = some minutes → minutes ≤ 0)
    (hanswer : w.answer calls ⟨.text title, .text body, recipients⟩ = .ok receipt)
    (hbefore : before = w.meanwhile calls d)
    (hafter : after = before.log (sentRecord (.ofOptionInt automationId))) :
    Takes title body recipients delay automationId w calls d
      ⟨[.call ⟨.text title, .text body, recipients⟩ (.ok receipt), .change before after],
        .ok (.sent receipt), after⟩

/-! ## Plans -/

section plan

theorem checkRecipients_of_ne {payload : Payload} (h : payload.recipients ≠ []) :
    checkRecipients payload = .ok () := by
  simp [checkRecipients, h]

/-- Only messages with recipients are stored. -/
theorem recipients_of_plan {payload : Payload} {delay automationId : Value} {d d' : Desk}
    {result : Dispatched} (h : plan payload delay automationId d = .store result d') :
    payload.recipients ≠ [] := by
  intro hnone
  have hchecked := (Outbox.Crew.plan_stored h).1
  simp [checkRecipients, hnone] at hchecked

variable (payload : Payload) {minutes : Int} (automationId : Value) (d : Desk)

theorem draftAfter_of_none (h : minutesFrom? d.now minutes = none) :
    ∃ f, draftAfter d.now minutes automationId payload = .error f := by
  unfold draftAfter
  cases hspan : Span.ofMinutes minutes with
  | error f => exact ⟨f, rfl⟩
  | ok span =>
    obtain rfl := Span.ofMicros_ok hspan
    refine ⟨.dateOutOfRange, ?_⟩
    rw [minutesFrom?] at h
    simp only [bind, Except.bind, h]

theorem draftAfter_of_some {t : Instant} (h : minutesFrom? d.now minutes = some t) :
    draftAfter d.now minutes automationId payload = .ok (draftAt t automationId payload) := by
  have hspan : Span.ofMinutes minutes = .ok (minutes * 60 * microsPerSecond) := Span.ofMicros_of_add? h
  rw [minutesFrom?] at h
  simp only [draftAfter, hspan, bind, Except.bind, h]
  rfl

theorem plan_of_empty (h : payload.recipients = []) (delay : Value) :
    ∃ f, plan payload delay automationId d = .refuse f := by
  simp [plan, checkRecipients, h]

theorem plan_at_once (h : payload.recipients ≠ []) {delay : Option Int}
    (hdelay : ∀ n, delay = some n → n ≤ 0) :
    plan payload (.ofOptionInt delay) automationId d = .send := by
  have hminutes : Dispatch.minutes (.ofOptionInt delay) = .ok none := by
    cases delay with
    | none => rfl
    | some n =>
      have hn : ¬ 0 < n := Int.not_lt.mpr (hdelay n rfl)
      simp [Dispatch.minutes, Value.ofOptionInt, Value.isNull, Value.toInt, Except.map, hn]
  rw [plan, checkRecipients_of_ne h]
  simp only [hminutes]

/-- A message with a delay is stored, unless there is no such instant or the store refuses it. -/
theorem plan_delayed (h : payload.recipients ≠ []) (hpositive : 0 < minutes) :
    (minutesFrom? d.now minutes = none ∧ ∃ f, plan payload (.int minutes) automationId d = .refuse f) ∨
      ∃ t, minutesFrom? d.now minutes = some t ∧
        ((∃ f, Store.create d.now (draftAt t automationId payload) d.store = .error f ∧
            plan payload (.int minutes) automationId d = .refuse f) ∨
          ∃ id store, Store.create d.now (draftAt t automationId payload) d.store = .ok (id, store) ∧
            plan payload (.int minutes) automationId d =
              .store (.pending id) ({ d with store }.log (scheduledRecord automationId id))) := by
  have hminutes : Dispatch.minutes (.int minutes) = .ok (some minutes) := by
    simp [Dispatch.minutes, Value.isNull, Value.toInt, Except.map, hpositive]
  simp only [plan, checkRecipients_of_ne h, hminutes, schedule]
  cases ht : minutesFrom? d.now minutes with
  | none =>
    obtain ⟨f, hf⟩ := draftAfter_of_none payload automationId d ht
    refine Or.inl ⟨rfl, f, ?_⟩
    rw [hf]
    rfl
  | some t =>
    refine Or.inr ⟨t, rfl, ?_⟩
    rw [draftAfter_of_some payload automationId d ht]
    simp only [bind, Except.bind, Desk.perform]
    cases Store.create d.now (draftAt t automationId payload) d.store with
    | error f => exact Or.inl ⟨f, rfl, rfl⟩
    | ok result => exact Or.inr ⟨result.1, result.2, rfl, rfl⟩

end plan

/-- The row that a store adds for a message of texts. -/
theorem stores_of_create {s s' : Store} {now t : Instant} {title body : String}
    {recipients : List String} {automationId : Option Int} {id : Int}
    (h : Store.create now (draftAt t (.ofOptionInt automationId) ⟨.text title, .text body, recipients⟩) s =
      .ok (id, s')) :
    ∃ row, s' = s.insertLast row ∧ row.id = id ∧ id = s.lastId + 1 ∧
      Stores title body recipients automationId t row := by
  obtain ⟨t', items, row, ht, hitems, hrow, hs', hid, hnew, -⟩ := Store.create_row h
  cases (instantOf_ofInstant t).symm.trans ht
  cases hitems
  exact ⟨row, hs', hid, hnew, hrow.waits rfl rfl, hrow.reads_automation rfl, hrow.scheduledAt,
    hrow.attempts⟩

/-- A message of texts that was stored has a row that is to be sent at the instant. -/
theorem stores_of_plan {title body : String} {recipients : List String} {minutes : Int}
    {automationId : Option Int} {id : Int} {d d' : Desk} {t : Instant}
    (h : plan ⟨.text title, .text body, recipients⟩ (.int minutes) (.ofOptionInt automationId) d =
      .store (.pending id) d') (ht : minutesFrom? d.now minutes = some t) :
    ∃ row, d'.store = d.store.insertLast row ∧ row.id = id ∧ id = d.store.lastId + 1 ∧
      Stores title body recipients automationId t row := by
  have hrecipients := recipients_of_plan h
  have hpositive : 0 < minutes := by
    rw [← Int.not_le]
    intro hle
    have hdelay : ∀ n, some minutes = some n → n ≤ 0 := fun n hn => Option.some.inj hn ▸ hle
    cases h.symm.trans (plan_at_once _ _ d hrecipients hdelay)
  rcases plan_delayed _ (.ofOptionInt automationId) d hrecipients hpositive with
    ⟨-, f, hplan⟩ | ⟨t', ht', ⟨f, -, hplan⟩ | ⟨id', store, hcreate, hplan⟩⟩
  · cases h.symm.trans hplan
  · cases h.symm.trans hplan
  · cases ht.symm.trans ht'
    cases h.symm.trans hplan
    exact stores_of_create hcreate

variable {title body : String} {recipients : List String} {delay automationId : Option Int}

/-- A dispatch has one effect at most, and only if it is refused it has none. -/
theorem takes_trace_send (w : Surroundings Desk) (calls : Nat) (d : Desk) :
    Takes title body recipients delay automationId w calls d
      ((send ⟨.text title, .text body, recipients⟩ (.ofOptionInt delay)
        (.ofOptionInt automationId)).trace w calls d) := by
  rw [trace_send]
  by_cases hrecipients : recipients = []
  · obtain ⟨f, hf⟩ := plan_of_empty ⟨.text title, .text body, recipients⟩
      (.ofOptionInt automationId) d hrecipients (.ofOptionInt delay)
    rw [hf]
    exact .refused f (.noRecipients hrecipients)
  by_cases hdelay : ∀ n, delay = some n → n ≤ 0
  · rw [plan_at_once _ _ d hrecipients hdelay]
    dsimp only
    split
    · rename_i f hanswer
      exact .failed hrecipients hdelay hanswer
    · rename_i receipt hanswer
      exact .sent hrecipients hdelay hanswer rfl rfl
  · simp only [Classical.not_forall, Int.not_le] at hdelay
    obtain ⟨minutes, rfl, hpositive⟩ := hdelay
    rw [Value.ofOptionInt]
    rcases plan_delayed ⟨.text title, .text body, recipients⟩ (.ofOptionInt automationId) d hrecipients
        hpositive with
      ⟨ht, f, hplan⟩ | ⟨t, ht, ⟨f, hf, hplan⟩ | ⟨id, store, hcreate, hplan⟩⟩
    · rw [hplan]
      exact .refused f (.noInstant rfl hpositive ht)
    · rw [hplan]
      exact .refused f (.notStored rfl hpositive ht hf)
    · rw [hplan]
      obtain ⟨row, hstore, rfl, hnew, hrow⟩ := stores_of_create hcreate
      exact .stored hrecipients rfl hpositive ht hnew hrow hstore

end Script.Dispatch

end Courier
