import Courier.Proofs.Calendar.TextOrder
import Courier.Proofs.Outbox.Operations

/-!
# Chronicles of the store

A chronicle is kept beside the store while requests to it are served: it says for which instant each
message was scheduled, and at which instant the claim was made that holds it. The rows have texts only.
Along every run of requests these are the texts of the instants of the chronicle.
-/

namespace Courier.Outbox

open Calendar (Instant Moment)

/-- An operation that may change the store. -/
inductive Request where
  | create (now : Instant) (automationId : Option Int) (title body : String)
      (recipients : List String) (scheduledAt : Moment)
  | claim (id : Int) (now : Moment) (lease : Lease)
  | unclaim (id : Int)
  | mark (id : Int) (recipient : String)
  | complete (id : Int)
  | release (id : Int) (errorText : String)
  | cancel (id : Int)
  | cancelAll (automationId : Int)
  | record (now : Instant) (entry : Entry)

/-- When messages are to be sent, and since when they are claimed, by their numbers. -/
structure Times where
  scheduled : Int → Option Instant
  claimed : Int → Option Instant

namespace Times

/-- A message is scheduled; nobody claimed it so far. -/
def schedule (id : Int) (t : Option Instant) (times : Times) : Times where
  scheduled k := if k = id then t else times.scheduled k
  claimed k := if k = id then none else times.claimed k

/-- A message is claimed at an instant, or its claim is given up. -/
def setClaim (id : Int) (t : Option Instant) (times : Times) : Times where
  scheduled := times.scheduled
  claimed k := if k = id then t else times.claimed k

end Times

structure Chronicle extends Times where
  store : Store

def textDraft (automationId : Option Int) (title body : String) (recipients : List String)
    (scheduledAt : Moment) : Draft where
  automationId := .ofOptionInt automationId
  title := .text title
  body := .text body
  recipients := .list (recipients.map Value.text)
  scheduledAt := scheduledAt

namespace Chronicle

def blank : Chronicle where
  scheduled _ := none
  claimed _ := none
  store := Store.empty

/-- Enters an operation. One that is refused leaves everything as it was. -/
def enter {α : Type} (c : Chronicle) (operation : Operation α) (note : α → Times → Times) :
    Chronicle :=
  match operation c.store with
  | .ok (a, store) => ⟨note a c.toTimes, store⟩
  | .error _ => c

def serve (c : Chronicle) : Request → Chronicle
  | .create now automationId title body recipients scheduledAt =>
    c.enter (Store.create now (textDraft automationId title body recipients scheduledAt))
      fun id => Times.schedule id scheduledAt.utc?
  | .claim id now lease =>
    c.enter (Store.claim id now lease) fun granted times =>
      if granted then times.setClaim id now.utc? else times
  | .unclaim id => c.enter (Store.unclaim id) fun _ => Times.setClaim id none
  | .mark id recipient => c.enter (Store.mark id (.text recipient)) fun _ times => times
  | .complete id => c.enter (Store.complete id) fun _ times => times
  | .release id errorText => c.enter (Store.release id errorText) fun _ => Times.setClaim id none
  | .cancel id => c.enter (Store.cancel id) fun _ times => times
  | .cancelAll automationId => c.enter (Store.cancelAll (.int automationId)) fun _ times => times
  | .record now entry => c.enter (Store.record now entry) fun _ times => times

def after (c : Chronicle) (requests : List Request) : Chronicle :=
  requests.foldl serve c

theorem after_append (c : Chronicle) (requests more : List Request) :
    c.after (requests ++ more) = (c.after requests).after more :=
  List.foldl_append

/-- A refused operation changes nothing, so only one that succeeds matters. -/
theorem enter_of {P : Chronicle → Prop} {c : Chronicle} {α : Type} {operation : Operation α}
    {note : α → Times → Times} (h : P c)
    (hok : ∀ a store, operation c.store = .ok (a, store) → P ⟨note a c.toTimes, store⟩) :
    P (c.enter operation note) := by
  unfold enter
  split
  · rename_i a store hresult
    exact hok a store hresult
  · exact h

end Chronicle

/-! ## Rows that agree with the times -/

namespace Row

theorem pending_noted {r : Row} {p : Pending} (h : r.pending = .ok p) (delivered : List String)
    (recipient : String) : ∃ q, (r.noted delivered recipient).pending = .ok q := by
  unfold noted
  split
  · exact ⟨p, h⟩
  · simp only [pending, bind_eq_ok] at h
    obtain ⟨automationId, hautomation, recipients, hrecipients, -⟩ := h
    simp only [pending, hautomation, hrecipients, loadList_write_texts, bind, Except.bind]
    exact ⟨_, rfl⟩

end Row

/-- A row keeps the texts of its times, and a message can be read from it. -/
structure Times.Records (times : Times) (r : Row) : Prop where
  isWord : Cell.isWord r.id = true
  scheduled : ∃ t, times.scheduled r.id = some t ∧ r.scheduledAt = t.text
  claimed : r.claimedAt = (times.claimed r.id).map Instant.text
  readable : ∃ p, r.pending = .ok p

namespace Times.Records
variable {times : Times} {r : Row} {id : Int}

theorem setClaim_other (h : times.Records r) (hid : r.id ≠ id) (t : Option Instant) :
    (times.setClaim id t).Records r :=
  ⟨h.isWord, h.scheduled, by simp only [h.claimed, setClaim, if_neg hid], h.readable⟩

theorem schedule_other (h : times.Records r) (hid : r.id ≠ id) (t : Option Instant) :
    (times.schedule id t).Records r := by
  refine ⟨h.isWord, ?_, by simp only [h.claimed, schedule, if_neg hid], h.readable⟩
  simpa only [schedule, if_neg hid] using h.scheduled

theorem readable_of_fields (h : times.Records r) {claimedAt lastError : Option String}
    {attempts : Int} :
    ∃ p, { r with claimedAt, attempts, lastError : Row }.pending = .ok p := by
  obtain ⟨p, hp⟩ := h.readable
  simp only [Row.pending, bind_eq_ok] at hp
  obtain ⟨automationId, hautomation, recipients, hrecipients, delivered, hdelivered, -⟩ := hp
  simp only [Row.pending, hautomation, hrecipients, hdelivered, bind, Except.bind]
  exact ⟨_, rfl⟩

theorem claim (h : times.Records r) (hid : r.id = id) (t : Instant) :
    (times.setClaim id (some t)).Records (r.claimed t.text) :=
  ⟨h.isWord, h.scheduled, by simp [Row.claimed, setClaim, hid], h.readable_of_fields⟩

theorem free (h : times.Records r) (hid : r.id = id) :
    (times.setClaim id none).Records r.freed :=
  ⟨h.isWord, h.scheduled, by simp [Row.freed, setClaim, hid], h.readable_of_fields⟩

theorem fail (h : times.Records r) (hid : r.id = id) (errorText : String) :
    (times.setClaim id none).Records (r.failed errorText) :=
  ⟨h.isWord, h.scheduled, by simp [Row.failed, setClaim, hid], h.readable_of_fields⟩

theorem note (h : times.Records r) (delivered : List String) (recipient : String) :
    times.Records (r.noted delivered recipient) := by
  obtain ⟨p, hp⟩ := h.readable
  refine ⟨?_, ?_, ?_, Row.pending_noted hp delivered recipient⟩
  · rw [Row.keepsId_noted]
    exact h.isWord
  · have hscheduled := h.scheduled
    unfold Row.noted
    split <;> exact hscheduled
  · have hclaimed := h.claimed
    unfold Row.noted
    split <;> exact hclaimed

end Times.Records

namespace Store

theorem utc?_of_instantOf {now : Moment} {t : Instant} (h : instantOf now = .ok t) :
    now.utc? = some t := by
  rw [instantOf] at h
  split at h
  · cases h
    assumption
  · cases h

/-- A message of texts is stored with the text of its instant, unclaimed. -/
theorem create_texts_ok {s s' : Store} {now : Instant} {automationId : Option Int}
    {title body : String} {recipients : List String} {scheduledAt : Moment} {id : Int}
    (h : create now (textDraft automationId title body recipients scheduledAt) s = .ok (id, s')) :
    ∃ row t, s' = s.insertLast row ∧ row.id = id ∧ id = s.lastId + 1 ∧
      Cell.isWord id = true ∧ scheduledAt.utc? = some t ∧ row.scheduledAt = t.text ∧
      row.claimedAt = none ∧ ∃ p, row.pending = .ok p := by
  obtain ⟨t, items, row, ht, hitems, hrow, hs', hid, hnew, hword⟩ := create_row h
  cases hitems
  have hautomation := hrow.reads_automation rfl
  have hdelivered : loadList row.deliveredJson = .ok [] := hrow.notes
  refine ⟨row, t, hs', hid, hnew, hword, utc?_of_instantOf ht, hrow.scheduledAt, hrow.free, ?_⟩
  simp only [Row.pending, hautomation, hrow.reads_recipients, hdelivered, bind, Except.bind]
  exact ⟨_, rfl⟩

/-- A claim that is answered was made at an instant of the calendar. -/
theorem claim_given {s s' : Store} {id : Int} {now : Moment} {lease : Lease} {granted : Bool}
    (h : claim id now lease s = .ok (granted, s')) :
    ∃ t cutoff, now.utc? = some t ∧ staleCutoff now lease = .ok cutoff ∧ s.Admits id := by
  simp only [claim, bind_eq_ok] at h
  obtain ⟨t, ht, cutoff, hcutoff, h⟩ := h
  exact ⟨t, cutoff, utc?_of_instantOf ht, hcutoff, admits_of_checks (by simpa only [bind_eq_ok] using h)⟩

theorem claim_eq {s : Store} (hs : s.WellNumbered) {id : Int} {now : Moment} {lease : Lease}
    {t : Instant} {cutoff : String} (ht : now.utc? = some t)
    (hcutoff : staleCutoff now lease = .ok cutoff) (hadmits : s.Admits id) :
    claim id now lease s =
      .ok ((s.find? id).any (isClaimable cutoff),
        if (s.find? id).any (isClaimable cutoff) then s.modify id (Row.claimed t.text) else s) := by
  have hany : (s.rows.any fun r => r.id == id && isClaimable cutoff r) =
      (s.find? id).any (isClaimable cutoff) := by
    rw [Bool.eq_iff_iff, any_id_iff hs, Option.any_eq_true]
  simp only [claim, instantOf, ht, hcutoff]
  refine (checks_of_admits hadmits _).trans ?_
  rw [hany]
  cases (s.find? id).any (isClaimable cutoff) with
  | false => rfl
  | true => rfl

end Store

/-! ## Faithful chronicles -/

namespace Chronicle

structure Faithful (c : Chronicle) : Prop where
  isOpen : c.store.closed = false
  wellNumbered : c.store.WellNumbered
  records : ∀ r ∈ c.store.rows, c.Records r

variable {c : Chronicle}

theorem faithful_blank : blank.Faithful :=
  ⟨rfl, Store.wellNumbered_empty, fun _ h => absurd h List.not_mem_nil⟩

namespace Faithful

theorem record (h : c.Faithful) {id : Int} {r : Row} (hr : c.store.find? id = some r) :
    c.Records r :=
  h.records r (Store.mem_of_find? hr)

theorem modify (h : c.Faithful) {times : Times} {id : Int} {change : Row → Row}
    (hc : Store.KeepsId change)
    (hother : ∀ r, c.Records r → r.id ≠ id → times.Records r)
    (hself : ∀ r, c.store.find? id = some r → times.Records (change r)) :
    Faithful ⟨times, c.store.modify id change⟩ := by
  refine ⟨h.isOpen, Store.wellNumbered_modify h.wellNumbered hc id, fun r' hr' => ?_⟩
  obtain ⟨r, hr, rfl⟩ := List.mem_map.mp hr'
  split
  · rename_i hid
    exact hself r (hid ▸ Store.find?_of_mem h.wellNumbered hr)
  · rename_i hid
    exact hother r (h.records r hr) hid

theorem setClaim (h : c.Faithful) {id : Int} {t : Option Instant} {change : Row → Row}
    (hc : Store.KeepsId change)
    (hself : ∀ r, c.Records r → r.id = id → (c.setClaim id t).Records (change r)) :
    Faithful ⟨c.setClaim id t, c.store.modify id change⟩ := by
  apply h.modify hc
  · intro r hr hid
    exact hr.setClaim_other hid t
  · intro r hr
    exact hself r (h.record hr) (Store.id_of_find? hr)

theorem remove (h : c.Faithful) (p : Row → Bool) : Faithful ⟨c.toTimes, c.store.remove p⟩ :=
  ⟨h.isOpen, Store.wellNumbered_remove h.wellNumbered p,
    fun r hr => h.records r (List.mem_filter.mp hr).1⟩

theorem insert (h : c.Faithful) {row : Row} (hid : row.id = c.store.lastId + 1)
    (hword : Cell.isWord row.id = true) {t : Instant} (hscheduled : row.scheduledAt = t.text)
    (hclaimed : row.claimedAt = none) {p : Pending} (hp : row.pending = .ok p) :
    Faithful ⟨c.schedule row.id (some t), c.store.insertLast row⟩ := by
  have hlast : c.store.lastId < row.id := by omega
  refine ⟨h.isOpen, Store.wellNumbered_insertLast h.wellNumbered hlast, fun r hr => ?_⟩
  rcases List.mem_append.mp hr with hr | hr
  · have hle := h.wellNumbered.le_lastId r hr
    exact (h.records r hr).schedule_other (by omega) _
  · rw [List.mem_singleton] at hr
    subst hr
    exact ⟨hword, ⟨t, by simp [Times.schedule], hscheduled⟩, by simp [Times.schedule, hclaimed], p, hp⟩

end Faithful

theorem serve_faithful (h : c.Faithful) (q : Request) : (c.serve q).Faithful := by
  cases q with
  | create now automationId title body recipients scheduledAt =>
    rw [serve]
    refine enter_of h fun id store hok => ?_
    obtain ⟨row, t, rfl, rfl, hid, hword, ht, hscheduled, hclaimed, p, hp⟩ := Store.create_texts_ok hok
    rw [ht]
    exact h.insert hid hword hscheduled hclaimed hp
  | claim id now lease =>
    rw [serve]
    refine enter_of h fun granted store hok => ?_
    obtain ⟨t, cutoff, ht, hcutoff, hadmits⟩ := Store.claim_given hok
    rw [Store.claim_eq h.wellNumbered ht hcutoff hadmits] at hok
    cases hok
    rw [ht]
    split
    · exact h.setClaim (Row.keepsId_claimed t.text) fun r hr hid => hr.claim hid t
    · exact h
  | unclaim id =>
    rw [serve]
    refine enter_of h fun _ store hok => ?_
    rw [Store.unclaim_of_admits (Store.admits_of_checks hok)] at hok
    cases hok
    exact h.setClaim Row.keepsId_freed fun r hr hid => hr.free hid
  | mark id recipient =>
    rw [serve]
    refine enter_of h fun _ store hok => ?_
    obtain ⟨-, rfl⟩ | ⟨r, delivered, hr, -, rfl⟩ := Store.mark_ok h.wellNumbered hok
    · exact h
    · apply h.modify (Row.keepsId_noted delivered recipient)
      · exact fun r hr _ => hr
      · exact fun r hr => (h.record hr).note delivered recipient
  | complete id =>
    rw [serve]
    refine enter_of h fun _ store hok => ?_
    rw [Store.complete_of_admits (Store.admits_of_checks hok)] at hok
    cases hok
    exact h.remove _
  | release id errorText =>
    rw [serve]
    refine enter_of h fun _ store hok => ?_
    rw [Store.release_of_admits (Store.admits_of_checks hok)] at hok
    cases hok
    exact h.setClaim (Row.keepsId_failed errorText) fun r hr hid => hr.fail hid errorText
  | cancel id =>
    rw [serve]
    refine enter_of h fun _ store hok => ?_
    obtain rfl := Store.cancel_ok hok
    exact h.remove _
  | cancelAll automationId =>
    rw [serve]
    refine enter_of h fun _ store hok => ?_
    obtain ⟨key, rfl⟩ := Store.cancelAll_ok hok
    exact h.remove _
  | record now entry =>
    rw [serve]
    refine enter_of h fun _ store hok => ?_
    obtain ⟨hrows, hlastId, hclosed⟩ := Store.record_ok hok
    refine ⟨hclosed ▸ h.isOpen, ⟨hrows ▸ h.wellNumbered.nodup, ?_⟩, ?_⟩
    · intro r hr
      exact hlastId ▸ h.wellNumbered.le_lastId r (hrows ▸ hr)
    · exact fun r hr => h.records r (hrows ▸ hr)

theorem after_faithful (h : c.Faithful) (requests : List Request) : (c.after requests).Faithful := by
  induction requests generalizing c with
  | nil => exact h
  | cons q requests ih => exact ih (serve_faithful h q)

end Chronicle

end Courier.Outbox
