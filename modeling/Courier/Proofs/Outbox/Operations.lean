import Courier.Proofs.Json.TextList
import Courier.Proofs.Outbox.Rows
import Courier.Script.Dispatch

/-!
# What the operations on the store do

One description for each operation. Those on a single row are refused only if the store is closed or
the number of the row does not fit a column; `Store.Admits` says that neither is the case.
-/

namespace Courier

theorem bind_eq_ok {α β : Type} {x : Except Failure α} {f : α → Except Failure β} {b : β} :
    (x >>= f) = .ok b ↔ ∃ a, x = .ok a ∧ f a = .ok b := by
  cases x with
  | error f => simp [bind, Except.bind]
  | ok a => simp [bind, Except.bind]

theorem eq_ok_of_toOption {α : Type} {x : Except Failure α} {a : α} (h : x.toOption = some a) :
    x = .ok a := by
  cases x with
  | error f => cases h
  | ok b =>
    cases h
    rfl

namespace Outbox

/-! ## Rows -/

namespace Row

def claimed (claimedAt : String) (r : Row) : Row :=
  { r with claimedAt := some claimedAt }

def freed (r : Row) : Row :=
  { r with claimedAt := none }

def failed (text : String) (r : Row) : Row :=
  { r with
    claimedAt := none
    attempts := r.attempts + 1
    lastError := some (Store.errorStart text) }

/-- The row with a recipient noted behind those that were. -/
def noted (delivered : List String) (recipient : String) (r : Row) : Row :=
  if recipient ∈ delivered then r
  else { r with deliveredJson := Json.write (.list ((delivered ++ [recipient]).map Value.text)) }

theorem keepsId_claimed (claimedAt : String) : Store.KeepsId (claimed claimedAt) :=
  fun _ => rfl

theorem keepsId_freed : Store.KeepsId freed :=
  fun _ => rfl

theorem keepsId_failed (text : String) : Store.KeepsId (failed text) :=
  fun _ => rfl

theorem keepsId_noted (delivered : List String) (recipient : String) :
    Store.KeepsId (noted delivered recipient) := by
  intro r
  unfold noted
  split <;> rfl

@[simp] theorem attempts_noted (delivered : List String) (recipient : String) (r : Row) :
    (r.noted delivered recipient).attempts = r.attempts := by
  unfold noted
  split <;> rfl

@[simp] theorem automationId_noted (delivered : List String) (recipient : String) (r : Row) :
    (r.noted delivered recipient).automationId = r.automationId := by
  unfold noted
  split <;> rfl

/-- The recipients that a row notes, and that a message shows. -/
def Notes (r : Row) (delivered : List String) : Prop :=
  loadList r.deliveredJson = .ok delivered

/-- The recipients of a message with one more noted. -/
def withNoted (delivered : List String) (recipient : String) : List String :=
  if recipient ∈ delivered then delivered else delivered ++ [recipient]

theorem notes_noted {r : Row} {delivered : List String} (h : r.Notes delivered)
    (recipient : String) :
    (r.noted delivered recipient).Notes (withNoted delivered recipient) := by
  unfold noted withNoted
  split
  · exact h
  · exact loadList_write_texts _

theorem pending_ok {r : Row} {p : Pending} (h : r.pending = .ok p) :
    p.id = r.id ∧ p.title = r.title ∧ p.body = r.body ∧ p.attempts = r.attempts ∧
      loadList r.recipientsJson = .ok p.recipients ∧ r.Notes p.delivered := by
  simp only [pending, bind_eq_ok] at h
  obtain ⟨_, _, recipients, hrecipients, delivered, hdelivered, h⟩ := h
  cases h
  exact ⟨rfl, rfl, rfl, rfl, hrecipients, hdelivered⟩

end Row

namespace Store

/-! ## Operations on a single row -/

/-- The store is open and a column holds the number. -/
structure Admits (s : Store) (id : Int) : Prop where
  isOpen : s.closed = false
  isWord : Cell.isWord id = true

theorem checks_of_admits {α : Type} {s : Store} {id : Int} (h : s.Admits id)
    (x : Except Failure α) : (do s.checkOpen; checkWord id; x) = x := by
  simp [checkOpen, checkWord, h.isOpen, h.isWord, bind, Except.bind]

theorem admits_of_checks {α : Type} {s : Store} {id : Int} {x : Except Failure α} {a : α}
    (h : (do s.checkOpen; checkWord id; x) = .ok a) : s.Admits id := by
  simp only [bind_eq_ok, checkOpen, checkWord] at h
  obtain ⟨_, hopen, _, hword, _⟩ := h
  constructor
  · split at hopen
    · cases hopen
    · rename_i hclosed
      simpa using hclosed
  · split at hword
    · assumption
    · cases hword

theorem unclaim_of_admits {s : Store} {id : Int} (h : s.Admits id) :
    unclaim id s = .ok ((), s.modify id Row.freed) :=
  checks_of_admits h _

theorem complete_of_admits {s : Store} {id : Int} (h : s.Admits id) :
    complete id s = .ok ((), s.remove fun r => r.id == id) :=
  checks_of_admits h _

theorem release_of_admits {s : Store} {id : Int} (h : s.Admits id) (text : String) :
    release id text s =
      .ok ((((s.modify id (Row.failed text)).find? id).map (·.attempts)).getD 0,
        s.modify id (Row.failed text)) :=
  checks_of_admits h _

theorem mark_absent {s : Store} {id : Int} (h : s.Admits id) (hr : s.find? id = none)
    (recipient : String) : mark id (.text recipient) s = .ok ((), s) := by
  rw [mark, checks_of_admits h, hr]
  rfl

theorem modify_eq_self {s : Store} {id : Int} {change : Row → Row} (h : s.WellNumbered) {r : Row}
    (hr : s.find? id = some r) (hc : change r = r) : s.modify id change = s := by
  obtain ⟨rows, lastId, events, lastEventId, closed⟩ := s
  simp only [modify, mk.injEq, and_true]
  refine (List.map_congr_left fun r' hr' => ?_).trans (List.map_id _)
  split
  · rename_i hid
    have := find?_of_mem h hr'
    rw [hid, hr] at this
    cases this
    exact hc
  · rfl

theorem mark_present {s : Store} (hs : s.WellNumbered) {id : Int} (h : s.Admits id) {r : Row}
    (hr : s.find? id = some r) {delivered : List String} (hd : r.Notes delivered)
    (recipient : String) :
    mark id (.text recipient) s = .ok ((), s.modify id (Row.noted delivered recipient)) := by
  have hd' : loadList r.deliveredJson = .ok delivered := hd
  rw [mark, checks_of_admits h, hr]
  simp only [hd', bind, Except.bind, holds, List.contains_iff_mem]
  split
  · rename_i hmem
    rw [modify_eq_self hs hr (by simp [Row.noted, hmem])]
    rfl
  · rename_i hmem
    have hchange : Row.noted delivered recipient = fun r =>
        { r with deliveredJson := appendedText delivered (.text recipient) } := by
      funext r
      simp [Row.noted, hmem, appendedText]
    rw [hchange]
    rfl

/-- Noting is refused only by a row whose list of recipients cannot be read. -/
theorem mark_error {s : Store} (hs : s.WellNumbered) {id : Int} {recipient : String} {f : Failure}
    (h : mark id (.text recipient) s = .error f) (hadmits : s.Admits id) :
    ∃ r, s.find? id = some r ∧ ∀ delivered, ¬ r.Notes delivered := by
  cases hr : s.find? id with
  | none =>
    rw [mark_absent hadmits hr] at h
    cases h
  | some r =>
    refine ⟨r, rfl, fun delivered hd => ?_⟩
    rw [mark_present hs hadmits hr hd] at h
    cases h

theorem mark_ok {s s' : Store} (hs : s.WellNumbered) {id : Int} {recipient : String} {u : Unit}
    (h : mark id (.text recipient) s = .ok (u, s')) :
    (s.find? id = none ∧ s' = s) ∨
      ∃ r delivered, s.find? id = some r ∧ r.Notes delivered ∧
        s' = s.modify id (Row.noted delivered recipient) := by
  have hadmits := admits_of_checks h
  cases hr : s.find? id with
  | none =>
    rw [mark_absent hadmits hr] at h
    cases h
    exact Or.inl ⟨rfl, rfl⟩
  | some r =>
    cases hd : loadList r.deliveredJson with
    | error f =>
      rw [mark, checks_of_admits hadmits, hr] at h
      simp [hd, bind, Except.bind] at h
    | ok delivered =>
      rw [mark_present hs hadmits hr hd] at h
      cases h
      exact Or.inr ⟨r, delivered, rfl, hd, rfl⟩

/-- A claim succeeds exactly if the row is there and free, or claimed before the cutoff. -/
theorem claim_ok {s s' : Store} (hs : s.WellNumbered) {id : Int} {now : Calendar.Moment}
    {lease : Lease} {b : Bool} (h : claim id now lease s = .ok (b, s')) :
    s.Admits id ∧ ∃ claimedAt cutoff, staleCutoff now lease = .ok cutoff ∧
      ((b = true ∧ (∃ r, s.find? id = some r ∧ isClaimable cutoff r = true) ∧
          s' = s.modify id (Row.claimed claimedAt)) ∨
        (b = false ∧ (∀ r, s.find? id = some r → isClaimable cutoff r = false) ∧ s' = s)) := by
  simp only [claim, bind_eq_ok] at h
  obtain ⟨t, -, cutoff, hcutoff, h⟩ := h
  have hadmits : s.Admits id := admits_of_checks (by simpa only [bind_eq_ok] using h)
  obtain ⟨_, _, _, _, h⟩ := h
  refine ⟨hadmits, t.text, cutoff, hcutoff, ?_⟩
  split at h
  · rename_i hany
    cases h
    exact Or.inl ⟨rfl, (any_id_iff hs id _).mp hany, rfl⟩
  · rename_i hany
    cases h
    refine Or.inr ⟨rfl, fun r hr => ?_, rfl⟩
    rw [any_id_iff hs] at hany
    simpa using fun hc => hany ⟨r, hr, hc⟩

/-! ## Operations that concern other rows or none -/

theorem record_ok {s s' : Store} {now : Calendar.Instant} {entry : Entry} {u : Unit}
    (h : record now entry s = .ok (u, s')) :
    s'.rows = s.rows ∧ s'.lastId = s.lastId ∧ s'.closed = s.closed := by
  simp only [record, bind_eq_ok] at h
  obtain ⟨_, _, event, _, h⟩ := h
  cases h
  exact ⟨rfl, rfl, rfl⟩

theorem cancel_ok {s s' : Store} {id : Int} {b : Bool} (h : cancel id s = .ok (b, s')) :
    s' = s.remove fun r => r.id == id && r.claimedAt.isNone := by
  simp only [cancel, bind_eq_ok] at h
  obtain ⟨_, _, _, _, h⟩ := h
  cases h
  rfl

theorem cancelAll_ok {s s' : Store} {automationId : Value} {n : Nat}
    (h : cancelAll automationId s = .ok (n, s')) :
    ∃ key, s' = s.remove fun r => r.automationId.agrees key && r.claimedAt.isNone := by
  simp only [cancelAll, bind_eq_ok] at h
  obtain ⟨_, _, key, _, h⟩ := h
  cases h
  exact ⟨key.toInteger, rfl⟩

end Store

/-- What a row holds of the draft that it was made of. -/
structure Row.Holds (r : Row) (draft : Draft) (t : Calendar.Instant) (items : List Value) : Prop where
  automationId : ∃ cell, Cell.ofParameter 2 draft.automationId = .ok cell ∧
    r.automationId = cell.toInteger
  title : ∀ title, draft.title = .text title → r.title = title
  body : ∀ body, draft.body = .text body → r.body = body
  recipients : r.recipientsJson = Json.write (.list items)
  delivered : r.deliveredJson = Json.write (.list [])
  scheduledAt : r.scheduledAt = t.text
  free : r.claimedAt = none
  attempts : r.attempts = 0

namespace Row.Holds
variable {r : Row} {draft : Draft} {t : Calendar.Instant} {items : List Value}
  {automationId : Option Int} {recipients : List String}

theorem automation (h : r.Holds draft t items)
    (hautomation : draft.automationId = .ofOptionInt automationId) :
    (automationId = none ∧ r.automationId = .null) ∨
      ∃ n, automationId = some n ∧ r.automationId = .int n ∧ Cell.isWord n = true := by
  obtain ⟨cell, hcell, hr⟩ := h.automationId
  rw [hautomation] at hcell
  cases automationId with
  | none =>
    cases hcell
    exact Or.inl ⟨rfl, hr⟩
  | some n =>
    simp only [Value.ofOptionInt, Cell.ofParameter] at hcell
    split at hcell
    · rename_i hword
      cases hcell
      exact Or.inr ⟨n, rfl, hr, hword⟩
    · cases hcell

theorem reads_automation (h : r.Holds draft t items)
    (hautomation : draft.automationId = .ofOptionInt automationId) :
    r.automationId.toInt? = .ok automationId := by
  rcases h.automation hautomation with ⟨rfl, hnull⟩ | ⟨n, rfl, hint, -⟩
  · rw [hnull]
    rfl
  · rw [hint]
    rfl

theorem reads_recipients (h : r.Holds draft t (recipients.map Value.text)) :
    loadList r.recipientsJson = .ok recipients :=
  h.recipients ▸ loadList_write_texts recipients

theorem notes (h : r.Holds draft t items) : r.Notes [] := by
  rw [Notes, h.delivered]
  exact loadList_write_texts []

end Row.Holds

namespace Store

theorem draftRow_ok {id : Int} {now t : Calendar.Instant} {draft : Draft} {items : List Value} {row : Row}
    (h : draftRow id now draft t items = .ok row) : row.id = id ∧ row.Holds draft t items := by
  simp only [draftRow, bind_eq_ok] at h
  obtain ⟨cell, hcell, _, htitle, _, hbody, _, htext, _, htext', hrow⟩ := h
  cases hrow
  refine ⟨rfl, ⟨cell, hcell, rfl⟩, ?_, ?_, rfl, rfl, rfl, rfl, rfl⟩
  · intro title hdraft
    rw [hdraft] at htitle
    cases htitle
    cases htext
    rfl
  · intro body hdraft
    rw [hdraft] at hbody
    cases hbody
    cases htext'
    rfl

/-- What is stored is a row of the draft, with the next number. -/
theorem create_row {s s' : Store} {now : Calendar.Instant} {draft : Draft} {id : Int}
    (h : create now draft s = .ok (id, s')) :
    ∃ t items row, instantOf draft.scheduledAt = .ok t ∧ draft.recipients.toItems = .ok items ∧
      row.Holds draft t items ∧ s' = s.insertLast row ∧ row.id = id ∧ id = s.lastId + 1 ∧
      Cell.isWord id = true := by
  simp only [create, bind_eq_ok] at h
  obtain ⟨t, ht, _, -, items, hitems, row, hrow, _, hroom, h⟩ := h
  cases h
  obtain ⟨hid, hrow⟩ := draftRow_ok hrow
  refine ⟨t, items, row, ht, hitems, hrow, ?_, hid, rfl, ?_⟩
  · rw [insertLast, hid]
  · rw [checkRoom] at hroom
    split at hroom
    · assumption
    · cases hroom

theorem create_open {s : Store} {now : Calendar.Instant} {draft : Draft} {result : Int × Store}
    (h : create now draft s = .ok result) : s.closed = false := by
  simp only [create, bind_eq_ok, checkOpen] at h
  obtain ⟨_, -, _, hopen, -⟩ := h
  split at hopen
  · cases hopen
  · rename_i hclosed
    simpa using hclosed

theorem create_ok {s s' : Store} {now : Calendar.Instant} {draft : Draft} {id : Int}
    (h : create now draft s = .ok (id, s')) :
    ∃ items row, draft.recipients.toItems = .ok items ∧ s' = s.insertLast row ∧ row.id = id ∧
      id = s.lastId + 1 ∧ row.recipientsJson = Json.write (.list items) ∧
      row.deliveredJson = Json.write (.list []) ∧ row.attempts = 0 ∧ row.claimedAt = none := by
  obtain ⟨_, items, row, -, hitems, hrow, hs', hid, hnew, -⟩ := create_row h
  exact ⟨items, row, hitems, hs', hid, hnew, hrow.recipients, hrow.delivered, hrow.attempts, hrow.free⟩

/-! ## Listing -/

theorem mapM_pending_ok {rows : List Row} {due : List Pending}
    (h : rows.mapM Row.pending = .ok due) :
    due.map (·.id) = rows.map (·.id) ∧ ∀ p ∈ due, ∃ r ∈ rows, r.pending = .ok p := by
  induction rows generalizing due with
  | nil =>
    cases h
    simp
  | cons r rows ih =>
    rw [List.mapM_cons, bind_eq_ok] at h
    obtain ⟨p, hp, h⟩ := h
    rw [bind_eq_ok] at h
    obtain ⟨due, hdue, h⟩ := h
    cases h
    obtain ⟨hids, hmem⟩ := ih hdue
    refine ⟨by simp [hids, (Row.pending_ok hp).1], fun q hq => ?_⟩
    rcases List.mem_cons.mp hq with rfl | hq
    · exact ⟨r, List.mem_cons_self, hp⟩
    · obtain ⟨r', hr', hq'⟩ := hmem q hq
      exact ⟨r', List.mem_cons_of_mem r hr', hq'⟩

theorem takeLimit_sublist (limit : Int) (rows : List Row) :
    (takeLimit limit rows).Sublist rows := by
  unfold takeLimit
  split
  · exact List.Sublist.refl _
  · exact List.take_sublist _ _

theorem dueRows_of_sorted {rows : List Row}
    (h : rows.Pairwise fun r r' => scheduledBefore r r' = true) (now cutoff : String)
    (retryLimit limit : Int) :
    dueRows now cutoff retryLimit limit rows =
      takeLimit limit (rows.filter (isDue now cutoff retryLimit)) := by
  rw [dueRows, List.mergeSort_of_pairwise (h.sublist List.filter_sublist)]

theorem mem_dueRows {rows : List Row} {now cutoff : String} {retryLimit limit : Int} {r : Row}
    (h : r ∈ dueRows now cutoff retryLimit limit rows) :
    r ∈ rows ∧ isDue now cutoff retryLimit r = true :=
  List.mem_filter.mp ((List.mergeSort_perm _ _).mem_iff.mp ((takeLimit_sublist limit _).subset h))

/-- Listed messages show rows of the store that may be tried once more. -/
theorem listDue_ok {s : Store} (hs : s.WellNumbered) {now : Calendar.Moment}
    {retryLimit limit : Int} {lease : Lease} {due : List Pending}
    (h : s.listDue now retryLimit limit lease = .ok due) :
    (due.map (·.id)).Nodup ∧
      ∀ p ∈ due, ∃ r, s.find? p.id = some r ∧ r.pending = .ok p ∧ r.attempts < retryLimit := by
  simp only [listDue, bind_eq_ok] at h
  obtain ⟨t, _, cutoff, _, _, _, _, _, _, _, h⟩ := h
  obtain ⟨hids, hmem⟩ := mapM_pending_ok h
  have hsub := takeLimit_sublist limit
    ((s.rows.filter (isDue t.text cutoff retryLimit)).mergeSort scheduledBefore)
  have hperm := List.mergeSort_perm (s.rows.filter (isDue t.text cutoff retryLimit)) scheduledBefore
  constructor
  · rw [hids]
    exact ((hperm.map _).nodup_iff.mpr
      (hs.nodup.sublist (List.filter_sublist.map _))).sublist (hsub.map _)
  · intro p hp
    obtain ⟨r, hr, hpending⟩ := hmem p hp
    obtain ⟨hmem, hdue⟩ := mem_dueRows hr
    refine ⟨r, (Row.pending_ok hpending).1 ▸ find?_of_mem hs hmem, hpending, ?_⟩
    simp only [isDue, Bool.and_eq_true, decide_eq_true_eq] at hdue
    exact hdue.2

/-! ## Leases that are off -/

theorem staleCutoff_off {lease : Lease} (h : lease.isOff = true) (now : Calendar.Moment) :
    staleCutoff now lease = .ok "" := by
  rw [staleCutoff, if_pos h]

theorem isClaimable_off (r : Row) : isClaimable "" r = true ↔ r.claimedAt = none := by
  unfold isClaimable
  split
  · simp_all
  · rename_i claimedAt hclaimed
    have hlt : ¬ claimedAt < "" := by
      rw [String.lt_iff]
      exact List.not_lt_nil _
    simp [hlt, hclaimed]

end Store

end Outbox

end Courier
