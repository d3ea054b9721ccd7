import Courier.Outbox.File
import Courier.Proofs.Outbox.History

/-!
# What a store shows

Many texts stand for the empty list of recipients that were reached. No operation tells them apart: a
store and its canonical form, in which each such text is the one of a new row, give the same replies
however they are used.
-/

namespace Courier.Outbox

open Calendar (Instant Moment)

/-! ## Canonical rows -/

/-- The text that a new row has for no recipients, in place of any other that stands for none. -/
def canonicalList (raw : String) : String :=
  match loadList raw with
  | .ok [] => "[]"
  | _ => raw

theorem loadList_brackets : loadList "[]" = .ok [] :=
  loadList_write_texts []

theorem canonicalList_of_empty {raw : String} (h : loadList raw = .ok []) :
    canonicalList raw = "[]" := by
  rw [canonicalList, h]

@[simp] theorem loadList_canonicalList (raw : String) :
    loadList (canonicalList raw) = loadList raw := by
  unfold canonicalList
  split
  · rename_i h
    rw [h, loadList_brackets]
  · rfl

@[simp] theorem canonicalList_appendedText (items : List String) (recipient : String) :
    canonicalList (Store.appendedText items (.text recipient)) =
      Store.appendedText items (.text recipient) := by
  have hload : loadList (Store.appendedText items (.text recipient)) = .ok (items ++ [recipient]) := by
    rw [Store.appendedText]
    have htexts := loadList_write_texts (items ++ [recipient])
    rwa [List.map_append] at htexts
  -- A list with a recipient in it does not stand for none, so its text is left as it is.
  unfold canonicalList
  split
  · rename_i h
    simp [hload] at h
  · rfl

def Row.canonical (r : Row) : Row :=
  { r with deliveredJson := canonicalList r.deliveredJson }

/-- A row and its canonical form stand for the same message. -/
@[simp] theorem Row.pending_canonical (r : Row) : r.canonical.pending = r.pending := by
  simp only [pending, canonical, loadList_canonicalList]

namespace Store

def canonical (s : Store) : Store :=
  { s with rows := s.rows.map Row.canonical }

variable (s : Store)

theorem rows_canonical : s.canonical.rows = s.rows.map Row.canonical :=
  rfl

theorem checkOpen_canonical : s.canonical.checkOpen = s.checkOpen :=
  rfl

@[simp] theorem find?_canonical (id : Int) :
    s.canonical.find? id = (s.find? id).map Row.canonical := by
  rw [find?, canonical, List.find?_map]
  rfl

theorem modify_canonical (id : Int) {change : Row → Row}
    (hchange : ∀ r : Row, change r.canonical = (change r).canonical) :
    s.canonical.modify id change = (s.modify id change).canonical := by
  simp only [modify, canonical, List.map_map]
  congr 1
  refine List.map_congr_left fun r _ => ?_
  have hid : r.canonical.id = r.id := rfl
  by_cases hr : r.id = id
  · simp [hid, hr, hchange]
  · simp [hid, hr]

theorem remove_canonical {p : Row → Bool} (hp : ∀ r, p r.canonical = p r) :
    s.canonical.remove p = (s.remove p).canonical := by
  simp only [remove, canonical, List.filter_map]
  congr 2
  exact List.filter_congr fun r _ => by simp [hp]

theorem any_canonical {p : Row → Bool} (hp : ∀ r, p r.canonical = p r) :
    s.canonical.rows.any p = s.rows.any p := by
  simp only [canonical, List.any_map]
  congr 1
  exact funext hp

/-! ## Operations on canonical forms -/

/-- An operation does to the canonical form what it does to the store, with the same result. -/
def Respects {α : Type} (operation : Operation α) : Prop :=
  ∀ s, operation s.canonical = (operation s).map fun result => (result.1, result.2.canonical)

section respects
variable {α β : Type}

theorem respects_ok {value : Store → α} {next : Store → Store}
    (hvalue : ∀ s, value s.canonical = value s) (hnext : ∀ s, next s.canonical = (next s).canonical) :
    Respects fun s => .ok (value s, next s) := by
  intro s
  dsimp only
  rw [hvalue, hnext]
  rfl

theorem Respects.bind {x : Store → Except Failure β} {operation : β → Operation α}
    (hx : ∀ s, x s.canonical = x s) (h : ∀ b, (∃ s, x s = .ok b) → Respects (operation b)) :
    Respects fun s => x s >>= fun b => operation b s := by
  intro s
  dsimp only
  rw [hx]
  cases hs : x s with
  | error f => rfl
  | ok b => exact h b ⟨s, hs⟩ s

/-- An operation that begins with a check of its arguments or of the store. -/
theorem Respects.checked {x : Store → Except Failure β} {operation : β → Operation α}
    (hx : ∀ s, x s.canonical = x s) (h : ∀ b, Respects (operation b)) :
    Respects fun s => x s >>= fun b => operation b s :=
  Respects.bind hx fun b _ => h b

/-- An operation on a single row. -/
theorem Respects.admitted {id : Int} {operation : Operation α} (h : Respects operation) :
    Respects fun s => (do s.checkOpen; checkWord id; operation s) :=
  .checked checkOpen_canonical fun _ => .checked (fun _ => rfl) fun _ => h

end respects

theorem canonical_of_draftRow {id : Int} {now : Instant} {draft : Draft} {t : Instant}
    {items : List Value} {row : Row} (h : draftRow id now draft t items = .ok row) :
    row.canonical = row := by
  simp only [draftRow, bind_eq_ok] at h
  obtain ⟨_, -, _, -, _, -, _, -, _, -, h⟩ := h
  cases h
  simp only [Row.canonical, canonicalList_of_empty loadList_brackets]

theorem respects_create (now : Instant) (draft : Draft) : Respects (create now draft) := by
  refine .checked (fun _ => rfl) fun scheduledAt => .checked checkOpen_canonical fun _ =>
    .checked (fun _ => rfl) fun items => .bind (fun _ => rfl) fun row ⟨s, hrow⟩ =>
    .checked (fun _ => rfl) fun _ => respects_ok (fun _ => rfl) fun s => ?_
  simp only [canonical, List.map_append, List.map_cons, List.map_nil, canonical_of_draftRow hrow]

theorem respects_claim (id : Int) (now : Moment) (lease : Lease) : Respects (claim id now lease) := by
  refine .checked (fun _ => rfl) fun t => .checked (fun _ => rfl) fun cutoff =>
    .checked checkOpen_canonical fun _ => .checked (fun _ => rfl) fun _ => ?_
  intro s
  dsimp only
  rw [s.any_canonical fun _ => rfl]
  split
  · exact congrArg (fun st => Except.ok (true, st)) (s.modify_canonical id fun _ => rfl)
  · rfl

theorem respects_unclaim (id : Int) : Respects (unclaim id) := by
  refine .admitted ?_
  exact respects_ok (fun _ => rfl) fun s => s.modify_canonical id fun _ => rfl

theorem respects_mark (id : Int) (recipient : String) : Respects (mark id (.text recipient)) := by
  refine .admitted ?_
  intro s
  dsimp only
  rw [find?_canonical]
  cases s.find? id with
  | none => rfl
  | some r =>
    simp only [Option.map_some, Row.canonical, loadList_canonicalList]
    cases loadList r.deliveredJson with
    | error f => rfl
    | ok delivered =>
      have happended (r : Row) :
          { r.canonical with deliveredJson := appendedText delivered (.text recipient) } =
            Row.canonical { r with deliveredJson := appendedText delivered (.text recipient) } := by
        simp only [Row.canonical, canonicalList_appendedText]
      simp only [bind, Except.bind]
      split
      · rfl
      · exact congrArg (fun st => Except.ok ((), st)) (s.modify_canonical id happended)

theorem respects_complete (id : Int) : Respects (complete id) := by
  refine .admitted ?_
  exact respects_ok (fun _ => rfl) fun s => s.remove_canonical fun _ => rfl

theorem respects_release (id : Int) (errorText : String) : Respects (release id errorText) := by
  refine .admitted ?_
  have hmodify (s : Store) : s.canonical.modify id (Row.failed errorText) =
      (s.modify id (Row.failed errorText)).canonical := s.modify_canonical id fun _ => rfl
  refine respects_ok (fun s => ?_) hmodify
  have hfound := (s.modify id (Row.failed errorText)).find?_canonical id
  rw [← hmodify s] at hfound
  change (((s.canonical.modify id (Row.failed errorText)).find? id).map (·.attempts)).getD 0 = _
  rw [hfound, Option.map_map]
  rfl

theorem respects_cancel (id : Int) : Respects (cancel id) := by
  refine .admitted ?_
  exact respects_ok (fun s => s.any_canonical fun _ => rfl) fun s => s.remove_canonical fun _ => rfl

theorem respects_cancelAll (automationId : Value) : Respects (cancelAll automationId) := by
  refine .checked checkOpen_canonical fun _ => .checked (fun _ => rfl) fun key => ?_
  refine respects_ok (fun s => ?_) fun s => s.remove_canonical fun _ => rfl
  simp only [canonical, List.filter_map, List.length_map]
  rfl

theorem respects_record (now : Instant) (entry : Entry) : Respects (record now entry) := by
  refine .checked checkOpen_canonical fun _ => .checked (fun _ => rfl) fun event => ?_
  exact respects_ok (fun _ => rfl) fun _ => rfl

/-! ## Queries on canonical forms -/

theorem count_canonical (automationId : Value) : s.canonical.count automationId = s.count automationId := by
  simp only [count, checkOpen_canonical, rows_canonical, List.filter_map, List.length_map]
  rfl

theorem get?_canonical (id : Int) : s.canonical.get? id = s.get? id := by
  simp only [get?, checkOpen_canonical, find?_canonical]
  cases s.find? id with
  | none => rfl
  | some r => simp only [Option.map_some, Row.pending_canonical]

theorem dueRows_canonical (now cutoff : String) (retryLimit limit : Int) (rows : List Row) :
    dueRows now cutoff retryLimit limit (rows.map Row.canonical) =
      (dueRows now cutoff retryLimit limit rows).map Row.canonical := by
  have hfilter : (rows.map Row.canonical).filter (isDue now cutoff retryLimit) =
      (rows.filter (isDue now cutoff retryLimit)).map Row.canonical := List.filter_map
  have hsort (rows : List Row) : (rows.map Row.canonical).mergeSort scheduledBefore =
      (rows.mergeSort scheduledBefore).map Row.canonical :=
    (List.map_mergeSort (f := Row.canonical) fun _ _ _ _ => rfl).symm
  rw [dueRows, hfilter, hsort, dueRows]
  unfold takeLimit
  split
  · rfl
  · exact (List.map_take).symm

theorem listDue_canonical (now : Moment) (retryLimit limit : Int) (lease : Lease) :
    s.canonical.listDue now retryLimit limit lease = s.listDue now retryLimit limit lease := by
  have hpending (rows : List Row) :
      (rows.map Row.canonical).mapM Row.pending = rows.mapM Row.pending := by
    rw [List.mapM_map]
    exact congrArg (fun f => rows.mapM f) (funext Row.pending_canonical)
  simp only [listDue, checkOpen_canonical, rows_canonical, dueRows_canonical, hpending]

end Store

/-! ## Using a store -/

/-- What can be done with a store. -/
inductive Usage where
  | command (c : Command)
  | count (automationId : Value)
  | get (id : Int)
  | listDue (now : Moment) (retryLimit limit : Int) (lease : Lease)
  | record (now : Instant) (entry : Entry)
  | listEvents (limit : Value) (onlyError : Bool)
  | close
  /-- The store is opened again on its file. -/
  | reopen

inductive Reply where
  | answered (a : Answered)
  | counted (number : Except Failure Nat)
  | found (p : Except Failure (Option Pending))
  | listed (due : Except Failure (List Pending))
  | recorded (outcome : Except Failure Unit)
  | listedEvents (events : Except Failure (List (Event × Value)))
  | done

namespace Usage

def serve (s : Store) : Usage → Reply × Store
  | command c => (.answered (c.serve s).1, (c.serve s).2)
  | count automationId => (.counted (s.count automationId), s)
  | get id => (.found (s.get? id), s)
  | listDue now retryLimit limit lease => (.listed (s.listDue now retryLimit limit lease), s)
  | record now entry =>
    match Store.record now entry s with
    | .ok ((), s') => (.recorded (.ok ()), s')
    | .error f => (.recorded (.error f), s)
  | listEvents limit onlyError => (.listedEvents (s.listEvents limit onlyError), s)
  | close => (.done, s.close)
  | reopen => (.done, s.reopen true)

end Usage

namespace Store

def after (s : Store) (us : List Usage) : Store :=
  us.foldl (fun s u => (u.serve s).2) s

/-- The replies along a use of the store. -/
def replies (s : Store) : List Usage → List Reply
  | [] => []
  | u :: us => (u.serve s).1 :: (u.serve s).2.replies us

end Store

theorem Command.note_canonical {α : Type} {operation : Operation α} (h : Store.Respects operation)
    (told : α → Answered) (s : Store) :
    note operation told s.canonical =
      ((note operation told s).1, (note operation told s).2.canonical) := by
  rw [note, note, h s]
  cases operation s with
  | error f => rfl
  | ok result => rfl

theorem Command.serve_canonical (c : Command) (s : Store) :
    c.serve s.canonical = ((c.serve s).1, (c.serve s).2.canonical) := by
  cases c with
  | create now draft => exact note_canonical (Store.respects_create now draft) _ s
  | claim id now lease => exact note_canonical (Store.respects_claim id now lease) _ s
  | unclaim id => exact note_canonical (Store.respects_unclaim id) _ s
  | mark id recipient => exact note_canonical (Store.respects_mark id recipient) _ s
  | complete id => exact note_canonical (Store.respects_complete id) _ s
  | release id errorText => exact note_canonical (Store.respects_release id errorText) _ s
  | cancel id => exact note_canonical (Store.respects_cancel id) _ s
  | cancelAll automationId => exact note_canonical (Store.respects_cancelAll automationId) _ s

theorem Usage.serve_canonical (u : Usage) (s : Store) :
    u.serve s.canonical = ((u.serve s).1, (u.serve s).2.canonical) := by
  cases u with
  | command c => simp only [serve, c.serve_canonical s]
  | count automationId => simp only [serve, s.count_canonical]
  | get id => simp only [serve, s.get?_canonical]
  | listDue now retryLimit limit lease => simp only [serve, s.listDue_canonical]
  | record now entry =>
    simp only [serve, Store.respects_record now entry s]
    cases Store.record now entry s with
    | error f => rfl
    | ok result => rfl
  | listEvents | close | reopen => rfl

/-- However it is used, the canonical form gives the replies that the store gives. -/
theorem Store.replies_canonical (s : Store) (us : List Usage) : s.canonical.replies us = s.replies us := by
  induction us generalizing s with
  | nil => rfl
  | cons u us ih => rw [replies, replies, u.serve_canonical s, ih]

end Courier.Outbox
