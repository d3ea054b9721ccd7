import Courier.Proofs.Outbox.Usage
import Mathlib.Data.List.Forall2
import Mathlib.Data.List.Nodup
import Mathlib.Logic.Function.Iterate

/-!
# Opening databases of earlier releases

A database of an earlier release lacks columns. They are added one by one, and adding a column that is
there fails, so an opening has to look first which ones are missing. What results is a store of the
current release that holds the same rows, and it cannot be told from any other one that does.
-/

namespace Courier.Outbox

/-! ## Databases -/

namespace LateColumn

def name : LateColumn → String
  | claimedAt => "claimed_at_utc"
  | lastError => "last_error"
  | delivered => "delivered_json"

/-- The late columns, in the order in which they are added. -/
def all : List LateColumn :=
  [claimedAt, lastError, delivered]

theorem mem_all (column : LateColumn) : column ∈ all := by
  cases column <;> simp [all]

end LateColumn

/-- What a file holds: the messages, in a table that may lack late columns, and the audit log. What the
rows hold in columns that are missing is of no meaning. -/
structure Database where
  missing : List LateColumn
  rows : List Row
  lastId : Int
  events : List Event
  lastEventId : Int

namespace Database

/-- Adds a column with its value for the rows that are there. -/
def addColumn (db : Database) (column : LateColumn) : Except Failure Database :=
  if column ∈ db.missing then
    .ok { db with
      missing := db.missing.filter (· ≠ column)
      rows := db.rows.map (Row.addColumns [column]) }
  else .error (.storeFault ("duplicate column name: " ++ column.name))

/-- Adds the columns that are missing when the database is opened. -/
def renew (db : Database) : Except Failure Database :=
  (LateColumn.all.filter (· ∈ db.missing)).foldlM addColumn db

/-- The store that shows the database. -/
def store (db : Database) : Store :=
  ⟨db.rows, db.lastId, db.events, db.lastEventId, false⟩

end Database

/-- What the file of a store holds. -/
def Store.database (s : Store) : Database :=
  ⟨[], s.rows, s.lastId, s.events, s.lastEventId⟩

/-- The database of an earlier release, in which nothing was recorded. -/
def OldTable.database (t : OldTable) : Database :=
  ⟨t.missing, t.rows.mergeSort idBefore, greatestId t.rows, [], 0⟩

/-! ## Adding columns -/

theorem Row.addColumns_cons (column : LateColumn) (columns : List LateColumn) (r : Row) :
    (r.addColumns [column]).addColumns columns = r.addColumns (column :: columns) := by
  simp only [addColumns, List.contains_cons]
  cases column <;> simp

theorem Row.addColumns_congr {columns columns' : List LateColumn}
    (h : ∀ column, column ∈ columns ↔ column ∈ columns') (r : Row) :
    r.addColumns columns = r.addColumns columns' := by
  simp only [addColumns, List.contains_iff_mem, h]

namespace Database
variable {db : Database}

theorem foldlM_addColumn {columns : List LateColumn} (hnodup : columns.Nodup)
    (h : ∀ column ∈ columns, column ∈ db.missing) :
    columns.foldlM addColumn db = .ok { db with
      missing := db.missing.filter (· ∉ columns)
      rows := db.rows.map (Row.addColumns columns) } := by
  induction columns generalizing db with
  | nil =>
    have hrows : db.rows.map (Row.addColumns []) = db.rows := List.map_id _
    simp [hrows, pure, Except.pure]
  | cons column columns ih =>
    obtain ⟨hnew, hnodup⟩ := List.nodup_cons.mp hnodup
    have hadd : db.addColumn column = .ok { db with
        missing := db.missing.filter (· ≠ column)
        rows := db.rows.map (Row.addColumns [column]) } :=
      if_pos (h column List.mem_cons_self)
    -- No column comes twice, so each of the others is still missing when this one was added.
    rw [List.foldlM_cons, hadd]
    refine (ih hnodup fun column' hcolumn' => ?_).trans ?_
    · have hne : column' ≠ column := fun he => hnew (he ▸ hcolumn')
      simpa [hne] using h column' (List.mem_cons_of_mem column hcolumn')
    · have hrows : (Row.addColumns columns ∘ Row.addColumns [column]) =
          Row.addColumns (column :: columns) := funext (Row.addColumns_cons column columns)
      simp only [List.map_map, hrows, List.filter_filter, List.mem_cons, not_or, Bool.decide_and,
        Bool.and_comm]

/-- Opening a database adds all columns that are missing, and does nothing else. -/
theorem renew_eq (db : Database) :
    db.renew = .ok { db with missing := [], rows := db.rows.map (Row.addColumns db.missing) } := by
  have hmem (column : LateColumn) :
      column ∈ LateColumn.all.filter (· ∈ db.missing) ↔ column ∈ db.missing := by
    simp [column.mem_all]
  have hnodup : (LateColumn.all.filter (· ∈ db.missing)).Nodup :=
    List.Nodup.filter _ (by decide)
  have hfold := foldlM_addColumn hnodup fun column hcolumn => (hmem column).mp hcolumn
  have hnone : db.missing.filter (· ∉ LateColumn.all.filter (· ∈ db.missing)) = [] := by
    rw [List.filter_eq_nil_iff]
    intro column hcolumn
    simpa using (hmem column).mpr hcolumn
  have hrows : Row.addColumns (LateColumn.all.filter (· ∈ db.missing)) = Row.addColumns db.missing :=
    funext (Row.addColumns_congr hmem)
  rw [renew, hfold, hnone, hrows]

theorem renew_of_complete (h : db.missing = []) : db.renew = .ok db := by
  rw [renew, h]
  rfl

end Database

theorem OldTable.open_eq (t : OldTable) {db : Database} (h : t.database.renew = .ok db) :
    t.open = db.store := by
  rw [Database.renew_eq] at h
  cases h
  have hsort : (t.rows.map (Row.addColumns t.missing)).mergeSort idBefore =
      (t.rows.mergeSort idBefore).map (Row.addColumns t.missing) :=
    (List.map_mergeSort (f := Row.addColumns t.missing) fun _ _ _ _ => rfl).symm
  rw [OldTable.open, hsort]
  rfl

/-! ## Stores that hold the rows of a database -/

/-- A row of the current release that holds what a row of a database holds. A text or a list that the
database lacks is missing or empty. -/
structure Row.Renews (missing : List LateColumn) (r r' : Row) : Prop where
  others : { r' with
    claimedAt := r.claimedAt, lastError := r.lastError, deliveredJson := r.deliveredJson } = r
  claimedAt : r'.claimedAt = if .claimedAt ∈ missing then none else r.claimedAt
  lastError : r'.lastError = if .lastError ∈ missing then none else r.lastError
  delivered : if .delivered ∈ missing then r'.Notes [] else r'.deliveredJson = r.deliveredJson

namespace Row
variable {missing : List LateColumn} {r r' : Row}

theorem renews_addColumns (missing : List LateColumn) (r : Row) :
    Renews missing r (r.addColumns missing) := by
  refine ⟨rfl, ?_, ?_, ?_⟩
  · simp only [addColumns, List.contains_iff_mem]
  · simp only [addColumns, List.contains_iff_mem]
  · split
    · rename_i hmissing
      exact (congrArg loadList (if_pos (List.contains_iff_mem.mpr hmissing))).trans loadList_brackets
    · rename_i hthere
      exact if_neg (mt List.contains_iff_mem.mp hthere)

/-- Two such rows differ in nothing that is shown. -/
theorem Renews.canonical_eq {r₁ r₂ : Row} (h₁ : Renews missing r r₁) (h₂ : Renews missing r r₂) :
    r₁.canonical = r₂.canonical := by
  have hclaimedAt := h₁.claimedAt.trans h₂.claimedAt.symm
  have hlastError := h₁.lastError.trans h₂.lastError.symm
  have hothers := h₁.others.trans h₂.others.symm
  have hlist : canonicalList r₁.deliveredJson = canonicalList r₂.deliveredJson := by
    have hdelivered₁ := h₁.delivered
    have hdelivered₂ := h₂.delivered
    split at hdelivered₁
    · rename_i hmissing
      rw [if_pos hmissing] at hdelivered₂
      rw [canonicalList_of_empty hdelivered₁, canonicalList_of_empty hdelivered₂]
    · rename_i hthere
      rw [if_neg hthere] at hdelivered₂
      rw [hdelivered₁, hdelivered₂]
  cases r₁
  cases r₂
  simp_all [canonical]

theorem map_canonical_eq {rows rows₁ rows₂ : List Row}
    (h₁ : List.Forall₂ (Renews missing) rows rows₁) (h₂ : List.Forall₂ (Renews missing) rows rows₂) :
    rows₁.map canonical = rows₂.map canonical := by
  induction h₁ generalizing rows₂ with
  | nil =>
    cases h₂
    rfl
  | cons hr₁ _ ih =>
    cases h₂ with
    | cons hr₂ h₂ => rw [List.map_cons, List.map_cons, hr₁.canonical_eq hr₂, ih h₂]

end Row

/-- A store of the current release that holds what a database holds, row for row. -/
structure Database.HeldBy (db : Database) (s : Store) : Prop where
  rows : List.Forall₂ (Row.Renews db.missing) db.rows s.rows
  lastId : s.lastId = db.lastId
  events : s.events = db.events
  lastEventId : s.lastEventId = db.lastEventId
  isOpen : s.closed = false

namespace Database
variable {db db' : Database}

theorem heldBy_store (h : db.renew = .ok db') : db.HeldBy db'.store := by
  rw [renew_eq] at h
  cases h
  refine ⟨?_, rfl, rfl, rfl, rfl⟩
  exact List.forall₂_map_right_iff.mpr (List.forall₂_same.mpr fun r _ => r.renews_addColumns db.missing)

/-- Stores that hold the same database have the same canonical form. -/
theorem HeldBy.canonical_eq {s₁ s₂ : Store} (h₁ : db.HeldBy s₁) (h₂ : db.HeldBy s₂) :
    s₁.canonical = s₂.canonical := by
  have hrows : s₁.canonical.rows = s₂.canonical.rows := Row.map_canonical_eq h₁.rows h₂.rows
  have hlastId := h₁.lastId.trans h₂.lastId.symm
  have hevents := h₁.events.trans h₂.events.symm
  have hlastEventId := h₁.lastEventId.trans h₂.lastEventId.symm
  have hopen := h₁.isOpen.trans h₂.isOpen.symm
  cases s₁
  cases s₂
  simp_all [Store.canonical]

/-- Opening a database of an earlier release keeps every row with all its other values, and what is
missing becomes nothing or the empty list. From then on every use of the store gives the replies that
it gives on a store of the current release that holds the same. Opening the database again, any number
of times and whatever was done with it, changes nothing. -/
theorem renew_is_lossless (db : Database) :
    ∃ db', db.renew = .ok db' ∧ db.HeldBy db'.store ∧
      (∀ s, db.HeldBy s → ∀ us, db'.store.replies us = s.replies us) ∧
      (∀ us n, let s := db'.store.after us
        (fun opened => opened >>= renew)^[n] (.ok s.database) = .ok s.database ∧
          s.reopen true = s.database.store ∧ (s.closed = false → s.database.store = s)) ∧
      ∀ t : OldTable, t.database = db → t.open = db'.store := by
  have hheld := heldBy_store db.renew_eq
  refine ⟨_, db.renew_eq, hheld, fun s hs us => ?_, fun us n => ⟨?_, rfl, fun hopen => ?_⟩, ?_⟩
  · rw [← Store.replies_canonical, hheld.canonical_eq hs, Store.replies_canonical]
  · exact Function.iterate_fixed (renew_of_complete rfl) n
  · rw [store, Store.database, ← hopen]
  · rintro t rfl
    exact t.open_eq t.database.renew_eq

/-! ## Two reminders in an old database -/

def reminder (id : Int) (claimedAt : Option String) (deliveredJson : String) : Row where
  id := id
  createdAt := "2024-03-01T12:00:00+00:00"
  automationId := .int 7
  title := "Hello"
  body := "See you at five."
  recipientsJson := "[\"ann\"]"
  scheduledAt := "2024-03-01T17:00:00+00:00"
  claimedAt := claimedAt
  attempts := 1
  lastError := none
  deliveredJson := deliveredJson

/-- A table without the late columns. -/
def oldReminders : OldTable where
  missing := LateColumn.all
  rows := [reminder 4 (some "never") "", reminder 2 none "[\"ann\"]"]

/-- A store of the current release with the same messages, whose empty lists are written otherwise. -/
def reminders : Store :=
  ⟨[reminder 2 none "", reminder 4 none "[ ]"], 4, [], 0, false⟩

theorem rows_oldReminders :
    oldReminders.database.rows = [reminder 2 none "[\"ann\"]", reminder 4 (some "never") ""] := by
  simp [OldTable.database, oldReminders, List.mergeSort, idBefore, reminder]

/-- The messages are opened in the order of their numbers and used as the others. -/
theorem renew_is_lossless_reminders :
    oldReminders.open = ⟨[reminder 2 none "[]", reminder 4 none "[]"], 4, [], 0, false⟩ ∧
      ∀ us, oldReminders.open.replies us = reminders.replies us := by
  have hrenews (id : Int) (claimedAt : Option String) (raw raw' : String) (h : loadList raw' = .ok []) :
      Row.Renews LateColumn.all (reminder id claimedAt raw) (reminder id none raw') :=
    ⟨rfl, rfl, rfl, h⟩
  have hheld : oldReminders.database.HeldBy reminders := by
    refine ⟨?_, rfl, rfl, rfl, rfl⟩
    rw [rows_oldReminders]
    exact .cons (hrenews 2 _ _ _ rfl) (.cons (hrenews 4 _ _ _ rfl) .nil)
  obtain ⟨db, hrenew, -, hreplies, -, hopen⟩ := renew_is_lossless oldReminders.database
  have hstore := hopen oldReminders rfl
  rw [renew_eq, rows_oldReminders] at hrenew
  cases hrenew
  rw [hstore]
  exact ⟨rfl, hreplies reminders hheld⟩

end Database

end Courier.Outbox
