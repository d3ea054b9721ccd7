import Courier.Outbox.Store

/-!
# Rows by their numbers

A store whose rows have distinct numbers, none above the last one given, is a map from numbers to
rows: `Store.find?` looks a row up. Each operation on the store is described by what it does to that
map, and by when it is refused.
-/

namespace Courier.Outbox

/-! ## Looking up -/

/-- The rows have distinct numbers, and none was given that is above the last one. -/
structure Store.WellNumbered (s : Store) : Prop where
  nodup : (s.rows.map (·.id)).Nodup
  le_lastId : ∀ r ∈ s.rows, r.id ≤ s.lastId

namespace Store

theorem wellNumbered_empty : empty.WellNumbered :=
  ⟨List.nodup_nil, fun _ h => absurd h List.not_mem_nil⟩

theorem mem_of_find? {s : Store} {id : Int} {r : Row} (h : s.find? id = some r) : r ∈ s.rows :=
  List.mem_of_find?_eq_some h

theorem id_of_find? {s : Store} {id : Int} {r : Row} (h : s.find? id = some r) : r.id = id := by
  simpa using List.find?_some h

theorem le_lastId_of_find? {s : Store} (h : s.WellNumbered) {id : Int} {r : Row}
    (hr : s.find? id = some r) : id ≤ s.lastId := by
  have hle := h.le_lastId r (mem_of_find? hr)
  rwa [id_of_find? hr] at hle

theorem find?_eq_none_iff {s : Store} {id : Int} :
    s.find? id = none ↔ ∀ r ∈ s.rows, r.id ≠ id := by
  simp [find?]

theorem find?_of_lt_lastId {s : Store} (h : s.WellNumbered) {id : Int} (hid : s.lastId < id) :
    s.find? id = none :=
  find?_eq_none_iff.mpr fun r hr => by
    have := h.le_lastId r hr
    omega

/-- In a list of rows with distinct numbers each row is the one of its number. -/
theorem find?_rows_of_mem {rows : List Row} (h : (rows.map (·.id)).Nodup) {r : Row}
    (hr : r ∈ rows) : rows.find? (fun r' => r'.id == r.id) = some r := by
  induction rows with
  | nil => exact absurd hr List.not_mem_nil
  | cons r' rows ih =>
    rw [List.map_cons, List.nodup_cons] at h
    rcases List.mem_cons.mp hr with rfl | hr
    · simp
    · have hne : r'.id ≠ r.id := fun he => h.1 (he ▸ List.mem_map_of_mem hr)
      simp [hne, ih h.2 hr]

theorem find?_of_mem {s : Store} (h : s.WellNumbered) {r : Row} (hr : r ∈ s.rows) :
    s.find? r.id = some r :=
  find?_rows_of_mem h.nodup hr

theorem any_id_iff {s : Store} (h : s.WellNumbered) (id : Int) (q : Row → Bool) :
    (s.rows.any fun r => r.id == id && q r) = true ↔ ∃ r, s.find? id = some r ∧ q r = true := by
  rw [List.any_eq_true]
  constructor
  · rintro ⟨r, hr, hq⟩
    obtain ⟨hid, hq⟩ : r.id = id ∧ q r = true := by simpa using hq
    exact ⟨r, hid ▸ find?_of_mem h hr, hq⟩
  · rintro ⟨r, hr, hq⟩
    exact ⟨r, mem_of_find? hr, by simp [id_of_find? hr, hq]⟩

/-! ## Changing and removing rows -/

/-- A change of a row that leaves its number. -/
def KeepsId (change : Row → Row) : Prop :=
  ∀ r, (change r).id = r.id

theorem map_id_modify {change : Row → Row} (hc : KeepsId change) (s : Store) (id : Int) :
    (s.modify id change).rows.map (·.id) = s.rows.map (·.id) := by
  rw [modify, List.map_map]
  refine List.map_congr_left fun r _ => ?_
  simp only [Function.comp_apply]
  split
  · exact hc r
  · rfl

theorem wellNumbered_modify {s : Store} (h : s.WellNumbered) {change : Row → Row}
    (hc : KeepsId change) (id : Int) : (s.modify id change).WellNumbered := by
  refine ⟨by rw [map_id_modify hc]; exact h.nodup, fun r hr => ?_⟩
  have hid : r.id ∈ (s.modify id change).rows.map (·.id) := List.mem_map_of_mem hr
  rw [map_id_modify hc] at hid
  obtain ⟨r', hr', he⟩ := List.mem_map.mp hid
  exact he ▸ h.le_lastId r' hr'

theorem find?_modify {change : Row → Row} (hc : KeepsId change) (s : Store) (id k : Int) :
    (s.modify id change).find? k =
      if k = id then (s.find? k).map change else s.find? k := by
  have hid : ((fun r : Row => r.id == k) ∘ fun r => if r.id = id then change r else r) =
      fun r => r.id == k := by
    funext r
    simp only [Function.comp_apply]
    split
    · rw [hc r]
    · rfl
  simp only [find?, modify, List.find?_map, hid]
  cases hr : s.rows.find? fun r => r.id == k with
  | none => simp
  | some r =>
    have hk : r.id = k := id_of_find? (s := s) hr
    simp only [Option.map_some, hk]
    split <;> rfl

theorem find?_modify_self {change : Row → Row} (hc : KeepsId change) (s : Store) (id : Int) :
    (s.modify id change).find? id = (s.find? id).map change := by
  rw [find?_modify hc, if_pos rfl]

theorem wellNumbered_remove {s : Store} (h : s.WellNumbered) (p : Row → Bool) :
    (s.remove p).WellNumbered :=
  ⟨h.nodup.sublist (List.filter_sublist.map _),
    fun r hr => h.le_lastId r (List.mem_filter.mp hr).1⟩

theorem find?_remove {s : Store} (h : s.WellNumbered) (p : Row → Bool) (k : Int) :
    (s.remove p).find? k = (s.find? k).filter fun r => !p r := by
  cases hk : s.find? k with
  | none =>
    rw [find?_eq_none_iff] at hk
    exact find?_eq_none_iff.mpr fun r hr => hk r (List.mem_filter.mp hr).1
  | some r =>
    have hr := mem_of_find? hk
    rw [← id_of_find? hk]
    cases hp : p r with
    | true =>
      rw [Option.filter_some_neg (by simp [hp]), find?_eq_none_iff]
      intro r' hr' he
      have hr'' := find?_of_mem h (List.mem_filter.mp hr').1
      rw [he, find?_of_mem h hr] at hr''
      cases hr''
      simp [remove, hp] at hr'
    | false =>
      rw [Option.filter_some_pos (by simp [hp])]
      exact find?_of_mem (wellNumbered_remove h p) (List.mem_filter.mpr ⟨hr, by simp [hp]⟩)

def insertLast (row : Row) (s : Store) : Store :=
  { s with rows := s.rows ++ [row], lastId := row.id }

theorem wellNumbered_insertLast {s : Store} (h : s.WellNumbered) {row : Row}
    (hrow : s.lastId < row.id) : (s.insertLast row).WellNumbered := by
  constructor
  · simp only [insertLast, List.map_append, List.map_cons, List.map_nil]
    refine List.nodup_append.mpr ⟨h.nodup, by simp, ?_⟩
    intro k hk k' hk'
    obtain ⟨r, hr, rfl⟩ := List.mem_map.mp hk
    have := h.le_lastId r hr
    simp only [List.mem_singleton] at hk'
    omega
  · intro r hr
    rcases List.mem_append.mp hr with hr | hr
    · have := h.le_lastId r hr
      simp only [insertLast]
      omega
    · simp only [List.mem_singleton] at hr
      exact hr ▸ Int.le_refl _

theorem find?_insertLast {s : Store} (h : s.WellNumbered) {row : Row} (hrow : s.lastId < row.id)
    (k : Int) : (s.insertLast row).find? k = if k = row.id then some row else s.find? k := by
  split
  · rename_i hk
    rw [hk]
    exact find?_of_mem (wellNumbered_insertLast h hrow) (by simp [insertLast])
  · rename_i hk
    simp [find?, insertLast, Ne.symm hk]

end Store

end Courier.Outbox
