import Courier.Value.Basic
import Mathlib.Data.List.Basic
import Mathlib.Data.List.Nodup

/-!
# Entries and their keys

Setting a key that is there changes its value and nothing else, and a new key comes last. So no key occurs
twice, and of several values that are set for a key the last one counts.
-/

namespace Courier.Entries

variable {α : Type} {key : String} {entries : List (String × α)}

theorem insert_new (value : α) (h : key ∉ entries.map (·.1)) :
    insert key value entries = entries ++ [(key, value)] := by
  induction entries with
  | nil => rfl
  | cons e entries ih =>
    rw [List.map_cons, List.mem_cons, not_or] at h
    rw [insert, if_neg (Ne.symm h.1), ih h.2]
    rfl

theorem keys_insert (value : α) (h : key ∈ entries.map (·.1)) :
    (insert key value entries).map (·.1) = entries.map (·.1) := by
  induction entries with
  | nil => cases h
  | cons e entries ih =>
    rw [insert]
    split
    · rfl
    · rename_i hne
      rcases List.mem_cons.mp h with hkey | hkey
      · exact absurd hkey.symm hne
      · rw [List.map_cons, List.map_cons, ih hkey]

theorem nodup_insert (value : α) (h : (entries.map (·.1)).Nodup) :
    ((insert key value entries).map (·.1)).Nodup := by
  by_cases hkey : key ∈ entries.map (·.1)
  · rwa [keys_insert value hkey]
  · rw [insert_new value hkey, List.map_append]
    refine List.nodup_append.mpr ⟨h, List.nodup_singleton _, fun k hk k' hk' he => ?_⟩
    obtain rfl : k' = key := List.mem_singleton.mp hk'
    exact hkey (he ▸ hk)

theorem mem_insert {value : α} {e : String × α} (h : e ∈ insert key value entries) :
    e = (key, value) ∨ e ∈ entries := by
  induction entries with
  | nil => exact Or.inl (List.mem_singleton.mp h)
  | cons entry rest ih =>
    rw [insert] at h
    split at h
    · rename_i hkey
      rcases List.mem_cons.mp h with rfl | h
      · exact Or.inl (by rw [← hkey])
      · exact Or.inr (List.mem_cons_of_mem _ h)
    · rcases List.mem_cons.mp h with rfl | h
      · exact Or.inr List.mem_cons_self
      · exact (ih h).imp_right (List.mem_cons_of_mem _)

theorem isSome_get?_iff : (get? entries key).isSome = true ↔ key ∈ entries.map (·.1) := by
  simp [get?, List.find?_isSome]

theorem foldl_insert {pairs : List (String × α)} (h : ((entries ++ pairs).map (·.1)).Nodup) :
    pairs.foldl (fun entries pair => insert pair.1 pair.2 entries) entries = entries ++ pairs := by
  induction pairs generalizing entries with
  | nil => simp
  | cons pair pairs ih =>
    have hnew : pair.1 ∉ entries.map (·.1) := by
      rw [List.map_append, List.map_cons] at h
      intro hmem
      exact (List.nodup_append.mp h).2.2 _ hmem _ List.mem_cons_self rfl
    rw [List.foldl_cons, insert_new _ hnew, ih (by simpa using h)]
    simp

theorem ofList_of_nodup {pairs : List (String × α)} (h : (pairs.map (·.1)).Nodup) :
    ofList pairs = pairs :=
  foldl_insert (List.nil_append pairs ▸ h)

theorem nodup_foldl_insert (pairs : List (String × α)) (h : (entries.map (·.1)).Nodup) :
    ((pairs.foldl (fun entries pair => insert pair.1 pair.2 entries) entries).map (·.1)).Nodup := by
  induction pairs generalizing entries with
  | nil => exact h
  | cons pair pairs ih => exact ih (nodup_insert pair.2 h)

theorem nodup_ofList (pairs : List (String × α)) : ((ofList pairs).map (·.1)).Nodup :=
  nodup_foldl_insert pairs List.nodup_nil

theorem mem_foldl_insert {pairs : List (String × α)} {e : String × α}
    (h : e ∈ pairs.foldl (fun entries pair => insert pair.1 pair.2 entries) entries) :
    e ∈ entries ∨ e ∈ pairs := by
  induction pairs generalizing entries with
  | nil => exact Or.inl h
  | cons pair pairs ih =>
    rcases ih h with h | h
    · exact (mem_insert h).elim (fun he => Or.inr (he ▸ List.mem_cons_self)) Or.inl
    · exact Or.inr (List.mem_cons_of_mem pair h)

theorem mem_ofList {pairs : List (String × α)} {e : String × α} (h : e ∈ ofList pairs) : e ∈ pairs :=
  (mem_foldl_insert h).resolve_left List.not_mem_nil

theorem get?_foldl_insert (pairs entries : List (String × α)) (k : String) :
    get? (pairs.foldl (fun entries pair => insert pair.1 pair.2 entries) entries) k =
      ((pairs.reverse.find? fun e => e.1 == k).map (·.2)).or (get? entries k) := by
  induction pairs generalizing entries with
  | nil => rfl
  | cons pair pairs ih =>
    rw [List.foldl_cons, ih, List.reverse_cons, List.find?_append, get?_insert]
    cases pairs.reverse.find? fun e => e.1 == k with
    | some e => rfl
    | none => by_cases hk : pair.1 = k <;> simp [hk]

/-- Of entries with the same key the last one counts. -/
theorem get?_ofList (pairs : List (String × α)) (k : String) :
    get? (ofList pairs) k = (pairs.reverse.find? fun e => e.1 == k).map (·.2) := by
  rw [ofList, get?_foldl_insert]
  exact Option.or_none

end Courier.Entries
