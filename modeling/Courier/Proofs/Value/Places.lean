import Courier.Value.Basic
import Mathlib.Data.List.Basic

/-!
# Places in values

A place in a value is a path of steps, each from a list to one of its items or from an object to the
value of one of its entries. What a value shows at a place, without what stands further inside, is a
face: how many items, which keys, or the value itself if it has no parts. The faces at all places make
up the value.
-/

namespace Courier.Value

/-- A step from a value to a part of it. The step to the value of an entry has its key. -/
inductive Step where
  | item (i : Nat)
  | entry (i : Nat) (key : String)

/-- What a value shows without its parts. -/
inductive Face where
  | leaf (v : Value)
  | list (length : Nat)
  | object (keys : List String)

def face : Value → Face
  | .list items => .list items.length
  | .object entries => .object (entries.map (·.1))
  | v => .leaf v

def part? : Value → Step → Option Value
  | .list items, .item i => items[i]?
  | .object entries, .entry i key => entries[i]?.bind fun e => if e.1 = key then some e.2 else none
  | _, _ => none

/-- What stands at a place, if there is such a place. -/
def at? (v : Value) : List Step → Option Value
  | [] => some v
  | step :: path => (v.part? step).bind fun w => w.at? path

def faceAt (v : Value) (path : List Step) : Option Face :=
  (v.at? path).map face

theorem at?_append (v : Value) (path more : List Step) :
    v.at? (path ++ more) = (v.at? path).bind fun w => w.at? more := by
  induction path generalizing v with
  | nil => rfl
  | cons step path ih =>
    rw [List.cons_append, at?, at?, Option.bind_assoc]
    congr 1
    funext w
    exact ih w

theorem faceAt_cons (v : Value) (step : Step) (path : List Step) :
    v.faceAt (step :: path) = (v.part? step).bind fun w => w.faceAt path := by
  rw [faceAt, at?, Option.map_bind]
  rfl

theorem faceAt_item {items : List Value} {i : Nat} (hi : i < items.length) (path : List Step) :
    (Value.list items).faceAt (.item i :: path) = items[i].faceAt path := by
  rw [faceAt_cons, part?, List.getElem?_eq_getElem hi, Option.bind_some]

theorem faceAt_entry {entries : List (String × Value)} {i : Nat} (hi : i < entries.length)
    (path : List Step) :
    (Value.object entries).faceAt (.entry i entries[i].1 :: path) = entries[i].2.faceAt path := by
  rw [faceAt_cons, part?, List.getElem?_eq_getElem hi, Option.bind_some, if_pos rfl, Option.bind_some]

theorem eq_list_of_face {w : Value} {n : Nat} (h : w.face = .list n) :
    ∃ items, w = .list items ∧ items.length = n := by
  cases w with
  | list items => exact ⟨items, rfl, Face.list.inj h⟩
  | _ => cases h

theorem eq_object_of_face {w : Value} {keys : List String} (h : w.face = .object keys) :
    ∃ entries, w = .object entries ∧ entries.map (·.1) = keys := by
  cases w with
  | object entries => exact ⟨entries, rfl, Face.object.inj h⟩
  | _ => cases h

theorem eq_of_face_leaf {v w : Value} (h : w.face = .leaf v) : w = v := by
  cases w with
  | list | object => cases h
  | _ => exact Face.leaf.inj h

/-- Values that show the same at each place are the same. -/
theorem eq_of_faceAt (v w : Value) (h : ∀ path, w.faceAt path = v.faceAt path) : w = v := by
  have hface : w.face = v.face := Option.some.inj (h [])
  match v with
  | .list items =>
    obtain ⟨items', rfl, hlength⟩ := eq_list_of_face hface
    congr 1
    apply List.ext_getElem hlength
    intro i hi' hi
    apply eq_of_faceAt items[i] items'[i]
    intro path
    rw [← faceAt_item hi', ← faceAt_item hi, h]
  | .object entries =>
    obtain ⟨entries', rfl, hkeys⟩ := eq_object_of_face hface
    have hlength : entries'.length = entries.length := by simpa using congrArg List.length hkeys
    congr 1
    apply List.ext_getElem hlength
    intro i hi' hi
    have hkey : entries'[i].1 = entries[i].1 := by
      have hget := List.getElem_of_eq hkeys (by rwa [List.length_map] : i < (entries'.map (·.1)).length)
      simpa using hget
    refine Prod.ext hkey (eq_of_faceAt entries[i].2 entries'[i].2 fun path => ?_)
    rw [← faceAt_entry hi', ← faceAt_entry hi, h, hkey]
  | .null | .bool _ | .int _ | .float _ | .text _ | .date _ | .moment _ =>
    exact eq_of_face_leaf hface
termination_by sizeOf v
decreasing_by
  · have hmem := List.sizeOf_lt_of_mem (List.getElem_mem hi)
    rw [list.sizeOf_spec]
    omega
  · have hmem := List.sizeOf_lt_of_mem (List.getElem_mem hi)
    have hpair : sizeOf entries[i].2 < sizeOf entries[i] := by
      rcases entries[i] with ⟨key, value⟩
      simp only [Prod.mk.sizeOf_spec]
      omega
    rw [object.sizeOf_spec]
    omega

end Courier.Value
