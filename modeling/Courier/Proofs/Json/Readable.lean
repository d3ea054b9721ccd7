import Courier.Proofs.Json.RoundTrip

/-!
# What can be read

The values that are read of texts are exactly those that read back when they are written: values
without dates and moments, in whose objects no key comes twice and whose whole numbers are not too
long.
-/

namespace Courier

/-- A value that a JSON text can hold. -/
structure Value.IsJson (v : Value) : Prop where
  plain : v.Plain
  short : ¬ v.Overlong

namespace Value.IsJson

theorem null : IsJson .null :=
  ⟨.null, nofun⟩

theorem bool (b : Bool) : IsJson (.bool b) :=
  ⟨.bool b, nofun⟩

theorem float {x : Number.Binary64} (hx : x.IsProper) : IsJson (.float x) :=
  ⟨.float hx, nofun⟩

theorem text (s : String) : IsJson (.text s) :=
  ⟨.text s, nofun⟩

theorem int_iff (n : Int) : IsJson (.int n) ↔ (decimals n).length ≤ Number.digitLimit := by
  constructor
  · rintro ⟨-, hshort⟩
    exact Nat.le_of_not_lt fun hlong => hshort (.int hlong)
  · refine fun hlength => ⟨.int n, ?_⟩
    rintro (hlong | _ | _)
    exact Nat.not_lt.mpr hlength hlong

theorem list_iff (items : List Value) : IsJson (.list items) ↔ ∀ v ∈ items, v.IsJson := by
  constructor
  · rintro ⟨hplain, hshort⟩ v hv
    cases hplain with
    | list hplain => exact ⟨hplain v hv, fun hlong => hshort (.item hv hlong)⟩
  · refine fun h => ⟨.list fun v hv => (h v hv).plain, ?_⟩
    rintro (_ | ⟨hmem, hlong⟩ | _)
    exact (h _ hmem).short hlong

theorem object_iff (entries : List (String × Value)) :
    IsJson (.object entries) ↔
      (entries.map (·.1)).Nodup ∧ ∀ e ∈ entries, e.2.IsJson := by
  constructor
  · rintro ⟨hplain, hshort⟩
    cases hplain with
    | object hkeys hplain =>
      exact ⟨hkeys, fun e he => ⟨hplain e he, fun hlong => hshort (.entry he hlong)⟩⟩
  · rintro ⟨hkeys, h⟩
    refine ⟨.object hkeys fun e he => (h e he).plain, ?_⟩
    rintro (_ | _ | ⟨hmem, hlong⟩)
    exact (h _ hmem).short hlong

end Value.IsJson

namespace Json

/-! ## Numbers -/

theorem digitsValue_lt {ds : List Char} (h : ∀ c ∈ ds, isDigit c = true) :
    digitsValue ds < 10 ^ ds.length := by
  induction ds using List.reverseRecOn with
  | nil => decide
  | append_singleton ds c ih =>
    have hc := h c (by simp)
    have hds := ih fun d hd => h d (by simp [hd])
    have hstep : digitsValue (ds ++ [c]) = 10 * digitsValue ds + (c.toNat - '0'.toNat) := by
      simp [digitsValue]
    have hzero : '0'.toNat = 48 := rfl
    have hcode := toNat_of_isDigit hc
    rw [hstep, List.length_append, List.length_singleton, pow_succ]
    omega

theorem takeWhole_spec {cs whole rest : List Char} (h : takeWhole cs = some (whole, rest)) :
    whole ≠ [] ∧ ∀ c ∈ whole, isDigit c = true := by
  rw [takeWhole.eq_def] at h
  split at h
  · cases h
    exact ⟨List.cons_ne_nil _ _, fun c hc => List.mem_singleton.mp hc ▸ by decide⟩
  · split at h
    · rename_i hc
      cases h
      refine ⟨?_, fun d hd => List.all_eq_true.mp List.all_takeWhile d hd⟩
      rw [List.takeWhile_cons_of_pos hc]
      exact List.cons_ne_nil _ _
    · cases h
  · cases h

theorem isJson_of_readUnsignedNumber {negative : Bool} {start : Nat} {cs rest : List Char}
    {v : Value} (h : readUnsignedNumber negative start cs = .ok (v, rest)) : v.IsJson := by
  rw [readUnsignedNumber] at h
  cases htake : takeWhole cs with
  | none =>
    rw [htake] at h
    cases h
  | some taken =>
    obtain ⟨whole, behind⟩ := taken
    obtain ⟨hne, hdigits⟩ := takeWhole_spec htake
    rw [htake] at h
    dsimp only at h
    split at h
    · cases h
      exact .float (Number.Binary64.isProper_ofDecimal ..)
    split at h
    · cases h
    · rename_i hlimit
      cases h
      have hlength : (decimals (digitsValue whole)).length ≤ whole.length := by
        rw [decimals, Int.natAbs_natCast, Nat.length_toDigits_le_iff (by decide)
          (List.length_pos_iff.mpr hne)]
        exact digitsValue_lt hdigits
      rw [Value.IsJson.int_iff]
      have hsign : decimals (if negative then -(digitsValue whole : Int) else digitsValue whole) =
          decimals (digitsValue whole) := by
        split
        · rw [decimals, Int.natAbs_neg, decimals]
        · rfl
      rw [hsign]
      omega

theorem isJson_of_readAtom {cs rest : List Char} {v : Value} (h : readAtom cs = .ok (v, rest)) :
    v.IsJson := by
  rw [readAtom.eq_def] at h
  split at h
  case h_7 | h_8 => exact isJson_of_readUnsignedNumber h
  all_goals cases h
  · exact .null
  · exact .bool true
  · exact .bool false
  · exact .float trivial
  · exact .float trivial
  · exact .float trivial

/-! ## Values -/

/-- Whatever is read at a depth is a value that a text can hold. -/
structure ReadsJson (depth : Nat) : Prop where
  value : ∀ {cs v rest}, readValue depth cs = .ok (v, rest) → v.IsJson
  items : ∀ {read cs v rest}, (∀ w ∈ read, w.IsJson) →
    readItems depth read cs = .ok (v, rest) → v.IsJson
  entries : ∀ {read cs v rest}, (∀ e ∈ read, e.2.IsJson) →
    readEntries depth read cs = .ok (v, rest) → v.IsJson

theorem ok_of_bind {α β : Type} {x : Except Refusal α} {f : α → Except Refusal β} {b : β}
    (h : (x >>= f) = .ok b) : ∃ a, x = .ok a ∧ f a = .ok b := by
  cases x with
  | error r => cases h
  | ok a => exact ⟨a, rfl, h⟩

section step
variable {depth : Nat} (h : ReadsJson depth) {cs rest : List Char} {v : Value}
include h

theorem ReadsJson.value_succ (hread : readValue (depth + 1) cs = .ok (v, rest)) : v.IsJson := by
  rw [readValue.eq_def] at hread
  split at hread
  · contradiction
  · obtain ⟨_, -, hread⟩ := ok_of_bind hread
    cases hread
    exact .text _
  · rename_i hdepth
    cases hdepth
    split at hread
    · cases hread
      exact (Value.IsJson.list_iff []).mpr fun _ hv => absurd hv List.not_mem_nil
    · exact h.items (fun _ hv => absurd hv List.not_mem_nil) hread
  · rename_i hdepth
    cases hdepth
    split at hread
    · cases hread
      exact (Value.IsJson.object_iff []).mpr
        ⟨List.nodup_nil, fun _ he => absurd he List.not_mem_nil⟩
    · exact h.entries (fun _ he => absurd he List.not_mem_nil) hread
  · exact isJson_of_readAtom hread

theorem ReadsJson.items_succ {read : List Value} (hitems : ∀ w ∈ read, w.IsJson)
    (hread : readItems (depth + 1) read cs = .ok (v, rest)) : v.IsJson := by
  rw [readItems] at hread
  obtain ⟨⟨w, behind⟩, hw, hread⟩ := ok_of_bind hread
  have hall : ∀ x ∈ w :: read, x.IsJson := List.forall_mem_cons.mpr ⟨h.value hw, hitems⟩
  dsimp only at hread
  split at hread
  · cases hread
    rw [Value.IsJson.list_iff]
    exact fun x hx => hall x (List.mem_reverse.mp hx)
  · exact h.items hall hread
  · cases hread

theorem ReadsJson.entries_succ {read : List (String × Value)}
    (hentries : ∀ e ∈ read, e.2.IsJson)
    (hread : readEntries (depth + 1) read cs = .ok (v, rest)) : v.IsJson := by
  rw [readEntries.eq_def] at hread
  split at hread
  · contradiction
  · rename_i hdepth
    cases hdepth
    obtain ⟨⟨key, behind⟩, -, hread⟩ := ok_of_bind hread
    dsimp only at hread
    split at hread
    · obtain ⟨⟨w, behind'⟩, hw, hread⟩ := ok_of_bind hread
      have hall : ∀ e ∈ (String.ofList key, w) :: _, e.2.IsJson :=
        List.forall_mem_cons.mpr ⟨h.value hw, hentries⟩
      dsimp only at hread
      split at hread
      · cases hread
        rw [Value.IsJson.object_iff]
        refine ⟨Entries.nodup_ofList _, fun e he => hall e ?_⟩
        exact List.mem_reverse.mp (Entries.mem_ofList he)
      · exact h.entries hall hread
      · cases hread
    · cases hread
  · cases hread

end step

theorem readsJson (depth : Nat) : ReadsJson depth := by
  induction depth with
  | zero =>
    refine ⟨fun h => ?_, fun _ h => ?_, fun _ h => ?_⟩
    · simp [readValue] at h
    · simp [readItems] at h
    · simp [readEntries] at h
  | succ depth ih => exact ⟨ih.value_succ, ih.items_succ, ih.entries_succ⟩

theorem isJson_of_read {s : String} {v : Value} (h : read s = .ok v) : v.IsJson := by
  rw [read, readChars] at h
  split at h
  · cases h
  split at h
  · rename_i hwhole
    cases h
    obtain ⟨⟨w, rest⟩, hw, hrest⟩ := ok_of_bind hwhole
    dsimp only at hrest
    split at hrest
    · cases hrest
      exact (readsJson _).value hw
    · cases hrest
  · cases h

theorem read_write_of_isJson {v : Value} (h : v.IsJson) : read (write v) = .ok v :=
  read_write_of_not_overlong h.plain h.short

/-- What is read of some text is read of its own text. -/
theorem isJson_iff (v : Value) : v.IsJson ↔ ∃ s, read s = .ok v :=
  ⟨fun h => ⟨write v, read_write_of_isJson h⟩, fun ⟨_, h⟩ => isJson_of_read h⟩

end Json

end Courier
