import Courier.Proofs.Json.Numbers
import Courier.Proofs.Json.TextList
import Courier.Proofs.Value.Entries

/-!
# Reading what was written

A value of names, numbers, texts, lists and objects is written as a text that reads back as the same
value, unless one of its whole numbers has more digits than are read. Then nothing is read at all.
-/

namespace Courier

/-- A value without dates and moments, in whose objects no key comes twice. -/
inductive Value.Plain : Value → Prop where
  | null : Plain .null
  | bool (b : Bool) : Plain (.bool b)
  | int (n : Int) : Plain (.int n)
  | float {x : Number.Binary64} (hx : x.IsProper) : Plain (.float x)
  | text (s : String) : Plain (.text s)
  | list {items : List Value} (h : ∀ v ∈ items, Plain v) : Plain (.list items)
  | object {entries : List (String × Value)} (hkeys : (entries.map (·.1)).Nodup)
    (h : ∀ e ∈ entries, Plain e.2) : Plain (.object entries)

/-- A whole number in the value has too many digits to be read. -/
inductive Value.Overlong : Value → Prop where
  | int {n : Int} (h : Number.digitLimit < (decimals n).length) : Overlong (.int n)
  | item {items : List Value} {v : Value} (hmem : v ∈ items) (h : Overlong v) :
    Overlong (.list items)
  | entry {entries : List (String × Value)} {e : String × Value} (hmem : e ∈ entries)
    (h : Overlong e.2) : Overlong (.object entries)

mutual
theorem Value.isOverlong_iff : (v : Value) → (v.isOverlong = true ↔ v.Overlong)
  | .null | .bool _ | .float _ | .text _ | .date _ | .moment _ => by
    constructor
    · intro h
      cases h
    · intro h
      cases h
  | .int n => by
    rw [isOverlong, decide_eq_true_iff, Number.length_toString]
    constructor
    · exact fun h => .int h
    · rintro (h | _ | _)
      exact h
  | .list items => by
    rw [isOverlong, anyOverlong_iff items]
    constructor
    · rintro ⟨v, hmem, h⟩
      exact .item hmem h
    · rintro (_ | ⟨hmem, h⟩ | _)
      exact ⟨_, hmem, h⟩
  | .object entries => by
    rw [isOverlong, anyEntryOverlong_iff entries]
    constructor
    · rintro ⟨e, hmem, h⟩
      exact .entry hmem h
    · rintro (_ | _ | ⟨hmem, h⟩)
      exact ⟨_, hmem, h⟩

theorem Value.anyOverlong_iff : (items : List Value) →
    (anyOverlong items = true ↔ ∃ v ∈ items, v.Overlong)
  | [] => by simp [anyOverlong]
  | v :: rest => by
    rw [anyOverlong, Bool.or_eq_true, isOverlong_iff v, anyOverlong_iff rest, List.exists_mem_cons_iff]

theorem Value.anyEntryOverlong_iff : (entries : List (String × Value)) →
    (anyEntryOverlong entries = true ↔ ∃ e ∈ entries, e.2.Overlong)
  | [] => by simp [anyEntryOverlong]
  | (k, v) :: rest => by
    rw [anyEntryOverlong, Bool.or_eq_true, isOverlong_iff v, anyEntryOverlong_iff rest,
      List.exists_mem_cons_iff]
end

namespace Json

/-! ## Values -/

/-- The value is read from the front of a text, or refused because of a number in it. -/
def ReadsBack (v : Value) : Prop :=
  ∀ (depth : Nat) (rest : List Char), (write v).toList.length ≤ depth → EndsNumber rest →
    readValue depth ((write v).toList ++ rest) = .ok (v, rest) ∨
      (v.Overlong ∧ ∃ r, readValue depth ((write v).toList ++ rest) = .error r)

/-- A written value starts with no blank, no end of a list and no byte order mark. -/
theorem write_head {v : Value} (h : v.Plain) :
    ∃ c cs, (write v).toList = c :: cs ∧ isSpace c = false ∧ c ≠ ']' ∧ c ≠ '\uFEFF' := by
  cases h with
  | null => exact ⟨'n', _, rfl, by decide⟩
  | bool b =>
    cases b
    · exact ⟨'f', _, rfl, by decide⟩
    · exact ⟨'t', _, rfl, by decide⟩
  | int n =>
    obtain ⟨c, cs, hcs, hc⟩ := write_int_head n
    exact ⟨c, cs, hcs, hc.not_space, hc.ne rfl (by decide), hc.ne rfl (by decide)⟩
  | float hx =>
    obtain ⟨c, cs, hcs, hc⟩ := writeFloat_head hx
    exact ⟨c, cs, hcs, hc.not_space, hc.ne rfl (by decide), hc.ne rfl (by decide)⟩
  | text s => exact ⟨'"', _, by simp [write, writeText, writeChars]; rfl, by decide⟩
  | list => exact ⟨'[', _, by simp [write]; rfl, by decide⟩
  | object => exact ⟨'\x7b', _, by simp [write]; rfl, by decide⟩

theorem skip_write {v : Value} (h : v.Plain) (rest : List Char) :
    skip ((write v).toList ++ rest) = (write v).toList ++ rest := by
  obtain ⟨c, cs, hc, hspace, -⟩ := write_head h
  simp [skip, hc, hspace]

theorem readsBack_text (s : String) : ReadsBack (.text s) := by
  intro depth rest hdepth _
  have hlength : (write (.text s)).toList = writeChars s.toList := by simp [write, writeText]
  rw [hlength] at hdepth ⊢
  obtain ⟨depth, rfl⟩ : ∃ k, depth = k + 1 := ⟨depth - 1, by simp [writeChars] at hdepth; omega⟩
  exact Or.inl (readValue_text depth s rest)

/-! ## Lists -/

def joined (parts : List (List Char)) : List Char :=
  [',', ' '].intercalate parts

theorem joined_cons_cons (part part' : List Char) (parts : List (List Char)) :
    joined (part :: part' :: parts) = part ++ ',' :: ' ' :: joined (part' :: parts) := by
  simp [joined]

theorem joined_singleton (part : List Char) : joined [part] = part := by
  simp [joined]

theorem exists_joined (part : List Char) (parts : List (List Char)) :
    ∃ tail, joined (part :: parts) = part ++ tail := by
  cases parts with
  | nil => exact ⟨[], by simp [joined]⟩
  | cons part' parts => exact ⟨_, joined_cons_cons part part' parts⟩

def writtenItems (items : List Value) : List (List Char) :=
  items.map fun v => (write v).toList

theorem toList_write_list (items : List Value) :
    (write (.list items)).toList = '[' :: joined (writtenItems items) ++ [']'] := by
  have hitems : (writeItems items).map String.toList = writtenItems items := by
    induction items with
    | nil => rfl
    | cons v items ih => simp [writeItems, writtenItems, ih]
  simp [write, joined, hitems]

section items
variable {depth : Nat} {read : List Value} {cs rest : List Char} {v : Value}

theorem readItems_end (h : readValue depth cs = .ok (v, ']' :: rest)) :
    readItems (depth + 1) read cs = .ok (.list (v :: read).reverse, rest) := by
  rw [readItems, h]
  rfl

theorem readItems_comma (h : readValue depth cs = .ok (v, ',' :: ' ' :: rest))
    (hrest : skip rest = rest) : readItems (depth + 1) read cs = readItems depth (v :: read) rest := by
  rw [readItems, h]
  exact congrArg (readItems depth (v :: read)) hrest

theorem readItems_error {r : Refusal} (h : readValue depth cs = .error r) :
    readItems (depth + 1) read cs = .error r := by
  rw [readItems, h]
  rfl

end items

theorem skip_joined {part : List Char} {parts : List (List Char)}
    (h : ∀ rest, skip (part ++ rest) = part ++ rest) (rest : List Char) :
    skip (joined (part :: parts) ++ rest) = joined (part :: parts) ++ rest := by
  obtain ⟨tail, htail⟩ := exists_joined part parts
  rw [htail, List.append_assoc]
  exact h _

theorem readItems_written (depth : Nat) (read items : List Value) (v : Value) (rest : List Char)
    (hplain : ∀ w ∈ v :: items, w.Plain) (h : ∀ w ∈ v :: items, ReadsBack w)
    (hdepth : (joined (writtenItems (v :: items))).length < depth) :
    readItems depth read (joined (writtenItems (v :: items)) ++ ']' :: rest) =
        .ok (.list (read.reverse ++ v :: items), rest) ∨
      ((∃ w ∈ v :: items, w.Overlong) ∧
        ∃ r, readItems depth read (joined (writtenItems (v :: items)) ++ ']' :: rest) = .error r) := by
  induction items generalizing depth read v with
  | nil =>
    obtain ⟨depth, rfl⟩ : ∃ k, depth = k + 1 := ⟨depth - 1, by omega⟩
    simp only [writtenItems, List.map_cons, List.map_nil, joined_singleton] at hdepth ⊢
    rcases h v List.mem_cons_self depth (']' :: rest) (by omega)
      (endsNumber_cons (by decide) rest) with hread | ⟨hlong, r, hread⟩
    · left
      rw [readItems_end hread]
      simp
    · exact Or.inr ⟨⟨v, List.mem_cons_self, hlong⟩, r, readItems_error hread⟩
  | cons w items ih =>
    have hlength : (joined (writtenItems (v :: w :: items))).length =
        (write v).toList.length + (joined (writtenItems (w :: items))).length + 2 := by
      simp only [writtenItems, List.map_cons, joined_cons_cons, List.length_append, List.length_cons]
      omega
    obtain ⟨depth, rfl⟩ : ∃ k, depth = k + 1 := ⟨depth - 1, by omega⟩
    have hrest := ih depth (v :: read) w (fun x hx => hplain x (List.mem_cons_of_mem v hx))
      (fun x hx => h x (List.mem_cons_of_mem v hx)) (by omega)
    have hskip : skip (joined (writtenItems (w :: items)) ++ ']' :: rest) =
        joined (writtenItems (w :: items)) ++ ']' :: rest :=
      skip_joined (skip_write (hplain w (by simp))) _
    have hfront : joined (writtenItems (v :: w :: items)) ++ ']' :: rest =
        (write v).toList ++ ',' :: ' ' :: (joined (writtenItems (w :: items)) ++ ']' :: rest) := by
      simp only [writtenItems, List.map_cons, joined_cons_cons, List.append_assoc, List.cons_append]
    rw [hfront]
    rcases h v List.mem_cons_self depth _ (by omega)
      (endsNumber_cons (c := ',') (by decide) _) with hread | ⟨hlong, r, hread⟩
    · rw [readItems_comma hread hskip]
      rcases hrest with hrest | ⟨⟨x, hx, hlong⟩, hrest⟩
      · left
        rw [hrest]
        simp
      · exact Or.inr ⟨⟨x, List.mem_cons_of_mem v hx, hlong⟩, hrest⟩
    · exact Or.inr ⟨⟨v, List.mem_cons_self, hlong⟩, r, readItems_error hread⟩

theorem readsBack_list {items : List Value} (hplain : ∀ v ∈ items, v.Plain)
    (h : ∀ v ∈ items, ReadsBack v) : ReadsBack (.list items) := by
  intro depth rest hdepth _
  rw [toList_write_list] at hdepth ⊢
  simp only [List.length_append, List.length_cons, List.length_nil] at hdepth
  obtain ⟨depth, rfl⟩ : ∃ k, depth = k + 1 := ⟨depth - 1, by omega⟩
  rw [List.append_assoc, List.cons_append, List.singleton_append]
  cases items with
  | nil => exact Or.inl rfl
  | cons v items =>
    have hitems := readItems_written depth [] items v rest hplain h (by omega)
    have hopen : readValue (depth + 1) ('[' :: (joined (writtenItems (v :: items)) ++ ']' :: rest)) =
        readItems depth [] (joined (writtenItems (v :: items)) ++ ']' :: rest) := by
      obtain ⟨tail, htail⟩ := exists_joined (write v).toList (items.map fun v => (write v).toList)
      obtain ⟨c, cs, hc, hspace, hend, -⟩ := write_head (hplain v List.mem_cons_self)
      have hfront : joined (writtenItems (v :: items)) = c :: (cs ++ tail) := by
        rw [writtenItems, List.map_cons, htail, hc, List.cons_append]
      rw [hfront]
      simp [readValue, skip, hspace, hend]
    rw [hopen]
    rcases hitems with hitems | ⟨⟨w, hw, hlong⟩, hitems⟩
    · exact Or.inl hitems
    · exact Or.inr ⟨.item hw hlong, hitems⟩

/-! ## Objects -/

def writtenEntry (e : String × Value) : List Char :=
  writeChars e.1.toList ++ ':' :: ' ' :: (write e.2).toList

def writtenEntries (entries : List (String × Value)) : List (List Char) :=
  entries.map writtenEntry

theorem toList_write_object (entries : List (String × Value)) :
    (write (.object entries)).toList = '\x7b' :: joined (writtenEntries entries) ++ ['\x7d'] := by
  have hentries : (writeEntries entries).map String.toList = writtenEntries entries := by
    induction entries with
    | nil => rfl
    | cons e entries ih =>
      obtain ⟨k, v⟩ := e
      simp [writeEntries, writtenEntries, writtenEntry, writeText, ih]
  simp [write, joined, hentries]

theorem skip_writtenEntry (e : String × Value) (rest : List Char) :
    skip (writtenEntry e ++ rest) = writtenEntry e ++ rest := by
  simp [writtenEntry, writeChars, skip, isSpace]

/-- Behind the key the value is read, and then what follows it. -/
theorem readEntries_key (depth : Nat) (read : List (String × Value)) (k : String)
    (cs : List Char) :
    readEntries (depth + 1) read (writeChars k.toList ++ ':' :: ' ' :: cs) = (do
      let (v, rest) ← readValue depth (skip cs)
      let read := (k, v) :: read
      match skip rest with
      | '\x7d' :: rest => return (.object (Entries.ofList read.reverse), rest)
      | ',' :: rest => readEntries depth read (skip rest)
      | rest => .error ⟨.expectedComma, rest.length⟩) := by
  have htext := readTextFrom_escaped
    ((k.toList.flatMap escapeChar ++ '"' :: ':' :: ' ' :: cs).length + 1) [] k.toList
    (':' :: ' ' :: cs)
  simp only [List.reverse_nil, List.nil_append] at htext
  simp only [writeChars, List.cons_append, List.append_assoc, List.nil_append, readEntries]
  rw [htext]
  generalize hks : k.toList = ks
  obtain rfl : k = String.ofList ks := by rw [← hks, String.ofList_toList]
  rfl

section entries
variable {depth : Nat} {read : List (String × Value)} {k : String} {cs rest : List Char} {v : Value}

theorem readEntries_end (hcs : skip cs = cs) (h : readValue depth cs = .ok (v, '\x7d' :: rest)) :
    readEntries (depth + 1) read (writeChars k.toList ++ ':' :: ' ' :: cs) =
      .ok (.object (Entries.ofList ((k, v) :: read).reverse), rest) := by
  rw [readEntries_key depth read k cs, hcs, h]
  rfl

theorem readEntries_comma (hcs : skip cs = cs) (h : readValue depth cs = .ok (v, ',' :: ' ' :: rest))
    (hrest : skip rest = rest) :
    readEntries (depth + 1) read (writeChars k.toList ++ ':' :: ' ' :: cs) =
      readEntries depth ((k, v) :: read) rest := by
  rw [readEntries_key depth read k cs, hcs, h]
  exact congrArg (readEntries depth ((k, v) :: read)) hrest

theorem readEntries_error {r : Refusal} (hcs : skip cs = cs) (h : readValue depth cs = .error r) :
    readEntries (depth + 1) read (writeChars k.toList ++ ':' :: ' ' :: cs) = .error r := by
  rw [readEntries_key depth read k cs, hcs, h]
  rfl

end entries

theorem readEntries_written (depth : Nat) (read entries : List (String × Value))
    (e : String × Value) (rest : List Char) (hplain : ∀ x ∈ e :: entries, x.2.Plain)
    (h : ∀ x ∈ e :: entries, ReadsBack x.2)
    (hdepth : (joined (writtenEntries (e :: entries))).length < depth) :
    readEntries depth read (joined (writtenEntries (e :: entries)) ++ '\x7d' :: rest) =
        .ok (.object (Entries.ofList (read.reverse ++ e :: entries)), rest) ∨
      ((∃ x ∈ e :: entries, x.2.Overlong) ∧
        ∃ r, readEntries depth read (joined (writtenEntries (e :: entries)) ++ '\x7d' :: rest) =
          .error r) := by
  induction entries generalizing depth read e with
  | nil =>
    obtain ⟨depth, rfl⟩ : ∃ k, depth = k + 1 := ⟨depth - 1, by omega⟩
    have hfront : joined (writtenEntries [e]) ++ '\x7d' :: rest =
        writeChars e.1.toList ++ ':' :: ' ' :: ((write e.2).toList ++ '\x7d' :: rest) := by
      simp [writtenEntries, writtenEntry, joined_singleton]
    have hlength : (write e.2).toList.length < (joined (writtenEntries [e])).length := by
      simp [writtenEntries, writtenEntry, joined_singleton]
      omega
    have hskip := skip_write (hplain e List.mem_cons_self) ('\x7d' :: rest)
    rw [hfront]
    rcases h e List.mem_cons_self depth ('\x7d' :: rest) (by omega)
      (endsNumber_cons (by decide) rest) with hread | ⟨hlong, r, hread⟩
    · left
      rw [readEntries_end hskip hread]
      simp
    · exact Or.inr ⟨⟨e, List.mem_cons_self, hlong⟩, r, readEntries_error hskip hread⟩
  | cons e' entries ih =>
    obtain ⟨depth, rfl⟩ : ∃ k, depth = k + 1 := ⟨depth - 1, by omega⟩
    have hfront : joined (writtenEntries (e :: e' :: entries)) ++ '\x7d' :: rest =
        writeChars e.1.toList ++ ':' :: ' ' :: ((write e.2).toList ++
          ',' :: ' ' :: (joined (writtenEntries (e' :: entries)) ++ '\x7d' :: rest)) := by
      simp [writtenEntries, writtenEntry, joined_cons_cons]
    have hlength : (write e.2).toList.length + (joined (writtenEntries (e' :: entries))).length <
        (joined (writtenEntries (e :: e' :: entries))).length := by
      simp [writtenEntries, writtenEntry, joined_cons_cons]
      omega
    have hrest := ih depth (e :: read) e' (fun x hx => hplain x (List.mem_cons_of_mem e hx))
      (fun x hx => h x (List.mem_cons_of_mem e hx)) (by omega)
    have hskip := skip_write (hplain e List.mem_cons_self)
      (',' :: ' ' :: (joined (writtenEntries (e' :: entries)) ++ '\x7d' :: rest))
    have hskip' : skip (joined (writtenEntries (e' :: entries)) ++ '\x7d' :: rest) =
        joined (writtenEntries (e' :: entries)) ++ '\x7d' :: rest :=
      skip_joined (skip_writtenEntry e') _
    rw [hfront]
    rcases h e List.mem_cons_self depth _ (by omega)
      (endsNumber_cons (c := ',') (by decide) _) with hread | ⟨hlong, r, hread⟩
    · rw [readEntries_comma hskip hread hskip']
      rcases hrest with hrest | ⟨⟨x, hx, hlong⟩, hrest⟩
      · left
        rw [hrest]
        simp
      · exact Or.inr ⟨⟨x, List.mem_cons_of_mem e hx, hlong⟩, hrest⟩
    · exact Or.inr ⟨⟨e, List.mem_cons_self, hlong⟩, r, readEntries_error hskip hread⟩

theorem readsBack_object {entries : List (String × Value)}
    (hkeys : (entries.map (·.1)).Nodup) (hplain : ∀ e ∈ entries, e.2.Plain)
    (h : ∀ e ∈ entries, ReadsBack e.2) : ReadsBack (.object entries) := by
  intro depth rest hdepth _
  rw [toList_write_object] at hdepth ⊢
  simp only [List.length_append, List.length_cons, List.length_nil] at hdepth
  obtain ⟨depth, rfl⟩ : ∃ k, depth = k + 1 := ⟨depth - 1, by omega⟩
  rw [List.append_assoc, List.cons_append, List.singleton_append]
  cases entries with
  | nil => exact Or.inl rfl
  | cons e entries =>
    have hentries := readEntries_written depth [] entries e rest hplain h (by omega)
    have hopen : readValue (depth + 1)
        ('\x7b' :: (joined (writtenEntries (e :: entries)) ++ '\x7d' :: rest)) =
          readEntries depth [] (joined (writtenEntries (e :: entries)) ++ '\x7d' :: rest) := by
      obtain ⟨tail, htail⟩ := exists_joined (writtenEntry e) (entries.map writtenEntry)
      rw [writtenEntries, List.map_cons, htail, writtenEntry, writeChars]
      simp [readValue, skip, isSpace]
    rw [hopen]
    rcases hentries with hentries | ⟨⟨x, hx, hlong⟩, hentries⟩
    · left
      rw [hentries]
      exact congrArg (fun es => Except.ok (Value.object es, rest)) (Entries.ofList_of_nodup hkeys)
    · exact Or.inr ⟨.entry hx hlong, hentries⟩

/-! ## Whole texts -/

theorem readValue_atom {c : Char} (hc : c ≠ '"' ∧ c ≠ '[' ∧ c ≠ '\x7b') (depth : Nat)
    (cs : List Char) : readValue (depth + 1) (c :: cs) = readAtom (c :: cs) := by
  obtain ⟨hquote, hlist, hobject⟩ := hc
  rw [readValue.eq_def]
  split
  · contradiction
  · rename_i heq
    cases heq
    exact absurd rfl hquote
  · rename_i heq
    cases heq
    exact absurd rfl hlist
  · rename_i heq
    cases heq
    exact absurd rfl hobject
  · rfl

theorem readsBack_bool (b : Bool) : ReadsBack (.bool b) := by
  intro depth rest hdepth _
  have hlength : 0 < (write (.bool b)).toList.length := by cases b <;> decide
  obtain ⟨depth, rfl⟩ : ∃ k, depth = k + 1 := ⟨depth - 1, by omega⟩
  left
  cases b
  · exact readValue_atom (by decide) depth _
  · exact readValue_atom (by decide) depth _

/-- A number that is read back by itself is read back as a value. -/
theorem readsBack_of_readAtom {v : Value}
    (hhead : ∃ c cs, (write v).toList = c :: cs ∧ StartsNumber c)
    (h : ∀ rest, EndsNumber rest → readAtom ((write v).toList ++ rest) = .ok (v, rest) ∨
      (v.Overlong ∧ ∃ r, readAtom ((write v).toList ++ rest) = .error r)) : ReadsBack v := by
  intro depth rest hdepth hrest
  obtain ⟨c, cs, hcs, hc⟩ := hhead
  have hread := h rest hrest
  rw [hcs] at hdepth hread ⊢
  obtain ⟨depth, rfl⟩ : ∃ k, depth = k + 1 := ⟨depth - 1, by simp at hdepth; omega⟩
  rwa [List.cons_append,
    readValue_atom ⟨hc.ne rfl (by decide), hc.ne rfl (by decide), hc.ne rfl (by decide)⟩]

theorem readsBack_int (n : Int) : ReadsBack (.int n) := by
  refine readsBack_of_readAtom (write_int_head n) fun rest hrest => ?_
  obtain ⟨start, hread⟩ := readAtom_int n hrest
  rw [hread]
  split
  · exact Or.inr ⟨.int ‹_›, _, rfl⟩
  · exact Or.inl rfl

theorem readsBack_float {x : Number.Binary64} (hx : x.IsProper) : ReadsBack (.float x) := by
  have hwrite : write (.float x) = writeFloat x := by rw [write]
  refine readsBack_of_readAtom ?_ fun rest hrest => Or.inl ?_
  · rw [hwrite]
    exact writeFloat_head hx
  · rw [hwrite]
    exact readAtom_float hx hrest

theorem readsBack {v : Value} (h : v.Plain) : ReadsBack v := by
  induction h with
  | null =>
    intro depth rest hdepth _
    obtain ⟨depth, rfl⟩ : ∃ k, depth = k + 1 := ⟨depth - 1, by simp [write] at hdepth; omega⟩
    exact Or.inl rfl
  | bool b => exact readsBack_bool b
  | int n => exact readsBack_int n
  | float hx => exact readsBack_float hx
  | text s => exact readsBack_text s
  | list hplain ih => exact readsBack_list hplain ih
  | object hkeys hplain ih => exact readsBack_object hkeys hplain ih

theorem read_write {v : Value} (h : v.Plain) :
    read (write v) = .ok v ∨ (v.Overlong ∧ ∃ e, read (write v) = .error e) := by
  obtain ⟨c, cs, hcs, -, -, hmark⟩ := write_head h
  have hskip : skip (write v).toList = (write v).toList := by
    have hskip' := skip_write h []
    rwa [List.append_nil] at hskip'
  -- The reader goes deep enough, since each level takes at least one character.
  have hread := readsBack h (2 * (write v).toList.length + 2) [] (by omega) endsNumber_nil
  rw [List.append_nil] at hread
  rw [read, readChars, if_neg (by simp [hcs, hmark]), readWhole, hskip]
  rcases hread with hread | ⟨hlong, r, hread⟩
  · left
    rw [hread]
    rfl
  · right
    rw [hread]
    exact ⟨hlong, _, rfl⟩

theorem read_write_of_not_overlong {v : Value} (h : v.Plain) (hshort : ¬ v.Overlong) :
    read (write v) = .ok v := by
  rcases read_write h with hread | ⟨hlong, -⟩
  · exact hread
  · exact absurd hlong hshort

end Json

end Courier
