import Courier.Log.Pattern

/-!
# Filled patterns

What stands between the directives of a pattern is kept, and so is a text whose percent signs are
doubled. A value takes the place of its directive, and has at least the width that the directive asks
for.
-/

namespace Courier

namespace Log

/-! ## Widths -/

section width
variable (d : Directive)

theorem Directive.width_le_length_pad (cs : List Char) : d.width ≤ (d.pad cs).length := by
  unfold pad
  split
  · rw [List.length_append, List.length_replicate]
    omega
  · rw [List.length_append, List.length_replicate]
    omega

theorem Directive.width_le_length_lay (negative : Bool) (mark digits : List Char) :
    d.width ≤ (d.lay negative mark digits).length := by
  unfold lay
  dsimp only
  split
  · rw [List.length_append, List.length_append, List.length_replicate]
    omega
  · exact d.width_le_length_pad _

theorem Directive.width_le_length_numeral {base : Nat} {mark cs : List Char} {n : Int}
    (h : d.numeral base mark n = some cs) : d.width ≤ cs.length := by
  unfold numeral at h
  dsimp only at h
  split at h
  · cases h
    exact d.width_le_length_lay _ _ _
  · cases h

theorem Conversion.length_capitals (capital : Bool) (cs : List Char) :
    (capitals capital cs).length = cs.length := by
  cases capital with
  | false => rfl
  | true => exact List.length_map _

variable {d}

/-- Whatever a directive makes of a value is as wide as it asks for. -/
theorem Conversion.width_le_length {v : Value} {conversion : Conversion} {cs : List Char}
    (h : conversion.write d v = some cs) : d.width ≤ cs.length := by
  cases conversion with
  | shown | quoted | ascii =>
    obtain ⟨s, -, rfl⟩ := Option.map_eq_some_iff.mp h
    exact d.width_le_length_pad _
  | decimal =>
    obtain ⟨n, -, h⟩ := Option.bind_eq_some_iff.mp h
    exact d.width_le_length_numeral (Option.ite_none_left_eq_some.mp h).2
  | octal =>
    obtain ⟨n, -, h⟩ := Option.bind_eq_some_iff.mp h
    exact d.width_le_length_numeral h
  | hexadecimal capital =>
    obtain ⟨n, -, h⟩ := Option.bind_eq_some_iff.mp h
    obtain ⟨digits, hdigits, h⟩ := Option.bind_eq_some_iff.mp h
    cases h
    rw [length_capitals]
    exact d.width_le_length_numeral hdigits
  | real style capital =>
    obtain ⟨x, -, h⟩ := Option.bind_eq_some_iff.mp h
    cases h
    rw [length_capitals]
    exact d.width_le_length_lay _ _ _
  | character =>
    obtain ⟨c, -, h⟩ := Option.bind_eq_some_iff.mp h
    cases h
    exact d.width_le_length_pad _

example : format (.text "%-6s|%+08.3f|%#x|%5.1e|%c%%")
    [.text "ann", .float (.ofRatio false ⟨1, 3⟩), .int 255, .int (-12345), .int 233] =
      some "ann   |+000.333|0xff|-1.2e+04|é%" := by
  decide +kernel

end width

/-! ## Texts -/

section texts
variable {s s' s'' : Supply} {rest text : List Char}

theorem fillFrom_passed (s : Supply) (cs rest : List Char) :
    fillFrom cs.length s (cs ++ rest) = fillFrom 0 s rest := by
  induction cs with
  | nil => rfl
  | cons c cs ih => exact ih

theorem fillFrom_keep {c : Char} (hc : c ≠ '%') (h : fillFrom 0 s rest = some (text, s')) :
    fillFrom 0 s (c :: rest) = some (c :: text, s') := by
  rw [fillFrom, if_neg hc, h]
  rfl

/-- What is written for a directive comes before what is made of the rest. -/
theorem fillFrom_directive {cs written : List Char}
    (hone : fillOne s (cs ++ rest) = some (written, s', rest))
    (h : fillFrom 0 s' rest = some (text, s'')) :
    fillFrom 0 s ('%' :: (cs ++ rest)) = some (written ++ text, s'') := by
  have hpassed : (cs ++ rest).length - rest.length = cs.length := by
    rw [List.length_append]
    omega
  rw [fillFrom, if_pos rfl, hone]
  change (fillFrom ((cs ++ rest).length - rest.length) s' (cs ++ rest)).bind _ = _
  rw [hpassed, fillFrom_passed, h]
  rfl

theorem fillFrom_append {cs : List Char} (hcs : '%' ∉ cs) (h : fillFrom 0 s rest = some (text, s')) :
    fillFrom 0 s (cs ++ rest) = some (cs ++ text, s') := by
  induction cs with
  | nil => exact h
  | cons c cs ih =>
    rw [List.mem_cons, not_or] at hcs
    exact fillFrom_keep (Ne.symm hcs.1) (ih hcs.2)

/-- The text with each percent sign twice. -/
def doubled (cs : List Char) : List Char :=
  cs.flatMap fun c => if c = '%' then ['%', '%'] else [c]

/-- A pattern of doubled percent signs stands for the text with single ones, and takes no value. -/
theorem fillFrom_doubled (s : Supply) (cs : List Char) : fillFrom 0 s (doubled cs) = some (cs, s) := by
  induction cs with
  | nil => rfl
  | cons c cs ih =>
    rw [doubled, List.flatMap_cons]
    split
    · rename_i hc
      subst hc
      have hone : fillOne s (['%'] ++ doubled cs) = some (['%'], s, doubled cs) := rfl
      exact fillFrom_directive hone ih
    · rename_i hc
      exact fillFrom_keep hc ih

/-- A pattern with one directive. -/
theorem format_of_fillOne {pattern : String} {args : List Value} {before cs after written : List Char}
    (hpattern : pattern.toList = before ++ '%' :: (cs ++ after)) (hbefore : '%' ∉ before)
    (hafter : '%' ∉ after) (hargs : args ≠ [])
    (hone : fillOne (.ofArgs args) (cs ++ after) = some (written, s, after)) (hspent : s.isSpent = true) :
    format (.text pattern) args = some (String.ofList (before ++ (written ++ after))) := by
  have hend : fillFrom 0 s (after ++ []) = some (after ++ [], s) := fillFrom_append hafter rfl
  rw [List.append_nil] at hend
  have hfill := fillFrom_append hbefore (fillFrom_directive hone hend)
  rw [← hpattern] at hfill
  have hnonempty : args.isEmpty = false := by simpa using hargs
  change (if args.isEmpty then _ else (fillFrom 0 (.ofArgs args) pattern.toList).bind _) = _
  rw [hnonempty, if_neg Bool.false_ne_true, hfill]
  exact if_pos hspent

theorem clip_plain (cs : List Char) : Directive.plain.clip cs = cs := by
  change List.replicate (0 - cs.length) ' ' ++ cs = cs
  rw [Nat.zero_sub, List.replicate_zero, List.nil_append]

/-- A directive that says nothing but the name of its value, or not even that. -/
theorem fillOne_shown {names : Option Entries} {v : Value} (hv : v.isOverlong = false) {cs : List Char}
    (hcs : ∀ after, cs ≠ '%' :: after)
    (hname : Directive.readName s cs = some (⟨[v], names⟩, 's' :: rest)) :
    fillOne s cs = some (v.display.toList, ⟨[], names⟩, rest) := by
  have hwrite : Conversion.shown.write .plain v = some v.display.toList := by
    rw [Conversion.write, Value.display?, hv, if_neg Bool.false_ne_true, Option.map_some, clip_plain]
  rw [fillOne, Directive.read, hname]
  · change ((Conversion.shown.write .plain v).bind _ : Option (List Char × Supply × List Char)) = _
    rw [hwrite]
    rfl
  · exact hcs

theorem Supply.ofArgs_single (v : Value) : ∃ names, Supply.ofArgs [v] = ⟨[v], names⟩ := by
  unfold ofArgs
  split
  · rename_i heq
    cases heq
    exact ⟨_, rfl⟩
  · exact ⟨none, rfl⟩

/-- A value takes the place of its directive, and the text around it is kept. -/
theorem format_shown {before after : String} (hbefore : '%' ∉ before.toList)
    (hafter : '%' ∉ after.toList) {v : Value} (hv : v.isOverlong = false) :
    format (.text (before ++ "%s" ++ after)) [v] = some (before ++ v.display ++ after) := by
  obtain ⟨names, hargs⟩ := Supply.ofArgs_single v
  have hpattern : (before ++ "%s" ++ after).toList =
      before.toList ++ '%' :: (['s'] ++ after.toList) := by
    rw [String.toList_append, String.toList_append, List.append_assoc]
    rfl
  have hone : fillOne (.ofArgs [v]) (['s'] ++ after.toList) =
      some (v.display.toList, ⟨[], names⟩, after.toList) := by
    rw [hargs]
    exact fillOne_shown hv nofun rfl
  rw [format_of_fillOne hpattern hbefore hafter (List.cons_ne_nil v []) hone rfl, Option.some_inj,
    ← String.toList_inj, String.toList_ofList, String.toList_append, String.toList_append,
    List.append_assoc]

section names
variable {name : List Char} (hopen : '(' ∉ name) (hclose : ')' ∉ name)
include hopen hclose

theorem Directive.nameFrom_of_not_mem (read rest : List Char) :
    nameFrom 0 read (name ++ ')' :: rest) = some (String.ofList (read.reverse ++ name), rest) := by
  induction name generalizing read with
  | nil =>
    rw [List.append_nil]
    rfl
  | cons c name ih =>
    rw [List.mem_cons, not_or] at hopen hclose
    rw [List.cons_append, nameFrom, if_neg (Ne.symm hopen.1), if_neg (Ne.symm hclose.1),
      ih hopen.2 hclose.2, List.reverse_cons, List.append_assoc, List.singleton_append]

theorem Directive.readName_of_not_mem {entries : Entries} {v : Value}
    (hget : Entries.get? entries (String.ofList name) = some v) (next : List Value) (rest : List Char) :
    readName ⟨next, some entries⟩ ('(' :: (name ++ ')' :: rest)) =
      some (⟨[v], some entries⟩, rest) := by
  rw [readName, nameFrom_of_not_mem hopen hclose]
  change ((Entries.get? entries (String.ofList name)).bind _ : Option Supply).bind _ = _
  rw [hget]
  rfl

end names

/-- A named value takes the place of the directive that chooses it. -/
theorem format_named {before after name : String} (hbefore : '%' ∉ before.toList)
    (hafter : '%' ∉ after.toList) (hopen : '(' ∉ name.toList) (hclose : ')' ∉ name.toList)
    {entries : Entries} {v : Value} (hget : Entries.get? entries name = some v)
    (hv : v.isOverlong = false) :
    format (.text (before ++ "%(" ++ name ++ ")s" ++ after)) [.object entries] =
      some (before ++ v.display ++ after) := by
  have hargs : Supply.ofArgs [.object entries] = ⟨[.object entries], some entries⟩ := by
    cases entries with
    | nil => cases hget
    | cons e rest => rfl
  have hcs : ('(' :: (name.toList ++ [')', 's'])) ++ after.toList =
      '(' :: (name.toList ++ ')' :: 's' :: after.toList) := by
    rw [List.cons_append, List.append_assoc]
    rfl
  have hpattern : (before ++ "%(" ++ name ++ ")s" ++ after).toList =
      before.toList ++ '%' :: (('(' :: (name.toList ++ [')', 's'])) ++ after.toList) := by
    rw [hcs]
    simp only [String.toList_append, List.append_assoc]
    congr 1
  have hone : fillOne (.ofArgs [.object entries])
      (('(' :: (name.toList ++ [')', 's'])) ++ after.toList) =
        some (v.display.toList, ⟨[], some entries⟩, after.toList) := by
    rw [hargs, hcs]
    exact fillOne_shown hv nofun
      (Directive.readName_of_not_mem hopen hclose (by rwa [String.ofList_toList]) _ _)
  rw [format_of_fillOne hpattern hbefore hafter (List.cons_ne_nil _ []) hone rfl, Option.some_inj,
    ← String.toList_inj, String.toList_ofList, String.toList_append, String.toList_append,
    List.append_assoc]

end texts

end Log

end Courier
