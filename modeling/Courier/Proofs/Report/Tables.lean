import Courier.Proofs.Calendar.TextOrder
import Courier.Proofs.Json.Numbers
import Courier.Proofs.Number.Numerals
import Courier.Report.Series

/-!
# Tables that are read back

Each line of a table has a day and a count between bars, and a day has hyphens between its numbers. Neither
a bar nor the end of a line occurs in a number, however many digits it has, so the points of a series can be
read from its table, in their order.
-/

namespace Courier.Report

/-! ## Reading tables -/

/-- The day of three numbers with hyphens between them. -/
def dayOf? (cs : List Char) : Option Calendar.Date :=
  match (cs.splitOn '-').map fun part => (Number.readUnsigned part).toOption with
  | [some year, some month, some day] => Calendar.Date.of? year month day
  | _ => none

/-- The point of a line with a day and a count between bars. -/
def pointOf? (line : List Char) : Option Point :=
  match line.splitOn '|' with
  | [[], day, count, []] =>
    match dayOf? day, Number.readInt count with
    | some day, .ok count => some ⟨day, count⟩
    | _, _ => none
  | _ => none

def readLines : List (List Char) → Option Series
  | [] => none
  | [rest] => if rest.isEmpty then some [] else none
  | line :: lines =>
    match pointOf? line, readLines lines with
    | some p, some points => some (p :: points)
    | _, _ => none

/-- The series that a table shows: a point for each line behind the header. -/
def readTable (text : String) : Option Series :=
  if tableHeader.toList <+: text.toList then
    readLines ((text.toList.drop tableHeader.toList.length).splitOn '\n')
  else none

/-! ## Separators -/

theorem splitOn_append {separator : Char} {cs : List Char} (h : separator ∉ cs) (rest : List Char) :
    (cs ++ separator :: rest).splitOn separator = cs :: rest.splitOn separator := by
  have hfree : ∀ c ∈ cs, (c == separator) = false := by
    intro c hc
    exact beq_false_of_ne fun heq => h (heq ▸ hc)
  rw [List.splitOn_eq_splitOnP, List.splitOn_eq_splitOnP]
  exact List.splitOnP_append_cons_of_forall_mem hfree separator (beq_self_eq_true separator) rest

/-- The characters of a number separate nothing. -/
theorem not_mem_of_denotes {cs : List Char} {n : Int} (h : Number.Denotes cs n) {separator : Char}
    (hhyphen : separator ≠ '-') (hdigit : Text.isDigit separator = false) : separator ∉ cs := by
  intro hmem
  rcases h.mem hmem with heq | hdigit'
  · exact hhyphen heq
  · rw [hdigit] at hdigit'
    cases hdigit'

/-! ## What is written -/

/-- What stands in the line of a point. -/
def line (p : Point) : List Char :=
  '|' :: (p.day.shortText.toList ++ '|' :: ((toString p.count).toList ++ ['|']))

theorem toList_row (p : Point) : (row p).toList = line p ++ ['\n'] := by
  simp [row, line]

theorem toList_table (points : Series) :
    (table points).toList = tableHeader.toList ++ points.flatMap fun p => line p ++ ['\n'] := by
  rw [table, String.toList_append, String.toList_join, List.flatMap_map]
  simp only [toList_row]

theorem toList_shortText (d : Calendar.Date) :
    d.shortText.toList = Nat.toDigits 10 d.year ++ '-' ::
      ((Number.padded 2 d.month).toList ++ '-' :: (Number.padded 2 d.day).toList) := by
  simp [Calendar.Date.shortText]

/-- A row of digits holds no separator. -/
theorem not_mem_of_areDigits {cs : List Char} {values : List Nat} (h : Number.AreDigits cs values)
    {separator : Char} (hseparator : Text.isDigit separator = false) : separator ∉ cs := by
  intro hmem
  have hdigit := h.isDigit separator hmem
  rw [hseparator] at hdigit
  cases hdigit

theorem readUnsigned_year (d : Calendar.Date) :
    Number.readUnsigned (Nat.toDigits 10 d.year) = .ok d.year := by
  obtain ⟨⟨-, hyear⟩, -⟩ := d.isDate
  obtain ⟨values, hvalues, hworth⟩ := Number.exists_areDigits_toDigits d.year
  have hlength : (Nat.toDigits 10 d.year).length ≤ 4 :=
    (Nat.length_toDigits_le_iff (by decide) (by decide)).mpr (Nat.lt_succ_of_le hyear)
  have hlimit : 4 ≤ Number.digitLimit := by decide
  rw [Number.readUnsigned_digits Nat.toDigits_ne_nil hvalues, ← hvalues.length_eq, hworth,
    if_neg (Nat.not_lt.mpr (hlength.trans hlimit))]

theorem readUnsigned_two {n : Nat} (h : n < 100) :
    Number.readUnsigned (Number.padded 2 n).toList = .ok n := by
  have hlength : (Number.padded 2 n).toList.length = 2 := by
    rw [Calendar.toList_padded 2 n h (by decide), Calendar.length_digits]
  apply Number.readUnsigned_padded
  · intro hnil
    rw [hnil] at hlength
    cases hlength
  · rw [hlength]
    decide

theorem dayOf?_shortText (d : Calendar.Date) : dayOf? d.shortText.toList = some d := by
  obtain ⟨-, ⟨-, hmonth⟩, -, hday⟩ := d.isDate
  have hlast := Calendar.monthLength_le d.year d.month
  obtain ⟨_, hyears, -⟩ := Number.exists_areDigits_toDigits d.year
  obtain ⟨_, hmonths, -⟩ := Number.exists_areDigits_padded 2 d.month
  obtain ⟨_, hdays, -⟩ := Number.exists_areDigits_padded 2 d.day
  have hparts : d.shortText.toList.splitOn '-' =
      [Nat.toDigits 10 d.year, (Number.padded 2 d.month).toList, (Number.padded 2 d.day).toList] := by
    rw [toList_shortText, splitOn_append (not_mem_of_areDigits hyears rfl),
      splitOn_append (not_mem_of_areDigits hmonths rfl),
      List.splitOn_eq_singleton (not_mem_of_areDigits hdays rfl)]
  rw [dayOf?, hparts, List.map_cons, List.map_cons, List.map_singleton, readUnsigned_year,
    readUnsigned_two (by omega), readUnsigned_two (by omega)]
  exact dif_pos d.isDate

/-- A separator other than a hyphen does not occur in a day. -/
theorem not_mem_shortText (d : Calendar.Date) {separator : Char} (hhyphen : separator ≠ '-')
    (hdigit : Text.isDigit separator = false) : separator ∉ d.shortText.toList := by
  obtain ⟨_, hyears, -⟩ := Number.exists_areDigits_toDigits d.year
  obtain ⟨_, hmonths, -⟩ := Number.exists_areDigits_padded 2 d.month
  obtain ⟨_, hdays, -⟩ := Number.exists_areDigits_padded 2 d.day
  rw [toList_shortText]
  simp only [List.mem_append, List.mem_cons, not_or]
  exact ⟨not_mem_of_areDigits hyears hdigit, hhyphen, not_mem_of_areDigits hmonths hdigit, hhyphen,
    not_mem_of_areDigits hdays hdigit⟩

theorem pointOf?_line {p : Point} (h : (decimals p.count).length ≤ Number.digitLimit) :
    pointOf? (line p) = some p := by
  have hday : '|' ∉ p.day.shortText.toList := not_mem_shortText p.day (by decide) rfl
  have hcount : '|' ∉ (toString p.count).toList :=
    not_mem_of_denotes (Number.denotes_toString p.count) (by decide) rfl
  have hcells : (line p).splitOn '|' = [[], p.day.shortText.toList, (toString p.count).toList, []] := by
    rw [line, ← List.nil_append ('|' :: _), splitOn_append List.not_mem_nil, splitOn_append hday,
      splitOn_append hcount]
    rfl
  rw [pointOf?, hcells]
  dsimp only
  rw [dayOf?_shortText, Number.readInt_toString h]

/-- A point stands in one line. -/
theorem not_mem_line (p : Point) : '\n' ∉ line p := by
  have hday : '\n' ∉ p.day.shortText.toList := not_mem_shortText p.day (by decide) rfl
  have hcount : '\n' ∉ (toString p.count).toList :=
    not_mem_of_denotes (Number.denotes_toString p.count) (by decide) rfl
  rw [line]
  simp only [List.mem_cons, List.mem_append, List.not_mem_nil, or_false, not_or]
  exact ⟨by decide, hday, by decide, hcount, by decide⟩

theorem readLines_lines {points : Series}
    (h : ∀ p ∈ points, (decimals p.count).length ≤ Number.digitLimit) :
    readLines ((points.flatMap fun p => line p ++ ['\n']).splitOn '\n') = some points := by
  induction points with
  | nil => rfl
  | cons p points ih =>
    have hrest := ih fun q hq => h q (List.mem_cons_of_mem p hq)
    rw [List.flatMap_cons, List.append_assoc, List.singleton_append, splitOn_append (not_mem_line p)]
    -- The end of the last line leaves an empty part behind it, so there is a part behind each line.
    cases hlines : (points.flatMap fun p => line p ++ ['\n']).splitOn '\n' with
    | nil =>
      rw [hlines] at hrest
      cases hrest
    | cons l lines =>
      rw [hlines] at hrest
      rw [readLines, pointOf?_line (h p List.mem_cons_self), hrest]
      exact nofun

/-- The points of a series are read from its table. -/
theorem readTable_table {points : Series}
    (h : ∀ p ∈ points, (decimals p.count).length ≤ Number.digitLimit) :
    readTable (table points) = some points := by
  rw [readTable, toList_table, if_pos (List.prefix_append _ _), List.drop_left]
  exact readLines_lines h

/-- The points of a series can be read from its table in their order, whatever their days and counts are,
so no two series have the same table. The table of a series without points is the header alone. -/
theorem table_shows_series (points points' : Series)
    (h : ∀ p ∈ points, (decimals p.count).length ≤ Number.digitLimit)
    (h' : ∀ p ∈ points', (decimals p.count).length ≤ Number.digitLimit) :
    readTable (table points) = some points ∧ (table points = table points' ↔ points = points') ∧
      table [] = tableHeader := by
  refine ⟨readTable_table h, ⟨fun heq => ?_, congrArg table⟩, ?_⟩
  · have hread := readTable_table h
    rw [heq, readTable_table h'] at hread
    exact (Option.some.inj hread).symm
  · rw [table, List.map_nil, String.join_nil, String.append_empty]

/-- Two points of one day in an early year, without a count and with a negative one, and a day before. -/
def earlyYears : Series :=
  [⟨⟨99, 2, 1, by decide⟩, 0⟩, ⟨⟨99, 2, 1, by decide⟩, -5⟩, ⟨⟨7, 12, 31, by decide⟩, 1200⟩]

theorem table_shows_series_earlyYears :
    (∀ p ∈ earlyYears, (decimals p.count).length ≤ Number.digitLimit) ∧
      table earlyYears =
        "\n|Day|Count|\n|-|-|\n|99-02-01|0|\n|99-02-01|-5|\n|7-12-31|1200|\n" ∧
      readTable (table earlyYears) = some earlyYears ∧
      table earlyYears ≠ table earlyYears.reverse := by
  have hshort : ∀ p ∈ earlyYears, (decimals p.count).length ≤ Number.digitLimit := by decide +kernel
  have hshort' : ∀ p ∈ earlyYears.reverse, (decimals p.count).length ≤ Number.digitLimit :=
    fun p hp => hshort p (List.mem_reverse.mp hp)
  have hne : earlyYears ≠ earlyYears.reverse := by decide +kernel
  obtain ⟨hread, hsame, -⟩ := table_shows_series earlyYears earlyYears.reverse hshort hshort'
  exact ⟨hshort, by decide +kernel, hread, fun heq => hne (hsame.mp heq)⟩

end Courier.Report
