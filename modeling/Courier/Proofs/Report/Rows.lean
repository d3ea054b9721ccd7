import Courier.Proofs.Number.Numerals
import Courier.Report.Bridge

/-!
# Rows of reports

A row is an object with a day and a count. The series of a report are the points of its rows in their
order; objects that are no rows are skipped with a warning each, and other items silently. There is one
exception: a row whose count is infinite takes the whole report with it.
-/

namespace Courier.Report

/-! ## What rows are -/

/-- The day of a row: its text without blanks around it, or the first ten characters of that, is a date. -/
def IsDay (x : Option Value) (day : Calendar.Date) : Prop :=
  Calendar.readDate (String.ofList ((Text.strip (x.elim "" Value.display)).toList.take 10)) = some day

/-- The count of a row. What is missing, null, false, zero or empty counts as zero; of a number the whole
part counts, and of a text the number that it shows. -/
inductive Counts : Option Value → Int → Prop where
  | missing : Counts none 0
  | empty {y : Value} (h : y.isGiven = false) : Counts (some y) 0
  | truth : Counts (some (.bool true)) 1
  | int (n : Int) : Counts (some (.int n)) n
  | float {x : Number.Binary64} {n : Int} (h : x.truncate? = some n) : Counts (some (.float x)) n
  | text {s : String} {n : Int} (h : Number.readInt s.toList = .ok n) : Counts (some (.text s)) n

/-- The item is the row of a point. -/
def IsPoint (item : Value) (p : Point) : Prop :=
  ∃ entries, item = .object entries ∧ IsDay (Entries.get? entries "x") p.day ∧
    Counts (Entries.get? entries "y") p.count

/-- The item has the day of a row, and a count that is infinite. -/
def IsInfinite (item : Value) : Prop :=
  ∃ entries day negative, item = .object entries ∧ IsDay (Entries.get? entries "x") day ∧
    Entries.get? entries "y" = some (.float (.infinite negative))

/-- The points of the rows among some items, in their order, and how many warnings there are. -/
inductive Reads : List Value → Series → Nat → Prop where
  | nil : Reads [] [] 0
  | point {item : Value} {items : List Value} {p : Point} {points : Series} {warnings : Nat}
    (h : IsPoint item p) (hrest : Reads items points warnings) :
    Reads (item :: items) (p :: points) warnings
  | passed {item : Value} {items : List Value} {points : Series} {warnings : Nat}
    (h : ∀ entries, item ≠ .object entries) (hrest : Reads items points warnings) :
    Reads (item :: items) points warnings
  | skipped {entries : Entries} {items : List Value} {points : Series} {warnings : Nat}
    (h : ∀ p, ¬ IsPoint (.object entries) p) (hrest : Reads items points warnings) :
    Reads (.object entries :: items) points (warnings + 1)

/-! ## Days and counts -/

theorem isDay_iff {entries : Entries} {day : Calendar.Date} :
    IsDay (Entries.get? entries "x") day ↔ rowDay entries = some day := by
  rw [rowDay, IsDay]
  cases Entries.get? entries "x" <;> rfl

theorem ratio_zero (exponent : Int) : (Number.Binary64.ratio 0 exponent).num = 0 := by
  cases exponent with
  | ofNat e => exact Nat.zero_mul _
  | negSucc e => rfl

theorem truncate?_of_isZero {x : Number.Binary64} (h : x.isZero = true) : x.truncate? = some 0 := by
  cases x with
  | nan | infinite => cases h
  | finite negative mantissa exponent =>
    cases mantissa with
    | succ => cases h
    | zero => simp [Number.Binary64.truncate?, ratio_zero]

theorem Counts.eq_zero {y : Value} {n : Int} (h : Counts (some y) n) (hy : y.isGiven = false) :
    n = 0 := by
  cases h with
  | empty => rfl
  | truth => cases hy
  | int => simpa [Value.isGiven] using hy
  | @float x _ htruncate =>
    have hzero : x.isZero = true := by simpa [Value.isGiven] using hy
    rw [truncate?_of_isZero hzero] at htruncate
    exact (Option.some.inj htruncate).symm
  | @text s _ hread =>
    have hempty : s = "" := by simpa [Value.isGiven] using hy
    rw [hempty] at hread
    cases hread

theorem toInt_eq_ok {y : Value} (hy : y.isGiven = true) {n : Int} :
    y.toInt = .ok n ↔ Counts (some y) n := by
  constructor
  · intro h
    cases y with
    | bool b =>
      obtain rfl : b = true := hy
      cases h
      exact .truth
    | int m =>
      cases h
      exact .int _
    | float x =>
      cases x with
      | nan | infinite => cases h
      | finite negative mantissa exponent =>
        cases h
        exact .float rfl
    | text s => exact .text (readInteger_eq_ok.mp h)
    | null | list | object | date | moment => cases h
  · intro h
    cases h with
    | empty hempty =>
      rw [hempty] at hy
      cases hy
    | truth | int => rfl
    | @float x _ htruncate =>
      cases x with
      | nan | infinite => cases htruncate
      | finite =>
        cases htruncate
        rfl
    | text hread => exact readInteger_eq_ok.mpr hread

/-- What is no whole number fails as a text does that shows none, unless it is infinite. -/
theorem toInt_eq_error {y : Value} {f : Failure} (h : y.toInt = .error f) :
    f.isConversion = true ∨ f = .infiniteInteger ∧ ∃ negative, y = .float (.infinite negative) := by
  cases y with
  | float x =>
    cases x with
    | infinite negative =>
      cases h
      exact .inr ⟨rfl, negative, rfl⟩
    | nan =>
      cases h
      exact .inl rfl
    | finite => cases h
  | text s =>
    left
    rw [Value.toInt, readInteger] at h
    split at h
    all_goals cases h
    all_goals rfl
  | bool | int => cases h
  | null | list | object | date | moment =>
    cases h
    exact .inl rfl

theorem rowCount_eq_ok {entries : Entries} {n : Int} :
    rowCount entries = .ok n ↔ Counts (Entries.get? entries "y") n := by
  rw [rowCount]
  cases Entries.get? entries "y" with
  | none =>
    constructor
    · rintro ⟨⟩
      exact .missing
    · rintro ⟨⟩
      rfl
  | some y =>
    cases hy : y.isGiven with
    | true => simp only [hy, if_true, toInt_eq_ok hy]
    | false =>
      simp only [hy, Bool.false_eq_true, if_false, Except.ok.injEq]
      constructor
      · rintro rfl
        exact .empty hy
      · intro h
        exact (h.eq_zero hy).symm

theorem rowCount_eq_error {entries : Entries} {f : Failure} (h : rowCount entries = .error f) :
    f.isConversion = true ∨ f = .infiniteInteger ∧
      ∃ negative, Entries.get? entries "y" = some (.float (.infinite negative)) := by
  rw [rowCount] at h
  cases hy : Entries.get? entries "y" with
  | none =>
    rw [hy] at h
    cases h
  | some y =>
    rw [hy] at h
    dsimp only at h
    split at h
    · exact (toInt_eq_error h).imp_right fun ⟨hf, negative, hinfinite⟩ =>
        ⟨hf, negative, congrArg some hinfinite⟩
    · cases h

/-! ## Items -/

theorem IsPoint.unique {item : Value} {p q : Point} (hp : IsPoint item p) (hq : IsPoint item q) :
    p = q := by
  obtain ⟨day, count⟩ := p
  obtain ⟨day', count'⟩ := q
  obtain ⟨entries, rfl, hday, hcount⟩ := hp
  obtain ⟨_, ⟨⟩, hday', hcount'⟩ := hq
  rw [isDay_iff] at hday hday'
  rw [← rowCount_eq_ok] at hcount hcount'
  obtain rfl : day = day' := Option.some.inj (hday.symm.trans hday')
  obtain rfl : count = count' := Except.ok.inj (hcount.symm.trans hcount')
  rfl

theorem IsInfinite.not_isPoint {item : Value} (h : IsInfinite item) (p : Point) : ¬ IsPoint item p := by
  rintro ⟨entries, rfl, -, hcount⟩
  obtain ⟨_, day, negative, ⟨⟩, -, hinfinite⟩ := h
  rw [hinfinite] at hcount
  generalize p.count = n at hcount
  cases hcount with
  | empty h => cases h
  | float h => cases h

/-- What an item is read as. -/
inductive ReadAs (item : Value) : Row → Prop where
  | point {p : Point} (h : IsPoint item p) : ReadAs item (.point p)
  | other (h : ∀ entries, item ≠ .object entries) : ReadAs item .other
  | malformed {entries : Entries} (hitem : item = .object entries) (hpoint : ∀ p, ¬ IsPoint item p)
    (hinfinite : ¬ IsInfinite item) : ReadAs item .malformed
  | failure (h : IsInfinite item) : ReadAs item (.failure .infiniteInteger)

theorem readAs_readRow (item : Value) : ReadAs item (readRow item) := by
  cases item with
  | object entries =>
    cases hday : rowDay entries with
    | none =>
      have hread : readRow (.object entries) = .malformed := by
        unfold readRow
        simp only [hday]
      have hnone (day : Calendar.Date) : ¬ IsDay (Entries.get? entries "x") day := by
        rw [isDay_iff, hday]
        exact Option.some_ne_none day ∘ Eq.symm
      rw [hread]
      refine .malformed rfl ?_ ?_
      · rintro p ⟨_, ⟨⟩, hday', -⟩
        exact hnone _ hday'
      · rintro ⟨_, day, negative, ⟨⟩, hday', -⟩
        exact hnone _ hday'
    | some day =>
      have hday' := isDay_iff.mpr hday
      cases hcount : rowCount entries with
      | ok count =>
        have hread : readRow (.object entries) = .point ⟨day, count⟩ := by
          unfold readRow
          simp only [hday, hcount]
        rw [hread]
        exact .point ⟨entries, rfl, hday', rowCount_eq_ok.mp hcount⟩
      | error f =>
        have hread :
            readRow (.object entries) = if f.isConversion then .malformed else .failure f := by
          unfold readRow
          simp only [hday, hcount]
        rw [hread]
        rcases rowCount_eq_error hcount with hf | ⟨rfl, negative, hinfinite⟩
        · rw [if_pos hf]
          refine .malformed rfl ?_ ?_
          · rintro p ⟨_, ⟨⟩, -, hcount'⟩
            rw [← rowCount_eq_ok, hcount] at hcount'
            cases hcount'
          · rintro ⟨_, day', negative, ⟨⟩, -, hinfinite⟩
            simp only [rowCount, hinfinite] at hcount
            cases hcount
            cases hf
        · exact .failure ⟨entries, day, negative, rfl, hday', hinfinite⟩
  | _ => exact .other fun entries h => by cases h

theorem readRow_of_isPoint {item : Value} {p : Point} (h : IsPoint item p) :
    readRow item = .point p := by
  have hread := readAs_readRow item
  generalize readRow item = row at hread
  cases hread with
  | point h' => rw [h.unique h']
  | other hitem =>
    obtain ⟨entries, rfl, -⟩ := h
    exact absurd rfl (hitem entries)
  | malformed _ hpoint => exact absurd h (hpoint p)
  | failure h' => exact absurd h (h'.not_isPoint p)

theorem readRow_of_skipped {entries : Entries} (h : ∀ p, ¬ IsPoint (.object entries) p)
    (hinfinite : ¬ IsInfinite (.object entries)) : readRow (.object entries) = .malformed := by
  have hread := readAs_readRow (.object entries)
  generalize readRow (.object entries) = row at hread
  cases hread with
  | point h' => exact absurd h' (h _)
  | other hitem => exact absurd rfl (hitem entries)
  | malformed => rfl
  | failure h' => exact absurd h' hinfinite

theorem readRow_of_passed {item : Value} (h : ∀ entries, item ≠ .object entries) :
    readRow item = .other := by
  cases item with
  | object entries => exact absurd rfl (h entries)
  | _ => rfl

/-! ## All rows -/

section reads
variable {items : List Value} {points : Series} {warnings : Nat}

theorem Reads.exists (items : List Value) : ∃ points warnings, Reads items points warnings := by
  induction items with
  | nil => exact ⟨[], 0, .nil⟩
  | cons item items ih =>
    obtain ⟨points, warnings, hrest⟩ := ih
    by_cases hpoint : ∃ p, IsPoint item p
    · obtain ⟨p, h⟩ := hpoint
      exact ⟨p :: points, warnings, .point h hrest⟩
    · cases item with
      | object entries => exact ⟨points, warnings + 1, .skipped (not_exists.mp hpoint) hrest⟩
      | _ => exact ⟨points, warnings, .passed (fun entries h => by cases h) hrest⟩

theorem readRows_of_reads (h : Reads items points warnings)
    (hfinite : ∀ item ∈ items, ¬ IsInfinite item) :
    readRows items = ⟨.ok points, List.replicate warnings malformedRow⟩ := by
  induction h with
  | nil => rfl
  | point h _ ih =>
    have hrest := ih (List.forall_mem_cons.mp hfinite).2
    simp only [readRows, readRow_of_isPoint h, hrest]
    rfl
  | passed h _ ih =>
    have hrest := ih (List.forall_mem_cons.mp hfinite).2
    simp only [readRows, readRow_of_passed h, hrest]
  | skipped h _ ih =>
    obtain ⟨hfirst, hfinite⟩ := List.forall_mem_cons.mp hfinite
    simp only [readRows, readRow_of_skipped h hfirst, ih hfinite]
    rfl

/-- Rows in front of an infinite count are lost with those behind it. -/
theorem readRows_of_infinite (h : ∃ item ∈ items, IsInfinite item) :
    (readRows items).outcome = .error .infiniteInteger := by
  induction items with
  | nil =>
    obtain ⟨item, hitem, -⟩ := h
    cases hitem
  | cons first items ih =>
    have hrest (hfirst : ¬ IsInfinite first) : (readRows items).outcome = .error .infiniteInteger := by
      obtain ⟨item, hitem, hinfinite⟩ := h
      rcases List.mem_cons.mp hitem with rfl | hitem
      · exact absurd hinfinite hfirst
      · exact ih ⟨item, hitem, hinfinite⟩
    have hread := readAs_readRow first
    rw [readRows]
    generalize readRow first = row at hread
    cases hread with
    | @point p h =>
      dsimp only
      rw [hrest fun hinfinite => hinfinite.not_isPoint p h]
      rfl
    | other h =>
      apply hrest
      rintro ⟨entries, day, negative, rfl, -⟩
      exact h entries rfl
    | malformed _ _ hinfinite => exact hrest hinfinite
    | failure => rfl

/-- An item that is no row adds at most a warning. -/
theorem Reads.insert {pre post : List Value} {item : Value} (hitem : ∀ p, ¬ IsPoint item p)
    (h : Reads (pre ++ post) points warnings) :
    ∃ warnings', Reads (pre ++ item :: post) points warnings' := by
  induction pre generalizing points warnings with
  | nil =>
    cases item with
    | object entries => exact ⟨warnings + 1, .skipped hitem h⟩
    | _ => exact ⟨warnings, .passed (fun entries h => by cases h) h⟩
  | cons first pre ih =>
    cases h with
    | point hfirst hrest =>
      obtain ⟨warnings', hread⟩ := ih hrest
      exact ⟨warnings', .point hfirst hread⟩
    | passed hfirst hrest =>
      obtain ⟨warnings', hread⟩ := ih hrest
      exact ⟨warnings', .passed hfirst hread⟩
    | skipped hfirst hrest =>
      obtain ⟨warnings', hread⟩ := ih hrest
      exact ⟨warnings' + 1, .skipped hfirst hread⟩

end reads

theorem infinite_insert_iff (pre post : List Value) (item : Value) :
    (∃ other ∈ pre ++ item :: post, IsInfinite other) ↔
      IsInfinite item ∨ ∃ other ∈ pre ++ post, IsInfinite other := by
  have hmem (other : Value) : other ∈ pre ++ item :: post ↔ other = item ∨ other ∈ pre ++ post := by
    rw [List.mem_append, List.mem_cons, List.mem_append, or_left_comm]
  simp only [hmem, or_and_right, exists_or, exists_eq_left]

/-! ## Payloads -/

section payload
variable {payload report : Entries} {items : List Value}
  (hreport : Entries.get? payload "report" = some (.object report))
  (hdata : Entries.get? report "data" = some (.list items))
include hreport hdata

theorem ofPayload_eq :
    ofPayload (.object payload) = ⟨(readRows items).outcome.map some, (readRows items).journal⟩ := by
  have hitems : dataItems report = .ok items := by
    rw [dataItems, hdata]
    cases items <;> rfl
  rw [ofPayload, hreport]
  dsimp only
  rw [hitems]

theorem ofPayload_of_infinite (h : ∃ item ∈ items, IsInfinite item) :
    (ofPayload (.object payload)).outcome = .error .infiniteInteger := by
  rw [ofPayload_eq hreport hdata, readRows_of_infinite h]
  rfl

theorem ofPayload_of_reads {points : Series} {warnings : Nat} (h : Reads items points warnings)
    (hfinite : ∀ item ∈ items, ¬ IsInfinite item) :
    ofPayload (.object payload) = ⟨.ok (some points), List.replicate warnings malformedRow⟩ := by
  rw [ofPayload_eq hreport hdata, readRows_of_reads h hfinite]
  rfl

end payload

/-- A further item that is no row makes a difference only if it is the first one that is infinite. -/
theorem ofPayload_insert_iff {payload report payload' report' : Entries} {pre post : List Value}
    {item : Value} (hreport : Entries.get? payload "report" = some (.object report))
    (hdata : Entries.get? report "data" = some (.list (pre ++ post)))
    (hreport' : Entries.get? payload' "report" = some (.object report'))
    (hdata' : Entries.get? report' "data" = some (.list (pre ++ item :: post)))
    (hitem : ∀ p, ¬ IsPoint item p) :
    (ofPayload (.object payload')).outcome = (ofPayload (.object payload)).outcome ↔
      (IsInfinite item → ∃ other ∈ pre ++ post, IsInfinite other) := by
  have hinsert := infinite_insert_iff pre post item
  by_cases hinfinite : ∃ other ∈ pre ++ post, IsInfinite other
  · rw [ofPayload_of_infinite hreport hdata hinfinite,
      ofPayload_of_infinite hreport' hdata' (hinsert.mpr (.inr hinfinite))]
    exact ⟨fun _ _ => hinfinite, fun _ => rfl⟩
  · obtain ⟨points, warnings, h⟩ := Reads.exists (pre ++ post)
    rw [ofPayload_of_reads hreport hdata h fun other hmem hother => hinfinite ⟨other, hmem, hother⟩]
    by_cases hfirst : IsInfinite item
    · rw [ofPayload_of_infinite hreport' hdata' (hinsert.mpr (.inl hfirst))]
      constructor
      · intro heq
        cases heq
      · intro himp
        exact absurd (himp hfirst) hinfinite
    · obtain ⟨warnings', h'⟩ := h.insert hitem
      have hfinite' : ∀ other ∈ pre ++ item :: post, ¬ IsInfinite other := by
        intro other hmem hother
        rcases hinsert.mp ⟨other, hmem, hother⟩ with hother | hother
        · exact hfirst hother
        · exact hinfinite hother
      rw [ofPayload_of_reads hreport' hdata' h' hfinite']
      exact ⟨fun _ himp => absurd himp hfirst, fun _ => rfl⟩

theorem fetch_of_infinite {source : Source} {asked : Nat} {name : String} {filters : Entries}
    (h : (source asked ⟨Text.lower (Text.strip name), filters⟩).outcome = .error .infiniteInteger) :
    (fetch (some source) asked name filters).outcome = .ok none := by
  rw [fetch]
  dsimp only
  rw [h]
  rfl

/-- The series of a report are the points of its rows, and each object that is no row is skipped with a
warning, if and only if no row has an infinite count. If one has, the payload is not read at all, and the
report has no table. A further item that is no row changes nothing, unless it is the first infinite one. -/
theorem series_is_read_iff {payload report : Entries} {items : List Value}
    (hreport : Entries.get? payload "report" = some (.object report))
    (hdata : Entries.get? report "data" = some (.list items)) :
    (∃ points warnings, Reads items points warnings) ∧
      (∀ points warnings, Reads items points warnings →
        (ofPayload (.object payload) = ⟨.ok (some points), List.replicate warnings malformedRow⟩ ↔
          ∀ item ∈ items, ¬ IsInfinite item)) ∧
      ((∃ item ∈ items, IsInfinite item) →
        (ofPayload (.object payload)).outcome = .error .infiniteInteger ∧
          ∀ (source : Source) (asked : Nat) (name : String) (filters : Entries),
            source asked ⟨Text.lower (Text.strip name), filters⟩ = ofPayload (.object payload) →
              (fetch (some source) asked name filters).outcome = .ok none) ∧
      ∀ (pre post : List Value) (item : Value) (payload' report' : Entries), items = pre ++ post →
        (∀ p, ¬ IsPoint item p) → Entries.get? payload' "report" = some (.object report') →
          Entries.get? report' "data" = some (.list (pre ++ item :: post)) →
            ((ofPayload (.object payload')).outcome = (ofPayload (.object payload)).outcome ↔
              (IsInfinite item → ∃ other ∈ items, IsInfinite other)) := by
  have hlost := ofPayload_of_infinite hreport hdata
  refine ⟨Reads.exists items, ?_, ?_, ?_⟩
  · intro points warnings h
    constructor
    · intro hread item hitem hinfinite
      have herror := hlost ⟨item, hitem, hinfinite⟩
      rw [hread] at herror
      cases herror
    · exact ofPayload_of_reads hreport hdata h
  · intro hinfinite
    refine ⟨hlost hinfinite, ?_⟩
    intro source asked name filters hsource
    exact fetch_of_infinite (hsource ▸ hlost hinfinite)
  · rintro pre post item payload' report' rfl hitem hreport' hdata'
    exact ofPayload_insert_iff hreport hdata hreport' hdata' hitem

theorem series_is_read_iff_mixed :
    ofPayload (.object [("report", .object [("data", .list [.text "2024-03-01",
        .object [("x", .text " 2024-03-01T00:00:00 "), ("y", .text "٤_0")],
        .object [("y", .float .nan), ("x", .text "2024-03-02")],
        .object [("x", .text "2024-03-03"), ("y", .null)]])])]) =
      ⟨.ok (some [⟨⟨2024, 3, 1, by decide⟩, 40⟩, ⟨⟨2024, 3, 3, by decide⟩, 0⟩]),
        List.replicate 1 malformedRow⟩ := by
  have hnan (p : Point) :
      ¬ IsPoint (.object [("y", .float .nan), ("x", .text "2024-03-02")]) p := by
    rintro ⟨_, ⟨⟩, -, hcount⟩
    change Counts (some (.float .nan)) p.count at hcount
    generalize p.count = n at hcount
    cases hcount with
    | empty h => cases h
    | float h => cases h
  refine ((series_is_read_iff rfl rfl).2.1 _ _
    (.passed ?_ (.point ?_ (.skipped hnan (.point ?_ .nil))))).mpr ?_
  · intro entries h
    cases h
  · exact ⟨_, rfl, rfl, .text rfl⟩
  · exact ⟨_, rfl, rfl, .empty rfl⟩
  · rintro item hmem ⟨entries, day, negative, rfl, -, hy⟩
    simp only [List.mem_cons, reduceCtorEq, Value.object.injEq, List.not_mem_nil, false_or,
      or_false] at hmem
    rcases hmem with rfl | rfl | rfl
    · cases hy
    · cases hy
    · cases hy

/-- The number `1e400` is too large for the binary format, and the row in front of it is lost with it. -/
theorem large_count_loses_report :
    let items : List Value := [.object [("x", .text "2024-03-01"), ("y", .int 4)],
      .object [("x", .text "2024-03-02"), ("y", .float (Number.Binary64.ofDecimal false 1 400))]]
    Reads items [⟨⟨2024, 3, 1, by decide⟩, 4⟩] 1 ∧
      ofPayload (.object [("report", .object [("data", .list items)])]) =
        ⟨.error .infiniteInteger, []⟩ := by
  have hlarge : Number.Binary64.ofDecimal false 1 400 = .infinite false := by
    have hlength : (toString 1).length = 1 := by decide +kernel
    simp only [Number.Binary64.ofDecimal, hlength]
    rfl
  rw [hlarge]
  refine ⟨.point ⟨_, rfl, rfl, .int 4⟩ (.skipped ?_ .nil), rfl⟩
  exact IsInfinite.not_isPoint ⟨_, ⟨2024, 3, 2, by decide⟩, false, rfl, rfl, rfl⟩

end Courier.Report
