import Courier.Calendar.Instant

/-!
# Days by their numbers

`Date.ofOrdinal?` finds the date of each day of the calendar: its number is the one that was asked for.
So dates are in the order of their years, their months and their days of the month.
-/

namespace Courier.Calendar

/-! ## Years -/

def yearLength (year : Nat) : Nat :=
  if isLeap year then 366 else 365

theorem isLeap_iff (year : Nat) :
    isLeap year = true ↔ year % 4 = 0 ∧ (year % 100 ≠ 0 ∨ year % 400 = 0) := by
  simp [isLeap]

namespace Date

theorem div_succ (n k : Nat) :
    (n + 1) / k = n / k + if (n + 1) % k = 0 then 1 else 0 := by
  split
  · rename_i hmod
    exact Nat.succ_div_of_mod_eq_zero hmod
  · rename_i hmod
    exact Nat.succ_div_of_mod_ne_zero hmod

theorem daysBeforeYear_succ {year : Nat} (h : 1 ≤ year) :
    daysBeforeYear (year + 1) = daysBeforeYear year + yearLength year := by
  obtain ⟨n, rfl⟩ : ∃ n, year = n + 1 := ⟨year - 1, by omega⟩
  have hle : n / 100 ≤ n / 4 := Nat.div_le_div_left (by decide) (by decide)
  have h100 : (n + 1) % 100 = 0 → (n + 1) % 4 = 0 := by omega
  have h400 : (n + 1) % 400 = 0 → (n + 1) % 100 = 0 := by omega
  rw [daysBeforeYear, daysBeforeYear, yearLength]
  simp only [Nat.add_sub_cancel, div_succ n 4, div_succ n 100, div_succ n 400, isLeap_iff]
  generalize n / 4 = q4 at hle ⊢
  generalize n / 100 = q100 at hle ⊢
  generalize n / 400 = q400
  by_cases hmod4 : (n + 1) % 4 = 0
  · by_cases hmod100 : (n + 1) % 100 = 0
    · by_cases hmod400 : (n + 1) % 400 = 0
      · simp only [hmod4, hmod100, hmod400, if_true, and_self, or_true]
        omega
      · simp only [hmod4, hmod100, hmod400, if_true, if_false, ne_eq, not_true_eq_false, or_self,
          and_false]
        omega
    · have hmod400 : (n + 1) % 400 ≠ 0 := fun hmod => hmod100 (h400 hmod)
      simp only [hmod4, hmod100, hmod400, if_true, if_false, ne_eq, not_false_eq_true, true_or,
        and_self]
      omega
  · have hmod100 : (n + 1) % 100 ≠ 0 := fun hmod => hmod4 (h100 hmod)
    have hmod400 : (n + 1) % 400 ≠ 0 := fun hmod => hmod100 (h400 hmod)
    simp only [hmod4, hmod100, hmod400, if_false, false_and]
    omega

theorem daysBeforeYear_mono {year year' : Nat} (h : 1 ≤ year) (hle : year ≤ year') :
    daysBeforeYear year ≤ daysBeforeYear year' := by
  induction hle with
  | refl => exact Nat.le_refl _
  | @step year' hle ih =>
    have hyear : 1 ≤ year' := Nat.le_trans h hle
    rw [daysBeforeYear_succ hyear]
    omega

/-- The spans of 400, 100, 4 years and one year before the year of a day add up to the days before it. -/
theorem daysBeforeYear_spans {n400 n100 n4 n1 : Nat} (h100 : n100 ≤ 3) (h4 : n4 ≤ 24) (h1 : n1 ≤ 3) :
    daysBeforeYear (400 * n400 + 100 * n100 + 4 * n4 + n1 + 1) =
      146097 * n400 + 36524 * n100 + 1461 * n4 + 365 * n1 := by
  unfold daysBeforeYear
  dsimp only
  omega

theorem yearOf_spec (days : Nat) :
    daysBeforeYear (yearOf days).1 + (yearOf days).2 = days ∧
      (yearOf days).2 < yearLength (yearOf days).1 ∧ 1 ≤ (yearOf days).1 := by
  unfold yearOf
  dsimp only
  generalize h400 : days / 146097 = n400
  generalize hr400 : days % 146097 = r400
  generalize h100 : min 3 (r400 / 36524) = n100
  generalize hr100 : r400 - 36524 * n100 = r100
  generalize h4 : r100 / 1461 = n4
  generalize hr4 : r100 % 1461 = r4
  generalize h1 : min 3 (r4 / 365) = n1
  have hn100 : n100 ≤ 3 := by omega
  have hn1 : n1 ≤ 3 := by omega
  have hr100_le : r100 ≤ 36524 := by omega
  have hn4 : n4 ≤ 24 := by omega
  rw [daysBeforeYear_spans hn100 hn4 hn1]
  refine ⟨by omega, ?_, by omega⟩
  have hleap := isLeap_iff (400 * n400 + 100 * n100 + 4 * n4 + n1 + 1)
  unfold yearLength
  split
  · omega
  · rename_i hyear
    simp only [hyear, Bool.false_eq_true, false_iff] at hleap
    -- A year whose extra day would be asked for is the last one of its four years, and no leap year
    -- only if it is the last one of a hundred years as well.
    omega

/-! ## Months -/

theorem daysBeforeMonth_succ (year : Nat) {month : Nat} (h : 1 ≤ month) :
    daysBeforeMonth year (month + 1) = daysBeforeMonth year month + monthLength year month := by
  obtain ⟨m, rfl⟩ : ∃ m, month = m + 1 := ⟨month - 1, by omega⟩
  simp only [daysBeforeMonth, Nat.add_sub_cancel, List.range_succ, List.foldl_append,
    List.foldl_cons, List.foldl_nil]

theorem daysBeforeMonth_mono (year : Nat) {month month' : Nat} (h : 1 ≤ month)
    (hle : month ≤ month') : daysBeforeMonth year month ≤ daysBeforeMonth year month' := by
  induction hle with
  | refl => exact Nat.le_refl _
  | @step month' hle ih =>
    rw [daysBeforeMonth_succ year (Nat.le_trans h hle)]
    omega

theorem daysBeforeMonth_last (year : Nat) : daysBeforeMonth year 13 = yearLength year := by
  have hmonths : daysBeforeMonth year 13 = 337 + monthLength year 2 := by
    simp [daysBeforeMonth, List.range_succ, monthLength]
    omega
  rw [hmonths, monthLength, yearLength]
  split
  · rfl
  · rfl

theorem findMonth_spec (year more month left : Nat) (hmonth : 1 ≤ month) (hmore : month + more = 12)
    (hleft : daysBeforeMonth year month + left < yearLength year) :
    daysBeforeMonth year (findMonth year more month left).1 + (findMonth year more month left).2 =
        daysBeforeMonth year month + left + 1 ∧
      (month ≤ (findMonth year more month left).1 ∧ (findMonth year more month left).1 ≤ 12) ∧
      (1 ≤ (findMonth year more month left).2 ∧
        (findMonth year more month left).2 ≤ monthLength year (findMonth year more month left).1) := by
  induction more generalizing month left with
  | zero =>
    obtain rfl : month = 12 := by omega
    have hlast : yearLength year = daysBeforeMonth year 12 + monthLength year 12 :=
      (daysBeforeMonth_last year).symm.trans (daysBeforeMonth_succ year hmonth)
    rw [findMonth]
    dsimp only
    omega
  | succ more ih =>
    rw [findMonth]
    split
    · dsimp only
      omega
    · rename_i hnext
      have hsucc := daysBeforeMonth_succ year hmonth
      have hrest := ih (month + 1) (left - monthLength year month) (by omega) (by omega) (by omega)
      omega

/-! ## Dates -/

theorem ofOrdinal?_spec {day : Nat} (h : day < calendarDays) :
    ∃ d, ofOrdinal? (day + 1) = some d ∧ d.ordinal = day + 1 := by
  obtain ⟨hdays, hleft, hyear⟩ := yearOf_spec day
  generalize hy : (yearOf day).1 = year at hdays hleft hyear
  generalize hl : (yearOf day).2 = left at hdays hleft
  have hlast : year ≤ lastYear := by
    refine Nat.le_of_not_lt fun hlate => ?_
    rw [lastYear] at hlate
    have hmono : daysBeforeYear 10000 ≤ daysBeforeYear year := daysBeforeYear_mono (by decide) hlate
    have hend : daysBeforeYear 10000 = calendarDays := by decide
    omega
  have hfirst : daysBeforeMonth year 1 = 0 := rfl
  obtain ⟨hsum, ⟨hmonth, hmonth'⟩, hday, hday'⟩ := findMonth_spec year 11 1 left (by omega) (by omega)
    (by omega)
  have hdate : IsDate year (findMonth year 11 1 left).1 (findMonth year 11 1 left).2 :=
    ⟨⟨hyear, hlast⟩, ⟨hmonth, hmonth'⟩, hday, hday'⟩
  refine ⟨⟨year, (findMonth year 11 1 left).1, (findMonth year 11 1 left).2, hdate⟩, ?_, ?_⟩
  · rw [ofOrdinal?, if_neg (by omega), Nat.add_sub_cancel]
    dsimp only
    rw [hy, hl, of?, dif_pos hdate]
  · rw [ordinal]
    dsimp only
    omega

/-- The order of dates by year, month and day. -/
def Before (d d' : Date) : Prop :=
  d.year < d'.year ∨ d.year = d'.year ∧
    (d.month < d'.month ∨ d.month = d'.month ∧ d.day < d'.day)

theorem ordinal_le (d : Date) : d.ordinal ≤ daysBeforeYear (d.year + 1) := by
  obtain ⟨⟨hyear, -⟩, ⟨hmonth, hmonth'⟩, -, hday⟩ := d.isDate
  have hsucc := daysBeforeMonth_succ d.year hmonth
  have hmono : daysBeforeMonth d.year (d.month + 1) ≤ daysBeforeMonth d.year 13 :=
    daysBeforeMonth_mono d.year (by omega) (by omega)
  rw [daysBeforeMonth_last] at hmono
  rw [daysBeforeYear_succ hyear, ordinal]
  omega

theorem ordinal_lt {d d' : Date} (h : d.Before d') : d.ordinal < d'.ordinal := by
  obtain ⟨⟨hyear, -⟩, ⟨hmonth, -⟩, -, hday⟩ := d.isDate
  obtain ⟨-, -, hday', -⟩ := d'.isDate
  rcases h with hlt | ⟨heq, hlt | ⟨hmonths, hlt⟩⟩
  · have hle := ordinal_le d
    have hmono : daysBeforeYear (d.year + 1) ≤ daysBeforeYear d'.year :=
      daysBeforeYear_mono (by omega) hlt
    have hafter : daysBeforeYear d'.year < d'.ordinal := by
      rw [ordinal]
      omega
    omega
  · have hsucc := daysBeforeMonth_succ d.year hmonth
    have hmono : daysBeforeMonth d.year (d.month + 1) ≤ daysBeforeMonth d.year d'.month :=
      daysBeforeMonth_mono d.year (by omega) hlt
    rw [ordinal, ordinal, ← heq]
    omega
  · rw [ordinal, ordinal, ← heq, ← hmonths]
    omega

theorem eq_or_before (d d' : Date) : d = d' ∨ d.Before d' ∨ d'.Before d := by
  obtain ⟨year, month, day, h⟩ := d
  obtain ⟨year', month', day', h'⟩ := d'
  simp only [mk.injEq, Before]
  omega

/-- Dates are in the order of their numbers. -/
theorem before_of_ordinal_lt {d d' : Date} (h : d.ordinal < d'.ordinal) : d.Before d' := by
  rcases eq_or_before d d' with rfl | hbefore | hafter
  · omega
  · exact hbefore
  · have hlt := ordinal_lt hafter
    omega

end Date

end Courier.Calendar
