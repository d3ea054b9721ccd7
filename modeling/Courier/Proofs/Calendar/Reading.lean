import Courier.Calendar.DateText
import Courier.Proofs.Calendar.TextOrder

/-!
# Reading dates that were written

The text of a date has ten ASCII characters, from which the date is read again.
-/

namespace Courier.Calendar

theorem takeNumber_add (count more n : Nat) (cs : List Char) :
    takeNumber (count + more) n cs =
      (takeNumber count n cs).bind fun read => takeNumber more read.1 read.2 := by
  induction count generalizing n cs with
  | zero => rw [Nat.zero_add]; rfl
  | succ count ih =>
    rw [Nat.add_right_comm]
    cases cs with
    | nil => rfl
    | cons c cs =>
      rw [takeNumber, takeNumber]
      split
      · exact ih _ cs
      · rfl

theorem takeNumber_digitChar {d : Nat} (h : d < 10) (n : Nat) (rest : List Char) :
    takeNumber 1 n (d.digitChar :: rest) = some (10 * n + d, rest) := by
  have hall : ∀ d < 10, ('0' ≤ d.digitChar ∧ d.digitChar ≤ '9') ∧
      d.digitChar.toNat - '0'.toNat = d := by decide
  obtain ⟨hdigit, hvalue⟩ := hall d h
  rw [takeNumber, if_pos hdigit, hvalue, takeNumber]

/-- The digits of a number are read as that number. -/
theorem takeNumber_digits {width m : Nat} (h : m < 10 ^ width) (n : Nat) (rest : List Char) :
    takeNumber width n (digits width m ++ rest) = some (10 ^ width * n + m, rest) := by
  induction width generalizing m rest with
  | zero =>
    obtain rfl : m = 0 := by omega
    simp [takeNumber, digits]
  | succ width ih =>
    have hdiv : m / 10 < 10 ^ width := by
      rw [Nat.pow_succ] at h
      omega
    rw [takeNumber_add, digits, List.append_assoc, ih hdiv, Option.bind_some, List.cons_append,
      List.nil_append, takeNumber_digitChar (Nat.mod_lt m (by decide)), Nat.pow_succ]
    have hvalue : 10 * (10 ^ width * n + m / 10) + m % 10 = 10 ^ width * 10 * n + m := by
      rw [Nat.mul_add, Nat.add_assoc, Nat.div_add_mod, Nat.mul_comm (10 ^ width) 10, Nat.mul_assoc]
    rw [hvalue]

theorem digitChar_ascii {d : Nat} (h : d < 10) : d.digitChar.toNat < 0x80 := by
  have hall : ∀ d < 10, d.digitChar.toNat < 0x80 := by decide
  exact hall d h

theorem mem_digits {width n : Nat} {c : Char} (h : c ∈ digits width n) : ∃ d < 10, c = d.digitChar := by
  induction width generalizing n with
  | zero => cases h
  | succ width ih =>
    rw [digits] at h
    rcases List.mem_append.mp h with h | h
    · exact ih h
    · exact ⟨n % 10, Nat.mod_lt n (by decide), List.mem_singleton.mp h⟩

theorem mem_isoText {d : Date} {c : Char} (h : c ∈ d.isoText.toList) :
    c = '-' ∨ ∃ n < 10, c = n.digitChar := by
  rw [Date.toList_isoText] at h
  simp only [List.mem_append, List.mem_cons] at h
  rcases h with h | h | h | h | h
  · exact Or.inr (mem_digits h)
  · exact Or.inl h
  · exact Or.inr (mem_digits h)
  · exact Or.inl h
  · exact Or.inr (mem_digits h)

theorem bytes_of_ascii {s : String} (h : ∀ c ∈ s.toList, c.toNat < 0x80) : bytes s = s.toList := by
  rw [bytes]
  generalize s.toList = cs at h
  induction cs with
  | nil => rfl
  | cons c cs ih =>
    rw [List.flatMap_cons, if_pos (h c List.mem_cons_self),
      ih fun d hd => h d (List.mem_cons_of_mem c hd)]
    rfl

theorem digits_ne_week (width n : Nat) (rest more : List Char) :
    digits (width + 1) n ++ rest ≠ 'W' :: more := by
  intro h
  have hmem : 'W' ∈ digits (width + 1) n := by
    cases hdigits : digits (width + 1) n with
    | nil =>
      have hlength := length_digits (width + 1) n
      rw [hdigits] at hlength
      cases hlength
    | cons c cs =>
      rw [hdigits] at h
      rw [(List.cons.inj h).1]
      exact List.mem_cons_self
  obtain ⟨d, hd, hW⟩ := mem_digits hmem
  have hall : ∀ d < 10, 'W' ≠ d.digitChar := by decide
  exact hall d hd hW

theorem readMonthDate_digits (d : Date) :
    readMonthDate true d.year (digits 2 d.month ++ '-' :: digits 2 d.day) = some d := by
  obtain ⟨-, ⟨-, hmonth⟩, -, hday⟩ := d.isDate
  have hlength := monthLength_le d.year d.month
  have hdayRead : takeNumber 2 0 (digits 2 d.day) = some (10 ^ 2 * 0 + d.day, []) := by
    rw [← List.append_nil (digits 2 d.day)]
    exact takeNumber_digits (by omega) 0 []
  rw [readMonthDate, takeNumber_digits (by omega)]
  dsimp only [Option.bind_eq_bind, Option.bind_some, dropHyphen]
  simp only [if_true, Option.bind_some, hdayRead, Nat.mul_zero, Nat.zero_add]
  exact dif_pos d.isDate

theorem readDate_isoText (d : Date) : readDate d.isoText = some d := by
  have hascii : ∀ c ∈ d.isoText.toList, c.toNat < 0x80 := by
    intro c hc
    rcases mem_isoText hc with rfl | ⟨n, hn, rfl⟩
    · decide
    · exact digitChar_ascii hn
  obtain ⟨⟨-, hyear⟩, -⟩ := d.isDate
  rw [lastYear] at hyear
  have hchars : d.isoText.toList.length = 10 := by
    rw [Date.toList_isoText]
    simp
  rw [readDate, bytes_of_ascii hascii, if_pos (Or.inr (Or.inr hchars)), Date.toList_isoText,
    readDateChars, takeNumber_digits (by omega), Nat.mul_zero, Nat.zero_add]
  dsimp only [Option.bind_eq_bind, Option.bind_some]
  split
  · rename_i more hweek
    exact absurd hweek (digits_ne_week 1 _ _ _)
  · exact readMonthDate_digits d

end Courier.Calendar
