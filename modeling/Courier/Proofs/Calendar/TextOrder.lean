import Courier.Proofs.Calendar.Days
import Courier.Proofs.Number.Digits
import Mathlib.Algebra.Group.Nat.Defs

/-!
# The order of the texts of instants

The text of an instant has its parts from the greatest to the smallest, each with a fixed number of
digits. Only the fraction of a second may be missing; then a plus sign stands where a point would be,
which comes before it. So texts are in the order of the instants that they stand for.
-/

namespace Courier.Calendar

/-! ## Texts of one length -/

/-- The texts have the same length, and the first one comes before the second. -/
structure Precedes (cs ds : List Char) : Prop where
  length_eq : cs.length = ds.length
  lt : cs < ds

theorem append_lt_append_left (cs : List Char) {ds es : List Char} (h : ds < es) :
    cs ++ ds < cs ++ es := by
  induction cs with
  | nil => exact h
  | cons c cs ih => exact List.cons_lt_cons_iff.mpr (Or.inr ⟨rfl, ih⟩)

namespace Precedes
variable {cs ds : List Char}

theorem append (h : Precedes cs ds) (rest rest' : List Char) : cs ++ rest < ds ++ rest' := by
  obtain ⟨hlength, hlt⟩ := h
  induction cs generalizing ds with
  | nil =>
    obtain rfl := List.length_eq_zero_iff.mp hlength.symm
    exact absurd hlt (List.not_lt_nil _)
  | cons c cs ih =>
    obtain ⟨d, ds, rfl⟩ := List.exists_cons_of_length_eq_add_one hlength.symm
    simp only [List.length_cons, Nat.add_right_cancel_iff] at hlength
    rw [List.cons_append, List.cons_append]
    apply List.cons_lt_cons_iff.mpr
    rcases List.cons_lt_cons_iff.mp hlt with hc | ⟨hc, htail⟩
    · exact Or.inl hc
    · exact Or.inr ⟨hc, ih hlength htail⟩

/-- What follows does not matter where the texts differ before. -/
theorem append_right (h : Precedes cs ds) {rest rest' : List Char}
    (hrest : rest.length = rest'.length) : Precedes (cs ++ rest) (ds ++ rest') :=
  ⟨by rw [List.length_append, List.length_append, h.length_eq, hrest], h.append rest rest'⟩

theorem append_left (cs : List Char) {ds es : List Char} (h : Precedes ds es) :
    Precedes (cs ++ ds) (cs ++ es) :=
  ⟨by rw [List.length_append, List.length_append, h.length_eq], append_lt_append_left cs h.lt⟩

theorem cons (c : Char) (h : Precedes cs ds) : Precedes (c :: cs) (c :: ds) :=
  h.append_left [c]

end Precedes

/-! ## Digits -/

/-- The last digits of a number, so many of them. -/
def digits : Nat → Nat → List Char
  | 0, _ => []
  | width + 1, n => digits width (n / 10) ++ [(n % 10).digitChar]

@[simp] theorem length_digits (width n : Nat) : (digits width n).length = width := by
  induction width generalizing n with
  | zero => rfl
  | succ width ih => simp [digits, ih]

theorem digits_zero (width : Nat) : digits width 0 = List.replicate width '0' := by
  induction width with
  | zero => rfl
  | succ width ih =>
    rw [digits, ih, List.replicate_succ']
    rfl

theorem toDigits_padded (width n : Nat) (h : n < 10 ^ width) (hwidth : 0 < width) :
    List.replicate (width - (Nat.toDigits 10 n).length) '0' ++ Nat.toDigits 10 n =
      digits width n := by
  induction width generalizing n with
  | zero => omega
  | succ width ih =>
    rw [digits]
    by_cases hsmall : n < 10
    · rw [Nat.toDigits_of_lt_base hsmall, Nat.div_eq_of_lt hsmall, Nat.mod_eq_of_lt hsmall, digits_zero]
      rfl
    · have hdiv : n / 10 < 10 ^ width := by
        rw [Nat.pow_succ] at h
        omega
      have hpos : 0 < width := by
        apply Nat.pos_of_ne_zero
        rintro rfl
        omega
      rw [Nat.toDigits_of_base_le (by decide) (by omega), ← ih (n / 10) hdiv hpos, List.length_append,
        List.append_assoc]
      simp

theorem toList_padded (width n : Nat) (h : n < 10 ^ width) (hwidth : 0 < width) :
    (Number.padded width n).toList = digits width n := by
  rw [← toDigits_padded width n h hwidth, Number.padded, String.toList_append, Number.toList_pushn,
    Number.length_toString, Number.toList_toString]
  rfl

theorem digitChar_lt {m n : Nat} (h : m < n) (hn : n < 10) : m.digitChar < n.digitChar := by
  have hall : ∀ n < 10, ∀ m < n, m.digitChar < n.digitChar := by decide
  exact hall n hn m h

theorem precedes_digits (width : Nat) {m n : Nat} (h : m < n) (hn : n < 10 ^ width) :
    Precedes (digits width m) (digits width n) := by
  induction width generalizing m n with
  | zero => omega
  | succ width ih =>
    rw [digits, digits]
    have hdiv : n / 10 < 10 ^ width := by
      rw [Nat.pow_succ] at hn
      omega
    rcases Nat.lt_or_ge (m / 10) (n / 10) with hlt | hge
    · exact (ih hlt hdiv).append_right rfl
    · obtain heq : m / 10 = n / 10 := by omega
      rw [heq]
      refine .append_left _ ⟨rfl, List.cons_lt_cons_iff.mpr (Or.inl ?_)⟩
      exact digitChar_lt (by omega) (by omega)

/-! ## Dates -/

theorem monthLength_le (year month : Nat) : monthLength year month ≤ 31 := by
  unfold monthLength
  split
  · split <;> decide
  all_goals decide

theorem Date.toList_isoText (d : Date) :
    d.isoText.toList = digits 4 d.year ++ '-' :: (digits 2 d.month ++ '-' :: digits 2 d.day) := by
  obtain ⟨⟨-, hyear⟩, ⟨-, hmonth⟩, -, hday⟩ := d.isDate
  have hlength := monthLength_le d.year d.month
  rw [lastYear] at hyear
  simp only [isoText, String.toList_append, toList_padded 4 d.year (by omega) (by decide),
    toList_padded 2 d.month (by omega) (by decide), toList_padded 2 d.day (by omega) (by decide),
    List.append_assoc]
  rfl

theorem Date.precedes_isoText {d d' : Date} (h : d.Before d') :
    Precedes d.isoText.toList d'.isoText.toList := by
  obtain ⟨⟨-, hyear⟩, ⟨-, hmonth⟩, -, hday⟩ := d'.isDate
  have hlength := monthLength_le d'.year d'.month
  rw [lastYear] at hyear
  rw [Date.toList_isoText, Date.toList_isoText]
  rcases h with hlt | ⟨heq, hlt | ⟨heq', hlt⟩⟩
  · exact (precedes_digits 4 hlt (by omega)).append_right (by simp)
  · rw [heq]
    apply Precedes.append_left (digits 4 d'.year)
    apply Precedes.cons
    exact (precedes_digits 2 hlt (by omega)).append_right (by simp)
  · rw [heq, heq']
    apply Precedes.append_left (digits 4 d'.year)
    apply Precedes.cons
    apply Precedes.append_left (digits 2 d'.month)
    apply Precedes.cons
    exact precedes_digits 2 hlt (by omega)

theorem precedes_dayText {day day' : Nat} (h : day < day') (hday' : day' < calendarDays) :
    Precedes (dayText day).toList (dayText day').toList := by
  obtain ⟨d, hd, hordinal⟩ := Date.ofOrdinal?_spec (Nat.lt_trans h hday')
  obtain ⟨d', hd', hordinal'⟩ := Date.ofOrdinal?_spec hday'
  rw [dayText, dayText, hd, hd']
  exact Date.precedes_isoText (Date.before_of_ordinal_lt (by omega))

/-! ## Times of day -/

/-- The hours, minutes and seconds of a time of day. -/
def clockChars (seconds : Nat) : List Char :=
  digits 2 (seconds / 3600) ++ (':' :: (digits 2 (seconds / 60 % 60) ++ (':' :: digits 2 (seconds % 60))))

def fractionChars (micros : Nat) : List Char :=
  if micros = 0 then [] else '.' :: digits 6 micros

theorem toList_timeText {micros : Nat} (h : micros < microsPerDay) :
    (timeText micros).toList =
      clockChars (micros / microsPerSecond) ++ fractionChars (micros % microsPerSecond) := by
  have hday : micros / microsPerSecond < 86400 := Nat.div_lt_of_lt_mul (by rwa [Nat.mul_comm])
  have hrest : micros % microsPerSecond < 10 ^ 6 := Nat.mod_lt _ (by decide)
  simp only [timeText]
  generalize micros / microsPerSecond = seconds at hday ⊢
  simp only [clockChars, fractionChars, String.toList_append,
    toList_padded 2 (seconds / 3600) (by omega) (by decide),
    toList_padded 2 (seconds / 60 % 60) (by omega) (by decide),
    toList_padded 2 (seconds % 60) (by omega) (by decide), List.append_assoc]
  split
  · rfl
  · rw [String.toList_append, toList_padded 6 _ hrest (by decide)]
    rfl

theorem precedes_clockChars {seconds seconds' : Nat} (h : seconds < seconds')
    (hday : seconds' < 86400) : Precedes (clockChars seconds) (clockChars seconds') := by
  rw [clockChars, clockChars]
  rcases Nat.lt_or_ge (seconds / 3600) (seconds' / 3600) with hhours | hhours
  · exact (precedes_digits 2 hhours (by omega)).append_right (by simp)
  · obtain heq : seconds / 3600 = seconds' / 3600 := by omega
    rw [heq]
    apply Precedes.append_left (digits 2 (seconds' / 3600))
    apply Precedes.cons
    rcases Nat.lt_or_ge (seconds / 60 % 60) (seconds' / 60 % 60) with hminutes | hminutes
    · exact (precedes_digits 2 hminutes (by omega)).append_right (by simp)
    · obtain heq' : seconds / 60 % 60 = seconds' / 60 % 60 := by omega
      rw [heq']
      apply Precedes.append_left (digits 2 (seconds' / 60 % 60))
      apply Precedes.cons
      exact precedes_digits 2 (by omega) (by omega)

/-- A fraction that is missing is the smallest one, since a plus sign comes before a point. -/
theorem fractionChars_lt {micros micros' : Nat} (h : micros < micros')
    (hsecond : micros' < microsPerSecond) (zone : List Char) :
    fractionChars micros ++ '+' :: zone < fractionChars micros' ++ '+' :: zone := by
  rw [fractionChars, fractionChars, if_neg (Nat.ne_zero_of_lt h)]
  split
  · exact List.cons_lt_cons_iff.mpr (Or.inl (by decide))
  · exact append_lt_append_left ['.'] ((precedes_digits 6 h hsecond).append _ _)

/-! ## Instants -/

theorem mod_lt_mod_of_lt {m n k : Nat} (h : m < n) (heq : m / k = n / k) : m % k < n % k := by
  have hm := Nat.div_add_mod m k
  have hn := Nat.div_add_mod n k
  rw [heq] at hm
  omega

namespace Instant

theorem toList_text (t : Instant) :
    t.text.toList = (dayText (t.micros / microsPerDay)).toList ++ ('T' ::
      (clockChars (t.micros % microsPerDay / microsPerSecond) ++
        (fractionChars (t.micros % microsPerDay % microsPerSecond) ++ '+' :: "00:00".toList))) := by
  have hday : t.micros % microsPerDay < microsPerDay := Nat.mod_lt _ (by decide)
  have htime := toList_timeText hday
  simp only [text, dayTimeText, String.toList_append, htime, List.append_assoc]
  rfl

theorem text_lt {s t : Instant} (h : s < t) : s.text < t.text := by
  have hmicros : s.micros < t.micros := h
  have hend := t.inRange
  rw [endOfTime] at hend
  rw [String.lt_iff, toList_text, toList_text]
  have hday : t.micros / microsPerDay < calendarDays :=
    Nat.div_lt_of_lt_mul (by rwa [Nat.mul_comm])
  rcases Nat.lt_or_ge (s.micros / microsPerDay) (t.micros / microsPerDay) with hdays | hdays
  · exact (precedes_dayText hdays hday).append _ _
  · obtain heq : s.micros / microsPerDay = t.micros / microsPerDay :=
      Nat.le_antisymm (Nat.div_le_div_right (Nat.le_of_lt hmicros)) hdays
    rw [heq]
    apply append_lt_append_left (dayText (t.micros / microsPerDay)).toList
    apply append_lt_append_left ['T']
    have htime := mod_lt_mod_of_lt hmicros heq
    have hclock : t.micros % microsPerDay / microsPerSecond < 86400 :=
      Nat.div_lt_of_lt_mul (by rw [Nat.mul_comm]; exact Nat.mod_lt _ (by decide))
    generalize s.micros % microsPerDay = m at htime ⊢
    generalize t.micros % microsPerDay = n at htime hclock ⊢
    rcases Nat.lt_or_ge (m / microsPerSecond) (n / microsPerSecond) with hseconds | hseconds
    · exact (precedes_clockChars hseconds hclock).append _ _
    · obtain heq' : m / microsPerSecond = n / microsPerSecond :=
        Nat.le_antisymm (Nat.div_le_div_right (Nat.le_of_lt htime)) hseconds
      rw [heq']
      apply append_lt_append_left (clockChars (n / microsPerSecond))
      exact fractionChars_lt (mod_lt_mod_of_lt htime heq') (Nat.mod_lt _ (by decide)) _

theorem eq_of_micros {s t : Instant} (h : s.micros = t.micros) : s = t := by
  obtain ⟨micros, _⟩ := s
  obtain ⟨micros', _⟩ := t
  cases h
  rfl

theorem lt_or_eq_or_lt (s t : Instant) : s < t ∨ s = t ∨ t < s := by
  rcases Nat.lt_trichotomy s.micros t.micros with h | h | h
  · exact Or.inl h
  · exact Or.inr (Or.inl (eq_of_micros h))
  · exact Or.inr (Or.inr h)

/-- Texts of instants are in the order of time. -/
theorem text_lt_iff {s t : Instant} : s.text < t.text ↔ s < t := by
  refine ⟨fun h => ?_, text_lt⟩
  rcases lt_or_eq_or_lt s t with hlt | rfl | hgt
  · exact hlt
  · exact absurd h (String.lt_irrefl _)
  · exact absurd (String.lt_trans h (text_lt hgt)) (String.lt_irrefl _)

theorem text_le_iff {s t : Instant} : s.text ≤ t.text ↔ s ≤ t := by
  rw [← String.not_lt, text_lt_iff]
  exact Nat.not_lt

/-- The empty text comes before the text of every instant. -/
theorem not_text_lt_empty (t : Instant) : ¬ t.text < "" := by
  rw [String.lt_iff]
  exact List.not_lt_nil _

end Instant

end Courier.Calendar
