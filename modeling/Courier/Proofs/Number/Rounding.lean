import Courier.Number.Shortest
import Mathlib.Algebra.Order.Field.Power
import Mathlib.Algebra.Order.Ring.Rat
import Mathlib.Tactic.Linarith
import Mathlib.Tactic.NormNum
import Mathlib.Tactic.Positivity
import Mathlib.Tactic.Ring

/-!
# Rounding to binary numbers

What the roundings do is told by the rational numbers that the quotients stand for. A quotient is
rounded to the nearest whole number, and that number is determined by being nearest. So every quotient
in the neighbourhood of a number of the format is rounded to that number, and what comes out of the
rounding is always a number as the format has it.
-/

namespace Courier.Number

namespace Ratio

/-- The quotient as a rational number. -/
def value (q : Ratio) : ℚ :=
  q.num / q.den

theorem value_scale (q : Ratio) {base : Nat} (hbase : 0 < base) (exponent : Int) :
    (q.scale base exponent).value = q.value * (base : ℚ) ^ exponent := by
  have hpos : (base : ℚ) ≠ 0 := by positivity
  cases exponent with
  | ofNat e =>
    simp only [scale, value, Nat.pow_eq, Nat.cast_mul, Nat.cast_pow, Int.ofNat_eq_natCast,
      zpow_natCast]
    ring
  | negSucc e =>
    simp only [scale, value, Nat.pow_eq, Nat.cast_mul, Nat.cast_pow, zpow_negSucc]
    rw [div_mul_eq_div_div, div_eq_mul_inv]

theorem value_scale_nat (n : Nat) {base : Nat} (hbase : 0 < base) (exponent : Int) :
    (Ratio.scale base exponent ⟨n, 1⟩).value = n * (base : ℚ) ^ exponent := by
  rw [value_scale _ hbase, value, Nat.cast_one, div_one]

theorem den_scale_pos {q : Ratio} (hq : 0 < q.den) {base : Nat} (hbase : 0 < base)
    (exponent : Int) : 0 < (q.scale base exponent).den := by
  cases exponent with
  | ofNat e => exact hq
  | negSucc e => exact Nat.mul_pos hq (Nat.pow_pos hbase)

theorem lt_iff {q r : Ratio} (hq : 0 < q.den) (hr : 0 < r.den) :
    q.lt r = true ↔ q.value < r.value := by
  have hq' : (0 : ℚ) < q.den := by exact_mod_cast hq
  have hr' : (0 : ℚ) < r.den := by exact_mod_cast hr
  rw [lt, decide_eq_true_iff, value, value, div_lt_div_iff₀ hq' hr']
  norm_cast

/-- The whole number is nearest to the rational number, or as near as another one and even. -/
def IsNearest (x : ℚ) (n : Nat) : Prop :=
  |x - n| ≤ 1 / 2 ∧ (|x - n| = 1 / 2 → n % 2 = 0)

theorem isNearest_round {q : Ratio} (hq : 0 < q.den) : IsNearest q.value q.round := by
  have hden : (0 : ℚ) < q.den := by exact_mod_cast hq
  have hvalue : q.value = (q.num / q.den : Nat) + ((q.num % q.den : Nat) : ℚ) / q.den := by
    rw [value, eq_comm, add_div' _ _ _ hden.ne', div_left_inj' hden.ne']
    exact_mod_cast Nat.div_add_mod' q.num q.den
  have hrest : q.num % q.den < q.den := Nat.mod_lt _ hq
  rw [round]
  generalize q.num / q.den = floor at *
  generalize q.num % q.den = rest at *
  -- What is left of the quotient behind its whole part.
  obtain ⟨part, hpart⟩ : ∃ part : ℚ, part = rest / q.den := ⟨_, rfl⟩
  rw [← hpart] at hvalue
  have hscaled : part * q.den = rest := by rw [hpart, div_mul_cancel₀ _ hden.ne']
  have hnonneg : 0 ≤ part := hpart ▸ by positivity
  have hbelow : part < 1 := by
    rw [hpart, div_lt_one hden]
    exact_mod_cast hrest
  have hhalf : q.den < 2 * rest ↔ 1 / 2 < part := by
    rw [hpart, div_lt_div_iff₀ two_pos hden, one_mul, mul_comm (rest : ℚ)]
    norm_cast
  have htie : 2 * rest = q.den ↔ part = 1 / 2 := by
    rw [hpart, div_eq_div_iff hden.ne' two_ne_zero, one_mul, mul_comm (rest : ℚ)]
    norm_cast
  simp only [Bool.or_eq_true, Bool.and_eq_true, decide_eq_true_eq, beq_iff_eq, hhalf, htie]
  rw [hvalue]
  split
  · rename_i hup
    have hdistance : |(floor : ℚ) + part - (floor + 1 : Nat)| = 1 - part := by
      rw [abs_of_nonpos (by push_cast; linarith)]
      push_cast
      ring
    rw [IsNearest, hdistance]
    rcases hup with hup | ⟨hup, hodd⟩
    · exact ⟨by linarith, fun heq => by linarith⟩
    · exact ⟨by linarith, fun _ => by omega⟩
  · rename_i hdown
    rw [not_or, not_and, not_lt] at hdown
    have hdistance : |(floor : ℚ) + part - floor| = part := by
      rw [add_sub_cancel_left, abs_of_nonneg hnonneg]
    rw [IsNearest, hdistance]
    refine ⟨hdown.1, fun heq => ?_⟩
    have := hdown.2 heq
    omega

theorem IsNearest.unique {x : ℚ} {n m : Nat} (hn : IsNearest x n) (hm : IsNearest x m) : n = m := by
  have hle : |(n : ℚ) - m| ≤ |x - n| + |x - m| := by
    rw [abs_sub_comm x n]
    simpa using abs_add_le ((n : ℚ) - x) (x - m)
  by_contra hne
  have hone : (1 : ℚ) ≤ |(n : ℚ) - m| := by
    have h : (1 : Int) ≤ |(n : Int) - m| := Int.one_le_abs (by omega)
    exact_mod_cast h
  have htieN : |x - n| = 1 / 2 := by linarith [hn.1, hm.1]
  have htieM : |x - m| = 1 / 2 := by linarith [hn.1, hm.1]
  have hsum : |(n : ℚ) - m| = 1 := by linarith
  have hsum' : |(n : Int) - m| = 1 := by exact_mod_cast hsum
  have heven := hn.2 htieN
  have heven' := hm.2 htieM
  rcases abs_eq (by decide : (0 : Int) ≤ 1) |>.mp hsum' with h | h <;> omega

theorem round_eq {q : Ratio} (hq : 0 < q.den) {n : Nat} (h : IsNearest q.value n) : q.round = n :=
  (isNearest_round hq).unique h

end Ratio

namespace Binary64

section powers
variable {q : Ratio} (hnum : q.num ≠ 0) (hden : 0 < q.den)
include hnum hden

theorem floorLog2_spec :
    (2 : ℚ) ^ floorLog2 q ≤ q.value ∧ q.value < (2 : ℚ) ^ (floorLog2 q + 1) := by
  have hden' : (0 : ℚ) < q.den := by exact_mod_cast hden
  have hnumLow : (2 : ℚ) ^ (q.num.log2 : Int) ≤ q.num := by
    exact_mod_cast Nat.log2_self_le hnum
  have hnumHigh : (q.num : ℚ) < (2 : ℚ) ^ ((q.num.log2 : Int) + 1) := by
    exact_mod_cast Nat.lt_log2_self
  have hdenLow : (2 : ℚ) ^ (q.den.log2 : Int) ≤ q.den := by
    exact_mod_cast Nat.log2_self_le hden.ne'
  have hdenHigh : (q.den : ℚ) < (2 : ℚ) ^ ((q.den.log2 : Int) + 1) := by
    exact_mod_cast Nat.lt_log2_self
  have hscale (l : Int) : (Ratio.scale 2 l ⟨1, 1⟩).value = (2 : ℚ) ^ l := by
    simpa using Ratio.value_scale_nat 1 two_pos l
  have hlow : (2 : ℚ) ^ ((q.num.log2 : Int) - q.den.log2 - 1) ≤ q.value := by
    rw [Ratio.value, le_div_iff₀ hden']
    calc (2 : ℚ) ^ ((q.num.log2 : Int) - q.den.log2 - 1) * q.den
        ≤ (2 : ℚ) ^ ((q.num.log2 : Int) - q.den.log2 - 1) * (2 : ℚ) ^ ((q.den.log2 : Int) + 1) := by
          gcongr
      _ = (2 : ℚ) ^ (q.num.log2 : Int) := by
          rw [← zpow_add₀ two_ne_zero]
          congr 1
          ring
      _ ≤ q.num := hnumLow
  have hhigh : q.value < (2 : ℚ) ^ ((q.num.log2 : Int) - q.den.log2 + 1) := by
    rw [Ratio.value, div_lt_iff₀ hden']
    calc (q.num : ℚ) < (2 : ℚ) ^ ((q.num.log2 : Int) + 1) := hnumHigh
      _ = (2 : ℚ) ^ ((q.num.log2 : Int) - q.den.log2 + 1) * (2 : ℚ) ^ (q.den.log2 : Int) := by
          rw [← zpow_add₀ two_ne_zero]
          congr 1
          ring
      _ ≤ (2 : ℚ) ^ ((q.num.log2 : Int) - q.den.log2 + 1) * q.den := by
          gcongr
  rw [floorLog2]
  split
  · rename_i hlt
    rw [Ratio.lt_iff hden (Ratio.den_scale_pos one_pos two_pos _), hscale] at hlt
    rw [sub_add_cancel]
    exact ⟨hlow, hlt⟩
  · rename_i hge
    rw [Ratio.lt_iff hden (Ratio.den_scale_pos one_pos two_pos _), hscale, not_lt] at hge
    exact ⟨hge, hhigh⟩

theorem floorLog2_lt {k : Int} (h : q.value < (2 : ℚ) ^ k) : floorLog2 q < k := by
  have hlow := (floorLog2_spec hnum hden).1
  exact (zpow_lt_zpow_iff_right₀ one_lt_two).mp (hlow.trans_lt h)

theorem le_floorLog2 {k : Int} (h : (2 : ℚ) ^ k ≤ q.value) : k ≤ floorLog2 q := by
  have hhigh := (floorLog2_spec hnum hden).2
  have hlt := (zpow_lt_zpow_iff_right₀ (one_lt_two (α := ℚ))).mp (h.trans_lt hhigh)
  omega

end powers

/-- The number `m * 2 ^ e` is one of the format, written in the one way in which the format has it: the
leading bit is set unless the number is too close to zero. -/
structure Fits (m : Nat) (e : Int) : Prop where
  mantissa_lt : m < 2 * leadingBit
  le_exponent : minExponent ≤ e
  exponent_le : e ≤ maxExponent
  leading : m < leadingBit → e = minExponent

/-- The rational number rounds to `m * 2 ^ e`: it is not farther from it than from its neighbours, whose
distances differ if the leading bit stands alone. Quarters of the last place tell the bounds. -/
structure RoundsTo (m : Nat) (e : Int) (x : ℚ) : Prop where
  low : ((neighbourhood m e).1 : ℚ) * 2 ^ (e - 2) ≤ x
  high : x ≤ ((neighbourhood m e).2 : ℚ) * 2 ^ (e - 2)
  odd : m % 2 = 1 → ((neighbourhood m e).1 : ℚ) * 2 ^ (e - 2) < x ∧
    x < ((neighbourhood m e).2 : ℚ) * 2 ^ (e - 2)

theorem ofRatio_of_isNearest (negative : Bool) {q : Ratio} (hnum : q.num ≠ 0) (hden : 0 < q.den)
    {e : Int} (he : max (floorLog2 q - 52) minExponent = e) {m : Nat}
    (hm : Ratio.IsNearest (q.value * 2 ^ (-e)) m) :
    ofRatio negative q =
      if m = 2 * leadingBit then
        if maxExponent < e + 1 then .infinite negative else .finite negative leadingBit (e + 1)
      else if maxExponent < e then .infinite negative else .finite negative m e := by
  have hround : (q.scale 2 (-e)).round = m := by
    apply Ratio.round_eq (Ratio.den_scale_pos hden two_pos _)
    rw [Ratio.value_scale _ two_pos]
    exact_mod_cast hm
  rw [ofRatio, if_neg hnum]
  simp only [he, hround]
  split
  · rfl
  · rfl

theorem neighbourhood_high (m : Nat) (e : Int) : ((neighbourhood m e).2 : ℚ) = 4 * m + 2 := by
  simp [neighbourhood]

theorem neighbourhood_low {m : Nat} (hm : m ≠ 0) (e : Int) :
    ((neighbourhood m e).1 : ℚ) =
      4 * m - if m = leadingBit ∧ minExponent < e then 1 else 2 := by
  rw [neighbourhood, Nat.cast_sub (by split <;> omega)]
  push_cast
  rfl

/-- The bounds of what rounds to a number, with the last place divided into quarters. -/
theorem RoundsTo.quarters {m : Nat} {e : Int} (hm : m ≠ 0) {x : ℚ} (h : RoundsTo m e x) :
    ∃ y : ℚ, x = y * 2 ^ (e - 2) ∧ 4 * (m : ℚ) - 2 ≤ y ∧ y ≤ 4 * (m : ℚ) + 2 ∧
      (m % 2 = 1 → 4 * (m : ℚ) - 2 < y ∧ y < 4 * (m : ℚ) + 2) ∧
      (m = leadingBit ∧ minExponent < e → 4 * (m : ℚ) - 1 ≤ y) := by
  have hunit : (0 : ℚ) < 2 ^ (e - 2) := by positivity
  have hx : x = x / 2 ^ (e - 2) * 2 ^ (e - 2) := by rw [div_mul_cancel₀ _ hunit.ne']
  obtain ⟨y, rfl⟩ : ∃ y, x = y * 2 ^ (e - 2) := ⟨_, hx⟩
  obtain ⟨hlow, hhigh, hodd⟩ := h
  rw [mul_le_mul_iff_left₀ hunit] at hlow hhigh
  rw [mul_lt_mul_iff_left₀ hunit, mul_lt_mul_iff_left₀ hunit] at hodd
  rw [neighbourhood_high] at hhigh hodd
  rw [neighbourhood_low hm] at hlow hodd
  refine ⟨y, rfl, ?_⟩
  split at hlow
  · rename_i hlead
    rw [if_pos hlead] at hodd
    exact ⟨by linarith, hhigh, fun h => ⟨by linarith, (hodd h).2⟩, fun _ => hlow⟩
  · rename_i hlead
    rw [if_neg hlead] at hodd
    exact ⟨hlow, hhigh, hodd, fun h => absurd h hlead⟩

theorem RoundsTo.of_quarters {m : Nat} (hm : m ≠ 0) (e : Int) {y : ℚ} (hlow : 4 * (m : ℚ) - 2 < y)
    (hhigh : y < 4 * (m : ℚ) + 2) (hlead : m = leadingBit → 4 * (m : ℚ) - 1 < y) :
    RoundsTo m e (y * 2 ^ (e - 2)) := by
  have hunit : (0 : ℚ) < 2 ^ (e - 2) := by positivity
  have hbelow : ((neighbourhood m e).1 : ℚ) * 2 ^ (e - 2) < y * 2 ^ (e - 2) := by
    rw [mul_lt_mul_iff_left₀ hunit, neighbourhood_low hm]
    split
    · rename_i hbit
      exact hlead hbit.1
    · exact hlow
  have habove : y * 2 ^ (e - 2) < ((neighbourhood m e).2 : ℚ) * 2 ^ (e - 2) := by
    rw [mul_lt_mul_iff_left₀ hunit, neighbourhood_high]
    exact hhigh
  exact ⟨hbelow.le, habove.le, fun _ => ⟨hbelow, habove⟩⟩

theorem two_zpow_add (k e : Int) : (2 : ℚ) ^ (k + e) = 4 * 2 ^ k * 2 ^ (e - 2) := by
  rw [mul_assoc, ← zpow_add₀ two_ne_zero, show k + e = 2 + (k + (e - 2)) by ring,
    zpow_add₀ two_ne_zero]
  norm_num

theorem Fits.cast_add_one_le {m : Nat} {e : Int} (h : Fits m e) : (m : ℚ) + 1 ≤ 2 ^ (53 : Int) := by
  have hlt := h.mantissa_lt
  simp only [leadingBit] at hlt
  exact_mod_cast (show m + 1 ≤ 2 ^ 53 by omega)

section neighbourhood
variable (negative : Bool) {q : Ratio} (hnum : q.num ≠ 0) (hden : 0 < q.den) {e : Int} {y : ℚ}
  (hy : q.value = y * 2 ^ (e - 2))
include hnum hden hy

theorem ofRatio_eq_of_same_exponent {m : Nat} (hfits : Fits m e)
    (he : max (floorLog2 q - 52) minExponent = e) (hlow : 4 * (m : ℚ) - 2 ≤ y)
    (hhigh : y ≤ 4 * (m : ℚ) + 2)
    (hodd : m % 2 = 1 → 4 * (m : ℚ) - 2 < y ∧ y < 4 * (m : ℚ) + 2) :
    ofRatio negative q = .finite negative m e := by
  have hquarter : q.value * 2 ^ (-e) = y / 4 := by
    rw [hy, mul_assoc, ← zpow_add₀ two_ne_zero, show e - 2 + -e = -2 by ring]
    norm_num
    ring
  have hnearest : Ratio.IsNearest (q.value * 2 ^ (-e)) m := by
    rw [hquarter]
    constructor
    · rw [abs_le]
      constructor <;> linarith
    · intro htie
      by_contra hne
      obtain ⟨hl, hh⟩ := hodd (by omega)
      rcases (abs_eq (by norm_num)).mp htie with heq | heq <;> linarith
  rw [ofRatio_of_isNearest negative hnum hden he hnearest, if_neg hfits.mantissa_lt.ne,
    if_neg (not_lt.mpr hfits.exponent_le)]

/-- Below a leading bit that stands alone the places are half as large, and the rounding carries. -/
theorem ofRatio_eq_of_carry (hfits : Fits leadingBit e)
    (he : max (floorLog2 q - 52) minExponent = e - 1) (hlow : 4 * (leadingBit : ℚ) - 1 ≤ y)
    (hhigh : y < 4 * (leadingBit : ℚ)) : ofRatio negative q = .finite negative leadingBit e := by
  have hhalf : q.value * 2 ^ (-(e - 1)) = y / 2 := by
    rw [hy, mul_assoc, ← zpow_add₀ two_ne_zero, show e - 2 + -(e - 1) = -1 by ring]
    norm_num
    ring
  have hnearest : Ratio.IsNearest (q.value * 2 ^ (-(e - 1))) (2 * leadingBit) := by
    rw [hhalf]
    refine ⟨?_, fun _ => by decide⟩
    push_cast
    rw [abs_le]
    constructor <;> linarith
  rw [ofRatio_of_isNearest negative hnum hden he hnearest, if_pos rfl, sub_add_cancel,
    if_neg (not_lt.mpr hfits.exponent_le)]

end neighbourhood

/-- What lies in the neighbourhood of a number is rounded to the number. -/
theorem ofRatio_eq {m : Nat} {e : Int} (hfits : Fits m e) (hm : m ≠ 0) (negative : Bool) {q : Ratio}
    (hden : 0 < q.den) (h : RoundsTo m e q.value) : ofRatio negative q = .finite negative m e := by
  obtain ⟨y, hy, hlow, hhigh, hodd, hlead⟩ := h.quarters hm
  have hone : (1 : ℚ) ≤ m := by exact_mod_cast Nat.one_le_iff_ne_zero.mpr hm
  have hmax := hfits.cast_add_one_le
  have hmin := hfits.le_exponent
  have hunit : (0 : ℚ) < 2 ^ (e - 2) := by positivity
  have hpos : 0 < q.value := by
    rw [hy]
    exact mul_pos (by linarith) hunit
  have hnum : q.num ≠ 0 := by
    intro hzero
    rw [Ratio.value, hzero, Nat.cast_zero, zero_div] at hpos
    exact lt_irrefl _ hpos
  have hupper : floorLog2 q < 53 + e := by
    apply floorLog2_lt hnum hden
    rw [hy, two_zpow_add, mul_lt_mul_iff_left₀ hunit]
    linarith
  -- Unless the leading bit stands alone, the number and what rounds to it have the same exponent.
  by_cases hsame : e = minExponent ∨ (2 : ℚ) ^ (52 + e) ≤ q.value
  · have he : max (floorLog2 q - 52) minExponent = e := by
      rcases hsame with rfl | hge
      · exact max_eq_right (by omega)
      · have := le_floorLog2 hnum hden hge
        rw [max_eq_left (by omega)]
        omega
    exact ofRatio_eq_of_same_exponent negative hnum hden hy hfits he hlow hhigh hodd
  · rw [not_or, not_le] at hsame
    obtain ⟨hne, hlt⟩ := hsame
    have hlog := floorLog2_lt hnum hden hlt
    rw [hy, two_zpow_add, mul_lt_mul_iff_left₀ hunit] at hlt
    have hbit : m = leadingBit := by
      by_contra hother
      have hle : leadingBit ≤ m := by
        by_contra hsmall
        exact hne (hfits.leading (by omega))
      have hmore : (2 : ℚ) ^ (52 : Int) + 1 ≤ m := by
        simp only [leadingBit] at hle hother
        exact_mod_cast (show 2 ^ 52 + 1 ≤ m by omega)
      linarith
    subst hbit
    have hquarters := hlead ⟨rfl, by omega⟩
    have hlog' : 51 + e ≤ floorLog2 q := by
      apply le_floorLog2 hnum hden
      rw [hy, two_zpow_add, mul_le_mul_iff_left₀ hunit]
      simp only [leadingBit] at hquarters
      norm_num at hquarters ⊢
      linarith
    have hbelow : y < 4 * (leadingBit : ℚ) := by
      simp only [leadingBit]
      norm_num at hlt ⊢
      exact hlt
    exact ofRatio_eq_of_carry negative hnum hden hy hfits (by omega) hquarters hbelow

/-! ## Numbers of the format -/

/-- A number as the format has it. -/
def IsProper : Binary64 → Prop
  | .finite _ m e => Fits m e
  | _ => True

theorem fits_zero : Fits 0 minExponent :=
  ⟨by decide, le_rfl, by decide, fun _ => rfl⟩

/-- The mantissa has at most one bit too many, and no bit is missing unless the number is close to
zero. -/
theorem mantissa_bounds {q : Ratio} (hnum : q.num ≠ 0) (hden : 0 < q.den) {e : Int}
    (he : max (floorLog2 q - 52) minExponent = e) {m : Nat}
    (hm : Ratio.IsNearest (q.value * 2 ^ (-e)) m) :
    m ≤ 2 * leadingBit ∧ (m < leadingBit → e = minExponent) := by
  obtain ⟨hlow, hhigh⟩ := floorLog2_spec hnum hden
  obtain ⟨hbelow, habove⟩ := abs_le.mp hm.1
  constructor
  · have hlt : q.value * 2 ^ (-e) < 2 ^ (53 : Int) := by
      calc q.value * 2 ^ (-e) < 2 ^ (floorLog2 q + 1) * 2 ^ (-e) := by gcongr
        _ = 2 ^ (floorLog2 q + 1 + -e) := (zpow_add₀ two_ne_zero _ _).symm
        _ ≤ 2 ^ (53 : Int) := zpow_le_zpow_right₀ one_le_two (by omega)
    have hlt' : (m : ℚ) < 2 ^ (53 : Int) + 1 := by linarith
    have hmax : m < 2 ^ 53 + 1 := by exact_mod_cast hlt'
    simp only [leadingBit]
    omega
  · intro hlead
    by_contra hother
    have hge : (2 : ℚ) ^ (52 : Int) ≤ q.value * 2 ^ (-e) := by
      calc (2 : ℚ) ^ (52 : Int) = 2 ^ (floorLog2 q + -e) := by congr 1; omega
        _ = 2 ^ floorLog2 q * 2 ^ (-e) := zpow_add₀ two_ne_zero _ _
        _ ≤ q.value * 2 ^ (-e) := by gcongr
    have hge' : (2 : ℚ) ^ (52 : Int) < m + 1 := by linarith
    have hmin : 2 ^ 52 < m + 1 := by exact_mod_cast hge'
    simp only [leadingBit] at hlead
    omega

theorem isNearest_round_scale {q : Ratio} (hden : 0 < q.den) (e : Int) :
    Ratio.IsNearest (q.value * 2 ^ (-e)) (q.scale 2 (-e)).round := by
  have h := Ratio.isNearest_round (Ratio.den_scale_pos hden two_pos (-e))
  rw [Ratio.value_scale _ two_pos] at h
  exact_mod_cast h

theorem isProper_ofRatio (negative : Bool) {q : Ratio} (hden : 0 < q.den) :
    (ofRatio negative q).IsProper := by
  by_cases hnum : q.num = 0
  · rw [ofRatio, if_pos hnum]
    exact fits_zero
  obtain ⟨e, he⟩ : ∃ e, max (floorLog2 q - 52) minExponent = e := ⟨_, rfl⟩
  have hnearest := isNearest_round_scale hden e
  rw [ofRatio_of_isNearest negative hnum hden he hnearest]
  obtain ⟨hmax, hlead⟩ := mantissa_bounds hnum hden he hnearest
  have hmin : minExponent ≤ e := by omega
  split
  · split
    · trivial
    · exact ⟨by decide, by omega, by omega, fun h => absurd h (lt_irrefl _)⟩
  · split
    · trivial
    · exact ⟨by omega, hmin, by omega, hlead⟩

/-! ## Numbers that are too large -/

/-- The bound of the whole numbers that have a number of the format: it lies in the middle between the
greatest number of the format and the next power of two, and is rounded to the latter. -/
def overflowBound : Nat :=
  2 ^ 1024 - 2 ^ 970

theorem cast_overflowBound : (overflowBound : ℚ) = ((2 : ℚ) ^ (53 : Int) - 1 / 2) * 2 ^ maxExponent := by
  have hle : 2 ^ 970 ≤ 2 ^ 1024 := pow_le_pow_right₀ one_le_two (by decide)
  rw [overflowBound, Nat.cast_sub hle, Nat.cast_pow, Nat.cast_pow, sub_mul, ← zpow_add₀ two_ne_zero,
    one_div, mul_comm (2⁻¹ : ℚ), ← zpow_sub_one₀ two_ne_zero, ← zpow_natCast, ← zpow_natCast]
  rfl

section overflow
variable {q : Ratio} (hnum : q.num ≠ 0) (hden : 0 < q.den) {e : Int}
  (he : max (floorLog2 q - 52) minExponent = e)
include hnum hden he

theorem overflowBound_le_of_lt (hlt : maxExponent < e) : overflowBound ≤ q.value := by
  have hlog : 53 + maxExponent ≤ floorLog2 q := by
    simp only [minExponent, maxExponent] at he hlt ⊢
    omega
  rw [cast_overflowBound]
  calc ((2 : ℚ) ^ (53 : Int) - 1 / 2) * 2 ^ maxExponent
      ≤ 2 ^ (53 : Int) * 2 ^ maxExponent := by
        gcongr
        linarith
    _ = 2 ^ (53 + maxExponent) := (zpow_add₀ two_ne_zero _ _).symm
    _ ≤ 2 ^ floorLog2 q := zpow_le_zpow_right₀ one_le_two hlog
    _ ≤ q.value := (floorLog2_spec hnum hden).1

theorem maxExponent_le_of_overflowBound_le (h : overflowBound ≤ q.value) : maxExponent ≤ e := by
  have hpower : (2 : ℚ) ^ (52 + maxExponent) ≤ q.value := by
    refine le_trans ?_ h
    rw [cast_overflowBound, zpow_add₀ two_ne_zero]
    gcongr
    norm_num
  have hlog := le_floorLog2 hnum hden hpower
  omega

/-- With the greatest exponent the mantissa gets a bit too many from the bound on. The bound itself is a
tie, and the number below it is odd. -/
theorem mantissa_carries_iff (hmax : e = maxExponent) {m : Nat}
    (hm : Ratio.IsNearest (q.value * 2 ^ (-e)) m) : m = 2 * leadingBit ↔ overflowBound ≤ q.value := by
  have hunit : (0 : ℚ) < 2 ^ maxExponent := by positivity
  have hscale : overflowBound ≤ q.value ↔ (2 : ℚ) ^ (53 : Int) - 1 / 2 ≤ q.value * 2 ^ (-e) := by
    rw [cast_overflowBound, hmax, zpow_neg, ← div_eq_mul_inv, le_div_iff₀ hunit]
  have hbits : ((2 * leadingBit : Nat) : ℚ) = 2 ^ (53 : Int) := by
    norm_num [leadingBit]
  obtain ⟨hbelow, habove⟩ := abs_le.mp hm.1
  rw [hscale]
  constructor
  · rintro rfl
    rw [hbits] at hbelow habove
    linarith
  · intro hge
    by_contra hne
    have hlt : m + 1 ≤ 2 * leadingBit := by
      have := (mantissa_bounds hnum hden he hm).1
      omega
    have hlt' : (m : ℚ) + 1 ≤ 2 ^ (53 : Int) := by
      rw [← hbits]
      exact_mod_cast hlt
    have htie : |q.value * 2 ^ (-e) - m| = 1 / 2 := by
      rw [abs_eq (by norm_num)]
      left
      linarith
    have hlast : m + 1 = 2 * leadingBit := by
      have hcast : (m : ℚ) + 1 = (2 * leadingBit : Nat) := by
        rw [hbits]
        linarith
      exact_mod_cast hcast
    have heven := hm.2 htie
    omega

end overflow

theorem isInfinite_ofRatio_iff (negative : Bool) {q : Ratio} (hden : 0 < q.den) :
    (ofRatio negative q).isInfinite = true ↔ overflowBound ≤ q.value := by
  have hbound : (0 : ℚ) < overflowBound := by
    rw [cast_overflowBound]
    exact mul_pos (by norm_num) (by positivity)
  by_cases hnum : q.num = 0
  · have hzero : q.value = 0 := by rw [Ratio.value, hnum, Nat.cast_zero, zero_div]
    rw [ofRatio, if_pos hnum, hzero]
    exact ⟨nofun, fun h => absurd h (not_le.mpr hbound)⟩
  obtain ⟨e, he⟩ : ∃ e, max (floorLog2 q - 52) minExponent = e := ⟨_, rfl⟩
  have hnearest := isNearest_round_scale hden e
  rw [ofRatio_of_isNearest negative hnum hden he hnearest]
  rcases lt_trichotomy e maxExponent with hlt | heq | hgt
  · have hfew : ¬ overflowBound ≤ q.value := fun h =>
      absurd (maxExponent_le_of_overflowBound_le hnum hden he h) (not_le.mpr hlt)
    rw [if_neg (show ¬ maxExponent < e + 1 by omega), if_neg (show ¬ maxExponent < e by omega)]
    split
    · exact ⟨nofun, fun h => absurd h hfew⟩
    · exact ⟨nofun, fun h => absurd h hfew⟩
  · rw [← mantissa_carries_iff hnum hden he heq hnearest,
      if_pos (show maxExponent < e + 1 by omega), if_neg (show ¬ maxExponent < e by omega)]
    split
    · rename_i hcarry
      exact ⟨fun _ => hcarry, fun _ => rfl⟩
    · rename_i hkept
      exact ⟨nofun, fun h => absurd h hkept⟩
  · have hmany := overflowBound_le_of_lt hnum hden he hgt
    rw [if_pos (show maxExponent < e + 1 by omega), if_pos hgt]
    split
    · exact ⟨fun _ => hmany, fun _ => rfl⟩
    · exact ⟨fun _ => hmany, fun _ => rfl⟩

theorem isInfinite_ofInt_iff (n : Int) : (ofInt n).isInfinite = true ↔ overflowBound ≤ n.natAbs := by
  rw [ofInt, isInfinite_ofRatio_iff _ Nat.one_pos, Ratio.value, Nat.cast_one, div_one, Nat.cast_le]

end Binary64

end Courier.Number
