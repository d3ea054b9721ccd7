import Courier.Proofs.Number.Digits
import Courier.Proofs.Number.Rounding

/-!
# Decimal numbers and shortest texts

A decimal number in the neighbourhood of a binary number is rounded to it, and the shortest text of a
binary number is that of a decimal in its neighbourhood: with seventeen digits there is always one.
-/

namespace Courier.Number

namespace Binary64

/-! ## Decimal numbers -/

theorem powers_of_ten_around : 2 ^ 1075 < 10 ^ 324 ∧ 2 ^ 1024 < 10 ^ 309 := by
  decide +kernel

/-- What rounds to a number of the format is neither too large nor too small to be looked at. -/
theorem RoundsTo.bounds {m : Nat} {e : Int} (hfits : Fits m e) (hm : m ≠ 0) {x : ℚ}
    (h : RoundsTo m e x) : (10 : ℚ) ^ (-324 : Int) < x ∧ x < (10 : ℚ) ^ (309 : Int) := by
  obtain ⟨y, rfl, hlow, hhigh, -, -⟩ := h.quarters hm
  have hone : (1 : ℚ) ≤ m := by exact_mod_cast Nat.one_le_iff_ne_zero.mpr hm
  have hmax := hfits.cast_add_one_le
  have hle := hfits.le_exponent
  have hge := hfits.exponent_le
  simp only [minExponent, maxExponent] at hle hge
  have hten : (10 : ℚ) ^ (-324 : Int) < 2 ^ (-1075 : Int) := by
    rw [zpow_neg, zpow_neg, inv_lt_inv₀ (by positivity) (by positivity)]
    exact_mod_cast powers_of_ten_around.1
  have hten' : (2 : ℚ) ^ (1024 : Int) < 10 ^ (309 : Int) := by
    exact_mod_cast powers_of_ten_around.2
  constructor
  · calc (10 : ℚ) ^ (-324 : Int) < 2 ^ (-1075 : Int) := hten
      _ ≤ 2 ^ (1 + (e - 2)) := zpow_le_zpow_right₀ one_le_two (by omega)
      _ = 2 * 2 ^ (e - 2) := by rw [zpow_add₀ two_ne_zero, zpow_one]
      _ ≤ y * 2 ^ (e - 2) := by
        gcongr
        linarith
  · calc y * 2 ^ (e - 2) ≤ 2 ^ (55 : Int) * 2 ^ (e - 2) := by
          gcongr
          norm_num at hmax ⊢
          linarith
      _ = 2 ^ (55 + (e - 2)) := by rw [zpow_add₀ two_ne_zero]
      _ ≤ 2 ^ (1024 : Int) := zpow_le_zpow_right₀ one_le_two (by omega)
      _ < 10 ^ (309 : Int) := hten'

theorem RoundsTo.ne_zero {m : Nat} {e : Int} (hfits : Fits m e) (hm : m ≠ 0) {n : Nat} {p : Int}
    (h : RoundsTo m e (n * (10 : ℚ) ^ p)) : n ≠ 0 := by
  rintro rfl
  have hlow := (h.bounds hfits hm).1
  have hpos : (0 : ℚ) < 10 ^ (-324 : Int) := by positivity
  rw [Nat.cast_zero, zero_mul] at hlow
  exact lt_asymm hpos hlow

theorem ofDecimal_eq {m : Nat} {e : Int} (hfits : Fits m e) (hm : m ≠ 0) (negative : Bool) {n : Nat}
    {p : Int} (h : RoundsTo m e (n * (10 : ℚ) ^ p)) : ofDecimal negative n p = .finite negative m e := by
  obtain ⟨hlow, hhigh⟩ := h.bounds hfits hm
  have hn := h.ne_zero hfits hm
  obtain ⟨hleast, hmost⟩ := digits_bounds hn
  rw [← length_toString] at hleast hmost
  have hten : (1 : ℚ) < 10 := by norm_num
  have hsmall : ((toString n).length : Int) + p ≤ 310 := by
    have hlt : (10 : ℚ) ^ ((((toString n).length - 1 : Nat) : Int) + p) < 10 ^ (309 : Int) := by
      rw [zpow_add₀ (by norm_num)]
      refine lt_of_le_of_lt ?_ hhigh
      gcongr
      exact_mod_cast hleast
    have := (zpow_lt_zpow_iff_right₀ hten).mp hlt
    omega
  have hlarge : (-400 : Int) ≤ (toString n).length + p := by
    have hlt : (10 : ℚ) ^ (-324 : Int) < 10 ^ (((toString n).length : Int) + p) := by
      rw [zpow_add₀ (by norm_num)]
      refine hlow.trans_le ?_
      gcongr
      exact_mod_cast hmost.le
    have := (zpow_lt_zpow_iff_right₀ hten).mp hlt
    omega
  rw [ofDecimal, if_neg hn]
  simp only
  rw [if_neg (by omega), if_neg (by omega)]
  apply ofRatio_eq hfits hm negative (Ratio.den_scale_pos one_pos (by decide) _)
  rw [Ratio.value_scale_nat _ (by decide)]
  exact_mod_cast h

theorem isProper_ofDecimal (negative : Bool) (n : Nat) (p : Int) :
    (ofDecimal negative n p).IsProper := by
  rw [ofDecimal]
  split
  · exact fits_zero
  · dsimp only
    split
    · trivial
    split
    · exact fits_zero
    · exact isProper_ofRatio negative (Ratio.den_scale_pos one_pos (by decide) _)

/-! ## Shortest texts -/

theorem value_ratio (m : Nat) (e : Int) : (ratio m e).value = m * (2 : ℚ) ^ e := by
  rw [ratio, Ratio.value_scale_nat _ two_pos]
  norm_cast

theorem den_ratio_pos (m : Nat) (e : Int) : 0 < (ratio m e).den :=
  Ratio.den_scale_pos one_pos two_pos e

theorem tens_le_powers : ∀ l < 1024, 10 ^ (l * 30103 / 100000) ≤ 2 ^ l := by
  decide +kernel

theorem powers_le_tens : ∀ l < 1075, 2 ^ l ≤ 10 ^ ((l * 30103 + 99999) / 100000) := by
  decide +kernel

/-- For the powers of two of the format, their decimal logarithm is estimated from below. -/
theorem tens_le_two_zpow {l : Int} (hlow : -1075 < l) (hhigh : l < 1024) :
    (10 : ℚ) ^ ((l * 30103).fdiv 100000) ≤ 2 ^ l := by
  rw [Int.fdiv_eq_ediv_of_nonneg _ (by decide)]
  obtain ⟨k, rfl | rfl⟩ := l.eq_nat_or_neg
  · have hfloor : (k : Int) * 30103 / 100000 = (k * 30103 / 100000 : Nat) := by omega
    have hle := tens_le_powers k (by omega)
    rw [hfloor]
    generalize k * 30103 / 100000 = j at hle
    rw [zpow_natCast, zpow_natCast]
    exact_mod_cast hle
  · have hfloor : -(k : Int) * 30103 / 100000 = -((k * 30103 + 99999) / 100000 : Nat) := by omega
    have hle := powers_le_tens k (by omega)
    rw [hfloor]
    generalize (k * 30103 + 99999) / 100000 = j at hle
    rw [zpow_neg, zpow_neg, inv_le_inv₀ (by positivity) (by positivity)]
    exact_mod_cast hle

theorem pow_decimalPoint_le {m : Nat} {e : Int} (hfits : Fits m e) (hm : m ≠ 0) :
    (10 : ℚ) ^ (decimalPoint m e - 1) ≤ m * (2 : ℚ) ^ e := by
  have hscale (l : Int) : (Ratio.scale 10 l ⟨1, 1⟩).value = (10 : ℚ) ^ l := by
    simpa using Ratio.value_scale_nat 1 (by decide : 0 < 10) l
  have hlog : (2 : ℚ) ^ (m.log2 + e) ≤ m * (2 : ℚ) ^ e := by
    rw [zpow_add₀ two_ne_zero]
    gcongr
    exact_mod_cast Nat.log2_self_le hm
  have hsize : m.log2 < 53 := by
    have hlt := hfits.mantissa_lt
    simp only [leadingBit] at hlt
    exact (Nat.log2_lt hm).mpr (by omega)
  have hle := hfits.le_exponent
  have hge := hfits.exponent_le
  simp only [minExponent, maxExponent] at hle hge
  have htens := tens_le_two_zpow (l := m.log2 + e) (by omega) (by omega)
  rw [decimalPoint]
  split
  · rw [add_sub_cancel_right]
    exact htens.trans hlog
  · rename_i hnot
    rw [Ratio.lt_iff (den_ratio_pos m e) (Ratio.den_scale_pos one_pos (by decide) _), hscale,
      value_ratio, not_lt] at hnot
    rwa [show ∀ k : Int, k + 2 - 1 = k + 1 by intro k; ring]

/-- Whether `n * 10 ^ place` lies in the neighbourhood of a number. -/
def readsBack (m : Nat) (e place : Int) (n : Nat) : Bool :=
  let lowest := Ratio.scale 10 (-place) (ratio (neighbourhood m e).1 (e - 2))
  let highest := Ratio.scale 10 (-place) (ratio (neighbourhood m e).2 (e - 2))
  if m % 2 == 0 then !(⟨n, 1⟩ : Ratio).lt lowest && !highest.lt ⟨n, 1⟩
  else lowest.lt ⟨n, 1⟩ && (⟨n, 1⟩ : Ratio).lt highest

theorem readsBack_iff (m : Nat) (e place : Int) (n : Nat) :
    readsBack m e place n = true ↔ RoundsTo m e (n * (10 : ℚ) ^ place) := by
  have hten : (0 : ℚ) < 10 ^ place := by positivity
  have hone : ((⟨n, 1⟩ : Ratio).value) = n := by simp [Ratio.value]
  have hbound (k : Nat) : (Ratio.scale 10 (-place) (ratio k (e - 2))).value =
      k * 2 ^ (e - 2) / 10 ^ place := by
    rw [Ratio.value_scale _ (by decide), value_ratio, zpow_neg, ← div_eq_mul_inv]
    norm_cast
  have hden (k : Nat) : 0 < (Ratio.scale 10 (-place) (ratio k (e - 2))).den :=
    Ratio.den_scale_pos (den_ratio_pos k _) (by decide) _
  have hbelow (k : Nat) :
      (⟨n, 1⟩ : Ratio).lt (Ratio.scale 10 (-place) (ratio k (e - 2))) = true ↔
        (n : ℚ) * 10 ^ place < k * 2 ^ (e - 2) := by
    rw [Ratio.lt_iff one_pos (hden k), hone, hbound, lt_div_iff₀ hten]
  have habove (k : Nat) :
      (Ratio.scale 10 (-place) (ratio k (e - 2))).lt ⟨n, 1⟩ = true ↔
        (k : ℚ) * 2 ^ (e - 2) < n * 10 ^ place := by
    rw [Ratio.lt_iff (hden k) one_pos, hone, hbound, div_lt_iff₀ hten]
  rw [readsBack]
  split
  · rename_i heven
    rw [beq_iff_eq] at heven
    rw [Bool.and_eq_true, Bool.not_eq_true', Bool.not_eq_true', ← Bool.not_eq_true,
      ← Bool.not_eq_true, hbelow, habove, not_lt, not_lt]
    exact ⟨fun h => ⟨h.1, h.2, fun hodd => by omega⟩, fun h => ⟨h.low, h.high⟩⟩
  · rename_i hodd
    rw [beq_iff_eq] at hodd
    rw [Bool.and_eq_true, hbelow, habove]
    exact ⟨fun h => ⟨h.1.le, h.2.le, fun _ => h⟩, fun h => h.odd (by omega)⟩

theorem decimalOf?_eq (m : Nat) (e : Int) (count : Nat) :
    decimalOf? m e count =
      let place := decimalPoint m e - count
      let value := Ratio.scale 10 (-place) (ratio m e)
      let floor := value.num / value.den
      let other := if value.round = floor then floor + 1 else floor
      if readsBack m e place value.round then some (Decimal.ofScaled value.round place)
      else if readsBack m e place other then some (Decimal.ofScaled other place)
      else none :=
  rfl

theorem decimalOf?_eq_some {m : Nat} {e : Int} {count : Nat} {d : Decimal}
    (h : decimalOf? m e count = some d) :
    ∃ n : Nat, RoundsTo m e (n * (10 : ℚ) ^ (decimalPoint m e - count)) ∧
      d = Decimal.ofScaled n (decimalPoint m e - count) := by
  rw [decimalOf?_eq] at h
  extract_lets place value floor other at h
  split at h
  · rename_i hreads
    cases h
    exact ⟨_, (readsBack_iff m e _ _).mp hreads, rfl⟩
  split at h
  · rename_i hreads
    cases h
    exact ⟨_, (readsBack_iff m e _ _).mp hreads, rfl⟩
  · cases h

/-- Seventeen digits always read back: what they leave out is less than the last place tells. -/
theorem roundsTo_nearest {m : Nat} {e : Int} (hfits : Fits m e) (hm : m ≠ 0) {place : Int}
    (hplace : place ≤ decimalPoint m e - 17) {n : Nat}
    (hn : Ratio.IsNearest (m * (2 : ℚ) ^ e * 10 ^ (-place)) n) :
    RoundsTo m e (n * (10 : ℚ) ^ place) := by
  have hten : (0 : ℚ) < 10 ^ place := by positivity
  have hunit : (0 : ℚ) < 2 ^ (e - 2) := by positivity
  have hvalue : m * (2 : ℚ) ^ e = 4 * m * 2 ^ (e - 2) := by
    rw [show (2 : ℚ) ^ e = 2 ^ (2 : Int) * 2 ^ (e - 2) by
      rw [← zpow_add₀ two_ne_zero]; congr 1; ring]
    norm_num
    ring
  have hclose : |m * (2 : ℚ) ^ e - n * 10 ^ place| ≤ 10 ^ place / 2 := by
    have hsplit : m * (2 : ℚ) ^ e - n * 10 ^ place = (m * 2 ^ e * 10 ^ (-place) - n) * 10 ^ place := by
      rw [sub_mul, mul_assoc _ ((10 : ℚ) ^ (-place)), ← zpow_add₀ (by norm_num), neg_add_cancel,
        zpow_zero, mul_one]
    rw [hsplit, abs_mul, abs_of_pos hten]
    linarith [mul_le_mul_of_nonneg_right hn.1 hten.le]
  have hsmall : (10 : ℚ) ^ place ≤ m * 2 ^ e * 10 ^ (-16 : Int) := by
    calc (10 : ℚ) ^ place ≤ 10 ^ (decimalPoint m e - 1 + -16) :=
          zpow_le_zpow_right₀ (by norm_num) (by omega)
      _ = 10 ^ (decimalPoint m e - 1) * 10 ^ (-16 : Int) := zpow_add₀ (by norm_num) _ _
      _ ≤ m * 2 ^ e * 10 ^ (-16 : Int) := by
        gcongr
        exact pow_decimalPoint_le hfits hm
  rw [hvalue] at hclose hsmall
  obtain ⟨y, hy⟩ : ∃ y, n * (10 : ℚ) ^ place = y * 2 ^ (e - 2) :=
    ⟨_, (div_mul_cancel₀ _ hunit.ne').symm⟩
  have hdistance : |4 * (m : ℚ) - y| ≤ 2 * m * 10 ^ (-16 : Int) := by
    rw [hy, ← sub_mul, abs_mul, abs_of_pos hunit] at hclose
    refine le_of_mul_le_mul_right ?_ hunit
    linarith
  obtain ⟨hbelow, habove⟩ := abs_le.mp hdistance
  have hmax := hfits.cast_add_one_le
  rw [hy]
  norm_num at hbelow habove hmax
  refine .of_quarters hm e (by linarith) (by linarith) fun hbit => ?_
  rw [hbit] at habove ⊢
  simp only [leadingBit] at habove ⊢
  norm_num at habove ⊢
  linarith

theorem decimalOf?_isSome {m : Nat} {e : Int} (hfits : Fits m e) (hm : m ≠ 0) {count : Nat}
    (hcount : 17 ≤ count) : (decimalOf? m e count).isSome := by
  rw [decimalOf?_eq]
  extract_lets place value floor other
  have hnearest : Ratio.IsNearest (m * (2 : ℚ) ^ e * 10 ^ (-place)) value.round := by
    have h := Ratio.isNearest_round (Ratio.den_scale_pos (den_ratio_pos m e) (by decide : 0 < 10)
      (-place))
    rw [Ratio.value_scale _ (by decide), value_ratio] at h
    exact_mod_cast h
  rw [if_pos ((readsBack_iff m e _ _).mpr (roundsTo_nearest hfits hm (by omega) hnearest))]
  rfl

/-- The shortest text of a number is that of a decimal which rounds to it. -/
theorem shortest_spec {m : Nat} {e : Int} (hfits : Fits m e) (hm : m ≠ 0) :
    ∃ (n : Nat) (place : Int), RoundsTo m e (n * (10 : ℚ) ^ place) ∧
      shortest m e = Decimal.ofScaled n place := by
  obtain ⟨d, hd⟩ : ∃ d, (List.range 17).findSome? (fun n => decimalOf? m e (n + 1)) = some d := by
    rw [← Option.isSome_iff_exists, List.findSome?_isSome_iff]
    exact ⟨16, by simp, decimalOf?_isSome hfits hm le_rfl⟩
  obtain ⟨count, -, hcount⟩ := List.exists_of_findSome?_eq_some hd
  obtain ⟨n, hn, rfl⟩ := decimalOf?_eq_some hcount
  refine ⟨n, _, hn, ?_⟩
  rw [shortest, hd]

end Binary64

end Courier.Number
