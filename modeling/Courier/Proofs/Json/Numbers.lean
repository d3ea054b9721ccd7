import Courier.Json.Writer
import Courier.Json.Reader
import Courier.Proofs.Number.Decimals

/-!
# Numbers in JSON

A whole number is read from its digits. A number with a point or an exponent is read from its shortest
text, wherever the point stands there, as the number that was written.
-/

namespace Courier

/-- The decimal digits of a whole number without its sign. -/
def decimals (n : Int) : List Char :=
  Nat.toDigits 10 n.natAbs

namespace Json

/-! ## Digits -/

theorem isDigit_of_mem {n : Nat} {c : Char} (h : c ∈ Nat.toDigits 10 n) : isDigit c = true := by
  have hdigit := Nat.isDigit_of_mem_toDigits (by decide) (by decide) h
  simp only [Char.isDigit, Bool.and_eq_true, decide_eq_true_eq] at hdigit
  simp only [isDigit, Bool.and_eq_true, decide_eq_true_eq]
  exact hdigit

theorem toNat_of_isDigit {c : Char} (h : isDigit c = true) : 48 ≤ c.toNat ∧ c.toNat ≤ 57 := by
  simp only [isDigit, Bool.and_eq_true, decide_eq_true_eq, Char.le_def, UInt32.le_iff_toNat_le] at h
  exact h

theorem digitsValue_toDigits (n : Nat) : digitsValue (Nat.toDigits 10 n) = n := by
  have h := Nat.ofDigitChars_toDigits (n := n) (b := 10) (by decide) (by decide)
  rwa [Nat.ofDigitChars_eq_foldl] at h

theorem exists_digit (n : Nat) : ∃ c ds, Nat.toDigits 10 n = c :: ds ∧ isDigit c = true := by
  obtain ⟨c, ds, hds⟩ := List.exists_cons_of_ne_nil (Nat.toDigits_ne_nil (n := n) (b := 10))
  exact ⟨c, ds, hds, isDigit_of_mem (hds ▸ List.mem_cons_self)⟩

theorem digitsValue_zeros (k : Nat) (ds : List Char) :
    digitsValue (List.replicate k '0' ++ ds) = digitsValue ds := by
  induction k with
  | zero => rfl
  | succ k ih => exact ih

theorem digitsValue_append_zeros (ds : List Char) (k : Nat) :
    digitsValue (ds ++ List.replicate k '0') = digitsValue ds * 10 ^ k := by
  induction k with
  | zero => simp
  | succ k ih =>
    have hstep (cs : List Char) : digitsValue (cs ++ ['0']) = 10 * digitsValue cs := by
      simp [digitsValue]
    rw [List.replicate_succ', ← List.append_assoc, hstep, ih, pow_succ]
    ring

/-- A number starts with a digit, and with a zero only if no other digit is before the point. -/
def IsWhole (whole : List Char) : Prop :=
  whole = ['0'] ∨ ∃ c ds, whole = c :: ds ∧ c ≠ '0' ∧ ∀ d ∈ whole, isDigit d = true

/-- What follows the digits of a number goes on with no digit. -/
def EndsDigits (rest : List Char) : Prop :=
  ∀ c ∈ rest.head?, isDigit c = false

theorem span_digits {ds rest : List Char} (hds : ∀ d ∈ ds, isDigit d = true)
    (hrest : EndsDigits rest) :
    (ds ++ rest).takeWhile isDigit = ds ∧ (ds ++ rest).dropWhile isDigit = rest := by
  have hstop : rest.takeWhile isDigit = [] ∧ rest.dropWhile isDigit = rest := by
    cases rest with
    | nil => exact ⟨rfl, rfl⟩
    | cons c rest =>
      have hc := hrest c rfl
      simp [hc]
  rw [List.takeWhile_append_of_pos hds, List.dropWhile_append_of_pos hds, hstop.1, hstop.2,
    List.append_nil]
  exact ⟨rfl, rfl⟩

theorem takeWhole_append {whole rest : List Char} (hwhole : IsWhole whole) (hrest : EndsDigits rest) :
    takeWhole (whole ++ rest) = some (whole, rest) := by
  obtain rfl | ⟨c, ds, rfl, hc, hds⟩ := hwhole
  · rfl
  · obtain ⟨htake, hdrop⟩ := span_digits hds hrest
    rw [List.cons_append] at htake hdrop ⊢
    rw [takeWhole.eq_def]
    split
    · rename_i heq
      cases heq
      exact absurd rfl hc
    · rename_i heq
      cases heq
      rw [if_pos (hds _ List.mem_cons_self), htake, hdrop]
    · rename_i heq
      cases heq

theorem isWhole_toDigits (n : Nat) : IsWhole (Nat.toDigits 10 n) := by
  by_cases hn : n = 0
  · subst hn
    exact Or.inl rfl
  · obtain ⟨c, ds, hds, hc⟩ := Number.head_toDigits hn
    exact Or.inr ⟨c, ds, hds, hc, fun d hd => isDigit_of_mem hd⟩

/-! ## Whole numbers -/

/-- What follows a whole number goes on with neither digits nor a fraction nor an exponent. -/
def EndsNumber (rest : List Char) : Prop :=
  ∀ c ∈ rest.head?, isDigit c = false ∧ c ≠ '.' ∧ c ≠ 'e' ∧ c ≠ 'E'

theorem EndsNumber.endsDigits {rest : List Char} (h : EndsNumber rest) : EndsDigits rest :=
  fun c hc => (h c hc).1

theorem endsNumber_cons {c : Char} (h : isDigit c = false ∧ c ≠ '.' ∧ c ≠ 'e' ∧ c ≠ 'E')
    (rest : List Char) : EndsNumber (c :: rest) := by
  intro d hd
  cases hd
  exact h

theorem endsNumber_nil : EndsNumber [] :=
  nofun

theorem takeFraction_of_ends {rest : List Char} (h : EndsNumber rest) : takeFraction rest = none := by
  unfold takeFraction
  split
  · exact absurd rfl (h '.' rfl).2.1
  · rfl

theorem takeExponent_of_ends {rest : List Char} (h : EndsNumber rest) : takeExponent rest = none := by
  cases rest with
  | nil => rfl
  | cons c rest =>
    obtain ⟨-, -, he, hE⟩ := h c rfl
    rw [takeExponent, if_neg (by simp [he, hE])]

theorem readUnsignedNumber_toDigits (negative : Bool) (start n : Nat) {rest : List Char}
    (hrest : EndsNumber rest) :
    readUnsignedNumber negative start (Nat.toDigits 10 n ++ rest) =
      if Number.digitLimit < (Nat.toDigits 10 n).length then
        .error ⟨.integerTooLong (Nat.toDigits 10 n).length, start⟩
      else .ok (.int (if negative then -n else n), rest) := by
  rw [readUnsignedNumber, takeWhole_append (isWhole_toDigits n) hrest.endsDigits]
  simp [takeFraction_of_ends hrest, takeExponent_of_ends hrest, digitsValue_toDigits]

/-- No name that stands for itself starts with a digit. -/
theorem readAtom_digit {c : Char} (hc : isDigit c = true) (cs : List Char) :
    readAtom (c :: cs) = readUnsignedNumber false (c :: cs).length (c :: cs) := by
  rw [readAtom.eq_def]
  split
  case h_8 => rfl
  all_goals
    rename_i heq
    cases heq
    exact absurd hc (by decide)

theorem readAtom_negative {c : Char} (hc : isDigit c = true) (cs : List Char) :
    readAtom ('-' :: c :: cs) = readUnsignedNumber true ('-' :: c :: cs).length (c :: cs) := by
  rw [readAtom.eq_def]
  split
  case h_6 heq =>
    cases heq
    exact absurd hc (by decide)
  case h_7 heq =>
    cases heq
    rfl
  case h_8 hnone => exact absurd rfl (hnone (c :: cs))
  all_goals
    rename_i heq
    cases heq

theorem readAtom_signed (negative : Bool) {c : Char} (hc : isDigit c = true) (cs : List Char) :
    ∃ start, readAtom ((Number.Binary64.signText negative).toList ++ c :: cs) =
      readUnsignedNumber negative start (c :: cs) := by
  cases negative with
  | true => exact ⟨_, readAtom_negative hc cs⟩
  | false => exact ⟨_, readAtom_digit hc cs⟩

theorem toList_write_int (n : Int) :
    (write (.int n)).toList = (Number.Binary64.signText (n < 0)).toList ++ decimals n := by
  rw [write]
  cases n with
  | ofNat n =>
    simp [decimals, toString, Int.repr, Nat.repr_eq_ofList_toDigits, Number.Binary64.signText]
  | negSucc n =>
    simp [decimals, toString, Int.repr, Nat.repr_eq_ofList_toDigits, Number.Binary64.signText]

/-- A whole number is read back unless it has too many digits. -/
theorem readAtom_int (n : Int) {rest : List Char} (hrest : EndsNumber rest) :
    ∃ start, readAtom ((write (.int n)).toList ++ rest) =
      if Number.digitLimit < (decimals n).length then
        .error ⟨.integerTooLong (decimals n).length, start⟩
      else .ok (.int n, rest) := by
  obtain ⟨c, ds, hds, hc⟩ := exists_digit n.natAbs
  obtain ⟨start, hatom⟩ := readAtom_signed (n < 0) hc (ds ++ rest)
  have hread := readUnsignedNumber_toDigits (n < 0) start n.natAbs hrest
  have hvalue : (if decide (n < 0) then -(n.natAbs : Int) else n.natAbs) = n := by
    by_cases hn : n < 0
    · rw [decide_eq_true hn, if_pos rfl]
      omega
    · rw [decide_eq_false hn, if_neg Bool.false_ne_true]
      omega
  rw [hds, List.cons_append, hvalue, ← hds] at hread
  refine ⟨start, ?_⟩
  rw [toList_write_int, decimals, List.append_assoc, hds, List.cons_append, hatom, hread, ← hds]

/-! ## Numbers with a point or an exponent -/

theorem takeFraction_append {places rest : List Char} (hne : places ≠ [])
    (hplaces : ∀ d ∈ places, isDigit d = true) (hrest : EndsDigits rest) :
    takeFraction ('.' :: (places ++ rest)) = some (places, rest) := by
  obtain ⟨c, ds, rfl⟩ := List.exists_cons_of_ne_nil hne
  obtain ⟨htake, hdrop⟩ := span_digits hplaces hrest
  rw [List.cons_append] at htake hdrop ⊢
  rw [takeFraction, if_pos (hplaces c List.mem_cons_self), htake, hdrop]

theorem toList_exponentText (e : Int) :
    (Number.exponentText e).toList =
      'e' :: (if e < 0 then '-' else '+') ::
        ((if e.natAbs < 10 then ['0'] else []) ++ Nat.toDigits 10 e.natAbs) := by
  rw [Number.exponentText]
  split <;> split <;> simp [Nat.repr_eq_ofList_toDigits]

theorem takeExponent_append (e : Int) {rest : List Char} (hrest : EndsDigits rest) :
    takeExponent ((Number.exponentText e).toList ++ rest) = some (e, rest) := by
  have hdigits : ∀ d ∈ (if e.natAbs < 10 then ['0'] else []) ++ Nat.toDigits 10 e.natAbs,
      isDigit d = true := by
    intro d hd
    rcases List.mem_append.mp hd with hd | hd
    · split at hd
      · rw [List.mem_singleton] at hd
        exact hd ▸ by decide
      · cases hd
    · exact isDigit_of_mem hd
  have hvalue : digitsValue ((if e.natAbs < 10 then ['0'] else []) ++ Nat.toDigits 10 e.natAbs) =
      e.natAbs := by
    split
    · exact (digitsValue_zeros 1 _).trans (digitsValue_toDigits _)
    · exact digitsValue_toDigits _
  have hne : (if e.natAbs < 10 then ['0'] else []) ++ Nat.toDigits 10 e.natAbs ≠ [] := by
    simp [Nat.toDigits_ne_nil]
  rw [toList_exponentText]
  generalize (if e.natAbs < 10 then ['0'] else []) ++ Nat.toDigits 10 e.natAbs = ds at *
  have htake := (span_digits hdigits hrest).1
  rw [List.cons_append, List.cons_append, takeExponent, if_pos (Or.inl rfl)]
  by_cases hneg : e < 0
  · simp only [hneg, if_true, takeSign, htake, List.isEmpty_iff, hne, if_false, hvalue,
      List.drop_left, Option.some.injEq, Prod.mk.injEq, and_true]
    omega
  · simp only [hneg, if_false, takeSign, htake, List.isEmpty_iff, hne, Bool.false_eq_true, hvalue,
      List.drop_left, Option.some.injEq, Prod.mk.injEq, and_true]
    omega

/-- The digits behind a point, without a point if there are none. -/
def pointed : List Char → List Char
  | [] => []
  | d :: ds => '.' :: d :: ds

section read
variable (negative : Bool) (start : Nat) {whole places rest : List Char} (hwhole : IsWhole whole)
  (hplaces : ∀ d ∈ places, isDigit d = true)
include hwhole hplaces

theorem readUnsignedNumber_point (hne : places ≠ []) (hrest : EndsNumber rest) :
    readUnsignedNumber negative start (whole ++ '.' :: (places ++ rest)) =
      .ok (.float (.ofDecimal negative (digitsValue (whole ++ places)) (-places.length)), rest) := by
  have hend : EndsDigits ('.' :: (places ++ rest)) := by
    intro c hc
    cases hc
    decide
  rw [readUnsignedNumber, takeWhole_append hwhole hend]
  simp [takeFraction_append hne hplaces hrest.endsDigits, takeExponent_of_ends hrest]

theorem readUnsignedNumber_exponent (e : Int) (hrest : EndsDigits rest) :
    readUnsignedNumber negative start
        (whole ++ (pointed places ++ ((Number.exponentText e).toList ++ rest))) =
      .ok (.float (.ofDecimal negative (digitsValue (whole ++ places)) (e - places.length)), rest) := by
  have hletter : EndsDigits ((Number.exponentText e).toList ++ rest) := by
    rw [toList_exponentText]
    intro c hc
    cases hc
    decide
  have hexponent := takeExponent_append e hrest
  cases places with
  | nil =>
    have hnone : takeFraction ((Number.exponentText e).toList ++ rest) = none := by
      rw [toList_exponentText]
      rfl
    rw [pointed, List.nil_append, readUnsignedNumber, takeWhole_append hwhole hletter]
    simp [hnone, hexponent]
  | cons d ds =>
    have hend : EndsDigits (pointed (d :: ds) ++ ((Number.exponentText e).toList ++ rest)) := by
      intro c hc
      cases hc
      decide
    rw [readUnsignedNumber, takeWhole_append hwhole hend, pointed, List.cons_append]
    simp only [takeFraction_append (List.cons_ne_nil d ds) hplaces hletter]
    simp [hexponent]

end read

/-! ## Decimals -/

/-- The decimal as a rational number. -/
def decimalValue (d : Number.Decimal) : ℚ :=
  digitsValue d.digits * (10 : ℚ) ^ (d.point - d.digits.length)

/-- The first digit of a decimal is not a zero. -/
structure Leads (d : Number.Decimal) : Prop where
  digits : ∀ c ∈ d.digits, isDigit c = true
  first : ∃ c ds, d.digits = c :: ds ∧ c ≠ '0'

theorem Leads.isWhole {d : Number.Decimal} (h : Leads d) {whole : List Char}
    (hwhole : d.digits.take 1 <+: whole) (hdigits : ∀ c ∈ whole, isDigit c = true) :
    IsWhole whole := by
  obtain ⟨c, ds, hds, hc⟩ := h.first
  obtain ⟨tail, rfl⟩ := hwhole
  rw [hds] at hdigits ⊢
  exact Or.inr ⟨c, tail, rfl, hc, hdigits⟩

theorem ofScaled_eq (n : Nat) (place : Int) :
    ∃ (ds : List Char) (k : Nat), Nat.toDigits 10 n = ds ++ List.replicate k '0' ∧
      Number.Decimal.ofScaled n place = ⟨ds, (ds.length + k : Nat) + place⟩ := by
  let zeros := (Nat.toDigits 10 n).reverse.takeWhile (· == '0')
  let others := (Nat.toDigits 10 n).reverse.dropWhile (· == '0')
  have hzeros : zeros = List.replicate zeros.length '0' := by
    refine List.eq_replicate_iff.mpr ⟨rfl, fun c hc => ?_⟩
    exact beq_iff_eq.mp (List.all_eq_true.mp List.all_takeWhile c hc)
  have hdigits : Nat.toDigits 10 n = others.reverse ++ List.replicate zeros.length '0' := by
    calc Nat.toDigits 10 n = (zeros ++ others).reverse := by
          rw [List.takeWhile_append_dropWhile, List.reverse_reverse]
      _ = others.reverse ++ zeros.reverse := List.reverse_append
      _ = others.reverse ++ List.replicate zeros.length '0' := by
          rw [hzeros, List.reverse_replicate, List.length_replicate]
  have hlength := congrArg List.length hdigits
  rw [List.length_append, List.length_replicate] at hlength
  refine ⟨others.reverse, zeros.length, hdigits, ?_⟩
  rw [Number.Decimal.ofScaled, Number.toList_toString, ← hlength]

/-- The decimal of a whole number and a power of ten is their product, without zeros at its ends. -/
theorem ofScaled_spec {n : Nat} (hn : n ≠ 0) (place : Int) :
    Leads (Number.Decimal.ofScaled n place) ∧
      decimalValue (Number.Decimal.ofScaled n place) = n * (10 : ℚ) ^ place := by
  obtain ⟨ds, k, hds, hscaled⟩ := ofScaled_eq n place
  obtain ⟨c, cs, hcs, hc⟩ := Number.head_toDigits hn
  rw [hscaled]
  refine ⟨⟨fun d hd => isDigit_of_mem (n := n) (hds ▸ List.mem_append_left _ hd), ?_⟩, ?_⟩
  · cases ds with
    | nil =>
      rw [hcs, List.nil_append] at hds
      have hmem : c ∈ List.replicate k '0' := hds ▸ List.mem_cons_self
      exact absurd (List.eq_of_mem_replicate hmem) hc
    | cons d ds =>
      rw [hcs, List.cons_append] at hds
      exact ⟨d, ds, rfl, (List.cons.inj hds).1 ▸ hc⟩
  · have hvalue : digitsValue ds * 10 ^ k = n := by
      rw [← digitsValue_append_zeros, ← hds, digitsValue_toDigits]
    rw [decimalValue, ← hvalue, show ((ds.length + k : Nat) : Int) + place - ds.length = k + place by
      push_cast; ring, zpow_add₀ (by norm_num), zpow_natCast]
    push_cast
    ring

theorem isDigit_zero : ∀ c ∈ ['0'], isDigit c = true :=
  fun _ hc => List.mem_singleton.mp hc ▸ by decide

theorem isDigit_zeros {k : Nat} {c : Char} (h : c ∈ List.replicate k '0') : isDigit c = true :=
  List.eq_of_mem_replicate h ▸ by decide

section layouts
variable {d : Number.Decimal} (hd : Leads d) (negative : Bool) (start : Nat) {rest : List Char}
include hd

/-- The point may stand before, behind or among the digits. -/
theorem readUnsignedNumber_positional (hrest : EndsNumber rest) :
    ∃ (n : Nat) (place : Int), n * (10 : ℚ) ^ place = decimalValue d ∧
      readUnsignedNumber negative start (d.positional.toList ++ rest) =
        .ok (.float (.ofDecimal negative n place), rest) := by
  obtain ⟨c, ds, hds, -⟩ := hd.first
  have hcount : 0 < d.digits.length := by simp [hds]
  rw [Number.Decimal.positional]
  split
  · rename_i hpoint
    -- Zeros stand between the point and the digits.
    obtain ⟨k, hk⟩ : ∃ k : Nat, d.point = -k := ⟨(-d.point).toNat, by omega⟩
    have hplaces : ∀ c ∈ List.replicate k '0' ++ d.digits, isDigit c = true := by
      intro c hc
      rcases List.mem_append.mp hc with hc | hc
      · exact isDigit_zeros hc
      · exact hd.digits c hc
    have hread := readUnsignedNumber_point negative start (Or.inl rfl) hplaces
      (by simp [hds]) hrest
    refine ⟨_, _, ?_, (congrArg _ (by simp [hk, Number.toList_pushn])).trans hread⟩
    rw [List.singleton_append, ← List.cons_append, ← List.replicate_succ, digitsValue_zeros,
      decimalValue, hk]
    congr 2
    simp
    ring
  split
  · rename_i hpoint hlong
    -- Zeros stand between the digits and the point.
    obtain ⟨k, hk⟩ : ∃ k : Nat, d.point = d.digits.length + k :=
      ⟨(d.point - d.digits.length).toNat, by omega⟩
    have hwhole : IsWhole (d.digits ++ List.replicate k '0') := by
      refine hd.isWhole (by simp [hds]) fun c hc => ?_
      rcases List.mem_append.mp hc with hc | hc
      · exact hd.digits c hc
      · exact isDigit_zeros hc
    have hread := readUnsignedNumber_point negative start hwhole isDigit_zero
      (List.cons_ne_nil _ _) hrest
    refine ⟨_, _, ?_, (congrArg _ (by simp [hk, Number.toList_pushn])).trans hread⟩
    rw [List.append_assoc, ← List.replicate_succ', digitsValue_append_zeros, decimalValue, hk,
      pow_succ]
    simp
    ring
  · rename_i hpoint hshort
    -- The point stands among the digits.
    obtain ⟨k, hk, hpos⟩ : ∃ k : Nat, d.point = k ∧ 0 < k := ⟨d.point.toNat, by omega, by omega⟩
    have hwhole : IsWhole (d.digits.take k) := by
      refine hd.isWhole (List.take_prefix_take_left hpos) fun c hc => ?_
      exact hd.digits c (List.mem_of_mem_take hc)
    have hplaces : ∀ c ∈ d.digits.drop k, isDigit c = true :=
      fun c hc => hd.digits c (List.mem_of_mem_drop hc)
    have hread := readUnsignedNumber_point negative start hwhole hplaces
      (by rw [Ne, List.drop_eq_nil_iff]; omega) hrest
    refine ⟨_, _, ?_, (congrArg _ (by simp [hk])).trans hread⟩
    rw [List.take_append_drop, decimalValue, hk, List.length_drop, Nat.cast_sub (by omega)]
    congr 2
    ring

theorem readUnsignedNumber_scientific (hrest : EndsDigits rest) :
    ∃ (n : Nat) (place : Int), n * (10 : ℚ) ^ place = decimalValue d ∧
      readUnsignedNumber negative start ((d.scientific false).toList ++ rest) =
        .ok (.float (.ofDecimal negative n place), rest) := by
  obtain ⟨c, ds, hds, hc⟩ := hd.first
  have hwhole : IsWhole [c] :=
    hd.isWhole (by simp [hds]) fun x hx => hd.digits x (by simp_all)
  have hplaces : ∀ x ∈ ds, isDigit x = true := fun x hx => hd.digits x (by simp [hds, hx])
  have hread := readUnsignedNumber_exponent negative start hwhole hplaces (d.point - 1) hrest
  have htext : (d.scientific false).toList ++ rest =
      [c] ++ (pointed ds ++ ((Number.exponentText (d.point - 1)).toList ++ rest)) := by
    rw [Number.Decimal.scientific, hds]
    cases ds with
    | nil => simp [pointed]
    | cons x ds => simp [pointed]
  refine ⟨_, _, ?_, (congrArg _ htext).trans hread⟩
  rw [decimalValue, hds, List.length_cons]
  congr 2
  push_cast
  ring

theorem readUnsignedNumber_text (layout : Number.Layout) (hlayout : layout.keepZero = false)
    (hrest : EndsNumber rest) :
    ∃ (n : Nat) (place : Int), n * (10 : ℚ) ^ place = decimalValue d ∧
      readUnsignedNumber negative start ((d.text layout).toList ++ rest) =
        .ok (.float (.ofDecimal negative n place), rest) := by
  rw [Number.Decimal.text]
  split
  · exact readUnsignedNumber_positional hd negative start hrest
  · rw [hlayout]
    exact readUnsignedNumber_scientific hd negative start hrest.endsDigits

end layouts

/-! ## Binary numbers -/

theorem head_of_readUnsignedNumber {negative : Bool} {start : Nat} {cs : List Char}
    {result : Value × List Char} (h : readUnsignedNumber negative start cs = .ok result) :
    ∃ c ds, cs = c :: ds ∧ isDigit c = true := by
  rw [readUnsignedNumber] at h
  cases hwhole : takeWhole cs with
  | none =>
    rw [hwhole] at h
    cases h
  | some whole =>
    rw [takeWhole.eq_def] at hwhole
    split at hwhole
    · exact ⟨_, _, rfl, by decide⟩
    · split at hwhole
      · exact ⟨_, _, rfl, ‹_›⟩
      · cases hwhole
    · cases hwhole

theorem writeFloat_zero (negative : Bool) (e : Int) :
    writeFloat (.finite negative 0 e) = Number.Binary64.signText negative ++ "0.0" :=
  rfl

theorem writeFloat_of_ne_zero (negative : Bool) {m : Nat} (hm : m ≠ 0) (e : Int) :
    writeFloat (.finite negative m e) = Number.Binary64.signText negative ++
      (Number.Binary64.shortest m e).text Number.Binary64.plainLayout := by
  cases m with
  | zero => exact absurd rfl hm
  | succ m => rfl

/-- A number of the format is written as its sign and a text that reads back as the number. -/
theorem writeFloat_signed (negative : Bool) {m : Nat} {e : Int}
    (hfits : Number.Binary64.Fits m e) :
    ∃ cs, (writeFloat (.finite negative m e)).toList =
        (Number.Binary64.signText negative).toList ++ cs ∧
      ∀ (start : Nat) (rest : List Char), EndsNumber rest →
        readUnsignedNumber negative start (cs ++ rest) =
          .ok (.float (.finite negative m e), rest) := by
  by_cases hm : m = 0
  · subst hm
    refine ⟨"0.0".toList, ?_, fun start rest hrest => ?_⟩
    · rw [writeFloat_zero, String.toList_append]
    · have hzero : IsWhole ['0'] := Or.inl rfl
      have hread := readUnsignedNumber_point negative start hzero isDigit_zero
        (List.cons_ne_nil _ _) hrest
      rw [hfits.leading (by decide)]
      exact hread
  · obtain ⟨n, place, hn, hshortest⟩ := Number.Binary64.shortest_spec hfits hm
    refine ⟨((Number.Binary64.shortest m e).text Number.Binary64.plainLayout).toList, ?_, ?_⟩
    · rw [writeFloat_of_ne_zero negative hm, String.toList_append]
    · intro start rest hrest
      obtain ⟨hleads, hvalue⟩ := ofScaled_spec (hn.ne_zero hfits hm) place
      obtain ⟨n', place', hvalue', hread⟩ := readUnsignedNumber_text hleads negative start
        Number.Binary64.plainLayout rfl hrest
      rw [hshortest, hread, Number.Binary64.ofDecimal_eq hfits hm negative
        (by rwa [hvalue', hvalue])]

theorem writeFloat_finite (negative : Bool) {m : Nat} {e : Int}
    (hfits : Number.Binary64.Fits m e) :
    ∃ c cs, (writeFloat (.finite negative m e)).toList =
        (Number.Binary64.signText negative).toList ++ c :: cs ∧ isDigit c = true ∧
      ∀ (start : Nat) (rest : List Char), EndsNumber rest →
        readUnsignedNumber negative start (c :: cs ++ rest) =
          .ok (.float (.finite negative m e), rest) := by
  obtain ⟨cs, htext, hread⟩ := writeFloat_signed negative hfits
  obtain ⟨c, ds, hds, hc⟩ := head_of_readUnsignedNumber (hread 0 [] endsNumber_nil)
  rw [List.append_nil] at hds
  subst hds
  exact ⟨c, ds, htext, hc, hread⟩

theorem readAtom_float {x : Number.Binary64} (hx : x.IsProper) {rest : List Char}
    (hrest : EndsNumber rest) :
    readAtom ((writeFloat x).toList ++ rest) = .ok (.float x, rest) := by
  cases x with
  | nan => rfl
  | infinite negative => cases negative <;> rfl
  | finite negative m e =>
    obtain ⟨c, cs, hwrite, hc, hread⟩ := writeFloat_finite negative hx
    obtain ⟨start, hatom⟩ := readAtom_signed negative hc (cs ++ rest)
    rw [hwrite, List.append_assoc, List.cons_append, hatom]
    exact hread start rest hrest

/-- A written number starts with a digit, a sign or the letter of a name. -/
def StartsNumber (c : Char) : Prop :=
  isDigit c = true ∨ c ∈ ['-', 'N', 'I']

theorem signed_head (negative : Bool) {c : Char} (hc : isDigit c = true) (cs : List Char) :
    ∃ d ds, (Number.Binary64.signText negative).toList ++ c :: cs = d :: ds ∧ StartsNumber d := by
  cases negative with
  | true => exact ⟨'-', c :: cs, rfl, Or.inr (by decide)⟩
  | false => exact ⟨c, cs, rfl, Or.inl hc⟩

theorem write_int_head (n : Int) : ∃ c cs, (write (.int n)).toList = c :: cs ∧ StartsNumber c := by
  obtain ⟨c, ds, hds, hc⟩ := exists_digit n.natAbs
  rw [toList_write_int, decimals, hds]
  exact signed_head _ hc ds

theorem writeFloat_head {x : Number.Binary64} (hx : x.IsProper) :
    ∃ c cs, (writeFloat x).toList = c :: cs ∧ StartsNumber c := by
  cases x with
  | nan => exact ⟨'N', _, rfl, Or.inr (by decide)⟩
  | infinite negative =>
    cases negative
    · exact ⟨'I', _, rfl, Or.inr (by decide)⟩
    · exact ⟨'-', _, rfl, Or.inr (by decide)⟩
  | finite negative m e =>
    obtain ⟨c, cs, hwrite, hc, -⟩ := writeFloat_finite negative hx
    rw [hwrite]
    exact signed_head negative hc cs

theorem StartsNumber.ne {c d : Char} (hc : StartsNumber c) (hd : isDigit d = false)
    (hd' : d ∉ ['-', 'N', 'I']) : c ≠ d := by
  rintro rfl
  rcases hc with hc | hc
  · rw [hd] at hc
    cases hc
  · exact hd' hc

theorem StartsNumber.not_space {c : Char} (hc : StartsNumber c) : isSpace c = false := by
  simp [isSpace, hc.ne (d := ' ') rfl (by decide), hc.ne (d := '\t') rfl (by decide),
    hc.ne (d := '\n') rfl (by decide), hc.ne (d := '\r') rfl (by decide)]

/-! ## Characters of numbers -/

/-- The character is no control. -/
def IsPrintable (c : Char) : Prop :=
  0x20 ≤ c.toNat

instance : DecidablePred IsPrintable := fun c =>
  inferInstanceAs (Decidable (0x20 ≤ c.toNat))

theorem isPrintable_of_all {cs : List Char} (h : (cs.all fun c => decide (IsPrintable c)) = true) :
    ∀ c ∈ cs, IsPrintable c := by
  simpa using h

theorem isPrintable_of_isDigit {c : Char} (h : isDigit c = true) : IsPrintable c := by
  have hcode := toNat_of_isDigit h
  rw [IsPrintable]
  omega

theorem isPrintable_digits {ds : List Char} (h : ∀ c ∈ ds, isDigit c = true) :
    ∀ c ∈ ds, IsPrintable c :=
  fun c hc => isPrintable_of_isDigit (h c hc)

theorem isPrintable_exponentText (e : Int) :
    ∀ c ∈ (Number.exponentText e).toList, IsPrintable c := by
  rw [toList_exponentText]
  refine List.forall_mem_cons.mpr ⟨by decide, List.forall_mem_cons.mpr ⟨?_, ?_⟩⟩
  · split <;> decide
  · refine List.forall_mem_append.mpr ⟨?_, isPrintable_digits fun c hc => isDigit_of_mem hc⟩
    split <;> exact isPrintable_of_all (by decide)

theorem Leads.isPrintable {d : Number.Decimal} (h : Leads d) (layout : Number.Layout) :
    ∀ c ∈ (d.text layout).toList, IsPrintable c := by
  have hdigits := isPrintable_digits h.digits
  have hzeros (k : Nat) : ∀ c ∈ ("".pushn '0' k).toList, IsPrintable c := by
    rw [Number.toList_pushn]
    exact isPrintable_digits fun c hc => isDigit_zeros hc
  have hlist {ds : List Char} (hds : ∀ c ∈ ds, c ∈ d.digits) :
      ∀ c ∈ (String.ofList ds).toList, IsPrintable c := by
    rw [String.toList_ofList]
    exact fun c hc => hdigits c (hds c hc)
  rw [Number.Decimal.text]
  split
  · rw [Number.Decimal.positional]
    split
    · simp only [String.toList_append, List.forall_mem_append]
      exact ⟨⟨isPrintable_of_all (by decide), hzeros _⟩, hlist fun c hc => hc⟩
    split
    · simp only [String.toList_append, List.forall_mem_append]
      exact ⟨⟨hlist fun c hc => hc, hzeros _⟩, isPrintable_of_all (by decide)⟩
    · simp only [String.toList_append, List.forall_mem_append]
      exact ⟨⟨hlist fun c => List.mem_of_mem_take, isPrintable_of_all (by decide)⟩,
        hlist fun c => List.mem_of_mem_drop⟩
  · rw [Number.Decimal.scientific]
    simp only [String.toList_append, List.forall_mem_append]
    refine ⟨⟨hlist fun c => List.mem_of_mem_take, ?_⟩, isPrintable_exponentText _⟩
    split
    · split <;> exact isPrintable_of_all (by decide)
    · simp only [String.toList_append, List.forall_mem_append]
      exact ⟨isPrintable_of_all (by decide), hlist fun c => List.mem_of_mem_tail⟩

end Json

end Courier
