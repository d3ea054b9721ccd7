import Courier.Proofs.Number.Digits
import Courier.Proofs.Text.Lower
import Courier.Value.Convert
import Mathlib.Data.Nat.Digits.Lemmas

/-!
# Numerals

A numeral is a row of digits, of any scripts, with or without a minus sign in front. It is read as the
number that it denotes, unless it has too many digits; and a number that is written is a numeral for it.
-/

namespace Courier.Number

/-! ## Digits -/

/-- The characters are digits with these values. -/
abbrev AreDigits (cs : List Char) (values : List Nat) : Prop :=
  List.Forall₂ (fun c d => Text.digitValue? c = some d) cs values

theorem lt_ten_of_digitValue? {c : Char} {d : Nat} (h : Text.digitValue? c = some d) : d < 10 := by
  rw [Text.digitValue?] at h
  split at h
  · split at h
    · rename_i hdigit
      have hle : c.toNat ≤ '9'.toNat := hdigit.2
      have hnine : '9'.toNat = 0x39 := rfl
      cases h
      omega
    · cases h
  · obtain ⟨z, hz, rfl⟩ := Option.map_eq_some_iff.mp h
    have hrange := List.find?_some hz
    simp only [decide_eq_true_eq] at hrange
    omega

theorem digitValue?_digitChar {d : Nat} (h : d < 10) : Text.digitValue? d.digitChar = some d := by
  have hall : ∀ d < 10, Text.digitValue? d.digitChar = some d := by decide
  exact hall d h

theorem exists_areDigits {cs : List Char} (h : ∀ c ∈ cs, Text.isDigit c = true) :
    ∃ values, AreDigits cs values := by
  induction cs with
  | nil => exact ⟨[], .nil⟩
  | cons c cs ih =>
    obtain ⟨values, hvalues⟩ := ih fun d hd => h d (List.mem_cons_of_mem c hd)
    obtain ⟨d, hd⟩ := Option.isSome_iff_exists.mp (h c List.mem_cons_self)
    exact ⟨d :: values, .cons hd hvalues⟩

namespace AreDigits

variable {cs : List Char} {values : List Nat}

theorem isDigit (h : AreDigits cs values) : ∀ c ∈ cs, Text.isDigit c = true := by
  induction h with
  | nil => exact List.forall_mem_nil _
  | cons hc _ ih => exact List.forall_mem_cons.mpr ⟨Option.isSome_of_eq_some hc, ih⟩

theorem countP_isDigit (h : AreDigits cs values) : cs.countP Text.isDigit = values.length := by
  rw [List.countP_eq_length.mpr (isDigit h), h.length_eq]

theorem lt_ten (h : AreDigits cs values) : ∀ d ∈ values, d < 10 := by
  induction h with
  | nil => exact List.forall_mem_nil _
  | cons hc _ ih => exact List.forall_mem_cons.mpr ⟨lt_ten_of_digitValue? hc, ih⟩

/-- Digits with nothing behind them are read to the end. -/
theorem digitsFrom (h : AreDigits cs values) (read : List Nat) {gap : Bool}
    (hgap : gap = true → cs ≠ []) : digitsFrom read gap cs = some (read.reverse ++ values, []) := by
  induction h generalizing read gap with
  | nil =>
    cases gap with
    | true => exact absurd rfl (hgap rfl)
    | false => simp [Number.digitsFrom]
  | cons hc _ ih =>
    rw [Number.digitsFrom, hc]
    dsimp only
    rw [ih _ (fun hfalse => by cases hfalse), List.reverse_cons, List.append_assoc]
    rfl

end AreDigits

/-! ## What numerals denote -/

/-- The number that digits denote, of which the last one counts ones. -/
def worth (values : List Nat) : Nat :=
  Nat.ofDigits 10 values.reverse

theorem worth_append (values : List Nat) (d : Nat) : worth (values ++ [d]) = 10 * worth values + d := by
  rw [worth, List.reverse_append, List.reverse_singleton, List.singleton_append, Nat.ofDigits_cons,
    Nat.add_comm]
  rfl

/-- Zeros in front count nothing. -/
theorem worth_zeros (k : Nat) (values : List Nat) : worth (List.replicate k 0 ++ values) = worth values := by
  rw [worth, List.reverse_append, List.reverse_replicate, Nat.ofDigits_append_replicate_zero, worth]

theorem ofDigits_eq_worth (values : List Nat) : ofDigits values = worth values := by
  induction values using List.reverseRecOn with
  | nil => rfl
  | append_singleton values d ih => rw [worth_append, ← ih, ofDigits, List.foldl_concat]; rfl

/-- A row of digits, with or without a minus sign, denotes a whole number. -/
inductive Denotes : List Char → Int → Prop where
  | plain {cs : List Char} {values : List Nat} (hne : cs ≠ []) (h : AreDigits cs values) :
    Denotes cs (worth values)
  | negative {cs : List Char} {values : List Nat} (hne : cs ≠ []) (h : AreDigits cs values) :
    Denotes ('-' :: cs) (-worth values)

theorem Denotes.mem {cs : List Char} {n : Int} (h : Denotes cs n) {c : Char} (hc : c ∈ cs) :
    c = '-' ∨ Text.isDigit c = true := by
  cases h with
  | plain _ h => exact .inr (h.isDigit c hc)
  | negative _ h => exact (List.mem_cons.mp hc).imp_right (h.isDigit c)

theorem readUnsigned_digits {cs : List Char} {values : List Nat} (hne : cs ≠ [])
    (h : AreDigits cs values) :
    readUnsigned cs =
      if digitLimit < values.length then .error (.tooLong values.length) else .ok (worth values) := by
  rw [readUnsigned, h.digitsFrom [] fun _ => hne]
  dsimp only
  rw [List.reverse_nil, List.nil_append, ofDigits_eq_worth]
  rfl

/-- No script has a blank among its digits. -/
theorem isBlank_of_isDigit {c : Char} (h : Text.isDigit c = true) : Text.isBlank c = false := by
  have hapart : ∀ z ∈ Text.zeroDigits, ∀ range ∈ Text.blankRanges,
      z + 9 < range.1 ∨ range.2 < z := by decide +kernel
  have hascii : ∀ range ∈ Text.blankRanges, '9'.toNat < range.1 ∨ range.2 < '0'.toNat := by decide
  have hbetween : ∃ low high, (low ≤ c.toNat ∧ c.toNat ≤ high) ∧
      ∀ range ∈ Text.blankRanges, high < range.1 ∨ range.2 < low := by
    obtain ⟨d, hd⟩ := Option.isSome_iff_exists.mp h
    rw [Text.digitValue?] at hd
    split at hd
    · split at hd
      · rename_i hdigit
        exact ⟨'0'.toNat, '9'.toNat, hdigit, hascii⟩
      · cases hd
    · obtain ⟨z, hz, -⟩ := Option.map_eq_some_iff.mp hd
      exact ⟨z, z + 9, by simpa using List.find?_some hz, hapart z (List.mem_of_find?_eq_some hz)⟩
  obtain ⟨low, high, ⟨hlow, hhigh⟩, havoids⟩ := hbetween
  exact Text.isBlank_eq_false hlow hhigh havoids

theorem isPadding_of_isDigit {c : Char} (h : Text.isDigit c = true) : isPadding c = false := by
  rw [isPadding, isBlank_of_isDigit h, Bool.false_and]

/-- A numeral is read as the number that it denotes, unless it has too many digits. -/
theorem readInt_of_denotes {cs : List Char} {n : Int} (h : Denotes cs n) :
    readInt cs =
      if digitLimit < cs.countP Text.isDigit then .error (.tooLong (cs.countP Text.isDigit))
      else .ok n := by
  cases h with
  | plain hne h =>
    obtain ⟨c, cs, rfl⟩ := List.exists_cons_of_ne_nil hne
    have hc : Text.isDigit c = true := h.isDigit c List.mem_cons_self
    rw [readInt, List.dropWhile_cons_of_neg (by simp [isPadding_of_isDigit hc]), h.countP_isDigit]
    split
    · rename_i hsign
      obtain rfl : c = '-' := (List.cons.inj hsign).1
      cases hc
    · rename_i hsign
      obtain rfl : c = '+' := (List.cons.inj hsign).1
      cases hc
    · rw [readUnsigned_digits hne h]
      split <;> rfl
  | @negative cs values hne h =>
    rw [readInt, List.dropWhile_cons_of_neg (by decide), List.countP_cons_of_neg (by decide),
      h.countP_isDigit]
    change (readUnsigned cs).map (- Int.ofNat ·) = _
    rw [readUnsigned_digits hne h]
    split <;> rfl

/-! ## Numerals that are written -/

/-- The digits of a number denote it. -/
theorem exists_areDigits_toDigits (n : Nat) :
    ∃ values, AreDigits (Nat.toDigits 10 n) values ∧ worth values = n := by
  induction n using Nat.strongRecOn with
  | _ n ih =>
    by_cases hsmall : n < 10
    · refine ⟨[n], ?_, Nat.ofDigits_singleton⟩
      rw [Nat.toDigits_of_lt_base hsmall]
      exact .cons (digitValue?_digitChar hsmall) .nil
    · obtain ⟨values, hvalues, hworth⟩ := ih (n / 10) (by omega)
      refine ⟨values ++ [n % 10], ?_, by rw [worth_append, hworth]; omega⟩
      rw [Nat.toDigits_of_base_le (by decide) (by omega)]
      exact List.rel_append hvalues
        (.cons (digitValue?_digitChar (Nat.mod_lt n (by decide))) .nil)

theorem areDigits_zeros (k : Nat) : AreDigits (List.replicate k '0') (List.replicate k 0) := by
  induction k with
  | zero => exact .nil
  | succ k ih => exact .cons rfl ih

/-- Zeros in front of the digits of a number make no difference. -/
theorem exists_areDigits_padded (width n : Nat) :
    ∃ values, AreDigits (padded width n).toList values ∧ worth values = n := by
  obtain ⟨values, hvalues, hworth⟩ := exists_areDigits_toDigits n
  have hchars : (padded width n).toList =
      List.replicate (width - (toString n).length) '0' ++ Nat.toDigits 10 n := by
    rw [padded, String.toList_append, toList_pushn, toList_toString]
    rfl
  rw [hchars]
  exact ⟨_, List.rel_append (areDigits_zeros _) hvalues, by rw [worth_zeros, hworth]⟩

theorem readUnsigned_padded {width n : Nat} (hne : (padded width n).toList ≠ [])
    (h : (padded width n).toList.length ≤ digitLimit) :
    readUnsigned (padded width n).toList = .ok n := by
  obtain ⟨values, hvalues, hworth⟩ := exists_areDigits_padded width n
  rw [readUnsigned_digits hne hvalues, ← hvalues.length_eq, if_neg (Nat.not_lt.mpr h), hworth]

theorem toList_toString_int (n : Int) :
    (toString n).toList = (if n < 0 then ['-'] else []) ++ Nat.toDigits 10 n.natAbs := by
  cases n with
  | ofNat n => simp [toString, Int.repr, Nat.repr_eq_ofList_toDigits]
  | negSucc n => simp [toString, Int.repr, Nat.repr_eq_ofList_toDigits]

theorem denotes_toString (n : Int) : Denotes (toString n).toList n := by
  obtain ⟨values, hvalues, hworth⟩ := exists_areDigits_toDigits n.natAbs
  rw [toList_toString_int]
  by_cases hn : n < 0
  · have hvalue : n = -worth values := by omega
    rw [if_pos hn]
    nth_rewrite 2 [hvalue]
    exact .negative Nat.toDigits_ne_nil hvalues
  · have hvalue : n = worth values := by omega
    rw [if_neg hn, List.nil_append]
    nth_rewrite 2 [hvalue]
    exact .plain Nat.toDigits_ne_nil hvalues

theorem countP_isDigit_toString (n : Int) :
    (toString n).toList.countP Text.isDigit = (Nat.toDigits 10 n.natAbs).length := by
  obtain ⟨values, hvalues, -⟩ := exists_areDigits_toDigits n.natAbs
  have hsign : (if n < 0 then ['-'] else []).countP Text.isDigit = 0 := by split <;> rfl
  rw [toList_toString_int, List.countP_append, hsign, Nat.zero_add, hvalues.countP_isDigit,
    hvalues.length_eq]

/-- A number is read from what is written for it, unless it has too many digits. -/
theorem readInt_toString {n : Int} (h : (Nat.toDigits 10 n.natAbs).length ≤ digitLimit) :
    readInt (toString n).toList = .ok n := by
  rw [readInt_of_denotes (denotes_toString n), countP_isDigit_toString, if_neg (Nat.not_lt.mpr h)]

/-- No numeral for a number has fewer digits than what is written for it. -/
theorem Denotes.length_le {cs : List Char} {n : Int} (h : Denotes cs n) :
    (Nat.toDigits 10 n.natAbs).length ≤ cs.countP Text.isDigit := by
  have hworth {ds : List Char} {values : List Nat} (hne : ds ≠ []) (h : AreDigits ds values) :
      (Nat.toDigits 10 (worth values)).length ≤ ds.countP Text.isDigit := by
    have hpos : 0 < values.length := by
      rw [← h.length_eq]
      exact List.length_pos_of_ne_nil hne
    have hlt : worth values < 10 ^ values.reverse.length :=
      Nat.ofDigits_lt_base_pow_length (by decide) fun d hd => h.lt_ten d (List.mem_reverse.mp hd)
    rw [h.countP_isDigit]
    rw [List.length_reverse] at hlt
    exact (Nat.length_toDigits_le_iff (by decide) hpos).mpr hlt
  cases h with
  | plain hne h => exact hworth hne h
  | negative hne h =>
    rw [Int.natAbs_neg, List.countP_cons_of_neg (by decide)]
    exact hworth hne h

end Courier.Number

namespace Courier

theorem readInteger_eq_ok {s : String} {n : Int} :
    readInteger s = .ok n ↔ Number.readInt s.toList = .ok n := by
  rw [readInteger]
  cases Number.readInt s.toList with
  | ok m => simp
  | error e => cases e <;> simp

end Courier
