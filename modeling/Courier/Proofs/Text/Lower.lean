import Courier.Text.Blank
import Courier.Text.Case
import Mathlib.Data.List.Basic

/-!
# Letters in lower case

A text in lower case stays as it is when it is put in lower case again, because no run of the table of
lower case leads into another run. No letter becomes blank that way.
-/

namespace Courier.Text

/-! ## The table -/

namespace CaseRun

/-- The code points that a run leads to are between these two. -/
def low (r : CaseRun) : Nat :=
  (r.first + r.shift).toNat

def high (r : CaseRun) : Nat :=
  (r.last + r.shift).toNat

/-- No code point between `low` and `high` is in the run. If they are in steps of two, there may also be
others between those of the run. -/
def isMissedBy (s : CaseRun) (low high : Nat) (stepped : Bool) : Bool :=
  high.blt s.first || s.last.blt low ||
    (stepped && s.step == 2 && (low - s.first) % 2 == 1)

/-- What the first run leads to is not in the second one. -/
def misses (r s : CaseRun) : Bool :=
  s.isMissedBy r.low r.high (r.step == 2 || r.first == r.last)

theorem map?_eq_some {r : CaseRun} {n m : Nat} (h : r.map? n = some m) :
    r.first ≤ n ∧ n ≤ r.last ∧ (n - r.first) % r.step = 0 ∧ m = (n + r.shift).toNat := by
  unfold map? at h
  split at h
  · rename_i hin
    exact ⟨hin.1, hin.2.1, hin.2.2, (Option.some.inj h).symm⟩
  · cases h

theorem map?_of_misses {r s : CaseRun} (h : r.misses s = true) {n m : Nat}
    (hm : r.map? n = some m) : s.map? m = none := by
  obtain ⟨hfirst, hlast, hstep, rfl⟩ := map?_eq_some hm
  simp only [misses, isMissedBy, low, high, Bool.or_eq_true, Bool.and_eq_true, Nat.blt_eq,
    beq_iff_eq] at h
  refine if_neg ?_
  rintro ⟨hle, hge, hmod⟩
  rcases h with (h | h) | ⟨⟨hr, hs⟩, hparity⟩
  · omega
  · omega
  · rw [hs] at hmod
    rcases hr with hr | hr
    · rw [hr] at hstep
      omega
    · omega

/-- What a run leads to is between its two ends. -/
theorem between_of_map? {r : CaseRun} {n m : Nat} (hm : r.map? n = some m) :
    r.low ≤ m ∧ m ≤ r.high := by
  obtain ⟨hfirst, hlast, -, rfl⟩ := map?_eq_some hm
  rw [low, high]
  omega

end CaseRun

def blankRanges : Ranges :=
  [(0x9, 0xd), (0x1c, 0x20), (0x85, 0x85), (0xa0, 0xa0), (0x1680, 0x1680), (0x2000, 0x200a),
    (0x2028, 0x2029), (0x202f, 0x202f), (0x205f, 0x205f), (0x3000, 0x3000)]

theorem isBlank_eq (c : Char) : isBlank c = blankRanges.contains c := by
  rw [Bool.eq_iff_iff]
  simp only [isBlank, blankRanges, Ranges.contains, List.any_cons, List.any_nil, Bool.or_eq_true,
    Bool.and_eq_true, decide_eq_true_eq, beq_iff_eq, Bool.or_false]
  omega

/-- A character in an interval is in none of the ranges that the interval avoids. -/
theorem Ranges.contains_eq_false {ranges : Ranges} {c : Char} {low high : Nat} (hlow : low ≤ c.toNat)
    (hhigh : c.toNat ≤ high) (h : ∀ range ∈ ranges, high < range.1 ∨ range.2 < low) :
    ranges.contains c = false := by
  rw [Ranges.contains, List.any_eq_false]
  intro range hrange
  have havoids := h range hrange
  simp only [Bool.and_eq_true, decide_eq_true_eq]
  omega

theorem isBlank_eq_false {c : Char} {low high : Nat} (hlow : low ≤ c.toNat) (hhigh : c.toNat ≤ high)
    (h : ∀ range ∈ blankRanges, high < range.1 ∨ range.2 < low) : isBlank c = false :=
  (isBlank_eq c).trans (Ranges.contains_eq_false hlow hhigh h)

theorem lowerRuns_misses : (lowerRuns.all fun r => lowerRuns.all r.misses) = true := by decide +kernel

/-- No run leads to a blank, or to the capital I with a dot. -/
theorem lowerRuns_avoids : ∀ r ∈ lowerRuns, ∀ range ∈ (0x130, 0x130) :: blankRanges,
    r.high < range.1 ∨ range.2 < r.low := by decide +kernel

/-! ## Characters -/

/-- A character that lower case leaves as it is, wherever it stands. -/
structure IsLow (c : Char) : Prop where
  ne_sigma : c ≠ 'Σ'
  ne_dotted : c ≠ 'İ'
  fixed : lowerChar c = c

instance (c : Char) : Decidable (IsLow c) :=
  decidable_of_iff (c ≠ 'Σ' ∧ c ≠ 'İ' ∧ lowerChar c = c)
    ⟨fun ⟨h, h', h''⟩ => ⟨h, h', h''⟩, fun ⟨h, h', h''⟩ => ⟨h, h', h''⟩⟩

/-- A mapping leads out of all runs, and to no blank. -/
theorem mapped_spec {n m : Nat} (h : lowerRuns.findSome? (·.map? n) = some m) :
    lowerRuns.findSome? (·.map? m) = none ∧
      ∀ range ∈ (0x130, 0x130) :: blankRanges, m < range.1 ∨ range.2 < m := by
  obtain ⟨r, hr, hm⟩ := List.exists_of_findSome?_eq_some h
  refine ⟨List.findSome?_eq_none_iff.mpr fun s hs => ?_, fun range hrange => ?_⟩
  · have hmisses := List.all_eq_true.mp (List.all_eq_true.mp lowerRuns_misses r hr) s hs
    exact CaseRun.map?_of_misses hmisses hm
  · obtain ⟨hlow, hhigh⟩ := CaseRun.between_of_map? hm
    rcases lowerRuns_avoids r hr range hrange with havoids | havoids
    · exact Or.inl (Nat.lt_of_le_of_lt hhigh havoids)
    · exact Or.inr (Nat.lt_of_lt_of_le havoids hlow)

theorem toNat_charAt (n : Nat) : (charAt n).toNat = n ∨ charAt n = '\x00' := by
  rw [charAt]
  by_cases h : n.isValidChar
  · exact Or.inl (by rw [Char.ofNat, dif_pos h]; rfl)
  · exact Or.inr (by rw [Char.ofNat, dif_neg h]; rfl)

/-- A capital sigma is in a run, and so is every capital letter A to Z. -/
theorem not_capital_of_unmapped {n : Nat} (h : lowerRuns.findSome? (·.map? n) = none) :
    n ≠ 0x3a3 ∧ ¬ (0x41 ≤ n ∧ n ≤ 0x5a) := by
  have hall := List.findSome?_eq_none_iff.mp h
  constructor
  · rintro rfl
    have hsigma := hall ⟨0x3a3, 0x3ab, 1, 32⟩ (by decide)
    cases hsigma
  · rintro ⟨hA, hZ⟩
    have hletter := hall ⟨0x41, 0x5a, 1, 32⟩ (by decide)
    rw [CaseRun.map?, if_pos ⟨hA, hZ, Nat.mod_one _⟩] at hletter
    cases hletter

theorem toLower_eq {c : Char} (hc : c.toNat < 0x80) (h : ¬ (0x41 ≤ c.toNat ∧ c.toNat ≤ 0x5a)) :
    c.toLower = c := by
  have hall : ∀ n < 0x80, ¬ (0x41 ≤ n ∧ n ≤ 0x5a) → (Char.ofNat n).toLower = Char.ofNat n := by
    decide +kernel
  have heq := hall c.toNat hc h
  rwa [Char.ofNat_toNat] at heq

theorem isLow_of_unmapped {c : Char} (h : lowerRuns.findSome? (·.map? c.toNat) = none)
    (hdotted : c ≠ 'İ') : IsLow c where
  ne_sigma := by
    rintro rfl
    exact (not_capital_of_unmapped h).1 rfl
  ne_dotted := hdotted
  fixed := by
    rw [lowerChar]
    split
    · rename_i hascii
      exact toLower_eq hascii (not_capital_of_unmapped h).2
    · rw [mapRuns, h]

/-- The lower case form of an ASCII letter is one, and no other ASCII character becomes blank. -/
theorem lowerChar_ascii {c : Char} (h : c.toNat < 0x80) :
    IsLow (lowerChar c) ∧ (isBlank c = false → isBlank (lowerChar c) = false) := by
  have hall : ∀ n < 0x80, IsLow (lowerChar (Char.ofNat n)) ∧
      (isBlank (Char.ofNat n) = false → isBlank (lowerChar (Char.ofNat n)) = false) := by
    decide +kernel
  have hc := hall c.toNat h
  rwa [Char.ofNat_toNat] at hc

theorem charAt_mapped {n m : Nat} (h : lowerRuns.findSome? (·.map? n) = some m) :
    IsLow (charAt m) ∧ isBlank (charAt m) = false := by
  obtain ⟨hunmapped, havoids⟩ := mapped_spec h
  rcases toNat_charAt m with hm | hm
  · refine ⟨isLow_of_unmapped (by rwa [hm]) ?_, ?_⟩
    · intro hdotted
      have hrange := havoids (0x130, 0x130) List.mem_cons_self
      rw [← hm, hdotted] at hrange
      revert hrange
      decide
    · exact isBlank_eq_false (Nat.le_of_eq hm.symm) (Nat.le_of_eq hm) fun range hrange =>
        havoids range (List.mem_cons_of_mem _ hrange)
  · rw [hm]
    decide

theorem lowerChar_spec {c : Char} (hdotted : c ≠ 'İ') :
    IsLow (lowerChar c) ∧ (isBlank c = false → isBlank (lowerChar c) = false) := by
  by_cases hascii : c.toNat < 0x80
  · exact lowerChar_ascii hascii
  · rw [lowerChar, if_neg hascii, mapRuns]
    split
    · rename_i m hm
      exact ⟨(charAt_mapped hm).1, fun _ => (charAt_mapped hm).2⟩
    · rename_i hnone
      exact ⟨isLow_of_unmapped hnone hdotted, id⟩

/-! ## Texts -/

/-- Each character leads to one or two in lower case, and none of them is blank unless it is. -/
theorem lowerFrom_cons (before : List Char) (c : Char) (cs : List Char) :
    ∃ ds, ds ≠ [] ∧ (∀ d ∈ ds, IsLow d ∧ (isBlank c = false → isBlank d = false)) ∧
      lowerFrom before (c :: cs) = ds ++ lowerFrom (c :: before) cs := by
  refine ⟨_, ?_, ?_, rfl⟩
  · split
    · exact List.cons_ne_nil _ _
    · split <;> exact List.cons_ne_nil _ _
  · intro d hd
    split at hd
    · -- Both forms of sigma are in lower case.
      split at hd
      · obtain rfl := List.mem_singleton.mp hd
        exact ⟨by decide +kernel, fun _ => rfl⟩
      · obtain rfl := List.mem_singleton.mp hd
        exact ⟨by decide +kernel, fun _ => rfl⟩
    · split at hd
      · rcases List.mem_cons.mp hd with rfl | hd
        · exact ⟨by decide +kernel, fun _ => by decide +kernel⟩
        · obtain rfl := List.mem_singleton.mp hd
          exact ⟨by decide +kernel, fun _ => by decide +kernel⟩
      · rename_i hdotted
        obtain rfl := List.mem_singleton.mp hd
        exact lowerChar_spec hdotted

theorem isLow_of_mem_lowerFrom {before cs : List Char} {c : Char} (h : c ∈ lowerFrom before cs) :
    IsLow c := by
  induction cs generalizing before with
  | nil => cases h
  | cons d cs ih =>
    obtain ⟨ds, -, hds, hlower⟩ := lowerFrom_cons before d cs
    rw [hlower] at h
    rcases List.mem_append.mp h with hc | hc
    · exact (hds c hc).1
    · exact ih hc

/-- A list that begins with no blank does not begin with one in lower case. -/
theorem head?_lowerFrom {before cs : List Char} (h : ∀ c ∈ cs.head?, isBlank c = false) :
    ∀ c ∈ (lowerFrom before cs).head?, isBlank c = false := by
  cases cs with
  | nil => exact fun c hc => absurd hc (Option.not_mem_none c)
  | cons d cs =>
    obtain ⟨ds, hne, hds, hlower⟩ := lowerFrom_cons before d cs
    intro c hc
    rw [hlower, List.head?_append_of_ne_nil ds hne] at hc
    exact (hds c (List.mem_of_mem_head? hc)).2 (h d rfl)

/-- Nor does it end with one if it did not before. -/
theorem getLast?_lowerFrom {before cs : List Char} (h : ∀ c ∈ cs.getLast?, isBlank c = false) :
    ∀ c ∈ (lowerFrom before cs).getLast?, isBlank c = false := by
  induction cs generalizing before with
  | nil => exact fun c hc => absurd hc (Option.not_mem_none c)
  | cons d cs ih =>
    obtain ⟨ds, -, hds, hlower⟩ := lowerFrom_cons before d cs
    intro c hc
    cases cs with
    | nil =>
      rw [hlower, lowerFrom, List.append_nil] at hc
      exact (hds c (List.mem_of_mem_getLast? hc)).2 (h d rfl)
    | cons e cs =>
      have hne : lowerFrom (d :: before) (e :: cs) ≠ [] := by
        obtain ⟨es, hes, -, hlower'⟩ := lowerFrom_cons (d :: before) e cs
        rw [hlower']
        exact List.append_ne_nil_of_left_ne_nil hes _
      rw [hlower, List.getLast?_append_of_ne_nil _ hne] at hc
      exact ih (fun c hc => h c (by rwa [List.getLast?_cons_cons])) c hc

/-- What is in lower case stays, whatever comes behind it. -/
theorem lowerFrom_append_of_isLow (before : List Char) {cs : List Char} (h : ∀ c ∈ cs, IsLow c)
    (rest : List Char) : lowerFrom before (cs ++ rest) = cs ++ lowerFrom (cs.reverse ++ before) rest := by
  induction cs generalizing before with
  | nil => rfl
  | cons c cs ih =>
    obtain ⟨hsigma, hdotted, hfixed⟩ := h c List.mem_cons_self
    rw [List.cons_append, lowerFrom, if_neg hsigma, if_neg hdotted, hfixed,
      ih _ fun d hd => h d (List.mem_cons_of_mem c hd), List.reverse_cons, List.append_assoc]
    rfl

theorem lowerFrom_of_isLow {before cs : List Char} (h : ∀ c ∈ cs, IsLow c) :
    lowerFrom before cs = cs := by
  have happend := lowerFrom_append_of_isLow before h []
  rwa [lowerFrom, List.append_nil] at happend

theorem lower_lower (s : String) : lower (lower s) = lower s := by
  have hlow : ∀ c ∈ (lower s).toList, IsLow c := by
    intro c hc
    rw [lower, String.toList_ofList] at hc
    exact isLow_of_mem_lowerFrom hc
  rw [lower, lowerFrom_of_isLow hlow, String.ofList_toList]

/-! ## Blanks -/

/-- A blank is in no run of lower case, and it neither has a case nor is ignored by case. -/
theorem blankRanges_apart : ∀ range ∈ blankRanges,
    (∀ r ∈ lowerRuns, r.last < range.1 ∨ range.2 < r.first) ∧
      ∀ other ∈ casedRanges ++ caseIgnorableRanges, other.2 < range.1 ∨ range.2 < other.1 := by
  decide +kernel

theorem exists_range_of_isBlank {c : Char} (h : isBlank c = true) :
    ∃ range ∈ blankRanges, range.1 ≤ c.toNat ∧ c.toNat ≤ range.2 := by
  rw [isBlank_eq, Ranges.contains, List.any_eq_true] at h
  simpa only [Bool.and_eq_true, decide_eq_true_eq] using h

theorem isLow_of_isBlank {c : Char} (h : isBlank c = true) : IsLow c := by
  obtain ⟨range, hrange, hlow, hhigh⟩ := exists_range_of_isBlank h
  refine isLow_of_unmapped (List.findSome?_eq_none_iff.mpr fun r hr => if_neg ?_) ?_
  · rintro ⟨hfirst, hlast, -⟩
    have hapart := (blankRanges_apart range hrange).1 r hr
    omega
  · rintro rfl
    cases h

theorem not_contains_of_isBlank {c : Char} (h : isBlank c = true) {ranges : Ranges}
    (hranges : ∀ other ∈ ranges, other ∈ casedRanges ++ caseIgnorableRanges) :
    ranges.contains c = false := by
  obtain ⟨range, hrange, hlow, hhigh⟩ := exists_range_of_isBlank h
  refine Ranges.contains_eq_false hlow hhigh fun other hother => ?_
  exact ((blankRanges_apart range hrange).2 other (hranges other hother)).symm

theorem isCased_of_isBlank {c : Char} (h : isBlank c = true) : isCased c = false :=
  not_contains_of_isBlank h fun _ => List.mem_append_left _

theorem isCaseIgnorable_of_isBlank {c : Char} (h : isBlank c = true) : isCaseIgnorable c = false :=
  not_contains_of_isBlank h fun _ => List.mem_append_right _

/-- The letters that meet a letter do not reach beyond a blank. -/
theorem meetsCased_append (cs : List Char) {rest : List Char}
    (h : ∀ c ∈ rest.head?, isBlank c = true) : meetsCased (cs ++ rest) = meetsCased cs := by
  induction cs with
  | nil =>
    cases rest with
    | nil => rfl
    | cons c rest =>
      have hc := h c rfl
      rw [List.nil_append, meetsCased, List.dropWhile_cons_of_neg (by simp [isCaseIgnorable_of_isBlank hc])]
      exact isCased_of_isBlank hc
  | cons c cs ih =>
    rw [meetsCased, meetsCased, List.cons_append, List.dropWhile_cons, List.dropWhile_cons]
    split
    · exact ih
    · rfl

/-- A text up to a blank is put in lower case by itself. -/
theorem lowerFrom_append (before cs : List Char) {rest : List Char}
    (h : ∀ c ∈ rest.head?, isBlank c = true) :
    lowerFrom before (cs ++ rest) = lowerFrom before cs ++ lowerFrom (cs.reverse ++ before) rest := by
  induction cs generalizing before with
  | nil => rfl
  | cons c cs ih =>
    rw [List.cons_append, lowerFrom, lowerFrom, meetsCased_append cs h, ih, List.append_assoc,
      List.reverse_cons, List.append_assoc]
    rfl

theorem lowerFrom_blanks (before : List Char) {blanks : List Char}
    (h : ∀ c ∈ blanks, isBlank c = true) (rest : List Char) :
    lowerFrom before (blanks ++ rest) = blanks ++ lowerFrom (blanks.reverse ++ before) rest :=
  lowerFrom_append_of_isLow before (fun c hc => isLow_of_isBlank (h c hc)) rest

end Courier.Text
