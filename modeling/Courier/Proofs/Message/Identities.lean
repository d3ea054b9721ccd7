import Courier.Message.ChatId
import Courier.Proofs.Number.Numerals
import Courier.Proofs.Text.Words

/-!
# One identity for each chat

A recipient stands for a number if its text is a numeral, and for a name if it is one, with or without an
at sign. Blanks around it, the script of the digits, and zeros in front make no difference. What a recipient
stands for is written as a recipient that stands for the same, so each chat has one identity.
-/

namespace Courier.Message.ChatId

/-! ## Names -/

def IsLetter (c : Char) : Prop :=
  ('A' ≤ c ∧ c ≤ 'Z') ∨ ('a' ≤ c ∧ c ≤ 'z')

/-- The name of a chat: five to thirty-two letters, digits and underscores, a letter first. -/
structure IsChatName (cs : List Char) : Prop where
  first : ∃ c ∈ cs.head?, IsLetter c
  chars : ∀ c ∈ cs, IsLetter c ∨ ('0' ≤ c ∧ c ≤ '9') ∨ c = '_'
  length : 5 ≤ cs.length ∧ cs.length ≤ 32

theorem isAlpha_iff {c : Char} : c.isAlpha = true ↔ IsLetter c := by
  have hupper : c.isUpper = true ↔ 'A' ≤ c ∧ c ≤ 'Z' := decide_eq_true_iff
  have hlower : c.isLower = true ↔ 'a' ≤ c ∧ c ≤ 'z' := by
    change (decide (c.val ≥ 'a'.val) && decide (c.val ≤ 'z'.val)) = true ↔ 'a' ≤ c ∧ c ≤ 'z'
    rw [Bool.and_eq_true, decide_eq_true_eq, decide_eq_true_eq]
    exact Iff.rfl
  exact Bool.or_eq_true_iff.trans (or_congr hupper hlower)

theorem isNameChar_iff {c : Char} :
    isNameChar c = true ↔ IsLetter c ∨ ('0' ≤ c ∧ c ≤ '9') ∨ c = '_' := by
  rw [isNameChar, Bool.or_eq_true, beq_iff_eq, Char.isAlphanum, Bool.or_eq_true, isAlpha_iff, or_assoc,
    Char.isDigit, Bool.and_eq_true, decide_eq_true_eq, decide_eq_true_eq]
  exact Iff.rfl

theorem isName_iff {cs : List Char} : isName cs = true ↔ IsChatName cs := by
  cases cs with
  | nil => exact ⟨nofun, fun h => by simpa using h.length.1⟩
  | cons c cs =>
    simp only [isName, Bool.and_eq_true, decide_eq_true_eq, List.all_eq_true, isAlpha_iff, isNameChar_iff]
    constructor
    · rintro ⟨⟨⟨hfirst, hchars⟩, hmin⟩, hmax⟩
      refine ⟨⟨c, rfl, hfirst⟩, List.forall_mem_cons.mpr ⟨.inl hfirst, hchars⟩, ?_⟩
      rw [List.length_cons]
      omega
    · rintro ⟨⟨first, hhead, hfirst⟩, hchars, hlength⟩
      obtain rfl : c = first := Option.some.inj hhead
      rw [List.length_cons] at hlength
      exact ⟨⟨⟨hfirst, (List.forall_mem_cons.mp hchars).2⟩, by omega⟩, by omega⟩

theorem toNat_of_isLetter {c : Char} (h : IsLetter c) : 0x41 ≤ c.toNat ∧ c.toNat ≤ 0x7a := by
  simp only [IsLetter, Char.le_def, UInt32.le_iff_toNat_le] at h
  change (0x41 ≤ c.toNat ∧ c.toNat ≤ 0x5a) ∨ (0x61 ≤ c.toNat ∧ c.toNat ≤ 0x7a) at h
  omega

theorem isDigit_of_isLetter {c : Char} (h : IsLetter c) : Text.isDigit c = false := by
  obtain ⟨hmin, hmax⟩ := toNat_of_isLetter h
  rw [Text.isDigit, Text.digitValue?, if_pos (by omega), if_neg]
  · rfl
  · rintro ⟨-, hnine⟩
    have hle : c.toNat ≤ 0x39 := hnine
    omega

theorem isBlank_of_nameChar {c : Char} (h : IsLetter c ∨ ('0' ≤ c ∧ c ≤ '9') ∨ c = '_') :
    Text.isBlank c = false := by
  have hrange : 0x30 ≤ c.toNat ∧ c.toNat ≤ 0x7a := by
    rcases h with h | ⟨hzero, hnine⟩ | rfl
    · have hletter := toNat_of_isLetter h
      omega
    · have hmin : 0x30 ≤ c.toNat := hzero
      have hmax : c.toNat ≤ 0x39 := hnine
      omega
    · decide
  exact Text.isBlank_eq_false hrange.1 hrange.2 (by decide)

theorem IsChatName.isSolid {cs : List Char} (h : IsChatName cs) : Text.IsSolid cs :=
  fun c hc => isBlank_of_nameChar (h.chars c hc)

/-! ## Numerals -/

theorem isNumeric_negative (cs : List Char) :
    isNumeric ('-' :: cs) = (!cs.isEmpty && cs.all Text.isDigit) := rfl

theorem isNumeric_plain {cs : List Char} (h : ∀ rest, cs ≠ '-' :: rest) :
    isNumeric cs = (!cs.isEmpty && cs.all Text.isDigit) := by
  rw [isNumeric]
  exact h

theorem areDigits_iff {cs : List Char} :
    (!cs.isEmpty && cs.all Text.isDigit) = true ↔ cs ≠ [] ∧ ∃ values, Number.AreDigits cs values := by
  rw [Bool.and_eq_true, List.all_eq_true]
  refine and_congr (by simp) ⟨Number.exists_areDigits, ?_⟩
  rintro ⟨values, hvalues⟩
  exact hvalues.isDigit

theorem isNumeric_iff {cs : List Char} : isNumeric cs = true ↔ ∃ n, Number.Denotes cs n := by
  constructor
  · intro h
    by_cases hsign : ∃ rest, cs = '-' :: rest
    · obtain ⟨rest, rfl⟩ := hsign
      obtain ⟨hne, values, hvalues⟩ := areDigits_iff.mp (isNumeric_negative rest ▸ h)
      exact ⟨_, .negative hne hvalues⟩
    · obtain ⟨hne, values, hvalues⟩ := areDigits_iff.mp (isNumeric_plain (not_exists.mp hsign) ▸ h)
      exact ⟨_, .plain hne hvalues⟩
  · rintro ⟨_, hdenotes⟩
    cases hdenotes with
    | negative hne h => exact areDigits_iff.mpr ⟨hne, _, h⟩
    | plain hne h =>
      rw [isNumeric_plain]
      · exact areDigits_iff.mpr ⟨hne, _, h⟩
      · rintro rest rfl
        cases h.isDigit '-' List.mem_cons_self

theorem isSolid_of_denotes {cs : List Char} {n : Int} (h : Number.Denotes cs n) : Text.IsSolid cs := by
  intro c hc
  rcases h.mem hc with rfl | hdigit
  · rfl
  · exact Number.isBlank_of_isDigit hdigit

/-- A name is no numeral, with or without an at sign. -/
theorem isNumeric_of_name {cs : List Char} (h : IsChatName (dropAt cs)) : isNumeric cs = false := by
  rw [← Bool.not_eq_true, isNumeric_iff]
  rintro ⟨n, hdenotes⟩
  obtain ⟨c, hhead, hletter⟩ := h.first
  have hc := isDigit_of_isLetter hletter
  cases hdenotes with
  | negative hne _ =>
    obtain rfl : '-' = c := Option.some.inj hhead
    have hmin := (toNat_of_isLetter hletter).1
    revert hmin
    decide
  | plain hne hdigits =>
    obtain ⟨d, cs, rfl⟩ := List.exists_cons_of_ne_nil hne
    have hd := hdigits.isDigit d List.mem_cons_self
    rw [dropAt] at hhead
    · obtain rfl : d = c := Option.some.inj hhead
      rw [hc] at hd
      cases hd
    · rintro rest ⟨⟩
      cases hd

/-! ## Recipients -/

variable {s : String}

theorem resolve_of_denotes {n : Int} (h : Number.Denotes (Text.strip s).toList n) :
    resolve (.text s) =
      if Number.digitLimit < (Text.strip s).toList.countP Text.isDigit then
        .error (.integerTooLong ((Text.strip s).toList.countP Text.isDigit))
      else .ok (.number n) := by
  have hnumeric : isNumeric (Text.strip s).toList = true := isNumeric_iff.mpr ⟨n, h⟩
  simp only [resolve, Value.display, hnumeric, if_true, readInteger, Number.readInt_of_denotes h]
  by_cases hlimit : Number.digitLimit < (Text.strip s).toList.countP Text.isDigit
  · rw [if_pos hlimit, if_pos hlimit]
    rfl
  · rw [if_neg hlimit, if_neg hlimit]
    rfl

theorem resolve_of_not_numeric (h : isNumeric (Text.strip s).toList = false) :
    resolve (.text s) =
      if isName (dropAt (Text.strip s).toList) then
        .ok (.name (String.ofList (dropAt (Text.strip s).toList)))
      else .error (.invalidPayload ("invalid recipient: " ++ (Value.text s).quoted)) := by
  simp only [resolve, Value.display, h, Bool.false_eq_true, if_false]
  rfl

theorem resolve_of_name (h : IsChatName (dropAt (Text.strip s).toList)) :
    resolve (.text s) = .ok (.name (String.ofList (dropAt (Text.strip s).toList))) := by
  rw [resolve_of_not_numeric (isNumeric_of_name h), if_pos (isName_iff.mpr h)]

/-- A recipient stands for a number if it is a numeral for it that has not too many digits. -/
theorem resolve_eq_number_iff {n : Int} :
    resolve (.text s) = .ok (.number n) ↔
      Number.Denotes (Text.strip s).toList n ∧
        (Text.strip s).toList.countP Text.isDigit ≤ Number.digitLimit := by
  constructor
  · intro h
    cases hnumeric : isNumeric (Text.strip s).toList with
    | false =>
      rw [resolve_of_not_numeric hnumeric] at h
      split at h <;> cases h
    | true =>
      obtain ⟨m, hm⟩ := isNumeric_iff.mp hnumeric
      rw [resolve_of_denotes hm] at h
      split at h
      · cases h
      · rename_i hlimit
        cases h
        exact ⟨hm, Nat.le_of_not_lt hlimit⟩
  · rintro ⟨hdenotes, hlimit⟩
    rw [resolve_of_denotes hdenotes, if_neg (Nat.not_lt.mpr hlimit)]

/-- It stands for a name if it is this name, with or without an at sign. -/
theorem resolve_eq_name_iff {a : String} :
    resolve (.text s) = .ok (.name a) ↔
      IsChatName a.toList ∧ dropAt (Text.strip s).toList = a.toList := by
  constructor
  · intro h
    cases hnumeric : isNumeric (Text.strip s).toList with
    | false =>
      rw [resolve_of_not_numeric hnumeric] at h
      split at h
      · rename_i hname
        obtain rfl := name.inj (Except.ok.inj h)
        rw [String.toList_ofList]
        exact ⟨isName_iff.mp hname, rfl⟩
      · cases h
    | true =>
      obtain ⟨m, hm⟩ := isNumeric_iff.mp hnumeric
      rw [resolve_of_denotes hm] at h
      split at h <;> cases h
  · rintro ⟨hname, hbare⟩
    rw [← hbare] at hname
    rw [resolve_of_name hname, hbare, String.ofList_toList]

/-- What a recipient stands for is written as a recipient that stands for the same. -/
theorem resolve_text {c : ChatId} (h : resolve (.text s) = .ok c) : resolve (.text c.text) = .ok c := by
  cases c with
  | number n =>
    obtain ⟨hdenotes, hlimit⟩ := resolve_eq_number_iff.mp h
    have hwritten := Number.denotes_toString n
    rw [text, resolve_eq_number_iff, Text.strip_of_isSolid (isSolid_of_denotes hwritten),
      Number.countP_isDigit_toString]
    exact ⟨hwritten, hdenotes.length_le.trans hlimit⟩
  | name a =>
    obtain ⟨hname, -⟩ := resolve_eq_name_iff.mp h
    have hchars : ("@" ++ a).toList = '@' :: a.toList := String.toList_append
    have hsolid : Text.IsSolid ("@" ++ a).toList := by
      rw [hchars]
      exact List.forall_mem_cons.mpr ⟨rfl, hname.isSolid⟩
    rw [text, resolve_eq_name_iff, Text.strip_of_isSolid hsolid, hchars]
    exact ⟨hname, rfl⟩

/-- What a recipient that is accepted stands for is a number, or an at sign and a name; and its text is a
recipient that stands for it, too. Two of them stand for one number exactly if they are numerals for the
same number, and for one name exactly if they are the same name but for an at sign. -/
theorem recipients_have_one_identity (s t : String) (c d : ChatId)
    (hs : resolve (.text s) = .ok c) (ht : resolve (.text t) = .ok d) :
    ((∃ n, c = .number n) ∨ ∃ a, IsChatName a.toList ∧ c = .name a ∧ c.text = "@" ++ a) ∧
      resolve (.text c.text) = .ok c ∧
      ((∃ n, c = .number n ∧ d = .number n) ↔
        ∃ n, Number.Denotes (Text.strip s).toList n ∧ Number.Denotes (Text.strip t).toList n) ∧
      ((∃ a, c = .name a ∧ d = .name a) ↔
        IsChatName (dropAt (Text.strip s).toList) ∧
          dropAt (Text.strip s).toList = dropAt (Text.strip t).toList) := by
  refine ⟨?_, resolve_text hs, ⟨?_, ?_⟩, ?_, ?_⟩
  · cases c with
    | number n => exact .inl ⟨n, rfl⟩
    | name a => exact .inr ⟨a, (resolve_eq_name_iff.mp hs).1, rfl, rfl⟩
  · rintro ⟨n, rfl, rfl⟩
    exact ⟨n, (resolve_eq_number_iff.mp hs).1, (resolve_eq_number_iff.mp ht).1⟩
  · rintro ⟨n, hdenotes, hdenotes'⟩
    rw [resolve_of_denotes hdenotes] at hs
    rw [resolve_of_denotes hdenotes'] at ht
    split at hs
    · cases hs
    · split at ht
      · cases ht
      · cases hs
        cases ht
        exact ⟨n, rfl, rfl⟩
  · rintro ⟨a, rfl, rfl⟩
    obtain ⟨hname, hbare⟩ := resolve_eq_name_iff.mp hs
    rw [hbare, (resolve_eq_name_iff.mp ht).2]
    exact ⟨hname, rfl⟩
  · rintro ⟨hname, hbare⟩
    rw [resolve_of_name hname, hbare] at hs
    rw [hbare] at hname
    rw [resolve_of_name hname] at ht
    exact ⟨_, (Except.ok.inj hs).symm, (Except.ok.inj ht).symm⟩

/-- Digits of another script with zeros in front, and a name with an at sign. -/
theorem recipients_have_one_identity_spellings :
    resolve (.text " -٠٠٤٢\u00a0") = .ok (.number (-42)) ∧
      resolve (.text "-42") = .ok (.number (-42)) ∧
      (∃ n, Number.Denotes (Text.strip " -٠٠٤٢\u00a0").toList n ∧
        Number.Denotes (Text.strip "-42").toList n) ∧
      resolve (.text "@Cat_channel ") = .ok (.name "Cat_channel") ∧
      resolve (.text "Cat_channel") = .ok (.name "Cat_channel") ∧
      resolve (.text (ChatId.text (.name "Cat_channel"))) = .ok (.name "Cat_channel") := by
  have harabic : resolve (.text " -٠٠٤٢\u00a0") = .ok (.number (-42)) := by rfl
  have hlatin : resolve (.text "-42") = .ok (.number (-42)) := by rfl
  have hat : resolve (.text "@Cat_channel ") = .ok (.name "Cat_channel") := by rfl
  have hbare : resolve (.text "Cat_channel") = .ok (.name "Cat_channel") := by rfl
  obtain ⟨-, -, hnumbers, -⟩ := recipients_have_one_identity _ _ _ _ harabic hlatin
  obtain ⟨-, hwritten, -, -⟩ := recipients_have_one_identity _ _ _ _ hat hbare
  exact ⟨harabic, hlatin, hnumbers.mp ⟨-42, rfl, rfl⟩, hat, hbare, hwritten⟩

end Courier.Message.ChatId
