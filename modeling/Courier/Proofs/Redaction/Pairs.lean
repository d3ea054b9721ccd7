import Courier.Proofs.Redaction.Payloads

/-!
# Pairs of keys and values

The same key and value may be an entry of a payload, or stand in a text with an equals sign between them.
In a payload the value is hidden if the name of a secret is anywhere in the key; in a text it is hidden if
the key ends with such a name and the name begins the key or follows a hyphen. Both are said here, and
where they differ.
-/

namespace Courier.Redaction

/-- The characters of plain keys. -/
def keyChars : List Char :=
  "abcdefghijklmnopqrstuvwxyzABCDEFGHIJKLMNOPQRSTUVWXYZ0123456789_-".toList

def IsPlainKey (cs : List Char) : Prop :=
  ∀ c ∈ cs, c ∈ keyChars

/-- A value without blanks and signs that end it. -/
def IsPlainValue (cs : List Char) : Prop :=
  cs ≠ [] ∧ ∀ c ∈ cs, Text.isBlank c = false ∧ c ≠ '&' ∧ c ≠ ','

/-- The key ends with the name of a secret, at the beginning of a word. -/
def EndsInSecret (cs : List Char) : Prop :=
  ∃ pre name, cs = pre ++ name ∧ name.map fold ∈ secretNames ∧ ∀ c ∈ pre.getLast?, c = '-'

/-! ## Characters of keys -/

theorem keyChar_plain : ∀ c ∈ keyChars, Text.isBlank c = false ∧ c ∉ signs ∧ fold c ≠ '.' :=
  List.forall_iff_forall_mem.mp (by decide)

theorem keyChar_isWord : ∀ c ∈ keyChars, Text.isWord c = true ↔ c ≠ '-' :=
  List.forall_iff_forall_mem.mp (by decide)

theorem keyChar_not_separator {c : Char} (h : c ∈ keyChars) :
    ¬ (Text.isBlank c = true ∨ c = ':' ∨ c = '=') := by
  obtain ⟨hblank, hsign, -⟩ := keyChar_plain c h
  rintro (hc | rfl | rfl)
  · rw [hblank] at hc
    cases hc
  · exact hsign (by decide)
  · exact hsign (by decide)

theorem isValueChar_iff {c : Char} :
    isValueChar c = true ↔ Text.isBlank c = false ∧ c ≠ '&' ∧ c ≠ ',' := by
  simp [isValueChar, and_assoc]

/-- Names of secrets begin with letters, so a word begins there if none goes on. -/
theorem isBoundary_iff {pre name : List Char} (hpre : IsPlainKey pre) (hplain : IsPlainKey name)
    (hname : name.map fold ∈ secretNames) :
    Text.isBoundary (behind none pre) name.head? = true ↔ ∀ c ∈ pre.getLast?, c = '-' := by
  have hletters : ∀ n ∈ secretNames, n.head? ≠ some '-' := by decide
  obtain ⟨c, tail, rfl⟩ := List.exists_cons_of_ne_nil (name_ne_nil hname)
  have hc : Text.isWord c = true := by
    rw [keyChar_isWord c (hplain c List.mem_cons_self)]
    rintro rfl
    exact hletters _ hname rfl
  rw [behind, Option.or_none, Text.isBoundary, List.head?_cons, Option.any_some, hc]
  cases hlast : pre.getLast? with
  | none => simp
  | some d =>
    have hd := keyChar_isWord d (hpre d (List.mem_of_getLast? hlast))
    by_cases hhyphen : d = '-'
    · simp [hhyphen, Text.isWord]
    · simp [hd.mpr hhyphen, hhyphen]

/-! ## Where patterns are found -/

/-- No address of a bot begins in a key. -/
theorem no_address_in_key {ks : List Char} (hks : IsPlainKey ks) (before : Option Char)
    (ws : List Char) : botToken.Nowhere before (ks ++ '=' :: ws) := by
  intro lead secret rest hcs hat
  have hlead : lead.map fold = botAddress := hat.leads
  have hne : '=' ∉ lead := fun hmem => (plain_of_mem_address hlead hmem).2 (by decide)
  obtain ⟨between, rfl, -⟩ := Pattern.prefix_of_append_cons hne hcs
  have hdot : '.' ∈ lead.map fold := hlead ▸ (by decide)
  obtain ⟨c, hc, hfold⟩ := List.mem_map.mp hdot
  exact (keyChar_plain c (hks c (List.mem_append_left _ hc))).2.2 hfold

/-- What leads to a secret from inside a key is all the rest of the key. -/
theorem name_of_leads {ks ws lead rest : List Char} (hks : IsPlainKey ks) {before : Option Char}
    (hleads : namedSecret.leads before lead) (h : ks ++ '=' :: ws = lead ++ rest) :
    ks.map fold ∈ secretNames ∧ Text.isBoundary before ks.head? = true := by
  obtain ⟨name, separator, rfl, hboundary, hname, hseparator⟩ := hleads
  have hne : '=' ∉ name := fun hmem => (plain_of_mem_name hname hmem).2 (by decide)
  rw [List.append_assoc] at h
  obtain ⟨between, rfl, hrest⟩ := Pattern.prefix_of_append_cons hne h
  have hnil : between = [] := by
    cases between with
    | nil => rfl
    | cons c between =>
      obtain ⟨d, separator', rfl⟩ : ∃ d separator', separator = d :: separator' := by
        obtain ⟨blanks, e, blanks', rfl, -⟩ := hseparator
        exact List.exists_cons_of_ne_nil (by simp)
      obtain ⟨rfl, -⟩ := List.cons.inj hrest
      exact absurd (hseparator.mem List.mem_cons_self) (keyChar_not_separator (hks d (by simp)))
  rw [hnil, List.append_nil]
  exact ⟨hname, hboundary⟩

theorem namedSecret_leads_equals (lead : List Char) :
    namedSecret.leads (some '=') lead ↔ namedSecret.leads none lead := by
  have hboundary (after : Option Char) :
      Text.isBoundary (some '=') after = Text.isBoundary none after := rfl
  simp only [namedSecret, hboundary]

/-! ## Both patterns along a pair -/

theorem IsPlainKey.suffix {pre post : List Char} (h : IsPlainKey (pre ++ post)) : IsPlainKey post :=
  (List.forall_mem_append.mp h).2

section pair
variable {ks : List Char} (hks : IsPlainKey ks)
include hks

theorem botToken_masks_pair {vs ws : List Char} (h : botToken.Masks none vs ws) :
    botToken.Masks none (ks ++ '=' :: vs) (ks ++ '=' :: ws) := by
  apply Pattern.Masks.keep_front
  · rintro pre c post rfl
    exact no_address_in_key hks.suffix _ vs
  · refine .keep (no_address_in_key (List.forall_mem_nil _) _ vs) ?_
    apply h.change_before botToken_regular
    intro lead
    rfl

/-- The value behind a key that ends with the name of a secret is a secret. -/
theorem namedSecret_masks_secret (hends : EndsInSecret ks) {ws : List Char} (hne : ws ≠ [])
    (hws : ∀ c ∈ ws, isValueChar c = true) :
    namedSecret.Masks none (ks ++ '=' :: ws) (ks ++ '=' :: mask) := by
  obtain ⟨pre, name, rfl, hname, hlast⟩ := hends
  have hhide : namedSecret.Masks (behind none pre) ((name ++ ['=']) ++ (ws ++ []))
      ((name ++ ['=']) ++ (mask ++ [])) := by
    refine .hide ⟨⟨name, ['='], rfl, ?_, hname, ?_⟩, ⟨hne, hws⟩, ?_⟩ .nil
    · exact (isBoundary_iff (List.forall_mem_append.mp hks).1 hks.suffix hname).mpr hlast
    · exact ⟨[], '=', [], rfl, List.forall_mem_nil _, .inr rfl, List.forall_mem_nil _⟩
    · rintro c ⟨⟩
  rw [List.append_nil, List.append_nil, List.append_assoc, List.append_assoc] at hhide
  rw [List.append_assoc, List.append_assoc]
  apply Pattern.Masks.keep_front _ hhide
  rintro pre' c post rfl lead secret rest hcs hat
  -- A name of a secret that began further in front would have this one in it.
  have hkey : IsPlainKey (c :: post ++ name) := by
    rw [List.append_assoc] at hks
    exact hks.suffix
  have hcs' : (c :: post ++ name) ++ '=' :: ws = lead ++ (secret ++ rest) := by
    rw [← hcs, List.append_assoc]
    rfl
  have hlonger := (name_of_leads hkey hat.leads hcs').1
  have heq := name_eq_of_infix hname hlonger (List.suffix_append _ _).isInfix
  have hlength := congrArg List.length heq
  rw [List.length_append, List.length_cons] at hlength
  omega

/-- Behind another key the value is masked as it is by itself. -/
theorem namedSecret_masks_value (hends : ¬ EndsInSecret ks) {ws us : List Char}
    (h : namedSecret.Masks none ws us) :
    namedSecret.Masks none (ks ++ '=' :: ws) (ks ++ '=' :: us) := by
  apply Pattern.Masks.keep_front
  · rintro pre c post rfl lead secret rest hcs hat
    obtain ⟨hname, hboundary⟩ := name_of_leads hks.suffix hat.leads hcs
    have hlast := (isBoundary_iff (List.forall_mem_append.mp hks).1 hks.suffix hname).mp hboundary
    exact hends ⟨pre, c :: post, rfl, hname, hlast⟩
  · refine .keep ?_ ?_
    · intro lead secret rest hcs hat
      have hname := (name_of_leads (List.forall_mem_nil _) hat.leads hcs).1
      exact name_ne_nil hname rfl
    · exact h.change_before namedSecret_regular namedSecret_leads_equals

theorem redactChars_pair_secret (hends : EndsInSecret ks) {vs : List Char} (hvs : IsPlainValue vs) :
    redactChars (ks ++ '=' :: vs) = ks ++ '=' :: mask := by
  obtain ⟨ws, htokens, -⟩ := redactChars_masks vs
  have hne : ws ≠ [] := by
    rintro rfl
    exact hvs.1 (List.head?_eq_none_iff.mp (htokens.head botToken_regular).symm)
  have hmask : ∀ c ∈ mask, isValueChar c = true := List.forall_iff_forall_mem.mp (by decide)
  have hws : ∀ c ∈ ws, isValueChar c = true :=
    htokens.forall_mem hmask fun c hc => isValueChar_iff.mpr (hvs.2 c hc)
  exact redactChars_eq (botToken_masks_pair hks htokens) (namedSecret_masks_secret hks hends hne hws)

theorem redactChars_pair (hends : ¬ EndsInSecret ks) (vs : List Char) :
    redactChars (ks ++ '=' :: vs) = ks ++ '=' :: redactChars vs := by
  obtain ⟨ws, htokens, hsecrets⟩ := redactChars_masks vs
  exact redactChars_eq (botToken_masks_pair hks htokens) (namedSecret_masks_value hks hends hsecrets)

end pair

/-- Only the mask is shown as the mask. -/
theorem redactChars_eq_mask_iff {cs : List Char} : redactChars cs = mask ↔ cs = mask := by
  have hsign : '<' ∈ brackets := by decide
  constructor
  · intro h
    obtain ⟨between, htokens, hsecrets⟩ := redactChars_masks cs
    rw [h] at hsecrets
    obtain rfl := hsecrets.eq_mask namedSecret_regular fun _ _ hlead => lead_plain hlead _ hsign
    refine htokens.eq_mask botToken_regular fun _ lead hlead hmem => ?_
    exact (plain_of_mem_address hlead hmem).2 (sign_of_bracket _ hsign)
  · rintro rfl
    rfl

/-! ## Texts and payloads -/

theorem EndsInSecret.namesSecret {key : String} (h : EndsInSecret key.toList) : NamesSecret key := by
  have hnames : ∀ n ∈ secretNames, n ∈ sensitiveNames := by decide
  obtain ⟨pre, name, hkey, hname, -⟩ := h
  exact ⟨name, hnames _ hname, hkey ▸ (List.suffix_append pre name).isInfix⟩

theorem redact_hides_iff (key : String) :
    (∀ v, redact (.object [(key, v)]) = .object [(key, maskText)]) ↔ NamesSecret key := by
  rw [← isSensitiveKey_iff]
  constructor
  · intro h
    have hnull := h .null
    by_contra hkey
    simp [redactEntries_eq, redactEntry, redact, hkey, maskText] at hnull
  · intro hkey v
    simp [redactEntries_eq, redactEntry, redact, hkey]

theorem toList_pair (key value : String) :
    (key ++ "=" ++ value).toList = key.toList ++ '=' :: value.toList := by
  simp

/-- A payload hides the value of a key that has the name of a secret anywhere in it. The pair written as a
text has its value masked if the key ends with one of five names that begins the key or follows a hyphen;
behind any other key, one that a payload hides or not, the value is shown as it is by itself. -/
theorem pair_is_masked_iff {key value : String} (hkey : IsPlainKey key.toList)
    (hvalue : IsPlainValue value.toList) :
    (redactText (key ++ "=" ++ value) = key ++ "=<redacted>" ↔
        EndsInSecret key.toList ∨ value = "<redacted>") ∧
      (¬ EndsInSecret key.toList →
        redactText (key ++ "=" ++ value) = key ++ "=" ++ redactText value) ∧
      ((∀ v, redact (.object [(key, v)]) = .object [(key, maskText)]) ↔ NamesSecret key) ∧
      (EndsInSecret key.toList → NamesSecret key) := by
  have hmasked : key ++ "=<redacted>" = String.ofList (key.toList ++ '=' :: mask) := by
    apply String.toList_injective
    rw [String.toList_ofList, String.toList_append]
    rfl
  have hshown (hends : ¬ EndsInSecret key.toList) :
      redactText (key ++ "=" ++ value) = key ++ "=" ++ redactText value := by
    apply String.toList_injective
    rw [redactText, String.toList_ofList, toList_pair, toList_pair, redactText,
      String.toList_ofList, redactChars_pair hkey hends]
  refine ⟨⟨?_, ?_⟩, hshown, redact_hides_iff key, EndsInSecret.namesSecret⟩
  · intro h
    by_cases hends : EndsInSecret key.toList
    · exact .inl hends
    · right
      rw [hshown hends] at h
      have hchars := congrArg String.toList h
      rw [toList_pair, redactText, String.toList_ofList, hmasked, String.toList_ofList] at hchars
      have hvalue := (List.cons.inj (List.append_cancel_left hchars)).2
      exact String.toList_injective (redactChars_eq_mask_iff.mp hvalue)
  · intro h
    rw [hmasked, redactText, toList_pair]
    rcases h with hends | rfl
    · rw [redactChars_pair_secret hkey hends hvalue]
    · by_cases hends : EndsInSecret key.toList
      · rw [redactChars_pair_secret hkey hends hvalue]
      · rw [redactChars_pair hkey hends]
        rfl

theorem pair_is_masked_iff_header :
    IsPlainKey "X-Api-Key".toList ∧ IsPlainValue "=bot1:token=ab<".toList ∧
      redactText ("X-Api-Key" ++ "=" ++ "=bot1:token=ab<") = "X-Api-Key" ++ "=<redacted>" := by
  have hkey : IsPlainKey "X-Api-Key".toList := List.forall_iff_forall_mem.mp (by decide)
  have hvalue : IsPlainValue "=bot1:token=ab<".toList :=
    ⟨by decide, List.forall_iff_forall_mem.mp (by decide)⟩
  have hends : EndsInSecret "X-Api-Key".toList :=
    ⟨"X-".toList, "Api-Key".toList, rfl, by decide, by rintro c ⟨⟩; rfl⟩
  exact ⟨hkey, hvalue, (pair_is_masked_iff hkey hvalue).1.mpr (.inl hends)⟩

/-- The name of the secret does not begin a word here, and so the text shows what the payload hides. -/
theorem access_token_is_shown :
    ¬ ∀ key value : String, IsPlainKey key.toList → IsPlainValue value.toList →
      (∀ v, redact (.object [(key, v)]) = .object [(key, maskText)]) →
      redactText (key ++ "=" ++ value) = key ++ "=<redacted>" := by
  intro h
  have hkey : IsPlainKey "access_token".toList := List.forall_iff_forall_mem.mp (by decide)
  have hvalue : IsPlainValue "abc123".toList :=
    ⟨by decide, List.forall_iff_forall_mem.mp (by decide)⟩
  have hshown : redactText ("access_token" ++ "=" ++ "abc123") = "access_token=abc123" := rfl
  have hmasked := h "access_token" "abc123" hkey hvalue fun _ => rfl
  rw [hshown] at hmasked
  exact absurd hmasked (by decide)

end Courier.Redaction
