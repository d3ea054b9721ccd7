import Courier.Proofs.Redaction.Patterns
import Courier.Proofs.Text.Words
import Mathlib.Data.List.Infix
import Mathlib.Data.List.TakeWhile

/-!
# Secrets in texts

The token of a bot in an address, and the value behind the name of a secret, are patterns. A text is masked
by the one and then by the other. Afterwards no token is left, each value that can be found is a mask, and
masking the text once more changes nothing.
-/

namespace Courier.Redaction

theorem takeWhile_ne_nil {q : Char → Bool} {cs : List Char} (h : cs.head?.any q = true) :
    cs.takeWhile q ≠ [] := by
  cases cs with
  | nil => cases h
  | cons c cs =>
    have hc : q c = true := h
    rw [List.takeWhile_cons_of_pos hc]
    exact List.cons_ne_nil _ _

/-! ## Names in whatever case -/

theorem exists_named_cons {a c : Char} {name cs rest : List Char} :
    (∃ part, c :: cs = part ++ rest ∧ part.map fold = a :: name) ↔
      fold c = a ∧ ∃ part, cs = part ++ rest ∧ part.map fold = name := by
  constructor
  · rintro ⟨part, hcs, hname⟩
    obtain ⟨d, part, rfl⟩ := List.exists_cons_of_ne_nil (l := part) (by rintro rfl; cases hname)
    obtain ⟨rfl, rfl⟩ := List.cons.inj hcs
    obtain ⟨hc, hname⟩ := List.cons.inj hname
    exact ⟨hc, part, rfl, hname⟩
  · rintro ⟨rfl, part, rfl, rfl⟩
    exact ⟨c :: part, rfl, rfl⟩

theorem dropName_eq_some {name cs rest : List Char} :
    dropName name cs = some rest ↔ ∃ part, cs = part ++ rest ∧ part.map fold = name := by
  induction name generalizing cs with
  | nil => simp [dropName, List.map_eq_nil_iff]
  | cons a name ih =>
    cases cs with
    | nil => simp [dropName]
    | cons c cs =>
      rw [dropName, exists_named_cons, ← ih]
      by_cases hc : fold c = a
      · rw [if_pos hc, and_iff_right hc]
      · rw [if_neg hc]
        exact ⟨fun h => absurd h (by simp), fun h => absurd h.1 hc⟩

section names
variable {names : List (List Char)} (hfree : ∀ n ∈ names, ∀ m ∈ names, n <+: m → n = m)
include hfree

/-- Two parts at the same place that are names are the same, if no name begins with another. -/
theorem named_unique {part part' rest rest' : List Char} (h : part ++ rest = part' ++ rest')
    (hpart : part.map fold ∈ names) (hpart' : part'.map fold ∈ names) : part = part' := by
  have hlength : part.length = part'.length := by
    rcases List.prefix_or_prefix_of_prefix (List.prefix_append part rest)
      (h ▸ List.prefix_append part' rest') with hle | hle
    · have heq := hfree _ hpart _ hpart' (hle.map fold)
      simpa using congrArg List.length heq
    · have heq := hfree _ hpart' _ hpart (hle.map fold)
      simpa using (congrArg List.length heq).symm
  exact (List.append_inj h hlength).1

theorem dropAnyName_eq_some {cs rest : List Char} :
    dropAnyName names cs = some rest ↔ ∃ part, cs = part ++ rest ∧ part.map fold ∈ names := by
  have hsound {rest : List Char} (h : dropAnyName names cs = some rest) :
      ∃ part, cs = part ++ rest ∧ part.map fold ∈ names := by
    obtain ⟨name, hname, h⟩ := List.exists_of_findSome?_eq_some h
    obtain ⟨part, hcs, rfl⟩ := dropName_eq_some.mp h
    exact ⟨part, hcs, hname⟩
  constructor
  · exact hsound
  · rintro ⟨part, hcs, hname⟩
    have hsome : (dropAnyName names cs).isSome := by
      apply List.findSome?_isSome_iff.mpr
      exact ⟨_, hname, by rw [dropName_eq_some.mpr ⟨part, hcs, rfl⟩]; rfl⟩
    obtain ⟨rest', hrest'⟩ := Option.isSome_iff_exists.mp hsome
    obtain ⟨part', hcs', hname'⟩ := hsound hrest'
    obtain rfl := named_unique hfree (hcs.symm.trans hcs') hname hname'
    rw [hrest', List.append_cancel_left (hcs.symm.trans hcs')]

end names

/-! ## Characters of names -/

/-- Characters other than blanks that stand around names and values. -/
def signs : List Char :=
  "&,:=<>".toList

theorem fold_of_isBlank {c : Char} (h : Text.isBlank c = true) : fold c = c := by
  have hne (d : Char) (hd : Text.isBlank d = false) : c ≠ d := by
    rintro rfl
    rw [h] at hd
    cases hd
  have hsmall : ¬ (c.val ≥ 'A'.val ∧ c.val ≤ 'Z'.val) := by
    rintro ⟨hlow, hhigh⟩
    have hlow : 65 ≤ c.toNat := UInt32.le_iff_toNat_le.mp hlow
    have hhigh : c.toNat ≤ 90 := UInt32.le_iff_toNat_le.mp hhigh
    simp only [Text.isBlank, Bool.or_eq_true, Bool.and_eq_true, decide_eq_true_eq, beq_iff_eq] at h
    omega
  have hlower : c.toLower = c := dif_neg hsmall
  rw [fold, if_neg (by simp [hne 'ı' rfl, hne 'İ' rfl]), if_neg (hne 'ſ' rfl),
    if_neg (hne '\u212A' rfl), hlower]

/-- A character whose small letter is a letter is no blank, and no sign. -/
theorem plain_of_fold {c : Char} (hblank : Text.isBlank (fold c) = false) (hsign : fold c ∉ signs) :
    Text.isBlank c = false ∧ c ∉ signs := by
  have hfixed : ∀ d ∈ signs, fold d = d := List.forall_iff_forall_mem.mp (by decide)
  constructor
  · cases hc : Text.isBlank c with
    | false => rfl
    | true =>
      rw [fold_of_isBlank hc, hc] at hblank
      cases hblank
  · intro hc
    rw [hfixed c hc] at hsign
    exact hsign hc

theorem plain_of_mem_address {lead : List Char} (h : lead.map fold = botAddress) {c : Char}
    (hc : c ∈ lead) : Text.isBlank c = false ∧ c ∉ signs := by
  have hletters : ∀ d ∈ botAddress, Text.isBlank d = false ∧ d ∉ signs :=
    List.forall_iff_forall_mem.mp (by decide)
  have hfold : fold c ∈ botAddress := h ▸ List.mem_map_of_mem hc
  exact plain_of_fold (hletters _ hfold).1 (hletters _ hfold).2

theorem plain_of_mem_name {name : List Char} (h : name.map fold ∈ secretNames) {c : Char}
    (hc : c ∈ name) : Text.isBlank c = false ∧ c ∉ signs := by
  have hletters : ∀ n ∈ secretNames, n.Forall fun d => Text.isBlank d = false ∧ d ∉ signs := by decide
  have hfold : fold c ∈ name.map fold := List.mem_map_of_mem hc
  obtain ⟨hblank, hsign⟩ := List.forall_iff_forall_mem.mp (hletters _ h) _ hfold
  exact plain_of_fold hblank hsign

theorem isValueChar_of_plain {c : Char} (h : Text.isBlank c = false ∧ c ∉ signs) :
    isValueChar c = true := by
  have hamp : c ≠ '&' := by
    rintro rfl
    exact h.2 (by decide)
  have hcomma : c ≠ ',' := by
    rintro rfl
    exact h.2 (by decide)
  simp [isValueChar, h.1, hamp, hcomma]

/-- How much of a text the searches pass over, and what they keep of it. -/
theorem found_eq (lead secret rest : List Char) :
    (lead ++ (secret ++ rest)).length - rest.length = (lead ++ secret).length ∧
      (lead ++ (secret ++ rest)).take ((lead ++ (secret ++ rest)).length - (secret ++ rest).length) =
        lead := by
  constructor
  · simp only [List.length_append]
    omega
  · rw [List.length_append, Nat.add_sub_cancel, List.take_left]

/-! ## Tokens of bots -/

/-- Digits, a colon and characters of a token. -/
def IsToken (cs : List Char) : Prop :=
  ∃ digits token, cs = digits ++ ':' :: token ∧ digits ≠ [] ∧
    (∀ c ∈ digits, Text.isDigit c = true) ∧ token ≠ [] ∧ ∀ c ∈ token, isTokenChar c = true

def botToken : Pattern where
  leads _ lead := lead.map fold = botAddress
  secret := IsToken
  more := isTokenChar

theorem botToken_regular : botToken.Regular where
  secret_ne_nil := by
    rintro _ ⟨digits, token, rfl, -⟩
    simp
  lead_head := by
    rintro before lead h
    change lead.map fold = 'a' :: "pi.telegram.org/bot".toList at h
    obtain ⟨c, tail, rfl⟩ := List.exists_cons_of_ne_nil (l := lead) (by rintro rfl; cases h)
    have hc : fold c = 'a' := (List.cons.inj h).1
    refine ⟨c, tail, rfl, ?_⟩
    change isTokenChar c = true
    rw [isTokenChar, hc]
    rfl

theorem dropToken_eq_some {cs rest : List Char} :
    dropToken cs = some rest ↔ ∃ token, cs = token ++ rest ∧ IsToken token ∧ botToken.Ends rest := by
  constructor
  · intro h
    rw [dropToken] at h
    split at h
    · rename_i after hafter
      split at h
      · rename_i hheads
        obtain rfl := Option.some.inj h
        obtain ⟨hdigit, htoken⟩ := Bool.and_eq_true_iff.mp hheads
        refine ⟨cs.takeWhile Text.isDigit ++ ':' :: after.takeWhile isTokenChar, ?_, ?_, ?_⟩
        · rw [List.append_assoc, List.cons_append, List.takeWhile_append_dropWhile, ← hafter,
            List.takeWhile_append_dropWhile]
        · exact ⟨_, _, rfl, takeWhile_ne_nil hdigit, fun c hc => List.mem_takeWhile_imp hc,
            takeWhile_ne_nil htoken, fun c hc => List.mem_takeWhile_imp hc⟩
        · exact fun c hc => Text.head?_dropWhile hc
      · cases h
    · cases h
  · rintro ⟨_, rfl, ⟨digits, token, rfl, hne, hdigits, hne', htoken⟩, hends⟩
    have hafter : (digits ++ ':' :: token ++ rest).dropWhile Text.isDigit = ':' :: (token ++ rest) := by
      rw [List.append_assoc]
      exact Text.dropWhile_run hdigits (by rintro c ⟨⟩; decide)
    have hrest : (token ++ rest).dropWhile isTokenChar = rest := Text.dropWhile_run htoken hends
    obtain ⟨d, digits, rfl⟩ := List.exists_cons_of_ne_nil hne
    obtain ⟨t, token, rfl⟩ := List.exists_cons_of_ne_nil hne'
    have hheads : ((d :: digits ++ ':' :: t :: token ++ rest).head?.any Text.isDigit &&
        (t :: token ++ rest).head?.any isTokenChar) = true := by
      simp [hdigits d List.mem_cons_self, htoken t List.mem_cons_self]
    rw [dropToken, hafter]
    exact (if_pos hheads).trans (congrArg some hrest)

theorem botToken_foundBy : botToken.FoundBy findBotToken := by
  intro before cs found
  simp only [findBotToken, Option.bind_eq_bind, Option.bind_eq_some_iff, Option.pure_def,
    Option.some.injEq, dropName_eq_some, dropToken_eq_some]
  constructor
  · rintro ⟨_, ⟨lead, rfl, hlead⟩, rest, ⟨token, rfl, htoken, hends⟩, rfl⟩
    obtain ⟨hmore, htake⟩ := found_eq lead token rest
    refine ⟨lead, token, rest, rfl, ⟨hlead, htoken, hends⟩, ?_⟩
    rw [hmore, htake]
  · rintro ⟨lead, token, rest, rfl, ⟨hlead, htoken, hends⟩, rfl⟩
    obtain ⟨hmore, htake⟩ := found_eq lead token rest
    refine ⟨token ++ rest, ⟨lead, rfl, hlead⟩, rest, ⟨token, rfl, htoken, hends⟩, ?_⟩
    rw [hmore, htake]

theorem IsToken.append {token run : List Char} (h : IsToken token)
    (hrun : ∀ c ∈ run, isTokenChar c = true) : IsToken (token ++ run) := by
  obtain ⟨digits, token, rfl, hne, hdigits, hne', htoken⟩ := h
  refine ⟨digits, token ++ run, by simp, hne, hdigits, by simp [hne'], ?_⟩
  exact List.forall_mem_append.mpr ⟨htoken, hrun⟩

theorem IsToken.not_mem {token : List Char} (h : IsToken token) {c : Char} (hc : c ∈ brackets) :
    c ∉ token := by
  have hnone : ∀ c ∈ brackets, Text.isDigit c = false ∧ c ≠ ':' ∧ isTokenChar c = false :=
    List.forall_iff_forall_mem.mp (by decide)
  obtain ⟨hdigit, hcolon, htoken⟩ := hnone c hc
  obtain ⟨digits, token, rfl, -, hdigits, -, htokens⟩ := h
  intro hmem
  rcases List.mem_append.mp hmem with hmem | hmem
  · rw [hdigits c hmem] at hdigit
    cases hdigit
  · rcases List.mem_cons.mp hmem with hmem | hmem
    · exact hcolon hmem
    · rw [htokens c hmem] at htoken
      cases htoken

theorem sign_of_bracket : ∀ c ∈ brackets, c ∈ signs :=
  List.forall_iff_forall_mem.mp (by decide)

theorem address_plain {lead token : List Char} (hlead : lead.map fold = botAddress)
    (htoken : IsToken token) : Plain (lead ++ token) := by
  intro c hc hmem
  rcases List.mem_append.mp hmem with hmem | hmem
  · exact (plain_of_mem_address hlead hmem).2 (sign_of_bracket c hc)
  · exact htoken.not_mem hc hmem

theorem address_length {lead : List Char} (h : lead.map fold = botAddress) : lead.length = 20 := by
  have hlength := congrArg List.length h
  rwa [List.length_map] at hlength

/-- Behind the address of a bot, no token is shown. -/
theorem no_token_shown {before : Option Char} {cs shown : List Char}
    (h : botToken.Masks before cs shown) {pre lead token rest : List Char}
    (hshown : shown = pre ++ (lead ++ (token ++ rest))) (hlead : lead.map fold = botAddress) :
    ¬ IsToken token := by
  intro htoken
  obtain ⟨c, tail, hhead, hc⟩ := botToken_regular.lead_head (show botToken.leads before lead from hlead)
  have hplain := address_plain hlead htoken
  have hlong := address_length hlead
  have hpos := List.length_pos_of_ne_nil (botToken_regular.secret_ne_nil htoken)
  rw [← List.append_assoc lead] at hshown
  cases h.origin botToken_regular hshown hplain ⟨c, tail ++ token, by rw [hhead]; rfl, hc⟩ with
  | @kept pre₀ v₀ hcs hnone hcontinues =>
    -- The token may go on in the text; all of it would have been found.
    apply hnone lead (token ++ v₀.takeWhile isTokenChar) (v₀.dropWhile isTokenChar)
    · rw [List.append_assoc, List.append_assoc, List.takeWhile_append_dropWhile]
    · exact ⟨hlead, htoken.append fun c hc => List.mem_takeWhile_imp hc,
        fun c hc => Text.head?_dropWhile hc⟩
  | @lead pre₀ l₁ l₂ secret rest v' b hcs hat hv hends =>
    have hlength := address_length hat.leads
    simp only [List.length_append] at hlength
    omega
  | masked hmasked =>
    have hlength : _ ≤ 10 := hmasked.length_le
    rw [List.length_append] at hlength
    omega

/-! ## Named secrets -/

/-- A colon or an equals sign, with blanks around it. -/
def IsSeparator (cs : List Char) : Prop :=
  ∃ blanks c blanks', cs = blanks ++ c :: blanks' ∧ (∀ d ∈ blanks, Text.isBlank d = true) ∧
    (c = ':' ∨ c = '=') ∧ ∀ d ∈ blanks', Text.isBlank d = true

def namedSecret : Pattern where
  leads before lead := ∃ name separator, lead = name ++ separator ∧
    Text.isBoundary before name.head? = true ∧ name.map fold ∈ secretNames ∧ IsSeparator separator
  secret value := value ≠ [] ∧ ∀ c ∈ value, isValueChar c = true
  more := isValueChar

theorem secretNames_free : ∀ n ∈ secretNames, ∀ m ∈ secretNames, n <+: m → n = m := by
  decide

theorem name_ne_nil {name : List Char} (h : name.map fold ∈ secretNames) : name ≠ [] := by
  have hne : ∀ n ∈ secretNames, n ≠ [] := by decide
  rintro rfl
  exact hne _ h rfl

theorem namedSecret_regular : namedSecret.Regular where
  secret_ne_nil h := h.1
  lead_head := by
    rintro before _ ⟨name, separator, rfl, -, hname, -⟩
    obtain ⟨c, tail, rfl⟩ := List.exists_cons_of_ne_nil (name_ne_nil hname)
    exact ⟨c, tail ++ separator, rfl,
      isValueChar_of_plain (plain_of_mem_name hname List.mem_cons_self)⟩

theorem not_isBlank_of_isValueChar {c : Char} (h : isValueChar c = true) : Text.isBlank c = false := by
  simp only [isValueChar, Bool.and_eq_true, Bool.not_eq_true'] at h
  exact h.1.1

theorem isBlank_sign {c : Char} (h : c = ':' ∨ c = '=') : Text.isBlank c = false := by
  rcases h with rfl | rfl
  · rfl
  · rfl

theorem dropSeparator_eq_some {cs value : List Char} :
    dropSeparator cs = some value ↔ ∃ separator, cs = separator ++ value ∧ IsSeparator separator ∧
      ∀ c ∈ value.head?, Text.isBlank c = false := by
  constructor
  · intro h
    rw [dropSeparator] at h
    split at h
    · rename_i c after hafter
      split at h
      · rename_i hc
        obtain rfl := Option.some.inj h
        refine ⟨cs.takeWhile Text.isBlank ++ c :: after.takeWhile Text.isBlank, ?_, ?_, ?_⟩
        · rw [List.append_assoc, List.cons_append, List.takeWhile_append_dropWhile, ← hafter,
            List.takeWhile_append_dropWhile]
        · exact ⟨_, c, _, rfl, fun d hd => List.mem_takeWhile_imp hd, hc,
            fun d hd => List.mem_takeWhile_imp hd⟩
        · exact fun d hd => Text.head?_dropWhile hd
      · cases h
    · cases h
  · rintro ⟨_, rfl, ⟨blanks, c, blanks', rfl, hblanks, hc, hblanks'⟩, hhead⟩
    have hafter : (blanks ++ c :: blanks' ++ value).dropWhile Text.isBlank =
        c :: (blanks' ++ value) := by
      rw [List.append_assoc]
      exact Text.dropWhile_run hblanks (by rintro d ⟨⟩; exact isBlank_sign hc)
    rw [dropSeparator, hafter]
    dsimp only
    rw [if_pos hc, Text.dropWhile_run hblanks' hhead]

theorem findSecret_eq_some {before : Option Char} {cs : List Char} {found : Text.Found} :
    findSecret before cs = some found ↔ Text.isBoundary before cs.head? = true ∧
      ∃ named, dropAnyName secretNames cs = some named ∧ ∃ value, dropSeparator named = some value ∧
        value.head?.any isValueChar = true ∧
        ⟨cs.length - (value.dropWhile isValueChar).length - 1,
          cs.take (cs.length - value.length) ++ mask⟩ = found := by
  simp only [findSecret, Option.bind_eq_bind]
  split
  · simp only [*, true_and, Option.bind_eq_some_iff]
    simp
  · simp [*]

theorem namedSecret_foundBy : namedSecret.FoundBy findSecret := by
  intro before cs found
  rw [findSecret_eq_some]
  constructor
  · rintro ⟨hboundary, named, hnamed, value, hvalue, hhead, rfl⟩
    obtain ⟨name, rfl, hname⟩ := (dropAnyName_eq_some secretNames_free).mp hnamed
    obtain ⟨separator, rfl, hseparator, -⟩ := dropSeparator_eq_some.mp hvalue
    rw [List.head?_append_of_ne_nil _ (name_ne_nil hname)] at hboundary
    have hvalue : value = value.takeWhile isValueChar ++ value.dropWhile isValueChar :=
      List.takeWhile_append_dropWhile.symm
    refine ⟨name ++ separator, value.takeWhile isValueChar, value.dropWhile isValueChar, ?_, ?_, ?_⟩
    · rw [← hvalue, List.append_assoc]
    · exact ⟨⟨name, separator, rfl, hboundary, hname, hseparator⟩,
        ⟨takeWhile_ne_nil hhead, fun c hc => List.mem_takeWhile_imp hc⟩,
        fun c hc => Text.head?_dropWhile hc⟩
    · obtain ⟨hmore, htake⟩ := found_eq (name ++ separator) (value.takeWhile isValueChar)
        (value.dropWhile isValueChar)
      rw [← hvalue, List.append_assoc name] at hmore htake
      rw [hmore, htake]
  · rintro ⟨_, value, rest, rfl, ⟨⟨name, separator, rfl, hboundary, hname, hseparator⟩,
      ⟨hne, hvalue⟩, hends⟩, rfl⟩
    obtain ⟨c, tail, rfl⟩ := List.exists_cons_of_ne_nil hne
    obtain ⟨hmore, htake⟩ := found_eq (name ++ separator) (c :: tail) rest
    have hrest : (c :: tail ++ rest).dropWhile isValueChar = rest := Text.dropWhile_run hvalue hends
    have hc : isValueChar c = true := hvalue c List.mem_cons_self
    refine ⟨?_, separator ++ (c :: tail ++ rest), ?_, c :: tail ++ rest, ?_, hc, ?_⟩
    · rwa [List.append_assoc, List.head?_append_of_ne_nil _ (name_ne_nil hname)]
    · exact (dropAnyName_eq_some secretNames_free).mpr ⟨name, by rw [List.append_assoc], hname⟩
    · refine dropSeparator_eq_some.mpr ⟨separator, rfl, hseparator, ?_⟩
      rintro d ⟨⟩
      exact not_isBlank_of_isValueChar hc
    · rw [hrest, hmore, htake]

/-! ## What is shown behind names -/

theorem IsSeparator.mem {separator : List Char} (h : IsSeparator separator) {c : Char}
    (hc : c ∈ separator) : Text.isBlank c = true ∨ c = ':' ∨ c = '=' := by
  obtain ⟨blanks, d, blanks', rfl, hblanks, hd, hblanks'⟩ := h
  rcases List.mem_append.mp hc with hc | hc
  · exact .inl (hblanks c hc)
  · rcases List.mem_cons.mp hc with rfl | hc
    · exact .inr hd
    · exact .inl (hblanks' c hc)

theorem IsSeparator.countP {separator : List Char} (h : IsSeparator separator) :
    separator.countP (!Text.isBlank ·) = 1 := by
  obtain ⟨blanks, d, blanks', rfl, hblanks, hd, hblanks'⟩ := h
  have hnone {cs : List Char} (hcs : ∀ c ∈ cs, Text.isBlank c = true) :
      cs.countP (!Text.isBlank ·) = 0 := by
    rw [List.countP_eq_zero]
    intro c hc
    simp [hcs c hc]
  rw [List.countP_append, hnone hblanks, List.countP_cons_of_pos (by simp [isBlank_sign hd]),
    hnone hblanks']

/-- What is left of a separator behind a separator is blank. -/
theorem IsSeparator.rest_blank {separator rest : List Char} (h : IsSeparator separator)
    (hall : IsSeparator (separator ++ rest)) : ∀ c ∈ rest, Text.isBlank c = true := by
  have hcount := hall.countP
  rw [List.countP_append, h.countP] at hcount
  have hzero : rest.countP (!Text.isBlank ·) = 0 := by omega
  intro c hc
  have hnot := List.countP_eq_zero.mp hzero c hc
  simpa using hnot

theorem lead_plain {before : Option Char} {lead : List Char} (h : namedSecret.leads before lead) :
    Plain lead := by
  have hnone : ∀ c ∈ brackets, ¬ (Text.isBlank c = true ∨ c = ':' ∨ c = '=') :=
    List.forall_iff_forall_mem.mp (by decide)
  obtain ⟨name, separator, rfl, -, hname, hseparator⟩ := h
  intro c hc hmem
  rcases List.mem_append.mp hmem with hmem | hmem
  · exact (plain_of_mem_name hname hmem).2 (sign_of_bracket c hc)
  · exact hnone c hc (hseparator.mem hmem)

/-- No name of a secret stands in another one. -/
theorem name_eq_of_infix {name name' : List Char} (hname : name.map fold ∈ secretNames)
    (hname' : name'.map fold ∈ secretNames) (h : name <:+: name') : name = name' := by
  have hfree : ∀ n ∈ secretNames, ∀ m ∈ secretNames, n <:+: m → n = m := by decide
  have heq := congrArg List.length (hfree _ hname _ hname' (h.map fold))
  rw [List.length_map, List.length_map] at heq
  exact h.eq_of_length heq

/-- What leads to a secret, and stands in what leads to one, is all of it but blanks. -/
theorem lead_within {b b' : Option Char} {l₁ lead l₂ : List Char} (h : namedSecret.leads b lead)
    (h' : namedSecret.leads b' (l₁ ++ (lead ++ l₂))) : ∀ c ∈ l₂, Text.isBlank c = true := by
  obtain ⟨name, separator, rfl, -, hname, hseparator⟩ := h
  obtain ⟨name', separator', hlead, -, hname', hseparator'⟩ := h'
  have hsplit : (l₁ ++ name) ++ (separator ++ l₂) = name' ++ separator' := by
    rw [← hlead]
    simp
  -- The name ends in the other name: its characters are none of a separator.
  obtain ⟨rest, hrest, hseparators⟩ : ∃ rest, name' = (l₁ ++ name) ++ rest ∧
      separator ++ l₂ = rest ++ separator' := by
    rcases List.append_eq_append_iff.mp hsplit with h | ⟨as, has, hsep⟩
    · exact h
    · rcases List.eq_nil_or_concat as with rfl | ⟨as, c, rfl⟩
      · exact ⟨[], by simpa using has.symm, by simpa using hsep.symm⟩
      · obtain ⟨name, d, rfl⟩ := List.eq_nil_or_concat name |>.resolve_left (name_ne_nil hname)
        rw [List.concat_eq_append, List.concat_eq_append, ← List.append_assoc,
          ← List.append_assoc] at has
        obtain rfl : d = c := (List.cons.inj (List.append_inj' has rfl).2).1
        have hplain := plain_of_mem_name hname (c := d) (by simp)
        rcases hseparator'.mem (c := d) (by simp [hsep]) with hblank | rfl | rfl
        · rw [hplain.1] at hblank
          cases hblank
        · exact absurd (by decide) hplain.2
        · exact absurd (by decide) hplain.2
  have heq : name = name' := name_eq_of_infix hname hname' ⟨l₁, rest, hrest.symm⟩
  have hnil : rest = [] := by
    have hlength := congrArg List.length hrest
    rw [heq, List.length_append, List.length_append] at hlength
    exact List.length_eq_zero_iff.mp (by omega)
  rw [hnil, List.nil_append] at hseparators
  exact hseparator.rest_blank (hseparators ▸ hseparator')

/-- The value that begins with a mask is the mask, if nothing goes on with it. -/
theorem eq_mask {value rest v : List Char} (h : value ++ rest = mask ++ v)
    (hvalue : ∀ c ∈ value, isValueChar c = true) (hrest : namedSecret.Ends rest)
    (hv : namedSecret.Ends v) : value = mask := by
  have hmask : ∀ c ∈ mask, isValueChar c = true := List.forall_iff_forall_mem.mp (by decide)
  have heq : rest = v := by
    have hdrop := Text.dropWhile_run hvalue hrest
    rw [h, Text.dropWhile_run hmask hv] at hdrop
    exact hdrop.symm
  rw [heq] at h
  exact List.append_cancel_right h

/-- Behind the name of a secret, only a mask is shown. -/
theorem only_mask_shown {before : Option Char} {cs shown : List Char}
    (h : namedSecret.Masks before cs shown) {pre lead value rest : List Char}
    (hshown : shown = pre ++ (lead ++ (value ++ rest)))
    (hat : namedSecret.At (behind before pre) lead value rest) : value = mask := by
  obtain ⟨hne, hvalue⟩ := hat.secret
  obtain ⟨c, tail, rfl⟩ := List.exists_cons_of_ne_nil hne
  have hc : isValueChar c = true := hvalue c List.mem_cons_self
  cases h.origin namedSecret_regular hshown (lead_plain hat.leads)
    (namedSecret_regular.lead_head hat.leads) with
  | @kept pre₀ v₀ hcs hnone hcontinues =>
    rcases hcontinues with hhead | ⟨v', hv', hends⟩
    · -- The text has a value there, too, which would have been found.
      have hvalue₀ : v₀.head?.any isValueChar = true := by
        rw [← hhead]
        exact hc
      exfalso
      apply hnone lead (v₀.takeWhile isValueChar) (v₀.dropWhile isValueChar)
      · rw [List.takeWhile_append_dropWhile]
      · exact ⟨hat.leads, ⟨takeWhile_ne_nil hvalue₀, fun d hd => List.mem_takeWhile_imp hd⟩,
          fun d hd => Text.head?_dropWhile hd⟩
    · exact eq_mask hv' hvalue hat.ends hends
  | @lead pre₀ l₁ l₂ secret rest v' b hcs hat' hv hends =>
    have hblank := lead_within hat.leads hat'.leads
    cases l₂ with
    | nil => exact eq_mask hv hvalue hat.ends hends
    | cons d l₂ =>
      obtain ⟨rfl, -⟩ := List.cons.inj hv
      have hfalse := hblank c List.mem_cons_self
      rw [not_isBlank_of_isValueChar hc] at hfalse
      cases hfalse
  | masked hmasked =>
    have hnames : ∀ n ∈ secretNames, ¬ n <:+: mask := by decide
    have hfold : mask.map fold = mask := by decide
    obtain ⟨name, separator, rfl, -, hname, -⟩ := hat.leads
    have hinfix := ((List.prefix_append name separator).isInfix.trans hmasked).map fold
    rw [hfold] at hinfix
    exact absurd hinfix (hnames _ hname)

/-! ## Both patterns -/

theorem redactChars_masks (cs : List Char) :
    ∃ between, botToken.Masks none cs between ∧ namedSecret.Masks none between (redactChars cs) :=
  ⟨_, (Pattern.masks_iff botToken_foundBy botToken_regular).mpr rfl,
    (Pattern.masks_iff namedSecret_foundBy namedSecret_regular).mpr rfl⟩

theorem redactChars_eq {cs between shown : List Char} (h : botToken.Masks none cs between)
    (h' : namedSecret.Masks none between shown) : redactChars cs = shown := by
  rw [redactChars, Text.substitute, Text.substitute,
    (Pattern.masks_iff botToken_foundBy botToken_regular).mp h,
    (Pattern.masks_iff namedSecret_foundBy namedSecret_regular).mp h']

theorem redactChars_no_token {cs pre lead token rest : List Char}
    (hshown : redactChars cs = pre ++ (lead ++ (token ++ rest))) (hlead : lead.map fold = botAddress) :
    ¬ IsToken token := by
  intro htoken
  obtain ⟨between, htokens, hsecrets⟩ := redactChars_masks cs
  obtain ⟨c, tail, rfl⟩ := List.exists_cons_of_ne_nil (l := lead) (by rintro rfl; cases hlead)
  have hc := isValueChar_of_plain (plain_of_mem_address hlead List.mem_cons_self)
  have hlong : mask.length < ((c :: tail) ++ token).length := by
    have hlength := address_length hlead
    rw [List.length_append, hlength]
    exact Nat.lt_add_right _ (by decide)
  have hpart : (c :: tail) ++ token <:+: redactChars cs := ⟨pre, rest, by rw [hshown]; simp⟩
  -- Masking the values leaves no token that was not shown before.
  obtain ⟨pre₀, rest₀, hbetween⟩ := hsecrets.part namedSecret_regular hpart
    (address_plain hlead htoken) ⟨c, tail ++ token, rfl, hc⟩ hlong
  have hshown₀ : between = pre₀ ++ ((c :: tail) ++ (token ++ rest₀)) := by
    rw [← hbetween]
    simp
  exact no_token_shown htokens hshown₀ hlead htoken

theorem redactChars_only_mask {cs pre lead value rest : List Char}
    (hshown : redactChars cs = pre ++ (lead ++ (value ++ rest)))
    (hat : namedSecret.At (behind none pre) lead value rest) : value = mask := by
  obtain ⟨between, -, hsecrets⟩ := redactChars_masks cs
  exact only_mask_shown hsecrets hshown hat

theorem redactChars_idempotent (cs : List Char) : redactChars (redactChars cs) = redactChars cs := by
  apply redactChars_eq
  · apply Pattern.masks_self botToken_regular
    intro pre lead token rest hshown hat
    exact absurd hat.secret (redactChars_no_token hshown hat.leads)
  · apply Pattern.masks_self namedSecret_regular
    intro pre lead value rest hshown hat
    exact redactChars_only_mask hshown hat

/-- In a text that was masked no token stands behind the address of a bot, and no value but a mask behind
the name of a secret, wherever one looks. All but the tokens and the values is kept as it was, and masking
the text again leaves it as it is. -/
theorem redactText_leaves_no_secret (text : String) :
    (∀ pre lead token rest, (redactText text).toList = pre ++ (lead ++ (token ++ rest)) →
        botToken.leads pre.getLast? lead → ¬ botToken.secret token) ∧
      (∀ pre lead value rest, (redactText text).toList = pre ++ (lead ++ (value ++ rest)) →
        namedSecret.At pre.getLast? lead value rest → value = "<redacted>".toList) ∧
      (∃ between, botToken.Masks none text.toList between ∧
        namedSecret.Masks none between (redactText text).toList) ∧
      redactText (redactText text) = redactText text := by
  have hchars : (redactText text).toList = redactChars text.toList := String.toList_ofList
  rw [hchars]
  refine ⟨?_, ?_, ?_, ?_⟩
  · intro pre lead token rest hshown hlead
    exact redactChars_no_token hshown hlead
  · intro pre lead value rest hshown hat
    rw [← Option.or_none (o := pre.getLast?)] at hat
    exact redactChars_only_mask hshown hat
  · exact redactChars_masks text.toList
  · rw [redactText, hchars, redactChars_idempotent, redactText]

example : redactText "GET https://api.telegram.org/bot12:ab/getFile?token=cd&file_id=3" =
    "GET https://api.telegram.org/bot<redacted>/getFile?token=<redacted>&file_id=3" := by rfl

end Courier.Redaction
