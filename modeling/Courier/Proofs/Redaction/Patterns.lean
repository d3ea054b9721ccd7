import Courier.Redaction
import Mathlib.Data.List.Basic
import Mathlib.Data.Nat.Init

/-!
# Patterns of secrets

A pattern says what leads to a secret, what the secret is, and which characters go on with it. A text is
masked from left to right: where the pattern is found, what leads to the secret is kept and the secret is
replaced, and the search goes on behind it. `Masks` says so without an algorithm; the functions that search
a text for a pattern and replace what they find do the same. `Origin` tells where a part of the masked text
comes from.
-/

namespace Courier.Redaction

/-- What leads to a secret may depend on the character before it. -/
structure Pattern where
  leads : Option Char → List Char → Prop
  secret : List Char → Prop
  more : Char → Bool

/-- The last character of a text, or the one before it if the text is empty. -/
def behind (before : Option Char) (cs : List Char) : Option Char :=
  cs.getLast?.or before

theorem behind_cons (before : Option Char) (c : Char) (cs : List Char) :
    behind before (c :: cs) = behind (some c) cs := by
  rw [behind, behind, List.getLast?_cons]
  cases cs.getLast? <;> rfl

theorem behind_append (before : Option Char) (cs ds : List Char) :
    behind before (cs ++ ds) = behind (behind before cs) ds := by
  rw [behind, behind, behind, List.getLast?_append, Option.or_assoc]

theorem behind_of_ne_nil {cs : List Char} (h : cs ≠ []) (before before' : Option Char) :
    behind before cs = behind before' cs := by
  obtain ⟨c, rest, rfl⟩ := List.exists_cons_of_ne_nil h
  rw [behind_cons, behind_cons]

def brackets : List Char :=
  ['<', '>']

/-- The text has no angle brackets, which masks have at both ends. -/
def Plain (cs : List Char) : Prop :=
  ∀ c ∈ brackets, c ∉ cs

namespace Pattern

/-- A secret does not go on here. -/
def Ends (p : Pattern) (rest : List Char) : Prop :=
  ∀ c ∈ rest.head?, p.more c = false

/-- The pattern is found: a secret stands between `lead` and `rest`. -/
structure At (p : Pattern) (before : Option Char) (lead secret rest : List Char) : Prop where
  leads : p.leads before lead
  secret : p.secret secret
  ends : p.Ends rest

/-- The pattern is not found at the start of the text. -/
def Nowhere (p : Pattern) (before : Option Char) (cs : List Char) : Prop :=
  ∀ lead secret rest, cs = lead ++ (secret ++ rest) → ¬ p.At before lead secret rest

/-- A text and what is shown of it. -/
inductive Masks (p : Pattern) : Option Char → List Char → List Char → Prop where
  | nil {before : Option Char} : Masks p before [] []
  | keep {before : Option Char} {c : Char} {rest shown : List Char}
    (hnone : p.Nowhere before (c :: rest)) (h : Masks p (some c) rest shown) :
    Masks p before (c :: rest) (c :: shown)
  | hide {before : Option Char} {lead secret rest shown : List Char}
    (hat : p.At before lead secret rest) (h : Masks p (behind before (lead ++ secret)) rest shown) :
    Masks p before (lead ++ (secret ++ rest)) (lead ++ (mask ++ shown))

/-- Secrets are not empty, and what leads to them begins with a character that goes on with secrets. -/
structure Regular (p : Pattern) : Prop where
  secret_ne_nil {secret : List Char} (h : p.secret secret) : secret ≠ []
  lead_head {before : Option Char} {lead : List Char} (h : p.leads before lead) :
    ∃ c tail, lead = c :: tail ∧ p.more c = true

/-- The function finds the places of the pattern, and nothing else. -/
def FoundBy (p : Pattern) (find : Option Char → List Char → Option Text.Found) : Prop :=
  ∀ before cs found, find before cs = some found ↔
    ∃ lead secret rest, cs = lead ++ (secret ++ rest) ∧ p.At before lead secret rest ∧
      found = ⟨(lead ++ secret).length - 1, lead ++ mask⟩

variable {p : Pattern}

theorem Regular.rest_shorter (hp : p.Regular) {before : Option Char} {lead secret rest cs : List Char}
    (hcs : cs = lead ++ (secret ++ rest)) (hat : p.At before lead secret rest) :
    rest.length < cs.length := by
  have hpos := List.length_pos_of_ne_nil (hp.secret_ne_nil hat.secret)
  rw [hcs, List.length_append, List.length_append]
  omega

/-! ## Substitution -/

theorem substituteFrom_passed (find : Option Char → List Char → Option Text.Found)
    (before : Option Char) (passed cs : List Char) :
    Text.substituteFrom find before passed.length (passed ++ cs) =
      Text.substituteFrom find (behind before passed) 0 cs := by
  induction passed generalizing before with
  | nil => rfl
  | cons c passed ih => rw [List.length_cons, List.cons_append, Text.substituteFrom, ih, behind_cons]

section substitution
variable {find : Option Char → List Char → Option Text.Found} (hfind : p.FoundBy find)
include hfind

theorem substituteFrom_nowhere {before : Option Char} {c : Char} {rest : List Char}
    (hnone : p.Nowhere before (c :: rest)) :
    Text.substituteFrom find before 0 (c :: rest) =
      c :: Text.substituteFrom find (some c) 0 rest := by
  have hfound : find before (c :: rest) = none := by
    cases hf : find before (c :: rest) with
    | none => rfl
    | some found =>
      obtain ⟨lead, secret, after, hcs, hat, -⟩ := (hfind _ _ _).mp hf
      exact absurd hat (hnone lead secret after hcs)
  rw [Text.substituteFrom, hfound]

theorem substituteFrom_at (hp : p.Regular) {before : Option Char} {lead secret rest : List Char}
    (hat : p.At before lead secret rest) :
    Text.substituteFrom find before 0 (lead ++ (secret ++ rest)) =
      lead ++ (mask ++ Text.substituteFrom find (behind before (lead ++ secret)) 0 rest) := by
  have hfound := (hfind before (lead ++ (secret ++ rest)) _).mpr ⟨lead, secret, rest, rfl, hat, rfl⟩
  obtain ⟨c, tail, rfl, -⟩ := hp.lead_head hat.leads
  have hcs : (c :: tail) ++ (secret ++ rest) = c :: ((tail ++ secret) ++ rest) := by simp
  have hmore : ((c :: tail) ++ secret).length - 1 = (tail ++ secret).length := by simp
  rw [hcs] at hfound ⊢
  rw [Text.substituteFrom, hfound]
  dsimp only
  rw [hmore, substituteFrom_passed, List.append_assoc, List.cons_append, List.cons_append,
    List.cons_append, behind_cons]

/-- Replacing what is found masks the text, and nothing else does. -/
theorem masks_iff (hp : p.Regular) {before : Option Char} {cs shown : List Char} :
    p.Masks before cs shown ↔ Text.substituteFrom find before 0 cs = shown := by
  constructor
  · intro h
    induction h with
    | nil => rfl
    | keep hnone _ ih => rw [substituteFrom_nowhere hfind hnone, ih]
    | hide hat _ ih => rw [substituteFrom_at hfind hp hat, ih]
  · rintro rfl
    generalize hlength : cs.length = length
    induction length using Nat.strong_induction_on generalizing before cs with
    | _ length ih =>
    cases cs with
    | nil => exact .nil
    | cons c rest =>
      by_cases hnone : p.Nowhere before (c :: rest)
      · rw [substituteFrom_nowhere hfind hnone]
        exact .keep hnone (ih rest.length (by rw [← hlength, List.length_cons]; omega) rfl)
      · rw [Nowhere] at hnone
        push Not at hnone
        obtain ⟨lead, secret, after, hcs, hat⟩ := hnone
        have hshorter := hp.rest_shorter hcs hat
        rw [hcs, substituteFrom_at hfind hp hat]
        exact .hide hat (ih after.length (by omega) rfl)

end substitution

/-- A text whose secrets are all masked already is shown as it is. -/
theorem masks_self (hp : p.Regular) {before : Option Char} {cs : List Char}
    (h : ∀ pre lead secret rest, cs = pre ++ (lead ++ (secret ++ rest)) →
      p.At (behind before pre) lead secret rest → secret = mask) :
    p.Masks before cs cs := by
  generalize hlength : cs.length = length
  induction length using Nat.strong_induction_on generalizing before cs with
  | _ length ih =>
  cases cs with
  | nil => exact .nil
  | cons c rest =>
    by_cases hnone : p.Nowhere before (c :: rest)
    · refine .keep hnone (ih rest.length (by rw [← hlength, List.length_cons]; omega) ?_ rfl)
      intro pre lead secret after hrest hat
      apply h (c :: pre) lead secret after
      · rw [hrest, List.cons_append]
      · rwa [behind_cons]
    · rw [Nowhere] at hnone
      push Not at hnone
      obtain ⟨lead, secret, after, hcs, hat⟩ := hnone
      have hshorter := hp.rest_shorter hcs hat
      have hsecret : secret = mask := h [] lead secret after hcs hat
      have hafter : p.Masks (behind before (lead ++ secret)) after after := by
        apply ih after.length (by omega) _ rfl
        intro pre lead' secret' rest' hafter hat'
        apply h ((lead ++ secret) ++ pre) lead' secret' rest'
        · rw [hcs, hafter]
          simp
        · rwa [behind_append]
      have hmasked := Masks.hide hat hafter
      rw [hcs]
      rwa [← hsecret] at hmasked

/-- A part in front where the pattern is found nowhere is kept. -/
theorem Masks.keep_front {before : Option Char} {front rest shown : List Char}
    (hnone : ∀ pre c post, front = pre ++ c :: post →
      p.Nowhere (behind before pre) (c :: post ++ rest))
    (h : p.Masks (behind before front) rest shown) :
    p.Masks before (front ++ rest) (front ++ shown) := by
  induction front generalizing before with
  | nil => exact h
  | cons c front ih =>
    refine .keep (hnone [] c front rfl) (ih ?_ (behind_cons before c front ▸ h))
    intro pre d post hfront
    have hlater := hnone (c :: pre) d post (by rw [hfront, List.cons_append])
    rwa [behind_cons] at hlater

/-- Only the first character that is looked at depends on the one before it. -/
theorem Masks.change_before (hp : p.Regular) {before before' : Option Char}
    (hleads : ∀ lead, p.leads before' lead ↔ p.leads before lead) {cs shown : List Char}
    (h : p.Masks before cs shown) : p.Masks before' cs shown := by
  cases h with
  | nil => exact .nil
  | keep hnone h =>
    refine .keep ?_ h
    intro lead secret rest hcs hat
    exact hnone lead secret rest hcs ⟨(hleads lead).mp hat.leads, hat.secret, hat.ends⟩
  | @hide _ lead secret rest shown hat h =>
    refine .hide ⟨(hleads lead).mpr hat.leads, hat.secret, hat.ends⟩ ?_
    have hne : lead ++ secret ≠ [] := by simp [hp.secret_ne_nil hat.secret]
    rwa [behind_of_ne_nil hne before' before]

theorem Masks.forall_mem {P : Char → Prop} (hmask : ∀ c ∈ mask, P c) {before : Option Char}
    {cs shown : List Char} (h : p.Masks before cs shown) (hcs : ∀ c ∈ cs, P c) :
    ∀ c ∈ shown, P c := by
  induction h with
  | nil => exact hcs
  | keep _ _ ih =>
    obtain ⟨hc, hrest⟩ := List.forall_mem_cons.mp hcs
    exact List.forall_mem_cons.mpr ⟨hc, ih hrest⟩
  | hide _ _ ih =>
    obtain ⟨hlead, hbehind⟩ := List.forall_mem_append.mp hcs
    have hrest := (List.forall_mem_append.mp hbehind).2
    exact List.forall_mem_append.mpr ⟨hlead, List.forall_mem_append.mpr ⟨hmask, ih hrest⟩⟩

/-! ## Parts of what is shown -/

theorem Masks.head (hp : p.Regular) {before : Option Char} {cs shown : List Char}
    (h : p.Masks before cs shown) : shown.head? = cs.head? := by
  cases h with
  | nil => rfl
  | keep => rfl
  | hide hat =>
    obtain ⟨c, tail, rfl, -⟩ := hp.lead_head hat.leads
    rfl

theorem Masks.ends (hp : p.Regular) {before : Option Char} {rest shown : List Char}
    (h : p.Masks before rest shown) (hends : p.Ends rest) : p.Ends shown := by
  rw [Ends, h.head hp]
  exact hends

/-- A text that has no separator in it and stands before another one, stands before the separator. -/
theorem prefix_of_append_cons {x : Char} {w v cs ds : List Char} (hw : x ∉ w)
    (h : cs ++ x :: ds = w ++ v) : ∃ between, cs = w ++ between ∧ v = between ++ x :: ds := by
  rcases List.append_eq_append_iff.mp h with ⟨as, hwas, hds⟩ | ⟨bs, hcs, hv⟩
  · cases as with
    | nil => exact ⟨[], by simpa using hwas.symm, by simpa using hds.symm⟩
    | cons a as =>
      obtain ⟨rfl, -⟩ := List.cons.inj hds
      exact absurd (by simp [hwas]) hw
  · exact ⟨bs, hcs, hv⟩

/-- What follows in a text and in what is shown of it begins alike, or a secret is masked there. -/
def Continues (p : Pattern) (v v₀ : List Char) : Prop :=
  v.head? = v₀.head? ∨ ∃ v', v = mask ++ v' ∧ p.Ends v'

theorem Masks.start (hp : p.Regular) {before : Option Char} {cs shown : List Char}
    (h : p.Masks before cs shown) {w v : List Char} (hshown : shown = w ++ v) (hw : '<' ∉ w) :
    ∃ v₀, cs = w ++ v₀ ∧ p.Continues v v₀ := by
  induction h generalizing w with
  | nil =>
    obtain ⟨rfl, rfl⟩ := List.append_eq_nil_iff.mp hshown.symm
    exact ⟨[], rfl, .inl rfl⟩
  | @keep before c rest shown hnone h ih =>
    cases w with
    | nil =>
      rw [List.nil_append] at hshown
      exact ⟨c :: rest, rfl, .inl (by rw [← hshown]; rfl)⟩
    | cons d w =>
      obtain ⟨rfl, htail⟩ := List.cons.inj hshown
      obtain ⟨v₀, hrest, hcontinues⟩ := ih htail fun hmem => hw (List.mem_cons_of_mem c hmem)
      exact ⟨v₀, by rw [hrest, List.cons_append], hcontinues⟩
  | @hide before lead secret rest shown hat h ih =>
    obtain ⟨between, hlead, hv⟩ := prefix_of_append_cons hw hshown
    refine ⟨between ++ (secret ++ rest), by rw [hlead, List.append_assoc], ?_⟩
    cases between with
    | nil => exact .inr ⟨shown, hv, h.ends hp hat.ends⟩
    | cons c between => exact .inl (by rw [hv]; rfl)

/-- Nothing but a mask is shown as a mask, if masks do not lead to secrets. -/
theorem Masks.eq_mask (hp : p.Regular) (hopen : ∀ before lead, p.leads before lead → '<' ∉ lead)
    {before : Option Char} {cs : List Char} (h : p.Masks before cs mask) : cs = mask := by
  generalize hshown : mask = shown at h
  cases h with
  | nil => cases hshown
  | @keep _ c rest shown hnone h =>
    obtain ⟨rfl, htail⟩ := List.cons.inj (show '<' :: "redacted>".toList = c :: shown from hshown)
    obtain ⟨v₀, hrest, hcontinues⟩ :=
      h.start hp (htail.symm.trans (List.append_nil _).symm) (by decide)
    have hv₀ : v₀ = [] := by
      rcases hcontinues with hhead | ⟨v', hv', -⟩
      · exact List.head?_eq_none_iff.mp hhead.symm
      · exact absurd (List.append_eq_nil_iff.mp hv'.symm).1 (by decide)
    rw [hrest, hv₀, List.append_nil, htail]
  | @hide _ lead secret rest shown hat h =>
    obtain ⟨c, tail, rfl, -⟩ := hp.lead_head hat.leads
    have hc : '<' = c := (List.cons.inj hshown).1
    exact absurd (hc ▸ List.mem_cons_self) (hopen _ _ hat.leads)

/-- Where a part of the shown text comes from, with what follows it: it was kept where nothing was found,
it leads to a secret, or it is in a mask. -/
inductive Origin (p : Pattern) (before : Option Char) (cs pre w v : List Char) : Prop where
  | kept (pre₀ : List Char) {v₀ : List Char} (hcs : cs = pre₀ ++ (w ++ v₀))
    (hnone : p.Nowhere (behind before pre) (w ++ v₀)) (hcontinues : p.Continues v v₀)
  | lead (pre₀ : List Char) {l₁ l₂ secret rest v' : List Char} {b : Option Char}
    (hcs : cs = pre₀ ++ (l₁ ++ (w ++ l₂) ++ (secret ++ rest)))
    (hat : p.At b (l₁ ++ (w ++ l₂)) secret rest) (hv : v = l₂ ++ (mask ++ v')) (hends : p.Ends v')
  | masked (h : w <:+: mask)

theorem Origin.shift {before : Option Char} {cs pre w v : List Char} (as bs : List Char)
    (h : p.Origin (behind before bs) cs pre w v)
    (hbehind : behind (behind before bs) pre = behind before (as ++ pre)) :
    p.Origin before (bs ++ cs) (as ++ pre) w v := by
  cases h with
  | kept pre₀ hcs hnone hcontinues =>
    rw [hbehind] at hnone
    exact .kept (bs ++ pre₀) (by rw [hcs, List.append_assoc]) hnone hcontinues
  | lead pre₀ hcs hat hv hends =>
    exact .lead (bs ++ pre₀) (by rw [hcs, List.append_assoc bs]) hat hv hends
  | masked h => exact .masked h

theorem mask_eq : mask = "<redacted".toList ++ ['>'] := by
  decide

theorem infix_mask {x y w v shown : List Char} (hmask : mask = x ++ y) (hy : y ≠ [])
    (hw : '>' ∉ w) (h : y ++ shown = w ++ v) : w <:+: mask := by
  -- The mask ends with a character that is not in the part, so the part ends before the mask does.
  obtain ⟨c, hlast⟩ : ∃ c, y = y.dropLast ++ [c] := ⟨_, (List.dropLast_append_getLast hy).symm⟩
  have hc : c = '>' := by
    have hend : mask = x ++ y.dropLast ++ [c] := by rw [hmask, List.append_assoc, ← hlast]
    rw [mask_eq] at hend
    exact (List.append_inj' hend rfl).2 |> List.cons.inj |>.1.symm
  rw [hlast, hc, List.append_assoc] at h
  obtain ⟨between, hbetween, -⟩ := prefix_of_append_cons hw h
  refine ⟨x, between ++ ['>'], ?_⟩
  rw [hmask, hlast, hc, hbetween]
  simp

/-- Each part of the shown text without angle brackets comes from somewhere. -/
theorem Masks.origin (hp : p.Regular) {before : Option Char} {cs shown : List Char}
    (h : p.Masks before cs shown) {pre w v : List Char} (hshown : shown = pre ++ (w ++ v))
    (hplain : Plain w) (hfirst : ∃ c tail, w = c :: tail ∧ p.more c = true) :
    p.Origin before cs pre w v := by
  have hopen : '<' ∉ w := hplain '<' (by decide)
  have hclose : '>' ∉ w := hplain '>' (by decide)
  induction h generalizing pre with
  | nil =>
    obtain ⟨c, tail, rfl, -⟩ := hfirst
    simp at hshown
  | @keep before c rest shown hnone h ih =>
    cases pre with
    | nil =>
      obtain ⟨v₀, hcs, hcontinues⟩ := (Masks.keep hnone h).start hp (w := w) hshown hopen
      rw [hcs] at hnone ⊢
      exact .kept [] rfl hnone hcontinues
    | cons d pre =>
      obtain ⟨rfl, htail⟩ := List.cons.inj hshown
      exact (ih htail).shift [c] [c] (behind_cons before c pre).symm
  | @hide before lead secret rest shown hat h ih =>
    rcases List.append_eq_append_iff.mp hshown with ⟨x, hpre, hx⟩ | ⟨y, hlead, hy⟩
    · rcases List.append_eq_append_iff.mp hx with ⟨pre', hpre', hrest⟩ | ⟨y, hmask, hy⟩
      · have horigin := ih hrest
        rw [hpre, hpre', ← List.append_assoc lead secret rest, ← List.append_assoc lead]
        apply horigin.shift (lead ++ mask) (lead ++ secret)
        -- The character before the part may be the end of the mask in one text, and the end of the
        -- secret in the other; but then the part would begin where a secret ends.
        have hne : pre' ≠ [] := by
          rintro rfl
          obtain ⟨c, tail, rfl, hmore⟩ := hfirst
          have hends := h.ends hp hat.ends c (by rw [hrest]; rfl)
          rw [hmore] at hends
          cases hends
        rw [behind_append before (lead ++ mask)]
        exact behind_of_ne_nil hne _ _
      · cases y with
        | nil =>
          obtain ⟨c, tail, rfl, hmore⟩ := hfirst
          have hends := h.ends hp hat.ends c (by rw [show shown = _ from hy.symm]; rfl)
          rw [hmore] at hends
          cases hends
        | cons d y => exact .masked (infix_mask hmask (List.cons_ne_nil d y) hclose hy.symm)
    · obtain ⟨between, hbetween, hv⟩ := prefix_of_append_cons hopen hy.symm
      rw [hbetween] at hlead
      have hends := h.ends hp hat.ends
      rw [hlead] at hat ⊢
      exact .lead [] rfl hat hv hends

/-- A part of the shown text without angle brackets that is longer than a mask stands in the text. -/
theorem Masks.part (hp : p.Regular) {before : Option Char} {cs shown : List Char}
    (h : p.Masks before cs shown) {w : List Char} (hw : w <:+: shown) (hplain : Plain w)
    (hfirst : ∃ c tail, w = c :: tail ∧ p.more c = true) (hlong : mask.length < w.length) : w <:+: cs := by
  obtain ⟨pre, v, rfl⟩ := hw
  rw [List.append_assoc] at h
  cases h.origin hp rfl hplain hfirst with
  | @kept pre₀ v₀ hcs => exact ⟨pre₀, v₀, by rw [hcs, List.append_assoc]⟩
  | @lead pre₀ l₁ l₂ secret rest v' b hcs =>
    exact ⟨pre₀ ++ l₁, l₂ ++ (secret ++ rest), by rw [hcs]; simp⟩
  | masked h =>
    have hle := h.length_le
    omega

end Pattern

end Courier.Redaction
