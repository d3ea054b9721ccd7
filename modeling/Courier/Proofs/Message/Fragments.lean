import Courier.Message.Markup

/-!
# Fragments of markup

A fragment is markup that is complete by itself: ordinary characters, whole entities, and bold parts
that are closed again. Marked-up texts are made of units, none of which has a proper part that is
complete: an ordinary character, an entity, or a bold part with its two tags.
-/

namespace Courier.Message

def entities : List (List Char) :=
  ["&amp;", "&lt;", "&gt;", "&quot;", "&#x27;"].map String.toList

def isOrdinary (c : Char) : Bool :=
  c != '<' && c != '>' && c != '&'

inductive Fragment : List Char → Prop where
  | nil : Fragment []
  | ordinary {c : Char} {cs : List Char} (hc : isOrdinary c = true) (h : Fragment cs) :
    Fragment (c :: cs)
  | entity {e cs : List Char} (he : e ∈ entities) (h : Fragment cs) : Fragment (e ++ cs)
  | bold {inner cs : List Char} (hinner : Fragment inner) (h : Fragment cs) :
    Fragment ("<b>".toList ++ (inner ++ ("</b>".toList ++ cs)))

theorem Fragment.append {cs ds : List Char} (h : Fragment cs) (h' : Fragment ds) :
    Fragment (cs ++ ds) := by
  induction h with
  | nil => exact h'
  | ordinary hc _ ih => exact .ordinary hc ih
  | entity he _ ih =>
    rw [List.append_assoc]
    exact .entity he ih
  | bold hinner _ _ ih =>
    simp only [List.append_assoc]
    exact .bold hinner ih

/-! ## What every fragment has -/

theorem Fragment.tags {cs : List Char} (h : Fragment cs) :
    cs.count '<' = cs.count '>' ∧ 2 ∣ cs.count '<' := by
  induction h with
  | nil => simp
  | ordinary hc _ ih =>
    simp only [isOrdinary, Bool.and_eq_true, bne_iff_ne] at hc
    rw [List.count_cons_of_ne hc.1.1, List.count_cons_of_ne hc.1.2]
    exact ih
  | @entity e cs he _ ih =>
    have hplain : ∀ e ∈ entities, e.count '<' = 0 ∧ e.count '>' = 0 := by decide
    obtain ⟨hopen, hclose⟩ := hplain e he
    rw [List.count_append, List.count_append, hopen, hclose, Nat.zero_add, Nat.zero_add]
    exact ih
  | @bold inner cs _ _ ih ih' =>
    have hopen : "<b>".toList.count '<' = 1 ∧ "<b>".toList.count '>' = 1 := by decide
    have hclose : "</b>".toList.count '<' = 1 ∧ "</b>".toList.count '>' = 1 := by decide
    simp only [List.count_append, hopen, hclose]
    omega

theorem suffix_append_cases {a : Char} {y cs ds : List Char} (h : a :: y <:+ cs ++ ds) :
    a :: y <:+ ds ∨ ∃ z, a :: z <:+ cs ∧ y = z ++ ds := by
  obtain ⟨x, hx⟩ := h
  rcases List.append_eq_append_iff.mp hx with ⟨as, hcs, has⟩ | ⟨bs, -, hds⟩
  · cases as with
    | nil => exact Or.inl ⟨[], by simpa using has⟩
    | cons b as =>
      obtain ⟨rfl, rfl⟩ := List.cons.inj has
      exact Or.inr ⟨as, ⟨x, hcs.symm⟩, rfl⟩
  · exact Or.inl ⟨bs, hds.symm⟩

theorem Fragment.entity_of_ampersand {cs : List Char} (h : Fragment cs) :
    ∀ y, '&' :: y <:+ cs → ∃ e ∈ entities, e <+: '&' :: y := by
  induction h with
  | nil =>
    intro y hy
    cases List.suffix_nil.mp hy
  | @ordinary c cs hc _ ih =>
    intro y hy
    rcases List.suffix_cons_iff.mp hy with he | hy
    · cases he
      cases hc
    · exact ih y hy
  | @entity e cs he _ ih =>
    have htail : ∀ e ∈ entities, '&' ∉ e.tail := by decide
    intro y hy
    rcases suffix_append_cases hy with hy | ⟨z, hz, rfl⟩
    · exact ih y hy
    · cases e with
      | nil => cases List.suffix_nil.mp hz
      | cons c e =>
        rcases List.suffix_cons_iff.mp hz with heq | hz
        · exact ⟨c :: e, he, ⟨cs, by rw [← heq, List.cons_append]⟩⟩
        · exact absurd (hz.subset List.mem_cons_self) (htail _ he)
  | @bold inner cs _ _ ih ih' =>
    intro y hy
    have hopen : '&' ∉ "<b>".toList := by decide
    have hclose : '&' ∉ "</b>".toList := by decide
    rcases suffix_append_cases hy with hy | ⟨z, hz, -⟩
    · rcases suffix_append_cases hy with hy | ⟨z, hz, rfl⟩
      · rcases suffix_append_cases hy with hy | ⟨z, hz, -⟩
        · exact ih' y hy
        · exact absurd (hz.subset List.mem_cons_self) hclose
      · obtain ⟨e, he, hstart⟩ := ih z hz
        exact ⟨e, he, hstart.trans ⟨_, rfl⟩⟩
    · exact absurd (hz.subset List.mem_cons_self) hopen

/-! ## Units -/

inductive IsUnit : List Char → Prop where
  | ordinary {c : Char} (hc : isOrdinary c = true) : IsUnit [c]
  | entity {e : List Char} (he : e ∈ entities) : IsUnit e
  | bold {inner : List Char} (h : Fragment inner) (hplain : '<' ∉ inner ∧ '>' ∉ inner) :
    IsUnit ("<b>".toList ++ inner ++ "</b>".toList)

theorem IsUnit.fragment {u : List Char} (h : IsUnit u) : Fragment u := by
  cases h with
  | ordinary hc => exact .ordinary hc .nil
  | entity he => simpa using Fragment.entity he .nil
  | bold h _ => simpa using Fragment.bold h .nil

theorem fragment_flatten {us : List (List Char)} (h : ∀ u ∈ us, IsUnit u) :
    Fragment us.flatten := by
  induction us with
  | nil => exact .nil
  | cons u us ih =>
    rw [List.flatten_cons]
    have hrest := ih fun v hv => h v (List.mem_cons_of_mem u hv)
    exact (h u List.mem_cons_self).fragment.append hrest

/-- A part of a unit makes what is before it incomplete, too. -/
theorem IsUnit.not_fragment {u w cs : List Char} (h : IsUnit u) (hw : w <+: u) (hne : w ≠ [])
    (hproper : w ≠ u) (hcs : Fragment cs) : ¬ Fragment (cs ++ w) := by
  intro hfragment
  cases h with
  | ordinary =>
    rcases List.prefix_cons_iff.mp hw with he | ⟨t, ht, hnil⟩
    · exact hne he
    · exact hproper (by rw [ht, List.prefix_nil.mp hnil])
  | entity he =>
    have hfirst : ∀ e ∈ entities, e.head? = some '&' := by decide
    have hpart : ∀ e ∈ entities, ∀ e' ∈ entities, e' <+: e → e' = e := by decide
    obtain ⟨c, y, rfl⟩ := List.exists_cons_of_ne_nil hne
    obtain ⟨t, ht⟩ := hw
    have hc := hfirst u he
    rw [← ht] at hc
    cases hc
    obtain ⟨e, he', hstart⟩ := hfragment.entity_of_ampersand y ⟨cs, rfl⟩
    have heq := hpart u he e he' (hstart.trans ⟨t, ht⟩)
    have hlength := hstart.length_le
    rw [heq, ← ht, List.length_append] at hlength
    have hnil : t = [] := List.length_eq_zero_iff.mp (by omega)
    exact hproper (by rw [← ht, hnil, List.append_nil])
  | @bold inner _ hplain =>
    have htags := hfragment.tags
    have hcs' := hcs.tags
    rw [List.count_append, List.count_append] at htags
    -- The last character of the bold part is missing, and with it one of the two that close tags.
    have hu : "<b>".toList ++ inner ++ "</b>".toList = ("<b>".toList ++ inner ++ "</b".toList) ++ ['>'] :=
      by simp
    rw [hu] at hw hproper
    have hwclose : w.count '>' ≤ 1 := by
      rcases List.prefix_concat_iff.mp hw with he | hw
      · exact absurd he hproper
      · have hle := hw.sublist.count_le '>'
        simpa [List.count_eq_zero_of_not_mem hplain.2] using hle
    have hwopen : 1 ≤ w.count '<' := by
      obtain ⟨c, y, rfl⟩ := List.exists_cons_of_ne_nil hne
      obtain ⟨t, ht⟩ := hw
      have hc : c = '<' := by simpa using congrArg List.head? ht
      rw [hc, List.count_cons_self]
      omega
    omega

end Courier.Message
