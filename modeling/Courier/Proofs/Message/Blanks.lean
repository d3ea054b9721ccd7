import Courier.Proofs.Message.Pieces
import Mathlib.Data.List.Chain

/-!
# Blank chunks

Nothing keeps a chunk from being blank: blanks at the end of what is cut off are left out, even if they are
all of it, and what remains at last is sent as it is. A text whose characters are not all blank has a blank
chunk exactly if it has a blank stretch between two of its cuts, before the first one or behind the last one.
-/

namespace Courier.Message

open Text (isBlank)

/-- The text is not blank. -/
def Visible (cs : List Char) : Prop :=
  ∃ c ∈ cs, isBlank c = false

/-- The text is not blank between the two places. -/
def VisibleBetween (text : List Char) (a b : Nat) : Prop :=
  Visible ((text.take b).drop a)

/-- The text is not blank behind the place, or only line ends are left there. -/
def VisibleBehind (text : List Char) (a : Nat) : Prop :=
  Visible (text.drop a) ∨ ∀ c ∈ text.drop a, c = '\n'

def lastPlace (places : List Nat) : Nat :=
  places.getLast?.getD 0

theorem visible_append {cs ds : List Char} : Visible (cs ++ ds) ↔ Visible cs ∨ Visible ds := by
  constructor
  · rintro ⟨c, hc, hvisible⟩
    rcases List.mem_append.mp hc with hc | hc
    · exact .inl ⟨c, hc, hvisible⟩
    · exact .inr ⟨c, hc, hvisible⟩
  · rintro (⟨c, hc, hvisible⟩ | ⟨c, hc, hvisible⟩)
    · exact ⟨c, List.mem_append_left _ hc, hvisible⟩
    · exact ⟨c, List.mem_append_right _ hc, hvisible⟩

theorem not_visible {blanks : List Char} (h : ∀ c ∈ blanks, isBlank c = true) : ¬ Visible blanks := by
  rintro ⟨c, hc, hvisible⟩
  rw [h c hc] at hvisible
  cases hvisible

theorem isBlank_lineEnds {lineEnds : List Char} (h : ∀ c ∈ lineEnds, c = '\n') :
    ∀ c ∈ lineEnds, isBlank c = true := by
  intro c hc
  rw [h c hc]
  rfl

/-! ## Places behind the first piece -/

section behind
variable (front rest : List Char)

theorem visibleBetween_add (a b : Nat) :
    VisibleBetween (front ++ rest) (front.length + a) (front.length + b) ↔ VisibleBetween rest a b := by
  rw [VisibleBetween, VisibleBetween, List.take_length_add_append, List.drop_length_add_append]

theorem visibleBehind_add (a : Nat) :
    VisibleBehind (front ++ rest) (front.length + a) ↔ VisibleBehind rest a := by
  rw [VisibleBehind, VisibleBehind, List.drop_length_add_append]

variable {lineEnds : List Char} (h : ∀ c ∈ lineEnds, c = '\n')
include h

/-- The line ends behind a cut do not count. -/
theorem visibleBetween_lineEnds (b : Nat) :
    VisibleBetween (front ++ lineEnds ++ rest) front.length ((front ++ lineEnds).length + b) ↔
      VisibleBetween rest 0 b := by
  rw [VisibleBetween, VisibleBetween, List.take_length_add_append, List.append_assoc, List.drop_left,
    visible_append, List.drop_zero, or_iff_right (not_visible (isBlank_lineEnds h))]

theorem visibleBehind_lineEnds :
    VisibleBehind (front ++ lineEnds ++ rest) front.length ↔ VisibleBehind rest 0 := by
  rw [VisibleBehind, VisibleBehind, List.append_assoc, List.drop_left, visible_append, List.drop_zero,
    or_iff_right (not_visible (isBlank_lineEnds h)), List.forall_mem_append, and_iff_right h]

end behind

/-! ## Blank stretches -/

section piece
variable {limit : Nat} {cs rest : List Char} {p : Piece} (h : CutsOff limit cs p rest)
include h

theorem CutsOff.cuts_eq (hlimit : 0 < limit) :
    cuts limit cs = (p.chunk ++ p.blanks).length :: (cuts limit rest).map (p.text.length + ·) := by
  have hlength : cs.length - rest.length = p.text.length := by
    rw [h.text, List.length_append, Nat.add_sub_cancel]
  rw [cuts, if_pos ⟨h.long, afterCut_length_lt hlimit h.long⟩, ← h.rest_eq, h.length_eq, hlength]

/-- Before the first cut stands what the first chunk has. -/
theorem CutsOff.visible_chunk_iff :
    VisibleBetween cs 0 (p.chunk ++ p.blanks).length ↔ Visible p.chunk := by
  rw [VisibleBetween, h.text, Piece.text, List.append_assoc, List.take_left, List.drop_zero,
    visible_append, or_iff_left (not_visible h.blanks)]

theorem CutsOff.isChain_iff (places : List Nat) :
    ((p.chunk ++ p.blanks).length :: places.map (p.text.length + ·)).IsChain (VisibleBetween cs) ↔
      (0 :: places).IsChain (VisibleBetween rest) := by
  cases places with
  | nil => simp
  | cons b places =>
    rw [List.map_cons, List.isChain_cons_cons, List.isChain_cons_cons, ← List.map_cons,
      List.isChain_map, h.text]
    refine and_congr (visibleBetween_lineEnds _ rest h.lineEnds b) ?_
    apply List.IsChain.iff
    intro a b
    exact visibleBetween_add p.text rest a b

theorem CutsOff.visibleBehind_iff (places : List Nat) :
    VisibleBehind cs
        (lastPlace ((p.chunk ++ p.blanks).length :: places.map (p.text.length + ·))) ↔
      VisibleBehind rest (lastPlace places) := by
  rw [h.text]
  rcases List.eq_nil_or_concat places with rfl | ⟨places, a, rfl⟩
  · exact visibleBehind_lineEnds _ rest h.lineEnds
  · have hlast : lastPlace ((p.chunk ++ p.blanks).length ::
        (places.concat a).map (p.text.length + ·)) = p.text.length + a := by
      simp [lastPlace, List.getLast?_cons]
    have hlast' : lastPlace (places.concat a) = a := by simp [lastPlace]
    rw [hlast, hlast']
    exact visibleBehind_add p.text rest a

end piece

theorem Splits.visible_iff {limit : Nat} (hlimit : 0 < limit) {cs last : List Char}
    {pieces : List Piece} (h : Splits limit cs pieces last) (hlast : last.length ≤ limit)
    (hcs : (∀ c ∈ cs, c = '\n') → cs = []) :
    (∀ chunk ∈ chunksOf limit cs, Visible chunk) ↔
      (0 :: cuts limit cs).IsChain (VisibleBetween cs) ∧ VisibleBehind cs (lastPlace (cuts limit cs)) := by
  induction h with
  | @done cs =>
    have hnone : cuts limit cs = [] := by rw [cuts, if_neg (by omega)]
    rw [chunksOf, if_neg (by omega), hnone]
    cases cs with
    | nil => simp [VisibleBehind, lastPlace]
    | cons c cs =>
      have hvisible : VisibleBehind (c :: cs) 0 ↔ Visible (c :: cs) :=
        or_iff_left fun hall => List.cons_ne_nil c cs (hcs hall)
      simp [lastPlace, hvisible]
  | @cut cs rest last p pieces hcut h ih =>
    have hrest : (∀ c ∈ rest, c = '\n') → rest = [] := by
      intro hall
      cases rest with
      | nil => rfl
      | cons c rest => exact absurd (hall c List.mem_cons_self) (hcut.rest_head c rfl)
    have hchunks : chunksOf limit cs = p.chunk :: chunksOf limit rest :=
      (Splits.cut hcut .done).chunksOf_eq hlimit
    rw [hchunks, List.forall_mem_cons, ih hlast hrest, hcut.cuts_eq hlimit, List.isChain_cons_cons,
      hcut.visible_chunk_iff, hcut.isChain_iff, hcut.visibleBehind_iff, and_assoc]

/-! ## Texts without blank chunks -/

/-- The text does not begin with a line end. It ends with no other blank, and no other blank stands before a
blank. -/
structure Tidy (cs : List Char) : Prop where
  head : ∀ c ∈ cs.head?, c ≠ '\n'
  last : ∀ c ∈ cs.getLast?, isBlank c = true → c = '\n'
  blanks : cs.IsChain fun c d => isBlank c = true → c = '\n' ∨ isBlank d = false

/-- If a tidy text begins with a blank, its second character is not blank. -/
theorem Tidy.visible_take {cs : List Char} (h : Tidy cs) (hne : cs ≠ []) {n : Nat} (hn : 0 < n)
    (hcut : n = 1 → ∀ d ∈ cs[1]?, isBlank d = true) : Visible (cs.take n) := by
  obtain ⟨c, rest, rfl⟩ := List.exists_cons_of_ne_nil hne
  obtain ⟨n, rfl⟩ := Nat.exists_eq_add_of_lt hn
  rw [Nat.zero_add] at hcut ⊢
  cases hc : isBlank c with
  | false => exact ⟨c, by simp, hc⟩
  | true =>
    have hhead : c ≠ '\n' := h.head c rfl
    cases rest with
    | nil => exact absurd (h.last c rfl hc) hhead
    | cons d rest =>
      have hvisible : isBlank d = false :=
        ((List.isChain_cons_cons.mp h.blanks).1 hc).resolve_left hhead
      cases n with
      | zero =>
        have hblank := hcut rfl d rfl
        rw [hblank] at hvisible
        cases hvisible
      | succ n => exact ⟨d, by simp, hvisible⟩

theorem CutsOff.tidy {limit : Nat} (hlimit : 2 ≤ limit) {cs rest : List Char} {p : Piece}
    (h : CutsOff limit cs p rest) (htidy : Tidy cs) : Visible p.chunk ∧ Tidy rest := by
  constructor
  · have hne : cs ≠ [] := by
      rintro rfl
      exact absurd h.long (Nat.not_lt_zero limit)
    have hplace := h.place
    rw [← h.visible_chunk_iff, VisibleBetween, List.drop_zero]
    generalize (p.chunk ++ p.blanks).length = n at hplace ⊢
    cases hplace with
    | lineEnd hpos hlt hat =>
      apply htidy.visible_take hne hpos
      rintro rfl d hd
      obtain rfl : '\n' = d := Option.some.inj (hat.symm.trans hd)
      rfl
    | limit => exact htidy.visible_take hne (by omega) (by omega)
  · rw [h.text] at htidy
    refine ⟨h.rest_head, ?_, htidy.blanks.right_of_append⟩
    intro c hc
    exact htidy.last c (List.mem_getLast?_append_of_mem_getLast? hc)

theorem Splits.tidy {limit : Nat} (hlimit : 2 ≤ limit) {cs last : List Char} {pieces : List Piece}
    (h : Splits limit cs pieces last) (htidy : Tidy cs) :
    (∀ p ∈ pieces, Visible p.chunk) ∧ Tidy last := by
  induction h with
  | done => exact ⟨List.forall_mem_nil _, htidy⟩
  | cut hcut _ ih =>
    obtain ⟨hchunk, hrest⟩ := hcut.tidy hlimit htidy
    obtain ⟨hpieces, hlast⟩ := ih hrest
    exact ⟨List.forall_mem_cons.mpr ⟨hchunk, hpieces⟩, hlast⟩

theorem split_visible_of_tidy {limit : Nat} (hlimit : 2 ≤ limit) {text : List Char}
    (htext : Visible text) (htidy : Tidy text) : ∀ chunk ∈ split limit text, Visible chunk := by
  have hpos : 0 < limit := by omega
  obtain ⟨pieces, last, h, hfits⟩ := exists_splits hpos text
  obtain ⟨hpieces, hlast⟩ := h.tidy hlimit htidy
  intro chunk hchunk
  rw [h.split_eq hpos hfits] at hchunk
  split at hchunk
  · rwa [List.mem_singleton.mp hchunk]
  · rcases List.mem_append.mp hchunk with hchunk | hchunk
    · obtain ⟨p, hp, rfl⟩ := List.mem_map.mp hchunk
      exact hpieces p hp
    · split at hchunk
      · cases hchunk
      · rename_i hne
        have hne : last ≠ [] := fun hnil => hne (List.isEmpty_iff.mpr hnil)
        have hvisible := hlast.visible_take hne (List.length_pos_of_ne_nil hne) fun hone d hd => by
          rw [List.getElem?_eq_none (by omega)] at hd
          cases hd
        rw [List.take_length] at hvisible
        rwa [List.mem_singleton.mp hchunk]

/-- Of a text that is not blank, no chunk is blank exactly if it is blank nowhere between neighbouring cuts,
nor behind the last one, where line ends do not count. This is so for tidy texts. -/
theorem chunks_visible_iff {limit : Nat} (hlimit : 0 < limit) {text : List Char}
    (htext : Visible text) :
    ((∀ chunk ∈ split limit text, Visible chunk) ↔
        (0 :: cuts limit text).IsChain (VisibleBetween text) ∧
          VisibleBehind text (lastPlace (cuts limit text))) ∧
      (2 ≤ limit → Tidy text → ∀ chunk ∈ split limit text, Visible chunk) := by
  refine ⟨?_, fun hlimit htidy => split_visible_of_tidy hlimit htext htidy⟩
  rw [split]
  split
  · rename_i hfits
    have hnone : cuts limit text = [] := by rw [cuts, if_neg (by omega)]
    rw [hnone]
    simp [lastPlace, VisibleBehind, htext]
  · obtain ⟨pieces, last, h, hlast⟩ := exists_splits hlimit text
    apply h.visible_iff hlimit hlast
    intro hall
    exact absurd htext (not_visible (isBlank_lineEnds hall))

theorem chunks_visible_iff_words :
    0 < 5 ∧ Visible "To be,\n\nor not".toList ∧ (2 ≤ 5 ∧ Tidy "To be,\n\nor not".toList) ∧
      ((∀ chunk ∈ split 5 "To be,\n\nor not".toList, Visible chunk) ↔
        (0 :: cuts 5 "To be,\n\nor not".toList).IsChain (VisibleBetween "To be,\n\nor not".toList) ∧
          VisibleBehind "To be,\n\nor not".toList (lastPlace (cuts 5 "To be,\n\nor not".toList))) ∧
      ∀ chunk ∈ split 5 "To be,\n\nor not".toList, Visible chunk := by
  have htext : Visible "To be,\n\nor not".toList := ⟨'T', by decide, rfl⟩
  have htidy : Tidy "To be,\n\nor not".toList := by
    refine ⟨?_, ?_, by decide⟩
    · intro c hc
      obtain rfl : 'T' = c := Option.some.inj hc
      decide
    · intro c hc hblank
      obtain rfl : 't' = c := Option.some.inj hc
      cases hblank
  obtain ⟨hiff, hvisible⟩ := chunks_visible_iff (show 0 < 5 by decide) htext
  exact ⟨by decide, htext, ⟨by decide, htidy⟩, hiff, hvisible (by decide) htidy⟩

/-! ## A blank behind the last cut -/

/-- So many letters, and a space. -/
def spaced (n : Nat) : List Char :=
  List.replicate n 'a' ++ [' ']

theorem visible_spaced {n : Nat} (hn : 0 < n) : Visible (spaced n) :=
  ⟨'a', List.mem_append_left _ (List.mem_replicate.mpr ⟨by omega, rfl⟩), rfl⟩

theorem cutsOff_spaced (n : Nat) : CutsOff n (spaced n) ⟨List.replicate n 'a', [], []⟩ [' '] where
  blanks := List.forall_mem_nil _
  lineEnds := List.forall_mem_nil _
  long := by simp [spaced]
  text := by simp [spaced, Piece.text]
  place := by
    rw [List.append_nil, List.length_replicate]
    apply IsCut.limit
    intro i _ hi
    rw [spaced, List.getElem?_append_left (by rwa [List.length_replicate]),
      List.getElem?_replicate_of_lt hi]
    decide
  trimmed := by
    intro c hc
    rw [List.eq_of_mem_replicate (List.mem_of_mem_getLast? hc)]
    rfl
  rest_head := by
    rintro c ⟨⟩
    decide

theorem split_spaced {n : Nat} (hn : 0 < n) : split n (spaced n) = [List.replicate n 'a', [' ']] :=
  (Splits.cut (cutsOff_spaced n) .done).split_eq hn hn

namespace Telegram

theorem markedUp_spaced {n : Nat} (hn : 0 < n) : markedUp [] (spaced n) = spaced n := by
  have hescape : escape (spaced n) = spaced n := by
    have hself : ∀ c ∈ spaced n, escapeChar c = [c] := by
      intro c hc
      apply escapeChar_of_not_mark
      rcases List.mem_append.mp hc with hc | hc
      · rw [List.eq_of_mem_replicate hc]
        decide
      · rw [List.mem_singleton.mp hc]
        decide
    rw [escape, List.flatMap_congr hself, List.flatMap_singleton']
  have htrim : Text.trimWhile (· == '\n') (spaced n) = spaced n := by
    apply Text.trimWhile_of_ends
    · obtain ⟨n, rfl⟩ := Nat.exists_eq_add_of_lt hn
      rw [spaced, Nat.zero_add, List.replicate_succ]
      rintro c ⟨⟩
      rfl
    · rw [spaced, List.getLast?_concat]
      rintro c ⟨⟩
      rfl
  change format [] (escape (spaced n)) = spaced n
  rw [hescape]
  exact htrim

theorem posts_spaced :
    posts (.text "") (.text (String.ofList (spaced 3900))) [.text "42"] =
      .ok (postsTo [.number 42] (markedUp [] (String.ofList (spaced 3900)).toList)) := by
  rfl

/-- The second chunk is a space. -/
theorem blank_chunk_is_posted :
    (0 < 3900 ∧ Visible (spaced 3900) ∧ ¬ ∀ chunk ∈ split 3900 (spaced 3900), Visible chunk) ∧
      ∃ ps, posts (.text "") (.text (String.ofList (spaced 3900))) [.text "42"] = .ok ps ∧
        ∃ post ∈ ps, ¬ Visible post.text.toList := by
  have hblank : ¬ Visible [' '] := not_visible (List.forall_mem_singleton.mpr rfl)
  have hmem : [' '] ∈ split 3900 (spaced 3900) := by
    rw [split_spaced (by decide)]
    exact List.mem_cons_of_mem _ List.mem_cons_self
  refine ⟨⟨by decide, visible_spaced (by decide), fun hall => ?_⟩, _, posts_spaced, ?_⟩
  · exact hblank (hall [' '] hmem)
  · refine ⟨⟨.number 42, String.ofList [' ']⟩, ?_, hblank⟩
    rw [String.toList_ofList, markedUp_spaced (by decide)]
    apply mem_postsTo.mpr
    exact ⟨List.mem_cons_self, [' '], hmem, rfl⟩

end Telegram

end Courier.Message
