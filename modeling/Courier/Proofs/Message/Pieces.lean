import Courier.Proofs.Message.Cuts
import Courier.Proofs.Text.Words

/-!
# Pieces of long texts

As long as a text does not fit, a piece is cut off: a chunk, the blanks at its end, and the line ends behind
the cut. `Splits` says so without an algorithm, and in particular where the cuts are. Every text is split in
finitely many turns, in only one way; the chunks are those of `split`, and with what was left out between
them they make up the text.
-/

namespace Courier.Message

open Text (isBlank dropEndWhile)

/-! ## The place of a cut -/

/-- A text is cut at its last line end within the limit that is not its first character, or at the limit if
there is none. -/
inductive IsCut (limit : Nat) (cs : List Char) : Nat → Prop where
  | lineEnd {n : Nat} (hpos : 0 < n) (hlt : n < limit) (hat : cs[n]? = some '\n')
    (hlast : ∀ i, n < i → i < limit → cs[i]? ≠ some '\n') : IsCut limit cs n
  | limit (hnone : ∀ i, 0 < i → i < limit → cs[i]? ≠ some '\n') : IsCut limit cs limit

theorem lastLineEnd_concat (cs : List Char) (c : Char) :
    lastLineEnd (cs ++ [c]) = if c = '\n' then cs.length else lastLineEnd cs := by
  rw [lastLineEnd, lastLineEnd, List.reverse_append, List.reverse_singleton, List.singleton_append,
    List.findIdx?_cons, List.length_append, List.length_singleton]
  by_cases hc : c = '\n'
  · rw [if_pos hc, if_pos (beq_iff_eq.mpr hc)]
    rfl
  · rw [if_neg hc, if_neg (fun heq => hc (beq_iff_eq.mp heq))]
    cases cs.reverse.findIdx? (· == '\n') with
    | none => rfl
    | some i =>
      dsimp only [Option.map_some]
      omega

theorem lastLineEnd_spec (cs : List Char) :
    (∀ i, lastLineEnd cs < i → cs[i]? ≠ some '\n') ∧
      (lastLineEnd cs ≠ 0 → cs[lastLineEnd cs]? = some '\n') := by
  induction cs using List.reverseRecOn with
  | nil => exact ⟨fun i _ h => by simp at h, fun h => absurd rfl h⟩
  | append_singleton cs c ih =>
    obtain ⟨hlast, hat⟩ := ih
    rw [lastLineEnd_concat]
    split
    · rename_i hc
      constructor
      · intro i hi h
        rw [List.getElem?_eq_none (by simp; omega)] at h
        cases h
      · intro _
        rw [List.getElem?_concat_length, hc]
    · rename_i hc
      constructor
      · intro i hi h
        rcases Nat.lt_trichotomy i cs.length with hlt | rfl | hgt
        · rw [List.getElem?_append_left hlt] at h
          exact hlast i hi h
        · rw [List.getElem?_concat_length] at h
          exact hc (Option.some.inj h)
        · rw [List.getElem?_eq_none (by simp; omega)] at h
          cases h
      · intro hne
        have hsome := hat hne
        rw [List.getElem?_append_left (List.getElem?_eq_some_iff.mp hsome).1]
        exact hsome

theorem isCut_cutAt (limit : Nat) (cs : List Char) : IsCut limit cs (cutAt limit cs) := by
  obtain ⟨hlast, hat⟩ := lastLineEnd_spec (cs.take limit)
  rw [cutAt]
  split
  · rename_i hzero
    apply IsCut.limit
    intro i hpos hlt h
    apply hlast i (by omega)
    rw [List.getElem?_take_of_lt hlt, h]
  · rename_i hne
    have hat := hat hne
    have hlt : lastLineEnd (cs.take limit) < limit := by
      have hlength := (List.getElem?_eq_some_iff.mp hat).1
      have hle := List.length_take_le limit cs
      omega
    apply IsCut.lineEnd (Nat.pos_of_ne_zero hne) hlt
    · rwa [List.getElem?_take_of_lt hlt] at hat
    · intro i hi hlt' h
      apply hlast i hi
      rw [List.getElem?_take_of_lt hlt', h]

theorem IsCut.unique {limit n m : Nat} {cs : List Char} (hn : IsCut limit cs n)
    (hm : IsCut limit cs m) : n = m := by
  cases hn with
  | lineEnd hpos hlt hat hlast =>
    cases hm with
    | lineEnd hpos' hlt' hat' hlast' =>
      rcases Nat.lt_trichotomy n m with hnm | hnm | hnm
      · exact absurd hat' (hlast m hnm hlt')
      · exact hnm
      · exact absurd hat (hlast' n hnm hlt)
    | limit hnone => exact absurd hat (hnone n hpos hlt)
  | limit hnone =>
    cases hm with
    | lineEnd hpos' hlt' hat' => exact absurd hat' (hnone m hpos' hlt')
    | limit => rfl

/-! ## Pieces -/

structure Piece where
  chunk : List Char
  blanks : List Char
  lineEnds : List Char
deriving DecidableEq, Repr

namespace Piece

def text (p : Piece) : List Char :=
  p.chunk ++ p.blanks ++ p.lineEnds

/-- Only blanks are left out between the chunk and the next one. -/
structure LosesBlanks (p : Piece) : Prop where
  blanks : ∀ c ∈ p.blanks, isBlank c = true
  lineEnds : ∀ c ∈ p.lineEnds, c = '\n'

end Piece

/-- A piece is cut off from a text that does not fit. -/
structure CutsOff (limit : Nat) (cs : List Char) (p : Piece) (rest : List Char) : Prop
    extends p.LosesBlanks where
  long : limit < cs.length
  text : cs = p.text ++ rest
  place : IsCut limit cs (p.chunk ++ p.blanks).length
  trimmed : ∀ c ∈ p.chunk.getLast?, isBlank c = false
  rest_head : ∀ c ∈ rest.head?, c ≠ '\n'

/-- Pieces are cut off one after another; the last text is what remains of the first. -/
inductive Splits (limit : Nat) : List Char → List Piece → List Char → Prop where
  | done {cs : List Char} : Splits limit cs [] cs
  | cut {cs rest last : List Char} {p : Piece} {ps : List Piece} (hcut : CutsOff limit cs p rest)
    (h : Splits limit rest ps last) : Splits limit cs (p :: ps) last

section cuts
variable {limit : Nat} {cs rest : List Char} {p : Piece}

theorem exists_cutsOff (hlong : limit < cs.length) : ∃ p, CutsOff limit cs p (afterCut limit cs) := by
  have hcut : dropEndWhile isBlank (cs.take (cutAt limit cs)) ++
      ((cs.take (cutAt limit cs)).reverse.takeWhile isBlank).reverse = cs.take (cutAt limit cs) :=
    Text.dropEndWhile_append isBlank _
  have hlength : (cs.take (cutAt limit cs)).length = cutAt limit cs := by
    have hle := cutAt_le limit cs
    rw [List.length_take]
    omega
  refine ⟨⟨dropEndWhile isBlank (cs.take (cutAt limit cs)),
    ((cs.take (cutAt limit cs)).reverse.takeWhile isBlank).reverse,
    (cs.drop (cutAt limit cs)).takeWhile (· == '\n')⟩, ⟨?_, ?_⟩, hlong, ?_, ?_, ?_, ?_⟩
  · intro c hc
    exact List.mem_takeWhile_imp (List.mem_reverse.mp hc)
  · intro c hc
    have heq : (c == '\n') = true := List.mem_takeWhile_imp (p := (· == '\n')) hc
    exact beq_iff_eq.mp heq
  · rw [Piece.text, hcut, afterCut, List.append_assoc, List.takeWhile_append_dropWhile,
      List.take_append_drop]
  · rw [hcut, hlength]
    exact isCut_cutAt limit cs
  · intro c hc
    rw [dropEndWhile, List.getLast?_reverse] at hc
    exact Text.head?_dropWhile hc
  · intro c hc heq
    have hfalse := Text.head?_dropWhile hc
    rw [heq] at hfalse
    cases hfalse

variable (h : CutsOff limit cs p rest)
include h

theorem CutsOff.length_eq : (p.chunk ++ p.blanks).length = cutAt limit cs :=
  h.place.unique (isCut_cutAt limit cs)

theorem CutsOff.chunk_eq : p.chunk = dropEndWhile isBlank (cs.take (cutAt limit cs)) := by
  have htake : cs.take (cutAt limit cs) = p.chunk ++ p.blanks := by
    rw [← h.length_eq, h.text, Piece.text, List.append_assoc, List.take_left]
  have hblanks : ∀ c ∈ p.blanks.reverse, isBlank c = true :=
    fun c hc => h.blanks c (List.mem_reverse.mp hc)
  have htrimmed : ∀ c ∈ p.chunk.reverse.head?, isBlank c = false := by
    rw [List.head?_reverse]
    exact h.trimmed
  rw [htake, dropEndWhile, List.reverse_append, Text.dropWhile_run hblanks htrimmed,
    List.reverse_reverse]

theorem CutsOff.rest_eq : rest = afterCut limit cs := by
  have hdrop : cs.drop (cutAt limit cs) = p.lineEnds ++ rest := by
    rw [← h.length_eq, h.text, Piece.text, List.append_assoc, List.drop_left]
  have hlineEnds : ∀ c ∈ p.lineEnds, (c == '\n') = true :=
    fun c hc => beq_iff_eq.mpr (h.lineEnds c hc)
  rw [afterCut, hdrop, Text.dropWhile_run hlineEnds fun c hc => by simpa using h.rest_head c hc]

theorem CutsOff.length_le : p.chunk.length ≤ limit := by
  have hle := cutAt_le limit cs
  rw [← h.length_eq, List.length_append] at hle
  omega

theorem CutsOff.rest_shorter (hlimit : 0 < limit) : rest.length < cs.length := by
  rw [h.rest_eq]
  exact afterCut_length_lt hlimit h.long

end cuts

/-! ## All pieces -/

section limit
variable {limit : Nat} (hlimit : 0 < limit)
include hlimit

theorem exists_splits (cs : List Char) :
    ∃ pieces last, Splits limit cs pieces last ∧ last.length ≤ limit := by
  generalize hlength : cs.length = length
  induction length using Nat.strong_induction_on generalizing cs with
  | _ length ih =>
  by_cases hlong : limit < cs.length
  · obtain ⟨p, hcut⟩ := exists_cutsOff hlong
    have hshorter := hcut.rest_shorter hlimit
    obtain ⟨pieces, last, hsplits, hlast⟩ := ih _ (by omega) (afterCut limit cs) rfl
    exact ⟨p :: pieces, last, .cut hcut hsplits, hlast⟩
  · exact ⟨[], cs, .done, by omega⟩

/-- Each turn makes what remains shorter. -/
theorem Splits.length_le {cs last : List Char} {pieces : List Piece}
    (h : Splits limit cs pieces last) : pieces.length + last.length ≤ cs.length := by
  induction h with
  | done => simp
  | cut hcut _ ih =>
    have hshorter := hcut.rest_shorter hlimit
    rw [List.length_cons]
    omega

theorem Splits.chunksOf_eq {cs last : List Char} {pieces : List Piece}
    (h : Splits limit cs pieces last) :
    chunksOf limit cs = pieces.map Piece.chunk ++ chunksOf limit last := by
  induction h with
  | done => rfl
  | cut hcut _ ih =>
    rw [chunksOf, if_pos ⟨hcut.long, afterCut_length_lt hlimit hcut.long⟩, ← hcut.chunk_eq,
      ← hcut.rest_eq, ih, List.map_cons, List.cons_append]

/-- Once all that remains fits, the pieces tell the chunks of the text. -/
theorem Splits.split_eq {cs last : List Char} {pieces : List Piece}
    (h : Splits limit cs pieces last) (hlast : last.length ≤ limit) :
    split limit cs = if pieces.isEmpty then [cs]
      else pieces.map Piece.chunk ++ if last.isEmpty then [] else [last] := by
  cases h with
  | done => rw [split, if_pos hlast, List.isEmpty_nil, if_pos rfl]
  | @cut cs rest last p pieces hcut h =>
    have hlong := hcut.long
    have hchunks := (Splits.cut hcut h).chunksOf_eq hlimit
    rw [split, if_neg (by omega), hchunks, chunksOf, if_neg (by omega)]
    rfl

end limit

/-- What is cut off, and what remains, make up the text. -/
theorem Splits.text_eq {limit : Nat} {cs last : List Char} {pieces : List Piece}
    (h : Splits limit cs pieces last) : cs = pieces.flatMap Piece.text ++ last := by
  induction h with
  | done => rfl
  | cut hcut _ ih => rw [hcut.text, List.flatMap_cons, List.append_assoc, ← ih]

theorem Splits.forall_mem {limit : Nat} {cs last : List Char} {pieces : List Piece}
    (h : Splits limit cs pieces last) :
    ∀ p ∈ pieces, p.LosesBlanks ∧ p.chunk.length ≤ limit := by
  induction h with
  | done => exact List.forall_mem_nil _
  | cut hcut _ ih =>
    intro p hp
    rcases List.mem_cons.mp hp with rfl | hp
    · exact ⟨hcut.toLosesBlanks, hcut.length_le⟩
    · exact ih p hp

/-! ## Chunks -/

/-- Every text is split in finitely many turns, no more than it has characters, into chunks that fit. It is
cut where `IsCut` says, as long as what remains does not fit. -/
theorem split_fits {limit : Nat} (hlimit : 0 < limit) (text : List Char) :
    (∃ pieces last, Splits limit text pieces last ∧ last.length ≤ limit) ∧
      (∀ pieces last, Splits limit text pieces last → pieces.length ≤ text.length ∧
        (last.length ≤ limit → split limit text = if pieces.isEmpty then [text]
          else pieces.map Piece.chunk ++ if last.isEmpty then [] else [last])) ∧
      ∀ chunk ∈ split limit text, chunk.length ≤ limit := by
  refine ⟨exists_splits hlimit text, ?_, ?_⟩
  · intro pieces last h
    have hle := h.length_le hlimit
    exact ⟨by omega, h.split_eq hlimit⟩
  · intro chunk hchunk
    obtain ⟨pieces, last, h, hlast⟩ := exists_splits hlimit text
    rw [h.split_eq hlimit hlast] at hchunk
    split at hchunk
    · rename_i hnil
      rw [List.isEmpty_iff] at hnil
      rw [List.mem_singleton.mp hchunk, h.text_eq, hnil]
      exact hlast
    · rcases List.mem_append.mp hchunk with hchunk | hchunk
      · obtain ⟨p, hp, rfl⟩ := List.mem_map.mp hchunk
        exact (h.forall_mem p hp).2
      · split at hchunk
        · cases hchunk
        · rwa [List.mem_singleton.mp hchunk]

theorem split_fits_lines :
    0 < 15 ∧ (∃ pieces last, Splits 15 "aaaaaaaaaa\nbbbbbbbbbb".toList pieces last ∧ last.length ≤ 15) ∧
      (∀ pieces last, Splits 15 "aaaaaaaaaa\nbbbbbbbbbb".toList pieces last → pieces.length ≤ 21 ∧
        (last.length ≤ 15 → split 15 "aaaaaaaaaa\nbbbbbbbbbb".toList =
          if pieces.isEmpty then ["aaaaaaaaaa\nbbbbbbbbbb".toList]
          else pieces.map Piece.chunk ++ if last.isEmpty then [] else [last])) ∧
      ∀ chunk ∈ split 15 "aaaaaaaaaa\nbbbbbbbbbb".toList, chunk.length ≤ 15 :=
  ⟨by decide, split_fits (by decide) _⟩

/-- There is a piece for each chunk, and together they make up the text. -/
theorem exists_pieces {limit : Nat} (hlimit : 0 < limit) (text : List Char) :
    ∃ pieces : List Piece, split limit text = pieces.map Piece.chunk ∧
      (∀ p ∈ pieces, p.LosesBlanks) ∧ text = pieces.flatMap Piece.text := by
  obtain ⟨pieces, last, h, hlast⟩ := exists_splits hlimit text
  have hwhole (cs : List Char) : (Piece.mk cs [] []).LosesBlanks :=
    ⟨List.forall_mem_nil _, List.forall_mem_nil _⟩
  have hpieces : ∀ p ∈ pieces, p.LosesBlanks := fun p hp => (h.forall_mem p hp).1
  have htext := h.text_eq
  rw [h.split_eq hlimit hlast]
  split
  · refine ⟨[⟨text, [], []⟩], rfl, ?_, by simp [Piece.text]⟩
    intro p hp
    rw [List.mem_singleton.mp hp]
    exact hwhole text
  split
  · rename_i hnil
    rw [List.isEmpty_iff.mp hnil, List.append_nil] at htext
    exact ⟨pieces, by rw [List.append_nil], hpieces, htext⟩
  · refine ⟨pieces ++ [⟨last, [], []⟩], by rw [List.map_append, List.map_singleton], ?_, ?_⟩
    · intro p hp
      rcases List.mem_append.mp hp with hp | hp
      · exact hpieces p hp
      · rw [List.mem_singleton.mp hp]
        exact hwhole last
    · have hself : [Piece.mk last [] []].flatMap Piece.text = last := by simp [Piece.text]
      rw [List.flatMap_append, hself, ← htext]

/-- The characters of a piece that are not blank are those of its chunk. -/
theorem Piece.LosesBlanks.filter_text {p : Piece} (h : p.LosesBlanks) :
    p.text.filter (!isBlank ·) = p.chunk.filter (!isBlank ·) := by
  have hblanks : p.blanks.filter (!isBlank ·) = [] := by
    rw [List.filter_eq_nil_iff]
    intro c hc
    simp [h.blanks c hc]
  have hlineEnds : p.lineEnds.filter (!isBlank ·) = [] := by
    rw [List.filter_eq_nil_iff]
    intro c hc
    rw [h.lineEnds c hc]
    decide
  rw [Piece.text, List.filter_append, List.filter_append, hblanks, hlineEnds, List.append_nil,
    List.append_nil]

/-- The text is its chunks in their order, with blanks behind each of them, and line ends behind these; so
no other characters are lost. A text that fits is its own only chunk. -/
theorem split_loses_only_blanks {limit : Nat} (hlimit : 0 < limit) (text : List Char) :
    (∃ pieces : List Piece, split limit text = pieces.map Piece.chunk ∧
        (∀ p ∈ pieces, p.LosesBlanks) ∧ text = pieces.flatMap Piece.text) ∧
      (split limit text).flatten.filter (!isBlank ·) = text.filter (!isBlank ·) ∧
      (text.length ≤ limit → split limit text = [text]) := by
  obtain ⟨pieces, hsplit, hpieces, htext⟩ := exists_pieces hlimit text
  refine ⟨⟨pieces, hsplit, hpieces, htext⟩, ?_, fun hfits => by rw [split, if_pos hfits]⟩
  rw [hsplit, htext]
  clear hsplit htext
  induction pieces with
  | nil => rfl
  | cons p pieces ih =>
    obtain ⟨hp, hrest⟩ := List.forall_mem_cons.mp hpieces
    rw [List.map_cons, List.flatten_cons, List.flatMap_cons, List.filter_append, List.filter_append,
      ih hrest, hp.filter_text]

theorem split_loses_only_blanks_lines :
    0 < 8 ∧ (∃ pieces : List Piece, split 8 "hello  \n\n world  ".toList = pieces.map Piece.chunk ∧
        (∀ p ∈ pieces, p.LosesBlanks) ∧ "hello  \n\n world  ".toList = pieces.flatMap Piece.text) ∧
      (split 8 "hello  \n\n world  ".toList).flatten.filter (!isBlank ·) = "helloworld".toList ∧
      (17 ≤ 8 → split 8 "hello  \n\n world  ".toList = ["hello  \n\n world  ".toList]) :=
  ⟨by decide, split_loses_only_blanks (by decide) "hello  \n\n world  ".toList⟩

end Courier.Message
