import Courier.Text.Blank

/-!
# Splitting long messages

A text that is longer than a limit is cut into chunks that fit. Each cut is made at the last line
end within the limit, or at the limit itself where there is none. Blanks at the end of a chunk and
line ends behind it are left out.
-/

namespace Courier.Message

/-- The place of the last line end of a text, 0 if there is none. -/
def lastLineEnd (cs : List Char) : Nat :=
  match cs.reverse.findIdx? (· == '\n') with
  | some i => cs.length - 1 - i
  | none => 0

/-- Where a text that is longer than the limit is cut. -/
def cutAt (limit : Nat) (cs : List Char) : Nat :=
  let lineEnd := lastLineEnd (cs.take limit)
  if lineEnd = 0 then limit else lineEnd

def afterCut (limit : Nat) (cs : List Char) : List Char :=
  (cs.drop (cutAt limit cs)).dropWhile (· == '\n')

theorem cutAt_pos {limit : Nat} (h : 0 < limit) (cs : List Char) : 0 < cutAt limit cs := by
  simp only [cutAt]
  split <;> omega

theorem afterCut_length_lt {limit : Nat} {cs : List Char} (h : 0 < limit)
    (hl : limit < cs.length) : (afterCut limit cs).length < cs.length := by
  have hc := cutAt_pos h cs
  have hd : (afterCut limit cs).length ≤ (cs.drop (cutAt limit cs)).length :=
    (List.dropWhile_sublist _).length_le
  rw [List.length_drop] at hd
  omega

/-- The chunks of a text. With a limit of zero a cut may leave all of the text; such a text is not
cut. -/
def chunksOf (limit : Nat) (cs : List Char) : List (List Char) :=
  if limit < cs.length ∧ (afterCut limit cs).length < cs.length then
    Text.dropEndWhile Text.isBlank (cs.take (cutAt limit cs)) :: chunksOf limit (afterCut limit cs)
  else if cs.isEmpty then []
  else [cs]
termination_by cs.length
decreasing_by omega

/-- The chunks of a text. A text that fits is its own only chunk, even if it is empty. -/
def split (limit : Nat) (cs : List Char) : List (List Char) :=
  if cs.length ≤ limit then [cs] else chunksOf limit cs

def textLimit : Nat := 3900

end Courier.Message
