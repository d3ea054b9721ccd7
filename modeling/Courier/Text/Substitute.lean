/-!
# Replacing parts of a text

Parts of a text are found from left to right. What a part is replaced by is not searched again, and
neither is the part itself.
-/

namespace Courier.Text

/-- A part of a text that was found: the number of its characters behind the first one, and the
characters that take its place. -/
structure Found where
  more : Nat
  replacement : List Char

/-- Replaces what `find` finds. The characters of a part that was found are passed over; `before` is
the character in front of the rest. -/
def substituteFrom (find : Option Char → List Char → Option Found) :
    Option Char → Nat → List Char → List Char
  | _, _, [] => []
  | _, passed + 1, c :: rest => substituteFrom find (some c) passed rest
  | before, 0, c :: rest =>
    match find before (c :: rest) with
    | some found => found.replacement ++ substituteFrom find (some c) found.more rest
    | none => c :: substituteFrom find (some c) 0 rest

def substitute (find : Option Char → List Char → Option Found) (cs : List Char) : List Char :=
  substituteFrom find none 0 cs

end Courier.Text
