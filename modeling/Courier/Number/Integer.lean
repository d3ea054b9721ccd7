import Courier.Text.Blank
import Courier.Text.Digit

/-!
# Reading whole numbers

A whole number is written with decimal digits of any script, an optional sign, and blanks around
it. One underscore may stand between two digits. Texts of more than `digitLimit` digits are refused
so that reading takes bounded time, and numbers of more digits have no text.
-/

namespace Courier.Number

/-- The largest number of digits that is read or written. -/
def digitLimit : Nat := 4300

inductive ReadError where
  | malformed
  | tooLong (digits : Nat)
deriving DecidableEq, Repr

/-- The blanks allowed around a number: every blank but the four separator controls. -/
def isPadding (c : Char) : Bool :=
  Text.isBlank c && !(0x1c ≤ c.toNat && c.toNat ≤ 0x1f)

/-- The digits at the front, newest first in `read`, and what follows them. `gap` tells that a digit
has to come next. -/
def digitsFrom (read : List Nat) (gap : Bool) : List Char → Option (List Nat × List Char)
  | [] => if gap then none else some (read.reverse, [])
  | c :: rest =>
    match Text.digitValue? c with
    | some d => digitsFrom (d :: read) false rest
    | none =>
      if gap then none
      else if c = '_' then digitsFrom read true rest
      else some (read.reverse, c :: rest)

def ofDigits (digits : List Nat) : Nat :=
  digits.foldl (fun n d => 10 * n + d) 0

def readUnsigned (cs : List Char) : Except ReadError Nat :=
  match digitsFrom [] true cs with
  | none => .error .malformed
  | some (digits, rest) =>
    if digitLimit < digits.length then .error (.tooLong digits.length)
    else if rest.all isPadding then .ok (ofDigits digits)
    else .error .malformed

def readInt (cs : List Char) : Except ReadError Int :=
  match cs.dropWhile isPadding with
  | '-' :: rest => (readUnsigned rest).map (- Int.ofNat ·)
  | '+' :: rest => (readUnsigned rest).map Int.ofNat
  | rest => (readUnsigned rest).map Int.ofNat

/-- A number with at least `width` digits, filled up with zeros. -/
def padded (width n : Nat) : String :=
  let digits := toString n
  "".pushn '0' (width - digits.length) ++ digits

end Courier.Number
