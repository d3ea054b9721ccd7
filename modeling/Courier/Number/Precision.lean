import Courier.Number.Integer
import Courier.Number.Shortest

/-!
# Numbers of a given precision

A number is written with as many digits behind the point, or with as many digits in all, as are asked
for. Its exact value is rounded for that, a tie going to the even digit.
-/

namespace Courier.Number

/-- Digits with a point among them, and the power of ten that is written behind them, if any. -/
structure Places where
  whole : List Char
  fraction : List Char
  power : Option Int
deriving DecidableEq, Repr

namespace Places

/-- The digits of `n`, the last `count` of them behind the point. -/
def pointed (count n : Nat) : Places :=
  let digits := (padded (count + 1) n).toList
  let before := digits.length - count
  ⟨digits.take before, digits.drop before, none⟩

def withoutZeros (p : Places) : Places :=
  { p with fraction := (p.fraction.reverse.dropWhile (· == '0')).reverse }

/-- The text of the digits. The point is left out if nothing is behind it, unless it is to be kept. -/
def text (keepPoint : Bool) (p : Places) : List Char :=
  let fraction := if p.fraction.isEmpty && !keepPoint then [] else '.' :: p.fraction
  let power := (p.power.map fun e => (exponentText e).toList).getD []
  p.whole ++ fraction ++ power

end Places

/-- How a number is written: with one digit before the point and a power of ten, with the point in its
place, or in the one or the other way as its size is. -/
inductive Style where
  | scientific
  | fixed
  | general
deriving DecidableEq, Repr

namespace Binary64

/-- The number nearest to it that has `count` digits, as a whole number, and the power of ten of its
first digit. -/
def leading (mantissa : Nat) (exponent : Int) (count : Nat) : Nat × Int :=
  if mantissa = 0 then (0, 0)
  else
    let point := decimalPoint mantissa exponent
    let n := (Ratio.scale 10 (count - point) (ratio mantissa exponent)).round
    -- All digits may be nines, and the rounding carry into one more.
    if n = Nat.pow 10 count then (Nat.pow 10 (count - 1), point) else (n, point - 1)

def scientific (mantissa : Nat) (exponent : Int) (precision : Nat) : Places :=
  let (n, power) := leading mantissa exponent (precision + 1)
  { Places.pointed precision n with power := some power }

def fixed (mantissa : Nat) (exponent : Int) (precision : Nat) : Places :=
  Places.pointed precision (Ratio.scale 10 precision (ratio mantissa exponent)).round

/-- The precision counts all digits here, of which there is at least one. -/
def general (mantissa : Nat) (exponent : Int) (precision : Nat) : Places :=
  let count := max 1 precision
  let (n, power) := leading mantissa exponent count
  if -4 ≤ power ∧ power < count then Places.pointed (count - 1 - power).toNat n
  else { Places.pointed (count - 1) n with power := some power }

/-- The text of a number without its sign. Zeros at the end are left out in the general style, unless
the point is to be kept. -/
def magnitude (style : Style) (precision : Nat) (keepPoint : Bool) : Binary64 → List Char
  | .nan => ['n', 'a', 'n']
  | .infinite _ => ['i', 'n', 'f']
  | .finite _ mantissa exponent =>
    match style with
    | .scientific => (scientific mantissa exponent precision).text keepPoint
    | .fixed => (fixed mantissa exponent precision).text keepPoint
    | .general =>
      let p := general mantissa exponent precision
      (if keepPoint then p else p.withoutZeros).text keepPoint

/-- Whether the number is written with a minus. -/
def isNegative : Binary64 → Bool
  | .nan => false
  | .infinite negative => negative
  | .finite negative _ _ => negative

end Binary64

end Courier.Number
