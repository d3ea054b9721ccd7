import Courier.Number.Binary64

/-!
# Decimal text of binary numbers

A number is written with the fewest digits that read back as the same number, and of those texts
the nearest one. Between ten-thousandths and `10 ^ 16` the point stands at its place; outside, the
text has one digit before the point and a power of ten. `rounded` writes a number with a given count
of digits instead.
-/

namespace Courier.Number

/-- The decimal number `0.d₁d₂… * 10 ^ point` of the digits `d₁d₂…`. -/
structure Decimal where
  digits : List Char
  point : Int
deriving DecidableEq, Repr

/-- The decimal of `n * 10 ^ exponent`, without the zeros at the end of `n`. -/
def Decimal.ofScaled (n : Nat) (exponent : Int) : Decimal :=
  let digits := (toString n).toList
  { digits := (digits.reverse.dropWhile (· == '0')).reverse, point := digits.length + exponent }

namespace Binary64

/-- The exponent `p` with `10 ^ (p - 1) ≤ q < 10 ^ p`, for a finite number that is not zero. -/
def decimalPoint (mantissa : Nat) (exponent : Int) : Int :=
  let low := ((mantissa.log2 + exponent) * 30103).fdiv 100000
  if (ratio mantissa exponent).lt (Ratio.scale 10 (low + 1) ⟨1, 1⟩) then low + 1 else low + 2

/-- The bounds of the reals that round to a number, in quarters of its last place. -/
def neighbourhood (mantissa : Nat) (exponent : Int) : Nat × Nat :=
  let below := if mantissa = leadingBit ∧ minExponent < exponent then 1 else 2
  (4 * mantissa - below, 4 * mantissa + 2)

/-- The decimal of `count` digits that is nearest to the number and reads back as it, if any. -/
def decimalOf? (mantissa : Nat) (exponent : Int) (count : Nat) : Option Decimal :=
  let place := decimalPoint mantissa exponent - count
  let value := Ratio.scale 10 (-place) (ratio mantissa exponent)
  let (low, high) := neighbourhood mantissa exponent
  let lowest := Ratio.scale 10 (-place) (ratio low (exponent - 2))
  let highest := Ratio.scale 10 (-place) (ratio high (exponent - 2))
  let closed := mantissa % 2 == 0
  let reads (n : Nat) : Bool :=
    let q : Ratio := ⟨n, 1⟩
    if closed then !q.lt lowest && !highest.lt q else lowest.lt q && q.lt highest
  let floor := value.num / value.den
  let nearest := value.round
  let other := if nearest = floor then floor + 1 else floor
  if reads nearest then some (Decimal.ofScaled nearest place)
  else if reads other then some (Decimal.ofScaled other place)
  else none

/-- The shortest decimal that reads back as the number; seventeen digits always do. -/
def shortest (mantissa : Nat) (exponent : Int) : Decimal :=
  match (List.range 17).findSome? fun n => decimalOf? mantissa exponent (n + 1) with
  | some d => d
  | none => ⟨['0'], 1⟩

/-- The nearest decimal of `count` digits, a tie going up. -/
def rounded (mantissa : Nat) (exponent : Int) (count : Nat) : Decimal :=
  let place := decimalPoint mantissa exponent - count
  let value := Ratio.scale 10 (-place) (ratio mantissa exponent)
  Decimal.ofScaled ((2 * value.num + value.den) / (2 * value.den)) place

end Binary64

/-- How a decimal is laid out: the greatest power of ten that is written with the point in its
place, and whether a whole mantissa before a power of ten keeps a zero behind the point. -/
structure Layout where
  positionalBelow : Int
  keepZero : Bool

def Decimal.positional (d : Decimal) : String :=
  let count : Int := d.digits.length
  if d.point ≤ 0 then
    "0." ++ "".pushn '0' (-d.point).toNat ++ String.ofList d.digits
  else if count ≤ d.point then
    String.ofList d.digits ++ "".pushn '0' (d.point - count).toNat ++ ".0"
  else
    String.ofList (d.digits.take d.point.toNat) ++ "." ++
      String.ofList (d.digits.drop d.point.toNat)

def exponentText (e : Int) : String :=
  let size := e.natAbs
  (if e < 0 then "e-" else "e+") ++ (if size < 10 then "0" else "") ++ toString size

def Decimal.scientific (keepZero : Bool) (d : Decimal) : String :=
  let fraction :=
    match d.digits.tail with
    | [] => if keepZero then ".0" else ""
    | ds => "." ++ String.ofList ds
  String.ofList (d.digits.take 1) ++ fraction ++ exponentText (d.point - 1)

def Decimal.text (layout : Layout) (d : Decimal) : String :=
  if -4 < d.point ∧ d.point ≤ layout.positionalBelow then d.positional
  else d.scientific layout.keepZero

namespace Binary64

/-- Numbers below `10 ^ 16` have the point in its place. -/
def plainLayout : Layout := ⟨16, false⟩

/-- Columns of text keep fifteen digits of a number and always a digit behind the point. -/
def columnLayout : Layout := ⟨15, true⟩

def signText (negative : Bool) : String :=
  if negative then "-" else ""

/-- The text of a number, in the fewest digits that read back. -/
def text : Binary64 → String
  | .nan => "nan"
  | .infinite negative => signText negative ++ "inf"
  | .finite negative 0 _ => signText negative ++ "0.0"
  | .finite negative mantissa exponent =>
    signText negative ++ (shortest mantissa exponent).text plainLayout

/-- The text of a number in a column of text, where a number that is not one has none. -/
def columnText? : Binary64 → Option String
  | .nan => none
  | .infinite negative => some (signText negative ++ "Inf")
  | .finite _ 0 _ => some "0.0"
  | .finite negative mantissa exponent =>
    some (signText negative ++ (rounded mantissa exponent 15).text columnLayout)

end Binary64

end Courier.Number
