/-!
# Binary floating-point numbers

The numbers of the 64-bit binary format, as exact values: a sign, a whole number below `2 ^ 53` and
a power of two. All arithmetic here is on whole numbers; the only rounding is to the nearest number
of the format, a tie going to the even neighbour.
-/

namespace Courier.Number

inductive Binary64 where
  | nan
  | infinite (negative : Bool)
  /-- The number `mantissa * 2 ^ exponent` with a sign, which zero has too. -/
  | finite (negative : Bool) (mantissa : Nat) (exponent : Int)
deriving DecidableEq, Repr

/-- A positive quotient of whole numbers. -/
structure Ratio where
  num : Nat
  den : Nat
deriving DecidableEq, Repr

def Ratio.scale (base : Nat) (exponent : Int) (q : Ratio) : Ratio :=
  match exponent with
  | .ofNat e => ⟨q.num * base.pow e, q.den⟩
  | .negSucc e => ⟨q.num, q.den * base.pow (e + 1)⟩

def Ratio.lt (q r : Ratio) : Bool :=
  q.num * r.den < r.num * q.den

/-- The nearest whole number, a tie going to the even one. -/
def Ratio.round (q : Ratio) : Nat :=
  let floor := q.num / q.den
  let twice := 2 * (q.num % q.den)
  if q.den < twice || (twice == q.den && floor % 2 == 1) then floor + 1 else floor

namespace Binary64

/-- The highest bit of the mantissa of a number that is not close to zero, `2 ^ 52`. -/
def leadingBit : Nat := 4503599627370496

/-- The least exponent of two. -/
def minExponent : Int := -1074

def maxExponent : Int := 971

def zero (negative : Bool) : Binary64 :=
  .finite negative 0 minExponent

/-- The exponent `l` with `2 ^ l ≤ q < 2 ^ (l + 1)`, for a quotient that is not zero. -/
def floorLog2 (q : Ratio) : Int :=
  let l : Int := q.num.log2 - q.den.log2
  if q.lt (Ratio.scale 2 l ⟨1, 1⟩) then l - 1 else l

def ofRatio (negative : Bool) (q : Ratio) : Binary64 :=
  if q.num = 0 then zero negative
  else
    let e := max (floorLog2 q - 52) minExponent
    let m := (q.scale 2 (-e)).round
    let (m, e) := if m = 2 * leadingBit then (leadingBit, e + 1) else (m, e)
    if maxExponent < e then .infinite negative else .finite negative m e

/-- The number nearest to `digits * 10 ^ exponent`. The size of the number is looked at first, so
that a huge exponent does not make huge numbers. -/
def ofDecimal (negative : Bool) (digits : Nat) (exponent : Int) : Binary64 :=
  if digits = 0 then zero negative
  else
    let size : Int := (toString digits).length + exponent
    if 310 < size then .infinite negative
    else if size < -400 then zero negative
    else ofRatio negative (Ratio.scale 10 exponent ⟨digits, 1⟩)

/-- The number nearest to a whole number; one that is too large has an infinite one. -/
def ofInt (n : Int) : Binary64 :=
  ofRatio (n < 0) ⟨n.natAbs, 1⟩

def isInfinite : Binary64 → Bool
  | .infinite _ => true
  | _ => false

def ratio (mantissa : Nat) (exponent : Int) : Ratio :=
  Ratio.scale 2 exponent ⟨mantissa, 1⟩

def isZero : Binary64 → Bool
  | .finite _ 0 _ => true
  | _ => false

/-- Whether the number is less than zero or equal to it. -/
def isNonPositive : Binary64 → Bool
  | .nan => false
  | .infinite negative => negative
  | .finite negative mantissa _ => negative || mantissa == 0

/-- The whole part, the fraction being cut off. -/
def truncate? : Binary64 → Option Int
  | .finite negative mantissa exponent =>
    let q := ratio mantissa exponent
    let whole : Int := (q.num / q.den : Nat)
    some (if negative then -whole else whole)
  | _ => none

/-- The number without its whole part, with the sign of the number. -/
def fraction : Binary64 → Binary64
  | .finite negative mantissa exponent =>
    let q := ratio mantissa exponent
    ofRatio negative ⟨q.num % q.den, q.den⟩
  | x => x

def timesNat (x : Binary64) (n : Nat) : Binary64 :=
  match x with
  | .finite negative mantissa exponent =>
    let q := ratio mantissa exponent
    ofRatio negative ⟨q.num * n, q.den⟩
  | x => x

/-- The nearest whole number, a tie going to the even one. -/
def round? : Binary64 → Option Int
  | .finite negative mantissa exponent =>
    let whole : Int := ((ratio mantissa exponent).round : Nat)
    some (if negative then -whole else whole)
  | _ => none

end Binary64

end Courier.Number
