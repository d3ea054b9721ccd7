import Courier.Number.Precision
import Courier.Value.Display

/-!
# Patterns of messages

A message with arguments is a pattern. Each percent sign in it starts a directive, and what the
directive says of an argument stands in its place. A directive has these parts, of which only the last
one is needed: the name of an argument in brackets, flags, a width, a precision behind a point, a letter
for a size that has no meaning, and the letter of a conversion.
-/

namespace Courier.Log

/-! ## Arguments -/

/-- The values that come next, and the named values if the arguments have names. -/
structure Supply where
  next : List Value
  names : Option Entries

namespace Supply

/-- A single object with entries gives names to choose from, and is a value itself. -/
def ofArgs : List Value → Supply
  | [.object entries] => ⟨[.object entries], if entries.isEmpty then none else some entries⟩
  | args => ⟨args, none⟩

def take (s : Supply) : Option (Value × Supply) :=
  match s.next with
  | [] => none
  | v :: rest => some (v, { s with next := rest })

/-- The value of the name is the only one that comes next. -/
def choose (name : String) (s : Supply) : Option Supply := do
  let v ← Entries.get? (← s.names) name
  return { s with next := [v] }

/-- Whether no value is left over. Named ones need not be used. -/
def isSpent (s : Supply) : Bool :=
  s.next.isEmpty || s.names.isSome

end Supply

/-! ## Directives -/

/-- What a directive says about the text of its value. -/
structure Directive where
  /-- Blanks come behind the text instead of before it. -/
  left : Bool
  /-- A number that is not negative has a plus. -/
  signed : Bool
  /-- A number that is not negative has a blank for its sign. -/
  spaced : Bool
  /-- A number shows its base, or its point if nothing is behind it. -/
  marked : Bool
  /-- A number is filled up with zeros. -/
  zeroed : Bool
  width : Nat
  precision : Option Nat
deriving DecidableEq, Repr

namespace Directive

def plain : Directive :=
  ⟨false, false, false, false, false, 0, none⟩

/-- The name up to the bracket that closes it, and what follows; `depth` counts the brackets that are
open in it. -/
def nameFrom (depth : Nat) (read : List Char) : List Char → Option (String × List Char)
  | [] => none
  | c :: rest =>
    if c = '(' then nameFrom (depth + 1) (c :: read) rest
    else if c = ')' then
      match depth with
      | 0 => some (String.ofList read.reverse, rest)
      | depth + 1 => nameFrom depth (c :: read) rest
    else nameFrom depth (c :: read) rest

def readName (s : Supply) : List Char → Option (Supply × List Char)
  | '(' :: rest => do
    let (name, rest) ← nameFrom 0 [] rest
    return (← s.choose name, rest)
  | cs => some (s, cs)

def readFlags (d : Directive) : List Char → Directive × List Char
  | '-' :: rest => readFlags { d with left := true } rest
  | '+' :: rest => readFlags { d with signed := true } rest
  | ' ' :: rest => readFlags { d with spaced := true } rest
  | '#' :: rest => readFlags { d with marked := true } rest
  | '0' :: rest => readFlags { d with zeroed := true } rest
  | cs => (d, cs)

/-- The whole number of a value, where a truth value is 0 or 1. -/
def whole? : Value → Option Int
  | .int n => some n
  | .bool b => some (if b then 1 else 0)
  | _ => none

def digitsFrom (n : Nat) : List Char → Nat × List Char
  | [] => (n, [])
  | c :: rest =>
    if c.isDigit then digitsFrom (10 * n + (c.toNat - '0'.toNat)) rest else (n, c :: rest)

/-- A number in digits, or a star for the next value. Without digits it is zero. -/
def readNumber (s : Supply) : List Char → Option (Int × Supply × List Char)
  | '*' :: rest => do
    let (v, s) ← s.take
    return (← whole? v, s, rest)
  | cs =>
    let (n, rest) := digitsFrom 0 cs
    some (Int.ofNat n, s, rest)

/-- A number that fits into a machine word, which holds those from `-bound` up to below `bound`. -/
def readCount (bound : Int) (s : Supply) (cs : List Char) : Option (Int × Supply × List Char) := do
  let (n, s, rest) ← readNumber s cs
  if -bound ≤ n ∧ n < bound then some (n, s, rest) else none

def widthBound : Int := 9223372036854775808

def precisionBound : Int := 2147483648

/-- A negative width is one with the text at the left. -/
def readWidth (d : Directive) (s : Supply) (cs : List Char) :
    Option (Directive × Supply × List Char) := do
  let (n, s, rest) ← readCount widthBound s cs
  -- The least number of a machine word has no opposite in it, and asks for no width.
  let width := if n = -widthBound then 0 else n.natAbs
  return ({ d with left := d.left || n < 0, width }, s, rest)

/-- A negative precision is none at all. -/
def readPrecision (d : Directive) (s : Supply) : List Char → Option (Directive × Supply × List Char)
  | '.' :: rest => do
    let (n, s, rest) ← readCount precisionBound s rest
    return ({ d with precision := some n.toNat }, s, rest)
  | cs => some (d, s, cs)

def passSize : List Char → List Char
  | 'h' :: rest | 'l' :: rest | 'L' :: rest => rest
  | cs => cs

/-- The directive behind a percent sign up to its conversion. -/
def read (s : Supply) (cs : List Char) : Option (Directive × Supply × List Char) := do
  let (s, rest) ← readName s cs
  let (d, rest) := readFlags plain rest
  let (d, s, rest) ← readWidth d s rest
  let (d, s, rest) ← readPrecision d s rest
  return (d, s, passSize rest)

/-! ## Layout -/

/-- The text with blanks up to the width. -/
def pad (d : Directive) (cs : List Char) : List Char :=
  let blanks := List.replicate (d.width - cs.length) ' '
  if d.left then cs ++ blanks else blanks ++ cs

/-- The beginning of the text, as far as the precision allows. -/
def clip (d : Directive) (cs : List Char) : List Char :=
  d.pad ((d.precision.map cs.take).getD cs)

def sign (d : Directive) (negative : Bool) : List Char :=
  if negative then ['-'] else if d.signed then ['+'] else if d.spaced then [' '] else []

/-- A number up to the width. Blanks come before its sign and the mark of its base, zeros behind
them. -/
def lay (d : Directive) (negative : Bool) (mark digits : List Char) : List Char :=
  let front := d.sign negative ++ mark
  if d.zeroed && !d.left then
    front ++ List.replicate (d.width - (front.length + digits.length)) '0' ++ digits
  else
    d.pad (front ++ digits)

/-- A whole number in a base, with at least as many digits as the precision says. -/
def numeral (d : Directive) (base : Nat) (mark : List Char) (n : Int) : Option (List Char) :=
  let digits := Nat.toDigits base n.natAbs
  let precision := d.precision.getD 0
  if precision + 3 < precisionBound then
    some (d.lay (n < 0) (if d.marked then mark else [])
      (List.replicate (precision - digits.length) '0' ++ digits))
  else none

/-- A number that is not whole, with six digits unless the precision says otherwise. -/
def real (d : Directive) (style : Number.Style) (x : Number.Binary64) : List Char :=
  d.lay x.isNegative [] (x.magnitude style (d.precision.getD 6) d.marked)

end Directive

/-! ## Conversions -/

inductive Conversion where
  | shown
  | quoted
  | ascii
  | decimal
  | octal
  | hexadecimal (capital : Bool)
  | real (style : Number.Style) (capital : Bool)
  | character
deriving DecidableEq, Repr

namespace Conversion

def ofLetter? : Char → Option Conversion
  | 's' => some shown
  | 'r' => some quoted
  | 'a' => some ascii
  | 'd' | 'i' | 'u' => some decimal
  | 'o' => some octal
  | 'x' => some (hexadecimal false)
  | 'X' => some (hexadecimal true)
  | 'e' => some (real .scientific false)
  | 'E' => some (real .scientific true)
  | 'f' => some (real .fixed false)
  | 'F' => some (real .fixed true)
  | 'g' => some (real .general false)
  | 'G' => some (real .general true)
  | 'c' => some character
  | _ => none

/-- The text with its characters outside ASCII written as escapes. -/
def escaped (s : String) : List Char :=
  s.toList.flatMap fun c => if c.toNat < 0x80 then [c] else Text.escapeByCode c

/-- The whole number of a value whose fraction is cut off. -/
def truncated? : Value → Option Int
  | .float x => x.truncate?
  | v => Directive.whole? v

/-- The number of a value, if it is not too large. -/
def real? : Value → Option Number.Binary64
  | .float x => some x
  | v => do
    let x := Number.Binary64.ofInt (← Directive.whole? v)
    if x.isInfinite then none else some x

/-- The character that a value is, or whose number it is. -/
def character? : Value → Option Char
  | .text s =>
    match s.toList with
    | [c] => some c
    | _ => none
  | v => do
    let n ← Directive.whole? v
    if 0 ≤ n ∧ n.toNat.isValidChar then some (Char.ofNat n.toNat) else none

def capitals (capital : Bool) (cs : List Char) : List Char :=
  if capital then cs.map Char.toUpper else cs

/-- What a directive with this conversion makes of a value; none if the value is not of its kind, or has
no text. -/
def write (d : Directive) (v : Value) : Conversion → Option (List Char)
  | shown => v.display?.map fun s => d.clip s.toList
  | quoted => v.quoted?.map fun s => d.clip s.toList
  | ascii => v.quoted?.map fun s => d.clip (escaped s)
  | decimal => do
    let n ← truncated? v
    if (Value.int n).isOverlong then none else d.numeral 10 [] n
  | octal => do
    d.numeral 8 ['0', 'o'] (← Directive.whole? v)
  | hexadecimal capital => do
    return capitals capital (← d.numeral 16 ['0', 'x'] (← Directive.whole? v))
  | real style capital => do
    return capitals capital (d.real style (← real? v))
  | character => do
    return d.pad [← character? v]

end Conversion

/-! ## Messages -/

/-- What stands for the directive behind a percent sign, and what follows it. A second percent sign
stands for itself and takes no value. -/
def fillOne (s : Supply) : List Char → Option (List Char × Supply × List Char)
  | '%' :: rest => some (['%'], s, rest)
  | cs => do
    let (d, s, rest) ← Directive.read s cs
    match rest with
    | [] => none
    | letter :: rest =>
      let conversion ← Conversion.ofLetter? letter
      let (v, s) ← s.take
      return (← conversion.write d v, s, rest)

/-- Fills a pattern with values. The characters of a directive that was read are passed over. -/
def fillFrom (passed : Nat) (s : Supply) : List Char → Option (List Char × Supply)
  | [] => some ([], s)
  | c :: rest =>
    match passed with
    | passed + 1 => fillFrom passed s rest
    | 0 =>
      if c = '%' then do
        let (written, s, after) ← fillOne s rest
        let (text, s) ← fillFrom (rest.length - after.length) s rest
        return (written ++ text, s)
      else do
        let (text, s) ← fillFrom 0 s rest
        return (c :: text, s)

/-- The text of a message with its arguments. There is none if a directive is not complete, if its value
is missing or of another kind, or if a value is left over. -/
def format (message : Value) (args : List Value) : Option String := do
  let pattern ← message.display?
  if args.isEmpty then return pattern
  else
    let (text, s) ← fillFrom 0 (.ofArgs args) pattern.toList
    if s.isSpent then some (String.ofList text) else none

end Courier.Log
