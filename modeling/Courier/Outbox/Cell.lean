import Courier.Value.Convert

/-!
# Cells

What a column of the store holds: nothing, a whole number of 64 bits, a binary number or a text. A
column of whole numbers turns a text or a number that shows a whole number into it. A column of text
turns numbers into their texts.
-/

namespace Courier.Outbox

inductive Cell where
  | null
  | int (n : Int)
  | real (x : Number.Binary64)
  | text (s : String)
deriving DecidableEq, Repr

namespace Cell

/-- Whole numbers of 64 bits, from `-wordBound` to `wordBound - 1`. -/
def wordBound : Int := 9223372036854775808

def isWord (n : Int) : Bool :=
  -wordBound ≤ n && n < wordBound

/-- A parameter of a statement; parameters are counted from one. -/
def ofParameter (index : Nat) : Value → Except Failure Cell
  | .null => .ok null
  | .bool b => .ok (int (if b then 1 else 0))
  | .int n => if isWord n then .ok (int n) else .error .columnIntegerTooLarge
  | .float x => .ok (if x = .nan then null else real x)
  | .text s => .ok (text s)
  | .date d => .ok (text d.isoText)
  | .moment m => .ok (text m.text)
  | v => .error (.unsupportedParameter index v.kindName)

/-! ## Columns of whole numbers -/

/-- A binary number, as a whole number if it is one. -/
def ofReal (x : Number.Binary64) : Cell :=
  match x.truncate? with
  | some n =>
    if x.fraction.isZero ∧ -wordBound < n ∧ n < wordBound - 1 then int n else real x
  | none => real x

def isSpace (c : Char) : Bool :=
  c == ' ' || ('\t' ≤ c && c ≤ '\r')

/-- The number that a text shows, if it is a decimal number with blanks around it. -/
def ofNumber? (s : String) : Option Cell :=
  let cs := Text.trimWhile isSpace s.toList
  let (negative, cs) := Json.takeSign cs
  let whole := cs.takeWhile Json.isDigit
  let rest := cs.drop whole.length
  let (pointed, places, rest) :=
    match rest with
    | '.' :: more =>
      let ds := more.takeWhile Json.isDigit
      (true, ds, more.drop ds.length)
    | _ => (false, [], rest)
  if whole.isEmpty ∧ places.isEmpty then none
  else
    let n := Json.digitsValue (whole ++ places)
    match rest, Json.takeExponent rest with
    | [], _ =>
      let signed : Int := if negative then -n else n
      if !pointed && isWord signed then some (int signed)
      else some (ofReal (.ofDecimal negative n (-places.length)))
    | _, some (exponent, []) => some (ofReal (.ofDecimal negative n (exponent - places.length)))
    | _, _ => none

/-- The cell as a column of whole numbers holds it. -/
def toInteger : Cell → Cell
  | real x => ofReal x
  | text s => (ofNumber? s).getD (text s)
  | c => c

def toInt? : Cell → Except Failure (Option Int)
  | null => .ok none
  | int n => .ok (some n)
  | real x => (Value.toInt (.float x)).map some
  | text s => (readInteger s).map some

/-- Whether two cells of such columns hold the same. Nothing is the same as nothing. -/
def agrees : Cell → Cell → Bool
  | null, _ => false
  | int n, real x | real x, int n => x.fraction.isZero && x.truncate? == some n
  | c, d => c == d

/-! ## Columns of text -/

/-- The cell as a column of text holds it. -/
def toText? : Cell → Option String
  | null => none
  | int n => some (toString n)
  | real x => x.columnText?
  | text s => some s

/-- The text in a column that must not be empty. -/
def requireText (table column : String) (c : Cell) : Except Failure String :=
  match c.toText? with
  | some s => .ok s
  | none => .error (.missingColumn table column)

/-! ## Cells as values -/

def toValue : Cell → Value
  | null => .null
  | int n => .int n
  | real x => .float x
  | text s => .text s

end Cell

end Courier.Outbox
