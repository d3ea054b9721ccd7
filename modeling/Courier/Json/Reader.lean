import Courier.Number.Integer
import Courier.Value.Basic

/-!
# Reading JSON

The reader takes every JSON text, and the names `NaN`, `Infinity` and `-Infinity` for numbers. A
number without a point and an exponent is whole; any other is rounded to the nearest binary number.
Of the entries of an object with the same key the last one counts. Half of a surrogate pair that
stands alone is read as a replacement character.

A refusal tells what was expected and where. The place is kept as the number of characters that were
left, and turned into a line and a column by `locate`.
-/

namespace Courier.Json

inductive Problem where
  | expectedValue
  | expectedName
  | expectedColon
  | expectedComma
  | unterminatedText
  | controlCharacter
  | badEscape
  | badCodeEscape
  | extraData
  | byteOrderMark
  | integerTooLong (digits : Nat)
deriving DecidableEq, Repr

def Problem.wording : Problem → String
  | expectedValue => "Expecting value"
  | expectedName => "Expecting property name enclosed in double quotes"
  | expectedColon => "Expecting ':' delimiter"
  | expectedComma => "Expecting ',' delimiter"
  | unterminatedText => "Unterminated string starting at"
  | controlCharacter => "Invalid control character at"
  | badEscape => "Invalid \\escape"
  | badCodeEscape => "Invalid \\uXXXX escape"
  | extraData => "Extra data"
  | byteOrderMark => "Unexpected UTF-8 BOM (decode using utf-8-sig)"
  | integerTooLong _ => "Integer too long"

/-- What is wrong, and how many characters were left there. -/
structure Refusal where
  problem : Problem
  left : Nat
deriving DecidableEq, Repr

def isSpace (c : Char) : Bool :=
  c == ' ' || c == '\t' || c == '\n' || c == '\r'

def skip (cs : List Char) : List Char :=
  cs.dropWhile isSpace

def isDigit (c : Char) : Bool :=
  '0' ≤ c && c ≤ '9'

def hexValue? (c : Char) : Option Nat :=
  if isDigit c then some (c.toNat - '0'.toNat)
  else if 'a' ≤ c ∧ c ≤ 'f' then some (c.toNat - 'a'.toNat + 10)
  else if 'A' ≤ c ∧ c ≤ 'F' then some (c.toNat - 'A'.toNat + 10)
  else none

def hexNumber? (a b c d : Char) : Option Nat := do
  return ((← hexValue? a) * 16 + (← hexValue? b)) * 256 + (← hexValue? c) * 16 + (← hexValue? d)

def unescape? : Char → Option Char
  | '"' => some '"'
  | '\\' => some '\\'
  | '/' => some '/'
  | 'b' => some '\x08'
  | 'f' => some '\x0c'
  | 'n' => some '\n'
  | 'r' => some '\r'
  | 't' => some '\t'
  | _ => none

def isHighSurrogate (n : Nat) : Bool :=
  0xd800 ≤ n && n ≤ 0xdbff

def isLowSurrogate (n : Nat) : Bool :=
  0xdc00 ≤ n && n ≤ 0xdfff

def charOfCode (n : Nat) : Char :=
  if 0xd800 ≤ n ∧ n ≤ 0xdfff then '\uFFFD' else Char.ofNat n

def joinSurrogates (high low : Nat) : Char :=
  Char.ofNat (0x10000 + (high - 0xd800) * 0x400 + (low - 0xdc00))

/-- The character that an escape stands for, and the number of characters of the escape behind its
backslash. The text was opened when `start` characters were left. -/
def readEscape (start : Nat) : List Char → Except Refusal (Char × Nat)
  | [] => .error ⟨.unterminatedText, start⟩
  | 'u' :: a :: b :: c :: d :: e :: rest =>
    match hexNumber? a b c d with
    | none => .error ⟨.badCodeEscape, rest.length + 6⟩
    | some n =>
      match isHighSurrogate n, e :: rest with
      | true, '\\' :: 'u' :: f :: g :: h :: i :: _ :: last =>
        match hexNumber? f g h i with
        | none => .error ⟨.badCodeEscape, last.length + 6⟩
        | some m =>
          .ok (if isLowSurrogate m then (joinSurrogates n m, 11) else (charOfCode n, 5))
      | _, _ => .ok (charOfCode n, 5)
  | 'u' :: rest => .error ⟨.badCodeEscape, rest.length + 1⟩
  | c :: rest =>
    match unescape? c with
    | some d => .ok (d, 1)
    | none => .error ⟨.badEscape, rest.length + 2⟩

/-- The rest of a text whose opening quote was read when `start` characters were left. The next
`passed` characters belong to an escape that was read; the characters of the text so far are in
`read`, newest first. -/
def readTextFrom (start : Nat) :
    Nat → List Char → List Char → Except Refusal (List Char × List Char)
  | _, _, [] => .error ⟨.unterminatedText, start⟩
  | passed + 1, read, _ :: rest => readTextFrom start passed read rest
  | 0, read, c :: rest =>
    if c = '"' then .ok (read.reverse, rest)
    else if c = '\\' then
      match readEscape start rest with
      | .error r => .error r
      | .ok (d, passed) => readTextFrom start passed (d :: read) rest
    else if c.toNat ≤ 0x1f then .error ⟨.controlCharacter, rest.length + 1⟩
    else readTextFrom start 0 (c :: read) rest

def digitsValue (ds : List Char) : Nat :=
  ds.foldl (fun n c => 10 * n + (c.toNat - '0'.toNat)) 0

/-- The digits behind a point, if there is a point with a digit behind it. -/
def takeFraction : List Char → Option (List Char × List Char)
  | '.' :: c :: rest =>
    if isDigit c then some ((c :: rest).takeWhile isDigit, (c :: rest).dropWhile isDigit) else none
  | _ => none

def takeSign : List Char → Bool × List Char
  | '-' :: rest => (true, rest)
  | '+' :: rest => (false, rest)
  | rest => (false, rest)

/-- The power of ten behind an `e`, if there is one with at least one digit. -/
def takeExponent : List Char → Option (Int × List Char)
  | [] => none
  | e :: rest =>
    if e = 'e' ∨ e = 'E' then
      let (negative, rest) := takeSign rest
      let ds := rest.takeWhile isDigit
      if ds.isEmpty then none
      else
        let n : Int := digitsValue ds
        some (if negative then -n else n, rest.drop ds.length)
    else
      none

def takeWhole : List Char → Option (List Char × List Char)
  | '0' :: rest => some (['0'], rest)
  | c :: rest =>
    if isDigit c then some ((c :: rest).takeWhile isDigit, (c :: rest).dropWhile isDigit) else none
  | [] => none

def readUnsignedNumber (negative : Bool) (start : Nat) (cs : List Char) :
    Except Refusal (Value × List Char) :=
  match takeWhole cs with
  | none => .error ⟨.expectedValue, start⟩
  | some (whole, rest) =>
    let fraction := takeFraction rest
    let rest := (fraction.map (·.2)).getD rest
    let places := (fraction.map (·.1)).getD []
    let exponent := takeExponent rest
    let rest := (exponent.map (·.2)).getD rest
    if fraction.isSome || exponent.isSome then
      let power := (exponent.map (·.1)).getD 0 - places.length
      .ok (.float (.ofDecimal negative (digitsValue (whole ++ places)) power), rest)
    else if Number.digitLimit < whole.length then
      .error ⟨.integerTooLong whole.length, start⟩
    else
      let n : Int := digitsValue whole
      .ok (.int (if negative then -n else n), rest)

/-- What stands for itself: a name or a number. -/
def readAtom (cs : List Char) : Except Refusal (Value × List Char) :=
  match cs with
  | 'n' :: 'u' :: 'l' :: 'l' :: rest => .ok (.null, rest)
  | 't' :: 'r' :: 'u' :: 'e' :: rest => .ok (.bool true, rest)
  | 'f' :: 'a' :: 'l' :: 's' :: 'e' :: rest => .ok (.bool false, rest)
  | 'N' :: 'a' :: 'N' :: rest => .ok (.float .nan, rest)
  | 'I' :: 'n' :: 'f' :: 'i' :: 'n' :: 'i' :: 't' :: 'y' :: rest =>
    .ok (.float (.infinite false), rest)
  | '-' :: 'I' :: 'n' :: 'f' :: 'i' :: 'n' :: 'i' :: 't' :: 'y' :: rest =>
    .ok (.float (.infinite true), rest)
  | '-' :: rest => readUnsignedNumber true cs.length rest
  | _ => readUnsignedNumber false cs.length cs

mutual
/-- A value at the front of a text. The first argument bounds the depth of the reading; twice the
length of the text is always enough. -/
def readValue : Nat → List Char → Except Refusal (Value × List Char)
  | 0, cs => .error ⟨.expectedValue, cs.length⟩
  | _ + 1, '"' :: rest => do
    let (s, rest) ← readTextFrom (rest.length + 1) 0 [] rest
    return (.text (String.ofList s), rest)
  | depth + 1, '[' :: rest =>
    match skip rest with
    | ']' :: rest => .ok (.list [], rest)
    | rest => readItems depth [] rest
  | depth + 1, '\x7b' :: rest =>
    match skip rest with
    | '\x7d' :: rest => .ok (.object [], rest)
    | rest => readEntries depth [] rest
  | _ + 1, cs => readAtom cs

/-- The items of a list up to its end, after those in `read`. -/
def readItems : Nat → List Value → List Char → Except Refusal (Value × List Char)
  | 0, _, cs => .error ⟨.expectedValue, cs.length⟩
  | depth + 1, read, cs => do
    let (v, rest) ← readValue depth cs
    match skip rest with
    | ']' :: rest => return (.list (v :: read).reverse, rest)
    | ',' :: rest => readItems depth (v :: read) (skip rest)
    | rest => .error ⟨.expectedComma, rest.length⟩

/-- The entries of an object up to its end, after those in `read`. -/
def readEntries : Nat → List (String × Value) → List Char → Except Refusal (Value × List Char)
  | 0, _, cs => .error ⟨.expectedName, cs.length⟩
  | depth + 1, read, '"' :: rest => do
    let (key, rest) ← readTextFrom (rest.length + 1) 0 [] rest
    match skip rest with
    | ':' :: rest => do
      let (v, rest) ← readValue depth (skip rest)
      let read := (String.ofList key, v) :: read
      match skip rest with
      | '\x7d' :: rest => return (.object (Entries.ofList read.reverse), rest)
      | ',' :: rest => readEntries depth read (skip rest)
      | rest => .error ⟨.expectedComma, rest.length⟩
    | rest => .error ⟨.expectedColon, rest.length⟩
  | _ + 1, _, cs => .error ⟨.expectedName, cs.length⟩
end

/-- The line and the column, counted from one, and the offset of the place where so many characters
are left. -/
structure Place where
  line : Nat
  column : Nat
  offset : Nat
deriving DecidableEq, Repr

def locate (cs : List Char) (left : Nat) : Place :=
  let offset := cs.length - left
  let before := cs.take offset
  { line := before.count '\n' + 1
    column := (before.reverse.takeWhile (· != '\n')).length + 1
    offset }

inductive ReadError where
  | syntaxAt (problem : Problem) (place : Place)
  | integerTooLong (digits : Nat)
deriving DecidableEq, Repr

def Refusal.toError (cs : List Char) (r : Refusal) : ReadError :=
  match r.problem with
  | .integerTooLong digits => .integerTooLong digits
  | problem => .syntaxAt problem (locate cs r.left)

/-- The value that takes the whole text, apart from blanks. -/
def readWhole (cs : List Char) : Except Refusal Value := do
  let (v, rest) ← readValue (2 * cs.length + 2) (skip cs)
  match skip rest with
  | [] => return v
  | rest => .error ⟨.extraData, rest.length⟩

def readChars (cs : List Char) : Except ReadError Value :=
  if cs.head? = some '\uFEFF' then .error (.syntaxAt .byteOrderMark ⟨1, 1, 0⟩)
  else
    match readWhole cs with
    | .ok v => .ok v
    | .error r => .error (r.toError cs)

def read (s : String) : Except ReadError Value :=
  readChars s.toList

/-- Reads the text of a response, where a byte order mark at the front is passed over. -/
def readBody (s : String) : Except ReadError Value :=
  match s.toList with
  | '\uFEFF' :: rest =>
    match readWhole rest with
    | .ok v => .ok v
    | .error r => .error (r.toError rest)
  | cs => readChars cs

end Courier.Json
