import Courier.Text.CaseTable

/-!
# Lower and upper case

Case mapping follows the letters of every script. Two rules need more than one letter: a capital
sigma at the end of a word becomes a final sigma, and a capital I with a dot keeps its dot as a
combining mark.
-/

namespace Courier.Text

/-- The character at a code point that is known to be one. -/
def charAt (n : Nat) : Char :=
  Char.ofNat n

def mapRuns (runs : List CaseRun) (c : Char) : Char :=
  match runs.findSome? (·.map? c.toNat) with
  | some n => charAt n
  | none => c

/-- The lower case form of a letter that stands alone. -/
def lowerChar (c : Char) : Char :=
  if c.toNat < 0x80 then c.toLower else mapRuns lowerRuns c

def upperChar (c : Char) : List Char :=
  if c.toNat < 0x80 then [c.toUpper]
  else
    match upperExpansions.lookup c.toNat with
    | some ns => ns.map charAt
    | none => [mapRuns upperRuns c]

def isCased (c : Char) : Bool :=
  casedRanges.contains c

def isCaseIgnorable (c : Char) : Bool :=
  caseIgnorableRanges.contains c

/-- Whether the next letter in a direction, past the characters that case ignores, has a case. -/
def meetsCased (cs : List Char) : Bool :=
  (cs.dropWhile isCaseIgnorable).head?.any isCased

/-- Lower case of a list, where `before` holds what precedes it in reverse order. -/
def lowerFrom (before : List Char) : List Char → List Char
  | [] => []
  | c :: rest =>
    let mapped :=
      if c = 'Σ' then
        [if meetsCased before && !meetsCased rest then 'ς' else 'σ']
      else if c = 'İ' then ['i', '\u0307']
      else [lowerChar c]
    mapped ++ lowerFrom (c :: before) rest

def lower (s : String) : String :=
  String.ofList (lowerFrom [] s.toList)

def upper (s : String) : String :=
  String.ofList (s.toList.flatMap upperChar)

/-- Lower case of the twenty-six letters A to Z only. -/
def lowerAscii (s : String) : String :=
  String.ofList (s.toList.map Char.toLower)

end Courier.Text
