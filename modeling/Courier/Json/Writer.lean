import Courier.Value.Display

/-!
# Writing JSON

Values are written on one line, with a space behind each comma and colon. Characters outside ASCII
stand for themselves; quotes, backslashes and controls are escaped, so no text can end a line. The
three numbers that JSON does not know are written as names, and a date or a moment as its text.
-/

namespace Courier.Json

def escapeChar (c : Char) : List Char :=
  if c = '"' then ['\\', '"']
  else if c = '\\' then ['\\', '\\']
  else if c = '\n' then ['\\', 'n']
  else if c = '\r' then ['\\', 'r']
  else if c = '\t' then ['\\', 't']
  else if c = '\x08' then ['\\', 'b']
  else if c = '\x0c' then ['\\', 'f']
  else if c.toNat < 0x20 then '\\' :: 'u' :: Text.hex 4 c.toNat
  else [c]

def writeChars (cs : List Char) : List Char :=
  '"' :: cs.flatMap escapeChar ++ ['"']

def writeText (s : String) : String :=
  String.ofList (writeChars s.toList)

def writeFloat : Number.Binary64 → String
  | .nan => "NaN"
  | .infinite negative => if negative then "-Infinity" else "Infinity"
  | x => x.text

mutual
def write : Value → String
  | .null => "null"
  | .bool b => if b then "true" else "false"
  | .int n => toString n
  | .float x => writeFloat x
  | .text s => writeText s
  | .list items => "[" ++ ", ".intercalate (writeItems items) ++ "]"
  | .object entries => "\x7b" ++ ", ".intercalate (writeEntries entries) ++ "\x7d"
  | .date d => writeText d.isoText
  | .moment m => writeText m.text

def writeItems : List Value → List String
  | [] => []
  | v :: rest => write v :: writeItems rest

def writeEntries : List (String × Value) → List String
  | [] => []
  | (k, v) :: rest => (writeText k ++ ": " ++ write v) :: writeEntries rest
end

end Courier.Json
