import Courier.Text.Blank
import Courier.Text.Digit
import Courier.Text.Substitute
import Courier.Text.Word
import Courier.Value.Basic

/-!
# Hiding secrets

Two kinds of secret are recognised in a text: the token of a bot in the address of its interface,
and the value behind the name of a secret and a colon or an equals sign. In a payload, the values
of keys that name a secret are hidden as well. Letters are compared without regard to case.
-/

namespace Courier.Redaction

def mask : List Char :=
  "<redacted>".toList

/-- The small letter of a letter. Besides the capital letters these are the dotted and the dotless
i, the long s and the sign for kelvin. -/
def fold (c : Char) : Char :=
  if c = 'ı' ∨ c = 'İ' then 'i'
  else if c = 'ſ' then 's'
  else if c = '\u212A' then 'k'
  else c.toLower

/-- The rest of a text that starts with `name`, in whatever case. -/
def dropName : List Char → List Char → Option (List Char)
  | [], cs => some cs
  | _ :: _, [] => none
  | p :: ps, c :: cs => if fold c = p then dropName ps cs else none

/-- The rest of a text behind the first of the names that it starts with. -/
def dropAnyName (names : List (List Char)) (cs : List Char) : Option (List Char) :=
  names.findSome? fun name => dropName name cs

/-! ## Tokens of bots -/

def botAddress : List Char :=
  "api.telegram.org/bot".toList

def isTokenChar (c : Char) : Bool :=
  let f := fold c
  ('a' ≤ f && f ≤ 'z') || ('0' ≤ c && c ≤ '9') || c == '_' || c == '-'

/-- The rest behind a token: digits, a colon and at least one token character. -/
def dropToken (cs : List Char) : Option (List Char) :=
  match cs.dropWhile Text.isDigit with
  | ':' :: rest =>
    if cs.head?.any Text.isDigit && rest.head?.any isTokenChar then
      some (rest.dropWhile isTokenChar)
    else
      none
  | _ => none

/-- The address of a bot with its token; the token is replaced. -/
def findBotToken (_before : Option Char) (cs : List Char) : Option Text.Found := do
  let token ← dropName botAddress cs
  let rest ← dropToken token
  return ⟨cs.length - rest.length - 1, cs.take (cs.length - token.length) ++ mask⟩

/-! ## Named secrets -/

def secretNames : List (List Char) :=
  ["token", "password", "secret", "api_key", "api-key"].map String.toList

def isValueChar (c : Char) : Bool :=
  !Text.isBlank c && c != '&' && c != ','

/-- The rest behind a colon or an equals sign with blanks around it. -/
def dropSeparator (cs : List Char) : Option (List Char) :=
  match cs.dropWhile Text.isBlank with
  | c :: rest => if c = ':' ∨ c = '=' then some (rest.dropWhile Text.isBlank) else none
  | [] => none

/-- The name of a secret at the start of a word, with a separator and a value; the value is
replaced. -/
def findSecret (before : Option Char) (cs : List Char) : Option Text.Found := do
  let named ← if Text.isBoundary before cs.head? then dropAnyName secretNames cs else none
  let value ← dropSeparator named
  if value.head?.any isValueChar then
    let rest := value.dropWhile isValueChar
    some ⟨cs.length - rest.length - 1, cs.take (cs.length - value.length) ++ mask⟩
  else
    none

def redactChars (cs : List Char) : List Char :=
  Text.substitute findSecret (Text.substitute findBotToken cs)

def redactText (s : String) : String :=
  String.ofList (redactChars s.toList)

/-! ## Payloads -/

/-- Names of which a key of a hidden value has one in it. -/
def sensitiveNames : List (List Char) :=
  ["password", "token", "secret", "apikey", "api_key", "api-key", "apiusername", "api_username",
    "api-username", "authorization", "cookie"].map String.toList

def namesSecret : List Char → Bool
  | [] => false
  | c :: rest => (dropAnyName sensitiveNames (c :: rest)).isSome || namesSecret rest

def isSensitiveKey (key : String) : Bool :=
  namesSecret key.toList

mutual
/-- The payload with its secrets hidden at every depth. -/
def redact : Value → Value
  | .text s => .text (redactText s)
  | .list items => .list (redactItems items)
  | .object entries => .object (redactEntries entries)
  | v => v

def redactItems : List Value → List Value
  | [] => []
  | v :: rest => redact v :: redactItems rest

def redactEntries : List (String × Value) → List (String × Value)
  | [] => []
  | (k, v) :: rest =>
    (k, if isSensitiveKey k then .text (String.ofList mask) else redact v) :: redactEntries rest
end

end Courier.Redaction
