import Courier.Value.Convert

/-!
# Recipients

A recipient is the number of a chat, or the name of one: five to thirty-two letters, digits and
underscores, a letter first, with or without an at sign in front.
-/

namespace Courier.Message

inductive ChatId where
  | number (n : Int)
  | name (s : String)
deriving DecidableEq, Repr

namespace ChatId

def text : ChatId → String
  | number n => toString n
  | name s => "@" ++ s

/-- Digits of any script, with or without a minus sign. -/
def isNumeric (cs : List Char) : Bool :=
  let digits :=
    match cs with
    | '-' :: rest => rest
    | rest => rest
  !digits.isEmpty && digits.all Text.isDigit

def isNameChar (c : Char) : Bool :=
  c.isAlphanum || c == '_'

def isName : List Char → Bool
  | [] => false
  | c :: rest => c.isAlpha && rest.all isNameChar && 4 ≤ rest.length && rest.length ≤ 31

def dropAt : List Char → List Char
  | '@' :: rest => rest
  | rest => rest

/-- The chat that a recipient stands for. -/
def resolve (recipient : Value) : Except Failure ChatId :=
  let stripped := Text.strip recipient.display
  let cs := stripped.toList
  if isNumeric cs then (readInteger stripped).map number
  else if isName (dropAt cs) then .ok (name (String.ofList (dropAt cs)))
  else .error (.invalidPayload ("invalid recipient: " ++ recipient.quoted))

end ChatId

end Courier.Message
