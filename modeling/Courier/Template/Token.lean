/-!
# Tokens of templates

A template is text with tokens in it. A token is a name between two pairs of percent signs, or a
name, an equals sign and arguments; the arguments end before the next pair of percent signs on the
same line. `pieces` reads a template from left to right; what a token takes is not read again.
-/

namespace Courier.Template

structure Token where
  name : List Char
  args : Option (List Char)
deriving DecidableEq, Repr

def Token.chars (t : Token) : List Char :=
  '%' :: '%' :: t.name ++
    (match t.args with
      | some args => '=' :: args
      | none => []) ++
    ['%', '%']

/-- A piece of a template: a character that stands for itself, or a token. -/
inductive Piece where
  | char (c : Char)
  | token (t : Token)
deriving DecidableEq, Repr

def Piece.chars : Piece → List Char
  | char c => [c]
  | token t => t.chars

def isNameChar (c : Char) : Bool :=
  c.isAlphanum || c == '_'

/-- What stands before the first pair of percent signs, if it is on the same line. -/
def argsBefore : List Char → Option (List Char)
  | [] => none
  | '%' :: '%' :: _ => some []
  | c :: rest => if c = '\n' then none else (argsBefore rest).map (c :: ·)

def token? : List Char → Option Token
  | '%' :: '%' :: rest =>
    let name := rest.takeWhile isNameChar
    if name.isEmpty then none
    else
      match rest.dropWhile isNameChar with
      | '%' :: '%' :: _ => some ⟨name, none⟩
      | '=' :: more => (argsBefore more).map fun args => ⟨name, some args⟩
      | _ => none
  | _ => none

/-- The pieces of a text of which the first `passed` characters belong to a token that was read. -/
def piecesFrom : Nat → List Char → List Piece
  | _, [] => []
  | passed + 1, _ :: rest => piecesFrom passed rest
  | 0, c :: rest =>
    match token? (c :: rest) with
    | some t => .token t :: piecesFrom (t.chars.length - 1) rest
    | none => .char c :: piecesFrom 0 rest

def pieces (cs : List Char) : List Piece :=
  piecesFrom 0 cs

end Courier.Template
