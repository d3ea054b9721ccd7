import Courier.Text.Case
import Courier.Value.Convert

/-!
# Web addresses

An address is split into its scheme, authority, path, query and fragment. In its normal form the
scheme and the host are in small letters, the number behind the host is left out if it is the usual
one of the scheme, the path has no dot segments, and characters that an address cannot hold are
written as the codes of their bytes.
-/

namespace Courier.Web

structure Url where
  scheme : String
  authority : Option String
  path : String
  query : Option String
  fragment : Option String
deriving DecidableEq, Repr

/-! ## Codes of bytes -/

def upperHexDigit (n : Nat) : Char :=
  if n < 10 then Char.ofNat ('0'.toNat + n) else Char.ofNat ('A'.toNat + (n - 10))

def percentCodes (c : Char) : List Char :=
  c.toString.toUTF8.toList.flatMap fun b =>
    ['%', upperHexDigit (b.toNat / 16), upperHexDigit (b.toNat % 16)]

/-- The text with codes for the characters that are not safe; codes that are there are kept. -/
def quoteWith (safe : Char → Bool) : List Char → List Char
  | [] => []
  | '%' :: a :: b :: rest =>
    if (Json.hexValue? a).isSome && (Json.hexValue? b).isSome then
      '%' :: quoteWith safe (a :: b :: rest)
    else
      percentCodes '%' ++ quoteWith safe (a :: b :: rest)
  | c :: rest => (if safe c && c != '%' then [c] else percentCodes c) ++ quoteWith safe rest

def isVisible (c : Char) : Bool :=
  0x21 ≤ c.toNat && c.toNat ≤ 0x7e

def isQuerySafe (c : Char) : Bool :=
  isVisible c && !(['"', '#', '<', '>'].contains c)

def isPathSafe (c : Char) : Bool :=
  isQuerySafe c && !(['?', '\x60', '\x7b', '\x7d'].contains c)

def isFragmentSafe (c : Char) : Bool :=
  isVisible c && !(['"', '<', '>', '\x60'].contains c)

def isUserSafe (c : Char) : Bool :=
  isPathSafe c && !(['/', ';', '=', '@', '[', '\\', ']', '^', '|'].contains c)

/-- A name or a value of a query: a blank becomes a plus sign, all but letters, digits and four
signs become codes. -/
def formQuote (s : String) : String :=
  String.ofList <| s.toList.flatMap fun c =>
    if c = ' ' then ['+']
    else if c.isAlphanum || ['_', '.', '-', '~'].contains c then [c]
    else percentCodes c

def formQuery (params : List (String × String)) : String :=
  "&".intercalate (params.map fun p => formQuote p.1 ++ "=" ++ formQuote p.2)

/-- The bytes of a text whose codes are replaced by what they stand for. -/
def unquoteBytes : List Char → List UInt8
  | '%' :: a :: b :: rest =>
    match Json.hexValue? a, Json.hexValue? b with
    | some m, some n => UInt8.ofNat (16 * m + n) :: unquoteBytes rest
    | _, _ => '%'.toString.toUTF8.toList ++ unquoteBytes (a :: b :: rest)
  | c :: rest => c.toString.toUTF8.toList ++ unquoteBytes rest
  | [] => []

def unquote (s : String) : String :=
  match String.fromUTF8? (ByteArray.mk (unquoteBytes s.toList).toArray) with
  | some t => t
  | none => s

/-! ## Normal form -/

/-- The segments without those that stay in place or go up. -/
def dropDots (kept : List String) : List String → List String
  | [] => kept
  | "." :: rest => dropDots kept rest
  | ".." :: rest => dropDots (if kept = [""] then kept else kept.dropLast) rest
  | segment :: rest => dropDots (kept ++ [segment]) rest

def normalPath (path : String) : String :=
  "/".intercalate (dropDots [] (path.splitOn "/"))

def usualNumber (scheme : String) : String :=
  match scheme with
  | "http" | "ws" => "80"
  | "https" | "wss" => "443"
  | "ftp" => "21"
  | _ => ""

/-- The parts of a list around the first occurrence of a character. -/
def cut (separator : Char) (cs : List Char) : List Char × Option (List Char) :=
  match cs.dropWhile (· != separator) with
  | [] => (cs, none)
  | _ :: rest => (cs.takeWhile (· != separator), some rest)

def quotedPart (safe : Char → Bool) (cs : List Char) : String :=
  String.ofList (quoteWith safe cs)

/-- The name of a user in front of the host, with its at sign, and what follows. -/
def takeUser (cs : List Char) : String × List Char :=
  match cut '@' cs with
  | (user, some rest) => (quotedPart isUserSafe user ++ "@", rest)
  | (_, none) => ("", cs)

/-- The host at the front, which may stand in square brackets, and what follows. -/
def takeHost (cs : List Char) : List Char × List Char :=
  match cs with
  | '[' :: _ =>
    match cut ']' cs with
    | (host, some rest) => (host ++ [']'], rest)
    | (host, none) => (host, [])
  | cs => (cs.takeWhile fun c => c != ':' && c != '@', cs.dropWhile fun c => c != ':' && c != '@')

/-- The number behind a host with its colon, unless it is the usual one. -/
def numberText (scheme : String) (cs : List Char) : Except Failure String :=
  let digits :=
    match cs with
    | ':' :: rest => String.ofList rest
    | rest => String.ofList rest
  if digits.isEmpty then .ok ""
  else
    match readInteger digits with
    | .ok n => .ok (if toString n = usualNumber scheme then "" else ":" ++ toString n)
    | .error _ => .error (.malformedUrl ("Invalid port: " ++ Text.quoted digits))

def normalAuthority (scheme : String) (authority : List Char) : Except Failure String :=
  let (user, rest) := takeUser authority
  let (host, rest) := takeHost rest
  (numberText scheme rest).map fun number => user ++ Text.lower (String.ofList host) ++ number

/-- The scheme of an address and what follows its colon. -/
def takeScheme (cs : List Char) : Option (String × List Char) :=
  match cut ':' cs with
  | (scheme, some rest) =>
    if scheme.head?.any Char.isAlpha &&
        scheme.all fun c => c.isAlphanum || ['+', '.', '-'].contains c then
      some (Text.lower (String.ofList scheme), rest)
    else
      none
  | (_, none) => none

def endsAuthority (c : Char) : Bool :=
  c == '/' || c == '?' || c == '#'

def takeAuthority : List Char → Option (List Char × List Char)
  | '/' :: '/' :: rest =>
    some (rest.takeWhile fun c => !endsAuthority c, rest.dropWhile fun c => !endsAuthority c)
  | _ => none

namespace Url

/-- The address with a given authority and the rest of its characters. -/
def ofParts (scheme : String) (authority : Option String) (cs : List Char) : Url :=
  let (rest, fragment) := cut '#' cs
  let (path, query) := cut '?' rest
  let path := String.ofList path
  let path := if scheme.isEmpty ∧ authority.isNone then path else normalPath path
  { scheme, authority
    path := quotedPart isPathSafe path.toList
    query := query.map (quotedPart isQuerySafe)
    fragment := fragment.map (quotedPart isFragmentSafe) }

def ofChars (cs : List Char) : Except Failure Url :=
  let (scheme, rest) := (takeScheme cs).getD ("", cs)
  match takeAuthority rest with
  | some (authority, rest) =>
    (normalAuthority scheme authority).map fun authority => ofParts scheme (some authority) rest
  | none => .ok (ofParts scheme none rest)

def lengthLimit : Nat := 65536

/-- Reads an address. Controls of ASCII are refused. -/
def read (s : String) : Except Failure Url :=
  let cs := s.toList
  if lengthLimit < cs.length then .error (.malformedUrl "URL too long")
  else
    match cs.findIdx? fun c => c.toNat < 0x20 || c.toNat == 0x7f with
    | some i =>
      .error (.malformedUrl ("Invalid non-printable ASCII character in URL, " ++
        Text.quoted (String.ofList ((cs.drop i).take 1)) ++ " at position " ++ toString i ++ "."))
    | none => ofChars cs

/-- The address with the query of these parameters, or none. -/
def withParams (params : List (String × String)) (url : Url) : Url :=
  { url with query := if params.isEmpty then none else some (formQuery params) }

def text (url : Url) : String :=
  (if url.scheme.isEmpty then "" else url.scheme ++ ":") ++
    (url.authority.map ("//" ++ ·)).getD "" ++ url.path ++
    (url.query.map ("?" ++ ·)).getD "" ++ (url.fragment.map ("#" ++ ·)).getD ""

/-- The address that is asked for: without a scheme or a host only the path and the query of an
address count. -/
def asked (url : Url) : Url :=
  if url.scheme.isEmpty ∨ (url.authority.getD "").isEmpty then
    { scheme := ""
      authority := none
      path := "/" ++ String.ofList (url.path.toList.dropWhile (· == '/'))
      query := url.query
      fragment := none }
  else url

/-- The path as it was before its characters became codes. -/
def plainPath (url : Url) : String :=
  if url.path.isEmpty then "/" else unquote url.path

def mergePath (base relative : String) : String :=
  let kept := (base.toList.reverse.dropWhile (· != '/')).reverse
  String.ofList kept ++ relative

/-- The address that a reference stands for at another address. -/
def resolve (base reference : Url) : Url :=
  let fragment := if reference.fragment.isSome then reference.fragment else base.fragment
  if !reference.scheme.isEmpty then
    { reference with authority := reference.authority <|> base.authority, fragment }
  else if reference.authority.isSome then
    { reference with scheme := base.scheme, fragment }
  else if reference.path.isEmpty then
    { base with query := if reference.query.isSome then reference.query else base.query, fragment }
  else
    let path :=
      if reference.path.startsWith "/" then reference.path
      else mergePath base.path reference.path
    { base with path := normalPath path, query := reference.query, fragment }

end Url

end Courier.Web
