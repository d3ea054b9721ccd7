import Courier.Web.Status
import Courier.Web.Url

/-!
# Web requests

A request is sent to an address and answered by a response or by a failure of the connection.
Responses that send the client on are followed, up to a limit.
-/

namespace Courier.Web

structure Request where
  url : String
  params : List (String × String)
  headers : List (String × String)
  timeout : Value
  followRedirects : Bool

structure Response where
  status : Nat
  headers : List (String × String)
  body : String
deriving DecidableEq, Repr

inductive Reply where
  | response (r : Response)
  | failure (kind message : String)
deriving DecidableEq, Repr

/-- What answers requests: the reply of the server by the path of the address. -/
abbrev Transport := String → Reply

namespace Response

/-- The value of a header, whose name is read without regard to case. -/
def header? (r : Response) (name : String) : Option String :=
  (r.headers.find? fun h => Text.lowerAscii h.1 == Text.lowerAscii name).map (·.2)

def location? (r : Response) : Option String :=
  if isRedirect r.status then r.header? "location" else none

def failure? (url : Url) (r : Response) : Option Failure :=
  if isSuccess r.status then none
  else
    let code := toString r.status
    some <| .transport "HTTPStatusError" <|
      classWords r.status ++ " '" ++ code ++ " " ++ reason r.status ++ "' for url '" ++ url.text ++
        "'\nFor more information check: " ++
        "https://developer.mozilla.org/en-US/docs/Web/HTTP/Status/" ++ code

end Response

def redirectLimit : Nat := 20

/-- The response that a client ends up with, and its address. The first argument is the number of
times that it may still be sent on. -/
def follow (transport : Transport) : Nat → Url → Except Failure (Url × Response)
  | left, url =>
    match transport url.plainPath with
    | .failure kind message => .error (.transport kind message)
    | .response r =>
      match r.location? with
      | none => .ok (url, r)
      | some location =>
        match left, Url.read location with
        | _, .error f =>
          .error (.transport "RemoteProtocolError"
            ("Invalid URL in location header: " ++ f.message ++ "."))
        | 0, .ok _ =>
          .error (.transport "TooManyRedirects" "Exceeded maximum allowed redirects.")
        | left + 1, .ok reference => follow transport left (url.resolve reference)

/-- Sends a request. -/
def send (transport : Transport) (request : Request) : Except Failure (Url × Response) := do
  let url ← Url.read request.url
  follow transport redirectLimit (url.asked.withParams request.params)

/-- Kinds of failure that are no failures of the connection. -/
def otherKinds : List String :=
  ["InvalidURL", "CookieConflict", "StreamError", "StreamConsumed", "StreamClosed",
    "ResponseNotRead", "RequestNotRead"]

/-- Whether a request failed because of the connection or the server. -/
def isTransportFailure : Failure → Bool
  | .transport kind _ => !otherKinds.contains kind
  | _ => false

end Courier.Web
