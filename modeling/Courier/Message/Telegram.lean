import Courier.Message.ChatId
import Courier.Message.Markup
import Courier.Message.Split

/-!
# Sending through a bot

A message becomes posts: each chunk of its text to the first chat, then to the second, and so on.
All recipients are resolved before the first post, so one bad recipient stops the whole message. A
`Delivery` is a message on its way: the posts that are left, and the receipts of those that were
sent. `createMessage` sends a message through a bot whose answers may depend on the posts before.
-/

namespace Courier.Message.Telegram

structure Post where
  chat : ChatId
  text : String
deriving DecidableEq, Repr

/-- The characters of a title or a body; only a text has any. What is wrong with another value is
that its characters cannot be replaced; a date has parts that can be, but not by texts. -/
def chars : Value → Except Failure (List Char)
  | .text s => .ok s.toList
  | .date _ | .moment _ => .error (.notMachineInteger "str")
  | v => .error (.noMember v.kindName "replace")

def resolveAll (recipients : List Value) : Except Failure (List ChatId) :=
  recipients.mapM ChatId.resolve

def markedUp (title body : List Char) : List Char :=
  format (escape title) (escape body)

/-- The chunks of the text, each to one chat after another. -/
def postsTo (chats : List ChatId) (text : List Char) : List Post :=
  chats.flatMap fun chat => (split textLimit text).map fun chunk => ⟨chat, String.ofList chunk⟩

def posts (title body : Value) (recipients : List Value) : Except Failure (List Post) := do
  let chats ← resolveAll recipients
  let title ← chars title
  let body ← chars body
  return postsTo chats (markedUp title body)

structure Delivery where
  left : List Post
  receipts : List String
deriving DecidableEq, Repr

namespace Delivery

def start (title body : Value) (recipients : List Value) : Except Failure Delivery :=
  (posts title body recipients).map fun left => ⟨left, []⟩

def next? (d : Delivery) : Option Post :=
  d.left.head?

/-- The receipt of a post: the chat and the number of the message in it. -/
def receiptText (post : Post) (messageId : Int) : String :=
  post.chat.text ++ ":" ++ toString messageId

/-- The delivery after its next post was sent. -/
def confirm (messageId : Int) (d : Delivery) : Delivery :=
  match d.left with
  | [] => d
  | post :: rest => ⟨rest, d.receipts ++ [receiptText post messageId]⟩

def receipt (d : Delivery) : String :=
  ",".intercalate d.receipts

end Delivery

/-! ## Messages on their way to a bot -/

/-- The answer of a bot to a post, with the posts that it was called for before: the number of the
message, or a failure. -/
abbrev Bot := List Post → Post → Except Failure Int

section carry
variable {bot : Bot} {called left : List Post} {receipts : List String} {post : Post}

end carry

def parseMode : String := "HTML"

end Courier.Message.Telegram
