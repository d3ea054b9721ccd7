import Courier.Value.Convert

/-!
# Message payloads

What a script asks to be sent: a title, a body and recipients.
-/

namespace Courier.Message

structure Payload where
  title : Value
  body : Value
  recipients : List String

namespace Payload

/-- The recipients in a value: a single one, or several. -/
def recipientItems : Value → Except Failure (List Value)
  | .text s => .ok [.text s]
  | .int n => .ok [.int n]
  | .bool b => .ok [.bool b]
  | v => if v.isGiven then v.toItems else .ok []

/-- The texts of the recipients without blanks at their ends; those that are blank are left out. -/
def clean (items : List Value) : List String :=
  (items.map fun v => Text.strip v.display).filter fun s => !s.isEmpty

def build (title body recipients : Value) : Except Failure Payload :=
  (recipientItems recipients).map fun items => ⟨title, body, clean items⟩

end Payload

end Courier.Message
