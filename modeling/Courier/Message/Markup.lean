import Courier.Text.Blank

/-!
# Markup of messages

A message is sent as marked-up text: its title in bold on a line of its own, then its body. The
characters that have a meaning in markup are replaced by entities first.
-/

namespace Courier.Message

def escapeChar (c : Char) : List Char :=
  if c = '&' then "&amp;".toList
  else if c = '<' then "&lt;".toList
  else if c = '>' then "&gt;".toList
  else if c = '"' then "&quot;".toList
  else if c = '\'' then "&#x27;".toList
  else [c]

/-- The text with entities for the characters that have a meaning in markup. -/
def escape (cs : List Char) : List Char :=
  cs.flatMap escapeChar

/-- The message with its title in bold. A blank title is left out; line ends at the ends of the body
are too. -/
def format (title body : List Char) : List Char :=
  let title := Text.trimWhile Text.isBlank title
  let body := Text.trimWhile (· == '\n') body
  if title.isEmpty then body
  else "<b>".toList ++ title ++ "</b>\n".toList ++ body

end Courier.Message
