import Courier.Script.Dispatch
import Courier.Script.Registry
import Courier.Template.Render

/-!
# The built-in script

The script `send_message` renders a title and a body and dispatches them to the recipients of the
automation, with a delay if there is one. What the trigger brought along can be used in the title
and the body. When it is reset, its stored messages are deleted.
-/

namespace Courier.Script.SendMessage

def scriptName : String := "send_message"

/-! ## Values of placeholders -/

/-- Whether a value of a payload can be used as a placeholder: a text, a number or a truth value. -/
def isPlain : Value → Bool
  | .text _ | .int _ | .float _ | .bool _ => true
  | _ => false

/-- The values that a trigger offers: those of its payload, by names in small letters, and its
own name. -/
def placeholderValues (trigger : Option String) (payload : Entries) : Entries :=
  let plain := payload.filter fun e => isPlain e.2
  let values := Entries.ofList (plain.map fun e => (Text.lower e.1, e.2))
  match trigger with
  | some trigger =>
    if trigger.isEmpty then values else Entries.insert "trigger" (.text trigger) values
  | none => values

/-! ## The delay -/

def invalidDelay : Log.Record :=
  Log.Channel.sendMessage.record Log.warning "ignoring invalid delay"
    [("event", .text "script_delay_invalid"), ("script", .text scriptName)] none

/-- The delay that a field holds. One that is no whole number is left out with a warning. -/
def parseDelay (raw : Value) : Value × Log.Journal :=
  match raw with
  | .null => (.null, [])
  | .text "" => (.null, [])
  | raw =>
    match readInteger (Text.strip raw.display) with
    | .ok n => (.int n, [])
    | .error _ => (.null, [invalidDelay])

/-! ## The hooks -/

def render (siteTitle template : String) (values : Entries) (d : Desk) :
    Except Failure String × Desk :=
  let engine : Template.Engine := ⟨siteTitle, d.source⟩
  let rendered := engine.render d.asked.length template values
  (rendered.outcome,
    { d with asked := d.asked ++ rendered.queries, journal := d.journal ++ rendered.journal })

def renderBoth (siteTitle : String) (c : Context) (d : Desk) :
    Except Failure (String × String) × Desk :=
  let values := placeholderValues c.trigger c.triggerPayload
  match render siteTitle (c.field "title" (.text "")).display values d with
  | (.error f, d) => (.error f, d)
  | (.ok title, d) =>
    match render siteTitle (c.field "body" (.text "")).display values d with
    | (.error f, d) => (.error f, d)
    | (.ok body, d) => (.ok (title, body), d)

def runIn (siteTitle : String) (c : Context) : Routine Desk (Except Failure Value) :=
  (Routine.act (renderBoth siteTitle c)).bind fun
    | .error f => .done (.error f)
    | .ok (title, body) =>
      match Message.Payload.build (.text title) (.text body) (c.field "recipients" (.list [])) with
      | .error f => .done (.error f)
      | .ok payload =>
        let (delay, records) := parseDelay (c.field "delay" .null)
        (Routine.act fun d => ((), d.logAll records)).bind fun () =>
          (Dispatch.send payload delay c.automation.id).bind fun result =>
            .done (result.map fun _ => .null)

def resetIn (c : Context) : Routine Desk (Except Failure Value) :=
  .act fun d =>
    match Dispatch.cancelPending c.automation.id d with
    | .error f => (.error f, d)
    | .ok (count, d) => (.ok (.int count), d)

/-- The hook that works in its context. -/
def inContext (work : Context → Routine Desk (Except Failure Value)) : Hook :=
  .context fun
    | .error f => .finish (.error f)
    | .ok c => .perform (work c) .finish

def field (name component : String) (attributes : Entries) : Call :=
  .field (.text name) (("component", .text component) :: attributes)

def calls (siteTitle : String) : List Call :=
  [.version (.int 1),
    .placeholder (.text "trigger"),
    field "title" "text" [("accepts_placeholders", .bool true), ("required", .bool true)],
    field "body" "message" [("accepts_placeholders", .bool true), ("required", .bool true)],
    field "recipients" "users" [("required", .bool true)],
    field "delay" "text" [],
    .run (inContext (runIn siteTitle)),
    .onReset (inContext resetIn)]

def register (siteTitle : String) (r : Scripts) : Registry.Built Published Published :=
  r.add Builder.script (.text scriptName) (.ofCalls (calls siteTitle))

end Courier.Script.SendMessage
