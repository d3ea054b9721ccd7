import Courier.Text.Blank
import Courier.Text.Case
import Courier.Value.Basic

/-!
# Scripts and triggers

A script has fields, and so has a trigger. A field of a script may belong to one trigger. A script
may be bound to a trigger of its own, whatever the automation asks for, or name the triggers that it
goes with. Names of scripts and triggers are compared without regard to case and blanks around them.
-/

namespace Courier.Script

/-- A name as it is compared. -/
def normalize (name : String) : String :=
  Text.lower (Text.strip name)

structure Field where
  name : String
  component : Value
  acceptsPlaceholders : Value
  triggerable : Value
  required : Value
  extra : Entries

/-- Whether a field belongs to a trigger, or to all of them. -/
def Field.belongsTo (trigger : Option String) (f : Field) : Bool :=
  match f.triggerable with
  | .null => true
  | .text s => trigger == some s
  | _ => false

def Field.toValue (f : Field) : Value :=
  .object
    [("name", .text f.name), ("component", f.component),
      ("accepts_placeholders", f.acceptsPlaceholders), ("triggerable", f.triggerable),
      ("required", f.required), ("extra", .object f.extra)]

/-- A trigger that a script is bound to, and its state. -/
structure Forced where
  trigger : String
  state : Entries

def Forced.toValue (f : Forced) : Value :=
  .object [("triggerable", .text f.trigger), ("state", .object f.state)]

structure Definition where
  name : String
  version : Int
  fields : List Field
  placeholders : List String
  forced : Option Forced
  declared : List String

namespace Definition

/-- The triggers that the script goes with; none of them means all. -/
def triggers (d : Definition) : List String :=
  match d.forced with
  | some forced => [forced.trigger]
  | none => d.declared

def acceptsTrigger (d : Definition) (trigger : String) : Bool :=
  d.triggers.isEmpty || d.triggers.any fun t => normalize t == normalize trigger

def fieldsFor (d : Definition) (trigger : Option String) : List Field :=
  d.fields.filter (Field.belongsTo trigger)

end Definition

structure Trigger where
  name : String
  fields : List Field

/-- A script with the values of its fields and the trigger that runs it. -/
structure Automation where
  id : Value
  script : String
  trigger : Option String
  triggerState : Entries
  fields : Entries

/-- The trigger of an automation and its state; those that the script is bound to come first. -/
def effectiveTrigger (a : Automation) (d : Definition) : Option String × Entries :=
  match d.forced with
  | some forced => (some forced.trigger, forced.state)
  | none => (a.trigger, a.triggerState)

/-- What a hook knows while it runs. -/
structure Context where
  automation : Automation
  definition : Definition
  trigger : Option String
  triggerState : Entries
  triggerPayload : Entries
  traceId : String

def Context.field (c : Context) (name : String) (default : Value) : Value :=
  (Entries.get? c.automation.fields name).getD default

/-- The result of running a hook of an automation. -/
structure RunResult where
  script : String
  automationId : Value
  trigger : Option String
  ok : Bool
  error : Option String

end Courier.Script
