import Courier.Script.Hook
import Courier.Value.Convert

/-!
# Calls of declarations

A script or a trigger is declared by calls. A call has a name and takes arguments, some by their
place or their name and some by their name only; `Call.read` checks that the arguments fit.
-/

namespace Courier.Script

/-- What is declared. -/
inductive Kind where
  | script
  | trigger
deriving DecidableEq, Repr

def Kind.name : Kind → String
  | script => "script"
  | trigger => "trigger"

def Kind.builderName : Kind → String
  | script => "ScriptBuilder"
  | trigger => "TriggerBuilder"

inductive Call where
  /-- Declares a field. The attributes are its component, whether it accepts placeholders, its
  trigger, whether it is required, and any others. -/
  | field (name : Value) (attributes : Entries)
  | version (number : Value)
  | placeholder (name : Value)
  | forceTrigger (trigger state : Value)
  | triggers (names : List Value)
  | run (hook : Hook)
  | onReset (hook : Hook)

def Call.name : Call → String
  | field _ _ => "field"
  | version _ => "version"
  | placeholder _ => "placeholder"
  | forceTrigger _ _ => "force_triggerable"
  | triggers _ => "triggerables"
  | run _ => "script"
  | onReset _ => "on_reset"

/-- The attributes of a field that are not extra ones. -/
def fieldAttributes : List String :=
  ["component", "accepts_placeholders", "triggerable", "required"]

/-! ## Arguments -/

/-- How a call takes its arguments. -/
structure Signature where
  /-- The call, as messages name it. -/
  title : String
  /-- The arguments that are given by their place or their name. -/
  placed : List String
  /-- How many of these are needed. -/
  needed : Nat
  /-- The arguments that are given by their name only. -/
  named : List String
  /-- Whether arguments of other names are taken as well. -/
  takesOthers : Bool

namespace Signature

def isRepeated (name : String) (s : Signature) : Failure :=
  .misfitArguments (s.title ++ "() got multiple values for argument '" ++ name ++ "'")

def isUnexpected (name : String) (s : Signature) : Failure :=
  .misfitArguments (s.title ++ "() got an unexpected keyword argument '" ++ name ++ "'")

def isMissing (name : String) (s : Signature) : Failure :=
  .misfitArguments (s.title ++ "() missing 1 required positional argument: '" ++ name ++ "'")

/-- The failure of a call with too many arguments. The declaration itself counts as one of them. -/
def hasTooMany (given namedOnly : Nat) (s : Signature) : Failure :=
  let most := toString (s.placed.length + 1)
  let taken :=
    if s.needed = s.placed.length then most
    else "from " ++ toString (s.needed + 1) ++ " to " ++ most
  let named :=
    match namedOnly with
    | 0 => ""
    | 1 => " positional arguments (and 1 keyword-only argument)"
    | n => " positional arguments (and " ++ toString n ++ " keyword-only arguments)"
  .misfitArguments (s.title ++ "() takes " ++ taken ++ " positional arguments but " ++
    toString (given + 1) ++ named ++ " were given")

/-- Whether an argument that is given by its name fits, when so many are given by their place. -/
def nameFailure? (placed : Nat) (s : Signature) (name : String) : Option Failure :=
  if (s.placed.take placed).contains name then some (s.isRepeated name)
  else if s.placed.contains name || s.named.contains name || s.takesOthers then none
  else some (s.isUnexpected name)

def bind (s : Signature) (args : List Value) (attributes : Entries) : Except Failure Entries :=
  let given := s.placed.zip args ++ attributes
  match attributes.findSome? fun e => s.nameFailure? args.length e.1 with
  | some f => .error f
  | none =>
    if s.placed.length < args.length then
      .error (s.hasTooMany args.length (attributes.countP fun e => s.named.contains e.1))
    else
      match (s.placed.take s.needed).find? fun name => (Entries.get? given name).isNone with
      | some name => .error (s.isMissing name)
      | none => .ok given

end Signature

def fieldSignature : Signature :=
  ⟨"_FieldsBuilder.field", ["name"], 1, fieldAttributes, true⟩

def versionSignature : Signature :=
  ⟨"ScriptBuilder.version", ["number"], 1, [], false⟩

def placeholderSignature : Signature :=
  ⟨"ScriptBuilder.placeholder", ["name"], 1, [], false⟩

def forceSignature : Signature :=
  ⟨"ScriptBuilder.force_triggerable", ["triggerable", "state"], 1, [], false⟩

/-- The signature of a call that takes any number of arguments by their place. -/
def triggersSignature : Signature :=
  ⟨"ScriptBuilder.triggerables", [], 0, [], false⟩

def argument (given : Entries) (name : String) : Value :=
  (Entries.get? given name).getD .null

/-- The call of a name with its arguments. A trigger takes calls for fields only. -/
def Call.read (kind : Kind) (name : String) (args : List Value) (attributes : Entries) :
    Except Failure Call :=
  match kind, name with
  | _, "field" =>
    (fieldSignature.bind args attributes).map fun given =>
      .field (argument given "name") (given.filter fun e => e.1 != "name")
  | .script, "version" =>
    (versionSignature.bind args attributes).map fun given => .version (argument given "number")
  | .script, "placeholder" =>
    (placeholderSignature.bind args attributes).map fun given =>
      .placeholder (argument given "name")
  | .script, "force_triggerable" =>
    (forceSignature.bind args attributes).map fun given =>
      .forceTrigger (argument given "triggerable") (argument given "state")
  | .script, "triggerables" =>
    (triggersSignature.bind [] attributes).map fun _ => .triggers args
  | kind, name => .error (.noMember kind.builderName name)

end Courier.Script
