import Courier.Script.Call

/-!
# Building definitions

A script or a trigger is declared by a block of calls. A call that is refused changes nothing; the
block may go on after it. A block can also declare other scripts or triggers on its way.
-/

namespace Courier.Script

/-- What the calls of a block have declared so far. -/
structure Builder where
  owner : String
  fields : List Field
  version : Int
  placeholders : List String
  forced : Option Forced
  triggers : List String
  run : Option Hook
  onReset : Option Hook

namespace Builder

def start (owner : String) : Builder :=
  ⟨owner, [], 1, [], none, [], none, none⟩

def missingComponent : Failure :=
  .misfitArguments
    "_FieldsBuilder.field() missing 1 required keyword-only argument: 'component'"

def fieldName (name : Value) : String :=
  if name.isGiven then Text.strip name.display else ""

def fieldOf (name : String) (component : Value) (attributes : Entries) : Field :=
  { name
    component
    acceptsPlaceholders := (Entries.get? attributes "accepts_placeholders").getD (.bool false)
    triggerable := (Entries.get? attributes "triggerable").getD .null
    required := (Entries.get? attributes "required").getD (.bool false)
    extra := attributes.filter fun e => !fieldAttributes.contains e.1 }

/-- Adds a field. It needs a component and a name that no other field of the owner has. -/
def addField (b : Builder) (name : Value) (attributes : Entries) : Except Failure Builder :=
  match Entries.get? attributes "component" with
  | none => .error missingComponent
  | some component =>
    let name := fieldName name
    if name.isEmpty then .error (.fieldNameRequired b.owner)
    else if b.fields.any fun f => f.name == name then .error (.duplicateField b.owner name)
    else .ok { b with fields := b.fields ++ [fieldOf name component attributes] }

def perform (kind : Kind) (b : Builder) (c : Call) : Except Failure Builder :=
  match kind, c with
  | _, .field name attributes => b.addField name attributes
  | .trigger, c => .error (.noMember kind.builderName c.name)
  | .script, .version number => number.toInt.map fun n => { b with version := n }
  | .script, .placeholder name =>
    .ok { b with placeholders := b.placeholders ++ [normalize name.display] }
  | .script, .forceTrigger trigger state =>
    state.toEntries.map fun state => { b with forced := some ⟨trigger.display, state⟩ }
  | .script, .triggers names => .ok { b with triggers := names.map Value.display }
  | .script, .run hook => .ok { b with run := some hook }
  | .script, .onReset hook => .ok { b with onReset := some hook }

def sharedPlaceholder : String := "site_title"

def definition (b : Builder) : Definition :=
  { name := b.owner
    version := b.version
    fields := b.fields
    placeholders := sharedPlaceholder :: b.placeholders
    forced := b.forced
    declared := b.triggers }

def script (b : Builder) : Published :=
  ⟨b.definition, b.run.getD .idle, b.onReset.getD .idle⟩

def trigger (b : Builder) : Trigger :=
  ⟨b.owner, b.fields⟩

end Builder

/-- A block of declarations. It is told what became of each call, and may go on either way. -/
inductive Block where
  | finish
  | fail (f : Failure)
  | call (c : Call) (next : Option Failure → Block)
  | add (name : Value) (block : Block) (next : Option Failure → Block)

/-- The block of calls of which the first one that fails or is refused ends it. -/
def Block.ofResults : List (Except Failure Call) → Block
  | [] => .finish
  | .error f :: _ => .fail f
  | .ok c :: rest => .call c fun
    | none => ofResults rest
    | some f => .fail f

def Block.ofCalls (calls : List Call) : Block :=
  .ofResults (calls.map .ok)

end Courier.Script
