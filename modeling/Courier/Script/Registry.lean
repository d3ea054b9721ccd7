import Courier.Script.Builder

/-!
# Registries

A registry holds the definitions of scripts, or those of triggers, by their normalized names. A
definition is published when its block is complete; one of the same name is replaced.
-/

namespace Courier.Script

/-- Definitions by their names, in the order in which the names were first used. -/
structure Registry (α : Type) where
  kind : Kind
  definitions : List (String × α)

namespace Registry

variable {α : Type}

def empty (kind : Kind) : Registry α :=
  ⟨kind, []⟩

def get? (r : Registry α) (name : String) : Option α :=
  Entries.get? r.definitions (normalize name)

def get (r : Registry α) (name : String) : Except Failure α :=
  match r.get? name with
  | some d => .ok d
  | none => .error (.notRegistered r.kind.name name)

def contains (r : Registry α) : Value → Bool
  | .text name => (r.get? name).isSome
  | _ => false

def size (r : Registry α) : Nat :=
  r.definitions.length

def names (r : Registry α) : List String :=
  (r.definitions.map (·.1)).mergeSort fun a b => a ≤ b

def publish (key : String) (d : α) (r : Registry α) : Registry α :=
  { r with definitions := Entries.insert key d r.definitions }

def registeredRecord (kind : Kind) (key : String) (replaced : Bool) : Log.Record :=
  Log.Channel.registry.record Log.debug (kind.name ++ " registered")
    [("event", .text (kind.name ++ "_registered")), ("source", .text key),
      ("status", .text (if replaced then "replaced" else "new"))] none

/-- What a block left behind: its outcome, the registry and the records. -/
structure Built (α β : Type) where
  outcome : Except Failure β
  registry : Registry α
  journal : Log.Journal

/-- Publishes what a block built, after what it declared on its way. -/
def publishBuilt (build : Builder → α) (key : String) (built : Built α Builder) : Built α α :=
  match built.outcome with
  | .error f => ⟨.error f, built.registry, built.journal⟩
  | .ok b =>
    let replaced := (Entries.get? built.registry.definitions key).isSome
    ⟨.ok (build b), built.registry.publish key (build b),
      built.journal ++ [registeredRecord built.registry.kind key replaced]⟩

def failure? {β : Type} : Except Failure β → Option Failure
  | .ok _ => none
  | .error f => some f

/-- Runs a block on a builder. -/
def runBlock (build : Builder → α) : Block → Builder → Registry α → Built α Builder
  | .finish, b, r => ⟨.ok b, r, []⟩
  | .fail f, _, r => ⟨.error f, r, []⟩
  | .call c next, b, r =>
    match b.perform r.kind c with
    | .ok b => runBlock build (next none) b r
    | .error f => runBlock build (next (some f)) b r
  | .add name block next, b, r =>
    let key := normalize name.display
    let inner : Built α α :=
      if key.isEmpty then ⟨.error (.nameRequired r.kind.name), r, []⟩
      else publishBuilt build key (runBlock build block (.start key) r)
    let rest := runBlock build (next (failure? inner.outcome)) b inner.registry
    { rest with journal := inner.journal ++ rest.journal }

/-- Builds a definition and publishes it under a name. -/
def add (build : Builder → α) (name : Value) (block : Block) (r : Registry α) : Built α α :=
  let key := normalize name.display
  if key.isEmpty then ⟨.error (.nameRequired r.kind.name), r, []⟩
  else publishBuilt build key (runBlock build block (.start key) r)

end Registry

abbrev Scripts := Registry Published

abbrev Triggers := Registry Trigger

/-! ## Built-in triggers -/

def requiredField (name component : String) : Call :=
  .field (.text name) [("component", .text component), ("required", .bool true)]

/-- The triggers that are always there, with their fields. -/
def builtinTriggers : List (String × List Call) :=
  [("recurring", [requiredField "recurrence" "period", requiredField "start_date" "date_time"]),
    ("point_in_time", [requiredField "execute_at" "date_time"]),
    ("api_call", [])]

def addTriggers : List (String × List Call) → Triggers → Triggers × Log.Journal
  | [], r => (r, [])
  | (name, calls) :: rest, r =>
    let built := r.add Builder.trigger (.text name) (.ofCalls calls)
    let (r, records) := addTriggers rest built.registry
    (r, built.journal ++ records)

end Courier.Script
