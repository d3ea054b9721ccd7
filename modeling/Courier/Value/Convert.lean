import Courier.Failure

/-!
# Conversions of values

Whole numbers, lists and objects that are made from values of other kinds.
-/

namespace Courier

def readInteger (s : String) : Except Failure Int :=
  match Number.readInt s.toList with
  | .ok n => .ok n
  | .error .malformed => .error (.malformedInteger s)
  | .error (.tooLong digits) => .error (.integerTooLong digits)

namespace Value

/-- The whole number of a value: of a truth value 0 or 1, of a number its whole part, of a text the
number that it shows. -/
def toInt : Value → Except Failure Int
  | bool b => .ok (if b then 1 else 0)
  | int n => .ok n
  | float x =>
    match x with
    | .nan => .error .undefinedInteger
    | .infinite _ => .error .infiniteInteger
    | x => .ok (x.truncate?.getD 0)
  | text s => readInteger s
  | v => .error (.notNumeric v.kindName)

/-- The items of a value: of a list its items, of a text its characters, of an object its keys. -/
def toItems : Value → Except Failure (List Value)
  | list items => .ok items
  | text s => .ok (s.toList.map fun c => text c.toString)
  | object entries => .ok (entries.map fun e => text e.1)
  | v => .error (.notIterable v.kindName)

def toKey : Value → Except Failure String
  | null => .ok "null"
  | bool b => .ok (if b then "true" else "false")
  | list _ => .error (.notKey "list")
  | object _ => .error (.notKey "dict")
  | v => .ok v.display

/-- A key and a value from an item that has two items itself. -/
def toEntry (index : Nat) (v : Value) : Except Failure (String × Value) :=
  match v.toItems with
  | .error _ => .error (.notSequence index)
  | .ok [key, value] => key.toKey.map fun key => (key, value)
  | .ok items => .error (.notPair index items.length)

def toEntriesFrom (index : Nat) : List Value → Except Failure (List (String × Value))
  | [] => .ok []
  | v :: rest => do
    let entry ← v.toEntry index
    let entries ← toEntriesFrom (index + 1) rest
    return entry :: entries

/-- The entries of an object or of a list of pairs; a value that is not given has none. -/
def toEntries : Value → Except Failure Entries
  | object entries => .ok entries
  | v =>
    if v.isGiven then do
      let items ← v.toItems
      let pairs ← toEntriesFrom 0 items
      return Entries.ofList pairs
    else
      .ok []

end Value

end Courier
