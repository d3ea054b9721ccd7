import Courier.Calendar.Moment
import Courier.Number.Binary64

/-!
# Values

Payloads, field values and report filters are values of many kinds: what a JSON text can hold, and
dates and moments. The entries of an object are in the order in which their keys were first set,
and no key occurs twice.
-/

namespace Courier

inductive Value where
  | null
  | bool (b : Bool)
  | int (n : Int)
  | float (x : Number.Binary64)
  | text (s : String)
  | list (items : List Value)
  | object (entries : List (String × Value))
  | date (d : Calendar.Date)
  | moment (m : Calendar.Moment)

/-- Named values, in the order in which their names were first set. -/
abbrev Entries := List (String × Value)

namespace Entries

/-- Sets the value of a key. A key that is there keeps its place. -/
def insert {α : Type} (key : String) (value : α) : List (String × α) → List (String × α)
  | [] => [(key, value)]
  | (k, v) :: rest => if k = key then (k, value) :: rest else (k, v) :: insert key value rest

def get? {α : Type} (entries : List (String × α)) (key : String) : Option α :=
  (entries.find? fun e => e.1 == key).map (·.2)

/-- The entries with each key set in turn, so that the last value of a key counts. -/
def ofList {α : Type} (pairs : List (String × α)) : List (String × α) :=
  pairs.foldl (fun entries pair => insert pair.1 pair.2 entries) []

theorem get?_insert {α : Type} (key k : String) (value : α) (entries : List (String × α)) :
    get? (insert key value entries) k = if key = k then some value else get? entries k := by
  induction entries with
  | nil => by_cases hk : key = k <;> simp [insert, get?, hk]
  | cons entry rest ih =>
    rw [insert]
    split
    · rename_i hkey
      by_cases hk : key = k <;> simp_all [get?]
    · rename_i hkey
      by_cases hentry : entry.1 = k
      · have hk : key ≠ k := fun hk => hkey (hentry.trans hk.symm)
        simp [get?, hentry, hk]
      · simpa [get?, hentry] using ih

end Entries

namespace Value

/-- Whether a value counts as given: it is not null, false, zero or empty. -/
def isGiven : Value → Bool
  | null => false
  | bool b => b
  | int n => n != 0
  | float x => !x.isZero
  | text s => !s.isEmpty
  | list items => !items.isEmpty
  | object entries => !entries.isEmpty
  | date _ => true
  | moment _ => true

def isNull : Value → Bool
  | null => true
  | _ => false

def kindName : Value → String
  | null => "NoneType"
  | bool _ => "bool"
  | int _ => "int"
  | float _ => "float"
  | text _ => "str"
  | list _ => "list"
  | object _ => "dict"
  | date _ => "datetime.date"
  | moment _ => "datetime.datetime"

def ofOption : Option String → Value
  | some s => text s
  | none => null

def ofOptionInt : Option Int → Value
  | some n => int n
  | none => null

end Value

end Courier
