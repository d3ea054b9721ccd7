import Courier.Number.Integer
import Courier.Number.Shortest
import Courier.Text.Quoted
import Courier.Value.Basic

/-!
# The text of a value

`Value.display` is the text of a value that stands alone, where a text is itself and a date is
written by its digits. `Value.quoted` is the text of a value inside a list, an object or an error
message, where a text is quoted. Whole numbers that are too long for a text have none, and neither has
a value that holds one; `Value.display?` and `Value.quoted?` see to that.
-/

namespace Courier.Value

/-- The length of a time span, as whole days and the seconds and microseconds that are left. -/
def spanText (micros : Int) : String :=
  let days := micros.fdiv Calendar.microsPerDay
  let left := micros.fmod Calendar.microsPerDay
  let seconds := left.fdiv Calendar.microsPerSecond
  let rest := left.fmod Calendar.microsPerSecond
  let parts :=
    (if days = 0 then [] else ["days=" ++ toString days]) ++
      (if seconds = 0 then [] else ["seconds=" ++ toString seconds]) ++
      (if rest = 0 then [] else ["microseconds=" ++ toString rest])
  "datetime.timedelta(" ++ (if parts.isEmpty then "0" else ", ".intercalate parts) ++ ")"

def zoneText (offset : Int) : String :=
  if offset = 0 then "datetime.timezone.utc" else "datetime.timezone(" ++ spanText offset ++ ")"

def quotedDate (d : Calendar.Date) : String :=
  "datetime.date(" ++ ", ".intercalate ([d.year, d.month, d.day].map toString) ++ ")"

/-- A moment inside a container: its numbers, with seconds and microseconds only where needed. -/
def quotedMoment (m : Calendar.Moment) : String :=
  let micros := m.shown.micros
  let day :=
    match Calendar.Date.ofOrdinal? (micros / Calendar.microsPerDay + 1) with
    | some d => [d.year, d.month, d.day]
    | none => []
  let time := micros % Calendar.microsPerDay
  let seconds := time / Calendar.microsPerSecond
  let rest := time % Calendar.microsPerSecond
  let small :=
    if rest ≠ 0 then [seconds % 60, rest] else if seconds % 60 ≠ 0 then [seconds % 60] else []
  let numbers := (day ++ [seconds / 3600, seconds / 60 % 60] ++ small).map toString
  let zone := (m.offset.map fun offset => ["tzinfo=" ++ zoneText offset]).getD []
  "datetime.datetime(" ++ ", ".intercalate (numbers ++ zone) ++ ")"

mutual
def quoted : Value → String
  | null => "None"
  | bool b => if b then "True" else "False"
  | int n => toString n
  | float x => x.text
  | text s => Text.quoted s
  | list items => "[" ++ ", ".intercalate (quotedItems items) ++ "]"
  | object entries => "\x7b" ++ ", ".intercalate (quotedEntries entries) ++ "\x7d"
  | date d => quotedDate d
  | moment m => quotedMoment m

def quotedItems : List Value → List String
  | [] => []
  | v :: rest => v.quoted :: quotedItems rest

def quotedEntries : List (String × Value) → List String
  | [] => []
  | (k, v) :: rest => (Text.quoted k ++ ": " ++ v.quoted) :: quotedEntries rest
end

def display : Value → String
  | text s => s
  | date d => d.isoText
  | moment m => m.text
  | v => v.quoted

mutual
/-- Whether the value holds a whole number with too many digits. -/
def isOverlong : Value → Bool
  | int n => Number.digitLimit < (toString n.natAbs).length
  | list items => anyOverlong items
  | object entries => anyEntryOverlong entries
  | _ => false

def anyOverlong : List Value → Bool
  | [] => false
  | v :: rest => v.isOverlong || anyOverlong rest

def anyEntryOverlong : List (String × Value) → Bool
  | [] => false
  | (_, v) :: rest => v.isOverlong || anyEntryOverlong rest
end

def display? (v : Value) : Option String :=
  if v.isOverlong then none else some v.display

def quoted? (v : Value) : Option String :=
  if v.isOverlong then none else some v.quoted

end Courier.Value
