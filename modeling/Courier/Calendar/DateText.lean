import Courier.Calendar.Date

/-!
# Reading dates

A date is written `2024-03-01` or `20240301`, or by week as `2024-W09-5`, `2024W095`, `2024-W09` or
`2024W09`. The text has seven, eight or ten bytes; what follows a complete date within that size is
not looked at.
-/

namespace Courier.Calendar

/-- The characters of a text, one for each byte. A character of several bytes becomes as many
characters that no date contains. -/
def bytes (s : String) : List Char :=
  s.toList.flatMap fun c => if c.toNat < 0x80 then [c] else List.replicate c.utf8Size '\uFFFD'

/-- A number of exactly `count` digits 0 to 9, and what follows it. -/
def takeNumber : Nat → Nat → List Char → Option (Nat × List Char)
  | 0, n, cs => some (n, cs)
  | count + 1, n, c :: cs =>
    if '0' ≤ c ∧ c ≤ '9' then takeNumber count (10 * n + (c.toNat - '0'.toNat)) cs else none
  | _ + 1, _, [] => none

/-- Removes a hyphen, which has to be there if the date has hyphens at all. -/
def dropHyphen (hyphens : Bool) (cs : List Char) : Option (List Char) :=
  if hyphens then
    match cs with
    | '-' :: rest => some rest
    | _ => none
  else
    some cs

def readWeekDate (hyphens : Bool) (year : Nat) (cs : List Char) : Option Date := do
  let (week, rest) ← takeNumber 2 0 cs
  if rest.isEmpty then Date.ofWeek? year week 1
  else
    let rest ← dropHyphen hyphens rest
    let (day, _) ← takeNumber 1 0 rest
    Date.ofWeek? year week day

def readMonthDate (hyphens : Bool) (year : Nat) (cs : List Char) : Option Date := do
  let (month, rest) ← takeNumber 2 0 cs
  let rest ← dropHyphen hyphens rest
  let (day, _) ← takeNumber 2 0 rest
  Date.of? year month day

def readDateChars (cs : List Char) : Option Date := do
  let (year, rest) ← takeNumber 4 0 cs
  let (hyphens, rest) :=
    match rest with
    | '-' :: more => (true, more)
    | _ => (false, rest)
  match rest with
  | 'W' :: more => readWeekDate hyphens year more
  | _ => readMonthDate hyphens year rest

def readDate (s : String) : Option Date :=
  let cs := bytes s
  if cs.length = 7 ∨ cs.length = 8 ∨ cs.length = 10 then readDateChars cs else none

end Courier.Calendar
