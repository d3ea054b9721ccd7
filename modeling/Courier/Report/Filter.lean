import Courier.Log.Record
import Courier.Text.Case
import Courier.Value.Basic

/-!
# Report filters

The filters of a report are written as words `name=value` with blanks between them. Names are read
without regard to case. The values of two filters are dates; one that is no date is left out with a
warning. Words that are no filter are left out.
-/

namespace Courier.Report

def dateFilters : List String :=
  ["start_date", "end_date"]

/-- The parts of a list in front of the first occurrence of a character and behind it. -/
def partition (separator : Char) (cs : List Char) : List Char × Option (List Char) :=
  match cs.dropWhile (· != separator) with
  | [] => (cs, none)
  | _ :: rest => (cs.takeWhile (· != separator), some rest)

def filterOf? (word : List Char) : Option (String × String) :=
  match partition '=' word with
  | (name, some value) =>
    if name.isEmpty ∨ value.isEmpty then none
    else some (Text.lower (String.ofList name), String.ofList value)
  | (_, none) => none

def invalidDate (name : String) : Log.Record :=
  Log.Channel.placeholders.record Log.warning "ignoring invalid report date filter"
    [("event", .text "report_filter_invalid"), ("report", .text name)] none

def addFilter (filters : Entries) (word : List Char) : Entries × Log.Journal :=
  match filterOf? word with
  | none => (filters, [])
  | some (name, value) =>
    if dateFilters.contains name then
      match Calendar.readDate value with
      | some day => (Entries.insert name (.date day) filters, [])
      | none => (filters, [invalidDate name])
    else
      (Entries.insert name (.text value) filters, [])

def addFilters (filters : Entries) : List (List Char) → Entries × Log.Journal
  | [] => (filters, [])
  | word :: rest =>
    let (filters, records) := addFilter filters word
    let (filters, others) := addFilters filters rest
    (filters, records ++ others)

def readFilters (cs : List Char) : Entries × Log.Journal :=
  addFilters [] (Text.words cs)

end Courier.Report
