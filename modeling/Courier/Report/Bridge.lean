import Courier.Report.Series
import Courier.Text.Case

/-!
# Fetching reports

A source answers queries for the series of a report. A source that fails, for whatever reason, is
recorded in the log and counts as one that has no such report, so that the text around a report is
not lost with it. Only a cancellation passes.
-/

namespace Courier.Report

structure Query where
  name : String
  filters : Entries

/-- A source of reports: its answer to the `n`-th query put to it. It may answer the same query
differently at another time. -/
abbrev Source := Nat → Query → Logged (Option Series)

/-- What asking for a report left behind: the result, the queries put to the source, and the
records. -/
structure Asked (α : Type) where
  outcome : Except Failure α
  queries : List Query
  journal : Log.Journal

def unavailable (name : String) (f : Failure) : Log.Record :=
  { logger := Log.Channel.reports.logger
    level := Log.warning
    message := .text "report unavailable: %s"
    args := [.text f.message]
    fields := [("event", .text "report_unavailable"), ("report", .text name)]
    failure := none }

def failed (name : String) (f : Failure) : Log.Record :=
  Log.Channel.reports.record Log.error "report engine failed"
    [("event", .text "report_error"), ("report", .text name)] (some f)

/-- The table that an answer of a source stands for, if any. -/
def tableOf (name : String) (answer : Except Failure (Option Series)) : Logged (Option String) :=
  match answer with
  | .ok series => ⟨.ok (series.map table), []⟩
  | .error f =>
    if f.isCancellation then ⟨.error f, []⟩
    else if f.isUnavailable then ⟨.ok none, [unavailable name f]⟩
    else ⟨.ok none, [failed name f]⟩

/-- The table of a report, asked of a source that answered `asked` queries before. -/
def fetch (source : Option Source) (asked : Nat) (name : String) (filters : Entries) :
    Asked (Option String) :=
  match source with
  | none => ⟨.ok none, [], []⟩
  | some answer =>
    let query : Query := ⟨Text.lower (Text.strip name), filters⟩
    let given := answer asked query
    let shown := tableOf query.name given.outcome
    ⟨shown.outcome, [query], given.journal ++ shown.journal⟩

end Courier.Report
