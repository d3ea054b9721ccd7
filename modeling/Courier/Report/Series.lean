import Courier.Log.Record
import Courier.Value.Convert

/-!
# Report series

A report is a series of counts by day. It is read from a payload, where rows that are malformed are
left out, and shown as a table.
-/

namespace Courier.Report

structure Point where
  day : Calendar.Date
  count : Int
deriving DecidableEq

abbrev Series := List Point

/-! ## Tables -/

def tableHeader : String :=
  "\n|Day|Count|\n|-|-|\n"

def row (p : Point) : String :=
  "|" ++ p.day.shortText ++ "|" ++ toString p.count ++ "|\n"

def table (points : Series) : String :=
  tableHeader ++ String.join (points.map row)

/-! ## Payloads -/

/-- The day of a row: the first ten characters of its text, without blanks in front. -/
def rowDay (entries : Entries) : Option Calendar.Date :=
  let x := ((Entries.get? entries "x").getD (.text "")).display
  Calendar.readDate (String.ofList ((Text.strip x).toList.take 10))

/-- The count of a row; one that is missing or empty is zero. -/
def rowCount (entries : Entries) : Except Failure Int :=
  match Entries.get? entries "y" with
  | some y => if y.isGiven then y.toInt else .ok 0
  | none => .ok 0

/-- What a row of a payload holds. -/
inductive Row where
  | point (p : Point)
  /-- A row that is no object, which is passed over. -/
  | other
  /-- An object that is no row, which is passed over with a warning. -/
  | malformed
  | failure (f : Failure)

def readRow : Value → Row
  | .object entries =>
    match rowDay entries with
    | none => .malformed
    | some day =>
      match rowCount entries with
      | .ok count => .point ⟨day, count⟩
      | .error f => if f.isConversion then .malformed else .failure f
  | _ => .other

def malformedRow : Log.Record :=
  Log.Channel.reportSource.record Log.warning "skipping malformed report row"
    [("event", .text "report_row_invalid")] none

/-- A result and the records that were written on the way to it. -/
structure Logged (α : Type) where
  outcome : Except Failure α
  journal : Log.Journal

def readRows : List Value → Logged Series
  | [] => ⟨.ok [], []⟩
  | v :: rest =>
    match readRow v with
    | .failure f => ⟨.error f, []⟩
    | .other => readRows rest
    | .malformed =>
      let others := readRows rest
      ⟨others.outcome, malformedRow :: others.journal⟩
    | .point p =>
      let others := readRows rest
      ⟨others.outcome.map (p :: ·), others.journal⟩

/-- The items of the data of a report; data that is missing or empty has none. -/
def dataItems (report : Entries) : Except Failure (List Value) :=
  match Entries.get? report "data" with
  | some data => if data.isGiven then data.toItems else .ok []
  | none => .ok []

/-- The series in a payload. A payload without a report has none. -/
def ofPayload : Value → Logged (Option Series)
  | .object entries =>
    match Entries.get? entries "report" with
    | some (.object report) =>
      match dataItems report with
      | .ok items =>
        let rows := readRows items
        ⟨rows.outcome.map some, rows.journal⟩
      | .error f => ⟨.error f, []⟩
    | _ => ⟨.ok none, []⟩
  | _ => ⟨.error (.reportUnavailable "unexpected report payload"), []⟩

end Courier.Report
