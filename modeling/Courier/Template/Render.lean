import Courier.Report.Bridge
import Courier.Report.Filter
import Courier.Template.Token

/-!
# Rendering templates

Each token is replaced by its meaning: a name by its value, and a report by its table. A token that
has no meaning stands for itself. What takes the place of a token is not read as a template.
-/

namespace Courier.Template

open Report (Asked Source)

/-- What templates are rendered with: the title of the site and the source of reports. -/
structure Engine where
  siteTitle : String
  source : Option Source

def siteTitleName : String := "site_title"

def reportName : String := "report"

/-- The values by their names in small letters. Of names that differ in case only the last one
counts. The title of the site is among them unless it is empty or a value has its name. -/
def lookupTable (siteTitle : String) (values : Entries) : Entries :=
  let named := Entries.ofList (values.map fun e => (Text.lower e.1, e.2))
  if siteTitle.isEmpty ∨ (Entries.get? named siteTitleName).isSome then named
  else Entries.insert siteTitleName (.text siteTitle) named

/-- The table of the report that the arguments of a token ask for, empty if there is none. -/
def reportText (source : Option Source) (asked : Nat) (args : List Char) : Asked String :=
  let (name, filters) := Report.partition ' ' (Text.trimWhile Text.isBlank args)
  if name.isEmpty then ⟨.ok "", [], []⟩
  else
    let (filters, records) := Report.readFilters (filters.getD [])
    let fetched := Report.fetch source asked (Text.lower (String.ofList name)) filters
    ⟨fetched.outcome.map (·.getD ""), fetched.queries, records ++ fetched.journal⟩

def tokenText (source : Option Source) (table : Entries) (asked : Nat) (t : Token) :
    Asked String :=
  let name := Text.lower (String.ofList t.name)
  match t.args with
  | some args =>
    if name = reportName then reportText source asked args
    else ⟨.ok (String.ofList t.chars), [], []⟩
  | none =>
    match Entries.get? table name with
    | none | some .null => ⟨.ok (String.ofList t.chars), [], []⟩
    | some v => ⟨.ok v.display, [], []⟩

def pieceText (source : Option Source) (table : Entries) (asked : Nat) : Piece → Asked String
  | .char c => ⟨.ok c.toString, [], []⟩
  | .token t => tokenText source table asked t

/-- The texts of the pieces one after another. A cancellation ends the rendering. -/
def renderPieces (source : Option Source) (table : Entries) (asked : Nat) :
    List Piece → Asked (List String)
  | [] => ⟨.ok [], [], []⟩
  | piece :: rest =>
    let first := pieceText source table asked piece
    match first.outcome with
    | .error f => ⟨.error f, first.queries, first.journal⟩
    | .ok text =>
      let others := renderPieces source table (asked + first.queries.length) rest
      ⟨others.outcome.map (text :: ·), first.queries ++ others.queries,
        first.journal ++ others.journal⟩

/-- The template with its tokens replaced, when the source answered `asked` queries before. -/
def Engine.render (engine : Engine) (asked : Nat) (template : String) (values : Entries) :
    Asked String :=
  let table := lookupTable engine.siteTitle values
  let rendered := renderPieces engine.source table asked (pieces template.toList)
  ⟨rendered.outcome.map String.join, rendered.queries, rendered.journal⟩

end Courier.Template
