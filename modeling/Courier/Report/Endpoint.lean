import Courier.Report.Bridge
import Courier.Report.Filter
import Courier.Web.Client

/-!
# Reports from the web

A source that reads reports from an administration interface. Each query becomes one request, whose
parameters are the filters of the query; the answer is the series in the body of the response. A
report that is not found has no series. What goes wrong on the way makes the report unavailable.
-/

namespace Courier.Report

structure Endpoint where
  baseUrl : String
  timeout : Value
  apiKey : Option String
  apiUsername : Option String

def filterText : Value → String
  | .moment m => m.isoText
  | v => v.display

/-- The name of the parameter of a filter. Dates have parameters of their own. -/
def paramName (filter : String) : String :=
  if dateFilters.contains filter then filter else "filters[" ++ filter ++ "]"

def params (filters : Entries) : List (String × String) :=
  Entries.ofList (filters.map fun e => (paramName e.1, filterText e.2))

namespace Endpoint

def credential (name : String) : Option String → List (String × String)
  | some value => if value.isEmpty then [] else [(name, value)]
  | none => []

def headers (e : Endpoint) : List (String × String) :=
  [("Accept", "application/json")] ++ credential "Api-Key" e.apiKey ++
    credential "Api-Username" e.apiUsername

def base (e : Endpoint) : String :=
  String.ofList (Text.dropEndWhile (· == '/') e.baseUrl.toList)

def request (e : Endpoint) (q : Query) : Web.Request :=
  { url := e.base ++ "/admin/reports/" ++ q.name ++ ".json"
    params := params q.filters
    headers := e.headers
    timeout := e.timeout
    followRedirects := true }

def unavailable (q : Query) (f : Failure) : Failure :=
  .reportUnavailable (q.name ++ ": " ++ f.message)

def readResponse (q : Query) (url : Web.Url) (r : Web.Response) : Logged (Option Series) :=
  if r.status = 404 then ⟨.ok none, []⟩
  else
    match r.failure? url with
    | some f => ⟨.error (unavailable q f), []⟩
    | none =>
      match Json.readBody r.body with
      | .error e => ⟨.error (unavailable q (.ofReadError e)), []⟩
      | .ok payload => ofPayload payload

def answer (e : Endpoint) (transport : Web.Transport) (q : Query) : Logged (Option Series) :=
  match Web.send transport (e.request q) with
  | .error f => ⟨.error (if Web.isTransportFailure f then unavailable q f else f), []⟩
  | .ok (url, r) => readResponse q url r

/-- The endpoint as a source. What it answers depends on the server alone. -/
def source (e : Endpoint) (transport : Web.Transport) : Source :=
  fun _ q => e.answer transport q

end Endpoint

end Courier.Report
