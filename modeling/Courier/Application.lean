import Courier.Outbox.Worker
import Courier.Report.Endpoint
import Courier.Script.Runner
import Courier.Script.SendMessage
import Courier.Settings

/-!
# The application

The parts of the program put together: the registries with what is built in, the source of reports
if one is configured, and the worker. The worker starts with the application; when the application
ends, the worker is stopped and then the store is closed.
-/

namespace Courier

open Script (Runner)

namespace Settings

def policy (s : Settings) : Outbox.Policy :=
  ⟨s.retryLimit, .whole s.claimLease, s.operatorChat, s.pollInterval⟩

def endpoint? (s : Settings) : Option Report.Endpoint :=
  match s.reportBaseUrl with
  | some url =>
    if url.isEmpty then none
    else some ⟨url, .int s.requestTimeout, s.reportKey, s.reportUsername⟩
  | none => none

def source? (s : Settings) (transport : Web.Transport) : Option Report.Source :=
  s.endpoint?.map fun e => e.source transport

end Settings

namespace Application

def reportsDisabled : Log.Record :=
  Log.Channel.application.record Log.warning
    "report api not configured; REPORT placeholders render empty"
    [("event", .text "report_api_disabled")] none

/-- The registries with what is built in, and the records of filling them. -/
def services (s : Settings) : Runner × Log.Journal :=
  let disabled := if s.endpoint?.isSome then [] else [reportsDisabled]
  let (triggers, triggerRecords) :=
    Script.addTriggers Script.builtinTriggers (Script.Registry.empty .trigger)
  let built := Script.SendMessage.register s.siteTitle (Script.Registry.empty .script)
  (⟨built.registry, triggers⟩, disabled ++ triggerRecords ++ built.journal)

def builtRecord (runner : Runner) : Log.Record :=
  Log.Channel.application.record Log.info "application built"
    [("event", .text "app_built"), ("result_count", .int runner.scripts.size)] none

/-- The registries of the application, and the records of building it. -/
def build (s : Settings) : Runner × Log.Journal :=
  let (runner, records) := services s
  (runner, records ++ [builtRecord runner])

def parts : List String :=
  ["pending_service", "services", "state_store"]

def unhandledRecord (f : Failure) : Log.Record :=
  Log.Channel.application.record Log.error "unhandled telegram exception"
    [("event", .text "telegram_unhandled_error")] (some f)

/-- Closes the application: stops its worker and closes its store, as far as they are there. The
failure of a worker that ended by itself is given on. -/
def shutDown (hasWorker hasStore : Bool) (w : Outbox.Worker) (d : Desk) :
    Except Failure Unit × Desk × Outbox.Worker :=
  let (outcome, d, w) := if hasWorker then w.stop d else (.ok (), d, w)
  match outcome with
  | .error f => (.error f, d, w)
  | .ok () => (.ok (), if hasStore then { d with store := d.store.close } else d, w)

end Application

end Courier
