import Courier.Main
import Courier.Message.Telegram
import Courier.Proofs.Crew.Basic
import Courier.Proofs.Crew.Exclusion
import Courier.Proofs.Crew.Listing
import Courier.Proofs.Crew.Cancellation
import Courier.Proofs.Crew.NoLoss
import Courier.Proofs.Crew.Resumption
import Courier.Proofs.Crew.Staleness
import Courier.Proofs.Message.Cuts
import Courier.Proofs.Outbox.Interruptions
import Courier.Proofs.Outbox.Treatment
import Courier.Proofs.Crew.Aftermath
import Courier.Proofs.Json.RoundTrip
import Courier.Proofs.Outbox.Failures
import Courier.Proofs.Outbox.Retries
import Courier.Proofs.Outbox.Standing
import Courier.Proofs.Crew.Deeds
import Courier.Proofs.Crew.Retries
import Courier.Proofs.Template.Segments
import Courier.Proofs.Calendar.Days
import Courier.Proofs.Calendar.TextOrder
import Courier.Proofs.Outbox.Chronicle
import Courier.Proofs.Outbox.Selection
import Courier.Proofs.Outbox.LeaseWindow
import Courier.Proofs.Crew.Posting
import Courier.Proofs.Crew.Arrival
import Courier.Proofs.Script.Asking
import Courier.Proofs.Template.ReportTokens
import Courier.Proofs.Outbox.Sessions
import Courier.Proofs.Crew.Containment
import Courier.Proofs.Crew.Takeover
import Courier.Proofs.Crew.Chunks
import Courier.Proofs.Script.Contexts
import Courier.Proofs.Script.Registries
import Courier.Proofs.Script.Firing
import Courier.Proofs.Outbox.Secrets
import Courier.Proofs.Crew.Repeats
import Courier.Proofs.Service.Shutdown
import Courier.Proofs.Service.Survival
import Courier.Proofs.Outbox.Opening
import Courier.Proofs.Redaction.Texts
import Courier.Proofs.Message.Blanks
import Courier.Proofs.Redaction.Payloads
import Courier.Proofs.Redaction.Pairs
import Courier.Proofs.Report.Rows
import Courier.Proofs.Outbox.Recipients
import Courier.Proofs.Message.Display
import Courier.Proofs.Message.Calls
import Courier.Proofs.Outbox.AuditLog
import Courier.Proofs.Log.Lines
import Courier.Proofs.Message.Identities
import Courier.Proofs.Report.Tables
import Courier.Proofs.Script.Fields
import Courier.Proofs.Script.Definitions
import Courier.Proofs.Template.Arguments
import Courier.Proofs.Log.Patterns
