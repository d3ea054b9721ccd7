import Courier.Text.Case
import Courier.Value.Convert

/-!
# Settings

The settings of the program are read from its environment. Blanks around them do not count, and most
of them have a value that stands for a missing one.
-/

namespace Courier

structure Settings where
  token : String
  operatorChat : Option Int
  siteTitle : String
  requestTimeout : Int
  reportBaseUrl : Option String
  reportKey : Option String
  reportUsername : Option String
  pollInterval : Int
  retryLimit : Int
  claimLease : Int
  logLevel : String
  storePath : String
deriving DecidableEq, Repr

/-- The variables of an environment. -/
abbrev Environment := List (String × String)

namespace Environment

/-- An environment in which the variables of a file count before those that are there. -/
def override (file : Environment) (env : Environment) : Environment :=
  file.foldl (fun env e => Entries.insert e.1 e.2 env) env

/-- A variable without blanks around it; a missing one is empty. -/
def text (env : Environment) (name : String) : String :=
  Text.strip ((Entries.get? env name).getD "")

def optionalText (env : Environment) (name : String) : Option String :=
  let s := env.text name
  if s.isEmpty then none else some s

def optionalInt (env : Environment) (name : String) : Except Failure (Option Int) :=
  match env.optionalText name with
  | none => .ok none
  | some s =>
    match readInteger s with
    | .ok n => .ok (some n)
    | .error _ => .error (.settingNotInteger name)

def int (env : Environment) (name : String) (default : Int) : Except Failure Int :=
  (env.optionalInt name).map (·.getD default)

end Environment

namespace Settings

/-- The settings that a program has if only its token is given. -/
def ofToken (token : String) : Settings :=
  { token
    operatorChat := none
    siteTitle := "Automation"
    requestTimeout := 20
    reportBaseUrl := none
    reportKey := none
    reportUsername := none
    pollInterval := 15
    retryLimit := 3
    claimLease := 300
    logLevel := "INFO"
    storePath := "data/autoscript.db" }

def retryLimitName : String := "PENDING_SEND_RETRY_LIMIT"

def tokenName : String := "TELEGRAM_BOT_TOKEN"

def variableNames : List String :=
  [tokenName, "OPERATOR_CHAT_ID", "SITE_TITLE", "REQUEST_TIMEOUT_SECONDS", "REPORT_API_BASE_URL",
    "REPORT_API_KEY", "REPORT_API_USERNAME", "PENDING_POLL_INTERVAL_SECONDS", retryLimitName,
    "PENDING_CLAIM_LEASE_SECONDS", "LOG_LEVEL", "STATE_DB_PATH"]

/-- The settings in an environment. A token is required, and at least one try of a delivery. -/
def load (env : Environment) : Except Failure Settings := do
  let token := env.text tokenName
  if token.isEmpty then throw (.settingMissing tokenName)
  let default := ofToken token
  let retryLimit ← env.int retryLimitName default.retryLimit
  if retryLimit < 1 then throw (.settingTooSmall retryLimitName)
  let operatorChat ← env.optionalInt "OPERATOR_CHAT_ID"
  let requestTimeout ← env.int "REQUEST_TIMEOUT_SECONDS" default.requestTimeout
  let pollInterval ← env.int "PENDING_POLL_INTERVAL_SECONDS" default.pollInterval
  let claimLease ← env.int "PENDING_CLAIM_LEASE_SECONDS" default.claimLease
  return {
    token
    operatorChat
    siteTitle := (env.optionalText "SITE_TITLE").getD default.siteTitle
    requestTimeout
    reportBaseUrl := env.optionalText "REPORT_API_BASE_URL"
    reportKey := env.optionalText "REPORT_API_KEY"
    reportUsername := env.optionalText "REPORT_API_USERNAME"
    pollInterval
    retryLimit
    claimLease
    logLevel := ((env.optionalText "LOG_LEVEL").map Text.upper).getD default.logLevel
    storePath := ((Entries.get? env "STATE_DB_PATH").map Text.strip).getD default.storePath }

end Settings

end Courier
