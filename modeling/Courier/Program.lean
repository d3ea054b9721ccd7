import Courier.Settings

/-!
# The program

What the program does, in order: it reads its settings, sets up the log, builds the application and
runs it.
-/

namespace Courier.Program

inductive Action where
  | configureLogging (level : String)
  | buildApplication (settings : Settings)
  | runPolling
deriving DecidableEq, Repr

/-- The actions of the program in an environment. With settings that are refused it does nothing. -/
def plan (env : Environment) : Except Failure (List Action) :=
  (Settings.load env).map fun s =>
    [.configureLogging s.logLevel, .buildApplication s, .runPolling]

end Courier.Program
