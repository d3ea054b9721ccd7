import Courier.Desk
import Courier.Routine
import Courier.Script.Definition

/-!
# Hooks

A hook is what a script does when it runs or is reset. It can ask for its context, work at the desk,
send messages, and run automations itself. It ends with a value or a failure.
-/

namespace Courier.Script

/-- What can be asked of the runner. -/
inductive Invocation where
  | run (a : Automation) (payload : Entries) (traceId : String)
  | reset (a : Automation) (traceId : String)
  | fire (trigger : String) (automations : List Automation) (payload : Entries) (traceId : String)

inductive Hook where
  | finish (outcome : Except Failure Value)
  | context (next : Except Failure Context → Hook)
  | perform (work : Routine Desk (Except Failure Value)) (next : Except Failure Value → Hook)
  | invoke (call : Invocation) (next : Except Failure (List RunResult) → Hook)

def Hook.idle : Hook :=
  .finish (.ok .null)

/-- A script as it is published: its definition and its two hooks. -/
structure Published where
  definition : Definition
  run : Hook
  onReset : Hook

end Courier.Script
