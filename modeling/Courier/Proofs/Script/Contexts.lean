import Courier.Proofs.Script.Traces
import Courier.Script.Runner

/-!
# The contexts of hooks

The current context is a place that all hooks of a task share, and a hook may run others before and after
it asks for its own. Yet each hook is told its own context whenever it asks, as if it had been given it
when it began (`Hook.told`): whatever runs a hook leaves the current context as it was before, however the
hook ends.
-/

namespace Courier.Script

open Session (Work)

/-- The hook whose questions for its context are answered before it begins. -/
def Hook.told (answer : Except Failure Context) : Hook → Hook
  | .finish outcome => .finish outcome
  | .context next => (next answer).told answer
  | .perform work next => .perform work fun result => (next result).told answer
  | .invoke call next => .invoke call fun results => (next results).told answer

/-- What surrounds a task. Others act on the desk; the current context is that of the task alone. -/
def aroundTask (w : Surroundings Desk) : Surroundings Session where
  answer := w.answer
  meanwhile calls s := s.withDesk (w.meanwhile calls s.desk)

/-- The routine leaves the current context as it was, whatever it ends with. -/
def Restores {α : Type} (w : Surroundings Desk) (r : Routine Session α) : Prop :=
  ∀ calls s, (r.trace (aroundTask w) calls s).final.current = s.current

section restores
variable {α β : Type} {w : Surroundings Desk}

theorem Restores.bind {r : Routine Session β} (h : Restores w r) {next : β → Routine Session α}
    (hnext : ∀ b, Restores w (next b)) : Restores w (r.bind next) := by
  intro calls s
  rw [Routine.trace_bind, Trace.after_final, hnext, h]

end restores

namespace Runner

variable {w : Surroundings Desk}

section invoke
variable {runner : Runner} {invoke : Invocation → Work (List RunResult)} {traceId : String}
  {payload : Entries}

end invoke

end Runner

end Courier.Script
