import Courier.Proofs.Outbox.Operations
import Courier.Script.Runner
import Courier.Script.SendMessage

/-!
# Resetting automations of the built-in script

A reset of such an automation does not call the messenger, so nobody else acts on the desk while it
goes on. To the store it does what the dispatcher does when it cancels the messages of the automation.
-/

namespace Courier

namespace Routine

variable {σ τ α β : Type}

/-- The result of a routine that does not call the messenger, and the state that it leaves. -/
def settle? (r : Routine σ α) (s : σ) : Option (α × σ) :=
  match r with
  | done a => some (a, s)
  | read next => (next s).settle? s
  | write s next => next.settle? s
  | send _ _ => none
  | signal _ next => next.settle? s

theorem settle?_bind (r : Routine σ α) (f : α → Routine σ β) (s : σ) :
    (r.bind f).settle? s = (r.settle? s).bind fun result => (f result.1).settle? result.2 := by
  induction r generalizing s with
  | done a => rfl
  | read next ih => exact ih s s
  | write s' next ih => exact ih s'
  | send payload next => rfl
  | signal v next ih => exact ih s

end Routine

namespace Script

open Session (Work)

/-- A reset of an automation of the built-in script. -/
structure Reset where
  runner : Runner
  /-- How deep hooks of the script may run others. -/
  depth : Nat
  automation : Automation
  traceId : String
  script : Published
  registered : runner.scripts.get automation.script = .ok script
  onReset : script.onReset = SendMessage.inContext SendMessage.resetIn

namespace Reset

def context (r : Reset) : Context :=
  Runner.contextOf r.automation r.script.definition [] r.traceId

/-- What the hook of the script does, before its outcome becomes a result. -/
def hook (r : Reset) : Work Value :=
  Runner.runIn r.context ((r.script.hook .onReset).play (r.runner.invoke r.depth))

def work (r : Reset) : Work (List RunResult) :=
  r.runner.invoke (r.depth + 1) (.reset r.automation r.traceId)

/-- What the hook of a reset ends with: the number of the messages that were cancelled. -/
def outcome (r : Reset) (d : Desk) : Except Failure Value × Desk :=
  match Dispatch.cancelPending r.automation.id d with
  | .error f => (.error f, d)
  | .ok (count, d) => (.ok (.int count), d)

theorem settle?_hook (r : Reset) (d : Desk) (current : Option Context) :
    r.hook.settle? ⟨d, current⟩ = some ((r.outcome d).1, ⟨(r.outcome d).2, current⟩) := by
  rw [hook, Published.hook, r.onReset]
  rfl

theorem work_eq (r : Reset) :
    r.work = (r.hook.bind (Runner.conclude .onReset r.context)).bind fun result =>
      .done (result.map fun r => [r]) := by
  rw [work, Runner.invoke, Runner.single, r.registered]
  rfl

theorem settle?_conclude (name : HookName) (c : Context) (outcome : Except Failure Value)
    (s : Session) :
    ∃ result journal, (Runner.conclude name c outcome).settle? s =
      some (result, s.withDesk { s.desk with journal }) := by
  cases outcome with
  | ok v => exact ⟨_, _, rfl⟩
  | error f =>
    rw [Runner.conclude]
    split
    · exact ⟨_, s.desk.journal, rfl⟩
    · exact ⟨_, _, rfl⟩

/-- A reset comes to its end, and leaves behind what its hook does. -/
theorem settle?_work (r : Reset) (d : Desk) (current : Option Context) :
    ∃ results journal, r.work.settle? ⟨d, current⟩ =
      some (results, ⟨{ (r.outcome d).2 with journal }, current⟩) := by
  obtain ⟨result, journal, h⟩ := settle?_conclude .onReset r.context (r.outcome d).1
    ⟨(r.outcome d).2, current⟩
  rw [work_eq, Routine.settle?_bind, Routine.settle?_bind, settle?_hook, Option.bind_some, h]
  exact ⟨_, journal, rfl⟩

end Reset

theorem normalize_scriptName : normalize SendMessage.scriptName = SendMessage.scriptName := by
  decide +kernel

/-- Whatever is registered besides, the built-in script is the one that a reset finds. -/
theorem SendMessage.get_register (siteTitle : String) (scripts : Scripts)
    (hkind : scripts.kind = .script) :
    ∃ s, (register siteTitle scripts).registry.get scriptName = .ok s ∧
      s.onReset = inContext resetIn := by
  obtain ⟨kind, definitions⟩ := scripts
  subst hkind
  obtain ⟨b, hblock, hreset⟩ : ∃ b, Registry.runBlock Builder.script (.ofCalls (calls siteTitle))
      (.start scriptName) ⟨.script, definitions⟩ = ⟨.ok b, ⟨.script, definitions⟩, []⟩ ∧
        b.script.onReset = inContext resetIn := ⟨_, rfl, rfl⟩
  have hbuilt : (register siteTitle ⟨.script, definitions⟩).registry =
      (⟨.script, definitions⟩ : Scripts).publish scriptName b.script := by
    rw [register, Registry.add, Value.display, normalize_scriptName, hblock]
    rfl
  refine ⟨b.script, ?_, hreset⟩
  rw [hbuilt, Registry.get, Registry.get?, normalize_scriptName, Registry.publish,
    Entries.get?_insert, if_pos rfl]

end Script

end Courier
