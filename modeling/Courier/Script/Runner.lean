import Courier.Script.Registry

/-!
# Running hooks

The runner runs the hooks of automations, one by one or all that a trigger selects. A hook that
fails makes its result a failed one and nothing else; a cancellation passes. While a hook runs, its
context is the current one; afterwards the one before is.

Hooks can run other hooks. `Runner.invoke` is told how deep this may go.
-/

namespace Courier.Script

/-- What running hooks share: the desk, and the context of the hook that runs, if one does. -/
structure Session where
  desk : Desk
  current : Option Context

namespace Session

abbrev Work (α : Type) := Routine Session (Except Failure α)

def withDesk (d : Desk) (s : Session) : Session :=
  { s with desk := d }

def withCurrent (c : Option Context) (s : Session) : Session :=
  { s with current := c }

def log (r : Log.Record) (s : Session) : Session :=
  { s with desk := s.desk.log r }

def write (r : Log.Record) : Routine Session Unit :=
  .act fun s => ((), s.log r)

def context (s : Session) : Except Failure Context :=
  match s.current with
  | some c => .ok c
  | none => .error .noHookRunning

end Session

open Session (Work)

/-- Runs a hook; `invoke` is what becomes of its calls of the runner. -/
def Hook.play (invoke : Invocation → Work (List RunResult)) : Hook → Work Value
  | .finish outcome => .done outcome
  | .context next => .read fun s => (next s.context).play invoke
  | .perform work next =>
    (work.within Session.desk Session.withDesk).bind fun result => (next result).play invoke
  | .invoke call next => (invoke call).bind fun results => (next results).play invoke

/-- The two hooks of a script. -/
inductive HookName where
  | run
  | onReset
deriving DecidableEq, Repr

def HookName.text : HookName → String
  | run => "run"
  | onReset => "on_reset"

def Published.hook (s : Published) : HookName → Hook
  | .run => s.run
  | .onReset => s.onReset

structure Runner where
  scripts : Scripts
  triggers : Triggers

namespace Runner

/-! ## Records -/

def hookFields (c : Context) (event status : String) : Entries :=
  [("trace_id", .text c.traceId), ("trigger", .ofOption c.trigger),
    ("script", .text c.definition.name), ("automation_id", c.automation.id),
    ("event", .text event), ("status", .text status)]

def finishedRecord (name : HookName) (c : Context) : Log.Record :=
  Log.Channel.runner.record Log.info "script hook finished"
    (hookFields c ("script_" ++ name.text ++ "_ok") "ok") none

def failedRecord (name : HookName) (c : Context) (f : Failure) : Log.Record :=
  Log.Channel.runner.record Log.error "script hook failed"
    (hookFields c ("script_" ++ name.text ++ "_error") "error") (some f)

def fireFields (event trigger traceId : String) : Entries :=
  [("event", .text event), ("trace_id", .text traceId), ("trigger", .text trigger)]

def firedRecord (trigger traceId : String) : Log.Record :=
  Log.Channel.runner.record Log.info "trigger fired" (fireFields "trigger_start" trigger traceId)
    none

def firingEndRecord (trigger traceId : String) (count : Nat) : Log.Record :=
  Log.Channel.runner.record Log.info "trigger finished"
    (fireFields "trigger_end" trigger traceId ++
      [("status", .text "ok"), ("result_count", .int count)]) none

def missingRecord (trigger traceId : String) (a : Automation) : Log.Record :=
  Log.Channel.runner.record Log.error "script missing for automation"
    (fireFields "script_missing" trigger traceId ++
      [("script", .text a.script), ("automation_id", a.id), ("status", .text "error")]) none

def incompatibleRecord (trigger traceId : String) (a : Automation) (d : Definition) :
    Log.Record :=
  Log.Channel.runner.record Log.warning "script does not accept trigger"
    (fireFields "trigger_incompatible" trigger traceId ++
      [("script", .text d.name), ("automation_id", a.id)]) none

/-! ## Single hooks -/

def contextOf (a : Automation) (d : Definition) (payload : Entries) (traceId : String) : Context :=
  let (trigger, state) := effectiveTrigger a d
  ⟨a, d, trigger, state, payload, traceId⟩

def resultOf (c : Context) (failure : Option Failure) : RunResult :=
  { script := c.definition.name
    automationId := c.automation.id
    trigger := c.trigger
    ok := failure.isNone
    error := failure.map fun f => if f.message.isEmpty then f.kind else f.message }

def conclude (name : HookName) (c : Context) : Except Failure Value → Work RunResult
  | .ok _ => (Session.write (finishedRecord name c)).bind fun _ => .done (.ok (resultOf c none))
  | .error f =>
    if f.isCancellation then .done (.error f)
    else
      (Session.write (failedRecord name c f)).bind fun _ => .done (.ok (resultOf c (some f)))

/-- Runs a hook in a context; afterwards the current context is the one before. -/
def runIn (c : Context) (work : Work Value) : Work Value :=
  .read fun before =>
    .write (before.withCurrent (some c)) <|
      work.bind fun outcome =>
        .read fun after => .write (after.withCurrent before.current) (.done outcome)

def execute (invoke : Invocation → Work (List RunResult)) (name : HookName) (a : Automation)
    (s : Published) (payload : Entries) (traceId : String) : Work RunResult :=
  let c := contextOf a s.definition payload traceId
  (runIn c ((s.hook name).play invoke)).bind (conclude name c)

/-! ## Triggers -/

/-- Whether an automation's own trigger is the one that fires. -/
def isBoundTo (key : String) (trigger : Option String) : Bool :=
  match trigger with
  | some t => normalize t == key
  | none => false

def missingResult (a : Automation) (t : Trigger) (f : Failure) : RunResult :=
  ⟨a.script, a.id, some t.name, false, some f.message⟩

/-- The results of the automations that a trigger selects, in their order. -/
def fireEach (runner : Runner) (invoke : Invocation → Work (List RunResult)) (t : Trigger)
    (name traceId : String) (payload : Entries) : List Automation → Work (List RunResult)
  | [] => .done (.ok [])
  | a :: rest =>
    let others := fireEach runner invoke t name traceId payload rest
    let key := normalize t.name
    match runner.scripts.get a.script with
    | .error f =>
      if isBoundTo key a.trigger then
        (Session.write (missingRecord name traceId a)).bind fun _ =>
          others.bind fun results => .done (results.map (missingResult a t f :: ·))
      else others
    | .ok s =>
      if isBoundTo key (effectiveTrigger a s.definition).1 then
        if s.definition.acceptsTrigger t.name then
          (execute invoke .run a s payload traceId).bind fun
            | .error f => .done (.error f)
            | .ok result => others.bind fun results => .done (results.map (result :: ·))
        else
          (Session.write (incompatibleRecord name traceId a s.definition)).bind fun _ => others
      else others

def fire (runner : Runner) (invoke : Invocation → Work (List RunResult)) (name : String)
    (automations : List Automation) (payload : Entries) (traceId : String) :
    Work (List RunResult) :=
  match runner.triggers.get name with
  | .error f => .done (.error f)
  | .ok t =>
    (Session.write (firedRecord name traceId)).bind fun _ =>
      (fireEach runner invoke t name traceId payload automations).bind fun
        | .error f => .done (.error f)
        | .ok results =>
          (Session.write (firingEndRecord name traceId results.length)).bind fun _ =>
            .done (.ok results)

/-! ## Invocations -/

/-- Runs a hook of one automation, whose script has to be registered. -/
def single (runner : Runner) (invoke : Invocation → Work (List RunResult)) (name : HookName)
    (a : Automation) (payload : Entries) (traceId : String) : Work (List RunResult) :=
  match runner.scripts.get a.script with
  | .error f => .done (.error f)
  | .ok s =>
    (execute invoke name a s payload traceId).bind fun result => .done (result.map fun r => [r])

/-- What the runner does when it is invoked; hooks may invoke it again up to a depth. -/
def invoke (runner : Runner) : Nat → Invocation → Work (List RunResult)
  | 0, _ => .done (.error .tooDeep)
  | depth + 1, .run a payload traceId =>
    runner.single (runner.invoke depth) .run a payload traceId
  | depth + 1, .reset a traceId => runner.single (runner.invoke depth) .onReset a [] traceId
  | depth + 1, .fire trigger automations payload traceId =>
    runner.fire (runner.invoke depth) trigger automations payload traceId

/-- Runs a hook of a script by itself, without a context. -/
def callHook (runner : Runner) (depth : Nat) (script : String) (name : HookName) : Work Value :=
  match runner.scripts.get script with
  | .error f => .done (.error f)
  | .ok s => (s.hook name).play (runner.invoke depth)

end Runner

end Courier.Script
