import Courier.Proofs.Crew.Basic
import Courier.Proofs.Script.Contexts
import Courier.Proofs.Script.Registries

/-!
# What a firing runs

A firing goes through automations in their order, and takes one turn at each. It selects an automation by
the trigger that counts for it. The turn of one that is selected runs the hook of its script, once, and
has its result; the other turns run no hook. A hook that fails ends its own turn alone.
-/

namespace Courier.Script

open Session (Work)

/-- Whether the trigger that counts for an automation is the one of a name. -/
def hears (name : String) (trigger : Option String) : Bool :=
  trigger.any fun t => normalize t == normalize name

/-- What a firing does at one automation, with the result if the automation is selected. -/
abbrev Turn := Trace Session (Option RunResult)

namespace Runner

/-- The runner of registries that adds filled. -/
def ofAdds (scripts triggers : List (Value × Block)) : Runner :=
  ⟨.ofAdds .scripts scripts, .ofAdds .triggers triggers⟩

/-- The trigger that counts for an automation. -/
def triggerOf (runner : Runner) (a : Automation) : Option String :=
  match runner.scripts.get? a.script with
  | some script => (effectiveTrigger a script.definition).1
  | none => a.trigger

/-- Whether a firing of a trigger has a result of an automation. -/
def selects (runner : Runner) (name : String) (a : Automation) : Bool :=
  match runner.scripts.get? a.script with
  | some script =>
    hears name (effectiveTrigger a script.definition).1 && script.definition.acceptsTrigger name
  | none => hears name a.trigger

/-- The result of an automation whose script is missing. -/
def unscripted (name : String) (a : Automation) : RunResult where
  script := a.script
  automationId := a.id
  trigger := some (normalize name)
  ok := false
  error := some ("script not registered: " ++ a.script)

/-- The result of an automation that is selected, if the hook of its script comes to an outcome. -/
def resultFor (runner : Runner) (name traceId : String) (payload : Entries)
    (outcome : Except Failure Value) (a : Automation) : RunResult :=
  match runner.scripts.get? a.script with
  | some script => resultOf (contextOf a script.definition payload traceId) (Registry.failure? outcome)
  | none => unscripted name a

def closingRecord (name : HookName) (c : Context) : Except Failure Value → Log.Record
  | .ok _ => finishedRecord name c
  | .error f => failedRecord name c f

/-- What is done where a record is written and nothing else. -/
def writing {α : Type} (r : Log.Record) (s : Session) (result : α) : Trace Session α :=
  ⟨[.change s (s.log r)], result, s.log r⟩

section turns
variable (runner : Runner) (depth : Nat) (w : Surroundings Desk) (name traceId : String)
  (payload : Entries)

/-- The run of a script's hook in a context. -/
def hookRun (c : Context) (script : Published) (calls : Nat) (s : Session) :
    Trace Session (Except Failure Value) :=
  (runIn c (script.run.play (runner.invoke depth))).trace (aroundTask w) calls s

/-- The run of the hook for an automation, the record that it ended, and the result. -/
def scripted (a : Automation) (script : Published) (calls : Nat) (s : Session) :
    Trace Session RunResult :=
  let c := contextOf a script.definition payload traceId
  let run := runner.hookRun depth w c script calls s
  (writing (closingRecord .run c run.result) run.final
    (resultOf c (Registry.failure? run.result))).after run.acts

/-- What the hook for an automation comes to in a session. -/
def outcomeOf (a : Automation) (calls : Nat) (s : Session) : Except Failure Value :=
  match runner.scripts.get? a.script with
  | some script =>
    (runner.hookRun depth w (contextOf a script.definition payload traceId) script calls s).result
  | none => .ok .null

/-- The turns that a firing of a trigger may take at an automation. -/
inductive Takes (a : Automation) (calls : Nat) (s : Session) : Turn → Prop where
  | runs {script : Published} (hscript : runner.scripts.get? a.script = some script)
    (hhears : hears name (effectiveTrigger a script.definition).1 = true)
    (haccepts : script.definition.acceptsTrigger name = true) :
    Takes a calls s ((runner.scripted depth w traceId payload a script calls s).map some)
  | refuses {script : Published} (hscript : runner.scripts.get? a.script = some script)
    (hhears : hears name (effectiveTrigger a script.definition).1 = true)
    (haccepts : script.definition.acceptsTrigger name = false) :
    Takes a calls s (writing (incompatibleRecord name traceId a script.definition) s none)
  | misses (hscript : runner.scripts.get? a.script = none) (hhears : hears name a.trigger = true) :
    Takes a calls s (writing (missingRecord name traceId a) s (some (unscripted name a)))
  | passes (hhears : hears name (runner.triggerOf a) = false) :
    Takes a calls s ⟨[], none, s⟩

/-- The turns at some automations, one after another, and the session after them. -/
inductive Turns : List Automation → Nat → Session → List Turn → Session → Prop where
  | nil (calls : Nat) (s : Session) : Turns [] calls s [] s
  | cons {a : Automation} {rest : List Automation} {calls : Nat} {s last : Session} {turn : Turn}
    {turns : List Turn} (hturn : runner.Takes depth w name traceId payload a calls s turn)
    (hrest : Turns rest (calls + callsAmong turn.acts) turn.final turns last) :
    Turns (a :: rest) calls s (turn :: turns) last

/-- The hook ends by itself, with a value or with a failure that is no cancellation. -/
def Settles (h : Hook) : Prop :=
  ∀ calls s f, ((h.play (runner.invoke depth)).trace (aroundTask w) calls s).result = .error f →
    f.isCancellation = false

end turns

variable {runner : Runner} {depth : Nat} {w : Surroundings Desk} {name traceId : String}
  {payload : Entries} {a : Automation} {calls : Nat} {s : Session}

theorem selects_eq_false (h : hears name (runner.triggerOf a) = false) :
    runner.selects name a = false := by
  rw [triggerOf] at h
  rw [selects]
  cases hscript : runner.scripts.get? a.script with
  | none =>
    rw [hscript] at h
    exact h
  | some script =>
    rw [hscript] at h
    exact Bool.and_eq_false_iff.mpr (.inl h)

/-- Where the hook for an automation always comes to the same outcome, this one counts. -/
theorem resultFor_outcomeOf {outcome : Except Failure Value}
    (h : ∀ script, runner.scripts.get? a.script = some script → ∀ calls s,
      (runner.hookRun depth w (contextOf a script.definition payload traceId) script calls s).result =
        outcome) :
    runner.resultFor name traceId payload (runner.outcomeOf depth w traceId payload a calls s) a =
      runner.resultFor name traceId payload outcome a := by
  rw [resultFor, resultFor, outcomeOf]
  cases hscript : runner.scripts.get? a.script with
  | none => rfl
  | some script => simp only [h script hscript]

/-! ## One turn -/

theorem result_runIn (c : Context) (work : Work Value) :
    ((runIn c work).trace (aroundTask w) calls s).result =
      (work.trace (aroundTask w) calls (s.withCurrent (some c))).result := by
  simp only [runIn, Routine.trace, Trace.after_result, Routine.trace_bind]

theorem trace_conclude {hook : HookName} {c : Context} {outcome : Except Failure Value}
    (h : ∀ f, outcome = .error f → f.isCancellation = false) :
    (conclude hook c outcome).trace (aroundTask w) calls s =
      writing (closingRecord hook c outcome) s (.ok (resultOf c (Registry.failure? outcome))) := by
  cases outcome with
  | ok v => rfl
  | error f =>
    rw [conclude, h f rfl]
    rfl

theorem trace_execute {script : Published} (h : runner.Settles depth w script.run) :
    (execute (runner.invoke depth) .run a script payload traceId).trace (aroundTask w) calls s =
      (runner.scripted depth w traceId payload a script calls s).map .ok := by
  dsimp only [execute]
  rw [Routine.trace_bind, trace_conclude]
  · rfl
  · intro f hf
    rw [result_runIn] at hf
    exact h _ _ f hf

section fireEach
variable {t : Trigger} (ht : t.name = normalize name)
include ht

theorem isBoundTo_eq_hears (trigger : Option String) :
    isBoundTo (normalize t.name) trigger = hears name trigger := by
  rw [ht, normalize_normalize]
  cases trigger <;> rfl

theorem acceptsTrigger_name (d : Definition) : d.acceptsTrigger t.name = d.acceptsTrigger name := by
  rw [Definition.acceptsTrigger, Definition.acceptsTrigger, ht, normalize_normalize]

theorem missingResult_eq (a : Automation) :
    missingResult a t (.notRegistered "script" a.script) = unscripted name a := by
  rw [missingResult, ht]
  rfl

end fireEach

/-- A firing at some automations takes a turn at the first one and goes on with the others. -/
def Begins (runner : Runner) (depth : Nat) (w : Surroundings Desk) (t : Trigger) (name traceId : String)
    (payload : Entries) (a : Automation) (rest : List Automation) (calls : Nat) (s : Session)
    (turn : Turn) : Prop :=
  let firing := runner.fireEach (runner.invoke depth) t name traceId payload
  runner.Takes depth w name traceId payload a calls s turn ∧
    (firing (a :: rest)).trace (aroundTask w) calls s =
      (((firing rest).trace (aroundTask w) (calls + callsAmong turn.acts) turn.final).map
        (Except.map (turn.result.toList ++ ·))).after turn.acts

section begins
variable {t : Trigger} (ht : t.name = normalize name) {rest : List Automation}

theorem map_nil_append {σ α : Type} (x : Trace σ (Except Failure (List α))) :
    x.map (Except.map ([] ++ ·)) = x := by
  obtain ⟨acts, result, final⟩ := x
  cases result <;> rfl

theorem begins_passing (hhears : hears name (runner.triggerOf a) = false)
    (hfire : runner.fireEach (runner.invoke depth) t name traceId payload (a :: rest) =
      runner.fireEach (runner.invoke depth) t name traceId payload rest) :
    runner.Begins depth w t name traceId payload a rest calls s ⟨[], none, s⟩ := by
  refine ⟨.passes hhears, ?_⟩
  rw [hfire]
  exact (map_nil_append _).symm

include ht

theorem exists_begins_unscripted (hkind : runner.scripts.kind = .script)
    (hscript : runner.scripts.get? a.script = none) :
    ∃ turn, runner.Begins depth w t name traceId payload a rest calls s turn := by
  have hget : runner.scripts.get a.script = .error (.notRegistered "script" a.script) := by
    rw [Registry.get, hscript, hkind]
    rfl
  have hfire := fireEach.eq_2 runner (runner.invoke depth) t name traceId payload a rest
  simp only [hget, isBoundTo_eq_hears ht, missingResult_eq ht] at hfire
  cases hhears : hears name a.trigger with
  | true =>
    refine ⟨_, .misses hscript hhears, ?_⟩
    rw [hfire, if_pos hhears, Session.write, Routine.trace_act_bind, Routine.trace_bind_done]
    rfl
  | false =>
    rw [if_neg (by simp [hhears])] at hfire
    exact ⟨_, begins_passing (by rw [triggerOf, hscript, hhears]) hfire⟩

theorem exists_begins_scripted {script : Published} (hsettles : runner.Settles depth w script.run)
    (hscript : runner.scripts.get? a.script = some script) :
    ∃ turn, runner.Begins depth w t name traceId payload a rest calls s turn := by
  have hfire := fireEach.eq_2 runner (runner.invoke depth) t name traceId payload a rest
  simp only [Registry.get_eq_ok_iff.mpr hscript, isBoundTo_eq_hears ht, acceptsTrigger_name ht] at hfire
  cases hhears : hears name (effectiveTrigger a script.definition).1 with
  | true =>
    rw [if_pos hhears] at hfire
    cases haccepts : script.definition.acceptsTrigger name with
    | true =>
      refine ⟨_, .runs hscript hhears haccepts, ?_⟩
      rw [hfire, if_pos haccepts, Routine.trace_bind, trace_execute hsettles]
      dsimp only [Trace.map]
      rw [Routine.trace_bind_done]
      rfl
    | false =>
      refine ⟨_, .refuses hscript hhears haccepts, ?_⟩
      rw [hfire, if_neg (by simp [haccepts]), Session.write, Routine.trace_act_bind]
      exact congrArg (Trace.after _) (map_nil_append _).symm
  | false =>
    rw [if_neg (by simp [hhears])] at hfire
    exact ⟨_, begins_passing (by rw [triggerOf, hscript, hhears]) hfire⟩

end begins

/-! ## All turns -/

/-- A firing takes one turn after another, and its results are theirs. -/
theorem exists_turns (traceId : String) (payload : Entries) (hkind : runner.scripts.kind = .script)
    (hsettles : ∀ script published, runner.scripts.get? script = some published →
      runner.Settles depth w published.run)
    {t : Trigger} (ht : t.name = normalize name) (automations : List Automation) (calls : Nat)
    (s : Session) :
    ∃ turns last, runner.Turns depth w name traceId payload automations calls s turns last ∧
      (runner.fireEach (runner.invoke depth) t name traceId payload automations).trace (aroundTask w)
        calls s = ⟨turns.flatMap (·.acts), .ok (turns.filterMap (·.result)), last⟩ := by
  induction automations generalizing calls s with
  | nil => exact ⟨[], s, .nil calls s, rfl⟩
  | cons a rest ih =>
    have hbegins : ∃ turn, runner.Begins depth w t name traceId payload a rest calls s turn := by
      cases hscript : runner.scripts.get? a.script with
      | none => exact exists_begins_unscripted ht hkind hscript
      | some script => exact exists_begins_scripted ht (hsettles _ _ hscript) hscript
    obtain ⟨turn, hturn, htrace⟩ := hbegins
    obtain ⟨turns, last, hturns, hrest⟩ := ih (calls + callsAmong turn.acts) turn.final
    refine ⟨turn :: turns, last, .cons hturn hturns, ?_⟩
    rw [htrace, hrest]
    cases hresult : turn.result <;> simp [Trace.map, Trace.after, Except.map, hresult]

/-- A turn has a result if its automation is selected, and that is the one of its hook. -/
theorem Takes.result_eq {turn : Turn} (h : runner.Takes depth w name traceId payload a calls s turn) :
    turn.result =
      if runner.selects name a then
        some (runner.resultFor name traceId payload
          (runner.outcomeOf depth w traceId payload a calls s) a)
      else none := by
  cases h with
  | runs hscript hhears haccepts =>
    simp [selects, resultFor, outcomeOf, hscript, hhears, haccepts, Trace.map, scripted, writing]
  | refuses hscript hhears haccepts =>
    simp [selects, hscript, haccepts, writing]
  | misses hscript hhears =>
    simp [selects, resultFor, hscript, hhears, writing]
  | passes hhears =>
    rw [selects_eq_false hhears]
    rfl

theorem Turns.forall₂_selects {automations : List Automation} {turns : List Turn} {last : Session}
    (h : runner.Turns depth w name traceId payload automations calls s turns last) :
    List.Forall₂ (fun a turn => turn.result.isSome = runner.selects name a) automations turns := by
  induction h with
  | nil => exact .nil
  | cons hturn hrest ih =>
    refine .cons ?_ ih
    rw [hturn.result_eq]
    split <;> simp [*]

/-- What holds of the result that an automation may have, when its hook has run, holds of all results. -/
theorem Turns.forall₂_results {automations : List Automation} {turns : List Turn} {last : Session}
    (h : runner.Turns depth w name traceId payload automations calls s turns last)
    {R : Automation → RunResult → Prop}
    (hR : ∀ a ∈ automations, ∀ calls s, R a (runner.resultFor name traceId payload
      (runner.outcomeOf depth w traceId payload a calls s) a)) :
    List.Forall₂ R (automations.filter (runner.selects name)) (turns.filterMap (·.result)) := by
  induction h with
  | nil => exact .nil
  | @cons a rest calls s last turn turns hturn hrest ih =>
    have hlater := ih fun b hb => hR b (List.mem_cons_of_mem _ hb)
    have hresult := hturn.result_eq
    by_cases hselects : runner.selects name a = true
    · rw [if_pos hselects] at hresult
      rw [List.filter_cons_of_pos hselects, List.filterMap_cons_some hresult]
      exact .cons (hR a List.mem_cons_self calls s) hlater
    · rw [if_neg hselects] at hresult
      rw [List.filter_cons_of_neg hselects, List.filterMap_cons_none hresult]
      exact hlater

/-! ## Firings -/

/-- A firing of a trigger writes a record, takes its turns, and writes another record. -/
theorem exists_fired (traceId : String) (payload : Entries) (hkind : runner.scripts.kind = .script)
    (hsettles : ∀ script published, runner.scripts.get? script = some published →
      runner.Settles depth w published.run)
    {t : Trigger} (hget : runner.triggers.get name = .ok t) (ht : t.name = normalize name)
    (automations : List Automation) (calls : Nat) (s : Session) :
    ∃ turns last,
      let results := turns.filterMap (·.result)
      let begun := s.log (firedRecord name traceId)
      let ended := last.log (firingEndRecord name traceId results.length)
      runner.Turns depth w name traceId payload automations calls begun turns last ∧
        (runner.fire (runner.invoke depth) name automations payload traceId).trace (aroundTask w) calls s =
          ⟨.change s begun :: turns.flatMap (·.acts) ++ [.change last ended], .ok results, ended⟩ := by
  obtain ⟨turns, last, hturns, htrace⟩ := exists_turns traceId payload hkind hsettles ht automations
    calls (s.log (firedRecord name traceId))
  refine ⟨turns, last, hturns, ?_⟩
  rw [fire, hget]
  dsimp only
  rw [Session.write, Routine.trace_act_bind, Routine.trace_bind, htrace]
  rfl

theorem trace_fire_unregistered {f : Failure} (hget : runner.triggers.get name = .error f)
    (automations : List Automation) :
    (runner.fire (runner.invoke depth) name automations payload traceId).trace (aroundTask w) calls s =
      ⟨[], .error f, s⟩ := by
  rw [fire, hget]
  rfl

/-- A trigger that is bound to a script counts, whatever an automation asks for. -/
theorem selects_forced {script : Published} {forced : Forced}
    (hscript : runner.scripts.get? a.script = some script)
    (hforced : script.definition.forced = some forced) (trigger : Option String) (state : Entries) :
    runner.selects name { a with trigger := trigger, triggerState := state } =
      runner.selects name a := by
  simp only [selects, hscript, effectiveTrigger, hforced]

/-- A firing of a registered trigger goes through the automations in their order. Those that it selects
have one result each, and the hooks of their scripts run once each; no other hook runs. What a result is
depends on its own automation and on what its own hook comes to. If a script is bound to a trigger, what
the automation asks for makes no difference. A firing of a trigger that is not registered does nothing. -/
theorem firing_runs_selected (scripts triggers : List (Value × Block)) (depth : Nat)
    (w : Surroundings Desk) (name traceId : String) (payload : Entries) (automations : List Automation)
    (calls : Nat) (s : Session)
    (hsettles : ∀ e ∈ (ofAdds scripts triggers).scripts.definitions,
      (ofAdds scripts triggers).Settles depth w e.2.run) :
    let runner := ofAdds scripts triggers
    let fired := (runner.invoke (depth + 1) (.fire name automations payload traceId)).trace
      (aroundTask w) calls s
    (match runner.triggers.get name with
      | .error f => f = .notRegistered "trigger" name ∧ fired = ⟨[], .error f, s⟩
      | .ok _ => ∃ turns last,
        let results := turns.filterMap (·.result)
        let selected := automations.filter (runner.selects name)
        let begun := s.log (firedRecord name traceId)
        let ended := last.log (firingEndRecord name traceId results.length)
        runner.Turns depth w name traceId payload automations calls begun turns last ∧
          fired = ⟨.change s begun :: turns.flatMap (·.acts) ++ [.change last ended], .ok results,
            ended⟩ ∧
          List.Forall₂ (fun a turn => turn.result.isSome = runner.selects name a) automations turns ∧
          List.Forall₂ (fun a r => ∃ outcome, runner.resultFor name traceId payload outcome a = r)
            selected results ∧
          ∀ outcome : Automation → Except Failure Value,
            (∀ a ∈ automations, ∀ script, runner.scripts.get? a.script = some script → ∀ calls s,
              (runner.hookRun depth w (contextOf a script.definition payload traceId) script calls
                s).result = outcome a) →
            results = selected.map fun a => runner.resultFor name traceId payload (outcome a) a) ∧
    ∀ a script forced trigger state, runner.scripts.get? a.script = some script →
      script.definition.forced = some forced →
      let a' := { a with trigger := trigger, triggerState := state }
      let c := contextOf a' script.definition payload traceId
      runner.selects name a' = runner.selects name a ∧ c.trigger = some forced.trigger ∧
        c.triggerState = forced.state := by
  intro runner fired
  have hscripts : runner.scripts.kind = .script := Registry.kind_ofAdds .scripts scripts
  have hends : ∀ script published, runner.scripts.get? script = some published →
      runner.Settles depth w published.run := by
    intro script published hscript
    obtain ⟨e, he, -, rfl⟩ := Registry.exists_mem_of_get? hscript
    exact hsettles e he
  refine ⟨?_, fun a script forced trigger state hscript hforced => ?_⟩
  · cases hget : runner.triggers.get name with
    | error f =>
      have hkind : runner.triggers.kind = .trigger := Registry.kind_ofAdds .triggers triggers
      refine ⟨?_, trace_fire_unregistered hget automations⟩
      rw [Registry.eq_of_get_eq_error hget, hkind]
      rfl
    | ok t =>
      have ht : t.name = normalize name := (Registry.tidy_ofAdds .triggers triggers).nameOf_get hget
      obtain ⟨turns, last, hturns, hfired⟩ := exists_fired traceId payload hscripts hends hget ht
        automations calls s
      refine ⟨turns, last, hturns, hfired, hturns.forall₂_selects,
        hturns.forall₂_results fun a _ calls s => ⟨_, rfl⟩, fun outcome houtcome => ?_⟩
      have hresults := hturns.forall₂_results fun a ha calls s =>
        (resultFor_outcomeOf (houtcome a ha)).symm
      rwa [← List.forall₂_map_left_iff, List.forall₂_eq_eq_eq, eq_comm] at hresults
  · refine ⟨selects_forced hscript hforced trigger state, ?_⟩
    simp [contextOf, effectiveTrigger, hforced]

/-- One script that works, one that fails, one that is bound to a trigger, and one that goes with another
trigger than most automations ask for. -/
def houseScripts : List (Value × Block) :=
  [(.text "Greet", .finish),
    (.text "break", .ofCalls [.run (.finish (.error .noHookRunning))]),
    (.text "bound", .ofCalls [.forceTrigger (.text " LOGIN") (.object [])]),
    (.text "nightly", .ofCalls [.triggers [.text "logout"]])]

def houseTriggers : List (Value × Block) :=
  [(.text "Login ", .finish), (.text "logout", .finish)]

def house : List Automation :=
  [⟨.int 1, "greet", some "login", [], []⟩, ⟨.int 2, "greet", some "logout", [], []⟩,
    ⟨.int 3, "Break", some "LOGIN ", [], []⟩, ⟨.int 4, "nightly", some "login", [], []⟩,
    ⟨.int 5, "gone", some "login", [], []⟩, ⟨.int 6, "bound", none, [], []⟩]

/-- What becomes of a hook that does nothing but end. -/
def plainOutcome : Hook → Except Failure Value
  | .finish outcome => outcome
  | _ => .ok .null

def isPlain : Hook → Bool
  | .finish outcome => (Registry.failure? outcome).all fun f => !f.isCancellation
  | _ => false

theorem result_play_of_isPlain {h : Hook} (hplain : isPlain h = true) :
    ((h.play (runner.invoke depth)).trace (aroundTask w) calls s).result = plainOutcome h := by
  cases h with
  | finish outcome => rfl
  | context | perform | invoke => cases hplain

theorem settles_of_isPlain {h : Hook} (hplain : isPlain h = true) : runner.Settles depth w h := by
  intro calls s f hf
  cases h with
  | finish outcome =>
    obtain rfl : outcome = .error f := hf
    simpa [isPlain, Registry.failure?] using hplain
  | context | perform | invoke => cases hplain

theorem firing_runs_selected_house :
    let runner := ofAdds houseScripts houseTriggers
    let w : Surroundings Desk := ⟨fun _ _ => .ok "1", fun _ d => d⟩
    let s : Session := ⟨(Outbox.Crew.idle Outbox.Crew.noon).desk, none⟩
    let fired := (runner.invoke 1 (.fire "LogIn" house [] "t")).trace (aroundTask w) 0 s
    (∀ e ∈ runner.scripts.definitions, runner.Settles 0 w e.2.run) ∧
      ∃ results, fired.result = .ok results ∧ results.map (fun r => (r.script, r.error)) =
        [("greet", none), ("break", some "no script hook is running"),
          ("gone", some "script not registered: gone"), ("bound", none)] := by
  intro runner w s fired
  have hplain : (runner.scripts.definitions.all fun e => isPlain e.2.run) = true := by decide +kernel
  have hsettles : ∀ e ∈ runner.scripts.definitions, runner.Settles 0 w e.2.run := fun e he =>
    settles_of_isPlain (List.all_eq_true.mp hplain e he)
  refine ⟨hsettles, ?_⟩
  have hfiring := (firing_runs_selected houseScripts houseTriggers 0 w "LogIn" "t" [] house 0 s
    hsettles).1
  split at hfiring
  · rename_i f hget
    have hregistered : (runner.triggers.get? "LogIn").isSome = true := by decide +kernel
    rw [Registry.isSome_get?_iff] at hregistered
    obtain ⟨t, ht⟩ := hregistered
    cases ht.symm.trans hget
  · obtain ⟨turns, last, -, hfired, -, -, hresults⟩ := hfiring
    have houtcomes := hresults (fun a => ((runner.scripts.get? a.script).map fun script =>
      plainOutcome script.run).getD (.ok .null)) fun a _ script hscript calls s => by
        obtain ⟨e, he, -, rfl⟩ := Registry.exists_mem_of_get? hscript
        rw [hookRun, result_runIn, result_play_of_isPlain (List.all_eq_true.mp hplain e he)]
        simp only [runner, hscript]
        rfl
    refine ⟨_, congrArg Trace.result hfired, ?_⟩
    rw [houtcomes]
    decide +kernel

end Runner

end Courier.Script
