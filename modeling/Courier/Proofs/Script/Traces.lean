import Courier.Routine

/-!
# What a routine does

A routine that runs among others changes the shared state and calls the messenger. Its trace lists these
acts in order, given what the messenger answers and what the others do while it waits for an answer.
-/

namespace Courier

open Message (Payload)

inductive Act (σ : Type) where
  | change (before after : σ)
  | call (payload : Payload) (answer : Except Failure String)
  | signal (v : Value)

/-- What surrounds a routine: the answers of the messenger to its calls, which are numbered from zero,
and what happens to the state while it waits for them. -/
structure Surroundings (σ : Type) where
  answer : Nat → Payload → Except Failure String
  meanwhile : Nat → σ → σ

def Act.isCall {σ : Type} : Act σ → Bool
  | call _ _ => true
  | change _ _ | signal _ => false

/-- The number of calls of the messenger among some acts. -/
def callsAmong {σ : Type} (acts : List (Act σ)) : Nat :=
  acts.countP Act.isCall

theorem callsAmong_cons {σ : Type} (a : Act σ) (acts : List (Act σ)) :
    callsAmong (a :: acts) = callsAmong acts + if a.isCall then 1 else 0 :=
  List.countP_cons

structure Trace (σ α : Type) where
  acts : List (Act σ)
  result : α
  final : σ

namespace Trace

variable {σ α β : Type}

def after (acts : List (Act σ)) (t : Trace σ α) : Trace σ α :=
  { t with acts := acts ++ t.acts }

@[simp] theorem after_acts (acts : List (Act σ)) (t : Trace σ α) :
    (t.after acts).acts = acts ++ t.acts := rfl

@[simp] theorem after_result (acts : List (Act σ)) (t : Trace σ α) :
    (t.after acts).result = t.result := rfl

@[simp] theorem after_final (acts : List (Act σ)) (t : Trace σ α) :
    (t.after acts).final = t.final := rfl

def map (f : α → β) (t : Trace σ α) : Trace σ β :=
  ⟨t.acts, f t.result, t.final⟩

end Trace

namespace Routine

variable {σ α β : Type}

/-- The trace of a routine that begins in a state, when the messenger answered `calls` calls before. -/
def trace (w : Surroundings σ) (calls : Nat) : Routine σ α → σ → Trace σ α
  | done a, s => ⟨[], a, s⟩
  | read next, s => (next s).trace w calls s
  | write s' next, s => (next.trace w calls s').after [.change s s']
  | send payload next, s =>
    let answer := w.answer calls payload
    ((next answer).trace w (calls + 1) (w.meanwhile calls s)).after [.call payload answer]
  | signal v next, s => (next.trace w calls s).after [.signal v]

variable (w : Surroundings σ) (calls : Nat)

@[simp] theorem trace_done (a : α) (s : σ) : (done a).trace w calls s = ⟨[], a, s⟩ := rfl

/-- What acts on the state first and goes on with the result. -/
theorem trace_act_bind (change : σ → β × σ) (next : β → Routine σ α) (s : σ) :
    ((act change).bind next).trace w calls s =
      ((next (change s).1).trace w calls (change s).2).after [.change s (change s).2] := rfl

/-- A routine that goes on with its result does its own acts and then the ones that follow. -/
theorem trace_bind (r : Routine σ β) (next : β → Routine σ α) (s : σ) :
    (r.bind next).trace w calls s =
      ((next (r.trace w calls s).result).trace w (calls + callsAmong (r.trace w calls s).acts)
        (r.trace w calls s).final).after (r.trace w calls s).acts := by
  induction r generalizing calls s with
  | done a => rfl
  | read next ih => exact ih s calls s
  | write s' next ih =>
    rw [bind, trace, ih, trace, Trace.after_acts, List.singleton_append, callsAmong_cons]
    rfl
  | send payload next ih =>
    rw [bind, trace, ih, trace, Trace.after_acts, List.singleton_append, callsAmong_cons,
      Nat.add_right_comm]
    rfl
  | signal v next ih =>
    rw [bind, trace, ih, trace, Trace.after_acts, List.singleton_append, callsAmong_cons]
    rfl

theorem trace_bind_done (r : Routine σ β) (f : β → α) (s : σ) :
    (r.bind fun b => .done (f b)).trace w calls s = (r.trace w calls s).map f := by
  rw [trace_bind, trace_done, Trace.after, List.append_nil, Trace.map]

end Routine

end Courier
