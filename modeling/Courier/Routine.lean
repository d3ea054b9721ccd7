import Courier.Message.Payload

/-!
# Routines

A routine works on a state that it shares with others, and stops at every call of the messenger
until it is answered. It can also give a signal to whoever runs it. While it does not wait for an answer,
nobody else acts on the state.
-/

namespace Courier

inductive Routine (σ α : Type) where
  | done (a : α)
  | read (next : σ → Routine σ α)
  | write (s : σ) (next : Routine σ α)
  | send (payload : Message.Payload) (next : Except Failure String → Routine σ α)
  | signal (v : Value) (next : Routine σ α)

namespace Routine

variable {σ τ α β : Type}

def bind (r : Routine σ α) (f : α → Routine σ β) : Routine σ β :=
  match r with
  | done a => f a
  | read next => read fun s => (next s).bind f
  | write s next => write s (next.bind f)
  | send payload next => send payload fun answer => (next answer).bind f
  | signal v next => signal v (next.bind f)

instance : Monad (Routine σ) where
  pure := done
  bind := bind

def act (change : σ → α × σ) : Routine σ α :=
  read fun s => write (change s).2 (done (change s).1)

def call (payload : Message.Payload) : Routine σ (Except Failure String) :=
  send payload done

/-- The routine on a part of a greater state. -/
def within (get : σ → τ) (put : τ → σ → σ) : Routine τ α → Routine σ α
  | done a => done a
  | read next => read fun s => (next (get s)).within get put
  | write t next => read fun s => write (put t s) (next.within get put)
  | send payload next => send payload fun answer => (next answer).within get put
  | signal v next => signal v (next.within get put)

end Routine

end Courier
