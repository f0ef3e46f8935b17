import Mathlib.Logic.Function.Basic
import TonyCat.Library.DirectStyle
import TonyCat.Library.PartyLoops

set_option autoImplicit false

/-! The coroutines of `loop_coroutine.h`: the frames that `co_await` links through `previous`, and what
holds the handles of those that have not returned. -/

namespace TonyCat.Loop

open TonyCat.Library

inductive Body (A R V : Type)
  | coReturn (v : V)
  | act (a : A) (next : Body A R V)
  /-- `co_await` on the `CoroutineAsyncTask` of a call -/
  | coAwait (task : Body A R V) (next : V → Body A R V)
  /-- `co_await AwaitableLoopSwitch(loop)` -/
  | loopSwitch (loop : ℕ) (next : Body A R V)
  | execAfter (millSeconds : UInt32) (next : Body A R V)
  /-- `co_await AwaitableExecAfterOnLoop(loop, millSeconds)` -/
  | execAfterOnLoop (loop : ℕ) (millSeconds : UInt32) (next : Body A R V)
  /-- `co_await` on what a callback of the main loop completes, such as `AwaitableRpcFetch` -/
  | fetch (r : R) (next : V → Body A R V)

inductive Point (A R V : Type)
  | running (rest : Body A R V)
  | suspended (next : Body A R V)
  | fetching (next : V → Body A R V)
  | awaiting (next : V → Body A R V)
  /-- the frame of a `CoroutineAsyncTask` after its `final_suspend`; nothing destroys it -/
  | returned (result : V)

/-- A `promise_type`, with the call of a `CoroutineTask` that the coroutine works for. -/
structure Promise (A R V : Type) where
  point : Point A R V
  previous : Option ℕ
  root : ℕ

/-- What holds a handle: the thread that is inside it, a posted `handle.resume()`, a timer, a callback. -/
inductive Holder (R : Type)
  | thread (loop : ℕ)
  | task (loop : ℕ)
  | timer (loop : ℕ)
  | callback (r : R)

namespace Holder

variable {R : Type}

def isThread (loop : ℕ) : Holder R → Bool
  | thread l => l = loop
  | _ => false

def isTask (loop : ℕ) : Holder R → Bool
  | task l => l = loop
  | _ => false

end Holder

structure Call (A R V : Type) where
  id : ℕ
  loop : ℕ
  body : Body A R V

structure Coroutines (A R V : Type) where
  frames : ℕ → Option (Promise A R V)
  fresh : ℕ
  /-- in the order in which the handles were handed over -/
  held : List (Holder R × ℕ)
  calls : List (Call A R V)
  log : List (ℕ × ℕ × Mark A R V)

inductive CoroutineEvent (A R V : Type)
  /-- a function that returns a `CoroutineTask<void>` is called on a loop -/
  | call (loop : ℕ) (body : Body A R V)
  /-- the holder of a handle goes on -/
  | turn (i : ℕ)
  | answer (i : ℕ) (v : V)

namespace Coroutines

variable {A R V : Type}

def init : Coroutines A R V := ⟨fun _ => none, 0, [], [], []⟩

def idle (M : Coroutines A R V) (loop : ℕ) : Bool := M.held.all fun t => !t.1.isThread loop

def pass (M : Coroutines A R V) (i : ℕ) (holder : Holder R) (handle : ℕ) : Coroutines A R V :=
  { M with held := M.held.eraseIdx i ++ [(holder, handle)] }

def setFrame (M : Coroutines A R V) (handle : ℕ) (f : Promise A R V) : Coroutines A R V :=
  { M with frames := Function.update M.frames handle (some f) }

def note (M : Coroutines A R V) (root loop : ℕ) (mark : Mark A R V) : Coroutines A R V :=
  { M with log := M.log ++ [(root, loop, mark)] }

def exec (M : Coroutines A R V) (i loop handle : ℕ) (f : Promise A R V) : Body A R V → Option (Coroutines A R V)
  | .act a next =>
    some (((M.setFrame handle { f with point := .running next }).pass i (.thread loop) handle).note f.root loop (.act a))
  | .coAwait task next =>
    -- `previous = h`, and the new coroutine is resumed in place of the one that awaits it
    some { ((M.setFrame handle { f with point := .awaiting next }).setFrame M.fresh
        ⟨.running task, some handle, f.root⟩).pass i (.thread loop) M.fresh with fresh := M.fresh + 1 }
  | .loopSwitch loop' next =>
    some ((M.setFrame handle { f with point := .suspended next }).pass i (.task loop') handle)
  | .execAfter millSeconds next =>
    if millSeconds = 0 then some ((M.setFrame handle { f with point := .running next }).pass i (.thread loop) handle)
    else some ((M.setFrame handle { f with point := .suspended next }).pass i (.timer loop) handle)
  | .execAfterOnLoop loop' millSeconds next =>
    -- `await_ready` does not look at the loop
    if millSeconds = 0 then some ((M.setFrame handle { f with point := .running next }).pass i (.thread loop) handle)
    else some ((M.setFrame handle { f with point := .suspended next }).pass i (.timer loop') handle)
  | .fetch r next =>
    some (((M.setFrame handle { f with point := .fetching next }).pass i (.callback r) handle).note f.root loop (.ask r))
  | .coReturn v => match f.previous with
    | none => some { M with frames := Function.update M.frames handle none, held := M.held.eraseIdx i }
    | some previous => match M.frames previous with
      | some ⟨.awaiting next, previous', root⟩ =>
        some (((M.setFrame handle { f with point := .returned v }).setFrame previous
          ⟨.running (next v), previous', root⟩).pass i (.thread loop) previous)
      | _ => none

/-- `handle.resume()` on a coroutine that waits for no value. -/
def resume (M : Coroutines A R V) (i loop handle : ℕ) : Option (Coroutines A R V) :=
  match M.frames handle with
  | some ⟨.suspended next, previous, root⟩ =>
    some ((M.setFrame handle ⟨.running next, previous, root⟩).pass i (.thread loop) handle)
  | _ => none

def turn (M : Coroutines A R V) (i : ℕ) : Option (Coroutines A R V) :=
  match M.held[i]? with
  | some (.thread loop, handle) => match M.frames handle with
    | some ⟨.running rest, previous, root⟩ => M.exec i loop handle ⟨.running rest, previous, root⟩ rest
    | _ => none
  | some (.task loop, handle) =>
    if M.idle loop ∧ (M.held.take i).all (fun t => !t.1.isTask loop) then M.resume i loop handle else none
  | some (.timer loop, handle) => some (M.pass i (.task loop) handle)
  | _ => none

def answer (main : ℕ) (M : Coroutines A R V) (i : ℕ) (v : V) : Option (Coroutines A R V) :=
  match M.held[i]? with
  | some (.callback _, handle) => match M.idle main, M.frames handle with
    | true, some ⟨.fetching next, previous, root⟩ =>
      some (((M.setFrame handle ⟨.running (next v), previous, root⟩).pass i (.thread main) handle).note root main (.answer v))
    | _, _ => none
  | _ => none

def call (M : Coroutines A R V) (loop : ℕ) (body : Body A R V) : Option (Coroutines A R V) :=
  if M.idle loop then
    some { M.setFrame M.fresh ⟨.running body, none, M.fresh⟩ with
      fresh := M.fresh + 1
      held := M.held ++ [(.thread loop, M.fresh)]
      calls := M.calls ++ [⟨M.fresh, loop, body⟩] }
  else none

def step (main : ℕ) (M : Coroutines A R V) : CoroutineEvent A R V → Option (Coroutines A R V)
  | .call loop body => M.call loop body
  | .turn i => M.turn i
  | .answer i v => answer main M i v

def rootOf (M : Coroutines A R V) (handle : ℕ) : Option ℕ := (M.frames handle).map Promise.root

def trace (M : Coroutines A R V) (root : ℕ) : List (ℕ × Mark A R V) := ranOn M.log root

end Coroutines

end TonyCat.Loop
