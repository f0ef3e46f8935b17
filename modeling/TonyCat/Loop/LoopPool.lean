import TonyCat.Library.LoopPool
import TonyCat.Library.Run

set_option autoImplicit false

/-! `LoopPool` while it runs: one thread that calls it, and the threads of the loops. -/

namespace TonyCat.Loop

open TonyCat.Library

variable {F : Type}

/-- `none` for a function that is null. -/
inductive PoolCall (F : Type)
  | start
  | exec (index : ℕ) (func : F)
  | broadcast (func : Option F)
  | broadcastAndDone (funcDo : Option F) (funcFinish : F)
deriving DecidableEq

/-- What a loop is given, with the number of the call that it comes from. A task `work` holds a copy of `pFunDo`, whose
deleter has `funcFinish`. -/
inductive PoolTask (F : Type)
  | setIndex (iVecLoops : ℕ)
  | exec (call : ℕ) (func : F)
  | shared (call : ℕ) (func : F)
  | work (call : ℕ) (funcDo : Option F) (funcFinish : F)
  | finish (call : ℕ) (funcFinish : F)
deriving DecidableEq

structure PoolRun (F : Type) where
  loops : LoopPool (PoolTask F)
  /-- every post since the start of the pool, in order -/
  posts : List (ℕ × PoolTask F)
  t_indexInLoop : ℕ → ℕ
  /-- what ran, where, and what `GetIndexInLoopPool` was there -/
  observed : List (ℕ × PoolTask F × ℕ)
  returned : List (PoolCall F)
  /-- the call that goes over the loops, and how many of them are behind it -/
  current : Option (PoolCall F × ℕ)
  /-- of the `pFunDo` of a call -/
  useCount : ℕ → ℕ
  /-- the copy in a task that a loop has run and not yet destroyed -/
  holding : ℕ → Option (ℕ × F)

inductive PoolEvent (F : Type)
  | call (c : PoolCall F)
  /-- the calling thread goes on with its call -/
  | next
  | run (loop : ℕ)
  /-- the loop destroys the task that it has run -/
  | release (loop : ℕ)
deriving DecidableEq

def getLoop (n index : ℕ) : Option ℕ := if n = 0 then none else some (index % n)

namespace PoolRun

/-- `Start` is under way. -/
def init : PoolRun F := ⟨.init, [], fun _ => 0, [], [], some (.start, 0), fun _ => 0, fun _ => none⟩

def post (s : PoolRun F) (loop : ℕ) (task : PoolTask F) : PoolRun F :=
  { s with loops := s.loops.post loop task, posts := s.posts ++ [(loop, task)] }

/-- One copy of `pFunDo` less; the last one calls the deleter. -/
def releaseCopy (home : ℕ) (s : PoolRun F) (call : ℕ) (funcFinish : F) : PoolRun F :=
  if s.useCount call = 1 then
    { s.post home (.finish call funcFinish) with useCount := Function.update s.useCount call 0 }
  else
    { s with useCount := Function.update s.useCount call (s.useCount call - 1) }

def postNext (s : PoolRun F) (iVecLoops : ℕ) : PoolCall F → PoolRun F
  | .start => s.post iVecLoops (.setIndex iVecLoops)
  | .broadcast (some func) => s.post iVecLoops (.shared s.returned.length func)
  | .broadcastAndDone funcDo funcFinish =>
    { s.post iVecLoops (.work s.returned.length funcDo funcFinish) with
      useCount := Function.update s.useCount s.returned.length (s.useCount s.returned.length + 1) }
  | .exec _ _ => s
  | .broadcast none => s

/-- The end of a call, with that of its local `pFunDo`. -/
def return' (home : ℕ) (s : PoolRun F) (c : PoolCall F) : PoolRun F :=
  let s' := { s with current := none, returned := s.returned ++ [c] }
  match c with
  | .broadcastAndDone _ funcFinish => s'.releaseCopy home s.returned.length funcFinish
  | _ => s'

def perform (s : PoolRun F) (loop : ℕ) (task : PoolTask F) : PoolRun F :=
  let s' := { s with observed := s.observed ++ [(loop, task, s.t_indexInLoop loop)] }
  match task with
  | .setIndex iVecLoops => { s' with t_indexInLoop := Function.update s.t_indexInLoop loop iVecLoops }
  | .work call _ funcFinish => { s' with holding := Function.update s.holding loop (some (call, funcFinish)) }
  | _ => s'

/-- `home` is the loop of the calling thread, of the pool or not. -/
def step (n home : ℕ) (s : PoolRun F) : PoolEvent F → Option (PoolRun F)
  | .call c =>
    match s.current, c with
    | some _, _ => none
    | none, .start => none
    | none, .exec index func =>
      match getLoop n index with
      | some loop => some { s.post loop (.exec s.returned.length func) with returned := s.returned ++ [c] }
      | none => some { s with returned := s.returned ++ [c] }
    | none, .broadcast none => some { s with returned := s.returned ++ [c] }
    | none, .broadcast (some _) => some { s with current := some (c, 0) }
    | none, .broadcastAndDone _ _ =>
      some { s with current := some (c, 0), useCount := Function.update s.useCount s.returned.length 1 }
  | .next =>
    match s.current with
    | none => none
    | some (c, i) => if i < n then some { s.postNext i c with current := some (c, i + 1) } else some (s.return' home c)
  | .run loop =>
    match s.holding loop with
    | some _ => none
    | none => (s.loops.take loop).map fun taken => { s with loops := taken.2 }.perform loop taken.1
  | .release loop =>
    match s.holding loop with
    | none => none
    | some (call, funcFinish) =>
      some ({ s with holding := Function.update s.holding loop none }.releaseCopy home call funcFinish)

end PoolRun

end TonyCat.Loop
