import Mathlib.Data.List.Basic

set_option autoImplicit false

/-! Sequential programs that act, go on on another loop and ask for values, read in direct style: what a
program does on its own, whatever runs beside it. -/

namespace TonyCat.Library

inductive Flow (A R V : Type)
  | done (v : V)
  | act (a : A) (next : Flow A R V)
  | hop (loop : ℕ) (next : Flow A R V)
  | ask (r : R) (next : V → Flow A R V)

inductive Mark (A R V : Type)
  | act (a : A)
  | ask (r : R)
  | answer (v : V)
deriving DecidableEq

variable {A R V : Type}

namespace Flow

def bind : Flow A R V → (V → Flow A R V) → Flow A R V
  | done v, k => k v
  | act a next, k => act a (next.bind k)
  | hop loop next, k => hop loop (next.bind k)
  | ask r next, k => ask r fun v => (next v).bind k

@[simp] lemma bind_done (f : Flow A R V) : f.bind done = f := by
  induction f with
  | done v => rfl
  | act a next ih => rw [bind, ih]
  | hop loop next ih => rw [bind, ih]
  | ask r next ih =>
    rw [bind]
    exact congrArg (ask r) (funext ih)

lemma bind_assoc (f : Flow A R V) (k k' : V → Flow A R V) : (f.bind k).bind k' = f.bind fun v => (k v).bind k' := by
  induction f with
  | done v => rfl
  | act a next ih => rw [bind, bind, bind, ih]
  | hop loop next ih => rw [bind, bind, bind, ih]
  | ask r next ih =>
    rw [bind, bind, bind]
    exact congrArg (ask r) (funext ih)

inductive Config (A R V : Type)
  | on (loop : ℕ) (rest : Flow A R V)
  | asked (next : V → Flow A R V)

/-- One step, with where what is seen of it was done; an answer comes in on the loop `main`. -/
inductive Step (main : ℕ) : Config A R V → List (ℕ × Mark A R V) → Config A R V → Prop
  | act {loop : ℕ} {a : A} {next : Flow A R V} : Step main (.on loop (.act a next)) [(loop, .act a)] (.on loop next)
  | hop {loop loop' : ℕ} {next : Flow A R V} : Step main (.on loop (.hop loop' next)) [] (.on loop' next)
  | ask {loop : ℕ} {r : R} {next : V → Flow A R V} : Step main (.on loop (.ask r next)) [(loop, .ask r)] (.asked next)
  | answer {next : V → Flow A R V} (v : V) : Step main (.asked next) [(main, .answer v)] (.on main (next v))

inductive Reaches (main : ℕ) (start : Config A R V) : List (ℕ × Mark A R V) → Config A R V → Prop
  | refl : Reaches main start [] start
  | step {trace seen : List (ℕ × Mark A R V)} {c d : Config A R V} :
      Reaches main start trace c → Step main c seen d → Reaches main start (trace ++ seen) d

lemma Reaches.keeps {main : ℕ} {start c : Config A R V} {trace : List (ℕ × Mark A R V)}
    {I : List (ℕ × Mark A R V) → Config A R V → Prop} (h : Reaches main start trace c) (h₀ : I [] start)
    (hstep : ∀ {trace seen c d}, I trace c → Step main c seen d → I (trace ++ seen) d) : I trace c := by
  induction h with
  | refl => exact h₀
  | step _ hs ih => exact hstep ih hs

end Flow

end TonyCat.Library
