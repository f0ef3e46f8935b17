import TonyCat.Library.Run

set_option autoImplicit false

/-! First in, first out, and systems that a queue describes. -/

namespace TonyCat.Library

variable {α σ ε : Type*}

structure Fifo (α : Type*) where
  written : List α
  removed : List α
  contents : List α
  conserved : removed ++ contents = written

inductive FifoCall (α : Type*)
  | enqueue (xs : List α)
  | dequeue (n : ℕ)
  | keep

def FifoCall.on (xs : List α) : FifoCall α → List α
  | .enqueue ys => xs ++ ys
  | .dequeue n => xs.drop n
  | .keep => xs

namespace Fifo

def empty : Fifo α := ⟨[], [], [], rfl⟩

def call (q : Fifo α) : FifoCall α → Fifo α
  | .enqueue xs =>
    { written := q.written ++ xs
      removed := q.removed
      contents := q.contents ++ xs
      conserved := by rw [← List.append_assoc, q.conserved] }
  | .dequeue n =>
    { written := q.written
      removed := q.removed ++ q.contents.take n
      contents := q.contents.drop n
      conserved := by rw [List.append_assoc, List.take_append_drop, q.conserved] }
  | .keep => q

def replay (calls : List (FifoCall α)) : Fifo α := calls.foldl call empty

lemma contents_call (q : Fifo α) (c : FifoCall α) : (q.call c).contents = c.on q.contents := by
  cases c <;> rfl

lemma replay_concat (calls : List (FifoCall α)) (c : FifoCall α) :
    replay (calls ++ [c]) = (replay calls).call c := by
  rw [replay, List.foldl_concat]
  rfl

def logged (step : σ → ε → Option (σ × FifoCall α)) (s : σ × List (FifoCall α)) (e : ε) :
    Option (σ × List (FifoCall α)) :=
  (step s.1 e).map fun r => (r.1, s.2 ++ [r.2])

theorem view_of_logged {step : σ → ε → Option (σ × FifoCall α)} {view : σ → List α}
    (hstep : ∀ {s e t c}, step s e = some (t, c) → view t = c.on (view s)) {s t : σ} (hs : view s = [])
    {log : List (FifoCall α)} {es : List ε} (h : run (logged step) (s, []) es = some (t, log)) :
    view t = (replay log).contents := by
  have hkeeps : ∀ {s t : σ × List (FifoCall α)} {e : ε}, view s.1 = (replay s.2).contents →
      logged step s e = some t → view t.1 = (replay t.2).contents := by
    intro s t e hview hone
    obtain ⟨r, hr, rfl⟩ := Option.map_eq_some_iff.mp hone
    rw [hstep hr, replay_concat, contents_call, hview]
  exact run_keeps hkeeps hs h

end Fifo

end TonyCat.Library
