import Mathlib.Data.Nat.Notation

set_option autoImplicit false

/-! A loop by its turns, and how many of them it takes. -/

namespace TonyCat.Library

variable {σ ρ : Type*} {turn : σ → σ ⊕ ρ}

/-- A turn gives the state that the loop goes on with, or what it returns; `none` when there are no turns left. -/
def loopFor (turn : σ → σ ⊕ ρ) : ℕ → σ → Option ρ
  | 0, _ => none
  | turns + 1, s =>
    match turn s with
    | .inl s' => loopFor turn turns s'
    | .inr r => some r

lemma loopFor_inl {s s' : σ} (h : turn s = .inl s') (turns : ℕ) :
    loopFor turn (turns + 1) s = loopFor turn turns s' := by
  rw [loopFor, h]

lemma loopFor_inr {s : σ} {r : ρ} (h : turn s = .inr r) (turns : ℕ) : loopFor turn (turns + 1) s = some r := by
  rw [loopFor, h]

theorem loopFor_of_measure {m : σ → ℕ} {result : σ → ρ} (hdown : ∀ {s s'}, turn s = .inl s' → m s' < m s)
    (hkeep : ∀ {s s'}, turn s = .inl s' → result s' = result s) (hend : ∀ {s r}, turn s = .inr r → r = result s)
    {turns : ℕ} {s : σ} (h : m s < turns) : loopFor turn turns s = some (result s) := by
  induction turns generalizing s with
  | zero => exact absurd h (Nat.not_lt_zero _)
  | succ turns ih =>
    cases hturn : turn s with
    | inl s' =>
      have hlt := hdown hturn
      rw [loopFor_inl hturn, ih (by omega), hkeep hturn]
    | inr r => rw [loopFor_inr hturn, hend hturn]

end TonyCat.Library
