import Mathlib.Algebra.BigOperators.Group.Finset.Basic
import TonyCat.Library.Run

set_option autoImplicit false

/-! Runs that come to an end because each step leaves less to do. -/

namespace TonyCat.Library

variable {σ ε : Type*} {step : σ → ε → Option σ} {C : ε → Prop} {I : σ → Prop} {remaining : σ → ℕ} {s t : σ}
  {es : List ε}

theorem length_add_remaining (hstep : ∀ {s t e}, I s → C e → step s e = some t → I t ∧ remaining t < remaining s)
    (h₀ : I s) (hC : ∀ e ∈ es, C e) (hrun : run step s es = some t) : I t ∧ es.length + remaining t ≤ remaining s := by
  induction es generalizing s with
  | nil =>
    cases hrun
    exact ⟨h₀, (Nat.zero_add _).le⟩
  | cons e es ih =>
    obtain ⟨s', hs, hrun⟩ := Option.bind_eq_some_iff.mp hrun
    obtain ⟨hI, hless⟩ := hstep h₀ (hC e List.mem_cons_self) hs
    obtain ⟨hIt, hle⟩ := ih hI (fun e' he => hC e' (List.mem_cons_of_mem _ he)) hrun
    refine ⟨hIt, ?_⟩
    rw [List.length_cons]
    omega

lemma sum_change {n i : ℕ} {f g : ℕ → ℕ} (hi : i < n) (hrest : ∀ j, j ≠ i → g j = f j) :
    ∑ j ∈ Finset.range n, g j + f i = ∑ j ∈ Finset.range n, f j + g i := by
  have hmem := Finset.mem_range.mpr hi
  have hsame : ∑ j ∈ (Finset.range n).erase i, g j = ∑ j ∈ (Finset.range n).erase i, f j :=
    Finset.sum_congr rfl fun j hj => hrest j (Finset.ne_of_mem_erase hj)
  have hf := Finset.add_sum_erase (Finset.range n) f hmem
  have hg := Finset.add_sum_erase (Finset.range n) g hmem
  omega

end TonyCat.Library
