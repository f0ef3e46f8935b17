import Mathlib.Data.List.Basic

set_option autoImplicit false

/-! Pieces put one after the other into limited room, each that does not fit passed over. -/

namespace TonyCat.Library

variable {α : Type*}

def fitting : ℕ → List (List α) → List (List α)
  | _, [] => []
  | room, p :: ps => if p.length ≤ room then p :: fitting (room - p.length) ps else fitting room ps

lemma length_fitting_le (room : ℕ) (ps : List (List α)) :
    (fitting room ps).flatten.length ≤ ps.flatten.length := by
  induction ps generalizing room with
  | nil => exact Nat.le_refl _
  | cons p ps ih =>
    rw [fitting]
    split
    · have hrest := ih (room - p.length)
      simp only [List.flatten_cons, List.length_append]
      omega
    · have hrest := ih room
      simp only [List.flatten_cons, List.length_append]
      omega

lemma fitting_eq_iff (room : ℕ) (ps : List (List α)) :
    (fitting room ps).flatten = ps.flatten ↔ ps.flatten.length ≤ room := by
  induction ps generalizing room with
  | nil => simp [fitting]
  | cons p ps ih =>
    rw [fitting, List.flatten_cons, List.length_append]
    split
    case isTrue hfit =>
      rw [List.flatten_cons, List.append_right_inj, ih]
      omega
    case isFalse hfull =>
      constructor
      · intro heq
        have hlen := congrArg List.length heq
        have hrest := length_fitting_le room ps
        rw [List.length_append] at hlen
        omega
      · omega

lemma fitting_eq_nil_iff (room : ℕ) (ps : List (List α)) :
    (fitting room ps).flatten = [] ↔ ∀ p ∈ ps, p ≠ [] → room < p.length := by
  induction ps generalizing room with
  | nil => simp [fitting]
  | cons p ps ih =>
    rw [fitting, List.forall_mem_cons]
    split
    case isTrue hfit =>
      rw [List.flatten_cons, List.append_eq_nil_iff, ih]
      constructor
      · rintro ⟨rfl, hrest⟩
        exact ⟨fun hne => absurd rfl hne, hrest⟩
      · rintro ⟨hp, hrest⟩
        obtain rfl : p = [] := by
          by_contra hne
          exact absurd (hp hne) (Nat.not_lt.mpr hfit)
        exact ⟨rfl, hrest⟩
    case isFalse hfull =>
      rw [ih]
      exact ⟨fun hrest => ⟨fun _ => Nat.not_le.mp hfull, hrest⟩, fun h => h.2⟩

end TonyCat.Library
