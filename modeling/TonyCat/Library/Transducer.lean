import Mathlib.Data.List.Basic
import Mathlib.Data.List.Infix
import Mathlib.Data.Option.Basic

set_option autoImplicit false

/-! Machines that read their input item by item and put out some items for each. -/

namespace TonyCat.Library

variable {σ ι ο : Type*}

def feed (step : σ → ι → Option (σ × List ο)) : σ → List ι → Option (σ × List ο)
  | s, [] => some (s, [])
  | s, i :: is => (step s i).bind fun r => (feed step r.1 is).map fun r' => (r'.1, r.2 ++ r'.2)

variable {step : σ → ι → Option (σ × List ο)}

lemma feed_append (s : σ) (is js : List ι) : feed step s (is ++ js) =
    (feed step s is).bind fun r => (feed step r.1 js).map fun r' => (r'.1, r.2 ++ r'.2) := by
  induction is generalizing s with
  | nil => simp [feed]
  | cons i is ih =>
    rw [List.cons_append, feed, feed]
    cases step s i with
    | none => rfl
    | some r =>
      rw [Option.bind_some, Option.bind_some, ih]
      cases feed step r.1 is with
      | none => rfl
      | some r' => simp [Function.comp_def]

def Turns (step : σ → ι → Option (σ × List ο)) (s : σ) (is : List ι) (t : σ) (os : List ο) : Prop :=
  feed step s is = some (t, os)

lemma turns_nil (s : σ) : Turns step s [] s [] := rfl

lemma turns_singleton {s t : σ} {i : ι} {os : List ο} (h : step s i = some (t, os)) : Turns step s [i] t os := by
  simp [Turns, feed, h]

lemma Turns.append {s t u : σ} {is js : List ι} {os ps : List ο} (h : Turns step s is t os)
    (h' : Turns step t js u ps) : Turns step s (is ++ js) u (os ++ ps) := by
  rw [Turns, feed_append, h, Option.bind_some, h']
  rfl

lemma Turns.cons {s t u : σ} {i : ι} {js : List ι} {os ps : List ο} (h : step s i = some (t, os))
    (h' : Turns step t js u ps) : Turns step s (i :: js) u (os ++ ps) :=
  (turns_singleton h).append h'

lemma Turns.flatMap {α : Type*} {s : σ} {f : α → List ι} {g : α → List ο} {l : List α}
    (h : ∀ a ∈ l, Turns step s (f a) s (g a)) : Turns step s (l.flatMap f) s (l.flatMap g) := by
  induction l with
  | nil => exact turns_nil s
  | cons a l ih => exact (h a (by simp)).append (ih fun b hb => h b (by simp [hb]))

lemma Turns.invariant_of {I : σ → List ο → Prop}
    (hstep : ∀ {s t : σ} {os ps : List ο} {i : ι}, I s os → step s i = some (t, ps) → I t (os ++ ps)) {s t : σ}
    {is : List ι} {ps : List ο} (h : Turns step s is t ps) {os : List ο} (h₀ : I s os) : I t (os ++ ps) := by
  induction is generalizing s os ps with
  | nil =>
    cases h
    rwa [List.append_nil]
  | cons i is ih =>
    obtain ⟨⟨s₁, out⟩, hfirst, h⟩ := Option.bind_eq_some_iff.mp h
    obtain ⟨⟨s₂, outs⟩, hrest, h⟩ := Option.map_eq_some_iff.mp h
    cases h
    rw [← List.append_assoc]
    exact ih hrest (hstep h₀ hfirst)

theorem Turns.invariant {I : σ → List ο → Prop}
    (hstep : ∀ {s t : σ} {os ps : List ο} {i : ι}, I s os → step s i = some (t, ps) → I t (os ++ ps)) {s t : σ}
    {is : List ι} {ps : List ο} (h : Turns step s is t ps) (h₀ : I s []) : I t ps :=
  h.invariant_of hstep h₀

def TurnsMeet (step : σ → ι → Option (σ × List ο)) (C : σ → ι → Prop) (s : σ) (is : List ι) : Prop :=
  ∀ done i, done ++ [i] <+: is → ∀ t os, Turns step s done t os → C t i

lemma turnsMeet_nil {C : σ → ι → Prop} {s : σ} : TurnsMeet step C s [] := by
  intro done i hd
  simp at hd

lemma turnsMeet_cons {C : σ → ι → Prop} {s t : σ} {i : ι} {is : List ι} {os : List ο} (h : step s i = some (t, os)) :
    TurnsMeet step C s (i :: is) ↔ C s i ∧ TurnsMeet step C t is := by
  constructor
  · intro hC
    refine ⟨hC [] i ⟨is, rfl⟩ s [] (turns_nil s), fun done j hd u ps hu => ?_⟩
    exact hC (i :: done) j (List.cons_prefix_cons.mpr ⟨rfl, hd⟩) u _ (Turns.cons h hu)
  · rintro ⟨hi, hC⟩ done j hd u ps hu
    cases done with
    | nil =>
      cases hu
      obtain ⟨rfl, -⟩ := List.cons_prefix_cons.mp hd
      exact hi
    | cons d done =>
      obtain ⟨rfl, hrestd⟩ := List.cons_prefix_cons.mp hd
      obtain ⟨⟨s₁, out⟩, hfirst, hu⟩ := Option.bind_eq_some_iff.mp hu
      obtain ⟨⟨s₂, outs⟩, hrest, hu⟩ := Option.map_eq_some_iff.mp hu
      cases hu
      obtain ⟨rfl, -⟩ : t = s₁ ∧ os = out := by simpa using h.symm.trans hfirst
      exact hC done j hrestd _ _ hrest

theorem Turns.outputs_iff {I : σ → Prop} {Q : ο → Prop} {C : σ → ι → Prop}
    (hstep : ∀ {s t : σ} {i : ι} {os : List ο}, I s → step s i = some (t, os) →
      ((∀ o ∈ os, Q o) ↔ C s i) ∧ (C s i → I t)) {s t : σ} {is : List ι} {os : List ο}
    (h : Turns step s is t os) (h₀ : I s) : (∀ o ∈ os, Q o) ↔ TurnsMeet step C s is := by
  induction is generalizing s os with
  | nil =>
    cases h
    simp [turnsMeet_nil]
  | cons i is ih =>
    obtain ⟨⟨s₁, out⟩, hfirst, h⟩ := Option.bind_eq_some_iff.mp h
    obtain ⟨⟨s₂, outs⟩, hrest, h⟩ := Option.map_eq_some_iff.mp h
    cases h
    obtain ⟨hgood, hkeep⟩ := hstep h₀ hfirst
    rw [turnsMeet_cons hfirst, List.forall_mem_append, hgood]
    exact and_congr_right fun hC => ih hrest (hkeep hC)

inductive Path {σ ε : Type*} (T : σ → ε → σ → Prop) : σ → List ε → σ → Prop
  | nil (s : σ) : Path T s [] s
  | cons {s t u : σ} {e : ε} {es : List ε} : T s e t → Path T t es u → Path T s (e :: es) u

lemma Path.split {σ ε : Type*} {T : σ → ε → σ → Prop} {s u : σ} {es fs : List ε} (h : Path T s (es ++ fs) u) :
    ∃ t, Path T s es t ∧ Path T t fs u := by
  induction es generalizing s with
  | nil => exact ⟨s, .nil s, h⟩
  | cons e es ih =>
    cases h with
    | cons hstep hrest =>
      obtain ⟨t, hleft, hright⟩ := ih hrest
      exact ⟨t, .cons hstep hleft, hright⟩

lemma Turns.path {τ : Type*} {T : τ → ο → τ → Prop} {R : σ → τ → Prop}
    (hstep : ∀ {s i t os a}, step s i = some (t, os) → R s a → ∃ o b, os = [o] ∧ T a o b ∧ R t b)
    {s t : σ} {is : List ι} {os : List ο} (h : Turns step s is t os) {a : τ} (hR : R s a) :
    ∃ b, Path T a os b ∧ R t b := by
  induction is generalizing s os a with
  | nil =>
    cases h
    exact ⟨a, .nil a, hR⟩
  | cons i is ih =>
    rw [Turns, feed] at h
    obtain ⟨⟨s₁, out⟩, hfirst, h⟩ := Option.bind_eq_some_iff.mp h
    obtain ⟨⟨s₂, outs⟩, hrest, h⟩ := Option.map_eq_some_iff.mp h
    cases h
    obtain ⟨o, b, rfl, hT, hb⟩ := hstep hfirst hR
    obtain ⟨c, hpath, hc⟩ := ih hrest hb
    exact ⟨c, .cons hT hpath, hc⟩

end TonyCat.Library
