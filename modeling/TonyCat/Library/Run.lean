import Mathlib.Data.List.Basic
import Mathlib.Data.List.Infix

set_option autoImplicit false

/-! Runs of a partial step function, and the invariant rule for them. -/

namespace TonyCat.Library

variable {σ ε : Type*}

def run (step : σ → ε → Option σ) : σ → List ε → Option σ
  | s, [] => some s
  | s, e :: es => (step s e).bind fun s' => run step s' es

variable {step : σ → ε → Option σ}

@[simp] lemma run_nil (s : σ) : run step s [] = some s := rfl

lemma run_append (s : σ) (es fs : List ε) :
    run step s (es ++ fs) = (run step s es).bind fun s' => run step s' fs := by
  induction es generalizing s with
  | nil => rfl
  | cons e es ih =>
    cases h : step s e with
    | none => simp [run, h]
    | some s' => simp [run, h, ih]

lemma run_concat (s : σ) (es : List ε) (e : ε) :
    run step s (es ++ [e]) = (run step s es).bind fun s' => step s' e := by
  rw [run_append]
  congr 1
  funext s'
  cases h : step s' e <;> simp [run, h]

/-- Every step of the run meets `C`, which sees the events before it and the state it starts from. -/
def StepsMeet (step : σ → ε → Option σ) (C : List ε → σ → ε → Prop) (s : σ) (es : List ε) : Prop :=
  ∀ done e, done ++ [e] <+: es → ∀ s', run step s done = some s' → C done s' e

lemma StepsMeet.of_initial {C : List ε → σ → ε → Prop} {s : σ} {es fs : List ε}
    (h : StepsMeet step C s fs) (hp : es <+: fs) : StepsMeet step C s es :=
  fun done e hd => h done e (hd.trans hp)

lemma StepsMeet.drop {C : σ → ε → Prop} {s t : σ} {es fs : List ε} (h : StepsMeet step (fun _ => C) s (es ++ fs))
    (hrun : run step s es = some t) : StepsMeet step (fun _ => C) t fs := by
  intro done e hd s' hs'
  apply h (es ++ done) e
  · rw [List.append_assoc]
    exact (List.prefix_append_right_inj es).mpr hd
  · rw [run_append, hrun]
    exact hs'

lemma stepsMeet_nil {C : List ε → σ → ε → Prop} {s : σ} : StepsMeet step C s [] := by
  intro done e hd
  simp at hd

lemma stepsMeet_cons {C : List ε → σ → ε → Prop} {s : σ} {e : ε} {es : List ε} (h : C [] s e)
    (hrest : ∀ s', step s e = some s' → StepsMeet step (fun done => C (e :: done)) s' es) :
    StepsMeet step C s (e :: es) := by
  intro done e' hd t ht
  cases done with
  | nil =>
    cases ht
    obtain ⟨rfl, -⟩ := List.cons_prefix_cons.mp hd
    exact h
  | cons d done =>
    obtain ⟨rfl, hrest'⟩ := List.cons_prefix_cons.mp hd
    obtain ⟨s', hs, ht⟩ := Option.bind_eq_some_iff.mp ht
    exact hrest s' hs done e' hrest' t ht

def checkSteps (step : σ → ε → Option σ) (c : σ → ε → Bool) : σ → List ε → Bool
  | _, [] => true
  | s, e :: es => c s e && match step s e with
    | none => true
    | some s' => checkSteps step c s' es

lemma stepsMeet_of_checkSteps {c : σ → ε → Bool} {C : σ → ε → Prop} (hc : ∀ s e, c s e = true → C s e) {es : List ε} :
    ∀ {s : σ}, checkSteps step c s es = true → StepsMeet step (fun _ => C) s es := by
  induction es with
  | nil => exact fun _ => stepsMeet_nil
  | cons e es ih =>
    intro s h
    obtain ⟨hfirst, hrest⟩ := Bool.and_eq_true_iff.mp h
    refine stepsMeet_cons (C := fun _ => C) (hc s e hfirst) fun s' hs => ?_
    rw [hs] at hrest
    exact ih hrest

theorem run_invariant {C : List ε → σ → ε → Prop} {I : List ε → σ → Prop} {s : σ} (h₀ : I [] s)
    (hstep : ∀ done s' e, I done s' → C done s' e → ∃ t, step s' e = some t ∧ I (done ++ [e]) t)
    (es : List ε) (hC : StepsMeet step C s es) : ∃ t, run step s es = some t ∧ I es t := by
  induction es using List.reverseRecOn with
  | nil => exact ⟨s, rfl, h₀⟩
  | append_singleton es e ih =>
    obtain ⟨s', hs, hi⟩ := ih (hC.of_initial (List.prefix_append _ _))
    obtain ⟨t, ht, hit⟩ := hstep es s' e hi (hC es e List.prefix_rfl s' hs)
    exact ⟨t, by rw [run_concat, hs]; exact ht, hit⟩

theorem StepsMeet.invariant {C : List ε → σ → ε → Prop} {I : σ → Prop} {s t : σ} {es : List ε}
    (hC : StepsMeet step C s es) (h₀ : I s)
    (hstep : ∀ {done s' e t'}, I s' → C done s' e → step s' e = some t' → I t') (h : run step s es = some t) : I t := by
  induction es using List.reverseRecOn generalizing t with
  | nil =>
    cases h
    exact h₀
  | append_singleton es e ih =>
    rw [run_concat] at h
    obtain ⟨s', hs, h⟩ := Option.bind_eq_some_iff.mp h
    exact hstep (ih (hC.of_initial (List.prefix_append _ _)) hs) (hC es e List.prefix_rfl s' hs) h

lemma run_of_initial {s t : σ} {es fs : List ε} (hp : es <+: fs) (h : run step s fs = some t) :
    ∃ s', run step s es = some s' := by
  obtain ⟨gs, rfl⟩ := hp
  rw [run_append] at h
  obtain ⟨s', hs, -⟩ := Option.bind_eq_some_iff.mp h
  exact ⟨s', hs⟩

lemma prefixes_iff_steps {P : List ε → Prop} {C : List ε → ε → Prop} {es : List ε} (h₀ : P [])
    (hstep : ∀ done e, done ++ [e] <+: es → P done → (P (done ++ [e]) ↔ C done e)) :
    (∀ done, done <+: es → P done) ↔ ∀ done e, done ++ [e] <+: es → C done e := by
  constructor
  · intro h done e hd
    exact (hstep done e hd (h done ((List.prefix_append _ _).trans hd))).mp (h _ hd)
  · intro h done
    induction done using List.reverseRecOn with
    | nil => exact fun _ => h₀
    | append_singleton done e ih =>
      intro hd
      exact (hstep done e hd (ih ((List.prefix_append _ _).trans hd))).mpr (h done e hd)

theorem invariant_iff_stepsMeet {I : σ → Prop} {C : σ → ε → Prop} {s t : σ} {es : List ε} (h : run step s es = some t)
    (h₀ : I s) (hstep : ∀ {s' t' : σ} {e : ε}, I s' → step s' e = some t' → (I t' ↔ C s' e)) :
    (∀ done, done <+: es → ∀ s', run step s done = some s' → I s') ↔ StepsMeet step (fun _ => C) s es := by
  constructor
  · intro hI done e hd s' hs
    obtain ⟨t', ht⟩ := run_of_initial hd h
    have hlast := ht
    rw [run_concat, hs] at hlast
    exact (hstep (hI done ((List.prefix_append _ _).trans hd) s' hs) hlast).mp (hI _ hd t' ht)
  · intro hC done hd s' hs
    exact (hC.of_initial hd).invariant h₀ (fun hi hc hone => (hstep hi hone).mpr hc) hs

theorem stepsMeet_of_throughout {I G : σ → Prop} {C : σ → ε → Prop} {s t : σ} {es : List ε} (h : run step s es = some t)
    (h₀ : I s) (hkeeps : ∀ {s' t' : σ} {e : ε}, I s' → C s' e → step s' e = some t' → I t')
    (hspoils : ∀ {s' t' : σ} {e : ε}, I s' → step s' e = some t' → G t' → C s' e)
    (hG : ∀ done, done <+: es → ∀ s', run step s done = some s' → G s') : StepsMeet step (fun _ => C) s es := by
  induction es using List.reverseRecOn generalizing t with
  | nil => exact stepsMeet_nil
  | append_singleton es e ih =>
    have hrun := h
    rw [run_concat] at hrun
    obtain ⟨s', hs, hlast⟩ := Option.bind_eq_some_iff.mp hrun
    have hmeets := ih hs fun done hd => hG done (hd.trans (List.prefix_append _ _))
    have hI : I s' := hmeets.invariant h₀ (fun hi hc hone => hkeeps hi hc hone) hs
    intro done e' hd u hu
    rcases List.prefix_concat_iff.mp hd with heq | hd
    · obtain ⟨rfl, rfl⟩ : done = es ∧ e' = e := by simpa using heq
      obtain rfl : s' = u := Option.some.inj (hs.symm.trans hu)
      exact hspoils hI hlast (hG _ List.prefix_rfl t h)
    · exact hmeets done e' hd u hu

lemma run_keeps {I : σ → Prop} (hstep : ∀ {s t : σ} {e : ε}, I s → step s e = some t → I t) {s t : σ} {es : List ε}
    (h₀ : I s) (h : run step s es = some t) : I t := by
  induction es generalizing s with
  | nil =>
    cases h
    exact h₀
  | cons e es ih =>
    obtain ⟨s', hs, h⟩ := Option.bind_eq_some_iff.mp h
    exact ih (hstep h₀ hs) h

end TonyCat.Library
