import Mathlib.Data.Nat.Find
import TonyCat.Library.Run

set_option autoImplicit false

/-! Endless runs in which nobody who has something to do waits for ever. -/

namespace TonyCat.Library

variable {σ ε : Type*} {step : σ → ε → Option σ}

/-- At each time an event or a pause. -/
structure EndlessRun (step : σ → ε → Option σ) where
  state : ℕ → σ
  event : ℕ → Option ε
  next : ∀ t, (event t).elim (some (state t)) (step (state t)) = some (state (t + 1))

namespace EndlessRun

variable (r : EndlessRun step)

/-- Whoever does the events of `acts` does one of them at or after each time at which there is one to do. -/
def Fair (acts : ε → Prop) (enabled : σ → Prop) : Prop :=
  ∀ t, enabled (r.state t) → ∃ t', t ≤ t' ∧ ∃ e, r.event t' = some e ∧ acts e

variable {r}

lemma step_event {t : ℕ} {e : ε} (h : r.event t = some e) : step (r.state t) e = some (r.state (t + 1)) := by
  have hnext := r.next t
  rwa [h] at hnext

lemma keeps {P : σ → Prop} (hstep : ∀ {s s' e}, P s → step s e = some s' → P s') {t t' : ℕ} (ht : t ≤ t')
    (h : P (r.state t)) : P (r.state t') := by
  induction t', ht using Nat.le_induction with
  | base => exact h
  | succ t' _ ih =>
    have hnext := r.next t'
    cases hevent : r.event t' with
    | none =>
      rw [hevent] at hnext
      exact Option.some.inj hnext ▸ ih
    | some e => exact hstep ih (step_event hevent)

lemma reached (t : ℕ) : ∃ es, run step (r.state 0) es = some (r.state t) := by
  induction t with
  | zero => exact ⟨[], rfl⟩
  | succ t ih =>
    obtain ⟨es, hes⟩ := ih
    have hnext := r.next t
    cases hevent : r.event t with
    | none =>
      rw [hevent] at hnext
      exact ⟨es, hes.trans hnext⟩
    | some e => exact ⟨es ++ [e], by rw [run_concat, hes]; exact step_event hevent⟩

theorem Fair.acts_of_kept {acts : ε → Prop} {enabled P : σ → Prop} (hfair : r.Fair acts enabled)
    (henabled : ∀ {s}, P s → enabled s) (hkept : ∀ {s s' e}, P s → ¬ acts e → step s e = some s' → P s') {t : ℕ}
    (h : P (r.state t)) : ∃ t' e, t ≤ t' ∧ P (r.state t') ∧ acts e ∧ step (r.state t') e = some (r.state (t' + 1)) := by
  classical
  have hexists := hfair t (henabled h)
  obtain ⟨hle, e, hevent, hacts⟩ := Nat.find_spec hexists
  refine ⟨_, e, hle, ?_, hacts, step_event hevent⟩
  have hbefore : ∀ t', t ≤ t' → t' ≤ Nat.find hexists → P (r.state t') := by
    intro t' ht
    induction t', ht using Nat.le_induction with
    | base => exact fun _ => h
    | succ t' ht ih =>
      intro hlt
      have hP := ih (Nat.le_of_succ_le hlt)
      have hnext := r.next t'
      cases hevent' : r.event t' with
      | none =>
        rw [hevent'] at hnext
        exact Option.some.inj hnext ▸ hP
      | some e' =>
        refine hkept hP (fun hacts' => ?_) (step_event hevent')
        exact Nat.find_min hexists hlt ⟨ht, e', hevent', hacts'⟩
  exact hbefore _ hle (Nat.le_refl _)

theorem eventually_zero {P : σ → Prop} {m : σ → ℕ}
    (hdown : ∀ t, P (r.state t) → 0 < m (r.state t) → ∃ t', t ≤ t' ∧ P (r.state t') ∧ m (r.state t') < m (r.state t))
    {t : ℕ} (h : P (r.state t)) : ∃ t', t ≤ t' ∧ P (r.state t') ∧ m (r.state t') = 0 := by
  induction hm : m (r.state t) using Nat.strongRecOn generalizing t with
  | ind k ih =>
    obtain hzero | hpos := Nat.eq_zero_or_pos (m (r.state t))
    · exact ⟨t, Nat.le_refl t, h, hzero⟩
    · obtain ⟨t', ht, hP, hlt⟩ := hdown t h hpos
      obtain ⟨t'', ht', hP', hzero⟩ := ih _ (hm ▸ hlt) hP rfl
      exact ⟨t'', ht.trans ht', hP', hzero⟩

def ofRun {s t : σ} {es : List ε} (h : run step s es = some t) : EndlessRun step where
  state i := (run step s (es.take i)).getD s
  event i := es[i]?
  next i := by
    obtain ⟨s', hs'⟩ := run_of_initial (List.take_prefix i es) h
    obtain ⟨s'', hs''⟩ := run_of_initial (List.take_prefix (i + 1) es) h
    rw [hs', hs'', Option.getD_some, Option.getD_some]
    cases hevent : es[i]? with
    | none =>
      rw [List.take_add_one, hevent, Option.toList_none, List.append_nil] at hs''
      exact hs'.symm.trans hs''
    | some e =>
      rw [List.take_add_one, hevent, Option.toList_some, run_concat, hs'] at hs''
      exact hs''

lemma fair_ofRun {s t : σ} {es : List ε} (h : run step s es = some t) {acts : ε → Prop} {enabled : σ → Prop}
    (hend : ¬ enabled t) (hsoon : ∀ i < es.length, enabled ((run step s (es.take i)).getD s) → ∃ e ∈ es.drop i, acts e) :
    (ofRun h).Fair acts enabled := by
  intro i henabled
  by_cases hi : i < es.length
  · obtain ⟨e, hmem, hacts⟩ := hsoon i hi henabled
    obtain ⟨k, hk⟩ := List.mem_iff_getElem?.mp hmem
    rw [List.getElem?_drop] at hk
    exact ⟨i + k, Nat.le_add_right i k, e, hk, hacts⟩
  · have hstate : (ofRun h).state i = t := by
      change (run step s (es.take i)).getD s = t
      rw [List.take_of_length_le (Nat.le_of_not_lt hi), h]
      rfl
    exact absurd (hstate ▸ henabled) hend

end EndlessRun

end TonyCat.Library
