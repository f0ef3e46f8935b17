import Mathlib.Data.List.Basic
import Mathlib.Data.List.Infix

set_option autoImplicit false

/-! Commands of many owners on one state, and on a state for each group of owners. Where a command only sees what its
owner has, the groups answer as the one state does. -/

namespace TonyCat.Library

variable {σ κ ρ υ ι : Type*}

def runAll (exec : σ → κ → Option (σ × ρ)) : σ → List κ → Option (σ × List ρ)
  | s, [] => some (s, [])
  | s, c :: cs => (exec s c).bind fun done => (runAll exec done.1 cs).map fun rest => (rest.1, done.2 :: rest.2)

variable {exec : σ → κ → Option (σ × ρ)}

lemma runAll_cons {s t : σ} {c : κ} {cs : List κ} {answers : List ρ} : runAll exec s (c :: cs) = some (t, answers) ↔
    ∃ s' answer rest, exec s c = some (s', answer) ∧ runAll exec s' cs = some (t, rest) ∧ answers = answer :: rest := by
  simp only [runAll, Option.bind_eq_some_iff, Option.map_eq_some_iff, Prod.mk.injEq]
  constructor
  · rintro ⟨⟨s', answer⟩, hs, ⟨t', rest⟩, hrest, rfl, rfl⟩
    exact ⟨s', answer, rest, hs, hrest, rfl⟩
  · rintro ⟨s', answer, rest, hs, hrest, rfl⟩
    exact ⟨(s', answer), hs, (t, rest), hrest, rfl, rfl⟩

lemma runAll_append {s u : σ} {cs ds : List κ} {answers : List ρ} : runAll exec s (cs ++ ds) = some (u, answers) ↔
    ∃ t first second, runAll exec s cs = some (t, first) ∧ runAll exec t ds = some (u, second) ∧
      answers = first ++ second := by
  induction cs generalizing s answers with
  | nil =>
    constructor
    · exact fun h => ⟨s, [], answers, rfl, h, rfl⟩
    · rintro ⟨t, first, second, hfirst, hsecond, rfl⟩
      cases hfirst
      exact hsecond
  | cons c cs ih =>
    rw [List.cons_append, runAll_cons]
    constructor
    · rintro ⟨s', answer, rest, hs, hrest, rfl⟩
      obtain ⟨t, first, second, hfirst, hsecond, rfl⟩ := ih.mp hrest
      exact ⟨t, answer :: first, second, runAll_cons.mpr ⟨s', answer, first, hs, hfirst, rfl⟩, hsecond, rfl⟩
    · rintro ⟨t, first, second, hfirst, hsecond, rfl⟩
      obtain ⟨s', answer, rest, hs, hrest, rfl⟩ := runAll_cons.mp hfirst
      exact ⟨s', answer, rest ++ second, hs, ih.mpr ⟨t, rest, second, hrest, hsecond, rfl⟩, rfl⟩

lemma runAll_concat {s u : σ} {cs : List κ} {c : κ} {answers : List ρ} : runAll exec s (cs ++ [c]) = some (u, answers) ↔
    ∃ t first answer, runAll exec s cs = some (t, first) ∧ exec t c = some (u, answer) ∧ answers = first ++ [answer] := by
  rw [runAll_append]
  constructor
  · rintro ⟨t, first, second, hfirst, hsecond, rfl⟩
    obtain ⟨s', answer, rest, hs, hrest, rfl⟩ := runAll_cons.mp hsecond
    cases hrest
    exact ⟨t, first, answer, hfirst, hs, rfl⟩
  · rintro ⟨t, first, answer, hfirst, hs, rfl⟩
    exact ⟨t, first, [answer], hfirst, runAll_cons.mpr ⟨u, answer, [], hs, rfl, rfl⟩, rfl⟩

lemma runAll_map {κ' : Type*} (f : κ' → κ) (s : σ) (cs : List κ') :
    runAll exec s (cs.map f) = runAll (fun s c => exec s (f c)) s cs := by
  induction cs generalizing s with
  | nil => rfl
  | cons c cs ih => simp only [List.map_cons, runAll, ih]

lemma length_runAll {s t : σ} {cs : List κ} {answers : List ρ} (h : runAll exec s cs = some (t, answers)) :
    answers.length = cs.length := by
  induction cs generalizing s answers with
  | nil =>
    cases h
    rfl
  | cons c cs ih =>
    obtain ⟨s', answer, rest, -, hrest, rfl⟩ := runAll_cons.mp h
    rw [List.length_cons, List.length_cons, ih hrest]

structure Partitioned (exec : σ → κ → Option (σ × ρ)) (owner : κ → υ) (Valid : κ → Prop) (Good : σ → Prop)
    (Agree : υ → σ → σ → Prop) : Prop where
  refl : ∀ u s, Agree u s s
  symm : ∀ {u s t}, Agree u s t → Agree u t s
  trans : ∀ {u r s t}, Agree u r s → Agree u s t → Agree u r t
  good : ∀ {c s s' answer}, Valid c → Good s → exec s c = some (s', answer) → Good s'
  frame : ∀ {c s s' answer u}, Valid c → exec s c = some (s', answer) → u ≠ owner c → Agree u s s'
  congr : ∀ {c s s' t answer}, Valid c → Good s → Good t → Agree (owner c) s t → exec s c = some (s', answer) →
    ∃ t', exec t c = some (t', answer) ∧ Agree (owner c) s' t'

namespace Partitioned

variable {owner : κ → υ} {Valid : κ → Prop} {Good : σ → Prop} {Agree : υ → σ → σ → Prop} {s s' t : σ} {cs : List κ}
  {answers : List ρ}

lemma project (h : Partitioned exec owner Valid Good Agree) (p : υ → Prop) [DecidablePred p] (hvalid : ∀ c ∈ cs, Valid c)
    (hs : Good s) (ht : Good t) (hagree : ∀ u, p u → Agree u s t) (hrun : runAll exec s cs = some (s', answers)) :
    ∃ t' own, runAll exec t (cs.filter fun c => p (owner c)) = some (t', own) ∧
      (cs.filter fun c => p (owner c)).zip own = (cs.zip answers).filter (fun e => p (owner e.1)) ∧
        ∀ u, p u → Agree u s' t' := by
  induction cs generalizing s t answers with
  | nil =>
    cases hrun
    exact ⟨t, [], rfl, rfl, hagree⟩
  | cons c cs ih =>
    obtain ⟨hc, hrest⟩ := List.forall_mem_cons.mp hvalid
    obtain ⟨s₁, answer, rest, hone, hlater, rfl⟩ := runAll_cons.mp hrun
    by_cases hp : p (owner c)
    · obtain ⟨t₁, hone', hsame⟩ := h.congr hc hs ht (hagree _ hp) hone
      have hagree' : ∀ u, p u → Agree u s₁ t₁ := by
        intro u hu
        by_cases heq : u = owner c
        · rw [heq]
          exact hsame
        · exact h.trans (h.symm (h.frame hc hone heq)) (h.trans (hagree u hu) (h.frame hc hone' heq))
      obtain ⟨t', own, hrun', hzip, hlast⟩ := ih hrest (h.good hc hs hone) (h.good hc ht hone') hagree' hlater
      refine ⟨t', answer :: own, ?_, ?_, hlast⟩
      · rw [List.filter_cons_of_pos (by simpa using hp)]
        exact runAll_cons.mpr ⟨t₁, answer, own, hone', hrun', rfl⟩
      · rw [List.filter_cons_of_pos (by simpa using hp), List.zip_cons_cons, List.zip_cons_cons,
          List.filter_cons_of_pos (by simpa using hp), hzip]
    · have hagree' : ∀ u, p u → Agree u s₁ t := by
        intro u hu
        have hne : u ≠ owner c := fun heq => hp (heq ▸ hu)
        exact h.trans (h.symm (h.frame hc hone hne)) (hagree u hu)
      obtain ⟨t', own, hrun', hzip, hlast⟩ := ih hrest (h.good hc hs hone) ht hagree' hlater
      refine ⟨t', own, ?_, ?_, hlast⟩
      · rw [List.filter_cons_of_neg (by simpa using hp)]
        exact hrun'
      · rw [List.filter_cons_of_neg (by simpa using hp), List.zip_cons_cons, List.filter_cons_of_neg (by simpa using hp),
          hzip]

theorem loop_answers (h : Partitioned exec owner Valid Good Agree) [DecidableEq ι] (loop : υ → ι) (index : ι)
    (hvalid : ∀ c ∈ cs, Valid c) (hs : Good s) (hrun : runAll exec s cs = some (s', answers)) {ran : List κ}
    (hran : ran <+: cs.filter fun c => loop (owner c) = index) :
    ∃ t own, runAll exec s ran = some (t, own) ∧
      ran.zip own <+: (cs.zip answers).filter (fun e => loop (owner e.1) = index) ∧
        (ran = cs.filter (fun c => loop (owner c) = index) → ∀ u, loop u = index → Agree u s' t) := by
  obtain ⟨t', own', hown, hzip, hagree⟩ := h.project (fun u => loop u = index) hvalid hs hs (fun u _ => h.refl u s) hrun
  obtain ⟨later, hlater⟩ := hran
  rw [← hlater] at hown
  obtain ⟨t, own, rest, hfirst, hsecond, rfl⟩ := runAll_append.mp hown
  refine ⟨t, own, hfirst, ?_, ?_⟩
  · rw [← hzip, ← hlater, List.zip_append (length_runAll hfirst).symm]
    exact List.prefix_append _ _
  · intro hall
    have hnil : later = [] := List.append_right_eq_self.mp (hlater.trans hall.symm)
    rw [hnil] at hsecond
    cases hsecond
    exact hagree

end Partitioned

end TonyCat.Library
