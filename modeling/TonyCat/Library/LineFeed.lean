import Mathlib.Data.List.Basic
import Mathlib.Data.List.Infix

set_option autoImplicit false

/-! A text read line by line, and the same text fed item by item. -/

namespace TonyCat.Library

variable {α σ : Type*} [DecidableEq α]

/-- The lines of a text, each with its end; `line` is what has been read of the first one. -/
def linesFrom (nl : α) (line : List α) : List α → List (List α)
  | [] => if line = [] then [] else [line]
  | a :: as => if a = nl then (line ++ [a]) :: linesFrom nl [] as else linesFrom nl (line ++ [a]) as

def feedLines (nl : α) (step : σ → List α → Option σ) : σ × List α → List α → Option (σ × List α)
  | r, [] => some r
  | r, a :: as =>
    if a = nl then (step r.1 (r.2 ++ [a])).bind fun s => feedLines nl step (s, []) as
    else feedLines nl step (r.1, r.2 ++ [a]) as

/-- The last line may have no end. -/
def lastLine (step : σ → List α → Option σ) (r : σ × List α) : Option σ := if r.2 = [] then some r.1 else step r.1 r.2

variable {nl : α} {step : σ → List α → Option σ}

theorem foldlM_linesFrom (s : σ) (line as : List α) :
    (linesFrom nl line as).foldlM step s = (feedLines nl step (s, line) as).bind (lastLine step) := by
  induction as generalizing s line with
  | nil =>
    rw [linesFrom, feedLines, Option.bind_some, lastLine]
    split_ifs with hline
    · rfl
    · rw [List.foldlM_cons]
      cases step s line <;> rfl
  | cons a as ih =>
    rw [linesFrom, feedLines]
    split_ifs with ha
    · rw [List.foldlM_cons]
      cases hstep : step s (line ++ [a]) with
      | none => rfl
      | some s' => exact ih s' []
    · exact ih s (line ++ [a])

lemma linesFrom_append_cons {as : List α} (h : nl ∉ as) (line bs : List α) :
    linesFrom nl line (as ++ nl :: bs) = (line ++ as ++ [nl]) :: linesFrom nl [] bs := by
  induction as generalizing line with
  | nil => rw [List.nil_append, linesFrom, if_pos rfl, List.append_nil]
  | cons a as ih =>
    rw [List.mem_cons, not_or] at h
    rw [List.cons_append, linesFrom, if_neg (Ne.symm h.1), ih h.2]
    simp only [List.append_assoc, List.singleton_append]

lemma feedLines_append (r : σ × List α) (as bs : List α) :
    feedLines nl step r (as ++ bs) = (feedLines nl step r as).bind fun r' => feedLines nl step r' bs := by
  induction as generalizing r with
  | nil => rfl
  | cons a as ih =>
    rw [List.cons_append, feedLines, feedLines]
    split_ifs with ha
    · cases step r.1 (r.2 ++ [a]) with
      | none => rfl
      | some s => exact ih (s, [])
    · exact ih (r.1, r.2 ++ [a])

def Reads (nl : α) (step : σ → List α → Option σ) (r : σ × List α) (as : List α) (r' : σ × List α) : Prop :=
  feedLines nl step r as = some r'

namespace Reads

lemma nil (r : σ × List α) : Reads nl step r [] r := rfl

lemma append {r r' r'' : σ × List α} {as bs : List α} (h : Reads nl step r as r') (h' : Reads nl step r' bs r'') :
    Reads nl step r (as ++ bs) r'' := by
  rw [Reads, feedLines_append, h]
  exact h'

lemma within {s : σ} {line as : List α} (h : nl ∉ as) : Reads nl step (s, line) as (s, line ++ as) := by
  induction as generalizing line with
  | nil => exact congrArg some (by rw [List.append_nil])
  | cons a as ih =>
    rw [List.mem_cons, not_or] at h
    rw [Reads, feedLines, if_neg (Ne.symm h.1)]
    have hrest := @ih (line ++ [a]) h.2
    rwa [List.append_assoc, List.singleton_append] at hrest

lemma ends {s s' : σ} {line as : List α} (h : nl ∉ as) (hstep : step s (line ++ as ++ [nl]) = some s') :
    Reads nl step (s, line) (as ++ [nl]) (s', []) := by
  refine (within h).append ?_
  rw [Reads, feedLines, if_pos rfl, hstep]
  rfl

lemma skips {P : α → Prop} (hskip : ∀ s l, (∀ a ∈ l, P a) → step s (l ++ [nl]) = some s) (line : List α) {as : List α}
    (hline : ∀ a ∈ line, P a) (has : ∀ a ∈ as, a = nl ∨ P a) (s : σ) :
    ∃ line', Reads nl step (s, line) as (s, line') ∧ ∀ a ∈ line', P a := by
  induction as generalizing line with
  | nil => exact ⟨line, nil _, hline⟩
  | cons a as ih =>
    by_cases ha : a = nl
    · obtain ⟨line', hreads, hline'⟩ := ih [] (by simp) fun b hb => has b (List.mem_cons_of_mem _ hb)
      refine ⟨line', ?_, hline'⟩
      rw [Reads, feedLines, if_pos ha, ha, hskip s line hline]
      exact hreads
    · have hconcat : ∀ b ∈ line ++ [a], P b := by
        intro b hb
        obtain hb | hb := List.mem_append.mp hb
        · exact hline b hb
        · obtain rfl := List.mem_singleton.mp hb
          exact (has b (List.mem_cons_self ..)).resolve_left ha
      obtain ⟨line', hreads, hline'⟩ := ih (line ++ [a]) hconcat fun b hb => has b (List.mem_cons_of_mem _ hb)
      refine ⟨line', ?_, hline'⟩
      rw [Reads, feedLines, if_neg ha]
      exact hreads

lemma breaks {P : α → Prop} {Q : σ → Prop} (hskip : ∀ s l, (∀ a ∈ l, P a) → step s (l ++ [nl]) = some s) {s : σ}
    {line as : List α} (has : ∀ a ∈ as, a = nl ∨ P a) (hnl : nl ∈ as)
    (hstep : ∀ l, nl ∉ l → (∀ a ∈ l, P a) → ∃ s', step s (line ++ l ++ [nl]) = some s' ∧ Q s') :
    ∃ s' line', Reads nl step (s, line) as (s', line') ∧ Q s' ∧ ∀ a ∈ line', P a := by
  obtain ⟨before, after, rfl, hbefore⟩ := List.eq_append_cons_of_mem hnl
  have hP : ∀ a ∈ before, P a := by
    intro a ha
    refine (has a (List.mem_append_left _ ha)).resolve_left ?_
    rintro rfl
    exact hbefore ha
  obtain ⟨s', hs', hQ⟩ := hstep before hbefore hP
  obtain ⟨line', hreads, hline'⟩ := skips hskip [] (by simp)
    (fun a ha => has a (List.mem_append_right _ (List.mem_cons_of_mem _ ha))) s'
  refine ⟨s', line', ?_, hQ, hline'⟩
  have hends := (ends hbefore hs').append hreads
  rwa [List.append_assoc] at hends

lemma keeps {I : σ → Prop} {Q : α → Prop}
    (hstep : ∀ {s s' l}, I s → (∀ a ∈ l, Q a) → step s l = some s' → I s') {r r' : σ × List α} {as : List α}
    (h : Reads nl step r as r') (hI : I r.1) (hline : ∀ a ∈ r.2, Q a) (has : ∀ a ∈ as, Q a) :
    I r'.1 ∧ ∀ a ∈ r'.2, Q a := by
  induction as generalizing r with
  | nil =>
    cases h
    exact ⟨hI, hline⟩
  | cons a as ih =>
    have hconcat : ∀ b ∈ r.2 ++ [a], Q b := by
      intro b hb
      obtain hb | hb := List.mem_append.mp hb
      · exact hline b hb
      · obtain rfl := List.mem_singleton.mp hb
        exact has b (List.mem_cons_self ..)
    have hrest : ∀ b ∈ as, Q b := fun b hb => has b (List.mem_cons_of_mem _ hb)
    rw [Reads, feedLines] at h
    split_ifs at h with ha
    · obtain ⟨s, hs, h⟩ := Option.bind_eq_some_iff.mp h
      exact ih h (hstep hI hconcat hs) (by simp) hrest
    · exact ih h hI hconcat hrest

lemma unique {r r' r'' : σ × List α} {as : List α} (h : Reads nl step r as r') (h' : Reads nl step r as r'') : r' = r'' :=
  Option.some.inj (h.symm.trans h')

lemma split {r r'' : σ × List α} {as bs : List α} (h : Reads nl step r (as ++ bs) r'') :
    ∃ r', Reads nl step r as r' ∧ Reads nl step r' bs r'' := by
  rw [Reads, feedLines_append] at h
  exact Option.bind_eq_some_iff.mp h

lemma rest {r r' r'' : σ × List α} {as bs : List α} (h : Reads nl step r (as ++ bs) r'') (h' : Reads nl step r as r') :
    Reads nl step r' bs r'' := by
  obtain ⟨r₁, hr₁, hrest⟩ := h.split
  rwa [hr₁.unique h'] at hrest

lemma snd_eq_nil {r r' : σ × List α} {as : List α} (h : Reads nl step r (as ++ [nl]) r') : r'.2 = [] := by
  obtain ⟨r'', -, hend⟩ := h.split
  rw [Reads, feedLines, if_pos rfl] at hend
  obtain ⟨s, -, hs⟩ := Option.bind_eq_some_iff.mp hend
  cases hs
  rfl

lemma keeps_after {I : σ → Prop} {Q : α → Prop}
    (hstep : ∀ {s s' l}, I s → (∀ a ∈ l, Q a) → step s l = some s' → I s') {s : σ} {line before after : List α}
    {r' : σ × List α} (h : Reads nl step (s, line) (before ++ nl :: after) r') (hbefore : nl ∉ before)
    (hafter : ∀ a ∈ after, Q a) (hfirst : ∀ s', step s (line ++ before ++ [nl]) = some s' → I s') : I r'.1 := by
  have hrest := h.rest (within hbefore)
  rw [Reads, feedLines, if_pos rfl] at hrest
  obtain ⟨s', hs', hreads⟩ := Option.bind_eq_some_iff.mp hrest
  exact (keeps hstep hreads (hfirst s' hs') (by simp) hafter).1

end Reads

end TonyCat.Library
