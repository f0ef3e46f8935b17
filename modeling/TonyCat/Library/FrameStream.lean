import Mathlib.Data.List.Basic

set_option autoImplicit false

/-! Frames cut off the front of a stream that arrives in chunks. -/

namespace TonyCat.Library

variable {α φ : Type*}

/-- What stands at the front of a stream: too little to tell, what no frame begins with, or a frame
of the first `n` items. -/
inductive Front (φ : Type*)
  | more
  | refused
  | frame (f : φ) (n : ℕ)

/-- A reader of the front, which later items do not make change its mind. -/
structure FrameReader (α φ : Type*) where
  front : List α → Front φ
  frame_pos : ∀ {xs f n}, front xs = .frame f n → 0 < n ∧ n ≤ xs.length
  frame_append : ∀ {xs f n} ys, front xs = .frame f n → front (xs ++ ys) = .frame f n
  refused_append : ∀ {xs} ys, front xs = .refused → front (xs ++ ys) = .refused

structure Drained (α φ : Type*) where
  frames : List φ
  rest : List α
  ok : Bool

namespace FrameReader

variable (D : FrameReader α φ)

lemma drop_length_lt {xs : List α} {f : φ} {n : ℕ} (h : D.front xs = .frame f n) :
    (xs.drop n).length < xs.length := by
  have hn := D.frame_pos h
  rw [List.length_drop]
  omega

def drain (xs : List α) : Drained α φ :=
  match _h : D.front xs with
  | .more => ⟨[], xs, true⟩
  | .refused => ⟨[], xs, false⟩
  | .frame f n =>
    let r := drain (xs.drop n)
    ⟨f :: r.frames, r.rest, r.ok⟩
termination_by xs.length
decreasing_by exact D.drop_length_lt _h

variable {D} {xs : List α} {f : φ} {n : ℕ}

lemma drain_of_more (h : D.front xs = .more) : D.drain xs = ⟨[], xs, true⟩ := by
  rw [drain]
  split <;> simp_all

lemma drain_of_refused (h : D.front xs = .refused) : D.drain xs = ⟨[], xs, false⟩ := by
  rw [drain]
  split <;> simp_all

lemma drain_of_frame (h : D.front xs = .frame f n) : D.drain xs =
    ⟨f :: (D.drain (xs.drop n)).frames, (D.drain (xs.drop n)).rest, (D.drain (xs.drop n)).ok⟩ := by
  rw [drain]
  split <;> simp_all

lemma drain_induction {P : List α → Prop} (more : ∀ xs, D.front xs = .more → P xs)
    (refused : ∀ xs, D.front xs = .refused → P xs)
    (frame : ∀ xs f n, D.front xs = .frame f n → P (xs.drop n) → P xs) (xs : List α) : P xs := by
  induction hk : xs.length using Nat.strongRecOn generalizing xs with
  | ind k ih =>
    cases h : D.front xs with
    | more => exact more xs h
    | refused => exact refused xs h
    | frame f n => exact frame xs f n h (ih _ (hk ▸ D.drop_length_lt h) _ rfl)

def Settled (D : FrameReader α φ) (xs : List α) : Prop := ∀ f n, D.front xs ≠ .frame f n

lemma settled_nil : D.Settled [] := by
  intro f n h
  have hn := D.frame_pos h
  simp only [List.length_nil] at hn
  omega

lemma drain_rest_settled (xs : List α) : D.Settled (D.drain xs).rest := by
  induction xs using drain_induction (D := D) with
  | more xs h =>
    rw [drain_of_more h]
    intro f n h'
    rw [h] at h'
    cases h'
  | refused xs h =>
    rw [drain_of_refused h]
    intro f n h'
    rw [h] at h'
    cases h'
  | frame xs f n h ih =>
    rw [drain_of_frame h]
    exact ih

lemma drain_append_of_ok (xs ys : List α) (hok : (D.drain xs).ok = true) : D.drain (xs ++ ys) =
    ⟨(D.drain xs).frames ++ (D.drain ((D.drain xs).rest ++ ys)).frames,
      (D.drain ((D.drain xs).rest ++ ys)).rest, (D.drain ((D.drain xs).rest ++ ys)).ok⟩ := by
  induction xs using drain_induction (D := D) with
  | more xs h =>
    rw [drain_of_more h]
    rfl
  | refused xs h =>
    rw [drain_of_refused h] at hok
    cases hok
  | frame xs f n h ih =>
    have hdrop : (xs ++ ys).drop n = xs.drop n ++ ys := List.drop_append_of_le_length (D.frame_pos h).2
    rw [drain_of_frame h] at hok
    rw [drain_of_frame (D.frame_append ys h), hdrop, ih hok, drain_of_frame h]
    rfl

lemma drain_append_of_not_ok (xs ys : List α) (hok : (D.drain xs).ok = false) :
    D.drain (xs ++ ys) = ⟨(D.drain xs).frames, (D.drain xs).rest ++ ys, false⟩ := by
  induction xs using drain_induction (D := D) with
  | more xs h =>
    rw [drain_of_more h] at hok
    cases hok
  | refused xs h =>
    rw [drain_of_refused h, drain_of_refused (D.refused_append ys h)]
  | frame xs f n h ih =>
    have hdrop : (xs ++ ys).drop n = xs.drop n ++ ys := List.drop_append_of_le_length (D.frame_pos h).2
    rw [drain_of_frame h] at hok
    rw [drain_of_frame (D.frame_append ys h), hdrop, ih hok, drain_of_frame h]

lemma refused_of_not_ok (xs : List α) (hok : (D.drain xs).ok = false) :
    D.front (D.drain xs).rest = .refused := by
  induction xs using drain_induction (D := D) with
  | more xs h =>
    rw [drain_of_more h] at hok
    cases hok
  | refused xs h => rw [drain_of_refused h, h]
  | frame xs f n h ih =>
    rw [drain_of_frame h] at hok ⊢
    exact ih hok

def reads (D : FrameReader α φ) : List α → List (List α) → List (Drained α φ)
  | _, [] => []
  | rest, c :: cs => D.drain (rest ++ c) :: D.reads (D.drain (rest ++ c)).rest cs

def restAfter (D : FrameReader α φ) : List α → List (List α) → List α
  | rest, [] => rest
  | rest, c :: cs => D.restAfter (D.drain (rest ++ c)).rest cs

lemma drain_of_settled {rest : List α} (hs : D.Settled rest) :
    (D.drain rest).frames = [] ∧ (D.drain rest).rest = rest := by
  cases h : D.front rest with
  | more => simp [drain_of_more h]
  | refused => simp [drain_of_refused h]
  | frame f n => exact absurd h (hs f n)

lemma reads_of_refused {rest : List α} (h : D.front rest = .refused) (chunks : List (List α)) :
    (∀ r ∈ D.reads rest chunks, r.frames = [] ∧ r.ok = false) ∧
      D.restAfter rest chunks = rest ++ chunks.flatten := by
  induction chunks generalizing rest with
  | nil => simp [reads, restAfter]
  | cons c cs ih =>
    have hc := D.refused_append c h
    obtain ⟨hr, hrest⟩ := ih hc
    rw [reads, restAfter, drain_of_refused hc, hrest]
    constructor
    · intro r hmem
      cases hmem with
      | head => exact ⟨rfl, rfl⟩
      | tail _ hmem => exact hr r hmem
    · simp

theorem reads_eq_drain {rest : List α} (hs : D.Settled rest) (chunks : List (List α)) :
    (D.reads rest chunks).flatMap Drained.frames = (D.drain (rest ++ chunks.flatten)).frames ∧
      D.restAfter rest chunks = (D.drain (rest ++ chunks.flatten)).rest := by
  induction chunks generalizing rest with
  | nil =>
    obtain ⟨hf, hr⟩ := drain_of_settled hs
    simp [reads, restAfter, hf, hr]
  | cons c cs ih =>
    obtain ⟨hf, hr⟩ := ih (drain_rest_settled (rest ++ c))
    rw [reads, restAfter, List.flatMap_cons, List.flatten_cons, ← List.append_assoc, hf, hr]
    cases hok : (D.drain (rest ++ c)).ok with
    | true =>
      rw [drain_append_of_ok _ _ hok]
      exact ⟨rfl, rfl⟩
    | false =>
      have hrest := D.refused_append cs.flatten (refused_of_not_ok _ hok)
      rw [drain_append_of_not_ok _ _ hok, drain_of_refused hrest, List.append_nil]
      exact ⟨rfl, rfl⟩

theorem reads_after_refusal {rest : List α} {chunks : List (List α)} {before after : List (Drained α φ)}
    {r : Drained α φ} (h : D.reads rest chunks = before ++ r :: after) (hok : r.ok = false) :
    ∀ r' ∈ after, r'.frames = [] ∧ r'.ok = false := by
  induction chunks generalizing rest before with
  | nil => simp [reads] at h
  | cons c cs ih =>
    rw [reads] at h
    cases before with
    | nil =>
      obtain ⟨rfl, rfl⟩ := List.cons.inj h
      exact (reads_of_refused (refused_of_not_ok _ hok) cs).1
    | cons b before =>
      obtain ⟨-, h⟩ := List.cons.inj h
      exact ih h

lemma reads_ok {rest : List α} {chunks : List (List α)}
    (hok : (D.drain (rest ++ chunks.flatten)).ok = true) : ∀ r ∈ D.reads rest chunks, r.ok = true := by
  induction chunks generalizing rest with
  | nil => simp [reads]
  | cons c cs ih =>
    rw [List.flatten_cons, ← List.append_assoc] at hok
    cases hc : (D.drain (rest ++ c)).ok with
    | false =>
      rw [drain_append_of_not_ok _ _ hc] at hok
      cases hok
    | true =>
      rw [drain_append_of_ok _ _ hc] at hok
      rw [reads]
      intro r hmem
      cases hmem with
      | head => exact hc
      | tail _ hmem => exact ih hok r hmem

structure Decodes (D : FrameReader α φ) (Valid : φ → Prop) (enc : φ → List α) : Prop where
  sound : ∀ {xs f n}, D.front xs = .frame f n → Valid f ∧ n = (enc f).length ∧ xs = enc f ++ xs.drop n
  complete : ∀ {f} ys, Valid f → D.front (enc f ++ ys) = .frame f (enc f).length

variable {Valid : φ → Prop} {enc : φ → List α}

theorem Decodes.drain_maximal (h : D.Decodes Valid enc) (xs : List α) :
    xs = (D.drain xs).frames.flatMap enc ++ (D.drain xs).rest ∧
      (∀ f ∈ (D.drain xs).frames, Valid f) ∧
      ∀ f tail, Valid f → (D.drain xs).rest ≠ enc f ++ tail := by
  refine ⟨?_, ?_, ?_⟩
  · induction xs using drain_induction (D := D) with
    | more xs hx => simp [drain_of_more hx]
    | refused xs hx => simp [drain_of_refused hx]
    | frame xs f n hx ih =>
      rw [drain_of_frame hx, List.flatMap_cons, List.append_assoc, ← ih]
      exact (h.sound hx).2.2
  · induction xs using drain_induction (D := D) with
    | more xs hx => simp [drain_of_more hx]
    | refused xs hx => simp [drain_of_refused hx]
    | frame xs f n hx ih =>
      rw [drain_of_frame hx]
      intro g hg
      cases hg with
      | head => exact (h.sound hx).1
      | tail _ hg => exact ih g hg
  · intro f tail hf heq
    exact drain_rest_settled xs f _ (heq ▸ h.complete tail hf)

theorem Decodes.eq_drain (h : D.Decodes Valid enc) {fs : List φ} {rest : List α} (hfs : ∀ f ∈ fs, Valid f)
    (hrest : ∀ f tail, Valid f → rest ≠ enc f ++ tail) :
    (D.drain (fs.flatMap enc ++ rest)).frames = fs ∧ (D.drain (fs.flatMap enc ++ rest)).rest = rest := by
  induction fs with
  | nil =>
    rw [List.flatMap_nil, List.nil_append]
    cases hfront : D.front rest with
    | more => rw [drain_of_more hfront]; exact ⟨rfl, rfl⟩
    | refused => rw [drain_of_refused hfront]; exact ⟨rfl, rfl⟩
    | frame f n =>
      obtain ⟨hf, -, hxs⟩ := h.sound hfront
      exact absurd hxs (hrest f _ hf)
  | cons f fs ih =>
    obtain ⟨hframes, hend⟩ := ih fun g hg => hfs g (List.mem_cons_of_mem f hg)
    have hf := h.complete (fs.flatMap enc ++ rest) (hfs f List.mem_cons_self)
    rw [List.flatMap_cons, List.append_assoc, drain_of_frame hf, List.drop_left]
    exact ⟨congrArg (f :: ·) hframes, hend⟩

lemma Decodes.drain_flatMap (h : D.Decodes Valid enc) {fs : List φ} (hfs : ∀ f ∈ fs, Valid f)
    (hnil : D.front [] = .more) : D.drain (fs.flatMap enc) = ⟨fs, [], true⟩ := by
  induction fs with
  | nil => exact drain_of_more hnil
  | cons f fs ih =>
    have hf := h.complete (fs.flatMap enc) (hfs f (by simp))
    rw [List.flatMap_cons, drain_of_frame hf, List.drop_left, ih fun g hg => hfs g (by simp [hg])]

end FrameReader

end TonyCat.Library
