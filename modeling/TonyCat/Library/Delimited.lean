import TonyCat.Library.FrameStream

set_option autoImplicit false

/-! A stream cut at the occurrences of a separator. -/

namespace TonyCat.Library

variable {α : Type*} [DecidableEq α]

def findSlice (sub : List α) : List α → Option ℕ
  | [] => if sub = [] then some 0 else none
  | x :: xs => if sub <+: x :: xs then some 0 else (findSlice sub xs).map (· + 1)

variable {sub : List α}

lemma findSlice_eq_some {xs : List α} {n : ℕ} (h : findSlice sub xs = some n) :
    xs = xs.take n ++ (sub ++ xs.drop (n + sub.length)) := by
  induction xs generalizing n with
  | nil =>
    rw [findSlice] at h
    split at h
    case isTrue hsub =>
      subst hsub
      simp
    case isFalse => cases h
  | cons x xs ih =>
    rw [findSlice] at h
    split at h
    case isTrue hpre =>
      cases h
      obtain ⟨ys, hys⟩ := hpre
      rw [← hys, Nat.zero_add, List.drop_left]
      rfl
    case isFalse =>
      obtain ⟨m, hm, rfl⟩ := Option.map_eq_some_iff.mp h
      rw [Nat.add_right_comm, List.take_succ_cons, List.drop_succ_cons, List.cons_append, ← ih hm]

lemma findSlice_add_le {xs : List α} {n : ℕ} (h : findSlice sub xs = some n) : n + sub.length ≤ xs.length := by
  induction xs generalizing n with
  | nil =>
    rw [findSlice] at h
    split at h
    case isTrue hsub =>
      cases h
      exact (hsub ▸ Nat.le_refl 0 : 0 + sub.length ≤ 0)
    case isFalse => cases h
  | cons x xs ih =>
    rw [findSlice] at h
    split at h
    case isTrue hpre =>
      cases h
      rw [Nat.zero_add]
      exact hpre.length_le
    case isFalse =>
      obtain ⟨m, hm, rfl⟩ := Option.map_eq_some_iff.mp h
      have hfit := ih hm
      rw [List.length_cons]
      omega

lemma findSlice_append {xs : List α} {n : ℕ} (ys : List α) (h : findSlice sub xs = some n) :
    findSlice sub (xs ++ ys) = some n := by
  induction xs generalizing n with
  | nil =>
    rw [findSlice] at h
    split at h
    case isTrue hsub =>
      cases h
      subst hsub
      cases ys <;> simp [findSlice]
    case isFalse => cases h
  | cons x xs ih =>
    rw [findSlice] at h
    rw [List.cons_append, findSlice]
    split at h
    case isTrue hpre =>
      rw [if_pos (show sub <+: x :: (xs ++ ys) from hpre.trans (List.prefix_append (x :: xs) ys)), h]
    case isFalse hnot =>
      obtain ⟨m, hm, rfl⟩ := Option.map_eq_some_iff.mp h
      have hfit := findSlice_add_le hm
      have hnot' : ¬ sub <+: x :: (xs ++ ys) := by
        intro hpre
        apply hnot
        apply List.prefix_of_prefix_length_le hpre (List.prefix_append (x :: xs) ys)
        rw [List.length_cons]
        omega
      rw [if_neg hnot', ih hm]
      rfl

lemma findSlice_take {xs : List α} {n : ℕ} (hsub : sub ≠ []) (h : findSlice sub xs = some n) :
    findSlice sub (xs.take n) = none := by
  cases hn : findSlice sub (xs.take n) with
  | none => rfl
  | some m =>
    have hm := findSlice_append (xs.drop n) hn
    rw [List.take_append_drop, h] at hm
    cases hm
    have hfit := findSlice_add_le hn
    have hpos := List.length_pos_of_ne_nil hsub
    rw [List.length_take] at hfit
    omega

lemma findSlice_of_notMem {a : α} {t xs : List α} (hsub : sub = a :: t) (h : a ∉ xs) : findSlice sub xs = none := by
  subst hsub
  induction xs with
  | nil => rfl
  | cons x xs ih =>
    rw [List.mem_cons, not_or] at h
    rw [findSlice, if_neg fun hpre => h.1 (List.cons_prefix_cons.mp hpre).1, ih h.2]
    rfl

lemma findSlice_concat {a : α} (hne : sub ≠ []) (ha : a ∉ sub) (xs : List α) : findSlice sub (xs ++ [a]) = findSlice sub xs := by
  have hpre : ∀ ys : List α, sub <+: ys ++ [a] ↔ sub <+: ys := by
    intro ys
    rw [List.prefix_concat_iff, or_iff_right]
    rintro rfl
    exact ha (by simp)
  induction xs with
  | nil =>
    have hnot : ¬ sub <+: [a] := fun h => hne (List.prefix_nil.mp ((hpre []).mp h))
    have hnil : findSlice sub [] = none := if_neg hne
    rw [List.nil_append, findSlice.eq_2, if_neg hnot, hnil]
    rfl
  | cons x xs ih =>
    rw [List.cons_append, findSlice, findSlice, ih]
    simp only [← List.cons_append, hpre]

lemma findSlice_append_of_notMem {a : α} {t xs : List α} (hsub : sub = a :: t) (h : a ∉ xs) (ys : List α) :
    findSlice sub (xs ++ (sub ++ ys)) = some xs.length := by
  subst hsub
  induction xs with
  | nil =>
    rw [List.nil_append, List.cons_append, findSlice, ← List.cons_append, if_pos (List.prefix_append (a :: t) ys)]
    rfl
  | cons x xs ih =>
    rw [List.mem_cons, not_or] at h
    rw [List.cons_append, findSlice, if_neg fun hpre => h.1 (List.cons_prefix_cons.mp hpre).1, ih h.2]
    rfl

lemma findSlice_pair_append {a b : α} {xs ys : List α} (h : findSlice [a, b] xs = none)
    (hcut : xs.getLast? ≠ some a ∨ ys.head? ≠ some b) :
    findSlice [a, b] (xs ++ ys) = (findSlice [a, b] ys).map (· + xs.length) := by
  induction xs with
  | nil => cases hy : findSlice [a, b] ys <;> simp [hy]
  | cons x xs ih =>
    rw [findSlice] at h
    split at h
    case isTrue => cases h
    case isFalse hnot =>
      have hrest : xs.getLast? ≠ some a ∨ ys.head? ≠ some b := by
        cases xs with
        | nil => exact .inl nofun
        | cons x' xs => rwa [List.getLast?_cons_cons] at hcut
      have hnot' : ¬ [a, b] <+: x :: (xs ++ ys) := by
        intro hpre
        obtain ⟨rfl, hnext⟩ := List.cons_prefix_cons.mp hpre
        cases xs with
        | nil =>
          obtain ⟨zs, hzs⟩ := hnext
          rw [List.nil_append] at hzs
          subst hzs
          simp at hcut
        | cons x' xs =>
          obtain ⟨rfl, -⟩ := List.cons_prefix_cons.mp hnext
          exact hnot (List.prefix_append [a, b] xs)
      rw [List.cons_append, findSlice, if_neg hnot', ih (Option.map_eq_none_iff.mp h) hrest, Option.map_map]
      rfl

lemma findSlice_pair {a b : α} (hab : a ≠ b) {xs : List α} (h : findSlice [a, b] xs = none) (ys : List α) :
    findSlice [a, b] (xs ++ ([a, b] ++ ys)) = some xs.length := by
  have hhead : findSlice [a, b] ([a, b] ++ ys) = some 0 := if_pos (List.prefix_append [a, b] ys)
  have hnext : ([a, b] ++ ys).head? ≠ some b := by simpa using hab
  rw [findSlice_pair_append h (.inr hnext), hhead, Option.map_some, Nat.zero_add]

def delimited (sub : List α) (hsub : sub ≠ []) : FrameReader α (List α) where
  front xs :=
    match findSlice sub xs with
    | none => .more
    | some n => .frame (xs.take n) (n + sub.length)
  frame_pos h := by
    split at h
    · cases h
    case h_2 n hn =>
      cases h
      have hpos := List.length_pos_of_ne_nil hsub
      exact ⟨by omega, findSlice_add_le hn⟩
  frame_append ys h := by
    split at h
    · cases h
    case h_2 xs n hn =>
      cases h
      have hfit := findSlice_add_le hn
      simp only [findSlice_append ys hn]
      rw [List.take_append_of_le_length (by omega)]
  refused_append ys h := by
    split at h <;> cases h

lemma delimited_front {hsub : sub ≠ []} {xs : List α} {n : ℕ} (h : findSlice sub xs = some n) :
    (delimited sub hsub).front xs = .frame (xs.take n) (n + sub.length) := by
  simp only [delimited, h]

lemma delimited_ok (hsub : sub ≠ []) (xs : List α) : ((delimited sub hsub).drain xs).ok = true := by
  cases h : ((delimited sub hsub).drain xs).ok with
  | true => rfl
  | false =>
    have hrefused := FrameReader.refused_of_not_ok xs h
    simp only [delimited] at hrefused
    split at hrefused <;> cases hrefused

lemma delimited_rest (hsub : sub ≠ []) (xs : List α) : findSlice sub ((delimited sub hsub).drain xs).rest = none := by
  cases h : findSlice sub ((delimited sub hsub).drain xs).rest with
  | none => rfl
  | some n => exact absurd (delimited_front h) (FrameReader.drain_rest_settled xs _ _)

lemma delimited_decodes {a b : α} (hab : a ≠ b) : (delimited [a, b] (List.cons_ne_nil a [b])).Decodes
    (fun xs => findSlice [a, b] xs = none) (fun xs => xs ++ [a, b]) where
  sound {xs f n} h := by
    simp only [delimited] at h
    split at h
    · cases h
    case h_2 n hn =>
      cases h
      have hfit := findSlice_add_le hn
      refine ⟨findSlice_take (List.cons_ne_nil a [b]) hn, ?_, ?_⟩
      · rw [List.length_append, List.length_take]
        omega
      · rw [List.append_assoc]
        exact findSlice_eq_some hn
  complete {f} ys h := by
    have hfind := findSlice_pair hab h ys
    rw [← List.append_assoc] at hfind
    rw [delimited_front hfind, List.append_assoc, List.take_left, List.length_append]

end TonyCat.Library
