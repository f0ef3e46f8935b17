import TonyCat.Tools.PaserPb

set_option autoImplicit false

/-! The words of a line. -/

namespace TonyCat.Tools

open TonyCat.Library

lemma notMem_of_all {p : Char → Bool} {t : Text} (h : ∀ c ∈ t, p c = true) {c : Char} (hc : p c = false) : c ∉ t := by
  intro hmem
  rw [h c hmem] at hc
  cases hc

lemma strip_of_spaces {t : Text} (h : ∀ c ∈ t, isSpace c = true) : strip t = [] := by
  rw [strip, List.dropWhile_eq_nil_iff.mpr h]
  rfl

lemma rdropWhile_append_cons {a t : Text} {c : Char} (h : isSpace c = false) :
    (a ++ c :: t).rdropWhile isSpace = a ++ c :: t.rdropWhile isSpace := by
  have hlast : [c].dropWhile isSpace = [c] := List.dropWhile_cons_of_neg (by simp [h])
  rw [List.rdropWhile, List.rdropWhile, List.reverse_append, List.reverse_cons, List.append_assoc,
    List.dropWhile_append]
  split_ifs with hnil
  · rw [List.isEmpty_iff.mp hnil, List.singleton_append, List.dropWhile_cons_of_neg (by simp [h])]
    simp
  · simp

lemma strip_append_cons {w t : Text} {c : Char} (hw : ∀ d ∈ w, isSpace d = true) (h : isSpace c = false) :
    strip (w ++ c :: t) = c :: t.rdropWhile isSpace := by
  have hfront : (w ++ c :: t).dropWhile isSpace = c :: t := by
    rw [List.dropWhile_append, List.dropWhile_eq_nil_iff.mpr hw]
    exact List.dropWhile_cons_of_neg (by simp [h])
  rw [strip, hfront]
  exact rdropWhile_append_cons (a := []) h

lemma strip_concat_newline (t : Text) : strip (t ++ ['\n']) = strip t := by
  by_cases hall : ∀ c ∈ t, isSpace c = true
  · have hall' : ∀ c ∈ t ++ ['\n'], isSpace c = true := by
      intro c hc
      obtain hc | hc := List.mem_append.mp hc
      · exact hall c hc
      · rw [List.mem_singleton.mp hc]
        decide
    rw [strip_of_spaces hall, strip_of_spaces hall']
  · have hne : t.dropWhile isSpace ≠ [] := fun hnil => hall (List.dropWhile_eq_nil_iff.mp hnil)
    rw [strip, strip, List.dropWhile_append, if_neg (by simpa using hne), List.rdropWhile_concat_pos]
    decide

def dataWords (t : Text) : List Text := (t.splitOn ' ').flatMap splitWord

def lineWords (line : Text) : List Text := dataWords (strip line)

lemma cut_of_notMem {c : Char} {sub t : Text} (h : c ∉ t) : cut (c :: sub) t = none := by
  rw [cut, findSlice_of_notMem rfl h]
  rfl

lemma cut_append_cons {c : Char} {a b : Text} (h : c ∉ a) : cut [c] (a ++ c :: b) = some (a, b) := by
  have hfind : findSlice [c] (a ++ ([c] ++ b)) = some a.length := findSlice_append_of_notMem rfl h b
  rw [cut, ← List.singleton_append, hfind, Option.map_some, List.take_left, List.length_singleton,
    ← List.drop_drop, List.drop_left]
  rfl

lemma splitLine_of_cut {line : Text} (h : cut ['/', '/'] line = none) : splitLine line = lineWords line := by
  rw [splitLine, h]
  exact List.append_nil _

lemma splitLine_of_notMem {line : Text} (h : '/' ∉ line) : splitLine line = lineWords line :=
  splitLine_of_cut (cut_of_notMem h)

lemma cut_append_of_none {a b : Text} (h : cut ['/', '/'] a = none) (hb : '/' ∉ b) :
    cut ['/', '/'] (a ++ b) = none := by
  induction b using List.reverseRecOn with
  | nil => rwa [List.append_nil]
  | append_singleton b c ih =>
    rw [List.mem_append, List.mem_singleton, not_or] at hb
    have hc : c ∉ ['/', '/'] := by simpa using Ne.symm hb.2
    have hfind := Option.map_eq_none_iff.mp (ih hb.1)
    rw [← List.append_assoc, cut, findSlice_concat (by simp) hc, hfind, Option.map_none]

@[simp] lemma dataWords_nil : dataWords [] = [] := rfl

lemma dataWords_append_space (a b : Text) : dataWords (a ++ ' ' :: b) = dataWords a ++ dataWords b := by
  rw [dataWords, List.splitOn_append_cons_self, List.flatMap_append]
  rfl

lemma dataWords_replicate_append (k : ℕ) (t : Text) : dataWords (List.replicate k ' ' ++ t) = dataWords t := by
  induction k with
  | zero => rfl
  | succ k ih =>
    rw [List.replicate_succ, List.cons_append]
    exact (dataWords_append_space [] _).trans ih

lemma dataWords_of_notMem {t : Text} (h : ' ' ∉ t) : dataWords t = splitWord t := by
  rw [dataWords, List.splitOn_eq_singleton h, List.flatMap_singleton]

lemma splitWord_of_notMem {t : Text} (heq : '=' ∉ t) :
    splitWord t = nonEmpty (((cut [';'] t).map Prod.fst).getD t) := by
  rw [splitWord, cut_of_notMem heq]
  cases cut [';'] t <;> rfl

lemma splitWord_plain {t : Text} (hne : t ≠ []) (heq : '=' ∉ t) (hsemi : ';' ∉ t) : splitWord t = [t] := by
  rw [splitWord_of_notMem heq, cut_of_notMem hsemi]
  exact if_neg hne

lemma splitWord_semicolon {u : Text} (heq : '=' ∉ u) : splitWord (';' :: u) = [] := by
  have hcut : cut [';'] (';' :: u) = some ([], u) := cut_append_cons (a := []) (by simp)
  rw [splitWord_of_notMem (by simpa using heq), hcut]
  rfl

lemma mem_nonEmpty {t w : Text} (h : w ∈ nonEmpty t) : w = t ∧ w ≠ [] := by
  rw [nonEmpty] at h
  split_ifs at h with ht
  · cases h
  · obtain rfl := List.mem_singleton.mp h
    exact ⟨rfl, ht⟩

lemma cut_eq_some {c : Char} {t a b : Text} (h : cut [c] t = some (a, b)) : t = a ++ c :: b ∧ c ∉ a := by
  obtain ⟨n, hn, heq⟩ := Option.map_eq_some_iff.mp h
  cases heq
  refine ⟨findSlice_eq_some hn, fun hmem => ?_⟩
  have hnone := findSlice_take (List.cons_ne_nil c []) hn
  obtain ⟨before, after, hsplit, hbefore⟩ := List.eq_append_cons_of_mem hmem
  have hfind : findSlice [c] (before ++ ([c] ++ after)) = some before.length :=
    findSlice_append_of_notMem rfl hbefore after
  rw [hsplit] at hnone
  cases hfind.symm.trans hnone

lemma mem_splitWord {t w : Text} (h : w ∈ splitWord t) : w ≠ [] ∧ ∀ c ∈ w, c ∈ t := by
  rw [splitWord] at h
  obtain h | h := List.mem_append.mp h
  · cases hcut : cut ['='] t with
    | none =>
      rw [hcut] at h
      cases h
    | some sides =>
      obtain ⟨front, behind⟩ := sides
      obtain ⟨heq, -⟩ := cut_eq_some hcut
      rw [hcut] at h
      obtain h | h := List.mem_append.mp h
      · obtain ⟨rfl, hne⟩ := mem_nonEmpty h
        exact ⟨hne, fun c hc => heq ▸ List.mem_append_left _ hc⟩
      · obtain ⟨rfl, hne⟩ := mem_nonEmpty h
        exact ⟨hne, fun c hc => heq ▸ List.mem_append_right _ (List.mem_cons_of_mem _ hc)⟩
  · obtain ⟨rfl, hne⟩ := mem_nonEmpty h
    refine ⟨hne, fun c hc => ?_⟩
    cases hcut : cut [';'] t with
    | none => rwa [hcut] at hc
    | some sides =>
      obtain ⟨front, behind⟩ := sides
      rw [hcut] at hc
      exact (cut_eq_some hcut).1 ▸ List.mem_append_left _ hc

lemma mem_splitOn {t piece : Text} (h : piece ∈ t.splitOn ' ') : ∀ c ∈ piece, c ∈ t ∧ c ≠ ' ' := by
  induction t generalizing piece with
  | nil =>
    rw [List.splitOn_nil, List.mem_singleton] at h
    subst h
    nofun
  | cons a t ih =>
    rw [List.splitOn_cons_eq_if_modifyHead] at h
    split_ifs at h with ha
    · obtain rfl | h := List.mem_cons.mp h
      · nofun
      · exact fun c hc => ⟨List.mem_cons_of_mem _ (ih h c hc).1, (ih h c hc).2⟩
    · obtain ⟨first, rest, hsplit⟩ := List.exists_cons_of_ne_nil (List.splitOn_ne_nil ' ' t)
      rw [hsplit, List.modifyHead_cons] at h
      obtain rfl | h := List.mem_cons.mp h
      · intro c hc
        obtain rfl | hc := List.mem_cons.mp hc
        · exact ⟨List.mem_cons_self .., by simpa using ha⟩
        · have hfirst := ih (hsplit ▸ List.mem_cons_self ..) c hc
          exact ⟨List.mem_cons_of_mem _ hfirst.1, hfirst.2⟩
      · have hrest := ih (hsplit ▸ List.mem_cons_of_mem _ h)
        exact fun c hc => ⟨List.mem_cons_of_mem _ (hrest c hc).1, (hrest c hc).2⟩

lemma mem_dataWords {t w : Text} (h : w ∈ dataWords t) : w ≠ [] ∧ ∀ c ∈ w, c ∈ t ∧ c ≠ ' ' := by
  obtain ⟨piece, hpiece, hw⟩ := List.mem_flatMap.mp h
  obtain ⟨hne, hchars⟩ := mem_splitWord hw
  exact ⟨hne, fun c hc => mem_splitOn hpiece c (hchars c hc)⟩

lemma semicolon_notMem {t w : Text} (heq : '=' ∉ t) (h : w ∈ dataWords t) : ';' ∉ w := by
  obtain ⟨piece, hpiece, hw⟩ := List.mem_flatMap.mp h
  rw [splitWord_of_notMem fun hmem => heq (mem_splitOn hpiece _ hmem).1] at hw
  obtain ⟨rfl, -⟩ := mem_nonEmpty hw
  cases hcut : cut [';'] piece with
  | none =>
    intro (hmem : ';' ∈ piece)
    obtain ⟨before, after, hsplit, hbefore⟩ := List.eq_append_cons_of_mem hmem
    rw [hsplit, cut_append_cons hbefore] at hcut
    cases hcut
  | some sides => exact (cut_eq_some hcut).2

lemma dataWords_piece {w : Text} (hw : ' ' ∉ w) (r : Text) : ∃ r₀ ws, ' ' ∉ r₀ ∧ (∀ c ∈ r₀, c ∈ r) ∧
    dataWords (w ++ r) = splitWord (w ++ r₀) ++ ws ∧
    ∀ y ∈ ws, y ≠ [] ∧ (∀ c ∈ y, c ∈ r ∧ c ≠ ' ') ∧ ('=' ∉ r → ';' ∉ y) := by
  by_cases hr : ' ' ∈ r
  · obtain ⟨r₀, r₁, rfl, hr₀⟩ := List.eq_append_cons_of_mem hr
    refine ⟨r₀, dataWords r₁, hr₀, fun c hc => List.mem_append_left _ hc, ?_, ?_⟩
    · rw [← List.append_assoc, dataWords_append_space, dataWords_of_notMem]
      exact List.not_mem_append hw hr₀
    · intro y hy
      obtain ⟨hne, hchars⟩ := mem_dataWords hy
      refine ⟨hne, fun c hc => ⟨?_, (hchars c hc).2⟩, fun heq => semicolon_notMem (fun hmem => heq ?_) hy⟩
      · exact List.mem_append_right _ (List.mem_cons_of_mem _ (hchars c hc).1)
      · exact List.mem_append_right _ (List.mem_cons_of_mem _ hmem)
  · refine ⟨r, [], hr, fun c hc => hc, ?_, nofun⟩
    rw [dataWords_of_notMem (List.not_mem_append hw hr), List.append_nil]

def upToSemicolon (word : Text) : Text :=
  match cut [';'] word with
  | some (front, _) => front
  | none => word

lemma upToSemicolon_append {a : Text} (ha : ';' ∉ a) (b : Text) : upToSemicolon (a ++ b) = a ++ upToSemicolon b := by
  by_cases hb : ';' ∈ b
  · obtain ⟨x, y, rfl, hx⟩ := List.eq_append_cons_of_mem hb
    rw [← List.append_assoc, upToSemicolon, upToSemicolon, cut_append_cons (List.not_mem_append ha hx),
      cut_append_cons hx]
  · rw [upToSemicolon, upToSemicolon, cut_of_notMem (List.not_mem_append ha hb), cut_of_notMem hb]

lemma upToSemicolon_append_cons {a b : Text} {c : Char} (ha : ';' ∉ a) (hc : c ≠ ';') :
    upToSemicolon (a ++ c :: b) = a ++ c :: upToSemicolon b := by
  have hac : ';' ∉ a ++ [c] := List.not_mem_append ha (by simpa using hc.symm)
  have happend := upToSemicolon_append hac b
  rwa [List.append_assoc, List.append_assoc] at happend

lemma mem_upToSemicolon {t : Text} {c : Char} (h : c ∈ upToSemicolon t) : c ∈ t := by
  unfold upToSemicolon at h
  split at h
  next front behind hcut => exact (cut_eq_some hcut).1 ▸ List.mem_append_left _ h
  next => exact h

lemma splitWord_ends {a b : Text} {c : Char} (ha : ';' ∉ a) (hc : c ≠ ';') :
    ∃ ws x, splitWord (a ++ c :: b) = ws ++ [a ++ c :: x] := by
  have hwhole : nonEmpty (upToSemicolon (a ++ c :: b)) = [a ++ c :: upToSemicolon b] := by
    rw [upToSemicolon_append_cons ha hc]
    exact if_neg (by simp)
  exact ⟨_, _, congrArg _ hwhole⟩

lemma splitWord_sides {a b : Text} (hne : a ≠ []) (heq : '=' ∉ a) (hsemi : ';' ∉ a) :
    ∃ x, splitWord (a ++ '=' :: b) = a :: (nonEmpty b ++ [a ++ '=' :: x]) := by
  have hwhole : nonEmpty (upToSemicolon (a ++ '=' :: b)) = [a ++ '=' :: upToSemicolon b] := by
    rw [upToSemicolon_append_cons hsemi (by decide)]
    exact if_neg (by simp)
  have hfront : nonEmpty a = [a] := if_neg hne
  have hsplit : splitWord (a ++ '=' :: b) = nonEmpty a ++ nonEmpty b ++ nonEmpty (upToSemicolon (a ++ '=' :: b)) := by
    rw [splitWord, cut_append_cons heq]
    rfl
  exact ⟨_, by rw [hsplit, hfront, hwhole, List.append_assoc]; rfl⟩

lemma dataWords_ne_nil {a b : Text} {c : Char} (ha : ';' ∉ a) (hc : c ≠ ';') (hspace : c ≠ ' ') :
    dataWords (a ++ c :: b) ≠ [] := by
  induction hlen : a.length using Nat.strongRecOn generalizing a with
  | ind k ih =>
    by_cases hmem : ' ' ∈ a
    · obtain ⟨a₁, a₂, rfl, -⟩ := List.eq_append_cons_of_mem hmem
      have hlt : a₂.length < k := by
        rw [← hlen, List.length_append, List.length_cons]
        omega
      have hrest := ih a₂.length hlt (fun h => ha (List.mem_append_right _ (List.mem_cons_of_mem _ h))) rfl
      rw [List.append_assoc, List.cons_append, dataWords_append_space]
      exact List.append_ne_nil_of_right_ne_nil _ hrest
    · have hpiece : ' ' ∉ a ++ [c] := List.not_mem_append hmem (by simpa using hspace.symm)
      obtain ⟨r₀, ws, -, -, hwords, -⟩ := dataWords_piece hpiece b
      obtain ⟨ws', x, hends⟩ := splitWord_ends (b := r₀) ha hc
      rw [List.append_assoc, List.singleton_append] at hwords
      rw [hwords, List.append_assoc, List.singleton_append, hends]
      simp

def Plain (w : Text) : Prop := w ≠ [] ∧ ∀ c ∈ w, isSpace c = false ∧ c ∉ [' ', '=', ';', '/', '>', '{', '}']

lemma Plain.not_mem {w : Text} (h : Plain w) {c : Char} (hc : c ∈ [' ', '=', ';', '/', '>', '\x7b', '\x7d']) : c ∉ w :=
  fun hmem => (h.2 c hmem).2 hc

lemma Plain.notMem_of_space {w : Text} (h : Plain w) {c : Char} (hc : isSpace c = true) : c ∉ w := by
  intro hmem
  rw [(h.2 c hmem).1] at hc
  cases hc

lemma Plain.splitWord_eq {w : Text} (h : Plain w) : splitWord w = [w] :=
  splitWord_plain h.1 (h.not_mem (by simp)) (h.not_mem (by simp))

lemma Plain.space_notMem {w : Text} (h : Plain w) : ' ' ∉ w := h.not_mem (by simp)

lemma Plain.dataWords_eq {w : Text} (h : Plain w) : dataWords w = [w] := by
  rw [dataWords_of_notMem h.space_notMem, h.splitWord_eq]

lemma nameWords {name gap r : Text} (hname : Plain name) (hgap : gap = [] ∨ ∃ v, gap = ' ' :: v)
    (hsemi : ';' ∉ gap) : ∃ x xs, dataWords (name ++ gap ++ '=' :: r) = name :: x :: xs := by
  obtain rfl | ⟨v, rfl⟩ := hgap
  · obtain ⟨r₀, ws, -, -, hwords, -⟩ := dataWords_piece (w := name ++ ['='])
      (List.not_mem_append hname.space_notMem (by simp)) r
    obtain ⟨x, hx⟩ := splitWord_sides (b := r₀) hname.1 (hname.not_mem (by simp)) (hname.not_mem (by simp))
    obtain ⟨y, ys, hy⟩ := List.exists_cons_of_ne_nil (List.append_ne_nil_of_right_ne_nil (nonEmpty r₀)
      (List.cons_ne_nil (name ++ '=' :: x) []))
    rw [List.append_assoc, List.singleton_append] at hwords
    rw [List.append_assoc, List.singleton_append, hx, hy] at hwords
    exact ⟨y, ys ++ ws, by rw [List.append_nil, hwords]; rfl⟩
  · obtain ⟨x, xs, hrest⟩ := List.exists_cons_of_ne_nil
      (dataWords_ne_nil (a := v) (b := r) (c := '=') (fun hmem => hsemi (List.mem_cons_of_mem _ hmem)) (by simp)
        (by simp))
    refine ⟨x, xs, ?_⟩
    rw [List.append_assoc, List.cons_append, dataWords_append_space, hname.dataWords_eq, hrest]
    rfl

lemma tagWords {tag r : Text} (htag : Plain tag) (hr : '=' ∉ r) : ∃ x xs, dataWords (tag ++ r) = (tag ++ x) :: xs ∧
    (∀ c ∈ x, c ∈ r) ∧ ∀ y ∈ xs, y ≠ [] ∧ (∀ c ∈ y, c ∈ r ∧ c ≠ ' ') ∧ ';' ∉ y := by
  obtain ⟨r₀, ws, -, hr₀, hwords, hws⟩ := dataWords_piece htag.space_notMem r
  have heq : '=' ∉ tag ++ r₀ := List.not_mem_append (htag.not_mem (by simp)) fun hmem => hr (hr₀ _ hmem)
  have hsplit : splitWord (tag ++ r₀) = [tag ++ upToSemicolon r₀] := by
    have hwhole : splitWord (tag ++ r₀) = nonEmpty (upToSemicolon (tag ++ r₀)) := by
      rw [splitWord, cut_of_notMem heq]
      rfl
    rw [hwhole, upToSemicolon_append (htag.not_mem (by simp))]
    exact if_neg (List.append_ne_nil_of_left_ne_nil htag.1 _)
  rw [hsplit] at hwords
  refine ⟨_, ws, hwords, fun c hc => hr₀ c (mem_upToSemicolon hc), fun y hy => ?_⟩
  obtain ⟨hne, hchars, hsemi⟩ := hws y hy
  exact ⟨hne, hchars, hsemi hr⟩

structure Begins (w : Text) : Prop where
  ne : w ≠ []
  space : ' ' ∉ w
  eq : '=' ∉ w
  semicolon : ';' ∉ w

lemma Plain.begins {w : Text} (h : Plain w) : Begins w :=
  ⟨h.1, h.space_notMem, h.not_mem (by simp), h.not_mem (by simp)⟩

lemma splitWord_head {w : Text} (hw : Begins w) (r : Text) : ∃ x xs, splitWord (w ++ r) = (w ++ x) :: xs := by
  by_cases hr : '=' ∈ r
  · obtain ⟨a, b, rfl, ha⟩ := List.eq_append_cons_of_mem hr
    have heq : '=' ∉ w ++ a := List.not_mem_append hw.eq ha
    have hfront : nonEmpty (w ++ a) = [w ++ a] := if_neg (List.append_ne_nil_of_left_ne_nil hw.ne a)
    rw [splitWord, ← List.append_assoc, cut_append_cons heq]
    simp only [hfront]
    exact ⟨a, _, rfl⟩
  · have hwhole : splitWord (w ++ r) = nonEmpty (upToSemicolon (w ++ r)) := by
      rw [splitWord, cut_of_notMem (List.not_mem_append hw.eq hr)]
      rfl
    refine ⟨upToSemicolon r, [], ?_⟩
    rw [hwhole, upToSemicolon_append hw.semicolon]
    exact if_neg (List.append_ne_nil_of_left_ne_nil hw.ne _)

lemma dataWords_head {w : Text} (hw : Begins w) (r : Text) : ∃ x xs, dataWords (w ++ r) = (w ++ x) :: xs := by
  obtain ⟨r₀, ws, -, -, hwords, -⟩ := dataWords_piece hw.space r
  obtain ⟨x, xs, hx⟩ := splitWord_head hw r₀
  exact ⟨x, xs ++ ws, by rw [hwords, hx]; rfl⟩

structure Clean (pre : Text) : Prop where
  words : ∀ {c : Char} {t : Text}, isSpace c = false → lineWords (pre ++ c :: t) = lineWords (c :: t)
  chars : ∀ c ∈ pre, c = ';' ∨ isSpace c = true ∧ c ≠ '\n'

lemma lineWords_cons {c : Char} (h : isSpace c = false) (t : Text) :
    lineWords (c :: t) = dataWords (c :: t.rdropWhile isSpace) := by
  rw [lineWords, ← List.nil_append (c :: t), strip_append_cons (by simp) h]

lemma Clean.of_spaces {w : Text} (h : ∀ c ∈ w, isSpace c = true ∧ c ≠ '\n') : Clean w where
  words hc := by
    rw [lineWords, strip_append_cons (fun d hd => (h d hd).1) hc, lineWords_cons hc]
  chars c hc := .inr (h c hc)

lemma Clean.semicolon {w u : Text} (hw : ∀ c ∈ w, isSpace c = true ∧ c ≠ '\n')
    (hu : ∀ c ∈ u, isSpace c = true ∧ c ≠ '\n') (hspace : ' ' ∉ u) (k : ℕ) :
    Clean (w ++ ';' :: (u ++ List.replicate (k + 1) ' ')) where
  words {c t} hc := by
    have heq : '=' ∉ u := fun hmem => absurd (hu _ hmem).1 (by decide)
    have hsemi : ' ' ∉ ';' :: u := by
      rw [List.mem_cons]
      rintro (h | h)
      · cases h
      · exact hspace h
    rw [List.append_assoc, List.cons_append, List.append_assoc, lineWords,
      strip_append_cons (fun d hd => (hw d hd).1) (by decide), ← List.append_assoc, rdropWhile_append_cons hc,
      lineWords_cons hc, List.replicate_succ, List.append_assoc, List.cons_append, ← List.cons_append,
      dataWords_append_space, dataWords_replicate_append, dataWords_of_notMem hsemi, splitWord_semicolon heq]
    rfl
  chars c hc := by
    obtain hc | hc := List.mem_append.mp hc
    · exact .inr (hw c hc)
    obtain rfl | hc := List.mem_cons.mp hc
    · exact .inl rfl
    obtain hc | hc := List.mem_append.mp hc
    · exact .inr (hu c hc)
    · obtain rfl := List.eq_of_mem_replicate hc
      exact .inr ⟨by decide, by decide⟩

lemma findSlice_append_left {c : Char} {sub a : Text} (ha : c ∉ a) (b : Text) :
    findSlice (c :: sub) (a ++ b) = (findSlice (c :: sub) b).map (a.length + ·) := by
  induction a with
  | nil => simp
  | cons d a ih =>
    rw [List.mem_cons, not_or] at ha
    rw [List.cons_append, findSlice, if_neg fun hpre => ha.1 (List.cons_prefix_cons.mp hpre).1, ih ha.2, Option.map_map]
    congr 1
    funext n
    rw [Function.comp_apply, List.length_cons]
    omega

lemma cut_append_of_notMem {c : Char} {sub a : Text} (ha : c ∉ a) (b : Text) :
    cut (c :: sub) (a ++ b) = (cut (c :: sub) b).map fun sides => (a ++ sides.1, sides.2) := by
  rw [cut, cut, findSlice_append_left ha, Option.map_map, Option.map_map]
  congr 1
  funext n
  simp [List.take_append, List.drop_append, Nat.add_assoc]

lemma splitLine_eq (line : Text) :
    ∃ comment, splitLine line = lineWords ((cut ['/', '/'] line).getD (line, [])).1 ++ comment := ⟨_, rfl⟩

/-- What stands before the first `//` decides the first words, whatever follows. -/
lemma splitLine_append {a : Text} (ha : '/' ∉ a) (b : Text) :
    ∃ b' comment, splitLine (a ++ b) = lineWords (a ++ b') ++ comment := by
  obtain ⟨comment, hline⟩ := splitLine_eq (a ++ b)
  rw [cut_append_of_notMem ha] at hline
  cases hcut : cut ['/', '/'] b with
  | none =>
    rw [hcut] at hline
    exact ⟨b, comment, hline⟩
  | some sides =>
    rw [hcut] at hline
    exact ⟨sides.1, comment, hline⟩

lemma strip_spaces_append {w : Text} (hw : ∀ c ∈ w, isSpace c = true) (t : Text) : strip (w ++ t) = strip t := by
  rw [strip, List.dropWhile_append, List.dropWhile_eq_nil_iff.mpr hw]
  rfl

lemma splitLine_spaces {w : Text} (hw : ∀ c ∈ w, isSpace c = true) (t : Text) : splitLine (w ++ t) = splitLine t := by
  have hslash : '/' ∉ w := notMem_of_all hw (by decide)
  rw [splitLine, splitLine, cut_append_of_notMem hslash]
  cases cut ['/', '/'] t with
  | none => simp only [Option.map_none, Option.getD_none, strip_spaces_append hw]
  | some sides => simp only [Option.map_some, Option.getD_some, strip_spaces_append hw]

end TonyCat.Tools
