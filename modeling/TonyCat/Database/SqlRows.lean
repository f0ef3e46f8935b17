import TonyCat.Database.SqlPlaces

set_option autoImplicit false

/-! The parentheses of a statement that each of its placeholders stands in, and the rows that the elements of a table
fill. -/

namespace TonyCat.Database

open TonyCat.Library

/-- For each placeholder the number of parentheses opened before it, the ones before the text included. -/
def groups : ℕ → Bytes → List ℕ
  | n, 123 :: 125 :: s => n :: groups n s
  | n, b :: s => groups (if b = 40 then n + 1 else n) s
  | _, [] => []

def rowColumns {α β : Type*} (columns : α → List β) : ℕ → List α → List (β × ℕ)
  | _, [] => []
  | n, e :: elems => (columns e).map (fun c => (c, n)) ++ rowColumns columns (n + 1) elems

section Rows

variable {α β : Type*} {columns : α → List β}

lemma rowColumns_fst (n : ℕ) (elems : List α) : (rowColumns columns n elems).map Prod.fst = elems.flatMap columns := by
  induction elems generalizing n with
  | nil => rfl
  | cons e elems ih =>
    rw [rowColumns, List.map_append, ih, List.map_map, List.flatMap_cons]
    exact congrArg (· ++ _) (List.map_id _)

lemma rowColumns_eq_nil {elems : List α} (h : elems.flatMap columns = []) (n : ℕ) : rowColumns columns n elems = [] := by
  rw [← rowColumns_fst n] at h
  exact List.map_eq_nil_iff.mp h

lemma exists_of_mem_rowColumns {n : ℕ} {elems : List α} {cg : β × ℕ} (h : cg ∈ rowColumns columns n elems) :
    ∃ i e, elems[i]? = some e ∧ cg.2 = n + i ∧ cg.1 ∈ columns e := by
  induction elems generalizing n with
  | nil => cases h
  | cons e elems ih =>
    obtain h | h := List.mem_append.mp h
    · obtain ⟨c, hc, rfl⟩ := List.mem_map.mp h
      exact ⟨0, e, rfl, rfl, hc⟩
    · obtain ⟨i, e', hget, hrow, hc⟩ := ih h
      exact ⟨i + 1, e', hget, by rw [hrow]; omega, hc⟩

lemma rowColumns_shift (k n : ℕ) (elems : List α) : ((rowColumns columns n elems).map Prod.snd).map (k + ·) =
    (rowColumns columns (k + n) elems).map Prod.snd := by
  induction elems generalizing n with
  | nil => rfl
  | cons e elems ih =>
    rw [rowColumns, rowColumns, List.map_append, List.map_append, List.map_append, ih, List.map_map, List.map_map,
      List.map_map]
    rfl

lemma rowColumns_single {elems : List α} (h : elems.length ≤ 1) (n : ℕ) :
    (rowColumns columns n elems).map Prod.snd = (elems.flatMap columns).map fun _ => n := by
  cases elems with
  | nil => rfl
  | cons e elems =>
    obtain rfl : elems = [] := List.length_eq_zero_iff.mp (Nat.le_zero.mp (Nat.le_of_succ_le_succ h))
    rw [rowColumns, rowColumns, List.append_nil, List.flatMap_singleton, List.map_map]
    rfl

end Rows

/-- The text opens `k` parentheses, and `gs` says for each placeholder how many of them before it. -/
def Grouped (text : Bytes) (gs : List ℕ) (k : ℕ) : Prop :=
  ∀ n rest, groups n (text ++ rest) = gs.map (n + ·) ++ groups (n + k) rest

namespace Grouped

variable {s t : Bytes} {gs hs : List ℕ} {k l : ℕ}

lemma nil : Grouped [] [] 0 := fun _ _ => rfl

lemma append (h : Grouped s gs k) (h' : Grouped t hs l) : Grouped (s ++ t) (gs ++ hs.map (k + ·)) (k + l) := by
  intro n rest
  rw [List.append_assoc, h, h', List.map_append, List.append_assoc, List.map_map, Nat.add_assoc]
  congr 2
  exact List.map_congr_left fun g _ => Nat.add_assoc n k g

lemma groups_eq (h : Grouped s gs k) : groups 0 s = gs := by
  have hall := h 0 []
  rw [List.append_nil] at hall
  rw [hall]
  simp [groups]

lemma groups_cons {b : UInt8} (hb : b ≠ 123) (n : ℕ) (s : Bytes) :
    groups n (b :: s) = groups (if b = 40 then n + 1 else n) s := by
  rw [groups]
  rintro _ rfl
  exact absurd rfl hb

lemma append_flat (h : Grouped s gs 0) (h' : Grouped t hs l) : Grouped (s ++ t) (gs ++ hs) l := by
  have hall := h.append h'
  simpa using hall

lemma plain (h : Scan.Plain s) (hk : s.count 40 = k) : Grouped s [] k := by
  subst hk
  intro n rest
  induction s generalizing n with
  | nil => rfl
  | cons b s ih =>
    have hb : b ≠ 123 := by
      rintro rfl
      exact absurd (h 123 List.mem_cons_self) (by decide)
    rw [List.cons_append, groups_cons hb, ih (fun c hc => h c (List.mem_cons_of_mem b hc)), List.count_cons]
    by_cases hopen : b = 40
    · rw [if_pos hopen, hopen, beq_self_eq_true, if_pos rfl, Nat.add_right_comm]
      rfl
    · rw [if_neg hopen, if_neg (by simpa using hopen)]
      rfl

lemma plain_flat (h : Scan.Plain s) (hopen : 40 ∉ s) : Grouped s [] 0 := plain h (List.count_eq_zero.mpr hopen)

lemma identifier {name : Bytes} (h : Identifier name) : Grouped name [] 0 := by
  refine plain_flat (Scan.plain_of_identifier h) fun hmem => ?_
  exact absurd (h.2 40 hmem) (by decide)

lemma placeholder (t : CppType) : Grouped (getProtoSqlStringPlaceholder t) [0] 0 := by
  intro n rest
  cases t with
  | string =>
    change groups n (39 :: 123 :: 125 :: 39 :: rest) = _
    rw [groups_cons (by decide), if_neg (by decide), groups, groups_cons (by decide), if_neg (by decide)]
    rfl
  | _ => rfl

lemma flat_nil {α : Type*} {elems : List α} {f : α → Bytes} (h : ∀ e ∈ elems, Grouped (f e) [] 0) :
    Grouped (elems.flatMap f) [] 0 := by
  induction elems with
  | nil => exact nil
  | cons e elems ih =>
    exact (h e List.mem_cons_self).append_flat (ih fun e' he' => h e' (List.mem_cons_of_mem e he'))

lemma flat {α : Type*} {elems : List α} {f : α → Bytes} (h : ∀ e ∈ elems, Grouped (f e) [0] 0) :
    Grouped (elems.flatMap f) (elems.map fun _ => 0) 0 := by
  induction elems with
  | nil => exact nil
  | cons e elems ih =>
    have hall := (h e List.mem_cons_self).append (ih fun e' he' => h e' (List.mem_cons_of_mem e he'))
    rw [List.map_map] at hall
    exact hall

lemma rows {α β : Type*} {columns : α → List β} {f : α × ℕ → Bytes} {elems : List α} {n : ℕ}
    (h : ∀ p ∈ elems.zipIdx n, Grouped (f p) ((columns p.1).map fun _ => 1) 1) :
    Grouped ((elems.zipIdx n).flatMap f) ((rowColumns columns 1 elems).map Prod.snd) elems.length := by
  induction elems generalizing n with
  | nil => exact nil
  | cons e elems ih =>
    rw [List.zipIdx_cons] at h ⊢
    have hall := (h (e, n) List.mem_cons_self).append (ih fun p hp => h p (List.mem_cons_of_mem _ hp))
    rw [rowColumns_shift, Nat.add_comm 1 elems.length] at hall
    rw [rowColumns, List.map_append, List.map_map]
    exact hall

end Grouped

end TonyCat.Database
