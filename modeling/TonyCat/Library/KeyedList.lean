import Mathlib.Data.List.Nodup

set_option autoImplicit false

/-! Association lists in which a key occurs once. -/

namespace TonyCat.Library.KeyedList

variable {κ β : Type*}

lemma eq_of_mem {l : List (κ × β)} (h : (l.map Prod.fst).Nodup) {k : κ} {v w : β} (hv : (k, v) ∈ l)
    (hw : (k, w) ∈ l) : v = w :=
  congrArg Prod.snd (List.inj_on_of_nodup_map h hv hw rfl)

section Lookup

variable [BEq κ] [LawfulBEq κ]

lemma mem_of_lookup {l : List (κ × β)} {k : κ} {v : β} (h : l.lookup k = some v) : (k, v) ∈ l := by
  obtain ⟨l₁, l₂, rfl, -⟩ := List.lookup_eq_some_iff.mp h
  simp

lemma lookup_of_mem {l : List (κ × β)} (h : (l.map Prod.fst).Nodup) {k : κ} {v : β} (hv : (k, v) ∈ l) :
    l.lookup k = some v := by
  cases hl : l.lookup k with
  | none =>
    rw [List.lookup_eq_none_iff] at hl
    simpa using hl _ hv
  | some w => rw [eq_of_mem h hv (mem_of_lookup hl)]

lemma notMem_of_lookup {l : List (κ × β)} {k : κ} (h : l.lookup k = none) (v : β) : (k, v) ∉ l := by
  intro hv
  rw [List.lookup_eq_none_iff] at h
  simpa using h _ hv

lemma mem_walk {l : List (κ × β)} (h : (l.map Prod.fst).Nodup) {keys : List κ}
    (hk : keys.Perm (l.map Prod.fst)) {elem : κ × β} :
    elem ∈ keys.filterMap (fun k => (l.lookup k).map (Prod.mk k)) ↔ elem ∈ l := by
  obtain ⟨k, v⟩ := elem
  simp only [List.mem_filterMap, Option.map_eq_some_iff, Prod.mk.injEq]
  constructor
  · rintro ⟨k', -, w, hw, rfl, rfl⟩
    exact mem_of_lookup hw
  · intro hv
    exact ⟨k, hk.mem_iff.mpr (List.mem_map_of_mem hv), v, lookup_of_mem h hv, rfl, rfl⟩

omit [LawfulBEq κ] in
lemma walk_keys_nodup {l : List (κ × β)} {keys : List κ} (hk : keys.Nodup) :
    ((keys.filterMap (fun k => (l.lookup k).map (Prod.mk k))).map Prod.fst).Nodup := by
  induction keys with
  | nil => simp
  | cons k keys ih =>
    obtain ⟨hnot, hk⟩ := List.nodup_cons.mp hk
    rw [List.filterMap_cons]
    cases hl : l.lookup k with
    | none => exact ih hk
    | some v =>
      refine List.nodup_cons.mpr ⟨?_, ih hk⟩
      intro hmem
      obtain ⟨⟨k', w⟩, hw, rfl⟩ := List.mem_map.mp hmem
      obtain ⟨k'', hk'', hmap⟩ := List.mem_filterMap.mp hw
      obtain ⟨v', -, heq⟩ := Option.map_eq_some_iff.mp hmap
      cases heq
      exact hnot hk''

end Lookup

variable [DecidableEq κ]

def erase (l : List (κ × β)) (k : κ) : List (κ × β) := l.filter fun elem => elem.1 ≠ k

@[simp] lemma mem_erase {l : List (κ × β)} {k : κ} {elem : κ × β} :
    elem ∈ erase l k ↔ elem ∈ l ∧ elem.1 ≠ k := by
  simp [erase]

lemma erase_sublist (l : List (κ × β)) (k : κ) : (erase l k).Sublist l := List.filter_sublist

lemma erase_eq_self {l : List (κ × β)} {k : κ} (h : ∀ v, (k, v) ∉ l) : erase l k = l := by
  apply List.filter_eq_self.mpr
  intro elem hmem
  simp only [ne_eq, decide_not, Bool.not_eq_eq_eq_not, Bool.not_true, decide_eq_false_iff_not]
  rintro rfl
  exact h _ hmem

lemma perm_cons_erase {l : List (κ × β)} (h : (l.map Prod.fst).Nodup) {k : κ} {v : β} (hv : (k, v) ∈ l) :
    l.Perm ((k, v) :: erase l k) := by
  have hl : l.Nodup := List.Nodup.of_map _ h
  have hr : ((k, v) :: erase l k).Nodup := by
    refine List.nodup_cons.mpr ⟨?_, hl.sublist (erase_sublist l k)⟩
    rw [mem_erase]
    exact fun hmem => hmem.2 rfl
  refine (List.perm_ext_iff_of_nodup hl hr).mpr fun elem => ?_
  rw [List.mem_cons, mem_erase]
  constructor
  · intro helem
    by_cases hk : elem.1 = k
    · obtain ⟨k', w⟩ := elem
      cases hk
      exact Or.inl (Prod.ext rfl (eq_of_mem h helem hv))
    · exact Or.inr ⟨helem, hk⟩
  · rintro (rfl | ⟨helem, -⟩)
    · exact hv
    · exact helem

def emplace (l : List (κ × β)) (k : κ) (v : β) : List (κ × β) :=
  if k ∈ l.map Prod.fst then l else l ++ [(k, v)]

lemma emplace_of_notMem {l : List (κ × β)} {k : κ} {v : β} (h : ∀ w, (k, w) ∉ l) : emplace l k v = l ++ [(k, v)] := by
  apply if_neg
  intro hmem
  obtain ⟨⟨k', w⟩, hw, rfl⟩ := List.mem_map.mp hmem
  exact h w hw

@[simp] lemma lookup_erase [BEq κ] [LawfulBEq κ] (l : List (κ × β)) (k k' : κ) :
    (erase l k).lookup k' = if k' = k then none else l.lookup k' := by
  induction l with
  | nil => simp [erase]
  | cons elem l ih =>
    obtain ⟨j, v⟩ := elem
    by_cases hj : j = k
    · have hdrop : erase ((j, v) :: l) k = erase l k := by simp [erase, hj]
      rw [hdrop, ih, List.lookup_cons]
      by_cases hk : k' = k
      · rw [if_pos hk, if_pos hk]
      · have hne : (k' == j) = false := by simpa [hj] using hk
        rw [if_neg hk, if_neg hk, hne]
    · have hkeep : erase ((j, v) :: l) k = (j, v) :: erase l k := by simp [erase, hj]
      rw [hkeep, List.lookup_cons, List.lookup_cons, ih]
      by_cases hk : k' = j
      · have hne : k' ≠ k := fun heq => hj (hk.symm.trans heq)
        rw [if_neg hne]
        split <;> simp_all
      · have hne : (k' == j) = false := by simpa using hk
        rw [hne]

lemma lookup_emplace_of_none [BEq κ] [LawfulBEq κ] {l : List (κ × β)} {k : κ} (h : l.lookup k = none) (v : β) (k' : κ) :
    (emplace l k v).lookup k' = if k' = k then some v else l.lookup k' := by
  rw [emplace_of_notMem (notMem_of_lookup h), List.lookup_append]
  by_cases hk : k' = k
  · subst hk
    simp [h]
  · have hne : (k' == k) = false := by simpa using hk
    simp [List.lookup_cons, hne, hk]

lemma lookup_emplace [BEq κ] [LawfulBEq κ] (l : List (κ × β)) (k : κ) (v : β) (k' : κ) :
    (emplace l k v).lookup k' = (l.lookup k').or ([(k, v)].lookup k') := by
  by_cases hmem : k ∈ l.map Prod.fst
  · rw [emplace, if_pos hmem]
    by_cases hk : k' = k
    · subst hk
      cases hl : l.lookup k' with
      | none =>
        obtain ⟨⟨k, w⟩, hw, rfl⟩ := List.mem_map.mp hmem
        exact absurd hw (notMem_of_lookup hl w)
      | some w => rfl
    · have hne : (k' == k) = false := by simpa using hk
      simp [List.lookup_cons, hne]
  · rw [emplace, if_neg hmem, List.lookup_append]

def emplaceAll (l elems : List (κ × β)) : List (κ × β) := elems.foldl (fun l elem => emplace l elem.1 elem.2) l

lemma lookup_emplaceAll [BEq κ] [LawfulBEq κ] (l elems : List (κ × β)) (k : κ) :
    (emplaceAll l elems).lookup k = (l.lookup k).or (elems.lookup k) := by
  induction elems generalizing l with
  | nil => simp [emplaceAll]
  | cons elem elems ih =>
    have hstep : emplaceAll l (elem :: elems) = emplaceAll (emplace l elem.1 elem.2) elems := rfl
    rw [hstep, ih, lookup_emplace, Option.or_assoc]
    congr 1
    rw [List.lookup_cons, List.lookup_cons]
    cases k == elem.1 <;> simp

end TonyCat.Library.KeyedList
