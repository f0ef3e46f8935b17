import TonyCat.Database.Schema
import Mathlib.Data.List.Sort

set_option autoImplicit false

/-! The keys of the store that a load reads, and the keys that an update or a delete of one table
writes, in index mode and in range mode. -/

namespace TonyCat.Database

open TonyCat.Library

/-- A half-open range read in the order of bytes: the first `limit` pairs. -/
def rangeRead (store : Store) (keyBegin keyEnd : Bytes) (limit : ℕ) : List (Bytes × Bytes) :=
  (((store.entries.map fun s => (s.1, s.2)).filter fun kv => keyBegin ≤ kv.1 ∧ kv.1 < keyEnd).mergeSort
    fun kv kv' => decide (kv.1 ≤ kv'.1)).take limit

section RangeRead

lemma prefix_of_range {p k : Bytes} (hb : p ≤ k) (he : k < p ++ [0xff]) : p <+: k := by
  induction p generalizing k with
  | nil => exact List.nil_prefix
  | cons a p ih =>
    cases k with
    | nil => exact (List.not_le.mpr (List.nil_lt_cons a p) hb).elim
    | cons b k =>
      rw [List.cons_le_cons_iff] at hb
      rw [List.cons_append, List.cons_lt_cons_iff] at he
      rcases hb with hab | ⟨rfl, hb⟩
      · rcases he with hba | ⟨rfl, -⟩
        · exact (UInt8.lt_asymm hab hba).elim
        · exact (UInt8.lt_irrefl _ hab).elim
      · rcases he with haa | ⟨-, he⟩
        · exact (UInt8.lt_irrefl _ haa).elim
        · exact List.cons_prefix_cons.mpr ⟨rfl, ih hb he⟩

lemma mem_pairs {store : Store} {kv : Bytes × Bytes} :
    kv ∈ store.entries.map (fun s => (s.1, s.2)) ↔ store.lookup kv.1 = some kv.2 := by
  rw [← Option.mem_def, AList.mem_lookup_iff, List.mem_map]
  constructor
  · rintro ⟨⟨k, v⟩, hs, rfl⟩
    exact hs
  · exact fun hs => ⟨⟨kv.1, kv.2⟩, hs, rfl⟩

lemma pairs_nodup (store : Store) : (store.entries.map fun s => (s.1, s.2)).Nodup := by
  refine List.Nodup.map ?_ store.nodupKeys.nodup
  rintro ⟨k, v⟩ ⟨k', v'⟩ h
  cases h
  rfl

lemma rangeRead_congr {s t : Store} {keyBegin keyEnd : Bytes} (limit : ℕ)
    (h : ∀ k, keyBegin ≤ k → k < keyEnd → t.lookup k = s.lookup k) :
    rangeRead t keyBegin keyEnd limit = rangeRead s keyBegin keyEnd limit := by
  let le : Bytes × Bytes → Bytes × Bytes → Bool := fun kv kv' => decide (kv.1 ≤ kv'.1)
  let pairs : Store → List (Bytes × Bytes) := fun store =>
    (store.entries.map fun e => (e.1, e.2)).filter fun kv => keyBegin ≤ kv.1 ∧ kv.1 < keyEnd
  have hmem : ∀ kv, kv ∈ pairs t ↔ kv ∈ pairs s := by
    intro kv
    simp only [pairs, List.mem_filter, mem_pairs, decide_eq_true_eq]
    refine and_congr_left fun hr => ?_
    rw [h kv.1 hr.1 hr.2]
  have hperm : (pairs t).Perm (pairs s) :=
    (List.perm_ext_iff_of_nodup ((pairs_nodup t).filter _) ((pairs_nodup s).filter _)).mpr hmem
  have htrans : ∀ a b c, le a b = true → le b c = true → le a c = true := by
    intro a b c hab hbc
    simp only [le, decide_eq_true_eq] at *
    exact List.le_trans hab hbc
  have htotal : ∀ a b, (le a b || le b a) = true := by
    intro a b
    simpa [le] using List.le_total a.1 b.1
  have hsort : (pairs t).mergeSort le = (pairs s).mergeSort le := by
    refine List.Perm.eq_of_pairwise ?_ (List.pairwise_mergeSort htrans htotal (pairs t))
      (List.pairwise_mergeSort htrans htotal (pairs s))
      (((pairs t).mergeSort_perm le).trans (hperm.trans ((pairs s).mergeSort_perm le).symm))
    intro a b ha hb hab hba
    simp only [le, decide_eq_true_eq] at hab hba
    have hkey : a.1 = b.1 := List.le_antisymm hab hba
    have ha' : a ∈ pairs s := (hmem a).mp (((pairs t).mergeSort_perm le).mem_iff.mp ha)
    have hb' : b ∈ pairs s := ((pairs s).mergeSort_perm le).mem_iff.mp hb
    have hva := mem_pairs.mp (List.mem_filter.mp ha').1
    have hvb := mem_pairs.mp (List.mem_filter.mp hb').1
    rw [hkey, hvb] at hva
    exact Prod.ext hkey (Option.some.inj hva).symm
  exact congrArg (List.take limit) hsort

def rangePairs (store : Store) (keyBegin keyEnd : Bytes) : List (Bytes × Bytes) :=
  (store.entries.map fun s => (s.1, s.2)).filter fun kv => keyBegin ≤ kv.1 ∧ kv.1 < keyEnd

lemma mem_rangePairs {store : Store} {keyBegin keyEnd : Bytes} {kv : Bytes × Bytes} :
    kv ∈ rangePairs store keyBegin keyEnd ↔ store.lookup kv.1 = some kv.2 ∧ keyBegin ≤ kv.1 ∧ kv.1 < keyEnd := by
  rw [rangePairs, List.mem_filter, mem_pairs, decide_eq_true_eq]

lemma rangePairs_keys_nodup (store : Store) (keyBegin keyEnd : Bytes) :
    ((rangePairs store keyBegin keyEnd).map Prod.fst).Nodup := by
  have hkeys : ((store.entries.map fun s => (s.1, s.2)).map Prod.fst).Nodup := by
    rw [List.map_map]
    exact store.keys_nodup
  exact hkeys.sublist (List.filter_sublist.map _)

lemma rangeRead_perm {store : Store} {keyBegin keyEnd : Bytes} {limit : ℕ}
    (h : (rangePairs store keyBegin keyEnd).length ≤ limit) :
    (rangeRead store keyBegin keyEnd limit).Perm (rangePairs store keyBegin keyEnd) := by
  have hsort := List.mergeSort_perm (rangePairs store keyBegin keyEnd) fun kv kv' => decide (kv.1 ≤ kv'.1)
  have hall : rangeRead store keyBegin keyEnd limit =
      (rangePairs store keyBegin keyEnd).mergeSort fun kv kv' => decide (kv.1 ≤ kv'.1) :=
    List.take_of_length_le (hsort.length_eq.le.trans h)
  rw [hall]
  exact hsort

end RangeRead

namespace PbMessageKVHandle

variable (H : PbMessageKVHandle)

def OrderedRange : Prop :=
  H.funRang = none ∨ H.funRang = some rangeRead

inductive TableReads (ck : Bytes) (store : Store) (f : Table) : Bytes → Prop
  | index (hempty : f.elems = []) (hidx : H.funRang = none) : TableReads ck store f (indexKey f.name ck)
  | range {k : Bytes} (hempty : f.elems = []) (hidx : H.funRang ≠ none) (hb : indexKey f.name ck ≤ k)
      (he : k < indexKey f.name ck ++ [0xff]) : TableReads ck store f k
  | element {k : Bytes} {ks : List Bytes} (hks : H.vecKeySet ck store f = some ks) (hk : k ∈ ks) :
      TableReads ck store f k

def Reads (store : Store) (m : Message) (k : Bytes) : Prop :=
  ∃ op ∈ H.tableOps [] m, H.TableReads op.1 store op.2 k

variable {H}

lemma loadTable_congr_reads (hr : H.OrderedRange) {ck : Bytes} {s t : Store} {f : Table}
    (h : ∀ k, H.TableReads ck s f k → t.lookup k = s.lookup k) : H.loadTable ck t f = H.loadTable ck s f := by
  have hget : ∀ k, H.TableReads ck s f k → t.get k = s.get k := fun k hk => by
    simp only [Store.get, h k hk]
  have hkeys : H.vecKeySet ck t f = H.vecKeySet ck s f := by
    unfold vecKeySet
    split_ifs with he hi
    · rfl
    · rw [hget _ (.index (not_not.mp he) (Option.isNone_iff_eq_none.mp hi))]
    · rfl
  have hrange : f.elems = [] → H.rangeResult ck t f = H.rangeResult ck s f := by
    intro he
    unfold rangeResult
    rcases hr with hidx | hrang
    · simp only [hidx]
    · simp only [hrang]
      exact rangeRead_congr _ fun k hb hk => h k (.range he (by simp [hrang]) hb hk)
  have hmap : ∀ ks, H.vecKeySet ck s f = some ks → ks.map t.get = ks.map s.get :=
    fun ks hks => List.map_congr_left fun k hk => hget k (.element hks hk)
  unfold loadTable
  rw [hkeys]
  by_cases he : f.elems = []
  · rw [hrange he]
    cases hv : H.vecKeySet ck s f with
    | none => rfl
    | some ks => simp only [Option.map_some, hmap ks hv]
  · cases hv : H.vecKeySet ck s f with
    | none => rfl
    | some ks => simp only [Option.map_some, hmap ks hv, if_pos he]

lemma loadFields_congr {s t : Store} (m : Message) : ∀ ck : Bytes,
    (∀ op ∈ H.tableOps ck m, H.loadTable op.1 t op.2 = H.loadTable op.1 s op.2) →
    H.loadFields t ck m = H.loadFields s ck m := by
  induction m with
  | nil => exact fun _ _ => rfl
  | cons f m ih =>
    intro ck h
    cases f with
    | key f => simp only [loadFields, ih _ h]
    | table f =>
      have hf := h (ck, f) (by simp [tableOps])
      have hm := ih ck fun op hop => h op (by simp [tableOps, hop])
      simp only [loadFields, hm]
      simp only at hf
      rw [hf]

def SameBut (p q : Bytes) (s t : Store) : Prop :=
  ∀ k, ¬ p <+: k → k ≠ q → t.lookup k = s.lookup k

lemma SameBut.refl (p q : Bytes) (s : Store) : SameBut p q s s :=
  fun _ _ _ => rfl

lemma SameBut.trans {p q : Bytes} {r s t : Store} (h : SameBut p q r s) (h' : SameBut p q s t) : SameBut p q r t :=
  fun k hp hq => (h' k hp hq).trans (h k hp hq)

lemma SameBut.sameOutside {p q : Bytes} {s t : Store} (h : SameBut p q s t) (hq : p <+: q) : SameOutside p s t := by
  intro k hk
  apply h k hk
  rintro rfl
  exact hk hq

lemma sameBut_put {p q k : Bytes} (h : p <+: k ∨ k = q) (s : Store) (v : Bytes) : SameBut p q s (s.put k v) := by
  intro k' hp hq
  apply AList.lookup_insert_ne
  rintro rfl
  exact h.elim hp hq

lemma sameBut_del {p q k : Bytes} (h : p <+: k ∨ k = q) (s : Store) : SameBut p q s (s.del k) := by
  intro k' hp hq
  apply AList.lookup_erase_ne
  rintro rfl
  exact h.elim hp hq

lemma strCommonKey_cases (f : Table) (ck : Bytes) :
    (H.funRang = none ∧ H.strCommonKey f ck = indexKey f.name ck) ∨
      (H.funRang ≠ none ∧ H.strCommonKey f ck = []) := by
  unfold strCommonKey
  cases H.funRang with
  | none => exact Or.inl ⟨rfl, rfl⟩
  | some funRang => exact Or.inr ⟨by simp, rfl⟩

/-- What the element loops keep: the keys of the set are the table's own, and neither the index
entry nor an entry of another table changed. -/
structure Within (p : Bytes) (s : Store) (keys : List Bytes) (t : Store) : Prop where
  within : ∀ k ∈ keys, p <+: k
  frame : ∀ k, (p <+: k → k = p) → t.lookup k = s.lookup k

lemma elementKey_within {f : Table} (hd : dbKeyFields H.keys f.descriptor ≠ []) (ck : Bytes) {e : Element}
    (he : e.descriptor = f.descriptor) :
    indexKey f.name ck <+: H.getMessageElementKey f.name ck e ∧
      H.getMessageElementKey f.name ck e ≠ indexKey f.name ck := by
  rw [H.getMessageElementKey_eq]
  refine ⟨List.prefix_append _ _, append_records_ne_self _ ?_⟩
  intro hnil
  have hl := H.dbKeyTexts_length e
  rw [hnil, he] at hl
  exact hd (List.length_eq_zero_iff.mp hl.symm)

lemma Within.put {p k : Bytes} {s t : Store} {keys : List Bytes} (h : Within p s keys t) (hp : p <+: k) (hk : k ≠ p)
    (v : Bytes) : Within p s keys (t.put k v) := by
  refine ⟨h.within, fun k' hk' => ?_⟩
  refine (AList.lookup_insert_ne ?_).trans (h.frame k' hk')
  rintro rfl
  exact hk (hk' hp)

lemma Within.del {p k : Bytes} {s t : Store} {keys : List Bytes} (h : Within p s keys t) (hp : p <+: k) (hk : k ≠ p) :
    Within p s (keys.erase k) (t.del k) := by
  refine ⟨fun x hx => h.within x (List.mem_of_mem_erase hx), fun k' hk' => ?_⟩
  refine (AList.lookup_erase_ne ?_).trans (h.frame k' hk')
  rintro rfl
  exact hk (hk' hp)

lemma Within.insert {p k : Bytes} {s t : Store} {keys : List Bytes} (h : Within p s keys t) (hp : p <+: k) :
    Within p s (keys.insert k) t := by
  refine ⟨fun x hx => ?_, h.frame⟩
  rcases List.mem_insert_iff.mp hx with rfl | hx
  · exact hp
  · exact h.within x hx

lemma updateElement_eq (f : Table) (ck : Bytes) (st : UpdateState) (e : Element) :
    let st' := if f.isRepeated then H.updateRepeated f ck st e else H.updateSingular f ck st e
    st'.store = st.store.put (H.getMessageElementKey f.name ck e) (H.rt.serializeAsString e) ∧
      (st'.setKeys = st.setKeys ∨ st'.setKeys = st.setKeys.insert (H.getMessageElementKey f.name ck e)) := by
  by_cases hm : H.getMessageElementKey f.name ck e ∈ st.setKeys
  · cases f.isRepeated with
    | true => cases hb : st.bSetKeysModify <;> simp [updateRepeated, getMessageRepeatedElementKey, hm, hb]
    | false => simp [updateSingular, hm]
  · cases f.isRepeated with
    | true => cases hb : st.bSetKeysModify <;> simp [updateRepeated, getMessageRepeatedElementKey, hm, hb]
    | false => simp [updateSingular, hm]

lemma updateElement_within {f : Table} (hd : dbKeyFields H.keys f.descriptor ≠ []) (ck : Bytes) {s : Store}
    {st : UpdateState} {e : Element} (he : e.descriptor = f.descriptor)
    (h : Within (indexKey f.name ck) s st.setKeys st.store) :
    let st' := if f.isRepeated then H.updateRepeated f ck st e else H.updateSingular f ck st e
    Within (indexKey f.name ck) s st'.setKeys st'.store := by
  obtain ⟨hp, hk⟩ := H.elementKey_within hd ck he
  obtain ⟨hs, hkeys⟩ := H.updateElement_eq f ck st e
  dsimp only at hs hkeys ⊢
  rw [hs]
  rcases hkeys with hkeys | hkeys
  · rw [hkeys]
    exact h.put hp hk _
  · rw [hkeys]
    exact (h.insert hp).put hp hk _

lemma updateLoop_within {f : Table} (hd : dbKeyFields H.keys f.descriptor ≠ []) (ck : Bytes) {s : Store}
    (elems : List Element) (htyped : ∀ e ∈ elems, e.descriptor = f.descriptor) (st : UpdateState)
    (h : Within (indexKey f.name ck) s st.setKeys st.store) :
    let st' := elems.foldl (if f.isRepeated then H.updateRepeated f ck else H.updateSingular f ck) st
    Within (indexKey f.name ck) s st'.setKeys st'.store := by
  induction elems generalizing st with
  | nil => exact h
  | cons e elems ih =>
    have hone := H.updateElement_within hd ck (htyped e (by simp)) h
    refine ih (fun x hx => htyped x (by simp [hx])) _ ?_
    cases hrep : f.isRepeated with
    | true => simpa only [hrep, if_true] using hone
    | false => simpa only [hrep, Bool.false_eq_true, if_false] using hone

lemma deleteLoop_within {f : Table} (hd : dbKeyFields H.keys f.descriptor ≠ []) (ck : Bytes) {s : Store}
    (elems : List Element) (htyped : ∀ e ∈ elems, e.descriptor = f.descriptor) (st : Store × List Bytes)
    (h : Within (indexKey f.name ck) s st.2 st.1) :
    Within (indexKey f.name ck) s (elems.foldl (H.deleteElement f ck) st).2
      (elems.foldl (H.deleteElement f ck) st).1 := by
  induction elems generalizing st with
  | nil => exact h
  | cons e elems ih =>
    refine ih (fun x hx => htyped x (by simp [hx])) _ ?_
    obtain ⟨hp, hk⟩ := H.elementKey_within hd ck (htyped e (by simp))
    have hkey : H.elementKey f ck e = H.getMessageElementKey f.name ck e := by
      rw [H.elementKey_eq, H.getMessageElementKey_eq]
    simp only [deleteElement, hkey]
    exact h.del hp hk

lemma updateLoop_sameBut (f : Table) (ck q : Bytes) (elems : List Element) (st : UpdateState) :
    SameBut (indexKey f.name ck) q st.store
      (elems.foldl (if f.isRepeated then H.updateRepeated f ck else H.updateSingular f ck) st).store := by
  induction elems generalizing st with
  | nil => exact SameBut.refl _ _ _
  | cons e elems ih =>
    have hs := (H.updateElement_eq f ck st e).1
    have hp : indexKey f.name ck <+: H.getMessageElementKey f.name ck e := by
      rw [H.getMessageElementKey_eq]
      exact List.prefix_append _ _
    rw [List.foldl_cons]
    refine SameBut.trans ?_ (ih _)
    cases hrep : f.isRepeated with
    | true =>
      simp only [hrep, if_true] at hs ⊢
      rw [hs]
      exact sameBut_put (Or.inl hp) _ _
    | false =>
      simp only [hrep, Bool.false_eq_true, if_false] at hs ⊢
      rw [hs]
      exact sameBut_put (Or.inl hp) _ _

lemma updateTable_sameBut {ck : Bytes} {store store' : Store} {f : Table} (h : H.updateTable ck store f = some store') :
    SameBut (indexKey f.name ck) (H.strCommonKey f ck) store store' := by
  by_cases hempty : f.elems = []
  · rw [updateTable, if_pos hempty] at h
    cases h
    exact SameBut.refl _ _ _
  · rw [updateTable, if_neg hempty] at h
    obtain ⟨setKeys, _, rfl⟩ := Option.map_eq_some_iff.mp h
    have hloop := H.updateLoop_sameBut f ck (H.strCommonKey f ck) f.elems ⟨store, setKeys, false⟩
    dsimp only at hloop ⊢
    generalize f.elems.foldl (if f.isRepeated then H.updateRepeated f ck else H.updateSingular f ck)
      ⟨store, setKeys, false⟩ = st at hloop ⊢
    split
    · exact hloop.trans (sameBut_put (Or.inr rfl) _ _)
    · exact hloop

lemma deleteLoop_sameBut (f : Table) (ck q : Bytes) (elems : List Element) (st : Store × List Bytes) :
    SameBut (indexKey f.name ck) q st.1 (elems.foldl (H.deleteElement f ck) st).1 := by
  induction elems generalizing st with
  | nil => exact SameBut.refl _ _ _
  | cons e elems ih =>
    have hp : indexKey f.name ck <+: H.elementKey f ck e := by
      rw [H.elementKey_eq]
      exact List.prefix_append _ _
    exact SameBut.trans (sameBut_del (Or.inl hp) _) (ih _)

lemma deleteTable_sameBut {ck : Bytes} {store store' : Store} {f : Table} (h : H.deleteTable ck store f = some store') :
    SameBut (indexKey f.name ck) (H.strCommonKey f ck) store store' := by
  by_cases hempty : f.elems = []
  · rw [deleteTable, if_pos hempty] at h
    cases h
    exact SameBut.refl _ _ _
  · rw [deleteTable, if_neg hempty] at h
    obtain ⟨setKeys, _, rfl⟩ := Option.map_eq_some_iff.mp h
    have hloop := H.deleteLoop_sameBut f ck (H.strCommonKey f ck) f.elems (store, setKeys)
    dsimp only at hloop ⊢
    split
    · exact hloop.trans (sameBut_del (Or.inr rfl) _)
    · exact hloop.trans (sameBut_put (Or.inr rfl) _ _)

def ListsWithin (H : PbMessageKVHandle) (store : Store) (p : Bytes) : Prop :=
  ∃ keys : List Bytes, (∀ k ∈ keys, p <+: k) ∧ store.get p = packetList H.native keys

lemma ListsWithin.of_paserList {store : Store} {p : Bytes} (h : ListsWithin H store p)
    {keys : List Bytes} (hk : paserList H.native (store.get p) = some keys) : ∀ k ∈ keys, p <+: k := by
  obtain ⟨listed, hw, hget⟩ := h
  rw [hget] at hk
  exact fun k hm => hw k (mem_of_paserList hk k hm)

lemma ListsWithin.of_paserSet {store : Store} {p : Bytes} (h : ListsWithin H store p)
    {keys : List Bytes} (hk : paserSet H.native (store.get p) = some keys) : Within p store keys store := by
  obtain ⟨listed, hw, hget⟩ := h
  rw [hget] at hk
  exact ⟨fun k hm => hw k (mem_of_paserSet hk k hm), fun _ _ => rfl⟩

lemma ListsWithin.of_packed {p : Bytes} {s t : Store} {keys : List Bytes} (h : Within p s keys t) :
    ListsWithin H (t.put p (packetList H.native (H.order keys))) p :=
  ⟨H.order keys, fun k hk => h.within k ((H.order_perm keys).mem_iff.mp hk), Store.get_put_self _ _ _⟩

lemma ListsWithin.of_lookup {p : Bytes} {s t : Store} (h : ListsWithin H s p) (hl : t.lookup p = s.lookup p) :
    ListsWithin H t p := by
  simpa only [ListsWithin, Store.get, hl] using h

lemma listsWithin_of_none {p : Bytes} {s : Store} (hl : s.lookup p = none) : ListsWithin H s p := by
  refine ⟨[], by simp, ?_⟩
  simp only [Store.get, hl]
  rfl

section Index

variable (hidx : H.funRang = none)
include hidx

lemma readSetKeys_index (f : Table) (ck : Bytes) (store : Store) :
    H.readSetKeys f ck store = TonyCat.Database.paserSet H.native (store.get (indexKey f.name ck)) := by
  simp only [readSetKeys, strCommonKey, hidx, Option.isNone_none, if_true]

lemma updateTable_lists {ck : Bytes} {store store' : Store} {f : Table} (hd : dbKeyFields H.keys f.descriptor ≠ [])
    (h : ListsWithin H store (indexKey f.name ck)) (hs : H.updateTable ck store f = some store') :
    ListsWithin H store' (indexKey f.name ck) := by
  by_cases hempty : f.elems = []
  · rw [updateTable, if_pos hempty] at hs
    cases hs
    exact h
  · rw [updateTable, if_neg hempty, readSetKeys_index hidx] at hs
    obtain ⟨keys, hk, rfl⟩ := Option.map_eq_some_iff.mp hs
    have hw := h.of_paserSet hk
    have hloop := H.updateLoop_within hd ck f.elems f.typed ⟨store, keys, false⟩ hw
    have hkey : H.strCommonKey f ck = indexKey f.name ck := by simp [strCommonKey, hidx]
    dsimp only at hloop ⊢
    generalize f.elems.foldl (if f.isRepeated then H.updateRepeated f ck else H.updateSingular f ck)
      ⟨store, keys, false⟩ = st at hloop ⊢
    split
    · rw [hkey]
      exact .of_packed hloop
    · exact h.of_lookup (hloop.frame _ fun _ => rfl)

lemma deleteTable_lists {ck : Bytes} {store store' : Store} {f : Table} (hd : dbKeyFields H.keys f.descriptor ≠ [])
    (h : ListsWithin H store (indexKey f.name ck)) (hs : H.deleteTable ck store f = some store') :
    ListsWithin H store' (indexKey f.name ck) := by
  by_cases hempty : f.elems = []
  · rw [deleteTable, if_pos hempty] at hs
    cases hs
    exact h
  · rw [deleteTable, if_neg hempty, readSetKeys_index hidx] at hs
    obtain ⟨keys, hk, rfl⟩ := Option.map_eq_some_iff.mp hs
    have hw := h.of_paserSet hk
    have hloop := H.deleteLoop_within hd ck f.elems f.typed (store, keys) hw
    have hkey : H.strCommonKey f ck = indexKey f.name ck := by simp [strCommonKey, hidx]
    dsimp only at hloop ⊢
    rw [hkey]
    split
    · exact listsWithin_of_none (AList.lookup_erase _ _)
    · exact .of_packed hloop

end Index

end PbMessageKVHandle

end TonyCat.Database
