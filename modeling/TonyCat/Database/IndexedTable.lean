import TonyCat.Database.KeySpace
import Mathlib.Data.List.Find

set_option autoImplicit false

/-! One table of one user in index mode: what an update, a delete and a load do to its entries. -/

namespace TonyCat.Database

open TonyCat.Library

/-- What a table is for: by the texts of its key fields, the element last written. -/
abbrev Rows := List Bytes → Option Element

namespace PbMessageKVHandle

variable (H : PbMessageKVHandle)

def writeRow (rows : Rows) (pMsg : Element) : Rows :=
  Function.update rows (H.dbKeyTexts pMsg) (some pMsg)

def eraseRow (rows : Rows) (pMsg : Element) : Rows :=
  Function.update rows (H.dbKeyTexts pMsg) none

def rowKey (p : Bytes) (ks : List Bytes) : Bytes :=
  p ++ records H.native ks

def putElement (p : Bytes) (store : Store) (pMsg : Element) : Store :=
  store.put (H.rowKey p (H.dbKeyTexts pMsg)) (H.rt.serializeAsString pMsg)

def delElement (p : Bytes) (store : Store) (pMsg : Element) : Store :=
  store.del (H.rowKey p (H.dbKeyTexts pMsg))

lemma foldl_updateRepeated_store (f : Table) (ck : Bytes) (elems : List Element) (st : UpdateState) :
    (elems.foldl (H.updateRepeated f ck) st).store =
      elems.foldl (H.putElement (indexKey f.name ck)) st.store := by
  induction elems generalizing st with
  | nil => rfl
  | cons e elems ih =>
    rw [List.foldl_cons, List.foldl_cons, ih]
    congr 1
    simp only [updateRepeated, getMessageRepeatedElementKey, getMessageElementKey_eq, putElement, rowKey]
    split_ifs <;> rfl

lemma foldl_updateRepeated_modified (f : Table) (ck : Bytes) (elems : List Element) (st : UpdateState)
    (h : st.bSetKeysModify = true) :
    (elems.foldl (H.updateRepeated f ck) st).setKeys = st.setKeys ∧
      (elems.foldl (H.updateRepeated f ck) st).bSetKeysModify = true := by
  induction elems generalizing st with
  | nil => exact ⟨rfl, h⟩
  | cons e elems ih =>
    have hs : (H.updateRepeated f ck st e).setKeys = st.setKeys := by simp [updateRepeated, h]
    have hm : (H.updateRepeated f ck st e).bSetKeysModify = true := by simp [updateRepeated, h]
    rw [List.foldl_cons, ← hs]
    exact ih _ hm

/-- Once a key was added the flag hides every further key: only the first new key is recorded. -/
lemma foldl_updateRepeated_setKeys (f : Table) (ck : Bytes) (elems : List Element) (st : UpdateState)
    (h : st.bSetKeysModify = false) :
    match (elems.map (H.rowKey (indexKey f.name ck) ∘ H.dbKeyTexts)).find? (· ∉ st.setKeys) with
    | none => (elems.foldl (H.updateRepeated f ck) st).setKeys = st.setKeys ∧
        (elems.foldl (H.updateRepeated f ck) st).bSetKeysModify = false
    | some k => (elems.foldl (H.updateRepeated f ck) st).setKeys = st.setKeys.insert k ∧
        (elems.foldl (H.updateRepeated f ck) st).bSetKeysModify = true := by
  induction elems generalizing st with
  | nil => exact ⟨rfl, h⟩
  | cons e elems ih =>
    have hk : H.getMessageRepeatedElementKey f.name ck e = H.rowKey (indexKey f.name ck) (H.dbKeyTexts e) :=
      H.getMessageElementKey_eq f.name ck e
    by_cases hm : H.rowKey (indexKey f.name ck) (H.dbKeyTexts e) ∈ st.setKeys
    · have hs : (H.updateRepeated f ck st e).setKeys = st.setKeys := by simp [updateRepeated, h, hk, hm]
      have hb : (H.updateRepeated f ck st e).bSetKeysModify = false := by simp [updateRepeated, h, hk, hm]
      have hh := ih (H.updateRepeated f ck st e) hb
      rw [hs] at hh
      simpa [hm] using hh
    · have hs : (H.updateRepeated f ck st e).setKeys =
          st.setKeys.insert (H.rowKey (indexKey f.name ck) (H.dbKeyTexts e)) := by
        simp [updateRepeated, h, hk, hm]
      have hb : (H.updateRepeated f ck st e).bSetKeysModify = true := by simp [updateRepeated, h, hk, hm]
      have hh := H.foldl_updateRepeated_modified f ck elems _ hb
      rw [hs] at hh
      simpa [hm] using hh

lemma foldl_deleteElement (f : Table) (ck : Bytes) (elems : List Element) (st : Store × List Bytes) :
    elems.foldl (H.deleteElement f ck) st =
      (elems.foldl (H.delElement (indexKey f.name ck)) st.1,
        (elems.map (H.rowKey (indexKey f.name ck) ∘ H.dbKeyTexts)).foldl List.erase st.2) := by
  induction elems generalizing st with
  | nil => rfl
  | cons e elems ih =>
    rw [List.foldl_cons, ih]
    simp only [deleteElement, elementKey_eq]
    rfl

section Index

variable {H} (hidx : H.funRang = none)
include hidx

lemma updateTable_repeated (ck : Bytes) (store : Store) (f : Table) (hrep : f.isRepeated = true)
    (hne : f.elems ≠ []) :
    H.updateTable ck store f = (paserSet H.native (store.get (indexKey f.name ck))).map fun setKeys =>
      match (f.elems.map (H.rowKey (indexKey f.name ck) ∘ H.dbKeyTexts)).find? (· ∉ setKeys) with
      | none => f.elems.foldl (H.putElement (indexKey f.name ck)) store
      | some k => (f.elems.foldl (H.putElement (indexKey f.name ck)) store).put (indexKey f.name ck)
          (packetList H.native (H.order (setKeys.insert k))) := by
  simp only [updateTable, readSetKeys, strCommonKey, hidx, Option.isNone_none, if_true, hrep, if_neg hne]
  congr 1
  funext setKeys
  have hh := H.foldl_updateRepeated_setKeys f ck f.elems ⟨store, setKeys, false⟩ rfl
  have hs := H.foldl_updateRepeated_store f ck f.elems ⟨store, setKeys, false⟩
  cases hf : (f.elems.map (H.rowKey (indexKey f.name ck) ∘ H.dbKeyTexts)).find? (· ∉ setKeys) with
  | none =>
    rw [hf] at hh
    rw [if_neg (by simp [hh.2]), hs]
  | some k =>
    rw [hf] at hh
    rw [if_pos hh.2, hs, hh.1]

lemma deleteTable_eq (ck : Bytes) (store : Store) (f : Table) (hne : f.elems ≠ []) :
    H.deleteTable ck store f = (paserSet H.native (store.get (indexKey f.name ck))).map fun setKeys =>
      let left := (f.elems.map (H.rowKey (indexKey f.name ck) ∘ H.dbKeyTexts)).foldl List.erase setKeys
      let st := f.elems.foldl (H.delElement (indexKey f.name ck)) store
      if left = [] then st.del (indexKey f.name ck)
      else st.put (indexKey f.name ck) (packetList H.native (H.order left)) := by
  simp only [deleteTable, readSetKeys, strCommonKey, hidx, Option.isNone_none, if_true, if_neg hne,
    foldl_deleteElement]

lemma loadTable_empty (ck : Bytes) (store : Store) (f : Table) (he : f.elems = []) :
    H.loadTable ck store f = (paserList H.native (store.get (indexKey f.name ck))).map fun vecKeySet =>
      (vecKeySet.map store.get).foldl H.addParsed f := by
  simp [loadTable, vecKeySet, rangeResult, he, hidx]

end Index

def IndexLists (store : Store) (p : Bytes) (kss : List (List Bytes)) : Prop :=
  store.get p = packetList H.native (kss.map (H.rowKey p))

structure Entries (store : Store) (p : Bytes) (d : Descriptor) (rows : Rows) : Prop where
  texts : ∀ ks e, rows ks = some e → H.dbKeyTexts e = ks
  short : ∀ ks e, rows ks = some e → Short ks
  descriptor : ∀ ks e, rows ks = some e → e.descriptor = d
  entry : ∀ ks e, rows ks = some e → store.lookup (H.rowKey p ks) = some (H.rt.serializeAsString e)

structure Listed (store : Store) (p : Bytes) (d : Descriptor) (rows : Rows) (kss : List (List Bytes)) :
    Prop extends Entries H store p d rows where
  nodup : kss.Nodup
  live : ∀ ks ∈ kss, (rows ks).isSome = true
  index : H.IndexLists store p kss

def SameOutside (p : Bytes) (s t : Store) : Prop :=
  ∀ k, ¬ p <+: k → t.lookup k = s.lookup k

lemma rowKey_prefix (p : Bytes) (ks : List Bytes) : p <+: H.rowKey p ks :=
  List.prefix_append _ _

variable {H}

lemma Entries.length {store : Store} {p : Bytes} {d : Descriptor} {rows : Rows}
    (h : Entries H store p d rows) {ks : List Bytes} {e : Element} (hr : rows ks = some e) :
    ks.length = (dbKeyFields H.keys d).length := by
  rw [← h.texts ks e hr, H.dbKeyTexts_length, h.descriptor ks e hr]

structure Keyed (H : PbMessageKVHandle) (d : Descriptor) (e : Element) : Prop where
  descriptor : e.descriptor = d
  short : Short (H.dbKeyTexts e)

lemma Keyed.length {d : Descriptor} {e : Element} (h : Keyed H d e) :
    (H.dbKeyTexts e).length = (dbKeyFields H.keys d).length := by
  rw [H.dbKeyTexts_length, h.descriptor]

structure RowShape (H : PbMessageKVHandle) (d : Descriptor) (ks : List Bytes) : Prop where
  short : Short ks
  length : ks.length = (dbKeyFields H.keys d).length

lemma Keyed.shape {d : Descriptor} {e : Element} (h : Keyed H d e) : RowShape H d (H.dbKeyTexts e) :=
  ⟨h.short, h.length⟩

lemma Entries.shape {store : Store} {p : Bytes} {d : Descriptor} {rows : Rows}
    (h : Entries H store p d rows) {ks : List Bytes} {e : Element} (hr : rows ks = some e) :
    RowShape H d ks :=
  ⟨h.short ks e hr, h.length hr⟩

lemma RowShape.rowKey_inj {d : Descriptor} {p : Bytes} {ks ls : List Bytes} (hk : RowShape H d ks)
    (hl : RowShape H d ls) (h : H.rowKey p ks = H.rowKey p ls) : ks = ls :=
  append_records_inj hk.short hl.short (hk.length.trans hl.length.symm) h

lemma RowShape.rowKey_ne {d : Descriptor} (hd : dbKeyFields H.keys d ≠ []) (p : Bytes)
    {ks : List Bytes} (hk : RowShape H d ks) : H.rowKey p ks ≠ p := by
  apply append_records_ne_self
  intro h
  have hl := hk.length
  rw [h] at hl
  exact hd (List.length_eq_zero_iff.mp hl.symm)

lemma Entries.put {store : Store} {p : Bytes} {d : Descriptor} {rows : Rows}
    (h : Entries H store p d rows) {e : Element} (he : Keyed H d e) :
    Entries H (H.putElement p store e) p d (H.writeRow rows e) := by
  have hcase : ∀ ks x, H.writeRow rows e ks = some x →
      (ks = H.dbKeyTexts e ∧ x = e) ∨ (ks ≠ H.dbKeyTexts e ∧ rows ks = some x) := by
    intro ks x hx
    by_cases hk : ks = H.dbKeyTexts e
    · subst hk
      exact Or.inl ⟨rfl, by simpa [writeRow] using hx.symm⟩
    · exact Or.inr ⟨hk, by simpa [writeRow, hk] using hx⟩
  constructor
  · intro ks x hx
    rcases hcase ks x hx with ⟨rfl, rfl⟩ | ⟨_, hr⟩
    · rfl
    · exact h.texts ks x hr
  · intro ks x hx
    rcases hcase ks x hx with ⟨rfl, rfl⟩ | ⟨_, hr⟩
    · exact he.short
    · exact h.short ks x hr
  · intro ks x hx
    rcases hcase ks x hx with ⟨rfl, rfl⟩ | ⟨_, hr⟩
    · exact he.descriptor
    · exact h.descriptor ks x hr
  · intro ks x hx
    rcases hcase ks x hx with ⟨rfl, rfl⟩ | ⟨hk, hr⟩
    · exact AList.lookup_insert _
    · have hne : H.rowKey p ks ≠ H.rowKey p (H.dbKeyTexts e) :=
        fun hh => hk ((h.shape hr).rowKey_inj he.shape hh)
      exact (AList.lookup_insert_ne hne).trans (h.entry ks x hr)

lemma Entries.del {store : Store} {p : Bytes} {d : Descriptor} {rows : Rows}
    (h : Entries H store p d rows) {e : Element} (he : Keyed H d e) :
    Entries H (H.delElement p store e) p d (H.eraseRow rows e) := by
  have hcase : ∀ ks x, H.eraseRow rows e ks = some x → ks ≠ H.dbKeyTexts e ∧ rows ks = some x := by
    intro ks x hx
    by_cases hk : ks = H.dbKeyTexts e
    · simp [eraseRow, hk] at hx
    · exact ⟨hk, by simpa [eraseRow, hk] using hx⟩
  refine ⟨fun ks x hx => h.texts ks x (hcase ks x hx).2, fun ks x hx => h.short ks x (hcase ks x hx).2,
    fun ks x hx => h.descriptor ks x (hcase ks x hx).2, ?_⟩
  intro ks x hx
  obtain ⟨hk, hr⟩ := hcase ks x hx
  have hne : H.rowKey p ks ≠ H.rowKey p (H.dbKeyTexts e) :=
    fun hh => hk ((h.shape hr).rowKey_inj he.shape hh)
  exact (AList.lookup_erase_ne hne).trans (h.entry ks x hr)

lemma Entries.of_same {s t : Store} {p : Bytes} {d : Descriptor} {rows : Rows}
    (h : Entries H s p d rows) (hs : ∀ ks, RowShape H d ks → t.lookup (H.rowKey p ks) = s.lookup (H.rowKey p ks)) :
    Entries H t p d rows :=
  ⟨h.texts, h.short, h.descriptor, fun ks e hr => (hs ks (h.shape hr)).trans (h.entry ks e hr)⟩

lemma Listed.shape {store : Store} {p : Bytes} {d : Descriptor} {rows : Rows}
    {kss : List (List Bytes)} (h : Listed H store p d rows kss) : ∀ ks ∈ kss, RowShape H d ks := by
  intro ks hk
  obtain ⟨e, hr⟩ := Option.isSome_iff_exists.mp (h.live ks hk)
  exact h.toEntries.shape hr

lemma Listed.of_sameOutside {s t : Store} {p q : Bytes} {d : Descriptor} {rows : Rows}
    {kss : List (List Bytes)} (h : Listed H s p d rows kss) (hs : SameOutside q s t) (ha : Apart p q) :
    Listed H t p d rows kss := by
  refine ⟨h.toEntries.of_same fun ks _ => hs _ (ha.not_initial (H.rowKey_prefix p ks)), h.nodup, h.live, ?_⟩
  have hp : t.lookup p = s.lookup p := hs p (ha.not_initial List.prefix_rfl)
  simpa only [IndexLists, Store.get, hp] using h.index

end PbMessageKVHandle

end TonyCat.Database
