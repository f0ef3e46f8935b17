import TonyCat.Database.KVHandle

set_option autoImplicit false

/-! The keys the layer writes: a table of one user owns every key that starts with its index key,
and its elements' keys are told apart by their key values. -/

namespace TonyCat.Database

open TonyCat.Library

namespace PbMessageKVHandle

variable (H : PbMessageKVHandle)

def dbKeyTexts (pMsg : Element) : List Bytes :=
  (pMsg.fieldValues.filter fun fv => isDBKey H.keys pMsg.descriptor fv.1).map
    fun fv => H.fieldText pMsg fv.2

lemma foldl_elementKey (p : FieldDescriptor → Bool) (text : Value → Bytes)
    (fvs : List (FieldDescriptor × Value)) (acc : Bytes) :
    fvs.foldl (fun k fv => if p fv.1 then appendRawData H.native k (text fv.2) else k) acc =
      acc ++ records H.native ((fvs.filter fun fv => p fv.1).map fun fv => text fv.2) := by
  induction fvs generalizing acc with
  | nil => simp
  | cons fv fvs ih =>
    rw [List.foldl_cons, ih]
    by_cases h : p fv.1 = true
    · simp [h, appendRawData_eq]
    · simp [h]

lemma getMessageElementKey_eq (strTabName strCommonKeyList : Bytes) (pMsg : Element) :
    H.getMessageElementKey strTabName strCommonKeyList pMsg =
      indexKey strTabName strCommonKeyList ++ records H.native (H.dbKeyTexts pMsg) :=
  H.foldl_elementKey _ _ _ _

lemma elementKey_eq (f : Table) (strCommonKeyList : Bytes) (pMsg : Element) :
    H.elementKey f strCommonKeyList pMsg =
      indexKey f.name strCommonKeyList ++ records H.native (H.dbKeyTexts pMsg) := by
  unfold elementKey getMessageRepeatedElementKey
  split <;> exact H.getMessageElementKey_eq _ _ _

lemma dbKeyTexts_length (pMsg : Element) :
    (H.dbKeyTexts pMsg).length = (dbKeyFields H.keys pMsg.descriptor).length := by
  have hl : pMsg.values.length = pMsg.descriptor.fields.length := by
    simpa using congrArg List.length pMsg.typed
  have hf : pMsg.fieldValues.map Prod.fst = pMsg.descriptor.fields :=
    List.map_fst_zip (by omega)
  rw [dbKeyTexts, List.length_map, dbKeyFields]
  conv_rhs => rw [← hf, List.filter_map, List.length_map]
  rfl

end PbMessageKVHandle

def Apart (p q : Bytes) : Prop :=
  ∀ a b, p ++ a ≠ q ++ b

lemma Apart.symm {p q : Bytes} (h : Apart p q) : Apart q p :=
  fun a b hab => h b a hab.symm

lemma Apart.not_initial {p q k : Bytes} (h : Apart p q) (hp : p <+: k) : ¬ q <+: k := by
  rintro ⟨b, hb⟩
  obtain ⟨a, ha⟩ := hp
  exact h a b (ha.trans hb.symm)

lemma indexKey_eq (strTabName strCommonKeyList : Bytes) :
    indexKey strTabName strCommonKeyList = strTabName ++ 35 :: strCommonKeyList := by
  simp [indexKey, strTableSpacer, ascii]

lemma indexKey_ne_nil (strTabName strCommonKeyList : Bytes) :
    indexKey strTabName strCommonKeyList ≠ [] := by
  simp [indexKey_eq]

lemma indexKey_append_inj {t t' ck ck' a b : Bytes} (ht : (35 : UInt8) ∉ t) (ht' : (35 : UInt8) ∉ t')
    (h : indexKey t ck ++ a = indexKey t' ck' ++ b) : t = t' ∧ ck ++ a = ck' ++ b := by
  simp only [indexKey_eq, List.append_assoc, List.cons_append] at h
  exact delimited_inj ht ht' h

lemma apart_of_table {t t' ck ck' : Bytes} (ht : (35 : UInt8) ∉ t) (ht' : (35 : UInt8) ∉ t')
    (hne : t ≠ t') : Apart (indexKey t ck) (indexKey t' ck') :=
  fun _ _ h => hne (indexKey_append_inj ht ht' h).1

lemma apart_of_user {native : Endian} {t u v : Bytes} (ht : (35 : UInt8) ∉ t)
    (hu : u.length < 2 ^ 32) (hv : v.length < 2 ^ 32) (hne : u ≠ v) :
    Apart (indexKey t (record native u)) (indexKey t (record native v)) :=
  fun _ _ h => hne (record_append_inj native hu hv (indexKey_append_inj ht ht h).2).1

lemma append_records_ne_self {native : Endian} (p : Bytes) {ks : List Bytes} (h : ks ≠ []) :
    p ++ records native ks ≠ p := by
  intro he
  exact h (records_eq_nil native (List.append_right_eq_self.mp he))

lemma append_records_inj {native : Endian} {p : Bytes} {ks ls : List Bytes} (hk : Short ks)
    (hl : Short ls) (hlen : ks.length = ls.length)
    (h : p ++ records native ks = p ++ records native ls) : ks = ls :=
  (records_append_inj native (a := []) (b := []) hk hl hlen (by simpa using List.append_cancel_left h)).1

end TonyCat.Database
