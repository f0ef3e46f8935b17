import TonyCat.Database.KVHandle
import TonyCat.Library.StorageProgram

set_option autoImplicit false

/-! The calls of `funGet`, `funPut` and `funDel` that `MessageUpdateOnKV` and `MessageDeleteOnKV` make, in their
order. What the calls return is not looked at; only what `funGet` left in the string goes on. -/

namespace TonyCat.Database

open TonyCat.Library

/-- A `funGet` that fails leaves the string empty, as one that finds nothing. -/
def Store.storage : Storage Store Bytes Bytes := ⟨Store.get, Store.put, Store.del, []⟩

namespace PbMessageKVHandle

variable (H : PbMessageKVHandle)

def readSetKeysCalls (f : Table) (strCommonKeyList : Bytes) : Program Bytes Bytes (Option (List Bytes)) :=
  if H.funRang.isNone then
    .op (.get (H.strCommonKey f strCommonKeyList)) fun strCommonKeyResult =>
      .done (paserSet H.native strCommonKeyResult)
  else .done (some [])

lemma lawfulBEq_bytes : LawfulBEq Bytes := inferInstance

attribute [local instance] lawfulBEq_bytes

/-- `setKeys` and `bSetKeysModify` after the key of an element; the repeated branch stops at its first new key. -/
def noteKey (f : Table) (strElementKey : Bytes) (keys : List Bytes × Bool) : List Bytes × Bool :=
  if f.isRepeated ∧ keys.2 = true then keys
  else if strElementKey ∈ keys.1 then keys
  else (keys.1.insert strElementKey, true)

def updateElementsCalls (f : Table) (strCommonKeyList : Bytes) :
    List Element → List Bytes × Bool → Program Bytes Bytes (List Bytes × Bool)
  | [], keys => .done keys
  | pMsg :: elems, keys =>
    let strElementKey := H.elementKey f strCommonKeyList pMsg
    .op (.put strElementKey (H.rt.serializeAsString pMsg)) fun _ =>
      updateElementsCalls f strCommonKeyList elems (noteKey f strElementKey keys)

def updateTableCalls (strCommonKeyList : Bytes) (f : Table) : Program Bytes Bytes (Option Unit) :=
  if f.elems = [] then .done (some ())
  else
    (H.readSetKeysCalls f strCommonKeyList).bind fun setKeys => match setKeys with
      | none => .done none
      | some setKeys =>
        (H.updateElementsCalls f strCommonKeyList f.elems (setKeys, false)).bind fun keys =>
          if keys.2 then
            .op (.put (H.strCommonKey f strCommonKeyList) (packetList H.native (H.order keys.1))) fun _ =>
              .done (some ())
          else .done (some ())

def deleteElementsCalls (f : Table) (strCommonKeyList : Bytes) :
    List Element → List Bytes → Program Bytes Bytes (List Bytes)
  | [], setKeys => .done setKeys
  | pMsg :: elems, setKeys =>
    let strElementKey := H.elementKey f strCommonKeyList pMsg
    .op (.del strElementKey) fun _ => deleteElementsCalls f strCommonKeyList elems (setKeys.erase strElementKey)

def deleteTableCalls (strCommonKeyList : Bytes) (f : Table) : Program Bytes Bytes (Option Unit) :=
  if f.elems = [] then .done (some ())
  else
    (H.readSetKeysCalls f strCommonKeyList).bind fun setKeys => match setKeys with
      | none => .done none
      | some setKeys =>
        (H.deleteElementsCalls f strCommonKeyList f.elems setKeys).bind fun setKeys =>
          if setKeys = [] then .op (.del (H.strCommonKey f strCommonKeyList)) fun _ => .done (some ())
          else
            .op (.put (H.strCommonKey f strCommonKeyList) (packetList H.native (H.order setKeys))) fun _ =>
              .done (some ())

/-- The loop over the fields, in which every key is appended to `strCommonKeyList`. -/
def fieldsCalls (tableCalls : Bytes → Table → Program Bytes Bytes (Option Unit)) :
    Bytes → Message → Program Bytes Bytes (Option Unit)
  | _, [] => .done (some ())
  | strCommonKeyList, .key f :: fields =>
    fieldsCalls tableCalls (appendRawData H.native strCommonKeyList (H.keyText f)) fields
  | strCommonKeyList, .table f :: fields =>
    (tableCalls strCommonKeyList f).andThen (fieldsCalls tableCalls strCommonKeyList fields)

def messageUpdateCalls (message : Message) : Program Bytes Bytes (Option Unit) :=
  H.fieldsCalls H.updateTableCalls [] message

def messageDeleteCalls (message : Message) : Program Bytes Bytes (Option Unit) :=
  H.fieldsCalls H.deleteTableCalls [] message

lemma readSetKeysCalls_runs (f : Table) (strCommonKeyList : Bytes) (store : Store) :
    ((H.readSetKeysCalls f strCommonKeyList).runs Store.storage store).value =
        H.readSetKeys f strCommonKeyList store ∧
      ((H.readSetKeysCalls f strCommonKeyList).runs Store.storage store).store = store := by
  rw [readSetKeysCalls, readSetKeys]
  by_cases hmode : H.funRang.isNone
  · rw [if_pos hmode, if_pos hmode, Program.runs_op]
    exact ⟨rfl, rfl⟩
  · rw [if_neg hmode, if_neg hmode]
    exact ⟨rfl, rfl⟩

lemma update_noteKey (f : Table) (strCommonKeyList : Bytes) (st : UpdateState) (pMsg : Element) :
    (if f.isRepeated then H.updateRepeated f strCommonKeyList else H.updateSingular f strCommonKeyList) st pMsg =
      let strElementKey := H.elementKey f strCommonKeyList pMsg
      let keys := noteKey f strElementKey (st.setKeys, st.bSetKeysModify)
      ⟨st.store.put strElementKey (H.rt.serializeAsString pMsg), keys.1, keys.2⟩ := by
  obtain ⟨store, setKeys, bSetKeysModify⟩ := st
  by_cases hrep : f.isRepeated
  · simp only [hrep, if_true, updateRepeated, elementKey, noteKey, true_and]
    cases bSetKeysModify
    · by_cases hkey : H.getMessageRepeatedElementKey f.name strCommonKeyList pMsg ∈ setKeys
      · simp [hkey]
      · simp [hkey]
    · simp
  · simp only [hrep, Bool.false_eq_true, if_false, updateSingular, elementKey, noteKey, false_and]
    by_cases hkey : H.getMessageElementKey f.name strCommonKeyList pMsg ∈ setKeys
    · simp [hkey]
    · simp [hkey]

lemma updateElementsCalls_runs (f : Table) (strCommonKeyList : Bytes) (elems : List Element)
    (keys : List Bytes × Bool) (store : Store) :
    let st := elems.foldl
      (if f.isRepeated then H.updateRepeated f strCommonKeyList else H.updateSingular f strCommonKeyList)
      ⟨store, keys.1, keys.2⟩
    let o := (H.updateElementsCalls f strCommonKeyList elems keys).runs Store.storage store
    o.value = (st.setKeys, st.bSetKeysModify) ∧ o.store = st.store := by
  induction elems generalizing keys store with
  | nil => exact ⟨rfl, rfl⟩
  | cons pMsg elems ih =>
    rw [List.foldl_cons, update_noteKey, updateElementsCalls, Program.runs_op]
    exact ih _ _

lemma updateTableCalls_leaves (strCommonKeyList : Bytes) (f : Table) (store : Store) :
    (H.updateTableCalls strCommonKeyList f).leaves Store.storage store = H.updateTable strCommonKeyList store f := by
  rw [updateTableCalls, updateTable]
  by_cases hunset : f.elems = []
  · rw [if_pos hunset, if_pos hunset]
    rfl
  · obtain ⟨hread, hstore⟩ := H.readSetKeysCalls_runs f strCommonKeyList store
    rw [if_neg hunset, if_neg hunset, Program.leaves_bind, hread, hstore]
    cases H.readSetKeys f strCommonKeyList store with
    | none => rfl
    | some setKeys =>
      obtain ⟨hkeys, hputs⟩ := H.updateElementsCalls_runs f strCommonKeyList f.elems (setKeys, false) store
      simp only [Option.map_some] at hkeys hputs ⊢
      rw [Program.leaves_bind, hkeys, hputs]
      generalize f.elems.foldl _ _ = st
      cases hmodify : st.bSetKeysModify
      · simp
      · simp [Program.leaves_op]
        rfl

lemma deleteElementsCalls_runs (f : Table) (strCommonKeyList : Bytes) (elems : List Element)
    (setKeys : List Bytes) (store : Store) :
    let st := elems.foldl (H.deleteElement f strCommonKeyList) (store, setKeys)
    let o := (H.deleteElementsCalls f strCommonKeyList elems setKeys).runs Store.storage store
    o.value = st.2 ∧ o.store = st.1 := by
  induction elems generalizing setKeys store with
  | nil => exact ⟨rfl, rfl⟩
  | cons pMsg elems ih =>
    rw [List.foldl_cons, deleteElementsCalls, Program.runs_op]
    exact ih _ _

lemma deleteTableCalls_leaves (strCommonKeyList : Bytes) (f : Table) (store : Store) :
    (H.deleteTableCalls strCommonKeyList f).leaves Store.storage store = H.deleteTable strCommonKeyList store f := by
  rw [deleteTableCalls, deleteTable]
  by_cases hunset : f.elems = []
  · rw [if_pos hunset, if_pos hunset]
    rfl
  · obtain ⟨hread, hstore⟩ := H.readSetKeysCalls_runs f strCommonKeyList store
    rw [if_neg hunset, if_neg hunset, Program.leaves_bind, hread, hstore]
    cases H.readSetKeys f strCommonKeyList store with
    | none => rfl
    | some setKeys =>
      obtain ⟨hkeys, hdels⟩ := H.deleteElementsCalls_runs f strCommonKeyList f.elems setKeys store
      simp only [Option.map_some] at hkeys hdels ⊢
      rw [Program.leaves_bind, hkeys, hdels]
      generalize f.elems.foldl _ _ = st
      by_cases hempty : st.2 = []
      · rw [if_pos hempty, if_pos hempty, Program.leaves_op]
        rfl
      · rw [if_neg hempty, if_neg hempty, Program.leaves_op]
        rfl

lemma messageUpdateCalls_leaves (message : Message) (store : Store) :
    (H.messageUpdateCalls message).leaves Store.storage store = H.messageUpdateOnKV store message := by
  rw [messageUpdateCalls, messageUpdateOnKV]
  generalize ([] : Bytes) = strCommonKeyList
  induction message generalizing strCommonKeyList store with
  | nil => rfl
  | cons field fields ih =>
    cases field with
    | key f => exact ih _ _
    | table f =>
      rw [fieldsCalls, Program.leaves_andThen, updateTableCalls_leaves, updateFields]
      apply Option.bind_congr
      intro store' _
      exact ih _ _

lemma messageDeleteCalls_leaves (message : Message) (store : Store) :
    (H.messageDeleteCalls message).leaves Store.storage store = H.messageDeleteOnKV store message := by
  rw [messageDeleteCalls, messageDeleteOnKV]
  generalize ([] : Bytes) = strCommonKeyList
  induction message generalizing strCommonKeyList store with
  | nil => rfl
  | cons field fields ih =>
    cases field with
    | key f => exact ih _ _
    | table f =>
      rw [fieldsCalls, Program.leaves_andThen, deleteTableCalls_leaves, deleteFields]
      apply Option.bind_congr
      intro store' _
      exact ih _ _

end PbMessageKVHandle

end TonyCat.Database
