import TonyCat.Database.Protobuf
import Mathlib.Data.List.AList

set_option autoImplicit false

/-! `PbMessageKVHandle` of `db_utils.cpp`: a message's tables in a key-value store. -/

namespace TonyCat.Database

open TonyCat.Library

abbrev Store := AList fun _ : Bytes => Bytes

namespace Store

/-- `funGet` into an empty string: an absent key leaves it empty. -/
def get (store : Store) (strKey : Bytes) : Bytes :=
  (store.lookup strKey).getD []

def put (store : Store) (strKey strVal : Bytes) : Store :=
  store.insert strKey strVal

def del (store : Store) (strKey : Bytes) : Store :=
  store.erase strKey

@[simp] lemma get_put_self (store : Store) (k v : Bytes) : (store.put k v).get k = v := by
  simp [get, put]

@[simp] lemma get_del_self (store : Store) (k : Bytes) : (store.del k).get k = [] := by
  simp [get, del]

@[simp] lemma get_empty (k : Bytes) : get ∅ k = [] := rfl

end Store

structure PbMessageKVHandle where
  /-- the host's byte order, in which `AppendRawData` writes lengths -/
  native : Endian
  keys : DbPbFieldKey
  rt : Runtime
  /-- the iteration order of a `std::unordered_set` with this insertion history -/
  order : List Bytes → List Bytes
  order_perm : ∀ elems, (order elems).Perm elems
  /-- null in index mode -/
  funRang : Option (Store → Bytes → Bytes → ℕ → List (Bytes × Bytes))

def strTableSpacer : Bytes := ascii "#"

/-- `EDbConfig::RangeLimit` -/
def rangeLimit : ℕ := 100000

def indexKey (strTabName strCommonKeyList : Bytes) : Bytes :=
  strTabName ++ strTableSpacer ++ strCommonKeyList

namespace PbMessageKVHandle

variable (H : PbMessageKVHandle)

def keyText (f : CommonKey) : Bytes :=
  dBProtoMessageToString H.rt [] f.value

def fieldText (pMsg : Element) (value : Value) : Bytes :=
  dBProtoMessageToString H.rt (dBProtoMessageToStringAsBlob H.rt pMsg) value

def getMessageElementKey (strTabName strCommonKeyList : Bytes) (pMsg : Element) : Bytes :=
  pMsg.fieldValues.foldl
    (fun strElementKey fv =>
      if isDBKey H.keys pMsg.descriptor fv.1 then
        appendRawData H.native strElementKey (H.fieldText pMsg fv.2)
      else strElementKey)
    (strTabName ++ strTableSpacer ++ strCommonKeyList)

def getMessageRepeatedElementKey (strTabName strCommonKeyList : Bytes) (pMsg : Element) : Bytes :=
  H.getMessageElementKey strTabName strCommonKeyList pMsg

def elementKey (f : Table) (strCommonKeyList : Bytes) (pMsg : Element) : Bytes :=
  if f.isRepeated then H.getMessageRepeatedElementKey f.name strCommonKeyList pMsg
  else H.getMessageElementKey f.name strCommonKeyList pMsg

def rangeResult (strCommonKeyList : Bytes) (store : Store) (f : Table) : List (Bytes × Bytes) :=
  let strCommonKey := indexKey f.name strCommonKeyList
  match H.funRang with
  | none => []
  | some funRang => funRang store strCommonKey (strCommonKey ++ [0xff]) rangeLimit

/-- Keys of the elements that are set, else the keys listed under the common key. -/
def vecKeySet (strCommonKeyList : Bytes) (store : Store) (f : Table) : Option (List Bytes) :=
  if f.elems ≠ [] then
    some (f.elems.map (H.elementKey f strCommonKeyList))
  else if H.funRang.isNone then
    paserList H.native (store.get (indexKey f.name strCommonKeyList))
  else
    some []

def addParsed (f : Table) (strValue : Bytes) : Table :=
  f.put (H.rt.parseFromString f.descriptor strValue) (H.rt.descriptor_parse _ _)

def loadTable (strCommonKeyList : Bytes) (store : Store) (f : Table) : Option Table :=
  let fRange := if f.elems ≠ [] then f
    else ((H.rangeResult strCommonKeyList store f).map Prod.snd).foldl H.addParsed f
  (H.vecKeySet strCommonKeyList store f).map fun vecKeySet =>
    (vecKeySet.map store.get).foldl H.addParsed fRange

def loadFields (store : Store) : Bytes → Message → Option Message
  | _, [] => some []
  | strCommonKeyList, .key f :: fields =>
    (loadFields store (appendRawData H.native strCommonKeyList (H.keyText f)) fields).map
      (Field.key f :: ·)
  | strCommonKeyList, .table f :: fields =>
    (H.loadTable strCommonKeyList store f).bind fun loaded =>
      (loadFields store strCommonKeyList fields).map (Field.table loaded :: ·)

def messageLoadOnKV (store : Store) (message : Message) : Option Message :=
  H.loadFields store [] message

structure UpdateState where
  store : Store
  setKeys : List Bytes
  bSetKeysModify : Bool

def updateRepeated (f : Table) (strCommonKeyList : Bytes) (st : UpdateState) (pMsg : Element) :
    UpdateState :=
  let strElementKey := H.getMessageRepeatedElementKey f.name strCommonKeyList pMsg
  let st' : UpdateState :=
    if st.bSetKeysModify = false then
      if strElementKey ∈ st.setKeys then st
      else { st with bSetKeysModify := true, setKeys := st.setKeys.insert strElementKey }
    else st
  { st' with store := st'.store.put strElementKey (H.rt.serializeAsString pMsg) }

def updateSingular (f : Table) (strCommonKeyList : Bytes) (st : UpdateState) (pMsg : Element) :
    UpdateState :=
  let strElementKey := H.getMessageElementKey f.name strCommonKeyList pMsg
  let st' : UpdateState :=
    if strElementKey ∈ st.setKeys then st
    else { st with bSetKeysModify := true, setKeys := st.setKeys.insert strElementKey }
  { st' with store := st'.store.put strElementKey (H.rt.serializeAsString pMsg) }

/-- `strCommonKey`: left empty in range mode. -/
def strCommonKey (f : Table) (strCommonKeyList : Bytes) : Bytes :=
  if H.funRang.isNone then indexKey f.name strCommonKeyList else []

def readSetKeys (f : Table) (strCommonKeyList : Bytes) (store : Store) : Option (List Bytes) :=
  if H.funRang.isNone then paserSet H.native (store.get (H.strCommonKey f strCommonKeyList))
  else some []

def updateTable (strCommonKeyList : Bytes) (store : Store) (f : Table) : Option Store :=
  if f.elems = [] then
    some store
  else
    (H.readSetKeys f strCommonKeyList store).map fun setKeys =>
      let st := f.elems.foldl
        (if f.isRepeated then H.updateRepeated f strCommonKeyList
          else H.updateSingular f strCommonKeyList) ⟨store, setKeys, false⟩
      if st.bSetKeysModify then
        st.store.put (H.strCommonKey f strCommonKeyList) (packetList H.native (H.order st.setKeys))
      else st.store

def updateFields : Bytes → Message → Store → Option Store
  | _, [], store => some store
  | strCommonKeyList, .key f :: fields, store =>
    updateFields (appendRawData H.native strCommonKeyList (H.keyText f)) fields store
  | strCommonKeyList, .table f :: fields, store =>
    (H.updateTable strCommonKeyList store f).bind (updateFields strCommonKeyList fields)

def messageUpdateOnKV (store : Store) (message : Message) : Option Store :=
  H.updateFields [] message store

def deleteElement (f : Table) (strCommonKeyList : Bytes) (st : Store × List Bytes) (pMsg : Element) :
    Store × List Bytes :=
  let strElementKey := H.elementKey f strCommonKeyList pMsg
  (st.1.del strElementKey, st.2.erase strElementKey)

def deleteTable (strCommonKeyList : Bytes) (store : Store) (f : Table) : Option Store :=
  if f.elems = [] then
    some store
  else
    (H.readSetKeys f strCommonKeyList store).map fun setKeys =>
      let st := f.elems.foldl (H.deleteElement f strCommonKeyList) (store, setKeys)
      if st.2 = [] then
        st.1.del (H.strCommonKey f strCommonKeyList)
      else
        st.1.put (H.strCommonKey f strCommonKeyList) (packetList H.native (H.order st.2))

def deleteFields : Bytes → Message → Store → Option Store
  | _, [], store => some store
  | strCommonKeyList, .key f :: fields, store =>
    deleteFields (appendRawData H.native strCommonKeyList (H.keyText f)) fields store
  | strCommonKeyList, .table f :: fields, store =>
    (H.deleteTable strCommonKeyList store f).bind (deleteFields strCommonKeyList fields)

def messageDeleteOnKV (store : Store) (message : Message) : Option Store :=
  H.deleteFields [] message store

end PbMessageKVHandle

inductive KVCall
  | update (message : Message)
  | delete (message : Message)

namespace KVCall

def message : KVCall → Message
  | .update m => m
  | .delete m => m

/-- One call; `none` when it runs into undefined behaviour. -/
def exec (H : PbMessageKVHandle) (store : Store) : KVCall → Option Store
  | .update m => H.messageUpdateOnKV store m
  | .delete m => H.messageDeleteOnKV store m

end KVCall

end TonyCat.Database
