import TonyCat.Database.MysqlDelete
import TonyCat.Database.Schema

set_option autoImplicit false

/-! `MysqlModule::MessageLoad` and `MysqlModule::MessageUpdate`: the statements they build. -/

namespace TonyCat.Database

open TonyCat.Library

/-- The answer of `QuerySelectRowsInCurrentThread`, its rows by column name, and what one text sets a field to. -/
structure MysqlSelect where
  querySelectRows : Bytes → List Bytes → ℤ × List (Bytes → Bytes)
  dBStringToProtoMessage : FieldDescriptor → Bytes → Value
  cppType : ∀ f text, (dBStringToProtoMessage f text).cppType = f.cppType

def MysqlSelect.fillRow (L : MysqlSelect) (f : Table) (row : Bytes → Bytes) : Table :=
  f.put
    { descriptor := f.descriptor
      values := f.descriptor.fields.map fun fd => L.dBStringToProtoMessage fd (row fd.name)
      typed := by simp [L.cppType] }
    rfl

structure Loaded where
  statements : List Statement
  nError : ℤ
  message : Message

namespace MysqlModule

variable (M : MysqlModule)

def strQueryInFields (d : Descriptor) : Bytes :=
  (d.fields.zipIdx.filter fun p => isDBKey M.keys d p.1).flatMap fun p =>
    (if p.2 > 0 then ascii "," else []) ++ p.1.name

def queryInItem (pMsg : Element) : Bytes :=
  ascii "(" ++ ((pMsg.descriptor.fields.zipIdx.filter fun p => isDBKey M.keys pMsg.descriptor p.1).flatMap (fun p =>
    (if p.2 ≠ 0 then ascii "," else []) ++ getProtoSqlStringPlaceholder p.1.cppType) ++ ascii ")")

def strQueryInItems (elems : List Element) : Bytes :=
  elems.zipIdx.flatMap fun p =>
    if p.1.descriptor.fields.length ≤ 0 then []
    else (if p.2 ≠ 0 then ascii "," else []) ++ M.queryInItem p.1

/-- The conditions of a table that is not repeated go to the text of the common key. -/
def loadQuery (common : Query) (f : Table) : Query :=
  if f.isRepeated then common else f.elems.foldl M.addQueryMessageCondition common

def selectText (f : Table) : Bytes :=
  let strQueryString := ascii "SELECT " ++ f.descriptor.fields.flatMap fun fd => fd.name ++ ascii ","
  strQueryString.dropLast ++ ascii " "

def loadStatement (common : Query) (f : Table) : Statement :=
  let query := M.loadQuery common f
  let strQueryInItems := if f.isRepeated then M.strQueryInItems f.elems else []
  { table := f
    strQueryString := selectText f ++ (ascii " FROM " ++ f.name ++
      ((if query.strQuerys ≠ [] ∨ strQueryInItems ≠ [] then ascii " WHERE" else []) ++ (query.strQuerys ++
        if strQueryInItems ≠ [] then
          ascii " AND (" ++ M.strQueryInFields f.descriptor ++ ascii ") IN (" ++ strQueryInItems ++ ascii ")"
        else [])))
    vecArgs := query.vecArgs ++
      if f.isRepeated then f.elems.flatMap fun pMsg => (M.keyColumns pMsg).map Column.text else [] }

def loadFields (L : MysqlSelect) : Query → Message → Loaded
  | _, [] => ⟨[], 0, []⟩
  | common, .key f :: m =>
    let rest := loadFields L (addQueryItemCondition common (M.keyColumn f)) m
    ⟨rest.statements, rest.nError, .key f :: rest.message⟩
  | common, .table f :: m =>
    let st := M.loadStatement common f
    let result := L.querySelectRows st.strQueryString st.vecArgs
    if result.1 ≠ 0 then ⟨[st], result.1, .table f :: m⟩
    else
      -- the text keeps what this table added to it, the arguments do not
      let rest := loadFields L ⟨(M.loadQuery common f).strQuerys, common.vecArgs⟩ m
      ⟨st :: rest.statements, rest.nError, .table (result.2.foldl L.fillRow f) :: rest.message⟩

def messageLoad (L : MysqlSelect) (message : Message) : Loaded :=
  M.loadFields L .empty message

structure CommonKeys where
  vecFieldNameCommon : List Bytes
  vecFieldParamCharCommon : List Bytes
  vecCommonKeyArgs : List Bytes

def CommonKeys.add (common : CommonKeys) (c : Column) : CommonKeys where
  vecFieldNameCommon := common.vecFieldNameCommon ++ [c.name]
  vecFieldParamCharCommon := common.vecFieldParamCharCommon ++ [getProtoSqlStringPlaceholder c.cppType]
  vecCommonKeyArgs := common.vecCommonKeyArgs ++ [c.text]

def fieldColumns (pMsg : Element) : List Column :=
  pMsg.fieldValues.map fun fv =>
    ⟨fv.1.name, fv.1.cppType, dBProtoMessageToString M.rt (dBProtoMessageToStringAsBlob M.rt pMsg) fv.2⟩

def joined : List Bytes → Bytes
  | [] => []
  | s :: ss => s ++ ss.flatMap fun s => ascii ", " ++ s

def valuesElem (vecCurFieldParamCharCommon : List Bytes) : Bytes :=
  ascii "(" ++ (joined vecCurFieldParamCharCommon ++ ascii " )")

def rowArgs (f : Table) (common : CommonKeys) (pMsg : Element) : List Bytes :=
  common.vecCommonKeyArgs ++
    if f.isRepeated then (M.fieldColumns pMsg).map Column.text
    else ((pMsg.fieldValues.filter fun fv => !isDBKey M.keys pMsg.descriptor fv.1).map fun fv =>
      dBProtoMessageToString M.rt (dBProtoMessageToStringAsBlob M.rt pMsg) fv.2)

/-- The names that `ON DUPLICATE KEY UPDATE` sets; keys are looked up under the type of the whole message. -/
def dataNames (message : Descriptor) (f : Table) : List Bytes :=
  (f.descriptor.fields.filter fun fd => !isDBKey M.keys message fd).map FieldDescriptor.name

def updateStatement (message : Descriptor) (common : CommonKeys) (f : Table) : Statement :=
  let vecCurFieldName := common.vecFieldNameCommon ++ f.descriptor.fields.map FieldDescriptor.name
  let strValuesElem := valuesElem (common.vecFieldParamCharCommon ++
    f.descriptor.fields.map fun fd => getProtoSqlStringPlaceholder fd.cppType)
  { table := f
    strQueryString := ascii "INSERT INTO " ++ f.name ++ ascii " (" ++ joined vecCurFieldName ++ ascii ")" ++
      ascii " VALUES" ++ (f.elems.zipIdx.flatMap fun p => (if p.2 ≠ 0 then ascii "," else []) ++ strValuesElem) ++
      ascii " ON DUPLICATE KEY UPDATE " ++
      joined ((M.dataNames message f).map fun name => name ++ ascii "=values(" ++ name ++ ascii ")")
    vecArgs := f.elems.flatMap (M.rowArgs f common) }

def updateFields (message : Descriptor) : CommonKeys → Message → List Statement × ℤ
  | _, [] => ([], 0)
  | common, .key f :: m => updateFields message (common.add (M.keyColumn f)) m
  | common, .table f :: m =>
    if f.elems = [] then updateFields message common m
    else
      let st := M.updateStatement message common f
      let nError := M.queryModify st.strQueryString st.vecArgs
      if nError ≠ 0 then ([st], nError)
      else (st :: (updateFields message common m).1, (updateFields message common m).2)

def messageUpdate (descriptor : Descriptor) (message : Message) : List Statement × ℤ :=
  M.updateFields descriptor ⟨[], [], []⟩ message

end MysqlModule

end TonyCat.Database
