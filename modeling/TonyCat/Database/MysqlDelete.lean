import TonyCat.Database.Protobuf

set_option autoImplicit false

/-! `MysqlModule::MessageDelete`: the statements it builds. -/

namespace TonyCat.Database

open TonyCat.Library

structure Query where
  strQuerys : Bytes
  vecArgs : List Bytes
  deriving DecidableEq

def Query.empty : Query := ⟨[], []⟩

structure Column where
  name : Bytes
  cppType : CppType
  text : Bytes
  deriving DecidableEq

def getProtoSqlStringPlaceholder (cppType : CppType) : Bytes :=
  if cppType = .string then ascii "'\x7b\x7d'" else ascii "\x7b\x7d"

def addQueryItemCondition (q : Query) (c : Column) : Query where
  strQuerys := (if q.vecArgs ≠ [] then q.strQuerys ++ ascii " AND " else q.strQuerys) ++ ascii " " ++
    c.name ++ ascii " = " ++ getProtoSqlStringPlaceholder c.cppType
  vecArgs := q.vecArgs ++ [c.text]

structure Statement where
  table : Table
  strQueryString : Bytes
  vecArgs : List Bytes

structure MysqlModule where
  rt : Runtime
  keys : DbPbFieldKey
  /-- `nError` of `QueryModifyInCurrentThread` -/
  queryModify : Bytes → List Bytes → ℤ

namespace MysqlModule

variable (M : MysqlModule)

def keyColumn (f : CommonKey) : Column :=
  ⟨f.name, f.value.cppType, dBProtoMessageToString M.rt [] f.value⟩

def keyColumns (pMsg : Element) : List Column :=
  (pMsg.fieldValues.filter fun fv => isDBKey M.keys pMsg.descriptor fv.1).map fun fv =>
    ⟨fv.1.name, fv.1.cppType,
      dBProtoMessageToString M.rt (dBProtoMessageToStringAsBlob M.rt pMsg) fv.2⟩

def addQueryMessageCondition (q : Query) (pMsg : Element) : Query :=
  pMsg.fieldValues.foldl
    (fun q fv =>
      if isDBKey M.keys pMsg.descriptor fv.1 then
        addQueryItemCondition q ⟨fv.1.name, fv.1.cppType,
          dBProtoMessageToString M.rt (dBProtoMessageToStringAsBlob M.rt pMsg) fv.2⟩
      else q)
    q

def repeatedCondition (vecRepeatedQueryString : List Bytes) : Bytes :=
  match vecRepeatedQueryString with
  | [] => []
  | s :: ss => ascii " (" ++ s ++ ascii ")" ++ ss.flatMap fun s => ascii " OR" ++ ascii " (" ++ s ++ ascii ")"

def deleteStatement (common : Query) (f : Table) : Statement :=
  let strQueryString := ascii "DELETE FROM " ++ f.name ++ ascii " WHERE " ++ common.strQuerys
  let append : Query :=
    if f.isRepeated then
      let elems := f.elems.map (M.addQueryMessageCondition .empty)
      ⟨repeatedCondition (elems.map Query.strQuerys), common.vecArgs ++ elems.flatMap Query.vecArgs⟩
    else
      f.elems.foldl M.addQueryMessageCondition ⟨[], common.vecArgs⟩
  { table := f
    strQueryString :=
      if append.strQuerys ≠ [] then strQueryString ++ ascii " AND" ++ append.strQuerys else strQueryString
    vecArgs := append.vecArgs }

def deleteFields : Query → Message → List Statement × ℤ
  | _, [] => ([], 0)
  | common, .key f :: m => deleteFields (addQueryItemCondition common (M.keyColumn f)) m
  | common, .table f :: m =>
    if f.elems = [] then deleteFields common m
    else
      let st := M.deleteStatement common f
      let nError := M.queryModify st.strQueryString st.vecArgs
      if nError ≠ 0 then ([st], nError)
      else (st :: (deleteFields common m).1, (deleteFields common m).2)

def messageDelete (message : Message) : List Statement × ℤ :=
  M.deleteFields .empty message

def commonColumns (m : Message) : List Column :=
  m.filterMap fun f => match f with
    | .key f => some (M.keyColumn f)
    | .table _ => none

lemma addQueryMessageCondition_eq (q : Query) (pMsg : Element) :
    M.addQueryMessageCondition q pMsg = (M.keyColumns pMsg).foldl addQueryItemCondition q := by
  rw [addQueryMessageCondition, keyColumns, List.foldl_map, List.foldl_filter]

lemma keyColumns_eq_nil {pMsg : Element} :
    M.keyColumns pMsg = [] ↔ dbKeyFields M.keys pMsg.descriptor = [] := by
  have hl : pMsg.values.length = pMsg.descriptor.fields.length := by
    simpa using congrArg List.length pMsg.typed
  have hf : pMsg.fieldValues.map Prod.fst = pMsg.descriptor.fields := List.map_fst_zip (by omega)
  rw [dbKeyFields]
  conv_rhs => rw [← hf, List.filter_map, List.map_eq_nil_iff]
  rw [keyColumns, List.map_eq_nil_iff]
  rfl

lemma mem_deleteFields {m : Message} : ∀ {common : Query} {st : Statement}, st ∈ (M.deleteFields common m).1 →
    ∃ before after, m = before ++ .table st.table :: after ∧ st.table.elems ≠ [] ∧
      st = M.deleteStatement ((M.commonColumns before).foldl addQueryItemCondition common) st.table := by
  induction m with
  | nil =>
    intro common st h
    simp [deleteFields] at h
  | cons f m ih =>
    intro common st h
    cases f with
    | key f =>
      obtain ⟨before, after, rfl, hne, hst⟩ := ih h
      exact ⟨.key f :: before, after, rfl, hne, hst⟩
    | table f =>
      have hlater : st ∈ (M.deleteFields common m).1 → ∃ before after,
          Field.table f :: m = before ++ .table st.table :: after ∧ st.table.elems ≠ [] ∧
          st = M.deleteStatement ((M.commonColumns before).foldl addQueryItemCondition common) st.table := by
        intro h
        obtain ⟨before, after, rfl, hne, hst⟩ := ih h
        exact ⟨.table f :: before, after, rfl, hne, hst⟩
      rw [deleteFields] at h
      by_cases hunset : f.elems = []
      · rw [if_pos hunset] at h
        exact hlater h
      · rw [if_neg hunset] at h
        have hhead : st = M.deleteStatement common f ∨ st ∈ (M.deleteFields common m).1 := by
          dsimp only at h
          split at h
          · exact Or.inl (List.mem_singleton.mp h)
          · exact List.mem_cons.mp h
        rcases hhead with rfl | h
        · exact ⟨[], m, rfl, hunset, rfl⟩
        · exact hlater h

end MysqlModule

end TonyCat.Database
