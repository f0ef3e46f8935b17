import Mathlib.Data.List.Perm.Lattice
import TonyCat.Utility.ConfigFieldPaser

set_option autoImplicit false

/-! The tables of `XmlConfigModule`. A document is what tinyxml2 has made of the file. -/

namespace TonyCat.Config

open TonyCat.Library TonyCat.Utility
open TonyCat.Database (textOfInt textOfInt_ne_nil)

structure XMLAttribute where
  name : Bytes
  value : CString

structure XMLElement where
  name : Bytes
  attributes : List XMLAttribute

/-- The children of the root. -/
abbrev XMLDocument := Option (List XMLElement)

def configValueToString (pData : CString) : Bytes := pData.bytes

def configValueToVecInt32 (pData : CString) (vecResult : List Int32) : List Int32 :=
  (splitString (some pData) [] 58).foldl
    (fun vecResult elemStringResult => vecResult ++ [configValueToInt32 (cStr elemStringResult)]) vecResult

/-- A branch of `LoadXmlElement`. -/
structure Column (D : Type) where
  name : Bytes
  load : D → CString → D

/-- What `LoadXmlFile` needs of `_TConfgData`. -/
structure ConfigData (K D : Type) where
  fresh : D
  getKey : D → K
  columns : List (Column D)

structure ServerListConfigData where
  nId : Int64 := 0
  nServerType : Int32 := 0
  strServerName : Bytes := []
  nServerIndex : Int32 := 0
  strPublicIp : Bytes := []
  strServerIp : Bytes := []
  vecConnectList : List Int32 := []
  nNetThreadsNum : Int32 := 0
  strHttpIp : Bytes := []
  nHttpThreadsNum : Int32 := 0

structure DataBaseConfigData where
  strId : Bytes := []
  strAddress : Bytes := []
  nPort : Int64 := 0
  strUser : Bytes := []
  strPassword : Bytes := []
  nShardNum : Int64 := 0

def serverListConfigData : ConfigData Int64 ServerListConfigData where
  fresh := { }
  getKey d := d.nId
  columns :=
    [⟨Http.text "Id", fun d v => { d with nId := configValueToInt64 v }⟩,
      ⟨Http.text "ServerType", fun d v => { d with nServerType := configValueToInt32 v }⟩,
      ⟨Http.text "ServerName", fun d v => { d with strServerName := configValueToString v }⟩,
      ⟨Http.text "ServerIndex", fun d v => { d with nServerIndex := configValueToInt32 v }⟩,
      ⟨Http.text "PublicIp", fun d v => { d with strPublicIp := configValueToString v }⟩,
      ⟨Http.text "ServerIp", fun d v => { d with strServerIp := configValueToString v }⟩,
      ⟨Http.text "ConnectList", fun d v => { d with vecConnectList := configValueToVecInt32 v d.vecConnectList }⟩,
      ⟨Http.text "NetThreadsNum", fun d v => { d with nNetThreadsNum := configValueToInt32 v }⟩,
      ⟨Http.text "HttpIp", fun d v => { d with strHttpIp := configValueToString v }⟩,
      ⟨Http.text "HttpThreadsNum", fun d v => { d with nHttpThreadsNum := configValueToInt32 v }⟩]

def dataBaseConfigData : ConfigData Bytes DataBaseConfigData where
  fresh := { }
  getKey d := d.strId
  columns :=
    [⟨Http.text "Id", fun d v => { d with strId := configValueToString v }⟩,
      ⟨Http.text "Address", fun d v => { d with strAddress := configValueToString v }⟩,
      ⟨Http.text "Port", fun d v => { d with nPort := configValueToInt64 v }⟩,
      ⟨Http.text "User", fun d v => { d with strUser := configValueToString v }⟩,
      ⟨Http.text "Password", fun d v => { d with strPassword := configValueToString v }⟩,
      ⟨Http.text "ShardNum", fun d v => { d with nShardNum := configValueToInt64 v }⟩]

/-- The first child called `element` and what follows it, of whatever name. -/
def siblings (doc : XMLDocument) : List XMLElement :=
  match doc with
  | none => []
  | some children => children.dropWhile fun child => child.name ≠ Http.text "element"

namespace ConfigData

variable {K D : Type} (T : ConfigData K D)

/-- An attribute of another name is passed over, and no parser fails on a value, which is never null. -/
def loadXmlElement (d : D) (a : XMLAttribute) : D :=
  match T.columns.find? fun column => column.name = a.name with
  | some column => column.load d a.value
  | none => d

def loadRow (element : XMLElement) : D := element.attributes.foldl T.loadXmlElement T.fresh

def loadXmlFile [DecidableEq K] (doc : XMLDocument) (mapData : ConfigMap K D) : ConfigMap K D :=
  (siblings doc).foldl (fun mapData element => mapData.insert (T.getKey (T.loadRow element)) (T.loadRow element)) mapData

/-- `LoadServerListConfigData` and `LoadDataBaseConfigData`, which fail on a file that does not parse. -/
def load [DecidableEq K] (file : Option XMLDocument) : ConfigMap K D × Bool :=
  match file with
  | none => (∅, false)
  | some doc => (T.loadXmlFile doc ∅, true)

structure Separate (columns : List (Column D)) : Prop where
  names : (columns.map Column.name).Nodup
  commute : columns.Pairwise fun c c' => ∀ d v w, c'.load (c.load d v) w = c.load (c'.load d w) v

def attributes (columns : List (Column D)) (values : List CString) : List XMLAttribute :=
  columns.zipWith (fun column value => ⟨column.name, value⟩) values

variable {T}

lemma find_column {columns : List (Column D)} (h : (columns.map Column.name).Nodup) {column : Column D}
    (hmem : column ∈ columns) : columns.find? (fun c => c.name = column.name) = some column := by
  obtain ⟨c, hc⟩ : ∃ c, columns.find? (fun c => c.name = column.name) = some c := by
    rw [← Option.isSome_iff_exists, List.find?_isSome]
    exact ⟨column, hmem, decide_eq_true rfl⟩
  have hname : c.name = column.name := by simpa using List.find?_some hc
  rw [hc, List.inj_on_of_nodup_map h (List.mem_of_find?_eq_some hc) hmem hname]

lemma loadXmlElement_column (h : Separate T.columns) {column : Column D} (hmem : column ∈ T.columns) (d : D)
    (value : CString) : T.loadXmlElement d ⟨column.name, value⟩ = column.load d value := by
  rw [loadXmlElement]
  dsimp only
  rw [find_column h.names hmem]

lemma loadXmlElement_other {a : XMLAttribute} (h : a.name ∉ T.columns.map Column.name) (d : D) :
    T.loadXmlElement d a = d := by
  have hnone : T.columns.find? (fun column => column.name = a.name) = none := by
    rw [List.find?_eq_none]
    intro column hmem hname
    exact h (of_decide_eq_true hname ▸ List.mem_map_of_mem hmem)
  rw [loadXmlElement, hnone]

lemma names_attributes (columns : List (Column D)) (values : List CString) :
    (attributes columns values).map XMLAttribute.name <+: columns.map Column.name := by
  induction columns generalizing values with
  | nil => exact List.prefix_rfl
  | cons column columns ih =>
    cases values with
    | nil => exact List.nil_prefix
    | cons value values => exact List.cons_prefix_cons.mpr ⟨rfl, ih values⟩

lemma foldl_attributes (h : Separate T.columns) {columns : List (Column D)} (hsub : ∀ column ∈ columns, column ∈ T.columns)
    (values : List CString) (d : D) : (attributes columns values).foldl T.loadXmlElement d =
      (columns.zip values).foldl (fun d columnValue => columnValue.1.load d columnValue.2) d := by
  induction columns generalizing values d with
  | nil => rfl
  | cons column columns ih =>
    cases values with
    | nil => rfl
    | cons value values =>
      obtain ⟨hcolumn, hrest⟩ := List.forall_mem_cons.mp hsub
      rw [attributes, List.zipWith_cons_cons, List.foldl_cons, loadXmlElement_column h hcolumn, List.zip_cons_cons,
        List.foldl_cons]
      exact ih hrest values _

lemma loadXmlElement_comm (h : Separate T.columns) {a b : XMLAttribute} (hne : a.name ≠ b.name) (d : D) :
    T.loadXmlElement (T.loadXmlElement d a) b = T.loadXmlElement (T.loadXmlElement d b) a := by
  by_cases ha : a.name ∈ T.columns.map Column.name
  · by_cases hb : b.name ∈ T.columns.map Column.name
    · obtain ⟨c, hc, hcname⟩ := List.mem_map.mp ha
      obtain ⟨c', hc', hcname'⟩ := List.mem_map.mp hb
      obtain ⟨_, value⟩ := a
      obtain ⟨_, value'⟩ := b
      cases hcname
      cases hcname'
      have hsymm : Std.Symm fun c c' : Column D => ∀ d v w, c'.load (c.load d v) w = c.load (c'.load d w) v :=
        ⟨fun _ _ hcomm d v w => (hcomm d w v).symm⟩
      simp only [loadXmlElement_column h hc, loadXmlElement_column h hc']
      exact h.commute.forall hc hc' (fun heq => hne (heq ▸ rfl)) d value value'
    · rw [loadXmlElement_other hb, loadXmlElement_other hb]
  · rw [loadXmlElement_other ha, loadXmlElement_other ha]

variable (T) in
def Describes (values : D → List CString) (element : XMLElement) (row : D) : Prop :=
  ∃ others : List XMLAttribute, (∀ a ∈ others, a.name ∉ T.columns.map Column.name) ∧
    element.attributes.Perm (attributes T.columns (values row) ++ others)

lemma loadRow_of_describes (h : Separate T.columns) {values : D → List CString} {element : XMLElement} {row : D}
    (hdescribes : T.Describes values element row) : T.loadRow element =
      (T.columns.zip (values row)).foldl (fun d columnValue => columnValue.1.load d columnValue.2) T.fresh := by
  obtain ⟨others, hothers, hperm⟩ := hdescribes
  have hcomm : ∀ a ∈ attributes T.columns (values row) ++ others, ∀ b ∈ attributes T.columns (values row) ++ others, ∀ d,
      T.loadXmlElement (T.loadXmlElement d a) b = T.loadXmlElement (T.loadXmlElement d b) a := by
    intro a ha b hb d
    by_cases hname : a.name = b.name
    · rcases List.mem_append.mp ha with ha | ha
      · rcases List.mem_append.mp hb with hb | hb
        · rw [List.inj_on_of_nodup_map ((names_attributes _ _).sublist.nodup h.names) ha hb hname]
        · rw [loadXmlElement_other (hothers b hb), loadXmlElement_other (hothers b hb)]
      · rw [loadXmlElement_other (hothers a ha), loadXmlElement_other (hothers a ha)]
    · exact loadXmlElement_comm h hname d
  have hskip : ∀ d, others.foldl T.loadXmlElement d = d := by
    intro d
    rw [List.foldl_ext _ (fun d _ => d) d fun d a ha => loadXmlElement_other (hothers a ha) d]
    exact List.foldl_fixed others
  rw [loadRow, (hperm.symm.foldl_eq' hcomm _).symm, List.foldl_append, hskip, foldl_attributes h fun _ hmem => hmem]

def Restores (T : ConfigData K D) (values : D → List CString) (Fits : D → Prop) : Prop :=
  ∀ row, Fits row →
    (T.columns.zip (values row)).foldl (fun d columnValue => columnValue.1.load d columnValue.2) T.fresh = row

/-- A table comes back from every file that has its rows in some order, each with its attributes in some order, behind
elements of other names. -/
def Decodes [DecidableEq K] (T : ConfigData K D) (values : D → List CString) (Fits : D → Prop) : Prop :=
  ∀ (m : ConfigMap K D) (rows : List D) (skipped elements : List XMLElement),
    ((rows.map fun row => ⟨T.getKey row, row⟩ : List (Σ _ : K, D)) : Multiset (Σ _ : K, D)) = m.entries →
      (∀ row ∈ rows, Fits row) → (∀ child ∈ skipped, child.name ≠ Http.text "element") →
        (∀ child ∈ elements.head?, child.name = Http.text "element") → List.Forall₂ (T.Describes values) elements rows →
          T.load (some (some (skipped ++ elements))) = (m, true)

lemma siblings_append {skipped elements : List XMLElement} (hskipped : ∀ child ∈ skipped, child.name ≠ Http.text "element")
    (hfirst : ∀ child ∈ elements.head?, child.name = Http.text "element") :
    siblings (some (skipped ++ elements)) = elements := by
  have hall : ∀ child ∈ skipped, decide (child.name ≠ Http.text "element") = true :=
    fun child hmem => decide_eq_true (hskipped child hmem)
  rw [siblings, List.dropWhile_append_of_pos hall]
  cases elements with
  | nil => rfl
  | cons element elements => exact List.dropWhile_cons_of_neg (by simpa using hfirst element rfl)

lemma decodes_of_restores [DecidableEq K] (h : Separate T.columns) {values : D → List CString} {Fits : D → Prop}
    (hrestores : Restores T values Fits) : Decodes T values Fits := by
  intro m rows skipped elements hrows hfits hskipped hfirst hdescribes
  have hread : ∀ mapData : ConfigMap K D,
      elements.foldl (fun mapData element => mapData.insert (T.getKey (T.loadRow element)) (T.loadRow element)) mapData =
        (rows.map fun row => (⟨T.getKey row, row⟩ : Σ _ : K, D)).foldl (fun m e => m.insert e.1 e.2) mapData := by
    clear hrows hfirst
    induction hdescribes with
    | nil => exact fun mapData => rfl
    | @cons element row elements rows hrow _ ih =>
      obtain ⟨hfit, hfits⟩ := List.forall_mem_cons.mp hfits
      intro mapData
      rw [List.foldl_cons, List.map_cons, List.foldl_cons, loadRow_of_describes h hrow, hrestores row hfit]
      exact ih hfits _
  have hnodup : ((rows.map fun row => (⟨T.getKey row, row⟩ : Σ _ : K, D)).map Sigma.fst).Nodup := by
    have hkeys := m.nodupKeys
    rw [← hrows] at hkeys
    exact hkeys
  rw [load, loadXmlFile, siblings_append hskipped hfirst, hread]
  congr 1
  apply Finmap.ext
  rw [entries_foldl_insert hnodup fun _ _ => Finmap.notMem_empty, hrows]
  exact zero_add _

end ConfigData

def vecText (values : List Int32) : Bytes := [58].intercalate (values.map fun v => textOfInt v.toInt)

lemma configValueToVecInt32_eq (pData : CString) :
    configValueToVecInt32 pData [] = (splitString (some pData) [] 58).map readInt32 := by
  have hfold : ∀ (pieces : List Bytes) (vec : List Int32),
      pieces.foldl (fun vec piece => vec ++ [configValueToInt32 (cStr piece)]) vec = vec ++ pieces.map readInt32 := by
    intro pieces
    induction pieces with
    | nil => exact fun vec => (List.append_nil vec).symm
    | cons piece pieces ih =>
      intro vec
      rw [List.foldl_cons, ih, List.append_assoc, List.map_cons, List.singleton_append]
      rfl
  exact hfold _ []

lemma notMem_vecText (values : List Int32) : 0 ∉ vecText values := by
  induction values with
  | nil => exact List.not_mem_nil
  | cons v values ih =>
    have hfirst : 0 ∉ textOfInt v.toInt := fun hmem => (clean_textOfInt v.toInt 0 hmem).2.2 rfl
    cases values with
    | nil => simpa [vecText] using hfirst
    | cons w values =>
      have hsplit : vecText (v :: w :: values) = textOfInt v.toInt ++ 58 :: vecText (w :: values) := by
        rw [vecText, List.map_cons, List.intercalate_cons_of_ne_nil (by simp)]
        simp [vecText]
      rw [hsplit, List.mem_append, List.mem_cons, not_or, not_or]
      exact ⟨hfirst, by decide, ih⟩

lemma configValueToVecInt32_vecText (values : List Int32) : configValueToVecInt32 (cStr (vecText values)) [] = values := by
  have hbytes := cStr_bytes (notMem_vecText values)
  rw [configValueToVecInt32_eq]
  cases values with
  | nil => rfl
  | cons v values =>
    have hne : vecText (v :: values) ≠ [] := by
      have hfirst := textOfInt_ne_nil v.toInt
      cases values with
      | nil => simpa [vecText] using hfirst
      | cons w values => simp [vecText, List.intercalate_cons_of_ne_nil, hfirst]
    rw [splitString_eq (by rwa [hbytes]), hbytes, vecText, List.splitOn_intercalate _ _ (by simp), List.map_map]
    · refine (List.map_congr_left fun w _ => ?_).trans (List.map_id _)
      exact int32Cell.read_text w trivial
    · intro piece hpiece
      obtain ⟨w, -, rfl⟩ := List.mem_map.mp hpiece
      exact fun hmem => (clean_textOfInt w.toInt 58 hmem).1 rfl

def ServerListConfigData.values (d : ServerListConfigData) : List CString :=
  [cStr (textOfInt d.nId.toInt), cStr (textOfInt d.nServerType.toInt), cStr d.strServerName,
    cStr (textOfInt d.nServerIndex.toInt), cStr d.strPublicIp, cStr d.strServerIp, cStr (vecText d.vecConnectList),
    cStr (textOfInt d.nNetThreadsNum.toInt), cStr d.strHttpIp, cStr (textOfInt d.nHttpThreadsNum.toInt)]

def DataBaseConfigData.values (d : DataBaseConfigData) : List CString :=
  [cStr d.strId, cStr d.strAddress, cStr (textOfInt d.nPort.toInt), cStr d.strUser, cStr d.strPassword,
    cStr (textOfInt d.nShardNum.toInt)]

def ServerListConfigData.Fits (d : ServerListConfigData) : Prop :=
  0 ∉ d.strServerName ∧ 0 ∉ d.strPublicIp ∧ 0 ∉ d.strServerIp ∧ 0 ∉ d.strHttpIp

def DataBaseConfigData.Fits (d : DataBaseConfigData) : Prop :=
  0 ∉ d.strId ∧ 0 ∉ d.strAddress ∧ 0 ∉ d.strUser ∧ 0 ∉ d.strPassword

lemma separate_serverListConfigData : ConfigData.Separate serverListConfigData.columns := by
  constructor
  · decide
  · simp [serverListConfigData]

lemma separate_dataBaseConfigData : ConfigData.Separate dataBaseConfigData.columns := by
  constructor
  · decide
  · simp [dataBaseConfigData]

lemma restores_serverListConfigData :
    serverListConfigData.Restores ServerListConfigData.values ServerListConfigData.Fits := by
  rintro ⟨⟩ ⟨hname, hpublic, hserver, hhttp⟩
  have h32 : ∀ v : Int32, configValueToInt32 (cStr (textOfInt v.toInt)) = v := fun v => int32Cell.read_text v trivial
  have h64 : ∀ v : Int64, configValueToInt64 (cStr (textOfInt v.toInt)) = v := fun v => int64Cell.read_text v trivial
  simp only [serverListConfigData, ServerListConfigData.values, List.zip_cons_cons, List.zip_nil_right, List.foldl_cons,
    List.foldl_nil, h32, h64, configValueToVecInt32_vecText, configValueToString, cStr_bytes hname, cStr_bytes hpublic,
    cStr_bytes hserver, cStr_bytes hhttp]

lemma restores_dataBaseConfigData :
    dataBaseConfigData.Restores DataBaseConfigData.values DataBaseConfigData.Fits := by
  rintro ⟨⟩ ⟨hid, haddress, huser, hpassword⟩
  have h64 : ∀ v : Int64, configValueToInt64 (cStr (textOfInt v.toInt)) = v := fun v => int64Cell.read_text v trivial
  simp only [dataBaseConfigData, DataBaseConfigData.values, List.zip_cons_cons, List.zip_nil_right, List.foldl_cons,
    List.foldl_nil, h64, configValueToString, cStr_bytes hid, cStr_bytes haddress, cStr_bytes huser,
    cStr_bytes hpassword]

theorem config_tables_decode :
    serverListConfigData.Decodes ServerListConfigData.values ServerListConfigData.Fits ∧
      dataBaseConfigData.Decodes DataBaseConfigData.values DataBaseConfigData.Fits :=
  ⟨ConfigData.decodes_of_restores separate_serverListConfigData restores_serverListConfigData,
    ConfigData.decodes_of_restores separate_dataBaseConfigData restores_dataBaseConfigData⟩

def gateRow : ServerListConfigData :=
  { nId := 11, nServerType := 1, strServerName := Http.text "gate", nServerIndex := 1, vecConnectList := [2, -3] }

def logicRow : ServerListConfigData := { nId := 21, nServerType := 2, nServerIndex := 1, nNetThreadsNum := 4 }

def shardRow : DataBaseConfigData := { strId := Http.text "db", nPort := 3306, nShardNum := 4 }

/-- The last row is first, with its attributes from the last to the first and one of no column. -/
def serverElements : List XMLElement :=
  [⟨Http.text "element", (ConfigData.attributes serverListConfigData.columns logicRow.values ++
      [XMLAttribute.mk (Http.text "Remark") (cStr [])]).reverse⟩,
    ⟨Http.text "element", ConfigData.attributes serverListConfigData.columns gateRow.values ++ []⟩]

def databaseElements : List XMLElement :=
  [⟨Http.text "element", ConfigData.attributes dataBaseConfigData.columns shardRow.values ++ []⟩]

theorem config_tables_decode_elements :
    serverListConfigData.load (some (some ([⟨Http.text "head", []⟩] ++ serverElements))) =
      ((Finmap.singleton 11 gateRow).insert 21 logicRow, true) ∧
    dataBaseConfigData.load (some (some ([] ++ databaseElements))) = (Finmap.singleton (Http.text "db") shardRow, true) := by
  obtain ⟨hserver, hdatabase⟩ := config_tables_decode
  constructor
  · refine hserver _ [logicRow, gateRow] _ _ rfl ?_ ?_ ?_ ?_
    · simp [ServerListConfigData.Fits, logicRow, gateRow]
      decide
    · decide
    · simp [serverElements]
    · refine .cons ⟨_, ?_, List.reverse_perm _⟩ (.cons ⟨[], ?_, .refl _⟩ .nil)
      · decide
      · simp
  · refine hdatabase _ [shardRow] _ _ rfl ?_ ?_ ?_ ?_
    · simp [DataBaseConfigData.Fits, shardRow]
      decide
    · decide
    · simp [databaseElements]
    · refine .cons ⟨[], ?_, .refl _⟩ .nil
      simp

end TonyCat.Config
