import Mathlib.Data.FinEnum
import TonyCat.Config.XmlConfigModule
import TonyCat.Utility.Crc

set_option autoImplicit false

/-! `ServiceGovernmentModule::InitConfig` and the choice of the instance that serves a key. -/

namespace TonyCat.Service.ServerRouting

open TonyCat.Library TonyCat.Utility TonyCat.Config

structure ServerInstanceInfo where
  nServerConfigId : Int64 := 0
  nServerType : Int32 := 0
  nServerIndex : Int32 := 0
  nSessionId : Int64 := 0
  strServerIp : Bytes := []
  nPort : Int32 := 0
  strPublicIp : Bytes := []
  nPublicPort : Int32 := 0
  deriving DecidableEq

abbrev InstanceMap := ConfigMap Int32 (ConfigMap Int32 ServerInstanceInfo)

structure ServiceGovernmentModule where
  nServerType : Int32
  nServerId : Int32
  strPublicIp : Bytes := []
  nPublicPort : Int32 := 0
  strServerIp : Bytes := []
  nServerPort : Int32 := 0
  mineServerInfo : ServerInstanceInfo := { }
  mapConnectServerList : InstanceMap := ∅
  mapServerList : InstanceMap := ∅

/-- The outputs keep their values when there is no space. -/
def addressToIpPort (strAddress strIp : Bytes) (nPort : Int32) : Bytes × Int32 × Bool :=
  if 32 ∈ strAddress then
    (strAddress.takeWhile (· ≠ 32), configValueToInt32 (cStr ((strAddress.dropWhile (· ≠ 32)).drop 1)), true)
  else
    (strIp, nPort, false)

namespace InstanceMap

/-- `map[nServerType]` -/
def instances (m : InstanceMap) (nServerType : Int32) : ConfigMap Int32 ServerInstanceInfo :=
  (m.lookup nServerType).getD ∅

/-- `map[nServerType][nServerIndex] = info` -/
def assign (m : InstanceMap) (nServerType nServerIndex : Int32) (info : ServerInstanceInfo) : InstanceMap :=
  m.insert nServerType ((m.instances nServerType).insert nServerIndex info)

def find (m : InstanceMap) (nServerType nServerIndex : Int32) : Option ServerInstanceInfo :=
  (m.lookup nServerType).bind fun mapServerInfo => mapServerInfo.lookup nServerIndex

end InstanceMap

/-- The local `stServerInstanceInfo` of the second loop. -/
def serverInstanceInfo (row : ServerListConfigData) : ServerInstanceInfo where
  nServerConfigId := row.nId
  nServerType := row.nServerType
  nServerIndex := row.nServerIndex
  strServerIp := (addressToIpPort row.strServerIp [] 0).1
  nPort := (addressToIpPort row.strServerIp [] 0).2.1
  strPublicIp := (addressToIpPort row.strPublicIp [] 0).1
  nPublicPort := (addressToIpPort row.strPublicIp [] 0).2.1

namespace ServiceGovernmentModule

variable (gov : ServiceGovernmentModule)

def IsSelf (row : ServerListConfigData) : Prop :=
  row.nServerType = gov.nServerType ∧ row.nServerIndex = gov.nServerId

instance (row : ServerListConfigData) : Decidable (gov.IsSelf row) := instDecidableAnd

/-- The first loop, which stops at the row of this server. -/
def initSelf (row : ServerListConfigData) : ServiceGovernmentModule :=
  let publicIp := addressToIpPort row.strPublicIp gov.strPublicIp gov.nPublicPort
  let serverIp := addressToIpPort row.strServerIp gov.strServerIp gov.nServerPort
  { gov with
    strPublicIp := publicIp.1
    nPublicPort := publicIp.2.1
    strServerIp := serverIp.1
    nServerPort := serverIp.2.1
    mineServerInfo := { gov.mineServerInfo with
      nServerConfigId := row.nId
      strServerIp := serverIp.1
      nPort := serverIp.2.1 } }

/-- A turn of the second loop. -/
def addServer (vecDestServers : List Int32) (gov : ServiceGovernmentModule) (row : ServerListConfigData) :
    ServiceGovernmentModule :=
  let mapServerList := gov.mapServerList.assign row.nServerType row.nServerIndex (serverInstanceInfo row)
  if row.nServerType ∉ vecDestServers then { gov with mapServerList := mapServerList }
  else if gov.IsSelf row then { gov with mapServerList := mapServerList }
  else if ((gov.mapConnectServerList.instances row.nServerType).lookup row.nServerIndex).isSome then
    { gov with mapServerList := mapServerList }
  else
    { gov with
      mapServerList := mapServerList
      mapConnectServerList := gov.mapConnectServerList.assign row.nServerType row.nServerIndex (serverInstanceInfo row) }

/-- `pMap` in the order in which the loops go through the map. -/
def initConfig (pMap : List ServerListConfigData) : ServiceGovernmentModule :=
  let gov := { gov with mapConnectServerList := ∅, mapServerList := ∅ }
  match pMap.find? fun row => gov.IsSelf row with
  | some row => pMap.foldl (addServer row.vecConnectList) (gov.initSelf row)
  | none => pMap.foldl (addServer []) gov

/-- A key goes to an index from 1 on, whatever indices there are. -/
def getServerKeyIndex (nServerType : Int32) (strKey : Bytes) : Int32 :=
  match gov.mapServerList.lookup nServerType with
  | none => 0
  | some mapServerInfo => Int32.ofNat ((crc32 strKey).toNat % mapServerInfo.keys.card + 1)

def getServerInstanceInfo (nServerType nServerId : Int32) : Option ServerInstanceInfo :=
  gov.mapServerList.find nServerType nServerId

def getServerSessionId (nServerType nServerId : Int32) : Int64 :=
  match gov.getServerInstanceInfo nServerType nServerId with
  | none => 0
  | some info => info.nSessionId

def getServerSessionIdByKey (nServerType : Int32) (strKey : Bytes) : Int64 :=
  gov.getServerSessionId nServerType (gov.getServerKeyIndex nServerType strKey)

end ServiceGovernmentModule

def Names (nServerType nServerIndex : Int32) (row : ServerListConfigData) : Bool :=
  row.nServerType = nServerType ∧ row.nServerIndex = nServerIndex

variable {t i : Int32} {rows : List ServerListConfigData}

lemma lookup_instances (m : InstanceMap) (t i : Int32) : (m.instances t).lookup i = m.find t i := by
  rw [InstanceMap.instances, InstanceMap.find]
  cases m.lookup t with
  | none => exact Finmap.lookup_empty i
  | some instances => rfl

lemma find_assign (m : InstanceMap) (t' i' : Int32) (info : ServerInstanceInfo) :
    (m.assign t' i' info).find t i = if t' = t ∧ i' = i then some info else m.find t i := by
  rw [InstanceMap.find, InstanceMap.assign]
  by_cases ht : t' = t
  · rw [ht, Finmap.lookup_insert, Option.bind_some]
    by_cases hi : i' = i
    · rw [hi, Finmap.lookup_insert, if_pos ⟨rfl, rfl⟩]
    · rw [Finmap.lookup_insert_of_ne _ (Ne.symm hi), if_neg fun h => hi h.2, lookup_instances]
  · rw [Finmap.lookup_insert_of_ne _ (Ne.symm ht), if_neg fun h => ht h.1, InstanceMap.find]

namespace ServiceGovernmentModule

variable {gov : ServiceGovernmentModule} {vec : List Int32}

lemma mapServerList_addServer (row : ServerListConfigData) :
    (addServer vec gov row).mapServerList = gov.mapServerList.assign row.nServerType row.nServerIndex (serverInstanceInfo row) := by
  rw [addServer]
  split_ifs <;> rfl

lemma mapServerList_foldl (vec : List Int32) (gov : ServiceGovernmentModule) (rows : List ServerListConfigData) :
    (rows.foldl (addServer vec) gov).mapServerList =
      rows.foldl (fun m row => m.assign row.nServerType row.nServerIndex (serverInstanceInfo row)) gov.mapServerList := by
  induction rows generalizing gov with
  | nil => rfl
  | cons row rows ih => rw [List.foldl_cons, ih, mapServerList_addServer, List.foldl_cons]

end ServiceGovernmentModule

lemma find_foldl_assign (m : InstanceMap) (rows : List ServerListConfigData) :
    (rows.foldl (fun m row => m.assign row.nServerType row.nServerIndex (serverInstanceInfo row)) m).find t i =
      ((rows.reverse.find? (Names t i)).map serverInstanceInfo).or (m.find t i) := by
  induction rows using List.reverseRecOn with
  | nil => rfl
  | append_singleton rows row ih =>
    rw [List.foldl_concat, find_assign, List.reverse_concat, List.find?_cons]
    by_cases hrow : row.nServerType = t ∧ row.nServerIndex = i
    · rw [if_pos hrow, show Names t i row = true from decide_eq_true hrow]
      rfl
    · rw [if_neg hrow, show Names t i row = false from decide_eq_false hrow, ih]

namespace ServiceGovernmentModule

variable {gov : ServiceGovernmentModule} {vec : List Int32}

def Connects (vec : List Int32) (gov : ServiceGovernmentModule) (t i : Int32) : Prop :=
  t ∈ vec ∧ ¬ (t = gov.nServerType ∧ i = gov.nServerId)

instance (vec : List Int32) (gov : ServiceGovernmentModule) (t i : Int32) : Decidable (Connects vec gov t i) :=
  instDecidableAnd

lemma connects_addServer (row : ServerListConfigData) : Connects vec (addServer vec gov row) t i ↔ Connects vec gov t i := by
  rw [addServer]
  split_ifs <;> rfl

lemma mapConnectServerList_addServer (row : ServerListConfigData) : (addServer vec gov row).mapConnectServerList =
    if Connects vec gov row.nServerType row.nServerIndex ∧
        gov.mapConnectServerList.find row.nServerType row.nServerIndex = none then
      gov.mapConnectServerList.assign row.nServerType row.nServerIndex (serverInstanceInfo row)
    else gov.mapConnectServerList := by
  rw [addServer]
  by_cases h : Connects vec gov row.nServerType row.nServerIndex ∧
      gov.mapConnectServerList.find row.nServerType row.nServerIndex = none
  · rw [if_pos h, if_neg (not_not_intro h.1.1), if_neg (show ¬ gov.IsSelf row from h.1.2), lookup_instances, h.2,
      if_neg (by simp)]
  · rw [if_neg h]
    split_ifs with hvec hself hcount
    · rfl
    · rfl
    · rw [lookup_instances] at hcount
      exact absurd ⟨⟨hvec, hself⟩, Option.not_isSome_iff_eq_none.mp hcount⟩ h
    · rfl

lemma find_addServer (row : ServerListConfigData) : (addServer vec gov row).mapConnectServerList.find t i =
    (gov.mapConnectServerList.find t i).or
      (if Connects vec gov t i then if Names t i row then some (serverInstanceInfo row) else none else none) := by
  rw [mapConnectServerList_addServer]
  by_cases hrow : row.nServerType = t ∧ row.nServerIndex = i
  · rw [show Names t i row = true from decide_eq_true hrow, if_pos rfl, hrow.1, hrow.2]
    cases hconnect : gov.mapConnectServerList.find t i with
    | none =>
      by_cases hconnects : Connects vec gov t i
      · rw [if_pos ⟨hconnects, rfl⟩, if_pos hconnects, find_assign, if_pos ⟨rfl, rfl⟩, Option.none_or]
      · rw [if_neg fun h => hconnects h.1, if_neg hconnects, hconnect, Option.or_none]
    | some info => rw [if_neg fun h => Option.some_ne_none _ h.2, hconnect, Option.some_or]
  · have hnone : Names t i row = false := decide_eq_false hrow
    rw [hnone, if_neg Bool.false_ne_true, ite_self, Option.or_none]
    split_ifs
    · rw [find_assign, if_neg hrow]
    · rfl

lemma find_foldl_addServer (vec : List Int32) (gov : ServiceGovernmentModule) (rows : List ServerListConfigData) :
    (rows.foldl (addServer vec) gov).mapConnectServerList.find t i = (gov.mapConnectServerList.find t i).or
      (if Connects vec gov t i then (rows.find? (Names t i)).map serverInstanceInfo else none) := by
  induction rows generalizing gov with
  | nil => rw [List.foldl_nil, List.find?_nil, Option.map_none, ite_self, Option.or_none]
  | cons row rows ih =>
    rw [List.foldl_cons, ih, find_addServer, Option.or_assoc, List.find?_cons]
    simp only [connects_addServer]
    by_cases hconnects : Connects vec gov t i
    · rw [if_pos hconnects, if_pos hconnects, if_pos hconnects]
      cases Names t i row with
      | true => rw [if_pos rfl, Option.some_or, Option.map_some]
      | false => rw [if_neg Bool.false_ne_true, Option.none_or]
    · rw [if_neg hconnects, if_neg hconnects, if_neg hconnects, Option.none_or]

def selfRow (gov : ServiceGovernmentModule) (rows : List ServerListConfigData) : Option ServerListConfigData :=
  rows.find? fun row => gov.IsSelf row

/-- Of the rows of one instance the last is looked up and the first is connected to; this server connects to the
instances of the types that its row lists, but not to itself, and without a row to none. -/
theorem initConfig_lists (gov : ServiceGovernmentModule) (rows : List ServerListConfigData) (t i : Int32) :
    (gov.initConfig rows).getServerInstanceInfo t i = (rows.reverse.find? (Names t i)).map serverInstanceInfo ∧
      (gov.initConfig rows).mapConnectServerList.find t i =
        if (∃ self, gov.selfRow rows = some self ∧ t ∈ self.vecConnectList) ∧ ¬ (t = gov.nServerType ∧ i = gov.nServerId) then
          (rows.find? (Names t i)).map serverInstanceInfo
        else none := by
  constructor
  · rw [getServerInstanceInfo, initConfig]
    split
    · rw [mapServerList_foldl, find_foldl_assign]
      exact Option.or_none
    · rw [mapServerList_foldl, find_foldl_assign]
      exact Option.or_none
  · have hinit : gov.initConfig rows = match gov.selfRow rows with
        | some row => rows.foldl (addServer row.vecConnectList)
          (initSelf { gov with mapConnectServerList := ∅, mapServerList := ∅ } row)
        | none => rows.foldl (addServer []) { gov with mapConnectServerList := ∅, mapServerList := ∅ } := rfl
    rw [hinit]
    cases hself : gov.selfRow rows with
    | none =>
      dsimp only
      rw [find_foldl_addServer, if_neg fun h => List.not_mem_nil h.1, if_neg]
      · rfl
      · rintro ⟨⟨self, hsome, -⟩, -⟩
        cases hsome
    | some self =>
      have hconnects : Connects self.vecConnectList gov t i ↔
          (∃ self', some self = some self' ∧ t ∈ self'.vecConnectList) ∧ ¬ (t = gov.nServerType ∧ i = gov.nServerId) := by
        refine and_congr_left fun _ => ⟨fun ht => ⟨self, rfl, ht⟩, ?_⟩
        rintro ⟨self', hsome, ht⟩
        cases hsome
        exact ht
      dsimp only
      rw [find_foldl_addServer, ← if_congr hconnects rfl rfl]
      exact Option.none_or

def indices (rows : List ServerListConfigData) (t : Int32) : Finset Int32 :=
  ((rows.filter fun row => row.nServerType = t).map ServerListConfigData.nServerIndex).toFinset

lemma mem_indices : i ∈ indices rows t ↔ ∃ row ∈ rows, Names t i row := by
  simp only [indices, List.mem_toFinset, List.mem_map, List.mem_filter, Names, decide_eq_true_eq]
  constructor
  · rintro ⟨row, ⟨hmem, ht⟩, hi⟩
    exact ⟨row, hmem, ht, hi⟩
  · rintro ⟨row, hmem, ht, hi⟩
    exact ⟨row, ⟨hmem, ht⟩, hi⟩

lemma indices_perm {rows' : List ServerListConfigData} (h : rows.Perm rows') (t : Int32) : indices rows t = indices rows' t := by
  ext i
  rw [mem_indices, mem_indices]
  exact exists_congr fun row => and_congr_left fun _ => h.mem_iff

lemma keys_assign (m : InstanceMap) (t' i' : Int32) (info : ServerInstanceInfo) :
    ((m.assign t' i' info).lookup t).map Finmap.keys =
      if t' = t then some (insert i' (((m.lookup t).map Finmap.keys).getD ∅)) else (m.lookup t).map Finmap.keys := by
  rw [InstanceMap.assign]
  split_ifs with ht
  · rw [ht, Finmap.lookup_insert, Option.map_some, InstanceMap.instances]
    congr 1
    ext i
    rw [Finmap.mem_keys, Finmap.mem_insert, Finset.mem_insert]
    cases m.lookup t with
    | none => rfl
    | some instances => exact or_congr_right Finmap.mem_keys.symm
  · rw [Finmap.lookup_insert_of_ne _ (Ne.symm ht)]

lemma indices_concat (rows : List ServerListConfigData) (row : ServerListConfigData) (t : Int32) :
    indices (rows ++ [row]) t = if row.nServerType = t then insert row.nServerIndex (indices rows t) else indices rows t := by
  rw [indices, List.filter_append, List.map_append, List.toFinset_append, ← indices]
  split_ifs with ht
  · simp [ht]
  · simp [ht]

lemma keys_foldl_assign (rows : List ServerListConfigData) (t : Int32) :
    ((rows.foldl (fun (m : InstanceMap) row => m.assign row.nServerType row.nServerIndex (serverInstanceInfo row)) ∅).lookup
      t).map Finmap.keys = if (indices rows t).Nonempty then some (indices rows t) else none := by
  induction rows using List.reverseRecOn with
  | nil => rfl
  | append_singleton rows row ih =>
    rw [List.foldl_concat, keys_assign, ih, indices_concat]
    by_cases ht : row.nServerType = t
    · rw [if_pos ht, if_pos ht, if_pos (Finset.insert_nonempty _ _)]
      split_ifs with hnonempty
      · rfl
      · rw [Finset.not_nonempty_iff_eq_empty.mp hnonempty, Option.getD_none]
    · rw [if_neg ht, if_neg ht]

def Lists (rows : List ServerListConfigData) (t : Int32) (gov : ServiceGovernmentModule) : Prop :=
  (gov.mapServerList.lookup t).map Finmap.keys = if (indices rows t).Nonempty then some (indices rows t) else none

lemma lists_initConfig (gov : ServiceGovernmentModule) (rows : List ServerListConfigData) (t : Int32) :
    Lists rows t (gov.initConfig rows) := by
  rw [Lists, initConfig]
  split
  · rw [mapServerList_foldl]
    exact keys_foldl_assign rows t
  · rw [mapServerList_foldl]
    exact keys_foldl_assign rows t

lemma Lists.getServerKeyIndex (h : Lists rows t gov) (strKey : Bytes) : gov.getServerKeyIndex t strKey =
    if (indices rows t).Nonempty then Int32.ofNat ((crc32 strKey).toNat % (indices rows t).card + 1) else 0 := by
  rw [Lists] at h
  rw [ServiceGovernmentModule.getServerKeyIndex]
  cases hlookup : gov.mapServerList.lookup t with
  | none =>
    rw [hlookup, Option.map_none] at h
    split_ifs at h with hnonempty
    rw [if_neg hnonempty]
  | some mapServerInfo =>
    rw [hlookup, Option.map_some] at h
    split_ifs at h with hnonempty
    rw [if_pos hnonempty, ← Option.some.inj h]

lemma Lists.isSome_iff (h : Lists rows t gov) : (gov.getServerInstanceInfo t i).isSome ↔ i ∈ indices rows t := by
  rw [Lists] at h
  rw [getServerInstanceInfo, InstanceMap.find]
  cases hlookup : gov.mapServerList.lookup t with
  | none =>
    rw [hlookup, Option.map_none] at h
    split_ifs at h with hnonempty
    rw [Finset.not_nonempty_iff_eq_empty.mp hnonempty]
    exact iff_of_false (by simp) (Finset.notMem_empty i)
  | some mapServerInfo =>
    rw [hlookup, Option.map_some] at h
    split_ifs at h with hnonempty
    rw [← Option.some.inj h, Finmap.mem_keys, Option.bind_some]
    exact Finmap.lookup_isSome

lemma Lists.getServerSessionId_eq_zero (h : Lists rows t gov) (hi : i ∉ indices rows t) :
    gov.getServerSessionId t i = 0 := by
  rw [← h.isSome_iff, Option.not_isSome_iff_eq_none] at hi
  rw [getServerSessionId, hi]

lemma exists_crc32 (v : UInt32) : ∃ strKey, crc32 strKey = v := by
  have hinjective : Function.Injective fun w => crc32 (Endian.little.bytes w) := by
    intro w w' h
    by_contra hne
    have hbytes : Endian.little.bytes w ≠ Endian.little.bytes w' := fun heq => hne (Endian.bytes_injective _ heq)
    have hcrc := crc32_ne [] [] (by rw [Endian.bytes_length, Endian.bytes_length]) (Endian.bytes_length _ w).le hbytes
    rw [List.nil_append, List.append_nil, List.nil_append, List.append_nil] at hcrc
    exact hcrc h
  obtain ⟨w, hw⟩ := Finite.injective_iff_surjective.mp hinjective v
  exact ⟨_, hw⟩

lemma card_indices_le (s : Finset Int32) : s.card ≤ 2 ^ 32 := by
  have hcard := Finset.card_le_card_of_injOn (s := s) (t := Finset.range (2 ^ 32)) (fun v => v.toBitVec.toNat)
    (fun v _ => Finset.mem_coe.mpr (Finset.mem_range.mpr v.toBitVec.isLt))
    (fun v _ w _ h => Int32.toBitVec_inj.mp (BitVec.toNat_inj.mp h))
  rwa [Finset.card_range] at hcard

lemma exists_key {n r : ℕ} (hn : n ≤ 2 ^ 32) (hr : r < n) : ∃ strKey, (crc32 strKey).toNat % n = r := by
  obtain ⟨strKey, hcrc⟩ := exists_crc32 (UInt32.ofNat r)
  refine ⟨strKey, ?_⟩
  rw [hcrc, UInt32.toNat_ofNat', Nat.mod_eq_of_lt (hr.trans_le hn), Nat.mod_eq_of_lt hr]

def spread (n : ℕ) : Finset Int32 := (Finset.range n).image fun r => Int32.ofNat (r + 1)

lemma card_spread {n : ℕ} (hn : n ≤ 2 ^ 32) : (spread n).card = n := by
  rw [spread, Finset.card_image_of_injOn, Finset.card_range]
  intro r hr r' hr' h
  have hlt := Finset.mem_range.mp (Finset.mem_coe.mp hr)
  have hlt' := Finset.mem_range.mp (Finset.mem_coe.mp hr')
  have hbits := congrArg (fun v => v.toBitVec.toNat) h
  simp only [Int32.toBitVec_ofNat', BitVec.toNat_ofNat] at hbits
  omega

lemma spread_subset_iff {s : Finset Int32} : spread s.card ⊆ s ↔ s = spread s.card := by
  constructor
  · intro h
    refine (Finset.eq_of_subset_of_card_le h ?_).symm
    rw [card_spread (card_indices_le s)]
  · intro h
    exact h.symm.subset

lemma Lists.forall_mem_iff (h : Lists rows t gov) : (∀ strKey, gov.getServerKeyIndex t strKey ∈ indices rows t) ↔
    (indices rows t).Nonempty ∧ indices rows t = spread (indices rows t).card := by
  simp only [h.getServerKeyIndex]
  constructor
  · intro hmem
    have hnonempty : (indices rows t).Nonempty := ⟨_, hmem []⟩
    refine ⟨hnonempty, spread_subset_iff.mp fun index hindex => ?_⟩
    obtain ⟨r, hr, rfl⟩ := Finset.mem_image.mp hindex
    obtain ⟨strKey, hkey⟩ := exists_key (card_indices_le _) (Finset.mem_range.mp hr)
    have hmem := hmem strKey
    rwa [if_pos hnonempty, hkey] at hmem
  · rintro ⟨hnonempty, hspread⟩ strKey
    rw [if_pos hnonempty]
    refine spread_subset_iff.mpr hspread (Finset.mem_image.mpr ⟨_, Finset.mem_range.mpr ?_, rfl⟩)
    exact Nat.mod_lt _ (Finset.card_pos.mpr hnonempty)

lemma Lists.exists_strKey (h : Lists rows t gov) (hspread : indices rows t = spread (indices rows t).card) {index : Int32}
    (hindex : index ∈ indices rows t) : ∃ strKey, gov.getServerKeyIndex t strKey = index := by
  have hnonempty : (indices rows t).Nonempty := ⟨index, hindex⟩
  rw [hspread] at hindex
  obtain ⟨r, hr, rfl⟩ := Finset.mem_image.mp hindex
  obtain ⟨strKey, hkey⟩ := exists_key (card_indices_le _) (Finset.mem_range.mp hr)
  refine ⟨strKey, ?_⟩
  rw [h.getServerKeyIndex, if_pos hnonempty, hkey]

/-- All servers with one configuration, in whatever order they go through it, send a key to the same index. Each key
has an instance exactly when the indices of the type are those from 1 to their number, and then each instance has
a key; and each key has a session exactly when besides each of these instances has one. -/
theorem key_routing (rows : List ServerListConfigData) (t : Int32) :
    (∀ (gov gov' : ServiceGovernmentModule) (rows' : List ServerListConfigData) (strKey : Bytes), rows.Perm rows' →
      (gov.initConfig rows).getServerKeyIndex t strKey = (gov'.initConfig rows').getServerKeyIndex t strKey) ∧
    (∀ gov : ServiceGovernmentModule,
      ((∀ strKey, ((gov.initConfig rows).getServerInstanceInfo t
          ((gov.initConfig rows).getServerKeyIndex t strKey)).isSome) ↔
        (indices rows t).Nonempty ∧ indices rows t = spread (indices rows t).card) ∧
      (indices rows t = spread (indices rows t).card → ∀ index ∈ indices rows t, ∃ strKey,
        (gov.initConfig rows).getServerKeyIndex t strKey = index)) ∧
    ∀ gov : ServiceGovernmentModule, Lists rows t gov → ((∀ strKey, gov.getServerSessionIdByKey t strKey ≠ 0) ↔
      ((indices rows t).Nonempty ∧ indices rows t = spread (indices rows t).card) ∧
        ∀ index ∈ indices rows t, gov.getServerSessionId t index ≠ 0) := by
  refine ⟨?_, fun gov => ⟨?_, ?_⟩, ?_⟩
  · intro gov gov' rows' strKey hperm
    rw [(lists_initConfig gov rows t).getServerKeyIndex, (lists_initConfig gov' rows' t).getServerKeyIndex,
      indices_perm hperm]
  · simp only [(lists_initConfig gov rows t).isSome_iff]
    exact (lists_initConfig gov rows t).forall_mem_iff
  · intro hspread index hindex
    exact (lists_initConfig gov rows t).exists_strKey hspread hindex
  · intro gov h
    constructor
    · intro hsession
      have hspread : (indices rows t).Nonempty ∧ indices rows t = spread (indices rows t).card := by
        apply h.forall_mem_iff.mp
        intro strKey
        by_contra hmem
        exact hsession strKey (h.getServerSessionId_eq_zero hmem)
      refine ⟨hspread, fun index hindex => ?_⟩
      obtain ⟨strKey, rfl⟩ := h.exists_strKey hspread.2 hindex
      exact hsession strKey
    · rintro ⟨hspread, hsession⟩ strKey
      exact hsession _ (h.forall_mem_iff.mpr hspread strKey)

def twoServers : List ServerListConfigData :=
  [{ nId := 1, nServerType := 2, nServerIndex := 1 }, { nId := 2, nServerType := 2, nServerIndex := 2 }]

def gateServer : ServiceGovernmentModule := { nServerType := 1, nServerId := 1 }

def connectedGate : ServiceGovernmentModule := { gateServer.initConfig twoServers with
  mapServerList := ((gateServer.initConfig twoServers).mapServerList.assign 2 1 { nSessionId := 7 }).assign 2 2
    { nSessionId := 9 } }

lemma indices_twoServers : indices twoServers 2 = {1, 2} := by decide

lemma lists_connectedGate : Lists twoServers 2 connectedGate := by
  have hconfigured := lists_initConfig gateServer twoServers 2
  rw [Lists, indices_twoServers, if_pos ⟨1, by decide⟩] at hconfigured ⊢
  change (((InstanceMap.assign _ 2 1 _).assign 2 2 _).lookup 2).map Finmap.keys = _
  rw [keys_assign, if_pos rfl, keys_assign, if_pos rfl, hconfigured]
  exact congrArg some (by decide)

theorem key_routing_twoServers :
    (∀ strKey, (gateServer.initConfig twoServers).getServerKeyIndex 2 strKey =
      (gateServer.initConfig twoServers.reverse).getServerKeyIndex 2 strKey) ∧
    (∃ strKey, (gateServer.initConfig twoServers).getServerKeyIndex 2 strKey = 2) ∧
      ∀ strKey, connectedGate.getServerSessionIdByKey 2 strKey ≠ 0 := by
  obtain ⟨hsame, hinstances, hsessions⟩ := key_routing twoServers 2
  rw [indices_twoServers] at hinstances hsessions
  have hspread : ({1, 2} : Finset Int32) = spread ({1, 2} : Finset Int32).card := by decide
  refine ⟨fun strKey => hsame _ _ _ strKey twoServers.reverse_perm.symm, ?_, ?_⟩
  · exact (hinstances gateServer).2 hspread 2 (by decide)
  · rw [hsessions connectedGate lists_connectedGate]
    refine ⟨⟨⟨1, by decide⟩, hspread⟩, fun index hindex => ?_⟩
    rw [getServerSessionId, getServerInstanceInfo, connectedGate]
    rcases Finset.mem_insert.mp hindex with rfl | hindex
    · rw [find_assign, if_neg (by decide), find_assign, if_pos ⟨rfl, rfl⟩]
      decide
    · rw [Finset.mem_singleton.mp hindex, find_assign, if_pos ⟨rfl, rfl⟩]
      decide

end ServiceGovernmentModule

end TonyCat.Service.ServerRouting
