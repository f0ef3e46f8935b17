import TonyCat.Database.Isolation
import TonyCat.Database.KeyPath

set_option autoImplicit false

/-! Index mode and a singular table without key fields: its element and its index share one key. -/

namespace TonyCat.Database

open TonyCat.Library

namespace PbMessageKVHandle

variable (H : PbMessageKVHandle)

def commonKeyList : Bytes → Message → Bytes
  | ck, [] => ck
  | ck, .key f :: m => commonKeyList (appendRawData H.native ck (H.keyText f)) m
  | ck, .table _ :: m => commonKeyList ck m

lemma tableOps_append (m m' : Message) (ck : Bytes) :
    H.tableOps ck (m ++ m') = H.tableOps ck m ++ H.tableOps (H.commonKeyList ck m) m' := by
  induction m generalizing ck with
  | nil => rfl
  | cons f m ih =>
    cases f with
    | key f => exact ih _
    | table f => exact congrArg (_ :: ·) (ih _)

lemma tableOps_table {ck : Bytes} {m : Message} {op : Bytes × Table} (h : op ∈ H.tableOps ck m) :
    op.2 ∈ m.tables := by
  rw [← H.tableOps_snd m ck]
  exact List.mem_map_of_mem h

end PbMessageKVHandle

namespace PbMessageKVHandle

variable (H : PbMessageKVHandle)

def keyTexts (m : Message) : List Bytes :=
  m.filterMap fun f => match f with
    | .key f => some (H.keyText f)
    | .table _ => none

lemma owned_append (us : List Bytes) (m m' : Message) :
    H.owned us (m ++ m') = H.owned us m ++ H.owned (us ++ H.keyTexts m) m' := by
  induction m generalizing us with
  | nil => simp [owned, keyTexts]
  | cons f m ih =>
    cases f with
    | key f =>
      rw [List.cons_append, owned, owned, ih, List.append_assoc]
      rfl
    | table f =>
      rw [List.cons_append, owned, owned, ih]
      rfl

lemma commonKeyList_records (us : List Bytes) (m : Message) :
    H.commonKeyList (records H.native us) m = records H.native (us ++ H.keyTexts m) := by
  induction m generalizing us with
  | nil => simp [commonKeyList, keyTexts]
  | cons f m ih =>
    cases f with
    | key f =>
      rw [commonKeyList, appendRawData_eq, show records H.native us ++ record H.native (H.keyText f) =
        records H.native (us ++ [H.keyText f]) by simp, ih, List.append_assoc]
      rfl
    | table f => exact ih us

end PbMessageKVHandle

/-- A singular table without key fields among the other fields of its message, with the common keys of one
user and no table set. -/
structure SingularTable (H : PbMessageKVHandle) where
  before : Message
  table : Table
  after : Message
  singular : table.isRepeated = false
  noKey : dbKeyFields H.keys table.descriptor = []
  unset : ∀ f ∈ Message.tables (before ++ .table table :: after), f.elems = []
  nodup : ((tablesAt 0 (Message.decls (before ++ .table table :: after))).map fun t => t.2.1).Nodup
  noSpacer : ∀ t ∈ tablesAt 0 (Message.decls (before ++ .table table :: after)), (35 : UInt8) ∉ t.2.1
  short : ∀ f, Field.key f ∈ before → (H.keyText f).length < 2 ^ 32

namespace SingularTable

open PbMessageKVHandle

variable {H : PbMessageKVHandle} (T : SingularTable H)

abbrev Content :=
  { e : Element // e.descriptor = T.table.descriptor }

def user : List Bytes :=
  H.keyTexts T.before

def commonKey : Bytes :=
  H.commonKeyList [] T.before

def key : Bytes :=
  indexKey T.table.name T.commonKey

def message : Message :=
  T.before ++ .table T.table :: T.after

def carrying (e : T.Content) : Message :=
  T.before ++ .table (T.table.put e.1 e.2) :: T.after

structure Typed (m : Message) : Prop where
  decls : m.decls = T.message.decls
  keys : ∀ f, Field.key f ∈ m → (H.keyText f).length < 2 ^ 32

/-- What a message has in the table, if it is one of the user. -/
def elemsOf (m : Message) : List Element :=
  ((H.owned [] m).filter fun o => o.1 = T.user ∧ o.2.name = T.table.name).flatMap fun o => o.2.elems

/-- The value after the last update that was not followed by a delete. -/
def last (calls : List KVCall) : Option Element :=
  calls.foldl (fun v c => match c with
    | .update m => (T.elemsOf m).getLast?.or v
    | .delete m => if T.elemsOf m = [] then v else none) none

def Loads (store : Store) (v : Option Element) : Prop :=
  ∃ g, H.loadTable T.commonKey store T.table = some g ∧ g.elems = v.toList ∧
    ∀ loaded, H.messageLoadOnKV store T.message = some loaded → loaded[T.before.length]? = some (.table g)

/-- In every state of the run a load returns the last value, and no element was put under the index key. -/
def Survives (calls : List KVCall) : Prop :=
  (∀ done, done <+: calls → ∃ store, run (KVCall.exec H) ∅ done = some store ∧ T.Loads store (T.last done)) ∧
    ∀ m, KVCall.update m ∈ calls → ∀ o ∈ H.owned [] m, ∀ e ∈ o.2.elems,
      H.elementKey o.2 (records H.native o.1) e ≠ T.key

lemma dbKeyTexts_nil (e : T.Content) : H.dbKeyTexts e.1 = [] := by
  rw [← List.length_eq_zero_iff, H.dbKeyTexts_length, e.2, T.noKey]
  rfl

lemma getMessageElementKey_eq_key (e : T.Content) :
    H.getMessageElementKey T.table.name T.commonKey e.1 = T.key := by
  rw [H.getMessageElementKey_eq, T.dbKeyTexts_nil]
  exact List.append_nil _

lemma run_unset {step : Store → Bytes × Table → Option Store} {ops : List (Bytes × Table)}
    (h : ∀ op ∈ ops, ∀ store, step store op = some store) (store : Store) :
    run step store ops = some store := by
  induction ops with
  | nil => rfl
  | cons op ops ih =>
    rw [run, h op (by simp)]
    exact ih fun o ho => h o (by simp [ho])

lemma messageUpdateOnKV_carrying (e : T.Content) (store : Store) :
    H.messageUpdateOnKV store (T.carrying e) =
      H.updateTable T.commonKey store (T.table.put e.1 e.2) := by
  have hskip : ∀ op : Bytes × Table, op.2.elems = [] → ∀ store, H.updateTable op.1 store op.2 = some store :=
    fun op he store => by rw [updateTable, if_pos he]
  have hbefore : ∀ op ∈ H.tableOps [] T.before, ∀ store, H.updateTable op.1 store op.2 = some store :=
    fun op hop => hskip op (T.unset _ (by
      rw [Message.tables, List.filterMap_append]
      exact List.mem_append_left _ (H.tableOps_table hop)))
  have hafter : ∀ op ∈ H.tableOps T.commonKey T.after, ∀ store, H.updateTable op.1 store op.2 = some store :=
    fun op hop => hskip op (T.unset _ (by
      rw [Message.tables, List.filterMap_append, List.filterMap_cons]
      exact List.mem_append_right _ (List.mem_cons_of_mem _ (H.tableOps_table hop))))
  have hops : H.tableOps [] (T.carrying e) = H.tableOps [] T.before ++
      (T.commonKey, T.table.put e.1 e.2) :: H.tableOps T.commonKey T.after := H.tableOps_append _ _ _
  rw [messageUpdateOnKV, H.updateFields_eq, hops, run_append, run_unset hbefore, Option.bind_some, run]
  cases H.updateTable T.commonKey store (T.table.put e.1 e.2) with
  | none => rfl
  | some store' => exact run_unset hafter store'

lemma messageUpdateOnKV_eq (hidx : H.funRang = none) (e : T.Content) (store : Store) :
    H.messageUpdateOnKV store (T.carrying e) = (paserSet H.native (store.get T.key)).map fun setKeys =>
      if T.key ∈ setKeys then store.put T.key (H.rt.serializeAsString e.1)
      else (store.put T.key (H.rt.serializeAsString e.1)).put T.key
        (packetList H.native (H.order (setKeys.insert T.key))) := by
  have hkey : H.getMessageElementKey (T.table.put e.1 e.2).name T.commonKey e.1 = T.key :=
    T.getMessageElementKey_eq_key e
  have hindex : indexKey (T.table.put e.1 e.2).name T.commonKey = T.key := rfl
  have hrep : (T.table.put e.1 e.2).isRepeated = false := T.singular
  have helems : (T.table.put e.1 e.2).elems = [e.1] := by simp [Table.put, T.singular]
  rw [T.messageUpdateOnKV_carrying]
  simp only [updateTable, readSetKeys, strCommonKey,
    hidx, Option.isNone_none, if_true, helems, hrep, hindex, if_neg (List.cons_ne_nil e.1 [])]
  congr 1
  funext setKeys
  by_cases hm : T.key ∈ setKeys
  · simp [updateSingular, hkey, hm]
  · simp [updateSingular, hkey, hm]

lemma loadFields_at {store : Store} {g : Table} (m : Message) (ck : Bytes)
    (hg : H.loadTable (H.commonKeyList ck m) store T.table = some g) {loaded : Message}
    (h : H.loadFields store ck (m ++ .table T.table :: T.after) = some loaded) :
    loaded[m.length]? = some (.table g) := by
  induction m generalizing ck loaded with
  | nil =>
    rw [List.nil_append, loadFields] at h
    obtain ⟨g', hg', h⟩ := Option.bind_eq_some_iff.mp h
    obtain ⟨rest, -, rfl⟩ := Option.map_eq_some_iff.mp h
    obtain rfl := Option.some.inj (hg.symm.trans hg')
    rfl
  | cons f m ih =>
    cases f with
    | key f =>
      rw [List.cons_append, loadFields] at h
      obtain ⟨rest, hrest, rfl⟩ := Option.map_eq_some_iff.mp h
      exact ih _ hg hrest
    | table f =>
      rw [List.cons_append, loadFields] at h
      obtain ⟨f', -, h⟩ := Option.bind_eq_some_iff.mp h
      obtain ⟨rest, hrest, rfl⟩ := Option.map_eq_some_iff.mp h
      exact ih _ hg hrest

lemma loads_iff (hidx : H.funRang = none) {store : Store} {v : Option Element} :
    T.Loads store v ↔ ∃ vecKeySet, paserList H.native (store.get T.key) = some vecKeySet ∧
      ((vecKeySet.map store.get).foldl H.addParsed T.table).elems = v.toList := by
  have hunset : T.table.elems = [] := T.unset _ (by simp [Message.tables])
  rw [Loads, loadTable_empty hidx _ _ _ hunset]
  constructor
  · rintro ⟨g, hg, helems, -⟩
    obtain ⟨vecKeySet, hv, rfl⟩ := Option.map_eq_some_iff.mp hg
    exact ⟨vecKeySet, hv, helems⟩
  · rintro ⟨vecKeySet, hv, helems⟩
    have hg := congrArg (Option.map fun ks => (ks.map store.get).foldl H.addParsed T.table) hv
    refine ⟨_, hg, helems, fun loaded hloaded => T.loadFields_at T.before [] ?_ hloaded⟩
    rw [loadTable_empty hidx _ _ _ hunset]
    exact hg

lemma first_update (hidx : H.funRang = none) (e : T.Content) :
    ∃ store, H.messageUpdateOnKV ∅ (T.carrying e) = some store ∧
      store.get T.key = packetList H.native [T.key] := by
  have horder : H.order [T.key] = [T.key] := List.perm_singleton.mp (H.order_perm _)
  rw [T.messageUpdateOnKV_eq hidx, Store.get_empty, paserSet_nil]
  refine ⟨_, rfl, ?_⟩
  simp [horder]

lemma second_update (hidx : H.funRang = none) (hkey : T.key.length < 2 ^ 32 - 5) (e : T.Content)
    {store : Store} (hs : store.get T.key = packetList H.native [T.key]) :
    ∃ store', H.messageUpdateOnKV store (T.carrying e) = some store' ∧
      store'.get T.key = H.rt.serializeAsString e.1 := by
  have hpack : Packable H.native [T.key] := by
    refine ⟨by simp [key, indexKey_ne_nil], ?_⟩
    simp only [records_cons, records_nil, List.append_nil, record_length]
    omega
  rw [T.messageUpdateOnKV_eq hidx, hs, paserSet_packetList hpack (List.nodup_singleton _)]
  refine ⟨_, rfl, ?_⟩
  simp

lemma two_updates (hidx : H.funRang = none) (hkey : T.key.length < 2 ^ 32 - 5) (e : T.Content) :
    ∃ store, run (KVCall.exec H) ∅ [.update (T.carrying e), .update (T.carrying e)] = some store ∧
      store.get T.key = H.rt.serializeAsString e.1 := by
  obtain ⟨store₁, hu₁, hs₁⟩ := T.first_update hidx e
  obtain ⟨store₂, hu₂, hs₂⟩ := T.second_update hidx hkey e hs₁
  refine ⟨store₂, ?_, hs₂⟩
  simp only [run, KVCall.exec, hu₁, hu₂, Option.bind_some]

lemma two_updates_lost (hidx : H.funRang = none) (hkey : T.key.length < 2 ^ 32 - 5) (e : T.Content)
    (he : paserList H.native (H.rt.serializeAsString e.1) = some []) :
    ∃ store, run (KVCall.exec H) ∅ [.update (T.carrying e), .update (T.carrying e)] = some store ∧
      ¬ T.Loads store (some e.1) := by
  obtain ⟨store, hrun, hs⟩ := T.two_updates hidx hkey e
  refine ⟨store, hrun, fun hload => ?_⟩
  obtain ⟨vecKeySet, hv, helems⟩ := (T.loads_iff hidx).mp hload
  rw [hs, he] at hv
  obtain rfl : [] = vecKeySet := Option.some.inj hv
  rw [List.map_nil, List.foldl_nil, T.unset _ (by simp [Message.tables])] at helems
  cases helems

lemma commonKey_eq : T.commonKey = records H.native T.user :=
  H.commonKeyList_records [] T.before

lemma owned_table : (T.user, T.table) ∈ H.owned [] T.message := by
  rw [message, owned_append, List.nil_append, owned]
  exact List.mem_append_right _ List.mem_cons_self

lemma user_short : Short T.user := by
  intro xs hxs
  obtain ⟨f, hf, hxs⟩ := List.mem_filterMap.mp hxs
  cases f with
  | key f =>
    cases hxs
    exact T.short f hf
  | table f => cases hxs

variable {T}

lemma Typed.mem_tablesAt {m : Message} (hm : T.Typed m) {o : List Bytes × Table} (ho : o ∈ H.owned [] m) :
    (o.1.length, (o.2.name, o.2.descriptor)) ∈ tablesAt 0 T.message.decls := by
  have hdecls := H.owned_decls [] m
  rw [hm.decls] at hdecls
  exact hdecls ▸ List.mem_map_of_mem ho

lemma Typed.own_or_apart {m : Message} (hm : T.Typed m) {o : List Bytes × Table} (ho : o ∈ H.owned [] m) :
    (o.1 = T.user ∧ o.2.name = T.table.name ∧ o.2.descriptor = T.table.descriptor) ∨
      Apart (indexKey o.2.name (records H.native o.1)) T.key := by
  have hmem := hm.mem_tablesAt ho
  have hself : (T.user.length, (T.table.name, T.table.descriptor)) ∈ tablesAt 0 T.message.decls := by
    have hdecls := H.owned_decls [] T.message
    exact hdecls ▸ List.mem_map_of_mem T.owned_table
  rw [key, commonKey_eq]
  by_cases hname : o.2.name = T.table.name
  · have heq := List.inj_on_of_nodup_map T.nodup hmem hself hname
    rw [Prod.mk.injEq, Prod.mk.injEq] at heq
    by_cases huser : o.1 = T.user
    · exact .inl ⟨huser, heq.2⟩
    · refine .inr fun a b hab => huser ?_
      rw [hname] at hab
      obtain ⟨-, hrest⟩ := indexKey_append_inj (T.noSpacer _ hself) (T.noSpacer _ hself) hab
      exact (records_append_inj H.native (owned_short (List.forall_mem_nil _) hm.keys o ho) T.user_short heq.1
        hrest).1
  · exact .inr (apart_of_table (T.noSpacer _ hmem) (T.noSpacer _ hself) hname)

lemma mem_elemsOf {m : Message} {o : List Bytes × Table} (ho : o ∈ H.owned [] m) (huser : o.1 = T.user)
    (hname : o.2.name = T.table.name) {e : Element} (he : e ∈ o.2.elems) : e ∈ T.elemsOf m := by
  refine List.mem_flatMap.mpr ⟨o, List.mem_filter.mpr ⟨ho, ?_⟩, he⟩
  rw [decide_eq_true_eq]
  exact ⟨huser, hname⟩

lemma Typed.elementKey_eq_key {m : Message} (hm : T.Typed m) {o : List Bytes × Table} (ho : o ∈ H.owned [] m)
    {e : Element} (he : e ∈ o.2.elems) :
    H.elementKey o.2 (records H.native o.1) e = T.key ↔ o.1 = T.user ∧ o.2.name = T.table.name := by
  rw [H.elementKey_eq]
  obtain ⟨huser, hname, hdescriptor⟩ | hapart := hm.own_or_apart ho
  · refine iff_of_true ?_ ⟨huser, hname⟩
    have htexts : H.dbKeyTexts e = [] := by
      rw [← List.length_eq_zero_iff, H.dbKeyTexts_length, o.2.typed e he, hdescriptor, T.noKey]
      rfl
    rw [htexts, records_nil, List.append_nil, huser, hname, key, commonKey_eq]
  · refine iff_of_false (fun heq => hapart _ [] (heq.trans (List.append_nil _).symm)) ?_
    rintro ⟨huser, hname⟩
    apply hapart [] []
    rw [huser, hname, key, commonKey_eq]

lemma lookup_deleteTable (hidx : H.funRang = none) {ck : Bytes} {store store' : Store} {f : Table}
    (hnone : store.lookup (indexKey f.name ck) = none) (h : H.deleteTable ck store f = some store') :
    store'.lookup (indexKey f.name ck) = none := by
  by_cases hunset : f.elems = []
  · rw [deleteTable, if_pos hunset] at h
    cases h
    exact hnone
  · have hget : store.get (indexKey f.name ck) = [] := by simp only [Store.get, hnone]; rfl
    have hleft : ∀ ks : List Bytes, ks.foldl List.erase ([] : List Bytes) = [] := by
      intro ks
      induction ks with
      | nil => rfl
      | cons k ks ih => exact ih
    rw [deleteTable_eq hidx _ _ _ hunset, hget, paserSet_nil, Option.map_some] at h
    simp only [hleft, if_true, Option.some.injEq] at h
    rw [← h]
    exact AList.lookup_erase _ _

lemma lookup_tableStep (hidx : H.funRang = none) {c : KVCall} (hc : T.Typed c.message)
    (halone : ∀ m, c = .update m → T.elemsOf m = []) {o : List Bytes × Table} (ho : o ∈ H.owned [] c.message)
    {store store' : Store} (hnone : store.lookup T.key = none)
    (h : c.tableStep H store (records H.native o.1, o.2) = some store') : store'.lookup T.key = none := by
  obtain ⟨huser, hname, -⟩ | hapart := hc.own_or_apart ho
  · have hkey : T.key = indexKey o.2.name (records H.native o.1) := by rw [huser, hname, key, commonKey_eq]
    rw [hkey] at hnone ⊢
    cases c with
    | update m =>
      have hunset : o.2.elems = [] := by
        by_contra hset
        obtain ⟨e, he⟩ := List.exists_mem_of_ne_nil _ hset
        have hmem : e ∈ T.elemsOf m := mem_elemsOf ho huser hname he
        rw [halone m rfl] at hmem
        cases hmem
      rw [tableStep_unset _ _ hunset] at h
      cases h
      exact hnone
    | delete m => exact lookup_deleteTable hidx hnone h
  · have hframe := tableStep_frame c h (indexKey_ne_nil T.table.name T.commonKey)
      (hapart.symm.not_initial List.prefix_rfl)
    exact hframe.trans hnone

lemma lookup_exec (hidx : H.funRang = none) {c : KVCall} (hc : T.Typed c.message)
    (halone : ∀ m, c = .update m → T.elemsOf m = []) {store store' : Store} (hnone : store.lookup T.key = none)
    (h : c.exec H store = some store') : store'.lookup T.key = none := by
  have hops := H.tableOps_owned [] c.message
  rw [records_nil] at hops
  rw [c.exec_eq] at h
  apply (ops_meet c store).invariant (I := fun s => s.lookup T.key = none) hnone ?_ h
  intro _ s op t hs hop hone
  rw [hops] at hop
  obtain ⟨o, ho, rfl⟩ := List.mem_map.mp hop
  exact lookup_tableStep hidx hc halone ho hs hone

lemma lookup_run (hidx : H.funRang = none) {calls : List KVCall} (hcalls : ∀ c ∈ calls, T.Typed c.message)
    (halone : ∀ m, KVCall.update m ∈ calls → T.elemsOf m = []) {store : Store}
    (h : run (KVCall.exec H) ∅ calls = some store) : store.lookup T.key = none ∧ T.last calls = none := by
  induction calls using List.reverseRecOn generalizing store with
  | nil =>
    cases h
    exact ⟨rfl, rfl⟩
  | append_singleton calls c ih =>
    rw [run_concat] at h
    obtain ⟨before, hbefore, h⟩ := Option.bind_eq_some_iff.mp h
    obtain ⟨hnone, hlast⟩ := ih (fun c' hc' => hcalls c' (List.mem_append_left _ hc'))
      (fun m hm => halone m (List.mem_append_left _ hm)) hbefore
    have hc : ∀ m, c = .update m → T.elemsOf m = [] := by
      rintro m rfl
      exact halone m (List.mem_append_right _ List.mem_cons_self)
    refine ⟨lookup_exec hidx (hcalls c (List.mem_append_right _ List.mem_cons_self)) hc hnone h, ?_⟩
    rw [last, List.foldl_append, ← last, hlast]
    cases c with
    | update m =>
      rw [List.foldl_cons, List.foldl_nil]
      dsimp only
      rw [hc m rfl]
      rfl
    | delete m =>
      rw [List.foldl_cons, List.foldl_nil]
      dsimp only
      split_ifs <;> rfl

variable (T)

lemma loads_none (hidx : H.funRang = none) {store : Store} (h : store.lookup T.key = none) : T.Loads store none := by
  refine (T.loads_iff hidx).mpr ⟨[], ?_, ?_⟩
  · simp only [Store.get, h]
    exact paserList_nil
  · exact T.unset _ (by simp [Message.tables])

theorem survives_iff (hidx : H.funRang = none) {calls : List KVCall} (hcalls : ∀ c ∈ calls, T.Typed c.message)
    {store : Store} (hrun : run (KVCall.exec H) ∅ calls = some store) :
    T.Survives calls ↔ ∀ m, KVCall.update m ∈ calls → T.elemsOf m = [] := by
  constructor
  · rintro ⟨-, hkeys⟩ m hm
    by_contra hset
    obtain ⟨e, he⟩ := List.exists_mem_of_ne_nil _ hset
    obtain ⟨o, ho, he⟩ := List.mem_flatMap.mp he
    obtain ⟨ho, hown⟩ := List.mem_filter.mp ho
    rw [decide_eq_true_eq] at hown
    exact hkeys m hm o ho e he (((hcalls _ hm).elementKey_eq_key ho he).mpr hown)
  · intro halone
    refine ⟨fun done hd => ?_, fun m hm o ho e he heq => ?_⟩
    · obtain ⟨store, hrun⟩ := run_of_initial hd hrun
      refine ⟨store, hrun, ?_⟩
      obtain ⟨hnone, hlast⟩ := lookup_run hidx (fun c hc => hcalls c (hd.subset hc))
        (fun m hm => halone m (hd.subset hm)) hrun
      rw [hlast]
      exact T.loads_none hidx hnone
    · obtain ⟨huser, hname⟩ := ((hcalls _ hm).elementKey_eq_key ho he).mp heq
      have hmem := mem_elemsOf ho huser hname he
      rw [halone m hm] at hmem
      cases hmem

end SingularTable

namespace UserData

def userBaseOf (user_name : Bytes) (update_time : Int64) : Element where
  descriptor := userBase
  values := [.string user_name, .int64 update_time]
  typed := rfl

def userBaseUnset : Table := ⟨ascii "user_base", false, userBase, [], Table.typed_nil userBase, Table.single_nil⟩

def userDataUnset : Message :=
  [.key (userId (ascii "u1"))] ++ .table userBaseUnset :: [.table (userCounts []), .table (clientCaches [])]

lemma userDataUnset_unset : ∀ f ∈ userDataUnset.tables, f.elems = [] := by
  simp [userDataUnset, Message.tables, userBaseUnset, userCounts, clientCaches]

lemma userDataUnset_nodup : ((tablesAt 0 userDataUnset.decls).map fun t => t.2.1).Nodup := by
  decide

lemma userDataUnset_noSpacer : ∀ t ∈ tablesAt 0 userDataUnset.decls, (35 : UInt8) ∉ t.2.1 := by
  decide

lemma keyText_userId_short : ∀ f, Field.key f ∈ [Field.key (userId (ascii "u1"))] → (indexMode.keyText f).length < 2 ^ 32 := by
  intro f hf
  obtain rfl : f = userId (ascii "u1") := by simpa using hf
  decide +kernel

def userBaseTable : SingularTable indexMode where
  before := [.key (userId (ascii "u1"))]
  table := userBaseUnset
  after := [.table (userCounts []), .table (clientCaches [])]
  singular := rfl
  noKey := rfl
  unset := userDataUnset_unset
  nodup := userDataUnset_nodup
  noSpacer := userDataUnset_noSpacer
  short := keyText_userId_short

def bob : userBaseTable.Content := ⟨userBaseOf (ascii "bob") 0, rfl⟩

def countsOf (user_id : Bytes) : Message :=
  [.key (userId user_id), .table userBaseTable.table, .table (userCounts [(1, 1, 5)]), .table (clientCaches [])]

def bobOf (user_id : Bytes) : Message :=
  [.key (userId user_id), .table (userBaseTable.table.put bob.1 bob.2), .table (userCounts []), .table (clientCaches [])]

lemma typed_of_userId {m : Message} {user_id : Bytes} (fields : List Table)
    (hm : m = .key (userId user_id) :: fields.map Field.table) (hdecls : m.decls = userBaseTable.message.decls)
    (hshort : (indexMode.keyText (userId user_id)).length < 2 ^ 32) : userBaseTable.Typed m := by
  refine ⟨hdecls, fun f hf => ?_⟩
  subst hm
  obtain rfl : f = userId user_id := by simpa using hf
  exact hshort

/-- Counts of the user, a delete of the user's `user_base` and an update of another user's. -/
theorem userBase_survives :
    userBaseTable.Survives [.update (countsOf (ascii "u1")), .delete (bobOf (ascii "u1")), .update (bobOf (ascii "u2"))] := by
  have hdefined : (run (KVCall.exec indexMode) ∅
      [.update (countsOf (ascii "u1")), .delete (bobOf (ascii "u1")), .update (bobOf (ascii "u2"))]).isSome := by
    decide +kernel
  obtain ⟨store, hrun⟩ := Option.isSome_iff_exists.mp hdefined
  refine (userBaseTable.survives_iff rfl ?_ hrun).mpr ?_
  · simp only [List.forall_mem_cons]
    refine ⟨typed_of_userId [_, _, _] rfl rfl (by decide +kernel),
      typed_of_userId [_, _, _] rfl rfl (by decide +kernel),
      typed_of_userId [_, _, _] rfl rfl (by decide +kernel), List.forall_mem_nil _⟩
  · intro m hm
    simp only [List.mem_cons, KVCall.update.injEq, reduceCtorEq, List.not_mem_nil, or_false, false_or] at hm
    obtain rfl | rfl := hm <;> decide +kernel

/-- After two updates with the user name `bob` a load does not return it. -/
theorem userBase_bob_lost :
    userBaseTable.last [.update (userBaseTable.carrying bob), .update (userBaseTable.carrying bob)] = some bob.1 ∧
      ∃ store, run (KVCall.exec indexMode) ∅
          [.update (userBaseTable.carrying bob), .update (userBaseTable.carrying bob)] = some store ∧
        ¬ userBaseTable.Loads store (some bob.1) :=
  ⟨by decide +kernel, userBaseTable.two_updates_lost rfl (by decide +kernel) bob (by decide +kernel)⟩

end UserData

end TonyCat.Database
