import TonyCat.Database.RocksDb
import TonyCat.Database.KVRefinement
import TonyCat.Database.Footprint

set_option autoImplicit false

/-! What a remap does to the data of one user. -/

namespace TonyCat.Database

open TonyCat.Library TonyCat.Utility

def Owned (native : Endian) (u k : Bytes) : Prop :=
  ∃ name rest, Identifier name ∧ k = indexKey name (record native u ++ rest)

section Owned

variable {native : Endian} {u v k : Bytes}

lemma Owned.append (h : Owned native u k) (a : Bytes) : Owned native u (k ++ a) := by
  obtain ⟨name, rest, hn, rfl⟩ := h
  refine ⟨name, rest ++ a, hn, ?_⟩
  simp [indexKey_eq]

lemma Owned.of_initial {p : Bytes} (h : Owned native u p) (hp : p <+: k) : Owned native u k := by
  obtain ⟨a, rfl⟩ := hp
  exact h.append a

lemma Owned.unique (hu : u.length < 2 ^ 32) (hv : v.length < 2 ^ 32) (h : Owned native u k)
    (h' : Owned native v k) : u = v := by
  obtain ⟨name, rest, hn, rfl⟩ := h
  obtain ⟨name', rest', hn', he⟩ := h'
  have hn₁ : (35 : UInt8) ∉ name := hn.not_mem rfl
  have hn₂ : (35 : UInt8) ∉ name' := hn'.not_mem rfl
  have hk := (indexKey_append_inj (a := []) (b := []) hn₁ hn₂ (by simpa using he)).2
  simp only [List.append_nil] at hk
  exact (record_append_inj native hu hv hk).1

lemma Owned.head (h : Owned native u k) : k.head? ≠ some 0xff := by
  obtain ⟨name, rest, hn, rfl⟩ := h
  rw [indexKey_eq]
  cases name with
  | nil => exact (hn.1 rfl).elim
  | cons b name =>
    intro hb
    have hb' : b = 0xff := by simpa using hb
    have hid := hn.2 b (by simp)
    rw [hb'] at hid
    simp [isIdentifierByte] at hid

end Owned

/-- A message whose first field is the user's key, as `UserData` and its `user_id`. -/
structure UserMessage (H : PbMessageKVHandle) (u : Bytes) (m : Message) : Prop where
  leads : ∃ key rest, m = .key key :: rest ∧ H.keyText key = u
  names : ∀ f ∈ m.tables, Identifier f.name

namespace PbMessageKVHandle

variable {H : PbMessageKVHandle}

lemma tableOps_extends (m : Message) (ck : Bytes) : ∀ op ∈ H.tableOps ck m, ck <+: op.1 := by
  induction m generalizing ck with
  | nil => simp [tableOps]
  | cons f m ih =>
    intro op hop
    cases f with
    | key f =>
      have hh := ih _ op hop
      rw [appendRawData_eq] at hh
      exact (List.prefix_append _ _).trans hh
    | table f =>
      rcases List.mem_cons.mp hop with rfl | hop
      · exact List.prefix_rfl
      · exact ih ck op hop

lemma UserMessage.owned {u : Bytes} {m : Message} (h : UserMessage H u m) :
    ∀ op ∈ H.tableOps [] m, Owned H.native u (indexKey op.2.name op.1) := by
  intro op hop
  obtain ⟨key, rest, rfl, rfl⟩ := h.leads
  have htab : op.2 ∈ Message.tables (.key key :: rest) := by
    rw [← H.tableOps_snd _ []]
    exact List.mem_map_of_mem hop
  obtain ⟨a, ha⟩ := tableOps_extends rest _ op hop
  refine ⟨op.2.name, a, h.names _ htab, ?_⟩
  rw [← ha, appendRawData_eq, List.nil_append]

section Changes

variable (hidx : H.funRang = none)
include hidx

lemma updateTable_sameOutside {ck : Bytes} {store store' : Store} {f : Table}
    (h : H.updateTable ck store f = some store') : SameOutside (indexKey f.name ck) store store' := by
  apply (updateTable_sameBut h).sameOutside
  simp [strCommonKey, hidx]

lemma deleteTable_sameOutside {ck : Bytes} {store store' : Store} {f : Table}
    (h : H.deleteTable ck store f = some store') : SameOutside (indexKey f.name ck) store store' := by
  apply (deleteTable_sameBut h).sameOutside
  simp [strCommonKey, hidx]

lemma exec_lookup {u : Bytes} {c : KVCall} (hc : UserMessage H u c.message) {store store' : Store}
    (h : c.exec H store = some store') {k : Bytes} (hk : ¬ Owned H.native u k) :
    store'.lookup k = store.lookup k := by
  have hops : ∀ (ops : List (Bytes × Table)), (∀ op ∈ ops, Owned H.native u (indexKey op.2.name op.1)) →
      ∀ store, run (c.tableStep H) store ops = some store' → store'.lookup k = store.lookup k := by
    intro ops
    induction ops with
    | nil =>
      intro _ store hr
      cases hr
      rfl
    | cons op ops ih =>
      intro howned store hr
      obtain ⟨store₁, hs, hr⟩ := Option.bind_eq_some_iff.mp hr
      have hsame : SameOutside (indexKey op.2.name op.1) store store₁ := by
        cases c with
        | update m => exact updateTable_sameOutside hidx hs
        | delete m => exact deleteTable_sameOutside hidx hs
      rw [ih (fun o ho => howned o (by simp [ho])) store₁ hr]
      exact hsame k fun hp => hk ((howned op (by simp)).of_initial hp)
  rw [KVCall.exec_eq] at h
  exact hops _ (UserMessage.owned hc) store h

end Changes

def ListsOwned (H : PbMessageKVHandle) (u : Bytes) (store : Store) (m : Message) : Prop :=
  ∀ op ∈ H.tableOps [] m, op.2.elems = [] →
    ∀ vecKeySet, paserList H.native (store.get (indexKey op.2.name op.1)) = some vecKeySet →
      ∀ k ∈ vecKeySet, Owned H.native u k

lemma loadTable_congr (hidx : H.funRang = none) {u ck : Bytes} {s t : Store} {f : Table}
    (hst : ∀ k, Owned H.native u k → t.lookup k = s.lookup k) (hkey : Owned H.native u (indexKey f.name ck))
    (hlist : f.elems = [] → ∀ vecKeySet, paserList H.native (s.get (indexKey f.name ck)) = some vecKeySet →
      ∀ k ∈ vecKeySet, Owned H.native u k) : H.loadTable ck t f = H.loadTable ck s f := by
  have hget : ∀ k, Owned H.native u k → t.get k = s.get k := fun k hk => by
    simp only [Store.get, hst k hk]
  have hkeys : H.vecKeySet ck t f = H.vecKeySet ck s f := by
    simp only [vecKeySet, hget _ hkey]
  have howned : ∀ ks, H.vecKeySet ck s f = some ks → ∀ k ∈ ks, Owned H.native u k := by
    intro ks hks k hk
    by_cases he : f.elems = []
    · simp only [vecKeySet, he, ne_eq, not_true_eq_false, if_false, hidx, Option.isNone_none, if_true] at hks
      exact hlist he ks hks k hk
    · simp only [vecKeySet, he, ne_eq, not_false_eq_true, if_true, Option.some.injEq] at hks
      rw [← hks] at hk
      obtain ⟨e, _, rfl⟩ := List.mem_map.mp hk
      rw [H.elementKey_eq]
      exact hkey.append _
  have hrange : ∀ store : Store, H.rangeResult ck store f = [] := fun store => by simp [rangeResult, hidx]
  simp only [loadTable, hkeys, hrange]
  cases hv : H.vecKeySet ck s f with
  | none => rfl
  | some ks =>
    have hmap : ks.map t.get = ks.map s.get := List.map_congr_left fun k hk => hget k (howned ks hv k hk)
    simp only [Option.map_some, hmap]

lemma messageLoadOnKV_congr (hidx : H.funRang = none) {u : Bytes} {s t : Store} {m : Message}
    (hm : UserMessage H u m) (hst : ∀ k, Owned H.native u k → t.lookup k = s.lookup k)
    (hlist : ListsOwned H u s m) : H.messageLoadOnKV t m = H.messageLoadOnKV s m :=
  loadFields_congr m [] fun op hop => loadTable_congr hidx hst (UserMessage.owned hm op hop) (hlist op hop)

end PbMessageKVHandle

lemma mem_scan {store : Store} {k v : Bytes} :
    (k, v) ∈ scan store ↔ store.lookup k = some v ∧ k.head? ≠ some 0xff := by
  simp only [scan, List.mem_filter, List.mem_map, Prod.mk.injEq, decide_eq_true_eq]
  refine and_congr_left fun _ => ?_
  rw [← Option.mem_def, AList.mem_lookup_iff]
  constructor
  · rintro ⟨⟨k', v'⟩, hs, rfl, rfl⟩
    exact hs
  · exact fun hs => ⟨_, hs, rfl, rfl⟩

lemma foldl_put_absent {k : Bytes} (pairs : List (Bytes × Bytes)) (h : ∀ v, (k, v) ∉ pairs) (store : Store) :
    (pairs.foldl (fun store kv => store.put kv.1 kv.2) store).lookup k = store.lookup k := by
  induction pairs generalizing store with
  | nil => rfl
  | cons kv pairs ih =>
    rw [List.foldl_cons, ih fun v hv => h v (by simp [hv])]
    apply AList.lookup_insert_ne
    rintro rfl
    exact h kv.2 (by simp)

lemma foldl_put_unique {k v : Bytes} (pairs : List (Bytes × Bytes)) (hv : (k, v) ∈ pairs)
    (h : ∀ v', (k, v') ∈ pairs → v' = v) (store : Store) :
    (pairs.foldl (fun store kv => store.put kv.1 kv.2) store).lookup k = some v := by
  induction pairs generalizing store with
  | nil => simp at hv
  | cons kv pairs ih =>
    rw [List.foldl_cons]
    by_cases hlater : ∃ v', (k, v') ∈ pairs
    · obtain ⟨v', hv'⟩ := hlater
      obtain rfl : v' = v := h v' (by simp [hv'])
      exact ih hv' (fun v'' hv'' => h v'' (by simp [hv''])) _
    · rw [foldl_put_absent pairs fun v' hv' => hlater ⟨v', hv'⟩]
      rcases List.mem_cons.mp hv with rfl | hv
      · exact AList.lookup_insert _
      · exact (hlater ⟨v, hv⟩).elim

lemma mem_remapPuts (R : RocksDBModule) {disk : Disk} {k v : Bytes} : (k, v) ∈ R.remapPuts disk ↔
    ∃ index < disk.saved.nShardNum.toNat, (disk.shards index).lookup k = some v ∧ k.head? ≠ some 0xff := by
  rw [RocksDBModule.remapPuts, (R.merge_perm _).mem_iff]
  simp only [List.mem_flatMap, List.mem_range, mem_scan]

structure Request.Valid (H : PbMessageKVHandle) (r : Request) : Prop where
  message : UserMessage H r.strIndexKey r.call.message
  short : r.strIndexKey.length < 2 ^ 32

def Placed (native : Endian) (disk : Disk) : Prop :=
  ∀ index k, (disk.shards index).lookup k ≠ none →
    ∃ u : Bytes, u.length < 2 ^ 32 ∧ Owned native u k ∧ index = disk.saved.dBLoopIndex u

lemma dBLoopExec_placed {R : RocksDBModule} {disk disk' : Disk} {r : Request} (hr : r.Valid R.handle)
    (h : R.dBLoopExec disk r = some disk') (hp : Placed R.handle.native disk) :
    Placed R.handle.native disk' ∧ disk'.saved = disk.saved := by
  obtain ⟨store, hs, rfl⟩ := Option.map_eq_some_iff.mp h
  refine ⟨?_, rfl⟩
  intro index k hk
  by_cases hi : index = disk.saved.dBLoopIndex r.strIndexKey
  · subst hi
    by_cases howned : Owned R.handle.native r.strIndexKey k
    · exact ⟨r.strIndexKey, hr.short, howned, rfl⟩
    · apply hp _ k
      rw [← PbMessageKVHandle.exec_lookup R.funRang hr.message hs howned]
      simpa using hk
  · apply hp index k
    simpa [Function.update_of_ne hi] using hk

def Serves (R : RocksDBModule) (old : Layout) (requests : List Request) (disk : Disk) : Prop :=
  (∀ r ∈ requests, r.Valid R.handle) ∧
    run R.dBLoopExec ⟨old, fun _ => ∅⟩ requests = some disk

lemma Serves.placed {R : RocksDBModule} {old : Layout} {requests : List Request} {disk : Disk}
    (h : Serves R old requests disk) : Placed R.handle.native disk ∧ disk.saved = old := by
  have hrun : ∀ (requests : List Request) (disk₀ : Disk), (∀ r ∈ requests, r.Valid R.handle) →
      run R.dBLoopExec disk₀ requests = some disk → Placed R.handle.native disk₀ →
      Placed R.handle.native disk ∧ disk.saved = disk₀.saved := by
    intro requests
    induction requests with
    | nil =>
      intro disk₀ _ hr hp
      cases hr
      exact ⟨hp, rfl⟩
    | cons r requests ih =>
      intro disk₀ hv hr hp
      obtain ⟨disk₁, hs, hr⟩ := Option.bind_eq_some_iff.mp hr
      obtain ⟨hp₁, hl₁⟩ := dBLoopExec_placed (hv r (by simp)) hs hp
      obtain ⟨hp₂, hl₂⟩ := ih disk₁ (fun x hx => hv x (by simp [hx])) hr hp₁
      exact ⟨hp₂, hl₂.trans hl₁⟩
  apply hrun requests _ h.1 h.2
  intro index k hk
  simp at hk

section Remap

variable (R : RocksDBModule) (config : Config) (disk : Disk) (u : Bytes)

def Disk.userStore (disk : Disk) (layout : Layout) (u : Bytes) : Store :=
  disk.shards (layout.dBLoopIndex u)

/-- After the remap the pairs of `u` are in the shard where its requests look, and nowhere else, and
its loads return what they returned before. -/
structure Transparent : Prop where
  pairs : ∀ k v, Owned R.handle.native u k → (disk.userStore disk.saved u).lookup k = some v →
    ∀ index, ((R.remapDBDataAndStart config disk).shards index).lookup k = some v ↔
      index = config.dBLoopIndex u
  load : ∀ m, UserMessage R.handle u m →
    PbMessageKVHandle.ListsOwned R.handle u (disk.userStore disk.saved u) m →
    R.handle.messageLoadOnKV ((R.remapDBDataAndStart config disk).userStore config.toLayout u) m =
      R.handle.messageLoadOnKV (disk.userStore disk.saved u) m

def Unchanged : Prop :=
  disk.saved.nShardNum = config.nShardNum ∧ disk.saved.hashSlat = config.hashSlat

/-- The shard that the remap picks, by the hash of the salt and the key or of the salt alone, is the one of the
hash of the user and the salt, for every key stored for `u`. -/
def Agrees (native : Endian) : Prop :=
  ∀ k, Owned native u k → (disk.userStore disk.saved u).lookup k ≠ none →
    config.remapIndex k = config.dBLoopIndex u

variable {R config disk u}

lemma remap_of_unchanged (hsame : Unchanged config disk) : R.remapDBDataAndStart config disk = disk := by
  unfold RocksDBModule.remapDBDataAndStart
  split_ifs with hpos hunchanged
  · rfl
  · rfl
  · exact (hunchanged hsame).elim

lemma remap_shards (hn : 0 < config.nShardNum) (hne : ¬ Unchanged config disk) (index : ℕ) :
    (R.remapDBDataAndStart config disk).shards index =
      if index < config.nShardNum.toNat then config.remapShard (R.remapPuts disk) index else ∅ := by
  unfold Unchanged at hne
  rw [RocksDBModule.remapDBDataAndStart, if_neg (by omega), if_neg hne]

lemma remap_lookup (hn : 0 < config.nShardNum) (hne : ¬ Unchanged config disk)
    (hold : 0 < disk.saved.nShardNum) (hplaced : Placed R.handle.native disk) (hu : u.length < 2 ^ 32)
    {k : Bytes} (hk : Owned R.handle.native u k) (index : ℕ) :
    ((R.remapDBDataAndStart config disk).shards index).lookup k =
      if index = config.remapIndex k then (disk.userStore disk.saved u).lookup k else none := by
  have hputs : ∀ v, (k, v) ∈ R.remapPuts disk ↔ (disk.userStore disk.saved u).lookup k = some v := by
    intro v
    rw [mem_remapPuts]
    constructor
    · rintro ⟨i, _, hv, _⟩
      obtain ⟨u', hu', hk', rfl⟩ := hplaced i k (by simp [hv])
      obtain rfl := hk.unique hu hu' hk'
      exact hv
    · intro hv
      refine ⟨_, ?_, hv, hk.head⟩
      exact Nat.mod_lt _ (by omega)
  have hlt : config.remapIndex k < config.nShardNum.toNat := Nat.mod_lt _ (by omega)
  rw [remap_shards hn hne]
  by_cases hi : index = config.remapIndex k
  · subst hi
    rw [if_pos hlt, if_pos rfl, Config.remapShard]
    cases hv : (disk.userStore disk.saved u).lookup k with
    | none =>
      rw [foldl_put_absent _ fun v hm => ?_]
      · rfl
      · have hm' := (hputs v).mp (List.mem_of_mem_filter hm)
        rw [hv] at hm'
        simp at hm'
    | some v =>
      refine foldl_put_unique _ ?_ (fun v' hm => ?_) _
      · exact List.mem_filter.mpr ⟨(hputs v).mpr hv, by simp⟩
      · have hm' := (hputs v').mp (List.mem_of_mem_filter hm)
        rw [hv] at hm'
        exact (Option.some.inj hm').symm
  · rw [if_neg hi]
    by_cases hlt' : index < config.nShardNum.toNat
    · rw [if_pos hlt', Config.remapShard, foldl_put_absent _ fun v hm => ?_]
      · rfl
      · have hr := (List.mem_filter.mp hm).2
        simp only [decide_eq_true_eq] at hr
        exact hi hr.symm
    · rw [if_neg hlt']
      rfl

theorem remap_transparent_iff {old : Layout} {requests : List Request} (hn : 0 < config.nShardNum)
    (hold : 0 < old.nShardNum) (hrun : Serves R old requests disk) (hu : u.length < 2 ^ 32) :
    Transparent R config disk u ↔ Unchanged config disk ∨ Agrees config disk u R.handle.native := by
  obtain ⟨hplaced, rfl⟩ := hrun.placed
  constructor
  · intro h
    by_cases hne : Unchanged config disk
    · exact Or.inl hne
    · right
      intro k hk hv
      obtain ⟨v, hv⟩ := Option.ne_none_iff_exists'.mp hv
      have hiff := h.pairs k v hk hv (config.remapIndex k)
      rw [remap_lookup hn hne hold hplaced hu hk, if_pos rfl] at hiff
      exact hiff.mp hv
  · intro h
    by_cases hne : Unchanged config disk
    · have hindex : config.dBLoopIndex u = disk.saved.dBLoopIndex u := by
        simp only [Layout.dBLoopIndex, hne.1, hne.2]
      have hstore : disk.userStore config.toLayout u = disk.userStore disk.saved u := by
        simp only [Disk.userStore, hindex]
      constructor
      · intro k v hk hv index
        rw [remap_of_unchanged hne, hindex]
        constructor
        · intro hv'
          obtain ⟨u', hu', hk', rfl⟩ := hplaced index k (by simp [hv'])
          rw [hk.unique hu hu' hk']
        · rintro rfl
          exact hv
      · intro m _ _
        rw [remap_of_unchanged hne, hstore]
    · have hagrees := h.resolve_left hne
      constructor
      · intro k v hk hv index
        rw [remap_lookup hn hne hold hplaced hu hk, hagrees k hk (by simp [hv])]
        split_ifs with hi
        · exact iff_of_true hv hi
        · exact iff_of_false (by simp) hi
      · intro m hm hlist
        refine PbMessageKVHandle.messageLoadOnKV_congr R.funRang hm (fun k hk => ?_) hlist
        rw [Disk.userStore, remap_lookup hn hne hold hplaced hu hk]
        by_cases hv : (disk.userStore disk.saved u).lookup k = none
        · rw [hv, ite_self]
        · rw [if_pos (hagrees k hk hv).symm]

end Remap

namespace UserData

noncomputable def rocksDb : RocksDBModule where
  handle := indexMode
  funRang := rfl
  merge := id
  merge_perm := fun _ => List.Perm.refl _

def storeCount : Request where
  strIndexKey := ascii "u1"
  call := .update (repeatedTables (ascii "u1") [(1, 1, 5)] [])

lemma storeCount_serves : ∃ disk, Serves rocksDb ⟨1, ascii "DBServer1"⟩ [storeCount] disk := by
  have hvalid : storeCount.Valid indexMode := by
    refine ⟨⟨⟨userId (ascii "u1"), _, rfl, by decide +kernel⟩, ?_⟩, by decide⟩
    decide +kernel
  obtain ⟨disk, hrun⟩ : ∃ disk, run rocksDb.dBLoopExec ⟨⟨1, ascii "DBServer1"⟩, fun _ => ∅⟩ [storeCount] =
      some disk := Option.isSome_iff_exists.mp (by decide +kernel)
  refine ⟨disk, fun r hr => ?_, hrun⟩
  rw [List.mem_singleton.mp hr]
  exact hvalid

theorem rename_transparent : ∃ disk, Serves rocksDb ⟨1, ascii "DBServer1"⟩ [storeCount] disk ∧
    Transparent rocksDb ⟨⟨1, ascii "DBServer2"⟩, .rightToLeft⟩ disk (ascii "u1") := by
  obtain ⟨disk, hrun⟩ := storeCount_serves
  refine ⟨disk, hrun, (remap_transparent_iff (by decide) (by decide) hrun (by decide)).mpr (Or.inr ?_)⟩
  intro k _ _
  simp [Config.remapIndex, Layout.dBLoopIndex, loopIndex, Nat.mod_one]

/-- From one shard to two, whatever the order of the arguments: the count of `u1` goes to shard 0, its requests go
to shard 1. -/
theorem split_not_transparent : ∃ disk, Serves rocksDb ⟨1, ascii "DBServer1"⟩ [storeCount] disk ∧
    ¬ Transparent rocksDb ⟨⟨2, ascii "DBServer1"⟩, .leftToRight⟩ disk (ascii "u1") ∧
    ¬ Transparent rocksDb ⟨⟨2, ascii "DBServer1"⟩, .rightToLeft⟩ disk (ascii "u1") := by
  obtain ⟨disk, hrun⟩ := storeCount_serves
  obtain ⟨hplaced, hsaved⟩ := hrun.placed
  let k := indexMode.getMessageElementKey (ascii "user_counts") (record .little (ascii "u1")) (countOf 1 1 5)
  have hk : Owned rocksDb.handle.native (ascii "u1") k := by
    refine ⟨ascii "user_counts", records .little [ascii "1", ascii "1"], by decide +kernel, ?_⟩
    decide +kernel
  have hstored : (run rocksDb.dBLoopExec ⟨⟨1, ascii "DBServer1"⟩, fun _ => ∅⟩ [storeCount]).bind
      (fun disk => (disk.userStore disk.saved (ascii "u1")).lookup k) =
      some (ProtoWire.serialize (countOf 1 1 5)) := by
    decide +kernel
  rw [hrun.2, Option.bind_some] at hstored
  have hmoved : ∀ order, Transparent rocksDb ⟨⟨2, ascii "DBServer1"⟩, order⟩ disk (ascii "u1") →
      (⟨⟨2, ascii "DBServer1"⟩, order⟩ : Config).remapIndex k =
        (⟨2, ascii "DBServer1"⟩ : Layout).dBLoopIndex (ascii "u1") := by
    intro order h
    have hiff := h.pairs k _ hk hstored ((⟨⟨2, ascii "DBServer1"⟩, order⟩ : Config).remapIndex k)
    rw [remap_lookup (show (0 : ℤ) < 2 by decide) (by simp [Unchanged, hsaved]) (by simp [hsaved]) hplaced
      (by decide) hk, if_pos rfl] at hiff
    exact hiff.mp hstored
  refine ⟨disk, hrun, fun h => ?_, fun h => ?_⟩
  · have hindex := hmoved _ h
    revert hindex
    decide +kernel
  · have hindex := hmoved _ h
    revert hindex
    decide +kernel

end UserData

end TonyCat.Database
