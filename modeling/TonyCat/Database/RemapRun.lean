import TonyCat.Database.Reshard
import TonyCat.Library.LoopPool

set_option autoImplicit false

/-! `RemapDBDataAndStart` step by step: the loops that read the old shards, the loops that put the pairs
into the databases `tmp_remap0`, `tmp_remap1`, and so on, and the main loop. -/

namespace TonyCat.Database

open TonyCat.Library

inductive PutTask
  | createDBToc
  | put (strKey strValue : Bytes)
  | destoryDBToc
  deriving DecidableEq

inductive RemapPhase
  /-- until `sigLoad.wait()` returns -/
  | loading
  /-- after `BroadcastAndDone`, with the tasks that still hold `pFunDo` -/
  | closing (useCount : ℕ)
  | finished
  deriving DecidableEq

structure RemapRun where
  disk : Disk
  tmp_remap : ℕ → Store
  /-- whether `(*pNewDBIndex)[index]` is an open database -/
  pNewDBIndex : ℕ → Bool
  pPutNewloopPool : LoopPool PutTask
  /-- of each reader, what its iterator has still to give; `none` after `count_down` -/
  readOldloopPool : ℕ → Option (List (Bytes × Bytes))
  sigLoad : ℕ
  phase : RemapPhase

inductive RemapEvent
  | read (nDBIndex : ℕ)
  | write (index : ℕ)
  | loaded
  | finish

namespace RemapRun

variable (config : Config)

/-- Up to the start of the two pools; `none` when there is nothing to remap or the old shard number is no count. -/
def start (disk : Disk) (tmp_remap : ℕ → Store) : Option RemapRun :=
  if config.nShardNum ≤ 0 then none
  else if disk.saved.nShardNum = config.nShardNum ∧ disk.saved.hashSlat = config.hashSlat then none
  else if disk.saved.nShardNum < 0 then none
  else some
    { disk := disk
      tmp_remap := tmp_remap
      pNewDBIndex := fun _ => false
      pPutNewloopPool := LoopPool.init.broadcast config.nShardNum.toNat .createDBToc
      readOldloopPool := fun nDBIndex =>
        if nDBIndex < disk.saved.nShardNum.toNat then some (scan (disk.shards nDBIndex)) else none
      sigLoad := disk.saved.nShardNum.toNat
      phase := .loading }

/-- `create_if_missing` opens what is there; a put into a database that is not open crashes. -/
def perform (r : RemapRun) (index : ℕ) : PutTask → Option RemapRun
  | .createDBToc => some { r with pNewDBIndex := Function.update r.pNewDBIndex index true }
  | .put strKey strValue =>
    if r.pNewDBIndex index then
      some { r with tmp_remap := Function.update r.tmp_remap index ((r.tmp_remap index).put strKey strValue) }
    else
      none
  | .destoryDBToc =>
    match r.phase with
    | .closing (useCount + 1) =>
      some { r with
        pNewDBIndex := Function.update r.pNewDBIndex index false
        phase := .closing useCount }
    | _ => none

def step (r : RemapRun) : RemapEvent → Option RemapRun
  | .read nDBIndex =>
    match r.readOldloopPool nDBIndex with
    | none => none
    | some [] =>
      some { r with
        readOldloopPool := Function.update r.readOldloopPool nDBIndex none
        sigLoad := r.sigLoad - 1 }
    | some ((strKey, strValue) :: rest) =>
      some { r with
        readOldloopPool := Function.update r.readOldloopPool nDBIndex (some rest)
        pPutNewloopPool := r.pPutNewloopPool.post (config.remapIndex strKey) (.put strKey strValue) }
  | .write index =>
    (r.pPutNewloopPool.take index).bind fun taken => { r with pPutNewloopPool := taken.2 }.perform index taken.1
  | .loaded =>
    if r.phase = .loading ∧ r.sigLoad = 0 then
      some { r with
        pPutNewloopPool := r.pPutNewloopPool.broadcast config.nShardNum.toNat .destoryDBToc
        phase := .closing config.nShardNum.toNat }
    else
      none
  | .finish =>
    if r.phase = .closing 0 then
      some { r with
        disk :=
          { saved := config.toLayout
            shards := fun index => if index < config.nShardNum.toNat then r.tmp_remap index else ∅ }
        tmp_remap := fun index => if index < config.nShardNum.toNat then ∅ else r.tmp_remap index
        phase := .finished }
    else
      none

/-! ### What the loops have done -/

def put (store : Store) : PutTask → Store
  | .put strKey strValue => store.put strKey strValue
  | _ => store

def isOpen (opened : Bool) : PutTask → Bool
  | .createDBToc => true
  | .put _ _ => opened
  | .destoryDBToc => false

def tasks (posts : List (Bytes × Bytes)) (index : ℕ) : List PutTask :=
  .createDBToc :: (posts.filter fun kv => config.remapIndex kv.1 = index).map fun kv => .put kv.1 kv.2

def closes (phase : RemapPhase) : List PutTask :=
  if phase = .loading then [] else [.destoryDBToc]

structure Invariant (disk : Disk) (tmp_remap : ℕ → Store) (r : RemapRun) (posts : List (Bytes × Bytes)) : Prop where
  same : r.disk = disk
  read : (posts ++ (List.range disk.saved.nShardNum.toNat).flatMap fun j => (r.readOldloopPool j).getD []).Perm
    ((List.range disk.saved.nShardNum.toNat).flatMap fun j => scan (disk.shards j))
  readers : ∀ j, (r.readOldloopPool j).isSome → j < disk.saved.nShardNum.toNat ∧ r.phase = .loading
  latch : r.sigLoad = (List.range disk.saved.nShardNum.toNat).countP fun j => (r.readOldloopPool j).isSome
  posted : ∀ index, r.pPutNewloopPool.posted index =
    if index < config.nShardNum.toNat then tasks config posts index ++ closes r.phase else []
  data : ∀ index, r.tmp_remap index = (ranOn r.pPutNewloopPool.ran index).foldl put (tmp_remap index)
  opened : ∀ index, r.pNewDBIndex index = (ranOn r.pPutNewloopPool.ran index).foldl isOpen false
  useCount : ∀ useCount, r.phase = .closing useCount → useCount =
    (List.range config.nShardNum.toNat).countP fun index => .destoryDBToc ∈ r.pPutNewloopPool.pending index

variable {config} {disk : Disk} {tmp_remap : ℕ → Store} {r r' : RemapRun} {posts : List (Bytes × Bytes)}

lemma remapIndex_lt (hn : 0 < config.nShardNum) (strKey : Bytes) : config.remapIndex strKey < config.nShardNum.toNat :=
  Nat.mod_lt _ (by omega)

lemma start_eq_some (h : start config disk tmp_remap = some r) :
    0 < config.nShardNum ∧ ¬ Unchanged config disk ∧ r =
      { disk := disk
        tmp_remap := tmp_remap
        pNewDBIndex := fun _ => false
        pPutNewloopPool := LoopPool.init.broadcast config.nShardNum.toNat .createDBToc
        readOldloopPool := fun nDBIndex =>
          if nDBIndex < disk.saved.nShardNum.toNat then some (scan (disk.shards nDBIndex)) else none
        sigLoad := disk.saved.nShardNum.toNat
        phase := .loading } := by
  rw [start] at h
  split_ifs at h with hn hsame
  cases h
  exact ⟨not_le.mp hn, hsame, rfl⟩

lemma invariant_start (h : start config disk tmp_remap = some r) : Invariant config disk tmp_remap r [] := by
  obtain ⟨-, -, rfl⟩ := start_eq_some h
  constructor
  case same => rfl
  case read =>
    rw [List.nil_append]
    refine List.Perm.of_eq (List.flatMap_congr fun j hj => ?_)
    dsimp only
    rw [if_pos (List.mem_range.mp hj), Option.getD_some]
  case readers =>
    intro j hj
    refine ⟨?_, rfl⟩
    by_contra hlt
    simp [hlt] at hj
  case latch =>
    rw [List.countP_eq_length.mpr, List.length_range]
    intro j hj
    dsimp only
    rw [if_pos (List.mem_range.mp hj), Option.isSome_some]
  case posted =>
    intro index
    rw [LoopPool.posted_broadcast, LoopPool.posted_init, List.nil_append]
    rfl
  case data => exact fun index => rfl
  case opened => exact fun index => rfl
  case useCount => exact fun useCount hphase => nomatch hphase

lemma Invariant.post (h : Invariant config disk tmp_remap r posts) (hn : 0 < config.nShardNum) {j : ℕ} {strKey strValue : Bytes}
    {rest : List (Bytes × Bytes)} (hj : r.readOldloopPool j = some ((strKey, strValue) :: rest)) :
    Invariant config disk tmp_remap { r with
      readOldloopPool := Function.update r.readOldloopPool j (some rest)
      pPutNewloopPool := r.pPutNewloopPool.post (config.remapIndex strKey) (.put strKey strValue) }
      (posts ++ [(strKey, strValue)]) := by
  obtain ⟨hlt, hphase⟩ := h.readers j (by rw [hj, Option.isSome_some])
  have hsome : ∀ i, (Function.update r.readOldloopPool j (some rest) i).isSome = (r.readOldloopPool i).isSome := by
    intro i
    by_cases hi : i = j
    · rw [hi, Function.update_self, hj, Option.isSome_some, Option.isSome_some]
    · rw [Function.update_of_ne hi]
  constructor
  case same => exact h.same
  case read =>
    refine List.Perm.trans ?_ h.read
    rw [List.append_assoc, List.singleton_append]
    refine List.Perm.append_left posts (flatMap_perm_cons List.nodup_range (List.mem_range.mpr hlt) ?_ ?_).symm
    · simp [hj]
    · exact fun i hi => by simp [Function.update_of_ne hi]
  case readers =>
    intro i hi
    exact h.readers i ((hsome i).symm.trans hi)
  case latch =>
    simp only [hsome]
    exact h.latch
  case posted =>
    intro index
    have hclosed : closes r.phase = [] := if_pos hphase
    by_cases hindex : index = config.remapIndex strKey
    · have hposted := h.posted index
      rw [hindex, if_pos (remapIndex_lt hn strKey), hclosed, List.append_nil] at hposted ⊢
      rw [LoopPool.posted_post_self, hposted]
      simp [tasks]
    · rw [LoopPool.posted_post_of_ne hindex, h.posted index, hclosed]
      simp [tasks, Ne.symm hindex]
  case data => exact h.data
  case opened => exact h.opened
  case useCount =>
    intro useCount hclosing
    rw [hphase] at hclosing
    cases hclosing

lemma Invariant.countDown (h : Invariant config disk tmp_remap r posts) {j : ℕ} (hj : r.readOldloopPool j = some []) :
    Invariant config disk tmp_remap { r with
      readOldloopPool := Function.update r.readOldloopPool j none
      sigLoad := r.sigLoad - 1 } posts := by
  obtain ⟨hlt, hphase⟩ := h.readers j (by rw [hj, Option.isSome_some])
  have hrest : ∀ i, (Function.update r.readOldloopPool j none i).getD [] = (r.readOldloopPool i).getD [] := by
    intro i
    by_cases hi : i = j
    · rw [hi, Function.update_self, hj]
      rfl
    · rw [Function.update_of_ne hi]
  constructor
  case same => exact h.same
  case read =>
    dsimp only
    rw [funext hrest]
    exact h.read
  case readers =>
    intro i hi
    dsimp only at hi
    by_cases hij : i = j
    · rw [hij, Function.update_self] at hi
      cases hi
    · rw [Function.update_of_ne hij] at hi
      exact h.readers i hi
  case latch =>
    have hone := countP_add_one (p := fun i => (r.readOldloopPool i).isSome)
      (q := fun i => (Function.update r.readOldloopPool j none i).isSome) List.nodup_range (List.mem_range.mpr hlt)
      (by simp [hj]) (by simp) (fun i hi => by simp [Function.update_of_ne hi])
    have hlatch := h.latch
    dsimp only
    omega
  case posted => exact h.posted
  case data => exact h.data
  case opened => exact h.opened
  case useCount => exact h.useCount

lemma destoryDBToc_notMem_tasks (index : ℕ) : PutTask.destoryDBToc ∉ tasks config posts index := by
  simp [tasks]

lemma Invariant.pending_close (h : Invariant config disk tmp_remap r posts) {index : ℕ} {rest : List PutTask}
    (hp : r.pPutNewloopPool.pending index = .destoryDBToc :: rest) : index < config.nShardNum.toNat ∧ rest = [] := by
  have hposted := h.posted index
  rw [LoopPool.posted, hp] at hposted
  split_ifs at hposted with hlt
  · refine ⟨hlt, ?_⟩
    have hmem : PutTask.destoryDBToc ∈ tasks config posts index ++ closes r.phase := by
      rw [← hposted]
      simp
    have hclosed : closes r.phase = [.destoryDBToc] := by
      rw [closes]
      split_ifs with hphase
      · rw [closes, if_pos hphase, List.append_nil] at hmem
        exact absurd hmem (destoryDBToc_notMem_tasks index)
      · rfl
    rw [hclosed] at hposted
    exact ((List.append_cons_inj_of_notMem (destoryDBToc_notMem_tasks index) (by simp)).mp hposted.symm).2.2.symm
  · simp at hposted

/-- A task changes its own database and, as the last to hold `pFunDo`, the number of its holders. -/
structure Performed (r r' : RemapRun) (index : ℕ) (task : PutTask) : Prop where
  disk : r'.disk = r.disk
  pool : r'.pPutNewloopPool = r.pPutNewloopPool
  readers : r'.readOldloopPool = r.readOldloopPool
  latch : r'.sigLoad = r.sigLoad
  data : ∀ i, r'.tmp_remap i = if i = index then put (r.tmp_remap i) task else r.tmp_remap i
  opened : ∀ i, r'.pNewDBIndex i = if i = index then isOpen (r.pNewDBIndex i) task else r.pNewDBIndex i
  phase : task ≠ .destoryDBToc ∧ r'.phase = r.phase ∨
    task = .destoryDBToc ∧ ∃ useCount, r.phase = .closing (useCount + 1) ∧ r'.phase = .closing useCount

lemma performed {index : ℕ} {task : PutTask} (hs : r.perform index task = some r') : r.Performed r' index task := by
  have hsame : ∀ {α : Type} (f : ℕ → α) (i : ℕ), f i = if i = index then f i else f i := fun f i => (ite_self (f i)).symm
  cases task with
  | createDBToc =>
    cases hs
    exact ⟨rfl, rfl, rfl, rfl, hsame _, Function.update_apply _ index true, Or.inl ⟨nofun, rfl⟩⟩
  | put strKey strValue =>
    simp only [RemapRun.perform] at hs
    split_ifs at hs
    cases hs
    refine ⟨rfl, rfl, rfl, rfl, fun i => ?_, hsame _, Or.inl ⟨nofun, rfl⟩⟩
    dsimp only
    rw [Function.update_apply]
    split_ifs with hi
    · rw [hi, RemapRun.put]
    · rfl
  | destoryDBToc =>
    simp only [RemapRun.perform] at hs
    split at hs
    case h_1 useCount hphase =>
      cases hs
      exact ⟨rfl, rfl, rfl, rfl, hsame _, Function.update_apply _ index false, Or.inr ⟨rfl, useCount, hphase, rfl⟩⟩
    case h_2 => cases hs

lemma closes_performed {index : ℕ} {task : PutTask} (h : r.Performed r' index task) : closes r'.phase = closes r.phase := by
  obtain ⟨-, hphase⟩ | ⟨-, useCount, hphase, hphase'⟩ := h.phase
  · rw [hphase]
  · rw [hphase, hphase', closes, closes, if_neg nofun, if_neg nofun]

lemma Invariant.perform (h : Invariant config disk tmp_remap r posts) {index : ℕ} {task : PutTask}
    {pool : LoopPool PutTask} (htake : r.pPutNewloopPool.take index = some (task, pool))
    (hs : RemapRun.perform { r with pPutNewloopPool := pool } index task = some r') :
    Invariant config disk tmp_remap r' posts := by
  have hr := performed hs
  obtain ⟨hpending, hothers⟩ := LoopPool.pending_take htake
  have hran := LoopPool.ranOn_take htake
  constructor
  case same => exact hr.disk.trans h.same
  case read =>
    rw [hr.readers]
    exact h.read
  case readers =>
    intro j hj
    rw [hr.readers] at hj
    obtain ⟨hlt, hloading⟩ := h.readers j hj
    obtain ⟨-, hphase⟩ | ⟨-, useCount, hphase, -⟩ := hr.phase
    · exact ⟨hlt, hphase.trans hloading⟩
    · cases hloading.symm.trans hphase
  case latch =>
    rw [hr.latch, hr.readers]
    exact h.latch
  case posted =>
    intro i
    rw [hr.pool, closes_performed hr]
    exact (LoopPool.posted_take htake i).trans (h.posted i)
  case data =>
    intro i
    rw [hr.data, hr.pool, hran]
    dsimp only
    rw [h.data]
    split_ifs <;> simp
  case opened =>
    intro i
    rw [hr.opened, hr.pool, hran]
    dsimp only
    rw [h.opened]
    split_ifs <;> simp
  case useCount =>
    intro count hcount
    rw [hr.pool]
    dsimp only
    obtain ⟨hne, hphase⟩ | ⟨rfl, useCount, hphase, hphase'⟩ := hr.phase
    · have hkept : ∀ i, PutTask.destoryDBToc ∈ pool.pending i ↔
          PutTask.destoryDBToc ∈ r.pPutNewloopPool.pending i := by
        intro i
        by_cases hi : i = index
        · rw [hi, hpending, List.mem_cons]
          exact ⟨Or.inr, fun hmem => hmem.resolve_left (Ne.symm hne)⟩
        · rw [hothers i hi]
      simp only [hkept]
      exact h.useCount count (hphase.symm.trans hcount)
    · obtain ⟨hlt, hrest⟩ := h.pending_close hpending
      have hone := countP_add_one (p := fun i => decide (.destoryDBToc ∈ r.pPutNewloopPool.pending i))
        (q := fun i => decide (.destoryDBToc ∈ pool.pending i)) List.nodup_range (List.mem_range.mpr hlt)
        (by simp [hpending]) (by simp [hrest]) (fun i hi => by simp [hothers i hi])
      have hbefore := h.useCount _ hphase
      cases hphase'.symm.trans hcount
      omega

lemma Invariant.loaded (h : Invariant config disk tmp_remap r posts) (hphase : r.phase = .loading) (hlatch : r.sigLoad = 0) :
    Invariant config disk tmp_remap { r with
      pPutNewloopPool := r.pPutNewloopPool.broadcast config.nShardNum.toNat .destoryDBToc
      phase := .closing config.nShardNum.toNat } posts := by
  have hnone : ∀ j, (r.readOldloopPool j).isSome = false := by
    intro j
    by_contra hsome
    rw [Bool.not_eq_false] at hsome
    have hcount := h.latch.symm.trans hlatch
    rw [List.countP_eq_zero] at hcount
    exact hcount j (List.mem_range.mpr (h.readers j hsome).1) hsome
  constructor
  case same => exact h.same
  case read => exact h.read
  case readers =>
    intro j hj
    rw [hnone j] at hj
    cases hj
  case latch => exact h.latch
  case posted =>
    intro index
    rw [LoopPool.posted_broadcast, h.posted, hphase]
    split_ifs
    · simp [closes]
    · rfl
  case data => exact h.data
  case opened => exact h.opened
  case useCount =>
    intro useCount hclosing
    cases hclosing
    rw [List.countP_eq_length.mpr, List.length_range]
    intro index hindex
    have hlt := List.mem_range.mp hindex
    rw [decide_eq_true_iff, LoopPool.broadcast]
    dsimp only
    rw [if_pos hlt]
    exact List.mem_append_right _ List.mem_cons_self

lemma Invariant.drained (h : Invariant config disk tmp_remap r posts) (hphase : r.phase = .closing 0) {index : ℕ}
    (hindex : index < config.nShardNum.toNat) :
    ranOn r.pPutNewloopPool.ran index = tasks config posts index ++ [.destoryDBToc] := by
  have hcount := h.useCount 0 hphase
  rw [eq_comm, List.countP_eq_zero] at hcount
  have hnot : PutTask.destoryDBToc ∉ r.pPutNewloopPool.pending index := by
    simpa using hcount index (List.mem_range.mpr hindex)
  have hposted := h.posted index
  rw [if_pos hindex, hphase, closes, if_neg nofun, LoopPool.posted] at hposted
  rcases List.eq_nil_or_concat (r.pPutNewloopPool.pending index) with hnil | ⟨pending, task, hlast⟩
  · rwa [hnil, List.append_nil] at hposted
  · rw [List.concat_eq_append] at hlast
    rw [hlast, ← List.append_assoc] at hposted
    obtain ⟨-, htask⟩ := List.append_inj' hposted rfl
    cases htask
    simp [hlast] at hnot

lemma foldl_put_map (pairs : List (Bytes × Bytes)) (store : Store) :
    (pairs.map fun kv => PutTask.put kv.1 kv.2).foldl put store = pairs.foldl (fun store kv => store.put kv.1 kv.2) store := by
  rw [List.foldl_map]
  rfl

/-! ### The loops never get stuck -/

lemma isOpen_of_notMem {ran : List PutTask} (h : .destoryDBToc ∉ ran) : ran.foldl isOpen true = true := by
  induction ran with
  | nil => rfl
  | cons task ran ih =>
    rw [List.mem_cons, not_or] at h
    obtain ⟨hhead, htail⟩ := h
    rw [List.foldl_cons]
    cases task with
    | createDBToc => exact ih htail
    | put strKey strValue => exact ih htail
    | destoryDBToc => exact absurd rfl hhead

lemma Invariant.isOpen_of_put (h : Invariant config disk tmp_remap r posts) {index : ℕ} {strKey strValue : Bytes}
    {rest : List PutTask} (hp : r.pPutNewloopPool.pending index = .put strKey strValue :: rest) :
    r.pNewDBIndex index = true := by
  have hposted := h.posted index
  rw [LoopPool.posted, hp] at hposted
  split_ifs at hposted with hlt
  case neg => simp at hposted
  case pos =>
  rw [h.opened]
  cases hran : ranOn r.pPutNewloopPool.ran index with
  | nil =>
    rw [hran, tasks] at hposted
    cases hposted
  | cons first ran =>
    rw [hran, tasks, List.cons_append, List.cons_append] at hposted
    obtain ⟨rfl, htail⟩ := List.cons.inj hposted
    refine isOpen_of_notMem fun hmem => ?_
    -- nothing comes after a close
    obtain ⟨before, after, rfl⟩ := List.append_of_mem hmem
    have hnot : PutTask.destoryDBToc ∉
        (posts.filter fun kv => config.remapIndex kv.1 = index).map fun kv => PutTask.put kv.1 kv.2 := by
      simp
    rw [List.append_assoc, List.cons_append, closes] at htail
    split_ifs at htail
    · rw [List.append_nil] at htail
      rw [← htail] at hnot
      simp at hnot
    · have hafter := ((List.append_cons_inj_of_notMem hnot List.not_mem_nil).mp htail.symm).2.2
      simp at hafter

lemma Invariant.write_enabled (h : Invariant config disk tmp_remap r posts) {index : ℕ} {task : PutTask}
    {rest : List PutTask} (hp : r.pPutNewloopPool.pending index = task :: rest) (hphase : r.phase ≠ .finished) :
    ∃ r', step config r (.write index) = some r' := by
  have htake := LoopPool.take_eq_some.mpr ⟨rest, hp, rfl⟩
  simp only [step, htake, Option.bind_some]
  cases task with
  | createDBToc => exact ⟨_, rfl⟩
  | put strKey strValue => exact ⟨_, if_pos (h.isOpen_of_put hp)⟩
  | destoryDBToc =>
    cases hclosing : r.phase with
    | loading =>
      have hposted := h.posted index
      rw [LoopPool.posted, hp, if_pos (h.pending_close hp).1, hclosing, closes, if_pos rfl, List.append_nil] at hposted
      have hmem : PutTask.destoryDBToc ∈ tasks config posts index := by
        rw [← hposted]
        simp
      exact absurd hmem (destoryDBToc_notMem_tasks index)
    | closing useCount =>
      have hpos : 0 < useCount := by
        rw [h.useCount useCount hclosing, List.countP_pos_iff]
        exact ⟨index, List.mem_range.mpr (h.pending_close hp).1, by simp [hp]⟩
      obtain ⟨count, rfl⟩ := Nat.exists_eq_succ_of_ne_zero hpos.ne'
      exact ⟨_, rfl⟩
    | finished => exact absurd hclosing hphase

lemma Invariant.exists_step (h : Invariant config disk tmp_remap r posts) (hphase : r.phase ≠ .finished) :
    ∃ e r', step config r e = some r' := by
  cases hcase : r.phase with
  | loading =>
    by_cases hlatch : r.sigLoad = 0
    · exact ⟨.loaded, _, if_pos ⟨hcase, hlatch⟩⟩
    · rw [h.latch, List.countP_eq_zero] at hlatch
      push Not at hlatch
      obtain ⟨j, -, hj⟩ := hlatch
      obtain ⟨unread, hunread⟩ := Option.isSome_iff_exists.mp hj
      refine ⟨.read j, ?_⟩
      cases unread with
      | nil => exact ⟨_, by simp only [step, hunread]; rfl⟩
      | cons kv rest => exact ⟨_, by simp only [step, hunread]; rfl⟩
  | closing useCount =>
    cases useCount with
    | zero => exact ⟨.finish, _, if_pos hcase⟩
    | succ useCount =>
      have hpos : 0 < (List.range config.nShardNum.toNat).countP fun index =>
          .destoryDBToc ∈ r.pPutNewloopPool.pending index := by
        rw [← h.useCount _ hcase]
        exact Nat.succ_pos _
      obtain ⟨index, -, hmem⟩ := List.countP_pos_iff.mp hpos
      cases hpending : r.pPutNewloopPool.pending index with
      | nil => simp [hpending] at hmem
      | cons task rest =>
        obtain ⟨r', hs⟩ := h.write_enabled hpending hphase
        exact ⟨_, r', hs⟩
  | finished => exact absurd hcase hphase

def remapped (config : Config) (tmp_remap : ℕ → Store) (posts : List (Bytes × Bytes)) (index : ℕ) : Store :=
  (posts.filter fun kv => config.remapIndex kv.1 = index).foldl (fun store kv => store.put kv.1 kv.2) (tmp_remap index)

def scanned (disk : Disk) : List (Bytes × Bytes) :=
  (List.range disk.saved.nShardNum.toNat).flatMap fun nDBIndex => scan (disk.shards nDBIndex)

def Reached (config : Config) (disk : Disk) (tmp_remap : ℕ → Store) (r : RemapRun) : Prop :=
  (r.phase ≠ .finished ∧ ∃ posts, Invariant config disk tmp_remap r posts) ∨
    (r.phase = .finished ∧ ∃ posts, posts.Perm (scanned disk) ∧
      r.disk =
        { saved := config.toLayout
          shards := fun index => if index < config.nShardNum.toNat then remapped config tmp_remap posts index else ∅ })

lemma Invariant.finish (h : Invariant config disk tmp_remap r posts) (hphase : r.phase = .closing 0) :
    posts.Perm (scanned disk) ∧ ∀ index < config.nShardNum.toNat, r.tmp_remap index = remapped config tmp_remap posts index := by
  constructor
  · have hnone : ∀ j, (r.readOldloopPool j).getD [] = [] := by
      intro j
      cases hj : r.readOldloopPool j with
      | none => rfl
      | some rest =>
        have hloading := (h.readers j (by rw [hj, Option.isSome_some])).2
        rw [hphase] at hloading
        cases hloading
    have hread := h.read
    rw [List.flatMap_eq_nil_iff.mpr fun j _ => hnone j, List.append_nil] at hread
    exact hread
  · intro index hindex
    rw [h.data, h.drained hphase hindex, List.foldl_concat, tasks, List.foldl_cons, foldl_put_map]
    rfl

lemma phase_perform {index : ℕ} {task : PutTask} (h : r.perform index task = some r') :
    r'.disk = r.disk ∧ (r'.phase = .finished ↔ r.phase = .finished) := by
  cases task with
  | createDBToc =>
    cases h
    exact ⟨rfl, Iff.rfl⟩
  | put strKey strValue =>
    simp only [perform] at h
    split_ifs at h
    cases h
    exact ⟨rfl, Iff.rfl⟩
  | destoryDBToc =>
    simp only [perform] at h
    split at h
    case h_2 => cases h
    case h_1 useCount hphase =>
    cases h
    rw [hphase]
    exact ⟨rfl, iff_of_false nofun nofun⟩

lemma reached_step (hn : 0 < config.nShardNum) (h : Reached config disk tmp_remap r) {e : RemapEvent}
    (hs : step config r e = some r') : Reached config disk tmp_remap r' := by
  cases e with
  | read j =>
    simp only [step] at hs
    split at hs
    · cases hs
    case h_2 hj =>
      cases hs
      obtain ⟨hphase, posts, hinv⟩ | ⟨hphase, posts, hdisk⟩ := h
      · exact Or.inl ⟨hphase, posts, hinv.countDown hj⟩
      · exact Or.inr ⟨hphase, posts, hdisk⟩
    case h_3 strKey strValue rest hj =>
      cases hs
      obtain ⟨hphase, posts, hinv⟩ | ⟨hphase, posts, hdisk⟩ := h
      · exact Or.inl ⟨hphase, _, hinv.post hn hj⟩
      · exact Or.inr ⟨hphase, posts, hdisk⟩
  | write index =>
    obtain ⟨⟨task, pool⟩, htake, hs⟩ := Option.bind_eq_some_iff.mp hs
    obtain ⟨hdisk', hphase'⟩ := phase_perform hs
    obtain ⟨hphase, posts, hinv⟩ | ⟨hphase, posts, hdisk⟩ := h
    · exact Or.inl ⟨fun hfinished => hphase (hphase'.mp hfinished), posts, hinv.perform htake hs⟩
    · refine Or.inr ⟨hphase'.mpr hphase, posts, ?_⟩
      rw [hdisk']
      exact hdisk
  | loaded =>
    simp only [step] at hs
    split_ifs at hs with hloaded
    cases hs
    obtain ⟨-, posts, hinv⟩ | ⟨hphase, -⟩ := h
    · exact Or.inl ⟨nofun, posts, hinv.loaded hloaded.1 hloaded.2⟩
    · rw [hphase] at hloaded
      cases hloaded.1
  | finish =>
    simp only [step] at hs
    split_ifs at hs with hclosing
    cases hs
    obtain ⟨-, posts, hinv⟩ | ⟨hphase, -⟩ := h
    · obtain ⟨hperm, hdata⟩ := hinv.finish hclosing
      refine Or.inr ⟨rfl, posts, hperm, ?_⟩
      dsimp only
      congr 1
      funext index
      split_ifs with hindex
      · exact hdata index hindex
      · rfl
    · rw [hphase] at hclosing
      cases hclosing

lemma reached_of_run {r₀ : RemapRun} {events : List RemapEvent} (hstart : start config disk tmp_remap = some r₀)
    (hrun : run (step config) r₀ events = some r) : Reached config disk tmp_remap r := by
  obtain ⟨hn, -, hr₀⟩ := start_eq_some hstart
  have hreached : Reached config disk tmp_remap r₀ :=
    Or.inl ⟨by rw [hr₀]; nofun, [], invariant_start hstart⟩
  exact run_keeps (fun h hs => reached_step hn h hs) hreached hrun

theorem never_stuck {r₀ : RemapRun} {events : List RemapEvent} (hstart : start config disk tmp_remap = some r₀)
    (hrun : run (step config) r₀ events = some r) (hphase : r.phase ≠ .finished) : ∃ e r', step config r e = some r' := by
  obtain ⟨-, posts, hinv⟩ | ⟨hfinished, -⟩ := reached_of_run hstart hrun
  · exact hinv.exists_step hphase
  · exact absurd hfinished hphase

theorem finished_disk {r₀ : RemapRun} {events : List RemapEvent} (hstart : start config disk tmp_remap = some r₀)
    (hrun : run (step config) r₀ events = some r) (hphase : r.phase = .finished) :
    ∃ posts, posts.Perm (scanned disk) ∧
      r.disk =
        { saved := config.toLayout
          shards := fun index => if index < config.nShardNum.toNat then remapped config tmp_remap posts index else ∅ } := by
  obtain ⟨hnot, -⟩ | ⟨-, hdisk⟩ := reached_of_run hstart hrun
  · exact absurd hphase hnot
  · exact hdisk

end RemapRun

end TonyCat.Database
