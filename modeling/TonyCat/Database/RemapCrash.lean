import TonyCat.Database.RemapExact

set_option autoImplicit false

/-! `InitRocksDb` over crashes: the process may die at any moment of a remap and is started again with the same
configuration. What has been put is not lost with the process, and a directory is removed or renamed at once. -/

namespace TonyCat.Database

open TonyCat.Library

/-- The databases of the directory `strAddress`; `none` for one that is not there. -/
structure Files where
  saved : Layout
  shard : ℕ → Option Store
  tmp_remap : ℕ → Option Store

inductive StartPhase
  | down
  | copying (r : RemapRun)
  /-- before this turn of the loop that removes the old shards -/
  | removing (index : ℕ)
  /-- before this turn of the loop that renames `tmp_remap0`, `tmp_remap1`, and so on, to the new shards -/
  | switching (index : ℕ)
  | savingShardNum
  | savingHashSlat
  | started

structure CrashRun where
  files : Files
  phase : StartPhase

inductive CrashEvent
  | initRocksDb
  /-- a step of the loops that copy -/
  | copy (e : RemapEvent)
  /-- a step of the function that `BroadcastAndDone` calls at the end -/
  | switch
  | crash

namespace Files

def contents (dirs : ℕ → Option Store) (index : ℕ) : Store := (dirs index).getD ∅

/-- `create_if_missing` -/
def opened (dirs : ℕ → Option Store) (num : ℕ) (index : ℕ) : Option Store :=
  if index < num then some (contents dirs index) else dirs index

def disk (F : Files) : Disk := ⟨F.saved, contents F.shard⟩

def landed (F : Files) (config : Config) (r : RemapRun) : Files :=
  { F with tmp_remap := fun index => if index < config.nShardNum.toNat then some (r.tmp_remap index) else F.tmp_remap index }

end Files

namespace CrashRun

variable (config : Config)

def initRocksDb (M : CrashRun) : Option CrashRun :=
  match M.phase with
  | .down =>
    if M.files.saved.nShardNum = config.nShardNum ∧ M.files.saved.hashSlat = config.hashSlat then
      some ⟨M.files, .started⟩
    else
      let F : Files := { M.files with
        shard := Files.opened M.files.shard M.files.saved.nShardNum.toNat
        tmp_remap := Files.opened M.files.tmp_remap config.nShardNum.toNat }
      (RemapRun.start config F.disk (Files.contents F.tmp_remap)).map fun r => ⟨F, .copying r⟩
  | _ => none

def copy (M : CrashRun) (e : RemapEvent) : Option CrashRun :=
  match M.phase, e with
  | .copying _, .finish => none
  | .copying r, e => (RemapRun.step config r e).map fun r' => ⟨M.files, .copying r'⟩
  | _, _ => none

/-- `rename` onto a directory that is there throws, and nothing catches it. -/
def switch (M : CrashRun) : Option CrashRun :=
  match M.phase with
  | .copying r => if r.phase = .closing 0 then some ⟨M.files.landed config r, .removing 0⟩ else none
  | .removing index =>
    if index < M.files.saved.nShardNum.toNat then
      some ⟨{ M.files with shard := Function.update M.files.shard index none }, .removing (index + 1)⟩
    else some ⟨M.files, .switching 0⟩
  | .switching index =>
    if index < config.nShardNum.toNat then
      match M.files.tmp_remap index, M.files.shard index with
      | some store, none => some
        ⟨{ M.files with
            shard := Function.update M.files.shard index (some store)
            tmp_remap := Function.update M.files.tmp_remap index none }, .switching (index + 1)⟩
      | _, _ => some ⟨M.files, .down⟩
    else some ⟨M.files, .savingShardNum⟩
  | .savingShardNum => some
    ⟨{ M.files with saved := { M.files.saved with nShardNum := config.nShardNum } }, .savingHashSlat⟩
  | .savingHashSlat => some ⟨{ M.files with saved := { M.files.saved with hashSlat := config.hashSlat } }, .started⟩
  | _ => none

def onDisk (M : CrashRun) : Files :=
  match M.phase with
  | .copying r => M.files.landed config r
  | _ => M.files

def crash (M : CrashRun) : Option CrashRun :=
  match M.phase with
  | .down => none
  | _ => some ⟨M.onDisk config, .down⟩

def step (M : CrashRun) : CrashEvent → Option CrashRun
  | .initRocksDb => M.initRocksDb config
  | .copy e => M.copy config e
  | .switch => M.switch config
  | .crash => M.crash config

/-! ### Where the pairs are -/

section

variable (orig : Disk)

/-- The database before it is first started with `config`, with nothing but the old shards. -/
structure Before (M : CrashRun) : Prop where
  phase : M.phase = .down
  saved : M.files.saved = orig.saved
  nonneg : 0 ≤ orig.saved.nShardNum
  changed : orig.saved ≠ config.toLayout
  shard : ∀ index, M.files.shard index = if index < orig.saved.nShardNum.toNat then some (orig.shards index) else none
  tmp_remap : ∀ index, M.files.tmp_remap index = none

def OnDisk (F : Files) (k v : Bytes) : Prop :=
  ∃ index, (Files.contents F.tmp_remap index).lookup k = some v ∨ (Files.contents F.shard index).lookup k = some v

/-- The pair is in the directory that it is copied to, in an old shard, or in a new one behind the old ones, which a
start that was cut short has renamed. -/
def Found (F : Files) (k v : Bytes) : Prop :=
  (Files.contents F.tmp_remap (config.remapIndex k)).lookup k = some v ∨
    (∃ index < F.saved.nShardNum.toNat, (Files.contents F.shard index).lookup k = some v) ∨
      (F.saved.nShardNum.toNat ≤ config.remapIndex k ∧ (Files.contents F.shard (config.remapIndex k)).lookup k = some v)

def Copied (F : Files) (k v : Bytes) : Prop :=
  (Files.contents F.tmp_remap (config.remapIndex k)).lookup k = some v ∨
    (F.saved.nShardNum.toNat ≤ config.remapIndex k ∧ (Files.contents F.shard (config.remapIndex k)).lookup k = some v)

def Renamed (F : Files) (index : ℕ) : Prop :=
  ∀ k v, (Files.contents F.shard index).lookup k = some v ↔ config.remapIndex k = index ∧ orig.Holds k v

def Done (F : Files) : Prop := ∀ index < config.nShardNum.toNat, Renamed config orig F index

def Stands (F : Files) : StartPhase → Prop
  | .down => (∀ k v, orig.Holds k v → Found config F k v) ∧ (F.saved = config.toLayout → Done config orig F)
  | .copying r => (∀ k v, orig.Holds k v → Found config F k v) ∧ F.saved ≠ config.toLayout ∧ r.phase ≠ .finished ∧
      ∃ posts, RemapRun.Invariant config F.disk (Files.contents F.tmp_remap) r posts
  | .removing index => (∀ k v, orig.Holds k v → Copied config F k v) ∧ F.saved ≠ config.toLayout ∧
      (∀ j < index, j < F.saved.nShardNum.toNat → F.shard j = none) ∧
        ∀ j < config.nShardNum.toNat, F.tmp_remap j ≠ none
  | .switching index => (∀ k v, orig.Holds k v → index ≤ config.remapIndex k → Copied config F k v) ∧ F.saved ≠ config.toLayout ∧
      (∀ j, index ≤ j → j < F.saved.nShardNum.toNat → F.shard j = none) ∧
        (∀ j < index, Renamed config orig F j) ∧ ∀ j < config.nShardNum.toNat, index ≤ j → F.tmp_remap j ≠ none
  | .savingShardNum => F.saved ≠ config.toLayout ∧ Done config orig F
  | .savingHashSlat => F.saved.nShardNum = config.nShardNum ∧ Done config orig F
  | .started => F.saved = config.toLayout ∧ Done config orig F

structure Sound (F : Files) : Prop where
  nonneg : 0 ≤ F.saved.nShardNum
  shard : ∀ index k v, (Files.contents F.shard index).lookup k = some v → orig.Holds k v
  tmp_remap : ∀ index k v, (Files.contents F.tmp_remap index).lookup k = some v →
    orig.Holds k v ∧ config.remapIndex k = index

end

section Lookups

variable {dirs : ℕ → Option Store} {index : ℕ}

@[simp] lemma contents_opened (dirs : ℕ → Option Store) (num : ℕ) :
    Files.contents (Files.opened dirs num) = Files.contents dirs := by
  funext index
  rw [Files.contents, Files.opened]
  split_ifs
  · rfl
  · rfl

lemma contents_of_none (h : dirs index = none) (k : Bytes) : (Files.contents dirs index).lookup k = none := by
  rw [Files.contents, h]
  exact AList.lookup_empty k

lemma contents_update_self (dir : Option Store) :
    Files.contents (Function.update dirs index dir) index = dir.getD ∅ := by
  rw [Files.contents, Function.update_self]

lemma contents_update_of_ne {other : ℕ} (h : other ≠ index) (dir : Option Store) :
    Files.contents (Function.update dirs index dir) other = Files.contents dirs other := by
  rw [Files.contents, Function.update_of_ne h, Files.contents]

end Lookups

variable {config : Config} {orig : Disk} {F : Files} {k v : Bytes}

lemma Copied.found (h : Copied config F k v) : Found config F k v := h.imp_right .inr

lemma Renamed.found (h : Renamed config orig F (config.remapIndex k)) (hv : orig.Holds k v) : Found config F k v := by
  have hshard := (h k v).mpr ⟨rfl, hv⟩
  by_cases hold : config.remapIndex k < F.saved.nShardNum.toNat
  · exact .inr (.inl ⟨_, hold, hshard⟩)
  · exact .inr (.inr ⟨not_lt.mp hold, hshard⟩)

lemma Done.found (hn : 0 < config.nShardNum) (h : Done config orig F) (hv : orig.Holds k v) : Found config F k v :=
  (h _ (RemapRun.remapIndex_lt hn k)).found hv

/-! ### Copying -/

lemma foldl_put_cases (ran : List PutTask) (store : Store) (k : Bytes) :
    (ran.foldl RemapRun.put store).lookup k = store.lookup k ∨
      ∃ v, .put k v ∈ ran ∧ (ran.foldl RemapRun.put store).lookup k = some v := by
  induction ran using List.reverseRecOn with
  | nil => exact .inl rfl
  | append_singleton ran task ih =>
    rw [List.foldl_concat]
    have hearlier : ∀ {v}, .put k v ∈ ran → .put k v ∈ ran ++ [task] := List.mem_append_left [task]
    cases task with
    | createDBToc | destoryDBToc => exact ih.imp_right fun ⟨v, hmem, hv⟩ => ⟨v, hearlier hmem, hv⟩
    | put strKey strValue =>
      by_cases hk : k = strKey
      · subst hk
        exact .inr ⟨strValue, List.mem_append_right ran (List.mem_singleton_self _), AList.lookup_insert _⟩
      · have hsame : (RemapRun.put (ran.foldl RemapRun.put store) (.put strKey strValue)).lookup k =
            (ran.foldl RemapRun.put store).lookup k := AList.lookup_insert_ne hk
        rw [hsame]
        exact ih.imp_right fun ⟨v, hmem, hv⟩ => ⟨v, hearlier hmem, hv⟩

variable {disk : Disk} {tmp_remap : ℕ → Store} {r : RemapRun} {posts : List (Bytes × Bytes)} {index : ℕ}

lemma holds_of_put_ran (h : RemapRun.Invariant config disk tmp_remap r posts)
    (hput : .put k v ∈ ranOn r.pPutNewloopPool.ran index) : config.remapIndex k = index ∧ disk.Holds k v := by
  have hposted := h.posted index
  have hmem : .put k v ∈ r.pPutNewloopPool.posted index := List.mem_append_left _ hput
  rw [hposted] at hmem
  split_ifs at hmem
  case neg => cases hmem
  have htasks : .put k v ∈ RemapRun.tasks config posts index := by
    rcases List.mem_append.mp hmem with htasks | hcloses
    · exact htasks
    · rw [RemapRun.closes] at hcloses
      split_ifs at hcloses
      · cases hcloses
      · cases List.mem_singleton.mp hcloses
  rcases List.mem_cons.mp htasks with hcreate | hpost
  · cases hcreate
  · obtain ⟨kv, hkv, heq⟩ := List.mem_map.mp hpost
    cases heq
    obtain ⟨hkv, hindex⟩ := List.mem_filter.mp hkv
    refine ⟨of_decide_eq_true hindex, (RemapRun.mem_scanned.mp ?_).1⟩
    exact h.read.mem_iff.mp (List.mem_append_left _ hkv)

lemma lookup_copying (h : RemapRun.Invariant config disk tmp_remap r posts) (index : ℕ) (k : Bytes) :
    (r.tmp_remap index).lookup k = (tmp_remap index).lookup k ∨
      ∃ v, config.remapIndex k = index ∧ disk.Holds k v ∧ (r.tmp_remap index).lookup k = some v := by
  rw [h.data]
  refine (foldl_put_cases _ _ k).imp_right ?_
  rintro ⟨v, hput, hv⟩
  obtain ⟨hindex, hold⟩ := holds_of_put_ran h hput
  exact ⟨v, hindex, hold, hv⟩

lemma Sound.holds (hs : Sound config orig F) (h : F.disk.Holds k v) : orig.Holds k v := by
  obtain ⟨index, -, hv⟩ := h
  exact hs.shard index k v hv

lemma contents_landed (hindex : index < config.nShardNum.toNat) :
    Files.contents (F.landed config r).tmp_remap index = r.tmp_remap index := by
  rw [Files.contents, Files.landed]
  dsimp only
  rw [if_pos hindex, Option.getD_some]

lemma Sound.landed (hs : Sound config orig F)
    (h : RemapRun.Invariant config F.disk (Files.contents F.tmp_remap) r posts) : Sound config orig (F.landed config r) := by
  refine ⟨hs.nonneg, hs.shard, ?_⟩
  intro index k v hv
  by_cases hindex : index < config.nShardNum.toNat
  · rw [contents_landed hindex] at hv
    rcases lookup_copying h index k with hsame | ⟨w, hk, hold, hw⟩
    · exact hs.tmp_remap index k v (hsame.symm.trans hv)
    · cases hw.symm.trans hv
      exact ⟨hs.holds hold, hk⟩
  · rw [Files.contents, Files.landed] at hv
    dsimp only at hv
    rw [if_neg hindex] at hv
    exact hs.tmp_remap index k v hv

lemma lookup_landed (hn : 0 < config.nShardNum) (hone : orig.OneShardEach) (hs : Sound config orig F)
    (h : RemapRun.Invariant config F.disk (Files.contents F.tmp_remap) r posts)
    (hv : (Files.contents F.tmp_remap (config.remapIndex k)).lookup k = some v) :
    (Files.contents (F.landed config r).tmp_remap (config.remapIndex k)).lookup k = some v := by
  rw [contents_landed (RemapRun.remapIndex_lt hn k)]
  rcases lookup_copying h (config.remapIndex k) k with hsame | ⟨w, -, hold, hw⟩
  · exact hsame.trans hv
  · rw [(hs.holds hold).unique hone (hs.tmp_remap _ _ _ hv).1] at hw
    exact hw

lemma found_landed (hn : 0 < config.nShardNum) (hone : orig.OneShardEach) (hs : Sound config orig F)
    (h : RemapRun.Invariant config F.disk (Files.contents F.tmp_remap) r posts) (hfound : Found config F k v) :
    Found config (F.landed config r) k v :=
  hfound.imp_left (lookup_landed hn hone hs h)

lemma copied_landed (hn : 0 < config.nShardNum) (hone : orig.OneShardEach) (hkeys : ∀ k v, orig.Holds k v → k.head? ≠ some 0xff)
    (hs : Sound config orig F) (h : RemapRun.Invariant config F.disk (Files.contents F.tmp_remap) r posts)
    (hphase : r.phase = .closing 0) (hv : orig.Holds k v) (hfound : Found config F k v) :
    Copied config (F.landed config r) k v := by
  rcases hfound with htmp | ⟨index, hindex, hshard⟩ | hstray
  · exact .inl (lookup_landed hn hone hs h htmp)
  · obtain ⟨hperm, hdata⟩ := h.finish hphase
    refine .inl ?_
    rw [contents_landed (RemapRun.remapIndex_lt hn k), hdata _ (RemapRun.remapIndex_lt hn k), RemapRun.remapped]
    apply foldl_put_unique
    · refine List.mem_filter.mpr ⟨hperm.mem_iff.mpr ?_, by simp⟩
      exact RemapRun.mem_scanned.mpr ⟨⟨index, hindex, hshard⟩, hkeys k v hv⟩
    · intro w hw
      have hscanned := RemapRun.mem_scanned.mp (hperm.mem_iff.mp (List.mem_of_mem_filter hw))
      exact (hs.holds hscanned.1).unique hone hv
  · exact .inr hstray

/-! ### The steps keep the pairs -/

variable {M M' : CrashRun}

lemma layout_eq {saved : Layout} (hnum : saved.nShardNum = config.nShardNum) (hslat : saved.hashSlat = config.hashSlat) :
    saved = config.toLayout := by
  cases saved
  cases config
  cases hnum
  cases hslat
  rfl

lemma phase_ne_finished {r r' : RemapRun} {e : RemapEvent} (he : e ≠ .finish) (hphase : r.phase ≠ .finished)
    (hs : RemapRun.step config r e = some r') : r'.phase ≠ .finished := by
  cases e with
  | read nDBIndex =>
    simp only [RemapRun.step] at hs
    split at hs
    · cases hs
    · cases hs
      exact hphase
    · cases hs
      exact hphase
  | write index =>
    obtain ⟨taken, -, hs⟩ := Option.bind_eq_some_iff.mp hs
    exact fun hfinished => hphase ((RemapRun.phase_perform hs).2.mp hfinished)
  | loaded =>
    simp only [RemapRun.step] at hs
    split_ifs at hs
    cases hs
    simp
  | finish => exact absurd rfl he

lemma stands_initRocksDb (hstands : Stands config orig M.files M.phase) (hs : M.initRocksDb config = some M') :
    Stands config orig M'.files M'.phase := by
  obtain ⟨F, phase⟩ := M
  cases phase with
  | down =>
    rw [initRocksDb] at hs
    dsimp only at hs
    split_ifs at hs with hsame
    · cases hs
      have heq : F.saved = config.toLayout := layout_eq hsame.1 hsame.2
      exact ⟨heq, hstands.2 heq⟩
    · obtain ⟨r, hstart, rfl⟩ := Option.map_eq_some_iff.mp hs
      refine ⟨?_, ?_, ?_, [], RemapRun.invariant_start hstart⟩
      · intro k v hv
        rcases hstands.1 k v hv with htmp | ⟨index, hindex, hshard⟩ | ⟨hindex, hshard⟩
        · exact .inl (by rwa [contents_opened])
        · exact .inr (.inl ⟨index, hindex, by rwa [contents_opened]⟩)
        · exact .inr (.inr ⟨hindex, by rwa [contents_opened]⟩)
      · rintro heq
        have heq : F.saved = config.toLayout := heq
        exact hsame ⟨by rw [heq], by rw [heq]⟩
      · obtain ⟨-, -, rfl⟩ := RemapRun.start_eq_some hstart
        simp
  | copying | removing | switching | savingShardNum | savingHashSlat | started => cases hs

lemma copy_eq_some {e : RemapEvent} (hs : M.copy config e = some M') :
    ∃ r r', M.phase = .copying r ∧ e ≠ .finish ∧ RemapRun.step config r e = some r' ∧ M' = ⟨M.files, .copying r'⟩ := by
  obtain ⟨F, phase⟩ := M
  cases phase with
  | copying r =>
    refine ⟨r, ?_⟩
    cases e with
    | finish => cases hs
    | read nDBIndex | write index | loaded =>
      obtain ⟨r', hr', rfl⟩ := Option.map_eq_some_iff.mp hs
      exact ⟨r', rfl, by simp, hr', rfl⟩
  | down | removing | switching | savingShardNum | savingHashSlat | started => cases hs

lemma stands_copy (hn : 0 < config.nShardNum) {e : RemapEvent} (hstands : Stands config orig M.files M.phase)
    (hs : M.copy config e = some M') : Stands config orig M'.files M'.phase := by
  obtain ⟨r, r', hcopying, he, hr', rfl⟩ := copy_eq_some hs
  rw [hcopying] at hstands
  obtain ⟨hfound, hsaved, hphase, posts, hinv⟩ := hstands
  obtain ⟨hphase', posts', hinv'⟩ | ⟨hfinished, -⟩ := RemapRun.reached_step hn (.inl ⟨hphase, posts, hinv⟩) hr'
  · exact ⟨hfound, hsaved, hphase', posts', hinv'⟩
  · exact absurd hfinished (phase_ne_finished he hphase hr')

lemma Copied.remove {index : ℕ} (hindex : index < F.saved.nShardNum.toNat) (h : Copied config F k v) :
    Copied config { F with shard := Function.update F.shard index none } k v := by
  refine h.imp_right fun ⟨hnew, hshard⟩ => ⟨hnew, ?_⟩
  dsimp only at hnew ⊢
  rwa [contents_update_of_ne (by omega)]

lemma Renamed.rename {index other : ℕ} (hne : other ≠ index) (dir tmp : Option Store) (h : Renamed config orig F other) :
    Renamed config orig { F with
      shard := Function.update F.shard index dir
      tmp_remap := Function.update F.tmp_remap index tmp } other := by
  intro k v
  dsimp only
  rw [contents_update_of_ne hne]
  exact h k v

lemma renamed_of_copied (hs : Sound config orig F) {index : ℕ} {store : Store} (htmp : F.tmp_remap index = some store)
    (hshard : F.shard index = none) (hcopied : ∀ k v, orig.Holds k v → config.remapIndex k = index → Copied config F k v) :
    Renamed config orig { F with
      shard := Function.update F.shard index (some store)
      tmp_remap := Function.update F.tmp_remap index none } index := by
  have hstore : Files.contents F.tmp_remap index = store := by rw [Files.contents, htmp, Option.getD_some]
  intro k v
  dsimp only
  rw [contents_update_self, Option.getD_some, ← hstore]
  constructor
  · intro hv
    exact (hs.tmp_remap index k v hv).symm
  · rintro ⟨rfl, hv⟩
    rcases hcopied k v hv rfl with hcopied | ⟨-, hold⟩
    · exact hcopied
    · rw [contents_of_none hshard] at hold
      cases hold

lemma found_of_switching {index : ℕ} (hcopied : ∀ k v, orig.Holds k v → index ≤ config.remapIndex k → Copied config F k v)
    (hrenamed : ∀ j < index, Renamed config orig F j) (hv : orig.Holds k v) : Found config F k v := by
  rcases Nat.lt_or_ge (config.remapIndex k) index with hlt | hge
  · exact (hrenamed _ hlt).found hv
  · exact (hcopied k v hv hge).found

lemma stands_removing {index : ℕ} (hstands : Stands config orig F (.removing index))
    (hs : (CrashRun.mk F (.removing index)).switch config = some M') : Stands config orig M'.files M'.phase := by
  obtain ⟨hcopied, hsaved, hremoved, hopened⟩ := hstands
  simp only [switch] at hs
  split_ifs at hs with hindex
  · cases hs
    refine ⟨fun k v hv => (hcopied k v hv).remove hindex, hsaved, ?_, hopened⟩
    intro j hj hold
    dsimp only at hold ⊢
    rcases Nat.lt_succ_iff_lt_or_eq.mp hj with hlt | rfl
    · rw [Function.update_of_ne hlt.ne]
      exact hremoved j hlt hold
    · exact Function.update_self ..
  · cases hs
    refine ⟨fun k v hv _ => hcopied k v hv, hsaved, ?_, fun j hj => absurd hj j.not_lt_zero, fun j hj _ => hopened j hj⟩
    exact fun j _ hold => hremoved j (hold.trans_le (not_lt.mp hindex)) hold

lemma stands_switching (hsound : Sound config orig F) {index : ℕ} (hstands : Stands config orig F (.switching index))
    (hs : (CrashRun.mk F (.switching index)).switch config = some M') : Stands config orig M'.files M'.phase := by
  obtain ⟨hcopied, hsaved, hremoved, hrenamed, hopened⟩ := hstands
  simp only [switch] at hs
  split_ifs at hs with hindex
  · split at hs
    case h_1 store htmp hshard =>
      cases hs
      refine ⟨?_, hsaved, ?_, ?_, ?_⟩
      · intro k v hv hk
        dsimp only [Copied]
        rw [contents_update_of_ne (by omega), contents_update_of_ne (by omega)]
        exact hcopied k v hv (by omega)
      · intro j hj hold
        dsimp only
        rw [Function.update_of_ne (by omega)]
        exact hremoved j (by omega) hold
      · intro j hj
        rcases Nat.lt_succ_iff_lt_or_eq.mp hj with hlt | rfl
        · exact (hrenamed j hlt).rename hlt.ne _ _
        · exact renamed_of_copied hsound htmp hshard fun k v hv hk => hcopied k v hv hk.ge
      · intro j hj hindex
        dsimp only
        rw [Function.update_of_ne (by omega)]
        exact hopened j hj (by omega)
    case h_2 =>
      cases hs
      exact ⟨fun k v hv => found_of_switching hcopied hrenamed hv, fun heq => absurd heq hsaved⟩
  · cases hs
    exact ⟨hsaved, fun j hj => hrenamed j (hj.trans_le (not_lt.mp hindex))⟩

lemma stands_switch (hn : 0 < config.nShardNum) (hone : orig.OneShardEach) (hkeys : ∀ k v, orig.Holds k v → k.head? ≠ some 0xff)
    (hsound : Sound config orig M.files) (hstands : Stands config orig M.files M.phase) (hs : M.switch config = some M') :
    Stands config orig M'.files M'.phase := by
  obtain ⟨F, phase⟩ := M
  cases phase with
  | copying r =>
    obtain ⟨hfound, hsaved, -, posts, hinv⟩ := hstands
    simp only [switch] at hs
    split_ifs at hs with hclosed
    cases hs
    refine ⟨fun k v hv => copied_landed hn hone hkeys hsound hinv hclosed hv (hfound k v hv), hsaved, ?_, ?_⟩
    · exact fun j hj => absurd hj j.not_lt_zero
    · intro j hj
      dsimp only [Files.landed]
      rw [if_pos hj]
      exact Option.some_ne_none _
  | removing index => exact stands_removing hstands hs
  | switching index => exact stands_switching hsound hstands hs
  | savingShardNum =>
    cases hs
    exact ⟨rfl, hstands.2⟩
  | savingHashSlat =>
    cases hs
    exact ⟨layout_eq hstands.1 rfl, hstands.2⟩
  | down | started => cases hs

lemma stands_crash (hn : 0 < config.nShardNum) (hone : orig.OneShardEach) (hsound : Sound config orig M.files)
    (hstands : Stands config orig M.files M.phase) (hs : M.crash config = some M') :
    Stands config orig M'.files M'.phase := by
  obtain ⟨F, phase⟩ := M
  cases phase with
  | down => cases hs
  | copying r =>
    obtain ⟨hfound, hsaved, -, posts, hinv⟩ := hstands
    cases hs
    exact ⟨fun k v hv => found_landed hn hone hsound hinv (hfound k v hv), fun heq => absurd heq hsaved⟩
  | removing index =>
    cases hs
    exact ⟨fun k v hv => (hstands.1 k v hv).found, fun heq => absurd heq hstands.2.1⟩
  | switching index =>
    obtain ⟨hcopied, hsaved, -, hrenamed, -⟩ := hstands
    cases hs
    exact ⟨fun k v hv => found_of_switching hcopied hrenamed hv, fun heq => absurd heq hsaved⟩
  | savingShardNum | savingHashSlat | started =>
    cases hs
    exact ⟨fun k v hv => hstands.2.found hn hv, fun _ => hstands.2⟩

lemma sound_initRocksDb (hsound : Sound config orig M.files) (hs : M.initRocksDb config = some M') :
    Sound config orig M'.files := by
  obtain ⟨F, phase⟩ := M
  cases phase with
  | down =>
    rw [initRocksDb] at hs
    dsimp only at hs
    split_ifs at hs
    · cases hs
      exact hsound
    · obtain ⟨r, -, rfl⟩ := Option.map_eq_some_iff.mp hs
      refine ⟨hsound.nonneg, ?_, ?_⟩
      · dsimp only
        rw [contents_opened]
        exact hsound.shard
      · dsimp only
        rw [contents_opened]
        exact hsound.tmp_remap
  | copying | removing | switching | savingShardNum | savingHashSlat | started => cases hs

lemma Sound.remove {index : ℕ} (hs : Sound config orig F) :
    Sound config orig { F with shard := Function.update F.shard index none } := by
  refine ⟨hs.nonneg, ?_, hs.tmp_remap⟩
  intro other k v hv
  dsimp only at hv
  by_cases hother : other = index
  · rw [hother, contents_of_none (Function.update_self ..)] at hv
    cases hv
  · rw [contents_update_of_ne hother] at hv
    exact hs.shard other k v hv

lemma Sound.rename {index : ℕ} {store : Store} (hs : Sound config orig F) (htmp : F.tmp_remap index = some store) :
    Sound config orig { F with
      shard := Function.update F.shard index (some store)
      tmp_remap := Function.update F.tmp_remap index none } := by
  have hstore : Files.contents F.tmp_remap index = store := by rw [Files.contents, htmp, Option.getD_some]
  refine ⟨hs.nonneg, ?_, ?_⟩
  · intro other k v hv
    dsimp only at hv
    by_cases hother : other = index
    · rw [hother, contents_update_self, Option.getD_some, ← hstore] at hv
      exact (hs.tmp_remap index k v hv).1
    · rw [contents_update_of_ne hother] at hv
      exact hs.shard other k v hv
  · intro other k v hv
    dsimp only at hv
    by_cases hother : other = index
    · rw [hother, contents_of_none (Function.update_self ..)] at hv
      cases hv
    · rw [contents_update_of_ne hother] at hv
      exact hs.tmp_remap other k v hv

lemma sound_switch (hn : 0 < config.nShardNum) (hsound : Sound config orig M.files)
    (hstands : Stands config orig M.files M.phase) (hs : M.switch config = some M') : Sound config orig M'.files := by
  obtain ⟨F, phase⟩ := M
  cases phase with
  | copying r =>
    obtain ⟨-, -, -, posts, hinv⟩ := hstands
    simp only [switch] at hs
    split_ifs at hs
    cases hs
    exact hsound.landed hinv
  | removing index =>
    simp only [switch] at hs
    split_ifs at hs
    · cases hs
      exact hsound.remove
    · cases hs
      exact hsound
  | switching index =>
    simp only [switch] at hs
    split_ifs at hs
    · split at hs
      case h_1 store htmp hshard =>
        cases hs
        exact hsound.rename htmp
      case h_2 =>
        cases hs
        exact hsound
    · cases hs
      exact hsound
  | savingShardNum =>
    cases hs
    exact ⟨hn.le, hsound.shard, hsound.tmp_remap⟩
  | savingHashSlat =>
    cases hs
    exact ⟨hsound.nonneg, hsound.shard, hsound.tmp_remap⟩
  | down | started => cases hs

lemma sound_crash (hsound : Sound config orig M.files) (hstands : Stands config orig M.files M.phase)
    (hs : M.crash config = some M') : Sound config orig M'.files := by
  obtain ⟨F, phase⟩ := M
  cases phase with
  | down => cases hs
  | copying r =>
    obtain ⟨-, -, -, posts, hinv⟩ := hstands
    cases hs
    exact hsound.landed hinv
  | removing | switching | savingShardNum | savingHashSlat | started =>
    cases hs
    exact hsound

def Kept (config : Config) (orig : Disk) (M : CrashRun) : Prop :=
  Sound config orig M.files ∧ Stands config orig M.files M.phase

lemma kept_before (h : Before config orig M) : Kept config orig M := by
  have hshard : ∀ index, Files.contents M.files.shard index =
      if index < orig.saved.nShardNum.toNat then orig.shards index else ∅ := by
    intro index
    rw [Files.contents, h.shard]
    split_ifs <;> rfl
  refine ⟨⟨?_, ?_, ?_⟩, ?_⟩
  · rw [h.saved]
    exact h.nonneg
  · intro index k v hv
    rw [hshard] at hv
    split_ifs at hv with hindex
    · exact ⟨index, hindex, hv⟩
    · cases (AList.lookup_empty k).symm.trans hv
  · intro index k v hv
    rw [contents_of_none (h.tmp_remap index)] at hv
    cases hv
  · rw [h.phase]
    refine ⟨?_, fun heq => absurd (h.saved.symm.trans heq) h.changed⟩
    rintro k v ⟨index, hindex, hv⟩
    refine .inr (.inl ⟨index, ?_, ?_⟩)
    · rwa [h.saved]
    · rwa [hshard, if_pos hindex]

lemma kept_step (hn : 0 < config.nShardNum) (hone : orig.OneShardEach) (hkeys : ∀ k v, orig.Holds k v → k.head? ≠ some 0xff)
    (h : Kept config orig M) {e : CrashEvent} (hs : M.step config e = some M') : Kept config orig M' := by
  obtain ⟨hsound, hstands⟩ := h
  cases e with
  | initRocksDb => exact ⟨sound_initRocksDb hsound hs, stands_initRocksDb hstands hs⟩
  | copy e =>
    refine ⟨?_, stands_copy hn hstands hs⟩
    obtain ⟨r, r', -, -, -, rfl⟩ := copy_eq_some hs
    exact hsound
  | switch => exact ⟨sound_switch hn hsound hstands hs, stands_switch hn hone hkeys hsound hstands hs⟩
  | crash => exact ⟨sound_crash hsound hstands hs, stands_crash hn hone hsound hstands hs⟩

lemma Found.onDisk (h : Found config F k v) : OnDisk F k v := by
  rcases h with htmp | ⟨index, -, hshard⟩ | ⟨-, hshard⟩
  · exact ⟨_, .inl htmp⟩
  · exact ⟨index, .inr hshard⟩
  · exact ⟨_, .inr hshard⟩

lemma Sound.onDisk (hs : Sound config orig F) (h : OnDisk F k v) : orig.Holds k v := by
  obtain ⟨index, htmp | hshard⟩ := h
  · exact (hs.tmp_remap index k v htmp).1
  · exact hs.shard index k v hshard

lemma Done.copiesExactly (hn : 0 < config.nShardNum) (hsaved : F.saved = config.toLayout) (h : Done config orig F) :
    Disk.CopiesExactly orig F.disk := by
  constructor
  · intro k v
    constructor
    · rintro ⟨index, hindex, hv⟩
      have hindex : index < F.saved.nShardNum.toNat := hindex
      rw [hsaved] at hindex
      exact ((h index hindex k v).mp hv).2
    · intro hv
      refine ⟨config.remapIndex k, ?_, (h _ (RemapRun.remapIndex_lt hn k) k v).mpr ⟨rfl, hv⟩⟩
      change config.remapIndex k < F.saved.nShardNum.toNat
      rw [hsaved]
      exact RemapRun.remapIndex_lt hn k
  · have hplace : ∀ k, ∀ index < F.saved.nShardNum.toNat, (F.disk.shards index).lookup k ≠ none →
        config.remapIndex k = index := by
      intro k index hindex hk
      obtain ⟨v, hv⟩ := Option.ne_none_iff_exists'.mp hk
      rw [hsaved] at hindex
      exact ((h index hindex k v).mp hv).1
    intro k i hi j hj hik hjk
    exact (hplace k i hi hik).symm.trans (hplace k j hj hjk)

lemma Kept.onDisk_iff (hn : 0 < config.nShardNum) (hone : orig.OneShardEach) (h : Kept config orig M) :
    OnDisk (M.onDisk config) k v ↔ orig.Holds k v := by
  obtain ⟨hsound, hstands⟩ := h
  by_cases hdown : M.phase = .down
  · have hsame : M.onDisk config = M.files := by rw [onDisk, hdown]
    rw [hsame]
    rw [hdown] at hstands
    exact ⟨hsound.onDisk, fun hv => (hstands.1 k v hv).onDisk⟩
  · -- a crash at this point shows what is there
    have hcrash : M.crash config = some ⟨M.onDisk config, .down⟩ := by
      rw [crash]
      split
      · contradiction
      · rfl
    have hfound := stands_crash hn hone hsound hstands hcrash
    exact ⟨(sound_crash hsound hstands hcrash).onDisk, fun hv => (hfound.1 k v hv).onDisk⟩

def twoShards : Config := ⟨⟨2, [65]⟩, .rightToLeft⟩

def onePair : Disk := ⟨⟨1, [65]⟩, fun _ => (∅ : Store).put [1] [2]⟩

def onePairDown : CrashRun where
  files :=
    { saved := ⟨1, [65]⟩
      shard := fun index => if index < 1 then some ((∅ : Store).put [1] [2]) else none
      tmp_remap := fun _ => none }
  phase := .down

lemma onePair_oneShardEach : onePair.OneShardEach := by
  intro k i (hi : i < 1) j (hj : j < 1) _ _
  omega

lemma onePair_head {k v : Bytes} (h : onePair.Holds k v) : k.head? ≠ some 0xff := by
  obtain ⟨index, -, hv⟩ := h
  have hk : k = [1] := by
    by_contra hne
    have hnone : ((∅ : Store).put [1] [2]).lookup k = none := (AList.lookup_insert_ne hne).trans (AList.lookup_empty k)
    cases hnone.symm.trans hv
  rw [hk]
  simp

lemma before_onePairDown : Before twoShards onePair onePairDown := by
  refine ⟨rfl, rfl, ?_, ?_, fun index => rfl, fun index => rfl⟩
  · exact zero_le_one
  · exact fun heq => absurd (congrArg Layout.nShardNum heq) (by decide)

end CrashRun

end TonyCat.Database
