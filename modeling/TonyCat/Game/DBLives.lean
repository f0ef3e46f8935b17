import TonyCat.Database.RemapTidy
import TonyCat.Game.DBShards

set_option autoImplicit false

/-! A DB server over the lives of its process. It is started, remaps its shards when the layout has changed, serves
and dies, over and over; and it answers as one store that never dies. -/

namespace TonyCat.Game

open TonyCat.Library TonyCat.Database

/-- `executed` and `answers` are what the loops of the lives that have ended have run, and what they have answered. -/
structure DBLives where
  config : Config
  database : CrashRun
  server : Option DBServer
  executed : List DBPacket
  answers : List DBRespond

inductive LifeEvent
  | configure (config : Config)
  | start (e : CrashEvent)
  | startRocksDb
  | serve (e : DBEvent)
  /-- The process dies or is stopped while it serves. -/
  | stop

def DBExecModule.withLayout (D : DBExecModule) (layout : Layout) : DBExecModule :=
  { D with
    m_strDBInstanceName := layout.hashSlat
    loopNum := layout.nShardNum.toNat }

namespace DBLives

variable (D : DBExecModule)

def install (config : Config) : DBLives :=
  ⟨config, ⟨⟨⟨0, []⟩, fun _ => none, fun _ => none⟩, .down⟩, none, [], []⟩

def configure (L : DBLives) (config : Config) : Option DBLives :=
  match L.database.phase with
  | .down => some { L with config := config }
  | _ => none

def start (L : DBLives) (e : CrashEvent) : Option DBLives :=
  match L.server with
  | none => (L.database.step L.config e).map fun M => { L with database := M }
  | some _ => none

def startRocksDb (L : DBLives) : Option DBLives :=
  match L.server, L.database.phase with
  | none, .started => some { L with server := some ⟨0, .init, Files.contents L.database.files.shard, []⟩ }
  | _, _ => none

/-- A packet that comes in before the loops are there is dropped. -/
def serve (L : DBLives) (e : DBEvent) : Option DBLives :=
  match L.server, e with
  | none, .handle _ => some L
  | none, .loop _ => none
  | some s, e => ((D.withLayout L.config.toLayout).step s e).map fun t => { L with server := some t }

def written (F : Files) (num : ℕ) (shards : ℕ → Store) : Files :=
  { F with shard := fun index => if index < num then some (shards index) else F.shard index }

/-- What still waits in the queues is gone. -/
def stop (L : DBLives) : Option DBLives :=
  L.server.map fun s =>
    { L with
      database := ⟨written L.database.files L.config.nShardNum.toNat s.shards, .down⟩
      server := none
      executed := L.executed ++ s.m_loopPool.ran.map fun e => e.2.packet
      answers := L.answers ++ s.responds }

def step (L : DBLives) : LifeEvent → Option DBLives
  | .configure config => L.configure config
  | .start e => L.start e
  | .startRocksDb => L.startRocksDb
  | .serve e => L.serve D e
  | .stop => L.stop

def ran (L : DBLives) : List DBPacket :=
  L.executed ++ L.server.elim [] fun s => s.m_loopPool.ran.map fun e => e.2.packet

def responds (L : DBLives) : List DBRespond :=
  L.answers ++ L.server.elim [] fun s => s.responds

/-- The pair is in a database of the server, or would be on the disk if the process died now. -/
def Holds (L : DBLives) (k v : Bytes) : Prop :=
  match L.server with
  | none => CrashRun.OnDisk (L.database.onDisk L.config) k v
  | some s => ∃ index < L.config.nShardNum.toNat, (s.shards index).lookup k = some v

def HashesAgree (config : Config) (F : Files) : Prop :=
  ∀ u k v : Bytes, u.length < 2 ^ 32 → Owned D.m_PbMessageKVHandle.native u k → CrashRun.OnDisk F k v →
    config.remapIndex k = config.dBLoopIndex u

/-- The layout changes only when the last remap has got through; a request is about one user. -/
def Meets (L : DBLives) : LifeEvent → Prop
  | .configure config => L.database.files.saved = L.config.toLayout ∧ 0 < config.nShardNum ∧
      (config.toLayout = L.config.toLayout ∨ HashesAgree D config L.database.files)
  | .serve (.handle packet) => packet.OfUser D
  | _ => True

variable {D} {layout : Layout} {store : Store}

def AllOwned (D : DBExecModule) (store : Store) : Prop :=
  ∀ k v, store.lookup k = some v → ∃ u : Bytes, u.length < 2 ^ 32 ∧ Owned D.m_PbMessageKVHandle.native u k

def Spread (D : DBExecModule) (layout : Layout) (shards : ℕ → Store) (store : Store) : Prop :=
  ∀ index < layout.nShardNum.toNat, ∀ k v, (shards index).lookup k = some v ↔ store.lookup k = some v ∧
    ∃ u : Bytes, u.length < 2 ^ 32 ∧ Owned D.m_PbMessageKVHandle.native u k ∧ layout.dBLoopIndex u = index

section Spread

variable {shards : ℕ → Store}

lemma dBLoopIndex_lt (hn : 0 < layout.nShardNum) (u : Bytes) : layout.dBLoopIndex u < layout.nShardNum.toNat :=
  Nat.mod_lt _ (by omega)

lemma dBLoop_withLayout (hn : 0 < layout.nShardNum) (u : Bytes) :
    (D.withLayout layout).dBLoop u = some (layout.dBLoopIndex u) := by
  have hloops : layout.nShardNum.toNat ≠ 0 := by omega
  exact if_neg hloops

lemma Spread.holds (h : Spread D layout shards store) (hn : 0 < layout.nShardNum) (howned : AllOwned D store) {k v : Bytes} :
    (∃ index < layout.nShardNum.toNat, (shards index).lookup k = some v) ↔ store.lookup k = some v := by
  constructor
  · rintro ⟨index, hindex, hv⟩
    exact ((h index hindex k v).mp hv).1
  · intro hv
    obtain ⟨u, hu, hk⟩ := howned k v hv
    exact ⟨_, dBLoopIndex_lt hn u, (h _ (dBLoopIndex_lt hn u) k v).mpr ⟨hv, u, hu, hk, rfl⟩⟩

lemma Spread.lookup (h : Spread D layout shards store) {u k : Bytes} (hu : u.length < 2 ^ 32)
    (hk : Owned D.m_PbMessageKVHandle.native u k) {index : ℕ} (hindex : index < layout.nShardNum.toNat) :
    (shards index).lookup k = if layout.dBLoopIndex u = index then store.lookup k else none := by
  apply Option.ext
  intro v
  rw [h index hindex k v]
  constructor
  · rintro ⟨hv, u', hu', hk', hloop⟩
    obtain rfl := hk.unique hu hu' hk'
    rw [if_pos hloop]
    exact hv
  · intro hv
    split_ifs at hv with hloop
    exact ⟨hv, u, hu, hk, hloop⟩

lemma Spread.sameFor (h : Spread D layout shards store) (hn : 0 < layout.nShardNum) (u : Bytes) :
    D.SameFor u (shards (layout.dBLoopIndex u)) store := by
  intro hu k hk
  rw [h.lookup hu hk (dBLoopIndex_lt hn u), if_pos rfl]

lemma Spread.lists (h : Spread D layout shards store) (hlists : D.Lists store) {index : ℕ}
    (hindex : index < layout.nShardNum.toNat) : D.Lists (shards index) := by
  intro hidx u name p hp
  have hlookup := h.lookup hp.2.1 hp.owned hindex
  split_ifs at hlookup
  · exact (hlists hidx u name p hp).of_lookup hlookup
  · exact PbMessageKVHandle.listsWithin_of_none hlookup

lemma oneShardEach (h : Spread D layout shards store) {disk : Disk} (hsaved : disk.saved = layout)
    (hshards : disk.shards = shards) : disk.OneShardEach := by
  intro k i hi j hj hik hjk
  rw [hsaved] at hi hj
  rw [hshards] at hik hjk
  obtain ⟨v, hv⟩ := Option.ne_none_iff_exists'.mp hik
  obtain ⟨w, hw⟩ := Option.ne_none_iff_exists'.mp hjk
  obtain ⟨-, u, hu, hk, rfl⟩ := (h i hi k v).mp hv
  obtain ⟨-, u', hu', hk', rfl⟩ := (h j hj k w).mp hw
  rw [hk.unique hu hu' hk']

end Spread

lemma Spread.funcDo {shards : ℕ → Store} (h : Spread D layout shards store) (hidx : D.m_PbMessageKVHandle.funRang = none)
    (hn : 0 < layout.nShardNum) (howned : AllOwned D store) (hlists : D.Lists store) {packet : DBPacket}
    (hp : packet.OfUser D) {shard : Store} {answer : DBRespond} {index : ℕ}
    (hindex : layout.dBLoopIndex packet.strIndexKey = index) (hdo : D.funcDo (shards index) packet = some (shard, answer)) :
    ∃ store', D.funcDo store packet = some (store', answer) ∧ AllOwned D store' ∧
      Spread D layout (Function.update shards index shard) store' := by
  have hu := hp.short
  have hlt : index < layout.nShardNum.toNat := hindex ▸ dBLoopIndex_lt hn _
  have hsame : D.SameFor packet.strIndexKey (shards index) store := hindex ▸ h.sameFor hn _
  obtain ⟨store', hone, hsame'⟩ := DBExecModule.funcDo_same hidx hp (h.lists hlists hlt) hsame hdo
  refine ⟨store', hone, fun k v hv => ?_, fun other hother k v => ?_⟩
  · by_cases hk : Owned D.m_PbMessageKVHandle.native packet.strIndexKey k
    · exact ⟨_, hu, hk⟩
    · rw [DBExecModule.funcDo_outside hidx hp hone hk] at hv
      exact howned k v hv
  · by_cases hk : Owned D.m_PbMessageKVHandle.native packet.strIndexKey k
    · have howner : (∃ u : Bytes, u.length < 2 ^ 32 ∧ Owned D.m_PbMessageKVHandle.native u k ∧
          layout.dBLoopIndex u = other) ↔ index = other := by
        constructor
        · rintro ⟨u, hu', hk', hloop⟩
          rw [← hindex, hk.unique hu hu' hk', hloop]
        · rintro rfl
          exact ⟨_, hu, hk, hindex⟩
      rw [howner]
      by_cases heq : index = other
      · subst heq
        rw [Function.update_self, hsame' hu k hk, and_iff_left rfl]
      · rw [Function.update_of_ne (Ne.symm heq), h.lookup hu hk hother, if_neg (hindex ▸ heq)]
        exact iff_of_false (by simp) fun hv => heq hv.2
    · rw [DBExecModule.funcDo_outside hidx hp hone hk, ← h other hother k v]
      by_cases heq : other = index
      · rw [heq, Function.update_self, DBExecModule.funcDo_outside hidx hp hdo hk]
      · rw [Function.update_of_ne heq]

structure Serving (D : DBExecModule) (layout : Layout) (s : DBServer) (store : Store) : Prop where
  spread : Spread D layout s.shards store
  queued : ∀ index, ∀ job ∈ s.m_loopPool.pending index, job.packet.OfUser D ∧
    layout.dBLoopIndex job.packet.strIndexKey = index

structure Resting (layout : Layout) (F : Files) : Prop where
  saved : F.saved = layout
  settled : F.Settled layout.nShardNum.toNat

structure Remapping (D : DBExecModule) (config : Config) (M : CrashRun) (store : Store) (orig : Disk) : Prop where
  kept : CrashRun.Kept config orig M
  tidy : CrashRun.Tidy config M
  one : orig.OneShardEach
  holds : ∀ k v, orig.Holds k v ↔ store.lookup k = some v
  agrees : ∀ u k v : Bytes, u.length < 2 ^ 32 → Owned D.m_PbMessageKVHandle.native u k → store.lookup k = some v →
    config.remapIndex k = config.dBLoopIndex u

def Stands (D : DBExecModule) (config : Config) (M : CrashRun) (store : Store) : Option DBServer → Prop
  | some s => M.phase = .started ∧ Resting config.toLayout M.files ∧ Serving D config.toLayout s store
  | none => (Resting config.toLayout M.files ∧ (M.phase = .down ∨ M.phase = .started) ∧
      Spread D config.toLayout (Files.contents M.files.shard) store) ∨ ∃ orig, Remapping D config M store orig

structure Kept (D : DBExecModule) (L : DBLives) (store : Store) : Prop where
  positive : 0 < L.config.nShardNum
  runs : runAll D.funcDo ∅ L.ran = some (store, L.responds)
  lists : D.Lists store
  owned : AllOwned D store
  stands : Stands D L.config L.database store L.server

variable {config : Config}

lemma Remapping.resting {M : CrashRun} {orig : Disk} (h : Remapping D config M store orig) (howned : AllOwned D store)
    (hdone : M.phase = .started ∨ M.phase = .down ∧ M.files.saved = config.toLayout) :
    Resting config.toLayout M.files ∧ Spread D config.toLayout (Files.contents M.files.shard) store := by
  obtain ⟨hsaved, hdone, hsettled⟩ : M.files.saved = config.toLayout ∧ CrashRun.Done config orig M.files ∧
      M.files.Settled config.nShardNum.toNat := by
    obtain ⟨F, phase⟩ := M
    have hstands := h.kept.2
    have hcleared := h.tidy.cleared
    rcases hdone with hstarted | ⟨hdown, hsaved⟩
    · cases hstarted
      exact ⟨hstands.1, hstands.2, hcleared⟩
    · cases hdown
      exact ⟨hsaved, hstands.2 hsaved, hcleared hsaved⟩
  refine ⟨⟨hsaved, hsettled⟩, fun index hindex k v => ?_⟩
  rw [hdone index hindex k v, h.holds]
  constructor
  · rintro ⟨hk, hv⟩
    obtain ⟨u, hu, huk⟩ := howned k v hv
    exact ⟨hv, u, hu, huk, (h.agrees u k v hu huk hv).symm.trans hk⟩
  · rintro ⟨hv, u, hu, huk, hloop⟩
    exact ⟨(h.agrees u k v hu huk hv).trans hloop, hv⟩

lemma remapping_of_settled {M : CrashRun} (hdown : M.phase = .down) (hn : 0 ≤ M.files.saved.nShardNum)
    (hsettled : M.files.Settled M.files.saved.nShardNum.toNat) (hchanged : M.files.saved ≠ config.toLayout)
    (hone : M.files.disk.OneShardEach) (hholds : ∀ k v, M.files.disk.Holds k v ↔ store.lookup k = some v)
    (hagrees : ∀ u k v : Bytes, u.length < 2 ^ 32 → Owned D.m_PbMessageKVHandle.native u k → store.lookup k = some v →
      config.remapIndex k = config.dBLoopIndex u) : Remapping D config M store M.files.disk := by
  have hbefore : CrashRun.Before config M.files.disk M := by
    refine ⟨hdown, rfl, hn, hchanged, fun index => ?_, hsettled.tmp_remap⟩
    split_ifs with hindex
    · obtain ⟨dir, hdir⟩ := Option.ne_none_iff_exists'.mp ((hsettled.shard index).mpr hindex)
      change M.files.shard index = some (Files.contents M.files.shard index)
      rw [Files.contents, hdir, Option.getD_some]
    · by_contra hthere
      exact hindex ((hsettled.shard index).mp hthere)
  exact ⟨CrashRun.kept_before hbefore, CrashRun.tidy_before hbefore, hone, hholds, hagrees⟩

lemma Stands.resting {M : CrashRun} (h : Stands D config M store none) (howned : AllOwned D store)
    (hdone : M.phase = .started ∨ M.phase = .down ∧ M.files.saved = config.toLayout) :
    Resting config.toLayout M.files ∧ Spread D config.toLayout (Files.contents M.files.shard) store := by
  rcases h with ⟨hresting, -, hspread⟩ | ⟨orig, hremap⟩
  · exact ⟨hresting, hspread⟩
  · exact hremap.resting howned hdone

variable {L L' : DBLives}

lemma kept_install (hn : 0 < config.nShardNum) : Kept D (install config) ∅ := by
  have hnone : ∀ k v : Bytes, (∅ : Store).lookup k = some v → False := by
    intro k v hv
    cases (AList.lookup_empty k).symm.trans hv
  have hchanged : (⟨0, []⟩ : Layout) ≠ config.toLayout := by
    intro heq
    rw [← heq] at hn
    exact lt_irrefl _ hn
  refine ⟨hn, rfl, PbMessageKVHandle.listing_empty, fun k v hv => (hnone k v hv).elim,
    .inr ⟨_, remapping_of_settled rfl le_rfl ⟨fun index => ?_, fun _ => rfl⟩ hchanged ?_ ?_ ?_⟩⟩
  · exact iff_of_false (fun hthere => hthere rfl) index.not_lt_zero
  · exact fun k i hi => absurd hi i.not_lt_zero
  · intro k v
    refine iff_of_false ?_ (hnone k v)
    rintro ⟨index, hindex, -⟩
    exact absurd hindex index.not_lt_zero
  · exact fun u k v _ _ hv => (hnone k v hv).elim

lemma Kept.configure (h : Kept D L store) {config : Config} (hmeets : Meets D L (.configure config))
    (hs : L.configure config = some L') : Kept D L' store := by
  obtain ⟨hsaved, hn, hagrees⟩ := hmeets
  have hdown : L.database.phase = .down := by
    rw [DBLives.configure] at hs
    split at hs
    · assumption
    · cases hs
  obtain rfl : { L with config := config } = L' := by
    rw [DBLives.configure, hdown] at hs
    exact Option.some.inj hs
  have hserver : L.server = none := by
    cases hs : L.server with
    | none => rfl
    | some s =>
      have hstands := h.stands
      rw [hs] at hstands
      cases hdown.symm.trans hstands.1
  have hstands := h.stands
  rw [hserver] at hstands
  obtain ⟨hresting, hspread⟩ := hstands.resting h.owned (.inr ⟨hdown, hsaved⟩)
  refine ⟨hn, h.runs, h.lists, h.owned, ?_⟩
  dsimp only
  rw [hserver]
  by_cases hsame : config.toLayout = L.config.toLayout
  · rw [← hsame] at hresting hspread
    exact .inl ⟨hresting, .inl hdown, hspread⟩
  · have hholds : ∀ k v, L.database.files.disk.Holds k v ↔ store.lookup k = some v := by
      intro k v
      rw [← hspread.holds h.positive h.owned, ← hsaved]
      rfl
    have hsettled := hresting.settled
    rw [← hsaved] at hsettled
    have hn' := h.positive
    rw [← hsaved] at hn'
    refine .inr ⟨_, remapping_of_settled hdown hn'.le hsettled ?_ (oneShardEach hspread hsaved rfl) hholds ?_⟩
    · rw [hsaved]
      exact Ne.symm hsame
    · intro u k v hu hk hv
      obtain ⟨index, hindex, hshard⟩ := (hspread.holds h.positive h.owned).mpr hv
      exact hagrees.resolve_left hsame u k v hu hk ⟨index, .inr hshard⟩

lemma Stands.start (hn : 0 < config.nShardNum) (howned : AllOwned D store) {M M' : CrashRun} {e : CrashEvent}
    (h : Stands D config M store none) (hs : M.step config e = some M') : Stands D config M' store none := by
  rcases h with ⟨hresting, hphase, hspread⟩ | ⟨orig, hremap⟩
  · obtain ⟨hfiles, hphase'⟩ : M'.files = M.files ∧ (M'.phase = .down ∨ M'.phase = .started) := by
      obtain ⟨F, phase⟩ := M
      rcases hphase with hdown | hstarted
      · cases hdown
        cases e with
        | initRocksDb =>
          have hsaved : F.saved = config.toLayout := hresting.saved
          simp only [CrashRun.step, CrashRun.initRocksDb] at hs
          rw [if_pos ⟨congrArg Layout.nShardNum hsaved, congrArg Layout.hashSlat hsaved⟩] at hs
          cases hs
          exact ⟨rfl, .inr rfl⟩
        | copy e | switch | crash => cases hs
      · cases hstarted
        cases e with
        | initRocksDb | copy e | switch => cases hs
        | crash =>
          cases hs
          exact ⟨rfl, .inl rfl⟩
    rw [← hfiles] at hresting hspread
    exact .inl ⟨hresting, hphase', hspread⟩
  · have hkeys : ∀ k v, orig.Holds k v → k.head? ≠ some 0xff := by
      intro k v hv
      obtain ⟨u, -, hk⟩ := howned k v ((hremap.holds k v).mp hv)
      exact hk.head
    exact .inr ⟨orig, CrashRun.kept_step hn hremap.one hkeys hremap.kept hs, hremap.tidy.step hremap.kept hs, hremap.one,
      hremap.holds, hremap.agrees⟩

lemma Kept.start (h : Kept D L store) {e : CrashEvent} (hs : L.start e = some L') : Kept D L' store := by
  obtain ⟨config, M, server, executed, answers⟩ := L
  cases server with
  | none =>
    obtain ⟨M', hstep, rfl⟩ := Option.map_eq_some_iff.mp hs
    exact ⟨h.positive, h.runs, h.lists, h.owned, Stands.start h.positive h.owned h.stands hstep⟩
  | some s => cases hs

lemma Kept.startRocksDb (h : Kept D L store) (hs : L.startRocksDb = some L') : Kept D L' store := by
  obtain ⟨config, ⟨F, phase⟩, server, executed, answers⟩ := L
  cases server with
  | some s => cases hs
  | none =>
    cases phase with
    | started =>
      cases hs
      obtain ⟨hresting, hspread⟩ := Stands.resting h.stands h.owned (.inl rfl)
      exact ⟨h.positive, h.runs, h.lists, h.owned, rfl, hresting, hspread, fun _ job hjob => absurd hjob List.not_mem_nil⟩
    | down | copying | removing | switching | savingShardNum | savingHashSlat => cases hs

lemma Serving.handle {s : DBServer} (h : Serving D layout s store) (hn : 0 < layout.nShardNum) {packet : DBPacket}
    (hp : packet.OfUser D) : Serving D layout ((D.withLayout layout).onHandle s packet) store := by
  refine ⟨h.spread, fun index job hjob => ?_⟩
  have hloop := dBLoop_withLayout (D := D) hn packet.strIndexKey
  simp only [DBExecModule.onHandle, hloop] at hjob
  by_cases hsame : index = layout.dBLoopIndex packet.strIndexKey
  · rw [hsame, LoopPool.pending_post_self] at hjob
    rcases List.mem_append.mp hjob with hold | hnew
    · rw [hsame]
      exact h.queued _ job hold
    · rw [List.mem_singleton.mp hnew]
      exact ⟨hp, hsame.symm⟩
  · rw [LoopPool.pending_post_of_ne hsame] at hjob
    exact h.queued index job hjob

lemma Kept.serve (hidx : D.m_PbMessageKVHandle.funRang = none) (h : Kept D L store) {e : DBEvent}
    (hmeets : Meets D L (.serve e)) (hs : L.serve D e = some L') : ∃ store', Kept D L' store' := by
  obtain ⟨config, M, server, executed, answers⟩ := L
  cases server with
  | none =>
    cases e with
    | handle packet =>
      cases hs
      exact ⟨store, h⟩
    | loop index => cases hs
  | some s =>
    obtain ⟨t, hstep, rfl⟩ := Option.map_eq_some_iff.mp hs
    obtain ⟨hstarted, hresting, hserving⟩ := h.stands
    cases e with
    | handle packet =>
      cases hstep
      refine ⟨store, h.positive, ?_, h.lists, h.owned, hstarted, hresting, hserving.handle h.positive hmeets⟩
      have hran : ((D.withLayout config.toLayout).onHandle s packet).m_loopPool.ran = s.m_loopPool.ran := by
        rw [DBExecModule.onHandle, dBLoop_withLayout h.positive]
        rfl
      have hruns := h.runs
      simp only [ran, responds, Option.elim_some] at hruns ⊢
      rw [hran]
      exact hruns
    | loop index =>
      obtain ⟨⟨job, pool⟩, htake, hstep⟩ := Option.bind_eq_some_iff.mp hstep
      obtain ⟨⟨shard, answer⟩, hdo, rfl⟩ := Option.map_eq_some_iff.mp hstep
      obtain ⟨hpending, hothers⟩ := LoopPool.pending_take htake
      obtain ⟨hp, hindex⟩ := hserving.queued index job (by rw [hpending]; exact List.mem_cons_self)
      obtain ⟨store', hone, howned, hspread⟩ := hserving.spread.funcDo hidx h.positive h.owned h.lists hp hindex hdo
      refine ⟨store', h.positive, ?_, DBExecModule.funcDo_lists hp h.lists hone, howned, hstarted, hresting, hspread, ?_⟩
      · have hruns := h.runs
        simp only [ran, responds, Option.elim_some, LoopPool.ran_take htake, List.map_append, List.map_cons, List.map_nil,
          ← List.append_assoc] at hruns ⊢
        exact runAll_concat.mpr ⟨store, _, answer, hruns, hone, rfl⟩
      · intro index' job' hjob
        dsimp only at hjob
        by_cases hsame : index' = index
        · rw [hsame] at hjob ⊢
          exact hserving.queued index job' (by rw [hpending]; exact List.mem_cons_of_mem _ hjob)
        · rw [hothers index' hsame] at hjob
          exact hserving.queued index' job' hjob

lemma Kept.stop (h : Kept D L store) (hs : L.stop = some L') : Kept D L' store := by
  obtain ⟨config, M, server, executed, answers⟩ := L
  cases server with
  | none => cases hs
  | some s =>
    cases hs
    obtain ⟨-, hresting, hserving⟩ := h.stands
    have hruns := h.runs
    simp only [ran, responds, Option.elim_some] at hruns
    refine ⟨h.positive, ?_, h.lists, h.owned, .inl ⟨⟨hresting.saved, ⟨fun index => ?_, hresting.settled.tmp_remap⟩⟩,
      .inl rfl, fun index hindex k v => ?_⟩⟩
    · simp only [ran, responds, Option.elim_none, List.append_nil]
      exact hruns
    · dsimp only [written]
      split_ifs with hindex
      · exact iff_of_true (Option.some_ne_none _) hindex
      · exact hresting.settled.shard index
    · have hcontents : Files.contents (written M.files config.nShardNum.toNat s.shards).shard index = s.shards index := by
        rw [Files.contents, written]
        dsimp only
        rw [if_pos hindex, Option.getD_some]
      dsimp only
      rw [hcontents]
      exact hserving.spread index hindex k v

theorem Kept.step (hidx : D.m_PbMessageKVHandle.funRang = none) (h : Kept D L store) {e : LifeEvent} (hmeets : Meets D L e)
    (hs : L.step D e = some L') : ∃ store', Kept D L' store' := by
  cases e with
  | configure config => exact ⟨store, h.configure hmeets hs⟩
  | start e => exact ⟨store, h.start hs⟩
  | startRocksDb => exact ⟨store, h.startRocksDb hs⟩
  | serve e => exact h.serve hidx hmeets hs
  | stop => exact ⟨store, h.stop hs⟩

lemma Kept.holds (h : Kept D L store) (k v : Bytes) : L.Holds k v ↔ store.lookup k = some v := by
  obtain ⟨config, M, server, executed, answers⟩ := L
  cases server with
  | some s =>
    obtain ⟨-, -, hserving⟩ := h.stands
    exact hserving.spread.holds h.positive h.owned
  | none =>
    rcases h.stands with ⟨hresting, hphase, hspread⟩ | ⟨orig, hremap⟩
    · have hfiles : M.onDisk config = M.files := by
        rcases hphase with hphase | hphase <;> rw [CrashRun.onDisk, hphase]
      change CrashRun.OnDisk (M.onDisk config) k v ↔ _
      rw [hfiles, ← hspread.holds h.positive h.owned]
      constructor
      · rintro ⟨index, htmp | hshard⟩
        · rw [CrashRun.contents_of_none (hresting.settled.tmp_remap index)] at htmp
          cases htmp
        · refine ⟨index, ?_, hshard⟩
          apply (hresting.settled.shard index).mp
          intro hnone
          rw [CrashRun.contents_of_none hnone] at hshard
          cases hshard
      · rintro ⟨index, -, hshard⟩
        exact ⟨index, .inr hshard⟩
    · exact (hremap.kept.onDisk_iff h.positive hremap.one).trans (hremap.holds k v)

open DBExecModule

/-- The first start dies in its remap; the second serves a save of `u1` and dies; the third serves a query of `u1`. -/
def threeLives : List LifeEvent :=
  [.start .initRocksDb, .start (.copy (.write 0)), .start .crash] ++
    [.start .initRocksDb, .start (.copy (.write 0)), .start (.copy (.write 1)), .start (.copy .loaded),
      .start (.copy (.write 0)), .start (.copy (.write 1)), .start .switch, .start .switch, .start .switch, .start .switch,
      .start .switch, .start .switch, .start .switch, .startRocksDb, .serve (.handle (saveCount (ascii "u1"))),
      .serve (.loop 1), .stop] ++
    [.start .initRocksDb, .startRocksDb, .serve (.handle queryCount), .serve (.loop 1)]

def built : Config := ⟨⟨2, ascii "DBServer1"⟩, .rightToLeft⟩

end DBLives

end TonyCat.Game
