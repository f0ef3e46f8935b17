import TonyCat.Game.DBExecModule

set_option autoImplicit false

/-! Requests that the DB server handles while `RocksDBModule` may still be starting. -/

namespace TonyCat.Game

open TonyCat.Library TonyCat.Utility TonyCat.Database

/-- What the meta database holds; a hash salt that is missing reads as the empty text. -/
structure DBMeta where
  shared_num : Option ℤ
  shared_hash_slat : Bytes

/-- `CheckDBBaseData`; `none` if the meta database cannot be opened. -/
def checkDBBaseData (config : Layout) : Option DBMeta → Bool
  | none => false
  | some saved => saved.shared_num = some config.nShardNum && saved.shared_hash_slat = config.hashSlat

def remapBegins (config : Layout) : Option DBMeta → Bool
  | none => false
  | some saved => 0 < config.nShardNum &&
      !(saved.shared_num.getD 0 = config.nShardNum && saved.shared_hash_slat = config.hashSlat)

inductive StartUp
  /-- so many loops of the new shards have not closed their database -/
  | remapping (left : ℕ)
  /-- the function that ends the remap is posted to the main loop -/
  | finishing
  | started
  | returned
  deriving DecidableEq

inductive ShardTask
  | setIndex
  | openDB
  | request (job : DBJob)
  deriving DecidableEq

structure StartServer where
  startUp : StartUp
  /-- `m_vecLoops.size()` -/
  loops : ℕ
  handled : List DBPacket
  m_loopPool : LoopPool ShardTask
  t_pRocksDB : ℕ → Bool
  shards : ℕ → Store
  /-- requests that were run on a loop without a database -/
  nullRuns : List DBJob
  responds : List (ℕ × DBRespond)

inductive StartEvent
  | handle (packet : DBPacket)
  | remapped
  | finish
  | loop (index : ℕ)

/-- `opens` is the outcome of `DB::Open` on each shard. -/
structure DBStart where
  exec : DBExecModule
  nShardNum : ℤ
  opens : ℕ → Bool

def DBRespond.head : DBRespond → ServerHead
  | .saveData _ head => head
  | .queryData _ head _ => head

namespace DBStart

variable (D : DBStart)

def config : Layout := ⟨D.nShardNum, D.exec.m_strDBInstanceName⟩

def startRocksDb (s : StartServer) : StartServer :=
  let loops := D.nShardNum.toNat
  { s with
    startUp := .started
    loops := loops
    m_loopPool := (s.m_loopPool.broadcast loops .setIndex).broadcast loops .openDB }

def start : StartServer := ⟨.returned, 0, [], .init, fun _ => false, fun _ => ∅, [], []⟩

/-- `InitRocksDb`, with what the two openings of the meta database give. -/
def initRocksDb (checked remapped : Option DBMeta) : StartServer :=
  if checkDBBaseData D.config checked then D.startRocksDb start
  else if remapBegins D.config remapped then { start with startUp := .remapping D.nShardNum.toNat }
  else start

def dBLoop (s : StartServer) (strIndexKey : Bytes) : Option ℕ :=
  { D.exec with loopNum := s.loops }.dBLoop strIndexKey

def onHandle (s : StartServer) (packet : DBPacket) : StartServer :=
  { s with
    handled := s.handled ++ [packet]
    m_loopPool := match D.dBLoop s packet.strIndexKey with
      | none => s.m_loopPool
      | some index => s.m_loopPool.post index (.request ⟨s.handled.length, packet⟩) }

def runTask (s : StartServer) (index : ℕ) : ShardTask → Option StartServer
  | .setIndex => some s
  | .openDB => some { s with t_pRocksDB := Function.update s.t_pRocksDB index (D.opens index) }
  | .request job =>
    if s.t_pRocksDB index then
      (D.exec.funcDo (s.shards index) job.packet).map fun done =>
        { s with
          shards := Function.update s.shards index done.1
          responds := s.responds ++ [(job.number, done.2)] }
    else some { s with nullRuns := s.nullRuns ++ [job] }

def step (s : StartServer) : StartEvent → Option StartServer
  | .handle packet => some (D.onHandle s packet)
  | .remapped =>
    match s.startUp with
    | .remapping (left + 1) => some { s with startUp := if left = 0 then .finishing else .remapping left }
    | _ => none
  | .finish => if s.startUp = .finishing then some (D.startRocksDb s) else none
  | .loop index => (s.m_loopPool.take index).bind fun next => D.runTask { s with m_loopPool := next.2 } index next.1

end DBStart

/-! ### No request is lost -/

namespace StartServer

def Queued (s : StartServer) (job : DBJob) : Prop := ∃ index, .request job ∈ s.m_loopPool.pending index

def Executed (s : StartServer) (job : DBJob) : Prop := ∃ index, .request job ∈ ranOn s.m_loopPool.ran index

def ExecutedOnce (s : StartServer) (job : DBJob) : Prop :=
  ∃ index, (ranOn s.m_loopPool.ran index).count (.request job) = 1 ∧
    ∀ index', index' ≠ index → .request job ∉ ranOn s.m_loopPool.ran index'

def AnsweredWithError (s : StartServer) (number : ℕ) : Prop :=
  ∃ respond, (number, respond) ∈ s.responds ∧ respond.head.error_code ≠ ss_msg_success

/-- Every request that was handled is queued, was executed once or was answered with an error, and none was executed
without a database. -/
structure NoneLost (s : StartServer) : Prop where
  kept : ∀ number packet, s.handled[number]? = some packet →
    s.Queued ⟨number, packet⟩ ∧ ¬ s.Executed ⟨number, packet⟩ ∨
      s.ExecutedOnce ⟨number, packet⟩ ∧ ¬ s.Queued ⟨number, packet⟩ ∨ s.AnsweredWithError number
  opened : s.nullRuns = []

end StartServer

namespace DBStart

variable {D : DBStart}

def Guarded (D : DBStart) (s : StartServer) (index : ℕ) : Prop :=
  (∃ before after, s.m_loopPool.pending index = before ++ .openDB :: after ∧ ∀ job, .request job ∉ before) ∨
    s.t_pRocksDB index = D.opens index

structure Consistent (D : DBStart) (s : StartServer) : Prop where
  idle : s.startUp ≠ .started → s.loops = 0
  known : ∀ index job, .request job ∈ s.m_loopPool.posted index → s.handled[job.number]? = some job.packet
  once : ∀ index job, (s.m_loopPool.posted index).count (.request job) ≤ 1
  apart : ∀ index index' job, .request job ∈ s.m_loopPool.posted index →
    .request job ∈ s.m_loopPool.posted index' → index = index'
  inside : ∀ index, s.loops ≤ index → s.m_loopPool.posted index = []
  guarded : ∀ index, index < s.loops → D.Guarded s index
  responded : ∀ r ∈ s.responds, ∃ index job, job.number = r.1 ∧ .request job ∈ ranOn s.m_loopPool.ran index

lemma consistent_start : D.Consistent start where
  idle _ := rfl
  known _ _ hmem := by cases hmem
  once _ _ := Nat.zero_le 1
  apart _ _ _ hmem := by cases hmem
  inside _ _ := rfl
  guarded _ hlt := absurd hlt (Nat.not_lt_zero _)
  responded := List.forall_mem_nil _

lemma mem_posted {pool : LoopPool ShardTask} {index : ℕ} {task : ShardTask} :
    task ∈ pool.posted index ↔ task ∈ ranOn pool.ran index ∨ task ∈ pool.pending index := List.mem_append

lemma Consistent.kept_iff {s : StartServer} (h : D.Consistent s) {number : ℕ} {packet : DBPacket}
    (hp : s.handled[number]? = some packet) :
    (s.Queued ⟨number, packet⟩ ∧ ¬ s.Executed ⟨number, packet⟩ ∨
      s.ExecutedOnce ⟨number, packet⟩ ∧ ¬ s.Queued ⟨number, packet⟩ ∨ s.AnsweredWithError number) ↔
    ∃ index, .request ⟨number, packet⟩ ∈ s.m_loopPool.posted index := by
  constructor
  · rintro (⟨⟨index, hmem⟩, -⟩ | ⟨⟨index, hcount, -⟩, -⟩ | ⟨respond, hmem, -⟩)
    · exact ⟨index, mem_posted.mpr (.inr hmem)⟩
    · exact ⟨index, mem_posted.mpr (.inl (List.count_pos_iff.mp (by omega)))⟩
    · obtain ⟨index, job, hnumber, hran⟩ := h.responded _ hmem
      have hposted := mem_posted.mpr (.inl hran)
      have hknown := h.known index job hposted
      rw [hnumber] at hknown
      obtain rfl : job = ⟨number, packet⟩ := by
        obtain ⟨n, p⟩ := job
        cases hnumber
        cases hknown.symm.trans hp
        rfl
      exact ⟨index, hposted⟩
  · rintro ⟨index, hmem⟩
    have hcount := h.once index ⟨number, packet⟩
    rw [LoopPool.posted, List.count_append] at hcount
    have honly : ∀ index', index' ≠ index → .request ⟨number, packet⟩ ∉ s.m_loopPool.posted index' :=
      fun index' hne hmem' => hne (h.apart index' index _ hmem' hmem)
    by_cases hran : .request ⟨number, packet⟩ ∈ ranOn s.m_loopPool.ran index
    · have hpos := List.count_pos_iff.mpr hran
      refine .inr (.inl ⟨⟨index, by omega, fun index' hne hran' => ?_⟩, ?_⟩)
      · exact honly index' hne (mem_posted.mpr (.inl hran'))
      · rintro ⟨index', hpending⟩
        by_cases heq : index' = index
        · rw [heq] at hpending
          have hpos' := List.count_pos_iff.mpr hpending
          omega
        · exact honly index' heq (mem_posted.mpr (.inr hpending))
    · refine .inl ⟨⟨index, (mem_posted.mp hmem).resolve_left hran⟩, ?_⟩
      rintro ⟨index', hran'⟩
      by_cases heq : index' = index
      · exact hran (heq ▸ hran')
      · exact honly index' heq (mem_posted.mpr (.inl hran'))

lemma Consistent.nothingLost_iff {s : StartServer} (h : D.Consistent s) : s.NoneLost ↔
    (∀ number packet, s.handled[number]? = some packet →
      ∃ index, .request ⟨number, packet⟩ ∈ s.m_loopPool.posted index) ∧ s.nullRuns = [] := by
  constructor
  · exact fun hlost => ⟨fun number packet hp => (h.kept_iff hp).mp (hlost.kept number packet hp), hlost.opened⟩
  · exact fun hall => ⟨fun number packet hp => (h.kept_iff hp).mpr (hall.1 number packet hp), hall.2⟩

/-! ### Steps -/

lemma posted_startRocksDb {s : StartServer} (hidle : ∀ index, s.m_loopPool.posted index = []) (index : ℕ) :
    (D.startRocksDb s).m_loopPool.posted index = if index < D.nShardNum.toNat then [.setIndex, .openDB] else [] := by
  rw [startRocksDb]
  dsimp only
  rw [LoopPool.posted_broadcast, LoopPool.posted_broadcast, hidle index]
  split_ifs <;> rfl

lemma Consistent.startRocksDb {s : StartServer} (h : D.Consistent s) (hloops : s.loops = 0) :
    D.Consistent (D.startRocksDb s) := by
  have hidle : ∀ index, s.m_loopPool.posted index = [] := fun index => h.inside index (hloops ▸ Nat.zero_le index)
  have hnone : ∀ index job, ShardTask.request job ∉ (D.startRocksDb s).m_loopPool.posted index := by
    intro index job hmem
    rw [posted_startRocksDb hidle index] at hmem
    split_ifs at hmem
    · simp at hmem
    · cases hmem
  constructor
  · exact fun hne => absurd rfl hne
  · exact fun index job hmem => absurd hmem (hnone index job)
  · intro index job
    rw [List.count_eq_zero_of_not_mem (hnone index job)]
    exact Nat.zero_le 1
  · exact fun index _ job hmem => absurd hmem (hnone index job)
  · intro index hle
    have hge : ¬ index < D.nShardNum.toNat := Nat.not_lt.mpr hle
    rw [posted_startRocksDb hidle index, if_neg hge]
  · intro index hlt
    have hpending : s.m_loopPool.pending index = [] := (List.append_eq_nil_iff.mp (hidle index)).2
    have hopen : (D.startRocksDb s).m_loopPool.pending index = [.setIndex, .openDB] := by
      change (if index < D.nShardNum.toNat then
        (if index < D.nShardNum.toNat then s.m_loopPool.pending index ++ [.setIndex] else _) ++ [.openDB] else _) = _
      have hlt' : index < D.nShardNum.toNat := hlt
      rw [if_pos hlt', if_pos hlt', hpending]
      rfl
    exact .inl ⟨[.setIndex], [], hopen, by simp⟩
  · intro r hr
    obtain ⟨index, job, -, hran⟩ := h.responded r hr
    exact absurd (mem_posted.mpr (.inl hran)) (by rw [hidle index]; exact List.not_mem_nil)

lemma dBLoop_eq_some {s : StartServer} {strIndexKey : Bytes} {index : ℕ} (h : D.dBLoop s strIndexKey = some index) :
    index < s.loops := by
  rw [dBLoop, DBExecModule.dBLoop, DBExecModule.getLoop] at h
  obtain ⟨hne, heq⟩ := Option.ite_none_left_eq_some.mp h
  cases heq
  exact Nat.mod_lt _ (Nat.pos_of_ne_zero hne)

lemma dBLoop_eq_none {s : StartServer} {strIndexKey : Bytes} : D.dBLoop s strIndexKey = none ↔ s.loops = 0 := by
  rw [dBLoop, DBExecModule.dBLoop, DBExecModule.getLoop]
  simp

lemma Consistent.onHandle {s : StartServer} (h : D.Consistent s) (packet : DBPacket) :
    D.Consistent (D.onHandle s packet) := by
  have hgrow : ∀ {number : ℕ} {p : DBPacket}, s.handled[number]? = some p →
      number < s.handled.length ∧ (s.handled ++ [packet])[number]? = some p := by
    intro number p hp
    have hlt := (List.getElem?_eq_some_iff.mp hp).1
    exact ⟨hlt, (List.getElem?_append_left hlt).trans hp⟩
  cases hl : D.dBLoop s packet.strIndexKey with
  | none =>
    simp only [DBStart.onHandle, hl]
    exact ⟨h.idle, fun index job hmem => (hgrow (h.known index job hmem)).2, h.once, h.apart, h.inside, h.guarded,
      h.responded⟩
  | some loop =>
    have hlt := dBLoop_eq_some hl
    -- the new number is larger than all that were posted
    have hnew : ∀ index, ShardTask.request ⟨s.handled.length, packet⟩ ∉ s.m_loopPool.posted index :=
      fun index hmem => absurd (hgrow (h.known index _ hmem)).1 (lt_irrefl _)
    let task : ShardTask := .request ⟨s.handled.length, packet⟩
    have hposted : ∀ index, (s.m_loopPool.post loop task).posted index =
        s.m_loopPool.posted index ++ if index = loop then [task] else [] := by
      intro index
      by_cases heq : index = loop
      · rw [heq, LoopPool.posted_post_self, if_pos rfl]
      · rw [LoopPool.posted_post_of_ne heq, if_neg heq, List.append_nil]
    have hmem_iff : ∀ index job, .request job ∈ (s.m_loopPool.post loop task).posted index ↔
        .request job ∈ s.m_loopPool.posted index ∨ index = loop ∧ job = ⟨s.handled.length, packet⟩ := by
      intro index job
      rw [hposted, List.mem_append]
      refine or_congr Iff.rfl ?_
      split_ifs with heq <;> simp [heq, task]
    simp only [DBStart.onHandle, hl]
    constructor
    · exact h.idle
    · intro index job hmem
      obtain hold | ⟨-, rfl⟩ := (hmem_iff index job).mp hmem
      · exact (hgrow (h.known index job hold)).2
      · exact List.getElem?_concat_length
    · intro index job
      change ((s.m_loopPool.post loop task).posted index).count _ ≤ 1
      rw [hposted, List.count_append]
      split_ifs with heq
      · by_cases hjob : job = ⟨s.handled.length, packet⟩
        · rw [hjob, List.count_eq_zero_of_not_mem (hnew index), Nat.zero_add, List.count_singleton_self]
        · have hnot : ShardTask.request job ∉ [task] := by
            rw [List.mem_singleton]
            exact fun heq => hjob (ShardTask.request.inj heq)
          rw [List.count_eq_zero_of_not_mem hnot]
          exact h.once index job
      · exact h.once index job
    · intro index index' job hmem hmem'
      obtain hold | ⟨rfl, rfl⟩ := (hmem_iff index job).mp hmem
      · obtain hold' | ⟨-, rfl⟩ := (hmem_iff index' job).mp hmem'
        · exact h.apart index index' job hold hold'
        · exact absurd hold (hnew index)
      · obtain hold' | ⟨rfl, -⟩ := (hmem_iff index' _).mp hmem'
        · exact absurd hold' (hnew index')
        · rfl
    · intro index hle
      have hle' : s.loops ≤ index := hle
      have hne : index ≠ loop := by omega
      change (s.m_loopPool.post loop task).posted index = []
      rw [hposted, h.inside index hle, if_neg hne]
      rfl
    · intro index hindex
      obtain ⟨before, after, hpending, hnone⟩ | hopened := h.guarded index hindex
      · by_cases heq : index = loop
        · refine .inl ⟨before, after ++ [task], ?_, hnone⟩
          change Function.update s.m_loopPool.pending loop (s.m_loopPool.pending loop ++ [task]) index = _
          rw [heq, Function.update_self, ← heq, hpending, List.append_assoc, List.cons_append]
        · refine .inl ⟨before, after, ?_, hnone⟩
          exact (Function.update_of_ne heq _ _).trans hpending
      · exact .inr hopened
    · exact h.responded

lemma runTask_frame {s t : StartServer} {index : ℕ} {task : ShardTask} (h : D.runTask s index task = some t) :
    t.startUp = s.startUp ∧ t.loops = s.loops ∧ t.handled = s.handled ∧ t.m_loopPool = s.m_loopPool ∧
      t.t_pRocksDB = if task = .openDB then Function.update s.t_pRocksDB index (D.opens index) else s.t_pRocksDB := by
  cases task with
  | setIndex =>
    cases h
    exact ⟨rfl, rfl, rfl, rfl, rfl⟩
  | openDB =>
    cases h
    exact ⟨rfl, rfl, rfl, rfl, rfl⟩
  | request job =>
    rw [runTask] at h
    split at h
    · obtain ⟨done, -, rfl⟩ := Option.map_eq_some_iff.mp h
      exact ⟨rfl, rfl, rfl, rfl, rfl⟩
    · cases h
      exact ⟨rfl, rfl, rfl, rfl, rfl⟩

lemma runTask_responds {s t : StartServer} {index : ℕ} {task : ShardTask} (h : D.runTask s index task = some t) :
    ∀ r ∈ t.responds, r ∈ s.responds ∨ ∃ job, task = .request job ∧ job.number = r.1 := by
  intro r hr
  cases task with
  | setIndex =>
    cases h
    exact .inl hr
  | openDB =>
    cases h
    exact .inl hr
  | request job =>
    rw [runTask] at h
    split at h
    · obtain ⟨done, -, rfl⟩ := Option.map_eq_some_iff.mp h
      obtain hr | hr := List.mem_append.mp hr
      · exact .inl hr
      · rw [List.mem_singleton.mp hr]
        exact .inr ⟨job, rfl, rfl⟩
    · cases h
      exact .inl hr

lemma Guarded.runTask {s t : StartServer} {loop index : ℕ} {task : ShardTask} {pool : LoopPool ShardTask}
    (htake : s.m_loopPool.take loop = some (task, pool)) (hrun : D.runTask { s with m_loopPool := pool } loop task = some t)
    (h : D.Guarded s index) : D.Guarded t index := by
  obtain ⟨hpending, hothers⟩ := LoopPool.pending_take htake
  obtain ⟨-, -, -, hpool, hdb⟩ := runTask_frame hrun
  rw [Guarded, hpool, hdb]
  dsimp only
  by_cases heq : index = loop
  · subst heq
    by_cases hopen : task = .openDB
    · rw [if_pos hopen, Function.update_self]
      exact .inr rfl
    · rw [if_neg hopen]
      refine h.imp_left ?_
      rintro ⟨before, after, hsplit, hnone⟩
      rw [hpending] at hsplit
      cases before with
      | nil => exact absurd (List.cons.inj hsplit).1 hopen
      | cons b before =>
        exact ⟨before, after, (List.cons.inj hsplit).2, fun job hmem => hnone job (List.mem_cons_of_mem b hmem)⟩
  · rw [hothers index heq]
    have hsame : (if task = .openDB then Function.update s.t_pRocksDB loop (D.opens loop) else s.t_pRocksDB) index =
        s.t_pRocksDB index := by
      split
      · exact Function.update_of_ne heq _ _
      · rfl
    rw [hsame]
    exact h

lemma Consistent.step {s t : StartServer} {e : StartEvent} (h : D.Consistent s) (hs : D.step s e = some t) :
    D.Consistent t := by
  cases e with
  | handle packet =>
    cases hs
    exact h.onHandle packet
  | remapped =>
    rw [DBStart.step] at hs
    split at hs
    case h_1 left hup =>
      cases hs
      exact ⟨fun _ => h.idle (by rw [hup]; exact nofun), h.known, h.once, h.apart, h.inside, h.guarded, h.responded⟩
    case h_2 => cases hs
  | finish =>
    obtain ⟨hup, hs⟩ := Option.ite_none_right_eq_some.mp hs
    cases hs
    exact h.startRocksDb (h.idle (by rw [hup]; exact nofun))
  | loop index =>
    obtain ⟨⟨task, pool⟩, htake, hs⟩ := Option.bind_eq_some_iff.mp hs
    obtain ⟨hup, hloops, hhandled, hpool, -⟩ := runTask_frame hs
    have hposted : ∀ index, t.m_loopPool.posted index = s.m_loopPool.posted index := by
      intro index
      rw [hpool]
      exact LoopPool.posted_take htake index
    have hran : ∀ index', ranOn t.m_loopPool.ran index' =
        ranOn s.m_loopPool.ran index' ++ if index' = index then [task] else [] := by
      intro index'
      rw [hpool]
      exact LoopPool.ranOn_take htake index'
    constructor
    · rw [hup, hloops]
      exact h.idle
    · simp only [hposted, hhandled]
      exact h.known
    · simp only [hposted]
      exact h.once
    · simp only [hposted]
      exact h.apart
    · simp only [hposted, hloops]
      exact h.inside
    · rw [hloops]
      exact fun index' hlt => (h.guarded index' hlt).runTask htake hs
    · intro r hr
      obtain hr | ⟨job, rfl, hnumber⟩ := runTask_responds hs r hr
      · obtain ⟨index', job, hnumber, hmem⟩ := h.responded r hr
        refine ⟨index', job, hnumber, ?_⟩
        rw [hran]
        exact List.mem_append_left _ hmem
      · refine ⟨index, job, hnumber, ?_⟩
        rw [hran, if_pos rfl]
        exact List.mem_append_right _ (List.mem_singleton_self _)

lemma consistent_initRocksDb (checked remapped : Option DBMeta) : D.Consistent (D.initRocksDb checked remapped) := by
  rw [initRocksDb]
  split
  · exact consistent_start.startRocksDb rfl
  · split
    · have h : D.Consistent start := consistent_start
      exact ⟨fun _ => rfl, h.known, h.once, h.apart, h.inside, h.guarded, h.responded⟩
    · exact consistent_start

/-! ### Runs -/

/-- A request is handled when the pool has loops, and runs on a shard whose database can be opened. -/
def Meets (D : DBStart) (s : StartServer) : StartEvent → Prop
  | .handle _ => s.loops ≠ 0
  | .loop index => (∃ job rest, s.m_loopPool.pending index = .request job :: rest) → D.opens index = true
  | _ => True

lemma Consistent.opened {s : StartServer} (h : D.Consistent s) {index : ℕ} {job : DBJob} {rest : List ShardTask}
    (hpending : s.m_loopPool.pending index = .request job :: rest) : s.t_pRocksDB index = D.opens index := by
  have hlt : index < s.loops := by
    by_contra hge
    have hnil := (List.append_eq_nil_iff.mp (h.inside index (Nat.not_lt.mp hge))).2
    rw [hpending] at hnil
    cases hnil
  refine (h.guarded index hlt).resolve_left ?_
  rintro ⟨before, after, hsplit, hnone⟩
  rw [hpending] at hsplit
  cases before with
  | nil => cases hsplit
  | cons b before =>
    obtain ⟨rfl, -⟩ := List.cons.inj hsplit
    exact hnone job List.mem_cons_self

lemma noneLost_onHandle {s : StartServer} (h : D.Consistent s) (hlost : s.NoneLost) (packet : DBPacket) :
    (D.onHandle s packet).NoneLost ↔ s.loops ≠ 0 := by
  rw [(h.onHandle packet).nothingLost_iff]
  obtain ⟨hkept, hopened⟩ := h.nothingLost_iff.mp hlost
  have hlast : (D.onHandle s packet).handled[s.handled.length]? = some packet := List.getElem?_concat_length
  constructor
  · rintro ⟨hall, -⟩ hnone
    obtain ⟨index, hmem⟩ := hall _ packet hlast
    simp only [onHandle, dBLoop_eq_none.mpr hnone, h.inside index (hnone ▸ Nat.zero_le index)] at hmem
    cases hmem
  · intro hloops
    cases hl : D.dBLoop s packet.strIndexKey with
    | none => exact absurd (dBLoop_eq_none.mp hl) hloops
    | some loop =>
      refine ⟨fun number p hp => ?_, hopened⟩
      simp only [onHandle, hl]
      by_cases hlt : number < s.handled.length
      · obtain ⟨index, hmem⟩ := hkept number p ((List.getElem?_append_left hlt).symm.trans hp)
        refine ⟨index, ?_⟩
        by_cases heq : index = loop
        · rw [heq] at hmem ⊢
          rw [LoopPool.posted_post_self]
          exact List.mem_append_left _ hmem
        · rwa [LoopPool.posted_post_of_ne heq]
      · have hnumber : number = s.handled.length := by
          have hbound : number < (s.handled ++ [packet]).length := (List.getElem?_eq_some_iff.mp hp).1
          rw [List.length_append, List.length_singleton] at hbound
          omega
        rw [hnumber] at hp ⊢
        obtain rfl := Option.some.inj (hlast.symm.trans hp)
        refine ⟨loop, ?_⟩
        rw [LoopPool.posted_post_self]
        exact List.mem_append_right _ (List.mem_singleton_self _)

lemma noneLost_step {s t : StartServer} {e : StartEvent} (h : D.Consistent s) (hlost : s.NoneLost)
    (hs : D.step s e = some t) : t.NoneLost ↔ D.Meets s e := by
  obtain ⟨hkept, hopened⟩ := h.nothingLost_iff.mp hlost
  have ht := h.step hs
  cases e with
  | handle packet =>
    cases hs
    exact noneLost_onHandle h hlost packet
  | remapped =>
    rw [step] at hs
    split at hs
    case h_1 left hup =>
      cases hs
      exact iff_of_true (ht.nothingLost_iff.mpr ⟨hkept, hopened⟩) trivial
    case h_2 => cases hs
  | finish =>
    obtain ⟨hup, hs⟩ := Option.ite_none_right_eq_some.mp hs
    cases hs
    refine iff_of_true (ht.nothingLost_iff.mpr ⟨fun number packet hp => ?_, hopened⟩) trivial
    -- no request was posted yet, so none was handled either
    obtain ⟨index, hmem⟩ := hkept number packet hp
    have hloops := h.idle (by rw [hup]; exact nofun)
    rw [h.inside index (hloops ▸ Nat.zero_le index)] at hmem
    cases hmem
  | loop index =>
    obtain ⟨⟨task, pool⟩, htake, hs⟩ := Option.bind_eq_some_iff.mp hs
    obtain ⟨-, -, hhandled, hpool, -⟩ := runTask_frame hs
    obtain ⟨hpending, -⟩ := LoopPool.pending_take htake
    have hposted : ∀ number packet, t.handled[number]? = some packet →
        ∃ index, .request ⟨number, packet⟩ ∈ t.m_loopPool.posted index := by
      intro number packet hp
      rw [hhandled] at hp
      obtain ⟨index', hmem⟩ := hkept number packet hp
      refine ⟨index', ?_⟩
      rw [hpool]
      exact (LoopPool.posted_take htake index').symm ▸ hmem
    rw [ht.nothingLost_iff, and_iff_right hposted, Meets]
    cases task with
    | setIndex =>
      cases hs
      exact iff_of_true hopened (by rintro ⟨job, rest, hhead⟩; rw [hpending] at hhead; cases hhead)
    | openDB =>
      cases hs
      exact iff_of_true hopened (by rintro ⟨job, rest, hhead⟩; rw [hpending] at hhead; cases hhead)
    | request job =>
      have hdb := h.opened hpending
      have hhead : ∃ job rest, s.m_loopPool.pending index = .request job :: rest := ⟨job, _, hpending⟩
      rw [runTask] at hs
      split at hs
      case isTrue hopen =>
        obtain ⟨done, -, rfl⟩ := Option.map_eq_some_iff.mp hs
        exact iff_of_true hopened fun _ => hdb ▸ hopen
      case isFalse hopen =>
        cases hs
        refine iff_of_false (fun hnil => ?_) fun hmeets => hopen (hdb.trans (hmeets hhead))
        exact absurd hnil (List.append_ne_nil_of_right_ne_nil _ (List.cons_ne_nil _ _))

lemma noneLost_initRocksDb (checked remapped : Option DBMeta) : (D.initRocksDb checked remapped).NoneLost := by
  have hinit : (D.initRocksDb checked remapped).handled = [] ∧ (D.initRocksDb checked remapped).nullRuns = [] := by
    rw [initRocksDb]
    split
    · exact ⟨rfl, rfl⟩
    · split <;> exact ⟨rfl, rfl⟩
  rw [(consistent_initRocksDb checked remapped).nothingLost_iff, hinit.1]
  refine ⟨fun _ _ hp => ?_, hinit.2⟩
  cases hp

theorem noneLost_iff {checked remapped : Option DBMeta} {es : List StartEvent} {t : StartServer}
    (h : run D.step (D.initRocksDb checked remapped) es = some t) :
    (∀ done, done <+: es → ∀ s, run D.step (D.initRocksDb checked remapped) done = some s → s.NoneLost) ↔
      StepsMeet D.step (fun _ => D.Meets) (D.initRocksDb checked remapped) es := by
  have hconsistent : ∀ done s, run D.step (D.initRocksDb checked remapped) done = some s → D.Consistent s :=
    fun done s hdone => run_keeps (fun hc hs => Consistent.step hc hs) (consistent_initRocksDb checked remapped) hdone
  have hiff := invariant_iff_stepsMeet (I := fun s => D.Consistent s ∧ s.NoneLost) (C := D.Meets) h
    ⟨consistent_initRocksDb checked remapped, noneLost_initRocksDb checked remapped⟩ fun hI hs =>
      (and_iff_right (hI.1.step hs)).trans (noneLost_step hI.1 hI.2 hs)
  rw [← hiff]
  constructor
  · exact fun hall done hd s hdone => ⟨hconsistent done s hdone, hall done hd s hdone⟩
  · exact fun hall done hd s hdone => (hall done hd s hdone).2

/-! ### A server with one shard and no meta data yet -/

noncomputable def firstStart : DBStart := ⟨DBExecModule.twoShards, 1, fun _ => true⟩

theorem firstStart_noneLost : ∃ s, run firstStart.step (firstStart.initRocksDb (some ⟨none, []⟩) (some ⟨none, []⟩))
      [.remapped, .finish, .handle (DBExecModule.saveCount (ascii "u1")), .loop 0, .loop 0, .loop 0] = some s ∧
    s.NoneLost := by
  obtain ⟨s, hs⟩ : ∃ s, run firstStart.step (firstStart.initRocksDb (some ⟨none, []⟩) (some ⟨none, []⟩))
      [.remapped, .finish, .handle (DBExecModule.saveCount (ascii "u1")), .loop 0, .loop 0, .loop 0] = some s :=
    Option.isSome_iff_exists.mp (by decide +kernel)
  refine ⟨s, hs, (noneLost_iff hs).mpr ?_ _ List.prefix_rfl s hs⟩
  have hloop : ∀ s index, firstStart.Meets s (.loop index) := fun _ _ _ => rfl
  refine stepsMeet_cons trivial fun s₁ h₁ => stepsMeet_cons trivial fun s₂ h₂ => stepsMeet_cons ?_ fun s₃ _ =>
    stepsMeet_cons (hloop _ _) fun s₄ _ => stepsMeet_cons (hloop _ _) fun s₅ _ => stepsMeet_cons (hloop _ _)
      fun s₆ _ => stepsMeet_nil
  cases h₁
  cases h₂
  exact Nat.one_ne_zero

/-- A save that is handled before the remap has ended is dropped. -/
theorem firstStart_save_lost : ∃ s, run firstStart.step (firstStart.initRocksDb (some ⟨none, []⟩) (some ⟨none, []⟩))
      [.handle (DBExecModule.saveCount (ascii "u1"))] = some s ∧ ¬ s.NoneLost := by
  refine ⟨_, rfl, fun hlost => ?_⟩
  have hstart := consistent_initRocksDb (D := firstStart) (some ⟨none, []⟩) (some ⟨none, []⟩)
  exact (noneLost_onHandle hstart (noneLost_initRocksDb _ _) _).mp hlost rfl

end DBStart

end TonyCat.Game
