import TonyCat.Database.Reshard
import TonyCat.Database.SingularTable
import TonyCat.Game.ServerHead
import TonyCat.Library.LoopPool

set_option autoImplicit false

/-! The requests that the DB server runs on the loops of its shards, and whether a query sees the
saves that were handled before it. -/

namespace TonyCat.Game

open TonyCat.Library TonyCat.Utility TonyCat.Database

inductive DBPacket
  | saveData (sessionId : ℤ) (head : ServerHead) (kv_data_update kv_data_delete : Message)
  | queryData (sessionId : ℤ) (head : ServerHead) (user_id : Bytes)
  deriving DecidableEq

/-- The key that `DBLoopExec` is given: from the head of a save, from the body of a query. -/
def DBPacket.strIndexKey : DBPacket → Bytes
  | saveData _ head _ _ => head.user_id
  | queryData _ _ user_id => user_id

inductive DBRespond
  | saveData (sessionId : ℤ) (head : ServerHead)
  | queryData (sessionId : ℤ) (head : ServerHead) (user_data : Message)

structure DBJob where
  number : ℕ
  packet : DBPacket
  deriving DecidableEq

structure DBServer where
  handled : ℕ
  m_loopPool : LoopPool DBJob
  shards : ℕ → Store
  responds : List DBRespond

inductive DBEvent
  | handle (packet : DBPacket)
  | loop (index : ℕ)

structure DBExecModule where
  m_PbMessageKVHandle : PbMessageKVHandle
  m_strDBInstanceName : Bytes
  /-- `m_vecLoops.size()` of the loop pool -/
  loopNum : ℕ
  userData : Bytes → Message

namespace DBExecModule

variable (D : DBExecModule)

def getLoop (index : UInt32) : Option ℕ :=
  if D.loopNum = 0 then none else some (index.toNat % D.loopNum)

def dBLoop (strIndexKey : Bytes) : Option ℕ :=
  D.getLoop (crc32Parts strIndexKey D.m_strDBInstanceName)

def start : DBServer := ⟨0, .init, fun _ => ∅, []⟩

def onHandle (s : DBServer) (packet : DBPacket) : DBServer :=
  { s with
    handled := s.handled + 1
    m_loopPool := match D.dBLoop packet.strIndexKey with
      | none => s.m_loopPool
      | some index => s.m_loopPool.post index ⟨s.handled, packet⟩ }

def funcDo (store : Store) : DBPacket → Option (Store × DBRespond)
  | .saveData sessionId head kv_data_update kv_data_delete =>
    (D.m_PbMessageKVHandle.messageUpdateOnKV store kv_data_update).bind fun store =>
      (D.m_PbMessageKVHandle.messageDeleteOnKV store kv_data_delete).map fun store =>
        (store, .saveData sessionId head)
  | .queryData sessionId head user_id =>
    (D.m_PbMessageKVHandle.messageLoadOnKV store (D.userData user_id)).map fun user_data =>
      (store, .queryData sessionId head user_data)

def runLoop (s : DBServer) (index : ℕ) : Option DBServer :=
  (s.m_loopPool.take index).bind fun next =>
    (D.funcDo (s.shards index) next.1.packet).map fun done =>
      { s with
        m_loopPool := next.2
        shards := Function.update s.shards index done.1
        responds := s.responds ++ [done.2] }

/-- One step; `none` when the loop has nothing to run, or runs into undefined behaviour. -/
def step (s : DBServer) : DBEvent → Option DBServer
  | .handle packet => some (D.onHandle s packet)
  | .loop index => D.runLoop s index

def packets (es : List DBEvent) : List DBPacket :=
  es.filterMap fun e => match e with
    | .handle packet => some packet
    | .loop _ => none

def Saves (u : Bytes) (head : ServerHead) : DBPacket → Prop
  | .saveData _ head' kv_data_update _ => head' = head ∧ D.m_PbMessageKVHandle.userText kv_data_update = u
  | .queryData .. => False

def Queries (u : Bytes) : DBPacket → Prop
  | .saveData .. => False
  | .queryData _ _ user_id => user_id = u

/-- Whenever the load of a query has run, every save of its user that was handled before the query
has run before it, on the same shard and on no other. -/
def ReadsItsWrites (es : List DBEvent) (s : DBServer) : Prop :=
  ∀ (i j : ℕ) (save query : DBPacket) (u : Bytes) (head : ServerHead), i < j →
    (packets es)[i]? = some save → (packets es)[j]? = some query → D.Saves u head save → Queries u query →
    ∀ before index after, s.m_loopPool.ran = before ++ (index, ⟨j, query⟩) :: after →
      (index, ⟨i, save⟩) ∈ before ∧ ∀ index', (index', ⟨i, save⟩) ∈ s.m_loopPool.ran → index' = index

/-- The head of every save that is handled before a query of its user names the loop of that user. -/
def SameLoops (es : List DBEvent) : Prop :=
  ∀ (i j : ℕ) (save query : DBPacket) (u : Bytes) (head : ServerHead), i < j →
    (packets es)[i]? = some save → (packets es)[j]? = some query → D.Saves u head save → Queries u query →
    D.dBLoop head.user_id = D.dBLoop u

variable {D}

def jobs (ps : List DBPacket) : List DBJob :=
  ps.zipIdx.map fun e => ⟨e.2, e.1⟩

lemma jobs_concat (ps : List DBPacket) (p : DBPacket) : jobs (ps ++ [p]) = jobs ps ++ [⟨ps.length, p⟩] := by
  simp [jobs, List.zipIdx_append]

lemma jobs_getElem? (ps : List DBPacket) (i : ℕ) : (jobs ps)[i]? = ps[i]?.map fun p => ⟨i, p⟩ := by
  simp [jobs, List.getElem?_zipIdx, Function.comp_def]

lemma jobs_number (ps : List DBPacket) {i : ℕ} {job : DBJob} (h : (jobs ps)[i]? = some job) : job.number = i := by
  rw [jobs_getElem?, Option.map_eq_some_iff] at h
  obtain ⟨p, _, rfl⟩ := h
  rfl

def jobsOn (D : DBExecModule) (index : ℕ) (ps : List DBPacket) : List DBJob :=
  (jobs ps).filter fun job => D.dBLoop job.packet.strIndexKey = some index

structure Routed (D : DBExecModule) (es : List DBEvent) (s : DBServer) : Prop where
  handled : s.handled = (packets es).length
  posted : ∀ index, s.m_loopPool.posted index = jobsOn D index (packets es)

lemma routed_start : Routed D [] start :=
  ⟨rfl, fun _ => rfl⟩

lemma Routed.step {es : List DBEvent} {s t : DBServer} (h : Routed D es s) {e : DBEvent} (hs : D.step s e = some t) :
    Routed D (es ++ [e]) t := by
  cases e with
  | handle packet =>
    cases hs
    have hps : packets (es ++ [.handle packet]) = packets es ++ [packet] := by
      simp [packets]
    refine ⟨by simp [onHandle, hps, h.handled], fun index => ?_⟩
    rw [hps, jobsOn, jobs_concat, List.filter_append, ← jobsOn, ← h.posted index]
    simp only [onHandle, h.handled]
    cases hl : D.dBLoop packet.strIndexKey with
    | none => simp [hl]
    | some loop =>
      by_cases hi : loop = index
      · subst hi
        simp [hl]
      · simp [hl, hi, LoopPool.posted_post_of_ne (Ne.symm hi)]
  | loop index =>
    obtain ⟨next, hn, hs⟩ := Option.bind_eq_some_iff.mp hs
    obtain ⟨done, _, rfl⟩ := Option.map_eq_some_iff.mp hs
    have hps : packets (es ++ [.loop index]) = packets es := by
      simp [packets]
    exact ⟨by rw [hps]; exact h.handled, fun index' => by rw [hps, ← h.posted index', LoopPool.posted_take hn]⟩

lemma routed_run (es : List DBEvent) : ∀ {s : DBServer}, run D.step start es = some s → Routed D es s := by
  induction es using List.reverseRecOn with
  | nil =>
    intro s h
    cases h
    exact routed_start
  | append_singleton es e ih =>
    intro s h
    rw [run_concat] at h
    obtain ⟨s', hs', h⟩ := Option.bind_eq_some_iff.mp h
    exact (ih hs').step h

lemma Routed.loop_of_ran {es : List DBEvent} {s : DBServer} (h : Routed D es s) {index : ℕ} (job : DBJob)
    (hran : (index, job) ∈ s.m_loopPool.ran) : D.dBLoop job.packet.strIndexKey = some index := by
  have hm : job ∈ s.m_loopPool.posted index := List.mem_append_left _ (mem_ranOn.mpr hran)
  rw [h.posted, jobsOn, List.mem_filter] at hm
  simpa using hm.2

lemma Routed.mem_before {es : List DBEvent} {s : DBServer} (h : Routed D es s) {i j index : ℕ} {save query : DBPacket}
    (hij : i < j) (hi : (packets es)[i]? = some save) (hj : (packets es)[j]? = some query)
    (hloop : D.dBLoop save.strIndexKey = some index) {before after : List (ℕ × DBJob)}
    (hran : s.m_loopPool.ran = before ++ (index, ⟨j, query⟩) :: after) : (index, ⟨i, save⟩) ∈ before := by
  have hjob : (jobs (packets es))[j]? = some ⟨j, query⟩ := by rw [jobs_getElem?, hj]; rfl
  have hjob' : (jobs (packets es))[i]? = some ⟨i, save⟩ := by rw [jobs_getElem?, hi]; rfl
  obtain ⟨hlt, hget⟩ := List.getElem?_eq_some_iff.mp hjob
  have hsplit : jobs (packets es) = (jobs (packets es)).take j ++ ⟨j, query⟩ :: (jobs (packets es)).drop (j + 1) := by
    rw [← hget, ← List.drop_eq_getElem_cons hlt, List.take_append_drop]
  have hquery : D.dBLoop query.strIndexKey = some index :=
    h.loop_of_ran ⟨j, query⟩ (by simp [hran])
  have hposted : s.m_loopPool.posted index =
      ((jobs (packets es)).take j).filter (fun job => D.dBLoop job.packet.strIndexKey = some index) ++
        ⟨j, query⟩ :: ((jobs (packets es)).drop (j + 1)).filter
          fun job => D.dBLoop job.packet.strIndexKey = some index := by
    rw [h.posted, jobsOn]
    conv_lhs => rw [hsplit]
    simp [hquery]
  have hbefore := LoopPool.ranOn_before hran hposted ?_ ?_
  · apply mem_ranOn.mp
    rw [hbefore]
    refine List.mem_filter.mpr ⟨?_, by simpa using hloop⟩
    rw [List.mem_take_iff_getElem]
    obtain ⟨hlt', hget'⟩ := List.getElem?_eq_some_iff.mp hjob'
    exact ⟨i, by omega, hget'⟩
  · intro hm
    obtain ⟨k, hk, hget'⟩ := List.mem_take_iff_getElem.mp (List.mem_of_mem_filter hm)
    have hnum := jobs_number (packets es) (List.getElem?_eq_some_iff.mpr ⟨by omega, hget'⟩)
    simp only at hnum
    omega
  · intro hm
    obtain ⟨k, hk, hget'⟩ := List.mem_drop_iff_getElem.mp (List.mem_of_mem_filter hm)
    have hnum := jobs_number (packets es) (List.getElem?_eq_some_iff.mpr ⟨by omega, hget'⟩)
    simp only at hnum
    omega

lemma Saves.strIndexKey {u : Bytes} {head : ServerHead} {p : DBPacket} (h : D.Saves u head p) :
    p.strIndexKey = head.user_id := by
  cases p with
  | queryData => exact h.elim
  | saveData _ head' _ _ => exact congrArg ServerHead.user_id h.1

lemma Queries.strIndexKey {u : Bytes} {p : DBPacket} (h : Queries u p) : p.strIndexKey = u := by
  cases p with
  | saveData => exact h.elim
  | queryData _ _ _ => exact h

lemma Routed.exists_ran {es : List DBEvent} {s : DBServer} (h : Routed D es s) {j index : ℕ} {query : DBPacket}
    (hj : (packets es)[j]? = some query) (hloop : D.dBLoop query.strIndexKey = some index)
    (hidle : s.m_loopPool.pending index = []) :
    ∃ before after, s.m_loopPool.ran = before ++ (index, ⟨j, query⟩) :: after := by
  have hm : (⟨j, query⟩ : DBJob) ∈ s.m_loopPool.posted index := by
    rw [h.posted, jobsOn, List.mem_filter]
    refine ⟨List.mem_of_getElem? (i := j) ?_, by simpa using hloop⟩
    rw [jobs_getElem?, hj]
    rfl
  rw [LoopPool.posted, hidle, List.append_nil, mem_ranOn] at hm
  exact List.append_of_mem hm

theorem reads_its_writes {es : List DBEvent} {s : DBServer} (h : run D.step start es = some s) :
    (D.SameLoops es → D.ReadsItsWrites es s) ∧
      ((∀ index, s.m_loopPool.pending index = []) → D.ReadsItsWrites es s → D.SameLoops es) := by
  have hrouted := routed_run es h
  constructor
  · intro hsame i j save query u head hij hi hj hsave hquery before index after hran
    have hloop : D.dBLoop save.strIndexKey = some index := by
      have hq : D.dBLoop query.strIndexKey = some index := hrouted.loop_of_ran ⟨j, query⟩ (by simp [hran])
      rw [hsave.strIndexKey, hsame i j save query u head hij hi hj hsave hquery, ← hquery.strIndexKey, hq]
    refine ⟨hrouted.mem_before hij hi hj hloop hran, fun index' hran' => ?_⟩
    have hloop' := hrouted.loop_of_ran _ hran'
    rw [hloop] at hloop'
    exact (Option.some.inj hloop').symm
  · intro hidle hreads i j save query u head hij hi hj hsave hquery
    cases hl : D.dBLoop u with
    | none =>
      -- a pool without loops has no loop for any key
      have hn : D.loopNum = 0 := by simpa [dBLoop, getLoop] using hl
      simp [dBLoop, getLoop, hn]
    | some index =>
      obtain ⟨before, after, hran⟩ := hrouted.exists_ran hj (hquery.strIndexKey ▸ hl) (hidle index)
      obtain ⟨hbefore, _⟩ := hreads i j save query u head hij hi hj hsave hquery before index after hran
      rw [← hsave.strIndexKey]
      exact hrouted.loop_of_ran ⟨i, save⟩ (by simp [hran, hbefore])

open UserData

def userDataOf (user_id : Bytes) : Message :=
  [.key (userId user_id), .table ⟨ascii "user_base", false, userBase, [], Table.typed_nil userBase, Table.single_nil⟩,
    .table (userCounts []), .table (clientCaches []),
    .table ⟨ascii "client_login_info", false, clientLoginInfo, [], Table.typed_nil clientLoginInfo, Table.single_nil⟩]

noncomputable def twoShards : DBExecModule := ⟨indexMode, ascii "DBServer1", 2, userDataOf⟩

def saveCount (user_id : Bytes) : DBPacket :=
  .saveData 1 ⟨user_id, 0, 0⟩ (repeatedTables (ascii "u1") [(1, 1, 5)] []) (userDataOf [])

def queryCount : DBPacket := .queryData 2 ⟨ascii "u1", 0, 0⟩ (ascii "u1")

theorem own_head_read : ∃ s, run twoShards.step start
      [.handle (saveCount (ascii "u1")), .handle queryCount, .loop 1, .loop 1] = some s ∧
    twoShards.ReadsItsWrites [.handle (saveCount (ascii "u1")), .handle queryCount, .loop 1, .loop 1] s := by
  obtain ⟨s, hs⟩ : ∃ s, run twoShards.step start
      [.handle (saveCount (ascii "u1")), .handle queryCount, .loop 1, .loop 1] = some s :=
    Option.isSome_iff_exists.mp (by decide +kernel)
  refine ⟨s, hs, (reads_its_writes hs).1 ?_⟩
  intro i j save query u head hij hi hj hsave hquery
  have hlen : (packets [.handle (saveCount (ascii "u1")), .handle queryCount, .loop 1, .loop 1]).length = 2 := rfl
  obtain ⟨hlt, -⟩ := List.getElem?_eq_some_iff.mp hj
  obtain ⟨rfl, rfl⟩ : i = 0 ∧ j = 1 := by omega
  obtain rfl : saveCount (ascii "u1") = save := Option.some.inj hi
  obtain rfl : queryCount = query := Option.some.inj hj
  obtain ⟨rfl, -⟩ := hsave
  cases hquery
  rfl

/-- A save of `u1` under a head that names `u2` runs on the other shard: the query does not read it. -/
theorem other_head_not_read : ∃ s, run twoShards.step start
      [.handle (saveCount (ascii "u2")), .handle queryCount, .loop 1] = some s ∧
    ¬ twoShards.ReadsItsWrites [.handle (saveCount (ascii "u2")), .handle queryCount, .loop 1] s := by
  have hran : ((run twoShards.step start [.handle (saveCount (ascii "u2")), .handle queryCount, .loop 1]).map
      fun s => s.m_loopPool.ran) = some [(1, ⟨1, queryCount⟩)] := by
    decide +kernel
  obtain ⟨s, hs, hran⟩ := Option.map_eq_some_iff.mp hran
  refine ⟨s, hs, fun h => ?_⟩
  have hsave : twoShards.Saves (ascii "u1") ⟨ascii "u2", 0, 0⟩ (saveCount (ascii "u2")) := ⟨rfl, by decide +kernel⟩
  have hbefore := (h 0 1 _ _ _ _ (by decide) rfl rfl hsave rfl [] 1 [] hran).1
  simp at hbefore

end DBExecModule

end TonyCat.Game
