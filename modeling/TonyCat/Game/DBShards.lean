import TonyCat.Database.UserEntries
import TonyCat.Game.DBExecModule
import TonyCat.Library.Sharded

set_option autoImplicit false

/-! The shards of a DB server together are one store: they answer every save and query as one store would that
handles the requests in the order of their arrival. -/

namespace TonyCat.Game

open TonyCat.Library TonyCat.Database

/-- A request of one user: the head of a save and the body of a query name the user whose data it is about. -/
def DBPacket.OfUser (D : DBExecModule) : DBPacket → Prop
  | saveData _ head kv_data_update kv_data_delete =>
    head.user_id.length < 2 ^ 32 ∧ SaveOf D.m_PbMessageKVHandle head.user_id kv_data_update ∧
      SaveOf D.m_PbMessageKVHandle head.user_id kv_data_delete
  | queryData _ _ user_id => user_id.length < 2 ^ 32 ∧ DataOf D.m_PbMessageKVHandle user_id (D.userData user_id)

lemma DBPacket.OfUser.short {D : DBExecModule} {packet : DBPacket} (h : packet.OfUser D) :
    packet.strIndexKey.length < 2 ^ 32 := by
  cases packet with
  | saveData sessionId head kv_data_update kv_data_delete => exact h.1
  | queryData sessionId head user_id => exact h.1

namespace DBExecModule

variable {D : DBExecModule}

def SameFor (D : DBExecModule) (u : Bytes) (s t : Store) : Prop :=
  u.length < 2 ^ 32 → SameOn (Owned D.m_PbMessageKVHandle.native u) s t

abbrev Lists (D : DBExecModule) (s : Store) : Prop :=
  PbMessageKVHandle.Listing D.m_PbMessageKVHandle (fun _ => False) s

def exec (D : DBExecModule) (s : Store) (job : DBJob) : Option (Store × DBRespond) :=
  D.funcDo s job.packet

lemma funcDo_save {s s' : Store} {sessionId : ℤ} {head : ServerHead} {kv_data_update kv_data_delete : Message}
    {answer : DBRespond} : D.funcDo s (.saveData sessionId head kv_data_update kv_data_delete) = some (s', answer) ↔
      (∃ t, (KVCall.update kv_data_update).exec D.m_PbMessageKVHandle s = some t ∧
        (KVCall.delete kv_data_delete).exec D.m_PbMessageKVHandle t = some s') ∧
          answer = .saveData sessionId head := by
  simp only [funcDo, Option.bind_eq_some_iff, Option.map_eq_some_iff, Prod.mk.injEq, KVCall.exec]
  constructor
  · rintro ⟨t, hs, t', ht, rfl, rfl⟩
    exact ⟨⟨t, hs, ht⟩, rfl⟩
  · rintro ⟨⟨t, hs, ht⟩, rfl⟩
    exact ⟨t, hs, s', ht, rfl, rfl⟩

lemma funcDo_query {s s' : Store} {sessionId : ℤ} {head : ServerHead} {user_id : Bytes} {answer : DBRespond} :
    D.funcDo s (.queryData sessionId head user_id) = some (s', answer) ↔
      s' = s ∧ ∃ user_data, D.m_PbMessageKVHandle.messageLoadOnKV s (D.userData user_id) = some user_data ∧
        answer = .queryData sessionId head user_data := by
  simp only [funcDo, Option.map_eq_some_iff, Prod.mk.injEq]
  constructor
  · rintro ⟨user_data, hload, rfl, rfl⟩
    exact ⟨rfl, user_data, hload, rfl⟩
  · rintro ⟨rfl, user_data, hload, rfl⟩
    exact ⟨user_data, hload, rfl, rfl⟩

variable {packet : DBPacket} {s s' t : Store} {answer : DBRespond}

lemma funcDo_lists (hp : packet.OfUser D) (hs : D.Lists s) (h : D.funcDo s packet = some (s', answer)) : D.Lists s' := by
  cases packet with
  | saveData sessionId head kv_data_update kv_data_delete =>
    obtain ⟨hu, hupdate, hdelete⟩ := hp
    obtain ⟨⟨t, hs₁, hs₂⟩, -⟩ := funcDo_save.mp h
    exact PbMessageKVHandle.exec_keepsListing hu hdelete (PbMessageKVHandle.exec_keepsListing hu hupdate hs hs₁) hs₂
  | queryData sessionId head user_id =>
    obtain ⟨rfl, -⟩ := funcDo_query.mp h
    exact hs

lemma funcDo_other (hp : packet.OfUser D) (h : D.funcDo s packet = some (s', answer)) {u : Bytes}
    (hne : u ≠ packet.strIndexKey) : D.SameFor u s s' := by
  intro hu
  cases packet with
  | saveData sessionId head kv_data_update kv_data_delete =>
    obtain ⟨hown, hupdate, hdelete⟩ := hp
    obtain ⟨⟨t, hs₁, hs₂⟩, -⟩ := funcDo_save.mp h
    have h₁ := PbMessageKVHandle.exec_sameOn_other hown hu hne hupdate hs₁
    have h₂ := PbMessageKVHandle.exec_sameOn_other hown hu hne hdelete hs₂
    exact fun k hk => (h₂ k hk).trans (h₁ k hk)
  | queryData sessionId head user_id =>
    obtain ⟨rfl, -⟩ := funcDo_query.mp h
    exact fun _ _ => rfl

lemma funcDo_outside (hidx : D.m_PbMessageKVHandle.funRang = none) (hp : packet.OfUser D)
    (h : D.funcDo s packet = some (s', answer)) {k : Bytes}
    (hk : ¬ Owned D.m_PbMessageKVHandle.native packet.strIndexKey k) : s'.lookup k = s.lookup k := by
  cases packet with
  | saveData sessionId head kv_data_update kv_data_delete =>
    obtain ⟨-, hupdate, hdelete⟩ := hp
    obtain ⟨⟨t, hs, ht⟩, -⟩ := funcDo_save.mp h
    have hfirst := PbMessageKVHandle.exec_save_lookup hidx hupdate hs hk
    exact (PbMessageKVHandle.exec_save_lookup hidx hdelete ht hk).trans hfirst
  | queryData sessionId head user_id =>
    obtain ⟨rfl, -⟩ := funcDo_query.mp h
    rfl

lemma funcDo_same (hidx : D.m_PbMessageKVHandle.funRang = none) (hp : packet.OfUser D) (hs : D.Lists s)
    (hsame : D.SameFor packet.strIndexKey s t) (h : D.funcDo s packet = some (s', answer)) :
    ∃ t', D.funcDo t packet = some (t', answer) ∧ D.SameFor packet.strIndexKey s' t' := by
  cases packet with
  | saveData sessionId head kv_data_update kv_data_delete =>
    obtain ⟨hu, hupdate, hdelete⟩ := hp
    obtain ⟨⟨s₁, hs₁, hs₂⟩, rfl⟩ := funcDo_save.mp h
    obtain ⟨t₁, ht₁, hsame₁⟩ := PbMessageKVHandle.exec_sameOn hidx (c := .update kv_data_update) hu hupdate
      (hsame hu) hs₁
    obtain ⟨t', ht₂, hsame'⟩ := PbMessageKVHandle.exec_sameOn hidx (c := .delete kv_data_delete) hu hdelete
      hsame₁ hs₂
    exact ⟨t', funcDo_save.mpr ⟨⟨t₁, ht₁, ht₂⟩, rfl⟩, fun _ => hsame'⟩
  | queryData sessionId head user_id =>
    obtain ⟨hu, hdata⟩ := hp
    obtain ⟨rfl, user_data, hload, rfl⟩ := funcDo_query.mp h
    have hload' := (PbMessageKVHandle.load_sameOn hidx hu hdata hs (hsame hu)).trans hload
    exact ⟨t, funcDo_query.mpr ⟨rfl, user_data, hload', rfl⟩, hsame⟩

lemma partitioned (hidx : D.m_PbMessageKVHandle.funRang = none) :
    Partitioned D.exec (fun job => job.packet.strIndexKey) (fun job => job.packet.OfUser D) D.Lists D.SameFor where
  refl _ _ _ _ _ := rfl
  symm h hu k hk := (h hu k hk).symm
  trans h h' hu k hk := (h' hu k hk).trans (h hu k hk)
  good hp hs h := funcDo_lists hp hs h
  frame hp h hne := funcDo_other hp h hne
  congr hp hs _ hsame h := funcDo_same hidx hp hs hsame h

def Answered (D : DBExecModule) (s : DBServer) (history : List (ℕ × DBJob × DBRespond)) : Prop :=
  s.m_loopPool.ran = history.map (fun e => (e.1, e.2.1)) ∧ s.responds = history.map (fun e => e.2.2) ∧
    ∀ index, runAll D.exec ∅ ((ranOn history index).map Prod.fst) =
      some (s.shards index, (ranOn history index).map Prod.snd)

lemma answered_start : D.Answered start [] :=
  ⟨rfl, rfl, fun _ => rfl⟩

lemma Answered.step {s t : DBServer} {history : List (ℕ × DBJob × DBRespond)} (h : D.Answered s history) {e : DBEvent}
    (hs : D.step s e = some t) : ∃ history', D.Answered t history' := by
  cases e with
  | handle packet =>
    cases hs
    refine ⟨history, ?_, h.2⟩
    rw [← h.1]
    cases hl : D.dBLoop packet.strIndexKey <;> simp [onHandle, hl]
  | loop index =>
    obtain ⟨⟨job, pool⟩, htake, hs⟩ := Option.bind_eq_some_iff.mp hs
    obtain ⟨⟨store, respond⟩, hdo, rfl⟩ := Option.map_eq_some_iff.mp hs
    refine ⟨history ++ [(index, job, respond)], ?_, ?_, fun index' => ?_⟩
    · rw [List.map_append, ← h.1]
      exact LoopPool.ran_take htake
    · rw [List.map_append, ← h.2.1]
      rfl
    · have hloop := h.2.2 index'
      rw [ranOn_append]
      by_cases hi : index' = index
      · subst hi
        rw [ranOn_cons_self, ranOn_nil, List.map_append, List.map_append]
        exact runAll_concat.mpr ⟨s.shards index', _, respond, hloop,
          hdo.trans (congrArg (fun x => some (x, respond)) (Function.update_self index' store s.shards).symm), rfl⟩
      · rw [ranOn_cons_of_ne (Ne.symm hi), ranOn_nil, List.append_nil, hloop]
        exact congrArg (fun x => some (x, _)) (Function.update_of_ne hi store s.shards).symm

lemma exists_answered {es : List DBEvent} {s : DBServer} (h : run D.step start es = some s) :
    ∃ history, D.Answered s history := by
  refine run_keeps (I := fun s => ∃ history, D.Answered s history) ?_ ⟨[], answered_start⟩ h
  rintro s s' e ⟨history, ha⟩ hs
  exact ha.step hs

lemma Answered.ranOn_ran {s : DBServer} {history : List (ℕ × DBJob × DBRespond)} (h : D.Answered s history) (index : ℕ) :
    ranOn s.m_loopPool.ran index = (ranOn history index).map Prod.fst := by
  rw [h.1]
  simp only [ranOn, List.filterMap_map, List.map_filterMap]
  congr 1
  funext e
  by_cases hi : e.1 = index <;> simp [hi]

lemma jobs_packets (ps : List DBPacket) : (jobs ps).map DBJob.packet = ps := by
  rw [jobs, List.map_map]
  exact List.zipIdx_map_fst 0 ps

lemma answer_of_mem_zip {ps : List DBPacket} {answers : List DBRespond} {job : DBJob} {respond : DBRespond}
    (h : (job, respond) ∈ (jobs ps).zip answers) : answers[job.number]? = some respond := by
  obtain ⟨i, hi⟩ := List.mem_iff_getElem?.mp h
  obtain ⟨hjob, hrespond⟩ := List.getElem?_zip_eq_some.mp hi
  rw [jobs_number ps hjob]
  exact hrespond

open UserData

lemma saveOf_repeatedTables {user_id : Bytes} (hu : user_id.length < 2 ^ 32)
    (counts : List (Int32 × Int32 × Int32)) : SaveOf indexMode user_id (repeatedTables user_id counts []) := by
  have hone : PbMessageKVHandle.OneKey indexMode (fun _ => False) (repeatedTables user_id counts []) := oneKey_repeatedTables hu
  refine ⟨Or.inr ⟨⟨userId user_id, [userCounts counts, clientCaches []], rfl, rfl⟩, hone.names⟩, ?_⟩
  exact fun f hf _ => hone.hasKey f hf

lemma tables_userDataOf {user_id : Bytes} {f : Table} (hf : f ∈ (userDataOf user_id).tables) :
    f.elems = [] ∧ Identifier f.name := by
  simp only [userDataOf, Message.tables, List.filterMap_cons, List.filterMap_nil, List.mem_cons, List.not_mem_nil,
    or_false] at hf
  obtain rfl | rfl | rfl | rfl := hf
  · exact ⟨rfl, by decide +kernel⟩
  · exact ⟨rfl, identifier_userCounts []⟩
  · exact ⟨rfl, identifier_clientCaches []⟩
  · exact ⟨rfl, by decide +kernel⟩

lemma saveOf_userDataOf (u user_id : Bytes) : SaveOf indexMode u (userDataOf user_id) :=
  ⟨Or.inl fun _ hf => (tables_userDataOf hf).1, fun _ hf hset => (hset (tables_userDataOf hf).1).elim⟩

lemma dataOf_userDataOf (user_id : Bytes) : DataOf indexMode user_id (userDataOf user_id) :=
  ⟨⟨userId user_id, [⟨ascii "user_base", false, userBase, [], Table.typed_nil userBase, Table.single_nil⟩,
      userCounts [], clientCaches [],
      ⟨ascii "client_login_info", false, clientLoginInfo, [], Table.typed_nil clientLoginInfo, Table.single_nil⟩],
    rfl, rfl⟩, fun _ hf => (tables_userDataOf hf).2⟩

def saveOther : DBPacket :=
  .saveData 3 ⟨ascii "u2", 0, 0⟩ (repeatedTables (ascii "u2") [(1, 1, 6)] []) (userDataOf [])

/-- The users `u1` and `u2` have different loops; the save of `u2` comes second and runs first. -/
def twoUsers : List DBEvent :=
  [.handle (saveCount (ascii "u1")), .handle saveOther, .handle queryCount, .loop 0, .loop 1, .loop 1]

end DBExecModule

end TonyCat.Game
