import TonyCat.Database.KVProgram
import TonyCat.Database.MysqlAgreement
import TonyCat.Database.MysqlQuery
import TonyCat.Game.DBExecModule

set_option autoImplicit false

/-! `OnHandleSSSaveDataReq` on storage whose operations can fail: when a save that is answered with
`ss_msg_success` has been carried out. -/

namespace TonyCat.Game

open TonyCat.Library TonyCat.Database

/-- The module behind `m_pDBModule` while it runs one save, with the operations that fail under it. -/
inductive DBModule
  /-- operation `i` that the save makes on its shard fails if `fails i` -/
  | rocksDB (m_PbMessageKVHandle : PbMessageKVHandle) (shard : Store) (fails : ℕ → Bool)
  /-- `userData` is the type of the two messages -/
  | mysql (rt : Runtime) (keys : DbPbFieldKey) (userData : Descriptor) (sqlFails : Bytes → List Bytes → Bool)

namespace DBModule

def saveCalls (H : PbMessageKVHandle) (kv_data_update kv_data_delete : Message) : Program Bytes Bytes (Option Unit) :=
  (H.messageUpdateCalls kv_data_update).andThen (H.messageDeleteCalls kv_data_delete)

def saveOutcome (H : PbMessageKVHandle) (shard : Store) (fails : ℕ → Bool) (kv_data_update kv_data_delete : Message) :
    Outcome Store Bytes Bytes (Option Unit) :=
  (saveCalls H kv_data_update kv_data_delete).run Store.storage fails 0 shard

def mysqlModule (rt : Runtime) (keys : DbPbFieldKey) (sqlFails : Bytes → List Bytes → Bool) : MysqlModule where
  rt := rt
  keys := keys
  queryModify := MysqlModule.mysqlQuery sqlFails

/-- The answer is the head of the request; what `MessageUpdate` and `MessageDelete` return is dropped. -/
def onHandleSSSaveDataReq (sessionId : ℤ) (head : ServerHead) (kv_data_update kv_data_delete : Message) :
    DBModule → Option DBRespond
  | rocksDB H shard fails =>
    (saveOutcome H shard fails kv_data_update kv_data_delete).value.map fun _ => .saveData sessionId head
  | mysql rt keys userData sqlFails =>
    let _nError := ((mysqlModule rt keys sqlFails).messageUpdate userData kv_data_update).2
    let _nError := ((mysqlModule rt keys sqlFails).messageDelete kv_data_delete).2
    some (.saveData sessionId head)

/-- Every Put and Delete of the save was carried out and the shard is the one that the update and then the
deletes leave; every statement of every set table was run and returned no error. -/
def CarriedOut (kv_data_update kv_data_delete : Message) : DBModule → Prop
  | rocksDB H shard fails =>
    (∀ e ∈ (saveOutcome H shard fails kv_data_update kv_data_delete).log, e.op.writes = true → e.carriedOut = true) ∧
      (H.messageUpdateOnKV shard kv_data_update).bind (H.messageDeleteOnKV · kv_data_delete) =
        some (saveOutcome H shard fails kv_data_update kv_data_delete).store
  | mysql rt keys userData sqlFails =>
    let M := mysqlModule rt keys sqlFails
    M.messageUpdate userData kv_data_update = (M.updateRequested userData ⟨[], [], []⟩ kv_data_update, 0) ∧
      M.messageDelete kv_data_delete = (M.deleteRequested .empty kv_data_delete, 0)

/-- Of the operations that the save makes when none fails, none fails but a Get that finds nothing. -/
def NoneFails (kv_data_update kv_data_delete : Message) : DBModule → Prop
  | rocksDB H shard fails => (saveCalls H kv_data_update kv_data_delete).Spared Store.storage fails 0 shard
  | mysql rt keys userData sqlFails =>
    let M := mysqlModule rt keys sqlFails
    (∀ st ∈ M.updateRequested userData ⟨[], [], []⟩ kv_data_update, MysqlModule.Accepted sqlFails st) ∧
      ∀ st ∈ M.deleteRequested .empty kv_data_delete, MysqlModule.Accepted sqlFails st

def GetsHold (kv_data_update kv_data_delete : Message) : DBModule → Prop
  | rocksDB H shard fails => (saveCalls H kv_data_update kv_data_delete).ReadsHold Store.storage fails 0 shard
  | mysql _ _ _ _ => True

lemma saveCalls_leaves (H : PbMessageKVHandle) (kv_data_update kv_data_delete : Message) (shard : Store) :
    (saveCalls H kv_data_update kv_data_delete).leaves Store.storage shard =
      (H.messageUpdateOnKV shard kv_data_update).bind (H.messageDeleteOnKV · kv_data_delete) := by
  rw [saveCalls, Program.leaves_andThen, H.messageUpdateCalls_leaves]
  apply Option.bind_congr
  intro store _
  exact H.messageDeleteCalls_leaves kv_data_delete store

lemma rocksDB_carriedOut {H : PbMessageKVHandle} {shard : Store} {fails : ℕ → Bool}
    {kv_data_update kv_data_delete : Message}
    (hvalue : (saveOutcome H shard fails kv_data_update kv_data_delete).value ≠ none)
    (hfails : (rocksDB H shard fails).NoneFails kv_data_update kv_data_delete) :
    (rocksDB H shard fails).CarriedOut kv_data_update kv_data_delete := by
  obtain ⟨hruns, hstore, hlog⟩ := Program.Spared.run hfails
  refine ⟨hlog, ?_⟩
  obtain ⟨value, hv⟩ := Option.ne_none_iff_exists'.mp hvalue
  rw [← saveCalls_leaves, Program.leaves, saveOutcome, ← hruns, hstore]
  rw [saveOutcome] at hv
  rw [hv]
  rfl

lemma mysql_carriedOut_iff {rt : Runtime} {keys : DbPbFieldKey} {userData : Descriptor}
    {sqlFails : Bytes → List Bytes → Bool} {kv_data_update kv_data_delete : Message} :
    (mysql rt keys userData sqlFails).CarriedOut kv_data_update kv_data_delete ↔
      (mysql rt keys userData sqlFails).NoneFails kv_data_update kv_data_delete := by
  simp only [CarriedOut, NoneFails, ← MysqlModule.mysqlQuery_eq_zero_iff]
  apply and_congr
  · rw [MysqlModule.messageUpdate, MysqlModule.updateFields_eq_runStatements, MysqlModule.runStatements_eq_iff]
    rfl
  · rw [MysqlModule.messageDelete, MysqlModule.deleteFields_eq_runStatements, MysqlModule.runStatements_eq_iff]
    rfl

lemma onHandleSSSaveDataReq_head {db : DBModule} {sessionId : ℤ} {head : ServerHead}
    {kv_data_update kv_data_delete : Message} {rsp : DBRespond}
    (h : db.onHandleSSSaveDataReq sessionId head kv_data_update kv_data_delete = some rsp) :
    rsp = .saveData sessionId head := by
  cases db with
  | rocksDB H shard fails =>
    obtain ⟨_, _, hrsp⟩ := Option.map_eq_some_iff.mp h
    exact hrsp.symm
  | mysql rt keys userData sqlFails => exact (Option.some.inj h).symm

lemma carriedOut_of_noneFails {db : DBModule} {sessionId : ℤ} {head : ServerHead}
    {kv_data_update kv_data_delete : Message} {rsp : DBRespond}
    (h : db.onHandleSSSaveDataReq sessionId head kv_data_update kv_data_delete = some rsp)
    (hfails : db.NoneFails kv_data_update kv_data_delete) : db.CarriedOut kv_data_update kv_data_delete := by
  cases db with
  | rocksDB H shard fails =>
    apply rocksDB_carriedOut _ hfails
    obtain ⟨_, hvalue, _⟩ := Option.map_eq_some_iff.mp h
    exact hvalue ▸ Option.some_ne_none _
  | mysql rt keys userData sqlFails => exact mysql_carriedOut_iff.mpr hfails

lemma noneFails_of_carriedOut {db : DBModule} {kv_data_update kv_data_delete : Message}
    (hgets : db.GetsHold kv_data_update kv_data_delete) (hcarried : db.CarriedOut kv_data_update kv_data_delete) :
    db.NoneFails kv_data_update kv_data_delete := by
  cases db with
  | rocksDB H shard fails => exact hgets.spared hcarried.1
  | mysql rt keys userData sqlFails => exact mysql_carriedOut_iff.mp hcarried

end DBModule

def DBRespond.errorCode : DBRespond → ℤ
  | saveData _ head => head.error_code
  | queryData _ head _ => head.error_code

namespace DBModule

theorem acknowledged_of_none_fails {db : DBModule} {sessionId : ℤ} {head : ServerHead}
    {kv_data_update kv_data_delete : Message} {rsp : DBRespond}
    (h : db.onHandleSSSaveDataReq sessionId head kv_data_update kv_data_delete = some rsp) :
    (head.error_code ≠ ss_msg_success ∨ db.NoneFails kv_data_update kv_data_delete →
        rsp.errorCode = ss_msg_success → db.CarriedOut kv_data_update kv_data_delete) ∧
      (db.GetsHold kv_data_update kv_data_delete →
        (rsp.errorCode = ss_msg_success → db.CarriedOut kv_data_update kv_data_delete) →
          head.error_code ≠ ss_msg_success ∨ db.NoneFails kv_data_update kv_data_delete) := by
  rw [onHandleSSSaveDataReq_head h]
  constructor
  · rintro (hhead | hfails) hsuccess
    · exact absurd hsuccess hhead
    · exact carriedOut_of_noneFails h hfails
  · intro hgets hcarried
    by_cases hhead : head.error_code = ss_msg_success
    · exact .inr (noneFails_of_carriedOut hgets (hcarried hhead))
    · exact .inl hhead

open UserData

def counts : Message := repeatedTables (ascii "u1") [(1, 1, 5)] []

def nothing : Message := DBExecModule.userDataOf []

/-- The Get of the new user's key list fails, and the save is carried out all the same. -/
theorem save_acknowledged : ∃ rsp,
    (rocksDB indexMode ∅ (· == 0)).onHandleSSSaveDataReq 1 ⟨ascii "u1", 0, 0⟩ counts nothing = some rsp ∧
      (rocksDB indexMode ∅ (· == 0)).CarriedOut counts nothing := by
  obtain ⟨rsp, hrsp⟩ := Option.isSome_iff_exists.mp (show ((rocksDB indexMode ∅ (· == 0)).onHandleSSSaveDataReq
    1 ⟨ascii "u1", 0, 0⟩ counts nothing).isSome by decide +kernel)
  refine ⟨rsp, hrsp, (acknowledged_of_none_fails hrsp).1 (.inr ?_) ?_⟩
  · rintro i e he hfirst
    obtain rfl : i = 0 := by simpa using hfirst
    have hget : ((saveCalls indexMode counts nothing).runs Store.storage ∅).log[0]?.map
        (fun e => (e.op.writes, e.answer)) = some (false, []) := by decide +kernel
    rw [he, Option.map_some, Option.some.injEq, Prod.mk.injEq] at hget
    exact hget
  · rw [onHandleSSSaveDataReq_head hrsp]
    rfl

/-- The put of the count fails, or its INSERT, and the answer is a success all the same. -/
theorem lost_save_acknowledged :
    (∃ rsp, (rocksDB indexMode ∅ (· == 1)).onHandleSSSaveDataReq 1 ⟨ascii "u1", 0, 0⟩ counts nothing = some rsp ∧
      rsp.errorCode = ss_msg_success ∧ ¬ (rocksDB indexMode ∅ (· == 1)).CarriedOut counts nothing) ∧
    ∃ rsp, (mysql indexMode.rt gPbKeys userDataDescriptor fun _ _ => true).onHandleSSSaveDataReq 1 ⟨ascii "u1", 0, 0⟩
        counts nothing = some rsp ∧ rsp.errorCode = ss_msg_success ∧
      ¬ (mysql indexMode.rt gPbKeys userDataDescriptor fun _ _ => true).CarriedOut counts nothing := by
  constructor
  · refine ⟨.saveData 1 ⟨ascii "u1", 0, 0⟩, ?_, rfl, ?_⟩
    · have hsome : (saveOutcome indexMode ∅ (· == 1) counts nothing).value = some () := by decide +kernel
      rw [onHandleSSSaveDataReq, hsome]
      rfl
    · rintro ⟨hlog, -⟩
      revert hlog
      decide +kernel
  · refine ⟨.saveData 1 ⟨ascii "u1", 0, 0⟩, rfl, rfl, ?_⟩
    rintro ⟨hupdate, -⟩
    have hzero := congrArg Prod.snd hupdate
    revert hzero
    decide +kernel

end DBModule

end TonyCat.Game
