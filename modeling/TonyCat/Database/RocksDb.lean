import TonyCat.Database.UserData
import TonyCat.Utility.Crc

set_option autoImplicit false

/-! `RocksDBModule`: the shards of a database, the requests that are run on them and the remap of a
database to another number of shards or another hash salt. -/

namespace TonyCat.Database

open TonyCat.Library TonyCat.Utility

/-- `nShardNum` of the configuration and `GetCurrentHashSlat()`. -/
structure Layout where
  nShardNum : ℤ
  hashSlat : Bytes
  deriving DecidableEq

/-- The order in which a build evaluates the arguments of a call; C++ leaves it open. -/
inductive ArgumentOrder
  | leftToRight
  | rightToLeft
  deriving DecidableEq

/-- What a start of the process is configured and built with. -/
structure Config extends Layout where
  argumentOrder : ArgumentOrder
  deriving DecidableEq

/-- The directories of an instance: `meta` (a database without one has shard number 0) and
`shard_0`, `shard_1`, and so on. -/
structure Disk where
  saved : Layout
  shards : ℕ → Store

structure RocksDBModule where
  handle : PbMessageKVHandle
  funRang : handle.funRang = none
  /-- the order in which the loops that read the old shards get their pairs put -/
  merge : List (Bytes × Bytes) → List (Bytes × Bytes)
  merge_perm : ∀ pairs, (merge pairs).Perm pairs

/-- `index % m_vecLoops.size()` of `LoopPool::GetLoop` -/
def loopIndex (index : UInt32) (nShardNum : ℤ) : ℕ :=
  index.toNat % nShardNum.toNat

def Layout.dBLoopIndex (layout : Layout) (strIndexKey : Bytes) : ℕ :=
  loopIndex (crc32Parts strIndexKey layout.hashSlat) layout.nShardNum

/-- The arguments of `Exec` are `CRC32(GetCurrentHashSlat(), strKey)` and a closure that takes `std::move(strKey)`.
From right to left the key is moved away before it is hashed. -/
def Config.hashedKey (config : Config) (strKey : Bytes) : Bytes :=
  match config.argumentOrder with
  | .leftToRight => strKey
  | .rightToLeft => []

def Config.remapIndex (config : Config) (strKey : Bytes) : ℕ :=
  loopIndex (crc32Parts config.hashSlat (config.hashedKey strKey)) config.nShardNum

/-- The pairs of the iterator with the upper bound `"\xFF"`. -/
def scan (store : Store) : List (Bytes × Bytes) :=
  (store.entries.map fun s => (s.1, s.2)).filter fun kv => kv.1.head? ≠ some 0xff

def Config.remapShard (config : Config) (puts : List (Bytes × Bytes)) (index : ℕ) : Store :=
  (puts.filter fun kv => config.remapIndex kv.1 = index).foldl (fun store kv => store.put kv.1 kv.2) ∅

namespace RocksDBModule

variable (R : RocksDBModule)

def remapPuts (disk : Disk) : List (Bytes × Bytes) :=
  R.merge ((List.range disk.saved.nShardNum.toNat).flatMap fun nDBIndex => scan (disk.shards nDBIndex))

def remapDBDataAndStart (config : Config) (disk : Disk) : Disk :=
  if config.nShardNum ≤ 0 then disk
  else if disk.saved.nShardNum = config.nShardNum ∧ disk.saved.hashSlat = config.hashSlat then disk
  else
    let puts := R.remapPuts disk
    { saved := config.toLayout
      shards := fun index =>
        if index < config.nShardNum.toNat then config.remapShard puts index else ∅ }

end RocksDBModule

structure Request where
  strIndexKey : Bytes
  call : KVCall

/-- The call runs on the store of the shard that `DBLoopExec` picks. -/
def RocksDBModule.dBLoopExec (R : RocksDBModule) (disk : Disk) (r : Request) : Option Disk :=
  let index := disk.saved.dBLoopIndex r.strIndexKey
  (r.call.exec R.handle (disk.shards index)).map fun store =>
    { disk with shards := Function.update disk.shards index store }

end TonyCat.Database
