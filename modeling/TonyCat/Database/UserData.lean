import TonyCat.Database.ProtoWire
import TonyCat.Database.Schema

set_option autoImplicit false

/-! The tables of `db_data.proto`. -/

namespace TonyCat.Database

open TonyCat.Library

namespace UserData

def userBase : Descriptor where
  typeName := ascii "Db.UserBase"
  fields := [⟨ascii "user_name", .string⟩, ⟨ascii "update_time", .int64⟩]

def userCount : Descriptor where
  typeName := ascii "Db.UserCount"
  fields :=
    [⟨ascii "count_type", .int32⟩, ⟨ascii "count_subtype", .int32⟩, ⟨ascii "count_value", .int32⟩,
      ⟨ascii "count_tick", .int64⟩]

def clientCache : Descriptor where
  typeName := ascii "Db.ClientCache"
  fields := [⟨ascii "cache_type", .int64⟩, ⟨ascii "modify_time", .int64⟩, ⟨ascii "cache_items", .message⟩]

def clientLoginInfo : Descriptor where
  typeName := ascii "Db.ClientLoginInfo"
  fields :=
    [⟨ascii "login_tick", .int64⟩, ⟨ascii "login_channel", .int64⟩, ⟨ascii "device", .string⟩, ⟨ascii "uuid", .string⟩]

def userId (user_id : Bytes) : CommonKey where
  name := ascii "user_id"
  value := .string user_id
  isKey := rfl

def countOf (count_type count_subtype count_value : Int32) : Element where
  descriptor := userCount
  values := [.int32 count_type, .int32 count_subtype, .int32 count_value, .int64 0]
  typed := rfl

def cacheOf (cache_type modify_time : Int64) : Element where
  descriptor := clientCache
  values := [.int64 cache_type, .int64 modify_time, .message []]
  typed := rfl

def userCounts (counts : List (Int32 × Int32 × Int32)) : Table where
  name := ascii "user_counts"
  isRepeated := true
  descriptor := userCount
  elems := counts.map fun c => countOf c.1 c.2.1 c.2.2
  typed := List.forall_mem_map.mpr fun _ _ => rfl
  single := by simp

def clientCaches (caches : List (Int64 × Int64)) : Table where
  name := ascii "client_cache"
  isRepeated := true
  descriptor := clientCache
  elems := caches.map fun c => cacheOf c.1 c.2
  typed := List.forall_mem_map.mpr fun _ _ => rfl
  single := by simp

lemma identifier_userCounts (counts : List (Int32 × Int32 × Int32)) : Identifier (userCounts counts).name := by
  change Identifier (ascii "user_counts")
  decide +kernel

lemma identifier_clientCaches (caches : List (Int64 × Int64)) : Identifier (clientCaches caches).name := by
  change Identifier (ascii "client_cache")
  decide +kernel

def repeatedTables (user_id : Bytes) (counts : List (Int32 × Int32 × Int32)) (caches : List (Int64 × Int64)) :
    Message :=
  [.key (userId user_id), .table (userCounts counts), .table (clientCaches caches)]

def repeatedSchema : Schema gPbKeys where
  before := []
  keyName := ascii "user_id"
  keyType := .string
  after := [(ascii "user_counts", userCount), (ascii "client_cache", clientCache)]
  hasKey := by decide
  nodup := by decide
  noSpacer := by decide

lemma repeatedTables_decls (user_id : Bytes) (counts : List (Int32 × Int32 × Int32))
    (caches : List (Int64 × Int64)) : (repeatedTables user_id counts caches).decls = repeatedSchema.decls :=
  rfl

/-- The layer in index mode, on a little-endian host, over protobuf's wire format. -/
noncomputable def indexMode : PbMessageKVHandle where
  native := .little
  keys := gPbKeys
  rt := ProtoWire.runtime (fun _ => ascii "0.000000") (fun _ => ascii "0.000000")
  order := id
  order_perm := fun _ => List.Perm.refl _
  funRang := none

end UserData

end TonyCat.Database
