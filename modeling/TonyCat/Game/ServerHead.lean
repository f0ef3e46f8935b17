import TonyCat.Library.ByteOrder

set_option autoImplicit false

/-! The packet heads of `server_base.proto` and `client_base.proto`, and the codes in them. -/

namespace TonyCat.Game

open TonyCat.Library

structure ServerHead where
  user_id : Bytes
  query_id : ℤ
  error_code : ℤ
  deriving DecidableEq

structure ClientHead where
  query_id : ℤ
  error_code : ℤ
  deriving DecidableEq

def ss_msg_success : ℤ := 0
def ss_msg_timeout : ℤ := 0x40000000
def ss_msg_error_sql : ℤ := 0x40000002
def ss_msg_arg_length_overflow : ℤ := 0x40000003
def ss_msg_cache_length_overflow : ℤ := 0x40000004

def cs_msg_not_find_user : ℤ := 1
def cs_msg_user_loading : ℤ := 2

def ss_msgid_begin : UInt32 := 0x40000000
def cs_msgid_playerlogin_req : UInt32 := 5
def cs_msgid_playerlogin_rsp : UInt32 := 6
def ss_msgid_querydata_rsp : UInt32 := 0x40010004

end TonyCat.Game
