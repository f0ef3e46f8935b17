import Mathlib.Logic.Function.Basic
import TonyCat.Library.ByteOrder
import TonyCat.Library.KeyedList
import TonyCat.Library.Transducer

set_option autoImplicit false

/-! The callbacks of `rpc_module.h`: those of the last and those of the current timeout period. -/

namespace TonyCat.Service

open TonyCat.Library

variable {F : Type*}

structure PacketHead where
  queryId : ℤ
  errorCode : ℤ
  deriving DecidableEq

structure Respond where
  sessionId : ℤ
  packetHead : PacketHead
  packetBody : Bytes
  deriving DecidableEq

structure Request (F : Type*) where
  msgId : UInt32
  funcResult : F

structure RpcContext (F : Type*) where
  mapLastCallback : List (ℤ × F)
  mapCurrentCallback : List (ℤ × F)

structure RpcModule (F : Type*) where
  nQueryId : ℤ
  mapRpcContext : UInt32 → Option (RpcContext F)

inductive Action (F : Type*)
  | registered (msgId : UInt32) (queryId : ℤ) (funcResult : F)
  | invoked (msgId : UInt32) (queryId : ℤ) (func : F) (respond : Respond)

def Action.queryId : Action F → ℤ
  | registered _ queryId _ => queryId
  | invoked _ queryId _ _ => queryId

/-- What reaches the module. A callback that is called may call `RpcRequest` again; `issued` are these
requests, and `order` is the order in which the hash map is walked. -/
inductive Event (F : Type*)
  | request (request : Request F)
  | respond (msgId : UInt32) (respond : Respond) (issued : List (Request F))
  | timeout (msgId : UInt32) (order : List ℤ) (issued : ℤ → List (Request F))

structure Entry (F : Type*) where
  event : Event F
  actions : List (Action F)

namespace RpcModule

def kSsMsgTimeout : ℤ := 0x40000000

def init : RpcModule F := ⟨0, fun _ => none⟩

/-- The counter is an `int64_t`, which must not overflow. -/
def genQueryId (rpc : RpcModule F) : Option ℤ :=
  if rpc.nQueryId + 1 < 2 ^ 63 then some (rpc.nQueryId + 1) else none

def setRpcContext (rpc : RpcModule F) (msgId : UInt32) (context : RpcContext F) : RpcModule F :=
  { rpc with mapRpcContext := Function.update rpc.mapRpcContext msgId (some context) }

def rpcRequest (rpc : RpcModule F) (request : Request F) : Option (RpcModule F × List (Action F)) :=
  let pRpcContext := (rpc.mapRpcContext request.msgId).getD ⟨[], []⟩
  rpc.genQueryId.map fun nCurrentQueryId =>
    (setRpcContext { rpc with nQueryId := nCurrentQueryId } request.msgId { pRpcContext with
      mapCurrentCallback := KeyedList.emplace pRpcContext.mapCurrentCallback nCurrentQueryId request.funcResult },
      [.registered request.msgId nCurrentQueryId request.funcResult])

def invoke (rpc : RpcModule F) (msgId : UInt32) (queryId : ℤ) (func : F) (respond : Respond)
    (issued : List (Request F)) : Option (RpcModule F × List (Action F)) :=
  (feed rpcRequest rpc issued).map fun r => (r.1, .invoked msgId queryId func respond :: r.2)

def onRespond (rpc : RpcModule F) (msgId : UInt32) (respond : Respond) (issued : List (Request F)) :
    Option (RpcModule F × List (Action F)) :=
  match rpc.mapRpcContext msgId with
  | none => some (rpc, [])
  | some pRpcContext =>
    let nRspQueryId := respond.packetHead.queryId
    match pRpcContext.mapCurrentCallback.lookup nRspQueryId with
    | some func =>
      invoke (rpc.setRpcContext msgId { pRpcContext with
        mapCurrentCallback := KeyedList.erase pRpcContext.mapCurrentCallback nRspQueryId })
        msgId nRspQueryId func respond issued
    | none =>
      match pRpcContext.mapLastCallback.lookup nRspQueryId with
      | some func =>
        invoke (rpc.setRpcContext msgId { pRpcContext with
          mapLastCallback := KeyedList.erase pRpcContext.mapLastCallback nRspQueryId })
          msgId nRspQueryId func respond issued
      | none => some (rpc, [])

def timeoutRespond : Respond := ⟨0, ⟨0, kSsMsgTimeout⟩, []⟩

def clearAndSwap (rpc : RpcModule F) (msgId : UInt32) : RpcModule F :=
  match rpc.mapRpcContext msgId with
  | none => rpc
  | some pRpcContext => rpc.setRpcContext msgId ⟨pRpcContext.mapCurrentCallback, []⟩

def onTimeout (rpc : RpcModule F) (msgId : UInt32) (order : List ℤ) (issued : ℤ → List (Request F)) :
    Option (RpcModule F × List (Action F)) :=
  match rpc.mapRpcContext msgId with
  | none => none
  | some pRpcContext =>
    if order.isPerm (pRpcContext.mapLastCallback.map Prod.fst) then
      (feed (fun rpc elem => invoke rpc msgId elem.1 elem.2 timeoutRespond (issued elem.1)) rpc
        (order.filterMap fun nQueryId => (pRpcContext.mapLastCallback.lookup nQueryId).map (Prod.mk nQueryId))).map
        fun r => (r.1.clearAndSwap msgId, r.2)
    else
      none

def handle (rpc : RpcModule F) : Event F → Option (RpcModule F × List (Action F))
  | .request request => rpc.rpcRequest request
  | .respond msgId respond issued => rpc.onRespond msgId respond issued
  | .timeout msgId order issued => rpc.onTimeout msgId order issued

def step (rpc : RpcModule F) (event : Event F) : Option (RpcModule F × List (Entry F)) :=
  (rpc.handle event).map fun r => (r.1, [⟨event, r.2⟩])

end RpcModule

end TonyCat.Service
