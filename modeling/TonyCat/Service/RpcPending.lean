import TonyCat.Service.RpcCompletion

set_option autoImplicit false

/-! The callbacks that wait in a module whose callbacks send no requests of their own. -/

namespace TonyCat.Service

open TonyCat.Library

variable {F : Type*}

namespace RpcModule

variable {rpc rpc' : RpcModule F} {actions : List (Action F)}

lemma pending_init (m : UInt32) : (init : RpcModule F).pending m = [] := rfl

lemma pending_rpcRequest {request : Request F} (hwf : rpc.WellFormed)
    (h : rpc.rpcRequest request = some (rpc', actions)) : rpc'.WellFormed ∧
      rpc'.pending request.msgId = rpc.pending request.msgId ++ [(rpc.nQueryId + 1, request.funcResult)] := by
  refine ⟨(simulated_request h hwf).1, ?_⟩
  obtain ⟨-, -, hlast, hcurrent⟩ := rpcRequest_eq h hwf
  rw [pending, pending, hlast, hcurrent, if_pos rfl, List.append_assoc]

lemma pending_onRespond {m : UInt32} {respond : Respond} (hwf : rpc.WellFormed)
    (h : rpc.onRespond m respond [] = some (rpc', actions)) : rpc'.WellFormed ∧
      ((actions = [] ∧ rpc' = rpc ∧ ∀ f, (respond.packetHead.queryId, f) ∉ rpc.pending m) ∨
        ∃ f, (respond.packetHead.queryId, f) ∈ rpc.pending m ∧
          actions = [.invoked m respond.packetHead.queryId f respond] ∧
          rpc'.pending m = KeyedList.erase (rpc.pending m) respond.packetHead.queryId) := by
  refine ⟨(simulated_respond h hwf).1, ?_⟩
  rw [onRespond] at h
  split at h
  case h_1 hnone =>
    cases h
    refine Or.inl ⟨rfl, rfl, fun f hf => ?_⟩
    simp [pending, lastOf, currentOf, hnone] at hf
  case h_2 pRpcContext hcontext =>
    have hcurrentOf : rpc.currentOf m = pRpcContext.mapCurrentCallback := by rw [currentOf, hcontext, Option.getD_some]
    have hlastOf : rpc.lastOf m = pRpcContext.mapLastCallback := by rw [lastOf, hcontext, Option.getD_some]
    have hnodup := hwf.nodup m
    rw [pending, List.map_append, List.nodup_append] at hnodup
    have happend : ∀ l l' : List (ℤ × F), KeyedList.erase (l ++ l') respond.packetHead.queryId =
        KeyedList.erase l respond.packetHead.queryId ++ KeyedList.erase l' respond.packetHead.queryId :=
      fun l l' => List.filter_append ..
    simp only at h
    split at h
    case h_1 func hfound =>
      cases h
      have hmem : (respond.packetHead.queryId, func) ∈ rpc.currentOf m := by
        rw [hcurrentOf]
        exact KeyedList.mem_of_lookup hfound
      refine Or.inr ⟨func, mem_pending.mpr (Or.inr hmem), rfl, ?_⟩
      have hlast : KeyedList.erase (rpc.lastOf m) respond.packetHead.queryId = rpc.lastOf m :=
        KeyedList.erase_eq_self fun g hg =>
          hnodup.2.2 _ (List.mem_map_of_mem hg) _ (List.mem_map_of_mem hmem) rfl
      rw [pending, pending, happend, hlast]
      simp [hcurrentOf, hlastOf]
    case h_2 hnone =>
      split at h
      case h_1 func hfound =>
        cases h
        have hmem : (respond.packetHead.queryId, func) ∈ rpc.lastOf m := by
          rw [hlastOf]
          exact KeyedList.mem_of_lookup hfound
        refine Or.inr ⟨func, mem_pending.mpr (Or.inl hmem), rfl, ?_⟩
        have hcurrent : KeyedList.erase (rpc.currentOf m) respond.packetHead.queryId = rpc.currentOf m := by
          rw [hcurrentOf]
          exact KeyedList.erase_eq_self (KeyedList.notMem_of_lookup hnone)
        rw [pending, pending, happend, hcurrent]
        simp [hcurrentOf, hlastOf]
      case h_2 hnone' =>
        cases h
        refine Or.inl ⟨rfl, rfl, fun f hf => ?_⟩
        obtain hf | hf := mem_pending.mp hf
        · rw [hlastOf] at hf
          exact KeyedList.notMem_of_lookup hnone' f hf
        · rw [hcurrentOf] at hf
          exact KeyedList.notMem_of_lookup hnone f hf

lemma feed_invoke {m : UInt32} {elems : List (ℤ × F)} (rpc : RpcModule F) :
    feed (fun rpc elem => rpc.invoke m elem.1 elem.2 timeoutRespond []) rpc elems =
      some (rpc, elems.map fun elem => .invoked m elem.1 elem.2 timeoutRespond) := by
  induction elems with
  | nil => rfl
  | cons elem elems ih =>
    rw [feed]
    have hone : rpc.invoke m elem.1 elem.2 timeoutRespond [] =
        some (rpc, [.invoked m elem.1 elem.2 timeoutRespond]) := rfl
    rw [hone, Option.bind_some, ih]
    rfl

lemma pending_onTimeout {m : UInt32} {order : List ℤ} (hwf : rpc.WellFormed)
    (h : rpc.onTimeout m order (fun _ => []) = some (rpc', actions)) : rpc'.WellFormed ∧
      rpc'.pending m = rpc.currentOf m ∧ ∃ elems : List (ℤ × F), elems.Perm (rpc.lastOf m) ∧
        actions = elems.map fun elem => .invoked m elem.1 elem.2 timeoutRespond := by
  refine ⟨(simulated_timeout h hwf).1, ?_⟩
  rw [onTimeout] at h
  split at h
  · cases h
  case h_2 pRpcContext hcontext =>
  split at h
  case isFalse => cases h
  case isTrue hperm =>
  have hlastOf : rpc.lastOf m = pRpcContext.mapLastCallback := by rw [lastOf, hcontext, Option.getD_some]
  rw [feed_invoke] at h
  cases h
  rw [List.isPerm_iff, ← hlastOf] at hperm
  have hkeys := hwf.lastOf_nodup m
  refine ⟨?_, _, ?_, rfl⟩
  · rw [pending, currentOf_clearAndSwap, lastOf_clearAndSwap, if_pos rfl, if_pos rfl, List.append_nil]
  · rw [← hlastOf]
    refine (List.perm_ext_iff_of_nodup (List.Nodup.of_map _ (KeyedList.walk_keys_nodup (hperm.nodup_iff.mpr hkeys)))
      (List.Nodup.of_map _ hkeys)).mpr fun elem => ?_
    exact KeyedList.mem_walk hkeys hperm

end RpcModule

end TonyCat.Service
