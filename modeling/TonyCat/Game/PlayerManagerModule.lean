import TonyCat.Game.ServerHead
import TonyCat.Service.RpcPending

set_option autoImplicit false

/-! `PlayerManagerModule` of the logic server over its `RpcModule`: who is loading, who is online, and
which login requests are still to be answered. -/

namespace TonyCat.Game

open TonyCat.Library TonyCat.Service

/-- Nothing reads or writes its fields yet. -/
structure PlayerData where
  deriving DecidableEq

structure Login where
  number : ℕ
  sessionId : ℤ
  head : ServerHead
  deriving DecidableEq

structure LoginRsp where
  login : Login
  head : ServerHead
  online : Bool
  deriving DecidableEq

structure PlayerManagerModule where
  m_mapLoadingPlayer : List (Bytes × Option PlayerData)
  m_mapOnlinePlayer : List (Bytes × Option PlayerData)

namespace PlayerManagerModule

def getPlayerData (players : PlayerManagerModule) (user_id : Bytes) : Option PlayerData :=
  match players.m_mapOnlinePlayer.lookup user_id with
  | some pPlayerData => pPlayerData
  | none => none

/-- A stub: it loads nothing and succeeds. -/
def loadPlayerData (_playerData : PlayerData) (_queryData : Bytes) : Bool := true

def sendPacket (players : PlayerManagerModule) (login : Login) (head : ServerHead) : LoginRsp :=
  ⟨login, head, (players.m_mapOnlinePlayer.lookup head.user_id).isSome⟩

/-- The players, the packet sent and the query sent; `none` is a failed assertion. -/
def onHandleCSPlayerLoginReq (players : PlayerManagerModule) (login : Login) :
    Option (PlayerManagerModule × List LoginRsp × List (Request Login)) :=
  let head := login.head
  if (players.getPlayerData head.user_id).isSome then
    some (players, [players.sendPacket login { head with error_code := cs_msg_not_find_user }], [])
  else if (players.m_mapLoadingPlayer.lookup head.user_id).isSome then
    some (players, [players.sendPacket login { head with error_code := cs_msg_user_loading }], [])
  else if (players.m_mapOnlinePlayer.lookup head.user_id).isSome then
    none
  else
    some ({ players with
      m_mapLoadingPlayer := KeyedList.emplace players.m_mapLoadingPlayer head.user_id (some ⟨⟩) },
      [], [⟨ss_msgid_querydata_rsp, login⟩])

/-- The `do { … } while (false)` of the callback: every failure leaves the head as it is. -/
def movePlayer (players : PlayerManagerModule) (head : ServerHead) (headRsp : PacketHead) (msgRsp : Bytes) :
    PlayerManagerModule :=
  if headRsp.errorCode ≠ ss_msg_success then
    { players with m_mapLoadingPlayer := KeyedList.erase players.m_mapLoadingPlayer head.user_id }
  else
    match players.m_mapLoadingPlayer.lookup head.user_id with
    | none => players
    | some none => players
    | some (some playData) =>
      if loadPlayerData playData msgRsp then
        ⟨KeyedList.erase players.m_mapLoadingPlayer head.user_id,
          KeyedList.emplace players.m_mapOnlinePlayer head.user_id (some playData)⟩
      else
        players

def onQueryDataRsp (players : PlayerManagerModule) (login : Login) (respond : Respond) :
    PlayerManagerModule × LoginRsp :=
  let players := players.movePlayer login.head respond.packetHead respond.packetBody
  (players, players.sendPacket login login.head)

def callbacks : PlayerManagerModule → List (Action Login) → PlayerManagerModule × List LoginRsp
  | players, [] => (players, [])
  | players, .registered _ _ _ :: actions => callbacks players actions
  | players, .invoked _ _ login respond :: actions =>
    let r := players.onQueryDataRsp login respond
    let r' := callbacks r.1 actions
    (r'.1, r.2 :: r'.2)

end PlayerManagerModule

structure LogicServer where
  players : PlayerManagerModule
  rpc : RpcModule Login
  logins : ℕ

inductive LogicEvent
  | loginReq (sessionId : ℤ) (head : ServerHead)
  | queryDataRsp (respond : Respond)
  /-- the timer of the query, with the order in which the hash map is walked -/
  | rpcTimeout (order : List ℤ)

namespace LogicServer

open PlayerManagerModule

def init : LogicServer := ⟨⟨[], []⟩, .init, 0⟩

def callRpc (s : LogicServer) (called : Option (RpcModule Login × List (Action Login))) :
    Option (LogicServer × List LoginRsp) :=
  called.map fun r =>
    let c := s.players.callbacks r.2
    ({ s with players := c.1, rpc := r.1 }, c.2)

def step (s : LogicServer) : LogicEvent → Option (LogicServer × List LoginRsp)
  | .loginReq sessionId head =>
    (s.players.onHandleCSPlayerLoginReq ⟨s.logins, sessionId, head⟩).bind fun handled =>
      (feed RpcModule.rpcRequest s.rpc handled.2.2).map fun r => (⟨handled.1, r.1, s.logins + 1⟩, handled.2.1)
  | .queryDataRsp respond => s.callRpc (s.rpc.onRespond ss_msgid_querydata_rsp respond [])
  | .rpcTimeout order => s.callRpc (s.rpc.onTimeout ss_msgid_querydata_rsp order fun _ => [])

def waiting (s : LogicServer) : List Login :=
  (s.rpc.pending ss_msgid_querydata_rsp).map Prod.snd

/-- What can reach a server in this state: the query counter must not overflow, and the timer of the query
stands from its first request on and walks the callbacks of the last period in some order. -/
def Occurs (s : LogicServer) : LogicEvent → Prop
  | .loginReq _ _ => s.rpc.nQueryId + 1 < 2 ^ 63
  | .queryDataRsp _ => True
  | .rpcTimeout order => ∃ pRpcContext, s.rpc.mapRpcContext ss_msgid_querydata_rsp = some pRpcContext ∧
      order.Perm (pRpcContext.mapLastCallback.map Prod.fst)

end LogicServer

/-! ### What the callbacks keep -/

namespace PlayerManagerModule

structure Consistent (players : PlayerManagerModule) (waiting : List Login) (answered : List LoginRsp) (logins : ℕ) :
    Prop where
  loading : (waiting.map fun login => login.head.user_id).Perm (players.m_mapLoadingPlayer.map Prod.fst)
  nodup : (players.m_mapLoadingPlayer.map Prod.fst).Nodup
  loadingSome : ∀ elem ∈ players.m_mapLoadingPlayer, elem.2 ≠ none
  onlineSome : ∀ elem ∈ players.m_mapOnlinePlayer, elem.2 ≠ none
  disjoint : ∀ u ∈ players.m_mapLoadingPlayer.map Prod.fst, u ∉ players.m_mapOnlinePlayer.map Prod.fst
  numbers : ((waiting.map Login.number) ++ answered.map fun rsp => rsp.login.number).Perm (List.range logins)

variable {players : PlayerManagerModule} {waiting : List Login} {answered : List LoginRsp} {logins : ℕ}

lemma consistent_init : Consistent ⟨[], []⟩ [] [] 0 where
  loading := List.Perm.refl _
  nodup := List.nodup_nil
  loadingSome := by simp
  onlineSome := by simp
  disjoint := by simp
  numbers := List.Perm.refl _

lemma Consistent.perm (h : Consistent players waiting answered logins) {waiting' : List Login}
    (hp : waiting'.Perm waiting) : Consistent players waiting' answered logins :=
  { h with
    loading := (hp.map _).trans h.loading
    numbers := ((hp.map _).append_right _).trans h.numbers }

lemma lookup_isSome {l : List (Bytes × Option PlayerData)} {u : Bytes} :
    (l.lookup u).isSome = true ↔ u ∈ l.map Prod.fst := by
  constructor
  · intro h
    obtain ⟨v, hv⟩ := Option.isSome_iff_exists.mp h
    exact List.mem_map_of_mem (KeyedList.mem_of_lookup hv)
  · intro h
    obtain ⟨⟨k, v⟩, hm, rfl⟩ := List.mem_map.mp h
    cases hl : l.lookup k with
    | some w => rfl
    | none => exact (KeyedList.notMem_of_lookup hl v hm).elim

lemma Consistent.getPlayerData_isSome (h : Consistent players waiting answered logins) (u : Bytes) :
    (players.getPlayerData u).isSome = (players.m_mapOnlinePlayer.lookup u).isSome := by
  rw [getPlayerData]
  cases hlookup : players.m_mapOnlinePlayer.lookup u with
  | none => rfl
  | some pPlayerData =>
    obtain ⟨playData, rfl⟩ := Option.ne_none_iff_exists'.mp (h.onlineSome _ (KeyedList.mem_of_lookup hlookup))
    rfl

/-- The assertion never fails: who is not found online is in no entry of the map. -/
lemma Consistent.onHandleCSPlayerLoginReq (h : Consistent players waiting answered logins) (login : Login) :
    ∃ handled, players.onHandleCSPlayerLoginReq login = some handled := by
  rw [PlayerManagerModule.onHandleCSPlayerLoginReq]
  split_ifs with honline hloading hassert
  · exact ⟨_, rfl⟩
  · exact ⟨_, rfl⟩
  · rw [h.getPlayerData_isSome] at honline
    exact absurd hassert honline
  · exact ⟨_, rfl⟩

lemma map_fst_erase (l : List (Bytes × Option PlayerData)) (u : Bytes) :
    (KeyedList.erase l u).map Prod.fst = (l.map Prod.fst).filter (· ≠ u) := by
  simp [KeyedList.erase, List.filter_map, Function.comp_def]

lemma Consistent.erase {login : Login} (h : Consistent players (login :: waiting) answered logins) :
    (waiting.map fun login => login.head.user_id).Perm
        ((KeyedList.erase players.m_mapLoadingPlayer login.head.user_id).map Prod.fst) ∧
      login.head.user_id ∉ (KeyedList.erase players.m_mapLoadingPlayer login.head.user_id).map Prod.fst := by
  have hnodup := h.loading.nodup_iff.mpr h.nodup
  rw [List.map_cons, List.nodup_cons] at hnodup
  rw [map_fst_erase]
  refine ⟨?_, by simp⟩
  have hfilter := h.loading.filter fun u => u ≠ login.head.user_id
  rw [List.map_cons, List.filter_cons_of_neg (by simp), List.filter_eq_self.mpr] at hfilter
  · exact hfilter
  · intro u hu
    simp only [ne_eq, decide_not, Bool.not_eq_eq_eq_not, Bool.not_true, decide_eq_false_iff_not]
    rintro rfl
    exact hnodup.1 hu

lemma Consistent.movePlayer_eq {login : Login} (h : Consistent players (login :: waiting) answered logins)
    (headRsp : PacketHead) (msgRsp : Bytes) :
    ∃ playData, players.movePlayer login.head headRsp msgRsp =
      ⟨KeyedList.erase players.m_mapLoadingPlayer login.head.user_id,
        if headRsp.errorCode = ss_msg_success then
          players.m_mapOnlinePlayer ++ [(login.head.user_id, some playData)]
        else players.m_mapOnlinePlayer⟩ := by
  have hu : login.head.user_id ∈ players.m_mapLoadingPlayer.map Prod.fst :=
    h.loading.mem_iff.mp List.mem_cons_self
  obtain ⟨v, hv⟩ := Option.isSome_iff_exists.mp (lookup_isSome.mpr hu)
  obtain ⟨playData, rfl⟩ := Option.ne_none_iff_exists'.mp (h.loadingSome _ (KeyedList.mem_of_lookup hv))
  have hnew : ∀ w, (login.head.user_id, w) ∉ players.m_mapOnlinePlayer :=
    fun w hw => h.disjoint _ hu (List.mem_map_of_mem hw)
  refine ⟨playData, ?_⟩
  by_cases hs : headRsp.errorCode = ss_msg_success
  · simp only [movePlayer, hs, ne_eq, not_true_eq_false, if_false, hv, loadPlayerData, if_true,
      KeyedList.emplace_of_notMem hnew]
  · simp only [movePlayer, hs, ne_eq, not_false_eq_true, if_true, if_false]

lemma Consistent.onQueryDataRsp {login : Login} (h : Consistent players (login :: waiting) answered logins)
    (respond : Respond) :
    Consistent (players.onQueryDataRsp login respond).1 waiting
        (answered ++ [(players.onQueryDataRsp login respond).2]) logins ∧
      (players.onQueryDataRsp login respond).2 =
        ⟨login, login.head, decide (respond.packetHead.errorCode = ss_msg_success)⟩ ∧
      (players.onQueryDataRsp login respond).1.m_mapOnlinePlayer.map Prod.fst =
        players.m_mapOnlinePlayer.map Prod.fst ++
          if respond.packetHead.errorCode = ss_msg_success then [login.head.user_id] else [] := by
  obtain ⟨hloading, hgone⟩ := h.erase
  obtain ⟨playData, hmove⟩ := h.movePlayer_eq respond.packetHead respond.packetBody
  have hu : login.head.user_id ∉ players.m_mapOnlinePlayer.map Prod.fst :=
    h.disjoint _ (h.loading.mem_iff.mp List.mem_cons_self)
  have hsub : ∀ e ∈ KeyedList.erase players.m_mapLoadingPlayer login.head.user_id, e ∈ players.m_mapLoadingPlayer :=
    fun e he => (KeyedList.mem_erase.mp he).1
  have hkeys : ∀ u ∈ (KeyedList.erase players.m_mapLoadingPlayer login.head.user_id).map Prod.fst,
      u ∈ players.m_mapLoadingPlayer.map Prod.fst := by
    intro u hu
    obtain ⟨e, he, rfl⟩ := List.mem_map.mp hu
    exact List.mem_map_of_mem (hsub e he)
  have hnumbers : (waiting.map Login.number ++ (answered ++ [(players.onQueryDataRsp login respond).2]).map
      fun rsp => rsp.login.number).Perm (List.range logins) := by
    refine List.Perm.trans ?_ h.numbers
    simp only [List.map_append, List.map_cons, List.map_nil, ← List.append_assoc]
    exact (List.perm_append_singleton _ _).trans (List.Perm.refl _)
  have hnodup : ((KeyedList.erase players.m_mapLoadingPlayer login.head.user_id).map Prod.fst).Nodup :=
    hloading.nodup_iff.mp (by
      have hn := h.loading.nodup_iff.mpr h.nodup
      exact (List.nodup_cons.mp hn).2)
  by_cases hs : respond.packetHead.errorCode = ss_msg_success
  · rw [if_pos hs] at hmove
    have hplayers : (players.onQueryDataRsp login respond).1 = _ := hmove
    refine ⟨?_, ?_, ?_⟩
    · rw [hplayers]
      refine ⟨hloading, hnodup, fun e he => h.loadingSome e (hsub e he), ?_, ?_, hnumbers⟩
      · intro e he
        rcases List.mem_append.mp he with he | he
        · exact h.onlineSome e he
        · rw [List.mem_singleton.mp he]
          simp
      · intro u hu' hmem
        rw [List.map_append, List.mem_append] at hmem
        rcases hmem with hmem | hmem
        · exact h.disjoint u (hkeys u hu') hmem
        · obtain rfl : u = login.head.user_id := by simpa using hmem
          exact hgone hu'
    · have honline : ((players.onQueryDataRsp login respond).1.m_mapOnlinePlayer.lookup login.head.user_id).isSome = true := by
        rw [lookup_isSome, hplayers]
        simp
      rw [decide_eq_true hs, ← honline]
      rfl
    · rw [hplayers, if_pos hs]
      simp
  · rw [if_neg hs] at hmove
    have hplayers : (players.onQueryDataRsp login respond).1 = _ := hmove
    refine ⟨?_, ?_, ?_⟩
    · rw [hplayers]
      exact ⟨hloading, hnodup, fun e he => h.loadingSome e (hsub e he), h.onlineSome,
        fun u hu' => h.disjoint u (hkeys u hu'), hnumbers⟩
    · have honline : ((players.onQueryDataRsp login respond).1.m_mapOnlinePlayer.lookup login.head.user_id).isSome =
          false := by
        rw [Bool.eq_false_iff, Ne, lookup_isSome, hplayers]
        exact hu
      rw [decide_eq_false hs, ← honline]
      rfl
    · rw [hplayers, if_neg hs, List.append_nil]

lemma Consistent.callbacks {elems : List (ℤ × Login)} (m : UInt32) (respond : Respond)
    (h : Consistent players (elems.map Prod.snd ++ waiting) answered logins) :
    let c := players.callbacks (elems.map fun elem => .invoked m elem.1 elem.2 respond)
    Consistent c.1 waiting (answered ++ c.2) logins ∧
      c.2 = elems.map (fun elem =>
        ⟨elem.2, elem.2.head, decide (respond.packetHead.errorCode = ss_msg_success)⟩) ∧
      c.1.m_mapOnlinePlayer.map Prod.fst = players.m_mapOnlinePlayer.map Prod.fst ++
        if respond.packetHead.errorCode = ss_msg_success then elems.map (fun elem => elem.2.head.user_id) else [] := by
  induction elems generalizing players answered with
  | nil =>
    refine ⟨?_, rfl, ?_⟩
    · simpa [PlayerManagerModule.callbacks] using h
    · simp [PlayerManagerModule.callbacks]
  | cons elem elems ih =>
    obtain ⟨hone, hrsp, honline⟩ := h.onQueryDataRsp respond
    obtain ⟨hrest, hrsps, honlines⟩ := ih hone
    dsimp only at hrest hrsps honlines ⊢
    refine ⟨?_, ?_, ?_⟩
    · simp only [List.map_cons, PlayerManagerModule.callbacks]
      rw [List.append_assoc, List.singleton_append] at hrest
      exact hrest
    · simp only [List.map_cons, PlayerManagerModule.callbacks, hrsp, hrsps]
    · simp only [List.map_cons, PlayerManagerModule.callbacks, honlines, honline]
      split_ifs <;> simp

lemma Consistent.answer (h : Consistent players waiting answered logins) (sessionId : ℤ) (head head' : ServerHead)
    (online : Bool) : Consistent players waiting (answered ++ [⟨⟨logins, sessionId, head⟩, head', online⟩]) (logins + 1) where
  loading := h.loading
  nodup := h.nodup
  loadingSome := h.loadingSome
  onlineSome := h.onlineSome
  disjoint := h.disjoint
  numbers := by
    rw [List.range_succ, List.map_append, ← List.append_assoc]
    exact h.numbers.append_right _

lemma Consistent.load (h : Consistent players waiting answered logins) (sessionId : ℤ) (head : ServerHead)
    (hloading : head.user_id ∉ players.m_mapLoadingPlayer.map Prod.fst)
    (honline : head.user_id ∉ players.m_mapOnlinePlayer.map Prod.fst) :
    Consistent { players with m_mapLoadingPlayer := players.m_mapLoadingPlayer ++ [(head.user_id, some ⟨⟩)] }
      (waiting ++ [⟨logins, sessionId, head⟩]) answered (logins + 1) where
  loading := by
    rw [List.map_append, List.map_append]
    exact h.loading.append_right _
  nodup := by
    rw [List.map_append]
    refine List.nodup_append.mpr ⟨h.nodup, by simp, ?_⟩
    rintro u hu v hv rfl
    obtain rfl : u = head.user_id := by simpa using hv
    exact hloading hu
  loadingSome := by
    intro elem helem
    rcases List.mem_append.mp helem with helem | helem
    · exact h.loadingSome elem helem
    · rw [List.mem_singleton.mp helem]
      simp
  onlineSome := h.onlineSome
  disjoint := by
    intro u hu
    rw [List.map_append, List.mem_append] at hu
    rcases hu with hu | hu
    · exact h.disjoint u hu
    · obtain rfl : u = head.user_id := by simpa using hu
      exact honline
  numbers := by
    rw [List.range_succ, List.map_append, List.append_assoc]
    refine List.Perm.trans ?_ (h.numbers.append_right _)
    rw [List.append_assoc]
    exact List.perm_append_comm.append_left _

end PlayerManagerModule

namespace LogicServer

open PlayerManagerModule

structure Invariant (s : LogicServer) (sent : List LoginRsp) : Prop where
  wellFormed : s.rpc.WellFormed
  consistent : Consistent s.players s.waiting sent s.logins

lemma invariant_init : init.Invariant [] :=
  ⟨RpcModule.wellFormed_init, consistent_init⟩

variable {s t : LogicServer} {sent out : List LoginRsp}

lemma Invariant.loginReq (h : s.Invariant sent) {sessionId : ℤ} {head : ServerHead}
    (hs : s.step (.loginReq sessionId head) = some (t, out)) : t.Invariant (sent ++ out) ∧
      t.players.m_mapOnlinePlayer = s.players.m_mapOnlinePlayer ∧
      ((t.waiting = s.waiting ∧ ∃ code online, code ≠ ss_msg_success ∧
          out = [⟨⟨s.logins, sessionId, head⟩, { head with error_code := code }, online⟩]) ∨
        (t.waiting = s.waiting ++ [⟨s.logins, sessionId, head⟩] ∧ out = [])) := by
  obtain ⟨⟨players, sent', requests⟩, hhandled, hs⟩ := Option.bind_eq_some_iff.mp hs
  obtain ⟨⟨rpc, actions⟩, hfeed, hs⟩ := Option.map_eq_some_iff.mp hs
  cases hs
  simp only [onHandleCSPlayerLoginReq] at hhandled
  split_ifs at hhandled with honline hloading hassert
  · cases hhandled
    cases hfeed
    refine ⟨⟨h.wellFormed, h.consistent.answer _ _ _ _⟩, rfl, Or.inl ⟨rfl, cs_msg_not_find_user, _, by decide, rfl⟩⟩
  · cases hhandled
    cases hfeed
    refine ⟨⟨h.wellFormed, h.consistent.answer _ _ _ _⟩, rfl, Or.inl ⟨rfl, cs_msg_user_loading, _, by decide, rfl⟩⟩
  · cases hhandled
    rw [h.consistent.getPlayerData_isSome, lookup_isSome] at honline
    rw [lookup_isSome] at hloading
    have hnew : ∀ w, (head.user_id, w) ∉ s.players.m_mapLoadingPlayer :=
      fun w hw => hloading (List.mem_map_of_mem hw)
    obtain ⟨⟨rpc', as⟩, hreq, hfeed⟩ := Option.bind_eq_some_iff.mp hfeed
    simp only [feed, Option.map_some, Option.some.injEq, Prod.mk.injEq] at hfeed
    obtain ⟨rfl, -⟩ := hfeed
    obtain ⟨hwf, hpending⟩ := RpcModule.pending_rpcRequest h.wellFormed hreq
    have hwaiting : rpc'.pending ss_msgid_querydata_rsp = _ := hpending
    have hw : (rpc'.pending ss_msgid_querydata_rsp).map Prod.snd = s.waiting ++ [⟨s.logins, sessionId, head⟩] := by
      rw [hwaiting, List.map_append]
      rfl
    refine ⟨⟨hwf, ?_⟩, rfl, Or.inr ⟨hw, rfl⟩⟩
    rw [List.append_nil]
    simp only [waiting, hw, KeyedList.emplace_of_notMem hnew]
    exact h.consistent.load sessionId head hloading honline

lemma Invariant.called (h : s.Invariant sent) {rpc : RpcModule Login} (elems : List (ℤ × Login)) (respond : Respond)
    (hwf : rpc.WellFormed)
    (hp : (s.rpc.pending ss_msgid_querydata_rsp).Perm (elems ++ rpc.pending ss_msgid_querydata_rsp))
    (hs : s.callRpc (some (rpc, elems.map fun elem =>
      .invoked ss_msgid_querydata_rsp elem.1 elem.2 respond)) = some (t, out)) :
    t.Invariant (sent ++ out) ∧ s.waiting.Perm (elems.map Prod.snd ++ t.waiting) ∧
      out = elems.map (fun elem =>
        ⟨elem.2, elem.2.head, decide (respond.packetHead.errorCode = ss_msg_success)⟩) ∧
      t.players.m_mapOnlinePlayer.map Prod.fst = s.players.m_mapOnlinePlayer.map Prod.fst ++
        if respond.packetHead.errorCode = ss_msg_success then elems.map (fun elem => elem.2.head.user_id) else [] := by
  cases hs
  have hw : s.waiting.Perm (elems.map Prod.snd ++ (rpc.pending ss_msgid_querydata_rsp).map Prod.snd) := by
    rw [← List.map_append]
    exact hp.map _
  obtain ⟨hconsistent, hout, honline⟩ := (h.consistent.perm hw.symm).callbacks ss_msgid_querydata_rsp respond
  exact ⟨⟨hwf, hconsistent⟩, hw, hout, honline⟩

lemma Invariant.queryDataRsp (h : s.Invariant sent) {respond : Respond}
    (hs : s.step (.queryDataRsp respond) = some (t, out)) : t.Invariant (sent ++ out) ∧
      ((t = s ∧ out = [] ∧ ∀ login, (respond.packetHead.queryId, login) ∉ s.rpc.pending ss_msgid_querydata_rsp) ∨
        ∃ login, (respond.packetHead.queryId, login) ∈ s.rpc.pending ss_msgid_querydata_rsp ∧
          s.waiting.Perm (login :: t.waiting) ∧
          out = [⟨login, login.head, decide (respond.packetHead.errorCode = ss_msg_success)⟩] ∧
          t.players.m_mapOnlinePlayer.map Prod.fst = s.players.m_mapOnlinePlayer.map Prod.fst ++
            if respond.packetHead.errorCode = ss_msg_success then [login.head.user_id] else []) := by
  obtain ⟨⟨rpc, actions⟩, hrpc, hs'⟩ := Option.map_eq_some_iff.mp hs
  obtain ⟨hwf, ⟨rfl, rfl, hnone⟩ | ⟨login, hmem, rfl, hpending⟩⟩ := RpcModule.pending_onRespond h.wellFormed hrpc
  · cases hs'
    refine ⟨⟨hwf, ?_⟩, Or.inl ⟨rfl, rfl, hnone⟩⟩
    rw [PlayerManagerModule.callbacks, List.append_nil]
    exact h.consistent
  · have hp := KeyedList.perm_cons_erase (h.wellFormed.nodup _) hmem
    rw [← hpending] at hp
    obtain ⟨hinv, hw, hout, honline⟩ := h.called [(respond.packetHead.queryId, login)] respond hwf hp (by rw [← hs']; rfl)
    exact ⟨hinv, Or.inr ⟨login, hmem, hw, hout, honline⟩⟩

lemma Invariant.rpcTimeout (h : s.Invariant sent) {order : List ℤ} (hs : s.step (.rpcTimeout order) = some (t, out)) :
    t.Invariant (sent ++ out) ∧ t.players.m_mapOnlinePlayer.map Prod.fst = s.players.m_mapOnlinePlayer.map Prod.fst ∧
      ∃ elems : List (ℤ × Login), elems.Perm (s.rpc.lastOf ss_msgid_querydata_rsp) ∧
        s.waiting.Perm (elems.map Prod.snd ++ t.waiting) ∧
        out = elems.map (fun elem => ⟨elem.2, elem.2.head, false⟩) := by
  obtain ⟨⟨rpc, actions⟩, hrpc, hs'⟩ := Option.map_eq_some_iff.mp hs
  obtain ⟨hwf, hpending, elems, hperm, rfl⟩ := RpcModule.pending_onTimeout h.wellFormed hrpc
  have hp : (s.rpc.pending ss_msgid_querydata_rsp).Perm (elems ++ rpc.pending ss_msgid_querydata_rsp) := by
    rw [hpending, RpcModule.pending]
    exact hperm.symm.append_right _
  obtain ⟨hinv, hw, hout, honline⟩ := h.called elems RpcModule.timeoutRespond hwf hp (by rw [← hs']; rfl)
  have hfail : RpcModule.timeoutRespond.packetHead.errorCode ≠ ss_msg_success := by decide
  rw [if_neg hfail, List.append_nil] at honline
  rw [decide_eq_false hfail] at hout
  exact ⟨hinv, honline, elems, hperm, hw, hout⟩

lemma Invariant.step (h : s.Invariant sent) {e : LogicEvent} (hs : s.step e = some (t, out)) :
    t.Invariant (sent ++ out) := by
  cases e with
  | loginReq sessionId head => exact (h.loginReq hs).1
  | queryDataRsp respond => exact (h.queryDataRsp hs).1
  | rpcTimeout order => exact (h.rpcTimeout hs).1

lemma Invariant.exists_loginReq (h : s.Invariant sent) {sessionId : ℤ} {head : ServerHead}
    (hcounter : s.rpc.nQueryId + 1 < 2 ^ 63) : ∃ r, s.step (.loginReq sessionId head) = some r := by
  obtain ⟨⟨players, rsps, requests⟩, hhandled⟩ :=
    h.consistent.onHandleCSPlayerLoginReq ⟨s.logins, sessionId, head⟩
  have hrequests : ∃ r, feed RpcModule.rpcRequest s.rpc requests = some r := by
    simp only [PlayerManagerModule.onHandleCSPlayerLoginReq] at hhandled
    split_ifs at hhandled
    · cases hhandled
      exact ⟨_, rfl⟩
    · cases hhandled
      exact ⟨_, rfl⟩
    · cases hhandled
      simp only [feed, RpcModule.rpcRequest, RpcModule.genQueryId, if_pos hcounter, Option.map_some,
        Option.bind_some]
      exact ⟨_, rfl⟩
  obtain ⟨r, hr⟩ := hrequests
  rw [LogicServer.step, hhandled, Option.bind_some]
  dsimp only
  rw [hr]
  exact ⟨_, rfl⟩

lemma exists_queryDataRsp (respond : Respond) : ∃ r, s.step (.queryDataRsp respond) = some r := by
  have hrpc : ∃ r, s.rpc.onRespond ss_msgid_querydata_rsp respond [] = some r := by
    rw [RpcModule.onRespond]
    cases s.rpc.mapRpcContext ss_msgid_querydata_rsp with
    | none => exact ⟨_, rfl⟩
    | some pRpcContext =>
      dsimp only
      cases pRpcContext.mapCurrentCallback.lookup respond.packetHead.queryId with
      | some func => exact ⟨_, rfl⟩
      | none => cases pRpcContext.mapLastCallback.lookup respond.packetHead.queryId <;> exact ⟨_, rfl⟩
  obtain ⟨r, hr⟩ := hrpc
  exact ⟨_, by rw [LogicServer.step, hr]; rfl⟩

lemma exists_rpcTimeout {order : List ℤ} {pRpcContext : RpcContext Login}
    (hcontext : s.rpc.mapRpcContext ss_msgid_querydata_rsp = some pRpcContext)
    (horder : order.Perm (pRpcContext.mapLastCallback.map Prod.fst)) : ∃ r, s.step (.rpcTimeout order) = some r := by
  have hrpc : ∃ r, s.rpc.onTimeout ss_msgid_querydata_rsp order (fun _ => []) = some r := by
    rw [RpcModule.onTimeout, hcontext]
    dsimp only
    rw [if_pos (List.isPerm_iff.mpr horder), RpcModule.feed_invoke]
    exact ⟨_, rfl⟩
  obtain ⟨r, hr⟩ := hrpc
  exact ⟨_, by rw [LogicServer.step, hr]; rfl⟩

lemma Invariant.exists_step (h : s.Invariant sent) {e : LogicEvent} (he : s.Occurs e) : ∃ r, s.step e = some r := by
  cases e with
  | loginReq sessionId head => exact h.exists_loginReq he
  | queryDataRsp respond => exact exists_queryDataRsp respond
  | rpcTimeout order =>
    obtain ⟨pRpcContext, hcontext, horder⟩ := he
    exact exists_rpcTimeout hcontext horder

lemma invariant_of_turns {events : List LogicEvent} (h : Turns LogicServer.step init events s sent) : s.Invariant sent :=
  h.invariant (I := Invariant) (fun hi hs => hi.step hs) invariant_init

/-! ### The login state -/

def waitingOf (s : LogicServer) (u : Bytes) : List Login :=
  s.waiting.filter fun login => login.head.user_id = u

lemma waitingOf_length (u : Bytes) : (s.waitingOf u).length = (s.waiting.map fun login => login.head.user_id).count u := by
  rw [waitingOf, ← List.countP_eq_length_filter, List.count_eq_countP, List.countP_map]
  refine List.countP_congr fun login _ => ?_
  simp

lemma Invariant.waitingOf_eq (h : s.Invariant sent) {login : Login} (hw : login ∈ s.waiting) :
    s.waitingOf login.head.user_id = [login] := by
  have hmem : login ∈ s.waitingOf login.head.user_id := List.mem_filter.mpr ⟨hw, by simp⟩
  have hle : (s.waitingOf login.head.user_id).length ≤ 1 := by
    rw [waitingOf_length, h.consistent.loading.count_eq]
    exact List.nodup_iff_count_le_one.mp h.consistent.nodup _
  obtain ⟨login', hone⟩ := List.length_eq_one_iff.mp (le_antisymm hle (List.length_pos_of_mem hmem))
  rw [hone] at hmem ⊢
  rw [List.mem_singleton.mp hmem]

/-- After every run: no user is both loading and online, a user is loading exactly when one callback
waits for it, every login request was answered once or is the one that waits, and whatever can reach the
server is handled. -/
theorem login_state {events : List LogicEvent} (h : Turns LogicServer.step init events s sent) :
    (∀ u ∈ s.players.m_mapLoadingPlayer.map Prod.fst, u ∉ s.players.m_mapOnlinePlayer.map Prod.fst) ∧
      (∀ u, (u ∈ s.players.m_mapLoadingPlayer.map Prod.fst ↔ (s.waitingOf u).length = 1) ∧
        (s.waitingOf u).length ≤ 1) ∧
      (∀ i < s.logins,
        (((sent.map fun rsp => rsp.login.number).count i = 1 ∧ ∀ login ∈ s.waiting, login.number ≠ i) ∨
          ((sent.map fun rsp => rsp.login.number).count i = 0 ∧
            ∃ login ∈ s.waiting, login.number = i ∧ s.waitingOf login.head.user_id = [login]))) ∧
      ∀ e, s.Occurs e → ∃ r, s.step e = some r := by
  have hinv := invariant_of_turns h
  refine ⟨hinv.consistent.disjoint, fun u => ?_, fun i hi => ?_, fun e he => hinv.exists_step he⟩
  · rw [waitingOf_length, hinv.consistent.loading.count_eq]
    have hle := List.nodup_iff_count_le_one.mp hinv.consistent.nodup u
    refine ⟨?_, hle⟩
    rw [← List.count_pos_iff]
    omega
  · have hcount : (s.waiting.map Login.number).count i + (sent.map fun rsp => rsp.login.number).count i = 1 := by
      rw [← List.count_append, hinv.consistent.numbers.count_eq]
      exact List.count_eq_one_of_mem List.nodup_range (List.mem_range.mpr hi)
    by_cases hsent : (sent.map fun rsp => rsp.login.number).count i = 0
    · right
      have hmem : i ∈ s.waiting.map Login.number := List.count_pos_iff.mp (by omega)
      obtain ⟨login, hw, rfl⟩ := List.mem_map.mp hmem
      exact ⟨hsent, login, hw, rfl, hinv.waitingOf_eq hw⟩
    · left
      refine ⟨by omega, ?_⟩
      rintro login hw rfl
      have hpos := List.count_pos_iff.mpr (List.mem_map_of_mem (f := Login.number) hw)
      omega

theorem two_requests_answered : ∃ s sent, Turns LogicServer.step init
      [.loginReq 1 ⟨[7], 1, 0⟩, .loginReq 2 ⟨[7], 2, 0⟩, .queryDataRsp ⟨9, ⟨1, 0⟩, []⟩] s sent ∧
    s.waiting = [] ∧ (∀ i < 2, (sent.map fun rsp => rsp.login.number).count i = 1) ∧
    ∃ r, s.step (.loginReq 3 ⟨[7], 3, 0⟩) = some r := by
  obtain ⟨⟨s, sent⟩, hs, hwaiting, hlogins, hcounter⟩ : ∃ r : LogicServer × List LoginRsp,
      feed LogicServer.step init
        [.loginReq 1 ⟨[7], 1, 0⟩, .loginReq 2 ⟨[7], 2, 0⟩, .queryDataRsp ⟨9, ⟨1, 0⟩, []⟩] = some r ∧
      r.1.waiting = [] ∧ r.1.logins = 2 ∧ r.1.rpc.nQueryId = 1 :=
    ⟨_, rfl, by decide, by decide, by decide⟩
  have hstate := login_state hs
  refine ⟨s, sent, hs, hwaiting, fun i hi => ?_, hstate.2.2.2 _ (by rw [Occurs, hcounter]; decide)⟩
  obtain ⟨hanswered, -⟩ | ⟨-, login, hw, -⟩ := hstate.2.2.1 i (hlogins ▸ hi)
  · exact hanswered
  · rw [hwaiting] at hw
    simp at hw

end LogicServer

end TonyCat.Game
