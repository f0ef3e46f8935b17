import TonyCat.Game.ClientPbModule
import TonyCat.Game.PlayerManagerModule

set_option autoImplicit false

/-! A login through the gate: the request it passes on, the query of the logic server, and the answer
that comes back, with the messages between the two servers in flight. -/

namespace TonyCat.Game

open TonyCat.Library TonyCat.Service

structure LoginCallback where
  sessionId : ℤ
  head : ClientHead

structure LoginSystem where
  gate : ClientPbModule
  gateRpc : RpcModule LoginCallback
  logic : LogicServer
  requests : List ServerHead
  answers : List ServerHead

/-- A message in flight arrives or is lost, in any order. -/
inductive LoginEvent
  | clientLogin (sessionId : ℤ) (head : ClientHead) (user_name : Bytes)
  | requestArrives (i : ℕ) (sessionId : ℤ)
  | requestLost (i : ℕ)
  | queryDataRsp (respond : Respond)
  | queryTimeout (order : List ℤ)
  | answerArrives (i : ℕ) (sessionId : ℤ)
  | answerLost (i : ℕ)
  | loginTimeout (order : List ℤ)

/-- An answer of the logic server, a call of `OnUserLogin` and an answer of the gate; `online` tells
whether the user is online on the logic server at that moment. -/
inductive LoginAction
  | loginRsp (rsp : LoginRsp)
  | userLogin (clientSessionId : ℤ) (userId : Bytes) (online : Bool)
  | clientRsp (clientSessionId : ℤ) (head : ClientHead) (userId : Bytes) (online : Bool)

namespace LoginSystem

def init : LoginSystem := ⟨.init, .init, .init, [], []⟩

def isOnline (sys : LoginSystem) (userId : Bytes) : Bool :=
  (sys.logic.players.m_mapOnlinePlayer.lookup userId).isSome

/-- `ClientPbModule::OnHandleCSPlayerLoginReq`: the token is not checked, the name is the id. -/
def onHandleCSPlayerLoginReq (sys : LoginSystem) (sessionId : ℤ) (head : ClientHead) (user_name : Bytes) :
    Option LoginSystem :=
  (sys.gateRpc.rpcRequest ⟨cs_msgid_playerlogin_rsp, ⟨sessionId, head⟩⟩).map fun r =>
    { sys with
      gateRpc := r.1
      requests := sys.requests ++ [⟨user_name, r.1.nQueryId, ss_msg_success⟩] }

def onPlayerLoginRsp (sys : LoginSystem) (callback : LoginCallback) (headRsp : ServerHead) :
    LoginSystem × List LoginAction :=
  if headRsp.error_code ≠ ss_msg_success then
    (sys, [])
  else
    let login := sys.gate.onUserLogin callback.sessionId headRsp.user_id
    let online := sys.isOnline headRsp.user_id
    if !login.success then
      ({ sys with gate := login.gate }, [.userLogin callback.sessionId headRsp.user_id online])
    else
      ({ sys with gate := login.gate },
        [.userLogin callback.sessionId headRsp.user_id online,
          .clientRsp callback.sessionId callback.head headRsp.user_id online])

def callbacks (headRsp : ServerHead) : LoginSystem → List (Action LoginCallback) → LoginSystem × List LoginAction
  | sys, [] => (sys, [])
  | sys, .registered _ _ _ :: actions => callbacks headRsp sys actions
  | sys, .invoked _ _ callback _ :: actions =>
    let r := sys.onPlayerLoginRsp callback headRsp
    let r' := callbacks headRsp r.1 actions
    (r'.1, r.2 ++ r'.2)

def logicStep (sys : LoginSystem) (e : LogicEvent) : Option (LoginSystem × List LoginAction) :=
  (sys.logic.step e).map fun r =>
    ({ sys with logic := r.1, answers := sys.answers ++ r.2.map LoginRsp.head }, r.2.map .loginRsp)

def timeoutHead : ServerHead := ⟨[], 0, ss_msg_timeout⟩

def step (sys : LoginSystem) : LoginEvent → Option (LoginSystem × List LoginAction)
  | .clientLogin sessionId head user_name =>
    (sys.onHandleCSPlayerLoginReq sessionId head user_name).map fun sys => (sys, [])
  | .requestArrives i sessionId =>
    sys.requests[i]?.bind fun head =>
      { sys with requests := sys.requests.eraseIdx i }.logicStep (.loginReq sessionId head)
  | .requestLost i => some ({ sys with requests := sys.requests.eraseIdx i }, [])
  | .queryDataRsp respond => sys.logicStep (.queryDataRsp respond)
  | .queryTimeout order => sys.logicStep (.rpcTimeout order)
  | .answerArrives i sessionId =>
    sys.answers[i]?.bind fun headRsp =>
      (sys.gateRpc.onRespond cs_msgid_playerlogin_rsp
        ⟨sessionId, ⟨headRsp.query_id, headRsp.error_code⟩, []⟩ []).map fun r =>
          callbacks headRsp { sys with gateRpc := r.1, answers := sys.answers.eraseIdx i } r.2
  | .answerLost i => some ({ sys with answers := sys.answers.eraseIdx i }, [])
  | .loginTimeout order =>
    (sys.gateRpc.onTimeout cs_msgid_playerlogin_rsp order fun _ => []).map fun r =>
      callbacks timeoutHead { sys with gateRpc := r.1 } r.2

end LoginSystem

def LoginAction.Truthful : LoginAction → Prop
  | .loginRsp rsp => rsp.head.error_code = ss_msg_success → rsp.online = true
  | .userLogin _ _ online => online = true
  | .clientRsp _ _ _ online => online = true

instance (a : LoginAction) : Decidable a.Truthful :=
  match a with
  | .loginRsp rsp => inferInstanceAs (Decidable (rsp.head.error_code = ss_msg_success → rsp.online = true))
  | .userLogin _ _ online => inferInstanceAs (Decidable (online = true))
  | .clientRsp _ _ _ online => inferInstanceAs (Decidable (online = true))

namespace LoginSystem

def QueriesSucceed (sys : LoginSystem) : LoginEvent → Prop
  | .queryDataRsp respond => respond.packetHead.errorCode = ss_msg_success ∨
      ∀ login, (respond.packetHead.queryId, login) ∉ sys.logic.rpc.pending ss_msgid_querydata_rsp
  | .queryTimeout _ => sys.logic.rpc.lastOf ss_msgid_querydata_rsp = []
  | _ => True

def Online (sys : LoginSystem) (userId : Bytes) : Prop :=
  userId ∈ sys.logic.players.m_mapOnlinePlayer.map Prod.fst

instance (sys : LoginSystem) (userId : Bytes) : Decidable (sys.Online userId) :=
  inferInstanceAs (Decidable (userId ∈ _))

variable {sys sys' : LoginSystem} {out : List LoginAction}

lemma isOnline_eq_true {userId : Bytes} : sys.isOnline userId = true ↔ sys.Online userId :=
  PlayerManagerModule.lookup_isSome

structure Invariant (sys : LoginSystem) : Prop where
  gateRpc : sys.gateRpc.WellFormed
  logic : ∃ sent, sys.logic.Invariant sent
  requests : ∀ head ∈ sys.requests, head.error_code = ss_msg_success
  waiting : ∀ login ∈ sys.logic.waiting, login.head.error_code = ss_msg_success
  answers : ∀ head ∈ sys.answers, head.error_code = ss_msg_success → sys.Online head.user_id

lemma invariant_init : init.Invariant where
  gateRpc := RpcModule.wellFormed_init
  logic := ⟨[], LogicServer.invariant_init⟩
  requests := by simp [init]
  waiting := by simp [init, LogicServer.waiting, LogicServer.init, RpcModule.pending_init]
  answers := by simp [init]

lemma onPlayerLoginRsp_eq (sys : LoginSystem) (callback : LoginCallback) (headRsp : ServerHead) :
    ∃ gate, (sys.onPlayerLoginRsp callback headRsp).1 = { sys with gate := gate } := by
  rw [onPlayerLoginRsp]
  split
  · exact ⟨sys.gate, rfl⟩
  · dsimp only
    split <;> exact ⟨_, rfl⟩

lemma onPlayerLoginRsp_truthful {callback : LoginCallback} {headRsp : ServerHead}
    (h : headRsp.error_code = ss_msg_success → sys.Online headRsp.user_id) :
    ∀ a ∈ (sys.onPlayerLoginRsp callback headRsp).2, a.Truthful := by
  rw [onPlayerLoginRsp]
  split
  case isTrue => simp
  case isFalse hcode =>
    have honline : sys.isOnline headRsp.user_id = true := isOnline_eq_true.mpr (h (not_not.mp hcode))
    dsimp only
    split <;> simp [LoginAction.Truthful, honline]

lemma callbacks_eq (headRsp : ServerHead) (actions : List (Action LoginCallback)) (sys : LoginSystem) :
    ∃ gate, (callbacks headRsp sys actions).1 = { sys with gate := gate } := by
  induction actions generalizing sys with
  | nil => exact ⟨sys.gate, rfl⟩
  | cons a actions ih =>
    cases a with
    | registered _ _ _ => exact ih sys
    | invoked _ _ callback _ =>
      obtain ⟨gate, hone⟩ := sys.onPlayerLoginRsp_eq callback headRsp
      obtain ⟨gate', hrest⟩ := ih { sys with gate := gate }
      refine ⟨gate', ?_⟩
      rw [callbacks, hone]
      exact hrest

lemma callbacks_truthful {headRsp : ServerHead} (actions : List (Action LoginCallback)) (sys : LoginSystem)
    (h : headRsp.error_code = ss_msg_success → sys.Online headRsp.user_id) :
    ∀ a ∈ (callbacks headRsp sys actions).2, a.Truthful := by
  induction actions generalizing sys with
  | nil => simp [callbacks]
  | cons a actions ih =>
    cases a with
    | registered _ _ _ => exact ih sys h
    | invoked _ _ callback _ =>
      obtain ⟨gate, hone⟩ := sys.onPlayerLoginRsp_eq callback headRsp
      rw [callbacks]
      refine List.forall_mem_append.mpr ⟨onPlayerLoginRsp_truthful h, ?_⟩
      rw [hone]
      exact ih _ h

lemma Invariant.of_gate (h : sys.Invariant) (gate : ClientPbModule) {rpc : RpcModule LoginCallback}
    (hrpc : rpc.WellFormed) {requests answers : List ServerHead}
    (hrequests : ∀ head ∈ requests, head.error_code = ss_msg_success) (hanswers : answers ⊆ sys.answers) :
    Invariant ⟨gate, rpc, sys.logic, requests, answers⟩ where
  gateRpc := hrpc
  logic := h.logic
  requests := hrequests
  waiting := h.waiting
  answers := fun head hmem => h.answers head (hanswers hmem)

lemma Invariant.callbacks (h : sys.Invariant) {headRsp : ServerHead} {actions : List (Action LoginCallback)}
    (hhead : headRsp.error_code = ss_msg_success → sys.Online headRsp.user_id)
    (hs : callbacks headRsp sys actions = (sys', out)) : (∀ a ∈ out, a.Truthful) ∧ sys'.Invariant := by
  have htruthful := callbacks_truthful actions sys hhead
  obtain ⟨gate, hgate⟩ := callbacks_eq headRsp actions sys
  rw [hs] at htruthful hgate
  refine ⟨htruthful, ?_⟩
  rw [show sys' = _ from hgate]
  exact h.of_gate gate h.gateRpc h.requests (List.Subset.refl _)

lemma Invariant.logicStep (h : sys.Invariant) {e : LogicEvent} {logic : LogicServer} {sent : List LoginRsp}
    (hs : sys.logicStep e = some (sys', out)) (hstep : sys.logic.step e = some (logic, sent))
    (hwaiting : ∀ login ∈ logic.waiting, login.head.error_code = ss_msg_success)
    (honline : ∀ u, sys.Online u → u ∈ logic.players.m_mapOnlinePlayer.map Prod.fst) {C : Prop}
    (hsent : (∀ rsp ∈ sent, rsp.head.error_code = ss_msg_success → rsp.online = true) ↔ C)
    (htrue : ∀ rsp ∈ sent, rsp.head.error_code = ss_msg_success → rsp.online = true →
      rsp.head.user_id ∈ logic.players.m_mapOnlinePlayer.map Prod.fst) :
    ((∀ a ∈ out, a.Truthful) ↔ C) ∧ (C → sys'.Invariant) := by
  rw [LoginSystem.logicStep, hstep] at hs
  cases hs
  obtain ⟨before, hlogic⟩ := h.logic
  refine ⟨?_, fun hC => ⟨h.gateRpc, ⟨_, hlogic.step hstep⟩, h.requests, hwaiting, ?_⟩⟩
  · rw [← hsent, List.forall_mem_map]
    rfl
  · intro head hmem hcode
    rcases List.mem_append.mp hmem with hmem | hmem
    · exact honline _ (h.answers head hmem hcode)
    · obtain ⟨rsp, hrsp, rfl⟩ := List.mem_map.mp hmem
      exact htrue rsp hrsp hcode (hsent.mpr hC rsp hrsp hcode)

lemma Invariant.loginReq (h : sys.Invariant) {sessionId : ℤ} {head : ServerHead} (hhead : head.error_code = ss_msg_success)
    (hs : sys.logicStep (.loginReq sessionId head) = some (sys', out)) :
    ((∀ a ∈ out, a.Truthful) ↔ True) ∧ (True → sys'.Invariant) := by
  obtain ⟨⟨logic, sent⟩, hstep, -⟩ := Option.map_eq_some_iff.mp hs
  obtain ⟨before, hlogic⟩ := h.logic
  obtain ⟨-, honline, hcases⟩ := hlogic.loginReq hstep
  have hrefused : ∀ rsp ∈ sent, rsp.head.error_code ≠ ss_msg_success := by
    obtain ⟨-, code, online, hcode, rfl⟩ | ⟨-, rfl⟩ := hcases
    · simpa using hcode
    · simp
  apply h.logicStep hs hstep
  · obtain ⟨hw, -⟩ | ⟨hw, -⟩ := hcases
    · rw [hw]
      exact h.waiting
    · rw [hw]
      intro login hmem
      rcases List.mem_append.mp hmem with hmem | hmem
      · exact h.waiting login hmem
      · rwa [List.mem_singleton.mp hmem]
  · rw [honline]
    exact fun u hu => hu
  · exact iff_true_intro fun rsp hrsp hcode => absurd hcode (hrefused rsp hrsp)
  · exact fun rsp hrsp hcode => absurd hcode (hrefused rsp hrsp)

lemma Invariant.queryDataRsp (h : sys.Invariant) {respond : Respond}
    (hs : sys.logicStep (.queryDataRsp respond) = some (sys', out)) :
    ((∀ a ∈ out, a.Truthful) ↔ sys.QueriesSucceed (.queryDataRsp respond)) ∧
      (sys.QueriesSucceed (.queryDataRsp respond) → sys'.Invariant) := by
  obtain ⟨⟨logic, sent⟩, hstep, -⟩ := Option.map_eq_some_iff.mp hs
  obtain ⟨before, hlogic⟩ := h.logic
  obtain ⟨-, ⟨rfl, rfl, hnone⟩ | ⟨login, hmem, hw, rfl, honline⟩⟩ := hlogic.queryDataRsp hstep
  · refine h.logicStep hs hstep h.waiting (fun u hu => hu) ?_ (by simp)
    simp [QueriesSucceed, hnone]
  · have hlogin : login.head.error_code = ss_msg_success := h.waiting login (hw.mem_iff.mpr List.mem_cons_self)
    apply h.logicStep hs hstep
    · exact fun l hl => h.waiting l (hw.mem_iff.mpr (List.mem_cons_of_mem _ hl))
    · intro u hu
      rw [honline]
      exact List.mem_append_left _ hu
    · rw [List.forall_mem_singleton]
      simp only [hlogin, forall_const, decide_eq_true_eq, QueriesSucceed]
      exact ⟨Or.inl, fun hC => hC.resolve_right fun hnone => hnone login hmem⟩
    · intro rsp hrsp _ hon
      rw [List.mem_singleton.mp hrsp] at hon ⊢
      rw [honline, if_pos (of_decide_eq_true hon)]
      simp

lemma Invariant.queryTimeout (h : sys.Invariant) {order : List ℤ}
    (hs : sys.logicStep (.rpcTimeout order) = some (sys', out)) :
    ((∀ a ∈ out, a.Truthful) ↔ sys.QueriesSucceed (.queryTimeout order)) ∧
      (sys.QueriesSucceed (.queryTimeout order) → sys'.Invariant) := by
  obtain ⟨⟨logic, sent⟩, hstep, -⟩ := Option.map_eq_some_iff.mp hs
  obtain ⟨before, hlogic⟩ := h.logic
  obtain ⟨-, honline, elems, hperm, hw, rfl⟩ := hlogic.rpcTimeout hstep
  have hsuccess : ∀ elem ∈ elems, elem.2.head.error_code = ss_msg_success := fun elem helem =>
    h.waiting _ (hw.mem_iff.mpr (List.mem_append_left _ (List.mem_map_of_mem helem)))
  apply h.logicStep hs hstep
  · exact fun l hl => h.waiting l (hw.mem_iff.mpr (List.mem_append_right _ hl))
  · rw [honline]
    exact fun u hu => hu
  · rw [List.forall_mem_map, QueriesSucceed, ← List.perm_nil]
    constructor
    · intro htruthful
      have hempty : elems = [] := List.eq_nil_iff_forall_not_mem.mpr fun elem helem =>
        Bool.false_ne_true (htruthful elem helem (hsuccess elem helem))
      rw [hempty] at hperm
      exact hperm.symm
    · intro hC elem helem
      rw [(hperm.trans hC).eq_nil] at helem
      cases helem
  · intro rsp hrsp _ hon
    obtain ⟨elem, -, rfl⟩ := List.mem_map.mp hrsp
    cases hon

lemma Invariant.step (h : sys.Invariant) {e : LoginEvent} (hs : sys.step e = some (sys', out)) :
    ((∀ a ∈ out, a.Truthful) ↔ sys.QueriesSucceed e) ∧ (sys.QueriesSucceed e → sys'.Invariant) := by
  cases e with
  | clientLogin sessionId head user_name =>
    obtain ⟨sys₁, hreq, hs⟩ := Option.map_eq_some_iff.mp hs
    cases hs
    obtain ⟨⟨rpc, actions⟩, hrpc, rfl⟩ := Option.map_eq_some_iff.mp hreq
    refine ⟨by simp [QueriesSucceed], fun _ => ?_⟩
    refine h.of_gate sys.gate (RpcModule.pending_rpcRequest h.gateRpc hrpc).1 ?_ (List.Subset.refl _)
    intro head hmem
    rcases List.mem_append.mp hmem with hmem | hmem
    · exact h.requests head hmem
    · rw [List.mem_singleton.mp hmem]
  | requestArrives i sessionId =>
    obtain ⟨head, hget, hs⟩ := Option.bind_eq_some_iff.mp hs
    have hhead := h.requests head (List.mem_of_getElem? hget)
    have hsub : ∀ head ∈ sys.requests.eraseIdx i, head.error_code = ss_msg_success :=
      fun head hmem => h.requests head (List.mem_of_mem_eraseIdx hmem)
    exact (h.of_gate sys.gate h.gateRpc hsub (List.Subset.refl _)).loginReq hhead hs
  | requestLost i =>
    cases hs
    refine ⟨by simp [QueriesSucceed], fun _ => h.of_gate sys.gate h.gateRpc ?_ (List.Subset.refl _)⟩
    exact fun head hmem => h.requests head (List.mem_of_mem_eraseIdx hmem)
  | queryDataRsp respond => exact h.queryDataRsp hs
  | queryTimeout order => exact h.queryTimeout hs
  | answerArrives i sessionId =>
    obtain ⟨headRsp, hget, hs⟩ := Option.bind_eq_some_iff.mp hs
    obtain ⟨⟨rpc, actions⟩, hrpc, hs⟩ := Option.map_eq_some_iff.mp hs
    have hinv := h.of_gate sys.gate (RpcModule.pending_onRespond h.gateRpc hrpc).1 h.requests
      (List.eraseIdx_sublist sys.answers i).subset
    obtain ⟨htruthful, hinv'⟩ := hinv.callbacks (h.answers headRsp (List.mem_of_getElem? hget)) hs
    exact ⟨iff_of_true htruthful trivial, fun _ => hinv'⟩
  | answerLost i =>
    cases hs
    refine ⟨by simp [QueriesSucceed], fun _ => h.of_gate sys.gate h.gateRpc h.requests ?_⟩
    exact (List.eraseIdx_sublist sys.answers i).subset
  | loginTimeout order =>
    obtain ⟨⟨rpc, actions⟩, hrpc, hs⟩ := Option.map_eq_some_iff.mp hs
    have hinv := h.of_gate sys.gate (RpcModule.pending_onTimeout h.gateRpc hrpc).1 h.requests (List.Subset.refl _)
    have hfail : timeoutHead.error_code ≠ ss_msg_success := by decide
    obtain ⟨htruthful, hinv'⟩ := hinv.callbacks (fun hcode => absurd hcode hfail) hs
    exact ⟨iff_of_true htruthful trivial, fun _ => hinv'⟩

theorem truthful_iff_queries_succeed {events : List LoginEvent} (h : Turns LoginSystem.step init events sys out) :
    (∀ a ∈ out, a.Truthful) ↔ TurnsMeet LoginSystem.step QueriesSucceed init events :=
  h.outputs_iff (fun hinv hs => hinv.step hs) invariant_init

/-- A login whose query fails with error 1: the gate logs the user in, who is not online. -/
theorem failed_query_logged_in : ∃ sys out, Turns LoginSystem.step init
    [.clientLogin 10 ⟨5, 0⟩ [7], .requestArrives 0 1, .queryDataRsp ⟨2, ⟨1, 1⟩, []⟩, .answerArrives 0 3] sys out ∧
      (∃ a ∈ out, ¬ a.Truthful) ∧ sys.gate.m_mapUserInfo = [([7], some ⟨[7], 10⟩)] ∧ ¬ sys.Online [7] := by
  refine ⟨_, _, rfl, ⟨_, List.mem_cons_self, ?_⟩, ?_, ?_⟩ <;> decide

theorem succeeded_query_truthful : ∃ sys out, Turns LoginSystem.step init
    [.clientLogin 10 ⟨5, 0⟩ [7], .requestArrives 0 1, .queryDataRsp ⟨2, ⟨1, 0⟩, []⟩, .answerArrives 0 3] sys out ∧
      out.length = 3 ∧ ∀ a ∈ out, a.Truthful := by
  have hrun : ∃ r, feed LoginSystem.step init [.clientLogin 10 ⟨5, 0⟩ [7], .requestArrives 0 1,
      .queryDataRsp ⟨2, ⟨1, 0⟩, []⟩, .answerArrives 0 3] = some r ∧ r.2.length = 3 := ⟨_, rfl, by decide⟩
  obtain ⟨⟨sys, out⟩, h, hlength⟩ := hrun
  refine ⟨sys, out, h, hlength, (truthful_iff_queries_succeed h).mpr ?_⟩
  refine (turnsMeet_cons rfl).mpr ⟨trivial, (turnsMeet_cons rfl).mpr ⟨trivial, ?_⟩⟩
  exact (turnsMeet_cons rfl).mpr ⟨Or.inl rfl, (turnsMeet_cons rfl).mpr ⟨trivial, turnsMeet_nil⟩⟩

end LoginSystem

end TonyCat.Game
