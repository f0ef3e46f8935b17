import TonyCat.Database.Protobuf
import TonyCat.Loop.CoroutineMeaning

set_option autoImplicit false

/-! `ClientManagerModule` of the test client: one client after the other connects to the gate, logs in and is
closed. -/

namespace TonyCat.Game

open TonyCat.Library TonyCat.Loop TonyCat.Database

inductive ClientAct
  | emplace (strAccount : Bytes) (nSessionId : ℤ)
  | closeInMainLoop (nSessionId : ℤ)
deriving DecidableEq

inductive ClientAsk
  /-- `AwaitableConnect`: answered with the session, or with 0 -/
  | connect (strIP : Bytes) (nPort : ℤ)
  /-- `AwaitableRpcFetch` of a `CSPlayerLoginRsp`: answered with the `error_code` of its head -/
  | playerLogin (nSessionId : ℤ) (user_name : Bytes)
deriving DecidableEq

namespace ClientManagerModule

abbrev ClientBody := Body ClientAct ClientAsk ℤ
abbrev ClientMark := Mark ClientAct ClientAsk ℤ
abbrev ClientFlow := Flow ClientAct ClientAsk ℤ
abbrev ClientConfig := Flow.Config ClientAct ClientAsk ℤ

def strAccount (nCurClient : ℕ) : Bytes := ascii "test" ++ decimal nCurClient

/-- `CreateNewClient` from where it has a session. -/
def loginClient (nCurClient : ℕ) (nSessionId : ℤ) : ClientBody :=
  .act (.emplace (strAccount nCurClient) nSessionId) <|
  .fetch (.playerLogin nSessionId (strAccount nCurClient)) fun error_code =>
  .act (.closeInMainLoop nSessionId) <|
  if error_code ≠ 0 then .coReturn error_code else .coReturn 0

/-- `CreateNewClient`, when `s_nCLientNum` has become `nCurClient`; the gate's address is that of its instance 1. -/
def createNewClient (pServerInstanceInfo : Option (Bytes × ℤ)) (nCurClient : ℕ) : ClientBody :=
  match pServerInstanceInfo with
  | none => .coReturn 1
  | some (strPublicIp, nPublicPort) =>
    .fetch (.connect strPublicIp nPublicPort) fun nSessionId =>
    if nSessionId = 0 then .coReturn 1 else loginClient nCurClient nSessionId

def loginLoop (pServerInstanceInfo : Option (Bytes × ℤ)) : ℕ → ℕ → ClientBody
  | 0, _ => .coReturn 0
  | rounds + 1, nCurClient =>
    .execAfter 1000 <|
    .coAwait (createNewClient pServerInstanceInfo nCurClient) fun _ =>
    loginLoop pServerInstanceInfo rounds (nCurClient + 1)

def testRounds : ℕ := 1000000

def startTestClient (pServerInstanceInfo : Option (Bytes × ℤ)) : ClientBody :=
  .execAfter 20000 (loginLoop pServerInstanceInfo testRounds 1)

def clientMarks (server : Bytes × ℤ) (nCurClient : ℕ) (answers : ℤ × ℤ) : List ClientMark :=
  [.ask (.connect server.1 server.2), .answer answers.1] ++ if answers.1 = 0 then [] else
    [.act (.emplace (strAccount nCurClient) answers.1), .ask (.playerLogin answers.1 (strAccount nCurClient)),
      .answer answers.2, .act (.closeInMainLoop answers.1)]

def testMarks (pServerInstanceInfo : Option (Bytes × ℤ)) (answers : List (ℤ × ℤ)) : List ClientMark :=
  match pServerInstanceInfo with
  | none => []
  | some server => (answers.zipIdx 1).flatMap fun a => clientMarks server a.2 a.1

lemma testMarks_concat (server : Bytes × ℤ) (done : List (ℤ × ℤ)) (a : ℤ × ℤ) :
    testMarks (some server) (done ++ [a]) = testMarks (some server) done ++ clientMarks server (done.length + 1) a := by
  rw [testMarks, List.zipIdx_append, List.flatMap_append, List.zipIdx_singleton, List.flatMap_singleton, Nat.add_comm]
  rfl

lemma clientMarks_of_ne {server : Bytes × ℤ} {nCurClient : ℕ} {answers : ℤ × ℤ} (h : answers.1 ≠ 0) :
    clientMarks server nCurClient answers = [.ask (.connect server.1 server.2), .answer answers.1,
      .act (.emplace (strAccount nCurClient) answers.1), .ask (.playerLogin answers.1 (strAccount nCurClient)),
      .answer answers.2, .act (.closeInMainLoop answers.1)] := by
  rw [clientMarks, if_neg h]
  rfl

def sessionFlow (nCurClient : ℕ) (nSessionId : ℤ) (rest : ClientFlow) : ClientFlow :=
  .act (.emplace (strAccount nCurClient) nSessionId) <|
  .ask (.playerLogin nSessionId (strAccount nCurClient)) fun _ => .act (.closeInMainLoop nSessionId) rest

lemma flow_loginLoop_succ (server : Bytes × ℤ) (rounds nCurClient : ℕ) :
    (loginLoop (some server) (rounds + 1) nCurClient).flow = .ask (.connect server.1 server.2) fun nSessionId =>
      if nSessionId = 0 then (loginLoop (some server) rounds (nCurClient + 1)).flow
      else sessionFlow nCurClient nSessionId (loginLoop (some server) rounds (nCurClient + 1)).flow := by
  rw [loginLoop, Body.flow, Body.flow, createNewClient, Body.flow, Flow.bind]
  congr 1
  funext nSessionId
  split_ifs
  · rfl
  · rw [loginClient, Body.flow, Body.flow, Flow.bind, Flow.bind, sessionFlow]
    congr 2
    funext error_code
    rw [Body.flow, Flow.bind]
    split_ifs <;> rfl

lemma flow_loginLoop_none (rounds nCurClient : ℕ) : (loginLoop none rounds nCurClient).flow = .done 0 := by
  induction rounds generalizing nCurClient with
  | zero => rfl
  | succ rounds ih => exact ih (nCurClient + 1)

inductive Stage (main : ℕ) (server : Bytes × ℤ) : List ClientMark → ClientConfig → Prop
  | between {done : List (ℤ × ℤ)} {rounds : ℕ} (h : done.length + rounds = testRounds) :
      Stage main server (testMarks (some server) done) (.on main (loginLoop (some server) rounds (done.length + 1)).flow)
  | connecting {done : List (ℤ × ℤ)} {rounds : ℕ} (h : done.length + (rounds + 1) = testRounds) :
      Stage main server (testMarks (some server) done ++ [.ask (.connect server.1 server.2)])
        (.asked fun nSessionId => if nSessionId = 0 then (loginLoop (some server) rounds (done.length + 2)).flow
          else sessionFlow (done.length + 1) nSessionId (loginLoop (some server) rounds (done.length + 2)).flow)
  | connected {done : List (ℤ × ℤ)} {rounds : ℕ} {nSessionId : ℤ} (h : done.length + (rounds + 1) = testRounds)
      (hne : nSessionId ≠ 0) : Stage main server
        (testMarks (some server) done ++ (clientMarks server (done.length + 1) (nSessionId, 0)).take 2)
        (.on main (sessionFlow (done.length + 1) nSessionId (loginLoop (some server) rounds (done.length + 2)).flow))
  | entered {done : List (ℤ × ℤ)} {rounds : ℕ} {nSessionId : ℤ} (h : done.length + (rounds + 1) = testRounds)
      (hne : nSessionId ≠ 0) : Stage main server
        (testMarks (some server) done ++ (clientMarks server (done.length + 1) (nSessionId, 0)).take 3)
        (.on main (.ask (.playerLogin nSessionId (strAccount (done.length + 1))) fun _ =>
          .act (.closeInMainLoop nSessionId) (loginLoop (some server) rounds (done.length + 2)).flow))
  | loggingIn {done : List (ℤ × ℤ)} {rounds : ℕ} {nSessionId : ℤ} (h : done.length + (rounds + 1) = testRounds)
      (hne : nSessionId ≠ 0) : Stage main server
        (testMarks (some server) done ++ (clientMarks server (done.length + 1) (nSessionId, 0)).take 4)
        (.asked fun _ => .act (.closeInMainLoop nSessionId) (loginLoop (some server) rounds (done.length + 2)).flow)
  | loggedIn {done : List (ℤ × ℤ)} {rounds : ℕ} {nSessionId error_code : ℤ}
      (h : done.length + (rounds + 1) = testRounds) (hne : nSessionId ≠ 0) : Stage main server
        (testMarks (some server) done ++ (clientMarks server (done.length + 1) (nSessionId, error_code)).take 5)
        (.on main (.act (.closeInMainLoop nSessionId) (loginLoop (some server) rounds (done.length + 2)).flow))

lemma Stage.between_concat (main : ℕ) (server : Bytes × ℤ) {done : List (ℤ × ℤ)} {rounds : ℕ} {a : ℤ × ℤ}
    (h : done.length + (rounds + 1) = testRounds) : Stage main server
      (testMarks (some server) done ++ clientMarks server (done.length + 1) a)
      (.on main (loginLoop (some server) rounds (done.length + 2)).flow) := by
  have hlen : (done ++ [a]).length + rounds = testRounds := by
    rw [List.length_append, List.length_singleton]
    omega
  have hround : Stage main server (testMarks (some server) (done ++ [a])) _ := .between hlen
  rwa [testMarks_concat, List.length_append, List.length_singleton] at hround

variable {main : ℕ} {server : Bytes × ℤ} {marks : List ClientMark} {c d : ClientConfig}
  {seen : List (ℕ × ClientMark)}

lemma Stage.step (h : Stage main server marks c) (hstep : Flow.Step main c seen d) :
    Stage main server (marks ++ seen.map Prod.snd) d ∧ ∀ e ∈ seen, e.1 = main := by
  cases h with
  | @between done rounds h =>
    cases rounds with
    | zero => cases hstep
    | succ rounds =>
      rw [flow_loginLoop_succ] at hstep
      cases hstep
      exact ⟨.connecting h, by simp⟩
  | @connecting done rounds h =>
    cases hstep with
    | answer nSessionId =>
      refine ⟨?_, by simp⟩
      beta_reduce
      split_ifs with hzero
      · subst hzero
        have hround := Stage.between_concat (a := (0, 0)) main server h
        rw [List.append_assoc]
        exact hround
      · have hround : Stage main server _ _ := .connected h hzero
        rw [List.append_assoc]
        exact hround
  | @connected done rounds nSessionId h hne =>
    cases hstep
    refine ⟨?_, by simp⟩
    have hround : Stage main server _ _ := .entered h hne
    rw [clientMarks_of_ne hne] at hround ⊢
    rw [List.append_assoc]
    exact hround
  | @entered done rounds nSessionId h hne =>
    cases hstep
    refine ⟨?_, by simp⟩
    have hround : Stage main server _ _ := .loggingIn h hne
    rw [clientMarks_of_ne hne] at hround ⊢
    rw [List.append_assoc]
    exact hround
  | @loggingIn done rounds nSessionId h hne =>
    cases hstep with
    | answer error_code =>
      refine ⟨?_, by simp⟩
      have hround : Stage main server (_ ++ (clientMarks server _ (_, error_code)).take 5) _ := .loggedIn h hne
      rw [clientMarks_of_ne hne] at hround ⊢
      rw [List.append_assoc]
      exact hround
  | @loggedIn done rounds nSessionId error_code h hne =>
    cases hstep
    refine ⟨?_, by simp⟩
    have hround := Stage.between_concat (a := (nSessionId, error_code)) main server h
    rw [clientMarks_of_ne hne] at hround ⊢
    rw [List.append_assoc]
    exact hround

lemma Stage.prefix_testMarks (h : Stage main server marks c) :
    ∃ answers, answers.length ≤ testRounds ∧ marks <+: testMarks (some server) answers := by
  have hround : ∀ {done : List (ℤ × ℤ)} {rounds j : ℕ} (a : ℤ × ℤ), done.length + (rounds + 1) = testRounds →
      ∃ answers : List (ℤ × ℤ), answers.length ≤ testRounds ∧
        testMarks (some server) done ++ (clientMarks server (done.length + 1) a).take j <+:
          testMarks (some server) answers := by
    intro done rounds j a hlen
    refine ⟨done ++ [a], ?_, ?_⟩
    · rw [List.length_append, List.length_singleton]
      omega
    · rw [testMarks_concat]
      exact (List.prefix_append_right_inj _).mpr (List.take_prefix _ _)
  cases h with
  | @between done rounds h => exact ⟨done, by omega, List.prefix_rfl⟩
  | @connecting done rounds h => exact hround (j := 1) (0, 0) h
  | connected h => exact hround _ h
  | entered h => exact hround _ h
  | loggingIn h => exact hround _ h
  | loggedIn h => exact hround _ h

theorem clients_one_by_one {es : List (CoroutineEvent ClientAct ClientAsk ℤ)} {M : Coroutines ClientAct ClientAsk ℤ}
    (h : run (Coroutines.step main) Coroutines.init es = some M) {call : Call ClientAct ClientAsk ℤ} (hcall : call ∈ M.calls)
    {pServerInstanceInfo : Option (Bytes × ℤ)} (hloop : call.loop = main)
    (hbody : call.body = startTestClient pServerInstanceInfo) :
    (∀ e ∈ M.trace call.id, e.1 = main) ∧ ∃ answers, answers.length ≤ testRounds ∧
      (M.trace call.id).map Prod.snd <+: testMarks pServerInstanceInfo answers := by
  obtain ⟨c, hreached⟩ : ∃ c, Flow.Reaches main (.on call.loop call.body.flow) (M.trace call.id) c := by
    rcases Coroutines.underway_or_finished h hcall with ⟨t, hunderway⟩ | ⟨-, -, loop, v, hdone⟩
    · obtain ⟨c, -, hreached⟩ := hunderway.reached
      exact ⟨c, hreached⟩
    · exact ⟨_, hdone⟩
  rw [hloop, hbody, startTestClient, Body.flow] at hreached
  cases pServerInstanceInfo with
  | none =>
    rw [flow_loginLoop_none] at hreached
    have hnil : M.trace call.id = [] ∧ c = .on main (.done 0) := by
      refine hreached.keeps (I := fun trace c => trace = [] ∧ c = .on main (.done 0)) ⟨rfl, rfl⟩ ?_
      rintro trace seen c d ⟨-, rfl⟩ hstep
      cases hstep
    rw [hnil.1]
    exact ⟨List.forall_mem_nil _, [], Nat.zero_le _, List.nil_prefix⟩
  | some server =>
    have hstage : Stage main server ((M.trace call.id).map Prod.snd) c ∧ ∀ e ∈ M.trace call.id, e.1 = main := by
      apply hreached.keeps (I := fun trace c => Stage main server (trace.map Prod.snd) c ∧ ∀ e ∈ trace, e.1 = main)
      · have hstart : Stage main server (testMarks (some server) []) _ := .between (Nat.zero_add testRounds)
        exact ⟨hstart, List.forall_mem_nil _⟩
      · rintro trace seen c d ⟨hstage, hon⟩ hstep
        obtain ⟨hstage', hseen⟩ := hstage.step hstep
        rw [List.map_append]
        exact ⟨hstage', fun e he => (List.mem_append.mp he).elim (hon e) (hseen e)⟩
    exact ⟨hstage.2, hstage.1.prefix_testMarks⟩

def firstLogin : List (CoroutineEvent ClientAct ClientAsk ℤ) :=
  [.call 0 (startTestClient (some (ascii "127.0.0.1", 7001))), .turn 0, .turn 0, .turn 0, .turn 0, .turn 0, .turn 0,
    .turn 0, .turn 0, .answer 0 3, .turn 0, .turn 0, .answer 0 0, .turn 0]

theorem first_client : ∃ M, run (Coroutines.step 0) Coroutines.init firstLogin = some M ∧
    (M.trace 0).map Prod.snd = clientMarks (ascii "127.0.0.1", 7001) 1 (3, 0) ∧ ∀ e ∈ M.trace 0, e.1 = 0 := by
  have hcall : (⟨0, 0, startTestClient (some (ascii "127.0.0.1", 7001))⟩ : Call ClientAct ClientAsk ℤ) ∈
    [⟨0, 0, startTestClient (some (ascii "127.0.0.1", 7001))⟩] := List.mem_singleton_self _
  have hrun : run (Coroutines.step 0) Coroutines.init firstLogin = some _ := rfl
  exact ⟨_, hrun, rfl, (clients_one_by_one hrun hcall rfl rfl).1⟩

end ClientManagerModule

end TonyCat.Game
