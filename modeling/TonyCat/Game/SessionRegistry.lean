import TonyCat.Game.ClientPbModule
import TonyCat.Service.ServiceGovernment

set_option autoImplicit false

/-! The sessions in `NetModule::m_mapSession`, and the ids of sessions that `ServiceGovernmentModule` and
`ClientPbModule` store. -/

namespace TonyCat.Game

open TonyCat.Library TonyCat.Service

variable {K : Type*}

/-- The keys of `m_mapSession` in the main loop, the sessions of `NetModule::Accept` whose task for the main loop
is still to run, and those for which it has run. -/
structure SessionRegistry (K : Type*) where
  gov : ServiceGovernment K
  gate : ClientPbModule
  m_mapSession : List ℤ
  accepting : List ℤ
  accepted : List ℤ

/-- What the main loop handles. A session that was accepted may be closed, and removed, at any moment, and
the answer to a login may come at any moment. -/
inductive RegistryEvent (K : Type*)
  | government (e : ServiceGovernment.Event K)
  | accept
  | acceptHandled (nSessionId : ℤ)
  | removeMapSession (nSessionId : ℤ)
  | playerLogin (clientSessionId : ℤ) (userId : Bytes)

namespace SessionRegistry

def init : SessionRegistry K := ⟨.initConnect, .init, [], [], []⟩

def erase (mapSession : List ℤ) (nSessionId : ℤ) : List ℤ := mapSession.filter (· ≠ nSessionId)

def mapSessionAfter (net : SessionRegistry K) : ServiceGovernment.Event K → List ℤ
  | .registered key link =>
    match (net.gov.mapServerList key).links[link]? with
    | some (.registering nSessionId) => net.m_mapSession ++ [nSessionId]
    | _ => net.m_mapSession
  | .closeHandled key link =>
    match (net.gov.mapServerList key).links[link]? with
    | some (.closing nSessionId) => erase net.m_mapSession nSessionId
    | _ => net.m_mapSession
  | _ => net.m_mapSession

variable [DecidableEq K]

def step (net : SessionRegistry K) : RegistryEvent K → Option (SessionRegistry K)
  | .government e => (net.gov.step e).map fun gov => { net with gov := gov, m_mapSession := net.mapSessionAfter e }
  | .accept =>
    let gov := net.gov.createSessionId
    some { net with gov := gov, accepting := net.accepting ++ [gov.nNextSessionId] }
  | .acceptHandled nSessionId =>
    if nSessionId ∈ net.accepting then
      some { net with
        accepting := net.accepting.erase nSessionId
        accepted := net.accepted ++ [nSessionId]
        m_mapSession := net.m_mapSession ++ [nSessionId] }
    else
      none
  | .removeMapSession nSessionId =>
    if nSessionId ∈ net.accepted then
      some { net with m_mapSession := erase net.m_mapSession nSessionId }
    else
      none
  | .playerLogin clientSessionId userId => some { net with gate := (net.gate.onUserLogin clientSessionId userId).gate }

structure NoDangling (net : SessionRegistry K) : Prop where
  instances : ∀ key, (net.gov.mapServerList key).nSessionId ≠ 0 → (net.gov.mapServerList key).nSessionId ∈ net.m_mapSession
  users : ∀ s, net.gate.m_mapSessionUserInfo.lookup s ≠ none → s ∈ net.m_mapSession

/-- A heartbeat or the answer to a login comes while its session is in the map, and a session is taken out when
only the instance whose link it is has stored it. -/
def Timely (net : SessionRegistry K) : RegistryEvent K → Prop
  | .government (.heartbeatReq _ nSessionId) => nSessionId = 0 ∨ nSessionId ∈ net.m_mapSession
  | .government (.closeHandled key link) => ∀ nSessionId,
      (net.gov.mapServerList key).links[link]? = some (.closing nSessionId) →
        (∀ key', key' ≠ key → (net.gov.mapServerList key').nSessionId = nSessionId → nSessionId = 0) ∧
          net.gate.m_mapSessionUserInfo.lookup nSessionId = none
  | .removeMapSession nSessionId =>
      (∀ key, (net.gov.mapServerList key).nSessionId = nSessionId → nSessionId = 0) ∧
        net.gate.m_mapSessionUserInfo.lookup nSessionId = none
  | .playerLogin clientSessionId _ =>
      net.gate.m_mapSessionUserInfo.lookup clientSessionId ≠ none ∨ clientSessionId ∈ net.m_mapSession
  | _ => True

end SessionRegistry

end TonyCat.Game

namespace TonyCat.Service

variable {K : Type*}

namespace ServiceGovernment

def KeepsOrForgets (gov gov' : ServiceGovernment K) : Prop :=
  ∀ key, (gov'.mapServerList key).nSessionId = (gov.mapServerList key).nSessionId ∨
    (gov'.mapServerList key).nSessionId = 0

lemma nSessionId_onDisconnect (info : Instance) (nSessionId : ℤ) :
    (info.onDisconnect nSessionId).nSessionId = if info.nSessionId = nSessionId then 0 else info.nSessionId := by
  simp only [Instance.onDisconnect]
  split_ifs with h₁ h₂ h₂
  · rfl
  · exact absurd h₁.2 h₂
  · by_contra hne
    exact h₁ ⟨hne, h₂⟩
  · rfl

variable [DecidableEq K] {gov gov' : ServiceGovernment K}

lemma keepsOrForgets_modify (gov : ServiceGovernment K) {key : K} {info : Instance}
    (h : info.nSessionId = (gov.mapServerList key).nSessionId ∨ info.nSessionId = 0) :
    gov.KeepsOrForgets (gov.modify key info) := by
  intro key'
  rw [mapServerList_modify]
  split_ifs with hkey
  · rwa [hkey]
  · exact Or.inl rfl

lemma doSessionConnect_keeps {key : K} {link : ℕ} {ec : Bool} (h : gov.doSessionConnect key link ec = some gov') :
    gov.KeepsOrForgets gov' := by
  unfold doSessionConnect at h
  simp only at h
  split at h <;> cases h
  · exact keepsOrForgets_modify gov.createSessionId (Or.inl rfl)
  all_goals exact keepsOrForgets_modify _ (Or.inl rfl)

lemma heartbeatResumed_keeps {key : K} {nSessionId : ℤ} {success : Bool}
    (h : gov.heartbeatResumed key nSessionId success = some gov') : gov.KeepsOrForgets gov' := by
  rw [heartbeatResumed] at h
  dsimp only at h
  split_ifs at h
  · cases h
    exact keepsOrForgets_modify _ (Or.inl rfl)
  · cases h
    intro key'
    rw [mapServerList_modify]
    split_ifs with hkey
    · rw [nSessionId_onDisconnect, hkey]
      split_ifs
      · exact Or.inr rfl
      · left
        simp [Instance.closeInMainLoop, Instance.rearmHeartbeat]
    · left
      simp [Instance.closeInMainLoop, hkey]

end ServiceGovernment

end TonyCat.Service

namespace TonyCat.Game

open TonyCat.Library TonyCat.Service

variable {K : Type*} [DecidableEq K]

namespace SessionRegistry

variable {net net' : SessionRegistry K}

omit [DecidableEq K] in
lemma NoDangling.of_keeps (h : net.NoDangling) {gov : ServiceGovernment K} (hkeeps : net.gov.KeepsOrForgets gov) :
    NoDangling { net with gov := gov } where
  instances := by
    intro key hne
    obtain hsame | hzero := hkeeps key
    · have hstored := h.instances key
      rw [← hsame] at hstored
      exact hstored hne
    · exact absurd hzero hne
  users := h.users

omit [DecidableEq K] in
lemma NoDangling.of_subset (h : net.NoDangling) {m_mapSession accepting accepted : List ℤ}
    (hsub : net.m_mapSession ⊆ m_mapSession) : NoDangling ⟨net.gov, net.gate, m_mapSession, accepting, accepted⟩ where
  instances := fun key hne => hsub (h.instances key hne)
  users := fun s hs => hsub (h.users s hs)

omit [DecidableEq K] in
lemma noDangling_erase_iff (h : net.NoDangling) (nSessionId : ℤ) :
    NoDangling { net with m_mapSession := erase net.m_mapSession nSessionId } ↔
      (∀ key, (net.gov.mapServerList key).nSessionId = nSessionId → nSessionId = 0) ∧
        net.gate.m_mapSessionUserInfo.lookup nSessionId = none := by
  have hmem : ∀ s, s ∈ erase net.m_mapSession nSessionId ↔ s ∈ net.m_mapSession ∧ s ≠ nSessionId := by
    simp [erase]
  constructor
  · intro h'
    refine ⟨fun key heq => ?_, ?_⟩
    · by_contra hne
      exact ((hmem _).mp (h'.instances key (by rwa [heq]))).2 heq
    · by_contra hne
      exact ((hmem _).mp (h'.users nSessionId hne)).2 rfl
  · rintro ⟨hinstances, husers⟩
    refine ⟨fun key hne => (hmem _).mpr ⟨h.instances key hne, ?_⟩, fun s hs => (hmem _).mpr ⟨h.users s hs, ?_⟩⟩
    · intro heq
      exact hne (heq.trans (hinstances key heq))
    · rintro rfl
      exact hs husers

lemma noDangling_closeHandled (h : net.NoDangling) {key : K} {link : ℕ}
    (hs : net.step (.government (.closeHandled key link)) = some net') :
    net'.NoDangling ↔ net.Timely (.government (.closeHandled key link)) := by
  obtain ⟨gov, hgov, hs⟩ := Option.map_eq_some_iff.mp hs
  cases hs
  simp only [ServiceGovernment.step] at hgov
  split at hgov
  case h_2 => cases hgov
  case h_1 nSessionId hlink =>
  cases hgov
  have hkeeps : net.gov.KeepsOrForgets (net.gov.modify key
      ({ net.gov.mapServerList key with links := (net.gov.mapServerList key).links.eraseIdx link }.onDisconnect
        nSessionId)) := by
    apply ServiceGovernment.keepsOrForgets_modify _
    rw [ServiceGovernment.nSessionId_onDisconnect]
    split_ifs
    · exact Or.inr rfl
    · exact Or.inl rfl
  simp only [mapSessionAfter, hlink, Timely, Option.some.injEq, Link.closing.injEq, forall_eq']
  refine (noDangling_erase_iff (h.of_keeps hkeeps) nSessionId).trans (and_congr_left fun _ => ?_)
  simp only [ServiceGovernment.mapServerList_modify]
  refine forall_congr' fun key' => ?_
  by_cases hkey : key' = key
  · -- the instance whose session it is forgets it
    rw [if_pos hkey, ServiceGovernment.nSessionId_onDisconnect]
    refine iff_of_true ?_ fun hne => absurd hkey hne
    split_ifs with heq
    · exact Eq.symm
    · exact fun heq' => absurd heq' heq
  · rw [if_neg hkey]
    exact ⟨fun hz _ => hz, fun hz => hz hkey⟩

lemma noDangling_heartbeatReq (h : net.NoDangling) {key : K} {nSessionId : ℤ}
    (hs : net.step (.government (.heartbeatReq key nSessionId)) = some net') :
    net'.NoDangling ↔ net.Timely (.government (.heartbeatReq key nSessionId)) := by
  cases hs
  constructor
  · intro h'
    have hkey := h'.instances key
    rw [ServiceGovernment.mapServerList_modify, if_pos rfl] at hkey
    exact or_iff_not_imp_left.mpr hkey
  · intro hstored
    refine ⟨fun key' hne => ?_, h.users⟩
    rw [ServiceGovernment.mapServerList_modify] at hne ⊢
    split_ifs at hne ⊢ with hkey
    · exact hstored.resolve_left hne
    · exact h.instances key' hne

lemma noDangling_registered (h : net.NoDangling) {key : K} {link : ℕ}
    (hs : net.step (.government (.registered key link)) = some net') : net'.NoDangling := by
  obtain ⟨gov, hgov, hs⟩ := Option.map_eq_some_iff.mp hs
  cases hs
  simp only [ServiceGovernment.step] at hgov
  split at hgov
  case h_2 => cases hgov
  case h_1 nSessionId hlink =>
  cases hgov
  have hmap : net.mapSessionAfter (.registered key link) = net.m_mapSession ++ [nSessionId] := by
    simp only [mapSessionAfter, hlink]
  rw [hmap]
  refine ⟨fun key' hne => ?_, fun s hs => List.mem_append_left _ (h.users s hs)⟩
  rw [ServiceGovernment.mapServerList_modify] at hne ⊢
  split_ifs at hne ⊢ with hkey
  · exact List.mem_append_right _ List.mem_cons_self
  · exact List.mem_append_left _ (h.instances key' hne)

omit [DecidableEq K] in
lemma noDangling_playerLogin (h : net.NoDangling) (clientSessionId : ℤ) (userId : Bytes) :
    NoDangling { net with gate := (net.gate.onUserLogin clientSessionId userId).gate } ↔
      net.gate.m_mapSessionUserInfo.lookup clientSessionId ≠ none ∨ clientSessionId ∈ net.m_mapSession := by
  by_cases hs : net.gate.m_mapSessionUserInfo.lookup clientSessionId = none
  · obtain ⟨hnew, hold⟩ := ClientPbModule.lookup_onUserLogin hs userId
    constructor
    · exact fun h' => Or.inr (h'.users clientSessionId hnew)
    · intro hC
      refine ⟨h.instances, fun s hstored => ?_⟩
      by_cases heq : s = clientSessionId
      · rw [heq]
        exact hC.resolve_left (not_not.mpr hs)
      · exact h.users s (hold s heq hstored)
  · refine iff_of_true ?_ (Or.inl hs)
    rw [ClientPbModule.onUserLogin_of_mem hs]
    exact ⟨h.instances, h.users⟩

lemma noDangling_government (h : net.NoDangling) {e : ServiceGovernment.Event K}
    (hs : net.step (.government e) = some net') : net'.NoDangling ↔ net.Timely (.government e) := by
  cases e with
  | registered key link => exact iff_of_true (noDangling_registered h hs) trivial
  | closeHandled key link => exact noDangling_closeHandled h hs
  | heartbeatReq key nSessionId => exact noDangling_heartbeatReq h hs
  | connected key link ec =>
    obtain ⟨gov, hgov, hs⟩ := Option.map_eq_some_iff.mp hs
    cases hs
    exact iff_of_true (h.of_keeps (ServiceGovernment.doSessionConnect_keeps hgov)) trivial
  | heartbeatDone key nSessionId success =>
    obtain ⟨gov, hgov, hs⟩ := Option.map_eq_some_iff.mp hs
    cases hs
    exact iff_of_true (h.of_keeps (ServiceGovernment.heartbeatResumed_keeps hgov)) trivial
  | accepted =>
    cases hs
    exact iff_of_true ⟨h.instances, h.users⟩ trivial
  | _ =>
    obtain ⟨gov, hgov, hs⟩ := Option.map_eq_some_iff.mp hs
    cases hs
    refine iff_of_true (h.of_keeps ?_) trivial
    simp only [ServiceGovernment.step] at hgov
    split at hgov <;> cases hgov <;> exact ServiceGovernment.keepsOrForgets_modify _ (Or.inl rfl)

lemma noDangling_step (h : net.NoDangling) {e : RegistryEvent K} (hs : net.step e = some net') :
    net'.NoDangling ↔ net.Timely e := by
  cases e with
  | government e => exact noDangling_government h hs
  | accept =>
    cases hs
    exact iff_of_true ⟨h.instances, h.users⟩ trivial
  | acceptHandled nSessionId =>
    simp only [step] at hs
    split_ifs at hs
    cases hs
    exact iff_of_true (h.of_subset (List.subset_append_left _ _)) trivial
  | removeMapSession nSessionId =>
    simp only [step] at hs
    split_ifs at hs
    cases hs
    exact noDangling_erase_iff h nSessionId
  | playerLogin clientSessionId userId =>
    cases hs
    exact noDangling_playerLogin h clientSessionId userId

omit [DecidableEq K] in
lemma noDangling_init : (init : SessionRegistry K).NoDangling :=
  ⟨fun _ hne => absurd rfl hne, by simp [init, ClientPbModule.init]⟩

theorem no_dangling_iff_timely {events : List (RegistryEvent K)} (h : run step init events = some net) :
    (∀ done, done <+: events → ∀ net, run step init done = some net → net.NoDangling) ↔
      StepsMeet step (fun _ net e => net.Timely e) init events :=
  invariant_iff_stepsMeet h noDangling_init fun hinv hs => noDangling_step hinv hs

theorem no_dangling_while_open : ∃ net : SessionRegistry Unit, run step init [.accept, .accept, .acceptHandled 1,
    .acceptHandled 2, .government (.heartbeatReq () 1), .playerLogin 2 [7]] = some net ∧ net.NoDangling := by
  have hrun : ∃ net : SessionRegistry Unit, run step init [.accept, .accept, .acceptHandled 1, .acceptHandled 2,
    .government (.heartbeatReq () 1), .playerLogin 2 [7]] = some net := ⟨_, rfl⟩
  obtain ⟨net, hrun⟩ := hrun
  refine ⟨net, hrun, (no_dangling_iff_timely hrun).mpr ?_ _ List.prefix_rfl net hrun⟩
  refine stepsMeet_cons trivial fun s₁ h₁ => ?_
  obtain rfl := Option.some.inj h₁
  refine stepsMeet_cons trivial fun s₂ h₂ => ?_
  obtain rfl := Option.some.inj h₂
  refine stepsMeet_cons trivial fun s₃ h₃ => ?_
  obtain rfl := Option.some.inj h₃
  refine stepsMeet_cons trivial fun s₄ h₄ => ?_
  obtain rfl := Option.some.inj h₄
  refine stepsMeet_cons (Or.inr (by decide)) fun s₅ h₅ => ?_
  obtain rfl := Option.some.inj h₅
  exact stepsMeet_cons (Or.inr (by decide)) fun _ _ => stepsMeet_nil

/-- The server's connection and the client's are closed: their ids stay where they are. -/
theorem closed_sessions_dangle : ∃ net : SessionRegistry Unit, run step init [.accept, .accept, .acceptHandled 1,
    .acceptHandled 2, .government (.heartbeatReq () 1), .playerLogin 2 [7], .removeMapSession 1, .removeMapSession 2] =
      some net ∧ net.m_mapSession = [] ∧ (net.gov.mapServerList ()).nSessionId = 1 ∧
        net.gate.m_mapSessionUserInfo.lookup 2 = some (some ⟨[7], 2⟩) ∧ ¬ net.NoDangling := by
  refine ⟨_, rfl, by decide, by decide, by decide, fun h => ?_⟩
  have hmem := h.users 2 (by decide)
  revert hmem
  decide

end SessionRegistry

end TonyCat.Game
