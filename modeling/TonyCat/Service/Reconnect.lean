import TonyCat.Service.ServiceGovernment

set_option autoImplicit false

/-! Whether an instance is connected again, whatever happens to its links. -/

namespace TonyCat.Service

open TonyCat.Library ServiceGovernment

variable {K : Type*} [DecidableEq K]

namespace Instance

/-- There is a session that lives, is being registered or has its close callback to come, a connect attempt
whose outcome is reported, or an armed reconnect timer. -/
def Watched (info : Instance) : Prop :=
  (∃ link ∈ info.links, link ≠ .secondTry) ∨ info.timerReconnect = true ∨ 0 < info.expiredReconnects

structure Reported (info : Instance) : Prop where
  watched : info.Watched
  callback : .secondTry ∉ info.links

variable {info : Instance}

lemma Reported.of_links {links : List Link} (h : info.Reported) (hlinks : info.links ≠ [] → links ≠ [])
    (hnot : .secondTry ∉ links) : Reported { info with links := links } := by
  refine ⟨?_, hnot⟩
  obtain ⟨link, hlink, -⟩ | h := h.watched
  · obtain ⟨link, hlink⟩ := List.exists_mem_of_ne_nil _ (hlinks (List.ne_nil_of_mem hlink))
    exact .inl ⟨link, hlink, fun heq => hnot (heq ▸ hlink)⟩
  · exact .inr h

lemma Reported.set (h : info.Reported) (i : ℕ) {link : Link} (hlink : link ≠ .secondTry) :
    Reported { info with links := info.links.set i link } := by
  apply h.of_links
  · intro hne hnil
    exact hne (List.eq_nil_of_length_eq_zero (by rw [← List.length_set, hnil]; rfl))
  · intro hmem
    obtain hmem | heq := List.mem_or_eq_of_mem_set hmem
    · exact h.callback hmem
    · exact hlink heq.symm

lemma Reported.closeInMainLoop (h : info.Reported) (nSessionId : ℤ) : (info.closeInMainLoop nSessionId).Reported := by
  apply h.of_links
  · intro hne hnil
    exact hne (List.map_eq_nil_iff.mp hnil)
  · intro hmem
    obtain ⟨link, hlink, heq⟩ := List.mem_map.mp hmem
    cases link with
    | live id =>
      rw [closeLink] at heq
      split at heq <;> cases heq
    | secondTry => exact h.callback hlink
    | _ => cases heq

lemma onDisconnect_reported (nSessionId : ℤ) (h : .secondTry ∉ info.links) :
    (info.onDisconnect nSessionId).Reported := by
  refine ⟨.inr (.inl rfl), ?_⟩
  rw [onDisconnect]
  split <;> exact h

lemma connectServerInstance_reported (h : .secondTry ∉ info.links) : info.connectServerInstance.Reported := by
  refine ⟨.inl ⟨.firstTry, List.mem_append_right _ (List.mem_singleton.mpr rfl), nofun⟩, ?_⟩
  intro hmem
  obtain hmem | hmem := List.mem_append.mp hmem
  · exact h hmem
  · cases List.mem_singleton.mp hmem

end Instance

namespace ServiceGovernment

def FirstTryFails (gov : ServiceGovernment K) : Event K → Prop
  | .connected key link ec => ec = false ∧ (gov.mapServerList key).links[link]? = some .firstTry
  | _ => False

lemma reported_modify {gov : ServiceGovernment K} (h : ∀ key, (gov.mapServerList key).Reported) (key : K)
    {info : Instance} (hinfo : info.Reported) : ∀ key', ((gov.modify key info).mapServerList key').Reported := by
  intro key'
  rw [mapServerList_modify]
  split
  · exact hinfo
  · exact h key'

lemma doSessionConnect_reported {gov gov' : ServiceGovernment K} {key : K} {link : ℕ} {ec : Bool}
    (h : ∀ key, (gov.mapServerList key).Reported) (hC : ¬ gov.FirstTryFails (.connected key link ec))
    (hstep : gov.doSessionConnect key link ec = some gov') : ∀ key, (gov'.mapServerList key).Reported := by
  have absent : (gov.mapServerList key).links[link]? ≠ some .secondTry :=
    fun hl => (h key).callback (List.mem_of_getElem? hl)
  unfold doSessionConnect at hstep
  simp only at hstep
  split at hstep
  case h_1 =>
    cases hstep
    exact reported_modify (h : ∀ key, (gov.createSessionId.mapServerList key).Reported) key ((h key).set link nofun)
  case h_2 hl => exact absurd ⟨rfl, hl⟩ hC
  case h_3 hl => exact absurd hl absent
  case h_4 hl => exact absurd hl absent
  case h_5 => cases hstep

lemma heartbeatResumed_reported {gov gov' : ServiceGovernment K} {key : K} {nSessionId : ℤ} {success : Bool}
    (h : ∀ key, (gov.mapServerList key).Reported)
    (hstep : gov.heartbeatResumed key nSessionId success = some gov') : ∀ key, (gov'.mapServerList key).Reported := by
  rw [heartbeatResumed] at hstep
  split at hstep
  case isFalse => cases hstep
  case isTrue =>
    have hrearmed : ((gov.mapServerList key).rearmHeartbeat nSessionId).Reported :=
      ⟨(h key).watched, (h key).callback⟩
    have hkept := reported_modify h key hrearmed
    split at hstep
    case isTrue =>
      cases hstep
      exact hkept
    case isFalse =>
      cases hstep
      have hclosed := fun key => (hkept key).closeInMainLoop nSessionId
      exact reported_modify hclosed key (Instance.onDisconnect_reported nSessionId (hclosed key).callback)

lemma step_reported {gov gov' : ServiceGovernment K} {event : Event K} (h : ∀ key, (gov.mapServerList key).Reported)
    (hC : ¬ gov.FirstTryFails event) (hstep : gov.step event = some gov') :
    ∀ key, (gov'.mapServerList key).Reported := by
  cases event with
  | connected key link ec => exact doSessionConnect_reported h hC hstep
  | registered key link =>
    simp only [step] at hstep
    split at hstep
    case h_1 nSessionId _ =>
      cases hstep
      have hset := (h key).set link (show Link.live nSessionId ≠ .secondTry from nofun)
      exact reported_modify h key ⟨hset.watched, hset.callback⟩
    case h_2 => cases hstep
  | socketClosed key link =>
    simp only [step] at hstep
    split at hstep
    case h_1 =>
      cases hstep
      exact reported_modify h key ((h key).set link nofun)
    case h_2 =>
      cases hstep
      exact reported_modify h key ((h key).set link nofun)
    case h_3 => cases hstep
  | closeHandled key link =>
    simp only [step] at hstep
    split at hstep
    case h_1 nSessionId _ =>
      cases hstep
      refine reported_modify h key (Instance.onDisconnect_reported nSessionId ?_)
      exact fun hmem => (h key).callback (List.mem_of_mem_eraseIdx hmem)
    case h_2 => cases hstep
  | heartbeatDone key nSessionId success => exact heartbeatResumed_reported h hstep
  | reconnectExpired key =>
    simp only [step] at hstep
    split at hstep
    case isTrue =>
      cases hstep
      exact reported_modify h key ⟨.inr (.inr (Nat.succ_pos _)), (h key).callback⟩
    case isFalse => cases hstep
  | reconnectFired key =>
    simp only [step] at hstep
    split at hstep
    case isTrue =>
      cases hstep
      exact reported_modify h key (Instance.connectServerInstance_reported (h key).callback)
    case isFalse => cases hstep
  | heartbeatExpired key =>
    simp only [step] at hstep
    split at hstep
    case isTrue =>
      cases hstep
      exact reported_modify h key ⟨(h key).watched, (h key).callback⟩
    case isFalse => cases hstep
  | heartbeatFired key =>
    simp only [step] at hstep
    split at hstep
    case isTrue =>
      cases hstep
      exact reported_modify h key ⟨(h key).watched, (h key).callback⟩
    case isFalse => cases hstep
  | heartbeatReq key nSessionId =>
    cases hstep
    exact reported_modify h key ⟨(h key).watched, (h key).callback⟩
  | accepted =>
    cases hstep
    exact h

theorem watched_of_first_tries_succeed {events : List (Event K)} {gov : ServiceGovernment K}
    (hC : StepsMeet step (fun _ gov event => ¬ gov.FirstTryFails event) initConnect events)
    (h : run step initConnect events = some gov) (key : K) : (gov.mapServerList key).Watched := by
  have hinit : ∀ key : K, ((initConnect : ServiceGovernment K).mapServerList key).Reported :=
    fun _ => Instance.connectServerInstance_reported List.not_mem_nil
  exact (hC.invariant (I := fun gov : ServiceGovernment K => ∀ key, (gov.mapServerList key).Reported) hinit
    (fun hI hC hstep => step_reported hI hC hstep) h key).watched

theorem watched_after_reconnect : ∃ gov : ServiceGovernment Unit,
    run step initConnect [.connected () 0 true, .registered () 0, .socketClosed () 0, .closeHandled () 0,
      .reconnectExpired (), .reconnectFired ()] = some gov ∧ (gov.mapServerList ()).Watched := by
  have hrun : ∃ gov : ServiceGovernment Unit, run step initConnect [.connected () 0 true, .registered () 0,
      .socketClosed () 0, .closeHandled () 0, .reconnectExpired (), .reconnectFired ()] = some gov := ⟨_, rfl⟩
  obtain ⟨gov, hrun⟩ := hrun
  refine ⟨gov, hrun, watched_of_first_tries_succeed ?_ hrun ()⟩
  intro done event hpre gov _ hfails
  have hmem := hpre.subset (List.mem_append_right _ (List.mem_singleton.mpr rfl))
  simp only [List.mem_cons, List.not_mem_nil, or_false] at hmem
  obtain rfl | rfl | rfl | rfl | rfl | rfl := hmem
  · cases hfails.1
  all_goals exact hfails

/-- Both tries of the first connect attempt fail, and nothing is left that would connect again. -/
theorem not_watched_after_two_failures : ¬ ∀ (events : List (Event Unit)) (gov : ServiceGovernment Unit),
    run step initConnect events = some gov → ∀ key, (gov.mapServerList key).Watched := by
  intro h
  have hrun := h [.connected () 0 false, .connected () 0 false] _ rfl ()
  obtain ⟨link, hlink, -⟩ | hrun | hrun := hrun
  · cases hlink
  · cases hrun
  · cases hrun

end ServiceGovernment

end TonyCat.Service
