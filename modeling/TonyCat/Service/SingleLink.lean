import Mathlib.Data.List.Perm.Basic
import TonyCat.Service.ServiceGovernment

set_option autoImplicit false

/-! How many links an instance has, and which events give it a second one. -/

namespace TonyCat.Service

open TonyCat.Library ServiceGovernment

variable {K : Type*}

def Link.isOpen : Link → Bool
  | .closing _ => false
  | _ => true

namespace Instance

def linkCount (info : Instance) : ℕ :=
  info.links.countP Link.isOpen + info.timerReconnect.toNat + info.expiredReconnects

def HeartbeatOfOther (info : Instance) (nSessionId : ℤ) : Prop :=
  info.nSessionId ≠ 0 ∧ info.nSessionId ≠ nSessionId ∧ info.timerHeartbeat = some info.nSessionId

def OnlyLink (info : Instance) (nSessionId : ℤ) : Prop :=
  (∀ link ∈ info.links, link.isOpen = true → link = .live nSessionId) ∧ info.expiredReconnects = 0

variable (info : Instance)

lemma linkCount_onDisconnect (nSessionId : ℤ) :
    (info.onDisconnect nSessionId).linkCount = info.links.countP Link.isOpen + 1 + info.expiredReconnects := by
  rw [onDisconnect]
  split <;> rfl

lemma linkCount_onConnectSucess (nSessionId : ℤ) :
    (info.onConnectSucess nSessionId true).linkCount = info.linkCount := rfl

lemma linkCount_set {i : ℕ} {old new : Link} (hold : info.links[i]? = some old) (hopen : old.isOpen = true) :
    (linkCount { info with links := info.links.set i new }) ≤ info.linkCount := by
  obtain ⟨hi, rfl⟩ := List.getElem?_eq_some_iff.mp hold
  have hpos : 0 < info.links.countP Link.isOpen := List.countP_pos_iff.mpr ⟨_, List.getElem_mem hi, hopen⟩
  simp only [linkCount, List.countP_set hi, hopen, if_true]
  split <;> omega

lemma countP_eraseIdx {links : List Link} {i : ℕ} {link : Link} (h : links[i]? = some link) :
    links.countP Link.isOpen = (links.eraseIdx i).countP Link.isOpen + link.isOpen.toNat := by
  obtain ⟨hi, rfl⟩ := List.getElem?_eq_some_iff.mp h
  rw [← List.Perm.countP_eq Link.isOpen (List.getElem_cons_eraseIdx_perm hi), List.countP_cons]
  cases links[i].isOpen <;> rfl

lemma isOpen_closeLink (nSessionId : ℤ) (link : Link) :
    (closeLink nSessionId link).isOpen = (link.isOpen && decide (link ≠ .live nSessionId)) := by
  cases link with
  | live id =>
    rw [closeLink]
    by_cases h : id = nSessionId <;> simp [h, Link.isOpen]
  | _ => simp [closeLink, Link.isOpen]

lemma countP_closeInMainLoop_le (nSessionId : ℤ) :
    (info.closeInMainLoop nSessionId).links.countP Link.isOpen ≤ info.links.countP Link.isOpen := by
  rw [closeInMainLoop, List.countP_map]
  apply List.countP_mono_left
  intro link _ h
  simp only [Function.comp_apply, isOpen_closeLink, Bool.and_eq_true] at h
  exact h.1

lemma countP_closeInMainLoop_eq_zero (nSessionId : ℤ) :
    (info.closeInMainLoop nSessionId).links.countP Link.isOpen = 0 ↔
      ∀ link ∈ info.links, link.isOpen = true → link = .live nSessionId := by
  rw [closeInMainLoop, List.countP_map, List.countP_eq_zero]
  simp only [Function.comp_apply, isOpen_closeLink, Bool.and_eq_true, decide_eq_true_eq, not_and, not_not]

end Instance

namespace ServiceGovernment

def AtMostOneLink (gov : ServiceGovernment K) : Prop := ∀ key, (gov.mapServerList key).linkCount ≤ 1

def About (gov : ServiceGovernment K) (event : Event K) (key : K) (nSessionId : ℤ) : Prop :=
  (∃ link, event = .closeHandled key link ∧ (gov.mapServerList key).links[link]? = some (.closing nSessionId)) ∨
    ∃ success, event = .heartbeatDone key nSessionId success

/-- An event about another session cancels the heartbeat timer of the current one. -/
def CancelsCurrent (gov : ServiceGovernment K) (event : Event K) (gov' : ServiceGovernment K) : Prop :=
  ∃ key nSessionId, gov.About event key nSessionId ∧ (gov.mapServerList key).HeartbeatOfOther nSessionId ∧
    (gov'.mapServerList key).timerHeartbeat ≠ (gov.mapServerList key).timerHeartbeat

/-- An event about a session comes while the instance has no other link: a close or a failed heartbeat while
no other session or attempt is open and no expired reconnect timer has still to run, and any of them while the
heartbeat timer of no other, current session waits. -/
def Timely (gov : ServiceGovernment K) : Event K → Prop
  | .closeHandled key link => ∀ nSessionId, (gov.mapServerList key).links[link]? = some (.closing nSessionId) →
      ((∀ other ∈ (gov.mapServerList key).links, other.isOpen = false) ∧
        (gov.mapServerList key).expiredReconnects = 0) ∧
        ¬ (gov.mapServerList key).HeartbeatOfOther nSessionId
  | .heartbeatDone key nSessionId success =>
    (success = false → (gov.mapServerList key).OnlyLink nSessionId) ∧
      ¬ (gov.mapServerList key).HeartbeatOfOther nSessionId
  | _ => True

variable {gov gov' : ServiceGovernment K}

lemma not_cancels_of_not_about {event : Event K} (h : ∀ key nSessionId, ¬ gov.About event key nSessionId) :
    ¬ gov.CancelsCurrent event gov' := by
  rintro ⟨key, nSessionId, habout, -⟩
  exact h key nSessionId habout

lemma cancels_iff {event : Event K} {key : K} {nSessionId : ℤ}
    (habout : ∀ key' id, gov.About event key' id ↔ key' = key ∧ id = nSessionId)
    (htimer : (gov'.mapServerList key).timerHeartbeat = none ∨
      (gov'.mapServerList key).timerHeartbeat = some nSessionId) :
    gov.CancelsCurrent event gov' ↔ (gov.mapServerList key).HeartbeatOfOther nSessionId := by
  constructor
  · rintro ⟨key', id, ha, hother, -⟩
    obtain ⟨rfl, rfl⟩ := (habout key' id).mp ha
    exact hother
  · intro hother
    refine ⟨key, nSessionId, (habout key nSessionId).mpr ⟨rfl, rfl⟩, hother, ?_⟩
    rw [hother.2.2]
    obtain htimer | htimer := htimer
    · rw [htimer]
      nofun
    · rw [htimer]
      intro heq
      exact hother.2.1 (Option.some.inj heq).symm

lemma atMostOneLink_closeInMainLoop (h : gov.AtMostOneLink) (nSessionId : ℤ) :
    (gov.closeInMainLoop nSessionId).AtMostOneLink := by
  intro key
  have hkey := h key
  have hle := Instance.countP_closeInMainLoop_le (gov.mapServerList key) nSessionId
  change ((gov.mapServerList key).closeInMainLoop nSessionId).links.countP Link.isOpen +
    (gov.mapServerList key).timerReconnect.toNat + (gov.mapServerList key).expiredReconnects ≤ 1
  rw [Instance.linkCount] at hkey
  omega

variable [DecidableEq K]

lemma atMostOneLink_modify (h : gov.AtMostOneLink) {key : K} {info : Instance} :
    (gov.modify key info).AtMostOneLink ↔ info.linkCount ≤ 1 := by
  constructor
  · intro hm
    have hkey := hm key
    rwa [mapServerList_modify, if_pos rfl] at hkey
  · intro hinfo key'
    rw [mapServerList_modify]
    split
    · exact hinfo
    · exact h key'

lemma doSessionConnect_atMostOneLink {key : K} {link : ℕ} {ec : Bool}
    (hstep : gov.doSessionConnect key link ec = some gov') (h : gov.AtMostOneLink) : gov'.AtMostOneLink := by
  unfold doSessionConnect at hstep
  simp only at hstep
  split at hstep
  case h_1 hl =>
    cases hstep
    exact (atMostOneLink_modify (show gov.createSessionId.AtMostOneLink from h)).mpr ((Instance.linkCount_set _ hl rfl).trans (h key))
  case h_2 hl =>
    cases hstep
    exact (atMostOneLink_modify h).mpr ((Instance.linkCount_set _ hl rfl).trans (h key))
  case h_3 hl =>
    cases hstep
    exact (atMostOneLink_modify h).mpr ((Instance.linkCount_set _ hl rfl).trans (h key))
  case h_4 hl =>
    cases hstep
    have hkey := h key
    have hcount := Instance.countP_eraseIdx hl
    rw [atMostOneLink_modify h]
    simp only [Instance.linkCount] at hkey ⊢
    omega
  case h_5 => cases hstep

lemma closeHandled_iff {key : K} {link : ℕ} (hstep : gov.step (.closeHandled key link) = some gov')
    (h : gov.AtMostOneLink) :
    (gov'.AtMostOneLink ∧ ¬ gov.CancelsCurrent (.closeHandled key link) gov') ↔ gov.Timely (.closeHandled key link) := by
  simp only [step] at hstep
  split at hstep
  case h_2 => cases hstep
  case h_1 nSessionId hl =>
    cases hstep
    have habout : ∀ key' id, gov.About (.closeHandled key link) key' id ↔ key' = key ∧ id = nSessionId := by
      intro key' id
      constructor
      · rintro (⟨_, heq, hl'⟩ | ⟨_, heq⟩) <;> cases heq
        rw [hl] at hl'
        cases hl'
        exact ⟨rfl, rfl⟩
      · rintro ⟨rfl, rfl⟩
        exact .inl ⟨link, rfl, hl⟩
    have hcount := Instance.countP_eraseIdx hl
    rw [atMostOneLink_modify h, Instance.linkCount_onDisconnect, cancels_iff habout
      (.inl (by rw [mapServerList_modify, if_pos rfl]; rfl))]
    simp only [Timely, hl, Option.some.injEq, Link.closing.injEq, forall_eq']
    apply and_congr_left'
    have hzero : (gov.mapServerList key).links.countP Link.isOpen = 0 ↔
        ∀ other ∈ (gov.mapServerList key).links, other.isOpen = false := by
      rw [List.countP_eq_zero]
      simp
    rw [← hzero]
    simp only [Link.isOpen, Bool.toNat_false] at hcount
    omega

lemma heartbeatDone_iff {key : K} {nSessionId : ℤ} {success : Bool}
    (hstep : gov.step (.heartbeatDone key nSessionId success) = some gov') (h : gov.AtMostOneLink) :
    (gov'.AtMostOneLink ∧ ¬ gov.CancelsCurrent (.heartbeatDone key nSessionId success) gov') ↔
      gov.Timely (.heartbeatDone key nSessionId success) := by
  have habout : ∀ key' id, gov.About (.heartbeatDone key nSessionId success) key' id ↔
      key' = key ∧ id = nSessionId := by
    intro key' id
    constructor
    · rintro (⟨_, heq, -⟩ | ⟨_, heq⟩) <;> cases heq
      exact ⟨rfl, rfl⟩
    · rintro ⟨rfl, rfl⟩
      exact .inr ⟨success, rfl⟩
  simp only [step, heartbeatResumed] at hstep
  split at hstep
  case isFalse => cases hstep
  case isTrue =>
    split at hstep
    case isTrue hsuccess =>
      cases hstep
      subst hsuccess
      rw [atMostOneLink_modify h, cancels_iff habout
        (.inr (by rw [mapServerList_modify, if_pos rfl]; rfl))]
      simp only [Timely, Bool.true_eq_false, false_implies, true_and]
      exact and_iff_right (h key)
    case isFalse hfail =>
      cases hstep
      rw [Bool.not_eq_true] at hfail
      subst hfail
      have hrearmed : (gov.modify key ((gov.mapServerList key).rearmHeartbeat nSessionId)).AtMostOneLink :=
        (atMostOneLink_modify h).mpr (h key)
      have hclosed := atMostOneLink_closeInMainLoop hrearmed nSessionId
      rw [atMostOneLink_modify hclosed, Instance.linkCount_onDisconnect, cancels_iff habout
        (.inl (by rw [mapServerList_modify, if_pos rfl]; rfl))]
      have hinfo : ((gov.modify key ((gov.mapServerList key).rearmHeartbeat nSessionId)).closeInMainLoop
          nSessionId).mapServerList key =
            ((gov.mapServerList key).rearmHeartbeat nSessionId).closeInMainLoop nSessionId := by
        rw [mapServerList_closeInMainLoop, mapServerList_modify, if_pos rfl]
      have hzero := Instance.countP_closeInMainLoop_eq_zero ((gov.mapServerList key).rearmHeartbeat nSessionId)
        nSessionId
      rw [hinfo]
      simp only [Timely, true_implies, Instance.OnlyLink]
      apply and_congr_left'
      change _ + 1 + (gov.mapServerList key).expiredReconnects ≤ 1 ↔ _
      change _ ↔ ∀ link ∈ (gov.mapServerList key).links, _ at hzero
      rw [← hzero]
      omega

lemma registered_atMostOneLink {key : K} {link : ℕ} (hstep : gov.step (.registered key link) = some gov')
    (h : gov.AtMostOneLink) : gov'.AtMostOneLink := by
  simp only [step] at hstep
  split at hstep
  case h_1 hl =>
    cases hstep
    rw [atMostOneLink_modify h, Instance.linkCount_onConnectSucess]
    exact (Instance.linkCount_set _ hl rfl).trans (h key)
  case h_2 => cases hstep

lemma socketClosed_atMostOneLink {key : K} {link : ℕ} (hstep : gov.step (.socketClosed key link) = some gov')
    (h : gov.AtMostOneLink) : gov'.AtMostOneLink := by
  simp only [step] at hstep
  split at hstep
  case h_1 hl =>
    cases hstep
    exact (atMostOneLink_modify h).mpr ((Instance.linkCount_set _ hl rfl).trans (h key))
  case h_2 hl =>
    cases hstep
    exact (atMostOneLink_modify h).mpr ((Instance.linkCount_set _ hl rfl).trans (h key))
  case h_3 => cases hstep

lemma reconnectExpired_atMostOneLink {key : K} (hstep : gov.step (.reconnectExpired key) = some gov')
    (h : gov.AtMostOneLink) : gov'.AtMostOneLink := by
  simp only [step] at hstep
  split at hstep
  case isTrue htimer =>
    cases hstep
    have hkey := h key
    rw [atMostOneLink_modify h]
    simp only [Instance.linkCount, htimer, Bool.toNat_true, Bool.toNat_false] at hkey ⊢
    omega
  case isFalse => cases hstep

lemma reconnectFired_atMostOneLink {key : K} (hstep : gov.step (.reconnectFired key) = some gov')
    (h : gov.AtMostOneLink) : gov'.AtMostOneLink := by
  simp only [step] at hstep
  split at hstep
  case isTrue hexpired =>
    cases hstep
    have hkey := h key
    rw [atMostOneLink_modify h]
    simp only [Instance.linkCount, Instance.connectServerInstance, Instance.connect, List.countP_append,
      List.countP_singleton, Link.isOpen, if_true] at hkey ⊢
    omega
  case isFalse => cases hstep

lemma heartbeatExpired_atMostOneLink {key : K} (hstep : gov.step (.heartbeatExpired key) = some gov')
    (h : gov.AtMostOneLink) : gov'.AtMostOneLink := by
  simp only [step] at hstep
  split at hstep
  case isTrue =>
    cases hstep
    exact (atMostOneLink_modify h).mpr (h key)
  case isFalse => cases hstep

lemma heartbeatFired_atMostOneLink {key : K} (hstep : gov.step (.heartbeatFired key) = some gov')
    (h : gov.AtMostOneLink) : gov'.AtMostOneLink := by
  simp only [step] at hstep
  split at hstep
  case isTrue =>
    cases hstep
    exact (atMostOneLink_modify h).mpr (h key)
  case isFalse => cases hstep

omit [DecidableEq K] in
lemma not_about {event : Event K} (hclose : ∀ key link, event ≠ .closeHandled key link)
    (hdone : ∀ key nSessionId success, event ≠ .heartbeatDone key nSessionId success) (key : K) (nSessionId : ℤ) :
    ¬ gov.About event key nSessionId := by
  rintro (⟨link, heq, -⟩ | ⟨success, heq⟩)
  · exact hclose key link heq
  · exact hdone key nSessionId success heq

lemma step_iff {event : Event K} (hstep : gov.step event = some gov') (h : gov.AtMostOneLink) :
    (gov'.AtMostOneLink ∧ ¬ gov.CancelsCurrent event gov') ↔ gov.Timely event := by
  have other : (∀ key nSessionId, ¬ gov.About event key nSessionId) → gov'.AtMostOneLink →
      gov.Timely event → ((gov'.AtMostOneLink ∧ ¬ gov.CancelsCurrent event gov') ↔ gov.Timely event) :=
    fun habout hlink htimely => iff_of_true ⟨hlink, not_cancels_of_not_about habout⟩ htimely
  cases event with
  | connected => exact other (not_about nofun nofun) (doSessionConnect_atMostOneLink hstep h) trivial
  | registered => exact other (not_about nofun nofun) (registered_atMostOneLink hstep h) trivial
  | socketClosed => exact other (not_about nofun nofun) (socketClosed_atMostOneLink hstep h) trivial
  | closeHandled key link => exact closeHandled_iff hstep h
  | heartbeatDone key nSessionId success => exact heartbeatDone_iff hstep h
  | reconnectExpired => exact other (not_about nofun nofun) (reconnectExpired_atMostOneLink hstep h) trivial
  | reconnectFired => exact other (not_about nofun nofun) (reconnectFired_atMostOneLink hstep h) trivial
  | heartbeatExpired => exact other (not_about nofun nofun) (heartbeatExpired_atMostOneLink hstep h) trivial
  | heartbeatFired => exact other (not_about nofun nofun) (heartbeatFired_atMostOneLink hstep h) trivial
  | heartbeatReq key nSessionId =>
    cases hstep
    exact other (not_about nofun nofun) ((atMostOneLink_modify h).mpr (h key)) trivial
  | accepted =>
    cases hstep
    exact other (not_about nofun nofun) h trivial

/-- In every state of the run each instance has at most one link, and no step of it cancels the heartbeat
timer of a current session for the sake of another one. -/
def SingleLink (events : List (Event K)) : Prop :=
  (∀ done, done <+: events → ∀ gov, run step initConnect done = some gov → gov.AtMostOneLink) ∧
    ∀ done event, done ++ [event] <+: events → ∀ gov gov', run step initConnect done = some gov →
      gov.step event = some gov' → ¬ gov.CancelsCurrent event gov'

omit [DecidableEq K] in
lemma atMostOneLink_initConnect : (initConnect : ServiceGovernment K).AtMostOneLink := fun _ => Nat.le_refl 1

theorem singleLink_iff_timely {events : List (Event K)} (h : run step initConnect events = some gov) :
    SingleLink events ↔ StepsMeet step (fun _ gov event => gov.Timely event) initConnect events := by
  constructor
  · rintro ⟨hlinks, hcancels⟩ done event hpre s hs
    obtain ⟨s', hs'⟩ := run_of_initial hpre h
    have hstep := hs'
    rw [run_concat, hs] at hstep
    have hdone := hlinks done ((List.prefix_append _ _).trans hpre) s hs
    exact (step_iff hstep hdone).mp ⟨hlinks _ hpre s' hs', hcancels done event hpre s s' hs hstep⟩
  · intro hC
    have hlinks : ∀ done, done <+: events → ∀ s, run step initConnect done = some s → s.AtMostOneLink :=
      fun done hpre s hs => (hC.of_initial hpre).invariant atMostOneLink_initConnect
        (fun hI hT hstep => ((step_iff hstep hI).mpr hT).1) hs
    refine ⟨hlinks, ?_⟩
    intro done event hpre s s' hs hstep
    have hdone := hlinks done ((List.prefix_append _ _).trans hpre) s hs
    exact ((step_iff hstep hdone).mpr (hC done event hpre s hs)).2

theorem singleLink_of_reconnect : SingleLink (K := Unit) [.connected () 0 true, .registered () 0,
    .heartbeatDone () 1 true, .socketClosed () 0, .closeHandled () 0, .reconnectExpired (), .reconnectFired (),
    .connected () 0 true] := by
  have hrun : ∃ gov : ServiceGovernment Unit, run step initConnect [.connected () 0 true, .registered () 0,
      .heartbeatDone () 1 true, .socketClosed () 0, .closeHandled () 0, .reconnectExpired (), .reconnectFired (),
      .connected () 0 true] = some gov := ⟨_, rfl⟩
  obtain ⟨gov, hrun⟩ := hrun
  refine (singleLink_iff_timely hrun).mpr ?_
  refine stepsMeet_cons trivial fun s₁ h₁ => ?_
  obtain rfl := Option.some.inj h₁
  refine stepsMeet_cons trivial fun s₂ h₂ => ?_
  obtain rfl := Option.some.inj h₂
  refine stepsMeet_cons ⟨nofun, fun h => h.2.1 rfl⟩ fun s₃ h₃ => ?_
  obtain rfl := Option.some.inj h₃
  refine stepsMeet_cons trivial fun s₄ h₄ => ?_
  obtain rfl := Option.some.inj h₄
  refine stepsMeet_cons ?_ fun s₅ h₅ => ?_
  · intro id hid
    obtain rfl : 1 = id := Link.closing.inj (Option.some.inj hid)
    exact ⟨⟨by decide, rfl⟩, fun h => h.2.1 rfl⟩
  · refine stepsMeet_cons trivial fun _ _ => stepsMeet_cons trivial fun _ _ => ?_
    exact stepsMeet_cons trivial fun _ _ => stepsMeet_nil

/-- The heartbeat that was sent on the first session times out after the second one is connected. -/
theorem late_timeout_gives_second_link : ¬ ∀ (events : List (Event Unit)) (gov : ServiceGovernment Unit),
    run step initConnect events = some gov → SingleLink events := by
  intro h
  have hrun : ∃ gov : ServiceGovernment Unit, run step initConnect [.connected () 0 true, .registered () 0,
      .socketClosed () 0, .closeHandled () 0, .reconnectExpired (), .reconnectFired (), .connected () 0 true,
      .registered () 0, .heartbeatDone () 2 true, .heartbeatDone () 1 false] = some gov ∧
        (gov.mapServerList ()).linkCount = 2 := ⟨_, rfl, rfl⟩
  obtain ⟨gov, hrun, htwo⟩ := hrun
  have hone := (h _ gov hrun).1 _ List.prefix_rfl gov hrun ()
  omega

end ServiceGovernment

end TonyCat.Service
