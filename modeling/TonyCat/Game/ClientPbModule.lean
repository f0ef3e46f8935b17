import TonyCat.Library.ByteOrder
import TonyCat.Library.KeyedList
import Mathlib.Data.List.Induction

set_option autoImplicit false

/-! `ClientPbModule` of the gate: which user is logged in on which client session. -/

namespace TonyCat.Game

open TonyCat.Library

structure GateUserInfo where
  userId : Bytes
  userSessionId : ℤ
  deriving DecidableEq

/-- `none` in a map is a null `GateUserInfoPtr`. -/
structure ClientPbModule where
  m_mapSessionUserInfo : List (ℤ × Option GateUserInfo)
  m_mapUserInfo : List (Bytes × Option GateUserInfo)
  deriving DecidableEq

/-- What `OnUserLogin` and `OnUserLogout` return, with the sessions `CloseInMainLoop` is called for. -/
structure UserResult where
  gate : ClientPbModule
  success : Bool
  closed : List ℤ
  deriving DecidableEq

namespace ClientPbModule

def init : ClientPbModule := ⟨[], []⟩

def getGateUserInfoByUserId (gate : ClientPbModule) (userId : Bytes) : Option GateUserInfo :=
  match gate.m_mapUserInfo.lookup userId with
  | some pUserInfo => pUserInfo
  | none => none

def getGateUserInfoBySessionId (gate : ClientPbModule) (clientSessionId : ℤ) : Option GateUserInfo :=
  match gate.m_mapSessionUserInfo.lookup clientSessionId with
  | some pUserInfo => pUserInfo
  | none => none

/-- `bKick` only adds a line to the log. -/
def onUserLogout (gate : ClientPbModule) (userId : Bytes) (_bKick : Bool) : UserResult :=
  match gate.m_mapUserInfo.lookup userId with
  | none => ⟨gate, false, []⟩
  | some none => ⟨gate, false, []⟩
  | some (some pUserInfo) =>
    ⟨⟨KeyedList.erase gate.m_mapSessionUserInfo pUserInfo.userSessionId, KeyedList.erase gate.m_mapUserInfo userId⟩,
      true, [pUserInfo.userSessionId]⟩

def onUserLogin (gate : ClientPbModule) (clientSessionId : ℤ) (userId : Bytes) : UserResult :=
  if (gate.m_mapSessionUserInfo.lookup clientSessionId).isSome then
    ⟨gate, false, []⟩
  else
    let kicked := if (gate.m_mapUserInfo.lookup userId).isSome then gate.onUserLogout userId true else ⟨gate, true, []⟩
    let pUserInfo : GateUserInfo := ⟨userId, clientSessionId⟩
    ⟨⟨KeyedList.emplace kicked.gate.m_mapSessionUserInfo clientSessionId (some pUserInfo),
        KeyedList.emplace kicked.gate.m_mapUserInfo userId (some pUserInfo)⟩, true, kicked.closed⟩

structure Inverse (gate : ClientPbModule) : Prop where
  ofSession : ∀ s p, gate.m_mapSessionUserInfo.lookup s = some p →
    ∃ u, p = some ⟨u, s⟩ ∧ gate.m_mapUserInfo.lookup u = some p
  ofUser : ∀ u p, gate.m_mapUserInfo.lookup u = some p →
    ∃ s, p = some ⟨u, s⟩ ∧ gate.m_mapSessionUserInfo.lookup s = some p

lemma inverse_init : init.Inverse := ⟨by simp [init], by simp [init]⟩

variable {gate : ClientPbModule}

lemma Inverse.iff (h : gate.Inverse) (s : ℤ) (u : Bytes) :
    gate.m_mapSessionUserInfo.lookup s = some (some ⟨u, s⟩) ↔ gate.m_mapUserInfo.lookup u = some (some ⟨u, s⟩) := by
  constructor
  · intro hs
    obtain ⟨u', hp, hu⟩ := h.ofSession s _ hs
    cases hp
    exact hu
  · intro hu
    obtain ⟨s', hp, hs⟩ := h.ofUser u _ hu
    cases hp
    exact hs

lemma Inverse.onUserLogout (h : gate.Inverse) (userId : Bytes) (bKick : Bool) :
    (gate.m_mapUserInfo.lookup userId = none ∧ gate.onUserLogout userId bKick = ⟨gate, false, []⟩) ∨
      ∃ s, gate.m_mapUserInfo.lookup userId = some (some ⟨userId, s⟩) ∧
        gate.onUserLogout userId bKick =
          ⟨⟨KeyedList.erase gate.m_mapSessionUserInfo s, KeyedList.erase gate.m_mapUserInfo userId⟩, true, [s]⟩ := by
  cases hu : gate.m_mapUserInfo.lookup userId with
  | none =>
    left
    simp [ClientPbModule.onUserLogout, hu]
  | some p =>
    right
    obtain ⟨s, rfl, -⟩ := h.ofUser userId p hu
    refine ⟨s, rfl, ?_⟩
    simp [ClientPbModule.onUserLogout, hu]

lemma Inverse.erase (h : gate.Inverse) {u : Bytes} {s : ℤ} (hu : gate.m_mapUserInfo.lookup u = some (some ⟨u, s⟩)) :
    Inverse ⟨KeyedList.erase gate.m_mapSessionUserInfo s, KeyedList.erase gate.m_mapUserInfo u⟩ where
  ofSession := by
    intro s' p hp
    rw [KeyedList.lookup_erase] at hp
    split_ifs at hp with hs
    obtain ⟨u', rfl, hu'⟩ := h.ofSession s' p hp
    refine ⟨u', rfl, ?_⟩
    rw [KeyedList.lookup_erase, if_neg, hu']
    rintro rfl
    cases hu.symm.trans hu'
    exact hs rfl
  ofUser := by
    intro u' p hp
    rw [KeyedList.lookup_erase] at hp
    split_ifs at hp with hne
    obtain ⟨s', rfl, hs'⟩ := h.ofUser u' p hp
    refine ⟨s', rfl, ?_⟩
    rw [KeyedList.lookup_erase, if_neg, hs']
    rintro rfl
    cases ((h.iff s' u).mpr hu).symm.trans hs'
    exact hne rfl

lemma Inverse.emplace (h : gate.Inverse) {u : Bytes} {s : ℤ} (hs : gate.m_mapSessionUserInfo.lookup s = none)
    (hu : gate.m_mapUserInfo.lookup u = none) :
    Inverse ⟨KeyedList.emplace gate.m_mapSessionUserInfo s (some ⟨u, s⟩),
      KeyedList.emplace gate.m_mapUserInfo u (some ⟨u, s⟩)⟩ where
  ofSession := by
    intro s' p hp
    rw [KeyedList.lookup_emplace_of_none hs] at hp
    split_ifs at hp with heq
    · cases hp
      refine ⟨u, by rw [heq], ?_⟩
      rw [KeyedList.lookup_emplace_of_none hu, if_pos rfl]
    · obtain ⟨u', rfl, hu'⟩ := h.ofSession s' p hp
      refine ⟨u', rfl, ?_⟩
      rw [KeyedList.lookup_emplace_of_none hu, if_neg, hu']
      rintro rfl
      cases hu.symm.trans hu'
  ofUser := by
    intro u' p hp
    rw [KeyedList.lookup_emplace_of_none hu] at hp
    split_ifs at hp with heq
    · cases hp
      refine ⟨s, by rw [heq], ?_⟩
      rw [KeyedList.lookup_emplace_of_none hs, if_pos rfl]
    · obtain ⟨s', rfl, hs'⟩ := h.ofUser u' p hp
      refine ⟨s', rfl, ?_⟩
      rw [KeyedList.lookup_emplace_of_none hs, if_neg, hs']
      rintro rfl
      cases hs.symm.trans hs'

lemma onUserLogin_of_mem {s : ℤ} (hs : gate.m_mapSessionUserInfo.lookup s ≠ none) (u : Bytes) :
    gate.onUserLogin s u = ⟨gate, false, []⟩ :=
  if_pos (Option.isSome_iff_ne_none.mpr hs)

lemma lookup_onUserLogin {s : ℤ} (hs : gate.m_mapSessionUserInfo.lookup s = none) (u : Bytes) :
    (gate.onUserLogin s u).gate.m_mapSessionUserInfo.lookup s ≠ none ∧
      ∀ s', s' ≠ s → (gate.onUserLogin s u).gate.m_mapSessionUserInfo.lookup s' ≠ none →
        gate.m_mapSessionUserInfo.lookup s' ≠ none := by
  have hkicked : ∀ s', (if (gate.m_mapUserInfo.lookup u).isSome then gate.onUserLogout u true
      else ⟨gate, true, []⟩ : UserResult).gate.m_mapSessionUserInfo.lookup s' ≠ none →
        gate.m_mapSessionUserInfo.lookup s' ≠ none := by
    intro s'
    split_ifs
    · rw [onUserLogout]
      split
      · exact id
      · exact id
      · rw [KeyedList.lookup_erase]
        split_ifs
        · simp
        · exact id
    · exact id
  have hfree := not_not.mp (mt (hkicked s) (not_not.mpr hs))
  simp only [onUserLogin, hs, Option.isSome_none, Bool.false_eq_true, if_false]
  rw [KeyedList.lookup_emplace_of_none hfree, if_pos rfl]
  refine ⟨nofun, fun s' hne hs' => hkicked s' ?_⟩
  rwa [KeyedList.lookup_emplace_of_none hfree, if_neg hne] at hs'

lemma Inverse.onUserLogin (h : gate.Inverse) (s : ℤ) (u : Bytes) :
    (gate.m_mapSessionUserInfo.lookup s ≠ none ∧ gate.onUserLogin s u = ⟨gate, false, []⟩) ∨
      (gate.m_mapSessionUserInfo.lookup s = none ∧ ∃ kicked : ClientPbModule, kicked.Inverse ∧
        kicked.m_mapSessionUserInfo.lookup s = none ∧ kicked.m_mapUserInfo.lookup u = none ∧
        ((gate.m_mapUserInfo.lookup u = none ∧ kicked = gate ∧ (gate.onUserLogin s u).closed = []) ∨
          ∃ old, gate.m_mapUserInfo.lookup u = some (some ⟨u, old⟩) ∧
            kicked = ⟨KeyedList.erase gate.m_mapSessionUserInfo old, KeyedList.erase gate.m_mapUserInfo u⟩ ∧
            (gate.onUserLogin s u).closed = [old]) ∧
        (gate.onUserLogin s u).success = true ∧
        (gate.onUserLogin s u).gate = ⟨KeyedList.emplace kicked.m_mapSessionUserInfo s (some ⟨u, s⟩),
          KeyedList.emplace kicked.m_mapUserInfo u (some ⟨u, s⟩)⟩) := by
  by_cases hs : gate.m_mapSessionUserInfo.lookup s = none
  · right
    refine ⟨hs, ?_⟩
    obtain ⟨hu, -⟩ | ⟨old, hu, hout⟩ := h.onUserLogout u true
    · refine ⟨gate, h, hs, hu, Or.inl ⟨hu, rfl, ?_⟩, ?_, ?_⟩ <;> simp [ClientPbModule.onUserLogin, hs, hu]
    · refine ⟨_, h.erase hu, ?_, ?_, Or.inr ⟨old, hu, rfl, ?_⟩, ?_, ?_⟩
      · simp [hs]
      · simp
      all_goals simp [ClientPbModule.onUserLogin, hs, hu, hout]
  · exact Or.inl ⟨hs, onUserLogin_of_mem hs u⟩

lemma Inverse.gate_onUserLogin (h : gate.Inverse) (s : ℤ) (u : Bytes) : (gate.onUserLogin s u).gate.Inverse := by
  obtain ⟨-, hrefused⟩ | ⟨-, kicked, hkicked, hs, hu, -, -, hgate⟩ := h.onUserLogin s u
  · rwa [hrefused]
  · rw [hgate]
    exact hkicked.emplace hs hu

lemma Inverse.gate_onUserLogout (h : gate.Inverse) (u : Bytes) (bKick : Bool) :
    (gate.onUserLogout u bKick).gate.Inverse := by
  obtain ⟨-, hnone⟩ | ⟨s, hu, hout⟩ := h.onUserLogout u bKick
  · rwa [hnone]
  · rw [hout]
    exact h.erase hu

inductive UserEvent
  | login (clientSessionId : ℤ) (userId : Bytes)
  | logout (userId : Bytes) (bKick : Bool)

def handle (gate : ClientPbModule) : UserEvent → ClientPbModule
  | .login clientSessionId userId => (gate.onUserLogin clientSessionId userId).gate
  | .logout userId bKick => (gate.onUserLogout userId bKick).gate

lemma inverse_of_run (events : List UserEvent) : (events.foldl handle init).Inverse := by
  induction events using List.reverseRecOn with
  | nil => exact inverse_init
  | append_singleton events e ih =>
    rw [List.foldl_append]
    cases e with
    | login s u => exact ih.gate_onUserLogin s u
    | logout u bKick => exact ih.gate_onUserLogout u bKick

theorem maps_inverse (events : List UserEvent) :
    let gate := events.foldl handle init
    (∀ s u, gate.m_mapSessionUserInfo.lookup s = some (some ⟨u, s⟩) ↔
        gate.m_mapUserInfo.lookup u = some (some ⟨u, s⟩)) ∧
      (∀ s p, gate.m_mapSessionUserInfo.lookup s = some p → ∃ u, p = some ⟨u, s⟩) ∧
      (∀ u p, gate.m_mapUserInfo.lookup u = some p → ∃ s, p = some ⟨u, s⟩) ∧
      ∀ s u, (gate.onUserLogin s u).success = false → (gate.onUserLogin s u).gate = gate := by
  intro gate
  have h : gate.Inverse := inverse_of_run events
  refine ⟨h.iff, fun s p hs => ?_, fun u p hu => ?_, fun s u hfalse => ?_⟩
  · obtain ⟨u, hp, -⟩ := h.ofSession s p hs
    exact ⟨u, hp⟩
  · obtain ⟨s, hp, -⟩ := h.ofUser u p hu
    exact ⟨s, hp⟩
  · obtain ⟨-, hrefused⟩ | ⟨-, kicked, -, -, -, -, htrue, -⟩ := h.onUserLogin s u
    · rw [hrefused]
    · rw [htrue] at hfalse
      cases hfalse

end ClientPbModule

end TonyCat.Game
