import Mathlib.Data.Nat.Find
import TonyCat.Net.NetHttpModule

set_option autoImplicit false

/-! The handler that `net_http_module.cpp` selects for a request. -/

namespace TonyCat.Net

open TonyCat.Library TonyCat.Http

variable {F : Type*}

def slash : UInt8 := 47

inductive HttpAction (F : Type*)
  | funcCb (func : F) (sessionId : ℤ) (req : Request)
  | writeData (sessionId : ℤ) (respond : Reply)
  | closeInMainLoop (sessionId : ℤ)

structure HttpHandles (F : Type*) where
  m_mapPackethandle : Bytes → Option F := fun _ => none
  m_funDefaultPacketHandle : Option F := none

namespace HttpHandles

def registerPacketHandle (handles : HttpHandles F) (strHttpPath : Bytes) : Option F → HttpHandles F
  | none => handles
  | some func =>
    { handles with m_mapPackethandle := Function.update handles.m_mapPackethandle strHttpPath (some func) }

def setDefaultPacketHandle (handles : HttpHandles F) (func : Option F) : HttpHandles F :=
  { handles with m_funDefaultPacketHandle := func }

def rfind (path : Bytes) : ℕ → Option ℕ
  | 0 => if path[0]? = some slash then some 0 else none
  | pos + 1 => if path[pos + 1]? = some slash then some (pos + 1) else rfind path pos

lemma rfind_le {path : Bytes} {pos i : ℕ} (h : rfind path pos = some i) : i ≤ pos := by
  induction pos with
  | zero =>
    rw [rfind] at h
    split at h <;> cases h
    exact le_refl 0
  | succ pos ih =>
    rw [rfind] at h
    split at h
    case isTrue =>
      cases h
      exact le_refl _
    case isFalse => exact Nat.le_succ_of_le (ih h)

/-- The loop that looks for a prefix, from `nPos` down. Where no slash is found `npos` becomes `-1`. -/
def prefixLoop (handles : HttpHandles F) (path : Bytes) (nPos : ℕ) : Option F :=
  match _h : rfind path nPos with
  | none => handles.m_mapPackethandle (path.take 0)
  | some i =>
    match handles.m_mapPackethandle (path.take (i + 1)) with
    | some func => some func
    -- the test is on the position already decremented
    | none => if 0 < i - 1 then handles.prefixLoop path (i - 1) else none
termination_by nPos
decreasing_by
  have hle := rfind_le _h
  omega

def readHttpPacket (handles : HttpHandles F) (sessionId : ℤ) (req : Request) : List (HttpAction F) × Bool :=
  match handles.m_mapPackethandle req.path with
  | some func => ([.funcCb func sessionId req], true)
  | none =>
    match handles.prefixLoop req.path req.path.length with
    | some func => ([.funcCb func sessionId req], true)
    | none =>
      match handles.m_funDefaultPacketHandle with
      | some func => ([.funcCb func sessionId req], true)
      | none => ([.writeData sessionId ⟨.notFound, [], []⟩, .closeInMainLoop sessionId], false)

def SlashPrefix (path route : Bytes) : Prop := route <+: path ∧ route.getLast? = some slash

/-- The answer to a request: a registered path is preferred to its prefixes, these by length, and the default
handler comes last. -/
inductive Routed (handles : HttpHandles F) (sessionId : ℤ) (req : Request) : List (HttpAction F) × Bool → Prop
  | registered {func : F} (h : handles.m_mapPackethandle req.path = some func) :
    Routed handles sessionId req ([.funcCb func sessionId req], true)
  | byPrefix {func : F} {route : Bytes} (hpath : handles.m_mapPackethandle req.path = none)
    (hslash : SlashPrefix req.path route) (h : handles.m_mapPackethandle route = some func)
    (hlongest : ∀ route', SlashPrefix req.path route' → handles.m_mapPackethandle route' ≠ none →
      route'.length ≤ route.length) :
    Routed handles sessionId req ([.funcCb func sessionId req], true)
  | byDefault {func : F} (hpath : handles.m_mapPackethandle req.path = none)
    (hroutes : ∀ route, SlashPrefix req.path route → handles.m_mapPackethandle route = none)
    (h : handles.m_funDefaultPacketHandle = some func) :
    Routed handles sessionId req ([.funcCb func sessionId req], true)
  | notFound (hpath : handles.m_mapPackethandle req.path = none)
    (hroutes : ∀ route, SlashPrefix req.path route → handles.m_mapPackethandle route = none)
    (h : handles.m_funDefaultPacketHandle = none) :
    Routed handles sessionId req ([.writeData sessionId ⟨.notFound, [], []⟩, .closeInMainLoop sessionId], false)

structure MissedRoot (handles : HttpHandles F) (path : Bytes) : Prop where
  path_none : handles.m_mapPackethandle path = none
  slashes : path[0]? = some slash ∧ path[1]? = some slash
  root : ∃ func, handles.m_mapPackethandle [slash] = some func ∧ handles.m_funDefaultPacketHandle ≠ some func
  only : ∀ route, SlashPrefix path route → handles.m_mapPackethandle route ≠ none → route = [slash]

structure EmptyRoute (handles : HttpHandles F) (path : Bytes) : Prop where
  path_none : handles.m_mapPackethandle path = none
  slashes : path[0]? ≠ some slash ∧ path[1]? ≠ some slash
  empty : ∃ func, handles.m_mapPackethandle [] = some func ∧ handles.m_funDefaultPacketHandle ≠ some func
  none : ∀ route, SlashPrefix path route → handles.m_mapPackethandle route = none

section SlashPrefix

variable {path route : Bytes}

lemma slashPrefix_iff : SlashPrefix path route ↔ ∃ i, path[i]? = some slash ∧ route = path.take (i + 1) := by
  constructor
  · rintro ⟨⟨rest, rfl⟩, hlast⟩
    have hpos : 0 < route.length := by
      apply List.length_pos_of_ne_nil
      rintro rfl
      cases hlast
    rw [List.getLast?_eq_getElem?] at hlast
    refine ⟨route.length - 1, ?_, ?_⟩
    · rw [List.getElem?_append_left (by omega), hlast]
    · rw [Nat.sub_add_cancel hpos, List.take_left]
  · rintro ⟨i, hi, rfl⟩
    refine ⟨List.take_prefix _ _, ?_⟩
    rw [List.take_add_one, hi]
    simp

lemma SlashPrefix.length_pos (h : SlashPrefix path route) : 0 < route.length := by
  apply List.length_pos_of_ne_nil
  rintro rfl
  cases h.2

lemma SlashPrefix.eq_of_length {route' : Bytes} (h : SlashPrefix path route) (h' : SlashPrefix path route')
    (hlen : route.length = route'.length) : route = route' :=
  (List.prefix_of_prefix_length_le h.1 h'.1 (le_of_eq hlen)).eq_of_length hlen

lemma SlashPrefix.getElem? (h : SlashPrefix path route) : path[route.length - 1]? = some slash := by
  obtain ⟨i, hi, rfl⟩ := slashPrefix_iff.mp h
  obtain ⟨hlt, -⟩ := List.getElem?_eq_some_iff.mp hi
  rwa [List.length_take, min_eq_left hlt, Nat.add_sub_cancel]

end SlashPrefix

section Loop

variable {path : Bytes} {nPos : ℕ}

lemma rfind_none (h : rfind path nPos = none) : ∀ i ≤ nPos, path[i]? ≠ some slash := by
  induction nPos with
  | zero =>
    intro i hi heq
    rw [rfind, ← Nat.le_zero.mp hi, if_pos heq] at h
    cases h
  | succ nPos ih =>
    rw [rfind] at h
    split at h
    case isTrue => cases h
    case isFalse hne =>
      intro i hi
      obtain hlt | rfl := Nat.lt_or_eq_of_le hi
      · exact ih h i (Nat.le_of_lt_succ hlt)
      · exact hne

lemma rfind_some {i : ℕ} (h : rfind path nPos = some i) :
    path[i]? = some slash ∧ ∀ j, i < j → j ≤ nPos → path[j]? ≠ some slash := by
  induction nPos with
  | zero =>
    rw [rfind] at h
    split at h
    case isFalse => cases h
    case isTrue heq =>
      cases h
      exact ⟨heq, fun j hlt hle => absurd hlt (by omega)⟩
  | succ nPos ih =>
    rw [rfind] at h
    split at h
    case isTrue heq =>
      cases h
      exact ⟨heq, fun j hlt hle => absurd hlt (by omega)⟩
    case isFalse hne =>
      obtain ⟨heq, hrest⟩ := ih h
      refine ⟨heq, fun j hlt hle => ?_⟩
      obtain hj | rfl := Nat.lt_or_eq_of_le hle
      · exact hrest j hlt (Nat.le_of_lt_succ hj)
      · exact hne

structure Missed (handles : HttpHandles F) (path : Bytes) (nPos : ℕ) (found : Option F) : Prop where
  routes : ∀ route, SlashPrefix path route → route.length ≤ nPos + 1 → handles.m_mapPackethandle route ≠ none →
    route = [slash] ∧ path[1]? = some slash
  found_eq : found =
    if path[0]? = some slash ∨ path[1]? = some slash then none else handles.m_mapPackethandle []

structure Longest (handles : HttpHandles F) (path : Bytes) (nPos : ℕ) (found : Option F) (route : Bytes) : Prop where
  slashPrefix : SlashPrefix path route
  registered : handles.m_mapPackethandle route ≠ none
  found_eq : found = handles.m_mapPackethandle route
  longest : ∀ route', SlashPrefix path route' → route'.length ≤ nPos + 1 →
    handles.m_mapPackethandle route' ≠ none → route'.length ≤ route.length
  root : route = [slash] → path[1]? ≠ some slash

lemma SlashPrefix.length_le {route : Bytes} (h : SlashPrefix path route) (hlen : route.length ≤ nPos + 1) {i : ℕ}
    (hi : rfind path nPos = some i) : route.length ≤ i + 1 := by
  by_contra hlt
  exact (rfind_some hi).2 (route.length - 1) (by omega) (by omega) h.getElem?

lemma prefixLoop_spec (handles : HttpHandles F) (h : 1 ≤ nPos ∨ path = []) :
    (∃ route, Longest handles path nPos (handles.prefixLoop path nPos) route) ∨
      Missed handles path nPos (handles.prefixLoop path nPos) := by
  induction nPos using Nat.strongRecOn with
  | ind nPos ih =>
    rw [prefixLoop]
    split
    case h_1 hnone =>
      have hslash := rfind_none hnone
      refine .inr ⟨fun route hroute hlen _ => ?_, ?_⟩
      · exact absurd hroute.getElem? (hslash _ (by omega))
      · rw [if_neg, List.take_zero]
        rintro (hfirst | hsecond)
        · exact hslash 0 (Nat.zero_le _) hfirst
        · obtain hpos | rfl := h
          · exact hslash 1 hpos hsecond
          · cases hsecond
    case h_2 i hi =>
      obtain ⟨hat, -⟩ := rfind_some hi
      have hroute : SlashPrefix path (path.take (i + 1)) := slashPrefix_iff.mpr ⟨i, hat, rfl⟩
      have hlen : (path.take (i + 1)).length = i + 1 := by
        obtain ⟨hlt, -⟩ := List.getElem?_eq_some_iff.mp hat
        rw [List.length_take, min_eq_left hlt]
      split
      case h_1 func hfunc =>
        refine .inl ⟨path.take (i + 1), hroute, ?_, hfunc.symm, fun route' hroute' hle _ => ?_, fun hroot => ?_⟩
        · rw [hfunc]
          exact nofun
        · rw [hlen]
          exact hroute'.length_le hle hi
        · rw [hroot, List.length_singleton] at hlen
          obtain hpos | rfl := h
          · exact (rfind_some hi).2 1 (by omega) hpos
          · exact nofun
      case h_2 hmiss =>
        -- the prefix up to `i` is not registered, so a registered one is shorter
        have hshorter : ∀ route, SlashPrefix path route → route.length ≤ nPos + 1 →
            handles.m_mapPackethandle route ≠ none → route.length ≤ i := by
          intro route hslash hle hreg
          by_contra hlt
          have hle' := hslash.length_le hle hi
          have heq := hslash.eq_of_length hroute (by rw [hlen]; omega)
          exact hreg (heq ▸ hmiss)
        split
        case isTrue hgo =>
          have hi' := rfind_le hi
          obtain ⟨route, hlong⟩ | hmissed := ih (i - 1) (by omega) (.inl hgo)
          · refine .inl ⟨route, hlong.slashPrefix, hlong.registered, hlong.found_eq,
              fun route' hslash hle hreg => ?_, hlong.root⟩
            have hi' := hshorter route' hslash hle hreg
            exact hlong.longest route' hslash (by omega) hreg
          · refine .inr ⟨fun route hslash hle hreg => ?_, hmissed.found_eq⟩
            have hi' := hshorter route hslash hle hreg
            exact hmissed.routes route hslash (by omega) hreg
        case isFalse hstop =>
          have hi1 : i = 0 ∨ i = 1 := by omega
          refine .inr ⟨fun route hslash hle hreg => ?_, ?_⟩
          · have hpos := hslash.length_pos
            have hi' := hshorter route hslash hle hreg
            obtain rfl : i = 1 := by omega
            have hone : route.length = 1 := by omega
            obtain ⟨c, rfl⟩ := List.length_eq_one_iff.mp hone
            obtain ⟨-, hlast⟩ := hslash
            cases hlast
            exact ⟨rfl, hat⟩
          · rw [if_pos]
            obtain rfl | rfl := hi1
            · exact .inl hat
            · exact .inr hat

end Loop

section Answer

variable {handles : HttpHandles F} {sessionId : ℤ} {req : Request}

def answer (sessionId : ℤ) (req : Request) : Option F → List (HttpAction F) × Bool
  | some func => ([.funcCb func sessionId req], true)
  | none => ([.writeData sessionId ⟨.notFound, [], []⟩, .closeInMainLoop sessionId], false)

lemma answer_injective : Function.Injective (answer (F := F) sessionId req) := by
  intro found found' h
  cases found <;> cases found' <;> cases h <;> rfl

lemma readHttpPacket_of_registered {func : F} (h : handles.m_mapPackethandle req.path = some func) :
    handles.readHttpPacket sessionId req = answer sessionId req (some func) := by
  rw [readHttpPacket, h, answer]

lemma readHttpPacket_of_none (h : handles.m_mapPackethandle req.path = none) :
    handles.readHttpPacket sessionId req = answer sessionId req
      ((handles.prefixLoop req.path req.path.length).or handles.m_funDefaultPacketHandle) := by
  rw [readHttpPacket, h]
  cases handles.prefixLoop req.path req.path.length with
  | some func => rfl
  | none => cases handles.m_funDefaultPacketHandle <;> rfl

lemma Routed.unique {ans ans' : List (HttpAction F) × Bool} (h : Routed handles sessionId req ans)
    (h' : Routed handles sessionId req ans') : ans = ans' := by
  cases h with
  | registered hfunc =>
    cases h' with
    | registered hfunc' =>
      rw [hfunc] at hfunc'
      cases hfunc'
      rfl
    | byPrefix hpath => simp [hfunc] at hpath
    | byDefault hpath => simp [hfunc] at hpath
    | notFound hpath => simp [hfunc] at hpath
  | byPrefix hpath hslash hfunc hlongest =>
    cases h' with
    | registered hfunc' => simp [hfunc'] at hpath
    | byPrefix _ hslash' hfunc' hlongest' =>
      have hlen := hlongest _ hslash' (by simp [hfunc'])
      have hlen' := hlongest' _ hslash (by simp [hfunc])
      rw [hslash.eq_of_length hslash' (by omega), hfunc'] at hfunc
      cases hfunc
      rfl
    | byDefault _ hroutes => simp [hroutes _ hslash] at hfunc
    | notFound _ hroutes => simp [hroutes _ hslash] at hfunc
  | byDefault hpath hroutes hdefault =>
    cases h' with
    | registered hfunc' => simp [hfunc'] at hpath
    | byPrefix _ hslash' hfunc' => simp [hroutes _ hslash'] at hfunc'
    | byDefault _ _ hdefault' =>
      rw [hdefault] at hdefault'
      cases hdefault'
      rfl
    | notFound _ _ hdefault' => simp [hdefault] at hdefault'
  | notFound hpath hroutes hdefault =>
    cases h' with
    | registered hfunc' => simp [hfunc'] at hpath
    | byPrefix _ hslash' hfunc' => simp [hroutes _ hslash'] at hfunc'
    | byDefault _ _ hdefault' => simp [hdefault] at hdefault'
    | notFound => rfl

lemma Routed.of_default (hpath : handles.m_mapPackethandle req.path = none)
    (hroutes : ∀ route, SlashPrefix req.path route → handles.m_mapPackethandle route = none) :
    Routed handles sessionId req (answer sessionId req handles.m_funDefaultPacketHandle) := by
  cases hdefault : handles.m_funDefaultPacketHandle with
  | some func => exact .byDefault hpath hroutes hdefault
  | none => exact .notFound hpath hroutes hdefault

lemma exists_longest {path route : Bytes} (hslash : SlashPrefix path route)
    (hreg : handles.m_mapPackethandle route ≠ none) :
    ∃ longest func, SlashPrefix path longest ∧ handles.m_mapPackethandle longest = some func ∧
      ∀ route', SlashPrefix path route' → handles.m_mapPackethandle route' ≠ none →
        route'.length ≤ longest.length := by
  classical
  let P n := ∃ route, SlashPrefix path route ∧ handles.m_mapPackethandle route ≠ none ∧ route.length = n
  have hbound : ∀ {route}, SlashPrefix path route → route.length ≤ path.length := fun h => h.1.length_le
  obtain ⟨longest, hlongest, hreg', hlen⟩ : P (Nat.findGreatest P path.length) :=
    Nat.findGreatest_spec (hbound hslash) ⟨route, hslash, hreg, rfl⟩
  obtain ⟨func, hfunc⟩ := Option.ne_none_iff_exists'.mp hreg'
  refine ⟨longest, func, hlongest, hfunc, fun route' hslash' hreg'' => ?_⟩
  rw [hlen]
  exact Nat.le_findGreatest (hbound hslash') ⟨route', hslash', hreg'', rfl⟩

lemma exists_routed (handles : HttpHandles F) (sessionId : ℤ) (req : Request) :
    ∃ ans, Routed handles sessionId req ans := by
  cases hpath : handles.m_mapPackethandle req.path with
  | some func => exact ⟨_, .registered hpath⟩
  | none =>
    by_cases hroutes : ∀ route, SlashPrefix req.path route → handles.m_mapPackethandle route = none
    · exact ⟨_, .of_default hpath hroutes⟩
    · push Not at hroutes
      obtain ⟨route, hslash, hreg⟩ := hroutes
      obtain ⟨longest, func, hlongest, hfunc, hmax⟩ := exists_longest hslash hreg
      exact ⟨_, .byPrefix hpath hlongest hfunc hmax⟩

lemma MissedRoot.not_routed (h : MissedRoot handles req.path) :
    ¬ Routed handles sessionId req (handles.readHttpPacket sessionId req) := by
  intro hrouted
  obtain ⟨func, hfunc, hdefault⟩ := h.root
  have hroot : SlashPrefix req.path [slash] := slashPrefix_iff.mpr ⟨0, h.slashes.1, by
    rw [List.take_add_one, h.slashes.1]
    rfl⟩
  have hspec : Routed handles sessionId req (answer sessionId req (some func)) :=
    .byPrefix h.path_none hroot hfunc fun route' hslash hreg => by rw [h.only route' hslash hreg]
  have hfound : handles.prefixLoop req.path req.path.length = none := by
    have hpos : 1 ≤ req.path.length := hroot.1.length_le
    obtain ⟨route, hlong⟩ | hmissed := prefixLoop_spec handles (.inl hpos)
    · exact absurd h.slashes.2 (hlong.root (h.only route hlong.slashPrefix hlong.registered))
    · rw [hmissed.found_eq, if_pos (.inl h.slashes.1)]
  rw [readHttpPacket_of_none h.path_none, hfound, Option.none_or] at hrouted
  exact hdefault (answer_injective (hrouted.unique hspec))

lemma length_pos_or_nil (path : Bytes) : 1 ≤ path.length ∨ path = [] := by
  obtain hnil | hne := eq_or_ne path []
  · exact .inr hnil
  · exact .inl (List.length_pos_of_ne_nil hne)

lemma EmptyRoute.not_routed (h : EmptyRoute handles req.path) :
    ¬ Routed handles sessionId req (handles.readHttpPacket sessionId req) := by
  intro hrouted
  obtain ⟨func, hfunc, hdefault⟩ := h.empty
  have hfound : handles.prefixLoop req.path req.path.length = some func := by
    obtain ⟨route, hlong⟩ | hmissed := prefixLoop_spec handles (length_pos_or_nil req.path)
    · exact absurd (h.none route hlong.slashPrefix) hlong.registered
    · rw [hmissed.found_eq, if_neg (not_or.mpr h.slashes), hfunc]
  rw [readHttpPacket_of_none h.path_none, hfound, Option.some_or] at hrouted
  exact hdefault (answer_injective (hrouted.unique (.of_default h.path_none h.none))).symm

lemma routed_readHttpPacket (hroot : ¬ MissedRoot handles req.path) (hempty : ¬ EmptyRoute handles req.path) :
    Routed handles sessionId req (handles.readHttpPacket sessionId req) := by
  cases hpath : handles.m_mapPackethandle req.path with
  | some func =>
    rw [readHttpPacket_of_registered hpath]
    exact .registered hpath
  | none =>
    rw [readHttpPacket_of_none hpath]
    obtain ⟨route, hlong⟩ | hmissed := prefixLoop_spec handles (length_pos_or_nil req.path)
    · obtain ⟨func, hfunc⟩ := Option.ne_none_iff_exists'.mp hlong.registered
      rw [hlong.found_eq, hfunc, Option.some_or]
      refine .byPrefix hpath hlong.slashPrefix hfunc fun route' hslash hreg => ?_
      exact hlong.longest route' hslash (Nat.le_succ_of_le hslash.1.length_le) hreg
    · have honly : ∀ route, SlashPrefix req.path route → handles.m_mapPackethandle route ≠ none →
          route = [slash] ∧ req.path[1]? = some slash := fun route hslash hreg =>
        hmissed.routes route hslash (Nat.le_succ_of_le hslash.1.length_le) hreg
      rw [hmissed.found_eq]
      split
      case isTrue hslashes =>
        rw [Option.none_or]
        by_cases hroutes : ∀ route, SlashPrefix req.path route → handles.m_mapPackethandle route = none
        · exact .of_default hpath hroutes
        · push Not at hroutes
          obtain ⟨route, hslash, hreg⟩ := hroutes
          obtain ⟨rfl, hsecond⟩ := honly route hslash hreg
          obtain ⟨func, hfunc⟩ := Option.ne_none_iff_exists'.mp hreg
          -- the root is missed, unless the default handler is the same
          have hdefault : handles.m_funDefaultPacketHandle = some func := by
            by_contra hne
            exact hroot ⟨hpath, ⟨hslash.getElem?, hsecond⟩, ⟨func, hfunc, hne⟩,
              fun route hslash hreg => (honly route hslash hreg).1⟩
          rw [hdefault]
          refine .byPrefix hpath hslash hfunc fun route' hslash' hreg' => ?_
          rw [(honly route' hslash' hreg').1]
      case isFalse hslashes =>
        obtain ⟨hfirst, hsecond⟩ := not_or.mp hslashes
        have hroutes : ∀ route, SlashPrefix req.path route → handles.m_mapPackethandle route = none := by
          intro route hslash
          by_contra hreg
          exact hsecond (honly route hslash hreg).2
        cases hnil : handles.m_mapPackethandle [] with
        | none =>
          rw [Option.none_or]
          exact .of_default hpath hroutes
        | some func =>
          have hdefault : handles.m_funDefaultPacketHandle = some func := by
            by_contra hne
            exact hempty ⟨hpath, ⟨hfirst, hsecond⟩, ⟨func, hnil, hne⟩, hroutes⟩
          rw [Option.some_or, ← hdefault]
          exact .of_default hpath hroutes

end Answer

theorem readHttpPacket_routed_iff (handles : HttpHandles F) (sessionId : ℤ) (req : Request) :
    (∃! ans, Routed handles sessionId req ans) ∧
      (Routed handles sessionId req (handles.readHttpPacket sessionId req) ↔
        ¬ MissedRoot handles req.path ∧ ¬ EmptyRoute handles req.path) := by
  constructor
  · obtain ⟨ans, hans⟩ := exists_routed handles sessionId req
    exact ⟨ans, hans, fun ans' hans' => hans'.unique hans⟩
  · constructor
    · intro hrouted
      exact ⟨fun hroot => hroot.not_routed hrouted, fun hempty => hempty.not_routed hrouted⟩
    · rintro ⟨hroot, hempty⟩
      exact routed_readHttpPacket hroot hempty

theorem double_slash_not_routed : ¬ ∀ (handles : HttpHandles Unit) (sessionId : ℤ) (req : Request),
    Routed handles sessionId req (handles.readHttpPacket sessionId req) := by
  intro h
  have hreg : ∀ route, (registerPacketHandle {} [slash] (some ())).m_mapPackethandle route =
      if route = [slash] then some () else none := fun route => Function.update_apply ..
  refine MissedRoot.not_routed ⟨?_, ⟨rfl, rfl⟩, ⟨(), ?_, (Option.some_ne_none ()).symm⟩, fun route _ hroute => ?_⟩
    (h (registerPacketHandle {} [slash] (some ())) 1 { path := [slash, slash, 97] })
  · rw [hreg, if_neg nofun]
  · rw [hreg, if_pos rfl]
  · rw [hreg] at hroute
    by_contra hne
    exact hroute (if_neg hne)

end HttpHandles

end TonyCat.Net
