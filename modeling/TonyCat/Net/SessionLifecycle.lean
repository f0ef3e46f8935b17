import TonyCat.Net.NetModule
import Mathlib.Data.List.Count

set_option autoImplicit false

/-! The life of a session: into both maps once, its callbacks in order and at most once, and out of both maps
for good once its close has been processed. -/

namespace TonyCat.Net

open TonyCat.Library

def ClosedOnBothLoops (v : SessionView) : Prop := .removed ∈ v.log ∧ .erase ∉ v.queue

structure Gone (v : SessionView) : Prop where
  net : v.state.t_mapSessionInNetLoop = false
  main : v.state.m_mapSession = false

/-- A session is in the maps once, or the task that will enter it is still queued. -/
structure Lifecycle (v : SessionView) : Prop where
  netOnce : v.log.count .netEmplace + v.queue.count .register = 1
  mainOnce : v.log.count .mainEmplace + v.queue.count .register + v.main.count .register = 1
  connectFirst : v.state.funOnSessionConnect = true →
    ∀ before after, v.log = before ++ .closeCb :: after → .connectCb ∈ before
  closeOnce : v.log.count .closeCb ≤ 1
  protoContextCloseOnce : v.log.count .protoContextClose ≤ 1
  closed : ClosedOnBothLoops v → Gone v

def HasEndpoint (v : SessionView) : PartyEvent Bool IoEvent → Prop
  | .main => v.main.head? = some .register → v.state.accepted = true → v.state.isOpen = true ∧ v.state.peerReset = false
  | _ => True

instance : ∀ v pe, Decidable (HasEndpoint v pe)
  | _, .loop _ | _, .act _ => isTrue trivial
  | v, .main => inferInstanceAs (Decidable (v.main.head? = some .register → v.state.accepted = true →
      v.state.isOpen = true ∧ v.state.peerReset = false))

/-! ### What all handlers but the registrations and `erase` keep -/

namespace Session

structure Steady (s : Session) (e : SessionEffect) : Prop where
  make : SameMake s e.state
  netMap : e.state.t_mapSessionInNetLoop = s.t_mapSessionInNetLoop
  mainMap : e.state.m_mapSession = s.m_mapSession
  posts : .register ∉ e.posts ∧ .erase ∉ e.posts
  mainPosts : .register ∉ e.mainPosts
  notes : ∀ n ∈ e.notes, n = .protoContextClose ∨ n = .parse
  closeCb : e.mainPosts.count .funSessionClose + e.state.m_funSessionClose.toNat ≤ s.m_funSessionClose.toNat
  context : e.notes.count .protoContextClose + e.state.m_funSessionProtoContextClose.toNat + s.m_pSessionContext.toNat ≤
    s.m_funSessionProtoContextClose.toNat + e.state.m_pSessionContext.toNat

structure Alike (s s' : Session) : Prop where
  make : SameMake s s'
  netMap : s'.t_mapSessionInNetLoop = s.t_mapSessionInNetLoop
  mainMap : s'.m_mapSession = s.m_mapSession
  closeCb : s'.m_funSessionClose = s.m_funSessionClose
  contextClose : s'.m_funSessionProtoContextClose = s.m_funSessionProtoContextClose
  context : s'.m_pSessionContext = s.m_pSessionContext

lemma Alike.refl (s : Session) : Alike s s := ⟨⟨rfl, rfl, rfl⟩, rfl, rfl, rfl, rfl, rfl⟩

lemma Alike.steady {s s' : Session} (h : Alike s s') {posts : List NetTask}
    (hposts : .register ∉ posts ∧ .erase ∉ posts) : Steady s ⟨s', posts, [], []⟩ where
  make := h.make
  netMap := h.netMap
  mainMap := h.mainMap
  posts := hposts
  mainPosts := List.not_mem_nil
  notes := List.forall_mem_nil _
  closeCb := by simp [h.closeCb]
  context := by simp [h.contextClose, h.context]

lemma Steady.alike {s s' : Session} {e : SessionEffect} (h : Steady s e) (ha : Alike e.state s') :
    Steady s { e with state := s' } where
  make := h.make.trans ha.make
  netMap := ha.netMap.trans h.netMap
  mainMap := ha.mainMap.trans h.mainMap
  posts := h.posts
  mainPosts := h.mainPosts
  notes := h.notes
  closeCb := by simpa [ha.closeCb] using h.closeCb
  context := by simpa [ha.contextClose, ha.context] using h.context

lemma Steady.posting {s : Session} {e : SessionEffect} (h : Steady s e) {more : List NetTask}
    (hmore : .register ∉ more ∧ .erase ∉ more) : Steady s { e with posts := e.posts ++ more } where
  make := h.make
  netMap := h.netMap
  mainMap := h.mainMap
  posts := ⟨List.not_mem_append h.posts.1 hmore.1, List.not_mem_append h.posts.2 hmore.2⟩
  mainPosts := h.mainPosts
  notes := h.notes
  closeCb := h.closeCb
  context := h.context

lemma alike_doSessionWrite (s : Session) : Alike s s.doSessionWrite := by
  rw [doSessionWrite]
  split
  · exact Alike.refl s
  · exact ⟨⟨rfl, rfl, rfl⟩, rfl, rfl, rfl, rfl, rfl⟩

lemma steady_withContext (s : Session) : Steady s ⟨s.withContext, [], [], [.parse]⟩ where
  make := sameMake_withContext s
  netMap := by rw [withContext]; split <;> rfl
  mainMap := by rw [withContext]; split <;> rfl
  posts := ⟨List.not_mem_nil, List.not_mem_nil⟩
  mainPosts := List.not_mem_nil
  notes := List.forall_mem_singleton.mpr (.inr rfl)
  closeCb := by rw [withContext]; split <;> simp
  context := by
    rw [withContext]
    split
    case isTrue h => simp [h]
    case isFalse h =>
      rw [Bool.not_eq_true] at h
      simp [h]

lemma posts_ite {b : Bool} {t : NetTask} (ht : t ≠ .register ∧ t ≠ .erase) :
    .register ∉ (if b then [t] else []) ∧ .erase ∉ (if b then [t] else []) := by
  cases b
  · exact ⟨List.not_mem_nil, List.not_mem_nil⟩
  · exact ⟨fun h => ht.1 (List.mem_singleton.mp h).symm, fun h => ht.2 (List.mem_singleton.mp h).symm⟩

lemma steady_readData (s : Session) (good : Bool) : Steady s (s.readData good).1 := by
  rw [readData, readHttp]
  split
  case isFalse => exact (Alike.refl s).steady ⟨List.not_mem_nil, List.not_mem_nil⟩
  case isTrue =>
    split
    case isTrue => exact (Alike.refl s).steady ⟨List.not_mem_nil, List.not_mem_nil⟩
    case isFalse =>
      split
      case isTrue => exact steady_withContext s
      case isFalse =>
        have hwrite := (steady_withContext s).alike (alike_doSessionWrite s.withContext)
        exact hwrite.posting (posts_ite (by decide))

lemma Steady.closeUnless {s : Session} {read : SessionEffect × Bool} (h : Steady s read.1) :
    Steady s (closeUnless read) := by
  rw [Session.closeUnless]
  split
  · exact h
  · exact h.posting (by decide)

lemma steady_handleSessionRead (s : Session) (good : Bool) : Steady s (s.handleSessionRead good) := by
  have hread := (steady_readData s good).closeUnless
  rw [handleSessionRead, onReadSession]
  split
  case isFalse => exact hread
  case isTrue =>
    split
    · exact (Alike.refl s).steady ⟨List.not_mem_nil, List.not_mem_nil⟩
    · exact hread.alike ⟨⟨rfl, rfl, rfl⟩, rfl, rfl, rfl, rfl, rfl⟩

lemma steady_doSessionCloseInNetLoop (s : Session) : Steady s s.doSessionCloseInNetLoop where
  make := ⟨rfl, rfl, rfl⟩
  netMap := rfl
  mainMap := rfl
  posts := ⟨List.not_mem_nil, List.not_mem_nil⟩
  mainPosts := by
    cases hp : s.m_funSessionProtoContextClose <;> cases hc : s.m_funSessionClose <;>
      simp [doSessionCloseInNetLoop, hp, hc]
  notes := by
    cases hp : s.m_funSessionProtoContextClose <;> simp [doSessionCloseInNetLoop, hp]
  closeCb := by
    cases hp : s.m_funSessionProtoContextClose <;> cases hc : s.m_funSessionClose <;>
      simp [doSessionCloseInNetLoop, hp, hc]
  context := by
    cases hp : s.m_funSessionProtoContextClose <;> simp [doSessionCloseInNetLoop, hp]

lemma steady_onNetLoop (s : Session) {task : NetTask} (htask : task ≠ .register ∧ task ≠ .erase) (found : Bool) :
    Steady s (s.onNetLoop task found) := by
  cases task with
  | register => exact absurd rfl htask.1
  | erase => exact absurd rfl htask.2
  | handleRead ec =>
    rw [onNetLoop]
    split
    · exact (Alike.refl s).steady (by decide)
    · exact (steady_handleSessionRead s found).alike ⟨⟨rfl, rfl, rfl⟩, rfl, rfl, rfl, rfl, rfl⟩
  | handleWrite ec =>
    have hdone : Alike s { s with m_onWriting := false } := ⟨⟨rfl, rfl, rfl⟩, rfl, rfl, rfl, rfl, rfl⟩
    simp only [onNetLoop]
    split
    · exact hdone.steady (by decide)
    · split
      · exact (hdone.steady ⟨List.not_mem_nil, List.not_mem_nil⟩).alike (alike_doSessionWrite _)
      · exact hdone.steady ⟨List.not_mem_nil, List.not_mem_nil⟩
  | write => exact (alike_doSessionWrite s).steady ⟨List.not_mem_nil, List.not_mem_nil⟩
  | doTimerSessionReadTimeout => exact (Alike.refl s).steady (posts_ite (by decide))
  | doSessionCloseInNetLoop => exact steady_doSessionCloseInNetLoop s

lemma steady_act {s : Session} {io : IoEvent} {e : SessionEffect} (h : s.act io = some e) : Steady s e := by
  cases acted h with
  | read ec =>
    have hdone : Alike s { s with reading := false } := ⟨⟨rfl, rfl, rfl⟩, rfl, rfl, rfl, rfl, rfl⟩
    exact hdone.steady (by simp)
  | write ec =>
    have hdone : Alike s { s with writing := false } := ⟨⟨rfl, rfl, rfl⟩, rfl, rfl, rfl, rfl, rfl⟩
    exact hdone.steady (by simp)
  | timer =>
    have hdone : Alike s { s with m_timerSessionAlive := false } := ⟨⟨rfl, rfl, rfl⟩, rfl, rfl, rfl, rfl, rfl⟩
    exact hdone.steady (by decide)
  | reset =>
    have hreset : Alike s { s with peerReset := true } := ⟨⟨rfl, rfl, rfl⟩, rfl, rfl, rfl, rfl, rfl⟩
    exact hreset.steady ⟨List.not_mem_nil, List.not_mem_nil⟩
  | post hmap htask =>
    apply (Alike.refl s).steady
    rcases htask with rfl | rfl
    · decide
    · decide
  | unknown => exact (Alike.refl s).steady ⟨List.not_mem_nil, List.not_mem_nil⟩

structure Entered (s : Session) (e : SessionEffect) : Prop where
  make : SameMake s e.state
  closeCb : e.state.m_funSessionClose = s.m_funSessionClose
  contextClose : e.state.m_funSessionProtoContextClose = s.m_funSessionProtoContextClose
  context : e.state.m_pSessionContext = s.m_pSessionContext
  map : e.state.m_mapSession = true
  posts : e.posts = []
  mainPosts : e.mainPosts = []
  notes : e.notes = [.mainEmplace] ∧ e.state.funOnSessionConnect = false ∨ e.notes = [.mainEmplace, .connectCb]

lemma entered_register {s : Session} (hnone : s.accepted = true → s.funOnSessionConnect = false) {e : SessionEffect}
    (he : s.onMainLoop .register = some e) : Entered s e := by
  have hmake := sameMake_onMainLoop he
  rw [onMainLoop, registerMain] at he
  split at he
  case isTrue hacc =>
    obtain ⟨-, he⟩ := Option.ite_none_right_eq_some.mp he
    cases he
    exact ⟨hmake, rfl, rfl, rfl, rfl, rfl, rfl, .inl ⟨rfl, hnone hacc⟩⟩
  case isFalse =>
    cases he
    refine ⟨hmake, rfl, rfl, rfl, rfl, rfl, rfl, ?_⟩
    by_cases hcb : s.funOnSessionConnect = true
    · exact .inr (by simp [hcb])
    · exact .inl (by simpa using hcb)

lemma Entered.notMem {s : Session} {e : SessionEffect} (h : Entered s e) {n : Note} (h₁ : n ≠ .mainEmplace) (h₂ : n ≠ .connectCb) :
    n ∉ e.notes := by
  rcases h.notes with ⟨hnotes, -⟩ | hnotes
  · simpa [hnotes] using h₁
  · simpa [hnotes] using ⟨h₁, h₂⟩

lemma Entered.mainEmplace {s : Session} {e : SessionEffect} (h : Entered s e) : e.notes.count .mainEmplace = 1 := by
  rcases h.notes with ⟨hnotes, -⟩ | hnotes
  · rw [hnotes]
    rfl
  · rw [hnotes]
    rfl

lemma Entered.connected {s : Session} {e : SessionEffect} (h : Entered s e) (hcb : e.state.funOnSessionConnect = true) :
    .connectCb ∈ e.notes := by
  rcases h.notes with ⟨-, hnone⟩ | hnotes
  · rw [hcb] at hnone
    cases hnone
  · rw [hnotes]
    exact List.mem_cons_of_mem _ List.mem_cons_self

end Session

/-! ### The three stretches of a life -/

/-- The callbacks that have run, wait to run or can still be called. -/
structure Booked (v : SessionView) : Prop where
  noConnectCb : v.state.accepted = true → v.state.funOnSessionConnect = false
  closeCb : v.log.count .closeCb + v.main.count .funSessionClose + v.state.m_funSessionClose.toNat ≤ 1
  context : v.log.count .protoContextClose + v.state.m_funSessionProtoContextClose.toNat ≤ v.state.m_pSessionContext.toNat

structure Arriving (v : SessionView) : Prop where
  queue : ∃ rest, v.queue = .register :: rest ∧ ∀ t ∈ rest, ∃ ec, t = .handleRead ec
  main : v.main = []
  log : v.log = []
  mainMap : v.state.m_mapSession = false
  writing : v.state.writing = false
  timer : v.state.m_timerSessionAlive = false

structure Between (v : SessionView) : Prop where
  queue : .register ∉ v.queue ∧ .erase ∉ v.queue
  main : ∃ rest, v.main = .register :: rest ∧ .register ∉ rest
  once : v.log.count .netEmplace = 1
  log : ∀ n ∈ v.log, n = .netEmplace ∨ n = .protoContextClose ∨ n = .parse

structure Settled (v : SessionView) : Prop where
  queue : .register ∉ v.queue
  main : .register ∉ v.main
  netOnce : v.log.count .netEmplace = 1
  mainOnce : v.log.count .mainEmplace = 1
  connected : v.state.funOnSessionConnect = true → .connectCb ∈ v.log
  connectFirst : v.state.funOnSessionConnect = true →
    ∀ before after, v.log = before ++ .closeCb :: after → .connectCb ∈ before
  removed : .removed ∈ v.log → v.state.m_mapSession = false
  erased : v.state.m_mapSession = false → v.state.t_mapSessionInNetLoop = true → .erase ∈ v.queue

structure Lived (v : SessionView) : Prop where
  booked : Booked v
  stretch : Arriving v ∨ Between v ∨ Settled v

lemma Between.notMem_log {v : SessionView} (h : Between v) {n : Note} (h₁ : n ≠ .netEmplace)
    (h₂ : n ≠ .protoContextClose) (h₃ : n ≠ .parse) : n ∉ v.log := by
  intro hm
  rcases h.log n hm with rfl | rfl | rfl
  · exact h₁ rfl
  · exact h₂ rfl
  · exact h₃ rfl

lemma Lived.lifecycle {v : SessionView} (h : Lived v) : Lifecycle v := by
  have hclose : v.log.count .closeCb ≤ 1 := by have := h.booked.closeCb; omega
  have hcontext : v.log.count .protoContextClose ≤ 1 := by
    have := h.booked.context
    have := v.state.m_pSessionContext.toNat_le
    omega
  rcases h.stretch with harriving | hbetween | hsettled
  · obtain ⟨rest, hqueue, hreads⟩ := harriving.queue
    have hrest : rest.count .register = 0 := List.count_eq_zero.mpr fun hm => by
      obtain ⟨ec, hec⟩ := hreads _ hm
      cases hec
    refine ⟨?_, ?_, fun _ before after hlog => ?_, hclose, hcontext, fun hclosed => ?_⟩
    · simp [harriving.log, hqueue, hrest]
    · simp [harriving.log, harriving.main, hqueue, hrest]
    · simp [harriving.log] at hlog
    · simp [ClosedOnBothLoops, harriving.log] at hclosed
  · obtain ⟨rest, hmain, hrest⟩ := hbetween.main
    refine ⟨?_, ?_, fun _ before after hlog => ?_, hclose, hcontext, fun hclosed => ?_⟩
    · rw [hbetween.once, List.count_eq_zero.mpr hbetween.queue.1]
    · rw [List.count_eq_zero.mpr (hbetween.notMem_log (n := .mainEmplace) nofun nofun nofun),
        List.count_eq_zero.mpr hbetween.queue.1, hmain,
        List.count_cons_self, List.count_eq_zero.mpr hrest]
    · exact absurd (hlog ▸ List.mem_append_right _ List.mem_cons_self) (hbetween.notMem_log (n := .closeCb) nofun nofun nofun)
    · exact absurd hclosed.1 (hbetween.notMem_log (n := .removed) nofun nofun nofun)
  · refine ⟨?_, ?_, hsettled.connectFirst, hclose, hcontext, fun hclosed => ?_⟩
    · rw [hsettled.netOnce, List.count_eq_zero.mpr hsettled.queue]
    · rw [hsettled.mainOnce, List.count_eq_zero.mpr hsettled.queue, List.count_eq_zero.mpr hsettled.main]
    · have hmain := hsettled.removed hclosed.1
      refine ⟨?_, hmain⟩
      by_contra hnet
      rw [Bool.not_eq_false] at hnet
      exact hclosed.2 (hsettled.erased hmain hnet)

section Steady

variable {v : SessionView} {e : SessionEffect}

lemma notMem_notes {n : Note} (h : Session.Steady v.state e) (h₁ : n ≠ .protoContextClose) (h₂ : n ≠ .parse) :
    n ∉ e.notes := by
  intro hm
  rcases h.notes n hm with rfl | rfl
  · exact h₁ rfl
  · exact h₂ rfl

lemma count_notes {n : Note} (h : Session.Steady v.state e) (h₁ : n ≠ .protoContextClose) (h₂ : n ≠ .parse) :
    (v.after e).log.count n = v.log.count n := by
  rw [PartyView.after, List.count_append, List.count_eq_zero.mpr (notMem_notes h h₁ h₂), Nat.add_zero]

lemma Booked.steady (h : Booked v) (hs : Session.Steady v.state e) : Booked (v.after e) := by
  obtain ⟨hnone, hclose, hcontext⟩ := h
  have hclose' := hs.closeCb
  have hcontext' := hs.context
  refine ⟨fun hacc => hs.make.funOnSessionConnect.trans (hnone (hs.make.accepted.symm.trans hacc)), ?_, ?_⟩
  · rw [count_notes (n := .closeCb) hs nofun nofun]
    simp only [PartyView.after, List.count_append]
    omega
  · simp only [PartyView.after, List.count_append]
    omega

lemma Between.steady (h : Between v) (hs : Session.Steady v.state e) : Between (v.after e) := by
  obtain ⟨rest, hmain, hrest⟩ := h.main
  refine ⟨⟨List.not_mem_append h.queue.1 hs.posts.1, List.not_mem_append h.queue.2 hs.posts.2⟩,
    ⟨rest ++ e.mainPosts, by simp [PartyView.after, hmain], List.not_mem_append hrest hs.mainPosts⟩, ?_, ?_⟩
  · rw [count_notes (n := .netEmplace) hs (by simp) (by simp), h.once]
  · intro n hn
    rcases List.mem_append.mp hn with hn | hn
    · exact h.log n hn
    · exact .inr (hs.notes n hn)

lemma Settled.steady (h : Settled v) (hs : Session.Steady v.state e) : Settled (v.after e) where
  queue := List.not_mem_append h.queue hs.posts.1
  main := List.not_mem_append h.main hs.mainPosts
  netOnce := by rw [count_notes (n := .netEmplace) hs nofun nofun, h.netOnce]
  mainOnce := by rw [count_notes (n := .mainEmplace) hs nofun nofun, h.mainOnce]
  connected hcb := List.mem_append_left _ (h.connected (hs.make.funOnSessionConnect ▸ hcb))
  connectFirst hcb := by
    apply before_append (h.connectFirst (hs.make.funOnSessionConnect ▸ hcb))
    intro before after hnotes
    exact absurd (hnotes ▸ List.mem_append_right _ List.mem_cons_self) (notMem_notes (n := .closeCb) hs nofun nofun)
  removed hm := by
    rcases List.mem_append.mp hm with hm | hm
    · exact hs.mainMap.trans (h.removed hm)
    · exact absurd hm (notMem_notes hs nofun nofun)
  erased hmain hnet :=
    List.mem_append_left _ (h.erased (hs.mainMap.symm.trans hmain) (hs.netMap.symm.trans hnet))

end Steady

/-! ### One step of one session -/

section Step

variable {v : SessionView}

lemma Arriving.register (h : Arriving v) {rest : List NetTask} (hqueue : v.queue = .register :: rest) (found : Bool) :
    Between (PartyView.after { v with queue := rest } (v.state.onNetLoop .register found)) := by
  obtain ⟨rest', hqueue', hreads⟩ := h.queue
  obtain ⟨-, rfl⟩ := List.cons_eq_cons.mp (hqueue.symm.trans hqueue')
  have hnot : ∀ t, (∀ ec, t ≠ .handleRead ec) → t ∉ rest ++ [] := by
    intro t ht hm
    rw [List.append_nil] at hm
    obtain ⟨ec, hec⟩ := hreads t hm
    exact ht ec hec
  refine ⟨⟨hnot _ nofun, hnot _ nofun⟩, ⟨[], by rw [PartyView.after, h.main]; rfl, List.not_mem_nil⟩, ?_, ?_⟩
  · rw [PartyView.after, h.log]
    rfl
  · intro n hn
    rw [PartyView.after, h.log] at hn
    exact .inl (List.mem_singleton.mp hn)

lemma Arriving.act (h : Arriving v) {io : IoEvent} {e : SessionEffect} (he : v.state.act io = some e) :
    Arriving (v.after e) := by
  obtain ⟨rest, hqueue, hreads⟩ := h.queue
  have hquiet : ∀ s : Session, s.m_mapSession = false → s.writing = false → s.m_timerSessionAlive = false →
      Arriving (v.after s.quiet) := by
    intro s hmain hwriting htimer
    refine ⟨⟨rest, ?_, hreads⟩, ?_, ?_, hmain, hwriting, htimer⟩
    · rw [PartyView.after, hqueue]
      exact List.append_nil _
    · rw [PartyView.after, h.main]
      rfl
    · rw [PartyView.after, h.log]
      rfl
  cases Session.acted he with
  | read ec =>
    refine ⟨⟨rest ++ [.handleRead ec], by rw [PartyView.after, hqueue]; rfl, ?_⟩, ?_, ?_, h.mainMap, h.writing, h.timer⟩
    · intro t ht
      rcases List.mem_append.mp ht with ht | ht
      · exact hreads t ht
      · exact ⟨ec, List.mem_singleton.mp ht⟩
    · rw [PartyView.after, h.main]
      rfl
    · rw [PartyView.after, h.log]
      rfl
  | write ec hwriting =>
    rw [h.writing] at hwriting
    cases hwriting
  | timer htimer =>
    rw [h.timer] at htimer
    cases htimer
  | reset => exact hquiet _ h.mainMap h.writing h.timer
  | post hmap =>
    rw [h.mainMap] at hmap
    cases hmap
  | unknown => exact hquiet _ h.mainMap h.writing h.timer

lemma Between.register (h : Between v) (hnone : v.state.accepted = true → v.state.funOnSessionConnect = false)
    {rest : List MainTask} (hmain : v.main = .register :: rest) {e : SessionEffect}
    (he : v.state.onMainLoop .register = some e) : Settled (PartyView.after { v with main := rest } e) := by
  obtain ⟨rest', hmain', hrest⟩ := h.main
  obtain ⟨-, rfl⟩ := List.cons_eq_cons.mp (hmain.symm.trans hmain')
  have hentered := Session.entered_register hnone he
  refine ⟨?_, ?_, ?_, ?_, ?_, ?_, ?_, ?_⟩
  · rw [PartyView.after, hentered.posts, List.append_nil]
    exact h.queue.1
  · rw [PartyView.after, hentered.mainPosts, List.append_nil]
    exact hrest
  · rw [PartyView.after, List.count_append, h.once,
      List.count_eq_zero.mpr (hentered.notMem (n := .netEmplace) (by simp) (by simp))]
  · rw [PartyView.after, List.count_append, hentered.mainEmplace,
      List.count_eq_zero.mpr (h.notMem_log (n := .mainEmplace) (by simp) (by simp) (by simp))]
  · exact fun hcb => List.mem_append_right _ (hentered.connected hcb)
  · intro _ before after hlog
    have hm : Note.closeCb ∈ before ++ Note.closeCb :: after := List.mem_append_right _ List.mem_cons_self
    rw [← hlog] at hm
    exact absurd hm (List.not_mem_append (h.notMem_log (n := .closeCb) (by simp) (by simp) (by simp)) (hentered.notMem (by simp) (by simp)))
  · intro hm
    exact absurd hm (List.not_mem_append (h.notMem_log (n := .removed) (by simp) (by simp) (by simp)) (hentered.notMem (by simp) (by simp)))
  · intro hmain
    rw [PartyView.after, hentered.map] at hmain
    cases hmain

lemma Settled.eraseMain (h : Settled v) {u : MainTask} {rest : List MainTask} (hmain : v.main = u :: rest)
    {notes : List Note} (hnotes : ∀ n ∈ notes, n = .closeCb ∨ n = .removed) :
    Settled (PartyView.after { v with main := rest } (v.state.eraseMain notes)) := by
  have hnone : ∀ n, n ≠ .closeCb → n ≠ .removed → notes.count n = 0 := by
    intro n h₁ h₂
    apply List.count_eq_zero.mpr
    intro hm
    rcases hnotes n hm with rfl | rfl
    · exact h₁ rfl
    · exact h₂ rfl
  refine ⟨?_, ?_, ?_, ?_, fun hcb => List.mem_append_left _ (h.connected hcb), fun hcb => ?_, fun _ => rfl, ?_⟩
  · apply List.not_mem_append h.queue
    cases hmap : v.state.m_mapSession <;> simp [Session.eraseMain, hmap]
  · intro hm
    rw [PartyView.after, Session.eraseMain, List.append_nil] at hm
    exact h.main (hmain ▸ List.mem_cons_of_mem _ hm)
  · rw [PartyView.after, List.count_append, h.netOnce]
    exact congrArg (1 + ·) (hnone .netEmplace (by simp) (by simp))
  · rw [PartyView.after, List.count_append, h.mainOnce]
    exact congrArg (1 + ·) (hnone .mainEmplace (by simp) (by simp))
  · apply before_append (h.connectFirst hcb)
    exact fun before after _ => List.mem_append_left _ (h.connected hcb)
  · intro _ hnet
    -- an `erase` is queued already, or this is the task that queues it
    cases hmap : v.state.m_mapSession
    · exact List.mem_append_left _ (h.erased hmap hnet)
    · rw [PartyView.after, Session.eraseMain, hmap]
      exact List.mem_append_right _ (List.mem_singleton_self _)

lemma Settled.erase (h : Settled v) {rest : List NetTask} (hqueue : v.queue = .erase :: rest) (found : Bool) :
    Settled (PartyView.after { v with queue := rest } (v.state.onNetLoop .erase found)) := by
  have hrest : .register ∉ rest := fun hm => h.queue (hqueue ▸ List.mem_cons_of_mem _ hm)
  constructor
  · rw [PartyView.after]
    exact List.not_mem_append hrest List.not_mem_nil
  · exact List.not_mem_append h.main List.not_mem_nil
  · exact (congrArg (List.count Note.netEmplace) (List.append_nil v.log)).trans h.netOnce
  · exact (congrArg (List.count Note.mainEmplace) (List.append_nil v.log)).trans h.mainOnce
  · exact fun hcb => List.mem_append_left _ (h.connected hcb)
  · intro hcb
    apply before_append (h.connectFirst hcb)
    exact fun before after hnil => absurd hnil.symm (List.append_ne_nil_of_right_ne_nil _ (List.cons_ne_nil _ _))
  · intro hm
    rcases List.mem_append.mp hm with hm | hm
    · exact h.removed hm
    · exact absurd hm List.not_mem_nil
  · exact fun _ hnet => by cases hnet

lemma Booked.register (h : Booked v) {rest : List NetTask} (found : Bool) :
    Booked (PartyView.after { v with queue := rest } (v.state.onNetLoop .register found)) := by
  obtain ⟨hnone, hclose, hcontext⟩ := h
  refine ⟨hnone, ?_, ?_⟩
  · simpa [PartyView.after, Session.onNetLoop] using hclose
  · simpa [PartyView.after, Session.onNetLoop] using hcontext

lemma Booked.erase (h : Booked v) {rest : List NetTask} (found : Bool) :
    Booked (PartyView.after { v with queue := rest } (v.state.onNetLoop .erase found)) := by
  obtain ⟨hnone, hclose, hcontext⟩ := h
  refine ⟨hnone, ?_, ?_⟩
  · simpa [PartyView.after, Session.onNetLoop, Session.quiet] using hclose
  · simpa [PartyView.after, Session.onNetLoop, Session.quiet] using hcontext

lemma Booked.onMainLoop (h : Booked v) {u : MainTask} {rest : List MainTask} (hmain : v.main = u :: rest)
    {e : SessionEffect} (he : v.state.onMainLoop u = some e) : Booked (PartyView.after { v with main := rest } e) := by
  have hmake := Session.sameMake_onMainLoop he
  obtain ⟨hnone, hclose, hcontext⟩ := h
  rw [hmain, List.count_cons] at hclose
  refine ⟨fun hacc => hmake.funOnSessionConnect.trans (hnone (hmake.accepted.symm.trans hacc)), ?_, ?_⟩
  · simp only [PartyView.after, List.count_append]
    cases u with
    | register =>
      have hentered := Session.entered_register hnone he
      rw [List.count_eq_zero.mpr (hentered.notMem (n := .closeCb) (by simp) (by simp)), hentered.mainPosts, hentered.closeCb]
      simpa using hclose
    | funSessionClose =>
      -- the callback runs in place of the task that is gone
      cases he
      cases hcb : v.state.funOnSessionClose
      · simp [Session.eraseMain] at hclose ⊢
        omega
      · simp [Session.eraseMain] at hclose ⊢
        omega
    | removeMapSession =>
      cases he
      simpa [Session.eraseMain] using hclose
    | deleteContext =>
      cases he
      simpa [Session.quiet] using hclose
  · simp only [PartyView.after, List.count_append]
    cases u with
    | register =>
      have hentered := Session.entered_register hnone he
      rw [List.count_eq_zero.mpr (hentered.notMem (n := .protoContextClose) (by simp) (by simp)), hentered.contextClose,
        hentered.context]
      exact hcontext
    | funSessionClose =>
      cases he
      cases hcb : v.state.funOnSessionClose <;> simpa [Session.eraseMain] using hcontext
    | removeMapSession =>
      cases he
      simpa [Session.eraseMain] using hcontext
    | deleteContext =>
      cases he
      exact hcontext

/-! ### A step keeps it all -/

lemma Between.pop (h : Between v) {t : NetTask} {rest : List NetTask} (hqueue : v.queue = t :: rest) :
    Between { v with queue := rest } :=
  ⟨⟨fun hm => h.queue.1 (hqueue ▸ List.mem_cons_of_mem _ hm), fun hm => h.queue.2 (hqueue ▸ List.mem_cons_of_mem _ hm)⟩,
    h.main, h.once, h.log⟩

lemma Settled.pop (h : Settled v) {t : NetTask} {rest : List NetTask} (ht : t ≠ .erase) (hqueue : v.queue = t :: rest) :
    Settled { v with queue := rest } where
  queue hm := h.queue (hqueue ▸ List.mem_cons_of_mem _ hm)
  main := h.main
  netOnce := h.netOnce
  mainOnce := h.mainOnce
  connected := h.connected
  connectFirst := h.connectFirst
  removed := h.removed
  erased hmain hnet := by
    have hm := h.erased hmain hnet
    rw [hqueue] at hm
    exact (List.mem_cons.mp hm).resolve_left (Ne.symm ht)

lemma Settled.popMain (h : Settled v) {u : MainTask} {rest : List MainTask} (hmain : v.main = u :: rest) :
    Settled { v with main := rest } :=
  ⟨h.queue, fun hm => h.main (hmain ▸ List.mem_cons_of_mem _ hm), h.netOnce, h.mainOnce, h.connected, h.connectFirst,
    h.removed, h.erased⟩

lemma Settled.onNetLoop (h : Settled v) {t : NetTask} {rest : List NetTask} (hqueue : v.queue = t :: rest) (found : Bool) :
    t ≠ .register ∧ Settled (PartyView.after { v with queue := rest } (v.state.onNetLoop t found)) := by
  have hregister : t ≠ .register := by
    rintro rfl
    exact h.queue (hqueue ▸ List.mem_cons_self)
  refine ⟨hregister, ?_⟩
  by_cases herase : t = .erase
  · subst herase
    exact h.erase hqueue found
  · exact (h.pop herase hqueue).steady (Session.steady_onNetLoop v.state ⟨hregister, herase⟩ found)

lemma Settled.onMainLoop (h : Settled v) {u : MainTask} {rest : List MainTask} (hmain : v.main = u :: rest)
    {e : SessionEffect} (he : v.state.onMainLoop u = some e) :
    u ≠ .register ∧ Settled (PartyView.after { v with main := rest } e) := by
  cases u with
  | register => exact absurd (hmain ▸ List.mem_cons_self) h.main
  | funSessionClose =>
    cases he
    refine ⟨nofun, h.eraseMain hmain fun n hn => ?_⟩
    cases hcb : v.state.funOnSessionClose <;> simp [hcb] at hn
    exact .inl hn
  | removeMapSession =>
    cases he
    exact ⟨nofun, h.eraseMain hmain (List.forall_mem_singleton.mpr (.inr rfl))⟩
  | deleteContext =>
    cases he
    have hquiet : Session.Steady v.state v.state.quiet :=
      (Session.Alike.refl v.state).steady ⟨List.not_mem_nil, List.not_mem_nil⟩
    exact ⟨nofun, (h.popMain hmain).steady hquiet⟩

lemma Lived.onNetLoop (h : Lived v) {t : NetTask} {rest : List NetTask} (hqueue : v.queue = t :: rest) (found : Bool) :
    Lived (PartyView.after { v with queue := rest } (v.state.onNetLoop t found)) := by
  have hbooked : Booked { v with queue := rest } := ⟨h.booked.noConnectCb, h.booked.closeCb, h.booked.context⟩
  have hsteady := @Session.steady_onNetLoop v.state t
  rcases h.stretch with harriving | hbetween | hsettled
  · obtain ⟨rest', hqueue', -⟩ := harriving.queue
    obtain ⟨rfl, -⟩ := List.cons_eq_cons.mp (hqueue.symm.trans hqueue')
    exact ⟨h.booked.register found, .inr (.inl (harriving.register hqueue found))⟩
  · have ht : t ≠ .register ∧ t ≠ .erase := by
      constructor
      · rintro rfl
        exact hbetween.queue.1 (hqueue ▸ List.mem_cons_self)
      · rintro rfl
        exact hbetween.queue.2 (hqueue ▸ List.mem_cons_self)
    exact ⟨hbooked.steady (hsteady ht found), .inr (.inl ((hbetween.pop hqueue).steady (hsteady ht found)))⟩
  · obtain ⟨hregister, hnext⟩ := hsettled.onNetLoop hqueue found
    refine ⟨?_, .inr (.inr hnext)⟩
    by_cases herase : t = .erase
    · subst herase
      exact h.booked.erase found
    · exact hbooked.steady (hsteady ⟨hregister, herase⟩ found)

lemma Lived.onMainLoop (h : Lived v) {u : MainTask} {rest : List MainTask} (hmain : v.main = u :: rest)
    {e : SessionEffect} (he : v.state.onMainLoop u = some e) : Lived (PartyView.after { v with main := rest } e) := by
  refine ⟨h.booked.onMainLoop hmain he, ?_⟩
  rcases h.stretch with harriving | hbetween | hsettled
  · rw [harriving.main] at hmain
    cases hmain
  · obtain ⟨rest', hmain', -⟩ := hbetween.main
    obtain ⟨rfl, -⟩ := List.cons_eq_cons.mp (hmain.symm.trans hmain')
    exact .inr (.inr (hbetween.register h.booked.noConnectCb hmain he))
  · exact .inr (.inr (hsettled.onMainLoop hmain he).2)

end Step

lemma HasEndpoint.exists_onMainLoop {v : SessionView} (h : HasEndpoint v .main) {u : MainTask} {rest : List MainTask}
    (hmain : v.main = u :: rest) : ∃ e, v.state.onMainLoop u = some e := by
  cases u with
  | register =>
    rw [Session.onMainLoop, Session.registerMain]
    split
    case isTrue hacc =>
      rw [if_pos (h (hmain ▸ rfl) hacc)]
      exact ⟨_, rfl⟩
    case isFalse => exact ⟨_, rfl⟩
  | funSessionClose => exact ⟨_, rfl⟩
  | removeMapSession => exact ⟨_, rfl⟩
  | deleteContext => exact ⟨_, rfl⟩

lemma lived_made {e : SessionEffect} (hposts : e.posts = [.register]) (hmain : e.mainPosts = []) (hnotes : e.notes = [])
    (hnone : e.state.accepted = true → e.state.funOnSessionConnect = false)
    (hcontext : e.state.m_funSessionProtoContextClose = false) (hmap : e.state.m_mapSession = false)
    (hwriting : e.state.writing = false) (htimer : e.state.m_timerSessionAlive = false) : Lived (NetModule.made e) := by
  refine ⟨⟨hnone, ?_, ?_⟩, .inl ⟨⟨[], hposts, List.forall_mem_nil _⟩, hmain, hnotes, hmap, hwriting, htimer⟩⟩
  · simp only [NetModule.made, hnotes, hmain, List.count_nil]
    have := e.state.m_funSessionClose.toNat_le
    omega
  · simp [NetModule.made, hnotes, hcontext]

theorem kept_lived : NetModule.Kept Lived HasEndpoint where
  onAccept _ _ := lived_made rfl rfl rfl (fun _ => rfl) rfl rfl rfl rfl
  onConnect _ _ _ _ := lived_made rfl rfl rfl (fun h => by cases h) rfl rfl rfl rfl
  step := by
    intro v pe v' h hQ hstep
    cases pe with
    | loop found =>
      obtain ⟨t, rest, hqueue, rfl⟩ := PartyView.step_loop hstep
      exact h.onNetLoop hqueue found
    | main =>
      obtain ⟨u, rest, e, hmain, he, rfl⟩ := PartyView.step_main_of (fun _ _ => hQ.exists_onMainLoop) hstep
      exact h.onMainLoop hmain he
    | act io =>
      obtain ⟨e, he, rfl⟩ := PartyView.step_act hstep
      have hsteady := Session.steady_act he
      refine ⟨h.booked.steady hsteady, ?_⟩
      rcases h.stretch with harriving | hbetween | hsettled
      · exact .inl (harriving.act he)
      · exact .inr (.inl (hbetween.steady hsteady))
      · exact .inr (.inr (hsettled.steady hsteady))

/-- An exception in the main loop, and the session is in `m_mapSession` never. -/
lemma Lived.not_lifecycle_of_throw {v : SessionView} (h : Lived v) {rest : List MainTask} (hmain : v.main = .register :: rest) :
    ¬ Lifecycle { v with main := rest } := by
  intro hlife
  have honce := hlife.mainOnce
  have hbefore := h.lifecycle.mainOnce
  simp only [hmain, List.count_cons_self] at hbefore honce
  omega

lemma meets_of_lifecycle {net net' : NetModule} (h : NetModule.Holds Lived net) {e : NetEvent}
    (hstep : net.step e = some net') (hlife : ∀ id v, net'.view id = some v → Lifecycle v) :
    NetModule.Meets HasEndpoint net e := by
  cases e with
  | loops e =>
    obtain ⟨-, hstep⟩ := Option.ite_none_left_eq_some.mp hstep
    obtain ⟨loops, hloops, rfl⟩ := Option.map_eq_some_iff.mp hstep
    obtain ⟨id, pe, hturn, hturned⟩ := PartyLoops.step_turned h.wellFormed.consistent hloops
    obtain ⟨v, v', hv, hone, hv'⟩ := hturned.steps
    intro id' pe' w hturn' hw
    obtain ⟨rfl, rfl⟩ := Prod.mk.inj (Option.some.inj (hturn.symm.trans hturn'))
    obtain rfl : v = w := Option.some.inj (hv.symm.trans hw)
    cases pe with
    | loop found => trivial
    | act io => trivial
    | main =>
      intro hhead hacc
      by_contra hgone
      obtain ⟨rest, hmain⟩ := List.head?_eq_some_iff.mp hhead
      have hthrow : v.state.onMainLoop .register = none := by
        rw [Session.onMainLoop, Session.registerMain, if_pos hacc, if_neg hgone]
      rw [PartyView.step, hmain] at hone
      simp only [sessions, hthrow] at hone
      cases hone
      exact (h.views id v hv).not_lifecycle_of_throw hmain (hlife id _ hv')
  | listen acceptor => trivial
  | onAccept acceptor ec loop http => trivial
  | onConnect loop http funOnSessionConnect funOnSessionClose => trivial

/-! ### After the close -/

structure Retired (v : SessionView) : Prop where
  settled : Settled v
  gone : Gone v

lemma Lived.retired {v : SessionView} (h : Lived v) (hclosed : ClosedOnBothLoops v) : Retired v := by
  refine ⟨?_, h.lifecycle.closed hclosed⟩
  rcases h.stretch with harriving | hbetween | hsettled
  · rw [ClosedOnBothLoops, harriving.log] at hclosed
    cases hclosed.1
  · exact absurd hclosed.1 (hbetween.notMem_log (n := .removed) nofun nofun nofun)
  · exact hsettled

lemma Retired.step {v v' : SessionView} {pe : PartyEvent Bool IoEvent} (h : Retired v) (hQ : HasEndpoint v pe)
    (hstep : v.step sessions pe = some v') : Retired v' := by
  obtain ⟨hsettled, hnet, hmap⟩ := h
  cases pe with
  | loop found =>
    obtain ⟨t, rest, hqueue, rfl⟩ := PartyView.step_loop hstep
    obtain ⟨hregister, hnext⟩ := hsettled.onNetLoop hqueue found
    refine ⟨hnext, ?_⟩
    by_cases herase : t = .erase
    · subst herase
      exact ⟨rfl, hmap⟩
    · have hsteady := Session.steady_onNetLoop v.state ⟨hregister, herase⟩ found
      exact ⟨hsteady.netMap.trans hnet, hsteady.mainMap.trans hmap⟩
  | main =>
    obtain ⟨u, rest, e, hmain, he, rfl⟩ := PartyView.step_main_of (fun _ _ => hQ.exists_onMainLoop) hstep
    obtain ⟨hregister, hnext⟩ := hsettled.onMainLoop hmain he
    refine ⟨hnext, ?_⟩
    cases u with
    | register => exact absurd rfl hregister
    | deleteContext =>
      cases he
      exact ⟨hnet, hmap⟩
    | funSessionClose =>
      cases he
      exact ⟨hnet, rfl⟩
    | removeMapSession =>
      cases he
      exact ⟨hnet, rfl⟩
  | act io =>
    obtain ⟨e, he, rfl⟩ := PartyView.step_act hstep
    have hsteady := Session.steady_act he
    exact ⟨hsettled.steady hsteady, hsteady.netMap.trans hnet, hsteady.mainMap.trans hmap⟩

namespace NetModule

structure KeepsSessions (es : List NetEvent) : Prop where
  lifecycle : ∀ done, done <+: es → ∀ net, run step start done = some net →
    ∀ id v, net.view id = some v → Lifecycle v
  gone : ∀ done later, done ++ later <+: es → ∀ net net', run step start done = some net →
    run step net later = some net' → ∀ id v v', net.view id = some v → net'.view id = some v' →
      ClosedOnBothLoops v → Gone v'

theorem keepsSessions_iff {es : List NetEvent} {net : NetModule} (h : run step start es = some net) :
    KeepsSessions es ↔ StepsMeet step (fun _ => Meets HasEndpoint) start es := by
  constructor
  · intro hkeeps
    apply stepsMeet_of_throughout h holds_start (fun hi hc hone => kept_lived.step_holds hi hc hone)
    · exact fun hi hone hlife => meets_of_lifecycle hi hone hlife
    · exact hkeeps.lifecycle
  · intro hmeets
    have hholds : ∀ done, done <+: es → ∀ net, run step start done = some net → Holds Lived net :=
      fun done hd net hrun => (hmeets.of_initial hd).invariant holds_start
        (fun hi hc hone => kept_lived.step_holds hi hc hone) hrun
    constructor
    · exact fun done hd net hrun id v hv => ((hholds done hd net hrun).views id v hv).lifecycle
    · intro done later hd net net' hrun hlater id v v' hv hv' hclosed
      have hat := hholds done ((List.prefix_append _ _).trans hd) net hrun
      have hretired := kept_lived.run_one (R := Retired) (fun _ hR hQ hone => hR.step hQ hone)
        ((hmeets.of_initial hd).drop hrun) hat hv ((hat.views id v hv).retired hclosed) hlater hv'
      exact hretired.gone

theorem keepsSessions_closed : KeepsSessions [.listen 0, .onAccept 0 false 1 false, .loops (.loop 1 true), .loops .main,
    .loops (.act 1 (.readCompletes false)), .loops (.loop 1 true), .loops (.act 1 (.readCompletes true)),
    .loops (.loop 1 true), .loops (.loop 1 true), .loops .main, .loops (.loop 1 true)] := by
  obtain ⟨net, hrun⟩ : ∃ net, run step start [.listen 0, .onAccept 0 false 1 false, .loops (.loop 1 true), .loops .main,
      .loops (.act 1 (.readCompletes false)), .loops (.loop 1 true), .loops (.act 1 (.readCompletes true)),
      .loops (.loop 1 true), .loops (.loop 1 true), .loops .main, .loops (.loop 1 true)] = some net :=
    Option.isSome_iff_exists.mp (by decide)
  have hcheck : checkSteps step (fun net e => decide (Meets HasEndpoint net e)) start [.listen 0,
      .onAccept 0 false 1 false, .loops (.loop 1 true), .loops .main, .loops (.act 1 (.readCompletes false)),
      .loops (.loop 1 true), .loops (.act 1 (.readCompletes true)), .loops (.loop 1 true), .loops (.loop 1 true),
      .loops .main, .loops (.loop 1 true)] = true := by decide
  exact (keepsSessions_iff hrun).mpr (stepsMeet_of_checkSteps (fun _ _ => of_decide_eq_true) hcheck)

/-- The idle timer closes the socket of session 1, or its peer does, before the main loop has entered it. -/
theorem not_keepsSessions_closed_early :
    ¬ KeepsSessions [.listen 0, .onAccept 0 false 1 false, .loops (.loop 1 true), .loops (.act 1 .timerExpires),
      .loops (.loop 1 true), .loops (.loop 1 true), .loops .main] ∧
    ¬ KeepsSessions [.listen 0, .onAccept 0 false 1 false, .loops (.loop 1 true), .loops (.act 1 .peerResets),
      .loops .main] := by
  have hlost : ∀ {es : List NetEvent} (net : NetModule), run step start es = some net →
      (net.view 1).map (fun v => v.log.count .mainEmplace + v.queue.count .register + v.main.count .register) = some 0 →
      ¬ KeepsSessions es := by
    intro es net hrun hcount hkeeps
    obtain ⟨v, hv, hzero⟩ := Option.map_eq_some_iff.mp hcount
    have honce := (hkeeps.lifecycle es List.prefix_rfl net hrun 1 v hv).mainOnce
    rw [hzero] at honce
    cases honce
  exact ⟨hlost _ rfl (by decide), hlost _ rfl (by decide)⟩

end NetModule

end TonyCat.Net
