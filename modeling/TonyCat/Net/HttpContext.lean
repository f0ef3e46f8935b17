import TonyCat.Net.NetModule

set_option autoImplicit false

/-! The parser that `NetHttpModule::ReadData` keeps as the context of a session, and the reads that are handled
after the close has handed it over. -/

namespace TonyCat.Net

open TonyCat.Library

/-- No `ReadData` parses with the context once `m_funSessionProtoContextClose` has got it. -/
def NoParseAfterClose (v : SessionView) : Prop :=
  ∀ before after, v.log = before ++ .parse :: after → .protoContextClose ∉ before

def ReadsHandled (v : SessionView) : PartyEvent Bool IoEvent → Prop
  | .loop _ => v.queue.head? = some .doSessionCloseInNetLoop → v.state.m_funSessionProtoContextClose = true →
      .handleRead false ∉ v.queue
  | _ => True

instance : ∀ v pe, Decidable (ReadsHandled v pe)
  | _, .main | _, .act _ => isTrue trivial
  | v, .loop _ => inferInstanceAs (Decidable (v.queue.head? = some .doSessionCloseInNetLoop →
      v.state.m_funSessionProtoContextClose = true → .handleRead false ∉ v.queue))

namespace Session

structure Harmless (s : Session) (e : SessionEffect) : Prop where
  isOpen : e.state.isOpen = s.isOpen
  posts : .handleRead false ∉ e.posts
  notes : .protoContextClose ∉ e.notes

lemma isOpen_doSessionWrite (s : Session) : s.doSessionWrite.isOpen = s.isOpen := by
  rw [doSessionWrite]
  split <;> rfl

lemma isOpen_withContext (s : Session) : s.withContext.isOpen = s.isOpen := by
  rw [withContext]
  split <;> rfl

lemma harmless_readData (s : Session) (good : Bool) : Harmless s (s.readData good).1 := by
  rw [readData, readHttp]
  split
  case isFalse => exact ⟨rfl, List.not_mem_nil, List.not_mem_nil⟩
  case isTrue =>
    split
    case isTrue => exact ⟨rfl, List.not_mem_nil, List.not_mem_nil⟩
    case isFalse =>
      split
      case isTrue => exact ⟨isOpen_withContext s, List.not_mem_nil, by simp⟩
      case isFalse =>
        refine ⟨(isOpen_doSessionWrite _).trans (isOpen_withContext s), ?_, by simp⟩
        cases s.m_mapSession <;> simp

lemma Harmless.closeUnless {s : Session} {read : SessionEffect × Bool} (h : Harmless s read.1) :
    Harmless s (closeUnless read) := by
  rw [Session.closeUnless]
  split
  · exact h
  · exact ⟨h.isOpen, List.not_mem_append h.posts (by decide), h.notes⟩

lemma harmless_handleSessionRead (s : Session) (good : Bool) : Harmless s (s.handleSessionRead good) := by
  have hread := (harmless_readData s good).closeUnless
  rw [handleSessionRead, onReadSession]
  split
  case isFalse => exact hread
  case isTrue =>
    split
    · exact ⟨rfl, List.not_mem_nil, List.not_mem_nil⟩
    · exact ⟨hread.isOpen, hread.posts, hread.notes⟩

lemma harmless_onNetLoop (s : Session) {task : NetTask} (htask : task ≠ .doSessionCloseInNetLoop) (found : Bool) :
    Harmless s (s.onNetLoop task found) := by
  cases task with
  | register => exact ⟨rfl, List.not_mem_nil, by simp [onNetLoop]⟩
  | handleRead ec =>
    rw [onNetLoop]
    split
    · exact ⟨rfl, by simp, List.not_mem_nil⟩
    · have hread := harmless_handleSessionRead s found
      exact ⟨hread.isOpen, hread.posts, hread.notes⟩
  | handleWrite ec =>
    simp only [onNetLoop]
    split
    · exact ⟨rfl, by simp, List.not_mem_nil⟩
    · split
      · exact ⟨isOpen_doSessionWrite _, List.not_mem_nil, List.not_mem_nil⟩
      · exact ⟨rfl, List.not_mem_nil, List.not_mem_nil⟩
  | write => exact ⟨isOpen_doSessionWrite s, List.not_mem_nil, List.not_mem_nil⟩
  | doTimerSessionReadTimeout =>
    refine ⟨rfl, ?_, List.not_mem_nil⟩
    cases hmap : s.t_mapSessionInNetLoop <;> simp [onNetLoop, hmap]
  | doSessionCloseInNetLoop => exact absurd rfl htask
  | erase => exact ⟨rfl, List.not_mem_nil, List.not_mem_nil⟩

/-- Only the handler of a read that has ended well parses. -/
lemma eq_handleRead_of_parse {s : Session} {task : NetTask} {found : Bool} (h : .parse ∈ (s.onNetLoop task found).notes) :
    task = .handleRead false := by
  cases task with
  | handleRead ec =>
    cases ec
    · rfl
    · exact absurd h List.not_mem_nil
  | doSessionCloseInNetLoop =>
    cases hclose : s.m_funSessionProtoContextClose <;> simp [onNetLoop, doSessionCloseInNetLoop, hclose] at h
  | register => simp [onNetLoop] at h
  | handleWrite ec =>
    simp only [onNetLoop] at h
    split at h
    · exact absurd h List.not_mem_nil
    · split at h
      · exact absurd h List.not_mem_nil
      · exact absurd h List.not_mem_nil
  | write => exact absurd h List.not_mem_nil
  | doTimerSessionReadTimeout => exact absurd h List.not_mem_nil
  | erase => exact absurd h List.not_mem_nil

lemma harmless_onMainLoop {s : Session} {task : MainTask} {e : SessionEffect} (h : s.onMainLoop task = some e) :
    Harmless s e ∧ .parse ∉ e.notes := by
  cases task with
  | register =>
    rw [onMainLoop, registerMain] at h
    split at h
    · obtain ⟨-, he⟩ := Option.ite_none_right_eq_some.mp h
      cases he
      exact ⟨⟨rfl, List.not_mem_nil, by simp⟩, by simp⟩
    · cases h
      cases hcb : s.funOnSessionConnect
      · exact ⟨⟨rfl, List.not_mem_nil, by simp⟩, by simp⟩
      · exact ⟨⟨rfl, List.not_mem_nil, by simp⟩, by simp⟩
  | funSessionClose =>
    cases h
    cases hcb : s.funOnSessionClose <;> cases hmap : s.m_mapSession <;>
      exact ⟨⟨rfl, by simp [eraseMain, hmap], by simp [eraseMain]⟩, by simp [eraseMain]⟩
  | removeMapSession =>
    cases h
    cases hmap : s.m_mapSession <;> exact ⟨⟨rfl, by simp [eraseMain, hmap], by simp [eraseMain]⟩, by simp [eraseMain]⟩
  | deleteContext =>
    cases h
    exact ⟨⟨rfl, List.not_mem_nil, List.not_mem_nil⟩, List.not_mem_nil⟩

lemma act_handleRead {s : Session} {io : IoEvent} {e : SessionEffect} (h : s.act io = some e) :
    e.state.isOpen = s.isOpen ∧ e.notes = [] ∧ (.handleRead false ∈ e.posts → s.isOpen = true) := by
  cases acted h with
  | read ec hreading hopen =>
    refine ⟨rfl, rfl, fun hm => ?_⟩
    cases ec
    · exact hopen.resolve_right Bool.false_ne_true
    · exact absurd hm (by simp)
  | write ec => exact ⟨rfl, rfl, fun hm => absurd hm (by simp)⟩
  | timer => exact ⟨rfl, rfl, fun hm => absurd hm (by simp)⟩
  | reset => exact ⟨rfl, rfl, fun hm => absurd hm List.not_mem_nil⟩
  | post hmap htask => rcases htask with rfl | rfl <;> exact ⟨rfl, rfl, fun hm => absurd hm (by simp)⟩
  | unknown => exact ⟨rfl, rfl, fun hm => absurd hm List.not_mem_nil⟩

end Session

structure ContextKept (v : SessionView) : Prop where
  noParse : NoParseAfterClose v
  closed : .protoContextClose ∈ v.log → v.state.isOpen = false ∧ .handleRead false ∉ v.queue

section Step

variable {v : SessionView}

lemma ContextKept.harmless (h : ContextKept v) {e : SessionEffect} (he : Session.Harmless v.state e)
    (hparse : .parse ∈ e.notes → .protoContextClose ∉ v.log) : ContextKept (v.after e) := by
  constructor
  · apply before_append h.noParse
    intro before after hnotes
    have hm : Note.parse ∈ e.notes := hnotes ▸ List.mem_append_right _ List.mem_cons_self
    have hbefore : Note.protoContextClose ∉ before := fun hb => he.notes (hnotes ▸ List.mem_append_left _ hb)
    exact List.not_mem_append (hparse hm) hbefore
  · intro hm
    obtain ⟨hclosed, hqueue⟩ := h.closed ((List.mem_append.mp hm).resolve_right he.notes)
    exact ⟨he.isOpen.trans hclosed, List.not_mem_append hqueue he.posts⟩

lemma ContextKept.close (h : ContextKept v) {rest : List NetTask} (hqueue : v.queue = .doSessionCloseInNetLoop :: rest)
    (hread : v.state.m_funSessionProtoContextClose = true → .handleRead false ∉ v.queue) :
    ContextKept (PartyView.after { v with queue := rest } v.state.doSessionCloseInNetLoop) := by
  have hsplit : ∀ t, t ∉ v.queue → t ∉ rest ++ [] := by
    intro t ht hm
    rw [List.append_nil] at hm
    exact ht (hqueue ▸ List.mem_cons_of_mem _ hm)
  constructor
  · apply before_append h.noParse
    intro before after hnotes
    have hm : .parse ∈ (v.state.onNetLoop .doSessionCloseInNetLoop true).notes :=
      hnotes ▸ List.mem_append_right _ List.mem_cons_self
    exact absurd (Session.eq_handleRead_of_parse hm) nofun
  · intro hm
    refine ⟨rfl, ?_⟩
    cases hclose : v.state.m_funSessionProtoContextClose
    · rw [PartyView.after, Session.doSessionCloseInNetLoop, hclose] at hm
      exact hsplit _ (h.closed (by simpa using hm)).2
    · exact hsplit _ (hread hclose)

lemma ContextKept.onNetLoop (h : ContextKept v) {t : NetTask} {rest : List NetTask} (hqueue : v.queue = t :: rest)
    {found : Bool} (hQ : ReadsHandled v (.loop found)) :
    ContextKept (PartyView.after { v with queue := rest } (v.state.onNetLoop t found)) := by
  by_cases ht : t = .doSessionCloseInNetLoop
  · subst ht
    exact h.close hqueue (hQ (hqueue ▸ rfl))
  · have hpop : ContextKept { v with queue := rest } :=
      ⟨h.noParse, fun hm => ⟨(h.closed hm).1, fun hread => (h.closed hm).2 (hqueue ▸ List.mem_cons_of_mem _ hread)⟩⟩
    apply hpop.harmless (Session.harmless_onNetLoop v.state ht found)
    intro hparse hm
    exact (h.closed hm).2 (hqueue ▸ Session.eq_handleRead_of_parse hparse ▸ List.mem_cons_self)

end Step

theorem kept_context : NetModule.Kept ContextKept ReadsHandled where
  onAccept loop http := ⟨fun before after h => absurd h.symm (List.append_ne_nil_of_right_ne_nil _ (List.cons_ne_nil _ _)),
    fun hm => absurd hm List.not_mem_nil⟩
  onConnect loop http _ _ :=
    ⟨fun before after h => absurd h.symm (List.append_ne_nil_of_right_ne_nil _ (List.cons_ne_nil _ _)),
      fun hm => absurd hm List.not_mem_nil⟩
  step := by
    intro v pe v' h hQ hstep
    cases pe with
    | loop found =>
      obtain ⟨t, rest, hqueue, rfl⟩ := PartyView.step_loop hstep
      exact h.onNetLoop hqueue hQ
    | main =>
      obtain ⟨u, rest, -, ⟨-, rfl⟩ | ⟨e, he, rfl⟩⟩ := PartyView.step_main hstep
      · exact ⟨h.noParse, h.closed⟩
      · have hpop : ContextKept { v with main := rest } := ⟨h.noParse, h.closed⟩
        obtain ⟨hharmless, hparse⟩ := Session.harmless_onMainLoop he
        exact hpop.harmless hharmless fun hm => absurd hm hparse
    | act io =>
      obtain ⟨e, he, rfl⟩ := PartyView.step_act hstep
      obtain ⟨hopen, hnotes, hread⟩ := Session.act_handleRead he
      have hlog : (v.after e).log = v.log := by rw [PartyView.after, hnotes, List.append_nil]
      constructor
      · rw [NoParseAfterClose, hlog]
        exact h.noParse
      · intro hm
        obtain ⟨hclosed, hqueue⟩ := h.closed (hlog ▸ hm)
        refine ⟨hopen.trans hclosed, List.not_mem_append hqueue fun hm => ?_⟩
        rw [hread hm] at hclosed
        cases hclosed

namespace NetModule

/-- In every run in which a context is handed over only while no successful read waits, no parser is used after
it has been handed over. -/
theorem no_parse_after_close {es : List NetEvent} (hmeets : StepsMeet step (fun _ => Meets ReadsHandled) start es) :
    ∀ done, done <+: es → ∀ net, run step start done = some net → ∀ id v, net.view id = some v → NoParseAfterClose v := by
  intro done hd net hrun id v hv
  have hholds : Holds ContextKept net := (hmeets.of_initial hd).invariant holds_start
    (fun hi hc hone => kept_context.step_holds hi hc hone) hrun
  exact (hholds.views id v hv).noParse

/-- Session 1 is accepted and idle until its timer expires; then a request comes, is parsed, and the close is posted
before the next read has ended. -/
def timedOut : List NetEvent :=
  [.listen 0, .onAccept 0 false 1 true, .loops (.loop 1 true), .loops .main, .loops (.act 1 .timerExpires),
    .loops (.act 1 (.readCompletes false)), .loops (.loop 1 true), .loops (.loop 1 true)]

/-- The close is run first, and the next read ends with an error. -/
theorem timedOut_no_parse : ∃ net, run step start (timedOut ++ [.loops (.loop 1 true),
      .loops (.act 1 (.readCompletes true)), .loops (.loop 1 true)]) = some net ∧
    ∃ v, net.view 1 = some v ∧ v.log = [.netEmplace, .mainEmplace, .parse, .protoContextClose] ∧
      NoParseAfterClose v := by
  have hmeets : StepsMeet step (fun _ => Meets ReadsHandled) start (timedOut ++ [.loops (.loop 1 true),
      .loops (.act 1 (.readCompletes true)), .loops (.loop 1 true)]) :=
    stepsMeet_of_checkSteps (fun _ _ => of_decide_eq_true)
      (show checkSteps step (fun net e => decide (Meets ReadsHandled net e)) start _ = true by decide)
  exact ⟨_, rfl, _, rfl, rfl, no_parse_after_close hmeets _ List.prefix_rfl _ rfl 1 _ rfl⟩

/-- More bytes have come before the close is run, and their handler runs after it. -/
theorem timedOut_parses_after_close : ∃ net, run step start (timedOut ++ [.loops (.act 1 (.readCompletes false)),
      .loops (.loop 1 true), .loops (.loop 1 true)]) = some net ∧
    ∃ v, net.view 1 = some v ∧ ¬ NoParseAfterClose v := by
  refine ⟨_, rfl, _, rfl, fun h => ?_⟩
  exact h [.netEmplace, .mainEmplace, .parse, .protoContextClose] [] rfl (by decide)

end NetModule

end TonyCat.Net
