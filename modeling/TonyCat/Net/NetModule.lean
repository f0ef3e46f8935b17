import TonyCat.Library.PartyLoops

set_option autoImplicit false

/-! `NetModule`: the sessions that are accepted, or connected at the first attempt, with the tasks that move
between the main loop and their net loops. -/

namespace TonyCat.Net

open TonyCat.Library

/-- The two maps have a session under its own id. -/
structure Session where
  /-- made by `Accept`, else by `Connect` -/
  accepted : Bool
  /-- its read callback is `NetHttpModule::ReadData` -/
  http : Bool
  funOnSessionConnect : Bool
  funOnSessionClose : Bool
  /-- `GetLoop()` -/
  loop : ℕ
  isOpen : Bool
  /-- the connection is lost, and `remote_endpoint()` with it -/
  peerReset : Bool
  /-- an `async_read_some` is under way -/
  reading : Bool
  /-- an `async_write_some` is under way -/
  writing : Bool
  m_onWriting : Bool
  m_timerSessionAlive : Bool
  m_pSessionContext : Bool
  m_funSessionProtoContextClose : Bool
  m_funSessionClose : Bool
  t_mapSessionInNetLoop : Bool
  m_mapSession : Bool
  deriving DecidableEq

/-- The tasks of a net loop; the first is the one that `Accept` and `Connect` post. -/
inductive NetTask
  | register
  | handleRead (ec : Bool)
  | handleWrite (ec : Bool)
  | write
  | doTimerSessionReadTimeout
  | doSessionCloseInNetLoop
  | erase
  deriving DecidableEq

inductive MainTask
  | register
  | funSessionClose
  | removeMapSession
  | deleteContext
  deriving DecidableEq

inductive Note
  | netEmplace
  | mainEmplace
  | connectCb
  | closeCb
  | protoContextClose
  | removed
  | parse
  deriving DecidableEq

/-- What comes to a session from the system or from the modules on the main loop. -/
inductive IoEvent
  | readCompletes (ec : Bool)
  | writeCompletes (ec : Bool)
  | timerExpires
  | peerResets
  | closeInMainLoop
  | writeData

abbrev SessionEffect := Effect Session NetTask MainTask Note

namespace Session

def quiet (s : Session) : SessionEffect := ⟨s, [], [], []⟩

def doSessionRead (s : Session) : Session := { s with reading := true }

def doSessionWrite (s : Session) : Session :=
  if s.m_onWriting then s else { s with m_onWriting := true, writing := true }

/-- Nothing clears `m_pSessionContext`. -/
def doSessionCloseInNetLoop (s : Session) : SessionEffect where
  state := { s with isOpen := false, m_funSessionProtoContextClose := false, m_funSessionClose := false }
  posts := []
  mainPosts := (if s.m_funSessionProtoContextClose then [.deleteContext] else []) ++
    (if s.m_funSessionClose then [.funSessionClose] else []) ++ [.removeMapSession]
  notes := if s.m_funSessionProtoContextClose then [.protoContextClose] else []

/-- The session of `NetHttpModule::ReadData` with a parser as its context. -/
def withContext (s : Session) : Session :=
  if s.m_pSessionContext then s else { s with m_pSessionContext := true, m_funSessionProtoContextClose := true }

/-- `NetHttpModule::ReadData` on a buffer that is not empty; `good`: no `Parse` of its loop answers bad. The answer to a
bad request is that of a build without assertions: `GetSessionInMainLoop` asserts that it is on the main loop. -/
def readHttp (s : Session) (good : Bool) : SessionEffect × Bool :=
  if s.t_mapSessionInNetLoop = false then (s.quiet, false)
  else if good then (⟨s.withContext, [], [], [.parse]⟩, true)
  else (⟨s.withContext.doSessionWrite, if s.m_mapSession then [.write] else [], [], [.parse]⟩, false)

def readData (s : Session) (good : Bool) : SessionEffect × Bool :=
  if s.http then s.readHttp good else (s.quiet, good)

/-- `DoSessionAsyncClose` after what the callback did, if it returned false. -/
def closeUnless (read : SessionEffect × Bool) : SessionEffect :=
  if read.2 then read.1 else { read.1 with posts := read.1.posts ++ [.doSessionCloseInNetLoop] }

def onReadSession (s : Session) (good : Bool) : SessionEffect :=
  if s.t_mapSessionInNetLoop = false then s.quiet
  else
    let e := closeUnless (s.readData good)
    { e with state := { e.state with m_timerSessionAlive := true } }

def handleSessionRead (s : Session) (good : Bool) : SessionEffect :=
  if s.accepted then s.onReadSession good else closeUnless (s.readData good)

/-- A task of the net loop. `found`: the read callback accepts the bytes, the write buffer has more of them. -/
def onNetLoop (s : Session) (task : NetTask) (found : Bool) : SessionEffect :=
  match task with
  | .register =>
    ⟨{ s with t_mapSessionInNetLoop := true, m_timerSessionAlive := s.m_timerSessionAlive || s.accepted }, [],
      [.register], [.netEmplace]⟩
  | .handleRead ec =>
    if ec then ⟨s, [.doSessionCloseInNetLoop], [], []⟩
    else
      let e := s.handleSessionRead found
      { e with state := e.state.doSessionRead }
  | .handleWrite ec =>
    let s := { s with m_onWriting := false }
    if ec then ⟨s, [.doSessionCloseInNetLoop], [], []⟩
    else if found then s.doSessionWrite.quiet
    else s.quiet
  | .write => s.doSessionWrite.quiet
  | .doTimerSessionReadTimeout => ⟨s, if s.t_mapSessionInNetLoop then [.doSessionCloseInNetLoop] else [], [], []⟩
  | .doSessionCloseInNetLoop => s.doSessionCloseInNetLoop
  | .erase => { s with t_mapSessionInNetLoop := false }.quiet

/-- `remote_endpoint()` of the task that `Accept` posts throws when there is none, and nothing catches that. -/
def registerMain (s : Session) : Option SessionEffect :=
  if s.accepted then
    if s.isOpen ∧ s.peerReset = false then
      some ⟨{ s with m_mapSession := true }.doSessionRead, [], [], [.mainEmplace]⟩
    else none
  else
    some ⟨{ s with m_mapSession := true }, [], [],
      .mainEmplace :: if s.funOnSessionConnect then [.connectCb] else []⟩

def eraseMain (s : Session) (notes : List Note) : SessionEffect :=
  ⟨{ s with m_mapSession := false }, if s.m_mapSession then [.erase] else [], [], notes⟩

def onMainLoop (s : Session) : MainTask → Option SessionEffect
  | .register => s.registerMain
  | .funSessionClose => some (s.eraseMain (if s.funOnSessionClose then [.closeCb] else []))
  | .removeMapSession => some (s.eraseMain [.removed])
  | .deleteContext => some s.quiet

/-- A read or write ends without an error only while the socket is open. -/
def act (s : Session) : IoEvent → Option SessionEffect
  | .readCompletes ec =>
    if s.reading ∧ (s.isOpen ∨ ec) then some ⟨{ s with reading := false }, [.handleRead ec], [], []⟩ else none
  | .writeCompletes ec =>
    if s.writing ∧ (s.isOpen ∨ ec) then some ⟨{ s with writing := false }, [.handleWrite ec], [], []⟩ else none
  | .timerExpires =>
    if s.m_timerSessionAlive then some ⟨{ s with m_timerSessionAlive := false }, [.doTimerSessionReadTimeout], [], []⟩
    else none
  | .peerResets => some { s with peerReset := true }.quiet
  | .closeInMainLoop => some ⟨s, if s.m_mapSession then [.doSessionCloseInNetLoop] else [], [], []⟩
  | .writeData => some ⟨s, if s.m_mapSession then [.write] else [], [], []⟩

def new (loop : ℕ) (http : Bool) : Session where
  accepted := false
  http := http
  funOnSessionConnect := false
  funOnSessionClose := false
  loop := loop
  isOpen := true
  peerReset := false
  reading := false
  writing := false
  m_onWriting := false
  m_timerSessionAlive := false
  m_pSessionContext := false
  m_funSessionProtoContextClose := false
  m_funSessionClose := false
  t_mapSessionInNetLoop := false
  m_mapSession := false

def onAccept (loop : ℕ) (http : Bool) : SessionEffect :=
  ⟨{ new loop http with accepted := true }, [.register], [], []⟩

/-- The first attempt has connected. A close callback is set in any case, and the first read starts at once. -/
def onConnect (loop : ℕ) (http funOnSessionConnect funOnSessionClose : Bool) : SessionEffect :=
  let s := { new loop http with funOnSessionConnect, funOnSessionClose, m_funSessionClose := true }
  ⟨s.doSessionRead, [.register], [], []⟩

/-! ### A handler keeps what a session is made with -/

structure SameMake (s s' : Session) : Prop where
  accepted : s'.accepted = s.accepted
  funOnSessionConnect : s'.funOnSessionConnect = s.funOnSessionConnect
  loop : s'.loop = s.loop

lemma SameMake.trans {s s' s'' : Session} (h : SameMake s s') (h' : SameMake s' s'') : SameMake s s'' where
  accepted := h'.accepted.trans h.accepted
  funOnSessionConnect := h'.funOnSessionConnect.trans h.funOnSessionConnect
  loop := h'.loop.trans h.loop

lemma sameMake_doSessionWrite (s : Session) : SameMake s s.doSessionWrite := by
  rw [doSessionWrite]
  split
  · exact ⟨rfl, rfl, rfl⟩
  · exact ⟨rfl, rfl, rfl⟩

lemma sameMake_withContext (s : Session) : SameMake s s.withContext := by
  rw [withContext]
  split
  · exact ⟨rfl, rfl, rfl⟩
  · exact ⟨rfl, rfl, rfl⟩

lemma sameMake_readData (s : Session) (good : Bool) : SameMake s (s.readData good).1.state := by
  rw [readData, readHttp]
  split
  case isFalse => exact ⟨rfl, rfl, rfl⟩
  case isTrue =>
    split
    case isTrue => exact ⟨rfl, rfl, rfl⟩
    case isFalse =>
      split
      · exact sameMake_withContext s
      · exact (sameMake_withContext s).trans (sameMake_doSessionWrite _)

lemma sameMake_closeUnless {s : Session} {read : SessionEffect × Bool} (h : SameMake s read.1.state) :
    SameMake s (closeUnless read).state := by
  rw [closeUnless]
  split
  · exact h
  · exact h

lemma sameMake_handleSessionRead (s : Session) (good : Bool) : SameMake s (s.handleSessionRead good).state := by
  have hread := sameMake_closeUnless (sameMake_readData s good)
  rw [handleSessionRead, onReadSession]
  split
  case isFalse => exact hread
  case isTrue =>
    split
    · exact ⟨rfl, rfl, rfl⟩
    · exact ⟨hread.accepted, hread.funOnSessionConnect, hread.loop⟩

lemma sameMake_onNetLoop (s : Session) (task : NetTask) (found : Bool) : SameMake s (s.onNetLoop task found).state := by
  cases task with
  | handleRead ec =>
    rw [onNetLoop]
    split
    · exact ⟨rfl, rfl, rfl⟩
    · obtain ⟨haccepted, hconnect, hloop⟩ := sameMake_handleSessionRead s found
      exact ⟨haccepted, hconnect, hloop⟩
  | handleWrite ec =>
    simp only [onNetLoop]
    split
    · exact ⟨rfl, rfl, rfl⟩
    · split
      · obtain ⟨haccepted, hconnect, hloop⟩ := sameMake_doSessionWrite { s with m_onWriting := false }
        exact ⟨haccepted, hconnect, hloop⟩
      · exact ⟨rfl, rfl, rfl⟩
  | write => exact sameMake_doSessionWrite s
  | _ => exact ⟨rfl, rfl, rfl⟩

lemma sameMake_onMainLoop {s : Session} {task : MainTask} {e : SessionEffect} (h : s.onMainLoop task = some e) :
    SameMake s e.state := by
  cases task with
  | register =>
    rw [onMainLoop, registerMain] at h
    split at h
    · split at h
      · cases h
        exact ⟨rfl, rfl, rfl⟩
      · cases h
    · cases h
      exact ⟨rfl, rfl, rfl⟩
  | _ =>
    cases h
    exact ⟨rfl, rfl, rfl⟩

inductive Acted (s : Session) : SessionEffect → Prop
  | read (ec : Bool) (hreading : s.reading = true) (hopen : s.isOpen = true ∨ ec = true) :
    Acted s ⟨{ s with reading := false }, [.handleRead ec], [], []⟩
  | write (ec : Bool) (hwriting : s.writing = true) : Acted s ⟨{ s with writing := false }, [.handleWrite ec], [], []⟩
  | timer (htimer : s.m_timerSessionAlive = true) :
    Acted s ⟨{ s with m_timerSessionAlive := false }, [.doTimerSessionReadTimeout], [], []⟩
  | reset : Acted s { s with peerReset := true }.quiet
  | post {task : NetTask} (hmap : s.m_mapSession = true) (htask : task = .doSessionCloseInNetLoop ∨ task = .write) :
    Acted s ⟨s, [task], [], []⟩
  | unknown : Acted s s.quiet

lemma acted {s : Session} {io : IoEvent} {e : SessionEffect} (h : s.act io = some e) : Acted s e := by
  cases io with
  | readCompletes ec =>
    obtain ⟨⟨hreading, hopen⟩, he⟩ := Option.ite_none_right_eq_some.mp h
    cases he
    exact .read ec hreading hopen
  | writeCompletes ec =>
    obtain ⟨⟨hwriting, -⟩, he⟩ := Option.ite_none_right_eq_some.mp h
    cases he
    exact .write ec hwriting
  | timerExpires =>
    obtain ⟨htimer, he⟩ := Option.ite_none_right_eq_some.mp h
    cases he
    exact .timer htimer
  | peerResets =>
    cases h
    exact .reset
  | closeInMainLoop =>
    cases h
    cases hmap : s.m_mapSession
    · exact .unknown
    · exact .post hmap (.inl rfl)
  | writeData =>
    cases h
    cases hmap : s.m_mapSession
    · exact .unknown
    · exact .post hmap (.inr rfl)

lemma sameMake_act {s : Session} {io : IoEvent} {e : SessionEffect} (h : s.act io = some e) : SameMake s e.state := by
  cases acted h <;> exact ⟨rfl, rfl, rfl⟩

end Session

abbrev SessionView := PartyView Session NetTask MainTask Note

def sessions : PartySystem Session NetTask MainTask Note Bool IoEvent where
  home := Session.loop
  onLoop := Session.onNetLoop
  onMain := Session.onMainLoop
  act := Session.act
  home_onLoop s task found := (Session.sameMake_onNetLoop s task found).loop
  home_onMain _ _ _ h := (Session.sameMake_onMainLoop h).loop
  home_act _ _ _ h := (Session.sameMake_act h).loop

structure NetModule where
  m_nextSessionId : ℕ
  /-- the id of the session that an acceptor waits with -/
  waiting : ℕ → Option ℕ
  loops : PartyLoops Session NetTask MainTask Note

inductive NetEvent
  | listen (acceptor : ℕ)
  /-- `loop` is the one that the work loops of the acceptor give the session -/
  | onAccept (acceptor : ℕ) (ec : Bool) (loop : ℕ) (http : Bool)
  | onConnect (loop : ℕ) (http funOnSessionConnect funOnSessionClose : Bool)
  | loops (e : LoopEvent Bool IoEvent)

namespace NetModule

def start : NetModule := ⟨0, fun _ => none, .init⟩

def createSessionId (net : NetModule) : ℕ := net.m_nextSessionId + 1

def accept (net : NetModule) (acceptor : ℕ) : NetModule :=
  { net with
    m_nextSessionId := net.createSessionId
    waiting := Function.update net.waiting acceptor (some net.createSessionId) }

/-- Nothing runs after an exception that nothing has caught. -/
def step (net : NetModule) (e : NetEvent) : Option NetModule :=
  if net.loops.stopped then none
  else match e with
    | .listen acceptor => if net.waiting acceptor = none then some (net.accept acceptor) else none
    | .onAccept acceptor ec loop http => (net.waiting acceptor).map fun id =>
      let net := if ec then net else { net with loops := net.loops.enter sessions id (Session.onAccept loop http) }
      net.accept acceptor
    | .onConnect loop http funOnSessionConnect funOnSessionClose =>
      let e := Session.onConnect loop http funOnSessionConnect funOnSessionClose
      some { net with
        m_nextSessionId := net.createSessionId
        loops := net.loops.enter sessions net.createSessionId e }
    | .loops e => (net.loops.step sessions e).map fun loops => { net with loops := loops }

def view (net : NetModule) (id : ℕ) : Option SessionView := net.loops.view sessions id

structure WellFormed (net : NetModule) : Prop where
  consistent : net.loops.Consistent sessions
  fresh : ∀ id, net.m_nextSessionId < id → net.loops.parties id = none
  waiting : ∀ acceptor id, net.waiting acceptor = some id → id ≤ net.m_nextSessionId ∧ net.loops.parties id = none
  distinct : ∀ acceptor other id, net.waiting acceptor = some id → net.waiting other = some id → acceptor = other

lemma wellFormed_start : WellFormed start where
  consistent := PartyLoops.consistent_init
  fresh _ _ := rfl
  waiting _ _ h := by cases h
  distinct _ _ _ h := by cases h

variable {net net' : NetModule}

lemma WellFormed.accept (h : WellFormed net) (acceptor : ℕ) : WellFormed (net.accept acceptor) := by
  have hself : (net.accept acceptor).waiting acceptor = some (net.m_nextSessionId + 1) := Function.update_self ..
  have hold : ∀ other, other ≠ acceptor → (net.accept acceptor).waiting other = net.waiting other :=
    fun other hne => Function.update_of_ne hne ..
  refine ⟨h.consistent, fun id hlt => h.fresh id (Nat.lt_of_succ_lt hlt), fun other id hw => ?_, ?_⟩
  · by_cases hother : other = acceptor
    · rw [hother, hself] at hw
      cases hw
      exact ⟨le_refl _, h.fresh _ (Nat.lt_succ_self _)⟩
    · rw [hold other hother] at hw
      obtain ⟨hle, hnone⟩ := h.waiting other id hw
      exact ⟨Nat.le_succ_of_le hle, hnone⟩
  · have hnew : ∀ other id, other ≠ acceptor → (net.accept acceptor).waiting other = some id →
        id ≠ net.m_nextSessionId + 1 := by
      intro other id hne hw
      rw [hold other hne] at hw
      exact Nat.ne_of_lt (Nat.lt_succ_of_le (h.waiting other id hw).1)
    intro one other id h₁ h₂
    by_cases hone : one = acceptor
    · by_cases hother : other = acceptor
      · rw [hone, hother]
      · rw [hone, hself] at h₁
        exact absurd (Option.some.inj h₁).symm (hnew other id hother h₂)
    · by_cases hother : other = acceptor
      · rw [hother, hself] at h₂
        exact absurd (Option.some.inj h₂).symm (hnew one id hone h₁)
      · rw [hold one hone] at h₁
        rw [hold other hother] at h₂
        exact h.distinct one other id h₁ h₂

def handOver (net : NetModule) (acceptor : ℕ) : NetModule :=
  { net with waiting := Function.update net.waiting acceptor none }

lemma accept_handOver (net : NetModule) (acceptor : ℕ) : (net.handOver acceptor).accept acceptor = net.accept acceptor := by
  simp [NetModule.accept, handOver, createSessionId]

lemma waiting_handOver {acceptor other id : ℕ} (h : (net.handOver acceptor).waiting other = some id) :
    other ≠ acceptor ∧ net.waiting other = some id := by
  by_cases hother : other = acceptor
  · subst hother
    simp [handOver] at h
  · rw [handOver] at h
    exact ⟨hother, by rwa [← Function.update_of_ne hother none net.waiting]⟩

lemma WellFormed.handOver (h : WellFormed net) (acceptor : ℕ) : WellFormed (net.handOver acceptor) where
  consistent := h.consistent
  fresh := h.fresh
  waiting other id hw := h.waiting other id (waiting_handOver hw).2
  distinct one other id h₁ h₂ := h.distinct one other id (waiting_handOver h₁).2 (waiting_handOver h₂).2

lemma WellFormed.enter (h : WellFormed net) {id : ℕ} (hle : id ≤ net.m_nextSessionId)
    (hnone : net.loops.parties id = none) (hnot : ∀ acceptor, net.waiting acceptor ≠ some id) (e : SessionEffect) :
    WellFormed { net with loops := net.loops.enter sessions id e } where
  consistent := h.consistent.enter hnone e
  fresh other hlt := by
    rw [PartyLoops.enter, PartyLoops.parties_apply_of_ne e (Nat.ne_of_gt (Nat.lt_of_le_of_lt hle hlt))]
    exact h.fresh other hlt
  waiting acceptor other hw := by
    have hne : other ≠ id := fun heq => hnot acceptor (heq ▸ hw)
    rw [PartyLoops.enter, PartyLoops.parties_apply_of_ne e hne]
    exact h.waiting acceptor other hw
  distinct := h.distinct

lemma WellFormed.createSessionId (h : WellFormed net) :
    WellFormed { net with m_nextSessionId := net.createSessionId } where
  consistent := h.consistent
  fresh id hlt := h.fresh id (Nat.lt_of_succ_lt hlt)
  waiting acceptor id hw := ⟨Nat.le_succ_of_le (h.waiting acceptor id hw).1, (h.waiting acceptor id hw).2⟩
  distinct := h.distinct

/-! ### What a step of the system is for one session -/

def Meets (Q : SessionView → PartyEvent Bool IoEvent → Prop) (net : NetModule) : NetEvent → Prop
  | .loops e => net.loops.Meets sessions Q e
  | _ => True

instance (Q : SessionView → PartyEvent Bool IoEvent → Prop) [∀ v pe, Decidable (Q v pe)] (net : NetModule) (e : NetEvent) :
    Decidable (Meets Q net e) :=
  match e with
  | .listen _ | .onAccept .. | .onConnect .. => isTrue trivial
  | .loops e => inferInstanceAs (Decidable (net.loops.Meets sessions Q e))

def made (e : SessionEffect) : SessionView := ⟨e.state, e.posts, e.mainPosts, e.notes⟩

inductive Evolves (Q : SessionView → PartyEvent Bool IoEvent → Prop) : Option SessionView → SessionView → Prop
  | same (v : SessionView) : Evolves Q (some v) v
  | steps {v v' : SessionView} {pe : PartyEvent Bool IoEvent} (hQ : Q v pe) (hstep : v.step sessions pe = some v') :
    Evolves Q (some v) v'
  | onAccept (loop : ℕ) (http : Bool) : Evolves Q none (made (Session.onAccept loop http))
  | onConnect (loop : ℕ) (http funOnSessionConnect funOnSessionClose : Bool) :
    Evolves Q none (made (Session.onConnect loop http funOnSessionConnect funOnSessionClose))

structure Evolved (Q : SessionView → PartyEvent Bool IoEvent → Prop) (net net' : NetModule) : Prop where
  wellFormed : WellFormed net'
  stays : ∀ id, net.view id ≠ none → net'.view id ≠ none
  views : ∀ id v', net'.view id = some v' → Evolves Q (net.view id) v'

variable {Q : SessionView → PartyEvent Bool IoEvent → Prop}

lemma evolves_of_eq {id : ℕ} {v' : SessionView} (h : net.view id = some v') : Evolves Q (net.view id) v' := by
  rw [h]
  exact .same v'

lemma evolved_enter (h : WellFormed net) {id : ℕ} (hle : id ≤ net.m_nextSessionId) (hnone : net.loops.parties id = none)
    (hnot : ∀ acceptor, net.waiting acceptor ≠ some id) {e : SessionEffect} (he : Evolves Q none (made e)) :
    Evolved Q net { net with loops := net.loops.enter sessions id e } where
  wellFormed := h.enter hle hnone hnot e
  stays other hsome := by
    have hother : other ≠ id := by
      rintro rfl
      exact hsome (PartyLoops.view_eq_none.mpr hnone)
    rwa [view, PartyLoops.view_enter_of_ne hother]
  views other v hv := by
    by_cases hother : other = id
    · subst hother
      rw [view, PartyLoops.view_enter_self h.consistent hnone] at hv
      cases hv
      rw [view, PartyLoops.view_eq_none.mpr hnone]
      exact he
    · rw [view, PartyLoops.view_enter_of_ne hother] at hv
      exact evolves_of_eq hv

theorem step_evolved (h : WellFormed net) {e : NetEvent} (hQ : Meets Q net e) (hstep : net.step e = some net') :
    Evolved Q net net' := by
  obtain ⟨-, hstep⟩ := Option.ite_none_left_eq_some.mp hstep
  cases e with
  | listen acceptor =>
    obtain ⟨-, hnet⟩ := Option.ite_none_right_eq_some.mp hstep
    cases hnet
    exact ⟨h.accept acceptor, fun _ hsome => hsome, fun _ _ => evolves_of_eq⟩
  | onAccept acceptor ec loop http =>
    obtain ⟨id, hwaiting, rfl⟩ := Option.map_eq_some_iff.mp hstep
    cases ec with
    | true => exact ⟨h.accept acceptor, fun _ hsome => hsome, fun _ _ => evolves_of_eq⟩
    | false =>
      obtain ⟨hle, hnone⟩ := h.waiting acceptor id hwaiting
      have hnot : ∀ other, (net.handOver acceptor).waiting other ≠ some id := by
        intro other hw
        obtain ⟨hne, hw⟩ := waiting_handOver hw
        exact hne (h.distinct other acceptor id hw hwaiting)
      have hentered := evolved_enter (Q := Q) (h.handOver acceptor) hle hnone hnot (.onAccept loop http)
      have hnext := hentered.wellFormed.accept acceptor
      rw [← accept_handOver]
      exact ⟨hnext, hentered.stays, hentered.views⟩
  | onConnect loop http funOnSessionConnect funOnSessionClose =>
    cases hstep
    have hnone := h.fresh net.createSessionId (Nat.lt_succ_self _)
    have hnot : ∀ acceptor, net.waiting acceptor ≠ some net.createSessionId := by
      intro acceptor hw
      exact Nat.not_succ_le_self _ (h.waiting acceptor _ hw).1
    have hentered := evolved_enter (Q := Q) h.createSessionId (le_refl _) hnone hnot
      (.onConnect loop http funOnSessionConnect funOnSessionClose)
    exact ⟨hentered.wellFormed, hentered.stays, hentered.views⟩
  | loops e =>
    obtain ⟨loops, hloops, rfl⟩ := Option.map_eq_some_iff.mp hstep
    obtain ⟨id, pe, hturn, hturned⟩ := PartyLoops.step_turned h.consistent hloops
    refine ⟨⟨hturned.consistent, fun other hlt => ?_, fun acceptor other hw => ?_, h.distinct⟩, ?_, ?_⟩
    · exact (hturned.parties_eq_none other).mpr (h.fresh other hlt)
    · obtain ⟨hle, hnone⟩ := h.waiting acceptor other hw
      exact ⟨hle, (hturned.parties_eq_none other).mpr hnone⟩
    · intro other hsome hnone
      exact hsome (PartyLoops.view_eq_none.mpr ((hturned.parties_eq_none other).mp (PartyLoops.view_eq_none.mp hnone)))
    · intro other v' hv'
      by_cases hother : other = id
      · subst hother
        obtain ⟨v, w, hv, hone, hw⟩ := hturned.steps
        obtain rfl : w = v' := Option.some.inj (hw.symm.trans hv')
        rw [view, hv]
        exact .steps (hQ other pe v hturn hv) hone
      · rw [view, hturned.frame other hother] at hv'
        exact evolves_of_eq hv'

/-! ### What every session keeps, and what one session keeps -/

structure Kept (J : SessionView → Prop) (Q : SessionView → PartyEvent Bool IoEvent → Prop) : Prop where
  onAccept : ∀ loop http, J (made (Session.onAccept loop http))
  onConnect : ∀ loop http funOnSessionConnect funOnSessionClose,
    J (made (Session.onConnect loop http funOnSessionConnect funOnSessionClose))
  step : ∀ {v pe v'}, J v → Q v pe → v.step sessions pe = some v' → J v'

structure Holds (J : SessionView → Prop) (net : NetModule) : Prop where
  wellFormed : WellFormed net
  views : ∀ id v, net.view id = some v → J v

variable {J : SessionView → Prop}

lemma holds_start : Holds J start where
  wellFormed := wellFormed_start
  views _ _ h := by cases h

theorem Kept.step_holds (hkept : Kept J Q) (h : Holds J net) {e : NetEvent} (hQ : Meets Q net e)
    (hstep : net.step e = some net') : Holds J net' := by
  have hevolved := step_evolved h.wellFormed hQ hstep
  refine ⟨hevolved.wellFormed, fun id v' hv' => ?_⟩
  have hone := hevolved.views id v' hv'
  generalize hold : net.view id = old at hone
  cases hone with
  | same => exact h.views id v' hold
  | steps hv hstep => exact hkept.step (h.views id _ hold) hv hstep
  | onAccept loop http => exact hkept.onAccept loop http
  | onConnect loop http funOnSessionConnect funOnSessionClose =>
    exact hkept.onConnect loop http funOnSessionConnect funOnSessionClose

theorem Kept.run_one (hkept : Kept J Q) {R : SessionView → Prop}
    (hR : ∀ {v pe v'}, J v → R v → Q v pe → v.step sessions pe = some v' → R v') {es : List NetEvent}
    (hQ : StepsMeet NetModule.step (fun _ => Meets Q) net es) (h : Holds J net) {id : ℕ} {v v' : SessionView}
    (hv : net.view id = some v) (hRv : R v) (hrun : run NetModule.step net es = some net') (hv' : net'.view id = some v') : R v' := by
  have hholds : Holds J net' ∧ ∃ v, net'.view id = some v ∧ R v := by
    apply hQ.invariant (I := fun net => Holds J net ∧ ∃ v, net.view id = some v ∧ R v) ⟨h, v, hv, hRv⟩ ?_ hrun
    rintro done mid e last ⟨hmid, w, hw, hRw⟩ hmeets hstep
    have hevolved := step_evolved hmid.wellFormed hmeets hstep
    obtain ⟨w', hw'⟩ := Option.ne_none_iff_exists'.mp (hevolved.stays id (hw ▸ Option.some_ne_none w))
    refine ⟨hkept.step_holds hmid hmeets hstep, w', hw', ?_⟩
    have hone := hevolved.views id w' hw'
    rw [hw] at hone
    cases hone with
    | same => exact hRw
    | steps hQw hsteps => exact hR (hmid.views id w hw) hRw hQw hsteps
  obtain ⟨-, w, hw, hRw⟩ := hholds
  exact Option.some.inj (hw.symm.trans hv') ▸ hRw

end NetModule

end TonyCat.Net
