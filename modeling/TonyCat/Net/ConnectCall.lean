import TonyCat.Net.SessionLifecycle

set_option autoImplicit false

/-! `NetModule::Connect`: the attempts of a call, the session it makes, and what is reported of it. -/

namespace TonyCat.Net

open TonyCat.Library

/-- `callback`: `DoSessionConnect` was given one, as it is by `Connect` and not by the retry. -/
inductive Attempt
  | posted
  | connecting (callback : Bool)
  | connected (callback : Bool)
  | failed
  deriving DecidableEq

/-- A call with its session, which is in no map before it has an id. -/
structure ConnectCall where
  session : Session
  m_nSessionId : ℕ
  attempt : Attempt

inductive ConnectTask
  | doSessionConnect
  | session (task : MainTask)
  deriving DecidableEq

inductive ConnectNote
  | funSessionRead (nSessionId : ℕ)
  | funOnSessionConnect (nSessionId : ℕ) (bSuccess : Bool)
  | session (note : Note)
  deriving DecidableEq

/-- `createSessionId` is what `CreateSessionId` returns if the handler asks it. -/
inductive ConnectIo
  | connectCompletes (ec : Bool) (createSessionId : ℕ)
  | session (io : IoEvent)

abbrev ConnectEffect := Effect ConnectCall NetTask ConnectTask ConnectNote

namespace ConnectCall

def quiet (c : ConnectCall) : ConnectEffect := ⟨c, [], [], []⟩

/-- `async_connect` opens the socket. -/
def doSessionConnect (c : ConnectCall) (callback : Bool) : ConnectCall :=
  { c with session := { c.session with isOpen := true }, attempt := .connecting callback }

def onSessionConnect (c : ConnectCall) (bSuccess : Bool) (createSessionId : ℕ) : ConnectEffect :=
  if bSuccess = false then (c.doSessionConnect false).quiet
  else ⟨{ c with m_nSessionId := createSessionId }, [.register], [], []⟩

def onConnect (c : ConnectCall) (callback ec : Bool) (createSessionId : ℕ) : ConnectEffect :=
  if ec = false then
    let c := { c with attempt := .connected callback }
    let e := if callback then c.onSessionConnect true createSessionId else c.quiet
    { e with state := { e.state with session := e.state.session.doSessionRead } }
  else if callback then c.onSessionConnect false createSessionId
  else { c with attempt := .failed }.quiet

/-- The connect callback gets the `bSuccess` of the first attempt, which is true where the task is posted. -/
def toNote (nSessionId : ℕ) : Note → ConnectNote
  | .connectCb => .funOnSessionConnect nSessionId true
  | note => .session note

def lift (c : ConnectCall) (e : SessionEffect) : ConnectEffect :=
  ⟨{ c with session := e.state }, e.posts, e.mainPosts.map .session, e.notes.map (toNote c.m_nSessionId)⟩

/-- A read without an error hands the buffer to `m_funSessionRead`, with the id that the session has. -/
def onNetLoop (c : ConnectCall) (task : NetTask) (found : Bool) : ConnectEffect :=
  let e := c.lift (c.session.onNetLoop task found)
  { e with notes := (if task = .handleRead false then [.funSessionRead c.m_nSessionId] else []) ++ e.notes }

def onMainLoop (c : ConnectCall) : ConnectTask → Option ConnectEffect
  | .doSessionConnect => some (c.doSessionConnect true).quiet
  | .session task => (c.session.onMainLoop task).map c.lift

def act (c : ConnectCall) : ConnectIo → Option ConnectEffect
  | .connectCompletes ec createSessionId => match c.attempt with
    | .connecting callback => some (c.onConnect callback ec createSessionId)
    | _ => none
  | .session io => (c.session.act io).map c.lift

/-- `Connect`: a session with the id 0 and a close callback, and a task for the main loop. -/
def connect (loop : ℕ) (http funOnSessionConnect funOnSessionClose : Bool) : ConnectEffect where
  state := ⟨{ Session.new loop http with isOpen := false, funOnSessionConnect, funOnSessionClose, m_funSessionClose := true },
    0, .posted⟩
  posts := []
  mainPosts := [.doSessionConnect]
  notes := []

/-! ### A handler keeps what the call was made with -/

lemma sameMake_onConnect (c : ConnectCall) (callback ec : Bool) (createSessionId : ℕ) :
    Session.SameMake c.session (c.onConnect callback ec createSessionId).state.session := by
  cases ec <;> cases callback <;> exact ⟨rfl, rfl, rfl⟩

lemma sameMake_onMainLoop {c : ConnectCall} {task : ConnectTask} {e : ConnectEffect} (h : c.onMainLoop task = some e) :
    Session.SameMake c.session e.state.session := by
  cases task with
  | doSessionConnect =>
    cases h
    exact ⟨rfl, rfl, rfl⟩
  | session task =>
    obtain ⟨e, he, rfl⟩ := Option.map_eq_some_iff.mp h
    exact Session.sameMake_onMainLoop he

lemma sameMake_act {c : ConnectCall} {io : ConnectIo} {e : ConnectEffect} (h : c.act io = some e) :
    Session.SameMake c.session e.state.session := by
  cases io with
  | connectCompletes ec createSessionId =>
    rw [act] at h
    split at h
    · cases h
      exact sameMake_onConnect ..
    · cases h
  | session io =>
    obtain ⟨e, he, rfl⟩ := Option.map_eq_some_iff.mp h
    exact Session.sameMake_act he

end ConnectCall

abbrev ConnectView := PartyView ConnectCall NetTask ConnectTask ConnectNote

def connects : PartySystem ConnectCall NetTask ConnectTask ConnectNote Bool ConnectIo where
  home c := c.session.loop
  onLoop := ConnectCall.onNetLoop
  onMain := ConnectCall.onMainLoop
  act := ConnectCall.act
  home_onLoop c task found := (Session.sameMake_onNetLoop c.session task found).loop
  home_onMain _ _ _ h := (ConnectCall.sameMake_onMainLoop h).loop
  home_act _ _ _ h := (ConnectCall.sameMake_act h).loop

/-- The `Connect` calls of a `NetModule`, and the ids of the sessions that `Accept` made meanwhile. -/
structure NetConnects where
  m_nextSessionId : ℕ
  accepted : List ℕ
  calls : ℕ
  loops : PartyLoops ConnectCall NetTask ConnectTask ConnectNote

inductive ConnectEvent
  | accept
  | connect (loop : ℕ) (http funOnSessionConnect funOnSessionClose : Bool)
  | connectCompletes (call : ℕ) (ec : Bool)
  | loop (loop : ℕ) (found : Bool)
  | main
  | session (call : ℕ) (io : IoEvent)

namespace NetConnects

def start : NetConnects := ⟨0, [], 0, .init⟩

def createSessionId (net : NetConnects) : ℕ := net.m_nextSessionId + 1

/-- The handler of an attempt calls `CreateSessionId`: it is the first and has connected. -/
def creates (net : NetConnects) (call : ℕ) (ec : Bool) : Bool :=
  !ec && (net.loops.parties call).any fun c => c.attempt = .connecting true

def toLoops (net : NetConnects) : ConnectEvent → Option (LoopEvent Bool ConnectIo)
  | .accept | .connect .. => none
  | .connectCompletes call ec => some (.act call (.connectCompletes ec net.createSessionId))
  | .loop loop found => some (.loop loop found)
  | .main => some .main
  | .session call io => some (.act call (.session io))

def nextSessionId (net : NetConnects) : ConnectEvent → ℕ
  | .connectCompletes call ec => if net.creates call ec then net.createSessionId else net.m_nextSessionId
  | .accept => net.createSessionId
  | _ => net.m_nextSessionId

def step (net : NetConnects) (e : ConnectEvent) : Option NetConnects :=
  match e with
  | .accept => some { net with m_nextSessionId := net.nextSessionId e, accepted := net.createSessionId :: net.accepted }
  | .connect loop http funOnSessionConnect funOnSessionClose =>
    let e := ConnectCall.connect loop http funOnSessionConnect funOnSessionClose
    some { net with calls := net.calls + 1, loops := net.loops.enter connects net.calls e }
  | e => (net.toLoops e).bind fun le => (net.loops.step connects le).map fun loops =>
    { net with m_nextSessionId := net.nextSessionId e, loops }

def view (net : NetConnects) (call : ℕ) : Option ConnectView := net.loops.view connects call

end NetConnects

/-! ### What is reported -/

def reports (log : List ConnectNote) : List (ℕ × Bool) :=
  log.filterMap fun
    | .funOnSessionConnect nSessionId bSuccess => some (nSessionId, bSuccess)
    | _ => none

/-- The ids that packets were dispatched with; each read that is handed to `m_funSessionRead` counts, whatever is in
it. -/
def dispatched (log : List ConnectNote) : List ℕ :=
  log.filterMap fun
    | .funSessionRead nSessionId => some nSessionId
    | _ => none

/-- The tasks that wait to enter the session: the one of the net loop posts that of the main loop, which reports. -/
def due (v : ConnectView) : ℕ := v.queue.count .register + v.main.count (.session .register)

/-- A call with a callback is reported at most once, and exactly once when its attempts have resolved and the
task that reports has run. -/
structure Reported (v : ConnectView) : Prop where
  atMostOnce : (reports v.log).length ≤ 1
  connected : ∀ callback, v.state.attempt = .connected callback → due v = 0 →
    reports v.log = [(v.state.m_nSessionId, true)]
  failed : v.state.attempt = .failed → due v = 0 → ∃ nSessionId, reports v.log = [(nSessionId, false)]

@[simp] lemma reports_append (log more : List ConnectNote) : reports (log ++ more) = reports log ++ reports more :=
  List.filterMap_append

@[simp] lemma dispatched_append (log more : List ConnectNote) :
    dispatched (log ++ more) = dispatched log ++ dispatched more :=
  List.filterMap_append

lemma reports_toNote (nSessionId : ℕ) (notes : List Note) :
    reports (notes.map (ConnectCall.toNote nSessionId)) = List.replicate (notes.count .connectCb) (nSessionId, true) := by
  induction notes with
  | nil => rfl
  | cons note notes ih =>
    have hcons : reports ((note :: notes).map (ConnectCall.toNote nSessionId)) =
        reports [ConnectCall.toNote nSessionId note] ++ reports (notes.map (ConnectCall.toNote nSessionId)) :=
      reports_append [_] _
    rw [hcons, ih]
    cases note with
    | connectCb =>
      rw [List.count_cons_self, List.replicate_succ]
      rfl
    | _ =>
      rw [List.count_cons_of_ne (by decide)]
      rfl

lemma dispatched_toNote (nSessionId : ℕ) (notes : List Note) :
    dispatched (notes.map (ConnectCall.toNote nSessionId)) = [] := by
  apply List.filterMap_eq_nil_iff.mpr
  intro note hnote
  obtain ⟨n, -, rfl⟩ := List.mem_map.mp hnote
  cases n <;> rfl

lemma due_after (v : ConnectView) (e : ConnectEffect) :
    due (v.after e) = due v + (e.posts.count .register + e.mainPosts.count (.session .register)) := by
  simp only [due, PartyView.after, List.count_append]
  omega

lemma count_session (tasks : List MainTask) :
    (tasks.map ConnectTask.session).count (.session .register) = tasks.count .register :=
  List.count_map_of_injective tasks _ (fun _ _ h => ConnectTask.session.inj h) _

namespace Session

structure Calm (e : SessionEffect) : Prop where
  posts : .register ∉ e.posts
  mainPosts : .register ∉ e.mainPosts
  notes : .connectCb ∉ e.notes

lemma Steady.calm {s : Session} {e : SessionEffect} (h : Steady s e) : Calm e := by
  refine ⟨h.posts.1, h.mainPosts, fun hm => ?_⟩
  rcases h.notes _ hm with hnote | hnote
  · cases hnote
  · cases hnote

lemma calm_onNetLoop (s : Session) {task : NetTask} (htask : task ≠ .register) (found : Bool) :
    Calm (s.onNetLoop task found) := by
  by_cases herase : task = .erase
  · subst herase
    exact ⟨List.not_mem_nil, List.not_mem_nil, List.not_mem_nil⟩
  · exact (steady_onNetLoop s ⟨htask, herase⟩ found).calm

lemma calm_eraseMain (s : Session) {notes : List Note} (hnotes : .connectCb ∉ notes) : Calm (s.eraseMain notes) := by
  refine ⟨?_, List.not_mem_nil, hnotes⟩
  cases hmap : s.m_mapSession <;> simp [eraseMain, hmap]

lemma calm_onMainLoop {s : Session} {task : MainTask} (htask : task ≠ .register) {e : SessionEffect}
    (he : s.onMainLoop task = some e) : Calm e := by
  cases task with
  | register => exact absurd rfl htask
  | funSessionClose =>
    cases he
    apply calm_eraseMain
    split
    · decide
    · exact List.not_mem_nil
  | removeMapSession =>
    cases he
    exact calm_eraseMain s (by decide)
  | deleteContext =>
    cases he
    exact ⟨List.not_mem_nil, List.not_mem_nil, List.not_mem_nil⟩

end Session

/-! ### The stretches of a call -/

structure Unconnected (v : ConnectView) : Prop where
  queue : v.queue = []
  log : v.log = []
  nSessionId : v.state.m_nSessionId = 0
  reading : v.state.session.reading = false
  writing : v.state.session.writing = false
  timer : v.state.session.m_timerSessionAlive = false
  mainMap : v.state.session.m_mapSession = false

structure Reporting (v : ConnectView) : Prop where
  nonzero : v.state.m_nSessionId ≠ 0
  main : .doSessionConnect ∉ v.main
  once : v.state.session.funOnSessionConnect = true →
    reports v.log ++ List.replicate (due v) (v.state.m_nSessionId, true) = [(v.state.m_nSessionId, true)]
  dispatched : ∀ id ∈ dispatched v.log, id = v.state.m_nSessionId

structure Untold (v : ConnectView) : Prop where
  nSessionId : v.state.m_nSessionId = 0
  main : .doSessionConnect ∉ v.main
  dispatched : dispatched v.log = []
  noCallback : v.state.session.funOnSessionConnect = false

inductive Stretch (v : ConnectView) : Prop
  | posted (h : v.state.attempt = .posted) (unconnected : Unconnected v) (main : v.main = [.doSessionConnect])
  | connecting {callback : Bool} (h : v.state.attempt = .connecting callback) (unconnected : Unconnected v) (main : v.main = [])
  | failed (h : v.state.attempt = .failed) (unconnected : Unconnected v)
    (noCallback : v.state.session.funOnSessionConnect = false) (main : v.main = [])
  | connected (h : v.state.attempt = .connected true) (reporting : Reporting v)
  | unregistered (h : v.state.attempt = .connected false) (untold : Untold v)

structure Attempted (v : ConnectView) : Prop where
  accepted : v.state.session.accepted = false
  stretch : Stretch v

/-- The call has no callback when its second attempt resolves, and no packet comes in on the session that the
second attempt has connected. -/
def FirstTells (v : ConnectView) : PartyEvent Bool ConnectIo → Prop
  | .act (.connectCompletes ..) =>
    v.state.attempt = .connecting false → v.state.session.funOnSessionConnect = false
  | .loop _ => v.queue.head? = some (.handleRead false) → v.state.attempt ≠ .connected false
  | _ => True

instance : ∀ v pe, Decidable (FirstTells v pe)
  | v, .act (.connectCompletes ..) =>
    inferInstanceAs (Decidable (v.state.attempt = .connecting false → v.state.session.funOnSessionConnect = false))
  | v, .loop _ =>
    inferInstanceAs (Decidable (v.queue.head? = some (.handleRead false) → v.state.attempt ≠ .connected false))
  | _, .main | _, .act (.session _) => isTrue trivial

variable {v : ConnectView}

lemma Unconnected.act (h : Unconnected v) {io : IoEvent} {e : SessionEffect} (he : v.state.session.act io = some e) :
    Unconnected (v.after (v.state.lift e)) ∧ (v.after (v.state.lift e)).main = v.main := by
  have hquiet : ∀ s : Session, s.reading = false → s.writing = false → s.m_timerSessionAlive = false →
      s.m_mapSession = false →
      Unconnected (v.after (v.state.lift s.quiet)) ∧ (v.after (v.state.lift s.quiet)).main = v.main := by
    intro s hreading hwriting htimer hmap
    refine ⟨⟨?_, ?_, h.nSessionId, hreading, hwriting, htimer, hmap⟩, List.append_nil _⟩
    · exact (List.append_nil _).trans h.queue
    · exact (List.append_nil _).trans h.log
  cases Session.acted he with
  | read ec hreading =>
    rw [h.reading] at hreading
    cases hreading
  | write ec hwriting =>
    rw [h.writing] at hwriting
    cases hwriting
  | timer htimer =>
    rw [h.timer] at htimer
    cases htimer
  | reset => exact hquiet _ h.reading h.writing h.timer h.mainMap
  | post hmap =>
    rw [h.mainMap] at hmap
    cases hmap
  | unknown => exact hquiet _ h.reading h.writing h.timer h.mainMap

lemma reports_after_lift (v : ConnectView) (c : ConnectCall) (e : SessionEffect) :
    reports (v.after (c.lift e)).log =
      reports v.log ++ List.replicate (e.notes.count .connectCb) (c.m_nSessionId, true) := by
  rw [PartyView.after, reports_append, ConnectCall.lift, reports_toNote]

lemma dispatched_after_lift (v : ConnectView) (c : ConnectCall) (e : SessionEffect) :
    dispatched (v.after (c.lift e)).log = dispatched v.log := by
  rw [PartyView.after, dispatched_append, ConnectCall.lift, dispatched_toNote, List.append_nil]

lemma due_after_lift (v : ConnectView) (c : ConnectCall) (e : SessionEffect) :
    due (v.after (c.lift e)) = due v + (e.posts.count .register + e.mainPosts.count .register) := by
  rw [due_after, ConnectCall.lift, count_session]

lemma notMem_lift {c : ConnectCall} {e : SessionEffect} (h : .doSessionConnect ∉ v.main) :
    .doSessionConnect ∉ (v.after (c.lift e)).main := by
  apply List.not_mem_append h
  intro hm
  obtain ⟨task, -, htask⟩ := List.mem_map.mp hm
  cases htask

lemma Reporting.lift (h : Reporting v) {queue : List NetTask} {main : List ConnectTask} {e : SessionEffect}
    (hmake : Session.SameMake v.state.session e.state) (hmain : .doSessionConnect ∉ main)
    (hdue : v.state.session.funOnSessionConnect = true → e.notes.count .connectCb +
      (due { v with queue, main } + (e.posts.count .register + e.mainPosts.count .register)) = due v) :
    Reporting (PartyView.after { v with queue, main } (v.state.lift e)) where
  nonzero := h.nonzero
  main := notMem_lift (v := { v with queue, main }) hmain
  once hcb := by
    have hcb : v.state.session.funOnSessionConnect = true := hmake.funOnSessionConnect ▸ hcb
    have honce := h.once hcb
    rw [← hdue hcb, List.replicate_add, ← List.append_assoc] at honce
    rw [reports_after_lift, due_after_lift]
    exact honce
  dispatched id hid := by
    rw [dispatched_after_lift] at hid
    exact h.dispatched id hid

lemma Reporting.calm (h : Reporting v) {queue : List NetTask} {main : List ConnectTask} {e : SessionEffect}
    (hmake : Session.SameMake v.state.session e.state) (hmain : .doSessionConnect ∉ main) (he : Session.Calm e)
    (hdue : due { v with queue, main } = due v) : Reporting (PartyView.after { v with queue, main } (v.state.lift e)) := by
  apply h.lift hmake hmain
  intro _
  rw [List.count_eq_zero.mpr he.notes, List.count_eq_zero.mpr he.posts, List.count_eq_zero.mpr he.mainPosts, hdue]
  omega

lemma Reporting.dispatch (h : Reporting v) : Reporting { v with log := v.log ++ [.funSessionRead v.state.m_nSessionId] } where
  nonzero := h.nonzero
  main := h.main
  once hcb := by
    have hlog : reports (v.log ++ [.funSessionRead v.state.m_nSessionId]) = reports v.log :=
      (reports_append _ _).trans (List.append_nil _)
    rw [hlog]
    exact h.once hcb
  dispatched id hid := by
    rw [dispatched_append, List.mem_append] at hid
    rcases hid with hid | hid
    · exact h.dispatched id hid
    · exact List.mem_singleton.mp hid

lemma Reporting.onNetLoop (h : Reporting v) {t : NetTask} {rest : List NetTask} (hqueue : v.queue = t :: rest)
    (found : Bool) : Reporting (PartyView.after { v with queue := rest } (v.state.onNetLoop t found)) := by
  have hmake := Session.sameMake_onNetLoop v.state.session t found
  by_cases hregister : t = .register
  · -- the task of the net loop passes the report on to the main loop
    subst hregister
    apply h.lift hmake h.main
    intro _
    rw [due, due, hqueue, List.count_cons_self]
    change 0 + (rest.count .register + v.main.count (.session .register) + (0 + 1)) = _
    omega
  · have hcalm := Session.calm_onNetLoop v.state.session hregister found
    have hdue : due { v with queue := rest } = due v := by
      rw [due, due, hqueue, List.count_cons_of_ne hregister]
    by_cases hread : t = .handleRead false
    · rw [ConnectCall.onNetLoop, if_pos hread]
      have hdispatch : Reporting (PartyView.after { v with queue := rest, log := v.log ++ _ } (v.state.lift _)) :=
        h.dispatch.calm hmake h.main hcalm hdue
      rwa [PartyView.after, List.append_assoc] at hdispatch
    · rw [ConnectCall.onNetLoop, if_neg hread]
      exact h.calm hmake h.main hcalm hdue

/-- The report is made by the task of the main loop that enters the session. -/
lemma Reporting.onMainLoop (h : Reporting v) (haccepted : v.state.session.accepted = false) {u : ConnectTask}
    {rest : List ConnectTask} (hmain : v.main = u :: rest) {e : ConnectEffect} (he : v.state.onMainLoop u = some e) :
    Reporting (PartyView.after { v with main := rest } e) := by
  have hrest : .doSessionConnect ∉ rest := fun hm => h.main (hmain ▸ List.mem_cons_of_mem _ hm)
  cases u with
  | doSessionConnect => exact absurd (hmain ▸ List.mem_cons_self) h.main
  | session task =>
    obtain ⟨e', hsession, rfl⟩ := Option.map_eq_some_iff.mp he
    have hmake := Session.sameMake_onMainLoop hsession
    by_cases hregister : task = .register
    · subst hregister
      apply h.lift hmake hrest
      intro hcb
      simp only [Session.onMainLoop, Session.registerMain, haccepted, hcb] at hsession
      cases hsession
      rw [due, due, hmain, List.count_cons_self]
      change 1 + (v.queue.count .register + rest.count (.session .register) + (0 + 0)) = _
      omega
    · apply h.calm hmake hrest (Session.calm_onMainLoop hregister hsession)
      have hne : ConnectTask.session task ≠ .session .register := fun heq => hregister (ConnectTask.session.inj heq)
      rw [due, due, hmain, List.count_cons_of_ne hne]

/-! ### A step of a call -/

lemma Untold.lift (h : Untold v) {queue : List NetTask} {main : List ConnectTask} {e : SessionEffect}
    (hmake : Session.SameMake v.state.session e.state) (hmain : .doSessionConnect ∉ main) :
    Untold (PartyView.after { v with queue, main } (v.state.lift e)) where
  nSessionId := h.nSessionId
  main := notMem_lift (v := { v with queue, main }) hmain
  dispatched := (dispatched_after_lift ..).trans h.dispatched
  noCallback := hmake.funOnSessionConnect.trans h.noCallback

lemma exists_onMainLoop {c : ConnectCall} (haccepted : c.session.accepted = false) (u : ConnectTask) :
    ∃ e, c.onMainLoop u = some e := by
  cases u with
  | doSessionConnect => exact ⟨_, rfl⟩
  | session task =>
    cases task with
    | register =>
      rw [ConnectCall.onMainLoop, Session.onMainLoop, Session.registerMain, haccepted]
      exact ⟨_, rfl⟩
    | _ => exact ⟨_, rfl⟩

lemma Unconnected.state (h : Unconnected v) {c : ConnectCall} (main : List ConnectTask)
    (hid : c.m_nSessionId = v.state.m_nSessionId)
    (hsession : c.session = { v.state.session with isOpen := true } ∨ c.session = v.state.session) :
    Unconnected ⟨c, v.queue, main, v.log⟩ := by
  obtain ⟨hqueue, hlog, hzero, hreading, hwriting, htimer, hmap⟩ := h
  rcases hsession with hsession | hsession
  · exact ⟨hqueue, hlog, hid.trans hzero, by rw [hsession]; exact hreading, by rw [hsession]; exact hwriting,
      by rw [hsession]; exact htimer, by rw [hsession]; exact hmap⟩
  · exact ⟨hqueue, hlog, hid.trans hzero, by rw [hsession]; exact hreading, by rw [hsession]; exact hwriting,
      by rw [hsession]; exact htimer, by rw [hsession]; exact hmap⟩

lemma Unconnected.onConnect (h : Unconnected v) {callback ec : Bool} {createSessionId : ℕ} (hmain : v.main = [])
    (hfresh : createSessionId ≠ 0)
    (hcallback : callback = false → v.state.session.funOnSessionConnect = false) :
    Stretch (v.after (v.state.onConnect callback ec createSessionId)) := by
  have hnil : ∀ {c : ConnectCall}, v.after c.quiet = ⟨c, v.queue, [], v.log⟩ := by
    intro c
    simp [PartyView.after, ConnectCall.quiet, hmain]
  cases ec with
  | false =>
    cases callback with
    | true =>
      refine .connected rfl ⟨hfresh, ?_, fun hcb => ?_, fun id hid => ?_⟩
      · simp [PartyView.after, ConnectCall.onConnect, ConnectCall.onSessionConnect, hmain]
      · rw [due_after, due, h.queue, hmain]
        simp [PartyView.after, ConnectCall.onConnect, ConnectCall.onSessionConnect, h.log, reports]
      · simp [PartyView.after, ConnectCall.onConnect, ConnectCall.onSessionConnect, h.log, dispatched] at hid
    | false =>
      refine .unregistered rfl ⟨h.nSessionId, ?_, ?_, hcallback rfl⟩
      · simp [PartyView.after, ConnectCall.onConnect, ConnectCall.quiet, hmain]
      · simp [PartyView.after, ConnectCall.onConnect, ConnectCall.quiet, h.log, dispatched]
  | true =>
    cases callback with
    | true =>
      refine .connecting rfl ?_ (by rw [ConnectCall.onConnect]; exact congrArg PartyView.main hnil)
      exact hnil ▸ h.state [] rfl (.inl rfl)
    | false =>
      refine .failed rfl ?_ (hcallback rfl) (congrArg PartyView.main hnil)
      exact hnil ▸ h.state [] rfl (.inr rfl)

lemma Untold.onNetLoop (h : Untold v) {t : NetTask} (ht : t ≠ .handleRead false) (rest : List NetTask) (found : Bool) :
    Untold (PartyView.after { v with queue := rest } (v.state.onNetLoop t found)) := by
  rw [ConnectCall.onNetLoop, if_neg ht]
  exact h.lift (Session.sameMake_onNetLoop v.state.session t found) h.main

lemma Untold.onMainLoop (h : Untold v) {u : ConnectTask} {rest : List ConnectTask} (hmain : v.main = u :: rest)
    {e : ConnectEffect} (he : v.state.onMainLoop u = some e) : Untold (PartyView.after { v with main := rest } e) := by
  cases u with
  | doSessionConnect => exact absurd (hmain ▸ List.mem_cons_self) h.main
  | session task =>
    obtain ⟨e', hsession, rfl⟩ := Option.map_eq_some_iff.mp he
    exact h.lift (Session.sameMake_onMainLoop hsession) fun hm => h.main (hmain ▸ List.mem_cons_of_mem _ hm)

def Counted : PartyEvent Bool ConnectIo → Prop
  | .act (.connectCompletes _ createSessionId) => createSessionId ≠ 0
  | _ => True

section Step

variable {v' : ConnectView}

lemma nSessionId_step {pe : PartyEvent Bool ConnectIo}
    (hother : ∀ ec createSessionId, pe ≠ .act (.connectCompletes ec createSessionId))
    (hstep : v.step connects pe = some v') : v'.state.m_nSessionId = v.state.m_nSessionId := by
  cases pe with
  | loop found =>
    obtain ⟨t, rest, -, rfl⟩ := PartyView.step_loop hstep
    rfl
  | main =>
    obtain ⟨u, rest, -, ⟨-, rfl⟩ | ⟨e, he, rfl⟩⟩ := PartyView.step_main hstep
    · rfl
    · cases u with
      | doSessionConnect =>
        cases he
        rfl
      | session task =>
        obtain ⟨e', -, rfl⟩ := Option.map_eq_some_iff.mp he
        rfl
  | act io =>
    obtain ⟨e, he, rfl⟩ := PartyView.step_act hstep
    cases io with
    | connectCompletes ec createSessionId => exact absurd rfl (hother ec createSessionId)
    | session io =>
      obtain ⟨e', -, rfl⟩ := Option.map_eq_some_iff.mp he
      rfl

lemma Attempted.onNetLoop (h : Attempted v) {found : Bool} (hQ : FirstTells v (.loop found))
    (hstep : v.step connects (.loop found) = some v') : Attempted v' := by
  obtain ⟨t, rest, hqueue, rfl⟩ := PartyView.step_loop hstep
  refine ⟨(Session.sameMake_onNetLoop v.state.session t found).accepted.trans h.accepted, ?_⟩
  have hunconnected : ¬ Unconnected v := fun hunconnected => by
    rw [hunconnected.queue] at hqueue
    cases hqueue
  cases h.stretch with
  | posted hattempt unconnected main => exact absurd unconnected hunconnected
  | connecting hattempt unconnected main => exact absurd unconnected hunconnected
  | failed hattempt unconnected noCallback main => exact absurd unconnected hunconnected
  | connected hattempt reporting => exact .connected hattempt (reporting.onNetLoop hqueue found)
  | unregistered hattempt untold =>
    have ht : t ≠ .handleRead false := by
      rintro rfl
      exact hQ (hqueue ▸ rfl) hattempt
    exact .unregistered hattempt (untold.onNetLoop ht rest found)

lemma Attempted.onMainLoop (h : Attempted v) (hstep : v.step connects .main = some v') : Attempted v' := by
  obtain ⟨u, rest, e, hmain, he, rfl⟩ := PartyView.step_main_of (fun u _ _ => exists_onMainLoop h.accepted u) hstep
  refine ⟨(ConnectCall.sameMake_onMainLoop he).accepted.trans h.accepted, ?_⟩
  have hattempt : u ≠ .doSessionConnect → e.state.attempt = v.state.attempt := by
    intro hu
    cases u with
    | doSessionConnect => exact absurd rfl hu
    | session task =>
      obtain ⟨e', -, rfl⟩ := Option.map_eq_some_iff.mp he
      rfl
  have hnone : v.main ≠ [] := hmain ▸ List.cons_ne_nil u rest
  cases h.stretch with
  | posted hposted unconnected main =>
    obtain ⟨rfl, rfl⟩ := List.cons_eq_cons.mp (hmain.symm.trans main)
    cases he
    have hnext := unconnected.state (c := v.state.doSessionConnect true) [] rfl (.inl rfl)
    refine .connecting rfl ?_ rfl
    simpa [PartyView.after, ConnectCall.quiet] using hnext
  | connecting hconnecting unconnected main => exact absurd main hnone
  | failed hfailed unconnected noCallback main => exact absurd main hnone
  | connected hconnected reporting =>
    have hu : u ≠ .doSessionConnect := fun hu => reporting.main (hu ▸ hmain ▸ List.mem_cons_self)
    exact .connected ((hattempt hu).trans hconnected) (reporting.onMainLoop h.accepted hmain he)
  | unregistered hconnected untold =>
    have hu : u ≠ .doSessionConnect := fun hu => untold.main (hu ▸ hmain ▸ List.mem_cons_self)
    exact .unregistered ((hattempt hu).trans hconnected) (untold.onMainLoop hmain he)

lemma Attempted.act (h : Attempted v) {io : ConnectIo} (hQ : FirstTells v (.act io)) (hid : Counted (.act io))
    (hstep : v.step connects (.act io) = some v') : Attempted v' := by
  obtain ⟨e, he, rfl⟩ := PartyView.step_act hstep
  refine ⟨(ConnectCall.sameMake_act he).accepted.trans h.accepted, ?_⟩
  cases io with
  | connectCompletes ec createSessionId =>
    simp only [connects, ConnectCall.act] at he
    split at he
    case h_2 => cases he
    case h_1 callback hconnecting =>
      cases he
      have hcallback : callback = false → v.state.session.funOnSessionConnect = false := by
        rintro rfl
        exact hQ hconnecting
      cases h.stretch with
      | connecting hattempt unconnected main => exact unconnected.onConnect main hid hcallback
      | _ hattempt => cases hattempt.symm.trans hconnecting
  | session io =>
    obtain ⟨e', hsession, rfl⟩ := Option.map_eq_some_iff.mp he
    have hmake := Session.sameMake_act hsession
    cases h.stretch with
    | posted hattempt unconnected main =>
      obtain ⟨hnext, hmain⟩ := unconnected.act hsession
      exact .posted hattempt hnext (hmain.trans main)
    | connecting hattempt unconnected main =>
      obtain ⟨hnext, hmain⟩ := unconnected.act hsession
      exact .connecting hattempt hnext (hmain.trans main)
    | failed hattempt unconnected noCallback main =>
      obtain ⟨hnext, hmain⟩ := unconnected.act hsession
      exact .failed hattempt hnext (hmake.funOnSessionConnect.trans noCallback) (hmain.trans main)
    | connected hattempt reporting =>
      exact .connected hattempt (reporting.calm hmake reporting.main (Session.steady_act hsession).calm rfl)
    | unregistered hattempt untold => exact .unregistered hattempt (untold.lift hmake untold.main)

theorem Attempted.step (h : Attempted v) {pe : PartyEvent Bool ConnectIo} (hQ : FirstTells v pe ∧ Counted pe)
    (hstep : v.step connects pe = some v') : Attempted v' := by
  cases pe with
  | loop found => exact h.onNetLoop hQ.1 hstep
  | main => exact h.onMainLoop hstep
  | act io => exact h.act hQ.1 hQ.2 hstep

end Step

lemma attempted_connect (loop : ℕ) (http funOnSessionConnect funOnSessionClose : Bool) :
    Attempted ⟨(ConnectCall.connect loop http funOnSessionConnect funOnSessionClose).state, [], [.doSessionConnect], []⟩ :=
  ⟨rfl, .posted rfl ⟨rfl, rfl, rfl, rfl, rfl, rfl, rfl⟩ rfl⟩

lemma Attempted.reported (h : Attempted v) (hcb : v.state.session.funOnSessionConnect = true) : Reported v := by
  have hunconnected : Unconnected v → reports v.log = [] := fun unconnected => by rw [unconnected.log]; rfl
  have hattempt : ∀ a, v.state.attempt = a → Unconnected v → (∀ callback, a ≠ .connected callback) → a ≠ .failed →
      Reported v := by
    intro a ha unconnected hconnected hfailed
    refine ⟨by rw [hunconnected unconnected]; exact Nat.zero_le 1, fun callback hc => ?_, fun hf => ?_⟩
    · exact absurd (ha.symm.trans hc) (hconnected callback)
    · exact absurd (ha.symm.trans hf) hfailed
  cases h.stretch with
  | posted ha unconnected main => exact hattempt _ ha unconnected nofun nofun
  | connecting ha unconnected main => exact hattempt _ ha unconnected nofun nofun
  | failed ha unconnected noCallback main =>
    rw [hcb] at noCallback
    cases noCallback
  | unregistered ha untold =>
    have hnone := untold.noCallback
    rw [hcb] at hnone
    cases hnone
  | connected ha reporting =>
    have honce := reporting.once hcb
    have hlength := congrArg List.length honce
    rw [List.length_append, List.length_singleton] at hlength
    refine ⟨by omega, fun callback _ hdue => ?_, fun hf => ?_⟩
    · rwa [hdue, List.replicate_zero, List.append_nil] at honce
    · cases ha.symm.trans hf

lemma Attempted.dispatched (h : Attempted v) : ∀ id ∈ dispatched v.log, id ≠ 0 ∧ v.state.m_nSessionId = id := by
  intro id hid
  have hunconnected : ¬ Unconnected v := fun unconnected => by
    rw [unconnected.log] at hid
    cases hid
  cases h.stretch with
  | posted ha unconnected main => exact absurd unconnected hunconnected
  | connecting ha unconnected main => exact absurd unconnected hunconnected
  | failed ha unconnected noCallback main => exact absurd unconnected hunconnected
  | connected ha reporting =>
    obtain rfl := reporting.dispatched id hid
    exact ⟨reporting.nonzero, rfl⟩
  | unregistered ha untold =>
    rw [untold.dispatched] at hid
    cases hid

/-! ### Where a step spoils that -/

lemma Attempted.not_reported (h : Attempted v) (ha : v.state.attempt = .connecting false)
    (hcb : v.state.session.funOnSessionConnect = true) {ec : Bool} {createSessionId : ℕ} {v' : ConnectView}
    (hstep : v.step connects (.act (.connectCompletes ec createSessionId)) = some v') :
    ¬ (v'.state.session.funOnSessionConnect = true → Reported v') := by
  intro hreported
  obtain ⟨e, he, rfl⟩ := PartyView.step_act hstep
  simp only [connects, ConnectCall.act, ha] at he
  cases he
  cases h.stretch with
  | connecting hconnecting unconnected main =>
    have hlog : ∀ c : ConnectCall, (v.after c.quiet).log = [] := fun c => (List.append_nil _).trans unconnected.log
    have hdue : ∀ c : ConnectCall, due (v.after c.quiet) = 0 := by
      intro c
      rw [due_after, due, unconnected.queue, main]
      rfl
    cases ec with
    | false =>
      have honce := (hreported hcb).connected false rfl (hdue _)
      rw [ConnectCall.onConnect, if_pos rfl] at honce
      exact absurd (honce.symm.trans (congrArg reports (hlog _))) (List.cons_ne_nil _ _)
    | true =>
      obtain ⟨nSessionId, honce⟩ := (hreported hcb).failed rfl (hdue _)
      exact absurd (honce.symm.trans (congrArg reports (hlog _))) (List.cons_ne_nil _ _)
  | _ hother => cases hother.symm.trans ha

lemma Attempted.zero_mem_dispatched (h : Attempted v) (ha : v.state.attempt = .connected false)
    (hhead : v.queue.head? = some (.handleRead false)) {found : Bool} {v' : ConnectView}
    (hstep : v.step connects (.loop found) = some v') : 0 ∈ Net.dispatched v'.log := by
  obtain ⟨rest, hqueue⟩ := List.head?_eq_some_iff.mp hhead
  rw [PartyView.step, hqueue] at hstep
  cases hstep
  cases h.stretch with
  | unregistered hconnected untold =>
    change 0 ∈ Net.dispatched (v.log ++ ([.funSessionRead v.state.m_nSessionId] ++ _))
    rw [dispatched_append, dispatched_append, untold.nSessionId]
    exact List.mem_append_right _ (List.mem_append_left _ (List.mem_singleton_self 0))
  | _ hother => cases hother.symm.trans ha

namespace NetConnects

variable {net net' : NetConnects}

structure WellFormed (net : NetConnects) : Prop where
  consistent : net.loops.Consistent connects
  running : net.loops.stopped = false
  fresh : ∀ call, net.calls ≤ call → net.loops.parties call = none
  bounded : ∀ call c, net.loops.parties call = some c → c.m_nSessionId ≤ net.m_nextSessionId
  accepted : ∀ id ∈ net.accepted, id ≤ net.m_nextSessionId
  apart : ∀ call c, net.loops.parties call = some c → c.m_nSessionId ≠ 0 → c.m_nSessionId ∉ net.accepted
  distinct : ∀ call other c d, net.loops.parties call = some c → net.loops.parties other = some d →
    c.m_nSessionId ≠ 0 → c.m_nSessionId = d.m_nSessionId → call = other

lemma wellFormed_start : WellFormed start where
  consistent := PartyLoops.consistent_init
  running := rfl
  fresh _ _ := rfl
  bounded _ _ h := by cases h
  accepted := List.forall_mem_nil _
  apart _ _ h := by cases h
  distinct _ _ _ _ h := by cases h

lemma WellFormed.accept (h : WellFormed net) : WellFormed { net with
    m_nextSessionId := net.createSessionId, accepted := net.createSessionId :: net.accepted } where
  consistent := h.consistent
  running := h.running
  fresh := h.fresh
  bounded call c hc := Nat.le_succ_of_le (h.bounded call c hc)
  accepted id hid := by
    rcases List.mem_cons.mp hid with rfl | hid
    · exact le_refl _
    · exact Nat.le_succ_of_le (h.accepted id hid)
  apart call c hc hzero hm := by
    rcases List.mem_cons.mp hm with hid | hid
    · exact Nat.not_succ_le_self _ (hid ▸ h.bounded call c hc)
    · exact h.apart call c hc hzero hid
  distinct := h.distinct

lemma WellFormed.connect (h : WellFormed net) {e : ConnectEffect} (hid : e.state.m_nSessionId = 0) :
    WellFormed { net with calls := net.calls + 1, loops := net.loops.enter connects net.calls e } := by
  have hself : (net.loops.enter connects net.calls e).parties net.calls = some e.state := PartyLoops.parties_apply_self e
  have hother : ∀ {call c}, (net.loops.enter connects net.calls e).parties call = some c → c.m_nSessionId ≠ 0 →
      net.loops.parties call = some c := by
    intro call c hc hzero
    by_cases hcall : call = net.calls
    · rw [hcall, hself] at hc
      cases hc
      exact absurd hid hzero
    · rwa [PartyLoops.enter, PartyLoops.parties_apply_of_ne e hcall] at hc
  refine ⟨h.consistent.enter (h.fresh _ (le_refl _)) e, h.running, fun call hle => ?_, fun call c hc => ?_, h.accepted,
    fun call c hc hzero => h.apart call c (hother hc hzero) hzero, fun call other c d hc hd hzero heq => ?_⟩
  · rw [PartyLoops.enter, PartyLoops.parties_apply_of_ne e (Nat.ne_of_gt hle)]
    exact h.fresh call (Nat.le_of_succ_le hle)
  · by_cases hzero : c.m_nSessionId = 0
    · rw [hzero]
      exact Nat.zero_le _
    · exact h.bounded call c (hother hc hzero)
  · exact h.distinct call other c d (hother hc hzero) (hother hd (heq ▸ hzero)) hzero heq

lemma WellFormed.turned (h : WellFormed net) {loops : PartyLoops ConnectCall NetTask ConnectTask ConnectNote} {id next : ℕ}
    {pe : PartyEvent Bool ConnectIo} (hturned : PartyLoops.Turned connects net.loops loops id pe)
    (hrunning : loops.stopped = false) {c c' : ConnectCall} (hc : net.loops.parties id = some c)
    (hc' : loops.parties id = some c')
    (hid : c'.m_nSessionId = net.createSessionId ∧ next = net.createSessionId ∨
      c'.m_nSessionId = c.m_nSessionId ∧ next = net.m_nextSessionId) :
    WellFormed { net with m_nextSessionId := next, loops } := by
  have hle : net.m_nextSessionId ≤ next := by
    rcases hid with ⟨-, rfl⟩ | ⟨-, rfl⟩
    · exact Nat.le_succ _
    · exact le_refl _
  have hcases : ∀ {call d}, loops.parties call = some d →
      call = id ∧ d.m_nSessionId = net.createSessionId ∧ next = net.createSessionId ∨
      ∃ d', net.loops.parties call = some d' ∧ d.m_nSessionId = d'.m_nSessionId := by
    intro call d hd
    by_cases hcall : call = id
    · subst hcall
      obtain rfl : c' = d := Option.some.inj (hc'.symm.trans hd)
      rcases hid with ⟨hnew, hnext⟩ | ⟨hold, -⟩
      · exact .inl ⟨rfl, hnew, hnext⟩
      · exact .inr ⟨c, hc, hold⟩
    · rw [hturned.parties_frame hcall] at hd
      exact .inr ⟨d, hd, rfl⟩
  have hbelow : ∀ {call d'}, net.loops.parties call = some d' → d'.m_nSessionId ≠ net.createSessionId :=
    fun hd' => Nat.ne_of_lt (Nat.lt_succ_of_le (h.bounded _ _ hd'))
  refine ⟨hturned.consistent, hrunning, fun call hcall => (hturned.parties_eq_none call).mpr (h.fresh call hcall), ?_,
    fun id hid => (h.accepted id hid).trans hle, ?_, ?_⟩
  · intro call d hd
    rcases hcases hd with ⟨-, hnew, hnext⟩ | ⟨d', hd', hold⟩
    · exact (hnew.trans hnext.symm).le
    · exact hold.le.trans ((h.bounded call d' hd').trans hle)
  · intro call d hd hzero hm
    rcases hcases hd with ⟨-, hnew, -⟩ | ⟨d', hd', hold⟩
    · exact Nat.not_succ_le_self _ (hnew ▸ h.accepted _ hm)
    · exact h.apart call d' hd' (hold ▸ hzero) (hold ▸ hm)
  · intro call other d f hd hf hzero heq
    rcases hcases hd with ⟨rfl, hnew, -⟩ | ⟨d', hd', hold⟩
    · rcases hcases hf with ⟨rfl, -, -⟩ | ⟨f', hf', holdf⟩
      · rfl
      · exact absurd (holdf.symm.trans (heq.symm.trans hnew)) (hbelow hf')
    · rcases hcases hf with ⟨-, hnewf, -⟩ | ⟨f', hf', holdf⟩
      · exact absurd (hold.symm.trans (heq.trans hnewf)) (hbelow hd')
      · exact h.distinct call other d' f' hd' hf' (hold ▸ hzero) (hold.symm.trans (heq.trans holdf))

/-! ### What a step does -/

theorem step_cases {e : ConnectEvent} (h : net.step e = some net') :
    (e = .accept ∧ net' = { net with
      m_nextSessionId := net.createSessionId
      accepted := net.createSessionId :: net.accepted }) ∨
    (∃ loop http funOnSessionConnect funOnSessionClose, e = .connect loop http funOnSessionConnect funOnSessionClose ∧
      net' = { net with
        calls := net.calls + 1
        loops := net.loops.enter connects net.calls
          (ConnectCall.connect loop http funOnSessionConnect funOnSessionClose) }) ∨
    ∃ le loops, net.toLoops e = some le ∧ net.loops.step connects le = some loops ∧
      net' = { net with m_nextSessionId := net.nextSessionId e, loops } := by
  cases e with
  | accept =>
    cases h
    exact .inl ⟨rfl, rfl⟩
  | connect loop http funOnSessionConnect funOnSessionClose =>
    cases h
    exact .inr (.inl ⟨loop, http, funOnSessionConnect, funOnSessionClose, rfl, rfl⟩)
  | _ =>
    obtain ⟨loops, hloops, rfl⟩ := Option.map_eq_some_iff.mp h
    exact .inr (.inr ⟨_, loops, rfl, hloops, rfl⟩)

def Meets (Q : ConnectView → PartyEvent Bool ConnectIo → Prop) (net : NetConnects) (e : ConnectEvent) : Prop :=
  ∀ le, net.toLoops e = some le → net.loops.Meets connects Q le

instance (Q : ConnectView → PartyEvent Bool ConnectIo → Prop) [∀ v pe, Decidable (Q v pe)] (net : NetConnects)
    (e : ConnectEvent) : Decidable (Meets Q net e) :=
  match h : net.toLoops e with
  | none => isTrue fun le hle => by rw [h] at hle; cases hle
  | some le => decidable_of_iff (net.loops.Meets connects Q le) (by simp [Meets, h])

/-- The turn is that of an attempt which gets the next id to take, or of another task or event, and no id is taken. -/
lemma turn_cases {e : ConnectEvent} {le : LoopEvent Bool ConnectIo} (hle : net.toLoops e = some le) {id : ℕ}
    {pe : PartyEvent Bool ConnectIo} (hturn : net.loops.turn le = some (id, pe)) :
    (∃ ec, e = .connectCompletes id ec ∧ pe = .act (.connectCompletes ec net.createSessionId)) ∨
      (∀ ec createSessionId, pe ≠ .act (.connectCompletes ec createSessionId)) ∧
        net.nextSessionId e = net.m_nextSessionId := by
  cases e with
  | accept => cases hle
  | connect loop http funOnSessionConnect funOnSessionClose => cases hle
  | connectCompletes call ec =>
    cases hle
    cases hturn
    exact .inl ⟨ec, rfl, rfl⟩
  | loop loop found =>
    cases hle
    obtain ⟨task, -, htask⟩ := Option.map_eq_some_iff.mp hturn
    cases htask
    exact .inr ⟨nofun, rfl⟩
  | main =>
    cases hle
    obtain ⟨task, -, htask⟩ := Option.map_eq_some_iff.mp hturn
    cases htask
    exact .inr ⟨nofun, rfl⟩
  | session call io =>
    cases hle
    cases hturn
    exact .inr ⟨nofun, rfl⟩

lemma turn_counted {e : ConnectEvent} {le : LoopEvent Bool ConnectIo} (hle : net.toLoops e = some le) {id : ℕ}
    {pe : PartyEvent Bool ConnectIo} (hturn : net.loops.turn le = some (id, pe)) : Counted pe := by
  rcases turn_cases hle hturn with ⟨ec, -, rfl⟩ | ⟨hother, -⟩
  · exact Nat.succ_ne_zero _
  · cases pe with
    | loop found => trivial
    | main => trivial
    | act io =>
      cases io with
      | connectCompletes ec createSessionId => exact absurd rfl (hother ec createSessionId)
      | session io => trivial

lemma stepped_id {e : ConnectEvent} {le : LoopEvent Bool ConnectIo} (hle : net.toLoops e = some le) {id : ℕ}
    {pe : PartyEvent Bool ConnectIo} (hturn : net.loops.turn le = some (id, pe)) {v v' : ConnectView}
    (hv : net.view id = some v) (hstep : v.step connects pe = some v') :
    v'.state.m_nSessionId = net.createSessionId ∧ net.nextSessionId e = net.createSessionId ∨
      v'.state.m_nSessionId = v.state.m_nSessionId ∧ net.nextSessionId e = net.m_nextSessionId := by
  rcases turn_cases hle hturn with ⟨ec, rfl, rfl⟩ | ⟨hother, hnext⟩
  · obtain ⟨e, he, rfl⟩ := PartyView.step_act hstep
    simp only [connects, ConnectCall.act] at he
    split at he
    case h_2 => cases he
    case h_1 callback hconnecting =>
      cases he
      rw [nextSessionId, creates, PartyLoops.parties_of_view hv]
      cases ec <;> cases callback <;> simp [hconnecting, PartyView.after, ConnectCall.onConnect,
        ConnectCall.onSessionConnect, ConnectCall.quiet, ConnectCall.doSessionConnect]
  · exact .inr ⟨nSessionId_step hother hstep, hnext⟩

/-! ### What every call keeps -/

structure Holds (net : NetConnects) : Prop where
  wellFormed : WellFormed net
  views : ∀ call v, net.view call = some v → Attempted v

lemma holds_start : Holds start where
  wellFormed := wellFormed_start
  views _ _ h := by cases h

lemma Holds.accepted (h : Holds net) {call : ℕ} {c : ConnectCall} (hc : net.loops.parties call = some c) :
    c.session.accepted = false := by
  rw [PartyLoops.parties_eq_map_view (P := connects)] at hc
  obtain ⟨v, hv, rfl⟩ := Option.map_eq_some_iff.mp hc
  exact (h.views call v hv).accepted

theorem step_holds (h : Holds net) {e : ConnectEvent} (hQ : Meets FirstTells net e) (hstep : net.step e = some net') :
    Holds net' := by
  rcases step_cases hstep with ⟨-, rfl⟩ | ⟨loop, http, funOnSessionConnect, funOnSessionClose, -, rfl⟩ |
    ⟨le, loops, hle, hloops, rfl⟩
  · exact ⟨h.wellFormed.accept, h.views⟩
  · have hnew := h.wellFormed.fresh net.calls (le_refl _)
    refine ⟨h.wellFormed.connect rfl, fun call v hv => ?_⟩
    by_cases hcall : call = net.calls
    · subst hcall
      rw [view, PartyLoops.view_enter_self h.wellFormed.consistent hnew] at hv
      cases hv
      exact attempted_connect ..
    · rw [view, PartyLoops.view_enter_of_ne hcall] at hv
      exact h.views call v hv
  · obtain ⟨id, pe, hturn, hturned⟩ := PartyLoops.step_turned h.wellFormed.consistent hloops
    obtain ⟨v, v', hv, hone, hv'⟩ := hturned.steps
    have hrunning : loops.stopped = false := by
      apply PartyLoops.stopped_step (fun call c u hc => ?_) hloops
      obtain ⟨e, he⟩ := exists_onMainLoop (h.accepted hc) u
      exact Option.ne_none_iff_exists'.mpr ⟨e, he⟩
    have hid := stepped_id hle hturn hv hone
    refine ⟨h.wellFormed.turned hturned hrunning (PartyLoops.parties_of_view hv) (PartyLoops.parties_of_view hv') hid, ?_⟩
    apply PartyLoops.step_keeps (Q := fun v pe => FirstTells v pe ∧ Counted pe) (fun hJ hQ hone => hJ.step hQ hone)
      h.wellFormed.consistent h.views ?_ hloops
    intro other pe' w hturn' hw
    exact ⟨hQ le hle other pe' w hturn' hw, turn_counted hle hturn'⟩

structure Owns (net : NetConnects) (call id : ℕ) : Prop where
  nonzero : id ≠ 0
  own : ∃ c, net.loops.parties call = some c ∧ c.m_nSessionId = id
  unique : ∀ other c, net.loops.parties other = some c → c.m_nSessionId = id → other = call
  accepted : id ∉ net.accepted

structure ReportsOutcomes (net : NetConnects) : Prop where
  reported : ∀ call v, net.view call = some v → v.state.session.funOnSessionConnect = true → Reported v
  identified : ∀ call v, net.view call = some v → ∀ id ∈ dispatched v.log, net.Owns call id
  loopRuns : ∀ loop found, net.loops.queue loop ≠ [] → ∃ net', net.step (.loop loop found) = some net'
  mainRuns : net.loops.mainQueue ≠ [] → ∃ net', net.step .main = some net'

lemma Holds.reportsOutcomes (h : Holds net) : ReportsOutcomes net where
  reported call v hv hcb := (h.views call v hv).reported hcb
  identified call v hv id hid := by
    obtain ⟨hzero, rfl⟩ := (h.views call v hv).dispatched id hid
    have hparty := PartyLoops.parties_of_view hv
    refine ⟨hzero, ⟨v.state, hparty, rfl⟩, fun other c hc hid => ?_, h.wellFormed.apart call _ hparty hzero⟩
    exact h.wellFormed.distinct other call c v.state hc hparty (hid ▸ hzero) hid
  loopRuns loop found hqueue := by
    obtain ⟨loops, hloops⟩ := h.wellFormed.consistent.exists_step_loop h.wellFormed.running hqueue found
    exact ⟨_, Option.map_eq_some_iff.mpr ⟨loops, hloops, rfl⟩⟩
  mainRuns hqueue := by
    obtain ⟨loops, hloops⟩ := h.wellFormed.consistent.exists_step_main h.wellFormed.running hqueue
    exact ⟨_, Option.map_eq_some_iff.mpr ⟨loops, hloops, rfl⟩⟩

lemma meets_of_reportsOutcomes (h : Holds net) {e : ConnectEvent} (hstep : net.step e = some net')
    (hreports : ReportsOutcomes net') : Meets FirstTells net e := by
  intro le hle id' pe' w hturn' hw
  rcases step_cases hstep with ⟨rfl, -⟩ | ⟨loop, http, funOnSessionConnect, funOnSessionClose, rfl, -⟩ |
    ⟨le', loops, hle', hloops, rfl⟩
  · cases hle
  · cases hle
  · obtain rfl : le' = le := Option.some.inj (hle'.symm.trans hle)
    obtain ⟨id, pe, hturn, hturned⟩ := PartyLoops.step_turned h.wellFormed.consistent hloops
    obtain ⟨v, v', hv, hone, hv'⟩ := hturned.steps
    obtain ⟨rfl, rfl⟩ := Prod.mk.inj (Option.some.inj (hturn.symm.trans hturn'))
    obtain rfl : v = w := Option.some.inj (hv.symm.trans hw)
    have hat := h.views id v hv
    cases pe with
    | main => trivial
    | loop found =>
      intro hhead ha
      exact (hreports.identified id v' hv' 0 (hat.zero_mem_dispatched ha hhead hone)).nonzero rfl
    | act io =>
      cases io with
      | session io => trivial
      | connectCompletes ec createSessionId =>
        intro ha
        by_contra hcb
        rw [Bool.not_eq_false] at hcb
        exact hat.not_reported ha hcb hone (hreports.reported id v' hv')

def KeepsReports (es : List ConnectEvent) : Prop :=
  ∀ done, done <+: es → ∀ net, run step start done = some net → ReportsOutcomes net

theorem keepsReports_iff {es : List ConnectEvent} {net : NetConnects} (h : run step start es = some net) :
    KeepsReports es ↔ StepsMeet step (fun _ => Meets FirstTells) start es := by
  constructor
  · intro hkeeps
    exact stepsMeet_of_throughout h holds_start (fun hi hc hone => step_holds hi hc hone)
      (fun hi hone hreports => meets_of_reportsOutcomes hi hone hreports) hkeeps
  · intro hmeets done hd mid hrun
    have hholds : Holds mid := (hmeets.of_initial hd).invariant holds_start (fun hi hc hone => step_holds hi hc hone) hrun
    exact hholds.reportsOutcomes

/-- Call 0 connects at once, is reported and gets a packet. -/
theorem keepsReports_connected : KeepsReports [.connect 1 false true true, .main, .connectCompletes 0 false,
    .loop 1 true, .main, .session 0 (.readCompletes false), .loop 1 true] := by
  obtain ⟨net, hrun⟩ : ∃ net, run step start [.connect 1 false true true, .main, .connectCompletes 0 false,
      .loop 1 true, .main, .session 0 (.readCompletes false), .loop 1 true] = some net :=
    Option.isSome_iff_exists.mp (by decide)
  have hcheck : checkSteps step (fun net e => decide (Meets FirstTells net e)) start [.connect 1 false true true, .main,
      .connectCompletes 0 false, .loop 1 true, .main, .session 0 (.readCompletes false), .loop 1 true] = true := by decide
  exact (keepsReports_iff hrun).mpr (stepsMeet_of_checkSteps (fun _ _ => of_decide_eq_true) hcheck)

/-- Both attempts fail, or the second connects and a packet comes in: nobody is told, and the packet has the id 0. -/
theorem not_keepsReports_retried :
    ¬ KeepsReports [.connect 1 false true true, .main, .connectCompletes 0 true, .connectCompletes 0 true] ∧
    ¬ KeepsReports [.connect 1 false false true, .main, .connectCompletes 0 true, .connectCompletes 0 false,
      .session 0 (.readCompletes false), .loop 1 true] := by
  constructor
  · intro hkeeps
    obtain ⟨net, hrun⟩ : ∃ net, run step start [.connect 1 false true true, .main, .connectCompletes 0 true,
        .connectCompletes 0 true] = some net := ⟨_, rfl⟩
    cases hrun
    obtain ⟨nSessionId, honce⟩ := ((hkeeps _ List.prefix_rfl _ rfl).reported 0 _ rfl rfl).failed rfl rfl
    cases honce
  · intro hkeeps
    have howns := (hkeeps _ List.prefix_rfl _ rfl).identified 0 _ rfl 0 (by decide)
    exact howns.nonzero rfl

end NetConnects

end TonyCat.Net
