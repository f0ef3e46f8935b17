import TonyCat.Library.Descent

set_option autoImplicit false

/-! The life of a process: `ModuleManager` calls the hooks of its modules on the main loop, and a signal may set
`m_onStop` at any moment. -/

namespace TonyCat.Loop

open TonyCat.Library

inductive Hook
  | beforeInit
  | onInit
  | afterInit
  | onUpdate
  | beforeStop
  | onStop
  | afterStop
  deriving DecidableEq

/-- What the main thread does: a hook of a module, or another task of its loop. -/
inductive MainCall
  | hook (hook : Hook) (strModuleName : String)
  | task (number : ℕ)
  deriving DecidableEq

inductive MainTask
  /-- the handler of the update timer, with its error code -/
  | update (ec : Bool)
  | other (number : ℕ)

inductive MainPhase
  | registering
  | initializing
  /-- in `m_pIoContext->run()`, between two handlers -/
  | running
  | updating
  | stopping
  | returned
  deriving DecidableEq

structure ModuleManager where
  m_vecModules : List String
  m_onStop : Bool
  phase : MainPhase
  /-- the hooks that the function the main thread is in has still to call -/
  rest : List MainCall
  queue : List MainTask
  waiting : Bool
  calls : List MainCall

inductive MainEvent
  | registerModule (strModuleName : String)
  | init
  /-- `Stop`, by a signal or by a module -/
  | stop
  | post (number : ℕ)
  | expire
  /-- The main thread goes on. -/
  | proceed

namespace ModuleManager

def start : ModuleManager := ⟨[], false, .registering, [], [], false, []⟩

def registerModule (M : ModuleManager) (strModuleName : String) : ModuleManager :=
  if strModuleName ∈ M.m_vecModules then M else { M with m_vecModules := M.m_vecModules ++ [strModuleName] }

def initModules (m_vecModules : List String) : List MainCall :=
  m_vecModules.map (.hook .beforeInit) ++ m_vecModules.map (.hook .onInit) ++ m_vecModules.map (.hook .afterInit)

def updateModules (m_vecModules : List String) : List MainCall :=
  m_vecModules.map (.hook .onUpdate)

def stopModules (m_vecModules : List String) : List MainCall :=
  m_vecModules.reverse.map (.hook .beforeStop) ++ m_vecModules.reverse.map (.hook .onStop) ++
    m_vecModules.reverse.map (.hook .afterStop)

/-- `Loop::Cancel`: a wait that is under way ends with an error, one that has ended or has not begun is not touched. -/
def cancel (M : ModuleManager) : ModuleManager :=
  if M.waiting then { M with waiting := false, queue := M.queue ++ [.update true] } else M

/-- The next handler of the loop: another task, or `UpdateModules` up to its first hook. -/
def handle (M : ModuleManager) : MainTask → ModuleManager
  | .other number => { M with calls := M.calls ++ [.task number] }
  | .update true => M
  | .update false =>
    if M.m_onStop then { M with phase := .stopping, rest := stopModules M.m_vecModules }
    else { M with phase := .updating, rest := updateModules M.m_vecModules }

/-- The end of the hooks. `ExecEveryHelper` waits for the timer again, also after `UpdateModules` has cancelled it;
but then the loop has been stopped, and `Run` returns. -/
def finish (M : ModuleManager) : Option ModuleManager :=
  match M.phase with
  | .initializing | .updating => some { M with phase := .running, waiting := true }
  | .stopping => some { M.cancel with phase := .returned, waiting := true, m_onStop := false }
  | .registering | .running | .returned => none

def proceed (M : ModuleManager) : Option ModuleManager :=
  match M.rest with
  | call :: rest => some { M with calls := M.calls ++ [call], rest := rest }
  | [] =>
    match M.phase with
    | .running =>
      match M.queue with
      | [] => none
      | task :: queue => some ({ M with queue := queue }.handle task)
    | _ => M.finish

def step (M : ModuleManager) : MainEvent → Option ModuleManager
  | .registerModule strModuleName => if M.phase = .registering then some (M.registerModule strModuleName) else none
  | .init =>
    if M.phase = .registering then some { M with phase := .initializing, rest := initModules M.m_vecModules } else none
  | .stop => some { M with m_onStop := true }
  | .post number => some { M with queue := M.queue ++ [.other number] }
  | .expire => if M.waiting then some { M with waiting := false, queue := M.queue ++ [.update false] } else none
  | .proceed => M.proceed

/-! ### The order of the hooks -/

/-- What the main thread does between the start of the modules and their stop: tasks, and rounds of updates that
nothing interrupts. -/
inductive Rounds (m_vecModules : List String) : List MainCall → Prop
  | nil : Rounds m_vecModules []
  | task {calls : List MainCall} (number : ℕ) : Rounds m_vecModules calls → Rounds m_vecModules (calls ++ [.task number])
  | update {calls : List MainCall} : Rounds m_vecModules calls →
      Rounds m_vecModules (calls ++ updateModules m_vecModules)

def Ordered (m_vecModules : List String) (called : List MainCall) : MainPhase → Prop
  | .registering => called = []
  | .initializing => called = initModules m_vecModules
  | .running | .updating => ∃ rounds, Rounds m_vecModules rounds ∧ called = initModules m_vecModules ++ rounds
  | .stopping | .returned => ∃ rounds, Rounds m_vecModules rounds ∧
      called = initModules m_vecModules ++ rounds ++ stopModules m_vecModules

structure Sound (M : ModuleManager) : Prop where
  nodup : M.m_vecModules.Nodup
  ordered : Ordered M.m_vecModules (M.calls ++ M.rest) M.phase
  idle : M.phase = .registering ∨ M.phase = .running ∨ M.phase = .returned → M.rest = []
  armed : M.phase = .running → M.waiting = true ∨ .update false ∈ M.queue

variable {M M' : ModuleManager}

lemma sound_start : start.Sound :=
  ⟨List.nodup_nil, rfl, fun _ => rfl, by simp [start]⟩

lemma Sound.registerModule (h : M.Sound) (hphase : M.phase = .registering) (strModuleName : String) :
    (M.registerModule strModuleName).Sound := by
  rw [ModuleManager.registerModule]
  split_ifs with hmem
  · exact h
  · refine ⟨?_, ?_, h.idle, h.armed⟩
    · refine List.nodup_append.mpr ⟨h.nodup, List.nodup_singleton _, fun a ha b hb heq => hmem ?_⟩
      rw [← List.mem_singleton.mp hb, ← heq]
      exact ha
    · have hordered := h.ordered
      dsimp only
      rw [hphase] at hordered ⊢
      exact hordered

lemma Sound.handle (h : M.Sound) {task : MainTask} {queue : List MainTask} (hphase : M.phase = .running)
    (hqueue : M.queue = task :: queue) : ({ M with queue := queue }.handle task).Sound := by
  obtain ⟨rounds, hrounds, hcalls⟩ : ∃ rounds, Rounds M.m_vecModules rounds ∧
      M.calls ++ M.rest = initModules M.m_vecModules ++ rounds := by
    have hordered := h.ordered
    rw [hphase] at hordered
    exact hordered
  have hrest : M.rest = [] := h.idle (.inr (.inl hphase))
  rw [hrest, List.append_nil] at hcalls
  have harmed : task ≠ .update false → M.waiting = true ∨ .update false ∈ queue := by
    intro hother
    refine (h.armed hphase).imp_right fun hmem => ?_
    rw [hqueue] at hmem
    exact (List.mem_cons.mp hmem).resolve_left (Ne.symm hother)
  cases task with
  | other number =>
    refine ⟨h.nodup, ?_, fun _ => hrest, fun _ => harmed (by simp)⟩
    dsimp only [ModuleManager.handle]
    rw [hphase, hrest, List.append_nil, hcalls]
    exact ⟨_, hrounds.task number, List.append_assoc ..⟩
  | update ec =>
    cases ec with
    | true => exact ⟨h.nodup, h.ordered, h.idle, fun _ => harmed (by simp)⟩
    | false =>
      rw [ModuleManager.handle]
      split_ifs
      · refine ⟨h.nodup, ?_, by simp, by simp⟩
        dsimp only
        rw [hcalls]
        exact ⟨rounds, hrounds, rfl⟩
      · refine ⟨h.nodup, ?_, by simp, by simp⟩
        dsimp only
        rw [hcalls]
        exact ⟨_, hrounds.update, List.append_assoc ..⟩

lemma Sound.finish (h : M.Sound) (hrest : M.rest = []) (hs : M.finish = some M') : M'.Sound := by
  have hordered := h.ordered
  rw [ModuleManager.finish] at hs
  split at hs
  case h_1 hphase =>
    cases hs
    rw [hphase] at hordered
    refine ⟨h.nodup, ⟨[], .nil, ?_⟩, fun _ => hrest, fun _ => .inl rfl⟩
    rw [List.append_nil]
    exact hordered
  case h_2 hphase =>
    cases hs
    rw [hphase] at hordered
    exact ⟨h.nodup, hordered, fun _ => hrest, fun _ => .inl rfl⟩
  case h_3 hphase =>
    cases hs
    rw [hphase] at hordered
    rw [cancel]
    split_ifs
    · exact ⟨h.nodup, hordered, fun _ => hrest, by simp⟩
    · exact ⟨h.nodup, hordered, fun _ => hrest, by simp⟩
  case h_4 | h_5 | h_6 => cases hs

lemma Sound.proceed (h : M.Sound) (hs : M.proceed = some M') : M'.Sound := by
  rw [ModuleManager.proceed] at hs
  split at hs
  case h_1 call rest hrest =>
    cases hs
    refine ⟨h.nodup, ?_, fun hphase => ?_, h.armed⟩
    · have hordered := h.ordered
      dsimp only
      rw [hrest] at hordered
      rwa [List.append_assoc, List.singleton_append]
    · cases hrest.symm.trans (h.idle hphase)
  case h_2 hrest =>
    split at hs
    case h_1 hphase =>
      split at hs
      · cases hs
      · cases hs
        exact h.handle hphase ‹_›
    case h_2 => exact h.finish hrest hs

lemma Sound.step (h : M.Sound) {e : MainEvent} (hs : M.step e = some M') : M'.Sound := by
  cases e with
  | registerModule strModuleName =>
    obtain ⟨hphase, hs⟩ := Option.ite_none_right_eq_some.mp hs
    cases hs
    exact h.registerModule hphase strModuleName
  | init =>
    obtain ⟨hphase, hs⟩ := Option.ite_none_right_eq_some.mp hs
    cases hs
    refine ⟨h.nodup, ?_, by simp, by simp⟩
    have hordered := h.ordered
    rw [hphase, h.idle (.inl hphase), List.append_nil] at hordered
    have hcalls : M.calls = [] := hordered
    dsimp only
    rw [hcalls]
    rfl
  | stop =>
    cases hs
    exact ⟨h.nodup, h.ordered, h.idle, h.armed⟩
  | post number =>
    cases hs
    exact ⟨h.nodup, h.ordered, h.idle, fun hphase => (h.armed hphase).imp_right (List.mem_append_left _)⟩
  | expire =>
    obtain ⟨-, hs⟩ := Option.ite_none_right_eq_some.mp hs
    cases hs
    exact ⟨h.nodup, h.ordered, h.idle, fun _ => .inr (List.mem_append_right _ (List.mem_singleton_self _))⟩
  | proceed => exact h.proceed hs

lemma Ordered.rounds {m_vecModules : List String} {called : List MainCall} {phase : MainPhase}
    (h : Ordered m_vecModules called phase) : ∃ rounds, Rounds m_vecModules rounds ∧
      called <+: initModules m_vecModules ++ rounds ++ stopModules m_vecModules ∧
      (phase = .running → called = initModules m_vecModules ++ rounds) ∧
      (phase = .returned → called = initModules m_vecModules ++ rounds ++ stopModules m_vecModules) := by
  cases phase with
  | registering =>
    have hnil : called = [] := h
    rw [hnil]
    exact ⟨[], .nil, List.nil_prefix, by simp, by simp⟩
  | initializing =>
    have hinit : called = initModules m_vecModules := h
    refine ⟨[], .nil, ?_, by simp, by simp⟩
    rw [hinit, List.append_nil]
    exact List.prefix_append _ _
  | running | updating =>
    obtain ⟨rounds, hrounds, rfl⟩ := h
    exact ⟨rounds, hrounds, List.prefix_append _ _, fun _ => rfl, by simp⟩
  | stopping | returned =>
    obtain ⟨rounds, hrounds, rfl⟩ := h
    exact ⟨rounds, hrounds, List.prefix_rfl, by simp, fun _ => rfl⟩

/-- In every run of a process, whenever its timer expires, other tasks come in and signals ask it to stop: the modules
are initialized hook by hook in the order of their registration, then the main loop runs tasks and whole rounds of
updates, and in the end the modules are stopped hook by hook in the opposite order. Nothing is called after that. -/
theorem life_cycle {es : List MainEvent} (hrun : run step start es = some M) :
    M.m_vecModules.Nodup ∧ ∃ rounds, Rounds M.m_vecModules rounds ∧
      M.calls <+: initModules M.m_vecModules ++ rounds ++ stopModules M.m_vecModules ∧
      (M.phase = .running → M.calls = initModules M.m_vecModules ++ rounds) ∧
      (M.phase = .returned → M.calls = initModules M.m_vecModules ++ rounds ++ stopModules M.m_vecModules) := by
  have hsound : M.Sound := run_keeps (fun h hs => h.step hs) sound_start hrun
  obtain ⟨rounds, hrounds, hinitial, hrunning, hreturned⟩ := hsound.ordered.rounds
  refine ⟨hsound.nodup, rounds, hrounds, (List.prefix_append _ _).trans hinitial, fun hphase => ?_, fun hphase => ?_⟩
  · rw [← hrunning hphase, hsound.idle (.inr (.inl hphase)), List.append_nil]
  · rw [← hreturned hphase, hsound.idle (.inr (.inr hphase)), List.append_nil]

/-- Two modules; the signal comes while the first round of updates is under way. -/
def twoModules : List MainEvent :=
  [.registerModule "NetModule", .registerModule "RpcModule", .registerModule "NetModule", .init] ++
    List.replicate 7 .proceed ++ [.post 0, .expire, .proceed, .proceed, .proceed, .stop]

theorem life_cycle_twoModules : ∃ M, run step start (twoModules ++ [.proceed, .proceed, .expire, .proceed] ++
      List.replicate 7 .proceed) = some M ∧ M.phase = .returned ∧ ∃ rounds, Rounds ["NetModule", "RpcModule"] rounds ∧
    M.calls = initModules ["NetModule", "RpcModule"] ++ rounds ++ stopModules ["NetModule", "RpcModule"] := by
  have hrun : ∃ M, run step start (twoModules ++ [.proceed, .proceed, .expire, .proceed] ++
      List.replicate 7 .proceed) = some M ∧ M.phase = .returned ∧ M.m_vecModules = ["NetModule", "RpcModule"] :=
    ⟨_, rfl, rfl, rfl⟩
  obtain ⟨M, hrun, hreturned, hmodules⟩ := hrun
  obtain ⟨-, rounds, hrounds, -, -, hcalls⟩ := life_cycle hrun
  rw [hmodules] at hrounds hcalls
  exact ⟨M, hrun, hreturned, rounds, hrounds, hcalls hreturned⟩

/-! ### A signal to stop -/

def isUpdate : MainCall → Bool
  | .hook hook _ => hook = .onUpdate
  | .task _ => false

def Stopping (M : ModuleManager) : Prop :=
  M.m_onStop = true ∨ M.phase = .stopping ∨ M.phase = .returned

lemma filter_stopModules (m_vecModules : List String) : (stopModules m_vecModules).filter isUpdate = [] := by
  simp [stopModules, isUpdate, List.filter_map, Function.comp_def]

lemma filter_initModules (m_vecModules : List String) : (initModules m_vecModules).filter isUpdate = [] := by
  simp [initModules, isUpdate, List.filter_map, Function.comp_def]

structure Quits (M M' : ModuleManager) : Prop where
  sound : M'.Sound
  stopping : M'.Stopping
  updates : ∃ later, M'.calls = M.calls ++ later ∧
    later.filter isUpdate ++ M'.rest.filter isUpdate = M.rest.filter isUpdate

variable {N : ModuleManager}

lemma Quits.handle (h : Quits N M) {task : MainTask} {queue : List MainTask} (hphase : M.phase = .running)
    (hqueue : M.queue = task :: queue) : Quits N ({ M with queue := queue }.handle task) := by
  have hsound := h.sound.handle hphase hqueue
  have honStop : M.m_onStop = true := by
    refine h.stopping.resolve_right ?_
    rw [hphase]
    simp
  have hrest : M.rest = [] := h.sound.idle (.inr (.inl hphase))
  obtain ⟨later, hcalls, hupdates⟩ := h.updates
  cases task with
  | other number =>
    refine ⟨hsound, .inl honStop, later ++ [.task number], ?_, ?_⟩
    · dsimp only [ModuleManager.handle]
      rw [hcalls, List.append_assoc]
    · have hnone : [MainCall.task number].filter isUpdate = [] := rfl
      rw [List.filter_append, hnone, List.append_nil]
      exact hupdates
  | update ec =>
    cases ec with
    | true => exact ⟨hsound, .inl honStop, later, hcalls, hupdates⟩
    | false =>
      rw [ModuleManager.handle] at hsound ⊢
      dsimp only at hsound ⊢
      rw [if_pos honStop] at hsound ⊢
      refine ⟨hsound, .inl honStop, later, hcalls, ?_⟩
      dsimp only
      rw [hrest] at hupdates
      rw [filter_stopModules]
      exact hupdates

lemma Quits.finish (h : Quits N M) (hrest : M.rest = []) (hs : M.finish = some M') : Quits N M' := by
  have hsound := h.sound.finish hrest hs
  have hstopping := h.stopping
  obtain ⟨later, hcalls, hupdates⟩ := h.updates
  rw [ModuleManager.finish] at hs
  split at hs
  case h_1 hphase | h_2 hphase =>
    cases hs
    rw [Stopping, hphase] at hstopping
    exact ⟨hsound, .inl (hstopping.resolve_right (by simp)), later, hcalls, hupdates⟩
  case h_3 hphase =>
    cases hs
    refine ⟨hsound, .inr (.inr rfl), later, ?_, ?_⟩
    · rw [← hcalls, cancel]
      split_ifs <;> rfl
    · rw [← hupdates, cancel]
      split_ifs <;> rfl
  case h_4 | h_5 | h_6 => cases hs

lemma Quits.proceed (h : Quits N M) (hs : M.proceed = some M') : Quits N M' := by
  have hsound := h.sound.proceed hs
  rw [ModuleManager.proceed] at hs
  split at hs
  case h_1 call rest hrest =>
    cases hs
    obtain ⟨later, hcalls, hupdates⟩ := h.updates
    refine ⟨hsound, h.stopping, later ++ [call], ?_, ?_⟩
    · dsimp only
      rw [hcalls, List.append_assoc]
    · rw [hrest] at hupdates
      rw [← hupdates, List.filter_append, List.append_assoc, ← List.filter_append, List.singleton_append]
  case h_2 hrest =>
    split at hs
    case h_1 hphase =>
      split at hs
      · cases hs
      · cases hs
        exact h.handle hphase ‹_›
    case h_2 => exact h.finish hrest hs

lemma Quits.step (h : Quits N M) {e : MainEvent} (hs : M.step e = some M') : Quits N M' := by
  have hsound := h.sound.step hs
  cases e with
  | registerModule strModuleName =>
    obtain ⟨hphase, hs⟩ := Option.ite_none_right_eq_some.mp hs
    cases hs
    have hstopping : M.m_onStop = true := by
      refine h.stopping.resolve_right ?_
      rw [hphase]
      simp
    rw [ModuleManager.registerModule] at hsound ⊢
    split_ifs at hsound ⊢
    · exact h
    · exact ⟨hsound, .inl hstopping, h.updates⟩
  | init =>
    obtain ⟨hphase, hs⟩ := Option.ite_none_right_eq_some.mp hs
    cases hs
    have hstopping : M.m_onStop = true := by
      refine h.stopping.resolve_right ?_
      rw [hphase]
      simp
    obtain ⟨later, hcalls, hupdates⟩ := h.updates
    refine ⟨hsound, .inl hstopping, later, hcalls, ?_⟩
    dsimp only
    rw [filter_initModules]
    rw [h.sound.idle (.inl hphase)] at hupdates
    exact hupdates
  | stop =>
    cases hs
    exact ⟨hsound, .inl rfl, h.updates⟩
  | post number =>
    cases hs
    exact ⟨hsound, h.stopping, h.updates⟩
  | expire =>
    obtain ⟨-, hs⟩ := Option.ite_none_right_eq_some.mp hs
    cases hs
    exact ⟨hsound, h.stopping, h.updates⟩
  | proceed => exact h.proceed hs

def GoesOn : MainEvent → Prop
  | .expire | .proceed => True
  | _ => False

def remaining (M : ModuleManager) : ℕ :=
  (if M.waiting then 2 else 0) + M.queue.length + M.rest.length +
    match M.phase with
    | .returned => 0
    | .stopping => 4
    | .running => 3 * M.m_vecModules.length + 5
    | .registering | .initializing | .updating => 3 * M.m_vecModules.length + 8

lemma length_stopModules (m_vecModules : List String) : (stopModules m_vecModules).length = 3 * m_vecModules.length := by
  simp [stopModules]
  omega

lemma remaining_handle (h : Quits N M) {task : MainTask} {queue : List MainTask} (hphase : M.phase = .running)
    (hqueue : M.queue = task :: queue) : ({ M with queue := queue }.handle task).remaining < M.remaining := by
  cases task with
  | other number => simp [remaining, ModuleManager.handle, hphase, hqueue]
  | update ec =>
    cases ec with
    | true => simp [remaining, ModuleManager.handle, hphase, hqueue]
    | false =>
      have honStop : M.m_onStop = true := by
        refine h.stopping.resolve_right ?_
        rw [hphase]
        simp
      simp only [remaining, ModuleManager.handle, honStop, hphase, hqueue, if_true, length_stopModules, List.length_cons]
      omega

lemma remaining_finish (hs : M.finish = some M') : M'.remaining < M.remaining := by
  rw [ModuleManager.finish] at hs
  split at hs
  case h_1 hphase | h_2 hphase =>
    cases hs
    simp only [remaining, hphase, if_true]
    split_ifs <;> omega
  case h_3 hphase =>
    cases hs
    simp only [remaining, hphase, cancel, if_true]
    split_ifs
    · simp only [List.length_append, List.length_singleton]
      omega
    · omega
  case h_4 | h_5 | h_6 => cases hs

lemma remaining_step (h : Quits N M) {e : MainEvent} (he : GoesOn e) (hs : M.step e = some M') :
    M'.remaining < M.remaining := by
  cases e with
  | expire =>
    obtain ⟨hwaiting, hs⟩ := Option.ite_none_right_eq_some.mp hs
    cases hs
    simp only [remaining, hwaiting, if_true, List.length_append, List.length_singleton]
    simp only [Bool.false_eq_true, if_false]
    omega
  | proceed =>
    change M.proceed = some M' at hs
    rw [ModuleManager.proceed] at hs
    split at hs
    case h_1 call rest hrest =>
      cases hs
      simp only [remaining, hrest, List.length_cons]
      omega
    case h_2 hrest =>
      split at hs
      case h_1 hphase =>
        split at hs
        · cases hs
        · cases hs
          exact remaining_handle h hphase ‹_›
      case h_2 => exact remaining_finish hs
  | registerModule | init | stop | post => exact he.elim

lemma phase_goesOn (h : M.phase ≠ .registering) {e : MainEvent} (he : GoesOn e) (hs : M.step e = some M') :
    M'.phase ≠ .registering := by
  cases e with
  | expire =>
    obtain ⟨-, hs⟩ := Option.ite_none_right_eq_some.mp hs
    cases hs
    exact h
  | proceed =>
    change M.proceed = some M' at hs
    rw [ModuleManager.proceed] at hs
    split at hs
    case h_1 =>
      cases hs
      exact h
    case h_2 =>
      split at hs
      case h_1 hphase =>
        split at hs
        case h_1 => cases hs
        case h_2 task queue hqueue =>
          cases hs
          cases task with
          | other number => exact h
          | update ec =>
            cases ec with
            | true => exact h
            | false =>
              rw [ModuleManager.handle]
              split_ifs <;> simp
      case h_2 =>
        rw [ModuleManager.finish] at hs
        split at hs <;> cases hs <;> simp
  | registerModule | init | stop | post => exact he.elim

lemma Sound.exists_step (h : M.Sound) (hregistered : M.phase ≠ .registering) (hreturned : M.phase ≠ .returned) :
    ∃ e, GoesOn e ∧ M.step e ≠ none := by
  by_cases hrest : M.rest = []
  case neg =>
    refine ⟨.proceed, trivial, ?_⟩
    obtain ⟨call, rest, hcons⟩ := List.exists_cons_of_ne_nil hrest
    change M.proceed ≠ none
    rw [ModuleManager.proceed, hcons]
    exact Option.some_ne_none _
  case pos =>
  cases hphase : M.phase with
  | registering => exact absurd hphase hregistered
  | returned => exact absurd hphase hreturned
  | initializing | updating | stopping =>
    refine ⟨.proceed, trivial, ?_⟩
    change M.proceed ≠ none
    rw [ModuleManager.proceed, hrest, hphase, ModuleManager.finish, hphase]
    exact Option.some_ne_none _
  | running =>
    cases hqueue : M.queue with
    | nil =>
      refine ⟨.expire, trivial, ?_⟩
      have hwaiting : M.waiting = true := by
        refine (h.armed hphase).resolve_right ?_
        rw [hqueue]
        exact List.not_mem_nil
      rw [ModuleManager.step, if_pos hwaiting]
      exact Option.some_ne_none _
    | cons task queue =>
      refine ⟨.proceed, trivial, ?_⟩
      change M.proceed ≠ none
      rw [ModuleManager.proceed, hrest, hphase, hqueue]
      exact Option.some_ne_none _

/-- Once a process has been asked to stop, no update of a module begins but those of the round that is under way; and
if no more tasks come in, the main thread is through after a bounded number of steps and never stuck before that. -/
theorem stop_takes_effect {es : List MainEvent} (hrun : run step start es = some M) (hstop : M.m_onStop = true) :
    (∀ es' M', run step M es' = some M' → ∃ later, M'.calls = M.calls ++ later ∧
      later.filter isUpdate <+: M.rest.filter isUpdate) ∧
    (M.phase ≠ .registering → ∃ bound, ∀ es' M', (∀ e ∈ es', GoesOn e) → run step M es' = some M' →
      es'.length ≤ bound ∧ (M'.phase = .returned ∨ ∃ e, GoesOn e ∧ M'.step e ≠ none)) := by
  have hsound : M.Sound := run_keeps (fun h hs => h.step hs) sound_start hrun
  have hquits : Quits M M := ⟨hsound, .inl hstop, [], (List.append_nil _).symm, rfl⟩
  constructor
  · intro es' M' hlater
    obtain ⟨later, hcalls, hupdates⟩ := (run_keeps (fun h hs => h.step hs) hquits hlater).updates
    exact ⟨later, hcalls, _, hupdates⟩
  · intro hregistered
    refine ⟨M.remaining, fun es' M' hgoesOn hlater => ?_⟩
    have hless : ∀ {s t : ModuleManager} {e : MainEvent}, Quits M s ∧ s.phase ≠ .registering → GoesOn e →
        step s e = some t → (Quits M t ∧ t.phase ≠ .registering) ∧ t.remaining < s.remaining :=
      fun hI he hs => ⟨⟨hI.1.step hs, phase_goesOn hI.2 he hs⟩, remaining_step hI.1 he hs⟩
    obtain ⟨⟨hquits', hregistered'⟩, hlength⟩ := length_add_remaining hless ⟨hquits, hregistered⟩ hgoesOn hlater
    refine ⟨Nat.le_of_add_right_le hlength, ?_⟩
    by_cases hreturned : M'.phase = .returned
    · exact .inl hreturned
    · exact .inr (hquits'.sound.exists_step hregistered' hreturned)

theorem stop_in_update : ∃ M, run step start twoModules = some M ∧
    M.calls = initModules ["NetModule", "RpcModule"] ++ [.task 0, .hook .onUpdate "NetModule"] ∧
    ∀ es' M', run step M es' = some M' → ∃ later, M'.calls = M.calls ++ later ∧
      later.filter isUpdate <+: [.hook .onUpdate "RpcModule"] := by
  have hrun : ∃ M, run step start twoModules = some M ∧ M.m_onStop = true ∧
      M.calls = initModules ["NetModule", "RpcModule"] ++ [.task 0, .hook .onUpdate "NetModule"] ∧
      M.rest = [.hook .onUpdate "RpcModule"] := ⟨_, rfl, rfl, rfl, rfl⟩
  obtain ⟨M, hrun, hstop, hcalls, hrest⟩ := hrun
  refine ⟨M, hrun, hcalls, fun es' M' hlater => ?_⟩
  obtain ⟨later, hlater, hupdates⟩ := (stop_takes_effect hrun hstop).1 es' M' hlater
  rw [hrest] at hupdates
  exact ⟨later, hlater, hupdates⟩

end ModuleManager

end TonyCat.Loop
