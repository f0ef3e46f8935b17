import TonyCat.Net.ReadPump
import TonyCat.Utility.SpinLock

set_option autoImplicit false

/-! `m_vecMsgFunction` of `NetPbModule`: the net loops put in what the packets call for, `OnUpdate` takes it out and
calls it on the main loop. -/

namespace TonyCat.Net

open TonyCat.Library TonyCat.Utility NetPbModule NetModule
open SessionBuffer (kDefaultMaxBufferSize)

/-- A handler of `RegisterHandle`, with what it parses, or a default handler, which does not use `m_vecMsgFunction`. -/
inductive PacketHandler (Head Body F : Type)
  | registered (parseHead : Bytes → Option Head) (checkHeadTTLError : Head → Bool) (parseBody : Bytes → Option Body)
      (funReadPacket : F)
  | default (func : F)

/-- A `funNetEvent`. -/
structure MsgFunction (Head Body F : Type) where
  funReadPacket : F
  sessionId : ℤ
  msgPacketHead : Head
  msgPacketBody : Body
deriving DecidableEq

/-- One `NetPbModule`; `loopOf` is the loop of `m_workLoop` that a session is on. -/
structure NetPbProcess (Head Body F : Type) where
  native : Endian
  handles : PacketHandles (PacketHandler Head Body F)
  loopOf : ℤ → ℕ

structure MsgFunctions (Head Body F : Type) where
  m_buffRead : ℤ → SessionBuffer kDefaultMaxBufferSize
  /-- all that was read on a session -/
  received : ℤ → Bytes
  /-- what a loop still has to put in of the packets that it has read -/
  reading : ℕ → List (MsgFunction Head Body F)
  /-- `m_vecMsgFunction` under `m_lockMsgFunction` -/
  lock : SpinLock (List (MsgFunction Head Body F)) (MailOp (MsgFunction Head Body F))
  vecGetFunction : List (MsgFunction Head Body F)
  called : List (MsgFunction Head Body F)

inductive MsgEvent
  | sessionRead (sessionId : ℤ) (data : Bytes)
  | emplace_back (loop : ℕ)
  | onUpdate
  | go (thread : ℕ)
  | call

def mainThread : ℕ := 0

def loopThread (loop : ℕ) : ℕ := loop + 1

variable {Head Body F : Type}

/-- What comes of a call of a handler; that it returns false is lost, for `FuncPacketHandleType` returns nothing. -/
def generatePaserPacketFunc (native : Endian) (call : Call (PacketHandler Head Body F)) :
    Option (MsgFunction Head Body F) :=
  match call.funcCb with
  | .registered parseHead checkHeadTTLError parseBody funReadPacket =>
    match paserPbHead native parseHead call.data with
    | none => none
    | some (msgPacketHead, pData) =>
      if checkHeadTTLError msgPacketHead then
        (parseBody pData).map fun msgPacketBody => ⟨funReadPacket, call.sessionId, msgPacketHead, msgPacketBody⟩
      else none
  | .default _ => none

namespace MsgFunctions

def init : MsgFunctions Head Body F :=
  ⟨fun _ => .init kDefaultMaxBufferSize, fun _ => [], fun _ => [], .init [], [], []⟩

variable (N : NetPbProcess Head Body F)

/-- `ReadData` puts in what it parses as it goes along the packets; all of it but putting in is of this thread only. -/
def sessionRead (S : MsgFunctions Head Body F) (sessionId : ℤ) (data : Bytes) : Option (MsgFunctions Head Body F) :=
  match S.reading (N.loopOf sessionId), S.lock.point (loopThread (N.loopOf sessionId)) with
  | [], .away => (doSessionRead (S.m_buffRead sessionId) data).map fun buf =>
    let r := readData N.native N.handles sessionId buf
    { S with
      m_buffRead := Function.update S.m_buffRead sessionId r.1
      received := Function.update S.received sessionId (S.received sessionId ++ data)
      reading := Function.update S.reading (N.loopOf sessionId) (r.2.1.filterMap (generatePaserPacketFunc N.native)) }
  | _, _ => none

def emplace_back (S : MsgFunctions Head Body F) (loop : ℕ) : Option (MsgFunctions Head Body F) :=
  match S.reading loop with
  | [] => none
  | f :: rest => (S.lock.lock (loopThread loop) (.put f)).map fun lock =>
    { S with lock := lock, reading := Function.update S.reading loop rest }

def onUpdate (S : MsgFunctions Head Body F) : Option (MsgFunctions Head Body F) :=
  match S.vecGetFunction with
  | [] => (S.lock.lock mainThread .takeAll).map fun lock => { S with lock := lock }
  | _ :: _ => none

/-- The thread that leaves the lock with what was in the vector is the one of `OnUpdate`. -/
def go (S : MsgFunctions Head Body F) (thread : ℕ) : Option (MsgFunctions Head Body F) :=
  (S.lock.go MailOp.apply thread).map fun lock => match S.lock.point thread with
    | .unlock .takeAll found => { S with lock := lock, vecGetFunction := found }
    | _ => { S with lock := lock }

def call (S : MsgFunctions Head Body F) : Option (MsgFunctions Head Body F) :=
  match S.vecGetFunction with
  | [] => none
  | f :: rest => some { S with vecGetFunction := rest, called := S.called ++ [f] }

def step (S : MsgFunctions Head Body F) : MsgEvent → Option (MsgFunctions Head Body F)
  | .sessionRead sessionId data => S.sessionRead N sessionId data
  | .emplace_back loop => S.emplace_back loop
  | .onUpdate => S.onUpdate
  | .go thread => S.go thread
  | .call => S.call

/-! ### Where the functions of a session are -/

def ofSession (sessionId : ℤ) (fs : List (MsgFunction Head Body F)) : List (MsgFunction Head Body F) :=
  fs.filter fun f => f.sessionId = sessionId

def calledFor (sessionId : ℤ) (stream : Bytes) : List (MsgFunction Head Body F) :=
  ((packetReader N.handles sessionId).drain stream).frames.filterMap (generatePaserPacketFunc N.native)

def putting (S : MsgFunctions Head Body F) (thread : ℕ) : List (MsgFunction Head Body F) :=
  (S.lock.point thread).toDo.toList.flatMap MailOp.puts

def taking (S : MsgFunctions Head Body F) : List (MsgFunction Head Body F) :=
  match S.lock.point mainThread with
  | .unlock _ found => found
  | _ => []

inductive Role : ℕ → MailOp (MsgFunction Head Body F) → Prop
  | takes : Role mainThread .takeAll
  | puts (f : MsgFunction Head Body F) : Role (loopThread (N.loopOf f.sessionId)) (.put f)

structure Kept (S : MsgFunctions Head Body F) : Prop where
  sound : SpinLock.Sound MailOp.apply [] S.lock
  roles : ∀ thread op, (S.lock.point thread).op = some op → Role N thread op
  own : ∀ loop, ∀ f ∈ S.reading loop, N.loopOf f.sessionId = loop
  idle : S.lock.point mainThread ≠ .away → S.vecGetFunction = []
  taken : S.called ++ S.vecGetFunction ++ S.taking = S.lock.history.flatMap Section.taken
  buffer : ∀ sessionId, (S.m_buffRead sessionId).getReadData =
    ((packetReader N.handles sessionId).drain (S.received sessionId)).rest
  parsed : ∀ sessionId, ofSession sessionId (S.lock.history.flatMap Section.put) ++
    ofSession sessionId (S.putting (loopThread (N.loopOf sessionId)) ++ S.reading (N.loopOf sessionId)) =
      calledFor N sessionId (S.received sessionId)

variable {N} {S S' : MsgFunctions Head Body F}

@[simp] lemma ofSession_append (sessionId : ℤ) (fs gs : List (MsgFunction Head Body F)) :
    ofSession sessionId (fs ++ gs) = ofSession sessionId fs ++ ofSession sessionId gs := List.filter_append ..

lemma ofSession_eq_nil {sessionId : ℤ} {fs : List (MsgFunction Head Body F)} (h : ∀ f ∈ fs, f.sessionId ≠ sessionId) :
    ofSession sessionId fs = [] := by
  rw [ofSession, List.filter_eq_nil_iff]
  intro f hf
  simpa using h f hf

lemma ofSession_eq_self {sessionId : ℤ} {fs : List (MsgFunction Head Body F)} (h : ∀ f ∈ fs, f.sessionId = sessionId) :
    ofSession sessionId fs = fs := by
  rw [ofSession, List.filter_eq_self]
  intro f hf
  simpa using h f hf

lemma loopThread_ne_mainThread (loop : ℕ) : loopThread loop ≠ mainThread := Nat.succ_ne_zero loop

lemma loopThread_inj {loop loop' : ℕ} : loopThread loop = loopThread loop' ↔ loop = loop' := Nat.succ_inj

lemma sessionId_of_generate {native : Endian} {call : Call (PacketHandler Head Body F)} {f : MsgFunction Head Body F}
    (h : generatePaserPacketFunc native call = some f) : f.sessionId = call.sessionId := by
  rw [generatePaserPacketFunc] at h
  split at h
  · split at h
    · cases h
    · split at h
      · obtain ⟨body, -, rfl⟩ := Option.map_eq_some_iff.mp h
        rfl
      · cases h
  · cases h

lemma sessionId_of_readPbPacket {H : Type*} {handles : PacketHandles H} {sessionId : ℤ} {msgType : UInt32} {data : Bytes}
    {call : Call H} (h : readPbPacket handles sessionId msgType data = some call) : call.sessionId = sessionId := by
  rw [readPbPacket] at h
  split at h
  · cases h
    rfl
  · split at h
    · cases h
      rfl
    · cases h

lemma sessionId_of_calledFor {sessionId : ℤ} (stream : Bytes) :
    ∀ f ∈ calledFor N sessionId stream, f.sessionId = sessionId := by
  intro f hf
  obtain ⟨call, hcall, hgen⟩ := List.mem_filterMap.mp hf
  have hvalid := ((packetReader_decodes N.handles sessionId).drain_maximal stream).2.1 call hcall
  rw [sessionId_of_generate hgen, sessionId_of_readPbPacket hvalid.handled]

lemma drain_received (sessionId : ℤ) (stream data : Bytes) :
    ((packetReader N.handles sessionId).drain (stream ++ data)).frames =
        ((packetReader N.handles sessionId).drain stream).frames ++
          ((packetReader N.handles sessionId).drain
            (((packetReader N.handles sessionId).drain stream).rest ++ data)).frames ∧
      ((packetReader N.handles sessionId).drain (stream ++ data)).rest =
        ((packetReader N.handles sessionId).drain
          (((packetReader N.handles sessionId).drain stream).rest ++ data)).rest := by
  have hchunks := (packetReader N.handles sessionId).reads_eq_drain FrameReader.settled_nil [stream, data]
  rw [List.nil_append, List.flatten_cons, List.flatten_singleton] at hchunks
  rw [← hchunks.1, ← hchunks.2]
  simp [FrameReader.reads, FrameReader.restAfter]

lemma kept_init : Kept N (init : MsgFunctions Head Body F) where
  sound := SpinLock.sound_init
  roles := by simp [init, SpinLock.init, LockPoint.op]
  own := by simp [init]
  idle := by simp [init]
  taken := rfl
  buffer sessionId := by
    rw [init, SessionBuffer.getReadData_init]
    exact (FrameReader.drain_of_settled FrameReader.settled_nil).2.symm
  parsed sessionId := by
    have hnil := (FrameReader.drain_of_settled (D := packetReader N.handles sessionId) FrameReader.settled_nil).1
    rw [calledFor, init, hnil]
    rfl

theorem Kept.sessionRead (hk : Kept N S) {sessionId : ℤ} {data : Bytes}
    (h : S.sessionRead N sessionId data = some S') : Kept N S' := by
  rw [MsgFunctions.sessionRead] at h
  split at h
  case h_2 => cases h
  case h_1 hreading haway =>
  obtain ⟨buf, hread, rfl⟩ := Option.map_eq_some_iff.mp h
  obtain ⟨hrest, hcalls, -⟩ := readData_drain N.native N.handles sessionId buf
  rw [getReadData_doSessionRead hread, hk.buffer] at hrest hcalls
  obtain ⟨hframes, hleft⟩ := drain_received (N := N) sessionId (S.received sessionId) data
  have hcalled : calledFor N sessionId (S.received sessionId ++ data) = calledFor N sessionId (S.received sessionId) ++
      (readData N.native N.handles sessionId buf).2.1.filterMap (generatePaserPacketFunc N.native) := by
    rw [calledFor, hframes, List.filterMap_append, hcalls]
    rfl
  have hown : ∀ f ∈ (readData N.native N.handles sessionId buf).2.1.filterMap (generatePaserPacketFunc N.native),
      f.sessionId = sessionId := by
    intro f hf
    apply sessionId_of_calledFor (N := N) (S.received sessionId ++ data)
    rw [hcalled]
    exact List.mem_append_right _ hf
  have hputting : S.putting (loopThread (N.loopOf sessionId)) = [] := by
    rw [putting, haway]
    rfl
  refine ⟨hk.sound, hk.roles, ?_, hk.idle, hk.taken, ?_, ?_⟩
  · intro loop f hf
    dsimp only at hf
    by_cases hloop : loop = N.loopOf sessionId
    · subst hloop
      rw [Function.update_self] at hf
      rw [hown f hf]
    · rw [Function.update_of_ne hloop] at hf
      exact hk.own loop f hf
  · intro other
    dsimp only
    by_cases hother : other = sessionId
    · subst hother
      rw [Function.update_self, Function.update_self, hrest, hleft]
    · rw [Function.update_of_ne hother, Function.update_of_ne hother]
      exact hk.buffer other
  · intro other
    have hbefore := hk.parsed other
    dsimp only
    by_cases hother : other = sessionId
    · subst hother
      rw [hputting, hreading] at hbefore
      rw [Function.update_self, Function.update_self, hcalled, ← hbefore]
      change _ ++ ofSession other (S.putting _ ++ _) = _
      rw [hputting, List.nil_append, ofSession_eq_self hown]
      simp [ofSession]
    · rw [Function.update_of_ne hother]
      by_cases hloop : N.loopOf other = N.loopOf sessionId
      · rw [hloop, hputting, hreading] at hbefore
        rw [hloop, Function.update_self, ← hbefore]
        change _ ++ ofSession other (S.putting _ ++ _) = _
        rw [hputting, List.nil_append, ofSession_eq_nil fun f hf heq => hother (heq.symm.trans (hown f hf))]
        rfl
      · rw [Function.update_of_ne hloop]
        exact hbefore

lemma putting_of_point {thread : ℕ} {point : LockPoint (List (MsgFunction Head Body F)) (MailOp (MsgFunction Head Body F))}
    (h : S.lock.point thread = point) : S.putting thread = point.toDo.toList.flatMap MailOp.puts := by
  rw [putting, h]

lemma taking_of_ne {point : LockPoint (List (MsgFunction Head Body F)) (MailOp (MsgFunction Head Body F))}
    (h : S.lock.point mainThread = point) (hne : ∀ op found, point ≠ .unlock op found) : S.taking = [] := by
  rw [taking, h]
  split
  case h_1 op found => exact absurd rfl (hne op found)
  case h_2 => rfl

lemma frame_point (S' : MsgFunctions Head Body F) {thread : ℕ}
    (hothers : ∀ thread', thread' ≠ thread → S'.lock.point thread' = S.lock.point thread') :
    (∀ thread', thread' ≠ thread → S'.putting thread' = S.putting thread') ∧
      (thread ≠ mainThread → S'.taking = S.taking) := by
  constructor
  · intro thread' hne
    rw [putting, putting, hothers thread' hne]
  · intro hne
    rw [taking, taking, hothers mainThread hne.symm]

theorem Kept.emplace_back (hk : Kept N S) {loop : ℕ} (h : S.emplace_back loop = some S') : Kept N S' := by
  rw [MsgFunctions.emplace_back] at h
  split at h
  case h_1 => cases h
  case h_2 f rest hreading =>
  obtain ⟨lock, hlock, rfl⟩ := Option.map_eq_some_iff.mp h
  have hsound := hk.sound.lock hlock
  obtain ⟨haway, rfl⟩ := SpinLock.lock_eq_some hlock
  have hf : N.loopOf f.sessionId = loop := by
    apply hk.own
    rw [hreading]
    exact List.mem_cons_self
  have hothers : ∀ thread', thread' ≠ loopThread loop →
      (S.lock.move (loopThread loop) (.exchange (.put f))).point thread' = S.lock.point thread' :=
    fun thread' hne => SpinLock.point_move_of_ne hne _
  obtain ⟨hputting, htaking⟩ := frame_point (S := S) { S with
    lock := S.lock.move (loopThread loop) (.exchange (.put f)), reading := Function.update S.reading loop rest } hothers
  refine ⟨hsound, ?_, ?_, ?_, ?_, hk.buffer, ?_⟩
  · intro thread op hop
    by_cases hthread : thread = loopThread loop
    · rw [hthread, SpinLock.point_move] at hop
      cases hop
      rw [hthread, ← hf]
      exact .puts f
    · exact hk.roles thread op ((congrArg LockPoint.op (hothers thread hthread)).symm.trans hop)
  · intro loop' g hg
    dsimp only at hg
    by_cases hloop : loop' = loop
    · rw [hloop, Function.update_self] at hg
      rw [hloop]
      apply hk.own
      rw [hreading]
      exact List.mem_cons_of_mem f hg
    · rw [Function.update_of_ne hloop] at hg
      exact hk.own loop' g hg
  · intro hmain
    exact hk.idle ((hothers mainThread (loopThread_ne_mainThread loop).symm) ▸ hmain)
  · rw [htaking (loopThread_ne_mainThread loop)]
    exact hk.taken
  · intro sessionId
    have hbefore := hk.parsed sessionId
    by_cases hloop : N.loopOf sessionId = loop
    · rw [hloop, putting_of_point haway, hreading] at hbefore
      rw [hloop, putting_of_point (SpinLock.point_move _)]
      dsimp only
      rw [Function.update_self]
      exact hbefore
    · rw [hputting _ fun heq => hloop (loopThread_inj.mp heq)]
      dsimp only
      rw [Function.update_of_ne hloop]
      exact hbefore

theorem Kept.onUpdate (hk : Kept N S) (h : S.onUpdate = some S') : Kept N S' := by
  rw [MsgFunctions.onUpdate] at h
  split at h
  case h_2 => cases h
  case h_1 hnone =>
  obtain ⟨lock, hlock, rfl⟩ := Option.map_eq_some_iff.mp h
  have hsound := hk.sound.lock hlock
  obtain ⟨haway, rfl⟩ := SpinLock.lock_eq_some hlock
  have hothers : ∀ thread', thread' ≠ mainThread →
      (S.lock.move mainThread (.exchange .takeAll)).point thread' = S.lock.point thread' :=
    fun thread' hne => SpinLock.point_move_of_ne hne _
  obtain ⟨hputting, -⟩ := frame_point (S := S) { S with
    lock := S.lock.move mainThread (.exchange .takeAll) } hothers
  refine ⟨hsound, ?_, hk.own, fun _ => hnone, ?_, hk.buffer, ?_⟩
  · intro thread op hop
    by_cases hthread : thread = mainThread
    · rw [hthread, SpinLock.point_move] at hop
      cases hop
      rw [hthread]
      exact .takes
    · exact hk.roles thread op ((congrArg LockPoint.op (hothers thread hthread)).symm.trans hop)
  · have hbefore := hk.taken
    rw [taking_of_ne haway (by simp)] at hbefore
    rw [taking_of_ne (SpinLock.point_move _) (by simp)]
    exact hbefore
  · intro sessionId
    rw [hputting _ (loopThread_ne_mainThread _)]
    exact hk.parsed sessionId

lemma go_eq_some {thread : ℕ} (h : S.go thread = some S') : S.lock.go MailOp.apply thread = some S'.lock ∧
    S'.m_buffRead = S.m_buffRead ∧ S'.received = S.received ∧ S'.reading = S.reading ∧ S'.called = S.called ∧
      (S'.vecGetFunction = S.vecGetFunction ∧ (∀ found, S.lock.point thread ≠ .unlock .takeAll found) ∨
        ∃ found, S.lock.point thread = .unlock .takeAll found ∧ S'.vecGetFunction = found) := by
  obtain ⟨lock, hlock, rfl⟩ := Option.map_eq_some_iff.mp h
  split
  case h_1 found hat => exact ⟨hlock, rfl, rfl, rfl, rfl, .inr ⟨found, hat, rfl⟩⟩
  case h_2 hnot => exact ⟨hlock, rfl, rfl, rfl, rfl, .inl ⟨rfl, hnot⟩⟩

lemma vecGetFunction_of_go {thread : ℕ} (h : S.go thread = some S')
    (hne : ∀ found, S.lock.point thread ≠ .unlock .takeAll found) : S'.vecGetFunction = S.vecGetFunction := by
  obtain ⟨-, -, -, -, -, ⟨hsame, -⟩ | ⟨found, hat, -⟩⟩ := go_eq_some h
  · exact hsame
  · exact absurd hat (hne found)

lemma Kept.roles_of_go (hk : Kept N S) {thread : ℕ} (h : S.go thread = some S')
    (hkeeps : (S'.lock.point thread).op = none ∨ (S'.lock.point thread).op = (S.lock.point thread).op) :
    ∀ thread' op, (S'.lock.point thread').op = some op → Role N thread' op := by
  intro thread' op hop
  by_cases hthread : thread' = thread
  · rw [hthread] at hop ⊢
    rcases hkeeps with hnone | hsame
    · rw [hnone] at hop
      cases hop
    · exact hk.roles _ _ (hsame ▸ hop)
  · rw [(SpinLock.gone_of_go (go_eq_some h).1).2 thread' hthread] at hop
    exact hk.roles _ _ hop

lemma Kept.idle_of_go (hk : Kept N S) {thread : ℕ} (h : S.go thread = some S') (hin : S.lock.point thread ≠ .away)
    (hne : ∀ found, S.lock.point thread ≠ .unlock .takeAll found) (hmain : S'.lock.point mainThread ≠ .away) :
    S'.vecGetFunction = [] := by
  rw [vecGetFunction_of_go h hne]
  apply hk.idle
  by_cases hthread : thread = mainThread
  · exact hthread ▸ hin
  · rwa [(SpinLock.gone_of_go (go_eq_some h).1).2 mainThread (Ne.symm hthread)] at hmain

lemma Kept.waits (hk : Kept N S) {thread : ℕ} (h : S.go thread = some S') {op : MailOp (MsgFunction Head Body F)}
    (before : (S.lock.point thread).toDo = some op) (after : (S'.lock.point thread).toDo = some op)
    (history : S'.lock.history = S.lock.history) : Kept N S' := by
  obtain ⟨hlock, hbuff, hreceived, hreading, hcalled, -⟩ := go_eq_some h
  obtain ⟨hputting, htaking⟩ := frame_point _ (SpinLock.gone_of_go hlock).2
  have hnot : ∀ {point : LockPoint (List (MsgFunction Head Body F)) (MailOp (MsgFunction Head Body F))},
      point.toDo = some op → ∀ op' found, point ≠ .unlock op' found := by
    intro point htodo op' found heq
    rw [heq] at htodo
    cases htodo
  have hin : S.lock.point thread ≠ .away := by
    intro haway
    rw [haway] at before
    cases before
  have htaking' : S'.taking = S.taking := by
    by_cases hmain : thread = mainThread
    · subst hmain
      rw [taking_of_ne rfl (hnot before), taking_of_ne rfl (hnot after)]
    · exact htaking hmain
  have hputting' : ∀ thread', S'.putting thread' = S.putting thread' := by
    intro thread'
    by_cases hthread : thread' = thread
    · rw [hthread, putting, putting, before, after]
    · exact hputting thread' hthread
  refine ⟨hk.sound.go hlock, hk.roles_of_go h (.inr ?_), hreading ▸ hk.own, hk.idle_of_go h hin fun _ => hnot before _ _,
    ?_, hbuff ▸ hreceived ▸ hk.buffer, ?_⟩
  · rw [LockPoint.op_of_toDo before, LockPoint.op_of_toDo after]
  · rw [hcalled, vecGetFunction_of_go h fun _ => hnot before _ _, htaking', history]
    exact hk.taken
  · intro sessionId
    rw [history, hputting', hreading, hreceived]
    exact hk.parsed sessionId

lemma Kept.does (hk : Kept N S) {thread : ℕ} (h : S.go thread = some S') {op : MailOp (MsgFunction Head Body F)}
    {found : List (MsgFunction Head Body F)} (before : S.lock.point thread = .changing op found)
    (after : S'.lock.point thread = .unlock op found)
    (history : S'.lock.history = S.lock.history ++ [⟨thread, op, found⟩]) : Kept N S' := by
  obtain ⟨hlock, hbuff, hreceived, hreading, hcalled, -⟩ := go_eq_some h
  obtain ⟨hputting, htaking⟩ := frame_point _ (SpinLock.gone_of_go hlock).2
  have hrole : Role N thread op := hk.roles thread op (by rw [before]; rfl)
  have hnot : ∀ found', S.lock.point thread ≠ .unlock .takeAll found' := by
    intro found' hat
    rw [before] at hat
    cases hat
  refine ⟨hk.sound.go hlock, hk.roles_of_go h (.inr (by rw [before, after]; rfl)), hreading ▸ hk.own,
    hk.idle_of_go h (by rw [before]; simp) hnot, ?_, hbuff ▸ hreceived ▸ hk.buffer, ?_⟩
  · have htaken := hk.taken
    rw [hcalled, vecGetFunction_of_go h hnot, history, List.flatMap_append, List.flatMap_singleton, ← htaken]
    cases hrole with
    | takes =>
      rw [taking_of_ne before (by simp), taking, after, List.append_nil]
      rfl
    | puts f =>
      rw [htaking (loopThread_ne_mainThread _)]
      exact (List.append_nil _).symm
  · intro sessionId
    have hparsed := hk.parsed sessionId
    rw [history, List.flatMap_append, List.flatMap_singleton, hreading, hreceived, ← hparsed]
    cases hrole with
    | takes =>
      rw [hputting _ (loopThread_ne_mainThread _)]
      simp [Section.put, MailOp.puts]
    | puts f =>
      by_cases hloop : N.loopOf sessionId = N.loopOf f.sessionId
      · rw [hloop, putting_of_point before, putting_of_point after]
        simp only [Section.put, MailOp.puts, LockPoint.toDo, Option.toList_none, Option.toList_some, List.flatMap_nil,
          List.flatMap_singleton, List.nil_append, List.append_assoc, ofSession_append]
      · rw [hputting _ fun heq => hloop (loopThread_inj.mp heq)]
        have hother : ofSession sessionId [f] = [] := by
          apply ofSession_eq_nil
          intro g hg heq
          rw [List.mem_singleton.mp hg] at heq
          exact hloop (congrArg N.loopOf heq.symm)
        simp [Section.put, MailOp.puts, hother]

lemma Kept.leaves (hk : Kept N S) {thread : ℕ} (h : S.go thread = some S') {op : MailOp (MsgFunction Head Body F)}
    {found : List (MsgFunction Head Body F)} (before : S.lock.point thread = .unlock op found)
    (after : S'.lock.point thread = .away) (history : S'.lock.history = S.lock.history) : Kept N S' := by
  obtain ⟨hlock, hbuff, hreceived, hreading, hcalled, hvec⟩ := go_eq_some h
  obtain ⟨hputting, htaking⟩ := frame_point _ (SpinLock.gone_of_go hlock).2
  have hrole : Role N thread op := hk.roles thread op (by rw [before]; rfl)
  have hputting' : ∀ thread', S'.putting thread' = S.putting thread' := by
    intro thread'
    by_cases hthread : thread' = thread
    · rw [hthread, putting_of_point before, putting_of_point after]
      rfl
    · exact hputting thread' hthread
  refine ⟨hk.sound.go hlock, hk.roles_of_go h (.inl (by rw [after]; rfl)), hreading ▸ hk.own, ?_, ?_,
    hbuff ▸ hreceived ▸ hk.buffer, ?_⟩
  · intro hmain
    have hthread : thread ≠ mainThread := by
      rintro rfl
      exact hmain after
    cases hrole with
    | takes => exact absurd rfl hthread
    | puts f => exact hk.idle_of_go h (by rw [before]; simp) (by rw [before]; simp) hmain
  · have htaken := hk.taken
    rw [history, hcalled, ← htaken]
    cases hrole with
    | takes =>
      have hidle : S.vecGetFunction = [] := hk.idle (by rw [before]; simp)
      rcases hvec with ⟨-, hnot⟩ | ⟨found', hat, hvec⟩
      · exact absurd before (hnot found)
      · rw [before] at hat
        cases hat
        rw [hvec, hidle, taking_of_ne after (by simp), taking, before]
        simp
    | puts f =>
      rw [vecGetFunction_of_go h (by rw [before]; simp), htaking (loopThread_ne_mainThread _)]
  · intro sessionId
    rw [history, hputting', hreading, hreceived]
    exact hk.parsed sessionId

theorem Kept.go (hk : Kept N S) {thread : ℕ} (h : S.go thread = some S') : Kept N S' := by
  cases (SpinLock.gone_of_go (go_eq_some h).1).1 with
  | waits before after history => exact hk.waits h before after history
  | does before after history => exact hk.does h before after history
  | leaves before after history => exact hk.leaves h before after history

theorem Kept.call (hk : Kept N S) (h : S.call = some S') : Kept N S' := by
  rw [MsgFunctions.call] at h
  split at h
  case h_1 => cases h
  case h_2 f rest hget =>
  cases h
  refine ⟨hk.sound, hk.roles, hk.own, ?_, ?_, hk.buffer, hk.parsed⟩
  · intro hmain
    have hidle := hk.idle hmain
    rw [hget] at hidle
    cases hidle
  · have hbefore := hk.taken
    rw [hget] at hbefore
    rw [← hbefore]
    change S.called ++ [f] ++ rest ++ S.taking = _
    simp

theorem Kept.step (hk : Kept N S) {e : MsgEvent} (h : S.step N e = some S') : Kept N S' := by
  cases e with
  | sessionRead sessionId data => exact hk.sessionRead h
  | emplace_back loop => exact hk.emplace_back h
  | onUpdate => exact hk.onUpdate h
  | go thread => exact hk.go h
  | call => exact hk.call h

lemma kept_of_run {es : List MsgEvent} (h : run (step N) init es = some S) : Kept N S :=
  run_keeps (fun hk hone => hk.step hone) kept_init h

def waiting (S : MsgFunctions Head Body F) (loop : ℕ) : List (MsgFunction Head Body F) :=
  S.vecGetFunction ++ S.taking ++ S.lock.data ++ S.putting (loopThread loop) ++ S.reading loop

lemma called_append_waiting {es : List MsgEvent} (h : run (step N) init es = some S) (sessionId : ℤ) :
    ofSession sessionId S.called ++ ofSession sessionId (S.waiting (N.loopOf sessionId)) =
      calledFor N sessionId (S.received sessionId) := by
  have hk := kept_of_run h
  have hbox := hk.sound.serial.mailbox
  rw [← hk.taken] at hbox
  calc ofSession sessionId S.called ++ ofSession sessionId (S.waiting (N.loopOf sessionId))
      = ofSession sessionId (S.called ++ S.vecGetFunction ++ S.taking ++ S.lock.data) ++
          ofSession sessionId (S.putting (loopThread (N.loopOf sessionId)) ++ S.reading (N.loopOf sessionId)) := by
        simp [waiting]
    _ = calledFor N sessionId (S.received sessionId) := by
        rw [hbox]
        exact hk.parsed sessionId

structure Quiet (S : MsgFunctions Head Body F) : Prop where
  away : ∀ thread, S.lock.point thread = .away
  reading : ∀ loop, S.reading loop = []
  m_vecMsgFunction : S.lock.data = []
  vecGetFunction : S.vecGetFunction = []

lemma Quiet.waiting_eq_nil (h : S.Quiet) (loop : ℕ) : S.waiting loop = [] := by
  rw [waiting, h.vecGetFunction, h.m_vecMsgFunction, h.reading, taking_of_ne (h.away _) (by simp),
    putting_of_point (h.away _)]
  rfl

/-- In every run, whatever the threads do in between, the functions of each session are called on the main loop in the
order of its packets, each at most once; when all is quiet none is missing. -/
theorem called_in_order {es : List MsgEvent} (h : run (step N) init es = some S) (sessionId : ℤ) :
    ofSession sessionId S.called <+: calledFor N sessionId (S.received sessionId) ∧
      (S.Quiet → ofSession sessionId S.called = calledFor N sessionId (S.received sessionId)) := by
  have hall := called_append_waiting h sessionId
  constructor
  · exact ⟨_, hall⟩
  · intro hquiet
    rw [hquiet.waiting_eq_nil] at hall
    exact (List.append_nil _).symm.trans hall

def helloHandler : NetPbProcess Bytes Bytes Unit where
  native := .little
  handles := ⟨fun msgType => if msgType = 7 then some (.registered some (fun _ => true) some ()) else none, none⟩
  loopOf _ := 0

def helloPacket : Bytes := packetBytes 7 [0, 0, 0, 1, 5, 6]

lemma calledFor_helloPacket : calledFor helloHandler 1 helloPacket = [⟨(), 1, [5], [6]⟩] := by
  let call : Call (PacketHandler Bytes Bytes Unit) := ⟨.registered some (fun _ => true) some (), 1, 7, [0, 0, 0, 1, 5, 6]⟩
  have hvalid : ∀ c ∈ [call], c.Valid helloHandler.handles 1 := by
    intro c hc
    rw [List.mem_singleton.mp hc]
    exact ⟨rfl, by decide⟩
  have hdrain := (packetReader_decodes helloHandler.handles 1).drain_flatMap hvalid rfl
  rw [List.flatMap_singleton] at hdrain
  have hparse : paserPbHead .little (some : Bytes → Option Bytes) [0, 0, 0, 1, 5, 6] = some ([5], [6]) := by
    decide +kernel
  have hgen : generatePaserPacketFunc .little call = some ⟨(), 1, [5], [6]⟩ := by
    simp [generatePaserPacketFunc, call, hparse]
  change ((packetReader helloHandler.handles 1).drain call.packetBytes).frames.filterMap _ = _
  rw [hdrain]
  exact List.filterMap_cons_some hgen

lemma sessionRead_init (sessionId : ℤ) {data : Bytes} {buf : SessionBuffer kDefaultMaxBufferSize}
    (hread : doSessionRead (SessionBuffer.init kDefaultMaxBufferSize) data = some buf) :
    step N init (.sessionRead sessionId data) = some ⟨Function.update (fun _ => .init kDefaultMaxBufferSize) sessionId
      (readData N.native N.handles sessionId buf).1, Function.update (fun _ => []) sessionId data,
        Function.update (fun _ => []) (N.loopOf sessionId) (calledFor N sessionId data), .init [], [], []⟩ := by
  have hdata : buf.getReadData = data := by
    rw [getReadData_doSessionRead hread, SessionBuffer.getReadData_init]
    rfl
  have hcalls : calledFor N sessionId data =
      (readData N.native N.handles sessionId buf).2.1.filterMap (generatePaserPacketFunc N.native) := by
    rw [(readData_drain N.native N.handles sessionId buf).2.1, hdata]
    rfl
  change (doSessionRead (SessionBuffer.init kDefaultMaxBufferSize) data).map _ = _
  rw [hread, hcalls]
  rfl

/-- What a loop has read is put into `m_vecMsgFunction`, taken out by `OnUpdate` and called. -/
def callEvents : List MsgEvent :=
  [.emplace_back 0, .go 1, .go 1, .go 1, .go 1, .onUpdate, .go 0, .go 0, .go 0, .go 0, .call]

lemma run_callEvents (buffs : ℤ → SessionBuffer kDefaultMaxBufferSize) (received : ℤ → Bytes)
    (f : MsgFunction Head Body F) :
    ∃ S, run (step N) ⟨buffs, received, Function.update (fun _ => []) 0 [f], .init [], [], []⟩ callEvents = some S ∧
      S.received = received ∧ S.Quiet := by
  refine ⟨_, rfl, rfl, ?_, ?_, rfl, rfl⟩
  · intro thread
    by_cases hmain : thread = 0
    · rw [hmain]
      rfl
    by_cases hloop : thread = 1
    · rw [hloop]
      rfl
    iterate 5 refine (Function.update_of_ne hmain _ _).trans ?_
    iterate 5 refine (Function.update_of_ne hloop _ _).trans ?_
    rfl
  · intro loop
    by_cases hzero : loop = 0
    · rw [hzero]
      rfl
    · refine (Function.update_of_ne hzero _ _).trans ?_
      exact Function.update_of_ne hzero [f] fun _ => []

def helloEvents : List MsgEvent := .sessionRead 1 helloPacket :: callEvents

lemma run_helloEvents : ∃ S, run (step helloHandler) init helloEvents = some S ∧ S.received 1 = helloPacket ∧
    S.Quiet := by
  obtain ⟨buf, hread⟩ : ∃ buf, doSessionRead (SessionBuffer.init kDefaultMaxBufferSize) helloPacket = some buf := by
    have hroom : helloPacket.length ≤ (SessionBuffer.init kDefaultMaxBufferSize).currentWritableSize := by
      rw [SessionBuffer.currentWritableSize_init]
      decide
    have hspec := (doSessionRead_spec (by decide) SessionBuffer.sized_init (by decide) hroom).1
    rw [← Option.ne_none_iff_exists', ne_eq, hspec, SessionBuffer.getReadableSize]
    decide
  obtain ⟨buffs, hstep⟩ : ∃ buffs, step helloHandler init (.sessionRead 1 helloPacket) = some ⟨buffs,
      Function.update (fun _ => []) 1 helloPacket, Function.update (fun _ => []) 0 [⟨(), 1, [5], [6]⟩], .init [], [], []⟩ := by
    rw [sessionRead_init 1 hread, calledFor_helloPacket]
    exact ⟨_, rfl⟩
  obtain ⟨S, hrun, hreceived, hquiet⟩ := run_callEvents (N := helloHandler) buffs
    (Function.update (fun _ => []) 1 helloPacket) ⟨(), 1, [5], [6]⟩
  refine ⟨S, ?_, ?_, hquiet⟩
  · rw [helloEvents, run, hstep]
    exact hrun
  · rw [hreceived]
    exact Function.update_self 1 helloPacket fun _ => []

theorem called_in_order_helloPacket : ∃ S, run (step helloHandler) init helloEvents = some S ∧
    ofSession 1 S.called = [⟨(), 1, [5], [6]⟩] := by
  obtain ⟨S, hrun, hreceived, hquiet⟩ := run_helloEvents
  refine ⟨S, hrun, ?_⟩
  rw [(called_in_order hrun 1).2 hquiet, hreceived, calledFor_helloPacket]

end MsgFunctions

end TonyCat.Net
