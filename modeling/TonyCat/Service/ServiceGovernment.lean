import Mathlib.Logic.Function.Basic
import TonyCat.Library.Run

set_option autoImplicit false

/-! The links of `ServiceGovernmentModule` to the configured server instances. Events are what the main
loop handles and how the sockets behave; time is left out, so a timer may expire at any moment. -/

namespace TonyCat.Service

open TonyCat.Library

variable {K : Type*}

inductive Link
  /-- the first `DoSessionConnect`, which has a callback -/
  | firstTry
  /-- the second one, which has none -/
  | secondTry
  /-- connected, with the task that enters it into the map still queued -/
  | registering (nSessionId : ℤ)
  | live (nSessionId : ℤ)
  /-- connected by the second try -/
  | unregistered
  /-- closed, with its close callback still to come -/
  | closing (nSessionId : ℤ)
  deriving DecidableEq

structure ServerInstanceInfo where
  nSessionId : ℤ
  timerReconnect : Bool
  /-- the timer waits, armed after the heartbeat of this session -/
  timerHeartbeat : Option ℤ

/-- An instance with its sessions, the timers that expired before they could be cancelled, and the sessions
whose heartbeat waits for its response. -/
structure Instance extends ServerInstanceInfo where
  links : List Link
  expiredReconnects : ℕ
  expiredHeartbeats : ℕ
  heartbeats : List ℤ

structure ServiceGovernment (K : Type*) where
  nNextSessionId : ℤ
  mapServerList : K → Instance

namespace Instance

def connect (info : Instance) : Instance := { info with links := info.links ++ [.firstTry] }

def connectServerInstance (info : Instance) : Instance := info.connect

def onDisconnect (info : Instance) (nSessionId : ℤ) : Instance :=
  let info := if info.nSessionId ≠ 0 ∧ info.nSessionId = nSessionId then { info with nSessionId := 0 } else info
  { info with timerHeartbeat := none, timerReconnect := true }

def onHeartbeat (info : Instance) : Instance := { info with heartbeats := info.heartbeats ++ [info.nSessionId] }

def rearmHeartbeat (info : Instance) (nSessionId : ℤ) : Instance :=
  { info with
    heartbeats := info.heartbeats.erase nSessionId
    timerHeartbeat := some nSessionId }

def onConnectSucess (info : Instance) (nSessionId : ℤ) (bSuccess : Bool) : Instance :=
  if bSuccess then onHeartbeat { info with nSessionId := nSessionId } else info.onDisconnect nSessionId

def closeLink (nSessionId : ℤ) : Link → Link
  | .live id => if id = nSessionId then .closing id else .live id
  | link => link

def closeInMainLoop (info : Instance) (nSessionId : ℤ) : Instance :=
  { info with links := info.links.map (closeLink nSessionId) }

end Instance

namespace ServiceGovernment

inductive Event (K : Type*)
  | connected (key : K) (link : ℕ) (ec : Bool)
  | registered (key : K) (link : ℕ)
  | socketClosed (key : K) (link : ℕ)
  | closeHandled (key : K) (link : ℕ)
  | heartbeatDone (key : K) (nSessionId : ℤ) (success : Bool)
  | reconnectExpired (key : K)
  | reconnectFired (key : K)
  | heartbeatExpired (key : K)
  | heartbeatFired (key : K)
  | heartbeatReq (key : K) (nSessionId : ℤ)
  | accepted

def modify [DecidableEq K] (gov : ServiceGovernment K) (key : K) (info : Instance) : ServiceGovernment K :=
  { gov with mapServerList := Function.update gov.mapServerList key info }

@[simp] lemma mapServerList_modify [DecidableEq K] (gov : ServiceGovernment K) (key key' : K) (info : Instance) :
    (gov.modify key info).mapServerList key' = if key' = key then info else gov.mapServerList key' :=
  Function.update_apply ..

def initConnect : ServiceGovernment K where
  nNextSessionId := 0
  mapServerList _ := Instance.connectServerInstance ⟨⟨0, false, none⟩, [], 0, 0, []⟩

def createSessionId (gov : ServiceGovernment K) : ServiceGovernment K :=
  { gov with nNextSessionId := gov.nNextSessionId + 1 }

/-- The session may belong to any instance. -/
def closeInMainLoop (gov : ServiceGovernment K) (nSessionId : ℤ) : ServiceGovernment K :=
  { gov with mapServerList := fun key => (gov.mapServerList key).closeInMainLoop nSessionId }

@[simp] lemma mapServerList_closeInMainLoop (gov : ServiceGovernment K) (nSessionId : ℤ) (key : K) :
    (gov.closeInMainLoop nSessionId).mapServerList key = (gov.mapServerList key).closeInMainLoop nSessionId := rfl

variable [DecidableEq K]

/-- The completion of `async_connect`; `ec` is the absence of an error. -/
def doSessionConnect (gov : ServiceGovernment K) (key : K) (link : ℕ) (ec : Bool) : Option (ServiceGovernment K) :=
  let info := gov.mapServerList key
  match info.links[link]?, ec with
  | some .firstTry, true =>
    let gov := gov.createSessionId
    some (gov.modify key { info with links := info.links.set link (.registering gov.nNextSessionId) })
  | some .firstTry, false => some (gov.modify key { info with links := info.links.set link .secondTry })
  | some .secondTry, true => some (gov.modify key { info with links := info.links.set link .unregistered })
  | some .secondTry, false => some (gov.modify key { info with links := info.links.eraseIdx link })
  | _, _ => none

def heartbeatResumed (gov : ServiceGovernment K) (key : K) (nSessionId : ℤ) (success : Bool) :
    Option (ServiceGovernment K) :=
  let info := gov.mapServerList key
  if nSessionId ∈ info.heartbeats then
    let gov := gov.modify key (info.rearmHeartbeat nSessionId)
    if success then
      some gov
    else
      let gov := gov.closeInMainLoop nSessionId
      some (gov.modify key ((gov.mapServerList key).onDisconnect nSessionId))
  else
    none

def step (gov : ServiceGovernment K) : Event K → Option (ServiceGovernment K)
  | .connected key link ec => gov.doSessionConnect key link ec
  | .registered key link =>
    let info := gov.mapServerList key
    match info.links[link]? with
    | some (.registering nSessionId) =>
      some (gov.modify key
        ({ info with links := info.links.set link (.live nSessionId) }.onConnectSucess nSessionId true))
    | _ => none
  | .socketClosed key link =>
    let info := gov.mapServerList key
    match info.links[link]? with
    | some (.live nSessionId) =>
      some (gov.modify key { info with links := info.links.set link (.closing nSessionId) })
    | some .unregistered => some (gov.modify key { info with links := info.links.set link (.closing 0) })
    | _ => none
  | .closeHandled key link =>
    let info := gov.mapServerList key
    match info.links[link]? with
    | some (.closing nSessionId) =>
      some (gov.modify key ({ info with links := info.links.eraseIdx link }.onDisconnect nSessionId))
    | _ => none
  | .heartbeatDone key nSessionId success => gov.heartbeatResumed key nSessionId success
  | .reconnectExpired key =>
    let info := gov.mapServerList key
    if info.timerReconnect then
      some (gov.modify key { info with
        timerReconnect := false
        expiredReconnects := info.expiredReconnects + 1 })
    else
      none
  | .reconnectFired key =>
    let info := gov.mapServerList key
    if 0 < info.expiredReconnects then
      some (gov.modify key
        (Instance.connectServerInstance { info with expiredReconnects := info.expiredReconnects - 1 }))
    else
      none
  | .heartbeatExpired key =>
    let info := gov.mapServerList key
    if info.timerHeartbeat.isSome then
      some (gov.modify key { info with
        timerHeartbeat := none
        expiredHeartbeats := info.expiredHeartbeats + 1 })
    else
      none
  | .heartbeatFired key =>
    let info := gov.mapServerList key
    if 0 < info.expiredHeartbeats then
      some (gov.modify key
        (Instance.onHeartbeat { info with expiredHeartbeats := info.expiredHeartbeats - 1 }))
    else
      none
  | .heartbeatReq key nSessionId =>
    some (gov.modify key { gov.mapServerList key with nSessionId := nSessionId })
  | .accepted => some gov.createSessionId

end ServiceGovernment

end TonyCat.Service
