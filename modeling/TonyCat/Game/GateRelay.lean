import TonyCat.Game.ClientPbModule
import TonyCat.Game.ServerHead
import TonyCat.Net.NetPbModule

set_option autoImplicit false

/-! The packets that the gate passes on between its clients and the logic server. -/

namespace TonyCat.Game

open TonyCat.Library TonyCat.Net

inductive Destination
  | logicServer
  | session (sessionId : ℤ)
  deriving DecidableEq

/-- A call of `SendPacket`; the head is `none` when it is what a failed parse leaves. -/
structure Sent where
  dest : Destination
  msgType : UInt32
  head : Option ServerHead
  body : Bytes
  deriving DecidableEq

inductive GateHandle
  | playerLoginReq
  | onClientMessage
  | onServerMessage
  | registered
  deriving DecidableEq

structure GateParts where
  native : Endian
  parseClientHead : Bytes → Option ClientHead
  parseServerHead : Bytes → Option ServerHead
  registered : UInt32 → Bool

namespace PacketHandles

variable {H : Type*}

def registerPacketHandle (handles : PacketHandles H) (msgType : UInt32) (func : H) : PacketHandles H :=
  { handles with mapPackethandle := Function.update handles.mapPackethandle msgType (some func) }

def setDefaultPacketHandle (handles : PacketHandles H) (func : H) : PacketHandles H :=
  { handles with funDefaultPacketHandle := some func }

end PacketHandles

open PacketHandles

namespace ClientPbModule

def onInit : PacketHandles GateHandle :=
  let handles := registerPacketHandle ⟨fun _ => none, none⟩ cs_msgid_playerlogin_req .playerLoginReq
  let handles := setDefaultPacketHandle handles .onClientMessage
  setDefaultPacketHandle handles .onServerMessage

variable (parts : GateParts) (gate : ClientPbModule)

/-- `ServiceGovernmentModule` connects the servers through `NetPbModule`, which has no default handler. -/
def serverHandles : PacketHandles GateHandle :=
  ⟨fun msgType => if parts.registered msgType then some .registered else none, none⟩

/-- What `PaserPbHead` returns is not looked at: after a failure the body is empty. -/
def onClientMessage (clientSessionId : ℤ) (msgType : UInt32) (data : Bytes) : List Sent :=
  if msgType ≥ ss_msgid_begin then
    []
  else
    let pData := match NetPbModule.paserPbHead parts.native parts.parseClientHead data with
      | some (_, body) => body
      | none => []
    match gate.getGateUserInfoBySessionId clientSessionId with
    | none => []
    | some pUserInfo => [⟨.logicServer, msgType, some ⟨pUserInfo.userId, 0, 0⟩, pData⟩]

/-- The user that is looked up is a fresh `USER_ID`, not that of the head. -/
def onServerMessage (_serverSessionId : ℤ) (msgType : UInt32) (data : Bytes) : List Sent :=
  let parsed := NetPbModule.paserPbHead parts.native parts.parseServerHead data
  let pData := match parsed with
    | some (_, body) => body
    | none => []
  let userId : Bytes := []
  match gate.getGateUserInfoByUserId userId with
  | some pUserInfo => [⟨.session pUserInfo.userSessionId, msgType, parsed.map Prod.fst, pData⟩]
  | none => []

def callHandle (call : Call GateHandle) : List Sent :=
  match call.funcCb with
  | .playerLoginReq => []
  | .onClientMessage => gate.onClientMessage parts call.sessionId call.msgType call.data
  | .onServerMessage => gate.onServerMessage parts call.sessionId call.msgType call.data
  | .registered => []

/-- What a packet makes the gate send; a packet without a handler closes its session. -/
def readPacket (handles : PacketHandles GateHandle) (sessionId : ℤ) (msgType : UInt32) (data : Bytes) : List Sent :=
  match NetPbModule.readPbPacket handles sessionId msgType data with
  | some call => gate.callHandle parts call
  | none => []

inductive RelayEvent
  | user (e : UserEvent)
  | clientPacket (sessionId : ℤ) (msgType : UInt32) (data : Bytes)
  | serverPacket (sessionId : ℤ) (msgType : UInt32) (data : Bytes)

structure Relay where
  gate : ClientPbModule
  event : RelayEvent
  sent : List Sent

def relay (e : RelayEvent) : Option (ClientPbModule × List Relay) :=
  match e with
  | .user e => some (gate.handle e, [])
  | .clientPacket sessionId msgType data =>
    some (gate, [⟨gate, e, gate.readPacket parts onInit sessionId msgType data⟩])
  | .serverPacket sessionId msgType data =>
    some (gate, [⟨gate, e, gate.readPacket parts (serverHandles parts) sessionId msgType data⟩])

def forwards (sessionId : ℤ) (msgType : UInt32) (data : Bytes) : Option (GateUserInfo × Bytes) :=
  if msgType < ss_msgid_begin then
    (NetPbModule.paserPbHead parts.native parts.parseClientHead data).bind fun parsed =>
      (gate.getGateUserInfoBySessionId sessionId).map fun pUserInfo => (pUserInfo, parsed.2)
  else
    none

def relays (data : Bytes) : Option (GateUserInfo × ServerHead × Bytes) :=
  (NetPbModule.paserPbHead parts.native parts.parseServerHead data).bind fun parsed =>
    (gate.getGateUserInfoByUserId parsed.1.user_id).map fun pUserInfo => (pUserInfo, parsed)

/-- Packets with a handler of their own are not passed on. -/
def Relay.Exact (r : Relay) : Prop :=
  match r.event with
  | .user _ => True
  | .clientPacket sessionId msgType data => msgType ≠ cs_msgid_playerlogin_req →
    match r.gate.forwards parts sessionId msgType data with
    | some (pUserInfo, body) =>
      ∃ head : ServerHead, head.user_id = pUserInfo.userId ∧ r.sent = [⟨.logicServer, msgType, some head, body⟩]
    | none => r.sent = []
  | .serverPacket _ msgType data => parts.registered msgType = false →
    match r.gate.relays parts data with
    | some (pUserInfo, head, body) => r.sent = [⟨.session pUserInfo.userSessionId, msgType, some head, body⟩]
    | none => r.sent = []

def NothingToRelay : RelayEvent → Prop
  | .user _ => True
  | .clientPacket sessionId msgType data => msgType = cs_msgid_playerlogin_req ∨
    (gate.getGateUserInfoByUserId [] = none ∧ gate.forwards parts sessionId msgType data = none)
  | .serverPacket _ msgType data => parts.registered msgType = true ∨ gate.relays parts data = none

variable {parts gate}

lemma readPacket_client {sessionId : ℤ} {msgType : UInt32} {data : Bytes} (h : msgType ≠ cs_msgid_playerlogin_req) :
    gate.readPacket parts onInit sessionId msgType data = gate.onServerMessage parts sessionId msgType data := by
  have hmap : onInit.mapPackethandle msgType = none := Function.update_of_ne h _ _
  simp only [readPacket, NetPbModule.readPbPacket, hmap]
  rfl

lemma readPacket_server {sessionId : ℤ} {msgType : UInt32} {data : Bytes} :
    gate.readPacket parts (serverHandles parts) sessionId msgType data = [] := by
  cases hreg : parts.registered msgType <;>
    simp [readPacket, NetPbModule.readPbPacket, serverHandles, callHandle, hreg]

/-- What is installed for the clients sends to the session of the empty user id, or nowhere. -/
lemma onServerMessage_eq (sessionId : ℤ) (msgType : UInt32) (data : Bytes) :
    (gate.getGateUserInfoByUserId [] = none ∧ gate.onServerMessage parts sessionId msgType data = []) ∨
      ∃ pUserInfo head body, gate.getGateUserInfoByUserId [] = some pUserInfo ∧
        gate.onServerMessage parts sessionId msgType data =
          [⟨.session pUserInfo.userSessionId, msgType, head, body⟩] := by
  cases h : gate.getGateUserInfoByUserId [] with
  | none => exact Or.inl ⟨rfl, by simp only [onServerMessage, h]⟩
  | some pUserInfo =>
    refine Or.inr ⟨pUserInfo, (NetPbModule.paserPbHead parts.native parts.parseServerHead data).map Prod.fst,
      match NetPbModule.paserPbHead parts.native parts.parseServerHead data with
      | some (_, body) => body
      | none => [], rfl, ?_⟩
    simp only [onServerMessage, h]

/-- `OnClientMessage`, were it installed, would be exact but for heads that do not parse. -/
lemma onClientMessage_eq {sessionId : ℤ} {msgType : UInt32} {data : Bytes}
    (h : (NetPbModule.paserPbHead parts.native parts.parseClientHead data).isSome) :
    gate.onClientMessage parts sessionId msgType data =
      match gate.forwards parts sessionId msgType data with
      | some (pUserInfo, body) => [⟨.logicServer, msgType, some ⟨pUserInfo.userId, 0, 0⟩, body⟩]
      | none => [] := by
  obtain ⟨⟨head, body⟩, hparsed⟩ := Option.isSome_iff_exists.mp h
  simp only [onClientMessage, forwards, hparsed, Option.bind_some, ge_iff_le]
  by_cases hm : ss_msgid_begin ≤ msgType
  · rw [if_pos hm, if_neg (UInt32.not_lt.mpr hm)]
  · rw [if_neg hm, if_pos (UInt32.not_le.mp hm)]
    cases gate.getGateUserInfoBySessionId sessionId <;> rfl

lemma exact_client_iff (sessionId : ℤ) (msgType : UInt32) (data : Bytes) :
    Relay.Exact parts ⟨gate, .clientPacket sessionId msgType data,
      gate.readPacket parts onInit sessionId msgType data⟩ ↔
        gate.NothingToRelay parts (.clientPacket sessionId msgType data) := by
  by_cases hlogin : msgType = cs_msgid_playerlogin_req
  · exact iff_of_true (fun hne => absurd hlogin hne) (Or.inl hlogin)
  · simp only [Relay.Exact, NothingToRelay, ne_eq, hlogin, not_false_eq_true, forall_const, false_or,
      readPacket_client hlogin]
    obtain ⟨hnone, hsent⟩ | ⟨pUserInfo, head, body, hsome, hsent⟩ := onServerMessage_eq sessionId msgType data
    · rw [hsent]
      cases gate.forwards parts sessionId msgType data <;> simp [hnone]
    · rw [hsent]
      cases gate.forwards parts sessionId msgType data <;> simp [hsome]

lemma exact_server_iff (sessionId : ℤ) (msgType : UInt32) (data : Bytes) :
    Relay.Exact parts ⟨gate, .serverPacket sessionId msgType data,
      gate.readPacket parts (serverHandles parts) sessionId msgType data⟩ ↔
        gate.NothingToRelay parts (.serverPacket sessionId msgType data) := by
  simp only [Relay.Exact, NothingToRelay, readPacket_server]
  cases parts.registered msgType <;> cases gate.relays parts data <;> simp

theorem relay_exact_iff {events : List RelayEvent} {out : List Relay}
    (h : Turns (fun gate => ClientPbModule.relay parts gate) init events gate out) :
    (∀ r ∈ out, r.Exact parts) ↔
      TurnsMeet (fun gate => ClientPbModule.relay parts gate) (fun gate => gate.NothingToRelay parts) init events := by
  refine h.outputs_iff (I := fun _ => True) (fun {s t e os} _ hs => ⟨?_, fun _ => trivial⟩) trivial
  cases e with
  | user e =>
    cases hs
    simp [NothingToRelay]
  | clientPacket sessionId msgType data =>
    cases hs
    rw [List.forall_mem_singleton]
    exact exact_client_iff sessionId msgType data
  | serverPacket sessionId msgType data =>
    cases hs
    rw [List.forall_mem_singleton]
    exact exact_server_iff sessionId msgType data

def emptyHeads : GateParts where
  native := .little
  parseClientHead := fun bytes => if bytes = [] then some ⟨0, 0⟩ else none
  parseServerHead := fun bytes => if bytes = [] then some ⟨[], 0, 0⟩ else none
  registered := fun _ => false

/-- A client who is logged in sends message 100 with an empty head and the body `[1, 2]`: nothing is passed on. -/
theorem logged_in_not_forwarded : ∃ gate out,
    Turns (fun gate => ClientPbModule.relay emptyHeads gate) init
      [.user (.login 10 [7]), .clientPacket 10 100 [0, 0, 0, 0, 1, 2]] gate out ∧
    out.map Relay.sent = [[]] ∧
    gate.forwards emptyHeads 10 100 [0, 0, 0, 0, 1, 2] = some (⟨[7], 10⟩, [1, 2]) ∧
    ¬ ∀ r ∈ out, r.Exact emptyHeads := by
  refine ⟨_, _, rfl, by decide, by decide, fun h => ?_⟩
  have hexact := (exact_client_iff 10 100 [0, 0, 0, 0, 1, 2]).mp (h _ List.mem_cons_self)
  revert hexact
  simp only [NothingToRelay]
  decide

theorem logged_out_not_forwarded : ∃ gate out,
    Turns (fun gate => ClientPbModule.relay emptyHeads gate) init
      [.user (.login 10 [7]), .user (.logout [7] false), .clientPacket 10 100 [0, 0, 0, 0, 1, 2]] gate out ∧
    out.length = 1 ∧ ∀ r ∈ out, r.Exact emptyHeads := by
  have hrun : ∃ r, feed (fun gate => ClientPbModule.relay emptyHeads gate) init
      [.user (.login 10 [7]), .user (.logout [7] false), .clientPacket 10 100 [0, 0, 0, 0, 1, 2]] = some r ∧
        r.2.length = 1 := ⟨_, rfl, by decide⟩
  obtain ⟨⟨gate, out⟩, h, hlength⟩ := hrun
  refine ⟨gate, out, h, hlength, (relay_exact_iff h).mpr ?_⟩
  refine (turnsMeet_cons rfl).mpr ⟨trivial, (turnsMeet_cons rfl).mpr ⟨trivial, ?_⟩⟩
  exact (turnsMeet_cons rfl).mpr ⟨Or.inr ⟨by decide, by decide⟩, turnsMeet_nil⟩

end ClientPbModule

end TonyCat.Game
