import TonyCat.Net.MsgFunctions
import TonyCat.Net.WritePump

set_option autoImplicit false

/-! A connection from end to end: the packets that go into the write buffer of one process, and the functions that
the main loop of the other one calls. -/

namespace TonyCat.Net

open TonyCat.Library TonyCat.Utility NetPbModule MsgFunctions
open SessionBuffer (kDefaultMaxBufferSize)

structure SentPacket where
  msgType : UInt32
  packetHead : PacketNode
  packetBody : PacketNode

variable {Head Body F : Type} {nMaxBuffSize : ℕ}

namespace SentPacket

def bytes (packet : SentPacket) : Bytes := packetBytes packet.msgType (payload packet.packetHead packet.packetBody)

def handler {H : Type*} (handles : PacketHandles H) (packet : SentPacket) : Option H :=
  (handles.mapPackethandle packet.msgType).or handles.funDefaultPacketHandle

def msgFunction (handles : PacketHandles (PacketHandler Head Body F)) (sessionId : ℤ) (packet : SentPacket) :
    Option (MsgFunction Head Body F) :=
  match packet.handler handles with
  | some (.registered parseHead checkHeadTTLError parseBody funReadPacket) =>
    (parseHead packet.packetHead.bytes).bind fun msgPacketHead =>
      if checkHeadTTLError msgPacketHead then
        (parseBody packet.packetBody.bytes).map fun msgPacketBody => ⟨funReadPacket, sessionId, msgPacketHead, msgPacketBody⟩
      else none
  | _ => none

def Fits (packet : SentPacket) : Prop := packet.packetHead.bytes.length + packet.packetBody.bytes.length ≤ 0xffffff

end SentPacket

def acceptedPacket (native : Endian) (s : WriteSession nMaxBuffSize) : WriteEvent → List SentPacket
  | .packet msgType packetHead packetBody =>
    if (writeDataOnSessionThread native s.m_buffWrite msgType packetHead packetBody).isSome then
      [⟨msgType, packetHead, packetBody⟩]
    else []
  | _ => []

def acceptedPackets (native : Endian) : WriteSession nMaxBuffSize → List WriteEvent → List SentPacket
  | _, [] => []
  | s, e :: es => acceptedPacket native s e ++ match s.step native e with
    | none => []
    | some s' => acceptedPackets native s' es

section Sending

variable {native : Endian} {s s' : WriteSession nMaxBuffSize}

@[simp] lemma appended_doSessionWrite : s.doSessionWrite.appended = s.appended := by
  rw [WriteSession.doSessionWrite]
  split <;> rfl

lemma acceptedPacket_fits {e : WriteEvent} : ∀ packet ∈ acceptedPacket native s e, packet.Fits := by
  intro packet hpacket
  cases e with
  | packet msgType packetHead packetBody =>
    rw [acceptedPacket] at hpacket
    split at hpacket
    case isTrue haccepted =>
      obtain rfl := List.mem_singleton.mp hpacket
      obtain ⟨buf, hbuf⟩ := Option.isSome_iff_exists.mp haccepted
      exact (getReadData_writeDataOnSessionThread hbuf).1
    case isFalse => cases hpacket
  | reply | sessionSend | written | writeError => cases hpacket

lemma appended_step {e : WriteEvent} (he : ∀ respond, e ≠ .reply respond) (h : s.step native e = some s') :
    s'.appended = s.appended ++ (acceptedPacket native s e).flatMap SentPacket.bytes := by
  cases e with
  | packet msgType packetHead packetBody =>
    rw [WriteSession.step] at h
    split at h
    case h_1 buf hbuf =>
      cases h
      rw [acceptedPacket, hbuf, appended_doSessionWrite]
      exact congrArg (s.appended ++ ·) (List.append_nil _).symm
    case h_2 hnone =>
      cases h
      rw [acceptedPacket, hnone]
      exact (List.append_nil _).symm
  | reply respond => exact absurd rfl (he respond)
  | sessionSend =>
    cases h
    rw [appended_doSessionWrite]
    exact (List.append_nil _).symm
  | written write length =>
    rw [WriteSession.step] at h
    split at h
    case h_1 offer hoffer =>
      split at h
      case isTrue =>
        cases h
        rw [WriteSession.onWritten]
        split
        · rw [appended_doSessionWrite]
          exact (List.append_nil _).symm
        · exact (List.append_nil _).symm
      case isFalse => cases h
    case h_2 => cases h
  | writeError write =>
    rw [WriteSession.step] at h
    split at h
    case h_1 =>
      cases h
      exact (List.append_nil _).symm
    case h_2 => cases h

lemma appended_run {es : List WriteEvent} (hes : ∀ respond, .reply respond ∉ es)
    (h : run (WriteSession.step native) s es = some s') :
    s'.appended = s.appended ++ (acceptedPackets native s es).flatMap SentPacket.bytes ∧
      ∀ packet ∈ acceptedPackets native s es, packet.Fits := by
  induction es generalizing s with
  | nil =>
    cases h
    exact ⟨(List.append_nil _).symm, List.forall_mem_nil _⟩
  | cons e es ih =>
    obtain ⟨t, hstep, hrun⟩ := Option.bind_eq_some_iff.mp h
    have he : ∀ respond, e ≠ .reply respond := fun respond heq => hes respond (heq ▸ List.mem_cons_self)
    obtain ⟨hrest, hfits⟩ := ih (fun respond hmem => hes respond (List.mem_cons_of_mem _ hmem)) hrun
    rw [acceptedPackets, hstep]
    refine ⟨?_, List.forall_mem_append.mpr ⟨acceptedPacket_fits, hfits⟩⟩
    rw [hrest, appended_step he hstep, List.flatMap_append, List.append_assoc]

end Sending

section Receiving

variable {N : NetPbProcess Head Body F} {sessionId : ℤ}

lemma readPbPacket_eq_map {H : Type*} (handles : PacketHandles H) (sessionId : ℤ) (packet : SentPacket) (data : Bytes) :
    readPbPacket handles sessionId packet.msgType data =
      (packet.handler handles).map fun funcCb => ⟨funcCb, sessionId, packet.msgType, data⟩ := by
  rw [readPbPacket, SentPacket.handler]
  cases handles.mapPackethandle packet.msgType with
  | some funcCb => rfl
  | none => cases handles.funDefaultPacketHandle <;> rfl

lemma generate_eq_msgFunction {packet : SentPacket} (hfits : packet.Fits)
    {call : Call (PacketHandler Head Body F)} (hcall : readPbPacket N.handles sessionId packet.msgType
      (payload packet.packetHead packet.packetBody) = some call) :
    generatePaserPacketFunc N.native call = packet.msgFunction N.handles sessionId := by
  rw [readPbPacket_eq_map] at hcall
  obtain ⟨funcCb, hhandler, rfl⟩ := Option.map_eq_some_iff.mp hcall
  rw [generatePaserPacketFunc, SentPacket.msgFunction, hhandler]
  cases funcCb with
  | default func => rfl
  | registered parseHead checkHeadTTLError parseBody funReadPacket =>
    dsimp only
    rw [paserPbHead_payload _ _ _ _ hfits]
    cases parseHead packet.packetHead.bytes <;> rfl

lemma calledFor_sent {packets : List SentPacket} (hfits : ∀ packet ∈ packets, packet.Fits) :
    calledFor N sessionId (packets.flatMap SentPacket.bytes) =
      (packets.takeWhile fun packet => (packet.handler N.handles).isSome).filterMap
        (SentPacket.msgFunction N.handles sessionId) := by
  induction packets with
  | nil =>
    rw [calledFor, List.flatMap_nil, (FrameReader.drain_of_settled FrameReader.settled_nil).1]
    rfl
  | cons packet packets ih =>
    have hfit : packet.packetHead.bytes.length + packet.packetBody.bytes.length ≤ 0xffffff :=
      hfits packet List.mem_cons_self
    have hrest := ih fun other hother => hfits other (List.mem_cons_of_mem _ hother)
    have hlength : (payload packet.packetHead packet.packetBody).length < 2 ^ 32 := by
      simp only [payload, List.length_append, Endian.bytes_length]
      omega
    rw [List.flatMap_cons, List.takeWhile_cons]
    cases hhandler : packet.handler N.handles with
    | none =>
      have hrefused : (packetReader N.handles sessionId).front
          (packet.bytes ++ packets.flatMap SentPacket.bytes) = .refused := by
        change packetFront N.handles sessionId _ = _
        rw [SentPacket.bytes, packetBytes, List.append_assoc, packetFront_packet _
          (UInt32.toNat_ofNat_of_lt' hlength).symm, packetVerdict, if_neg (not_not.mpr rfl), readPbPacket_eq_map, hhandler]
        rfl
      rw [calledFor, FrameReader.drain_of_refused hrefused]
      rfl
    | some funcCb =>
      have hcall : readPbPacket N.handles sessionId packet.msgType (payload packet.packetHead packet.packetBody) =
          some ⟨funcCb, sessionId, packet.msgType, payload packet.packetHead packet.packetBody⟩ := by
        rw [readPbPacket_eq_map, hhandler]
        rfl
      have hvalid : Call.Valid N.handles sessionId
          ⟨funcCb, sessionId, packet.msgType, payload packet.packetHead packet.packetBody⟩ := ⟨hcall, hlength⟩
      have hframe := packetFront_complete (packets.flatMap SentPacket.bytes) hvalid
      have hdrain := FrameReader.drain_of_frame (D := packetReader N.handles sessionId) hframe
      rw [calledFor] at hrest ⊢
      change (((packetReader N.handles sessionId).drain (Call.packetBytes ⟨funcCb, sessionId, packet.msgType,
        payload packet.packetHead packet.packetBody⟩ ++ _)).frames).filterMap _ = _
      rw [hdrain, List.drop_left, List.filterMap_cons, generate_eq_msgFunction (hfits packet List.mem_cons_self) hcall,
        hrest, Option.isSome_some, if_pos rfl, List.filterMap_cons]

lemma calledFor_initial {stream stream' : Bytes} (h : stream <+: stream') :
    calledFor N sessionId stream <+: calledFor N sessionId stream' := by
  obtain ⟨data, rfl⟩ := h
  rw [calledFor, calledFor, (drain_received sessionId stream data).1, List.filterMap_append]
  exact List.prefix_append _ _

/-- Over any run of the sender's write side and of the receiver, with the bytes between them in order: the receiver's
main loop calls the functions of the packets that the sender has accepted, in their order and each at most once, up to
the first packet that it has no handler for; when all is sent and all is quiet none is missing. -/
theorem packets_delivered {sender : Endian} {writes : List WriteEvent} {W : WriteSession nMaxBuffSize}
    (hsend : run (WriteSession.step sender) (WriteSession.init nMaxBuffSize) writes = some W)
    (hpackets : ∀ respond, .reply respond ∉ writes) {es : List MsgEvent} {S : MsgFunctions Head Body F}
    (hreceive : run (MsgFunctions.step N) MsgFunctions.init es = some S)
    (hbytes : S.received sessionId <+: W.accepted) :
    ofSession sessionId S.called <+:
        ((acceptedPackets sender (WriteSession.init nMaxBuffSize) writes).takeWhile fun packet =>
          (packet.handler N.handles).isSome).filterMap (SentPacket.msgFunction N.handles sessionId) ∧
      (S.received sessionId = W.appended → S.Quiet → ofSession sessionId S.called =
        ((acceptedPackets sender (WriteSession.init nMaxBuffSize) writes).takeWhile fun packet =>
          (packet.handler N.handles).isSome).filterMap (SentPacket.msgFunction N.handles sessionId)) := by
  obtain ⟨happended, hfits⟩ := appended_run hpackets hsend
  have hstream : W.appended =
      (acceptedPackets sender (WriteSession.init nMaxBuffSize) writes).flatMap SentPacket.bytes := happended
  have hall := called_append_waiting hreceive sessionId
  rw [← calledFor_sent hfits, ← hstream]
  constructor
  · have htaken : W.accepted <+: W.appended := ⟨_, (WriteSession.invariant_of_run hsend).1.bytes.symm⟩
    exact List.IsPrefix.trans ⟨_, hall⟩ (calledFor_initial (hbytes.trans htaken))
  · intro heq hquiet
    rw [hquiet.waiting_eq_nil] at hall
    rw [← heq]
    exact (List.append_nil _).symm.trans hall

def helloWrites : List WriteEvent := [.packet 7 ⟨[5], by decide⟩ ⟨[6], by decide⟩, .written 0 18]

theorem hello_delivered : ∃ W S, run (WriteSession.step .little) (WriteSession.init 1024) helloWrites = some W ∧
    run (MsgFunctions.step helloHandler) MsgFunctions.init MsgFunctions.helloEvents = some S ∧
      W.accepted = helloPacket ∧ ofSession 1 S.called = [⟨(), 1, [5], [6]⟩] := by
  have hsend : (run (WriteSession.step .little) (WriteSession.init 1024) helloWrites).map (fun W =>
      (W.accepted, W.appended)) = some (helloPacket, helloPacket) := by
    decide +kernel
  obtain ⟨W, hW, hbytes⟩ := Option.map_eq_some_iff.mp hsend
  obtain ⟨haccepted, happended⟩ := Prod.mk.inj hbytes
  obtain ⟨S, hS, hreceived, hquiet⟩ := MsgFunctions.run_helloEvents
  refine ⟨W, S, hW, hS, haccepted, ?_⟩
  have hsent : ((acceptedPackets .little (WriteSession.init 1024) helloWrites).takeWhile fun packet =>
      (packet.handler helloHandler.handles).isSome).filterMap (SentPacket.msgFunction helloHandler.handles 1) =
        [⟨(), 1, [5], [6]⟩] := by
    decide +kernel
  have hinitial : S.received 1 <+: W.accepted := by rw [hreceived, haccepted]
  rw [(packets_delivered hW (by simp [helloWrites]) hS hinitial).2 (by rw [hreceived, happended]) hquiet, hsent]

end Receiving

end TonyCat.Net
