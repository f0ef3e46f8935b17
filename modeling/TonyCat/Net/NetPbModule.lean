import TonyCat.Library.Transducer
import TonyCat.Net.SessionBuffer
import TonyCat.Utility.Crc

set_option autoImplicit false

/-! The packets of `net_pb_module.h` and `net_pb_module.cpp`: check code, length and message type of
four bytes each, then the length of the head, the head and the body. -/

namespace TonyCat.Net

open TonyCat.Library TonyCat.Utility

/-- The bytes of a message; `SerializeToArray` refuses one longer than `INT_MAX`. -/
structure PacketNode where
  bytes : Bytes
  size_le : bytes.length ≤ 0x7fffffff

namespace PacketNode

def byteSizeLong (node : PacketNode) : ℕ := node.bytes.length

end PacketNode

variable {H Head : Type*} {nMaxBuffSize : ℕ}

structure Call (H : Type*) where
  funcCb : H
  sessionId : ℤ
  msgType : UInt32
  data : Bytes

structure PacketHandles (H : Type*) where
  mapPackethandle : UInt32 → Option H
  funDefaultPacketHandle : Option H

namespace NetPbModule

def kHeadLen : ℕ := 12

def swapUint32 : Endian → UInt32 → UInt32
  | .big, value => value
  | .little, value => Endian.swapBytes value

def checkCode (data : Bytes) : UInt32 := crc32 data

def readPbPacket (handles : PacketHandles H) (sessionId : ℤ) (msgType : UInt32) (data : Bytes) :
    Option (Call H) :=
  match handles.mapPackethandle msgType with
  | some funcCb => some ⟨funcCb, sessionId, msgType, data⟩
  | none =>
    match handles.funDefaultPacketHandle with
    | some funcCb => some ⟨funcCb, sessionId, msgType, data⟩
    | none => none

def readData (native : Endian) (handles : PacketHandles H) (sessionId : ℤ) (buf : SessionBuffer nMaxBuffSize) :
    SessionBuffer nMaxBuffSize × List (Call H) × Bool :=
  if _h : buf.getReadableSize ≥ kHeadLen then
    let readBuff := buf.getReadData
    let checkCode' := swapUint32 native (native.read readBuff)
    let packetLen := (swapUint32 native (native.read (readBuff.drop 4))).toNat
    let msgType := swapUint32 native (native.read (readBuff.drop 8))
    if buf.getReadableSize < packetLen + kHeadLen then
      (buf, [], true)
    else
      let remoteCheck := checkCode ((readBuff.drop 4).take (packetLen + kHeadLen - 4))
      if checkCode' ≠ remoteCheck then
        (buf, [], false)
      else
        match readPbPacket handles sessionId msgType ((readBuff.drop kHeadLen).take packetLen) with
        | none => (buf, [], false)
        | some call =>
          let r := readData native handles sessionId (buf.removeData (packetLen + kHeadLen))
          (r.1, call :: r.2.1, r.2.2)
  else
    (buf, [], true)
termination_by buf.getReadableSize
decreasing_by
  simp only [← SessionBuffer.getReadData_length, SessionBuffer.getReadData_removeData, List.length_drop] at *
  simp only [kHeadLen] at *
  omega

/-- Stores go to the vector of the write buffer; `none` is a packet that is not sent. -/
def writeDataOnSessionThread (native : Endian) (buffWrite : SessionBuffer nMaxBuffSize) (msgType : UInt32)
    (packetHead packetBody : PacketNode) : Option (SessionBuffer nMaxBuffSize) := do
  let pbPacketHeadLen := UInt32.ofNat packetHead.byteSizeLong
  let pbPacketBodyLen := UInt32.ofNat packetBody.byteSizeLong
  if pbPacketHeadLen + pbPacketBodyLen > 0xffffff then
    none
  else
    let nPbPacketLen := pbPacketHeadLen + pbPacketBodyLen + 4
    let nAllDataLen := nPbPacketLen + UInt32.ofNat kHeadLen
    let pData ← buffWrite.getWriteData nAllDataLen.toNat
    let buf ← buffWrite.store (pData + kHeadLen) (native.bytes (swapUint32 native pbPacketHeadLen))
    let buf ← buf.store (pData + kHeadLen + 4) packetHead.bytes
    let buf ← buf.store (pData + kHeadLen + 4 + pbPacketHeadLen.toNat) packetBody.bytes
    let buf ← buf.store (pData + 4) (native.bytes (swapUint32 native nPbPacketLen))
    let buf ← buf.store (pData + 8) (native.bytes (swapUint32 native msgType))
    let buf ← buf.store pData (native.bytes (swapUint32 native
      (checkCode ((buf.vecData.drop (pData + 4)).take (nPbPacketLen.toNat + kHeadLen - 4)))))
    buf.moveWritePos nAllDataLen.toNat

def getPacketHeadLength (native : Endian) (pData : Bytes) : UInt32 := swapUint32 native (native.read pData)

def paserPbHead (native : Endian) (parseFromArray : Bytes → Option Head) (data : Bytes) : Option (Head × Bytes) :=
  if data.length < 4 then
    none
  else
    let pbPacketHeadLen := (getPacketHeadLength native data).toNat
    if data.length < pbPacketHeadLen + 4 then
      none
    else
      let pbPacketBodyLen := (data.length - pbPacketHeadLen - 4) % 2 ^ 32
      match parseFromArray ((data.drop 4).take pbPacketHeadLen) with
      | none => none
      | some pbHead => some (pbHead, (data.drop (4 + pbPacketHeadLen)).take pbPacketBodyLen)

end NetPbModule

namespace NetModule

def kReorganizeRate : ℕ := 2

/-- The completion of a read of `data` into the place `GetWriteData` offers, up to the packet reader. -/
def doSessionRead (buffRead : SessionBuffer nMaxBuffSize) (data : Bytes) : Option (SessionBuffer nMaxBuffSize) := do
  let buf ← buffRead.store buffRead.nWritePos data
  let buf ← buf.paddingData data.length
  if buf.currentWritableSize < buf.capacity / kReorganizeRate then
    buf.reorganizeData.shrinkByLength data.length
  else
    some buf

inductive Arrival
  | written (data : Bytes)
  | readSome (data : Bytes)

def Arrival.data : Arrival → Bytes
  | written data => data
  | readSome data => data

def arrive (buffRead : SessionBuffer nMaxBuffSize) : Arrival → Option (SessionBuffer nMaxBuffSize)
  | .written data => buffRead.write data
  | .readSome data => doSessionRead buffRead data

/-- Bytes arrive and `ReadData` is called; also after it has returned false, for the session is closed later. -/
def handleSessionRead (native : Endian) (handles : PacketHandles H) (sessionId : ℤ)
    (buffRead : SessionBuffer nMaxBuffSize) (arrival : Arrival) :
    Option (SessionBuffer nMaxBuffSize × List (List (Call H) × Bool)) :=
  (arrive buffRead arrival).map fun buf =>
    let r := NetPbModule.readData native handles sessionId buf
    (r.1, [r.2])

end NetModule

end TonyCat.Net
