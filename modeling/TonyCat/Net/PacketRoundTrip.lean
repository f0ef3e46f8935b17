import TonyCat.Net.PacketStream

set_option autoImplicit false

/-! What `WriteDataOnSessionThread` writes, the other side reads. -/

namespace TonyCat.Net

open TonyCat.Library TonyCat.Utility NetPbModule NetModule SessionBuffer

variable {H Head : Type*} {nMaxBuffSize : ℕ}

lemma exists_split (n : ℕ) (xs : Bytes) (h : n ≤ xs.length) : ∃ ys zs, xs = ys ++ zs ∧ ys.length = n :=
  ⟨xs.take n, xs.drop n, (List.take_append_drop n xs).symm, List.length_take_of_le h⟩

def payload (packetHead packetBody : PacketNode) : Bytes :=
  Endian.big.bytes (UInt32.ofNat packetHead.byteSizeLong) ++ (packetHead.bytes ++ packetBody.bytes)

lemma toNat_byteSizeLong (node : PacketNode) : (UInt32.ofNat node.byteSizeLong).toNat = node.bytes.length :=
  UInt32.toNat_ofNat_of_lt' (Nat.lt_of_le_of_lt node.size_le (by decide))

lemma small_packet_iff (packetHead packetBody : PacketNode) :
    UInt32.ofNat packetHead.byteSizeLong + UInt32.ofNat packetBody.byteSizeLong > 0xffffff ↔
      packetHead.bytes.length + packetBody.bytes.length > 0xffffff := by
  have hhead := packetHead.size_le
  have hbody := packetBody.size_le
  rw [gt_iff_lt, UInt32.lt_iff_toNat_lt, UInt32.toNat_add, toNat_byteSizeLong, toNat_byteSizeLong]
  change 0xffffff < _ ↔ _
  omega

lemma packet_lengths {packetHead packetBody : PacketNode}
    (h : packetHead.bytes.length + packetBody.bytes.length ≤ 0xffffff) :
    (UInt32.ofNat packetHead.byteSizeLong + UInt32.ofNat packetBody.byteSizeLong + 4).toNat =
        packetHead.bytes.length + packetBody.bytes.length + 4 ∧
      (UInt32.ofNat packetHead.byteSizeLong + UInt32.ofNat packetBody.byteSizeLong + 4 +
        UInt32.ofNat kHeadLen).toNat = packetHead.bytes.length + packetBody.bytes.length + 16 := by
  have hpacket : (UInt32.ofNat packetHead.byteSizeLong + UInt32.ofNat packetBody.byteSizeLong + 4).toNat =
      packetHead.bytes.length + packetBody.bytes.length + 4 := by
    rw [UInt32.toNat_add, UInt32.toNat_add, toNat_byteSizeLong, toNat_byteSizeLong]
    change (_ + 4) % 2 ^ 32 = _
    omega
  refine ⟨hpacket, ?_⟩
  rw [UInt32.toNat_add, hpacket]
  change (_ + 12) % 2 ^ 32 = _
  omega

lemma writeDataOnSessionThread_stores {native : Endian} {buf buf' : SessionBuffer nMaxBuffSize} {msgType : UInt32}
    {packetHead packetBody : PacketNode}
    (h : writeDataOnSessionThread native buf msgType packetHead packetBody = some buf') :
    packetHead.bytes.length + packetBody.bytes.length ≤ 0xffffff ∧
      packetHead.bytes.length + packetBody.bytes.length + 16 ≤ buf.currentWritableSize ∧
      ∃ b₁ b₂ b₃ b₄ b₅ b₆ : SessionBuffer nMaxBuffSize,
        buf.store (buf.nWritePos + kHeadLen) (Endian.big.bytes (UInt32.ofNat packetHead.byteSizeLong)) = some b₁ ∧
        b₁.store (buf.nWritePos + kHeadLen + 4) packetHead.bytes = some b₂ ∧
        b₂.store (buf.nWritePos + kHeadLen + 4 + packetHead.bytes.length) packetBody.bytes = some b₃ ∧
        b₃.store (buf.nWritePos + 4) (Endian.big.bytes
          (UInt32.ofNat packetHead.byteSizeLong + UInt32.ofNat packetBody.byteSizeLong + 4)) = some b₄ ∧
        b₄.store (buf.nWritePos + 8) (Endian.big.bytes msgType) = some b₅ ∧
        b₅.store buf.nWritePos (Endian.big.bytes (checkCode ((b₅.vecData.drop (buf.nWritePos + 4)).take
          (packetHead.bytes.length + packetBody.bytes.length + 4 + kHeadLen - 4)))) = some b₆ ∧
        b₆.moveWritePos (packetHead.bytes.length + packetBody.bytes.length + 16) = some buf' := by
  rw [writeDataOnSessionThread] at h
  split at h
  · cases h
  case isFalse hsmall =>
  rw [small_packet_iff, gt_iff_lt, not_lt] at hsmall
  obtain ⟨hpacket, hall⟩ := packet_lengths hsmall
  simp only [hall, hpacket, toNat_byteSizeLong, bytes_swapUint32] at h
  obtain ⟨pData, hpData, h⟩ := Option.bind_eq_some_iff.mp h
  rw [getWriteData] at hpData
  split at hpData
  · cases hpData
  case isFalse hroom =>
  cases hpData
  obtain ⟨b₁, hs₁, h⟩ := Option.bind_eq_some_iff.mp h
  obtain ⟨b₂, hs₂, h⟩ := Option.bind_eq_some_iff.mp h
  obtain ⟨b₃, hs₃, h⟩ := Option.bind_eq_some_iff.mp h
  obtain ⟨b₄, hs₄, h⟩ := Option.bind_eq_some_iff.mp h
  obtain ⟨b₅, hs₅, h⟩ := Option.bind_eq_some_iff.mp h
  obtain ⟨b₆, hs₆, h⟩ := Option.bind_eq_some_iff.mp h
  exact ⟨hsmall, not_lt.mp hroom, b₁, b₂, b₃, b₄, b₅, b₆, hs₁, hs₂, hs₃, hs₄, hs₅, hs₆, h⟩

theorem getReadData_writeDataOnSessionThread {native : Endian} {buf buf' : SessionBuffer nMaxBuffSize}
    {msgType : UInt32} {packetHead packetBody : PacketNode}
    (h : writeDataOnSessionThread native buf msgType packetHead packetBody = some buf') :
    packetHead.bytes.length + packetBody.bytes.length ≤ 0xffffff ∧
      buf'.getReadData = buf.getReadData ++ packetBytes msgType (payload packetHead packetBody) := by
  obtain ⟨hsmall, hroom, b₁, b₂, b₃, b₄, b₅, b₆, hs₁, hs₂, hs₃, hs₄, hs₅, hs₆, h⟩ := writeDataOnSessionThread_stores h
  obtain ⟨hpacket, -⟩ := packet_lengths hsmall
  refine ⟨hsmall, ?_⟩
  rw [currentWritableSize] at hroom
  have hwrite := buf.write_le
  -- the six regions that are stored to, and what lies around them
  obtain ⟨front, xs, hvec, hfront⟩ := exists_split _ _ hwrite
  have hxs : packetHead.bytes.length + packetBody.bytes.length + 16 ≤ xs.length := by
    rw [hvec, List.length_append] at hroom
    omega
  obtain ⟨o₀, xs, rfl, h₀⟩ := exists_split 4 xs (by omega)
  rw [List.length_append] at hxs
  obtain ⟨o₁, xs, rfl, h₁⟩ := exists_split 4 xs (by omega)
  rw [List.length_append] at hxs
  obtain ⟨o₂, xs, rfl, h₂⟩ := exists_split 4 xs (by omega)
  rw [List.length_append] at hxs
  obtain ⟨o₃, xs, rfl, h₃⟩ := exists_split 4 xs (by omega)
  rw [List.length_append] at hxs
  obtain ⟨o₄, xs, rfl, h₄⟩ := exists_split packetHead.bytes.length xs (by omega)
  rw [List.length_append] at hxs
  obtain ⟨o₅, after, rfl, h₅⟩ := exists_split packetBody.bytes.length xs (by omega)
  obtain ⟨hv₁, hr₁, hw₁⟩ := vecData_store hs₁ (front ++ (o₀ ++ (o₁ ++ o₂))) o₃ (o₄ ++ (o₅ ++ after))
    (by rw [hvec]; simp only [List.append_assoc]) (by rw [h₃, Endian.bytes_length])
    (by simp only [List.length_append, kHeadLen]; omega)
  obtain ⟨hv₂, hr₂, hw₂⟩ := vecData_store hs₂
    (front ++ (o₀ ++ (o₁ ++ (o₂ ++ Endian.big.bytes (UInt32.ofNat packetHead.byteSizeLong))))) o₄ (o₅ ++ after)
    (by rw [hv₁]; simp only [List.append_assoc]) h₄.symm
    (by simp only [List.length_append, Endian.bytes_length, kHeadLen]; omega)
  obtain ⟨hv₃, hr₃, hw₃⟩ := vecData_store hs₃
    (front ++ (o₀ ++ (o₁ ++ (o₂ ++ (Endian.big.bytes (UInt32.ofNat packetHead.byteSizeLong) ++ packetHead.bytes)))))
    o₅ after (by rw [hv₂]; simp only [List.append_assoc]) h₅.symm
    (by simp only [List.length_append, Endian.bytes_length, kHeadLen]; omega)
  obtain ⟨hv₄, hr₄, hw₄⟩ := vecData_store hs₄ (front ++ o₀) o₁ (o₂ ++ (payload packetHead packetBody ++ after))
    (by rw [hv₃, payload]; simp only [List.append_assoc]) (by rw [h₁, Endian.bytes_length])
    (by simp only [List.length_append]; omega)
  obtain ⟨hv₅, hr₅, hw₅⟩ := vecData_store hs₅
    (front ++ (o₀ ++ Endian.big.bytes (UInt32.ofNat packetHead.byteSizeLong + UInt32.ofNat packetBody.byteSizeLong + 4)))
    o₂ (payload packetHead packetBody ++ after)
    (by rw [hv₄]; simp only [List.append_assoc]) (by rw [h₂, Endian.bytes_length])
    (by simp only [List.length_append, Endian.bytes_length]; omega)
  have hlength : (payload packetHead packetBody).length =
      packetHead.bytes.length + packetBody.bytes.length + 4 := by
    simp only [payload, List.length_append, Endian.bytes_length]
    omega
  have hword : UInt32.ofNat packetHead.byteSizeLong + UInt32.ofNat packetBody.byteSizeLong + 4 =
      UInt32.ofNat (payload packetHead packetBody).length := by
    rw [hlength, ← hpacket, UInt32.ofNat_toNat]
  have hv₅ : b₅.vecData = front ++ (o₀ ++ (checkedBytes (UInt32.ofNat (payload packetHead packetBody).length)
      msgType (payload packetHead packetBody) ++ after)) := by
    rw [hv₅, hword, checkedBytes]
    simp only [List.append_assoc]
  have hchecked : (b₅.vecData.drop (buf.nWritePos + 4)).take
      (packetHead.bytes.length + packetBody.bytes.length + 4 + kHeadLen - 4) =
        checkedBytes (UInt32.ofNat (payload packetHead packetBody).length) msgType
          (payload packetHead packetBody) := by
    rw [hv₅, ← List.append_assoc, List.drop_left' (by rw [List.length_append]; omega), List.take_left']
    simp only [checkedBytes, List.length_append, Endian.bytes_length, kHeadLen]
    omega
  rw [hchecked] at hs₆
  obtain ⟨hv₆, hr₆, hw₆⟩ := vecData_store hs₆ front o₀ _ hv₅ (by rw [h₀, Endian.bytes_length]) hfront.symm
  rw [← List.append_assoc (Endian.big.bytes _), ← packetBytes] at hv₆
  have hr : b₆.nReadPos = buf.nReadPos := by rw [hr₆, hr₅, hr₄, hr₃, hr₂, hr₁]
  have hw : b₆.nWritePos = buf.nWritePos := by rw [hw₆, hw₅, hw₄, hw₃, hw₂, hw₁]
  have hframe : (packetBytes msgType (payload packetHead packetBody)).length =
      packetHead.bytes.length + packetBody.bytes.length + 16 := by
    simp only [packetBytes, checkedBytes, List.length_append, Endian.bytes_length, hlength]
    omega
  have hsame : b₆.getReadData = buf.getReadData := by
    rw [getReadData, getReadData, hr, hw, hv₆, hvec, List.take_left' hfront, List.take_left' hfront]
  rw [getReadData_moveWritePos h, hsame, hw, hv₆, List.drop_left' hfront, List.take_left' hframe]

theorem exists_writeDataOnSessionThread (native : Endian) (buf : SessionBuffer nMaxBuffSize) (msgType : UInt32)
    (packetHead packetBody : PacketNode)
    (hsum : packetHead.bytes.length + packetBody.bytes.length ≤ 0xffffff)
    (hroom : packetHead.bytes.length + packetBody.bytes.length + 16 ≤ buf.currentWritableSize) :
    ∃ buf', writeDataOnSessionThread native buf msgType packetHead packetBody = some buf' := by
  obtain ⟨hpacket, hall⟩ := packet_lengths hsum
  rw [currentWritableSize] at hroom
  rw [writeDataOnSessionThread, if_neg (by rw [small_packet_iff]; omega)]
  simp only [hall, hpacket, toNat_byteSizeLong]
  rw [getWriteData, if_neg (by rw [currentWritableSize]; omega), Option.bind_eq_bind, Option.bind_some]
  have hwrite := buf.write_le
  have stores : ∀ {b : SessionBuffer nMaxBuffSize} (pos : ℕ) (data : Bytes),
      b.vecData.length = buf.vecData.length → pos + data.length ≤ buf.vecData.length →
        ∃ b', b.store pos data = some b' ∧ b'.vecData.length = buf.vecData.length ∧ b'.nWritePos = b.nWritePos := by
    intro b pos data hlen hfit
    rw [← hlen] at hfit ⊢
    obtain ⟨b', hs, hl, -, hw⟩ := exists_store b pos data hfit
    exact ⟨b', hs, hl, hw⟩
  obtain ⟨b₁, hs₁, hl₁, hw₁⟩ := stores (buf.nWritePos + kHeadLen)
    (native.bytes (swapUint32 native (UInt32.ofNat packetHead.byteSizeLong))) rfl
    (by rw [Endian.bytes_length, kHeadLen]; omega)
  obtain ⟨b₂, hs₂, hl₂, hw₂⟩ := stores (buf.nWritePos + kHeadLen + 4) packetHead.bytes hl₁ (by rw [kHeadLen]; omega)
  obtain ⟨b₃, hs₃, hl₃, hw₃⟩ := stores (buf.nWritePos + kHeadLen + 4 + packetHead.bytes.length) packetBody.bytes hl₂
    (by rw [kHeadLen]; omega)
  obtain ⟨b₄, hs₄, hl₄, hw₄⟩ := stores (buf.nWritePos + 4) (native.bytes (swapUint32 native
    (UInt32.ofNat packetHead.byteSizeLong + UInt32.ofNat packetBody.byteSizeLong + 4))) hl₃
    (by rw [Endian.bytes_length]; omega)
  obtain ⟨b₅, hs₅, hl₅, hw₅⟩ := stores (buf.nWritePos + 8) (native.bytes (swapUint32 native msgType)) hl₄
    (by rw [Endian.bytes_length]; omega)
  obtain ⟨b₆, hs₆, hl₆, hw₆⟩ := stores buf.nWritePos (native.bytes (swapUint32 native (checkCode
    ((b₅.vecData.drop (buf.nWritePos + 4)).take
      (packetHead.bytes.length + packetBody.bytes.length + 4 + kHeadLen - 4))))) hl₅
    (by rw [Endian.bytes_length]; omega)
  simp only [hs₁, hs₂, hs₃, hs₄, hs₅, hs₆, Option.bind_eq_bind, Option.bind_some]
  rw [moveWritePos, dif_neg (by omega)]
  exact ⟨_, rfl⟩

lemma paserPbHead_payload (receiver : Endian) (parseFromArray : Bytes → Option Head) (packetHead packetBody : PacketNode)
    (hsize : packetHead.bytes.length + packetBody.bytes.length ≤ 0xffffff) :
    paserPbHead receiver parseFromArray (payload packetHead packetBody) =
      (parseFromArray packetHead.bytes).map fun pbHead => (pbHead, packetBody.bytes) := by
  have hlength : (payload packetHead packetBody).length =
      4 + packetHead.bytes.length + packetBody.bytes.length := by
    simp only [payload, List.length_append, Endian.bytes_length]
    omega
  have hhead : (getPacketHeadLength receiver (payload packetHead packetBody)).toNat = packetHead.bytes.length := by
    rw [getPacketHeadLength, swapUint32_read (by omega), payload, Endian.read_bytes, toNat_byteSizeLong]
  have hdrop : (payload packetHead packetBody).drop 4 = packetHead.bytes ++ packetBody.bytes :=
    List.drop_left' (Endian.bytes_length _ _)
  have hmod : (4 + packetHead.bytes.length + packetBody.bytes.length - packetHead.bytes.length - 4) % 2 ^ 32 =
      packetBody.bytes.length := by
    omega
  rw [paserPbHead, if_neg (by omega), hhead, if_neg (by omega), hdrop, ← List.drop_drop, hdrop, List.take_left,
    List.drop_left, hlength, hmod]
  simp only [List.take_length]
  cases parseFromArray packetHead.bytes <;> rfl

structure HeadFormat (Head : Type*) where
  serializeToArray : Head → PacketNode
  parseFromArray : Bytes → Option Head
  parse_serialize : ∀ pbHead, parseFromArray (serializeToArray pbHead).bytes = some pbHead

structure Packet (Head : Type*) where
  msgType : UInt32
  packetHead : Head
  packetBody : PacketNode

def Packet.Written (sender : Endian) (format : HeadFormat Head) (packet : Packet Head) (written : Bytes) : Prop :=
  ∃ buf buf' : SessionBuffer kDefaultMaxBufferSize,
    writeDataOnSessionThread sender buf packet.msgType (format.serializeToArray packet.packetHead)
        packet.packetBody = some buf' ∧
      buf'.getReadData = buf.getReadData ++ written

structure Packet.Delivered (receiver : Endian) (format : HeadFormat Head) (handles : PacketHandles H) (sessionId : ℤ)
    (packet : Packet Head) (call : Call H) : Prop where
  msgType_eq : call.msgType = packet.msgType
  handled : readPbPacket handles sessionId packet.msgType call.data = some call
  parsed : paserPbHead receiver format.parseFromArray call.data = some (packet.packetHead, packet.packetBody.bytes)

lemma exists_readPbPacket {handles : PacketHandles H} (sessionId : ℤ) (msgType : UInt32) (data : Bytes)
    (h : (handles.mapPackethandle msgType).isSome ∨ handles.funDefaultPacketHandle.isSome) :
    ∃ call, readPbPacket handles sessionId msgType data = some call := by
  rw [readPbPacket]
  cases hreg : handles.mapPackethandle msgType with
  | some funcCb => exact ⟨_, rfl⟩
  | none =>
    cases hdef : handles.funDefaultPacketHandle with
    | some funcCb => exact ⟨_, rfl⟩
    | none => simp [hreg, hdef] at h

lemma exists_call {sender : Endian} (receiver : Endian) {format : HeadFormat Head} {handles : PacketHandles H}
    (sessionId : ℤ)
    (hhandles : ∀ msgType, (handles.mapPackethandle msgType).isSome ∨ handles.funDefaultPacketHandle.isSome)
    {packet : Packet Head} {written : Bytes} (h : packet.Written sender format written) :
    ∃ call : Call H, call.Valid handles sessionId ∧ written = call.packetBytes ∧
      packet.Delivered receiver format handles sessionId call := by
  obtain ⟨buf, buf', hwrite, happend⟩ := h
  obtain ⟨hsize, hbytes⟩ := getReadData_writeDataOnSessionThread hwrite
  obtain ⟨call, hcall⟩ := exists_readPbPacket sessionId packet.msgType
    (payload (format.serializeToArray packet.packetHead) packet.packetBody) (hhandles packet.msgType)
  obtain ⟨htype, hdata⟩ := readPbPacket_eq hcall
  rw [hbytes] at happend
  refine ⟨call, ⟨?_, ?_⟩, ?_, ⟨htype, ?_, ?_⟩⟩
  · rw [htype, hdata, hcall]
  · simp only [hdata, payload, List.length_append, Endian.bytes_length]
    omega
  · rw [← List.append_cancel_left happend, Call.packetBytes, htype, hdata]
  · rw [hdata, hcall]
  · rw [hdata, paserPbHead_payload _ _ _ _ hsize, format.parse_serialize]
    rfl

theorem packets_round_trip {sender receiver : Endian} {format : HeadFormat Head} {handles : PacketHandles H}
    {sessionId : ℤ}
    (hhandles : ∀ msgType, (handles.mapPackethandle msgType).isSome ∨ handles.funDefaultPacketHandle.isSome)
    {packets : List (Packet Head)} {written : List Bytes}
    (hwritten : List.Forall₂ (Packet.Written sender format) packets written)
    {arrivals : List Arrival} (hcut : arrivals.flatMap Arrival.data = written.flatten)
    {buf : SessionBuffer kDefaultMaxBufferSize} {results : List (List (Call H) × Bool)}
    (hturns : Turns (handleSessionRead receiver handles sessionId) (init kDefaultMaxBufferSize) arrivals buf results) :
    List.Forall₂ (Packet.Delivered receiver format handles sessionId) packets (results.flatMap Prod.fst) ∧
      (∀ r ∈ results, r.2 = true) ∧ buf.getReadData = [] := by
  have hcalls : ∃ calls : List (Call H), (∀ call ∈ calls, call.Valid handles sessionId) ∧
      written.flatten = calls.flatMap Call.packetBytes ∧
        List.Forall₂ (Packet.Delivered receiver format handles sessionId) packets calls := by
    clear hcut
    induction hwritten with
    | nil => exact ⟨[], by simp, rfl, .nil⟩
    | cons hfirst _ ih =>
      obtain ⟨calls, hvalid, hflat, hdelivered⟩ := ih
      obtain ⟨call, hv, hbytes, hd⟩ := exists_call receiver sessionId hhandles hfirst
      refine ⟨call :: calls, ?_, ?_, .cons hd hdelivered⟩
      · intro c hc
        cases hc with
        | head => exact hv
        | tail _ hc => exact hvalid c hc
      · rw [List.flatten_cons, List.flatMap_cons, hflat, hbytes]
  obtain ⟨calls, hvalid, hflat, hdelivered⟩ := hcalls
  have hdrain := (packetReader_decodes handles sessionId).drain_flatMap hvalid rfl
  rw [← hflat, ← hcut, List.flatMap_def] at hdrain
  obtain ⟨hresults, hbuf⟩ := turns_reads hturns
  rw [getReadData_init] at hresults hbuf
  have hreads := (packetReader handles sessionId).reads_eq_drain FrameReader.settled_nil (arrivals.map Arrival.data)
  rw [List.nil_append, hdrain] at hreads
  refine ⟨?_, ?_, hbuf.trans hreads.2⟩
  · rw [hresults, List.flatMap_map]
    exact hreads.1 ▸ hdelivered
  · intro r hr
    rw [hresults] at hr
    obtain ⟨d, hd, rfl⟩ := List.mem_map.mp hr
    exact FrameReader.reads_ok (by rw [List.nil_append, hdrain]) d hd

def bytesFormat : HeadFormat PacketNode where
  serializeToArray := id
  parseFromArray bs := if h : bs.length ≤ 0x7fffffff then some ⟨bs, h⟩ else none
  parse_serialize pbHead := dif_pos pbHead.size_le

def defaultHandle : PacketHandles Unit := ⟨fun _ => none, some ()⟩

def smallPacket : Packet PacketNode := ⟨7, ⟨[1, 2], by decide⟩, ⟨[3], by decide⟩⟩

lemma written_smallPacket : smallPacket.Written .little bytesFormat
    (packetBytes smallPacket.msgType (payload smallPacket.packetHead smallPacket.packetBody)) := by
  obtain ⟨buf', h⟩ := exists_writeDataOnSessionThread .little (init kDefaultMaxBufferSize) smallPacket.msgType
    smallPacket.packetHead smallPacket.packetBody (by decide) (by rw [currentWritableSize_init]; decide)
  exact ⟨_, _, h, (getReadData_writeDataOnSessionThread h).2⟩

theorem two_packets_round_trip : ∃ written arrivals buf results,
    List.Forall₂ (Packet.Written .little bytesFormat) [smallPacket, smallPacket] written ∧
      Turns (handleSessionRead .big defaultHandle 1) (init kDefaultMaxBufferSize) arrivals buf results ∧
      List.Forall₂ (Packet.Delivered .big bytesFormat defaultHandle 1) [smallPacket, smallPacket]
        (results.flatMap Prod.fst) := by
  obtain ⟨bytes, hbytes, hlength⟩ : ∃ bytes, smallPacket.Written .little bytesFormat bytes ∧ bytes.length = 19 :=
    ⟨_, written_smallPacket, rfl⟩
  have hwritten : List.Forall₂ (Packet.Written .little bytesFormat) [smallPacket, smallPacket] [bytes, bytes] :=
    .cons hbytes (.cons hbytes .nil)
  obtain ⟨buf, results, hturns⟩ := exists_turns_written .big defaultHandle 1 (init kDefaultMaxBufferSize)
    [bytes.take 5, bytes.drop 5 ++ bytes] (by
      rw [currentWritableSize_init]
      simp only [List.flatten_cons, List.flatten_nil, List.length_append, List.length_take, List.length_drop, hlength]
      decide)
  have hcut : ([bytes.take 5, bytes.drop 5 ++ bytes].map Arrival.written).flatMap Arrival.data =
      [bytes, bytes].flatten := by
    simp [Arrival.data, ← List.append_assoc]
  have hround := packets_round_trip (fun _ => .inr rfl) hwritten hcut hturns
  exact ⟨_, _, buf, results, hwritten, hturns, hround.1⟩

end TonyCat.Net
