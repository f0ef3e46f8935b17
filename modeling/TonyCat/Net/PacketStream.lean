import TonyCat.Library.FrameStream
import TonyCat.Net.NetPbModule

set_option autoImplicit false

/-! The byte stream of a session as a sequence of packets. -/

namespace TonyCat.Net

open TonyCat.Library TonyCat.Utility NetPbModule

variable {H Head : Type*} {nMaxBuffSize : ℕ}

def checkedBytes (nPbPacketLen msgType : UInt32) (data : Bytes) : Bytes :=
  Endian.big.bytes nPbPacketLen ++ (Endian.big.bytes msgType ++ data)

def packetBytes (msgType : UInt32) (data : Bytes) : Bytes :=
  Endian.big.bytes (checkCode (checkedBytes (UInt32.ofNat data.length) msgType data)) ++
    checkedBytes (UInt32.ofNat data.length) msgType data

def Call.packetBytes (call : Call H) : Bytes := Net.packetBytes call.msgType call.data

structure Call.Valid (handles : PacketHandles H) (sessionId : ℤ) (call : Call H) : Prop where
  handled : readPbPacket handles sessionId call.msgType call.data = some call
  length_lt : call.data.length < 2 ^ 32

def packetVerdict (handles : PacketHandles H) (sessionId : ℤ) (check nPbPacketLen msgType : UInt32)
    (data : Bytes) : Front (Call H) :=
  if check ≠ checkCode (checkedBytes nPbPacketLen msgType data) then
    .refused
  else
    match readPbPacket handles sessionId msgType data with
    | none => .refused
    | some call => .frame call (data.length + kHeadLen)

def packetFront (handles : PacketHandles H) (sessionId : ℤ) (xs : Bytes) : Front (Call H) :=
  if xs.length < kHeadLen ∨ xs.length < (Endian.big.read (xs.drop 4)).toNat + kHeadLen then
    .more
  else
    packetVerdict handles sessionId (Endian.big.read xs) (Endian.big.read (xs.drop 4))
      (Endian.big.read (xs.drop 8)) ((xs.drop kHeadLen).take (Endian.big.read (xs.drop 4)).toNat)

lemma swapUint32_read {native : Endian} {bs : Bytes} (h : 4 ≤ bs.length) :
    swapUint32 native (native.read bs) = Endian.big.read bs := by
  cases native with
  | little => exact Endian.swapBytes_little_read h
  | big => rfl

lemma bytes_swapUint32 (native : Endian) (v : UInt32) : native.bytes (swapUint32 native v) = Endian.big.bytes v := by
  cases native with
  | little => exact Endian.little_bytes_swapBytes v
  | big => rfl

lemma readPbPacket_eq {handles : PacketHandles H} {sessionId : ℤ} {msgType : UInt32} {data : Bytes} {call : Call H}
    (h : readPbPacket handles sessionId msgType data = some call) : call.msgType = msgType ∧ call.data = data := by
  rw [readPbPacket] at h
  split at h
  · cases h
    exact ⟨rfl, rfl⟩
  · split at h
    · cases h
      exact ⟨rfl, rfl⟩
    · cases h

variable {handles : PacketHandles H} {sessionId : ℤ}

lemma exists_packet {xs : Bytes} (h : kHeadLen ≤ xs.length)
    (hlen : (Endian.big.read (xs.drop 4)).toNat + kHeadLen ≤ xs.length) :
    ∃ check nPbPacketLen msgType data ys, data.length = UInt32.toNat nPbPacketLen ∧
      xs = Endian.big.bytes check ++ (checkedBytes nPbPacketLen msgType data ++ ys) := by
  rw [kHeadLen] at h hlen
  refine ⟨Endian.big.read xs, Endian.big.read (xs.drop 4), Endian.big.read (xs.drop 8),
    (xs.drop 12).take (Endian.big.read (xs.drop 4)).toNat,
    (xs.drop 12).drop (Endian.big.read (xs.drop 4)).toNat, ?_, ?_⟩
  · rw [List.length_take, List.length_drop]
    omega
  · rw [checkedBytes, Endian.bytes_read _ _ (by omega),
      Endian.bytes_read _ _ (by rw [List.length_drop]; omega),
      Endian.bytes_read _ _ (by rw [List.length_drop]; omega),
      List.append_assoc, List.append_assoc, List.take_append_drop,
      show xs.drop 12 = (xs.drop 8).drop 4 by rw [List.drop_drop], List.take_append_drop,
      show xs.drop 8 = (xs.drop 4).drop 4 by rw [List.drop_drop], List.take_append_drop,
      List.take_append_drop]

lemma packetFront_packet {check nPbPacketLen msgType : UInt32} {data : Bytes} (ys : Bytes)
    (h : data.length = nPbPacketLen.toNat) :
    packetFront handles sessionId (Endian.big.bytes check ++ (checkedBytes nPbPacketLen msgType data ++ ys)) =
      packetVerdict handles sessionId check nPbPacketLen msgType data := by
  have h4 : (Endian.big.bytes check ++ (checkedBytes nPbPacketLen msgType data ++ ys)).drop 4 =
      Endian.big.bytes nPbPacketLen ++ (Endian.big.bytes msgType ++ (data ++ ys)) := by
    rw [← Endian.bytes_length .big check, List.drop_left, checkedBytes, List.append_assoc, List.append_assoc]
  have h8 : (Endian.big.bytes check ++ (checkedBytes nPbPacketLen msgType data ++ ys)).drop 8 =
      Endian.big.bytes msgType ++ (data ++ ys) := by
    rw [show 8 = 4 + 4 from rfl, ← List.drop_drop, h4, ← Endian.bytes_length .big nPbPacketLen, List.drop_left]
  have h12 : (Endian.big.bytes check ++ (checkedBytes nPbPacketLen msgType data ++ ys)).drop kHeadLen =
      data ++ ys := by
    rw [show kHeadLen = 8 + 4 from rfl, ← List.drop_drop, h8, ← Endian.bytes_length .big msgType, List.drop_left]
  have hlen : ¬ ((Endian.big.bytes check ++ (checkedBytes nPbPacketLen msgType data ++ ys)).length < kHeadLen ∨
      (Endian.big.bytes check ++ (checkedBytes nPbPacketLen msgType data ++ ys)).length <
        nPbPacketLen.toNat + kHeadLen) := by
    simp only [checkedBytes, List.length_append, Endian.bytes_length, kHeadLen]
    omega
  rw [packetFront, h4, h8, h12, Endian.read_bytes, Endian.read_bytes, Endian.read_bytes, if_neg hlen, ← h,
    List.take_left]

lemma packetFront_cases (handles : PacketHandles H) (sessionId : ℤ) (xs : Bytes) :
    packetFront handles sessionId xs = .more ∨
      ∃ check nPbPacketLen msgType data ys, data.length = UInt32.toNat nPbPacketLen ∧
        xs = Endian.big.bytes check ++ (checkedBytes nPbPacketLen msgType data ++ ys) := by
  by_cases h : xs.length < kHeadLen ∨ xs.length < (Endian.big.read (xs.drop 4)).toNat + kHeadLen
  · exact .inl (if_pos h)
  · rw [not_or, not_lt, not_lt] at h
    exact .inr (exists_packet h.1 h.2)

lemma packetFront_append {xs : Bytes} (ys : Bytes) (h : packetFront handles sessionId xs ≠ .more) :
    packetFront handles sessionId (xs ++ ys) = packetFront handles sessionId xs := by
  obtain hm | ⟨check, nPbPacketLen, msgType, data, tail, hd, rfl⟩ := packetFront_cases handles sessionId xs
  · exact absurd hm h
  · rw [packetFront_packet tail hd, List.append_assoc, List.append_assoc, packetFront_packet (tail ++ ys) hd]

lemma packetVerdict_frame {check nPbPacketLen msgType : UInt32} {data : Bytes} {call : Call H} {n : ℕ}
    (h : packetVerdict handles sessionId check nPbPacketLen msgType data = .frame call n) :
    check = checkCode (checkedBytes nPbPacketLen msgType data) ∧
      readPbPacket handles sessionId msgType data = some call ∧ n = data.length + kHeadLen := by
  rw [packetVerdict] at h
  split at h
  case isTrue => cases h
  case isFalse hcheck =>
    rw [not_not] at hcheck
    split at h
    · cases h
    case h_2 call' hcall =>
      cases h
      exact ⟨hcheck, hcall, rfl⟩

lemma packetBytes_length (call : Call H) : call.packetBytes.length = call.data.length + kHeadLen := by
  simp only [Call.packetBytes, packetBytes, checkedBytes, List.length_append, Endian.bytes_length, kHeadLen]
  omega

lemma packetFront_sound {xs : Bytes} {call : Call H} {n : ℕ} (h : packetFront handles sessionId xs = .frame call n) :
    call.Valid handles sessionId ∧ n = call.packetBytes.length ∧ xs = call.packetBytes ++ xs.drop n := by
  obtain hm | ⟨check, nPbPacketLen, msgType, data, tail, hd, rfl⟩ := packetFront_cases handles sessionId xs
  · rw [hm] at h
    cases h
  · rw [packetFront_packet tail hd] at h
    obtain ⟨hcheck, hcall, hn⟩ := packetVerdict_frame h
    obtain ⟨rfl, rfl⟩ := readPbPacket_eq hcall
    have hlen : n = call.packetBytes.length := by rw [hn, packetBytes_length]
    have hword : UInt32.ofNat call.data.length = nPbPacketLen := by rw [hd, UInt32.ofNat_toNat]
    have hxs : Endian.big.bytes check ++ (checkedBytes nPbPacketLen call.msgType call.data ++ tail) =
        call.packetBytes ++ tail := by
      rw [Call.packetBytes, packetBytes, hword, ← hcheck, List.append_assoc]
    refine ⟨⟨hcall, hd ▸ nPbPacketLen.toNat_lt⟩, hlen, ?_⟩
    rw [hxs, hlen, List.drop_left]

lemma packetFront_complete {call : Call H} (ys : Bytes) (h : call.Valid handles sessionId) :
    packetFront handles sessionId (call.packetBytes ++ ys) = .frame call call.packetBytes.length := by
  have hd : call.data.length = (UInt32.ofNat call.data.length).toNat := by
    rw [UInt32.toNat_ofNat_of_lt' h.length_lt]
  rw [packetBytes_length, Call.packetBytes, packetBytes, List.append_assoc, packetFront_packet ys hd, packetVerdict,
    if_neg (not_not.mpr rfl), h.handled]

def packetReader (handles : PacketHandles H) (sessionId : ℤ) : FrameReader UInt8 (Call H) where
  front := packetFront handles sessionId
  frame_pos h := by
    obtain ⟨-, hn, hxs⟩ := packetFront_sound h
    have hlen := congrArg List.length hxs
    rw [List.length_append, ← hn] at hlen
    rw [packetBytes_length, kHeadLen] at hn
    omega
  frame_append ys h := by
    rw [packetFront_append ys (by rw [h]; nofun), h]
  refused_append ys h := by
    rw [packetFront_append ys (by rw [h]; nofun), h]

lemma packetReader_decodes (handles : PacketHandles H) (sessionId : ℤ) :
    (packetReader handles sessionId).Decodes (Call.Valid handles sessionId) Call.packetBytes where
  sound := packetFront_sound
  complete := packetFront_complete

lemma readPbPacket_packet (native : Endian) {buf : SessionBuffer nMaxBuffSize} (h : kHeadLen ≤ buf.getReadableSize) :
    swapUint32 native (native.read buf.getReadData) = Endian.big.read buf.getReadData ∧
      swapUint32 native (native.read (buf.getReadData.drop 4)) = Endian.big.read (buf.getReadData.drop 4) ∧
      swapUint32 native (native.read (buf.getReadData.drop 8)) = Endian.big.read (buf.getReadData.drop 8) := by
  rw [← SessionBuffer.getReadData_length, kHeadLen] at h
  refine ⟨swapUint32_read (by omega), swapUint32_read ?_, swapUint32_read ?_⟩ <;>
    rw [List.length_drop] <;> omega

lemma checked_region {xs : Bytes} {n : ℕ} (hlen : n + kHeadLen ≤ xs.length)
    (hn : n = (Endian.big.read (xs.drop 4)).toNat) :
    (xs.drop 4).take (n + kHeadLen - 4) =
      checkedBytes (Endian.big.read (xs.drop 4)) (Endian.big.read (xs.drop 8)) ((xs.drop kHeadLen).take n) := by
  rw [kHeadLen] at hlen
  have h8 : (xs.drop 8) = (xs.drop 4).drop 4 := by rw [List.drop_drop]
  have h12 : (xs.drop kHeadLen) = (xs.drop 8).drop 4 := by rw [List.drop_drop]; rfl
  rw [checkedBytes, Endian.bytes_read _ _ (by rw [List.length_drop]; omega),
    Endian.bytes_read _ _ (by rw [List.length_drop]; omega), h12, ← List.take_add, h8, ← List.take_add]
  congr 1
  rw [kHeadLen]
  omega

theorem readData_drain (native : Endian) (handles : PacketHandles H) (sessionId : ℤ)
    (buf : SessionBuffer nMaxBuffSize) :
    (readData native handles sessionId buf).1.getReadData =
        ((packetReader handles sessionId).drain buf.getReadData).rest ∧
      (readData native handles sessionId buf).2.1 =
        ((packetReader handles sessionId).drain buf.getReadData).frames ∧
      (readData native handles sessionId buf).2.2 =
        ((packetReader handles sessionId).drain buf.getReadData).ok := by
  induction hk : buf.getReadableSize using Nat.strongRecOn generalizing buf with
  | ind k ih =>
    rw [readData]
    split
    case isFalse h =>
      have hmore : (packetReader handles sessionId).front buf.getReadData = .more := by
        apply if_pos
        rw [SessionBuffer.getReadData_length]
        omega
      rw [FrameReader.drain_of_more hmore]
      exact ⟨rfl, rfl, rfl⟩
    case isTrue h =>
      obtain ⟨hcheck, hlen, htype⟩ := readPbPacket_packet native h
      simp only [hcheck, hlen, htype]
      split
      case isTrue hshort =>
        have hmore : (packetReader handles sessionId).front buf.getReadData = .more := by
          apply if_pos
          rw [SessionBuffer.getReadData_length]
          exact .inr hshort
        rw [FrameReader.drain_of_more hmore]
        exact ⟨rfl, rfl, rfl⟩
      case isFalse hfull =>
        rw [not_lt, ← SessionBuffer.getReadData_length] at hfull
        rw [ge_iff_le, ← SessionBuffer.getReadData_length] at h
        have hfront : (packetReader handles sessionId).front buf.getReadData = packetVerdict handles sessionId
            (Endian.big.read buf.getReadData) (Endian.big.read (buf.getReadData.drop 4))
            (Endian.big.read (buf.getReadData.drop 8))
            ((buf.getReadData.drop kHeadLen).take (Endian.big.read (buf.getReadData.drop 4)).toNat) := by
          apply if_neg
          omega
        rw [packetVerdict, ← checked_region hfull rfl] at hfront
        split
        case isTrue hne =>
          rw [if_pos hne] at hfront
          rw [FrameReader.drain_of_refused hfront]
          exact ⟨rfl, rfl, rfl⟩
        case isFalse heq =>
          rw [if_neg heq] at hfront
          split
          case h_1 hnone =>
            rw [hnone] at hfront
            rw [FrameReader.drain_of_refused hfront]
            exact ⟨rfl, rfl, rfl⟩
          case h_2 call hcall =>
            have hdata : ((buf.getReadData.drop kHeadLen).take
                (Endian.big.read (buf.getReadData.drop 4)).toNat).length =
                (Endian.big.read (buf.getReadData.drop 4)).toNat := by
              rw [List.length_take, List.length_drop]
              omega
            rw [hcall] at hfront
            simp only [hdata] at hfront
            have hlt := FrameReader.drop_length_lt _ hfront
            rw [← SessionBuffer.getReadData_removeData, SessionBuffer.getReadData_length,
              SessionBuffer.getReadData_length, hk] at hlt
            have hrest := ih _ hlt _ rfl
            rw [SessionBuffer.getReadData_removeData] at hrest
            rw [FrameReader.drain_of_frame hfront]
            exact ⟨hrest.1, congrArg _ hrest.2.1, hrest.2.2⟩

section Reading

open NetModule SessionBuffer

lemma getReadData_doSessionRead {buf buf' : SessionBuffer nMaxBuffSize} {data : Bytes}
    (h : doSessionRead buf data = some buf') : buf'.getReadData = buf.getReadData ++ data := by
  rw [doSessionRead] at h
  obtain ⟨buf₁, hstore, h⟩ := Option.bind_eq_some_iff.mp h
  obtain ⟨buf₂, hpadding, h⟩ := Option.bind_eq_some_iff.mp h
  have hfill := getReadData_store_paddingData hstore hpadding le_rfl
  rw [List.take_length] at hfill
  split at h
  · rw [getReadData_shrinkByLength h, getReadData_reorganizeData, hfill]
  · cases h
    exact hfill

lemma getReadData_arrive {buf buf' : SessionBuffer nMaxBuffSize} {arrival : Arrival}
    (h : arrive buf arrival = some buf') : buf'.getReadData = buf.getReadData ++ arrival.data := by
  cases arrival with
  | written data => exact getReadData_write h
  | readSome data => exact getReadData_doSessionRead h

lemma turns_reads {native : Endian} {buf buf' : SessionBuffer nMaxBuffSize} {arrivals : List Arrival}
    {results : List (List (Call H) × Bool)}
    (h : Turns (handleSessionRead native handles sessionId) buf arrivals buf' results) :
    results = ((packetReader handles sessionId).reads buf.getReadData (arrivals.map Arrival.data)).map
        (fun r => (r.frames, r.ok)) ∧
      buf'.getReadData =
        (packetReader handles sessionId).restAfter buf.getReadData (arrivals.map Arrival.data) := by
  induction arrivals generalizing buf results with
  | nil =>
    cases h
    exact ⟨rfl, rfl⟩
  | cons arrival arrivals ih =>
    rw [Turns, feed] at h
    obtain ⟨⟨buf₁, out⟩, hstep, h⟩ := Option.bind_eq_some_iff.mp h
    obtain ⟨⟨buf₂, outs⟩, hfeed, h⟩ := Option.map_eq_some_iff.mp h
    obtain ⟨filled, harrive, hread⟩ := Option.map_eq_some_iff.mp hstep
    cases h
    cases hread
    obtain ⟨hrest, hcalls, hok⟩ := readData_drain native handles sessionId filled
    rw [getReadData_arrive harrive] at hrest hcalls hok
    obtain ⟨houts, hbuf⟩ := ih hfeed
    rw [hrest] at houts hbuf
    rw [List.map_cons, FrameReader.reads, FrameReader.restAfter, List.map_cons, ← houts, ← hcalls, ← hok]
    exact ⟨rfl, hbuf⟩

lemma currentWritableSize_le_readData (native : Endian) (handles : PacketHandles H) (sessionId : ℤ)
    (buf : SessionBuffer nMaxBuffSize) :
    buf.currentWritableSize ≤ (readData native handles sessionId buf).1.currentWritableSize := by
  fun_induction readData native handles sessionId buf with
  | case4 buf _ _ _ packetLen _ _ _ _ call _ r ih =>
    exact (currentWritableSize_le_removeData buf (packetLen + kHeadLen)).trans ih
  | _ => exact le_rfl

lemma exists_turns_written (native : Endian) (handles : PacketHandles H) (sessionId : ℤ)
    (buf : SessionBuffer nMaxBuffSize) (chunks : List Bytes) (h : chunks.flatten.length ≤ buf.currentWritableSize) :
    ∃ buf' results,
      Turns (handleSessionRead native handles sessionId) buf (chunks.map Arrival.written) buf' results := by
  induction chunks generalizing buf with
  | nil => exact ⟨buf, [], turns_nil buf⟩
  | cons chunk chunks ih =>
    rw [List.flatten_cons, List.length_append] at h
    obtain ⟨filled, hwrite, hsize, -, hpos⟩ := exists_write buf chunk (by omega)
    have hread := currentWritableSize_le_readData native handles sessionId filled
    rw [currentWritableSize] at h
    rw [currentWritableSize] at hread
    obtain ⟨buf', results, hturns⟩ := ih (readData native handles sessionId filled).1 (by omega)
    have hstep : handleSessionRead native handles sessionId buf (.written chunk) =
        some ((readData native handles sessionId filled).1, [(readData native handles sessionId filled).2]) := by
      rw [handleSessionRead, arrive, hwrite]
      rfl
    exact ⟨buf', _, Turns.cons hstep hturns⟩

structure MaximalPrefix (handles : PacketHandles H) (sessionId : ℤ) (stream : Bytes) (calls : List (Call H))
    (rest : Bytes) : Prop where
  stream_eq : stream = calls.flatMap Call.packetBytes ++ rest
  valid : ∀ call ∈ calls, call.Valid handles sessionId
  maximal : ∀ call tail, Call.Valid handles sessionId call → rest ≠ call.packetBytes ++ tail

lemma maximalPrefix_iff {stream rest : Bytes} {calls : List (Call H)} :
    MaximalPrefix handles sessionId stream calls rest ↔
      calls = ((packetReader handles sessionId).drain stream).frames ∧
        rest = ((packetReader handles sessionId).drain stream).rest := by
  constructor
  · rintro ⟨rfl, hvalid, hmax⟩
    obtain ⟨hframes, hrest⟩ := (packetReader_decodes handles sessionId).eq_drain hvalid hmax
    exact ⟨hframes.symm, hrest.symm⟩
  · rintro ⟨rfl, rfl⟩
    obtain ⟨hstream, hvalid, hmax⟩ := (packetReader_decodes handles sessionId).drain_maximal stream
    exact ⟨hstream, hvalid, hmax⟩

theorem turns_maximalPrefix {native : Endian} {arrivals : List Arrival}
    {buf : SessionBuffer kDefaultMaxBufferSize} {results : List (List (Call H) × Bool)}
    (hturns : Turns (handleSessionRead native handles sessionId) (init kDefaultMaxBufferSize) arrivals buf results) :
    MaximalPrefix handles sessionId (arrivals.flatMap Arrival.data) (results.flatMap Prod.fst) buf.getReadData ∧
      ∀ before r after, results = before ++ r :: after → r.2 = false → ∀ r' ∈ after, r'.1 = [] ∧ r'.2 = false := by
  obtain ⟨hresults, hbuf⟩ := turns_reads hturns
  have hreads := (packetReader handles sessionId).reads_eq_drain FrameReader.settled_nil (arrivals.map Arrival.data)
  rw [List.nil_append, ← List.flatMap_def] at hreads
  rw [getReadData_init] at hresults hbuf
  refine ⟨maximalPrefix_iff.mpr ⟨?_, hbuf.trans hreads.2⟩, ?_⟩
  · rw [hresults, List.flatMap_map]
    exact hreads.1
  · intro before r after hsplit hr
    rw [hresults] at hsplit
    obtain ⟨before', tail, hreads', -, htail⟩ := List.map_eq_append_iff.mp hsplit
    obtain ⟨d, after', rfl, hd, hafter⟩ := List.map_eq_cons_iff.mp htail
    intro r' hr'
    rw [← hafter] at hr'
    obtain ⟨d', hd', rfl⟩ := List.mem_map.mp hr'
    exact FrameReader.reads_after_refusal hreads' (by rw [← hr, ← hd]) d' hd'

end Reading

end TonyCat.Net
