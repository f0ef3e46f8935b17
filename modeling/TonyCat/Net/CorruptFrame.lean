import TonyCat.Net.PacketStream

set_option autoImplicit false

/-! Frames that are changed on the way, and what `ReadData` does with them. -/

namespace TonyCat.Net

open TonyCat.Library TonyCat.Utility NetPbModule

variable {H : Type*} {nMaxBuffSize : ℕ}

def Accepted (handles : PacketHandles H) (frame : Bytes) : Prop :=
  ∃ (native : Endian) (sessionId : ℤ) (nMaxBuffSize : ℕ) (buf : SessionBuffer nMaxBuffSize) (behind : Bytes)
    (call : Call H) (calls : List (Call H)),
    buf.getReadData = frame ++ behind ∧ (readData native handles sessionId buf).2.1 = call :: calls ∧
      frame.length = call.data.length + kHeadLen

/-- The frames differ, and only inside four consecutive bytes from the eighth on, or only in the check code. -/
inductive Corrupts (frame altered : Bytes) : Prop
  | window (pre w w' post : Bytes) (region : 8 ≤ pre.length) (four : w.length ≤ 4) (length : w.length = w'.length)
      (differ : w ≠ w') (was : frame = pre ++ (w ++ post)) (is : altered = pre ++ (w' ++ post))
  | check (code code' rest : Bytes) (four : code.length = 4) (four' : code'.length = 4) (differ : code ≠ code')
      (was : frame = code ++ rest) (is : altered = code' ++ rest)

lemma eq_packetBytes_of_accepted {handles : PacketHandles H} {frame : Bytes} (h : Accepted handles frame) :
    ∃ call : Call H, call.data.length < 2 ^ 32 ∧ frame = call.packetBytes := by
  obtain ⟨native, sessionId, n, buf, behind, call, calls, hbuf, hcalls, hlen⟩ := h
  have hdrain := (readData_drain native handles sessionId buf).2.1
  rw [hcalls] at hdrain
  cases hfront : (packetReader handles sessionId).front buf.getReadData with
  | more =>
    rw [FrameReader.drain_of_more hfront] at hdrain
    cases hdrain
  | refused =>
    rw [FrameReader.drain_of_refused hfront] at hdrain
    cases hdrain
  | frame call' n =>
    rw [FrameReader.drain_of_frame hfront] at hdrain
    obtain ⟨rfl, -⟩ := List.cons.inj hdrain
    obtain ⟨hvalid, -, hxs⟩ := packetFront_sound hfront
    rw [hbuf] at hxs
    have hsame : frame.length = call.packetBytes.length := by rw [hlen, packetBytes_length]
    exact ⟨call, hvalid.length_lt, (List.append_inj hxs hsame).1⟩

lemma split_after {α : Type*} {front rest pre tail : List α} (hlen : front.length ≤ pre.length)
    (h : front ++ rest = pre ++ tail) : ∃ pre', pre = front ++ pre' ∧ rest = pre' ++ tail := by
  rcases List.append_eq_append_iff.mp h with ⟨pre', hpre, hrest⟩ | ⟨extra, hfront, htail⟩
  · exact ⟨pre', hpre, hrest⟩
  · obtain rfl : extra = [] := by
      rw [hfront, List.length_append] at hlen
      exact List.eq_nil_of_length_eq_zero (by omega)
    exact ⟨[], by rw [hfront, List.append_nil, List.append_nil], htail.symm⟩

lemma exists_checkedBytes {nPbPacketLen : UInt32} {region : Bytes} (h : region.length = nPbPacketLen.toNat + 4) :
    ∃ msgType data, data.length = nPbPacketLen.toNat ∧
      Endian.big.bytes nPbPacketLen ++ region = checkedBytes nPbPacketLen msgType data := by
  refine ⟨Endian.big.read region, region.drop 4, by rw [List.length_drop]; omega, ?_⟩
  rw [checkedBytes, Endian.bytes_read _ _ (by omega), List.take_append_drop]

lemma readData_of_wrong_check {native : Endian} {handles : PacketHandles H} {sessionId : ℤ}
    {buf : SessionBuffer nMaxBuffSize} (check nPbPacketLen : UInt32) (region behind : Bytes)
    (hregion : region.length = nPbPacketLen.toNat + 4)
    (hcheck : check ≠ checkCode (Endian.big.bytes nPbPacketLen ++ region))
    (hbuf : buf.getReadData = Endian.big.bytes check ++ (Endian.big.bytes nPbPacketLen ++ region) ++ behind) :
    (readData native handles sessionId buf).2 = ([], false) := by
  obtain ⟨msgType, data, hdata, hchecked⟩ := exists_checkedBytes hregion
  have hfront : (packetReader handles sessionId).front buf.getReadData = .refused := by
    rw [hbuf, hchecked, List.append_assoc]
    refine (packetFront_packet behind hdata).trans ?_
    rw [packetVerdict, ← hchecked, if_pos hcheck]
  obtain ⟨-, hcalls, hok⟩ := readData_drain native handles sessionId buf
  rw [FrameReader.drain_of_refused hfront] at hcalls hok
  exact Prod.ext hcalls hok

theorem corrupt_frame_refused {handles : PacketHandles H} {frame altered : Bytes} (hframe : Accepted handles frame)
    (hcorrupt : Corrupts frame altered) (native : Endian) (handles' : PacketHandles H) (sessionId : ℤ)
    (buf : SessionBuffer nMaxBuffSize) (behind : Bytes) (hbuf : buf.getReadData = altered ++ behind) :
    (readData native handles' sessionId buf).2 = ([], false) := by
  obtain ⟨call, hlt, hbytes⟩ := eq_packetBytes_of_accepted hframe
  have hlen : (UInt32.ofNat call.data.length).toNat = call.data.length := UInt32.toNat_ofNat_of_lt' hlt
  have hregion : (Endian.big.bytes call.msgType ++ call.data).length =
      (UInt32.ofNat call.data.length).toNat + 4 := by
    rw [List.length_append, Endian.bytes_length, hlen, Nat.add_comm]
  rw [Call.packetBytes, packetBytes, checkedBytes] at hbytes
  cases hcorrupt with
  | window pre w w' post from8 four length differ was is =>
    -- the check code and the length stand before the window
    obtain ⟨pre', rfl, hrest⟩ := split_after (by simpa using from8) <|
      (List.append_assoc _ _ _).trans (hbytes.symm.trans was)
    have hlength : (pre' ++ (w' ++ post)).length = (pre' ++ (w ++ post)).length := by
      simp only [List.length_append, length]
    have hcheck := crc32_ne (Endian.big.bytes (UInt32.ofNat call.data.length) ++ pre') post length four differ
    rw [List.append_assoc, List.append_assoc, ← hrest] at hcheck
    rw [← hrest] at hlength
    apply readData_of_wrong_check _ _ _ behind (hlength.trans hregion) hcheck
    rw [hbuf, is]
    simp only [List.append_assoc, checkCode]
  | check code code' rest four four' differ was is =>
    obtain ⟨hcode, hrest⟩ := List.append_inj (was.symm.trans hbytes) (by rw [four, Endian.bytes_length])
    have hread : Endian.big.bytes (Endian.big.read code') = code' := by
      rw [Endian.bytes_read _ _ four'.ge, ← four', List.take_length]
    apply readData_of_wrong_check (Endian.big.read code') _ _ behind hregion
    · intro heq
      rw [← heq, hread] at hcode
      exact differ hcode
    · rw [hbuf, is, hread, hrest]

lemma exists_buffer (bytes : Bytes) : ∃ (n : ℕ) (buf : SessionBuffer n), buf.getReadData = bytes := by
  have hroom : bytes.length ≤
      (SessionBuffer.init (SessionBuffer.kInitBufferSizeDivNumber * bytes.length)).currentWritableSize := by
    rw [SessionBuffer.currentWritableSize_init, Nat.mul_div_cancel_left _ (by decide)]
  obtain ⟨buf, hwrite, -⟩ := SessionBuffer.exists_write _ bytes hroom
  exact ⟨_, buf, SessionBuffer.getReadData_write hwrite⟩

lemma accepted_packetBytes {handles : PacketHandles H} {sessionId : ℤ} {call : Call H}
    (h : call.Valid handles sessionId) : Accepted handles call.packetBytes := by
  obtain ⟨n, buf, hbuf⟩ := exists_buffer call.packetBytes
  have hfront : (packetReader handles sessionId).front buf.getReadData = .frame call call.packetBytes.length := by
    rw [hbuf, ← List.append_nil call.packetBytes]
    exact (packetFront_complete [] h).trans (by rw [List.append_nil])
  have hcalls := (readData_drain .little handles sessionId buf).2.1
  rw [FrameReader.drain_of_frame hfront] at hcalls
  exact ⟨.little, sessionId, _, buf, [], call, _, by rw [hbuf, List.append_nil], hcalls, packetBytes_length call⟩

def oneHandler : PacketHandles Unit := ⟨fun msgType => if msgType = 7 then some () else none, none⟩

def sevenCall : Call Unit := ⟨(), 1, 7, [1, 2, 3]⟩

theorem changed_byte_refused : Accepted oneHandler sevenCall.packetBytes ∧
    ∃ (n : ℕ) (buf : SessionBuffer n), buf.getReadData = sevenCall.packetBytes.take 13 ++ [9, 3] ∧
      (readData .little oneHandler 1 buf).2 = ([], false) := by
  have hframe : Accepted oneHandler sevenCall.packetBytes := accepted_packetBytes (show sevenCall.Valid oneHandler 1 from ⟨rfl, by decide⟩)
  have hcorrupt : Corrupts sevenCall.packetBytes (sevenCall.packetBytes.take 13 ++ [9, 3]) :=
    .window (sevenCall.packetBytes.take 13) [2] [9] [3] (by decide +kernel) (by decide) rfl (by decide)
      (by decide +kernel) rfl
  obtain ⟨n, buf, hbuf⟩ := exists_buffer (sevenCall.packetBytes.take 13 ++ [9, 3])
  have hread := corrupt_frame_refused hframe hcorrupt .little oneHandler 1 buf [] (by rw [hbuf, List.append_nil])
  exact ⟨hframe, n, buf, hbuf, hread⟩

end TonyCat.Net
