import TonyCat.Library.GreedyFill
import TonyCat.Net.WritePump

set_option autoImplicit false

/-! What gets into the write buffer of a session: replies in pieces, packets, and `WriteAppend` of two parts. -/

namespace TonyCat.Net

open TonyCat.Library TonyCat.Http SessionBuffer

variable {nMaxBuffSize : ℕ}

namespace SessionBuffer

/-- `Session::WriteAppend` whose result is not looked at. -/
def append (buf : SessionBuffer nMaxBuffSize) (data : Bytes) : SessionBuffer nMaxBuffSize :=
  match buf.write data with
  | some buf' => buf'
  | none => buf

/-- `Session::WriteAppend` of a head and data. -/
def writeAppendParts (buf : SessionBuffer nMaxBuffSize) (dataHead data : Bytes) : SessionBuffer nMaxBuffSize × Bool :=
  if dataHead.length + data.length > buf.maxWritableSize then
    (buf, false)
  else
    ((buf.append dataHead).append data, true)

variable {buf : SessionBuffer nMaxBuffSize}

lemma append_of_room {data : Bytes} (h : data.length ≤ buf.currentWritableSize) :
    (buf.append data).getReadData = buf.getReadData ++ data ∧
      (buf.append data).currentWritableSize = buf.currentWritableSize - data.length := by
  obtain ⟨buf', hwrite, hlen, -, hpos⟩ := exists_write buf data h
  have happend : buf.append data = buf' := by rw [append, hwrite]
  rw [happend]
  refine ⟨getReadData_write hwrite, ?_⟩
  rw [currentWritableSize, currentWritableSize, hlen, hpos]
  omega

lemma append_of_full {data : Bytes} (h : ¬ data.length ≤ buf.currentWritableSize) : buf.append data = buf := by
  have hwrite : buf.write data = none := by rw [write, paddingData, dif_pos (not_le.mp h)]; rfl
  rw [append, hwrite]

lemma getReadData_foldl_append (pieces : List Bytes) :
    (pieces.foldl append buf).getReadData =
      buf.getReadData ++ (fitting buf.currentWritableSize pieces).flatten := by
  induction pieces generalizing buf with
  | nil => simp [fitting]
  | cons data pieces ih =>
    rw [List.foldl_cons, ih, fitting]
    split
    case isTrue hroom =>
      obtain ⟨hread, hleft⟩ := append_of_room hroom
      rw [hread, hleft, List.flatten_cons, List.append_assoc]
    case isFalse hfull => rw [append_of_full hfull]

end SessionBuffer

namespace SessionBuffer

def AppendsParts (buf : SessionBuffer nMaxBuffSize) (dataHead data : Bytes) : Prop :=
  ((buf.writeAppendParts dataHead data).2 = true ↔
      (buf.writeAppendParts dataHead data).1.getReadData = buf.getReadData ++ (dataHead ++ data)) ∧
    ((buf.writeAppendParts dataHead data).2 = false → (buf.writeAppendParts dataHead data).1 = buf)

lemma writeAppendParts_of_max {buf : SessionBuffer nMaxBuffSize} {dataHead data : Bytes}
    (hmax : ¬ dataHead.length + data.length > buf.maxWritableSize) : (buf.writeAppendParts dataHead data).2 = true ∧
      ((buf.writeAppendParts dataHead data).1.getReadData = buf.getReadData ++ (dataHead ++ data) ↔
        dataHead.length + data.length ≤ buf.currentWritableSize) := by
  rw [writeAppendParts, if_neg hmax]
  have hread : ((buf.append dataHead).append data).getReadData =
      buf.getReadData ++ (fitting buf.currentWritableSize [dataHead, data]).flatten :=
    getReadData_foldl_append [dataHead, data]
  have hall := fitting_eq_iff buf.currentWritableSize [dataHead, data]
  simp only [List.flatten_cons, List.flatten_nil, List.append_nil, List.length_append] at hall
  rw [hread, List.append_right_inj]
  exact ⟨rfl, hall⟩

theorem appendsParts_iff (buf : SessionBuffer nMaxBuffSize) (dataHead data : Bytes) :
    buf.AppendsParts dataHead data ↔ dataHead.length + data.length > buf.maxWritableSize ∨
      dataHead.length + data.length ≤ buf.currentWritableSize := by
  rw [AppendsParts]
  by_cases hmax : dataHead.length + data.length > buf.maxWritableSize
  · refine iff_of_true ?_ (.inl hmax)
    rw [writeAppendParts, if_pos hmax]
    refine ⟨iff_of_false Bool.false_ne_true fun heq => ?_, fun _ => rfl⟩
    have hlen := congrArg List.length heq
    simp only [List.length_append] at hlen
    omega
  · obtain ⟨hflag, hread⟩ := writeAppendParts_of_max hmax
    rw [hflag, hread, or_iff_right hmax]
    exact ⟨fun h => h.1.mp rfl, fun h => ⟨iff_of_true rfl h, nofun⟩⟩

/-- One byte and 2 MB on a new session: the flag is true and the data is lost. -/
theorem not_appendsParts_large : ¬ (init kDefaultMaxBufferSize).AppendsParts [0] (List.replicate (2 ^ 21) 0) := by
  intro h
  have hmax : ¬ [(0 : UInt8)].length + (List.replicate (2 ^ 21) (0 : UInt8)).length >
      (init kDefaultMaxBufferSize).maxWritableSize := by
    rw [List.length_replicate]
    decide
  obtain ⟨hflag, hread⟩ := writeAppendParts_of_max hmax
  have hroom := hread.mp (h.1.mp hflag)
  rw [List.length_replicate, currentWritableSize_init] at hroom
  exact absurd hroom (by decide)

end SessionBuffer

namespace NetPbModule

def frameLength (packetHead packetBody : PacketNode) : ℕ :=
  kHeadLen + 4 + (packetHead.byteSizeLong + packetBody.byteSizeLong)

def Exceeds (buf : SessionBuffer nMaxBuffSize) (packetHead packetBody : PacketNode) : Prop :=
  packetHead.byteSizeLong + packetBody.byteSizeLong > 0xffffff ∨
    buf.getReadableSize + frameLength packetHead packetBody > nMaxBuffSize

def Admits (native : Endian) (buf : SessionBuffer nMaxBuffSize) (msgType : UInt32) (packetHead packetBody : PacketNode) :
    Prop :=
  match writeDataOnSessionThread native buf msgType packetHead packetBody with
  | none => Exceeds buf packetHead packetBody
  | some buf' => buf'.getReadData = buf.getReadData ++ packetBytes msgType (payload packetHead packetBody)

lemma admits_iff_room (native : Endian) (buf : SessionBuffer nMaxBuffSize) (msgType : UInt32)
    (packetHead packetBody : PacketNode) : Admits native buf msgType packetHead packetBody ↔
      Exceeds buf packetHead packetBody ∨ frameLength packetHead packetBody ≤ buf.currentWritableSize := by
  rw [Admits]
  cases hwrite : writeDataOnSessionThread native buf msgType packetHead packetBody with
  | none =>
    refine ⟨.inl, fun h => h.elim id fun hroom => ?_⟩
    -- a packet of a good size with room for its frame is written
    by_contra hgood
    have hsum : packetHead.bytes.length + packetBody.bytes.length ≤ 0xffffff := not_lt.mp fun h => hgood (.inl h)
    simp only [frameLength, PacketNode.byteSizeLong, kHeadLen] at hroom
    obtain ⟨buf', hbuf⟩ := exists_writeDataOnSessionThread native buf msgType packetHead packetBody hsum (by omega)
    rw [hwrite] at hbuf
    cases hbuf
  | some buf' =>
    obtain ⟨-, hroom, -⟩ := writeDataOnSessionThread_stores hwrite
    refine iff_of_true (getReadData_writeDataOnSessionThread hwrite).2 (.inr ?_)
    simp only [frameLength, PacketNode.byteSizeLong, kHeadLen]
    omega

end NetPbModule

namespace WriteSession

theorem admits_iff {native : Endian} {events : List WriteEvent} {s : WriteSession nMaxBuffSize}
    (h : run (WriteSession.step native) (init nMaxBuffSize) events = some s) (msgType : UInt32)
    (packetHead packetBody : PacketNode) :
    NetPbModule.Admits native s.m_buffWrite msgType packetHead packetBody ↔
      NetPbModule.Exceeds s.m_buffWrite packetHead packetBody ∨
        s.m_buffWrite.nWritePos + NetPbModule.frameLength packetHead packetBody ≤
          nMaxBuffSize / kInitBufferSizeDivNumber := by
  have hsize := (invariant_of_run h).1.size
  have hwrite := s.m_buffWrite.write_le
  rw [NetPbModule.admits_iff_room, currentWritableSize, hsize]
  rw [hsize] at hwrite
  constructor
  · exact Or.imp_right fun hroom => by omega
  · exact Or.imp_right fun hroom => by omega

theorem admits_partialWrites : ∃ s, run (WriteSession.step .little) (init 1024) partialWrites = some s ∧
    NetPbModule.Admits .little s.m_buffWrite 7 ⟨[1], by decide⟩ ⟨[2], by decide⟩ := by
  have h : (run (WriteSession.step .little) (init 1024) partialWrites).map (fun s => s.m_buffWrite.nWritePos) =
      some 21 := by
    decide +kernel
  obtain ⟨s, hs, hpos⟩ := Option.map_eq_some_iff.mp h
  refine ⟨s, hs, (admits_iff hs 7 ⟨[1], by decide⟩ ⟨[2], by decide⟩).mpr (.inr ?_)⟩
  rw [hpos]
  decide

lemma not_admits_of_length {packetBody : PacketNode} (hlen : packetBody.bytes.length = 2 ^ 21) :
    ¬ NetPbModule.Admits .little (init kDefaultMaxBufferSize).m_buffWrite 7 ⟨[], by decide⟩ packetBody := by
  have hempty : (SessionBuffer.init kDefaultMaxBufferSize).getReadableSize = 0 := rfl
  rw [NetPbModule.admits_iff_room, NetPbModule.Exceeds, WriteSession.init, currentWritableSize_init, hempty]
  simp only [NetPbModule.frameLength, PacketNode.byteSizeLong, hlen, List.length_nil, NetPbModule.kHeadLen,
    kDefaultMaxBufferSize, kInitBufferSizeDivNumber]
  omega

/-- 2 MB on a new session, whose buffer may grow to 32 MB: the packet is refused. -/
theorem not_admits_large : ¬ NetPbModule.Admits .little (init kDefaultMaxBufferSize).m_buffWrite 7
    ⟨[], by decide⟩ ⟨List.replicate (2 ^ 21) 0, List.length_replicate.trans_le (by decide)⟩ :=
  not_admits_of_length List.length_replicate

end WriteSession

def serialization (respond : Reply) : Bytes :=
  Reply.toErrorHead respond.statusCode ++
    respond.headers.flatMap (fun elem => elem.1 ++ (sNameValueSeparator ++ (elem.2 ++ sCrlf))) ++
      (sCrlf ++ respond.content)

lemma flatten_pieces (respond : Reply) : (pieces respond).flatten = serialization respond := by
  have hheaders : ∀ headers : List (Bytes × Bytes),
      (headers.flatMap fun elem => [elem.1, sNameValueSeparator, elem.2, sCrlf]).flatten =
        headers.flatMap fun elem => elem.1 ++ (sNameValueSeparator ++ (elem.2 ++ sCrlf)) := by
    intro headers
    induction headers with
    | nil => rfl
    | cons elem headers ih => simp [ih]
  simp [pieces, serialization, hheaders]

namespace WriteSession

variable {s t : WriteSession nMaxBuffSize} {native : Endian}

/-- The task that `NetHttpModule::WriteData` posts. -/
def writeData (s : WriteSession nMaxBuffSize) (respond : Reply) : WriteSession nMaxBuffSize :=
  ((pieces respond).foldl writeAppend s).doSessionWrite

def AllOrNothing (s : WriteSession nMaxBuffSize) (respond : Reply) : Prop :=
  (s.writeData respond).m_buffWrite.getReadData = s.m_buffWrite.getReadData ++ serialization respond ∨
    (s.writeData respond).m_buffWrite.getReadData = s.m_buffWrite.getReadData

lemma m_buffWrite_writeAppend (data : Bytes) : (s.writeAppend data).m_buffWrite = s.m_buffWrite.append data := by
  rw [writeAppend, SessionBuffer.append]
  cases s.m_buffWrite.write data <;> rfl

lemma m_buffWrite_foldl_writeAppend (pieces : List Bytes) :
    (pieces.foldl writeAppend s).m_buffWrite = pieces.foldl SessionBuffer.append s.m_buffWrite := by
  induction pieces generalizing s with
  | nil => rfl
  | cons data pieces ih => rw [List.foldl_cons, List.foldl_cons, ih, m_buffWrite_writeAppend]

lemma m_buffWrite_doSessionWrite : s.doSessionWrite.m_buffWrite = s.m_buffWrite := by
  rw [doSessionWrite]
  split <;> rfl

lemma getReadData_writeData (respond : Reply) : (s.writeData respond).m_buffWrite.getReadData =
    s.m_buffWrite.getReadData ++ (fitting s.m_buffWrite.currentWritableSize (pieces respond)).flatten := by
  rw [writeData, m_buffWrite_doSessionWrite, m_buffWrite_foldl_writeAppend, getReadData_foldl_append]

theorem allOrNothing_iff (s : WriteSession nMaxBuffSize) (respond : Reply) : AllOrNothing s respond ↔
    (serialization respond).length ≤ s.m_buffWrite.currentWritableSize ∨
      ∀ piece ∈ pieces respond, piece ≠ [] → s.m_buffWrite.currentWritableSize < piece.length := by
  rw [AllOrNothing, getReadData_writeData, List.append_right_inj, List.append_right_eq_self, ← flatten_pieces,
    fitting_eq_iff, fitting_eq_nil_iff]

lemma length_serialization_ok (content : Bytes) : (serialization ⟨.ok, [], content⟩).length = 19 + content.length := by
  rw [serialization, List.length_append, List.length_append, List.length_append, ← Nat.add_assoc]
  rfl

/-- 2 MB of content on a new session: the status line and the blank line are appended, the content is not. -/
theorem not_allOrNothing_large :
    ¬ AllOrNothing (init kDefaultMaxBufferSize) ⟨.ok, [], List.replicate (2 ^ 21) 0⟩ := by
  rw [AllOrNothing, getReadData_writeData, List.append_right_inj, List.append_right_eq_self, ← flatten_pieces,
    fitting_eq_iff, fitting_eq_nil_iff, WriteSession.init, currentWritableSize_init]
  rintro (hall | hnone)
  · rw [flatten_pieces, length_serialization_ok, List.length_replicate] at hall
    exact absurd hall (by decide)
  · have hline : sCrlf ∈ pieces ⟨.ok, [], List.replicate (2 ^ 21) 0⟩ := List.mem_cons_of_mem _ List.mem_cons_self
    exact absurd (hnone sCrlf hline (by decide)) (by decide)

end WriteSession

end TonyCat.Net
