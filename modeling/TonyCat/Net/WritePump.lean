import TonyCat.Library.Run
import TonyCat.Net.PacketRoundTrip
import TonyCat.Utility.HttpRequest

set_option autoImplicit false

/-! The write side of a session: appends to its write buffer, `DoSessionWrite` and the completions of
`async_write_some`, in the order in which the loop of the session runs them. -/

namespace TonyCat.Net

open TonyCat.Library TonyCat.Http SessionBuffer

variable {nMaxBuffSize : ℕ}

def sNameValueSeparator : Bytes := text ": "

def sCrlf : Bytes := text "\r\n"

def pieces (respond : Reply) : List Bytes :=
  Reply.toErrorHead respond.statusCode ::
    respond.headers.flatMap (fun elem => [elem.1, sNameValueSeparator, elem.2, sCrlf]) ++ [sCrlf, respond.content]

/-- The region that `async_write_some` is given, with the bytes that it held then. -/
structure Offer where
  offset : ℕ
  bytes : Bytes

structure WriteSession (nMaxBuffSize : ℕ) where
  m_buffWrite : SessionBuffer nMaxBuffSize
  m_onWriting : Bool
  /-- the writes of the socket that have not completed -/
  inFlight : List Offer
  appended : Bytes
  /-- what the socket has taken -/
  accepted : Bytes
  /-- a write has completed with an error -/
  failed : Bool

inductive WriteEvent
  | packet (msgType : UInt32) (packetHead packetBody : PacketNode)
  | reply (respond : Reply)
  | sessionSend
  | written (write : ℕ) (length : ℕ)
  | writeError (write : ℕ)

namespace WriteSession

def init (nMaxBuffSize : ℕ) : WriteSession nMaxBuffSize := ⟨.init nMaxBuffSize, false, [], [], [], false⟩

def region (s : WriteSession nMaxBuffSize) (offer : Offer) : Bytes :=
  (s.m_buffWrite.vecData.drop offer.offset).take offer.bytes.length

def writeAppend (s : WriteSession nMaxBuffSize) (data : Bytes) : WriteSession nMaxBuffSize :=
  match s.m_buffWrite.write data with
  | some buf => { s with m_buffWrite := buf, appended := s.appended ++ data }
  | none => s

def doSessionWrite (s : WriteSession nMaxBuffSize) : WriteSession nMaxBuffSize :=
  if s.m_onWriting then
    s
  else
    { s with
      m_onWriting := true
      inFlight := s.inFlight ++ [⟨s.m_buffWrite.nReadPos, s.m_buffWrite.getReadData⟩] }

def taken (s : WriteSession nMaxBuffSize) (write : ℕ) (offer : Offer) (length : ℕ) : WriteSession nMaxBuffSize :=
  let buf := s.m_buffWrite.removeData length
  { s with
    m_buffWrite :=
      if buf.currentWritableSize < buf.capacity / NetModule.kReorganizeRate then buf.reorganizeData else buf
    m_onWriting := false
    inFlight := s.inFlight.eraseIdx write
    accepted := s.accepted ++ (s.region offer).take length }

def onWritten (s : WriteSession nMaxBuffSize) (write : ℕ) (offer : Offer) (length : ℕ) : WriteSession nMaxBuffSize :=
  let s := s.taken write offer length
  if s.m_buffWrite.getReadableSize > 0 then s.doSessionWrite else s

variable (native : Endian)

def step (s : WriteSession nMaxBuffSize) : WriteEvent → Option (WriteSession nMaxBuffSize)
  | .packet msgType packetHead packetBody =>
    match NetPbModule.writeDataOnSessionThread native s.m_buffWrite msgType packetHead packetBody with
    | some buf =>
      some (doSessionWrite { s with
        m_buffWrite := buf
        appended := s.appended ++ packetBytes msgType (payload packetHead packetBody) })
    | none => some s
  | .reply respond => some ((pieces respond).foldl writeAppend s).doSessionWrite
  | .sessionSend => some s.doSessionWrite
  | .written write length =>
    match s.inFlight[write]? with
    | some offer => if length ≤ offer.bytes.length then some (s.onWritten write offer length) else none
    | none => none
  | .writeError write =>
    match s.inFlight[write]? with
    | some _ => some { s with m_onWriting := false, inFlight := s.inFlight.eraseIdx write, failed := true }
    | none => none

end WriteSession

namespace SessionBuffer

def Kept (buf buf' : SessionBuffer nMaxBuffSize) : Prop :=
  buf'.nReadPos = buf.nReadPos ∧ buf'.vecData.length = buf.vecData.length

structure Appends (buf buf' : SessionBuffer nMaxBuffSize) (data : Bytes) : Prop where
  readable : buf'.getReadData = buf.getReadData ++ data
  kept : buf.Kept buf'

variable {buf buf' : SessionBuffer nMaxBuffSize} {data : Bytes}

lemma Kept.trans {buf'' : SessionBuffer nMaxBuffSize} (h' : buf'.Kept buf'') (h : buf.Kept buf') : buf.Kept buf'' :=
  ⟨h'.1.trans h.1, h'.2.trans h.2⟩

lemma Kept.of_store {pos : ℕ} (h : buf.store pos data = some buf') : buf.Kept buf' := by
  refine ⟨?_, vecData_length_store h⟩
  rw [store] at h
  split at h
  case isTrue =>
    cases h
    rfl
  case isFalse => cases h

lemma Kept.of_moveWritePos {len : ℕ} (h : buf.moveWritePos len = some buf') : buf.Kept buf' := by
  rw [moveWritePos] at h
  split at h
  · cases h
  · cases h
    exact ⟨rfl, rfl⟩

lemma appends_write (h : buf.write data = some buf') : buf.Appends buf' data := by
  have hfit : data.length ≤ buf.currentWritableSize := by
    by_contra hfull
    rw [write, paddingData, dif_pos (not_le.mp hfull)] at h
    cases h
  obtain ⟨buf'', hw, hlen, hread, -⟩ := exists_write buf data hfit
  cases Option.some.inj (hw.symm.trans h)
  exact ⟨getReadData_write h, hread, hlen⟩

lemma appends_writeDataOnSessionThread {native : Endian} {msgType : UInt32} {packetHead packetBody : PacketNode}
    (h : NetPbModule.writeDataOnSessionThread native buf msgType packetHead packetBody = some buf') :
    buf.Appends buf' (packetBytes msgType (payload packetHead packetBody)) := by
  obtain ⟨-, -, b₁, b₂, b₃, b₄, b₅, b₆, hs₁, hs₂, hs₃, hs₄, hs₅, hs₆, hmove⟩ := writeDataOnSessionThread_stores h
  have hstored : buf.Kept b₆ := (Kept.of_store hs₆).trans <| (Kept.of_store hs₅).trans <|
    (Kept.of_store hs₄).trans <| (Kept.of_store hs₃).trans <| (Kept.of_store hs₂).trans (Kept.of_store hs₁)
  exact ⟨(getReadData_writeDataOnSessionThread h).2, (Kept.of_moveWritePos hmove).trans hstored⟩

lemma region_eq {bytes : Bytes} (h : bytes <+: buf.getReadData) :
    (buf.vecData.drop buf.nReadPos).take bytes.length = bytes := by
  have hlen := h.length_le
  rw [getReadData_length, getReadableSize] at hlen
  rw [getReadData, List.drop_take] at h
  have htake := List.prefix_iff_eq_take.mp h
  rw [List.take_take, min_eq_left hlen] at htake
  exact htake.symm

end SessionBuffer

namespace WriteSession

variable {s t : WriteSession nMaxBuffSize} {native : Endian}

def Held (s : WriteSession nMaxBuffSize) : Prop :=
  if s.m_onWriting then
    ∃ offer, s.inFlight = [offer] ∧ offer.offset = s.m_buffWrite.nReadPos ∧
      offer.bytes <+: s.m_buffWrite.getReadData
  else
    s.inFlight = []

structure Invariant (s : WriteSession nMaxBuffSize) : Prop where
  bytes : s.appended = s.accepted ++ s.m_buffWrite.getReadData
  size : s.m_buffWrite.vecData.length = nMaxBuffSize / kInitBufferSizeDivNumber
  held : s.Held

def Awake (s : WriteSession nMaxBuffSize) : Prop :=
  s.failed = false → s.m_buffWrite.getReadableSize > 0 → s.m_onWriting = true

lemma Held.offer (h : s.Held) {write : ℕ} {offer : Offer} (hwrite : s.inFlight[write]? = some offer) :
    write = 0 ∧ s.inFlight = [offer] ∧ offer.offset = s.m_buffWrite.nReadPos ∧
      offer.bytes <+: s.m_buffWrite.getReadData := by
  rw [Held] at h
  split at h
  · obtain ⟨offer', hone, hoffset, hbytes⟩ := h
    rw [hone] at hwrite
    obtain rfl : write = 0 := by
      have hlt := (List.getElem?_eq_some_iff.mp hwrite).1
      simpa using hlt
    cases hwrite
    exact ⟨rfl, hone, hoffset, hbytes⟩
  · rw [h] at hwrite
    cases hwrite

lemma Invariant.appends (hs : s.Invariant) {buf : SessionBuffer nMaxBuffSize} {data : Bytes}
    (h : s.m_buffWrite.Appends buf data) :
    Invariant { s with m_buffWrite := buf, appended := s.appended ++ data } := by
  refine ⟨?_, h.kept.2.trans hs.size, ?_⟩
  · dsimp only
    rw [hs.bytes, h.readable, List.append_assoc]
  · have hheld := hs.held
    rw [Held] at hheld
    split at hheld
    case isTrue hbusy =>
      obtain ⟨offer, hone, hoffset, hbytes⟩ := hheld
      refine (if_pos hbusy).mpr ⟨offer, hone, hoffset.trans h.kept.1.symm, ?_⟩
      rw [h.readable]
      exact hbytes.trans (List.prefix_append _ _)
    case isFalse hidle => exact (if_neg hidle).mpr hheld

lemma Invariant.writeAppend (hs : s.Invariant) (data : Bytes) : (s.writeAppend data).Invariant := by
  rw [WriteSession.writeAppend]
  split
  case h_1 buf hbuf => exact hs.appends (appends_write hbuf)
  case h_2 => exact hs

lemma Invariant.foldl_writeAppend (hs : s.Invariant) (pieces : List Bytes) :
    (pieces.foldl WriteSession.writeAppend s).Invariant := by
  induction pieces generalizing s with
  | nil => exact hs
  | cons data pieces ih => exact ih (hs.writeAppend data)

lemma Invariant.doSessionWrite (hs : s.Invariant) : s.doSessionWrite.Invariant := by
  rw [WriteSession.doSessionWrite]
  split
  · exact hs
  case isFalse hidle =>
    refine ⟨hs.bytes, hs.size, ?_⟩
    have hheld := hs.held
    rw [Held, if_neg hidle] at hheld
    rw [Held, if_pos rfl, hheld]
    exact ⟨_, rfl, rfl, List.prefix_rfl⟩

@[simp] lemma m_onWriting_doSessionWrite : s.doSessionWrite.m_onWriting = true := by
  rw [doSessionWrite]
  split
  case isTrue h => exact h
  case isFalse => rfl

lemma awake_doSessionWrite : s.doSessionWrite.Awake := fun _ _ => m_onWriting_doSessionWrite

lemma region_of_held {offer : Offer} (hoffset : offer.offset = s.m_buffWrite.nReadPos)
    (hbytes : offer.bytes <+: s.m_buffWrite.getReadData) : s.region offer = offer.bytes := by
  rw [WriteSession.region, hoffset]
  exact region_eq hbytes

lemma Invariant.taken (hs : s.Invariant) {write : ℕ} {offer : Offer} {length : ℕ}
    (hwrite : s.inFlight[write]? = some offer) (hlength : length ≤ offer.bytes.length) :
    (s.taken write offer length).Invariant := by
  obtain ⟨rfl, hone, hoffset, hbytes⟩ := hs.held.offer hwrite
  have htaken : (s.region offer).take length = s.m_buffWrite.getReadData.take length := by
    rw [region_of_held hoffset hbytes, List.prefix_iff_eq_take.mp hbytes, List.take_take, min_eq_left hlength]
  have hbuf : (s.taken 0 offer length).m_buffWrite.getReadData = s.m_buffWrite.getReadData.drop length ∧
      (s.taken 0 offer length).m_buffWrite.vecData.length = s.m_buffWrite.vecData.length := by
    simp only [WriteSession.taken]
    split
    · rw [getReadData_reorganizeData, getReadData_removeData, vecData_length_reorganizeData,
        vecData_length_removeData]
      exact ⟨rfl, rfl⟩
    · rw [getReadData_removeData, vecData_length_removeData]
      exact ⟨rfl, rfl⟩
  refine ⟨?_, hbuf.2.trans hs.size, ?_⟩
  · change s.appended = s.accepted ++ (s.region offer).take length ++ _
    rw [hs.bytes, htaken, hbuf.1, List.append_assoc, List.take_append_drop]
  · change s.inFlight.eraseIdx 0 = []
    rw [hone]
    rfl

lemma Invariant.onWritten (hs : s.Invariant) {write : ℕ} {offer : Offer} {length : ℕ}
    (hwrite : s.inFlight[write]? = some offer) (hlength : length ≤ offer.bytes.length) :
    (s.onWritten write offer length).Invariant ∧ (s.onWritten write offer length).Awake := by
  have hs' := hs.taken hwrite hlength
  rw [WriteSession.onWritten]
  split
  · exact ⟨hs'.doSessionWrite, awake_doSessionWrite⟩
  case isFalse hempty => exact ⟨hs', fun _ hunsent => absurd hunsent hempty⟩

theorem Invariant.step (hs : s.Invariant) (hawake : s.Awake) {event : WriteEvent}
    (h : WriteSession.step native s event = some t) : t.Invariant ∧ t.Awake := by
  cases event with
  | packet msgType packetHead packetBody =>
    simp only [WriteSession.step] at h
    split at h
    case h_1 buf hbuf =>
      cases h
      exact ⟨(hs.appends (appends_writeDataOnSessionThread hbuf)).doSessionWrite, awake_doSessionWrite⟩
    case h_2 =>
      cases h
      exact ⟨hs, hawake⟩
  | reply respond =>
    cases h
    exact ⟨(hs.foldl_writeAppend (pieces respond)).doSessionWrite, awake_doSessionWrite⟩
  | sessionSend =>
    cases h
    exact ⟨hs.doSessionWrite, awake_doSessionWrite⟩
  | written write length =>
    simp only [WriteSession.step] at h
    split at h
    case h_1 offer hwrite =>
      split at h
      case isTrue hlength =>
        cases h
        exact hs.onWritten hwrite hlength
      case isFalse => cases h
    case h_2 => cases h
  | writeError write =>
    simp only [WriteSession.step] at h
    split at h
    case h_1 offer hwrite =>
      cases h
      obtain ⟨rfl, hone, -, -⟩ := hs.held.offer hwrite
      refine ⟨⟨hs.bytes, hs.size, ?_⟩, fun hok => ?_⟩
      · change s.inFlight.eraseIdx 0 = []
        rw [hone]
        rfl
      · cases hok
    case h_2 => cases h

lemma invariant_init : (init nMaxBuffSize).Invariant ∧ (init nMaxBuffSize).Awake := by
  refine ⟨⟨rfl, ?_, rfl⟩, fun _ hunsent => absurd hunsent (Nat.lt_irrefl 0)⟩
  exact List.length_replicate

lemma invariant_of_run {events : List WriteEvent}
    (h : run (WriteSession.step native) (init nMaxBuffSize) events = some s) : s.Invariant ∧ s.Awake := by
  have hkeeps : ∀ {s t : WriteSession nMaxBuffSize} {event : WriteEvent}, s.Invariant ∧ s.Awake →
      WriteSession.step native s event = some t → t.Invariant ∧ t.Awake :=
    fun hs hstep => hs.1.step hs.2 hstep
  exact run_keeps hkeeps invariant_init h

theorem write_pump {events : List WriteEvent}
    (h : run (WriteSession.step native) (init nMaxBuffSize) events = some s) :
    s.accepted <+: s.appended ∧ s.inFlight.length ≤ 1 ∧
      (∀ offer ∈ s.inFlight, s.region offer = offer.bytes ∧ offer.offset = s.m_buffWrite.nReadPos ∧
        s.accepted ++ offer.bytes <+: s.appended) ∧
      s.m_buffWrite.vecData.length = nMaxBuffSize / kInitBufferSizeDivNumber ∧
      (s.failed = false → s.m_buffWrite.getReadableSize > 0 → s.inFlight ≠ []) := by
  obtain ⟨hs, hawake⟩ := invariant_of_run h
  have hheld := hs.held
  rw [Held] at hheld
  refine ⟨⟨_, hs.bytes.symm⟩, ?_, ?_, hs.size, ?_⟩
  · split at hheld
    · obtain ⟨offer, hone, -, -⟩ := hheld
      rw [hone]
      exact le_rfl
    · rw [hheld]
      exact Nat.zero_le 1
  · intro offer hoffer
    obtain ⟨write, hwrite⟩ := List.mem_iff_getElem?.mp hoffer
    obtain ⟨-, -, hoffset, hbytes⟩ := hs.held.offer hwrite
    refine ⟨region_of_held hoffset hbytes, hoffset, ?_⟩
    rw [hs.bytes]
    exact (List.prefix_append_right_inj _).mpr hbytes
  · intro hok hunsent
    rw [if_pos (hawake hok hunsent)] at hheld
    obtain ⟨offer, hone, -, -⟩ := hheld
    rw [hone]
    exact List.cons_ne_nil _ _

def partialWrites : List WriteEvent :=
  [.sessionSend, .reply ⟨.ok, [], [1, 2]⟩, .written 0 0, .written 0 5]

theorem write_pump_partialWrites :
    ∃ s, run (WriteSession.step .little) (init 1024) partialWrites = some s ∧ s.accepted = text "HTTP/" ∧
      s.accepted <+: s.appended ∧ s.inFlight ≠ [] := by
  have h : (run (WriteSession.step .little) (init 1024) partialWrites).map
      (fun s => (s.accepted, s.failed, s.m_buffWrite.getReadableSize)) = some (text "HTTP/", false, 16) := by
    decide +kernel
  obtain ⟨s, hs, hend⟩ := Option.map_eq_some_iff.mp h
  obtain ⟨haccepted, hok, hunsent⟩ := by simpa only [Prod.mk.injEq] using hend
  obtain ⟨hbytes, -, -, -, hawake⟩ := write_pump hs
  exact ⟨s, hs, haccepted, hbytes, hawake hok (by rw [hunsent]; exact Nat.succ_pos 15)⟩

end WriteSession

end TonyCat.Net
