import Mathlib.Logic.Function.Iterate
import TonyCat.Net.PacketStream

set_option autoImplicit false

/-! The read side of a session: when the completion of a read comes to an end, with room for the next. -/

namespace TonyCat.Net

open TonyCat.Library NetPbModule NetModule SessionBuffer

variable {H : Type*} {nMaxBuffSize : ℕ}

def grow (nMaxBuffSize curSize : ℕ) : ℕ := min (curSize * 4) nMaxBuffSize

theorem shrinkSize_eq_none_iff_loops {nWritePos len curSize : ℕ} (hcur : curSize ≤ nMaxBuffSize) :
    shrinkSize nMaxBuffSize nWritePos len curSize = none ↔
      ∀ round, len > (grow nMaxBuffSize)^[round] curSize - nWritePos := by
  induction curSize using shrinkSize.induct nMaxBuffSize nWritePos len with
  | case1 curSize hlen hmin =>
    have hfixed : grow nMaxBuffSize curSize = curSize := by
      rw [grow]
      omega
    rw [shrinkSize, if_pos hlen, if_pos hmin]
    refine iff_of_true rfl fun round => ?_
    rw [Function.iterate_fixed hfixed]
    exact hlen
  | case2 curSize hlen hmin ih =>
    rw [shrinkSize, if_pos hlen, if_neg hmin, ih (min_le_right _ _)]
    constructor
    · intro h round
      cases round with
      | zero => exact hlen
      | succ round => exact h round
    · intro h round
      exact h (round + 1)
  | case3 curSize hlen =>
    rw [shrinkSize, if_neg hlen]
    refine iff_of_false (Option.some_ne_none _) fun h => ?_
    exact hlen (h 0)

lemma shrinkSize_eq_none_iff {nWritePos len curSize : ℕ} (hpos : 0 < curSize) (hcur : curSize ≤ nMaxBuffSize)
    (hwrite : nWritePos ≤ curSize) :
    shrinkSize nMaxBuffSize nWritePos len curSize = none ↔ nMaxBuffSize < nWritePos + len := by
  induction curSize using shrinkSize.induct nMaxBuffSize nWritePos len with
  | case1 curSize hlen hmin =>
    rw [shrinkSize, if_pos hlen, if_pos hmin]
    apply iff_of_true rfl
    omega
  | case2 curSize hlen hmin ih =>
    rw [shrinkSize, if_pos hlen, if_neg hmin]
    exact ih (by omega) (min_le_right _ _) (by omega)
  | case3 curSize hlen =>
    rw [shrinkSize, if_neg hlen]
    apply iff_of_false (Option.some_ne_none _)
    omega

lemma shrinkSize_room {nWritePos len curSize n : ℕ} (h : shrinkSize nMaxBuffSize nWritePos len curSize = some n) :
    len ≤ n - nWritePos := by
  induction curSize using shrinkSize.induct nMaxBuffSize nWritePos len with
  | case1 curSize hlen hmin =>
    rw [shrinkSize, if_pos hlen, if_pos hmin] at h
    cases h
  | case2 curSize hlen hmin ih =>
    rw [shrinkSize, if_pos hlen, if_neg hmin] at h
    exact ih h
  | case3 curSize hlen =>
    rw [shrinkSize, if_neg hlen] at h
    cases h
    exact not_lt.mp hlen

lemma even_shrinkSize {nWritePos len curSize n : ℕ} (hmax : 2 ∣ nMaxBuffSize) (hcur : 2 ∣ curSize)
    (h : shrinkSize nMaxBuffSize nWritePos len curSize = some n) : 2 ∣ n := by
  induction curSize using shrinkSize.induct nMaxBuffSize nWritePos len with
  | case1 curSize hlen hmin =>
    rw [shrinkSize, if_pos hlen, if_pos hmin] at h
    cases h
  | case2 curSize hlen hmin ih =>
    rw [shrinkSize, if_pos hlen, if_neg hmin] at h
    exact ih (by omega) h
  | case3 curSize hlen =>
    rw [shrinkSize, if_neg hlen] at h
    cases h
    exact hcur

namespace SessionBuffer

def Sized (buf : SessionBuffer nMaxBuffSize) : Prop := 2 ∣ buf.vecData.length ∧ 0 < buf.vecData.length

lemma sized_init : (init kDefaultMaxBufferSize).Sized := by
  rw [Sized, init, List.length_replicate]
  decide

lemma shrinkByLength_eq_none_iff {buf : SessionBuffer nMaxBuffSize} {len : ℕ} : buf.shrinkByLength len = none ↔
    shrinkSize nMaxBuffSize buf.nWritePos len buf.vecData.length = none := by
  rw [shrinkByLength]
  split
  case h_1 h => exact iff_of_true rfl h
  case h_2 curSize h =>
    apply iff_of_false (Option.some_ne_none _)
    rw [h]
    exact Option.some_ne_none _

lemma shrinkByLength_room {buf buf' : SessionBuffer nMaxBuffSize} {len : ℕ} (hmax : 2 ∣ nMaxBuffSize)
    (hsized : buf.Sized) (h : buf.shrinkByLength len = some buf') : buf'.Sized ∧ len ≤ buf'.currentWritableSize := by
  rw [shrinkByLength] at h
  split at h
  case h_1 => cases h
  case h_2 curSize hsize =>
    have hgrown := (shrinkSize_le buf.size_le hsize).1
    have hlen : buf'.vecData.length = curSize := by
      cases h
      simp only [List.length_append, List.length_replicate]
      omega
    have hpos : buf'.nWritePos = buf.nWritePos := by
      cases h
      rfl
    rw [Sized, currentWritableSize, hlen, hpos]
    exact ⟨⟨even_shrinkSize hmax hsized.1 hsize, hsized.2.trans_le hgrown⟩, shrinkSize_room hsize⟩

lemma reorganizeData_kept (buf : SessionBuffer nMaxBuffSize) :
    buf.reorganizeData.nWritePos = buf.getReadableSize ∧ buf.reorganizeData.vecData.length = buf.vecData.length := by
  refine ⟨?_, vecData_length_reorganizeData buf⟩
  rw [reorganizeData]
  split
  · rfl
  · rw [getReadableSize]
    omega

lemma exists_filled (buf : SessionBuffer nMaxBuffSize) (data : Bytes) (h : data.length ≤ buf.currentWritableSize) :
    ∃ buf₁ filled, buf.store buf.nWritePos data = some buf₁ ∧ buf₁.paddingData data.length = some filled ∧
      filled.vecData.length = buf.vecData.length ∧ filled.nReadPos = buf.nReadPos ∧
        filled.nWritePos = buf.nWritePos + data.length := by
  have hwrite := buf.write_le
  rw [currentWritableSize] at h
  obtain ⟨buf₁, hstore, hlen, hread, hpos⟩ := exists_store buf buf.nWritePos data (by omega)
  refine ⟨buf₁, _, hstore, dif_neg ?_, hlen, hread, ?_⟩
  · rw [currentWritableSize]
    omega
  · exact congrArg (· + data.length) hpos

end SessionBuffer

theorem doSessionRead_eq_none_iff_loops {buf : SessionBuffer nMaxBuffSize} {data : Bytes}
    (hdata : data.length ≤ buf.currentWritableSize) :
    ∃ buf₁ filled, buf.store buf.nWritePos data = some buf₁ ∧ buf₁.paddingData data.length = some filled ∧
      (doSessionRead buf data = none ↔ filled.currentWritableSize < filled.capacity / kReorganizeRate ∧
        ∀ round, data.length >
          (grow nMaxBuffSize)^[round] filled.reorganizeData.capacity - filled.reorganizeData.nWritePos) := by
  obtain ⟨buf₁, filled, hstore, hpadding, -⟩ := exists_filled buf data hdata
  refine ⟨buf₁, filled, hstore, hpadding, ?_⟩
  rw [doSessionRead, Option.bind_eq_bind, hstore, Option.bind_some, hpadding, Option.bind_some]
  split
  case isTrue hsmall =>
    rw [shrinkByLength_eq_none_iff, shrinkSize_eq_none_iff_loops filled.reorganizeData.size_le]
    exact (and_iff_right hsmall).symm
  case isFalse hlarge => exact iff_of_false (Option.some_ne_none _) fun h => hlarge h.1

theorem doSessionRead_spec {buf : SessionBuffer nMaxBuffSize} {data : Bytes} (hmax : 2 ∣ nMaxBuffSize)
    (hsized : buf.Sized) (hpos : 0 < data.length) (hdata : data.length ≤ buf.currentWritableSize) :
    (doSessionRead buf data = none ↔ nMaxBuffSize < buf.getReadableSize + 2 * data.length) ∧
      ∀ buf', doSessionRead buf data = some buf' → buf'.Sized ∧ 0 < buf'.currentWritableSize := by
  obtain ⟨buf₁, filled, hstore, hpadding, hlen, hread, hwrite⟩ := exists_filled buf data hdata
  have hfilled : filled.Sized := by
    rw [Sized, hlen]
    exact hsized
  have hle := buf.read_le
  have hsize := buf.size_le
  have hreadable : filled.getReadableSize = buf.getReadableSize + data.length := by
    rw [getReadableSize, getReadableSize, hread, hwrite]
    omega
  rw [doSessionRead, Option.bind_eq_bind, hstore, Option.bind_some, hpadding, Option.bind_some]
  split
  case isTrue =>
    obtain ⟨hpos', hlen'⟩ := reorganizeData_kept filled
    have hsized' : filled.reorganizeData.Sized := by
      rw [Sized, hlen']
      exact hfilled
    rw [shrinkByLength_eq_none_iff, shrinkSize_eq_none_iff hsized'.2 filled.reorganizeData.size_le
      filled.reorganizeData.write_le, hpos', hreadable]
    refine ⟨by omega, fun buf' hbuf => ?_⟩
    obtain ⟨hsized'', hroom⟩ := shrinkByLength_room hmax hsized' hbuf
    exact ⟨hsized'', hpos.trans_le hroom⟩
  case isFalse hhalf =>
    obtain ⟨⟨half, heven⟩, hbig⟩ := hfilled
    rw [currentWritableSize, capacity, kReorganizeRate, heven, hwrite] at hhalf
    refine ⟨iff_of_false (Option.some_ne_none _) ?_, ?_⟩
    · rw [getReadableSize]
      omega
    · intro buf' hbuf
      cases hbuf
      refine ⟨⟨⟨half, heven⟩, hbig⟩, ?_⟩
      rw [currentWritableSize, heven, hwrite]
      omega

variable {native : Endian} {handles : PacketHandles H} {sessionId : ℤ}

lemma vecData_length_readData (native : Endian) (handles : PacketHandles H) (sessionId : ℤ)
    (buf : SessionBuffer nMaxBuffSize) :
    (readData native handles sessionId buf).1.vecData.length = buf.vecData.length := by
  fun_induction readData native handles sessionId buf with
  | case4 buf _ _ _ packetLen _ _ _ _ call _ r ih =>
    exact ih.trans (vecData_length_removeData buf (packetLen + kHeadLen))
  | _ => rfl

/-- The completion returns, and leaves room for the next read or a session that is being closed. -/
def Completes (native : Endian) (handles : PacketHandles H) (sessionId : ℤ) (buf : SessionBuffer nMaxBuffSize)
    (data : Bytes) : Prop :=
  ∃ buf' results, handleSessionRead native handles sessionId buf (.readSome data) = some (buf', results) ∧
    (0 < buf'.currentWritableSize ∨ ∃ result ∈ results, result.2 = false)

def AfterReads (native : Endian) (handles : PacketHandles H) (sessionId : ℤ) (reads : List Bytes)
    (buf : SessionBuffer kDefaultMaxBufferSize) : Prop :=
  ∃ results, Turns (handleSessionRead native handles sessionId) (init kDefaultMaxBufferSize)
    (reads.map Arrival.readSome) buf results

/-- Each read has between one byte and all the room that there is when it is started. -/
def Delivered (native : Endian) (handles : PacketHandles H) (sessionId : ℤ) (reads : List Bytes) : Prop :=
  ∀ done data, done ++ [data] <+: reads → ∀ buf, AfterReads native handles sessionId done buf →
    0 < data.length ∧ data.length ≤ buf.currentWritableSize

/-- The bytes of a stream after its packets, or from the one that is refused on. -/
def undecoded (handles : PacketHandles H) (sessionId : ℤ) (stream : Bytes) : Bytes :=
  ((packetReader handles sessionId).drain stream).rest

lemma completes_iff {buf : SessionBuffer nMaxBuffSize} {data : Bytes} (hmax : 2 ∣ nMaxBuffSize)
    (hsized : buf.Sized) (hpos : 0 < data.length) (hdata : data.length ≤ buf.currentWritableSize) :
    Completes native handles sessionId buf data ↔ buf.getReadableSize + 2 * data.length ≤ nMaxBuffSize := by
  obtain ⟨hnone, hsome⟩ := doSessionRead_spec hmax hsized hpos hdata
  rw [← not_lt, ← hnone]
  constructor
  · rintro ⟨buf', results, h, -⟩ hloops
    rw [handleSessionRead, arrive, hloops] at h
    cases h
  · intro hreturns
    obtain ⟨filled, hfilled⟩ := Option.ne_none_iff_exists'.mp hreturns
    have hroom := currentWritableSize_le_readData native handles sessionId filled
    refine ⟨_, [(readData native handles sessionId filled).2], ?_, .inl ((hsome filled hfilled).2.trans_le hroom)⟩
    rw [handleSessionRead, arrive, hfilled]
    rfl

namespace AfterReads

variable {done : List Bytes} {data : Bytes} {buf : SessionBuffer kDefaultMaxBufferSize}

lemma nil : AfterReads native handles sessionId [] (init kDefaultMaxBufferSize) := ⟨[], turns_nil _⟩

lemma concat {filled : SessionBuffer kDefaultMaxBufferSize} (h : AfterReads native handles sessionId done buf)
    (hread : doSessionRead buf data = some filled) :
    AfterReads native handles sessionId (done ++ [data]) (readData native handles sessionId filled).1 := by
  obtain ⟨results, h⟩ := h
  refine ⟨results ++ [(readData native handles sessionId filled).2], ?_⟩
  rw [List.map_append]
  apply h.append
  apply turns_singleton
  rw [handleSessionRead, arrive, hread]
  rfl

lemma last (h : AfterReads native handles sessionId (done ++ [data]) buf) :
    ∃ before filled, AfterReads native handles sessionId done before ∧ doSessionRead before data = some filled ∧
      buf = (readData native handles sessionId filled).1 := by
  obtain ⟨results, h⟩ := h
  rw [List.map_append, Turns, feed_append] at h
  obtain ⟨⟨before, out⟩, hbefore, h⟩ := Option.bind_eq_some_iff.mp h
  obtain ⟨⟨buf', outs⟩, hlast, h⟩ := Option.map_eq_some_iff.mp h
  cases h
  obtain ⟨⟨buf'', out'⟩, hstep, h⟩ := Option.bind_eq_some_iff.mp hlast
  cases h
  obtain ⟨filled, harrive, hread⟩ := Option.map_eq_some_iff.mp hstep
  cases hread
  exact ⟨before, filled, ⟨out, hbefore⟩, harrive, rfl⟩

lemma readable (h : AfterReads native handles sessionId done buf) :
    buf.getReadableSize = (undecoded handles sessionId done.flatten).length := by
  obtain ⟨results, h⟩ := h
  have hrest := (packetReader handles sessionId).reads_eq_drain FrameReader.settled_nil done
  have hbuf := (turns_reads h).2
  rw [List.map_map, getReadData_init, show Arrival.data ∘ Arrival.readSome = id from rfl, List.map_id, hrest.2,
    List.nil_append] at hbuf
  rw [← getReadData_length, hbuf, undecoded]

lemma sized (hdone : Delivered native handles sessionId done) (h : AfterReads native handles sessionId done buf) :
    buf.Sized ∧ 0 < buf.currentWritableSize := by
  induction done using List.reverseRecOn generalizing buf with
  | nil =>
    obtain ⟨results, h⟩ := h
    cases h
    refine ⟨sized_init, ?_⟩
    rw [currentWritableSize_init]
    decide
  | append_singleton done data ih =>
    obtain ⟨before, filled, hbefore, hread, rfl⟩ := h.last
    have hinitial : Delivered native handles sessionId done :=
      fun done' data' hd => hdone done' data' (hd.trans (List.prefix_append _ _))
    obtain ⟨hsized, -⟩ := ih hinitial hbefore
    obtain ⟨hpos, hdata⟩ := hdone done data List.prefix_rfl before hbefore
    obtain ⟨hfilled, hroom⟩ := (doSessionRead_spec (by decide) hsized hpos hdata).2 filled hread
    refine ⟨?_, hroom.trans_le (currentWritableSize_le_readData native handles sessionId filled)⟩
    rw [Sized, vecData_length_readData]
    exact hfilled

end AfterReads

lemma Delivered.of_initial {done reads : List Bytes} (h : Delivered native handles sessionId reads)
    (hd : done <+: reads) : Delivered native handles sessionId done :=
  fun done' data' hd' => h done' data' (hd'.trans hd)

lemma completes_iff_fit {reads : List Bytes} (hreads : Delivered native handles sessionId reads) {done : List Bytes}
    {data : Bytes} (hd : done ++ [data] <+: reads) {buf : SessionBuffer kDefaultMaxBufferSize}
    (hbuf : AfterReads native handles sessionId done buf) : Completes native handles sessionId buf data ↔
      (undecoded handles sessionId done.flatten).length + 2 * data.length ≤ kDefaultMaxBufferSize := by
  obtain ⟨hpos, hdata⟩ := hreads done data hd buf hbuf
  obtain ⟨hsized, -⟩ := hbuf.sized (hreads.of_initial ((List.prefix_append _ _).trans hd))
  rw [← hbuf.readable]
  exact completes_iff (by decide) hsized hpos hdata

lemma exists_afterReads {reads : List Bytes} (h : ∀ done data, done ++ [data] <+: reads →
    ∀ buf, AfterReads native handles sessionId done buf → Completes native handles sessionId buf data)
    {done : List Bytes} (hd : done <+: reads) : ∃ buf, AfterReads native handles sessionId done buf := by
  induction done using List.reverseRecOn with
  | nil => exact ⟨_, AfterReads.nil⟩
  | append_singleton done data ih =>
    obtain ⟨buf, hbuf⟩ := ih ((List.prefix_append _ _).trans hd)
    obtain ⟨buf', results, hstep, -⟩ := h done data hd buf hbuf
    obtain ⟨filled, hread, -⟩ := Option.map_eq_some_iff.mp hstep
    exact ⟨_, hbuf.concat hread⟩

lemma Delivered.nil : Delivered native handles sessionId [] := by
  intro done data hd
  simp at hd

lemma delivered_singles (native : Endian) (handles : PacketHandles H) (sessionId : ℤ) (stream : Bytes) :
    Delivered native handles sessionId (stream.map fun c => [c]) := by
  induction stream using List.reverseRecOn with
  | nil => exact Delivered.nil
  | append_singleton stream c ih =>
    rw [List.map_append, List.map_singleton]
    intro done data hd buf hbuf
    obtain hlast | hbefore := List.prefix_concat_iff.mp hd
    · obtain ⟨rfl, hdata⟩ := List.append_inj' hlast rfl
      obtain rfl := List.singleton_inj.mp hdata
      exact ⟨Nat.one_pos, (hbuf.sized ih).2⟩
    · exact ih done data hbefore buf hbuf

lemma undecoded_length_le (handles : PacketHandles H) (sessionId : ℤ) (stream : Bytes) :
    (undecoded handles sessionId stream).length ≤ stream.length := by
  obtain ⟨hstream, -, -⟩ := (packetReader_decodes handles sessionId).drain_maximal stream
  have hlen := congrArg List.length hstream
  rw [List.length_append] at hlen
  rw [undecoded]
  omega

lemma undecoded_fit_of_short {reads : List Bytes} (hshort : 2 * reads.flatten.length ≤ kDefaultMaxBufferSize)
    {done : List Bytes} {data : Bytes} (hd : done ++ [data] <+: reads) :
    (undecoded handles sessionId done.flatten).length + 2 * data.length ≤ kDefaultMaxBufferSize := by
  have hundecoded := undecoded_length_le handles sessionId done.flatten
  have hlen := hd.flatten.length_le
  rw [List.flatten_append, List.flatten_singleton, List.length_append] at hlen
  omega

theorem read_pump_iff_undecoded_fit {reads : List Bytes} (hreads : Delivered native handles sessionId reads) :
    (∀ done data, done ++ [data] <+: reads → ∀ buf, AfterReads native handles sessionId done buf →
        Completes native handles sessionId buf data) ↔
      ∀ done data, done ++ [data] <+: reads →
        (undecoded handles sessionId done.flatten).length + 2 * data.length ≤ kDefaultMaxBufferSize := by
  constructor
  · intro h done data hd
    obtain ⟨buf, hbuf⟩ := exists_afterReads h ((List.prefix_append _ _).trans hd)
    exact (completes_iff_fit hreads hd hbuf).mp (h done data hd buf hbuf)
  · intro h done data hd buf hbuf
    exact (completes_iff_fit hreads hd hbuf).mpr (h done data hd)

theorem read_pump_three_bytes : ∃ buf, AfterReads .little ⟨fun _ => some (), none⟩ 0 [[1], [2]] buf ∧
    Completes .little ⟨fun _ => some (), none⟩ 0 buf [3] := by
  have hcompletes := (read_pump_iff_undecoded_fit (delivered_singles .little ⟨fun _ => some (), none⟩ 0 [1, 2, 3])).mpr
    fun done data hd => undecoded_fit_of_short (by decide) hd
  obtain ⟨buf, hbuf⟩ := exists_afterReads hcompletes (List.prefix_append [[1], [2]] [[3]])
  exact ⟨buf, hbuf, hcompletes _ [3] List.prefix_rfl buf hbuf⟩

def announcement : Bytes := [0, 0, 0, 0, 255, 255, 255, 255]

def flood : Bytes := announcement ++ List.replicate (kDefaultMaxBufferSize - 8) 0

lemma undecoded_announcement {rest : Bytes} (h : rest.length < 0xffffffff) :
    undecoded handles sessionId (announcement ++ rest) = announcement ++ rest := by
  have hmore : (packetReader handles sessionId).front (announcement ++ rest) = .more := by
    apply if_pos
    right
    change _ < 0xffffffff + kHeadLen
    rw [List.length_append, kHeadLen]
    change 8 + rest.length < _
    omega
  rw [undecoded, FrameReader.drain_of_more hmore]

lemma not_completes_of_undecoded {stream : Bytes} {c : UInt8}
    (h : kDefaultMaxBufferSize < (undecoded handles sessionId stream).length + 2) :
    ¬ ∀ done data, done ++ [data] <+: (stream ++ [c]).map (fun c => [c]) →
      ∀ buf, AfterReads native handles sessionId done buf → Completes native handles sessionId buf data := by
  intro hcompletes
  have hreads := delivered_singles native handles sessionId (stream ++ [c])
  have hd : stream.map (fun c => [c]) ++ [[c]] <+: (stream ++ [c]).map fun c => [c] := by
    rw [List.map_append]
    exact List.prefix_rfl
  obtain ⟨buf, hbuf⟩ := exists_afterReads hcompletes ((List.prefix_append _ _).trans hd)
  have hfit := (completes_iff_fit hreads hd hbuf).mp (hcompletes _ _ hd buf hbuf)
  rw [← List.flatMap_def, List.flatMap_singleton'] at hfit
  exact absurd hfit (not_le.mpr h)

theorem flood_never_returns :
    Delivered .little ⟨fun _ => some (), none⟩ 0 (flood.map fun c => [c]) ∧
      ¬ ∀ done data, done ++ [data] <+: flood.map (fun c => [c]) →
        ∀ buf, AfterReads .little ⟨fun _ => some (), none⟩ 0 done buf →
          Completes .little ⟨fun _ => some (), none⟩ 0 buf data := by
  refine ⟨delivered_singles _ _ _ flood, ?_⟩
  have hlast : flood = (announcement ++ List.replicate (kDefaultMaxBufferSize - 9) 0) ++ [0] := by
    rw [flood, List.append_assoc, ← List.replicate_succ']
    rfl
  rw [hlast]
  apply not_completes_of_undecoded
  rw [undecoded_announcement, List.length_append, List.length_replicate]
  · decide
  · rw [List.length_replicate]
    decide

/-- The completions return and have dispatched as many packets of what has come in as there are at its
front; these are no longer in the buffer, and after a refusal nothing is dispatched. -/
def DispatchesMaximal (native : Endian) (handles : PacketHandles H) (sessionId : ℤ) (reads : List Bytes) : Prop :=
  ∃ buf results, Turns (handleSessionRead native handles sessionId) (init kDefaultMaxBufferSize)
      (reads.map Arrival.readSome) buf results ∧
    MaximalPrefix handles sessionId reads.flatten (results.flatMap Prod.fst) buf.getReadData ∧
    ∀ before r after, results = before ++ r :: after → r.2 = false → ∀ r' ∈ after, r'.1 = [] ∧ r'.2 = false

lemma dispatchesMaximal_iff {reads : List Bytes} :
    DispatchesMaximal native handles sessionId reads ↔ ∃ buf, AfterReads native handles sessionId reads buf := by
  constructor
  · rintro ⟨buf, results, hturns, -⟩
    exact ⟨buf, results, hturns⟩
  · rintro ⟨buf, results, hturns⟩
    obtain ⟨hmaximal, hrefused⟩ := turns_maximalPrefix hturns
    rw [List.flatMap_map, show (fun data => (Arrival.readSome data).data) = id from rfl, List.flatMap_id] at hmaximal
    exact ⟨buf, results, hturns, hmaximal, hrefused⟩

lemma completes_of_afterReads {reads : List Bytes} (hreads : Delivered native handles sessionId reads)
    (h : ∀ done, done <+: reads → ∃ buf, AfterReads native handles sessionId done buf) {done : List Bytes}
    {data : Bytes} (hd : done ++ [data] <+: reads) {buf : SessionBuffer kDefaultMaxBufferSize}
    (hbuf : AfterReads native handles sessionId done buf) : Completes native handles sessionId buf data := by
  obtain ⟨after, hafter⟩ := h _ hd
  obtain ⟨before, filled, hbefore, hread, -⟩ := hafter.last
  obtain rfl : before = buf := by
    obtain ⟨results, hresults⟩ := hbefore
    obtain ⟨results', hresults'⟩ := hbuf
    rw [Turns, hresults'] at hresults
    cases hresults
    rfl
  obtain ⟨hpos, hdata⟩ := hreads done data hd before hbuf
  obtain ⟨hsized, -⟩ := hbuf.sized (hreads.of_initial ((List.prefix_append _ _).trans hd))
  have hroom := ((doSessionRead_spec (by decide) hsized hpos hdata).2 filled hread).2
  refine ⟨_, [(readData native handles sessionId filled).2], ?_,
    Or.inl (hroom.trans_le (currentWritableSize_le_readData native handles sessionId filled))⟩
  rw [handleSessionRead, arrive, hread]
  rfl

theorem dispatches_maximal_iff_fit :
    (∀ stream, ∃! r : List (Call H) × Bytes, MaximalPrefix handles sessionId stream r.1 r.2) ∧
      ∀ reads, Delivered native handles sessionId reads →
        ((∀ done, done <+: reads → DispatchesMaximal native handles sessionId done) ↔
          ∀ done data, done ++ [data] <+: reads →
            (undecoded handles sessionId done.flatten).length + 2 * data.length ≤ kDefaultMaxBufferSize) := by
  refine ⟨fun stream => ?_, fun reads hreads => ?_⟩
  · refine ⟨(_, _), maximalPrefix_iff.mpr ⟨rfl, rfl⟩, ?_⟩
    rintro ⟨calls, rest⟩ hmaximal
    obtain ⟨rfl, rfl⟩ := maximalPrefix_iff.mp hmaximal
    rfl
  · constructor
    · intro h done data hd
      have hafter := fun done hd => dispatchesMaximal_iff.mp (h done hd)
      obtain ⟨buf, hbuf⟩ := hafter done ((List.prefix_append _ _).trans hd)
      exact (completes_iff_fit hreads hd hbuf).mp (completes_of_afterReads hreads hafter hd hbuf)
    · intro h done hd
      have hcompletes : ∀ done data, done ++ [data] <+: reads → ∀ buf, AfterReads native handles sessionId done buf →
          Completes native handles sessionId buf data :=
        fun done data hd buf hbuf => (completes_iff_fit hreads hd hbuf).mpr (h done data hd)
      exact dispatchesMaximal_iff.mpr (exists_afterReads hcompletes hd)

theorem hello_dispatched :
    DispatchesMaximal .little ⟨fun _ => some (), none⟩ 0 ((packetBytes 7 [1, 2, 3]).map fun c => [c]) := by
  have hreads := delivered_singles .little ⟨fun _ => some (), none⟩ 0 (packetBytes 7 [1, 2, 3])
  refine (dispatches_maximal_iff_fit.2 _ hreads).mpr (fun done data hd => undecoded_fit_of_short ?_ hd) _ List.prefix_rfl
  rw [← List.flatMap_def, List.flatMap_singleton']
  decide

lemma undecoded_part {call : Call H} (hcall : call.Valid handles sessionId) {done rest : Bytes}
    (hparts : done ++ rest = call.packetBytes) (hrest : rest ≠ []) : undecoded handles sessionId done = done := by
  have hmore : (packetReader handles sessionId).front done = .more := by
    by_contra hfront
    have hwhole := packetFront_append rest hfront
    rw [hparts, ← List.append_nil call.packetBytes, packetFront_complete [] hcall] at hwhole
    obtain ⟨-, hn, hdone⟩ := packetFront_sound hwhole.symm
    have hlen := congrArg List.length hdone
    rw [List.length_append] at hlen
    have hparts := congrArg List.length hparts
    rw [List.length_append] at hparts
    have hpos := List.length_pos_iff.mpr hrest
    omega
  rw [undecoded, FrameReader.drain_of_more hmore]

lemma not_dispatchesMaximal_large {call : Call H} (hcall : call.Valid handles sessionId)
    (hlarge : kDefaultMaxBufferSize ≤ call.data.length) :
    ¬ ∀ done, done <+: call.packetBytes.map (fun c => [c]) → DispatchesMaximal native handles sessionId done := by
  intro h
  have hlen := packetBytes_length call
  have hbelow : kDefaultMaxBufferSize - 1 < call.packetBytes.length := by
    rw [hlen, kHeadLen]
    omega
  have hparts := List.take_append_drop (kDefaultMaxBufferSize - 1) call.packetBytes
  have hdrop := List.drop_eq_getElem_cons hbelow
  have hreads := delivered_singles native handles sessionId call.packetBytes
  have hd : (call.packetBytes.take (kDefaultMaxBufferSize - 1)).map (fun c => [c]) ++
      [[call.packetBytes[kDefaultMaxBufferSize - 1]]] <+: call.packetBytes.map fun c => [c] := by
    refine ⟨(call.packetBytes.drop (kDefaultMaxBufferSize - 1 + 1)).map (fun c => [c]), ?_⟩
    conv_rhs => rw [← hparts, hdrop, List.map_append, List.map_cons]
    rw [List.append_assoc, List.singleton_append]
  have hafter := fun done hd => dispatchesMaximal_iff.mp (h done hd)
  obtain ⟨buf, hbuf⟩ := hafter _ ((List.prefix_append _ _).trans hd)
  have hfit := (completes_iff_fit hreads hd hbuf).mp (completes_of_afterReads hreads hafter hd hbuf)
  rw [← List.flatMap_def, List.flatMap_singleton', undecoded_part hcall hparts (by rw [hdrop]; exact List.cons_ne_nil _ _),
    List.length_take, List.length_singleton] at hfit
  omega

def largePacket : Call Unit := ⟨(), 0, 7, List.replicate kDefaultMaxBufferSize 0⟩

theorem large_packet_not_dispatched :
    largePacket.Valid ⟨fun _ => some (), none⟩ 0 ∧
      Delivered .little ⟨fun _ => some (), none⟩ 0 (largePacket.packetBytes.map fun c => [c]) ∧
      ¬ ∀ done, done <+: largePacket.packetBytes.map (fun c => [c]) →
        DispatchesMaximal .little ⟨fun _ => some (), none⟩ 0 done := by
  have hlen : largePacket.data.length = kDefaultMaxBufferSize := List.length_replicate
  have hvalid : largePacket.Valid ⟨fun _ => some (), none⟩ 0 := by
    refine ⟨rfl, ?_⟩
    rw [hlen]
    decide
  exact ⟨hvalid, delivered_singles _ _ _ _, not_dispatchesMaximal_large hvalid hlen.ge⟩

end TonyCat.Net
