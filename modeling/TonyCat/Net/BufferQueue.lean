import TonyCat.Library.Fifo
import TonyCat.Net.SessionBuffer

set_option autoImplicit false

/-! The calls of `SessionBuffer` in any order, and the byte queue that they work on. -/

namespace TonyCat.Net

open TonyCat.Library SessionBuffer

variable {nMaxBuffSize : ℕ}

/-- A call together with what its caller writes through `GetWriteData`. -/
inductive BufferCall
  | write (data : Bytes)
  | paddingData (filled : Bytes) (len : ℕ)
  | moveWritePos (data : Bytes)
  | removeData (len : ℕ)
  | reorganizeData
  | shrink
  | shrinkByLength (len : ℕ)

namespace BufferCall

/-- The buffer and the returned flag; no result where the caller fills outside the vector or passes over bytes
that it has not filled, and where the loop of `ShrinkByLength` does not end. -/
def exec (buf : SessionBuffer nMaxBuffSize) : BufferCall → Option (SessionBuffer nMaxBuffSize × Bool)
  | .write data =>
    match buf.write data with
    | some buf' => some (buf', true)
    | none => some (buf, false)
  | .paddingData filled len =>
    match buf.store buf.nWritePos filled with
    | none => none
    | some buf₁ =>
      match buf₁.paddingData len with
      | some buf' => if len ≤ filled.length then some (buf', true) else none
      | none => some (buf₁, false)
  | .moveWritePos data =>
    match buf.getWriteData data.length with
    | none => some (buf, false)
    | some pData =>
      match buf.store pData data with
      | none => none
      | some buf₁ =>
        match buf₁.moveWritePos data.length with
        | some buf' => some (buf', true)
        | none => some (buf₁, false)
  | .removeData len => some (buf.removeData len, true)
  | .reorganizeData => some (buf.reorganizeData, true)
  | .shrink =>
    match buf.shrink with
    | some buf' => some (buf', true)
    | none => some (buf, false)
  | .shrinkByLength len => (buf.shrinkByLength len).map fun buf' => (buf', true)

def effect : BufferCall → FifoCall UInt8
  | .write data => .enqueue data
  | .paddingData filled len => .enqueue (filled.take len)
  | .moveWritePos data => .enqueue data
  | .removeData len => .dequeue len
  | .reorganizeData | .shrink | .shrinkByLength _ => .keep

def step (buf : SessionBuffer nMaxBuffSize) (call : BufferCall) :
    Option (SessionBuffer nMaxBuffSize × FifoCall UInt8) :=
  (call.exec buf).map fun r => (r.1, if r.2 then call.effect else .keep)

variable {buf buf' : SessionBuffer nMaxBuffSize} {call : BufferCall}

lemma exec_moveWritePos {data : Bytes} {pData : ℕ} {buf₁ : SessionBuffer nMaxBuffSize}
    (hget : buf.getWriteData data.length = some pData) (hstore : buf.store pData data = some buf₁) :
    pData = buf.nWritePos ∧ ∃ buf', buf₁.moveWritePos data.length = some buf' ∧
      buf₁.paddingData data.length = some buf' := by
  rw [getWriteData] at hget
  split at hget
  case isTrue => cases hget
  case isFalse hroom =>
    cases hget
    have hfit : buf.nWritePos + data.length ≤ buf.vecData.length := by
      have := buf.write_le
      rw [currentWritableSize] at hroom
      omega
    obtain ⟨buf₂, hs, hlen, -, hpos⟩ := exists_store buf buf.nWritePos data hfit
    cases Option.some.inj (hs.symm.trans hstore)
    refine ⟨rfl, _, dif_neg (by omega), dif_neg ?_⟩
    rw [currentWritableSize]
    omega

structure Outcome (buf : SessionBuffer nMaxBuffSize) (call : BufferCall) (buf' : SessionBuffer nMaxBuffSize)
    (ok : Bool) : Prop where
  readable : buf'.getReadData = (if ok then call.effect else .keep).on buf.getReadData
  unchanged : ok = false →
    buf' = buf ∨ ∃ filled len, call = .paddingData filled len ∧ buf.store buf.nWritePos filled = some buf'
  size : buf.vecData.length ≤ buf'.vecData.length ∨ buf'.vecData.length = nMaxBuffSize / kInitBufferSizeDivNumber

lemma Outcome.refused : Outcome buf call buf false := ⟨rfl, fun _ => .inl rfl, .inl le_rfl⟩

lemma outcome_of_exec {ok : Bool} (h : call.exec buf = some (buf', ok)) : Outcome buf call buf' ok := by
  cases call with
  | write data =>
    rw [exec] at h
    split at h
    case h_1 b hwrite =>
      cases h
      exact ⟨getReadData_write hwrite, nofun, .inl (vecData_length_write hwrite).ge⟩
    case h_2 =>
      cases h
      exact .refused
  | paddingData filled len =>
    rw [exec] at h
    split at h
    case h_1 => cases h
    case h_2 buf₁ hstore =>
      split at h
      case h_1 b hpad =>
        obtain ⟨hlen, hb⟩ := Option.ite_none_right_eq_some.mp h
        cases hb
        have hsize := (vecData_length_paddingData hpad).trans (vecData_length_store hstore)
        exact ⟨getReadData_store_paddingData hstore hpad hlen, nofun, .inl hsize.ge⟩
      case h_2 =>
        cases h
        exact ⟨getReadData_store le_rfl hstore, fun _ => .inr ⟨filled, len, rfl, hstore⟩,
          .inl (vecData_length_store hstore).ge⟩
  | moveWritePos data =>
    rw [exec] at h
    split at h
    case h_1 =>
      cases h
      exact .refused
    case h_2 pData hget =>
      split at h
      case h_1 => cases h
      case h_2 buf₁ hstore =>
        obtain ⟨rfl, b, hmove, hpad⟩ := exec_moveWritePos hget hstore
        rw [hmove] at h
        cases h
        have hread := getReadData_store_paddingData hstore hpad le_rfl
        have hsize := (vecData_length_paddingData hpad).trans (vecData_length_store hstore)
        rw [List.take_length] at hread
        exact ⟨hread, nofun, .inl hsize.ge⟩
  | removeData len =>
    cases h
    exact ⟨getReadData_removeData buf len, nofun, .inl (vecData_length_removeData buf len).ge⟩
  | reorganizeData =>
    cases h
    exact ⟨getReadData_reorganizeData buf, nofun, .inl (vecData_length_reorganizeData buf).ge⟩
  | shrink =>
    rw [exec] at h
    split at h
    case h_1 b hshrink =>
      cases h
      exact ⟨getReadData_shrink hshrink, nofun, .inr (vecData_length_shrink hshrink)⟩
    case h_2 =>
      cases h
      exact .refused
  | shrinkByLength len =>
    obtain ⟨b, hshrink, hb⟩ := Option.map_eq_some_iff.mp h
    cases hb
    exact ⟨getReadData_shrinkByLength hshrink, nofun, .inl (vecData_length_shrinkByLength hshrink)⟩

lemma size_pos_of_run (hmin : kInitBufferSizeDivNumber ≤ nMaxBuffSize) {calls : List BufferCall}
    {log : List (FifoCall UInt8)} (h : run (Fifo.logged step) (init nMaxBuffSize, []) calls = some (buf, log)) :
    0 < buf.vecData.length := by
  have hinit : 0 < nMaxBuffSize / kInitBufferSizeDivNumber := Nat.div_pos hmin (by decide)
  have hkeeps : ∀ {s t : SessionBuffer nMaxBuffSize × List (FifoCall UInt8)} {call : BufferCall},
      0 < s.1.vecData.length → Fifo.logged step s call = some t → 0 < t.1.vecData.length := by
    intro s t call hpos hone
    obtain ⟨r, hr, rfl⟩ := Option.map_eq_some_iff.mp hone
    obtain ⟨⟨b, ok⟩, hexec, rfl⟩ := Option.map_eq_some_iff.mp hr
    rcases (outcome_of_exec hexec).size with hle | heq
    · exact hpos.trans_le hle
    · exact heq ▸ hinit
  apply run_keeps hkeeps _ h
  simpa only [init, List.length_replicate] using hinit

theorem buffer_refines_queue (hmin : kInitBufferSizeDivNumber ≤ nMaxBuffSize) (hmax : nMaxBuffSize < 2 ^ 60)
    {calls : List BufferCall} {log : List (FifoCall UInt8)}
    (h : run (Fifo.logged step) (init nMaxBuffSize, []) calls = some (buf, log)) :
    (buf.nReadPos ≤ buf.nWritePos ∧ buf.nWritePos ≤ buf.capacity ∧ buf.capacity ≤ nMaxBuffSize) ∧
      (0 < buf.capacity ∧ buf.capacity * 4 < 2 ^ 64) ∧ buf.getReadData = (Fifo.replay log).contents ∧
      ∀ call buf', exec buf call = some (buf', false) →
        buf' = buf ∨ ∃ filled len, call = .paddingData filled len ∧ buf.store buf.nWritePos filled = some buf' := by
  have hsize : buf.capacity ≤ nMaxBuffSize := buf.size_le
  have hview : ∀ {s t : SessionBuffer nMaxBuffSize} {call : BufferCall} {c : FifoCall UInt8},
      step s call = some (t, c) → t.getReadData = c.on s.getReadData := by
    intro s t call c hone
    obtain ⟨⟨b, ok⟩, hexec, hr⟩ := Option.map_eq_some_iff.mp hone
    cases hr
    exact (outcome_of_exec hexec).readable
  refine ⟨⟨buf.read_le, buf.write_le, hsize⟩, ⟨size_pos_of_run hmin h, by omega⟩, ?_, ?_⟩
  · exact Fifo.view_of_logged hview getReadData_init h
  · exact fun call buf' hcall => (outcome_of_exec hcall).unchanged rfl

def mixedCalls : List BufferCall :=
  [.write [1, 2], .write [3], .removeData 1, .reorganizeData, .moveWritePos [4, 5, 6], .shrink,
    .paddingData [7] 1, .removeData 1]

theorem buffer_refines_queue_mixedCalls : ∃ buf : SessionBuffer 32, ∃ log,
    run (Fifo.logged step) (init 32, []) mixedCalls = some (buf, log) ∧ (Fifo.replay log).written = [1, 2, 7] ∧
      buf.getReadData = (Fifo.replay log).contents ∧ buf.getReadData = [7] := by
  have h : (run (Fifo.logged step) (init 32, []) mixedCalls).map
      (fun s => (s.1.getReadData, (Fifo.replay s.2).written)) = some ([7], [1, 2, 7]) := by
    decide +kernel
  obtain ⟨⟨buf, log⟩, hrun, hend⟩ := Option.map_eq_some_iff.mp h
  obtain ⟨hread, hwritten⟩ := Prod.mk.inj hend
  exact ⟨buf, log, hrun, hwritten, (buffer_refines_queue (by decide) (by decide) hrun).2.2.1, hread⟩

end BufferCall

end TonyCat.Net
