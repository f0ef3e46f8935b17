import TonyCat.Library.ByteOrder

set_option autoImplicit false

/-! `SessionBuffer` of `net_buffer.cpp`: a vector with a read and a write position. -/

namespace TonyCat.Net

open TonyCat.Library

structure SessionBuffer (nMaxBuffSize : ℕ) where
  vecData : Bytes
  nReadPos : ℕ
  nWritePos : ℕ
  read_le : nReadPos ≤ nWritePos
  write_le : nWritePos ≤ vecData.length
  size_le : vecData.length ≤ nMaxBuffSize

namespace SessionBuffer

def kInitBufferSizeDivNumber : ℕ := 16

def kDefaultMaxBufferSize : ℕ := 8 * 1024 * 4096

variable {nMaxBuffSize : ℕ}

def init (nMaxBuffSize : ℕ) : SessionBuffer nMaxBuffSize where
  vecData := List.replicate (nMaxBuffSize / kInitBufferSizeDivNumber) 0
  nReadPos := 0
  nWritePos := 0
  read_le := le_rfl
  write_le := Nat.zero_le _
  size_le := by
    rw [List.length_replicate]
    exact Nat.div_le_self _ _

def empty (buf : SessionBuffer nMaxBuffSize) : Bool := buf.nReadPos = buf.nWritePos

def getReadableSize (buf : SessionBuffer nMaxBuffSize) : ℕ := buf.nWritePos - buf.nReadPos

def getReadData (buf : SessionBuffer nMaxBuffSize) : Bytes := (buf.vecData.take buf.nWritePos).drop buf.nReadPos

def capacity (buf : SessionBuffer nMaxBuffSize) : ℕ := buf.vecData.length

def currentWritableSize (buf : SessionBuffer nMaxBuffSize) : ℕ := buf.vecData.length - buf.nWritePos

def maxWritableSize (buf : SessionBuffer nMaxBuffSize) : ℕ := nMaxBuffSize - buf.getReadableSize

/-- A length beyond the readable bytes is clamped, as a release build does. -/
def removeData (buf : SessionBuffer nMaxBuffSize) (len : ℕ) : SessionBuffer nMaxBuffSize :=
  let len := min len buf.getReadableSize
  if buf.nReadPos + len = buf.nWritePos then
    { buf with nReadPos := 0, nWritePos := 0, read_le := le_rfl, write_le := Nat.zero_le _ }
  else
    { buf with
      nReadPos := buf.nReadPos + len
      read_le := by
        have := buf.read_le
        simp only [len, getReadableSize]
        omega }

def paddingData (buf : SessionBuffer nMaxBuffSize) (len : ℕ) : Option (SessionBuffer nMaxBuffSize) :=
  if h : len > buf.currentWritableSize then
    none
  else
    some { buf with
      nWritePos := buf.nWritePos + len
      read_le := Nat.le_add_right_of_le buf.read_le
      write_le := by
        have := buf.write_le
        rw [currentWritableSize] at h
        omega }

def getWriteData (buf : SessionBuffer nMaxBuffSize) (len : ℕ) : Option ℕ :=
  if len > buf.currentWritableSize then none else some buf.nWritePos

def moveWritePos (buf : SessionBuffer nMaxBuffSize) (len : ℕ) : Option (SessionBuffer nMaxBuffSize) :=
  if h : buf.nWritePos + len > buf.vecData.length then
    none
  else
    some { buf with
      nWritePos := buf.nWritePos + len
      read_le := Nat.le_add_right_of_le buf.read_le
      write_le := Nat.le_of_not_lt h }

/-- A store of `data` at an offset; outside the vector it has no result. -/
def store (buf : SessionBuffer nMaxBuffSize) (pos : ℕ) (data : Bytes) : Option (SessionBuffer nMaxBuffSize) :=
  if h : pos + data.length ≤ buf.vecData.length then
    have hlen : (buf.vecData.take pos ++ data ++ buf.vecData.drop (pos + data.length)).length =
        buf.vecData.length := by
      simp only [List.length_append, List.length_take, List.length_drop]
      omega
    some { buf with
      vecData := buf.vecData.take pos ++ data ++ buf.vecData.drop (pos + data.length)
      write_le := hlen ▸ buf.write_le
      size_le := hlen ▸ buf.size_le }
  else
    none

def write (buf : SessionBuffer nMaxBuffSize) (data : Bytes) : Option (SessionBuffer nMaxBuffSize) := do
  let buf ← buf.paddingData data.length
  buf.store (buf.nWritePos - data.length) data

def reorganizeData (buf : SessionBuffer nMaxBuffSize) : SessionBuffer nMaxBuffSize :=
  if buf.nReadPos > 0 then
    have hlen : (buf.getReadData ++ buf.vecData.drop buf.getReadableSize).length = buf.vecData.length := by
      have := buf.read_le
      have := buf.write_le
      simp only [getReadData, getReadableSize, List.length_append, List.length_take, List.length_drop]
      omega
    { vecData := buf.getReadData ++ buf.vecData.drop buf.getReadableSize
      nReadPos := 0
      nWritePos := buf.nWritePos - buf.nReadPos
      read_le := Nat.zero_le _
      write_le := hlen ▸ (Nat.sub_le _ _).trans buf.write_le
      size_le := hlen ▸ buf.size_le }
  else
    buf

/-- The loop of `ShrinkByLength`. When the size stays the same the loop goes on for ever. -/
def shrinkSize (nMaxBuffSize nWritePos len curSize : ℕ) : Option ℕ :=
  if len > curSize - nWritePos then
    if min (curSize * 4) nMaxBuffSize ≤ curSize then
      none
    else
      shrinkSize nMaxBuffSize nWritePos len (min (curSize * 4) nMaxBuffSize)
  else
    some curSize
termination_by nMaxBuffSize - curSize

lemma shrinkSize_le {nMaxBuffSize nWritePos len curSize n : ℕ} (hcur : curSize ≤ nMaxBuffSize)
    (h : shrinkSize nMaxBuffSize nWritePos len curSize = some n) : curSize ≤ n ∧ n ≤ nMaxBuffSize := by
  induction curSize using shrinkSize.induct nMaxBuffSize nWritePos len with
  | case1 curSize hlen hmin =>
    rw [shrinkSize, if_pos hlen, if_pos hmin] at h
    cases h
  | case2 curSize hlen hmin ih =>
    rw [shrinkSize, if_pos hlen, if_neg hmin] at h
    have hn := ih (min_le_right _ _) h
    omega
  | case3 curSize hlen =>
    rw [shrinkSize, if_neg hlen] at h
    cases h
    exact ⟨le_rfl, hcur⟩

def shrinkByLength (buf : SessionBuffer nMaxBuffSize) (len : ℕ) : Option (SessionBuffer nMaxBuffSize) :=
  match h : shrinkSize nMaxBuffSize buf.nWritePos len buf.vecData.length with
  | none => none
  | some curSize =>
    have hlen : (buf.vecData ++ List.replicate (curSize - buf.vecData.length) 0).length = curSize := by
      have := (shrinkSize_le buf.size_le h).1
      simp only [List.length_append, List.length_replicate]
      omega
    some { buf with
      vecData := buf.vecData ++ List.replicate (curSize - buf.vecData.length) 0
      write_le := by
        rw [hlen]
        exact buf.write_le.trans (shrinkSize_le buf.size_le h).1
      size_le := by
        rw [hlen]
        exact (shrinkSize_le buf.size_le h).2 }

def shrink (buf : SessionBuffer nMaxBuffSize) : Option (SessionBuffer nMaxBuffSize) :=
  let nDefaultBuffSize := nMaxBuffSize / kInitBufferSizeDivNumber
  if h : buf.getReadableSize ≥ nDefaultBuffSize then
    none
  else
    have hlen : (buf.getReadData ++ List.replicate (nDefaultBuffSize - buf.getReadableSize) 0).length =
        nDefaultBuffSize := by
      have := buf.read_le
      have := buf.write_le
      simp only [getReadData, getReadableSize, List.length_append, List.length_drop, List.length_take,
        List.length_replicate] at h ⊢
      omega
    some
      { vecData := buf.getReadData ++ List.replicate (nDefaultBuffSize - buf.getReadableSize) 0
        nReadPos := 0
        nWritePos := buf.nWritePos - buf.nReadPos
        read_le := Nat.zero_le _
        write_le := (Nat.lt_of_not_ge h).le.trans_eq hlen.symm
        size_le := hlen.trans_le (Nat.div_le_self _ _) }

lemma currentWritableSize_init : (init nMaxBuffSize).currentWritableSize =
    nMaxBuffSize / kInitBufferSizeDivNumber := by
  rw [currentWritableSize, init, List.length_replicate, Nat.sub_zero]

lemma currentWritableSize_le_removeData (buf : SessionBuffer nMaxBuffSize) (len : ℕ) :
    buf.currentWritableSize ≤ (buf.removeData len).currentWritableSize := by
  rw [removeData]
  split
  · exact Nat.sub_le_sub_left (Nat.zero_le _) _
  · exact le_rfl

lemma exists_store (buf : SessionBuffer nMaxBuffSize) (pos : ℕ) (data : Bytes)
    (h : pos + data.length ≤ buf.vecData.length) : ∃ buf', buf.store pos data = some buf' ∧
      buf'.vecData.length = buf.vecData.length ∧ buf'.nReadPos = buf.nReadPos ∧ buf'.nWritePos = buf.nWritePos := by
  refine ⟨_, dif_pos h, ?_, rfl, rfl⟩
  simp only [List.length_append, List.length_take, List.length_drop]
  omega

lemma exists_write (buf : SessionBuffer nMaxBuffSize) (data : Bytes) (h : data.length ≤ buf.currentWritableSize) :
    ∃ buf', buf.write data = some buf' ∧ buf'.vecData.length = buf.vecData.length ∧
      buf'.nReadPos = buf.nReadPos ∧ buf'.nWritePos = buf.nWritePos + data.length := by
  have hwrite := buf.write_le
  rw [currentWritableSize] at h
  rw [write, paddingData, dif_neg (by rw [currentWritableSize]; omega), Option.bind_eq_bind, Option.bind_some]
  simp only [Nat.add_sub_cancel]
  exact exists_store { buf with
    nWritePos := buf.nWritePos + data.length
    read_le := Nat.le_add_right_of_le buf.read_le
    write_le := by omega } buf.nWritePos data (by simp only; omega)

@[simp] lemma getReadData_length (buf : SessionBuffer nMaxBuffSize) :
    buf.getReadData.length = buf.getReadableSize := by
  have := buf.write_le
  simp only [getReadData, getReadableSize, List.length_drop, List.length_take]
  omega

lemma empty_iff (buf : SessionBuffer nMaxBuffSize) : buf.empty = true ↔ buf.getReadableSize = 0 := by
  have := buf.read_le
  rw [empty, decide_eq_true_iff, getReadableSize]
  omega

@[simp] lemma getReadData_init : (init nMaxBuffSize).getReadData = [] := rfl

@[simp] lemma getReadData_removeData (buf : SessionBuffer nMaxBuffSize) (len : ℕ) :
    (buf.removeData len).getReadData = buf.getReadData.drop len := by
  have hr := buf.read_le
  have hclamp : buf.getReadData.drop len = buf.getReadData.drop (min len buf.getReadableSize) := by
    rw [← getReadData_length, List.drop_eq_drop_min]
  rw [hclamp, removeData]
  split
  case isTrue h =>
    rw [List.drop_eq_nil_of_le (by rw [getReadData_length, getReadableSize]; rw [getReadableSize] at h; omega)]
    rfl
  case isFalse h =>
    rw [getReadData, getReadData, List.drop_drop]

lemma getReadableSize_removeData (buf : SessionBuffer nMaxBuffSize) (len : ℕ) :
    (buf.removeData len).getReadableSize = buf.getReadableSize - len := by
  rw [← getReadData_length, getReadData_removeData, List.length_drop, getReadData_length]

lemma getReadData_paddingData {buf buf' : SessionBuffer nMaxBuffSize} {len : ℕ} (h : buf.paddingData len = some buf') :
    buf'.getReadData = buf.getReadData ++ (buf.vecData.drop buf.nWritePos).take len := by
  rw [paddingData] at h
  split at h
  · cases h
  · cases h
    simp only [getReadData]
    rw [List.take_add, List.drop_append_of_le_length]
    rw [List.length_take]
    have := buf.read_le
    have := buf.write_le
    omega

lemma getReadData_store {buf buf' : SessionBuffer nMaxBuffSize} {pos : ℕ} {data : Bytes}
    (hpos : buf.nWritePos ≤ pos) (h : buf.store pos data = some buf') : buf'.getReadData = buf.getReadData := by
  rw [store] at h
  split at h
  case isTrue hlen =>
    cases h
    simp only [getReadData]
    rw [List.append_assoc, List.take_append_of_le_length (by rw [List.length_take]; omega), List.take_take,
      min_eq_left hpos]
  case isFalse => cases h

lemma vecData_store {buf buf' : SessionBuffer nMaxBuffSize} {data : Bytes} {pos : ℕ}
    (h : buf.store pos data = some buf') (before old after : Bytes) (hvec : buf.vecData = before ++ (old ++ after))
    (hlen : data.length = old.length) (hpos : pos = before.length) :
    buf'.vecData = before ++ (data ++ after) ∧ buf'.nReadPos = buf.nReadPos ∧ buf'.nWritePos = buf.nWritePos := by
  subst hpos
  rw [store] at h
  split at h
  case isTrue hfit =>
    cases h
    have hdrop : buf.vecData.drop (before.length + data.length) = after := by
      rw [hvec, hlen, ← List.drop_drop, List.drop_left, List.drop_left]
    have htake : buf.vecData.take before.length = before := by
      rw [hvec, List.take_left]
    refine ⟨?_, rfl, rfl⟩
    change buf.vecData.take before.length ++ data ++ buf.vecData.drop (before.length + data.length) = _
    rw [hdrop, htake, List.append_assoc]
  case isFalse => cases h

lemma getReadData_moveWritePos {buf buf' : SessionBuffer nMaxBuffSize} {len : ℕ}
    (h : buf.moveWritePos len = some buf') :
    buf'.getReadData = buf.getReadData ++ (buf.vecData.drop buf.nWritePos).take len := by
  rw [moveWritePos] at h
  have hp : buf.paddingData len = some buf' := by
    have := buf.write_le
    rw [paddingData]
    split at h
    case isTrue => cases h
    case isFalse hlen =>
      rw [dif_neg (by rw [currentWritableSize]; omega)]
      exact h
  exact getReadData_paddingData hp

lemma getReadData_store_paddingData {buf buf₁ buf' : SessionBuffer nMaxBuffSize} {filled : Bytes} {len : ℕ}
    (hstore : buf.store buf.nWritePos filled = some buf₁) (hpad : buf₁.paddingData len = some buf')
    (hlen : len ≤ filled.length) : buf'.getReadData = buf.getReadData ++ filled.take len := by
  have hfit : buf.nWritePos + filled.length ≤ buf.vecData.length := by
    by_contra hfull
    rw [store, dif_neg hfull] at hstore
    cases hstore
  obtain ⟨hvec, -, hpos⟩ := vecData_store hstore (buf.vecData.take buf.nWritePos)
    ((buf.vecData.drop buf.nWritePos).take filled.length) (buf.vecData.drop (buf.nWritePos + filled.length))
    (by rw [← List.drop_drop, List.take_append_drop, List.take_append_drop])
    (by rw [List.length_take, List.length_drop]; omega) (by rw [List.length_take]; omega)
  have hspare : buf₁.vecData.drop buf₁.nWritePos = filled ++ buf.vecData.drop (buf.nWritePos + filled.length) := by
    rw [hvec, hpos, List.drop_left' (by rw [List.length_take]; omega)]
  rw [getReadData_paddingData hpad, getReadData_store le_rfl hstore, hspare, List.take_append_of_le_length hlen]

lemma getReadData_write {buf buf' : SessionBuffer nMaxBuffSize} {data : Bytes} (h : buf.write data = some buf') :
    buf'.getReadData = buf.getReadData ++ data := by
  simp only [write, paddingData, store] at h
  split at h
  · cases h
  · simp only [Option.bind_eq_bind, Option.bind_some] at h
    split at h
    case isTrue hlen =>
      cases h
      have := buf.read_le
      have := buf.write_le
      simp only [getReadData, Nat.add_sub_cancel]
      have htake : (buf.vecData.take buf.nWritePos).length = buf.nWritePos := by
        rw [List.length_take]
        omega
      rw [List.append_assoc, List.take_append, htake, List.take_of_length_le (by omega), Nat.add_sub_cancel_left,
        List.take_append_of_le_length le_rfl, List.take_length, List.drop_append_of_le_length (by omega)]
    case isFalse => cases h

@[simp] lemma getReadData_reorganizeData (buf : SessionBuffer nMaxBuffSize) :
    buf.reorganizeData.getReadData = buf.getReadData := by
  rw [reorganizeData]
  split
  · have hlen := buf.getReadData_length
    rw [getReadableSize] at hlen
    change ((buf.getReadData ++ _).take (buf.nWritePos - buf.nReadPos)).drop 0 = _
    rw [List.drop_zero, ← hlen, List.take_left]
  · rfl

lemma getReadData_shrinkByLength {buf buf' : SessionBuffer nMaxBuffSize} {len : ℕ}
    (h : buf.shrinkByLength len = some buf') : buf'.getReadData = buf.getReadData := by
  rw [shrinkByLength] at h
  split at h
  · cases h
  · cases h
    simp only [getReadData]
    rw [List.take_append_of_le_length buf.write_le]

lemma getReadData_shrink {buf buf' : SessionBuffer nMaxBuffSize} (h : buf.shrink = some buf') :
    buf'.getReadData = buf.getReadData := by
  rw [shrink] at h
  split at h
  · cases h
  · cases h
    have hlen := buf.getReadData_length
    rw [getReadableSize] at hlen
    change ((buf.getReadData ++ _).take (buf.nWritePos - buf.nReadPos)).drop 0 = _
    rw [List.drop_zero, ← hlen, List.take_left]

lemma vecData_length_store {buf buf' : SessionBuffer nMaxBuffSize} {pos : ℕ} {data : Bytes}
    (h : buf.store pos data = some buf') : buf'.vecData.length = buf.vecData.length := by
  rw [store] at h
  split at h
  case isTrue hfit =>
    cases h
    simp only [List.length_append, List.length_take, List.length_drop]
    omega
  case isFalse => cases h

lemma vecData_length_paddingData {buf buf' : SessionBuffer nMaxBuffSize} {len : ℕ}
    (h : buf.paddingData len = some buf') : buf'.vecData.length = buf.vecData.length := by
  rw [paddingData] at h
  split at h
  · cases h
  · cases h
    rfl

lemma vecData_length_write {buf buf' : SessionBuffer nMaxBuffSize} {data : Bytes} (h : buf.write data = some buf') :
    buf'.vecData.length = buf.vecData.length := by
  obtain ⟨b, hpad, hstore⟩ := Option.bind_eq_some_iff.mp h
  exact (vecData_length_store hstore).trans (vecData_length_paddingData hpad)

lemma vecData_length_shrink {buf buf' : SessionBuffer nMaxBuffSize} (h : buf.shrink = some buf') :
    buf'.vecData.length = nMaxBuffSize / kInitBufferSizeDivNumber := by
  rw [shrink] at h
  split at h
  case isTrue => cases h
  case isFalse hroom =>
    cases h
    simp only [List.length_append, getReadData_length, List.length_replicate]
    omega

lemma vecData_length_shrinkByLength {buf buf' : SessionBuffer nMaxBuffSize} {len : ℕ}
    (h : buf.shrinkByLength len = some buf') : buf.vecData.length ≤ buf'.vecData.length := by
  rw [shrinkByLength] at h
  split at h
  · cases h
  · cases h
    rw [List.length_append]
    exact Nat.le_add_right _ _

lemma vecData_length_removeData (buf : SessionBuffer nMaxBuffSize) (len : ℕ) :
    (buf.removeData len).vecData.length = buf.vecData.length := by
  rw [removeData]
  split <;> rfl

lemma vecData_length_reorganizeData (buf : SessionBuffer nMaxBuffSize) :
    buf.reorganizeData.vecData.length = buf.vecData.length := by
  rw [reorganizeData]
  split
  · have hread := buf.read_le
    have hwrite := buf.write_le
    simp only [List.length_append, getReadData_length, List.length_drop, getReadableSize]
    omega
  · rfl

end SessionBuffer

end TonyCat.Net
