import TonyCat.Library.LengthPrefix

set_option autoImplicit false

/-! The packed lists of `db_utils.cpp`. A read outside a string's buffer, its terminating NUL
included, has no defined result and is `none`; so is a loop that does not come to an end. -/

namespace TonyCat.Database

open TonyCat.Library

def uint32Max : UInt32 := 0xFFFFFFFF

variable (native : Endian)

def appendRawData (strOutput strInput : Bytes) : Bytes :=
  strOutput ++ (native.bytes (UInt32.ofNat strInput.length)) ++ strInput

/-- `std::string(strInput.c_str() + pos, len)` -/
def copyFrom (strInput : Bytes) (pos len : ℕ) : Option Bytes :=
  if pos + len ≤ strInput.length + 1 then some (((strInput ++ [0]).drop pos).take len) else none

def paserRawData (strInput : Bytes) (nStart : UInt32) : Option (UInt32 × Bytes) :=
  if strInput.length ≤ nStart.toNat then
    some (uint32Max, [])
  else if strInput.length ≤ nStart.toNat + 4 then
    some (uint32Max, [])
  else
    let nLen := native.read (strInput.drop nStart.toNat)
    if strInput.length < (nStart + nLen).toNat then
      some (uint32Max, [])
    else
      (copyFrom strInput (nStart.toNat + 4) nLen.toNat).map fun strOutput =>
        (nStart + 4 + nLen, strOutput)

/-- The loop of both `PaserList`; `insert` is what the container does with an element. -/
def paserLoop {α : Type} (insert : α → Bytes → α) (strInput : Bytes) : ℕ → UInt32 → α → Option α
  | 0, _, _ => none
  | fuel + 1, indexBegin, elems =>
    if indexBegin.toNat < strInput.length then
      (paserRawData native strInput indexBegin).bind fun next =>
        paserLoop insert strInput fuel next.1 (if next.1 < uint32Max then insert elems next.2 else elems)
    else
      some elems

def paserList (strInput : Bytes) : Option (List Bytes) :=
  paserLoop native (fun vecElems strData => vecElems ++ [strData]) strInput (strInput.length + 1) 0 []

def paserSet (strInput : Bytes) : Option (List Bytes) :=
  paserLoop native (fun setElems strData => setElems.insert strData) strInput (strInput.length + 1) 0 []

def packetList (elems : List Bytes) : Bytes :=
  elems.foldl (appendRawData native) []

lemma appendRawData_eq (strOutput strInput : Bytes) :
    appendRawData native strOutput strInput = strOutput ++ record native strInput := by
  simp [appendRawData, record]

lemma foldl_appendRawData (elems : List Bytes) (strOutput : Bytes) :
    elems.foldl (appendRawData native) strOutput = strOutput ++ records native elems := by
  induction elems generalizing strOutput with
  | nil => simp
  | cons xs elems ih => simp [ih, appendRawData_eq]

lemma packetList_eq (elems : List Bytes) : packetList native elems = records native elems := by
  simp [packetList, foldl_appendRawData]

structure Packable (elems : List Bytes) : Prop where
  nonempty : ∀ xs ∈ elems, xs ≠ []
  fits : (records native elems).length < 2 ^ 32 - 1

variable {native : Endian} {strInput : Bytes}

def slice (strInput : Bytes) (part : ℕ × ℕ) : Bytes := (strInput.drop part.1).take part.2

def prefixAt (native : Endian) (strInput : Bytes) (pos : ℕ) : ℕ := (native.read (strInput.drop pos)).toNat

lemma prefixAt_lt (native : Endian) (strInput : Bytes) (pos : ℕ) : prefixAt native strInput pos < 2 ^ 32 :=
  UInt32.toNat_lt _

lemma toNat_ofNat_pos {pos : ℕ} (h : pos < 2 ^ 32) : (UInt32.ofNat pos).toNat = pos := by
  rw [UInt32.toNat_ofNat', Nat.mod_eq_of_lt h]

lemma paserRawData_short {pos : ℕ} (hpos : pos < 2 ^ 32) (h : strInput.length ≤ pos + 4) :
    paserRawData native strInput (UInt32.ofNat pos) = some (uint32Max, []) := by
  rw [paserRawData, toNat_ofNat_pos hpos, if_pos h, ite_self]

lemma paserRawData_long {pos : ℕ} (hpos : pos < 2 ^ 32) (h : pos + 4 < strInput.length) :
    paserRawData native strInput (UInt32.ofNat pos) =
      if strInput.length < (pos + prefixAt native strInput pos) % 2 ^ 32 then
        some (uint32Max, [])
      else
        (copyFrom strInput (pos + 4) (prefixAt native strInput pos)).map fun strOutput =>
          (UInt32.ofNat (pos + 4 + prefixAt native strInput pos), strOutput) := by
  have hsum : (UInt32.ofNat pos + (native.read (strInput.drop pos))).toNat =
      (pos + prefixAt native strInput pos) % 2 ^ 32 := by
    rw [UInt32.toNat_add, toNat_ofNat_pos hpos]
    rfl
  have hnext : UInt32.ofNat pos + 4 + (native.read (strInput.drop pos)) =
      UInt32.ofNat (pos + 4 + prefixAt native strInput pos) := by
    apply UInt32.toNat_inj.mp
    rw [UInt32.toNat_add, UInt32.toNat_add, toNat_ofNat_pos hpos, UInt32.toNat_ofNat', prefixAt]
    change ((pos + 4) % 2 ^ 32 + _) % 2 ^ 32 = _
    rw [Nat.mod_add_mod]
  rw [paserRawData, toNat_ofNat_pos hpos, if_neg (by omega), if_neg (by omega)]
  simp only [hsum, hnext]
  rfl

lemma copyFrom_inside {pos len : ℕ} (h : pos + len ≤ strInput.length) :
    copyFrom strInput pos len = some (slice strInput (pos, len)) := by
  rw [copyFrom, if_pos (by omega), slice, List.drop_append_of_le_length (by omega),
    List.take_append_of_le_length (by rw [List.length_drop]; omega)]

variable (native) in
lemma paserRawData_inside {pos : ℕ} (hsize : strInput.length < 2 ^ 32) (h : pos + 4 < strInput.length)
    (hfit : pos + 4 + prefixAt native strInput pos ≤ strInput.length) :
    paserRawData native strInput (UInt32.ofNat pos) =
      some (UInt32.ofNat (pos + 4 + prefixAt native strInput pos),
        slice strInput (pos + 4, prefixAt native strInput pos)) := by
  rw [paserRawData_long (by omega) h, Nat.mod_eq_of_lt (by omega), if_neg (by omega), copyFrom_inside hfit]
  rfl

section Loop

variable {α : Type} (insert : α → Bytes → α) (acc : α)

lemma paserLoop_end {fuel : ℕ} {index : UInt32} (h : strInput.length ≤ index.toNat) :
    paserLoop native insert strInput (fuel + 1) index acc = some acc := by
  rw [paserLoop, if_neg (Nat.not_lt.mpr h)]

lemma paserLoop_last {fuel pos : ℕ} {strData : Bytes} (hsize : strInput.length < 2 ^ 32) (hpos : pos < strInput.length)
    (h : paserRawData native strInput (UInt32.ofNat pos) = some (uint32Max, strData)) :
    paserLoop native insert strInput (fuel + 2) (UInt32.ofNat pos) acc = some acc := by
  have hmax : uint32Max.toNat = 2 ^ 32 - 1 := rfl
  rw [paserLoop, toNat_ofNat_pos (by omega), if_pos hpos, h]
  simp only [Option.bind_some]
  exact paserLoop_end insert acc (by omega)

lemma paserLoop_next {fuel pos next : ℕ} {strData : Bytes} (hsize : strInput.length < 2 ^ 32)
    (hpos : pos < strInput.length) (hnext : next < 2 ^ 32 - 1)
    (h : paserRawData native strInput (UInt32.ofNat pos) = some (UInt32.ofNat next, strData)) :
    paserLoop native insert strInput (fuel + 1) (UInt32.ofNat pos) acc =
      paserLoop native insert strInput fuel (UInt32.ofNat next) (insert acc strData) := by
  have hlt : UInt32.ofNat next < uint32Max := by
    rw [UInt32.lt_iff_toNat_lt, toNat_ofNat_pos (by omega)]
    exact hnext
  rw [paserLoop, toNat_ofNat_pos (by omega), if_pos hpos, h, Option.bind_some, if_pos hlt]

end Loop

lemma paserLoop_eq_none {α : Type} (insert : α → Bytes → α) {strInput : Bytes} (hlong : 2 ^ 32 ≤ strInput.length)
    (fuel : ℕ) (indexBegin : UInt32) (acc : α) : paserLoop native insert strInput fuel indexBegin acc = none := by
  induction fuel generalizing indexBegin acc with
  | zero => rfl
  | succ fuel ih =>
    -- the position has 32 bits and never gets to the end
    have hpos : indexBegin.toNat < strInput.length := lt_of_lt_of_le indexBegin.toNat_lt hlong
    rw [paserLoop, if_pos hpos]
    cases paserRawData native strInput indexBegin with
    | none => rfl
    | some next => exact ih _ _

/-- What is read back from a packed list of this size: an empty last element is taken for a missing one, and the
last one that ends at 2³² - 1 for an error. -/
def readBack (size : ℕ) (elems : List Bytes) : List Bytes :=
  if elems.getLast? = some [] ∨ size = 2 ^ 32 - 1 then elems.dropLast else elems

lemma readBack_cons (size : ℕ) (xs ys : Bytes) (elems : List Bytes) :
    readBack size (xs :: ys :: elems) = xs :: readBack size (ys :: elems) := by
  rw [readBack, readBack, List.getLast?_cons_cons, List.dropLast_cons_cons]
  split <;> rfl

variable (native) in
lemma paserRawData_of_record (done xs rest : Bytes) (hrest : xs ++ rest ≠ [])
    (hsize : (done ++ (record native xs ++ rest)).length < 2 ^ 32) :
    paserRawData native (done ++ (record native xs ++ rest)) (UInt32.ofNat done.length) =
      some (UInt32.ofNat (done ++ record native xs).length, xs) := by
  have hpos := List.length_pos_of_ne_nil hrest
  have hsizes := hsize
  simp only [List.length_append, record_length] at hsizes hpos
  have hlength : prefixAt native (done ++ (record native xs ++ rest)) done.length = xs.length := by
    rw [prefixAt, List.drop_left]
    exact record_read native xs rest (by omega)
  have hslice : slice (done ++ (record native xs ++ rest)) (done.length + 4, xs.length) = xs := by
    have hhead : (done ++ (native.bytes (UInt32.ofNat xs.length))).length = done.length + 4 := by
      rw [List.length_append, Endian.bytes_length]
    rw [slice, record, List.append_assoc, ← List.append_assoc done, List.drop_left' hhead, List.take_left]
  have hinside := paserRawData_inside native hsize
    (show done.length + 4 < (done ++ (record native xs ++ rest)).length by
      simp only [List.length_append, record_length]; omega)
    (by rw [hlength]; simp only [List.length_append, record_length]; omega)
  rw [hinside, hlength, hslice, List.length_append, record_length, Nat.add_assoc]

lemma paserLoop_packed {α : Type} (insert : α → Bytes → α) (elems : List Bytes) (done : Bytes) (acc : α) {fuel : ℕ}
    (hsize : (done ++ records native elems).length < 2 ^ 32) (hfuel : elems.length < fuel) :
    paserLoop native insert (done ++ records native elems) fuel (UInt32.ofNat done.length) acc =
      some ((readBack (done ++ records native elems).length elems).foldl insert acc) := by
  induction elems generalizing done acc fuel with
  | nil =>
    obtain ⟨fuel, rfl⟩ : ∃ n, fuel = n + 1 := ⟨fuel - 1, by omega⟩
    rw [records_nil, List.append_nil] at hsize ⊢
    rw [paserLoop_end insert acc (toNat_ofNat_pos hsize).ge, readBack, List.dropLast_nil, ite_self]
    rfl
  | cons xs elems ih =>
    rw [List.length_cons] at hfuel
    obtain ⟨fuel, rfl⟩ : ∃ n, fuel = n + 2 := ⟨fuel - 2, by omega⟩
    rw [records_cons] at hsize ⊢
    have hin : done.length < (done ++ (record native xs ++ records native elems)).length := by
      simp only [List.length_append, record_length]
      omega
    cases elems with
    | nil =>
      rw [records_nil, List.append_nil] at hsize hin ⊢
      by_cases hempty : xs = []
      · subst hempty
        rw [paserLoop_last insert acc hsize hin (paserRawData_short (by omega) (by simp)), readBack,
          if_pos (.inl rfl)]
        rfl
      · have hdata := paserRawData_of_record native done xs [] (by simpa using hempty)
          (by rwa [List.append_nil])
        rw [List.append_nil] at hdata
        by_cases hlast : (done ++ record native xs).length = 2 ^ 32 - 1
        · rw [hlast] at hdata ⊢
          rw [paserLoop_last insert acc hsize hin hdata, readBack, if_pos (.inr rfl)]
          rfl
        · rw [paserLoop_next insert acc hsize hin (by omega) hdata, paserLoop_end _ _ (toNat_ofNat_pos hsize).ge,
            readBack, if_neg fun h => h.elim (fun hlast => hempty (Option.some.inj hlast)) hlast]
          rfl
    | cons ys elems =>
      have hrest : xs ++ records native (ys :: elems) ≠ [] := by
        intro hnil
        exact absurd (records_eq_nil native (List.append_eq_nil_iff.mp hnil).2) (List.cons_ne_nil _ _)
      have hnext : (done ++ record native xs).length < 2 ^ 32 - 1 := by
        simp only [records_cons, List.length_append, record_length] at hsize ⊢
        omega
      rw [paserLoop_next insert acc hsize hin hnext (paserRawData_of_record native done xs _ hrest hsize), readBack_cons,
        ← List.append_assoc]
      exact ih (done ++ record native xs) _ (by rwa [List.append_assoc]) (by omega)

variable (native) in
lemma length_le_records_length (elems : List Bytes) : elems.length ≤ (records native elems).length := by
  induction elems with
  | nil => simp
  | cons xs elems ih =>
    simp
    omega

lemma foldl_concat (elems acc : List Bytes) :
    elems.foldl (fun v s => v ++ [s]) acc = acc ++ elems := by
  induction elems generalizing acc with
  | nil => simp
  | cons x elems ih => simp [ih]

lemma paserLoop_packetList {α : Type} (insert : α → Bytes → α) (acc : α) {elems : List Bytes}
    (hsize : (packetList native elems).length < 2 ^ 32) :
    paserLoop native insert (packetList native elems) ((packetList native elems).length + 1) 0 acc =
      some ((readBack (packetList native elems).length elems).foldl insert acc) := by
  rw [packetList_eq] at hsize ⊢
  have hcount := length_le_records_length native elems
  exact paserLoop_packed insert elems [] acc hsize (by omega)

lemma mem_foldl_insert (elems acc : List Bytes) (strData : Bytes) :
    strData ∈ elems.foldl (fun setElems strData => setElems.insert strData) acc ↔ strData ∈ acc ∨ strData ∈ elems := by
  induction elems generalizing acc with
  | nil => simp
  | cons xs elems ih =>
    rw [List.foldl_cons, ih, List.mem_insert_iff, List.mem_cons]
    tauto

lemma Packable.short {elems : List Bytes} (h : Packable native elems) : Short elems := by
  intro xs hx
  have hf := h.fits
  obtain ⟨l, r, rfl⟩ := List.append_of_mem hx
  simp at hf
  omega

lemma foldl_insert_nodup (elems acc : List Bytes) (h : (elems ++ acc).Nodup) :
    elems.foldl (fun s x => s.insert x) acc = elems.reverse ++ acc := by
  induction elems generalizing acc with
  | nil => rfl
  | cons x elems ih =>
    have hx : x ∉ acc := by
      intro hm
      simp [hm] at h
    rw [List.foldl_cons, List.insert_of_not_mem hx, ih]
    · simp
    · exact (List.perm_middle.nodup_iff).mpr h

lemma readBack_packable {elems : List Bytes} (h : Packable native elems) :
    readBack (packetList native elems).length elems = elems := by
  have hfits := h.fits
  rw [readBack, if_neg]
  rintro (hlast | hlast)
  · exact h.nonempty [] (List.mem_of_getLast? hlast) rfl
  · rw [packetList_eq] at hlast
    omega

lemma Packable.size_lt {elems : List Bytes} (h : Packable native elems) : (packetList native elems).length < 2 ^ 32 := by
  have hfits := h.fits
  rw [packetList_eq]
  omega

lemma paserList_packetList {elems : List Bytes} (h : Packable native elems) :
    paserList native (packetList native elems) = some elems := by
  rw [paserList, paserLoop_packetList _ _ h.size_lt, readBack_packable h, foldl_concat, List.nil_append]

lemma paserSet_packetList {elems : List Bytes} (h : Packable native elems) (hn : elems.Nodup) :
    paserSet native (packetList native elems) = some elems.reverse := by
  rw [paserSet, paserLoop_packetList _ _ h.size_lt, readBack_packable h,
    foldl_insert_nodup elems [] (by rwa [List.append_nil]), List.append_nil]

lemma mem_of_mem_readBack {size : ℕ} {elems : List Bytes} {strData : Bytes} (h : strData ∈ readBack size elems) :
    strData ∈ elems := by
  rw [readBack] at h
  split at h
  · exact List.dropLast_subset elems h
  · exact h

lemma eq_foldl_of_paserLoop {α : Type} {insert : α → Bytes → α} {acc result : α} {elems : List Bytes}
    (h : paserLoop native insert (packetList native elems) ((packetList native elems).length + 1) 0 acc = some result) :
    result = (readBack (packetList native elems).length elems).foldl insert acc := by
  by_cases hlong : 2 ^ 32 ≤ (packetList native elems).length
  · rw [paserLoop_eq_none insert hlong] at h
    cases h
  · rw [paserLoop_packetList insert acc (not_le.mp hlong)] at h
    exact (Option.some.inj h).symm

lemma mem_of_paserList {elems result : List Bytes} (h : paserList native (packetList native elems) = some result) :
    ∀ xs ∈ result, xs ∈ elems := by
  rw [eq_foldl_of_paserLoop h, foldl_concat, List.nil_append]
  exact fun xs hxs => mem_of_mem_readBack hxs

lemma mem_of_paserSet {elems result : List Bytes} (h : paserSet native (packetList native elems) = some result) :
    ∀ xs ∈ result, xs ∈ elems := by
  rw [eq_foldl_of_paserLoop h]
  intro xs hxs
  rcases (mem_foldl_insert _ _ _).mp hxs with hnil | hxs
  · exact absurd hnil List.not_mem_nil
  · exact mem_of_mem_readBack hxs

@[simp] lemma paserList_nil : paserList native [] = some [] := rfl

@[simp] lemma paserSet_nil : paserSet native [] = some [] := rfl

end TonyCat.Database
