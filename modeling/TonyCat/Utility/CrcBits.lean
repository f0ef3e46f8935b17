import TonyCat.Library.BitRegister
import TonyCat.Utility.Crc

set_option autoImplicit false

/-! `CRC16` and, with its 32-bit loop index, `CRC32` of `crc.cpp`; both are the codes that take the bits one by one. -/

namespace TonyCat.Utility

open TonyCat.Library

def crc16table : List UInt16 :=
  [
    0x0000, 0x1021, 0x2042, 0x3063, 0x4084, 0x50a5, 0x60c6, 0x70e7,
    0x8108, 0x9129, 0xa14a, 0xb16b, 0xc18c, 0xd1ad, 0xe1ce, 0xf1ef]

def crc16Nibble (crc16 nibble : UInt16) : UInt16 :=
  (crc16 <<< 4) ^^^ crc16table.getD ((crc16 >>> 12) ^^^ nibble).toNat 0

def crc16Byte (crc16 : UInt16) (b : UInt8) : UInt16 :=
  crc16Nibble (crc16Nibble crc16 (b >>> 4).toUInt16) (b &&& 0x0f).toUInt16

def crc16 (data : Bytes) : UInt16 := data.foldl crc16Byte 0x0000

/-- `for (i = 0; i < len; i++)`, where `i` has 32 bits and `len` has not; `none` when the fuel runs out. -/
def crc32Loop (buf : Bytes) : ℕ → UInt32 → UInt32 → Option UInt32
  | 0, _, _ => none
  | fuel + 1, i, crc =>
    if i.toNat < buf.length then crc32Loop buf fuel (i + 1) (crcByte crc (buf.getD i.toNat 0)) else some crc

def crc32Counted (data : Bytes) : Option UInt32 :=
  (crc32Loop data (data.length + 1) 0 0xFFFFFFFF).map fun crc => crc ^^^ 0xFFFFFFFF

def crc32PartsCounted (dataHead data : Bytes) : Option UInt32 :=
  (crc32Loop dataHead (dataHead.length + 1) 0 0xFFFFFFFF).bind fun crc =>
    (crc32Loop data (data.length + 1) 0 crc).map fun crc => crc ^^^ 0xFFFFFFFF

def crc32Bit (crc : UInt32) : UInt32 := if crc &&& 1 = 1 then (crc >>> 1) ^^^ 0xEDB88320 else crc >>> 1

def crc32BitByte (crc : UInt32) (b : UInt8) : UInt32 := crc32Bit^[8] (crc ^^^ b.toUInt32)

def crc32Bitwise (data : Bytes) : UInt32 := data.foldl crc32BitByte 0xFFFFFFFF ^^^ 0xFFFFFFFF

def crc16Bit (crc : UInt16) : UInt16 := if crc &&& 0x8000 = 0x8000 then (crc <<< 1) ^^^ 0x1021 else crc <<< 1

def crc16BitByte (crc : UInt16) (b : UInt8) : UInt16 := crc16Bit^[8] (crc ^^^ (b.toUInt16 <<< 8))

def crc16Bitwise (data : Bytes) : UInt16 := data.foldl crc16BitByte 0x0000

lemma toBitVec_crc32Bit (crc : UInt32) : (crc32Bit crc).toBitVec = stepRight 0xEDB88320#32 crc.toBitVec := by
  have hbit : (crc &&& 1 = 1) ↔ crc.toBitVec.getLsbD 0 = true := by
    rw [← UInt32.toNat_inj, UInt32.toNat_and]
    change crc.toNat &&& 1 = 1 ↔ crc.toNat.testBit 0 = true
    rw [Nat.and_one_is_mod, Nat.testBit_zero, decide_eq_true_iff]
  rw [crc32Bit, stepRight, feedback]
  by_cases hout : crc &&& 1 = 1
  · rw [if_pos hout, if_pos (hbit.mp hout)]
    rfl
  · rw [if_neg hout, if_neg (hout ∘ hbit.mpr)]
    rfl

lemma toBitVec_crc16Bit (crc : UInt16) : (crc16Bit crc).toBitVec = stepLeft 0x1021#16 crc.toBitVec := by
  have hbit : (crc &&& 0x8000 = 0x8000) ↔ crc.toBitVec.msb = true := by
    rw [BitVec.msb_eq_getLsbD_last, ← UInt16.toNat_inj, UInt16.toNat_and]
    change crc.toNat &&& 2 ^ 15 = 2 ^ 15 ↔ crc.toNat.testBit 15 = true
    rw [Nat.and_two_pow]
    cases crc.toNat.testBit 15 <;> simp
  rw [crc16Bit, stepLeft, feedback]
  by_cases hout : crc &&& 0x8000 = 0x8000
  · rw [if_pos hout, if_pos (hbit.mp hout)]
    rfl
  · rw [if_neg hout, if_neg (hout ∘ hbit.mpr)]
    rfl

lemma toBitVec_iterate_crc32Bit (n : ℕ) (crc : UInt32) :
    (crc32Bit^[n] crc).toBitVec = (stepRight 0xEDB88320#32)^[n] crc.toBitVec :=
  Function.Semiconj.iterate_right (f := UInt32.toBitVec) toBitVec_crc32Bit n crc

lemma toBitVec_iterate_crc16Bit (n : ℕ) (crc : UInt16) :
    (crc16Bit^[n] crc).toBitVec = (stepLeft 0x1021#16)^[n] crc.toBitVec :=
  Function.Semiconj.iterate_right (f := UInt16.toBitVec) toBitVec_crc16Bit n crc

lemma crc32table_eq : crc32table = (List.range 256).map fun i => crc32Bit^[8] (UInt32.ofNat i) := by
  decide +kernel

lemma crc16table_eq : crc16table = (List.range 16).map fun i => crc16Bit^[4] (UInt16.ofNat i <<< 12) := by
  decide +kernel

lemma crc32table_getD {low : UInt32} (h : low.toNat < 256) : crc32table.getD low.toNat 0 = crc32Bit^[8] low := by
  rw [crc32table_eq, List.getD_eq_getElem _ _ (by simpa using h), List.getElem_map, List.getElem_range,
    UInt32.ofNat_toNat]

lemma crc16table_getD {high : UInt16} (h : high.toNat < 16) :
    crc16table.getD high.toNat 0 = crc16Bit^[4] (high <<< 12) := by
  rw [crc16table_eq, List.getD_eq_getElem _ _ (by simpa using h), List.getElem_map, List.getElem_range,
    UInt16.ofNat_toNat]

lemma crcByte_eq (crc : UInt32) (b : UInt8) : crcByte crc b = crc32BitByte crc b := by
  have hlow : ((crc ^^^ b.toUInt32) &&& 0xff).toNat < 256 := tableIndex_lt crc b
  have hmask : ∀ i < 8, ((crc ^^^ b.toUInt32) &&& 0xff).toBitVec.getLsbD i = (crc ^^^ b.toUInt32).toBitVec.getLsbD i := by
    intro i hi
    have hset : (0xff : UInt32).toBitVec.getLsbD i = true := by
      change (2 ^ 8 - 1).testBit i = true
      rw [Nat.testBit_two_pow_sub_one, decide_eq_true hi]
    rw [UInt32.toBitVec_and, BitVec.getLsbD_and, hset, Bool.and_true]
  have hrest : ((crc ^^^ b.toUInt32) &&& 0xff).toBitVec >>> 8 = 0#32 := by
    apply BitVec.eq_of_toNat_eq
    rw [BitVec.toNat_ushiftRight, Nat.shiftRight_eq_div_pow]
    exact Nat.div_eq_of_lt hlow
  have hbyte : b.toUInt32.toBitVec >>> 8 = 0#32 := by
    apply BitVec.eq_of_toNat_eq
    rw [BitVec.toNat_ushiftRight, Nat.shiftRight_eq_div_pow]
    exact Nat.div_eq_of_lt b.toNat_lt
  have hsplit := iterate_stepRight_split 0xEDB88320#32 hmask hrest
  apply UInt32.toBitVec_inj.mp
  rw [crcByte, crc32table_getD hlow, crc32BitByte, UInt32.toBitVec_xor, toBitVec_iterate_crc32Bit,
    toBitVec_iterate_crc32Bit, hsplit, UInt32.toBitVec_xor, BitVec.ushiftRight_xor_distrib, hbyte, BitVec.xor_zero]
  rfl

lemma crc16Nibble_eq (crc : UInt16) {nibble : UInt16} (h : nibble.toNat < 16) :
    crc16Nibble crc nibble = crc16Bit^[4] (crc ^^^ (nibble <<< 12)) := by
  have hhigh : ((crc >>> 12) ^^^ nibble).toNat < 16 := by
    rw [UInt16.toNat_xor, UInt16.toNat_shiftRight]
    refine Nat.xor_lt_two_pow (n := 4) ?_ h
    change crc.toNat >>> 12 < 2 ^ 4
    rw [Nat.shiftRight_eq_div_pow]
    exact Nat.div_lt_of_lt_mul crc.toNat_lt
  have hmask : ∀ i < 4, (((crc >>> 12) ^^^ nibble) <<< 12).toBitVec.getMsbD i =
      (crc ^^^ (nibble <<< 12)).toBitVec.getMsbD i := by
    intro i hi
    change ((crc.toBitVec >>> 12 ^^^ nibble.toBitVec) <<< 12).getMsbD i =
      (crc.toBitVec ^^^ nibble.toBitVec <<< 12).getMsbD i
    rw [BitVec.shiftLeft_xor_distrib, BitVec.getMsbD_xor, BitVec.getMsbD_xor]
    congr 1
    have hin : i + 12 < 16 := by omega
    have hout : ¬i + 12 < 12 := by omega
    rw [BitVec.getMsbD_shiftLeft, BitVec.getMsbD_ushiftRight, decide_eq_true hin, decide_eq_false hout,
      Nat.add_sub_cancel, Bool.not_false, Bool.true_and, Bool.true_and]
  have hrest : (((crc >>> 12) ^^^ nibble) <<< 12).toBitVec <<< 4 = 0#16 := by
    change (crc.toBitVec >>> 12 ^^^ nibble.toBitVec) <<< 12 <<< 4 = 0#16
    rw [← BitVec.shiftLeft_add]
    exact BitVec.shiftLeft_eq_zero (by decide)
  have hnibble : (nibble <<< 12).toBitVec <<< 4 = 0#16 := by
    change nibble.toBitVec <<< 12 <<< 4 = 0#16
    rw [← BitVec.shiftLeft_add]
    exact BitVec.shiftLeft_eq_zero (by decide)
  have hsplit := iterate_stepLeft_split 0x1021#16 hmask hrest
  apply UInt16.toBitVec_inj.mp
  rw [crc16Nibble, crc16table_getD hhigh, UInt16.toBitVec_xor, toBitVec_iterate_crc16Bit, toBitVec_iterate_crc16Bit,
    hsplit, UInt16.toBitVec_xor, BitVec.shiftLeft_xor_distrib, hnibble, BitVec.xor_zero]
  exact BitVec.xor_comm ..

lemma nibbles_fit : ∀ n < 256, (UInt8.ofNat n >>> 4).toUInt16.toNat < 16 ∧ (UInt8.ofNat n &&& 0x0f).toUInt16.toNat < 16 := by
  decide +kernel

lemma nibbles_bits : ∀ n < 256,
    crc16Bit^[4] ((UInt8.ofNat n &&& 0x0f).toUInt16 <<< 8) = (UInt8.ofNat n &&& 0x0f).toUInt16 <<< 12 ∧
      ((UInt8.ofNat n >>> 4).toUInt16 <<< 12) ^^^ ((UInt8.ofNat n &&& 0x0f).toUInt16 <<< 8) =
        (UInt8.ofNat n).toUInt16 <<< 8 := by
  decide +kernel

lemma crc16Byte_eq (crc : UInt16) (b : UInt8) : crc16Byte crc b = crc16BitByte crc b := by
  obtain ⟨hhigh, hlow⟩ := nibbles_fit b.toNat b.toNat_lt
  obtain ⟨hmoved, hbyte⟩ := nibbles_bits b.toNat b.toNat_lt
  rw [UInt8.ofNat_toNat] at hhigh hlow hmoved hbyte
  have hlinear : ∀ x y : UInt16, crc16Bit^[4] (x ^^^ y) = crc16Bit^[4] x ^^^ crc16Bit^[4] y := by
    intro x y
    apply UInt16.toBitVec_inj.mp
    rw [UInt16.toBitVec_xor, toBitVec_iterate_crc16Bit, toBitVec_iterate_crc16Bit, toBitVec_iterate_crc16Bit,
      UInt16.toBitVec_xor, (linear_stepLeft _).iterate 4]
  calc crc16Byte crc b = crc16Bit^[4] (crc16Bit^[4] (crc ^^^ ((b >>> 4).toUInt16 <<< 12)) ^^^
        ((b &&& 0x0f).toUInt16 <<< 12)) := by
        rw [crc16Byte, crc16Nibble_eq _ hlow, crc16Nibble_eq _ hhigh]
    _ = crc16Bit^[4] (crc16Bit^[4] (crc ^^^ (b.toUInt16 <<< 8))) := by
        rw [← hmoved, ← hlinear, UInt16.xor_assoc, hbyte]
    _ = crc16BitByte crc b := (Function.iterate_add_apply crc16Bit 4 4 _).symm

lemma crc32Loop_eq {buf : Bytes} (hsize : buf.length < 2 ^ 32) {fuel : ℕ} (pos : ℕ) (hfuel : buf.length < pos + fuel)
    (hpos : pos ≤ buf.length) (crc : UInt32) :
    crc32Loop buf fuel (UInt32.ofNat pos) crc = some ((buf.drop pos).foldl crcByte crc) := by
  induction fuel generalizing pos crc with
  | zero => omega
  | succ fuel ih =>
    have hindex : (UInt32.ofNat pos).toNat = pos := UInt32.toNat_ofNat_of_lt' (Nat.lt_of_le_of_lt hpos hsize)
    rw [crc32Loop, hindex]
    by_cases hlt : pos < buf.length
    · have hnext : UInt32.ofNat pos + 1 = UInt32.ofNat (pos + 1) := (UInt32.ofNat_add pos 1).symm
      rw [if_pos hlt, hnext, ih (pos + 1) (by omega) hlt, List.drop_eq_getElem_cons hlt, List.foldl_cons,
        List.getD_eq_getElem _ _ hlt]
    · rw [if_neg hlt, List.drop_eq_nil_of_le (Nat.le_of_not_lt hlt)]
      rfl

lemma crc32Loop_start {buf : Bytes} (hsize : buf.length < 2 ^ 32) (crc : UInt32) :
    crc32Loop buf (buf.length + 1) 0 crc = some (buf.foldl crcByte crc) :=
  crc32Loop_eq hsize 0 (by omega) (Nat.zero_le _) crc

lemma crc32Counted_eq {data : Bytes} (h : data.length < 2 ^ 32) : crc32Counted data = some (crc32 data) := by
  rw [crc32Counted, crc32Loop_start h]
  rfl

lemma crc32PartsCounted_eq {dataHead data : Bytes} (hhead : dataHead.length < 2 ^ 32) (h : data.length < 2 ^ 32) :
    crc32PartsCounted dataHead data = some (crc32Parts dataHead data) := by
  rw [crc32PartsCounted, crc32Loop_start hhead, Option.bind_some, crc32Loop_start h]
  rfl

lemma crc32_eq_crc32Bitwise (data : Bytes) : crc32 data = crc32Bitwise data := by
  rw [crc32, crc32Bitwise, show crcByte = crc32BitByte from funext fun crc => funext (crcByte_eq crc)]

lemma crc16_eq_crc16Bitwise (data : Bytes) : crc16 data = crc16Bitwise data := by
  rw [crc16, crc16Bitwise, show crc16Byte = crc16BitByte from funext fun crc => funext (crc16Byte_eq crc)]

theorem crc_bitwise :
    (∀ a b : Bytes, a.length + b.length < 2 ^ 32 →
      crc32PartsCounted a b = crc32Counted (a ++ b) ∧ crc32Counted (a ++ b) = some (crc32Bitwise (a ++ b))) ∧
      ∀ data : Bytes, crc16 data = crc16Bitwise data := by
  refine ⟨fun a b hsize => ?_, crc16_eq_crc16Bitwise⟩
  have hwhole := hsize
  rw [← List.length_append] at hwhole
  rw [crc32PartsCounted_eq (by omega) (by omega), crc32Counted_eq hwhole, crc32Parts_eq, ← crc32_eq_crc32Bitwise]
  exact ⟨rfl, rfl⟩

theorem crc_bitwise_digits :
    crc32PartsCounted [0x31, 0x32, 0x33, 0x34] [0x35, 0x36, 0x37, 0x38, 0x39] = some 0xCBF43926 ∧
      crc16 [0x31, 0x32, 0x33, 0x34, 0x35, 0x36, 0x37, 0x38, 0x39] = 0x31C3 := by
  obtain ⟨hparts, hbits⟩ := crc_bitwise.1 [0x31, 0x32, 0x33, 0x34] [0x35, 0x36, 0x37, 0x38, 0x39] (by decide)
  rw [hparts, hbits, crc_bitwise.2]
  exact ⟨by decide +kernel, by decide +kernel⟩

end TonyCat.Utility
