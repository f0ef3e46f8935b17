import Mathlib.Data.List.Basic
import Mathlib.Data.Nat.Bitwise
import Mathlib.Data.Nat.Notation

set_option autoImplicit false

/-! Four byte words in the two byte orders a host can have. -/

namespace TonyCat.Library

abbrev Bytes := List UInt8

inductive Endian
  | little
  | big
  deriving DecidableEq, Repr

namespace Endian

def littleBytes (v : UInt32) : Bytes :=
  [UInt8.ofNat v.toNat, UInt8.ofNat (v.toNat / 2 ^ 8), UInt8.ofNat (v.toNat / 2 ^ 16),
    UInt8.ofNat (v.toNat / 2 ^ 24)]

def littleValue (a b c d : UInt8) : UInt32 :=
  UInt32.ofNat (a.toNat + 2 ^ 8 * b.toNat + 2 ^ 16 * c.toNat + 2 ^ 24 * d.toNat)

def bytes : Endian → UInt32 → Bytes
  | .little, v => littleBytes v
  | .big, v => (littleBytes v).reverse

def read : Endian → Bytes → UInt32
  | .little, a :: b :: c :: d :: _ => littleValue a b c d
  | .big, a :: b :: c :: d :: _ => littleValue d c b a
  | _, _ => 0

lemma littleValue_littleBytes (v : UInt32) :
    littleValue (UInt8.ofNat v.toNat) (UInt8.ofNat (v.toNat / 2 ^ 8))
      (UInt8.ofNat (v.toNat / 2 ^ 16)) (UInt8.ofNat (v.toNat / 2 ^ 24)) = v := by
  have hv := v.toNat_lt
  apply UInt32.toNat_inj.mp
  simp only [littleValue, UInt8.toNat_ofNat', UInt32.toNat_ofNat']
  omega

@[simp] lemma bytes_length (e : Endian) (v : UInt32) : (e.bytes v).length = 4 := by
  cases e <;> rfl

@[simp] lemma read_bytes (e : Endian) (v : UInt32) (rest : Bytes) :
    e.read (e.bytes v ++ rest) = v := by
  cases e <;> exact littleValue_littleBytes v

lemma bytes_injective (e : Endian) {v w : UInt32} (h : e.bytes v = e.bytes w) : v = w := by
  have hv := read_bytes e v []
  rw [h, read_bytes] at hv
  exact hv.symm

lemma digit_of_sum {a m : ℕ} (ha : a < 2 ^ 8) : (a + 2 ^ 8 * m) % 2 ^ 8 = a ∧ (a + 2 ^ 8 * m) / 2 ^ 8 = m := by
  constructor
  · rw [Nat.add_mul_mod_self_left, Nat.mod_eq_of_lt ha]
  · rw [Nat.add_mul_div_left _ _ (by decide), Nat.div_eq_of_lt ha, Nat.zero_add]

lemma digits_of_sum {a b c d : ℕ} (ha : a < 2 ^ 8) (hb : b < 2 ^ 8) (hc : c < 2 ^ 8) (hd : d < 2 ^ 8) :
    (a + 2 ^ 8 * b + 2 ^ 16 * c + 2 ^ 24 * d) % 2 ^ 8 = a ∧
    (a + 2 ^ 8 * b + 2 ^ 16 * c + 2 ^ 24 * d) / 2 ^ 8 % 2 ^ 8 = b ∧
    (a + 2 ^ 8 * b + 2 ^ 16 * c + 2 ^ 24 * d) / 2 ^ 16 % 2 ^ 8 = c ∧
    (a + 2 ^ 8 * b + 2 ^ 16 * c + 2 ^ 24 * d) / 2 ^ 24 % 2 ^ 8 = d := by
  have hn : a + 2 ^ 8 * b + 2 ^ 16 * c + 2 ^ 24 * d = a + 2 ^ 8 * (b + 2 ^ 8 * (c + 2 ^ 8 * d)) := by omega
  have h16 : (2 ^ 16 : ℕ) = 2 ^ 8 * 2 ^ 8 := rfl
  have h24 : (2 ^ 24 : ℕ) = 2 ^ 16 * 2 ^ 8 := rfl
  rw [hn, h24, ← Nat.div_div_eq_div_mul, h16, ← Nat.div_div_eq_div_mul, (digit_of_sum ha).1, (digit_of_sum ha).2,
    (digit_of_sum hb).1, (digit_of_sum hb).2, (digit_of_sum hc).1, (digit_of_sum hc).2, Nat.mod_eq_of_lt hd]
  exact ⟨rfl, rfl, rfl, rfl⟩

lemma littleBytes_littleValue (a b c d : UInt8) :
    littleBytes (littleValue a b c d) = [a, b, c, d] := by
  have ha := a.toNat_lt
  have hb := b.toNat_lt
  have hc := c.toNat_lt
  have hd := d.toNat_lt
  have hv : (littleValue a b c d).toNat =
      a.toNat + 2 ^ 8 * b.toNat + 2 ^ 16 * c.toNat + 2 ^ 24 * d.toNat := by
    simp only [littleValue, UInt32.toNat_ofNat']
    omega
  obtain ⟨h₀, h₁, h₂, h₃⟩ := digits_of_sum ha hb hc hd
  rw [← hv] at h₀ h₁ h₂ h₃
  simp only [littleBytes, List.cons.injEq, and_true]
  refine ⟨?_, ?_, ?_, ?_⟩ <;> apply UInt8.toNat_inj.mp <;> simp only [UInt8.toNat_ofNat']
  · exact h₀
  · exact h₁
  · exact h₂
  · exact h₃

lemma bytes_read (e : Endian) (bs : Bytes) (h : 4 ≤ bs.length) : e.bytes (e.read bs) = bs.take 4 := by
  match bs, h with
  | a :: b :: c :: d :: rest, _ => cases e <;> simp [bytes, read, littleBytes_littleValue]

def swapBytes (v : UInt32) : UInt32 :=
  (v >>> 24) ||| ((v &&& 0x00ff0000) >>> 8) ||| ((v &&& 0x0000ff00) <<< 8) ||| (v <<< 24)

lemma and_mask (n k : ℕ) : n &&& (255 * 2 ^ k) = 2 ^ k * (n / 2 ^ k % 2 ^ 8) := by
  have hshift : (255 : ℕ) * 2 ^ k = 255 <<< k := (Nat.shiftLeft_eq _ _).symm
  have hlow : ∀ m, m &&& 255 = m % 2 ^ 8 := fun m => Nat.and_two_pow_sub_one_eq_mod m 8
  rw [hshift, ← hlow, Nat.mul_comm, ← Nat.shiftLeft_eq, ← Nat.shiftRight_eq_div_pow]
  apply Nat.eq_of_testBit_eq
  intro i
  simp only [Nat.testBit_and, Nat.testBit_shiftLeft, Nat.testBit_shiftRight]
  by_cases hi : k ≤ i
  · simp [hi]
  · simp [hi]

lemma or_add {x y k : ℕ} (hx : x < 2 ^ k) : x ||| 2 ^ k * y = x + 2 ^ k * y := by
  rw [Nat.or_comm, ← Nat.two_pow_add_eq_or_of_lt hx, Nat.add_comm]

lemma toNat_swapBytes (v : UInt32) : (swapBytes v).toNat =
    v.toNat / 2 ^ 24 + 2 ^ 8 * (v.toNat / 2 ^ 16 % 2 ^ 8) + 2 ^ 16 * (v.toNat / 2 ^ 8 % 2 ^ 8) +
      2 ^ 24 * (v.toNat % 2 ^ 8) := by
  have hv := v.toNat_lt
  have h₁ : (v >>> 24).toNat = v.toNat / 2 ^ 24 := by
    rw [UInt32.toNat_shiftRight, Nat.shiftRight_eq_div_pow]
    rfl
  have h₂ : ((v &&& 0x00ff0000) >>> 8).toNat = 2 ^ 8 * (v.toNat / 2 ^ 16 % 2 ^ 8) := by
    have hm := and_mask v.toNat 16
    rw [UInt32.toNat_shiftRight, Nat.shiftRight_eq_div_pow, UInt32.toNat_and]
    change (v.toNat &&& 255 * 2 ^ 16) / 2 ^ 8 = _
    rw [hm]
    omega
  have h₃ : ((v &&& 0x0000ff00) <<< 8).toNat = 2 ^ 16 * (v.toNat / 2 ^ 8 % 2 ^ 8) := by
    have hm := and_mask v.toNat 8
    rw [UInt32.toNat_shiftLeft, Nat.shiftLeft_eq, UInt32.toNat_and]
    change (v.toNat &&& 255 * 2 ^ 8) * 2 ^ 8 % 2 ^ 32 = _
    rw [hm]
    omega
  have h₄ : (v <<< 24).toNat = 2 ^ 24 * (v.toNat % 2 ^ 8) := by
    rw [UInt32.toNat_shiftLeft, Nat.shiftLeft_eq]
    change v.toNat * 2 ^ 24 % 2 ^ 32 = _
    omega
  have h₁₂ := or_add (x := v.toNat / 2 ^ 24) (y := v.toNat / 2 ^ 16 % 2 ^ 8) (k := 8) (by omega)
  have h₁₃ := or_add (x := v.toNat / 2 ^ 24 + 2 ^ 8 * (v.toNat / 2 ^ 16 % 2 ^ 8)) (y := v.toNat / 2 ^ 8 % 2 ^ 8)
    (k := 16) (by omega)
  have h₁₄ := or_add (x := v.toNat / 2 ^ 24 + 2 ^ 8 * (v.toNat / 2 ^ 16 % 2 ^ 8) +
    2 ^ 16 * (v.toNat / 2 ^ 8 % 2 ^ 8)) (y := v.toNat % 2 ^ 8) (k := 24) (by omega)
  rw [swapBytes, UInt32.toNat_or, UInt32.toNat_or, UInt32.toNat_or, h₁, h₂, h₃, h₄, h₁₂, h₁₃, h₁₄]

lemma little_bytes_swapBytes (v : UInt32) : little.bytes (swapBytes v) = big.bytes v := by
  have hv := v.toNat_lt
  have htop : v.toNat / 2 ^ 24 < 2 ^ 8 := by omega
  obtain ⟨h₀, h₁, h₂, h₃⟩ := digits_of_sum htop (Nat.mod_lt (v.toNat / 2 ^ 16) (by decide))
    (Nat.mod_lt (v.toNat / 2 ^ 8) (by decide)) (Nat.mod_lt v.toNat (by decide))
  rw [← toNat_swapBytes] at h₀ h₁ h₂ h₃
  simp only [bytes, littleBytes, List.reverse_cons, List.reverse_nil, List.nil_append, List.cons_append,
    List.cons.injEq, and_true]
  refine ⟨?_, ?_, ?_, ?_⟩ <;> apply UInt8.toNat_inj.mp <;> simp only [UInt8.toNat_ofNat']
  · rw [h₀, Nat.mod_eq_of_lt htop]
  · exact h₁
  · exact h₂
  · exact h₃

lemma big_bytes (v : UInt32) : big.bytes v = (little.bytes v).reverse := rfl

lemma swapBytes_little_read {bs : Bytes} (h : 4 ≤ bs.length) : swapBytes (little.read bs) = big.read bs := by
  apply bytes_injective big
  rw [bytes_read big bs h, big_bytes, little_bytes_swapBytes, big_bytes, List.reverse_reverse, bytes_read little bs h]

end Endian

end TonyCat.Library
