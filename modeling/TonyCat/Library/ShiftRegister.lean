import TonyCat.Library.ByteOrder

set_option autoImplicit false

/-! A register of 32 bits that takes in bytes by a table of 256 words, and the changes of its input that it shows. -/

namespace TonyCat.Library

def tableIndex (s : UInt32) (b : UInt8) : ℕ := ((s ^^^ b.toUInt32) &&& 0xff).toNat

def shiftByte (table : ℕ → UInt32) (s : UInt32) (b : UInt8) : UInt32 := table (tableIndex s b) ^^^ (s >>> 8)

def TopInjective (table : ℕ → UInt32) : Prop :=
  ∀ i < 256, ∀ j < 256, (table i).toNat >>> 24 = (table j).toNat >>> 24 → i = j

variable {table : ℕ → UInt32} {s s' : UInt32} {b b' : UInt8}

lemma tableIndex_eq (s : UInt32) (b : UInt8) : tableIndex s b = (s.toNat % 2 ^ 8) ^^^ b.toNat := by
  have hb : b.toNat &&& 255 = b.toNat := by
    rw [Nat.and_two_pow_sub_one_eq_mod _ 8, Nat.mod_eq_of_lt b.toNat_lt]
  rw [tableIndex, UInt32.toNat_and, UInt32.toNat_xor, UInt8.toNat_toUInt32]
  change (s.toNat ^^^ b.toNat) &&& 255 = _
  rw [Nat.and_xor_distrib_right, hb, Nat.and_two_pow_sub_one_eq_mod _ 8]

lemma tableIndex_lt (s : UInt32) (b : UInt8) : tableIndex s b < 256 := by
  rw [tableIndex_eq]
  exact Nat.xor_lt_two_pow (n := 8) (Nat.mod_lt _ (by decide)) b.toNat_lt

lemma byte_eq_of_tableIndex (h : tableIndex s b = tableIndex s b') : b = b' := by
  rw [tableIndex_eq, tableIndex_eq] at h
  exact UInt8.toNat_inj.mp (Nat.xor_right_injective h)

lemma low_eq_of_tableIndex (h : tableIndex s b = tableIndex s' b) : s.toNat % 2 ^ 8 = s'.toNat % 2 ^ 8 := by
  rw [tableIndex_eq, tableIndex_eq] at h
  exact Nat.xor_left_injective h

lemma toNat_shiftByte (table : ℕ → UInt32) (s : UInt32) (b : UInt8) :
    (shiftByte table s b).toNat = (table (tableIndex s b)).toNat ^^^ s.toNat >>> 8 := by
  rw [shiftByte, UInt32.toNat_xor, UInt32.toNat_shiftRight]
  rfl

lemma shiftByte_shiftRight (ht : TopInjective table) {j : ℕ} (hj : j ≤ 24)
    (h : (shiftByte table s b).toNat >>> j = (shiftByte table s' b').toNat >>> j) :
    tableIndex s b = tableIndex s' b' ∧ s.toNat >>> (j + 8) = s'.toNat >>> (j + 8) := by
  have hhigh : ∀ s : UInt32, s.toNat >>> 8 >>> 24 = 0 := by
    intro s
    rw [← Nat.shiftRight_add, Nat.shiftRight_eq_div_pow]
    exact Nat.div_eq_of_lt s.toNat_lt
  have htop : (shiftByte table s b).toNat >>> 24 = (shiftByte table s' b').toNat >>> 24 := by
    have hsum : j + (24 - j) = 24 := by omega
    rw [← hsum, Nat.shiftRight_add, Nat.shiftRight_add, h]
  rw [toNat_shiftByte, toNat_shiftByte, Nat.shiftRight_xor_distrib, Nat.shiftRight_xor_distrib, hhigh, hhigh,
    Nat.xor_zero, Nat.xor_zero] at htop
  have hindex := ht _ (tableIndex_lt s b) _ (tableIndex_lt s' b') htop
  rw [toNat_shiftByte, toNat_shiftByte, hindex, Nat.shiftRight_xor_distrib, Nat.shiftRight_xor_distrib] at h
  refine ⟨hindex, ?_⟩
  rw [Nat.add_comm, Nat.shiftRight_add, Nat.shiftRight_add]
  exact Nat.xor_right_injective h

lemma shiftByte_injective (ht : TopInjective table) (h : shiftByte table s b = shiftByte table s' b) : s = s' := by
  obtain ⟨hindex, hhigh⟩ := shiftByte_shiftRight ht (Nat.zero_le 24) (congrArg (fun t => t.toNat >>> 0) h)
  have hlow := low_eq_of_tableIndex hindex
  rw [Nat.zero_add, Nat.shiftRight_eq_div_pow, Nat.shiftRight_eq_div_pow] at hhigh
  apply UInt32.toNat_inj.mp
  rw [← Nat.div_add_mod s.toNat (2 ^ 8), ← Nat.div_add_mod s'.toNat (2 ^ 8), hhigh, hlow]

lemma foldl_shiftByte_injective (ht : TopInjective table) (bs : Bytes)
    (h : bs.foldl (shiftByte table) s = bs.foldl (shiftByte table) s') : s = s' := by
  induction bs generalizing s s' with
  | nil => exact h
  | cons b bs ih => exact shiftByte_injective ht (ih h)

/-- The induction is on the bytes from the front: what is known of the register behind them goes down by eight bits
with each byte, so that four bytes use up all 32. -/
lemma foldl_shiftByte_window (ht : TopInjective table) {w w' : Bytes} (hlen : w.length = w'.length) {j : ℕ}
    (hj : j + 8 * w.length ≤ 32)
    (h : (w.foldl (shiftByte table) s).toNat >>> j = (w'.foldl (shiftByte table) s').toNat >>> j) :
    s.toNat >>> (j + 8 * w.length) = s'.toNat >>> (j + 8 * w.length) ∧ (s = s' → w = w') := by
  induction w generalizing w' s s' with
  | nil =>
    obtain rfl : w' = [] := List.eq_nil_of_length_eq_zero hlen.symm
    exact ⟨h, fun _ => rfl⟩
  | cons b w ih =>
    cases w' with
    | nil => cases hlen
    | cons b' w' =>
      rw [List.length_cons] at hj
      obtain ⟨hhigh, htail⟩ := ih (Nat.succ.inj hlen) (by omega) h
      obtain ⟨hindex, hshift⟩ := shiftByte_shiftRight ht (by omega) hhigh
      refine ⟨hshift, fun hs => ?_⟩
      subst hs
      obtain rfl := byte_eq_of_tableIndex hindex
      rw [htail rfl]

theorem foldl_shiftByte_ne (ht : TopInjective table) (pre : Bytes) {w w' : Bytes} (post : Bytes)
    (hlen : w.length = w'.length) (hfour : w.length ≤ 4) (hne : w ≠ w') :
    (pre ++ (w ++ post)).foldl (shiftByte table) s ≠ (pre ++ (w' ++ post)).foldl (shiftByte table) s := by
  intro h
  simp only [List.foldl_append] at h
  have hwindow := foldl_shiftByte_injective ht post h
  exact hne ((foldl_shiftByte_window ht hlen (j := 0) (by omega) (by rw [hwindow])).2 rfl)

/-- No number comes twice; `seen` has the bits of those before. -/
def allNew (seen : ℕ) : List ℕ → Bool
  | [] => true
  | n :: ns => !seen.testBit n && allNew (seen ||| 2 ^ n) ns

lemma nodup_of_allNew {seen : ℕ} {ns : List ℕ} (h : allNew seen ns = true) :
    (∀ n ∈ ns, seen.testBit n = false) ∧ ns.Nodup := by
  induction ns generalizing seen with
  | nil => exact ⟨fun n hn => absurd hn List.not_mem_nil, List.nodup_nil⟩
  | cons n ns ih =>
    obtain ⟨hnew, hrest⟩ := Bool.and_eq_true_iff.mp h
    obtain ⟨hunseen, hnodup⟩ := ih hrest
    have hboth : ∀ m ∈ ns, seen.testBit m = false ∧ n ≠ m := by
      intro m hm
      have hbits := hunseen m hm
      rw [Nat.testBit_or, Bool.or_eq_false_iff, Nat.testBit_two_pow] at hbits
      exact ⟨hbits.1, of_decide_eq_false hbits.2⟩
    refine ⟨?_, List.nodup_cons.mpr ⟨fun hm => (hboth n hm).2 rfl, hnodup⟩⟩
    rintro m (_ | ⟨_, hm⟩)
    · exact Bool.not_eq_true' _ ▸ hnew
    · exact (hboth m hm).1

lemma topInjective_of_allNew {words : List UInt32} (hlen : words.length = 256)
    (h : allNew 0 (words.map fun word => word.toNat >>> 24) = true) : TopInjective fun i => words.getD i 0 := by
  intro i hi j hj heq
  have hnodup := (nodup_of_allNew h).2
  rw [← hlen] at hi hj
  dsimp only at heq
  rw [List.getD_eq_getElem words 0 hi, List.getD_eq_getElem words 0 hj] at heq
  have hi' : i < (words.map fun word => word.toNat >>> 24).length := by rwa [List.length_map]
  have hj' : j < (words.map fun word => word.toNat >>> 24).length := by rwa [List.length_map]
  have hmap : (words.map fun word => word.toNat >>> 24)[i] = (words.map fun word => word.toNat >>> 24)[j] := by
    rw [List.getElem_map, List.getElem_map, heq]
  exact (List.getElem_inj hnodup).mp hmap

end TonyCat.Library
