import TonyCat.Library.ByteOrder

set_option autoImplicit false

/-! Base 128 varints: no varint begins another one. -/

namespace TonyCat.Library

def varintAux : ℕ → ℕ → Bytes
  | 0, _ => []
  | fuel + 1, n =>
    if n < 128 then [UInt8.ofNat n] else UInt8.ofNat (n % 128 + 128) :: varintAux fuel (n / 128)

def varint (n : ℕ) : Bytes :=
  varintAux (n + 1) n

lemma varintAux_append_inj {fuel fuel' : ℕ} :
    ∀ {m n : ℕ} {a b : Bytes}, m < fuel → n < fuel' →
      varintAux fuel m ++ a = varintAux fuel' n ++ b → m = n ∧ a = b := by
  induction fuel generalizing fuel' with
  | zero =>
    intro m n a b hm
    omega
  | succ fuel ih =>
    intro m n a b hm hn h
    obtain ⟨fuel', rfl⟩ : ∃ k, fuel' = k + 1 := ⟨fuel' - 1, by omega⟩
    by_cases hsm : m < 128 <;> by_cases hsn : n < 128
    · simp only [varintAux, if_pos hsm, if_pos hsn, List.cons_append, List.nil_append,
        List.cons.injEq] at h
      have hb := congrArg UInt8.toNat h.1
      simp only [UInt8.toNat_ofNat'] at hb
      exact ⟨by omega, h.2⟩
    · simp only [varintAux, if_pos hsm, if_neg hsn, List.cons_append, List.cons.injEq] at h
      have hb := congrArg UInt8.toNat h.1
      simp only [UInt8.toNat_ofNat'] at hb
      omega
    · simp only [varintAux, if_neg hsm, if_pos hsn, List.cons_append, List.cons.injEq] at h
      have hb := congrArg UInt8.toNat h.1
      simp only [UInt8.toNat_ofNat'] at hb
      omega
    · simp only [varintAux, if_neg hsm, if_neg hsn, List.cons_append, List.cons.injEq] at h
      have hb := congrArg UInt8.toNat h.1
      simp only [UInt8.toNat_ofNat'] at hb
      obtain ⟨hd, hab⟩ := ih (by omega) (by omega) h.2
      exact ⟨by omega, hab⟩

lemma varint_append_inj {m n : ℕ} {a b : Bytes} (h : varint m ++ a = varint n ++ b) : m = n ∧ a = b :=
  varintAux_append_inj (by omega) (by omega) h

lemma varint_ne_nil (n : ℕ) : varint n ≠ [] := by
  rw [varint, varintAux]
  split <;> simp

lemma length_varintAux_le {groups : ℕ} (fuel : ℕ) {n : ℕ} (h : n < 128 ^ (groups + 1)) :
    (varintAux fuel n).length ≤ groups + 1 := by
  induction groups generalizing fuel n with
  | zero =>
    cases fuel with
    | zero => exact Nat.zero_le _
    | succ fuel =>
      rw [varintAux, if_pos (by omega)]
      exact le_refl _
  | succ groups ih =>
    cases fuel with
    | zero => exact Nat.zero_le _
    | succ fuel =>
      rw [varintAux]
      split
      · exact Nat.succ_le_succ (Nat.zero_le _)
      · have hdiv : n / 128 < 128 ^ (groups + 1) := Nat.div_lt_of_lt_mul (by rw [← pow_succ']; exact h)
        exact Nat.succ_le_succ (ih fuel hdiv)

lemma length_varint_le {groups n : ℕ} (h : n < 128 ^ (groups + 1)) : (varint n).length ≤ groups + 1 :=
  length_varintAux_le _ h

end TonyCat.Library
