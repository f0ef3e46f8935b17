import Mathlib.Data.BitVec
import Mathlib.Logic.Function.Iterate

set_option autoImplicit false

/-! Registers that shift one bit out at a time and take a polynomial in for each bit that is set, and several of their
steps as one look-up in a table. -/

namespace TonyCat.Library

variable {w : ℕ}

def Linear (f : BitVec w → BitVec w) : Prop := ∀ x y, f (x ^^^ y) = f x ^^^ f y

def feedback (out : BitVec w → Bool) (move : BitVec w → BitVec w) (poly x : BitVec w) : BitVec w :=
  if out x then move x ^^^ poly else move x

def stepRight : BitVec w → BitVec w → BitVec w := feedback (fun x => x.getLsbD 0) fun x => x >>> 1

def stepLeft : BitVec w → BitVec w → BitVec w := feedback BitVec.msb fun x => x <<< 1

variable {out : BitVec w → Bool} {move : BitVec w → BitVec w} {poly x part : BitVec w} {n : ℕ}

lemma Linear.iterate {f : BitVec w → BitVec w} (hf : Linear f) (n : ℕ) : Linear f^[n] := by
  induction n with
  | zero => exact fun x y => rfl
  | succ n ih =>
    intro x y
    rw [Function.iterate_succ_apply, Function.iterate_succ_apply, Function.iterate_succ_apply, hf, ih]

lemma feedback_eq (x : BitVec w) : feedback out move poly x = move x ^^^ if out x then poly else 0#w := by
  rw [feedback]
  cases out x with
  | false => exact (BitVec.xor_zero ..).symm
  | true => rfl

lemma linear_feedback (hout : ∀ x y, out (x ^^^ y) = (out x ^^ out y)) (hmove : Linear move) (poly : BitVec w) :
    Linear (feedback out move poly) := by
  intro x y
  have hmask : (if out (x ^^^ y) then poly else 0#w) = (if out x then poly else 0#w) ^^^ if out y then poly else 0#w := by
    rw [hout]
    cases out x <;> cases out y <;> simp
  rw [feedback_eq, feedback_eq, feedback_eq, hmove, hmask]
  ac_rfl

lemma linear_stepRight (poly : BitVec w) : Linear (stepRight poly) :=
  linear_feedback (fun _ _ => BitVec.getLsbD_xor) (fun x y => BitVec.ushiftRight_xor_distrib x y 1) poly

lemma linear_stepLeft (poly : BitVec w) : Linear (stepLeft poly) :=
  linear_feedback (fun _ _ => BitVec.msb_xor) (fun x y => BitVec.shiftLeft_xor_distrib x y 1) poly

lemma iterate_stepRight_of_clear (h : ∀ i < n, x.getLsbD i = false) : (stepRight poly)^[n] x = x >>> n := by
  induction n with
  | zero => rw [Function.iterate_zero_apply, BitVec.ushiftRight_zero]
  | succ n ih =>
    have hout : (x >>> n).getLsbD 0 = false := by
      rw [BitVec.getLsbD_ushiftRight]
      exact h n (Nat.lt_succ_self n)
    rw [Function.iterate_succ_apply', ih fun i hi => h i (Nat.lt_succ_of_lt hi), stepRight, feedback, hout,
      if_neg Bool.false_ne_true, ← BitVec.shiftRight_add]

lemma iterate_stepLeft_of_clear (h : ∀ i < n, x.getMsbD i = false) : (stepLeft poly)^[n] x = x <<< n := by
  induction n with
  | zero => rw [Function.iterate_zero_apply, BitVec.shiftLeft_zero]
  | succ n ih =>
    have hout : (x <<< n).msb = false := by
      rw [BitVec.msb_shiftLeft]
      exact h n (Nat.lt_succ_self n)
    rw [Function.iterate_succ_apply', ih fun i hi => h i (Nat.lt_succ_of_lt hi), stepLeft, feedback, hout,
      if_neg Bool.false_ne_true, ← BitVec.shiftLeft_add]

variable (poly) in
lemma iterate_stepRight_split (hbits : ∀ i < n, part.getLsbD i = x.getLsbD i) (hrest : part >>> n = 0#w) :
    (stepRight poly)^[n] x = (stepRight poly)^[n] part ^^^ (x >>> n) := by
  have hclear : ∀ i < n, (part ^^^ x).getLsbD i = false := by
    intro i hi
    rw [BitVec.getLsbD_xor, hbits i hi, Bool.xor_self]
  have hsplit : x = part ^^^ (part ^^^ x) := by rw [← BitVec.xor_assoc, BitVec.xor_self, BitVec.zero_xor]
  conv_lhs => rw [hsplit]
  rw [(linear_stepRight poly).iterate n, iterate_stepRight_of_clear hclear, BitVec.ushiftRight_xor_distrib, hrest,
    BitVec.zero_xor]

variable (poly) in
lemma iterate_stepLeft_split (hbits : ∀ i < n, part.getMsbD i = x.getMsbD i) (hrest : part <<< n = 0#w) :
    (stepLeft poly)^[n] x = (stepLeft poly)^[n] part ^^^ (x <<< n) := by
  have hclear : ∀ i < n, (part ^^^ x).getMsbD i = false := by
    intro i hi
    rw [BitVec.getMsbD_xor, hbits i hi, Bool.xor_self]
  have hsplit : x = part ^^^ (part ^^^ x) := by rw [← BitVec.xor_assoc, BitVec.xor_self, BitVec.zero_xor]
  conv_lhs => rw [hsplit]
  rw [(linear_stepLeft poly).iterate n, iterate_stepLeft_of_clear hclear, BitVec.shiftLeft_xor_distrib, hrest,
    BitVec.zero_xor]

end TonyCat.Library
