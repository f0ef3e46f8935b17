import TonyCat.Library.ByteOrder
import Mathlib.Data.List.Perm.Basic

set_option autoImplicit false

/-! Length-prefixed records and their unique decodability. -/

namespace TonyCat.Library

def record (e : Endian) (xs : Bytes) : Bytes :=
  e.bytes (UInt32.ofNat xs.length) ++ xs

def records (e : Endian) (xss : List Bytes) : Bytes :=
  xss.flatMap (record e)

def Short (xss : List Bytes) : Prop :=
  ∀ xs ∈ xss, xs.length < 2 ^ 32

@[simp] lemma record_length (e : Endian) (xs : Bytes) : (record e xs).length = 4 + xs.length := by
  simp [record]

@[simp] lemma records_nil (e : Endian) : records e [] = [] := rfl

@[simp] lemma records_cons (e : Endian) (xs : Bytes) (xss : List Bytes) :
    records e (xs :: xss) = record e xs ++ records e xss := rfl

@[simp] lemma records_append (e : Endian) (xss yss : List Bytes) :
    records e (xss ++ yss) = records e xss ++ records e yss := by
  simp [records]

lemma records_eq_nil (e : Endian) {xss : List Bytes} (h : records e xss = []) : xss = [] := by
  cases xss with
  | nil => rfl
  | cons xs xss =>
    have hl := congrArg List.length h
    simp at hl

lemma record_read (e : Endian) (xs rest : Bytes) (h : xs.length < 2 ^ 32) :
    (e.read (record e xs ++ rest)).toNat = xs.length := by
  rw [record, List.append_assoc, Endian.read_bytes, UInt32.toNat_ofNat']
  exact Nat.mod_eq_of_lt h

lemma record_append_inj (e : Endian) {xs ys a b : Bytes} (hx : xs.length < 2 ^ 32)
    (hy : ys.length < 2 ^ 32) (h : record e xs ++ a = record e ys ++ b) : xs = ys ∧ a = b := by
  have hl : xs.length = ys.length := by
    rw [← record_read e xs a hx, h, record_read e ys b hy]
  obtain ⟨hr, ha⟩ := List.append_inj h (by simp [hl])
  exact ⟨(List.append_inj hr (by simp)).2, ha⟩

lemma records_append_inj (e : Endian) {xss yss : List Bytes} {a b : Bytes} (hx : Short xss)
    (hy : Short yss) (hl : xss.length = yss.length)
    (h : records e xss ++ a = records e yss ++ b) : xss = yss ∧ a = b := by
  induction xss generalizing yss with
  | nil =>
    obtain rfl : yss = [] := List.length_eq_zero_iff.mp hl.symm
    exact ⟨rfl, by simpa using h⟩
  | cons xs xss ih =>
    cases yss with
    | nil => simp at hl
    | cons ys yss =>
      simp only [records_cons, List.append_assoc] at h
      obtain ⟨rfl, ht⟩ := record_append_inj e (hx xs (by simp)) (hy ys (by simp)) h
      obtain ⟨rfl, ha⟩ := ih (fun zs hz => hx zs (by simp [hz])) (fun zs hz => hy zs (by simp [hz]))
        (by simpa using hl) ht
      exact ⟨rfl, ha⟩

lemma delimited_inj {α : Type*} {d : α} {xs ys a b : List α} (hx : d ∉ xs) (hy : d ∉ ys)
    (h : xs ++ d :: a = ys ++ d :: b) : xs = ys ∧ a = b := by
  induction xs generalizing ys with
  | nil =>
    cases ys with
    | nil => exact ⟨rfl, by simpa using h⟩
    | cons y ys =>
      obtain ⟨rfl, _⟩ := List.cons.inj h
      exact (hy (by simp)).elim
  | cons x xs ih =>
    cases ys with
    | nil =>
      obtain ⟨rfl, _⟩ := List.cons.inj h
      exact (hx (by simp)).elim
    | cons y ys =>
      obtain ⟨rfl, ht⟩ := List.cons.inj h
      obtain ⟨rfl, ha⟩ := ih (fun hm => hx (by simp [hm])) (fun hm => hy (by simp [hm])) ht
      exact ⟨rfl, ha⟩

end TonyCat.Library
