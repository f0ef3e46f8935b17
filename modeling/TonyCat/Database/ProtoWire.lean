import TonyCat.Library.Varint
import TonyCat.Database.Protobuf

set_option autoImplicit false

/-! The wire format behind `SerializeAsString`: a `Runtime` in which every field at its default is
left out. The fields of an element type are numbered from 1 in the order of their declaration, as
in `db_data.proto`. -/

namespace TonyCat.Database

open TonyCat.Library

namespace ProtoWire

def wireType : CppType → ℕ
  | .int32 | .int64 | .uint32 | .uint64 | .bool | .enum => 0
  | .double => 1
  | .string | .message => 2
  | .float => 5

def signed (z : ℤ) : Bytes :=
  varint (z % 2 ^ 64).toNat

def payload : Value → Bytes
  | .int32 v => signed v.toInt
  | .int64 v => signed v.toInt
  | .uint32 v => varint v.toNat
  | .uint64 v => varint v.toNat
  | .double bits => Endian.little.bytes bits.toUInt32 ++ Endian.little.bytes (bits >>> 32).toUInt32
  | .float bits => Endian.little.bytes bits
  | .bool b => varint (if b then 1 else 0)
  | .enum v => signed v.toInt
  | .string s => varint s.length ++ s
  | .message content => varint content.length ++ content

def field (number : ℕ) (v : Value) : Bytes :=
  if v = Value.default v.cppType then [] else varint (number * 8 + wireType v.cppType) ++ payload v

def fields : ℕ → List Value → Bytes
  | _, [] => []
  | number, v :: vs => field number v ++ fields (number + 1) vs

def serialize (e : Element) : Bytes :=
  fields 1 e.values

lemma varint_length_append_inj {s t a b : Bytes}
    (h : varint s.length ++ s ++ a = varint t.length ++ t ++ b) : s = t ∧ a = b := by
  rw [List.append_assoc, List.append_assoc] at h
  obtain ⟨hl, ht⟩ := varint_append_inj h
  exact List.append_inj ht hl

lemma signed_append_inj {y z : ℤ} {a b : Bytes} (hy : -2 ^ 63 ≤ y ∧ y < 2 ^ 63)
    (hz : -2 ^ 63 ≤ z ∧ z < 2 ^ 63) (h : signed y ++ a = signed z ++ b) : y = z ∧ a = b := by
  obtain ⟨hn, hab⟩ := varint_append_inj h
  exact ⟨by omega, hab⟩

lemma int32_range (v : Int32) : -2 ^ 63 ≤ v.toInt ∧ v.toInt < 2 ^ 63 := by
  have h₁ := v.le_toInt
  have h₂ := v.toInt_lt
  omega

lemma payload_append_inj {v w : Value} {a b : Bytes} (ht : v.cppType = w.cppType)
    (h : payload v ++ a = payload w ++ b) : v = w ∧ a = b := by
  cases v <;> cases w <;> simp only [Value.cppType, reduceCtorEq] at ht
  case int32.int32 x y =>
    obtain ⟨he, hab⟩ := signed_append_inj (int32_range x) (int32_range y) h
    exact ⟨by rw [Int32.toInt_inj.mp he], hab⟩
  case int64.int64 x y =>
    obtain ⟨he, hab⟩ := signed_append_inj ⟨x.le_toInt, x.toInt_lt⟩ ⟨y.le_toInt, y.toInt_lt⟩ h
    exact ⟨by rw [Int64.toInt_inj.mp he], hab⟩
  case uint32.uint32 x y =>
    obtain ⟨he, hab⟩ := varint_append_inj h
    exact ⟨by rw [UInt32.toNat_inj.mp he], hab⟩
  case uint64.uint64 x y =>
    obtain ⟨he, hab⟩ := varint_append_inj h
    exact ⟨by rw [UInt64.toNat_inj.mp he], hab⟩
  case double.double x y =>
    simp only [payload, List.append_assoc] at h
    obtain ⟨hlow, hrest⟩ := List.append_inj h (by simp)
    obtain ⟨hhigh, hab⟩ := List.append_inj hrest (by simp)
    refine ⟨?_, hab⟩
    have hl := congrArg UInt32.toNat (Endian.bytes_injective _ hlow)
    have hh := congrArg UInt32.toNat (Endian.bytes_injective _ hhigh)
    simp only [UInt64.toNat_toUInt32, UInt64.toNat_shiftRight, Nat.shiftRight_eq_div_pow] at hl hh
    have he : x.toNat = y.toNat := by
      have hx := x.toNat_lt
      have hy := y.toNat_lt
      simp at hh
      omega
    rw [UInt64.toNat_inj.mp he]
  case float.float x y =>
    simp only [payload] at h
    obtain ⟨he, hab⟩ := List.append_inj h (by simp)
    exact ⟨by rw [Endian.bytes_injective _ he], hab⟩
  case bool.bool x y =>
    obtain ⟨he, hab⟩ := varint_append_inj h
    refine ⟨?_, hab⟩
    cases x <;> cases y <;> simp at he ⊢
  case enum.enum x y =>
    obtain ⟨he, hab⟩ := signed_append_inj (int32_range x) (int32_range y) h
    exact ⟨by rw [Int32.toInt_inj.mp he], hab⟩
  case string.string x y =>
    obtain ⟨he, hab⟩ := varint_length_append_inj h
    exact ⟨by rw [he], hab⟩
  case message.message x y =>
    obtain ⟨he, hab⟩ := varint_length_append_inj h
    exact ⟨by rw [he], hab⟩

lemma wireType_lt (t : CppType) : wireType t < 8 := by
  cases t <;> simp [wireType]

lemma fields_cases (number : ℕ) (vs : List Value) : fields number vs = [] ∨
    ∃ k t rest, number ≤ k ∧ t < 8 ∧ fields number vs = varint (k * 8 + t) ++ rest := by
  induction vs generalizing number with
  | nil => exact Or.inl rfl
  | cons v vs ih =>
    by_cases hv : v = Value.default v.cppType
    · rw [fields, field, if_pos hv, List.nil_append]
      rcases ih (number + 1) with h | ⟨k, t, rest, hk, ht, h⟩
      · exact Or.inl h
      · exact Or.inr ⟨k, t, rest, by omega, ht, h⟩
    · rw [fields, field, if_neg hv, List.append_assoc]
      exact Or.inr ⟨number, _, _, Nat.le_refl _, wireType_lt _, rfl⟩

lemma fields_ne_tag (number : ℕ) (vs : List Value) {t : ℕ} (ht : t < 8) (rest : Bytes) :
    fields (number + 1) vs ≠ varint (number * 8 + t) ++ rest := by
  intro h
  rcases fields_cases (number + 1) vs with he | ⟨k, t', rest', hk, ht', he⟩
  · rw [he] at h
    exact varint_ne_nil _ (List.append_eq_nil_iff.mp h.symm).1
  · rw [he] at h
    have hn := (varint_append_inj h).1
    omega

lemma fields_inj (vs : List Value) : ∀ (number : ℕ) (ws : List Value),
    vs.map Value.cppType = ws.map Value.cppType → fields number vs = fields number ws → vs = ws := by
  induction vs with
  | nil =>
    intro number ws ht _
    simpa using ht.symm
  | cons v vs ih =>
    intro number ws ht h
    cases ws with
    | nil => simp at ht
    | cons w ws =>
      simp only [List.map_cons, List.cons.injEq] at ht
      by_cases hv : v = Value.default v.cppType <;> by_cases hw : w = Value.default w.cppType
      · rw [fields, fields, field, field, if_pos hv, if_pos hw] at h
        rw [ih _ _ ht.2 h, hv, hw, ht.1]
      · rw [fields, fields, field, field, if_pos hv, if_neg hw, List.append_assoc] at h
        exact (fields_ne_tag _ _ (wireType_lt _) _ h).elim
      · rw [fields, fields, field, field, if_neg hv, if_pos hw, List.append_assoc] at h
        exact (fields_ne_tag _ _ (wireType_lt _) _ h.symm).elim
      · rw [fields, fields, field, field, if_neg hv, if_neg hw, List.append_assoc, List.append_assoc] at h
        obtain ⟨rfl, hrest⟩ := payload_append_inj ht.1 (varint_append_inj h).2
        rw [ih _ _ ht.2 hrest]

lemma serialize_inj {e e' : Element} (hd : e.descriptor = e'.descriptor) (h : serialize e = serialize e') :
    e = e' := by
  have ht : e.values.map Value.cppType = e'.values.map Value.cppType := by rw [e.typed, e'.typed, hd]
  have hv := fields_inj e.values 1 e'.values ht h
  cases e
  cases e'
  simp only at hd hv
  simp [hd, hv]

lemma fields_default (ts : List CppType) (number : ℕ) : fields number (ts.map Value.default) = [] := by
  induction ts generalizing number with
  | nil => rfl
  | cons t ts ih => simp [fields, field, ih]

lemma fields_set_default (ts : List CppType) (number : ℕ) {i : ℕ} (hi : i < ts.length) (v : Value) :
    fields number ((ts.map Value.default).set i v) = field (number + i) v := by
  induction ts generalizing number i with
  | nil => cases hi
  | cons t ts ih =>
    cases i with
    | zero => rw [List.map_cons, List.set_cons_zero, fields, fields_default, List.append_nil, Nat.add_zero]
    | succ i =>
      have hdefault : field number (Value.default t) = [] := by rw [field, Value.cppType_default, if_pos rfl]
      rw [List.map_cons, List.set_cons_succ, fields, hdefault, List.nil_append, ih _ (Nat.lt_of_succ_lt_succ hi)]
      congr 1
      omega

lemma serialize_fresh (d : Descriptor) : serialize (Element.fresh d) = [] := by
  have h := fields_default (d.fields.map FieldDescriptor.cppType) 1
  simpa [serialize, Element.fresh, Function.comp_def] using h

open Classical in
noncomputable def parse (d : Descriptor) (bs : Bytes) : Element :=
  if h : ∃ e : Element, e.descriptor = d ∧ serialize e = bs then h.choose else Element.fresh d

lemma descriptor_parse (d : Descriptor) (bs : Bytes) : (parse d bs).descriptor = d := by
  unfold parse
  split
  · next h => exact h.choose_spec.1
  · rfl

lemma parse_serialize (e : Element) : parse e.descriptor (serialize e) = e := by
  have h : ∃ e' : Element, e'.descriptor = e.descriptor ∧ serialize e' = serialize e := ⟨e, rfl, rfl⟩
  rw [parse, dif_pos h]
  exact serialize_inj h.choose_spec.1 h.choose_spec.2

noncomputable def runtime (textOfDouble : UInt64 → Bytes) (textOfFloat : UInt32 → Bytes) : Runtime where
  serializeAsString := serialize
  parseFromString := parse
  descriptor_parse := descriptor_parse
  parse_serialize := parse_serialize
  serialize_fresh := serialize_fresh
  textOfDouble := textOfDouble
  textOfFloat := textOfFloat

end ProtoWire

end TonyCat.Database
