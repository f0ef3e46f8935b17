import TonyCat.Database.UserData
import TonyCat.Utility.HttpBoundary
import Mathlib.Data.Finset.Card
import Mathlib.Order.Interval.Finset.Nat

set_option autoImplicit false

/-! The text of a field in a column: `DBProtoMessageToString` and back with `DBStringToProtoMessage`. -/

namespace TonyCat.Database

open TonyCat.Library
open TonyCat.Http (number strtoll atoll)

/-- A cast of what `strtol` returns. -/
def atoi (value : Bytes) : Int32 := (strtoll value).toInt32

/-- `::strtoull` in base 10: the sign counts modulo 2^64, unless the number does not fit without it. -/
def strtoull (value : Bytes) : UInt64 :=
  if (number value).natAbs < 2 ^ 64 then UInt64.ofInt (number value) else UInt64.ofNat (2 ^ 64 - 1)

def fieldRecord (number : ℕ) (content : Bytes) : Bytes :=
  varint (number * 8 + 2) ++ (varint content.length ++ content)

lemma Element.length_values (e : Element) : e.values.length = e.descriptor.fields.length := by
  simpa using congrArg List.length e.typed

def Element.getValue (e : Element) (i : Fin e.descriptor.fields.length) : Value :=
  e.values.get (i.cast e.length_values.symm)

def Element.set (e : Element) (i : Fin e.descriptor.fields.length) (v : Value)
    (hv : v.cppType = (e.descriptor.fields.get i).cppType) : Element where
  descriptor := e.descriptor
  values := e.values.set i v
  typed := by
    have hi : i < (e.descriptor.fields.map FieldDescriptor.cppType).length := by simp
    rw [List.map_set, e.typed, hv, List.get_eq_getElem, ← List.getElem_map FieldDescriptor.cppType (h := hi),
      List.set_getElem_self]

/-- What else is outside the repository: `atof`, the numbers of fields, and `ParseFromArray` into the sub-message
that is the `i`-th field of a message, whose serialization it returns. -/
structure MessageRuntime extends Runtime where
  atof : Bytes → UInt64
  floatOfDouble : UInt64 → UInt32
  fieldNumber : Descriptor → ℕ → ℕ
  /-- the numbers of the fields that the type of the sub-message declares -/
  declared : Descriptor → ℕ → List ℕ
  parseFromArray : Descriptor → ℕ → Bytes → Int32 → Bytes
  serialize_single : ∀ d (i : Fin d.fields.length) content hv, content ≠ [] →
    serializeAsString ((Element.fresh d).set i (.message content) hv) = fieldRecord (fieldNumber d i) content
  length_declared : ∀ d i, (declared d i).length ≤ 65535
  parse_nil : ∀ d i, parseFromArray d i [] 0 = []
  /-- a field that is not declared is kept as it is -/
  parse_unknown : ∀ d i number content, 0 < number → number < 2 ^ 29 → number ∉ declared d i →
    (fieldRecord number content).length < 2 ^ 31 →
    parseFromArray d i (fieldRecord number content) (Int32.ofNat (fieldRecord number content).length) = fieldRecord number content
  /-- one field in the bytes sets no other field -/
  parse_single : ∀ d i number content number' content',
    parseFromArray d i (fieldRecord number content) (Int32.ofNat (fieldRecord number content).length) = fieldRecord number' content' →
    number' = number

namespace MessageRuntime

variable (pb : MessageRuntime)

/-- `DBStringToProtoMessageAsBlob`: the sub-message from the text. -/
def dBStringToProtoMessageAsBlob (d : Descriptor) (i : ℕ) (value : Bytes) : Bytes :=
  pb.parseFromArray d i value (Int32.ofNat value.length)

/-- What `DBStringToProtoMessage` sets the field to. -/
def valueOfString (d : Descriptor) (i : ℕ) (value : Bytes) : CppType → Value
  | .double => .double (pb.atof value)
  | .float => .float (pb.floatOfDouble (pb.atof value))
  | .enum => .enum (atoi value)
  | .message => .message (pb.dBStringToProtoMessageAsBlob d i value)
  | .string => .string value
  | .int64 => .int64 (atoll value)
  | .int32 => .int32 (atoi value)
  | .uint64 => .uint64 (strtoull value)
  | .uint32 => .uint32 (UInt32.ofInt (atoll value).toInt)
  | .bool => .bool (atoi value ≠ 0)

lemma cppType_valueOfString (d : Descriptor) (i : ℕ) (value : Bytes) (t : CppType) :
    (pb.valueOfString d i value t).cppType = t := by
  cases t <;> rfl

def dBStringToProtoMessage (message : Element) (i : Fin message.descriptor.fields.length) (value : Bytes) : Element :=
  message.set i (pb.valueOfString message.descriptor i value (message.descriptor.fields.get i).cppType)
    (pb.cppType_valueOfString ..)

def columnText (message : Element) (i : Fin message.descriptor.fields.length) : Bytes :=
  dBProtoMessageToString pb.toRuntime (dBProtoMessageToStringAsBlob pb.toRuntime message) (message.getValue i)

def Proper (e : Element) : Prop :=
  ∀ i content, e.getValue i = .message content →
    content.length < 2 ^ 31 ∧ pb.parseFromArray e.descriptor i content (Int32.ofNat content.length) = content

def Restores (e : Element) (i : Fin e.descriptor.fields.length) : Prop :=
  (pb.dBStringToProtoMessage (Element.fresh e.descriptor) i (pb.columnText e i)).getValue i = e.getValue i

def RestoresEvery (d : Descriptor) (i : ℕ) : Prop :=
  ∀ e : Element, e.descriptor = d → pb.Proper e → ∀ hi : i < e.descriptor.fields.length, pb.Restores e ⟨i, hi⟩

end MessageRuntime

lemma number_decimal (n : ℕ) : number (decimal n) = n :=
  (congrArg number (Http.text_toString n)).symm.trans (Http.number_toString n)

lemma number_textOfInt (z : ℤ) : number (textOfInt z) = z := by
  rw [textOfInt]
  split
  case isTrue hneg =>
    have hdigits : Http.digits (decimal z.natAbs) = z.natAbs :=
      (congrArg Http.digits (Http.text_toString _)).symm.trans (Http.digits_toString _)
    have hsign : number (45 :: decimal z.natAbs) = -Http.digits (decimal z.natAbs) := rfl
    rw [hsign, hdigits]
    omega
  case isFalse hpos =>
    rw [number_decimal]
    omega

lemma textOfInt_ne_nil (z : ℤ) : textOfInt z ≠ [] := by
  have hdecimal : decimal z.natAbs ≠ [] := by
    rw [decimal, ne_eq, List.map_eq_nil_iff]
    exact Nat.toDigits_ne_nil
  rw [textOfInt]
  split_ifs
  · exact List.cons_ne_nil _ _
  · exact hdecimal

lemma strtoll_textOfInt {z : ℤ} (hlow : -2 ^ 63 ≤ z) (hhigh : z < 2 ^ 63) : strtoll (textOfInt z) = Int64.ofInt z := by
  have hclamp : max (-2 ^ 63) (min (2 ^ 63 - 1) z) = z := by omega
  rw [strtoll, number_textOfInt, hclamp]

lemma atoll_int64 (v : Int64) : atoll (textOfInt v.toInt) = v := by
  rw [atoll, strtoll_textOfInt v.le_toInt v.toInt_lt, Int64.ofInt_toInt]

lemma atoi_int32 (v : Int32) : atoi (textOfInt v.toInt) = v := by
  obtain ⟨hlow, hhigh⟩ := ProtoWire.int32_range v
  rw [atoi, strtoll_textOfInt hlow hhigh, Int64.toInt32_ofInt, Int32.ofInt_toInt]

lemma atoll_uint32 (v : UInt32) : UInt32.ofInt (atoll (textOfInt v.toNat)).toInt = v := by
  have hlt : (v.toNat : ℤ) < 2 ^ 63 := by have := v.toNat_lt; omega
  rw [atoll, strtoll_textOfInt (by omega) hlt, Int64.toInt_ofInt_of_le (by omega) hlt]
  apply UInt32.toNat_inj.mp
  have := v.toNat_lt
  rw [UInt32.ofInt, UInt32.toNat_ofNat']
  omega

lemma strtoull_uint64 (v : UInt64) : strtoull (textOfInt v.toNat) = v := by
  have hlt : (v.toNat : ℤ).natAbs < 2 ^ 64 := v.toNat_lt
  rw [strtoull, number_textOfInt, if_pos hlt]
  apply UInt64.toNat_inj.mp
  rw [UInt64.ofInt, UInt64.toNat_ofNat']
  omega

lemma atoi_bool (b : Bool) : decide (atoi (textOfInt (if b then 1 else 0)) ≠ 0) = b := by
  cases b <;> decide

namespace Element

variable (e : Element) (i : Fin e.descriptor.fields.length)

lemma getElem?_values : e.values[i.val]? = some (e.getValue i) :=
  List.getElem?_eq_getElem (by rw [e.length_values]; exact i.isLt)

lemma cppType_getValue : (e.getValue i).cppType = (e.descriptor.fields.get i).cppType := by
  have htyped := congrArg (fun types => types[i.val]?) e.typed
  rw [List.get_eq_getElem]
  simpa only [List.getElem?_map, e.getElem?_values, List.getElem?_eq_getElem i.isLt, Option.map_some, Option.some.injEq]
    using htyped

lemma getValue_fresh (d : Descriptor) (i : Fin d.fields.length) :
    (fresh d).getValue i = Value.default (d.fields.get i).cppType := by
  have hvalue : (fresh d).values[i.val]? = some (Value.default (d.fields.get i).cppType) := by
    rw [fresh, List.getElem?_map, List.getElem?_eq_getElem i.isLt]
    rfl
  exact Option.some.inj (((fresh d).getElem?_values i).symm.trans hvalue)

variable {v : Value} (hv : v.cppType = (e.descriptor.fields.get i).cppType)

lemma getValue_set : (e.set i v hv).getValue i = v := by
  have hvalue : (e.set i v hv).values[i.val]? = some v := List.getElem?_set_self (by rw [e.length_values]; exact i.isLt)
  exact Option.some.inj (((e.set i v hv).getElem?_values i).symm.trans hvalue)

lemma getValue_set_of_ne {j : Fin e.descriptor.fields.length} (h : i ≠ j) : (e.set i v hv).getValue j = e.getValue j := by
  have hvalue : (e.set i v hv).values[j.val]? = e.values[j.val]? := List.getElem?_set_ne fun heq => h (Fin.ext heq)
  exact Option.some.inj (((e.set i v hv).getElem?_values j).symm.trans (hvalue.trans (e.getElem?_values j)))

end Element

namespace MessageRuntime

variable (pb : MessageRuntime)

lemma restores_iff (e : Element) (i : Fin e.descriptor.fields.length) : pb.Restores e i ↔
    pb.valueOfString e.descriptor i (pb.columnText e i) (e.getValue i).cppType = e.getValue i := by
  have hset : (pb.dBStringToProtoMessage (Element.fresh e.descriptor) i (pb.columnText e i)).getValue i =
      pb.valueOfString e.descriptor i (pb.columnText e i) (e.descriptor.fields.get i).cppType :=
    Element.getValue_set ..
  rw [Restores, hset, e.cppType_getValue]

lemma restores_of_ne_message {e : Element} {i : Fin e.descriptor.fields.length} (hdouble : (e.getValue i).cppType ≠ .double)
    (hfloat : (e.getValue i).cppType ≠ .float) (hmessage : (e.getValue i).cppType ≠ .message) : pb.Restores e i := by
  rw [restores_iff, columnText]
  cases hv : e.getValue i with
  | double bits => exact absurd (congrArg Value.cppType hv) hdouble
  | float bits => exact absurd (congrArg Value.cppType hv) hfloat
  | message content => exact absurd (congrArg Value.cppType hv) hmessage
  | string s => rfl
  | int32 v => exact congrArg Value.int32 (atoi_int32 v)
  | enum v => exact congrArg Value.enum (atoi_int32 v)
  | int64 v => exact congrArg Value.int64 (atoll_int64 v)
  | uint32 v => exact congrArg Value.uint32 (atoll_uint32 v)
  | uint64 v => exact congrArg Value.uint64 (strtoull_uint64 v)
  | bool b => exact congrArg Value.bool (atoi_bool b)

lemma restores_message_iff {e : Element} {i : Fin e.descriptor.fields.length} {content : Bytes}
    (hv : e.getValue i = .message content) :
    pb.Restores e i ↔ pb.dBStringToProtoMessageAsBlob e.descriptor i (pb.serializeAsString e) = content := by
  rw [restores_iff, columnText, hv]
  exact Value.message.injEq .. ▸ Iff.rfl

lemma exists_undeclared (d : Descriptor) (i : ℕ) :
    ∃ number, 0 < number ∧ number < 70000 ∧ number ∉ pb.declared d i ∧ number ≠ pb.fieldNumber d i := by
  have hcard : ((pb.fieldNumber d i :: pb.declared d i).toFinset).card < (Finset.Ico 1 70000).card := by
    have hle := List.toFinset_card_le (pb.fieldNumber d i :: pb.declared d i)
    have hlength := pb.length_declared d i
    rw [Nat.card_Ico]
    rw [List.length_cons] at hle
    omega
  obtain ⟨number, hmem, hnot⟩ := Finset.exists_mem_notMem_of_card_lt_card hcard
  obtain ⟨hpos, hlt⟩ := Finset.mem_Ico.mp hmem
  rw [List.mem_toFinset, List.mem_cons, not_or] at hnot
  exact ⟨number, hpos, hlt, hnot.2, hnot.1⟩

lemma length_fieldRecord_nil {number : ℕ} (hnumber : number < 70000) : (fieldRecord number []).length < 2 ^ 31 := by
  have htag : (varint (number * 8 + 2)).length ≤ 2 + 1 := length_varint_le (by omega)
  have hzero : (varint 0).length = 1 := rfl
  simp only [fieldRecord, List.length_append, List.length_nil, hzero]
  omega

/-- The text is the whole message, and what its sub-message has under another number does not come out of that. -/
lemma exists_not_restores (d : Descriptor) (i : Fin d.fields.length) (hmessage : (d.fields.get i).cppType = .message) :
    ∃ content hv, pb.Proper ((Element.fresh d).set i (.message content) hv) ∧
      ¬ pb.Restores ((Element.fresh d).set i (.message content) hv) i := by
  obtain ⟨number, hpos, hlt, hdeclared, hother⟩ := pb.exists_undeclared d i
  have hv : (Value.message (fieldRecord number [])).cppType = (d.fields.get i).cppType := hmessage.symm
  have hlength : (fieldRecord number []).length < 2 ^ 31 := length_fieldRecord_nil hlt
  refine ⟨fieldRecord number [], hv, fun j content hj => ?_, fun hrestores => ?_⟩
  · by_cases hji : i = j
    · subst hji
      obtain rfl := Value.message.inj ((Element.getValue_set (Element.fresh d) i hv).symm.trans hj)
      exact ⟨hlength, pb.parse_unknown d i number [] hpos (by omega) hdeclared hlength⟩
    · have hdefault : Value.default (d.fields.get j).cppType = .message content :=
        (Element.getValue_fresh d j).symm.trans ((Element.getValue_set_of_ne (Element.fresh d) i hv hji).symm.trans hj)
      have hnil : content = [] := by
        cases hkind : (d.fields.get j).cppType <;> rw [hkind] at hdefault <;> cases hdefault
        rfl
      subst hnil
      exact ⟨by decide, pb.parse_nil d j⟩
  · have hvalue := Element.getValue_set (Element.fresh d) i hv
    have hbytes := pb.serialize_single d i _ hv (List.append_ne_nil_of_left_ne_nil (varint_ne_nil _) _)
    have hparse := (pb.restores_message_iff (e := (Element.fresh d).set i _ hv) (i := i) hvalue).mp hrestores
    rw [hbytes] at hparse
    exact hother (pb.parse_single d i _ _ number [] hparse)

theorem restoresEvery_iff {d : Descriptor} {i : ℕ} {f : FieldDescriptor} (hf : d.fields[i]? = some f)
    (hfloating : f.cppType ≠ .double ∧ f.cppType ≠ .float) : pb.RestoresEvery d i ↔ f.cppType ≠ .message := by
  obtain ⟨hi, rfl⟩ := List.getElem?_eq_some_iff.mp hf
  constructor
  · intro hrestores hmessage
    obtain ⟨content, hv, hproper, hnot⟩ := pb.exists_not_restores d ⟨i, hi⟩ hmessage
    exact hnot (hrestores _ rfl hproper hi)
  · rintro hmessage e rfl - hi
    have hkind := e.cppType_getValue ⟨i, hi⟩
    exact pb.restores_of_ne_message (hkind ▸ hfloating.1) (hkind ▸ hfloating.2) (hkind ▸ hmessage)

end MessageRuntime

namespace ProtoWire

/-- A runtime for messages whose sub-messages are of type `Db.UserData`, on bytes with nothing of it but `user_id`. -/
noncomputable def messageRuntime : MessageRuntime where
  toRuntime := runtime (fun _ => ascii "0.000000") (fun _ => ascii "0.000000")
  atof _ := 0
  floatOfDouble _ := 0
  fieldNumber _ i := i + 1
  declared _ _ := [1, 2, 3, 4, 5]
  parseFromArray _ _ value _ := value
  serialize_single d i content hv hne := by
    have hfields := fields_set_default (d.fields.map FieldDescriptor.cppType) 1 (i := i) (by simp) (.message content)
    have hdefault : Value.message content ≠ Value.default .message := fun heq => hne (Value.message.inj heq)
    rw [List.map_map, field, Value.cppType, if_neg hdefault, Nat.add_comm 1] at hfields
    exact hfields
  length_declared _ _ := by decide
  parse_nil _ _ := rfl
  parse_unknown _ _ _ _ _ _ _ _ := rfl
  parse_single d i number content number' content' h := by
    have htag := (varint_append_inj h).1
    exact (Nat.eq_of_mul_eq_mul_right (Nat.succ_pos 7) (Nat.add_right_cancel htag)).symm

end ProtoWire

namespace UserData

def kvData : Descriptor where
  typeName := ascii "Db.KVData"
  fields := [⟨ascii "user_data", .message⟩]

/-- `count_type` of `Db.UserCount` is kept, and `user_data` of `Db.KVData` is not. -/
theorem restoresEvery_countType :
    ProtoWire.messageRuntime.RestoresEvery userCount 0 ∧ ¬ ProtoWire.messageRuntime.RestoresEvery kvData 0 :=
  ⟨(ProtoWire.messageRuntime.restoresEvery_iff (d := userCount) (f := ⟨ascii "count_type", .int32⟩) rfl (by decide)).mpr
      (by decide),
    fun h => (ProtoWire.messageRuntime.restoresEvery_iff (d := kvData) (f := ⟨ascii "user_data", .message⟩) rfl
      (by decide)).mp h rfl⟩

def kvDataOf (content : Bytes) : Element where
  descriptor := kvData
  values := [.message content]
  typed := rfl

/-- A `Db.KVData` whose user has the id `u`: what is read back has the whole sub-message as the id. -/
theorem not_restoresEvery_userData : ¬ ProtoWire.messageRuntime.RestoresEvery kvData 0 := by
  intro hrestores
  have hone := hrestores (kvDataOf [0x0A, 0x01, 0x75]) rfl (fun i content hi => ?_) (by decide)
  · have hbytes : Value.message [0x0A, 0x03, 0x0A, 0x01, 0x75] = Value.message [0x0A, 0x01, 0x75] := hone
    cases hbytes
  · refine ⟨?_, rfl⟩
    obtain ⟨i, hlt⟩ := i
    obtain rfl : i = 0 := Nat.lt_one_iff.mp hlt
    cases hi
    decide

end UserData

end TonyCat.Database
