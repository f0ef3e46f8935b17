import TonyCat.Database.RawData
import Mathlib.Data.Int.Notation

set_option autoImplicit false

/-! The part of protobuf reflection that `db_utils.cpp` sees: a message is a row of scalar common
keys and of tables, a table holds elements, and an element's fields are plain values. -/

namespace TonyCat.Database

open TonyCat.Library

def ascii (s : String) : Bytes :=
  s.toList.map fun c => UInt8.ofNat c.toNat

def isIdentifierByte (b : UInt8) : Bool :=
  (48 ≤ b && b ≤ 57) || (65 ≤ b && b ≤ 90) || b == 95 || (97 ≤ b && b ≤ 122)

def Identifier (name : Bytes) : Prop :=
  name ≠ [] ∧ ∀ b ∈ name, isIdentifierByte b = true

instance (name : Bytes) : Decidable (Identifier name) :=
  inferInstanceAs (Decidable (_ ∧ _))

lemma Identifier.not_mem {name : Bytes} (h : Identifier name) {b : UInt8} (hb : isIdentifierByte b = false) :
    b ∉ name := by
  intro hm
  simp [h.2 b hm] at hb

/-- `google::protobuf::FieldDescriptor::CppType` -/
inductive CppType
  | int32
  | int64
  | uint32
  | uint64
  | double
  | float
  | bool
  | enum
  | string
  | message
  deriving DecidableEq, Repr

def isDBCommonKeyType : CppType → Bool
  | .int32 | .uint32 | .int64 | .uint64 | .string => true
  | _ => false

/-- What one field holds: floating point numbers by their bits, sub-messages (and map fields) by
their own serialization. -/
inductive Value
  | int32 (v : Int32)
  | int64 (v : Int64)
  | uint32 (v : UInt32)
  | uint64 (v : UInt64)
  | double (bits : UInt64)
  | float (bits : UInt32)
  | bool (b : Bool)
  | enum (v : Int32)
  | string (s : Bytes)
  | message (content : Bytes)
  deriving DecidableEq

def Value.cppType : Value → CppType
  | .int32 _ => .int32
  | .int64 _ => .int64
  | .uint32 _ => .uint32
  | .uint64 _ => .uint64
  | .double _ => .double
  | .float _ => .float
  | .bool _ => .bool
  | .enum _ => .enum
  | .string _ => .string
  | .message _ => .message

def Value.default : CppType → Value
  | .int32 => .int32 0
  | .int64 => .int64 0
  | .uint32 => .uint32 0
  | .uint64 => .uint64 0
  | .double => .double 0
  | .float => .float 0
  | .bool => .bool false
  | .enum => .enum 0
  | .string => .string []
  | .message => .message []

@[simp] lemma Value.cppType_default (t : CppType) : (Value.default t).cppType = t := by
  cases t <;> rfl

structure FieldDescriptor where
  name : Bytes
  cppType : CppType
  deriving DecidableEq

structure Descriptor where
  typeName : Bytes
  fields : List FieldDescriptor
  deriving DecidableEq

structure Element where
  descriptor : Descriptor
  values : List Value
  typed : values.map Value.cppType = descriptor.fields.map FieldDescriptor.cppType
  deriving DecidableEq

def Element.fresh (d : Descriptor) : Element where
  descriptor := d
  values := d.fields.map fun f => Value.default f.cppType
  typed := by simp [Function.comp_def]

def Element.fieldValues (e : Element) : List (FieldDescriptor × Value) :=
  e.descriptor.fields.zip e.values

/-- The code outside the repository: protobuf's serializer and the C++ library's text of a
floating point number. -/
structure Runtime where
  serializeAsString : Element → Bytes
  parseFromString : Descriptor → Bytes → Element
  descriptor_parse : ∀ d bs, (parseFromString d bs).descriptor = d
  parse_serialize : ∀ e, parseFromString e.descriptor (serializeAsString e) = e
  serialize_fresh : ∀ d, serializeAsString (Element.fresh d) = []
  textOfDouble : UInt64 → Bytes
  textOfFloat : UInt32 → Bytes

def decimal (n : ℕ) : Bytes :=
  (Nat.toDigits 10 n).map fun c => UInt8.ofNat c.toNat

def textOfInt (z : ℤ) : Bytes :=
  if z < 0 then 45 :: decimal z.natAbs else decimal z.natAbs

/-- The text of one field's value; `blob` is what `DBProtoMessageToStringAsBlob` returns for the
message that holds the field. -/
def dBProtoMessageToString (rt : Runtime) (blob : Bytes) : Value → Bytes
  | .double bits => rt.textOfDouble bits
  | .float bits => rt.textOfFloat bits
  | .enum v => textOfInt v.toInt
  | .message _ => blob
  | .string s => s
  | .int64 v => textOfInt v.toInt
  | .int32 v => textOfInt v.toInt
  | .uint64 v => textOfInt v.toNat
  | .uint32 v => textOfInt v.toNat
  | .bool b => textOfInt (if b then 1 else 0)

def dBProtoMessageToStringAsBlob (rt : Runtime) (message : Element) : Bytes :=
  rt.serializeAsString message

structure DbPbFieldKey where
  mapMesssageKeys : List (Bytes × List Bytes)

def gPbKeys : DbPbFieldKey where
  mapMesssageKeys :=
    [(ascii "Db.UserCount", [ascii "count_type", ascii "count_subtype"]),
     (ascii "Db.ClientCache", [ascii "cache_type"]),
     (ascii "Db.ClientLoginInfo", [ascii "login_tick", ascii "login_channel"])]

def isDBKey (keys : DbPbFieldKey) (message : Descriptor) (fieldDescriptor : FieldDescriptor) : Bool :=
  isDBCommonKeyType fieldDescriptor.cppType &&
    ((keys.mapMesssageKeys.lookup message.typeName).getD []).contains fieldDescriptor.name

def dbKeyFields (keys : DbPbFieldKey) (d : Descriptor) : List FieldDescriptor :=
  d.fields.filter (isDBKey keys d)

structure CommonKey where
  name : Bytes
  value : Value
  isKey : isDBCommonKeyType value.cppType = true
  deriving DecidableEq

structure Table where
  name : Bytes
  isRepeated : Bool
  descriptor : Descriptor
  elems : List Element
  typed : ∀ e ∈ elems, e.descriptor = descriptor
  single : isRepeated = false → elems.length ≤ 1
  deriving DecidableEq

inductive Field
  | key (f : CommonKey)
  | table (f : Table)
  deriving DecidableEq

inductive FieldDecl
  | key (name : Bytes) (type : CppType)
  | table (name : Bytes) (isRepeated : Bool) (descriptor : Descriptor)
  deriving DecidableEq

def Field.decl : Field → FieldDecl
  | .key f => .key f.name f.value.cppType
  | .table f => .table f.name f.isRepeated f.descriptor

def FieldDecl.name : FieldDecl → Bytes
  | .key name _ => name
  | .table name _ _ => name

abbrev Message := List Field

def Message.decls (m : Message) : List FieldDecl :=
  m.map Field.decl

@[simp] lemma Message.decls_nil : Message.decls [] = [] := rfl

@[simp] lemma Message.decls_cons (f : Field) (m : Message) :
    Message.decls (f :: m) = f.decl :: Message.decls m := rfl

def Table.put (f : Table) (e : Element) (he : e.descriptor = f.descriptor) : Table where
  name := f.name
  isRepeated := f.isRepeated
  descriptor := f.descriptor
  elems := if f.isRepeated then f.elems ++ [e] else [e]
  typed := by
    intro x hx
    split at hx
    · rcases List.mem_append.mp hx with hx | hx
      · exact f.typed x hx
      · rw [List.mem_singleton.mp hx, he]
    · rw [List.mem_singleton.mp hx, he]
  single := by
    intro h
    simp [h]

lemma Table.typed_nil (d : Descriptor) : ∀ e ∈ ([] : List Element), e.descriptor = d := List.forall_mem_nil _

lemma Table.single_nil : false = false → ([] : List Element).length ≤ 1 := fun _ => Nat.zero_le 1

end TonyCat.Database
