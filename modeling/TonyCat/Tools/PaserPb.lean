import Mathlib.Data.Finset.Dedup
import Mathlib.Data.List.DropRight
import Mathlib.Logic.Function.Basic
import TonyCat.Library.Delimited
import TonyCat.Library.LineFeed

set_option autoImplicit false

/-! `paser_pb.py`, and the keys that `gen_code` of `pb_gen_cpp.py` writes. -/

namespace TonyCat.Tools

open TonyCat.Library

abbrev Text := List Char

def str (s : String) : Text := s.toList

/-- By the characters of the text, not by all there are. -/
instance (priority := 2000) decidableForallMem (t : Text) (p : Char → Prop) [DecidablePred p] :
    Decidable (∀ c ∈ t, p c) := List.decidableBAll p t

def isSpace (c : Char) : Bool :=
  let n := c.toNat
  (9 ≤ n && n ≤ 13) || (28 ≤ n && n ≤ 32) || n == 133 || n == 160 || n == 5760 || (8192 ≤ n && n ≤ 8202) ||
    n == 8232 || n == 8233 || n == 8239 || n == 8287 || n == 12288

def strip (t : Text) : Text := (t.dropWhile isSpace).rdropWhile isSpace

def cut (sub t : Text) : Option (Text × Text) := (findSlice sub t).map fun n => (t.take n, t.drop (n + sub.length))

/-- What `open` does to the ends of lines. -/
def universalNewlines : Text → Text
  | [] => []
  | '\r' :: '\n' :: t => '\n' :: universalNewlines t
  | '\r' :: t => '\n' :: universalNewlines t
  | c :: t => c :: universalNewlines t

def readlines (file : Text) : List Text := linesFrom '\n' [] (universalNewlines file)

structure FieldMeta where
  name : Text := []
  type : Text := []
  tag : Text := []
  opt : Text := []
  comment : List Text := []

structure PbMeta where
  name : Text := []
  pb_type : Text := []
  namespace_ : Text := []
  fields : List FieldMeta := []
  comment : List Text := []

def PbMeta.getPbMetaFieldByName (pbMeta : PbMeta) (name : Text) : Option FieldMeta :=
  pbMeta.fields.find? fun field => field.name = name

def nonEmpty (word : Text) : List Text := if word = [] then [] else [word]

/-- A word with `=` is taken apart, and then it is put down once more as a whole. -/
def splitWord (word : Text) : List Text :=
  let sides := match cut ['='] word with
    | some (wordFront, wordBehind) => nonEmpty wordFront ++ nonEmpty wordBehind
    | none => []
  let word := match cut [';'] word with
    | some (front, _) => front
    | none => word
  sides ++ nonEmpty word

def splitLine (line : Text) : List Text :=
  let (line_data_define, line_comment) := (cut ['/', '/'] line).getD (line, [])
  ((strip line_data_define).splitOn ' ').flatMap splitWord ++
    if line_comment = [] then []
    else ['/', '/'] :: ((strip line_comment).splitOn ' ').filter fun word => word ≠ []

/-- Of the words of a line of a proto2 message; `none` for an `IndexError`. -/
def proto2Field (line_words : List Text) : Option FieldMeta :=
  line_words[0]?.bind fun opt => line_words[1]?.bind fun type => line_words[2]?.bind fun name =>
    line_words[3]?.map fun tag => ⟨name, type, tag, opt, line_words.drop 5⟩

def proto3Field (line_words : List Text) : Option FieldMeta :=
  let offset_opt := if line_words[0]? = some (str "repeated") then 1 else 0
  let opt := if line_words[0]? = some (str "repeated") then str "repeated" else str "optional"
  line_words[0 + offset_opt]?.bind fun type => line_words[1 + offset_opt]?.bind fun name =>
    line_words[2 + offset_opt]?.map fun tag => ⟨name, type, tag, opt, line_words.drop (4 + offset_opt)⟩

def loadFiledLine (pb_version pb_type line : Text) : Option FieldMeta :=
  match cut ['>'] line with
  | some (front, behind) =>
    let line_words := splitLine behind
    line_words[0]?.bind fun name => line_words[1]?.map fun tag =>
      ⟨name, front ++ ['>'], tag, str "optional", line_words.drop 3⟩
  | none =>
    let line_words := splitLine line
    if pb_type = str "message" then
      if pb_version = str "\"proto2\"" ∧ 4 < line_words.length then proto2Field line_words
      else if pb_version = str "\"proto3\"" ∧ 2 < line_words.length then proto3Field line_words
      else some {}
    else if pb_type = str "enum" ∧ 2 < line_words.length then
      line_words[0]?.bind fun name => line_words[2]?.map fun type => { name := name, type := type }
    else some {}

structure Loading where
  pb_namespace : Text := []
  pb_version : Text := []
  pb_metas : List PbMeta := []
  cur_braces_count : ℕ := 0
  cur_pb_meta : PbMeta := {}
  msg_name : Text := []
  msg_type : Text := []
  msg_comments : List Text := []

namespace Loading

def loadDefinition (s : Loading) (line : Text) (line_words : List Text) : Option Loading :=
  match s.cur_braces_count with
  | 0 =>
    if (cut ['/', '/'] line).isSome then some { s with msg_comments := line_words }
    else if '\x7b' ∈ line then
      some { s with
        cur_pb_meta := { s.cur_pb_meta with
          name := s.msg_name, pb_type := s.msg_type, comment := s.msg_comments, namespace_ := s.pb_namespace }
        msg_comments := []
        cur_braces_count := 1 }
    else if 1 < line_words.length then
      line_words[0]?.bind fun type => line_words[1]?.map fun name => { s with msg_type := type, msg_name := name }
    else some s
  | 1 =>
    if '\x7d' ∈ line then
      if 0 < s.cur_pb_meta.name.length then
        some { s with cur_braces_count := 0, pb_metas := s.pb_metas ++ [s.cur_pb_meta], cur_pb_meta := {} }
      else some { s with cur_braces_count := 0 }
    else
      (loadFiledLine s.pb_version s.cur_pb_meta.pb_type line).map fun field =>
        { s with cur_pb_meta := { s.cur_pb_meta with fields := s.cur_pb_meta.fields ++ [field] } }
  | _ => some s

/-- One turn of the loop of `LoadPbFile`. -/
def loadLine (s : Loading) (line : Text) : Option Loading :=
  let line_words := splitLine line
  match line_words with
  | [] => some s
  | first :: rest =>
    if first = str "import" then some s
    else if first = str "package" then rest[0]?.map fun name => { s with pb_namespace := name }
    else if first = str "syntax" then
      match line_words[2]? with
      | some pb_version => { s with pb_version := pb_version }.loadDefinition line line_words
      | none => some s
    else s.loadDefinition line line_words

end Loading

def loadPbFile (file : Text) : Option (List PbMeta) :=
  ((readlines file).foldlM Loading.loadLine {}).map Loading.pb_metas

namespace PbMeta

/-- `key=(key_name1,key_name2...)` or `key=key_name`. -/
def keys (key : Text) : List Text :=
  let keys_line := match cut ['='] key with
    | some (_, behind) => behind
    | none => key
  let keys_line := match keys_line with
    | '(' :: rest =>
      match cut [')'] rest with
      | some (front, _) => front
      | none => rest.dropLast
    | _ => keys_line
  keys_line.splitOn ','

/-- `none` for a message that is no table with keys. -/
def keyNames (pbMeta : PbMeta) : Option (List Text) :=
  if pbMeta.comment[1]? = some (str "user_data") then
    match pbMeta.comment[2]? with
    | some key => if str "key" <+: key then some (keys key) else none
    | none => none
  else none

def isKeyType (type : Text) : Bool :=
  (str "int").isPrefixOf type || (str "uint").isPrefixOf type || (str "string").isPrefixOf type

def isKey (pbMeta : PbMeta) (key_name : Text) : Bool :=
  match pbMeta.getPbMetaFieldByName key_name with
  | some field => isKeyType field.type
  | none => false

def msgName (pbMeta : PbMeta) : Text :=
  if pbMeta.namespace_ = [] then pbMeta.name else pbMeta.namespace_ ++ '.' :: pbMeta.name

end PbMeta

/-- The map that the written code builds; a second entry for a name takes the place of the first. -/
def mapMesssageKeys (data_metas : List PbMeta) : Text → Option (Finset Text) :=
  data_metas.foldl (fun keysOf pbMeta =>
    match pbMeta.keyNames with
    | some keys => Function.update keysOf pbMeta.msgName (some (keys.takeWhile pbMeta.isKey).toFinset)
    | none => keysOf) fun _ => none

def genCode (file : Text) : Option (Text → Option (Finset Text)) := (loadPbFile file).map mapMesssageKeys

end TonyCat.Tools
