import TonyCat.Tools.PaserPb

set_option autoImplicit false

/-! Proto files as they are meant, the layouts in which `open` can read them, and the keys annotated in them. -/

namespace TonyCat.Tools

def isIdent (c : Char) : Bool := c.isAlphanum || c == '_'

def isBlank (c : Char) : Bool := [' ', '\t', '\n', '\x0b', '\x0c'].contains c

abbrev Ident := {t : Text // t ≠ [] ∧ ∀ c ∈ t, isIdent c = true}

abbrev DottedName := {t : Text // t ≠ [] ∧ ∀ c ∈ t, (isIdent c || c == '.') = true}

/-- No keyword that the parser looks for at the front of a line. -/
abbrev TypeName := {t : Text // t ≠ [] ∧ (∀ c ∈ t, (isIdent c || c == '.') = true) ∧
  t ∉ [str "import", str "package", str "syntax", str "repeated"]}

/-- `<`, the types of the keys and the values, and the white space among them. -/
abbrev MapTypes := {t : Text // ∀ c ∈ t, (isIdent c || ['.', ',', '<'].contains c || isBlank c) = true}

/-- A number in any base. -/
abbrev Tag := {t : Text // (∀ c ∈ t, isIdent c = true) ∧ t.head?.any Char.isDigit = true}

abbrev Blank := {t : Text // ∀ c ∈ t, isBlank c = true}

abbrev Gap := {t : Text // t ≠ [] ∧ ∀ c ∈ t, isBlank c = true}

abbrev Line := {t : Text // '\n' ∉ t}

abbrev Indent := {t : Text // ∀ c ∈ t, isBlank c = true ∧ c ≠ '\n'}

inductive FieldRule
  | singular (type : TypeName)
  | optional (gap : Gap) (type : TypeName)
  | repeated (gap : Gap) (type : TypeName)
  | map (types : MapTypes)

structure ProtoField where
  rule : FieldRule
  gap : Gap
  name : Ident
  tag : Tag
  /-- `[..]`, or nothing -/
  options : Text

/-- `key=key_name` or `key=(key_name1,key_name2...)`. -/
inductive KeyComment
  | one (key : Ident)
  | many (key : Ident) (keys : List Ident)

def KeyComment.keys : KeyComment → List Ident
  | .one key => [key]
  | .many key keys => key :: keys

def FieldRule.isKey : FieldRule → Bool
  | .singular type => PbMeta.isKeyType type.1
  | .optional _ type => PbMeta.isKeyType type.1
  | .repeated _ type => PbMeta.isKeyType type.1
  | .map _ => false

/-- A field, or any other line: a comment or a part of one, an option, a line of a nested definition. -/
inductive Item
  | field (field : ProtoField)
  /-- with the indentation of what follows -/
  | line (line : Line) (indent : Indent)

def Item.field? : Item → Option ProtoField
  | .field f => some f
  | .line _ _ => none

def fieldsOf (items : List Item) : List ProtoField := items.filterMap Item.field?

/-- How the line of a key comment is laid out, with what stands behind the keys. -/
structure NoteLayout where
  indent : Indent
  afterSlashes : Indent
  afterWord : Indent
  behind : Line

structure ProtoMessage where
  /-- whatever stands between the message before and this one -/
  lead : List Line
  keyComment : Option KeyComment
  note : NoteLayout
  indent : Indent
  gap : Gap
  name : Ident
  /-- a comment before the brace, or nothing -/
  remark : Line
  items : List Item
  /-- whatever stands behind its brace -/
  closing : Line
  distinct : ((fieldsOf items).map ProtoField.name).Nodup
  declared : ∀ comment ∈ keyComment, ∀ key ∈ comment.keys,
    ∃ field ∈ fieldsOf items, field.name = key ∧ field.rule.isKey

structure ProtoFile where
  preamble : List Line
  /-- the line of the syntax -/
  version : Line
  header : List Line
  /-- with its line -/
  package : Option (DottedName × Line)
  messages : List ProtoMessage
  distinct : (messages.map ProtoMessage.name).Nodup
  /-- the lines behind the last message, if its own last line has an end -/
  trailer : Option (List Line)

def ProtoMessage.keysOf (message : ProtoMessage) : Option (Finset Text) :=
  message.keyComment.map fun comment => (comment.keys.map Subtype.val).toFinset

def keysAbove (fullName : Ident → Text) (messages : List ProtoMessage) (name : Text) : Option (Finset Text) :=
  (messages.find? fun message => message.keyComment.isSome ∧ fullName message.name = name).bind
    ProtoMessage.keysOf

namespace ProtoFile

def scope (file : ProtoFile) : Text := (file.package.map fun package => package.1.1).getD []

def fullName (file : ProtoFile) (name : Ident) : Text :=
  if file.scope = [] then name.1 else file.scope ++ '.' :: name.1

def annotated (file : ProtoFile) : Text → Option (Finset Text) := keysAbove file.fullName file.messages

end ProtoFile

structure FieldLayout where
  beforeEq : Blank
  afterEq : Blank
  beforeSemi : Blank
  afterSemi : Blank

structure MessageLayout where
  beforeBrace : Blank
  afterBrace : Blank
  /-- by the place of the field among the items -/
  field : ℕ → FieldLayout

def Layout := ℕ → MessageLayout

def FieldRule.text : FieldRule → Text
  | .singular type => type.1
  | .optional gap type => str "optional" ++ gap.1 ++ type.1
  | .repeated gap type => str "repeated" ++ gap.1 ++ type.1
  | .map types => str "map" ++ types.1 ++ ['>']

namespace ProtoField

def head (field : ProtoField) : Text := field.rule.text ++ field.gap.1 ++ field.name.1

def value (field : ProtoField) : Text := field.tag.1 ++ field.options

def render (field : ProtoField) (layout : FieldLayout) : Text :=
  field.head ++ layout.beforeEq.1 ++ '=' :: layout.afterEq.1 ++ field.value ++ layout.beforeSemi.1 ++
    ';' :: layout.afterSemi.1

end ProtoField

def Line.render (line : Line) : Text := line.1 ++ ['\n']

def renderLines (lines : List Line) : Text := lines.flatMap Line.render

def Item.render (layout : FieldLayout) : Item → Text
  | .field f => f.render layout
  | .line l indent => Line.render l ++ indent.1

def renderItems : List Item → (ℕ → FieldLayout) → Text
  | [], _ => []
  | item :: items, layout => item.render (layout 0) ++ renderItems items fun j => layout (j + 1)

def KeyComment.text : KeyComment → Text
  | .one key => key.1
  | .many key keys => '(' :: [','].intercalate ((key :: keys).map Subtype.val) ++ [')']

def KeyComment.line (comment : KeyComment) (note : NoteLayout) : Text :=
  note.indent.1 ++ str "//" ++ note.afterSlashes.1 ++ str "user_data" ++ note.afterWord.1 ++ str "key=" ++
    comment.text ++ note.behind.1

namespace ProtoMessage

def above (message : ProtoMessage) : Text :=
  (message.keyComment.map fun comment => comment.line message.note ++ ['\n']).getD []

def title (message : ProtoMessage) : Text :=
  message.indent.1 ++ str "message" ++ message.gap.1 ++ message.name.1 ++ message.remark.1

def opening (message : ProtoMessage) (layout : MessageLayout) : Text :=
  message.above ++ message.title ++ layout.beforeBrace.1 ++ '\x7b' :: layout.afterBrace.1

def ending (message : ProtoMessage) : Text := '\x7d' :: Line.render message.closing

def text (message : ProtoMessage) (layout : MessageLayout) : Text :=
  message.opening layout ++ renderItems message.items layout.field ++ message.ending

def render (message : ProtoMessage) (layout : MessageLayout) : Text := renderLines message.lead ++ message.text layout

end ProtoMessage

def renderMessages : List ProtoMessage → Layout → Text
  | [], _ => []
  | message :: messages, layout => message.render (layout 0) ++ renderMessages messages fun i => layout (i + 1)

def ProtoFile.front (file : ProtoFile) : Text :=
  renderLines file.preamble ++ Line.render file.version ++ renderLines file.header ++
    (file.package.map fun package => Line.render package.2).getD []

def ProtoFile.render (file : ProtoFile) (layout : Layout) : Text :=
  let messages := renderMessages file.messages layout
  file.front ++ match file.trailer with
    | some lines => messages ++ renderLines lines
    | none => messages.dropLast

def Blank.Breaks (gap : Blank) : Prop := '\n' ∈ gap.1

instance (gap : Blank) : Decidable gap.Breaks := inferInstanceAs (Decidable (_ ∈ _))

end TonyCat.Tools
