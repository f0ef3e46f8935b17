import TonyCat.Tools.ProtoLayout

set_option autoImplicit false

/-! The lines that the parser passes over, and the layouts in which it finds the keys. -/

namespace TonyCat.Tools

open TonyCat.Library

/-- Words of a comment that `gen_code` takes for an annotation of keys. -/
def annotates (words : List Text) : Bool :=
  decide (words[0]? = some (str "user_data")) && words[1]?.any (str "key").isPrefixOf

/-- Where the next line stands: outside of all braces, perhaps behind an annotation or behind a name; or inside. -/
inductive Place
  | outside (annotated named : Bool)
  | inside
  deriving DecidableEq

namespace Place

/-- `none` if the line changes the package or the version, opens a block with keys or without a name, or is refused. -/
def after (place : Place) (line : Text) : Option Place :=
  match splitLine line with
  | [] => some place
  | first :: rest =>
    if first = str "import" then some place
    else if first = str "package" ∨ first = str "syntax" then none
    else match place with
      | .outside annotated named =>
        if (cut ['/', '/'] line).isSome then some (.outside (annotates rest) named)
        else if '\x7b' ∈ line then if named ∧ ¬ annotated then some .inside else none
        else some (.outside annotated (named || rest ≠ []))
      | .inside =>
        if '\x7d' ∈ line then some (.outside false true)
        else if (loadFiledLine (str "\"proto3\"") (str "message") line).isSome then some .inside
        else none

def read (place : Place) (text : Text) : Option Place := (linesFrom '\n' [] text).foldlM Place.after place

end Place

/-- A line of a message that gives no field with the name of one of the keys. -/
def Harmless (keys : List Ident) (line : Text) : Prop :=
  match splitLine (line ++ ['\n']) with
  | [] => True
  | first :: _ => first = str "import" ∨ first ∉ [str "package", str "syntax"] ∧ '\x7d' ∉ line ∧
      ∃ field ∈ loadFiledLine (str "\"proto3\"") (str "message") (line ++ ['\n']), ∀ key ∈ keys, field.name ≠ key.1

def FieldRule.isMap : FieldRule → Bool
  | .map _ => true
  | _ => false

/-- The text can stand behind the name, on its line. -/
def FieldRule.Bears (rule : FieldRule) (text : Text) : Prop := '\x7d' ∉ text ∧ ('>' ∈ text → rule.isMap = true)

/-- The parser splits lines at spaces only. -/
def Gap.Splits (gap : Gap) : Prop := ∀ c ∈ gap.1, c = ' '

def FieldRule.Splits : FieldRule → Prop
  | .singular _ => True
  | .optional gap _ => gap.Splits
  | .repeated gap _ => gap.Splits
  | .map types => '\n' ∉ types.1

structure ProtoField.Splits (field : ProtoField) : Prop where
  rule : field.rule.Splits
  gap : field.gap.Splits

structure ProtoField.Suits (field : ProtoField) (keys behind : List Ident) : Prop where
  splits : field.Splits
  options : field.rule.Bears field.options
  /-- The parser takes `optional` for the type and the type for the name. -/
  optional : ∀ gap type, field.rule = .optional gap type → field.name ∉ keys ∧ ∀ key ∈ behind, type.1 ≠ key.1

namespace FieldLayout

/-- Nothing but a space can stand behind the name. -/
def KeepsName (layout : FieldLayout) : Prop :=
  ¬ layout.beforeEq.Breaks ∧ (layout.beforeEq.1 = [] ∨ ∃ gap, layout.beforeEq.1 = ' ' :: gap)

/-- The options stand on the line of the name. -/
def KeepsOptions (layout : FieldLayout) (field : ProtoField) : Prop :=
  field.options = [] ∨ '\n' ∉ field.options ∧ ¬ layout.afterEq.Breaks

/-- The next field is on another line, with at most the semicolon before it, and then a space at least. -/
def FreesNext (layout : FieldLayout) : Prop :=
  layout.afterSemi.Breaks ∨
    layout.beforeSemi.Breaks ∧ ∃ gap k, layout.afterSemi.1 = gap ++ List.replicate (k + 1) ' ' ∧ ' ' ∉ gap

/-- The closing brace is on another line than the name, and no part of the word that the semicolon begins. -/
def FreesEnd (layout : FieldLayout) : Prop :=
  layout.afterSemi.Breaks ∨ layout.beforeSemi.Breaks ∧ ' ' ∈ layout.afterSemi.1 ∨
    ¬ layout.beforeSemi.Breaks ∧ layout.afterEq.Breaks

/-- The line behind the field does no harm, on the line that the field leaves it. -/
def Carries (layout : FieldLayout) (field : ProtoField) (keys : List Ident) (line : Text) : Prop :=
  if layout.afterSemi.Breaks then Harmless keys line
  else if layout.beforeSemi.Breaks then Harmless keys (';' :: layout.afterSemi.1 ++ line)
  else if layout.afterEq.Breaks then
    Harmless keys (field.value ++ layout.beforeSemi.1 ++ ';' :: layout.afterSemi.1 ++ line)
  else field.rule.Bears line

end FieldLayout

/-- The keys whose fields are among the items. -/
def keysIn (keys : List Ident) (items : List Item) : List Ident :=
  ((fieldsOf items).map ProtoField.name).filter (· ∈ keys)

/-- Up to the last item, in whose layout something else is asked. -/
def ItemsFit (keys : List Ident) (Ends : FieldLayout → Prop) : List Item → (ℕ → FieldLayout) → Prop
  | [], _ => True
  | [.field field], layout =>
    field.Suits keys [] ∧ (layout 0).KeepsName ∧ (layout 0).KeepsOptions field ∧ Ends (layout 0)
  | .field field :: .field next :: items, layout =>
    field.Suits keys (keysIn keys (.field next :: items)) ∧ (layout 0).KeepsName ∧ (layout 0).KeepsOptions field ∧
      (layout 0).FreesNext ∧ ItemsFit keys Ends (.field next :: items) fun j => layout (j + 1)
  | .field field :: .line line _ :: items, layout =>
    field.Suits keys (keysIn keys items) ∧ (layout 0).KeepsName ∧ (layout 0).KeepsOptions field ∧
      (layout 0).Carries field (keysIn keys items) line.1 ∧ ItemsFit keys Ends items fun j => layout (j + 2)
  | .line line _ :: items, layout =>
    Harmless (keysIn keys items) line.1 ∧ ItemsFit keys Ends items fun j => layout (j + 1)

def ProtoMessage.keys (message : ProtoMessage) : List Ident := (message.keyComment.map KeyComment.keys).getD []

/-- The words of the key comment come first on its line, and the name is a word of its own. -/
structure ProtoMessage.TitleFits (message : ProtoMessage) : Prop where
  note : ∀ comment ∈ message.keyComment, ∃ rest, splitLine (comment.line message.note ++ ['\n']) =
    str "//" :: str "user_data" :: (str "key=" ++ comment.text) :: rest
  gap : message.gap.Splits
  remark : message.remark.1 = [] ∨ ∃ text, message.remark.1 = ' ' :: text
  comment : cut ['/', '/'] message.remark.1 = none
  brace : '\x7b' ∉ message.remark.1

namespace MessageLayout

/-- Both braces end their lines; behind the last key may stand anything that is closed in the end. -/
structure KeepsKeys (layout : MessageLayout) (message : ProtoMessage) : Prop where
  title : message.TitleFits
  beforeBrace : layout.beforeBrace.Breaks
  afterBrace : layout.afterBrace.Breaks
  items : ItemsFit message.keys FieldLayout.FreesEnd message.items layout.field ∨
    ∃ front back, message.items = front ++ back ∧ keysIn message.keys back = [] ∧
      ItemsFit message.keys (fun last => last.afterSemi.Breaks) front layout.field ∧
      Place.inside.read (renderItems back (fun j => layout.field (j + front.length)) ++ message.ending) =
        some (.outside false true)

end MessageLayout

/-- What stands above the message is passed over, and leaves no annotation to a message without keys. -/
def ProtoMessage.LeadFits (message : ProtoMessage) (named : Bool) : Prop := ∃ annotated named',
  (Place.outside false named).read (renderLines message.lead) = some (.outside annotated named') ∧
    (annotated = true → message.keyComment.isSome)

/-- A message without keys need not be read as one. -/
def MessageLayout.Fits (layout : MessageLayout) (message : ProtoMessage) (named : Bool) : Prop :=
  message.LeadFits named ∧ layout.KeepsKeys message ∨
    message.keyComment = none ∧ (Place.outside false named).read (message.render layout) = some (.outside false true)

structure SetsVersion (line : Text) : Prop where
  keyword : (splitLine line)[0]? = some (str "syntax")
  version : (splitLine line)[2]? = some (str "\"proto3\"")
  brace : '\x7b' ∉ line

namespace ProtoFile

/-- Where the messages begin. -/
def begins (file : ProtoFile) : Option Place :=
  match (Place.outside false false).read (renderLines file.preamble) with
  | some (.outside false named) =>
    (Place.outside false (named || (cut ['/', '/'] (Line.render file.version)).isNone)).read (renderLines file.header)
  | _ => none

def namedBefore (file : ProtoFile) (i : ℕ) : Bool := file.begins = some (.outside false true) || i ≠ 0

/-- What stands before the messages and behind them is passed over. -/
structure Passable (file : ProtoFile) : Prop where
  opensNothing : ∀ line ∈ file.preamble, ((Place.outside false false).after (Line.render line)).isSome
  version : SetsVersion (Line.render file.version)
  begins : file.begins = some (.outside false (file.namedBefore 0))
  package : ∀ package ∈ file.package, ∃ rest, splitLine (Line.render package.2) = str "package" :: package.1.1 :: rest
  trailer : ∀ lines ∈ file.trailer,
    ((Place.outside false (file.namedBefore file.messages.length)).read (renderLines lines)).isSome
  ended : file.trailer = none → ∀ message ∈ file.messages.getLast?, ¬ ['/', '/'] <:+ message.closing.1

end ProtoFile

def Layout.Fits (layout : Layout) (file : ProtoFile) : Prop :=
  ∀ i message, file.messages[i]? = some message → (layout i).Fits message (file.namedBefore i)

def MessageLayout.Good (layout : MessageLayout) : Prop :=
  layout.beforeBrace.Breaks ∧ layout.afterBrace.Breaks ∧ ∀ j, (layout.field j).KeepsName ∧ (layout.field j).FreesNext

def Layout.Good (layout : Layout) : Prop := ∀ i, (layout i).Good

structure ProtoField.Plain (field : ProtoField) : Prop where
  splits : field.Splits
  options : field.options = []
  optional : ∀ gap type, field.rule ≠ .optional gap type

structure ProtoMessage.Plain (message : ProtoMessage) : Prop where
  title : message.TitleFits
  items : ∀ item ∈ message.items, ∃ field, item = .field field ∧ field.Plain

/-- Of the layout alone it depends whether the keys are found. -/
structure ProtoFile.Plain (file : ProtoFile) : Prop where
  passable : file.Passable
  leads : ∀ i (message : ProtoMessage), file.messages[i]? = some message → message.LeadFits (file.namedBefore i)
  messages : ∀ message ∈ file.messages, message.Plain

end TonyCat.Tools
