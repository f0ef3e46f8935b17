import TonyCat.Database.MysqlDelete
import TonyCat.Library.BooleanCondition
import TonyCat.Library.Transducer

set_option autoImplicit false

/-! How a database reads a `DELETE` statement with placeholders. -/

namespace TonyCat.Database

open TonyCat.Library

inductive Lexeme
  | word (w : Bytes)
  | eq
  | hole
  | lparen
  | rparen
  deriving DecidableEq

/-- Within a word (possibly of no bytes yet), or within a placeholder. -/
inductive LexState
  | word (w : Bytes)
  | brace
  | quote
  | quoteBrace
  | quoteHole
  deriving DecidableEq

def endWord (w : Bytes) : List Lexeme :=
  if w = [] then [] else [.word w]

def lexByte : LexState → UInt8 → Option (LexState × List Lexeme)
  | .word w, b =>
    if isIdentifierByte b then some (.word (w ++ [b]), [])
    else if b = 32 then some (.word [], endWord w)
    else if b = 61 then some (.word [], endWord w ++ [.eq])
    else if b = 40 then some (.word [], endWord w ++ [.lparen])
    else if b = 41 then some (.word [], endWord w ++ [.rparen])
    else if b = 123 then some (.brace, endWord w)
    else if b = 39 then some (.quote, endWord w)
    else none
  | .brace, b => if b = 125 then some (.word [], [.hole]) else none
  | .quote, b => if b = 123 then some (.quoteBrace, []) else none
  | .quoteBrace, b => if b = 125 then some (.quoteHole, []) else none
  | .quoteHole, b => if b = 39 then some (.word [], [.hole]) else none

def lex (s : Bytes) : Option (List Lexeme) :=
  (feed lexByte (.word []) s).bind fun r => match r.1 with
    | .word w => some (r.2 ++ endWord w)
    | _ => none

def upper (b : UInt8) : UInt8 :=
  if 97 ≤ b ∧ b ≤ 122 then b - 32 else b

abbrev Comparison := Bytes × Bytes

inductive Pending
  | ready
  | column (w : Bytes)
  | equals (w : Bytes)
  deriving DecidableEq

def bindLexeme : Pending × List Bytes → Lexeme → Option ((Pending × List Bytes) × List (Token Comparison))
  | (.ready, args), .lparen => some ((.ready, args), [.lparen])
  | (.ready, args), .rparen => some ((.ready, args), [.rparen])
  | (.ready, args), .word w =>
    if w.map upper = ascii "AND" then some ((.ready, args), [.and])
    else if w.map upper = ascii "OR" then some ((.ready, args), [.or])
    else some ((.column w, args), [])
  | (.column w, args), .eq => some ((.equals w, args), [])
  | (.equals w, arg :: args), .hole => some ((.ready, args), [.atom (w, arg)])
  | _, _ => none

def bindArgs (args : List Bytes) (ls : List Lexeme) : Option (List (Token Comparison)) :=
  (feed bindLexeme (.ready, args) ls).bind fun r => if r.1 = (.ready, []) then some r.2 else none

def Statement.Reads (st : Statement) (c : Condition Comparison) : Prop :=
  ∃ ls ts, lex st.strQueryString =
      some ([.word (ascii "DELETE"), .word (ascii "FROM"), .word st.table.name, .word (ascii "WHERE")] ++ ls) ∧
    bindArgs st.vecArgs ls = some ts ∧ c.Disjunction ts

abbrev Row := Bytes → Bytes

def Row.Equals (row : Row) (c : Column) : Prop :=
  row c.name = c.text

def Row.Meets (row : Row) (a : Comparison) : Prop :=
  row a.1 = a.2

def ColumnName (name : Bytes) : Prop :=
  Identifier name ∧ name.map upper ≠ ascii "AND" ∧ name.map upper ≠ ascii "OR"

instance (name : Bytes) : Decidable (ColumnName name) :=
  inferInstanceAs (Decidable (_ ∧ _))

abbrev Lexes (s : Bytes) (ls : List Lexeme) : Prop :=
  Turns lexByte (.word []) s (.word []) ls

lemma Lexes.eq {s : Bytes} {ls : List Lexeme} (h : Lexes s ls) : lex s = some ls := by
  rw [lex, h]
  simp [endWord]

lemma lexes_name {name : Bytes} (h : Identifier name) : Lexes (name ++ [32]) [.word name] := by
  have hname : ∀ (bs w : Bytes), (∀ b ∈ bs, isIdentifierByte b = true) →
      Turns lexByte (.word w) bs (.word (w ++ bs)) [] := by
    intro bs
    induction bs with
    | nil =>
      intro w _
      rw [List.append_nil]
      exact turns_nil _
    | cons b bs ih =>
      intro w hb
      have hstep : lexByte (.word w) b = some (.word (w ++ [b]), []) := if_pos (hb b (by simp))
      have hrest := ih (w ++ [b]) fun x hx => hb x (by simp [hx])
      rw [List.append_assoc] at hrest
      exact Turns.cons hstep hrest
  have hspace : lexByte (.word name) 32 = some (.word [], [.word name]) := by
    simp [lexByte, isIdentifierByte, endWord, h.1]
  exact (hname name [] h.2).append (turns_singleton hspace)

lemma lexes_placeholder (t : CppType) : Lexes (getProtoSqlStringPlaceholder t) [.hole] := by
  cases t <;> rfl

lemma binds_and (args : List Bytes) :
    Turns bindLexeme (.ready, args) [.word (ascii "AND")] (.ready, args) [.and] := rfl

lemma binds_or (args : List Bytes) :
    Turns bindLexeme (.ready, args) [.word (ascii "OR")] (.ready, args) [.or] := rfl

end TonyCat.Database
