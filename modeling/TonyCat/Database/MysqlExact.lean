import TonyCat.Database.SqlCondition
import TonyCat.Database.UserData
import Mathlib.Data.List.Nodup

set_option autoImplicit false

/-! Which rows the statements of `MessageDelete` select. -/

namespace TonyCat.Database

open TonyCat.Library

def Column.comparison (c : Column) : Comparison :=
  (c.name, c.text)

/-! ### Lists of columns joined by `AND` -/

def itemText (c : Column) : Bytes :=
  ascii " " ++ (c.name ++ (ascii " = " ++ getProtoSqlStringPlaceholder c.cppType))

def andItemText (c : Column) : Bytes :=
  ascii " AND " ++ itemText c

def itemLexemes (c : Column) : List Lexeme :=
  [.word c.name, .eq, .hole]

def andItemTokens (c : Column) : List (Token Comparison) :=
  [.and, .atom c.comparison]

def listText : List Column → Bytes
  | [] => []
  | c :: cs => itemText c ++ cs.flatMap andItemText

def listLexemes : List Column → List Lexeme
  | [] => []
  | c :: cs => itemLexemes c ++ cs.flatMap fun c => .word (ascii "AND") :: itemLexemes c

def listTokens : List Column → List (Token Comparison)
  | [] => []
  | c :: cs => .atom c.comparison :: cs.flatMap andItemTokens

def listCondition (c : Column) (cs : List Column) : Condition Comparison :=
  cs.foldl (fun d x => .and d (.atom x.comparison)) (.atom c.comparison)

lemma addQueryItemCondition_eq (q : Query) (c : Column) : addQueryItemCondition q c =
    ⟨q.strQuerys ++ (if q.vecArgs ≠ [] then andItemText c else itemText c), q.vecArgs ++ [c.text]⟩ := by
  rw [addQueryItemCondition]
  by_cases h : q.vecArgs = []
  · simp [h, itemText]
  · simp [h, andItemText, itemText]

lemma foldl_addQueryItemCondition (cs : List Column) : ∀ q : Query, q.vecArgs ≠ [] →
    cs.foldl addQueryItemCondition q = ⟨q.strQuerys ++ cs.flatMap andItemText, q.vecArgs ++ cs.map Column.text⟩ := by
  induction cs with
  | nil => simp
  | cons c cs ih =>
    intro q hq
    rw [List.foldl_cons, ih _ (by simp [addQueryItemCondition]), addQueryItemCondition_eq, if_pos hq]
    simp

lemma foldl_addQueryItemCondition_empty (cs : List Column) :
    cs.foldl addQueryItemCondition .empty = ⟨listText cs, cs.map Column.text⟩ := by
  cases cs with
  | nil => rfl
  | cons c cs =>
    rw [List.foldl_cons, foldl_addQueryItemCondition cs _ (by simp [addQueryItemCondition]),
      addQueryItemCondition_eq]
    simp [Query.empty, listText]

lemma lexes_item {c : Column} (h : ColumnName c.name) : Lexes (itemText c) (itemLexemes c) := by
  have hsplit : itemText c = ascii " " ++ ((c.name ++ [32]) ++ (ascii "= " ++ getProtoSqlStringPlaceholder c.cppType)) := by
    simp [itemText, ascii]
  have hspace : Lexes (ascii " ") [] := rfl
  have heq : Lexes (ascii "= ") [.eq] := rfl
  rw [hsplit]
  exact hspace.append ((lexes_name h.1).append (heq.append (lexes_placeholder _)))

lemma lexes_andItem {c : Column} (h : ColumnName c.name) :
    Lexes (andItemText c) (.word (ascii "AND") :: itemLexemes c) := by
  have hand : Lexes (ascii " AND ") [.word (ascii "AND")] := rfl
  exact hand.append (lexes_item h)

lemma lexes_list {cs : List Column} (h : ∀ c ∈ cs, ColumnName c.name) : Lexes (listText cs) (listLexemes cs) := by
  cases cs with
  | nil => exact turns_nil _
  | cons c cs =>
    apply (lexes_item (h c (by simp))).append
    exact Turns.flatMap fun x hx => lexes_andItem (h x (by simp [hx]))

lemma binds_item {c : Column} (h : ColumnName c.name) (args : List Bytes) :
    Turns bindLexeme (.ready, c.text :: args) (itemLexemes c) (.ready, args) [.atom c.comparison] := by
  have hword : bindLexeme (.ready, c.text :: args) (.word c.name) = some ((.column c.name, c.text :: args), []) := by
    rw [bindLexeme, if_neg h.2.1, if_neg h.2.2]
  exact Turns.cons hword rfl

lemma binds_andItems {cs : List Column} (h : ∀ c ∈ cs, ColumnName c.name) (args : List Bytes) :
    Turns bindLexeme (.ready, cs.map Column.text ++ args)
      (cs.flatMap fun c => .word (ascii "AND") :: itemLexemes c) (.ready, args) (cs.flatMap andItemTokens) := by
  induction cs with
  | nil => exact turns_nil _
  | cons c cs ih =>
    have hc := (binds_and (c.text :: (cs.map Column.text ++ args))).append (binds_item (h c (by simp)) _)
    exact hc.append (ih fun x hx => h x (by simp [hx]))

lemma binds_list {cs : List Column} (h : ∀ c ∈ cs, ColumnName c.name) (args : List Bytes) :
    Turns bindLexeme (.ready, cs.map Column.text ++ args) (listLexemes cs) (.ready, args) (listTokens cs) := by
  cases cs with
  | nil => exact turns_nil _
  | cons c cs => exact (binds_item (h c (by simp)) _).append (binds_andItems (fun x hx => h x (by simp [hx])) args)

lemma conjunction_list (c : Column) (cs : List Column) :
    (listCondition c cs).Conjunction (listTokens (c :: cs)) := by
  have hstep : ∀ (cs : List Column) (ts : List (Token Comparison)) (d : Condition Comparison), d.Conjunction ts →
      (cs.foldl (fun d x => Condition.and d (.atom x.comparison)) d).Conjunction (ts ++ cs.flatMap andItemTokens) := by
    intro cs
    induction cs with
    | nil =>
      intro ts d hd
      simpa using hd
    | cons x cs ih =>
      intro ts d hd
      have hx := ih (ts ++ andItemTokens x) (.and d (.atom x.comparison)) (.and hd (.atom x.comparison))
      simpa using hx
  exact hstep cs [.atom c.comparison] _ (.primary (.atom _))

lemma holds_listCondition (row : Row) (c : Column) (cs : List Column) :
    (listCondition c cs).Holds row.Meets ↔ ∀ x ∈ c :: cs, row.Equals x := by
  have hstep : ∀ (cs : List Column) (d : Condition Comparison),
      (cs.foldl (fun d x => Condition.and d (.atom x.comparison)) d).Holds row.Meets ↔
        d.Holds row.Meets ∧ ∀ x ∈ cs, row.Equals x := by
    intro cs
    induction cs with
    | nil => simp
    | cons x cs ih =>
      intro d
      rw [List.foldl_cons, ih]
      simp only [Condition.Holds, List.mem_cons, forall_eq_or_imp, and_assoc]
      rfl
  rw [listCondition, hstep]
  simp only [List.mem_cons, forall_eq_or_imp]
  rfl

/-! ### The statements -/

def headText (name : Bytes) (common : List Column) : Bytes :=
  ascii "DELETE FROM " ++ name ++ ascii " WHERE " ++ listText common

def headLexemes (name : Bytes) : List Lexeme :=
  [.word (ascii "DELETE"), .word (ascii "FROM"), .word name, .word (ascii "WHERE")]

lemma lexes_head {name : Bytes} (h : Identifier name) {common : List Column}
    (hc : ∀ c ∈ common, ColumnName c.name) :
    Lexes (headText name common) (headLexemes name ++ listLexemes common) := by
  have hsplit : headText name common = ascii "DELETE FROM " ++ ((name ++ [32]) ++ (ascii "WHERE " ++ listText common)) := by
    simp [headText, ascii]
  have hdelete : Lexes (ascii "DELETE FROM ") [.word (ascii "DELETE"), .word (ascii "FROM")] := rfl
  have hwhere : Lexes (ascii "WHERE ") [.word (ascii "WHERE")] := rfl
  rw [hsplit]
  exact hdelete.append ((lexes_name h).append (hwhere.append (lexes_list hc)))

def groupText (cs : List Column) : Bytes :=
  ascii " (" ++ listText cs ++ ascii ")"

def groupLexemes (cs : List Column) : List Lexeme :=
  .lparen :: (listLexemes cs ++ [.rparen])

def groupTokens (cs : List Column) : List (Token Comparison) :=
  .lparen :: (listTokens cs ++ [.rparen])

lemma lexes_group {cs : List Column} (h : ∀ c ∈ cs, ColumnName c.name) {s : Bytes} {ls : List Lexeme}
    (hs : Lexes (s ++ ascii " (") (ls ++ [.lparen])) : Lexes (s ++ groupText cs) (ls ++ groupLexemes cs) := by
  have hclose : Lexes (ascii ")") [.rparen] := rfl
  have hall := hs.append ((lexes_list h).append hclose)
  simpa [groupText, groupLexemes] using hall

lemma binds_group {cs : List Column} (h : ∀ c ∈ cs, ColumnName c.name) (args : List Bytes) :
    Turns bindLexeme (.ready, cs.map Column.text ++ args) (groupLexemes cs) (.ready, args) (groupTokens cs) := by
  have hopen : bindLexeme (.ready, cs.map Column.text ++ args) .lparen =
      some ((.ready, cs.map Column.text ++ args), [.lparen]) := rfl
  have hclose : Turns bindLexeme (.ready, args) [.rparen] (.ready, args) [.rparen] := rfl
  exact Turns.cons hopen ((binds_list h args).append hclose)

lemma binds_groups {groups : List (List Column)} (h : ∀ cs ∈ groups, ∀ c ∈ cs, ColumnName c.name) (args : List Bytes) :
    Turns bindLexeme (.ready, groups.flatMap (fun cs => cs.map Column.text) ++ args)
      (groups.flatMap fun cs => .word (ascii "OR") :: groupLexemes cs) (.ready, args)
      (groups.flatMap fun cs => .or :: groupTokens cs) := by
  induction groups with
  | nil => exact turns_nil _
  | cons cs groups ih =>
    rw [List.flatMap_cons, List.append_assoc]
    apply ((binds_or _).append (binds_group (h cs (by simp)) _)).append
    exact ih fun ds hd => h ds (by simp [hd])

lemma Statement.Reads.iff {st : Statement} {ls : List Lexeme} {ts : List (Token Comparison)}
    (hl : Lexes st.strQueryString (headLexemes st.table.name ++ ls))
    (hb : Turns bindLexeme (.ready, st.vecArgs) ls (.ready, []) ts) (c : Condition Comparison) :
    st.Reads c ↔ c.Disjunction ts := by
  have hlex := Lexes.eq hl
  have hbind : bindArgs st.vecArgs ls = some ts := by
    rw [bindArgs, hb]
    rfl
  constructor
  · rintro ⟨ls', ts', hl', hb', hd⟩
    rw [hlex, Option.some.injEq] at hl'
    obtain rfl := List.append_cancel_left hl'
    rw [hbind, Option.some.injEq] at hb'
    rwa [hb']
  · exact fun hd => ⟨ls, ts, hlex, hbind, hd⟩

namespace MysqlModule

variable (M : MysqlModule)

/-- The condition of a repeated table: the later elements stand outside the conjunction with the
common keys. -/
def repeatedCond (common first : Condition Comparison) (later : List (Condition Comparison)) : Condition Comparison :=
  later.foldl .or (.and common first)

lemma disjunction_repeated {common first : Condition Comparison} {ts us : List (Token Comparison)}
    {later : List (List (Token Comparison) × Condition Comparison)} (hc : common.Conjunction ts)
    (hf : first.Primary us) (hl : ∀ g ∈ later, g.2.Primary g.1) :
    (repeatedCond common first (later.map Prod.snd)).Disjunction
      (ts ++ .and :: us ++ later.flatMap fun g => .or :: g.1) := by
  have hstep : ∀ (later : List (List (Token Comparison) × Condition Comparison)) (ts : List (Token Comparison))
      (d : Condition Comparison), (∀ g ∈ later, g.2.Primary g.1) → d.Disjunction ts →
      ((later.map Prod.snd).foldl .or d).Disjunction (ts ++ later.flatMap fun g => .or :: g.1) := by
    intro later
    induction later with
    | nil =>
      intro ts d _ hd
      simpa using hd
    | cons g later ih =>
      intro ts d hl hd
      have hg := ih (ts ++ .or :: g.1) (.or d g.2) (fun x hx => hl x (by simp [hx]))
        (.or hd (.primary (hl g (by simp))))
      simpa using hg
  exact hstep later _ _ hl (.conjunction (.and hc hf))

lemma holds_repeatedCond (p : Comparison → Prop) (common first : Condition Comparison)
    (later : List (Condition Comparison)) : (repeatedCond common first later).Holds p ↔
      (common.Holds p ∧ first.Holds p) ∨ ∃ d ∈ later, d.Holds p := by
  have hstep : ∀ (later : List (Condition Comparison)) (d : Condition Comparison),
      (later.foldl .or d).Holds p ↔ d.Holds p ∨ ∃ e ∈ later, e.Holds p := by
    intro later
    induction later with
    | nil => simp
    | cons e later ih =>
      intro d
      rw [List.foldl_cons, ih]
      simp only [Condition.Holds, List.mem_cons, exists_eq_or_imp, or_assoc]
  exact hstep later _

def elementCondition (cs : List Column) : Condition Comparison :=
  match cs with
  | [] => .atom ([], [])
  | c :: cs => listCondition c cs

lemma primary_group {cs : List Column} (h : cs ≠ []) : (elementCondition cs).Primary (groupTokens cs) := by
  cases cs with
  | nil => exact (h rfl).elim
  | cons c cs => exact .paren (.conjunction (conjunction_list c cs))

lemma holds_elementCondition (row : Row) {cs : List Column} (h : cs ≠ []) :
    (elementCondition cs).Holds row.Meets ↔ ∀ c ∈ cs, row.Equals c := by
  cases cs with
  | nil => exact (h rfl).elim
  | cons c cs => exact holds_listCondition row c cs

/-! ### The three kinds of statements -/

section Statements

variable {f : Table} {c : Column} {common : List Column} (hname : Identifier f.name)
  (hcommon : ∀ x ∈ c :: common, ColumnName x.name)
include hname hcommon

lemma reads_repeated {e : Element} {es : List Element} (hrep : f.isRepeated = true) (he : f.elems = e :: es)
    (hcols : ∀ x ∈ f.elems, ∀ k ∈ M.keyColumns x, ColumnName k.name)
    (hkeys : ∀ x ∈ f.elems, M.keyColumns x ≠ []) (d : Condition Comparison) :
    (M.deleteStatement ⟨listText (c :: common), (c :: common).map Column.text⟩ f).Reads d ↔
      d = repeatedCond (listCondition c common) (elementCondition (M.keyColumns e))
        (es.map fun x => elementCondition (M.keyColumns x)) := by
  rw [he] at hcols hkeys
  let groups := es.map M.keyColumns
  have hq : ∀ x : Element, M.addQueryMessageCondition .empty x =
      ⟨listText (M.keyColumns x), (M.keyColumns x).map Column.text⟩ := by
    intro x
    rw [M.addQueryMessageCondition_eq, foldl_addQueryItemCondition_empty]
  have hst : M.deleteStatement ⟨listText (c :: common), (c :: common).map Column.text⟩ f =
      ⟨f, headText f.name (c :: common) ++ (ascii " AND" ++ groupText (M.keyColumns e)) ++
          groups.flatMap (fun cs => ascii " OR" ++ groupText cs),
        (c :: common).map Column.text ++ ((M.keyColumns e).map Column.text ++
          groups.flatMap fun cs => cs.map Column.text)⟩ := by
    have hne : groupText (M.keyColumns e) ++ groups.flatMap (fun cs => ascii " OR" ++ groupText cs) ≠ [] := by
      simp [groupText, ascii]
    have hcond : repeatedCondition ((e :: es).map fun x => listText (M.keyColumns x)) =
        groupText (M.keyColumns e) ++ groups.flatMap (fun cs => ascii " OR" ++ groupText cs) := by
      simp [repeatedCondition, groupText, groups, List.flatMap_map]
    simp only [deleteStatement, hrep, if_true, he, hq, List.map_map, Function.comp_def]
    rw [hcond, if_pos hne]
    simp [headText, groups, List.flatMap_map, hq]
  have hlex : Lexes (headText f.name (c :: common) ++ (ascii " AND" ++ groupText (M.keyColumns e)) ++
      groups.flatMap (fun cs => ascii " OR" ++ groupText cs))
      (headLexemes f.name ++ (listLexemes (c :: common) ++ (.word (ascii "AND") :: groupLexemes (M.keyColumns e)) ++
        groups.flatMap fun cs => .word (ascii "OR") :: groupLexemes cs)) := by
    have hand : Lexes (ascii " AND" ++ ascii " (") ([.word (ascii "AND")] ++ [.lparen]) := rfl
    have hor : Lexes (ascii " OR" ++ ascii " (") ([.word (ascii "OR")] ++ [.lparen]) := rfl
    have hgroups : Lexes (groups.flatMap fun cs => ascii " OR" ++ groupText cs)
        (groups.flatMap fun cs => .word (ascii "OR") :: groupLexemes cs) := by
      refine Turns.flatMap fun cs hcs => ?_
      obtain ⟨x, hx, rfl⟩ := List.mem_map.mp hcs
      exact lexes_group (hcols x (by simp [hx])) hor
    have hall := ((lexes_head hname hcommon).append (lexes_group (hcols e (by simp)) hand)).append hgroups
    simpa using hall
  have hbind : Turns bindLexeme (.ready, (c :: common).map Column.text ++ ((M.keyColumns e).map Column.text ++
      groups.flatMap fun cs => cs.map Column.text))
      (listLexemes (c :: common) ++ (.word (ascii "AND") :: groupLexemes (M.keyColumns e)) ++
        groups.flatMap fun cs => .word (ascii "OR") :: groupLexemes cs) (.ready, [])
      (listTokens (c :: common) ++ .and :: groupTokens (M.keyColumns e) ++
        groups.flatMap fun cs => .or :: groupTokens cs) := by
    have hcs : ∀ cs ∈ groups, ∀ k ∈ cs, ColumnName k.name := by
      intro cs hcs
      obtain ⟨x, hx, rfl⟩ := List.mem_map.mp hcs
      exact hcols x (by simp [hx])
    have hgroups := binds_groups hcs []
    rw [List.append_nil] at hgroups
    have hfirst := (binds_and _).append (binds_group (hcols e (by simp)) (groups.flatMap fun cs => cs.map Column.text))
    exact ((binds_list hcommon _).append hfirst).append hgroups
  have hdisj : (repeatedCond (listCondition c common) (elementCondition (M.keyColumns e))
      (es.map fun x => elementCondition (M.keyColumns x))).Disjunction
      (listTokens (c :: common) ++ .and :: groupTokens (M.keyColumns e) ++
        groups.flatMap fun cs => .or :: groupTokens cs) := by
    have hlater : ∀ g ∈ es.map (fun x => (groupTokens (M.keyColumns x), elementCondition (M.keyColumns x))),
        g.2.Primary g.1 := by
      intro g hg
      obtain ⟨x, hx, rfl⟩ := List.mem_map.mp hg
      exact primary_group (hkeys x (by simp [hx]))
    have hall := disjunction_repeated (conjunction_list c common) (primary_group (hkeys e (by simp))) hlater
    simpa [groups, List.flatMap_map, Function.comp_def] using hall
  rw [hst, Statement.Reads.iff hlex hbind]
  exact ⟨fun h => h.unique hdisj, fun h => h ▸ hdisj⟩

lemma reads_singular {e : Element} (hsing : f.isRepeated = false) (he : f.elems = [e])
    (hkeys : M.keyColumns e = []) (d : Condition Comparison) :
    (M.deleteStatement ⟨listText (c :: common), (c :: common).map Column.text⟩ f).Reads d ↔
      d = listCondition c common := by
  have hst : M.deleteStatement ⟨listText (c :: common), (c :: common).map Column.text⟩ f =
      ⟨f, headText f.name (c :: common), (c :: common).map Column.text⟩ := by
    simp [deleteStatement, hsing, he, M.addQueryMessageCondition_eq, hkeys, headText]
  have hbind := binds_list hcommon []
  rw [List.append_nil] at hbind
  have hdisj : (listCondition c common).Disjunction (listTokens (c :: common)) :=
    .conjunction (conjunction_list c common)
  rw [hst, Statement.Reads.iff (lexes_head hname hcommon) hbind]
  exact ⟨fun h => h.unique hdisj, fun h => h ▸ hdisj⟩

lemma not_reads_singular {e : Element} (hsing : f.isRepeated = false) (he : f.elems = [e])
    (hcols : ∀ k ∈ M.keyColumns e, ColumnName k.name) (hkeys : M.keyColumns e ≠ []) (d : Condition Comparison) :
    ¬ (M.deleteStatement ⟨listText (c :: common), (c :: common).map Column.text⟩ f).Reads d := by
  obtain ⟨k, ks, hks⟩ := List.exists_cons_of_ne_nil hkeys
  rw [hks] at hcols
  have hlater : ∀ x ∈ ks, ColumnName x.name := fun x hx => hcols x (by simp [hx])
  have hst : M.deleteStatement ⟨listText (c :: common), (c :: common).map Column.text⟩ f =
      ⟨f, headText f.name (c :: common) ++ (ascii " AND" ++ (ascii " AND " ++ itemText k) ++ ks.flatMap andItemText),
        (c :: common).map Column.text ++ (k :: ks).map Column.text⟩ := by
    have hfold := foldl_addQueryItemCondition (k :: ks) ⟨[], (c :: common).map Column.text⟩ (by simp)
    have hne : (k :: ks).flatMap andItemText ≠ [] := by simp [andItemText, ascii]
    simp only [deleteStatement, hsing, Bool.false_eq_true, if_false, he, List.foldl_cons, List.foldl_nil,
      M.addQueryMessageCondition_eq, hks]
    rw [List.foldl_cons] at hfold
    rw [hfold, List.nil_append, if_pos hne]
    simp [headText, andItemText]
  have hlex : Lexes (headText f.name (c :: common) ++
      (ascii " AND" ++ (ascii " AND " ++ itemText k) ++ ks.flatMap andItemText))
      (headLexemes f.name ++ (listLexemes (c :: common) ++ ([.word (ascii "AND"), .word (ascii "AND")] ++ itemLexemes k ++
        ks.flatMap fun x => .word (ascii "AND") :: itemLexemes x))) := by
    have hand : Lexes (ascii " AND" ++ ascii " AND ") [.word (ascii "AND"), .word (ascii "AND")] := rfl
    have hitems : Lexes (ks.flatMap andItemText) (ks.flatMap fun x => .word (ascii "AND") :: itemLexemes x) :=
      Turns.flatMap fun x hx => lexes_andItem (hlater x hx)
    have hall := (lexes_head hname hcommon).append ((hand.append (lexes_item (hcols k (by simp)))).append hitems)
    simpa using hall
  have hbind : Turns bindLexeme (.ready, (c :: common).map Column.text ++ (k :: ks).map Column.text)
      (listLexemes (c :: common) ++ ([.word (ascii "AND"), .word (ascii "AND")] ++ itemLexemes k ++
        ks.flatMap fun x => .word (ascii "AND") :: itemLexemes x)) (.ready, [])
      (listTokens (c :: common) ++ ([.and, .and] ++ [.atom k.comparison] ++ ks.flatMap andItemTokens)) := by
    have hitems := binds_andItems hlater []
    rw [List.append_nil] at hitems
    have hands : Turns bindLexeme (.ready, (k :: ks).map Column.text) [.word (ascii "AND"), .word (ascii "AND")]
        (.ready, (k :: ks).map Column.text) [.and, .and] := (binds_and _).append (binds_and _)
    exact (binds_list hcommon _).append ((hands.append (binds_item (hcols k (by simp)) _)).append hitems)
  rw [hst, Statement.Reads.iff hlex hbind]
  refine Condition.not_disjunction ?_ d
  obtain ⟨g, x, hread, _⟩ := (conjunction_list c common).readAll_eq [] none
  rw [Condition.readAll_append, Condition.start, Condition.Frame.empty, hread]
  rfl

end Statements

/-! ### The rows that a message names -/

def Named (m : Message) (f : Table) (row : Row) : Prop :=
  (∀ c ∈ M.commonColumns m, row.Equals c) ∧ ∃ e ∈ f.elems, ∀ c ∈ M.keyColumns e, row.Equals c

def Exact (m : Message) (st : Statement) : Prop :=
  ∃ d, st.Reads d ∧ ∀ row : Row, d.Holds row.Meets ↔ M.Named m st.table row

structure ProperColumns (m : Message) (f : Table) : Prop where
  table : Identifier f.name
  common : ∀ c ∈ M.commonColumns m, ColumnName c.name
  keys : ∀ d ∈ dbKeyFields M.keys f.descriptor, ColumnName d.name
  nodup : ((M.commonColumns m).map Column.name ++
    (dbKeyFields M.keys f.descriptor).map FieldDescriptor.name).Nodup

lemma keyColumns_names (e : Element) :
    (M.keyColumns e).map Column.name = (dbKeyFields M.keys e.descriptor).map FieldDescriptor.name := by
  have hl : e.values.length = e.descriptor.fields.length := by
    simpa using congrArg List.length e.typed
  have hf : e.fieldValues.map Prod.fst = e.descriptor.fields := List.map_fst_zip (by omega)
  rw [keyColumns, dbKeyFields, List.map_map]
  conv_rhs => rw [← hf, List.filter_map, List.map_map]
  rfl

lemma commonColumns_append (before after : Message) :
    M.commonColumns (before ++ after) = M.commonColumns before ++ M.commonColumns after :=
  List.filterMap_append

lemma exists_row_except {cs : List Column} (hn : (cs.map Column.name).Nodup) {x : Column} (hx : x ∈ cs) :
    ∃ row : Row, (∀ c ∈ cs, c ≠ x → row.Equals c) ∧ ¬ row.Equals x := by
  have hall : ∀ cs : List Column, (cs.map Column.name).Nodup → ∃ row : Row, ∀ c ∈ cs, row.Equals c := by
    intro cs
    induction cs with
    | nil => exact fun _ => ⟨fun _ => [], by simp⟩
    | cons c cs ih =>
      intro hn
      obtain ⟨hc, hcs⟩ := List.nodup_cons.mp hn
      obtain ⟨row, hrow⟩ := ih hcs
      refine ⟨Function.update row c.name c.text, fun d hd => ?_⟩
      rcases List.mem_cons.mp hd with rfl | hd
      · simp [Row.Equals]
      · have hne : d.name ≠ c.name := by
          intro he
          exact hc (he ▸ List.mem_map_of_mem hd)
        simpa [Row.Equals, hne] using hrow d hd
  obtain ⟨row, hrow⟩ := hall cs hn
  refine ⟨Function.update row x.name (x.text ++ [0]), fun c hc hne => ?_, ?_⟩
  · have hname : c.name ≠ x.name := fun he => hne (List.inj_on_of_nodup_map hn hc hx he)
    simpa [Row.Equals, hname] using hrow c hc
  · simp [Row.Equals]

lemma ne_of_nodup {cs ds : List Column} (hn : ((cs ++ ds).map Column.name).Nodup) {x y : Column} (hx : x ∈ cs)
    (hy : y ∈ ds) : x ≠ y :=
  (List.nodup_append.mp (List.Nodup.of_map _ hn)).2.2 x hx y hy

structure ElementColumns (m : Message) (e : Element) : Prop where
  keys : ∀ k ∈ M.keyColumns e, ColumnName k.name
  nodup : ((M.commonColumns m ++ M.keyColumns e).map Column.name).Nodup

lemma ProperColumns.element {m : Message} {f : Table} (h : M.ProperColumns m f) {e : Element} (he : e ∈ f.elems) :
    M.ElementColumns m e := by
  have hnames := M.keyColumns_names e
  rw [f.typed e he] at hnames
  constructor
  · intro k hk
    have hmem : k.name ∈ (dbKeyFields M.keys f.descriptor).map FieldDescriptor.name := by
      rw [← hnames]
      exact List.mem_map_of_mem hk
    obtain ⟨d, hd, hdk⟩ := List.mem_map.mp hmem
    exact hdk ▸ h.keys d hd
  · rw [List.map_append, hnames]
    exact h.nodup

lemma exists_row_not_named {m : Message} {f : Table} {e : Element} (he : M.ElementColumns m e) {y : Column}
    (hy : y ∈ M.commonColumns m) : ∃ row : Row, (∀ c ∈ M.commonColumns m, c ≠ y → row.Equals c) ∧
      (∀ c ∈ M.keyColumns e, row.Equals c) ∧ ¬ M.Named m f row := by
  obtain ⟨row, hrow, hne⟩ := exists_row_except he.nodup (List.mem_append_left _ hy)
  refine ⟨row, fun c hc => hrow c (List.mem_append_left _ hc), fun c hc => ?_, fun h => hne (h.1 y hy)⟩
  exact hrow c (List.mem_append_right _ hc) (ne_of_nodup he.nodup hy hc).symm

section Exact

variable {m before after : Message} {f : Table} {st : Statement} {c : Column} {common : List Column}
  (hm : m = before ++ .table f :: after) (hbefore : M.commonColumns before = c :: common)
include hm hbefore

lemma commonColumns_split : M.commonColumns m = (c :: common) ++ M.commonColumns after := by
  rw [hm, M.commonColumns_append, hbefore]
  rfl

lemma after_nil {e : Element} (he : M.ElementColumns m e)
    (hsel : ∀ row : Row, (∀ x ∈ c :: common, row.Equals x) → (∀ k ∈ M.keyColumns e, row.Equals k) → M.Named m f row) :
    M.commonColumns after = [] := by
  have hsplit := M.commonColumns_split hm hbefore
  by_contra hne
  obtain ⟨y, hy⟩ := List.exists_mem_of_ne_nil _ hne
  obtain ⟨row, hcommon, hkeys, hnamed⟩ := M.exists_row_not_named (f := f) he
    (hsplit ▸ List.mem_append_right _ hy)
  refine hnamed (hsel row (fun x hx => hcommon x ?_ ?_) hkeys)
  · rw [hsplit]
    exact List.mem_append_left _ hx
  · have hn : ((c :: common ++ M.commonColumns after).map Column.name).Nodup := by
      have hnodup := he.nodup
      rw [List.map_append] at hnodup
      rw [← hsplit]
      exact (List.nodup_append.mp hnodup).1
    exact ne_of_nodup hn hx hy

lemma exact_repeated {e : Element} {es : List Element} (he : f.elems = e :: es)
    (hcols : ∀ x ∈ f.elems, M.ElementColumns m x) (hkeys : ∀ x ∈ f.elems, M.keyColumns x ≠ [])
    (htable : st.table = f) (hreads : ∀ d, st.Reads d ↔ d = repeatedCond (listCondition c common)
      (elementCondition (M.keyColumns e)) (es.map fun x => elementCondition (M.keyColumns x))) :
    M.Exact m st ↔ M.commonColumns after = [] ∧ es = [] := by
  have hsplit := M.commonColumns_split hm hbefore
  rw [he] at hcols hkeys
  have hholds : ∀ row : Row, (repeatedCond (listCondition c common) (elementCondition (M.keyColumns e))
      (es.map fun x => elementCondition (M.keyColumns x))).Holds row.Meets ↔
      ((∀ x ∈ c :: common, row.Equals x) ∧ ∀ k ∈ M.keyColumns e, row.Equals k) ∨
        ∃ x ∈ es, ∀ k ∈ M.keyColumns x, row.Equals k := by
    intro row
    rw [holds_repeatedCond, holds_listCondition, holds_elementCondition row (hkeys e (by simp))]
    apply or_congr_right
    constructor
    · rintro ⟨d, hd, hh⟩
      obtain ⟨x, hx, rfl⟩ := List.mem_map.mp hd
      exact ⟨x, hx, (holds_elementCondition row (hkeys x (by simp [hx]))).mp hh⟩
    · rintro ⟨x, hx, hh⟩
      exact ⟨_, List.mem_map_of_mem hx, (holds_elementCondition row (hkeys x (by simp [hx]))).mpr hh⟩
  constructor
  · rintro ⟨d, hd, hsel⟩
    rw [hreads] at hd
    subst hd
    rw [htable] at hsel
    have hes : es = [] := by
      -- a row of another user with the keys of a later element is selected
      by_contra hne
      obtain ⟨x, hx⟩ := List.exists_mem_of_ne_nil _ hne
      have hc : c ∈ M.commonColumns m := by simp [hsplit]
      obtain ⟨row, _, hkx, hnamed⟩ := M.exists_row_not_named (f := f) (hcols x (by simp [hx])) hc
      exact hnamed ((hsel row).mp ((hholds row).mpr (Or.inr ⟨x, hx, hkx⟩)))
    refine ⟨M.after_nil hm hbefore (hcols e (by simp)) fun row hcommon hk => ?_, hes⟩
    exact (hsel row).mp ((hholds row).mpr (Or.inl ⟨hcommon, hk⟩))
  · rintro ⟨hafter, rfl⟩
    refine ⟨_, (hreads _).mpr rfl, fun row => ?_⟩
    rw [hholds, Named, htable, he, hsplit, hafter, List.append_nil]
    simp

lemma exact_singular {e : Element} (he : f.elems = [e]) (hcols : M.ElementColumns m e)
    (hkeys : M.keyColumns e = []) (htable : st.table = f)
    (hreads : ∀ d, st.Reads d ↔ d = listCondition c common) :
    M.Exact m st ↔ M.commonColumns after = [] := by
  have hsplit := M.commonColumns_split hm hbefore
  constructor
  · rintro ⟨d, hd, hsel⟩
    rw [hreads] at hd
    subst hd
    rw [htable] at hsel
    refine M.after_nil hm hbefore hcols fun row hcommon _ => ?_
    exact (hsel row).mp ((holds_listCondition row c common).mpr hcommon)
  · intro hafter
    refine ⟨_, (hreads _).mpr rfl, fun row => ?_⟩
    rw [holds_listCondition, Named, htable, he, hsplit, hafter, List.append_nil]
    simp [hkeys]

end Exact

theorem messageDelete_exact_iff {m : Message} {st : Statement} (hst : st ∈ (M.messageDelete m).1)
    (hcols : M.ProperColumns m st.table) (hlead : ∃ key rest, m = .key key :: rest)
    (hkeys : st.table.isRepeated = true → dbKeyFields M.keys st.table.descriptor ≠ []) :
    ∃ before after, m = before ++ .table st.table :: after ∧
      (M.Exact m st ↔ M.commonColumns after = [] ∧
        ((st.table.isRepeated = true ∧ st.table.elems.length = 1) ∨
          (st.table.isRepeated = false ∧ dbKeyFields M.keys st.table.descriptor = []))) := by
  obtain ⟨before, after, hm, hset, hbuilt⟩ := M.mem_deleteFields hst
  refine ⟨before, after, hm, ?_⟩
  obtain ⟨c, common, hbefore⟩ : ∃ c common, M.commonColumns before = c :: common := by
    obtain ⟨key, rest, hkey⟩ := hlead
    cases before with
    | nil => simp [hm] at hkey
    | cons g before =>
      rw [hm, List.cons_append, List.cons.injEq] at hkey
      rw [hkey.1]
      exact ⟨_, _, rfl⟩
  rw [foldl_addQueryItemCondition_empty, hbefore] at hbuilt
  have hreads : ∀ d, st.Reads d ↔ (M.deleteStatement ⟨listText (c :: common), (c :: common).map Column.text⟩ st.table).Reads d := by
    intro d
    rw [← hbuilt]
  have hcommon : ∀ x ∈ c :: common, ColumnName x.name := by
    intro x hx
    apply hcols.common x
    rw [M.commonColumns_split hm hbefore]
    exact List.mem_append_left _ hx
  have helems : ∀ x ∈ st.table.elems, M.ElementColumns m x := fun x hx => ProperColumns.element M hcols hx
  have hnil : ∀ x ∈ st.table.elems, (M.keyColumns x = [] ↔ dbKeyFields M.keys st.table.descriptor = []) := by
    intro x hx
    rw [M.keyColumns_eq_nil, st.table.typed x hx]
  obtain ⟨e, es, he⟩ := List.exists_cons_of_ne_nil hset
  cases hrep : st.table.isRepeated with
  | true =>
    have hne : ∀ x ∈ st.table.elems, M.keyColumns x ≠ [] := fun x hx h => hkeys hrep ((hnil x hx).mp h)
    rw [M.exact_repeated hm hbefore he helems hne rfl fun d => (hreads d).trans
      (M.reads_repeated hcols.table hcommon hrep he (fun x hx => (helems x hx).keys) hne d)]
    simp [he]
  | false =>
    have hes : es = [] := by
      have hl := st.table.single hrep
      rw [he, List.length_cons] at hl
      exact List.length_eq_zero_iff.mp (by omega)
    subst hes
    have hmem : e ∈ st.table.elems := by simp [he]
    by_cases hk : M.keyColumns e = []
    · rw [M.exact_singular hm hbefore he (helems e hmem) hk rfl fun d => (hreads d).trans
        (M.reads_singular hcols.table hcommon hrep he hk d)]
      simp [(hnil e hmem).mp hk]
    · have hnot : ¬ M.Exact m st := by
        rintro ⟨d, hd, _⟩
        exact M.not_reads_singular hcols.table hcommon hrep he (helems e hmem).keys hk d ((hreads d).mp hd)
      have hfields : dbKeyFields M.keys st.table.descriptor ≠ [] := fun h => hk ((hnil e hmem).mpr h)
      simp [hnot, hfields]

end MysqlModule

namespace UserData

open MysqlModule

noncomputable def mysql : MysqlModule where
  rt := indexMode.rt
  keys := gPbKeys
  queryModify := fun _ _ => 0

lemma properColumns (counts : List (Int32 × Int32 × Int32)) :
    mysql.ProperColumns (repeatedTables (ascii "u1") counts []) (userCounts counts) := by
  constructor
  · exact identifier_userCounts counts
  · change ∀ c ∈ [mysql.keyColumn (userId (ascii "u1"))], ColumnName c.name
    decide +kernel
  · change ∀ d ∈ dbKeyFields gPbKeys userCount, ColumnName d.name
    decide +kernel
  · change ([ascii "user_id"] ++ (dbKeyFields gPbKeys userCount).map FieldDescriptor.name).Nodup
    decide +kernel

noncomputable def countsStatement (counts : List (Int32 × Int32 × Int32)) : Statement :=
  mysql.deleteStatement (addQueryItemCondition .empty (mysql.keyColumn (userId (ascii "u1")))) (userCounts counts)

theorem delete_one_exact : ∃ st ∈ (mysql.messageDelete (repeatedTables (ascii "u1") [(1, 1, 0)] [])).1,
    mysql.Exact (repeatedTables (ascii "u1") [(1, 1, 0)] []) st := by
  have hst : countsStatement [(1, 1, 0)] ∈
      (mysql.messageDelete (repeatedTables (ascii "u1") [(1, 1, 0)] [])).1 := List.mem_singleton_self _
  obtain ⟨before, after, hm, hiff⟩ := mysql.messageDelete_exact_iff hst
    (properColumns [(1, 1, 0)]) ⟨_, _, rfl⟩ (fun _ => by decide +kernel)
  refine ⟨_, hst, hiff.mpr ⟨?_, Or.inl ⟨rfl, rfl⟩⟩⟩
  cases before with
  | nil => simp [repeatedTables] at hm
  | cons g before =>
    obtain ⟨rfl, hrest⟩ := List.cons.inj hm
    have hnone := congrArg mysql.commonColumns hrest
    change [] = mysql.commonColumns (before ++ .table (countsStatement [(1, 1, 0)]).table :: after) at hnone
    rw [mysql.commonColumns_append, eq_comm, List.append_eq_nil_iff] at hnone
    exact hnone.2

/-- The delete of two counts: `user_id = u1 AND (first) OR (second)`. -/
theorem delete_two_not_exact : ∃ st ∈ (mysql.messageDelete (repeatedTables (ascii "u1") [(1, 1, 0), (1, 2, 0)] [])).1,
    ¬ mysql.Exact (repeatedTables (ascii "u1") [(1, 1, 0), (1, 2, 0)] []) st := by
  have hst : countsStatement [(1, 1, 0), (1, 2, 0)] ∈
      (mysql.messageDelete (repeatedTables (ascii "u1") [(1, 1, 0), (1, 2, 0)] [])).1 := List.mem_singleton_self _
  refine ⟨_, hst, fun h => ?_⟩
  have hcols := properColumns [(1, 1, 0), (1, 2, 0)]
  have hkeys : ∀ x ∈ (userCounts [(1, 1, 0), (1, 2, 0)]).elems, mysql.keyColumns x ≠ [] := by decide +kernel
  have hnames : ∀ x ∈ [mysql.keyColumn (userId (ascii "u1"))], ColumnName x.name := hcols.common
  have hm : repeatedTables (ascii "u1") [(1, 1, 0), (1, 2, 0)] [] = [.key (userId (ascii "u1"))] ++
      .table (userCounts [(1, 1, 0), (1, 2, 0)]) :: [.table (clientCaches [])] := rfl
  have hreads := mysql.reads_repeated hcols.table hnames rfl rfl
    (fun x hx => (ProperColumns.element mysql hcols hx).keys) hkeys
  have hiff := mysql.exact_repeated hm rfl rfl (fun x hx => ProperColumns.element mysql hcols hx) hkeys rfl hreads
  exact List.cons_ne_nil _ _ (hiff.mp h).2

end UserData

end TonyCat.Database
