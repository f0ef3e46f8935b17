import TonyCat.Tools.ItemReading

set_option autoImplicit false

/-! Messages, with or without keys, in a layout that fits them. -/

namespace TonyCat.Tools

open TonyCat.Library

def CommentOf (keyComment : Option KeyComment) (comment : List Text) : Prop :=
  match keyComment with
  | some key => ∃ rest, comment = str "//" :: str "user_data" :: (str "key=" ++ key.text) :: rest
  | none => annotates (comment.drop 1) = false

lemma loadLine_note {s : Loading} (hs : s.cur_braces_count = 0) {comment : KeyComment} {note : NoteLayout}
    {rest : List Text} (hwords : splitLine (comment.line note ++ ['\n']) = str "//" :: rest) :
    s.loadLine (comment.line note ++ ['\n']) = some { s with msg_comments := str "//" :: rest } := by
  have hcut : (cut ['/', '/'] (comment.line note ++ ['\n'])).isSome = true := by
    have hline : comment.line note ++ ['\n'] = note.indent.1 ++ '/' :: '/' :: (note.afterSlashes.1 ++ str "user_data" ++
        note.afterWord.1 ++ str "key=" ++ comment.text ++ note.behind.1 ++ ['\n']) := by simp [KeyComment.line, str]
    have hfind : ∀ t : Text, findSlice ['/', '/'] ('/' :: '/' :: t) = some 0 := fun t =>
      if_pos (List.prefix_append ['/', '/'] t)
    rw [hline, cut_append_of_notMem (note.indent.spaces.notMem (by decide)), cut, hfind]
    rfl
  rw [Loading.loadLine_of_splitLine hwords (by decide), loadDefinition_outside hs, if_pos hcut]

lemma newline_notMem_note (comment : KeyComment) (note : NoteLayout) : '\n' ∉ comment.line note := by
  have hindent : ∀ indent : Indent, '\n' ∉ indent.1 := fun indent => indent.spaces.newline_notMem
  have hwords : '\n' ∉ str "//" ∧ '\n' ∉ str "user_data" ∧ '\n' ∉ str "key=" := by decide
  simp only [KeyComment.line, List.mem_append, not_or]
  exact ⟨⟨⟨⟨⟨⟨⟨hindent _, hwords.1⟩, hindent _⟩, hwords.2.1⟩, hindent _⟩, hwords.2.2⟩, comment.plain.newline_notMem⟩,
    note.behind.2⟩

def Above (keyComment : Option KeyComment) (s s' : Loading) : Prop :=
  ∃ comment, CommentOf keyComment comment ∧ s' = { s with msg_comments := comment }

lemma feeds_above {s : Loading} {annotated named : Bool} (hs : Outside annotated named s) {message : ProtoMessage}
    (hannotated : annotated = true → message.keyComment.isSome) (htitle : message.TitleFits) :
    ∃ s', Feeds (s, []) message.above (s', []) ∧ Above message.keyComment s s' := by
  rw [ProtoMessage.above]
  cases hkeyComment : message.keyComment with
  | none =>
    have hnot : annotated = false := by
      rw [hkeyComment] at hannotated
      simpa using hannotated
    exact ⟨s, Reads.nil _, s.msg_comments, hs.comments hnot, rfl⟩
  | some comment =>
    obtain ⟨rest, hwords⟩ := htitle.note comment hkeyComment
    have hnl := newline_notMem_note comment message.note
    exact ⟨_, Reads.ends hnl (loadLine_note hs.depth hwords), _, ⟨rest, rfl⟩, rfl⟩

lemma Above.depth {keyComment : Option KeyComment} {s s' : Loading} (h : Above keyComment s s') :
    s'.cur_braces_count = s.cur_braces_count := by
  obtain ⟨_, -, rfl⟩ := h
  rfl

def Loading.named (s : Loading) (name : Ident) : Loading := { s with msg_type := str "message", msg_name := name.1 }

lemma loadDefinition_zero {s : Loading} {line : Text} (hs : s.cur_braces_count = 0) (hslash : '/' ∉ line)
    (words : List Text) : s.loadDefinition line words =
      if '\x7b' ∈ line then some s.opened
      else if 1 < words.length then
        words[0]?.bind fun type => words[1]?.map fun name => { s with msg_type := type, msg_name := name }
      else some s := by
  have hcut : (cut ['/', '/'] line).isSome ≠ true := by
    rw [cut_of_notMem hslash]
    exact Bool.false_ne_true
  rw [loadDefinition_outside hs, if_neg hcut]

lemma splitLine_title {message : ProtoMessage} (htitle : message.TitleFits) {l : Text} (hl : Spaces l)
    (hcut : cut ['/', '/'] (message.title ++ l ++ ['\n']) = none) :
    ∃ rest, splitLine (message.title ++ l ++ ['\n']) = str "message" :: message.name.1 :: rest := by
  have hmessage : Plain (str "message") := ⟨by decide, by decide⟩
  have hname := message.name.plain
  obtain ⟨k, hk⟩ := htitle.gap.exists_eq
  have hline : message.title ++ l ++ ['\n'] = message.indent.1 ++ (str "message" ++
      ((' ' :: List.replicate k ' ') ++ (message.name.1 ++ (message.remark.1 ++ (l ++ ['\n']))))) := by
    simp [ProtoMessage.title, hk, List.replicate_succ]
  have hwords : splitLine (message.title ++ l ++ ['\n']) =
      str "message" :: dataWords (message.name.1 ++ (message.remark.1 ++ (l ++ ['\n'])).rdropWhile isSpace) := by
    rw [splitLine_of_cut hcut, hline, lineWords_plain message.indent.spaces.space hmessage, rdropWhile_plain hname,
      List.cons_append, dataWords_append_space, dataWords_replicate_append, hmessage.dataWords_eq]
    rfl
  obtain hnil | ⟨text, htext⟩ := htitle.remark
  · rw [hnil, List.nil_append, List.rdropWhile_eq_nil_iff.mpr hl.concat_newline, List.append_nil,
      hname.dataWords_eq] at hwords
    exact ⟨[], hwords⟩
  · have hprefix := List.rdropWhile_prefix isSpace (message.remark.1 ++ (l ++ ['\n']))
    rw [htext, List.cons_append, List.prefix_cons_iff] at hprefix
    obtain hnil | ⟨t, ht, -⟩ := hprefix
    · rw [htext, List.cons_append, hnil, List.append_nil, hname.dataWords_eq] at hwords
      exact ⟨[], hwords⟩
    · rw [htext, List.cons_append, ht, dataWords_append_space, hname.dataWords_eq] at hwords
      exact ⟨_, hwords⟩

lemma loadLine_message {s : Loading} (hs : s.cur_braces_count = 0) {message : ProtoMessage}
    (htitle : message.TitleFits) {l : Text} (hl : Spaces l) :
    s.loadLine (message.title ++ l ++ ['\n']) = some (s.named message.name) := by
  have hline : message.title ++ l ++ ['\n'] = (message.indent.1 ++ str "message" ++ message.gap.1 ++ message.name.1) ++
      (message.remark.1 ++ (l ++ ['\n'])) := by simp [ProtoMessage.title]
  have hfront : ∀ c ∈ ['/', '\x7b'],
      c ∉ message.indent.1 ++ str "message" ++ message.gap.1 ++ message.name.1 ∧ c ∉ l ++ ['\n'] := by
    have hkind : ∀ c ∈ ['/', '\x7b'], c ∉ str "message" ∧ isSpace c = false ∧ c ≠ ' ' ∧ c ≠ '\n' ∧
        c ∈ [' ', '=', ';', '/', '>', '\x7b', '\x7d'] := by decide
    intro c hc
    obtain ⟨hmem, hspace, hgapChar, hnl, hplain⟩ := hkind c hc
    simp only [List.mem_append, List.mem_singleton, not_or]
    exact ⟨⟨⟨⟨message.indent.spaces.notMem hspace, hmem⟩, fun h => hgapChar (htitle.gap c h)⟩,
      message.name.plain.not_mem hplain⟩, hl.notMem hspace, hnl⟩
  have hcut : cut ['/', '/'] (message.title ++ l ++ ['\n']) = none := by
    rw [hline, cut_append_of_notMem (hfront '/' (by simp)).1,
      cut_append_of_none htitle.comment (hfront '/' (by simp)).2, Option.map_none]
  have hbrace : '\x7b' ∉ message.title ++ l ++ ['\n'] := by
    obtain ⟨hbefore, hbehind⟩ := hfront '\x7b' (by simp)
    rw [hline]
    exact List.not_mem_append hbefore (List.not_mem_append htitle.brace hbehind)
  obtain ⟨rest, hwords⟩ := splitLine_title htitle hl hcut
  have hcomment : (cut ['/', '/'] (message.title ++ l ++ ['\n'])).isSome ≠ true := by
    rw [hcut]
    exact Bool.false_ne_true
  rw [Loading.loadLine_of_splitLine hwords (by decide), loadDefinition_outside hs, if_neg hcomment, if_neg hbrace,
    if_pos (by simp)]
  rfl

lemma loadLine_brace {s : Loading} (hs : s.cur_braces_count = 0) {w l : Text} (hw : Spaces w) (hl : Spaces l) :
    s.loadLine (w ++ '\x7b' :: (l ++ ['\n'])) = some s.opened := by
  have hwords : lineWords (w ++ '\x7b' :: (l ++ ['\n'])) = [['\x7b']] := by
    rw [lineWords, strip_append_cons hw.space (by decide), rdropWhile_of_spaces hl.concat_newline]
    decide
  have hslash : '/' ∉ w ++ '\x7b' :: (l ++ ['\n']) := by
    simp only [List.mem_append, List.mem_cons, List.not_mem_nil, or_false, not_or]
    exact ⟨hw.notMem (by decide), by decide, hl.notMem (by decide), by decide⟩
  rw [Loading.loadLine_of_words hslash hwords (by decide), loadDefinition_zero hs hslash, if_pos (by simp)]

lemma keys_comment (comment : KeyComment) :
    PbMeta.keys (str "key=" ++ comment.text) = comment.keys.map Subtype.val := by
  have hcut : cut ['='] (str "key=" ++ comment.text) = some (str "key", comment.text) :=
    cut_append_cons (a := str "key") (by decide)
  have hnot : ∀ (key : Ident) {c : Char}, isIdent c = false → c ∉ key.1 := fun key _ => notMem_of_all key.2.2
  rw [PbMeta.keys, hcut]
  cases comment with
  | one key =>
    obtain ⟨c, cs, hcons⟩ := List.exists_cons_of_ne_nil key.2.1
    have hparen : c ≠ '(' := fun heq => hnot key (c := '(') (by decide) (hcons ▸ heq ▸ List.mem_cons_self ..)
    have hsingle : key.1.splitOn ',' = [key.1] := List.splitOn_eq_singleton (hnot key (by decide))
    simp only [KeyComment.text, KeyComment.keys, List.map_cons, List.map_nil]
    split
    next rest hrest =>
      rw [hcons] at hrest
      exact absurd (List.cons.inj hrest).1 hparen
    next => exact hsingle
  | many key keys =>
    have hparen : ')' ∉ [','].intercalate ((key :: keys).map Subtype.val) := by
      refine fun hmem => forall_mem_intercalate (P := fun c => c ≠ ')') (by decide) (fun word hword => ?_) _ hmem rfl
      obtain ⟨key', -, rfl⟩ := List.mem_map.mp hword
      rintro c hc rfl
      exact hnot key' (by decide) hc
    simp only [KeyComment.text, KeyComment.keys, List.cons_append, cut_append_cons hparen]
    refine List.splitOn_intercalate ',' (fun word hword => ?_) (by simp)
    obtain ⟨key', -, rfl⟩ := List.mem_map.mp hword
    exact hnot key' (by decide)

structure MetaOf (pb_namespace : Text) (message : ProtoMessage) (m : PbMeta) : Prop where
  name : m.name = message.name.1
  namespace_ : m.namespace_ = pb_namespace
  comment : CommentOf message.keyComment m.comment
  fields : FindsKeys message.keys message.items m.fields

section Meta

variable {pb_namespace : Text} {message : ProtoMessage} {m : PbMeta}

lemma MetaOf.keyNames_eq (h : MetaOf pb_namespace message m) :
    m.keyNames = message.keyComment.map fun comment => comment.keys.map Subtype.val := by
  have hcomment := h.comment
  cases hkeyComment : message.keyComment with
  | none =>
    rw [hkeyComment] at hcomment
    exact keyNames_of_not_annotates hcomment
  | some comment =>
    rw [hkeyComment] at hcomment
    obtain ⟨rest, hwords⟩ := hcomment
    have hkey : str "key" <+: str "key=" ++ comment.text := ⟨'=' :: comment.text, rfl⟩
    have hfirst : (str "//" :: str "user_data" :: (str "key=" ++ comment.text) :: rest)[1]? =
        some (str "user_data") := rfl
    rw [PbMeta.keyNames, hwords, if_pos hfirst, Option.map_some, ← keys_comment comment]
    exact if_pos hkey

lemma MetaOf.isKey (h : MetaOf pb_namespace message m) {comment : KeyComment} (hcomment : comment ∈ message.keyComment)
    {key : Ident} (hkey : key ∈ comment.keys) : m.isKey key.1 = true := by
  obtain ⟨field, hmem, rfl, hrule⟩ := message.declared comment hcomment key hkey
  have hkeys : field.name ∈ message.keys := by
    rw [ProtoMessage.keys, Option.mem_def.mp hcomment]
    exact hkey
  obtain ⟨found, hfound, htype⟩ := h.fields field hmem hkeys
  rw [PbMeta.isKey, PbMeta.getPbMetaFieldByName, hfound]
  exact htype hrule

lemma MetaOf.msgName_eq (h : MetaOf pb_namespace message m) :
    m.msgName = if pb_namespace = [] then message.name.1 else pb_namespace ++ '.' :: message.name.1 := by
  rw [PbMeta.msgName, h.namespace_, h.name]

def tablesIn (messages : List ProtoMessage) : List ProtoMessage :=
  messages.filter fun message => message.keyComment.isSome

lemma MetaOf.tables (h : MetaOf pb_namespace message m) :
    List.Forall₂ (MetaOf pb_namespace) (tablesIn [message]) ([m].filter fun pbMeta => pbMeta.keyNames.isSome) := by
  have hsome : m.keyNames.isSome = message.keyComment.isSome := by rw [h.keyNames_eq, Option.isSome_map]
  cases hkey : message.keyComment.isSome with
  | true =>
    have hmessage : tablesIn [message] = [message] := by simp [tablesIn, hkey]
    have hm : [m].filter (fun pbMeta => pbMeta.keyNames.isSome) = [m] := by simp [hsome, hkey]
    rw [hmessage, hm]
    exact .cons h .nil
  | false =>
    have hmessage : tablesIn [message] = [] := by simp [tablesIn, hkey]
    have hm : [m].filter (fun pbMeta => pbMeta.keyNames.isSome) = [] := by simp [hsome, hkey]
    rw [hmessage, hm]
    exact .nil

end Meta

section Opening

variable {s : Loading} {annotated named : Bool} {message : ProtoMessage} {layout : MessageLayout}

lemma newline_notMem_title (hgap : message.gap.Splits) : '\n' ∉ message.title := by
  have hmessage : '\n' ∉ str "message" := by decide
  have hgapChar : '\n' ∉ message.gap.1 := fun hmem => absurd (hgap _ hmem) (by decide)
  exact List.not_mem_append (List.not_mem_append (List.not_mem_append
    (List.not_mem_append message.indent.spaces.newline_notMem hmessage) hgapChar) message.name.plain.newline_notMem)
    message.remark.2

lemma feeds_named (message : ProtoMessage) (hs : Outside annotated named s)
    (hannotated : annotated = true → message.keyComment.isSome) (htitle : message.TitleFits) :
    ∃ s', Feeds (s, []) (message.above ++ message.title) (s', message.title) ∧ Above message.keyComment s s' := by
  obtain ⟨s', habove, hcomment⟩ := feeds_above hs hannotated htitle
  exact ⟨s', habove.append (Reads.within (newline_notMem_title htitle.gap)), hcomment⟩

lemma feeds_beforeBrace (message : ProtoMessage) (hs : Outside annotated named s)
    (hannotated : annotated = true → message.keyComment.isSome) (htitle : message.TitleFits)
    (hbreaks : layout.beforeBrace.Breaks) :
    ∃ s' w, Feeds (s, []) (message.above ++ message.title ++ layout.beforeBrace.1) (s'.named message.name, w) ∧
      Above message.keyComment s s' ∧ Spaces w := by
  obtain ⟨s', hname, hcomment⟩ := feeds_named message hs hannotated htitle
  obtain ⟨_, w, hline, rfl, hw⟩ := feeds_breaks (Q := fun s'' => s'' = s'.named message.name)
    message.title hbreaks fun l hl =>
      ⟨_, loadLine_message (hcomment.depth.trans hs.depth) htitle hl, rfl⟩
  exact ⟨s', w, hname.append hline, hcomment, hw⟩

lemma feeds_opening (message : ProtoMessage) (hs : Outside annotated named s)
    (hannotated : annotated = true → message.keyComment.isSome) (htitle : message.TitleFits)
    (hbefore : layout.beforeBrace.Breaks) (hafter : layout.afterBrace.Breaks) :
    ∃ s' pre, Feeds (s, []) (message.opening layout) ((s'.named message.name).opened, pre) ∧
      Above message.keyComment s s' ∧ Spaces pre := by
  obtain ⟨s', w, hname, hcomment, hw⟩ := feeds_beforeBrace message hs hannotated htitle hbefore
  have hbrace : Feeds (s'.named message.name, w) ['\x7b'] (s'.named message.name, w ++ ['\x7b']) :=
    Reads.within (by decide)
  obtain ⟨_, pre, hopen, rfl, hpre⟩ := feeds_breaks (s := s'.named message.name)
    (Q := fun s'' => s'' = (s'.named message.name).opened) (w ++ ['\x7b']) hafter fun l hl => by
      rw [List.append_assoc, List.append_assoc]
      exact ⟨_, loadLine_brace (s := s'.named message.name) (hcomment.depth.trans hs.depth) hw hl, rfl⟩
  exact ⟨s', pre, hname.append (hbrace.append hopen), hcomment, hpre⟩

lemma opened_inBody {s' : Loading} (hs : Versioned s) (h : Above message.keyComment s s') (name : Ident) :
    (s'.named name).opened.InBody := by
  obtain ⟨_, -, rfl⟩ := h
  exact ⟨rfl, hs, rfl⟩

end Opening

/-- What a part of the file with these messages has made of the state. -/
structure Reading (s s' : Loading) (named : Bool) (messages : List ProtoMessage) : Prop where
  outside : Outside false named s'
  versioned : Versioned s'
  namespace_ : s'.pb_namespace = s.pb_namespace
  tables : ∃ metas, s'.tables = s.tables ++ metas ∧ List.Forall₂ (MetaOf s.pb_namespace) (tablesIn messages) metas

lemma Reading.of_passed {s s' : Loading} {named : Bool} (h : Passed s s') (hs : Versioned s)
    (houtside : Outside false named s') : Reading s s' named [] :=
  ⟨houtside, h.versioned hs, h.namespace_, [], by rw [List.append_nil, h.tables], .nil⟩

lemma Reading.trans {s s' s'' : Loading} {named named' : Bool} {messages messages' : List ProtoMessage}
    (h : Reading s s' named messages) (h' : Reading s' s'' named' messages') :
    Reading s s'' named' (messages ++ messages') := by
  obtain ⟨metas, heq, hmetas⟩ := h.tables
  obtain ⟨metas', heq', hmetas'⟩ := h'.tables
  rw [h.namespace_] at hmetas'
  refine ⟨h'.outside, h'.versioned, h'.namespace_.trans h.namespace_, metas ++ metas', ?_, ?_⟩
  · rw [heq', heq, List.append_assoc]
  · rw [tablesIn, List.filter_append]
    exact List.rel_append hmetas hmetas'

section Message

variable {s : Loading} {message : ProtoMessage} {layout : MessageLayout}

lemma ProtoMessage.ending_eq (message : ProtoMessage) : message.ending = '\x7d' :: message.closing.1 ++ ['\n'] := rfl

lemma ProtoMessage.newline_notMem_ending (message : ProtoMessage) : '\n' ∉ '\x7d' :: message.closing.1 := by
  rw [List.mem_cons, not_or]
  exact ⟨by decide, message.closing.2⟩

/-- From the opening brace on: the keys are found, whatever is read behind the last of them. -/
lemma feeds_items_close {pre : Text} (hs : s.InBody) (hinside : Inside s) (hversioned : Versioned s) (hpre : Spaces pre)
    (h : layout.KeepsKeys message) : ∃ s' metas,
      Feeds (s, pre) (renderItems message.items layout.field ++ message.ending) (s', []) ∧ Outside false true s' ∧
        Passed (s.addFields metas).close s' ∧ FindsKeys message.keys message.items metas := by
  obtain hitems | ⟨front, back, heq, hback, hfront, hread⟩ := h.items
  · obtain ⟨rest, metas, hreads, hfinds, hclosing, -⟩ :=
      feeds_items (fun _ hend => hend) hs (.of_spaces hpre) (fun _ => hpre) hitems message.distinct
    have hload := hclosing.loadLine (hs.addFields metas) hinside.named (message.closing.1 ++ ['\n'])
    have hend : Feeds (s.addFields metas, rest) message.ending ((s.addFields metas).close, []) := by
      rw [message.ending_eq]
      exact Reads.ends message.newline_notMem_ending (by rw [List.append_assoc]; exact hload)
    exact ⟨_, metas, hreads.append hend, (hinside.addFields metas).closed, .refl _, hfinds⟩
  · have hdistinct := message.distinct
    rw [heq, fieldsOf, List.filterMap_append, List.map_append] at hdistinct
    obtain ⟨rest, metas, hreads, hfinds, -, hspaces⟩ := feeds_items (fun _ hbreaks => .inl hbreaks) hs
      (.of_spaces hpre) (fun _ => hpre) hfront (List.nodup_append.mp hdistinct).1
    rw [message.ending_eq, ← List.append_assoc] at hread
    obtain ⟨s', metas', hreads', houtside, hpassed⟩ := feeds_closed (hinside.addFields metas)
      (s := s.addFields metas) hversioned (hspaces fun _ hbreaks => hbreaks) hread
    rw [Loading.addFields_addFields] at hpassed
    refine ⟨s', _, ?_, houtside, hpassed, ?_⟩
    · rw [heq, renderItems_append, List.append_assoc, message.ending_eq, ← List.append_assoc (renderItems back _)]
      exact hreads.append hreads'
    · rw [heq]
      exact (hfinds.append_items hback).append metas'

lemma feeds_kept {annotated named : Bool} (hs : Outside annotated named s) (hversioned : Versioned s)
    (hannotated : annotated = true → message.keyComment.isSome) (hkeeps : layout.KeepsKeys message) :
    ∃ s', Feeds (s, []) (message.text layout) (s', []) ∧ Reading s s' true [message] := by
  obtain ⟨s₁, pre, hopen, habove, hpre⟩ := feeds_opening message hs hannotated hkeeps.title
    hkeeps.beforeBrace hkeeps.afterBrace
  have hbody := opened_inBody hversioned habove message.name
  obtain ⟨comment, hcomment, rfl⟩ := habove
  have hinside : Inside (Loading.named { s with msg_comments := comment } message.name).opened :=
    ⟨rfl, message.name.2.1, message.name.2.1, rfl⟩
  obtain ⟨s', metas, hreads, houtside, hpassed, hfinds⟩ := feeds_items_close hbody hinside hversioned hpre hkeeps
  have hfields : ((Loading.named { s with msg_comments := comment } message.name).opened.addFields
      metas).cur_pb_meta.fields = metas := by
    have hfresh := congrArg PbMeta.fields hs.fresh
    simp only [Loading.addFields, Loading.opened, Loading.named, hfresh, List.nil_append]
  have hmeta : MetaOf s.pb_namespace message
      ((Loading.named { s with msg_comments := comment } message.name).opened.addFields metas).cur_pb_meta :=
    ⟨rfl, rfl, hcomment, by rwa [hfields]⟩
  have htext : message.text layout =
      message.opening layout ++ (renderItems message.items layout.field ++ message.ending) := List.append_assoc ..
  refine ⟨s', ?_, houtside, hpassed.version.trans hversioned, hpassed.namespace_, _, ?_, hmeta.tables⟩
  · rw [htext]
    exact hopen.append hreads
  · rw [hpassed.tables, Loading.tables_close]
    rfl

end Message

section Messages

lemma ended_renderLines (lines : List Line) : Ended (renderLines lines) := by
  obtain rfl | ⟨lines, line, rfl⟩ := List.eq_nil_or_concat lines
  · exact .inl rfl
  · refine .inr ⟨renderLines lines ++ line.1, ?_⟩
    rw [renderLines, List.concat_eq_append, List.flatMap_append, List.flatMap_singleton, Line.render,
      ← List.append_assoc]
    rfl

lemma ended_render (message : ProtoMessage) (layout : MessageLayout) : Ended (message.render layout) := by
  refine .inr ⟨renderLines message.lead ++ (message.opening layout ++ renderItems message.items layout.field ++
    '\x7d' :: message.closing.1), ?_⟩
  rw [ProtoMessage.render, ProtoMessage.text, message.ending_eq, List.append_assoc _ (_ ++ _),
    List.append_assoc _ (_ :: _)]

theorem feeds_message {s : Loading} {named : Bool} (hs : Outside false named s) (hversioned : Versioned s)
    {message : ProtoMessage} {layout : MessageLayout} (hfits : layout.Fits message named) :
    ∃ s', Feeds (s, []) (message.render layout) (s', []) ∧ Reading s s' true [message] := by
  obtain ⟨⟨annotated, named', hread, hannotated⟩, hkeeps⟩ | ⟨hnone, hread⟩ := hfits
  · obtain ⟨s₁, hreads, houtside, hpassed⟩ :=
      feeds_passed hs hversioned (ended_renderLines message.lead) hread
    obtain ⟨s', hreads', hreading⟩ := feeds_kept houtside (hpassed.versioned hversioned) hannotated hkeeps
    obtain ⟨metas, heq, hmetas⟩ := hreading.tables
    rw [hpassed.namespace_] at hmetas
    exact ⟨s', hreads.append hreads', hreading.outside, hreading.versioned,
      hreading.namespace_.trans hpassed.namespace_, metas, by rw [heq, hpassed.tables], hmetas⟩
  · obtain ⟨s', hreads, houtside, hpassed⟩ := feeds_passed hs hversioned (ended_render message layout) hread
    have htables : tablesIn [message] = [] := by simp [tablesIn, hnone]
    obtain ⟨houtside', hversioned', hnamespace, htables'⟩ := Reading.of_passed hpassed hversioned houtside
    exact ⟨s', hreads, houtside', hversioned', hnamespace, by rwa [htables]⟩

theorem feeds_messages (messages : List ProtoMessage) {s : Loading} {named : Bool} (hs : Outside false named s)
    (hversioned : Versioned s) {layout : Layout}
    (hfits : ∀ i message, messages[i]? = some message → (layout i).Fits message (named || i ≠ 0)) :
    ∃ s', Feeds (s, []) (renderMessages messages layout) (s', []) ∧
      Reading s s' (named || messages.length ≠ 0) messages := by
  induction messages generalizing s named layout with
  | nil => exact ⟨s, .nil _, .of_passed (.refl s) hversioned (by simpa using hs)⟩
  | cons message messages ih =>
    have hfirst := hfits 0 message rfl
    rw [decide_eq_false (not_not.mpr rfl), Bool.or_false] at hfirst
    obtain ⟨s', hreads, hreading⟩ := feeds_message hs hversioned hfirst
    obtain ⟨s'', hreads', hreading'⟩ := ih hreading.outside hreading.versioned
      fun i message' h => by simpa using hfits (i + 1) message' h
    exact ⟨s'', hreads.append hreads', by simpa using hreading.trans hreading'⟩

lemma renderMessages_append (messages messages' : List ProtoMessage) (layout : Layout) :
    renderMessages (messages ++ messages') layout =
      renderMessages messages layout ++ renderMessages messages' fun i => layout (i + messages.length) := by
  induction messages generalizing layout with
  | nil => rfl
  | cons message messages ih =>
    rw [List.cons_append, renderMessages, renderMessages, List.append_assoc]
    have hrest := ih fun i => layout (i + 1)
    simp only [List.length_cons]
    exact congrArg _ hrest

end Messages

end TonyCat.Tools
