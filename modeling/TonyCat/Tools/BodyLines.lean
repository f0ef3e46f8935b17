import TonyCat.Tools.LayoutFits
import TonyCat.Tools.LineWords

set_option autoImplicit false

/-! What the parser does with the lines of a message. -/

namespace TonyCat.Tools

open TonyCat.Library

lemma isIdent_range {c : Char} (h : isIdent c = true) :
    48 ≤ c.toNat ∧ c.toNat ≤ 57 ∨ 65 ≤ c.toNat ∧ c.toNat ≤ 90 ∨ c.toNat = 95 ∨ 97 ≤ c.toNat ∧ c.toNat ≤ 122 := by
  change (((c.val ≥ 'A'.val ∧ c.val ≤ 'Z'.val : Bool) || (c.val ≥ 'a'.val && c.val ≤ 'z'.val)) ||
    (c.val ≥ '0'.val && c.val ≤ '9'.val) || c == '_') = true at h
  simp only [Bool.or_eq_true, Bool.and_eq_true, decide_eq_true_eq, beq_iff_eq, UInt32.le_iff_toNat_le] at h
  obtain ((h | h) | h) | rfl := h
  · exact .inr (.inl h)
  · exact .inr (.inr (.inr h))
  · exact .inl h
  · exact .inr (.inr (.inl rfl))

lemma isSpace_of_isIdent {c : Char} (h : isIdent c = true) : isSpace c = false := by
  have hrange := isIdent_range h
  rw [isSpace, Bool.eq_false_iff]
  simp only [ne_eq, Bool.or_eq_true, Bool.and_eq_true, decide_eq_true_eq, beq_iff_eq]
  omega

lemma isSpace_of_isBlank {c : Char} (h : isBlank c = true) : isSpace c = true := by
  simp only [isBlank, List.contains_iff_mem, List.mem_cons, List.not_mem_nil, or_false] at h
  obtain rfl | rfl | rfl | rfl | rfl := h <;> decide

lemma plain_of_dotted {w : Text} (hne : w ≠ []) (h : ∀ c ∈ w, (isIdent c || c == '.') = true) : Plain w := by
  refine ⟨hne, fun c hc => ⟨?_, fun hmem => ?_⟩⟩
  · obtain hident | hdot := Bool.or_eq_true_iff.mp (h c hc)
    · exact isSpace_of_isIdent hident
    · rw [beq_iff_eq.mp hdot]
      decide
  · have hchar := h c hc
    simp only [List.mem_cons, List.not_mem_nil, or_false] at hmem
    obtain rfl | rfl | rfl | rfl | rfl | rfl | rfl := hmem <;> exact absurd hchar (by decide)

lemma Ident.plain (name : Ident) : Plain name.1 :=
  plain_of_dotted name.2.1 fun c hc => by rw [name.2.2 c hc, Bool.true_or]

lemma TypeName.plain (type : TypeName) : Plain type.1 := plain_of_dotted type.2.1 type.2.2.1

lemma Tag.exists_cons (tag : Tag) : ∃ c cs, tag.1 = c :: cs ∧ c.isDigit = true := by
  obtain ⟨c, hc, hdigit⟩ := (Option.any_eq_true _ _).mp tag.2.2
  obtain ⟨cs, hcs⟩ := List.head?_eq_some_iff.mp hc
  exact ⟨c, cs, hcs, hdigit⟩

lemma Tag.plain (tag : Tag) : Plain tag.1 := by
  obtain ⟨c, cs, hcons, -⟩ := tag.exists_cons
  exact plain_of_dotted (hcons ▸ List.cons_ne_nil c cs) fun c hc => by rw [tag.2.1 c hc, Bool.true_or]

lemma forall_mem_intercalate {P : Char → Prop} {words : List Text} (hcomma : P ',') (h : ∀ w ∈ words, ∀ c ∈ w, P c) :
    ∀ c ∈ [','].intercalate words, P c := by
  induction words with
  | nil => nofun
  | cons w words ih =>
    have hw := h w (List.mem_cons_self ..)
    cases words with
    | nil => rwa [List.intercalate_singleton]
    | cons w' words =>
      have hrest := ih fun v hv => h v (List.mem_cons_of_mem _ hv)
      intro c hc
      rw [List.intercalate_cons_cons, List.mem_append, List.mem_append, List.mem_singleton] at hc
      obtain (hc | rfl) | hc := hc
      · exact hw c hc
      · exact hcomma
      · exact hrest c hc

lemma KeyComment.plain (comment : KeyComment) : Plain comment.text := by
  cases comment with
  | one key => exact key.plain
  | many key keys =>
    have hparens : ∀ c ∈ ['(', ')', ','],
        isSpace c = false ∧ c ∉ [' ', '=', ';', '/', '>', '\x7b', '\x7d'] := by decide
    refine ⟨by simp [KeyComment.text], fun c hc => ?_⟩
    rw [KeyComment.text, List.cons_append, List.mem_cons, List.mem_append, List.mem_singleton] at hc
    obtain rfl | hc | rfl := hc
    · exact hparens _ (by simp)
    · refine forall_mem_intercalate (P := fun c => isSpace c = false ∧ c ∉ [' ', '=', ';', '/', '>', '\x7b', '\x7d'])
        (hparens _ (by simp)) (fun word hword => ?_) c hc
      obtain ⟨key', -, rfl⟩ := List.mem_map.mp hword
      exact (Ident.plain key').2
    · exact hparens _ (by simp)

def Gaps (t : Text) : Prop := ∀ c ∈ t, (isSpace c = true ∨ c = ';') ∧ c ≠ '\n'

def specialWords : List Text := [str "import", str "package", str "syntax"]

lemma notMem_specialWords {t : Text} {c : Char} (h : c ∉ ['i', 'p', 's']) : c :: t ∉ specialWords := by
  simp only [specialWords, List.mem_cons, List.not_mem_nil, or_false, not_or] at h ⊢
  obtain ⟨hi, hp, hs⟩ := h
  exact ⟨fun heq => hi (List.cons.inj heq).1, fun heq => hp (List.cons.inj heq).1, fun heq => hs (List.cons.inj heq).1⟩

namespace Loading

variable {s : Loading} {line : Text}

lemma loadLine_of_splitLine {first : Text} {rest : List Text} (hwords : splitLine line = first :: rest)
    (hfirst : first ∉ specialWords) : s.loadLine line = s.loadDefinition line (first :: rest) := by
  simp only [specialWords, List.mem_cons, List.not_mem_nil, or_false, not_or] at hfirst
  obtain ⟨himport, hpackage, hversionWord⟩ := hfirst
  rw [loadLine, hwords]
  simp only [if_neg himport, if_neg hpackage, if_neg hversionWord]

lemma loadLine_of_words {first : Text} {rest : List Text} (hslash : '/' ∉ line)
    (hwords : lineWords line = first :: rest) (hfirst : first ∉ specialWords) :
    s.loadLine line = s.loadDefinition line (first :: rest) :=
  loadLine_of_splitLine ((splitLine_of_notMem hslash).trans hwords) hfirst

lemma loadLine_of_nil (hslash : '/' ∉ line) (hwords : lineWords line = []) : s.loadLine line = some s := by
  rw [loadLine, splitLine_of_notMem hslash, hwords]

lemma loadLine_of_spaces (h : ∀ c ∈ line, isSpace c = true) : s.loadLine line = some s := by
  refine loadLine_of_nil (fun hmem => absurd (h _ hmem) (by decide)) ?_
  rw [lineWords, strip_of_spaces h]
  rfl

structure InBody (s : Loading) : Prop where
  depth : s.cur_braces_count = 1
  version : s.pb_version = str "\"proto3\""
  type : s.cur_pb_meta.pb_type = str "message"

def addFields (s : Loading) (fields : List FieldMeta) : Loading :=
  { s with cur_pb_meta := { s.cur_pb_meta with fields := s.cur_pb_meta.fields ++ fields } }

@[simp] lemma addFields_nil (s : Loading) : s.addFields [] = s := by simp [addFields]

@[simp] lemma addFields_addFields (fields fields' : List FieldMeta) :
    (s.addFields fields).addFields fields' = s.addFields (fields ++ fields') := by
  simp [addFields]

lemma InBody.addFields (h : s.InBody) (fields : List FieldMeta) : (s.addFields fields).InBody :=
  ⟨h.depth, h.version, h.type⟩

def close (s : Loading) : Loading :=
  { s with cur_braces_count := 0, pb_metas := s.pb_metas ++ [s.cur_pb_meta], cur_pb_meta := {} }

lemma loadDefinition_inside (hdepth : s.cur_braces_count = 1) (line : Text) (words : List Text) :
    s.loadDefinition line words =
      if '\x7d' ∈ line then
        if 0 < s.cur_pb_meta.name.length then some s.close else some { s with cur_braces_count := 0 }
      else (loadFiledLine s.pb_version s.cur_pb_meta.pb_type line).map fun field => s.addFields [field] := by
  unfold Loading.loadDefinition
  split
  · next hzero =>
    rw [hzero] at hdepth
    cases hdepth
  · rfl
  · next hnot => exact absurd hdepth hnot

lemma InBody.loadDefinition (h : s.InBody) (hbrace : '\x7d' ∉ line) (words : List Text) :
    s.loadDefinition line words =
      (loadFiledLine (str "\"proto3\"") (str "message") line).map fun field => s.addFields [field] := by
  rw [loadDefinition_inside h.depth, if_neg hbrace, h.version, h.type]

lemma InBody.loadDefinition_brace (hs : s.InBody) (hbrace : '\x7d' ∈ line) (words : List Text) :
    s.loadDefinition line words =
      if 0 < s.cur_pb_meta.name.length then some s.close else some { s with cur_braces_count := 0 } := by
  rw [loadDefinition_inside hs.depth, if_pos hbrace]

end Loading

section LoadFiledLine

variable {line : Text}

lemma loadFiledLine_map {front behind name tag : Text} {rest : List Text} (hline : line = front ++ '>' :: behind)
    (hfront : '>' ∉ front) (hwords : splitLine behind = name :: tag :: rest)
    (pb_version pb_type : Text) : ∃ field, loadFiledLine pb_version pb_type line = some field ∧ field.name = name := by
  rw [loadFiledLine, hline, cut_append_cons hfront]
  simp only [hwords]
  exact ⟨_, rfl, rfl⟩

lemma loadFiledLine_proto3 (hgt : '>' ∉ line) : loadFiledLine (str "\"proto3\"") (str "message") line =
    if 2 < (splitLine line).length then proto3Field (splitLine line) else some {} := by
  have hversion : str "\"proto3\"" ≠ str "\"proto2\"" := by decide
  rw [loadFiledLine, cut_of_notMem hgt]
  simp only [if_neg fun h => hversion (And.left h), true_and, ↓reduceIte]

lemma proto3Field_singular {type name tag : Text} {rest : List Text} (h : type ≠ str "repeated") :
    proto3Field (type :: name :: tag :: rest) = some ⟨name, type, tag, str "optional", rest.drop 1⟩ := by
  have hfirst : ¬ (type :: name :: tag :: rest)[0]? = some (str "repeated") := fun heq => h (Option.some.inj heq)
  rw [proto3Field, if_neg hfirst, if_neg hfirst]
  rfl

lemma proto3Field_repeated (type name tag : Text) (rest : List Text) :
    proto3Field (str "repeated" :: type :: name :: tag :: rest) =
      some ⟨name, type, tag, str "repeated", rest.drop 1⟩ := by
  have hfirst : (str "repeated" :: type :: name :: tag :: rest)[0]? = some (str "repeated") := rfl
  rw [proto3Field, if_pos hfirst, if_pos hfirst]
  rfl

end LoadFiledLine

/-- What the parser makes of a field; the name of an optional one is lost. -/
def ProtoField.ReadAs (field : ProtoField) (m : FieldMeta) : Prop :=
  match field.rule with
  | .singular type => m.name = field.name.1 ∧ m.type = type.1
  | .optional _ type => m.name = type.1
  | .repeated _ type => m.name = field.name.1 ∧ m.type = type.1
  | .map _ => m.name = field.name.1

lemma Clean.notMem {pre : Text} (h : Clean pre) {c : Char} (hsemi : c ≠ ';') (hspace : isSpace c = false) :
    c ∉ pre := by
  intro hmem
  obtain rfl | ⟨hc, -⟩ := h.chars c hmem
  · exact hsemi rfl
  · rw [hspace] at hc
    cases hc

/-- The words up to `=` are read in the text, those behind it in what is left of it when its end is stripped. -/
lemma Clean.lineWords_eq {pre a : Text} (h : Clean pre) (ha : ∃ c cs, a = c :: cs ∧ isSpace c = false) (t : Text) :
    lineWords (pre ++ (a ++ '=' :: t)) = dataWords (a ++ '=' :: t.rdropWhile isSpace) := by
  obtain ⟨c, cs, rfl, hc⟩ := ha
  rw [List.cons_append, h.words hc, lineWords_cons hc, rdropWhile_append_cons (by decide)]
  rfl

structure NameGap (gap : Text) : Prop where
  front : gap = [] ∨ ∃ v, gap = ' ' :: v
  spaces : ∀ c ∈ gap, isSpace c = true ∧ c ≠ '\n'

lemma NameGap.notMem {gap : Text} (h : NameGap gap) {c : Char} (hc : isSpace c = false) : c ∉ gap :=
  notMem_of_all (fun d hd => (h.spaces d hd).1) hc

lemma headWords (k : ℕ) {word name gap t : Text} (hword : Plain word) (hname : Plain name) (hgap : NameGap gap) :
    ∃ x xs, dataWords (word ++ List.replicate (k + 1) ' ' ++ name ++ gap ++ '=' :: t) = word :: name :: x :: xs := by
  obtain ⟨x, xs, hrest⟩ := nameWords (r := t) hname hgap.front (hgap.notMem (by decide))
  refine ⟨x, xs, ?_⟩
  have hassoc : word ++ List.replicate (k + 1) ' ' ++ name ++ gap ++ '=' :: t =
      word ++ ' ' :: (List.replicate k ' ' ++ (name ++ gap ++ '=' :: t)) := by
    simp [List.replicate_succ]
  rw [hassoc, dataWords_append_space, hword.dataWords_eq, dataWords_replicate_append, hrest]
  rfl

lemma exists_cons_of_plain {w : Text} (hw : Plain w) (t : Text) : ∃ c cs, w ++ t = c :: cs ∧ isSpace c = false := by
  obtain ⟨c, cs, rfl⟩ := List.exists_cons_of_ne_nil hw.1
  exact ⟨c, cs ++ t, rfl, (hw.2 c (List.mem_cons_self ..)).1⟩

lemma rdropWhile_plain {w : Text} (hw : Plain w) (a r : Text) :
    (a ++ (w ++ r)).rdropWhile isSpace = a ++ (w ++ r.rdropWhile isSpace) := by
  obtain ⟨w', c, rfl⟩ : ∃ w' c, w = w' ++ [c] := ⟨_, _, (List.dropLast_append_getLast hw.1).symm⟩
  have hc := (hw.2 c (by simp)).1
  have hassoc : ∀ t : Text, a ++ (w' ++ [c] ++ t) = a ++ w' ++ c :: t := by simp
  rw [hassoc, hassoc]
  exact rdropWhile_append_cons hc

lemma lineWords_plain {w : Text} (hw : ∀ c ∈ w, isSpace c = true) {tag : Text} (htag : Plain tag) (r : Text) :
    lineWords (w ++ (tag ++ r)) = dataWords (tag ++ r.rdropWhile isSpace) := by
  obtain ⟨c, cs, heq, hc⟩ := exists_cons_of_plain htag r
  have hcons : (c :: cs).rdropWhile isSpace = c :: cs.rdropWhile isSpace := rdropWhile_append_cons (a := []) hc
  rw [lineWords, heq, strip_append_cons hw hc, ← hcons, ← heq]
  exact congrArg dataWords (rdropWhile_plain htag [] r)

section NameLine

variable {s : Loading} {pre gap t : Text}

lemma splitLine_nameLine (ws : List Text) (hpre : Clean pre) {a : Text}
    (ha : ∃ c cs, a = c :: cs ∧ isSpace c = false) (hslash : '/' ∉ a)
    (hwords : ∀ t', ∃ x xs, dataWords (a ++ '=' :: t') = ws ++ x :: xs) (t : Text) :
    ∃ x xs, splitLine (pre ++ (a ++ '=' :: t)) = ws ++ x :: xs := by
  have hfront : '/' ∉ pre ++ (a ++ ['=']) :=
    List.not_mem_append (hpre.notMem (by decide) (by decide)) (List.not_mem_append hslash (by decide))
  have hassoc : ∀ r : Text, pre ++ (a ++ ['=']) ++ r = pre ++ (a ++ '=' :: r) := by simp
  obtain ⟨t', comment, hline⟩ := splitLine_append hfront t
  obtain ⟨x, xs, hx⟩ := hwords (t'.rdropWhile isSpace)
  rw [hassoc, hassoc, hpre.lineWords_eq ha, hx] at hline
  exact ⟨x, xs ++ comment, by rw [hline, List.append_assoc, List.cons_append]⟩

lemma splitLine_head (hpre : Clean pre) {w : Text} (hw : Plain w) (r : Text) :
    ∃ x xs, splitLine (pre ++ (w ++ r)) = (w ++ x) :: xs := by
  have hfront : '/' ∉ pre ++ w := List.not_mem_append (hpre.notMem (by decide) (by decide)) (hw.not_mem (by simp))
  obtain ⟨r', comment, hline⟩ := splitLine_append hfront r
  obtain ⟨c, cs, hcons, hc⟩ := exists_cons_of_plain hw r'
  obtain ⟨x, xs, hhead⟩ := dataWords_head hw.begins (r'.rdropWhile isSpace)
  have hplain := lineWords_plain (w := []) (by simp) hw r'
  rw [List.nil_append, hcons] at hplain
  rw [List.append_assoc, List.append_assoc, hcons, hpre.words hc, hplain, hhead] at hline
  exact ⟨x, xs ++ comment, hline⟩

lemma nameLine_notMem {head : Text} {c : Char} (hpre : Clean pre) (hhead : c ∉ head) (hgap : NameGap gap) (ht : c ∉ t)
    (hc : c ∈ ['/', '>', '\x7b', '\x7d']) : c ∉ pre ++ (head ++ gap ++ '=' :: (t ++ ['\n'])) := by
  have hkind : ∀ c ∈ ['/', '>', '\x7b', '\x7d'], c ≠ ';' ∧ isSpace c = false ∧ c ≠ '=' ∧ c ≠ '\n' := by decide
  obtain ⟨hsemi, hspace, heq, hnl⟩ := hkind c hc
  simp only [List.mem_append, List.mem_cons, List.not_mem_nil, or_false, not_or]
  exact ⟨hpre.notMem hsemi hspace, ⟨hhead, hgap.notMem hspace⟩, heq, ht, hnl⟩

lemma loadLine_splitWords {line first : Text} {rest : List Text} (hs : s.InBody) (hgt : '>' ∉ line)
    (hbrace : '\x7d' ∉ line) (hwords : splitLine line = first :: rest) (hfirst : first ∉ specialWords) :
    s.loadLine line =
      (if 2 < (first :: rest).length then proto3Field (first :: rest) else some {}).map fun m => s.addFields [m] := by
  rw [Loading.loadLine_of_splitLine hwords hfirst, hs.loadDefinition hbrace, loadFiledLine_proto3 hgt, hwords]

lemma loadLine_words {line first : Text} {rest : List Text} (hs : s.InBody)
    (hchars : ∀ c ∈ ['/', '>', '\x7d'], c ∉ line) (hwords : lineWords line = first :: rest)
    (hfirst : first ∉ specialWords) : s.loadLine line =
      (if 2 < (first :: rest).length then proto3Field (first :: rest) else some {}).map fun m => s.addFields [m] :=
  loadLine_splitWords hs (hchars _ (by simp)) (hchars _ (by simp))
    ((splitLine_of_notMem (hchars '/' (by simp))).trans hwords) hfirst

lemma TypeName.notMem_specialWords (type : TypeName) : type.1 ∉ specialWords := fun hmem =>
  type.2.2.2 (List.mem_append_left [str "repeated"] hmem)

lemma TypeName.ne_repeated (type : TypeName) : type.1 ≠ str "repeated" := fun heq =>
  type.2.2.2 (by rw [heq]; simp)

lemma head_notMem {word name : Text} {c : Char} (hword : c ∉ word) (hname : c ∉ name) (hc : c ≠ ' ') (k : ℕ) :
    c ∉ word ++ List.replicate k ' ' ++ name := by
  simp only [List.mem_append, not_or]
  exact ⟨⟨hword, fun hmem => hc (List.eq_of_mem_replicate hmem)⟩, hname⟩

lemma head_chars_notMem {word : Text} (hword : ∀ c ∈ ['/', '>', '\x7d'], c ∉ word) (k : ℕ) (name : Ident) :
    ∀ c ∈ ['/', '>', '\x7d'], c ∉ word ++ List.replicate (k + 1) ' ' ++ name.1 := by
  have hkind : ∀ c ∈ ['/', '>', '\x7d'], c ∈ [' ', '=', ';', '/', '>', '\x7b', '\x7d'] ∧ c ≠ ' ' := by decide
  intro c hc
  obtain ⟨hplain, hspace⟩ := hkind c hc
  exact head_notMem (hword c hc) (name.plain.not_mem hplain) hspace _

lemma TypeName.chars (type : TypeName) : ∀ c ∈ ['/', '>', '\x7d'], c ∉ type.1 := by
  have hsub : ∀ c ∈ ['/', '>', '\x7d'], c ∈ [' ', '=', ';', '/', '>', '\x7b', '\x7d'] := by decide
  exact fun c hc => type.plain.not_mem (hsub c hc)

lemma plain_map : Plain (str "map") := ⟨by decide, by decide⟩

lemma FieldRule.Bears.notMem {rule : FieldRule} (h : rule.Bears t) (hmap : rule.isMap = false) :
    '>' ∉ t ∧ '\x7d' ∉ t := by
  refine ⟨fun hmem => ?_, h.1⟩
  rw [h.2 hmem] at hmap
  cases hmap

/-- The line of a field that is no map, with the words that its type and its name begin. -/
lemma loadLine_nameLine (ws : List Text) (hs : s.InBody) (hpre : Clean pre) {word : Text}
    (hword : ∀ c ∈ ['/', '>', '\x7d'], c ∉ word) (hfirst : ∃ c cs, word = c :: cs ∧ isSpace c = false) (k : ℕ)
    (name : Ident) (hgap : NameGap gap) (ht : '>' ∉ t ∧ '\x7d' ∉ t) {first : Text} (hspecial : first ∉ specialWords)
    (hwords : ∀ t', ∃ x xs, dataWords (word ++ List.replicate (k + 1) ' ' ++ name.1 ++ gap ++ '=' :: t') =
      first :: ws ++ x :: xs) :
    ∃ x xs, s.loadLine (pre ++ (word ++ List.replicate (k + 1) ' ' ++ name.1 ++ gap ++ '=' :: (t ++ ['\n']))) =
      (if 2 < (first :: ws ++ x :: xs).length then proto3Field (first :: ws ++ x :: xs) else some {}).map
        fun m => s.addFields [m] := by
  have hhead := head_chars_notMem hword k name
  obtain ⟨c, cs, hcons, hc⟩ := hfirst
  have hslash : '/' ∉ word ++ List.replicate (k + 1) ' ' ++ name.1 ++ gap :=
    List.not_mem_append (hhead _ (by simp)) (hgap.notMem (by decide))
  have ha : ∃ c cs, word ++ List.replicate (k + 1) ' ' ++ name.1 ++ gap = c :: cs ∧ isSpace c = false :=
    ⟨c, cs ++ List.replicate (k + 1) ' ' ++ name.1 ++ gap, by rw [hcons]; rfl, hc⟩
  obtain ⟨x, xs, hline⟩ := splitLine_nameLine _ hpre ha hslash hwords (t ++ ['\n'])
  exact ⟨x, xs, loadLine_splitWords hs (nameLine_notMem hpre (hhead _ (by simp)) hgap ht.1 (by simp))
    (nameLine_notMem hpre (hhead _ (by simp)) hgap ht.2 (by simp)) hline hspecial⟩

lemma loadLine_singular (hs : s.InBody) (hpre : Clean pre) (type : TypeName) (k : ℕ) (name : Ident) (hgap : NameGap gap)
    (ht : '>' ∉ t ∧ '\x7d' ∉ t) : ∃ m,
      s.loadLine (pre ++ (type.1 ++ List.replicate (k + 1) ' ' ++ name.1 ++ gap ++ '=' :: (t ++ ['\n']))) =
        some (s.addFields [m]) ∧ m.name = name.1 ∧ m.type = type.1 := by
  obtain ⟨x, xs, hline⟩ := loadLine_nameLine [name.1] hs hpre type.chars
    (by simpa using exists_cons_of_plain type.plain []) k name hgap ht type.notMem_specialWords
    fun t' => headWords k type.plain name.plain hgap
  refine ⟨⟨name.1, type.1, x, str "optional", xs.drop 1⟩, ?_, rfl, rfl⟩
  rw [hline, if_pos (by simp)]
  exact congrArg (Option.map _) (proto3Field_singular type.ne_repeated)

/-- A field with a word before its type. -/
lemma loadLine_labelled (hs : s.InBody) (hpre : Clean pre) {label : Text} (hlabel : Plain label)
    (hspecial : label ∉ specialWords) (type : TypeName) (j k : ℕ) (name : Ident) (hgap : NameGap gap)
    (ht : '>' ∉ t ∧ '\x7d' ∉ t) : ∃ x xs, s.loadLine (pre ++ (label ++ List.replicate (j + 1) ' ' ++ type.1 ++
        List.replicate (k + 1) ' ' ++ name.1 ++ gap ++ '=' :: (t ++ ['\n']))) =
      (proto3Field (label :: type.1 :: name.1 :: x :: xs)).map fun m => s.addFields [m] := by
  have hsub : ∀ c ∈ ['/', '>', '\x7d'], c ∈ [' ', '=', ';', '/', '>', '\x7b', '\x7d'] ∧ c ≠ ' ' := by decide
  have hword : ∀ c ∈ ['/', '>', '\x7d'], c ∉ label ++ List.replicate (j + 1) ' ' ++ type.1 := fun c hc =>
    head_notMem (hlabel.not_mem (hsub c hc).1) (type.chars c hc) (hsub c hc).2 _
  obtain ⟨c, cs, hcons, hc⟩ := exists_cons_of_plain hlabel (List.replicate (j + 1) ' ' ++ type.1)
  rw [← List.append_assoc] at hcons
  obtain ⟨x, xs, hline⟩ := loadLine_nameLine [type.1, name.1] hs hpre hword ⟨c, cs, hcons, hc⟩ k name hgap ht
    hspecial fun t' => by
      obtain ⟨x, xs, hwords⟩ := headWords k (t := t') type.plain name.plain hgap
      have hassoc : label ++ List.replicate (j + 1) ' ' ++ type.1 ++ List.replicate (k + 1) ' ' ++ name.1 ++ gap ++
          '=' :: t' = label ++ ' ' :: (List.replicate j ' ' ++
            (type.1 ++ List.replicate (k + 1) ' ' ++ name.1 ++ gap ++ '=' :: t')) := by simp [List.replicate_succ]
      refine ⟨x, xs, ?_⟩
      rw [hassoc, dataWords_append_space, dataWords_replicate_append, hlabel.dataWords_eq, hwords]
      rfl
  exact ⟨x, xs, by rw [hline, if_pos (by simp)]; rfl⟩

lemma loadLine_optional (hs : s.InBody) (hpre : Clean pre) (type : TypeName) (j k : ℕ) (name : Ident)
    (hgap : NameGap gap) (ht : '>' ∉ t ∧ '\x7d' ∉ t) : ∃ m, s.loadLine (pre ++ (str "optional" ++
        List.replicate (j + 1) ' ' ++ type.1 ++ List.replicate (k + 1) ' ' ++ name.1 ++ gap ++ '=' :: (t ++ ['\n']))) =
      some (s.addFields [m]) ∧ m.name = type.1 := by
  have hplain : Plain (str "optional") := ⟨by decide, by decide⟩
  obtain ⟨x, xs, hline⟩ := loadLine_labelled hs hpre hplain (by decide) type j k name hgap ht
  rw [proto3Field_singular (by decide)] at hline
  exact ⟨_, hline, rfl⟩

lemma loadLine_repeated (hs : s.InBody) (hpre : Clean pre) (type : TypeName) (j k : ℕ) (name : Ident)
    (hgap : NameGap gap) (ht : '>' ∉ t ∧ '\x7d' ∉ t) : ∃ m, s.loadLine (pre ++ (str "repeated" ++
        List.replicate (j + 1) ' ' ++ type.1 ++ List.replicate (k + 1) ' ' ++ name.1 ++ gap ++ '=' :: (t ++ ['\n']))) =
      some (s.addFields [m]) ∧ m.name = name.1 ∧ m.type = type.1 := by
  have hplain : Plain (str "repeated") := ⟨by decide, by decide⟩
  obtain ⟨x, xs, hline⟩ := loadLine_labelled hs hpre hplain (by decide) type j k name hgap ht
  rw [proto3Field_repeated] at hline
  exact ⟨_, hline, rfl, rfl⟩

lemma MapTypes.notMem (types : MapTypes) {c : Char} (hc : c ∈ ['/', '>', '\x7d']) : c ∉ str "map" ++ types.1 := by
  have hkind : ∀ c ∈ ['/', '>', '\x7d'],
      c ∉ str "map" ∧ (isIdent c || ['.', ',', '<'].contains c || isBlank c) = false := by decide
  obtain ⟨hmap, hchar⟩ := hkind c hc
  exact List.not_mem_append hmap (notMem_of_all types.2 hchar)

lemma loadLine_map (hs : s.InBody) (hpre : Clean pre) (types : MapTypes) (k : ℕ) (name : Ident) (hgap : NameGap gap)
    (ht : '\x7d' ∉ t) : ∃ m, s.loadLine (pre ++
        (str "map" ++ types.1 ++ ['>'] ++ List.replicate (k + 1) ' ' ++ name.1 ++ gap ++ '=' :: (t ++ ['\n']))) =
      some (s.addFields [m]) ∧ m.name = name.1 := by
  have hassoc : pre ++ (str "map" ++ types.1 ++ ['>'] ++ List.replicate (k + 1) ' ' ++ name.1 ++ gap ++
      '=' :: (t ++ ['\n'])) = (pre ++ (str "map" ++ types.1)) ++
        '>' :: (List.replicate (k + 1) ' ' ++ (name.1 ++ gap ++ '=' :: (t ++ ['\n']))) := by simp
  have hspaces : Clean (List.replicate (k + 1) ' ') := Clean.of_spaces fun c hc => by
    rw [List.eq_of_mem_replicate hc]
    decide
  have hbrace : '\x7d' ∉ (pre ++ (str "map" ++ types.1)) ++
      '>' :: (List.replicate (k + 1) ' ' ++ (name.1 ++ gap ++ '=' :: (t ++ ['\n']))) := by
    have hbehind := nameLine_notMem (c := '\x7d') hspaces (name.plain.not_mem (by simp)) hgap ht (by simp)
    rw [List.mem_append, List.mem_append, List.mem_cons, not_or, not_or, not_or]
    exact ⟨⟨hpre.notMem (by decide) (by decide), types.notMem (by simp)⟩, by decide, hbehind⟩
  have hslash : '/' ∉ name.1 ++ gap := List.not_mem_append (name.plain.not_mem (by simp)) (hgap.notMem (by decide))
  obtain ⟨x, xs, hwords⟩ := splitLine_nameLine [name.1] hspaces (exists_cons_of_plain name.plain gap) hslash
    (fun t' => nameWords name.plain hgap.front (hgap.notMem (by decide))) (t ++ ['\n'])
  obtain ⟨m, hm, hname⟩ := loadFiledLine_map rfl
    (List.not_mem_append (hpre.notMem (by decide) (by decide)) (types.notMem (c := '>') (by simp)))
    hwords (str "\"proto3\"") (str "message")
  obtain ⟨y, ys, hline⟩ := splitLine_head hpre plain_map (types.1 ++
    '>' :: (List.replicate (k + 1) ' ' ++ (name.1 ++ gap ++ '=' :: (t ++ ['\n']))))
  have hassoc' : pre ++ (str "map" ++ (types.1 ++ '>' :: (List.replicate (k + 1) ' ' ++ (name.1 ++ gap ++
      '=' :: (t ++ ['\n']))))) = (pre ++ (str "map" ++ types.1)) ++
        '>' :: (List.replicate (k + 1) ' ' ++ (name.1 ++ gap ++ '=' :: (t ++ ['\n']))) := by simp
  rw [hassoc'] at hline
  refine ⟨m, ?_, hname⟩
  rw [hassoc, Loading.loadLine_of_splitLine hline (notMem_specialWords (by decide)), hs.loadDefinition hbrace, hm]
  rfl

lemma Gap.Splits.exists_eq {gap : Gap} (h : gap.Splits) : ∃ k, gap.1 = List.replicate (k + 1) ' ' := by
  obtain ⟨k, hk⟩ := Nat.exists_eq_add_one_of_ne_zero (List.length_pos_of_ne_nil gap.2.1).ne'
  exact ⟨k, hk ▸ List.eq_replicate_of_mem h⟩

lemma loadLine_name (hs : s.InBody) (hpre : Clean pre) (field : ProtoField) (hsplits : field.Splits)
    (hgap : NameGap gap) (ht : field.rule.Bears t) :
    ∃ m, s.loadLine (pre ++ (field.head ++ gap ++ '=' :: (t ++ ['\n']))) = some (s.addFields [m]) ∧ field.ReadAs m := by
  obtain ⟨hrule, hgapSplits⟩ := hsplits
  obtain ⟨k, hk⟩ := hgapSplits.exists_eq
  obtain ⟨rule, gap', name, tag, options⟩ := field
  rw [ProtoField.head, hk]
  cases rule with
  | singular type =>
    obtain ⟨m, hm, hread⟩ := loadLine_singular hs hpre type k name hgap (ht.notMem rfl)
    exact ⟨m, hm, hread⟩
  | optional gap'' type =>
    obtain ⟨j, hj⟩ := Gap.Splits.exists_eq hrule
    obtain ⟨m, hm, hread⟩ := loadLine_optional hs hpre type j k name hgap (ht.notMem rfl)
    exact ⟨m, by rw [FieldRule.text, hj]; exact hm, hread⟩
  | repeated gap'' type =>
    obtain ⟨j, hj⟩ := Gap.Splits.exists_eq hrule
    obtain ⟨m, hm, hread⟩ := loadLine_repeated hs hpre type j k name hgap (ht.notMem rfl)
    exact ⟨m, by rw [FieldRule.text, hj]; exact hm, hread⟩
  | map types =>
    obtain ⟨m, hm, hread⟩ := loadLine_map hs hpre types k name hgap ht.1
    exact ⟨m, hm, hread⟩

end NameLine

section TagLine

variable {s : Loading} {w v : Text}

lemma Tag.append_notMem (tag : Tag) (x : Text) : tag.1 ++ x ∉ specialWords ∧ tag.1 ++ x ≠ str "repeated" := by
  obtain ⟨c, cs, heq, hdigit⟩ := tag.exists_cons
  rw [heq, List.cons_append]
  refine ⟨notMem_specialWords fun hmem => ?_, fun hrep => ?_⟩
  · simp only [List.mem_cons, List.not_mem_nil, or_false] at hmem
    obtain rfl | rfl | rfl := hmem <;> exact absurd hdigit (by decide)
  · obtain rfl : c = 'r' := (List.cons.inj hrep).1
    exact absurd hdigit (by decide)

lemma loadLine_tag (hs : s.InBody) (hw : ∀ c ∈ w, isSpace c = true) (tag : Tag) (hv : Gaps v) :
    ∃ m, s.loadLine (w ++ (tag.1 ++ (v ++ ['\n']))) = some (s.addFields [m]) ∧
      ∀ name : Ident, m.name ≠ name.1 := by
  have hrest : ∀ c ∈ (v ++ ['\n']).rdropWhile isSpace, isSpace c = true ∨ c = ';' := by
    intro c hc
    obtain hc | hc := List.mem_append.mp ((List.rdropWhile_prefix _ _).subset hc)
    · exact (hv c hc).1
    · rw [List.mem_singleton.mp hc]
      exact .inl (by decide)
  have hnot : ∀ {c}, isSpace c = false → c ≠ ';' → c ∉ (v ++ ['\n']).rdropWhile isSpace := by
    intro c hspace hsemi hmem
    obtain hc | hc := hrest c hmem
    · rw [hspace] at hc
      cases hc
    · exact hsemi hc
  obtain ⟨x, xs, hwords, -, hxs⟩ := tagWords tag.plain (hnot (c := '=') (by decide) (by decide))
  rw [← lineWords_plain hw tag.plain] at hwords
  have hchars : ∀ c ∈ ['/', '>', '\x7d'], c ∉ w ++ (tag.1 ++ (v ++ ['\n'])) := by
    have hkind : ∀ c ∈ ['/', '>', '\x7d'], isSpace c = false ∧ c ≠ ';' ∧ c ≠ '\n' ∧
        c ∈ [' ', '=', ';', '/', '>', '\x7b', '\x7d'] := by decide
    intro c hc hmem
    obtain ⟨hspace, hsemi, hnl, hplain⟩ := hkind c hc
    simp only [List.mem_append, List.mem_singleton] at hmem
    obtain hmem | hmem | hmem | hmem := hmem
    · rw [hw c hmem] at hspace
      cases hspace
    · exact tag.plain.not_mem hplain hmem
    · obtain h | h := (hv c hmem).1
      · rw [hspace] at h
        cases h
      · exact hsemi h
    · exact hnl hmem
  obtain ⟨hspecial, hrepeated⟩ := tag.append_notMem x
  rw [loadLine_words hs hchars hwords hspecial]
  match xs with
  | [] => exact ⟨{}, rfl, fun name heq => name.2.1 heq.symm⟩
  | [_] => exact ⟨{}, rfl, fun name heq => name.2.1 heq.symm⟩
  | y :: z :: zs =>
    rw [if_pos (by simp), proto3Field_singular hrepeated]
    refine ⟨_, rfl, fun name (heq : y = name.1) => ?_⟩
    obtain ⟨-, hy, hsemi⟩ := hxs y (List.mem_cons_self ..)
    obtain ⟨c, cs, hcs⟩ := List.exists_cons_of_ne_nil name.2.1
    have hmem : c ∈ y := heq ▸ hcs ▸ List.mem_cons_self ..
    have hident := isSpace_of_isIdent (name.2.2 c (hcs ▸ List.mem_cons_self ..))
    obtain hspace | rfl := hrest c (hy c hmem).1
    · rw [hident] at hspace
      cases hspace
    · exact hsemi hmem

lemma rdropWhile_of_spaces {t : Text} (h : ∀ c ∈ t, isSpace c = true) : t.rdropWhile isSpace = [] :=
  List.rdropWhile_eq_nil_iff.mpr h

lemma loadLine_semicolon (hw : ∀ c ∈ w, isSpace c = true) (hv : ∀ c ∈ v, isSpace c = true) :
    s.loadLine (w ++ ';' :: (v ++ ['\n'])) = some s := by
  have hspaces : ∀ c ∈ v ++ ['\n'], isSpace c = true := by
    intro c hc
    obtain hc | hc := List.mem_append.mp hc
    · exact hv c hc
    · rw [List.mem_singleton.mp hc]
      decide
  refine Loading.loadLine_of_nil ?_ ?_
  · rw [List.mem_append, List.mem_cons]
    rintro (hmem | hmem | hmem)
    · exact absurd (hw _ hmem) (by decide)
    · cases hmem
    · exact absurd (hspaces _ hmem) (by decide)
  · rw [lineWords, strip_append_cons hw (by decide), rdropWhile_of_spaces hspaces]
    rfl

/-- What is left of a line that a brace ends has a first word that does not matter, whatever stands behind the brace. -/
def Closing (rest : Text) : Prop :=
  ∀ t, ∃ first ws, splitLine (rest ++ '\x7d' :: t) = first :: ws ∧ first ∉ specialWords

lemma Closing.loadLine {rest : Text} (h : Closing rest) (hs : s.InBody) (hname : s.cur_pb_meta.name ≠ []) (t : Text) :
    s.loadLine (rest ++ '\x7d' :: t) = some s.close := by
  obtain ⟨first, ws, hwords, hfirst⟩ := h t
  rw [Loading.loadLine_of_splitLine hwords hfirst, hs.loadDefinition_brace (by simp),
    if_pos (List.length_pos_of_ne_nil hname)]

lemma closing_of_lineWords {rest : Text} (hslash : '/' ∉ rest)
    (h : ∀ t, ∃ first ws, lineWords (rest ++ '\x7d' :: t) = first :: ws ∧ first ∉ specialWords) : Closing rest := by
  intro t
  have hfront : '/' ∉ rest ++ ['\x7d'] := List.not_mem_append hslash (by decide)
  obtain ⟨t', comment, hline⟩ := splitLine_append hfront t
  rw [List.append_assoc, List.append_assoc] at hline
  obtain ⟨first, ws, hwords, hfirst⟩ := h t'
  exact ⟨first, ws ++ comment, hline.trans (by rw [List.singleton_append, hwords, List.cons_append]), hfirst⟩

lemma begins_brace : Begins ['\x7d'] := ⟨by decide, by decide, by decide, by decide⟩

lemma Clean.closing {pre : Text} (h : Clean pre) : Closing pre := by
  refine closing_of_lineWords (h.notMem (by decide) (by decide)) fun t => ?_
  obtain ⟨x, xs, hwords⟩ := dataWords_head begins_brace (t.rdropWhile isSpace)
  refine ⟨_, xs, ?_, notMem_specialWords (c := '\x7d') (t := x) (by decide)⟩
  rw [h.words (by decide), lineWords_cons (by decide)]
  exact hwords

lemma closing_tag (hw : ∀ c ∈ w, isSpace c = true) (tag : Tag) (hv : Gaps v) : Closing (w ++ (tag.1 ++ v)) := by
  refine closing_of_lineWords ?_ fun t => ?_
  · rw [List.mem_append, List.mem_append]
    rintro (hmem | hmem | hmem)
    · exact absurd (hw _ hmem) (by decide)
    · exact tag.plain.not_mem (by simp) hmem
    · obtain h | h := (hv _ hmem).1
      · exact absurd h (by decide)
      · cases h
  · obtain ⟨x, xs, hwords⟩ := dataWords_head tag.plain.begins ((v ++ '\x7d' :: t).rdropWhile isSpace)
    rw [← lineWords_plain hw tag.plain] at hwords
    rw [List.append_assoc, List.append_assoc]
    exact ⟨_, xs, hwords, (tag.append_notMem x).1⟩

/-- Before a character that is part of a word, spaces are none or begin a word of their own. -/
lemma dataWords_spaces_head {c : Char} (hv : ∀ d ∈ v, isSpace d = true) (hc : c ∉ [' ', '=', ';']) (t : Text) :
    ∃ d cs ws, dataWords (v ++ c :: t) = (d :: cs) :: ws ∧ (isSpace d = true ∨ d = c) := by
  have hbegins : ∀ {a : Text}, (∀ d ∈ a, isSpace d = true) → ' ' ∉ a → '=' ∉ a ∧ ';' ∉ a := fun ha _ =>
    ⟨fun hmem => absurd (ha _ hmem) (by decide), fun hmem => absurd (ha _ hmem) (by decide)⟩
  induction hlen : v.length using Nat.strongRecOn generalizing v with
  | ind n ih =>
    by_cases hmem : ' ' ∈ v
    · obtain ⟨u, v', rfl, hu⟩ := List.eq_append_cons_of_mem hmem
      have huSpaces : ∀ d ∈ u, isSpace d = true := fun d hd => hv d (List.mem_append_left _ hd)
      rw [List.append_assoc, List.cons_append, dataWords_append_space, dataWords_of_notMem hu]
      cases u with
      | nil =>
        have hlt : v'.length < n := by
          rw [← hlen, List.nil_append, List.length_cons]
          omega
        exact ih v'.length hlt (fun d hd => hv d (List.mem_append_right _ (List.mem_cons_of_mem _ hd))) rfl
      | cons d cs =>
        obtain ⟨heq, hsemi⟩ := hbegins huSpaces hu
        rw [splitWord_plain (List.cons_ne_nil d cs) heq hsemi]
        exact ⟨d, cs, _, rfl, .inl (huSpaces d (List.mem_cons_self ..))⟩
    · obtain ⟨heq, hsemi⟩ := hbegins hv hmem
      simp only [List.mem_cons, List.not_mem_nil, or_false, not_or] at hc
      have hword : Begins (v ++ [c]) := ⟨by simp, List.not_mem_append hmem (by simpa using Ne.symm hc.1),
        List.not_mem_append heq (by simpa using Ne.symm hc.2.1),
        List.not_mem_append hsemi (by simpa using Ne.symm hc.2.2)⟩
      obtain ⟨x, xs, hwords⟩ := dataWords_head hword t
      rw [List.append_assoc, List.append_assoc, List.singleton_append, List.singleton_append] at hwords
      cases v with
      | nil => exact ⟨c, x, xs, hwords, .inr rfl⟩
      | cons d v => exact ⟨d, _, xs, hwords, .inl (hv d (List.mem_cons_self ..))⟩

lemma closing_semicolon (hw : ∀ c ∈ w, isSpace c = true) (hv : ∀ c ∈ v, isSpace c = true) (hspace : ' ' ∈ v) :
    Closing (w ++ ';' :: v) := by
  refine closing_of_lineWords ?_ fun t => ?_
  · rw [List.mem_append, List.mem_cons]
    rintro (hmem | hmem | hmem)
    · exact absurd (hw _ hmem) (by decide)
    · cases hmem
    · exact absurd (hv _ hmem) (by decide)
  · obtain ⟨u, v', rfl, hu⟩ := List.eq_append_cons_of_mem hspace
    have hv' : ∀ c ∈ v', isSpace c = true := fun c hc => hv c (List.mem_append_right _ (List.mem_cons_of_mem _ hc))
    have heq : '=' ∉ u := fun hmem => absurd (hv _ (List.mem_append_left _ hmem)) (by decide)
    have hsemi : ' ' ∉ ';' :: u := by
      rw [List.mem_cons]
      rintro (h | h)
      · cases h
      · exact hu h
    have hwords : lineWords (w ++ ';' :: (u ++ ' ' :: v') ++ '\x7d' :: t) =
        dataWords (v' ++ '\x7d' :: t.rdropWhile isSpace) := by
      have hend : (u ++ ' ' :: v' ++ '\x7d' :: t).rdropWhile isSpace =
          u ++ ' ' :: v' ++ '\x7d' :: t.rdropWhile isSpace := rdropWhile_append_cons (by decide)
      have hassoc : ';' :: (u ++ ' ' :: v' ++ '\x7d' :: t.rdropWhile isSpace) =
          (';' :: u) ++ ' ' :: (v' ++ '\x7d' :: t.rdropWhile isSpace) := by simp
      rw [List.append_assoc, List.cons_append, lineWords, strip_append_cons hw (by decide), hend, hassoc,
        dataWords_append_space, dataWords_of_notMem hsemi, splitWord_semicolon heq]
      rfl
    obtain ⟨d, cs, ws, hfirst, hd⟩ := dataWords_spaces_head (c := '\x7d') hv' (by decide) (t.rdropWhile isSpace)
    refine ⟨_, ws, hwords.trans hfirst, notMem_specialWords fun hmem => ?_⟩
    simp only [List.mem_cons, List.not_mem_nil, or_false] at hmem
    obtain hd | rfl := hd
    · obtain rfl | rfl | rfl := hmem <;> exact absurd hd (by decide)
    · exact absurd hmem (by decide)

end TagLine

end TonyCat.Tools
