import Mathlib.Data.Finset.Insert
import TonyCat.Tools.LineTurns

set_option autoImplicit false

/-! Files with one key, which a layout that is not good loses. -/

namespace TonyCat.Tools

open TonyCat.Library

def keyName : Ident := ⟨['k'], by decide⟩

def tableName : Ident := ⟨['K'], by decide⟩

def int32 : TypeName := ⟨str "int32", by decide⟩

def padName (n : ℕ) : Ident :=
  ⟨List.replicate (n + 1) 'a', by simp, fun c hc => by rw [List.eq_of_mem_replicate hc]; decide⟩

lemma padName_injective : Function.Injective padName := by
  intro n n' h
  have hlen := congrArg (List.length ∘ Subtype.val) h
  simpa [padName] using hlen

lemma mem_padName {n : ℕ} {c : Char} (h : c ∈ (padName n).1) : c = 'a' := List.eq_of_mem_replicate h

lemma padName_ne {n : ℕ} {name : Ident} (h : 'a' ∉ name.1) : padName n ≠ name := by
  rintro rfl
  exact h (List.mem_cons_self ..)

lemma nodup_concat_padName {name : Ident} (h : 'a' ∉ name.1) (n : ℕ) :
    ((List.range n).map padName ++ [name]).Nodup := by
  rw [List.nodup_append]
  refine ⟨(List.nodup_range).map padName_injective, List.nodup_singleton _, fun a ha b hb => ?_⟩
  obtain ⟨m, -, rfl⟩ := List.mem_map.mp ha
  rw [List.mem_singleton.mp hb]
  exact padName_ne h

def noText : Line := ⟨[], List.not_mem_nil⟩

def noIndent : Indent := ⟨[], fun _ hc => absurd hc List.not_mem_nil⟩

def spaceIndent : Indent := ⟨[' '], by decide⟩

def plainNote : NoteLayout := ⟨noIndent, spaceIndent, spaceIndent, noText⟩

def oneSpace : Gap := ⟨[' '], by decide⟩

lemma oneSpace_splits : oneSpace.Splits := fun _ hc => List.mem_singleton.mp hc

def oneTag : Tag := ⟨['1'], by decide⟩

def padField (n : ℕ) : ProtoField := ⟨.singular int32, oneSpace, padName n, oneTag, []⟩

def keyField : ProtoField := ⟨.singular int32, oneSpace, keyName, oneTag, []⟩

lemma fieldsOf_map (fields : List ProtoField) : fieldsOf (fields.map .field) = fields := by
  rw [fieldsOf, List.filterMap_map]
  exact List.filterMap_some

def padMessage (n : ℕ) : ProtoMessage where
  lead := []
  keyComment := none
  note := plainNote
  indent := noIndent
  gap := oneSpace
  name := padName n
  remark := noText
  items := []
  closing := noText
  distinct := List.nodup_nil
  declared := nofun

def tableMessage (n : ℕ) : ProtoMessage where
  lead := []
  keyComment := some (.one keyName)
  note := plainNote
  indent := noIndent
  gap := oneSpace
  name := tableName
  remark := noText
  items := ((List.range n).map padField ++ [keyField]).map .field
  closing := noText
  distinct := by
    rw [fieldsOf_map, List.map_append, List.map_map]
    exact nodup_concat_padName (by decide) n
  declared := by
    rintro comment hcomment key hkey
    cases hcomment
    rw [List.mem_singleton.mp hkey]
    exact ⟨keyField, by rw [fieldsOf_map]; simp, rfl, by decide⟩

lemma titleFits_padMessage (n : ℕ) : (padMessage n).TitleFits where
  note := nofun
  gap := oneSpace_splits
  remark := .inl rfl
  comment := rfl
  brace := List.not_mem_nil

lemma splitLine_keyNote : splitLine ((KeyComment.one keyName).line plainNote ++ ['\n']) =
    [str "//", str "user_data", str "key=" ++ keyName.1] := by decide

lemma titleFits_tableMessage (n : ℕ) : (tableMessage n).TitleFits where
  note comment hcomment := by
    cases hcomment
    exact ⟨[], splitLine_keyNote⟩
  gap := oneSpace_splits
  remark := .inl rfl
  comment := rfl
  brace := List.not_mem_nil

def syntaxLine : Line := ⟨str "syntax = \"proto3\";", by decide⟩

lemma setsVersion_syntaxLine : SetsVersion (Line.render syntaxLine) := ⟨by decide, by decide, by decide⟩

def tableFile (i n : ℕ) : ProtoFile where
  preamble := []
  version := syntaxLine
  header := []
  package := none
  messages := (List.range i).map padMessage ++ [tableMessage n]
  trailer := some []
  distinct := by
    rw [List.map_append, List.map_map]
    have ha : 'a' ∉ tableName.1 := by decide
    exact nodup_concat_padName ha i

lemma keysAbove_append_left {fullName : Ident → Text} {messages : List ProtoMessage}
    (h : ∀ message ∈ messages, message.keyComment = none) (messages' : List ProtoMessage) (name : Text) :
    keysAbove fullName (messages ++ messages') name = keysAbove fullName messages' name := by
  induction messages with
  | nil => rfl
  | cons message messages ih =>
    have hnone : message.keysOf = none := by
      rw [ProtoMessage.keysOf, h message (List.mem_cons_self ..), Option.map_none]
    rw [List.cons_append, keysAbove_cons, hnone, ite_self, Option.none_or]
    exact ih fun message' hmem => h message' (List.mem_cons_of_mem _ hmem)

lemma annotated_tableFile (i n : ℕ) : (tableFile i n).annotated tableName.1 = some {keyName.1} := by
  have hpad : ∀ message ∈ (List.range i).map padMessage, message.keyComment = none := by
    intro message hmem
    obtain ⟨m, -, rfl⟩ := List.mem_map.mp hmem
    rfl
  have htable : (tableFile i n).fullName (tableMessage n).name = tableName.1 := rfl
  have hmessages : (tableFile i n).messages = (List.range i).map padMessage ++ [tableMessage n] := rfl
  rw [ProtoFile.annotated, hmessages, keysAbove_append_left hpad, keysAbove_cons, if_pos htable]
  rfl

lemma foldl_addKeys_eq_some {metas : List PbMeta} {keysOf : Text → Option (Finset Text)} {name : Text}
    {keys : Finset Text} (h : metas.foldl addKeys keysOf name = some keys) :
    keysOf name = some keys ∨ ∃ m ∈ metas, m.msgName = name ∧ ∀ key ∈ keys, m.isKey key = true := by
  induction metas generalizing keysOf with
  | nil => exact .inl h
  | cons m metas ih =>
    obtain h | ⟨m', hmem, hm'⟩ := ih h
    · rw [addKeys] at h
      cases hnames : m.keyNames with
      | some names =>
        simp only [hnames] at h
        by_cases hname : name = m.msgName
        · rw [hname, Function.update_self] at h
          refine .inr ⟨m, List.mem_cons_self .., hname.symm, fun key hkey => ?_⟩
          rw [← Option.some.inj h] at hkey
          exact List.mem_takeWhile_imp (List.mem_toFinset.mp hkey)
        · rw [Function.update_of_ne hname] at h
          exact .inl h
      | none =>
        rw [hnames] at h
        exact .inl h
    · exact .inr ⟨m', List.mem_cons_of_mem _ hmem, hm'⟩

def Found (metas : List PbMeta) : Prop := ∃ m ∈ metas, m.name = tableName.1 ∧ m.isKey keyName.1 = true

lemma found_of_annotated {i n : ℕ} {metas : List PbMeta} (h : mapMesssageKeys metas = (tableFile i n).annotated) :
    Found metas := by
  have hkeys := congrFun h tableName.1
  rw [annotated_tableFile] at hkeys
  obtain hnone | ⟨m, hmem, hname, hkey⟩ := foldl_addKeys_eq_some hkeys
  · cases hnone
  · refine ⟨m, hmem, ?_, hkey _ (Finset.mem_singleton_self _)⟩
    rw [PbMeta.msgName] at hname
    split_ifs at hname
    · exact hname
    · have hdot : '.' ∈ tableName.1 := hname ▸ List.mem_append_right _ (List.mem_cons_self ..)
      exact absurd hdot (by decide)

lemma Unnamed.not_found {s : Loading} (h : Unnamed 'K' s) : ¬ Found s.pb_metas := by
  rintro ⟨m, hmem, hname, -⟩
  exact h.metas m hmem hname

lemma Unkeyed.not_found {s : Loading} (h : Unkeyed 'k' s) : ¬ Found s.pb_metas := by
  rintro ⟨m, hmem, -, hkey⟩
  rw [PbMeta.isKey, PbMeta.getPbMetaFieldByName] at hkey
  split at hkey
  next field hfield =>
    have hname : field.name = keyName.1 := by simpa using List.find?_some hfield
    rw [h m (.inr hmem) field (List.mem_of_find?_eq_some hfield) hname] at hkey
    cases hkey
  next => cases hkey

section Feed

variable {k : Char} {r r' : Loading × Text} {as : Text}

lemma feeds_unnamed (h : Feeds r as r') (hslash : k ≠ '/') (hline : k ∉ r.2) (has : k ∉ as) (hr : Unnamed k r.1) :
    Unnamed k r'.1 :=
  (h.keeps (Q := fun c => c ≠ k) (fun hI hl hs => hI.loadLine hslash (fun hmem => hl k hmem rfl) hs) hr
    (fun _ hc heq => hline (heq ▸ hc)) fun _ hc heq => has (heq ▸ hc)).1

lemma feeds_unkeyed (h : Feeds r as r') (hslash : k ≠ '/') (hline : k ∉ r.2) (has : k ∉ as) (hr : Unkeyed k r.1) :
    Unkeyed k r'.1 :=
  (h.keeps (Q := fun c => c ≠ k) (fun hI hl hs => hI.loadLine hslash (fun hmem => hl k hmem rfl) hs) hr
    (fun _ hc heq => hline (heq ▸ hc)) fun _ hc heq => has (heq ▸ hc)).1

end Feed

lemma Blank.notMem (gap : Blank) {c : Char} (hc : isBlank c = false) : c ∉ gap.1 := notMem_of_all gap.2 hc

lemma padMessage_notMem {c : Char} (hc : c ∈ ['k', 'K', '\r']) (n : ℕ) (layout : MessageLayout) :
    c ∉ (padMessage n).render layout := by
  have hkind : ∀ c ∈ ['k', 'K', '\r'],
      isBlank c = false ∧ c ∉ str "message " ∧ c ≠ 'a' ∧ c ∉ ['\x7b', '\x7d', '\n'] := by decide
  obtain ⟨hblank, hmessage, ha, hbraces⟩ := hkind c hc
  have hrender : (padMessage n).render layout = str "message " ++ (padName n).1 ++ layout.beforeBrace.1 ++
      '\x7b' :: layout.afterBrace.1 ++ ['\x7d', '\n'] := by
    simp [ProtoMessage.render, ProtoMessage.text, ProtoMessage.opening, ProtoMessage.above, ProtoMessage.title,
      ProtoMessage.ending, Line.render, padMessage, noText, noIndent, oneSpace, str, renderItems, renderLines]
  simp only [List.mem_cons, List.not_mem_nil, or_false, not_or] at hbraces
  simp only [hrender, List.mem_append, List.mem_cons, List.not_mem_nil, or_false, not_or]
  exact ⟨⟨⟨⟨hmessage, fun hmem => ha (mem_padName hmem)⟩, layout.beforeBrace.notMem hblank⟩, hbraces.1,
    layout.afterBrace.notMem hblank⟩, hbraces.2⟩

lemma padMessages_notMem {c : Char} (hc : c ∈ ['k', 'K', '\r']) (i : ℕ) (layout : Layout) :
    c ∉ renderMessages ((List.range i).map padMessage) layout := by
  generalize List.range i = ns
  induction ns generalizing layout with
  | nil => nofun
  | cons n ns ih => exact List.not_mem_append (padMessage_notMem hc n _) (ih _)

lemma leadFits_of_nil {message : ProtoMessage} (h : message.lead = []) (named : Bool) : message.LeadFits named :=
  ⟨false, named, by rw [h]; rfl, fun hannotated => absurd hannotated Bool.false_ne_true⟩

structure Blind (s : Loading) : Prop where
  outside : Outside false true s
  versioned : Versioned s
  unnamed : Unnamed 'K' s
  unkeyed : Unkeyed 'k' s

lemma feeds_pads {i : ℕ} {layout : Layout} (hgood : ∀ j < i, (layout j).Good) :
    ∃ s, Feeds ({}, []) (Line.render syntaxLine ++ renderMessages ((List.range i).map padMessage) layout) (s, []) ∧
      Blind s := by
  have hfits : ∀ j message, ((List.range i).map padMessage)[j]? = some message →
      (layout j).Fits message (true || j ≠ 0) := by
    intro j message hmessage
    obtain ⟨n, hn, rfl⟩ := List.mem_map.mp (List.mem_of_getElem? hmessage)
    have hj : j < i := by simpa using (List.getElem?_eq_some_iff.mp hmessage).1
    exact .inl ⟨leadFits_of_nil rfl _, titleFits_padMessage n, (hgood j hj).1, (hgood j hj).2.1, .inl trivial⟩
  have hfresh : Outside false false {} := ⟨rfl, rfl, fun _ => rfl, fun hnot => absurd hnot Bool.false_ne_true⟩
  obtain ⟨s₁, hload, houtside, hversioned, -⟩ := setsVersion_syntaxLine.loadLine hfresh
  have hversion : Feeds ({}, []) (Line.render syntaxLine) (s₁, []) := Reads.ends syntaxLine.2 hload
  obtain ⟨s, hreads, hreading⟩ := feeds_messages _ houtside hversioned hfits
  have hpads := hversion.append hreads
  have hnot : ∀ c ∈ ['k', 'K'],
      c ∉ Line.render syntaxLine ++ renderMessages ((List.range i).map padMessage) layout := by
    have hkind : ∀ c ∈ ['k', 'K'], c ∉ Line.render syntaxLine ∧ c ∈ ['k', 'K', '\r'] := by decide
    exact fun c hc => List.not_mem_append (hkind c hc).1 (padMessages_notMem (hkind c hc).2 i layout)
  refine ⟨s, hpads, hreading.outside, hreading.versioned, ?_, ?_⟩
  · exact feeds_unnamed hpads (by decide) (by simp) (hnot 'K' (by simp)) ⟨nofun, nofun, nofun⟩
  · refine feeds_unkeyed hpads (by decide) (by simp) (hnot 'k' (by simp)) ?_
    rintro m (rfl | hm) field hfield
    · cases hfield
    · cases hm

lemma render_tableFile (i n : ℕ) (layout : Layout) : (tableFile i n).render layout = Line.render syntaxLine ++
    renderMessages ((List.range i).map padMessage) layout ++ (tableMessage n).text (layout i) := by
  have hmessages : (tableFile i n).messages = (List.range i).map padMessage ++ [tableMessage n] := rfl
  have hfront : (tableFile i n).front = Line.render syntaxLine := rfl
  have htrailer : (tableFile i n).trailer = some [] := rfl
  have hlead : renderLines (tableMessage n).lead = [] := rfl
  have hnil : renderLines [] = [] := rfl
  have hlast : 0 + ((List.range i).map padMessage).length = i := by simp
  rw [ProtoFile.render, hmessages, hfront, htrailer, renderMessages_append]
  simp only [renderMessages, ProtoMessage.render, hlead, hlast, hnil, List.nil_append, List.append_nil,
    List.append_assoc]

lemma feeds_table {i n : ℕ} {layout : Layout} {metas : List PbMeta} {text : Text} (hgood : ∀ j < i, (layout j).Good)
    (htext : universalNewlines text = (tableFile i n).render layout) (hload : loadPbFile text = some metas) :
    ∃ s s', Blind s ∧ Feeds (s, []) ((tableMessage n).text (layout i)) (s', []) ∧ s'.pb_metas = metas := by
  obtain ⟨s, hpads, hblind⟩ := feeds_pads hgood
  rw [loadPbFile, readlines, htext, render_tableFile, foldlM_linesFrom] at hload
  obtain ⟨s'', hlast, rfl⟩ := Option.map_eq_some_iff.mp hload
  obtain ⟨⟨s', line⟩, hreads, hlast⟩ := Option.bind_eq_some_iff.mp hlast
  have hall : Feeds ({}, []) (Line.render syntaxLine ++ renderMessages ((List.range i).map padMessage) layout ++
      (tableMessage n).text (layout i)) (s', line) := hreads
  have htable := hall.rest hpads
  obtain rfl : line = [] := by
    rw [ProtoMessage.text, ProtoMessage.ending_eq, ← List.append_assoc] at htable
    exact htable.snd_eq_nil
  cases hlast
  exact ⟨s, s', hblind, htable, rfl⟩

end TonyCat.Tools
