import Mathlib.Data.Nat.Find
import TonyCat.Tools.LostFields

set_option autoImplicit false

/-! The layouts in which the keys of every file are found. -/

namespace TonyCat.Tools

open TonyCat.Library

lemma exists_least {p : ℕ → Prop} (h : ¬ ∀ i, p i) : ∃ i, ¬ p i ∧ ∀ j < i, p j := by
  classical
  have hex := not_forall.mp h
  exact ⟨Nat.find hex, Nat.find_spec hex, fun j hj => not_not.mp (Nat.find_min hex hj)⟩

lemma ne_annotated {layout : Layout} {i n : ℕ} {text : Text} (hgood : ∀ j < i, (layout j).Good)
    (htext : universalNewlines text = (tableFile i n).render layout)
    (hlost : ∀ s s', Blind s → Feeds (s, []) ((tableMessage n).text (layout i)) (s', []) → ¬ Found s'.pb_metas) :
    genCode text ≠ some (tableFile i n).annotated := by
  intro heq
  obtain ⟨metas, hload, hkeys⟩ := Option.map_eq_some_iff.mp heq
  obtain ⟨s, s', hs, hreads, rfl⟩ := feeds_table hgood htext hload
  exact hlost s s' hs hreads (found_of_annotated hkeys)

/-- Of a layout that is not good, the first place that is bad loses the key of some file. -/
theorem exists_lost {layout : Layout} (h : ¬ layout.Good) : ∃ i n, ∀ text,
    universalNewlines text = (tableFile i n).render layout → genCode text ≠ some (tableFile i n).annotated := by
  obtain ⟨i, hbad, hgood⟩ := exists_least h
  by_cases hbefore : (layout i).beforeBrace.Breaks
  · by_cases hafter : (layout i).afterBrace.Breaks
    · have hfields : ¬ ∀ j, ((layout i).field j).KeepsName ∧ ((layout i).field j).FreesNext :=
        fun hall => hbad ⟨hbefore, hafter, hall⟩
      obtain ⟨n, hn, hbelow⟩ := exists_least hfields
      by_cases hkeeps : ((layout i).field n).KeepsName
      · exact ⟨i, n + 1, fun text htext => ne_annotated hgood htext fun s s' hs hreads =>
          (unkeyed_of_afterSemi hs hbefore hafter hbelow hkeeps (fun hnext => hn ⟨hkeeps, hnext⟩) hreads).not_found⟩
      · exact ⟨i, n, fun text htext => ne_annotated hgood htext fun s s' hs hreads =>
          (unkeyed_of_beforeEq hs hbefore hafter hbelow hkeeps hreads).not_found⟩
    · exact ⟨i, 0, fun text htext => ne_annotated hgood htext fun s s' hs hreads =>
        (unkeyed_of_afterBrace hs hbefore hafter hreads).not_found⟩
  · exact ⟨i, 0, fun text htext => ne_annotated hgood htext fun s s' hs hreads =>
      (unnamed_of_beforeBrace hs hbefore hreads).not_found⟩

lemma universalNewlines_of_notMem {t : Text} (h : '\r' ∉ t) : universalNewlines t = t := by
  induction t with
  | nil => rfl
  | cons c t ih =>
    rw [List.mem_cons, not_or] at h
    rw [universalNewlines, ih h.2]
    · rintro t' rfl
      exact absurd rfl h.1
    · exact Ne.symm h.1

lemma return_notMem_tableFile (i n : ℕ) (layout : Layout) : '\r' ∉ (tableFile i n).render layout := by
  have habove : '\r' ∉ (tableMessage n).above := by
    change '\r' ∉ (KeyComment.one keyName).line plainNote ++ ['\n']
    decide
  have htext : '\r' ∉ (tableMessage n).text (layout i) := by
    rw [render_table]
    refine List.not_mem_append (List.not_mem_append (List.not_mem_append (List.not_mem_append habove (by decide))
      (by decide)) (List.not_mem_append ((layout i).beforeBrace.notMem (by decide)) (by decide))) ?_
    exact List.not_mem_append (List.not_mem_append ((layout i).afterBrace.notMem (by decide))
      (tableFields_notMem (by simp) _ _)) (by decide)
  rw [render_tableFile]
  exact List.not_mem_append (List.not_mem_append (by decide) (padMessages_notMem (by simp) _ _)) htext

lemma begins_tableFile (i n : ℕ) : (tableFile i n).begins = some (.outside false true) := by
  have hsyntax : (cut ['/', '/'] (Line.render syntaxLine)).isNone = true := by decide
  exact congrArg (fun named => (Place.outside false (false || named)).read []) hsyntax

lemma passable_tableFile (i n : ℕ) : (tableFile i n).Passable where
  opensNothing := nofun
  version := setsVersion_syntaxLine
  begins := by rw [ProtoFile.namedBefore, begins_tableFile]; rfl
  package := nofun
  trailer := by
    rintro lines hlines
    cases hlines
    rfl
  ended := nofun

lemma plain_tableFile (i n : ℕ) : (tableFile i n).Plain where
  passable := passable_tableFile i n
  leads j message hmessage := by
    obtain hmessage | hmessage := List.mem_append.mp (List.mem_of_getElem? hmessage)
    · obtain ⟨m, -, rfl⟩ := List.mem_map.mp hmessage
      exact leadFits_of_nil rfl _
    · rw [List.mem_singleton.mp hmessage]
      exact leadFits_of_nil rfl _
  messages message hmessage := by
    obtain hmessage | hmessage := List.mem_append.mp hmessage
    · obtain ⟨m, -, rfl⟩ := List.mem_map.mp hmessage
      exact ⟨titleFits_padMessage m, nofun⟩
    · rw [List.mem_singleton.mp hmessage]
      refine ⟨titleFits_tableMessage n, fun item hitem => ?_⟩
      obtain ⟨field, hfield, rfl⟩ := List.mem_map.mp hitem
      refine ⟨field, rfl, ?_⟩
      obtain hfield | hfield := List.mem_append.mp hfield
      · obtain ⟨m, -, rfl⟩ := List.mem_map.mp hfield
        exact ⟨⟨trivial, oneSpace_splits⟩, rfl, nofun⟩
      · rw [List.mem_singleton.mp hfield]
        exact ⟨⟨trivial, oneSpace_splits⟩, rfl, nofun⟩

lemma FieldLayout.FreesNext.freesEnd {layout : FieldLayout} (h : layout.FreesNext) : layout.FreesEnd := by
  obtain h | ⟨hbefore, gap, k, heq, -⟩ := h
  · exact .inl h
  · exact .inr (.inl ⟨hbefore, heq ▸ List.mem_append_right _ (List.mem_replicate.mpr ⟨Nat.succ_ne_zero k, rfl⟩)⟩)

lemma ProtoField.Plain.suits {field : ProtoField} (h : field.Plain) (keys behind : List Ident) :
    field.Suits keys behind where
  splits := h.splits
  options := by
    rw [h.options]
    exact ⟨List.not_mem_nil, fun hmem => absurd hmem List.not_mem_nil⟩
  optional gap type hrule := absurd hrule (h.optional gap type)

lemma itemsFit_of_good {keys : List Ident} {items : List Item} {layout : ℕ → FieldLayout}
    (hplain : ∀ item ∈ items, ∃ field, item = .field field ∧ field.Plain)
    (h : ∀ j, (layout j).KeepsName ∧ (layout j).FreesNext) : ItemsFit keys FieldLayout.FreesEnd items layout := by
  induction items generalizing layout with
  | nil => trivial
  | cons item items ih =>
    obtain ⟨field, rfl, hfield⟩ := hplain item (List.mem_cons_self ..)
    have hrest := fun item' h' => hplain item' (List.mem_cons_of_mem _ h')
    cases items with
    | nil => exact ⟨hfield.suits keys _, (h 0).1, .inl hfield.options, (h 0).2.freesEnd⟩
    | cons item' items =>
      obtain ⟨field', rfl, -⟩ := hrest item' (List.mem_cons_self ..)
      exact ⟨hfield.suits keys _, (h 0).1, .inl hfield.options, (h 0).2, ih hrest fun j => h (j + 1)⟩

lemma Layout.Good.fits {layout : Layout} (h : layout.Good) {file : ProtoFile} (hplain : file.Plain) :
    layout.Fits file := by
  intro i message hmessage
  have hlead := hplain.leads i message hmessage
  have hmessage := hplain.messages message (List.mem_of_getElem? hmessage)
  exact .inl ⟨hlead, hmessage.title, (h i).1, (h i).2.1,
    .inl (itemsFit_of_good hmessage.items (h i).2.2)⟩

def cacheKey : Ident := ⟨str "cache_type", by decide⟩

def cacheField : ProtoField := ⟨.singular ⟨str "int64", by decide⟩, oneSpace, cacheKey, oneTag, []⟩

lemma plain_cacheField : cacheField.Plain where
  splits := ⟨trivial, oneSpace_splits⟩
  options := rfl
  optional gap type hrule := by cases hrule

def cacheItems : List Item :=
  [.line ⟨str "// of the type", by decide⟩ ⟨str "   ", by decide⟩, .field cacheField,
    .line ⟨str "message Item \x7b string text = 1; \x7d", by decide⟩ ⟨str "   ", by decide⟩,
    .field ⟨.map ⟨str "<string, Item", by decide⟩, oneSpace, ⟨str "cache_items", by decide⟩, ⟨['3'], by decide⟩,
      str " [deprecated = true]"⟩]

lemma nodup_cacheItems : ((fieldsOf cacheItems).map ProtoField.name).Nodup := by decide

lemma declared_cacheKey : ∃ field ∈ fieldsOf cacheItems, field.name = cacheKey ∧ field.rule.isKey :=
  ⟨_, List.mem_cons_self .., rfl, rfl⟩

def cacheMessage : ProtoMessage where
  lead := [⟨str "enum CacheType \x7b", by decide⟩, ⟨str "   CT_NONE = 0;", by decide⟩, ⟨str "\x7d", by decide⟩]
  keyComment := some (.one cacheKey)
  note := ⟨noIndent, spaceIndent, spaceIndent, ⟨str "  (the type)", by decide⟩⟩
  indent := noIndent
  gap := oneSpace
  name := ⟨str "ClientCache", by decide⟩
  remark := ⟨str " /* one for a type */", by decide⟩
  items := cacheItems
  closing := ⟨str " // ClientCache", by decide⟩
  distinct := nodup_cacheItems
  declared := by
    rintro comment hcomment key hkey
    cases hcomment
    rw [List.mem_singleton.mp hkey]
    exact declared_cacheKey

def cacheFile : ProtoFile where
  preamble := []
  version := syntaxLine
  header := []
  package := some (⟨str "Db", by decide⟩, ⟨str "package Db;", by decide⟩)
  messages := [cacheMessage]
  distinct := List.nodup_singleton _
  trailer := none

def braceLayout (beforeBrace : Blank) : Layout := fun _ => ⟨beforeBrace, ⟨['\n'], by decide⟩,
  fun _ => ⟨⟨[' '], by decide⟩, ⟨[' '], by decide⟩, ⟨[], by decide⟩, ⟨['\n'], by decide⟩⟩⟩

def tightLayout : Layout := fun _ => ⟨⟨[' ', '\n'], by decide⟩, ⟨str "\n   ", by decide⟩,
  fun _ => ⟨⟨[], by decide⟩, ⟨['\t'], by decide⟩, ⟨[' '], by decide⟩, ⟨str "\n   ", by decide⟩⟩⟩

lemma titleFits_cacheMessage : cacheMessage.TitleFits where
  note comment hcomment := by
    cases hcomment
    exact ⟨[str "(the", str "type)"], by decide⟩
  gap := oneSpace_splits
  remark := .inr ⟨_, rfl⟩
  comment := by decide
  brace := by decide

lemma begins_cacheFile : cacheFile.begins = some (.outside false true) := by decide

lemma passable_cacheFile : cacheFile.Passable where
  opensNothing := nofun
  version := setsVersion_syntaxLine
  begins := by rw [ProtoFile.namedBefore, begins_cacheFile]; rfl
  package package hpackage := by
    cases hpackage
    exact ⟨[], by decide +kernel⟩
  trailer := nofun
  ended _ message hmessage := by
    cases hmessage
    decide

lemma harmless_ofTheType (keys : List Ident) (h : ∀ key ∈ keys, key.1 ≠ str "of") :
    Harmless keys (str "// of the type") := by
  have hwords : splitLine (str "// of the type" ++ ['\n']) = [str "//", str "of", str "the", str "type"] := by decide
  have hfield : loadFiledLine (str "\"proto3\"") (str "message") (str "// of the type" ++ ['\n']) =
      some ⟨str "of", str "//", str "the", str "optional", []⟩ := by
    rw [loadFiledLine_proto3 (by decide), hwords]
    rfl
  rw [Harmless, hwords]
  exact .inr ⟨by decide, by decide, _, hfield, fun key hkey => (h key hkey).symm⟩

lemma keepsKeys_cacheMessage {layout : MessageLayout} (hbefore : layout.beforeBrace.Breaks)
    (hafter : layout.afterBrace.Breaks) (hname : (layout.field 1).KeepsName) (hsemi : (layout.field 1).afterSemi.Breaks)
    (hback : Place.inside.read (renderItems (cacheMessage.items.drop 2) (fun j => layout.field (j + 2)) ++
      cacheMessage.ending) = some (.outside false true)) : layout.KeepsKeys cacheMessage where
  title := titleFits_cacheMessage
  beforeBrace := hbefore
  afterBrace := hafter
  items := .inr ⟨cacheMessage.items.take 2, cacheMessage.items.drop 2, rfl, by decide,
    ⟨harmless_ofTheType _ (by decide), plain_cacheField.suits _ _, hname, .inl rfl, hsemi⟩, hback⟩

lemma fits_cacheFile {layout : Layout} (h : (layout 0).KeepsKeys cacheMessage) : layout.Fits cacheFile := by
  intro i message hmessage
  obtain ⟨hi, rfl⟩ := List.getElem?_eq_some_iff.mp hmessage
  obtain rfl : i = 0 := by simpa [cacheFile] using hi
  have hlead : cacheMessage.LeadFits true :=
    ⟨false, true, by decide +kernel, fun hannotated => absurd hannotated Bool.false_ne_true⟩
  rw [ProtoFile.namedBefore, begins_cacheFile]
  exact .inl ⟨hlead, h⟩

def cacheText : Text :=
  str "syntax = \"proto3\";\npackage Db;\nenum CacheType \x7b\n   CT_NONE = 0;\n\x7d\n" ++
    str "// user_data key=cache_type  (the type)\nmessage ClientCache /* one for a type */\n\x7b\n" ++
    str "// of the type\n   int64 cache_type = 1;\n" ++
    str "message Item \x7b string text = 1; \x7d\n   map<string, Item> cache_items = 3 [deprecated = true];\n" ++
    str "\x7d // ClientCache"

def tightText : Text :=
  str "syntax = \"proto3\";\r\npackage Db;\r\nenum CacheType \x7b\r\n   CT_NONE = 0;\r\n\x7d\r\n" ++
    str "// user_data key=cache_type  (the type)\r\nmessage ClientCache /* one for a type */ \r\n\x7b\r\n" ++
    str "   // of the type\r\n   int64 cache_type=\t1 ;\r\n   message Item \x7b string text = 1; \x7d\r\n" ++
    str "   map<string, Item> cache_items=\t3 [deprecated = true] ;\r\n   \x7d // ClientCache"

def onNameLine : Text := str "syntax = \"proto3\";\n// user_data key=k\nmessage K \x7b\nint32 k = 1;\n\x7d\n"

def onOwnLine : Text := str "syntax = \"proto3\";\n// user_data key=k\nmessage K\n\x7b\nint32 k = 1;\n\x7d\n"

/-- Whatever ends of lines the two files have, `gen_code` writes the same table, the one that is annotated. -/
def SameTable (file : ProtoFile) (layout layout' : Layout) : Prop :=
  ∀ text text', universalNewlines text = file.render layout → universalNewlines text' = file.render layout' →
    genCode text = genCode text' ∧ genCode text = some file.annotated

end TonyCat.Tools
