import TonyCat.Tools.PassedLines

set_option autoImplicit false

/-! The items of a message in a layout that fits them. -/

namespace TonyCat.Tools

open TonyCat.Library

section Keys

variable {keys : List Ident} {items : List Item} {metas : List FieldMeta}

lemma mem_keysIn {key : Ident} : key ∈ keysIn keys items ↔ key ∈ keys ∧ ∃ field ∈ fieldsOf items, field.name = key := by
  rw [keysIn, List.mem_filter, decide_eq_true_eq, List.mem_map, and_comm]

/-- Each field that is a key is found under its name, with the type of a key if it has one. -/
def FindsKeys (keys : List Ident) (items : List Item) (metas : List FieldMeta) : Prop :=
  ∀ field ∈ fieldsOf items, field.name ∈ keys → ∃ m, metas.find? (fun m => m.name = field.name.1) = some m ∧
    (field.rule.isKey = true → PbMeta.isKeyType m.type = true)

lemma findsKeys_nil : FindsKeys keys [] metas := fun _ hfield => absurd hfield List.not_mem_nil

lemma ProtoField.ReadAs.name_eq {field : ProtoField} {m : FieldMeta} (h : field.ReadAs m)
    (hnot : ∀ gap type, field.rule ≠ .optional gap type) :
    m.name = field.name.1 ∧ (field.rule.isKey = true → PbMeta.isKeyType m.type = true) := by
  rw [ReadAs] at h
  cases hrule : field.rule with
  | singular type =>
    rw [hrule] at h
    exact ⟨h.1, fun hkey => (congrArg PbMeta.isKeyType h.2).trans hkey⟩
  | optional gap type => exact absurd hrule (hnot gap type)
  | repeated gap type =>
    rw [hrule] at h
    exact ⟨h.1, fun hkey => (congrArg PbMeta.isKeyType h.2).trans hkey⟩
  | map types =>
    rw [hrule] at h
    exact ⟨h, fun hkey => Bool.noConfusion hkey⟩

lemma ProtoField.ReadAs.name_ne {field : ProtoField} {m : FieldMeta} (h : field.ReadAs m) {key : Ident}
    (hne : field.name ≠ key) (hoptional : ∀ gap type, field.rule = .optional gap type → type.1 ≠ key.1) :
    m.name ≠ key.1 := by
  by_cases hrule : ∃ gap type, field.rule = .optional gap type
  · obtain ⟨gap, type, hrule⟩ := hrule
    rw [ReadAs, hrule] at h
    rw [h]
    exact hoptional gap type hrule
  · rw [(h.name_eq fun gap type heq => hrule ⟨gap, type, heq⟩).1]
    exact fun heq => hne (Subtype.ext heq)

lemma FindsKeys.behind (h : FindsKeys keys items metas) {ms : List FieldMeta} (hquiet : Quiet (keysIn keys items) ms) :
    FindsKeys keys items (ms ++ metas) := by
  intro field hfield hkey
  obtain ⟨m, hm, hread⟩ := h field hfield hkey
  have hnone : ms.find? (fun m => m.name = field.name.1) = none :=
    List.find?_eq_none.mpr fun j hj => by simpa using hquiet j hj _ (mem_keysIn.mpr ⟨hkey, field, hfield, rfl⟩)
  exact ⟨m, by rw [List.find?_append, hnone]; exact hm, hread⟩

lemma FindsKeys.append (h : FindsKeys keys items metas) (ms : List FieldMeta) : FindsKeys keys items (metas ++ ms) := by
  intro field hfield hkey
  obtain ⟨m, hm, hread⟩ := h field hfield hkey
  exact ⟨m, by rw [List.find?_append, hm]; rfl, hread⟩

lemma FindsKeys.append_items (h : FindsKeys keys items metas) {items' : List Item} (hnot : keysIn keys items' = []) :
    FindsKeys keys (items ++ items') metas := by
  intro field hfield hkey
  rw [fieldsOf, List.filterMap_append] at hfield
  obtain hfield | hfield := List.mem_append.mp hfield
  · exact h field hfield hkey
  · have hmem : field.name ∈ keysIn keys items' := mem_keysIn.mpr ⟨hkey, field, hfield, rfl⟩
    rw [hnot] at hmem
    cases hmem

lemma FindsKeys.field (h : FindsKeys keys items metas) {field : ProtoField} {m : FieldMeta} {junk : List FieldMeta}
    (hm : field.ReadAs m) (hjunk : ∀ j ∈ junk, ∀ name : Ident, j.name ≠ name.1)
    (hsuits : field.Suits keys (keysIn keys items)) (hnew : field.name ∉ (fieldsOf items).map ProtoField.name) :
    FindsKeys keys (.field field :: items) (m :: junk ++ metas) := by
  have hquiet : Quiet (keysIn keys items) (m :: junk) := by
    intro j hj key hkey
    obtain rfl | hj := List.mem_cons.mp hj
    · refine hm.name_ne ?_ fun gap type hrule => (hsuits.optional gap type hrule).2 key hkey
      rintro rfl
      obtain ⟨-, field', hfield', heq⟩ := mem_keysIn.mp hkey
      exact hnew (heq ▸ List.mem_map_of_mem hfield')
    · exact hjunk j hj key
  intro field' hfield' hkey
  obtain rfl | hfield' := List.mem_cons.mp (show field' ∈ field :: fieldsOf items from hfield')
  · obtain ⟨hname, htype⟩ := hm.name_eq fun gap type hrule => (hsuits.optional gap type hrule).1 hkey
    exact ⟨m, by rw [List.cons_append, List.find?_cons_of_pos (by simp [hname])], htype⟩
  · exact h.behind hquiet field' hfield' hkey

end Keys

lemma renderItems_append (items items' : List Item) (layout : ℕ → FieldLayout) :
    renderItems (items ++ items') layout =
      renderItems items layout ++ renderItems items' fun j => layout (j + items.length) := by
  induction items generalizing layout with
  | nil => rfl
  | cons item items ih =>
    rw [List.cons_append, renderItems, renderItems, List.append_assoc]
    exact congrArg _ (ih fun j => layout (j + 1))

section Items

variable {keys : List Ident} {Ends : FieldLayout → Prop}

lemma Indent.spaces (indent : Indent) : Spaces indent.1 :=
  fun c hc => ⟨isSpace_of_isBlank (indent.2 c hc).1, (indent.2 c hc).2⟩

lemma Indent.feeds (indent : Indent) {s : Loading} : Feeds (s, []) indent.1 (s, indent.1) :=
  Reads.within indent.spaces.newline_notMem

/-- The items are read one by one; what they leave of the last line can end with the closing brace. -/
theorem feeds_items (hends : ∀ last, Ends last → last.FreesEnd) {items : List Item} {s : Loading} {pre : Text}
    {layout : ℕ → FieldLayout} (hs : s.InBody) (hpre : Clean pre)
    (hspaces : (∀ field rest, items ≠ .field field :: rest) → Spaces pre) (hfit : ItemsFit keys Ends items layout)
    (hdistinct : ((fieldsOf items).map ProtoField.name).Nodup) :
    ∃ rest metas, Feeds (s, pre) (renderItems items layout) (s.addFields metas, rest) ∧ FindsKeys keys items metas ∧
      Closing rest ∧ ((∀ last, Ends last → last.afterSemi.Breaks) → Spaces rest) := by
  induction items, layout using ItemsFit.induct generalizing s pre with
  | case1 layout =>
    refine ⟨pre, [], ?_, findsKeys_nil, hpre.closing, fun _ => hspaces (by rintro _ _ ⟨⟩)⟩
    rw [Loading.addFields_nil]
    exact Reads.nil _
  | case2 field layout =>
    obtain ⟨hsuits, hname, hoptions, hend⟩ := hfit
    have hreadable : Readable field (layout 0) := ⟨hsuits.splits, hname, hoptions, hsuits.options⟩
    obtain ⟨_, rest, hreads, ⟨m, junk, hm, hjunk, rfl⟩, hleaves⟩ := hreadable.feeds_field hs hpre (.inr (hends _ hend))
    have hfinds : FindsKeys keys [.field field] (m :: junk ++ []) :=
      findsKeys_nil.field hm hjunk hsuits (by simp [fieldsOf])
    refine ⟨rest, _, ?_, hfinds, hleaves.last (hends _ hend), fun hbreaks => hleaves.line (hbreaks _ hend)⟩
    simpa [renderItems, Item.render] using hreads
  | case3 field next items layout ih =>
    obtain ⟨hsuits, hname, hoptions, hnext, hrest⟩ := hfit
    have hreadable : Readable field (layout 0) := ⟨hsuits.splits, hname, hoptions, hsuits.options⟩
    obtain ⟨hnew, hdistinct⟩ := List.nodup_cons.mp (show (field.name :: _).Nodup from hdistinct)
    obtain ⟨_, pre', hreads, ⟨m, junk, hm, hjunk, rfl⟩, hleaves⟩ := hreadable.feeds_field hs hpre (.inl hnext)
    obtain ⟨rest, metas, hreads', hfinds, hclosing, hlast⟩ :=
      ih (hs.addFields _) (hleaves.next hnext) (fun hnot => absurd rfl (hnot next items)) hrest hdistinct
    rw [Loading.addFields_addFields] at hreads'
    exact ⟨rest, _, hreads.append hreads', hfinds.field hm hjunk hsuits hnew, hclosing, hlast⟩
  | case4 field line indent items layout ih =>
    obtain ⟨hsuits, hname, hoptions, hcarries, hrest⟩ := hfit
    have hreadable : Readable field (layout 0) := ⟨hsuits.splits, hname, hoptions, hsuits.options⟩
    obtain ⟨hnew, hdistinct⟩ := List.nodup_cons.mp (show (field.name :: _).Nodup from hdistinct)
    obtain ⟨_, ms, hreads, ⟨m, junk, hm, hjunk, rfl⟩, hquiet⟩ := hreadable.feeds_fieldLine hs hpre hcarries
    rw [Loading.addFields_addFields] at hreads
    obtain ⟨rest, metas, hreads', hfinds, hclosing, hlast⟩ :=
      ih (hs.addFields _) (.of_spaces indent.spaces) (fun _ => indent.spaces) hrest hdistinct
    rw [Loading.addFields_addFields, List.append_assoc] at hreads'
    refine ⟨rest, _, ?_, (hfinds.behind hquiet).field hm hjunk hsuits hnew, hclosing, hlast⟩
    have hall := (hreads.append indent.feeds).append hreads'
    simpa only [renderItems, Item.render, List.append_assoc] using hall
  | case5 line indent items layout ih =>
    obtain ⟨hharmless, hrest⟩ := hfit
    obtain ⟨ms, hload, hquiet⟩ := (hharmless.spaces (hspaces (by rintro _ _ ⟨⟩))).loadLine hs
    have hline : Feeds (s, pre) (Line.render line) (s.addFields ms, []) := Reads.ends line.2 hload
    obtain ⟨rest, metas, hreads', hfinds, hclosing, hlast⟩ :=
      ih (hs.addFields _) (.of_spaces indent.spaces) (fun _ => indent.spaces) hrest hdistinct
    rw [Loading.addFields_addFields] at hreads'
    exact ⟨rest, _, (hline.append indent.feeds).append hreads', hfinds.behind hquiet, hclosing, hlast⟩

end Items

end TonyCat.Tools
