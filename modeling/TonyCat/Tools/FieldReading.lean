import TonyCat.Tools.BodyLines

set_option autoImplicit false

/-! A field in any layout that the parser reads. -/

namespace TonyCat.Tools

open TonyCat.Library

def Spaces (t : Text) : Prop := ∀ c ∈ t, isSpace c = true ∧ c ≠ '\n'

lemma Spaces.space {t : Text} (h : Spaces t) : ∀ c ∈ t, isSpace c = true := fun c hc => (h c hc).1

lemma Spaces.newline_notMem {t : Text} (h : Spaces t) : '\n' ∉ t := fun hmem => (h _ hmem).2 rfl

lemma Spaces.concat_newline {t : Text} (h : Spaces t) : ∀ c ∈ t ++ ['\n'], isSpace c = true := by
  intro c hc
  obtain hc | hc := List.mem_append.mp hc
  · exact h.space c hc
  · rw [List.mem_singleton.mp hc]
    decide

lemma Spaces.notMem {t : Text} (h : Spaces t) {c : Char} (hc : isSpace c = false) : c ∉ t := notMem_of_all h.space hc

lemma loadLine_skips (s : Loading) (t : Text) (h : Spaces t) : s.loadLine (t ++ ['\n']) = some s :=
  Loading.loadLine_of_spaces h.concat_newline

lemma Blank.chars (gap : Blank) : ∀ c ∈ gap.1, c = '\n' ∨ isSpace c = true ∧ c ≠ '\n' := by
  intro c hc
  by_cases hnl : c = '\n'
  · exact .inl hnl
  · exact .inr ⟨isSpace_of_isBlank (gap.2 c hc), hnl⟩

lemma Blank.spaces {gap : Blank} (h : ¬ gap.Breaks) : Spaces gap.1 := by
  intro c hc
  refine (gap.chars c hc).resolve_left ?_
  rintro rfl
  exact h hc

abbrev Feeds := Reads '\n' Loading.loadLine

section Feed

variable {s : Loading} {gap : Blank}

lemma feeds_within {line : Text} (hbreaks : ¬ gap.Breaks) : Feeds (s, line) gap.1 (s, line ++ gap.1) :=
  Reads.within (Blank.spaces hbreaks).newline_notMem

lemma feeds_breaks {Q : Loading → Prop} (line : Text) (hbreaks : gap.Breaks)
    (hstep : ∀ l, Spaces l → ∃ s', s.loadLine (line ++ l ++ ['\n']) = some s' ∧ Q s') :
    ∃ s' line', Feeds (s, line) gap.1 (s', line') ∧ Q s' ∧ Spaces line' :=
  Reads.breaks loadLine_skips gap.chars hbreaks fun l _ => hstep l

end Feed

/-- What a field leaves: its own entry first, then entries that no name finds. -/
def FieldRead (field : ProtoField) (s s' : Loading) : Prop :=
  ∃ m junk, field.ReadAs m ∧ (∀ j ∈ junk, ∀ name : Ident, j.name ≠ name.1) ∧ s' = s.addFields (m :: junk)

lemma FieldRead.inBody {field : ProtoField} {s s' : Loading} (h : FieldRead field s s') (hs : s.InBody) :
    s'.InBody := by
  obtain ⟨m, junk, -, -, rfl⟩ := h
  exact hs.addFields _

lemma FieldRead.add {field : ProtoField} {s s' : Loading} (h : FieldRead field s s') {j : FieldMeta}
    (hj : ∀ name : Ident, j.name ≠ name.1) : FieldRead field s (s'.addFields [j]) := by
  obtain ⟨m, junk, hm, hjunk, rfl⟩ := h
  refine ⟨m, junk ++ [j], hm, ?_, by rw [Loading.addFields_addFields]; rfl⟩
  intro j' hj'
  obtain hj' | hj' := List.mem_append.mp hj'
  · exact hjunk j' hj'
  · rwa [List.mem_singleton.mp hj']

structure LeavesLine (layout : FieldLayout) (rest : Text) : Prop where
  next : layout.FreesNext → Clean rest
  last : layout.FreesEnd → Closing rest
  line : layout.afterSemi.Breaks → Spaces rest

lemma LeavesLine.of_spaces {layout : FieldLayout} {rest : Text} (h : Spaces rest) : LeavesLine layout rest :=
  ⟨fun _ => .of_spaces h, fun _ => (Clean.of_spaces h).closing, fun _ => h⟩

section Field

variable {s : Loading} {pre : Text} {field : ProtoField} {layout : FieldLayout}

lemma feeds_semicolon (hbroken : layout.beforeSemi.Breaks) {w : Text} (hw : Spaces w) :
    ∃ rest, Feeds (s, w) (';' :: layout.afterSemi.1) (s, rest) ∧ LeavesLine layout rest := by
  have hsemi : Feeds (s, w) [';'] (s, w ++ [';']) := Reads.within (by decide)
  by_cases hbreaks : layout.afterSemi.Breaks
  · obtain ⟨s', rest, hreads, rfl, hrest⟩ := feeds_breaks (s := s) (Q := fun s' => s' = s) (w ++ [';'])
      hbreaks fun l hl => ⟨s, by
        have hline : w ++ [';'] ++ l ++ ['\n'] = w ++ ';' :: (l ++ ['\n']) := by simp
        rw [hline]
        exact loadLine_semicolon hw.space hl.space, rfl⟩
    exact ⟨rest, hsemi.append hreads, .of_spaces hrest⟩
  · have hspaces := Blank.spaces hbreaks
    refine ⟨w ++ [';'] ++ layout.afterSemi.1, hsemi.append (feeds_within hbreaks), ?_, ?_,
      fun h => absurd h hbreaks⟩
    · rintro (hnext | ⟨-, gap, k, heq, hgap⟩)
      · exact absurd hnext hbreaks
      · have hgapSpaces : Spaces gap := fun c hc => hspaces c (heq ▸ List.mem_append_left _ hc)
        rw [heq, List.append_assoc]
        exact Clean.semicolon hw hgapSpaces hgap k
    · rintro (hend | ⟨-, hspace⟩ | ⟨hnot, -⟩)
      · exact absurd hend hbreaks
      · rw [List.append_assoc]
        exact closing_semicolon hw.space hspaces.space hspace
      · exact absurd hbroken hnot

lemma gaps_of_spaces {t : Text} (h : Spaces t) : Gaps t := fun c hc => ⟨.inl (h c hc).1, (h c hc).2⟩

lemma Gaps.append {t t' : Text} (h : Gaps t) (h' : Gaps t') : Gaps (t ++ t') := List.forall_mem_append.mpr ⟨h, h'⟩

lemma gaps_semicolon : Gaps [';'] := by
  intro c hc
  rw [List.mem_singleton.mp hc]
  exact ⟨.inr rfl, by decide⟩

lemma bears_of_notMem {rule : FieldRule} {t : Text} (h : ∀ c ∈ ['>', '\x7d'], c ∉ t) : rule.Bears t :=
  ⟨h _ (by simp), fun hmem => absurd hmem (h _ (by simp))⟩

lemma bears_of_gaps {rule : FieldRule} {t : Text} (h : Gaps t) : rule.Bears t := by
  have hkind : ∀ c ∈ ['>', '\x7d'], isSpace c = false ∧ c ≠ ';' := by decide
  refine bears_of_notMem fun c hc hmem => ?_
  obtain hspace | heq := (h c hmem).1
  · rw [(hkind c hc).1] at hspace
    cases hspace
  · exact (hkind c hc).2 heq

lemma bears_of_plain {rule : FieldRule} {t : Text} (h : Plain t) : rule.Bears t := by
  have hkind : ∀ c ∈ ['>', '\x7d'], c ∈ [' ', '=', ';', '/', '>', '\x7b', '\x7d'] := by decide
  exact bears_of_notMem fun c hc => h.not_mem (hkind c hc)

lemma FieldRule.Bears.append {rule : FieldRule} {t t' : Text} (h : rule.Bears t) (h' : rule.Bears t') :
    rule.Bears (t ++ t') :=
  ⟨List.not_mem_append h.1 h'.1, fun hmem => (List.mem_append.mp hmem).elim h.2 h'.2⟩

lemma Plain.newline_notMem {w : Text} (h : Plain w) : '\n' ∉ w := h.notMem_of_space (by decide)

lemma Gap.Splits.newline_notMem {gap : Gap} (h : gap.Splits) : '\n' ∉ gap.1 :=
  fun hmem => absurd (h _ hmem) (by decide)

lemma FieldRule.Splits.newline_notMem {rule : FieldRule} (h : rule.Splits) : '\n' ∉ rule.text := by
  cases rule with
  | singular type => exact type.plain.newline_notMem
  | optional gap type =>
    exact List.not_mem_append (List.not_mem_append (by decide) (Gap.Splits.newline_notMem h)) type.plain.newline_notMem
  | repeated gap type =>
    exact List.not_mem_append (List.not_mem_append (by decide) (Gap.Splits.newline_notMem h)) type.plain.newline_notMem
  | map types => exact List.not_mem_append (List.not_mem_append (by decide) h) (by decide)

lemma newline_notMem_head (field : ProtoField) (hsplits : field.Splits) : '\n' ∉ field.head := by
  have hrule := hsplits.rule.newline_notMem
  obtain ⟨k, hk⟩ := hsplits.gap.exists_eq
  rw [ProtoField.head, hk]
  exact head_notMem hrule field.name.plain.newline_notMem (by decide) _

lemma FieldLayout.KeepsName.nameGap (h : layout.KeepsName) : NameGap layout.beforeEq.1 := ⟨h.2, Blank.spaces h.1⟩

def ProtoField.front (field : ProtoField) (layout : FieldLayout) : Text := field.head ++ layout.beforeEq.1 ++ ['=']

lemma ProtoField.render_eq (field : ProtoField) (layout : FieldLayout) : field.render layout = field.front layout ++
    (layout.afterEq.1 ++ (field.value ++ (layout.beforeSemi.1 ++ ';' :: layout.afterSemi.1))) := by
  simp [ProtoField.render, ProtoField.front]

lemma loadLine_rest {s' : Loading} (hs : s.InBody) (hread : FieldRead field s s') {w v : Text} (hw : Spaces w)
    (hv : Gaps v) (tag : Tag) :
    ∃ s'', s'.loadLine (w ++ tag.1 ++ v ++ ['\n']) = some s'' ∧ FieldRead field s s'' := by
  obtain ⟨m, hm, hjunk⟩ := loadLine_tag (hread.inBody hs) hw.space tag hv
  refine ⟨_, ?_, hread.add hjunk⟩
  rw [List.append_assoc, List.append_assoc]
  exact hm

structure Readable (field : ProtoField) (layout : FieldLayout) : Prop where
  splits : field.Splits
  keepsName : layout.KeepsName
  keepsOptions : layout.KeepsOptions field
  bears : field.rule.Bears field.options

namespace Readable

variable (h : Readable field layout)

include h

lemma nameGap : NameGap layout.beforeEq.1 := h.keepsName.nameGap

lemma bears_value : field.rule.Bears field.value := (bears_of_plain field.tag.plain).append h.bears

lemma value_eq (hbreaks : layout.afterEq.Breaks) : field.value = field.tag.1 := by
  rw [ProtoField.value, h.keepsOptions.resolve_right fun hoptions => hoptions.2 hbreaks, List.append_nil]

lemma newline_notMem_value : '\n' ∉ field.value := by
  refine List.not_mem_append field.tag.plain.newline_notMem ?_
  obtain hnil | ⟨hnot, -⟩ := h.keepsOptions
  · rw [hnil]
    exact List.not_mem_nil
  · exact hnot

lemma feeds_value (line : Text) : Feeds (s, line) field.value (s, line ++ field.value) :=
  Reads.within h.newline_notMem_value

lemma feeds_front : Feeds (s, pre) (field.front layout) (s, pre ++ field.front layout) :=
  Reads.within (List.not_mem_append (List.not_mem_append (newline_notMem_head field h.splits)
    (Spaces.newline_notMem h.nameGap.spaces)) (by decide))

lemma loadLine_front (hs : s.InBody) (hpre : Clean pre) {t : Text} (ht : field.rule.Bears t) :
    ∃ s', s.loadLine (pre ++ field.front layout ++ t ++ ['\n']) = some s' ∧ FieldRead field s s' := by
  obtain ⟨m, hm, hread⟩ := loadLine_name hs hpre field h.splits h.nameGap ht
  refine ⟨_, ?_, m, [], hread, nofun, rfl⟩
  rw [← hm]
  simp [ProtoField.front]

lemma feeds_afterEq (hs : s.InBody) (hpre : Clean pre) (hbreaks : layout.afterEq.Breaks) :
    ∃ s' w, Feeds (s, pre) (field.front layout ++ layout.afterEq.1) (s', w) ∧ FieldRead field s s' ∧ Spaces w := by
  obtain ⟨s', w, hreads, hread, hw⟩ := feeds_breaks (s := s) (Q := FieldRead field s) (pre ++ field.front layout)
    hbreaks fun l hl => h.loadLine_front hs hpre (bears_of_gaps (gaps_of_spaces hl))
  exact ⟨s', w, h.feeds_front.append hreads, hread, hw⟩

lemma feeds_beforeSemi (hs : s.InBody) (hpre : Clean pre) (hbreaks : layout.beforeSemi.Breaks) : ∃ s' w,
    Feeds (s, pre) (field.front layout ++ (layout.afterEq.1 ++ (field.value ++ layout.beforeSemi.1))) (s', w) ∧
      FieldRead field s s' ∧ Spaces w := by
  by_cases hafterEq : layout.afterEq.Breaks
  · obtain ⟨s', w, hfront, hread, hw⟩ := h.feeds_afterEq hs hpre hafterEq
    obtain ⟨s'', w', hreads, hread', hw'⟩ := feeds_breaks (s := s') (Q := FieldRead field s)
      (w ++ field.value) hbreaks fun l hl => by
        rw [h.value_eq hafterEq]
        exact loadLine_rest hs hread hw (gaps_of_spaces hl) field.tag
    have htag := hfront.append ((h.feeds_value w).append hreads)
    rw [List.append_assoc] at htag
    exact ⟨s'', w', htag, hread', hw'⟩
  · have hspaces := Blank.spaces hafterEq
    obtain ⟨s', w, hreads, hread, hw⟩ := feeds_breaks (s := s) (Q := FieldRead field s)
      (pre ++ field.front layout ++ layout.afterEq.1 ++ field.value) hbreaks fun l hl => by
        have hbears := ((bears_of_gaps (gaps_of_spaces hspaces)).append h.bears_value).append
          (bears_of_gaps (gaps_of_spaces hl))
        simpa only [List.append_assoc] using h.loadLine_front hs hpre hbears
    exact ⟨s', w, h.feeds_front.append ((feeds_within hafterEq).append
      ((h.feeds_value _).append hreads)), hread, hw⟩

end Readable

lemma feeds_afterSemi {s' : Loading} (line : Text) (hbefore : ¬ layout.beforeSemi.Breaks)
    (hbreaks : layout.afterSemi.Breaks)
    (hline : ∀ {v}, Gaps v → ∃ s'', s'.loadLine (line ++ v ++ ['\n']) = some s'' ∧ FieldRead field s s'') :
    ∃ s'' rest, Feeds (s', line) (layout.beforeSemi.1 ++ ';' :: layout.afterSemi.1) (s'', rest) ∧
      FieldRead field s s'' ∧ Spaces rest := by
  have hspaces := Blank.spaces hbefore
  have hsemi : Feeds (s', line) (layout.beforeSemi.1 ++ [';']) (s', line ++ (layout.beforeSemi.1 ++ [';'])) :=
    Reads.within (List.not_mem_append hspaces.newline_notMem (by decide))
  obtain ⟨s'', rest, hreads, hread, hrest⟩ := feeds_breaks (s := s') (Q := FieldRead field s)
    (line ++ (layout.beforeSemi.1 ++ [';'])) hbreaks fun l hl => by
      rw [List.append_assoc line]
      exact hline (((gaps_of_spaces hspaces).append gaps_semicolon).append (gaps_of_spaces hl))
  rw [List.append_cons layout.beforeSemi.1 ';' layout.afterSemi.1]
  exact ⟨s'', rest, hsemi.append hreads, hread, hrest⟩

lemma gaps_behind (hbefore : ¬ layout.beforeSemi.Breaks)
    (hafter : ¬ layout.afterSemi.Breaks) : Gaps (layout.beforeSemi.1 ++ ';' :: layout.afterSemi.1) := by
  rw [List.append_cons]
  exact ((gaps_of_spaces (Blank.spaces hbefore)).append gaps_semicolon).append (gaps_of_spaces (Blank.spaces hafter))

lemma Gaps.newline_notMem {t : Text} (h : Gaps t) : '\n' ∉ t := fun hmem => (h _ hmem).2 rfl

theorem Readable.feeds_field (h : Readable field layout) (hs : s.InBody) (hpre : Clean pre)
    (hfits : layout.FreesNext ∨ layout.FreesEnd) :
    ∃ s' rest, Feeds (s, pre) (field.render layout) (s', rest) ∧ FieldRead field s s' ∧ LeavesLine layout rest := by
  rw [field.render_eq]
  by_cases hbefore : layout.beforeSemi.Breaks
  · obtain ⟨s', w, hreads, hread, hw⟩ := h.feeds_beforeSemi hs hpre hbefore
    obtain ⟨rest, hsemi, hleaves⟩ := feeds_semicolon (s := s') hbefore hw
    refine ⟨s', rest, ?_, hread, hleaves⟩
    simpa only [List.append_assoc] using hreads.append hsemi
  by_cases hafterEq : layout.afterEq.Breaks
  · obtain ⟨s', w, hfront, hread, hw⟩ := h.feeds_afterEq hs hpre hafterEq
    have htag := hfront.append (h.feeds_value w)
    by_cases hafter : layout.afterSemi.Breaks
    · obtain ⟨s'', rest, hreads, hread', hrest⟩ := feeds_afterSemi (w ++ field.value) hbefore
        hafter fun hv => by
          rw [h.value_eq hafterEq]
          exact loadLine_rest hs hread hw hv field.tag
      refine ⟨s'', rest, ?_, hread', .of_spaces hrest⟩
      simpa only [List.append_assoc] using htag.append hreads
    · have hgaps := gaps_behind hbefore hafter
      have hreads : Feeds (s', w ++ field.value) (layout.beforeSemi.1 ++ ';' :: layout.afterSemi.1)
          (s', w ++ field.value ++ (layout.beforeSemi.1 ++ ';' :: layout.afterSemi.1)) :=
        Reads.within hgaps.newline_notMem
      refine ⟨s', _, by simpa only [List.append_assoc] using htag.append hreads, hread, ?_, fun _ => ?_,
        fun hbreaks => absurd hbreaks hafter⟩
      · rintro (hnext | ⟨hbreaks, -⟩)
        · exact absurd hnext hafter
        · exact absurd hbreaks hbefore
      · rw [h.value_eq hafterEq]
        simpa only [List.append_assoc] using closing_tag hw.space field.tag hgaps
  · have hspaces := Blank.spaces hafterEq
    have hafter : layout.afterSemi.Breaks := by
      obtain (h | ⟨h, -⟩) | (h | ⟨h, -⟩ | ⟨-, h⟩) := hfits
      · exact h
      · exact absurd h hbefore
      · exact h
      · exact absurd h hbefore
      · exact absurd h hafterEq
    have hfront : Feeds (s, pre) (field.front layout) (s, pre ++ field.front layout) := h.feeds_front
    have htag := hfront.append ((feeds_within hafterEq).append (h.feeds_value _))
    obtain ⟨s'', rest, hreads, hread, hrest⟩ := feeds_afterSemi (s := s)
      (pre ++ field.front layout ++ layout.afterEq.1 ++ field.value) hbefore hafter fun hv => by
        have hbears := ((bears_of_gaps (gaps_of_spaces hspaces)).append h.bears_value).append (bears_of_gaps hv)
        simpa only [List.append_assoc] using h.loadLine_front hs hpre hbears
    refine ⟨s'', rest, ?_, hread, .of_spaces hrest⟩
    simpa only [List.append_assoc] using htag.append hreads

end Field

section Carried

variable {s : Loading} {pre : Text} {field : ProtoField} {layout : FieldLayout} {keys : List Ident} {line : Line}

/-- None of the entries is found under the name of a key. -/
def Quiet (keys : List Ident) (metas : List FieldMeta) : Prop := ∀ m ∈ metas, ∀ key ∈ keys, m.name ≠ key.1

lemma loadFiledLine_spaces {w : Text} (hw : Spaces w) (pb_version pb_type t : Text) :
    (loadFiledLine pb_version pb_type (w ++ t)).map FieldMeta.name =
      (loadFiledLine pb_version pb_type t).map FieldMeta.name := by
  rw [loadFiledLine, loadFiledLine, cut_append_of_notMem (hw.notMem (by decide)), splitLine_spaces hw.space]
  cases cut ['>'] t with
  | none => rfl
  | some sides =>
    simp only [Option.map_some]
    cases (splitLine sides.2)[0]? <;> cases (splitLine sides.2)[1]? <;> rfl

lemma Harmless.spaces {w line : Text} (h : Harmless keys line) (hw : Spaces w) : Harmless keys (w ++ line) := by
  rw [Harmless, List.append_assoc, splitLine_spaces hw.space]
  rw [Harmless] at h
  split at h
  next hnil => rw [hnil]; trivial
  next first rest hwords =>
    rw [hwords]
    refine h.imp_right fun ⟨hspecial, hnot, field, hfield, hkeys⟩ =>
      ⟨hspecial, List.not_mem_append (hw.notMem (by decide)) hnot, ?_⟩
    have hname := loadFiledLine_spaces hw (str "\"proto3\"") (str "message") (line ++ ['\n'])
    rw [Option.mem_def.mp hfield, Option.map_some] at hname
    obtain ⟨field', hfield', hname'⟩ := Option.map_eq_some_iff.mp hname
    exact ⟨field', hfield', by rwa [hname']⟩

lemma Harmless.loadLine {line : Text} (h : Harmless keys line) (hs : s.InBody) :
    ∃ metas, s.loadLine (line ++ ['\n']) = some (s.addFields metas) ∧ Quiet keys metas := by
  rw [Harmless] at h
  split at h
  next hnil =>
    refine ⟨[], ?_, nofun⟩
    rw [Loading.loadLine, hnil, Loading.addFields_nil]
  next first rest hwords =>
    obtain himport | ⟨hspecial, hbrace, field, hfield, hkeys⟩ := h
    · refine ⟨[], ?_, nofun⟩
      rw [Loading.loadLine, hwords, Loading.addFields_nil]
      exact if_pos himport
    · by_cases himport : first = str "import"
      · refine ⟨[], ?_, nofun⟩
        rw [Loading.loadLine, hwords, Loading.addFields_nil]
        exact if_pos himport
      · have hfirst : first ∉ specialWords := by
          simp only [List.mem_cons, List.not_mem_nil, or_false, not_or] at hspecial
          simp only [specialWords, List.mem_cons, List.not_mem_nil, or_false, not_or]
          exact ⟨himport, hspecial⟩
        refine ⟨[field], ?_, fun m hm => by rwa [List.mem_singleton.mp hm]⟩
        rw [Loading.loadLine_of_splitLine hwords hfirst,
          hs.loadDefinition (List.not_mem_append hbrace (by decide)), hfield]
        rfl

/-- A field and another line behind it. -/
theorem Readable.feeds_fieldLine (h : Readable field layout) (hs : s.InBody) (hpre : Clean pre)
    (hline : layout.Carries field keys line.1) : ∃ s' metas,
      Feeds (s, pre) (field.render layout ++ Line.render line) (s'.addFields metas, []) ∧ FieldRead field s s' ∧
        Quiet keys metas := by
  have hends : ∀ {s' s'' : Loading} {l : Text}, s'.loadLine (l ++ line.1 ++ ['\n']) = some s'' →
      Feeds (s', l) (Line.render line) (s'', []) := fun hload => Reads.ends line.2 hload
  rw [FieldLayout.Carries] at hline
  split_ifs at hline with hafter hbefore hafterEq
  · obtain ⟨s', w, hreads, hread, hleaves⟩ := h.feeds_field hs hpre (.inl (.inl hafter))
    obtain ⟨metas, hload, hquiet⟩ := (hline.spaces (hleaves.line hafter)).loadLine (hread.inBody hs)
    exact ⟨s', metas, hreads.append (hends hload), hread, hquiet⟩
  · obtain ⟨s', w, hreads, hread, hw⟩ := h.feeds_beforeSemi hs hpre hbefore
    have hsemi : Feeds (s', w) (';' :: layout.afterSemi.1) (s', w ++ ';' :: layout.afterSemi.1) := by
      refine Reads.within ?_
      rw [List.mem_cons, not_or]
      exact ⟨by decide, (Blank.spaces hafter).newline_notMem⟩
    obtain ⟨metas, hload, hquiet⟩ := (hline.spaces hw).loadLine (hread.inBody hs)
    rw [← List.append_assoc] at hload
    refine ⟨s', metas, ?_, hread, hquiet⟩
    rw [field.render_eq]
    simpa only [List.append_assoc] using hreads.append (hsemi.append (hends hload))
  · obtain ⟨s', w, hreads, hread, hw⟩ := h.feeds_afterEq hs hpre hafterEq
    have hrest : Feeds (s', w) (field.value ++ (layout.beforeSemi.1 ++ ';' :: layout.afterSemi.1))
        (s', w ++ (field.value ++ (layout.beforeSemi.1 ++ ';' :: layout.afterSemi.1))) :=
      Reads.within (List.not_mem_append h.newline_notMem_value (gaps_behind hbefore hafter).newline_notMem)
    obtain ⟨metas, hload, hquiet⟩ := (hline.spaces hw).loadLine (hread.inBody hs)
    refine ⟨s', metas, ?_, hread, hquiet⟩
    rw [field.render_eq]
    have hlast := hends (l := w ++ (field.value ++ (layout.beforeSemi.1 ++ ';' :: layout.afterSemi.1)))
      (by simpa only [List.append_assoc, List.cons_append] using hload)
    simpa only [List.append_assoc] using hreads.append (hrest.append hlast)
  · have hspaces := Blank.spaces hafterEq
    have hgaps := gaps_behind hbefore hafter
    have hrest : Feeds (s, pre) (field.render layout) (s, pre ++ field.render layout) := by
      rw [field.render_eq, ← List.append_assoc pre]
      exact h.feeds_front.append (Reads.within (List.not_mem_append hspaces.newline_notMem
        (List.not_mem_append h.newline_notMem_value hgaps.newline_notMem)))
    have hbears := ((bears_of_gaps (gaps_of_spaces hspaces)).append h.bears_value).append
      ((bears_of_gaps hgaps).append hline)
    obtain ⟨s', hload, hread⟩ := h.loadLine_front hs hpre hbears
    refine ⟨s', [], ?_, hread, nofun⟩
    rw [Loading.addFields_nil]
    refine hrest.append (hends ?_)
    rw [field.render_eq]
    simpa only [List.append_assoc] using hload

end Carried

end TonyCat.Tools
