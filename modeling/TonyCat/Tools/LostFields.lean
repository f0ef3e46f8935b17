import TonyCat.Tools.LostTables

set_option autoImplicit false

/-! A key on a line that its layout, or that of the field before it, spoils. -/

namespace TonyCat.Tools

open TonyCat.Library

section Fields

variable {s s' : Loading} {n : ℕ} {layout : MessageLayout}

lemma readable_padField {layout : FieldLayout} (h : layout.KeepsName) (n : ℕ) : Readable (padField n) layout :=
  ⟨⟨trivial, oneSpace_splits⟩, h, .inl rfl, List.not_mem_nil, nofun⟩

lemma feeds_pads_next (ns : List ℕ) {pre : Text} {layout : ℕ → FieldLayout} (hs : s.InBody) (hpre : Clean pre)
    (hgood : ∀ j < ns.length, (layout j).KeepsName ∧ (layout j).FreesNext) :
    ∃ s' pre', Feeds (s, pre) (renderFields (ns.map padField) layout) (s', pre') ∧ s'.InBody ∧ Clean pre' := by
  induction ns generalizing s pre layout with
  | nil => exact ⟨s, pre, Reads.nil _, hs, hpre⟩
  | cons n ns ih =>
    obtain ⟨hkeeps, hnext⟩ := hgood 0 (by simp)
    obtain ⟨s', pre', hreads, hread, hleaves⟩ := (readable_padField hkeeps n).feeds_field hs hpre (.inl hnext)
    obtain ⟨s'', pre'', hreads', hs'', hpre''⟩ := ih (hread.inBody hs) (hleaves.next hnext)
      fun j hj => hgood (j + 1) (by simpa using hj)
    exact ⟨s'', pre'', hreads.append hreads', hs'', hpre''⟩

lemma feeds_padFields (hs : Blind s) (hbefore : layout.beforeBrace.Breaks)
    (hafter : layout.afterBrace.Breaks) (hgood : ∀ j < n, (layout.field j).KeepsName ∧ (layout.field j).FreesNext)
    (m : ℕ) : ∃ s₁ pre, Feeds (s, []) ((tableMessage m).opening layout ++
        renderFields ((List.range n).map padField) layout.field) (s₁, pre) ∧
      s₁.InBody ∧ Unkeyed 'k' s₁ ∧ Clean pre := by
  obtain ⟨s₁, pre, hopen, habove, hpre⟩ :=
    feeds_opening (tableMessage m) hs.outside (fun _ => rfl) (titleFits_tableMessage m) hbefore hafter
  obtain ⟨-, hs₁⟩ := habove.blind hs
  have hopened : Unkeyed 'k' (s₁.named (tableMessage m).name).opened := hs₁.same rfl rfl
  obtain ⟨s₂, pre', hfields, hs₂, hpre'⟩ := feeds_pads_next (List.range n)
    (opened_inBody hs.versioned habove _) (.of_spaces hpre) fun j hj => hgood j (by simpa using hj)
  exact ⟨s₂, pre', hopen.append hfields, hs₂, feeds_unkeyed hfields (by decide) (hpre.notMem (by decide))
    (padFields_notMem (by simp) _ _) hopened, hpre'⟩

lemma render_keyField (n : ℕ) (layout : MessageLayout) : (tableMessage n).text layout =
    (tableMessage n).opening layout ++ renderFields ((List.range n).map padField) layout.field ++
      (keyField.head ++ ((layout.field n).behind ++ ['\x7d', '\n'])) := by
  rw [ProtoMessage.text, renderFields_table, render_keyField_eq, ending_table]
  simp only [List.append_assoc]

lemma lost_of_cons {c : Char} (hc : c ∉ ['i', 'p', 's', 'r', 'u']) (x : Text) :
    c :: x ∉ specialWords ∧ c :: x ≠ str "repeated" ∧ PbMeta.isKeyType (c :: x) = false := by
  simp only [List.mem_cons, List.not_mem_nil, or_false, not_or] at hc
  obtain ⟨hi, hp, hs, hr, hu⟩ := hc
  refine ⟨notMem_specialWords (by simp [hi, hp, hs]), fun heq => hr (List.cons.inj heq).1, ?_⟩
  simp [PbMeta.isKeyType, str, List.isPrefixOf, Ne.symm hi, Ne.symm hs, Ne.symm hu]

def LosesKey (line : Text) : Prop :=
  ∃ first rest, lineWords line = first :: rest ∧ first ∉ specialWords ∧ first ≠ str "repeated" ∧
    (rest.length < 2 ∨ rest[0]? ≠ some ['k'] ∨ PbMeta.isKeyType first = false)

lemma LosesKey.of_cons {line x : Text} {c : Char} {rest : List Text} (hwords : lineWords line = (c :: x) :: rest)
    (hc : c ∉ ['i', 'p', 's', 'r', 'u']) : LosesKey line := by
  obtain ⟨hspecial, hrepeated, htype⟩ := lost_of_cons hc x
  exact ⟨_, _, hwords, hspecial, hrepeated, .inr (.inr htype)⟩

lemma unkeyed_of_line {line tail : Text} (hs : s.InBody) (hkey : Unkeyed 'k' s) (h : Feeds (s, line) tail (s', []))
    (hline : ∀ c ∈ ['/', '>'], c ∉ line) (htail : ∀ c ∈ ['k', '/', '>'], c ∉ tail) (hnl : '\n' ∈ tail)
    (hloses : ∀ t after, tail = t ++ '\n' :: after → '\n' ∉ t → LosesKey (line ++ t ++ ['\n'])) : Unkeyed 'k' s' := by
  obtain ⟨before, after, rfl, hbefore⟩ := List.eq_append_cons_of_mem hnl
  refine unkeyed_after h hbefore ?_ fun s₂ hs₂ => ?_
  · exact fun hmem => htail 'k' (by simp) (List.mem_append_right _ (List.mem_cons_of_mem _ hmem))
  · have hkind : ∀ c ∈ ['/', '>'], c ∈ ['k', '/', '>'] ∧ c ∉ ['\n'] := by decide
    have hchars : ∀ c ∈ ['/', '>'], c ∉ line ++ before ++ ['\n'] := by
      refine fun c hc => List.not_mem_append (List.not_mem_append (hline c hc) fun hmem => ?_) (hkind c hc).2
      exact htail c (hkind c hc).1 (List.mem_append_left _ hmem)
    obtain ⟨first, rest, hwords, hspecial, hrepeated, hlost⟩ := hloses before after rfl hbefore
    exact hkey.loadLine_of_words hs hchars hwords hspecial hrepeated hlost hs₂

lemma end_notMem (layout : FieldLayout) : ∀ c ∈ ['k', '/', '>'], c ∉ layout.behind ++ ['\x7d', '\n'] := by
  have hkind : ∀ c ∈ ['k', '/', '>'], c ∈ ['k', 'K', '/', '>', '\r'] ∧ c ∉ ['\x7d', '\n'] := by decide
  exact fun c hc => List.not_mem_append (behind_notMem (hkind c hc).1 _) (hkind c hc).2

lemma Clean.chars_notMem {pre : Text} (h : Clean pre) : ∀ c ∈ ['/', '>'], c ∉ pre := by
  have hkind : ∀ c ∈ ['/', '>'], c ≠ ';' ∧ isSpace c = false := by decide
  exact fun c hc => h.notMem (hkind c hc).1 (hkind c hc).2

lemma Spaces.chars_notMem {t : Text} (h : Spaces t) : ∀ c ∈ ['/', '>'], c ∉ t := by
  have hkind : ∀ c ∈ ['/', '>'], isSpace c = false := by decide
  exact fun c hc => h.notMem (hkind c hc)

lemma keyHead_notMem : ∀ c ∈ ['/', '>'], c ∉ keyField.head := by decide

lemma losesKey_break {pre l : Text} (hpre : Clean pre) (hl : Spaces l) :
    LosesKey (pre ++ keyField.head ++ l ++ ['\n']) := by
  have hplain : Plain (str "int32") := ⟨by decide, by decide⟩
  have hcons : keyField.head ++ (l ++ ['\n']) = 'i' :: (str "nt32 k" ++ (l ++ ['\n'])) := rfl
  have hend : (' ' :: 'k' :: (l ++ ['\n'])).rdropWhile isSpace = [' ', 'k'] := by
    have hk : (' ' :: 'k' :: (l ++ ['\n'])).rdropWhile isSpace = ' ' :: 'k' :: (l ++ ['\n']).rdropWhile isSpace :=
      rdropWhile_append_cons (a := [' ']) (by decide)
    rw [hk, rdropWhile_of_spaces hl.concat_newline]
  have hwords : lineWords (pre ++ keyField.head ++ l ++ ['\n']) = [str "int32", ['k']] := by
    have hline := lineWords_plain (w := []) (by simp) hplain (' ' :: 'k' :: (l ++ ['\n']))
    rw [List.append_assoc, List.append_assoc, hcons, hpre.words (by decide), ← hcons]
    rw [hend] at hline
    exact hline.trans (by decide)
  exact ⟨_, _, hwords, by decide, by decide, .inl (by simp)⟩

lemma losesKey_attached {pre gap : Text} {b : Char} (hpre : Clean pre) (hb : Begins ['k', b]) (t : Text) :
    LosesKey (pre ++ keyField.head ++ (b :: gap ++ ['=']) ++ t) := by
  have hassoc : pre ++ keyField.head ++ (b :: gap ++ ['=']) ++ t =
      pre ++ ((keyField.head ++ b :: gap) ++ '=' :: t) := by simp
  obtain ⟨x, xs, hhead⟩ := dataWords_head hb (gap ++ '=' :: t.rdropWhile isSpace)
  have hwords : lineWords (pre ++ keyField.head ++ (b :: gap ++ ['=']) ++ t) =
      str "int32" :: (['k', b] ++ x) :: xs := by
    have hfirst : ∃ c cs, keyField.head ++ b :: gap = c :: cs ∧ isSpace c = false := ⟨'i', _, rfl, by decide⟩
    have hsplit : keyField.head ++ b :: gap ++ '=' :: t.rdropWhile isSpace =
        str "int32" ++ ' ' :: (['k', b] ++ (gap ++ '=' :: t.rdropWhile isSpace)) := by
      have hkey : keyField.head = str "int32" ++ [' ', 'k'] := rfl
      simp [hkey]
    rw [hassoc, hpre.lineWords_eq hfirst, hsplit, dataWords_append_space, hhead]
    rfl
  refine ⟨_, _, hwords, by decide, by decide, .inr (.inl ?_)⟩
  simp

theorem unkeyed_of_beforeEq (hs : Blind s) (hbefore : layout.beforeBrace.Breaks)
    (hafter : layout.afterBrace.Breaks) (hgood : ∀ j < n, (layout.field j).KeepsName ∧ (layout.field j).FreesNext)
    (hbad : ¬ (layout.field n).KeepsName) (h : Feeds (s, []) ((tableMessage n).text layout) (s', [])) :
    Unkeyed 'k' s' := by
  obtain ⟨s₁, pre, hpads, hs₁, hkey, hpre⟩ := feeds_padFields hs hbefore hafter hgood n
  have hhead : Feeds (s₁, pre) keyField.head (s₁, pre ++ keyField.head) :=
    Reads.within (newline_notMem_head keyField ⟨trivial, oneSpace_splits⟩)
  rw [render_keyField] at h
  have hrest := (h.rest hpads).rest hhead
  have hend := end_notMem (layout.field n)
  have hfront : ∀ c ∈ ['/', '>'], c ∉ pre ++ keyField.head :=
    fun c hc => List.not_mem_append (hpre.chars_notMem c hc) (keyHead_notMem c hc)
  rw [FieldLayout.behind] at hrest hend
  by_cases hbreaks : (layout.field n).beforeEq.Breaks
  · obtain ⟨l, gap, heq, hl⟩ := List.eq_append_cons_of_mem hbreaks
    have hspaces : Spaces l := fun c hc =>
      ((layout.field n).beforeEq.chars c (heq ▸ List.mem_append_left _ hc)).resolve_left fun hnl => hl (hnl ▸ hc)
    have hline : Feeds (s₁, pre ++ keyField.head) l (s₁, pre ++ keyField.head ++ l) := Reads.within hl
    rw [heq, List.append_assoc, List.append_assoc] at hrest hend
    refine unkeyed_of_line hs₁ hkey (hrest.rest hline)
      (fun c hc => List.not_mem_append (hfront c hc) (hspaces.chars_notMem c hc))
      (fun c hc hmem => hend c hc (List.mem_append_right _ hmem)) (by simp) fun t after ht hnl => ?_
    cases t with
    | nil =>
      rw [List.append_nil]
      exact losesKey_break hpre hspaces
    | cons c t => exact absurd (List.mem_cons.mpr (.inl (List.cons.inj ht).1)) hnl
  · have hspaces := Blank.spaces hbreaks
    have hfirst : ∃ b gap, (layout.field n).beforeEq.1 = b :: gap ∧ b ≠ ' ' := by
      cases hcons : (layout.field n).beforeEq.1 with
      | nil => exact absurd ⟨hbreaks, .inl hcons⟩ hbad
      | cons b gap =>
        refine ⟨b, gap, rfl, ?_⟩
        rintro rfl
        exact hbad ⟨hbreaks, .inr ⟨gap, hcons⟩⟩
    obtain ⟨b, gap, hcons, hb⟩ := hfirst
    have hblank := hspaces b (hcons ▸ List.mem_cons_self ..)
    have hne : ∀ {c : Char}, isSpace c = false → b ≠ c := by
      rintro c hc rfl
      rw [hblank.1] at hc
      cases hc
    have hbegins : Begins ['k', b] :=
      ⟨by simp, by simpa using Ne.symm hb, by simpa using (hne (by decide)).symm, by simpa using (hne (by decide)).symm⟩
    have hline : Feeds (s₁, pre ++ keyField.head) ((layout.field n).beforeEq.1 ++ ['='])
        (s₁, pre ++ keyField.head ++ ((layout.field n).beforeEq.1 ++ ['='])) :=
      Reads.within (List.not_mem_append hspaces.newline_notMem (by decide))
    rw [List.append_cons (layout.field n).beforeEq.1, List.append_assoc] at hrest hend
    have hkind : ∀ c ∈ ['/', '>'], c ∉ ['='] := by decide
    refine unkeyed_of_line hs₁ hkey (hrest.rest hline) (fun c hc => List.not_mem_append (hfront c hc)
        (List.not_mem_append (hspaces.chars_notMem c hc) (hkind c hc)))
      (fun c hc hmem => hend c hc (List.mem_append_right _ hmem)) (by simp) fun t after _ _ => ?_
    rw [hcons, List.append_assoc]
    exact losesKey_attached hpre hbegins _

lemma spaces_or_blank (t : Text) :
    (∃ m, t = List.replicate m ' ') ∨ ∃ m b t', t = List.replicate m ' ' ++ b :: t' ∧ b ≠ ' ' := by
  induction t with
  | nil => exact .inl ⟨0, rfl⟩
  | cons c t ih =>
    by_cases hc : c = ' '
    · subst hc
      obtain ⟨m, rfl⟩ | ⟨m, b, t', rfl, hb⟩ := ih
      · exact .inl ⟨m + 1, rfl⟩
      · exact .inr ⟨m + 1, b, t', rfl, hb⟩
    · exact .inr ⟨0, c, t, rfl, hc⟩

lemma losesKey_semicolon {w gap : Text} (hw : Spaces w) (hgap : Spaces gap)
    (hbad : ¬ ∃ u k, gap = u ++ List.replicate (k + 1) ' ' ∧ ' ' ∉ u) (t : Text) :
    LosesKey (w ++ ';' :: gap ++ keyField.head ++ t ++ ['\n']) := by
  have heq : ∀ {u : Text}, (∀ c ∈ u, c ∈ gap) → '=' ∉ u := fun hu hmem => hgap.notMem (by decide) (hu _ hmem)
  have hkey : keyField.head = str "int32 " ++ ['k'] := rfl
  have hassoc : w ++ ';' :: gap ++ keyField.head ++ t ++ ['\n'] =
      w ++ ';' :: (gap ++ str "int32 " ++ 'k' :: (t ++ ['\n'])) := by
    simp [hkey]
  have hline : lineWords (w ++ ';' :: gap ++ keyField.head ++ t ++ ['\n']) =
      dataWords (';' :: (gap ++ str "int32 " ++ 'k' :: (t ++ ['\n']).rdropWhile isSpace)) := by
    rw [hassoc, lineWords, strip_append_cons hw.space (by decide), rdropWhile_append_cons (by decide)]
  by_cases hspace : ' ' ∈ gap
  · obtain ⟨u, v, rfl, hu⟩ := List.eq_append_cons_of_mem hspace
    obtain ⟨m, rfl⟩ | ⟨m, b, v', rfl, hb⟩ := spaces_or_blank v
    · exact absurd ⟨u, m, rfl, hu⟩ hbad
    have hblank : isSpace b = true := hgap.space b (by simp)
    have hne : ∀ {c : Char}, isSpace c = false → b ≠ c := by
      rintro c hc rfl
      rw [hblank] at hc
      cases hc
    have hbegins : Begins [b] := ⟨by simp, by simpa using Ne.symm hb, by simpa using (hne (by decide)).symm,
      by simpa using (hne (by decide)).symm⟩
    obtain ⟨x, xs, hhead⟩ := dataWords_head hbegins (v' ++ str "int32 " ++ 'k' :: (t ++ ['\n']).rdropWhile isSpace)
    have hsemi : ' ' ∉ ';' :: u := by
      rw [List.mem_cons, not_or]
      exact ⟨by decide, hu⟩
    have hwords : dataWords (';' :: (u ++ ' ' :: (List.replicate m ' ' ++ b :: v') ++ str "int32 " ++
        'k' :: (t ++ ['\n']).rdropWhile isSpace)) = (b :: x) :: xs := by
      have hsplit : ';' :: (u ++ ' ' :: (List.replicate m ' ' ++ b :: v') ++ str "int32 " ++
          'k' :: (t ++ ['\n']).rdropWhile isSpace) = (';' :: u) ++ ' ' :: (List.replicate m ' ' ++
            ([b] ++ (v' ++ str "int32 " ++ 'k' :: (t ++ ['\n']).rdropWhile isSpace))) := by simp
      rw [hsplit, dataWords_append_space, dataWords_of_notMem hsemi, splitWord_semicolon (heq (by simp_all)),
        dataWords_replicate_append, hhead]
      rfl
    refine .of_cons (hline.trans hwords) fun hmem => ?_
    have hkind : ∀ c ∈ ['i', 'p', 's', 'r', 'u'], isSpace c = false := by decide
    exact hne (hkind b hmem) rfl
  · obtain ⟨x, xs, hhead⟩ := dataWords_head (w := ['k']) ⟨by decide, by decide, by decide, by decide⟩
      ((t ++ ['\n']).rdropWhile isSpace)
    have hsemi : ' ' ∉ ';' :: (gap ++ str "int32") := by
      rw [List.mem_cons, not_or]
      exact ⟨by decide, List.not_mem_append hspace (by decide)⟩
    have hwords : dataWords (';' :: (gap ++ str "int32 " ++ 'k' :: (t ++ ['\n']).rdropWhile isSpace)) =
        ('k' :: x) :: xs := by
      have hsplit : ';' :: (gap ++ str "int32 " ++ 'k' :: (t ++ ['\n']).rdropWhile isSpace) =
          (';' :: (gap ++ str "int32")) ++ ' ' :: (['k'] ++ (t ++ ['\n']).rdropWhile isSpace) := by simp [str]
      rw [hsplit, dataWords_append_space, dataWords_of_notMem hsemi,
        splitWord_semicolon (List.not_mem_append (heq fun c hc => hc) (by decide)), hhead]
      rfl
    exact .of_cons (hline.trans hwords) (by decide)

lemma losesKey_tag {w : Text} (hw : Spaces w) (tag : Tag) (t : Text) : LosesKey (w ++ (tag.1 ++ t)) := by
  obtain ⟨c, cs, hcons, hdigit⟩ := tag.exists_cons
  obtain ⟨x, xs, hhead⟩ := dataWords_head tag.plain.begins (t.rdropWhile isSpace)
  rw [← lineWords_plain hw.space tag.plain, hcons, List.cons_append] at hhead
  rw [hcons]
  refine .of_cons hhead fun hmem => ?_
  have hkind : ∀ c ∈ ['i', 'p', 's', 'r', 'u'], c.isDigit = false := by decide
  rw [hkind c hmem] at hdigit
  cases hdigit

lemma losesKey_front {pre : Text} {layout : FieldLayout} (hpre : Clean pre) (hgap : NameGap layout.beforeEq.1) (n : ℕ)
    (t : Text) : LosesKey (pre ++ ((padField n).front layout ++ t)) := by
  obtain ⟨x, xs, hwords⟩ := headWords 0 (t := t.rdropWhile isSpace) int32.plain (padName n).plain hgap
  have hfirst : ∃ c cs, int32.1 ++ List.replicate 1 ' ' ++ (padName n).1 ++ layout.beforeEq.1 = c :: cs ∧
      isSpace c = false := ⟨'i', _, rfl, by decide⟩
  rw [← hpre.lineWords_eq hfirst] at hwords
  have hline : pre ++ ((padField n).front layout ++ t) =
      pre ++ (int32.1 ++ List.replicate 1 ' ' ++ (padName n).1 ++ layout.beforeEq.1 ++ '=' :: t) := by
    simp [ProtoField.front, ProtoField.head, padField, oneSpace, FieldRule.text]
  rw [hline]
  refine ⟨_, _, hwords, by decide, by decide, .inr (.inl ?_)⟩
  intro heq
  have hname : (padName n).1 = ['k'] := Option.some.inj heq
  have ha : 'a' ∈ (padName n).1 := List.mem_cons_self ..
  rw [hname] at ha
  exact absurd ha (by decide)

lemma value_padField (n : ℕ) : (padField n).value = oneTag.1 := List.append_nil _

lemma feeds_spoiled {pre : Text} {layout : FieldLayout} (hs : s.InBody) (hpre : Clean pre)
    (hkeeps : layout.KeepsName) (hbad : ¬ layout.FreesNext) (n : ℕ) :
    ∃ s₂ line, Feeds (s, pre) ((padField n).render layout) (s₂, line) ∧ s₂.InBody ∧ (∀ c ∈ ['/', '>'], c ∉ line) ∧
      ∀ t, LosesKey (line ++ keyField.head ++ t ++ ['\n']) := by
  obtain ⟨hafter, hgap⟩ : ¬ layout.afterSemi.Breaks ∧ ¬ (layout.beforeSemi.Breaks ∧
      ∃ gap k, layout.afterSemi.1 = gap ++ List.replicate (k + 1) ' ' ∧ ' ' ∉ gap) := not_or.mp hbad
  have hspaces := Blank.spaces hafter
  have hreadable := readable_padField hkeeps n
  have hsemicolon : ∀ c ∈ ['/', '>'], c ∉ [';'] := by decide
  have htag : ∀ c ∈ ['/', '>'], c ∉ (padField n).value := by
    rw [value_padField]
    decide
  rw [ProtoField.render_eq]
  by_cases hbefore : layout.beforeSemi.Breaks
  · obtain ⟨s₂, w, hreads, hread, hw⟩ := hreadable.feeds_beforeSemi hs hpre hbefore
    have hsemi : Feeds (s₂, w) (';' :: layout.afterSemi.1) (s₂, w ++ ';' :: layout.afterSemi.1) := by
      refine Reads.within ?_
      rw [List.mem_cons, not_or]
      exact ⟨by decide, hspaces.newline_notMem⟩
    refine ⟨s₂, _, by simpa only [List.append_assoc] using hreads.append hsemi, hread.inBody hs, fun c hc => ?_,
      losesKey_semicolon hw hspaces fun h => hgap ⟨hbefore, h⟩⟩
    rw [List.append_cons]
    exact List.not_mem_append (List.not_mem_append (hw.chars_notMem c hc) (hsemicolon c hc)) (hspaces.chars_notMem c hc)
  · have hgaps := gaps_behind hbefore hafter
    have hgapChars : ∀ c ∈ ['/', '>'], c ∉ layout.beforeSemi.1 ++ ';' :: layout.afterSemi.1 := by
      have hkind : ∀ c ∈ ['/', '>'], isSpace c = false ∧ c ≠ ';' := by decide
      intro c hc hmem
      obtain hspace | heq := (hgaps c hmem).1
      · rw [(hkind c hc).1] at hspace
        cases hspace
      · exact (hkind c hc).2 heq
    by_cases hafterEq : layout.afterEq.Breaks
    · obtain ⟨s₂, w, hreads, hread, hw⟩ := hreadable.feeds_afterEq hs hpre hafterEq
      have hrest := (hreadable.feeds_value w).append (Reads.within (s := s₂) hgaps.newline_notMem)
      refine ⟨s₂, _, by simpa only [List.append_assoc] using hreads.append hrest, hread.inBody hs, fun c hc => ?_,
        fun t => ?_⟩
      · exact List.not_mem_append (hw.chars_notMem c hc) (List.not_mem_append (htag c hc) (hgapChars c hc))
      · rw [value_padField]
        simpa only [List.append_assoc] using losesKey_tag hw oneTag _
    · have hfront : Feeds (s, pre) ((padField n).front layout) (s, pre ++ (padField n).front layout) :=
        hreadable.feeds_front
      have hreads := hfront.append ((feeds_within hafterEq).append
        ((hreadable.feeds_value _).append (Reads.within hgaps.newline_notMem)))
      refine ⟨s, _, hreads, hs, fun c hc => ?_, fun t => ?_⟩
      · have hkind : ∀ c ∈ ['/', '>'], c ∈ ['k', 'K', '/', '>', '\r'] := by decide
        have hmem : c ∉ (padField n).render layout := padField_notMem (hkind c hc) n layout
        rw [ProtoField.render_eq] at hmem
        simpa only [List.append_assoc] using List.not_mem_append (hpre.chars_notMem c hc) hmem
      · simpa only [List.append_assoc] using losesKey_front hpre hkeeps.nameGap n _

lemma renderFields_pad (n : ℕ) (layout : ℕ → FieldLayout) : renderFields ((List.range (n + 1)).map padField) layout =
    renderFields ((List.range n).map padField) layout ++ (padField n).render (layout n) := by
  have hlast : 0 + ((List.range n).map padField).length = n := by simp
  have hfields := renderFields_append ((List.range n).map padField) [padField n] layout
  rw [List.range_succ, List.map_append]
  simp only [renderFields, List.map_cons, List.map_nil, renderItems, Item.render, hlast, List.append_nil] at hfields ⊢
  exact hfields

theorem unkeyed_of_afterSemi (hs : Blind s) (hbefore : layout.beforeBrace.Breaks)
    (hafter : layout.afterBrace.Breaks) (hgood : ∀ j < n, (layout.field j).KeepsName ∧ (layout.field j).FreesNext)
    (hkeeps : (layout.field n).KeepsName) (hbad : ¬ (layout.field n).FreesNext)
    (h : Feeds (s, []) ((tableMessage (n + 1)).text layout) (s', [])) : Unkeyed 'k' s' := by
  obtain ⟨s₁, pre, hpads, hs₁, hkey, hpre⟩ := feeds_padFields hs hbefore hafter hgood (n + 1)
  obtain ⟨s₂, line, hpad, hs₂, hline, hloses⟩ := feeds_spoiled hs₁ hpre hkeeps hbad n
  have hkey₂ : Unkeyed 'k' s₂ := feeds_unkeyed hpad (by decide) (hpre.notMem (by decide) (by decide))
    (padField_notMem (by simp) _ _) hkey
  have hhead : Feeds (s₂, line) keyField.head (s₂, line ++ keyField.head) :=
    Reads.within (newline_notMem_head keyField ⟨trivial, oneSpace_splits⟩)
  rw [render_keyField, renderFields_pad, ← List.append_assoc ((tableMessage (n + 1)).opening layout)] at h
  have hrest := ((h.rest (hpads.append hpad)).rest hhead)
  exact unkeyed_of_line hs₂ hkey₂ hrest (fun c hc => List.not_mem_append (hline c hc) (keyHead_notMem c hc))
    (end_notMem _) (by simp) fun t _ _ _ => hloses t

end Fields

end TonyCat.Tools
