import TonyCat.Tools.LostKeys

set_option autoImplicit false

/-! A name or a key on the line of the opening brace. -/

namespace TonyCat.Tools

open TonyCat.Library

def FieldLayout.behind (layout : FieldLayout) : Text :=
  layout.beforeEq.1 ++ '=' :: (layout.afterEq.1 ++ ['1'] ++ layout.beforeSemi.1 ++ ';' :: layout.afterSemi.1)

lemma render_padField (n : ℕ) (layout : FieldLayout) :
    (padField n).render layout = (padField n).head ++ layout.behind := by
  have hvalue : (padField n).value = ['1'] := rfl
  simp [ProtoField.render, FieldLayout.behind, hvalue]

lemma render_keyField_eq (layout : FieldLayout) : keyField.render layout = keyField.head ++ layout.behind := by
  have hvalue : keyField.value = ['1'] := rfl
  simp [ProtoField.render, FieldLayout.behind, hvalue]

lemma behind_notMem {c : Char} (hc : c ∈ ['k', 'K', '/', '>', '\r']) (layout : FieldLayout) : c ∉ layout.behind := by
  have hkind : ∀ c ∈ ['k', 'K', '/', '>', '\r'], isBlank c = false ∧ c ≠ '1' ∧ c ≠ '=' ∧ c ≠ ';' := by decide
  obtain ⟨hblank, hdigit, heq, hsemi⟩ := hkind c hc
  have hgap : ∀ gap : Blank, c ∉ gap.1 := fun gap => gap.notMem hblank
  simp only [FieldLayout.behind, List.mem_append, List.mem_cons, List.not_mem_nil, or_false, not_or]
  exact ⟨hgap _, heq, ⟨⟨hgap _, hdigit⟩, hgap _⟩, hsemi, hgap _⟩

lemma padField_notMem {c : Char} (hc : c ∈ ['k', 'K', '/', '>', '\r']) (n : ℕ) (layout : FieldLayout) :
    c ∉ (padField n).render layout := by
  have hkind : ∀ c ∈ ['k', 'K', '/', '>', '\r'], c ∉ int32.1 ∧ c ≠ ' ' ∧ c ≠ 'a' := by decide
  obtain ⟨htype, hspace, ha⟩ := hkind c hc
  have hhead : c ∉ (padField n).head := head_notMem htype (fun hmem => ha (mem_padName hmem)) hspace 1
  rw [render_padField]
  exact List.not_mem_append hhead (behind_notMem hc _)

lemma keyField_notMem {c : Char} (hc : c ∈ ['K', '/', '>', '\r']) (layout : FieldLayout) :
    c ∉ keyField.render layout := by
  have hkind : ∀ c ∈ ['K', '/', '>', '\r'], c ∉ keyField.head := by decide
  rw [render_keyField_eq]
  exact List.not_mem_append (hkind c hc) (behind_notMem (List.mem_cons_of_mem _ hc) _)

def renderFields (fields : List ProtoField) (layout : ℕ → FieldLayout) : Text := renderItems (fields.map .field) layout

lemma padFields_notMem {c : Char} (hc : c ∈ ['k', 'K', '/', '>', '\r']) (ns : List ℕ) (layout : ℕ → FieldLayout) :
    c ∉ renderFields (ns.map padField) layout := by
  induction ns generalizing layout with
  | nil => nofun
  | cons n ns ih => exact List.not_mem_append (padField_notMem hc n _) (ih _)

lemma renderFields_append (fields fields' : List ProtoField) (layout : ℕ → FieldLayout) :
    renderFields (fields ++ fields') layout =
      renderFields fields layout ++ renderFields fields' fun j => layout (j + fields.length) := by
  rw [renderFields, List.map_append, renderItems_append, List.length_map]
  rfl

lemma renderFields_table (n : ℕ) (layout : ℕ → FieldLayout) : renderItems (tableMessage n).items layout =
    renderFields ((List.range n).map padField) layout ++ keyField.render (layout n) := by
  have hlast : 0 + ((List.range n).map padField).length = n := by simp
  have hfields := renderFields_append ((List.range n).map padField) [keyField] layout
  simp only [renderFields, List.map_cons, List.map_nil, renderItems, Item.render, hlast, List.append_nil] at hfields
  exact hfields

lemma tableFields_notMem {c : Char} (hc : c ∈ ['K', '/', '>', '\r']) (n : ℕ) (layout : ℕ → FieldLayout) :
    c ∉ renderItems (tableMessage n).items layout := by
  rw [renderFields_table]
  exact List.not_mem_append (padFields_notMem (List.mem_cons_of_mem _ hc) _ _) (keyField_notMem hc _)

section Braces

variable {s s' : Loading} {n : ℕ} {layout : MessageLayout}

lemma title_table (n : ℕ) : (tableMessage n).title = str "message " ++ tableName.1 := rfl

lemma ending_table (n : ℕ) : (tableMessage n).ending = ['\x7d', '\n'] := rfl

lemma render_table (n : ℕ) (layout : MessageLayout) : (tableMessage n).text layout =
    (tableMessage n).above ++ str "message " ++ tableName.1 ++ (layout.beforeBrace.1 ++ ['\x7b']) ++
      (layout.afterBrace.1 ++ renderItems (tableMessage n).items layout.field ++ ['\x7d', '\n']) := by
  simp [ProtoMessage.text, ProtoMessage.opening, title_table, ending_table]

lemma unnamed_after {line before after : Text} (h : Feeds (s, line) (before ++ '\n' :: after) (s', []))
    (hbefore : '\n' ∉ before) (hafter : 'K' ∉ after)
    (hfirst : ∀ s₂, s.loadLine (line ++ before ++ ['\n']) = some s₂ → Unnamed 'K' s₂) : Unnamed 'K' s' :=
  h.keeps_after (Q := fun c => c ≠ 'K') (fun hI hl hstep => hI.loadLine (by decide) (fun hmem => hl _ hmem rfl) hstep)
    hbefore (fun _ hc heq => hafter (heq ▸ hc)) hfirst

lemma unkeyed_after {line before after : Text} (h : Feeds (s, line) (before ++ '\n' :: after) (s', []))
    (hbefore : '\n' ∉ before) (hafter : 'k' ∉ after)
    (hfirst : ∀ s₂, s.loadLine (line ++ before ++ ['\n']) = some s₂ → Unkeyed 'k' s₂) : Unkeyed 'k' s' :=
  h.keeps_after (Q := fun c => c ≠ 'k') (fun hI hl hstep => hI.loadLine (by decide) (fun hmem => hl _ hmem rfl) hstep)
    hbefore (fun _ hc heq => hafter (heq ▸ hc)) hfirst

lemma Above.blind {keyComment : Option KeyComment} (h : Above keyComment s s') (hs : Blind s) :
    Unnamed 'K' s' ∧ Unkeyed 'k' s' := by
  obtain ⟨_, -, rfl⟩ := h
  exact ⟨⟨hs.unnamed.next, hs.unnamed.current, hs.unnamed.metas⟩, hs.unkeyed.same rfl rfl⟩

lemma loadLine_opens (hs : s.cur_braces_count = 0) {line : Text} (hslash : '/' ∉ line) (hbrace : '\x7b' ∈ line)
    {first : Text} {rest : List Text} (hwords : lineWords line = first :: rest) (hfirst : first ∉ specialWords) :
    s.loadLine line = some s.opened := by
  rw [Loading.loadLine_of_words hslash hwords hfirst, loadDefinition_zero hs hslash, if_pos hbrace]

theorem unnamed_of_beforeBrace (hs : Blind s) (hbad : ¬ layout.beforeBrace.Breaks)
    (h : Feeds (s, []) ((tableMessage n).text layout) (s', [])) : Unnamed 'K' s' := by
  obtain ⟨s₁, hname, habove⟩ := feeds_named (tableMessage n) hs.outside (fun _ => rfl) (titleFits_tableMessage n)
  obtain ⟨hs₁, -⟩ := habove.blind hs
  have hspaces := Blank.spaces hbad
  have hbrace : Feeds (s₁, str "message " ++ tableName.1) (layout.beforeBrace.1 ++ ['\x7b'])
      (s₁, str "message " ++ tableName.1 ++ (layout.beforeBrace.1 ++ ['\x7b'])) :=
    Reads.within (List.not_mem_append hspaces.newline_notMem (by decide))
  rw [render_table] at h
  have hrest := h.rest (hname.append hbrace)
  have hnot : ∀ c ∈ ['K', '/'],
      c ∉ layout.afterBrace.1 ++ renderItems (tableMessage n).items layout.field ++ ['\x7d', '\n'] := by
    have hkind : ∀ c ∈ ['K', '/'], isBlank c = false ∧ c ∈ ['K', '/', '>', '\r'] ∧ c ∉ ['\x7d', '\n'] := by decide
    intro c hc
    obtain ⟨hblank, hmem, hend⟩ := hkind c hc
    exact List.not_mem_append (List.not_mem_append (layout.afterBrace.notMem hblank) (tableFields_notMem hmem _ _)) hend
  obtain ⟨before, after, heq, hbefore⟩ : ∃ before after, layout.afterBrace.1 ++
      renderItems (tableMessage n).items layout.field ++ ['\x7d', '\n'] = before ++ '\n' :: after ∧ '\n' ∉ before :=
    List.eq_append_cons_of_mem (by simp)
  rw [heq] at hrest hnot
  refine unnamed_after hrest hbefore ?_ fun s₂ hs₂ => ?_
  · exact fun hmem => hnot 'K' (by simp) (List.mem_append_right _ (List.mem_cons_of_mem _ hmem))
  · have hslash : '/' ∉ str "message " ++ tableName.1 ++ (layout.beforeBrace.1 ++ ['\x7b']) ++ before ++ ['\n'] := by
      refine List.not_mem_append (List.not_mem_append (List.not_mem_append (by decide) (List.not_mem_append
        (hspaces.notMem (by decide)) (by decide))) fun hmem => ?_) (by decide)
      exact hnot '/' (by simp) (List.mem_append_left _ hmem)
    obtain ⟨x, xs, hwords⟩ : ∃ x xs, lineWords (str "message " ++ tableName.1 ++ (layout.beforeBrace.1 ++ ['\x7b']) ++
        before ++ ['\n']) = (str "message" ++ x) :: xs := by
      have hmessage : Plain (str "message") := ⟨by decide, by decide⟩
      have hline := lineWords_plain (w := []) (by simp) hmessage
        (' ' :: tableName.1 ++ (layout.beforeBrace.1 ++ ['\x7b']) ++ before ++ ['\n'])
      obtain ⟨x, xs, hhead⟩ := dataWords_head hmessage.begins
        ((' ' :: tableName.1 ++ (layout.beforeBrace.1 ++ ['\x7b']) ++ before ++ ['\n']).rdropWhile isSpace)
      exact ⟨x, xs, hline.trans hhead⟩
    rw [loadLine_opens (habove.depth.trans hs.outside.depth) hslash (by simp) hwords
      (notMem_specialWords (by decide))] at hs₂
    cases hs₂
    exact ⟨hs₁.next, hs₁.next, hs₁.metas⟩

theorem unkeyed_of_afterBrace (hs : Blind s) (hbreaks : layout.beforeBrace.Breaks)
    (hbad : ¬ layout.afterBrace.Breaks) (h : Feeds (s, []) ((tableMessage 0).text layout) (s', [])) :
    Unkeyed 'k' s' := by
  obtain ⟨s₁, w, hname, habove, hw⟩ := feeds_beforeBrace (tableMessage 0) hs.outside (fun _ => rfl)
    (titleFits_tableMessage 0) hbreaks
  obtain ⟨-, hs₁⟩ := habove.blind hs
  have hspaces := Blank.spaces hbad
  have hrender : (tableMessage 0).text layout = (tableMessage 0).above ++ (tableMessage 0).title ++
      layout.beforeBrace.1 ++ ('\x7b' :: layout.afterBrace.1 ++ keyField.head) ++
        ((layout.field 0).behind ++ ['\x7d', '\n']) := by
    have hfields : renderItems (tableMessage 0).items layout.field = keyField.head ++ (layout.field 0).behind := by
      have hnil : renderFields ((List.range 0).map padField) layout.field = [] := rfl
      rw [renderFields_table, render_keyField_eq, hnil, List.nil_append]
    simp [ProtoMessage.text, ProtoMessage.opening, ending_table, hfields]
  have hline : Feeds (s₁.named (tableMessage 0).name, w) ('\x7b' :: layout.afterBrace.1 ++ keyField.head)
      (s₁.named (tableMessage 0).name, w ++ ('\x7b' :: layout.afterBrace.1 ++ keyField.head)) := by
    have hbrace : '\n' ∉ '\x7b' :: layout.afterBrace.1 := by
      rw [List.mem_cons, not_or]
      exact ⟨by decide, hspaces.newline_notMem⟩
    exact Reads.within (List.not_mem_append hbrace (newline_notMem_head keyField ⟨trivial, oneSpace_splits⟩))
  rw [hrender] at h
  have hrest := h.rest (hname.append hline)
  have hnot : 'k' ∉ (layout.field 0).behind ++ ['\x7d', '\n'] :=
    List.not_mem_append (behind_notMem (by simp) _) (by decide)
  obtain ⟨before, after, heq, hbefore⟩ : ∃ before after, (layout.field 0).behind ++ ['\x7d', '\n'] =
      before ++ '\n' :: after ∧ '\n' ∉ before := List.eq_append_cons_of_mem (by simp)
  rw [heq] at hrest hnot
  refine unkeyed_after hrest hbefore ?_ fun s₂ hs₂ => ?_
  · exact fun hmem => hnot (List.mem_append_right _ (List.mem_cons_of_mem _ hmem))
  · have hnamed : Unkeyed 'k' (s₁.named (tableMessage 0).name) := hs₁.same rfl rfl
    have hdepth : (s₁.named (tableMessage 0).name).cur_braces_count = 0 := (habove.depth.trans hs.outside.depth)
    obtain ⟨current, metas, -⟩ | ⟨current, metas, -⟩ | ⟨current, metas, -⟩ | ⟨depth, -, -, -, -, -, -, -⟩ :=
      loadLine_turn hs₂
    · exact hnamed.same (by rw [current]) metas
    · exact hnamed.same (by rw [current]; rfl) metas
    · exact hnamed.closes current metas
    · rw [hdepth] at depth
      cases depth

end Braces

end TonyCat.Tools
