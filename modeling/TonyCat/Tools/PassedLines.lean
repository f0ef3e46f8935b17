import TonyCat.Tools.FieldReading

set_option autoImplicit false

/-! Lines that the parser passes over: none of them makes or names a table with keys. -/

namespace TonyCat.Tools

open TonyCat.Library

namespace Loading

def opened (s : Loading) : Loading :=
  { s with
    cur_pb_meta := { s.cur_pb_meta with
      name := s.msg_name, pb_type := s.msg_type, comment := s.msg_comments, namespace_ := s.pb_namespace }
    msg_comments := []
    cur_braces_count := 1 }

def tables (s : Loading) : List PbMeta := s.pb_metas.filter fun pbMeta => pbMeta.keyNames.isSome

end Loading

lemma loadDefinition_outside {s : Loading} (hs : s.cur_braces_count = 0) (line : Text) (words : List Text) :
    s.loadDefinition line words =
      if (cut ['/', '/'] line).isSome then some { s with msg_comments := words }
      else if '\x7b' ∈ line then some s.opened
      else if 1 < words.length then
        words[0]?.bind fun type => words[1]?.map fun name => { s with msg_type := type, msg_name := name }
      else some s := by
  unfold Loading.loadDefinition
  split
  · rfl
  · next hone =>
    rw [hone] at hs
    cases hs
  · next hzero hone => exact absurd hs hzero

lemma keyNames_of_not_annotates {m : PbMeta} (h : annotates (m.comment.drop 1) = false) : m.keyNames = none := by
  rw [PbMeta.keyNames]
  split_ifs with hdata
  · split
    next key hkey =>
      refine if_neg fun hpre => ?_
      rw [annotates, List.getElem?_drop, List.getElem?_drop, hdata, hkey, decide_eq_true rfl, Bool.true_and,
        Option.any_some, List.isPrefixOf_iff_prefix.mpr hpre] at h
      cases h
    next => rfl
  · rfl

lemma ne_nil_of_mem_splitLine {line word : Text} (h : word ∈ splitLine line) : word ≠ [] := by
  obtain h | h := List.mem_append.mp h
  · exact (mem_dataWords h).1
  · split_ifs at h
    · cases h
    · obtain rfl | h := List.mem_cons.mp h
      · exact List.cons_ne_nil _ _
      · simpa using (List.mem_filter.mp h).2

structure Outside (annotated named : Bool) (s : Loading) : Prop where
  depth : s.cur_braces_count = 0
  fresh : s.cur_pb_meta = {}
  comments : annotated = false → annotates (s.msg_comments.drop 1) = false
  named : named = true → s.msg_name ≠ []

structure Inside (s : Loading) : Prop where
  depth : s.cur_braces_count = 1
  named : s.cur_pb_meta.name ≠ []
  message : s.msg_name ≠ []
  comments : annotates (s.msg_comments.drop 1) = false

lemma Place.outside_ne_inside (annotated named : Bool) : Place.outside annotated named ≠ .inside := by
  intro heq
  cases heq

def Stands : Place → Loading → Prop
  | .outside annotated named, s => Outside annotated named s
  | .inside, s => Inside s

def Versioned (s : Loading) : Prop := s.pb_version = str "\"proto3\""

/-- What no line that is passed over changes. -/
structure Passed (s s' : Loading) : Prop where
  version : s'.pb_version = s.pb_version
  namespace_ : s'.pb_namespace = s.pb_namespace
  tables : s'.tables = s.tables

namespace Passed

variable {s s' s'' : Loading}

lemma refl (s : Loading) : Passed s s := ⟨rfl, rfl, rfl⟩

lemma trans (h : Passed s s') (h' : Passed s' s'') : Passed s s'' :=
  ⟨h'.version.trans h.version, h'.namespace_.trans h.namespace_, h'.tables.trans h.tables⟩

lemma versioned (h : Passed s s') (hs : Versioned s) : Versioned s' := h.version.trans hs

end Passed

lemma Outside.opened {s : Loading} {annotated : Bool} (h : Outside annotated true s) : Inside s.opened :=
  ⟨rfl, h.named rfl, h.named rfl, rfl⟩

lemma Inside.closed {s : Loading} (h : Inside s) : Outside false true s.close :=
  ⟨rfl, rfl, fun _ => h.comments, fun _ => h.message⟩

lemma Inside.addFields {s : Loading} (h : Inside s) (metas : List FieldMeta) : Inside (s.addFields metas) :=
  ⟨h.depth, h.named, h.message, h.comments⟩

lemma Loading.tables_close (s : Loading) :
    s.close.tables = s.tables ++ [s.cur_pb_meta].filter fun pbMeta => pbMeta.keyNames.isSome := List.filter_append ..

section Step

variable {s : Loading} {line : Text} {place : Place} {annotated named : Bool}

lemma loadLine_import_word {rest : List Text} (hwords : splitLine line = str "import" :: rest) :
    s.loadLine line = some s := by
  rw [Loading.loadLine, hwords]
  exact if_pos rfl

/-- A line outside of all braces opens a block, or is not more than a comment or the words before one. -/
lemma Outside.after (h : Outside annotated named s) (hafter : (Place.outside annotated named).after line = some place) :
    (∃ s' annotated' named', place = .outside annotated' named' ∧ s.loadLine line = some s' ∧
        Outside annotated' named' s' ∧ Passed s s') ∨
      place = .inside ∧ annotated = false ∧ named = true ∧ s.loadLine line = some s.opened := by
  cases hwords : splitLine line with
  | nil =>
    rw [Place.after, hwords] at hafter
    cases hafter
    exact .inl ⟨s, annotated, named, rfl, by rw [Loading.loadLine, hwords], h, .refl s⟩
  | cons first rest =>
    simp only [Place.after, hwords] at hafter
    split_ifs at hafter with himport hspecial hcomment hbrace hopens
    · cases hafter
      subst himport
      exact .inl ⟨s, annotated, named, rfl, loadLine_import_word hwords, h, .refl s⟩
    all_goals
      have hfirst : first ∉ specialWords := by
        simp only [specialWords, List.mem_cons, List.not_mem_nil, or_false, not_or]
        exact ⟨himport, not_or.mp hspecial⟩
      rw [Loading.loadLine_of_splitLine hwords hfirst, loadDefinition_outside h.depth]
    · cases hafter
      rw [if_pos hcomment]
      refine .inl ⟨_, _, _, rfl, rfl, ⟨h.depth, h.fresh, fun hnot => ?_, h.named⟩, ⟨rfl, rfl, rfl⟩⟩
      exact hnot
    · cases hafter
      rw [if_neg hcomment, if_pos hbrace]
      exact .inr ⟨rfl, by simpa using hopens.2, hopens.1, rfl⟩
    · cases hafter
      rw [if_neg hcomment, if_neg hbrace]
      cases rest with
      | nil =>
        rw [if_neg (by simp)]
        exact .inl ⟨s, annotated, _, rfl, rfl, by simpa using h, .refl s⟩
      | cons name rest =>
        have hname : name ≠ [] := ne_nil_of_mem_splitLine (hwords ▸ by simp : name ∈ splitLine line)
        rw [if_pos (by simp)]
        exact .inl ⟨_, annotated, _, rfl, rfl, ⟨h.depth, h.fresh, h.comments, fun _ => hname⟩, ⟨rfl, rfl, rfl⟩⟩

lemma loadFiledLine_isSome {pb_version : Text} (h : (loadFiledLine pb_version (str "message") line).isSome)
    (pb_type : Text) :
    (loadFiledLine pb_version pb_type line).isSome := by
  by_cases htype : pb_type = str "message"
  · rwa [htype]
  · unfold loadFiledLine at h ⊢
    split
    next front behind hcut =>
      rw [hcut] at h
      exact h
    next =>
      simp only [if_neg htype]
      split_ifs with henum
      · obtain ⟨-, hlen⟩ := henum
        rw [List.getElem?_eq_getElem (by omega), List.getElem?_eq_getElem hlen]
        rfl
      · rfl

/-- A line inside of braces closes them, or makes at most a field. -/
lemma Inside.after (h : Inside s) (hs : Versioned s) (hafter : Place.inside.after line = some place) :
    (∃ metas, place = .inside ∧ s.loadLine line = some (s.addFields metas)) ∨
      place = .outside false true ∧ s.loadLine line = some s.close := by
  cases hwords : splitLine line with
  | nil =>
    rw [Place.after, hwords] at hafter
    cases hafter
    exact .inl ⟨[], rfl, by rw [Loading.loadLine, hwords, Loading.addFields_nil]⟩
  | cons first rest =>
    simp only [Place.after, hwords] at hafter
    split_ifs at hafter with himport hspecial hbrace hload
    · cases hafter
      subst himport
      exact .inl ⟨[], rfl, by rw [Loading.addFields_nil]; exact loadLine_import_word hwords⟩
    all_goals
      have hfirst : first ∉ specialWords := by
        simp only [specialWords, List.mem_cons, List.not_mem_nil, or_false, not_or]
        exact ⟨himport, not_or.mp hspecial⟩
      rw [Loading.loadLine_of_splitLine hwords hfirst]
      cases hafter
    · refine .inr ⟨rfl, ?_⟩
      rw [Loading.loadDefinition_inside h.depth, if_pos hbrace, if_pos (List.length_pos_of_ne_nil h.named)]
    · obtain ⟨field, hfield⟩ := Option.isSome_iff_exists.mp (loadFiledLine_isSome hload s.cur_pb_meta.pb_type)
      refine .inl ⟨[field], rfl, ?_⟩
      rw [Loading.loadDefinition_inside h.depth, if_neg hbrace, hs, hfield]
      rfl

end Step

section Run

variable {s : Loading} {lines : List Text} {place place' : Place}

theorem Stands.run (place : Place) (h : Stands place s) (hs : Versioned s)
    (hkeys : place = .inside → s.cur_pb_meta.keyNames = none) (hrun : lines.foldlM Place.after place = some place') :
    ∃ s', lines.foldlM Loading.loadLine s = some s' ∧ Stands place' s' ∧ Passed s s' := by
  induction lines generalizing s place with
  | nil =>
    cases hrun
    exact ⟨s, rfl, h, .refl s⟩
  | cons line lines ih =>
    rw [List.foldlM_cons] at hrun
    obtain ⟨place₁, hafter, hrest⟩ := Option.bind_eq_some_iff.mp hrun
    cases place with
    | outside annotated named =>
      obtain ⟨s₁, annotated', named', rfl, hload, houtside, hpassed⟩ | ⟨rfl, rfl, rfl, hload⟩ := Outside.after h hafter
      · obtain ⟨s', hlines, hstands, hpassed'⟩ := ih (.outside annotated' named') houtside (hpassed.versioned hs)
          (fun heq => absurd heq (Place.outside_ne_inside _ _)) hrest
        exact ⟨s', by rw [List.foldlM_cons, hload]; exact hlines, hstands, hpassed.trans hpassed'⟩
      · have hnone : s.opened.cur_pb_meta.keyNames = none := keyNames_of_not_annotates ((Outside.comments h) rfl)
        obtain ⟨s', hlines, hstands, hpassed⟩ := ih .inside (Outside.opened h) hs (fun _ => hnone) hrest
        exact ⟨s', by rw [List.foldlM_cons, hload]; exact hlines, hstands,
          ⟨hpassed.version, hpassed.namespace_, hpassed.tables⟩⟩
    | inside =>
      obtain ⟨metas, rfl, hload⟩ | ⟨rfl, hload⟩ := Inside.after h hs hafter
      · obtain ⟨s', hlines, hstands, hpassed⟩ := ih .inside (Inside.addFields h metas) hs (fun _ => hkeys rfl) hrest
        exact ⟨s', by rw [List.foldlM_cons, hload]; exact hlines, hstands,
          ⟨hpassed.version, hpassed.namespace_, hpassed.tables⟩⟩
      · have htables : s.close.tables = s.tables := by
          rw [s.tables_close, List.filter_cons_of_neg (by simp [hkeys rfl]), List.filter_nil, List.append_nil]
        obtain ⟨s', hlines, hstands, hpassed⟩ := ih (.outside false true) (Inside.closed h) hs
          (fun heq => absurd heq (Place.outside_ne_inside _ _)) hrest
        exact ⟨s', by rw [List.foldlM_cons, hload]; exact hlines, hstands,
          ⟨hpassed.version, hpassed.namespace_, hpassed.tables.trans htables⟩⟩

/-- A message that is open gets more fields at most, up to the first brace that closes it. -/
theorem Inside.run (h : Inside s) (hs : Versioned s) {annotated named : Bool}
    (hrun : lines.foldlM Place.after .inside = some (.outside annotated named)) :
    ∃ s' metas, lines.foldlM Loading.loadLine s = some s' ∧ Outside annotated named s' ∧
      Passed (s.addFields metas).close s' := by
  induction lines generalizing s with
  | nil => cases hrun
  | cons line lines ih =>
    rw [List.foldlM_cons] at hrun
    obtain ⟨place₁, hafter, hrest⟩ := Option.bind_eq_some_iff.mp hrun
    obtain ⟨metas, rfl, hload⟩ | ⟨rfl, hload⟩ := h.after hs hafter
    · obtain ⟨s', metas', hlines, houtside, hpassed⟩ := ih (h.addFields metas) hs hrest
      rw [Loading.addFields_addFields] at hpassed
      exact ⟨s', _, by rw [List.foldlM_cons, hload]; exact hlines, houtside, hpassed⟩
    · obtain ⟨s', hlines, houtside, hpassed⟩ := Stands.run (.outside false true) h.closed hs
        (fun heq => absurd heq (Place.outside_ne_inside _ _)) hrest
      exact ⟨s', [], by rw [List.foldlM_cons, hload]; exact hlines, houtside, by rwa [Loading.addFields_nil]⟩

end Run

/-- No line of the text is left without an end. -/
def Ended (text : Text) : Prop := text = [] ∨ ∃ t, text = t ++ ['\n']

lemma feeds_of_lines {s s' : Loading} {text : Text} (htext : Ended text)
    (h : (linesFrom '\n' [] text).foldlM Loading.loadLine s = some s') : Feeds (s, []) text (s', []) := by
  rw [foldlM_linesFrom] at h
  obtain ⟨⟨s'', line⟩, hfeed, hlast⟩ := Option.bind_eq_some_iff.mp h
  have hreads : Feeds (s, []) text (s'', line) := hfeed
  obtain rfl : line = [] := by
    obtain rfl | ⟨t, rfl⟩ := htext
    · cases hfeed
      rfl
    · exact hreads.snd_eq_nil
  cases hlast
  exact hreads

lemma Place.after_spaces {w : Text} (hw : Spaces w) (place : Place) (line : Text) :
    place.after (w ++ line) = place.after line := by
  have hcut : (cut ['/', '/'] (w ++ line)).isSome = (cut ['/', '/'] line).isSome := by
    rw [cut_append_of_notMem (hw.notMem (by decide)), Option.isSome_map]
  have hopen : '\x7b' ∈ w ++ line ↔ '\x7b' ∈ line := by
    rw [List.mem_append, or_iff_right (hw.notMem (by decide))]
  have hclose : '\x7d' ∈ w ++ line ↔ '\x7d' ∈ line := by
    rw [List.mem_append, or_iff_right (hw.notMem (by decide))]
  have hload : (loadFiledLine (str "\"proto3\"") (str "message") (w ++ line)).isSome =
      (loadFiledLine (str "\"proto3\"") (str "message") line).isSome := by
    rw [← Option.isSome_map (f := FieldMeta.name), loadFiledLine_spaces hw, Option.isSome_map]
  rw [Place.after, Place.after, splitLine_spaces hw.space]
  simp only [hcut, hopen, hclose, hload]

theorem feeds_passed {annotated named : Bool} {place' : Place} {s : Loading} {text : Text}
    (h : Outside annotated named s) (hs : Versioned s) (htext : Ended text)
    (hread : (Place.outside annotated named).read text = some place') :
    ∃ s', Feeds (s, []) text (s', []) ∧ Stands place' s' ∧ Passed s s' := by
  obtain ⟨s', hlines, hstands, hpassed⟩ := Stands.run (.outside annotated named) h hs
    (fun heq => absurd heq (Place.outside_ne_inside _ _)) hread
  exact ⟨s', feeds_of_lines htext hlines, hstands, hpassed⟩

theorem feeds_closed {s : Loading} {w t : Text} {annotated named : Bool} (h : Inside s) (hs : Versioned s)
    (hw : Spaces w) (hread : Place.inside.read (t ++ ['\n']) = some (.outside annotated named)) : ∃ s' metas,
      Feeds (s, w) (t ++ ['\n']) (s', []) ∧ Outside annotated named s' ∧ Passed (s.addFields metas).close s' := by
  obtain ⟨line, rest, htext, hline⟩ : ∃ line rest, t ++ ['\n'] = line ++ '\n' :: rest ∧ '\n' ∉ line :=
    List.eq_append_cons_of_mem (by simp)
  have hspaced : '\n' ∉ w ++ line := List.not_mem_append hw.newline_notMem hline
  rw [Place.read, htext, linesFrom_append_cons hline, List.foldlM_cons, List.nil_append,
    ← Place.after_spaces hw, ← List.append_assoc, ← List.foldlM_cons, ← List.nil_append (w ++ line),
    ← linesFrom_append_cons hspaced] at hread
  obtain ⟨s', metas, hlines, houtside, hpassed⟩ := h.run hs hread
  have hfeeds := feeds_of_lines (.inr ⟨w ++ t, by rw [List.append_assoc, List.append_assoc, htext]⟩) hlines
  rw [List.append_assoc, ← htext] at hfeeds
  have hspaces : Feeds (s, []) w (s, [] ++ w) := Reads.within hw.newline_notMem
  exact ⟨s', metas, hfeeds.rest hspaces, houtside, hpassed⟩

lemma splitLine_concat {line : Text} (h : ¬ ['/', '/'] <:+ line) : splitLine (line ++ ['\n']) = splitLine line := by
  have hfind : findSlice ['/', '/'] (line ++ ['\n']) = findSlice ['/', '/'] line :=
    findSlice_concat (by simp) (by decide) line
  cases hcut : findSlice ['/', '/'] line with
  | none =>
    have hnone : cut ['/', '/'] line = none := by rw [cut, hcut, Option.map_none]
    have hnone' : cut ['/', '/'] (line ++ ['\n']) = none := by rw [cut, hfind, hcut, Option.map_none]
    rw [splitLine, splitLine, hnone, hnone']
    simp only [Option.getD_none, strip_concat_newline]
  | some n =>
    have hle := findSlice_add_le hcut
    have heq := findSlice_eq_some hcut
    rw [List.length_cons, List.length_singleton] at hle heq
    have hne : line.drop (n + 2) ≠ [] := by
      intro hnil
      rw [hnil, List.append_nil] at heq
      exact h ⟨line.take n, heq.symm⟩
    have hdrop : (line ++ ['\n']).drop (n + 2) = line.drop (n + 2) ++ ['\n'] := List.drop_append_of_le_length hle
    have htake : (line ++ ['\n']).take n = line.take n := List.take_append_of_le_length (by omega)
    rw [splitLine, splitLine, cut, cut, hfind, hcut]
    simp only [Option.map_some, Option.getD_some, List.length_cons, List.length_nil, Nat.zero_add, Nat.reduceAdd,
      htake, hdrop, if_neg hne, strip_concat_newline, List.append_eq_nil_iff, List.cons_ne_nil, and_false, if_false]

lemma loadLine_concat (s : Loading) {line : Text} (hbrace : '\x7d' ∈ line) (h : ¬ ['/', '/'] <:+ line) :
    s.loadLine (line ++ ['\n']) = s.loadLine line := by
  have hcut : (cut ['/', '/'] (line ++ ['\n'])).isSome = (cut ['/', '/'] line).isSome := by
    rw [cut, cut, findSlice_concat (by simp) (by decide), Option.isSome_map, Option.isSome_map]
  have hopen : '\x7b' ∈ line ++ ['\n'] ↔ '\x7b' ∈ line := by simp
  have hclose : '\x7d' ∈ line ++ ['\n'] := List.mem_append_left _ hbrace
  have hdefinition : ∀ (s : Loading) (words : List Text),
      s.loadDefinition (line ++ ['\n']) words = s.loadDefinition line words := by
    intro s words
    unfold Loading.loadDefinition
    split
    · simp only [hcut, hopen]
    · rw [if_pos hclose, if_pos hbrace]
    · rfl
  rw [Loading.loadLine, Loading.loadLine, splitLine_concat h]
  simp only [hdefinition]

/-- The text of the lines, the last one of which may have no end, is read to the state. -/
def Loads (s : Loading) (text : Text) (s' : Loading) : Prop :=
  ∃ r, Feeds (s, []) text r ∧ lastLine Loading.loadLine r = some s'

lemma Loads.of_feeds {s s' : Loading} {text : Text} (h : Feeds (s, []) text (s', [])) : Loads s text s' := ⟨_, h, rfl⟩

/-- The end of the last line does not matter behind a closing brace, unless it is all there is of a comment. -/
lemma Loads.of_ended {s s' : Loading} {t closing : Text} (hclosing : '\n' ∉ closing)
    (hcomment : ¬ ['/', '/'] <:+ closing) (h : Feeds (s, []) (t ++ ('\x7d' :: closing ++ ['\n'])) (s', [])) :
    Loads s (t ++ '\x7d' :: closing) s' := by
  obtain ⟨⟨s₁, line⟩, hreads, hend⟩ := h.split
  have hnl : '\n' ∉ '\x7d' :: closing := by
    rw [List.mem_cons, not_or]
    exact ⟨by decide, hclosing⟩
  have hbrace : Feeds (s₁, line) ('\x7d' :: closing) (s₁, line ++ '\x7d' :: closing) := Reads.within hnl
  have hsuffix : ¬ ['/', '/'] <:+ line ++ '\x7d' :: closing := by
    intro hmem
    obtain hmem | hmem := List.suffix_or_suffix_of_suffix hmem (List.suffix_append line ('\x7d' :: closing))
    · obtain heq | hmem := List.suffix_cons_iff.mp hmem
      · exact absurd (List.cons.inj heq).1 (by decide)
      · exact hcomment hmem
    · exact absurd (hmem.subset (List.mem_cons_self ..)) (by decide)
  refine ⟨_, hreads.append hbrace, ?_⟩
  have hlast := hend.rest hbrace
  rw [Reads, feedLines, if_pos rfl, loadLine_concat _ (by simp) hsuffix] at hlast
  obtain ⟨s₂, hload, heq⟩ := Option.bind_eq_some_iff.mp hlast
  cases heq
  rw [lastLine, if_neg (by simp)]
  exact hload

end TonyCat.Tools
