import TonyCat.Tools.FileReading

set_option autoImplicit false

/-! What any line can do, and what a file without a name or a key in it never gives. -/

namespace TonyCat.Tools

open TonyCat.Library

inductive Turn (s : Loading) (line : Text) (s' : Loading) : Prop
  | passes (current : s'.cur_pb_meta = s.cur_pb_meta) (metas : s'.pb_metas = s.pb_metas)
      (name : s'.msg_name = s.msg_name ∨ s'.msg_name ∈ splitLine line)
  | opens (current : s'.cur_pb_meta = s.opened.cur_pb_meta) (metas : s'.pb_metas = s.pb_metas)
      (name : s'.msg_name = s.msg_name)
  | closes (current : s'.cur_pb_meta = {}) (metas : s'.pb_metas = s.pb_metas ++ [s.cur_pb_meta])
      (name : s'.msg_name = s.msg_name)
  | adds (depth : s.cur_braces_count = 1) (field : FieldMeta) (pb_version pb_type : Text)
      (load : loadFiledLine pb_version pb_type line = some field)
      (current : s'.cur_pb_meta = (s.addFields [field]).cur_pb_meta) (metas : s'.pb_metas = s.pb_metas)
      (name : s'.msg_name = s.msg_name)

lemma loadDefinition_turn {s s' : Loading} {line : Text} (h : s.loadDefinition line (splitLine line) = some s') :
    Turn s line s' := by
  unfold Loading.loadDefinition at h
  split at h
  · split_ifs at h
    · cases h
      exact .passes rfl rfl (.inl rfl)
    · cases h
      exact .opens rfl rfl rfl
    · obtain ⟨type, -, h⟩ := Option.bind_eq_some_iff.mp h
      obtain ⟨name, hname, rfl⟩ := Option.map_eq_some_iff.mp h
      exact .passes rfl rfl (.inr (List.mem_of_getElem? hname))
    · cases h
      exact .passes rfl rfl (.inl rfl)
  · next hdepth =>
    split_ifs at h
    · cases h
      exact .closes rfl rfl rfl
    · cases h
      exact .passes rfl rfl (.inl rfl)
    · obtain ⟨field, hfield, rfl⟩ := Option.map_eq_some_iff.mp h
      exact .adds hdepth field _ _ hfield rfl rfl rfl
  · cases h
    exact .passes rfl rfl (.inl rfl)

theorem loadLine_turn {s s' : Loading} {line : Text} (h : s.loadLine line = some s') : Turn s line s' := by
  cases hwords : splitLine line with
  | nil =>
    rw [Loading.loadLine, hwords] at h
    cases h
    exact .passes rfl rfl (.inl rfl)
  | cons first rest =>
    rw [Loading.loadLine, hwords] at h
    simp only at h
    split_ifs at h
    · cases h
      exact .passes rfl rfl (.inl rfl)
    · obtain ⟨name, -, rfl⟩ := Option.map_eq_some_iff.mp h
      exact .passes rfl rfl (.inl rfl)
    · split at h
      next pb_version _ =>
        -- the version is the only thing that the line of it changes before it is read as any other
        rw [← hwords] at h
        obtain ⟨current, metas, name⟩ | ⟨current, metas, name⟩ | ⟨current, metas, name⟩ |
          ⟨depth, field, version, type, load, current, metas, name⟩ := loadDefinition_turn h
        · exact .passes current metas name
        · exact .opens current metas name
        · exact .closes current metas name
        · exact .adds depth field version type load current metas name
      next =>
        cases h
        exact .passes rfl rfl (.inl rfl)
    · rw [← hwords] at h
      exact loadDefinition_turn h

lemma mem_strip {t : Text} {c : Char} (h : c ∈ strip t) : c ∈ t :=
  (List.dropWhile_suffix _).subset ((List.rdropWhile_prefix _ _).subset h)

lemma mem_cut {sub t a b : Text} (h : cut sub t = some (a, b)) : (∀ c ∈ a, c ∈ t) ∧ ∀ c ∈ b, c ∈ t := by
  obtain ⟨n, -, heq⟩ := Option.map_eq_some_iff.mp h
  cases heq
  exact ⟨fun c => List.mem_of_mem_take, fun c => List.mem_of_mem_drop⟩

lemma mem_splitLine {line word : Text} (h : word ∈ splitLine line) : ∀ c ∈ word, c ∈ line ∨ c = '/' := by
  obtain ⟨hdata, hcomment⟩ : (∀ c ∈ ((cut ['/', '/'] line).getD (line, [])).1, c ∈ line) ∧
      ∀ c ∈ ((cut ['/', '/'] line).getD (line, [])).2, c ∈ line := by
    cases hcut : cut ['/', '/'] line with
    | none => exact ⟨fun c hc => hc, nofun⟩
    | some sides => exact mem_cut hcut
  intro c hc
  obtain h | h := List.mem_append.mp h
  · exact .inl (hdata c (mem_strip ((mem_dataWords h).2 c hc).1))
  · split_ifs at h
    · cases h
    · obtain rfl | h := List.mem_cons.mp h
      · exact .inr (by simpa using hc)
      · exact .inl (hcomment c (mem_strip (mem_splitOn (List.mem_filter.mp h).1 c hc).1))

lemma mem_proto2Field {words : List Text} {field : FieldMeta} (h : proto2Field words = some field) :
    field.name ∈ words := by
  obtain ⟨opt, -, h⟩ := Option.bind_eq_some_iff.mp h
  obtain ⟨type, -, h⟩ := Option.bind_eq_some_iff.mp h
  obtain ⟨name, hname, h⟩ := Option.bind_eq_some_iff.mp h
  obtain ⟨tag, -, rfl⟩ := Option.map_eq_some_iff.mp h
  exact List.mem_of_getElem? hname

lemma mem_proto3Field {words : List Text} {field : FieldMeta} (h : proto3Field words = some field) :
    field.name ∈ words := by
  obtain ⟨type, -, h⟩ := Option.bind_eq_some_iff.mp h
  obtain ⟨name, hname, h⟩ := Option.bind_eq_some_iff.mp h
  obtain ⟨tag, -, rfl⟩ := Option.map_eq_some_iff.mp h
  exact List.mem_of_getElem? hname

lemma mem_loadFiledLine {pb_version pb_type line : Text} {field : FieldMeta}
    (h : loadFiledLine pb_version pb_type line = some field) : ∀ c ∈ field.name, c ∈ line ∨ c = '/' := by
  unfold loadFiledLine at h
  split at h
  next front behind hcut =>
    obtain ⟨name, hname, h⟩ := Option.bind_eq_some_iff.mp h
    obtain ⟨tag, -, rfl⟩ := Option.map_eq_some_iff.mp h
    intro c hc
    exact (mem_splitLine (List.mem_of_getElem? hname) c hc).imp_left ((mem_cut hcut).2 c)
  next =>
    simp only at h
    split_ifs at h
    · exact mem_splitLine (mem_proto2Field h)
    · exact mem_splitLine (mem_proto3Field h)
    · cases h
      nofun
    · obtain ⟨name, hname, h⟩ := Option.bind_eq_some_iff.mp h
      obtain ⟨type, -, rfl⟩ := Option.map_eq_some_iff.mp h
      exact mem_splitLine (List.mem_of_getElem? hname)
    · cases h
      nofun

section Without

variable {k : Char} {s s' : Loading} {line : Text}

structure Unnamed (k : Char) (s : Loading) : Prop where
  next : s.msg_name ≠ [k]
  current : s.cur_pb_meta.name ≠ [k]
  metas : ∀ m ∈ s.pb_metas, m.name ≠ [k]

def Unkeyed (k : Char) (s : Loading) : Prop :=
  ∀ m, m = s.cur_pb_meta ∨ m ∈ s.pb_metas → ∀ field ∈ m.fields, field.name = [k] → PbMeta.isKeyType field.type = false

lemma Unnamed.loadLine (h : Unnamed k s) (hslash : k ≠ '/') (hline : k ∉ line) (hstep : s.loadLine line = some s') :
    Unnamed k s' := by
  have hword : ∀ word ∈ splitLine line, word ≠ [k] := by
    rintro word hword rfl
    obtain hmem | heq := mem_splitLine hword k (List.mem_singleton_self k)
    · exact hline hmem
    · exact hslash heq
  obtain ⟨current, metas, name⟩ | ⟨current, metas, name⟩ | ⟨current, metas, name⟩ |
    ⟨-, field, -, -, -, current, metas, name⟩ := loadLine_turn hstep
  · refine ⟨?_, by rw [current]; exact h.current, by rw [metas]; exact h.metas⟩
    obtain name | name := name
    · rw [name]
      exact h.next
    · exact hword _ name
  · exact ⟨by rw [name]; exact h.next, by rw [current]; exact h.next, by rw [metas]; exact h.metas⟩
  · refine ⟨by rw [name]; exact h.next, by rw [current]; exact (List.cons_ne_nil k []).symm, ?_⟩
    intro m hm
    rw [metas] at hm
    obtain hm | hm := List.mem_append.mp hm
    · exact h.metas m hm
    · rw [List.mem_singleton.mp hm]
      exact h.current
  · exact ⟨by rw [name]; exact h.next, by rw [current]; exact h.current, by rw [metas]; exact h.metas⟩

lemma Unkeyed.add (h : Unkeyed k s) {field : FieldMeta}
    (hfield : field.name = [k] → PbMeta.isKeyType field.type = false)
    (current : s'.cur_pb_meta = (s.addFields [field]).cur_pb_meta) (metas : s'.pb_metas = s.pb_metas) :
    Unkeyed k s' := by
  rintro m (rfl | hm) field' hfield'
  · rw [current] at hfield'
    obtain hfield' | hfield' := List.mem_append.mp hfield'
    · exact h _ (.inl rfl) field' hfield'
    · rw [List.mem_singleton.mp hfield']
      exact hfield
  · rw [metas] at hm
    exact h m (.inr hm) field' hfield'

lemma Unkeyed.same (h : Unkeyed k s) (current : s'.cur_pb_meta.fields = s.cur_pb_meta.fields)
    (metas : s'.pb_metas = s.pb_metas) : Unkeyed k s' := by
  rintro m (rfl | hm)
  · rw [current]
    exact h _ (.inl rfl)
  · rw [metas] at hm
    exact h m (.inr hm)

lemma Unkeyed.closes (h : Unkeyed k s) (current : s'.cur_pb_meta = {})
    (metas : s'.pb_metas = s.pb_metas ++ [s.cur_pb_meta]) :
    Unkeyed k s' := by
  rintro m (rfl | hm)
  · rw [current]
    nofun
  · rw [metas] at hm
    obtain hm | hm := List.mem_append.mp hm
    · exact h m (.inr hm)
    · exact h m (.inl (List.mem_singleton.mp hm))

lemma Unkeyed.loadLine (h : Unkeyed k s) (hslash : k ≠ '/') (hline : k ∉ line) (hstep : s.loadLine line = some s') :
    Unkeyed k s' := by
  obtain ⟨current, metas, -⟩ | ⟨current, metas, -⟩ | ⟨current, metas, -⟩ | ⟨-, field, _, _, load, current, metas, -⟩ :=
    loadLine_turn hstep
  · exact h.same (by rw [current]) metas
  · exact h.same (by rw [current]; rfl) metas
  · exact h.closes current metas
  · refine h.add (fun hname => ?_) current metas
    obtain hmem | heq := mem_loadFiledLine load k (hname ▸ List.mem_singleton_self k)
    · exact absurd hmem hline
    · exact absurd heq hslash

lemma Unkeyed.loadLine_of_words (h : Unkeyed k s) (hs : s.InBody) {first : Text} {rest : List Text}
    (hchars : ∀ c ∈ ['/', '>'], c ∉ line) (hwords : lineWords line = first :: rest) (hfirst : first ∉ specialWords)
    (hrepeated : first ≠ str "repeated")
    (hlost : rest.length < 2 ∨ rest[0]? ≠ some [k] ∨ PbMeta.isKeyType first = false)
    (hstep : s.loadLine line = some s') : Unkeyed k s' := by
  by_cases hbrace : '\x7d' ∈ line
  · rw [Loading.loadLine_of_words (hchars _ (by simp)) hwords hfirst, hs.loadDefinition_brace hbrace] at hstep
    split_ifs at hstep
    · cases hstep
      exact h.closes rfl rfl
    · cases hstep
      exact h.same rfl rfl
  · have hnot : ∀ c ∈ ['/', '>', '\x7d'], c ∉ line := by
      simp only [List.mem_cons, List.not_mem_nil, or_false, forall_eq_or_imp, forall_eq] at hchars ⊢
      exact ⟨hchars.1, hchars.2, hbrace⟩
    rw [loadLine_words hs hnot hwords hfirst] at hstep
    obtain ⟨field, hfield, rfl⟩ := Option.map_eq_some_iff.mp hstep
    refine h.add (fun hname => ?_) rfl rfl
    match rest with
    | [] =>
      cases hfield
      cases hname
    | [_] =>
      cases hfield
      cases hname
    | name :: tag :: rest =>
      rw [if_pos (by simp), proto3Field_singular hrepeated] at hfield
      cases hfield
      obtain hlen | hne | htype := hlost
      · simp only [List.length_cons] at hlen
        omega
      · exact absurd (congrArg some hname) hne
      · exact htype

end Without

end TonyCat.Tools
