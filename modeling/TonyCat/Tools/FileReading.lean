import TonyCat.Tools.MessageReading

set_option autoImplicit false

/-! Whole files, and the keys that are found in them. -/

namespace TonyCat.Tools

open TonyCat.Library

lemma loadLine_package {s : Loading} {line name : Text} {rest : List Text}
    (h : splitLine line = str "package" :: name :: rest) : s.loadLine line = some { s with pb_namespace := name } := by
  have himport : str "package" ≠ str "import" := by decide
  rw [Loading.loadLine, h]
  simp only [if_neg himport]
  rfl

lemma linesFrom_renderLines (lines : List Line) : linesFrom '\n' [] (renderLines lines) = lines.map Line.render := by
  induction lines with
  | nil => rfl
  | cons line lines ih =>
    have hcons : renderLines (line :: lines) = line.1 ++ '\n' :: renderLines lines := by simp [renderLines, Line.render]
    rw [hcons, linesFrom_append_cons line.2, ih, List.nil_append, List.map_cons, Line.render]

/-- No block is opened where none can be opened before there is a name. -/
lemma Place.exists_outside {line : Text} {annotated named : Bool} {place : Place}
    (hnothing : ((Place.outside false false).after line).isSome)
    (h : (Place.outside annotated named).after line = some place) :
    ∃ annotated' named', place = .outside annotated' named' := by
  cases hwords : splitLine line with
  | nil =>
    rw [Place.after, hwords] at h
    exact ⟨annotated, named, (Option.some.inj h).symm⟩
  | cons first rest =>
    simp only [Place.after, hwords] at h hnothing
    split_ifs at h hnothing with himport hspecial hcomment hbrace hopens hnot
    · exact ⟨annotated, named, (Option.some.inj h).symm⟩
    · exact ⟨_, named, (Option.some.inj h).symm⟩
    · exact hnot.1.elim
    · cases hnothing
    · exact ⟨annotated, _, (Option.some.inj h).symm⟩

lemma Outside.run {lines : List Text} {s : Loading} {annotated annotated' named named' : Bool}
    (h : Outside annotated named s) (hnothing : ∀ line ∈ lines, ((Place.outside false false).after line).isSome)
    (hrun : lines.foldlM Place.after (.outside annotated named) = some (.outside annotated' named')) :
    ∃ s', lines.foldlM Loading.loadLine s = some s' ∧ Outside annotated' named' s' ∧ Passed s s' := by
  induction lines generalizing s annotated named with
  | nil =>
    cases hrun
    exact ⟨s, rfl, h, .refl s⟩
  | cons line lines ih =>
    rw [List.foldlM_cons] at hrun
    obtain ⟨place, hafter, hrest⟩ := Option.bind_eq_some_iff.mp hrun
    obtain ⟨_, _, rfl⟩ := Place.exists_outside (hnothing line (List.mem_cons_self ..)) hafter
    obtain ⟨s₁, _, _, heq, hload, houtside, hpassed⟩ | ⟨hinside, -⟩ := h.after hafter
    · cases heq
      obtain ⟨s', hlines, houtside', hpassed'⟩ :=
        ih houtside (fun line' h => hnothing line' (List.mem_cons_of_mem _ h)) hrest
      exact ⟨s', by rw [List.foldlM_cons, hload]; exact hlines, houtside', hpassed.trans hpassed'⟩
    · cases hinside

/-- Of the line of the syntax, the version is left and either a name or the words of a comment. -/
lemma SetsVersion.loadLine {line : Text} (h : SetsVersion line) {s : Loading} {named : Bool}
    (hs : Outside false named s) : ∃ s', s.loadLine line = some s' ∧
      Outside false (named || (cut ['/', '/'] line).isNone) s' ∧ Versioned s' ∧ s'.pb_namespace = s.pb_namespace ∧
      s'.tables = s.tables := by
  have himport : str "syntax" ≠ str "import" := by decide
  have hpackage : str "syntax" ≠ str "package" := by decide
  match hwords : splitLine line, h.keyword, h.version with
  | first :: sign :: pb_version :: rest, hfirst, hversion =>
    obtain rfl := Option.some.inj hfirst
    obtain rfl := Option.some.inj hversion
    have hdefinition := loadDefinition_outside (s := { s with pb_version := str "\"proto3\"" }) hs.depth line
      (str "syntax" :: sign :: str "\"proto3\"" :: rest)
    have hload : s.loadLine line = Loading.loadDefinition { s with pb_version := str "\"proto3\"" } line
        (str "syntax" :: sign :: str "\"proto3\"" :: rest) := by
      rw [Loading.loadLine, hwords]
      simp only [if_neg himport, if_neg hpackage]
      rfl
    rw [hload, hdefinition]
    by_cases hcomment : (cut ['/', '/'] line).isSome = true
    · have hnot : annotates (sign :: str "\"proto3\"" :: rest) = false := by
        simp only [annotates, List.getElem?_cons_succ, List.getElem?_cons_zero, Option.any_some, Bool.and_eq_false_imp]
        exact fun _ => by decide
      rw [if_pos hcomment, Option.isNone_eq_false_iff.mpr hcomment, Bool.or_false]
      exact ⟨_, rfl, ⟨hs.depth, hs.fresh, fun _ => hnot, hs.named⟩, rfl, rfl, rfl⟩
    · have hsign : sign ≠ [] := ne_nil_of_mem_splitLine (hwords ▸ by simp : sign ∈ splitLine line)
      rw [if_neg hcomment, if_neg h.brace, if_pos (by simp)]
      exact ⟨_, rfl, ⟨hs.depth, hs.fresh, hs.comments, fun _ => hsign⟩, rfl, rfl, rfl⟩

theorem feeds_file {file : ProtoFile} (h : file.Passable) : ∃ s, Feeds ({}, []) file.front (s, []) ∧
    Outside false (file.namedBefore 0) s ∧ Versioned s ∧ s.pb_namespace = file.scope ∧ s.tables = [] := by
  have hbegins := h.begins
  rw [ProtoFile.begins] at hbegins
  split at hbegins
  next named hpreamble =>
    rw [Place.read, linesFrom_renderLines] at hpreamble
    have hfresh : Outside false false {} := ⟨rfl, rfl, fun _ => rfl, fun hnot => absurd hnot Bool.false_ne_true⟩
    obtain ⟨s₁, hlines, houtside, hpassed⟩ := hfresh.run
      (fun line hline => by
        obtain ⟨line', hmem, rfl⟩ := List.mem_map.mp hline
        exact h.opensNothing line' hmem) hpreamble
    rw [← linesFrom_renderLines] at hlines
    have hfirst := feeds_of_lines (ended_renderLines file.preamble) hlines
    obtain ⟨s', hload, houtside₁, hversioned, hnamespace₁, htables₁⟩ := h.version.loadLine houtside
    have hversion : Feeds (s₁, []) (Line.render file.version) (s', []) := Reads.ends file.version.2 hload
    obtain ⟨s₂, hheader, houtside₂, hpassed₂⟩ :=
      feeds_passed houtside₁ hversioned (ended_renderLines file.header) hbegins
    have hreads := (hfirst.append hversion).append hheader
    have hnamespace : s₂.pb_namespace = [] := hpassed₂.namespace_.trans (hnamespace₁.trans hpassed.namespace_)
    have htables : s₂.tables = [] := hpassed₂.tables.trans (htables₁.trans hpassed.tables)
    rw [ProtoFile.front, ProtoFile.scope]
    cases hpackage : file.package with
    | none => exact ⟨s₂, by simpa using hreads, houtside₂, hpassed₂.versioned hversioned, hnamespace, htables⟩
    | some package =>
      obtain ⟨rest, hwords⟩ := h.package package hpackage
      have hline : Feeds (s₂, []) (Line.render package.2) ({ s₂ with pb_namespace := package.1.1 }, []) :=
        Reads.ends package.2.2 (loadLine_package hwords)
      exact ⟨_, hreads.append hline, ⟨houtside₂.depth, houtside₂.fresh, houtside₂.comments, houtside₂.named⟩,
        hpassed₂.versioned hversioned, rfl, htables⟩
  next => cases hbegins

lemma renderMessages_ended (messages : List ProtoMessage) (layout : Layout) :
    messages = [] ∨ ∃ t, ∃ last ∈ messages.getLast?, renderMessages messages layout = t ++ last.ending := by
  obtain rfl | ⟨messages, last, rfl⟩ := List.eq_nil_or_concat messages
  · exact .inl rfl
  · rw [List.concat_eq_append, renderMessages_append]
    simp only [renderMessages, ProtoMessage.render, ProtoMessage.text, List.append_nil, ← List.append_assoc]
    exact .inr ⟨_, last, by simp, rfl⟩

theorem loads_file {file : ProtoFile} {layout : Layout} (h : file.Passable) (hfits : layout.Fits file) :
    ∃ s, Loads {} (file.render layout) s ∧ List.Forall₂ (MetaOf file.scope) (tablesIn file.messages) s.tables := by
  obtain ⟨s₁, hfront, houtside, hversioned, hnamespace, htables⟩ := feeds_file h
  have hmessagesFit : ∀ i message, file.messages[i]? = some message →
      (layout i).Fits message (file.namedBefore 0 || i ≠ 0) := fun i message hmessage => by
    simpa [ProtoFile.namedBefore] using hfits i message hmessage
  obtain ⟨s₂, hmessages, hreading⟩ := feeds_messages file.messages houtside hversioned hmessagesFit
  obtain ⟨metas, heq, hmetas⟩ := hreading.tables
  rw [hnamespace] at hmetas
  rw [htables, List.nil_append] at heq
  rw [ProtoFile.render]
  cases htrailer : file.trailer with
  | some lines =>
    obtain ⟨place, hread⟩ := Option.isSome_iff_exists.mp (h.trailer lines htrailer)
    have hnamed : (file.namedBefore 0 || file.messages.length ≠ 0) = file.namedBefore file.messages.length := by
      simp [ProtoFile.namedBefore]
    obtain ⟨s₃, hlines, -, hpassed⟩ := feeds_passed (hnamed ▸ hreading.outside) hreading.versioned
      (ended_renderLines lines) hread
    exact ⟨s₃, .of_feeds (hfront.append (hmessages.append hlines)), by rwa [hpassed.tables, heq]⟩
  | none =>
    refine ⟨s₂, ?_, by rwa [heq]⟩
    obtain hnil | ⟨t, last, hlast, ht⟩ := renderMessages_ended file.messages layout
    · rw [hnil] at hmessages
      simp only [hnil, renderMessages, List.dropLast_nil]
      exact .of_feeds (hfront.append hmessages)
    · have hdrop : (t ++ last.ending).dropLast = t ++ '\x7d' :: last.closing.1 := by
        rw [last.ending_eq, ← List.append_assoc, List.dropLast_concat]
      rw [ht] at hmessages
      simp only [ht, hdrop]
      rw [← List.append_assoc]
      exact .of_ended last.closing.2 (h.ended htrailer last hlast)
        (by rw [List.append_assoc]; exact hfront.append hmessages)

lemma fullName_injective (file : ProtoFile) : Function.Injective file.fullName := by
  intro name name' h
  rw [ProtoFile.fullName, ProtoFile.fullName] at h
  split_ifs at h
  · exact Subtype.ext h
  · exact Subtype.ext (List.cons.inj (List.append_cancel_left h)).2

lemma keysAbove_of_notMem {fullName : Ident → Text} {messages : List ProtoMessage} {name : Text}
    (h : ∀ message ∈ messages, fullName message.name ≠ name) : keysAbove fullName messages name = none := by
  rw [keysAbove, List.find?_eq_none.mpr fun message hmem => by simp [h message hmem]]
  rfl

def addKeys (keysOf : Text → Option (Finset Text)) (pbMeta : PbMeta) : Text → Option (Finset Text) :=
  match pbMeta.keyNames with
  | some keys => Function.update keysOf pbMeta.msgName (some (keys.takeWhile pbMeta.isKey).toFinset)
  | none => keysOf

lemma keysAbove_cons (fullName : Ident → Text) (message : ProtoMessage) (messages : List ProtoMessage) (name : Text) :
    keysAbove fullName (message :: messages) name =
      (if fullName message.name = name then message.keysOf else none).or (keysAbove fullName messages name) := by
  rw [keysAbove, List.find?_cons]
  split
  next htrue =>
    obtain ⟨hsome, hname⟩ := of_decide_eq_true htrue
    obtain ⟨comment, hcomment⟩ := Option.isSome_iff_exists.mp hsome
    rw [if_pos hname, Option.bind_some, ProtoMessage.keysOf, hcomment]
    rfl
  next hfalse =>
    have hnot : ¬ (message.keyComment.isSome = true ∧ fullName message.name = name) := of_decide_eq_false hfalse
    split_ifs with hname
    · have hnone : message.keyComment = none := by
        rw [← Option.not_isSome_iff_eq_none]
        exact fun hsome => hnot ⟨hsome, hname⟩
      rw [ProtoMessage.keysOf, hnone]
      rfl
    · rfl

lemma MetaOf.addKeys_eq {file : ProtoFile} {message : ProtoMessage} {m : PbMeta} (h : MetaOf file.scope message m)
    (keysOf : Text → Option (Finset Text)) (name : Text) : addKeys keysOf m name =
      (if file.fullName message.name = name then message.keysOf else none).or (keysOf name) := by
  have hname : m.msgName = file.fullName message.name := h.msgName_eq
  rw [addKeys, h.keyNames_eq, ProtoMessage.keysOf]
  cases hkeyComment : message.keyComment with
  | none =>
    split_ifs <;> rfl
  | some comment =>
    have hall : (comment.keys.map Subtype.val).takeWhile m.isKey = comment.keys.map Subtype.val := by
      refine List.takeWhile_eq_self_iff.mpr fun key hkey => ?_
      obtain ⟨key', hkey', rfl⟩ := List.mem_map.mp hkey
      exact h.isKey hkeyComment hkey'
    simp only [Option.map_some, hall, hname]
    split_ifs with heq
    · rw [← heq, Function.update_self]
      rfl
    · rw [Function.update_of_ne (Ne.symm heq)]
      rfl

theorem foldl_addKeys {file : ProtoFile} {messages : List ProtoMessage} {metas : List PbMeta}
    (h : List.Forall₂ (MetaOf file.scope) messages metas) (hdistinct : (messages.map ProtoMessage.name).Nodup)
    (keysOf : Text → Option (Finset Text)) (name : Text) :
    metas.foldl addKeys keysOf name = (keysAbove file.fullName messages name).or (keysOf name) := by
  induction h generalizing keysOf with
  | nil => rfl
  | @cons message m messages metas hmeta hrest ih =>
    obtain ⟨hnew, hdistinct⟩ := List.nodup_cons.mp hdistinct
    rw [List.foldl_cons, ih hdistinct, hmeta.addKeys_eq, keysAbove_cons]
    split_ifs with hname
    · have hnone : keysAbove file.fullName messages name = none := by
        refine keysAbove_of_notMem fun message' hmem heq => hnew ?_
        rw [← fullName_injective file (heq.trans hname.symm)]
        exact List.mem_map_of_mem hmem
      rw [hnone, Option.none_or, Option.or_none]
    · rw [Option.none_or, Option.none_or]

lemma foldl_addKeys_tables (metas : List PbMeta) (keysOf : Text → Option (Finset Text)) :
    metas.foldl addKeys keysOf = (metas.filter fun pbMeta => pbMeta.keyNames.isSome).foldl addKeys keysOf := by
  induction metas generalizing keysOf with
  | nil => rfl
  | cons m metas ih =>
    cases hnames : m.keyNames with
    | none =>
      have hsame : addKeys keysOf m = keysOf := by rw [addKeys, hnames]
      rw [List.filter_cons_of_neg (by simp [hnames]), List.foldl_cons, hsame]
      exact ih keysOf
    | some names =>
      rw [List.filter_cons_of_pos (by simp [hnames])]
      exact ih _

lemma keysAbove_tablesIn (fullName : Ident → Text) (messages : List ProtoMessage) (name : Text) :
    keysAbove fullName (tablesIn messages) name = keysAbove fullName messages name := by
  rw [keysAbove, keysAbove, tablesIn, List.find?_filter]
  congr 1
  congr 1
  funext message
  cases message.keyComment <;> simp

theorem mapMesssageKeys_eq {file : ProtoFile} {s : Loading}
    (h : List.Forall₂ (MetaOf file.scope) (tablesIn file.messages) s.tables) :
    mapMesssageKeys s.pb_metas = file.annotated := by
  have hdistinct : ((tablesIn file.messages).map ProtoMessage.name).Nodup :=
    (List.filter_sublist.map ProtoMessage.name).nodup file.distinct
  funext name
  have hfold := foldl_addKeys h hdistinct (fun _ => none) name
  rw [keysAbove_tablesIn, Option.or_none] at hfold
  exact (congrFun (foldl_addKeys_tables s.pb_metas fun _ => none) name).trans hfold

theorem genCode_render {file : ProtoFile} {layout : Layout} (h : file.Passable) (hfits : layout.Fits file) {text : Text}
    (htext : universalNewlines text = file.render layout) : genCode text = some file.annotated := by
  obtain ⟨s, ⟨r, hreads, hlast⟩, hmetas⟩ := loads_file h hfits
  have hload : loadPbFile text = some s.pb_metas := by
    rw [loadPbFile, readlines, htext, foldlM_linesFrom, hreads, Option.bind_some, hlast]
    rfl
  rw [genCode, hload, Option.map_some, mapMesssageKeys_eq hmetas]

end TonyCat.Tools
