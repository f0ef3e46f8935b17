import TonyCat.Utility.HttpLines

set_option autoImplicit false

/-! The lines that the parser reads from a text, whatever pieces it comes in. -/

namespace TonyCat.Http

open TonyCat.Library

namespace RequestParser

def running (parser : RequestParser) : Bool := !(parser.onDone || parser.onReadBody)

def scanLines (parser : RequestParser) (txt : Bytes) : RequestParser × Option Bytes :=
  if parser.running then
    match _h : findSlice crlf txt with
    | none => (parser, some txt)
    | some pos =>
      match parser.parseLine (txt.take pos) with
      | (parser, false) => (parser, none)
      | (parser, true) => scanLines parser (txt.drop (pos + 2))
  else
    (parser, some txt)
termination_by txt.length
decreasing_by
  have hfit := findSlice_add_le _h
  have hsep : crlf.length = 2 := rfl
  rw [List.length_drop]
  omega

section Scan

variable {parser parser' : RequestParser} {txt rest : Bytes} {pos : ℕ}

lemma scanLines_stopped (h : parser.running = false) (txt : Bytes) : parser.scanLines txt = (parser, some txt) := by
  rw [scanLines, h, if_neg Bool.false_ne_true]

lemma scanLines_none (h : findSlice crlf txt = none) : parser.scanLines txt = (parser, some txt) := by
  rw [scanLines]
  split
  case isTrue =>
    split
    case h_1 => rfl
    case h_2 hpos =>
      rw [h] at hpos
      cases hpos
  case isFalse => rfl

lemma scanLines_some (hrun : parser.running = true) (hpos : findSlice crlf txt = some pos) :
    parser.scanLines txt =
      if (parser.parseLine (txt.take pos)).2 then
        (parser.parseLine (txt.take pos)).1.scanLines (txt.drop (pos + 2))
      else
        ((parser.parseLine (txt.take pos)).1, none) := by
  rw [scanLines, if_pos hrun]
  split
  case h_1 hnone =>
    rw [hpos] at hnone
    cases hnone
  case h_2 pos' hpos' =>
    rw [hpos] at hpos'
    cases hpos'
    split
    case h_1 parser₁ hline =>
      rw [hline]
      rfl
    case h_2 parser₁ hline =>
      rw [hline]
      rfl

lemma scanLines_line (hline : ReadsLine parser rest parser') (hrest : findSlice crlf rest = none) (txt : Bytes) :
    parser.scanLines (rest ++ (crlf ++ txt)) = parser'.scanLines txt := by
  have hrun : parser.running = true := by rw [running, hline.1, Bool.not_false]
  rw [scanLines_some hrun (findSlice_crlf_line hrest txt), List.take_left, hline.2, if_pos rfl, ← List.drop_drop,
    List.drop_left]
  rfl

lemma scanLines_path {lines : List Bytes} (hpath : Path ReadsLine parser lines parser')
    (hlines : ∀ line ∈ lines, findSlice crlf line = none) (txt : Bytes) :
    parser.scanLines (lines.flatMap (fun line => line ++ crlf) ++ txt) = parser'.scanLines txt := by
  induction hpath with
  | nil => rfl
  | cons hline _ ih =>
    rw [List.flatMap_cons, List.append_assoc, List.append_assoc,
      scanLines_line hline (hlines _ List.mem_cons_self),
      ih fun other hmem => hlines other (List.mem_cons_of_mem _ hmem)]

lemma scanLines_rest (h : parser.scanLines txt = (parser', some rest)) (hrun : parser'.running = true) :
    findSlice crlf rest = none := by
  fun_induction scanLines parser txt with
  | case1 parser txt _ hnone =>
    cases h
    exact hnone
  | case2 => cases h
  | case3 _ _ _ _ _ _ _ ih => exact ih h
  | case4 parser txt hstop =>
    cases h
    exact absurd hrun hstop

lemma scanLines_suffix (h : parser.scanLines txt = (parser', some rest)) : rest <:+ txt := by
  fun_induction scanLines parser txt with
  | case1 =>
    cases h
    exact List.suffix_rfl
  | case2 => cases h
  | case3 _ _ _ _ _ _ _ ih => exact (ih h).trans (List.drop_suffix _ _)
  | case4 =>
    cases h
    exact List.suffix_rfl

theorem scanLines_append (parser : RequestParser) (txt data : Bytes) : parser.scanLines (txt ++ data) =
    match parser.scanLines txt with
    | (parser', none) => (parser', none)
    | (parser', some rest) => parser'.scanLines (rest ++ data) := by
  fun_induction scanLines parser txt with
  | case1 => rfl
  | case2 parser txt hrun pos hpos parser₁ hline =>
    have hfit := findSlice_add_le hpos
    rw [scanLines_some hrun (findSlice_append data hpos), List.take_append_of_le_length (by omega), hline]
    rfl
  | case3 parser txt hrun pos hpos parser₁ hline ih =>
    have hfit := findSlice_add_le hpos
    have hsep : crlf.length = 2 := rfl
    rw [scanLines_some hrun (findSlice_append data hpos), List.take_append_of_le_length (by omega), hline, if_pos rfl,
      List.drop_append_of_le_length (by omega), ih]
  | case4 => rfl

end Scan

section Loop

variable {bare parser : RequestParser} {data readingLine request : Bytes}

lemma parseLines_refused {line : Bytes} {pos : ℕ} (hrun : bare.running = true) (hline : (bare.parseLine line).2 = false)
    (hpos : findSlice crlf request = some pos) (htake : readingLine ++ request.take pos = line)
    (hdata : readingLine ≠ [] → request <+: data) (readLength : ℕ) :
    ∃ parser', parseLines data (bare.holding readingLine readLength) request = (parser', .error pos) := by
  rw [running, Bool.not_eq_true'] at hrun
  obtain ⟨held, hturn⟩ := parseLines_turn hrun hpos htake hdata readLength
  rw [hline, if_neg Bool.false_ne_true] at hturn
  exact ⟨_, hturn⟩

theorem parseLines_scan {txt : Bytes} (htxt : txt = readingLine ++ request) (hnone : findSlice crlf readingLine = none)
    (hcut : readingLine.getLast? ≠ some 13 ∨ request.head? ≠ some 10) (hdata : readingLine ≠ [] → request <+: data)
    (hheld : bare.running = true ∨ readingLine = []) (readLength : ℕ) :
    match bare.scanLines txt with
    | (_, none) => ∃ parser pos, parseLines data (bare.holding readingLine readLength) request = (parser, .error pos)
    | (parser, some rest) => ∃ readingLine' request',
      parseLines data (bare.holding readingLine readLength) request =
          (parser.holding readingLine' readLength, .ok request') ∧
        readingLine' ++ request' = rest ∧ (parser.running = true ∨ readingLine' = []) := by
  have hfind := findSlice_pair_append hnone hcut
  fun_induction scanLines bare txt generalizing readingLine request with
  | case1 bare txt hrun hpos =>
    subst htxt
    refine ⟨readingLine, request, ?_, rfl, .inl hrun⟩
    rw [parseLines]
    split
    · rfl
    · split
      case h_1 => rfl
      case h_2 pos hpos' =>
        change findSlice [13, 10] request = some pos at hpos'
        change findSlice [13, 10] (readingLine ++ request) = none at hpos
        rw [hfind, hpos'] at hpos
        cases hpos
  | case2 bare txt hrun pos hpos parser₁ hline =>
    subst htxt
    obtain ⟨pos', hpos', rfl⟩ := Option.map_eq_some_iff.mp (hfind.symm.trans hpos)
    rw [Nat.add_comm, List.take_length_add_append] at hline
    obtain ⟨parser', hloop⟩ := parseLines_refused hrun (by rw [hline]) hpos' rfl hdata readLength
    exact ⟨parser', pos', hloop⟩
  | case3 bare txt hrun pos hpos parser₁ hline ih =>
    subst htxt
    obtain ⟨pos', hpos', rfl⟩ := Option.map_eq_some_iff.mp (hfind.symm.trans hpos)
    rw [Nat.add_comm, List.take_length_add_append] at hline
    have hgo : (bare.onDone || bare.onReadBody) = false := by
      rw [running, Bool.not_eq_true'] at hrun
      exact hrun
    have hdrop : (readingLine ++ request).drop (pos' + readingLine.length + 2) = [] ++ request.drop (pos' + 2) := by
      rw [Nat.add_right_comm, Nat.add_comm, List.drop_length_add_append, List.nil_append]
    rw [parseLines_step ⟨hgo, hline⟩ hpos' rfl hdata]
    exact ih hdrop rfl (.inl nofun) (fun h => absurd rfl h) (.inr rfl) (findSlice_pair_append rfl (.inl nofun))
  | case4 bare txt hstop =>
    subst htxt
    obtain rfl := hheld.resolve_left hstop
    refine ⟨[], request, ?_, rfl, .inr rfl⟩
    rw [parseLines, if_pos]
    rw [running, Bool.not_eq_true', Bool.not_eq_false] at hstop
    exact hstop

end Loop

def view (readLength : ℕ) (data : Bytes) : Bytes := data.take (min data.length (kHttpMaxSize - readLength))

lemma view_eq {readLength : ℕ} {data : Bytes} (h : readLength + data.length ≤ kHttpMaxSize) :
    view readLength data = data := by
  rw [view, min_eq_left (by omega), List.take_length]

lemma view_prefix (readLength : ℕ) (data : Bytes) : view readLength data <+: data := List.take_prefix _ _

lemma view_length (readLength : ℕ) (data : Bytes) :
    (view readLength data).length = min data.length (kHttpMaxSize - readLength) := by
  rw [view, List.length_take]
  omega

structure Receives (bare : RequestParser) (readingLine data : Bytes) (readLength : ℕ) : Prop where
  line : findSlice crlf readingLine = none
  cut : readingLine.getLast? ≠ some 13 ∨ data.head? ≠ some 10
  held : bare.running = true ∨ readingLine = []
  limit : readLength < kHttpMaxSize

lemma receives_reset (data : Bytes) : Receives .reset [] data 0 :=
  ⟨rfl, .inl nofun, .inr rfl, by rw [kHttpMaxSize]; omega⟩

section Call

variable {bare parser : RequestParser} {data readingLine rest : Bytes} {readLength : ℕ}

lemma Receives.view_cut (h : Receives bare readingLine data readLength) :
    readingLine.getLast? ≠ some 13 ∨ (view readLength data).head? ≠ some 10 := by
  refine h.cut.imp_right fun hhead hview => hhead ?_
  obtain ⟨later, hlater⟩ := view_prefix readLength data
  rw [← hlater, List.head?_append, hview]
  rfl

lemma Receives.parse_refused (h : Receives bare readingLine data readLength)
    (hscan : bare.scanLines (readingLine ++ view readLength data) = (parser, none)) :
    ∃ parser' pos, (bare.holding readingLine readLength).parse data = (parser', .bad, pos) := by
  have hloop := parseLines_scan rfl h.line h.view_cut (fun _ => view_prefix readLength data) h.held readLength
  rw [hscan] at hloop
  obtain ⟨parser', pos, hloop⟩ := hloop
  have hunder : ¬ (bare.holding readingLine readLength).readLength ≥ kHttpMaxSize := Nat.not_le.mpr h.limit
  rw [parse, if_neg hunder]
  simp only [view, holding] at hloop ⊢
  rw [hloop]
  exact ⟨_, _, rfl⟩

lemma Receives.parse_read (h : Receives bare readingLine data readLength)
    (hscan : bare.scanLines (readingLine ++ view readLength data) = (parser, some rest)) :
    ∃ readingLine' request, readingLine' ++ request = rest ∧ (parser.running = true ∨ readingLine' = []) ∧
      (bare.holding readingLine readLength).parse data =
        if parser.onReadBody then
          if ((parser.holding readingLine' readLength).parseBody request).2 ≥ request.length then
            ({ ((parser.holding readingLine' readLength).parseBody request).1 with
              readLength := readLength + (view readLength data).length }, .indeterminate,
                (view readLength data).length)
          else
            ((parser.holding readingLine' readLength).parseBody request).1.parseRest (view readLength data).length
              (request.drop ((parser.holding readingLine' readLength).parseBody request).2)
        else
          (parser.holding readingLine' readLength).parseRest (view readLength data).length request := by
  have hloop := parseLines_scan rfl h.line h.view_cut (fun _ => view_prefix readLength data) h.held readLength
  rw [hscan] at hloop
  obtain ⟨readingLine', request, hloop, hrest, hheld⟩ := hloop
  refine ⟨readingLine', request, hrest, hheld, ?_⟩
  have hunder : ¬ (bare.holding readingLine readLength).readLength ≥ kHttpMaxSize := Nat.not_le.mpr h.limit
  rw [parse, if_neg hunder]
  simp only [view_length]
  simp only [view, holding] at hloop ⊢
  rw [hloop]
  have hkept : ((parser.holding readingLine' readLength).parseBody request).1.readLength = readLength := by
    rw [parseBody]
    split <;> rfl
  simp only [holding] at hkept
  simp only [hkept]
  rfl

lemma Receives.parse_running (h : Receives bare readingLine data readLength)
    (hscan : bare.scanLines (readingLine ++ view readLength data) = (parser, some rest))
    (hrun : parser.running = true) : (bare.holding readingLine readLength).parse data =
      (parser.holding rest (readLength + (view readLength data).length), .indeterminate,
        (view readLength data).length) := by
  obtain ⟨readingLine', request, rfl, -, hparse⟩ := h.parse_read hscan
  rw [running, Bool.not_eq_true', Bool.or_eq_false_iff] at hrun
  obtain ⟨hdone, hbody⟩ := hrun
  have hdone' : (parser.holding readingLine' readLength).onDone = false := hdone
  rw [hparse, hbody, if_neg Bool.false_ne_true, parseRest, hdone', if_neg Bool.false_ne_true]
  rfl

lemma Receives.parse_finished (h : Receives bare readingLine data readLength)
    (hscan : bare.scanLines (readingLine ++ view readLength data) = (parser, some rest))
    (hdone : parser.state = .finish) : ∃ n, (bare.holding readingLine readLength).parse data =
      (parser.holding [] n, .good, (view readLength data).length - rest.length) := by
  obtain ⟨readingLine', request, rfl, hheld, hparse⟩ := h.parse_read hscan
  have hdone' : (parser.holding readingLine' readLength).onDone = true := decide_eq_true hdone
  have hbody : parser.onReadBody = false := by simp [onReadBody, hdone]
  obtain rfl := hheld.resolve_left (by simp [running, onDone, hdone])
  rw [hparse, hbody, if_neg Bool.false_ne_true, parseRest, hdone', if_pos rfl]
  exact ⟨_, rfl⟩

def withContent (parser : RequestParser) (content : Bytes) : RequestParser :=
  { parser with req := { parser.req with content := content } }

def needReadCount (parser : RequestParser) : ℕ := parser.contentLength - parser.req.content.length

lemma parseBody_whole (h : parser.needReadCount ≤ rest.length) : parser.parseBody rest =
    ({ parser.withContent (parser.req.content ++ rest.take parser.needReadCount) with state := .finish }, 0) :=
  if_pos h

lemma parseBody_part (h : rest.length < parser.needReadCount) : parser.parseBody rest =
    (parser.withContent (parser.req.content ++ rest), parser.needReadCount - rest.length) :=
  if_neg (Nat.not_le.mpr h)

lemma Receives.parse_body (h : Receives bare readingLine data readLength)
    (hscan : bare.scanLines (readingLine ++ view readLength data) = (parser, some rest))
    (hbody : parser.state = .httpContext) (hwhole : parser.needReadCount ≤ rest.length) (hne : rest ≠ []) :
    ∃ parser', (bare.holding readingLine readLength).parse data =
        (parser', .good, (view readLength data).length - rest.length) ∧
      parser'.req = { parser.req with content := parser.req.content ++ rest.take parser.needReadCount } := by
  obtain ⟨readingLine', request, rfl, hheld, hparse⟩ := h.parse_read hscan
  obtain rfl := hheld.resolve_left (by simp [running, onReadBody, hbody])
  rw [List.nil_append] at hwhole hne
  have hpos := List.length_pos_of_ne_nil hne
  have hread : parser.onReadBody = true := decide_eq_true hbody
  have hwhole' : (parser.holding [] readLength).needReadCount ≤ request.length := hwhole
  rw [hparse, if_pos hread, parseBody_whole hwhole', if_neg (by simpa using hne), List.drop_zero]
  exact ⟨_, if_pos rfl, rfl⟩

lemma Receives.parse_emptyBody (h : Receives bare readingLine data readLength)
    (hscan : bare.scanLines (readingLine ++ view readLength data) = (parser, some []))
    (hbody : parser.state = .httpContext) (hzero : parser.needReadCount = 0) :
    (bare.holding readingLine readLength).parse data =
      ({ parser with state := .finish }.holding [] (readLength + (view readLength data).length), .indeterminate,
        (view readLength data).length) := by
  obtain ⟨readingLine', request, heq, hheld, hparse⟩ := h.parse_read hscan
  obtain ⟨rfl, rfl⟩ := List.append_eq_nil_iff.mp heq
  have hread : parser.onReadBody = true := decide_eq_true hbody
  have hwhole : (parser.holding [] readLength).needReadCount ≤ ([] : Bytes).length := le_of_eq hzero
  rw [hparse, if_pos hread, parseBody_whole hwhole, List.take_nil, List.append_nil]
  exact if_pos (Nat.zero_le _)

lemma Receives.parse_bodyPart (h : Receives bare readingLine data readLength)
    (hscan : bare.scanLines (readingLine ++ view readLength data) = (parser, some rest))
    (hbody : parser.state = .httpContext) (hpart : rest.length < parser.needReadCount) :
    ∃ readingLine', (bare.holding readingLine readLength).parse data =
      ((parser.withContent (parser.req.content ++ rest)).holding readingLine'
        (readLength + (view readLength data).length), .indeterminate, (view readLength data).length) := by
  obtain ⟨readingLine', request, rfl, hheld, hparse⟩ := h.parse_read hscan
  obtain rfl := hheld.resolve_left (by simp [running, onReadBody, hbody])
  have hread : parser.onReadBody = true := decide_eq_true hbody
  have hpart' : request.length < (parser.holding [] readLength).needReadCount := hpart
  have hgo : ((parser.holding [] readLength).withContent
      ((parser.holding [] readLength).req.content ++ request)).onDone = false := by
    simp [onDone, withContent, holding, hbody]
  rw [hparse, if_pos hread, parseBody_part hpart']
  split
  case isTrue => exact ⟨[], rfl⟩
  case isFalse =>
    rw [parseRest, hgo, if_neg Bool.false_ne_true]
    exact ⟨_, rfl⟩

lemma Receives.parse_scanned (h : Receives bare readingLine data readLength)
    (hscan : bare.scanLines (readingLine ++ view readLength data) = (parser, some rest)) {parser' : RequestParser}
    {result : ResultType} {n : ℕ} (hparse : (bare.holding readingLine readLength).parse data = (parser', result, n)) :
    result ≠ .bad ∧ (result = .good → parser.running = false ∧
      parser'.req = { parser.req with content := parser'.req.content }) := by
  cases hrun : parser.running with
  | true =>
    rw [h.parse_running hscan hrun] at hparse
    cases hparse
    exact ⟨by simp, by simp⟩
  | false =>
    have hstate : parser.state = .finish ∨ parser.state = .httpContext := by
      simpa [running, onDone, onReadBody, or_iff_not_imp_left] using hrun
    obtain hdone | hbody := hstate
    · obtain ⟨m, hgood⟩ := h.parse_finished hscan hdone
      rw [hgood] at hparse
      cases hparse
      exact ⟨by simp, fun _ => ⟨rfl, rfl⟩⟩
    · obtain hpart | hwhole := Nat.lt_or_ge rest.length parser.needReadCount
      · obtain ⟨_, hmore⟩ := h.parse_bodyPart hscan hbody hpart
        rw [hmore] at hparse
        cases hparse
        exact ⟨by simp, by simp⟩
      · by_cases hne : rest = []
        · subst hne
          rw [h.parse_emptyBody hscan hbody (Nat.le_zero.mp hwhole)] at hparse
          cases hparse
          exact ⟨by simp, by simp⟩
        · obtain ⟨parser₁, hgood, hreq⟩ := h.parse_body hscan hbody hwhole hne
          rw [hgood] at hparse
          cases hparse
          refine ⟨by simp, fun _ => ⟨rfl, ?_⟩⟩
          rw [hreq]

end Call

end RequestParser

end TonyCat.Http
