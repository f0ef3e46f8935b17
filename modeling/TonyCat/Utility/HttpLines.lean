import TonyCat.Library.Transducer
import TonyCat.Utility.HttpRequest

set_option autoImplicit false

/-! The text of a request, and how the parser reads the lines of it piece by piece. -/

namespace TonyCat.Http

open TonyCat.Library RequestParser

structure RequestText where
  method : Bytes
  path : Bytes
  query : Option Bytes
  version : Bytes
  headers : List (Bytes × Bytes)
  content : Bytes

def IsText (bs : Bytes) : Prop := 13 ∉ bs ∧ 10 ∉ bs

def IsWord (bs : Bytes) : Prop := IsText bs ∧ 32 ∉ bs

namespace RequestText

def uri (t : RequestText) : Bytes :=
  match t.query with
  | some query => t.path ++ (text "?" ++ query)
  | none => t.path

def requestLine (t : RequestText) : Bytes := t.method ++ (text " " ++ (t.uri ++ (text " " ++ t.version)))

def headerLine (header : Bytes × Bytes) : Bytes := header.1 ++ (text ": " ++ header.2)

def lines (t : RequestText) : List Bytes := t.requestLine :: (t.headers.map headerLine ++ [[]])

def bytes (t : RequestText) : Bytes := t.lines.flatMap (fun line => line ++ crlf) ++ t.content

def request (t : RequestText) : Request where
  method := Request.stringToMethod t.method
  version := Request.stringToVersion t.version
  path := t.path
  query := t.query.getD []
  headers := t.headers
  content := t.content

def contentLength (t : RequestText) : Option Bytes := t.headers.lookup (text "Content-Length")

structure WellFormed (t : RequestText) : Prop where
  method : IsWord t.method
  path : IsWord t.path ∧ 63 ∉ t.path
  query : ∀ query ∈ t.query, IsWord query
  version : Request.stringToVersion t.version ≠ .unknown
  headers : ∀ header ∈ t.headers, IsText header.1 ∧ 58 ∉ header.1 ∧ IsText header.2
  keys : (t.headers.map Prod.fst).Nodup
  content : t.contentLength = none → t.content = []
  contentLength : ∀ value ∈ t.contentLength, value = text (toString t.content.length)
  bytes_lt : t.bytes.length < kHttpMaxSize

end RequestText

lemma findSlice_crlf_line {bs : Bytes} (h : findSlice crlf bs = none) (rest : Bytes) :
    findSlice crlf (bs ++ (crlf ++ rest)) = some bs.length :=
  findSlice_pair (by decide) h rest

lemma findSlice_crlf_append {bs : Bytes} (h : findSlice crlf bs = none) (hcut : bs.getLast? ≠ some 13) (rest : Bytes) :
    findSlice crlf (bs ++ rest) = (findSlice crlf rest).map (· + bs.length) :=
  findSlice_pair_append h (.inl hcut)

lemma beyond_append (xs sub ys : Bytes) : beyond (xs ++ (sub ++ ys)) sub.length (some xs.length) = ys := by
  rw [beyond, ← List.drop_drop, List.drop_left, List.drop_left]

lemma upTo_append (xs ys : Bytes) : upTo (xs ++ ys) (some xs.length) = xs := List.take_left

lemma isWord_version {version : Bytes} (h : Request.stringToVersion version ≠ .unknown) : IsWord version := by
  rw [Request.stringToVersion] at h
  split at h
  case isTrue heq =>
    subst heq
    exact ⟨⟨by decide, by decide⟩, by decide⟩
  case isFalse =>
    split at h
    case isTrue heq =>
      subst heq
      exact ⟨⟨by decide, by decide⟩, by decide⟩
    case isFalse =>
      split at h
      case isTrue heq =>
        subst heq
        exact ⟨⟨by decide, by decide⟩, by decide⟩
      case isFalse => exact absurd rfl h

def ReadsLine (parser : RequestParser) (line : Bytes) (parser' : RequestParser) : Prop :=
  (parser.onDone || parser.onReadBody) = false ∧ parser.parseLine line = (parser', true)

namespace RequestText

variable {t : RequestText}

lemma WellFormed.isWord_uri (h : t.WellFormed) : IsWord t.uri := by
  have hpath := h.path.1
  rw [uri]
  split
  case h_1 query hquery =>
    have hword := h.query query hquery
    have hmark : (13 : UInt8) ∉ text "?" ∧ (10 : UInt8) ∉ text "?" ∧ (32 : UInt8) ∉ text "?" := by decide
    simp only [IsWord, IsText, List.mem_append, not_or] at *
    exact ⟨⟨⟨hpath.1.1, hmark.1, hword.1.1⟩, hpath.1.2, hmark.2.1, hword.1.2⟩, hpath.2, hmark.2.2, hword.2⟩
  case h_2 => exact hpath

lemma WellFormed.loadPathAndQuery (h : t.WellFormed) (method : Method) :
    Request.loadPathAndQuery { method := method } t.uri =
      { method := method, path := t.path, query := t.query.getD [] } := by
  have hmark := h.path.2
  cases hquery : t.query with
  | none =>
    have hpos : findSlice (text "?") t.path = none := findSlice_of_notMem rfl hmark
    simp only [uri, hquery, Request.loadPathAndQuery, hpos]
    rfl
  | some query =>
    have hpos : findSlice (text "?") (t.path ++ (text "?" ++ query)) = some t.path.length :=
      findSlice_append_of_notMem rfl hmark query
    have hrest : (t.path ++ (text "?" ++ query)).drop (t.path.length + 1) = query :=
      beyond_append t.path (text "?") query
    simp only [uri, hquery, Request.loadPathAndQuery, hpos, hrest, List.take_left]
    rfl

lemma WellFormed.reads_requestLine (h : t.WellFormed) : ReadsLine .reset t.requestLine
    { state := .httpHeader, req := { t.request with headers := [], content := [] } } := by
  refine ⟨rfl, ?_⟩
  have hmethod : findSlice (text " ") t.requestLine = some t.method.length :=
    findSlice_append_of_notMem rfl h.method.2 _
  have huri : findSlice (text " ") (t.uri ++ (text " " ++ t.version)) = some t.uri.length :=
    findSlice_append_of_notMem rfl h.isWord_uri.2 _
  have hversion : findSlice (text " ") t.version = none :=
    findSlice_of_notMem rfl (isWord_version h.version).2
  have hrest : beyond t.requestLine 1 (some t.method.length) = t.uri ++ (text " " ++ t.version) :=
    beyond_append t.method (text " ") _
  have hlast : beyond (t.uri ++ (text " " ++ t.version)) 1 (some t.uri.length) = t.version :=
    beyond_append t.uri (text " ") _
  have hfirst : upTo t.requestLine (some t.method.length) = t.method := upTo_append _ _
  simp only [parseLine, reset, hmethod, hrest, huri, hlast, hversion, hfirst, upTo_append, h.loadPathAndQuery]
  rw [upTo, if_neg h.version]
  rfl

lemma reads_headerLine_emplace (req : Request) {header : Bytes × Bytes} (hkey : 58 ∉ header.1) :
    ReadsLine { state := .httpHeader, req := req } (headerLine header)
      { state := .httpHeader, req := { req with headers := KeyedList.emplace req.headers header.1 header.2 } } := by
  refine ⟨rfl, ?_⟩
  have hpos : findSlice (text ": ") (headerLine header) = some header.1.length :=
    findSlice_append_of_notMem rfl hkey _
  have hvalue : beyond (headerLine header) 2 (some header.1.length) = header.2 :=
    beyond_append header.1 (text ": ") _
  have hfirst : upTo (headerLine header) (some header.1.length) = header.1 := upTo_append _ _
  have hne : headerLine header ≠ [] := by
    intro hnil
    have hlen := congrArg List.length hnil
    simp [headerLine, text] at hlen
  simp only [parseLine, if_neg hne, hpos, hvalue, hfirst]

lemma reads_headerLine {req : Request} {header : Bytes × Bytes} (hkey : 58 ∉ header.1)
    (hnew : ∀ value, (header.1, value) ∉ req.headers) : ReadsLine { state := .httpHeader, req := req } (headerLine header)
      { state := .httpHeader, req := { req with headers := req.headers ++ [header] } } := by
  have hline := reads_headerLine_emplace req hkey
  rwa [KeyedList.emplace_of_notMem hnew] at hline

lemma path_headers (req : Request) {headers : List (Bytes × Bytes)} (hkeys : ∀ header ∈ headers, 58 ∉ header.1)
    (hnodup : ((req.headers ++ headers).map Prod.fst).Nodup)
    (hlength : (req.headers ++ headers).lookup (text "Content-Length") = none) :
    Path ReadsLine { state := .httpHeader, req := req } (headers.map headerLine ++ [[]])
      { state := .finish, req := { req with headers := req.headers ++ headers } } := by
  induction headers generalizing req with
  | nil =>
    rw [List.append_nil] at hlength ⊢
    refine .cons ⟨rfl, ?_⟩ (.nil _)
    simp only [parseLine, if_true, hlength]
  | cons header headers ih =>
    have hnew : ∀ value, (header.1, value) ∉ req.headers := by
      intro value hmem
      rw [List.map_append, List.nodup_append] at hnodup
      exact hnodup.2.2 _ (List.mem_map_of_mem hmem) _ (List.mem_map_of_mem List.mem_cons_self) rfl
    rw [List.append_cons] at hnodup hlength
    have htail := ih { req with headers := req.headers ++ [header] }
      (fun other hmem => hkeys other (List.mem_cons_of_mem _ hmem)) hnodup hlength
    simp only [← List.append_cons] at htail
    exact .cons (reads_headerLine (hkeys header List.mem_cons_self) hnew) htail

theorem WellFormed.path_lines (h : t.WellFormed) (hbody : t.contentLength = none) :
    Path ReadsLine .reset t.lines { state := .finish, req := t.request } := by
  have hheaders := path_headers { t.request with headers := [], content := [] }
    (fun header hmem => (h.headers header hmem).2.1) h.keys hbody
  have hrequest : t.request = { t.request with headers := t.headers, content := [] } := by
    rw [request, h.content hbody]
  rw [hrequest]
  exact .cons h.reads_requestLine hheaders

end RequestText

namespace RequestParser

def holding (parser : RequestParser) (readingLine : Bytes) (readLength : ℕ) : RequestParser :=
  { parser with readingLine := readingLine, readLength := readLength }

lemma parseLine_holding (parser : RequestParser) (readingLine line : Bytes) (readLength : ℕ) :
    (parser.holding readingLine readLength).parseLine line =
      ((parser.parseLine line).1.holding readingLine readLength, (parser.parseLine line).2) := by
  cases hstate : parser.state with
  | methodUriVersion =>
    simp only [parseLine, holding, hstate]
    split <;> rfl
  | httpHeader =>
    simp only [parseLine, holding, hstate]
    split
    · split <;> rfl
    · rfl
  | httpContext => simp only [parseLine, holding, hstate]
  | finish => simp only [parseLine, holding, hstate]

/-- A turn of the loop that finds the end of a line in the new bytes: the line is read with what was held of it. -/
lemma parseLines_turn {parser : RequestParser} {line data readingLine request : Bytes} {pos : ℕ}
    (hrun : (parser.onDone || parser.onReadBody) = false) (hpos : findSlice crlf request = some pos)
    (htake : readingLine ++ request.take pos = line) (hdata : readingLine ≠ [] → request <+: data) (readLength : ℕ) :
    ∃ held, parseLines data (parser.holding readingLine readLength) request =
      if (parser.parseLine line).2 then
        parseLines data ((parser.parseLine line).1.holding [] readLength) (request.drop (pos + 2))
      else ((parser.parseLine line).1.holding held readLength, .error pos) := by
  have hstop : ((parser.holding readingLine readLength).onDone ||
      (parser.holding readingLine readLength).onReadBody) = false := hrun
  rw [parseLines, hstop, if_neg Bool.false_ne_true]
  split
  case h_1 hnone =>
    rw [hpos] at hnone
    cases hnone
  case h_2 pos' hpos' =>
    rw [hpos] at hpos'
    cases hpos'
    by_cases hempty : readingLine = []
    · subst hempty
      rw [List.nil_append] at htake
      have hparse := parseLine_holding parser [] line readLength
      simp only [holding, ne_eq, not_true_eq_false, if_false, htake] at hparse ⊢
      rw [hparse]
      refine ⟨[], ?_⟩
      cases (parser.parseLine line).2 <;> rfl
    · obtain ⟨rest, rfl⟩ := hdata hempty
      have hfit := findSlice_add_le hpos
      have hheld : readingLine ++ (request ++ rest).take pos = line := by
        rw [List.take_append_of_le_length (by omega), htake]
      have hne : line ≠ [] := by
        intro hnil
        rw [hnil] at htake
        exact hempty (List.append_eq_nil_iff.mp htake).1
      have hparse := parseLine_holding parser line line readLength
      simp only [holding, ne_eq, hempty, not_false_eq_true, if_true, hheld, hne] at hparse ⊢
      rw [hparse]
      refine ⟨line, ?_⟩
      cases (parser.parseLine line).2 <;> rfl

lemma parseLines_step {parser parser' : RequestParser} {line data readingLine request : Bytes} {readLength pos : ℕ}
    (hline : ReadsLine parser line parser') (hpos : findSlice crlf request = some pos)
    (htake : readingLine ++ request.take pos = line) (hdata : readingLine ≠ [] → request <+: data) :
    parseLines data (parser.holding readingLine readLength) request =
      parseLines data (parser'.holding [] readLength) (request.drop (pos + 2)) := by
  obtain ⟨held, hturn⟩ := parseLines_turn hline.1 hpos htake hdata readLength
  rwa [hline.2, if_pos rfl] at hturn

lemma parseLines_of_path {parser parser' : RequestParser} {lines : List Bytes} (hpath : Path ReadsLine parser lines parser')
    (hlines : ∀ line ∈ lines, findSlice crlf line = none) {data readingLine request tail : Bytes} (readLength : ℕ)
    (heq : readingLine ++ request = lines.flatMap (fun line => line ++ crlf) ++ tail)
    (hnone : findSlice crlf readingLine = none) (hcut : readingLine.getLast? ≠ some 13)
    (hdata : readingLine ≠ [] → request <+: data)
    (hend : findSlice crlf tail = none ∨ (parser'.onDone || parser'.onReadBody) = true) :
    ∃ readingLine' request', parseLines data (parser.holding readingLine readLength) request =
        (parser'.holding readingLine' readLength, .ok request') ∧
      readingLine' ++ request' = tail ∧ (lines ≠ [] ∨ readingLine = [] → readingLine' = []) := by
  induction hpath generalizing readingLine request with
  | nil parser =>
    refine ⟨readingLine, request, ?_, heq, fun h => h.resolve_left (fun hne => hne rfl)⟩
    rw [parseLines]
    split
    · rfl
    case isFalse hgo =>
      have htail := hend.resolve_right hgo
      have hrequest := findSlice_crlf_append hnone hcut request
      rw [heq, List.flatMap_nil, List.nil_append] at hrequest
      split
      case h_1 => rfl
      case h_2 pos hpos =>
        rw [htail, hpos] at hrequest
        cases hrequest
  | @cons parser parser₁ parser' line lines hline _ ih =>
    have hrest : readingLine ++ request = line ++ (crlf ++ (lines.flatMap (fun line => line ++ crlf) ++ tail)) := by
      rw [heq, List.flatMap_cons, List.append_assoc, List.append_assoc]
    have hfound := findSlice_crlf_line (hlines line List.mem_cons_self)
      (lines.flatMap (fun line => line ++ crlf) ++ tail)
    rw [← hrest, findSlice_crlf_append hnone hcut] at hfound
    obtain ⟨pos, hpos, hlen⟩ := Option.map_eq_some_iff.mp hfound
    have htake : readingLine ++ request.take pos = line := by
      rw [← List.take_length_add_append, hrest, Nat.add_comm, hlen, List.take_left]
    have hdrop : [] ++ request.drop (pos + 2) = lines.flatMap (fun line => line ++ crlf) ++ tail := by
      rw [List.nil_append, ← List.drop_length_add_append, hrest, ← Nat.add_assoc, Nat.add_comm _ pos, hlen,
        ← List.drop_drop, List.drop_left]
      rfl
    obtain ⟨readingLine', request', hloop, htail, hheld⟩ := ih
      (fun other hmem => hlines other (List.mem_cons_of_mem _ hmem)) hdrop rfl (by simp) (fun h => absurd rfl h) hend
    refine ⟨readingLine', request', ?_, htail, fun _ => hheld (.inr rfl)⟩
    rw [parseLines_step hline hpos htake hdata]
    exact hloop

lemma parse_done_of_path {parser parser' : RequestParser} {lines : List Bytes} (hpath : Path ReadsLine parser lines parser')
    (hlines : ∀ line ∈ lines, findSlice crlf line = none) {data readingLine tail : Bytes} {readLength : ℕ}
    (heq : readingLine ++ data.take (min data.length (kHttpMaxSize - readLength)) =
      lines.flatMap (fun line => line ++ crlf) ++ tail)
    (hnone : findSlice crlf readingLine = none) (hcut : readingLine.getLast? ≠ some 13)
    (hlimit : readLength < kHttpMaxSize) (hheld : lines ≠ [] ∨ readingLine = []) (hdone : parser'.state = .finish) :
    ∃ n, parse (parser.holding readingLine readLength) data =
      (parser'.holding [] n, .good, min data.length (kHttpMaxSize - readLength) - tail.length) := by
  have hstop : parser'.onDone = true := decide_eq_true hdone
  obtain ⟨readingLine', request', hloop, htail, hnil⟩ := parseLines_of_path hpath hlines readLength heq
    hnone hcut (fun _ => List.take_prefix _ data) (.inr (by rw [hstop]; rfl))
  obtain rfl := hnil hheld
  rw [List.nil_append] at htail
  subst htail
  have hbody : (parser'.holding [] readLength).onReadBody = false := by
    simp [onReadBody, holding, hdone]
  have hstop' : (parser'.holding [] readLength).onDone = true := hstop
  have hunder : ¬ (parser.holding readingLine readLength).readLength ≥ kHttpMaxSize := Nat.not_le.mpr hlimit
  rw [parse, if_neg hunder]
  simp only [holding] at hloop hbody hstop' ⊢
  rw [hloop]
  simp only [hbody, Bool.false_eq_true, if_false, parseRest, hstop', if_true]
  exact ⟨_, rfl⟩

lemma parse_more_of_path {parser parser' : RequestParser} {lines : List Bytes} (hpath : Path ReadsLine parser lines parser')
    (hlines : ∀ line ∈ lines, findSlice crlf line = none) {data readingLine tail : Bytes} {readLength : ℕ}
    (heq : readingLine ++ data = lines.flatMap (fun line => line ++ crlf) ++ tail)
    (hnone : findSlice crlf readingLine = none) (hcut : readingLine.getLast? ≠ some 13)
    (hlimit : readLength + data.length < kHttpMaxSize) (hend : findSlice crlf tail = none)
    (hgo : (parser'.onDone || parser'.onReadBody) = false) :
    parse (parser.holding readingLine readLength) data =
      (parser'.holding tail (readLength + data.length), .indeterminate, data.length) := by
  obtain ⟨readingLine', request', hloop, rfl, -⟩ := parseLines_of_path hpath hlines readLength heq hnone hcut
    (fun _ => List.prefix_rfl) (.inl hend)
  obtain ⟨hdone, hbody⟩ := Bool.or_eq_false_iff.mp hgo
  have hdone' : (parser'.holding readingLine' readLength).onDone = false := hdone
  have hbody' : (parser'.holding readingLine' readLength).onReadBody = false := hbody
  have hunder : ¬ (parser.holding readingLine readLength).readLength ≥ kHttpMaxSize := by
    change ¬ readLength ≥ kHttpMaxSize
    omega
  have hmin : min data.length (kHttpMaxSize - readLength) = data.length := by omega
  rw [parse, if_neg hunder]
  simp only [holding] at hloop hdone' hbody' ⊢
  rw [hmin, List.take_length, hloop]
  simp only [hbody', hdone', Bool.false_eq_true, if_false, parseRest]

end RequestParser

def lineReader : FrameReader UInt8 Bytes := delimited crlf (List.cons_ne_nil 13 [10])

lemma lineReader_decodes : lineReader.Decodes (fun line => findSlice crlf line = none) (fun line => line ++ crlf) :=
  delimited_decodes (by decide)

lemma lineReader_rest (bs : Bytes) : findSlice crlf (lineReader.drain bs).rest = none := delimited_rest _ bs

lemma lineReader_nil : lineReader.drain [] = ⟨[], [], true⟩ := FrameReader.drain_of_more rfl

lemma lineReader_append (done data : Bytes) :
    (lineReader.drain (done ++ data)).frames = (lineReader.drain done).frames ++
        (lineReader.drain ((lineReader.drain done).rest ++ data)).frames ∧
      (lineReader.drain (done ++ data)).rest = (lineReader.drain ((lineReader.drain done).rest ++ data)).rest := by
  have hok : (lineReader.drain done).ok = true := delimited_ok _ done
  rw [FrameReader.drain_append_of_ok done data hok]
  exact ⟨rfl, rfl⟩

lemma lineReader_rest_cut {done : Bytes} (h : done.getLast? ≠ some 13) :
    (lineReader.drain done).rest.getLast? ≠ some 13 := by
  intro hlast
  apply h
  rw [(lineReader_decodes.drain_maximal done).1, List.getLast?_append, hlast]
  rfl

namespace RequestText

variable {t : RequestText}

lemma WellFormed.lines_crlf (h : t.WellFormed) : ∀ line ∈ t.lines, findSlice crlf line = none := by
  intro line hmem
  apply findSlice_of_notMem rfl
  simp only [lines, List.mem_cons, List.mem_append, List.mem_map, List.not_mem_nil, or_false] at hmem
  obtain rfl | ⟨header, hheader, rfl⟩ | rfl := hmem
  · have hspace : (13 : UInt8) ∉ text " " := by decide
    have huri := h.isWord_uri.1.1
    have hversion := (isWord_version h.version).1.1
    simp only [requestLine, List.mem_append, not_or]
    exact ⟨h.method.1.1, hspace, huri, hspace, hversion⟩
  · have hcolon : (13 : UInt8) ∉ text ": " := by decide
    obtain ⟨hkey, -, hvalue⟩ := h.headers header hheader
    simp only [headerLine, List.mem_append, not_or]
    exact ⟨hkey.1, hcolon, hvalue.1⟩
  · exact List.not_mem_nil

lemma bytes_pos (t : RequestText) : 0 < t.bytes.length := by
  simp only [bytes, lines, List.flatMap_cons, List.length_append, crlf, List.length_cons]
  omega

lemma WellFormed.bytes_eq (h : t.WellFormed) (hbody : t.contentLength = none) :
    t.bytes = t.lines.flatMap fun line => line ++ crlf := by
  rw [bytes, h.content hbody, List.append_nil]

lemma WellFormed.drain_bytes (h : t.WellFormed) (hbody : t.contentLength = none) :
    lineReader.drain t.bytes = ⟨t.lines, [], true⟩ := by
  rw [h.bytes_eq hbody]
  exact lineReader_decodes.drain_flatMap h.lines_crlf rfl

def Reading (t : RequestText) (done : Bytes) (parser : RequestParser) : Prop :=
  ∃ bare lines, t.lines = (lineReader.drain done).frames ++ lines ∧
    Path ReadsLine bare lines { state := .finish, req := t.request } ∧
    parser = bare.holding (lineReader.drain done).rest done.length

lemma WellFormed.reading_reset (h : t.WellFormed) (hbody : t.contentLength = none) : t.Reading [] .reset := by
  refine ⟨.reset, t.lines, ?_, h.path_lines hbody, ?_⟩
  · rw [lineReader_nil, List.nil_append]
  · rw [lineReader_nil]
    rfl

lemma WellFormed.lines_left (h : t.WellFormed) (hbody : t.contentLength = none) {done : Bytes}
    (hpre : done <+: t.bytes) (hne : done ≠ t.bytes) {lines : List Bytes}
    (hlines : t.lines = (lineReader.drain done).frames ++ lines) : lines ≠ [] := by
  rintro rfl
  rw [List.append_nil] at hlines
  apply hne
  apply hpre.eq_of_length_le
  have hlen := congrArg List.length (lineReader_decodes.drain_maximal done).1
  rw [← hlines, ← h.bytes_eq hbody, List.length_append] at hlen
  omega

theorem WellFormed.parse_piece (h : t.WellFormed) (hbody : t.contentLength = none) {done data : Bytes}
    {parser : RequestParser} (hr : t.Reading done parser) (hcut : done.getLast? ≠ some 13)
    (hpre : done ++ data <+: t.bytes) :
    (done ++ data = t.bytes →
      ∃ parser', parser.parse data = (parser', .good, data.length) ∧ parser'.req = t.request) ∧
    (done ++ data ≠ t.bytes →
      ∃ parser', parser.parse data = (parser', .indeterminate, data.length) ∧ t.Reading (done ++ data) parser') := by
  obtain ⟨bare, lines, hlines, hpath, rfl⟩ := hr
  have hlength : done.length + data.length < RequestParser.kHttpMaxSize := by
    rw [← List.length_append]
    exact hpre.length_le.trans_lt h.bytes_lt
  obtain ⟨later, hlater⟩ := hpre
  obtain ⟨hframes, hrest⟩ := lineReader_append done data
  have hall := (lineReader_append (done ++ data) later).1
  rw [hlater, h.drain_bytes hbody, hframes] at hall
  -- the lines that are left are those that end in `data` and those after it
  change t.lines = _ at hall
  rw [hlines, List.append_assoc, List.append_cancel_left_eq] at hall
  subst hall
  obtain ⟨parser', hmid, hfinal⟩ := hpath.split
  obtain ⟨heq, hvalid, -⟩ := lineReader_decodes.drain_maximal ((lineReader.drain done).rest ++ data)
  rw [← hrest] at heq
  rw [← List.append_assoc, ← hframes] at hlines
  constructor
  · intro hend
    have hsame : (lineReader.drain (done ++ data)).frames = t.lines := by
      rw [hend, h.drain_bytes hbody]
    have hnil : (lineReader.drain ((lineReader.drain (done ++ data)).rest ++ later)).frames = [] := by
      rw [hsame] at hlines
      exact List.append_right_eq_self.mp hlines.symm
    rw [hend, h.drain_bytes hbody] at heq
    rw [hnil] at hfinal
    cases hfinal
    have hheld : (lineReader.drain ((lineReader.drain done).rest ++ data)).frames ≠ [] ∨
        (lineReader.drain done).rest = [] := by
      rw [or_iff_not_imp_left, not_not]
      intro hnone
      rw [hnone] at heq
      exact (List.append_eq_nil_iff.mp heq).1
    have hmin : min data.length (RequestParser.kHttpMaxSize - done.length) = data.length := by omega
    have hpiece : (lineReader.drain done).rest ++ data.take (min data.length (RequestParser.kHttpMaxSize - done.length)) =
        (lineReader.drain ((lineReader.drain done).rest ++ data)).frames.flatMap (fun line => line ++ crlf) ++ [] := by
      rw [hmin, List.take_length]
      exact heq
    obtain ⟨n, hparse⟩ := RequestParser.parse_done_of_path hmid hvalid hpiece (lineReader_rest done) (lineReader_rest_cut hcut) (by omega) hheld rfl
    rw [hmin] at hparse
    exact ⟨_, hparse, rfl⟩
  · intro hne
    obtain ⟨line, left, hleft⟩ := List.exists_cons_of_ne_nil (h.lines_left hbody ⟨later, hlater⟩ hne hlines)
    have hgo : (parser'.onDone || parser'.onReadBody) = false := by
      rw [hleft] at hfinal
      cases hfinal with
      | cons hline => exact hline.1
    refine ⟨_, RequestParser.parse_more_of_path hmid hvalid heq (lineReader_rest done) (lineReader_rest_cut hcut)
      hlength (lineReader_rest _) hgo, parser', _, hlines, hfinal, ?_⟩
    rw [List.length_append]

theorem WellFormed.parse_bytes (h : t.WellFormed) (hbody : t.contentLength = none) (rest : Bytes) :
    ∃ parser', RequestParser.parse .reset (t.bytes ++ rest) = (parser', .good, t.bytes.length) ∧
      parser'.req = t.request := by
  have hlimit := h.bytes_lt
  have hlen : (t.bytes ++ rest).length = t.bytes.length + rest.length := List.length_append
  have hpiece : [] ++ (t.bytes ++ rest).take (min (t.bytes ++ rest).length (RequestParser.kHttpMaxSize - 0)) =
      t.lines.flatMap (fun line => line ++ crlf) ++ rest.take (RequestParser.kHttpMaxSize - t.bytes.length) := by
    rw [List.nil_append, ← h.bytes_eq hbody, List.take_append, List.take_of_length_le (by omega)]
    congr 1
    rw [hlen]
    exact List.take_eq_take_iff.mpr (by omega)
  obtain ⟨n, hparse⟩ := RequestParser.parse_done_of_path (h.path_lines hbody) h.lines_crlf hpiece rfl nofun
    (by rw [RequestParser.kHttpMaxSize]; omega) (.inr rfl) rfl
  have hconsumed : min (t.bytes ++ rest).length (RequestParser.kHttpMaxSize - 0) -
      (rest.take (RequestParser.kHttpMaxSize - t.bytes.length)).length = t.bytes.length := by
    rw [List.length_take]
    omega
  rw [hconsumed] at hparse
  exact ⟨_, hparse, rfl⟩

end RequestText

end TonyCat.Http
