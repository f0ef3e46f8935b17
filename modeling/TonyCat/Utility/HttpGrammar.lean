import Mathlib.Data.List.TakeWhile
import TonyCat.Utility.HttpScan

set_option autoImplicit false

/-! What the parser accepts, beside the grammar of requests. -/

namespace TonyCat.Http

open TonyCat.Library RequestParser

structure RequestLine (line method target version : Bytes) : Prop where
  line_eq : line = method ++ (text " " ++ (target ++ (text " " ++ version)))
  method : Request.stringToMethod method ≠ .invalid
  target : 32 ∉ target
  version : Request.stringToVersion version ≠ .unknown

inductive Target : Bytes → Bytes → Bytes → Prop
  | path {path : Bytes} (h : 63 ∉ path) : Target path path []
  | query {path : Bytes} (h : 63 ∉ path) (query : Bytes) : Target (path ++ (text "?" ++ query)) path query

structure HeaderLine (line : Bytes) (header : Bytes × Bytes) : Prop where
  line_eq : line = header.1 ++ (text ": " ++ header.2)
  name_ne : header.1 ≠ []
  name : findSlice (text ": ") header.1 = none

def lines (w : Bytes) : List Bytes := (lineReader.drain w).frames

def headerLines (rest : List Bytes) : List Bytes := rest.takeWhile (· ≠ [])

/-- A good result is a request by the grammar, with the parts of the input; any other first line or header line
makes the result bad. Of several values for a header the first is stored. -/
structure AcceptsGrammar (w : Bytes) : Prop where
  good : ∀ parser n, RequestParser.parse .reset w = (parser, .good, n) →
    ∃ line rest method target version headers, lines w = line :: rest ∧ RequestLine line method target version ∧
      [] ∈ rest ∧ List.Forall₂ HeaderLine (headerLines rest) headers ∧
      parser.req.method = Request.stringToMethod method ∧ Target target parser.req.path parser.req.query ∧
      parser.req.version = Request.stringToVersion version ∧ parser.req.headers = KeyedList.emplaceAll [] headers
  first : ∀ line rest, lines w = line :: rest → (¬ ∃ method target version, RequestLine line method target version) →
    (RequestParser.parse .reset w).2.1 = .bad
  header : ∀ line rest, lines w = line :: rest → ∀ line' ∈ headerLines rest, (¬ ∃ header, HeaderLine line' header) →
    (RequestParser.parse .reset w).2.1 = .bad

def word (line : Bytes) : Bytes := line.takeWhile (· ≠ 32)

/-- What follows the first word, or again the line where it is the only one. -/
def afterWord (line : Bytes) : Bytes := if 32 ∈ line then line.drop ((word line).length + 1) else line

/-- The third word, or the last one where there are fewer. -/
def thirdWord (line : Bytes) : Bytes := word (afterWord (afterWord line))

lemma word_append {xs : Bytes} (h : 32 ∉ xs) (ys : Bytes) : word (xs ++ (text " " ++ ys)) = xs := by
  rw [word, List.takeWhile_append_of_pos]
  · exact List.append_nil xs
  · intro x hx
    rw [decide_eq_true_eq]
    rintro rfl
    exact h hx

lemma afterWord_append {xs : Bytes} (h : 32 ∉ xs) (ys : Bytes) : afterWord (xs ++ (text " " ++ ys)) = ys := by
  have hmem : 32 ∈ xs ++ (text " " ++ ys) := List.mem_append_right xs List.mem_cons_self
  rw [afterWord, if_pos hmem, word_append h, ← List.drop_drop, List.drop_left]
  rfl

lemma word_of_notMem {xs : Bytes} (h : 32 ∉ xs) : word xs = xs := by
  rw [word, List.takeWhile_eq_self_iff]
  intro x hx
  rw [decide_eq_true_eq]
  rintro rfl
  exact h hx

lemma upTo_space (line : Bytes) : upTo line (findSlice (text " ") line) = word line := by
  by_cases hmem : 32 ∈ line
  · obtain ⟨xs, ys, rfl, hxs⟩ := List.eq_append_cons_of_mem hmem
    have hfind : findSlice (text " ") (xs ++ (text " " ++ ys)) = some xs.length := findSlice_append_of_notMem rfl hxs ys
    have hword := word_append hxs ys
    change findSlice (text " ") (xs ++ 32 :: ys) = some xs.length at hfind
    change word (xs ++ 32 :: ys) = xs at hword
    rw [hfind, hword]
    exact upTo_append xs (32 :: ys)
  · have hfind : findSlice (text " ") line = none := findSlice_of_notMem rfl hmem
    rw [hfind, word_of_notMem hmem]
    rfl

lemma beyond_space (line : Bytes) : beyond line 1 (findSlice (text " ") line) = afterWord line := by
  by_cases hmem : 32 ∈ line
  · obtain ⟨xs, ys, rfl, hxs⟩ := List.eq_append_cons_of_mem hmem
    have hfind : findSlice (text " ") (xs ++ (text " " ++ ys)) = some xs.length := findSlice_append_of_notMem rfl hxs ys
    have hafter := afterWord_append hxs ys
    change findSlice (text " ") (xs ++ 32 :: ys) = some xs.length at hfind
    change afterWord (xs ++ 32 :: ys) = ys at hafter
    rw [hfind, hafter]
    exact beyond_append xs (text " ") ys
  · have hfind : findSlice (text " ") line = none := findSlice_of_notMem rfl hmem
    rw [hfind, afterWord, if_neg hmem]
    rfl

/-- The request that the first line gives, which is any line. -/
def lineRequest (line : Bytes) : Request :=
  { Request.loadPathAndQuery { method := Request.stringToMethod (word line) } (word (afterWord line)) with
    version := Request.stringToVersion (thirdWord line) }

lemma parseLine_reset (line : Bytes) : RequestParser.reset.parseLine line =
    if Request.stringToVersion (thirdWord line) = .unknown then ({ req := lineRequest line }, false)
    else ({ req := lineRequest line, state := .httpHeader }, true) := by
  simp only [parseLine, reset, upTo_space, beyond_space]
  rfl

lemma notMem_of_known {word : Bytes} (h : Request.stringToMethod word ≠ .invalid) : 32 ∉ word := by
  rw [Request.stringToMethod] at h
  split at h
  case isTrue heq => subst heq; decide
  split at h
  case isTrue heq => subst heq; decide
  split at h
  case isTrue heq => subst heq; decide
  split at h
  case isTrue heq => subst heq; decide
  split at h
  case isTrue heq => subst heq; decide
  exact absurd rfl h

lemma target_loadPathAndQuery (req : Request) (hquery : req.query = []) (target : Bytes) :
    Target target (req.loadPathAndQuery target).path (req.loadPathAndQuery target).query := by
  by_cases hmem : 63 ∈ target
  · obtain ⟨path, query, rfl, hpath⟩ := List.eq_append_cons_of_mem hmem
    have hfind : findSlice (text "?") (path ++ 63 :: query) = some path.length :=
      findSlice_append_of_notMem rfl hpath query
    have hrest : (path ++ 63 :: query).drop (path.length + 1) = query := beyond_append path (text "?") query
    rw [Request.loadPathAndQuery, hfind]
    simp only [List.take_left, hrest]
    exact .query hpath query
  · have hfind : findSlice (text "?") target = none := findSlice_of_notMem rfl hmem
    rw [Request.loadPathAndQuery, hfind]
    simp only [hquery]
    exact .path hmem

section RequestLine

variable {line method target version : Bytes}

lemma RequestLine.words (h : RequestLine line method target version) :
    word line = method ∧ word (afterWord line) = target ∧ thirdWord line = version := by
  have hmethod := notMem_of_known h.method
  have hversion := (isWord_version h.version).2
  rw [thirdWord, h.line_eq, word_append hmethod, afterWord_append hmethod, word_append h.target,
    afterWord_append h.target, word_of_notMem hversion]
  exact ⟨rfl, rfl, rfl⟩

lemma RequestLine.lineRequest (h : RequestLine line method target version) :
    (lineRequest line).method = Request.stringToMethod method ∧
      Target target (Http.lineRequest line).path (Http.lineRequest line).query ∧
      (Http.lineRequest line).version = Request.stringToVersion version ∧ (Http.lineRequest line).headers = [] := by
  obtain ⟨hmethod, htarget, hversion⟩ := h.words
  rw [Http.lineRequest, hmethod, htarget, hversion]
  have hload : ∀ req : Request, (req.loadPathAndQuery target).method = req.method ∧
      (req.loadPathAndQuery target).headers = req.headers := by
    intro req
    rw [Request.loadPathAndQuery]
    split <;> exact ⟨rfl, rfl⟩
  exact ⟨(hload _).1, target_loadPathAndQuery _ rfl target, rfl, (hload _).2⟩

end RequestLine

def headerOf (line : Bytes) : Bytes × Bytes :=
  (upTo line (findSlice (text ": ") line), beyond line 2 (findSlice (text ": ") line))

lemma HeaderLine.headerOf {line : Bytes} {header : Bytes × Bytes} (h : HeaderLine line header) :
    headerOf line = header := by
  have hfind : findSlice (text ": ") line = some header.1.length := by
    rw [h.line_eq]
    exact findSlice_pair (by decide) h.name header.2
  rw [Http.headerOf, hfind, h.line_eq]
  exact Prod.ext (upTo_append _ _) (beyond_append header.1 (text ": ") header.2)

/-- No header line is refused. Where the lines end there is an empty one, and the lines before it give the headers. -/
lemma scanLines_headers {parser parser' : RequestParser} {txt : Bytes} {out : Option Bytes}
    (hstate : parser.state = .httpHeader) (h : parser.scanLines txt = (parser', out)) :
    out ≠ none ∧ (parser'.running = false → ∃ (headers : List Bytes) (tail : Bytes),
      txt = headers.flatMap (fun line => line ++ crlf) ++ (crlf ++ tail) ∧
      (∀ line ∈ headers, line ≠ [] ∧ findSlice crlf line = none) ∧
      parser'.req = { parser.req with headers := KeyedList.emplaceAll parser.req.headers (headers.map headerOf) }) := by
  fun_induction scanLines parser txt with
  | case1 parser txt hrun =>
    cases h
    refine ⟨Option.some_ne_none _, fun hstop => ?_⟩
    rw [hrun] at hstop
    cases hstop
  | case2 parser txt _ pos _ parser₁ hline =>
    simp only [parseLine, hstate] at hline
    split at hline
    · split at hline <;> cases hline
    · cases hline
  | case3 parser txt hrun pos hpos parser₁ hline ih =>
    have heq := findSlice_eq_some hpos
    have hnone := findSlice_take (List.cons_ne_nil 13 [10]) hpos
    simp only [parseLine, hstate] at hline
    split at hline
    case isTrue hnil =>
      -- the empty line
      have hreq : parser₁.req = parser.req ∧ parser₁.running = false := by
        split at hline <;> cases hline <;> exact ⟨rfl, rfl⟩
      rw [scanLines_stopped hreq.2] at h
      cases h
      refine ⟨Option.some_ne_none _, fun _ => ⟨[], txt.drop (pos + 2), ?_, List.forall_mem_nil _, ?_⟩⟩
      · rw [hnil] at heq
        exact heq
      · rw [hreq.1]
        rfl
    case isFalse hne =>
      cases hline
      obtain ⟨hout, hrest⟩ := ih rfl h
      refine ⟨hout, fun hstop => ?_⟩
      obtain ⟨headers, tail, htxt, hlines, hreq⟩ := hrest hstop
      refine ⟨txt.take pos :: headers, tail, ?_, ?_, hreq⟩
      · rw [List.flatMap_cons, List.append_assoc, List.append_assoc, ← htxt]
        exact heq
      · intro line hmem
        obtain rfl | hmem := List.mem_cons.mp hmem
        · exact ⟨hne, hnone⟩
        · exact hlines line hmem
  | case4 parser txt hstop =>
    rw [running, onDone, onReadBody, hstate] at hstop
    exact absurd rfl hstop

lemma lines_none {w : Bytes} (h : findSlice crlf w = none) : lines w = [] := by
  have hmore : lineReader.front w = .more := by
    simp only [lineReader, delimited, h]
  rw [lines, FrameReader.drain_of_more hmore]

lemma lines_line {line : Bytes} (h : findSlice crlf line = none) (rest : Bytes) :
    lines (line ++ (crlf ++ rest)) = line :: lines rest := by
  have hfront := lineReader_decodes.complete rest h
  rw [List.append_assoc] at hfront
  rw [lines, FrameReader.drain_of_frame hfront, ← List.append_assoc, List.drop_left]
  rfl

lemma of_lines_cons {w line : Bytes} {rest : List Bytes} (h : lines w = line :: rest) :
    ∃ tail, w = line ++ (crlf ++ tail) ∧ findSlice crlf line = none ∧ rest = lines tail := by
  cases hfind : findSlice crlf w with
  | none =>
    rw [lines_none hfind] at h
    cases h
  | some pos =>
    have heq := findSlice_eq_some hfind
    have hnone := findSlice_take (List.cons_ne_nil 13 [10]) hfind
    rw [heq, lines_line hnone] at h
    cases h
    exact ⟨_, heq, hnone, rfl⟩

lemma lines_append {ls : List Bytes} (h : ∀ line ∈ ls, findSlice crlf line = none) (rest : Bytes) :
    lines (ls.flatMap (fun line => line ++ crlf) ++ rest) = ls ++ lines rest := by
  induction ls with
  | nil => rfl
  | cons line ls ih =>
    rw [List.flatMap_cons, List.append_assoc, List.append_assoc, lines_line (h line List.mem_cons_self),
      ih fun other hmem => h other (List.mem_cons_of_mem _ hmem), List.cons_append]

section Call

variable {w line tail : Bytes}

lemma parse_short (h : findSlice crlf (view 0 w) = none) : (RequestParser.parse .reset w).2.1 = .indeterminate := by
  have hparse := (receives_reset w).parse_running (scanLines_none h) rfl
  exact congrArg (fun out => out.2.1) hparse

lemma view_line (hw : w = line ++ (crlf ++ tail)) (hline : findSlice crlf line = none) :
    (line.length + 2 ≤ kHttpMaxSize → ∃ tail', view 0 w = line ++ (crlf ++ tail') ∧ tail' <+: tail) ∧
      (kHttpMaxSize < line.length + 2 → findSlice crlf (view 0 w) = none) := by
  have hsep : crlf.length = 2 := rfl
  constructor
  · intro hle
    have hcut : view 0 w = line ++ (crlf ++ tail.take (kHttpMaxSize - (line.length + 2))) := by
      rw [view, hw, ← List.append_assoc, ← List.append_assoc, List.take_append, List.take_of_length_le]
      · congr 1
        simp only [List.length_append, hsep]
        exact List.take_eq_take_iff.mpr (by omega)
      · simp only [List.length_append, hsep]
        omega
    exact ⟨_, hcut, List.take_prefix _ _⟩
  · intro hlt
    cases hfind : findSlice crlf (view 0 w) with
    | none => rfl
    | some pos =>
      have hfit := findSlice_add_le hfind
      obtain ⟨later, hlater⟩ := view_prefix 0 w
      have hpos := findSlice_append later hfind
      rw [hlater, hw, findSlice_crlf_line hline] at hpos
      cases hpos
      rw [view_length] at hfit
      omega

lemma parse_unknown (hview : view 0 w = line ++ (crlf ++ tail)) (hline : findSlice crlf line = none)
    (h : Request.stringToVersion (thirdWord line) = .unknown) : (RequestParser.parse .reset w).2.1 = .bad := by
  have hscan : RequestParser.reset.scanLines ([] ++ view 0 w) = ({ req := lineRequest line }, none) := by
    rw [List.nil_append, hview, scanLines_some rfl (findSlice_crlf_line hline tail), List.take_left, parseLine_reset,
      if_pos h]
    rfl
  obtain ⟨parser, pos, hparse⟩ := (receives_reset w).parse_refused hscan
  exact congrArg (fun out => out.2.1) hparse

lemma parse_known (hview : view 0 w = line ++ (crlf ++ tail)) (hline : findSlice crlf line = none)
    (h : Request.stringToVersion (thirdWord line) ≠ .unknown) {parser : RequestParser} {result : ResultType} {n : ℕ}
    (hparse : RequestParser.parse .reset w = (parser, result, n)) : result ≠ .bad ∧
      (result = .good → ∃ (headers : List Bytes) (tail' : Bytes),
        tail = headers.flatMap (fun line => line ++ crlf) ++ (crlf ++ tail') ∧
        (∀ line ∈ headers, line ≠ [] ∧ findSlice crlf line = none) ∧
        parser.req = { lineRequest line with
          headers := KeyedList.emplaceAll (lineRequest line).headers (headers.map headerOf)
          content := parser.req.content }) := by
  have hfirst : ReadsLine .reset line { req := lineRequest line, state := .httpHeader } := by
    refine ⟨rfl, ?_⟩
    rw [parseLine_reset, if_neg h]
  cases hout : RequestParser.scanLines { req := lineRequest line, state := .httpHeader } tail with
  | mk parser' out =>
    obtain ⟨hsome, hheaders⟩ := scanLines_headers rfl hout
    obtain ⟨rest, rfl⟩ := Option.ne_none_iff_exists'.mp hsome
    have hscan : RequestParser.reset.scanLines ([] ++ view 0 w) = (parser', some rest) := by
      rw [List.nil_append, hview, scanLines_line hfirst hline, hout]
    obtain ⟨hbad, hgood⟩ := (receives_reset w).parse_scanned hscan hparse
    refine ⟨hbad, fun hresult => ?_⟩
    obtain ⟨hstop, hreq⟩ := hgood hresult
    obtain ⟨headers, tail', htail, hlines, hreq'⟩ := hheaders hstop
    refine ⟨headers, tail', htail, hlines, ?_⟩
    rw [hreq, hreq']

end Call

/-- The first line has no known version and is within the limit, or the head is a request's by the grammar. -/
def HeadKept (w : Bytes) : Prop :=
  ∀ line rest, lines w = line :: rest →
    Request.stringToVersion (thirdWord line) = .unknown ∧ line.length + 2 ≤ kHttpMaxSize ∨
    (∃ method target version, RequestLine line method target version) ∧
      ∀ line' ∈ headerLines rest, ∃ header, HeaderLine line' header

section Accepts

variable {w line : Bytes} {rest : List Bytes}

lemma parse_lines_nil (h : lines w = []) : (RequestParser.parse .reset w).2.1 = .indeterminate := by
  apply parse_short
  cases hfind : findSlice crlf (view 0 w) with
  | none => rfl
  | some pos =>
    obtain ⟨later, hlater⟩ := view_prefix 0 w
    have heq := findSlice_eq_some (findSlice_append later hfind)
    rw [hlater] at heq
    rw [heq, lines_line (findSlice_take (List.cons_ne_nil 13 [10]) (hlater ▸ findSlice_append later hfind))] at h
    cases h

theorem parse_bad_iff (h : lines w = line :: rest) : (RequestParser.parse .reset w).2.1 = .bad ↔
    Request.stringToVersion (thirdWord line) = .unknown ∧ line.length + 2 ≤ kHttpMaxSize := by
  obtain ⟨tail, hw, hline, -⟩ := of_lines_cons h
  obtain ⟨hlong, hshort⟩ := view_line hw hline
  obtain hlt | hle := Nat.lt_or_ge kHttpMaxSize (line.length + 2)
  · rw [parse_short (hshort hlt)]
    exact iff_of_false nofun fun hboth => absurd hboth.2 (Nat.not_le.mpr hlt)
  · obtain ⟨tail', hview, -⟩ := hlong hle
    by_cases hversion : Request.stringToVersion (thirdWord line) = .unknown
    · exact iff_of_true (parse_unknown hview hline hversion) ⟨hversion, hle⟩
    · exact iff_of_false (parse_known hview hline hversion rfl).1 fun hboth => hversion hboth.1

lemma headerLines_append {headers : List Bytes} (h : ∀ line ∈ headers, line ≠ []) (rest : List Bytes) :
    headerLines (headers ++ [] :: rest) = headers := by
  rw [headerLines, List.takeWhile_append_of_pos (by simpa using h), List.takeWhile_cons_of_neg (by simp),
    List.append_nil]

lemma forall₂_headerOf {headers : List Bytes} (h : ∀ line ∈ headers, ∃ header, HeaderLine line header) :
    List.Forall₂ HeaderLine headers (headers.map headerOf) := by
  rw [List.forall₂_map_right_iff, List.forall₂_same]
  intro line hmem
  obtain ⟨header, hheader⟩ := h line hmem
  rwa [hheader.headerOf]

lemma parse_good_parts {parser : RequestParser} {n : ℕ} (h : HeadKept w)
    (hparse : RequestParser.parse .reset w = (parser, .good, n)) :
    ∃ line rest method target version headers, lines w = line :: rest ∧ RequestLine line method target version ∧
      [] ∈ rest ∧ List.Forall₂ HeaderLine (headerLines rest) headers ∧
      parser.req.method = Request.stringToMethod method ∧ Target target parser.req.path parser.req.query ∧
      parser.req.version = Request.stringToVersion version ∧ parser.req.headers = KeyedList.emplaceAll [] headers := by
  have hresult : (RequestParser.parse .reset w).2.1 = .good := congrArg (fun out => out.2.1) hparse
  cases hlines : lines w with
  | nil =>
    rw [parse_lines_nil hlines] at hresult
    cases hresult
  | cons line rest =>
    have hnotbad : ¬ (Request.stringToVersion (thirdWord line) = .unknown ∧ line.length + 2 ≤ kHttpMaxSize) := by
      rw [← parse_bad_iff hlines, hresult]
      exact nofun
    obtain ⟨⟨method, target, version, hgrammar⟩, hheaders⟩ := (h line rest hlines).resolve_left hnotbad
    obtain ⟨tail, hw, hline, hrest⟩ := of_lines_cons hlines
    obtain ⟨hlong, hshort⟩ := view_line hw hline
    have hle : line.length + 2 ≤ kHttpMaxSize := by
      by_contra hlt
      rw [parse_short (hshort (Nat.not_le.mp hlt))] at hresult
      cases hresult
    obtain ⟨tail', hview, later, hlater⟩ := hlong hle
    have hversion : Request.stringToVersion (thirdWord line) ≠ .unknown := by
      rw [hgrammar.words.2.2]
      exact hgrammar.version
    obtain ⟨headers, after, htail, hvalid, hreq⟩ := (parse_known hview hline hversion hparse).2 rfl
    -- the lines after the first are the headers, the empty line and others
    have hsplit : rest = headers ++ [] :: lines (after ++ later) := by
      have hempty : lines (crlf ++ (after ++ later)) = [] :: lines (after ++ later) :=
        @lines_line [] rfl (after ++ later)
      rw [hrest, ← hlater, htail, List.append_assoc, List.append_assoc,
        lines_append (fun line hmem => (hvalid line hmem).2), hempty]
    have hheader : headerLines rest = headers := by
      rw [hsplit, headerLines_append fun line hmem => (hvalid line hmem).1]
    rw [hheader] at hheaders
    obtain ⟨hmethod, htarget, hversion', hnil⟩ := hgrammar.lineRequest
    refine ⟨line, rest, method, target, version, headers.map headerOf, rfl, hgrammar, ?_, ?_, ?_, ?_, ?_, ?_⟩
    · rw [hsplit]
      exact List.mem_append_right _ List.mem_cons_self
    · rw [hheader]
      exact forall₂_headerOf hheaders
    · rw [hreq]
      exact hmethod
    · rw [hreq]
      exact htarget
    · rw [hreq]
      exact hversion'
    · rw [hreq, ← hnil]

end Accepts

theorem acceptsGrammar_iff (w : Bytes) : AcceptsGrammar w ↔ HeadKept w := by
  constructor
  · intro h line rest hlines
    by_cases hbad : (RequestParser.parse .reset w).2.1 = .bad
    · exact .inl ((parse_bad_iff hlines).mp hbad)
    · refine .inr ⟨?_, fun line' hmem => ?_⟩
      · by_contra hnot
        exact hbad (h.first line rest hlines hnot)
      · by_contra hnot
        exact hbad (h.header line rest hlines line' hmem hnot)
  · intro h
    refine ⟨fun parser n => parse_good_parts h, fun line rest hlines hnot => ?_, fun line rest hlines line' hmem hnot => ?_⟩
    · exact (parse_bad_iff hlines).mpr ((h line rest hlines).resolve_right fun hboth => hnot hboth.1)
    · exact (parse_bad_iff hlines).mpr ((h line rest hlines).resolve_right fun hboth => hnot (hboth.2 line' hmem))

theorem version_alone_not_refused : ¬ ∀ w, AcceptsGrammar w := by
  intro h
  have hlines : lines (text "HTTP/1.1" ++ (crlf ++ (crlf ++ []))) = [text "HTTP/1.1", []] := by
    have hempty : lines (crlf ++ []) = [] :: lines [] := @lines_line [] rfl []
    have hnil : lines [] = [] := lines_none rfl
    rw [lines_line (by decide), hempty, hnil]
  have hword : word (text "HTTP/1.1") = text "HTTP/1.1" := word_of_notMem (by decide)
  have hnot : ¬ ∃ method target version, RequestLine (text "HTTP/1.1") method target version := by
    rintro ⟨method, target, version, hline⟩
    apply hline.method
    rw [← hline.words.1, hword]
    decide
  have hbad := (parse_bad_iff hlines).mp ((h _).first _ _ hlines hnot)
  exact absurd hbad.1 (by decide)

end TonyCat.Http
