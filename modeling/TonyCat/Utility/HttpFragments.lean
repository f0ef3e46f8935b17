import TonyCat.Utility.HttpGrammar

set_option autoImplicit false

/-! A text in chunks: which texts the parser reads the same however they are cut, and which cuts it reads the
same. -/

namespace TonyCat.Http

open TonyCat.Library RequestParser

namespace RequestParser

def parseChunks (parser : RequestParser) : List Bytes → RequestParser × ResultType
  | [] => (parser, .indeterminate)
  | chunk :: chunks =>
    match parser.parse chunk with
    | (parser, .indeterminate, _) => parseChunks parser chunks
    | (parser, result, _) => (parser, result)

def outcome (out : RequestParser × ResultType) : ResultType × Option Request :=
  (out.2, if out.2 = .good then some out.1.req else none)

section Chunks

variable {parser parser' : RequestParser} {chunk : Bytes} {chunks : List Bytes} {n : ℕ}

lemma parseChunks_indeterminate (h : parser.parse chunk = (parser', .indeterminate, n)) :
    parser.parseChunks (chunk :: chunks) = parser'.parseChunks chunks := by
  rw [parseChunks, h]

lemma parseChunks_good (h : parser.parse chunk = (parser', .good, n)) :
    parser.parseChunks (chunk :: chunks) = (parser', .good) := by
  rw [parseChunks, h]

lemma parseChunks_bad (h : parser.parse chunk = (parser', .bad, n)) :
    parser.parseChunks (chunk :: chunks) = (parser', .bad) := by
  rw [parseChunks, h]

lemma outcome_good (parser : RequestParser) : outcome (parser, .good) = (.good, some parser.req) := rfl

lemma outcome_bad (parser : RequestParser) : outcome (parser, .bad) = (.bad, none) := rfl

end Chunks

/-! ### Chunks that are not decided -/

section Quiet

variable {readLength : ℕ}

lemma parseLines_none {request : Bytes} (hnone : findSlice crlf request = none) (data : Bytes)
    (parser : RequestParser) :
    parseLines data parser request = (parser, .ok request) := by
  rw [parseLines]
  split
  · rfl
  · split
    case h_1 => rfl
    case h_2 pos hpos =>
      rw [hnone] at hpos
      cases hpos

lemma parse_quiet (bare : RequestParser) (hrun : bare.running = true) (readingLine : Bytes) {data : Bytes}
    (hlimit : readLength < kHttpMaxSize) (hnone : findSlice crlf (view readLength data) = none) :
    (bare.holding readingLine readLength).parse data =
      (bare.holding (readingLine ++ view readLength data) (readLength + (view readLength data).length), .indeterminate,
        (view readLength data).length) := by
  rw [running, Bool.not_eq_true'] at hrun
  obtain ⟨hdone, hbody⟩ := Bool.or_eq_false_iff.mp hrun
  have hdone' : (bare.holding readingLine readLength).onDone = false := hdone
  have hbody' : (bare.holding readingLine readLength).onReadBody = false := hbody
  have hloop := parseLines_none hnone data (bare.holding readingLine readLength)
  have hunder : ¬ (bare.holding readingLine readLength).readLength ≥ kHttpMaxSize := Nat.not_le.mpr hlimit
  rw [parse, if_neg hunder]
  simp only [view_length]
  simp only [view, holding] at hloop hdone' hbody' ⊢
  rw [hloop]
  simp only [hdone', hbody', Bool.false_eq_true, if_false, parseRest]

lemma parseChunks_singles (bare : RequestParser) (hrun : bare.running = true) (readingLine bs : Bytes)
    (hlimit : readLength + bs.length ≤ kHttpMaxSize) (chunks : List Bytes) :
    (bare.holding readingLine readLength).parseChunks (bs.map (fun b => [b]) ++ chunks) =
      (bare.holding (readingLine ++ bs) (readLength + bs.length)).parseChunks chunks := by
  induction bs generalizing readingLine readLength with
  | nil => rw [List.map_nil, List.nil_append, List.append_nil, List.length_nil, Nat.add_zero]
  | cons b bs ih =>
    rw [List.length_cons] at hlimit
    have hview : view readLength [b] = [b] := view_eq (by rw [List.length_singleton]; omega)
    have hquiet := parse_quiet bare hrun readingLine (show readLength < kHttpMaxSize by omega)
      (by rw [hview]; simp [findSlice, crlf])
    rw [hview] at hquiet
    rw [List.map_cons, List.cons_append, parseChunks_indeterminate hquiet, ih _ (by rw [List.length_singleton]; omega),
      List.append_assoc, List.singleton_append, List.length_singleton, List.length_cons, Nat.add_assoc,
      Nat.add_comm 1]

end Quiet

end RequestParser

structure Undecided (w : Bytes) : Prop where
  length_lt : w.length < kHttpMaxSize
  version : ∀ line tail, w = line ++ (crlf ++ tail) → Request.stringToVersion (thirdWord line) ≠ .unknown
  no_empty : ∀ before tail, w ≠ before ++ (crlf ++ (crlf ++ tail))

/-- Of the bytes `seen` the parser keeps the last ones, which follow a line end it has found. -/
def Open (seen : Bytes) (bare : RequestParser) (readingLine : Bytes) : Prop :=
  bare = .reset ∧ seen = readingLine ∨
    bare.state = .httpHeader ∧ ∃ front, seen = front ++ (crlf ++ readingLine)

section Undecided

variable {w seen readingLine data request : Bytes} {bare : RequestParser}

lemma Open.running (h : Open seen bare readingLine) : bare.running = true := by
  obtain ⟨rfl, -⟩ | ⟨hstate, -⟩ := h
  · rfl
  · simp [RequestParser.running, onDone, onReadBody, hstate]

lemma Open.append (h : Open seen bare readingLine) (data : Bytes) : Open (seen ++ data) bare (readingLine ++ data) := by
  obtain ⟨hreset, rfl⟩ | ⟨hstate, front, rfl⟩ := h
  · exact .inl ⟨hreset, rfl⟩
  · exact .inr ⟨hstate, front, by rw [List.append_assoc, List.append_assoc]⟩

lemma Undecided.reads (hw : Undecided w) (h : Open seen bare readingLine) {piece tail : Bytes}
    (heq : w = seen ++ (piece ++ (crlf ++ tail))) :
    ∃ bare', ReadsLine bare (readingLine ++ piece) bare' ∧ bare'.state = .httpHeader := by
  obtain ⟨rfl, rfl⟩ | ⟨hstate, front, rfl⟩ := h
  · have hversion := hw.version (seen ++ piece) tail (by rw [heq, List.append_assoc])
    exact ⟨_, ⟨rfl, by rw [parseLine_reset, if_neg hversion]⟩, rfl⟩
  · have hne : readingLine ++ piece ≠ [] := by
      intro hnil
      obtain ⟨rfl, rfl⟩ := List.append_eq_nil_iff.mp hnil
      apply hw.no_empty front tail
      rw [heq, List.append_nil, List.nil_append, List.append_assoc]
    refine ⟨{ bare with req := { bare.req with
      headers := KeyedList.emplace bare.req.headers (headerOf (readingLine ++ piece)).1
        (headerOf (readingLine ++ piece)).2 } }, ⟨?_, ?_⟩, hstate⟩
    · simp [onDone, onReadBody, hstate]
    · simp only [parseLine, hstate, if_neg hne]
      rfl

lemma Undecided.parseLines_open (hw : Undecided w) (h : Open seen bare readingLine) (hpre : seen ++ request <+: w)
    (hdata : readingLine ≠ [] → request <+: data) (readLength : ℕ) :
    ∃ seen' bare' readingLine' rest, parseLines data (bare.holding readingLine readLength) request =
        (bare'.holding readingLine' readLength, .ok rest) ∧ Open seen' bare' readingLine' ∧
      seen' ++ rest = seen ++ request := by
  induction hsize : request.length using Nat.strongRecOn generalizing seen bare readingLine request with
  | ind size ih =>
    cases hpos : findSlice crlf request with
    | none => exact ⟨seen, bare, readingLine, request, parseLines_none hpos data _, h, rfl⟩
    | some pos =>
      have hsplit := findSlice_eq_some hpos
      have hfit := findSlice_add_le hpos
      have hsep : crlf.length = 2 := rfl
      obtain ⟨later, hlater⟩ := hpre
      have heq : w = seen ++ (request.take pos ++ (crlf ++ (request.drop (pos + 2) ++ later))) := by
        rw [← hlater, List.append_assoc]
        congr 1
        conv_lhs => rw [hsplit]
        simp only [List.append_assoc, hsep]
      obtain ⟨bare', hline, hstate⟩ := hw.reads h heq
      have hseen : seen ++ request.take pos ++ (crlf ++ []) ++ request.drop (pos + 2) = seen ++ request := by
        conv_rhs => rw [hsplit]
        simp only [List.append_assoc, List.append_nil, hsep]
      have hnext : Open (seen ++ request.take pos ++ (crlf ++ [])) bare' [] := .inr ⟨hstate, _, rfl⟩
      have hless : (request.drop (pos + 2)).length < size := by
        rw [List.length_drop]
        omega
      obtain ⟨seen', bare₁, readingLine', rest, hloop, hopen, hrest⟩ := ih (request.drop (pos + 2)).length hless hnext
        (hseen ▸ ⟨later, hlater⟩) (fun hne => absurd rfl hne) rfl
      refine ⟨seen', bare₁, readingLine', rest, ?_, hopen, hrest.trans hseen⟩
      rw [parseLines_step hline hpos rfl hdata]
      exact hloop

lemma Undecided.parse_open (hw : Undecided w) (h : Open seen bare readingLine) (hpre : seen ++ data <+: w) :
    ∃ bare' readingLine', (bare.holding readingLine seen.length).parse data =
        (bare'.holding readingLine' (seen ++ data).length, .indeterminate, data.length) ∧
      Open (seen ++ data) bare' readingLine' := by
  have hlt := hw.length_lt
  have hle := hpre.length_le
  rw [List.length_append] at hle
  obtain ⟨seen', bare', readingLine', rest, hloop, hopen, hrest⟩ := hw.parseLines_open h hpre
    (fun _ => (List.prefix_rfl : data <+: data)) seen.length
  have hopen' := hopen.append rest
  rw [hrest] at hopen'
  refine ⟨bare', readingLine' ++ rest, ?_, hopen'⟩
  have hrun := hopen.running
  rw [RequestParser.running, Bool.not_eq_true'] at hrun
  obtain ⟨hdone, hbody⟩ := Bool.or_eq_false_iff.mp hrun
  have hdone' : (bare'.holding readingLine' seen.length).onDone = false := hdone
  have hbody' : (bare'.holding readingLine' seen.length).onReadBody = false := hbody
  have hunder : ¬ (bare.holding readingLine seen.length).readLength ≥ kHttpMaxSize := by
    change ¬ seen.length ≥ kHttpMaxSize
    omega
  have hmin : min data.length (kHttpMaxSize - seen.length) = data.length := by omega
  rw [parse, if_neg hunder]
  simp only [holding] at hloop hdone' hbody' ⊢
  rw [hmin, List.take_length, hloop]
  simp only [hdone', hbody', Bool.false_eq_true, if_false, parseRest, List.length_append]

lemma Undecided.parseChunks (hw : Undecided w) (chunks : List Bytes) (h : Open seen bare readingLine)
    (heq : seen ++ chunks.flatten = w) :
    outcome ((bare.holding readingLine seen.length).parseChunks chunks) = (.indeterminate, none) := by
  induction chunks generalizing seen bare readingLine with
  | nil => rfl
  | cons chunk chunks ih =>
    rw [List.flatten_cons, ← List.append_assoc] at heq
    obtain ⟨bare', readingLine', hparse, hopen⟩ := hw.parse_open h (heq ▸ List.prefix_append _ _)
    rw [parseChunks_indeterminate hparse]
    exact ih hopen heq

end Undecided

/-! ### Cuts that disagree -/

section Disagree

variable {w : Bytes}

lemma parse_of_refused {parser parser' : RequestParser} {data : Bytes} {pos : ℕ}
    (hlimit : parser.readLength + data.length ≤ kHttpMaxSize) (hpos : 0 < data.length)
    (hloop : parseLines data parser data = (parser', .error pos)) : parser.parse data = (parser', .bad, pos) := by
  have hview : data.take (min data.length (kHttpMaxSize - parser.readLength)) = data := view_eq hlimit
  rw [parse, if_neg (by omega)]
  simp only [hview, hloop]

lemma parse_of_done {parser parser' : RequestParser} {data rest : Bytes}
    (hlimit : parser.readLength + data.length ≤ kHttpMaxSize) (hpos : 0 < data.length)
    (hloop : parseLines data parser data = (parser', .ok rest)) (hdone : parser'.state = .finish) :
    ∃ parser₁ n, parser.parse data = (parser₁, .good, n) := by
  have hbody : parser'.onReadBody = false := by simp [onReadBody, hdone]
  have hdone' : parser'.onDone = true := decide_eq_true hdone
  have hview : data.take (min data.length (kHttpMaxSize - parser.readLength)) = data := view_eq hlimit
  rw [parse, if_neg (by omega)]
  simp only [hview, hloop, hbody, Bool.false_eq_true, if_false, parseRest, hdone', if_true]
  exact ⟨_, _, rfl⟩

lemma flatten_singles (bs : Bytes) (chunks : List Bytes) :
    (bs.map (fun b => [b]) ++ chunks).flatten = bs ++ chunks.flatten := by
  rw [List.flatten_append, ← List.flatMap_def, List.flatMap_singleton']

lemma reset_singles (bs : Bytes) (hle : bs.length ≤ kHttpMaxSize) (chunks : List Bytes) :
    RequestParser.reset.parseChunks (bs.map (fun b => [b]) ++ chunks) =
      (RequestParser.reset.holding bs bs.length).parseChunks chunks := by
  have hsingles := parseChunks_singles .reset rfl [] bs (Nat.zero_add bs.length ▸ hle) chunks
  rw [List.nil_append, Nat.zero_add] at hsingles
  exact hsingles

def Agree (w : Bytes) : Prop := ∀ cs cs' : List Bytes, cs.flatten = w → cs'.flatten = w →
  outcome (RequestParser.reset.parseChunks cs) = outcome (RequestParser.reset.parseChunks cs')

lemma Agree.length_lt (h : Agree w) : w.length < kHttpMaxSize := by
  by_contra hge
  rw [Nat.not_lt] at hge
  have hpos : 0 < kHttpMaxSize := by
    rw [kHttpMaxSize]
    omega
  have hwhole := h ((w.take kHttpMaxSize).map (fun b => [b]) ++ [w.drop kHttpMaxSize])
    ((w.take (kHttpMaxSize - 1)).map (fun b => [b]) ++ [w.drop (kHttpMaxSize - 1)])
    (by rw [flatten_singles, List.flatten_singleton, List.take_append_drop])
    (by rw [flatten_singles, List.flatten_singleton, List.take_append_drop])
  have hfull : (w.take kHttpMaxSize).length = kHttpMaxSize := by
    rw [List.length_take]
    omega
  have hless : (w.take (kHttpMaxSize - 1)).length = kHttpMaxSize - 1 := by
    rw [List.length_take]
    omega
  have hbad : (RequestParser.reset.holding (w.take kHttpMaxSize) kHttpMaxSize).parse (w.drop kHttpMaxSize) =
      (RequestParser.reset.holding (w.take kHttpMaxSize) kHttpMaxSize, .bad, (w.drop kHttpMaxSize).length) :=
    if_pos (Nat.le_refl _)
  have hnone : findSlice crlf (view (kHttpMaxSize - 1) (w.drop (kHttpMaxSize - 1))) = none := by
    cases hfind : findSlice crlf (view (kHttpMaxSize - 1) (w.drop (kHttpMaxSize - 1))) with
    | none => rfl
    | some pos =>
      have hfit := findSlice_add_le hfind
      have hsep : crlf.length = 2 := rfl
      rw [view_length] at hfit
      omega
  have hmore := parse_quiet .reset rfl (w.take (kHttpMaxSize - 1)) (by omega) hnone
  rw [reset_singles _ (by omega), reset_singles _ (by omega), hfull, hless, parseChunks_bad hbad,
    parseChunks_indeterminate hmore] at hwhole
  cases hwhole

lemma Agree.indeterminate (h : Agree w) (cs : List Bytes) (hcs : cs.flatten = w) :
    outcome (RequestParser.reset.parseChunks cs) = (.indeterminate, none) := by
  have hsingles : (w.map (fun b => [b]) ++ []).flatten = w := by
    rw [flatten_singles, List.flatten_nil, List.append_nil]
  rw [h cs _ hcs hsingles, reset_singles w (le_of_lt h.length_lt)]
  rfl

lemma Agree.version (h : Agree w) {line tail : Bytes} (heq : w = line ++ (crlf ++ tail)) :
    Request.stringToVersion (thirdWord line) ≠ .unknown := by
  intro hversion
  have hlt := h.length_lt
  have hlen : line.length + 2 ≤ w.length := by
    rw [heq, List.length_append, List.length_append]
    change line.length + 2 ≤ line.length + (2 + tail.length)
    omega
  have hout := h.indeterminate (line.map (fun b => [b]) ++ [crlf, tail]) (by
    rw [flatten_singles, heq]
    simp)
  have hrefused : (RequestParser.reset.parseLine line).2 = false := by rw [parseLine_reset, if_pos hversion]
  obtain ⟨parser', hloop⟩ := parseLines_refused rfl hrefused (rfl : findSlice crlf crlf = some 0) (List.append_nil line)
    (fun _ => (List.prefix_rfl : crlf <+: crlf)) line.length
  have hbad := parse_of_refused (show line.length + 2 ≤ kHttpMaxSize by omega) (show 0 < crlf.length by decide) hloop
  rw [reset_singles line (by omega), parseChunks_bad hbad] at hout
  cases hout

lemma Agree.no_empty (h : Agree w) {line tail : Bytes} : w ≠ line ++ (crlf ++ (crlf ++ tail)) := by
  intro heq
  have hversion := h.version heq
  have hlt := h.length_lt
  have hlen : line.length + 4 ≤ w.length := by
    rw [heq, List.length_append, List.length_append, List.length_append]
    change line.length + 4 ≤ line.length + (2 + (2 + tail.length))
    omega
  have hout := h.indeterminate (line.map (fun b => [b]) ++ [crlf ++ crlf, tail]) (by
    rw [flatten_singles, heq]
    simp)
  have hfirst : ReadsLine .reset line { req := lineRequest line, state := .httpHeader } :=
    ⟨rfl, by rw [parseLine_reset, if_neg hversion]⟩
  have hheaders : (lineRequest line).headers = [] := by
    rw [lineRequest, Request.loadPathAndQuery]
    split <;> rfl
  have hlast : ReadsLine { req := lineRequest line, state := .httpHeader } []
      { req := lineRequest line, state := .finish } := by
    refine ⟨rfl, ?_⟩
    simp only [parseLine, if_true, hheaders, List.lookup_nil]
  have hprefix : crlf ++ crlf <+: crlf ++ crlf := List.prefix_rfl
  have hloop : parseLines (crlf ++ crlf) (RequestParser.reset.holding line line.length) (crlf ++ crlf) =
      parseLines (crlf ++ crlf) (RequestParser.holding { req := lineRequest line, state := .httpHeader } [] line.length)
        crlf :=
    parseLines_step hfirst (rfl : findSlice crlf (crlf ++ crlf) = some 0) (List.append_nil line) fun _ => hprefix
  have hnext : parseLines (crlf ++ crlf)
      (RequestParser.holding { req := lineRequest line, state := .httpHeader } [] line.length) crlf =
        (RequestParser.holding { req := lineRequest line, state := .finish } [] line.length, .ok []) := by
    rw [parseLines_step hlast (rfl : findSlice crlf crlf = some 0) (List.append_nil []) fun hne => absurd rfl hne]
    exact parseLines_none rfl _ _
  obtain ⟨parser', n, hgood⟩ := parse_of_done (show line.length + 4 ≤ kHttpMaxSize by omega)
    (show 0 < (crlf ++ crlf).length by decide) (hloop.trans hnext) rfl
  rw [reset_singles line (by omega), parseChunks_good hgood] at hout
  cases hout

end Disagree

/-! ### Cuts that keep line ends whole -/

structure KeepsLineEnds (chunks : List Bytes) : Prop where
  nonempty : ∀ chunk ∈ chunks, chunk ≠ []
  whole : ∀ before after, chunks = before ++ after → before.flatten.getLast? ≠ some 13 ∨ after.flatten.head? ≠ some 10

def scanned (w : Bytes) : ResultType × Option Request :=
  match RequestParser.reset.scanLines w with
  | (_, none) => (.bad, none)
  | (parser, some rest) =>
    match parser.state with
    | .finish => (.good, some parser.req)
    | .httpContext =>
      if rest = [] ∨ rest.length < parser.needReadCount then
        (.indeterminate, none)
      else
        (.good, some { parser.req with content := parser.req.content ++ rest.take parser.needReadCount })
    | _ => (.indeterminate, none)

section Body

variable {parser : RequestParser} {data : Bytes}

lemma parse_inBody (hbody : parser.state = .httpContext) (hlimit : parser.readLength + data.length ≤ kHttpMaxSize)
    (hne : data ≠ []) : parser.parse data =
      if (parser.parseBody data).2 ≥ data.length then
        ({ (parser.parseBody data).1 with readLength := parser.readLength + data.length }, .indeterminate, data.length)
      else
        (parser.parseBody data).1.parseRest data.length (data.drop (parser.parseBody data).2) := by
  have hpos := List.length_pos_of_ne_nil hne
  have hread : parser.onReadBody = true := decide_eq_true hbody
  have hmin : min data.length (kHttpMaxSize - parser.readLength) = data.length := by omega
  have hloop : parseLines data parser data = (parser, .ok data) := by
    rw [parseLines, hread, Bool.or_true, if_pos rfl]
  have hkept : (parser.parseBody data).1.readLength = parser.readLength := by
    rw [parseBody]
    split <;> rfl
  rw [parse, if_neg (by omega)]
  simp only [hmin, List.take_length, hloop, hread, if_true, hkept]

lemma parse_inBody_whole (hbody : parser.state = .httpContext)
    (hlimit : parser.readLength + data.length ≤ kHttpMaxSize) (hne : data ≠ [])
    (hwhole : parser.needReadCount ≤ data.length) : ∃ parser' n, parser.parse data = (parser', .good, n) ∧
      parser'.req = { parser.req with content := parser.req.content ++ data.take parser.needReadCount } := by
  have hpos := List.length_pos_of_ne_nil hne
  rw [parse_inBody hbody hlimit hne, parseBody_whole hwhole, if_neg (by simpa using hne), List.drop_zero]
  exact ⟨_, _, if_pos rfl, rfl⟩

lemma parse_inBody_part (hbody : parser.state = .httpContext)
    (hlimit : parser.readLength + data.length ≤ kHttpMaxSize) (hne : data ≠ [])
    (hpart : data.length < parser.needReadCount) : ∃ readingLine, parser.parse data =
      ((parser.withContent (parser.req.content ++ data)).holding readingLine (parser.readLength + data.length),
        .indeterminate, data.length) := by
  have hgo : (parser.withContent (parser.req.content ++ data)).onDone = false := by
    simp [onDone, withContent, hbody]
  rw [parse_inBody hbody hlimit hne, parseBody_part hpart]
  split
  case isTrue => exact ⟨parser.readingLine, rfl⟩
  case isFalse =>
    rw [parseRest, hgo, if_neg Bool.false_ne_true]
    exact ⟨_, rfl⟩

lemma parse_done (data : Bytes) (hdone : parser.state = .finish) (hlimit : parser.readLength < kHttpMaxSize) :
    ∃ parser' n, parser.parse data = (parser', .good, n) ∧ parser'.req = parser.req := by
  have hdone' : parser.onDone = true := decide_eq_true hdone
  have hbody : parser.onReadBody = false := by simp [onReadBody, hdone]
  have hloop : ∀ request, parseLines data parser request = (parser, .ok request) := by
    intro request
    rw [parseLines, hdone', Bool.true_or, if_pos rfl]
  rw [parse, if_neg (Nat.not_le.mpr hlimit)]
  simp only [hloop, hbody, Bool.false_eq_true, if_false, parseRest, hdone', if_true]
  exact ⟨_, _, rfl, rfl⟩

end Body

inductive Reached (seen : Bytes) : RequestParser → Prop
  | running {bare : RequestParser} {rest : Bytes} (hscan : RequestParser.reset.scanLines seen = (bare, some rest))
    (hrun : bare.running = true) : Reached seen (bare.holding rest seen.length)
  | body {bare : RequestParser} {rest : Bytes} (hscan : RequestParser.reset.scanLines seen = (bare, some rest))
    (hbody : bare.state = .httpContext) (hpart : rest.length < bare.needReadCount) (readingLine : Bytes) :
    Reached seen ((bare.withContent (bare.req.content ++ rest)).holding readingLine seen.length)
  | emptyBody {bare : RequestParser} (hscan : RequestParser.reset.scanLines seen = (bare, some []))
    (hbody : bare.state = .httpContext) (hzero : bare.needReadCount = 0) :
    Reached seen ({ bare with state := .finish }.holding [] seen.length)

section Reached

variable {seen chunk : Bytes} {parser : RequestParser}

lemma scanned_running {bare : RequestParser} {rest : Bytes}
    (hscan : RequestParser.reset.scanLines seen = (bare, some rest)) (hrun : bare.running = true) :
    scanned seen = (.indeterminate, none) := by
  rw [scanned, hscan]
  cases hstate : bare.state with
  | methodUriVersion => simp only [hstate]
  | httpHeader => simp only [hstate]
  | httpContext => simp [RequestParser.running, onReadBody, hstate] at hrun
  | finish => simp [RequestParser.running, onDone, hstate] at hrun

lemma scanned_finish {bare : RequestParser} {rest : Bytes}
    (hscan : RequestParser.reset.scanLines seen = (bare, some rest)) (hdone : bare.state = .finish) :
    scanned seen = (.good, some bare.req) := by
  rw [scanned, hscan]
  simp only [hdone]

lemma scanned_body {bare : RequestParser} {rest : Bytes}
    (hscan : RequestParser.reset.scanLines seen = (bare, some rest)) (hbody : bare.state = .httpContext) :
    scanned seen = if rest = [] ∨ rest.length < bare.needReadCount then (.indeterminate, none)
      else (.good, some { bare.req with content := bare.req.content ++ rest.take bare.needReadCount }) := by
  rw [scanned, hscan]
  simp only [hbody]

lemma scanned_refused {bare : RequestParser} (hscan : RequestParser.reset.scanLines seen = (bare, none)) :
    scanned seen = (.bad, none) := by
  rw [scanned, hscan]

lemma Reached.scanned (h : Reached seen parser) : scanned seen = (.indeterminate, none) := by
  cases h with
  | running hscan hrun => exact scanned_running hscan hrun
  | body hscan hbody hpart => rw [scanned_body hscan hbody, if_pos (.inr hpart)]
  | emptyBody hscan hbody => rw [scanned_body hscan hbody, if_pos (.inl rfl)]

lemma scanned_append (h : (Http.scanned seen).1 ≠ .indeterminate) (data : Bytes) :
    Http.scanned (seen ++ data) = Http.scanned seen := by
  have hmore := scanLines_append .reset seen data
  cases hscan : RequestParser.reset.scanLines seen with
  | mk bare out =>
    rw [hscan] at hmore
    cases out with
    | none => rw [scanned_refused hscan, scanned_refused hmore]
    | some rest =>
      cases hrun : bare.running with
      | true =>
        rw [scanned_running hscan hrun] at h
        exact absurd rfl h
      | false =>
        simp only at hmore
        rw [scanLines_stopped hrun] at hmore
        cases hstate : bare.state with
        | methodUriVersion => simp [RequestParser.running, onDone, onReadBody, hstate] at hrun
        | httpHeader => simp [RequestParser.running, onDone, onReadBody, hstate] at hrun
        | finish => rw [scanned_finish hscan hstate, scanned_finish hmore hstate]
        | httpContext =>
          rw [scanned_body hscan hstate] at h ⊢
          split at h
          case isTrue => exact absurd rfl h
          case isFalse hwhole =>
            obtain ⟨hne, hlen⟩ := not_or.mp hwhole
            rw [scanned_body hmore hstate, if_neg hwhole, if_neg, List.take_append_of_le_length (Nat.not_lt.mp hlen)]
            rw [List.append_eq_nil_iff, List.length_append]
            rintro (hnil | hlt)
            · exact hne hnil.1
            · omega

def Answers (parser : RequestParser) (chunk : Bytes) (seen : Bytes) : Prop :=
  (∃ parser' n, parser.parse chunk = (parser', .indeterminate, n) ∧ Reached seen parser') ∨
    ∃ parser' result n, parser.parse chunk = (parser', result, n) ∧ result ≠ .indeterminate ∧
      outcome (parser', result) = Http.scanned seen

lemma Answers.good {parser' : RequestParser} {n : ℕ} (hparse : parser.parse chunk = (parser', .good, n)) {req : Request}
    (hscanned : Http.scanned seen = (.good, some req)) (hreq : parser'.req = req) : Answers parser chunk seen := by
  refine .inr ⟨parser', .good, n, hparse, nofun, ?_⟩
  rw [hscanned, outcome_good, hreq]

lemma answers_running {bare : RequestParser} {rest : Bytes}
    (hscan : RequestParser.reset.scanLines seen = (bare, some rest)) (hrun : bare.running = true)
    (hlimit : seen.length + chunk.length ≤ kHttpMaxSize) (hne : chunk ≠ [])
    (hcut : seen.getLast? ≠ some 13 ∨ chunk.head? ≠ some 10) :
    Answers (bare.holding rest seen.length) chunk (seen ++ chunk) := by
  have hpos := List.length_pos_of_ne_nil hne
  have hview : view seen.length chunk = chunk := view_eq hlimit
  have hlen : (seen ++ chunk).length = seen.length + chunk.length := List.length_append
  have hreceives : Receives bare rest chunk seen.length := by
    refine ⟨scanLines_rest hscan hrun, hcut.imp_left fun hlast hrest => hlast ?_, .inl hrun, by omega⟩
    obtain ⟨front, rfl⟩ := scanLines_suffix hscan
    rw [List.getLast?_append, hrest]
    rfl
  have hmore := scanLines_append .reset seen chunk
  rw [hscan] at hmore
  simp only at hmore
  cases hout : bare.scanLines (rest ++ chunk) with
  | mk parser out =>
    rw [hout] at hmore
    rw [← hview] at hout
    cases out with
    | none =>
      obtain ⟨parser', pos, hbad⟩ := hreceives.parse_refused hout
      refine .inr ⟨parser', .bad, pos, hbad, nofun, ?_⟩
      rw [scanned_refused hmore, outcome_bad]
    | some rest' =>
      cases hstate : parser.state with
      | methodUriVersion =>
        have hrun' : parser.running = true := by simp [RequestParser.running, onDone, onReadBody, hstate]
        refine .inl ⟨_, _, hreceives.parse_running hout hrun', ?_⟩
        rw [hview, ← hlen]
        exact .running hmore hrun'
      | httpHeader =>
        have hrun' : parser.running = true := by simp [RequestParser.running, onDone, onReadBody, hstate]
        refine .inl ⟨_, _, hreceives.parse_running hout hrun', ?_⟩
        rw [hview, ← hlen]
        exact .running hmore hrun'
      | finish =>
        obtain ⟨n, hgood⟩ := hreceives.parse_finished hout hstate
        exact .good hgood (scanned_finish hmore hstate) rfl
      | httpContext =>
        obtain hpart | hwhole := Nat.lt_or_ge rest'.length parser.needReadCount
        · obtain ⟨readingLine', hparse⟩ := hreceives.parse_bodyPart hout hstate hpart
          refine .inl ⟨_, _, hparse, ?_⟩
          rw [hview, ← hlen]
          exact .body hmore hstate hpart readingLine'
        · by_cases hnil : rest' = []
          · subst hnil
            refine .inl ⟨_, _, hreceives.parse_emptyBody hout hstate (Nat.le_zero.mp hwhole), ?_⟩
            rw [hview, ← hlen]
            exact .emptyBody hmore hstate (Nat.le_zero.mp hwhole)
          · obtain ⟨parser', hgood, hreq⟩ := hreceives.parse_body hout hstate hwhole hnil
            refine .good hgood ?_ hreq
            rw [scanned_body hmore hstate, if_neg]
            exact not_or.mpr ⟨hnil, Nat.not_lt.mpr hwhole⟩

lemma answers_body {bare : RequestParser} {rest : Bytes}
    (hscan : RequestParser.reset.scanLines seen = (bare, some rest)) (hbody : bare.state = .httpContext)
    (hpart : rest.length < bare.needReadCount) (readingLine : Bytes)
    (hlimit : seen.length + chunk.length ≤ kHttpMaxSize) (hne : chunk ≠ []) :
    Answers ((bare.withContent (bare.req.content ++ rest)).holding readingLine seen.length) chunk (seen ++ chunk) := by
  have hlen : (seen ++ chunk).length = seen.length + chunk.length := List.length_append
  have hstop : bare.running = false := by simp [RequestParser.running, onReadBody, hbody]
  have hmore := scanLines_append .reset seen chunk
  rw [hscan] at hmore
  simp only at hmore
  rw [scanLines_stopped hstop] at hmore
  have hbody' : ((bare.withContent (bare.req.content ++ rest)).holding readingLine seen.length).state = .httpContext :=
    hbody
  have hneed : ((bare.withContent (bare.req.content ++ rest)).holding readingLine seen.length).needReadCount =
      bare.needReadCount - rest.length := by
    change bare.contentLength - (bare.req.content ++ rest).length = bare.contentLength - bare.req.content.length - _
    rw [List.length_append, Nat.sub_sub]
  obtain hless | hwhole := Nat.lt_or_ge chunk.length (bare.needReadCount - rest.length)
  · obtain ⟨readingLine', hparse⟩ := parse_inBody_part hbody' hlimit hne (hneed ▸ hless)
    refine .inl ⟨_, _, hparse, ?_⟩
    have hcontent : (bare.req.content ++ rest) ++ chunk = bare.req.content ++ (rest ++ chunk) := List.append_assoc ..
    have hnext := Reached.body hmore hbody (by rw [List.length_append]; omega) readingLine'
    rw [hlen, ← hcontent] at hnext
    exact hnext
  · obtain ⟨parser', n, hgood, hreq⟩ := parse_inBody_whole hbody' hlimit hne (hneed ▸ hwhole)
    refine .good hgood ?_ hreq
    rw [scanned_body hmore hbody, if_neg, hneed, List.take_append, List.take_of_length_le (le_of_lt hpart),
      ← List.append_assoc]
    · rfl
    · rw [List.append_eq_nil_iff, List.length_append]
      rintro (hnil | hlt)
      · exact hne hnil.2
      · omega

lemma Reached.answers (h : Reached seen parser) (hlimit : seen.length + chunk.length ≤ kHttpMaxSize) (hne : chunk ≠ [])
    (hcut : seen.getLast? ≠ some 13 ∨ chunk.head? ≠ some 10) : Answers parser chunk (seen ++ chunk) := by
  cases h with
  | running hscan hrun => exact answers_running hscan hrun hlimit hne hcut
  | body hscan hbody hpart readingLine => exact answers_body hscan hbody hpart readingLine hlimit hne
  | @emptyBody bare hscan hbody hzero =>
    have hpos := List.length_pos_of_ne_nil hne
    have hstop : bare.running = false := by simp [RequestParser.running, onReadBody, hbody]
    have hmore := scanLines_append .reset seen chunk
    rw [hscan] at hmore
    simp only at hmore
    rw [scanLines_stopped hstop, List.nil_append] at hmore
    have hdone : ({ bare with state := .finish }.holding [] seen.length).state = .finish := rfl
    obtain ⟨parser', n, hgood, hreq⟩ := parse_done chunk hdone (show seen.length < kHttpMaxSize by omega)
    refine .good hgood ?_ hreq
    rw [scanned_body hmore hbody, if_neg, hzero, List.take_zero, List.append_nil]
    · rfl
    · rw [hzero]
      exact not_or.mpr ⟨hne, Nat.not_lt_zero _⟩

lemma Reached.parseChunks (h : Reached seen parser) (chunks : List Bytes)
    (hlimit : seen.length + chunks.flatten.length ≤ kHttpMaxSize) (hne : ∀ chunk ∈ chunks, chunk ≠ [])
    (hwhole : ∀ before after, chunks = before ++ after →
      (seen ++ before.flatten).getLast? ≠ some 13 ∨ after.flatten.head? ≠ some 10) :
    outcome (parser.parseChunks chunks) = Http.scanned (seen ++ chunks.flatten) := by
  induction chunks generalizing seen parser with
  | nil =>
    rw [List.flatten_nil, List.append_nil, h.scanned]
    rfl
  | cons chunk chunks ih =>
    have hchunk := hne chunk List.mem_cons_self
    have hcut : seen.getLast? ≠ some 13 ∨ chunk.head? ≠ some 10 := by
      have hfirst := hwhole [] (chunk :: chunks) rfl
      rw [List.flatten_nil, List.append_nil, List.flatten_cons, List.head?_append_of_ne_nil _ hchunk] at hfirst
      exact hfirst
    rw [List.flatten_cons, List.length_append] at hlimit
    rw [List.flatten_cons, ← List.append_assoc]
    obtain ⟨parser', n, hparse, hnext⟩ | ⟨parser', result, n, hparse, hresult, hout⟩ :=
      h.answers (by omega) hchunk hcut
    · rw [parseChunks_indeterminate hparse]
      refine ih hnext (by rw [List.length_append]; omega) (fun other hmem => hne other (List.mem_cons_of_mem _ hmem)) ?_
      intro before after heq
      have hlater := hwhole (chunk :: before) after (by rw [heq, List.cons_append])
      rwa [List.flatten_cons, ← List.append_assoc] at hlater
    · have hdecided : (Http.scanned (seen ++ chunk)).1 ≠ .indeterminate := by
        rw [← hout]
        exact hresult
      rw [scanned_append hdecided, ← hout]
      cases result with
      | good => rw [parseChunks_good hparse]
      | bad => rw [parseChunks_bad hparse]
      | indeterminate => exact absurd rfl hresult

end Reached

lemma KeepsLineEnds.outcome_eq {chunks : List Bytes} (h : KeepsLineEnds chunks)
    (hlimit : chunks.flatten.length ≤ kHttpMaxSize) :
    outcome (RequestParser.reset.parseChunks chunks) = scanned chunks.flatten := by
  have hreached : Reached [] RequestParser.reset := Reached.running (scanLines_none rfl) rfl
  exact hreached.parseChunks chunks (by simpa using hlimit) h.nonempty h.whole

theorem fragments_agree_iff (w : Bytes) : (Agree w ↔ Undecided w) ∧
    ∀ cs cs' : List Bytes, cs.flatten = w → cs'.flatten = w → w.length ≤ kHttpMaxSize → KeepsLineEnds cs →
      KeepsLineEnds cs' →
      outcome (RequestParser.reset.parseChunks cs) = outcome (RequestParser.reset.parseChunks cs') := by
  refine ⟨⟨fun h => ⟨h.length_lt, fun _ _ => h.version, fun _ _ => h.no_empty⟩, fun hw cs cs' hcs hcs' => ?_⟩, ?_⟩
  · have hopen : Open [] .reset [] := .inl ⟨rfl, rfl⟩
    have hfirst := hw.parseChunks cs hopen hcs
    have hsecond := hw.parseChunks cs' hopen hcs'
    exact hfirst.trans hsecond.symm
  · rintro cs cs' rfl hcs' hlimit hkeeps hkeeps'
    rw [hkeeps.outcome_eq hlimit, hkeeps'.outcome_eq (hcs' ▸ hlimit), hcs']

/-- A request line and an empty line, whole or byte by byte. -/
theorem getRequest_not_agree : ¬ ∀ w, Agree w := by
  intro h
  have hlines : text "GET / HTTP/1.1" ++ (crlf ++ (crlf ++ [])) ≠ text "GET / HTTP/1.1" ++ (crlf ++ (crlf ++ [])) :=
    (h _).no_empty
  exact hlines rfl

end TonyCat.Http
