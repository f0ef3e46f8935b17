import Mathlib.Data.List.TakeWhile
import TonyCat.Utility.HttpScan

set_option autoImplicit false

/-! Where a request ends in the bytes of a call. -/

namespace TonyCat.Http

open TonyCat.Library RequestParser

lemma text_toString (n : ℕ) : text (toString n) = (Nat.toDigits 10 n).map fun c => UInt8.ofNat c.toNat := by
  rw [text, Nat.toString_eq_ofList_toDigits, String.toList_ofList]

lemma isDigit_bounds {c : Char} (h : c.isDigit = true) : 48 ≤ c.toNat ∧ c.toNat ≤ 57 := by
  rw [Char.isDigit, Bool.and_eq_true, decide_eq_true_eq, decide_eq_true_eq] at h
  exact h

lemma isDigit_ofNat {c : Char} (h : c.isDigit = true) :
    isDigit (UInt8.ofNat c.toNat) = true ∧ (UInt8.ofNat c.toNat).toNat = c.toNat := by
  obtain ⟨hlow, hhigh⟩ := isDigit_bounds h
  have hval : (UInt8.ofNat c.toNat).toNat = c.toNat := by
    rw [UInt8.toNat_ofNat']
    omega
  refine ⟨?_, hval⟩
  rw [isDigit, decide_eq_true_eq, UInt8.le_iff_toNat_le, UInt8.le_iff_toNat_le, hval]
  exact ⟨hlow, hhigh⟩

lemma foldl_digits {cs : List Char} (h : ∀ c ∈ cs, c.isDigit = true) (n : ℕ) :
    (cs.map fun c => UInt8.ofNat c.toNat).foldl (fun (n : ℤ) c => 10 * n + (c.toNat - 48 : ℤ)) n =
      (Nat.ofDigitChars 10 cs n : ℕ) := by
  induction cs generalizing n with
  | nil => rw [Nat.ofDigitChars_nil, List.map_nil, List.foldl_nil]
  | cons c cs ih =>
    have hc := h c List.mem_cons_self
    obtain ⟨hlow, -⟩ := isDigit_bounds hc
    have hstep : (10 * (n : ℤ) + ((UInt8.ofNat c.toNat).toNat - 48 : ℤ)) = ((10 * n + (c.toNat - '0'.toNat) : ℕ) : ℤ) := by
      rw [(isDigit_ofNat hc).2]
      change _ = ((10 * n + (c.toNat - 48) : ℕ) : ℤ)
      omega
    rw [List.map_cons, List.foldl_cons, hstep, ih fun d hd => h d (List.mem_cons_of_mem c hd), Nat.ofDigitChars_cons]

lemma digits_toString (n : ℕ) : digits (text (toString n)) = n := by
  have hdigits : ∀ c ∈ Nat.toDigits 10 n, c.isDigit = true :=
    fun c hc => Nat.isDigit_of_mem_toDigits (by decide) (by decide) hc
  have hall : (text (toString n)).takeWhile isDigit = text (toString n) := by
    rw [text_toString, List.takeWhile_eq_self_iff]
    intro b hb
    obtain ⟨c, hc, rfl⟩ := List.mem_map.mp hb
    exact (isDigit_ofNat (hdigits c hc)).1
  rw [digits, hall, text_toString]
  have hfold := foldl_digits hdigits 0
  rwa [Nat.ofDigitChars_ten_toDigits] at hfold

lemma number_toString (n : ℕ) : number (text (toString n)) = n := by
  obtain ⟨b, bs, heq⟩ : ∃ b bs, text (toString n) = b :: bs := by
    apply List.exists_cons_of_ne_nil
    rw [text_toString]
    simp
  have hb : isDigit b = true := by
    have hmem : b ∈ text (toString n) := by
      rw [heq]
      exact List.mem_cons_self
    rw [text_toString] at hmem
    obtain ⟨c, hc, rfl⟩ := List.mem_map.mp hmem
    exact (isDigit_ofNat (Nat.isDigit_of_mem_toDigits (by decide) (by decide) hc)).1
  rw [isDigit, decide_eq_true_eq, UInt8.le_iff_toNat_le, UInt8.le_iff_toNat_le] at hb
  have hspace : isSpace b = false := by
    rw [isSpace, decide_eq_false_iff_not, UInt8.le_iff_toNat_le, UInt8.le_iff_toNat_le, ← UInt8.toNat_inj]
    change ¬ (b.toNat = 32 ∨ 9 ≤ b.toNat ∧ b.toNat ≤ 13)
    change 48 ≤ b.toNat ∧ b.toNat ≤ 57 at hb
    omega
  have hdigits := digits_toString n
  rw [heq] at hdigits
  rw [number, heq, List.dropWhile_cons, hspace, if_neg Bool.false_ne_true]
  split
  case h_1 heq' =>
    cases heq'
    exact absurd hb (by decide)
  case h_2 heq' =>
    cases heq'
    exact absurd hb (by decide)
  case h_3 => exact hdigits

lemma atoll_toString {n : ℕ} (h : n < 2 ^ 63) : (atoll (text (toString n))).toInt = n := by
  have hclamp : max (-2 ^ 63) (min (2 ^ 63 - 1) (n : ℤ)) = n := by omega
  rw [atoll, strtoll, number_toString, hclamp]
  exact Int64.toInt_ofInt_of_le (by omega) (by omega)

namespace RequestText

variable {t : RequestText}

/-- A request with its content. Of several values for a header the first counts. -/
structure Framed (t : RequestText) : Prop where
  method : IsWord t.method
  path : IsWord t.path ∧ 63 ∉ t.path
  query : ∀ query ∈ t.query, IsWord query
  version : Request.stringToVersion t.version ≠ .unknown
  headers : ∀ header ∈ t.headers, IsText header.1 ∧ 58 ∉ header.1 ∧ IsText header.2
  content : t.contentLength = none → t.content = []
  contentLength : ∀ value ∈ t.contentLength, value = text (toString t.content.length)
  bytes_lt : t.bytes.length < kHttpMaxSize

def head (t : RequestText) : RequestText := { t with headers := [], content := [] }

lemma Framed.head (h : t.Framed) : t.head.WellFormed where
  method := h.method
  path := h.path
  query := h.query
  version := h.version
  headers := nofun
  keys := List.nodup_nil
  content _ := rfl
  contentLength := nofun
  bytes_lt := by
    refine lt_of_le_of_lt ?_ h.bytes_lt
    simp only [bytes, lines, RequestText.head, List.flatMap_cons, List.flatMap_append, List.length_append, List.map_nil,
      List.flatMap_nil, List.length_nil]
    have hline : requestLine { t with headers := [], content := [] } = t.requestLine := rfl
    rw [hline]
    omega

lemma Framed.lines_crlf (h : t.Framed) : ∀ line ∈ t.lines, findSlice crlf line = none := by
  intro line hmem
  rw [lines, List.mem_cons, List.mem_append, List.mem_map] at hmem
  obtain rfl | ⟨header, hheader, rfl⟩ | hnil := hmem
  · exact h.head.lines_crlf _ List.mem_cons_self
  · have hcolon : (13 : UInt8) ∉ text ": " := by decide
    obtain ⟨hkey, -, hvalue⟩ := h.headers header hheader
    apply findSlice_of_notMem rfl
    simp only [headerLine, List.mem_append, not_or]
    exact ⟨hkey.1, hcolon, hvalue.1⟩
  · obtain rfl := List.mem_singleton.mp hnil
    rfl

lemma path_headerLines {parser : RequestParser} (req : Request) {headers : List (Bytes × Bytes)}
    (hkeys : ∀ header ∈ headers, 58 ∉ header.1)
    (hend : ReadsLine { state := .httpHeader, req := { req with headers := KeyedList.emplaceAll req.headers headers } }
      [] parser) :
    Path ReadsLine { state := .httpHeader, req := req } (headers.map headerLine ++ [[]]) parser := by
  induction headers generalizing req with
  | nil => exact .cons hend (.nil _)
  | cons header headers ih =>
    refine .cons (reads_headerLine_emplace req (hkeys header List.mem_cons_self)) ?_
    exact ih _ (fun other hmem => hkeys other (List.mem_cons_of_mem _ hmem)) hend

def headRequest (t : RequestText) : Request :=
  { t.request with headers := KeyedList.emplaceAll [] t.headers, content := [] }

lemma lookup_headRequest (t : RequestText) :
    t.headRequest.headers.lookup (text "Content-Length") = t.contentLength := by
  rw [headRequest, KeyedList.lookup_emplaceAll]
  rfl

lemma Framed.path_lines (h : t.Framed) {parser : RequestParser}
    (hend : ReadsLine { state := .httpHeader, req := t.headRequest } [] parser) :
    Path ReadsLine .reset t.lines parser :=
  .cons h.head.reads_requestLine
    (path_headerLines { t.request with headers := [], content := [] } (fun header hmem => (h.headers header hmem).2.1) hend)

lemma reads_lastLine_none (h : t.contentLength = none) :
    ReadsLine { state := .httpHeader, req := t.headRequest } [] { state := .finish, req := t.headRequest } := by
  refine ⟨rfl, ?_⟩
  simp only [parseLine, if_true, lookup_headRequest, h]

lemma Framed.reads_lastLine_some (h : t.Framed) (hbody : t.contentLength ≠ none) :
    ReadsLine { state := .httpHeader, req := t.headRequest } []
      { state := .httpContext, req := t.headRequest, contentLength := t.content.length } := by
  obtain ⟨value, hvalue⟩ := Option.ne_none_iff_exists'.mp hbody
  refine ⟨rfl, ?_⟩
  have hlen : t.content.length < 2 ^ 63 := by
    have hlt := h.bytes_lt
    rw [bytes, List.length_append, kHttpMaxSize] at hlt
    omega
  have hmod : ((t.content.length : ℤ) % 2 ^ 64).toNat = t.content.length := by omega
  simp only [parseLine, if_true, lookup_headRequest, hvalue, h.contentLength value hvalue, atoll_toString hlen, hmod]

lemma bytes_append (t : RequestText) (s : Bytes) : t.bytes ++ s =
    t.lines.flatMap (fun line => line ++ crlf) ++ (t.content ++ s) := by
  rw [bytes, List.append_assoc]

lemma Framed.view_append (h : t.Framed) (s : Bytes) :
    view 0 (t.bytes ++ s) = t.bytes ++ s.take (kHttpMaxSize - t.bytes.length) := by
  have hlt := h.bytes_lt
  rw [view, Nat.sub_zero, List.length_append, List.take_append, List.take_of_length_le (by omega)]
  congr 1
  exact List.take_eq_take_iff.mpr (by omega)

lemma Framed.scanLines_view (h : t.Framed) (s : Bytes) {parser : RequestParser}
    (hend : ReadsLine { state := .httpHeader, req := t.headRequest } [] parser) (hstop : parser.running = false) :
    RequestParser.reset.scanLines ([] ++ view 0 (t.bytes ++ s)) =
      (parser, some (t.content ++ s.take (kHttpMaxSize - t.bytes.length))) := by
  rw [List.nil_append, h.view_append, bytes_append, scanLines_path (h.path_lines hend) h.lines_crlf,
    scanLines_stopped hstop]

lemma Framed.parse_none (h : t.Framed) (hbody : t.contentLength = none) (s : Bytes) :
    ∃ parser', RequestParser.parse .reset (t.bytes ++ s) = (parser', .good, t.bytes.length) ∧
      parser'.req.content = t.content := by
  obtain ⟨n, hparse⟩ := (receives_reset (t.bytes ++ s)).parse_finished
    (h.scanLines_view s (reads_lastLine_none hbody) rfl) rfl
  have hconsumed : (view 0 (t.bytes ++ s)).length - (t.content ++ s.take (kHttpMaxSize - t.bytes.length)).length =
      t.bytes.length := by
    rw [h.view_append, h.content hbody, List.nil_append, List.length_append, Nat.add_sub_cancel]
  rw [hconsumed] at hparse
  exact ⟨_, hparse, (h.content hbody).symm⟩

lemma Framed.parse_some (h : t.Framed) (hbody : t.contentLength ≠ none) {s : Bytes} (hne : t.content ++ s ≠ []) :
    ∃ parser', RequestParser.parse .reset (t.bytes ++ s) =
        (parser', .good, t.bytes.length - t.content.length) ∧ parser'.req.content = t.content := by
  have hlt := h.bytes_lt
  have hview : t.content ++ s.take (kHttpMaxSize - t.bytes.length) ≠ [] := by
    intro hnil
    rw [List.append_eq_nil_iff, List.take_eq_nil_iff] at hnil
    apply hne
    rw [hnil.1, List.nil_append]
    exact hnil.2.resolve_left (by omega)
  obtain ⟨parser', hparse, hreq⟩ := (receives_reset (t.bytes ++ s)).parse_body
    (h.scanLines_view s (h.reads_lastLine_some hbody) rfl) rfl
    (by simp [needReadCount, headRequest]) hview
  have hconsumed : (view 0 (t.bytes ++ s)).length - (t.content ++ s.take (kHttpMaxSize - t.bytes.length)).length =
      t.bytes.length - t.content.length := by
    rw [h.view_append, List.length_append, List.length_append, Nat.add_sub_add_right]
  rw [hconsumed] at hparse
  refine ⟨parser', hparse, ?_⟩
  rw [hreq]
  simp [needReadCount, headRequest]

lemma Framed.parse_some_empty (h : t.Framed) (hbody : t.contentLength ≠ none) (hnil : t.content = []) :
    ∃ parser' n, RequestParser.parse .reset t.bytes = (parser', .indeterminate, n) := by
  have hscan := h.scanLines_view [] (h.reads_lastLine_some hbody) rfl
  rw [List.append_nil, hnil, List.take_nil, List.append_nil] at hscan
  have hparse := (receives_reset t.bytes).parse_emptyBody hscan rfl rfl
  exact ⟨_, _, hparse⟩

theorem parse_boundary_iff (h : t.Framed) (s : Bytes) :
    (∃ parser', RequestParser.parse .reset (t.bytes ++ s) = (parser', .good, t.bytes.length) ∧
      parser'.req.content = t.content) ↔
    t.contentLength = none ∨ t.content = [] ∧ s ≠ [] := by
  by_cases hbody : t.contentLength = none
  · exact iff_of_true (h.parse_none hbody s) (.inl hbody)
  · rw [or_iff_right hbody]
    constructor
    · rintro ⟨parser', hparse, -⟩
      by_cases hne : t.content ++ s = []
      · obtain ⟨hnil, rfl⟩ := List.append_eq_nil_iff.mp hne
        obtain ⟨_, _, hmore⟩ := h.parse_some_empty hbody hnil
        rw [List.append_nil, hmore] at hparse
        cases hparse
      · obtain ⟨_, hgood, -⟩ := h.parse_some hbody hne
        rw [hgood, Prod.mk.injEq, Prod.mk.injEq] at hparse
        have hlen := hparse.2.2
        have hpos := t.bytes_pos
        have hnil : t.content = [] := by
          apply List.length_eq_zero_iff.mp
          rw [bytes, List.length_append] at hlen hpos
          omega
        exact ⟨hnil, by simpa [hnil] using hne⟩
    · rintro ⟨hnil, hs⟩
      obtain ⟨parser', hparse, hcontent⟩ := h.parse_some hbody (s := s) (by simpa [hnil] using hs)
      rw [hnil, List.length_nil, Nat.sub_zero] at hparse
      exact ⟨parser', hparse, hnil ▸ hcontent⟩

def postText : RequestText where
  method := text "POST"
  path := text "/"
  query := none
  version := text "HTTP/1.1"
  headers := [(text "Content-Length", text (toString 1))]
  content := [97]

lemma postText_framed : postText.Framed where
  method := show IsWord (text "POST") from ⟨⟨by decide, by decide⟩, by decide⟩
  path := show IsWord (text "/") ∧ 63 ∉ text "/" from ⟨⟨⟨by decide, by decide⟩, by decide⟩, by decide⟩
  query := nofun
  version := by decide
  headers header hmem := by
    obtain rfl := List.mem_singleton.mp hmem
    exact ⟨⟨by decide, by decide⟩, by decide, by decide, by decide⟩
  content := nofun
  contentLength value hvalue := (Option.some_inj.mp hvalue).symm
  bytes_lt := by decide

theorem postText_boundary_iff :
    (∃ parser', RequestParser.parse .reset (postText.bytes ++ []) = (parser', .good, postText.bytes.length) ∧
      parser'.req.content = postText.content) ↔
    postText.contentLength = none ∨ postText.content = [] ∧ ([] : Bytes) ≠ [] :=
  parse_boundary_iff postText_framed []

/-- A request with content is never consumed as a whole. -/
theorem postText_not_consumed : ¬ ∀ t : RequestText, t.Framed → ∀ s : Bytes,
    ∃ parser', RequestParser.parse .reset (t.bytes ++ s) = (parser', .good, t.bytes.length) ∧
      parser'.req.content = t.content := by
  intro h
  obtain ⟨parser', hparse, -⟩ := h postText postText_framed []
  obtain ⟨parser₁, hhead, -⟩ := postText_framed.parse_some (s := []) nofun nofun
  rw [hparse, Prod.mk.injEq, Prod.mk.injEq] at hhead
  have hlen := hhead.2.2
  have hpos := postText.bytes_pos
  have hcontent : postText.content.length = 1 := rfl
  omega

end RequestText

end TonyCat.Http
