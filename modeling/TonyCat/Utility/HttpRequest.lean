import TonyCat.Library.Delimited
import TonyCat.Library.KeyedList
import TonyCat.Library.ByteOrder

set_option autoImplicit false

/-! The request parser of `http_request.h` and `http_request.cpp`. -/

namespace TonyCat.Http

open TonyCat.Library

def text (s : String) : Bytes := s.toList.map fun c => UInt8.ofNat c.toNat

def crlf : Bytes := [13, 10]

inductive Method
  | invalid | get | post | head | put | delete
  deriving DecidableEq

inductive Version
  | unknown | http10 | http11 | http20
  deriving DecidableEq

structure Request where
  method : Method := .invalid
  version : Version := .unknown
  path : Bytes := []
  query : Bytes := []
  headers : List (Bytes × Bytes) := []
  content : Bytes := []
  deriving DecidableEq

inductive PaserState
  | methodUriVersion | httpHeader | httpContext | finish
  deriving DecidableEq

inductive ResultType
  | good | bad | indeterminate
  deriving DecidableEq

structure RequestParser where
  state : PaserState := .methodUriVersion
  req : Request := {}
  contentLength : ℕ := 0
  readLength : ℕ := 0
  readingLine : Bytes := []

/-- `substr(0, pos)`, where `npos` is the whole line. -/
def upTo (line : Bytes) : Option ℕ → Bytes
  | some pos => line.take pos
  | none => line

/-- `substr(pos + n)`, where `npos + n` wraps around to `n - 1`. -/
def beyond (line : Bytes) (n : ℕ) : Option ℕ → Bytes
  | some pos => line.drop (pos + n)
  | none => line.drop (n - 1)

def isSpace (c : UInt8) : Bool := c = 32 ∨ 9 ≤ c ∧ c ≤ 13

def isDigit (c : UInt8) : Bool := 48 ≤ c ∧ c ≤ 57

def digits (bs : Bytes) : ℤ := (bs.takeWhile isDigit).foldl (fun n c => 10 * n + (c.toNat - 48 : ℤ)) 0

/-- The number at the start of the text, of any size. -/
def number (bs : Bytes) : ℤ :=
  match bs.dropWhile isSpace with
  | 45 :: bs => -digits bs
  | 43 :: bs => digits bs
  | bs => digits bs

/-- `::strtoll` in base 10: a number that does not fit becomes the nearest one that does. -/
def strtoll (value : Bytes) : Int64 := Int64.ofInt (max (-2 ^ 63) (min (2 ^ 63 - 1) (number value)))

def atoll (value : Bytes) : Int64 := strtoll value

namespace Request

def loadPathAndQuery (req : Request) (word : Bytes) : Request :=
  match findSlice (text "?") word with
  | some posQuery => { req with path := word.take posQuery, query := word.drop (posQuery + 1) }
  | none => { req with path := word }

def stringToVersion (data : Bytes) : Version :=
  if data = text "HTTP/1.1" then .http11
  else if data = text "HTTP/1.0" then .http10
  else if data = text "HTTP/2.0" then .http20
  else .unknown

def stringToMethod (data : Bytes) : Method :=
  if data = text "GET" then .get
  else if data = text "POST" then .post
  else if data = text "HEAD" then .head
  else if data = text "PUT" then .put
  else if data = text "DELETE" then .delete
  else .invalid

end Request

inductive HttpStatusCode
  | ok | created | accepted | noContent | multipleChoices | movedPermanently | movedTemporarily | notModified
  | badRequest | unauthorized | forbidden | notFound | internalServerError | notImplemented | badGateway
  | serviceUnavailable
  deriving DecidableEq

structure Reply where
  statusCode : HttpStatusCode
  headers : List (Bytes × Bytes)
  content : Bytes

namespace Reply

def toErrorHead : HttpStatusCode → Bytes
  | .ok => text "HTTP/1.1 200 OK\r\n"
  | .created => text "HTTP/1.1 201 Created\r\n"
  | .accepted => text "HTTP/1.1 202 Accepted\r\n"
  | .noContent => text "HTTP/1.1 204 No Content\r\n"
  | .multipleChoices => text "HTTP/1.1 300 Multiple Choices\r\n"
  | .movedPermanently => text "HTTP/1.1 301 Moved Permanently\r\n"
  | .movedTemporarily => text "HTTP/1.1 302 Moved Temporarily\r\n"
  | .notModified => text "HTTP/1.1 304 Not Modified\r\n"
  | .badRequest => text "HTTP/1.1 400 Bad Request\r\n"
  | .unauthorized => text "HTTP/1.1 401 Unauthorized\r\n"
  | .forbidden => text "HTTP/1.1 403 Forbidden\r\n"
  | .notFound => text "HTTP/1.1 404 Not Found\r\n"
  | .internalServerError => text "HTTP/1.1 500 Internal Server Error\r\n"
  | .notImplemented => text "HTTP/1.1 501 Not Implemented\r\n"
  | .badGateway => text "HTTP/1.1 502 Bad Gateway\r\n"
  | .serviceUnavailable => text "HTTP/1.1 503 Service Unavailable\r\n"

end Reply

namespace RequestParser

def kHttpMaxSize : ℕ := 1 * 1024 * 1024

def reset : RequestParser := {}

def onReadBody (parser : RequestParser) : Bool := parser.state = .httpContext

def onDone (parser : RequestParser) : Bool := parser.state = .finish

def parseBody (parser : RequestParser) (data : Bytes) : RequestParser × ℕ :=
  let needReadCount := parser.contentLength - parser.req.content.length
  if data.length ≥ needReadCount then
    ({ parser with
      req := { parser.req with content := parser.req.content ++ data.take needReadCount }
      state := .finish }, 0)
  else
    ({ parser with req := { parser.req with content := parser.req.content ++ data } }, needReadCount - data.length)

def parseLine (parser : RequestParser) (line : Bytes) : RequestParser × Bool :=
  match parser.state with
  | .methodUriVersion =>
    let pos := findSlice (text " ") line
    let req : Request := { parser.req with method := Request.stringToMethod (upTo line pos) }
    let line := beyond line 1 pos
    let pos := findSlice (text " ") line
    let req := req.loadPathAndQuery (upTo line pos)
    let line := beyond line 1 pos
    let pos := findSlice (text " ") line
    let req : Request := { req with version := Request.stringToVersion (upTo line pos) }
    if req.version = .unknown then
      ({ parser with req := req }, false)
    else
      ({ parser with req := req, state := .httpHeader }, true)
  | .httpHeader =>
    if line = [] then
      match parser.req.headers.lookup (text "Content-Length") with
      | some value =>
        ({ parser with contentLength := ((atoll value).toInt % 2 ^ 64).toNat, state := .httpContext }, true)
      | none => ({ parser with state := .finish }, true)
    else
      let pos := findSlice (text ": ") line
      ({ parser with req := { parser.req with
        headers := KeyedList.emplace parser.req.headers (upTo line pos) (beyond line 2 pos) } }, true)
  | .httpContext => (parser, false)
  | .finish => (parser, false)

/-- The loop over the lines of `request`, which is what is left of `data`: the rest after it, or the place
where a line that is refused ends. -/
def parseLines (data : Bytes) (parser : RequestParser) (request : Bytes) : RequestParser × Except ℕ Bytes :=
  if parser.onDone || parser.onReadBody then
    (parser, .ok request)
  else
    match _h : findSlice crlf request with
    | none => (parser, .ok request)
    | some pos =>
      -- `append` takes the bytes from the start of `data`
      let parser := if parser.readingLine ≠ [] then
        { parser with readingLine := parser.readingLine ++ data.take pos } else parser
      let line := if parser.readingLine ≠ [] then parser.readingLine else request.take pos
      match parser.parseLine line with
      | (parser, false) => (parser, .error pos)
      | (parser, true) => parseLines data { parser with readingLine := [] } (request.drop (pos + 2))
termination_by request.length
decreasing_by
  have hfit := findSlice_add_le _h
  have hsep : crlf.length = 2 := rfl
  rw [List.length_drop]
  omega

def parseRest (parser : RequestParser) (readableLength : ℕ) (request : Bytes) : RequestParser × ResultType × ℕ :=
  if parser.onDone then
    ({ parser with readLength := parser.readLength + (readableLength - request.length) }, .good,
      readableLength - request.length)
  else
    ({ parser with
      readingLine := parser.readingLine ++ request
      readLength := parser.readLength + readableLength }, .indeterminate, readableLength)

def parse (parser : RequestParser) (data : Bytes) : RequestParser × ResultType × ℕ :=
  if parser.readLength ≥ kHttpMaxSize then
    (parser, .bad, data.length)
  else
    let readableLength := min data.length (kHttpMaxSize - parser.readLength)
    match parseLines data parser (data.take readableLength) with
    | (parser, .error pos) => (parser, .bad, pos)
    | (parser, .ok request) =>
      if parser.onReadBody then
        let (parser, nextStart) := parser.parseBody request
        if nextStart ≥ request.length then
          ({ parser with readLength := parser.readLength + readableLength }, .indeterminate, readableLength)
        else
          parser.parseRest readableLength (request.drop nextStart)
      else
        parser.parseRest readableLength request

variable {parser parser' : RequestParser} {data : Bytes}

lemma parseLines_progress {request rest : Bytes} (h : parseLines data parser request = (parser', .ok rest)) :
    parser' = parser ∧ rest = request ∨ rest.length < request.length := by
  fun_induction parseLines data parser request with
  | case1 =>
    cases h
    exact .inl ⟨rfl, rfl⟩
  | case2 =>
    cases h
    exact .inl ⟨rfl, rfl⟩
  | case3 => cases h
  | case4 parser request _ pos hpos _ _ _ _ ih =>
    have hfit := findSlice_add_le hpos
    have hsep : crlf.length = 2 := rfl
    have hdrop : (request.drop (pos + 2)).length = request.length - (pos + 2) := List.length_drop
    obtain ⟨-, rfl⟩ | hlt := ih h <;> right <;> omega

lemma parseRest_good {n readableLength : ℕ} {request : Bytes}
    (h : parser.parseRest readableLength request = (parser', .good, n)) :
    n = readableLength - request.length ∧ parser.onDone = true := by
  rw [parseRest] at h
  split at h
  case isTrue hdone =>
    cases h
    exact ⟨rfl, hdone⟩
  case isFalse => cases h

lemma parse_good_pos {n : ℕ} (hstate : parser.state = .methodUriVersion)
    (h : parser.parse data = (parser', .good, n)) : 0 < n := by
  rw [parse] at h
  split at h
  case isTrue => cases h
  case isFalse =>
    simp only at h
    split at h
    case h_1 => cases h
    case h_2 parser₁ request hlines =>
      have hread : parser₁.onReadBody = true ∨ parser₁.onDone = true →
          request.length < min data.length (kHttpMaxSize - parser.readLength) := by
        intro hstop
        obtain ⟨rfl, -⟩ | hlt := parseLines_progress hlines
        · simp [onReadBody, onDone, hstate] at hstop
        · rw [List.length_take] at hlt
          omega
      split at h
      case isTrue hbody =>
        have hlt := hread (.inl hbody)
        split at h
        case isTrue => cases h
        case isFalse =>
          obtain ⟨rfl, -⟩ := parseRest_good h
          rw [List.length_drop]
          omega
      case isFalse =>
        obtain ⟨rfl, hdone⟩ := parseRest_good h
        have hlt := hread (.inr hdone)
        omega

lemma parse_indeterminate {n : ℕ} (h : parser.parse data = (parser', .indeterminate, n)) :
    n = min data.length (kHttpMaxSize - parser.readLength) ∧ parser.readLength < kHttpMaxSize := by
  rw [parse] at h
  split at h
  case isTrue => cases h
  case isFalse hlimit =>
    have rest : ∀ {parser₁ : RequestParser} {readableLength : ℕ} {request : Bytes},
        parser₁.parseRest readableLength request = (parser', .indeterminate, n) → n = readableLength := by
      intro parser₁ readableLength request hrest
      rw [parseRest] at hrest
      split at hrest <;> cases hrest
      rfl
    refine ⟨?_, by omega⟩
    simp only at h
    split at h
    case h_1 => cases h
    case h_2 =>
      split at h
      case isTrue =>
        split at h
        case isTrue =>
          cases h
          rfl
        case isFalse => exact rest h
      case isFalse => exact rest h

end RequestParser

end TonyCat.Http
