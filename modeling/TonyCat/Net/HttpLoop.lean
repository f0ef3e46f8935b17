import TonyCat.Library.TurnLoop
import TonyCat.Net.HttpStream
import TonyCat.Utility.HttpBoundary

set_option autoImplicit false

/-! The turns of the loop of `NetHttpModule::ReadData`. -/

namespace TonyCat.Net

open TonyCat.Library TonyCat.Http NetHttpModule

variable {nMaxBuffSize : ℕ}

namespace HttpSession

def turn (readBuff : Bytes) (session : HttpSession nMaxBuffSize) :
    HttpSession nMaxBuffSize ⊕ HttpSession nMaxBuffSize × Bool :=
  if session.buffRead.empty then
    .inr (session, true)
  else
    match session.context.parse readBuff with
    | (context, .bad, _) => .inr ({ session with context := context }, false)
    | (context, .good, readLen) =>
      .inl
        { buffRead := session.buffRead.removeData readLen
          context := .reset
          vecMsgFunction := session.vecMsgFunction ++ [context.req] }
    | (context, .indeterminate, readLen) =>
      .inl { session with buffRead := session.buffRead.removeData readLen, context := context }

/-- What a turn makes smaller: it takes bytes out of the buffer, or it gives a parser that has read a part of a request
back as new. -/
def turnsLeft (session : HttpSession nMaxBuffSize) : ℕ :=
  2 * session.buffRead.getReadableSize + if session.context.state = .methodUriVersion then 0 else 1

variable {readBuff : Bytes} {session session' : HttpSession nMaxBuffSize}

lemma turn_cases (h : session.turn readBuff = .inl session') :
    ¬ session.buffRead.empty = true ∧ ∃ context readLen,
      session.context.parse readBuff = (context, .good, readLen) ∧
          session' = ⟨session.buffRead.removeData readLen, .reset, session.vecMsgFunction ++ [context.req]⟩ ∨
        session.context.parse readBuff = (context, .indeterminate, readLen) ∧
          session' = ⟨session.buffRead.removeData readLen, context, session.vecMsgFunction⟩ := by
  rw [turn] at h
  split at h
  case isTrue => cases h
  case isFalse hempty =>
    refine ⟨hempty, ?_⟩
    split at h
    case h_1 => cases h
    case h_2 context readLen hparse =>
      cases h
      exact ⟨context, readLen, .inl ⟨hparse, rfl⟩⟩
    case h_3 context readLen hparse =>
      cases h
      exact ⟨context, readLen, .inr ⟨hparse, rfl⟩⟩

lemma turnsLeft_turn (hread : readBuff ≠ []) (h : session.turn readBuff = .inl session') :
    session'.turnsLeft < session.turnsLeft := by
  obtain ⟨hempty, context, readLen, ⟨hparse, rfl⟩ | ⟨hparse, rfl⟩⟩ := turn_cases h
  all_goals
    rw [SessionBuffer.empty_iff] at hempty
    simp only [turnsLeft, SessionBuffer.getReadableSize_removeData]
  · -- a parser that has read nothing of a request consumes something before it is done with one
    have hfresh : (RequestParser.reset).state = .methodUriVersion := rfl
    rw [if_pos hfresh]
    by_cases hstate : session.context.state = .methodUriVersion
    · have hpos := RequestParser.parse_good_pos hstate hparse
      omega
    · rw [if_neg hstate]
      omega
  · obtain ⟨rfl, hlimit⟩ := RequestParser.parse_indeterminate hparse
    have hpos := List.length_pos_of_ne_nil hread
    split <;> split <;> omega

lemma readLoop_turn (hread : readBuff ≠ []) (h : session.turn readBuff = .inl session') :
    readLoop readBuff hread session' = readLoop readBuff hread session := by
  obtain ⟨hempty, context, readLen, ⟨hparse, rfl⟩ | ⟨hparse, rfl⟩⟩ := turn_cases h
  · exact (readLoop_good hempty hparse).symm
  · exact (readLoop_indeterminate hempty hparse).symm

lemma turn_eq_inr (hread : readBuff ≠ []) {r : HttpSession nMaxBuffSize × Bool}
    (h : session.turn readBuff = .inr r) : r = readLoop readBuff hread session := by
  rw [turn] at h
  rw [readLoop]
  split at h
  case isTrue hempty =>
    rw [if_pos hempty]
    exact (Sum.inr.inj h).symm
  case isFalse hempty =>
    rw [if_neg hempty]
    split at h
    case h_1 context readLen hparse =>
      split
      all_goals
        rename_i heq
        rw [hparse] at heq
        cases heq
      exact (Sum.inr.inj h).symm
    case h_2 => cases h
    case h_3 => cases h

lemma loopFor_turn (hread : readBuff ≠ []) (session : HttpSession nMaxBuffSize) :
    loopFor (turn readBuff) (2 * session.buffRead.getReadableSize + 2) session =
      some (readLoop readBuff hread session) := by
  apply loopFor_of_measure (m := turnsLeft) (turnsLeft_turn hread) (readLoop_turn hread) (turn_eq_inr hread)
  rw [turnsLeft]
  split <;> omega

end HttpSession

section Again

variable {parser : RequestParser}

lemma parse_finish (hstate : parser.state = .finish) (hlimit : parser.readLength < RequestParser.kHttpMaxSize)
    (data : Bytes) : (parser.parse data).2 = (.good, 0) := by
  have hdone : parser.onDone = true := decide_eq_true hstate
  have hbody : parser.onReadBody = false := by simp [RequestParser.onReadBody, hstate]
  have hlines : ∀ request, RequestParser.parseLines data parser request = (parser, .ok request) := by
    intro request
    rw [RequestParser.parseLines, hdone, Bool.true_or, if_pos rfl]
  rw [RequestParser.parse, if_neg (Nat.not_le.mpr hlimit)]
  simp only [hlines, hbody, Bool.false_eq_true, if_false, RequestParser.parseRest, hdone, if_true, List.length_take]
  rw [Nat.min_eq_left (Nat.min_le_left ..), Nat.sub_self]

lemma parse_emptyBody_again {t : RequestText} (h : t.Framed) (hbody : t.contentLength ≠ none) (hnil : t.content = []) :
    ∃ parser, RequestParser.parse .reset t.bytes = (parser, .indeterminate, t.bytes.length) ∧
      ∀ data, (parser.parse data).2 = (.good, 0) := by
  have hlt := h.bytes_lt
  have hview : RequestParser.view 0 t.bytes = t.bytes := RequestParser.view_eq (by omega)
  have hscan := h.scanLines_view [] (h.reads_lastLine_some hbody) rfl
  rw [List.append_nil, hnil, List.take_nil, List.append_nil] at hscan
  have hparse := (RequestParser.receives_reset t.bytes).parse_emptyBody hscan rfl rfl
  rw [hview, Nat.zero_add] at hparse
  exact ⟨_, hparse, parse_finish rfl hlt⟩

def emptyPost : RequestText where
  method := text "POST"
  path := text "/"
  query := none
  version := text "HTTP/1.1"
  headers := [(text "Content-Length", text (toString 0))]
  content := []

lemma emptyPost_framed : emptyPost.Framed where
  method := show IsWord (text "POST") from ⟨⟨by decide, by decide⟩, by decide⟩
  path := show IsWord (text "/") ∧ 63 ∉ text "/" from ⟨⟨⟨by decide, by decide⟩, by decide⟩, by decide⟩
  query := nofun
  version := by decide
  headers header hmem := by
    obtain rfl := List.mem_singleton.mp hmem
    exact ⟨⟨by decide, by decide⟩, by decide, by decide, by decide⟩
  content := nofun
  contentLength value hvalue := (Option.some_inj.mp hvalue).symm
  bytes_lt := by decide

end Again

theorem readData_terminates :
    (∀ {nMaxBuffSize : ℕ} (session : HttpSession nMaxBuffSize),
      loopFor (HttpSession.turn session.buffRead.getReadData) (2 * session.buffRead.getReadableSize + 2) session =
        some (readData session)) ∧
      ∃ first parser, RequestParser.parse .reset first = (parser, .indeterminate, first.length) ∧
        ∀ data, (parser.parse data).2 = (.good, 0) := by
  refine ⟨fun session => ?_, _, parse_emptyBody_again emptyPost_framed nofun rfl⟩
  rw [readData]
  split
  case isTrue hread =>
    have hempty : session.buffRead.empty = true := by
      rw [SessionBuffer.empty_iff, ← SessionBuffer.getReadData_length, hread, List.length_nil]
    exact loopFor_inr (by rw [HttpSession.turn, if_pos hempty]) _
  case isFalse hread => exact HttpSession.loopFor_turn hread session

end TonyCat.Net
