import TonyCat.Net.NetPbModule
import TonyCat.Utility.HttpRequest

set_option autoImplicit false

/-! The requests that `net_http_module.cpp` reads from a session. -/

namespace TonyCat.Net

open TonyCat.Library TonyCat.Http

variable {nMaxBuffSize : ℕ}

structure HttpSession (nMaxBuffSize : ℕ) where
  buffRead : SessionBuffer nMaxBuffSize
  context : RequestParser
  vecMsgFunction : List Request

def HttpSession.init (nMaxBuffSize : ℕ) : HttpSession nMaxBuffSize := ⟨.init nMaxBuffSize, .reset, []⟩

namespace NetHttpModule

/-- The loop of `ReadData`; `readBuff` is taken from the buffer once, before the loop. False is returned
after a reply that the request is bad. -/
def readLoop (readBuff : Bytes) (hread : readBuff ≠ []) (session : HttpSession nMaxBuffSize) :
    HttpSession nMaxBuffSize × Bool :=
  if session.buffRead.empty then
    (session, true)
  else
    match _h : session.context.parse readBuff with
    | (context, .bad, _) => ({ session with context := context }, false)
    | (context, .good, readLen) =>
      readLoop readBuff hread
        { buffRead := session.buffRead.removeData readLen
          context := .reset
          vecMsgFunction := session.vecMsgFunction ++ [context.req] }
    | (context, .indeterminate, readLen) =>
      readLoop readBuff hread { session with buffRead := session.buffRead.removeData readLen, context := context }
termination_by (session.buffRead.getReadableSize, if session.context.state = .methodUriVersion then 0 else 1)
decreasing_by
  all_goals
    rename_i hempty
    rw [SessionBuffer.empty_iff] at hempty
    simp only [SessionBuffer.getReadableSize_removeData]
  · by_cases hstate : session.context.state = .methodUriVersion
    · have hpos := RequestParser.parse_good_pos hstate _h
      apply Prod.Lex.left
      omega
    · obtain rfl | hpos := Nat.eq_zero_or_pos readLen
      · rw [if_neg hstate]
        exact Prod.Lex.right _ Nat.zero_lt_one
      · apply Prod.Lex.left
        omega
  · obtain ⟨rfl, hlimit⟩ := RequestParser.parse_indeterminate _h
    have hpos := List.length_pos_of_ne_nil hread
    apply Prod.Lex.left
    omega

def readData (session : HttpSession nMaxBuffSize) : HttpSession nMaxBuffSize × Bool :=
  if hread : session.buffRead.getReadData = [] then
    (session, true)
  else
    readLoop session.buffRead.getReadData hread session

def handleSessionRead (session : HttpSession nMaxBuffSize) (arrival : NetModule.Arrival) :
    Option (HttpSession nMaxBuffSize) :=
  (NetModule.arrive session.buffRead arrival).map fun buf => (readData { session with buffRead := buf }).1

end NetHttpModule

end TonyCat.Net
