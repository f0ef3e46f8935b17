import TonyCat.Library.LoopPool

set_option autoImplicit false

/-! Operations on shared data that take place one after the other, and a mailbox that is filled one message at a time
and emptied at once. -/

namespace TonyCat.Library

section Serial

variable {D O : Type*}

structure Section (D O : Type*) where
  thread : ℕ
  op : O
  found : D

inductive Serial (apply : O → D → D) (start : D) : List (Section D O) → D → Prop
  | nil : Serial apply start [] start
  | concat {history : List (Section D O)} {d : D} (thread : ℕ) (op : O) :
      Serial apply start history d → Serial apply start (history ++ [⟨thread, op, d⟩]) (apply op d)

end Serial

variable {M : Type*}

inductive MailOp (M : Type*)
  | put (msg : M)
  | takeAll

def MailOp.apply : MailOp M → List M → List M
  | .put msg, box => box ++ [msg]
  | .takeAll, _ => []

def MailOp.puts : MailOp M → List M
  | .put msg => [msg]
  | .takeAll => []

def Section.put (s : Section (List M) (MailOp M)) : List M := s.op.puts

def Section.taken (s : Section (List M) (MailOp M)) : List M :=
  match s.op with
  | .put _ => []
  | .takeAll => s.found

theorem Serial.mailbox {history : List (Section (List M) (MailOp M))} {box : List M}
    (h : Serial MailOp.apply [] history box) :
    history.flatMap Section.taken ++ box = history.flatMap Section.put := by
  induction h with
  | nil => rfl
  | @concat history box thread op _ ih =>
    rw [List.flatMap_append, List.flatMap_append, List.flatMap_singleton, List.flatMap_singleton]
    cases op with
    | put msg =>
      calc history.flatMap Section.taken ++ [] ++ (box ++ [msg])
          = (history.flatMap Section.taken ++ box) ++ [msg] := by rw [List.append_nil, List.append_assoc]
        _ = history.flatMap Section.put ++ [msg] := by rw [ih]
    | takeAll =>
      calc (history.flatMap Section.taken ++ box) ++ []
          = history.flatMap Section.put ++ [] := by rw [ih]

end TonyCat.Library
