import Mathlib.Data.List.Basic
import Mathlib.Data.Option.Basic

set_option autoImplicit false

/-! Conditions built from atoms with `AND`, `OR` and parentheses, where `AND` binds tighter. The
grammar says what a token list means; an operator precedence reader shows that it means one thing. -/

namespace TonyCat.Library

inductive Condition (α : Type*)
  | atom (a : α)
  | and (c d : Condition α)
  | or (c d : Condition α)

inductive Token (α : Type*)
  | atom (a : α)
  | and
  | or
  | lparen
  | rparen

namespace Condition

variable {α : Type*}

def Holds (p : α → Prop) : Condition α → Prop
  | .atom a => p a
  | .and c d => Holds p c ∧ Holds p d
  | .or c d => Holds p c ∨ Holds p d

mutual

inductive Primary : List (Token α) → Condition α → Prop
  | atom (a : α) : Primary [.atom a] (.atom a)
  | paren {ts : List (Token α)} {c : Condition α} (h : Disjunction ts c) :
      Primary (.lparen :: (ts ++ [.rparen])) c

inductive Conjunction : List (Token α) → Condition α → Prop
  | primary {ts : List (Token α)} {c : Condition α} (h : Primary ts c) : Conjunction ts c
  | and {ts us : List (Token α)} {c d : Condition α} (h : Conjunction ts c) (h' : Primary us d) :
      Conjunction (ts ++ .and :: us) (.and c d)

inductive Disjunction : List (Token α) → Condition α → Prop
  | conjunction {ts : List (Token α)} {c : Condition α} (h : Conjunction ts c) : Disjunction ts c
  | or {ts us : List (Token α)} {c d : Condition α} (h : Disjunction ts c) (h' : Conjunction us d) :
      Disjunction (ts ++ .or :: us) (.or c d)

end

structure Frame (α : Type*) where
  disjunction : Option (Condition α)
  conjunction : Option (Condition α)

def Frame.empty : Frame α := ⟨none, none⟩

structure Reader (α : Type*) where
  stack : List (Frame α)
  frame : Frame α
  operand : Option (Condition α)

def joinAnd (left : Option (Condition α)) (c : Condition α) : Condition α :=
  match left with
  | none => c
  | some l => .and l c

def joinOr (left : Option (Condition α)) (c : Condition α) : Condition α :=
  match left with
  | none => c
  | some l => .or l c

def Frame.close (f : Frame α) (c : Condition α) : Condition α :=
  joinOr f.disjunction (joinAnd f.conjunction c)

def read : Reader α → Token α → Option (Reader α)
  | ⟨stack, frame, none⟩, .atom a => some ⟨stack, frame, some (.atom a)⟩
  | ⟨stack, frame, none⟩, .lparen => some ⟨frame :: stack, .empty, none⟩
  | ⟨stack, frame, some c⟩, .and => some ⟨stack, ⟨frame.disjunction, some (joinAnd frame.conjunction c)⟩, none⟩
  | ⟨stack, frame, some c⟩, .or => some ⟨stack, ⟨some (frame.close c), none⟩, none⟩
  | ⟨outer :: stack, frame, some c⟩, .rparen => some ⟨stack, outer, some (frame.close c)⟩
  | _, _ => none

def readAll : Reader α → List (Token α) → Option (Reader α)
  | r, [] => some r
  | r, t :: ts => (read r t).bind fun r' => readAll r' ts

def start : Reader α := ⟨[], .empty, none⟩

lemma readAll_append (r : Reader α) (ts us : List (Token α)) :
    readAll r (ts ++ us) = (readAll r ts).bind fun r' => readAll r' us := by
  induction ts generalizing r with
  | nil => rfl
  | cons t ts ih =>
    simp only [List.cons_append, readAll]
    cases read r t with
    | none => rfl
    | some r' => exact ih r'

mutual

lemma Primary.readAll_eq {ts : List (Token α)} {c : Condition α} :
    Primary ts c → ∀ (stack : List (Frame α)) (frame : Frame α),
      readAll ⟨stack, frame, none⟩ ts = some ⟨stack, frame, some c⟩
  | .atom a, stack, frame => rfl
  | .paren h, stack, frame => by
    obtain ⟨f, d, hr, hd⟩ := Disjunction.readAll_eq h (frame :: stack)
    rw [readAll, read, Option.bind_some, readAll_append, hr, Option.bind_some, ← hd]
    rfl

lemma Conjunction.readAll_eq {ts : List (Token α)} {c : Condition α} :
    Conjunction ts c → ∀ (stack : List (Frame α)) (disjunction : Option (Condition α)),
      ∃ (conjunction : Option (Condition α)) (d : Condition α),
        readAll ⟨stack, ⟨disjunction, none⟩, none⟩ ts = some ⟨stack, ⟨disjunction, conjunction⟩, some d⟩ ∧
        joinAnd conjunction d = c
  | .primary h, stack, disjunction => ⟨none, c, Primary.readAll_eq h stack ⟨disjunction, none⟩, rfl⟩
  | .and (c := c') (d := d') h h', stack, disjunction => by
    obtain ⟨conjunction, d, hr, hd⟩ := Conjunction.readAll_eq h stack disjunction
    refine ⟨some c', d', ?_, rfl⟩
    rw [readAll_append, hr, Option.bind_some, readAll, read, Option.bind_some, hd]
    exact Primary.readAll_eq h' stack ⟨disjunction, some c'⟩

lemma Disjunction.readAll_eq {ts : List (Token α)} {c : Condition α} :
    Disjunction ts c → ∀ stack : List (Frame α), ∃ (f : Frame α) (d : Condition α),
      readAll ⟨stack, .empty, none⟩ ts = some ⟨stack, f, some d⟩ ∧ f.close d = c
  | .conjunction h, stack => by
    obtain ⟨conjunction, d, hr, hd⟩ := Conjunction.readAll_eq h stack none
    exact ⟨⟨none, conjunction⟩, d, hr, hd⟩
  | .or (c := c') (d := d') h h', stack => by
    obtain ⟨f, d, hr, hd⟩ := Disjunction.readAll_eq h stack
    obtain ⟨conjunction, e, hr', he⟩ := Conjunction.readAll_eq h' stack (some c')
    refine ⟨⟨some c', conjunction⟩, e, ?_, ?_⟩
    · rw [readAll_append, hr, Option.bind_some, readAll, read, Option.bind_some, hd]
      exact hr'
    · rw [← he]
      rfl

end

theorem Disjunction.unique {ts : List (Token α)} {c d : Condition α} (h : Disjunction ts c)
    (h' : Disjunction ts d) : c = d := by
  obtain ⟨f, x, hr, rfl⟩ := h.readAll_eq []
  obtain ⟨g, y, hr', rfl⟩ := h'.readAll_eq []
  rw [hr] at hr'
  cases hr'
  rfl

lemma not_disjunction {ts : List (Token α)} (h : readAll start ts = none) (c : Condition α) :
    ¬ Disjunction ts c := by
  intro hd
  obtain ⟨f, x, hr, _⟩ := hd.readAll_eq []
  rw [start, hr] at h
  simp at h

end Condition

end TonyCat.Library
