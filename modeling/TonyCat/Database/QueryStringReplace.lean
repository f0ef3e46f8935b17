import TonyCat.Database.SqlPlaces

set_option autoImplicit false

/-! `MysqlModule::QueryStringReplace`: the arguments in the place of the placeholders. -/

namespace TonyCat.Database

open TonyCat.Library

namespace MysqlModule

/-- `a - b` as a `std::size_t`, which wraps around below zero. -/
def sizeSub (a b : ℕ) : ℕ := if b ≤ a then a - b else 2 ^ 64 + a - b

/-- `str[i]`. Behind the last byte there is the NUL, and behind that nothing may be read. -/
def charAt (str : Bytes) (i : ℕ) : Option UInt8 := (str ++ [0])[i]?

/-- `str[i] == '{' && str[i + 1] == '}'`: the second byte is read only behind an opening brace. -/
def placeholderAt (str : Bytes) (i : ℕ) : Option Bool :=
  (charAt str i).bind fun first =>
    if first = 123 then (charAt str (i + 1)).map fun second => decide (second = 125) else some false

/-- `strResult.append(str, pos, n)` throws where `pos` is not in `str`. -/
def appendPart (strResult str : Bytes) (pos n : ℕ) : Option Bytes :=
  if pos ≤ str.length then some (strResult ++ (str.drop pos).take n) else none

def replaceLoop (strQueryString : Bytes) (vecBuff : List Bytes) (nLenRead i nLastRead iReplace : ℕ)
    (strResult : Bytes) : Option (ℕ × Bytes) :=
  if i < nLenRead then do
    let found ← placeholderAt strQueryString i
    if found then
      let strResult ← appendPart strResult strQueryString nLastRead (sizeSub i nLastRead)
      let arg ← vecBuff[iReplace]?
      if iReplace + 1 ≥ vecBuff.length then
        some (i + 2, strResult ++ arg)
      else
        replaceLoop strQueryString vecBuff nLenRead (i + 2) (i + 2) (iReplace + 1) (strResult ++ arg)
    else
      replaceLoop strQueryString vecBuff nLenRead (i + 1) nLastRead iReplace strResult
  else
    some (nLastRead, strResult)
termination_by nLenRead - i

/-- `none` where the code reads outside the string or the arguments, or throws. -/
def queryStringReplace (strQueryString : Bytes) (vecBuff : List Bytes) : Option Bytes :=
  -- `vecBuff.empty() == 0`
  if vecBuff ≠ [] then
    some strQueryString
  else do
    let nLenRead := sizeSub strQueryString.length 1
    let (nLastRead, strResult) ← replaceLoop strQueryString vecBuff nLenRead 0 0 0 []
    appendPart strResult strQueryString nLastRead (sizeSub (sizeSub nLenRead 1) nLastRead)

end MysqlModule

/-- What the placeholders are for: each gives way to its argument, and every other byte is kept. -/
def substitute : Bytes → List Bytes → Bytes
  | 123 :: 125 :: s, arg :: args => arg ++ substitute s args
  | b :: s, args => b :: substitute s args
  | [], _ => []

namespace MysqlModule

variable {str : Bytes} {vecBuff : List Bytes} {nLenRead i nLastRead iReplace : ℕ} {strResult : Bytes}

lemma charAt_append (pre : Bytes) (b : UInt8) (post : Bytes) : charAt (pre ++ b :: post) pre.length = some b := by
  rw [charAt, List.append_assoc, List.getElem?_append_right (Nat.le_refl _), Nat.sub_self]
  rfl

lemma replaceLoop_end (h : nLenRead ≤ i) :
    replaceLoop str vecBuff nLenRead i nLastRead iReplace strResult = some (nLastRead, strResult) := by
  rw [replaceLoop, if_neg (Nat.not_lt.mpr h)]

lemma replaceLoop_next (hlt : i < nLenRead) (h : placeholderAt str i = some false) :
    replaceLoop str vecBuff nLenRead i nLastRead iReplace strResult =
      replaceLoop str vecBuff nLenRead (i + 1) nLastRead iReplace strResult := by
  conv_lhs => rw [replaceLoop]
  rw [if_pos hlt, h, Option.bind_eq_bind, Option.bind_some, if_neg Bool.false_ne_true]

lemma placeholderAt_append (pre : Bytes) {b c : UInt8} {post : Bytes} (h : holes (b :: c :: post) = 0) :
    placeholderAt (pre ++ b :: c :: post) pre.length = some false ∧ holes (c :: post) = 0 := by
  rw [placeholderAt, charAt_append, Option.bind_some]
  by_cases hb : b = 123
  · subst hb
    by_cases hc : c = 125
    · subst hc
      rw [holes_brace] at h
      cases h
    · have hsecond : charAt (pre ++ 123 :: c :: post) (pre.length + 1) = some c := by
        have hlen : (pre ++ [(123 : UInt8)]).length = pre.length + 1 := List.length_append
        rw [List.append_cons, ← hlen, charAt_append]
      rw [if_pos rfl, hsecond, Option.map_some, decide_eq_false hc]
      refine ⟨rfl, ?_⟩
      rwa [holes] at h
      exact fun s _ heq => hc (List.cons.inj heq).1
  · rw [if_neg hb]
    exact ⟨rfl, by rwa [holes_cons_of_ne hb] at h⟩

lemma replaceLoop_none (pre : Bytes) {b : UInt8} {post : Bytes} (h : holes (b :: post) = 0) :
    replaceLoop (pre ++ b :: post) vecBuff (pre ++ post).length pre.length nLastRead iReplace strResult =
      some (nLastRead, strResult) := by
  induction post generalizing pre b with
  | nil => exact replaceLoop_end (by rw [List.append_nil])
  | cons c post ih =>
    have hlt : pre.length < (pre ++ c :: post).length := by
      rw [List.length_append, List.length_cons]
      omega
    have hlen : (pre ++ [b]).length = pre.length + 1 := List.length_append
    have hcount : ((pre ++ [b]) ++ post).length = (pre ++ c :: post).length := by
      simp only [List.length_append, List.length_cons, List.length_nil]
      omega
    obtain ⟨hfirst, hrest⟩ := placeholderAt_append pre h
    have hnext := ih (pre ++ [b]) hrest
    rw [← List.append_cons, hlen, hcount] at hnext
    rw [replaceLoop_next hlt hfirst, hnext]

lemma queryStringReplace_args (h : vecBuff ≠ []) (str : Bytes) : queryStringReplace str vecBuff = some str := if_pos h

lemma queryStringReplace_nil {b : UInt8} {post : Bytes} (h : holes (b :: post) = 0) :
    queryStringReplace (b :: post) [] = some (if post = [] then [b] else (b :: post).take (post.length - 1)) := by
  have hread : sizeSub (b :: post).length 1 = post.length := by
    rw [sizeSub, if_pos (by simp)]
    rfl
  have hloop : replaceLoop (b :: post) [] post.length 0 0 0 [] = some (0, []) := replaceLoop_none [] h
  rw [queryStringReplace, if_neg (not_not.mpr rfl)]
  simp only [hread]
  rw [hloop]
  change appendPart [] (b :: post) 0 (sizeSub (sizeSub post.length 1) 0) = _
  rw [appendPart, if_pos (Nat.zero_le _), List.drop_zero, List.nil_append]
  cases post with
  | nil =>
    have hcount : 1 ≤ sizeSub (sizeSub 0 1) 0 := by decide
    rw [if_pos rfl]
    exact congrArg some (List.take_of_length_le hcount)
  | cons c post =>
    have hcount : sizeSub (sizeSub (c :: post).length 1) 0 = (c :: post).length - 1 := by
      rw [sizeSub, if_pos (Nat.zero_le _), sizeSub, if_pos (by simp)]
      rfl
    rw [hcount, if_neg (List.cons_ne_nil _ _)]

/-- The length of the empty string less one is the greatest number there is: the loop runs out of the string. -/
lemma queryStringReplace_empty : queryStringReplace [] [] = none := by
  have hfirst : placeholderAt [] 0 = some false := rfl
  have hsecond : placeholderAt [] 1 = none := rfl
  have hread : sizeSub ([] : Bytes).length 1 = 2 ^ 64 - 1 := rfl
  rw [queryStringReplace, if_neg (not_not.mpr rfl)]
  simp only [hread]
  rw [replaceLoop_next (by decide) hfirst, replaceLoop, if_pos (by decide), hsecond]
  rfl

end MysqlModule

lemma substitute_nil (s : Bytes) : substitute s [] = s := by
  induction s with
  | nil => rfl
  | cons b s ih =>
    rw [substitute, ih]
    exact nofun

theorem queryStringReplace_iff (strQueryString : Bytes) (vecBuff : List Bytes)
    (h : vecBuff.length = holes strQueryString) :
    MysqlModule.queryStringReplace strQueryString vecBuff = some (substitute strQueryString vecBuff) ↔
      vecBuff = [] ∧ strQueryString.length = 1 ∨ vecBuff ≠ [] ∧ substitute strQueryString vecBuff = strQueryString := by
  by_cases hargs : vecBuff = []
  · subst hargs
    rw [substitute_nil]
    cases strQueryString with
    | nil => simp [MysqlModule.queryStringReplace_empty]
    | cons b post =>
      rw [MysqlModule.queryStringReplace_nil h.symm]
      cases post with
      | nil => simp
      | cons c post =>
        refine iff_of_false (fun heq => ?_) (by simp)
        have hlen := congrArg List.length (Option.some.inj heq)
        simp only [if_neg (List.cons_ne_nil c post), List.length_take, List.length_cons] at hlen
        omega
  · rw [MysqlModule.queryStringReplace_args hargs]
    simp [hargs, eq_comm]

def twoPlaceholders : Bytes := [97, 61, 123, 125, 32, 98, 61, 123, 125]

theorem queryStringReplace_iff_twoPlaceholders :
    (MysqlModule.queryStringReplace twoPlaceholders [[49], [123, 125]] =
        some (substitute twoPlaceholders [[49], [123, 125]]) ↔
      ([[49], [123, 125]] : List Bytes) = [] ∧ twoPlaceholders.length = 1 ∨
        ([[49], [123, 125]] : List Bytes) ≠ [] ∧ substitute twoPlaceholders [[49], [123, 125]] = twoPlaceholders) ∧
      substitute twoPlaceholders [[49], [123, 125]] = [97, 61, 49, 32, 98, 61, 123, 125] := by
  refine ⟨queryStringReplace_iff _ _ ?_, ?_⟩
  · decide
  · decide

/-- One placeholder for one argument: the placeholder stays. -/
theorem not_queryStringReplace_one : ¬ ∀ (strQueryString : Bytes) (vecBuff : List Bytes),
    vecBuff.length = holes strQueryString →
      MysqlModule.queryStringReplace strQueryString vecBuff = some (substitute strQueryString vecBuff) := by
  intro h
  exact absurd (h [123, 125] [[49]] (by decide)) (by decide)

end TonyCat.Database
