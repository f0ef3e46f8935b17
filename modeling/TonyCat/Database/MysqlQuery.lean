import TonyCat.Database.MysqlStatements
import TonyCat.Game.ServerHead

set_option autoImplicit false

/-! `MysqlModule::MysqlQuery` with its argument limits, and the statements of a message run up to the first error. -/

namespace TonyCat.Database

open TonyCat.Library TonyCat.Game

namespace MysqlModule

def kArgNumMax : ℕ := 100
def kArgLenMax : ℕ := 128000000

/-- `sqlFails`: whether `mysql_real_query` fails on what `QueryStringReplace` makes of text and arguments. -/
def mysqlQuery (sqlFails : Bytes → List Bytes → Bool) (strQueryString : Bytes) (vecArgs : List Bytes) : ℤ :=
  if kArgNumMax ≤ vecArgs.length then ss_msg_cache_length_overflow
  else if vecArgs.any fun strArg => decide (kArgLenMax < strArg.length * 2 + 1) then ss_msg_arg_length_overflow
  else if sqlFails strQueryString vecArgs then ss_msg_error_sql
  else ss_msg_success

/-- What the limits let through and the database carries out. -/
structure Accepted (sqlFails : Bytes → List Bytes → Bool) (st : Statement) : Prop where
  argNum : st.vecArgs.length < kArgNumMax
  argLen : ∀ strArg ∈ st.vecArgs, strArg.length * 2 + 1 ≤ kArgLenMax
  sql : sqlFails st.strQueryString st.vecArgs = false

lemma mysqlQuery_eq_zero_iff {sqlFails : Bytes → List Bytes → Bool} {st : Statement} :
    mysqlQuery sqlFails st.strQueryString st.vecArgs = 0 ↔ Accepted sqlFails st := by
  rw [mysqlQuery]
  constructor
  · intro h
    split at h
    case isTrue => exact absurd h (by decide)
    case isFalse hnum =>
      split at h
      case isTrue => exact absurd h (by decide)
      case isFalse hlen =>
        split at h
        case isTrue => exact absurd h (by decide)
        case isFalse hsql =>
          refine ⟨Nat.lt_of_not_le hnum, fun strArg hmem => ?_, Bool.eq_false_iff.mpr hsql⟩
          rw [List.any_eq_true] at hlen
          exact Nat.le_of_not_lt fun hlt => hlen ⟨strArg, hmem, decide_eq_true hlt⟩
  · rintro ⟨hnum, hlen, hsql⟩
    have hany : (st.vecArgs.any fun strArg => decide (kArgLenMax < strArg.length * 2 + 1)) = false := by
      apply List.any_eq_false.mpr
      intro strArg hmem
      simpa using hlen strArg hmem
    rw [if_neg (Nat.not_le_of_lt hnum), hany, hsql]
    rfl

def runStatements (query : Bytes → List Bytes → ℤ) : List Statement → List Statement × ℤ
  | [] => ([], 0)
  | st :: sts =>
    let nError := query st.strQueryString st.vecArgs
    if nError ≠ 0 then ([st], nError)
    else (st :: (runStatements query sts).1, (runStatements query sts).2)

lemma runStatements_eq_iff {query : Bytes → List Bytes → ℤ} {sts : List Statement} :
    runStatements query sts = (sts, 0) ↔ ∀ st ∈ sts, query st.strQueryString st.vecArgs = 0 := by
  induction sts with
  | nil => exact iff_of_true rfl (List.forall_mem_nil _)
  | cons st sts ih =>
    rw [List.forall_mem_cons, ← ih, runStatements]
    by_cases hfirst : query st.strQueryString st.vecArgs = 0
    · simp only [hfirst, ne_eq, not_true, if_false, true_and, Prod.ext_iff, List.cons.injEq]
    · simp [hfirst]

variable (M : MysqlModule)

def updateRequested (message : Descriptor) : CommonKeys → Message → List Statement
  | _, [] => []
  | common, .key f :: m => updateRequested message (common.add (M.keyColumn f)) m
  | common, .table f :: m =>
    if f.elems = [] then updateRequested message common m
    else M.updateStatement message common f :: updateRequested message common m

def deleteRequested : Query → Message → List Statement
  | _, [] => []
  | common, .key f :: m => deleteRequested (addQueryItemCondition common (M.keyColumn f)) m
  | common, .table f :: m =>
    if f.elems = [] then deleteRequested common m
    else M.deleteStatement common f :: deleteRequested common m

lemma updateFields_eq_runStatements (message : Descriptor) (common : CommonKeys) (m : Message) :
    M.updateFields message common m = runStatements M.queryModify (M.updateRequested message common m) := by
  induction m generalizing common with
  | nil => rfl
  | cons field m ih =>
    cases field with
    | key f => exact ih _
    | table f =>
      rw [updateFields, updateRequested]
      by_cases hunset : f.elems = []
      · rw [if_pos hunset, if_pos hunset]
        exact ih common
      · rw [if_neg hunset, if_neg hunset, runStatements, ih common]

lemma deleteFields_eq_runStatements (common : Query) (m : Message) :
    M.deleteFields common m = runStatements M.queryModify (M.deleteRequested common m) := by
  induction m generalizing common with
  | nil => rfl
  | cons field m ih =>
    cases field with
    | key f => exact ih _
    | table f =>
      rw [deleteFields, deleteRequested]
      by_cases hunset : f.elems = []
      · rw [if_pos hunset, if_pos hunset]
        exact ih common
      · rw [if_neg hunset, if_neg hunset, runStatements, ih common]

end MysqlModule

end TonyCat.Database
