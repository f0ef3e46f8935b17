import Mathlib.Data.List.Basic

set_option autoImplicit false

/-! Programs over a key-value storage, whose operations can fail without the program seeing it. -/

namespace TonyCat.Library

inductive StorageOp (κ ν : Type)
  | get (k : κ)
  | put (k : κ) (v : ν)
  | del (k : κ)
  deriving DecidableEq

def StorageOp.writes {κ ν : Type} : StorageOp κ ν → Bool
  | get _ => false
  | put _ _ => true
  | del _ => true

/-- An operation answers with a value; only a program that gets one looks at it. -/
inductive Program (κ ν α : Type)
  | done (a : α)
  | op (o : StorageOp κ ν) (next : ν → Program κ ν α)

/-- `empty` is the answer of an operation that reads nothing or fails. -/
structure Storage (σ κ ν : Type) where
  get : σ → κ → ν
  put : σ → κ → ν → σ
  del : σ → κ → σ
  empty : ν

structure Performed (κ ν : Type) where
  op : StorageOp κ ν
  answer : ν
  carriedOut : Bool
  deriving DecidableEq

structure Outcome (σ κ ν α : Type) where
  value : α
  store : σ
  log : List (Performed κ ν)

variable {σ κ ν α β : Type}

def Storage.perform (S : Storage σ κ ν) (s : σ) : StorageOp κ ν → ν × σ
  | .get k => (S.get s k, s)
  | .put k v => (S.empty, S.put s k v)
  | .del k => (S.empty, S.del s k)

namespace Program

def bind : Program κ ν α → (α → Program κ ν β) → Program κ ν β
  | .done a, f => f a
  | .op o next, f => .op o fun v => (next v).bind f

/-- The run whose first operation has the number `n`, where operation `i` fails if `fails i`. -/
def run (S : Storage σ κ ν) (fails : ℕ → Bool) : Program κ ν α → ℕ → σ → Outcome σ κ ν α
  | .done a, _, s => ⟨a, s, []⟩
  | .op o next, n, s =>
    let answer := if fails n then (S.empty, s) else S.perform s o
    let rest := run S fails (next answer.1) (n + 1) answer.2
    { rest with log := ⟨o, answer.1, !fails n⟩ :: rest.log }

def runs (S : Storage σ κ ν) (p : Program κ ν α) (s : σ) : Outcome σ κ ν α := p.run S (fun _ => false) 0 s

def leaves (S : Storage σ κ ν) (p : Program κ ν (Option α)) (s : σ) : Option σ :=
  (p.runs S s).value.map fun _ => (p.runs S s).store

def andThen (p q : Program κ ν (Option Unit)) : Program κ ν (Option Unit) :=
  p.bind fun value => match value with
    | none => .done none
    | some _ => q

variable {S : Storage σ κ ν} {fails : ℕ → Bool}

lemma run_never (p : Program κ ν α) (n : ℕ) (s : σ) : p.run S (fun _ => false) n s = p.runs S s := by
  rw [runs]
  generalize 0 = m
  induction p generalizing n m s with
  | done a => rfl
  | op o next ih => simp only [run, Bool.false_eq_true, if_false, ih _ (n + 1) _ (m + 1)]

@[simp] lemma runs_done (a : α) (s : σ) : (Program.done a : Program κ ν α).runs S s = ⟨a, s, []⟩ := rfl

lemma runs_op (o : StorageOp κ ν) (next : ν → Program κ ν α) (s : σ) : (Program.op o next).runs S s =
    { (next (S.perform s o).1).runs S (S.perform s o).2 with
      log := ⟨o, (S.perform s o).1, true⟩ :: ((next (S.perform s o).1).runs S (S.perform s o).2).log } := by
  rw [runs, run]
  simp only [Bool.false_eq_true, if_false, run_never]
  rfl

lemma runs_bind (p : Program κ ν α) (f : α → Program κ ν β) (s : σ) :
    ((p.bind f).runs S s).value = ((f (p.runs S s).value).runs S (p.runs S s).store).value ∧
      ((p.bind f).runs S s).store = ((f (p.runs S s).value).runs S (p.runs S s).store).store := by
  induction p generalizing s with
  | done a => exact ⟨rfl, rfl⟩
  | op o next ih =>
    rw [bind, runs_op, runs_op]
    exact ih _ _

@[simp] lemma leaves_done (a : Option α) (s : σ) :
    (Program.done a : Program κ ν (Option α)).leaves S s = a.map fun _ => s := rfl

lemma leaves_op (o : StorageOp κ ν) (next : ν → Program κ ν (Option α)) (s : σ) :
    (Program.op o next).leaves S s = (next (S.perform s o).1).leaves S (S.perform s o).2 := by
  rw [leaves, runs_op]
  rfl

lemma leaves_bind (p : Program κ ν α) (f : α → Program κ ν (Option β)) (s : σ) :
    (p.bind f).leaves S s = (f (p.runs S s).value).leaves S (p.runs S s).store := by
  obtain ⟨hvalue, hstore⟩ := runs_bind (S := S) p f s
  rw [leaves, hvalue, hstore]
  rfl

lemma leaves_andThen (p q : Program κ ν (Option Unit)) (s : σ) :
    (p.andThen q).leaves S s = (p.leaves S s).bind (q.leaves S) := by
  rw [andThen, leaves_bind]
  cases hvalue : (p.runs S s).value with
  | none => simp [leaves, hvalue]
  | some => simp [leaves, hvalue]

/-- Of the operations of the run without failures only reads fail that have nothing to answer. -/
def Spared (S : Storage σ κ ν) (fails : ℕ → Bool) (p : Program κ ν α) (n : ℕ) (s : σ) : Prop :=
  ∀ i e, (p.runs S s).log[i]? = some e → fails (n + i) = true → e.op.writes = false ∧ e.answer = S.empty

lemma Spared.op_iff (o : StorageOp κ ν) (next : ν → Program κ ν α) (n : ℕ) (s : σ) :
    (Program.op o next).Spared S fails n s ↔
      (fails n = true → o.writes = false ∧ (S.perform s o).1 = S.empty) ∧
        (next (S.perform s o).1).Spared S fails (n + 1) (S.perform s o).2 := by
  rw [Spared, Spared, runs_op]
  constructor
  · intro h
    refine ⟨h 0 _ rfl, fun i e he hfails => ?_⟩
    rw [Nat.add_right_comm, Nat.add_assoc] at hfails
    exact h (i + 1) e he hfails
  · rintro ⟨hfirst, hrest⟩ i e he hfails
    cases i with
    | zero =>
      cases he
      exact hfirst hfails
    | succ i =>
      apply hrest i e he
      rw [Nat.add_right_comm, Nat.add_assoc]
      exact hfails

lemma perform_of_not_writes (S : Storage σ κ ν) {o : StorageOp κ ν} (h : o.writes = false) (s : σ) :
    (S.perform s o).2 = s := by
  cases o with
  | get k => rfl
  | put k v => cases h
  | del k => cases h

theorem Spared.run {p : Program κ ν α} {n : ℕ} {s : σ} (h : p.Spared S fails n s) :
    (p.run S fails n s).value = (p.runs S s).value ∧ (p.run S fails n s).store = (p.runs S s).store ∧
      ∀ e ∈ (p.run S fails n s).log, e.op.writes = true → e.carriedOut = true := by
  induction p generalizing n s with
  | done a => exact ⟨rfl, rfl, List.forall_mem_nil _⟩
  | op o next ih =>
    obtain ⟨hfirst, hrest⟩ := (op_iff o next n s).mp h
    obtain ⟨hvalue, hstore, hlog⟩ := ih _ hrest
    have hanswer : (if fails n then (S.empty, s) else S.perform s o) = S.perform s o := by
      by_cases hfails : fails n = true
      · obtain ⟨hreads, hempty⟩ := hfirst hfails
        rw [if_pos hfails, ← hempty]
        exact Prod.ext rfl (perform_of_not_writes S hreads s).symm
      · rw [if_neg hfails]
    simp only [Program.run, runs_op, hanswer]
    refine ⟨hvalue, hstore, List.forall_mem_cons.mpr ⟨fun hwrites => ?_, hlog⟩⟩
    by_contra hfails
    rw [Bool.not_eq_true, Bool.not_eq_false'] at hfails
    exact Bool.false_ne_true ((hfirst hfails).1.symm.trans hwrites)

def ReadsHold (S : Storage σ κ ν) (fails : ℕ → Bool) (p : Program κ ν α) (n : ℕ) (s : σ) : Prop :=
  ∀ i e, (p.runs S s).log[i]? = some e → fails (n + i) = true → e.op.writes = false → e.answer = S.empty

lemma ReadsHold.op {o : StorageOp κ ν} {next : ν → Program κ ν α} {n : ℕ} {s : σ}
    (h : (Program.op o next).ReadsHold S fails n s) :
    (fails n = true → o.writes = false → (S.perform s o).1 = S.empty) ∧
      (next (S.perform s o).1).ReadsHold S fails (n + 1) (S.perform s o).2 := by
  rw [ReadsHold, runs_op] at h
  refine ⟨h 0 _ rfl, fun i e he hfails => ?_⟩
  rw [Nat.add_right_comm, Nat.add_assoc] at hfails
  exact h (i + 1) e he hfails

theorem ReadsHold.spared {p : Program κ ν α} {n : ℕ} {s : σ} (h : p.ReadsHold S fails n s)
    (hwritten : ∀ e ∈ (p.run S fails n s).log, e.op.writes = true → e.carriedOut = true) :
    p.Spared S fails n s := by
  induction p generalizing n s with
  | done a =>
    intro i e he
    cases he
  | op o next ih =>
    obtain ⟨hread, hrest⟩ := h.op
    obtain ⟨hfirst, hwritten⟩ := List.forall_mem_cons.mp hwritten
    by_cases hfails : fails n = true
    · have hreads : o.writes = false := by
        by_contra hwrites
        rw [Bool.not_eq_false] at hwrites
        have hcarried := hfirst hwrites
        rw [hfails] at hcarried
        cases hcarried
      have hempty := hread hfails hreads
      rw [if_pos hfails] at hwritten
      refine (Spared.op_iff o next n s).mpr ⟨fun _ => ⟨hreads, hempty⟩, ih _ hrest ?_⟩
      rw [hempty, perform_of_not_writes S hreads]
      exact hwritten
    · rw [if_neg hfails] at hwritten
      exact (Spared.op_iff o next n s).mpr ⟨fun hfail => absurd hfail hfails, ih _ hrest hwritten⟩

end Program

end TonyCat.Library
