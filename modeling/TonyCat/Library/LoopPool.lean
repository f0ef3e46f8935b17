import Mathlib.Data.List.Basic
import Mathlib.Logic.Function.Basic

set_option autoImplicit false

/-! Loops that each run the tasks posted to them in order, and the history of what ran where. -/

namespace TonyCat.Library

variable {α : Type*}

structure LoopPool (α : Type*) where
  pending : ℕ → List α
  ran : List (ℕ × α)

def ranOn (history : List (ℕ × α)) (loop : ℕ) : List α :=
  history.filterMap fun e => if e.1 = loop then some e.2 else none

lemma ranOn_append (history later : List (ℕ × α)) (loop : ℕ) :
    ranOn (history ++ later) loop = ranOn history loop ++ ranOn later loop :=
  List.filterMap_append

@[simp] lemma ranOn_nil (loop : ℕ) : ranOn ([] : List (ℕ × α)) loop = [] := rfl

@[simp] lemma ranOn_cons_self (loop : ℕ) (a : α) (history : List (ℕ × α)) :
    ranOn ((loop, a) :: history) loop = a :: ranOn history loop := by
  simp [ranOn]

lemma ranOn_cons_of_ne {loop loop' : ℕ} (h : loop' ≠ loop) (a : α) (history : List (ℕ × α)) :
    ranOn ((loop', a) :: history) loop = ranOn history loop := by
  simp [ranOn, h]

lemma mem_ranOn {history : List (ℕ × α)} {loop : ℕ} {a : α} : a ∈ ranOn history loop ↔ (loop, a) ∈ history := by
  simp only [ranOn, List.mem_filterMap, Option.ite_none_right_eq_some, Option.some.injEq]
  constructor
  · rintro ⟨⟨l, b⟩, hm, rfl, rfl⟩
    exact hm
  · exact fun hm => ⟨(loop, a), hm, rfl, rfl⟩

lemma countP_ranOn {history : List (ℕ × α)} {loop : ℕ} {p : α → Bool}
    (h : ∀ e ∈ history, p e.2 = true → e.1 = loop) : (ranOn history loop).countP p = history.countP fun e => p e.2 := by
  induction history with
  | nil => rfl
  | cons e history ih =>
    obtain ⟨loop', a⟩ := e
    have hrest := ih fun e he => h e (List.mem_cons_of_mem _ he)
    by_cases hl : loop' = loop
    · subst hl
      rw [ranOn_cons_self, List.countP_cons, List.countP_cons, hrest]
    · have hp : ¬ p a = true := fun hp => hl (h (loop', a) (List.mem_cons_self ..) hp)
      rw [ranOn_cons_of_ne hl, hrest]
      exact (List.countP_cons_of_neg (p := fun e : ℕ × α => p e.2) hp).symm

namespace LoopPool

def init : LoopPool α := ⟨fun _ => [], []⟩

def post (pool : LoopPool α) (loop : ℕ) (task : α) : LoopPool α :=
  { pool with pending := Function.update pool.pending loop (pool.pending loop ++ [task]) }

def take (pool : LoopPool α) (loop : ℕ) : Option (α × LoopPool α) :=
  match pool.pending loop with
  | [] => none
  | task :: rest => some (task, ⟨Function.update pool.pending loop rest, pool.ran ++ [(loop, task)]⟩)

def posted (pool : LoopPool α) (loop : ℕ) : List α :=
  ranOn pool.ran loop ++ pool.pending loop

variable {pool pool' : LoopPool α} {loop : ℕ} {task : α}

@[simp] lemma posted_init (loop : ℕ) : (init : LoopPool α).posted loop = [] := rfl

@[simp] lemma ran_post (loop : ℕ) (task : α) : (pool.post loop task).ran = pool.ran := rfl

@[simp] lemma pending_post_self (loop : ℕ) (task : α) :
    (pool.post loop task).pending loop = pool.pending loop ++ [task] := Function.update_self ..

lemma pending_post_of_ne {loop' : ℕ} (h : loop' ≠ loop) (task : α) :
    (pool.post loop task).pending loop' = pool.pending loop' := Function.update_of_ne h ..

@[simp] lemma posted_post_self (loop : ℕ) (task : α) :
    (pool.post loop task).posted loop = pool.posted loop ++ [task] := by
  simp [posted, post]

lemma posted_post_of_ne {loop' : ℕ} (h : loop' ≠ loop) (task : α) :
    (pool.post loop task).posted loop' = pool.posted loop' := by
  simp [posted, post, Function.update_of_ne h]

lemma take_eq_some : pool.take loop = some (task, pool') ↔
    ∃ rest, pool.pending loop = task :: rest ∧
      pool' = ⟨Function.update pool.pending loop rest, pool.ran ++ [(loop, task)]⟩ := by
  unfold take
  cases hp : pool.pending loop with
  | nil => simp
  | cons a rest =>
    simp only [Option.some.injEq, Prod.mk.injEq, List.cons.injEq]
    constructor
    · rintro ⟨rfl, rfl⟩
      exact ⟨rest, ⟨rfl, rfl⟩, rfl⟩
    · rintro ⟨_, ⟨rfl, rfl⟩, rfl⟩
      exact ⟨rfl, rfl⟩

lemma ran_take (h : pool.take loop = some (task, pool')) : pool'.ran = pool.ran ++ [(loop, task)] := by
  obtain ⟨rest, _, rfl⟩ := take_eq_some.mp h
  rfl

lemma ranOn_take (h : pool.take loop = some (task, pool')) (loop' : ℕ) :
    ranOn pool'.ran loop' = ranOn pool.ran loop' ++ if loop' = loop then [task] else [] := by
  rw [ran_take h, ranOn_append]
  split_ifs with hl
  · rw [hl, ranOn_cons_self, ranOn_nil]
  · rw [ranOn_cons_of_ne (Ne.symm hl), ranOn_nil]

lemma pending_take (h : pool.take loop = some (task, pool')) :
    pool.pending loop = task :: pool'.pending loop ∧ ∀ loop', loop' ≠ loop → pool'.pending loop' = pool.pending loop' := by
  obtain ⟨rest, hp, rfl⟩ := take_eq_some.mp h
  refine ⟨?_, fun loop' hne => Function.update_of_ne hne _ _⟩
  simp [hp]

lemma posted_take (h : pool.take loop = some (task, pool')) (loop' : ℕ) : pool'.posted loop' = pool.posted loop' := by
  obtain ⟨rest, hp, rfl⟩ := take_eq_some.mp h
  simp only [posted, ranOn_append]
  by_cases hl : loop' = loop
  · subst hl
    simp [hp]
  · simp [Function.update_of_ne hl, ranOn_cons_of_ne (Ne.symm hl)]

lemma ranOn_before {before after : List (ℕ × α)} (h : pool.ran = before ++ (loop, task) :: after)
    {earlier later : List α} (hp : pool.posted loop = earlier ++ task :: later) (he : task ∉ earlier)
    (hl : task ∉ later) : ranOn before loop = earlier := by
  have hsplit : pool.posted loop = ranOn before loop ++ task :: (ranOn after loop ++ pool.pending loop) := by
    rw [posted, h, ranOn_append, ranOn_cons_self, List.append_assoc, List.cons_append]
  rw [hp] at hsplit
  exact ((List.append_cons_inj_of_notMem he hl).mp hsplit).1.symm

def broadcast (pool : LoopPool α) (n : ℕ) (task : α) : LoopPool α :=
  { pool with pending := fun loop => if loop < n then pool.pending loop ++ [task] else pool.pending loop }

@[simp] lemma ran_broadcast (n : ℕ) (task : α) : (pool.broadcast n task).ran = pool.ran := rfl

lemma posted_broadcast (n : ℕ) (task : α) (loop : ℕ) :
    (pool.broadcast n task).posted loop = pool.posted loop ++ if loop < n then [task] else [] := by
  simp only [posted, broadcast]
  split_ifs <;> simp

end LoopPool

section Countdown

variable {ι : Type*} {l : List ι} {i : ι} {p q : ι → Bool}

lemma countP_add_one (hl : l.Nodup) (hi : i ∈ l) (hp : p i = true) (hq : q i = false) (h : ∀ j, j ≠ i → q j = p j) :
    l.countP q + 1 = l.countP p := by
  induction l with
  | nil => cases hi
  | cons j l ih =>
    obtain ⟨hnot, hl⟩ := List.nodup_cons.mp hl
    rcases List.mem_cons.mp hi with rfl | hi
    · have hrest : l.countP q = l.countP p := List.countP_congr fun j hj => by
        rw [h j fun heq => hnot (heq ▸ hj)]
      rw [List.countP_cons_of_neg (by simp [hq]), List.countP_cons_of_pos hp, hrest]
    · have hne : j ≠ i := fun heq => hnot (heq ▸ hi)
      rw [List.countP_cons, List.countP_cons, h j hne, ← ih hl hi]
      omega

lemma flatMap_perm_cons {α : Type*} {a : α} {f g : ι → List α} (hl : l.Nodup) (hi : i ∈ l) (hf : f i = a :: g i)
    (h : ∀ j, j ≠ i → g j = f j) : (l.flatMap f).Perm (a :: l.flatMap g) := by
  induction l with
  | nil => cases hi
  | cons j l ih =>
    obtain ⟨hnot, hl⟩ := List.nodup_cons.mp hl
    rw [List.flatMap_cons, List.flatMap_cons]
    rcases List.mem_cons.mp hi with rfl | hi
    · have hrest : l.flatMap g = l.flatMap f := List.flatMap_congr fun j hj => h j fun heq => hnot (heq ▸ hj)
      rw [hf, hrest, List.cons_append]
    · have hne : j ≠ i := fun heq => hnot (heq ▸ hi)
      rw [h j hne]
      exact ((ih hl hi).append_left _).trans List.perm_middle

end Countdown

end TonyCat.Library
