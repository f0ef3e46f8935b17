import TonyCat.Loop.LoopPool

set_option autoImplicit false

/-! Who has posted what to the loops of a `LoopPool`, and where it runs. -/

namespace TonyCat.Loop

open TonyCat.Library

variable {F : Type} {n home : ℕ}

namespace PoolTask

/-- The number of the call that posts the task; `Start` is the first. -/
def call : PoolTask F → Option ℕ
  | .setIndex _ => some 0
  | .exec call _ => some call
  | .shared call _ => some call
  | .work call _ _ => some call
  | .finish _ _ => none

def worksFor (k : ℕ) : PoolTask F → Bool
  | .work call _ _ => call = k
  | _ => false

def finishes (k : ℕ) : PoolTask F → Bool
  | .finish call _ => call = k
  | _ => false

end PoolTask

namespace PoolCall

def posts (n k : ℕ) : PoolCall F × ℕ → List (ℕ × PoolTask F)
  | (.start, i) => (List.range i).map fun j => (j, .setIndex j)
  | (.exec index func, _) => [(index % n, .exec k func)]
  | (.broadcast none, _) => []
  | (.broadcast (some func), i) => (List.range i).map fun j => (j, .shared k func)
  | (.broadcastAndDone funcDo funcFinish, i) => (List.range i).map fun j => (j, .work k funcDo funcFinish)

def next (k i : ℕ) : PoolCall F → List (ℕ × PoolTask F)
  | .start => [(i, .setIndex i)]
  | .exec _ _ => []
  | .broadcast none => []
  | .broadcast (some func) => [(i, .shared k func)]
  | .broadcastAndDone funcDo funcFinish => [(i, .work k funcDo funcFinish)]

lemma posts_succ (k i : ℕ) (c : PoolCall F) : posts n k (c, i + 1) = posts n k (c, i) ++ c.next k i := by
  cases c with
  | start => simp [posts, next, List.range_succ]
  | exec index func => simp [posts, next]
  | broadcast func => cases func <;> simp [posts, next, List.range_succ]
  | broadcastAndDone funcDo funcFinish => simp [posts, next, List.range_succ]

end PoolCall

namespace PoolRun

variable {s s' : PoolRun F} {e : PoolEvent F}

def callAt (n : ℕ) (s : PoolRun F) (k : ℕ) : Option (PoolCall F × ℕ) :=
  if k = s.returned.length then s.current else s.returned[k]?.map fun c => (c, n)

def free (s : PoolRun F) (loop : ℕ) : PoolRun F := { s with holding := Function.update s.holding loop none }

/-! ### The steps -/

inductive Step (n home : ℕ) (s : PoolRun F) : PoolEvent F → PoolRun F → Prop
  | exec {index : ℕ} {func : F} (hidle : s.current = none) :
    Step n home s (.call (.exec index func))
      { s.post (index % n) (.exec s.returned.length func) with returned := s.returned ++ [.exec index func] }
  | skip (hidle : s.current = none) :
    Step n home s (.call (.broadcast none)) { s with returned := s.returned ++ [.broadcast none] }
  | broadcast {func : F} (hidle : s.current = none) :
    Step n home s (.call (.broadcast (some func))) { s with current := some (.broadcast (some func), 0) }
  | broadcastAndDone {funcDo : Option F} {funcFinish : F} (hidle : s.current = none) :
    Step n home s (.call (.broadcastAndDone funcDo funcFinish))
      { s with
        current := some (.broadcastAndDone funcDo funcFinish, 0)
        useCount := Function.update s.useCount s.returned.length 1 }
  | next {c : PoolCall F} {i : ℕ} (hcurrent : s.current = some (c, i)) (hi : i < n) :
    Step n home s .next { s.postNext i c with current := some (c, i + 1) }
  | return' {c : PoolCall F} {i : ℕ} (hcurrent : s.current = some (c, i)) (hi : n ≤ i) :
    Step n home s .next (s.return' home c)
  | run {loop : ℕ} {task : PoolTask F} {loops : LoopPool (PoolTask F)} (hfree : s.holding loop = none)
    (htake : s.loops.take loop = some (task, loops)) :
    Step n home s (.run loop) ({ s with loops := loops }.perform loop task)
  | release {loop call : ℕ} {funcFinish : F} (hheld : s.holding loop = some (call, funcFinish)) :
    Step n home s (.release loop) ((s.free loop).releaseCopy home call funcFinish)

lemma step_cases (hn : 0 < n) (h : step n home s e = some s') : Step n home s e s' := by
  cases e with
  | call c =>
    cases hcurrent : s.current with
    | some _ => simp [step, hcurrent] at h
    | none =>
      cases c with
      | start => simp [step, hcurrent] at h
      | exec index func =>
        simp only [step, hcurrent, getLoop, if_neg hn.ne', Option.some.injEq] at h
        exact h ▸ .exec hcurrent
      | broadcast func =>
        cases func with
        | none =>
          simp only [step, hcurrent, Option.some.injEq] at h
          exact h ▸ hcurrent ▸ .skip hcurrent
        | some func =>
          simp only [step, hcurrent, Option.some.injEq] at h
          exact h ▸ .broadcast hcurrent
      | broadcastAndDone funcDo funcFinish =>
        simp only [step, hcurrent, Option.some.injEq] at h
        exact h ▸ .broadcastAndDone hcurrent
  | next =>
    cases hcurrent : s.current with
    | none => simp [step, hcurrent] at h
    | some current =>
      obtain ⟨c, i⟩ := current
      simp only [step, hcurrent] at h
      split_ifs at h with hi
      · cases h
        exact .next hcurrent hi
      · cases h
        exact .return' hcurrent (Nat.le_of_not_lt hi)
  | run loop =>
    cases hheld : s.holding loop with
    | some _ => simp [step, hheld] at h
    | none =>
      simp only [step, hheld] at h
      obtain ⟨⟨task, loops⟩, htake, rfl⟩ := Option.map_eq_some_iff.mp h
      exact .run hheld htake
  | release loop =>
    cases hheld : s.holding loop with
    | none => simp [step, hheld] at h
    | some held =>
      obtain ⟨call, funcFinish⟩ := held
      simp only [step, hheld, Option.some.injEq] at h
      exact h ▸ .release hheld

/-! ### What each operation changes -/

structure SameRuns (s s' : PoolRun F) : Prop where
  ran : s'.loops.ran = s.loops.ran
  holding : s'.holding = s.holding
  observed : s'.observed = s.observed
  index : s'.t_indexInLoop = s.t_indexInLoop

@[simp] lemma posts_post (loop : ℕ) (task : PoolTask F) : (s.post loop task).posts = s.posts ++ [(loop, task)] := rfl

lemma sameRuns_postNext (i : ℕ) (c : PoolCall F) : SameRuns s (s.postNext i c) := by
  cases c with
  | broadcast func => cases func <;> exact ⟨rfl, rfl, rfl, rfl⟩
  | _ => exact ⟨rfl, rfl, rfl, rfl⟩

@[simp] lemma posts_postNext (i : ℕ) (c : PoolCall F) :
    (s.postNext i c).posts = s.posts ++ c.next s.returned.length i := by
  cases c with
  | start => rfl
  | exec index func => simp [postNext, PoolCall.next]
  | broadcast func =>
    cases func with
    | none => simp [postNext, PoolCall.next]
    | some func => rfl
  | broadcastAndDone funcDo funcFinish => rfl

@[simp] lemma returned_postNext (i : ℕ) (c : PoolCall F) : (s.postNext i c).returned = s.returned := by
  cases c with
  | broadcast func => cases func <;> rfl
  | _ => rfl

lemma useCount_postNext_of_ne {i k : ℕ} {c : PoolCall F} (hk : k ≠ s.returned.length) :
    (s.postNext i c).useCount k = s.useCount k := by
  cases c with
  | broadcast func => cases func <;> rfl
  | broadcastAndDone funcDo funcFinish => exact Function.update_of_ne hk _ _
  | _ => rfl

section ReleaseCopy

variable (home : ℕ) (s : PoolRun F) (k : ℕ) (ff : F)

def lastCopy : List (ℕ × PoolTask F) := if s.useCount k = 1 then [(home, .finish k ff)] else []

lemma sameRuns_releaseCopy : SameRuns s (s.releaseCopy home k ff) := by
  unfold releaseCopy
  split_ifs <;> exact ⟨rfl, rfl, rfl, rfl⟩

@[simp] lemma posts_releaseCopy : (s.releaseCopy home k ff).posts = s.posts ++ s.lastCopy home k ff := by
  unfold releaseCopy lastCopy
  split_ifs <;> simp

@[simp] lemma useCount_releaseCopy :
    (s.releaseCopy home k ff).useCount = Function.update s.useCount k (s.useCount k - 1) := by
  unfold releaseCopy
  split_ifs with h
  · simp [h]
  · rfl

@[simp] lemma returned_releaseCopy : (s.releaseCopy home k ff).returned = s.returned := by
  unfold releaseCopy
  split_ifs <;> rfl

@[simp] lemma current_releaseCopy : (s.releaseCopy home k ff).current = s.current := by
  unfold releaseCopy
  split_ifs <;> rfl

end ReleaseCopy

section Return

variable (home : ℕ) (s : PoolRun F) (c : PoolCall F)

def lastPost : List (ℕ × PoolTask F) :=
  match c with
  | .broadcastAndDone _ funcFinish => s.lastCopy home s.returned.length funcFinish
  | _ => []

lemma sameRuns_return' : SameRuns s (s.return' home c) := by
  cases c with
  | broadcastAndDone funcDo funcFinish =>
    obtain ⟨hran, hholding, hobserved, hindex⟩ := sameRuns_releaseCopy home
      { s with current := none, returned := s.returned ++ [.broadcastAndDone funcDo funcFinish] } s.returned.length
      funcFinish
    exact ⟨hran, hholding, hobserved, hindex⟩
  | _ => exact ⟨rfl, rfl, rfl, rfl⟩

@[simp] lemma posts_return' : (s.return' home c).posts = s.posts ++ s.lastPost home c := by
  cases c with
  | broadcastAndDone funcDo funcFinish => exact posts_releaseCopy ..
  | _ => exact (List.append_nil _).symm

@[simp] lemma returned_return' : (s.return' home c).returned = s.returned ++ [c] := by
  cases c with
  | broadcastAndDone funcDo funcFinish => exact returned_releaseCopy ..
  | _ => rfl

@[simp] lemma current_return' : (s.return' home c).current = none := by
  cases c with
  | broadcastAndDone funcDo funcFinish => exact current_releaseCopy ..
  | _ => rfl

end Return

section Perform

variable (s : PoolRun F) (loop : ℕ) (task : PoolTask F)

@[simp] lemma loops_perform : (s.perform loop task).loops = s.loops := by cases task <;> rfl

@[simp] lemma posts_perform : (s.perform loop task).posts = s.posts := by cases task <;> rfl

@[simp] lemma returned_perform : (s.perform loop task).returned = s.returned := by cases task <;> rfl

@[simp] lemma current_perform : (s.perform loop task).current = s.current := by cases task <;> rfl

@[simp] lemma useCount_perform : (s.perform loop task).useCount = s.useCount := by cases task <;> rfl

@[simp] lemma observed_perform :
    (s.perform loop task).observed = s.observed ++ [(loop, task, s.t_indexInLoop loop)] := by cases task <;> rfl

lemma index_perform_of_ne {j : ℕ} (hj : j ≠ loop) : (s.perform loop task).t_indexInLoop j = s.t_indexInLoop j := by
  cases task with
  | setIndex i => exact Function.update_of_ne hj _ _
  | _ => rfl

lemma index_perform_self :
    (∃ i, task = .setIndex i ∧ (s.perform loop task).t_indexInLoop loop = i) ∨
      (s.perform loop task).t_indexInLoop loop = s.t_indexInLoop loop := by
  cases task with
  | setIndex i => exact .inl ⟨i, rfl, Function.update_self _ _ _⟩
  | _ => exact .inr rfl

lemma held_of_perform {j k : ℕ} {ff : F} (h : (s.perform loop task).holding j = some (k, ff)) :
    s.holding j = some (k, ff) ∨ j = loop ∧ ∃ fd, task = .work k fd ff := by
  cases task with
  | work call funcDo funcFinish =>
    by_cases hj : j = loop
    · subst hj
      change Function.update s.holding j (some (call, funcFinish)) j = _ at h
      rw [Function.update_self] at h
      cases h
      exact .inr ⟨rfl, funcDo, rfl⟩
    · change Function.update s.holding loop (some (call, funcFinish)) j = _ at h
      rw [Function.update_of_ne hj] at h
      exact .inl h
  | _ => exact .inl h

end Perform

/-! ### Every loop gets its tasks in the order of the posts -/

def Fifo (s : PoolRun F) : Prop := ∀ j, s.loops.posted j = ranOn s.posts j

lemma Fifo.post (h : s.Fifo) (loop : ℕ) (task : PoolTask F) : (s.post loop task).Fifo := by
  intro j
  rw [posts_post, ranOn_append, ← h j]
  by_cases hj : loop = j
  · subst hj
    rw [ranOn_cons_self, ranOn_nil]
    exact LoopPool.posted_post_self loop task
  · rw [ranOn_cons_of_ne hj, ranOn_nil, List.append_nil]
    exact LoopPool.posted_post_of_ne (Ne.symm hj) task

lemma Fifo.postNext (h : s.Fifo) (i : ℕ) (c : PoolCall F) : (s.postNext i c).Fifo := by
  cases c with
  | start => exact h.post i _
  | exec index func => exact h
  | broadcast func =>
    cases func with
    | none => exact h
    | some func => exact h.post i _
  | broadcastAndDone funcDo funcFinish => exact h.post i _

lemma Fifo.releaseCopy (h : s.Fifo) (home k : ℕ) (ff : F) : (s.releaseCopy home k ff).Fifo := by
  unfold PoolRun.releaseCopy
  split_ifs
  · exact h.post home _
  · exact h

lemma Fifo.return' (h : s.Fifo) (home : ℕ) (c : PoolCall F) : (s.return' home c).Fifo := by
  cases c with
  | broadcastAndDone funcDo funcFinish =>
    have hreturned : Fifo { s with current := none, returned := s.returned ++ [.broadcastAndDone funcDo funcFinish] } := h
    exact hreturned.releaseCopy home _ _
  | _ => exact h

lemma Fifo.step (h : s.Fifo) (hstep : Step n home s e s') : s'.Fifo := by
  cases hstep with
  | exec hidle => exact h.post _ _
  | skip hidle => exact h
  | broadcast hidle => exact h
  | broadcastAndDone hidle => exact h
  | next hcurrent hi => exact h.postNext _ _
  | return' hcurrent hi => exact h.return' home _
  | @run loop task loops hfree htake =>
    intro j
    rw [loops_perform, posts_perform]
    exact (LoopPool.posted_take htake j).trans (h j)
  | @release loop call funcFinish hheld =>
    have hfree : (s.free loop).Fifo := h
    exact hfree.releaseCopy home _ _

lemma Fifo.ran_prefix (h : s.Fifo) (j : ℕ) : ranOn s.loops.ran j <+: ranOn s.posts j :=
  h j ▸ List.prefix_append _ _

lemma Fifo.mem_posts (h : s.Fifo) {j : ℕ} {task : PoolTask F} (hran : (j, task) ∈ s.loops.ran) : (j, task) ∈ s.posts :=
  mem_ranOn.mp ((h.ran_prefix j).subset (mem_ranOn.mpr hran))

/-! ### Who posts what -/

lemma callAt_of_returned {c : PoolCall F} (hcurrent : s'.current = none) (hreturned : s'.returned = s.returned ++ [c])
    (k : ℕ) : s'.callAt n k = if k = s.returned.length then some (c, n) else s.callAt n k := by
  unfold callAt
  rw [hcurrent, hreturned, List.length_append, List.length_singleton]
  obtain hlt | rfl | hgt := Nat.lt_trichotomy k s.returned.length
  · rw [if_neg (by omega), if_neg (by omega), if_neg (by omega), List.getElem?_append_left hlt]
  · rw [if_neg (by omega), if_pos rfl, List.getElem?_concat_length]
    rfl
  · have hbeyond : (s.returned ++ [c]).length ≤ k := by
      rw [List.length_append, List.length_singleton]
      exact hgt
    simp only [if_neg hgt.ne', List.getElem?_eq_none hgt.le, List.getElem?_eq_none hbeyond, Option.map_none, ite_self]

lemma callAt_of_current (hreturned : s'.returned = s.returned) (k : ℕ) :
    s'.callAt n k = if k = s.returned.length then s'.current else s.callAt n k := by
  unfold callAt
  rw [hreturned]
  split_ifs <;> rfl

structure Posted (n : ℕ) (s : PoolRun F) : Prop where
  fifo : s.Fifo
  bound : ∀ {c : PoolCall F} {i : ℕ}, s.current = some (c, i) → i ≤ n
  begins : ∃ i, s.callAt n 0 = some (.start, i)
  starts : ∀ {k i : ℕ}, s.callAt n k = some (.start, i) → k = 0
  postedBy : ∀ k, s.posts.filter (fun p => p.2.call = some k) = (s.callAt n k).elim [] (PoolCall.posts n k)
  held : ∀ {j k : ℕ} {ff : F}, s.holding j = some (k, ff) → ∃ fd, (j, .work k fd ff) ∈ s.loops.ran

namespace Posted

lemma length_pos_of_idle (h : s.Posted n) (hidle : s.current = none) : 0 < s.returned.length := by
  obtain ⟨i, hi⟩ := h.begins
  by_contra hzero
  rw [callAt, if_pos (by omega), hidle] at hi
  cases hi

lemma callAt_length {c : PoolCall F} {i : ℕ} (hcurrent : s.current = some (c, i)) :
    s.callAt n s.returned.length = some (c, i) := by
  rw [callAt, if_pos rfl, hcurrent]

lemma callAt_length_of_idle (hidle : s.current = none) : s.callAt n s.returned.length = none := by
  rw [callAt, if_pos rfl, hidle]

lemma eq_start (h : s.Posted n) {i : ℕ} (hcurrent : s.current = some (.start, i)) : s.returned.length = 0 :=
  h.starts (callAt_length hcurrent)

lemma mem_posts (h : s.Posted n) {j k : ℕ} {task : PoolTask F} (hmem : (j, task) ∈ s.posts) (hcall : task.call = some k) :
    ∃ x, s.callAt n k = some x ∧ (j, task) ∈ PoolCall.posts n k x := by
  have hfilter : (j, task) ∈ s.posts.filter fun p => p.2.call = some k :=
    List.mem_filter.mpr ⟨hmem, decide_eq_true hcall⟩
  rw [h.postedBy k] at hfilter
  cases hx : s.callAt n k with
  | none =>
    rw [hx] at hfilter
    cases hfilter
  | some x =>
    rw [hx] at hfilter
    exact ⟨x, rfl, hfilter⟩

lemma posts_mem (h : s.Posted n) {j k : ℕ} {task : PoolTask F} {x : PoolCall F × ℕ} (hx : s.callAt n k = some x)
    (hmem : (j, task) ∈ PoolCall.posts n k x) : (j, task) ∈ s.posts := by
  have hfilter := h.postedBy k
  rw [hx, Option.elim_some] at hfilter
  rw [← hfilter] at hmem
  exact List.mem_of_mem_filter hmem

lemma filter_next (h : s.Posted n) {c : PoolCall F} {i : ℕ} (hcurrent : s.current = some (c, i)) (k : ℕ) :
    (c.next s.returned.length i).filter (fun p => p.2.call = some k) =
      if k = s.returned.length then c.next s.returned.length i else [] := by
  have hall : ∀ p ∈ c.next s.returned.length i, p.2.call = some s.returned.length := by
    intro p hp
    cases c with
    | start =>
      obtain rfl := List.mem_singleton.mp hp
      rw [h.eq_start hcurrent]
      rfl
    | exec index func => cases hp
    | broadcast func =>
      cases func with
      | none => cases hp
      | some func =>
        obtain rfl := List.mem_singleton.mp hp
        rfl
    | broadcastAndDone funcDo funcFinish =>
      obtain rfl := List.mem_singleton.mp hp
      rfl
  split_ifs with hk
  · rw [List.filter_eq_self]
    intro p hp
    exact decide_eq_true (hk ▸ hall p hp)
  · rw [List.filter_eq_nil_iff]
    intro p hp
    rw [hall p hp, decide_eq_true_eq, Option.some.injEq]
    exact Ne.symm hk

lemma filter_lastCopy (k : ℕ) (ff : F) (k' : ℕ) :
    (s.lastCopy home k ff).filter (fun p => p.2.call = some k') = [] := by
  unfold lastCopy
  split_ifs <;> rfl

lemma filter_lastPost (c : PoolCall F) (k : ℕ) : (s.lastPost home c).filter (fun p => p.2.call = some k) = [] := by
  cases c with
  | broadcastAndDone funcDo funcFinish => exact filter_lastCopy ..
  | _ => rfl

lemma at_once (h : s.Posted n) (hidle : s.current = none) {c : PoolCall F} {ps : List (ℕ × PoolTask F)}
    (hposts : s'.posts = s.posts ++ ps) (hps : ps = PoolCall.posts n s.returned.length (c, n))
    (hcall : ∀ p ∈ ps, p.2.call = some s.returned.length) (hstart : c ≠ .start) (hcurrent : s'.current = none)
    (hreturned : s'.returned = s.returned ++ [c]) (hruns : SameRuns s s') (hfifo : s'.Fifo) : s'.Posted n where
  fifo := hfifo
  bound hc := by
    rw [hcurrent] at hc
    cases hc
  begins := by
    have hpos := h.length_pos_of_idle hidle
    obtain ⟨i, hi⟩ := h.begins
    exact ⟨i, by rw [callAt_of_returned hcurrent hreturned, if_neg hpos.ne, hi]⟩
  starts {k i} hk := by
    rw [callAt_of_returned hcurrent hreturned] at hk
    split_ifs at hk
    · cases hk
      exact absurd rfl hstart
    · exact h.starts hk
  postedBy k := by
    rw [hposts, List.filter_append, h.postedBy k, callAt_of_returned hcurrent hreturned]
    split_ifs with hk
    · have hself : ps.filter (fun p => p.2.call = some k) = ps :=
        List.filter_eq_self.mpr fun p hp => decide_eq_true (hk ▸ hcall p hp)
      rw [hself, hk, callAt_length_of_idle hidle, hps]
      rfl
    · have hnone : ps.filter (fun p => p.2.call = some k) = [] := by
        rw [List.filter_eq_nil_iff]
        intro p hp
        rw [hcall p hp, decide_eq_true_eq, Option.some.injEq]
        exact Ne.symm hk
      rw [hnone, List.append_nil]
  held hheld := by
    rw [hruns.holding] at hheld
    rw [hruns.ran]
    exact h.held hheld

lemma enters (h : s.Posted n) (hidle : s.current = none) {c : PoolCall F} (hposts : s'.posts = s.posts)
    (hnone : PoolCall.posts n s.returned.length (c, 0) = []) (hstart : c ≠ .start) (hcurrent : s'.current = some (c, 0))
    (hreturned : s'.returned = s.returned) (hruns : SameRuns s s') (hfifo : s'.Fifo) : s'.Posted n where
  fifo := hfifo
  bound hc := by
    rw [hcurrent] at hc
    cases hc
    exact Nat.zero_le n
  begins := by
    have hpos := h.length_pos_of_idle hidle
    obtain ⟨i, hi⟩ := h.begins
    exact ⟨i, by rw [callAt_of_current hreturned, if_neg hpos.ne, hi]⟩
  starts {k i} hk := by
    rw [callAt_of_current hreturned, hcurrent] at hk
    split_ifs at hk
    · cases hk
      exact absurd rfl hstart
    · exact h.starts hk
  postedBy k := by
    rw [hposts, h.postedBy k, callAt_of_current hreturned, hcurrent]
    split_ifs with hk
    · rw [hk, callAt_length_of_idle hidle, Option.elim_some, hnone]
      rfl
    · rfl
  held hheld := by
    rw [hruns.holding] at hheld
    rw [hruns.ran]
    exact h.held hheld

lemma frame (h : s.Posted n) {ps : List (ℕ × PoolTask F)} (hposts : s'.posts = s.posts ++ ps)
    (hcall : ∀ k, ps.filter (fun p => p.2.call = some k) = []) (hcurrent : s'.current = s.current)
    (hreturned : s'.returned = s.returned) (hfifo : s'.Fifo)
    (hheld : ∀ {j k : ℕ} {ff : F}, s'.holding j = some (k, ff) → ∃ fd, (j, .work k fd ff) ∈ s'.loops.ran) :
    s'.Posted n := by
  have hsame : ∀ k, s'.callAt n k = s.callAt n k := fun k => by rw [callAt, hcurrent, hreturned, callAt]
  refine ⟨hfifo, ?_, ?_, ?_, ?_, hheld⟩
  · rw [hcurrent]
    exact h.bound
  · rw [hsame]
    exact h.begins
  · intro k i hk
    rw [hsame] at hk
    exact h.starts hk
  · intro k
    rw [hposts, List.filter_append, hcall, List.append_nil, hsame]
    exact h.postedBy k

lemma init : (init : PoolRun F).Posted n where
  fifo _ := rfl
  bound h := by
    cases h
    exact Nat.zero_le n
  begins := ⟨0, rfl⟩
  starts {k i} h := by
    by_contra hk
    cases (if_neg hk).symm.trans h
  postedBy k := by
    rw [callAt]
    split_ifs <;> rfl
  held h := by cases h

lemma next (h : s.Posted n) {c : PoolCall F} {i : ℕ} (hcurrent : s.current = some (c, i)) (hi : i < n)
    (hfifo : Fifo { s.postNext i c with current := some (c, i + 1) }) :
    Posted n { s.postNext i c with current := some (c, i + 1) } := by
  have hat : ∀ k, callAt n { s.postNext i c with current := some (c, i + 1) } k =
      if k = s.returned.length then some (c, i + 1) else s.callAt n k :=
    callAt_of_current (returned_postNext i c)
  refine ⟨hfifo, ?_, ?_, ?_, ?_, ?_⟩
  · rintro c' i' ⟨⟩
    exact hi
  · obtain ⟨i₀, hi₀⟩ := h.begins
    rw [hat]
    split_ifs with hzero
    · rw [callAt, if_pos hzero, hcurrent] at hi₀
      cases hi₀
      exact ⟨i + 1, rfl⟩
    · exact ⟨i₀, hi₀⟩
  · intro k i' hk
    rw [hat] at hk
    split_ifs at hk with hlen
    · cases hk
      rw [hlen]
      exact h.eq_start hcurrent
    · exact h.starts hk
  · intro k
    rw [hat]
    have hposts : ({ s.postNext i c with current := some (c, i + 1) } : PoolRun F).posts =
        s.posts ++ c.next s.returned.length i := posts_postNext i c
    rw [hposts, List.filter_append, h.postedBy k, h.filter_next hcurrent]
    split_ifs with hlen
    · rw [hlen, callAt_length hcurrent, Option.elim_some, Option.elim_some, PoolCall.posts_succ]
    · exact List.append_nil _
  · intro j k ff hheld
    have hruns := sameRuns_postNext (s := s) i c
    have hheld' : s.holding j = some (k, ff) := hruns.holding ▸ hheld
    obtain ⟨fd, hmem⟩ := h.held hheld'
    exact ⟨fd, hruns.ran.symm ▸ hmem⟩

lemma return' (h : s.Posted n) {c : PoolCall F} (hcurrent : s.current = some (c, n))
    (hfifo : (s.return' home c).Fifo) : (s.return' home c).Posted n := by
  have hsame : ∀ k, (s.return' home c).callAt n k = s.callAt n k := by
    intro k
    rw [callAt_of_returned (current_return' home s c) (returned_return' home s c)]
    split_ifs with hlen
    · rw [hlen, callAt_length hcurrent]
    · rfl
  refine ⟨hfifo, ?_, ?_, ?_, ?_, ?_⟩
  · rw [current_return']
    nofun
  · rw [hsame]
    exact h.begins
  · intro k i' hk
    rw [hsame] at hk
    exact h.starts hk
  · intro k
    rw [posts_return', List.filter_append, filter_lastPost, List.append_nil, hsame]
    exact h.postedBy k
  · intro j k ff hheld
    rw [(sameRuns_return' home s c).holding] at hheld
    rw [(sameRuns_return' home s c).ran]
    exact h.held hheld

lemma run (h : s.Posted n) {loop : ℕ} {task : PoolTask F} {loops : LoopPool (PoolTask F)}
    (htake : s.loops.take loop = some (task, loops)) (hfifo : Fifo ({ s with loops := loops }.perform loop task)) :
    Posted n ({ s with loops := loops }.perform loop task) := by
  refine h.frame (by rw [posts_perform, List.append_nil]) (fun _ => rfl) (by simp) (by simp) hfifo ?_
  intro j k ff hheld
  rw [loops_perform, LoopPool.ran_take htake]
  obtain hheld | ⟨rfl, fd, rfl⟩ := held_of_perform _ _ _ hheld
  · obtain ⟨fd, hmem⟩ := h.held hheld
    exact ⟨fd, List.mem_append_left _ hmem⟩
  · exact ⟨fd, List.mem_append_right _ (List.mem_singleton_self _)⟩

lemma release (h : s.Posted n) {loop call : ℕ} {funcFinish : F}
    (hfifo : ((s.free loop).releaseCopy home call funcFinish).Fifo) :
    ((s.free loop).releaseCopy home call funcFinish).Posted n := by
  refine h.frame (posts_releaseCopy ..) (filter_lastCopy _ _) (current_releaseCopy ..) (returned_releaseCopy ..)
    hfifo ?_
  intro j k ff hheld
  have hruns := sameRuns_releaseCopy home (s.free loop) call funcFinish
  rw [hruns.ran]
  have hheld' : Function.update s.holding loop none j = some (k, ff) := (congrFun hruns.holding j).symm.trans hheld
  have hne : j ≠ loop := by
    rintro rfl
    rw [Function.update_self] at hheld'
    cases hheld'
  rw [Function.update_of_ne hne] at hheld'
  exact h.held hheld'

theorem step (h : s.Posted n) (hstep : Step n home s e s') : s'.Posted n := by
  have hfifo := h.fifo.step hstep
  cases hstep with
  | @exec index func hidle =>
    refine h.at_once hidle (c := .exec index func) rfl rfl ?_ nofun hidle rfl ⟨rfl, rfl, rfl, rfl⟩ hfifo
    intro p hp
    obtain rfl := List.mem_singleton.mp hp
    rfl
  | skip hidle =>
    exact h.at_once hidle (c := .broadcast none) (List.append_nil _).symm rfl nofun nofun hidle rfl
      ⟨rfl, rfl, rfl, rfl⟩ hfifo
  | @broadcast func hidle =>
    exact h.enters hidle (c := .broadcast (some func)) rfl rfl nofun rfl rfl ⟨rfl, rfl, rfl, rfl⟩ hfifo
  | @broadcastAndDone funcDo funcFinish hidle =>
    exact h.enters hidle (c := .broadcastAndDone funcDo funcFinish) rfl rfl nofun rfl rfl ⟨rfl, rfl, rfl, rfl⟩ hfifo
  | next hcurrent hi => exact h.next hcurrent hi hfifo
  | return' hcurrent hi =>
    obtain rfl := Nat.le_antisymm (h.bound hcurrent) hi
    exact h.return' hcurrent hfifo
  | run hfree htake => exact h.run htake hfifo
  | release hheld => exact h.release hfifo

lemma eq_start_of_length (h : s.Posted n) (hzero : s.returned.length = 0) : ∃ i, s.current = some (.start, i) := by
  obtain ⟨i, hi⟩ := h.begins
  rw [callAt, if_pos hzero.symm] at hi
  exact ⟨i, hi⟩

lemma setIndex_own (h : s.Posted n) {j i : ℕ} (hmem : (j, .setIndex i) ∈ s.posts) : i = j := by
  obtain ⟨x, hx, hposts⟩ := h.mem_posts hmem rfl
  obtain ⟨i₀, hi₀⟩ := h.begins
  obtain rfl : x = (.start, i₀) := Option.some.inj (hx.symm.trans hi₀)
  obtain ⟨j', -, heq⟩ := List.mem_map.mp hposts
  cases heq
  rfl

lemma mem_work (h : s.Posted n) {j k : ℕ} {fd : Option F} {ff : F} (hmem : (j, .work k fd ff) ∈ s.posts) :
    ∃ i, s.callAt n k = some (.broadcastAndDone fd ff, i) ∧ j < i := by
  obtain ⟨⟨c, i⟩, hx, hposts⟩ := h.mem_posts hmem rfl
  cases c with
  | start =>
    obtain ⟨j', -, heq⟩ := List.mem_map.mp hposts
    cases heq
  | exec index func =>
    cases List.mem_singleton.mp hposts
  | broadcast func =>
    cases func with
    | none => cases hposts
    | some func =>
      obtain ⟨j', -, heq⟩ := List.mem_map.mp hposts
      cases heq
  | broadcastAndDone fd' ff' =>
    obtain ⟨j', hj', heq⟩ := List.mem_map.mp hposts
    cases heq
    exact ⟨i, hx, List.mem_range.mp hj'⟩

lemma le_of_callAt (h : s.Posted n) {k i : ℕ} {c : PoolCall F} (hk : s.callAt n k = some (c, i)) : i ≤ n := by
  rw [callAt] at hk
  split_ifs at hk
  · exact h.bound hk
  · obtain ⟨c', -, heq⟩ := Option.map_eq_some_iff.mp hk
    cases heq
    exact Nat.le_refl n

lemma length_pos_of_held (h : s.Posted n) {j k : ℕ} {ff : F} (hheld : s.holding j = some (k, ff)) :
    0 < s.returned.length := by
  by_contra hzero
  have hlength : s.returned.length = 0 := Nat.eq_zero_of_not_pos hzero
  obtain ⟨fd, hran⟩ := h.held hheld
  obtain ⟨i, hi, -⟩ := h.mem_work (h.fifo.mem_posts hran)
  obtain ⟨i₀, hcurrent⟩ := h.eq_start_of_length hlength
  rw [callAt, hcurrent] at hi
  split_ifs at hi
  · cases hi
  · rw [List.eq_nil_of_length_eq_zero hlength] at hi
    cases hi

lemma posted_of_started (h : s.Posted n) (hpos : 0 < s.returned.length) {j : ℕ} (hj : j < n) : ranOn s.posts j ≠ [] := by
  obtain ⟨i, hi⟩ := h.begins
  have hstart := hi
  rw [callAt, if_neg hpos.ne] at hi
  obtain ⟨c, -, heq⟩ := Option.map_eq_some_iff.mp hi
  cases heq
  have hmem : (j, .setIndex j) ∈ s.posts := h.posts_mem hstart (List.mem_map.mpr ⟨j, List.mem_range.mpr hj, rfl⟩)
  exact List.ne_nil_of_mem (mem_ranOn.mpr hmem)

/-- Until `Start` has come to a loop, nobody but `Start` posts to it. -/
lemma new_posts (h : s.Posted n) (hstep : Step n home s e s') : ∃ ps, s'.posts = s.posts ++ ps ∧
    ∀ j < n, ranOn s.posts j = [] → ranOn ps j = [] ∨ ranOn ps j = [.setIndex j] := by
  have hstarted : 0 < s.returned.length → ∀ ps : List (ℕ × PoolTask F), ∀ j < n, ranOn s.posts j = [] →
      ranOn ps j = [] ∨ ranOn ps j = [.setIndex j] :=
    fun hpos _ j hj hnil => absurd hnil (h.posted_of_started hpos hj)
  have hnothing : ∀ j < n, ranOn s.posts j = [] → ranOn ([] : List (ℕ × PoolTask F)) j = [] ∨
      ranOn ([] : List (ℕ × PoolTask F)) j = [.setIndex j] := fun _ _ _ => .inl rfl
  cases hstep with
  | exec hidle => exact ⟨_, rfl, hstarted (h.length_pos_of_idle hidle) _⟩
  | skip hidle => exact ⟨[], (List.append_nil _).symm, hnothing⟩
  | broadcast hidle => exact ⟨[], (List.append_nil _).symm, hnothing⟩
  | broadcastAndDone hidle => exact ⟨[], (List.append_nil _).symm, hnothing⟩
  | @next c i hcurrent hi =>
    refine ⟨_, posts_postNext i c, ?_⟩
    obtain hzero | hpos := Nat.eq_zero_or_pos s.returned.length
    · obtain ⟨i₀, hstart⟩ := h.eq_start_of_length hzero
      cases hcurrent.symm.trans hstart
      intro j _ _
      by_cases hj : i = j
      · subst hj
        exact .inr (ranOn_cons_self _ _ _)
      · exact .inl (ranOn_cons_of_ne hj _ _)
    · exact hstarted hpos _
  | @return' c i hcurrent hi =>
    refine ⟨_, posts_return' home s c, ?_⟩
    obtain hzero | hpos := Nat.eq_zero_or_pos s.returned.length
    · obtain ⟨i₀, hstart⟩ := h.eq_start_of_length hzero
      cases hcurrent.symm.trans hstart
      exact hnothing
    · exact hstarted hpos _
  | run hfree htake => exact ⟨[], by rw [posts_perform, List.append_nil], hnothing⟩
  | release hheld => exact ⟨_, posts_releaseCopy .., hstarted (h.length_pos_of_held hheld) _⟩

end Posted

/-! ### Where the tasks run -/

structure Indexed (n : ℕ) (s : PoolRun F) : Prop where
  first : ∀ j < n, ∀ task ∈ (ranOn s.posts j).head?, task = .setIndex j
  indexed : ∀ j < n, ranOn s.loops.ran j ≠ [] → s.t_indexInLoop j = j
  observes : ∀ {j i : ℕ} {task : PoolTask F}, (j, task, i) ∈ s.observed → j < n → i = j ∨ task = .setIndex j
  log : s.observed.map (fun o => (o.1, o.2.1)) = s.loops.ran

namespace Indexed

lemma init : (init : PoolRun F).Indexed n where
  first _ _ _ h := by cases h
  indexed _ _ h := absurd rfl h
  observes h := by cases h
  log := rfl

lemma of_sameRuns (h : s.Indexed n) (hruns : SameRuns s s')
    (hfirst : ∀ j < n, ∀ task ∈ (ranOn s'.posts j).head?, task = .setIndex j) : s'.Indexed n where
  first := hfirst
  indexed := by
    rw [hruns.ran, hruns.index]
    exact h.indexed
  observes := by
    rw [hruns.observed]
    exact h.observes
  log := by
    rw [hruns.observed, hruns.ran]
    exact h.log

theorem step (h : s.Indexed n) (hposted : s.Posted n) (hstep : Step n home s e s') : s'.Indexed n := by
  have hfirst : ∀ j < n, ∀ task ∈ (ranOn s'.posts j).head?, task = .setIndex j := by
    obtain ⟨ps, hps, hnew⟩ := hposted.new_posts hstep
    intro j hj task hmem
    rw [hps, ranOn_append] at hmem
    cases hold : ranOn s.posts j with
    | nil =>
      rw [hold, List.nil_append] at hmem
      obtain hnil | hone := hnew j hj hold
      · rw [hnil] at hmem
        cases hmem
      · rw [hone] at hmem
        cases hmem
        rfl
    | cons a rest =>
      apply h.first j hj
      rw [hold] at hmem ⊢
      exact hmem
  cases hstep with
  | exec hidle => exact h.of_sameRuns ⟨rfl, rfl, rfl, rfl⟩ hfirst
  | skip hidle => exact h.of_sameRuns ⟨rfl, rfl, rfl, rfl⟩ hfirst
  | broadcast hidle => exact h.of_sameRuns ⟨rfl, rfl, rfl, rfl⟩ hfirst
  | broadcastAndDone hidle => exact h.of_sameRuns ⟨rfl, rfl, rfl, rfl⟩ hfirst
  | @next c i hcurrent hi =>
    obtain ⟨hran, hholding, hobserved, hindex⟩ := sameRuns_postNext (s := s) i c
    exact h.of_sameRuns ⟨hran, hholding, hobserved, hindex⟩ hfirst
  | @return' c i hcurrent hi => exact h.of_sameRuns (sameRuns_return' home s c) hfirst
  | @run loop task loops hfree htake =>
    obtain ⟨rest, htask, -⟩ := LoopPool.take_eq_some.mp htake
    have hposts : ranOn s.posts loop = ranOn s.loops.ran loop ++ task :: rest := by
      rw [← hposted.fifo loop, LoopPool.posted, htask]
    have hown : ∀ i, task = .setIndex i → i = loop := by
      rintro i rfl
      apply hposted.setIndex_own
      apply mem_ranOn.mp
      rw [hposts]
      exact List.mem_append_right _ (List.mem_cons_self ..)
    have hhead : loop < n → ranOn s.loops.ran loop = [] → task = .setIndex loop := by
      intro hloop hnil
      apply h.first loop hloop
      rw [hposts, hnil]
      rfl
    refine ⟨hfirst, ?_, ?_, ?_⟩
    · intro j hj hran
      rw [loops_perform, LoopPool.ranOn_take htake] at hran
      by_cases hjl : j = loop
      · subst hjl
        obtain ⟨i, rfl, hi⟩ | hsame := index_perform_self { s with loops := loops } j task
        · rw [hi]
          exact hown i rfl
        · rw [hsame]
          by_cases hnil : ranOn s.loops.ran j = []
          · obtain rfl := hhead hj hnil
            exact hsame.symm.trans (Function.update_self _ _ _)
          · exact h.indexed j hj hnil
      · rw [if_neg hjl, List.append_nil] at hran
        rw [index_perform_of_ne _ _ _ hjl]
        exact h.indexed j hj hran
    · intro j i task' hmem hj
      rw [observed_perform] at hmem
      obtain hmem | hmem := List.mem_append.mp hmem
      · exact h.observes hmem hj
      · cases List.mem_singleton.mp hmem
        by_cases hnil : ranOn s.loops.ran loop = []
        · exact .inr (hhead hj hnil)
        · exact .inl (h.indexed loop hj hnil)
    · rw [observed_perform, loops_perform, LoopPool.ran_take htake, List.map_append, h.log]
      rfl
  | @release loop call funcFinish hheld =>
    obtain ⟨hran, -, hobserved, hindex⟩ :=
      sameRuns_releaseCopy home (s.free loop) call funcFinish
    refine ⟨hfirst, ?_, ?_, ?_⟩
    · rw [hran, hindex]
      exact h.indexed
    · rw [hobserved]
      exact h.observes
    · rw [hobserved, hran]
      exact h.log

end Indexed

end PoolRun

end TonyCat.Loop
