import Mathlib.Algebra.Order.BigOperators.Group.Finset
import TonyCat.Loop.PoolOrder

set_option autoImplicit false

/-! The copies of `pFunDo` that are left, and the post of the finish function by the last of them. -/

namespace TonyCat.Loop

open TonyCat.Library

variable {F : Type} {n home : ℕ}

namespace PoolRun

variable {s s' : PoolRun F} {e : PoolEvent F}

def copies (s : PoolRun F) (k j : ℕ) : ℕ :=
  (s.loops.pending j).countP (PoolTask.worksFor k) + (s.holding j).toList.countP (fun held => held.1 = k)

/-- The local variable `pFunDo`. -/
def localCopies (s : PoolRun F) (k : ℕ) : ℕ :=
  match s.current with
  | some (.broadcastAndDone _ _, _) => if k = s.returned.length then 1 else 0
  | _ => 0

def Counts (n : ℕ) (s : PoolRun F) : Prop :=
  ∀ k, s.useCount k = s.localCopies k + ∑ j ∈ Finset.range n, s.copies k j

lemma sum_add_one {f g : ℕ → ℕ} {i : ℕ} (hi : i < n) (hone : f i = g i + 1) (hrest : ∀ j, j ≠ i → f j = g j) :
    ∑ j ∈ Finset.range n, f j = ∑ j ∈ Finset.range n, g j + 1 := by
  have hmem := Finset.mem_range.mpr hi
  have hsame : ∑ j ∈ (Finset.range n).erase i, f j = ∑ j ∈ (Finset.range n).erase i, g j :=
    Finset.sum_congr rfl fun j hj => hrest j (Finset.ne_of_mem_erase hj)
  have hf := Finset.add_sum_erase (Finset.range n) f hmem
  have hg := Finset.add_sum_erase (Finset.range n) g hmem
  omega

lemma copies_post_self {loop : ℕ} {task : PoolTask F} (k : ℕ) :
    (s.post loop task).copies k loop = s.copies k loop + if task.worksFor k then 1 else 0 := by
  have hpending : (s.post loop task).loops.pending loop = s.loops.pending loop ++ [task] :=
    LoopPool.pending_post_self loop task
  unfold copies
  rw [hpending, List.countP_append, List.countP_singleton]
  exact Nat.add_right_comm _ _ _

lemma copies_post_of_ne {loop j : ℕ} {task : PoolTask F} (hj : j ≠ loop) (k : ℕ) :
    (s.post loop task).copies k j = s.copies k j := by
  have hpending : (s.post loop task).loops.pending j = s.loops.pending j := LoopPool.pending_post_of_ne hj task
  unfold copies
  rw [hpending]
  rfl

lemma copies_post {loop : ℕ} {task : PoolTask F} {k : ℕ} (h : task.worksFor k = false) (j : ℕ) :
    (s.post loop task).copies k j = s.copies k j := by
  by_cases hj : j = loop
  · rw [hj, copies_post_self, h]
    rfl
  · exact copies_post_of_ne hj k

lemma copies_releaseCopy (call : ℕ) (ff : F) (k j : ℕ) : (s.releaseCopy home call ff).copies k j = s.copies k j := by
  unfold releaseCopy
  split_ifs
  · exact copies_post rfl j
  · rfl

lemma copies_return' (c : PoolCall F) (k j : ℕ) : (s.return' home c).copies k j = s.copies k j := by
  cases c with
  | broadcastAndDone funcDo funcFinish => exact copies_releaseCopy ..
  | _ => rfl

lemma copies_perform {loop : ℕ} {task : PoolTask F} {loops : LoopPool (PoolTask F)} (hfree : s.holding loop = none)
    (htake : s.loops.take loop = some (task, loops)) (k j : ℕ) :
    ({ s with loops := loops }.perform loop task).copies k j = s.copies k j := by
  obtain ⟨hpending, hothers⟩ := LoopPool.pending_take htake
  unfold copies
  rw [loops_perform]
  by_cases hj : j = loop
  · subst hj
    rw [hpending, hfree, List.countP_cons]
    cases task with
    | work call funcDo funcFinish =>
      have hheld : ({ s with loops := loops }.perform j (.work call funcDo funcFinish)).holding j =
          some (call, funcFinish) := Function.update_self ..
      rw [hheld]
      by_cases hcall : call = k
      · simp [PoolTask.worksFor, hcall]
      · simp [PoolTask.worksFor, hcall]
    | _ =>
      have hheld : s.holding j = none := hfree
      simp [PoolTask.worksFor, perform, hheld]
  · rw [hothers j hj]
    cases task with
    | work call funcDo funcFinish =>
      have hheld : ({ s with loops := loops }.perform loop (.work call funcDo funcFinish)).holding j = s.holding j :=
        Function.update_of_ne hj _ _
      rw [hheld]
    | _ => rfl

lemma copies_free_self {loop call : ℕ} {ff : F} (hheld : s.holding loop = some (call, ff)) (k : ℕ) :
    s.copies k loop = (s.free loop).copies k loop + if call = k then 1 else 0 := by
  have hnone : (s.free loop).holding loop = none := Function.update_self ..
  unfold copies
  rw [hheld, hnone]
  by_cases hcall : call = k
  · simp [hcall, free]
  · simp [hcall, free]

lemma copies_free_of_ne {loop j : ℕ} (hj : j ≠ loop) (k : ℕ) : (s.free loop).copies k j = s.copies k j := by
  have hsame : (s.free loop).holding j = s.holding j := Function.update_of_ne hj _ _
  unfold copies
  rw [hsame]
  rfl

lemma localCopies_of_current {fd : Option F} {ff : F} {i : ℕ} (hcurrent : s.current = some (.broadcastAndDone fd ff, i))
    (k : ℕ) : s.localCopies k = if k = s.returned.length then 1 else 0 := by
  rw [localCopies, hcurrent]

lemma localCopies_of_lt {k : ℕ} (hk : k < s.returned.length) : s.localCopies k = 0 := by
  unfold localCopies
  split
  · exact if_neg hk.ne
  · rfl

lemma localCopies_of_idle (hidle : s.current = none) (k : ℕ) : s.localCopies k = 0 := by
  rw [localCopies, hidle]

namespace Posted

lemma copies_eq_zero (h : s.Posted n) {k : ℕ} (hk : s.callAt n k = none) (j : ℕ) : s.copies k j = 0 := by
  have hnone : ∀ fd ff, (j, .work k fd ff) ∉ s.posts := by
    intro fd ff hmem
    obtain ⟨i, hi, -⟩ := h.mem_work hmem
    cases hk.symm.trans hi
  rw [copies, Nat.add_eq_zero_iff, List.countP_eq_zero, List.countP_eq_zero]
  constructor
  · intro task hmem hworks
    cases task with
    | work call fd ff =>
      obtain rfl : call = k := of_decide_eq_true hworks
      apply hnone fd ff
      rw [← mem_ranOn, ← h.fifo j]
      exact List.mem_append_right _ hmem
    | _ => cases hworks
  · rintro ⟨call, ff⟩ hmem hcall
    obtain rfl : call = k := of_decide_eq_true hcall
    obtain ⟨fd, hran⟩ := h.held (Option.mem_toList.mp hmem)
    exact hnone fd ff (h.fifo.mem_posts hran)

end Posted

namespace Counts

lemma init : (init : PoolRun F).Counts n := by
  intro k
  have hzero : ∀ j, (PoolRun.init : PoolRun F).copies k j = 0 := fun _ => rfl
  rw [Finset.sum_eq_zero fun j _ => hzero j]
  rfl

lemma of_same (h : s.Counts n) (huse : s'.useCount = s.useCount) (hlocal : ∀ k, s'.localCopies k = s.localCopies k)
    (hcopies : ∀ k j, s'.copies k j = s.copies k j) : s'.Counts n := by
  intro k
  rw [huse, h k, hlocal]
  exact congrArg _ (Finset.sum_congr rfl fun j _ => (hcopies k j).symm)

lemma broadcastAndDone (h : s.Counts n) (hposted : s.Posted n) (hidle : s.current = none) (funcDo : Option F)
    (funcFinish : F) :
    Counts n
      { s with
        current := some (.broadcastAndDone funcDo funcFinish, 0)
        useCount := Function.update s.useCount s.returned.length 1 } := by
  intro k
  change Function.update s.useCount s.returned.length 1 k =
    (if k = s.returned.length then 1 else 0) + ∑ j ∈ Finset.range n, s.copies k j
  split_ifs with hk
  · subst hk
    rw [Function.update_self, Finset.sum_eq_zero fun j _ => hposted.copies_eq_zero
      (Posted.callAt_length_of_idle hidle) j, Nat.add_zero]
  · rw [Function.update_of_ne hk, h k, localCopies_of_idle hidle]

lemma postWork (h : s.Counts n) {funcDo : Option F} {funcFinish : F} {i : ℕ}
    (hcurrent : s.current = some (.broadcastAndDone funcDo funcFinish, i)) (hi : i < n) :
    Counts n { s.postNext i (.broadcastAndDone funcDo funcFinish) with
      current := some (.broadcastAndDone funcDo funcFinish, i + 1) } := by
  intro k
  change Function.update s.useCount s.returned.length (s.useCount s.returned.length + 1) k =
    (if k = s.returned.length then 1 else 0) +
      ∑ j ∈ Finset.range n, (s.post i (.work s.returned.length funcDo funcFinish)).copies k j
  have hcount := h k
  rw [localCopies_of_current hcurrent] at hcount
  by_cases hk : k = s.returned.length
  · subst hk
    have hsum := sum_add_one (f := (s.post i (.work s.returned.length funcDo funcFinish)).copies s.returned.length)
      (g := s.copies s.returned.length) hi (by simp [copies_post_self, PoolTask.worksFor])
      fun j hj => copies_post_of_ne hj _
    rw [Function.update_self, hcount, hsum]
    rfl
  · have hother : ∀ j, (s.post i (.work s.returned.length funcDo funcFinish)).copies k j = s.copies k j :=
      copies_post (decide_eq_false (Ne.symm hk))
    rw [Function.update_of_ne hk, hcount, Finset.sum_congr rfl fun j _ => hother j]

lemma next (h : s.Counts n) {c : PoolCall F} {i : ℕ} (hcurrent : s.current = some (c, i)) (hi : i < n) :
    Counts n { s.postNext i c with current := some (c, i + 1) } := by
  cases c with
  | start => exact h.of_same rfl (fun k => by rw [localCopies, localCopies, hcurrent]) fun k j => copies_post rfl j
  | exec index func => exact h.of_same rfl (fun k => by rw [localCopies, localCopies, hcurrent]) fun k j => rfl
  | broadcast func =>
    cases func with
    | none => exact h.of_same rfl (fun k => by rw [localCopies, localCopies, hcurrent]) fun k j => rfl
    | some func =>
      exact h.of_same rfl (fun k => by rw [localCopies, localCopies, hcurrent]) fun k j => copies_post rfl j
  | broadcastAndDone funcDo funcFinish => exact h.postWork hcurrent hi

lemma return' (h : s.Counts n) {c : PoolCall F} {i : ℕ} (hcurrent : s.current = some (c, i)) :
    (s.return' home c).Counts n := by
  have hcopies : ∀ k, ∑ j ∈ Finset.range n, (s.return' home c).copies k j = ∑ j ∈ Finset.range n, s.copies k j :=
    fun k => Finset.sum_congr rfl fun j _ => copies_return' c k j
  cases c with
  | broadcastAndDone funcDo funcFinish =>
    intro k
    have huse : (s.return' home (.broadcastAndDone funcDo funcFinish)).useCount =
        Function.update s.useCount s.returned.length (s.useCount s.returned.length - 1) := useCount_releaseCopy ..
    have hcount := h k
    rw [localCopies_of_current hcurrent] at hcount
    rw [huse, hcopies, localCopies_of_idle (current_return' ..)]
    by_cases hk : k = s.returned.length
    · subst hk
      rw [if_pos rfl] at hcount
      rw [Function.update_self, hcount]
      omega
    · rw [Function.update_of_ne hk, hcount, if_neg hk]
  | _ =>
    refine h.of_same rfl (fun k => ?_) (copies_return' _)
    rw [localCopies_of_idle (current_return' ..), localCopies, hcurrent]

lemma release (h : s.Counts n) (hposted : s.Posted n) {loop call : ℕ} {funcFinish : F}
    (hheld : s.holding loop = some (call, funcFinish)) :
    ((s.free loop).releaseCopy home call funcFinish).Counts n := by
  intro k
  obtain ⟨fd, hran⟩ := hposted.held hheld
  obtain ⟨i, hi, hpassed⟩ := hposted.mem_work (hposted.fifo.mem_posts hran)
  have hloop : loop < n := Nat.lt_of_lt_of_le hpassed (hposted.le_of_callAt hi)
  have hlocal : ((s.free loop).releaseCopy home call funcFinish).localCopies k = s.localCopies k := by
    rw [localCopies, current_releaseCopy, returned_releaseCopy]
    rfl
  have hcopies : ∑ j ∈ Finset.range n, ((s.free loop).releaseCopy home call funcFinish).copies k j =
      ∑ j ∈ Finset.range n, (s.free loop).copies k j :=
    Finset.sum_congr rfl fun j _ => copies_releaseCopy call funcFinish k j
  rw [useCount_releaseCopy, hlocal, hcopies]
  by_cases hk : k = call
  · subst hk
    have hone := copies_free_self hheld k
    rw [if_pos rfl] at hone
    have hsum : ∑ j ∈ Finset.range n, s.copies k j = ∑ j ∈ Finset.range n, (s.free loop).copies k j + 1 :=
      sum_add_one hloop hone fun j hj => (copies_free_of_ne hj k).symm
    have hcount := h k
    rw [Function.update_self]
    change s.useCount k - 1 = _
    omega
  · rw [Function.update_of_ne hk]
    refine (h k).trans (congrArg _ (Finset.sum_congr rfl fun j _ => ?_))
    by_cases hj : j = loop
    · rw [hj, copies_free_self hheld, if_neg (Ne.symm hk), Nat.add_zero]
    · exact (copies_free_of_ne hj k).symm

theorem step (h : s.Counts n) (hposted : s.Posted n) (hstep : Step n home s e s') : s'.Counts n := by
  cases hstep with
  | @exec index func hidle =>
    refine h.of_same rfl (fun k => ?_) fun k j => copies_post rfl j
    rw [localCopies_of_idle hidle, localCopies_of_idle]
    exact hidle
  | skip hidle =>
    refine h.of_same rfl (fun k => ?_) fun k j => rfl
    rw [localCopies_of_idle hidle, localCopies_of_idle]
    exact hidle
  | broadcast hidle =>
    refine h.of_same rfl (fun k => ?_) fun k j => rfl
    rw [localCopies_of_idle hidle]
    rfl
  | broadcastAndDone hidle => exact h.broadcastAndDone hposted hidle _ _
  | next hcurrent hi => exact h.next hcurrent hi
  | return' hcurrent hi => exact h.return' hcurrent
  | @run loop task loops hfree htake =>
    refine h.of_same (useCount_perform ..) (fun k => ?_) (copies_perform hfree htake)
    rw [localCopies, current_perform, returned_perform]
    rfl
  | release hheld => exact h.release hposted hheld

end Counts

def finishPosts (home : ℕ) (s : PoolRun F) (k : ℕ) : List (ℕ × PoolTask F) :=
  match s.returned[k]? with
  | some (.broadcastAndDone _ funcFinish) => if s.useCount k = 0 then [(home, .finish k funcFinish)] else []
  | _ => []

def Finished (home : ℕ) (s : PoolRun F) : Prop :=
  ∀ k, s.posts.filter (fun p => p.2.finishes k) = s.finishPosts home k

lemma finishPosts_of_returned {k : ℕ} {fd : Option F} {ff : F}
    (hreturned : s.returned[k]? = some (.broadcastAndDone fd ff)) :
    s.finishPosts home k = if s.useCount k = 0 then [(home, .finish k ff)] else [] := by
  rw [finishPosts, hreturned]

lemma finishPosts_of_none {k : ℕ} (hreturned : s.returned[k]? = none) : s.finishPosts home k = [] := by
  rw [finishPosts, hreturned]

lemma finishPosts_congr {k : ℕ} (hreturned : s'.returned[k]? = s.returned[k]?) (huse : s'.useCount k = s.useCount k) :
    s'.finishPosts home k = s.finishPosts home k := by
  rw [finishPosts, finishPosts, hreturned, huse]

namespace Finished

lemma init : (init : PoolRun F).Finished home := fun _ => rfl

lemma of_posts (h : s.Finished home) {ps : List (ℕ × PoolTask F)} (hposts : s'.posts = s.posts ++ ps)
    (hps : ∀ k, ps.filter (fun p => p.2.finishes k) = []) (hsame : ∀ k, s'.finishPosts home k = s.finishPosts home k) :
    s'.Finished home := by
  intro k
  rw [hposts, List.filter_append, hps, List.append_nil, hsame]
  exact h k

lemma finishPosts_concat {c : PoolCall F} (hreturned : s'.returned = s.returned ++ [c]) (huse : s'.useCount = s.useCount)
    (hc : ∀ fd ff, c = .broadcastAndDone fd ff → s.useCount s.returned.length ≠ 0) (k : ℕ) :
    s'.finishPosts home k = s.finishPosts home k := by
  obtain hlt | rfl | hgt := Nat.lt_trichotomy k s.returned.length
  · exact finishPosts_congr (by rw [hreturned, List.getElem?_append_left hlt]) (by rw [huse])
  · rw [finishPosts_of_none (s := s) (List.getElem?_eq_none (Nat.le_refl _)), finishPosts, hreturned,
      List.getElem?_concat_length]
    cases c with
    | broadcastAndDone fd ff => exact if_neg (huse ▸ hc fd ff rfl)
    | _ => rfl
  · have hbeyond : (s.returned ++ [c]).length ≤ k := by
      rw [List.length_append, List.length_singleton]
      exact hgt
    rw [finishPosts_of_none (List.getElem?_eq_none hgt.le), finishPosts_of_none]
    rw [hreturned, List.getElem?_eq_none hbeyond]

lemma releaseCopy (h : s.Finished home) {call : ℕ} {ff : F} (hpos : 0 < s.useCount call)
    (hcall : (∃ fd, s.returned[call]? = some (.broadcastAndDone fd ff)) ∨
      s.returned[call]? = none ∧ 1 < s.useCount call) :
    (s.releaseCopy home call ff).Finished home := by
  intro k
  have hreturned : (s.releaseCopy home call ff).returned[k]? = s.returned[k]? := by rw [returned_releaseCopy]
  rw [posts_releaseCopy, List.filter_append, h k]
  by_cases hk : k = call
  · subst hk
    obtain ⟨fd, hdone⟩ | ⟨hnone, hmore⟩ := hcall
    · rw [finishPosts_of_returned hdone, finishPosts_of_returned (hreturned.trans hdone), useCount_releaseCopy,
        Function.update_self, if_neg hpos.ne', lastCopy]
      split_ifs with hone hzero hzero
      · simp [PoolTask.finishes]
      · omega
      · omega
      · rfl
    · rw [finishPosts_of_none hnone, finishPosts_of_none (hreturned.trans hnone), lastCopy, if_neg (by omega)]
      rfl
  · have hlast : (s.lastCopy home call ff).filter (fun p => p.2.finishes k) = [] := by
      unfold lastCopy
      split_ifs
      · simp [PoolTask.finishes, Ne.symm hk]
      · rfl
    rw [hlast, List.append_nil]
    refine (finishPosts_congr hreturned ?_).symm
    rw [useCount_releaseCopy, Function.update_of_ne hk]

lemma filter_next (k i k' : ℕ) (c : PoolCall F) : (c.next k i).filter (fun p => p.2.finishes k') = [] := by
  cases c with
  | broadcast func => cases func <;> rfl
  | _ => rfl

theorem step (h : s.Finished home) (hposted : s.Posted n) (hcounts : s.Counts n) (hstep : Step n home s e s') :
    s'.Finished home := by
  cases hstep with
  | exec hidle => exact h.of_posts rfl (fun _ => rfl) (finishPosts_concat rfl rfl nofun)
  | skip hidle => exact h.of_posts (List.append_nil _).symm (fun _ => rfl) (finishPosts_concat rfl rfl nofun)
  | broadcast hidle => exact h
  | @broadcastAndDone funcDo funcFinish hidle =>
    refine h.of_posts (List.append_nil _).symm (fun _ => rfl) fun k => ?_
    by_cases hk : k = s.returned.length
    · have hnone : s.returned[k]? = none := List.getElem?_eq_none (hk ▸ Nat.le_refl _)
      rw [finishPosts_of_none hnone]
      exact finishPosts_of_none hnone
    · exact finishPosts_congr rfl (Function.update_of_ne hk _ _)
  | @next c i hcurrent hi =>
    refine h.of_posts (posts_postNext i c) (fun k => filter_next _ _ k c) fun k => ?_
    by_cases hk : k = s.returned.length
    · have hnone : s.returned[k]? = none := List.getElem?_eq_none (hk ▸ Nat.le_refl _)
      have hnone' : (s.postNext i c).returned[k]? = none := by rw [returned_postNext, hnone]
      exact (finishPosts_of_none hnone').trans (finishPosts_of_none hnone).symm
    · exact finishPosts_congr (by rw [returned_postNext]) (useCount_postNext_of_ne hk)
  | @return' c i hcurrent hi =>
    cases c with
    | broadcastAndDone funcDo funcFinish =>
      have hpos : 0 < s.useCount s.returned.length := by
        rw [hcounts s.returned.length, localCopies_of_current hcurrent, if_pos rfl]
        omega
      have hreturned : Finished home
          { s with current := none, returned := s.returned ++ [.broadcastAndDone funcDo funcFinish] } :=
        h.of_posts (List.append_nil _).symm (fun _ => rfl) (finishPosts_concat rfl rfl fun _ _ _ => hpos.ne')
      exact hreturned.releaseCopy hpos (.inl ⟨funcDo, List.getElem?_concat_length⟩)
    | _ => exact h.of_posts (List.append_nil _).symm (fun _ => rfl) (finishPosts_concat rfl rfl nofun)
  | @run loop task loops hfree htake =>
    refine h.of_posts (by rw [posts_perform, List.append_nil]) (fun _ => rfl) fun k => ?_
    exact finishPosts_congr (by rw [returned_perform]) (by rw [useCount_perform])
  | @release loop call funcFinish hheld =>
    have hfree : (s.free loop).Finished home := h
    obtain ⟨fd, hran⟩ := hposted.held hheld
    obtain ⟨i, hi, hpassed⟩ := hposted.mem_work (hposted.fifo.mem_posts hran)
    have hloop : loop ∈ Finset.range n :=
      Finset.mem_range.mpr (Nat.lt_of_lt_of_le hpassed (hposted.le_of_callAt hi))
    have hone : 1 ≤ s.copies call loop := by
      rw [copies_free_self hheld, if_pos rfl]
      exact Nat.le_add_left 1 _
    have hsum : 1 ≤ ∑ j ∈ Finset.range n, s.copies call j :=
      hone.trans (Finset.single_le_sum (fun j _ => Nat.zero_le (s.copies call j)) hloop)
    have hcount := hcounts call
    rw [callAt] at hi
    split_ifs at hi with hlength
    · rw [localCopies_of_current hi, if_pos hlength] at hcount
      refine hfree.releaseCopy (by change 0 < s.useCount call; omega) (.inr ⟨?_, ?_⟩)
      · exact List.getElem?_eq_none (hlength ▸ Nat.le_refl _)
      · change 1 < s.useCount call
        omega
    · obtain ⟨c, hc, heq⟩ := Option.map_eq_some_iff.mp hi
      cases heq
      exact hfree.releaseCopy (by change 0 < s.useCount call; omega) (.inl ⟨fd, hc⟩)

end Finished

end PoolRun

end TonyCat.Loop
