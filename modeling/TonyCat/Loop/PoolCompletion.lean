import TonyCat.Library.FairRun
import TonyCat.Loop.PoolCopies

set_option autoImplicit false

/-! Tasks run once, on their loop, and `BroadcastAndDone` finishes once, after the loops. -/

namespace TonyCat.Loop

open TonyCat.Library

variable {F : Type} {n home : ℕ}

namespace PoolRun

variable {s s' : PoolRun F}

structure Sound (n home : ℕ) (s : PoolRun F) : Prop where
  posted : s.Posted n
  indexed : s.Indexed n
  counts : s.Counts n
  finished : s.Finished home

namespace Sound

lemma init : (init : PoolRun F).Sound n home := ⟨.init, .init, .init, .init⟩

theorem step {e : PoolEvent F} (h : s.Sound n home) (hstep : Step n home s e s') : s'.Sound n home where
  posted := h.posted.step hstep
  indexed := h.indexed.step h.posted hstep
  counts := h.counts.step h.posted hstep
  finished := h.finished.step h.posted h.counts hstep

theorem run (hn : 0 < n) {es : List (PoolEvent F)} (h : run (PoolRun.step n home) PoolRun.init es = some s) :
    s.Sound n home :=
  run_keeps (fun hs hstep => hs.step (step_cases hn hstep)) init h

end Sound

/-! ### What stays -/

lemma Step.prefix_posts {e : PoolEvent F} (h : Step n home s e s') : s.posts <+: s'.posts := by
  cases h with
  | exec hidle => exact List.prefix_append _ _
  | skip hidle => exact List.prefix_rfl
  | broadcast hidle => exact List.prefix_rfl
  | broadcastAndDone hidle => exact List.prefix_rfl
  | @next c i hcurrent hi => exact ⟨_, (posts_postNext i c).symm⟩
  | @return' c i hcurrent hi => exact ⟨_, (posts_return' home s c).symm⟩
  | run hfree htake => exact ⟨[], by rw [posts_perform, List.append_nil]⟩
  | @release loop call funcFinish hheld => exact ⟨_, (posts_releaseCopy home (s.free loop) call funcFinish).symm⟩

lemma Step.prefix_returned {e : PoolEvent F} (h : Step n home s e s') : s.returned <+: s'.returned := by
  cases h with
  | exec hidle => exact List.prefix_append _ _
  | skip hidle => exact List.prefix_append _ _
  | broadcast hidle => exact List.prefix_rfl
  | broadcastAndDone hidle => exact List.prefix_rfl
  | @next c i hcurrent hi => exact ⟨[], by rw [List.append_nil]; exact (returned_postNext i c).symm⟩
  | @return' c i hcurrent hi => exact ⟨_, (returned_return' home s c).symm⟩
  | run hfree htake => exact ⟨[], by rw [returned_perform, List.append_nil]⟩
  | release hheld => exact ⟨[], by rw [returned_releaseCopy, List.append_nil]; rfl⟩

lemma Posted.callAt_step {e : PoolEvent F} (h : Step n home s e s') {k i : ℕ} {c : PoolCall F}
    (hk : s.callAt n k = some (c, i)) : ∃ i', s'.callAt n k = some (c, i') := by
  have hframe : s'.current = s.current → s'.returned = s.returned → s'.callAt n k = some (c, i) := by
    intro hcurrent hreturned
    rw [callAt, hcurrent, hreturned]
    exact hk
  have hafter : ∀ {c' : PoolCall F}, s'.current = none → s'.returned = s.returned ++ [c'] → k ≠ s.returned.length →
      s'.callAt n k = some (c, i) := by
    intro c' hcurrent hreturned hne
    rw [callAt_of_returned hcurrent hreturned, if_neg hne, hk]
  have hduring : s'.returned = s.returned → k ≠ s.returned.length → s'.callAt n k = some (c, i) := by
    intro hreturned hne
    rw [callAt_of_current hreturned, if_neg hne, hk]
  have hbusy : s.current = none → k ≠ s.returned.length := by
    rintro hidle rfl
    cases (callAt_length_of_idle hidle).symm.trans hk
  cases h with
  | exec hidle => exact ⟨i, hafter hidle rfl (hbusy hidle)⟩
  | skip hidle => exact ⟨i, hafter hidle rfl (hbusy hidle)⟩
  | broadcast hidle => exact ⟨i, hduring rfl (hbusy hidle)⟩
  | broadcastAndDone hidle => exact ⟨i, hduring rfl (hbusy hidle)⟩
  | @next c' i₀ hcurrent hi =>
    have hreturned : { s.postNext i₀ c' with current := some (c', i₀ + 1) }.returned = s.returned := returned_postNext i₀ c'
    rw [callAt_of_current hreturned]
    split_ifs with hlen
    · rw [hlen, callAt_length hcurrent] at hk
      cases hk
      exact ⟨i + 1, rfl⟩
    · exact ⟨i, hk⟩
  | @return' c' i₀ hcurrent hi =>
    rw [callAt_of_returned (current_return' home s c') (returned_return' home s c')]
    split_ifs with hlen
    · rw [hlen, callAt_length hcurrent] at hk
      cases hk
      exact ⟨n, rfl⟩
    · exact ⟨i, hk⟩
  | run hfree htake => exact ⟨i, hframe (current_perform ..) (returned_perform ..)⟩
  | release hheld => exact ⟨i, hframe (current_releaseCopy ..) (returned_releaseCopy ..)⟩

/-! ### Tasks of `Exec` -/

def observedOf (s : PoolRun F) (k : ℕ) : List (ℕ × PoolTask F × ℕ) := s.observed.filter fun o => o.2.1.call = some k

namespace Sound

variable {k index : ℕ} {func : F}

lemma exec_posted (h : s.Sound n home) (hk : s.returned[k]? = some (.exec index func)) :
    s.posts.filter (fun p => p.2.call = some k) = [(index % n, .exec k func)] := by
  have hlt : k < s.returned.length := (List.getElem?_eq_some_iff.mp hk).1
  rw [h.posted.postedBy k, callAt, if_neg hlt.ne, hk]
  rfl

lemma eq_exec (h : s.Sound n home) (hk : s.returned[k]? = some (.exec index func)) {p : ℕ × PoolTask F}
    (hp : p ∈ s.posts) (hcall : p.2.call = some k) : p = (index % n, .exec k func) := by
  apply List.mem_singleton.mp
  rw [← h.exec_posted hk]
  exact List.mem_filter.mpr ⟨hp, decide_eq_true hcall⟩

lemma ran_subset_posts (h : s.Sound n home) {p : ℕ × PoolTask F} (hp : p ∈ s.loops.ran) : p ∈ s.posts :=
  h.posted.fifo.mem_posts hp

lemma observedOf_eq (h : s.Sound n home) (hn : 0 < n) (hk : s.returned[k]? = some (.exec index func)) :
    s.observedOf k = List.replicate (s.loops.ran.countP fun p => p.2.call = some k)
      (index % n, .exec k func, index % n) := by
  have hlength : (s.observedOf k).length = s.loops.ran.countP fun p => p.2.call = some k := by
    rw [observedOf, ← List.countP_eq_length_filter, ← h.indexed.log, List.countP_map]
    rfl
  rw [← hlength]
  apply List.eq_replicate_of_mem
  rintro ⟨j, task, i⟩ hmem
  obtain ⟨hobserved, hcall⟩ := List.mem_filter.mp hmem
  have hran : (j, task) ∈ s.loops.ran := by
    rw [← h.indexed.log]
    exact List.mem_map_of_mem (f := fun o => (o.1, o.2.1)) hobserved
  cases h.eq_exec hk (h.ran_subset_posts hran) (of_decide_eq_true hcall)
  obtain rfl | hindex := h.indexed.observes hobserved (Nat.mod_lt _ hn)
  · rfl
  · cases hindex

lemma ran_exec_le_one (h : s.Sound n home) (hk : s.returned[k]? = some (.exec index func)) :
    s.loops.ran.countP (fun p => p.2.call = some k) ≤ 1 := by
  have hloop : ∀ p ∈ s.posts, decide (p.2.call = some k) = true → p.1 = index % n :=
    fun p hp hcall => congrArg Prod.fst (h.eq_exec hk hp (of_decide_eq_true hcall))
  calc s.loops.ran.countP (fun p => p.2.call = some k)
      = (ranOn s.loops.ran (index % n)).countP (fun task => task.call = some k) :=
        (countP_ranOn (p := fun task : PoolTask F => task.call = some k) fun p hp => hloop p (h.ran_subset_posts hp)).symm
    _ ≤ (ranOn s.posts (index % n)).countP (fun task => task.call = some k) :=
        (h.posted.fifo.ran_prefix _).sublist.countP_le
    _ = s.posts.countP (fun p => p.2.call = some k) :=
        countP_ranOn (p := fun task : PoolTask F => task.call = some k) hloop
    _ = 1 := by rw [List.countP_eq_length_filter, h.exec_posted hk, List.length_singleton]

theorem observed_exec (h : s.Sound n home) (hn : 0 < n) (hk : s.returned[k]? = some (.exec index func)) :
    s.observedOf k = [] ∨ s.observedOf k = [(index % n, .exec k func, index % n)] := by
  rw [h.observedOf_eq hn hk]
  obtain hzero | hone := Nat.le_one_iff_eq_zero_or_eq_one.mp (h.ran_exec_le_one hk)
  · rw [hzero]
    exact .inl rfl
  · rw [hone]
    exact .inr rfl

lemma observed_of_ran (h : s.Sound n home) (hn : 0 < n) (hk : s.returned[k]? = some (.exec index func))
    (hran : (index % n, .exec k func) ∈ s.loops.ran) : s.observedOf k = [(index % n, .exec k func, index % n)] := by
  have hpos : 0 < s.loops.ran.countP fun p => p.2.call = some k :=
    List.countP_pos_iff.mpr ⟨_, hran, decide_eq_true rfl⟩
  have hone : (s.loops.ran.countP fun p => p.2.call = some k) = 1 := Nat.le_antisymm (h.ran_exec_le_one hk) hpos
  rw [h.observedOf_eq hn hk, hone]
  rfl

/-! ### `BroadcastAndDone` -/

lemma finish_posted (h : s.Sound n home) {i : ℕ} {fd : Option F} {ff : F}
    (hk : s.callAt n k = some (.broadcastAndDone fd ff, i)) : s.posts.filter (fun p => p.2.finishes k) = [] ∨
      s.posts.filter (fun p => p.2.finishes k) = [(home, .finish k ff)] ∧ s.useCount k = 0 ∧ i = n := by
  rw [h.finished k]
  rw [callAt] at hk
  split_ifs at hk with hlength
  · exact .inl (finishPosts_of_none (List.getElem?_eq_none (hlength ▸ Nat.le_refl _)))
  · obtain ⟨c, hc, heq⟩ := Option.map_eq_some_iff.mp hk
    cases heq
    rw [finishPosts_of_returned hc]
    split_ifs with hzero
    · exact .inr ⟨rfl, hzero, rfl⟩
    · exact .inl rfl

lemma copies_of_useCount (h : s.Sound n home) (hzero : s.useCount k = 0) {j : ℕ} (hj : j < n) : s.copies k j = 0 := by
  have hcount := h.counts k
  have hsum : ∑ j ∈ Finset.range n, s.copies k j = 0 := by omega
  exact Finset.sum_eq_zero_iff.mp hsum j (Finset.mem_range.mpr hj)

lemma ran_work (h : s.Sound n home) {fd : Option F} {ff : F} (hk : s.callAt n k = some (.broadcastAndDone fd ff, n))
    {j : ℕ} (hj : j < n) (hcopies : s.copies k j = 0) : .work k fd ff ∈ ranOn s.loops.ran j := by
  have hposted : (j, .work k fd ff) ∈ s.posts :=
    h.posted.posts_mem hk (List.mem_map.mpr ⟨j, List.mem_range.mpr hj, rfl⟩)
  have hmem : .work k fd ff ∈ s.loops.posted j := by
    rw [h.posted.fifo j]
    exact mem_ranOn.mpr hposted
  obtain hran | hpending := List.mem_append.mp hmem
  · exact hran
  · have hnone := List.countP_eq_zero.mp (Nat.add_eq_zero_iff.mp hcopies).1 _ hpending
    exact absurd (decide_eq_true rfl) hnone

end Sound

theorem finish_after (hn : 0 < n) {es₁ es₂ : List (PoolEvent F)} {s₁ s : PoolRun F} {fd : Option F} {ff : F}
    (h₁ : run (step n home) init es₁ = some s₁)
    (h₂ : run (step n home) s₁ (.call (.broadcastAndDone fd ff) :: es₂) = some s) :
    s.posts.filter (fun p => p.2.finishes s₁.returned.length) = [] ∨
      s.posts.filter (fun p => p.2.finishes s₁.returned.length) = [(home, .finish s₁.returned.length ff)] ∧
        ∀ j < n, ranOn s₁.posts j <+: ranOn s.loops.ran j ∧ .work s₁.returned.length fd ff ∈ ranOn s.loops.ran j := by
  obtain ⟨s₂, hcall, hrest⟩ := Option.bind_eq_some_iff.mp h₂
  have hs₁ : s₁.Sound n home := .run hn h₁
  obtain ⟨hidle, hcallAt⟩ : s₁.current = none ∧
      s₂.callAt n s₁.returned.length = some (.broadcastAndDone fd ff, 0) := by
    cases step_cases hn hcall with
    | broadcastAndDone hidle => exact ⟨hidle, if_pos rfl⟩
  have hprefix₁ : s₁.posts <+: s₂.posts := (step_cases hn hcall).prefix_posts
  obtain ⟨hs, hprefix, i, hi⟩ : s.Sound n home ∧ s₁.posts <+: s.posts ∧
      ∃ i, s.callAt n s₁.returned.length = some (.broadcastAndDone fd ff, i) := by
    refine run_keeps (I := fun t : PoolRun F => t.Sound n home ∧ s₁.posts <+: t.posts ∧
      ∃ i, t.callAt n s₁.returned.length = some (.broadcastAndDone fd ff, i)) ?_
      ⟨hs₁.step (step_cases hn hcall), hprefix₁, 0, hcallAt⟩ hrest
    rintro t t' e ⟨ht, hpre, i, hi⟩ hstep
    have hstep' := step_cases hn hstep
    exact ⟨ht.step hstep', hpre.trans hstep'.prefix_posts, Posted.callAt_step hstep' hi⟩
  obtain hnone | ⟨hone, hzero, rfl⟩ := hs.finish_posted hi
  · exact .inl hnone
  refine .inr ⟨hone, fun j hj => ?_⟩
  have hwork := hs.ran_work hi hj (hs.copies_of_useCount hzero hj)
  refine ⟨?_, hwork⟩
  -- what has run there holds a task that was not posted before the call
  obtain ⟨later, hlater⟩ := hprefix
  have hposted : ranOn s₁.posts j <+: ranOn s.posts j := by
    rw [← hlater, ranOn_append]
    exact List.prefix_append _ _
  obtain hbefore | hafter := List.prefix_or_prefix_of_prefix hposted (hs.posted.fifo.ran_prefix j)
  · exact hbefore
  · obtain ⟨i, hi, -⟩ := hs₁.posted.mem_work (mem_ranOn.mp (hafter.subset hwork))
    cases (Posted.callAt_length_of_idle hidle).symm.trans hi

/-! ### Nobody waits for ever -/

/-- The loops of the pool run, and the calling thread goes on with its call. -/
structure GoesOn (r : EndlessRun (step (F := F) n home)) : Prop where
  begins : r.state 0 = init
  loops : ∀ j < n, r.Fair (fun e => e = .run j ∨ e = .release j) fun s => s.holding j ≠ none ∨ s.loops.pending j ≠ []
  caller : r.Fair (fun e => e = .next) fun s => s.current ≠ none

def backlog (s : PoolRun F) (j L : ℕ) : ℕ := 2 * (L - (ranOn s.loops.ran j).length) + (s.holding j).toList.length

def ahead (n k : ℕ) (s : PoolRun F) : ℕ := if k < s.returned.length then 0 else n + 1 - s.current.elim 0 Prod.snd

namespace Step

variable {e : PoolEvent F} {j : ℕ}

lemma call_stays (h : Step n home s e s') (hother : e ≠ .next) {c : PoolCall F} {i : ℕ} {R : List (PoolCall F)}
    (hcurrent : s.current = some (c, i)) (hreturned : s.returned = R) :
    s'.current = some (c, i) ∧ s'.returned = R := by
  cases h with
  | exec hidle => cases hidle.symm.trans hcurrent
  | skip hidle => cases hidle.symm.trans hcurrent
  | broadcast hidle => cases hidle.symm.trans hcurrent
  | broadcastAndDone hidle => cases hidle.symm.trans hcurrent
  | next hcurrent hi => exact absurd rfl hother
  | return' hcurrent hi => exact absurd rfl hother
  | run hfree htake =>
    rw [current_perform, returned_perform]
    exact ⟨hcurrent, hreturned⟩
  | release hheld =>
    rw [current_releaseCopy, returned_releaseCopy]
    exact ⟨hcurrent, hreturned⟩

lemma call_goes_on (h : Step n home s .next s') {c : PoolCall F} {i : ℕ} {R : List (PoolCall F)}
    (hcurrent : s.current = some (c, i)) (hreturned : s.returned = R) :
    s'.current = some (c, i + 1) ∧ s'.returned = R ∨ s'.returned = R ++ [c] := by
  cases h with
  | @next c' i' hcurrent' hi =>
    cases hcurrent'.symm.trans hcurrent
    exact .inl ⟨rfl, (returned_postNext i c).trans hreturned⟩
  | @return' c' i' hcurrent' hi =>
    cases hcurrent'.symm.trans hcurrent
    exact .inr (by rw [returned_return', hreturned])

lemma copies_le (h : Step n home s e s') {k : ℕ} (hk : k < s.returned.length) (j : ℕ) : s'.copies k j ≤ s.copies k j := by
  cases h with
  | exec hidle => exact Nat.le_of_eq (copies_post rfl j)
  | skip hidle => exact Nat.le_refl _
  | broadcast hidle => exact Nat.le_refl _
  | broadcastAndDone hidle => exact Nat.le_refl _
  | @next c i hcurrent hi =>
    cases c with
    | start => exact Nat.le_of_eq (copies_post rfl j)
    | exec index func => exact Nat.le_refl _
    | broadcast func =>
      cases func with
      | none => exact Nat.le_refl _
      | some func => exact Nat.le_of_eq (copies_post rfl j)
    | broadcastAndDone funcDo funcFinish =>
      have hother : (PoolTask.work s.returned.length funcDo funcFinish).worksFor k = false := decide_eq_false hk.ne'
      exact Nat.le_of_eq (copies_post hother j)
  | return' hcurrent hi => exact Nat.le_of_eq (copies_return' _ k j)
  | run hfree htake => exact Nat.le_of_eq (copies_perform hfree htake k j)
  | @release loop call funcFinish hheld =>
    rw [copies_releaseCopy]
    by_cases hj : j = loop
    · rw [hj, copies_free_self hheld]
      exact Nat.le_add_right _ _
    · exact Nat.le_of_eq (copies_free_of_ne hj k)

lemma other_loop (h : Step n home s e s') (hrun : e ≠ .run j) (hrelease : e ≠ .release j) :
    ranOn s'.loops.ran j = ranOn s.loops.ran j ∧ s'.holding j = s.holding j := by
  have hframe : SameRuns s s' → ranOn s'.loops.ran j = ranOn s.loops.ran j ∧ s'.holding j = s.holding j := by
    intro hruns
    rw [hruns.ran, hruns.holding]
    exact ⟨rfl, rfl⟩
  cases h with
  | exec hidle => exact hframe ⟨rfl, rfl, rfl, rfl⟩
  | skip hidle => exact hframe ⟨rfl, rfl, rfl, rfl⟩
  | broadcast hidle => exact hframe ⟨rfl, rfl, rfl, rfl⟩
  | broadcastAndDone hidle => exact hframe ⟨rfl, rfl, rfl, rfl⟩
  | @next c i hcurrent hi =>
    obtain ⟨hran, hholding, hobserved, hindex⟩ := sameRuns_postNext (s := s) i c
    exact hframe ⟨hran, hholding, hobserved, hindex⟩
  | @return' c i hcurrent hi => exact hframe (sameRuns_return' home s c)
  | @run loop task loops hfree htake =>
    have hne : j ≠ loop := fun heq => hrun (heq ▸ rfl)
    rw [loops_perform, LoopPool.ranOn_take htake, if_neg hne, List.append_nil]
    refine ⟨rfl, ?_⟩
    cases task with
    | work call funcDo funcFinish => exact Function.update_of_ne hne _ _
    | _ => rfl
  | @release loop call funcFinish hheld =>
    have hne : j ≠ loop := fun heq => hrelease (heq ▸ rfl)
    have hruns := sameRuns_releaseCopy home (s.free loop) call funcFinish
    rw [hruns.ran, hruns.holding]
    exact ⟨rfl, Function.update_of_ne hne _ _⟩

lemma backlog_lt (h : Step n home s e s') (he : e = .run j ∨ e = .release j) {L : ℕ} (hpos : 0 < s.backlog j L) :
    s'.backlog j L < s.backlog j L := by
  have hle : ∀ o : Option (ℕ × F), o.toList.length ≤ 1 := by
    intro o
    cases o <;> simp
  obtain rfl | rfl := he
  · cases h with
    | @run _ task loops hfree htake =>
      have hran := LoopPool.ranOn_take htake j
      rw [if_pos rfl] at hran
      have hheld := hle (({ s with loops := loops }.perform j task).holding j)
      unfold backlog at hpos ⊢
      rw [hfree, Option.toList_none, List.length_nil] at hpos ⊢
      rw [loops_perform, hran, List.length_append, List.length_singleton]
      omega
  · cases h with
    | @release _ call funcFinish hheld =>
      have hruns := sameRuns_releaseCopy home (s.free j) call funcFinish
      have hnone : (s.free j).holding j = none := Function.update_self ..
      unfold backlog
      rw [hruns.ran, hruns.holding, hnone, hheld, Option.toList_none, Option.toList_some, List.length_nil,
        List.length_singleton]
      exact Nat.lt_succ_self _

end Step

namespace GoesOn

variable {r : EndlessRun (step (F := F) n home)}

lemma sound (h : GoesOn r) (hn : 0 < n) (t : ℕ) : (r.state t).Sound n home := by
  obtain ⟨es, hes⟩ := r.reached t
  rw [h.begins] at hes
  exact .run hn hes

lemma prefix_posts (hn : 0 < n) {t t' : ℕ} (ht : t ≤ t') : (r.state t).posts <+: (r.state t').posts :=
  EndlessRun.keeps (P := fun s => (r.state t).posts <+: s.posts)
    (fun hs hstep => hs.trans (step_cases hn hstep).prefix_posts) ht List.prefix_rfl

lemma prefix_returned (hn : 0 < n) {t t' : ℕ} (ht : t ≤ t') : (r.state t).returned <+: (r.state t').returned :=
  EndlessRun.keeps (P := fun s => (r.state t).returned <+: s.returned)
    (fun hs hstep => hs.trans (step_cases hn hstep).prefix_returned) ht List.prefix_rfl

theorem catches_up (h : GoesOn r) (hn : 0 < n) {j : ℕ} (hj : j < n) (t : ℕ) :
    ∃ t', t ≤ t' ∧ ranOn (r.state t).posts j <+: ranOn (r.state t').loops.ran j ∧ (r.state t').holding j = none := by
  generalize hL : (ranOn (r.state t).posts j).length = L
  have hstep : ∀ {s s' : PoolRun F} {e : PoolEvent F}, s.Sound n home ∧ (r.state t).posts <+: s.posts →
      step n home s e = some s' → s'.Sound n home ∧ (r.state t).posts <+: s'.posts := by
    rintro s s' e ⟨hs, hprefix⟩ hstep
    exact ⟨hs.step (step_cases hn hstep), hprefix.trans (step_cases hn hstep).prefix_posts⟩
  have hlength : ∀ {s : PoolRun F}, (r.state t).posts <+: s.posts → L ≤ (ranOn s.posts j).length := by
    rintro s ⟨later, hlater⟩
    rw [← hlater, ranOn_append, List.length_append, hL]
    exact Nat.le_add_right _ _
  have henabled : ∀ {m : ℕ}, 0 < m → ∀ {s : PoolRun F}, (s.Sound n home ∧ (r.state t).posts <+: s.posts) ∧
      s.backlog j L = m → s.holding j ≠ none ∨ s.loops.pending j ≠ [] := by
    rintro m hpos s ⟨⟨hs, hprefix⟩, hsame⟩
    by_contra hidle
    obtain ⟨hheld, hpending⟩ := not_or.mp hidle
    have hnone := not_not.mp hheld
    have hfifo := congrArg List.length (hs.posted.fifo j)
    rw [LoopPool.posted, not_not.mp hpending, List.append_nil] at hfifo
    have hle := hlength hprefix
    rw [backlog, hnone, Option.toList_none, List.length_nil] at hsame
    omega
  have hkept : ∀ {m : ℕ} {s s' : PoolRun F} {e : PoolEvent F},
      (s.Sound n home ∧ (r.state t).posts <+: s.posts) ∧ s.backlog j L = m → ¬ (e = .run j ∨ e = .release j) →
      step n home s e = some s' → (s'.Sound n home ∧ (r.state t).posts <+: s'.posts) ∧ s'.backlog j L = m := by
    rintro m s s' e ⟨hP, hsame⟩ hother hone
    obtain ⟨hrun, hrelease⟩ := not_or.mp hother
    obtain ⟨hran, hheld⟩ := (step_cases hn hone).other_loop hrun hrelease
    refine ⟨hstep hP hone, ?_⟩
    rw [backlog, hran, hheld]
    exact hsame
  have hdown : ∀ t₁, (r.state t₁).Sound n home ∧ (r.state t).posts <+: (r.state t₁).posts →
      0 < (r.state t₁).backlog j L → ∃ t₂, t₁ ≤ t₂ ∧
        ((r.state t₂).Sound n home ∧ (r.state t).posts <+: (r.state t₂).posts) ∧
        (r.state t₂).backlog j L < (r.state t₁).backlog j L := by
    intro t₁ hP hpos
    obtain ⟨t₂, e, ht₂, ⟨hP₂, hsame⟩, hact, hlast⟩ := (h.loops j hj).acts_of_kept (henabled hpos) hkept ⟨hP, rfl⟩
    have hlt := (step_cases hn hlast).backlog_lt hact (hsame.symm ▸ hpos)
    exact ⟨t₂ + 1, Nat.le_succ_of_le ht₂, hstep hP₂ hlast, hsame ▸ hlt⟩
  obtain ⟨t', ht, ⟨hs, hprefix⟩, hzero⟩ := EndlessRun.eventually_zero (r := r)
    (P := fun s => s.Sound n home ∧ (r.state t).posts <+: s.posts) (m := fun s => s.backlog j L) hdown
    ⟨h.sound hn t, List.prefix_rfl⟩
  obtain ⟨hran, hheld⟩ := Nat.add_eq_zero_iff.mp hzero
  refine ⟨t', ht, ?_, Option.toList_eq_nil_iff.mp (List.eq_nil_of_length_eq_zero hheld)⟩
  obtain ⟨later, hlater⟩ := hprefix
  have hposted : ranOn (r.state t).posts j <+: ranOn (r.state t').posts j := by
    rw [← hlater, ranOn_append]
    exact List.prefix_append _ _
  refine List.prefix_of_prefix_length_le hposted (hs.posted.fifo.ran_prefix j) ?_
  omega

lemma returned_stays (hn : 0 < n) {t t' k : ℕ} (ht : t ≤ t') {c : PoolCall F} (hk : (r.state t).returned[k]? = some c) :
    (r.state t').returned[k]? = some c := by
  obtain ⟨later, hlater⟩ := prefix_returned (r := r) hn ht
  rw [← hlater, List.getElem?_append_left (List.getElem?_eq_some_iff.mp hk).1, hk]

lemma exec_runs (h : GoesOn r) (hn : 0 < n) {t k index : ℕ} {func : F}
    (hk : (r.state t).returned[k]? = some (.exec index func)) :
    ∃ t', t ≤ t' ∧ (r.state t').observedOf k = [(index % n, .exec k func, index % n)] := by
  obtain ⟨t', ht, hran, -⟩ := h.catches_up hn (Nat.mod_lt index hn) t
  have hposted : (index % n, .exec k func) ∈ (r.state t).posts := by
    apply List.mem_of_mem_filter (p := fun p : ℕ × PoolTask F => p.2.call = some k)
    rw [(h.sound hn t).exec_posted hk]
    exact List.mem_singleton_self _
  have hran' := mem_ranOn.mp (hran.subset (mem_ranOn.mpr hposted))
  exact ⟨t', ht, (h.sound hn t').observed_of_ran hn (returned_stays hn ht hk) hran'⟩

lemma returns (h : GoesOn r) (hn : 0 < n) {t i : ℕ} {c : PoolCall F} (hcurrent : (r.state t).current = some (c, i)) :
    ∃ t', t ≤ t' ∧ (r.state t').returned = (r.state t).returned ++ [c] := by
  generalize hR : (r.state t).returned = R
  have hdown : ∀ t₁, ((∃ i, (r.state t₁).current = some (c, i)) ∧ (r.state t₁).returned = R ∨
      (r.state t₁).returned = R ++ [c]) → 0 < (r.state t₁).ahead n R.length → ∃ t₂, t₁ ≤ t₂ ∧
        ((∃ i, (r.state t₂).current = some (c, i)) ∧ (r.state t₂).returned = R ∨ (r.state t₂).returned = R ++ [c]) ∧
        (r.state t₂).ahead n R.length < (r.state t₁).ahead n R.length := by
    rintro t₁ (⟨⟨i, hi⟩, hreturned⟩ | hdone) hpos
    · obtain ⟨t₂, e, ht₂, ⟨hi₂, hreturned₂⟩, rfl, hlast⟩ := h.caller.acts_of_kept (t := t₁)
        (P := fun s => s.current = some (c, i) ∧ s.returned = R)
        (fun hP hnone => by rw [hP.1] at hnone; cases hnone)
        (fun hP hother hone => (step_cases hn hone).call_stays hother hP.1 hP.2) ⟨hi, hreturned⟩
      refine ⟨t₂ + 1, Nat.le_succ_of_le ht₂, ?_⟩
      obtain ⟨hcurrent', hreturned'⟩ | hreturned' := (step_cases hn hlast).call_goes_on hi₂ hreturned₂
      · refine ⟨.inl ⟨⟨i + 1, hcurrent'⟩, hreturned'⟩, ?_⟩
        rw [ahead, ahead, hreturned, hreturned', hi, hcurrent', if_neg (Nat.lt_irrefl _), if_neg (Nat.lt_irrefl _)]
        have hbound := (h.sound hn t₁).posted.bound hi
        simp only [Option.elim_some]
        omega
      · refine ⟨.inr hreturned', Nat.lt_of_le_of_lt (Nat.le_of_eq ?_) hpos⟩
        rw [ahead, if_pos (by rw [hreturned', List.length_append, List.length_singleton]; exact Nat.lt_succ_self _)]
    · rw [ahead, if_pos (by rw [hdone, List.length_append, List.length_singleton]; exact Nat.lt_succ_self _)] at hpos
      exact absurd hpos (Nat.lt_irrefl 0)
  obtain ⟨t', ht, hP, hzero⟩ := EndlessRun.eventually_zero (r := r)
    (P := fun s => (∃ i, s.current = some (c, i)) ∧ s.returned = R ∨ s.returned = R ++ [c])
    (m := fun s => s.ahead n R.length) hdown (.inl ⟨⟨i, hcurrent⟩, hR⟩)
  obtain ⟨⟨i', hi'⟩, hreturned⟩ | hdone := hP
  · have hbound := (h.sound hn t').posted.bound hi'
    rw [ahead, hreturned, hi', if_neg (Nat.lt_irrefl _), Option.elim_some] at hzero
    omega
  · exact ⟨t', ht, hdone⟩

lemma copies_gone (h : GoesOn r) (hn : 0 < n) {t t' k j : ℕ} (ht : t ≤ t') {fd : Option F} {ff : F}
    (hk : (r.state t).returned[k]? = some (.broadcastAndDone fd ff))
    (hran : ranOn (r.state t).posts j <+: ranOn (r.state t').loops.ran j) (hheld : (r.state t').holding j = none) :
    (r.state t').copies k j = 0 := by
  have hcallAt : ∀ {s : PoolRun F}, s.returned[k]? = some (.broadcastAndDone fd ff) →
      s.callAt n k = some (.broadcastAndDone fd ff, n) := by
    intro s hs
    rw [callAt, if_neg (List.getElem?_eq_some_iff.mp hs).1.ne, hs]
    rfl
  obtain ⟨later, hlater⟩ := prefix_posts (r := r) hn ht
  have hfilter : later.filter (fun p => p.2.call = some k) = [] := by
    have hbefore := (h.sound hn t).posted.postedBy k
    have hafter := (h.sound hn t').posted.postedBy k
    rw [hcallAt hk] at hbefore
    rw [hcallAt (returned_stays hn ht hk), ← hlater, List.filter_append, hbefore] at hafter
    exact List.append_right_eq_self.mp hafter
  have hpending : (r.state t').loops.pending j <:+ ranOn later j := by
    obtain ⟨more, hmore⟩ := hran
    have hfifo := (h.sound hn t').posted.fifo j
    rw [LoopPool.posted, ← hmore, ← hlater, ranOn_append, List.append_assoc] at hfifo
    exact ⟨more, List.append_cancel_left hfifo⟩
  have hnone : ((r.state t').loops.pending j).countP (PoolTask.worksFor k) = 0 := by
    rw [List.countP_eq_zero]
    intro task hmem hworks
    have hposted : (j, task) ∈ later := mem_ranOn.mp (hpending.subset hmem)
    cases task with
    | work call fd' ff' =>
      obtain rfl : call = k := of_decide_eq_true hworks
      have hcall := List.filter_eq_nil_iff.mp hfilter _ hposted
      exact hcall (decide_eq_true rfl)
    | _ => cases hworks
  rw [copies, hnone, hheld]
  rfl

lemma finishes (h : GoesOn r) (hn : 0 < n) {t k : ℕ} {fd : Option F} {ff : F}
    (hk : (r.state t).returned[k]? = some (.broadcastAndDone fd ff)) :
    ∃ t', t ≤ t' ∧ (r.state t').posts.filter (fun p => p.2.finishes k) = [(home, .finish k ff)] := by
  have hdown : ∀ t₁, (r.state t₁).returned[k]? = some (.broadcastAndDone fd ff) → 0 < (r.state t₁).useCount k →
      ∃ t₂, t₁ ≤ t₂ ∧ (r.state t₂).returned[k]? = some (.broadcastAndDone fd ff) ∧
        (r.state t₂).useCount k < (r.state t₁).useCount k := by
    intro t₁ hk₁ hpos
    have hlt : ∀ {s : PoolRun F}, s.returned[k]? = some (.broadcastAndDone fd ff) → k < s.returned.length :=
      fun hs => (List.getElem?_eq_some_iff.mp hs).1
    have hcount : ∀ t, (r.state t).returned[k]? = some (.broadcastAndDone fd ff) →
        (r.state t).useCount k = ∑ j ∈ Finset.range n, (r.state t).copies k j := by
      intro t hkt
      rw [(h.sound hn t).counts k, localCopies_of_lt (hlt hkt), Nat.zero_add]
    obtain ⟨j, hj, hcopy⟩ : ∃ j ∈ Finset.range n, 0 < (r.state t₁).copies k j := by
      rw [hcount t₁ hk₁] at hpos
      exact Finset.sum_pos_iff.mp hpos
    obtain ⟨t₂, ht₂, hran, hheld⟩ := h.catches_up hn (Finset.mem_range.mp hj) t₁
    have hk₂ := returned_stays hn ht₂ hk₁
    refine ⟨t₂, ht₂, hk₂, ?_⟩
    have hle : ∀ j, (r.state t₂).copies k j ≤ (r.state t₁).copies k j := by
      intro j
      refine (EndlessRun.keeps (r := r) (P := fun s => k < s.returned.length ∧ s.copies k j ≤ (r.state t₁).copies k j)
        ?_ ht₂ ⟨hlt hk₁, Nat.le_refl _⟩).2
      rintro s s' e ⟨hlen, hs⟩ hstep
      have hstep' := step_cases hn hstep
      exact ⟨Nat.lt_of_lt_of_le hlen hstep'.prefix_returned.length_le, (hstep'.copies_le hlen j).trans hs⟩
    rw [hcount t₁ hk₁, hcount t₂ hk₂]
    refine Finset.sum_lt_sum (fun j _ => hle j) ⟨j, hj, ?_⟩
    rw [h.copies_gone hn ht₂ hk₁ hran hheld]
    exact hcopy
  obtain ⟨t', ht, hk', hzero⟩ := EndlessRun.eventually_zero (r := r)
    (P := fun s => s.returned[k]? = some (.broadcastAndDone fd ff)) (m := fun s => s.useCount k) hdown hk
  exact ⟨t', ht, by rw [(h.sound hn t').finished k, finishPosts_of_returned hk', if_pos hzero]⟩

end GoesOn

end PoolRun

open PoolRun in
theorem loopPool_order (hn : 0 < n) (home : ℕ) :
    (∀ (es : List (PoolEvent F)) s, run (step n home) init es = some s →
      (∀ j, ranOn s.loops.ran j ++ s.loops.pending j = ranOn s.posts j) ∧
      ∀ k index func, s.returned[k]? = some (.exec index func) →
        s.posts.filter (fun p => p.2.call = some k) = [(index % n, .exec k func)] ∧
        (s.observedOf k = [] ∨ s.observedOf k = [(index % n, .exec k func, index % n)])) ∧
    (∀ (es₁ es₂ : List (PoolEvent F)) s₁ s funcDo funcFinish, run (step n home) init es₁ = some s₁ →
      run (step n home) s₁ (.call (.broadcastAndDone funcDo funcFinish) :: es₂) = some s →
      s.posts.filter (fun p => p.2.finishes s₁.returned.length) = [] ∨
        s.posts.filter (fun p => p.2.finishes s₁.returned.length) = [(home, .finish s₁.returned.length funcFinish)] ∧
          ∀ j < n, ranOn s₁.posts j <+: ranOn s.loops.ran j ∧
            .work s₁.returned.length funcDo funcFinish ∈ ranOn s.loops.ran j) ∧
    ∀ r : EndlessRun (step (F := F) n home), GoesOn r → ∀ t,
      (∀ c i, (r.state t).current = some (c, i) →
        ∃ t', t ≤ t' ∧ (r.state t').returned = (r.state t).returned ++ [c]) ∧
      (∀ k index func, (r.state t).returned[k]? = some (.exec index func) →
        ∃ t', t ≤ t' ∧ (r.state t').observedOf k = [(index % n, .exec k func, index % n)]) ∧
      ∀ k funcDo funcFinish, (r.state t).returned[k]? = some (.broadcastAndDone funcDo funcFinish) →
        ∃ t', t ≤ t' ∧ (r.state t').posts.filter (fun p => p.2.finishes k) = [(home, .finish k funcFinish)] := by
  refine ⟨fun es s hrun => ?_, ?_, fun r h t => ⟨fun c i => h.returns hn, fun k index func => h.exec_runs hn,
    fun k fd ff => h.finishes hn⟩⟩
  · have hs : s.Sound n home := .run hn hrun
    exact ⟨hs.posted.fifo, fun k index func hk => ⟨hs.exec_posted hk, hs.observed_exec hn hk⟩⟩
  · exact fun es₁ es₂ s₁ s fd ff => finish_after hn

/-- One loop, an `Exec` and a `BroadcastAndDone` from another thread. -/
def oneLoopRun : List (PoolEvent ℕ) :=
  [.next, .next, .call (.exec 5 7), .call (.broadcastAndDone (some 8) 9), .run 0, .next, .run 0, .next, .run 0, .release 0]

lemma oneLoopRun_runs : ∃ s, run (PoolRun.step 1 1) PoolRun.init oneLoopRun = some s ∧ s.current = none ∧
    s.holding 0 = none ∧ s.loops.pending 0 = [] := by
  refine ⟨_, rfl, ?_⟩
  decide

open PoolRun in
theorem loopPool_order_one : ∃ r : EndlessRun (step (F := ℕ) 1 1), GoesOn r ∧
    (∃ t, (r.state t).observedOf 1 = [(0, .exec 1 7, 0)]) ∧
    ∃ t, (r.state t).posts.filter (fun p => p.2.finishes 2) = [(1, .finish 2 9)] := by
  obtain ⟨s, hs, hcurrent, hholding, hpending⟩ := oneLoopRun_runs
  have hgoes : GoesOn (EndlessRun.ofRun hs) := by
    refine ⟨rfl, ?_, ?_⟩
    · intro j hj
      obtain rfl := Nat.lt_one_iff.mp hj
      refine EndlessRun.fair_ofRun hs (fun h => h.elim (absurd hholding) (absurd hpending)) ?_
      decide
    · refine EndlessRun.fair_ofRun hs (absurd hcurrent) ?_
      decide
  obtain ⟨-, hexec, hfinish⟩ := (loopPool_order Nat.one_pos 1).2.2 _ hgoes 9
  obtain ⟨t, -, ht⟩ := hexec 1 5 7 rfl
  obtain ⟨t', -, ht'⟩ := hfinish 2 (some 8) 9 rfl
  exact ⟨_, hgoes, ⟨t, ht⟩, t', ht'⟩

end TonyCat.Loop
