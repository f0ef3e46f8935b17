import Mathlib.Data.List.Nodup
import Mathlib.Data.List.Perm.Basic
import TonyCat.Loop.LoopCoroutine

set_option autoImplicit false

/-! What a coroutine does is what its code says in direct style, with the code of the tasks that it awaits in
place of the `co_await`s, whatever other coroutines run on the loops beside it. -/

namespace TonyCat.Loop

open TonyCat.Library

variable {A R V : Type}

def Body.flow : Body A R V → Flow A R V
  | .coReturn v => .done v
  | .act a next => .act a next.flow
  | .coAwait task next => task.flow.bind fun v => (next v).flow
  | .loopSwitch loop next => .hop loop next.flow
  | .execAfter _ next => next.flow
  | .execAfterOnLoop loop millSeconds next => if millSeconds = 0 then next.flow else .hop loop next.flow
  | .fetch r next => .ask r fun v => (next v).flow

namespace Coroutines

/-! ### What a frame is still to do -/

/-- What follows when the coroutine of a frame, with this `previous`, returns. -/
inductive Context (frames : ℕ → Option (Promise A R V)) (root : ℕ) : ℕ → Option ℕ → (V → Flow A R V) → Prop
  | root : Context frames root root none .done
  | awaiting {handle previous : ℕ} {next : V → Body A R V} {previous' : Option ℕ} {K : V → Flow A R V}
      (hframe : frames previous = some ⟨.awaiting next, previous', root⟩) (hlt : previous < handle)
      (h : Context frames root previous previous' K) : Context frames root handle (some previous) fun v => (next v).flow.bind K

lemma Context.congr {frames frames' : ℕ → Option (Promise A R V)} {root handle : ℕ} {previous : Option ℕ}
    {K : V → Flow A R V} (h : Context frames root handle previous K)
    (hsame : ∀ q < handle, ∀ f, frames q = some f → f.root = root → frames' q = some f) :
    Context frames' root handle previous K := by
  induction h with
  | root => exact .root
  | awaiting hframe hlt _ ih =>
    exact .awaiting (hsame _ hlt _ hframe rfl) hlt (ih fun q hq => hsame q (hq.trans hlt))

inductive Rest (K : V → Flow A R V) : Holder R → Point A R V → Flow.Config A R V → Prop
  | running {loop : ℕ} {rest : Body A R V} : Rest K (.thread loop) (.running rest) (.on loop (rest.flow.bind K))
  | posted {loop : ℕ} {next : Body A R V} : Rest K (.task loop) (.suspended next) (.on loop (next.flow.bind K))
  | timed {loop : ℕ} {next : Body A R V} : Rest K (.timer loop) (.suspended next) (.on loop (next.flow.bind K))
  | fetching {r : R} {next : V → Body A R V} :
      Rest K (.callback r) (.fetching next) (.asked fun v => (next v).flow.bind K)

structure Carries (main : ℕ) (M : Coroutines A R V) (t : Holder R × ℕ) (call : Call A R V) (f : Promise A R V)
    (K : V → Flow A R V) (c : Flow.Config A R V) : Prop where
  frame : M.frames t.2 = some f
  root : f.root = call.id
  context : Context M.frames f.root t.2 f.previous K
  rest : Rest K t.1 f.point c
  reached : Flow.Reaches main (.on call.loop call.body.flow) (M.trace call.id) c

def Finished (main : ℕ) (M : Coroutines A R V) (call : Call A R V) : Prop :=
  M.frames call.id = none ∧ (∀ t ∈ M.held, M.rootOf t.2 ≠ some call.id) ∧
    ∃ loop v, Flow.Reaches main (.on call.loop call.body.flow) (M.trace call.id) (.on loop (.done v))

structure Sound (main : ℕ) (M : Coroutines A R V) : Prop where
  frames : ∀ h f, M.frames h = some f → h < M.fresh ∧ f.root < M.fresh
  calls : ∀ call ∈ M.calls, call.id < M.fresh
  ids : (M.calls.map Call.id).Nodup
  log : ∀ e ∈ M.log, e.1 < M.fresh
  held : ∀ t ∈ M.held, ∃ call ∈ M.calls, ∃ f K c, Carries main M t call f K c
  roots : (M.held.map fun t => M.rootOf t.2).Nodup
  called : ∀ call ∈ M.calls, (∃ t ∈ M.held, M.rootOf t.2 = some call.id) ∨ Finished main M call

/-! ### One turn is about one call -/

/-- A turn of the call `root`: the frames of other calls are as they were, and the `i`th handle has become `t'`. -/
structure Turned (M M' : Coroutines A R V) (i root : ℕ) (t' : Holder R × ℕ) (seen : List (ℕ × Mark A R V)) : Prop where
  others : ∀ q g, g.root ≠ root → (M'.frames q = some g ↔ M.frames q = some g)
  none : ∀ q < M.fresh, M.frames q = none → M'.frames q = none
  bound : ∀ q g, M'.frames q = some g → g.root = root → q < M'.fresh
  fresh : M.fresh ≤ M'.fresh
  calls : M'.calls = M.calls
  log : M'.log = M.log ++ seen.map (Prod.mk root)
  held : M'.held = M.held.eraseIdx i ++ [t']

/-- The last turn of the call `root`: its first frame and the handle to it, the `i`th, are gone. -/
structure Ended (M M' : Coroutines A R V) (i root : ℕ) : Prop where
  frame : M.rootOf root = some root
  gone : M'.frames root = none
  others : ∀ q, q ≠ root → M'.frames q = M.frames q
  fresh : M'.fresh = M.fresh
  calls : M'.calls = M.calls
  log : M'.log = M.log
  held : M'.held = M.held.eraseIdx i

section

variable {main i root : ℕ} {M M' : Coroutines A R V} {t t' : Holder R × ℕ} {call : Call A R V} {f f' : Promise A R V}
  {K K' : V → Flow A R V} {c c' : Flow.Config A R V} {seen : List (ℕ × Mark A R V)}

lemma Turned.trace_self (h : Turned M M' i root t' seen) : M'.trace root = M.trace root ++ seen := by
  rw [trace, h.log, ranOn_append, ranOn_map_self, trace]

lemma Turned.trace_of_ne (h : Turned M M' i root t' seen) {other : ℕ} (hne : other ≠ root) :
    M'.trace other = M.trace other := by
  rw [trace, h.log, ranOn_append, ranOn_map_of_ne (Ne.symm hne), List.append_nil, trace]

lemma rootOf_eq_some {q r : ℕ} : M.rootOf q = some r ↔ ∃ f, M.frames q = some f ∧ f.root = r := Option.map_eq_some_iff

lemma Turned.rootOf_of_ne (h : Turned M M' i root t' seen) {q other : ℕ} (hq : M.rootOf q = some other)
    (hne : other ≠ root) : M'.rootOf q = some other := by
  obtain ⟨g, hg, rfl⟩ := rootOf_eq_some.mp hq
  exact rootOf_eq_some.mpr ⟨g, (h.others q g hne).mpr hg, rfl⟩

lemma Carries.rootOf (h : Carries main M t call f K c) : M.rootOf t.2 = some call.id :=
  rootOf_eq_some.mpr ⟨f, h.frame, h.root⟩

lemma Turned.carries_of_ne (h : Turned M M' i root t' seen) (hc : Carries main M t call f K c) (hne : call.id ≠ root) :
    Carries main M' t call f K c where
  frame := (h.others _ f (hc.root ▸ hne)).mpr hc.frame
  root := hc.root
  context := hc.context.congr fun q _ g hg hroot => (h.others q g (hroot ▸ hc.root ▸ hne)).mpr hg
  rest := hc.rest
  reached := by
    rw [h.trace_of_ne hne]
    exact hc.reached

lemma held_perm (hi : M.held[i]? = some t) : (t :: M.held.eraseIdx i).Perm M.held := by
  obtain ⟨hlt, rfl⟩ := List.getElem?_eq_some_iff.mp hi
  exact List.getElem_cons_eraseIdx_perm hlt

lemma Sound.root_ne (hs : Sound main M) (hi : M.held[i]? = some t) (hroot : M.rootOf t.2 = some root)
    {u : Holder R × ℕ} (hu : u ∈ M.held.eraseIdx i) : M.rootOf u.2 ≠ some root := by
  have hnodup := ((held_perm hi).map fun t => M.rootOf t.2).nodup_iff.mpr hs.roots
  rw [List.map_cons, List.nodup_cons, hroot] at hnodup
  exact fun heq => hnodup.1 (heq ▸ List.mem_map_of_mem hu)

lemma Sound.turned (hs : Sound main M) (hi : M.held[i]? = some t) (hcall : call ∈ M.calls)
    (hold : Carries main M t call f K c) (h : Turned M M' i call.id t' seen)
    (hnew : Carries main M' t' call f' K' c') : Sound main M' := by
  have hroot := hold.rootOf
  have hnot : ∀ u ∈ M.held.eraseIdx i, M.rootOf u.2 ≠ some call.id := fun u hu => hs.root_ne hi hroot hu
  have hkept : ∀ u ∈ M.held.eraseIdx i, ∃ other ∈ M.calls, other.id ≠ call.id ∧ ∃ f K c, Carries main M u other f K c := by
    intro u hu
    obtain ⟨other, hother, f, K, c, hcarries⟩ := hs.held u (List.mem_of_mem_eraseIdx hu)
    exact ⟨other, hother, fun heq => hnot u hu (heq ▸ hcarries.rootOf), f, K, c, hcarries⟩
  refine ⟨?_, ?_, ?_, ?_, ?_, ?_, ?_⟩
  · intro q g hg
    by_cases hgroot : g.root = call.id
    · exact ⟨h.bound q g hg hgroot, hgroot ▸ (hs.calls call hcall).trans_le h.fresh⟩
    · obtain ⟨hq, hr⟩ := hs.frames q g ((h.others q g hgroot).mp hg)
      exact ⟨hq.trans_le h.fresh, hr.trans_le h.fresh⟩
  · rw [h.calls]
    exact fun other hother => (hs.calls other hother).trans_le h.fresh
  · rw [h.calls]
    exact hs.ids
  · intro e he
    rw [h.log] at he
    rcases List.mem_append.mp he with he | he
    · exact (hs.log e he).trans_le h.fresh
    · obtain ⟨mark, -, rfl⟩ := List.mem_map.mp he
      exact (hs.calls call hcall).trans_le h.fresh
  · intro u hu
    rw [h.held] at hu
    rw [h.calls]
    rcases List.mem_append.mp hu with hu | hu
    · obtain ⟨other, hother, hne, f, K, c, hcarries⟩ := hkept u hu
      exact ⟨other, hother, f, K, c, h.carries_of_ne hcarries hne⟩
    · obtain rfl := List.mem_singleton.mp hu
      exact ⟨call, hcall, f', K', c', hnew⟩
  · have hsame : (M.held.eraseIdx i).map (fun u => M'.rootOf u.2) = (M.held.eraseIdx i).map fun u => M.rootOf u.2 := by
      apply List.map_congr_left
      intro u hu
      obtain ⟨other, -, hne, f, K, c, hcarries⟩ := hkept u hu
      rw [hcarries.rootOf]
      exact h.rootOf_of_ne hcarries.rootOf hne
    rw [h.held, List.map_append, hsame, List.map_singleton, hnew.rootOf]
    have hnodup := ((held_perm hi).map fun t => M.rootOf t.2).nodup_iff.mpr hs.roots
    rw [List.map_cons, hroot] at hnodup
    exact (List.perm_append_singleton _ _).nodup_iff.mpr hnodup
  · rw [h.calls]
    intro other hother
    by_cases hid : other.id = call.id
    · refine .inl ⟨t', ?_, hid ▸ hnew.rootOf⟩
      rw [h.held]
      exact List.mem_append_right _ (List.mem_singleton_self t')
    · rcases hs.called other hother with ⟨u, hu, hu'⟩ | ⟨hnone, hgone, loop, v, hdone⟩
      · refine .inl ⟨u, ?_, h.rootOf_of_ne hu' hid⟩
        rcases List.mem_cons.mp ((held_perm hi).mem_iff.mpr hu) with rfl | hmem
        · exact absurd (Option.some.inj (hu'.symm.trans hroot)) hid
        · rw [h.held]
          exact List.mem_append_left _ hmem
      · refine .inr ⟨h.none _ (hs.calls other hother) hnone, ?_, loop, v, ?_⟩
        · intro u hu
          rw [h.held] at hu
          rcases List.mem_append.mp hu with hu | hu
          · obtain ⟨other', -, hne, f, K, c, hcarries⟩ := hkept u hu
            rw [h.rootOf_of_ne hcarries.rootOf hne, ← hcarries.rootOf]
            exact hgone u (List.mem_of_mem_eraseIdx hu)
          · obtain rfl := List.mem_singleton.mp hu
            rw [hnew.rootOf]
            exact fun heq => hid (Option.some.inj heq).symm
        · rw [h.trace_of_ne hid]
          exact hdone

lemma Sound.turned_of (hs : Sound main M) {h h' : ℕ} (hframe : M.frames h = some f)
    (hsame : ∀ q, q ≠ h → q ≠ h' → M'.frames q = M.frames q) (hself : ∃ g, M'.frames h = some g ∧ g.root = f.root)
    (hother : ∃ g, M'.frames h' = some g ∧ g.root = f.root)
    (hwas : (∃ g, M.frames h' = some g ∧ g.root = f.root) ∨ h' = M.fresh) (hfresh : M.fresh ≤ M'.fresh)
    (hbound : h' < M'.fresh) (hcalls : M'.calls = M.calls) (hlog : M'.log = M.log ++ seen.map (Prod.mk f.root))
    (hheld : M'.held = M.held.eraseIdx i ++ [t']) : Turned M M' i f.root t' seen := by
  obtain ⟨g, hg, hgroot⟩ := hself
  obtain ⟨g', hg', hgroot'⟩ := hother
  refine ⟨?_, ?_, ?_, hfresh, hcalls, hlog, hheld⟩
  · intro q k hk
    by_cases hq : q = h
    · subst hq
      rw [hg, hframe]
      constructor
      · exact fun heq => absurd (Option.some.inj heq ▸ hgroot) hk
      · exact fun heq => absurd (Option.some.inj heq ▸ rfl) hk
    by_cases hq' : q = h'
    · subst hq'
      rw [hg']
      constructor
      · exact fun heq => absurd (Option.some.inj heq ▸ hgroot') hk
      · intro heq
        rcases hwas with ⟨g, hg, hgroot⟩ | rfl
        · exact absurd (Option.some.inj (heq.symm.trans hg) ▸ hgroot) hk
        · exact absurd (hs.frames _ _ heq).1 (lt_irrefl _)
    · rw [hsame q hq hq']
  · intro q hlt hnone
    have hq : q ≠ h := by
      rintro rfl
      rw [hframe] at hnone
      cases hnone
    have hq' : q ≠ h' := by
      rintro rfl
      rcases hwas with ⟨g, hg, -⟩ | rfl
      · rw [hg] at hnone
        cases hnone
      · exact lt_irrefl _ hlt
    rw [hsame q hq hq', hnone]
  · intro q k hk _
    by_cases hq' : q = h'
    · rwa [hq']
    by_cases hq : q = h
    · rw [hq]
      exact (hs.frames h f hframe).1.trans_le hfresh
    · rw [hsame q hq hq'] at hk
      exact (hs.frames q k hk).1.trans_le hfresh

lemma Sound.goes_on (hs : Sound main M) (hi : M.held[i]? = some t) (hcall : call ∈ M.calls)
    (hold : Carries main M t call f K c) {point : Point A R V} {holder : Holder R} (hrest : Rest K holder point c')
    (hstep : seen = [] ∧ c' = c ∨ Flow.Step main c seen c')
    (hM : M' = { (M.setFrame t.2 ⟨point, f.previous, f.root⟩).pass i holder t.2 with
      log := M.log ++ seen.map (Prod.mk f.root) }) : Sound main M' := by
  have hself : M'.frames t.2 = some ⟨point, f.previous, f.root⟩ := by
    rw [hM]
    exact Function.update_self ..
  have hsame : ∀ q, q ≠ t.2 → M'.frames q = M.frames q := fun q hq => by
    rw [hM]
    exact Function.update_of_ne hq ..
  have hturned : Turned M M' i f.root (holder, t.2) seen := by
    apply hs.turned_of hold.frame (fun q hq _ => hsame q hq) ⟨_, hself, rfl⟩ ⟨_, hself, rfl⟩
      (.inl ⟨f, hold.frame, rfl⟩) <;> rw [hM]
    · exact le_refl _
    · exact (hs.frames _ _ hold.frame).1
    all_goals rfl
  have hcalled : Turned M M' i call.id (holder, t.2) seen := hold.root ▸ hturned
  refine hs.turned hi hcall hold hcalled ⟨hself, hold.root, ?_, hrest, ?_⟩
  · apply hold.context.congr
    intro q hq g hg _
    rw [hsame q (ne_of_lt hq), hg]
  · rw [hcalled.trace_self]
    rcases hstep with ⟨rfl, rfl⟩ | hstep
    · rw [List.append_nil]
      exact hold.reached
    · exact hold.reached.step hstep

lemma Sound.goes_on_unseen (hs : Sound main M) (hi : M.held[i]? = some t) (hcall : call ∈ M.calls)
    (hold : Carries main M t call f K c) {point : Point A R V} {holder : Holder R} (hrest : Rest K holder point c')
    (hstep : c' = c ∨ Flow.Step main c [] c')
    (hM : M' = (M.setFrame t.2 ⟨point, f.previous, f.root⟩).pass i holder t.2) : Sound main M' := by
  have hlog : M' = { (M.setFrame t.2 ⟨point, f.previous, f.root⟩).pass i holder t.2 with
      log := M.log ++ ([] : List (ℕ × Mark A R V)).map (Prod.mk f.root) } := by
    rw [hM, List.map_nil, List.append_nil]
    rfl
  refine hs.goes_on hi hcall hold hrest ?_ hlog
  rcases hstep with heq | hstep
  · exact .inl ⟨rfl, heq⟩
  · exact .inr hstep

/-- `co_await` on a task: the new coroutine does the task's code, and what awaits it is what was still to do. -/
lemma Sound.coAwait (hs : Sound main M) {loop handle : ℕ} (hi : M.held[i]? = some (.thread loop, handle)) (hcall : call ∈ M.calls)
    {task : Body A R V} {next : V → Body A R V}
    (hold : Carries main M (.thread loop, handle) call f K (.on loop ((Body.coAwait task next).flow.bind K)))
    (hM : M' = { ((M.setFrame handle ⟨.awaiting next, f.previous, f.root⟩).setFrame M.fresh
        ⟨.running task, some handle, f.root⟩).pass i (.thread loop) M.fresh with fresh := M.fresh + 1 }) : Sound main M' := by
  have hlt : handle < M.fresh := (hs.frames _ _ hold.frame).1
  have hnew : M'.frames M.fresh = some ⟨.running task, some handle, f.root⟩ := by
    rw [hM]
    exact Function.update_self ..
  have hself : M'.frames handle = some ⟨.awaiting next, f.previous, f.root⟩ := by
    rw [hM]
    exact (Function.update_of_ne (ne_of_lt hlt) ..).trans (Function.update_self ..)
  have hsame : ∀ q, q ≠ handle → q ≠ M.fresh → M'.frames q = M.frames q := by
    intro q hq hq'
    rw [hM]
    exact (Function.update_of_ne hq' ..).trans (Function.update_of_ne hq ..)
  have hturned : Turned M M' i f.root (.thread loop, M.fresh) [] := by
    apply hs.turned_of hold.frame hsame ⟨_, hself, rfl⟩ ⟨_, hnew, rfl⟩ (.inr rfl) <;> rw [hM]
    · exact Nat.le_succ _
    · exact Nat.lt_succ_self _
    · rfl
    · rw [List.map_nil, List.append_nil]
      rfl
    · rfl
  have hcalled : Turned M M' i call.id (.thread loop, M.fresh) [] := hold.root ▸ hturned
  have hcontext : Context M'.frames f.root handle f.previous K := by
    apply hold.context.congr
    intro q hq g hg _
    rw [hsame q (ne_of_lt hq) (ne_of_lt (hq.trans hlt)), hg]
  refine hs.turned hi hcall hold hcalled ⟨hnew, hold.root, .awaiting hself hlt hcontext, .running, ?_⟩
  rw [hcalled.trace_self, List.append_nil]
  have hreached := hold.reached
  rwa [Body.flow, Flow.bind_assoc] at hreached

/-- `final_suspend` of a task: the coroutine that awaits it goes on with the result. -/
lemma Sound.returns (hs : Sound main M) {loop handle : ℕ} (hi : M.held[i]? = some (.thread loop, handle)) (hcall : call ∈ M.calls)
    {v : V} (hold : Carries main M (.thread loop, handle) call f K (.on loop ((Body.coReturn v).flow.bind K)))
    {previous : ℕ} (hprevious : f.previous = some previous) : ∃ next previous',
      M.frames previous = some ⟨.awaiting next, previous', f.root⟩ ∧ ∀ M',
        M' = ((M.setFrame handle ⟨.returned v, f.previous, f.root⟩).setFrame previous
          ⟨.running (next v), previous', f.root⟩).pass i (.thread loop) previous → Sound main M' := by
  have hcontext := hold.context
  rw [hprevious] at hcontext
  cases hcontext with
  | @awaiting _ _ next previous' K' hframe hlt hcontext =>
    refine ⟨next, previous', hframe, fun M' hM => ?_⟩
    have hnew : M'.frames previous = some ⟨.running (next v), previous', f.root⟩ := by
      rw [hM]
      exact Function.update_self ..
    have hself : M'.frames handle = some ⟨.returned v, f.previous, f.root⟩ := by
      rw [hM]
      exact (Function.update_of_ne (ne_of_gt hlt) ..).trans (Function.update_self ..)
    have hsame : ∀ q, q ≠ handle → q ≠ previous → M'.frames q = M.frames q := by
      intro q hq hq'
      rw [hM]
      exact (Function.update_of_ne hq' ..).trans (Function.update_of_ne hq ..)
    have hturned : Turned M M' i f.root (.thread loop, previous) [] := by
      apply hs.turned_of hold.frame hsame ⟨_, hself, rfl⟩ ⟨_, hnew, rfl⟩ (.inl ⟨_, hframe, rfl⟩) <;> rw [hM]
      · exact le_refl _
      · exact (hs.frames _ _ hframe).1
      · rfl
      · rw [List.map_nil, List.append_nil]
        rfl
      · rfl
    have hcalled : Turned M M' i call.id (.thread loop, previous) [] := hold.root ▸ hturned
    have hbehind : Context M'.frames f.root previous previous' K' := by
      apply hcontext.congr
      intro q hq g hg _
      rw [hsame q (ne_of_lt (hq.trans hlt)) (ne_of_lt hq), hg]
    refine hs.turned hi hcall hold hcalled ⟨hnew, hold.root, hbehind, .running, ?_⟩
    rw [hcalled.trace_self, List.append_nil]
    exact hold.reached

lemma Ended.trace (h : Ended M M' i root) (other : ℕ) : M'.trace other = M.trace other := by
  rw [Coroutines.trace, Coroutines.trace, h.log]

lemma Ended.rootOf (h : Ended M M' i root) {q : ℕ} (hq : M.rootOf q ≠ some root) : M'.rootOf q = M.rootOf q := by
  have hne : q ≠ root := by
    rintro rfl
    exact hq h.frame
  rw [Coroutines.rootOf, Coroutines.rootOf, h.others _ hne]

lemma Ended.carries (h : Ended M M' i root) (hc : Carries main M t call f K c) (hne : call.id ≠ root) :
    Carries main M' t call f K c := by
  have hframes : ∀ q g, M.frames q = some g → g.root = f.root → M'.frames q = some g := by
    intro q g hg hgroot
    rw [h.others q ?_, hg]
    rintro rfl
    obtain ⟨g', hg', hroot⟩ := rootOf_eq_some.mp h.frame
    cases hg.symm.trans hg'
    exact hne (hc.root.symm.trans (hgroot.symm.trans hroot))
  refine ⟨hframes _ _ hc.frame rfl, hc.root, hc.context.congr fun q _ g hg => hframes q g hg, hc.rest, ?_⟩
  rw [h.trace]
  exact hc.reached

lemma Ended.called (h : Ended M M' i root) (hs : Sound main M) (hi : M.held[i]? = some t)
    (hroot : M.rootOf t.2 = some root) (hcall : call ∈ M.calls) (hne : call.id ≠ root) :
    (∃ u ∈ M'.held, M'.rootOf u.2 = some call.id) ∨ Finished main M' call := by
  have hkept : ∀ u ∈ M.held.eraseIdx i, M'.rootOf u.2 = M.rootOf u.2 := fun u hu => h.rootOf (hs.root_ne hi hroot hu)
  rcases hs.called call hcall with ⟨u, hu, hu'⟩ | ⟨hnone, hnoone, loop, v, hdone⟩
  · have hmem : u ∈ M.held.eraseIdx i := by
      rcases List.mem_cons.mp ((held_perm hi).mem_iff.mpr hu) with rfl | hmem
      · exact absurd (Option.some.inj (hu'.symm.trans hroot)) hne
      · exact hmem
    exact .inl ⟨u, h.held ▸ hmem, (hkept u hmem).trans hu'⟩
  · refine .inr ⟨?_, ?_, loop, v, ?_⟩
    · rw [h.others _ hne, hnone]
    · rw [h.held]
      exact fun u hu => hkept u hu ▸ hnoone u (List.mem_of_mem_eraseIdx hu)
    · rw [h.trace]
      exact hdone

lemma Sound.ended (hs : Sound main M) (hi : M.held[i]? = some t) (hcall : call ∈ M.calls)
    (hroot : M.rootOf t.2 = some call.id) (h : Ended M M' i call.id) {loop : ℕ} {v : V}
    (hdone : Flow.Reaches main (.on call.loop call.body.flow) (M.trace call.id) (.on loop (.done v))) : Sound main M' := by
  have hnot : ∀ u ∈ M.held.eraseIdx i, M.rootOf u.2 ≠ some call.id := fun u hu => hs.root_ne hi hroot hu
  refine ⟨?_, ?_, ?_, ?_, ?_, ?_, ?_⟩
  · intro q g hg
    have hq : q ≠ call.id := by
      rintro rfl
      cases h.gone.symm.trans hg
    rw [h.others q hq] at hg
    rw [h.fresh]
    exact hs.frames q g hg
  · rw [h.calls, h.fresh]
    exact hs.calls
  · rw [h.calls]
    exact hs.ids
  · rw [h.log, h.fresh]
    exact hs.log
  · intro u hu
    rw [h.held] at hu
    rw [h.calls]
    obtain ⟨other, hother, f', K', c', hcarries⟩ := hs.held u (List.mem_of_mem_eraseIdx hu)
    have hne : other.id ≠ call.id := fun heq => hnot u hu (hcarries.rootOf.trans (congrArg some heq))
    exact ⟨other, hother, f', K', c', h.carries hcarries hne⟩
  · rw [h.held, List.map_congr_left fun u hu => h.rootOf (hnot u hu)]
    have hnodup := ((held_perm hi).map fun t => M.rootOf t.2).nodup_iff.mpr hs.roots
    exact (List.nodup_cons.mp hnodup).2
  · rw [h.calls]
    intro other hother
    by_cases hid : other.id = call.id
    · obtain rfl := List.inj_on_of_nodup_map hs.ids hother hcall hid
      refine .inr ⟨h.gone, ?_, loop, v, ?_⟩
      · rw [h.held]
        exact fun u hu => h.rootOf (hnot u hu) ▸ hnot u hu
      · rw [h.trace]
        exact hdone
    · exact h.called hs hi hroot hother hid

lemma Sound.finishes (hs : Sound main M) {loop handle : ℕ} (hi : M.held[i]? = some (.thread loop, handle))
    (hcall : call ∈ M.calls) {v : V}
    (hold : Carries main M (.thread loop, handle) call f K (.on loop ((Body.coReturn v).flow.bind K)))
    (hprevious : f.previous = none)
    (hM : M' = { M with frames := Function.update M.frames handle none, held := M.held.eraseIdx i }) : Sound main M' := by
  have hcontext := hold.context
  rw [hprevious] at hcontext
  generalize hroot : f.root = root at hcontext
  cases hcontext
  obtain rfl : call.id = handle := hold.root.symm.trans hroot
  refine hs.ended hi hcall hold.rootOf ⟨hold.rootOf, ?_, fun q hq => ?_, ?_, ?_, ?_, ?_⟩ hold.reached <;> rw [hM]
  · exact Function.update_self ..
  · exact Function.update_of_ne hq ..

lemma Sound.exec (hs : Sound main M) {loop handle : ℕ} (hi : M.held[i]? = some (.thread loop, handle))
    (hcall : call ∈ M.calls) {rest : Body A R V} (hf : f.point = .running rest)
    (hold : Carries main M (.thread loop, handle) call f K (.on loop (rest.flow.bind K))) :
    ∃ M', M.exec i loop handle f rest = some M' ∧ Sound main M' := by
  cases rest with
  | act a next =>
    exact ⟨_, rfl, hs.goes_on hi hcall hold .running (.inr .act) rfl⟩
  | coAwait task next => exact ⟨_, rfl, hs.coAwait hi hcall hold rfl⟩
  | loopSwitch loop' next => exact ⟨_, rfl, hs.goes_on_unseen hi hcall hold .posted (.inr .hop) rfl⟩
  | execAfter millSeconds next =>
    rw [Body.flow] at hold
    by_cases hzero : millSeconds = 0
    · exact ⟨_, if_pos hzero, hs.goes_on_unseen hi hcall hold .running (.inl rfl) rfl⟩
    · exact ⟨_, if_neg hzero, hs.goes_on_unseen hi hcall hold .timed (.inl rfl) rfl⟩
  | execAfterOnLoop loop' millSeconds next =>
    by_cases hzero : millSeconds = 0
    · rw [Body.flow, if_pos hzero] at hold
      exact ⟨_, if_pos hzero, hs.goes_on_unseen hi hcall hold .running (.inl rfl) rfl⟩
    · rw [Body.flow, if_neg hzero] at hold
      exact ⟨_, if_neg hzero, hs.goes_on_unseen hi hcall hold .timed (.inr .hop) rfl⟩
  | fetch r next => exact ⟨_, rfl, hs.goes_on hi hcall hold .fetching (.inr .ask) rfl⟩
  | coReturn v =>
    cases hprevious : f.previous with
    | none =>
      rw [Coroutines.exec, hprevious]
      exact ⟨_, rfl, hs.finishes hi hcall hold hprevious rfl⟩
    | some previous =>
      obtain ⟨next, previous', hframe, hnext⟩ := hs.returns hi hcall hold hprevious
      rw [Coroutines.exec, hprevious]
      simp only [hframe]
      exact ⟨_, rfl, hnext _ (by rw [hprevious])⟩

lemma Sound.exists_carries (hs : Sound main M) (hi : M.held[i]? = some t) :
    ∃ call ∈ M.calls, ∃ f K c, Carries main M t call f K c := hs.held t (List.mem_of_getElem? hi)

lemma Sound.turn_thread (hs : Sound main M) {loop handle : ℕ} (hi : M.held[i]? = some (.thread loop, handle)) :
    ∃ M', M.turn i = some M' ∧ Sound main M' := by
  obtain ⟨call, hcall, ⟨point, previous, root⟩, K, c, hold⟩ := hs.exists_carries hi
  obtain ⟨rest, rfl, rfl⟩ : ∃ rest, point = .running rest ∧ c = .on loop (rest.flow.bind K) := by
    have hrest := hold.rest
    generalize hholder : (Holder.thread loop, handle).1 = holder at hrest
    cases hrest <;> cases hholder
    exact ⟨_, rfl, rfl⟩
  rw [turn, hi]
  simp only [hold.frame]
  exact hs.exec hi hcall rfl hold

lemma Sound.resume (hs : Sound main M) {loop handle : ℕ} (hi : M.held[i]? = some (.task loop, handle)) :
    ∃ M', M.resume i loop handle = some M' ∧ Sound main M' := by
  obtain ⟨call, hcall, ⟨point, previous, root⟩, K, c, hold⟩ := hs.exists_carries hi
  obtain ⟨next, rfl, rfl⟩ : ∃ next, point = .suspended next ∧ c = .on loop (next.flow.bind K) := by
    have hrest := hold.rest
    generalize hholder : (Holder.task loop, handle).1 = holder at hrest
    cases hrest <;> cases hholder
    exact ⟨_, rfl, rfl⟩
  rw [Coroutines.resume, hold.frame]
  exact ⟨_, rfl, hs.goes_on_unseen hi hcall hold .running (.inl rfl) rfl⟩

lemma Sound.turn_timer (hs : Sound main M) {loop handle : ℕ} (hi : M.held[i]? = some (.timer loop, handle)) :
    Sound main (M.pass i (.task loop) handle) := by
  obtain ⟨call, hcall, ⟨point, previous, root⟩, K, c, hold⟩ := hs.exists_carries hi
  obtain ⟨next, rfl, rfl⟩ : ∃ next, point = .suspended next ∧ c = .on loop (next.flow.bind K) := by
    have hrest := hold.rest
    generalize hholder : (Holder.timer loop, handle).1 = holder at hrest
    cases hrest <;> cases hholder
    exact ⟨_, rfl, rfl⟩
  have hrest : Rest K (.task loop) (.suspended next) (.on loop (next.flow.bind K)) := .posted
  apply hs.goes_on_unseen hi hcall hold hrest (.inl rfl)
  rw [setFrame, Function.update_eq_self_iff.mpr hold.frame.symm]

lemma Sound.turn (hs : Sound main M) (h : M.turn i = some M') : Sound main M' := by
  have hturn := h
  rw [Coroutines.turn] at h
  split at h
  case h_1 loop handle hi =>
    obtain ⟨_, hone, hs'⟩ := hs.turn_thread hi
    cases hone.symm.trans hturn
    exact hs'
  case h_2 loop handle hi =>
    split at h
    · obtain ⟨_, hone, hs'⟩ := hs.resume hi
      cases hone.symm.trans h
      exact hs'
    · cases h
  case h_3 loop handle hi =>
    cases h
    exact hs.turn_timer hi
  case h_4 => cases h

lemma Sound.answer (hs : Sound main M) {r : R} {handle : ℕ} (hi : M.held[i]? = some (.callback r, handle))
    (hidle : M.idle main = true) (v : V) : ∃ M', Coroutines.answer main M i v = some M' ∧ Sound main M' := by
  obtain ⟨call, hcall, ⟨point, previous, root⟩, K, c, hold⟩ := hs.exists_carries hi
  obtain ⟨next, rfl, rfl⟩ : ∃ next, point = .fetching next ∧ c = .asked fun v => (next v).flow.bind K := by
    have hrest := hold.rest
    generalize hholder : (Holder.callback r, handle).1 = holder at hrest
    cases hrest <;> cases hholder
    exact ⟨_, rfl, rfl⟩
  rw [Coroutines.answer, hi]
  simp only [hidle, hold.frame]
  exact ⟨_, rfl, hs.goes_on hi hcall hold .running (.inr (.answer v)) rfl⟩

lemma Sound.answered (hs : Sound main M) {v : V} (h : Coroutines.answer main M i v = some M') : Sound main M' := by
  have hanswer := h
  rw [Coroutines.answer] at h
  split at h
  case h_1 r handle hi =>
    split at h
    case h_1 hidle _ =>
      obtain ⟨_, hone, hs'⟩ := hs.answer hi hidle v
      cases hone.symm.trans hanswer
      exact hs'
    case h_2 => cases h
  case h_2 => cases h

lemma Sound.enters (hs : Sound main M) {loop : ℕ} {body : Body A R V} (h : M.call loop body = some M') :
    Sound main M' := by
  rw [Coroutines.call] at h
  split at h
  case isFalse => cases h
  case isTrue =>
    cases h
    have hframes : ∀ q f, M.frames q = some f →
        Function.update M.frames M.fresh (some ⟨.running body, none, M.fresh⟩) q = some f := by
      intro q f hf
      rwa [Function.update_of_ne (ne_of_lt (hs.frames q f hf).1)]
    have hkept : ∀ t ∈ M.held, rootOf (M.setFrame M.fresh ⟨.running body, none, M.fresh⟩) t.2 = M.rootOf t.2 ∧
        M.rootOf t.2 ≠ some M.fresh := by
      intro t ht
      obtain ⟨call, hcall, f, K, c, hold⟩ := hs.held t ht
      constructor
      · rw [hold.rootOf]
        exact rootOf_eq_some.mpr ⟨f, hframes _ _ hold.frame, hold.root⟩
      · rw [hold.rootOf]
        exact fun heq => ne_of_lt (hs.calls call hcall) (Option.some.inj heq)
    have hnew : rootOf (M.setFrame M.fresh ⟨.running body, none, M.fresh⟩) M.fresh = some M.fresh :=
      rootOf_eq_some.mpr ⟨_, Function.update_self .., rfl⟩
    have htrace : M.trace M.fresh = [] := ranOn_eq_nil fun e he => ne_of_lt (hs.log e he)
    refine ⟨?_, ?_, ?_, ?_, ?_, ?_, ?_⟩
    · intro q f hf
      by_cases hq : q = M.fresh
      · subst hq
        cases (Function.update_self M.fresh _ M.frames).symm.trans hf
        exact ⟨Nat.lt_succ_self _, Nat.lt_succ_self _⟩
      · obtain ⟨hlt, hroot⟩ := hs.frames q f ((Function.update_of_ne hq _ _).symm.trans hf)
        exact ⟨Nat.lt_succ_of_lt hlt, Nat.lt_succ_of_lt hroot⟩
    · intro call hcall
      rcases List.mem_append.mp hcall with hcall | hcall
      · exact Nat.lt_succ_of_lt (hs.calls call hcall)
      · obtain rfl := List.mem_singleton.mp hcall
        exact Nat.lt_succ_self _
    · rw [List.map_append]
      refine List.nodup_append'.mpr ⟨hs.ids, List.nodup_singleton _, ?_⟩
      intro id hid hid'
      obtain ⟨call, hcall, rfl⟩ := List.mem_map.mp hid
      exact ne_of_lt (hs.calls call hcall) (List.mem_singleton.mp hid')
    · exact fun e he => Nat.lt_succ_of_lt (hs.log e he)
    · intro t ht
      rcases List.mem_append.mp ht with ht | ht
      · obtain ⟨call, hcall, f, K, c, hold⟩ := hs.held t ht
        exact ⟨call, List.mem_append_left _ hcall, f, K, c, hframes _ _ hold.frame, hold.root,
          hold.context.congr fun q _ g hg _ => hframes q g hg, hold.rest, hold.reached⟩
      · obtain rfl := List.mem_singleton.mp ht
        refine ⟨⟨M.fresh, loop, body⟩, List.mem_append_right _ (List.mem_singleton_self _), _, .done, _,
          Function.update_self .., rfl, .root, .running, ?_⟩
        rw [Flow.bind_done]
        change Flow.Reaches main _ (M.trace M.fresh) _
        rw [htrace]
        exact .refl
    · change ((M.held ++ [(Holder.thread loop, M.fresh)]).map fun t : Holder R × ℕ =>
        rootOf (M.setFrame M.fresh ⟨.running body, none, M.fresh⟩) t.2).Nodup
      rw [List.map_append, List.map_singleton, hnew, List.map_congr_left fun t ht => (hkept t ht).1]
      refine List.nodup_append'.mpr ⟨hs.roots, List.nodup_singleton _, ?_⟩
      intro root hroot hroot'
      obtain ⟨t, ht, rfl⟩ := List.mem_map.mp hroot
      exact (hkept t ht).2 (List.mem_singleton.mp hroot')
    · intro call hcall
      rcases List.mem_append.mp hcall with hcall | hcall
      · rcases hs.called call hcall with ⟨t, ht, hroot⟩ | ⟨hnone, hgone, loop', v, hdone⟩
        · exact .inl ⟨t, List.mem_append_left _ ht, (hkept t ht).1.trans hroot⟩
        · have hne : call.id ≠ M.fresh := ne_of_lt (hs.calls call hcall)
          refine .inr ⟨(Function.update_of_ne hne _ _).trans hnone, ?_, loop', v, hdone⟩
          intro t ht
          rcases List.mem_append.mp ht with ht | ht
          · exact fun heq => hgone t ht ((hkept t ht).1.symm.trans heq)
          · obtain rfl := List.mem_singleton.mp ht
            exact fun heq => hne (Option.some.inj (hnew.symm.trans heq)).symm
      · obtain rfl := List.mem_singleton.mp hcall
        exact .inl ⟨_, List.mem_append_right _ (List.mem_singleton_self _), hnew⟩

theorem sound_init : Sound main (init : Coroutines A R V) := by
  constructor <;> simp [init]

theorem Sound.step (hs : Sound main M) {e : CoroutineEvent A R V} (h : M.step main e = some M') : Sound main M' := by
  cases e with
  | call loop body => exact hs.enters h
  | turn i => exact hs.turn h
  | answer i v => exact hs.answered h

lemma sound_of_run {es : List (CoroutineEvent A R V)} (h : run (step main) init es = some M) : Sound main M :=
  run_keeps (fun hs hone => hs.step hone) sound_init h

end

/-! ### Runs -/

inductive Stands : Holder R → Flow.Config A R V → Prop
  | thread {loop : ℕ} {rest : Flow A R V} : Stands (.thread loop) (.on loop rest)
  | task {loop : ℕ} {rest : Flow A R V} : Stands (.task loop) (.on loop rest)
  | timer {loop : ℕ} {rest : Flow A R V} : Stands (.timer loop) (.on loop rest)
  | callback {r : R} {next : V → Flow A R V} : Stands (.callback r) (.asked next)

lemma Rest.stands {K : V → Flow A R V} {holder : Holder R} {point : Point A R V} {c : Flow.Config A R V}
    (h : Rest K holder point c) : Stands holder c := by
  cases h with
  | running => exact .thread
  | posted => exact .task
  | timed => exact .timer
  | fetching => exact .callback

structure Underway (main : ℕ) (M : Coroutines A R V) (call : Call A R V) (t : Holder R × ℕ) : Prop where
  held : t ∈ M.held
  root : M.rootOf t.2 = some call.id
  only : ∀ u ∈ M.held, M.rootOf u.2 = some call.id → u = t
  reached : ∃ c, Stands t.1 c ∧ Flow.Reaches main (.on call.loop call.body.flow) (M.trace call.id) c

/-! ### The frames of tasks that have returned -/

def Returned (M : Coroutines A R V) (q : ℕ) : Prop :=
  ∃ v previous root, M.frames q = some ⟨.returned v, previous, root⟩

section

variable {main i q : ℕ} {M M' : Coroutines A R V}

lemma Returned.setFrame_of_ne {handle : ℕ} {f : Promise A R V} (hne : q ≠ handle) :
    (M.setFrame handle f).frames q = M.frames q := Function.update_of_ne hne ..

lemma Returned.exec (hs : Sound main M) (hq : Returned M q) {loop handle : ℕ} {rest : Body A R V} {previous : Option ℕ}
    {root : ℕ} (hf : M.frames handle = some ⟨.running rest, previous, root⟩)
    (h : M.exec i loop handle ⟨.running rest, previous, root⟩ rest = some M') : M'.frames q = M.frames q := by
  obtain ⟨v, previous', root', hq⟩ := hq
  have hne : q ≠ handle := by
    rintro rfl
    cases hq.symm.trans hf
  have hfresh : q ≠ M.fresh := ne_of_lt (hs.frames q _ hq).1
  cases rest with
  | act a next | loopSwitch loop' next | fetch r next =>
    cases h
    exact setFrame_of_ne hne
  | coAwait task next =>
    cases h
    exact (setFrame_of_ne hfresh).trans (setFrame_of_ne hne)
  | execAfter millSeconds next | execAfterOnLoop loop' millSeconds next =>
    rw [Coroutines.exec] at h
    split at h <;>
    · cases h
      exact setFrame_of_ne hne
  | coReturn w =>
    cases previous with
    | none =>
      cases h
      exact Function.update_of_ne hne ..
    | some previous =>
      simp only [Coroutines.exec] at h
      split at h
      case h_1 next previous'' root'' hawaiting =>
        cases h
        have hne' : q ≠ previous := by
          rintro rfl
          cases hq.symm.trans hawaiting
        exact (setFrame_of_ne hne').trans (setFrame_of_ne hne)
      case h_2 => cases h

lemma Returned.turn (hs : Sound main M) (hq : Returned M q) (h : M.turn i = some M') : M'.frames q = M.frames q := by
  have hq' := hq
  obtain ⟨v, previous', root', hq'⟩ := hq'
  rw [Coroutines.turn] at h
  split at h
  case h_1 =>
    split at h
    case h_1 hf => exact hq.exec hs hf h
    case h_2 => cases h
  case h_2 loop handle _ =>
    split at h
    case isTrue =>
      rw [resume] at h
      split at h
      case h_1 hf =>
        cases h
        apply setFrame_of_ne
        rintro rfl
        cases hq'.symm.trans hf
      case h_2 => cases h
    case isFalse => cases h
  case h_3 =>
    cases h
    rfl
  case h_4 => cases h

lemma Returned.step (hs : Sound main M) (hq : Returned M q) {e : CoroutineEvent A R V} (h : M.step main e = some M') :
    M'.frames q = M.frames q := by
  cases e with
  | call loop body =>
    obtain ⟨v, previous', root', hq⟩ := hq
    rw [Coroutines.step, Coroutines.call] at h
    split at h
    · cases h
      exact setFrame_of_ne (ne_of_lt (hs.frames q _ hq).1)
    · cases h
  | turn i => exact hq.turn hs h
  | answer i v =>
    obtain ⟨w, previous', root', hq⟩ := hq
    rw [Coroutines.step, Coroutines.answer] at h
    split at h
    case h_1 =>
      split at h
      case h_1 hf =>
        cases h
        apply setFrame_of_ne
        rintro rfl
        cases hq.symm.trans hf
      case h_2 => cases h
    case h_2 => cases h

lemma Returned.run (hs : Sound main M) (hq : Returned M q) {later : List (CoroutineEvent A R V)}
    (h : Library.run (Coroutines.step main) M later = some M') : M'.frames q = M.frames q := by
  induction later generalizing M with
  | nil =>
    cases h
    rfl
  | cons e later ih =>
    obtain ⟨M₁, hone, h⟩ := Option.bind_eq_some_iff.mp h
    have hsame := hq.step hs hone
    have hq₁ : Returned M₁ q := by
      obtain ⟨v, previous, root, hq⟩ := hq
      exact ⟨v, previous, root, hsame.trans hq⟩
    exact (ih (hs.step hone) hq₁ h).trans hsame

end

lemma underway_or_finished {main : ℕ} {es : List (CoroutineEvent A R V)} {M : Coroutines A R V}
    (h : run (step main) init es = some M) {call : Call A R V} (hcall : call ∈ M.calls) :
    (∃ t, Underway main M call t) ∨ Finished main M call := by
  have hs := sound_of_run h
  rcases hs.called call hcall with ⟨t, ht, hroot⟩ | hfinished
  · refine .inl ⟨t, ht, hroot, ?_, ?_⟩
    · intro u hu hu'
      exact List.inj_on_of_nodup_map hs.roots hu ht (hu'.trans hroot.symm)
    · obtain ⟨other, hother, f, K, c, hold⟩ := hs.held t ht
      obtain rfl : other = call := by
        apply List.inj_on_of_nodup_map hs.ids hother hcall
        exact Option.some.inj (hold.rootOf.symm.trans hroot)
      exact ⟨c, hold.rest.stands, hold.reached⟩
  · exact .inr hfinished

/-- In every run each call does what its code says in direct style, wherever its parts run: as long as it has not
returned exactly one handle is held for it, and when it has returned none is, and its own frame is gone. The frame of
a task that was awaited is never destroyed once the task has returned. -/
theorem coroutines_direct_style {main : ℕ} {es : List (CoroutineEvent A R V)} {M : Coroutines A R V}
    (h : run (step main) init es = some M) :
    (∀ call ∈ M.calls, (∃ t, Underway main M call t) ∨ Finished main M call) ∧
      ∀ q, Returned M q → ∀ later M', run (step main) M later = some M' → M'.frames q = M.frames q := by
  constructor
  · intro call hcall
    exact underway_or_finished h hcall
  · intro q hq later M' hlater
    exact hq.run (sound_of_run h) hlater

/-- A task that goes to loop 1 and back is awaited on loop 0. -/
def awayAndBack : Body ℕ ℕ ℕ :=
  .coAwait (.loopSwitch 1 (.act 5 (.loopSwitch 0 (.coReturn 7)))) fun v => .act v (.coReturn 0)

theorem direct_style_awayAndBack : ∃ M,
    run (step 0) init (.call 0 awayAndBack :: List.replicate 8 (.turn 0)) = some M ∧
      M.trace 0 = [(1, .act 5), (0, .act 7)] ∧ (∀ call ∈ M.calls, (∃ t, Underway 0 M call t) ∨ Finished 0 M call) ∧
      ∀ later M', run (step 0) M later = some M' → M'.frames 1 = some ⟨.returned 7, some 0, 0⟩ := by
  have hrun : run (step 0) init (.call 0 awayAndBack :: List.replicate 8 (.turn 0)) = some _ := rfl
  obtain ⟨hcalls, hframes⟩ := coroutines_direct_style hrun
  exact ⟨_, hrun, rfl, hcalls, fun later M' hlater => hframes 1 ⟨7, some 0, 0, rfl⟩ later M' hlater⟩

/-- What the holder of a handle waits for before it resumes it. -/
def Due (main : ℕ) (M : Coroutines A R V) (i : ℕ) : Holder R → Prop
  | .thread _ => True
  | .task loop => M.idle loop = true ∧ (M.held.take i).all (fun t => !t.1.isTask loop) = true
  | .timer _ => True
  | .callback _ => M.idle main = true

def advance (i : ℕ) (v : V) : Holder R → CoroutineEvent A R V
  | .callback _ => .answer i v
  | _ => .turn i

theorem coroutines_never_stuck {main : ℕ} {es : List (CoroutineEvent A R V)} {M : Coroutines A R V}
    (h : run (step main) init es = some M) {i : ℕ} {t : Holder R × ℕ} (hi : M.held[i]? = some t) (hdue : Due main M i t.1)
    (v : V) : ∃ M', M.step main (advance i v t.1) = some M' := by
  have hs := sound_of_run h
  obtain ⟨holder, handle⟩ := t
  cases holder with
  | thread loop =>
    obtain ⟨M', hM', -⟩ := hs.turn_thread hi
    exact ⟨M', hM'⟩
  | task loop =>
    obtain ⟨M', hM', -⟩ := hs.resume hi
    refine ⟨M', ?_⟩
    change M.turn i = _
    rw [turn, hi]
    exact (if_pos hdue).trans hM'
  | timer loop =>
    refine ⟨M.pass i (.task loop) handle, ?_⟩
    change M.turn i = _
    rw [turn, hi]
  | callback r =>
    obtain ⟨M', hM', -⟩ := hs.answer hi hdue v
    exact ⟨M', hM'⟩

theorem never_stuck_awayAndBack : ∃ M, run (step 0) init (.call 0 awayAndBack :: List.replicate 2 (.turn 0)) = some M ∧
    M.held = [(.task 1, 1)] ∧ ∃ M', M.step 0 (.turn 0) = some M' := by
  have hrun : run (step 0) init (.call 0 awayAndBack :: List.replicate 2 (.turn 0)) = some _ := rfl
  exact ⟨_, hrun, rfl, coroutines_never_stuck hrun (t := (.task 1, 1)) rfl ⟨rfl, rfl⟩ 0⟩

end Coroutines

end TonyCat.Loop
