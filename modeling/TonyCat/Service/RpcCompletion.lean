import TonyCat.Service.RpcModule

set_option autoImplicit false

/-! Every registered callback is called once. -/

namespace TonyCat.Service

open TonyCat.Library RpcModule

variable {F : Type*}

/-! ### The life of one query id -/

inductive Phase (F : Type*)
  | unborn
  | current (msgId : UInt32) (func : F)
  | last (msgId : UInt32) (func : F)
  | finished

def about (q : ℤ) (actions : List (Action F)) : List (Action F) := actions.filter fun a => a.queryId = q

def Entry.IsTimeout (msgId : UInt32) (entry : Entry F) : Prop :=
  ∃ order issued, entry.event = .timeout msgId order issued

inductive PhaseStep (q : ℤ) : Phase F → Entry F → Phase F → Prop
  | silent {p : Phase F} {entry : Entry F} (hsilent : about q entry.actions = [])
      (hwait : ∀ m f, p = .current m f ∨ p = .last m f → ¬ entry.IsTimeout m) : PhaseStep q p entry p
  | register {m : UInt32} {f : F} {entry : Entry F} (hreg : about q entry.actions = [.registered m q f])
      (htime : ¬ entry.IsTimeout m) : PhaseStep q .unborn entry (.current m f)
  | registerInTimeout {m : UInt32} {f : F} {entry : Entry F} (hreg : about q entry.actions = [.registered m q f])
      (htime : entry.IsTimeout m) : PhaseStep q .unborn entry (.last m f)
  | age {m : UInt32} {f : F} {entry : Entry F} (hsilent : about q entry.actions = [])
      (htime : entry.IsTimeout m) : PhaseStep q (.current m f) entry (.last m f)
  | answer {m : UInt32} {f : F} {p : Phase F} {entry : Entry F} {respond : Respond} {issued : List (Request F)}
      (hp : p = .current m f ∨ p = .last m f) (hevent : entry.event = .respond m respond issued)
      (hown : respond.packetHead.queryId = q) (hinv : about q entry.actions = [.invoked m q f respond]) :
      PhaseStep q p entry .finished
  | expire {m : UInt32} {f : F} {entry : Entry F} (htime : entry.IsTimeout m)
      (hinv : about q entry.actions = [.invoked m q f timeoutRespond]) :
      PhaseStep q (.last m f) entry .finished

namespace RpcModule

def currentOf (rpc : RpcModule F) (msgId : UInt32) : List (ℤ × F) :=
  ((rpc.mapRpcContext msgId).getD ⟨[], []⟩).mapCurrentCallback

def lastOf (rpc : RpcModule F) (msgId : UInt32) : List (ℤ × F) :=
  ((rpc.mapRpcContext msgId).getD ⟨[], []⟩).mapLastCallback

def pending (rpc : RpcModule F) (msgId : UInt32) : List (ℤ × F) := rpc.lastOf msgId ++ rpc.currentOf msgId

structure WellFormed (rpc : RpcModule F) : Prop where
  bounded : ∀ m, ∀ elem ∈ rpc.pending m, elem.1 ≤ rpc.nQueryId
  nodup : ∀ m, ((rpc.pending m).map Prod.fst).Nodup
  separate : ∀ m m', ∀ elem ∈ rpc.pending m, ∀ elem' ∈ rpc.pending m', elem.1 = elem'.1 → m = m'

def HasPhase (rpc : RpcModule F) (q : ℤ) : Phase F → Prop
  | .unborn => rpc.nQueryId < q
  | .current m f => (q, f) ∈ rpc.currentOf m
  | .last m f => (q, f) ∈ rpc.lastOf m
  | .finished => q ≤ rpc.nQueryId ∧ ∀ m f, (q, f) ∉ rpc.pending m

@[simp] lemma currentOf_setRpcContext (rpc : RpcModule F) (m m' : UInt32) (context : RpcContext F) :
    (rpc.setRpcContext m context).currentOf m' =
      if m' = m then context.mapCurrentCallback else rpc.currentOf m' := by
  by_cases h : m' = m
  · subst h
    simp [currentOf, setRpcContext]
  · simp [currentOf, setRpcContext, h]

@[simp] lemma lastOf_setRpcContext (rpc : RpcModule F) (m m' : UInt32) (context : RpcContext F) :
    (rpc.setRpcContext m context).lastOf m' = if m' = m then context.mapLastCallback else rpc.lastOf m' := by
  by_cases h : m' = m
  · subst h
    simp [lastOf, setRpcContext]
  · simp [lastOf, setRpcContext, h]

lemma mem_pending {rpc : RpcModule F} {m : UInt32} {elem : ℤ × F} :
    elem ∈ rpc.pending m ↔ elem ∈ rpc.lastOf m ∨ elem ∈ rpc.currentOf m := List.mem_append

lemma HasPhase.pending_of_current {rpc : RpcModule F} {q : ℤ} {m : UInt32} {f : F}
    (h : rpc.HasPhase q (.current m f)) : (q, f) ∈ rpc.pending m := mem_pending.mpr (.inr h)

lemma HasPhase.pending_of_last {rpc : RpcModule F} {q : ℤ} {m : UInt32} {f : F}
    (h : rpc.HasPhase q (.last m f)) : (q, f) ∈ rpc.pending m := mem_pending.mpr (.inl h)

namespace WellFormed

variable {rpc : RpcModule F}

lemma lastOf_nodup (h : rpc.WellFormed) (m : UInt32) : ((rpc.lastOf m).map Prod.fst).Nodup :=
  (h.nodup m).sublist ((List.sublist_append_left _ _).map _)

lemma phase_unique (h : rpc.WellFormed) {q : ℤ} {m : UInt32} {f : F} {p p' : Phase F}
    (hp : p = .current m f ∨ p = .last m f) (hq : rpc.HasPhase q p) (hq' : rpc.HasPhase q p') : p' = p := by
  have hpending : (q, f) ∈ rpc.pending m := by
    obtain rfl | rfl := hp
    · exact hq.pending_of_current
    · exact hq.pending_of_last
  have hnodup := h.nodup m
  rw [pending, List.map_append, List.nodup_append] at hnodup
  have apart : ∀ {g g' : F}, (q, g) ∈ rpc.lastOf m → (q, g') ∈ rpc.currentOf m → False := by
    intro g g' hl hc
    exact hnodup.2.2 q (List.mem_map_of_mem hl) q (List.mem_map_of_mem hc) rfl
  cases p' with
  | unborn =>
    have hle := h.bounded m _ hpending
    have hlt : rpc.nQueryId < q := hq'
    simp only at hle
    omega
  | current m' f' =>
    have hpending' := hq'.pending_of_current
    obtain rfl := h.separate m m' _ hpending _ hpending' rfl
    obtain rfl := KeyedList.eq_of_mem (h.nodup m) hpending hpending'
    obtain rfl | rfl := hp
    · rfl
    · exact (apart hq hq').elim
  | last m' f' =>
    have hpending' := hq'.pending_of_last
    obtain rfl := h.separate m m' _ hpending _ hpending' rfl
    obtain rfl := KeyedList.eq_of_mem (h.nodup m) hpending hpending'
    obtain rfl | rfl := hp
    · exact (apart hq' hq).elim
    · rfl
  | finished => exact (hq'.2 m f hpending).elim

end WellFormed

lemma wellFormed_init : (init : RpcModule F).WellFormed where
  bounded m elem h := by simp [init, pending, lastOf, currentOf] at h
  nodup m := by simp [init, pending, lastOf, currentOf]
  separate m m' elem h := by simp [init, pending, lastOf, currentOf] at h

/-! ### Requests -/

def Grow (q : ℤ) (p p' : Phase F) (actions : List (Action F)) : Prop :=
  (p' = p ∧ about q actions = []) ∨
    ∃ m f, p = .unborn ∧ p' = .current m f ∧ about q actions = [.registered m q f]

lemma about_append (q : ℤ) (as bs : List (Action F)) : about q (as ++ bs) = about q as ++ about q bs :=
  List.filter_append ..

lemma Grow.settled {q : ℤ} {p p' : Phase F} {actions : List (Action F)} (h : Grow q p p' actions)
    (hp : p ≠ .unborn) : p' = p ∧ about q actions = [] := by
  obtain h | ⟨m, f, rfl, -⟩ := h
  · exact h
  · exact absurd rfl hp

lemma Grow.trans {q : ℤ} {p p' p'' : Phase F} {as bs : List (Action F)} (h : Grow q p p' as) (h' : Grow q p' p'' bs) :
    Grow q p p'' (as ++ bs) := by
  obtain ⟨rfl, has⟩ | ⟨m, f, rfl, rfl, has⟩ := h
  · obtain ⟨rfl, hbs⟩ | ⟨m, f, rfl, rfl, hbs⟩ := h'
    · exact .inl ⟨rfl, by rw [about_append, has, hbs]; rfl⟩
    · exact .inr ⟨m, f, rfl, rfl, by rw [about_append, has, hbs]; rfl⟩
  · obtain ⟨rfl, hbs⟩ := h'.settled nofun
    exact .inr ⟨m, f, rfl, rfl, by rw [about_append, has, hbs]; rfl⟩

structure Grown (rpc rpc' : RpcModule F) (actions : List (Action F)) : Prop where
  wellFormed : rpc'.WellFormed
  lastOf_eq : ∀ m, rpc'.lastOf m = rpc.lastOf m
  phase : ∀ q p, rpc.HasPhase q p → ∃ p', rpc'.HasPhase q p' ∧ Grow q p p' actions

lemma rpcRequest_eq {rpc rpc' : RpcModule F} {request : Request F} {actions : List (Action F)}
    (h : rpc.rpcRequest request = some (rpc', actions)) (hwf : rpc.WellFormed) :
    actions = [.registered request.msgId (rpc.nQueryId + 1) request.funcResult] ∧
      rpc'.nQueryId = rpc.nQueryId + 1 ∧ (∀ m, rpc'.lastOf m = rpc.lastOf m) ∧
      ∀ m, rpc'.currentOf m = if m = request.msgId then
        rpc.currentOf m ++ [(rpc.nQueryId + 1, request.funcResult)] else rpc.currentOf m := by
  rw [rpcRequest, genQueryId] at h
  split at h
  case isFalse => cases h
  case isTrue =>
    cases h
    have hfresh : ∀ f, (rpc.nQueryId + 1, f) ∉ rpc.currentOf request.msgId := by
      intro f hmem
      have hle := hwf.bounded request.msgId _ (mem_pending.mpr (.inr hmem))
      simp only at hle
      omega
    refine ⟨rfl, rfl, ?_, ?_⟩
    · intro m
      rw [lastOf_setRpcContext]
      split
      case isTrue hm =>
        subst hm
        rfl
      case isFalse => rfl
    · intro m
      rw [currentOf_setRpcContext]
      split
      case isTrue hm =>
        subst hm
        exact KeyedList.emplace_of_notMem hfresh
      case isFalse => rfl

lemma mem_pending_rpcRequest {rpc rpc' : RpcModule F} {request : Request F} {actions : List (Action F)}
    (h : rpc.rpcRequest request = some (rpc', actions)) (hwf : rpc.WellFormed) {m : UInt32} {elem : ℤ × F} :
    elem ∈ rpc'.pending m ↔ elem ∈ rpc.pending m ∨
      m = request.msgId ∧ elem = (rpc.nQueryId + 1, request.funcResult) := by
  obtain ⟨-, -, hlast, hcurrent⟩ := rpcRequest_eq h hwf
  rw [mem_pending, mem_pending, hlast, hcurrent]
  split <;> simp_all [or_assoc]

lemma wellFormed_rpcRequest {rpc rpc' : RpcModule F} {request : Request F} {actions : List (Action F)}
    (h : rpc.rpcRequest request = some (rpc', actions)) (hwf : rpc.WellFormed) : rpc'.WellFormed := by
  obtain ⟨-, hn, hlast, hcurrent⟩ := rpcRequest_eq h hwf
  -- the new query id is above all that are pending
  have hnew : ∀ {m elem}, elem ∈ rpc.pending m → elem.1 ≠ rpc.nQueryId + 1 := by
    intro m elem helem heq
    have hle := hwf.bounded m elem helem
    omega
  constructor
  case bounded =>
    intro m elem helem
    rw [hn]
    obtain hold | ⟨-, rfl⟩ := (mem_pending_rpcRequest h hwf).mp helem
    · have hle := hwf.bounded m elem hold
      omega
    · exact Int.le_refl _
  case nodup =>
    intro m
    rw [pending, hlast, hcurrent]
    split
    · rw [← List.append_assoc, List.map_append, ← pending]
      refine List.nodup_append.mpr ⟨hwf.nodup m, by simp, ?_⟩
      intro k hk k' hk' heq
      obtain ⟨elem, helem, rfl⟩ := List.mem_map.mp hk
      exact hnew helem (heq.trans (List.mem_singleton.mp hk'))
    · exact hwf.nodup m
  case separate =>
    intro m m' elem helem elem' helem' heq
    obtain hold | ⟨rfl, rfl⟩ := (mem_pending_rpcRequest h hwf).mp helem
    · obtain hold' | ⟨rfl, rfl⟩ := (mem_pending_rpcRequest h hwf).mp helem'
      · exact hwf.separate m m' elem hold elem' hold' heq
      · exact absurd heq (hnew hold)
    · obtain hold' | ⟨rfl, rfl⟩ := (mem_pending_rpcRequest h hwf).mp helem'
      · exact absurd heq.symm (hnew hold')
      · rfl

lemma about_registered_of_ne {q k : ℤ} (hne : k ≠ q) (m : UInt32) (f : F) :
    about q [Action.registered m k f] = [] :=
  List.filter_eq_nil_iff.mpr fun a ha hq => by
    obtain rfl := List.mem_singleton.mp ha
    exact hne (of_decide_eq_true hq)

lemma grown_rpcRequest {rpc rpc' : RpcModule F} {request : Request F} {actions : List (Action F)}
    (h : rpc.rpcRequest request = some (rpc', actions)) (hwf : rpc.WellFormed) : Grown rpc rpc' actions := by
  obtain ⟨rfl, hn, hlast, hcurrent⟩ := rpcRequest_eq h hwf
  refine ⟨wellFormed_rpcRequest h hwf, hlast, ?_⟩
  intro q p hp
  cases p with
  | unborn =>
    have hlt : rpc.nQueryId < q := hp
    by_cases hq : q = rpc.nQueryId + 1
    · subst hq
      refine ⟨.current request.msgId request.funcResult, ?_, .inr ⟨_, _, rfl, rfl, ?_⟩⟩
      · rw [HasPhase, hcurrent]
        simp
      · simp [about, Action.queryId]
    · refine ⟨.unborn, ?_, .inl ⟨rfl, about_registered_of_ne (Ne.symm hq) _ _⟩⟩
      rw [HasPhase, hn]
      omega
  | current m f =>
    have hle : q ≤ rpc.nQueryId := hwf.bounded m _ hp.pending_of_current
    refine ⟨.current m f, ?_, .inl ⟨rfl, about_registered_of_ne (by omega) _ _⟩⟩
    rw [HasPhase] at hp ⊢
    rw [hcurrent]
    split
    · exact List.mem_append_left _ hp
    · exact hp
  | last m f =>
    have hle : q ≤ rpc.nQueryId := hwf.bounded m _ hp.pending_of_last
    refine ⟨.last m f, ?_, .inl ⟨rfl, about_registered_of_ne (by omega) _ _⟩⟩
    rw [HasPhase] at hp ⊢
    rw [hlast]
    exact hp
  | finished =>
    obtain ⟨hle, hnot⟩ := hp
    refine ⟨.finished, ⟨by omega, ?_⟩, .inl ⟨rfl, about_registered_of_ne (by omega) _ _⟩⟩
    intro m f hf
    obtain hold | ⟨-, heq⟩ := (mem_pending_rpcRequest h hwf).mp hf
    · exact hnot m f hold
    · cases heq
      omega

lemma Grown.refl {rpc : RpcModule F} (hwf : rpc.WellFormed) : Grown rpc rpc [] :=
  ⟨hwf, fun _ => rfl, fun _ p hp => ⟨p, hp, .inl ⟨rfl, rfl⟩⟩⟩

lemma Grown.trans {rpc rpc₁ rpc₂ : RpcModule F} {as bs : List (Action F)} (h : Grown rpc rpc₁ as)
    (h' : Grown rpc₁ rpc₂ bs) : Grown rpc rpc₂ (as ++ bs) := by
  refine ⟨h'.wellFormed, fun m => (h'.lastOf_eq m).trans (h.lastOf_eq m), ?_⟩
  intro q p hp
  obtain ⟨p₁, hp₁, hg⟩ := h.phase q p hp
  obtain ⟨p₂, hp₂, hg'⟩ := h'.phase q p₁ hp₁
  exact ⟨p₂, hp₂, hg.trans hg'⟩

lemma grown_requests {rpc rpc' : RpcModule F} {issued : List (Request F)} {actions : List (Action F)}
    (h : feed rpcRequest rpc issued = some (rpc', actions)) (hwf : rpc.WellFormed) : Grown rpc rpc' actions := by
  induction issued generalizing rpc actions with
  | nil =>
    cases h
    exact .refl hwf
  | cons request issued ih =>
    rw [feed] at h
    obtain ⟨⟨rpc₁, as⟩, hfirst, h⟩ := Option.bind_eq_some_iff.mp h
    obtain ⟨⟨rpc₂, bs⟩, hrest, h⟩ := Option.map_eq_some_iff.mp h
    cases h
    have hg := grown_rpcRequest hfirst hwf
    exact hg.trans (ih hrest hg.wellFormed)

/-! ### Answers -/

lemma about_invoked {q : ℤ} {m : UInt32} {f : F} {respond : Respond} {actions : List (Action F)}
    (h : about q actions = []) : about q (.invoked m q f respond :: actions) = [.invoked m q f respond] := by
  rw [about, List.filter_cons_of_pos (by exact decide_eq_true rfl), ← about, h]

lemma about_invoked_of_ne {q k : ℤ} (hne : k ≠ q) (m : UInt32) (f : F) (respond : Respond)
    (actions : List (Action F)) : about q (.invoked m k f respond :: actions) = about q actions :=
  List.filter_cons_of_neg fun hq => hne (of_decide_eq_true hq)

structure Erased (rpc rpc' : RpcModule F) (q : ℤ) : Prop where
  nQueryId_eq : rpc'.nQueryId = rpc.nQueryId
  currentOf_eq : ∀ m, rpc'.currentOf m = KeyedList.erase (rpc.currentOf m) q
  lastOf_eq : ∀ m, rpc'.lastOf m = KeyedList.erase (rpc.lastOf m) q

namespace Erased

variable {rpc rpc' : RpcModule F} {q : ℤ}

lemma mem_pending (h : Erased rpc rpc' q) {m : UInt32} {elem : ℤ × F} :
    elem ∈ rpc'.pending m ↔ elem ∈ rpc.pending m ∧ elem.1 ≠ q := by
  rw [RpcModule.mem_pending, RpcModule.mem_pending, h.currentOf_eq, h.lastOf_eq, KeyedList.mem_erase,
    KeyedList.mem_erase, or_and_right]

lemma wellFormed (h : Erased rpc rpc' q) (hwf : rpc.WellFormed) : rpc'.WellFormed where
  bounded m elem helem := by
    rw [h.nQueryId_eq]
    exact hwf.bounded m elem (h.mem_pending.mp helem).1
  nodup m := by
    rw [pending, h.currentOf_eq, h.lastOf_eq]
    exact (hwf.nodup m).sublist
      (((KeyedList.erase_sublist _ _).append (KeyedList.erase_sublist _ _)).map _)
  separate m m' elem helem elem' helem' :=
    hwf.separate m m' elem (h.mem_pending.mp helem).1 elem' (h.mem_pending.mp helem').1

lemma phase_finished (h : Erased rpc rpc' q) (hq : q ≤ rpc.nQueryId) : rpc'.HasPhase q .finished := by
  refine ⟨h.nQueryId_eq ▸ hq, ?_⟩
  intro m f hf
  exact (h.mem_pending.mp hf).2 rfl

lemma phase_of_ne (h : Erased rpc rpc' q) {k : ℤ} (hne : k ≠ q) {p : Phase F} (hp : rpc.HasPhase k p) :
    rpc'.HasPhase k p := by
  cases p with
  | unborn =>
    rw [HasPhase, h.nQueryId_eq]
    exact hp
  | current m f =>
    rw [HasPhase, h.currentOf_eq]
    exact KeyedList.mem_erase.mpr ⟨hp, hne⟩
  | last m f =>
    rw [HasPhase, h.lastOf_eq]
    exact KeyedList.mem_erase.mpr ⟨hp, hne⟩
  | finished =>
    refine ⟨h.nQueryId_eq ▸ hp.1, ?_⟩
    intro m f hf
    exact hp.2 m f (h.mem_pending.mp hf).1

end Erased

lemma erased_of_phase {rpc : RpcModule F} (hwf : rpc.WellFormed) {m : UInt32} {q : ℤ} {f : F} {p : Phase F}
    (hp : p = .current m f ∨ p = .last m f) (hq : rpc.HasPhase q p) {context : RpcContext F}
    (hcurrent : context.mapCurrentCallback = KeyedList.erase (rpc.currentOf m) q)
    (hlast : context.mapLastCallback = KeyedList.erase (rpc.lastOf m) q) :
    Erased rpc (rpc.setRpcContext m context) q := by
  have other : ∀ m', m' ≠ m → ∀ g, (q, g) ∉ rpc.pending m' := by
    intro m' hne g hg
    obtain hg | hg := RpcModule.mem_pending.mp hg
    · have heq := hwf.phase_unique hp hq (show rpc.HasPhase _ (.last m' g) from hg)
      obtain rfl | rfl := hp <;> cases heq
      exact hne rfl
    · have heq := hwf.phase_unique hp hq (show rpc.HasPhase _ (.current m' g) from hg)
      obtain rfl | rfl := hp <;> cases heq
      exact hne rfl
  refine ⟨rfl, ?_, ?_⟩
  · intro m'
    rw [currentOf_setRpcContext]
    split
    case isTrue h => rw [h, hcurrent]
    case isFalse h =>
      exact (KeyedList.erase_eq_self fun g hg => other m' h g (RpcModule.mem_pending.mpr (.inr hg))).symm
  · intro m'
    rw [lastOf_setRpcContext]
    split
    case isTrue h => rw [h, hlast]
    case isFalse h =>
      exact (KeyedList.erase_eq_self fun g hg => other m' h g (RpcModule.mem_pending.mpr (.inl hg))).symm

def Simulated (rpc : RpcModule F) (event : Event F) (rpc' : RpcModule F) (actions : List (Action F)) : Prop :=
  rpc'.WellFormed ∧ ∀ q p, rpc.HasPhase q p → ∃ p', rpc'.HasPhase q p' ∧ PhaseStep q p ⟨event, actions⟩ p'

lemma phaseStep_of_grow {q : ℤ} {p p' : Phase F} {entry : Entry F} (h : Grow q p p' entry.actions)
    (hevent : ∀ m, ¬ entry.IsTimeout m) : PhaseStep q p entry p' := by
  obtain ⟨rfl, hsilent⟩ | ⟨m, f, rfl, rfl, hreg⟩ := h
  · exact .silent hsilent fun m f _ => hevent m
  · exact .register hreg (hevent m)

lemma simulated_request {rpc rpc' : RpcModule F} {request : Request F} {actions : List (Action F)}
    (h : rpc.rpcRequest request = some (rpc', actions)) (hwf : rpc.WellFormed) :
    Simulated rpc (.request request) rpc' actions := by
  have hg := grown_rpcRequest h hwf
  refine ⟨hg.wellFormed, ?_⟩
  intro q p hp
  obtain ⟨p', hp', hgrow⟩ := hg.phase q p hp
  exact ⟨p', hp', phaseStep_of_grow hgrow nofun⟩

lemma simulated_answer {rpc rpc₁ rpc' : RpcModule F} {m : UInt32} {q : ℤ} {f : F} {respond : Respond}
    {issued : List (Request F)} {actions : List (Action F)} (hwf : rpc.WellFormed) {p : Phase F}
    (hp : p = .current m f ∨ p = .last m f) (hq : rpc.HasPhase q p) (hown : respond.packetHead.queryId = q)
    (he : Erased rpc rpc₁ q) (h : rpc₁.invoke m q f respond issued = some (rpc', actions)) :
    Simulated rpc (.respond m respond issued) rpc' actions := by
  obtain ⟨⟨rpc₂, grown⟩, hfeed, h⟩ := Option.map_eq_some_iff.mp h
  cases h
  have hg := grown_requests hfeed (he.wellFormed hwf)
  refine ⟨hg.wellFormed, ?_⟩
  intro k p' hk
  by_cases hkq : k = q
  · subst hkq
    obtain rfl := hwf.phase_unique hp hq hk
    have hle : k ≤ rpc.nQueryId := by
      obtain rfl | rfl := hp
      · exact hwf.bounded m _ hq.pending_of_current
      · exact hwf.bounded m _ hq.pending_of_last
    obtain ⟨p₂, hp₂, hgrow⟩ := hg.phase k _ (he.phase_finished hle)
    obtain ⟨rfl, hsilent⟩ := hgrow.settled nofun
    exact ⟨_, hp₂, .answer hp rfl hown (about_invoked hsilent)⟩
  · obtain ⟨p₂, hp₂, hgrow⟩ := hg.phase k p' (he.phase_of_ne hkq hk)
    refine ⟨p₂, hp₂, phaseStep_of_grow ?_ nofun⟩
    rw [Grow, about_invoked_of_ne (Ne.symm hkq)]
    exact hgrow

lemma simulated_unknown {rpc : RpcModule F} (hwf : rpc.WellFormed) (m : UInt32) (respond : Respond)
    (issued : List (Request F)) : Simulated rpc (.respond m respond issued) rpc [] :=
  ⟨hwf, fun _ p hp => ⟨p, hp, .silent rfl fun _ _ _ => nofun⟩⟩

lemma simulated_respond {rpc rpc' : RpcModule F} {m : UInt32} {respond : Respond} {issued : List (Request F)}
    {actions : List (Action F)} (h : rpc.onRespond m respond issued = some (rpc', actions)) (hwf : rpc.WellFormed) :
    Simulated rpc (.respond m respond issued) rpc' actions := by
  rw [onRespond] at h
  split at h
  case h_1 =>
    cases h
    exact simulated_unknown hwf m respond issued
  case h_2 pRpcContext hcontext =>
    have hcurrentOf : rpc.currentOf m = pRpcContext.mapCurrentCallback := by rw [currentOf, hcontext, Option.getD_some]
    have hlastOf : rpc.lastOf m = pRpcContext.mapLastCallback := by rw [lastOf, hcontext, Option.getD_some]
    simp only at h
    split at h
    case h_1 func hfound =>
      have hq : rpc.HasPhase respond.packetHead.queryId (.current m func) := by
        rw [HasPhase, hcurrentOf]
        exact KeyedList.mem_of_lookup hfound
      refine simulated_answer hwf (.inl rfl) hq rfl (erased_of_phase hwf (.inl rfl) hq ?_ ?_) h
      · rw [hcurrentOf]
      · rw [hlastOf]
        refine (KeyedList.erase_eq_self fun g hg => ?_).symm
        have hg' : rpc.HasPhase respond.packetHead.queryId (.last m g) := by
          rw [HasPhase, hlastOf]
          exact hg
        cases hwf.phase_unique (.inl rfl) hq hg'
    case h_2 hnone =>
      split at h
      case h_1 func hfound =>
        have hq : rpc.HasPhase respond.packetHead.queryId (.last m func) := by
          rw [HasPhase, hlastOf]
          exact KeyedList.mem_of_lookup hfound
        refine simulated_answer hwf (.inr rfl) hq rfl (erased_of_phase hwf (.inr rfl) hq ?_ ?_) h
        · rw [hcurrentOf]
          exact (KeyedList.erase_eq_self (KeyedList.notMem_of_lookup hnone)).symm
        · rw [hlastOf]
      case h_2 =>
        cases h
        exact simulated_unknown hwf m respond issued

/-! ### Timeouts -/

def expireStep (m : UInt32) (issued : ℤ → List (Request F)) (rpc : RpcModule F) (elem : ℤ × F) :
    Option (RpcModule F × List (Action F)) :=
  rpc.invoke m elem.1 elem.2 timeoutRespond (issued elem.1)

lemma expireStep_eq {rpc rpc' : RpcModule F} {m : UInt32} {issued : ℤ → List (Request F)} {elem : ℤ × F}
    {actions : List (Action F)} (h : expireStep m issued rpc elem = some (rpc', actions)) (hwf : rpc.WellFormed) :
    ∃ grown, Grown rpc rpc' grown ∧ actions = .invoked m elem.1 elem.2 timeoutRespond :: grown := by
  obtain ⟨⟨rpc₁, grown⟩, hfeed, h⟩ := Option.map_eq_some_iff.mp h
  cases h
  exact ⟨grown, grown_requests hfeed hwf, rfl⟩

lemma expire_walk {rpc rpc' : RpcModule F} {m : UInt32} {issued : ℤ → List (Request F)} {elems : List (ℤ × F)}
    {actions : List (Action F)} (h : feed (expireStep m issued) rpc elems = some (rpc', actions))
    (hwf : rpc.WellFormed) (hnodup : (elems.map Prod.fst).Nodup) :
    rpc'.WellFormed ∧ (∀ m', rpc'.lastOf m' = rpc.lastOf m') ∧ ∀ q p, rpc.HasPhase q p → ∃ p', rpc'.HasPhase q p' ∧
      ((∀ f, (q, f) ∉ elems) → Grow q p p' actions) ∧
      (∀ f, (q, f) ∈ elems → p ≠ .unborn → p' = p ∧ about q actions = [.invoked m q f timeoutRespond]) := by
  induction elems generalizing rpc actions with
  | nil =>
    cases h
    refine ⟨hwf, fun _ => rfl, ?_⟩
    intro q p hp
    exact ⟨p, hp, fun _ => .inl ⟨rfl, rfl⟩, fun f hf => absurd hf (List.not_mem_nil)⟩
  | cons elem elems ih =>
    rw [feed] at h
    obtain ⟨⟨rpc₁, as⟩, hfirst, h⟩ := Option.bind_eq_some_iff.mp h
    obtain ⟨⟨rpc₂, bs⟩, hrest, h⟩ := Option.map_eq_some_iff.mp h
    cases h
    obtain ⟨grown, hg, rfl⟩ := expireStep_eq hfirst hwf
    obtain ⟨hnot, hnodup⟩ := List.nodup_cons.mp hnodup
    obtain ⟨hwf₂, hlast, hphase⟩ := ih hrest hg.wellFormed hnodup
    refine ⟨hwf₂, fun m' => (hlast m').trans (hg.lastOf_eq m'), ?_⟩
    intro q p hp
    obtain ⟨p₁, hp₁, hgrow⟩ := hg.phase q p hp
    obtain ⟨p₂, hp₂, hout, hin⟩ := hphase q p₁ hp₁
    refine ⟨p₂, hp₂, ?_, ?_⟩
    · intro hq
      have hne : elem.1 ≠ q := fun heq => hq elem.2 (by rw [← heq]; exact List.mem_cons_self)
      have htrans := hgrow.trans (hout fun f hf => hq f (List.mem_cons_of_mem _ hf))
      rw [Grow, List.cons_append, about_invoked_of_ne hne]
      exact htrans
    · intro f hf hborn
      obtain ⟨rfl, hsilent⟩ := hgrow.settled hborn
      cases hf with
      | head =>
        have hq : ∀ g, (q, g) ∉ elems := fun g hg => hnot (List.mem_map.mpr ⟨_, hg, rfl⟩)
        obtain ⟨rfl, hsilent'⟩ := (hout hq).settled hborn
        refine ⟨rfl, ?_⟩
        rw [List.cons_append]
        apply about_invoked
        rw [about_append, hsilent, hsilent']
        rfl
      | tail _ hf =>
        have hne : elem.1 ≠ q := by
          rintro rfl
          exact hnot (List.mem_map.mpr ⟨_, hf, rfl⟩)
        obtain ⟨rfl, hinv⟩ := hin f hf hborn
        refine ⟨rfl, ?_⟩
        rw [List.cons_append, about_invoked_of_ne hne, about_append, hsilent, hinv]
        rfl

section ClearAndSwap

variable (rpc : RpcModule F) (m : UInt32)

lemma currentOf_clearAndSwap (m' : UInt32) :
    (rpc.clearAndSwap m).currentOf m' = if m' = m then [] else rpc.currentOf m' := by
  rw [clearAndSwap]
  split
  case h_1 hnone =>
    split
    case isTrue h =>
      subst h
      rw [currentOf, hnone]
      rfl
    case isFalse => rfl
  case h_2 => rw [currentOf_setRpcContext]

lemma lastOf_clearAndSwap (m' : UInt32) :
    (rpc.clearAndSwap m).lastOf m' = if m' = m then rpc.currentOf m else rpc.lastOf m' := by
  rw [clearAndSwap]
  split
  case h_1 hnone =>
    split
    case isTrue h =>
      subst h
      rw [lastOf, currentOf, hnone]
      rfl
    case isFalse => rfl
  case h_2 pRpcContext hsome =>
    rw [lastOf_setRpcContext, currentOf, hsome]
    rfl

lemma nQueryId_clearAndSwap : (rpc.clearAndSwap m).nQueryId = rpc.nQueryId := by
  rw [clearAndSwap]
  split <;> rfl

lemma mem_pending_clearAndSwap {m' : UInt32} {elem : ℤ × F} : elem ∈ (rpc.clearAndSwap m).pending m' ↔
    elem ∈ rpc.pending m' ∧ (m' = m → elem ∈ rpc.currentOf m) := by
  rw [mem_pending, mem_pending, currentOf_clearAndSwap, lastOf_clearAndSwap]
  by_cases h : m' = m
  · subst h
    simp
    exact fun h => .inr h
  · simp [h]

variable {rpc}

lemma wellFormed_clearAndSwap (hwf : rpc.WellFormed) : (rpc.clearAndSwap m).WellFormed where
  bounded m' elem helem := by
    rw [nQueryId_clearAndSwap]
    exact hwf.bounded m' elem ((mem_pending_clearAndSwap rpc m).mp helem).1
  nodup m' := by
    rw [pending, currentOf_clearAndSwap, lastOf_clearAndSwap]
    split
    case isTrue h =>
      subst h
      rw [List.append_nil]
      exact (hwf.nodup m').sublist ((List.sublist_append_right _ _).map _)
    case isFalse => exact hwf.nodup m'
  separate m₁ m₂ elem helem elem' helem' :=
    hwf.separate m₁ m₂ elem ((mem_pending_clearAndSwap rpc m).mp helem).1 elem'
      ((mem_pending_clearAndSwap rpc m).mp helem').1

def aged : Phase F → Phase F
  | .current m' f => if m' = m then .last m' f else .current m' f
  | p => p

lemma HasPhase.clearAndSwap {q : ℤ} {p : Phase F} (h : rpc.HasPhase q p) (hp : ∀ f, p ≠ .last m f) :
    (rpc.clearAndSwap m).HasPhase q (aged m p) := by
  cases p with
  | unborn =>
    change (rpc.clearAndSwap m).nQueryId < q
    rw [nQueryId_clearAndSwap]
    exact h
  | current m' f =>
    rw [aged]
    split
    case isTrue hm =>
      subst hm
      rw [HasPhase, lastOf_clearAndSwap, if_pos rfl]
      exact h
    case isFalse hm =>
      rw [HasPhase, currentOf_clearAndSwap, if_neg hm]
      exact h
  | last m' f =>
    have hm : m' ≠ m := fun hm => hp f (by rw [hm])
    change (q, f) ∈ (rpc.clearAndSwap m).lastOf m'
    rw [lastOf_clearAndSwap, if_neg hm]
    exact h
  | finished =>
    refine ⟨by rw [nQueryId_clearAndSwap]; exact h.1, fun m' f hf => ?_⟩
    exact h.2 m' f ((mem_pending_clearAndSwap rpc m).mp hf).1

lemma HasPhase.cleared {q : ℤ} {f : F} (hwf : rpc.WellFormed) (h : rpc.HasPhase q (.last m f)) :
    (rpc.clearAndSwap m).HasPhase q .finished := by
  constructor
  · rw [nQueryId_clearAndSwap]
    exact hwf.bounded m _ h.pending_of_last
  · intro m' g hg
    obtain ⟨hpending, hcurrent⟩ := (mem_pending_clearAndSwap rpc m).mp hg
    obtain rfl := hwf.separate m' m _ hpending _ h.pending_of_last rfl
    cases hwf.phase_unique (.inr rfl) h (show rpc.HasPhase q (.current m' g) from hcurrent rfl)

end ClearAndSwap

lemma Grow.phaseStep {q : ℤ} {p p' : Phase F} {m : UInt32} {order : List ℤ} {issued : ℤ → List (Request F)}
    {actions : List (Action F)} (h : Grow q p p' actions) (hp : ∀ f, p ≠ .last m f) :
    PhaseStep q p ⟨.timeout m order issued, actions⟩ (aged m p') := by
  have htime : Entry.IsTimeout m ⟨.timeout m order issued, actions⟩ := ⟨order, issued, rfl⟩
  have hother : ∀ {m'}, m' ≠ m → ¬ Entry.IsTimeout m' ⟨.timeout m order issued, actions⟩ := by
    rintro m' hne ⟨_, _, heq⟩
    cases heq
    exact hne rfl
  obtain ⟨rfl, hsilent⟩ | ⟨m', f, rfl, rfl, hreg⟩ := h
  · cases p' with
    | unborn => exact .silent hsilent nofun
    | current m' f =>
      rw [aged]
      split
      case isTrue hm =>
        subst hm
        exact .age hsilent htime
      case isFalse hm =>
        apply PhaseStep.silent hsilent
        rintro m₂ f₂ (heq | heq) <;> cases heq
        exact hother hm
    | last m' f =>
      have hm : m' ≠ m := fun hm => hp f (by rw [hm])
      apply PhaseStep.silent hsilent
      rintro m₂ f₂ (heq | heq) <;> cases heq
      exact hother hm
    | finished => exact .silent hsilent nofun
  · rw [aged]
    split
    case isTrue hm =>
      subst hm
      exact .registerInTimeout hreg htime
    case isFalse hm => exact .register hreg (hother hm)

lemma simulated_timeout {rpc rpc' : RpcModule F} {m : UInt32} {order : List ℤ} {issued : ℤ → List (Request F)}
    {actions : List (Action F)} (h : rpc.onTimeout m order issued = some (rpc', actions)) (hwf : rpc.WellFormed) :
    Simulated rpc (.timeout m order issued) rpc' actions := by
  rw [onTimeout] at h
  split at h
  · cases h
  case h_2 pRpcContext hcontext =>
  split at h
  case isFalse => cases h
  case isTrue hperm =>
  obtain ⟨⟨rpc₁, as⟩, hfeed, h⟩ := Option.map_eq_some_iff.mp h
  cases h
  have hlastOf : rpc.lastOf m = pRpcContext.mapLastCallback := by rw [lastOf, hcontext, Option.getD_some]
  rw [← hlastOf] at hfeed hperm
  rw [List.isPerm_iff] at hperm
  have hkeys := hwf.lastOf_nodup m
  obtain ⟨hwf₁, hlast₁, hphase⟩ := expire_walk hfeed hwf
    (KeyedList.walk_keys_nodup (hperm.nodup_iff.mpr hkeys))
  have hwalk : ∀ {elem}, elem ∈ order.filterMap (fun k => ((rpc.lastOf m).lookup k).map (Prod.mk k)) ↔
      elem ∈ rpc.lastOf m := KeyedList.mem_walk hkeys hperm
  refine ⟨wellFormed_clearAndSwap m hwf₁, ?_⟩
  intro q p hp
  obtain ⟨p₁, hp₁, hout, hin⟩ := hphase q p hp
  by_cases hcalled : ∃ f, p = .last m f
  · obtain ⟨f, rfl⟩ := hcalled
    obtain ⟨rfl, hinv⟩ := hin f (hwalk.mpr hp) nofun
    exact ⟨.finished, hp₁.cleared m hwf₁, .expire ⟨order, issued, rfl⟩ hinv⟩
  · have hgrow : Grow q p p₁ as := hout fun f hf =>
      hcalled ⟨f, hwf.phase_unique (.inr rfl) (show rpc.HasPhase q (.last m f) from hwalk.mp hf) hp⟩
    have hwaits : ∀ f, p₁ ≠ .last m f := by
      obtain ⟨rfl, -⟩ | ⟨m', f', -, rfl, -⟩ := hgrow
      · exact fun f heq => hcalled ⟨f, heq⟩
      · nofun
    exact ⟨aged m p₁, hp₁.clearAndSwap m hwaits, hgrow.phaseStep fun f heq => hcalled ⟨f, heq⟩⟩

lemma simulated_step {rpc rpc' : RpcModule F} {event : Event F} {entries : List (Entry F)}
    (h : rpc.step event = some (rpc', entries)) (hwf : rpc.WellFormed) :
    ∃ actions, entries = [⟨event, actions⟩] ∧ Simulated rpc event rpc' actions := by
  obtain ⟨⟨rpc₁, actions⟩, hhandle, h⟩ := Option.map_eq_some_iff.mp h
  cases h
  refine ⟨actions, rfl, ?_⟩
  cases event with
  | request request => exact simulated_request hhandle hwf
  | respond msgId respond issued => exact simulated_respond hhandle hwf
  | timeout msgId order issued => exact simulated_timeout hhandle hwf

theorem lifecycle {events : List (Event F)} {rpc : RpcModule F} {entries : List (Entry F)}
    (h : Turns step init events rpc entries) {q : ℤ} {p₀ : Phase F} (hp₀ : init.HasPhase q p₀) :
    ∃ p, Path (PhaseStep q) p₀ entries p ∧ rpc.HasPhase q p := by
  have hstep : ∀ {rpc : RpcModule F} {event rpc' os p}, step rpc event = some (rpc', os) →
      (rpc.WellFormed ∧ rpc.HasPhase q p) →
        ∃ o p', os = [o] ∧ PhaseStep q p o p' ∧ rpc'.WellFormed ∧ rpc'.HasPhase q p' := by
    rintro rpc event rpc' os p hstep ⟨hwf, hp⟩
    obtain ⟨actions, rfl, hwf', hsim⟩ := simulated_step hstep hwf
    obtain ⟨p', hp', hT⟩ := hsim q p hp
    exact ⟨_, p', rfl, hT, hwf', hp'⟩
  obtain ⟨p, hpath, -, hp⟩ := h.path (R := fun (rpc : RpcModule F) p => rpc.WellFormed ∧ rpc.HasPhase q p) hstep
    ⟨wellFormed_init, hp₀⟩
  exact ⟨p, hpath, hp⟩

end RpcModule

/-! ### Along a life -/

def Silent (q : ℤ) (entries : List (Entry F)) : Prop := ∀ entry ∈ entries, about q entry.actions = []

lemma silent_cons {q : ℤ} {entry : Entry F} {entries : List (Entry F)} :
    Silent q (entry :: entries) ↔ about q entry.actions = [] ∧ Silent q entries := List.forall_mem_cons

def Answers (q : ℤ) (m : UInt32) (f : F) (entry : Entry F) : Prop :=
  ∃ respond issued, entry.event = .respond m respond issued ∧ respond.packetHead.queryId = q ∧
    about q entry.actions = [.invoked m q f respond]

def Expires (q : ℤ) (m : UInt32) (f : F) (entry : Entry F) : Prop :=
  entry.IsTimeout m ∧ about q entry.actions = [.invoked m q f timeoutRespond]

variable {q : ℤ} {m : UInt32} {f : F} {p : Phase F} {entries : List (Entry F)}

lemma silent_of_finished (h : Path (PhaseStep q) .finished entries p) : p = .finished ∧ Silent q entries := by
  induction entries with
  | nil =>
    cases h
    exact ⟨rfl, nofun⟩
  | cons entry entries ih =>
    cases h with
    | cons hstep hpath =>
      cases hstep with
      | silent hsilent _ =>
        obtain ⟨hp, hrest⟩ := ih hpath
        exact ⟨hp, silent_cons.mpr ⟨hsilent, hrest⟩⟩
      | answer hp => obtain hp | hp := hp <;> cases hp

lemma silent_of_unborn (h : Path (PhaseStep q) p entries .unborn) : p = .unborn ∧ Silent q entries := by
  induction entries generalizing p with
  | nil =>
    cases h
    exact ⟨rfl, nofun⟩
  | cons entry entries ih =>
    cases h with
    | cons hstep hpath =>
      obtain ⟨rfl, hrest⟩ := ih hpath
      cases hstep with
      | silent hsilent _ => exact ⟨rfl, silent_cons.mpr ⟨hsilent, hrest⟩⟩

lemma cases_of_last (h : Path (PhaseStep q) (.last m f) entries p) :
    (p = .last m f ∧ Silent q entries ∧ ∀ entry ∈ entries, ¬ entry.IsTimeout m) ∨
      ∃ mid entry rest, entries = mid ++ entry :: rest ∧ p = .finished ∧ Silent q mid ∧ Silent q rest ∧
        (Answers q m f entry ∨ Expires q m f entry) := by
  induction entries with
  | nil =>
    cases h
    exact .inl ⟨rfl, nofun, nofun⟩
  | cons entry entries ih =>
    cases h with
    | cons hstep hpath =>
      cases hstep with
      | silent hsilent hwait =>
        obtain ⟨hp, hrest, htime⟩ | ⟨mid, e, rest, rfl, hp, hmid, hrest, he⟩ := ih hpath
        · exact .inl ⟨hp, silent_cons.mpr ⟨hsilent, hrest⟩,
            List.forall_mem_cons.mpr ⟨hwait m f (.inr rfl), htime⟩⟩
        · exact .inr ⟨entry :: mid, e, rest, rfl, hp, silent_cons.mpr ⟨hsilent, hmid⟩, hrest, he⟩
      | answer hp hevent hown hinv =>
        obtain hp | hp := hp <;> cases hp
        obtain ⟨rfl, hrest⟩ := silent_of_finished hpath
        exact .inr ⟨[], entry, entries, rfl, rfl, nofun, hrest, .inl ⟨_, _, hevent, hown, hinv⟩⟩
      | expire htime hinv =>
        obtain ⟨rfl, hrest⟩ := silent_of_finished hpath
        exact .inr ⟨[], entry, entries, rfl, rfl, nofun, hrest, .inr ⟨htime, hinv⟩⟩

lemma cases_of_current (h : Path (PhaseStep q) (.current m f) entries p) :
    (p = .current m f ∧ Silent q entries ∧ ∀ entry ∈ entries, ¬ entry.IsTimeout m) ∨
      (∃ mid entry rest, entries = mid ++ entry :: rest ∧ p = .finished ∧ Silent q mid ∧ Silent q rest ∧
        Answers q m f entry) ∨
      ∃ mid entry rest, entries = mid ++ entry :: rest ∧ Silent q mid ∧ about q entry.actions = [] ∧
        entry.IsTimeout m ∧ (∀ e ∈ mid, ¬ e.IsTimeout m) ∧ Path (PhaseStep q) (.last m f) rest p := by
  induction entries with
  | nil =>
    cases h
    exact .inl ⟨rfl, nofun, nofun⟩
  | cons entry entries ih =>
    cases h with
    | cons hstep hpath =>
      cases hstep with
      | silent hsilent hwait =>
        obtain ⟨hp, hrest, htime⟩ | ⟨mid, e, rest, rfl, hp, hmid, hrest, he⟩ |
          ⟨mid, e, rest, rfl, hmid, he, htime, hbefore, hlast⟩ := ih hpath
        · exact .inl ⟨hp, silent_cons.mpr ⟨hsilent, hrest⟩,
            List.forall_mem_cons.mpr ⟨hwait m f (.inl rfl), htime⟩⟩
        · exact .inr (.inl ⟨entry :: mid, e, rest, rfl, hp, silent_cons.mpr ⟨hsilent, hmid⟩, hrest, he⟩)
        · exact .inr (.inr ⟨entry :: mid, e, rest, rfl, silent_cons.mpr ⟨hsilent, hmid⟩, he, htime,
            List.forall_mem_cons.mpr ⟨hwait m f (.inl rfl), hbefore⟩, hlast⟩)
      | age hsilent htime => exact .inr (.inr ⟨[], entry, entries, rfl, nofun, hsilent, htime, nofun, hpath⟩)
      | answer hp hevent hown hinv =>
        obtain hp | hp := hp <;> cases hp
        obtain ⟨rfl, hrest⟩ := silent_of_finished hpath
        exact .inr (.inl ⟨[], entry, entries, rfl, rfl, nofun, hrest, ⟨_, _, hevent, hown, hinv⟩⟩)

/-! ### Completion -/

instance (m : UInt32) (entry : Entry F) : Decidable (entry.IsTimeout m) :=
  match h : entry.event with
  | .request _ => isFalse (by rintro ⟨_, _, he⟩; rw [h] at he; cases he)
  | .respond _ _ _ => isFalse (by rintro ⟨_, _, he⟩; rw [h] at he; cases he)
  | .timeout m' order issued =>
    if hm : m' = m then isTrue ⟨order, issued, by rw [h, hm]⟩
    else isFalse (by rintro ⟨_, _, he⟩; rw [h] at he; cases he; exact hm rfl)

def Action.isInvoked : Action F → Bool
  | registered _ _ _ => false
  | invoked _ _ _ _ => true

def invocations (q : ℤ) (entries : List (Entry F)) : List (Action F) :=
  (entries.flatMap fun entry => about q entry.actions).filter Action.isInvoked

lemma invocations_append (q : ℤ) (as bs : List (Entry F)) :
    invocations q (as ++ bs) = invocations q as ++ invocations q bs := by
  rw [invocations, List.flatMap_append, List.filter_append]
  rfl

lemma invocations_cons (q : ℤ) (entry : Entry F) (entries : List (Entry F)) :
    invocations q (entry :: entries) = invocations q [entry] ++ invocations q entries :=
  invocations_append q [entry] entries

lemma Silent.invocations (h : Silent q entries) : invocations q entries = [] := by
  rw [TonyCat.Service.invocations, List.flatMap_eq_nil_iff.mpr h]
  rfl

lemma invocations_singleton {entry : Entry F} : invocations q [entry] = (about q entry.actions).filter Action.isInvoked := by
  rw [invocations, List.flatMap_singleton]

lemma about_of_called {entry : Entry F} (h : Answers q m f entry ∨ Expires q m f entry) :
    ∃ respond, about q entry.actions = [.invoked m q f respond] ∧
      ((∃ issued, entry.event = .respond m respond issued ∧ respond.packetHead.queryId = q) ∨
        entry.IsTimeout m ∧ respond = timeoutRespond) := by
  obtain ⟨respond, issued, hevent, hown, hinv⟩ | ⟨htime, hinv⟩ := h
  · exact ⟨respond, hinv, .inl ⟨issued, hevent, hown⟩⟩
  · exact ⟨_, hinv, .inr ⟨htime, rfl⟩⟩

lemma silent_or_called {entry : Entry F} {after : List (Entry F)} (hreg : .registered m q f ∈ entry.actions)
    (h : Path (PhaseStep q) .unborn (entry :: after) p) : about q entry.actions = [.registered m q f] ∧
      ((p ≠ .finished ∧ Silent q after ∧ (after.countP fun e => e.IsTimeout m) < 2) ∨
        ∃ mid e rest, after = mid ++ e :: rest ∧ p = .finished ∧ Silent q mid ∧ Silent q rest ∧
          (Answers q m f e ∨ Expires q m f e ∧ (entry.IsTimeout m ∨ ∃ e' ∈ mid, e'.IsTimeout m))) := by
  have hmem : Action.registered m q f ∈ about q entry.actions := List.mem_filter.mpr ⟨hreg, decide_eq_true rfl⟩
  cases h with
  | cons hstep hpath =>
    cases hstep with
    | silent hsilent _ =>
      rw [hsilent] at hmem
      cases hmem
    | register hreg' htime =>
      rw [hreg', List.mem_singleton] at hmem
      cases hmem
      refine ⟨hreg', ?_⟩
      obtain ⟨rfl, hsilent, hnone⟩ | ⟨mid, e, rest, rfl, hp, hmid, hrest, he⟩ |
        ⟨mid, e, rest, rfl, hmid, he, htime', hbefore, hlast⟩ := cases_of_current hpath
      · refine .inl ⟨nofun, hsilent, ?_⟩
        rw [List.countP_eq_zero.mpr (by simpa using hnone)]
        decide
      · exact .inr ⟨mid, e, rest, rfl, hp, hmid, hrest, .inl he⟩
      · have hzero : mid.countP (fun e => e.IsTimeout m) = 0 := List.countP_eq_zero.mpr (by simpa using hbefore)
        obtain ⟨rfl, hsilent, hnone⟩ | ⟨mid', e', rest', rfl, hp, hmid', hrest', he'⟩ := cases_of_last hlast
        · refine .inl ⟨nofun, ?_, ?_⟩
          · intro a ha
            obtain ha | ha := List.mem_append.mp ha
            · exact hmid a ha
            · exact silent_cons.mpr ⟨he, hsilent⟩ a ha
          · rw [List.countP_append, List.countP_cons, hzero, List.countP_eq_zero.mpr (by simpa using hnone)]
            split <;> decide
        · refine .inr ⟨mid ++ e :: mid', e', rest', by simp, hp, ?_, hrest', ?_⟩
          · intro a ha
            obtain ha | ha := List.mem_append.mp ha
            · exact hmid a ha
            · exact silent_cons.mpr ⟨he, hmid'⟩ a ha
          · obtain he' | he' := he'
            · exact .inl he'
            · exact .inr ⟨he', .inr ⟨e, by simp, htime'⟩⟩
    | answer hp => obtain hp | hp := hp <;> cases hp
    | registerInTimeout hreg' htime =>
      rw [hreg', List.mem_singleton] at hmem
      cases hmem
      refine ⟨hreg', ?_⟩
      obtain ⟨rfl, hsilent, hnone⟩ | ⟨mid, e, rest, rfl, hp, hmid, hrest, he⟩ := cases_of_last hpath
      · refine .inl ⟨nofun, hsilent, ?_⟩
        rw [List.countP_eq_zero.mpr (by simpa using hnone)]
        decide
      · refine .inr ⟨mid, e, rest, rfl, hp, hmid, hrest, ?_⟩
        obtain he | he := he
        · exact .inl he
        · exact .inr ⟨he, .inl htime⟩

lemma eq_of_split {mid mid' rest rest' : List (Entry F)} {e e' : Entry F} (hmid : Silent q mid)
    (hrest : Silent q rest) (h : mid ++ e :: rest = mid' ++ e' :: rest') (he' : invocations q [e'] ≠ []) :
    mid' = mid ∧ e' = e := by
  have hloud : ∀ {es : List (Entry F)}, Silent q es → e' ∉ es := by
    intro es hs hmem
    exact he' (by rw [invocations_singleton, hs e' hmem]; rfl)
  obtain ⟨as, rfl, h'⟩ | ⟨as, rfl, h'⟩ := List.append_eq_append_iff.mp h
  · cases as with
    | nil =>
      cases h'
      exact ⟨List.append_nil _, rfl⟩
    | cons a as =>
      cases h'
      exact (hloud hrest (by simp)).elim
  · cases as with
    | nil =>
      cases h'
      exact ⟨(List.append_nil _).symm, rfl⟩
    | cons a as =>
      cases h'
      exact (hloud hmid (by simp)).elim

lemma lifecycle_of_registered {events : List (Event F)} {rpc : RpcModule F} {before after : List (Entry F)}
    {entry : Entry F} (h : Turns step init events rpc (before ++ entry :: after))
    (hreg : .registered m q f ∈ entry.actions) :
    ∃ p, Silent q before ∧ Path (PhaseStep q) .unborn (entry :: after) p ∧ rpc.HasPhase q p := by
  have hmem : Action.registered m q f ∈ about q entry.actions := List.mem_filter.mpr ⟨hreg, decide_eq_true rfl⟩
  by_cases hq : 0 < q
  · obtain ⟨p, hpath, hp⟩ := RpcModule.lifecycle h (show init.HasPhase q .unborn from hq)
    obtain ⟨p₁, hbefore, hrest⟩ := hpath.split
    cases hrest with
    | cons hstep hafter =>
      cases hstep with
      | silent hsilent => rw [hsilent] at hmem; cases hmem
      | age hsilent => rw [hsilent] at hmem; cases hmem
      | answer _ _ _ hinv => rw [hinv] at hmem; cases hmem; contradiction
      | expire _ hinv => rw [hinv] at hmem; cases hmem; contradiction
      | register hreg' htime => exact ⟨p, (silent_of_unborn hbefore).2, .cons (.register hreg' htime) hafter, hp⟩
      | registerInTimeout hreg' htime =>
        exact ⟨p, (silent_of_unborn hbefore).2, .cons (.registerInTimeout hreg' htime) hafter, hp⟩
  · have hfinished : (init : RpcModule F).HasPhase q .finished :=
      ⟨Int.not_lt.mp hq, fun m f => by simp [init, pending, lastOf, currentOf]⟩
    obtain ⟨p, hpath, -⟩ := RpcModule.lifecycle h hfinished
    have hsilent := (silent_of_finished hpath).2 entry (by simp)
    rw [hsilent] at hmem
    cases hmem

/-- In every run, a callback that is registered is called at most once, and only after its registration;
only with a response that bears its query id and type, or with the timeout head in a timeout; not in the
first timeout after its registration, unless it was registered in a timeout; and after two timeouts it has
been called and is in neither map. -/
theorem rpc_completion {events : List (Event F)} {rpc : RpcModule F} {before after : List (Entry F)}
    {entry : Entry F} (h : Turns step init events rpc (before ++ entry :: after))
    (hreg : .registered m q f ∈ entry.actions) :
    (invocations q before = [] ∧ invocations q [entry] = [] ∧ (invocations q after).length ≤ 1) ∧
      (∀ e ∈ after, ∀ m' g respond, .invoked m' q g respond ∈ e.actions → m' = m ∧ g = f ∧
        ((∃ issued, e.event = .respond m respond issued ∧ respond.packetHead.queryId = q) ∨
          e.IsTimeout m ∧ respond = timeoutRespond)) ∧
      (∀ mid e rest, after = mid ++ e :: rest → e.IsTimeout m → invocations q [e] ≠ [] →
        entry.IsTimeout m ∨ ∃ e' ∈ mid, e'.IsTimeout m) ∧
      (2 ≤ after.countP (fun e => e.IsTimeout m) → (invocations q after).length = 1 ∧
        ∀ m' g, (q, g) ∉ rpc.lastOf m' ∧ (q, g) ∉ rpc.currentOf m') := by
  obtain ⟨p, hbefore, hpath, hp⟩ := lifecycle_of_registered h hreg
  obtain ⟨habout, hafter⟩ := silent_or_called hreg hpath
  have hentry : invocations q [entry] = [] := by
    rw [invocations_singleton, habout]
    rfl
  have mem_about : ∀ {e : Entry F} {m' g respond}, .invoked m' q g respond ∈ e.actions →
      Action.invoked m' q g respond ∈ about q e.actions :=
    fun hmem => List.mem_filter.mpr ⟨hmem, decide_eq_true rfl⟩
  obtain ⟨-, hsilent, hcount⟩ | ⟨mid, e, rest, rfl, rfl, hmid, hrest, hcalled⟩ := hafter
  · refine ⟨⟨hbefore.invocations, hentry, ?_⟩, ?_, ?_, ?_⟩
    · rw [hsilent.invocations]
      exact Nat.zero_le _
    · intro e he m' g respond hmem
      have hnil := mem_about hmem
      rw [hsilent e he] at hnil
      cases hnil
    · rintro mid e rest rfl - hinv
      exact absurd (by rw [invocations_singleton, hsilent e (by simp)]; rfl) hinv
    · intro htwo
      omega
  · have hcalled' : Answers q m f e ∨ Expires q m f e := hcalled.imp_right And.left
    obtain ⟨respond, hinv, hown⟩ := about_of_called hcalled'
    have hone : (invocations q (mid ++ e :: rest)).length = 1 := by
      rw [invocations_append, invocations_cons, hmid.invocations, hrest.invocations, invocations_singleton, hinv]
      rfl
    refine ⟨⟨hbefore.invocations, hentry, hone.le⟩, ?_, ?_, ?_⟩
    · intro e' he' m' g respond' hmem
      have hmem' := mem_about hmem
      obtain he' | he' := List.mem_append.mp he'
      · rw [hmid e' he'] at hmem'
        cases hmem'
      · cases he' with
        | head =>
          rw [hinv, List.mem_singleton] at hmem'
          cases hmem'
          exact ⟨rfl, rfl, hown⟩
        | tail _ he' =>
          rw [hrest e' he'] at hmem'
          cases hmem'
    · intro mid' e' rest' hsplit htime hcall
      obtain ⟨rfl, rfl⟩ := eq_of_split hmid hrest hsplit hcall
      obtain ⟨_, _, hevent, -⟩ | ⟨-, htwo⟩ := hcalled
      · obtain ⟨_, _, htime⟩ := htime
        rw [hevent] at htime
        cases htime
      · exact htwo
    · intro _
      refine ⟨hone, ?_⟩
      intro m' g
      have hnot := hp.2 m' g
      rw [mem_pending, not_or] at hnot
      exact hnot

theorem rpc_completion_unanswered : ∃ rpc : RpcModule ℕ, Turns step init
    [.request ⟨4, 10⟩, .timeout 4 [] fun _ => [], .respond 4 ⟨7, ⟨3, 0⟩, []⟩ [],
      .timeout 4 [1] fun _ => [⟨4, 11⟩]] rpc
    ([] ++ ⟨.request ⟨4, 10⟩, [.registered 4 1 10]⟩ ::
      [⟨.timeout 4 [] fun _ => [], []⟩, ⟨.respond 4 ⟨7, ⟨3, 0⟩, []⟩ [], []⟩,
        ⟨.timeout 4 [1] fun _ => [⟨4, 11⟩], [.invoked 4 1 10 timeoutRespond, .registered 4 2 11]⟩]) ∧
    ∀ m g, (1, g) ∉ rpc.lastOf m ∧ (1, g) ∉ rpc.currentOf m := by
  have hrun : ∃ rpc : RpcModule ℕ, Turns step init
      [.request ⟨4, 10⟩, .timeout 4 [] fun _ => [], .respond 4 ⟨7, ⟨3, 0⟩, []⟩ [],
        .timeout 4 [1] fun _ => [⟨4, 11⟩]] rpc
      ([] ++ ⟨.request ⟨4, 10⟩, [.registered 4 1 10]⟩ ::
        [⟨.timeout 4 [] fun _ => [], []⟩, ⟨.respond 4 ⟨7, ⟨3, 0⟩, []⟩ [], []⟩,
          ⟨.timeout 4 [1] fun _ => [⟨4, 11⟩], [.invoked 4 1 10 timeoutRespond, .registered 4 2 11]⟩]) := ⟨_, rfl⟩
  obtain ⟨rpc, h⟩ := hrun
  have hregistered := rpc_completion h (List.mem_singleton.mpr rfl)
  exact ⟨rpc, h, (hregistered.2.2.2 (by decide)).2⟩

end TonyCat.Service
