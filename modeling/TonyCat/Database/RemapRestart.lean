import TonyCat.Database.RemapCrash
import TonyCat.Library.Descent

set_option autoImplicit false

/-! Which starts after a crash get through. `rename` throws when a new shard behind the old ones is there already,
and then it is there for ever. -/

namespace TonyCat.Database

open TonyCat.Library

/-! ### The loops come to an end -/

namespace RemapRun

variable (config : Config)

def unread (reader : Option (List (Bytes × Bytes))) : ℕ :=
  reader.elim 0 fun pairs => 2 * pairs.length + 1

/-- A pair that is read becomes a task, and the last of the readers lets the main loop post `n` more. -/
def remaining (r : RemapRun) : ℕ :=
  ∑ j ∈ Finset.range r.disk.saved.nShardNum.toNat, unread (r.readOldloopPool j) +
    ∑ index ∈ Finset.range config.nShardNum.toNat, (r.pPutNewloopPool.pending index).length +
      if r.phase = .loading then config.nShardNum.toNat + 1 else 0

variable {config} {disk : Disk} {tmp_remap : ℕ → Store} {r r' : RemapRun} {posts : List (Bytes × Bytes)}

lemma unread_update {j : ℕ} {before : Option (List (Bytes × Bytes))} (after : Option (List (Bytes × Bytes))) {n : ℕ}
    (hj : j < n) (hbefore : r.readOldloopPool j = before) :
    ∑ i ∈ Finset.range n, unread (Function.update r.readOldloopPool j after i) + unread before =
      ∑ i ∈ Finset.range n, unread (r.readOldloopPool i) + unread after := by
  have hchange := sum_change (f := fun i => unread (r.readOldloopPool i))
    (g := fun i => unread (Function.update r.readOldloopPool j after i)) hj
    fun i hi => by rw [Function.update_of_ne hi]
  rw [Function.update_self, hbefore] at hchange
  exact hchange

lemma start_ne_none (hn : 0 < config.nShardNum) (hchanged : ¬ Unchanged config disk) (hnonneg : 0 ≤ disk.saved.nShardNum) :
    start config disk tmp_remap ≠ none := by
  rw [Unchanged] at hchanged
  rw [start, if_neg (not_le.mpr hn), if_neg hchanged, if_neg (not_lt.mpr hnonneg)]
  exact Option.some_ne_none _

lemma pending_broadcast {α : Type} (pool : LoopPool α) (n : ℕ) (task : α) :
    ∑ index ∈ Finset.range n, ((pool.broadcast n task).pending index).length =
      ∑ index ∈ Finset.range n, (pool.pending index).length + n := by
  have heach : ∀ index ∈ Finset.range n,
      ((pool.broadcast n task).pending index).length = (pool.pending index).length + 1 := by
    intro index hindex
    rw [LoopPool.broadcast]
    dsimp only
    rw [if_pos (Finset.mem_range.mp hindex), List.length_append, List.length_singleton]
  rw [Finset.sum_congr rfl heach, Finset.sum_add_distrib, ← Finset.card_eq_sum_ones, Finset.card_range]

lemma Invariant.remaining_read (h : Invariant config disk tmp_remap r posts) (hn : 0 < config.nShardNum) {j : ℕ}
    (hs : step config r (.read j) = some r') : remaining config r' < remaining config r := by
  simp only [step] at hs
  split at hs
  case h_1 => cases hs
  case h_2 hj =>
    cases hs
    obtain ⟨hlt, -⟩ := h.readers j (by rw [hj, Option.isSome_some])
    rw [← h.same] at hlt
    have hunread := unread_update none hlt hj
    simp only [remaining, unread, Option.elim_some, Option.elim_none, List.length_nil] at hunread ⊢
    omega
  case h_3 strKey strValue rest hj =>
    cases hs
    obtain ⟨hlt, -⟩ := h.readers j (by rw [hj, Option.isSome_some])
    rw [← h.same] at hlt
    have hunread := unread_update (some rest) hlt hj
    have hposted := sum_change (f := fun i => (r.pPutNewloopPool.pending i).length)
      (g := fun i => ((r.pPutNewloopPool.post (config.remapIndex strKey) (.put strKey strValue)).pending i).length)
      (remapIndex_lt hn strKey) fun i hi => by rw [LoopPool.pending_post_of_ne hi]
    rw [LoopPool.pending_post_self, List.length_append, List.length_singleton] at hposted
    simp only [remaining, unread, Option.elim_some, List.length_cons] at hunread ⊢
    omega

lemma Invariant.remaining_write (h : Invariant config disk tmp_remap r posts) {index : ℕ}
    (hs : step config r (.write index) = some r') : remaining config r' < remaining config r := by
  obtain ⟨⟨task, pool⟩, htake, hs⟩ := Option.bind_eq_some_iff.mp hs
  have hr := performed hs
  obtain ⟨hpending, hothers⟩ := LoopPool.pending_take htake
  have hindex : index < config.nShardNum.toNat := by
    by_contra hge
    have hposted := h.posted index
    rw [if_neg hge, LoopPool.posted, hpending] at hposted
    exact List.cons_ne_nil _ _ (List.append_eq_nil_iff.mp hposted).2
  have hless := sum_change (f := fun i => (r.pPutNewloopPool.pending i).length) (g := fun i => (pool.pending i).length)
    hindex fun i hi => by rw [hothers i hi]
  rw [hpending, List.length_cons] at hless
  have hphase : r'.phase = .loading ↔ r.phase = .loading := by
    obtain ⟨-, hphase⟩ | ⟨-, useCount, hphase, hphase'⟩ := hr.phase
    · rw [hphase]
    · rw [hphase', show r.phase = .closing (useCount + 1) from hphase]
      exact iff_of_false (by simp) (by simp)
  simp only [remaining, hr.disk, hr.readers, hr.pool, hphase]
  omega

lemma remaining_loaded (hs : step config r .loaded = some r') : remaining config r' < remaining config r := by
  simp only [step] at hs
  split_ifs at hs with hloaded
  cases hs
  simp only [remaining, pending_broadcast, if_pos hloaded.1]
  rw [if_neg (by simp)]
  omega

lemma Invariant.remaining_step (h : Invariant config disk tmp_remap r posts) (hn : 0 < config.nShardNum) {e : RemapEvent}
    (he : e ≠ .finish) (hs : step config r e = some r') : remaining config r' < remaining config r := by
  cases e with
  | read j => exact h.remaining_read hn hs
  | write index => exact h.remaining_write hs
  | loaded => exact remaining_loaded hs
  | finish => exact absurd rfl he

end RemapRun

namespace CrashRun

variable (config : Config)

def Ahead (index : ℕ) : StartPhase → Prop
  | .down | .copying _ | .removing _ => True
  | .switching turn => turn ≤ index
  | _ => False

/-- A start that was cut short has renamed a shard that is none of the old ones. -/
def Blocked (M : CrashRun) : Prop :=
  ∃ index, M.files.saved.nShardNum.toNat ≤ index ∧ index < config.nShardNum.toNat ∧ M.files.shard index ≠ none ∧
    Ahead index M.phase

/-- If the process does not die again, the start gets through, in whatever order the loops run. -/
def Recovers (M : CrashRun) : Prop :=
  ∃ bound, ∀ events M', .crash ∉ events → run (step config) M events = some M' →
    events.length ≤ bound ∧ (M'.phase = .started ∨ ∃ e, e ≠ .crash ∧ M'.step config e ≠ none)

def Vulnerable (M : CrashRun) : Prop :=
  (∃ turn, M.phase = .switching turn ∧ M.files.saved.nShardNum.toNat < turn) ∨
    (M.phase = .savingShardNum ∧ M.files.saved.nShardNum.toNat < config.nShardNum.toNat)

def Present (F : Files) : StartPhase → Prop
  | .switching turn => turn ≤ config.nShardNum.toNat ∧ ∀ j < turn, F.shard j ≠ none
  | .savingShardNum => ∀ j < config.nShardNum.toNat, F.shard j ≠ none
  | _ => True

def pairs (M : CrashRun) : ℕ :=
  ∑ j ∈ Finset.range M.files.saved.nShardNum.toNat, RemapRun.unread (some (scan (Files.contents M.files.shard j)))

def remaining (M : CrashRun) : ℕ :=
  match M.phase with
  | .down =>
    6 + config.nShardNum.toNat + M.files.saved.nShardNum.toNat + M.pairs + 2 * config.nShardNum.toNat + 1
  | .copying r => 5 + config.nShardNum.toNat + M.files.saved.nShardNum.toNat + r.remaining config
  | .removing index => 4 + config.nShardNum.toNat + (M.files.saved.nShardNum.toNat - index)
  | .switching index => 3 + (config.nShardNum.toNat - index)
  | .savingShardNum => 2
  | .savingHashSlat => 1
  | .started => 0

variable {config} {orig : Disk} {M M' : CrashRun}

/-! ### A shard that blocks the start stays -/

lemma blocked_initRocksDb (h : Blocked config M) (hs : M.initRocksDb config = some M') : Blocked config M' := by
  obtain ⟨F, phase⟩ := M
  obtain ⟨index, hold, hnew, hshard, -⟩ := h
  cases phase with
  | down =>
    rw [initRocksDb] at hs
    dsimp only at hold hshard hs
    split_ifs at hs with hsame
    · rw [hsame.1] at hold
      omega
    · obtain ⟨r, -, rfl⟩ := Option.map_eq_some_iff.mp hs
      refine ⟨index, hold, hnew, ?_, trivial⟩
      dsimp only [Files.opened]
      rwa [if_neg (by omega)]
  | copying | removing | switching | savingShardNum | savingHashSlat | started => cases hs

lemma blocked_switch (h : Blocked config M) (hs : M.switch config = some M') : Blocked config M' := by
  obtain ⟨F, phase⟩ := M
  obtain ⟨index, hold, hnew, hshard, hahead⟩ := h
  dsimp only at hold hshard hahead
  cases phase with
  | copying r =>
    simp only [switch] at hs
    split_ifs at hs
    cases hs
    exact ⟨index, hold, hnew, hshard, trivial⟩
  | removing turn =>
    simp only [switch] at hs
    split_ifs at hs
    · cases hs
      refine ⟨index, hold, hnew, ?_, trivial⟩
      dsimp only
      rwa [Function.update_of_ne (by omega)]
    · cases hs
      exact ⟨index, hold, hnew, hshard, index.zero_le⟩
  | switching turn =>
    have hturn : turn ≤ index := hahead
    simp only [switch] at hs
    split_ifs at hs with hlt
    · split at hs
      case h_1 htmp hnone =>
        cases hs
        have hne : index ≠ turn := by
          rintro rfl
          exact hshard hnone
        refine ⟨index, hold, hnew, ?_, lt_of_le_of_ne hturn hne.symm⟩
        dsimp only
        rwa [Function.update_of_ne hne]
      case h_2 =>
        cases hs
        exact ⟨index, hold, hnew, hshard, trivial⟩
    · omega
  | savingShardNum | savingHashSlat | started => exact absurd hahead id
  | down => cases hs

lemma blocked_crash (h : Blocked config M) (hs : M.crash config = some M') : Blocked config M' := by
  obtain ⟨F, phase⟩ := M
  obtain ⟨index, hold, hnew, hshard, -⟩ := h
  cases phase with
  | down => cases hs
  | copying | removing | switching | savingShardNum | savingHashSlat | started =>
    cases hs
    exact ⟨index, hold, hnew, hshard, trivial⟩

lemma blocked_step (h : Blocked config M) {e : CrashEvent} (hs : M.step config e = some M') : Blocked config M' := by
  cases e with
  | initRocksDb => exact blocked_initRocksDb h hs
  | copy e =>
    obtain ⟨r, r', -, -, -, rfl⟩ := copy_eq_some hs
    obtain ⟨index, hold, hnew, hshard, -⟩ := h
    exact ⟨index, hold, hnew, hshard, trivial⟩
  | switch => exact blocked_switch h hs
  | crash => exact blocked_crash h hs

/-! ### The other starts get through -/

lemma exists_step (hn : 0 < config.nShardNum) (h : Kept config orig M) (hstarted : M.phase ≠ .started) :
    ∃ e, e ≠ .crash ∧ M.step config e ≠ none := by
  obtain ⟨F, phase⟩ := M
  obtain ⟨hsound, hstands⟩ := h
  cases phase with
  | down =>
    refine ⟨.initRocksDb, by simp, ?_⟩
    rw [step, initRocksDb]
    dsimp only
    split_ifs with hsame
    · exact Option.some_ne_none _
    · refine fun hnone => RemapRun.start_ne_none hn ?_ ?_ (Option.map_eq_none_iff.mp hnone)
      · exact hsame
      · exact hsound.nonneg
  | copying r =>
    obtain ⟨-, -, hphase, posts, hinv⟩ := hstands
    by_cases hclosed : r.phase = .closing 0
    · refine ⟨.switch, by simp, ?_⟩
      rw [step, switch]
      dsimp only
      rw [if_pos hclosed]
      exact Option.some_ne_none _
    · obtain ⟨e, r', hs⟩ := hinv.exists_step hphase
      refine ⟨.copy e, by simp, ?_⟩
      cases e with
      | finish =>
        simp only [RemapRun.step] at hs
        rw [if_neg hclosed] at hs
        cases hs
      | read nDBIndex | write index | loaded =>
        change (RemapRun.step config r _).map _ ≠ none
        rw [hs]
        exact Option.some_ne_none _
  | removing index =>
    refine ⟨.switch, by simp, ?_⟩
    rw [step, switch]
    dsimp only
    split_ifs
    · exact Option.some_ne_none _
    · exact Option.some_ne_none _
  | switching index =>
    refine ⟨.switch, by simp, ?_⟩
    rw [step, switch]
    dsimp only
    split_ifs
    · split
      · exact Option.some_ne_none _
      · exact Option.some_ne_none _
    · exact Option.some_ne_none _
  | savingShardNum | savingHashSlat => exact ⟨.switch, by simp, Option.some_ne_none _⟩
  | started => exact absurd rfl hstarted

lemma remaining_initRocksDb (hs : M.initRocksDb config = some M') :
    M'.remaining config < M.remaining config ∧ (Blocked config M' → Blocked config M) := by
  obtain ⟨F, phase⟩ := M
  cases phase with
  | down =>
    rw [initRocksDb] at hs
    dsimp only at hs
    split_ifs at hs with hsame
    · cases hs
      constructor
      · simp only [remaining]
        omega
      · rintro ⟨_, _, _, _, hahead⟩
        exact hahead.elim
    · obtain ⟨r, hstart, rfl⟩ := Option.map_eq_some_iff.mp hs
      obtain ⟨-, -, rfl⟩ := RemapRun.start_eq_some hstart
      constructor
      · have hreaders : ∑ j ∈ Finset.range F.saved.nShardNum.toNat, RemapRun.unread
            (if j < F.saved.nShardNum.toNat then some (scan (Files.contents F.shard j)) else none) =
              (CrashRun.mk F .down).pairs := by
          refine Finset.sum_congr rfl fun j hj => ?_
          rw [if_pos (Finset.mem_range.mp hj)]
        have hnone : ∑ index ∈ Finset.range config.nShardNum.toNat,
            ((LoopPool.init : LoopPool PutTask).pending index).length = 0 := Finset.sum_eq_zero fun _ _ => rfl
        simp only [remaining, RemapRun.remaining, Files.disk, contents_opened, hreaders, RemapRun.pending_broadcast,
          hnone, if_true]
        omega
      · rintro ⟨index, hold, hnew, hshard, -⟩
        dsimp only [Files.opened] at hold hshard
        rw [if_neg (by omega)] at hshard
        exact ⟨index, hold, hnew, hshard, trivial⟩
  | copying | removing | switching | savingShardNum | savingHashSlat | started => cases hs

lemma remaining_copy (hn : 0 < config.nShardNum) (h : Kept config orig M) {e : RemapEvent}
    (hs : M.copy config e = some M') :
    M'.remaining config < M.remaining config ∧ (Blocked config M' → Blocked config M) := by
  obtain ⟨r, r', hcopying, he, hr', rfl⟩ := copy_eq_some hs
  obtain ⟨F, phase⟩ := M
  cases hcopying
  obtain ⟨-, -, -, -, posts, hinv⟩ := h
  have hless := hinv.remaining_step hn he hr'
  refine ⟨?_, id⟩
  simp only [remaining]
  omega

lemma remaining_switch (h : Kept config orig M) (hfree : ¬ Blocked config M) (hs : M.switch config = some M') :
    M'.remaining config < M.remaining config ∧ (Blocked config M' → Blocked config M) := by
  obtain ⟨F, phase⟩ := M
  cases phase with
  | copying r =>
    simp only [switch] at hs
    split_ifs at hs
    cases hs
    constructor
    · simp only [remaining, Files.landed]
      omega
    · rintro ⟨index, hold, hnew, hshard, -⟩
      exact ⟨index, hold, hnew, hshard, trivial⟩
  | removing turn =>
    simp only [switch] at hs
    split_ifs at hs with hlt
    · cases hs
      constructor
      · simp only [remaining]
        omega
      · rintro ⟨index, hold, hnew, hshard, -⟩
        dsimp only at hold hshard
        rw [Function.update_of_ne (by omega)] at hshard
        exact ⟨index, hold, hnew, hshard, trivial⟩
    · cases hs
      constructor
      · simp only [remaining]
        omega
      · rintro ⟨index, hold, hnew, hshard, -⟩
        exact ⟨index, hold, hnew, hshard, trivial⟩
  | switching turn =>
    obtain ⟨-, -, -, hremoved, -, hopened⟩ := h
    simp only [switch] at hs
    split_ifs at hs with hlt
    · split at hs
      case h_1 =>
        cases hs
        constructor
        · simp only [remaining]
          omega
        · rintro ⟨index, hold, hnew, hshard, hahead⟩
          have hahead : turn + 1 ≤ index := hahead
          dsimp only at hold hshard
          rw [Function.update_of_ne (by omega)] at hshard
          exact ⟨index, hold, hnew, hshard, Nat.le_of_succ_le hahead⟩
      case h_2 hthrows =>
        -- the directory to rename is there, so the shard of that name must be, too
        obtain ⟨store, hstore⟩ := Option.ne_none_iff_exists'.mp (hopened turn hlt le_rfl)
        have hshard : F.shard turn ≠ none := fun hnone => hthrows store hstore hnone
        have hold : F.saved.nShardNum.toNat ≤ turn := by
          by_contra hlt'
          exact hshard (hremoved turn le_rfl (not_le.mp hlt'))
        exact absurd ⟨turn, hold, hlt, hshard, le_refl turn⟩ hfree
    · cases hs
      constructor
      · simp only [remaining]
        omega
      · rintro ⟨_, _, _, _, hahead⟩
        exact hahead.elim
  | savingShardNum | savingHashSlat =>
    cases hs
    refine ⟨Nat.lt_succ_self _, ?_⟩
    rintro ⟨_, _, _, _, hahead⟩
    exact hahead.elim
  | down | started => cases hs

lemma remaining_step (hn : 0 < config.nShardNum) (h : Kept config orig M) (hfree : ¬ Blocked config M) {e : CrashEvent}
    (he : e ≠ .crash) (hs : M.step config e = some M') :
    M'.remaining config < M.remaining config ∧ (Blocked config M' → Blocked config M) := by
  cases e with
  | initRocksDb => exact remaining_initRocksDb hs
  | copy e => exact remaining_copy hn h hs
  | switch => exact remaining_switch h hfree hs
  | crash => exact absurd rfl he

lemma recovers (hn : 0 < config.nShardNum) (hone : orig.OneShardEach) (hkeys : ∀ k v, orig.Holds k v → k.head? ≠ some 0xff)
    (h : Kept config orig M) (hfree : ¬ Blocked config M) : Recovers config M := by
  refine ⟨M.remaining config, fun events M' hevents hrun => ?_⟩
  obtain ⟨⟨hkept, -⟩, hlength⟩ := length_add_remaining (I := fun M => Kept config orig M ∧ ¬ Blocked config M)
    (C := fun e => e ≠ .crash) (fun ⟨hk, hf⟩ he hs =>
      have hstep := remaining_step hn hk hf he hs
      ⟨⟨kept_step hn hone hkeys hk hs, fun hb => hf (hstep.2 hb)⟩, hstep.1⟩)
    ⟨h, hfree⟩ (fun e he heq => hevents (by rwa [← heq])) hrun
  refine ⟨Nat.le_of_add_right_le hlength, ?_⟩
  by_cases hstarted : M'.phase = .started
  · exact .inl hstarted
  · exact .inr (exists_step hn hkept hstarted)

lemma saved_step {num : ℤ} (h : M.files.saved.nShardNum = num ∨ M.files.saved.nShardNum = config.nShardNum)
    {e : CrashEvent} (hs : M.step config e = some M') :
    M'.files.saved.nShardNum = num ∨ M'.files.saved.nShardNum = config.nShardNum := by
  obtain ⟨F, phase⟩ := M
  cases e with
  | initRocksDb =>
    cases phase with
    | down =>
      simp only [step, initRocksDb] at hs
      split_ifs at hs
      · cases hs
        exact h
      · obtain ⟨r, -, rfl⟩ := Option.map_eq_some_iff.mp hs
        exact h
    | copying | removing | switching | savingShardNum | savingHashSlat | started => cases hs
  | copy e =>
    obtain ⟨r, r', -, -, -, rfl⟩ := copy_eq_some hs
    exact h
  | switch =>
    cases phase with
    | copying r =>
      simp only [step, switch] at hs
      split_ifs at hs
      cases hs
      exact h
    | removing index =>
      simp only [step, switch] at hs
      split_ifs at hs
      · cases hs
        exact h
      · cases hs
        exact h
    | switching index =>
      simp only [step, switch] at hs
      split_ifs at hs
      · split at hs
        · cases hs
          exact h
        · cases hs
          exact h
      · cases hs
        exact h
    | savingShardNum =>
      cases hs
      exact .inr rfl
    | savingHashSlat =>
      cases hs
      exact h
    | down | started => cases hs
  | crash =>
    cases phase with
    | down => cases hs
    | copying | removing | switching | savingShardNum | savingHashSlat | started =>
      cases hs
      exact h

lemma present_step (h : Present config M.files M.phase) {e : CrashEvent} (hs : M.step config e = some M') :
    Present config M'.files M'.phase := by
  obtain ⟨F, phase⟩ := M
  cases e with
  | initRocksDb =>
    cases phase with
    | down =>
      simp only [step, initRocksDb] at hs
      split_ifs at hs
      · cases hs
        exact trivial
      · obtain ⟨r, -, rfl⟩ := Option.map_eq_some_iff.mp hs
        exact trivial
    | copying | removing | switching | savingShardNum | savingHashSlat | started => cases hs
  | copy e =>
    obtain ⟨r, r', -, -, -, rfl⟩ := copy_eq_some hs
    exact trivial
  | switch =>
    cases phase with
    | copying r =>
      simp only [step, switch] at hs
      split_ifs at hs
      cases hs
      exact trivial
    | removing index =>
      simp only [step, switch] at hs
      split_ifs at hs
      · cases hs
        exact trivial
      · cases hs
        exact ⟨Nat.zero_le _, fun j hj => absurd hj j.not_lt_zero⟩
    | switching turn =>
      simp only [step, switch] at hs
      split_ifs at hs with hlt
      · split at hs
        · cases hs
          refine ⟨hlt, fun j hj => ?_⟩
          dsimp only
          rcases Nat.lt_succ_iff_lt_or_eq.mp hj with hj | rfl
          · rw [Function.update_of_ne hj.ne]
            exact h.2 j hj
          · rw [Function.update_self]
            exact Option.some_ne_none _
        · cases hs
          exact trivial
      · cases hs
        exact fun j hj => h.2 j (hj.trans_le (not_lt.mp hlt))
    | savingShardNum | savingHashSlat =>
      cases hs
      exact trivial
    | down | started => cases hs
  | crash =>
    cases phase with
    | down => cases hs
    | copying | removing | switching | savingShardNum | savingHashSlat | started =>
      cases hs
      exact trivial

lemma blocked_crash_iff (hkept : Kept config orig M) (hpresent : Present config M.files M.phase)
    (hs : M.crash config = some M') : Blocked config M' ↔ Blocked config M ∨ Vulnerable config M := by
  obtain ⟨F, phase⟩ := M
  constructor
  · rintro ⟨index, hold, hnew, hshard, -⟩
    cases phase with
    | down => cases hs
    | copying | removing =>
      cases hs
      exact .inl ⟨index, hold, hnew, hshard, trivial⟩
    | switching turn =>
      cases hs
      rcases Nat.lt_or_ge index turn with hlt | hge
      · exact .inr (.inl ⟨turn, rfl, hold.trans_lt hlt⟩)
      · exact .inl ⟨index, hold, hnew, hshard, hge⟩
    | savingShardNum =>
      cases hs
      exact .inr (.inr ⟨rfl, hold.trans_lt hnew⟩)
    | savingHashSlat =>
      cases hs
      have hsaved : F.saved.nShardNum = config.nShardNum := hkept.2.1
      dsimp only [onDisk] at hold
      rw [hsaved] at hold
      omega
    | started =>
      cases hs
      have hsaved : F.saved = config.toLayout := hkept.2.1
      dsimp only [onDisk] at hold
      rw [hsaved] at hold
      omega
  · rintro (hblocked | ⟨turn, hturn, hlt⟩ | ⟨hsaving, hlt⟩)
    · exact blocked_crash hblocked hs
    · cases hturn
      cases hs
      exact ⟨_, le_rfl, hlt.trans_le hpresent.1, hpresent.2 _ hlt, trivial⟩
    · cases hsaving
      cases hs
      exact ⟨_, le_rfl, hlt, hpresent _ hlt, trivial⟩

end CrashRun

end TonyCat.Database
