import TonyCat.Database.RemapRestart

set_option autoImplicit false

/-! What a remap leaves behind it, however often it was cut short: the new shards and no other directory. -/

namespace TonyCat.Database

open TonyCat.Library

structure Files.Settled (F : Files) (num : ℕ) : Prop where
  shard : ∀ index, F.shard index ≠ none ↔ index < num
  tmp_remap : ∀ index, F.tmp_remap index = none

namespace CrashRun

structure Within (config : Config) (F : Files) : Prop where
  shard : ∀ index, F.shard index ≠ none → index < F.saved.nShardNum.toNat ∨ index < config.nShardNum.toNat
  tmp_remap : ∀ index, config.nShardNum.toNat ≤ index → F.tmp_remap index = none

def Cleared (config : Config) (F : Files) : StartPhase → Prop
  | .switching turn => (∀ j < turn, F.tmp_remap j = none) ∧ ∀ j, config.nShardNum.toNat ≤ j → F.shard j = none
  | .savingShardNum | .savingHashSlat | .started => F.Settled config.nShardNum.toNat
  | .down => F.saved = config.toLayout → F.Settled config.nShardNum.toNat
  | .copying _ | .removing _ => True

structure Tidy (config : Config) (M : CrashRun) : Prop where
  within : Within config M.files
  present : Present config M.files M.phase
  cleared : Cleared config M.files M.phase

variable {config : Config} {orig : Disk} {M M' : CrashRun} {F : Files}

lemma Within.of_settled (h : F.Settled config.nShardNum.toNat) : Within config F :=
  ⟨fun index hindex => .inr ((h.shard index).mp hindex), fun index _ => h.tmp_remap index⟩

lemma Within.landed (h : Within config F) (r : RemapRun) : Within config (F.landed config r) := by
  refine ⟨h.shard, fun index hindex => ?_⟩
  dsimp only [Files.landed]
  rw [if_neg (not_lt.mpr hindex)]
  exact h.tmp_remap index hindex

lemma Within.remove (h : Within config F) (index : ℕ) :
    Within config { F with shard := Function.update F.shard index none } := by
  refine ⟨fun other hother => ?_, h.tmp_remap⟩
  dsimp only at hother ⊢
  by_cases hsame : other = index
  · rw [hsame, Function.update_self] at hother
    exact absurd rfl hother
  · rw [Function.update_of_ne hsame] at hother
    exact h.shard other hother

lemma Within.rename (h : Within config F) {index : ℕ} (hindex : index < config.nShardNum.toNat) (dir : Option Store) :
    Within config { F with
      shard := Function.update F.shard index dir
      tmp_remap := Function.update F.tmp_remap index none } := by
  constructor
  · intro other hother
    dsimp only at hother ⊢
    by_cases hsame : other = index
    · exact .inr (hsame ▸ hindex)
    · rw [Function.update_of_ne hsame] at hother
      exact h.shard other hother
  · intro other hother
    dsimp only
    rw [Function.update_of_ne (by omega)]
    exact h.tmp_remap other hother

lemma settled_of_switched (h : Tidy config ⟨F, .switching config.nShardNum.toNat⟩) : F.Settled config.nShardNum.toNat := by
  obtain ⟨hmoved, hothers⟩ := h.cleared
  constructor
  · intro index
    refine ⟨fun hindex => ?_, h.present.2 index⟩
    by_contra hge
    exact hindex (hothers index (not_lt.mp hge))
  · intro index
    rcases Nat.lt_or_ge index config.nShardNum.toNat with hlt | hge
    · exact hmoved index hlt
    · exact h.within.tmp_remap index hge

lemma cleared_initRocksDb (h : Tidy config M) (hs : M.initRocksDb config = some M') :
    Within config M'.files ∧ Cleared config M'.files M'.phase := by
  obtain ⟨F, phase⟩ := M
  cases phase with
  | down =>
    rw [initRocksDb] at hs
    dsimp only at hs
    split_ifs at hs with hsame
    · cases hs
      exact ⟨h.within, h.cleared (layout_eq hsame.1 hsame.2)⟩
    · obtain ⟨r, -, rfl⟩ := Option.map_eq_some_iff.mp hs
      refine ⟨⟨fun index hindex => ?_, fun index hindex => ?_⟩, trivial⟩
      · dsimp only [Files.opened] at hindex ⊢
        split_ifs at hindex with hold
        · exact .inl hold
        · exact h.within.shard index hindex
      · dsimp only [Files.opened]
        rw [if_neg (not_lt.mpr hindex)]
        exact h.within.tmp_remap index hindex
  | copying | removing | switching | savingShardNum | savingHashSlat | started => cases hs

lemma cleared_switch (hstands : Stands config orig M.files M.phase) (h : Tidy config M) (hs : M.switch config = some M') :
    Within config M'.files ∧ Cleared config M'.files M'.phase := by
  obtain ⟨F, phase⟩ := M
  have hwithin : Within config F := h.within
  cases phase with
  | copying r =>
    simp only [switch] at hs
    split_ifs at hs
    cases hs
    exact ⟨hwithin.landed r, trivial⟩
  | removing index =>
    simp only [switch] at hs
    split_ifs at hs with hindex
    · cases hs
      exact ⟨hwithin.remove index, trivial⟩
    · cases hs
      obtain ⟨-, -, hremoved, -⟩ := hstands
      refine ⟨hwithin, fun j hj => absurd hj j.not_lt_zero, fun j hj => ?_⟩
      by_contra hthere
      have hold : j < F.saved.nShardNum.toNat := (hwithin.shard j hthere).resolve_right (not_lt.mpr hj)
      exact hthere (hremoved j (hold.trans_le (not_lt.mp hindex)) hold)
  | switching turn =>
    simp only [switch] at hs
    split_ifs at hs with hturn
    · split at hs
      case h_1 store htmp hshard =>
        cases hs
        obtain ⟨hmoved, hothers⟩ := h.cleared
        refine ⟨hwithin.rename hturn _, fun j hj => ?_, fun j hj => ?_⟩
        · dsimp only
          by_cases hsame : j = turn
          · rw [hsame, Function.update_self]
          · rw [Function.update_of_ne hsame]
            exact hmoved j (by omega)
        · dsimp only
          rw [Function.update_of_ne (by omega)]
          exact hothers j hj
      case h_2 =>
        cases hs
        exact ⟨hwithin, fun heq => absurd heq hstands.2.1⟩
    · cases hs
      obtain rfl : turn = config.nShardNum.toNat := le_antisymm h.present.1 (not_lt.mp hturn)
      exact ⟨hwithin, settled_of_switched h⟩
  | savingShardNum | savingHashSlat =>
    cases hs
    have hsettled : F.Settled config.nShardNum.toNat := h.cleared
    exact ⟨.of_settled ⟨hsettled.shard, hsettled.tmp_remap⟩, hsettled.shard, hsettled.tmp_remap⟩
  | down | started => cases hs

lemma cleared_crash (hstands : Stands config orig M.files M.phase) (h : Tidy config M) (hs : M.crash config = some M') :
    Within config M'.files ∧ Cleared config M'.files M'.phase := by
  obtain ⟨F, phase⟩ := M
  cases phase with
  | down => cases hs
  | copying r =>
    cases hs
    exact ⟨h.within.landed r, fun heq => absurd heq hstands.2.1⟩
  | removing index | switching index =>
    cases hs
    exact ⟨h.within, fun heq => absurd heq hstands.2.1⟩
  | savingShardNum | savingHashSlat | started =>
    cases hs
    exact ⟨h.within, fun _ => h.cleared⟩

lemma Tidy.step (hkept : Kept config orig M) (h : Tidy config M) {e : CrashEvent} (hs : M.step config e = some M') :
    Tidy config M' := by
  have hpresent := present_step h.present hs
  obtain ⟨hwithin, hcleared⟩ : Within config M'.files ∧ Cleared config M'.files M'.phase := by
    cases e with
    | initRocksDb => exact cleared_initRocksDb h hs
    | copy e =>
      obtain ⟨r, r', -, -, -, rfl⟩ := copy_eq_some hs
      exact ⟨h.within, trivial⟩
    | switch => exact cleared_switch hkept.2 h hs
    | crash => exact cleared_crash hkept.2 h hs
  exact ⟨hwithin, hpresent, hcleared⟩

lemma tidy_before (h : Before config orig M) : Tidy config M := by
  constructor
  · constructor
    · intro index hindex
      rw [h.saved]
      rw [h.shard] at hindex
      by_contra hge
      exact hindex (if_neg fun hlt => hge (.inl hlt))
    · exact fun index _ => h.tmp_remap index
  · rw [h.phase]
    exact trivial
  · rw [h.phase]
    exact fun heq => absurd (h.saved.symm.trans heq) h.changed

end CrashRun

end TonyCat.Database
