import TonyCat.Database.RemapRun

set_option autoImplicit false

/-! When a remap copies exactly. -/

namespace TonyCat.Database

open TonyCat.Library

namespace Disk

def Holds (disk : Disk) (k v : Bytes) : Prop :=
  ∃ index < disk.saved.nShardNum.toNat, (disk.shards index).lookup k = some v

def OneShardEach (disk : Disk) : Prop :=
  ∀ k, ∀ i < disk.saved.nShardNum.toNat, ∀ j < disk.saved.nShardNum.toNat,
    (disk.shards i).lookup k ≠ none → (disk.shards j).lookup k ≠ none → i = j

lemma Holds.unique {disk : Disk} (h : disk.OneShardEach) {k v v' : Bytes} (hv : disk.Holds k v) (hv' : disk.Holds k v') :
    v = v' := by
  obtain ⟨i, hi, hv⟩ := hv
  obtain ⟨j, hj, hv'⟩ := hv'
  obtain rfl := h k i hi j hj (by simp [hv]) (by simp [hv'])
  exact Option.some.inj (hv.symm.trans hv')

def CopiesExactly (old new : Disk) : Prop :=
  (∀ k v, new.Holds k v ↔ old.Holds k v) ∧ new.OneShardEach

def leftOver (config : Config) (tmp_remap : ℕ → Store) : Disk := ⟨config.toLayout, tmp_remap⟩

end Disk

open Disk

/-- Of the keys that the iterators reach, only old ones are left over, in the directory that their hash picks;
of the others, which begin with `\xFF`, exactly the old ones, each in one directory. -/
structure LeftOverFits (config : Config) (disk : Disk) (tmp_remap : ℕ → Store) : Prop where
  reached : ∀ k, k.head? ≠ some 0xff → ∀ index < config.nShardNum.toNat, (tmp_remap index).lookup k ≠ none →
    index = config.remapIndex k ∧ ∃ v, disk.Holds k v
  unreached : ∀ k, k.head? = some 0xff → (∀ v, (leftOver config tmp_remap).Holds k v ↔ disk.Holds k v) ∧
    ∀ i < config.nShardNum.toNat, ∀ j < config.nShardNum.toNat,
      (tmp_remap i).lookup k ≠ none → (tmp_remap j).lookup k ≠ none → i = j

namespace RemapRun

variable {config : Config} {disk : Disk} {tmp_remap : ℕ → Store} {posts : List (Bytes × Bytes)} {k v : Bytes}

lemma mem_scanned : (k, v) ∈ scanned disk ↔ disk.Holds k v ∧ k.head? ≠ some 0xff := by
  simp only [scanned, List.mem_flatMap, List.mem_range, mem_scan, Holds]
  constructor
  · rintro ⟨index, hlt, hv, hk⟩
    exact ⟨⟨index, hlt, hv⟩, hk⟩
  · rintro ⟨⟨index, hlt, hv⟩, hk⟩
    exact ⟨index, hlt, hv, hk⟩

lemma lookup_remapped (hposts : posts.Perm (scanned disk)) (hone : disk.OneShardEach) (hv : disk.Holds k v)
    (hk : k.head? ≠ some 0xff) : (remapped config tmp_remap posts (config.remapIndex k)).lookup k = some v := by
  refine foldl_put_unique _ ?_ (fun v' hv' => ?_) _
  · exact List.mem_filter.mpr ⟨hposts.mem_iff.mpr (mem_scanned.mpr ⟨hv, hk⟩), by simp⟩
  · have hold := mem_scanned.mp (hposts.mem_iff.mp (List.mem_of_mem_filter hv'))
    exact hold.1.unique hone hv

lemma lookup_remapped_of_left (hposts : posts.Perm (scanned disk)) {index : ℕ}
    (h : index = config.remapIndex k → k.head? ≠ some 0xff → ∀ v, ¬ disk.Holds k v) :
    (remapped config tmp_remap posts index).lookup k = (tmp_remap index).lookup k := by
  refine foldl_put_absent _ (fun v hv => ?_) _
  obtain ⟨hmem, hindex⟩ := List.mem_filter.mp hv
  obtain ⟨hold, hk⟩ := mem_scanned.mp (hposts.mem_iff.mp hmem)
  exact h (of_decide_eq_true hindex).symm hk v hold

def remappedDisk (config : Config) (tmp_remap : ℕ → Store) (posts : List (Bytes × Bytes)) : Disk where
  saved := config.toLayout
  shards := fun index => if index < config.nShardNum.toNat then remapped config tmp_remap posts index else ∅

lemma shards_remappedDisk {index : ℕ} (h : index < config.nShardNum.toNat) :
    (remappedDisk config tmp_remap posts).shards index = remapped config tmp_remap posts index := if_pos h

lemma holds_remappedDisk : (remappedDisk config tmp_remap posts).Holds k v ↔
    ∃ index < config.nShardNum.toNat, (remapped config tmp_remap posts index).lookup k = some v := by
  refine exists_congr fun index => and_congr_right fun (hlt : index < config.nShardNum.toNat) => ?_
  rw [shards_remappedDisk hlt]

lemma leftOverFits_of_copiesExactly (hn : 0 < config.nShardNum) (hone : disk.OneShardEach)
    (hposts : posts.Perm (scanned disk)) (h : CopiesExactly disk (remappedDisk config tmp_remap posts)) :
    LeftOverFits config disk tmp_remap := by
  obtain ⟨hsame, hnew⟩ := h
  constructor
  case reached =>
    intro k hk index hlt hleft
    obtain ⟨w, hw⟩ := Option.ne_none_iff_exists'.mp hleft
    by_cases hold : ∃ v, disk.Holds k v
    · refine ⟨?_, hold⟩
      obtain ⟨v, hv⟩ := hold
      by_contra hne
      have hkept : (remapped config tmp_remap posts index).lookup k ≠ none := by
        rwa [lookup_remapped_of_left hposts fun heq => absurd heq hne]
      refine hne (hnew k index hlt (config.remapIndex k) (remapIndex_lt hn k) ?_ ?_)
      · rwa [shards_remappedDisk hlt]
      · rw [shards_remappedDisk (remapIndex_lt hn k), lookup_remapped hposts hone hv hk]
        nofun
    · have hkept : (remapped config tmp_remap posts index).lookup k = (tmp_remap index).lookup k :=
        lookup_remapped_of_left hposts fun _ _ v hv => hold ⟨v, hv⟩
      exact absurd ⟨w, (hsame k w).mp (holds_remappedDisk.mpr ⟨index, hlt, hkept.trans hw⟩)⟩ hold
  case unreached =>
    intro k hk
    have hkept : ∀ index, (remapped config tmp_remap posts index).lookup k = (tmp_remap index).lookup k :=
      fun index => lookup_remapped_of_left hposts fun _ hne => absurd hk hne
    constructor
    · intro v
      rw [← hsame, holds_remappedDisk]
      simp only [hkept]
      rfl
    · intro i hi j hj hik hjk
      apply hnew k i hi j hj
      · rwa [shards_remappedDisk hi, hkept]
      · rwa [shards_remappedDisk hj, hkept]

lemma copiesExactly_of_leftOverFits (hn : 0 < config.nShardNum) (hone : disk.OneShardEach)
    (hposts : posts.Perm (scanned disk)) (h : LeftOverFits config disk tmp_remap) :
    CopiesExactly disk (remappedDisk config tmp_remap posts) := by
  -- a key that the iterators reach is in the shard that its hash picks, with its old value, or nowhere
  have hreached : ∀ k, k.head? ≠ some 0xff → ∀ index < config.nShardNum.toNat, ∀ w,
      (remapped config tmp_remap posts index).lookup k = some w ↔ index = config.remapIndex k ∧ disk.Holds k w := by
    intro k hk index hlt w
    constructor
    · intro hw
      by_cases hput : index = config.remapIndex k ∧ ∃ v, disk.Holds k v
      · obtain ⟨rfl, v, hv⟩ := hput
        rw [lookup_remapped hposts hone hv hk] at hw
        cases hw
        exact ⟨rfl, hv⟩
      · rw [lookup_remapped_of_left hposts fun heq _ v hv => hput ⟨heq, v, hv⟩] at hw
        exact absurd (h.reached k hk index hlt (by simp [hw])) hput
    · rintro ⟨rfl, hw⟩
      exact lookup_remapped hposts hone hw hk
  have hkept : ∀ k, k.head? = some 0xff → ∀ index,
      (remapped config tmp_remap posts index).lookup k = (tmp_remap index).lookup k :=
    fun k hk index => lookup_remapped_of_left hposts fun _ hne => absurd hk hne
  constructor
  · intro k v
    rw [holds_remappedDisk]
    by_cases hk : k.head? = some 0xff
    · simp only [hkept k hk]
      exact (h.unreached k hk).1 v
    · constructor
      · rintro ⟨index, hlt, hv⟩
        exact ((hreached k hk index hlt v).mp hv).2
      · intro hv
        exact ⟨config.remapIndex k, remapIndex_lt hn k, lookup_remapped hposts hone hv hk⟩
  · intro k i (hi : i < config.nShardNum.toNat) j (hj : j < config.nShardNum.toNat) hik hjk
    rw [shards_remappedDisk hi] at hik
    rw [shards_remappedDisk hj] at hjk
    by_cases hk : k.head? = some 0xff
    · rw [hkept k hk] at hik hjk
      exact (h.unreached k hk).2 i hi j hj hik hjk
    · obtain ⟨v, hv⟩ := Option.ne_none_iff_exists'.mp hik
      obtain ⟨w, hw⟩ := Option.ne_none_iff_exists'.mp hjk
      rw [((hreached k hk i hi v).mp hv).1, ((hreached k hk j hj w).mp hw).1]

theorem copies_exactly_iff {r₀ r : RemapRun} {events : List RemapEvent} (hone : disk.OneShardEach)
    (hstart : start config disk tmp_remap = some r₀) (hrun : run (step config) r₀ events = some r)
    (hphase : r.phase = .finished) : CopiesExactly disk r.disk ↔ LeftOverFits config disk tmp_remap := by
  obtain ⟨hn, -, -⟩ := start_eq_some hstart
  obtain ⟨posts, hposts, hdisk⟩ := finished_disk hstart hrun hphase
  rw [show r.disk = remappedDisk config tmp_remap posts from hdisk]
  exact ⟨leftOverFits_of_copiesExactly hn hone hposts, copiesExactly_of_leftOverFits hn hone hposts⟩

def otherSalt : Config := ⟨⟨1, [66]⟩, .rightToLeft⟩

theorem pair_copied_exactly : ∃ r₀ r, start otherSalt ⟨⟨1, [65]⟩, fun _ => (∅ : Store).put [1] [2]⟩ (fun _ => ∅) = some r₀ ∧
    run (step otherSalt) r₀ [.write 0, .read 0, .read 0, .write 0, .loaded, .write 0, .finish] = some r ∧
      r.phase = .finished ∧ CopiesExactly ⟨⟨1, [65]⟩, fun _ => (∅ : Store).put [1] [2]⟩ r.disk := by
  have hone : OneShardEach ⟨⟨1, [65]⟩, fun _ => (∅ : Store).put [1] [2]⟩ := by
    intro k i (hi : i < 1) j (hj : j < 1) _ _
    omega
  have hrun : ∃ r₀ r, start otherSalt ⟨⟨1, [65]⟩, fun _ => (∅ : Store).put [1] [2]⟩ (fun _ => ∅) = some r₀ ∧
      run (step otherSalt) r₀ [.write 0, .read 0, .read 0, .write 0, .loaded, .write 0, .finish] = some r ∧
        r.phase = .finished := ⟨_, _, rfl, rfl, rfl⟩
  obtain ⟨r₀, r, hstart, hrun, hphase⟩ := hrun
  refine ⟨r₀, r, hstart, hrun, hphase, (copies_exactly_iff hone hstart hrun hphase).mpr ⟨?_, ?_⟩⟩
  · intro k _ index _ hleft
    exact absurd (AList.lookup_empty k) hleft
  · intro k hk
    have hold : ((∅ : Store).put [1] [2]).lookup k = none := by
      rw [Store.put, AList.lookup_insert_ne]
      · exact AList.lookup_empty k
      · rintro rfl
        simp at hk
    refine ⟨fun v => iff_of_false ?_ ?_, fun i _ j _ hi => absurd (AList.lookup_empty k) hi⟩
    · rintro ⟨index, -, hv⟩
      cases (AList.lookup_empty _).symm.trans hv
    · rintro ⟨index, -, hv⟩
      cases hold.symm.trans hv

/-- A pair that an interrupted remap left in `tmp_remap0` and that was deleted since comes back. -/
theorem left_over_pair_returns : ∃ r₀ r, start otherSalt ⟨⟨1, [65]⟩, fun _ => ∅⟩ (fun _ => (∅ : Store).put [1] [2]) = some r₀ ∧
    run (step otherSalt) r₀ [.write 0, .read 0, .loaded, .write 0, .finish] = some r ∧
      r.phase = .finished ∧ r.disk.Holds [1] [2] ∧ ¬ CopiesExactly ⟨⟨1, [65]⟩, fun _ => ∅⟩ r.disk := by
  refine ⟨_, _, rfl, rfl, rfl, ⟨0, by decide, rfl⟩, fun h => ?_⟩
  obtain ⟨index, -, hv⟩ := (h.1 [1] [2]).mp ⟨0, by decide, rfl⟩
  cases (AList.lookup_empty _).symm.trans hv

theorem finished_eq_remapDBDataAndStart (R : RocksDBModule) {r₀ r : RemapRun} {events : List RemapEvent}
    (hstart : start config disk (fun _ => ∅) = some r₀) (hrun : run (step config) r₀ events = some r)
    (hphase : r.phase = .finished) :
    ∃ R' : RocksDBModule, R'.handle = R.handle ∧ r.disk = R'.remapDBDataAndStart config disk := by
  obtain ⟨hn, hchanged, -⟩ := start_eq_some hstart
  obtain ⟨posts, hposts, hdisk⟩ := finished_disk hstart hrun hphase
  let R' : RocksDBModule :=
    { handle := R.handle
      funRang := R.funRang
      merge := fun pairs => if pairs = scanned disk then posts else pairs
      merge_perm := by
        intro pairs
        split_ifs with heq
        · rwa [heq]
        · exact List.Perm.refl pairs }
  have hputs : R'.remapPuts disk = posts := if_pos rfl
  rw [Unchanged] at hchanged
  refine ⟨R', rfl, ?_⟩
  rw [RocksDBModule.remapDBDataAndStart, if_neg (not_le.mpr hn), if_neg hchanged, hputs, hdisk]
  rfl

end RemapRun

end TonyCat.Database
