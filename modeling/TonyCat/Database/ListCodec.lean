import TonyCat.Database.RawData
import Mathlib.Data.List.Pairwise

set_option autoImplicit false

/-! `PacketList` and `PaserList` on every list and on every string, well formed or not. -/

namespace TonyCat.Database

open TonyCat.Library

variable {native : Endian} {strInput : Bytes}

def Consecutive (native : Endian) (strInput : Bytes) : ℕ → List (ℕ × ℕ) → Prop
  | _, [] => True
  | pos, part :: parts => pos + 4 ≤ strInput.length ∧ part = (pos + 4, prefixAt native strInput pos) ∧
      part.1 + part.2 ≤ strInput.length ∧ Consecutive native strInput (part.1 + part.2) parts

/-- Both `PaserList` come to an end. Their elements are parts of the string, inside it, one behind the other, and none
comes from behind the first length prefix whose data would run past the end. -/
def DecodesSafely (native : Endian) (strInput : Bytes) : Prop :=
  ∃ parts : List (ℕ × ℕ), paserList native strInput = some (parts.map (slice strInput)) ∧
    paserSet native strInput = some ((parts.map (slice strInput)).foldl (fun setElems strData => setElems.insert strData) []) ∧
    (∀ part ∈ parts, part.1 + part.2 ≤ strInput.length) ∧ parts.Pairwise (fun a b => a.1 + a.2 ≤ b.1) ∧
    Consecutive native strInput 0 parts

/-- The first length prefix from the position on that has a byte behind it and whose data would run past the end. -/
def overrun (native : Endian) (strInput : Bytes) (pos : ℕ) : Option (ℕ × ℕ) :=
  if strInput.length ≤ pos + 4 then
    none
  else if pos + 4 + prefixAt native strInput pos ≤ strInput.length then
    overrun native strInput (pos + 4 + prefixAt native strInput pos)
  else
    some (pos, prefixAt native strInput pos)
termination_by strInput.length - pos

/-- `PaserRawData` refuses the prefix `len` at `pos`, or its data is one byte too long and the element is dropped
for ending at 2³² - 1. -/
def StopsAt (strInput : Bytes) (pos len : ℕ) : Prop :=
  strInput.length < pos + len ∧ pos + len < 2 ^ 32 ∨ strInput.length = 2 ^ 32 - 2 ∧ pos + 4 + len = 2 ^ 32 - 1

lemma Consecutive.bounds {pos : ℕ} {parts : List (ℕ × ℕ)} (h : Consecutive native strInput pos parts) :
    (∀ part ∈ parts, pos ≤ part.1 ∧ part.1 + part.2 ≤ strInput.length) ∧
      parts.Pairwise (fun a b => a.1 + a.2 ≤ b.1) := by
  induction parts generalizing pos with
  | nil => exact ⟨fun part hp => absurd hp List.not_mem_nil, List.Pairwise.nil⟩
  | cons part parts ih =>
    obtain ⟨-, hpart, hfit, hrest⟩ := h
    obtain ⟨hin, hord⟩ := ih hrest
    have hpos : pos ≤ part.1 := by
      rw [hpart]
      exact Nat.le_add_right pos 4
    refine ⟨List.forall_mem_cons.mpr ⟨⟨hpos, hfit⟩, fun p hp => ?_⟩, List.pairwise_cons.mpr ⟨?_, hord⟩⟩
    · have hp' := hin p hp
      omega
    · exact fun p hp => (hin p hp).1

lemma paserRawData_stopsAt {pos : ℕ} (hpos : pos < 2 ^ 32) (h : pos + 4 < strInput.length)
    (hstop : StopsAt strInput pos (prefixAt native strInput pos)) :
    ∃ strData, paserRawData native strInput (UInt32.ofNat pos) = some (uint32Max, strData) := by
  rw [paserRawData_long hpos h]
  rcases hstop with ⟨hover, hsum⟩ | ⟨hsize, hend⟩
  · rw [Nat.mod_eq_of_lt hsum, if_pos hover]
    exact ⟨[], rfl⟩
  · rw [Nat.mod_eq_of_lt (by omega), if_neg (by omega), copyFrom, if_pos (by omega), hend]
    exact ⟨_, rfl⟩

/-- Where the first overrun of the string stops the loop, or there is none, the loop runs over consecutive parts. -/
lemma paserLoop_stops (hsize : strInput.length < 2 ^ 32) (pos : ℕ) (hpos : pos < 2 ^ 32)
    (hstop : ∀ p len, overrun native strInput pos = some (p, len) → StopsAt strInput p len) :
    ∃ parts, Consecutive native strInput pos parts ∧ ∀ {α : Type} (insert : α → Bytes → α) (fuel : ℕ) (acc : α),
      strInput.length - pos < fuel → paserLoop native insert strInput fuel (UInt32.ofNat pos) acc =
        some ((parts.map (slice strInput)).foldl insert acc) := by
  fun_induction overrun native strInput pos with
  | case1 pos hshort =>
    refine ⟨[], trivial, fun insert fuel acc hfuel => ?_⟩
    by_cases hin : pos < strInput.length
    · obtain ⟨fuel, rfl⟩ : ∃ n, fuel = n + 2 := ⟨fuel - 2, by omega⟩
      exact paserLoop_last insert acc hsize hin (paserRawData_short hpos hshort)
    · obtain ⟨fuel, rfl⟩ : ∃ n, fuel = n + 1 := ⟨fuel - 1, by omega⟩
      exact paserLoop_end insert acc (by rw [toNat_ofNat_pos hpos]; omega)
  | case2 pos hlong hfit ih =>
    have hdata := paserRawData_inside native hsize (not_le.mp hlong) hfit
    by_cases hlast : pos + 4 + prefixAt native strInput pos = 2 ^ 32 - 1
    · refine ⟨[], trivial, fun insert fuel acc hfuel => ?_⟩
      obtain ⟨fuel, rfl⟩ : ∃ n, fuel = n + 2 := ⟨fuel - 2, by omega⟩
      rw [hlast] at hdata
      exact paserLoop_last insert acc hsize (by omega) hdata
    · obtain ⟨parts, hparts, hloop⟩ := ih (by omega) hstop
      refine ⟨(pos + 4, prefixAt native strInput pos) :: parts, ⟨by omega, rfl, hfit, hparts⟩,
        fun insert fuel acc hfuel => ?_⟩
      obtain ⟨fuel, rfl⟩ : ∃ n, fuel = n + 1 := ⟨fuel - 1, by omega⟩
      rw [paserLoop_next insert acc hsize (by omega) (by omega) hdata, hloop insert fuel _ (by omega)]
      rfl
  | case3 pos hlong hrun =>
    refine ⟨[], trivial, fun insert fuel acc hfuel => ?_⟩
    obtain ⟨fuel, rfl⟩ : ∃ n, fuel = n + 2 := ⟨fuel - 2, by omega⟩
    obtain ⟨strData, hdata⟩ := paserRawData_stopsAt hpos (not_le.mp hlong) (hstop pos _ rfl)
    exact paserLoop_last insert acc hsize (by omega) hdata

lemma length_le_of_paserLoop {fuel : ℕ} {index : UInt32} {acc result : List Bytes}
    (h : paserLoop native (fun vecElems strData => vecElems ++ [strData]) strInput fuel index acc = some result) :
    acc.length ≤ result.length := by
  induction fuel generalizing index acc with
  | zero => cases h
  | succ fuel ih =>
    rw [paserLoop] at h
    split at h
    · obtain ⟨next, -, h⟩ := Option.bind_eq_some_iff.mp h
      have hrest := ih h
      split at hrest
      · rw [List.length_append] at hrest
        omega
      · exact hrest
    · cases h
      exact le_rfl

lemma paserLoop_passes (hsize : strInput.length < 2 ^ 32) (pos : ℕ) {p len : ℕ} (hpos : pos < 2 ^ 32)
    (hover : overrun native strInput pos = some (p, len)) (hpass : ¬ StopsAt strInput p len) {fuel : ℕ}
    {acc result : List Bytes}
    (h : paserLoop native (fun vecElems strData => vecElems ++ [strData]) strInput fuel (UInt32.ofNat pos) acc =
      some result) {parts : List (ℕ × ℕ)} (hparts : Consecutive native strInput pos parts) :
    acc.length + parts.length < result.length := by
  fun_induction overrun native strInput pos generalizing fuel acc parts with
  | case1 pos hshort => cases hover
  | case2 pos hlong hfit ih =>
    have hdata := paserRawData_inside native hsize (not_le.mp hlong) hfit
    have hnext : pos + 4 + prefixAt native strInput pos < 2 ^ 32 - 1 := by
      by_contra hlast
      rw [overrun, if_pos (by omega)] at hover
      cases hover
    cases fuel with
    | zero => cases h
    | succ fuel =>
      rw [paserLoop_next _ acc hsize (by omega) hnext hdata] at h
      cases parts with
      | nil =>
        have hrest := ih (by omega) hover h (show Consecutive native strInput _ [] from trivial)
        rw [List.length_append, List.length_singleton] at hrest
        exact Nat.lt_of_succ_lt hrest
      | cons part parts =>
        obtain ⟨-, rfl, -, hparts⟩ := hparts
        have hrest := ih (by omega) hover h hparts
        rw [List.length_append, List.length_singleton] at hrest
        rw [List.length_cons]
        omega
  | case3 pos hlong hrun =>
    cases hover
    have hlen := prefixAt_lt native strInput p
    have hnil : parts = [] := by
      cases parts with
      | nil => rfl
      | cons part parts =>
        obtain ⟨-, rfl, hfit, -⟩ := hparts
        exact absurd hfit hrun
    have hcheck : ¬ strInput.length < (p + prefixAt native strInput p) % 2 ^ 32 := by
      intro hlt
      by_cases hsum : p + prefixAt native strInput p < 2 ^ 32
      · rw [Nat.mod_eq_of_lt hsum] at hlt
        exact hpass (.inl ⟨hlt, hsum⟩)
      · -- the sum that has wrapped is below the position
        omega
    cases fuel with
    | zero => cases h
    | succ fuel =>
      rw [paserLoop, toNat_ofNat_pos hpos, if_pos (by omega), paserRawData_long hpos (not_le.mp hlong), if_neg hcheck,
        copyFrom] at h
      split at h
      case isTrue hcopy =>
        -- the copy takes the terminating NUL
        have hnul : p + 4 + prefixAt native strInput p = strInput.length + 1 := by omega
        have hnext : UInt32.ofNat (strInput.length + 1) < uint32Max := by
          rw [UInt32.lt_iff_toNat_lt, UInt32.toNat_ofNat']
          change (strInput.length + 1) % 2 ^ 32 < 2 ^ 32 - 1
          have hdropped : strInput.length ≠ 2 ^ 32 - 2 := fun hs => hpass (.inr ⟨hs, by omega⟩)
          omega
        rw [hnul] at h
        simp only [Option.map_some, Option.bind_some, if_pos hnext] at h
        have hgrown := length_le_of_paserLoop h
        rw [List.length_append, List.length_singleton] at hgrown
        rw [hnil]
        exact hgrown
      case isFalse => cases h

theorem decodesSafely_iff (hsize : strInput.length < 2 ^ 32) : DecodesSafely native strInput ↔
    ∀ p len, overrun native strInput 0 = some (p, len) → StopsAt strInput p len := by
  constructor
  · rintro ⟨parts, hvec, -, -, -, hparts⟩ p len hover
    by_contra hpass
    have hmore := paserLoop_passes hsize 0 (by decide) hover hpass hvec hparts
    rw [List.length_map, List.length_nil, Nat.zero_add] at hmore
    exact lt_irrefl _ hmore
  · intro hstop
    obtain ⟨parts, hparts, hloop⟩ := paserLoop_stops hsize 0 (by decide) hstop
    obtain ⟨hinside, hordered⟩ := hparts.bounds
    refine ⟨parts, ?_, hloop _ _ _ (by omega), fun part hp => (hinside part hp).2, hordered, hparts⟩
    exact (hloop _ _ _ (by omega)).trans (by rw [foldl_concat, List.nil_append])

theorem decodesSafely_truncated : DecodesSafely .little [1, 0, 0, 0, 65, 9, 0, 0, 0, 66] := by
  refine (decodesSafely_iff (by decide)).mpr fun p len hover => ?_
  have hfirst : prefixAt .little [1, 0, 0, 0, 65, 9, 0, 0, 0, 66] 0 = 1 := by decide
  have hsecond : prefixAt .little [1, 0, 0, 0, 65, 9, 0, 0, 0, 66] 5 = 9 := by decide
  rw [overrun, if_neg (by decide), hfirst, if_pos (by decide), overrun, if_neg (by decide), hsecond,
    if_neg (by decide)] at hover
  cases hover
  exact .inl (by decide)

/-- A prefix that is one too big: the element takes the terminating NUL. -/
theorem not_decodesSafely_nul : ¬ DecodesSafely .little [2, 0, 0, 0, 65] := by
  rintro ⟨parts, hvec, -, -, -, hparts⟩
  have hfirst : prefixAt .little [2, 0, 0, 0, 65] 0 = 2 := by decide
  have hover : overrun .little [2, 0, 0, 0, 65] 0 = some (0, 2) := by
    rw [overrun, if_neg (by decide), hfirst, if_neg (by decide)]
  have hpass : ¬ StopsAt [2, 0, 0, 0, 65] 0 2 := by
    rintro (⟨hlt, -⟩ | ⟨hs, -⟩)
    · exact absurd hlt (by decide)
    · exact absurd hs (by decide)
  have hmore := paserLoop_passes (by decide) 0 (by decide) hover hpass hvec hparts
  rw [List.length_map, List.length_nil, Nat.zero_add] at hmore
  exact lt_irrefl _ hmore

lemma readBack_eq_iff (native : Endian) (elems : List Bytes) :
    readBack (packetList native elems).length elems = elems ↔
      elems.getLast? ≠ some [] ∧ (packetList native elems).length ≠ 2 ^ 32 - 1 := by
  rw [readBack, ← not_or]
  split
  case isTrue h =>
    refine iff_of_false (fun heq => ?_) (not_not.mpr h)
    have hlen := congrArg List.length heq
    rw [List.length_dropLast] at hlen
    obtain rfl : elems = [] := List.eq_nil_of_length_eq_zero (by omega)
    rcases h with h | h
    · cases h
    · rw [packetList_eq, records_nil] at h
      exact absurd h (by decide)
  case isFalse h => exact iff_of_true rfl h

def VectorRoundTrips (native : Endian) (elems : List Bytes) : Prop :=
  paserList native (packetList native elems) = some elems

/-- The set form gives back the members of a set that is iterated in this order. -/
def SetRoundTrips (native : Endian) (elems : List Bytes) : Prop :=
  ∃ setElems, paserSet native (packetList native elems) = some setElems ∧
    ∀ strData, strData ∈ setElems ↔ strData ∈ elems

lemma mem_readBack_iff {size : ℕ} {elems : List Bytes} (hnodup : elems.Nodup) :
    (∀ strData, strData ∈ readBack size elems ↔ strData ∈ elems) ↔ readBack size elems = elems := by
  refine ⟨fun h => ?_, fun h strData => by rw [h]⟩
  rw [readBack] at h ⊢
  split at h
  case isTrue hlast =>
    rw [if_pos hlast]
    -- the last element is dropped only where there is one, and then it is missing
    rcases List.eq_nil_or_concat elems with rfl | ⟨front, x, rfl⟩
    · rfl
    · rw [List.concat_eq_append] at h hnodup
      rw [List.dropLast_concat] at h
      have hx := (h x).mpr (List.mem_append_right _ List.mem_cons_self)
      exact absurd rfl ((List.nodup_append.mp hnodup).2.2 x hx x List.mem_cons_self)
  case isFalse hkept => rw [if_neg hkept]

theorem roundTrips_iff {elems : List Bytes} (hsize : (packetList native elems).length < 2 ^ 32) :
    (VectorRoundTrips native elems ↔ elems.getLast? ≠ some [] ∧ (packetList native elems).length ≠ 2 ^ 32 - 1) ∧
      (elems.Nodup → (SetRoundTrips native elems ↔
        elems.getLast? ≠ some [] ∧ (packetList native elems).length ≠ 2 ^ 32 - 1)) := by
  constructor
  · rw [VectorRoundTrips, paserList, paserLoop_packetList _ _ hsize, foldl_concat, List.nil_append, Option.some_inj,
      readBack_eq_iff]
  · intro hnodup
    rw [← readBack_eq_iff, ← mem_readBack_iff hnodup, SetRoundTrips, paserSet, paserLoop_packetList _ _ hsize]
    simp only [Option.some_inj, exists_eq_left', mem_foldl_insert, List.not_mem_nil, false_or]

theorem roundTrips_two : VectorRoundTrips .little [[], [7]] ∧ SetRoundTrips .little [[], [7]] := by
  have hsize : (packetList .little [[], [7]]).length < 2 ^ 32 := by decide
  exact ⟨(roundTrips_iff hsize).1.mpr (by decide), ((roundTrips_iff hsize).2 (by decide)).mpr (by decide)⟩

/-- One empty string is lost. -/
theorem not_roundTrips_empty : ¬ VectorRoundTrips .little [[]] ∧ ¬ SetRoundTrips .little [[]] := by
  constructor
  · rw [VectorRoundTrips]
    decide
  · rintro ⟨setElems, hset, hmem⟩
    have hnil : paserSet .little (packetList .little [[]]) = some [] := by decide
    obtain rfl := Option.some.inj (hnil.symm.trans hset)
    exact List.not_mem_nil ((hmem []).mpr List.mem_cons_self)

end TonyCat.Database
