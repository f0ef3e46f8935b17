import Mathlib.Data.Finmap
import TonyCat.Database.ColumnText

set_option autoImplicit false

/-! The cells of a configuration: `config_field_paser.cpp`, as far as maps of numbers and strings go. -/

namespace TonyCat.Utility

open TonyCat.Library
open TonyCat.Http (atoll)
open TonyCat.Database (atoi textOfInt decimal)

/-- What a `const char*` points to, up to the NUL. -/
structure CString where
  bytes : Bytes
  notMem_nul : 0 ∉ bytes

def cStr (s : Bytes) : CString where
  bytes := s.takeWhile (· ≠ 0)
  notMem_nul h := by simpa using List.mem_takeWhile_imp h

/-- `piece` is what stands between `pIndexStart` and `pIndexEnd`. -/
def splitLoop (cSplit : UInt8) (piece : Bytes) : Bytes → List Bytes
  | [] => [piece]
  | b :: bs => if cSplit = b then piece :: splitLoop cSplit [] bs else splitLoop cSplit (piece ++ [b]) bs

/-- `none` for the null pointer. -/
def splitString (pData : Option CString) (vecResult : List Bytes) (cSplit : UInt8) : List Bytes :=
  match pData with
  | none => vecResult
  | some s => if s.bytes = [] then vecResult else vecResult ++ splitLoop cSplit [] s.bytes

def splitStringString (pData : Option CString) (vecResult : List (List Bytes)) (cSplitFirst cSplitSecond : UInt8) :
    List (List Bytes) :=
  match pData with
  | none => vecResult
  | some s => (splitString (some s) [] cSplitSecond).foldl
      (fun vecResult elemStringResult => vecResult ++ [splitString (some (cStr elemStringResult)) [] cSplitFirst])
      vecResult

def configValueToInt32 (pData : CString) : Int32 := atoi pData.bytes

def configValueToInt64 (pData : CString) : Int64 := atoll pData.bytes

abbrev ConfigMap (K V : Type) := Finmap fun _ : K => V

section Maps

variable {K V : Type} [DecidableEq K]

/-- The map parsers, but for the types of keys and values: how one is read from the pieces of an entry, and what it is
when there are too few of them. -/
def configValueToMap (key : Bytes → K) (nKey : K) (value : Bytes → V) (nValue : V) (pData : Option CString)
    (mapResult : ConfigMap K V) : ConfigMap K V × Bool :=
  ((splitStringString pData [] 58 124).foldl (fun mapResult elemVecResult =>
    mapResult.insert ((elemVecResult[0]?.map key).getD nKey) ((elemVecResult[1]?.map value).getD nValue)) mapResult, true)

end Maps

def readInt32 (s : Bytes) : Int32 := configValueToInt32 (cStr s)

def readInt64 (s : Bytes) : Int64 := configValueToInt64 (cStr s)

def configValueToInt32MapInt32 := configValueToMap readInt32 0 readInt32 0

def configValueToInt32MapInt64 := configValueToMap readInt32 0 readInt64 0

def configValueToInt32MapString := configValueToMap readInt32 0 (id : Bytes → Bytes) []

def configValueToInt64MapInt32 := configValueToMap readInt64 0 readInt32 0

def configValueToInt64MapInt64 := configValueToMap readInt64 0 readInt64 0

def configValueToInt64MapString := configValueToMap readInt64 0 (id : Bytes → Bytes) []

def configValueToStringMapInt32 := configValueToMap (id : Bytes → Bytes) [] readInt32 0

def configValueToStringMapInt64 := configValueToMap (id : Bytes → Bytes) [] readInt64 0

def configValueToStringMapString := configValueToMap (id : Bytes → Bytes) [] (id : Bytes → Bytes) []

lemma cStr_bytes {s : Bytes} (h : 0 ∉ s) : (cStr s).bytes = s := by
  apply List.takeWhile_eq_self_iff.mpr
  intro b hb
  exact decide_eq_true fun hnul => h (hnul ▸ hb)

lemma splitLoop_eq (cSplit : UInt8) (piece s : Bytes) :
    splitLoop cSplit piece s = (s.splitOn cSplit).modifyHead (piece ++ ·) := by
  induction s generalizing piece with
  | nil => rw [splitLoop, List.splitOn_nil, List.modifyHead_cons, List.append_nil]
  | cons b bs ih =>
    rw [splitLoop, List.splitOn_cons_eq_if_modifyHead]
    by_cases hb : cSplit = b
    · have hhead : (bs.splitOn cSplit).modifyHead ([] ++ ·) = bs.splitOn cSplit := congrFun List.modifyHead_id _
      rw [if_pos hb, if_pos (beq_iff_eq.mpr hb.symm), ih, hhead, List.modifyHead_cons, List.append_nil]
    · rw [if_neg hb, if_neg fun heq => hb (beq_iff_eq.mp heq).symm, ih, List.modifyHead_modifyHead]
      congr 1
      funext tail
      exact List.append_assoc ..

lemma splitString_eq {s : CString} (h : s.bytes ≠ []) (cSplit : UInt8) :
    splitString (some s) [] cSplit = s.bytes.splitOn cSplit := by
  rw [splitString, if_neg h, List.nil_append, splitLoop_eq]
  exact congrFun List.modifyHead_id _

lemma intercalate_splitString (s : CString) (cSplit : UInt8) :
    [cSplit].intercalate (splitString (some s) [] cSplit) = s.bytes := by
  by_cases h : s.bytes = []
  · rw [splitString, if_pos h, h]
    rfl
  · rw [splitString_eq h, List.intercalate_splitOn]

lemma splitStringString_eq (s : CString) (cSplitFirst cSplitSecond : UInt8) :
    splitStringString (some s) [] cSplitFirst cSplitSecond =
      (splitString (some s) [] cSplitSecond).map fun piece => splitString (some (cStr piece)) [] cSplitFirst := by
  have hfold : ∀ (pieces : List Bytes) (vec : List (List Bytes)),
      pieces.foldl (fun vec piece => vec ++ [splitString (some (cStr piece)) [] cSplitFirst]) vec =
        vec ++ pieces.map fun piece => splitString (some (cStr piece)) [] cSplitFirst := by
    intro pieces
    induction pieces with
    | nil => exact fun vec => (List.append_nil vec).symm
    | cons piece pieces ih =>
      intro vec
      rw [List.foldl_cons, ih, List.append_assoc, List.map_cons, List.singleton_append]
  exact hfold _ []

/-- The text of a key or value, which holds no separator and no NUL and is read back. -/
structure Cell (α : Type) where
  text : α → Bytes
  read : Bytes → α
  Fits : α → Prop
  clean : ∀ a, Fits a → ∀ b ∈ text a, b ≠ 58 ∧ b ≠ 124 ∧ b ≠ 0
  read_text : ∀ a, Fits a → read (text a) = a

lemma clean_textOfInt (z : ℤ) : ∀ b ∈ textOfInt z, b ≠ 58 ∧ b ≠ 124 ∧ b ≠ 0 := by
  have hdigits : ∀ b ∈ decimal z.natAbs, b ≠ 58 ∧ b ≠ 124 ∧ b ≠ 0 := by
    intro b hb
    obtain ⟨c, hc, rfl⟩ := List.mem_map.mp hb
    obtain ⟨hdigit, -⟩ := Http.isDigit_ofNat (Nat.isDigit_of_mem_toDigits (by decide) (by decide) hc)
    refine ⟨?_, ?_, ?_⟩
    all_goals
      intro heq
      rw [heq] at hdigit
      exact absurd hdigit (by decide)
  intro b hb
  rw [textOfInt] at hb
  split at hb
  · obtain rfl | hb := List.mem_cons.mp hb
    · decide
    · exact hdigits b hb
  · exact hdigits b hb

lemma cStr_textOfInt (z : ℤ) : (cStr (textOfInt z)).bytes = textOfInt z :=
  cStr_bytes fun hnul => (clean_textOfInt z 0 hnul).2.2 rfl

def int32Cell : Cell Int32 where
  text v := textOfInt v.toInt
  read := readInt32
  Fits _ := True
  clean v _ := clean_textOfInt v.toInt
  read_text v _ := by rw [readInt32, configValueToInt32, cStr_textOfInt, Database.atoi_int32]

def int64Cell : Cell Int64 where
  text v := textOfInt v.toInt
  read := readInt64
  Fits _ := True
  clean v _ := clean_textOfInt v.toInt
  read_text v _ := by rw [readInt64, configValueToInt64, cStr_textOfInt, Database.atoll_int64]

def stringCell : Cell Bytes where
  text := id
  read := id
  Fits s := ∀ b ∈ s, b ≠ 58 ∧ b ≠ 124 ∧ b ≠ 0
  clean _ h := h
  read_text _ _ := rfl

section Maps

variable {K V : Type} (key : Cell K) (value : Cell V)

def entryText (e : Σ _ : K, V) : Bytes := key.text e.1 ++ 58 :: value.text e.2

def mapText (entries : List (Σ _ : K, V)) : Bytes := [124].intercalate (entries.map (entryText key value))

variable {key value} {entries : List (Σ _ : K, V)} {e : Σ _ : K, V}

lemma clean_entryText (hkey : key.Fits e.1) (hvalue : value.Fits e.2) :
    124 ∉ entryText key value e ∧ 0 ∉ entryText key value e := by
  have hclean : ∀ b ∈ entryText key value e, b ≠ 124 ∧ b ≠ 0 := by
    intro b hmem
    rcases List.mem_append.mp hmem with hmem | hmem
    · exact (key.clean _ hkey b hmem).2
    · rcases List.mem_cons.mp hmem with rfl | hmem
      · decide
      · exact (value.clean _ hvalue b hmem).2
  exact ⟨fun hmem => (hclean _ hmem).1 rfl, fun hmem => (hclean _ hmem).2 rfl⟩

variable (key value) in
lemma entryText_ne_nil (e : Σ _ : K, V) : entryText key value e ≠ [] :=
  List.append_ne_nil_of_right_ne_nil _ (List.cons_ne_nil _ _)

lemma splitString_entryText (hkey : key.Fits e.1) (hvalue : value.Fits e.2) :
    splitString (some (cStr (entryText key value e))) [] 58 = [key.text e.1, value.text e.2] := by
  have hnul := (clean_entryText hkey hvalue).2
  rw [splitString_eq (by rw [cStr_bytes hnul]; exact entryText_ne_nil key value e), cStr_bytes hnul, entryText,
    List.splitOn_append_cons_self_of_not_mem fun hmem => (key.clean _ hkey 58 hmem).1 rfl,
    List.splitOn_eq_singleton fun hmem => (value.clean _ hvalue 58 hmem).1 rfl]

lemma notMem_mapText (hfits : ∀ e ∈ entries, key.Fits e.1 ∧ value.Fits e.2) : 0 ∉ mapText key value entries := by
  induction entries with
  | nil => exact List.not_mem_nil
  | cons e entries ih =>
    obtain ⟨⟨hkey, hvalue⟩, hrest⟩ := List.forall_mem_cons.mp hfits
    have hnul := (clean_entryText hkey hvalue).2
    cases entries with
    | nil => simpa [mapText] using hnul
    | cons e' entries =>
      have hsplit : mapText key value (e :: e' :: entries) =
          entryText key value e ++ 124 :: mapText key value (e' :: entries) := by
        rw [mapText, List.map_cons, List.intercalate_cons_of_ne_nil (by simp)]
        simp [mapText]
      rw [hsplit, List.mem_append, List.mem_cons, not_or, not_or]
      exact ⟨hnul, by decide, ih hrest⟩

lemma splitString_mapText (hfits : ∀ e ∈ entries, key.Fits e.1 ∧ value.Fits e.2) :
    splitString (some (cStr (mapText key value entries))) [] 124 = entries.map (entryText key value) := by
  have hbytes := cStr_bytes (notMem_mapText hfits)
  cases entries with
  | nil => rfl
  | cons e entries =>
    have hne : mapText key value (e :: entries) ≠ [] := by
      have hfirst := entryText_ne_nil key value e
      cases entries with
      | nil => simpa [mapText] using hfirst
      | cons e' entries => simp [mapText, List.intercalate_cons_of_ne_nil, hfirst]
    rw [splitString_eq (by rwa [hbytes]), hbytes, mapText, List.splitOn_intercalate _ _ (by simp)]
    intro line hline
    obtain ⟨e', hmem, rfl⟩ := List.mem_map.mp hline
    obtain ⟨hkey, hvalue⟩ := hfits e' hmem
    exact (clean_entryText hkey hvalue).1

lemma splitStringString_mapText (hfits : ∀ e ∈ entries, key.Fits e.1 ∧ value.Fits e.2) :
    splitStringString (some (cStr (mapText key value entries))) [] 58 124 =
      entries.map fun e => [key.text e.1, value.text e.2] := by
  rw [splitStringString_eq, splitString_mapText hfits, List.map_map]
  apply List.map_congr_left
  intro e hmem
  obtain ⟨hkey, hvalue⟩ := hfits e hmem
  exact splitString_entryText hkey hvalue

variable [DecidableEq K]

lemma entries_foldl_insert {m : ConfigMap K V} (hnodup : (entries.map Sigma.fst).Nodup)
    (hnew : ∀ e ∈ entries, e.1 ∉ m) :
    (entries.foldl (fun m e => m.insert e.1 e.2) m).entries = m.entries + (entries : Multiset (Σ _ : K, V)) := by
  induction entries generalizing m with
  | nil => exact (add_zero _).symm
  | cons e entries ih =>
    obtain ⟨hfirst, hrest⟩ := List.nodup_cons.mp hnodup
    rw [List.foldl_cons, ih hrest, Finmap.entries_insert_of_notMem (hnew e List.mem_cons_self),
      ← Multiset.cons_coe, Multiset.cons_add, Multiset.add_cons]
    intro e' hmem hin
    rcases Finmap.mem_insert.mp hin with heq | hin
    · exact hfirst (heq ▸ List.mem_map_of_mem hmem)
    · exact hnew e' (List.mem_cons_of_mem _ hmem) hin

def Decodes (key : Cell K) (value : Cell V) (paser : Option CString → ConfigMap K V → ConfigMap K V × Bool) : Prop :=
  ∀ (m : ConfigMap K V) (entries : List (Σ _ : K, V)), (entries : Multiset (Σ _ : K, V)) = m.entries →
    (∀ e ∈ entries, key.Fits e.1 ∧ value.Fits e.2) →
      paser (some (cStr (mapText key value entries))) ∅ = (m, true)

lemma decodes_configValueToMap (key : Cell K) (value : Cell V) (nKey : K) (nValue : V) :
    Decodes key value (configValueToMap key.read nKey value.read nValue) := by
  intro m entries hentries hfits
  have hnodup : (entries.map Sigma.fst).Nodup := by
    have hkeys := m.nodupKeys
    rw [← hentries] at hkeys
    exact hkeys
  have hread : ∀ e ∈ entries, ∀ m : ConfigMap K V,
      m.insert (([key.text e.1, value.text e.2][0]?.map key.read).getD nKey)
        (([key.text e.1, value.text e.2][1]?.map value.read).getD nValue) = m.insert e.1 e.2 := by
    intro e hmem m
    obtain ⟨hkey, hvalue⟩ := hfits e hmem
    simp [key.read_text _ hkey, value.read_text _ hvalue]
  rw [configValueToMap, splitStringString_mapText hfits, List.foldl_map,
    List.foldl_ext _ (fun m e => m.insert e.1 e.2) _ fun m e hmem => hread e hmem m]
  congr 1
  apply Finmap.ext
  rw [entries_foldl_insert hnodup fun _ _ => Finmap.notMem_empty, hentries]
  exact zero_add _

end Maps

theorem config_maps_decode :
    (Decodes int32Cell int32Cell configValueToInt32MapInt32 ∧
      Decodes int32Cell int64Cell configValueToInt32MapInt64 ∧
      Decodes int32Cell stringCell configValueToInt32MapString ∧
      Decodes int64Cell int32Cell configValueToInt64MapInt32 ∧
      Decodes int64Cell int64Cell configValueToInt64MapInt64 ∧
      Decodes int64Cell stringCell configValueToInt64MapString ∧
      Decodes stringCell int32Cell configValueToStringMapInt32 ∧
      Decodes stringCell int64Cell configValueToStringMapInt64 ∧
      Decodes stringCell stringCell configValueToStringMapString) ∧
    ∀ (s : CString) (cSplit : UInt8), [cSplit].intercalate (splitString (some s) [] cSplit) = s.bytes :=
  ⟨⟨decodes_configValueToMap _ _ _ _, decodes_configValueToMap _ _ _ _, decodes_configValueToMap _ _ _ _,
    decodes_configValueToMap _ _ _ _, decodes_configValueToMap _ _ _ _, decodes_configValueToMap _ _ _ _,
    decodes_configValueToMap _ _ _ _, decodes_configValueToMap _ _ _ _, decodes_configValueToMap _ _ _ _⟩,
    intercalate_splitString⟩

theorem config_maps_decode_two :
    configValueToStringMapInt32 (some (cStr (Http.text "ab:-7|:12"))) ∅ =
      (((∅ : ConfigMap Bytes Int32).insert (Http.text "ab") (-7)).insert [] 12, true) := by
  have htext : Http.text "ab:-7|:12" = mapText stringCell int32Cell [⟨Http.text "ab", -7⟩, ⟨[], 12⟩] := by decide
  have hdecodes := config_maps_decode.1.2.2.2.2.2.2.1
  rw [htext]
  apply hdecodes
  · have hnew : [] ∉ (∅ : ConfigMap Bytes Int32).insert (Http.text "ab") (-7) := by
      rw [Finmap.mem_insert, not_or]
      exact ⟨by decide, Finmap.notMem_empty⟩
    rw [Finmap.entries_insert_of_notMem hnew, Finmap.entries_insert_of_notMem Finmap.notMem_empty]
    exact Multiset.coe_eq_coe.mpr (List.Perm.swap ..)
  have hkeys : ∀ e ∈ [(⟨Http.text "ab", -7⟩ : Σ _ : Bytes, Int32), ⟨[], 12⟩], ∀ b ∈ e.1, b ≠ 58 ∧ b ≠ 124 ∧ b ≠ 0 := by
    have hall : [(⟨Http.text "ab", -7⟩ : Σ _ : Bytes, Int32), ⟨[], 12⟩].all (fun e =>
        e.1.all fun b => b ≠ 58 ∧ b ≠ 124 ∧ b ≠ 0) = true := by decide
    simpa only [List.all_eq_true, decide_eq_true_eq] using hall
  exact fun e hmem => ⟨hkeys e hmem, trivial⟩

end TonyCat.Utility
