import TonyCat.Database.KeyPath
import TonyCat.Database.KVRefinement
import TonyCat.Database.Footprint

set_option autoImplicit false

/-! Range mode over whole runs: which elements a load by the common keys returns, and which keys the store
holds. -/

namespace TonyCat.Database

open TonyCat.Library

namespace KVCall

variable (H : PbMessageKVHandle)

def isUpdate : KVCall → Bool
  | .update _ => true
  | .delete _ => false

def sets (c : KVCall) : Prop := ∃ f ∈ c.message.tables, f.elems ≠ []

def applyOwned (c : KVCall) (R : List Bytes → Bytes → Rows) (o : List Bytes × Table) : List Bytes → Bytes → Rows :=
  fun us name => if o.1 = us ∧ o.2.name = name then c.applyRows H (R us name) o.2.elems else R us name

end KVCall

def liveRows (H : PbMessageKVHandle) (calls : List KVCall) : List Bytes → Bytes → Rows :=
  calls.foldl (fun R c => (H.owned [] c.message).foldl (c.applyOwned H) R) fun _ _ _ => none

structure RangeExact (H : PbMessageKVHandle) (calls : List KVCall) (m : Message) (store : Store) (loaded : Message) :
    Prop where
  runs : run (KVCall.exec H) ∅ calls = some store
  loads : H.messageLoadOnKV store m = some loaded
  decls : loaded.decls = m.decls
  rows : List.Forall₂ (fun o g => H.LoadsExactly (liveRows H calls o.1 o.2.name) g.elems) (H.owned [] m) loaded.tables
  keys : ∀ k ∈ store, ∃ us name e, liveRows H calls us name (H.dbKeyTexts e) = some e ∧
    k = H.rowKey (slotKey H us name) (H.dbKeyTexts e)

def LastSetIsUpdate (calls : List KVCall) : Prop :=
  ∃ before m after, calls = before ++ KVCall.update m :: after ∧ (KVCall.update m).sets ∧ ∀ c ∈ after, ¬ c.sets

def Few (rows : Rows) : Prop :=
  ∀ kss : List (List Bytes), kss.Nodup → (∀ ks ∈ kss, (rows ks).isSome = true) → kss.length < rangeLimit

/-! ### One table -/

namespace KVCall

def writes (H : PbMessageKVHandle) (p : Bytes) (elems : List Element) (store : Store) : KVCall → Store
  | .update _ => elems.foldl (H.putElement p) store
  | .delete _ => elems.foldl (H.delElement p) store

end KVCall

namespace PbMessageKVHandle

section Tables

variable (H : PbMessageKVHandle)

lemma mem_foldl_put (p k : Bytes) (elems : List Element) (store : Store) :
    k ∈ elems.foldl (H.putElement p) store ↔ k ∈ store ∨ ∃ e ∈ elems, k = H.rowKey p (H.dbKeyTexts e) := by
  induction elems generalizing store with
  | nil => simp
  | cons e elems ih =>
    rw [List.foldl_cons, ih, putElement, Store.put, AList.mem_insert, List.exists_mem_cons_iff, or_assoc,
      or_left_comm]

lemma mem_foldl_del (p k : Bytes) (elems : List Element) (store : Store) :
    k ∈ elems.foldl (H.delElement p) store ↔ k ∈ store ∧ ∀ e ∈ elems, k ≠ H.rowKey p (H.dbKeyTexts e) := by
  induction elems generalizing store with
  | nil => simp
  | cons e elems ih =>
    rw [List.foldl_cons, ih, delElement, Store.del, AList.mem_erase, List.forall_mem_cons]
    tauto

variable {H} (hrange : H.funRang ≠ none)
include hrange

lemma readSetKeys_range (f : Table) (ck : Bytes) (store : Store) : H.readSetKeys f ck store = some [] := by
  rw [readSetKeys, if_neg (by simpa using hrange)]

lemma strCommonKey_range (f : Table) (ck : Bytes) : H.strCommonKey f ck = [] := by
  rw [strCommonKey, if_neg (by simpa using hrange)]

lemma updateTable_range (ck : Bytes) (store : Store) (f : Table) (hrep : f.isRepeated = true) (hne : f.elems ≠ []) :
    ∃ packed, H.updateTable ck store f =
      some ((f.elems.foldl (H.putElement (indexKey f.name ck)) store).put [] packed) := by
  rw [updateTable, if_neg hne, readSetKeys_range hrange, strCommonKey_range hrange, hrep, if_pos rfl, Option.map_some]
  obtain ⟨e, elems, heq⟩ := List.exists_cons_of_ne_nil hne
  have hkeys := H.foldl_updateRepeated_setKeys f ck f.elems ⟨store, [], false⟩ rfl
  have hstore := H.foldl_updateRepeated_store f ck f.elems ⟨store, [], false⟩
  -- the first key is not in the empty set, so the flag is set
  have hfirst : (f.elems.map (H.rowKey (indexKey f.name ck) ∘ H.dbKeyTexts)).find? (· ∉ ([] : List Bytes)) =
      some (H.rowKey (indexKey f.name ck) (H.dbKeyTexts e)) := by
    simp [heq]
  simp only [hfirst] at hkeys
  simp only [hkeys.2, if_true, hstore]
  exact ⟨_, rfl⟩

lemma deleteTable_range (ck : Bytes) (store : Store) (f : Table) (hne : f.elems ≠ []) :
    H.deleteTable ck store f = some ((f.elems.foldl (H.delElement (indexKey f.name ck)) store).del []) := by
  have hnil : ∀ ks : List Bytes, ks.foldl List.erase [] = [] := by
    intro ks
    induction ks with
    | nil => rfl
    | cons k ks ih => exact ih
  rw [deleteTable, if_neg hne, readSetKeys_range hrange, strCommonKey_range hrange, Option.map_some, foldl_deleteElement]
  simp only [hnil, if_true]

lemma tableStep_range (c : KVCall) (ck : Bytes) (store : Store) (f : Table) (hrep : f.isRepeated = true)
    (hne : f.elems ≠ []) : ∃ store', c.tableStep H store (ck, f) = some store' ∧
      (∀ k, k ≠ [] → store'.lookup k = (c.writes H (indexKey f.name ck) f.elems store).lookup k) ∧
      ([] ∈ store' ↔ c.isUpdate = true) := by
  cases c with
  | update m =>
    obtain ⟨packed, hupdate⟩ := updateTable_range hrange ck store f hrep hne
    refine ⟨_, hupdate, fun k hk => AList.lookup_insert_ne hk, ?_⟩
    simp [Store.put, KVCall.isUpdate]
  | delete m =>
    refine ⟨_, deleteTable_range hrange ck store f hne, fun k hk => AList.lookup_erase_ne hk, ?_⟩
    simp [Store.del, KVCall.isUpdate]

end Tables

/-! ### The store and the live elements -/

section Holds

variable {H : PbMessageKVHandle} {S : KeyPathSchema H.keys}

structure RangeHolds (H : PbMessageKVHandle) (S : KeyPathSchema H.keys) (store : Store)
    (R : List Bytes → Bytes → Rows) : Prop where
  entries : ∀ us t, S.Slot us t → Entries H store (slotKey H us t.1) t.2 (R us t.1)
  only : ∀ k ∈ store, k ≠ [] → ∃ us t ks, S.Slot us t ∧ k = H.rowKey (slotKey H us t.1) ks ∧
    (R us t.1 ks).isSome = true

lemma rangeHolds_empty : RangeHolds H S ∅ fun _ _ _ => none :=
  ⟨fun _ _ _ => ⟨nofun, nofun, nofun, nofun⟩, fun k hk => absurd hk (AList.notMem_empty k)⟩

lemma slotKey_ne_nil (us : List Bytes) (name : Bytes) : slotKey H us name ≠ [] := indexKey_ne_nil _ _

lemma sameOutside_writes (c : KVCall) (p : Bytes) (elems : List Element) (store : Store) :
    SameOutside p store (c.writes H p elems store) := by
  cases c with
  | update => exact H.sameOutside_put_elements p elems store
  | delete => exact H.sameOutside_del_elements p elems store

lemma Entries.writes {store : Store} {p : Bytes} {d : Descriptor} {rows : Rows} (c : KVCall)
    (h : Entries H store p d rows) {elems : List Element} (he : ∀ e ∈ elems, Keyed H d e) :
    Entries H (c.writes H p elems store) p d (c.applyRows H rows elems) := by
  cases c with
  | update => exact h.foldl_put he
  | delete => exact h.foldl_del he

lemma applyRows_of_mem (c : KVCall) {p k : Bytes} {elems : List Element} {store : Store} {rows : Rows}
    (hk : k ∈ c.writes H p elems store)
    (hrows : k ∈ store → ∃ ks, k = H.rowKey p ks ∧ (rows ks).isSome = true) :
    ∃ ks, k = H.rowKey p ks ∧ (c.applyRows H rows elems ks).isSome = true := by
  cases c with
  | update =>
    obtain hold | ⟨e, he, rfl⟩ := (H.mem_foldl_put p k elems store).mp hk
    · obtain ⟨ks, rfl, hsome⟩ := hrows hold
      exact ⟨ks, rfl, (H.updateRows_isSome rows elems ks).mpr (.inl hsome)⟩
    · exact ⟨_, rfl, (H.updateRows_isSome rows elems _).mpr (.inr (List.mem_map_of_mem he))⟩
  | delete =>
    obtain ⟨hold, hne⟩ := (H.mem_foldl_del p k elems store).mp hk
    obtain ⟨ks, rfl, hsome⟩ := hrows hold
    refine ⟨ks, rfl, (H.deleteRows_isSome rows elems ks).mpr ⟨hsome, ?_⟩⟩
    rw [List.mem_map]
    rintro ⟨e, he, rfl⟩
    exact hne e he rfl

lemma RangeHolds.of_mem {store : Store} {R : List Bytes → Bytes → Rows} (h : RangeHolds H S store R)
    {us : List Bytes} {t : Bytes × Descriptor} (hslot : S.Slot us t) {k : Bytes} (hk : k ∈ store)
    (hpre : slotKey H us t.1 <+: k) : ∃ ks, k = H.rowKey (slotKey H us t.1) ks ∧ (R us t.1 ks).isSome = true := by
  have hne : k ≠ [] := by
    rintro rfl
    exact slotKey_ne_nil us t.1 (List.prefix_nil.mp hpre)
  obtain ⟨vs, t', ks, hslot', rfl, hsome⟩ := h.only k hk hne
  obtain ⟨rfl, rfl⟩ | hapart := hslot.eq_or_apart hslot'
  · exact ⟨ks, rfl, hsome⟩
  · exact absurd (H.rowKey_prefix _ ks) (hapart.not_initial hpre)

lemma RangeHolds.tableStep (hrange : H.funRang ≠ none) {store : Store} {R : List Bytes → Bytes → Rows}
    (h : RangeHolds H S store R) (c : KVCall) {o : List Bytes × Table}
    (hslot : S.Slot o.1 (o.2.name, o.2.descriptor)) (hrep : o.2.isRepeated = true)
    (hkeyed : ∀ e ∈ o.2.elems, Keyed H o.2.descriptor e) :
    ∃ store', c.tableStep H store (records H.native o.1, o.2) = some store' ∧
      RangeHolds H S store' (c.applyOwned H R o) ∧
      ([] ∈ store' ↔ if o.2.elems = [] then [] ∈ store else c.isUpdate = true) := by
  have hsame : ∀ us name, ¬ (o.1 = us ∧ o.2.name = name) → c.applyOwned H R o us name = R us name :=
    fun us name hne => if_neg hne
  have hown : c.applyOwned H R o o.1 o.2.name = c.applyRows H (R o.1 o.2.name) o.2.elems := if_pos ⟨rfl, rfl⟩
  by_cases hne : o.2.elems = []
  · refine ⟨store, tableStep_unset c store hne, ?_, by rw [if_pos hne]⟩
    have hrows : c.applyOwned H R o = R := by
      funext us name
      by_cases heq : o.1 = us ∧ o.2.name = name
      · obtain ⟨rfl, rfl⟩ := heq
        rw [hown, hne]
        cases c <;> rfl
      · exact hsame us name heq
    rwa [hrows]
  · obtain ⟨store', hstep, hlookup, hempty⟩ := tableStep_range hrange c (records H.native o.1) store o.2 hrep hne
    change ∀ k, k ≠ [] → store'.lookup k = (c.writes H (slotKey H o.1 o.2.name) o.2.elems store).lookup k at hlookup
    refine ⟨store', hstep, ⟨fun us t ht => ?_, fun k hk hknil => ?_⟩, by rw [if_neg hne]; exact hempty⟩
    · have hto : ∀ rows, Entries H (c.writes H (slotKey H o.1 o.2.name) o.2.elems store) (slotKey H us t.1) t.2 rows →
          Entries H store' (slotKey H us t.1) t.2 rows := fun rows hrows =>
        hrows.of_same fun ks _ => hlookup _ (rowKey_ne_nil (slotKey_ne_nil us t.1) ks)
      obtain ⟨rfl, rfl⟩ | hapart := hslot.eq_or_apart ht
      · rw [hown]
        exact hto _ ((h.entries _ _ hslot).writes c hkeyed)
      · have hdiff : ¬ (o.1 = us ∧ o.2.name = t.1) := by
          rintro ⟨rfl, hname⟩
          exact hapart [] [] (by rw [hname])
        rw [hsame us t.1 hdiff]
        refine hto _ ((h.entries us t ht).of_same fun ks _ => ?_)
        exact sameOutside_writes c _ _ store _ (hapart.symm.not_initial (H.rowKey_prefix _ ks))
    · have hk' : k ∈ c.writes H (slotKey H o.1 o.2.name) o.2.elems store := by
        rw [← AList.lookup_isSome, ← hlookup k hknil, AList.lookup_isSome]
        exact hk
      by_cases hpre : slotKey H o.1 o.2.name <+: k
      · obtain ⟨ks, heq, hsome⟩ := applyRows_of_mem c hk' fun hold => h.of_mem hslot hold hpre
        exact ⟨o.1, _, ks, hslot, heq, by rw [hown]; exact hsome⟩
      · have hold : k ∈ store := by
          rw [← AList.lookup_isSome, ← sameOutside_writes c _ o.2.elems store k hpre, AList.lookup_isSome]
          exact hk'
        obtain ⟨us, t, ks, ht, rfl, hsome⟩ := h.only k hold hknil
        refine ⟨us, t, ks, ht, rfl, ?_⟩
        rw [hsame us t.1]
        · exact hsome
        · rintro ⟨rfl, hname⟩
          rw [hname] at hpre
          exact hpre (H.rowKey_prefix _ ks)

end Holds

/-! ### Runs of calls -/

section Run

variable {H : PbMessageKVHandle} {S : KeyPathSchema H.keys}

lemma ops_range (hrange : H.funRang ≠ none) (c : KVCall) {os : List (List Bytes × Table)}
    (hos : ∀ o ∈ os, S.Slot o.1 (o.2.name, o.2.descriptor) ∧ o.2.isRepeated = true ∧
      ∀ e ∈ o.2.elems, Keyed H o.2.descriptor e)
    {store : Store} {R : List Bytes → Bytes → Rows} (h : RangeHolds H S store R) :
    ∃ store', run (c.tableStep H) store (os.map fun o => (records H.native o.1, o.2)) = some store' ∧
      RangeHolds H S store' (os.foldl (c.applyOwned H) R) ∧
      ([] ∈ store' ↔
        (∃ o ∈ os, o.2.elems ≠ []) ∧ c.isUpdate = true ∨ (¬ ∃ o ∈ os, o.2.elems ≠ []) ∧ [] ∈ store) := by
  induction os generalizing store R with
  | nil => exact ⟨store, rfl, h, by simp⟩
  | cons o os ih =>
    obtain ⟨hslot, hrep, hkeyed⟩ := hos o List.mem_cons_self
    obtain ⟨store₁, hstep, h₁, hempty₁⟩ := h.tableStep hrange c hslot hrep hkeyed
    obtain ⟨store₂, hrun, h₂, hempty₂⟩ := ih (fun o' ho' => hos o' (List.mem_cons_of_mem o ho')) h₁
    refine ⟨store₂, ?_, h₂, ?_⟩
    · rw [List.map_cons, run, hstep]
      exact hrun
    · rw [hempty₂, hempty₁, List.exists_mem_cons_iff]
      by_cases hne : o.2.elems = []
      · rw [if_pos hne, or_iff_right (not_not.mpr hne)]
      · rw [if_neg hne]
        by_cases hlater : ∃ o ∈ os, o.2.elems ≠ [] <;> simp only [hlater, hne, ne_eq, not_true, not_false_iff, true_and,
          false_and, or_true, or_false, false_or]

lemma ops_of_typed {m : Message} (h : KeyPathTyped H S m) : ∀ o ∈ H.owned [] m,
    S.Slot o.1 (o.2.name, o.2.descriptor) ∧ o.2.isRepeated = true ∧ ∀ e ∈ o.2.elems, Keyed H o.2.descriptor e := by
  intro o ho
  have hmem := H.mem_owned_tables ho
  exact ⟨h.slot ho, h.repeated hmem, fun e he => ⟨o.2.typed e he, h.texts o.2 hmem e he⟩⟩

lemma sets_iff (c : KVCall) : c.sets ↔ ∃ o ∈ H.owned [] c.message, o.2.elems ≠ [] := by
  rw [KVCall.sets, ← H.owned_tables [] c.message]
  constructor
  · rintro ⟨f, hf, hne⟩
    obtain ⟨o, ho, rfl⟩ := List.mem_map.mp hf
    exact ⟨o, ho, hne⟩
  · rintro ⟨o, ho, hne⟩
    exact ⟨o.2, List.mem_map_of_mem ho, hne⟩

lemma call_range (hrange : H.funRang ≠ none) {c : KVCall} (hc : KeyPathTyped H S c.message) {store : Store}
    {R : List Bytes → Bytes → Rows} (h : RangeHolds H S store R) :
    ∃ store', c.exec H store = some store' ∧
      RangeHolds H S store' ((H.owned [] c.message).foldl (c.applyOwned H) R) ∧
      ([] ∈ store' ↔ c.sets ∧ c.isUpdate = true ∨ ¬ c.sets ∧ [] ∈ store) := by
  obtain ⟨store', hrun, h', hempty⟩ := ops_range hrange c (ops_of_typed hc) h
  have hops := H.tableOps_owned [] c.message
  rw [records_nil] at hops
  refine ⟨store', ?_, h', ?_⟩
  · rw [c.exec_eq, hops, hrun]
  · rw [hempty, sets_iff (H := H)]

lemma lastSetIsUpdate_nil : ¬ LastSetIsUpdate [] := by
  rintro ⟨before, m, after, heq, -⟩
  simp at heq

lemma lastSetIsUpdate_concat (done : List KVCall) (c : KVCall) :
    LastSetIsUpdate (done ++ [c]) ↔ c.sets ∧ c.isUpdate = true ∨ ¬ c.sets ∧ LastSetIsUpdate done := by
  constructor
  · rintro ⟨before, m, after, heq, hsets, hafter⟩
    obtain rfl | ⟨after, last, rfl⟩ := List.eq_nil_or_concat' after
    · obtain ⟨-, hc⟩ := List.append_inj' heq rfl
      cases hc
      exact .inl ⟨hsets, rfl⟩
    · rw [← List.cons_append, ← List.append_assoc] at heq
      obtain ⟨rfl, hc⟩ := List.append_inj' heq rfl
      cases hc
      exact .inr ⟨hafter c (by simp), before, m, after, rfl, hsets, fun d hd => hafter d (by simp [hd])⟩
  · rintro (⟨hsets, hupdate⟩ | ⟨hnot, before, m, after, rfl, hsets, hafter⟩)
    · cases c with
      | update m => exact ⟨done, m, [], rfl, hsets, nofun⟩
      | delete => cases hupdate
    · refine ⟨before, m, after ++ [c], by simp, hsets, fun d hd => ?_⟩
      obtain hd | hd := List.mem_append.mp hd
      · exact hafter d hd
      · rw [List.mem_singleton.mp hd]
        exact hnot

lemma liveRows_concat (done : List KVCall) (c : KVCall) :
    liveRows H (done ++ [c]) = (H.owned [] c.message).foldl (c.applyOwned H) (liveRows H done) := by
  rw [liveRows, List.foldl_concat, ← liveRows]

theorem run_range (hrange : H.funRang ≠ none) {calls : List KVCall} (hcalls : ∀ c ∈ calls, KeyPathTyped H S c.message) :
    ∃ store, run (KVCall.exec H) ∅ calls = some store ∧ RangeHolds H S store (liveRows H calls) ∧
      ([] ∈ store ↔ LastSetIsUpdate calls) := by
  let I (done : List KVCall) (store : Store) : Prop :=
    RangeHolds H S store (liveRows H done) ∧ ([] ∈ store ↔ LastSetIsUpdate done)
  have hinit : I [] ∅ := ⟨rangeHolds_empty, iff_of_false (AList.notMem_empty _) lastSetIsUpdate_nil⟩
  have hstep : ∀ done store c, I done store → KeyPathTyped H S c.message →
      ∃ store', c.exec H store = some store' ∧ I (done ++ [c]) store' := by
    rintro done store c ⟨h, hempty⟩ hc
    obtain ⟨store', hexec, h', hempty'⟩ := call_range hrange hc h
    refine ⟨store', hexec, ?_, ?_⟩
    · rw [liveRows_concat]
      exact h'
    · rw [hempty', hempty, lastSetIsUpdate_concat]
  refine run_invariant hinit hstep calls fun done c hd _ _ => hcalls c (hd.subset ?_)
  exact List.mem_append_right done List.mem_cons_self

end Run

/-! ### Load -/

section Load

variable {H : PbMessageKVHandle} {S : KeyPathSchema H.keys}

lemma append_lt_iff (p a b : Bytes) : p ++ a < p ++ b ↔ a < b := by
  induction p with
  | nil => rfl
  | cons x p ih => rw [List.cons_append, List.cons_append, List.cons_lt_cons_iff, ih]; simp

lemma rowKey_lt_iff (p : Bytes) {ks : List Bytes} (hks : ks ≠ []) :
    H.rowKey p ks < p ++ [0xff] ↔ (records H.native ks).head? ≠ some 0xff := by
  rw [rowKey, append_lt_iff]
  have hne : records H.native ks ≠ [] := fun hnil => hks (records_eq_nil H.native hnil)
  obtain ⟨b, rest, heq⟩ := List.exists_cons_of_ne_nil hne
  rw [heq, List.head?_cons, List.cons_lt_cons_iff, ne_eq, Option.some.injEq]
  have hnil : ¬ rest < [] := List.not_lt_nil rest
  have hmax := b.toNat_lt
  rw [UInt8.lt_iff_toNat_lt, ← UInt8.toNat_inj]
  change b.toNat < 255 ∨ _ ↔ ¬ b.toNat = 255
  constructor
  · rintro (hlt | ⟨-, hrest⟩)
    · omega
    · exact absurd hrest hnil
  · intro hneq
    left
    omega

lemma loadTable_range (hrange : H.funRang = some rangeRead) (us : List Bytes) (store : Store) {f : Table}
    (hnil : f.elems = []) : H.loadTable (records H.native us) store f =
      some (((rangeRead store (slotKey H us f.name) (slotKey H us f.name ++ [0xff]) rangeLimit).map
        Prod.snd).foldl H.addParsed f) := by
  have hkeys : H.vecKeySet (records H.native us) store f = some [] := by
    rw [vecKeySet, if_neg (not_not.mpr hnil), if_neg (by simp [hrange])]
  rw [loadTable, hkeys, if_neg (not_not.mpr hnil), rangeResult]
  simp only [hrange, Option.map_some, List.map_nil, List.foldl_nil, slotKey]

section Pairs

variable {store : Store} {R : List Bytes → Bytes → Rows} {us : List Bytes} {t : Bytes × Descriptor}

lemma RangeHolds.pair (h : RangeHolds H S store R) (hslot : S.Slot us t) {kv : Bytes × Bytes}
    (hkv : kv ∈ rangePairs store (slotKey H us t.1) (slotKey H us t.1 ++ [0xff])) :
    R us t.1 (H.dbKeyTexts (H.rt.parseFromString t.2 kv.2)) = some (H.rt.parseFromString t.2 kv.2) ∧
      kv.1 = H.rowKey (slotKey H us t.1) (H.dbKeyTexts (H.rt.parseFromString t.2 kv.2)) := by
  obtain ⟨hlookup, hbegin, hend⟩ := mem_rangePairs.mp hkv
  have hmem : kv.1 ∈ store := by
    rw [← AList.lookup_isSome, hlookup]
    rfl
  obtain ⟨ks, hkey, hsome⟩ := h.of_mem hslot hmem (prefix_of_range hbegin hend)
  obtain ⟨e, he⟩ := Option.isSome_iff_exists.mp hsome
  have hentries := h.entries us t hslot
  have hparse : H.rt.parseFromString t.2 kv.2 = e := by
    have hfetch := hentries.fetch he
    rwa [← hkey, Store.get, hlookup] at hfetch
  rw [hparse, hentries.texts ks e he]
  exact ⟨he, hkey⟩

lemma RangeHolds.pairs_nodup (h : RangeHolds H S store R) (hslot : S.Slot us t) :
    ((rangePairs store (slotKey H us t.1) (slotKey H us t.1 ++ [0xff])).map
      fun kv => H.dbKeyTexts (H.rt.parseFromString t.2 kv.2)).Nodup := by
  have hkeys := rangePairs_keys_nodup store (slotKey H us t.1) (slotKey H us t.1 ++ [0xff])
  rw [List.map_congr_left fun kv hkv => (h.pair hslot hkv).2] at hkeys
  exact List.Nodup.of_map (H.rowKey (slotKey H us t.1)) (by rw [List.map_map]; exact hkeys)

lemma RangeHolds.pairs_length (h : RangeHolds H S store R) (hslot : S.Slot us t) (hfew : Few (R us t.1)) :
    (rangePairs store (slotKey H us t.1) (slotKey H us t.1 ++ [0xff])).length < rangeLimit := by
  have hlen := hfew _ (h.pairs_nodup hslot) fun ks hks => by
    obtain ⟨kv, hkv, rfl⟩ := List.mem_map.mp hks
    rw [(h.pair hslot hkv).1]
    rfl
  rwa [List.length_map] at hlen

lemma RangeHolds.mem_elems (h : RangeHolds H S store R) (hslot : S.Slot us t) (hkey : dbKeyFields H.keys t.2 ≠ [])
    {e : Element} : e ∈ (rangePairs store (slotKey H us t.1) (slotKey H us t.1 ++ [0xff])).map
        (fun kv => H.rt.parseFromString t.2 kv.2) ↔
      R us t.1 (H.dbKeyTexts e) = some e ∧ (records H.native (H.dbKeyTexts e)).head? ≠ some 0xff := by
  have hentries := h.entries us t hslot
  have hne : ∀ ks x, R us t.1 ks = some x → ks ≠ [] := by
    rintro ks x hx rfl
    exact hkey (List.length_eq_zero_iff.mp (hentries.length hx).symm)
  constructor
  · rw [List.mem_map]
    rintro ⟨kv, hkv, rfl⟩
    obtain ⟨hrow, hkv1⟩ := h.pair hslot hkv
    obtain ⟨-, -, hend⟩ := mem_rangePairs.mp hkv
    rw [hkv1, rowKey_lt_iff _ (hne _ _ hrow)] at hend
    exact ⟨hrow, hend⟩
  · rintro ⟨hrow, hend⟩
    have hlookup := hentries.entry _ e hrow
    refine List.mem_map.mpr ⟨(H.rowKey (slotKey H us t.1) (H.dbKeyTexts e), H.rt.serializeAsString e), ?_, ?_⟩
    · refine mem_rangePairs.mpr ⟨hlookup, List.IsPrefix.le (H.rowKey_prefix _ _), ?_⟩
      exact (rowKey_lt_iff _ (hne _ _ hrow)).mpr hend
    · rw [← hentries.descriptor _ e hrow]
      exact H.rt.parse_serialize e

end Pairs

theorem load_range (hrange : H.funRang = some rangeRead) {store : Store} {R : List Bytes → Bytes → Rows}
    (h : RangeHolds H S store R) {us : List Bytes} {f : Table} (hslot : S.Slot us (f.name, f.descriptor))
    (hrep : f.isRepeated = true) (hnil : f.elems = []) (hfew : Few (R us f.name)) :
    ∃ g, H.loadTable (records H.native us) store f = some g ∧ Field.decl (.table g) = Field.decl (.table f) ∧
      (H.LoadsExactly (R us f.name) g.elems ↔
        ∀ ks, (R us f.name ks).isSome = true → (records H.native ks).head? ≠ some 0xff) := by
  obtain ⟨helems, hdecl⟩ := foldl_addParsed (H := H) f
    ((rangeRead store (slotKey H us f.name) (slotKey H us f.name ++ [0xff]) rangeLimit).map Prod.snd) hrep
  refine ⟨_, loadTable_range hrange us store hnil, hdecl, ?_⟩
  have hperm := (rangeRead_perm (le_of_lt (h.pairs_length hslot hfew))).map
    fun kv => H.rt.parseFromString f.descriptor kv.2
  rw [helems, hnil, List.nil_append, List.map_map]
  have hkey := S.hasKey _ hslot.mem
  have hnodup : (((rangePairs store (slotKey H us f.name) (slotKey H us f.name ++ [0xff])).map
      fun kv => H.rt.parseFromString f.descriptor kv.2).map H.dbKeyTexts).Nodup := by
    rw [List.map_map]
    exact h.pairs_nodup hslot
  constructor
  · rintro ⟨-, hall⟩ ks hsome
    obtain ⟨e, he⟩ := Option.isSome_iff_exists.mp hsome
    have htexts := (h.entries us _ hslot).texts ks e he
    have hmem := (hall e).mpr (by rw [htexts, he])
    rw [← htexts]
    exact ((h.mem_elems hslot hkey).mp (hperm.mem_iff.mp hmem)).2
  · intro hbelow
    refine ⟨(hperm.map H.dbKeyTexts).nodup_iff.mpr hnodup, fun e => ?_⟩
    refine hperm.mem_iff.trans ((h.mem_elems hslot hkey).trans (and_iff_left_of_imp fun he => ?_))
    exact hbelow _ (by rw [he]; rfl)

lemma not_lastSetIsUpdate_of_exact (hrange : H.funRang ≠ none) {calls : List KVCall}
    (hcalls : ∀ c ∈ calls, KeyPathTyped H S c.message) {m : Message} {store : Store} {loaded : Message}
    (hexact : RangeExact H calls m store loaded) : ¬ LastSetIsUpdate calls := by
  intro hlast
  obtain ⟨store', hrun, -, hnil⟩ := run_range hrange hcalls
  obtain rfl : store = store' := Option.some.inj (hexact.runs.symm.trans hrun)
  obtain ⟨us, name, e, -, heq⟩ := hexact.keys [] (hnil.mpr hlast)
  exact rowKey_ne_nil (slotKey_ne_nil us name) _ heq.symm

lemma forall₂_iff_forall {α β : Type*} {r s : α → β → Prop} {p : α → Prop} {l : List α} {l' : List β}
    (h : List.Forall₂ r l l') (hiff : ∀ a ∈ l, ∀ b, r a b → (s a b ↔ p a)) :
    List.Forall₂ s l l' ↔ ∀ a ∈ l, p a := by
  induction h with
  | nil => simp
  | cons hab _ ih =>
    rw [List.forall₂_cons, List.forall_mem_cons, ih fun a ha => hiff a (List.mem_cons_of_mem _ ha),
      hiff _ List.mem_cons_self _ hab]

theorem rangeMode_exact_iff (hrange : H.funRang = some rangeRead) {calls : List KVCall}
    (hcalls : ∀ c ∈ calls, KeyPathTyped H S c.message) {m : Message} (hm : KeyPathTyped H S m)
    (hempty : ∀ f ∈ m.tables, f.elems = []) (hfew : ∀ o ∈ H.owned [] m, Few (liveRows H calls o.1 o.2.name)) :
    (∃ store loaded, RangeExact H calls m store loaded) ↔
      ¬ LastSetIsUpdate calls ∧ ∀ o ∈ H.owned [] m, ∀ ks, (liveRows H calls o.1 o.2.name ks).isSome = true →
        (records H.native ks).head? ≠ some 0xff := by
  have hset : H.funRang ≠ none := by
    rw [hrange]
    exact Option.some_ne_none _
  obtain ⟨store, hrun, h, hnil⟩ := run_range hset hcalls
  have hload : ∀ o ∈ H.owned [] m, ∃ g, H.loadTable (records H.native o.1) store o.2 = some g ∧
      Field.decl (.table g) = Field.decl (.table o.2) ∧
      (H.LoadsExactly (liveRows H calls o.1 o.2.name) g.elems ↔
        ∀ ks, (liveRows H calls o.1 o.2.name ks).isSome = true → (records H.native ks).head? ≠ some 0xff) := by
    intro o ho
    have hmem := H.mem_owned_tables ho
    exact load_range hrange h (hm.slot ho) (hm.repeated hmem) (hempty _ hmem) (hfew o ho)
  have hops := H.tableOps_owned [] m
  rw [records_nil] at hops
  obtain ⟨loaded, hloaded, hdecls, htables⟩ := loadFields_spec m [] fun op hop => by
    rw [hops, List.mem_map] at hop
    obtain ⟨o, ho, rfl⟩ := hop
    exact (hload o ho).imp fun g hg => ⟨hg.1, hg.2.1⟩
  rw [hops, List.forall₂_map_left_iff] at htables
  have hrows : List.Forall₂ (fun o g => H.LoadsExactly (liveRows H calls o.1 o.2.name) g.elems) (H.owned [] m)
      loaded.tables ↔ ∀ o ∈ H.owned [] m, ∀ ks, (liveRows H calls o.1 o.2.name ks).isSome = true →
        (records H.native ks).head? ≠ some 0xff := by
    refine forall₂_iff_forall htables fun o ho g hg => ?_
    obtain ⟨g', hg', -, hiff⟩ := hload o ho
    obtain rfl : g = g' := Option.some.inj (hg.symm.trans hg')
    exact hiff
  constructor
  · rintro ⟨store', loaded', hexact⟩
    obtain rfl : store' = store := Option.some.inj (hexact.runs.symm.trans hrun)
    obtain rfl : loaded' = loaded := Option.some.inj (hexact.loads.symm.trans hloaded)
    exact ⟨not_lastSetIsUpdate_of_exact hset hcalls hexact, hrows.mp hexact.rows⟩
  · rintro ⟨hlast, hbelow⟩
    refine ⟨store, loaded, hrun, hloaded, hdecls, hrows.mpr hbelow, fun k hk => ?_⟩
    have hne : k ≠ [] := by
      rintro rfl
      exact hlast (hnil.mp hk)
    obtain ⟨us, t, ks, hslot, rfl, hsome⟩ := h.only k hk hne
    obtain ⟨e, he⟩ := Option.isSome_iff_exists.mp hsome
    have htexts := (h.entries us t hslot).texts ks e he
    exact ⟨us, t.1, e, by rw [htexts, he], by rw [htexts]⟩

end Load

section Written

variable (H : PbMessageKVHandle)

def written (calls : List KVCall) : List (List Bytes) :=
  calls.flatMap fun c => c.message.tables.flatMap fun f => f.elems.map H.dbKeyTexts

variable {H}

lemma foldl_applyOwned_isSome (c : KVCall) {us : List Bytes} {name : Bytes} {ks : List Bytes}
    (os : List (List Bytes × Table)) (R : List Bytes → Bytes → Rows)
    (h : (os.foldl (c.applyOwned H) R us name ks).isSome = true) :
    (R us name ks).isSome = true ∨ ∃ o ∈ os, ks ∈ o.2.elems.map H.dbKeyTexts := by
  induction os generalizing R with
  | nil => exact .inl h
  | cons o os ih =>
    obtain hone | ⟨o', ho', hmem⟩ := ih _ h
    · by_cases hslot : o.1 = us ∧ o.2.name = name
      · rw [KVCall.applyOwned, if_pos hslot] at hone
        cases c with
        | update =>
          obtain hold | hmem := (H.updateRows_isSome _ _ ks).mp hone
          · exact .inl hold
          · exact .inr ⟨o, List.mem_cons_self, hmem⟩
        | delete => exact .inl ((H.deleteRows_isSome _ _ ks).mp hone).1
      · rw [KVCall.applyOwned, if_neg hslot] at hone
        exact .inl hone
    · exact .inr ⟨o', List.mem_cons_of_mem o ho', hmem⟩

lemma liveRows_written {calls : List KVCall} {us : List Bytes} {name : Bytes} {ks : List Bytes}
    (h : (liveRows H calls us name ks).isSome = true) : ks ∈ written H calls := by
  induction calls using List.reverseRecOn with
  | nil => cases h
  | append_singleton done c ih =>
    rw [liveRows_concat] at h
    rw [written, List.flatMap_append, List.mem_append]
    obtain hold | ⟨o, ho, hmem⟩ := foldl_applyOwned_isSome c _ _ h
    · exact .inl (ih hold)
    · refine .inr (List.mem_flatMap.mpr ⟨c, List.mem_singleton_self c, List.mem_flatMap.mpr ?_⟩)
      exact ⟨o.2, H.mem_owned_tables ho, hmem⟩

lemma few_of_written {calls : List KVCall} (hlen : (written H calls).length < rangeLimit) (us : List Bytes)
    (name : Bytes) : Few (liveRows H calls us name) := by
  intro kss hnodup hlive
  have hsub : kss ⊆ written H calls := fun ks hks => liveRows_written (hlive ks hks)
  exact lt_of_le_of_lt (List.subperm_of_subset hnodup hsub).length_le hlen

end Written

end PbMessageKVHandle

namespace UserData

open PbMessageKVHandle

noncomputable def rangeMode : PbMessageKVHandle := { indexMode with funRang := some rangeRead }

def repeatedKeyPath : KeyPathSchema gPbKeys where
  decls := repeatedSchema.decls
  repeated := by simp [repeatedSchema, Schema.decls, Schema.tableDecl]
  hasKey := by decide
  nodup := by decide
  noSpacer := by decide

lemma keyPathTyped_repeatedTables {user_id : Bytes} {counts : List (Int32 × Int32 × Int32)}
    {caches : List (Int64 × Int64)} (hu : user_id.length < 2 ^ 32)
    (hs : ∀ f ∈ (repeatedTables user_id counts caches).tables, ∀ e ∈ f.elems,
      ∀ xs ∈ rangeMode.dbKeyTexts e, xs.length < 2 ^ 32) :
    KeyPathTyped rangeMode repeatedKeyPath (repeatedTables user_id counts caches) := by
  refine ⟨repeatedTables_decls _ _ _, fun f hf => ?_, hs⟩
  obtain rfl : f = userId user_id := by simpa [repeatedTables] using hf
  exact hu

theorem rangeMode_update_delete :
    ∃ store loaded, RangeExact rangeMode [.update (repeatedTables (ascii "u1") [(1, 1, 5), (1, 2, 6)] [(7, 0)]),
      .delete (repeatedTables (ascii "u1") [(1, 1, 0)] [])] (repeatedTables (ascii "u1") [] []) store loaded := by
  have htyped : ∀ c ∈ [KVCall.update (repeatedTables (ascii "u1") [(1, 1, 5), (1, 2, 6)] [(7, 0)]),
      .delete (repeatedTables (ascii "u1") [(1, 1, 0)] [])], KeyPathTyped rangeMode repeatedKeyPath c.message := by
    rw [List.forall_mem_cons, List.forall_mem_singleton]
    exact ⟨keyPathTyped_repeatedTables (by decide) (by decide +kernel),
      keyPathTyped_repeatedTables (by decide) (by decide +kernel)⟩
  refine (rangeMode_exact_iff rfl htyped (keyPathTyped_repeatedTables (by decide) (by decide +kernel))
    (by decide +kernel) fun o _ => few_of_written (by decide +kernel) o.1 o.2.name).mpr ⟨?_, ?_⟩
  · intro hlast
    obtain ⟨-, hdelete⟩ | ⟨hunset, -⟩ := (lastSetIsUpdate_concat [_] _).mp hlast
    · cases hdelete
    · exact hunset ⟨userCounts [(1, 1, 0)], List.mem_cons_self, List.cons_ne_nil _ _⟩
  · intro o _ ks hlive
    have hshort : ∀ ks ∈ written rangeMode [KVCall.update (repeatedTables (ascii "u1") [(1, 1, 5), (1, 2, 6)] [(7, 0)]),
        .delete (repeatedTables (ascii "u1") [(1, 1, 0)] [])], (records rangeMode.native ks).head? ≠ some 0xff := by
      decide +kernel
    exact hshort ks (liveRows_written hlive)

/-- One update leaves the empty key, with the packed key of the element, in the store. -/
theorem not_rangeExact_update :
    KeyPathTyped rangeMode repeatedKeyPath (repeatedTables (ascii "u1") [(1, 1, 5)] []) ∧
      (∀ us name, Few (liveRows rangeMode [.update (repeatedTables (ascii "u1") [(1, 1, 5)] [])] us name)) ∧
      ¬ ∃ store loaded, RangeExact rangeMode [.update (repeatedTables (ascii "u1") [(1, 1, 5)] [])]
        (repeatedTables (ascii "u1") [] []) store loaded := by
  have htyped : KeyPathTyped rangeMode repeatedKeyPath (repeatedTables (ascii "u1") [(1, 1, 5)] []) :=
    keyPathTyped_repeatedTables (by decide) (by decide +kernel)
  refine ⟨htyped, few_of_written (by decide +kernel), ?_⟩
  rintro ⟨store, loaded, hexact⟩
  refine not_lastSetIsUpdate_of_exact (Option.some_ne_none _) (List.forall_mem_singleton.mpr htyped) hexact
    ⟨[], _, [], rfl, ?_, List.forall_mem_nil _⟩
  exact ⟨userCounts [(1, 1, 5)], List.mem_cons_self, List.cons_ne_nil _ _⟩

end UserData

end TonyCat.Database
