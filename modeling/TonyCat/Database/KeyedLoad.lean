import TonyCat.Database.KVRefinement

set_option autoImplicit false

/-! Loads of the elements whose keys the query names: the repeated field that holds the keys gets the elements. -/

namespace TonyCat.Database

open TonyCat.Library

namespace PbMessageKVHandle

variable (H : PbMessageKVHandle)

def IsStub (e : Element) : Prop :=
  ∀ fv ∈ e.fieldValues, isDBKey H.keys e.descriptor fv.1 = false → fv.2 = Value.default fv.2.cppType

def storedElements (store : Store) (op : Bytes × Table) : List Element :=
  op.2.elems.filterMap fun stub =>
    (store.lookup (H.elementKey op.2 op.1 stub)).map (H.rt.parseFromString op.2.descriptor)

/-- Every repeated field that names keys holds just the stored elements after the load. -/
def LoadsKeyed (store : Store) (message : Message) : Prop :=
  ∃ loaded, H.messageLoadOnKV store message = some loaded ∧
    List.Forall₂ (fun op g => op.2.isRepeated = true → op.2.elems ≠ [] → g.elems = H.storedElements store op)
      (H.tableOps [] message) loaded.tables

variable {H}

lemma loadFields_tables {store : Store} {message loaded : Message} {ck : Bytes}
    (h : H.loadFields store ck message = some loaded) :
    List.Forall₂ (fun op g => H.loadTable op.1 store op.2 = some g) (H.tableOps ck message) loaded.tables := by
  induction message generalizing ck loaded with
  | nil =>
    cases h
    exact List.Forall₂.nil
  | cons field message ih =>
    cases field with
    | key f =>
      obtain ⟨rest, hrest, rfl⟩ := Option.map_eq_some_iff.mp h
      have htables := ih hrest
      exact htables
    | table f =>
      obtain ⟨g, hg, h⟩ := Option.bind_eq_some_iff.mp h
      obtain ⟨rest, hrest, rfl⟩ := Option.map_eq_some_iff.mp h
      exact List.Forall₂.cons hg (ih hrest)

lemma loadTable_keyed {store : Store} {ck : Bytes} {f g : Table} (hrep : f.isRepeated = true) (hstubs : f.elems ≠ [])
    (h : H.loadTable ck store f = some g) : g.elems =
      f.elems ++ f.elems.map fun stub => H.rt.parseFromString f.descriptor (store.get (H.elementKey f ck stub)) := by
  rw [loadTable, vecKeySet, if_pos hstubs, if_pos hstubs] at h
  cases h
  rw [(foldl_addParsed f _ hrep).1, List.map_map, List.map_map]
  rfl

lemma length_storedElements_le (store : Store) (op : Bytes × Table) :
    (H.storedElements store op).length ≤ op.2.elems.length :=
  List.length_filterMap_le _ _

lemma exists_both_of_forall₂ {α β : Type*} {r q : α → β → Prop} {l : List α} {l' : List β} (hr : List.Forall₂ r l l')
    (hq : List.Forall₂ q l l') {a : α} (ha : a ∈ l) : ∃ b, r a b ∧ q a b := by
  induction hr with
  | nil => exact absurd ha List.not_mem_nil
  | cons hab _ ih =>
    obtain ⟨hq₁, hqs⟩ := List.forall₂_cons.mp hq
    rcases List.mem_cons.mp ha with rfl | ha
    · exact ⟨_, hab, hq₁⟩
    · exact ih hqs ha

lemma not_loadsKeyed_of_mem {store : Store} {message : Message} {f : Table} (hf : f ∈ message.tables)
    (hrep : f.isRepeated = true) (hstubs : f.elems ≠ []) : ¬ H.LoadsKeyed store message := by
  rintro ⟨loaded, hload, hkeyed⟩
  rw [← H.tableOps_snd message []] at hf
  obtain ⟨op, hop, rfl⟩ := List.mem_map.mp hf
  obtain ⟨g, hg, hexact⟩ := exists_both_of_forall₂ (loadFields_tables hload) hkeyed hop
  -- twice the stubs stand where at most as many elements as stubs are promised
  have hlen := congrArg List.length ((loadTable_keyed hrep hstubs hg).symm.trans (hexact hrep hstubs))
  have hle := H.length_storedElements_le store op
  have hpos := List.length_pos_of_ne_nil hstubs
  rw [List.length_append, List.length_map] at hlen
  omega

theorem not_loadsKeyed {store : Store} {message : Message}
    (hstubs : ∃ f ∈ message.tables, f.isRepeated = true ∧ f.elems ≠ [] ∧ ∀ e ∈ f.elems, H.IsStub e) :
    ¬ H.LoadsKeyed store message := by
  obtain ⟨f, hf, hrep, hne, -⟩ := hstubs
  exact not_loadsKeyed_of_mem hf hrep hne

end PbMessageKVHandle

namespace UserData

open PbMessageKVHandle

/-- One count is asked for by its key; the store has none. -/
theorem not_loadsKeyed_absent : ¬ indexMode.LoadsKeyed ∅ (repeatedTables (ascii "u1") [(1, 1, 0)] []) := by
  have hstub : ∀ fv ∈ (countOf 1 1 0).fieldValues, isDBKey gPbKeys userCount fv.1 = false →
      fv.2 = Value.default fv.2.cppType := by
    decide +kernel
  have hmem : userCounts [(1, 1, 0)] ∈ (repeatedTables (ascii "u1") [(1, 1, 0)] []).tables := List.mem_cons_self
  exact not_loadsKeyed ⟨_, hmem, rfl, List.cons_ne_nil _ _, List.forall_mem_singleton.mpr hstub⟩

/-- The store has the first of two counts: the stubs stay, and the second one is loaded too. -/
theorem not_loadsKeyed_two_counts :
    ¬ indexMode.LoadsKeyed
      ((∅ : Store).put (indexMode.elementKey (userCounts []) (appendRawData .little [] (ascii "u1")) (countOf 1 1 0))
        (indexMode.rt.serializeAsString (countOf 1 1 5)))
      (repeatedTables (ascii "u1") [(1, 1, 0), (1, 2, 0)] []) := by
  have hmem : userCounts [(1, 1, 0), (1, 2, 0)] ∈
      (repeatedTables (ascii "u1") [(1, 1, 0), (1, 2, 0)] []).tables := List.mem_cons_self
  exact not_loadsKeyed_of_mem hmem rfl (List.cons_ne_nil _ _)

end UserData

end TonyCat.Database
