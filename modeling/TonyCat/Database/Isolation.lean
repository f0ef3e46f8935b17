import TonyCat.Database.Footprint
import TonyCat.Database.KVRefinement

set_option autoImplicit false

/-! A call for one user leaves every entry alone that a load for another user reads, and every entry
of the tables that its message does not set. -/

namespace TonyCat.Database

open TonyCat.Library

namespace PbMessageKVHandle

variable {H : PbMessageKVHandle}

/-- A message with one common key. The tables in front of it, which `shared` names, belong to no user. -/
structure OneKey (H : PbMessageKVHandle) (shared : Bytes → Prop) (m : Message) : Prop where
  fields : ∃ (front : List Table) (key : CommonKey) (back : List Table),
    m = front.map Field.table ++ .key key :: back.map Field.table ∧
      (∀ f ∈ front, shared f.name) ∧ ∀ f ∈ back, ¬ shared f.name
  short : (H.userText m).length < 2 ^ 32
  names : ∀ f ∈ m.tables, Identifier f.name
  hasKey : ∀ f ∈ m.tables, dbKeyFields H.keys f.descriptor ≠ []

variable {shared : Bytes → Prop}

def IsSlot (native : Endian) (shared : Bytes → Prop) (u name p : Bytes) : Prop :=
  Identifier name ∧ u.length < 2 ^ 32 ∧
    ((shared name ∧ p = indexKey name []) ∨ (¬ shared name ∧ p = indexKey name (record native u)))

lemma IsSlot.ne_nil {native : Endian} {u name p : Bytes} (h : IsSlot native shared u name p) : p ≠ [] := by
  obtain ⟨_, _, ⟨_, rfl⟩ | ⟨_, rfl⟩⟩ := h <;> exact indexKey_ne_nil _ _

lemma IsSlot.apart {native : Endian} {u v name name' p q : Bytes} (h : IsSlot native shared u name p)
    (h' : IsSlot native shared v name' q) (hne : name = name' → u ≠ v ∧ ¬ shared name) : Apart p q := by
  obtain ⟨hn, hu, hp⟩ := h
  obtain ⟨hn', hv, hq⟩ := h'
  have hs : (35 : UInt8) ∉ name := hn.not_mem rfl
  have hs' : (35 : UInt8) ∉ name' := hn'.not_mem rfl
  by_cases hname : name = name'
  · obtain ⟨huv, hown⟩ := hne hname
    subst hname
    obtain ⟨hp, _⟩ | ⟨_, rfl⟩ := hp
    · exact (hown hp).elim
    obtain ⟨hq, _⟩ | ⟨_, rfl⟩ := hq
    · exact (hown hq).elim
    exact apart_of_user hs hu hv huv
  · obtain ⟨_, rfl⟩ | ⟨_, rfl⟩ := hp <;> obtain ⟨_, rfl⟩ | ⟨_, rfl⟩ := hq <;> exact apart_of_table hs hs' hname

lemma IsSlot.apart_of_ne {native : Endian} {u v name name' p q : Bytes} (h : IsSlot native shared u name p)
    (h' : IsSlot native shared v name' q) (hne : p ≠ q) : Apart p q := by
  apply h.apart h'
  rintro rfl
  obtain ⟨_, _, ⟨hp, rfl⟩ | ⟨hp, rfl⟩⟩ := h <;> obtain ⟨_, _, ⟨hq, rfl⟩ | ⟨hq, rfl⟩⟩ := h'
  · exact (hne rfl).elim
  · exact (hq hp).elim
  · exact (hp hq).elim
  · exact ⟨fun huv => hne (huv ▸ rfl), hp⟩

lemma tableOps_tables (tables : List Table) (ck : Bytes) :
    H.tableOps ck (tables.map Field.table) = tables.map fun f => (ck, f) := by
  induction tables with
  | nil => rfl
  | cons f tables ih => simp only [List.map_cons, tableOps, ih]

lemma tableOps_around_key (front back : List Table) (key : CommonKey) :
    H.tableOps [] (front.map Field.table ++ .key key :: back.map Field.table) =
        front.map (fun f => ([], f)) ++ back.map (fun f => (record H.native (H.keyText key), f)) ∧
      H.userText (front.map Field.table ++ .key key :: back.map Field.table) = H.keyText key := by
  induction front with
  | nil => simp [tableOps, appendRawData_eq, tableOps_tables, userText]
  | cons f front ih =>
    obtain ⟨ho, hu⟩ := ih
    simp only [List.map_cons, List.cons_append, tableOps, userText, ho, hu, and_self]

lemma mem_tables_of_op {m : Message} {op : Bytes × Table} (hop : op ∈ H.tableOps [] m) : op.2 ∈ m.tables := by
  rw [← H.tableOps_snd m []]
  exact List.mem_map_of_mem hop

lemma OneKey.slot {m : Message} (h : OneKey H shared m) {op : Bytes × Table} (hop : op ∈ H.tableOps [] m) :
    IsSlot H.native shared (H.userText m) op.2.name (indexKey op.2.name op.1) := by
  refine ⟨h.names _ (mem_tables_of_op hop), h.short, ?_⟩
  obtain ⟨front, key, back, rfl, hfront, hback⟩ := h.fields
  obtain ⟨ho, hu⟩ := tableOps_around_key (H := H) front back key
  rw [ho] at hop
  rw [hu]
  rcases List.mem_append.mp hop with hop | hop
  · obtain ⟨f, hf, rfl⟩ := List.mem_map.mp hop
    exact Or.inl ⟨hfront f hf, rfl⟩
  · obtain ⟨f, hf, rfl⟩ := List.mem_map.mp hop
    exact Or.inr ⟨hback f hf, rfl⟩

def Listing (H : PbMessageKVHandle) (shared : Bytes → Prop) (store : Store) : Prop :=
  H.funRang = none → ∀ u name p, IsSlot H.native shared u name p → ListsWithin H store p

lemma listing_empty : Listing H shared ∅ :=
  fun _ _ _ _ _ => listsWithin_of_none rfl

lemma tableStep_frame (c : KVCall) {op : Bytes × Table} {store store' : Store}
    (h : c.tableStep H store op = some store') {k : Bytes} (hk : k ≠ []) (hp : ¬ indexKey op.2.name op.1 <+: k) :
    store'.lookup k = store.lookup k := by
  have hsame : SameBut (indexKey op.2.name op.1) (H.strCommonKey op.2 op.1) store store' := by
    cases c with
    | update m => exact updateTable_sameBut h
    | delete m => exact deleteTable_sameBut h
  apply hsame k hp
  rcases H.strCommonKey_cases op.2 op.1 with ⟨_, hq⟩ | ⟨_, hq⟩ <;> rw [hq]
  · rintro rfl
    exact hp List.prefix_rfl
  · exact hk

lemma tableStep_listing (c : KVCall) {op : Bytes × Table} {u : Bytes} {store store' : Store}
    (hslot : IsSlot H.native shared u op.2.name (indexKey op.2.name op.1))
    (hd : dbKeyFields H.keys op.2.descriptor ≠ []) (h : Listing H shared store)
    (hs : c.tableStep H store op = some store') : Listing H shared store' := by
  intro hidx v name p hp
  by_cases hsame : indexKey op.2.name op.1 = p
  · subst hsame
    cases c with
    | update m => exact updateTable_lists hidx hd (h hidx _ _ _ hslot) hs
    | delete m => exact deleteTable_lists hidx hd (h hidx _ _ _ hslot) hs
  · have hapart := (hslot.apart_of_ne hp hsame).symm
    exact (h hidx v name p hp).of_lookup (tableStep_frame c hs hp.ne_nil (hapart.not_initial List.prefix_rfl))

lemma ops_meet (c : KVCall) (store : Store) :
    StepsMeet (c.tableStep H) (fun _ _ op => op ∈ H.tableOps [] c.message) store (H.tableOps [] c.message) :=
  fun _ _ hd _ _ => hd.subset (by simp)

lemma exec_listing (c : KVCall) {store store' : Store} (hc : OneKey H shared c.message) (h : Listing H shared store)
    (hs : c.exec H store = some store') : Listing H shared store' := by
  rw [c.exec_eq] at hs
  apply (ops_meet c store).invariant h ?_ hs
  intro _ s op t hl hop hone
  exact tableStep_listing c (hc.slot hop) (hc.hasKey _ (mem_tables_of_op hop)) hl hone

lemma exec_frame (c : KVCall) {store store' : Store} (hs : c.exec H store = some store') {k : Bytes} (hk : k ≠ [])
    (hout : ∀ op ∈ H.tableOps [] c.message, op.2.elems ≠ [] → ¬ indexKey op.2.name op.1 <+: k) :
    store'.lookup k = store.lookup k := by
  rw [c.exec_eq] at hs
  apply (ops_meet c store).invariant (I := fun s => s.lookup k = store.lookup k) rfl ?_ hs
  intro _ s op t hl hop hone
  by_cases hset : op.2.elems = []
  · rw [tableStep_unset c s hset] at hone
    cases hone
    exact hl
  · exact (tableStep_frame c hone hk (hout op hop hset)).trans hl

lemma run_listing {calls : List KVCall} (hcalls : ∀ x ∈ calls, OneKey H shared x.message) {store : Store}
    (hrun : run (KVCall.exec H) ∅ calls = some store) : Listing H shared store := by
  have hmeet : StepsMeet (KVCall.exec H) (fun _ _ x => OneKey H shared x.message) ∅ calls :=
    fun done x hd _ _ => hcalls x (hd.subset (by simp))
  exact hmeet.invariant listing_empty (fun hl hx hone => exec_listing _ hx hl hone) hrun

lemma TableReads.within {store : Store} {m : Message} (hm : OneKey H shared m) (h : Listing H shared store)
    {op : Bytes × Table} (hop : op ∈ H.tableOps [] m) {k : Bytes} (hk : H.TableReads op.1 store op.2 k) :
    indexKey op.2.name op.1 <+: k := by
  cases hk with
  | index hempty hidx => exact List.prefix_rfl
  | range hempty hidx hb he => exact prefix_of_range hb he
  | @element k ks hks hmem =>
    by_cases hempty : op.2.elems = []
    · cases hidx : H.funRang with
      | none =>
        simp only [vecKeySet, hempty, hidx, ne_eq, not_true_eq_false, if_false, Option.isNone_none, if_true] at hks
        exact (h hidx _ _ _ (hm.slot hop)).of_paserList hks k hmem
      | some funRang =>
        simp only [vecKeySet, hempty, hidx, ne_eq, not_true_eq_false, if_false, Option.isNone_some,
          Bool.false_eq_true, Option.some.injEq] at hks
        simp [← hks] at hmem
    · simp only [vecKeySet, hempty, ne_eq, not_false_eq_true, if_true, Option.some.injEq] at hks
      rw [← hks] at hmem
      obtain ⟨e, _, rfl⟩ := List.mem_map.mp hmem
      rw [H.elementKey_eq]
      exact List.prefix_append _ _

/-- What a call must not disturb: another user's own table, or a table that its message does not set. -/
def Unset (H : PbMessageKVHandle) (shared : Bytes → Prop) (c : KVCall) (m : Message) (name : Bytes) : Prop :=
  (H.userText m ≠ H.userText c.message ∧ ¬ shared name) ∨ ∀ f ∈ c.message.tables, f.name = name → f.elems = []

/-- The entries of the table that a load reads are the same in both stores, and so is what it returns. -/
def TableUnchanged (H : PbMessageKVHandle) (store store' : Store) (op : Bytes × Table) : Prop :=
  (∀ k, H.TableReads op.1 store op.2 k → store'.lookup k = store.lookup k) ∧
    H.loadTable op.1 store' op.2 = H.loadTable op.1 store op.2

lemma tableReads_unchanged (hr : H.OrderedRange) {calls : List KVCall} {c : KVCall}
    (hcalls : ∀ x ∈ calls ++ [c], OneKey H shared x.message) {store store' : Store}
    (hrun : run (KVCall.exec H) ∅ calls = some store) (hs : c.exec H store = some store') {m : Message}
    (hm : OneKey H shared m) {op : Bytes × Table} (hop : op ∈ H.tableOps [] m)
    (hunset : Unset H shared c m op.2.name) : TableUnchanged H store store' op := by
  have hc : OneKey H shared c.message := hcalls c (by simp)
  have hl : Listing H shared store := run_listing (fun x hx => hcalls x (by simp [hx])) hrun
  have hkeep : ∀ k, H.TableReads op.1 store op.2 k → store'.lookup k = store.lookup k := by
    intro k hk
    have hp := hk.within hm hl hop
    apply exec_frame c hs
    · rintro rfl
      exact (hm.slot hop).ne_nil (List.prefix_nil.mp hp)
    · intro o ho hset
      refine ((hm.slot hop).apart (hc.slot ho) fun hname => ?_).not_initial hp
      exact hunset.resolve_right fun hu => hset (hu o.2 (mem_tables_of_op ho) hname.symm)
  exact ⟨hkeep, loadTable_congr_reads hr hkeep⟩

/-- Isolation: a call for one user leaves every entry alone that a load for another user reads in the
user's own tables, and every entry that a load reads in the tables that the call does not set. -/
theorem isolation (hr : H.OrderedRange) {calls : List KVCall} {c : KVCall}
    (hcalls : ∀ x ∈ calls ++ [c], OneKey H shared x.message) {store store' : Store}
    (hrun : run (KVCall.exec H) ∅ calls = some store) (hs : c.exec H store = some store') :
    (∀ m, OneKey H shared m → H.userText m ≠ H.userText c.message →
      (∀ op ∈ H.tableOps [] m, ¬ shared op.2.name → TableUnchanged H store store' op) ∧
        ((∀ f ∈ m.tables, ¬ shared f.name) → H.messageLoadOnKV store' m = H.messageLoadOnKV store m)) ∧
    ∀ m, OneKey H shared m → ∀ op ∈ H.tableOps [] m,
      (∀ f ∈ c.message.tables, f.name = op.2.name → f.elems = []) → TableUnchanged H store store' op := by
  refine ⟨fun m hm hu => ⟨fun op hop hown => ?_, fun hown => ?_⟩, fun m hm op hop hunset => ?_⟩
  · exact tableReads_unchanged hr hcalls hrun hs hm hop (Or.inl ⟨hu, hown⟩)
  · apply loadFields_congr m []
    intro op hop
    exact (tableReads_unchanged hr hcalls hrun hs hm hop (Or.inl ⟨hu, hown _ (mem_tables_of_op hop)⟩)).2
  · exact tableReads_unchanged hr hcalls hrun hs hm hop (Or.inr hunset)

end PbMessageKVHandle

namespace UserData

open PbMessageKVHandle

lemma oneKey_repeatedTables {user_id : Bytes} {counts : List (Int32 × Int32 × Int32)}
    {caches : List (Int64 × Int64)} (hu : user_id.length < 2 ^ 32) :
    OneKey indexMode (fun _ => False) (repeatedTables user_id counts caches) := by
  have htables : ∀ f ∈ (repeatedTables user_id counts caches).tables, f = userCounts counts ∨ f = clientCaches caches := by
    simp [repeatedTables, Message.tables]
  refine ⟨⟨[], userId user_id, [userCounts counts, clientCaches caches], rfl, by simp, by simp⟩, hu, ?_, ?_⟩
  · intro f hf
    obtain rfl | rfl := htables f hf
    · exact identifier_userCounts counts
    · exact identifier_clientCaches caches
  · intro f hf
    rcases htables f hf with rfl | rfl <;> simp only [userCounts, clientCaches] <;> decide

theorem isolation_two_users :
    ∃ store store', run (KVCall.exec indexMode) ∅ [.update (repeatedTables (ascii "u1") [(1, 1, 5)] [])] = some store ∧
      KVCall.exec indexMode store (.update (repeatedTables (ascii "u2") [(1, 1, 6)] [])) = some store' ∧
      indexMode.messageLoadOnKV store' (repeatedTables (ascii "u1") [] []) =
        indexMode.messageLoadOnKV store (repeatedTables (ascii "u1") [] []) := by
  have hcalls : ∀ x ∈ [KVCall.update (repeatedTables (ascii "u1") [(1, 1, 5)] [])] ++
      [KVCall.update (repeatedTables (ascii "u2") [(1, 1, 6)] [])], OneKey indexMode (fun _ => False) x.message := by
    intro x hx
    simp only [List.cons_append, List.nil_append, List.mem_cons, List.not_mem_nil, or_false] at hx
    rcases hx with rfl | rfl <;> exact oneKey_repeatedTables (by decide)
  have hreturns : (run (KVCall.exec indexMode) ∅ ([.update (repeatedTables (ascii "u1") [(1, 1, 5)] [])] ++
      [.update (repeatedTables (ascii "u2") [(1, 1, 6)] [])])).isSome = true := by
    decide +kernel
  have hne : indexMode.userText (repeatedTables (ascii "u1") [] []) ≠
      indexMode.userText (repeatedTables (ascii "u2") [(1, 1, 6)] []) := by
    change ascii "u1" ≠ ascii "u2"
    decide
  obtain ⟨last, hlast⟩ := Option.isSome_iff_exists.mp hreturns
  rw [run_concat] at hlast
  obtain ⟨store, hrun, hs⟩ := Option.bind_eq_some_iff.mp hlast
  have hload := ((isolation (Or.inl rfl) hcalls hrun hs).1 _ (oneKey_repeatedTables (by decide)) hne).2
  exact ⟨store, last, hrun, hs, hload fun _ _ => not_false⟩

theorem table_before_key_shared :
    indexMode.userText [.table (userCounts []), .key (userId (ascii "u2"))] ≠
        indexMode.userText [.table (userCounts [(1, 1, 5)]), .key (userId (ascii "u1"))] ∧
      ∃ store', indexMode.messageUpdateOnKV ∅ [.table (userCounts [(1, 1, 5)]), .key (userId (ascii "u1"))] = some store' ∧
        ∃ k, indexMode.Reads ∅ [.table (userCounts []), .key (userId (ascii "u2"))] k ∧
          store'.lookup k ≠ AList.lookup k (∅ : Store) := by
  have hread : indexMode.Reads ∅ [.table (userCounts []), .key (userId (ascii "u2"))]
      (indexKey (ascii "user_counts") []) :=
    ⟨([], userCounts []), List.mem_cons_self, .index rfl rfl⟩
  have hwrite : ((indexMode.messageUpdateOnKV ∅ [.table (userCounts [(1, 1, 5)]), .key (userId (ascii "u1"))]).map
      fun store' => (store'.lookup (indexKey (ascii "user_counts") [])).isSome) = some true := by
    decide +kernel
  obtain ⟨store', hs, hsome⟩ := Option.map_eq_some_iff.mp hwrite
  refine ⟨by decide, store', hs, _, hread, fun h => ?_⟩
  rw [h] at hsome
  simp at hsome

end UserData

end TonyCat.Database
