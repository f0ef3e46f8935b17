import TonyCat.Database.Isolation
import TonyCat.Database.KVProgram
import TonyCat.Database.Reshard

set_option autoImplicit false

/-! Two stores that hold the same for a user: an update, a delete or a load of the user's data does the same on both. -/

namespace TonyCat.Database

open TonyCat.Library

def SameOn (P : Bytes → Prop) (s t : Store) : Prop :=
  ∀ k, P k → t.lookup k = s.lookup k

section SameOn

variable {P : Bytes → Prop} {s t : Store}

lemma SameOn.get (h : SameOn P s t) {k : Bytes} (hk : P k) : t.get k = s.get k := by
  simp only [Store.get, h k hk]

lemma SameOn.put (h : SameOn P s t) (k v : Bytes) : SameOn P (s.put k v) (t.put k v) := by
  intro k' hk'
  by_cases heq : k' = k
  · subst heq
    exact (AList.lookup_insert t).trans (AList.lookup_insert s).symm
  · exact (AList.lookup_insert_ne heq).trans ((h k' hk').trans (AList.lookup_insert_ne heq).symm)

lemma SameOn.del (h : SameOn P s t) (k : Bytes) : SameOn P (s.del k) (t.del k) := by
  intro k' hk'
  by_cases heq : k' = k
  · subst heq
    exact (AList.lookup_erase k' t).trans (AList.lookup_erase k' s).symm
  · exact (AList.lookup_erase_ne heq).trans ((h k' hk').trans (AList.lookup_erase_ne heq).symm)

end SameOn

/-- The user's key, and behind it tables, as in `UserData`. -/
structure DataOf (H : PbMessageKVHandle) (u : Bytes) (m : Message) : Prop where
  fields : ∃ (key : CommonKey) (tables : List Table), m = .key key :: tables.map Field.table ∧ H.keyText key = u
  names : ∀ f ∈ m.tables, Identifier f.name

/-- What a save carries: the user's data, or no table at all; and no table without key fields. -/
structure SaveOf (H : PbMessageKVHandle) (u : Bytes) (m : Message) : Prop where
  data : (∀ f ∈ m.tables, f.elems = []) ∨ DataOf H u m
  hasKey : ∀ f ∈ m.tables, f.elems ≠ [] → dbKeyFields H.keys f.descriptor ≠ []

section Slots

open PbMessageKVHandle

variable {H : PbMessageKVHandle} {u : Bytes} {m : Message}

lemma DataOf.userMessage (h : DataOf H u m) : UserMessage H u m := by
  obtain ⟨key, tables, rfl, hkey⟩ := h.fields
  exact ⟨⟨key, _, rfl, hkey⟩, h.names⟩

lemma DataOf.slot (h : DataOf H u m) (hu : u.length < 2 ^ 32) {op : Bytes × Table} (hop : op ∈ H.tableOps [] m) :
    IsSlot H.native (fun _ => False) u op.2.name (indexKey op.2.name op.1) := by
  refine ⟨h.names _ (mem_tables_of_op hop), hu, Or.inr ⟨not_false, ?_⟩⟩
  obtain ⟨key, tables, rfl, rfl⟩ := h.fields
  have hops := (tableOps_around_key (H := H) [] tables key).1
  rw [List.map_nil, List.nil_append, List.map_nil, List.nil_append] at hops
  rw [hops] at hop
  obtain ⟨f, -, rfl⟩ := List.mem_map.mp hop
  rfl

lemma PbMessageKVHandle.IsSlot.owned {native : Endian} {name p : Bytes} (h : IsSlot native (fun _ => False) u name p) :
    Owned native u p := by
  obtain ⟨hname, -, ⟨hshared, -⟩ | ⟨-, rfl⟩⟩ := h
  · exact hshared.elim
  · exact ⟨name, [], hname, by rw [List.append_nil]⟩

lemma SaveOf.slot (h : SaveOf H u m) (hu : u.length < 2 ^ 32) {op : Bytes × Table} (hop : op ∈ H.tableOps [] m)
    (hset : op.2.elems ≠ []) : IsSlot H.native (fun _ => False) u op.2.name (indexKey op.2.name op.1) := by
  rcases h.data with hunset | hdata
  · exact (hset (hunset _ (mem_tables_of_op hop))).elim
  · exact hdata.slot hu hop

end Slots

namespace PbMessageKVHandle

variable {H : PbMessageKVHandle} {P : Bytes → Prop} {u : Bytes} {m : Message}

lemma updateLoop_sameOn (f : Table) (ck : Bytes) (elems : List Element) (st st' : UpdateState)
    (hkeys : st'.setKeys = st.setKeys) (hmodify : st'.bSetKeysModify = st.bSetKeysModify)
    (h : SameOn P st.store st'.store) :
    let update := if f.isRepeated then H.updateRepeated f ck else H.updateSingular f ck
    (elems.foldl update st').setKeys = (elems.foldl update st).setKeys ∧
      (elems.foldl update st').bSetKeysModify = (elems.foldl update st).bSetKeysModify ∧
        SameOn P (elems.foldl update st).store (elems.foldl update st').store := by
  dsimp only
  induction elems generalizing st st' with
  | nil => exact ⟨hkeys, hmodify, h⟩
  | cons pMsg elems ih =>
    rw [List.foldl_cons, List.foldl_cons, update_noteKey, update_noteKey, hkeys, hmodify]
    exact ih _ _ rfl rfl (h.put _ _)

lemma deleteLoop_sameOn (f : Table) (ck : Bytes) (elems : List Element) (st st' : Store × List Bytes)
    (hkeys : st'.2 = st.2) (h : SameOn P st.1 st'.1) :
    (elems.foldl (H.deleteElement f ck) st').2 = (elems.foldl (H.deleteElement f ck) st).2 ∧
      SameOn P (elems.foldl (H.deleteElement f ck) st).1 (elems.foldl (H.deleteElement f ck) st').1 := by
  induction elems generalizing st st' with
  | nil => exact ⟨hkeys, h⟩
  | cons pMsg elems ih =>
    rw [List.foldl_cons, List.foldl_cons]
    apply ih
    · simp only [deleteElement, hkeys]
    · exact h.del _

lemma readSetKeys_sameOn (hidx : H.funRang = none) {f : Table} {ck : Bytes} (hkey : P (indexKey f.name ck)) {s t : Store}
    (h : SameOn P s t) : H.readSetKeys f ck t = H.readSetKeys f ck s := by
  rw [readSetKeys_index hidx, readSetKeys_index hidx, h.get hkey]

lemma updateTable_sameOn (hidx : H.funRang = none) {f : Table} {ck : Bytes} (hkey : P (indexKey f.name ck))
    {s t s' : Store} (h : SameOn P s t) (hs : H.updateTable ck s f = some s') :
    ∃ t', H.updateTable ck t f = some t' ∧ SameOn P s' t' := by
  unfold updateTable at hs ⊢
  by_cases hset : f.elems = []
  · rw [if_pos hset] at hs ⊢
    cases hs
    exact ⟨t, rfl, h⟩
  · rw [if_neg hset] at hs ⊢
    rw [readSetKeys_sameOn hidx hkey h]
    obtain ⟨setKeys, hread, rfl⟩ := Option.map_eq_some_iff.mp hs
    obtain ⟨hkeys, hmodify, hsame⟩ := updateLoop_sameOn (H := H) f ck f.elems ⟨s, setKeys, false⟩ ⟨t, setKeys, false⟩
      rfl rfl h
    rw [hread]
    refine ⟨_, rfl, ?_⟩
    dsimp only at hkeys hmodify hsame ⊢
    rw [hkeys, hmodify]
    generalize f.elems.foldl (if f.isRepeated then H.updateRepeated f ck else H.updateSingular f ck)
      ⟨s, setKeys, false⟩ = st at hsame ⊢
    generalize f.elems.foldl (if f.isRepeated then H.updateRepeated f ck else H.updateSingular f ck)
      ⟨t, setKeys, false⟩ = st' at hsame ⊢
    split
    · exact hsame.put _ _
    · exact hsame

lemma deleteTable_sameOn (hidx : H.funRang = none) {f : Table} {ck : Bytes} (hkey : P (indexKey f.name ck))
    {s t s' : Store} (h : SameOn P s t) (hs : H.deleteTable ck s f = some s') :
    ∃ t', H.deleteTable ck t f = some t' ∧ SameOn P s' t' := by
  unfold deleteTable at hs ⊢
  by_cases hset : f.elems = []
  · rw [if_pos hset] at hs ⊢
    cases hs
    exact ⟨t, rfl, h⟩
  · rw [if_neg hset] at hs ⊢
    rw [readSetKeys_sameOn hidx hkey h]
    obtain ⟨setKeys, hread, rfl⟩ := Option.map_eq_some_iff.mp hs
    obtain ⟨hkeys, hsame⟩ := deleteLoop_sameOn (H := H) f ck f.elems (s, setKeys) (t, setKeys) rfl h
    rw [hread]
    refine ⟨_, rfl, ?_⟩
    dsimp only
    rw [hkeys]
    split
    · exact hsame.del _
    · exact hsame.put _ _

lemma tableStep_sameOn (hidx : H.funRang = none) (c : KVCall) {op : Bytes × Table}
    (hkey : op.2.elems ≠ [] → P (indexKey op.2.name op.1)) {s t s' : Store} (h : SameOn P s t)
    (hs : c.tableStep H s op = some s') : ∃ t', c.tableStep H t op = some t' ∧ SameOn P s' t' := by
  by_cases hset : op.2.elems = []
  · rw [tableStep_unset c s hset] at hs
    cases hs
    exact ⟨t, tableStep_unset c t hset, h⟩
  · cases c with
    | update m => exact updateTable_sameOn hidx (hkey hset) h hs
    | delete m => exact deleteTable_sameOn hidx (hkey hset) h hs

lemma exec_sameOn (hidx : H.funRang = none) {c : KVCall} (hu : u.length < 2 ^ 32) (hc : SaveOf H u c.message)
    {s t s' : Store} (h : SameOn (Owned H.native u) s t) (hs : c.exec H s = some s') :
    ∃ t', c.exec H t = some t' ∧ SameOn (Owned H.native u) s' t' := by
  have hops : ∀ ops : List (Bytes × Table), ops ⊆ H.tableOps [] c.message → ∀ {s t s' : Store},
      SameOn (Owned H.native u) s t → run (c.tableStep H) s ops = some s' →
        ∃ t', run (c.tableStep H) t ops = some t' ∧ SameOn (Owned H.native u) s' t' := by
    intro ops
    induction ops with
    | nil =>
      intro _ s t s' h hs
      cases hs
      exact ⟨t, rfl, h⟩
    | cons op ops ih =>
      intro hsub s t s' h hs
      obtain ⟨hop, hrest⟩ := List.cons_subset.mp hsub
      obtain ⟨s₁, hone, hs⟩ := Option.bind_eq_some_iff.mp hs
      obtain ⟨t₁, hone', h₁⟩ := tableStep_sameOn hidx c (fun hset => (hc.slot hu hop hset).owned) h hone
      obtain ⟨t', ht, h'⟩ := ih hrest h₁ hs
      exact ⟨t', Option.bind_eq_some_iff.mpr ⟨t₁, hone', ht⟩, h'⟩
  rw [c.exec_eq] at hs ⊢
  exact hops _ (List.Subset.refl _) h hs

lemma exec_keepsListing {c : KVCall} (hu : u.length < 2 ^ 32) (hc : SaveOf H u c.message) {s s' : Store}
    (h : Listing H (fun _ => False) s) (hs : c.exec H s = some s') : Listing H (fun _ => False) s' := by
  rw [c.exec_eq] at hs
  apply (ops_meet c s).invariant h ?_ hs
  intro _ s op t hl hop hone
  by_cases hset : op.2.elems = []
  · rw [tableStep_unset c s hset] at hone
    cases hone
    exact hl
  · exact tableStep_listing c (hc.slot hu hop hset) (hc.hasKey _ (mem_tables_of_op hop) hset) hl hone

lemma exec_save_lookup (hidx : H.funRang = none) {c : KVCall} (hc : SaveOf H u c.message) {s s' : Store}
    (hs : c.exec H s = some s') {k : Bytes} (hk : ¬ Owned H.native u k) : s'.lookup k = s.lookup k := by
  rcases hc.data with hunset | hdata
  · have hsame : ∀ ops : List (Bytes × Table), ops ⊆ H.tableOps [] c.message → run (c.tableStep H) s ops = some s := by
      intro ops
      induction ops with
      | nil => exact fun _ => rfl
      | cons op ops ih =>
        intro hsub
        obtain ⟨hop, hrest⟩ := List.cons_subset.mp hsub
        have hstep : c.tableStep H s op = some s := tableStep_unset c s (hunset _ (mem_tables_of_op hop))
        exact Option.bind_eq_some_iff.mpr ⟨s, hstep, ih hrest⟩
    rw [c.exec_eq, hsame _ (List.Subset.refl _)] at hs
    cases hs
    rfl
  · exact exec_lookup hidx hdata.userMessage hs hk

lemma exec_sameOn_other {c : KVCall} {v : Bytes} (hu : u.length < 2 ^ 32) (hv : v.length < 2 ^ 32) (hne : v ≠ u)
    (hc : SaveOf H u c.message) {s s' : Store} (hs : c.exec H s = some s') : SameOn (Owned H.native v) s s' := by
  intro k hk
  apply exec_frame c hs
  · rintro rfl
    obtain ⟨name, rest, -, hnil⟩ := hk
    exact indexKey_ne_nil _ _ hnil.symm
  · intro op hop hset hp
    exact hne (hk.unique hv hu ((hc.slot hu hop hset).owned.of_initial hp))

lemma listsOwned_of_listing (hidx : H.funRang = none) (hu : u.length < 2 ^ 32) (hm : DataOf H u m) {s : Store}
    (h : Listing H (fun _ => False) s) : ListsOwned H u s m := by
  intro op hop _ vecKeySet hlist k hk
  have hslot := hm.slot hu hop
  exact hslot.owned.of_initial ((h hidx _ _ _ hslot).of_paserList hlist k hk)

lemma load_sameOn (hidx : H.funRang = none) (hu : u.length < 2 ^ 32) (hm : DataOf H u m) {s t : Store}
    (hl : Listing H (fun _ => False) s) (h : SameOn (Owned H.native u) s t) :
    H.messageLoadOnKV t m = H.messageLoadOnKV s m :=
  messageLoadOnKV_congr hidx hm.userMessage h (listsOwned_of_listing hidx hu hm hl)

end PbMessageKVHandle

end TonyCat.Database
