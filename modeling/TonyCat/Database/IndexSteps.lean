import TonyCat.Database.IndexedTable

set_option autoImplicit false

/-! Index mode, one table at a time: the effect of an update, of a delete and of a load on a store
that holds some rows of the table. -/

namespace TonyCat.Database

open TonyCat.Library

namespace PbMessageKVHandle

variable (H : PbMessageKVHandle)

def updateRows (rows : Rows) (elems : List Element) : Rows :=
  elems.foldl H.writeRow rows

def deleteRows (rows : Rows) (elems : List Element) : Rows :=
  elems.foldl H.eraseRow rows

def firstNew (kss : List (List Bytes)) (elems : List Element) : Option (List Bytes) :=
  (elems.map H.dbKeyTexts).find? fun ks => ks ∉ kss

def LoadsExactly (rows : Rows) (elems : List Element) : Prop :=
  (elems.map H.dbKeyTexts).Nodup ∧ ∀ e, e ∈ elems ↔ rows (H.dbKeyTexts e) = some e

lemma updateRows_isSome (rows : Rows) (elems : List Element) (ks : List Bytes) :
    (H.updateRows rows elems ks).isSome = true ↔
      (rows ks).isSome = true ∨ ks ∈ elems.map H.dbKeyTexts := by
  induction elems generalizing rows with
  | nil => simp [updateRows]
  | cons e elems ih =>
    have hh := ih (H.writeRow rows e)
    simp only [updateRows] at hh
    simp only [updateRows, List.foldl_cons, hh, List.map_cons, List.mem_cons]
    by_cases hk : ks = H.dbKeyTexts e
    · simp [writeRow, hk]
    · simp [writeRow, hk]

lemma deleteRows_isSome (rows : Rows) (elems : List Element) (ks : List Bytes) :
    (H.deleteRows rows elems ks).isSome = true ↔
      (rows ks).isSome = true ∧ ks ∉ elems.map H.dbKeyTexts := by
  induction elems generalizing rows with
  | nil => simp [deleteRows]
  | cons e elems ih =>
    have hh := ih (H.eraseRow rows e)
    simp only [deleteRows] at hh
    simp only [deleteRows, List.foldl_cons, hh, List.map_cons, List.mem_cons]
    by_cases hk : ks = H.dbKeyTexts e
    · simp [eraseRow, hk]
    · simp [eraseRow, hk]

lemma foldl_put_lookup (p : Bytes) (elems : List Element) (store : Store) (k : Bytes)
    (h : ∀ e ∈ elems, k ≠ H.rowKey p (H.dbKeyTexts e)) :
    (elems.foldl (H.putElement p) store).lookup k = store.lookup k := by
  induction elems generalizing store with
  | nil => rfl
  | cons e elems ih =>
    rw [List.foldl_cons, ih _ fun x hx => h x (by simp [hx])]
    exact AList.lookup_insert_ne (h e (by simp))

lemma foldl_del_lookup (p : Bytes) (elems : List Element) (store : Store) (k : Bytes)
    (h : ∀ e ∈ elems, k ≠ H.rowKey p (H.dbKeyTexts e)) :
    (elems.foldl (H.delElement p) store).lookup k = store.lookup k := by
  induction elems generalizing store with
  | nil => rfl
  | cons e elems ih =>
    rw [List.foldl_cons, ih _ fun x hx => h x (by simp [hx])]
    exact AList.lookup_erase_ne (h e (by simp))

lemma sameOutside_put_elements (p : Bytes) (elems : List Element) (store : Store) :
    SameOutside p store (elems.foldl (H.putElement p) store) := by
  intro k hk
  apply H.foldl_put_lookup p elems store k
  rintro e _ rfl
  exact hk (H.rowKey_prefix p _)

lemma sameOutside_del_elements (p : Bytes) (elems : List Element) (store : Store) :
    SameOutside p store (elems.foldl (H.delElement p) store) := by
  intro k hk
  apply H.foldl_del_lookup p elems store k
  rintro e _ rfl
  exact hk (H.rowKey_prefix p _)

lemma SameOutside.trans {p : Bytes} {s t r : Store} (h : SameOutside p s t) (h' : SameOutside p t r) :
    SameOutside p s r :=
  fun k hk => (h' k hk).trans (h k hk)

lemma sameOutside_put (p : Bytes) (store : Store) (v : Bytes) : SameOutside p store (store.put p v) := by
  intro k hk
  apply AList.lookup_insert_ne
  rintro rfl
  exact hk List.prefix_rfl

lemma sameOutside_del (p : Bytes) (store : Store) : SameOutside p store (store.del p) := by
  intro k hk
  apply AList.lookup_erase_ne
  rintro rfl
  exact hk List.prefix_rfl

variable {H}

lemma Entries.foldl_put {store : Store} {p : Bytes} {d : Descriptor} {rows : Rows}
    (h : Entries H store p d rows) {elems : List Element} (he : ∀ e ∈ elems, Keyed H d e) :
    Entries H (elems.foldl (H.putElement p) store) p d (H.updateRows rows elems) := by
  induction elems generalizing store rows with
  | nil => exact h
  | cons e elems ih => exact ih (h.put (he e (by simp))) fun x hx => he x (by simp [hx])

lemma Entries.foldl_del {store : Store} {p : Bytes} {d : Descriptor} {rows : Rows}
    (h : Entries H store p d rows) {elems : List Element} (he : ∀ e ∈ elems, Keyed H d e) :
    Entries H (elems.foldl (H.delElement p) store) p d (H.deleteRows rows elems) := by
  induction elems generalizing store rows with
  | nil => exact h
  | cons e elems ih => exact ih (h.del (he e (by simp))) fun x hx => he x (by simp [hx])

lemma rowKey_ne_nil {p : Bytes} (hp : p ≠ []) (ks : List Bytes) : H.rowKey p ks ≠ [] := by
  simp [rowKey, hp]

lemma IndexLists.packable {store : Store} {p : Bytes} {kss : List (List Bytes)} (hp : p ≠ [])
    (h : H.IndexLists store p kss) (hfit : (store.get p).length < 2 ^ 32 - 1) :
    Packable H.native (kss.map (H.rowKey p)) := by
  refine ⟨?_, ?_⟩
  · intro xs hx
    obtain ⟨ks, _, rfl⟩ := List.mem_map.mp hx
    exact rowKey_ne_nil hp ks
  · rw [← packetList_eq, ← h]
    exact hfit

lemma nodup_rowKeys {d : Descriptor} {p : Bytes} {kss : List (List Bytes)} (hn : kss.Nodup)
    (hs : ∀ ks ∈ kss, RowShape H d ks) : (kss.map (H.rowKey p)).Nodup :=
  hn.map_on fun _ hx _ hy h => (hs _ hx).rowKey_inj (hs _ hy) h

lemma mem_rowKeys {d : Descriptor} {p : Bytes} {kss : List (List Bytes)} {ks : List Bytes}
    (hs : ∀ ls ∈ kss, RowShape H d ls) (hk : RowShape H d ks) :
    H.rowKey p ks ∈ kss.map (H.rowKey p) ↔ ks ∈ kss := by
  constructor
  · intro h
    obtain ⟨ls, hl, he⟩ := List.mem_map.mp h
    exact (hs ls hl).rowKey_inj hk he ▸ hl
  · exact List.mem_map_of_mem

lemma exists_rows_of_perm {p : Bytes} {σ : List Bytes} {kss : List (List Bytes)}
    (h : σ.Perm (kss.map (H.rowKey p))) : ∃ lss : List (List Bytes), lss.Perm kss ∧ σ = lss.map (H.rowKey p) := by
  have hf : List.Forall₂ (fun x ks => x = H.rowKey p ks) (kss.map (H.rowKey p)) kss := by
    rw [List.forall₂_map_left_iff]
    exact List.forall₂_same.mpr fun _ _ => rfl
  obtain ⟨lss, hl, hp⟩ := List.perm_comp_forall₂ h hf
  refine ⟨lss, hp, ?_⟩
  rw [← List.forall₂_eq_eq_eq, List.forall₂_map_right_iff]
  exact hl

lemma foldl_addParsed (f : Table) (values : List Bytes) (hrep : f.isRepeated = true) :
    (values.foldl H.addParsed f).elems = f.elems ++ values.map (H.rt.parseFromString f.descriptor) ∧
      Field.decl (.table (values.foldl H.addParsed f)) = Field.decl (.table f) := by
  induction values generalizing f with
  | nil => simp
  | cons v values ih =>
    obtain ⟨he, hd⟩ := ih (H.addParsed f v) hrep
    rw [List.foldl_cons, he, hd]
    refine ⟨?_, rfl⟩
    simp [addParsed, Table.put, hrep]

lemma Entries.fetch {store : Store} {p : Bytes} {d : Descriptor} {rows : Rows}
    (h : Entries H store p d rows) {ks : List Bytes} {e : Element} (hr : rows ks = some e) :
    H.rt.parseFromString d (store.get (H.rowKey p ks)) = e := by
  rw [Store.get, h.entry ks e hr, ← h.descriptor ks e hr]
  exact H.rt.parse_serialize e

lemma loadTable_listed (hidx : H.funRang = none) {ck : Bytes} {store : Store} {f : Table} {rows : Rows}
    {kss : List (List Bytes)} (hrep : f.isRepeated = true) (he : f.elems = [])
    (h : Listed H store (indexKey f.name ck) f.descriptor rows kss)
    (hfit : (store.get (indexKey f.name ck)).length < 2 ^ 32 - 1) :
    ∃ g, H.loadTable ck store f = some g ∧ Field.decl (.table g) = Field.decl (.table f) ∧
      g.elems.map some = kss.map rows := by
  have hpack := h.index.packable (indexKey_ne_nil _ _) hfit
  refine ⟨((kss.map (H.rowKey (indexKey f.name ck))).map store.get).foldl H.addParsed f, ?_, ?_, ?_⟩
  · rw [loadTable_empty hidx ck store f he, h.index, paserList_packetList hpack]
    rfl
  · exact (foldl_addParsed f _ hrep).2
  · rw [(foldl_addParsed f _ hrep).1, he]
    simp only [List.nil_append, List.map_map]
    apply List.map_congr_left
    intro ks hks
    obtain ⟨e, hr⟩ := Option.isSome_iff_exists.mp (h.live ks hks)
    simp only [Function.comp_apply, h.toEntries.fetch hr, hr]

lemma Listed.texts_of_map {store : Store} {p : Bytes} {d : Descriptor} {rows : Rows}
    {kss : List (List Bytes)} {elems : List Element} (h : Listed H store p d rows kss)
    (he : elems.map some = kss.map rows) : elems.map H.dbKeyTexts = kss := by
  have hk : (kss.map rows).map (Option.map H.dbKeyTexts) = kss.map some := by
    rw [List.map_map]
    apply List.map_congr_left
    intro ks hks
    obtain ⟨e, hr⟩ := Option.isSome_iff_exists.mp (h.live ks hks)
    simp [hr, h.texts ks e hr]
  rw [← he] at hk
  have hs : (elems.map some).map (Option.map H.dbKeyTexts) = (elems.map H.dbKeyTexts).map some := by
    simp
  rw [hs] at hk
  exact List.map_injective_iff.mpr (fun _ _ h => Option.some.inj h) hk

lemma Listed.loadsExactly_iff {store : Store} {p : Bytes} {d : Descriptor} {rows : Rows}
    {kss : List (List Bytes)} {elems : List Element} (h : Listed H store p d rows kss)
    (he : elems.map some = kss.map rows) :
    H.LoadsExactly rows elems ↔ ∀ ks, (rows ks).isSome = true → ks ∈ kss := by
  have htexts := h.texts_of_map he
  constructor
  · rintro ⟨_, hm⟩ ks hs
    obtain ⟨e, hr⟩ := Option.isSome_iff_exists.mp hs
    have ht := h.texts ks e hr
    rw [← htexts, ← ht]
    exact List.mem_map_of_mem ((hm e).mpr (by rw [ht, hr]))
  · intro hall
    refine ⟨by rw [htexts]; exact h.nodup, fun e => ?_⟩
    have hmem : e ∈ elems ↔ ∃ ks ∈ kss, rows ks = some e := by
      rw [← List.mem_map, ← he, List.mem_map]
      simp
    rw [hmem]
    constructor
    · rintro ⟨ks, _, hr⟩
      rw [h.texts ks e hr, hr]
    · intro hr
      exact ⟨H.dbKeyTexts e, hall _ (by simp [hr]), hr⟩

theorem load_spec (hidx : H.funRang = none) {ck : Bytes} {store : Store} {f : Table} {rows : Rows}
    {kss : List (List Bytes)} (hrep : f.isRepeated = true) (he : f.elems = [])
    (h : Listed H store (indexKey f.name ck) f.descriptor rows kss)
    (hfit : (store.get (indexKey f.name ck)).length < 2 ^ 32 - 1) :
    ∃ g, H.loadTable ck store f = some g ∧ Field.decl (.table g) = Field.decl (.table f) ∧
      (H.LoadsExactly rows g.elems ↔ ∀ ks, (rows ks).isSome = true → ks ∈ kss) := by
  obtain ⟨g, hg, hd, hl⟩ := loadTable_listed hidx hrep he h hfit
  exact ⟨g, hg, hd, h.loadsExactly_iff hl⟩

lemma find_new {p : Bytes} {d : Descriptor} {kss : List (List Bytes)} {elems : List Element}
    (hs : ∀ ks ∈ kss, RowShape H d ks) (hk : ∀ e ∈ elems, Keyed H d e) :
    (elems.map (H.rowKey p ∘ H.dbKeyTexts)).find? (· ∉ (kss.map (H.rowKey p)).reverse) =
      (H.firstNew kss elems).map (H.rowKey p) := by
  rw [← List.map_map, List.find?_map, firstNew]
  congr 1
  apply List.find?_congr
  intro ks hks
  obtain ⟨e, he, rfl⟩ := List.mem_map.mp hks
  have hiff := mem_rowKeys (p := p) hs (hk e he).shape
  simp only [Function.comp_apply, List.mem_reverse, hiff]

theorem update_spec (hidx : H.funRang = none) {ck : Bytes} {store : Store} {f : Table} {rows : Rows}
    {kss : List (List Bytes)} (hrep : f.isRepeated = true) (hd : dbKeyFields H.keys f.descriptor ≠ [])
    (hk : ∀ e ∈ f.elems, Keyed H f.descriptor e)
    (h : Listed H store (indexKey f.name ck) f.descriptor rows kss)
    (hfit : (store.get (indexKey f.name ck)).length < 2 ^ 32 - 1) :
    ∃ store' kss', H.updateTable ck store f = some store' ∧
      SameOutside (indexKey f.name ck) store store' ∧
      Listed H store' (indexKey f.name ck) f.descriptor (H.updateRows rows f.elems) kss' ∧
      ∀ ks, ks ∈ kss' ↔ ks ∈ kss ∨ H.firstNew kss f.elems = some ks := by
  by_cases hne : f.elems = []
  · refine ⟨store, kss, by simp [updateTable, hne], fun _ _ => rfl, ?_, by simp [hne, firstNew]⟩
    rw [hne]
    exact h
  have hset : paserSet H.native (store.get (indexKey f.name ck)) =
      some (kss.map (H.rowKey (indexKey f.name ck))).reverse := by
    rw [h.index]
    exact paserSet_packetList (h.index.packable (indexKey_ne_nil _ _) hfit) (nodup_rowKeys h.nodup h.shape)
  have hput := h.toEntries.foldl_put hk
  have hsame := H.sameOutside_put_elements (indexKey f.name ck) f.elems store
  have hindex : (f.elems.foldl (H.putElement (indexKey f.name ck)) store).lookup (indexKey f.name ck) =
      store.lookup (indexKey f.name ck) :=
    H.foldl_put_lookup _ _ _ _ fun e he => ((hk e he).shape.rowKey_ne hd _).symm
  have hlive : ∀ ks, ks ∈ kss ∨ H.firstNew kss f.elems = some ks →
      (H.updateRows rows f.elems ks).isSome = true := by
    intro ks hks
    rw [H.updateRows_isSome]
    exact hks.imp (h.live ks) List.mem_of_find?_eq_some
  have hfind := find_new (p := indexKey f.name ck) h.shape hk
  rw [updateTable_repeated hidx ck store f hrep hne, hset]
  simp only [Option.map_some, hfind]
  cases hnew : H.firstNew kss f.elems with
  | none =>
    refine ⟨_, kss, rfl, hsame, ⟨hput, h.nodup, fun ks hks => hlive ks (Or.inl hks), ?_⟩, by simp⟩
    simpa only [IndexLists, Store.get, Option.map_none, hindex] using h.index
  | some new =>
    have hnone : new ∉ kss := by simpa using List.find?_some hnew
    have hshape : RowShape H f.descriptor new := by
      obtain ⟨e, he, rfl⟩ := List.mem_map.mp (List.mem_of_find?_eq_some hnew)
      exact (hk e he).shape
    have hnotin : H.rowKey (indexKey f.name ck) new ∉ (kss.map (H.rowKey (indexKey f.name ck))).reverse := by
      rw [List.mem_reverse, mem_rowKeys h.shape hshape]
      exact hnone
    have hperm : (H.order ((kss.map (H.rowKey (indexKey f.name ck))).reverse.insert
        (H.rowKey (indexKey f.name ck) new))).Perm ((new :: kss).map (H.rowKey (indexKey f.name ck))) := by
      apply (H.order_perm _).trans
      rw [List.insert_of_not_mem hnotin, List.map_cons]
      exact (List.reverse_perm _).cons _
    obtain ⟨lss, hl, ho⟩ := exists_rows_of_perm hperm
    have hmem : ∀ ks, ks ∈ lss ↔ ks ∈ kss ∨ some new = some ks := by
      intro ks
      rw [hl.mem_iff, List.mem_cons, Option.some.injEq]
      tauto
    refine ⟨_, lss, rfl, hsame.trans (sameOutside_put _ _ _), ⟨?_, ?_, ?_, ?_⟩, hmem⟩
    · exact hput.of_same fun ks hks => AList.lookup_insert_ne (hks.rowKey_ne hd _)
    · rw [hl.nodup_iff]
      exact List.nodup_cons.mpr ⟨hnone, h.nodup⟩
    · intro ks hks
      exact hlive ks (by rw [hnew]; exact (hmem ks).mp hks)
    · simp only [IndexLists, Option.map_some, ho]
      exact Store.get_put_self _ _ _

def OneNew (H : PbMessageKVHandle) (rows : Rows) (elems : List Element) : Prop :=
  ∀ e ∈ elems, ∀ e' ∈ elems, rows (H.dbKeyTexts e) = none → rows (H.dbKeyTexts e') = none →
    H.dbKeyTexts e = H.dbKeyTexts e'

lemma oneNew_iff {rows : Rows} {kss : List (List Bytes)} {elems : List Element}
    (hk : ∀ ks, ks ∈ kss ↔ (rows ks).isSome = true) :
    OneNew H rows elems ↔ ∀ ks, (H.updateRows rows elems ks).isSome = true →
      ks ∈ kss ∨ H.firstNew kss elems = some ks := by
  have hnone : ∀ ks, rows ks = none ↔ ks ∉ kss := by
    intro ks
    rw [hk]
    simp
  constructor
  · intro h ks hs
    rcases (H.updateRows_isSome rows elems ks).mp hs with hr | hmem
    · exact Or.inl ((hk ks).mpr hr)
    by_cases hin : ks ∈ kss
    · exact Or.inl hin
    · right
      obtain ⟨e, he, rfl⟩ := List.mem_map.mp hmem
      cases hf : H.firstNew kss elems with
      | none =>
        have hh := List.find?_eq_none.mp hf _ (List.mem_map_of_mem he)
        exact (hh (by simpa using hin)).elim
      | some new =>
        obtain ⟨e', he', rfl⟩ := List.mem_map.mp (List.mem_of_find?_eq_some hf)
        have hp : H.dbKeyTexts e' ∉ kss := by simpa using List.find?_some hf
        rw [h e he e' he' ((hnone _).mpr hin) ((hnone _).mpr hp)]
  · intro h e he e' he' hr hr'
    have hall : ∀ x ∈ elems, rows (H.dbKeyTexts x) = none → H.firstNew kss elems = some (H.dbKeyTexts x) := by
      intro x hx hxr
      rcases h _ ((H.updateRows_isSome rows elems _).mpr (Or.inr (List.mem_map_of_mem hx))) with hin | hf
      · exact ((hnone _).mp hxr hin).elim
      · exact hf
    exact Option.some.inj ((hall e he hr).symm.trans (hall e' he' hr'))

lemma foldl_erase_rowKeys {d : Descriptor} {p : Bytes} (elems : List Element) :
    ∀ kss : List (List Bytes), kss.Nodup → (∀ ks ∈ kss, RowShape H d ks) → (∀ e ∈ elems, Keyed H d e) →
      ∃ lss : List (List Bytes), lss.Nodup ∧ (∀ ks, ks ∈ lss ↔ ks ∈ kss ∧ ks ∉ elems.map H.dbKeyTexts) ∧
        (elems.map (H.rowKey p ∘ H.dbKeyTexts)).foldl List.erase (kss.map (H.rowKey p)) =
          lss.map (H.rowKey p) := by
  induction elems with
  | nil => exact fun kss hn _ _ => ⟨kss, hn, by simp, rfl⟩
  | cons e elems ih =>
    intro kss hn hs hk
    have he : (kss.map (H.rowKey p)).erase (H.rowKey p (H.dbKeyTexts e)) =
        (kss.erase (H.dbKeyTexts e)).map (H.rowKey p) := by
      clear ih hn
      induction kss with
      | nil => rfl
      | cons ls kss ih =>
        have hl : RowShape H d ls := hs ls (by simp)
        by_cases hh : ls = H.dbKeyTexts e
        · simp [hh]
        · have hne : H.rowKey p ls ≠ H.rowKey p (H.dbKeyTexts e) :=
            fun h => hh (hl.rowKey_inj (hk e (by simp)).shape h)
          rw [List.map_cons, List.erase_cons_tail (by simpa using hne),
            List.erase_cons_tail (by simpa using hh), List.map_cons,
            ih fun ks h => hs ks (by simp [h])]
    obtain ⟨lss, hl, hm, hf⟩ := ih (kss.erase (H.dbKeyTexts e)) (hn.erase _)
      (fun ks h => hs ks (List.mem_of_mem_erase h)) fun x hx => hk x (by simp [hx])
    refine ⟨lss, hl, ?_, by rw [List.map_cons, List.foldl_cons, Function.comp_apply, he, hf]⟩
    intro ks
    rw [hm, hn.mem_erase_iff, List.map_cons, List.mem_cons]
    tauto

theorem delete_spec (hidx : H.funRang = none) {ck : Bytes} {store : Store} {f : Table} {rows : Rows}
    {kss : List (List Bytes)} (hd : dbKeyFields H.keys f.descriptor ≠ [])
    (hk : ∀ e ∈ f.elems, Keyed H f.descriptor e)
    (h : Listed H store (indexKey f.name ck) f.descriptor rows kss)
    (hfit : (store.get (indexKey f.name ck)).length < 2 ^ 32 - 1) :
    ∃ store' kss', H.deleteTable ck store f = some store' ∧
      SameOutside (indexKey f.name ck) store store' ∧
      Listed H store' (indexKey f.name ck) f.descriptor (H.deleteRows rows f.elems) kss' ∧
      ∀ ks, ks ∈ kss' ↔ ks ∈ kss ∧ ks ∉ f.elems.map H.dbKeyTexts := by
  by_cases hne : f.elems = []
  · refine ⟨store, kss, by simp [deleteTable, hne], fun _ _ => rfl, ?_, by simp [hne]⟩
    rw [hne]
    exact h
  have hset : paserSet H.native (store.get (indexKey f.name ck)) =
      some (kss.reverse.map (H.rowKey (indexKey f.name ck))) := by
    rw [h.index, List.map_reverse]
    exact paserSet_packetList (h.index.packable (indexKey_ne_nil _ _) hfit) (nodup_rowKeys h.nodup h.shape)
  obtain ⟨lss, hl, hlm, hf⟩ := foldl_erase_rowKeys (p := indexKey f.name ck) f.elems kss.reverse
    (List.nodup_reverse.mpr h.nodup) (fun ks hks => h.shape ks (List.mem_reverse.mp hks)) hk
  have hmem : ∀ ks, ks ∈ lss ↔ ks ∈ kss ∧ ks ∉ f.elems.map H.dbKeyTexts := by
    intro ks
    rw [hlm, List.mem_reverse]
  have hlive : ∀ ks, ks ∈ lss → (H.deleteRows rows f.elems ks).isSome = true := by
    intro ks hks
    rw [H.deleteRows_isSome]
    exact ((hmem ks).mp hks).imp_left (h.live ks)
  have hdel := h.toEntries.foldl_del hk
  have hsame := H.sameOutside_del_elements (indexKey f.name ck) f.elems store
  rw [deleteTable_eq hidx ck store f hne, hset]
  simp only [Option.map_some, hf]
  by_cases hempty : lss.map (H.rowKey (indexKey f.name ck)) = []
  · rw [if_pos hempty]
    refine ⟨_, lss, rfl, hsame.trans (sameOutside_del _ _), ⟨?_, hl, hlive, ?_⟩, hmem⟩
    · exact hdel.of_same fun ks hks => AList.lookup_erase_ne (hks.rowKey_ne hd _)
    · simp only [IndexLists, hempty]
      exact Store.get_del_self _ _
  · rw [if_neg hempty]
    obtain ⟨oss, ho, he⟩ := exists_rows_of_perm (H.order_perm (lss.map (H.rowKey (indexKey f.name ck))))
    refine ⟨_, oss, rfl, hsame.trans (sameOutside_put _ _ _), ⟨?_, ?_, ?_, ?_⟩, ?_⟩
    · exact hdel.of_same fun ks hks => AList.lookup_insert_ne (hks.rowKey_ne hd _)
    · exact ho.nodup_iff.mpr hl
    · exact fun ks hks => hlive ks (ho.mem_iff.mp hks)
    · simp only [IndexLists, he]
      exact Store.get_put_self _ _ _
    · intro ks
      rw [ho.mem_iff, hmem]

end PbMessageKVHandle

end TonyCat.Database
