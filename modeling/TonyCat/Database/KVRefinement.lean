import TonyCat.Database.UserData

set_option autoImplicit false

/-! Index mode over whole runs: which elements a load by the common key returns after any sequence
of updates and deletes. -/

namespace TonyCat.Database

open TonyCat.Library

namespace KVCall

variable (H : PbMessageKVHandle)

def tableStep (c : KVCall) (store : Store) (op : Bytes × Table) : Option Store :=
  match c with
  | .update _ => H.updateTable op.1 store op.2
  | .delete _ => H.deleteTable op.1 store op.2

def applyRows (c : KVCall) (rows : Rows) (elems : List Element) : Rows :=
  match c with
  | .update _ => H.updateRows rows elems
  | .delete _ => H.deleteRows rows elems

def Fits (c : KVCall) (rows : Rows) (elems : List Element) : Prop :=
  match c with
  | .update _ => PbMessageKVHandle.OneNew H rows elems
  | .delete _ => True

lemma exec_eq (c : KVCall) (store : Store) :
    c.exec H store = run (c.tableStep H) store (H.tableOps [] c.message) := by
  cases c with
  | update m => exact H.updateFields_eq m [] store
  | delete m => exact H.deleteFields_eq m [] store

end KVCall

/-- The rows of the table `name` of the user `u` that the calls leave: the meaning of the store. -/
def live (H : PbMessageKVHandle) (u name : Bytes) (calls : List KVCall) : Rows :=
  calls.foldl
    (fun rows c =>
      if H.userText c.message = u then
        c.message.tables.foldl (fun rows f => if f.name = name then c.applyRows H rows f.elems else rows) rows
      else rows)
    fun _ => none

/-- What the layer relies on for a message: it is of type `S` and its key texts are short. -/
structure Typed (H : PbMessageKVHandle) (S : Schema H.keys) (m : Message) : Prop where
  decls : m.decls = S.decls
  user : (H.userText m).length < 2 ^ 32
  texts : ∀ f ∈ m.tables, ∀ e ∈ f.elems, Short (H.dbKeyTexts e)

/-- A load of `m`, which carries the common key only, returns exactly the live rows of its user. -/
def LoadsLive (H : PbMessageKVHandle) (calls : List KVCall) (m : Message) : Prop :=
  ∃ store loaded, run (KVCall.exec H) ∅ calls = some store ∧ H.messageLoadOnKV store m = some loaded ∧
    loaded.decls = m.decls ∧
    ∀ f ∈ loaded.tables, H.LoadsExactly (live H (H.userText m) f.name calls) f.elems

namespace PbMessageKVHandle

variable {H : PbMessageKVHandle} {S : Schema H.keys}

def Complete (rows : Rows) (kss : List (List Bytes)) : Prop :=
  ∀ ks, (rows ks).isSome = true → ks ∈ kss

lemma Listed.complete_iff {store : Store} {p : Bytes} {d : Descriptor} {rows : Rows}
    {kss : List (List Bytes)} (h : Listed H store p d rows kss) :
    Complete rows kss ↔ ∀ ks, ks ∈ kss ↔ (rows ks).isSome = true :=
  ⟨fun hc ks => ⟨h.live ks, hc ks⟩, fun hc ks => (hc ks).mpr⟩

lemma tableStep_unset (c : KVCall) {op : Bytes × Table} (store : Store) (h : op.2.elems = []) :
    c.tableStep H store op = some store := by
  cases c with
  | update m => simp only [KVCall.tableStep, updateTable, if_pos h]
  | delete m => simp only [KVCall.tableStep, deleteTable, if_pos h]

lemma tableStep_spec (hidx : H.funRang = none) (c : KVCall) {ck : Bytes} {store : Store} {f : Table}
    {rows : Rows} {kss : List (List Bytes)} (hrep : f.isRepeated = true)
    (hd : dbKeyFields H.keys f.descriptor ≠ []) (hk : ∀ e ∈ f.elems, Keyed H f.descriptor e)
    (h : Listed H store (indexKey f.name ck) f.descriptor rows kss)
    (hfit : (store.get (indexKey f.name ck)).length < 2 ^ 32 - 1) :
    ∃ store' kss', c.tableStep H store (ck, f) = some store' ∧
      SameOutside (indexKey f.name ck) store store' ∧
      Listed H store' (indexKey f.name ck) f.descriptor (c.applyRows H rows f.elems) kss' ∧
      (Complete rows kss → (Complete (c.applyRows H rows f.elems) kss' ↔ c.Fits H rows f.elems)) := by
  cases c with
  | update m =>
    obtain ⟨store', kss', hs, hsame, hl, hm⟩ := update_spec hidx hrep hd hk h hfit
    refine ⟨store', kss', hs, hsame, hl, fun hc => ?_⟩
    have hone : PbMessageKVHandle.OneNew H rows f.elems ↔ _ := oneNew_iff (h.complete_iff.mp hc)
    simp only [KVCall.Fits, hone, Complete, KVCall.applyRows, hm]
  | delete m =>
    obtain ⟨store', kss', hs, hsame, hl, hm⟩ := delete_spec hidx hd hk h hfit
    refine ⟨store', kss', hs, hsame, hl, fun hc => ?_⟩
    simp only [KVCall.Fits, iff_true]
    intro ks hks
    have hh := (H.deleteRows_isSome rows f.elems ks).mp hks
    exact (hm ks).mpr ⟨hc ks hh.1, hh.2⟩

structure GoodOp (H : PbMessageKVHandle) (S : Schema H.keys) (op : Bytes × Table) : Prop where
  slot : S.Slot H.native (indexKey op.2.name op.1) op.2.descriptor
  repeated : op.2.isRepeated = true
  hasKey : dbKeyFields H.keys op.2.descriptor ≠ []
  keyed : ∀ e ∈ op.2.elems, Keyed H op.2.descriptor e

def opRows (c : KVCall) (p : Bytes) (ops : List (Bytes × Table)) (rows : Rows) : Rows :=
  ops.foldl (fun rows op => if indexKey op.2.name op.1 = p then c.applyRows H rows op.2.elems else rows) rows

def HoldsAll (H : PbMessageKVHandle) (S : Schema H.keys) (store : Store) (R : Bytes → Rows)
    (K : Bytes → List (List Bytes)) : Prop :=
  ∀ p d, S.Slot H.native p d → Listed H store p d (R p) (K p)

lemma opRows_of_apart (c : KVCall) {p : Bytes} {ops : List (Bytes × Table)}
    (h : ∀ op ∈ ops, indexKey op.2.name op.1 ≠ p) (rows : Rows) : opRows (H := H) c p ops rows = rows := by
  induction ops generalizing rows with
  | nil => rfl
  | cons op ops ih =>
    simp only [opRows, List.foldl_cons, if_neg (h op (by simp))]
    exact ih (fun o ho => h o (by simp [ho])) rows

lemma ops_spec (hidx : H.funRang = none) (c : KVCall) (ops : List (Bytes × Table)) :
    ∀ (store : Store) (R : Bytes → Rows) (K : Bytes → List (List Bytes)), (∀ op ∈ ops, GoodOp H S op) →
      ops.Pairwise (fun a b => Apart (indexKey a.2.name a.1) (indexKey b.2.name b.1)) →
      (∀ op ∈ ops, (store.get (indexKey op.2.name op.1)).length < 2 ^ 32 - 1) →
      HoldsAll H S store R K →
      ∃ store' K', run (c.tableStep H) store ops = some store' ∧
        HoldsAll H S store' (fun p => opRows (H := H) c p ops (R p)) K' ∧
        (∀ p, (∀ op ∈ ops, indexKey op.2.name op.1 ≠ p) → K' p = K p) ∧
        ∀ p d, S.Slot H.native p d → Complete (R p) (K p) →
          (Complete (opRows (H := H) c p ops (R p)) (K' p) ↔
            ∀ op ∈ ops, indexKey op.2.name op.1 = p → c.Fits H (R p) op.2.elems) := by
  induction ops with
  | nil =>
    intro store R K _ _ _ h
    exact ⟨store, K, rfl, h, fun _ _ => rfl, fun p d hp hc => by simpa [opRows] using hc⟩
  | cons op ops ih =>
    intro store R K hgood hapart hfit h
    have hop := hgood op (by simp)
    obtain ⟨hhead, htail⟩ := List.pairwise_cons.mp hapart
    obtain ⟨store₁, kss₁, hs, hsame, hl, hcomp⟩ := tableStep_spec hidx c hop.repeated hop.hasKey hop.keyed
      (h _ _ hop.slot) (hfit op (by simp))
    let R₁ : Bytes → Rows := fun p => if indexKey op.2.name op.1 = p then c.applyRows H (R p) op.2.elems else R p
    let K₁ : Bytes → List (List Bytes) := fun p => if indexKey op.2.name op.1 = p then kss₁ else K p
    have hall : HoldsAll H S store₁ R₁ K₁ := by
      intro p d hp
      rcases hop.slot.eq_or_apart hp with ⟨rfl, rfl⟩ | ha
      · simpa only [R₁, K₁, if_pos] using hl
      · have hne : indexKey op.2.name op.1 ≠ p := by
          rintro rfl
          exact ha [] [] rfl
        simp only [R₁, K₁, if_neg hne]
        exact (h p d hp).of_sameOutside hsame ha.symm
    have hfit₁ : ∀ o ∈ ops, (store₁.get (indexKey o.2.name o.1)).length < 2 ^ 32 - 1 := by
      intro o ho
      have hk := hsame _ ((hhead o ho).symm.not_initial List.prefix_rfl)
      simp only [Store.get, hk]
      exact hfit o (by simp [ho])
    obtain ⟨store₂, K₂, hr, hall₂, hkeep₂, hcomp₂⟩ :=
      ih store₁ R₁ K₁ (fun o ho => hgood o (by simp [ho])) htail hfit₁ hall
    have hrows : ∀ p, opRows (H := H) c p (op :: ops) (R p) = opRows (H := H) c p ops (R₁ p) := by
      intro p
      simp only [opRows, List.foldl_cons, R₁]
    refine ⟨store₂, K₂, by rw [run, hs]; exact hr, ?_, ?_, ?_⟩
    · intro p d hp
      simp only [hrows]
      exact hall₂ p d hp
    · intro p hp
      rw [hkeep₂ p fun o ho => hp o (by simp [ho])]
      exact if_neg (hp op (by simp))
    · intro p d hp hc
      rw [hrows]
      rcases hop.slot.eq_or_apart hp with ⟨rfl, rfl⟩ | ha
      · -- the call's own table: no later operation touches it again
        have hlater : ∀ o ∈ ops, indexKey o.2.name o.1 ≠ indexKey op.2.name op.1 := by
          intro o ho he
          exact hhead o ho [] [] (by rw [he])
        rw [opRows_of_apart c hlater, hkeep₂ _ hlater]
        simp only [R₁, K₁, if_pos, List.mem_cons, forall_eq_or_imp, true_imp_iff]
        rw [hcomp hc]
        exact ⟨fun hf => ⟨hf, fun o ho he => (hlater o ho he).elim⟩, And.left⟩
      · have hne : indexKey op.2.name op.1 ≠ p := by
          rintro rfl
          exact ha [] [] rfl
        have hc₁ : Complete (R₁ p) (K₁ p) := by simpa only [R₁, K₁, if_neg hne] using hc
        rw [hcomp₂ p d hp hc₁]
        simp only [R₁, if_neg hne, List.mem_cons, forall_eq_or_imp, hne, false_imp_iff, true_and]

lemma tableOps_slot {m : Message} (hm : Typed H S m) {op : Bytes × Table} (hop : op ∈ H.tableOps [] m) :
    (op.1, (op.2.name, op.2.descriptor)) ∈ S.slotsOf H.native (H.userText m) := by
  rw [← (H.tableOps_schema hm.decls).1]
  exact List.mem_map_of_mem hop

lemma tableOps_good {m : Message} (hm : Typed H S m) : ∀ op ∈ H.tableOps [] m, GoodOp H S op := by
  obtain ⟨_, hrep⟩ := H.tableOps_schema hm.decls
  intro op hop
  have hmem := tableOps_slot hm hop
  have htab : op.2 ∈ m.tables := by
    rw [← H.tableOps_snd m []]
    exact List.mem_map_of_mem hop
  exact ⟨Schema.slot_of_mem hm.user hmem, hrep op hop, S.hasKey _ (Schema.mem_tables_of_slot hmem),
    fun e he => ⟨op.2.typed e he, hm.texts _ htab e he⟩⟩

lemma tableOps_pairwise {m : Message} (hm : Typed H S m) : (H.tableOps [] m).Pairwise
    (fun a b => Apart (indexKey a.2.name a.1) (indexKey b.2.name b.1)) := by
  obtain ⟨hslots, _⟩ := H.tableOps_schema hm.decls
  have hnames : ((H.tableOps [] m).map fun op => op.2.name).Nodup := by
    have hh := congrArg (List.map fun s => s.2.1) hslots
    simp only [List.map_map, Schema.slotsOf_names] at hh
    exact hh ▸ S.nodup
  have hspacer : ∀ op ∈ H.tableOps [] m, (35 : UInt8) ∉ op.2.name := by
    intro op hop
    exact S.noSpacer _ (Schema.mem_tables_of_slot (tableOps_slot hm hop))
  exact (List.pairwise_map.mp hnames).imp_of_mem fun ha hb hne =>
    apart_of_table (hspacer _ ha) (hspacer _ hb) hne

def FitsIndex (H : PbMessageKVHandle) (m : Message) (store : Store) : Prop :=
  ∀ op ∈ H.tableOps [] m, (store.get (indexKey op.2.name op.1)).length < 2 ^ 32 - 1

theorem call_spec (hidx : H.funRang = none) (c : KVCall) {store : Store} {R : Bytes → Rows}
    {K : Bytes → List (List Bytes)} (hm : Typed H S c.message) (hfit : FitsIndex H c.message store)
    (h : HoldsAll H S store R K) :
    ∃ store' K', c.exec H store = some store' ∧
      HoldsAll H S store' (fun p => opRows (H := H) c p (H.tableOps [] c.message) (R p)) K' ∧
      ∀ p d, S.Slot H.native p d → Complete (R p) (K p) →
        (Complete (opRows (H := H) c p (H.tableOps [] c.message) (R p)) (K' p) ↔
          ∀ op ∈ H.tableOps [] c.message, indexKey op.2.name op.1 = p → c.Fits H (R p) op.2.elems) := by
  obtain ⟨store', K', hr, hall, _, hcomp⟩ := ops_spec hidx c (H.tableOps [] c.message) store R K
    (tableOps_good hm) (tableOps_pairwise hm) hfit h
  exact ⟨store', K', by rw [c.exec_eq, hr], hall, hcomp⟩

def rowsAt (H : PbMessageKVHandle) (calls : List KVCall) (p : Bytes) : Rows :=
  calls.foldl (fun rows c => opRows (H := H) c p (H.tableOps [] c.message) rows) fun _ => none

lemma rowsAt_concat (calls : List KVCall) (c : KVCall) (p : Bytes) :
    rowsAt H (calls ++ [c]) p = opRows (H := H) c p (H.tableOps [] c.message) (rowsAt H calls p) := by
  simp [rowsAt]

lemma holdsAll_empty : HoldsAll H S ∅ (rowsAt H []) fun _ => [] := by
  intro p d _
  refine ⟨⟨?_, ?_, ?_, ?_⟩, List.nodup_nil, by simp, rfl⟩ <;> intro ks e he <;> simp [rowsAt] at he

theorem run_spec (hidx : H.funRang = none) (calls : List KVCall) (hm : ∀ c ∈ calls, Typed H S c.message)
    (hfit : StepsMeet (KVCall.exec H) (fun _ store c => FitsIndex H c.message store) ∅ calls) :
    ∃ store, run (KVCall.exec H) ∅ calls = some store ∧ ∃ K, HoldsAll H S store (rowsAt H calls) K := by
  have hstep : ∀ done (store : Store) c, (∃ K, HoldsAll H S store (rowsAt H done) K) →
      (Typed H S c.message ∧ FitsIndex H c.message store) →
      ∃ store', c.exec H store = some store' ∧ ∃ K, HoldsAll H S store' (rowsAt H (done ++ [c])) K := by
    rintro done store c ⟨K, h⟩ ⟨ht, hf⟩
    obtain ⟨store', K', hs, hall, _⟩ := call_spec hidx c ht hf h
    refine ⟨store', hs, K', ?_⟩
    simpa only [HoldsAll, rowsAt_concat] using hall
  refine run_invariant (I := fun done store => ∃ K, HoldsAll H S store (rowsAt H done) K)
    (C := fun _ store c => Typed H S c.message ∧ FitsIndex H c.message store)
    ⟨_, holdsAll_empty⟩ hstep calls fun done c hd store hs => ⟨?_, hfit done c hd store hs⟩
  exact hm c (hd.subset (by simp))

/-- Tables that stand before the common key are not told apart by user. -/
def Separated (H : PbMessageKVHandle) (S : Schema H.keys) (calls : List KVCall) (u : Bytes) : Prop :=
  S.before = [] ∨ ∀ c ∈ calls, H.userText c.message = u

lemma op_key_iff {u : Bytes} (hu : u.length < 2 ^ 32) {s : Bytes × (Bytes × Descriptor)}
    (hs : s ∈ S.slotsOf H.native u) {m : Message} (hm : Typed H S m)
    (hsep : S.before = [] ∨ H.userText m = u) {op : Bytes × Table} (hop : op ∈ H.tableOps [] m) :
    indexKey op.2.name op.1 = indexKey s.2.1 s.1 ↔ op.2.name = s.2.1 ∧ H.userText m = u := by
  have hmem := tableOps_slot hm hop
  constructor
  · intro he
    rcases Schema.slots_apart hm.user hu hmem hs with ⟨ht, hb⟩ | ha
    · refine ⟨congrArg Prod.fst ht, ?_⟩
      rcases hb with hb | hb
      · rcases hsep with hnil | huser
        · simp [hnil] at hb
        · exact huser
      · exact hb
    · exact (ha [] [] (by simpa using he)).elim
  · rintro ⟨hn, hu'⟩
    have ht := Schema.table_unique (Schema.mem_tables_of_slot hmem) (Schema.mem_tables_of_slot hs) hn
    have hk := Schema.slot_key_eq hmem hs ht (Or.inr hu')
    simp only at hk
    rw [hn, hk]

lemma foldl_tables_eq (c : KVCall) {p u name : Bytes} {ops : List (Bytes × Table)}
    (h : ∀ op ∈ ops, indexKey op.2.name op.1 = p ↔ op.2.name = name ∧ H.userText c.message = u)
    (rows : Rows) : opRows (H := H) c p ops rows =
      if H.userText c.message = u then
        (ops.map Prod.snd).foldl (fun rows f => if f.name = name then c.applyRows H rows f.elems else rows) rows
      else rows := by
  by_cases hu : H.userText c.message = u
  · rw [if_pos hu]
    induction ops generalizing rows with
    | nil => rfl
    | cons op ops ih =>
      have hop := h op (by simp)
      simp only [hu, and_true] at hop
      simp only [opRows, List.foldl_cons, List.map_cons, hop]
      exact ih (fun o ho => h o (by simp [ho])) _
  · rw [if_neg hu]
    exact opRows_of_apart c (fun op hop he => hu ((h op hop).mp he).2) rows

lemma rowsAt_eq_live {u : Bytes} (hu : u.length < 2 ^ 32) {s : Bytes × (Bytes × Descriptor)}
    (hs : s ∈ S.slotsOf H.native u) {calls : List KVCall} (hm : ∀ c ∈ calls, Typed H S c.message)
    (hsep : Separated H S calls u) : rowsAt H calls (indexKey s.2.1 s.1) = live H u s.2.1 calls := by
  have hcall : ∀ c ∈ calls, ∀ rows : Rows, opRows (H := H) c (indexKey s.2.1 s.1) (H.tableOps [] c.message) rows =
      if H.userText c.message = u then
        c.message.tables.foldl (fun rows f => if f.name = s.2.1 then c.applyRows H rows f.elems else rows) rows
      else rows := by
    intro c hc rows
    rw [← H.tableOps_snd c.message []]
    exact foldl_tables_eq c (fun op hop => op_key_iff hu hs (hm c hc) (hsep.imp_right fun h => h c hc) hop) rows
  rw [rowsAt, live]
  exact List.foldl_ext _ _ _ fun rows c hc => hcall c hc rows

lemma exists_of_forall₂ {α β : Type*} {r : α → β → Prop} {l : List α} {l' : List β}
    (h : List.Forall₂ r l l') : ∀ a ∈ l, ∃ b ∈ l', r a b := by
  induction h with
  | nil => simp
  | cons hab _ ih =>
    intro x hx
    rcases List.mem_cons.mp hx with rfl | hx
    · exact ⟨_, List.mem_cons_self, hab⟩
    · obtain ⟨b, hb, hr⟩ := ih x hx
      exact ⟨b, List.mem_cons_of_mem _ hb, hr⟩

lemma loadFields_spec {store : Store} (m : Message) : ∀ ck : Bytes,
    (∀ op ∈ H.tableOps ck m, ∃ g, H.loadTable op.1 store op.2 = some g ∧
      Field.decl (.table g) = Field.decl (.table op.2)) →
    ∃ loaded, H.loadFields store ck m = some loaded ∧ loaded.decls = m.decls ∧
      List.Forall₂ (fun op g => H.loadTable op.1 store op.2 = some g) (H.tableOps ck m) loaded.tables := by
  induction m with
  | nil => exact fun _ _ => ⟨[], rfl, rfl, List.Forall₂.nil⟩
  | cons f m ih =>
    intro ck h
    cases f with
    | key f =>
      obtain ⟨loaded, hl, hd, ht⟩ := ih _ h
      exact ⟨.key f :: loaded, by simp [loadFields, hl], by simp [hd], ht⟩
    | table f =>
      obtain ⟨g, hg, hgd⟩ := h (ck, f) (by simp [tableOps])
      obtain ⟨loaded, hl, hd, ht⟩ := ih ck fun op hop => h op (by simp [tableOps, hop])
      refine ⟨.table g :: loaded, by simp [loadFields, hl, hg], by simp [hd, hgd], ?_⟩
      exact List.Forall₂.cons hg ht

lemma messageLoadOnKV_iff (hidx : H.funRang = none) {store : Store} {R : Bytes → Rows}
    {K : Bytes → List (List Bytes)} (h : HoldsAll H S store R K) {m : Message} (hm : Typed H S m)
    (hempty : ∀ f ∈ m.tables, f.elems = []) (hfit : FitsIndex H m store) (rows : Bytes → Rows)
    (hrows : ∀ op ∈ H.tableOps [] m, R (indexKey op.2.name op.1) = rows op.2.name) :
    (∃ loaded, H.messageLoadOnKV store m = some loaded ∧ loaded.decls = m.decls ∧
        ∀ f ∈ loaded.tables, H.LoadsExactly (rows f.name) f.elems) ↔
      ∀ op ∈ H.tableOps [] m, Complete (R (indexKey op.2.name op.1)) (K (indexKey op.2.name op.1)) := by
  have hload : ∀ op ∈ H.tableOps [] m, ∃ g, H.loadTable op.1 store op.2 = some g ∧
      Field.decl (.table g) = Field.decl (.table op.2) ∧
      (H.LoadsExactly (R (indexKey op.2.name op.1)) g.elems ↔
        Complete (R (indexKey op.2.name op.1)) (K (indexKey op.2.name op.1))) := by
    intro op hop
    have hg := tableOps_good hm op hop
    have htab : op.2 ∈ m.tables := by
      rw [← H.tableOps_snd m []]
      exact List.mem_map_of_mem hop
    exact load_spec hidx hg.repeated (hempty _ htab) (h _ _ hg.slot) (hfit op hop)
  have hexact : ∀ op ∈ H.tableOps [] m, ∀ g, H.loadTable op.1 store op.2 = some g →
      (H.LoadsExactly (rows g.name) g.elems ↔
        Complete (R (indexKey op.2.name op.1)) (K (indexKey op.2.name op.1))) := by
    intro op hop g hg
    obtain ⟨g', hg', hd, hiff⟩ := hload op hop
    obtain rfl : g = g' := Option.some.inj (hg.symm.trans hg')
    have hname : g.name = op.2.name := congrArg FieldDecl.name hd
    rw [hname, ← hrows op hop]
    exact hiff
  obtain ⟨loaded, hl, hd, ht⟩ := loadFields_spec m [] fun op hop =>
    (hload op hop).imp fun g hg => ⟨hg.1, hg.2.1⟩
  constructor
  · rintro ⟨loaded', hl', _, hall⟩ op hop
    obtain rfl : loaded' = loaded := Option.some.inj (hl'.symm.trans hl)
    obtain ⟨g, hgm, hg⟩ := exists_of_forall₂ ht op hop
    exact (hexact op hop g hg).mp (hall g hgm)
  · intro hc
    refine ⟨loaded, hl, hd, fun g hg => ?_⟩
    obtain ⟨op, hop, hlo⟩ := exists_of_forall₂ (List.Forall₂.flip ht) g hg
    exact (hexact op hop g hlo).mpr (hc op hop)

/-- Along the run, every index entry that a call or the load reads is shorter than its length type. -/
structure IndexFits (H : PbMessageKVHandle) (calls : List KVCall) (m : Message) : Prop where
  steps : StepsMeet (KVCall.exec H) (fun _ store c => FitsIndex H c.message store) ∅ calls
  loads : ∀ done, done <+: calls → ∀ store, run (KVCall.exec H) ∅ done = some store → FitsIndex H m store

lemma IndexFits.of_initial {calls done : List KVCall} {m : Message} (h : IndexFits H calls m) (hd : done <+: calls) :
    IndexFits H done m :=
  ⟨h.steps.of_initial hd, fun pre hp => h.loads pre (hp.trans hd)⟩

instance (m : Message) (store : Store) : Decidable (FitsIndex H m store) :=
  inferInstanceAs (Decidable (∀ op ∈ H.tableOps [] m, _))

lemma indexFits_of_inits {calls : List KVCall} {m : Message}
    (h : ∀ done ∈ calls.inits, (run (KVCall.exec H) ∅ done).all (fun store =>
      decide (FitsIndex H m store ∧ ∀ c ∈ calls, FitsIndex H c.message store)) = true) :
    IndexFits H calls m := by
  have hall : ∀ done, done <+: calls → ∀ store, run (KVCall.exec H) ∅ done = some store →
      FitsIndex H m store ∧ ∀ c ∈ calls, FitsIndex H c.message store := by
    intro done hd store hs
    have hh := h done (List.mem_inits _ _ |>.mpr hd)
    rw [hs] at hh
    simpa using hh
  constructor
  · intro done c hd store hs
    exact (hall done ((List.prefix_append _ _).trans hd) store hs).2 c (hd.subset (by simp))
  · exact fun done hd store hs => (hall done hd store hs).1

lemma fits_iff {m : Message} (hm : Typed H S m) {c : KVCall} (hc : Typed H S c.message) {done : List KVCall}
    (hdone : ∀ c ∈ done, Typed H S c.message) (hsep : Separated H S (done ++ [c]) (H.userText m)) :
    (∀ op ∈ H.tableOps [] m, ∀ o ∈ H.tableOps [] c.message, indexKey o.2.name o.1 = indexKey op.2.name op.1 →
        c.Fits H (rowsAt H done (indexKey op.2.name op.1)) o.2.elems) ↔
      (H.userText c.message = H.userText m →
        ∀ f ∈ c.message.tables, c.Fits H (live H (H.userText m) f.name done) f.elems) := by
  have hsepc : S.before = [] ∨ H.userText c.message = H.userText m := hsep.imp_right fun h => h c (by simp)
  have hsepd : Separated H S done (H.userText m) := hsep.imp_right fun h x hx => h x (by simp [hx])
  have hrows : ∀ op ∈ H.tableOps [] m,
      rowsAt H done (indexKey op.2.name op.1) = live H (H.userText m) op.2.name done :=
    fun op hop => rowsAt_eq_live hm.user (tableOps_slot hm hop) hdone hsepd
  constructor
  · intro h hu f hf
    rw [← H.tableOps_snd c.message []] at hf
    obtain ⟨o, ho, rfl⟩ := List.mem_map.mp hf
    have hslot := tableOps_slot hc ho
    rw [hu, ← (H.tableOps_schema hm.decls).1] at hslot
    obtain ⟨op, hop, he⟩ := List.mem_map.mp hslot
    simp only [Prod.mk.injEq] at he
    have hfits := h op hop o ho (by rw [he.1, he.2.1])
    rwa [hrows op hop, he.2.1] at hfits
  · intro h op hop o ho hkey
    obtain ⟨hn, hu⟩ := (op_key_iff hm.user (tableOps_slot hm hop) hc hsepc ho).mp hkey
    rw [hrows op hop]
    have hf : o.2 ∈ c.message.tables := by
      rw [← H.tableOps_snd c.message []]
      exact List.mem_map_of_mem ho
    have hfits := h hu o.2 hf
    rwa [hn] at hfits

section Run

variable {m : Message} (hidx : H.funRang = none) (hm : Typed H S m) (hempty : ∀ f ∈ m.tables, f.elems = [])
include hidx hm hempty

lemma loadsLive_iff {calls : List KVCall} (hcalls : ∀ c ∈ calls, Typed H S c.message)
    (hsep : Separated H S calls (H.userText m)) {store : Store} {K : Bytes → List (List Bytes)}
    (hrun : run (KVCall.exec H) ∅ calls = some store) (h : HoldsAll H S store (rowsAt H calls) K)
    (hfit : FitsIndex H m store) : LoadsLive H calls m ↔
      ∀ op ∈ H.tableOps [] m,
        Complete (rowsAt H calls (indexKey op.2.name op.1)) (K (indexKey op.2.name op.1)) := by
  have hrows : ∀ op ∈ H.tableOps [] m,
      rowsAt H calls (indexKey op.2.name op.1) = live H (H.userText m) op.2.name calls :=
    fun op hop => rowsAt_eq_live hm.user (tableOps_slot hm hop) hcalls hsep
  rw [← messageLoadOnKV_iff hidx h hm hempty hfit (fun name => live H (H.userText m) name calls) hrows]
  constructor
  · rintro ⟨store', loaded, hr, hl⟩
    obtain rfl : store = store' := Option.some.inj (hrun.symm.trans hr)
    exact ⟨loaded, hl⟩
  · rintro ⟨loaded, hl⟩
    exact ⟨store, loaded, hrun, hl⟩

lemma loadsLive_nil : LoadsLive H [] m := by
  have hfit : FitsIndex H m ∅ := by
    intro op _
    rw [Store.get_empty]
    simp
  rw [loadsLive_iff hidx hm hempty (by simp) (Or.inr (by simp)) rfl holdsAll_empty hfit]
  intro op _ ks hks
  simp [rowsAt] at hks

lemma loadsLive_concat_iff {done : List KVCall} {c : KVCall} (hcalls : ∀ x ∈ done ++ [c], Typed H S x.message)
    (hsep : Separated H S (done ++ [c]) (H.userText m)) (hfit : IndexFits H (done ++ [c]) m)
    (hdone : LoadsLive H done m) : LoadsLive H (done ++ [c]) m ↔
      (H.userText c.message = H.userText m →
        ∀ f ∈ c.message.tables, c.Fits H (live H (H.userText m) f.name done) f.elems) := by
  have hd : done <+: done ++ [c] := List.prefix_append _ _
  have hct : ∀ x ∈ done, Typed H S x.message := fun x hx => hcalls x (by simp [hx])
  have hcs : Separated H S done (H.userText m) := hsep.imp_right fun h x hx => h x (by simp [hx])
  have hc : Typed H S c.message := hcalls c (by simp)
  obtain ⟨store, hr, K, hall⟩ := run_spec hidx done hct (hfit.steps.of_initial hd)
  obtain ⟨store', K', hs, hall', hcomp⟩ :=
    call_spec hidx c hc (hfit.steps done c List.prefix_rfl store hr) hall
  have hr' : run (KVCall.exec H) ∅ (done ++ [c]) = some store' := by
    rw [run_concat, hr]
    exact hs
  simp only [← rowsAt_concat] at hall' hcomp
  rw [loadsLive_iff hidx hm hempty hct hcs hr hall (hfit.loads done hd store hr)] at hdone
  rw [loadsLive_iff hidx hm hempty hcalls hsep hr' hall' (hfit.loads _ List.prefix_rfl store' hr'),
    ← fits_iff hm hc hct hsep]
  refine forall₂_congr fun op hop => ?_
  exact hcomp _ _ (tableOps_good hm op hop).slot (hdone op hop)

theorem messageLoadOnKV_live_iff {calls : List KVCall} (hcalls : ∀ c ∈ calls, Typed H S c.message)
    (hsep : Separated H S calls (H.userText m)) (hfit : IndexFits H calls m) :
    (∀ done, done <+: calls → LoadsLive H done m) ↔
      ∀ done c, done ++ [c] <+: calls → H.userText c.message = H.userText m →
        ∀ f ∈ c.message.tables, c.Fits H (live H (H.userText m) f.name done) f.elems := by
  refine prefixes_iff_steps (loadsLive_nil hidx hm hempty) fun done c hd hdone => ?_
  have hsep' : Separated H S (done ++ [c]) (H.userText m) := hsep.imp_right fun h x hx => h x (hd.subset hx)
  exact loadsLive_concat_iff hidx hm hempty (fun x hx => hcalls x (hd.subset hx)) hsep' (hfit.of_initial hd) hdone

end Run

end PbMessageKVHandle

namespace UserData

open PbMessageKVHandle

lemma typed_repeatedTables {user_id : Bytes} {counts : List (Int32 × Int32 × Int32)}
    {caches : List (Int64 × Int64)} (hu : user_id.length < 2 ^ 32)
    (hs : ∀ f ∈ (repeatedTables user_id counts caches).tables, ∀ e ∈ f.elems,
      ∀ xs ∈ indexMode.dbKeyTexts e, xs.length < 2 ^ 32) :
    Typed indexMode repeatedSchema (repeatedTables user_id counts caches) :=
  ⟨repeatedTables_decls _ _ _, hu, hs⟩

theorem repeatedTables_live :
    LoadsLive indexMode [KVCall.update (repeatedTables (ascii "u1") [(1, 1, 5)] [(7, 0)]),
      KVCall.delete (repeatedTables (ascii "u1") [(1, 1, 0)] [])] (repeatedTables (ascii "u1") [] []) := by
  have htyped : ∀ c ∈ [KVCall.update (repeatedTables (ascii "u1") [(1, 1, 5)] [(7, 0)]),
      KVCall.delete (repeatedTables (ascii "u1") [(1, 1, 0)] [])],
      Typed indexMode repeatedSchema c.message := by
    intro c hc
    simp only [List.mem_cons, List.not_mem_nil, or_false] at hc
    rcases hc with rfl | rfl
    · exact typed_repeatedTables (by decide) (by decide +kernel)
    · exact typed_repeatedTables (by decide) (by decide +kernel)
  refine (messageLoadOnKV_live_iff rfl (typed_repeatedTables (by decide) (by decide +kernel)) (by decide +kernel)
    htyped (Or.inl rfl) (indexFits_of_inits (by decide +kernel))).mpr ?_ _ List.prefix_rfl
  intro done c hd _ f hf
  have hc := hd.subset (show c ∈ done ++ [c] by simp)
  simp only [List.mem_cons, List.not_mem_nil, or_false] at hc
  rcases hc with rfl | rfl
  · intro e he e' he' _ _
    have hf' : f = userCounts [(1, 1, 5)] ∨ f = clientCaches [(7, 0)] := by
      simpa [KVCall.message, repeatedTables, Message.tables] using hf
    rcases hf' with rfl | rfl
    · simp only [userCounts, List.map_cons, List.map_nil, List.mem_singleton] at he he'
      rw [he, he']
    · simp only [clientCaches, List.map_cons, List.map_nil, List.mem_singleton] at he he'
      rw [he, he']
  · trivial

/-- Two new counts in one update: a load does not return both. -/
theorem not_loadsLive_two_counts :
    Typed indexMode repeatedSchema (repeatedTables (ascii "u1") [(1, 1, 5), (1, 2, 6)] []) ∧
      ¬ LoadsLive indexMode [.update (repeatedTables (ascii "u1") [(1, 1, 5), (1, 2, 6)] [])]
        (repeatedTables (ascii "u1") [] []) := by
  have htyped : Typed indexMode repeatedSchema (repeatedTables (ascii "u1") [(1, 1, 5), (1, 2, 6)] []) :=
    typed_repeatedTables (by decide) (by decide +kernel)
  have hm : Typed indexMode repeatedSchema (repeatedTables (ascii "u1") [] []) :=
    typed_repeatedTables (by decide) (by decide +kernel)
  have hempty : ∀ f ∈ (repeatedTables (ascii "u1") [] []).tables, f.elems = [] := by decide +kernel
  refine ⟨htyped, fun h => ?_⟩
  have hcalls : ∀ c ∈ [] ++ [KVCall.update (repeatedTables (ascii "u1") [(1, 1, 5), (1, 2, 6)] [])],
      Typed indexMode repeatedSchema c.message := by
    intro c hc
    rw [List.mem_singleton.mp hc]
    exact htyped
  have hone := (loadsLive_concat_iff rfl hm hempty hcalls (Or.inl rfl)
    (indexFits_of_inits (by decide +kernel)) (loadsLive_nil rfl hm hempty)).mp h rfl
  have hkeys := hone (userCounts [(1, 1, 5), (1, 2, 6)]) (by simp [repeatedTables, Message.tables, KVCall.message])
    (countOf 1 1 5) (by simp [userCounts]) (countOf 1 2 6) (by simp [userCounts]) rfl rfl
  revert hkeys
  decide +kernel

end UserData

end TonyCat.Database
