import TonyCat.Database.IndexSteps
import TonyCat.Library.Run

set_option autoImplicit false

/-! Message types with one common key: which keys the tables of each user own, and a message as the
row of its tables. -/

namespace TonyCat.Database

open TonyCat.Library

structure Schema (keys : DbPbFieldKey) where
  /-- the tables declared before the common key, then those after it -/
  before : List (Bytes × Descriptor)
  keyName : Bytes
  keyType : CppType
  after : List (Bytes × Descriptor)
  hasKey : ∀ t ∈ before ++ after, dbKeyFields keys t.2 ≠ []
  nodup : ((before ++ after).map Prod.fst).Nodup
  noSpacer : ∀ t ∈ before ++ after, (35 : UInt8) ∉ t.1

namespace Schema

variable {keys : DbPbFieldKey} (S : Schema keys)

def tableDecl (t : Bytes × Descriptor) : FieldDecl :=
  .table t.1 true t.2

def decls : List FieldDecl :=
  S.before.map tableDecl ++ .key S.keyName S.keyType :: S.after.map tableDecl

def slotsOf (native : Endian) (u : Bytes) : List (Bytes × (Bytes × Descriptor)) :=
  S.before.map (fun t => ([], t)) ++ S.after.map fun t => (record native u, t)

def Slot (native : Endian) (p : Bytes) (d : Descriptor) : Prop :=
  ∃ u : Bytes, u.length < 2 ^ 32 ∧ ∃ s ∈ S.slotsOf native u, p = indexKey s.2.1 s.1 ∧ d = s.2.2

variable {S} {native : Endian}

lemma mem_slotsOf {u : Bytes} {s : Bytes × (Bytes × Descriptor)} :
    s ∈ S.slotsOf native u ↔ (s.2 ∈ S.before ∧ s.1 = []) ∨ (s.2 ∈ S.after ∧ s.1 = record native u) := by
  rcases s with ⟨ck, t⟩
  simp only [slotsOf, List.mem_append, List.mem_map, Prod.mk.injEq]
  constructor
  · rintro (⟨x, hx, rfl, rfl⟩ | ⟨x, hx, rfl, rfl⟩)
    · exact Or.inl ⟨hx, rfl⟩
    · exact Or.inr ⟨hx, rfl⟩
  · rintro (⟨hx, rfl⟩ | ⟨hx, rfl⟩)
    · exact Or.inl ⟨t, hx, rfl, rfl⟩
    · exact Or.inr ⟨t, hx, rfl, rfl⟩

lemma mem_tables_of_slot {u : Bytes} {s : Bytes × (Bytes × Descriptor)} (h : s ∈ S.slotsOf native u) :
    s.2 ∈ S.before ++ S.after := by
  rcases mem_slotsOf.mp h with ⟨hm, _⟩ | ⟨hm, _⟩ <;> simp [hm]

lemma table_unique {t t' : Bytes × Descriptor} (h : t ∈ S.before ++ S.after)
    (h' : t' ∈ S.before ++ S.after) (hn : t.1 = t'.1) : t = t' :=
  List.inj_on_of_nodup_map S.nodup h h' hn

lemma not_both {t : Bytes × Descriptor} (hb : t ∈ S.before) (ha : t ∈ S.after) : False :=
  (List.nodup_append.mp (List.Nodup.of_map _ S.nodup)).2.2 t hb t ha rfl

lemma slots_apart {u v : Bytes} (hu : u.length < 2 ^ 32) (hv : v.length < 2 ^ 32)
    {s t : Bytes × (Bytes × Descriptor)} (hs : s ∈ S.slotsOf native u) (ht : t ∈ S.slotsOf native v) :
    (s.2 = t.2 ∧ (s.2 ∈ S.before ∨ u = v)) ∨ Apart (indexKey s.2.1 s.1) (indexKey t.2.1 t.1) := by
  have hsm := mem_tables_of_slot hs
  have htm := mem_tables_of_slot ht
  by_cases hn : s.2.1 = t.2.1
  · have he := table_unique hsm htm hn
    rcases mem_slotsOf.mp hs with ⟨hb, _⟩ | ⟨ha, hck⟩
    · exact Or.inl ⟨he, Or.inl hb⟩
    · rcases mem_slotsOf.mp ht with ⟨hb', _⟩ | ⟨_, hck'⟩
      · exact (not_both hb' (he ▸ ha)).elim
      · by_cases huv : u = v
        · exact Or.inl ⟨he, Or.inr huv⟩
        · right
          rw [hck, hck', ← hn]
          exact apart_of_user (S.noSpacer _ hsm) hu hv huv
  · exact Or.inr (apart_of_table (S.noSpacer _ hsm) (S.noSpacer _ htm) hn)

lemma slot_key_eq {u v : Bytes} {s t : Bytes × (Bytes × Descriptor)} (hs : s ∈ S.slotsOf native u)
    (ht : t ∈ S.slotsOf native v) (he : s.2 = t.2) (h : s.2 ∈ S.before ∨ u = v) : s.1 = t.1 := by
  rcases mem_slotsOf.mp hs with ⟨hb, hck⟩ | ⟨ha, hck⟩ <;> rcases mem_slotsOf.mp ht with ⟨hb', hck'⟩ | ⟨ha', hck'⟩
  · rw [hck, hck']
  · exact (not_both hb (he ▸ ha')).elim
  · exact (not_both hb' (he ▸ ha)).elim
  · rcases h with hb | rfl
    · exact (not_both hb ha).elim
    · rw [hck, hck']

lemma Slot.eq_or_apart {p q : Bytes} {d d' : Descriptor} (hp : S.Slot native p d) (hq : S.Slot native q d') :
    (p = q ∧ d = d') ∨ Apart p q := by
  obtain ⟨u, hu, s, hs, rfl, rfl⟩ := hp
  obtain ⟨v, hv, t, ht, rfl, rfl⟩ := hq
  rcases slots_apart hu hv hs ht with ⟨he, hb⟩ | ha
  · left
    rw [slot_key_eq hs ht he hb, he]
    exact ⟨rfl, rfl⟩
  · exact Or.inr ha

lemma slot_of_mem {u : Bytes} (hu : u.length < 2 ^ 32) {s : Bytes × (Bytes × Descriptor)}
    (hs : s ∈ S.slotsOf native u) : S.Slot native (indexKey s.2.1 s.1) s.2.2 :=
  ⟨u, hu, s, hs, rfl, rfl⟩

lemma slotsOf_names (u : Bytes) :
    (S.slotsOf native u).map (fun s => s.2.1) = (S.before ++ S.after).map Prod.fst := by
  simp [slotsOf, Function.comp_def]

end Schema

def Message.tables (m : Message) : List Table :=
  m.filterMap fun f => match f with
    | .key _ => none
    | .table f => some f

namespace PbMessageKVHandle

variable (H : PbMessageKVHandle)

/-- Each table with the common key list that the loop has built when it gets there. -/
def tableOps : Bytes → Message → List (Bytes × Table)
  | _, [] => []
  | ck, .key f :: m => tableOps (appendRawData H.native ck (H.keyText f)) m
  | ck, .table f :: m => (ck, f) :: tableOps ck m

def userText : Message → Bytes
  | [] => []
  | .key f :: _ => H.keyText f
  | .table _ :: m => userText m

lemma updateFields_eq (m : Message) : ∀ (ck : Bytes) (store : Store), H.updateFields ck m store =
    run (fun store op => H.updateTable op.1 store op.2) store (H.tableOps ck m) := by
  induction m with
  | nil => exact fun _ _ => rfl
  | cons f m ih =>
    intro ck store
    cases f with
    | key f => exact ih _ _
    | table f =>
      simp only [updateFields, tableOps, run]
      congr 1
      funext store'
      exact ih _ _

lemma deleteFields_eq (m : Message) : ∀ (ck : Bytes) (store : Store), H.deleteFields ck m store =
    run (fun store op => H.deleteTable op.1 store op.2) store (H.tableOps ck m) := by
  induction m with
  | nil => exact fun _ _ => rfl
  | cons f m ih =>
    intro ck store
    cases f with
    | key f => exact ih _ _
    | table f =>
      simp only [deleteFields, tableOps, run]
      congr 1
      funext store'
      exact ih _ _

lemma tableOps_snd (m : Message) (ck : Bytes) : (H.tableOps ck m).map Prod.snd = m.tables := by
  induction m generalizing ck with
  | nil => rfl
  | cons f m ih =>
    cases f with
    | key f => simpa [tableOps, Message.tables] using ih _
    | table f => simpa [tableOps, Message.tables] using ih _

lemma tableOps_of_tables {ts : List (Bytes × Descriptor)} {m : Message}
    (h : m.decls = ts.map Schema.tableDecl) (ck : Bytes) :
    (H.tableOps ck m).map (fun op => (op.1, (op.2.name, op.2.descriptor))) = ts.map (fun t => (ck, t)) ∧
      ∀ op ∈ H.tableOps ck m, op.2.isRepeated = true := by
  induction m generalizing ts with
  | nil =>
    obtain rfl : ts = [] := by simpa using h.symm
    exact ⟨rfl, by simp [tableOps]⟩
  | cons f m ih =>
    cases ts with
    | nil => simp at h
    | cons t ts =>
      simp only [Message.decls_cons, List.map_cons, List.cons.injEq] at h
      obtain ⟨hf, hm⟩ := h
      cases f with
      | key f => simp [Field.decl, Schema.tableDecl] at hf
      | table f =>
        simp only [Field.decl, Schema.tableDecl, FieldDecl.table.injEq] at hf
        obtain ⟨ho, hr⟩ := ih hm
        refine ⟨?_, ?_⟩
        · simp only [tableOps, List.map_cons, ho, hf.1, hf.2.2]
        · intro op hop
          rcases List.mem_cons.mp hop with rfl | hop
          · exact hf.2.1
          · exact hr op hop

lemma tableOps_schema {S : Schema H.keys} {m : Message} (h : m.decls = S.decls) :
    (H.tableOps [] m).map (fun op => (op.1, (op.2.name, op.2.descriptor))) =
        S.slotsOf H.native (H.userText m) ∧
      ∀ op ∈ H.tableOps [] m, op.2.isRepeated = true := by
  obtain ⟨b, m', rfl, hb, hm'⟩ := List.map_eq_append_iff.mp h
  obtain ⟨f, a, rfl, hf, ha⟩ := List.map_eq_cons_iff.mp hm'
  cases f with
  | table f => simp [Field.decl] at hf
  | key f =>
    have happ : ∀ (l : Message) (ck : Bytes), (∃ ts : List (Bytes × Descriptor), l.decls = ts.map Schema.tableDecl) →
        H.tableOps ck (l ++ Field.key f :: a) =
          H.tableOps ck l ++ H.tableOps (ck ++ record H.native (H.keyText f)) a ∧
        H.userText (l ++ Field.key f :: a) = H.keyText f := by
      intro l
      induction l with
      | nil =>
        intro ck _
        simp [tableOps, userText, appendRawData_eq]
      | cons g l ih =>
        rintro ck ⟨ts, ht⟩
        cases ts with
        | nil => simp at ht
        | cons t ts =>
          simp only [Message.decls_cons, List.map_cons, List.cons.injEq] at ht
          cases g with
          | key g => simp [Field.decl, Schema.tableDecl] at ht
          | table g =>
            obtain ⟨ho, hu⟩ := ih ck ⟨ts, ht.2⟩
            simp [tableOps, userText, ho, hu]
    obtain ⟨ho, hu⟩ := happ b [] ⟨_, hb⟩
    obtain ⟨hob, hrb⟩ := H.tableOps_of_tables hb []
    obtain ⟨hoa, hra⟩ := H.tableOps_of_tables ha (record H.native (H.keyText f))
    rw [ho, hu]
    refine ⟨?_, ?_⟩
    · rw [List.map_append, hob, List.nil_append, hoa, Schema.slotsOf]
    · intro op hop
      rcases List.mem_append.mp hop with hop | hop
      · exact hrb op hop
      · exact hra op (by simpa using hop)

end PbMessageKVHandle

end TonyCat.Database
