import TonyCat.Database.Schema

set_option autoImplicit false

/-! Message types with any common keys: a table belongs to the keys declared before it. -/

namespace TonyCat.Database

open TonyCat.Library

def tablesAt : ℕ → List FieldDecl → List (ℕ × (Bytes × Descriptor))
  | _, [] => []
  | n, .key _ _ :: decls => tablesAt (n + 1) decls
  | n, .table name _ descriptor :: decls => (n, (name, descriptor)) :: tablesAt n decls

structure KeyPathSchema (keys : DbPbFieldKey) where
  decls : List FieldDecl
  repeated : ∀ name isRepeated descriptor, .table name isRepeated descriptor ∈ decls → isRepeated = true
  hasKey : ∀ t ∈ tablesAt 0 decls, dbKeyFields keys t.2.2 ≠ []
  nodup : ((tablesAt 0 decls).map fun t => t.2.1).Nodup
  noSpacer : ∀ t ∈ tablesAt 0 decls, (35 : UInt8) ∉ t.2.1

namespace PbMessageKVHandle

variable (H : PbMessageKVHandle)

def owned : List Bytes → Message → List (List Bytes × Table)
  | _, [] => []
  | us, .key f :: m => owned (us ++ [H.keyText f]) m
  | us, .table f :: m => (us, f) :: owned us m

lemma tableOps_owned (us : List Bytes) (m : Message) : H.tableOps (records H.native us) m =
    (H.owned us m).map fun o => (records H.native o.1, o.2) := by
  induction m generalizing us with
  | nil => rfl
  | cons f m ih =>
    cases f with
    | key f =>
      have hkey : appendRawData H.native (records H.native us) (H.keyText f) =
          records H.native (us ++ [H.keyText f]) := by
        rw [appendRawData_eq, records_append, records_cons, records_nil, List.append_nil]
      rw [tableOps, owned, hkey, ih]
    | table f => rw [tableOps, owned, List.map_cons, ih]

lemma owned_decls (us : List Bytes) (m : Message) :
    (H.owned us m).map (fun o => (o.1.length, (o.2.name, o.2.descriptor))) = tablesAt us.length m.decls := by
  induction m generalizing us with
  | nil => rfl
  | cons f m ih =>
    cases f with
    | key f => rw [owned, ih, List.length_append]; rfl
    | table f => rw [owned, List.map_cons, ih]; rfl

lemma owned_tables (us : List Bytes) (m : Message) : (H.owned us m).map Prod.snd = m.tables := by
  have hops := congrArg (List.map Prod.snd) (H.tableOps_owned us m)
  rw [H.tableOps_snd, List.map_map] at hops
  exact hops.symm

lemma mem_owned_tables {us : List Bytes} {m : Message} {o : List Bytes × Table} (h : o ∈ H.owned us m) :
    o.2 ∈ m.tables := by
  rw [← H.owned_tables us m]
  exact List.mem_map_of_mem h

end PbMessageKVHandle

/-- A message of the type `S` whose texts have a length that fits its field. -/
structure KeyPathTyped (H : PbMessageKVHandle) (S : KeyPathSchema H.keys) (m : Message) : Prop where
  decls : m.decls = S.decls
  keys : ∀ f, Field.key f ∈ m → (H.keyText f).length < 2 ^ 32
  texts : ∀ f ∈ m.tables, ∀ e ∈ f.elems, Short (H.dbKeyTexts e)

structure KeyPathSchema.Slot {keys : DbPbFieldKey} (S : KeyPathSchema keys) (us : List Bytes) (t : Bytes × Descriptor) :
    Prop where
  short : Short us
  mem : (us.length, t) ∈ tablesAt 0 S.decls

section Slot

variable {H : PbMessageKVHandle} {S : KeyPathSchema H.keys}

def slotKey (H : PbMessageKVHandle) (us : List Bytes) (name : Bytes) : Bytes := indexKey name (records H.native us)

lemma KeyPathSchema.Slot.eq_or_apart {us vs : List Bytes} {t t' : Bytes × Descriptor} (h : S.Slot us t)
    (h' : S.Slot vs t') : us = vs ∧ t = t' ∨ Apart (slotKey H us t.1) (slotKey H vs t'.1) := by
  by_cases hname : t.1 = t'.1
  · have heq := List.inj_on_of_nodup_map S.nodup h.mem h'.mem hname
    rw [Prod.mk.injEq] at heq
    by_cases hus : us = vs
    · exact .inl ⟨hus, heq.2⟩
    · refine .inr fun a b hab => hus ?_
      rw [slotKey, slotKey, ← hname] at hab
      obtain ⟨-, hrest⟩ := indexKey_append_inj (S.noSpacer _ h.mem) (S.noSpacer _ h.mem) hab
      exact (records_append_inj H.native h.short h'.short heq.1 hrest).1
  · exact .inr (apart_of_table (S.noSpacer _ h.mem) (S.noSpacer _ h'.mem) hname)

lemma owned_short {m : Message} {us : List Bytes} (hus : Short us)
    (hkeys : ∀ f, Field.key f ∈ m → (H.keyText f).length < 2 ^ 32) : ∀ o ∈ H.owned us m, Short o.1 := by
  induction m generalizing us with
  | nil => exact nofun
  | cons f m ih =>
    have hrest := fun g hg => hkeys g (List.mem_cons_of_mem f hg)
    cases f with
    | key f =>
      refine ih ?_ hrest
      intro xs hxs
      obtain hxs | hxs := List.mem_append.mp hxs
      · exact hus xs hxs
      · rw [List.mem_singleton.mp hxs]
        exact hkeys f List.mem_cons_self
    | table f =>
      intro o ho
      obtain rfl | ho := List.mem_cons.mp ho
      · exact hus
      · exact ih hus hrest o ho

lemma KeyPathTyped.slot {m : Message} (h : KeyPathTyped H S m) {o : List Bytes × Table} (ho : o ∈ H.owned [] m) :
    S.Slot o.1 (o.2.name, o.2.descriptor) := by
  refine ⟨owned_short (List.forall_mem_nil _) h.keys o ho, ?_⟩
  have hdecls := H.owned_decls [] m
  rw [h.decls] at hdecls
  exact hdecls ▸ List.mem_map_of_mem ho

lemma KeyPathTyped.repeated {m : Message} (h : KeyPathTyped H S m) {f : Table} (hf : f ∈ m.tables) :
    f.isRepeated = true := by
  have hmem : Field.table f ∈ m := by
    obtain ⟨field, hfield, heq⟩ := List.mem_filterMap.mp hf
    cases field with
    | key => cases heq
    | table g =>
      cases heq
      exact hfield
  have hdecl := List.mem_map_of_mem (f := Field.decl) hmem
  change _ ∈ m.decls at hdecl
  rw [h.decls] at hdecl
  exact S.repeated _ _ _ hdecl

end Slot

end TonyCat.Database
