import TonyCat.Database.MysqlStatements
import TonyCat.Database.SqlRows
import Mathlib.Data.List.TakeWhile

set_option autoImplicit false

/-! Templates and arguments of the statements of `MysqlModule`. -/

namespace TonyCat.Database

open TonyCat.Library

def isDigit (b : UInt8) : Bool := 48 ≤ b && b ≤ 57

def isNumber (text : Bytes) : Bool :=
  let digits := if text.head? = some 45 then text.tail else text
  let fraction := digits.dropWhile isDigit
  !(digits.takeWhile isDigit).isEmpty &&
    (fraction.isEmpty || (fraction.head? == some 46 && !fraction.tail.isEmpty && fraction.tail.all isDigit))

namespace MysqlModule

variable (M : MysqlModule)

/-- The columns whose values a statement for the table `f` of `m` may hold in a row, if the first element of the table
has the row `first`. -/
def Owns (m : Message) (f : Table) (first row : ℕ) (c : Column) : Prop :=
  c ∈ M.commonColumns m ∨ ∃ i pMsg, f.elems[i]? = some pMsg ∧ row = first + i ∧ c ∈ M.fieldColumns pMsg

end MysqlModule

/-- Each placeholder is at the position of a common key or of a column of the statement's table, its argument is the
value of that column in the element whose row it stands in, and it is quoted unless the value is a number. -/
structure Statement.Agrees (M : MysqlModule) (m : Message) (st : Statement) : Prop where
  count : holes st.strQueryString = st.vecArgs.length
  placed : ∃ ps first, places st.strQueryString = some ps ∧
    List.Forall₂ (fun pg arg => (∃ c, M.Owns m st.table first pg.2 c ∧ c.name = pg.1.column ∧ c.text = arg) ∧
      (isNumber arg = false → pg.1.quoted = true)) (ps.zip (groups 0 st.strQueryString)) st.vecArgs

structure Message.Named (m : Message) : Prop where
  keys : ∀ f, Field.key f ∈ m → Identifier f.name
  tables : ∀ f ∈ m.tables, Identifier f.name ∧ ∀ fd ∈ f.descriptor.fields, Identifier fd.name

/-! ### Numbers -/

lemma isNumber_digits {ds : Bytes} (hne : ds ≠ []) (h : ∀ b ∈ ds, isDigit b = true) :
    isNumber ds = true ∧ isNumber (45 :: ds) = true := by
  have htake : ds.takeWhile isDigit = ds := List.takeWhile_eq_self_iff.mpr h
  have hdrop : ds.dropWhile isDigit = [] := List.dropWhile_eq_nil_iff.mpr h
  have hhead : ds.head? ≠ some 45 := by
    intro hsign
    exact absurd (h 45 (List.mem_of_mem_head? hsign)) (by decide)
  constructor
  · simp [isNumber, hhead, htake, hdrop, hne]
  · simp [isNumber, htake, hdrop, hne]

lemma decimal_ne_nil (n : ℕ) : decimal n ≠ [] := by
  rw [decimal, ne_eq, List.map_eq_nil_iff]
  exact Nat.toDigits_ne_nil

lemma isDigit_decimal (n : ℕ) : ∀ b ∈ decimal n, isDigit b = true := by
  intro b hb
  obtain ⟨c, hc, rfl⟩ := List.mem_map.mp hb
  have hdigit := Nat.isDigit_of_mem_toDigits (by decide) (by decide) hc
  simp only [Char.isDigit, Bool.and_eq_true, decide_eq_true_eq] at hdigit
  have hlow : 48 ≤ c.toNat := hdigit.1
  have hhigh : c.toNat ≤ 57 := hdigit.2
  have hsmall : (UInt8.ofNat c.toNat).toNat = c.toNat := by
    rw [UInt8.toNat_ofNat']
    omega
  rw [isDigit, Bool.and_eq_true, decide_eq_true_eq, decide_eq_true_eq, UInt8.le_iff_toNat_le, UInt8.le_iff_toNat_le,
    hsmall]
  exact ⟨hlow, hhigh⟩

lemma isNumber_textOfInt (z : ℤ) : isNumber (textOfInt z) = true := by
  have hdigits := isNumber_digits (decimal_ne_nil z.natAbs) (isDigit_decimal _)
  rw [textOfInt]
  split
  · exact hdigits.2
  · exact hdigits.1

/-! ### Agreement from the places of a text -/

section Agrees

variable {M : MysqlModule} {m : Message} {st : Statement}

lemma Statement.Agrees.length_eq (h : st.Agrees M m) {ps : List Place} (hreads : Scan.Reads st.strQueryString ps) :
    ps.length = st.vecArgs.length := by
  rw [places_length hreads.places, h.count]

lemma Statement.agrees_iff {cgs : List (Column × ℕ)} {first k : ℕ}
    (hreads : Scan.Reads st.strQueryString ((cgs.map Prod.fst).map Column.place))
    (hgroups : Grouped st.strQueryString (cgs.map Prod.snd) k) (hargs : st.vecArgs = (cgs.map Prod.fst).map Column.text)
    (howns : ∀ cg ∈ cgs, M.Owns m st.table first cg.2 cg.1) :
    st.Agrees M m ↔ ∀ c ∈ cgs.map Prod.fst, isNumber c.text = false → c.cppType = .string := by
  have hquoted : ∀ c : Column, c.place.quoted = true ↔ c.cppType = .string := fun c => decide_eq_true_iff
  have hzip : ((cgs.map Prod.fst).map Column.place).zip (groups 0 st.strQueryString) =
      cgs.map fun cg => (cg.1.place, cg.2) := by
    rw [hgroups.groups_eq, List.map_map, List.zip_map']
    rfl
  rw [List.forall_mem_map]
  constructor
  · intro h
    obtain ⟨ps, first', hps, hplaced⟩ := h.placed
    obtain rfl := Option.some.inj (hreads.places.symm.trans hps)
    rw [hzip, hargs, List.map_map, List.forall₂_map_left_iff, List.forall₂_map_right_iff, List.forall₂_same] at hplaced
    intro cg hcg hnot
    exact (hquoted cg.1).mp ((hplaced cg hcg).2 hnot)
  · intro h
    refine ⟨?_, _, first, hreads.places, ?_⟩
    · simp [← places_length hreads.places, hargs]
    · rw [hzip, hargs, List.map_map, List.forall₂_map_left_iff, List.forall₂_map_right_iff, List.forall₂_same]
      exact fun cg hcg => ⟨⟨cg.1, howns cg hcg, rfl, rfl⟩, fun hnot => (hquoted cg.1).mpr (h cg hcg hnot)⟩

end Agrees

/-! ### Conditions -/

lemma reads_addQueryItemCondition {q : Query} {ps : List Place} (h : Scan.Reads q.strQuerys ps) {c : Column}
    (hc : Identifier c.name) : Scan.Reads (addQueryItemCondition q c).strQuerys (ps ++ [c.place]) := by
  rw [addQueryItemCondition_eq]
  apply h.append
  split
  · exact Scan.reads_andItem hc
  · exact Scan.reads_item hc

lemma reads_foldl {q : Query} {ps : List Place} (h : Scan.Reads q.strQuerys ps) {cs : List Column}
    (hcs : ∀ c ∈ cs, Identifier c.name) :
    Scan.Reads (cs.foldl addQueryItemCondition q).strQuerys (ps ++ cs.map Column.place) := by
  induction cs generalizing q ps with
  | nil => rwa [List.map_nil, List.append_nil]
  | cons c cs ih =>
    have hrest := ih (reads_addQueryItemCondition h (hcs c List.mem_cons_self)) fun d hd =>
      hcs d (List.mem_cons_of_mem c hd)
    rwa [List.append_assoc] at hrest

lemma grouped_addQueryItemCondition {q : Query} {gs : List ℕ} (h : Grouped q.strQuerys gs 0) {c : Column}
    (hc : Identifier c.name) : Grouped (addQueryItemCondition q c).strQuerys (gs ++ [0]) 0 := by
  have hspace : Grouped (ascii " ") [] 0 := .plain_flat (by decide) (by decide)
  have hequals : Grouped (ascii " = ") [] 0 := .plain_flat (by decide) (by decide)
  have hand : Grouped (ascii " AND ") [] 0 := .plain_flat (by decide) (by decide)
  have hitem : Grouped (itemText c) [0] 0 :=
    hspace.append_flat ((Grouped.identifier hc).append_flat (hequals.append_flat (.placeholder c.cppType)))
  rw [addQueryItemCondition_eq]
  apply h.append_flat
  split
  · exact hand.append_flat hitem
  · exact hitem

lemma grouped_foldl {q : Query} {gs : List ℕ} (h : Grouped q.strQuerys gs 0) {cs : List Column}
    (hcs : ∀ c ∈ cs, Identifier c.name) :
    Grouped (cs.foldl addQueryItemCondition q).strQuerys (gs ++ cs.map fun _ => 0) 0 := by
  induction cs generalizing q gs with
  | nil => rwa [List.map_nil, List.append_nil]
  | cons c cs ih =>
    have hrest := ih (grouped_addQueryItemCondition h (hcs c List.mem_cons_self)) fun d hd =>
      hcs d (List.mem_cons_of_mem c hd)
    rwa [List.append_assoc] at hrest

lemma vecArgs_foldl (q : Query) (cs : List Column) :
    (cs.foldl addQueryItemCondition q).vecArgs = q.vecArgs ++ cs.map Column.text := by
  induction cs generalizing q with
  | nil => exact (List.append_nil _).symm
  | cons c cs ih => rw [List.foldl_cons, ih, addQueryItemCondition, List.append_assoc]; rfl

namespace MysqlModule

variable (M : MysqlModule)

lemma foldl_addQueryMessageCondition (elems : List Element) (q : Query) :
    elems.foldl M.addQueryMessageCondition q = (elems.flatMap M.keyColumns).foldl addQueryItemCondition q := by
  induction elems generalizing q with
  | nil => rfl
  | cons e elems ih => rw [List.foldl_cons, ih, List.flatMap_cons, List.foldl_append, M.addQueryMessageCondition_eq]

lemma fieldValues_fst (pMsg : Element) : pMsg.fieldValues.map Prod.fst = pMsg.descriptor.fields := by
  have hl : pMsg.values.length = pMsg.descriptor.fields.length := by
    simpa using congrArg List.length pMsg.typed
  exact List.map_fst_zip (by omega)

lemma fieldValues_type {pMsg : Element} {fv : FieldDescriptor × Value} (h : fv ∈ pMsg.fieldValues) :
    fv.2.cppType = fv.1.cppType := by
  have hl : pMsg.values.length = pMsg.descriptor.fields.length := by
    simpa using congrArg List.length pMsg.typed
  have hsnd : pMsg.fieldValues.map Prod.snd = pMsg.values := List.map_snd_zip (by omega)
  have htyped : pMsg.fieldValues.map (Value.cppType ∘ Prod.snd) =
      pMsg.fieldValues.map (FieldDescriptor.cppType ∘ Prod.fst) := by
    rw [← List.map_map, ← List.map_map, hsnd, fieldValues_fst]
    exact pMsg.typed
  exact List.map_inj_left.mp htyped fv h

lemma keyColumns_subset (pMsg : Element) : M.keyColumns pMsg ⊆ M.fieldColumns pMsg := by
  rw [keyColumns, fieldColumns]
  exact List.map_subset _ List.filter_sublist.subset

lemma fieldColumns_name (pMsg : Element) :
    (M.fieldColumns pMsg).map Column.name = pMsg.descriptor.fields.map FieldDescriptor.name := by
  rw [fieldColumns, List.map_map, ← fieldValues_fst, List.map_map]
  rfl

lemma isNumber_key {v : Value} (hv : isDBCommonKeyType v.cppType = true) (blob : Bytes)
    (hnot : isNumber (dBProtoMessageToString M.rt blob v) = false) : v.cppType = .string := by
  cases v with
  | int32 v => exact absurd hnot (by simp [dBProtoMessageToString, isNumber_textOfInt])
  | int64 v => exact absurd hnot (by simp [dBProtoMessageToString, isNumber_textOfInt])
  | uint32 v => exact absurd hnot (by simp [dBProtoMessageToString, isNumber_textOfInt])
  | uint64 v => exact absurd hnot (by simp [dBProtoMessageToString, isNumber_textOfInt])
  | string s => rfl
  | _ => cases hv

lemma keyColumns_quoted {pMsg : Element} {c : Column} (hc : c ∈ M.keyColumns pMsg)
    (hnot : isNumber c.text = false) : c.cppType = .string := by
  obtain ⟨fv, hfv, rfl⟩ := List.mem_map.mp hc
  obtain ⟨hmem, hkey⟩ := List.mem_filter.mp hfv
  have htype := fieldValues_type hmem
  rw [isDBKey, Bool.and_eq_true, ← htype] at hkey
  exact htype ▸ M.isNumber_key hkey.1 _ hnot

lemma commonColumns_quoted {m : Message} {c : Column} (hc : c ∈ M.commonColumns m) (hnot : isNumber c.text = false) :
    c.cppType = .string := by
  obtain ⟨f, -, heq⟩ := List.mem_filterMap.mp hc
  cases f with
  | table => cases heq
  | key f =>
    cases heq
    exact M.isNumber_key f.isKey [] hnot

variable {M} in
lemma agrees_of_keys {m : Message} {st : Statement} {cs : List Column} {first k : ℕ} (hcs : cs ⊆ M.commonColumns m)
    (hreads : Scan.Reads st.strQueryString ((cs ++ st.table.elems.flatMap M.keyColumns).map Column.place))
    (hgroups : Grouped st.strQueryString
      (cs.map (fun _ => 0) ++ (rowColumns M.keyColumns first st.table.elems).map Prod.snd) k)
    (hargs : st.vecArgs = (cs ++ st.table.elems.flatMap M.keyColumns).map Column.text) : st.Agrees M m := by
  let cgs := cs.map (fun c => (c, 0)) ++ rowColumns M.keyColumns first st.table.elems
  have hfst : cgs.map Prod.fst = cs ++ st.table.elems.flatMap M.keyColumns := by
    rw [List.map_append, rowColumns_fst, List.map_map]
    exact congrArg (· ++ _) (List.map_id cs)
  have hsnd : cgs.map Prod.snd = cs.map (fun _ => 0) ++ (rowColumns M.keyColumns first st.table.elems).map Prod.snd := by
    rw [List.map_append, List.map_map]
    rfl
  rw [← hfst] at hreads hargs
  rw [← hsnd] at hgroups
  have howns : ∀ cg ∈ cgs, M.Owns m st.table first cg.2 cg.1 := by
    intro cg hcg
    obtain hcg | hcg := List.mem_append.mp hcg
    · obtain ⟨c, hc, rfl⟩ := List.mem_map.mp hcg
      exact .inl (hcs hc)
    · obtain ⟨i, pMsg, hget, hrow, hc⟩ := exists_of_mem_rowColumns hcg
      exact .inr ⟨i, pMsg, hget, hrow, M.keyColumns_subset pMsg hc⟩
  rw [Statement.agrees_iff hreads hgroups hargs howns, hfst]
  intro c hc
  obtain hc | hc := List.mem_append.mp hc
  · exact M.commonColumns_quoted (hcs hc)
  · obtain ⟨pMsg, -, hc⟩ := List.mem_flatMap.mp hc
    exact M.keyColumns_quoted hc

/-! ### Delete -/

lemma reads_repeatedCondition {α : Type*} {elems : List α} {f : α → Bytes} {g : α → List Place}
    (h : ∀ e ∈ elems, Scan.Reads (f e) (g e)) :
    Scan.Reads (repeatedCondition (elems.map f)) (elems.flatMap g) := by
  have hopen : Scan.Reads (ascii " (") [] := Scan.reads_plain (by decide)
  have hclose : Scan.Reads (ascii ")") [] := Scan.reads_plain (by decide)
  have hor : Scan.Reads (ascii " OR") [] := Scan.reads_plain (by decide)
  have hgroup : ∀ e ∈ elems, Scan.Reads (ascii " (" ++ f e ++ ascii ")") (g e) := by
    intro e he
    have hall := (hopen.append (h e he)).append hclose
    rwa [List.nil_append, List.append_nil] at hall
  cases elems with
  | nil => exact Scan.reads_nil
  | cons e elems =>
    rw [List.map_cons, repeatedCondition, List.flatMap_cons, List.flatMap_map]
    apply (hgroup e List.mem_cons_self).append
    refine Scan.Reads.flatMap fun x hx => ?_
    have hall := hor.append (hgroup x (List.mem_cons_of_mem e hx))
    rwa [List.nil_append, ← List.append_assoc, ← List.append_assoc] at hall

lemma grouped_repeatedCondition {elems : List Element} {f : Element → Bytes} {columns : Element → List Column}
    (h : ∀ pMsg ∈ elems, Grouped (f pMsg) ((columns pMsg).map fun _ => 0) 0) :
    Grouped (repeatedCondition (elems.map f)) ((rowColumns columns 1 elems).map Prod.snd) elems.length := by
  have hopen : Grouped (ascii " (") [] 1 := .plain (by decide) rfl
  have hclose : Grouped (ascii ")") [] 0 := .plain_flat (by decide) (by decide)
  have hor : Grouped (ascii " OR") [] 0 := .plain_flat (by decide) (by decide)
  have hgroup : ∀ pMsg ∈ elems, Grouped (ascii " (" ++ f pMsg ++ ascii ")") ((columns pMsg).map fun _ => 1) 1 := by
    intro pMsg hmem
    have hall := (hopen.append (h pMsg hmem)).append hclose
    simpa using hall
  cases elems with
  | nil => exact .nil
  | cons pMsg elems =>
    have hrest : Grouped (elems.flatMap fun x => ascii " OR" ++ (ascii " (" ++ f x ++ ascii ")"))
        ((rowColumns columns 1 elems).map Prod.snd) elems.length := by
      have hrow : ∀ p ∈ elems.zipIdx, Grouped (ascii " OR" ++ (ascii " (" ++ f p.1 ++ ascii ")"))
          ((columns p.1).map fun _ => 1) 1 := by
        intro p hp
        have hmem : p.1 ∈ elems := List.mem_of_getElem? (List.mem_zipIdx_iff_getElem?.mp hp)
        exact hor.append_flat (hgroup p.1 (List.mem_cons_of_mem pMsg hmem))
      have hrows := Grouped.rows hrow
      have hfst : (elems.zipIdx.flatMap fun p => ascii " OR" ++ (ascii " (" ++ f p.1 ++ ascii ")")) =
          elems.flatMap fun x => ascii " OR" ++ (ascii " (" ++ f x ++ ascii ")") := by
        conv_rhs => rw [← List.zipIdx_map_fst 0 elems, List.flatMap_map]
      rwa [hfst] at hrows
    have hall := (hgroup pMsg List.mem_cons_self).append hrest
    rw [rowColumns_shift, Nat.add_comm 1 elems.length] at hall
    rw [List.map_cons, repeatedCondition, List.flatMap_map, rowColumns, List.map_append, List.map_map]
    simp only [List.append_assoc] at hall ⊢
    exact hall

/-- The row of the first element: a repeated table has its conditions in parentheses. -/
def deleteRow (f : Table) : ℕ := if f.isRepeated then 1 else 0

lemma deleteStatement_spec {common : Query} {ps : List Place} {gs : List ℕ} (hcommon : Scan.Reads common.strQuerys ps)
    (hgrouped : Grouped common.strQuerys gs 0) {f : Table} (hname : Identifier f.name)
    (hkeys : ∀ c ∈ f.elems.flatMap M.keyColumns, Identifier c.name) :
    Scan.Reads (M.deleteStatement common f).strQueryString (ps ++ (f.elems.flatMap M.keyColumns).map Column.place) ∧
      (∃ k, Grouped (M.deleteStatement common f).strQueryString
        (gs ++ (rowColumns M.keyColumns (deleteRow f) f.elems).map Prod.snd) k) ∧
      (M.deleteStatement common f).vecArgs =
        common.vecArgs ++ (f.elems.flatMap M.keyColumns).map Column.text := by
  have happend : ∃ append : Query, M.deleteStatement common f =
      ⟨f, (if append.strQuerys ≠ [] then
          ascii "DELETE FROM " ++ f.name ++ ascii " WHERE " ++ common.strQuerys ++ ascii " AND" ++ append.strQuerys
        else ascii "DELETE FROM " ++ f.name ++ ascii " WHERE " ++ common.strQuerys), append.vecArgs⟩ ∧
      Scan.Reads append.strQuerys ((f.elems.flatMap M.keyColumns).map Column.place) ∧
      (∃ k, Grouped append.strQuerys ((rowColumns M.keyColumns (deleteRow f) f.elems).map Prod.snd) k) ∧
      append.vecArgs = common.vecArgs ++ (f.elems.flatMap M.keyColumns).map Column.text := by
    rw [deleteStatement]
    by_cases hrep : f.isRepeated = true
    · refine ⟨_, by rw [if_pos hrep], ?_, ⟨f.elems.length, ?_⟩, ?_⟩
      · dsimp only
        rw [List.map_map, List.map_flatMap]
        refine reads_repeatedCondition fun e he => ?_
        have hread := reads_foldl (q := .empty) Scan.reads_nil fun c hc =>
          hkeys c (List.mem_flatMap.mpr ⟨e, he, hc⟩)
        rwa [← M.addQueryMessageCondition_eq] at hread
      · dsimp only
        rw [List.map_map, deleteRow, if_pos hrep]
        refine grouped_repeatedCondition fun e he => ?_
        have hgroup := grouped_foldl (q := .empty) .nil fun c hc => hkeys c (List.mem_flatMap.mpr ⟨e, he, hc⟩)
        rwa [← M.addQueryMessageCondition_eq] at hgroup
      · dsimp only
        rw [List.flatMap_map, List.map_flatMap]
        refine congrArg _ (List.flatMap_congr fun e _ => ?_)
        rw [M.addQueryMessageCondition_eq, vecArgs_foldl]
        rfl
    · refine ⟨_, by rw [if_neg hrep], ?_, ⟨0, ?_⟩, ?_⟩
      · rw [M.foldl_addQueryMessageCondition]
        exact reads_foldl (q := ⟨[], common.vecArgs⟩) Scan.reads_nil hkeys
      · rw [M.foldl_addQueryMessageCondition, deleteRow, if_neg hrep, rowColumns_single (f.single (by simpa using hrep))]
        exact grouped_foldl (q := ⟨[], common.vecArgs⟩) .nil hkeys
      · rw [M.foldl_addQueryMessageCondition, vecArgs_foldl]
  obtain ⟨append, heq, hread, ⟨k, hgroup⟩, hargs⟩ := happend
  have hfrom : Scan.Plain (ascii "DELETE FROM ") := by decide
  have hwhere : Scan.Plain (ascii " WHERE ") := by decide
  have hand : Scan.Plain (ascii " AND") := by decide
  have hhead := (((Scan.reads_plain hfrom).append (Scan.reads_name hname)).append (Scan.reads_plain hwhere)).append
    hcommon
  have hheadGroup := (((Grouped.plain_flat hfrom (by decide)).append_flat (.identifier hname)).append_flat
    (.plain_flat hwhere (by decide))).append_flat hgrouped
  rw [heq]
  by_cases hne : append.strQuerys = []
  · -- no condition was added, so there is no placeholder for a key
    have hnil : (f.elems.flatMap M.keyColumns).map Column.place = [] := by
      have hlen := places_length hread.places
      rw [hne] at hlen
      exact List.length_eq_zero_iff.mp hlen
    have hnone : (rowColumns M.keyColumns (deleteRow f) f.elems).map Prod.snd = [] := by
      rw [hne] at hgroup
      exact hgroup.groups_eq.symm
    rw [if_neg (not_not.mpr hne), hnil, hnone, List.append_nil, List.append_nil]
    exact ⟨hhead, ⟨0, hheadGroup⟩, hargs⟩
  · rw [if_pos hne]
    refine ⟨?_, ⟨k, ?_⟩, hargs⟩
    · have hall := (hhead.append (Scan.reads_plain hand)).append hread
      rwa [List.append_nil] at hall
    · have hall := (hheadGroup.append_flat (.plain_flat hand (by decide))).append_flat hgroup
      rwa [List.append_nil] at hall

/-! ### Update -/

def commonKeys (cs : List Column) : CommonKeys where
  vecFieldNameCommon := cs.map Column.name
  vecFieldParamCharCommon := cs.map fun c => getProtoSqlStringPlaceholder c.cppType
  vecCommonKeyArgs := cs.map Column.text

lemma commonKeys_add (cs : List Column) (c : Column) : (commonKeys cs).add c = commonKeys (cs ++ [c]) := by
  simp only [commonKeys, CommonKeys.add, List.map_append, List.map_cons, List.map_nil]

lemma plain_joined {ss : List Bytes} (h : ∀ s ∈ ss, Scan.Plain s) : Scan.Plain (joined ss) := by
  cases ss with
  | nil => exact List.forall_mem_nil _
  | cons s ss =>
    have hsep : Scan.Plain (ascii ", ") := by decide
    exact (h s List.mem_cons_self).append (Scan.Plain.flatMap fun t ht => hsep.append (h t (List.mem_cons_of_mem s ht)))

lemma plain_comma_if (n : ℕ) : Scan.Plain (if n ≠ 0 then ascii "," else []) := by
  split
  · decide
  · exact List.forall_mem_nil _

lemma fieldColumns_placeholder (pMsg : Element) :
    (M.fieldColumns pMsg).map (fun c => getProtoSqlStringPlaceholder c.cppType) =
      pMsg.descriptor.fields.map fun fd => getProtoSqlStringPlaceholder fd.cppType := by
  rw [fieldColumns, List.map_map, ← fieldValues_fst, List.map_map]
  rfl

lemma reads_zipIdx {names : List Bytes} {elems : List Element} {f : Element × ℕ → Bytes}
    {g : Element → List Place} (h : ∀ p ∈ elems.zipIdx, Scan.ReadsIn names (f p) (g p.1)) :
    Scan.ReadsIn names (elems.zipIdx.flatMap f) (elems.flatMap g) := by
  have hfst : elems.zipIdx.flatMap (fun p => g p.1) = elems.flatMap g := by
    conv_rhs => rw [← List.zipIdx_map_fst 0 elems, List.flatMap_map]
  exact hfst ▸ Scan.ReadsIn.flatMap h

lemma readsIn_comma_if (names : List Bytes) (n : ℕ) :
    Scan.ReadsIn names (if n ≠ 0 then ascii "," else []) [] := by
  split
  · exact Scan.readsIn_comma names
  · exact Scan.readsIn_nil names

lemma reads_values {f : Table} {cs : List Column} (hcs : ∀ c ∈ cs, Identifier c.name)
    (hfields : ∀ fd ∈ f.descriptor.fields, Identifier fd.name) :
    Scan.Reads (ascii "(" ++ (joined (cs.map Column.name ++ f.descriptor.fields.map FieldDescriptor.name) ++
        ascii ")") ++ (ascii " VALUES" ++ f.elems.zipIdx.flatMap fun p => (if p.2 ≠ 0 then ascii "," else []) ++
          valuesElem (cs.map (fun c => getProtoSqlStringPlaceholder c.cppType) ++
            f.descriptor.fields.map fun fd => getProtoSqlStringPlaceholder fd.cppType)))
      (f.elems.flatMap fun pMsg => (cs ++ M.fieldColumns pMsg).map Column.place) := by
  have hname : ∀ pMsg ∈ f.elems, cs.map Column.name ++ f.descriptor.fields.map FieldDescriptor.name =
      (cs ++ M.fieldColumns pMsg).map Column.name := by
    intro pMsg hmem
    rw [List.map_append, M.fieldColumns_name, f.typed pMsg hmem]
  have hholder : ∀ pMsg ∈ f.elems, cs.map (fun c => getProtoSqlStringPlaceholder c.cppType) ++
      f.descriptor.fields.map (fun fd => getProtoSqlStringPlaceholder fd.cppType) =
        (cs ++ M.fieldColumns pMsg).map fun c => getProtoSqlStringPlaceholder c.cppType := by
    intro pMsg hmem
    rw [List.map_append, M.fieldColumns_placeholder, f.typed pMsg hmem]
  have hnames : ∀ n ∈ cs.map Column.name ++ f.descriptor.fields.map FieldDescriptor.name, Identifier n := by
    intro n hn
    obtain hn | hn := List.mem_append.mp hn
    · obtain ⟨c, hc, rfl⟩ := List.mem_map.mp hn
      exact hcs c hc
    · obtain ⟨fd, hfd, rfl⟩ := List.mem_map.mp hn
      exact hfields fd hfd
  cases hlist : cs.map Column.name ++ f.descriptor.fields.map FieldDescriptor.name with
  | nil =>
    -- no column at all, so no placeholder either
    obtain ⟨hcnil, hfnil⟩ := List.append_eq_nil_iff.mp hlist
    have hplaces : (f.elems.flatMap fun pMsg => (cs ++ M.fieldColumns pMsg).map Column.place) = [] := by
      refine List.flatMap_eq_nil_iff.mpr fun pMsg hmem => ?_
      have hnil := hname pMsg hmem
      rw [hlist] at hnil
      rw [List.map_eq_nil_iff.mp hnil.symm]
      rfl
    rw [hplaces, List.map_eq_nil_iff.mp hcnil, List.map_eq_nil_iff.mp hfnil]
    have hhead : Scan.Plain (ascii "(" ++ (joined [] ++ ascii ")")) := by decide
    have hvalues : Scan.Plain (ascii " VALUES") := by decide
    have hrow : Scan.Plain (valuesElem []) := by decide
    exact Scan.reads_plain (hhead.append (hvalues.append (Scan.Plain.flatMap fun p _ => (plain_comma_if p.2).append hrow)))
  | cons n ns =>
    rw [hlist] at hnames
    have hrows : Scan.ReadsIn (n :: ns) (f.elems.zipIdx.flatMap fun p => (if p.2 ≠ 0 then ascii "," else []) ++
        valuesElem (cs.map (fun c => getProtoSqlStringPlaceholder c.cppType) ++
          f.descriptor.fields.map fun fd => getProtoSqlStringPlaceholder fd.cppType))
        (f.elems.flatMap fun pMsg => (cs ++ M.fieldColumns pMsg).map Column.place) := by
      refine reads_zipIdx fun p hp => (readsIn_comma_if _ p.2).append ?_
      have hmem : p.1 ∈ f.elems := List.mem_of_getElem? (List.mem_zipIdx_iff_getElem?.mp hp)
      have hcolumns := hname p.1 hmem
      rw [hholder p.1 hmem]
      rw [hlist] at hcolumns
      obtain ⟨c, tail, heq, rfl, rfl⟩ := List.map_eq_cons_iff.mp hcolumns.symm
      rw [heq, valuesElem, List.map_cons, joined, List.flatMap_map, List.append_assoc]
      exact Scan.readsIn_row (.inr rfl) (some c) tail (.inr rfl)
    have hvalues : Scan.ReadsIn (n :: ns) (ascii " VALUES") [] := Scan.readsIn_plain (by decide) (by decide)
    refine (hvalues.append hrows).reads_append fun s hs => ?_
    rw [joined, List.append_assoc]
    refine Scan.turns_nameList (.inr rfl) (.inr (hnames n List.mem_cons_self))
      (fun x hx => hnames x (List.mem_cons_of_mem n hx)) ?_ hs
    exact (hnames _ (List.getLast_mem _)).1

lemma plain_assignments (message : Descriptor) {f : Table} (hfields : ∀ fd ∈ f.descriptor.fields, Identifier fd.name) :
    Scan.Plain (joined ((M.dataNames message f).map fun name => name ++ ascii "=values(" ++ name ++ ascii ")")) := by
  refine plain_joined fun s hs => ?_
  obtain ⟨name, hmem, rfl⟩ := List.mem_map.mp hs
  obtain ⟨fd, hfd, rfl⟩ := List.mem_map.mp hmem
  have hplain := Scan.plain_of_identifier (hfields fd (List.mem_filter.mp hfd).1)
  have hvalues : Scan.Plain (ascii "=values(") := by decide
  have hclose : Scan.Plain (ascii ")") := by decide
  exact ((hplain.append hvalues).append hplain).append hclose

lemma updateStatement_reads {f : Table} {cs : List Column} (hcs : ∀ c ∈ cs, Identifier c.name)
    (hname : Identifier f.name) (hfields : ∀ fd ∈ f.descriptor.fields, Identifier fd.name) (message : Descriptor) :
    Scan.Reads (M.updateStatement message (commonKeys cs) f).strQueryString
      (f.elems.flatMap fun pMsg => (cs ++ M.fieldColumns pMsg).map Column.place) := by
  have hinto : Scan.Reads (ascii "INSERT INTO ") [] := Scan.reads_plain (by decide)
  have hspace : Scan.Reads (ascii " ") [] := Scan.reads_plain (by decide)
  have hon : Scan.Reads (ascii " ON DUPLICATE KEY UPDATE ") [] := Scan.reads_plain (by decide)
  have hall := ((hinto.append (Scan.reads_name hname)).append hspace).append
    ((M.reads_values hcs hfields).append (hon.append (Scan.reads_plain (M.plain_assignments message hfields))))
  have hopen : ascii " (" = ascii " " ++ ascii "(" := rfl
  simp only [List.nil_append, List.append_nil, List.append_assoc] at hall
  simp only [updateStatement, commonKeys, hopen, List.append_assoc]
  exact hall

lemma grouped_joined {ss : List Bytes} (h : ∀ s ∈ ss, Grouped s [] 0) : Grouped (joined ss) [] 0 := by
  have hcomma : Grouped (ascii ", ") [] 0 := .plain_flat (by decide) (by decide)
  cases ss with
  | nil => exact .nil
  | cons s ss =>
    exact (h s List.mem_cons_self).append_flat
      (.flat_nil fun t ht => hcomma.append_flat (h t (List.mem_cons_of_mem s ht)))

lemma grouped_valuesElem (cs : List Column) :
    Grouped (valuesElem (cs.map fun c => getProtoSqlStringPlaceholder c.cppType)) (cs.map fun _ => 1) 1 := by
  have hopen : Grouped (ascii "(") [] 1 := .plain (by decide) rfl
  have hclose : Grouped (ascii " )") [] 0 := .plain_flat (by decide) (by decide)
  have hcomma : Grouped (ascii ", ") [] 0 := .plain_flat (by decide) (by decide)
  have hjoined : Grouped (joined (cs.map fun c => getProtoSqlStringPlaceholder c.cppType)) (cs.map fun _ => 0) 0 := by
    cases cs with
    | nil => exact .nil
    | cons c cs =>
      rw [List.map_cons, joined, List.flatMap_map]
      exact (Grouped.placeholder c.cppType).append_flat
        (.flat fun c' _ => hcomma.append_flat (.placeholder c'.cppType))
  have hall := hopen.append (hjoined.append_flat hclose)
  simpa [valuesElem] using hall

lemma updateStatement_groups {f : Table} {cs : List Column} (hcs : ∀ c ∈ cs, Identifier c.name)
    (hname : Identifier f.name) (hfields : ∀ fd ∈ f.descriptor.fields, Identifier fd.name) (message : Descriptor) :
    ∃ k, Grouped (M.updateStatement message (commonKeys cs) f).strQueryString
      ((rowColumns (fun pMsg => cs ++ M.fieldColumns pMsg) 2 f.elems).map Prod.snd) k := by
  have hinto : Grouped (ascii "INSERT INTO ") [] 0 := .plain_flat (by decide) (by decide)
  have hopen : Grouped (ascii " (") [] 1 := .plain (by decide) rfl
  have hclose : Grouped (ascii ")") [] 0 := .plain_flat (by decide) (by decide)
  have hvalues : Grouped (ascii " VALUES") [] 0 := .plain_flat (by decide) (by decide)
  have hnames : Grouped (joined (cs.map Column.name ++ f.descriptor.fields.map FieldDescriptor.name)) [] 0 := by
    refine grouped_joined fun s hs => ?_
    obtain hs | hs := List.mem_append.mp hs
    · obtain ⟨c, hc, rfl⟩ := List.mem_map.mp hs
      exact .identifier (hcs c hc)
    · obtain ⟨fd, hfd, rfl⟩ := List.mem_map.mp hs
      exact .identifier (hfields fd hfd)
  have hrows : Grouped (f.elems.zipIdx.flatMap fun p => (if p.2 ≠ 0 then ascii "," else []) ++
      valuesElem (cs.map (fun c => getProtoSqlStringPlaceholder c.cppType) ++
        f.descriptor.fields.map fun fd => getProtoSqlStringPlaceholder fd.cppType))
      ((rowColumns (fun pMsg => cs ++ M.fieldColumns pMsg) 1 f.elems).map Prod.snd) f.elems.length := by
    refine Grouped.rows fun p hp => ?_
    have hmem : p.1 ∈ f.elems := List.mem_of_getElem? (List.mem_zipIdx_iff_getElem?.mp hp)
    have hfirst : Grouped (if p.2 ≠ 0 then ascii "," else []) [] 0 := by
      split
      · exact .plain_flat (by decide) (by decide)
      · exact .nil
    have hrow := grouped_valuesElem (cs ++ M.fieldColumns p.1)
    rw [List.map_append (f := fun c => _), M.fieldColumns_placeholder, f.typed p.1 hmem] at hrow
    exact hfirst.append_flat hrow
  have hon : Scan.Plain (ascii " ON DUPLICATE KEY UPDATE ") := by decide
  have hhead := (((hinto.append_flat (.identifier hname)).append_flat hopen).append hnames).append hclose
  have hall := ((hhead.append hvalues).append hrows).append (.plain (hon.append (M.plain_assignments message hfields)) rfl)
  simp only [List.nil_append, List.map_nil, List.append_nil, rowColumns_shift] at hall
  rw [← List.append_assoc] at hall
  exact ⟨_, hall⟩

/-! ### Load -/

lemma flatMap_zipIdx_comma {α : Type*} (keep : α → Bool) (g : α → Bytes) (l : List α) (n : ℕ) :
    ((l.zipIdx (n + 1)).filter fun p => keep p.1).flatMap (fun p => (if p.2 ≠ 0 then ascii "," else []) ++ g p.1) =
      (l.filter keep).flatMap fun a => ascii "," ++ g a := by
  induction l generalizing n with
  | nil => rfl
  | cons a l ih =>
    rw [List.zipIdx_cons, List.filter_cons, List.filter_cons]
    cases keep a with
    | false => exact ih (n + 1)
    | true =>
      rw [if_pos rfl, if_pos rfl, List.flatMap_cons, List.flatMap_cons, ih (n + 1)]
      rfl

lemma flatMap_zipIdx_cons {α : Type*} (keep : α → Bool) (g : α → Bytes) (a : α) (l : List α) :
    (((a :: l).zipIdx).filter fun p => keep p.1).flatMap (fun p => (if p.2 ≠ 0 then ascii "," else []) ++ g p.1) =
      (if keep a then g a else []) ++ (l.filter keep).flatMap fun a => ascii "," ++ g a := by
  rw [List.zipIdx_cons, List.filter_cons, ← flatMap_zipIdx_comma keep g l 0]
  cases keep a <;> rfl

def nameSlot (keep : FieldDescriptor → Bool) (fd : FieldDescriptor) : Bytes := if keep fd then fd.name else []

def holeSlot (keep : FieldDescriptor → Bool) (fd : FieldDescriptor) : Bytes :=
  if keep fd then getProtoSqlStringPlaceholder fd.cppType else []

lemma strQueryInFields_cons {d : Descriptor} {fd : FieldDescriptor} {fds : List FieldDescriptor}
    (h : d.fields = fd :: fds) : M.strQueryInFields d = nameSlot (isDBKey M.keys d) fd ++
      ((fds.filter (isDBKey M.keys d)).map FieldDescriptor.name).flatMap fun name => ascii "," ++ name := by
  simp only [strQueryInFields, h, gt_iff_lt, Nat.pos_iff_ne_zero]
  rw [List.flatMap_map]
  exact flatMap_zipIdx_cons (isDBKey M.keys d) FieldDescriptor.name fd fds

lemma queryInItem_cons {pMsg : Element} {fd : FieldDescriptor} {fds : List FieldDescriptor}
    (h : pMsg.descriptor.fields = fd :: fds) : M.queryInItem pMsg =
      ascii "(" ++ (holeSlot (isDBKey M.keys pMsg.descriptor) fd ++
        (((fds.filter (isDBKey M.keys pMsg.descriptor)).flatMap fun fd =>
          ascii "," ++ getProtoSqlStringPlaceholder fd.cppType) ++ ascii ")")) := by
  rw [queryInItem, h, flatMap_zipIdx_cons (isDBKey M.keys pMsg.descriptor)
    (fun fd => getProtoSqlStringPlaceholder fd.cppType) fd fds, List.append_assoc]
  rfl

lemma keyColumns_slots {pMsg : Element} {fd : FieldDescriptor} {fds : List FieldDescriptor}
    (h : pMsg.descriptor.fields = fd :: fds) : ∃ (head : Option Column) (tail : List Column),
      M.keyColumns pMsg = head.toList ++ tail ∧
      head.elim [] Column.name = nameSlot (isDBKey M.keys pMsg.descriptor) fd ∧
      head.elim [] (fun c => getProtoSqlStringPlaceholder c.cppType) =
        holeSlot (isDBKey M.keys pMsg.descriptor) fd ∧
      tail.map Column.name = (fds.filter (isDBKey M.keys pMsg.descriptor)).map FieldDescriptor.name ∧
      (tail.flatMap fun c => ascii "," ++ getProtoSqlStringPlaceholder c.cppType) =
        (fds.filter (isDBKey M.keys pMsg.descriptor)).flatMap fun fd =>
          ascii "," ++ getProtoSqlStringPlaceholder fd.cppType := by
  let keep := isDBKey M.keys pMsg.descriptor
  let col (fv : FieldDescriptor × Value) : Column :=
    ⟨fv.1.name, fv.1.cppType, dBProtoMessageToString M.rt (dBProtoMessageToStringAsBlob M.rt pMsg) fv.2⟩
  have hfst := fieldValues_fst pMsg
  rw [h] at hfst
  obtain ⟨fv, fvs, hvalues, rfl, rfl⟩ := List.map_eq_cons_iff.mp hfst
  have hfilter : (fvs.map Prod.fst).filter keep = (fvs.filter fun fv => keep fv.1).map Prod.fst :=
    List.filter_map
  refine ⟨if keep fv.1 then some (col fv) else none, (fvs.filter fun fv => keep fv.1).map col, ?_, ?_, ?_, ?_, ?_⟩
  · rw [keyColumns, hvalues, List.filter_cons]
    change (if keep fv.1 then _ else _ : List _).map col = _
    cases keep fv.1 <;> rfl
  · change _ = if keep fv.1 then _ else _
    cases keep fv.1 <;> rfl
  · change _ = if keep fv.1 then _ else _
    cases keep fv.1 <;> rfl
  · change _ = ((fvs.map Prod.fst).filter keep).map _
    rw [hfilter, List.map_map, List.map_map]
    rfl
  · change _ = ((fvs.map Prod.fst).filter keep).flatMap _
    rw [hfilter, List.flatMap_map, List.flatMap_map]

lemma strQueryInItems_eq_nil {elems : List Element} (h : M.strQueryInItems elems = []) :
    elems.flatMap M.keyColumns = [] := by
  refine List.flatMap_eq_nil_iff.mpr fun pMsg hmem => ?_
  obtain ⟨n, hn, rfl⟩ := List.getElem_of_mem hmem
  have hitem := List.flatMap_eq_nil_iff.mp h (elems[n], n) (List.mem_zipIdx_iff_getElem?.mpr (List.getElem?_eq_getElem hn))
  by_cases hfields : elems[n].descriptor.fields.length ≤ 0
  · rw [M.keyColumns_eq_nil, dbKeyFields, List.length_eq_zero_iff.mp (Nat.le_zero.mp hfields)]
    rfl
  · rw [if_neg hfields, List.append_eq_nil_iff, queryInItem] at hitem
    exact absurd hitem.2 (List.cons_ne_nil _ _)

lemma grouped_queryInItem {pMsg : Element} {fd : FieldDescriptor} {fds : List FieldDescriptor}
    (h : pMsg.descriptor.fields = fd :: fds) : Grouped (M.queryInItem pMsg) ((M.keyColumns pMsg).map fun _ => 1) 1 := by
  have hopen : Grouped (ascii "(") [] 1 := .plain (by decide) rfl
  have hclose : Grouped (ascii ")") [] 0 := .plain_flat (by decide) (by decide)
  have hcomma : Grouped (ascii ",") [] 0 := .plain_flat (by decide) (by decide)
  obtain ⟨head, tail, hcolumns, -, hhole, -, hholes⟩ := M.keyColumns_slots h
  have hhead : Grouped (head.elim [] fun c => getProtoSqlStringPlaceholder c.cppType) (head.toList.map fun _ => 0) 0 := by
    cases head with
    | none => exact .nil
    | some c => exact .placeholder c.cppType
  have htail : Grouped (tail.flatMap fun c => ascii "," ++ getProtoSqlStringPlaceholder c.cppType)
      (tail.map fun _ => 0) 0 := .flat fun c _ => hcomma.append_flat (.placeholder c.cppType)
  have hall := hopen.append (hhead.append_flat (htail.append_flat hclose))
  rw [M.queryInItem_cons h, hcolumns, ← hholes, ← hhole]
  simpa using hall

section Tuples

variable {elems : List Element} {d : Descriptor} (htyped : ∀ pMsg ∈ elems, pMsg.descriptor = d)
  (hnames : ∀ fd ∈ d.fields, Identifier fd.name)
include htyped

lemma readsIn_items {fd : FieldDescriptor} {fds : List FieldDescriptor} (hfields : d.fields = fd :: fds) :
    Scan.ReadsIn (nameSlot (isDBKey M.keys d) fd :: (fds.filter (isDBKey M.keys d)).map FieldDescriptor.name)
      (M.strQueryInItems elems) ((elems.flatMap M.keyColumns).map Column.place) := by
  rw [List.map_flatMap]
  refine reads_zipIdx fun p hp => ?_
  have hmem : p.1 ∈ elems := List.mem_of_getElem? (List.mem_zipIdx_iff_getElem?.mp hp)
  have hd := htyped p.1 hmem
  have hcons : p.1.descriptor.fields = fd :: fds := by rw [hd, hfields]
  rw [if_neg (by simp [hcons])]
  refine (readsIn_comma_if _ p.2).append ?_
  obtain ⟨head, tail, hcolumns, hname, hhole, hnames', hholes⟩ := M.keyColumns_slots hcons
  rw [M.queryInItem_cons hcons, hcolumns, ← hholes, ← hhole, ← hd, ← hname, ← hnames']
  exact Scan.readsIn_row (.inl rfl) head tail (.inl rfl)

lemma grouped_items {fd : FieldDescriptor} {fds : List FieldDescriptor} (hfields : d.fields = fd :: fds) :
    Grouped (M.strQueryInItems elems) ((rowColumns M.keyColumns 1 elems).map Prod.snd) elems.length := by
  refine Grouped.rows fun p hp => ?_
  have hmem : p.1 ∈ elems := List.mem_of_getElem? (List.mem_zipIdx_iff_getElem?.mp hp)
  have hcons : p.1.descriptor.fields = fd :: fds := by rw [htyped p.1 hmem, hfields]
  have hcomma : Grouped (if p.2 ≠ 0 then ascii "," else []) [] 0 := by
    split
    · exact .plain_flat (by decide) (by decide)
    · exact .nil
  rw [if_neg (by simp [hcons])]
  exact hcomma.append_flat (M.grouped_queryInItem hcons)

include hnames

lemma grouped_tuples (hitems : M.strQueryInItems elems ≠ []) : ∃ k,
    Grouped (ascii " AND (" ++ M.strQueryInFields d ++ ascii ") IN (" ++ M.strQueryInItems elems ++ ascii ")")
      ((rowColumns M.keyColumns 3 elems).map Prod.snd) k := by
  obtain ⟨fd, fds, hfields⟩ : ∃ fd fds, d.fields = fd :: fds := by
    apply List.exists_cons_of_ne_nil
    intro hnil
    apply hitems
    refine List.flatMap_eq_nil_iff.mpr fun p hp => if_pos ?_
    rw [htyped p.1 (List.mem_of_getElem? (List.mem_zipIdx_iff_getElem?.mp hp)), hnil]
    rfl
  have hand : Grouped (ascii " AND (") [] 1 := .plain (by decide) rfl
  have hin : Grouped (ascii ") IN (") [] 1 := .plain (by decide) rfl
  have hclose : Grouped (ascii ")") [] 0 := .plain_flat (by decide) (by decide)
  have hslots : Grouped (M.strQueryInFields d) [] 0 := by
    refine .flat_nil fun p hp => ?_
    have hmem : p.1 ∈ d.fields :=
      List.mem_of_getElem? (List.mem_zipIdx_iff_getElem?.mp (List.mem_filter.mp hp).1)
    have hcomma : Grouped (if p.2 > 0 then ascii "," else []) [] 0 := by
      split
      · exact .plain_flat (by decide) (by decide)
      · exact .nil
    exact hcomma.append_flat (.identifier (hnames p.1 hmem))
  have hall := (((hand.append hslots).append hin).append (M.grouped_items htyped hfields)).append hclose
  simp only [List.map_nil, List.nil_append, List.append_nil, rowColumns_shift] at hall
  exact ⟨_, hall⟩

lemma reads_empty_tuples {fd : FieldDescriptor} {fds : List FieldDescriptor} (hfields : d.fields = fd :: fds)
    (hlast : (nameSlot (isDBKey M.keys d) fd ::
      (fds.filter (isDBKey M.keys d)).map FieldDescriptor.name).getLast (List.cons_ne_nil _ _) = []) :
    Scan.Reads (ascii "(" ++ ((nameSlot (isDBKey M.keys d) fd ++
        ((fds.filter (isDBKey M.keys d)).map FieldDescriptor.name).flatMap fun name => ascii "," ++ name) ++
      ascii ")") ++ (ascii " IN (" ++ M.strQueryInItems elems ++ ascii ")"))
      ((elems.flatMap M.keyColumns).map Column.place) := by
  have hrest : fds.filter (isDBKey M.keys d) = [] := by
    by_contra hne
    have hmem := List.getLast_mem (List.cons_ne_nil (nameSlot (isDBKey M.keys d) fd)
      ((fds.filter (isDBKey M.keys d)).map FieldDescriptor.name))
    rw [List.getLast_cons (by simpa using hne)] at hlast hmem
    have hname := List.getLast_mem (l := (fds.filter (isDBKey M.keys d)).map FieldDescriptor.name) (by simpa using hne)
    obtain ⟨fd', hfd, heq⟩ := List.mem_map.mp hname
    have hid := hnames fd' (hfields ▸ List.mem_cons_of_mem fd (List.mem_filter.mp hfd).1)
    exact hid.1 (heq.trans hlast)
  have hfirst : isDBKey M.keys d fd = false := by
    by_contra hkey
    simp only [hrest, List.map_nil, List.getLast_singleton, nameSlot, Bool.not_eq_false] at hlast hkey
    rw [if_pos hkey] at hlast
    exact (hnames fd (hfields ▸ List.mem_cons_self)).1 hlast
  have hitems : ∀ pMsg ∈ elems, M.queryInItem pMsg = ascii "()" := by
    intro pMsg hmem
    have hd := htyped pMsg hmem
    rw [M.queryInItem_cons (by rw [hd, hfields]), hd, hrest, holeSlot, hfirst]
    rfl
  have hcolumns : elems.flatMap M.keyColumns = [] := by
    refine List.flatMap_eq_nil_iff.mpr fun pMsg hmem => ?_
    rw [M.keyColumns_eq_nil, dbKeyFields, htyped pMsg hmem, hfields, List.filter_cons, hfirst, hrest]
    rfl
  rw [hcolumns, hrest, nameSlot, hfirst]
  have hhead : Scan.Plain (ascii "(" ++ (([] ++ []) ++ ascii ")")) := by decide
  have hin : Scan.Plain (ascii " IN (") := by decide
  have hclose : Scan.Plain (ascii ")") := by decide
  have hempty : Scan.Plain (ascii "()") := by decide
  refine Scan.reads_plain (hhead.append ((hin.append (Scan.Plain.flatMap fun p hp => ?_)).append hclose))
  split
  · exact List.forall_mem_nil _
  · rw [hitems p.1 (List.mem_of_getElem? (List.mem_zipIdx_iff_getElem?.mp hp))]
    exact (plain_comma_if p.2).append hempty

lemma reads_tuples : Scan.Reads (ascii "(" ++ (M.strQueryInFields d ++ ascii ")") ++
    (ascii " IN (" ++ M.strQueryInItems elems ++ ascii ")")) ((elems.flatMap M.keyColumns).map Column.place) := by
  have hclose : Scan.Reads (ascii ")") [] := Scan.reads_plain (by decide)
  cases hfields : d.fields with
  | nil =>
    have hin : M.strQueryInFields d = [] := by
      rw [strQueryInFields, hfields]
      rfl
    have hitems : M.strQueryInItems elems = [] := by
      refine List.flatMap_eq_nil_iff.mpr fun p hp => if_pos ?_
      rw [htyped p.1 (List.mem_of_getElem? (List.mem_zipIdx_iff_getElem?.mp hp)), hfields]
      rfl
    rw [M.strQueryInItems_eq_nil hitems, hin, hitems]
    exact Scan.reads_plain (by decide)
  | cons fd fds =>
    have hin : ∀ names, Scan.ReadsIn names (ascii " IN (") [] := fun names => Scan.readsIn_plain (by decide) (by decide)
    have htail := (hin _).append (M.readsIn_items htyped hfields)
    have hid : ∀ name ∈ (fds.filter (isDBKey M.keys d)).map FieldDescriptor.name, Identifier name := by
      intro name hname
      obtain ⟨fd', hfd, rfl⟩ := List.mem_map.mp hname
      exact hnames fd' (hfields ▸ List.mem_cons_of_mem fd (List.mem_filter.mp hfd).1)
    have hfirst : nameSlot (isDBKey M.keys d) fd = [] ∨ Identifier (nameSlot (isDBKey M.keys d) fd) := by
      rw [nameSlot]
      split
      · exact .inr (hnames fd (hfields ▸ List.mem_cons_self))
      · exact .inl rfl
    rw [M.strQueryInFields_cons hfields]
    by_cases hlast : (nameSlot (isDBKey M.keys d) fd ::
        (fds.filter (isDBKey M.keys d)).map FieldDescriptor.name).getLast (List.cons_ne_nil _ _) = []
    · exact M.reads_empty_tuples htyped hnames hfields hlast
    · have hlist := fun s hs => Scan.turns_nameList (.inl rfl) hfirst hid hlast (s := s) hs
      have hall := (htail.reads_append hlist).append hclose
      simpa only [List.append_assoc, List.nil_append, List.append_nil] using hall

end Tuples

def tupleColumns (f : Table) : List Column := if f.isRepeated then f.elems.flatMap M.keyColumns else []

lemma plain_selectText {f : Table} (hfields : ∀ fd ∈ f.descriptor.fields, Identifier fd.name) :
    Scan.Plain (selectText f) := by
  have hselect : Scan.Plain (ascii "SELECT ") := by decide
  have hcomma : Scan.Plain (ascii ",") := by decide
  have hspace : Scan.Plain (ascii " ") := by decide
  have hall := hselect.append (Scan.Plain.flatMap fun fd hfd =>
    (Scan.plain_of_identifier (hfields fd hfd)).append hcomma)
  exact Scan.Plain.append (fun b hb => hall b (List.dropLast_subset _ hb)) hspace

lemma loadStatement_reads {common : Query} {f : Table} {ps : List Place}
    (hquery : Scan.Reads (M.loadQuery common f).strQuerys ps) (hname : Identifier f.name)
    (hfields : ∀ fd ∈ f.descriptor.fields, Identifier fd.name) :
    Scan.Reads (M.loadStatement common f).strQueryString (ps ++ (M.tupleColumns f).map Column.place) := by
  have hfrom : Scan.Reads (ascii " FROM ") [] := Scan.reads_plain (by decide)
  have hand : Scan.Reads (ascii " AND ") [] := Scan.reads_plain (by decide)
  let items := if f.isRepeated then M.strQueryInItems f.elems else []
  have hwhere : Scan.Reads (if (M.loadQuery common f).strQuerys ≠ [] ∨ items ≠ [] then ascii " WHERE" else []) [] := by
    split
    · exact Scan.reads_plain (by decide)
    · exact Scan.reads_nil
  have htuples : Scan.Reads (if items ≠ [] then
      ascii " AND (" ++ M.strQueryInFields f.descriptor ++ ascii ") IN (" ++ items ++ ascii ")" else [])
      ((M.tupleColumns f).map Column.place) := by
    rw [tupleColumns]
    by_cases hne : items = []
    · rw [if_neg (not_not.mpr hne)]
      by_cases hrep : f.isRepeated = true
      · rw [if_pos hrep, M.strQueryInItems_eq_nil ((if_pos hrep).symm.trans hne)]
        exact Scan.reads_nil
      · rw [if_neg hrep]
        exact Scan.reads_nil
    · have hrep : f.isRepeated = true := by
        by_contra hrep
        exact hne (if_neg hrep)
      have hitems : items = M.strQueryInItems f.elems := if_pos hrep
      have hall := hand.append (M.reads_tuples f.typed hfields)
      have hopen : ascii " AND (" = ascii " AND " ++ ascii "(" := rfl
      have hin : ascii ") IN (" = ascii ")" ++ ascii " IN (" := rfl
      rw [if_pos hne, if_pos hrep, hitems, hopen, hin]
      simpa only [List.append_assoc, List.nil_append] using hall
  have hall := (Scan.reads_plain (plain_selectText hfields)).append ((hfrom.append (Scan.reads_name hname)).append
    (hwhere.append (hquery.append htuples)))
  simp only [List.nil_append] at hall
  exact hall

/-- The row of the first element: a repeated table has its keys in a list of tuples. -/
def loadRow (f : Table) : ℕ := if f.isRepeated then 3 else 0

lemma grouped_selectText {f : Table} (hfields : ∀ fd ∈ f.descriptor.fields, Identifier fd.name) :
    Grouped (selectText f) [] 0 := by
  refine .plain_flat (plain_selectText hfields) fun hmem => ?_
  obtain hmem | hmem := List.mem_append.mp hmem
  · obtain hmem | hmem := List.mem_append.mp (List.dropLast_subset _ hmem)
    · exact absurd hmem (by decide)
    · obtain ⟨fd, hfd, hmem⟩ := List.mem_flatMap.mp hmem
      obtain hmem | hmem := List.mem_append.mp hmem
      · exact absurd ((hfields fd hfd).2 40 hmem) (by decide)
      · exact absurd hmem (by decide)
  · exact absurd hmem (by decide)

lemma loadQuery_groups {common : Query} {f : Table} {gs : List ℕ} (h : Grouped common.strQuerys gs 0)
    (hkeys : ∀ c ∈ f.elems.flatMap M.keyColumns, Identifier c.name) : Grouped (M.loadQuery common f).strQuerys
      (gs ++ (if f.isRepeated then [] else f.elems.flatMap M.keyColumns).map fun _ => 0) 0 := by
  rw [loadQuery]
  by_cases hrep : f.isRepeated = true
  · rw [if_pos hrep, if_pos hrep, List.map_nil, List.append_nil]
    exact h
  · rw [if_neg hrep, if_neg hrep, M.foldl_addQueryMessageCondition]
    exact grouped_foldl h hkeys

lemma loadStatement_groups {common : Query} {f : Table} {gs : List ℕ} (h : Grouped common.strQuerys gs 0)
    (hname : Identifier f.name) (hfields : ∀ fd ∈ f.descriptor.fields, Identifier fd.name)
    (hkeys : ∀ c ∈ f.elems.flatMap M.keyColumns, Identifier c.name) :
    ∃ k, Grouped (M.loadStatement common f).strQueryString
      (gs ++ (rowColumns M.keyColumns (loadRow f) f.elems).map Prod.snd) k := by
  have hfrom : Grouped (ascii " FROM ") [] 0 := .plain_flat (by decide) (by decide)
  let items := if f.isRepeated then M.strQueryInItems f.elems else []
  have hwhere : Grouped (if (M.loadQuery common f).strQuerys ≠ [] ∨ items ≠ [] then ascii " WHERE" else []) [] 0 := by
    split
    · exact .plain_flat (by decide) (by decide)
    · exact .nil
  have hquery := M.loadQuery_groups h hkeys
  have hrest : ∃ k, Grouped ((M.loadQuery common f).strQuerys ++ if items ≠ [] then
      ascii " AND (" ++ M.strQueryInFields f.descriptor ++ ascii ") IN (" ++ items ++ ascii ")" else [])
      (gs ++ (rowColumns M.keyColumns (loadRow f) f.elems).map Prod.snd) k := by
    rw [loadRow]
    by_cases hrep : f.isRepeated = true
    · rw [if_pos hrep, List.map_nil, List.append_nil] at hquery
      rw [if_pos hrep]
      by_cases hitems : M.strQueryInItems f.elems = []
      · rw [if_neg (by simp [items, hitems]), List.append_nil,
          rowColumns_eq_nil (M.strQueryInItems_eq_nil hitems), List.map_nil, List.append_nil]
        exact ⟨0, hquery⟩
      · obtain ⟨k, htuples⟩ := M.grouped_tuples f.typed hfields hitems
        have hset : items = M.strQueryInItems f.elems := if_pos hrep
        rw [hset, if_pos hitems]
        exact ⟨k, hquery.append_flat htuples⟩
    · have hnone : items = [] := if_neg hrep
      rw [if_neg hrep] at hquery
      rw [if_neg (not_not.mpr hnone), if_neg hrep, List.append_nil, rowColumns_single (f.single (by simpa using hrep))]
      exact ⟨0, hquery⟩
  obtain ⟨k, hrest⟩ := hrest
  exact ⟨k, (grouped_selectText hfields).append_flat
    ((hfrom.append_flat (.identifier hname)).append_flat (hwhere.append_flat hrest))⟩

/-! ### Runs -/

/-- A table whose conditions stay in the text of the common key while their arguments are dropped. -/
def Leaks (f : Table) : Prop := f.isRepeated = false ∧ f.elems ≠ [] ∧ dbKeyFields M.keys f.descriptor ≠ []

structure Clean (q : Query) (cs : List Column) : Prop where
  reads : Scan.Reads q.strQuerys (cs.map Column.place)
  groups : Grouped q.strQuerys (cs.map fun _ => 0) 0
  args : q.vecArgs = cs.map Column.text

def Leaky (q : Query) : Prop := ∃ ps, Scan.Reads q.strQuerys ps ∧ q.vecArgs.length < ps.length

variable {M}

lemma Clean.add {q : Query} {cs : List Column} (h : Clean q cs) {c : Column} (hc : Identifier c.name) :
    Clean (addQueryItemCondition q c) (cs ++ [c]) := by
  constructor
  · rw [List.map_append]
    exact reads_addQueryItemCondition h.reads hc
  · rw [List.map_append]
    exact grouped_addQueryItemCondition h.groups hc
  · rw [addQueryItemCondition, h.args, List.map_append]
    rfl

lemma Leaky.add {q : Query} (h : Leaky q) {c : Column} (hc : Identifier c.name) :
    Leaky (addQueryItemCondition q c) := by
  obtain ⟨ps, hreads, hlt⟩ := h
  refine ⟨_, reads_addQueryItemCondition hreads hc, ?_⟩
  rw [addQueryItemCondition, List.length_append, List.length_append]
  exact Nat.add_lt_add_right hlt 1

section Load

variable {f : Table} (hname : Identifier f.name) (hfields : ∀ fd ∈ f.descriptor.fields, Identifier fd.name)
include hfields

lemma identifier_fieldColumns {pMsg : Element} (hmem : pMsg ∈ f.elems) :
    ∀ c ∈ M.fieldColumns pMsg, Identifier c.name := by
  intro c hc
  have hcname := List.mem_map_of_mem (f := Column.name) hc
  rw [M.fieldColumns_name, f.typed pMsg hmem] at hcname
  obtain ⟨fd, hfd, heq⟩ := List.mem_map.mp hcname
  exact heq ▸ hfields fd hfd

lemma identifier_keyColumns : ∀ c ∈ f.elems.flatMap M.keyColumns, Identifier c.name := by
  intro c hc
  obtain ⟨pMsg, hmem, hc⟩ := List.mem_flatMap.mp hc
  exact identifier_fieldColumns hfields hmem c (M.keyColumns_subset pMsg hc)

lemma loadQuery_reads {q : Query} {ps : List Place} (h : Scan.Reads q.strQuerys ps) :
    Scan.Reads (M.loadQuery q f).strQuerys
      (ps ++ (if f.isRepeated then [] else f.elems.flatMap M.keyColumns).map Column.place) ∧
    (M.loadQuery q f).vecArgs =
      q.vecArgs ++ (if f.isRepeated then [] else f.elems.flatMap M.keyColumns).map Column.text := by
  rw [loadQuery]
  by_cases hrep : f.isRepeated = true
  · rw [if_pos hrep, if_pos hrep, List.map_nil, List.map_nil, List.append_nil, List.append_nil]
    exact ⟨h, rfl⟩
  · rw [if_neg hrep, if_neg hrep, M.foldl_addQueryMessageCondition]
    exact ⟨reads_foldl h (identifier_keyColumns hfields), vecArgs_foldl _ _⟩

lemma Clean.of_leaks {q : Query} {cs : List Column} (h : Clean q cs) (hleak : M.Leaks f) :
    Leaky ⟨(M.loadQuery q f).strQuerys, q.vecArgs⟩ := by
  obtain ⟨hrep, helems, hkeys⟩ := hleak
  refine ⟨_, (loadQuery_reads hfields h.reads).1, ?_⟩
  obtain ⟨pMsg, hmem⟩ := List.exists_mem_of_ne_nil _ helems
  have hcolumns : f.elems.flatMap M.keyColumns ≠ [] := by
    intro hnil
    have hnone := List.flatMap_eq_nil_iff.mp hnil pMsg hmem
    rw [M.keyColumns_eq_nil, f.typed pMsg hmem] at hnone
    exact hkeys hnone
  have hpos := List.length_pos_of_ne_nil hcolumns
  simp only [h.args, hrep, Bool.false_eq_true, if_false, List.length_append, List.length_map]
  omega

lemma Clean.of_not_leaks {q : Query} {cs : List Column} (h : Clean q cs) (hleak : ¬ M.Leaks f) :
    Clean ⟨(M.loadQuery q f).strQuerys, q.vecArgs⟩ cs := by
  have hnone : (if f.isRepeated then [] else f.elems.flatMap M.keyColumns) = [] := by
    by_cases hrep : f.isRepeated = true
    · exact if_pos hrep
    · rw [if_neg hrep]
      refine List.flatMap_eq_nil_iff.mpr fun pMsg hmem => ?_
      rw [M.keyColumns_eq_nil, f.typed pMsg hmem]
      by_contra hkeys
      exact hleak ⟨by simpa using hrep, List.ne_nil_of_mem hmem, hkeys⟩
  have hreads := (loadQuery_reads (M := M) hfields h.reads).1
  have hgroups := M.loadQuery_groups h.groups (identifier_keyColumns hfields)
  rw [hnone, List.map_nil, List.append_nil] at hreads hgroups
  exact ⟨hreads, hgroups, h.args⟩

lemma Leaky.table {q : Query} (h : Leaky q) : Leaky ⟨(M.loadQuery q f).strQuerys, q.vecArgs⟩ := by
  obtain ⟨ps, hreads, hlt⟩ := h
  refine ⟨_, (loadQuery_reads hfields hreads).1, ?_⟩
  rw [List.length_append]
  exact Nat.lt_add_right _ hlt

include hname

lemma loadStatement_spec {q : Query} {ps : List Place} (h : Scan.Reads q.strQuerys ps) :
    Scan.Reads (M.loadStatement q f).strQueryString (ps ++ (f.elems.flatMap M.keyColumns).map Column.place) ∧
      (M.loadStatement q f).vecArgs = q.vecArgs ++ (f.elems.flatMap M.keyColumns).map Column.text := by
  obtain ⟨hreads, hargs⟩ := loadQuery_reads (M := M) hfields h
  have hstatement := M.loadStatement_reads hreads hname hfields
  have htexts : (M.loadStatement q f).vecArgs = (M.loadQuery q f).vecArgs ++
      (M.tupleColumns f).map Column.text := by
    rw [loadStatement, tupleColumns]
    by_cases hrep : f.isRepeated = true
    · simp only [hrep, if_true, List.map_flatMap]
    · simp only [hrep, Bool.false_eq_true, if_false, List.map_nil]
  rw [htexts, hargs]
  rw [tupleColumns] at hstatement ⊢
  by_cases hrep : f.isRepeated = true
  · simp only [hrep, if_true, List.map_nil, List.append_nil] at hstatement ⊢
    exact ⟨hstatement, trivial⟩
  · simp only [hrep, Bool.false_eq_true, if_false, List.map_nil, List.append_nil] at hstatement ⊢
    exact ⟨hstatement, trivial⟩

lemma Clean.agrees {m : Message} {q : Query} {cs : List Column} (h : Clean q cs) (hcs : cs ⊆ M.commonColumns m) :
    (M.loadStatement q f).Agrees M m := by
  obtain ⟨hreads, hargs⟩ := loadStatement_spec (M := M) hname hfields h.reads
  obtain ⟨k, hgroups⟩ := M.loadStatement_groups h.groups hname hfields (identifier_keyColumns hfields)
  rw [← List.map_append] at hreads
  rw [h.args, ← List.map_append] at hargs
  exact agrees_of_keys hcs hreads hgroups hargs

lemma Leaky.not_agrees {m : Message} {q : Query} (h : Leaky q) : ¬ (M.loadStatement q f).Agrees M m := by
  obtain ⟨ps, hreads, hlt⟩ := h
  obtain ⟨hreads, hargs⟩ := loadStatement_spec (M := M) hname hfields hreads
  intro hagrees
  have hlen := hagrees.length_eq hreads
  rw [hargs, List.length_append, List.length_append, List.length_map, List.length_map] at hlen
  omega

end Load

/-! ### The statements of a call -/

section Calls

variable {m : Message} (L : MysqlSelect)

lemma named_cons {f : Field} {m : Message} (h : Message.Named (f :: m)) : Message.Named m :=
  ⟨fun g hg => h.keys g (List.mem_cons_of_mem f hg), fun g hg => h.tables g (by
    rw [Message.tables, List.filterMap_cons]
    split
    · exact hg
    · exact List.mem_cons_of_mem _ hg)⟩

lemma leaky_loadFields {own : Message} {m : Message} (hm : m.Named) {q : Query} (h : Leaky q) :
    ∀ st ∈ (M.loadFields L q m).statements, ¬ st.Agrees M own := by
  induction m generalizing q with
  | nil => exact List.forall_mem_nil _
  | cons f m ih =>
    cases f with
    | key f => exact ih (named_cons hm) (h.add (hm.keys f List.mem_cons_self))
    | table f =>
      obtain ⟨hname, hfields⟩ := hm.tables f (by simp [Message.tables])
      rw [loadFields]
      dsimp only
      split
      · exact List.forall_mem_singleton.mpr (h.not_agrees hname hfields)
      · exact List.forall_mem_cons.mpr ⟨h.not_agrees hname hfields, ih (named_cons hm) (h.table hfields)⟩

lemma loadFields_agrees_iff {own : Message} {m : Message} (hm : m.Named) (hown : M.commonColumns m ⊆ M.commonColumns own)
    {q : Query} {cs : List Column} (h : Clean q cs) (hcs : cs ⊆ M.commonColumns own) (k : ℕ) (st : Statement)
    (hst : (M.loadFields L q m).statements[k]? = some st) :
    st.Agrees M own ↔ ∀ g ∈ m.tables.take k, ¬ M.Leaks g := by
  induction m generalizing q cs k with
  | nil => cases hst
  | cons f m ih =>
    cases f with
    | key f =>
      have hkey : M.keyColumn f ∈ M.commonColumns own := hown List.mem_cons_self
      have hcs' : cs ++ [M.keyColumn f] ⊆ M.commonColumns own := by
        intro c hc
        obtain hc | hc := List.mem_append.mp hc
        · exact hcs hc
        · exact List.mem_singleton.mp hc ▸ hkey
      exact ih (named_cons hm) (fun c hc => hown (List.mem_cons_of_mem _ hc)) (h.add (hm.keys f List.mem_cons_self))
        hcs' k hst
    | table f =>
      obtain ⟨hname, hfields⟩ := hm.tables f (by simp [Message.tables])
      have hagrees : (M.loadStatement q f).Agrees M own := h.agrees hname hfields hcs
      have htables : Message.tables (.table f :: m) = f :: Message.tables m := rfl
      rw [loadFields] at hst
      cases k with
      | zero =>
        have hhead : st = M.loadStatement q f := by
          dsimp only at hst
          split at hst <;> exact (Option.some.inj hst).symm
        rw [hhead, List.take_zero]
        exact iff_of_true hagrees (List.forall_mem_nil _)
      | succ k =>
        dsimp only at hst
        split at hst
        · cases hst
        · rw [htables, List.take_succ_cons, List.forall_mem_cons]
          by_cases hleak : M.Leaks f
          · refine iff_of_false ?_ fun hall => hall.1 hleak
            exact leaky_loadFields L (named_cons hm) (h.of_leaks hfields hleak) st (List.mem_of_getElem? hst)
          · rw [and_iff_right hleak]
            exact ih (named_cons hm) hown (h.of_not_leaks hfields hleak) hcs k hst

omit L

lemma identifier_commonColumns (hm : m.Named) : ∀ c ∈ M.commonColumns m, Identifier c.name := by
  intro c hc
  obtain ⟨f, hf, heq⟩ := List.mem_filterMap.mp hc
  cases f with
  | table => cases heq
  | key f =>
    cases heq
    exact hm.keys f hf

lemma named_split {before after : Message} {f : Table} (hm : Message.Named (before ++ .table f :: after)) :
    (∀ c ∈ M.commonColumns before, Identifier c.name) ∧ Identifier f.name ∧
      ∀ fd ∈ f.descriptor.fields, Identifier fd.name := by
  refine ⟨fun c hc => identifier_commonColumns (M := M) hm c ?_, hm.tables f (by simp [Message.tables])⟩
  rw [M.commonColumns_append]
  exact List.mem_append_left _ hc

lemma mem_updateFields {message : Descriptor} {st : Statement} {m : Message} (cs : List Column)
    (h : st ∈ (M.updateFields message (commonKeys cs) m).1) : ∃ before after,
      m = before ++ .table st.table :: after ∧ st.table.elems ≠ [] ∧
        st = M.updateStatement message (commonKeys (cs ++ M.commonColumns before)) st.table := by
  induction m generalizing cs with
  | nil => cases h
  | cons f m ih =>
    cases f with
    | key f =>
      rw [updateFields, commonKeys_add] at h
      obtain ⟨before, after, rfl, hset, hst⟩ := ih _ h
      rw [List.append_assoc] at hst
      exact ⟨.key f :: before, after, rfl, hset, hst⟩
    | table f =>
      have hlater : st ∈ (M.updateFields message (commonKeys cs) m).1 → ∃ before after,
          Field.table f :: m = before ++ .table st.table :: after ∧ st.table.elems ≠ [] ∧
            st = M.updateStatement message (commonKeys (cs ++ M.commonColumns before)) st.table := by
        intro h
        obtain ⟨before, after, rfl, hset, hst⟩ := ih cs h
        exact ⟨.table f :: before, after, rfl, hset, hst⟩
      rw [updateFields] at h
      by_cases hunset : f.elems = []
      · rw [if_pos hunset] at h
        exact hlater h
      · rw [if_neg hunset] at h
        have hhead : st = M.updateStatement message (commonKeys cs) f ∨
            st ∈ (M.updateFields message (commonKeys cs) m).1 := by
          dsimp only at h
          split at h
          · exact .inl (List.mem_singleton.mp h)
          · exact List.mem_cons.mp h
        obtain rfl | h := hhead
        · exact ⟨[], m, rfl, hunset, by rw [commonColumns, List.filterMap_nil, List.append_nil]; rfl⟩
        · exact hlater h

def Updates (M : MysqlModule) (f : Table) : Prop :=
  (f.isRepeated = true ∨ dbKeyFields M.keys f.descriptor = []) ∧
    ∀ pMsg ∈ f.elems, ∀ c ∈ M.fieldColumns pMsg, c.cppType ≠ .string → isNumber c.text = true

lemma deleteFields_agrees (hm : m.Named) : ∀ st ∈ (M.messageDelete m).1, st.Agrees M m := by
  intro st hst
  obtain ⟨before, after, heq, -, hdelete⟩ := M.mem_deleteFields hst
  obtain ⟨hcommon, hname, hfields⟩ := named_split (M := M) (heq ▸ hm)
  obtain ⟨hreads, ⟨k, hgroups⟩, hargs⟩ := M.deleteStatement_spec (reads_foldl (q := .empty) Scan.reads_nil hcommon)
    (grouped_foldl (q := .empty) .nil hcommon) hname (identifier_keyColumns hfields)
  rw [← hdelete, List.nil_append, ← List.map_append] at hreads
  rw [← hdelete, List.nil_append] at hgroups
  rw [← hdelete, vecArgs_foldl, Query.empty, List.nil_append, ← List.map_append] at hargs
  refine agrees_of_keys ?_ hreads hgroups hargs
  intro c hc
  rw [heq, M.commonColumns_append]
  exact List.mem_append_left _ hc

section Rows

variable {f : Table} {pMsg : Element} (hmem : pMsg ∈ f.elems) (cs : List Column)
include hmem

lemma rowArgs_eq (h : f.isRepeated = true ∨ dbKeyFields M.keys f.descriptor = []) :
    M.rowArgs f (commonKeys cs) pMsg = (cs ++ M.fieldColumns pMsg).map Column.text := by
  rw [rowArgs, List.map_append]
  refine congrArg _ ?_
  by_cases hrep : f.isRepeated = true
  · exact if_pos hrep
  · have hkeys := h.resolve_left hrep
    have hall : ∀ fv ∈ pMsg.fieldValues, (!isDBKey M.keys pMsg.descriptor fv.1) = true := by
      intro fv hfv
      have hfd : fv.1 ∈ f.descriptor.fields := by
        rw [← f.typed pMsg hmem, ← fieldValues_fst]
        exact List.mem_map_of_mem hfv
      rw [f.typed pMsg hmem]
      simpa using List.filter_eq_nil_iff.mp hkeys fv.1 hfd
    rw [if_neg hrep, List.filter_eq_self.mpr hall, fieldColumns, List.map_map]
    rfl

lemma rowArgs_length_lt (hrep : f.isRepeated = false) (hkeys : dbKeyFields M.keys f.descriptor ≠ []) :
    (M.rowArgs f (commonKeys cs) pMsg).length < (cs ++ M.fieldColumns pMsg).length := by
  have hlt : (pMsg.fieldValues.filter fun fv => !isDBKey M.keys pMsg.descriptor fv.1).length <
      pMsg.fieldValues.length := by
    rw [List.length_filter_lt_length_iff_exists]
    obtain ⟨fd, hfd⟩ := List.exists_mem_of_ne_nil _ hkeys
    obtain ⟨hfields, hkey⟩ := List.mem_filter.mp hfd
    rw [← f.typed pMsg hmem, ← fieldValues_fst] at hfields
    obtain ⟨fv, hfv, rfl⟩ := List.mem_map.mp hfields
    refine ⟨fv, hfv, ?_⟩
    rw [f.typed pMsg hmem, hkey]
    decide
  rw [rowArgs, hrep, if_neg Bool.false_ne_true, List.length_append, List.length_append, commonKeys, List.length_map,
    List.length_map, fieldColumns, List.length_map]
  exact Nat.add_lt_add_left hlt _

end Rows

lemma updateStatement_agrees_iff {f : Table} {cs : List Column} (hcs : ∀ c ∈ cs, Identifier c.name)
    (hname : Identifier f.name) (hfields : ∀ fd ∈ f.descriptor.fields, Identifier fd.name) (message : Descriptor)
    (hcommon : cs ⊆ M.commonColumns m) (hset : f.elems ≠ []) :
    (M.updateStatement message (commonKeys cs) f).Agrees M m ↔ M.Updates f := by
  have hreads := M.updateStatement_reads hcs hname hfields message
  by_cases hkeys : f.isRepeated = true ∨ dbKeyFields M.keys f.descriptor = []
  · have hargs : (M.updateStatement message (commonKeys cs) f).vecArgs =
        (f.elems.flatMap fun pMsg => cs ++ M.fieldColumns pMsg).map Column.text := by
      rw [List.map_flatMap]
      exact List.flatMap_congr fun pMsg hmem => rowArgs_eq hmem cs hkeys
    obtain ⟨k, hgroups⟩ := M.updateStatement_groups hcs hname hfields message
    rw [← List.map_flatMap, ← rowColumns_fst 2] at hreads
    rw [← rowColumns_fst 2] at hargs
    have howns : ∀ cg ∈ rowColumns (fun pMsg => cs ++ M.fieldColumns pMsg) 2 f.elems, M.Owns m f 2 cg.2 cg.1 := by
      intro cg hcg
      obtain ⟨i, pMsg, hget, hrow, hc⟩ := exists_of_mem_rowColumns hcg
      obtain hc | hc := List.mem_append.mp hc
      · exact .inl (hcommon hc)
      · exact .inr ⟨i, pMsg, hget, hrow, hc⟩
    rw [Statement.agrees_iff hreads hgroups hargs howns, rowColumns_fst]
    constructor
    · refine fun h => ⟨hkeys, fun pMsg hmem c hc hne => ?_⟩
      by_contra hnot
      exact hne (h c (List.mem_flatMap.mpr ⟨pMsg, hmem, List.mem_append_right cs hc⟩) (by simpa using hnot))
    · rintro ⟨-, h⟩ c hc hnot
      obtain ⟨pMsg, hmem, hc⟩ := List.mem_flatMap.mp hc
      obtain hc | hc := List.mem_append.mp hc
      · exact M.commonColumns_quoted (hcommon hc) hnot
      · by_contra hne
        exact absurd (h pMsg hmem c hc hne) (by simp [hnot])
  · refine iff_of_false (fun hagrees => ?_) fun h => hkeys h.1
    obtain ⟨hrep, hkeys⟩ := not_or.mp hkeys
    rw [Bool.not_eq_true] at hrep
    obtain ⟨pMsg, rest, helems⟩ := List.exists_cons_of_ne_nil hset
    obtain rfl : rest = [] := by
      have hsingle := f.single hrep
      rw [helems, List.length_cons] at hsingle
      exact List.length_eq_zero_iff.mp (by omega)
    have hlt : (M.rowArgs f (commonKeys cs) pMsg).length < (cs ++ M.fieldColumns pMsg).length :=
      rowArgs_length_lt (helems ▸ List.mem_singleton_self pMsg) cs hrep hkeys
    have hlen := hagrees.length_eq hreads
    change _ = (f.elems.flatMap (M.rowArgs f (commonKeys cs))).length at hlen
    rw [helems, List.flatMap_singleton, List.flatMap_singleton, List.length_map] at hlen
    omega

lemma updateFields_agrees_iff (hm : m.Named) (message : Descriptor) :
    ∀ st ∈ (M.messageUpdate message m).1, (st.Agrees M m ↔ M.Updates st.table) := by
  intro st hst
  obtain ⟨before, after, heq, hset, hupdate⟩ := mem_updateFields [] hst
  obtain ⟨hcommon, hname, hfields⟩ := named_split (M := M) (heq ▸ hm)
  have hsub : M.commonColumns before ⊆ M.commonColumns m := by
    rw [heq, M.commonColumns_append]
    exact List.subset_append_left _ _
  rw [List.nil_append] at hupdate
  have hiff := updateStatement_agrees_iff hcommon hname hfields message hsub hset
  rwa [← hupdate] at hiff

theorem statements_agree_iff (hm : m.Named) (L : MysqlSelect) (message : Descriptor) :
    (∀ (k : ℕ) (st : Statement), (M.messageLoad L m).statements[k]? = some st →
        (st.Agrees M m ↔ ∀ g ∈ m.tables.take k, ¬ M.Leaks g)) ∧
      (∀ st ∈ (M.messageUpdate message m).1, (st.Agrees M m ↔ M.Updates st.table)) ∧
      ∀ st ∈ (M.messageDelete m).1, st.Agrees M m := by
  refine ⟨fun k st hst => ?_, updateFields_agrees_iff hm message, deleteFields_agrees hm⟩
  have hclean : Clean .empty [] := ⟨Scan.reads_nil, .nil, rfl⟩
  exact loadFields_agrees_iff L hm (List.Subset.refl _) hclean (List.nil_subset _) k st hst

end Calls

end MysqlModule

namespace UserData

open MysqlModule

def userDataDescriptor : Descriptor := ⟨ascii "Db.UserData", []⟩

def noRows : MysqlSelect where
  querySelectRows := fun _ _ => (0, [])
  dBStringToProtoMessage := fun f _ => Value.default f.cppType
  cppType := fun f _ => Value.cppType_default f.cppType

lemma named_repeatedTables (user_id : Bytes) (counts : List (Int32 × Int32 × Int32)) (caches : List (Int64 × Int64)) :
    (repeatedTables user_id counts caches).Named := by
  constructor
  · intro f hf
    obtain rfl : f = userId user_id := by simpa [repeatedTables] using hf
    change Identifier (ascii "user_id")
    decide +kernel
  · intro f hf
    have hf' : f = userCounts counts ∨ f = clientCaches caches := by
      simpa [repeatedTables, Message.tables] using hf
    obtain rfl | rfl := hf'
    · refine ⟨identifier_userCounts counts, ?_⟩
      change ∀ fd ∈ userCount.fields, Identifier fd.name
      decide +kernel
    · refine ⟨identifier_clientCaches caches, ?_⟩
      change ∀ fd ∈ clientCache.fields, Identifier fd.name
      decide +kernel

theorem update_counts_agrees :
    ∃ st ∈ (mysql.messageUpdate userDataDescriptor (repeatedTables (ascii "u1") [(1, 1, 5), (1, 2, 6)] [])).1,
      st.Agrees mysql (repeatedTables (ascii "u1") [(1, 1, 5), (1, 2, 6)] []) := by
  have hst : mysql.updateStatement userDataDescriptor (commonKeys [mysql.keyColumn (userId (ascii "u1"))])
      (userCounts [(1, 1, 5), (1, 2, 6)]) ∈
        (mysql.messageUpdate userDataDescriptor (repeatedTables (ascii "u1") [(1, 1, 5), (1, 2, 6)] [])).1 :=
    List.mem_singleton_self _
  refine ⟨_, hst, ((statements_agree_iff (named_repeatedTables _ _ _) noRows userDataDescriptor).2.1 _ hst).mpr ?_⟩
  have hnumbers : ∀ pMsg ∈ (userCounts [(1, 1, 5), (1, 2, 6)]).elems, ∀ c ∈ mysql.fieldColumns pMsg,
      c.cppType ≠ .string → isNumber c.text = true := by decide +kernel
  exact ⟨.inl rfl, hnumbers⟩

def loginInfo (login_tick login_channel : Int64) : Table where
  name := ascii "client_login_info"
  isRepeated := false
  descriptor := clientLoginInfo
  elems := [⟨clientLoginInfo, [.int64 login_tick, .int64 login_channel, .string [], .string []], rfl⟩]
  typed := List.forall_mem_singleton.mpr rfl
  single := fun _ => le_refl 1

/-- The insert of a login has a placeholder for each key of it and for none of them an argument. -/
theorem update_login_not_agrees :
    ∃ st ∈ (mysql.messageUpdate userDataDescriptor [.key (userId (ascii "u1")), .table (loginInfo 1 2)]).1,
      ¬ st.Agrees mysql [.key (userId (ascii "u1")), .table (loginInfo 1 2)] := by
  have hst : mysql.updateStatement userDataDescriptor (commonKeys [mysql.keyColumn (userId (ascii "u1"))])
      (loginInfo 1 2) ∈
        (mysql.messageUpdate userDataDescriptor [.key (userId (ascii "u1")), .table (loginInfo 1 2)]).1 :=
    List.mem_singleton_self _
  refine ⟨_, hst, fun h => ?_⟩
  have hcount : holes (mysql.updateStatement userDataDescriptor
      (commonKeys [mysql.keyColumn (userId (ascii "u1"))]) (loginInfo 1 2)).strQueryString = 5 := by decide +kernel
  rw [h.count] at hcount
  cases hcount

end UserData

end TonyCat.Database
