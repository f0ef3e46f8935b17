import TonyCat.Database.MysqlExact

set_option autoImplicit false

/-! The placeholders of a statement, and the column at whose position each of them stands. -/

namespace TonyCat.Database

open TonyCat.Library

def holes : Bytes → ℕ
  | 123 :: 125 :: s => holes s + 1
  | _ :: s => holes s
  | [] => 0

structure Place where
  column : Bytes
  quoted : Bool
  deriving DecidableEq

inductive ScanMode
  | word
  | space
  | brace
  | quote
  | quoteBrace
  | quoteHole
  deriving DecidableEq

/-- `names` is the last list of names in parentheses, `reading` the slots before the comma of the list being read,
and `compared` the word before an equals sign. -/
structure Scan where
  names : List Bytes
  reading : List Bytes
  current : Bytes
  compared : Option Bytes
  mode : ScanMode

namespace Scan

def start : Scan := ⟨[], [], [], none, .space⟩

/-- A placeholder stands for the column it is compared with, or for the one with its slot in the list of names. -/
def place (s : Scan) (quoted : Bool) : Place :=
  ⟨s.compared.getD (s.names.getD s.reading.length []), quoted⟩

def outside (s : Scan) (b : UInt8) : Option (Scan × List Place) :=
  if isIdentifierByte b then
    let current := if s.mode = .word then s.current ++ [b] else [b]
    some ({ s with current := current, compared := none, mode := .word }, [])
  else if b = 32 then some ({ s with mode := .space }, [])
  else if b = 61 then some ({ s with compared := some s.current, mode := .space }, [])
  else if b = 40 then some ({ s with reading := [], current := [], compared := none, mode := .space }, [])
  else if b = 41 then
    let names := if s.current = [] then s.names else s.reading ++ [s.current]
    some ({ s with names := names, compared := none, mode := .space }, [])
  else if b = 44 then
    some ({ s with reading := s.reading ++ [s.current], current := [], compared := none, mode := .space }, [])
  else if b = 123 then some ({ s with mode := .brace }, [])
  else if b = 39 then some ({ s with mode := .quote }, [])
  else none

def byte (s : Scan) (b : UInt8) : Option (Scan × List Place) :=
  match s.mode with
  | .word | .space => s.outside b
  | .brace => if b = 125 then some ({ s with compared := none, mode := .space }, [s.place false]) else none
  | .quote => if b = 123 then some ({ s with mode := .quoteBrace }, []) else none
  | .quoteBrace => if b = 125 then some ({ s with mode := .quoteHole }, []) else none
  | .quoteHole => if b = 39 then some ({ s with compared := none, mode := .space }, [s.place true]) else none

def Ready (s : Scan) : Prop := s.mode = .word ∨ s.mode = .space

instance (s : Scan) : Decidable s.Ready := inferInstanceAs (Decidable (_ ∨ _))

end Scan

def places (text : Bytes) : Option (List Place) :=
  (feed Scan.byte .start text).bind fun r => if r.1.Ready then some r.2 else none

lemma holes_cons_of_ne {b : UInt8} (hb : b ≠ 123) (s : Bytes) : holes (b :: s) = holes s := by
  rw [holes]
  rintro _ rfl
  exact absurd rfl hb

lemma holes_brace (s : Bytes) : holes (123 :: 125 :: s) = holes s + 1 := by
  rw [holes]

namespace Scan

/-- The placeholders in what is still to read, after what the mode says was read last. -/
def holesAhead (s : Scan) (text : Bytes) : ℕ :=
  match s.mode with
  | .brace | .quoteBrace => holes (123 :: text)
  | .quoteHole => holes text + 1
  | .word | .space | .quote => holes text

lemma holesAhead_ready {s : Scan} (h : s.Ready) (text : Bytes) : s.holesAhead text = holes text := by
  obtain h | h := h <;> rw [holesAhead, h]

lemma byte_of_ready {s : Scan} (h : s.Ready) (b : UInt8) : s.byte b = s.outside b := by
  obtain h | h := h <;> rw [byte, h]

lemma outside_holesAhead {s s' : Scan} {b : UInt8} {ps : List Place} (h : s.outside b = some (s', ps))
    (text : Bytes) : ps = [] ∧ s'.holesAhead text = holes (b :: text) := by
  by_cases hb : b = 123
  · subst hb
    cases h
    exact ⟨rfl, rfl⟩
  · rw [holes_cons_of_ne hb]
    rw [outside] at h
    split_ifs at h <;> cases h <;> exact ⟨rfl, rfl⟩

lemma byte_holesAhead {s s' : Scan} {b : UInt8} {ps : List Place} (h : s.byte b = some (s', ps)) (text : Bytes) :
    s.holesAhead (b :: text) = ps.length + s'.holesAhead text := by
  have hready : s.Ready → s.holesAhead (b :: text) = ps.length + s'.holesAhead text := by
    intro hr
    rw [byte_of_ready hr] at h
    obtain ⟨rfl, hahead⟩ := outside_holesAhead h text
    rw [holesAhead_ready hr, hahead, List.length_nil, Nat.zero_add]
  cases hm : s.mode with
  | word => exact hready (.inl hm)
  | space => exact hready (.inr hm)
  | brace =>
    rw [byte, hm] at h
    obtain ⟨hb, h⟩ := Option.ite_none_right_eq_some.mp h
    cases h
    rw [hb, holesAhead, hm, holes_brace]
    exact Nat.add_comm _ _
  | quote =>
    rw [byte, hm] at h
    obtain ⟨hb, h⟩ := Option.ite_none_right_eq_some.mp h
    cases h
    rw [hb, holesAhead, hm]
    exact (Nat.zero_add _).symm
  | quoteBrace =>
    rw [byte, hm] at h
    obtain ⟨hb, h⟩ := Option.ite_none_right_eq_some.mp h
    cases h
    rw [hb, holesAhead, hm, holes_brace]
    exact (Nat.zero_add _).symm
  | quoteHole =>
    rw [byte, hm] at h
    obtain ⟨hb, h⟩ := Option.ite_none_right_eq_some.mp h
    cases h
    rw [hb, holesAhead, hm, holes_cons_of_ne (b := 39) (by decide)]
    exact Nat.add_comm _ _

lemma turns_holes {s s' : Scan} {text : Bytes} {ps : List Place} (h : Turns byte s text s' ps) (hr : s'.Ready) :
    ps.length = s.holesAhead text := by
  induction text generalizing s ps with
  | nil =>
    cases h
    exact (holesAhead_ready hr []).symm
  | cons b text ih =>
    obtain ⟨⟨s₁, out⟩, hfirst, h⟩ := Option.bind_eq_some_iff.mp h
    obtain ⟨⟨s₂, outs⟩, hrest, h⟩ := Option.map_eq_some_iff.mp h
    cases h
    rw [List.length_append, ih hrest, byte_holesAhead hfirst]

end Scan

lemma places_length {text : Bytes} {ps : List Place} (h : places text = some ps) : ps.length = holes text := by
  obtain ⟨⟨s, outs⟩, hfeed, h⟩ := Option.bind_eq_some_iff.mp h
  split_ifs at h with hr
  cases h
  rw [Scan.turns_holes hfeed hr]
  rfl

def Column.place (c : Column) : Place :=
  ⟨c.name, decide (c.cppType = .string)⟩

namespace Scan

/-- From every scan between placeholders, the text gives the places `ps` and leaves the scan between placeholders. -/
def Reads (text : Bytes) (ps : List Place) : Prop :=
  ∀ s : Scan, s.Ready → ∃ s' : Scan, Turns byte s text s' ps ∧ s'.Ready

lemma reads_nil : Reads [] [] := fun s h => ⟨s, turns_nil s, h⟩

lemma Reads.append {s t : Bytes} {ps qs : List Place} (hs : Reads s ps) (ht : Reads t qs) :
    Reads (s ++ t) (ps ++ qs) := by
  intro a ha
  obtain ⟨b, hab, hb⟩ := hs a ha
  obtain ⟨c, hbc, hc⟩ := ht b hb
  exact ⟨c, hab.append hbc, hc⟩

lemma Reads.flatMap {α : Type*} {l : List α} {f : α → Bytes} {g : α → List Place}
    (h : ∀ a ∈ l, Reads (f a) (g a)) : Reads (l.flatMap f) (l.flatMap g) := by
  induction l with
  | nil => exact reads_nil
  | cons a l ih => exact (h a List.mem_cons_self).append (ih fun b hb => h b (List.mem_cons_of_mem a hb))

lemma Reads.places {text : Bytes} {ps : List Place} (h : Reads text ps) : places text = some ps := by
  obtain ⟨s, hs, hr⟩ := h .start (.inr rfl)
  rw [TonyCat.Database.places, hs, Option.bind_some, if_pos hr]

def plainByte (b : UInt8) : Bool :=
  isIdentifierByte b || b == 32 || b == 61 || b == 40 || b == 41 || b == 44

def Plain (text : Bytes) : Prop := ∀ b ∈ text, plainByte b = true

instance (text : Bytes) : Decidable (Plain text) :=
  decidable_of_iff (text.all plainByte = true) List.all_eq_true

lemma Plain.append {s t : Bytes} (hs : Plain s) (ht : Plain t) : Plain (s ++ t) :=
  List.forall_mem_append.mpr ⟨hs, ht⟩

lemma Plain.flatMap {α : Type*} {l : List α} {f : α → Bytes} (h : ∀ a ∈ l, Plain (f a)) : Plain (l.flatMap f) := by
  intro b hb
  obtain ⟨a, ha, hb⟩ := List.mem_flatMap.mp hb
  exact h a ha b hb

lemma outside_plain {s : Scan} {b : UInt8} (h : plainByte b = true) :
    ∃ s' : Scan, s.outside b = some (s', []) ∧ s'.Ready := by
  by_cases hid : isIdentifierByte b = true
  · exact ⟨_, if_pos hid, .inl rfl⟩
  · simp only [plainByte, hid, Bool.false_or, Bool.or_eq_true, beq_iff_eq] at h
    obtain (((rfl | rfl) | rfl) | rfl) | rfl := h <;> exact ⟨_, rfl, .inr rfl⟩

lemma reads_plain {text : Bytes} (h : Plain text) : Reads text [] := by
  induction text with
  | nil => exact reads_nil
  | cons b text ih =>
    intro s hs
    obtain ⟨s₁, hbyte, h₁⟩ := outside_plain (s := s) (h b List.mem_cons_self)
    obtain ⟨s₂, hrest, h₂⟩ := ih (fun c hc => h c (List.mem_cons_of_mem b hc)) s₁ h₁
    exact ⟨s₂, Turns.cons ((byte_of_ready hs b).trans hbyte) hrest, h₂⟩

lemma plain_of_identifier {name : Bytes} (h : Identifier name) : Plain name := by
  intro b hb
  rw [plainByte, h.2 b hb]
  rfl

lemma reads_name {name : Bytes} (h : Identifier name) : Reads name [] := reads_plain (plain_of_identifier h)

lemma turns_name {name : Bytes} (h : Identifier name) {s : Scan} (hs : s.mode = .space) :
    Turns byte s name { s with current := name, compared := none, mode := .word } [] := by
  have hrest : ∀ (bs w : Bytes), (∀ b ∈ bs, isIdentifierByte b = true) →
      Turns byte { s with current := w, compared := none, mode := .word } bs
        { s with current := w ++ bs, compared := none, mode := .word } [] := by
    intro bs
    induction bs with
    | nil =>
      intro w _
      rw [List.append_nil]
      exact turns_nil _
    | cons b bs ih =>
      intro w hbs
      have hstep : byte { s with current := w, compared := none, mode := .word } b =
          some ({ s with current := w ++ [b], compared := none, mode := .word }, []) :=
        if_pos (hbs b List.mem_cons_self)
      have htail := ih (w ++ [b]) fun c hc => hbs c (List.mem_cons_of_mem b hc)
      rw [List.append_assoc] at htail
      exact Turns.cons hstep htail
  obtain ⟨b, bs, rfl⟩ := List.exists_cons_of_ne_nil h.1
  have hstep : s.byte b = some ({ s with current := [b], compared := none, mode := .word }, []) := by
    rw [byte_of_ready (.inr hs), outside, if_pos (h.2 b List.mem_cons_self), if_neg (by simp [hs])]
  exact Turns.cons hstep (hrest bs [b] fun c hc => h.2 c (List.mem_cons_of_mem b hc))

lemma turns_placeholder {s : Scan} (hs : s.mode = .space) (t : CppType) :
    Turns byte s (getProtoSqlStringPlaceholder t) { s with compared := none, mode := .space }
      [s.place (decide (t = .string))] := by
  obtain ⟨names, reading, current, compared, mode⟩ := s
  obtain rfl : mode = .space := hs
  cases t <;> rfl

lemma reads_item {c : Column} (h : Identifier c.name) : Reads (itemText c) [c.place] := by
  intro s hs
  have hspace : Turns byte s (ascii " ") { s with mode := .space } [] :=
    turns_singleton (byte_of_ready hs 32)
  have heq : Turns byte { s with current := c.name, compared := none, mode := .word } (ascii " = ")
      { s with current := c.name, compared := some c.name, mode := .space } [] := rfl
  have hhole := turns_placeholder (s := { s with current := c.name, compared := some c.name, mode := .space }) rfl
    c.cppType
  exact ⟨_, hspace.append ((turns_name h rfl).append (heq.append hhole)), .inr rfl⟩

lemma reads_andItem {c : Column} (h : Identifier c.name) : Reads (andItemText c) [c.place] := by
  have hand : Reads (ascii " AND ") [] := reads_plain (by decide)
  exact hand.append (reads_item h)

/-- As `Reads`, after the list `names` and with no other list of names in the text. -/
def ReadsIn (names : List Bytes) (text : Bytes) (ps : List Place) : Prop :=
  ∀ s : Scan, s.Ready → s.names = names → ∃ s' : Scan, Turns byte s text s' ps ∧ s'.Ready ∧ s'.names = names

lemma readsIn_nil (names : List Bytes) : ReadsIn names [] [] := fun s h hn => ⟨s, turns_nil s, h, hn⟩

lemma ReadsIn.append {names : List Bytes} {s t : Bytes} {ps qs : List Place} (hs : ReadsIn names s ps)
    (ht : ReadsIn names t qs) : ReadsIn names (s ++ t) (ps ++ qs) := by
  intro a ha hna
  obtain ⟨b, hab, hb, hnb⟩ := hs a ha hna
  obtain ⟨c, hbc, hc⟩ := ht b hb hnb
  exact ⟨c, hab.append hbc, hc⟩

lemma ReadsIn.flatMap {α : Type*} {names : List Bytes} {l : List α} {f : α → Bytes} {g : α → List Place}
    (h : ∀ a ∈ l, ReadsIn names (f a) (g a)) : ReadsIn names (l.flatMap f) (l.flatMap g) := by
  induction l with
  | nil => exact readsIn_nil names
  | cons a l ih => exact (h a List.mem_cons_self).append (ih fun b hb => h b (List.mem_cons_of_mem a hb))

lemma readsIn_comma (names : List Bytes) : ReadsIn names (ascii ",") [] :=
  fun _ h hn => ⟨_, turns_singleton (byte_of_ready h 44), .inr rfl, hn⟩

section Lists

variable {sep : Bytes} (hsep : sep = ascii "," ∨ sep = ascii ", ")
include hsep

lemma turns_sep {s : Scan} (hs : s.Ready) : Turns byte s sep
    { s with reading := s.reading ++ [s.current], current := [], compared := none, mode := .space } [] := by
  have hcomma := turns_singleton (byte_of_ready hs 44)
  obtain rfl | rfl := hsep
  · exact hcomma
  · have hspace : Turns byte
        { s with reading := s.reading ++ [s.current], current := [], compared := none, mode := .space } (ascii " ")
        { s with reading := s.reading ++ [s.current], current := [], compared := none, mode := .space } [] := rfl
    exact hcomma.append hspace

lemma turns_names {names : List Bytes} (h : ∀ n ∈ names, Identifier n) {s : Scan} (hs : s.Ready) :
    ∃ s' : Scan, Turns byte s (names.flatMap fun n => sep ++ n) s' [] ∧ s'.Ready ∧
      s'.reading ++ [s'.current] = s.reading ++ [s.current] ++ names := by
  induction names generalizing s with
  | nil => exact ⟨s, turns_nil s, hs, (List.append_nil _).symm⟩
  | cons n names ih =>
    have hname := (turns_sep hsep hs).append (turns_name (h n List.mem_cons_self) rfl)
    obtain ⟨s', hrest, hready, hlist⟩ := ih (fun x hx => h x (List.mem_cons_of_mem n hx)) (s := { s with
      reading := s.reading ++ [s.current], current := n, compared := none, mode := .word }) (.inl rfl)
    refine ⟨s', hname.append hrest, hready, ?_⟩
    rw [hlist, List.append_assoc, List.singleton_append]

lemma turns_nameList {first : Bytes} {names : List Bytes} (hfirst : first = [] ∨ Identifier first)
    (hnames : ∀ n ∈ names, Identifier n) (hlast : (first :: names).getLast (List.cons_ne_nil _ _) ≠ []) {s : Scan}
    (hs : s.Ready) : ∃ s' : Scan, Turns byte s
      (ascii "(" ++ (first ++ ((names.flatMap fun n => sep ++ n) ++ ascii ")"))) s' [] ∧ s'.Ready ∧
      s'.names = first :: names := by
  have hopen : Turns byte s (ascii "(")
      { s with reading := [], current := [], compared := none, mode := .space } [] :=
    turns_singleton (byte_of_ready hs 40)
  have hhead : ∃ m, (m = .word ∨ m = .space) ∧
      Turns byte { s with reading := [], current := [], compared := none, mode := .space } first
        { s with reading := [], current := first, compared := none, mode := m } [] := by
    obtain rfl | hid := hfirst
    · exact ⟨.space, .inr rfl, turns_nil _⟩
    · exact ⟨.word, .inl rfl, turns_name hid rfl⟩
  obtain ⟨m, hm, hhead⟩ := hhead
  obtain ⟨s', htail, hready, hlist⟩ := turns_names hsep hnames (s := { s with
    reading := [], current := first, compared := none, mode := m }) hm
  replace hlist : s'.reading ++ [s'.current] = first :: names := hlist
  have hcurrent : s'.current ≠ [] := by
    simp only [← hlist, List.getLast_append_singleton] at hlast
    exact hlast
  have hclose : Turns byte s' (ascii ")")
      { s' with names := s'.reading ++ [s'.current], compared := none, mode := .space } [] := by
    have hbyte : s'.outside 41 = some ({ s' with
        names := (if s'.current = [] then s'.names else s'.reading ++ [s'.current]),
        compared := none, mode := .space }, []) := rfl
    rw [if_neg hcurrent] at hbyte
    exact turns_singleton ((byte_of_ready hready 41).trans hbyte)
  exact ⟨_, hopen.append (hhead.append (htail.append hclose)), .inr rfl, hlist⟩

lemma turns_slots {cs : List Column} {s : Scan} (hmode : s.mode = .space) (hcompared : s.compared = none)
    (hcurrent : s.current = []) (hnames : s.names.drop (s.reading.length + 1) = cs.map Column.name) :
    ∃ s' : Scan, Turns byte s (cs.flatMap fun c => sep ++ getProtoSqlStringPlaceholder c.cppType) s'
      (cs.map Column.place) ∧ s'.mode = .space ∧ s'.current = [] ∧ s'.names = s.names := by
  induction cs generalizing s with
  | nil => exact ⟨s, turns_nil s, hmode, hcurrent, rfl⟩
  | cons c cs ih =>
    let s₁ : Scan := { s with reading := s.reading ++ [s.current], current := [], compared := none, mode := .space }
    have hlen : s₁.reading.length = s.reading.length + 1 := List.length_append
    have hslot : s₁.place (decide (c.cppType = .string)) = c.place := by
      have hget : s.names.getD (s.reading.length + 1) [] = c.name := by
        rw [List.getD_eq_getElem?_getD, ← Nat.add_zero (s.reading.length + 1), ← List.getElem?_drop, hnames]
        rfl
      rw [place, hlen]
      exact congrArg (Place.mk · _) hget
    have hfirst := (turns_sep hsep (.inr hmode)).append (turns_placeholder (s := s₁) rfl c.cppType)
    rw [hslot] at hfirst
    have hdrop : s₁.names.drop (s₁.reading.length + 1) = cs.map Column.name := by
      rw [hlen, ← List.drop_drop, hnames]
      rfl
    obtain ⟨s', hrest, hpost⟩ := ih (s := { s₁ with compared := none, mode := .space }) rfl rfl rfl hdrop
    exact ⟨s', hfirst.append hrest, hpost⟩

lemma readsIn_row (head : Option Column) (tail : List Column) {close : Bytes}
    (hclose : close = ascii ")" ∨ close = ascii " )") :
    ReadsIn (head.elim [] Column.name :: tail.map Column.name)
      (ascii "(" ++ (head.elim [] (fun c => getProtoSqlStringPlaceholder c.cppType) ++
        ((tail.flatMap fun c => sep ++ getProtoSqlStringPlaceholder c.cppType) ++ close)))
      ((head.toList ++ tail).map Column.place) := by
  intro s hs hnames
  let s₁ : Scan := { s with reading := [], current := [], compared := none, mode := .space }
  have hopen : Turns byte s (ascii "(") s₁ [] := turns_singleton (byte_of_ready hs 40)
  have hhead : Turns byte s₁ (head.elim [] fun c => getProtoSqlStringPlaceholder c.cppType) s₁
      (head.toList.map Column.place) := by
    cases head with
    | none => exact turns_nil s₁
    | some c =>
      have hslot : s₁.place (decide (c.cppType = .string)) = c.place := by
        change Place.mk (s.names.getD 0 []) _ = _
        rw [hnames]
        rfl
      have hhole := turns_placeholder (s := s₁) rfl c.cppType
      rwa [hslot] at hhole
  have hdrop : s₁.names.drop (s₁.reading.length + 1) = tail.map Column.name := by
    change s.names.drop 1 = _
    rw [hnames]
    rfl
  obtain ⟨s₂, htail, hmode, hcurrent, hnames₂⟩ := turns_slots hsep (s := s₁) rfl rfl rfl hdrop
  have hlast : Turns byte s₂ close { s₂ with compared := none, mode := .space } [] := by
    obtain ⟨names, reading, current, compared, mode⟩ := s₂
    obtain rfl : mode = .space := hmode
    obtain rfl : current = [] := hcurrent
    obtain rfl | rfl := hclose <;> rfl
  refine ⟨{ s₂ with compared := none, mode := .space }, ?_, .inr rfl, hnames₂.trans hnames⟩
  rw [List.map_append, ← List.append_nil (tail.map Column.place)]
  exact hopen.append (hhead.append (htail.append hlast))

end Lists

lemma readsIn_plain {names : List Bytes} {text : Bytes} (h : Plain text) (hclose : 41 ∉ text) :
    ReadsIn names text [] := by
  induction text with
  | nil => exact readsIn_nil names
  | cons b text ih =>
    intro s hs hnames
    have hb : b ≠ 41 := fun hb => hclose (hb ▸ List.mem_cons_self)
    obtain ⟨s₁, hbyte, h₁⟩ := outside_plain (s := s) (h b List.mem_cons_self)
    have hnames₁ : s₁.names = names := by
      rw [outside, if_neg hb] at hbyte
      split_ifs at hbyte <;> cases hbyte <;> exact hnames
    obtain ⟨s₂, hrest, h₂⟩ := ih (fun c hc => h c (List.mem_cons_of_mem b hc))
      (fun hmem => hclose (List.mem_cons_of_mem b hmem)) s₁ h₁ hnames₁
    exact ⟨s₂, Turns.cons ((byte_of_ready hs b).trans hbyte) hrest, h₂⟩

lemma ReadsIn.reads_append {names : List Bytes} {s t : Bytes} {ps : List Place} (ht : ReadsIn names t ps)
    (hs : ∀ a : Scan, a.Ready → ∃ b : Scan, Turns byte a s b [] ∧ b.Ready ∧ b.names = names) : Reads (s ++ t) ps := by
  intro a ha
  obtain ⟨b, hab, hb, hnames⟩ := hs a ha
  obtain ⟨c, hbc, hc, -⟩ := ht b hb hnames
  exact ⟨c, hab.append hbc, hc⟩

end Scan

end TonyCat.Database
