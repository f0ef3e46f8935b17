import TonyCat.Library.Run
import TonyCat.Net.NetHttpModule
import TonyCat.Net.PacketStream
import TonyCat.Utility.HttpLines

set_option autoImplicit false

/-! A stream of requests, read by read. -/

namespace TonyCat.Net

open TonyCat.Library TonyCat.Http NetHttpModule SessionBuffer
open NetModule hiding handleSessionRead

variable {nMaxBuffSize : ℕ}

section Loop

variable {readBuff : Bytes} {hread : readBuff ≠ []} {session : HttpSession nMaxBuffSize} {context : RequestParser}
  {readLen : ℕ}

lemma readLoop_empty (h : session.buffRead.empty = true) : readLoop readBuff hread session = (session, true) := by
  rw [readLoop, if_pos h]

lemma readLoop_good (h : ¬ session.buffRead.empty = true)
    (hparse : session.context.parse readBuff = (context, .good, readLen)) : readLoop readBuff hread session =
      readLoop readBuff hread ⟨session.buffRead.removeData readLen, .reset, session.vecMsgFunction ++ [context.req]⟩ := by
  rw [readLoop, if_neg h]
  split
  all_goals
    rename_i heq
    rw [hparse] at heq
    cases heq
  rfl

lemma readLoop_indeterminate (h : ¬ session.buffRead.empty = true)
    (hparse : session.context.parse readBuff = (context, .indeterminate, readLen)) : readLoop readBuff hread session =
      readLoop readBuff hread ⟨session.buffRead.removeData readLen, context, session.vecMsgFunction⟩ := by
  rw [readLoop, if_neg h]
  split
  all_goals
    rename_i heq
    rw [hparse] at heq
    cases heq
  rfl

end Loop

theorem readLoop_repeats {t : RequestText} (h : t.WellFormed) (hbody : t.contentLength = none) {rest : Bytes}
    (hread : t.bytes ++ rest ≠ []) (session : HttpSession nMaxBuffSize) (hreset : session.context = .reset) :
    ∃ n, (readLoop (t.bytes ++ rest) hread session).1.vecMsgFunction =
      session.vecMsgFunction ++ List.replicate n t.request ∧
        session.buffRead.getReadableSize ≤ n * t.bytes.length := by
  obtain ⟨context, hparse, hreq⟩ := h.parse_bytes hbody rest
  have hpos : 0 < t.bytes.length := RequestParser.parse_good_pos rfl hparse
  induction hsize : session.buffRead.getReadableSize using Nat.strongRecOn generalizing session with
  | ind size ih =>
    by_cases hempty : session.buffRead.empty = true
    · refine ⟨0, ?_, ?_⟩
      · rw [readLoop_empty hempty, List.replicate_zero, List.append_nil]
      · rw [SessionBuffer.empty_iff, hsize] at hempty
        omega
    · rw [readLoop_good hempty (hreset ▸ hparse), hreq]
      rw [SessionBuffer.empty_iff, hsize] at hempty
      obtain ⟨n, hqueue, hn⟩ := ih (size - t.bytes.length) (by omega)
        ⟨session.buffRead.removeData t.bytes.length, .reset, session.vecMsgFunction ++ [t.request]⟩ rfl
        (by rw [getReadableSize_removeData, hsize])
      refine ⟨n + 1, ?_, ?_⟩
      · rw [hqueue, List.append_assoc, List.replicate_succ, List.singleton_append]
      · rw [Nat.succ_mul]
        omega

structure Idle (buf : SessionBuffer kDefaultMaxBufferSize) : Prop where
  readPos : buf.nReadPos = 0
  writePos : buf.nWritePos = 0
  size : buf.vecData.length = kDefaultMaxBufferSize / kInitBufferSizeDivNumber

structure Holds (buf : SessionBuffer kDefaultMaxBufferSize) (data : Bytes) : Prop where
  readData : buf.getReadData = data
  readPos : buf.nReadPos = 0
  writePos : buf.nWritePos = data.length
  size : buf.vecData.length = kDefaultMaxBufferSize / kInitBufferSizeDivNumber

lemma idle_init : Idle (init kDefaultMaxBufferSize) := ⟨rfl, rfl, List.length_replicate⟩

lemma exists_paddingData (buf : SessionBuffer nMaxBuffSize) (len : ℕ) (h : len ≤ buf.currentWritableSize) :
    ∃ buf', buf.paddingData len = some buf' ∧ buf'.vecData.length = buf.vecData.length ∧
      buf'.nReadPos = buf.nReadPos ∧ buf'.nWritePos = buf.nWritePos + len :=
  ⟨_, dif_neg (Nat.not_lt.mpr h), rfl, rfl, rfl⟩

lemma exists_doSessionRead (buf : SessionBuffer nMaxBuffSize) (data : Bytes)
    (h : data.length + buf.capacity / kReorganizeRate ≤ buf.currentWritableSize) :
    ∃ buf', doSessionRead buf data = some buf' ∧ buf'.vecData.length = buf.vecData.length ∧
      buf'.nReadPos = buf.nReadPos ∧ buf'.nWritePos = buf.nWritePos + data.length := by
  have hwrite := buf.write_le
  rw [currentWritableSize, capacity, kReorganizeRate] at h
  obtain ⟨stored, hstore, hvec, hread, hpos⟩ := exists_store buf buf.nWritePos data (by omega)
  obtain ⟨filled, hpadding, hvec', hread', hpos'⟩ := exists_paddingData stored data.length
    (by rw [currentWritableSize, hvec, hpos]; omega)
  have hroom : ¬ filled.currentWritableSize < filled.capacity / kReorganizeRate := by
    rw [currentWritableSize, capacity, kReorganizeRate, hvec', hvec, hpos', hpos]
    omega
  refine ⟨filled, ?_, hvec'.trans hvec, hread'.trans hread, by rw [hpos', hpos]⟩
  rw [doSessionRead, hstore, Option.bind_eq_bind, Option.bind_some, hpadding, Option.bind_some, if_neg hroom]

lemma Idle.arrive {buf : SessionBuffer kDefaultMaxBufferSize} (h : Idle buf) (arrival : Arrival)
    (hlen : arrival.data.length < RequestParser.kHttpMaxSize) :
    ∃ buf', NetModule.arrive buf arrival = some buf' ∧ Holds buf' arrival.data := by
  have hcapacity : kDefaultMaxBufferSize / kInitBufferSizeDivNumber = 2 * RequestParser.kHttpMaxSize := by decide
  have hsize := h.size
  have hold : buf.getReadData = [] := by
    rw [← List.length_eq_zero_iff, getReadData_length, getReadableSize, h.readPos, h.writePos]
  have holds : ∀ {buf'}, NetModule.arrive buf arrival = some buf' → buf'.vecData.length = buf.vecData.length →
      buf'.nReadPos = buf.nReadPos → buf'.nWritePos = buf.nWritePos + arrival.data.length →
        Holds buf' arrival.data := by
    intro buf' harrive hvec hread hwrite
    refine ⟨?_, hread.trans h.readPos, ?_, hvec.trans hsize⟩
    · rw [getReadData_arrive harrive, hold, List.nil_append]
    · rw [hwrite, h.writePos, Nat.zero_add]
  cases arrival with
  | written data =>
    obtain ⟨buf', hwrite, hvec, hread, hpos⟩ := exists_write buf data (by
      rw [currentWritableSize, hsize, h.writePos]
      simp only [Arrival.data] at hlen
      omega)
    exact ⟨buf', hwrite, holds hwrite hvec hread hpos⟩
  | readSome data =>
    simp only [Arrival.data] at hlen
    have hwrite := h.writePos
    obtain ⟨buf', hread, hvec, hpos, hend⟩ := exists_doSessionRead buf data (by
      rw [currentWritableSize, capacity, kReorganizeRate]
      omega)
    exact ⟨buf', hread, holds hread hvec hpos hend⟩

lemma Holds.removeData {buf : SessionBuffer kDefaultMaxBufferSize} {data : Bytes} (h : Holds buf data) :
    Idle (buf.removeData data.length) := by
  have hread := h.readPos
  have hwrite := h.writePos
  have hall : buf.nReadPos + min data.length buf.getReadableSize = buf.nWritePos := by
    rw [getReadableSize]
    omega
  rw [SessionBuffer.removeData, if_pos hall]
  exact ⟨rfl, rfl, h.size⟩

lemma Idle.empty {buf : SessionBuffer kDefaultMaxBufferSize} (h : Idle buf) : buf.empty = true :=
  decide_eq_true (h.readPos.trans h.writePos.symm)

section Read

variable {session : HttpSession kDefaultMaxBufferSize} {data : Bytes} {context : RequestParser}

lemma readData_of_nil (h : Holds session.buffRead []) : readData session = (session, true) := by
  rw [readData, dif_pos h.readData]

lemma readData_eq_readLoop (h : session.buffRead.getReadData = data) (hne : data ≠ []) :
    readData session = readLoop data hne session := by
  subst h
  exact dif_neg hne

lemma readData_of_good (h : Holds session.buffRead data) (hne : data ≠ [])
    (hparse : session.context.parse data = (context, .good, data.length)) : readData session =
      (⟨session.buffRead.removeData data.length, .reset, session.vecMsgFunction ++ [context.req]⟩, true) := by
  have hempty : ¬ session.buffRead.empty = true := by
    rw [SessionBuffer.empty_iff, ← getReadData_length, h.readData, List.length_eq_zero_iff]
    exact hne
  rw [readData_eq_readLoop h.readData hne, readLoop_good hempty hparse, readLoop_empty h.removeData.empty]

lemma readData_of_indeterminate (h : Holds session.buffRead data) (hne : data ≠ [])
    (hparse : session.context.parse data = (context, .indeterminate, data.length)) : readData session =
      (⟨session.buffRead.removeData data.length, context, session.vecMsgFunction⟩, true) := by
  have hempty : ¬ session.buffRead.empty = true := by
    rw [SessionBuffer.empty_iff, ← getReadData_length, h.readData, List.length_eq_zero_iff]
    exact hne
  rw [readData_eq_readLoop h.readData hne, readLoop_indeterminate hempty hparse, readLoop_empty h.removeData.empty]

end Read

/-- The bytes of a read are those of one request, which has no Content-Length, and end in no half of a line end. -/
def CleanRead (requests : List RequestText) (done data : Bytes) : Prop :=
  data = [] ∨
    (∃ earlier t later before after, requests = earlier ++ t :: later ∧
      done = earlier.flatMap RequestText.bytes ++ before ∧ t.bytes = before ++ (data ++ after) ∧
      t.contentLength = none) ∧ data.getLast? ≠ some 13

structure Follows (requests : List RequestText) (done : Bytes) (session : HttpSession kDefaultMaxBufferSize)
    (earlier later : List RequestText) (before : Bytes) : Prop where
  split : requests = earlier ++ later
  done : done = earlier.flatMap RequestText.bytes ++ before
  cut : before.getLast? ≠ some 13
  next : ∀ t rest, later = t :: rest →
    before.length < t.bytes.length ∧ (t.contentLength = none → t.Reading before session.context)
  last : later = [] → before = []
  queue : session.vecMsgFunction = earlier.map RequestText.request
  idle : Idle session.buffRead

namespace Follows

variable {requests earlier later : List RequestText} {done before : Bytes}
  {session : HttpSession kDefaultMaxBufferSize}

lemma aligned (h : Follows requests done session earlier later before) {earlier' later' : List RequestText}
    {t : RequestText} {before' : Bytes} (hsplit : requests = earlier' ++ t :: later')
    (hdone : done = earlier'.flatMap RequestText.bytes ++ before') (hlt : before'.length < t.bytes.length) :
    earlier = earlier' ∧ later = t :: later' ∧ before = before' := by
  have hlen := congrArg List.length (h.done.symm.trans hdone)
  obtain ⟨middle, rfl, hlater⟩ | ⟨middle, rfl, hlater⟩ := List.append_eq_append_iff.mp (h.split.symm.trans hsplit)
  · cases middle with
    | nil =>
      rw [List.append_nil] at hdone ⊢
      exact ⟨rfl, hlater, List.append_cancel_left (h.done.symm.trans hdone)⟩
    | cons u middle =>
      have hu := (h.next u _ hlater).1
      simp only [List.flatMap_append, List.flatMap_cons, List.length_append] at hlen
      omega
  · cases middle with
    | nil =>
      have hdone' := h.done
      rw [List.append_nil] at hdone' ⊢
      exact ⟨rfl, hlater.symm, List.append_cancel_left (hdone'.symm.trans hdone)⟩
    | cons u middle =>
      obtain ⟨rfl, -⟩ := List.cons.inj hlater
      simp only [List.flatMap_append, List.flatMap_cons, List.length_append] at hlen
      omega

lemma init (hwf : ∀ t ∈ requests, t.WellFormed) :
    Follows requests [] (HttpSession.init kDefaultMaxBufferSize) [] requests [] where
  split := rfl
  done := rfl
  cut := nofun
  next t rest heq := by
    subst heq
    have ht := hwf t List.mem_cons_self
    exact ⟨t.bytes_pos, ht.reading_reset⟩
  last _ := rfl
  queue := rfl
  idle := idle_init

lemma completed (hwf : ∀ t ∈ requests, t.WellFormed) {t : RequestText} {rest : List RequestText} {data : Bytes}
    (h : Follows requests done session earlier (t :: rest) before) (hend : before ++ data = t.bytes)
    {buf : SessionBuffer kDefaultMaxBufferSize} (hidle : Idle buf) :
    Follows requests (done ++ data) ⟨buf, .reset, session.vecMsgFunction ++ [t.request]⟩ (earlier ++ [t]) rest [] where
  split := h.split.trans (List.append_cons ..)
  done := by
    rw [h.done, List.append_assoc, hend, List.flatMap_append, List.flatMap_singleton, List.append_nil]
  cut := nofun
  next u later heq := by
    have hu := hwf u (by rw [h.split, heq]; simp)
    exact ⟨u.bytes_pos, hu.reading_reset⟩
  last _ := rfl
  queue := by rw [h.queue, List.map_append, List.map_singleton]
  idle := hidle

lemma continued {t : RequestText} {rest : List RequestText} {data : Bytes} {context : RequestParser}
    (h : Follows requests done session earlier (t :: rest) before) (hpre : before ++ data <+: t.bytes)
    (hne : before ++ data ≠ t.bytes) (hcut : (before ++ data).getLast? ≠ some 13)
    (hread : t.Reading (before ++ data) context) {buf : SessionBuffer kDefaultMaxBufferSize} (hidle : Idle buf) :
    Follows requests (done ++ data) ⟨buf, context, session.vecMsgFunction⟩ earlier (t :: rest) (before ++ data) where
  split := h.split
  done := by rw [h.done, List.append_assoc]
  cut := hcut
  next u later heq := by
    cases heq
    exact ⟨lt_of_le_of_ne hpre.length_le fun hlen => hne (hpre.eq_of_length hlen), fun _ => hread⟩
  last := nofun
  queue := h.queue
  idle := hidle

theorem exists_next (hwf : ∀ t ∈ requests, t.WellFormed) (h : Follows requests done session earlier later before)
    {arrival : Arrival} (hclean : CleanRead requests done arrival.data) :
    ∃ session' earlier' later' before', handleSessionRead session arrival = some session' ∧
      Follows requests (done ++ arrival.data) session' earlier' later' before' := by
  by_cases hnil : arrival.data = []
  · obtain ⟨buf, harrive, hholds⟩ := h.idle.arrive arrival (by rw [hnil]; exact Nat.zero_lt_succ _)
    rw [hnil] at hholds ⊢
    rw [handleSessionRead, harrive, Option.map_some, readData_of_nil hholds, List.append_nil]
    exact ⟨_, _, _, _, rfl, { h with idle := ⟨hholds.readPos, hholds.writePos, hholds.size⟩ }⟩
  · obtain ⟨⟨earlier', t, later', before', after, hsplit, hdone, hbytes, hbody⟩, hlast⟩ := hclean.resolve_left hnil
    have hpos := List.length_pos_of_ne_nil hnil
    have hlen := congrArg List.length hbytes
    simp only [List.length_append] at hlen
    obtain ⟨rfl, rfl, rfl⟩ := h.aligned hsplit hdone (by omega)
    have ht := hwf t (by rw [hsplit]; simp)
    have hlimit := ht.bytes_lt
    have hpre : before ++ arrival.data <+: t.bytes := ⟨after, by rw [hbytes, List.append_assoc]⟩
    obtain ⟨hgood, hmore⟩ := ht.parse_piece hbody ((h.next t later' rfl).2 hbody) h.cut hpre
    obtain ⟨buf, harrive, hholds⟩ := h.idle.arrive arrival (by omega)
    rw [handleSessionRead, harrive, Option.map_some]
    by_cases hend : before ++ arrival.data = t.bytes
    · obtain ⟨context, hparse, hreq⟩ := hgood hend
      have hdata : readData { session with buffRead := buf } = _ := readData_of_good hholds hnil hparse
      rw [hdata, hreq]
      exact ⟨_, _, _, _, rfl, h.completed hwf hend hholds.removeData⟩
    · obtain ⟨context, hparse, hread⟩ := hmore hend
      have hdata : readData { session with buffRead := buf } = _ := readData_of_indeterminate hholds hnil hparse
      rw [hdata]
      refine ⟨_, _, _, _, rfl, h.continued hpre hend ?_ hread hholds.removeData⟩
      rw [List.getLast?_append_of_ne_nil _ hnil]
      exact hlast

lemma queue_all (h : Follows requests (requests.flatMap RequestText.bytes) session earlier later before) :
    session.vecMsgFunction = requests.map RequestText.request := by
  cases later with
  | nil => rw [h.queue, h.split, List.append_nil]
  | cons t rest =>
    have hlt := (h.next t rest rfl).1
    have hlen := congrArg List.length h.done
    rw [h.split] at hlen
    simp only [List.flatMap_append, List.flatMap_cons, List.length_append] at hlen
    omega

end Follows

theorem requests_queued_in_order {requests : List RequestText} (hwf : ∀ t ∈ requests, t.WellFormed)
    {arrivals : List Arrival} (hstream : arrivals.flatMap Arrival.data = requests.flatMap RequestText.bytes)
    (hclean : StepsMeet handleSessionRead
      (fun done _ arrival => CleanRead requests (done.flatMap Arrival.data) arrival.data)
      (HttpSession.init kDefaultMaxBufferSize) arrivals) :
    ∃ session, run handleSessionRead (HttpSession.init kDefaultMaxBufferSize) arrivals = some session ∧
      session.vecMsgFunction = requests.map RequestText.request := by
  have hstep : ∀ (done : List Arrival) (session : HttpSession kDefaultMaxBufferSize) (arrival : Arrival),
      (∃ earlier later before, Follows requests (done.flatMap Arrival.data) session earlier later before) →
      CleanRead requests (done.flatMap Arrival.data) arrival.data →
      ∃ session', handleSessionRead session arrival = some session' ∧ ∃ earlier later before,
        Follows requests ((done ++ [arrival]).flatMap Arrival.data) session' earlier later before := by
    rintro done session arrival ⟨earlier, later, before, h⟩ hread
    obtain ⟨session', earlier', later', before', hsession, h'⟩ := h.exists_next hwf hread
    rw [List.flatMap_append, List.flatMap_singleton]
    exact ⟨session', hsession, earlier', later', before', h'⟩
  obtain ⟨session, hrun, earlier, later, before, h⟩ := run_invariant ⟨[], requests, [], Follows.init hwf⟩ hstep
    arrivals hclean
  rw [hstream] at h
  exact ⟨session, hrun, h.queue_all⟩

def getText (path : Bytes) : RequestText := ⟨text "GET", path, none, text "HTTP/1.1", [], []⟩

lemma getText_wellFormed {path : Bytes} (hpath : IsWord path ∧ 63 ∉ path) (hlen : path.length < 1000) :
    (getText path).WellFormed where
  method := show IsWord (text "GET") from ⟨⟨by decide, by decide⟩, by decide⟩
  path := hpath
  query := nofun
  version := show Request.stringToVersion (text "HTTP/1.1") ≠ .unknown by decide
  headers := nofun
  keys := List.nodup_nil
  content _ := rfl
  contentLength := nofun
  bytes_lt := by
    have hget : (text "GET").length = 3 := rfl
    have hspace : (text " ").length = 1 := rfl
    have hversion : (text "HTTP/1.1").length = 8 := rfl
    have hcrlf : crlf.length = 2 := rfl
    simp only [getText, RequestText.bytes, RequestText.lines, RequestText.requestLine, RequestText.uri, List.map_nil,
      List.nil_append, List.append_nil, List.flatMap_cons, List.flatMap_nil, List.length_append, hget, hspace, hversion,
      hcrlf, RequestParser.kHttpMaxSize]
    omega

lemma getTexts_wellFormed : ∀ t ∈ [getText (text "/a"), getText (text "/b")], t.WellFormed := by
  intro t ht
  obtain rfl | ht := List.mem_cons.mp ht
  · exact getText_wellFormed ⟨⟨⟨by decide, by decide⟩, by decide⟩, by decide⟩ (by decide)
  · rw [List.mem_singleton.mp ht]
    exact getText_wellFormed ⟨⟨⟨by decide, by decide⟩, by decide⟩, by decide⟩ (by decide)

theorem two_requests_queued : ∃ session,
    run handleSessionRead (HttpSession.init kDefaultMaxBufferSize)
        [.readSome ((getText (text "/a")).bytes.take 7), .readSome ((getText (text "/a")).bytes.drop 7),
          .written (getText (text "/b")).bytes] = some session ∧
      session.vecMsgFunction = [getText (text "/a"), getText (text "/b")].map RequestText.request := by
  apply requests_queued_in_order getTexts_wellFormed
  · decide
  · apply stepsMeet_cons
    · exact .inr ⟨⟨[], getText (text "/a"), [getText (text "/b")], [], (getText (text "/a")).bytes.drop 7, rfl, rfl,
        by decide, rfl⟩, by decide⟩
    intro _ _
    apply stepsMeet_cons
    · exact .inr ⟨⟨[], getText (text "/a"), [getText (text "/b")], (getText (text "/a")).bytes.take 7, [], rfl,
        by decide, by decide, rfl⟩, by decide⟩
    intro _ _
    apply stepsMeet_cons
    · exact .inr ⟨⟨[getText (text "/a")], getText (text "/b"), [], [], [], rfl, by decide, by decide, rfl⟩, by decide⟩
    intro _ _
    exact stepsMeet_nil

/-- Two requests in one read. -/
theorem pipelined_request_lost : ¬ ∀ (requests : List RequestText) (arrivals : List Arrival)
    (session : HttpSession kDefaultMaxBufferSize), (∀ t ∈ requests, t.WellFormed) →
    arrivals.flatMap Arrival.data = requests.flatMap RequestText.bytes →
    run handleSessionRead (HttpSession.init kDefaultMaxBufferSize) arrivals = some session →
    session.vecMsgFunction = requests.map RequestText.request := by
  intro h
  have hread : (getText (text "/a")).bytes ++ (getText (text "/b")).bytes ≠ [] := by decide
  obtain ⟨buf, harrive, hholds⟩ := idle_init.arrive
    (.written ((getText (text "/a")).bytes ++ (getText (text "/b")).bytes)) (by decide)
  have hstep : handleSessionRead (HttpSession.init kDefaultMaxBufferSize)
      (.written ((getText (text "/a")).bytes ++ (getText (text "/b")).bytes)) =
        some (readLoop _ hread ⟨buf, .reset, []⟩).1 := by
    rw [handleSessionRead, HttpSession.init, harrive, Option.map_some, readData_eq_readLoop hholds.readData hread]
  have hrun : run handleSessionRead (HttpSession.init kDefaultMaxBufferSize)
      [.written ((getText (text "/a")).bytes ++ (getText (text "/b")).bytes)] =
        some (readLoop _ hread ⟨buf, .reset, []⟩).1 := by
    rw [run, hstep]
    rfl
  obtain ⟨n, hqueue, -⟩ := readLoop_repeats (getTexts_wellFormed _ List.mem_cons_self) rfl hread
    ⟨buf, .reset, []⟩ rfl
  have hall := h _ _ _ getTexts_wellFormed (by decide) hrun
  rw [hqueue, List.nil_append] at hall
  have hmem : (getText (text "/b")).request ∈ List.replicate n (getText (text "/a")).request := by
    rw [hall]
    exact List.mem_cons_of_mem _ List.mem_cons_self
  exact absurd (List.eq_of_mem_replicate hmem) (by decide)

end TonyCat.Net
