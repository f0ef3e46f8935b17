import TonyCat.Database.ColumnText
import TonyCat.Library.Run

set_option autoImplicit false

/-! The common part of a server packet's head: its sender, its ttl and its transaction id, on the way from server to
server. -/

namespace TonyCat.Net.HeadTTL

open TonyCat.Library TonyCat.Database

structure ServerHead where
  trans_id : Bytes
  req_time : ℤ
  src_server_type : ℤ
  src_server_index : ℤ
  user_id : Bytes
  query_id : ℤ
  error_code : ℤ
  ttl : ℤ

def kPacketTTLDefaultvalue : ℤ := 30

namespace ServerHead

def new : ServerHead := ⟨[], 0, 0, 0, [], 0, 0, 0⟩

def edit (packetHead : ServerHead) (req_time : ℤ) (user_id : Bytes) (query_id error_code : ℤ) : ServerHead :=
  { packetHead with
    req_time := req_time
    user_id := user_id
    query_id := query_id
    error_code := error_code }

/-- `FillHeadCommon` up to the transaction id. -/
def fill (packetHead : ServerHead) (nServerType nServerId : ℤ) : ServerHead :=
  { packetHead with
    src_server_type := nServerType
    src_server_index := nServerId
    ttl := if packetHead.ttl = 0 then kPacketTTLDefaultvalue else packetHead.ttl - 1 }

@[simp] lemma fill_trans_id (packetHead : ServerHead) (nServerType nServerId : ℤ) :
    (packetHead.fill nServerType nServerId).trans_id = packetHead.trans_id := rfl

end ServerHead

/-- The static variables of `GenTransId`; the first call sets the prefix. -/
structure TransIdStatics where
  strTransIdPrefix : Option Bytes
  nSuffix : ℤ

structure Servers where
  nServerType : ℕ → ℤ
  nServerId : ℕ → ℤ

/-- A head in the memory of a process. `path` are the processes that have sent it or what it is a copy of, the last
first, and `sent` says whether it has been sent itself. -/
structure HeadNode where
  process : ℕ
  head : ServerHead
  path : List ℕ
  sent : Bool

structure HeadOnWire where
  destination : ℕ
  head : ServerHead
  path : List ℕ

/-- `posted` are the heads, by their place in `nodes`, that wait on the loop of a session to be written; `generated` are
the ids that `GenTransId` has made, and `handled` the heads that handlers have been called with. -/
structure Relays where
  statics : ℕ → TransIdStatics
  nodes : List HeadNode
  posted : List (ℕ × ℕ)
  wire : List HeadOnWire
  generated : List (ℕ × Bytes)
  handled : List HeadOnWire

/-- `receive` is a packet with a registered handler, `relay` one that the gate's default handler passes on to a
client, and `lose` one that is lost with its connection. -/
inductive HeadEvent
  | create (process : ℕ)
  | copy (node : ℕ)
  | edit (node : ℕ) (req_time : ℤ) (user_id : Bytes) (query_id error_code : ℤ)
  | send (node destination : ℕ) (time : ℤ)
  | write (posted : ℕ)
  | receive (packet : ℕ)
  | relay (packet : ℕ) (time : ℤ)
  | lose (packet : ℕ)

def checkHeadTTLError (packetHead : ServerHead) : Bool :=
  packetHead.ttl > 0

namespace Relays

variable (N : Servers)

def init : Relays := ⟨fun _ => ⟨none, 0⟩, [], [], [], [], []⟩

/-- The suffix is an `int64_t`, which must not overflow. -/
def genTransId (S : Relays) (process : ℕ) (time : ℤ) : Option (Relays × Bytes) :=
  let nSuffix := (S.statics process).nSuffix + 1
  let strTransIdPrefix := (S.statics process).strTransIdPrefix.getD
    (textOfInt (N.nServerType process) ++ ascii " - " ++ textOfInt (N.nServerId process) ++ textOfInt time)
  if nSuffix < 2 ^ 63 then
    let strTransId := strTransIdPrefix ++ textOfInt nSuffix
    some ({ S with
      statics := Function.update S.statics process ⟨some strTransIdPrefix, nSuffix⟩
      generated := S.generated ++ [(process, strTransId)] }, strTransId)
  else none

def fillHeadCommon (S : Relays) (process : ℕ) (time : ℤ) (packetHead : ServerHead) : Option (Relays × ServerHead) :=
  let packetHead := packetHead.fill (N.nServerType process) (N.nServerId process)
  if packetHead.trans_id = [] then
    (S.genTransId N process time).map fun r => (r.1, { packetHead with trans_id := r.2 })
  else some (S, packetHead)

def sendPacket (S : Relays) (n destination : ℕ) (time : ℤ) : Option Relays :=
  S.nodes[n]?.bind fun node => (S.fillHeadCommon N node.process time node.head).map fun r =>
    { r.1 with
      nodes := S.nodes.set n ⟨node.process, r.2, node.process :: node.path, true⟩
      posted := S.posted ++ [(n, destination)] }

/-- `WriteDataOnSessionThread`: the head is read when the loop of the session gets to it. -/
def writeDataOnSessionThread (S : Relays) (i : ℕ) : Option Relays :=
  S.posted[i]?.bind fun task => S.nodes[task.1]?.map fun node =>
    { S with
      posted := S.posted.eraseIdx i
      wire := S.wire ++ [⟨task.2, node.head, node.path⟩] }

/-- The function of `GeneratePaserPacketFunc`, and the handler that gets the head. -/
def receive (S : Relays) (i : ℕ) : Option Relays :=
  S.wire[i]?.map fun packet =>
    let S := { S with wire := S.wire.eraseIdx i }
    if checkHeadTTLError packet.head = true then
      { S with
        nodes := S.nodes ++ [⟨packet.destination, packet.head, packet.path, false⟩]
        handled := S.handled ++ [packet] }
    else S

/-- `ClientPbModule::OnServerMessage`, which does not look at the ttl; the client is no server. -/
def onServerMessage (S : Relays) (i : ℕ) (time : ℤ) : Option Relays :=
  S.wire[i]?.bind fun packet =>
    (S.fillHeadCommon N packet.destination time packet.head).map fun r => { r.1 with wire := S.wire.eraseIdx i }

def step (S : Relays) : HeadEvent → Option Relays
  | .create process => some { S with nodes := S.nodes ++ [⟨process, .new, [], false⟩] }
  | .copy n => S.nodes[n]?.map fun node => { S with nodes := S.nodes ++ [{ node with sent := false }] }
  | .edit n req_time user_id query_id error_code => S.nodes[n]?.map fun node =>
    { S with nodes := S.nodes.set n { node with head := node.head.edit req_time user_id query_id error_code } }
  | .send n destination time => S.sendPacket N n destination time
  | .write i => S.writeDataOnSessionThread i
  | .receive i => S.receive i
  | .relay i time => S.onServerMessage N i time
  | .lose i => S.wire[i]?.map fun _ => { S with wire := S.wire.eraseIdx i }

/-- A head that is sent, or copied to be sent, has not been sent since it was made or came in. -/
def FirstSend (S : Relays) : HeadEvent → Prop
  | .copy n => ∀ node ∈ S.nodes[n]?, node.sent = false
  | .send n _ _ => ∀ node ∈ S.nodes[n]?, node.sent = false
  | _ => True

instance (S : Relays) : ∀ e, Decidable (FirstSend S e)
  | .copy n | .send n _ _ => inferInstanceAs (Decidable (∀ node ∈ S.nodes[n]?, node.sent = false))
  | .create _ | .edit _ _ _ _ _ | .write _ | .receive _ | .relay _ _ | .lose _ => inferInstanceAs (Decidable True)

variable {N} {S S' : Relays}

structure Ids (S : Relays) : Prop where
  nodup : S.generated.Nodup
  made : ∀ e ∈ S.generated, ∃ strTransIdPrefix, (S.statics e.1).strTransIdPrefix = some strTransIdPrefix ∧
    ∃ n, n ≤ (S.statics e.1).nSuffix ∧ e.2 = strTransIdPrefix ++ textOfInt n

lemma textOfInt_inj {a b : ℤ} (h : textOfInt a = textOfInt b) : a = b := by
  rw [← number_textOfInt a, h, number_textOfInt]

lemma Ids.ne_nil (h : S.Ids) {e : ℕ × Bytes} (he : e ∈ S.generated) : e.2 ≠ [] := by
  obtain ⟨strTransIdPrefix, -, n, -, heq⟩ := h.made e he
  rw [heq]
  exact List.append_ne_nil_of_right_ne_nil _ (textOfInt_ne_nil n)

lemma Ids.of_same (h : S.Ids) (hstatics : S'.statics = S.statics) (hgenerated : S'.generated = S.generated) : S'.Ids :=
  ⟨hgenerated ▸ h.nodup, by rw [hstatics, hgenerated]; exact h.made⟩

structure Generates (S S' : Relays) (process : ℕ) (strTransId : Bytes) : Prop where
  generated : S'.generated = S.generated ++ [(process, strTransId)]
  nodes : S'.nodes = S.nodes
  posted : S'.posted = S.posted
  wire : S'.wire = S.wire
  handled : S'.handled = S.handled

lemma generates_genTransId {process : ℕ} {time : ℤ} {strTransId : Bytes}
    (h : S.genTransId N process time = some (S', strTransId)) : Generates S S' process strTransId := by
  rw [genTransId] at h
  split at h
  · cases h
    exact ⟨rfl, rfl, rfl, rfl, rfl⟩
  · cases h

lemma Ids.notMem_next (hs : S.Ids) (process : ℕ) (start : Bytes) :
    (process, (S.statics process).strTransIdPrefix.getD start ++ textOfInt ((S.statics process).nSuffix + 1)) ∉
      S.generated := by
  intro hmem
  obtain ⟨strTransIdPrefix, hstatic, n, hn, heq⟩ := hs.made _ hmem
  dsimp only at hstatic hn heq
  rw [hstatic, Option.getD_some] at heq
  have hsuffix := textOfInt_inj (List.append_cancel_left heq)
  omega

lemma Ids.genTransId (hs : S.Ids) {process : ℕ} {time : ℤ} {strTransId : Bytes}
    (h : S.genTransId N process time = some (S', strTransId)) : S'.Ids := by
  rw [Relays.genTransId] at h
  split at h
  case isFalse => cases h
  case isTrue =>
  cases h
  refine ⟨?_, ?_⟩
  · rw [← List.concat_eq_append]
    exact hs.nodup.concat (hs.notMem_next process _)
  · intro e he
    rcases List.mem_append.mp he with he | he
    · obtain ⟨strTransIdPrefix, hstatic, n, hn, heq⟩ := hs.made e he
      by_cases hsame : e.1 = process
      · rw [hsame] at hstatic hn ⊢
        dsimp only
        rw [Function.update_self, hstatic]
        exact ⟨strTransIdPrefix, rfl, n, hn.trans (Int.le_add_one le_rfl), heq⟩
      · dsimp only
        rw [Function.update_of_ne hsame]
        exact ⟨strTransIdPrefix, hstatic, n, hn, heq⟩
    · rw [List.mem_singleton.mp he]
      dsimp only
      rw [Function.update_self]
      exact ⟨_, rfl, _, le_rfl, rfl⟩

structure Sent (N : Servers) (generated : List (ℕ × Bytes)) (head : ServerHead) (path : List ℕ) : Prop where
  ttl : head.ttl + path.length = 31
  live : 0 ≤ head.ttl
  src : ∀ process ∈ path.head?, head.src_server_type = N.nServerType process ∧ head.src_server_index = N.nServerId process
  id : ∃ origin ∈ path.getLast?, (origin, head.trans_id) ∈ generated

variable {generated generated' : List (ℕ × Bytes)}

lemma Sent.mono {head : ServerHead} {path : List ℕ} (h : Sent N generated head path) (hg : generated ⊆ generated') :
    Sent N generated' head path := by
  obtain ⟨origin, horigin, hid⟩ := h.id
  exact ⟨h.ttl, h.live, h.src, origin, horigin, hg hid⟩

def Has (N : Servers) (generated : List (ℕ × Bytes)) (node : HeadNode) : Prop :=
  (node.path = [] ∧ node.sent = false ∧ node.head.ttl = 0 ∧ node.head.trans_id = []) ∨
    (Sent N generated node.head node.path ∧ (node.sent = false → 0 < node.head.ttl))

lemma Has.mono {node : HeadNode} (h : Has N generated node) (hg : generated ⊆ generated') : Has N generated' node := by
  rcases h with hfresh | ⟨hsent, halive⟩
  · exact .inl hfresh
  · exact .inr ⟨hsent.mono hg, halive⟩

lemma sent_fillHeadCommon (hids : S.Ids) {process : ℕ} {time : ℤ} {node : HeadNode} {packetHead : ServerHead}
    (hnode : Has N S.generated node) (hfirst : node.sent = false)
    (h : S.fillHeadCommon N process time node.head = some (S', packetHead)) :
    Sent N S'.generated packetHead (process :: node.path) := by
  rw [fillHeadCommon] at h
  rcases hnode with ⟨hpath, -, httl, htrans⟩ | ⟨hsent, halive⟩
  · have hfresh : (node.head.fill (N.nServerType process) (N.nServerId process)).ttl = kPacketTTLDefaultvalue :=
      if_pos httl
    rw [ServerHead.fill_trans_id, if_pos htrans, Option.map_eq_some_iff] at h
    obtain ⟨⟨S', strTransId⟩, hgen, heq⟩ := h
    cases heq
    refine ⟨?_, ?_, ?_, process, ?_, ?_⟩
    · rw [hpath]
      exact congrArg (· + 1) hfresh
    · exact (by decide : (0 : ℤ) ≤ kPacketTTLDefaultvalue).trans_eq hfresh.symm
    · intro process' hprocess'
      obtain rfl : process = process' := Option.some.inj hprocess'
      exact ⟨rfl, rfl⟩
    · rw [hpath]
      rfl
    · rw [(generates_genTransId hgen).generated]
      exact List.mem_append_right _ (List.mem_singleton_self _)
  · obtain ⟨origin, horigin, hid⟩ := hsent.id
    have hne : node.head.trans_id ≠ [] := hids.ne_nil hid
    have hpositive := halive hfirst
    have hless : (node.head.fill (N.nServerType process) (N.nServerId process)).ttl = node.head.ttl - 1 :=
      if_neg hpositive.ne'
    have httl := hsent.ttl
    rw [ServerHead.fill_trans_id, if_neg hne] at h
    cases h
    refine ⟨?_, ?_, ?_, origin, ?_, hid⟩
    · rw [hless, List.length_cons]
      push_cast
      omega
    · rw [hless]
      omega
    · intro process' hprocess'
      obtain rfl : process = process' := Option.some.inj hprocess'
      exact ⟨rfl, rfl⟩
    · have hpath : node.path ≠ [] := fun hnil => by simp [hnil] at horigin
      rw [List.getLast?_cons_of_ne_nil hpath]
      exact horigin

structure Fills (S S' : Relays) : Prop where
  ids : S'.Ids
  generated : S.generated ⊆ S'.generated
  nodes : S'.nodes = S.nodes
  posted : S'.posted = S.posted
  wire : S'.wire = S.wire
  handled : S'.handled = S.handled

lemma fills_fillHeadCommon (hids : S.Ids) {process : ℕ} {time : ℤ} {head packetHead : ServerHead}
    (h : S.fillHeadCommon N process time head = some (S', packetHead)) : Fills S S' := by
  rw [fillHeadCommon] at h
  split_ifs at h
  · obtain ⟨⟨S', strTransId⟩, hgen, heq⟩ := Option.map_eq_some_iff.mp h
    cases heq
    have hg := generates_genTransId hgen
    refine ⟨hids.genTransId hgen, ?_, hg.nodes, hg.posted, hg.wire, hg.handled⟩
    rw [hg.generated]
    exact List.subset_append_left _ _
  · cases h
    exact ⟨hids, List.Subset.refl _, rfl, rfl, rfl, rfl⟩

structure Kept (N : Servers) (S : Relays) : Prop where
  ids : S.Ids
  nodes : ∀ node ∈ S.nodes, Has N S.generated node
  posted : ∀ task ∈ S.posted, ∃ node ∈ S.nodes[task.1]?, Sent N S.generated node.head node.path
  wire : ∀ packet ∈ S.wire, Sent N S.generated packet.head packet.path
  handled : ∀ packet ∈ S.handled, Sent N S.generated packet.head packet.path ∧ 0 < packet.head.ttl

lemma kept_init : Kept N init :=
  ⟨⟨List.nodup_nil, List.forall_mem_nil _⟩, List.forall_mem_nil _, List.forall_mem_nil _, List.forall_mem_nil _,
    List.forall_mem_nil _⟩

lemma Kept.concat_node (hk : Kept N S) (node : HeadNode) (hnode : Has N S.generated node) :
    Kept N { S with nodes := S.nodes ++ [node] } := by
  refine ⟨hk.ids.of_same rfl rfl, ?_, ?_, hk.wire, hk.handled⟩
  · intro node' hmem
    rcases List.mem_append.mp hmem with hmem | hmem
    · exact hk.nodes node' hmem
    · rw [List.mem_singleton.mp hmem]
      exact hnode
  · intro task htask
    obtain ⟨node', hat, hsent⟩ := hk.posted task htask
    refine ⟨node', ?_, hsent⟩
    rw [List.getElem?_append_left (List.getElem?_eq_some_iff.mp hat).1]
    exact hat

lemma Kept.set_node (hk : Kept N S) {n : ℕ} {node : HeadNode} (node' : HeadNode) (hat : S.nodes[n]? = some node)
    (hnode : Has N S.generated node')
    (hkeeps : Sent N S.generated node.head node.path → Sent N S.generated node'.head node'.path) :
    Kept N { S with nodes := S.nodes.set n node' } := by
  refine ⟨hk.ids.of_same rfl rfl, ?_, ?_, hk.wire, hk.handled⟩
  · intro other hmem
    rcases List.mem_or_eq_of_mem_set hmem with hmem | rfl
    · exact hk.nodes other hmem
    · exact hnode
  · intro task htask
    obtain ⟨other, hother, hsent⟩ := hk.posted task htask
    by_cases hn : n = task.1
    · rw [hn] at hat
      obtain rfl : node = other := Option.some.inj (hat.symm.trans hother)
      refine ⟨node', ?_, hkeeps hsent⟩
      rw [hn, Option.mem_def, List.getElem?_set_self (List.getElem?_eq_some_iff.mp hat).1]
    · refine ⟨other, ?_, hsent⟩
      rw [List.getElem?_set_ne hn]
      exact hother

lemma Kept.post (hk : Kept N S) {task : ℕ × ℕ} {node : HeadNode} (hat : S.nodes[task.1]? = some node)
    (hsent : Sent N S.generated node.head node.path) : Kept N { S with posted := S.posted ++ [task] } := by
  refine ⟨hk.ids.of_same rfl rfl, hk.nodes, ?_, hk.wire, hk.handled⟩
  intro task' htask
  rcases List.mem_append.mp htask with htask | htask
  · exact hk.posted task' htask
  · rw [List.mem_singleton.mp htask]
    exact ⟨node, hat, hsent⟩

lemma Kept.erase_wire (hk : Kept N S) (i : ℕ) : Kept N { S with wire := S.wire.eraseIdx i } :=
  ⟨hk.ids.of_same rfl rfl, hk.nodes, hk.posted, fun packet hp => hk.wire packet (List.mem_of_mem_eraseIdx hp),
    hk.handled⟩

lemma Kept.fills (hk : Kept N S) (hf : Fills S S') : Kept N S' := by
  refine ⟨hf.ids, ?_, ?_, ?_, ?_⟩
  · rw [hf.nodes]
    exact fun node hn => (hk.nodes node hn).mono hf.generated
  · rw [hf.nodes, hf.posted]
    exact fun task ht => (hk.posted task ht).imp fun _ h => h.imp_right fun h => h.mono hf.generated
  · rw [hf.wire]
    exact fun packet hp => (hk.wire packet hp).mono hf.generated
  · rw [hf.handled]
    exact fun packet hp => (hk.handled packet hp).imp_left fun h => h.mono hf.generated

lemma Kept.sendPacket (hk : Kept N S) {n destination : ℕ} {time : ℤ} (hfirst : FirstSend S (.send n destination time))
    (h : S.sendPacket N n destination time = some S') : Kept N S' := by
  obtain ⟨node, hat, h⟩ := Option.bind_eq_some_iff.mp h
  obtain ⟨⟨S₁, packetHead⟩, hfill, rfl⟩ := Option.map_eq_some_iff.mp h
  have hf := fills_fillHeadCommon hk.ids hfill
  have hsent := sent_fillHeadCommon hk.ids (hk.nodes node (List.mem_of_getElem? hat)) (hfirst node hat) hfill
  rw [← hf.nodes] at hat
  rw [← hf.nodes, ← hf.posted]
  have hset := (hk.fills hf).set_node ⟨node.process, packetHead, node.process :: node.path, true⟩ hat
    (.inr ⟨hsent, by simp⟩) fun _ => hsent
  exact hset.post (List.getElem?_set_self (List.getElem?_eq_some_iff.mp hat).1) hsent

lemma Kept.write (hk : Kept N S) {i : ℕ} (h : S.writeDataOnSessionThread i = some S') : Kept N S' := by
  obtain ⟨task, htask, h⟩ := Option.bind_eq_some_iff.mp h
  obtain ⟨node, hat, rfl⟩ := Option.map_eq_some_iff.mp h
  obtain ⟨node', hat', hsent⟩ := hk.posted task (List.mem_of_getElem? htask)
  obtain rfl : node = node' := Option.some.inj (hat.symm.trans hat')
  refine ⟨hk.ids.of_same rfl rfl, hk.nodes, ?_, ?_, hk.handled⟩
  · exact fun task' htask' => hk.posted task' (List.mem_of_mem_eraseIdx htask')
  · intro packet hp
    rcases List.mem_append.mp hp with hp | hp
    · exact hk.wire packet hp
    · rw [List.mem_singleton.mp hp]
      exact hsent

lemma Kept.receive (hk : Kept N S) {i : ℕ} (h : S.receive i = some S') : Kept N S' := by
  obtain ⟨packet, hat, rfl⟩ := Option.map_eq_some_iff.mp h
  have hsent := hk.wire packet (List.mem_of_getElem? hat)
  have herased := hk.erase_wire i
  dsimp only
  split
  case isFalse => exact herased
  case isTrue halive =>
  have hpositive : 0 < packet.head.ttl := of_decide_eq_true halive
  have hnode := herased.concat_node ⟨packet.destination, packet.head, packet.path, false⟩
    (.inr ⟨hsent, fun _ => hpositive⟩)
  refine ⟨hnode.ids.of_same rfl rfl, hnode.nodes, hnode.posted, hnode.wire, ?_⟩
  intro packet' hp
  rcases List.mem_append.mp hp with hp | hp
  · exact hk.handled packet' hp
  · rw [List.mem_singleton.mp hp]
    exact ⟨hsent, hpositive⟩

theorem Kept.step (hk : Kept N S) {e : HeadEvent} (hfirst : FirstSend S e) (h : S.step N e = some S') : Kept N S' := by
  cases e with
  | create process =>
    cases h
    exact hk.concat_node _ (.inl ⟨rfl, rfl, rfl, rfl⟩)
  | copy n =>
    obtain ⟨node, hat, rfl⟩ := Option.map_eq_some_iff.mp h
    have hnode := hk.nodes node (List.mem_of_getElem? hat)
    have hunsent : node.sent = false := hfirst node hat
    apply hk.concat_node
    rw [← hunsent]
    exact hnode
  | edit n req_time user_id query_id error_code =>
    obtain ⟨node, hat, rfl⟩ := Option.map_eq_some_iff.mp h
    have hedit : Sent N S.generated node.head node.path →
        Sent N S.generated (node.head.edit req_time user_id query_id error_code) node.path :=
      fun hsent => ⟨hsent.ttl, hsent.live, hsent.src, hsent.id⟩
    apply hk.set_node _ hat
    · rcases hk.nodes node (List.mem_of_getElem? hat) with hfresh | ⟨hsent, halive⟩
      · exact .inl hfresh
      · exact .inr ⟨hedit hsent, halive⟩
    · exact hedit
  | send n destination time => exact hk.sendPacket hfirst h
  | write i => exact hk.write h
  | receive i => exact hk.receive h
  | relay i time =>
    obtain ⟨packet, -, h⟩ := Option.bind_eq_some_iff.mp h
    obtain ⟨⟨S₁, packetHead⟩, hfill, rfl⟩ := Option.map_eq_some_iff.mp h
    have hf := fills_fillHeadCommon hk.ids hfill
    rw [← hf.wire]
    exact (hk.fills hf).erase_wire i
  | lose i =>
    obtain ⟨_, -, rfl⟩ := Option.map_eq_some_iff.mp h
    exact hk.erase_wire i

/-- However the servers pass packets on, a head that is sent once each time it is made or comes in ends after 31
sends: a handler that gets it is at most the thirtieth. It names the server it comes from, and its transaction id is one
that the first sender has generated; no server generates an id twice. -/
theorem heads_end {es : List HeadEvent} (hrun : run (step N) init es = some S)
    (hfirst : StepsMeet (step N) (fun _ => FirstSend) init es) : S.generated.Nodup ∧
    ∀ packet ∈ S.handled, packet.path.length ≤ 30 ∧ packet.head.ttl = 31 - packet.path.length ∧
      (∃ process ∈ packet.path.head?, packet.head.src_server_type = N.nServerType process ∧
        packet.head.src_server_index = N.nServerId process) ∧
          ∃ origin ∈ packet.path.getLast?, (origin, packet.head.trans_id) ∈ S.generated := by
  have hk : Kept N S := hfirst.invariant kept_init (fun hk hfirst h => hk.step hfirst h) hrun
  refine ⟨hk.ids.nodup, fun packet hp => ?_⟩
  obtain ⟨hsent, hpositive⟩ := hk.handled packet hp
  have httl := hsent.ttl
  refine ⟨by omega, by omega, ?_, hsent.id⟩
  obtain ⟨origin, horigin, -⟩ := hsent.id
  cases hpath : packet.path with
  | nil => simp [hpath] at horigin
  | cons process path => exact ⟨process, rfl, hsent.src process (by rw [hpath]; rfl)⟩

def twoServers : Servers := ⟨fun process => process + 1, fun _ => 1⟩

/-- A request and its respond, with the head that has come in. -/
def requestAndRespond : List HeadEvent :=
  [.create 0, .edit 0 0 (ascii "u1") 1 0, .send 0 1 1700000000, .write 0, .receive 0, .send 1 0 1700000001, .write 0,
    .receive 0]

theorem heads_end_requestAndRespond : ∃ S, run (step twoServers) init requestAndRespond = some S ∧
    S.handled.length = 2 ∧ S.generated.Nodup ∧ ∀ packet ∈ S.handled, packet.path.length ≤ 30 := by
  have hlength : (run (step twoServers) init requestAndRespond).map (fun S => S.handled.length) = some 2 := by
    decide +kernel
  have hcheck : checkSteps (step twoServers) (fun S e => decide (FirstSend S e)) init requestAndRespond = true := by
    decide +kernel
  obtain ⟨S, hrun, hhandled⟩ := Option.map_eq_some_iff.mp hlength
  have hend := heads_end hrun (stepsMeet_of_checkSteps (fun _ _ => of_decide_eq_true) hcheck)
  exact ⟨S, hrun, hhandled, hend.1, fun packet hp => (hend.2 packet hp).1⟩

end Relays

end TonyCat.Net.HeadTTL
