import IClaustron.Config.Entries
import IClaustron.Lib.Words
import IClaustron.Lib.Result

/-!
# Config.KeyValue — the key-value sections of a cluster configuration

Model of ic_get_key_value_sections_config and what it calls (api/ic_apic_run_cs.ic).
The array of the code holds words in network byte order; here it is the list of the
numbers that g_ntohl reads from it, and a string in it is made of words by
`wordsOfBytes`. The length that is computed in a first round is compared with the
length of the array in the end, as in the code.

* `getKeyValueSections_words` — what stands in the array in front of the sections of
  the nodes.
-/

namespace IClaustron.Config

open Lib Protocol List Result

/-! ## Configuration of a cluster -/

/-- The parts of `IC_CLUSTER_CONFIG` that are sent. The arrays have a place for every
node id up to `maxNodeId`; `commHash` are the objects of the hash table of the
communication sections, the one that was inserted last first. -/
structure ClusterConfig where
  numNodes : Nat
  maxNodeId : Nat
  nodeConfig : Nat → Option ConfObject
  nodeTypes : Nat → NodeType
  commHash : List ConfObject
  sysConf : ConfObject

/-- `first_node_id` and `second_node_id`, two 32-bit members. -/
def ConfObject.firstNodeId (conf : ConfObject) : UInt32 := (conf.num "first_node_id").toUInt32
def ConfObject.secondNodeId (conf : ConfObject) : UInt32 := (conf.num "second_node_id").toUInt32

/-- `ic_hash_comms` and `ic_keys_equal_comms` for the object with `node1`, `node2`. -/
def commEqual (node1 node2 : UInt32) (conf : ConfObject) : Bool :=
  node1 ^^^ node2 == conf.firstNodeId ^^^ conf.secondNodeId &&
    (node1 == conf.firstNodeId && node2 == conf.secondNodeId || node1 == conf.secondNodeId)

inductive EncodeError where
  /-- IC_ERROR_INCONSISTENT_DATA -/
  | inconsistentData
  /-- IC_ERROR_MEM_ALLOC -/
  | memAlloc
  /-- `ic_require` -/
  | abort
  deriving DecidableEq

/-- `get_comm_section`. -/
def getCommSection (c : ClusterConfig) (node1 node2 : Nat) : Except EncodeError ConfObject :=
  match c.commHash.find? (commEqual node1.toUInt32 node2.toUInt32) with
  | some conf => .ok conf
  | none => .error .abort

/-! ## Sections -/

/-- IC_PROTOCOL_BIT. -/
def protocolBit : Nat := 20

/-- `is_iclaustron_version`. -/
def isIclaustronVersion (versionNumber : UInt64) : Bool := versionNumber.toNat.testBit protocolBit

/-- IC_CL_INT32_TYPE, IC_CL_CHAR_TYPE, IC_CL_SECT_TYPE and IC_CL_INT64_TYPE. -/
def int32Type : UInt32 := 1
def charType : UInt32 := 2
def sectType : UInt32 := 3
def int64Type : UInt32 := 4

/-- IC_NODE_ID, IC_NODE_TYPE and IC_PARENT_ID. -/
def icNodeId : UInt32 := 3
def icNodeType : UInt32 := 999
def icParentId : UInt32 := 16382

/-- A key, with IC_CL_KEY_SHIFT and IC_CL_SECT_SHIFT. -/
def keyWord (dataType sectId configId : UInt32) : UInt32 :=
  (dataType <<< 28) + (sectId <<< 14) + configId

/-- The value that names a section. -/
def sectWord (sectId : UInt32) : UInt32 := sectId <<< 14

/-- The entries of the table that are sent in a section, by their indices. -/
def sentEntries (T : ConfigTable) (configType : ConfigType) (versionNumber : UInt64) : List Nat :=
  (List.range maxConfigId).filter fun i =>
    (T.globConfEntry i).configTypes.testBit configType.code && !(T.globConfEntry i).isNotSent &&
      isEntryUsedInVersion (T.globConfEntry i) versionNumber

/-- The bytes of a string member; a null pointer counts as the empty string. -/
def ConfObject.strBytes (conf : ConfObject) (name : String) : Bytes :=
  match conf.str name with
  | some s => s.bytes
  | none => []

/-- `ndb_mgm_str_word_len`. -/
def ndbMgmStrWordLen (strLen : Nat) : Nat := (strLen + 1 + 3) / 4

/-- The words an entry takes in `get_length_of_section`. -/
def entryLength (conf : ConfObject) (e : ConfigEntry) : Except EncodeError Nat :=
  match e.dataType with
  | .boolean | .uint16 | .uint32 => .ok 2
  | .uint64 => .ok 3
  | .charptr | .enum => .ok (ndbMgmStrWordLen (conf.strBytes e.configEntryName).length + 2)
  | _ => .error .abort

/-- `get_length_of_section`: the entries, the node type and the parent id. -/
def getLengthOfSection (T : ConfigTable) (configType : ConfigType) (conf : ConfObject)
    (versionNumber : UInt64) : Except EncodeError Nat := do
  let lens ← (sentEntries T configType versionNumber).mapM fun i =>
    entryLength conf (T.globConfEntry i)
  return lens.sum + 4

/-- The memory of a string that has been copied to an array of `wordLen` words. -/
def strWords (bytes : Bytes) (wordLen : Nat) : List UInt32 :=
  wordsOfBytes (bytes ++ List.replicate (4 * wordLen - bytes.length) 0)

/-- What `fill_key_value_section` writes for an entry. -/
def fillEntry (T : ConfigTable) (conf : ConfObject) (sectId : UInt32) (i : Nat) :
    Except EncodeError (List UInt32) :=
  let e := T.globConfEntry i
  let configId := (T.mapInxToConfigId i).toUInt32
  let num := conf.num e.configEntryName
  match e.dataType with
  | .boolean | .char => .ok [keyWord int32Type sectId configId, num.toUInt8.toUInt32]
  | .uint16 => .ok [keyWord int32Type sectId configId, num.toUInt16.toUInt32]
  | .uint32 => .ok [keyWord int32Type sectId configId, num.toUInt32]
  | .uint64 => .ok [keyWord int64Type sectId configId, (num >>> 32).toUInt32, num.toUInt32]
  | .charptr | .enum =>
    let bytes := conf.strBytes e.configEntryName
    .ok (keyWord charType sectId configId :: (bytes.length + 1).toUInt32 ::
      strWords bytes (ndbMgmStrWordLen bytes.length))
  | _ => .error .inconsistentData

/-- The value of IC_NODE_TYPE in a section. -/
def nodeTypeValue (configType : ConfigType) (versionNumber : UInt64) : UInt32 :=
  match configType with
  | .comm => 0
  | .dataServer => 0
  | .clusterServer => 2
  | t => if !isIclaustronVersion versionNumber then 1 else t.code.toUInt32 - 1

/-- `fill_key_value_section`. -/
def fillKeyValueSection (T : ConfigTable) (configType : ConfigType) (conf : ConfObject)
    (versionNumber : UInt64) (sectId : UInt32) : Except EncodeError (List UInt32) := do
  let entries ← (sentEntries T configType versionNumber).mapM (fillEntry T conf sectId)
  return entries.flatten ++
    [keyWord int32Type sectId icNodeType, nodeTypeValue configType versionNumber,
     keyWord int32Type sectId icParentId, 0]

/-! ## The whole array -/

/-- `ver_string`, "NDBCONF2". -/
def verString : Bytes := [0x4E, 0x44, 0x42, 0x43, 0x4F, 0x4E, 0x46, 0x32]

/-- The ids of the nodes, in ascending order. -/
def ClusterConfig.nodes (c : ClusterConfig) : List Nat :=
  (List.range' 1 c.maxNodeId).filter fun i => (c.nodeConfig i).isSome

def ClusterConfig.isDataServer (c : ClusterConfig) (i : Nat) : Bool :=
  decide (c.nodeTypes i = .dataServer)

def ClusterConfig.apiNodes (c : ClusterConfig) : List Nat :=
  c.nodes.filter fun i => !c.isDataServer i

def ClusterConfig.dataServers (c : ClusterConfig) : List Nat := c.nodes.filter c.isDataServer

/-- The pairs of nodes that have a communication section. -/
def ClusterConfig.commPairs (c : ClusterConfig) (versionNumber : UInt64) : List (Nat × Nat) :=
  c.nodes.flatMap fun i => (c.nodes.filter fun j =>
    decide (i < j) && (c.isDataServer i || c.isDataServer j || isIclaustronVersion versionNumber)).map
    fun j => (i, j)

section

variable (T : ConfigTable) (c : ClusterConfig) (versionNumber : UInt64)

/-- The object of a node; called for nodes only. -/
def ClusterConfig.nodeObject (i : Nat) : ConfObject := (c.nodeConfig i).getD ConfObject.zero

def nodeSectLen (i : Nat) : Except EncodeError Nat := do
  let len ← getLengthOfSection T (c.nodeTypes i).configType (c.nodeObject i) versionNumber
  if len = 0 then throw .inconsistentData
  return len

def commSectLen (p : Nat × Nat) : Except EncodeError Nat := do
  let conf ← getCommSection c p.1 p.2
  getLengthOfSection T .comm conf versionNumber

/-- The number of words, as the first half of `ic_get_key_value_sections_config` counts it. -/
def keyValueLen : Except EncodeError Nat := do
  let nodeLens ← c.nodes.mapM (nodeSectLen T c versionNumber)
  let commLens ← (c.commPairs versionNumber).mapM (commSectLen T c versionNumber)
  let systemLen ← getLengthOfSection T .system c.sysConf versionNumber
  if systemLen = 0 then throw .inconsistentData
  return 2 + 6 + c.numNodes * 2 + nodeLens.sum + commLens.sum + 2 + systemLen +
    (c.commPairs versionNumber).length * 2 + 1

/-- The sections of a list of objects, from a section id on. -/
def fillSections (fill : UInt32 → α → Except EncodeError (List UInt32)) :
    UInt32 → List α → Except EncodeError (List UInt32)
  | _, [] => .ok []
  | sectId, x :: xs => do
    let ws ← fill sectId x
    let rest ← fillSections fill (sectId + 1) xs
    return ws ++ rest

def fillNode (sectId : UInt32) (i : Nat) : Except EncodeError (List UInt32) :=
  fillKeyValueSection T (c.nodeTypes i).configType (c.nodeObject i) versionNumber sectId

def fillComm (sectId : UInt32) (p : Nat × Nat) : Except EncodeError (List UInt32) := do
  let conf ← getCommSection c p.1 p.2
  fillKeyValueSection T .comm conf versionNumber sectId

/-- `system_meta_section`. -/
def ClusterConfig.systemMetaSection : UInt32 := 2 + c.apiNodes.length.toUInt32

/-- `comm_meta_section`. -/
def ClusterConfig.commMetaSection : UInt32 := 2 + c.systemMetaSection

/-- Section 0: where the system, the nodes and the communication sections are described. -/
def sectionZero : List UInt32 :=
  [keyWord sectType 0 1000, sectWord c.systemMetaSection,
   keyWord sectType 0 2000, sectWord 1,
   keyWord sectType 0 3000, sectWord c.commMetaSection]

/-- Section 1: the sections of the API nodes, then those of the data servers. -/
def nodeMetaSection (numComms : Nat) : List UInt32 :=
  (List.range (max c.apiNodes.length c.numNodes)).flatMap fun i =>
    [keyWord int32Type 1 i.toUInt32,
     sectWord (if i < c.apiNodes.length then 2 + i.toUInt32
       else c.commMetaSection + numComms.toUInt32 + 1 + (i - c.apiNodes.length).toUInt32)]

def systemMeta : List UInt32 :=
  [keyWord int32Type c.systemMetaSection 0, sectWord (c.systemMetaSection + 1)]

def commMeta (numComms : Nat) : List UInt32 :=
  (List.range numComms).flatMap fun i =>
    [keyWord int32Type c.commMetaSection i.toUInt32,
     sectWord (c.commMetaSection + i.toUInt32 + 1)]

/-- What stands behind the verification string and section 0, without the checksum. -/
def keyValueRest : Except EncodeError (List UInt32) := do
  let numComms := (c.commPairs versionNumber).length
  let apis ← fillSections (fillNode T c versionNumber) 2 c.apiNodes
  let system ←
    fillKeyValueSection T .system c.sysConf versionNumber (c.systemMetaSection + 1)
  let comms ← fillSections (fillComm T c versionNumber) (c.commMetaSection + 1)
    (c.commPairs versionNumber)
  let dataServers ← fillSections (fillNode T c versionNumber)
    (c.commMetaSection + 1 + numComms.toUInt32) c.dataServers
  return nodeMetaSection c numComms ++ apis ++ systemMeta c ++ system ++ commMeta c numComms ++
    comms ++ dataServers

/-- The exclusive or of words. -/
def checksum (ws : List UInt32) : UInt32 := ws.foldl (· ^^^ ·) 0

/-- The array with its checksum, of the length that was computed. -/
def closeKeyValue (len : Nat) (ws : List UInt32) : Except EncodeError (List UInt32) :=
  if (ws ++ [checksum ws]).length = len then .ok (ws ++ [checksum ws]) else .error .inconsistentData

/-- `ic_get_key_value_sections_config`; `callocOk` tells whether the array is allocated. -/
def getKeyValueSections (callocOk : Bool) : Except EncodeError (List UInt32) := do
  let len ← keyValueLen T c versionNumber
  if c.commPairs versionNumber = [] then .error .abort
  else if !callocOk then .error .memAlloc
  else
    let rest ← keyValueRest T c versionNumber
    closeKeyValue len (wordsOfBytes verString ++ sectionZero c ++ rest)

end

/-! ## Lengths -/

/-- A data type that both rounds of the encoder know. -/
def DataType.Sendable : DataType → Prop
  | .boolean | .uint16 | .uint32 | .uint64 | .charptr | .enum => True
  | _ => False

instance (d : DataType) : Decidable d.Sendable := by
  cases d <;> first | exact isTrue trivial | exact isFalse id

theorem length_strWords (bytes : Bytes) :
    (strWords bytes (ndbMgmStrWordLen bytes.length)).length = ndbMgmStrWordLen bytes.length := by
  unfold strWords ndbMgmStrWordLen
  rw [length_wordsOfBytes, length_append, length_replicate]
  omega

variable {T : ConfigTable} {c : ClusterConfig} {versionNumber : UInt64}

theorem fillEntry_spec {i : Nat} (h : (T.globConfEntry i).dataType.Sendable) (conf : ConfObject)
    (sectId : UInt32) :
    ∃ ws, fillEntry T conf sectId i = .ok ws ∧ entryLength conf (T.globConfEntry i) = .ok ws.length := by
  unfold fillEntry entryLength
  dsimp only
  cases hType : (T.globConfEntry i).dataType with
  | boolean | uint16 | uint32 | uint64 =>
    refine ⟨_, rfl, ?_⟩
    rfl
  | charptr | enum =>
    refine ⟨_, rfl, ?_⟩
    simp only [length_cons, length_strWords]
  | noSuchConfigDataType | sectionType | char | bitmask =>
    rw [hType] at h
    exact h.elim

/-- Two functions over a list, of which one gives lists and the other their lengths. -/
theorem mapM_lengths {ε α β : Type} {f : α → Except ε (List β)} {g : α → Except ε Nat} (xs : List α)
    (h : ∀ x ∈ xs, ∃ ys, f x = .ok ys ∧ g x = .ok ys.length) :
    ∃ yss, xs.mapM f = .ok yss ∧ xs.mapM g = .ok (yss.map List.length) := by
  induction xs with
  | nil => exact ⟨[], rfl, rfl⟩
  | cons x xs ih =>
    obtain ⟨ys, hf, hg⟩ := h x mem_cons_self
    obtain ⟨yss, hfs, hgs⟩ := ih fun x' hx' => h x' (mem_cons_of_mem x hx')
    refine ⟨ys :: yss, ?_, ?_⟩
    · rw [mapM_cons, hf, hfs]
      rfl
    · rw [mapM_cons, hg, hgs]
      rfl

/-- Every entry of a section has a data type that can be sent. -/
def TableSendable (T : ConfigTable) : Prop :=
  ∀ i, (T.globConfEntry i).configTypes ≠ 0 → (T.globConfEntry i).dataType.Sendable

theorem sendable_of_sent (hT : TableSendable T) {configType : ConfigType} {i : Nat}
    (hi : i ∈ sentEntries T configType versionNumber) : (T.globConfEntry i).dataType.Sendable := by
  apply hT
  intro hZero
  have hBit := (mem_filter.mp hi).2
  rw [hZero] at hBit
  simp at hBit

theorem fillKeyValueSection_spec (hT : TableSendable T) (configType : ConfigType)
    (conf : ConfObject) (sectId : UInt32) :
    ∃ ws, fillKeyValueSection T configType conf versionNumber sectId = .ok ws ∧
      getLengthOfSection T configType conf versionNumber = .ok ws.length := by
  obtain ⟨wss, hFill, hLen⟩ := mapM_lengths (sentEntries T configType versionNumber)
    fun i hi => fillEntry_spec (sendable_of_sent hT hi) conf sectId
  unfold fillKeyValueSection getLengthOfSection
  rw [hFill, hLen]
  refine ⟨_, rfl, ?_⟩
  rw [length_append, length_flatten]
  rfl

theorem fillSections_spec {α : Type} {fill : UInt32 → α → Except EncodeError (List UInt32)}
    {len : α → Nat} (xs : List α)
    (h : ∀ x ∈ xs, ∀ sectId, ∃ ws, fill sectId x = .ok ws ∧ ws.length = len x) : ∀ sectId,
    ∃ ws, fillSections fill sectId xs = .ok ws ∧ ws.length = (xs.map len).sum := by
  induction xs with
  | nil =>
    intro sectId
    exact ⟨[], rfl, rfl⟩
  | cons x xs ih =>
    intro sectId
    obtain ⟨ws, hFill, hLen⟩ := h x mem_cons_self sectId
    obtain ⟨rest, hRest, hLens⟩ := ih (fun x' hx' => h x' (mem_cons_of_mem x hx')) (sectId + 1)
    refine ⟨ws ++ rest, ?_, ?_⟩
    · rw [fillSections, hFill, hRest]
      rfl
    · rw [length_append, hLen, hLens, map_cons, sum_cons]

theorem mapM_eq_ok {ε α β : Type} {f : α → Except ε β} {g : α → β} (xs : List α)
    (h : ∀ x ∈ xs, f x = .ok (g x)) : xs.mapM f = .ok (xs.map g) := by
  induction xs with
  | nil => rfl
  | cons x xs ih =>
    rw [mapM_cons, h x mem_cons_self, ih fun x' hx' => h x' (mem_cons_of_mem x hx')]
    rfl

/-- The length of a section, for a table whose entries can all be sent. -/
theorem exists_sectionLength (hT : TableSendable T) (versionNumber : UInt64) :
    ∃ len : ConfigType → ConfObject → Nat, ∀ t conf,
      getLengthOfSection T t conf versionNumber = .ok (len t conf) ∧ len t conf ≠ 0 ∧
      ∀ sectId, ∃ ws, fillKeyValueSection T t conf versionNumber sectId = .ok ws ∧
        ws.length = len t conf := by
  have h : ∀ t conf, ∃ n, getLengthOfSection T t conf versionNumber = .ok n ∧ n ≠ 0 ∧
      ∀ sectId, ∃ ws, fillKeyValueSection T t conf versionNumber sectId = .ok ws ∧
        ws.length = n := by
    intro t conf
    obtain ⟨ws, hFill, hLen⟩ := fillKeyValueSection_spec hT t conf 0
    refine ⟨ws.length, hLen, ?_, ?_⟩
    · obtain ⟨lens, -, hSum⟩ := bind_eq_ok.mp hLen
      injection hSum with hSum
      omega
    · intro sectId
      obtain ⟨ws', hFill', hLen'⟩ := fillKeyValueSection_spec hT t conf sectId
      refine ⟨ws', hFill', ?_⟩
      rw [hLen] at hLen'
      injection hLen' with hEq
      exact hEq.symm
  choose len hLen using h
  exact ⟨len, hLen⟩

theorem sum_nodes (c : ClusterConfig) (len : Nat → Nat) :
    (c.nodes.map len).sum = (c.apiNodes.map len).sum + (c.dataServers.map len).sum := by
  unfold ClusterConfig.apiNodes ClusterConfig.dataServers
  induction c.nodes with
  | nil => rfl
  | cons i is ih =>
    cases hi : c.isDataServer i with
    | true =>
      rw [filter_cons_of_neg (by simp [hi]), filter_cons_of_pos hi]
      simp only [map_cons, sum_cons, ih]
      omega
    | false =>
      rw [filter_cons_of_pos (by simp [hi]), filter_cons_of_neg (by simp [hi])]
      simp only [map_cons, sum_cons, ih]
      omega

theorem length_apiNodes_le (c : ClusterConfig) : c.apiNodes.length ≤ c.nodes.length :=
  length_filter_le _ _

theorem length_flatMap_pair {α β : Type} (xs : List α) (f g : α → β) :
    (xs.flatMap fun x => [f x, g x]).length = 2 * xs.length := by
  induction xs with
  | nil => rfl
  | cons x xs ih =>
    rw [flatMap_cons, length_append, ih]
    simp only [length_cons, length_nil]
    omega

/-- A configuration whose communication sections are all there. -/
structure ClusterConfig.Complete (c : ClusterConfig) (versionNumber : UInt64) : Prop where
  numNodes_eq : c.numNodes = c.nodes.length
  comms : ∀ p ∈ c.commPairs versionNumber, ∃ conf, getCommSection c p.1 p.2 = .ok conf
  connected : c.commPairs versionNumber ≠ []

/-- The sections of a configuration are filled, and these are their lengths. -/
structure SectionLengths (T : ConfigTable) (c : ClusterConfig) (versionNumber : UInt64)
    (nodeLen : Nat → Nat) (commLen : Nat × Nat → Nat) (systemLen : Nat) : Prop where
  node : ∀ i, nodeSectLen T c versionNumber i = .ok (nodeLen i)
  fillNode : ∀ i sectId, ∃ ws, fillNode T c versionNumber sectId i = .ok ws ∧
    ws.length = nodeLen i
  comm : ∀ p ∈ c.commPairs versionNumber, commSectLen T c versionNumber p = .ok (commLen p)
  fillComm : ∀ p ∈ c.commPairs versionNumber, ∀ sectId,
    ∃ ws, fillComm T c versionNumber sectId p = .ok ws ∧ ws.length = commLen p
  system : getLengthOfSection T .system c.sysConf versionNumber = .ok systemLen
  system_ne : systemLen ≠ 0
  fillSystem : ∀ sectId, ∃ ws,
    fillKeyValueSection T .system c.sysConf versionNumber sectId = .ok ws ∧ ws.length = systemLen

theorem exists_sectionLengths (hT : TableSendable T) (hc : c.Complete versionNumber) :
    ∃ nodeLen commLen systemLen, SectionLengths T c versionNumber nodeLen commLen systemLen := by
  obtain ⟨len, hLen⟩ := exists_sectionLength hT versionNumber
  let commObj : Nat × Nat → ConfObject := fun p =>
    ((getCommSection c p.1 p.2).toOption).getD ConfObject.zero
  have hComm : ∀ p ∈ c.commPairs versionNumber, getCommSection c p.1 p.2 = .ok (commObj p) := by
    intro p hp
    obtain ⟨conf, hConf⟩ := hc.comms p hp
    simp only [commObj, hConf, Except.toOption, Option.getD_some]
  refine ⟨fun i => len (c.nodeTypes i).configType (c.nodeObject i), fun p => len .comm (commObj p),
    len .system c.sysConf, ?_⟩
  constructor
  · intro i
    obtain ⟨hOk, hne, -⟩ := hLen (c.nodeTypes i).configType (c.nodeObject i)
    unfold nodeSectLen
    simp only [bind_of_ok hOk, if_neg hne]
    rfl
  · intro i sectId
    exact (hLen (c.nodeTypes i).configType (c.nodeObject i)).2.2 sectId
  · intro p hp
    unfold commSectLen
    simp only [bind_of_ok (hComm p hp)]
    exact (hLen .comm (commObj p)).1
  · intro p hp sectId
    obtain ⟨ws, hFill, hWs⟩ := (hLen .comm (commObj p)).2.2 sectId
    refine ⟨ws, ?_, hWs⟩
    unfold fillComm
    simp only [bind_of_ok (hComm p hp)]
    exact hFill
  · exact (hLen .system c.sysConf).1
  · exact (hLen .system c.sysConf).2.1
  · exact (hLen .system c.sysConf).2.2

section

variable {nodeLen : Nat → Nat} {commLen : Nat × Nat → Nat} {systemLen : Nat}
  (hs : SectionLengths T c versionNumber nodeLen commLen systemLen)

include hs

theorem keyValueLen_eq :
    keyValueLen T c versionNumber = .ok (2 + 6 + c.numNodes * 2 + (c.nodes.map nodeLen).sum +
      ((c.commPairs versionNumber).map commLen).sum + 2 + systemLen +
      (c.commPairs versionNumber).length * 2 + 1) := by
  have hNodes := mapM_eq_ok c.nodes fun i _ => hs.node i
  have hComms := mapM_eq_ok (c.commPairs versionNumber) hs.comm
  unfold keyValueLen
  simp only [bind_of_ok hNodes, bind_of_ok hComms, bind_of_ok hs.system,
    if_neg hs.system_ne]
  rfl

theorem keyValueRest_spec :
    ∃ ws, keyValueRest T c versionNumber = .ok ws ∧
      ws.length = 2 * max c.apiNodes.length c.numNodes + (c.apiNodes.map nodeLen).sum + 2 +
        systemLen + 2 * (c.commPairs versionNumber).length +
        ((c.commPairs versionNumber).map commLen).sum + (c.dataServers.map nodeLen).sum := by
  obtain ⟨apis, hApis, hApisLen⟩ :=
    fillSections_spec c.apiNodes (fun i _ sectId => hs.fillNode i sectId) 2
  obtain ⟨system, hSystem, hSystemLen⟩ := hs.fillSystem (c.systemMetaSection + 1)
  obtain ⟨comms, hComms, hCommsLen⟩ :=
    fillSections_spec (c.commPairs versionNumber) hs.fillComm (c.commMetaSection + 1)
  obtain ⟨dataServers, hData, hDataLen⟩ :=
    fillSections_spec c.dataServers (fun i _ sectId => hs.fillNode i sectId)
      (c.commMetaSection + 1 + (c.commPairs versionNumber).length.toUInt32)
  unfold keyValueRest
  simp only [bind_of_ok hApis, bind_of_ok hSystem, bind_of_ok hComms,
    bind_of_ok hData]
  refine ⟨_, rfl, ?_⟩
  have hNodeMeta := length_flatMap_pair (List.range (max c.apiNodes.length c.numNodes))
    (fun i => keyWord int32Type 1 i.toUInt32)
    (fun i => sectWord (if i < c.apiNodes.length then 2 + i.toUInt32
       else c.commMetaSection + (c.commPairs versionNumber).length.toUInt32 + 1 +
        (i - c.apiNodes.length).toUInt32))
  have hCommMeta := length_flatMap_pair (List.range (c.commPairs versionNumber).length)
    (fun i => keyWord int32Type c.commMetaSection i.toUInt32)
    (fun i => sectWord (c.commMetaSection + i.toUInt32 + 1))
  rw [length_range] at hNodeMeta hCommMeta
  simp only [nodeMetaSection, commMeta, systemMeta, length_append, length_cons,
    length_nil, hApisLen, hSystemLen, hCommsLen, hDataLen, hNodeMeta, hCommMeta]

end

/-- The array is built, and it has the length that was computed before. -/
theorem getKeyValueSections_ok (hT : TableSendable T) (hc : c.Complete versionNumber) :
    ∃ ws, getKeyValueSections T c versionNumber true = .ok ws := by
  obtain ⟨nodeLen, commLen, systemLen, hs⟩ := exists_sectionLengths hT hc
  obtain ⟨rest, hRest, hLen⟩ := keyValueRest_spec hs
  have hNodes := sum_nodes c nodeLen
  have hApi := length_apiNodes_le c
  have hVer : (wordsOfBytes verString).length = 2 := by decide
  have hTotal : ∀ w : UInt32, (wordsOfBytes verString ++ sectionZero c ++ rest ++ [w]).length =
      2 + 6 + c.numNodes * 2 + (c.nodes.map nodeLen).sum +
        ((c.commPairs versionNumber).map commLen).sum + 2 + systemLen +
        (c.commPairs versionNumber).length * 2 + 1 := by
    intro w
    rw [length_append, length_append, length_append, hVer, hLen, hNodes,
      hc.numNodes_eq]
    simp only [sectionZero, length_cons, length_nil]
    omega
  unfold getKeyValueSections
  simp only [bind_of_ok (keyValueLen_eq hs), if_neg hc.connected, Bool.not_true,
    Bool.false_eq_true, if_false, bind_of_ok hRest, closeKeyValue, hTotal, if_true]
  exact ⟨_, rfl⟩

/-- What the array begins with. -/
theorem getKeyValueSections_words {callocOk : Bool} {ws : List UInt32}
    (h : getKeyValueSections T c versionNumber callocOk = .ok ws) :
    ∃ rest, ws = wordsOfBytes verString ++ (sectionZero c ++ rest) := by
  obtain ⟨len, -, h⟩ := bind_eq_ok.mp h
  split at h
  · cases h
  · split at h
    · cases h
    · obtain ⟨rest, -, h⟩ := bind_eq_ok.mp h
      unfold closeKeyValue at h
      split at h
      · cases h
        rw [append_assoc, append_assoc]
        exact ⟨_, rfl⟩
      · cases h

end IClaustron.Config
