import IClaustron.Config.Base64
import IClaustron.Config.KeyValue
import IClaustron.Config.Parameters
import IClaustron.Protocol.Messages

/-!
# Config.Translate — reading a cluster configuration from the network

Model of translate_config and analyse_key_value (api/ic_apic_conf_read_transl.ic). The
key-value pairs are read twice: pass 0 finds out how many nodes and communication
sections there are and where their sections begin, pass 1 checks the meta sections
and fills the configuration objects. A pass is a loop over the words behind the
verification string; the last word is the checksum, and the loop ends at it.

The object that ic_create_network_cluster_config makes of the words at the start of
analyse_key_value is not used and left out.

* `passZero_systemSection` — after pass 0 the system section is at least section 4;
* `stepOne_nodeMeta` — and then pass 1 stops at the key of the node meta section;
* `analyseKeyValue_sectionZero` — so no array with that key is accepted.
-/

namespace IClaustron.Config

open Lib Protocol Result

/-! ## Model -/

inductive DecodeError where
  /-- IC_PROTOCOL_ERROR -/
  | protocolError
  /-- IC_ERROR_MEM_ALLOC -/
  | memAlloc
  /-- memory outside of an array is used -/
  | outOfBounds
  deriving DecidableEq

/-- PROTOCOL_CHECK_GOTO and its relatives. -/
def protocolCheck (cond : Prop) [Decidable cond] : Except DecodeError Unit :=
  if cond then .ok () else .error .protocolError

/-- IC_CL_KEY_MASK, IC_CL_SECT_SHIFT with IC_CL_SECT_MASK, and IC_CL_KEY_SHIFT. -/
def hashKeyOf (key : UInt32) : UInt32 := key &&& 0x3FFF
def sectIdOf (key : UInt32) : UInt32 := (key >>> 14) &&& 0x3FFF
def keyTypeOf (key : UInt32) : UInt32 := key >>> 28

/-- The sections come in order and none is left out. -/
def checkSectId (expectedSectId sectId : UInt32) : Except DecodeError UInt32 :=
  if sectId ≠ expectedSectId then do
    protocolCheck (sectId = expectedSectId + 1)
    return expectedSectId + 1
  else .ok expectedSectId

/-! ### Pass 0 -/

/-- The variables of `analyse_key_value` and of the configuration object in pass 0. -/
structure PassZero where
  systemSection : UInt32 := 0
  firstCommSection : UInt32 := 0
  firstDataServerSection : UInt32 := 0
  numApis : UInt32 := 0
  first : Bool := true
  firstDataServer : Bool := true
  numNodes : UInt32 := 0
  numComms : UInt32
  maxNodeId : UInt32
  nodeTypes : List NodeType := []
  nodeIds : List UInt32 := []
  stringMemorySize : Nat

/-- Section 0. -/
def scanSectionZero (p : PassZero) (hashKey value : UInt32) : Except DecodeError PassZero :=
  if hashKey = 1000 then do
    let systemSection := value >>> 14
    protocolCheck (4 ≤ systemSection)
    return { p with systemSection := systemSection, numApis := systemSection - 2 }
  else if hashKey = 2000 then do
    protocolCheck (value = 16384)
    return p
  else if hashKey = 3000 then do
    let firstCommSection := (value >>> 14) + 1
    protocolCheck (p.systemSection + 3 = firstCommSection)
    return { p with firstCommSection := firstCommSection }
  else .ok p

/-- Section 1, the node meta section. -/
def scanNodeMeta (p : PassZero) (value : UInt32) : Except DecodeError PassZero := do
  protocolCheck (p.firstCommSection ≠ 0)
  protocolCheck (0 < p.numApis)
  let nodeSection := value >>> 14
  let p :=
    if p.firstCommSection ≤ nodeSection ∧ p.firstDataServer = true then
      { p with firstDataServer := false, firstDataServerSection := nodeSection,
               numComms := nodeSection - p.firstCommSection }
    else p
  return { p with numNodes := p.numNodes + 1 }

/-- The first key of section 2, with `allocate_mem_phase1`. -/
def scanSectionTwo (callocOk : Bool) (p : PassZero) : Except DecodeError PassZero := do
  protocolCheck (p.firstDataServer = false)
  if !callocOk then throw .memAlloc
  return { p with first := false, nodeTypes := List.replicate p.numNodes.toNat .notExist,
                  nodeIds := List.replicate p.numNodes.toNat 0 }

/-- `analyse_node_section_phase1`. -/
def analyseNodeSectionPhase1 (p : PassZero) (nodeIndex value hashKey : UInt32) :
    Except DecodeError PassZero :=
  if hashKey = icNodeType then
    match NodeType.ofCode (value + 1).toNat with
    | none => .error .protocolError
    | some t =>
      if nodeIndex.toNat < p.nodeTypes.length then
        .ok { p with nodeTypes := p.nodeTypes.set nodeIndex.toNat t }
      else .error .outOfBounds
  else if hashKey = icNodeId then
    if nodeIndex.toNat < p.nodeIds.length then
      .ok { p with nodeIds := p.nodeIds.set nodeIndex.toNat value,
                   maxNodeId := max value p.maxNodeId }
    else .error .outOfBounds
  else .ok p

/-- Sections 0 and 1 and the start of section 2. -/
def scanSection (callocOk : Bool) (p : PassZero) (sectId hashKey value : UInt32) :
    Except DecodeError PassZero :=
  if sectId = 0 then scanSectionZero p hashKey value
  else if sectId = 1 then scanNodeMeta p value
  else if sectId = 2 ∧ p.first = true then scanSectionTwo callocOk p
  else .ok p

/-- The sections of the nodes. -/
def scanNodeSection (p : PassZero) (sectId value hashKey : UInt32) : Except DecodeError PassZero :=
  if 2 ≤ sectId then
    if sectId < p.systemSection then analyseNodeSectionPhase1 p (sectId - 2) value hashKey
    else if p.firstDataServerSection ≤ sectId then
      analyseNodeSectionPhase1 p (p.numApis + (sectId - p.firstDataServerSection)) value hashKey
    else .ok p
  else .ok p

/-- The words of a value behind the pair. -/
def lenWords (value : UInt32) : Nat := ((value + 3) / 4).toNat

/-- `step_key_value`: the words to step over and the string memory they need. `rest` are
the words behind the pair, the checksum among them. -/
def stepKeyValue (keyType value : UInt32) (rest : List UInt32) : Except DecodeError (Nat × Nat) :=
  if keyType = int32Type ∨ keyType = sectType then .ok (0, 0)
  else if keyType = int64Type then .ok (1, 0)
  else if keyType = charType then do
    protocolCheck (lenWords value + 1 < rest.length)
    -- a string without a NUL byte in the rest of the array is longer than `value` too
    protocolCheck (value.toNat = (CString.read (bytesOfWords rest)).bytes.length + 1)
    return (lenWords value, value.toNat)
  else .error .protocolError

/-- A round of pass 0 for the pair `key`, `value`: the state after it and the words to
step over. -/
def stepZero (callocOk : Bool) (p : PassZero) (key value : UInt32) (rest : List UInt32) :
    Except DecodeError (PassZero × Nat) := do
  let sectId := sectIdOf key
  let hashKey := hashKeyOf key
  let p ← scanSection callocOk p sectId hashKey value
  let p ← scanNodeSection p sectId value hashKey
  let (skip, strLen) ← stepKeyValue (keyTypeOf key) value rest
  return ({ p with stringMemorySize := p.stringMemorySize + strLen }, skip)

/-- Pass 0, with the number of words that are still to be stepped over. -/
def passZero (callocOk : Bool) : Nat → UInt32 → PassZero → List UInt32 → Except DecodeError PassZero
  | 0, expectedSectId, p, key :: value :: rest => do
    let expectedSectId ← checkSectId expectedSectId (sectIdOf key)
    let (p, skip) ← stepZero callocOk p key value rest
    passZero callocOk skip expectedSectId p rest
  | skip + 1, expectedSectId, p, _ :: rest => passZero callocOk skip expectedSectId p rest
  | _, _, p, _ => .ok p

/-! ### Pass 1 -/

/-- The objects that pass 1 fills and the string memory it has used. -/
structure PassOne where
  nodeConfig : List ConfObject
  commConfig : List ConfObject
  sysConf : ConfObject
  nextStringMemory : Nat := 0

/-- `allocate_mem_phase2`. -/
def allocateMemPhase2 (T : ConfigTable) (mcCallocOk : Bool) (p : PassZero) (sysConf : ConfObject) :
    Except DecodeError PassOne :=
  if mcCallocOk then
    .ok { nodeConfig := p.nodeTypes.map fun t => initConfigObject T t.configType
          commConfig := List.replicate p.numComms.toNat (initConfigObject T .comm)
          sysConf := sysConf }
  else .error .memAlloc

/-- `assign_config_value_int`. -/
def assignConfigValueInt (e : ConfigEntry) (value : UInt64) (confType : ConfigType)
    (dataType : UInt32) (conf : ConfObject) : Except DecodeError ConfObject :=
  if e.isDeprecated || e.isNotConfigurable then .ok conf
  else if !e.configTypes.testBit confType.code || (e.isBoolean && decide (1 < value)) ||
      (e.minValue.any fun v => decide (value < v)) || (e.maxValue.any fun v => decide (v < value)) then
    .error .protocolError
  else if dataType = int32Type then
    match e.dataType with
    | .uint32 => .ok (conf.setNum e.configEntryName value.toUInt32.toUInt64)
    | .uint16 => .ok (conf.setNum e.configEntryName value.toUInt16.toUInt64)
    | .char | .boolean => .ok (conf.setNum e.configEntryName value.toUInt8.toUInt64)
    | _ => .error .protocolError
  else if dataType = int64Type then
    match e.dataType with
    | .uint64 => .ok (conf.setNum e.configEntryName value)
    | _ => .error .protocolError
  else .ok conf

/-- `assign_config_string`; `memory` are the bytes that are copied. -/
def assignConfigString (e : ConfigEntry) (confType : ConfigType) (memory : Bytes)
    (conf : ConfObject) : Except DecodeError ConfObject :=
  if !e.isStringType || !e.configTypes.testBit confType.code then .error .protocolError
  else .ok (conf.setStr e.configEntryName (some (CString.read memory)))

/-- What a call of `assign_config_value` leaves. -/
structure Assigned where
  conf : ConfObject
  skip : Nat
  strLen : Nat

/-- `assign_config_value`. -/
def assignConfigValue (e : ConfigEntry) (confType : ConfigType) (keyType : UInt32)
    (conf : ConfObject) (value : UInt32) (rest : List UInt32) : Except DecodeError Assigned :=
  if keyType = int32Type then do
    let conf ← assignConfigValueInt e value.toUInt64 confType keyType conf
    return ⟨conf, 0, 0⟩
  else if keyType = int64Type then
    match rest with
    | [] => .error .outOfBounds
    | lsbVal :: _ => do
      let longVal := lsbVal.toUInt64 + (value.toUInt64 <<< 32)
      let conf ← assignConfigValueInt e longVal confType keyType conf
      return ⟨conf, 1, 0⟩
  else if keyType = charType then
    if (bytesOfWords rest).length < value.toNat then .error .outOfBounds
    else do
      let conf ← assignConfigString e confType ((bytesOfWords rest).take value.toNat) conf
      return ⟨conf, lenWords value, value.toNat⟩
  else .error .protocolError

/-- `update_string_data`: the string memory that was allocated has room for the string. -/
def updateStringData (stringMemorySize : Nat) (o : PassOne) (strLen : Nat) :
    Except DecodeError PassOne :=
  if o.nextStringMemory + strLen ≤ stringMemorySize then
    .ok { o with nextStringMemory := o.nextStringMemory + strLen }
  else .error .outOfBounds

/-- `assign_system_section`. -/
def assignSystemSection (T : ConfigTable) (p : PassZero) (o : PassOne)
    (keyType value hashKey : UInt32) (rest : List UInt32) : Except DecodeError (PassOne × Nat) :=
  if hashKey = icParentId ∨ hashKey = icNodeType then .ok (o, 0)
  else match T.getConfEntry (hashKey.toNat + systemSectionAdjustment) with
    | none => .error .protocolError
    | some e =>
      if e.isDeprecated || e.isNotConfigurable then .ok (o, 0)
      else do
        let a ← assignConfigValue e .system keyType o.sysConf value rest
        let o ← updateStringData p.stringMemorySize o a.strLen
        return ({ o with sysConf := a.conf }, a.skip)

/-- `assign_node_section`. -/
def assignNodeSection (T : ConfigTable) (p : PassZero) (o : PassOne)
    (keyType value hashKey nodeSectId : UInt32) (rest : List UInt32) :
    Except DecodeError (PassOne × Nat) :=
  if hashKey = icParentId ∨ hashKey = icNodeType ∨ hashKey = icNodeId then .ok (o, 0)
  else match T.getConfEntry hashKey.toNat with
    | none => .error .protocolError
    | some e =>
      if e.isDeprecated || e.isNotConfigurable then .ok (o, 0)
      else if p.numNodes ≤ nodeSectId then .error .protocolError
      else match o.nodeConfig[nodeSectId.toNat]?, p.nodeTypes[nodeSectId.toNat]? with
        | some conf, some nodeType => do
          let a ← assignConfigValue e nodeType.configType keyType conf value rest
          let o ← updateStringData p.stringMemorySize o a.strLen
          return ({ o with nodeConfig := o.nodeConfig.set nodeSectId.toNat a.conf }, a.skip)
        | _, _ => .error .protocolError

/-- `assign_comm_section`. -/
def assignCommSection (T : ConfigTable) (p : PassZero) (o : PassOne)
    (keyType value hashKey commSectId : UInt32) (rest : List UInt32) :
    Except DecodeError (PassOne × Nat) :=
  if hashKey = icParentId ∨ hashKey = icNodeType then .ok (o, 0)
  else match T.getConfEntry hashKey.toNat with
    | none => .error .protocolError
    | some e =>
      if e.isDeprecated || e.isNotConfigurable then .ok (o, 0)
      else match o.commConfig[commSectId.toNat]? with
        | none => .error .outOfBounds
        | some conf => do
          let a ← assignConfigValue e .comm keyType conf value rest
          let o ← updateStringData p.stringMemorySize o a.strLen
          return ({ o with commConfig := o.commConfig.set commSectId.toNat a.conf }, a.skip)

/-- A round of pass 1. -/
def stepOne (T : ConfigTable) (p : PassZero) (o : PassOne) (key value : UInt32)
    (rest : List UInt32) : Except DecodeError (PassOne × Nat) :=
  let sectId := sectIdOf key
  let hashKey := hashKeyOf key
  let keyType := keyTypeOf key
  if sectId = 0 then do
    protocolCheck (hashKey = 1000 ∧ value = p.systemSection <<< 14 ∨
      hashKey = 2000 ∧ value = (p.systemSection + 1) <<< 14 ∨
      hashKey = 3000 ∧ value = (p.systemSection + 2) <<< 14)
    protocolCheck (keyType = sectType)
    return (o, 0)
  else if sectId = 1 then do
    protocolCheck (keyType = int32Type)
    protocolCheck (hashKey < p.numNodes)
    if hashKey < p.numApis then protocolCheck (value = (2 + hashKey) <<< 14)
    else protocolCheck (value = ((hashKey - p.numApis) + p.firstDataServerSection) <<< 14)
    return (o, 0)
  else if 2 ≤ sectId ∧ sectId < p.systemSection then
    assignNodeSection T p o keyType value hashKey (sectId - 2) rest
  else if sectId = p.systemSection then do
    protocolCheck (hashKey = 0 ∧ keyType = int32Type ∧ value = (p.systemSection + 1) <<< 14)
    return (o, 0)
  else if sectId = p.systemSection + 1 then assignSystemSection T p o keyType value hashKey rest
  else if sectId = p.systemSection + 2 then do
    protocolCheck (keyType = int32Type ∧ hashKey < p.numComms ∧
      p.firstCommSection + hashKey = value >>> 14)
    return (o, 0)
  else if sectId < p.firstDataServerSection then
    assignCommSection T p o keyType value hashKey (sectId - p.firstCommSection) rest
  else do
    let nodeSectId := p.numApis + (sectId - p.firstDataServerSection)
    protocolCheck (nodeSectId < p.numNodes)
    assignNodeSection T p o keyType value hashKey nodeSectId rest

/-- Pass 1. -/
def passOne (T : ConfigTable) (p : PassZero) :
    Nat → UInt32 → PassOne → List UInt32 → Except DecodeError PassOne
  | 0, expectedSectId, o, key :: value :: rest => do
    let expectedSectId ← checkSectId expectedSectId (sectIdOf key)
    let (o, skip) ← stepOne T p o key value rest
    passOne T p skip expectedSectId o rest
  | skip + 1, expectedSectId, o, _ :: rest => passOne T p skip expectedSectId o rest
  | _, _, o, _ => .ok o

/-! ### The configuration object -/

/-- The parts of the `IC_CLUSTER_CONFIG` of the receiver that are filled. -/
structure NetworkConfig where
  numNodes : Nat
  maxNodeId : UInt32
  nodeConfig : Nat → Option ConfObject
  nodeTypes : Nat → NodeType
  commConfig : List ConfObject
  sysConf : ConfObject

/-- The outcome of the memory allocations. -/
structure Memory where
  binBuf : Bool
  phase1 : Bool
  phase2 : Bool
  nodeArrays : Bool
  nodeName : Bool

/-- "node_" -/
def nodeNameStart : Bytes := [110, 111, 100, 101, 95]

/-- `ensure_node_name_set`. -/
def ensureNodeNameSet (nodeNameOk : Bool) (conf : ConfObject) : Except DecodeError ConfObject :=
  match conf.str "node_name" with
  | some _ => .ok conf
  | none =>
    if nodeNameOk then
      .ok (conf.setStr "node_name" (some (CString.read
        (nodeNameStart ++ guint64Str (conf.num "node_id").toUInt32.toNat))))
    else .error .memAlloc

/-- The loop of `arrange_node_arrays`. -/
def arrangeNodes (mem : Memory) : List (UInt32 × NodeType × ConfObject) → NetworkConfig →
    Except DecodeError NetworkConfig
  | [], n => .ok n
  | (nodeId, nodeType, conf) :: nodes, n =>
    if nodeId = 0 then arrangeNodes mem nodes n
    else do
      let conf ← ensureNodeNameSet mem.nodeName (conf.setNum "node_id" nodeId.toUInt64)
      arrangeNodes mem nodes
        { n with nodeTypes := Function.update n.nodeTypes nodeId.toNat nodeType
                 nodeConfig := Function.update n.nodeConfig nodeId.toNat (some conf) }

/-- `arrange_node_arrays`. -/
def arrangeNodeArrays (mem : Memory) (p : PassZero) (o : PassOne) :
    Except DecodeError NetworkConfig :=
  if mem.nodeArrays then
    arrangeNodes mem (p.nodeIds.zip (p.nodeTypes.zip o.nodeConfig))
      { numNodes := p.numNodes.toNat, maxNodeId := p.maxNodeId, nodeConfig := fun _ => none
        nodeTypes := fun _ => .notExist, commConfig := o.commConfig, sysConf := o.sysConf }
  else .error .memAlloc

/-- What `analyse_key_value` finds in the configuration object and in `apic->temp`. -/
structure Found where
  numComms : UInt32
  maxNodeId : UInt32
  sysConf : ConfObject
  stringMemorySize : Nat

/-- `analyse_key_value`. -/
def analyseKeyValue (T : ConfigTable) (mem : Memory) (found : Found) (keyValue : List UInt32) :
    Except DecodeError NetworkConfig := do
  let p ← passZero mem.phase1 0 0
    { numComms := found.numComms, maxNodeId := found.maxNodeId
      stringMemorySize := found.stringMemorySize } keyValue
  let o ← allocateMemPhase2 T mem.phase2 p found.sysConf
  let o ← passOne T p 0 0 o keyValue
  arrangeNodeArrays mem p o

/-- `translate_config`. -/
def translateConfig (T : ConfigTable) (mem : Memory) (found : Found) (configBuf : Bytes) :
    Except DecodeError NetworkConfig :=
  if mem.binBuf then
    match base64Decode (configBuf.length / 4 * 3) configBuf with
    | .error .malformed => .error .protocolError
    | .error .outOfBounds => .error .outOfBounds
    | .ok binBuf => do
      protocolCheck (binBuf.length % 4 = 0 ∧ 3 < binBuf.length / 4)
      protocolCheck (binBuf.take 8 = verString)
      protocolCheck (checksum (wordsOfBytes binBuf) = 0)
      analyseKeyValue T mem found ((wordsOfBytes binBuf).drop 2)
  else .error .memAlloc

/-! ## Pass 0 and the system section -/

theorem protocolCheck_eq_ok {cond : Prop} [Decidable cond] {u : Unit} :
    protocolCheck cond = .ok u ↔ cond := by
  unfold protocolCheck
  split
  · exact iff_of_true rfl ‹_›
  · exact iff_of_false (by simp) ‹_›

/-- A section number that pass 0 has accepted for the system meta section. -/
def PassZero.Accepted (p : PassZero) : Prop :=
  4 ≤ p.systemSection.toNat ∧ p.systemSection.toNat < 2 ^ 18

theorem toNat_shiftRight_lt (value : UInt32) : (value >>> 14).toNat < 2 ^ 18 := by
  have h : (value >>> 14).toNat = value.toNat / 2 ^ 14 := by
    rw [UInt32.toNat_shiftRight]
    exact Nat.shiftRight_eq_div_pow value.toNat 14
  have hv := value.toNat_lt
  omega

variable {p p' : PassZero} {hashKey value sectId nodeIndex key : UInt32} {rest : List UInt32}

theorem scanSectionZero_system (h : scanSectionZero p 1000 value = .ok p') : p'.Accepted := by
  rw [scanSectionZero, if_pos rfl] at h
  obtain ⟨u, hCheck, h⟩ := bind_eq_ok.mp h
  have hMin := UInt32.le_iff_toNat_le.mp (protocolCheck_eq_ok.mp hCheck)
  cases h
  exact ⟨hMin, toNat_shiftRight_lt value⟩

theorem scanSectionZero_accepted (h : scanSectionZero p hashKey value = .ok p')
    (hp : p.Accepted) : p'.Accepted := by
  by_cases h1000 : hashKey = 1000
  · subst h1000
    exact scanSectionZero_system h
  · rw [scanSectionZero, if_neg h1000] at h
    split at h
    · obtain ⟨u, -, h⟩ := bind_eq_ok.mp h
      cases h
      exact hp
    · split at h
      · obtain ⟨u, -, h⟩ := bind_eq_ok.mp h
        cases h
        exact hp
      · cases h
        exact hp

theorem scanNodeMeta_systemSection (h : scanNodeMeta p value = .ok p') :
    p'.systemSection = p.systemSection := by
  obtain ⟨u, -, h⟩ := bind_eq_ok.mp h
  obtain ⟨u, -, h⟩ := bind_eq_ok.mp h
  cases h
  split <;> rfl

variable {callocOk : Bool} {skip : Nat}

theorem scanSectionTwo_systemSection (h : scanSectionTwo callocOk p = .ok p') :
    p'.systemSection = p.systemSection := by
  obtain ⟨u, -, h⟩ := bind_eq_ok.mp h
  cases callocOk with
  | false => cases h
  | true =>
    cases h
    rfl

theorem analyseNodeSectionPhase1_systemSection
    (h : analyseNodeSectionPhase1 p nodeIndex value hashKey = .ok p') :
    p'.systemSection = p.systemSection := by
  unfold analyseNodeSectionPhase1 at h
  split at h
  · split at h
    · cases h
    · split at h
      · cases h
        rfl
      · cases h
  · split at h
    · split at h
      · cases h
        rfl
      · cases h
    · cases h
      rfl

theorem scanNodeSection_systemSection (h : scanNodeSection p sectId value hashKey = .ok p') :
    p'.systemSection = p.systemSection := by
  unfold scanNodeSection at h
  split at h
  · split at h
    · exact analyseNodeSectionPhase1_systemSection h
    · split at h
      · exact analyseNodeSectionPhase1_systemSection h
      · cases h
        rfl
  · cases h
    rfl

theorem scanSection_accepted (h : scanSection callocOk p sectId hashKey value = .ok p')
    (hp : p.Accepted) : p'.Accepted := by
  unfold scanSection at h
  unfold PassZero.Accepted at hp ⊢
  split at h
  · exact scanSectionZero_accepted h hp
  · split at h
    · rw [scanNodeMeta_systemSection h]
      exact hp
    · split at h
      · rw [scanSectionTwo_systemSection h]
        exact hp
      · cases h
        exact hp

theorem stepZero_cases (h : stepZero callocOk p key value rest = .ok (p', skip)) :
    ∃ q, scanSection callocOk p (sectIdOf key) (hashKeyOf key) value = .ok q ∧
      p'.systemSection = q.systemSection := by
  obtain ⟨q, hq, h⟩ := bind_eq_ok.mp h
  obtain ⟨r, hr, h⟩ := bind_eq_ok.mp h
  obtain ⟨⟨n, len⟩, -, h⟩ := bind_eq_ok.mp h
  have hNodes := scanNodeSection_systemSection hr
  cases h
  exact ⟨q, hq, hNodes⟩

theorem stepZero_accepted (h : stepZero callocOk p key value rest = .ok (p', skip))
    (hScan : ∀ q, scanSection callocOk p (sectIdOf key) (hashKeyOf key) value = .ok q →
      q.Accepted) : p'.Accepted := by
  obtain ⟨q, hq, hSystem⟩ := stepZero_cases h
  unfold PassZero.Accepted
  rw [hSystem]
  exact hScan q hq

theorem passZero_accepted (skip : Nat) (expectedSectId : UInt32) (p : PassZero)
    (keyValue : List UInt32) (h : passZero callocOk skip expectedSectId p keyValue = .ok p')
    (hp : p.Accepted) : p'.Accepted := by
  fun_induction passZero callocOk skip expectedSectId p keyValue with
  | case1 expectedSectId p key value rest ih =>
    obtain ⟨expected, -, h⟩ := bind_eq_ok.mp h
    obtain ⟨⟨q, skip⟩, hStep, h⟩ := bind_eq_ok.mp h
    exact ih _ _ _ h (stepZero_accepted hStep fun q hq => scanSection_accepted hq hp)
  | case2 skip expectedSectId p w rest ih => exact ih h hp
  | case3 skip expectedSectId p keyValue =>
    cases h
    exact hp

/-- The first pair of the array names the system meta section. -/
theorem passZero_systemSection
    (h : passZero callocOk 0 0 p (keyWord sectType 0 1000 :: value :: rest) = .ok p') :
    p'.Accepted := by
  obtain ⟨expected, -, h⟩ := bind_eq_ok.mp h
  obtain ⟨⟨q, skip⟩, hStep, h⟩ := bind_eq_ok.mp h
  refine passZero_accepted _ _ _ _ h (stepZero_accepted hStep ?_)
  intro q hq
  have hSect : sectIdOf (keyWord sectType 0 1000) = 0 := by decide
  have hKey : hashKeyOf (keyWord sectType 0 1000) = 1000 := by decide
  rw [hSect, hKey, scanSection, if_pos rfl] at hq
  exact scanSectionZero_system hq

/-! ## Pass 1 and the node meta section -/

/-- Pass 0 wants 16384 as the value of key 2000, and pass 1 a section behind that of the
system. -/
theorem PassZero.Accepted.ne (hp : p.Accepted) : sectWord 1 ≠ (p.systemSection + 1) <<< 14 := by
  intro h
  have hShift : ((p.systemSection + 1) <<< 14).toNat =
      (p.systemSection.toNat + 1) % 2 ^ 32 * 2 ^ 14 % 2 ^ 32 := by
    rw [UInt32.toNat_shiftLeft, UInt32.toNat_add]
    exact congrArg (· % 2 ^ 32) (Nat.shiftLeft_eq _ 14)
  have hOne : (sectWord 1).toNat = 2 ^ 14 := by decide
  have hEq := congrArg UInt32.toNat h
  rw [hOne, hShift] at hEq
  obtain ⟨hMin, hMax⟩ := hp
  omega

theorem stepOne_nodeMeta (T : ConfigTable) (hp : p.Accepted) (o : PassOne) :
    stepOne T p o (keyWord sectType 0 2000) (sectWord 1) rest = .error .protocolError := by
  have hSect : sectIdOf (keyWord sectType 0 2000) = 0 := by decide
  have hKey : hashKeyOf (keyWord sectType 0 2000) = 2000 := by decide
  have hFail : ¬(hashKeyOf (keyWord sectType 0 2000) = 1000 ∧ sectWord 1 = p.systemSection <<< 14 ∨
      hashKeyOf (keyWord sectType 0 2000) = 2000 ∧ sectWord 1 = (p.systemSection + 1) <<< 14 ∨
      hashKeyOf (keyWord sectType 0 2000) = 3000 ∧
        sectWord 1 = (p.systemSection + 2) <<< 14) := by
    rw [hKey]
    rintro (⟨h, -⟩ | ⟨-, h⟩ | ⟨h, -⟩)
    · exact absurd h (by decide)
    · exact hp.ne h
    · exact absurd h (by decide)
  unfold stepOne
  simp only [hSect, if_true, protocolCheck, if_neg hFail]
  rfl

/-- Behind a pair of section 0 the next pair follows at once. -/
theorem stepOne_sectionZero {T : ConfigTable} {o o' : PassOne} (hSect : sectIdOf key = 0)
    (h : stepOne T p o key value rest = .ok (o', skip)) : skip = 0 := by
  unfold stepOne at h
  simp only [hSect, if_true] at h
  obtain ⟨u, -, h⟩ := bind_eq_ok.mp h
  obtain ⟨u, -, h⟩ := bind_eq_ok.mp h
  cases h
  rfl

/-- Pass 1 does not get over section 0. -/
theorem passOne_sectionZero (T : ConfigTable) (hp : p.Accepted) (o o' : PassOne) (value : UInt32) :
    passOne T p 0 0 o
      (keyWord sectType 0 1000 :: value :: keyWord sectType 0 2000 :: sectWord 1 :: rest) ≠
      .ok o' := by
  intro h
  obtain ⟨expected, -, h⟩ := bind_eq_ok.mp h
  obtain ⟨⟨o₁, skip⟩, hStep, h⟩ := bind_eq_ok.mp h
  obtain rfl := stepOne_sectionZero (by decide) hStep
  obtain ⟨expected, -, h⟩ := bind_eq_ok.mp h
  obtain ⟨⟨o₂, skip⟩, hStep, -⟩ := bind_eq_ok.mp h
  rw [stepOne_nodeMeta T hp o₁] at hStep
  cases hStep

/-- No array that begins with the keys 1000 and 2000 of section 0 and gives section 1 as
the node meta section is accepted. -/
theorem analyseKeyValue_sectionZero (T : ConfigTable) (mem : Memory) (found : Found)
    (value : UInt32) (rest : List UInt32) (n : NetworkConfig) :
    analyseKeyValue T mem found
      (keyWord sectType 0 1000 :: value :: keyWord sectType 0 2000 :: sectWord 1 :: rest) ≠
      .ok n := by
  intro h
  obtain ⟨p, hZero, h⟩ := bind_eq_ok.mp h
  obtain ⟨o, -, h⟩ := bind_eq_ok.mp h
  obtain ⟨o', hOne, -⟩ := bind_eq_ok.mp h
  exact passOne_sectionZero T (passZero_systemSection hZero) o o' value hOne

end IClaustron.Config
