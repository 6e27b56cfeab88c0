import IClaustron.Config.Translate

/-!
# Config.NetworkRoundTrip — a configuration on its way to a client

The cluster server encodes the configuration of a cluster as key-value sections and
sends the base64 text of them (ic_get_base64_config, send_get_config_reply); the client
puts the lines of the text together and translates it (rec_get_config_reply,
translate_config).

The text arrives unchanged and the words of the sections are read from it again, but
the two passes of analyse_key_value do not agree about section 0: pass 0 wants section 1
as the node meta section, which is what the encoder writes, and pass 1 wants the
section behind that of the system.

* `translateConfig_sections` — the words that pass 0 and pass 1 get are those of the encoder;
* `config_not_received` — no configuration gets through.
-/

namespace IClaustron.Config

open Lib Protocol

/-! ## Server and client -/

section

variable (T : ConfigTable)

/-- `ic_get_base64_config`. -/
def getBase64Config (c : ClusterConfig) (versionNumber : UInt64) (callocOk : Bool) :
    Except EncodeError Bytes := do
  let keyValueArray ← getKeyValueSections T c versionNumber callocOk
  return base64Encode (bytesOfWords keyValueArray)

/-- The client gets the lines of the text that `send_get_config_reply` sends. -/
def recGetConfigReply (mem : Memory) (found : Found) (text : Bytes) :
    Except DecodeError NetworkConfig :=
  match recConfig text.length [] 0 (complete carriageReturn text) with
  | none => .error .protocolError
  | some configBuf => translateConfig T mem found configBuf

/-! ## Equal configurations -/

/-- Two objects agree in the member of an entry, as far as its data type goes. -/
def SameValue (e : ConfigEntry) (conf conf' : ConfObject) : Prop :=
  match e.dataType with
  | .charptr | .enum => conf.strBytes e.configEntryName = conf'.strBytes e.configEntryName
  | .boolean | .char =>
    (conf.num e.configEntryName).toUInt8 = (conf'.num e.configEntryName).toUInt8
  | .uint16 => (conf.num e.configEntryName).toUInt16 = (conf'.num e.configEntryName).toUInt16
  | .uint32 => (conf.num e.configEntryName).toUInt32 = (conf'.num e.configEntryName).toUInt32
  | _ => conf.num e.configEntryName = conf'.num e.configEntryName

/-- Two objects agree in everything that is sent in a section. -/
def SameSection (configType : ConfigType) (versionNumber : UInt64) (conf conf' : ConfObject) :
    Prop :=
  ∀ i ∈ sentEntries T configType versionNumber, SameValue (T.globConfEntry i) conf conf'

/-- The nodes, their types and parameters and the communication sections are the same. -/
structure SameConfig (versionNumber : UInt64) (c : ClusterConfig) (n : NetworkConfig) : Prop where
  nodes : ∀ id, id ∈ c.nodes ↔ (n.nodeConfig id).isSome
  types : ∀ id ∈ c.nodes, n.nodeTypes id = c.nodeTypes id
  params : ∀ id ∈ c.nodes, ∀ conf, n.nodeConfig id = some conf →
    SameSection T (c.nodeTypes id).configType versionNumber (c.nodeObject id) conf
  comms : List.Forall₂ (fun pair conf' => ∃ conf, getCommSection c pair.1 pair.2 = .ok conf ∧
    SameSection T .comm versionNumber conf conf') (c.commPairs versionNumber) n.commConfig

/-- The configuration is sent, received and the same. -/
def RoundTrips (versionNumber : UInt64) (callocOk : Bool) (mem : Memory) (found : Found)
    (c : ClusterConfig) : Prop :=
  ∃ text n, getBase64Config T c versionNumber callocOk = .ok text ∧
    recGetConfigReply T mem found text = .ok n ∧ SameConfig T versionNumber c n

end

/-! ## What arrives -/

variable {T : ConfigTable} {c : ClusterConfig} {versionNumber : UInt64}

theorem recGetConfigReply_encode {bytes : Bytes} (h : bytes ≠ []) (mem : Memory) (found : Found) :
    recGetConfigReply T mem found (base64Encode bytes) =
      translateConfig T mem found (quads bytes) := by
  unfold recGetConfigReply
  rw [recConfig_encode h]

/-- A translation that succeeds has analysed the words that were encoded. -/
theorem translateConfig_sections {ws : List UInt32} {mem : Memory} {found : Found}
    {n : NetworkConfig} (h : translateConfig T mem found (quads (bytesOfWords ws)) = .ok n) :
    analyseKeyValue T mem found (ws.drop 2) = .ok n := by
  have hRoom : ((bytesOfWords ws).length + 2) / 3 * 3 ≤
      (quads (bytesOfWords ws)).length / 4 * 3 := by
    rw [length_quads]
    omega
  unfold translateConfig at h
  rw [base64Decode_quads hRoom] at h
  split at h
  · obtain ⟨u, -, h⟩ := Result.bind_eq_ok.mp h
    obtain ⟨u, -, h⟩ := Result.bind_eq_ok.mp h
    obtain ⟨u, -, h⟩ := Result.bind_eq_ok.mp h
    rw [wordsOfBytes_bytesOfWords] at h
    exact h
  · cases h

theorem not_received {ws : List UInt32} {callocOk : Bool}
    (h : getKeyValueSections T c versionNumber callocOk = .ok ws) (mem : Memory) (found : Found)
    (n : NetworkConfig) :
    recGetConfigReply T mem found (base64Encode (bytesOfWords ws)) ≠ .ok n := by
  intro hReceived
  obtain ⟨rest, hWords⟩ := getKeyValueSections_words h
  have hne : bytesOfWords ws ≠ [] := by
    rw [hWords]
    exact List.cons_ne_nil _ _
  rw [recGetConfigReply_encode hne] at hReceived
  have hAnalysed := translateConfig_sections hReceived
  rw [hWords] at hAnalysed
  exact analyseKeyValue_sectionZero T mem found _ _ n hAnalysed

/-- A round trip is a reply that was received. -/
theorem RoundTrips.received {callocOk : Bool} {mem : Memory} {found : Found}
    (h : RoundTrips T versionNumber callocOk mem found c) :
    ∃ ws n, getKeyValueSections T c versionNumber callocOk = .ok ws ∧
      recGetConfigReply T mem found (base64Encode (bytesOfWords ws)) = .ok n := by
  obtain ⟨text, n, hText, hReceived, -⟩ := h
  obtain ⟨ws, hSections, hText⟩ := Result.bind_eq_ok.mp hText
  cases hText
  exact ⟨ws, n, hSections, hReceived⟩

/-- No configuration that is sent is received, whatever the parameters, the version and
the state of the client are. -/
theorem config_not_received (T : ConfigTable) (versionNumber : UInt64) (callocOk : Bool)
    (mem : Memory) (found : Found) (c : ClusterConfig) :
    ¬RoundTrips T versionNumber callocOk mem found c := by
  intro h
  obtain ⟨ws, n, hSections, hReceived⟩ := h.received
  exact not_received hSections mem found n hReceived

/-! ## A cluster of three nodes -/

theorem globTable_sendable : TableSendable globTable := by
  have hRows : ∀ p ∈ initConfigParameters, p.entry.configTypes ≠ 0 → p.entry.dataType.Sendable := by
    decide +kernel
  intro i hi
  simp only [globTable] at hi ⊢
  cases hFind : initConfigParameters.find? (·.inx = i) with
  | none =>
    rw [hFind] at hi
    exact absurd rfl hi
  | some p =>
    rw [hFind] at hi
    exact hRows p (List.mem_of_find?_eq_some hFind) hi

/-- A member that holds a string. -/
def hostname (bytes : Bytes) : Option CString := some (CString.read bytes)

/-- The object of a node with its node id, its host name and, for a data server, one
replica; the other parameters have their default values. -/
def nodeOf (nodeType : NodeType) (nodeId : UInt64) (host : Bytes) : ConfObject :=
  (((((initConfigObject globTable nodeType.configType).setNum "node_id" nodeId).setStr "hostname"
    (hostname host)).setStr "pcntrl_hostname" (hostname host)).setStr "node_name"
    (hostname (nodeNameStart ++ guint64Str nodeId.toNat))).setNum "number_of_replicas" 1

/-- The communication section that is made for a pair of nodes. -/
def commOf (first second server : UInt64) (firstHost secondHost : Bytes) : ConfObject :=
  (((((initConfigObject globTable .comm).setNum "first_node_id" first).setNum "second_node_id"
    second).setNum "server_node_id" server).setStr "first_hostname" (hostname firstHost)).setStr
    "second_hostname" (hostname secondHost)

/-- A data server on host "a", a cluster server on host "b" and a client on host "c". -/
def threeNodes : ClusterConfig where
  numNodes := 3
  maxNodeId := 3
  nodeConfig
    | 1 => some (nodeOf .dataServer 1 [97])
    | 2 => some (nodeOf .clusterServer 2 [98])
    | 3 => some (nodeOf .client 3 [99])
    | _ => none
  nodeTypes
    | 1 => .dataServer
    | 2 => .clusterServer
    | 3 => .client
    | _ => .notExist
  commHash := [commOf 2 3 2 [98] [99], commOf 1 3 1 [97] [99], commOf 1 2 2 [97] [98]]
  sysConf := initConfigObject globTable .system

/-- `get_iclaustron_protocol_version` of a client that uses an iClaustron cluster server. -/
def iclaustronProtocolVersion : UInt64 := 0x1180014

theorem commOf_firstNodeId (first second server : UInt64) (firstHost secondHost : Bytes) :
    (commOf first second server firstHost secondHost).firstNodeId = first.toUInt32 := by
  simp [commOf, ConfObject.firstNodeId, ConfObject.setNum, ConfObject.setStr]

theorem commOf_secondNodeId (first second server : UInt64) (firstHost secondHost : Bytes) :
    (commOf first second server firstHost secondHost).secondNodeId = second.toUInt32 := by
  simp [commOf, ConfObject.secondNodeId, ConfObject.setNum, ConfObject.setStr]

theorem getCommSection_of_mem {node1 node2 : Nat} {conf : ConfObject} (h : conf ∈ c.commHash)
    (hEqual : commEqual node1.toUInt32 node2.toUInt32 conf = true) :
    ∃ conf, getCommSection c node1 node2 = .ok conf := by
  unfold getCommSection
  cases hFind : c.commHash.find? (commEqual node1.toUInt32 node2.toUInt32) with
  | some conf' => exact ⟨conf', rfl⟩
  | none => exact absurd hEqual (List.find?_eq_none.mp hFind conf h)

theorem threeNodes_complete : threeNodes.Complete iclaustronProtocolVersion where
  numNodes_eq := by decide
  comms := by
    have hPairs : threeNodes.commPairs iclaustronProtocolVersion = [(1, 2), (1, 3), (2, 3)] := by
      decide
    have hEqual : ∀ first second server firstHost secondHost,
        commEqual first.toUInt32 second.toUInt32
          (commOf first second server firstHost secondHost) = true := by
      intro first second server firstHost secondHost
      simp [commEqual, commOf_firstNodeId, commOf_secondNodeId]
    intro p hp
    rw [hPairs] at hp
    simp only [List.mem_cons, List.not_mem_nil, or_false] at hp
    rcases hp with rfl | rfl | rfl
    · exact getCommSection_of_mem (.tail _ (.tail _ (.head _))) (hEqual 1 2 2 [97] [98])
    · exact getCommSection_of_mem (.tail _ (.head _)) (hEqual 1 3 1 [97] [99])
    · exact getCommSection_of_mem (.head _) (hEqual 2 3 2 [98] [99])
  connected := by decide

/-- Memory is not short. -/
def enoughMemory : Memory := ⟨true, true, true, true, true⟩

/-- The configuration object of a client before the first configuration comes. -/
def nothingFound : Found := ⟨0, 0, ConfObject.zero, 0⟩

/-- The sections of the three nodes are sent, and the client does not accept them. -/
theorem threeNodes_not_received :
    (∃ text, getBase64Config globTable threeNodes iclaustronProtocolVersion true = .ok text) ∧
      ¬RoundTrips globTable iclaustronProtocolVersion true enoughMemory nothingFound
        threeNodes := by
  obtain ⟨ws, hSections⟩ := getKeyValueSections_ok globTable_sendable threeNodes_complete
  constructor
  · exact ⟨_, Result.bind_eq_ok.mpr ⟨ws, hSections, rfl⟩⟩
  · intro h
    obtain ⟨ws, n, hSections, hReceived⟩ := h.received
    exact not_received hSections enoughMemory nothingFound n hReceived

end IClaustron.Config
