import IClaustron.Config.Parameters
import IClaustron.Config.Reader
import Mathlib.Data.UInt

/-!
# Config.ClusterReader — the configuration file of a cluster

Model of api/ic_apic_conf_reader.ic. The first reading of the file counts the sections and
the bytes of the strings; then the memory is taken, and the second reading fills it, each
section with the next piece of it. A write behind the end of what was taken, and the
use of a node that is not there, stop the program.

* `Load` — what the two readings have in common, with the sizes of the memory beside what
  has been used of it.
* `configServerOps` — the operations on it.

Scope limits: the layout of the structs, of which only the sizes count; the memory
containers, of which is only asked whether they have memory at each of the places where some
is taken; the texts that are printed.
-/

namespace IClaustron.Config.ClusterReader

open Lib Protocol

/-! ## The parameters by their names -/

/-- The calls of `init_config_parameters` that set `is_mandatory`, with `mandatory_bit`. -/
def mandatoryParameters : List (String × Nat) :=
  [("node_id", 0), ("hostname", 1), ("number_of_replicas", 2), ("data_server_checkpoint_path", 0),
   ("first_node_id", 3), ("second_node_id", 4), ("server_port_number", 5), ("server_node_id", 6)]

/-- The names of NDB without a letter in upper case. A key is in lower case, so that it cannot be
one of the others. -/
def ndbNames : List (String × String) :=
  [("__at_restart_skip_index", "__ignore_indexes_in_recovery"),
   ("__at_restart_skip_fks", "__ignore_foreign_keys_in_recovery"),
   ("__debug_mixology_level", "__variable_timing"),
   ("__sched_scan_priority", "rows_scanned_per_time"),
   ("__disk_data_format", "__file_format_disk")]

/-- The names of a parameter in `glob_conf_hash`. -/
def namesOf (e : ConfigEntry) : List Bytes :=
  if e.configEntryName = "" then []
  else
    ascii e.configEntryName ::
      (ndbNames.filter (·.2 = e.configEntryName)).map fun names => ascii names.1

/-- The search in `glob_conf_hash`. -/
def searchConfHash (name : Bytes) : Option ConfigEntry :=
  (initConfigParameters.map (·.entry)).find? fun e => (namesOf e).contains name

/-- `is_mandatory` with `mandatory_bit`. -/
def mandatoryBit (e : ConfigEntry) : Option Nat := mandatoryParameters.lookup e.configEntryName

/-- The mandatory parameters of the sections of one kind. -/
def mandatoryOf (t : ConfigType) : List Nat :=
  ((initConfigParameters.map (·.entry)).filter (·.configTypes.testBit t.code)).filterMap mandatoryBit

def bitMask (bit : Nat) : UInt64 := 1 <<< UInt64.ofNat bit

/-- `calculate_mandatory_bits`. -/
def mandatoryBits (t : ConfigType) : UInt64 :=
  (mandatoryOf t).foldl (fun bits bit => bits ||| bitMask bit) 0

/-- The member `mandatory_bits` of a struct. -/
def mandatoryBitsName : String := "mandatory_bits"

def nodeIdStr : Bytes := ascii "node_id"

/-! ## Sections -/

/-- The sections of a cluster by their names. -/
def sectionNames : List (Bytes × ConfigType) :=
  [(ascii "data server", .dataServer), (ascii "client", .client), (ascii "sql server", .sqlServer),
   (ascii "replication server", .repServer), (ascii "file server", .fileServer),
   (ascii "restore", .restore), (ascii "socket", .comm)]

/-- A section with the defaults of the sections of its kind has a name with this end. -/
def defaultStr : Bytes := ascii " default"

/-- The kind of a section. -/
def sectionType (name : Bytes) : Option ConfigType := sectionNames.lookup name

/-- The kind that a default section is for. -/
def defaultSectionType (name : Bytes) : Option ConfigType :=
  (sectionNames.find? fun section' => section'.1 ++ defaultStr = name).map (·.2)

/-! ## State -/

/-- A pointer to a struct of the configuration: one with defaults, or one in `struct_memory`. -/
inductive StructPtr where
  | default (t : ConfigType)
  | struct (k : Nat)
  deriving DecidableEq

/-- An entry of `node_config`: a node of the grid, or one of the cluster. -/
inductive NodePtr where
  | grid (conf : ConfObject)
  | own (ptr : StructPtr)

/-- A piece of memory that is used from its start on. -/
structure Chunk where
  size : Nat
  used : Nat
  deriving DecidableEq

/-- The places where memory is taken. -/
inductive MemoryUse where
  | tempContainer | clusterConfigLoad | clusterConfig
  | structMemory | nodeConfig | commConfig | stringMemory | nodeTypes
  | nodeName (k : Nat)
  | nodeDataPath (k : Nat)
  deriving DecidableEq

/-- The configuration of the grid, `first_data`. It has been read before, so that there is a node in
it, and a struct for each of its nodes. -/
structure Grid where
  maxNodeId : UInt32
  numNodes : UInt32
  nodeConfig : Nat → Option ConfObject
  nodeTypes : Nat → NodeType
  nonempty : maxNodeId ≠ 0
  typed : ∀ id, nodeTypes id ≠ .notExist → (nodeConfig id).isSome

/-- What the reading depends on besides the text. `stale` is what stands at the place of the local
variable `value` when the line is looked at. -/
structure Env where
  grid : Grid
  clusterName : CString
  sizeOf : ConfigType → Nat
  memory : MemoryUse → Bool
  stale : Pass → Nat → UInt64

/-- `IC_CLUSTER_CONFIG_LOAD` with the `IC_CLUSTER_CONFIG` that is built. `numSections` are
`num_data_servers`, `num_clients`, ... and `num_comms`; `nodeSlots` and `commSlots` are how many
places `node_config`, `node_types` and `comm_config` have. -/
structure Load where
  created : Bool := false
  freeClusterConfig : Bool := false
  numSections : ConfigType → UInt32 := fun _ => 0
  numNodes : UInt32 := 0
  maxNodeId : UInt32 := 0
  sizeStringMemory : UInt32 := 0
  numComments : UInt32 := 0
  currentNodeConfigType : ConfigType := .noConfig
  defaultSection : Bool := false
  currentNodeConfig : Option StructPtr := none
  totalNumComms : UInt32 := 0
  currentNumComms : Nat := 0
  structMemory : Chunk := ⟨0, 0⟩
  stringMemory : Chunk := ⟨0, 0⟩
  defaults : ConfigType → ConfObject := fun _ => .zero
  structs : Nat → ConfObject := fun _ => .zero
  numStructs : Nat := 0
  nodeSlots : Nat := 0
  commSlots : Nat := 0
  nodeConfig : Nat → Option NodePtr := fun _ => none
  nodeTypes : Nat → NodeType := fun _ => .notExist
  commConfig : Nat → Option StructPtr := fun _ => none

namespace Load

variable (s : Load)

/-- What a pointer points to. -/
def deref : StructPtr → ConfObject
  | .default t => s.defaults t
  | .struct k => s.structs k

def assign (ptr : StructPtr) (conf : ConfObject) : Load :=
  match ptr with
  | .default t => { s with defaults := Function.update s.defaults t conf }
  | .struct k => { s with structs := Function.update s.structs k conf }

/-- The struct of a node. -/
def node : NodePtr → ConfObject
  | .grid conf => conf
  | .own ptr => s.deref ptr

/-- A node that exists. -/
def nodeAt (id : Nat) : Option ConfObject :=
  if id < s.nodeSlots then (s.nodeConfig id).map s.node else none

end Load

/-- The number of the struct, which tells the memory that is taken for it apart. -/
def StructPtr.index : StructPtr → Nat
  | .default _ => 0
  | .struct k => k

/-- The value of a member that has none. -/
def setDefaultStr (conf : ConfObject) (name : String) (value : Option CString) : ConfObject :=
  if conf.str name = none then conf.setStr name value else conf

/-! ## The end of a section -/

section Operations

variable (env : Env)

/-- `get_config_entry_mandatory` finds a parameter. -/
def hasEntryMandatory (bit : Nat) (t : ConfigType) : Bool := (mandatoryOf t).contains bit

/-- The end of `complete_section` for a section that is not complete. -/
def mandatoryError (t : ConfigType) (missingBits : UInt64) : Attempt Load Nat Unit := fun s =>
  if (List.range 64).all fun i => !missingBits.toNat.testBit i || hasEntryMandatory i t then
    -- IC_ERROR_CONFIGURATION_ERROR
    .error 7118 s
  else .abort

/-- The name of a node without one. -/
def nodeNameOf (conf : ConfObject) : CString :=
  CString.read (ascii "node_" ++ guint64Str (conf.num "node_id").toNat)

/-- The path of a node without one. -/
def nodeDataPathOf (conf : ConfObject) : CString :=
  CString.read (ascii "/var/lib/iclaustron_data/ndb/" ++ env.clusterName.bytes ++ ascii "/" ++
    ((conf.str "node_name").elim [] (·.bytes)))

/-- `ensure_node_name_set`. -/
def ensureNodeNameSet (ptr : StructPtr) : Attempt Load Nat Unit := fun s =>
  let conf := s.deref ptr
  if conf.str "node_name" = none then
    if env.memory (.nodeName ptr.index) then
      .ok () (s.assign ptr (conf.setStr "node_name" (some (nodeNameOf conf))))
    else .error errorMemAlloc s
  else .ok () s

/-- `ensure_pcntrl_hostname_set`. -/
def ensurePcntrlHostnameSet (ptr : StructPtr) : Attempt Load Nat Unit :=
  Attempt.modify fun s =>
    s.assign ptr (setDefaultStr (s.deref ptr) "pcntrl_hostname" ((s.deref ptr).str "hostname"))

/-- `ensure_node_data_path_set`. -/
def ensureNodeDataPathSet (ptr : StructPtr) : Attempt Load Nat Unit := fun s =>
  let conf := s.deref ptr
  if conf.str "node_data_path" = none then
    if env.memory (.nodeDataPath ptr.index) then
      .ok () (s.assign ptr (conf.setStr "node_data_path" (some (nodeDataPathOf env conf))))
    else .error errorMemAlloc s
  else .ok () s

/-- The paths that only a data server has. -/
def ensureDataServerPathsSet (ptr : StructPtr) : Attempt Load Nat Unit :=
  Attempt.modify fun s =>
    let conf := setDefaultStr (s.deref ptr) "filesystem_path" ((s.deref ptr).str "node_data_path")
    s.assign ptr (setDefaultStr conf "data_server_checkpoint_path" (conf.str "filesystem_path"))

/-- One half of `ensure_hostnames_set`. -/
def ensureHostnameSet (ptr : StructPtr) (hostname nodeId : String) : Attempt Load Nat Unit := fun s =>
  let link := s.deref ptr
  if link.str hostname = none then
    match s.nodeAt (link.num nodeId).toNat with
    | some conf => .ok () (s.assign ptr (link.setStr hostname (conf.str "hostname")))
    | none => .abort
  else .ok () s

/-- `ensure_hostnames_set`. -/
def ensureHostnamesSet (ptr : StructPtr) : Attempt Load Nat Unit := do
  ensureHostnameSet ptr "first_hostname" "first_node_id"
  ensureHostnameSet ptr "second_hostname" "second_node_id"

/-- The entry of `comm_config` for a section that is complete. -/
def addComm (ptr : StructPtr) : Attempt Load Nat Unit := fun s =>
  if s.currentNumComms < s.commSlots then
    .ok () { s with commConfig := Function.update s.commConfig s.currentNumComms (some ptr),
                    currentNumComms := s.currentNumComms + 1 }
  else .abort

/-- What `complete_section` does for every node. -/
def ensureNodeSet (ptr : StructPtr) : Attempt Load Nat Unit := do
  ensureNodeNameSet env ptr
  ensurePcntrlHostnameSet ptr
  ensureNodeDataPathSet env ptr

/-- The mandatory parameters come first. -/
def ifComplete (ptr : StructPtr) (t : ConfigType) (mandatory : UInt64)
    (rest : Attempt Load Nat Unit) : Attempt Load Nat Unit := fun s =>
  let bits := (s.deref ptr).num mandatoryBitsName
  if bits ≠ mandatory then mandatoryError t (mandatory ^^^ bits) s else rest s

/-- `complete_section` for a section of one kind. -/
def completeStruct (ptr : StructPtr) : ConfigType → Attempt Load Nat Unit
  | .noConfig => pure ()
  | .dataServer =>
    ifComplete ptr .dataServer (mandatoryBits .dataServer) do
      ensureNodeSet env ptr
      ensureDataServerPathsSet ptr
  | .comm =>
    ifComplete ptr .comm (mandatoryBits .comm) do
      addComm ptr
      ensureHostnamesSet ptr
  | .system => fun _ => .abort
  | .shm => fun _ => .abort
  | t => ifComplete ptr t (mandatoryBits .client) (ensureNodeSet env ptr)

/-- `complete_section`. -/
def completeSection (pass : Pass) : Attempt Load Nat Unit := fun s =>
  if s.defaultSection ∨ pass = .initial ∨ s.currentNodeConfigType = .noConfig then .ok () s
  else
    match s.currentNodeConfig with
    | some ptr => completeStruct env ptr s.currentNodeConfigType s
    | none => .abort

/-! ## Sections and keys -/

/-- `init_node`. -/
def initNode (t : ConfigType) : Attempt Load Nat Unit := fun s =>
  if s.structMemory.used + env.sizeOf t ≤ s.structMemory.size then
    .ok () { s with
      currentNodeConfig := some (.struct s.numStructs)
      structMemory := { s.structMemory with used := s.structMemory.used + env.sizeOf t }
      structs := Function.update s.structs s.numStructs (s.defaults t)
      numStructs := s.numStructs + 1 }
  else .abort

/-- A section of the first reading is counted. -/
def countSection (t : ConfigType) (s : Load) : Load :=
  { s with
    numSections := Function.update s.numSections t (s.numSections t + 1)
    numNodes := if t = .comm then s.numNodes else s.numNodes + 1 }

/-- `conf_serv_add_section`. -/
def confServAddSection (pass : Pass) (_lineNumber : Nat) (name : Bytes) : Attempt Load Nat Unit := do
  completeSection env pass
  Attempt.modify fun s => { s with defaultSection := false }
  match sectionType name with
  | some t =>
    Attempt.modify fun s => { s with currentNodeConfigType := t }
    match pass with
    | .initial => Attempt.modify (countSection t)
    | .build => initNode env t
  | none =>
    Attempt.modify fun s => { s with defaultSection := true }
    match defaultSectionType name with
    | some t =>
      Attempt.modify fun s =>
        { s with currentNodeConfig := some (.default t), currentNodeConfigType := t }
    -- IC_ERROR_CONFIG_NO_SUCH_SECTION
    | none => Attempt.throw 7004

/-- The number that a value is; `value` keeps what was there for true and false. -/
def number (pass : Pass) (lineNumber : Nat) (data : Bytes) : Option UInt64 :=
  (convConfigStrToInt data).map (·.getD (env.stale pass lineNumber))

/-- A value that is within the bounds of a parameter and of its type. -/
def inBounds (e : ConfigEntry) (value : UInt64) : Bool :=
  (e.minValue.all fun least => least ≤ value) &&
    (e.maxValue.all fun most => value ≤ most) &&
    !(e.dataType = .uint16 && 65535 < value || e.dataType = .char && 255 < value ||
      e.dataType = .boolean && 1 < value || e.dataType = .uint32 && 2 ^ 32 ≤ value)

/-- The assignment to a member of the type of the parameter. -/
def assignNumber (e : ConfigEntry) (value : UInt64) (conf : ConfObject) : Option ConfObject :=
  match e.dataType with
  | .char | .boolean => some (conf.setNum e.configEntryName value.toUInt8.toUInt64)
  | .uint16 => some (conf.setNum e.configEntryName value.toUInt16.toUInt64)
  | .uint32 => some (conf.setNum e.configEntryName value.toUInt32.toUInt64)
  | .uint64 => some (conf.setNum e.configEntryName value)
  | _ => none

/-- A string goes to the string memory. -/
def addString (pass : Pass) (e : ConfigEntry) (data : Bytes) : Attempt Load Nat Unit := fun s =>
  match pass with
  | .initial => .ok () { s with sizeStringMemory := s.sizeStringMemory + (data.length + 1).toUInt32 }
  | .build =>
    if s.stringMemory.used + (data.length + 1) ≤ s.stringMemory.size then
      match s.currentNodeConfig with
      | some ptr =>
        .ok () { s.assign ptr ((s.deref ptr).setStr e.configEntryName (some (CString.read data))) with
          stringMemory := { s.stringMemory with used := s.stringMemory.used + (data.length + 1) } }
      | none => .abort
    else .abort

/-- The entry of `node_config` for a node id. -/
def addNodeId (pass : Pass) (value : UInt64) : Attempt Load Nat Unit := fun s =>
  let s := { s with maxNodeId := max value.toUInt32 s.maxNodeId }
  if s.defaultSection = false ∧ pass = .build then
    if value.toNat < s.nodeSlots then
      -- IC_ERROR_NODE_ALREADY_DEFINED
      if (s.nodeConfig value.toNat).isSome then .error 7028 s
      else
        .ok () { s with
          nodeConfig := Function.update s.nodeConfig value.toNat (s.currentNodeConfig.map .own)
          nodeTypes := Function.update s.nodeTypes value.toNat
            ((NodeType.ofCode s.currentNodeConfigType.code).getD .notExist) }
    else .abort
  else .ok () s

/-- The assignment at the end of `conf_serv_add_key`. -/
def assignCurrent (pass : Pass) (e : ConfigEntry) (value : UInt64) : Attempt Load Nat Unit := fun s =>
  match pass with
  | .initial => .ok () s
  | .build =>
    match s.currentNodeConfig with
    | some ptr =>
      match assignNumber e value (s.deref ptr) with
      | some conf => .ok () (s.assign ptr conf)
      | none => .abort
    | none => .abort

/-- A number that is no boolean value is refused with IC_ERROR_NO_BOOLEAN_VALUE. -/
def checkBoolean (e : ConfigEntry) (value : UInt64) : Attempt Load Nat Unit :=
  if e.isBoolean ∧ 1 < value then Attempt.throw 7012 else pure ()

/-- A number out of bounds is refused with IC_ERROR_CONFIG_VALUE_OUT_OF_BOUNDS. -/
def checkBounds (e : ConfigEntry) (value : UInt64) : Attempt Load Nat Unit :=
  if inBounds e value then pure () else Attempt.throw 7013

/-- One parameter is the id of the node. -/
def addIfNodeId (pass : Pass) (name : Bytes) (value : UInt64) : Attempt Load Nat Unit :=
  if name = nodeIdStr then addNodeId pass value else pure ()

/-- The part of `conf_serv_add_key` for numbers. -/
def addNumber (pass : Pass) (lineNumber : Nat) (name data : Bytes) (e : ConfigEntry) :
    Attempt Load Nat Unit :=
  match number env pass lineNumber data with
  -- IC_ERROR_WRONG_CONFIG_NUMBER
  | none => Attempt.throw 7011
  | some value => do
    checkBoolean e value
    addIfNodeId pass name value
    checkBounds e value
    assignCurrent pass e value

/-- A mandatory parameter is there. -/
def setMandatory (pass : Pass) (e : ConfigEntry) : Attempt Load Nat Unit := fun s =>
  match mandatoryBit e, pass with
  | some bit, .build =>
    match s.currentNodeConfig with
    | some ptr =>
      let conf := s.deref ptr
      .ok () (s.assign ptr (conf.setNum mandatoryBitsName (conf.num mandatoryBitsName ||| bitMask bit)))
    | none => .abort
  | _, _ => .ok () s

/-- `conf_serv_add_key`. -/
def confServAddKey (pass : Pass) (lineNumber : Nat) (name data : Bytes) : Attempt Load Nat Unit :=
  fun s =>
    -- IC_ERROR_NO_SECTION_DEFINED_YET
    if s.currentNodeConfigType = .noConfig then .error 7006 s
    else
      match searchConfHash name with
      -- IC_ERROR_NO_SUCH_CONFIG_KEY
      | none => .error 7007 s
      | some e =>
        -- IC_ERROR_CORRECT_CONFIG_IN_WRONG_SECTION
        if e.configTypes.testBit s.currentNodeConfigType.code = false then .error 7009 s
        else
          (do
            setMandatory pass e
            if e.isStringType then addString pass e data
            else addNumber env pass lineNumber name data e : Attempt Load Nat Unit) s

/-- `conf_serv_add_comment`. -/
def confServAddComment (pass : Pass) (_lineNumber : Nat) : Attempt Load Nat Unit :=
  Attempt.modify fun s => if pass = .initial then { s with numComments := s.numComments + 1 } else s

/-! ## The two passes -/

/-- `init_config_object` on the object with defaults; the kinds that have a client in them begin with
the defaults of a client. -/
def defaultObject (t : ConfigType) : ConfObject :=
  let entries := (List.range' 1 (maxConfigId - 1)).map globTable.globConfEntry
  (entries.filter fun e => e.configTypes.testBit t.code).foldl initConfigDefaultValue
    (if t = .sqlServer ∨ t = .repServer ∨ t = .fileServer ∨ t = .restore then
      initConfigObject globTable .client
    else .zero)

/-- The size of the nodes and of the communication sections, a 32-bit number. -/
def sizeStructs (s : Load) (totalNumComms : UInt32) : UInt32 :=
  ([.dataServer, .client, .sqlServer, .repServer, .fileServer, .restore] : List ConfigType).foldl
      (fun size t => size + s.numSections t * (env.sizeOf t).toUInt32) 0 +
    totalNumComms * (env.sizeOf .comm).toUInt32

/-- Memory is taken, or the action fails. -/
def takeMemory (use : MemoryUse) : Attempt Load Nat Unit := fun s =>
  if env.memory use then .ok () s else .error errorMemAlloc s

/-- The first part of `conf_serv_init`. -/
def initInitial : Attempt Load Nat Unit := do
  takeMemory env .tempContainer
  takeMemory env .clusterConfigLoad
  Attempt.modify fun _ => { created := true }
  takeMemory env .clusterConfig

/-- The nodes of a fully connected cluster have this many connections. -/
def fullyConnected (numNodes : UInt32) : UInt32 := (numNodes - 1) * numNodes / 2

/-- The sizes that follow from what has been counted. -/
def sizeMemory (s : Load) : Load :=
  let numNodes := s.numNodes + env.grid.numNodes
  let total := fullyConnected numNodes
  { s with
    numNodes := numNodes
    currentNodeConfigType := .noConfig
    totalNumComms := total
    structMemory := ⟨(sizeStructs env s total).toNat, 0⟩
    stringMemory := ⟨s.sizeStringMemory.toNat, 0⟩
    nodeSlots := s.maxNodeId.toNat + 1
    commSlots := total.toNat + 1 }

/-- The nodes of the grid are nodes of the cluster. -/
def copyGrid (s : Load) : Load :=
  { s with
    nodeConfig := fun id =>
      if id ≤ env.grid.maxNodeId.toNat then (env.grid.nodeConfig id).map .grid else s.nodeConfig id
    nodeTypes := fun id =>
      if id ≤ env.grid.maxNodeId.toNat then env.grid.nodeTypes id else s.nodeTypes id
    defaults := defaultObject }

/-- A cluster without nodes is refused with IC_ERROR_NO_NODES_FOUND. -/
def checkNodes : Attempt Load Nat Unit := fun s =>
  if s.maxNodeId = 0 then .error 7010 s else .ok () s

/-- The second part of `conf_serv_init`. -/
def initBuild : Attempt Load Nat Unit := do
  Attempt.modify fun s => { s with maxNodeId := max s.maxNodeId env.grid.maxNodeId }
  checkNodes
  Attempt.modify (sizeMemory env)
  takeMemory env .structMemory
  takeMemory env .nodeConfig
  takeMemory env .commConfig
  takeMemory env .stringMemory
  takeMemory env .nodeTypes
  Attempt.modify (copyGrid env)

/-- `conf_serv_init`. -/
def confServInit : Pass → Attempt Load Nat Unit
  | .initial => initInitial env
  | .build => initBuild env

/-! ## The check of the ports -/

/-- The port numbers and the host of a node, as far as the check has got. -/
structure HostPort where
  port1 : UInt32
  port2 : UInt32
  host : Option CString

/-- `cluster_server_port_number` and `cluster_manager_port_number`. -/
def serverPort (t : NodeType) (conf : ConfObject) : UInt32 :=
  match t with
  | .clusterServer => (conf.num "cluster_server_port_number").toUInt32
  | .clusterManager => (conf.num "cluster_manager_port_number").toUInt32
  | _ => 0

def hostPort (t : NodeType) (conf : ConfObject) : HostPort where
  port1 := (conf.num "port_number").toUInt32
  port2 := serverPort t conf
  host := conf.str "hostname"

/-- `get_port_number`. -/
def getPortNumber (comm : ConfObject) (firstNodeId : Nat) : UInt32 × UInt32 :=
  let server := (comm.num "server_port_number").toUInt32
  let client := (comm.num "client_port_number").toUInt32
  if firstNodeId = (comm.num "server_node_id").toNat then (server, client) else (client, server)

/-- `get_node_port_number`: a section for the two nodes is asked for their ports and for one of the
hosts. -/
def getNodePortNumber (firstId secondId : Nat) (first second : HostPort) :
    List ConfObject → HostPort × HostPort
  | [] => (first, second)
  | comm :: comms =>
    let ports := getPortNumber comm firstId
    if (comm.num "first_node_id").toNat = firstId then
      if (comm.num "second_node_id").toNat = secondId then
        ({ first with port1 := ports.1, host := comm.str "first_hostname" },
          { second with port1 := ports.2 })
      else getNodePortNumber firstId secondId first second comms
    else if (comm.num "second_node_id").toNat = firstId ∧
        (comm.num "first_node_id").toNat = secondId then
      ({ first with port1 := ports.1 },
        { second with port1 := ports.2, host := comm.str "second_hostname" })
    else getNodePortNumber firstId secondId first second comms

/-- Two nodes with a port in common. -/
def samePort (first second : HostPort) : Bool :=
  first.port1 = second.port1 && first.port1 != 0 || first.port1 = second.port2 && first.port1 != 0 ||
    first.port2 = second.port1 && first.port2 != 0 || first.port2 = second.port2 && first.port2 != 0

/-- The loop of `verify_hostname_port` over the second node; `none` when a host is missing. What a
section has said about the first node stays for the nodes that follow. -/
def verifySecond (node : Nat → Option (NodeType × ConfObject)) (comms : List ConfObject)
    (firstId : Nat) : HostPort → List Nat → Option Bool
  | _, [] => some true
  | first, secondId :: ids =>
    match node secondId with
    | none => verifySecond node comms firstId first ids
    | some (t, conf) =>
      let ends := getNodePortNumber firstId secondId first (hostPort t conf) comms
      match ends.1.host, ends.2.host with
      | some host, some host' =>
        if host = host' ∧ samePort ends.1 ends.2 then some false
        else verifySecond node comms firstId ends.1 ids
      | _, _ => none

/-- The loop of `verify_hostname_port` over the first node. -/
def verifyFirst (node : Nat → Option (NodeType × ConfObject)) (comms : List ConfObject) (last : Nat) :
    List Nat → Option Bool
  | [] => some true
  | firstId :: ids =>
    match node firstId with
    | none => verifyFirst node comms last ids
    | some (t, conf) =>
      if conf.str "hostname" = none then none
      else
        match verifySecond node comms firstId (hostPort t conf)
          (List.range' (firstId + 1) (last - firstId)) with
        | some true => verifyFirst node comms last ids
        | verdict => verdict

/-- `comm_config` up to `num_comms`; `none` when there is an empty place among them. -/
def Load.comms (s : Load) : Option (List ConfObject) :=
  (List.range (s.numSections .comm).toNat).mapM fun i => (s.commConfig i).map s.deref

/-- A node as the check finds it. -/
def Load.typedNode (s : Load) (id : Nat) : Option (NodeType × ConfObject) :=
  if s.nodeTypes id = .notExist then none else (s.nodeAt id).map (s.nodeTypes id, ·)

/-- `verify_hostname_port`: whether no two nodes have a host and a port in common, or `none` when it
looks at a place that is not there. -/
def verifyHostnamePort (s : Load) : Option Bool :=
  if s.maxNodeId.toNat < s.nodeSlots then
    match s.comms with
    | some comms =>
      verifyFirst s.typedNode comms s.maxNodeId.toNat (List.range (s.maxNodeId.toNat + 1))
    | none => none
  else none

/-- Two nodes with a port in common are refused with IC_ERROR_TWO_NODES_USING_SAME_HOST_PORT_PAIR. -/
def checkHostPorts : Attempt Load Nat Unit := fun s =>
  match verifyHostnamePort s with
  | some true => .ok () s
  | some false => .error 7089 s
  | none => .abort

/-- `conf_serv_verify_conf`. -/
def confServVerifyConf (pass : Pass) (_lineNumber : Nat) : Attempt Load Nat Unit := do
  completeSection env pass
  checkHostPorts

/-- `conf_serv_end` calls `ic_free_cluster_config` of the configuration. -/
def confServEnd : Attempt Load Nat Unit := fun s =>
  if s.created ∧ s.freeClusterConfig = false then .abort else .ok () s

/-- `config_server_ops`. -/
def configServerOps : ConfigOperations Load where
  configInit := confServInit env
  addSection := confServAddSection env
  addKey := confServAddKey env
  addComment := confServAddComment
  configVerify := confServVerifyConf env
  configEnd := confServEnd

end Operations

end IClaustron.Config.ClusterReader
