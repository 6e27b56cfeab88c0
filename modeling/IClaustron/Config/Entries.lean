import IClaustron.Protocol.Connection
import Mathlib.Data.List.TakeWhile

/-!
# Config.Entries — configuration parameters and configuration objects

Model of IC_CONFIG_ENTRY (api/ic_apic_int.h) with the macros that fill it, and of
is_entry_used_in_version, init_config_object (api/ic_apic_conf_param.ic) and
get_conf_entry (api/ic_apic_conf_read_transl.ic). The parameters are in a table of
MAX_CONFIG_ID entries that is indexed by a small number of the code's own; the
protocol names a parameter by its configuration id, and two maps lead from one to
the other. `ConfigTable` is such a table with its maps, and what is modelled
on top of it takes the table as a parameter.

The object of a node, of a communication section or of the system is a C struct. An
entry names the member it describes; a member is a number or a pointer to a string.
-/

namespace IClaustron.Config

open Protocol

/-! ## Kinds of sections -/

/-- `IC_CONFIG_TYPES`. -/
inductive ConfigType where
  | noConfig | dataServer | client | clusterServer | sqlServer | comm | repServer | fileServer
  | restore | clusterManager | system | shm
  deriving DecidableEq

/-- The number of a kind, as the source declares it. -/
def ConfigType.code : ConfigType → Nat
  | .noConfig => 0
  | .dataServer => 1
  | .client => 2
  | .clusterServer => 3
  | .sqlServer => 4
  | .comm => 5
  | .repServer => 6
  | .fileServer => 7
  | .restore => 8
  | .clusterManager => 9
  | .system => 10
  | .shm => 11

/-- `IC_NODE_TYPES`. -/
inductive NodeType where
  | notExist | dataServer | client | clusterServer | sqlServer | repServer | fileServer
  | restore | clusterManager
  deriving DecidableEq

/-- The cast of `IC_NODE_TYPES` to `IC_CONFIG_TYPES`. -/
def NodeType.configType : NodeType → ConfigType
  | .notExist => .noConfig
  | .dataServer => .dataServer
  | .client => .client
  | .clusterServer => .clusterServer
  | .sqlServer => .sqlServer
  | .repServer => .repServer
  | .fileServer => .fileServer
  | .restore => .restore
  | .clusterManager => .clusterManager

/-- The node type with a number other than 0. -/
def NodeType.ofCode : Nat → Option NodeType
  | 1 => some .dataServer
  | 2 => some .client
  | 3 => some .clusterServer
  | 4 => some .sqlServer
  | 6 => some .repServer
  | 7 => some .fileServer
  | 8 => some .restore
  | 9 => some .clusterManager
  | _ => none

/-! ## Configuration objects -/

/-- The bytes of a C string before its NUL byte. -/
structure CString where
  bytes : Bytes
  noNul : (0 : UInt8) ∉ bytes
  deriving DecidableEq

/-- `ic_empty_string`. -/
def CString.empty : CString := ⟨[], List.not_mem_nil⟩

/-- The string that begins at the start of a memory. -/
def CString.read (memory : Bytes) : CString where
  bytes := memory.takeWhile (· ≠ 0)
  noNul h := by simpa using List.mem_takeWhile_imp h

/-- The members of a configuration object, by their names. -/
structure ConfObject where
  num : String → UInt64
  str : String → Option CString

/-- An object that is filled with zeros. -/
def ConfObject.zero : ConfObject := ⟨fun _ => 0, fun _ => none⟩

def ConfObject.setNum (conf : ConfObject) (name : String) (value : UInt64) : ConfObject :=
  { conf with num := fun n => if n = name then value else conf.num n }

def ConfObject.setStr (conf : ConfObject) (name : String) (value : Option CString) : ConfObject :=
  { conf with str := fun n => if n = name then value else conf.str n }

/-! ## Entries -/

/-- `IC_CONFIG_DATA_TYPE`. -/
inductive DataType where
  | noSuchConfigDataType | uint32 | charptr | sectionType | uint64 | char | boolean | uint16
  | enum | bitmask
  deriving DecidableEq

/-- `IC_CONFIG_ENTRY`. A limit is `none` when `is_min_value_defined` or
`is_max_value_defined` is not set. -/
structure ConfigEntry where
  configEntryName : String := ""
  dataType : DataType := .noSuchConfigDataType
  defaultValue : UInt64 := 0
  defaultString : Option CString := none
  minValue : Option UInt64 := none
  maxValue : Option UInt64 := none
  configTypes : Nat := 0
  minIcVersionUsed : Nat := 0
  maxIcVersionUsed : Nat := 0
  minNdbVersionUsed : Nat := 0
  maxNdbVersionUsed : Nat := 0
  isBoolean : Bool := false
  isStringType : Bool := false
  isDeprecated : Bool := false
  isNotConfigurable : Bool := false
  isOnlyIclaustron : Bool := false
  isNotSent : Bool := false

/-- The mask of one kind of sections. -/
def ConfigType.mask (t : ConfigType) : Nat := 2 ^ t.code

/-- ALL_CLIENT_TYPES. -/
def allClientTypes : Nat :=
  ConfigType.clusterServer.mask + ConfigType.client.mask + ConfigType.clusterManager.mask +
    ConfigType.sqlServer.mask + ConfigType.repServer.mask + ConfigType.fileServer.mask +
    ConfigType.restore.mask

/-- ALL_NODE_TYPES. -/
def allNodeTypes : Nat := allClientTypes + ConfigType.dataServer.mask

namespace ConfigEntry

/-! The macros `IC_SET_..._CONFIG`, `IC_SET_..._BOOLEAN` and `IC_SET_..._STRING`. -/

def setConfig (t : ConfigType) (name : String) (type : DataType) (val : UInt64) : ConfigEntry :=
  { configEntryName := name, dataType := type, defaultValue := val, configTypes := t.mask }

def setBoolean (t : ConfigType) (name : String) (val : UInt64) : ConfigEntry :=
  { configEntryName := name, dataType := .boolean, isBoolean := true, defaultValue := val,
    configTypes := t.mask }

def setString (t : ConfigType) (name : String) : ConfigEntry :=
  { configEntryName := name, dataType := .charptr, isStringType := true, configTypes := t.mask }

/-- An entry of which only `is_deprecated` is set. -/
def deprecated : ConfigEntry := { isDeprecated := true }

/-- IC_SET_CONFIG_MIN. -/
def min (e : ConfigEntry) (v : UInt64) : ConfigEntry := { e with minValue := some v }

/-- IC_SET_CONFIG_MAX. -/
def max (e : ConfigEntry) (v : UInt64) : ConfigEntry := { e with maxValue := some v }

/-- IC_SET_CONFIG_MIN_MAX. -/
def minMax (e : ConfigEntry) (v w : UInt64) : ConfigEntry :=
  { e with minValue := some v, maxValue := some w,
           isNotConfigurable := e.isNotConfigurable || v == w }

def types (e : ConfigEntry) (mask : Nat) : ConfigEntry := { e with configTypes := mask }
def defaultStr (e : ConfigEntry) (s : CString) : ConfigEntry := { e with defaultString := some s }
def onlyIclaustron (e : ConfigEntry) : ConfigEntry := { e with isOnlyIclaustron := true }
def notSent (e : ConfigEntry) : ConfigEntry := { e with isNotSent := true }
def minNdbVersion (e : ConfigEntry) (v : Nat) : ConfigEntry := { e with minNdbVersionUsed := v }
def maxNdbVersion (e : ConfigEntry) (v : Nat) : ConfigEntry := { e with maxNdbVersionUsed := v }

end ConfigEntry

/-- `is_entry_used_in_version`. -/
def isEntryUsedInVersion (e : ConfigEntry) (versionNum : UInt64) : Bool :=
  let icVersionNum := (versionNum >>> 32).toNat
  let ndbVersionNum := versionNum.toNat % 2 ^ 32
  if icVersionNum = 0 ∧ e.isOnlyIclaustron = true then false
  else if e.minNdbVersionUsed > ndbVersionNum ∨
      e.maxNdbVersionUsed ≠ 0 ∧ e.maxNdbVersionUsed < ndbVersionNum then false
  else if e.minIcVersionUsed > icVersionNum ∨
      e.maxIcVersionUsed ≠ 0 ∧ e.maxIcVersionUsed < icVersionNum then false
  else true

/-! ## The table -/

/-- MAX_CONFIG_ID. -/
def maxConfigId : Nat := 329
/-- MAX_MAP_CONFIG_ID. -/
def maxMapConfigId : Nat := 1024

/-- `glob_conf_entry` with the maps `map_config_id_to_inx` and `map_inx_to_config_id`;
what has not been set is zero. -/
structure ConfigTable where
  globConfEntry : Nat → ConfigEntry
  mapConfigIdToInx : Nat → Nat
  mapInxToConfigId : Nat → Nat

/-- `get_conf_entry`. -/
def ConfigTable.getConfEntry (T : ConfigTable) (hashKey : Nat) : Option ConfigEntry :=
  if hashKey < maxMapConfigId then
    let id := T.mapConfigIdToInx hashKey
    if id < maxConfigId ∧ id ≠ 0 then some (T.globConfEntry id) else none
  else none

/-- `init_config_default_value`; a data type it does not know aborts the program, the
object is left as it is here. -/
def initConfigDefaultValue (conf : ConfObject) (e : ConfigEntry) : ConfObject :=
  match e.dataType with
  | .charptr | .enum => conf.setStr e.configEntryName e.defaultString
  | .uint16 => conf.setNum e.configEntryName e.defaultValue.toUInt16.toUInt64
  | .boolean => conf.setNum e.configEntryName e.defaultValue.toUInt8.toUInt64
  | .uint32 => conf.setNum e.configEntryName e.defaultValue.toUInt32.toUInt64
  | .uint64 => conf.setNum e.configEntryName e.defaultValue
  | _ => conf

/-- `init_config_object` on an object that is filled with zeros. -/
def initConfigObject (T : ConfigTable) (t : ConfigType) : ConfObject :=
  let entries := (List.range' 1 (maxConfigId - 1)).map T.globConfEntry
  (entries.filter fun e => e.configTypes.testBit t.code).foldl initConfigDefaultValue ConfObject.zero

end IClaustron.Config
