import IClaustron.Lib.CString
import IClaustron.Lib.Run
import IClaustron.Lib.Search
import IClaustron.MemContainer.Container
import IClaustron.Protocol.Messages
import Mathlib.Data.List.Pairwise

/-!
# Bootstrap.PrepareTables — the nodes that are prepared

Model of the prepare commands of the bootstrap program: the actions of the grammar in
bootstrap/ic_boot_parser.y, and the checks of ic_prepare_*_cmd and execute_command in
bootstrap/ic_bootstrap.c. The names in a command are copied into a memory container that is
reset behind the command; its first buffer is kept, and the names of the next command are
written to it again.

* `right_iff` — the tables are right all along exactly if no table but the first two is full
  when its command comes, and the nodes have the same names and numbers below 2^32.
* `second_host_lost` — two cluster servers on different hosts.

Scope limits: memory is there, and what is printed is left out. A command is one that has been
parsed to its end: one that the parser refuses after its action has run is not one. An index is
a number without an upper bound, since it never passes the size of its table by more than one.
-/

namespace IClaustron.Bootstrap.PrepareTables

open Lib Protocol MemContainer List

/-! ## Model -/

/-- The tables `cs_data`, `mgr_data`, `ds_data`, `fs_data`, `rep_data` and `sql_data`. -/
inductive Kind where
  | cs
  | mgr
  | ds
  | fs
  | rep
  | sql
  deriving DecidableEq

def maxClusterServers : Nat := 4
def maxClusterManagers : Nat := 4
def maxClusterId : Nat := 255
def maxNdbDataNodes : Nat := 48
def maxNodeId : Nat := 255
def maxTotalDataServers : Nat := (maxClusterId + 1) * maxNdbDataNodes

/-- The size of a table. -/
def Kind.size : Kind → Nat
  | cs => maxClusterServers
  | mgr => maxClusterManagers
  | ds => maxTotalDataServers
  | fs => maxNodeId
  | rep => maxNodeId
  | sql => maxNodeId

/-- An entry; the names are places in the memory of the container. The entries of `cs_data` and
`mgr_data` have no cluster id. -/
structure NodeData where
  hostname : Nat
  pcntrlHostname : Nat
  pcntrlPort : UInt32
  clusterId : UInt32
  nodeId : UInt32
  deriving DecidableEq, Inhabited

/-- The part of IC_PARSE_DATA that is kept from command to command. -/
structure ParseData where
  data : Kind → Nat → NodeData
  nextIndex : Kind → Nat
  exitFlag : Bool

/-- A prepare command with the values of its symbols. The default of the port and of the cluster
id has been put in. -/
structure PrepareCmd where
  kind : Kind
  host : Bytes
  pcntrlHost : Option Bytes
  pcntrlPort : UInt64
  clusterId : UInt64
  nodeId : UInt64
  noNul : 0 ∉ host ∧ ∀ name ∈ pcntrlHost, 0 ∉ name
  /-- The names stand in a command of at most COMMAND_READ_BUF_SIZE bytes. -/
  inCommand : host.length + (pcntrlHost.elim 0 List.length) ≤ 2048
  noCluster : kind = .cs ∨ kind = .mgr → clusterId = 0

/-- The length of the first buffer of the container, for MC_DEFAULT_BASE_SIZE. -/
def bufferSize : Nat := icAlign 8180 8

/-- The 16 bytes of an IC_STRING at a place and of a length. -/
abbrev Header := Nat → Nat → Fin 16 → UInt8

variable (header : Header)

/-- `ic_mc_char_to_strdup`: the place of the string and the one behind it. Another buffer than the
first one is not modelled. -/
def icMcCharToStrdup (memory : ByteMemory) (free : Nat) (str : Bytes) :
    Option (ByteMemory × Nat × Nat) :=
  let place := free + icAlign 16 8
  let next := place + icAlign (str.length + 1) 8
  if next ≤ bufferSize then
    let memory := memory.store free (List.ofFn (header place str.length))
    some (memory.store place (str ++ [0]), place, next)
  else none

/-- The names as the lexer finds them, with the places of `hostname` and `pcntrl_hostname`. -/
def lexNames (memory : ByteMemory) (c : PrepareCmd) : Option (ByteMemory × Nat × Nat) := do
  let (memory, host, free) ← icMcCharToStrdup header memory 0 c.host
  match c.pcntrlHost with
  | none => some (memory, host, host)
  | some name =>
    let (memory, pcntrlHost, _) ← icMcCharToStrdup header memory free name
    some (memory, host, pcntrlHost)

namespace ParseData

/-- The action of the grammar. Nothing is stored when the table is full. -/
def prepareAction (d : ParseData) (c : PrepareCmd) (host pcntrlHost : Nat) : ParseData :=
  let index := d.nextIndex c.kind
  let nextIndex := fun k => if k = c.kind then d.nextIndex k + 1 else d.nextIndex k
  let node : NodeData :=
    ⟨host, pcntrlHost, c.pcntrlPort.toUInt32, c.clusterId.toUInt32, c.nodeId.toUInt32⟩
  if nextIndex c.kind ≤ c.kind.size then
    { d with
      nextIndex
      data := fun k i => if k = c.kind ∧ i = index then node else d.data k i }
  else { d with nextIndex }

variable (d : ParseData)

/-- An entry; `none` is an index behind the end of the table. -/
def entry (k : Kind) (i : Nat) : Option NodeData :=
  if i < k.size then some (d.data k i) else none

/-- A comparison with the entries of a table, the last one too if `includeLast` is 1. -/
def checkTable (test : NodeData → Bool) (k : Kind) (includeLast : Nat) : Option Bool :=
  (firstIndex (fun i => (d.entry k i).map test) (d.nextIndex k + includeLast - 1) 0).map
    Option.isSome

def checkNodeId (k : Kind) (includeLast : Nat) (nodeId : UInt32) : Option Bool :=
  d.checkTable (fun node => node.nodeId == nodeId) k includeLast

def checkCsNodeId := checkNodeId d .cs
def checkMgrNodeId := checkNodeId d .mgr
def checkDsNodeId := checkNodeId d .ds
def checkFsNodeId := checkNodeId d .fs
def checkRepNodeId := checkNodeId d .rep
def checkSqlNodeId := checkNodeId d .sql

/-- `check_ds_node_id_and_cluster_id`. -/
def checkDsNodeIdAndClusterId (clusterId nodeId : UInt32) : Option Bool :=
  d.checkTable (fun node => node.nodeId == nodeId && node.clusterId == clusterId) .ds 0

/-- Checks one after the other up to the first one that finds a node. -/
def anyClash : List (Option Bool) → Option Bool
  | [] => some false
  | check :: checks => do
    let clash ← check
    if clash then some true else anyClash checks

/-- A check that finds a node sets the exit flag. -/
def refuseIf (checks : List (Option Bool)) : Option ParseData := do
  let clash ← anyClash checks
  if clash then some { d with exitFlag := true } else some d

/-- The entry that the action has made. -/
def lastEntry (k : Kind) : Option NodeData := d.entry k (d.nextIndex k - 1)

def icPrepareClusterServerCmd : Option ParseData :=
  if maxClusterServers < d.nextIndex .cs then some { d with exitFlag := true }
  else do
    let node ← d.lastEntry .cs
    d.refuseIf [d.checkCsNodeId 0 node.nodeId, d.checkDsNodeId 1 node.nodeId,
      d.checkFsNodeId 1 node.nodeId, d.checkRepNodeId 1 node.nodeId,
      d.checkSqlNodeId 1 node.nodeId, d.checkMgrNodeId 1 node.nodeId]

/-- The limit is the one of the cluster servers here, which is the same number. -/
def icPrepareClusterManagerCmd : Option ParseData :=
  if maxClusterServers < d.nextIndex .mgr then some { d with exitFlag := true }
  else do
    let node ← d.lastEntry .mgr
    d.refuseIf [d.checkCsNodeId 1 node.nodeId, d.checkDsNodeId 1 node.nodeId,
      d.checkFsNodeId 1 node.nodeId, d.checkRepNodeId 1 node.nodeId,
      d.checkSqlNodeId 1 node.nodeId, d.checkMgrNodeId 0 node.nodeId]

def icPrepareDataServerCmd : Option ParseData := do
  let node ← d.lastEntry .ds
  d.refuseIf [d.checkCsNodeId 1 node.nodeId, d.checkMgrNodeId 1 node.nodeId,
    d.checkFsNodeId 1 node.nodeId, d.checkSqlNodeId 1 node.nodeId,
    d.checkRepNodeId 1 node.nodeId, d.checkDsNodeIdAndClusterId node.clusterId node.nodeId]

def icPrepareFileServerCmd : Option ParseData := do
  let node ← d.lastEntry .fs
  d.refuseIf [d.checkCsNodeId 1 node.nodeId, d.checkMgrNodeId 1 node.nodeId,
    d.checkDsNodeId 1 node.nodeId, d.checkRepNodeId 1 node.nodeId,
    d.checkSqlNodeId 1 node.nodeId, d.checkFsNodeId 0 node.nodeId]

def icPrepareRepServerCmd : Option ParseData := do
  let node ← d.lastEntry .rep
  d.refuseIf [d.checkCsNodeId 1 node.nodeId, d.checkMgrNodeId 1 node.nodeId,
    d.checkDsNodeId 1 node.nodeId, d.checkFsNodeId 1 node.nodeId,
    d.checkSqlNodeId 1 node.nodeId, d.checkRepNodeId 0 node.nodeId]

def icPrepareSqlServerCmd : Option ParseData := do
  let node ← d.lastEntry .sql
  d.refuseIf [d.checkCsNodeId 1 node.nodeId, d.checkMgrNodeId 1 node.nodeId,
    d.checkDsNodeId 1 node.nodeId, d.checkFsNodeId 1 node.nodeId,
    d.checkSqlNodeId 0 node.nodeId, d.checkRepNodeId 1 node.nodeId]

/-- `boot_execute`, for the prepare commands. -/
def bootExecute : Kind → Option ParseData
  | .cs => d.icPrepareClusterServerCmd
  | .mgr => d.icPrepareClusterManagerCmd
  | .ds => d.icPrepareDataServerCmd
  | .fs => d.icPrepareFileServerCmd
  | .rep => d.icPrepareRepServerCmd
  | .sql => d.icPrepareSqlServerCmd

end ParseData

/-- The program between two commands: IC_PARSE_DATA, the first buffer of the container, and the
commands that were executed. -/
structure Session where
  parseData : ParseData
  memory : ByteMemory
  prepared : List PrepareCmd

/-- `execute_command`; `none` is an index behind the end of a table. The reset of the container
leaves its first buffer as it is. -/
def executeCommand (s : Session) (c : PrepareCmd) : Option Session :=
  if s.parseData.exitFlag then some s
  else do
    let (memory, host, pcntrlHost) ← lexNames header s.memory c
    let parseData ← (s.parseData.prepareAction c host pcntrlHost).bootExecute c.kind
    some ⟨parseData, memory, s.prepared ++ [c]⟩

/-- IC_PARSE_DATA and the buffer are cleared at the start. -/
def start : Session where
  parseData := { data := fun _ _ => ⟨0, 0, 0, 0, 0⟩, nextIndex := fun _ => 0, exitFlag := false }
  memory := fun _ => 0
  prepared := []

/-! ### What the tables have to be -/

/-- The commands for a table. -/
def ofKind (k : Kind) (cmds : List PrepareCmd) : List PrepareCmd := cmds.filter fun c => c.kind = k

/-- The entry has the node of the command. -/
structure Describes (memory : ByteMemory) (node : NodeData) (c : PrepareCmd) : Prop where
  hostname : HoldsString memory node.hostname c.host
  pcntrlHostname : HoldsString memory node.pcntrlHostname (c.pcntrlHost.getD c.host)
  pcntrlPort : node.pcntrlPort.toUInt64 = c.pcntrlPort
  clusterId : node.clusterId.toUInt64 = c.clusterId
  nodeId : node.nodeId.toUInt64 = c.nodeId

/-- Each table has the nodes prepared so far in order, and the node ids are different but for data
servers of different clusters. -/
structure TablesRight (s : Session) : Prop where
  count : ∀ k, s.parseData.nextIndex k = (ofKind k s.prepared).length
  entries : ∀ k i c, (ofKind k s.prepared)[i]? = some c →
    i < k.size ∧ Describes s.memory (s.parseData.data k i) c
  nodeIds : ∀ k k' i i', i < s.parseData.nextIndex k → i' < s.parseData.nextIndex k' →
    (k, i) ≠ (k', i') →
      (s.parseData.data k i).nodeId ≠ (s.parseData.data k' i').nodeId ∨
      (k = .ds ∧ k' = .ds ∧
        (s.parseData.data k i).clusterId ≠ (s.parseData.data k' i').clusterId)

/-- The command is executed without an index out of range, and the tables are right behind it
unless the exit flag is set. -/
def Right (s : Session) (c : PrepareCmd) : Prop :=
  ∃ s', executeCommand header s c = some s' ∧ (s'.parseData.exitFlag = false → TablesRight s')

/-! ### When they are -/

/-- The nodes can be prepared both. -/
def Compatible (c c' : PrepareCmd) : Prop :=
  c.nodeId.toUInt32 ≠ c'.nodeId.toUInt32 ∨
    (c.kind = .ds ∧ c'.kind = .ds ∧ c.clusterId.toUInt32 ≠ c'.clusterId.toUInt32)

/-- There is no fifth cluster server or cluster manager, and no node with this node id. -/
def Accepted (cmds : List PrepareCmd) (c : PrepareCmd) : Prop :=
  (c.kind = .cs ∨ c.kind = .mgr → (ofKind c.kind cmds).length < maxClusterServers) ∧
    ∀ c' ∈ cmds, Compatible c' c

/-- The same host, and the same host of the process controller if both name one. -/
def SameNames (c c' : PrepareCmd) : Prop :=
  c.host = c'.host ∧ ∀ name ∈ c.pcntrlHost, ∀ name' ∈ c'.pcntrlHost, name = name'

/-- The numbers of the command fit into the entry. -/
def Fits (c : PrepareCmd) : Prop :=
  c.pcntrlPort.toNat < 2 ^ 32 ∧ c.clusterId.toNat < 2 ^ 32 ∧ c.nodeId.toNat < 2 ^ 32

/-- A table that is not checked has room, and a node that is accepted has numbers that fit and the
names of the nodes before. -/
def Allowed (s : Session) (c : PrepareCmd) : Prop :=
  s.parseData.exitFlag = false →
    (c.kind ≠ .cs → c.kind ≠ .mgr → (ofKind c.kind s.prepared).length < c.kind.size) ∧
      (Accepted s.prepared c → Fits c ∧ ∀ c' ∈ s.prepared, SameNames c' c)

/-! ## Tables -/

instance (c c' : PrepareCmd) : Decidable (Compatible c c') := inferInstanceAs (Decidable (_ ∨ _))

/-- The place of the name of the process controller: the host's one if there is none. -/
def PrepareCmd.pcntrlPlace (c : PrepareCmd) : Nat :=
  match c.pcntrlHost with
  | none => 16
  | some _ => 32 + icAlign (c.host.length + 1) 8

/-- The entry of a command. -/
def PrepareCmd.node (c : PrepareCmd) : NodeData :=
  ⟨16, c.pcntrlPlace, c.pcntrlPort.toUInt32, c.clusterId.toUInt32, c.nodeId.toUInt32⟩

/-- The tables have the entries of the commands in order. -/
structure Tables (d : ParseData) (cmds : List PrepareCmd) : Prop where
  count : ∀ k, d.nextIndex k = (ofKind k cmds).length
  room : ∀ k, (ofKind k cmds).length ≤ k.size
  entries : ∀ k i c, (ofKind k cmds)[i]? = some c → d.data k i = c.node

theorem ofKind_concat (k : Kind) (cmds : List PrepareCmd) (c : PrepareCmd) :
    ofKind k (cmds ++ [c]) = ofKind k cmds ++ if c.kind = k then [c] else [] := by
  rw [ofKind, filter_append]
  by_cases hk : c.kind = k
  · simp [hk, ofKind]
  · simp [hk, ofKind]

section Action

variable {d : ParseData} {cmds : List PrepareCmd} {c : PrepareCmd}

theorem tables_action (h : Tables d cmds) (hRoom : (ofKind c.kind cmds).length < c.kind.size) :
    Tables (d.prepareAction c 16 c.pcntrlPlace) (cmds ++ [c]) := by
  have hFits : d.nextIndex c.kind + 1 ≤ c.kind.size := by
    rw [h.count]
    exact hRoom
  rw [ParseData.prepareAction]
  simp only [if_true, if_pos hFits]
  constructor
  · intro k
    rw [ofKind_concat]
    by_cases hk : k = c.kind
    · subst hk
      simp [h.count]
    · simp [hk, Ne.symm hk, h.count]
  · intro k
    rw [ofKind_concat]
    by_cases hk : c.kind = k
    · subst hk
      simp
      omega
    · simp [hk, h.room k]
  · intro k i c' hc'
    dsimp only
    rw [ofKind_concat] at hc'
    by_cases hk : k = c.kind
    · subst hk
      rw [if_pos rfl] at hc'
      by_cases hi : i = d.nextIndex c.kind
      · rw [if_pos ⟨rfl, hi⟩]
        rw [hi, h.count, List.getElem?_concat_length] at hc'
        rw [← Option.some.inj hc']
        rfl
      · have hLt : i < (ofKind c.kind cmds).length := by
          have hBound := (List.getElem?_eq_some_iff.mp hc').1
          rw [List.length_append, List.length_singleton] at hBound
          rw [h.count] at hi
          omega
        rw [List.getElem?_append_left hLt] at hc'
        rw [if_neg fun hBoth => hi hBoth.2]
        exact h.entries c.kind i c' hc'
    · rw [if_neg (Ne.symm hk), List.append_nil] at hc'
      rw [if_neg fun hBoth => hk hBoth.1]
      exact h.entries k i c' hc'

theorem exitFlag_action (host pcntrlHost : Nat) :
    (d.prepareAction c host pcntrlHost).exitFlag = d.exitFlag := by
  simp only [ParseData.prepareAction, if_true]
  split
  · rfl
  · rfl

theorem nextIndex_action (host pcntrlHost : Nat) :
    (d.prepareAction c host pcntrlHost).nextIndex c.kind = d.nextIndex c.kind + 1 := by
  simp only [ParseData.prepareAction, if_true]
  split
  · exact if_pos rfl
  · exact if_pos rfl

/-- The entry that a full table does not have is read. -/
theorem lastEntry_full (h : Tables d cmds) (hFull : c.kind.size ≤ (ofKind c.kind cmds).length)
    (host pcntrlHost : Nat) :
    (d.prepareAction c host pcntrlHost).lastEntry c.kind = none := by
  rw [ParseData.lastEntry, nextIndex_action, h.count, ParseData.entry, if_neg (by omega)]

/-- A node of the table `k` keeps the node of `c` from being prepared. -/
def clash (cmds : List PrepareCmd) (c : PrepareCmd) (k : Kind) : Bool :=
  cmds.any fun c' => decide (c'.kind = k ∧ ¬ Compatible c' c)

variable (h : Tables d (cmds ++ [c]))

include h

theorem lastEntry_eq : d.lastEntry c.kind = some c.node := by
  have hRoom := h.room c.kind
  rw [ofKind_concat, if_pos rfl, length_append, length_singleton] at hRoom
  have hNext : d.nextIndex c.kind - 1 = (ofKind c.kind cmds).length := by
    rw [h.count, ofKind_concat, if_pos rfl, length_append, length_singleton]
    rfl
  have hEntry : d.data c.kind (ofKind c.kind cmds).length = c.node := by
    apply h.entries
    rw [ofKind_concat, if_pos rfl, getElem?_concat_length]
  rw [ParseData.lastEntry, hNext, ParseData.entry, if_pos (by omega), hEntry]

/-- A check compares with the nodes that were prepared before. -/
theorem checkTable_eq {k : Kind} {includeLast : Nat}
    (hLast : includeLast = if k = c.kind then 0 else 1) (test : NodeData → Bool) :
    d.checkTable test k includeLast =
      some (cmds.any fun c' => decide (c'.kind = k) && test c'.node) := by
  have hBound : d.nextIndex k + includeLast - 1 = (ofKind k cmds).length := by
    rw [h.count, ofKind_concat, hLast]
    by_cases hk : k = c.kind
    · simp [hk]
    · simp [hk, Ne.symm hk]
  have hOld : ∀ i, i < (ofKind k cmds).length →
      (ofKind k (cmds ++ [c]))[i]? = (ofKind k cmds)[i]? := by
    intro i hi
    rw [ofKind_concat, List.getElem?_append_left hi]
  have hRoom := h.room k
  rw [ofKind_concat, List.length_append] at hRoom
  have hTests : ∀ i, 0 ≤ i → i < 0 + (ofKind k cmds).length →
      (d.entry k i).map test = some (test (d.data k i)) := by
    intro i _ hi
    rw [ParseData.entry, if_pos (by omega)]
    rfl
  rcases firstIndex_isSome hTests with ⟨found, hFirst, hSome⟩
  rw [ParseData.checkTable, hBound, hFirst, Option.map_some]
  congr 1
  rw [Bool.eq_iff_iff, hSome, List.any_eq_true]
  constructor
  · rintro ⟨i, -, hi, hTest⟩
    have hi : i < (ofKind k cmds).length := by omega
    have hGet := List.getElem?_eq_getElem hi
    have hMem : (ofKind k cmds)[i] ∈ ofKind k cmds := List.getElem_mem hi
    rw [h.entries k i _ ((hOld i hi).trans hGet)] at hTest
    rcases List.mem_filter.mp hMem with ⟨hCmd, hKind⟩
    exact ⟨_, hCmd, by rw [hKind, hTest]; rfl⟩
  · rintro ⟨c', hc', hBoth⟩
    rcases Bool.and_eq_true_iff.mp hBoth with ⟨hKind, hTest⟩
    rcases List.mem_iff_getElem?.mp (List.mem_filter.mpr ⟨hc', hKind⟩ : c' ∈ ofKind k cmds) with
      ⟨i, hi⟩
    have hLt : i < (ofKind k cmds).length := (List.getElem?_eq_some_iff.mp hi).1
    refine ⟨i, Nat.zero_le i, by omega, ?_⟩
    rwa [h.entries k i c' ((hOld i hLt).trans hi)]

omit h in
theorem incompatible_iff {c' : PrepareCmd} : ¬ Compatible c' c ↔
    c'.nodeId.toUInt32 = c.nodeId.toUInt32 ∧
      (c'.kind = .ds → c.kind = .ds → c'.clusterId.toUInt32 = c.clusterId.toUInt32) := by
  rw [Compatible]
  tauto

theorem clash_other {k : Kind} (hk : k ≠ c.kind) :
    d.checkNodeId k 1 c.node.nodeId = some (clash cmds c k) := by
  rw [ParseData.checkNodeId, checkTable_eq h (if_neg hk).symm, clash]
  congr 2
  funext c'
  rw [Bool.eq_iff_iff, Bool.and_eq_true, decide_eq_true_iff, decide_eq_true_iff, beq_iff_eq,
    incompatible_iff]
  refine and_congr_right fun hKind => ⟨fun hId => ⟨hId, fun hDs hDs' => ?_⟩, fun hBoth => hBoth.1⟩
  exact absurd (hKind.symm.trans (hDs.trans hDs'.symm)) hk

theorem clash_own (hk : c.kind ≠ .ds) :
    d.checkNodeId c.kind 0 c.node.nodeId = some (clash cmds c c.kind) := by
  rw [ParseData.checkNodeId, checkTable_eq h (if_pos rfl).symm, clash]
  congr 2
  funext c'
  rw [Bool.eq_iff_iff, Bool.and_eq_true, decide_eq_true_iff, decide_eq_true_iff, beq_iff_eq,
    incompatible_iff]
  exact and_congr_right fun _ => ⟨fun hId => ⟨hId, fun _ hDs => absurd hDs hk⟩, fun hBoth => hBoth.1⟩

theorem clash_ds (hk : c.kind = .ds) :
    d.checkDsNodeIdAndClusterId c.node.clusterId c.node.nodeId = some (clash cmds c .ds) := by
  rw [ParseData.checkDsNodeIdAndClusterId, checkTable_eq h (by rw [if_pos hk.symm]), clash]
  congr 2
  funext c'
  rw [Bool.eq_iff_iff, Bool.and_eq_true, Bool.and_eq_true, decide_eq_true_iff, decide_eq_true_iff,
    beq_iff_eq, beq_iff_eq, incompatible_iff]
  refine and_congr_right fun hKind => and_congr_right fun _ => ?_
  exact ⟨fun hCluster _ _ => hCluster, fun hCluster => hCluster hKind hk⟩

/-- The checks of a node that is not a data server. -/
theorem checks_eq (hk : c.kind ≠ .ds) (ks : List Kind) :
    (ks.map fun k => d.checkNodeId k (if k = c.kind then 0 else 1) c.node.nodeId) =
      ks.map fun k => some (clash cmds c k) := by
  refine map_congr_left fun k _ => ?_
  by_cases hOwn : k = c.kind
  · subst hOwn
    rw [if_pos rfl, clash_own h hk]
  · rw [if_neg hOwn, clash_other h hOwn]

omit h in
theorem anyClash_map (ks : List Kind) (f : Kind → Bool) :
    ParseData.anyClash (ks.map fun k => some (f k)) = some (ks.any f) := by
  induction ks with
  | nil => rfl
  | cons k ks ih =>
    rw [map_cons, ParseData.anyClash, any_cons, ih]
    cases f k with
    | true => rfl
    | false => rfl

omit h in
/-- The checks of all tables. -/
theorem refuseIf_eq (hExit : d.exitFlag = false) {ks : List Kind} (hAll : ∀ k, k ∈ ks) :
    d.refuseIf (ks.map fun k => some (clash cmds c k)) =
      some { d with exitFlag := cmds.any fun c' => decide (¬ Compatible c' c) } := by
  have hAny : ks.any (clash cmds c) = cmds.any fun c' => decide (¬ Compatible c' c) := by
    rw [Bool.eq_iff_iff, any_eq_true, any_eq_true]
    constructor
    · rintro ⟨k, -, hClash⟩
      rcases any_eq_true.mp hClash with ⟨c', hc', hBoth⟩
      exact ⟨c', hc', decide_eq_true (of_decide_eq_true hBoth).2⟩
    · rintro ⟨c', hc', hNot⟩
      refine ⟨c'.kind, hAll _, any_eq_true.mpr ⟨c', hc', ?_⟩⟩
      exact decide_eq_true ⟨rfl, of_decide_eq_true hNot⟩
  rw [ParseData.refuseIf, anyClash_map, hAny, Option.bind_eq_bind, Option.bind_some]
  split
  · rename_i hClash
    rw [hClash]
  · rename_i hClash
    rw [Bool.eq_false_iff.mpr hClash, ← hExit]

/-- A command on tables with room sets the exit flag exactly for a node that clashes. -/
theorem bootExecute_eq (hExit : d.exitFlag = false) : d.bootExecute c.kind =
    some { d with exitFlag := cmds.any fun c' => decide (¬ Compatible c' c) } := by
  have hEntry := lastEntry_eq h
  have hRoom : d.nextIndex c.kind ≤ c.kind.size := (h.count c.kind).trans_le (h.room c.kind)
  have hChecks := checks_eq h
  have hOther := fun k => clash_other h (k := k)
  have hDs := clash_ds h
  generalize hKind : c.kind = kind at hEntry hRoom hChecks hOther hDs
  cases kind with
  | cs =>
    have hLimit : ¬ maxClusterServers < d.nextIndex .cs := Nat.not_lt.mpr hRoom
    rw [ParseData.bootExecute, ParseData.icPrepareClusterServerCmd, if_neg hLimit, hEntry]
    exact (congrArg d.refuseIf (hChecks nofun [.cs, .ds, .fs, .rep, .sql, .mgr])).trans
      (refuseIf_eq hExit (by intro k; cases k <;> decide))
  | mgr =>
    have hLimit : ¬ maxClusterServers < d.nextIndex .mgr := Nat.not_lt.mpr hRoom
    rw [ParseData.bootExecute, ParseData.icPrepareClusterManagerCmd, if_neg hLimit, hEntry]
    exact (congrArg d.refuseIf (hChecks nofun [.cs, .ds, .fs, .rep, .sql, .mgr])).trans
      (refuseIf_eq hExit (by intro k; cases k <;> decide))
  | ds =>
    have hList : [d.checkCsNodeId 1 c.node.nodeId, d.checkMgrNodeId 1 c.node.nodeId,
        d.checkFsNodeId 1 c.node.nodeId, d.checkSqlNodeId 1 c.node.nodeId,
        d.checkRepNodeId 1 c.node.nodeId,
        d.checkDsNodeIdAndClusterId c.node.clusterId c.node.nodeId] =
        [Kind.cs, .mgr, .fs, .sql, .rep, .ds].map fun k => some (clash cmds c k) := by
      simp only [ParseData.checkCsNodeId, ParseData.checkMgrNodeId, ParseData.checkFsNodeId,
        ParseData.checkSqlNodeId, ParseData.checkRepNodeId, hOther .cs nofun, hOther .mgr nofun,
        hOther .fs nofun, hOther .sql nofun, hOther .rep nofun, hDs rfl, map_cons,
        map_nil]
    rw [ParseData.bootExecute, ParseData.icPrepareDataServerCmd, hEntry]
    exact (congrArg d.refuseIf hList).trans
      (refuseIf_eq hExit (by intro k; cases k <;> decide))
  | fs =>
    rw [ParseData.bootExecute, ParseData.icPrepareFileServerCmd, hEntry]
    exact (congrArg d.refuseIf (hChecks nofun [.cs, .mgr, .ds, .rep, .sql, .fs])).trans
      (refuseIf_eq hExit (by intro k; cases k <;> decide))
  | rep =>
    rw [ParseData.bootExecute, ParseData.icPrepareRepServerCmd, hEntry]
    exact (congrArg d.refuseIf (hChecks nofun [.cs, .mgr, .ds, .fs, .sql, .rep])).trans
      (refuseIf_eq hExit (by intro k; cases k <;> decide))
  | sql =>
    rw [ParseData.bootExecute, ParseData.icPrepareSqlServerCmd, hEntry]
    exact (congrArg d.refuseIf (hChecks nofun [.cs, .mgr, .ds, .fs, .sql, .rep])).trans
      (refuseIf_eq hExit (by intro k; cases k <;> decide))

end Action

/-! ## Names -/

theorem le_icAlign (a : Nat) : a ≤ icAlign a 8 := by
  rw [icAlign]
  omega

theorem icAlign_lt (a : Nat) : icAlign a 8 < a + 8 := by
  rw [icAlign]
  omega

/-- The names of a command are written, and the memory behind the host's name is as before if there
is no other one. -/
structure NamesWritten (memory memory' : ByteMemory) (c : PrepareCmd) : Prop where
  host : HoldsString memory' 16 c.host
  pcntrlHost : HoldsString memory' c.pcntrlPlace (c.pcntrlHost.getD c.host)
  frame : c.pcntrlHost = none → ∀ j, 32 + icAlign (c.host.length + 1) 8 ≤ j → memory' j = memory j

/-- A copy in the first buffer: where it is, and what stays. -/
theorem icMcCharToStrdup_eq (memory : ByteMemory) {free : Nat} {str : Bytes}
    (hFits : free + 16 + icAlign (str.length + 1) 8 ≤ bufferSize) :
    ∃ memory', icMcCharToStrdup header memory free str =
        some (memory', free + 16, free + 16 + icAlign (str.length + 1) 8) ∧
      HoldsString memory' (free + 16) str ∧
      ∀ j, j < free ∨ free + 16 + str.length < j → memory' j = memory j := by
  refine ⟨_, if_pos hFits, holdsString_store _ _ _, ?_⟩
  intro j hj
  have hHeader : (List.ofFn (header (free + icAlign 16 8) str.length)).length = 16 :=
    length_ofFn
  have hAlign : icAlign 16 8 = 16 := rfl
  rw [ByteMemory.store_outside, ByteMemory.store_outside]
  · rw [hHeader]
    omega
  · rw [hAlign, length_append, length_singleton]
    omega

/-- The names of a command have room in the first buffer. -/
theorem lexNames_eq (memory : ByteMemory) (c : PrepareCmd) :
    ∃ memory', lexNames header memory c = some (memory', 16, c.pcntrlPlace) ∧
      NamesWritten memory memory' c := by
  have hCommand := c.inCommand
  have hSize : bufferSize = 8184 := rfl
  have hHostAlign := icAlign_lt (c.host.length + 1)
  have hHostFits : 0 + 16 + icAlign (c.host.length + 1) 8 ≤ bufferSize := by omega
  rcases icMcCharToStrdup_eq header memory hHostFits with ⟨memory₁, hCopy, hHost, hFrame⟩
  rw [Nat.zero_add] at hHost hFrame
  rw [lexNames, hCopy, PrepareCmd.pcntrlPlace]
  cases hName : c.pcntrlHost with
  | none =>
    refine ⟨memory₁, rfl, hHost, ?_, fun _ j hj => hFrame j (.inr ?_)⟩
    · rw [PrepareCmd.pcntrlPlace, hName]
      exact hHost
    · have hLe := le_icAlign (c.host.length + 1)
      omega
  | some name =>
    rw [hName, Option.elim_some] at hCommand
    have hNameAlign := icAlign_lt (name.length + 1)
    have hNameFits : 0 + 16 + icAlign (c.host.length + 1) 8 + 16 + icAlign (name.length + 1) 8 ≤
      bufferSize := by omega
    rcases icMcCharToStrdup_eq header memory₁ hNameFits with ⟨memory₂, hCopy₂, hName₂, hFrame₂⟩
    have hPlace : 0 + 16 + icAlign (c.host.length + 1) 8 + 16 =
        32 + icAlign (c.host.length + 1) 8 := by omega
    rw [hPlace] at hName₂ hCopy₂
    refine ⟨memory₂, ?_, hHost.frame fun j _ hj => hFrame₂ j (.inl ?_), ?_, ?_⟩
    · rw [Option.bind_eq_bind, Option.bind_some]
      dsimp only
      rw [hCopy₂]
      rfl
    · have hLe := le_icAlign (c.host.length + 1)
      omega
    · rw [PrepareCmd.pcntrlPlace, hName]
      exact hName₂
    · intro hNone
      rw [hName] at hNone
      cases hNone

/-- The names of a node are where its entry points to. -/
def NamesHeld (memory : ByteMemory) (c : PrepareCmd) : Prop :=
  HoldsString memory 16 c.host ∧ HoldsString memory c.pcntrlPlace (c.pcntrlHost.getD c.host)

variable {memory : ByteMemory}

/-- The names of a node before stay exactly if the command has the same ones. -/
theorem namesHeld_iff {memory' : ByteMemory} {c c' : PrepareCmd} (h : NamesWritten memory memory' c)
    (hOld : NamesHeld memory c') : NamesHeld memory' c' ↔ SameNames c' c := by
  constructor
  · rintro ⟨hHost, hPcntrl⟩
    have hSame : c'.host = c.host := hHost.unique h.host c'.noNul.1 c.noNul.1
    refine ⟨hSame, fun name' hName' name hName => ?_⟩
    have hPlace : c'.pcntrlPlace = c.pcntrlPlace := by
      rw [PrepareCmd.pcntrlPlace, PrepareCmd.pcntrlPlace, Option.mem_def.mp hName',
        Option.mem_def.mp hName, hSame]
    have hWritten := h.pcntrlHost
    rw [Option.mem_def.mp hName, Option.getD_some, ← hPlace] at hWritten
    rw [Option.mem_def.mp hName', Option.getD_some] at hPcntrl
    exact hPcntrl.unique hWritten (c'.noNul.2 name' hName') (c.noNul.2 name hName)
  · rintro ⟨hSame, hNames⟩
    have hHost : HoldsString memory' 16 c'.host := hSame ▸ h.host
    refine ⟨hHost, ?_⟩
    cases hName' : c'.pcntrlHost with
    | none =>
      rw [PrepareCmd.pcntrlPlace, hName']
      exact hHost
    | some name' =>
      have hPlace : c'.pcntrlPlace = 32 + icAlign (c.host.length + 1) 8 := by
        rw [PrepareCmd.pcntrlPlace, hName', hSame]
      cases hName : c.pcntrlHost with
      | none =>
        -- nothing is written where the other name stands
        have hBefore := hOld.2
        rw [hName'] at hBefore
        exact hBefore.frame fun j hj _ => h.frame hName j (hPlace ▸ hj)
      | some name =>
        have hEq := hNames name' (Option.mem_def.mpr hName') name (Option.mem_def.mpr hName)
        have hWritten := h.pcntrlHost
        rw [PrepareCmd.pcntrlPlace, hName, ← hEq] at hWritten
        rw [hPlace]
        exact hWritten

/-! ## Sessions -/

/-- What holds as long as the exit flag is not set. -/
structure Inv (s : Session) : Prop where
  tables : Tables s.parseData s.prepared
  compatible : s.prepared.Pairwise Compatible
  fits : ∀ c ∈ s.prepared, Fits c
  names : ∀ c ∈ s.prepared, NamesHeld s.memory c

theorem toUInt64_toUInt32 {v : UInt64} : v.toUInt32.toUInt64 = v ↔ v.toNat < 2 ^ 32 := by
  rw [← UInt64.toNat_inj, UInt32.toNat_toUInt64, UInt64.toNat_toUInt32]
  omega

theorem describes_iff {c : PrepareCmd} :
    Describes memory c.node c ↔ NamesHeld memory c ∧ Fits c := by
  constructor
  · intro h
    exact ⟨⟨h.hostname, h.pcntrlHostname⟩, toUInt64_toUInt32.mp h.pcntrlPort,
      toUInt64_toUInt32.mp h.clusterId, toUInt64_toUInt32.mp h.nodeId⟩
  · rintro ⟨⟨hHost, hPcntrl⟩, hPort, hCluster, hNode⟩
    exact ⟨hHost, hPcntrl, toUInt64_toUInt32.mpr hPort, toUInt64_toUInt32.mpr hCluster,
      toUInt64_toUInt32.mpr hNode⟩

instance : Std.Symm Compatible where
  symm c c' h := by
    rcases h with hId | ⟨hDs, hDs', hCluster⟩
    · exact .inl (Ne.symm hId)
    · exact .inr ⟨hDs', hDs, Ne.symm hCluster⟩

theorem Inv.tablesRight {s : Session} (h : Inv s) : TablesRight s where
  count := h.tables.count
  entries k i c hc := by
    have hMem : c ∈ s.prepared := (List.mem_filter.mp (List.mem_of_getElem? hc)).1
    have hLt := (List.getElem?_eq_some_iff.mp hc).1
    refine ⟨Nat.lt_of_lt_of_le hLt (h.tables.room k), ?_⟩
    rw [h.tables.entries k i c hc]
    exact describes_iff.mpr ⟨h.names c hMem, h.fits c hMem⟩
  nodeIds k k' i i' hi hi' hne := by
    rw [h.tables.count] at hi hi'
    have hGet := List.getElem?_eq_getElem hi
    have hGet' := List.getElem?_eq_getElem hi'
    have hMem := List.mem_filter.mp (List.getElem_mem hi)
    have hMem' := List.mem_filter.mp (List.getElem_mem hi')
    have hKind := of_decide_eq_true hMem.2
    have hKind' := of_decide_eq_true hMem'.2
    have hCompatible : Compatible (ofKind k s.prepared)[i] (ofKind k' s.prepared)[i'] := by
      by_cases hk : k = k'
      · subst hk
        have hOrdered := List.pairwise_iff_getElem.mp (h.compatible.filter fun c => c.kind = k)
        have hIndex : i ≠ i' := fun hEq => hne (by rw [hEq])
        rcases Nat.lt_or_gt_of_ne hIndex with hLt | hGt
        · exact hOrdered i i' hi hi' hLt
        · exact Std.Symm.symm _ _ (hOrdered i' i hi' hi hGt)
      · refine h.compatible.forall hMem.1 hMem'.1 fun hEq => hk ?_
        rw [← hKind, ← hKind', hEq]
    rw [h.tables.entries k i _ hGet, h.tables.entries k' i' _ hGet']
    rcases hCompatible with hId | ⟨hDs, hDs', hCluster⟩
    · exact .inl hId
    · exact .inr ⟨hKind.symm.trans hDs, hKind'.symm.trans hDs', hCluster⟩

/-- The invariant behind a command that has made its entry. -/
theorem inv_concat {s : Session} {c : PrepareCmd} {d : ParseData} (h : Inv s)
    (hTables : Tables d (s.prepared ++ [c])) (hWritten : NamesWritten s.memory memory c)
    (hCompatible : ∀ c' ∈ s.prepared, Compatible c' c) (hFits : Fits c)
    (hNames : ∀ c' ∈ s.prepared, SameNames c' c) : Inv ⟨d, memory, s.prepared ++ [c]⟩ where
  tables := hTables
  compatible := by
    refine pairwise_append.mpr ⟨h.compatible, pairwise_singleton _ _, ?_⟩
    intro c' hc' c'' hc''
    rw [mem_singleton.mp hc'']
    exact hCompatible c' hc'
  fits := by
    intro c' hc'
    rcases mem_append.mp hc' with hOld | hNew
    · exact h.fits c' hOld
    · rw [mem_singleton.mp hNew]
      exact hFits
  names := by
    intro c' hc'
    rcases mem_append.mp hc' with hOld | hNew
    · exact (namesHeld_iff hWritten (h.names c' hOld)).mpr (hNames c' hOld)
    · rw [mem_singleton.mp hNew]
      exact ⟨hWritten.host, hWritten.pcntrlHost⟩

section Step

variable {header} {s : Session} (h : Inv s) (hExit : s.parseData.exitFlag = false)
  (c : PrepareCmd)

include hExit

theorem executeCommand_eq : ∃ memory, NamesWritten s.memory memory c ∧
    executeCommand header s c =
      ((s.parseData.prepareAction c 16 c.pcntrlPlace).bootExecute c.kind).map
        fun d => ⟨d, memory, s.prepared ++ [c]⟩ := by
  rcases lexNames_eq header s.memory c with ⟨memory, hLex, hWritten⟩
  refine ⟨memory, hWritten, ?_⟩
  rw [executeCommand, hExit, if_neg Bool.false_ne_true, hLex, Option.bind_eq_bind,
    Option.bind_some]
  dsimp only
  cases ParseData.bootExecute _ _ with
  | none => rfl
  | some d => rfl

include h

/-- There is no room in one of the tables without a check. -/
theorem executeCommand_full (hCs : c.kind ≠ .cs) (hMgr : c.kind ≠ .mgr)
    (hFull : c.kind.size ≤ (ofKind c.kind s.prepared).length) :
    executeCommand header s c = none := by
  rcases @executeCommand_eq header _ hExit c with ⟨memory, -, hRun⟩
  have hLast := lastEntry_full h.tables hFull 16 c.pcntrlPlace
  rw [hRun]
  generalize s.parseData.prepareAction c 16 c.pcntrlPlace = d at hLast
  generalize c.kind = kind at hCs hMgr hLast
  cases kind with
  | cs => exact absurd rfl hCs
  | mgr => exact absurd rfl hMgr
  | ds => rw [ParseData.bootExecute, ParseData.icPrepareDataServerCmd, hLast]; rfl
  | fs => rw [ParseData.bootExecute, ParseData.icPrepareFileServerCmd, hLast]; rfl
  | rep => rw [ParseData.bootExecute, ParseData.icPrepareRepServerCmd, hLast]; rfl
  | sql => rw [ParseData.bootExecute, ParseData.icPrepareSqlServerCmd, hLast]; rfl

/-- A fifth cluster server or cluster manager sets the exit flag. -/
theorem executeCommand_tooMany (hKind : c.kind = .cs ∨ c.kind = .mgr)
    (hFull : maxClusterServers ≤ (ofKind c.kind s.prepared).length) :
    ∃ s', executeCommand header s c = some s' ∧ s'.parseData.exitFlag = true := by
  rcases @executeCommand_eq header _ hExit c with ⟨memory, -, hRun⟩
  have hNext := nextIndex_action (d := s.parseData) (c := c) 16 c.pcntrlPlace
  rw [h.tables.count] at hNext
  rw [hRun]
  generalize s.parseData.prepareAction c 16 c.pcntrlPlace = d at hNext
  rcases hKind with hKind | hKind
  · rw [hKind] at hNext hFull ⊢
    rw [ParseData.bootExecute, ParseData.icPrepareClusterServerCmd, if_pos (by omega)]
    exact ⟨_, rfl, rfl⟩
  · rw [hKind] at hNext hFull ⊢
    rw [ParseData.bootExecute, ParseData.icPrepareClusterManagerCmd, if_pos (by omega)]
    exact ⟨_, rfl, rfl⟩

/-- With room the exit flag tells whether a node before clashes. -/
theorem executeCommand_room (hRoom : (ofKind c.kind s.prepared).length < c.kind.size) :
    ∃ d memory, executeCommand header s c = some ⟨d, memory, s.prepared ++ [c]⟩ ∧
      Tables d (s.prepared ++ [c]) ∧ NamesWritten s.memory memory c ∧
      (d.exitFlag = false ↔ ∀ c' ∈ s.prepared, Compatible c' c) := by
  rcases @executeCommand_eq header _ hExit c with ⟨memory, hWritten, hRun⟩
  have hTables := tables_action h.tables hRoom
  have hBoot := bootExecute_eq hTables ((exitFlag_action 16 c.pcntrlPlace).trans hExit)
  rw [hBoot, Option.map_some] at hRun
  refine ⟨_, memory, hRun, ⟨hTables.count, hTables.room, hTables.entries⟩, hWritten, ?_⟩
  rw [any_eq_false]
  refine forall₂_congr fun c' _ => ?_
  rw [decide_eq_true_iff, not_not]

omit hExit in
/-- A command that is accepted leaves the tables right exactly if its numbers and names fit. -/
theorem tablesRight_iff {d : ParseData} (hTables : Tables d (s.prepared ++ [c]))
    (hWritten : NamesWritten s.memory memory c) (hCompatible : ∀ c' ∈ s.prepared, Compatible c' c) :
    TablesRight ⟨d, memory, s.prepared ++ [c]⟩ ↔
      Fits c ∧ ∀ c' ∈ s.prepared, SameNames c' c := by
  constructor
  · intro hRight
    have hDescribes : ∀ c' ∈ s.prepared ++ [c], Describes memory c'.node c' := by
      intro c' hc'
      rcases mem_iff_getElem?.mp
          (mem_filter.mpr ⟨hc', decide_eq_true rfl⟩ : c' ∈ ofKind c'.kind _) with ⟨i, hi⟩
      have hEntry := (hRight.entries c'.kind i c' hi).2
      rwa [hTables.entries c'.kind i c' hi] at hEntry
    refine ⟨(describes_iff.mp (hDescribes c (by simp))).2, fun c' hc' => ?_⟩
    have hHeld := (describes_iff.mp (hDescribes c' (mem_append_left _ hc'))).1
    exact (namesHeld_iff hWritten (h.names c' hc')).mp hHeld
  · rintro ⟨hFits, hNames⟩
    exact (inv_concat h hTables hWritten hCompatible hFits hNames).tablesRight

end Step

/-- The exit flag is set, or everything is as it should be. -/
def SessionInv (s : Session) : Prop := s.parseData.exitFlag = false → Inv s

theorem right_of_exit {s : Session} (hExit : s.parseData.exitFlag = true) (c : PrepareCmd) :
    Right header s c :=
  ⟨s, if_pos hExit, fun hNot => absurd hNot (by rw [hExit]; exact nofun)⟩

/-- A command does right exactly if it is allowed; then it keeps the invariant. -/
theorem right_step {s : Session} (h : SessionInv s) (c : PrepareCmd) :
    (Right header s c ↔ Allowed s c) ∧
      (Allowed s c → ∃ s', executeCommand header s c = some s' ∧ SessionInv s') := by
  cases hExit : s.parseData.exitFlag with
  | true =>
    refine ⟨iff_of_true (right_of_exit header hExit c) fun hNot => ?_, fun _ => ?_⟩
    · rw [hExit] at hNot
      cases hNot
    · exact ⟨s, if_pos hExit, h⟩
  | false =>
    have h := h hExit
    have hAllowed : Allowed s c ↔
        (c.kind ≠ .cs → c.kind ≠ .mgr → (ofKind c.kind s.prepared).length < c.kind.size) ∧
          (Accepted s.prepared c → Fits c ∧ ∀ c' ∈ s.prepared, SameNames c' c) :=
      ⟨fun hAll => hAll hExit, fun hBoth _ => hBoth⟩
    rw [hAllowed]
    by_cases hRoom : (ofKind c.kind s.prepared).length < c.kind.size
    · -- the entry is made, and what counts is whether the node is accepted
      rcases @executeCommand_room header _ h hExit c hRoom with
        ⟨d, memory, hRun, hTables, hWritten, hFlag⟩
      have hAccepted : Accepted s.prepared c ↔ ∀ c' ∈ s.prepared, Compatible c' c := by
        refine and_iff_right fun hKind => ?_
        rcases hKind with hKind | hKind
        · rw [hKind] at hRoom ⊢
          exact hRoom
        · rw [hKind] at hRoom ⊢
          exact hRoom
      have hRight : Right header s c ↔
          (Accepted s.prepared c → Fits c ∧ ∀ c' ∈ s.prepared, SameNames c' c) := by
        rw [hAccepted]
        constructor
        · rintro ⟨s', hRun', hTablesRight⟩ hCompatible
          cases hRun.symm.trans hRun'
          exact (tablesRight_iff h c hTables hWritten hCompatible).mp
            (hTablesRight (hFlag.mpr hCompatible))
        · intro hSame
          refine ⟨_, hRun, fun hNotSet => ?_⟩
          have hCompatible := hFlag.mp hNotSet
          exact (tablesRight_iff h c hTables hWritten hCompatible).mpr (hSame hCompatible)
      refine ⟨hRight.trans (and_iff_right fun _ _ => hRoom).symm, fun hBoth => ?_⟩
      refine ⟨_, hRun, fun hNotSet => ?_⟩
      have hCompatible := hFlag.mp hNotSet
      rcases hBoth.2 (hAccepted.mpr hCompatible) with ⟨hFits, hNames⟩
      exact inv_concat h hTables hWritten hCompatible hFits hNames
    · have hFull : c.kind.size ≤ (ofKind c.kind s.prepared).length := Nat.not_lt.mp hRoom
      by_cases hKind : c.kind = .cs ∨ c.kind = .mgr
      · have hLimit : maxClusterServers ≤ (ofKind c.kind s.prepared).length := by
          rcases hKind with hKind | hKind
          · rw [hKind] at hFull ⊢
            exact hFull
          · rw [hKind] at hFull ⊢
            exact hFull
        rcases @executeCommand_tooMany header _ h hExit c hKind hLimit with
          ⟨s', hRun, hSet⟩
        have hNot : ¬ s'.parseData.exitFlag = false := by
          rw [hSet]
          exact nofun
        refine ⟨iff_of_true ⟨s', hRun, fun hNotSet => absurd hNotSet hNot⟩ ⟨?_, ?_⟩, fun _ => ?_⟩
        · intro hCs hMgr
          rcases hKind with hKind | hKind
          · exact absurd hKind hCs
          · exact absurd hKind hMgr
        · intro hAccepted
          exact absurd (hAccepted.1 hKind) (Nat.not_lt.mpr hLimit)
        · exact ⟨s', hRun, fun hNotSet => absurd hNotSet hNot⟩
      · rcases not_or.mp hKind with ⟨hCs, hMgr⟩
        have hNone := @executeCommand_full header _ h hExit c hCs hMgr hFull
        refine ⟨iff_of_false ?_ fun hBoth => hRoom (hBoth.1 hCs hMgr), fun hBoth => ?_⟩
        · rintro ⟨s', hRun, -⟩
          rw [hNone] at hRun
          cases hRun
        · exact absurd (hBoth.1 hCs hMgr) hRoom

theorem start_inv : SessionInv start := fun _ => {
  tables := ⟨fun k => by cases k <;> rfl, fun k => by cases k <;> exact Nat.zero_le _,
    fun k i c hc => by simp [start, ofKind] at hc⟩
  compatible := List.Pairwise.nil
  fits := by simp [start]
  names := by simp [start] }

/-- In a session the tables are right behind each command exactly if each command is allowed. -/
theorem right_iff (cmds : List PrepareCmd) :
    Run.Runs (executeCommand header) (Right header) start cmds ↔
      Run.Meets (executeCommand header) Allowed start cmds :=
  Run.runs_iff_meets _ SessionInv (fun _ c h => (right_step header h c).1)
    (fun _ c h => (right_step header h c).2) cmds start_inv

/-! ## Two hosts -/

/-- A cluster server on a host. -/
def clusterServer (host : Bytes) (nodeId : UInt64) (noNul : 0 ∉ host) (inCommand : host.length ≤ 2048) :
    PrepareCmd where
  kind := .cs
  host := host
  pcntrlHost := none
  pcntrlPort := 10004
  clusterId := 0
  nodeId := nodeId
  noNul := ⟨noNul, by simp⟩
  inCommand := by simpa using inCommand
  noCluster := fun _ => rfl

/-- The entry of the first one has the host of the second one. -/
theorem second_host_lost : ¬ Run.Runs (executeCommand fun _ _ _ => 0) (Right fun _ _ _ => 0) start
    [clusterServer (ascii "a") 1 (by decide) (by decide),
      clusterServer (ascii "b") 2 (by decide) (by decide)] := by
  rintro ⟨-, s₁, h₁, ⟨s₂, h₂, hRight⟩, -⟩
  cases h₁
  cases h₂
  have hFirst := ((hRight (by decide)).entries .cs 0 _ rfl).2.hostname.bytes 0 (by decide)
  revert hFirst
  decide

end IClaustron.Bootstrap.PrepareTables
