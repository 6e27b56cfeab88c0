import IClaustron.Lib.Mutex
import Mathlib.Tactic.SplitIfs

/-!
# ClusterServer.StartThreads — the threads that start a Cluster Server

Model of the start threads in api/ic_apic_run_cs.ic: `start_cs_func` with the
functions it calls (get_cs_connection, wait_for_enough_connections,
handle_cs_heartbeat, wait_for_enough_started_nodes, check_if_cs_started,
release_cs_connection), and check_if_cs_started_thread_func, which brings the
configuration up to date.

A thread is at one of the program points `Pc`. They all lie outside the sections
that `protect_state` protects, a timed wait included, and `localStep` runs the
thread to its next one. Everything the thread learns from outside (the stop flag,
the outcome of a connect, of a file operation, of a message exchange) is part of
the step. The calls on the mutex are listed in their order.
-/

namespace IClaustron.ClusterServer.Start

open Lib

/-- IC_MAX_NODE_ID. -/
def maxNodeId : Nat := 255

/-- CONFIG_STATE_BUSY. -/
def configStateBusy : Nat := 1

/-- CONFIG_STATE_PREPARE_UPDATE. -/
def configStatePrepareUpdate : Nat := 2

/-! ## State -/

/-- IC_INFO_CLUSTER_SERVER. -/
structure InfoCs where
  nodeId : Nat
  /-- `conn` is not NULL -/
  conn : Bool
  isClientSide : Bool
  waitConnectServerThread : Bool
  isStartThreadActive : Bool
  /-- `start_state` is IC_CS_STARTED -/
  started : Bool
  configVersionNumber : Nat
  state : Nat
  masterIndexSize : Nat
  /-- the array `master_index_view`, of which `master_index_size` entries are used -/
  masterIndexView : List Nat
deriving DecidableEq

/-- IC_RUN_CLUSTER_STATE. `cs_servers` is this server, in slot 0, and the others. -/
structure RcState where
  my : InfoCs
  others : List InfoCs
  startThreadsStopped : Nat
  csStarting : Bool
  csStarted : Bool
  threadsReadyConnected : Nat
  /-- `none` for -1, no report yet -/
  checkIfCsStartedRetCode : Option Nat
deriving DecidableEq

def RcState.csServers (s : RcState) : List InfoCs := s.my :: s.others

def RcState.numClusterServers (s : RcState) : Nat := s.csServers.length

/-- Change the entry of the server that start thread `t` connects to. -/
def RcState.modifyInfo (s : RcState) (t : Nat) (f : InfoCs → InfoCs) : RcState :=
  { s with others := s.others.modify t f }

/-- `get_count_active_start_threads`. -/
def getCountActiveStartThreads (s : RcState) : Nat := s.csServers.countP (·.isStartThreadActive)

/-- `get_count_connected_cluster_servers`. -/
def getCountConnectedClusterServers (s : RcState) : Nat := s.csServers.countP (·.conn)

/-! ## Master index view -/

/-- The test in the inner loop of `set_up_initial_master_index_view`. -/
def lowerNodeId (minNodeId lowestNodeId : Nat) (listed : Bool) (info : InfoCs) : Nat :=
  if minNodeId < info.nodeId ∧ info.nodeId < lowestNodeId ∧ listed then info.nodeId
  else lowestNodeId

/-- The inner loop: the lowest node id above `minNodeId`, of a server with a
connection or of this one. -/
def lowestNodeId (s : RcState) (minNodeId : Nat) : Nat :=
  s.others.foldl (fun lowest info => lowerNodeId minNodeId lowest info.conn info)
    (lowerNodeId minNodeId maxNodeId true s.my)

/-- The outer loop, with the rounds that are left. -/
def initialView (s : RcState) : Nat → Nat → List Nat
  | 0, _ => []
  | n + 1, minNodeId =>
    if lowestNodeId s minNodeId = maxNodeId then []
    else lowestNodeId s minNodeId :: initialView s n (lowestNodeId s minNodeId)

/-- `set_up_initial_master_index_view`; `none` if `ic_require(index_size > 1)` stops
the process. -/
def setUpInitialMasterIndexView (s : RcState) : Option RcState :=
  let view := initialView s s.numClusterServers 0
  if 1 < view.length then
    some { s with my := { s.my with
      masterIndexView := view ++ s.my.masterIndexView.drop view.length
      masterIndexSize := view.length } }
  else none

/-! ## Versions -/

/-- `find_max_version`; `none` if `ic_require(version_number > 0)` stops the process. -/
def findMaxVersion (s : RcState) : Option Nat :=
  let version := s.csServers.foldl (fun v info => max v info.configVersionNumber) 0
  if 0 < version then some version else none

/-- `find_max_committed_version`. -/
def findMaxCommittedVersion (s : RcState) : Option Nat :=
  let version := s.csServers.foldl
    (fun v info => if info.state = configStateBusy ∧ v < info.configVersionNumber then
      info.configVersionNumber else v) 0
  if version = 0 then (findMaxVersion s).map (· - 1) else some version

/-! ## Program points -/

inductive Pc where
  -- start_cs_func
  | created
  /-- the loop of `get_cs_connection` -/
  | connecting
  /-- in the timed wait of `get_cs_connection` -/
  | waitServer
  /-- before `check_quorum_reached` -/
  | checkQuorum
  /-- before `wait_for_enough_connections` -/
  | connected
  /-- in a timed wait of its loop; the flag is what `have_waited` becomes -/
  | waitConnections (haveWaited : Bool)
  /-- in its timed wait for the other threads -/
  | waitReady
  /-- before `handle_start_protocol` -/
  | startProtocol
  | firstHeartbeat
  /-- before `wait_for_enough_started_nodes` -/
  | startedNodes
  /-- in its timed wait -/
  | waitStarted
  | startedHeartbeat
  /-- before the next round of its loop -/
  | startedLoop
  /-- before `check_if_cs_started` -/
  | checkIfStarted
  /-- the thread that checks has been started -/
  | checkReset
  /-- in the timed wait of `check_if_cs_started` -/
  | waitCheck
  | checkHeartbeat
  | checkReturned (ret : Nat)
  /-- in the endless `handle_cs_heartbeat` -/
  | heartbeats
  /-- before `release_cs_connection` -/
  | release
  | earlyEnd
  | stopped
  -- check_if_cs_started_thread_func
  | checkCreated
  | beginning
  | rollBack (maxCommittedVersion : Nat)
  | reread
  | fetch (maxCommittedVersion : Nat)
  /-- a configuration was fetched, or the pointer to it is NULL -/
  | removeOld (maxCommittedVersion : Nat) (apic : Bool)
  | writeConfig (maxCommittedVersion : Nat) (apic : Bool)
  | commit
  /-- the label `end` -/
  | inSynch
  /-- the label `error` -/
  | failed (ret : Nat)
  | checkStopped
  /-- the thread waits for a mutex that it holds itself -/
  | blocked
  /-- the process has been stopped, by a requirement or a NULL pointer -/
  | aborted
deriving DecidableEq

/-- One round of `handle_cs_heartbeat`. -/
inductive Heartbeat where
  | stop
  /-- the send fails, or the receive fails before the state of the peer is known -/
  | fails
  /-- the peer says it is started, or starting; `ok`: the rest succeeds -/
  | started (ok : Bool)
  | starting (ok : Bool)
deriving DecidableEq

inductive Act where
  /-- `ic_thread_startup_done` -/
  | startup (ok : Bool)
  /-- the stop flag, and the outcome of `connect_cluster_server` -/
  | connect (stop ok : Bool)
  /-- a section that reads the stop flag up to two times -/
  | wake (stop stop' : Bool)
  /-- `handle_start_protocol`, with what the peer sends and the view agreed upon -/
  | protocol (ok : Bool) (version state : Nat) (view : List Nat)
  /-- a heartbeat, and the stop flag after it -/
  | heartbeat (h : Heartbeat) (stop : Bool)
  | startThread (ret : Nat)
  /-- `write_config_version_file` -/
  | writeVersion (ret : Nat)
  /-- `reread_disk_config`; `inLoad`: it fails in `load_config_files`, `loaded`: it fails behind
  `load_local_config` -/
  | reread (ret : Nat) (inLoad loaded : Bool)
  /-- `ic_get_configuration`; `found`: it returns a configuration -/
  | fetch (found : Bool) (ret : Nat)
  /-- `ic_write_full_config_to_disk` -/
  | writeConfig (ret : Nat)
  | go
deriving DecidableEq

/-- What a step leaves: the next program point, the state, and the calls on
`protect_state`. -/
structure Out where
  pc : Pc
  rc : RcState
  locks : List LockOp
deriving DecidableEq

/-- A step without the mutex. -/
def Out.goto (s : RcState) (pc : Pc) : Out := ⟨pc, s, []⟩

/-- A complete section. -/
def Out.section (s : RcState) (pc : Pc) : Out := ⟨pc, s, [.lock, .unlock]⟩

/-! ## Connect -/

/-- The part of `get_cs_connection` on the server side, up to its timed wait. -/
def serverConnect (s : RcState) (t : Nat) (info : InfoCs) : Out :=
  if info.conn then .section s .connected
  else .section (s.modifyInfo t ({ · with waitConnectServerThread := true })) .waitServer

/-- A round of the loop of `get_cs_connection`. -/
def getCsConnection (s : RcState) (t : Nat) (info : InfoCs) (stop ok : Bool) : Out :=
  if stop then .goto s .earlyEnd
  else if s.my.nodeId < info.nodeId then
    if ok then .section (s.modifyInfo t ({ · with isClientSide := true, conn := true })) .connected
    else .goto s .earlyEnd
  else serverConnect s t info

/-- `check_quorum_reached`. -/
def checkQuorumReached (s : RcState) (stop : Bool) : Out :=
  if stop then .goto s .earlyEnd
  else if s.csStarting then .section s .earlyEnd
  else .section s .connecting

/-! ## Wait for a quorum -/

/-- How a round of the loop in `wait_for_enough_connections` ends. -/
inductive Round where
  | error
  | proceed
  /-- the timed wait, with the value of `have_waited` after it -/
  | wait (haveWaited : Bool)
deriving DecidableEq

/-- A round of the loop, with the mutex held. -/
def connectionsRound (s : RcState) (haveWaited stop : Bool) : Round :=
  let connectedServers := getCountConnectedClusterServers s
  let numServers := s.numClusterServers
  let activeStartThreads := getCountActiveStartThreads s
  if stop then .error
  else if connectedServers + 1 = numServers then .proceed
  else if activeStartThreads + 1 < numServers ∨ (activeStartThreads = 1 ∧ numServers = 2) then .error
  else if activeStartThreads + 1 = numServers ∧ 2 < numServers then
    if haveWaited then .proceed else .wait true
  else if connectedServers = activeStartThreads then .proceed
  else .wait false

/-- What `cs_starting` waits for: the flag is set and the first view made. `none` if
the view has less than two entries. -/
def setStarting (s : RcState) : Option RcState :=
  setUpInitialMasterIndexView
    { s with csStarting := true, threadsReadyConnected := s.threadsReadyConnected + 1 }

/-- The rest of `wait_for_enough_connections` after its loop, with the mutex held. -/
def quorumReached (s : RcState) (stop : Bool) : Out :=
  if stop then ⟨.release, s, [.lock]⟩
  else if s.csStarted then
    -- the mutex is locked a second time, before `update_master_index_view`
    ⟨.blocked, s, [.lock, .lock]⟩
  else
    match setStarting s with
    | none => ⟨.aborted, { s with csStarting := true }, [.lock]⟩
    | some s =>
      if 2 < s.my.masterIndexSize then
        if s.threadsReadyConnected + 1 = s.my.masterIndexSize then
          .section { s with threadsReadyConnected := 0 } .startProtocol
        else .section s .waitReady
      else .section s .startProtocol

/-- `wait_for_enough_connections` from its entry or its timed wait to the next point
without the mutex. -/
def waitForEnoughConnections (s : RcState) (haveWaited stop stop' : Bool) : Out :=
  match connectionsRound s haveWaited stop with
  | .error => ⟨.release, s, [.lock]⟩
  | .wait haveWaited => .section s (.waitConnections haveWaited)
  | .proceed => quorumReached s stop'

/-- The timed wait for the other threads comes to its end. -/
def waitForReady (s : RcState) (stop : Bool) : Out :=
  if stop then .section s .release
  else if 0 < s.threadsReadyConnected then .section s .waitReady
  else .section s .startProtocol

/-! ## Heartbeats -/

/-- The calls of `rec_heartbeat` and `handle_failed_heartbeat` on the mutex. -/
def Heartbeat.locks : Heartbeat → List LockOp
  | .stop => []
  | .fails => [.lock, .unlock]
  | .started ok | .starting ok => if ok then [.lock, .unlock] else [.lock, .unlock, .lock, .unlock]

/-- The round returns an error. -/
def Heartbeat.failed : Heartbeat → Bool
  | .stop => false
  | .fails => true
  | .started ok | .starting ok => !ok

/-- What a round does to the entry of the peer. A peer that falls back from started
to starting ends the round without an error code. -/
def Heartbeat.apply (h : Heartbeat) (info : InfoCs) : InfoCs :=
  match h with
  | .stop | .starting true => info
  | .started true => { info with started := true }
  | .fails | .started false | .starting false => { info with started := false }

/-! ## Wait for the other threads to complete -/

/-- A round of the loop in `wait_for_enough_started_nodes`, up to its next point
without the mutex. -/
def startedRound (s : RcState) : Out :=
  if ¬ s.csStarting then .section s .release
  else if getCountConnectedClusterServers s + s.startThreadsStopped + 1 = s.numClusterServers then
    if s.startThreadsStopped < 2 ∧ ¬ (s.numClusterServers = 2 ∧ 0 < s.startThreadsStopped) then
      .section s .checkIfStarted
    else ⟨.aborted, s, [.lock]⟩
  else .section s .waitStarted

/-- `wait_for_enough_started_nodes` from its entry. -/
def waitForEnoughStartedNodes (s : RcState) : Out :=
  if s.csStarted then .section s .heartbeats else startedRound s

/-- `check_if_cs_started` after its timed wait. -/
def checkWaited (s : RcState) : Out :=
  match s.checkIfCsStartedRetCode with
  | some ret => .section s (.checkReturned ret)
  | none => .section s .checkHeartbeat

/-- `check_if_cs_started` after a heartbeat. Of the error code of a failed one it only
matters that it is not 0. -/
def checkAfterHeartbeat (s : RcState) (t : Nat) (h : Heartbeat) : Out :=
  let s := s.modifyInfo t h.apply
  if h.failed then
    ⟨.checkReturned 1, { s with checkIfCsStartedRetCode := some 1 }, h.locks ++ [.lock, .unlock]⟩
  else
    match s.checkIfCsStartedRetCode with
    | some ret => ⟨.checkReturned ret, s, h.locks ++ [.lock, .unlock]⟩
    | none => ⟨.waitCheck, s, h.locks ++ [.lock, .unlock]⟩

/-! ## End of a start thread -/

/-- `release_cs_connection` without the mutex. -/
def releaseCsConnection (s : RcState) (t : Nat) : Out :=
  let s := s.modifyInfo t ({ · with isStartThreadActive := false, conn := false })
  let s := { s with startThreadsStopped := s.startThreadsStopped + 1 }
  let s :=
    if s.csStarting ∧ (s.numClusterServers = 2 ∨
        getCountConnectedClusterServers s + 2 < s.numClusterServers) then
      { s with csStarting := false }
    else s
  .section s .stopped

/-- The label `early_end` of `start_cs_func`. -/
def endEarly (s : RcState) (t : Nat) : Out :=
  .section { s.modifyInfo t ({ · with isStartThreadActive := false }) with
    startThreadsStopped := s.startThreadsStopped + 1 } .stopped

/-! ## Bring the configuration up to date -/

/-- This server is at the version and state given. -/
def RcState.setMyVersion (s : RcState) (version state : Nat) : RcState :=
  { s with my := { s.my with configVersionNumber := version, state := state } }

/-- The end of `load_local_config`: version 0 is written to disk as version 1. -/
def RcState.writeFirstVersion (s : RcState) : RcState :=
  if s.my.configVersionNumber = 0 then { s with my := { s.my with configVersionNumber := 1 } } else s

/-- Some other server differs from this one in version or state. -/
def outOfSynch (s : RcState) : Bool :=
  s.others.any fun info =>
    info.configVersionNumber ≠ s.my.configVersionNumber ∨ info.state ≠ s.my.state

/-- `check_if_cs_started_thread_func` from the label `beginning` to the next point
without the mutex. -/
def checkVersions (s : RcState) : Out :=
  if outOfSynch s then
    match findMaxCommittedVersion s with
    | none => ⟨.aborted, s, [.lock]⟩
    | some version =>
      if version < s.my.configVersionNumber then .section s (.rollBack version)
      else if s.my.configVersionNumber < version then .section s (.fetch version)
      else if s.my.state = configStatePrepareUpdate then .section s .commit
      else .section s .inSynch
  else
    -- the loop ends with the mutex held, and the label `end` locks it
    ⟨.blocked, s, [.lock, .lock]⟩

/-- At `beginning` the state is only looked at. -/
theorem checkVersions_rc (s : RcState) : (checkVersions s).rc = s := by
  unfold checkVersions
  by_cases hsynch : outOfSynch s = true
  · rw [if_pos hsynch]
    split
    · rfl
    · split_ifs <;> rfl
  · rw [if_neg hsynch]

/-- The old files are removed. A prepared version is unlocked in its branch and again
after it. -/
def removeOldConfig (s : RcState) (version : Nat) (apic : Bool) : Out :=
  if s.my.state = configStatePrepareUpdate then
    ⟨.writeConfig version apic, s, [.lock, .unlock, .unlock]⟩
  else .section s (.writeConfig version apic)

/-- Report to `check_if_cs_started`. -/
def reportEnd (s : RcState) : Out :=
  .section { s with csStarted := true, csStarting := false, checkIfCsStartedRetCode := some 0 }
    .checkStopped

def reportError (s : RcState) (ret : Nat) : Out :=
  .section { s with checkIfCsStartedRetCode := some ret } .checkStopped

/-! ## One step -/

/-- A step of a start thread for the server in entry `t`. -/
def startStep (s : RcState) (t : Nat) (info : InfoCs) : Pc → Act → Option Out
  | .created, .startup ok => some (.goto s (if ok then .connecting else .earlyEnd))
  | .connecting, .connect stop ok => some (getCsConnection s t info stop ok)
  | .waitServer, .go => some (.section s (if info.conn then .connected else .checkQuorum))
  | .checkQuorum, .wake stop _ => some (checkQuorumReached s stop)
  | .connected, .wake stop stop' => some (waitForEnoughConnections s false stop stop')
  | .waitConnections haveWaited, .wake stop stop' =>
    some (waitForEnoughConnections s haveWaited stop stop')
  | .waitReady, .wake stop _ => some (waitForReady s stop)
  | .startProtocol, .protocol ok version state view =>
    some (.section { s.modifyInfo t ({ · with configVersionNumber := version, state := state })
      with my := { s.my with masterIndexView := view } } (if ok then .firstHeartbeat else .release))
  | .firstHeartbeat, .heartbeat h stop =>
    some ⟨if h.failed ∨ stop then .release else .startedNodes, s.modifyInfo t h.apply, h.locks⟩
  | .startedNodes, .go => some (waitForEnoughStartedNodes s)
  | .waitStarted, .wake stop _ => some (.section s (if stop then .release else .startedHeartbeat))
  | .startedHeartbeat, .heartbeat h _ =>
    some ⟨if h.failed then .release else .startedLoop, s.modifyInfo t h.apply, h.locks⟩
  | .startedLoop, .go => some (startedRound s)
  | .checkIfStarted, .startThread ret =>
    some (.goto s (if ret ≠ 0 then .checkReturned ret else .checkReset))
  | .checkReset, .go => some (.section { s with checkIfCsStartedRetCode := none } .waitCheck)
  | .waitCheck, .go => some (checkWaited s)
  | .checkHeartbeat, .heartbeat h _ => some (checkAfterHeartbeat s t h)
  | .checkReturned ret, .go =>
    if ret ≠ 0 then some (.goto s .release) else some (.section s .heartbeats)
  | .heartbeats, .heartbeat h _ =>
    some ⟨if h.failed ∨ h = .stop then .release else .heartbeats, s.modifyInfo t h.apply, h.locks⟩
  | .release, .go => some (releaseCsConnection s t)
  | .earlyEnd, .go => some (endEarly s t)
  | _, _ => none

/-- A step of the thread that checks the versions. -/
def checkStep (s : RcState) : Pc → Act → Option Out
  | .checkCreated, .startup ok => some (.goto s (if ok then .beginning else .failed 1))
  | .beginning, .go => some (checkVersions s)
  | .rollBack version, .writeVersion ret =>
    if ret ≠ 0 then some (.goto s (.failed ret))
    else some (.section (s.setMyVersion version configStateBusy) .reread)
  | .reread, .reread ret inLoad loaded =>
    if ret ≠ 0 then
      if inLoad then some (.section s (.failed ret))
      else some (.goto (if loaded then s.writeFirstVersion else s) (.failed ret))
    else some (.goto s.writeFirstVersion .beginning)
  | .fetch version, .fetch found ret =>
    -- the test is the wrong way round: a configuration that was found is an error
    some (.goto s (if found then .failed ret else .removeOld version found))
  | .removeOld version apic, .go => some (removeOldConfig s version apic)
  | .writeConfig version apic, .writeConfig ret =>
    if ¬ apic then some (.goto s .aborted)
    else if ret ≠ 0 then some (.goto s (.failed ret))
    else some (.section (s.setMyVersion version configStateBusy) .reread)
  | .commit, .writeVersion ret =>
    if ret ≠ 0 then some (.goto s (.failed ret))
    else some (.section (s.setMyVersion s.my.configVersionNumber configStateBusy) .beginning)
  | .inSynch, .go => some (reportEnd s)
  | .failed ret, .go => some (reportError s ret)
  | _, _ => none

/-- A step of a thread; `t` is the server that a start thread connects to. -/
def localStep (s : RcState) (t : Nat) (pc : Pc) (a : Act) : Option Out :=
  match checkStep s pc a with
  | some out => some out
  | none => (s.others[t]?).bind fun info => startStep s t info pc a

end IClaustron.ClusterServer.Start
