import IClaustron.Lib.Overwrite
import IClaustron.Lib.Run

/-!
# ClusterServer.StartProtocol — two Cluster Servers agree on the master order

Model of handle_start_protocol in api/ic_apic_run_cs.ic with the functions that send
and receive its messages, verify_master_index_view and is_view_from_starting_node.
One Cluster Server is the client of the connection, the other one the server.

A message is one constructor of `Msg`; on the connection it is a sequence of lines
that ends with an empty line. A party runs from one message it waits for to the
next one. A party that returns an error gives up the connection, and the other one
gets an error for the message it waits for.

The connect thread of the server asks the client for its node id, and answers ok
when it has been waiting for this node; both messages are in the inbox of the client
from the start. The client's answer goes to the connect thread.
-/

namespace IClaustron.ClusterServer.Agreement

open Lib

/-- IC_MAX_CLUSTER_SERVERS. -/
def maxClusterServers : Nat := 4
/-- IC_END_OF_FILE. -/
def endOfFile : Nat := 7043
/-- IC_PROTOCOL_ERROR. -/
def protocolError : Nat := 7044
/-- IC_ERROR_MASTER_INDEX_VIEW_DIFFERS. -/
def errorMasterIndexViewDiffers : Nat := 7080
/-- IC_ERROR_WRONG_NODE_ID. -/
def errorWrongNodeId : Nat := 7081
/-- IC_ERROR_CHANGE_VIEW. -/
def errorChangeView : Nat := 7082

/-! ## State -/

/-- The part of IC_INFO_CLUSTER_SERVER that the start protocol uses. -/
structure InfoCs where
  nodeId : Nat
  csConnectState : Bool
  pid : Nat
  state : Nat
  configVersionNumber : Nat
  masterIndexSize : Nat
  /-- the whole array -/
  masterIndexView : List Nat
  deriving DecidableEq

/-- The entries of `master_index_view` that are in use. -/
def InfoCs.view (info : InfoCs) : List Nat := info.masterIndexView.take info.masterIndexSize

/-- `cs_servers`: this server in slot 0, and the others. -/
structure RunObj where
  my : InfoCs
  others : List InfoCs
  deriving DecidableEq

def RunObj.modifyInfo (run : RunObj) (csIndex : Nat) (f : InfoCs → InfoCs) : RunObj :=
  match csIndex with
  | 0 => { run with my := f run.my }
  | i + 1 => { run with others := run.others.modify i f }

def RunObj.info? (run : RunObj) (csIndex : Nat) : Option InfoCs := (run.my :: run.others)[csIndex]?

/-- `find_cs_index`. -/
def findCsIndex (run : RunObj) (nodeId : Nat) : Option Nat :=
  (run.my :: run.others).findIdx? (·.nodeId == nodeId)

/-! ## Checking the views -/

def nondecreasing : List Nat → Bool
  | a :: b :: ids => !decide (b < a) && nondecreasing (b :: ids)
  | _ => true

/-- `is_view_from_starting_node`. -/
def isViewFromStartingNode (info : InfoCs) : Bool := nondecreasing info.view

/-- Copy the view of `keep` into `change`. -/
def changeView (change keep : InfoCs) : InfoCs :=
  { change with
    masterIndexView := overwrite change.masterIndexView 0
      (keep.masterIndexView.take keep.masterIndexSize) }

/-- The loop of `verify_master_index_view`. The result is the return code, and what
becomes of `my_info_cs` and of the other entries. -/
def verifyLoop (my : InfoCs) : List InfoCs → Nat × InfoCs × List InfoCs
  | [] => (0, my, [])
  | curr :: rest =>
    if curr.csConnectState then
      if my.masterIndexSize ≠ curr.masterIndexSize then
        (errorMasterIndexViewDiffers, my, curr :: rest)
      else if my.masterIndexView.take my.masterIndexSize ≠
          curr.masterIndexView.take my.masterIndexSize then
        if isViewFromStartingNode my then
          if isViewFromStartingNode curr then (errorMasterIndexViewDiffers, my, curr :: rest)
          else if curr.masterIndexView.head? = some curr.nodeId then
            (errorChangeView, changeView my curr, curr :: rest)
          else (errorMasterIndexViewDiffers, my, curr :: rest)
        else
          if !isViewFromStartingNode curr then (errorMasterIndexViewDiffers, my, curr :: rest)
          else if my.masterIndexView.head? = some my.nodeId then
            (errorChangeView, my, changeView curr my :: rest)
          else (errorMasterIndexViewDiffers, my, curr :: rest)
      else
        let (code, my, rest) := verifyLoop my rest
        (code, my, curr :: rest)
    else
      let (code, my, rest) := verifyLoop my rest
      (code, my, curr :: rest)

/-- `verify_master_index_view`. -/
def verifyMasterIndexView (run : RunObj) : Nat × RunObj :=
  let (code, my, others) := verifyLoop run.my run.others
  (code, ⟨my, others⟩)

/-! ## Messages -/

inductive Msg where
  | getCsNodeid
  | ok
  /-- from `ic_send_error_message` -/
  | error
  | startReq (nodeId version status pid : Nat)
  | startReply (nodeId version status pid : Nat) (view : List Nat)
  | startOk
  deriving DecidableEq

/-- `send_start_cluster_server_req`. -/
def startClusterServerReq (my : InfoCs) : Msg :=
  .startReq my.nodeId my.configVersionNumber my.state my.pid

/-- `send_start_cluster_server_reply`. -/
def startClusterServerReply (my : InfoCs) : Msg :=
  .startReply my.nodeId my.configVersionNumber my.state my.pid my.view

/-- The other server has told its view. -/
def InfoCs.record (info : InfoCs) (view : List Nat) : InfoCs :=
  { info with
    masterIndexSize := view.length
    masterIndexView := overwrite info.masterIndexView 0 view
    csConnectState := true }

def InfoCs.setStatus (info : InfoCs) (version status pid : Nat) : InfoCs :=
  { info with pid := pid, state := status, configVersionNumber := version }

/-- `rec_start_cluster_server_reply`, for a message that has arrived. -/
def recStartClusterServerReply (run : RunObj) (csIndex nodeId version status pid : Nat)
    (view : List Nat) : Nat × RunObj :=
  if maxClusterServers < view.length then (protocolError, run)
  else if (run.info? csIndex).map (·.nodeId) ≠ some nodeId then (errorWrongNodeId, run)
  else
    let (code, run) := verifyMasterIndexView (run.modifyInfo csIndex (·.record view))
    if code ≠ 0 then (code, run)
    else (0, run.modifyInfo csIndex (·.setStatus version status pid))

/-! ## The parties -/

inductive Pc where
  /-- client, in `rec_get_cs_nodeid_req` -/
  | begun
  /-- client, in `ic_rec_ok_or_error` -/
  | waitAccept
  /-- server, in `rec_start_cluster_server_req` -/
  | waitReq
  /-- server, in `ic_rec_simple_str_opt` -/
  | waitOkOrReply
  /-- client, in `rec_start_cluster_server_reply` -/
  | waitReply
  /-- client, in `rec_start_cluster_server_ok` -/
  | waitOk
  | returned (code : Nat)
  deriving DecidableEq

structure Party where
  isClient : Bool
  run : RunObj
  csIndex : Nat
  pc : Pc
  inbox : List Msg
  deriving DecidableEq

/-- The end of `handle_start_protocol`, with the result of
`rec_start_cluster_server_reply`. -/
def afterReply (isClient : Bool) (code : Nat) (run : RunObj) : Pc × List Msg :=
  if code ≠ 0 then
    if code ≠ errorChangeView ∨ !isClient then (.returned code, [])
    else (.waitOk, [startClusterServerReply run.my])
  else (.returned 0, [.startOk])

/-- What a party does with a message, and what it sends. -/
def handle (p : Party) (msg : Msg) : Party × List Msg :=
  match p.pc, msg with
  | .begun, .getCsNodeid => ({ p with pc := .waitAccept }, [])
  | .waitAccept, .ok => ({ p with pc := .waitReply }, [startClusterServerReq p.run.my])
  -- `ret_code` is still 0 when the connect thread has refused the client
  | .waitAccept, .error => ({ p with pc := .returned 0 }, [])
  | .waitReq, .startReq nodeId version status pid =>
    match findCsIndex p.run nodeId with
    | none => ({ p with pc := .returned protocolError }, [])
    | some found =>
      if p.csIndex ≠ maxClusterServers ∧ p.csIndex ≠ found then
        ({ p with pc := .returned protocolError }, [])
      else
        let run := p.run.modifyInfo found (·.setStatus version status pid)
        ({ p with run := run, csIndex := found, pc := .waitOkOrReply },
          [startClusterServerReply run.my])
  | .waitOkOrReply, .startOk =>
    -- the client has accepted our view; its size is not copied
    ({ p with
        run := p.run.modifyInfo p.csIndex fun info =>
          { info with masterIndexView := p.run.my.masterIndexView }
        pc := .returned 0 }, [])
  | .waitOkOrReply, .startReply nodeId version status pid view
  | .waitReply, .startReply nodeId version status pid view =>
    let (code, run) := recStartClusterServerReply p.run p.csIndex nodeId version status pid view
    let (pc, sent) := afterReply p.isClient code run
    ({ p with run := run, pc := pc }, sent)
  | .waitOk, .startOk => ({ p with pc := .returned 0 }, [])
  | _, _ => ({ p with pc := .returned protocolError }, [])

structure St where
  client : Party
  server : Party
  deriving DecidableEq

inductive Label where
  | client
  | server
  deriving DecidableEq

def Pc.isReturned : Pc → Bool
  | .returned _ => true
  | _ => false

/-- The party has given up the connection. -/
def Pc.failed : Pc → Bool
  | .returned code => code ≠ 0
  | _ => false

/-- A step of `p`, with the other party `q`. -/
def partyStep (p q : Party) : Option (Party × Party) :=
  if p.pc.isReturned then none
  else
    match p.inbox with
    | msg :: inbox =>
      let (p', sent) := handle { p with inbox := inbox } msg
      some (p', { q with inbox := q.inbox ++ sent })
    | [] => if q.pc.failed then some ({ p with pc := .returned endOfFile }, q) else none

def step (s : St) : Label → Option St
  | .client => (partyStep s.client s.server).map fun (p, q) => ⟨p, q⟩
  | .server => (partyStep s.server s.client).map fun (p, q) => ⟨q, p⟩

end IClaustron.ClusterServer.Agreement
