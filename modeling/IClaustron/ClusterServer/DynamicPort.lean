import IClaustron.Lib.Result
import IClaustron.Protocol.Messages

/-!
# ClusterServer.DynamicPort — spreading a dynamic port number

Model of handle_set_connection_parameter_req and send_set_connection_parameter in
api/ic_apic_run_cs.ic. A client has opened a port and tells a cluster server, which
asks the other cluster servers it is connected to before it takes the number over
itself. How the exchange with each of them ends is a choice of the run: writing or
reading fails, or a reply comes in.

The hash table of socket links finds a link by its two nodes in either order.
`rec_set_connection_param_message` reads the two strings of a reply into arrays on
its stack; a string that is too long is written over their ends, which the model
takes for the end of the program.

* `sendLoop_connected` — the loop over the cluster servers keeps the return code of
  the last one;
* `port_agreement_iff` — when the client can rely on the answer.

**Scope limits**: `rc_start_update` may have to wait for another update, which is
the subject of `ClusterServer.Update`; the connection to the client does not fail.
-/

namespace IClaustron.ClusterServer.DynamicPort

open Lib Protocol List

/-! ## Model -/

/-- SOCKET_SERVER_PORT_NUMBER. -/
def socketServerPortNumber : Nat := 406
/-- IC_FIRST_ERROR. -/
def firstError : Nat := 7000
/-- IC_ERROR_NO_SUCH_CLUSTER. -/
def errorNoSuchCluster : Nat := 7022
/-- IC_ERROR_SET_CONNECTION_PARAMETER_WRONG_PARAM. -/
def errorWrongParam : Nat := 7051
/-- IC_ERROR_SET_CONNECTION_PARAMETER_WRONG_NODES. -/
def errorWrongNodes : Nat := 7052
/-- IC_ERROR_SET_CONNECTION_NO_DYNAMIC. -/
def errorNoDynamic : Nat := 7078
/-- IC_ERROR_NO_SUCH_ERROR. -/
def errorNoSuchError : Nat := 7079
/-- IC_MAX_ERROR_STRING_SIZE. -/
def maxErrorStringSize : Nat := 256

def okStr : Bytes := ascii "Ok"
def errorStr : Bytes := ascii "Error"
def noSuchErrorStr : Bytes := ascii "No such error"

/-- IC_SOCKET_LINK_CONFIG; the dynamic port number has 16 bits. -/
structure SocketLink where
  firstNodeId : Nat
  secondNodeId : Nat
  serverPortNumber : Nat
  dynamicServerPortNumber : Nat
deriving DecidableEq

def SocketLink.joins (l : SocketLink) (node1 node2 : Nat) : Bool :=
  (l.firstNodeId = node1 ∧ l.secondNodeId = node2) ∨
    (l.firstNodeId = node2 ∧ l.secondNodeId = node1)

/-- A place for a cluster server: `cs_nodeid[i]`, and whether `cs_servers[i].conn`
is set. -/
structure CsServer where
  nodeId : Nat
  conn : Bool
deriving DecidableEq

/-- The part of IC_INT_RUN_CLUSTER_SERVER that is used here. -/
structure RunCs where
  maxClusterId : Nat
  confObjects : Nat → Option (List SocketLink)
  csNodeid : Nat
  csServers : List CsServer
  masterCsIndex : Nat

/-- A set connection parameter request that has been received. -/
structure Request where
  clusterId : Nat
  node1Id : Nat
  node2Id : Nat
  param : Nat
  value : Int
deriving DecidableEq

/-- How the exchange with one cluster server ends. -/
inductive Exchange where
  | sendFails (code : Nat) (h : code ≠ 0)
  | recFails (code : Nat) (h : code ≠ 0)
  | reply (message result : Bytes)
deriving DecidableEq

/-- A string is written over the end of its array. -/
inductive Stop where
  | overflow
deriving DecidableEq

/-- `ic_translate_error_string`, on the table of error messages. -/
def translateErrorString (errors : List (Option Bytes)) (s : Bytes) : Nat :=
  match errors.findIdx? (· = some s) with
  | some i => i + firstError
  | none => errorNoSuchError

/-- `ic_get_error_message`. -/
def getErrorMessage (errors : List (Option Bytes)) (code : Nat) : Bytes :=
  if code < firstError then noSuchErrorStr
  else (errors[code - firstError]?.join).getD noSuchErrorStr

/-- `send_set_connection_param_message` and `rec_set_connection_param_message`: the
return code. -/
def askServer (errors : List (Option Bytes)) : Exchange → Except Stop Nat
  | .sendFails code _ => .ok code
  | .recFails code _ => .ok code
  | .reply message result =>
    if 32 ≤ message.length ∨ maxErrorStringSize ≤ result.length then .error .overflow
    else if cStr message ≠ [] ∨ cStr result ≠ okStr then
      .ok (translateErrorString errors (cStr result))
    else .ok 0

/-- `is_cs_master`. -/
def isCsMaster (run : RunCs) : Bool := run.masterCsIndex = 0

/-- The loop of `send_set_connection_parameter` from server number `i` on, with the
return code so far; and the servers that have acknowledged the port number. -/
def sendLoop (errors : List (Option Bytes)) (csNodeid portNumber : Nat) (ex : Nat → Exchange) :
    List CsServer → (i ret : Nat) → Except Stop (Nat × List (Nat × Nat))
  | [], _, ret => .ok (ret, [])
  | cs :: servers, i, ret =>
    if cs.nodeId = csNodeid ∨ cs.conn = false then sendLoop errors csNodeid portNumber ex servers (i + 1) ret
    else do
      let code ← askServer errors (ex i)
      let (ret, acked) ← sendLoop errors csNodeid portNumber ex servers (i + 1) code
      pure (ret, if code = 0 then (i, portNumber) :: acked else acked)

/-- `send_set_connection_parameter`. -/
def sendSetConnectionParameter (errors : List (Option Bytes)) (run : RunCs) (portNumber : Nat)
    (ex : Nat → Exchange) : Except Stop (Nat × List (Nat × Nat)) :=
  if isCsMaster run then sendLoop errors run.csNodeid portNumber ex run.csServers 0 0
  else .ok (0, [])

/-- `get_socket_link_config`. -/
def getSocketLinkConfig (links : List SocketLink) (node1 node2 : Nat) : Option SocketLink :=
  links.find? (·.joins node1 node2)

/-- The checks of a request: 0, or the code of the error. -/
def checkRequest (run : RunCs) (clientNodeid : Nat) (req : Request) : Nat :=
  if req.param ≠ socketServerPortNumber then errorWrongParam
  else if clientNodeid ≠ 0 ∧ req.node1Id ≠ clientNodeid then errorWrongNodes
  else if run.maxClusterId < req.clusterId then errorNoSuchCluster
  else
    match run.confObjects req.clusterId with
    | none => errorNoSuchCluster
    | some links =>
      match getSocketLinkConfig links req.node1Id req.node2Id with
      | none => errorWrongNodes
      | some l => if l.serverPortNumber ≠ 0 then errorNoDynamic else 0

/-- The first link that `get_socket_link_config` finds gets the port number. -/
def updateLink (node1 node2 port : Nat) : List SocketLink → List SocketLink
  | [] => []
  | l :: links =>
    if l.joins node1 node2 then { l with dynamicServerPortNumber := port } :: links
    else l :: updateLink node1 node2 port links

/-- `comm_section->dynamic_server_port_number= value`. -/
def RunCs.setPort (run : RunCs) (req : Request) : RunCs :=
  { run with
    confObjects := Function.update run.confObjects req.clusterId
      ((run.confObjects req.clusterId).map
        (updateLink req.node1Id req.node2Id (req.value % 2 ^ 16).toNat)) }

/-- What a request leaves. -/
structure Out where
  run : RunCs
  message : Bytes
  result : Bytes
  acked : List (Nat × Nat)

/-- The port number in the messages to the other servers, a guint32. -/
def Request.portNumber (req : Request) : Nat := (req.value % 2 ^ 32).toNat

/-- `handle_set_connection_parameter_req`, from the request to the answer. -/
def handleSetConnectionParameterReq (errors : List (Option Bytes)) (run : RunCs)
    (clientNodeid : Nat) (req : Request) (ex : Nat → Exchange) : Except Stop Out := do
  let ret := checkRequest run clientNodeid req
  let (ret, acked) ←
    if ret = 0 ∧ clientNodeid ≠ 0 then sendSetConnectionParameter errors run req.portNumber ex
    else pure (ret, [])
  if ret ≠ 0 then pure ⟨run, getErrorMessage errors ret, errorStr, acked⟩
  else pure ⟨run.setPort req, [], okStr, acked⟩

/-! ## What the client relies on -/

/-- The numbers of the other servers that there is a connection to, counted from `i`
on. -/
def connectedFrom (csNodeid : Nat) (servers : List CsServer) (i : Nat) : List Nat :=
  ((servers.zipIdx i).filter fun e => e.1.nodeId ≠ csNodeid ∧ e.1.conn = true).map Prod.snd

/-- The connected cluster servers, by their number. -/
def connected (run : RunCs) : List Nat := connectedFrom run.csNodeid run.csServers 0

/-- Every connected server has acknowledged the port number. -/
def AllAcked (run : RunCs) (req : Request) (acked : List (Nat × Nat)) : Prop :=
  ∀ i ∈ connected run, (i, req.portNumber) ∈ acked

/-- The answer to a request of the client: Ok, with the port number taken over, if
every connected server has acknowledged it; an error, and no change, otherwise. -/
def Agreement (run : RunCs) (clientNodeid : Nat) (req : Request) : Except Stop Out → Prop
  | .error _ => False
  | .ok out =>
    (checkRequest run clientNodeid req = 0 ∧ AllAcked run req out.acked →
      out.result = okStr ∧ out.run = run.setPort req) ∧
    (¬ (checkRequest run clientNodeid req = 0 ∧ AllAcked run req out.acked) →
      out.result = errorStr ∧ out.run = run)

/-- The reply fits into the arrays. -/
def Exchange.Fits : Exchange → Prop
  | .reply message result => message.length < 32 ∧ result.length < maxErrorStringSize
  | _ => True

/-- The server acknowledges. -/
def Exchange.Acks : Exchange → Prop
  | .reply message result => cStr message = [] ∧ cStr result = okStr
  | _ => False

/-- The request is turned down, nobody has to be asked, or the server is the master and
the replies fit; and then no failure is followed by an acknowledgement of the last
server. -/
def Reliable (run : RunCs) (clientNodeid : Nat) (req : Request) (ex : Nat → Exchange) : Prop :=
  checkRequest run clientNodeid req ≠ 0 ∨ connected run = [] ∨
    (isCsMaster run = true ∧ (∀ i ∈ connected run, (ex i).Fits) ∧
      ((∃ i ∈ connected run, ¬ (ex i).Acks) →
        ∀ i ∈ (connected run).getLast?, ¬ (ex i).Acks))

/-! ## The loop over the servers -/

variable {errors : List (Option Bytes)} {csNodeid port : Nat} {ex : Nat → Exchange}
  {run : RunCs} {clientNodeid : Nat} {req : Request}

theorem translateErrorString_ne_zero (s : Bytes) : translateErrorString errors s ≠ 0 := by
  unfold translateErrorString
  split
  · exact Nat.succ_ne_zero _
  · decide

/-- The return code is 0 for an acknowledgement only. -/
theorem askServer_fits (errors : List (Option Bytes)) (e : Exchange) (h : e.Fits) :
    ∃ code, askServer errors e = .ok code ∧ (code = 0 ↔ e.Acks) := by
  cases e with
  | sendFails code hne => exact ⟨code, rfl, iff_of_false hne not_false⟩
  | recFails code hne => exact ⟨code, rfl, iff_of_false hne not_false⟩
  | reply message result =>
    have hroom : ¬ (32 ≤ message.length ∨ maxErrorStringSize ≤ result.length) := by
      rintro (hm | hr)
      · exact Nat.not_le.mpr h.1 hm
      · exact Nat.not_le.mpr h.2 hr
    dsimp only [askServer, Exchange.Acks]
    rw [if_neg hroom]
    split_ifs with hbad
    · refine ⟨_, rfl, iff_of_false (translateErrorString_ne_zero _) ?_⟩
      rintro ⟨hm, hr⟩
      rcases hbad with hbad | hbad
      · exact hbad hm
      · exact hbad hr
    · rw [not_or, not_not, not_not] at hbad
      exact ⟨0, rfl, iff_of_true rfl hbad⟩

theorem askServer_overflow (e : Exchange) (h : ¬ e.Fits) : askServer errors e = .error .overflow := by
  cases e with
  | sendFails code hne => exact absurd trivial h
  | recFails code hne => exact absurd trivial h
  | reply message result =>
    dsimp only [askServer, Exchange.Fits] at h ⊢
    rw [if_pos]
    omega

instance (e : Exchange) : Decidable e.Acks :=
  match e with
  | .sendFails _ _ => isFalse id
  | .recFails _ _ => isFalse id
  | .reply _ _ => instDecidableAnd

/-- The acknowledgements of these servers. -/
def acks (port : Nat) (ex : Nat → Exchange) (servers : List Nat) : List (Nat × Nat) :=
  (servers.filter fun i => (ex i).Acks).map fun i => (i, port)

theorem connectedFrom_skip {cs : CsServer} (servers : List CsServer) (i : Nat)
    (h : cs.nodeId = csNodeid ∨ cs.conn = false) :
    connectedFrom csNodeid (cs :: servers) i = connectedFrom csNodeid servers (i + 1) := by
  unfold connectedFrom
  rw [zipIdx_cons, filter_cons_of_neg]
  simp only [decide_eq_true_eq, not_and_or, not_not, Bool.not_eq_true]
  exact h

theorem connectedFrom_ask {cs : CsServer} (servers : List CsServer) (i : Nat)
    (h : ¬ (cs.nodeId = csNodeid ∨ cs.conn = false)) :
    connectedFrom csNodeid (cs :: servers) i = i :: connectedFrom csNodeid servers (i + 1) := by
  rw [not_or, Bool.not_eq_false] at h
  unfold connectedFrom
  rw [zipIdx_cons, filter_cons_of_pos, map_cons]
  simpa using h

/-- The last server that was asked decides. -/
theorem sendLoop_connected (errors : List (Option Bytes)) (port : Nat) (servers : List CsServer)
    (i ret : Nat)
    (h : ∀ j ∈ connectedFrom csNodeid servers i, (ex j).Fits) :
    ∃ ret', sendLoop errors csNodeid port ex servers i ret =
        .ok (ret', acks port ex (connectedFrom csNodeid servers i)) ∧
      (ret' = 0 ↔ match (connectedFrom csNodeid servers i).getLast? with
        | none => ret = 0
        | some j => (ex j).Acks) := by
  induction servers generalizing i ret with
  | nil => exact ⟨ret, rfl, Iff.rfl⟩
  | cons cs servers ih =>
    unfold sendLoop
    by_cases hskip : cs.nodeId = csNodeid ∨ cs.conn = false
    · rw [if_pos hskip, connectedFrom_skip servers i hskip]
      rw [connectedFrom_skip servers i hskip] at h
      exact ih (i + 1) ret h
    · rw [connectedFrom_ask servers i hskip, forall_mem_cons] at h
      rw [if_neg hskip, connectedFrom_ask servers i hskip]
      rcases askServer_fits errors (ex i) h.1 with ⟨code, hask, hcode⟩
      rcases ih (i + 1) code h.2 with ⟨ret', hloop, hret⟩
      refine ⟨ret', ?_, ?_⟩
      · rw [Result.bind_of_ok hask, Result.bind_of_ok hloop]
        unfold acks
        dsimp only
        by_cases hack : (ex i).Acks
        · rw [if_pos (hcode.mpr hack), filter_cons_of_pos (by simpa using hack)]
          rfl
        · rw [if_neg (mt hcode.mp hack), filter_cons_of_neg (by simpa using hack)]
          rfl
      · rw [hret, getLast?_cons]
        cases (connectedFrom csNodeid servers (i + 1)).getLast? with
        | none => exact hcode
        | some j => exact Iff.rfl

theorem sendLoop_overflow (servers : List CsServer) (i ret : Nat)
    (h : ¬ ∀ j ∈ connectedFrom csNodeid servers i, (ex j).Fits) :
    sendLoop errors csNodeid port ex servers i ret = .error .overflow := by
  induction servers generalizing i ret with
  | nil => exact absurd (fun _ hj => nomatch hj) h
  | cons cs servers ih =>
    unfold sendLoop
    by_cases hskip : cs.nodeId = csNodeid ∨ cs.conn = false
    · rw [connectedFrom_skip servers i hskip] at h
      rw [if_pos hskip]
      exact ih (i + 1) ret h
    · rw [connectedFrom_ask servers i hskip, forall_mem_cons, not_and_or] at h
      rw [if_neg hskip]
      by_cases hfits : (ex i).Fits
      · rcases askServer_fits errors (ex i) hfits with ⟨code, hask, -⟩
        rw [Result.bind_of_ok hask, ih (i + 1) code (h.resolve_left (not_not.mpr hfits))]
        rfl
      · rw [askServer_overflow (ex i) hfits]
        rfl

/-! ## The answer -/

theorem okStr_ne_errorStr : okStr ≠ errorStr := by decide

/-- A request that is turned down is answered with an error. -/
theorem agreement_of_refused (h : checkRequest run clientNodeid req ≠ 0) :
    Agreement run clientNodeid req (handleSetConnectionParameterReq errors run clientNodeid req ex) := by
  unfold handleSetConnectionParameterReq
  rw [if_neg fun hc => h hc.1]
  show Agreement run clientNodeid req (if checkRequest run clientNodeid req ≠ 0 then _ else _)
  rw [if_pos h]
  exact ⟨fun hc => absurd hc.1 h, fun _ => ⟨rfl, rfl⟩⟩

/-- The answer to a request that passes its checks, by the return code of the loop. -/
theorem agreement_iff_of_sent (hclient : clientNodeid ≠ 0)
    (h : checkRequest run clientNodeid req = 0) {ret : Nat} {acked : List (Nat × Nat)}
    (hsend : sendSetConnectionParameter errors run req.portNumber ex = .ok (ret, acked)) :
    Agreement run clientNodeid req (handleSetConnectionParameterReq errors run clientNodeid req ex) ↔
      (ret = 0 ↔ AllAcked run req acked) := by
  unfold handleSetConnectionParameterReq
  rw [if_pos ⟨h, hclient⟩, Result.bind_of_ok hsend]
  dsimp only
  split_ifs with hret
  · constructor
    · rintro ⟨hok, -⟩
      refine iff_of_false hret fun hall => ?_
      exact okStr_ne_errorStr (hok ⟨h, hall⟩).1.symm
    · intro hiff
      exact ⟨fun hc => absurd (hiff.mpr hc.2) hret, fun _ => ⟨rfl, rfl⟩⟩
  · rw [not_not] at hret
    constructor
    · rintro ⟨-, herror⟩
      refine iff_of_true hret ?_
      by_contra hall
      exact okStr_ne_errorStr (herror fun hc => hall hc.2).1
    · intro hiff
      exact ⟨fun _ => ⟨rfl, rfl⟩, fun hc => absurd ⟨h, hiff.mp hret⟩ hc⟩

theorem allAcked_acks :
    AllAcked run req (acks req.portNumber ex (connected run)) ↔ ∀ i ∈ connected run, (ex i).Acks := by
  unfold AllAcked acks
  constructor
  · intro h i hi
    rcases mem_map.mp (h i hi) with ⟨j, hj, heq⟩
    cases heq
    simpa using (mem_filter.mp hj).2
  · intro h i hi
    exact mem_map.mpr ⟨i, mem_filter.mpr ⟨hi, by simpa using h i hi⟩, rfl⟩

/-- The client can rely on the answer exactly if the request is turned down, nobody
has to be asked, or a master that gets replies of a proper size finds a failure also
at the last server it asks, if it finds one at all. -/
theorem port_agreement_iff (errors : List (Option Bytes)) (run : RunCs) (clientNodeid : Nat)
    (req : Request) (ex : Nat → Exchange) (hclient : clientNodeid ≠ 0) :
    Agreement run clientNodeid req (handleSetConnectionParameterReq errors run clientNodeid req ex) ↔
      Reliable run clientNodeid req ex := by
  unfold Reliable
  by_cases hcheck : checkRequest run clientNodeid req = 0
  swap
  · exact iff_of_true (agreement_of_refused hcheck) (Or.inl hcheck)
  rw [or_iff_right (not_not.mpr hcheck)]
  by_cases hmaster : isCsMaster run = true
  · have hsend : sendSetConnectionParameter errors run req.portNumber ex =
        sendLoop errors run.csNodeid req.portNumber ex run.csServers 0 0 := if_pos hmaster
    by_cases hfits : ∀ i ∈ connected run, (ex i).Fits
    · rcases sendLoop_connected errors req.portNumber run.csServers 0 0 hfits with
        ⟨ret, hloop, hret⟩
      rw [agreement_iff_of_sent hclient hcheck (hsend.trans hloop), hret, ← connected, allAcked_acks]
      cases hlast : (connected run).getLast? with
      | none =>
        have hnil : connected run = [] := List.getLast?_eq_none_iff.mp hlast
        rw [hnil]
        simp
      | some j =>
        have hj : j ∈ connected run := List.mem_of_getLast? hlast
        have hne : connected run ≠ [] := List.ne_nil_of_mem hj
        rw [or_iff_right hne, and_iff_right hmaster, and_iff_right hfits]
        constructor
        · rintro hiff ⟨i, hi, hack⟩ j' hj' hack'
          cases hj'
          exact hack (hiff.mp hack' i hi)
        · intro hlastFails
          constructor
          · intro hack i hi
            by_contra hnot
            exact hlastFails ⟨i, hi, hnot⟩ j rfl hack
          · intro hall
            exact hall j hj
    · have hover : handleSetConnectionParameterReq errors run clientNodeid req ex = .error .overflow := by
        unfold handleSetConnectionParameterReq
        rw [if_pos ⟨hcheck, hclient⟩, hsend, sendLoop_overflow _ _ _ hfits]
        rfl
      rw [hover]
      refine iff_of_false not_false ?_
      rintro (hnil | ⟨-, hall, -⟩)
      · rw [hnil] at hfits
        exact hfits fun _ hj => nomatch hj
      · exact hfits hall
  · have hsend : sendSetConnectionParameter errors run req.portNumber ex = .ok (0, []) := if_neg hmaster
    rw [agreement_iff_of_sent hclient hcheck hsend]
    constructor
    · intro hiff
      left
      by_contra hne
      rcases List.exists_mem_of_ne_nil _ hne with ⟨i, hi⟩
      exact List.not_mem_nil (hiff.mp rfl i hi)
    · rintro (hnil | ⟨hm, -⟩)
      · refine iff_of_true rfl ?_
        unfold AllAcked
        rw [hnil]
        exact fun _ hj => nomatch hj
      · exact absurd hm hmaster

/-- The master, with two other servers; the nodes 4 and 5 have a link without a fixed
port. -/
def sampleRun : RunCs where
  maxClusterId := 0
  confObjects := fun _ => some [⟨4, 5, 0, 0⟩]
  csNodeid := 1
  csServers := [⟨1, false⟩, ⟨2, true⟩, ⟨3, true⟩]
  masterCsIndex := 0

def sampleRequest : Request := ⟨0, 4, 5, 406, 1186⟩

/-- The last server does not answer in time, and the client gets an error. -/
theorem port_agreement_timeout :
    Agreement sampleRun 4 sampleRequest (handleSetConnectionParameterReq [] sampleRun 4 sampleRequest
      fun i => if i = 2 then .recFails errorReceiveTimeout (by decide) else .reply [] okStr) := by
  refine (port_agreement_iff [] sampleRun 4 sampleRequest _ (by decide)).mpr (Or.inr (Or.inr ⟨rfl, ?_, ?_⟩))
  · intro i hi
    rcases List.mem_cons.mp hi with rfl | hi
    · exact ⟨by decide, by decide⟩
    · rcases List.mem_cons.mp hi with rfl | hi
      · exact trivial
      · cases hi
  · rintro - i hi
    cases hi
    exact not_false

/-- The first server does not answer in time, the second one acknowledges: the client
is answered Ok. -/
theorem first_failure_forgotten :
    ¬ Agreement sampleRun 4 sampleRequest (handleSetConnectionParameterReq [] sampleRun 4 sampleRequest
      fun i => if i = 1 then .recFails errorReceiveTimeout (by decide) else .reply [] okStr) := by
  rintro ⟨-, h⟩
  have hacked : ¬ AllAcked sampleRun sampleRequest [(2, 1186)] := by
    intro hall
    exact absurd (hall 1 (by decide)) (by decide)
  exact absurd (h fun hc => hacked hc.2).1 okStr_ne_errorStr

end IClaustron.ClusterServer.DynamicPort
