import IClaustron.Lib.Outcome
import IClaustron.Pcntrl.ListReply
import IClaustron.Protocol.RoundTrip

/-!
# Pcntrl.StartProtocol — the start command and its four clients

Model of rec_start_message in pcntrl/ic_pcntrl.c, of start_node in cluster_mgr/ic_clmgr.c, and of
start_cluster_server, start_cluster_manager and start_data_server in bootstrap/ic_bootstrap.c, with
the replies of protocol/ic_pcntrl_proto.c. A connection is a sequence of lines.

* `start_protocol_iff` — when client and controller agree.

Scope limits: memory is there and no send fails. The values are C strings without line ends.
-/

namespace IClaustron.Pcntrl.StartProtocol

open Lib List
open Attempt hiding pure bind throw modify loop handle
open Protocol (spaceChar)

/-! ## Controller -/

def startStr : Str := ascii "start"
def autoRestartStr : Str := ascii "autorestart:"
def okStr : Str := ascii "Ok"
def processAlreadyStartedStr : Str := ascii "Process already started"
def trueStr : Str := ascii "true"
def falseStr : Str := ascii "false"

/-- What is done with the lines that are received. -/
abbrev Rec (α : Type) := Attempt (List Str) Nat α

/-- `ic_rec_with_cr`. -/
def recLine : Rec Str := fun input =>
  match recWithCr input with
  | .ok (line, rest) => .ok line rest
  | .error code => .error code input

/-- `ic_rec_simple_str_opt`: another line is put back. -/
def recSimpleStrOpt (str : Str) : Rec Bool := fun input =>
  match recLine input with
  | .ok line rest => if line = str then .ok true rest else .ok false input
  | .error code input => .error code input
  | .abort => .abort

/-- `ic_rec_simple_str`: another line is put back, and is an error. -/
def recSimpleStr (str : Str) : Rec Unit := do
  let found ← recSimpleStrOpt str
  if found then pure () else Attempt.throw protocolError

/-- `ic_rec_empty_line`. -/
def recEmptyLine : Rec Unit := recSimpleStr []

/-- `ic_rec_number`. -/
def recNumber (word : Str) : Rec Nat := do
  let line ← recLine
  match Protocol.checkBufWithInt line word with
  | some number =>
    if Protocol.maxUint32 ≤ number then Attempt.throw protocolError else pure number
  | none => Attempt.throw protocolError

/-- `ic_mc_rec_string`. -/
def mcRecString (word : Str) : Rec Str := do
  let line ← recLine
  if line.length < word.length + 1 then Attempt.throw protocolError
  else if line.take word.length ≠ word then Attempt.throw protocolError
  else pure (line.drop (Protocol.valuePos word line))

/-- `ic_rec_boolean`. -/
def recBoolean (word : Str) : Rec Bool := do
  let value ← mcRecString word
  if value = trueStr then pure true
  else if value = falseStr then pure false
  else Attempt.throw protocolError

/-- The loop of `rec_start_message`. -/
def recParameters : Nat → Rec (List Str)
  | 0 => pure []
  | n + 1 => do
    let parameter ← mcRecString parameterStr
    let parameters ← recParameters n
    pure (parameter :: parameters)

/-- `get_key`. -/
def getKey : Rec Key := do
  let gridName ← mcRecString gridStr
  let clusterName ← mcRecString clusterStr
  let nodeName ← mcRecString nodeStr
  pure ⟨gridName, clusterName, nodeName⟩

/-- `rec_start_message`, behind the line "start". -/
def recStartMessage : Rec StartMessage := do
  let programName ← mcRecString programStr
  let versionString ← mcRecString versionStr
  let key ← getKey
  let autorestart ← recBoolean autoRestartStr
  let numParameters ← recNumber numParametersStr
  let parameters ← recParameters numParameters
  recEmptyLine
  pure { key, programName, versionString, parameters, autorestart }

/-- A message of `ic_get_error_message`: it can be sent as a line. -/
structure ErrorText where
  str : Str
  fits : str.length + 1 < configReadBufSize

/-- What the controller has to say about a start. -/
inductive Reply where
  | started (pid : UInt64)
  | alreadyStarted (pid : UInt64)
  | failed (message : ErrorText)

/-- `ic_send_ok_pid`, `ic_send_ok_pid_started` and `ic_send_error_message`. -/
def Reply.lines : Reply → List Str
  | started pid => [okStr, withNumber pidStr pid.toNat, []]
  | alreadyStarted pid => [processAlreadyStartedStr, withNumber pidStr pid.toNat, []]
  | failed message => [errorStr, message.str, []]

def Reply.Running : Reply → Prop
  | started _ => True
  | alreadyStarted _ => True
  | failed _ => False

/-! ## Clients -/

/-- A C string without a line end. -/
structure Text where
  str : Str
  plain : Protocol.Plain str

/-- Parameters that can be counted by a guint32. -/
structure Parameters where
  list : List Text
  count : list.length < 2 ^ 32

/-- The command line of the bootstrap program. `debugBuild` is DEBUG_BUILD. -/
structure Options where
  debugBuild : Bool
  debug : UInt32
  debugTimestamp : UInt32
  core : UInt32

/-- The arguments of a client. -/
inductive Client where
  | startNode (program version grid cluster node : Text) (autorestart : Bool)
      (parameters : Parameters)
  | startClusterServer (cluster : Text) (nodeId : UInt32)
  | startClusterManager (cluster : Text) (nodeId : UInt32) (hostname : Text) (port : UInt32)
      (connectString : Text)
  | startDataServer (cluster : Text) (nodeId : UInt32) (connectString : Text)

def icVersionStr : Str := ascii "iclaustron-0.0.1"
def mysqlVersionString : Str := ascii "mysql-cluster-gpl-8.0.20"
def icGridStr : Str := ascii "grid"
def clusterServerProgramStr : Str := ascii "ic_csd"
def clusterManagerProgramStr : Str := ascii "ic_clmgrd"
def dataServerProgramStr : Str := ascii "ndbmtd"
def nodeIdStr : Str := ascii "--node-id"
def ndbNodeIdStr : Str := ascii "--ndb-nodeid"
def serverNameStr : Str := ascii "--server-name"
def serverPortStr : Str := ascii "--server-port"
def csConnectstringStr : Str := ascii "--cs-connectstring"
def ndbConnectstringStr : Str := ascii "--ndb-connectstring"
def coreParameterStr : Str := ascii "--core"
def debugLevelStr : Str := ascii "--debug-level"
def debugTimestampStr : Str := ascii "--debug-timestamp"

/-- `ic_send_start_info` of the API. -/
def icSendStartInfo (program version grid cluster node : Str) : List Str :=
  [twoStrings programStr program, twoStrings versionStr version, twoStrings gridStr grid,
    twoStrings clusterStr cluster, twoStrings nodeStr node]

/-- `send_start_info` of the bootstrap program. -/
def sendStartInfo (node cluster program : Str) (isIclaustron : Bool) : List Str :=
  [startStr, twoStrings programStr program,
    twoStrings versionStr (if isIclaustron then icVersionStr else mysqlVersionString),
    twoStrings gridStr icGridStr, twoStrings clusterStr cluster, twoStrings nodeStr node,
    twoStrings autoRestartStr falseStr]

/-- `ic_send_debug_level`. -/
def sendDebugLevel (o : Options) : List Str :=
  (if o.debugBuild ∧ o.debug ≠ 0 then
    [twoStrings parameterStr debugLevelStr, withNumber parameterStr o.debug.toNat] ++
    (if o.debugTimestamp ≠ 0 then
      [twoStrings parameterStr debugTimestampStr, withNumber parameterStr o.debugTimestamp.toNat]
    else [])
  else []) ++
  (if o.core ≠ 0 then
    [twoStrings parameterStr coreParameterStr, withNumber parameterStr o.core.toNat]
  else [])

/-- `get_debug_params`. -/
def getDebugParams (o : Options) : Nat :=
  (if o.core ≠ 0 then 2 else 0) +
  (if o.debugBuild ∧ o.debug ≠ 0 then (if o.debugTimestamp ≠ 0 then 4 else 2) else 0)

/-- The lines of the start message. `start_node` sends its parameters as they are. -/
def Client.lines (o : Options) : Client → List Str
  | startNode program version grid cluster node autorestart parameters =>
    startStr :: icSendStartInfo program.str version.str grid.str cluster.str node.str ++
      [twoStrings autoRestartStr (if autorestart then trueStr else falseStr),
        withNumber numParametersStr parameters.list.length] ++
      parameters.list.map (fun p => cStr p.str) ++ [[]]
  | startClusterServer cluster nodeId =>
    sendStartInfo (guint64Str nodeId.toNat) cluster.str clusterServerProgramStr true ++
      [withNumber numParametersStr (getDebugParams o + 2)] ++ sendDebugLevel o ++
      [twoStrings parameterStr nodeIdStr, withNumber parameterStr nodeId.toNat, []]
  | startClusterManager cluster nodeId hostname port connectString =>
    sendStartInfo (guint64Str nodeId.toNat) cluster.str clusterManagerProgramStr true ++
      [withNumber numParametersStr (getDebugParams o + 8)] ++ sendDebugLevel o ++
      [twoStrings parameterStr nodeIdStr, withNumber parameterStr nodeId.toNat,
        twoStrings parameterStr serverNameStr, twoStrings parameterStr hostname.str,
        twoStrings parameterStr serverPortStr, withNumber parameterStr port.toNat,
        twoStrings parameterStr csConnectstringStr, twoStrings parameterStr connectString.str, []]
  | startDataServer cluster nodeId connectString =>
    sendStartInfo (guint64Str nodeId.toNat) cluster.str dataServerProgramStr false ++
      [withNumber numParametersStr 4] ++
      [twoStrings parameterStr ndbNodeIdStr, withNumber parameterStr nodeId.toNat,
        twoStrings parameterStr ndbConnectstringStr, twoStrings parameterStr connectString.str, []]

/-- IC_ERROR_FAILED_TO_START_PROCESS. -/
def errorFailedToStartProcess : Nat := 7098
/-- IC_ERROR_TOO_LARGE_ERROR_MESSAGE. -/
def errorTooLargeErrorMessage : Nat := 7097
/-- IC_MAX_ERROR_STRING_SIZE. -/
def maxErrorStringSize : Nat := 256

/-- `ic_receive_error_message`. -/
def receiveErrorMessage : Rec Str := do
  recSimpleStr errorStr
  let message ← recLine
  if message.length ≥ maxErrorStringSize then Attempt.throw errorTooLargeErrorMessage
  else do
    recEmptyLine
    pure message

/-- The error branch of the bootstrap clients: the message is printed if there is one. -/
def recFailed : Rec Bool := fun input =>
  match receiveErrorMessage input with
  | .ok _ rest => .error errorFailedToStartProcess rest
  | .error _ rest => .error errorFailedToStartProcess rest
  | .abort => .abort

/-- The pid and the empty line; then success is reported. -/
def recPid : Rec Bool := do
  let _ ← recNumber pidStr
  recEmptyLine
  pure true

/-- The reply in `start_cluster_server` and `start_data_server`. -/
def recStartReply : Rec Bool := do
  let found ← recSimpleStrOpt okStr
  if found then recPid
  else do
    let found ← recSimpleStrOpt processAlreadyStartedStr
    if found then recPid else recFailed

/-- The reply in `start_cluster_manager`. -/
def recManagerReply : Rec Bool := do
  let found ← recSimpleStrOpt okStr
  if found then recPid else recFailed

/-- `ic_check_buf` is TRUE when the line is another one. -/
def checkBuf (line str : Str) : Bool := line ≠ str

/-- The reply in `start_node`. -/
def recNodeReply : Rec Bool := do
  let line ← recLine
  if checkBuf line okStr then recPid
  else if checkBuf line errorStr then do
    let _ ← recLine
    recEmptyLine
    pure false
  else Attempt.throw protocolError

/-- What a client makes of the reply: whether it reports success. -/
def Client.receive : Client → Rec Bool
  | startNode .. => recNodeReply
  | startClusterServer .. => recStartReply
  | startClusterManager .. => recManagerReply
  | startDataServer .. => recStartReply

/-! ## Agreement -/

/-- The parameters that the options of the bootstrap program add. -/
def debugParameters (o : Options) : List Str :=
  (if o.debugBuild ∧ o.debug ≠ 0 then
    [debugLevelStr, guint64Str o.debug.toNat] ++
    (if o.debugTimestamp ≠ 0 then [debugTimestampStr, guint64Str o.debugTimestamp.toNat] else [])
  else []) ++
  (if o.core ≠ 0 then [coreParameterStr, guint64Str o.core.toNat] else [])

/-- What a client wants to be started. -/
def Client.request (o : Options) : Client → StartMessage
  | startNode program version grid cluster node autorestart parameters =>
    { key := ⟨grid.str, cluster.str, node.str⟩
      programName := program.str
      versionString := version.str
      parameters := parameters.list.map Text.str
      autorestart }
  | startClusterServer cluster nodeId =>
    { key := ⟨icGridStr, cluster.str, guint64Str nodeId.toNat⟩
      programName := clusterServerProgramStr
      versionString := icVersionStr
      parameters := debugParameters o ++ [nodeIdStr, guint64Str nodeId.toNat]
      autorestart := false }
  | startClusterManager cluster nodeId hostname port connectString =>
    { key := ⟨icGridStr, cluster.str, guint64Str nodeId.toNat⟩
      programName := clusterManagerProgramStr
      versionString := icVersionStr
      parameters := debugParameters o ++
        [nodeIdStr, guint64Str nodeId.toNat, serverNameStr, hostname.str, serverPortStr,
          guint64Str port.toNat, csConnectstringStr, connectString.str]
      autorestart := false }
  | startDataServer cluster nodeId connectString =>
    { key := ⟨icGridStr, cluster.str, guint64Str nodeId.toNat⟩
      programName := dataServerProgramStr
      versionString := mysqlVersionString
      parameters :=
        [ndbNodeIdStr, guint64Str nodeId.toNat, ndbConnectstringStr, connectString.str]
      autorestart := false }

/-- The message is sent, and the controller takes all of it for this request. -/
def Accepted (o : Options) (c : Client) : Prop :=
  ∃ lines, sendLines (c.lines o) = .ok (startStr :: lines) ∧
    ∀ rest, recStartMessage (lines ++ rest) = .ok (c.request o) rest

/-- The client takes all of the reply, and reports success when the process is running. -/
def Handled (c : Client) (reply : Reply) : Prop :=
  ∀ rest, (∃ success, c.receive (reply.lines ++ rest) = .ok success rest ∧
      (success = true ↔ reply.Running)) ∨
    ∃ code, c.receive (reply.lines ++ rest) = .error code rest ∧ ¬reply.Running

def Agree (o : Options) (c : Client) (reply : Reply) : Prop := Accepted o c ∧ Handled c reply

/-- Every line can be sent. -/
def Fits (o : Options) (c : Client) : Prop :=
  ∀ line ∈ c.lines o, line.length + 1 < configReadBufSize

/-- `start_node` has no parameters to send. -/
def NoParameters : Client → Prop
  | .startNode _ _ _ _ _ _ parameters => parameters.list = []
  | _ => True

/-- The replies that a client understands. -/
def Understands : Client → Reply → Prop
  | .startNode .., .alreadyStarted pid => pid.toNat < Protocol.maxUint32
  | .startNode .., _ => False
  | .startClusterManager .., .alreadyStarted _ => False
  | _, .started pid => pid.toNat < Protocol.maxUint32
  | _, .alreadyStarted pid => pid.toNat < Protocol.maxUint32
  | _, .failed _ => True

/-! ## Lines -/

variable {word line str : Str} {rest : List Str}

section

variable (hLine : line.length < configReadBufSize)

include hLine

theorem recLine_cons : recLine (line :: rest) = .ok line rest := by
  unfold recLine
  rw [recWithCr_fits hLine]

theorem recSimpleStrOpt_cons :
    recSimpleStrOpt str (line :: rest) =
      if line = str then .ok true rest else .ok false (line :: rest) := by
  unfold recSimpleStrOpt
  rw [recLine_cons hLine]

theorem recSimpleStr_cons :
    recSimpleStr str (line :: rest) =
      if line = str then .ok () rest else .error protocolError (line :: rest) := by
  unfold recSimpleStr
  have hOpt : recSimpleStrOpt str (line :: rest) = _ := recSimpleStrOpt_cons hLine
  split_ifs at hOpt ⊢
  · rw [bind_of_ok hOpt]
    rfl
  · rw [bind_of_ok hOpt]
    rfl

end

theorem recEmptyLine_cons : recEmptyLine ([] :: rest) = .ok () rest :=
  (recSimpleStr_cons (by decide)).trans (if_pos rfl)

theorem mcRecString_keyLine (hLine : (keyLine word str).length < configReadBufSize) :
    mcRecString word (keyLine word str :: rest) = .ok str rest := by
  unfold mcRecString
  have hSpaced : keyLine word str = word ++ spaceChar :: str := rfl
  rw [bind_of_ok (recLine_cons hLine), hSpaced, if_neg (Protocol.spaced_long word str),
    if_neg (Protocol.take_spaced word str)]
  exact congrArg (Outcome.ok · rest) (Protocol.drop_valuePos word str)

variable {n : Nat} {receive : Rec Bool} {reply : Reply} {m : StartMessage}
  {parameterLines : List Str}

theorem checkBufWithInt_withNumber (hn : n < 2 ^ 64) :
    Protocol.checkBufWithInt (withNumber word n) word = some n :=
  Protocol.checkBufWithInt_spaced hn

theorem recNumber_withNumber (rest : List Str) (hn : n < 2 ^ 64)
    (hLine : (withNumber word n).length < configReadBufSize) :
    recNumber word (withNumber word n :: rest) =
      if Protocol.maxUint32 ≤ n then .error protocolError rest else .ok n rest := by
  unfold recNumber
  rw [bind_of_ok (recLine_cons hLine), checkBufWithInt_withNumber hn]
  dsimp only
  split_ifs
  · rfl
  · rfl

/-- One line is read, whatever it says. -/
theorem recNumber_cons (word : Str) (rest : List Str) (hLine : line.length < configReadBufSize) :
    (∃ n, recNumber word (line :: rest) = .ok n rest) ∨
      ∃ code, recNumber word (line :: rest) = .error code rest := by
  unfold recNumber
  rw [bind_of_ok (recLine_cons hLine)]
  cases Protocol.checkBufWithInt line word with
  | none => exact .inr ⟨_, rfl⟩
  | some number =>
    dsimp only
    split_ifs
    · exact .inr ⟨_, rfl⟩
    · exact .inl ⟨number, rfl⟩

theorem recBoolean_keyLine {b : Bool}
    (hLine : (keyLine word (if b then trueStr else falseStr)).length < configReadBufSize) :
    recBoolean word (keyLine word (if b then trueStr else falseStr) :: rest) = .ok b rest := by
  unfold recBoolean
  rw [bind_of_ok (mcRecString_keyLine hLine)]
  cases b
  · rfl
  · rfl

theorem length_withNumber (hWord : word.length + 21 < configReadBufSize) (hn : n < 2 ^ 64) :
    (withNumber word n).length < configReadBufSize := by
  have hDigits : (guint64Str n).length ≤ 20 :=
    Protocol.length_guint64Str_le (by decide) (hn.trans (by decide))
  unfold withNumber
  rw [length_append, length_cons]
  omega

theorem length_withNumber_pid (pid : UInt64) :
    (withNumber pidStr pid.toNat).length < configReadBufSize :=
  length_withNumber (by decide) pid.toNat_lt

/-! ## Replies -/

theorem recPid_lines (pid : UInt64) :
    recPid (withNumber pidStr pid.toNat :: [] :: rest) =
      if Protocol.maxUint32 ≤ pid.toNat then .error protocolError ([] :: rest)
      else .ok true rest := by
  have hNumber := recNumber_withNumber ([] :: rest) pid.toNat_lt (length_withNumber_pid pid)
  unfold recPid
  split_ifs at hNumber ⊢
  · rw [bind_of_error hNumber]
  · rw [bind_of_ok hNumber, bind_of_ok recEmptyLine_cons]
    rfl

/-- An error message is read to its end. -/
theorem recFailed_lines (message : ErrorText) :
    recFailed (errorStr :: message.str :: [] :: rest) = .error errorFailedToStartProcess rest := by
  have hLine : message.str.length < configReadBufSize := Nat.lt_of_succ_lt message.fits
  have hSize : ¬message.str.length ≥ maxErrorStringSize := Nat.not_le.mpr hLine
  have hReceive : receiveErrorMessage (errorStr :: message.str :: [] :: rest) =
      .ok message.str rest := by
    unfold receiveErrorMessage
    rw [bind_of_ok ((recSimpleStr_cons (by decide)).trans (if_pos rfl)),
      bind_of_ok (recLine_cons hLine), if_neg hSize, bind_of_ok recEmptyLine_cons]
    rfl
  unfold recFailed
  rw [hReceive]

/-- A reply that is no error message is not read at all. -/
theorem recFailed_other (hLine : line.length < configReadBufSize) (hne : line ≠ errorStr) :
    recFailed (line :: rest) = .error errorFailedToStartProcess (line :: rest) := by
  have hReceive : receiveErrorMessage (line :: rest) = .error protocolError (line :: rest) :=
    bind_of_error ((recSimpleStr_cons hLine).trans (if_neg hne))
  unfold recFailed
  rw [hReceive]

theorem started_lines (pid : UInt64) :
    (Reply.started pid).lines ++ rest = okStr :: withNumber pidStr pid.toNat :: [] :: rest := rfl

theorem alreadyStarted_lines (pid : UInt64) :
    (Reply.alreadyStarted pid).lines ++ rest =
      processAlreadyStartedStr :: withNumber pidStr pid.toNat :: [] :: rest := rfl

theorem failed_lines (message : ErrorText) :
    (Reply.failed message).lines ++ rest = errorStr :: message.str :: [] :: rest := rfl

/-- What a receiver makes of a reply. -/
def Takes (receive : Rec Bool) (reply : Reply) : Prop :=
  ∀ rest, (∃ success, receive (reply.lines ++ rest) = .ok success rest ∧
      (success = true ↔ reply.Running)) ∨
    ∃ code, receive (reply.lines ++ rest) = .error code rest ∧ ¬reply.Running

theorem takes_of_ok (hRunning : reply.Running)
    (hReceive : ∀ rest, receive (reply.lines ++ rest) = .ok true rest) : Takes receive reply :=
  fun rest => .inl ⟨true, hReceive rest, fun _ => hRunning, fun _ => rfl⟩

/-- Success is not reported, or something is left. -/
theorem not_takes_of_error (code : Nat) (input : List Str)
    (hReceive : receive (reply.lines ++ []) = .error code input)
    (hWrong : reply.Running ∨ input ≠ []) : ¬Takes receive reply := by
  intro hTakes
  rcases hTakes [] with ⟨success, hOk, -⟩ | ⟨code', hError, hNot⟩
  · rw [hReceive] at hOk
    cases hOk
  · rw [hReceive] at hError
    cases hError
    rcases hWrong with hRunning | hInput
    · exact hNot hRunning
    · exact hInput rfl

/-- The pid decides, where the reply is understood. -/
theorem takes_pid_iff (pid : UInt64) (hRunning : reply.Running)
    (hReceive : ∀ rest, receive (reply.lines ++ rest) =
      recPid (withNumber pidStr pid.toNat :: [] :: rest)) :
    Takes receive reply ↔ pid.toNat < Protocol.maxUint32 := by
  by_cases hMax : Protocol.maxUint32 ≤ pid.toNat
  · refine iff_of_false ?_ (Nat.not_lt.mpr hMax)
    refine not_takes_of_error protocolError [[]] ?_ (.inl hRunning)
    rw [hReceive, recPid_lines, if_pos hMax]
  · refine iff_of_true ?_ (Nat.lt_of_not_le hMax)
    refine takes_of_ok hRunning fun rest => ?_
    rw [hReceive, recPid_lines, if_neg hMax]

theorem takes_failed (message : ErrorText)
    (hReceive : ∀ rest, receive ((Reply.failed message).lines ++ rest) =
      recFailed (errorStr :: message.str :: [] :: rest)) : Takes receive (.failed message) := by
  intro rest
  right
  rw [hReceive, recFailed_lines]
  exact ⟨_, rfl, not_false⟩

/-- `start_cluster_server` and `start_data_server` understand every reply. -/
theorem takes_recStartReply (reply : Reply) :
    Takes recStartReply reply ↔ match reply with
      | .started pid => pid.toNat < Protocol.maxUint32
      | .alreadyStarted pid => pid.toNat < Protocol.maxUint32
      | .failed _ => True := by
  have hOther : ∀ {line : Str} {rest : List Str}, line.length < configReadBufSize → line ≠ okStr →
      recStartReply (line :: rest) =
        if line = processAlreadyStartedStr then recPid rest else recFailed (line :: rest) := by
    intro line rest hLine hne
    unfold recStartReply
    rw [bind_of_ok ((recSimpleStrOpt_cons hLine).trans (if_neg hne)), if_neg (by decide)]
    have hOpt : recSimpleStrOpt processAlreadyStartedStr (line :: rest) = _ :=
      recSimpleStrOpt_cons hLine
    split_ifs at hOpt ⊢
    · rw [bind_of_ok hOpt]
      rfl
    · rw [bind_of_ok hOpt]
      rfl
  cases reply with
  | started pid =>
    refine takes_pid_iff pid trivial fun rest => ?_
    rw [started_lines]
    exact bind_of_ok ((recSimpleStrOpt_cons (by decide)).trans (if_pos rfl))
  | alreadyStarted pid =>
    refine takes_pid_iff pid trivial fun rest => ?_
    rw [alreadyStarted_lines, hOther (by decide) (by decide), if_pos rfl]
  | failed message =>
    refine iff_of_true (takes_failed message fun rest => ?_) trivial
    rw [failed_lines, hOther (by decide) (by decide), if_neg (by decide)]

/-- `start_cluster_manager` does not know that a process may be there already. -/
theorem takes_recManagerReply (reply : Reply) :
    Takes recManagerReply reply ↔ match reply with
      | .started pid => pid.toNat < Protocol.maxUint32
      | .alreadyStarted _ => False
      | .failed _ => True := by
  have hOther : ∀ {line : Str} {rest : List Str}, line.length < configReadBufSize → line ≠ okStr →
      recManagerReply (line :: rest) = recFailed (line :: rest) := fun hLine hne =>
    bind_of_ok ((recSimpleStrOpt_cons hLine).trans (if_neg hne))
  cases reply with
  | started pid =>
    refine takes_pid_iff pid trivial fun rest => ?_
    rw [started_lines]
    exact bind_of_ok ((recSimpleStrOpt_cons (by decide)).trans (if_pos rfl))
  | alreadyStarted pid =>
    refine iff_of_false ?_ not_false
    refine not_takes_of_error errorFailedToStartProcess
      ((Reply.alreadyStarted pid).lines ++ []) ?_ (.inl trivial)
    rw [alreadyStarted_lines, hOther (by decide) (by decide),
      recFailed_other (by decide) (by decide)]
  | failed message =>
    refine iff_of_true (takes_failed message fun rest => ?_) trivial
    rw [failed_lines, hOther (by decide) (by decide)]

/-- `start_node` takes "Ok" for an error, and everything else for "Ok". -/
theorem takes_recNodeReply (reply : Reply) :
    Takes recNodeReply reply ↔ match reply with
      | .alreadyStarted pid => pid.toNat < Protocol.maxUint32
      | _ => False := by
  have hOther : ∀ {line : Str} {rest : List Str}, line.length < configReadBufSize → line ≠ okStr →
      recNodeReply (line :: rest) = recPid rest := by
    intro line rest hLine hne
    unfold recNodeReply
    have hCheck : checkBuf line okStr = true := decide_eq_true hne
    rw [bind_of_ok (recLine_cons hLine), if_pos hCheck]
  cases reply with
  | started pid =>
    refine iff_of_false ?_ not_false
    have hReceive : recNodeReply ((Reply.started pid).lines ++ []) = .ok false [] := by
      unfold recNodeReply
      rw [started_lines, bind_of_ok (recLine_cons (by decide)), if_neg (by decide),
        if_pos (by decide), bind_of_ok (recLine_cons (length_withNumber_pid pid)),
        bind_of_ok recEmptyLine_cons]
      rfl
    intro hTakes
    rcases hTakes [] with ⟨success, hOk, hIff⟩ | ⟨code, hError, -⟩
    · rw [hReceive] at hOk
      cases hOk
      exact absurd (hIff.mpr trivial) (by decide)
    · rw [hReceive] at hError
      cases hError
  | alreadyStarted pid =>
    refine takes_pid_iff pid trivial fun rest => ?_
    rw [alreadyStarted_lines, hOther (by decide) (by decide)]
  | failed message =>
    refine iff_of_false ?_ not_false
    -- the message is read as a line with a pid
    have hReceive : recNodeReply ((Reply.failed message).lines ++ []) =
        recPid (message.str :: [[]]) := by
      rw [failed_lines, hOther (by decide) (by decide)]
    have hLine : message.str.length < configReadBufSize := Nat.lt_of_succ_lt message.fits
    intro hTakes
    rcases hTakes [] with ⟨success, hOk, hIff⟩ | ⟨code, hError, -⟩
    · rw [hReceive] at hOk
      obtain ⟨_, _, -, hOk⟩ := bind_eq_ok.mp hOk
      obtain ⟨_, _, -, hOk⟩ := bind_eq_ok.mp hOk
      obtain ⟨rfl, -⟩ := pure_eq_ok.mp hOk
      exact hIff.mp rfl
    · rw [hReceive] at hError
      rcases recNumber_cons pidStr [[]] hLine with
        ⟨n, hNumber⟩ | ⟨code', hNumber⟩
      · unfold recPid at hError
        rw [bind_of_ok hNumber, bind_of_ok recEmptyLine_cons] at hError
        cases hError
      · unfold recPid at hError
        rw [bind_of_error hNumber] at hError
        cases hError

theorem handled_iff (c : Client) (reply : Reply) : Handled c reply ↔ Understands c reply := by
  cases c with
  | startNode program version grid cluster node autorestart parameters =>
    exact (takes_recNodeReply reply).trans (by cases reply <;> rfl)
  | startClusterServer cluster nodeId | startDataServer cluster nodeId connectString =>
    exact (takes_recStartReply reply).trans (by cases reply <;> rfl)
  | startClusterManager cluster nodeId hostname port connectString =>
    exact (takes_recManagerReply reply).trans (by cases reply <;> rfl)

/-! ## Start messages -/

/-- A start message behind its first line, with this number and these lines of parameters. -/
def body (m : StartMessage) (numParameters : Nat) (parameterLines : List Str) : List Str :=
  [keyLine programStr m.programName, keyLine versionStr m.versionString,
    keyLine gridStr m.key.gridName, keyLine clusterStr m.key.clusterName,
    keyLine nodeStr m.key.nodeName,
    keyLine autoRestartStr (if m.autorestart then trueStr else falseStr),
    withNumber numParametersStr numParameters] ++ parameterLines ++ [[]]

/-- The lines of a start message up to the number of parameters, which is the second result. -/
def recHeader : Rec (StartMessage × Nat) := do
  let programName ← mcRecString programStr
  let versionString ← mcRecString versionStr
  let key ← getKey
  let autorestart ← recBoolean autoRestartStr
  let numParameters ← recNumber numParametersStr
  pure ({ key, programName, versionString, parameters := [], autorestart }, numParameters)

theorem recStartMessage_eq : recStartMessage = (do
    let (message, numParameters) ← recHeader
    let parameters ← recParameters numParameters
    recEmptyLine
    pure { message with parameters }) := by
  unfold recStartMessage recHeader
  simp only [bind_assoc, pure_bind]

/-- The fields are read, and the number of parameters is next. -/
theorem recHeader_fields
    (hShort : ∀ line ∈ body m n parameterLines, line.length < configReadBufSize) :
    recHeader (body m n parameterLines ++ rest) =
      (do
        let numParameters ← recNumber numParametersStr
        pure ({ m with parameters := [] }, numParameters))
        (withNumber numParametersStr n :: (parameterLines ++ [] :: rest)) := by
  unfold body at hShort ⊢
  simp only [cons_append, nil_append, forall_mem_cons] at hShort ⊢
  obtain ⟨hProgram, hVersion, hGrid, hCluster, hNode, hAuto, -⟩ := hShort
  have hKey : ∀ rest, getKey (keyLine gridStr m.key.gridName ::
      keyLine clusterStr m.key.clusterName :: keyLine nodeStr m.key.nodeName :: rest) =
      .ok m.key rest := by
    intro rest
    unfold getKey
    rw [bind_of_ok (mcRecString_keyLine hGrid),
      bind_of_ok (mcRecString_keyLine hCluster),
      bind_of_ok (mcRecString_keyLine hNode)]
    rfl
  unfold recHeader
  rw [bind_of_ok (mcRecString_keyLine hProgram),
    bind_of_ok (mcRecString_keyLine hVersion), bind_of_ok (hKey _),
    bind_of_ok (recBoolean_keyLine hAuto), append_assoc, singleton_append]

theorem mem_body : withNumber numParametersStr n ∈ body m n parameterLines := by
  simp [body]

/-- The other lines of the message end where its parameters begin. -/
theorem recHeader_body (hn : n < Protocol.maxUint32)
    (hShort : ∀ line ∈ body m n parameterLines, line.length < configReadBufSize) :
    recHeader (body m n parameterLines ++ rest) =
      .ok ({ m with parameters := [] }, n) (parameterLines ++ [] :: rest) := by
  have hNumber := recNumber_withNumber (parameterLines ++ [] :: rest)
    (hn.trans (by decide)) (hShort _ mem_body)
  rw [recHeader_fields hShort, bind_of_ok (hNumber.trans (if_neg (Nat.not_le.mpr hn)))]
  rfl

/-- The parameters of the message are read where the other lines end. -/
theorem recStartMessage_head (hn : n < Protocol.maxUint32)
    (hShort : ∀ line ∈ body m n parameterLines, line.length < configReadBufSize) :
    recStartMessage (body m n parameterLines ++ rest) =
      (do
        let parameters ← recParameters n
        recEmptyLine
        pure { m with parameters }) (parameterLines ++ [] :: rest) := by
  rw [recStartMessage_eq, bind_of_ok (recHeader_body hn hShort)]

/-- A number of parameters that is too high. -/
theorem recStartMessage_many (hn : Protocol.maxUint32 ≤ n) (hLt : n < 2 ^ 64)
    (hShort : ∀ line ∈ body m n parameterLines, line.length < configReadBufSize) :
    recStartMessage (body m n parameterLines ++ rest) =
      .error protocolError (parameterLines ++ [] :: rest) := by
  have hNumber := recNumber_withNumber (parameterLines ++ [] :: rest) hLt
    (hShort _ mem_body)
  have hHeader : recHeader (body m n parameterLines ++ rest) =
      .error protocolError (parameterLines ++ [] :: rest) := by
    rw [recHeader_fields hShort, bind_of_error (hNumber.trans (if_pos hn))]
  rw [recStartMessage_eq, bind_of_error hHeader]

theorem recParameters_keyLines {parameters : List Str}
    (hShort : ∀ p ∈ parameters, (keyLine parameterStr p).length < configReadBufSize) :
    recParameters parameters.length (parameters.map (keyLine parameterStr) ++ rest) =
      .ok parameters rest := by
  induction parameters with
  | nil => rfl
  | cons p parameters ih =>
    rw [forall_mem_cons] at hShort
    rw [map_cons, cons_append, length_cons, recParameters,
      bind_of_ok (mcRecString_keyLine hShort.1), bind_of_ok (ih hShort.2)]
    rfl

/-- A message with a parameter line for each parameter is accepted. -/
theorem recStartMessage_body (hn : m.parameters.length < Protocol.maxUint32)
    (hShort : ∀ line ∈ body m m.parameters.length (m.parameters.map (keyLine parameterStr)),
      line.length < configReadBufSize) :
    recStartMessage (body m m.parameters.length (m.parameters.map (keyLine parameterStr)) ++ rest) =
      .ok m rest := by
  have hParameters : ∀ p ∈ m.parameters, (keyLine parameterStr p).length < configReadBufSize :=
    fun p hp => hShort _ (by simp [body, mem_map_of_mem hp])
  rw [recStartMessage_head hn hShort, bind_of_ok (recParameters_keyLines hParameters),
    bind_of_ok recEmptyLine_cons]
  rfl

/-- A parameter without its key word is not received as it was sent. -/
theorem mcRecString_ne_self {s : List Str} (hWord : word ≠ []) :
    mcRecString word (line :: rest) ≠ .ok line s := by
  intro hOk
  unfold mcRecString at hOk
  obtain ⟨line', s', hLine, hOk⟩ := bind_eq_ok.mp hOk
  unfold recLine recWithCr at hLine
  dsimp only at hLine
  split_ifs at hLine
  · cases hLine
    split_ifs at hOk
    · exact throw_eq_ok.mp hOk
    · exact throw_eq_ok.mp hOk
    · obtain ⟨hSame, -⟩ := pure_eq_ok.mp hOk
      have hLength := congrArg List.length hSame
      have hPos : 0 < Protocol.valuePos word line := by
        unfold Protocol.valuePos
        have hWordPos := length_pos_of_ne_nil hWord
        split_ifs
        · exact Nat.succ_pos _
        · exact hWordPos
      rw [length_drop] at hLength
      omega

/-! ## Clients and controller -/

variable {o : Options}

theorem Text.noNul (s : Text) : 0 ∉ s.str := s.plain.2

theorem twoStrings_text (word : Str) (s : Text) : twoStrings word s.str = keyLine word s.str := by
  unfold twoStrings keyLine
  rw [cStr_of_no_nul s.noNul]

theorem twoStrings_number (word : Str) (n : Nat) :
    twoStrings word (guint64Str n) = keyLine word (guint64Str n) :=
  twoStrings_text word ⟨guint64Str n, Protocol.plain_guint64Str n⟩

theorem twoStrings_const {word str : Str} (h : 0 ∉ str) : twoStrings word str = keyLine word str :=
  congrArg (fun s => word ++ 32 :: s) (cStr_of_no_nul h)

theorem withNumber_eq (word : Str) (n : Nat) :
    withNumber word n = keyLine word (guint64Str n) := rfl

theorem sendDebugLevel_eq (o : Options) :
    sendDebugLevel o = (debugParameters o).map (keyLine parameterStr) := by
  have hDebug : twoStrings parameterStr debugLevelStr = keyLine parameterStr debugLevelStr :=
    twoStrings_const (by decide)
  have hTimestamp : twoStrings parameterStr debugTimestampStr =
      keyLine parameterStr debugTimestampStr := twoStrings_const (by decide)
  have hCore : twoStrings parameterStr coreParameterStr = keyLine parameterStr coreParameterStr :=
    twoStrings_const (by decide)
  unfold sendDebugLevel debugParameters
  rw [hDebug, hTimestamp, hCore]
  split_ifs <;> rfl

/-- The announced number of debug parameters is right. -/
theorem length_debugParameters (o : Options) : (debugParameters o).length = getDebugParams o := by
  unfold debugParameters getDebugParams
  split_ifs <;> rfl

theorem sendStartInfo_eq {cluster program : Str} (nodeId : Nat) (isIclaustron : Bool)
    (hCluster : 0 ∉ cluster) (hProgram : 0 ∉ program) :
    sendStartInfo (guint64Str nodeId) cluster program isIclaustron =
      [startStr, keyLine programStr program,
        keyLine versionStr (if isIclaustron then icVersionStr else mysqlVersionString),
        keyLine gridStr icGridStr, keyLine clusterStr cluster,
        keyLine nodeStr (guint64Str nodeId), keyLine autoRestartStr falseStr] := by
  unfold sendStartInfo
  rw [twoStrings_const hProgram, twoStrings_const hCluster, twoStrings_number]
  cases isIclaustron
  · rfl
  · rfl

/-- Without parameters that are sent as they are, every parameter has its line. -/
theorem lines_of_noParameters {c : Client} (h : NoParameters c) :
    c.lines o = startStr :: body (c.request o) (c.request o).parameters.length
      ((c.request o).parameters.map (keyLine parameterStr)) := by
  cases c with
  | startNode program version grid cluster node autorestart parameters =>
    obtain ⟨parameters, hCount⟩ := parameters
    obtain rfl : parameters = [] := h
    simp only [Client.lines, icSendStartInfo, twoStrings_text]
    rw [twoStrings_const (show 0 ∉ if autorestart then trueStr else falseStr from ?_)]
    · rfl
    · cases autorestart
      · decide
      · decide
  | startClusterServer cluster nodeId =>
    simp only [Client.lines, Client.request, body]
    rw [sendStartInfo_eq nodeId.toNat true cluster.noNul (by decide), sendDebugLevel_eq,
      twoStrings_const (show 0 ∉ nodeIdStr by decide), length_append, length_debugParameters,
      map_append]
    simp [withNumber_eq]
  | startClusterManager cluster nodeId hostname port connectString =>
    simp only [Client.lines, Client.request, body]
    rw [sendStartInfo_eq nodeId.toNat true cluster.noNul (by decide), sendDebugLevel_eq,
      twoStrings_const (show 0 ∉ nodeIdStr by decide),
      twoStrings_const (show 0 ∉ serverNameStr by decide),
      twoStrings_const (show 0 ∉ serverPortStr by decide),
      twoStrings_const (show 0 ∉ csConnectstringStr by decide),
      twoStrings_text parameterStr hostname, twoStrings_text parameterStr connectString,
      length_append, length_debugParameters, map_append]
    simp [withNumber_eq]
  | startDataServer cluster nodeId connectString =>
    simp only [Client.lines, Client.request, body]
    rw [sendStartInfo_eq nodeId.toNat false cluster.noNul (by decide),
      twoStrings_const (show 0 ∉ ndbNodeIdStr by decide),
      twoStrings_const (show 0 ∉ ndbConnectstringStr by decide),
      twoStrings_text parameterStr connectString]
    rfl

theorem few_parameters {c : Client} (h : NoParameters c) :
    (c.request o).parameters.length < Protocol.maxUint32 := by
  have hDebug : (debugParameters o).length ≤ 6 := by
    rw [length_debugParameters]
    unfold getDebugParams
    split_ifs <;> decide
  have hMax : 14 < Protocol.maxUint32 := by decide
  cases c with
  | startNode program version grid cluster node autorestart parameters =>
    obtain ⟨parameters, hCount⟩ := parameters
    obtain rfl : parameters = [] := h
    exact Nat.zero_lt_of_lt hMax
  | startClusterServer cluster nodeId
  | startClusterManager cluster nodeId hostname port connectString =>
    simp only [Client.request, length_append, length_cons, length_nil]
    omega
  | startDataServer cluster nodeId connectString =>
    simp only [Client.request, length_cons, length_nil]
    omega

theorem not_accepted_of_parameters {program version grid cluster node : Text} {autorestart : Bool}
    {p : Text} {ps : List Text} (hCount : (p :: ps).length < 2 ^ 32) :
    ¬Accepted o (.startNode program version grid cluster node autorestart ⟨p :: ps, hCount⟩) := by
  rintro ⟨lines, hSend, hReceive⟩
  obtain ⟨hFits, hLines⟩ := (sendLines_fits _).ok_iff.mp hSend
  have hBody : startStr :: lines = startStr :: body
      ((Client.startNode program version grid cluster node autorestart
        ⟨p :: ps, hCount⟩).request o)
      (p :: ps).length ((p :: ps).map fun p => cStr p.str) := by
    rw [hLines]
    simp only [Client.lines, icSendStartInfo, twoStrings_text]
    rw [twoStrings_const (show 0 ∉ if autorestart then trueStr else falseStr from ?_)]
    · rfl
    · cases autorestart
      · decide
      · decide
  obtain rfl := (List.cons.inj hBody).2
  have hShort : ∀ line ∈ body
      ((Client.startNode program version grid cluster node autorestart
        ⟨p :: ps, hCount⟩).request o)
      (p :: ps).length ((p :: ps).map fun p => cStr p.str), line.length < configReadBufSize := by
    intro line hLine
    rw [← hLines] at hFits
    exact Nat.lt_of_succ_lt (hFits line (mem_cons_of_mem _ hLine))
  by_cases hn : (p :: ps).length < Protocol.maxUint32
  · have hOk := hReceive []
    rw [recStartMessage_head hn hShort] at hOk
    obtain ⟨parameters, s₁, hParameters, hOk⟩ := bind_eq_ok.mp hOk
    obtain ⟨_, s₂, -, hOk⟩ := bind_eq_ok.mp hOk
    obtain ⟨hRequest, -⟩ := pure_eq_ok.mp hOk
    have hSame : (p :: ps).map Text.str = parameters := congrArg StartMessage.parameters hRequest
    obtain ⟨v, s₃, hFirst, hRest⟩ := bind_eq_ok.mp hParameters
    obtain ⟨vs, s₄, -, hPure⟩ := bind_eq_ok.mp hRest
    obtain ⟨rfl, -⟩ := pure_eq_ok.mp hPure
    obtain rfl : p.str = v := (List.cons.inj hSame).1
    rw [map_cons, cStr_of_no_nul p.noNul] at hFirst
    exact mcRecString_ne_self (by decide) hFirst
  · -- the highest number is taken for an error
    have hOk := hReceive []
    rw [recStartMessage_many (Nat.le_of_not_lt hn) (hCount.trans (by decide)) hShort] at hOk
    cases hOk

theorem accepted_iff (c : Client) : Accepted o c ↔ Fits o c ∧ NoParameters c := by
  constructor
  · intro hAccepted
    have hFits : Fits o c := by
      obtain ⟨lines, hSend, -⟩ := hAccepted
      exact ((sendLines_fits _).ok_iff.mp hSend).1
    refine ⟨hFits, ?_⟩
    cases c with
    | startNode program version grid cluster node autorestart parameters =>
      obtain ⟨_ | ⟨p, ps⟩, hCount⟩ := parameters
      · exact rfl
      · exact absurd hAccepted (not_accepted_of_parameters hCount)
    | startClusterServer cluster nodeId => exact trivial
    | startClusterManager cluster nodeId hostname port connectString => exact trivial
    | startDataServer cluster nodeId connectString => exact trivial
  · rintro ⟨hFits, hNone⟩
    have hLines := lines_of_noParameters (o := o) hNone
    refine ⟨_, (sendLines_fits _).ok_iff.mpr ⟨hFits, hLines.symm⟩, fun rest => ?_⟩
    refine recStartMessage_body (few_parameters hNone) fun line hLine => ?_
    have hMem : line ∈ c.lines o := hLines ▸ mem_cons_of_mem _ hLine
    exact Nat.lt_of_succ_lt (hFits line hMem)

/-- Client and controller agree if and only if every line can be sent, `start_node` has no
parameters, and the client understands the reply. -/
theorem start_protocol_iff (o : Options) (c : Client) (reply : Reply) :
    Agree o c reply ↔ Fits o c ∧ NoParameters c ∧ Understands c reply := by
  unfold Agree
  rw [accepted_iff, handled_iff, and_assoc]

/-- A cluster manager that is running is not started again, and this is taken for a failure. -/
theorem manager_already_started :
    ¬Agree ⟨false, 0, 0, 0⟩
      (.startClusterManager ⟨ascii "c1", by decide⟩ 2 ⟨ascii "host", by decide⟩ 10203
        ⟨ascii "host:10001", by decide⟩)
      (.alreadyStarted 4711) :=
  fun hAgree => (handled_iff _ _).mp hAgree.2

end IClaustron.Pcntrl.StartProtocol
