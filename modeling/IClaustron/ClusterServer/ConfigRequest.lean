import IClaustron.Config.KeyValue
import IClaustron.Protocol.Messages

/-!
# ClusterServer.ConfigRequest — a client asks for its configuration

Model of handle_config_request with rec_get_nodeid_req, rec_get_version_req and
rec_get_config_req in api/ic_apic_run_cs.ic. The client sends three requests, line by line; a
line that is not the one that is waited for ends the call with a protocol error. The number
of the cluster comes with the first request and is used as an index behind the third.

* `run_spec` — what a run returns, from any state behind the first two lines.
* `safe_iff_condition` — when the configuration is taken from the array as it should be and
  every deviation is noticed.
* `cluster_id_not_checked` — a client asks for cluster 256.

**Scope limits**: the replies are sent without an error, and what comes before the line "get
nodeid" and behind the call of ic_get_base64_config is not modelled.
-/

namespace IClaustron.ClusterServer.ConfigRequest

open Config Protocol List Option

/-! ## Server -/

/-- IC_MAX_NODE_ID and IC_MAX_CLUSTER_ID. -/
def maxNodeId : Nat := 255
def maxClusterId : Nat := 255

def versionStr : Bytes := ascii "version:"
def nodetypeStr : Bytes := ascii "nodetype:"
def nodeidStr : Bytes := ascii "nodeid:"
def userStr : Bytes := ascii "user: mysqld"
def passwordStr : Bytes := ascii "password: mysqld"
def publicKeyStr : Bytes := ascii "public key: a public key"
def littleEndianStr : Bytes := ascii "endian: little"
def bigEndianStr : Bytes := ascii "endian: big"
def nameStr : Bytes := ascii "name:"
def logEventStr : Bytes := ascii "log_event: 0"
def clusterIdStr : Bytes := ascii "clusterid:"
def getVersionStr : Bytes := ascii "get version"
def getConfigStr : Bytes := ascii "get config_v2"

/-- GET_CONFIG_LEN. -/
def getConfigLen : Nat := 10

/-- The states of `rec_get_nodeid_req`, then the lines of `rec_get_version_req` and the states
of `rec_get_config_req`. -/
inductive ReqState where
  | version | nodetype | nodeid | user | password | publicKey | endian | name | logEvent
  | clusterId | emptyLine
  | getVersion | getVersionEmpty
  | getConfig | configVersion | configNodetype | configEmpty
  deriving DecidableEq

/-- `IC_RC_PARAM`. -/
structure Param where
  nodeNumber : Nat
  versionNumber : Nat
  nodeType : Nat
  clusterId : Nat

inductive Ret where
  /-- `ic_get_base64_config` is called with this configuration. -/
  | encodes (c : ClusterConfig)
  | protocolError
  /-- `ic_rec_with_cr` has returned an error. -/
  | connection
  /-- `conf_objects` is read behind its end. -/
  | outOfArray
  /-- `ic_get_base64_config` is called with a null pointer. -/
  | noConfiguration

variable (confObjects : Fin (maxClusterId + 1) → Option ClusterConfig)

/-- The call of `ic_get_base64_config`. -/
def encode (clusterId : Nat) : Ret :=
  if h : clusterId < maxClusterId + 1 then
    match confObjects ⟨clusterId, h⟩ with
    | some c => .encodes c
    | none => .noConfiguration
  else .outOfArray

/-- `ic_is_bit_set` with IC_PROTOCOL_BIT. -/
def isIclaustron (versionNumber : Nat) : Bool := versionNumber.testBit protocolBit

/-- PROTOCOL_CONN_CHECK_DEBUG_RETURN. -/
def check (cond : Bool) (next : ReqState × Param) : Except Ret (ReqState × Param) :=
  if cond then .ok next else .error .protocolError

/-- `ic_check_buf_with_string`. -/
def checkBufWithString (line word : Bytes) : Bool :=
  word.length + 1 ≤ line.length && line.take word.length == word

/-- The comparison in ENDIAN_REQ_STATE. -/
def startsWithEndian (line : Bytes) : Bool :=
  littleEndianStr.isPrefixOf line || bigEndianStr.isPrefixOf line

/-- What is done with a line. -/
def step (p : Param) (s : ReqState) (line : Bytes) : Except Ret (ReqState × Param) :=
  match s with
  | .version =>
    match checkBufWithInt line versionStr with
    | some n => .ok (.nodetype, { p with versionNumber := n })
    | none => .error .protocolError
  | .nodetype =>
    match checkBufWithInt line nodetypeStr with
    | some n => .ok (.nodeid, { p with nodeType := n })
    | none => .error .protocolError
  | .nodeid =>
    match checkBufWithInt line nodeidStr with
    | some n =>
      if maxNodeId < n then .error .protocolError else .ok (.user, { p with nodeNumber := n })
    | none => .error .protocolError
  | .user => check (line == userStr) (.password, p)
  | .password => check (line == passwordStr) (.publicKey, p)
  | .publicKey => check (line == publicKeyStr) (.endian, p)
  | .endian =>
    check (startsWithEndian line) (if isIclaustron p.versionNumber then .name else .logEvent, p)
  | .name => check (checkBufWithString line nameStr) (.logEvent, p)
  | .logEvent =>
    check (line == logEventStr)
      (if isIclaustron p.versionNumber then (.clusterId, p)
       else (.emptyLine, { p with clusterId := 0 }))
  | .clusterId =>
    match checkBufWithInt line clusterIdStr with
    | some n => .ok (.emptyLine, { p with clusterId := n })
    | none => .error .protocolError
  | .emptyLine => check (line == []) (.getVersion, p)
  | .getVersion => check (line == getVersionStr) (.getVersionEmpty, p)
  | .getVersionEmpty => check (line == []) (.getConfig, p)
  | .getConfig => check (line == getConfigStr.take getConfigLen) (.configVersion, p)
  | .configVersion =>
    match checkBufWithInt line versionStr with
    | some n =>
      if p.versionNumber ≠ 0 ∧ p.versionNumber ≠ n then .error .protocolError
      else .ok (.configNodetype,
        { p with versionNumber := if p.versionNumber = 0 then n else p.versionNumber })
    | none => .error .protocolError
  | .configNodetype =>
    match checkBufWithInt line nodetypeStr with
    | some n => if p.nodeType ≠ n then .error .protocolError else .ok (.configEmpty, p)
    | none => .error .protocolError
  | .configEmpty =>
    if line = [] then .error (encode confObjects p.clusterId) else .error .protocolError

/-- The call on lines; behind them `ic_rec_with_cr` returns an error. -/
def run (p : Param) (s : ReqState) : List Bytes → Ret
  | [] => .connection
  | line :: lines =>
    match step confObjects p s line with
    | .ok (s, p) => run p s lines
    | .error ret => ret

/-- `handle_config_request`. -/
def handleConfigRequest (p : Param) (lines : List Bytes) : Ret := run confObjects p .version lines

/-! ## Protocol -/

/-- The states, one behind the other; the name and the cluster id come from nodes that have set
the bit of iClaustron. -/
def states (iclaustron : Bool) : List ReqState :=
  [.version, .nodetype, .nodeid, .user, .password, .publicKey, .endian] ++
    (if iclaustron then [.name, .logEvent, .clusterId] else [.logEvent]) ++
    [.emptyLine, .getVersion, .getVersionEmpty, .getConfig, .configVersion, .configNodetype,
      .configEmpty]

/-- The lines that may come in a state; `v` and `t` are the version and the node type of the first
request. -/
def expect (endianOk : Bytes → Bool) (v t : Nat) (s : ReqState) (line : Bytes) : Bool :=
  match s with
  | .version => (checkBufWithInt line versionStr).isSome
  | .nodetype => (checkBufWithInt line nodetypeStr).isSome
  | .nodeid => (checkBufWithInt line nodeidStr).any fun n => n ≤ maxNodeId
  | .user => line == userStr
  | .password => line == passwordStr
  | .publicKey => line == publicKeyStr
  | .endian => endianOk line
  | .name => checkBufWithString line nameStr
  | .logEvent => line == logEventStr
  | .clusterId => (checkBufWithInt line clusterIdStr).isSome
  | .emptyLine => line == []
  | .getVersion => line == getVersionStr
  | .getVersionEmpty => line == []
  | .getConfig => line == getConfigStr.take getConfigLen
  | .configVersion => (checkBufWithInt line versionStr).any fun n => v == 0 || v == n
  | .configNodetype => (checkBufWithInt line nodetypeStr).any fun n => t == n
  | .configEmpty => line == []

/-- Each line is one that may come where it stands, as far as the lines go. -/
def Agrees (ok : ReqState → Bytes → Bool) : List ReqState → List Bytes → Prop
  | s :: ss, line :: lines => ok s line = true ∧ Agrees ok ss lines
  | _, _ => True

/-- The number in a line of the request, 0 when there is none. -/
def numberAt (word : Bytes) (lines : List Bytes) (i : Nat) : Nat :=
  ((lines[i]?).bind fun line => checkBufWithInt line word).getD 0

def versionOf (lines : List Bytes) : Nat := numberAt versionStr lines 0
def nodeTypeOf (lines : List Bytes) : Nat := numberAt nodetypeStr lines 1

/-- The cluster that is asked for. -/
def clusterIdOf (lines : List Bytes) : Nat :=
  if isIclaustron (versionOf lines) then numberAt clusterIdStr lines 9 else 0

/-- The lines follow the protocol. -/
def Follows (endianOk : Bytes → Bool) (lines : List Bytes) : Prop :=
  Agrees (expect endianOk (versionOf lines) (nodeTypeOf lines))
    (states (isIclaustron (versionOf lines))) lines

/-- All lines of the three requests are there. -/
def Complete (lines : List Bytes) : Prop :=
  (states (isIclaustron (versionOf lines))).length ≤ lines.length

/-- The line names one of the two byte orders. -/
def isEndian (line : Bytes) : Bool := line == littleEndianStr || line == bigEndianStr

/-- What is promised of the server. -/
structure Safe (p : Param) (lines : List Bytes) : Prop where
  encodes : ∀ c, handleConfigRequest confObjects p lines = .encodes c →
    ∃ h : clusterIdOf lines < maxClusterId + 1, confObjects ⟨clusterIdOf lines, h⟩ = some c
  inArray : handleConfigRequest confObjects p lines ≠ .outOfArray
  configured : handleConfigRequest confObjects p lines ≠ .noConfiguration
  deviating : ¬ Follows isEndian lines → handleConfigRequest confObjects p lines = .protocolError

/-- Requests that follow the protocol, but for text behind the byte order, have no such text, and
if they are complete they ask for a cluster that exists. -/
structure Condition (lines : List Bytes) : Prop where
  endian : Follows startsWithEndian lines → ∀ line, lines[6]? = some line → isEndian line = true
  cluster : Follows startsWithEndian lines → Complete lines →
    ∃ (h : clusterIdOf lines < maxClusterId + 1) (c : ClusterConfig),
      confObjects ⟨clusterIdOf lines, h⟩ = some c

/-! ## Steps -/

/-- The state behind a state. -/
def afterState (iclaustron : Bool) : ReqState → Option ReqState
  | .version => some .nodetype
  | .nodetype => some .nodeid
  | .nodeid => some .user
  | .user => some .password
  | .password => some .publicKey
  | .publicKey => some .endian
  | .endian => some (if iclaustron then .name else .logEvent)
  | .name => some .logEvent
  | .logEvent => some (if iclaustron then .clusterId else .emptyLine)
  | .clusterId => some .emptyLine
  | .emptyLine => some .getVersion
  | .getVersion => some .getVersionEmpty
  | .getVersionEmpty => some .getConfig
  | .getConfig => some .configVersion
  | .configVersion => some .configNodetype
  | .configNodetype => some .configEmpty
  | .configEmpty => none

/-- The states follow each other, and the last of them is the last one of the machine. -/
def IsPath (iclaustron : Bool) : List ReqState → Prop
  | [] => True
  | [s] => afterState iclaustron s = none
  | s :: s' :: ss => afterState iclaustron s = some s' ∧ IsPath iclaustron (s' :: ss)

theorem isPath_states (iclaustron : Bool) : IsPath iclaustron (states iclaustron) := by
  cases iclaustron with
  | true => simp [IsPath, states, afterState]
  | false => simp [IsPath, states, afterState]

/-- The number of the cluster behind a line. -/
def nextClusterId (iclaustron : Bool) (s : ReqState) (line : Bytes) (id : Nat) : Nat :=
  match s with
  | .logEvent => if iclaustron then id else 0
  | .clusterId => (checkBufWithInt line clusterIdStr).getD 0
  | _ => id

/-- What is known in a state of the first request. -/
structure Known (v t : Nat) (s : ReqState) (p : Param) : Prop where
  version : s ≠ .configNodetype → s ≠ .configEmpty → p.versionNumber = v
  nodeType : p.nodeType = t

/-- A state behind the first two lines. -/
def Later (s : ReqState) : Prop := s ≠ .version ∧ s ≠ .nodetype

variable {v t : Nat} {s : ReqState} {p : Param} {line : Bytes}

theorem check_of_true {cond : Bool} {next : ReqState × Param} (h : cond = true) :
    check cond next = .ok next := by
  rw [check, if_pos h]

theorem check_of_false {cond : Bool} {next : ReqState × Param} (h : cond = false) :
    check cond next = .error .protocolError := by
  rw [check, h]
  rfl

/-- A line that may not come ends the call with a protocol error. -/
theorem step_refused (hLater : Later s) (h : Known v t s p)
    (hLine : expect startsWithEndian v t s line = false) :
    step confObjects p s line = .error .protocolError := by
  cases s with
  | version => exact absurd rfl hLater.1
  | nodetype => exact absurd rfl hLater.2
  | nodeid =>
    rw [step]
    cases hNumber : checkBufWithInt line nodeidStr with
    | none => rfl
    | some n =>
      rw [expect, hNumber, any_some, decide_eq_false_iff_not, Nat.not_le] at hLine
      exact if_pos hLine
  | user | password | publicKey | endian | name | logEvent | emptyLine | getVersion
  | getVersionEmpty | getConfig => exact check_of_false hLine
  | clusterId =>
    rw [step]
    cases hNumber : checkBufWithInt line clusterIdStr with
    | none => rfl
    | some n =>
      rw [expect, hNumber] at hLine
      cases hLine
  | configVersion =>
    rw [step]
    cases hNumber : checkBufWithInt line versionStr with
    | none => rfl
    | some n =>
      rw [expect, hNumber, any_some, Bool.or_eq_false_iff, beq_eq_false_iff_ne,
        beq_eq_false_iff_ne, ← h.version ReqState.noConfusion ReqState.noConfusion] at hLine
      exact if_pos hLine
  | configNodetype =>
    rw [step]
    cases hNumber : checkBufWithInt line nodetypeStr with
    | none => rfl
    | some n =>
      rw [expect, hNumber, any_some, beq_eq_false_iff_ne, ← h.nodeType] at hLine
      exact if_pos hLine
  | configEmpty =>
    have hNe : line ≠ [] := beq_eq_false_iff_ne.mp hLine
    exact if_neg hNe

/-- A line that may come leads to the next state. -/
theorem step_accepted (hLater : Later s) (h : Known v t s p)
    (hLine : expect startsWithEndian v t s line = true) {s' : ReqState}
    (hAfter : afterState (isIclaustron v) s = some s') :
    ∃ p', step confObjects p s line = .ok (s', p') ∧ Known v t s' p' ∧
      p'.clusterId = nextClusterId (isIclaustron v) s line p.clusterId := by
  -- in all but the last states the version is still the one of the first request
  have hSame : s ≠ .configNodetype → s ≠ .configEmpty → ∀ s'', Known v t s'' p :=
    fun hNe hNe' s'' => ⟨fun _ _ => h.version hNe hNe', h.nodeType⟩
  cases s with
  | version => exact absurd rfl hLater.1
  | nodetype => exact absurd rfl hLater.2
  | nodeid =>
    cases hAfter
    rcases (any_eq_true _ _).mp hLine with ⟨n, hNumber, hMax⟩
    refine ⟨{ p with nodeNumber := n }, ?_, ⟨fun _ _ => ?_, h.nodeType⟩, rfl⟩
    · rw [step, hNumber]
      exact if_neg (Nat.not_lt.mpr (of_decide_eq_true hMax))
    · exact h.version ReqState.noConfusion ReqState.noConfusion
  | user | password | publicKey | name | emptyLine | getVersion | getVersionEmpty | getConfig =>
    cases hAfter
    exact ⟨p, check_of_true hLine, hSame ReqState.noConfusion ReqState.noConfusion _, rfl⟩
  | endian =>
    have hVersion := h.version ReqState.noConfusion ReqState.noConfusion
    have hNext := Option.some.inj hAfter
    refine ⟨p, ?_, hSame ReqState.noConfusion ReqState.noConfusion _, rfl⟩
    rw [← hNext, ← hVersion]
    exact check_of_true hLine
  | logEvent =>
    have hVersion := h.version ReqState.noConfusion ReqState.noConfusion
    have hNext := Option.some.inj hAfter
    have hStep : step confObjects p .logEvent line =
        .ok (if isIclaustron p.versionNumber then (.clusterId, p)
          else (.emptyLine, { p with clusterId := 0 })) := check_of_true hLine
    rw [← hNext]
    cases hBit : isIclaustron v with
    | true =>
      rw [← hVersion] at hBit
      rw [hBit] at hStep
      exact ⟨p, hStep, hSame ReqState.noConfusion ReqState.noConfusion _, rfl⟩
    | false =>
      rw [← hVersion] at hBit
      rw [hBit] at hStep
      exact ⟨{ p with clusterId := 0 }, hStep, ⟨fun _ _ => hVersion, h.nodeType⟩, rfl⟩
  | clusterId =>
    cases hAfter
    rcases isSome_iff_exists.mp hLine with ⟨n, hNumber⟩
    refine ⟨{ p with clusterId := n }, ?_, ⟨fun _ _ => ?_, h.nodeType⟩, ?_⟩
    · rw [step, hNumber]
    · exact h.version ReqState.noConfusion ReqState.noConfusion
    · rw [nextClusterId, hNumber]
      rfl
  | configVersion =>
    cases hAfter
    rcases (any_eq_true _ _).mp hLine with ⟨n, hNumber, hSameVersion⟩
    refine ⟨{ p with versionNumber := if p.versionNumber = 0 then n else p.versionNumber }, ?_,
      ⟨fun hNe => absurd rfl hNe, h.nodeType⟩, rfl⟩
    rw [Bool.or_eq_true, beq_iff_eq, beq_iff_eq,
      ← h.version ReqState.noConfusion ReqState.noConfusion] at hSameVersion
    rw [step, hNumber]
    exact if_neg fun hBoth => hSameVersion.elim hBoth.1 hBoth.2
  | configNodetype =>
    cases hAfter
    rcases (any_eq_true _ _).mp hLine with ⟨n, hNumber, hSameType⟩
    refine ⟨p, ?_, ⟨fun _ hNe => absurd rfl hNe, h.nodeType⟩, rfl⟩
    rw [beq_iff_eq, ← h.nodeType] at hSameType
    rw [step, hNumber]
    exact if_neg (not_not.mpr hSameType)
  | configEmpty => cases hAfter

/-- The last line. -/
theorem step_last (hLater : Later s) (hLine : expect startsWithEndian v t s line = true)
    (hAfter : afterState (isIclaustron v) s = none) :
    step confObjects p s line = .error (encode confObjects p.clusterId) := by
  cases s with
  | version => exact absurd rfl hLater.1
  | nodetype => exact absurd rfl hLater.2
  | configEmpty => exact if_pos (beq_iff_eq.mp hLine)
  | _ => cases hAfter

/-! ## Runs -/

/-- The number of the cluster behind lines. -/
def lastClusterId (iclaustron : Bool) : List ReqState → List Bytes → Nat → Nat
  | s :: ss, line :: lines, id =>
    lastClusterId iclaustron ss lines (nextClusterId iclaustron s line id)
  | _, _, id => id

/-- A run from a state behind the first two lines: what comes where it may not come ends it with a
protocol error, and when all lines have come a configuration is taken from the array. -/
theorem run_spec (ss : List ReqState) :
    ∀ (s : ReqState) (p : Param) (lines : List Bytes), IsPath (isIclaustron v) (s :: ss) →
      (∀ s' ∈ s :: ss, Later s') → Known v t s p →
      (¬ Agrees (expect startsWithEndian v t) (s :: ss) lines →
        run confObjects p s lines = .protocolError) ∧
      (Agrees (expect startsWithEndian v t) (s :: ss) lines → lines.length < (s :: ss).length →
        run confObjects p s lines = .connection) ∧
      (Agrees (expect startsWithEndian v t) (s :: ss) lines → (s :: ss).length ≤ lines.length →
        run confObjects p s lines =
          encode confObjects (lastClusterId (isIclaustron v) (s :: ss) lines p.clusterId)) := by
  intro s p lines
  induction lines generalizing ss s p with
  | nil =>
    exact fun _ _ _ => ⟨fun h => absurd trivial h, fun _ _ => rfl, fun _ h => absurd h (by simp)⟩
  | cons line lines ih =>
    intro hPath hLater hKnown
    have hs := hLater s mem_cons_self
    cases hLine : expect startsWithEndian v t s line with
    | false =>
      refine ⟨fun _ => ?_, fun h => ?_, fun h => ?_⟩
      · rw [run, step_refused confObjects hs hKnown hLine]
      · exact absurd (h.1.symm.trans hLine) Bool.noConfusion
      · exact absurd (h.1.symm.trans hLine) Bool.noConfusion
    | true =>
      cases ss with
      | nil =>
        have hStep := step_last confObjects (p := p) hs hLine hPath
        refine ⟨fun h => absurd ⟨hLine, trivial⟩ h, fun _ h => absurd h (by simp), fun _ _ => ?_⟩
        rw [run, hStep]
        cases s with
        | configEmpty => rfl
        | _ => cases hPath
      | cons s' ss =>
        rcases step_accepted confObjects hs hKnown hLine hPath.1 with
          ⟨p', hStep, hKnown', hId⟩
        have hRun : run confObjects p s (line :: lines) = run confObjects p' s' lines := by
          rw [run, hStep]
        have hLater' : ∀ s'' ∈ s' :: ss, Later s'' :=
          fun s'' hMem => hLater s'' (mem_cons_of_mem s hMem)
        rcases ih ss s' p' hPath.2 hLater' hKnown' with ⟨hRefused, hOpen, hDone⟩
        have hAgrees : Agrees (expect startsWithEndian v t) (s :: s' :: ss) (line :: lines) ↔
            Agrees (expect startsWithEndian v t) (s' :: ss) lines :=
          ⟨fun h => h.2, fun h => ⟨hLine, h⟩⟩
        rw [hAgrees, hRun]
        refine ⟨hRefused, fun h hLen => hOpen h (by simpa using hLen), fun h hLen => ?_⟩
        rw [hDone h (by simpa using hLen), hId]
        rfl

/-! ### The number of the cluster -/

theorem lastClusterId_same {iclaustron : Bool} (ss : List ReqState) :
    ∀ (lines : List Bytes) (id : Nat), (∀ s ∈ ss, s ≠ .logEvent ∧ s ≠ .clusterId) →
      lastClusterId iclaustron ss lines id = id := by
  induction ss with
  | nil => exact fun _ _ _ => rfl
  | cons s ss ih =>
    intro lines id hOther
    cases lines with
    | nil => rfl
    | cons line lines =>
      rw [lastClusterId, ih lines _ fun s' hs' => hOther s' (mem_cons_of_mem s hs')]
      cases s with
      | logEvent => exact absurd rfl (hOther .logEvent mem_cons_self).1
      | clusterId => exact absurd rfl (hOther .clusterId mem_cons_self).2
      | _ => rfl

/-- The last of the states that set the number decides. -/
theorem lastClusterId_append (iclaustron : Bool) (s : ReqState) (post : List ReqState)
    (hPost : ∀ s ∈ post, s ≠ .logEvent ∧ s ≠ .clusterId) (line : Bytes) (pre : List ReqState) :
    ∀ (lines : List Bytes) (id : Nat), lines[pre.length]? = some line →
      ∃ id', lastClusterId iclaustron (pre ++ s :: post) lines id =
        nextClusterId iclaustron s line id' := by
  induction pre with
  | nil =>
    intro lines id hLine
    cases lines with
    | nil => cases hLine
    | cons l lines =>
      cases hLine
      exact ⟨id, lastClusterId_same post lines _ hPost⟩
  | cons s' pre ih =>
    intro lines id hLine
    cases lines with
    | nil => cases hLine
    | cons l lines =>
      exact ih lines _ hLine

theorem lastClusterId_states {lines : List Bytes} {iclaustron : Bool}
    (hComplete : (states iclaustron).length ≤ lines.length) (id : Nat) :
    lastClusterId iclaustron (states iclaustron) lines id =
      if iclaustron then numberAt clusterIdStr lines 9 else 0 := by
  cases iclaustron with
  | true =>
    have hLength : 9 < lines.length := Nat.lt_of_lt_of_le (by decide) hComplete
    have hLine : lines[9]? = some lines[9] := getElem?_eq_getElem hLength
    rcases lastClusterId_append true .clusterId ((states true).drop 10) (by decide)
      lines[9] ((states true).take 9) lines id hLine with ⟨id', hId⟩
    rw [if_pos rfl, numberAt, hLine]
    exact hId
  | false =>
    have hLength : 7 < lines.length := Nat.lt_of_lt_of_le (by decide) hComplete
    have hLine : lines[7]? = some lines[7] := getElem?_eq_getElem hLength
    rcases lastClusterId_append false .logEvent ((states false).drop 8) (by decide)
      lines[7] ((states false).take 7) lines id hLine with ⟨id', hId⟩
    exact hId

/-! ## Requests -/

/-- What `handle_config_request` returns. -/
theorem handleConfigRequest_spec (p : Param) (lines : List Bytes) :
    (¬ Follows startsWithEndian lines →
      handleConfigRequest confObjects p lines = .protocolError) ∧
    (Follows startsWithEndian lines → ¬ Complete lines →
      handleConfigRequest confObjects p lines = .connection) ∧
    (Follows startsWithEndian lines → Complete lines →
      handleConfigRequest confObjects p lines = encode confObjects (clusterIdOf lines)) := by
  rcases lines with _ | ⟨versionLine, lines⟩
  · refine ⟨fun h => absurd trivial h, fun _ _ => rfl, fun _ h => ?_⟩
    exact absurd (Nat.le_trans (by decide) h) (Nat.not_succ_le_zero 0)
  cases hVersion : checkBufWithInt versionLine versionStr with
  | none =>
    have hNot : ¬ Follows startsWithEndian (versionLine :: lines) := by
      intro h
      have hSome : (checkBufWithInt versionLine versionStr).isSome = true := h.1
      rw [hVersion] at hSome
      cases hSome
    refine ⟨fun _ => ?_, fun h => absurd h hNot, fun h => absurd h hNot⟩
    rw [handleConfigRequest, run, step, hVersion]
  | some v =>
    have hOf : versionOf (versionLine :: lines) = v := by
      rw [versionOf, numberAt, getElem?_cons_zero, bind_some, hVersion]
      rfl
    have hSome : expect startsWithEndian (versionOf (versionLine :: lines))
        (nodeTypeOf (versionLine :: lines)) .version versionLine = true := by
      rw [expect, hVersion]
      rfl
    have hFirst : handleConfigRequest confObjects p (versionLine :: lines) =
        run confObjects { p with versionNumber := v } .nodetype lines := by
      rw [handleConfigRequest, run, step, hVersion]
    rcases lines with _ | ⟨typeLine, lines⟩
    · refine ⟨fun h => absurd ⟨hSome, trivial⟩ h, fun _ _ => hFirst, fun _ h => ?_⟩
      have hLength : 2 ≤ [versionLine].length := by
        refine Nat.le_trans ?_ h
        cases isIclaustron (versionOf [versionLine]) with
        | true => decide
        | false => decide
      exact absurd hLength (Nat.not_succ_le_self 1)
    cases hType : checkBufWithInt typeLine nodetypeStr with
    | none =>
      have hNot : ¬ Follows startsWithEndian (versionLine :: typeLine :: lines) := by
        intro h
        have hSome : (checkBufWithInt typeLine nodetypeStr).isSome = true := h.2.1
        rw [hType] at hSome
        cases hSome
      refine ⟨fun _ => ?_, fun h => absurd h hNot, fun h => absurd h hNot⟩
      rw [hFirst, run, step, hType]
    | some t =>
      have hTypeOf : nodeTypeOf (versionLine :: typeLine :: lines) = t := by
        rw [nodeTypeOf, numberAt, getElem?_cons_succ, getElem?_cons_zero,
          bind_some, hType]
        rfl
      have hSecond : handleConfigRequest confObjects p (versionLine :: typeLine :: lines) =
          run confObjects { p with versionNumber := v, nodeType := t } .nodeid lines := by
        rw [hFirst, run, step, hType]
      have hSomeType : expect startsWithEndian v t .nodetype typeLine = true := by
        rw [expect, hType]
        rfl
      -- the states behind the first two lines
      have hStates : states (isIclaustron v) =
          .version :: .nodetype :: .nodeid :: (states (isIclaustron v)).drop 3 := rfl
      have hPath : IsPath (isIclaustron v) (.nodeid :: (states (isIclaustron v)).drop 3) :=
        (isPath_states (isIclaustron v)).2.2
      have hLater : ∀ s ∈ .nodeid :: (states (isIclaustron v)).drop 3, Later s := by
        cases isIclaustron v with
        | true => unfold Later; decide
        | false => unfold Later; decide
      have hKnown : Known v t .nodeid { p with versionNumber := v, nodeType := t } :=
        ⟨fun _ _ => rfl, rfl⟩
      have hRun := run_spec confObjects ((states (isIclaustron v)).drop 3) .nodeid
        { p with versionNumber := v, nodeType := t } lines hPath hLater hKnown
      have hFollows : Follows startsWithEndian (versionLine :: typeLine :: lines) ↔
          Agrees (expect startsWithEndian v t) (.nodeid :: (states (isIclaustron v)).drop 3)
            lines := by
        rw [Follows, hOf, hTypeOf, hStates]
        rw [hOf, hTypeOf] at hSome
        exact ⟨fun h => h.2.2, fun h => ⟨hSome, hSomeType, h⟩⟩
      have hComplete : Complete (versionLine :: typeLine :: lines) ↔
          (ReqState.nodeid :: (states (isIclaustron v)).drop 3).length ≤ lines.length := by
        have hLength : (states (isIclaustron v)).length =
          (ReqState.nodeid :: (states (isIclaustron v)).drop 3).length + 2 := rfl
        rw [Complete, hOf, hLength]
        simp only [length_cons]
        omega
      rw [hFollows, hComplete, hSecond, Nat.not_le]
      refine ⟨hRun.1, hRun.2.1, fun h hLen => ?_⟩
      rw [hRun.2.2 h hLen, clusterIdOf, hOf]
      have hAll : (states (isIclaustron v)).length ≤ (versionLine :: typeLine :: lines).length := by
        rw [← hOf]
        exact hComplete.mpr hLen
      rw [← lastClusterId_states hAll p.clusterId]
      rfl

/-! ## Safe requests -/

theorem agrees_congr {ok ok' : ReqState → Bytes → Bool} (ss : List ReqState) :
    ∀ lines : List Bytes, (∀ s ∈ ss, ok s = ok' s) →
      (Agrees ok ss lines ↔ Agrees ok' ss lines) := by
  induction ss with
  | nil => exact fun _ _ => Iff.rfl
  | cons s ss ih =>
    intro lines hSame
    cases lines with
    | nil => exact Iff.rfl
    | cons line lines =>
      rw [Agrees, Agrees, hSame s mem_cons_self,
        ih lines fun s' hs' => hSame s' (mem_cons_of_mem s hs')]

/-- The line of one state. -/
theorem agrees_append {ok : ReqState → Bytes → Bool} (s : ReqState) (post pre : List ReqState) :
    ∀ lines : List Bytes, Agrees ok (pre ++ s :: post) lines ↔
      Agrees ok pre lines ∧ (∀ line, lines[pre.length]? = some line → ok s line = true) ∧
        Agrees ok post (lines.drop (pre.length + 1)) := by
  induction pre with
  | nil =>
    intro lines
    cases lines with
    | nil =>
      refine ⟨fun _ => ⟨trivial, fun _ h => absurd h (by simp), ?_⟩, fun _ => trivial⟩
      cases post with
      | nil => exact trivial
      | cons s' post => exact trivial
    | cons line lines =>
      constructor
      · rintro ⟨hLine, hRest⟩
        refine ⟨trivial, fun line' h => ?_, hRest⟩
        rw [← Option.some.inj h]
        exact hLine
      · rintro ⟨-, hLine, hRest⟩
        exact ⟨hLine line rfl, hRest⟩
  | cons s' pre ih =>
    intro lines
    cases lines with
    | nil =>
      refine ⟨fun _ => ⟨trivial, fun _ h => absurd h (by simp), ?_⟩, fun _ => trivial⟩
      rw [drop_nil]
      cases post with
      | nil => exact trivial
      | cons s' post => exact trivial
    | cons line lines =>
      have hTail := ih lines
      constructor
      · rintro ⟨hLine, hRest⟩
        rcases hTail.mp hRest with ⟨hPre, hAt, hPost⟩
        exact ⟨⟨hLine, hPre⟩, hAt, hPost⟩
      · rintro ⟨⟨hLine, hPre⟩, hAt, hPost⟩
        exact ⟨hLine, hTail.mpr ⟨hPre, hAt, hPost⟩⟩

theorem isEndian_startsWith {line : Bytes} (h : isEndian line = true) :
    startsWithEndian line = true := by
  rw [isEndian, Bool.or_eq_true, beq_iff_eq, beq_iff_eq] at h
  rcases h with hLittle | hBig
  · rw [hLittle]
    decide
  · rw [hBig]
    decide

/-- The two ways to look at the byte order differ in one line only. -/
theorem follows_isEndian_iff (lines : List Bytes) : Follows isEndian lines ↔
    Follows startsWithEndian lines ∧ ∀ line, lines[6]? = some line → isEndian line = true := by
  have hStates : states (isIclaustron (versionOf lines)) =
      (states (isIclaustron (versionOf lines))).take 6 ++
        .endian :: (states (isIclaustron (versionOf lines))).drop 7 := rfl
  have hOther : ∀ s, s ≠ .endian → expect isEndian (versionOf lines) (nodeTypeOf lines) s =
      expect startsWithEndian (versionOf lines) (nodeTypeOf lines) s := by
    intro s hs
    funext line
    cases s with
    | endian => exact absurd rfl hs
    | _ => rfl
  have hBefore : ∀ s ∈ (states (isIclaustron (versionOf lines))).take 6, s ≠ .endian := by
    cases isIclaustron (versionOf lines) with
    | true => decide
    | false => decide
  have hBehind : ∀ s ∈ (states (isIclaustron (versionOf lines))).drop 7, s ≠ .endian := by
    cases isIclaustron (versionOf lines) with
    | true => decide
    | false => decide
  rw [Follows, Follows, hStates, agrees_append, agrees_append,
    agrees_congr _ lines fun s hs => hOther s (hBefore s hs),
    agrees_congr _ _ fun s hs => hOther s (hBehind s hs)]
  constructor
  · rintro ⟨hPre, hAt, hPost⟩
    exact ⟨⟨hPre, fun line h => isEndian_startsWith (hAt line h), hPost⟩, hAt⟩
  · rintro ⟨⟨hPre, -, hPost⟩, hAt⟩
    exact ⟨hPre, hAt, hPost⟩

/-- The array is used as it should be and every deviation is answered with a protocol error exactly
if the cluster that is asked for exists and there is no text behind the byte order. -/
theorem safe_iff_condition (confObjects : Fin (maxClusterId + 1) → Option ClusterConfig) (p : Param)
    (lines : List Bytes) : Safe confObjects p lines ↔ Condition confObjects lines := by
  rcases handleConfigRequest_spec confObjects p lines with
    ⟨hRefused, hOpen, hDone⟩
  constructor
  · intro h
    constructor
    · intro hFollows line hLine
      by_contra hText
      have hDeviates : ¬ Follows isEndian lines :=
        fun hExact => hText (((follows_isEndian_iff lines).mp hExact).2 line hLine)
      have hRet := h.deviating hDeviates
      by_cases hComplete : Complete lines
      · have hEncode := hDone hFollows hComplete
        rw [hRet, encode] at hEncode
        split at hEncode
        · split at hEncode
          · cases hEncode
          · cases hEncode
        · cases hEncode
      · rw [hOpen hFollows hComplete] at hRet
        cases hRet
    · intro hFollows hComplete
      have hEncode := hDone hFollows hComplete
      by_cases hBound : clusterIdOf lines < maxClusterId + 1
      · rw [encode, dif_pos hBound] at hEncode
        cases hConf : confObjects ⟨clusterIdOf lines, hBound⟩ with
        | some c => exact ⟨hBound, c, hConf⟩
        | none =>
          rw [hConf] at hEncode
          exact absurd hEncode h.configured
      · rw [encode, dif_neg hBound] at hEncode
        exact absurd hEncode h.inArray
  · intro h
    -- the return value when the configuration is taken from the array
    have hEncodes : Follows startsWithEndian lines → Complete lines →
        ∃ (hBound : clusterIdOf lines < maxClusterId + 1) (c : ClusterConfig),
          confObjects ⟨clusterIdOf lines, hBound⟩ = some c ∧
          handleConfigRequest confObjects p lines = .encodes c := by
      intro hFollows hComplete
      rcases h.cluster hFollows hComplete with ⟨hBound, c, hConf⟩
      refine ⟨hBound, c, hConf, ?_⟩
      rw [hDone hFollows hComplete, encode, dif_pos hBound, hConf]
    by_cases hFollows : Follows startsWithEndian lines
    · have hExact := (follows_isEndian_iff lines).mpr ⟨hFollows, h.endian hFollows⟩
      by_cases hComplete : Complete lines
      · rcases hEncodes hFollows hComplete with ⟨hBound, c, hConf, hRet⟩
        refine ⟨fun c' hc' => ⟨hBound, ?_⟩, ?_, ?_, fun hNot => absurd hExact hNot⟩
        · rw [hRet] at hc'
          cases hc'
          exact hConf
        · rw [hRet]
          exact Ret.noConfusion
        · rw [hRet]
          exact Ret.noConfusion
      · have hRet := hOpen hFollows hComplete
        refine ⟨fun c hc => ?_, ?_, ?_, fun hNot => absurd hExact hNot⟩
        · rw [hRet] at hc
          cases hc
        · rw [hRet]
          exact Ret.noConfusion
        · rw [hRet]
          exact Ret.noConfusion
    · have hRet := hRefused hFollows
      refine ⟨fun c hc => ?_, ?_, ?_, fun _ => hRet⟩
      · rw [hRet] at hc
        cases hc
      · rw [hRet]
        exact Ret.noConfusion
      · rw [hRet]
        exact Ret.noConfusion

/-! ## A cluster that does not exist -/

/-- A node of iClaustron asks for the configuration of cluster 256. -/
def cluster256 : List Bytes :=
  [ascii "version: 1048576", ascii "nodetype: 1", ascii "nodeid: 0", userStr, passwordStr,
    publicKeyStr, littleEndianStr, ascii "name: ic_fsd", logEventStr, ascii "clusterid: 256", [],
    getVersionStr, [], ascii "get config", ascii "version: 1048576", ascii "nodetype: 1", []]

/-- The array has no entry for it, and the entry is read. -/
theorem cluster_id_not_checked : ¬ Safe (fun _ => none) ⟨0, 0, 0, 0⟩ cluster256 := by
  intro h
  have hRet : handleConfigRequest (fun _ => none) ⟨0, 0, 0, 0⟩ cluster256 = .outOfArray := by
    rfl
  exact h.inArray hRet

end IClaustron.ClusterServer.ConfigRequest
