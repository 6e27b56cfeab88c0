import IClaustron.Config.VersionFile
import IClaustron.MemContainer.Regions
import IClaustron.Pcntrl.StartProtocol

/-!
# Pcntrl.StartMemory — the memory of a start message

Model of rec_start_message and handle_start in pcntrl/ic_pcntrl.c with the memory that they use.

* `start_memory_iff` — the messages for which all is well.

Scope limits: the table of processes and the host are left out: whether `insert_process` and the
calls of the system succeed comes from the environment. Only the sizes of the memory are modelled.
-/

namespace IClaustron.Pcntrl.StartMemory

open Lib List
open Attempt hiding pure bind throw modify loop handle
open StartProtocol (Rec dataServerProgramStr clusterServerProgramStr clusterManagerProgramStr
  nodeIdStr ndbNodeIdStr autoRestartStr)
open DynArray (errorMemAlloc)

/-! ## Model -/

/-- IC_ERROR_PROGRAM_NOT_CERTIFIED_FOR_START. -/
def errorProgramNotCertifiedForStart : Nat := 7115
/-- IC_ERROR_NO_PROPER_NODE_ID_FOR_PROGRAM. -/
def errorNoProperNodeIdForProgram : Nat := 7116
/-- IC_MAX_NODE_ID. -/
def maxNodeId : Nat := 255
/-- `sizeof(IC_PC_START)`. -/
def sizeofPcStart : Nat := 168
/-- `sizeof(IC_STRING)`. -/
def sizeofString : Nat := 16
/-- `sizeof(gchar*)`. -/
def sizeofPointer : Nat := 8

def fileServerProgramStr : Str := ascii "ic_fsd"
def repServerProgramStr : Str := ascii "ic_repd"
def nodaemonStr : Str := ascii "--nodaemon"
def foregroundStr : Str := ascii "--foreground"
def daemonizeStr : Str := ascii "--daemonize"
def zeroStr : Str := ascii "0"

/-- An element of an array that is written: its size and its index, and the bytes that were
allocated for the array. -/
structure Element where
  size : Nat
  index : Nat
  allocated : Nat
deriving DecidableEq

def Element.Inside (e : Element) : Prop := (e.index + 1) * e.size ≤ e.allocated

/-- The thread of a connection. `replies` are the return codes of the calls to come, 0 when there
are no more; `created` and `frees` are about the container of the message, and `started` says that
the process has got its pid, so that the container belongs to the table. -/
structure Controller where
  input : List Str
  replies : List Nat
  written : List Element
  created : Bool
  started : Bool
  frees : Nat

abbrev Op := Attempt Controller Nat

def reply : Op Nat := fun s => .ok (s.replies.headD 0) { s with replies := s.replies.tail }

/-- A call that returns a code. -/
def call : Op Unit := do
  let code ← reply
  if code = 0 then pure () else Attempt.throw code

/-- A call that returns memory, or NULL. -/
def memory : Op Unit := do
  let code ← reply
  if code = 0 then pure () else Attempt.throw errorMemAlloc

/-- What `mc_calloc` allocates. Its parameter is a guint32. -/
def callocLen (size : Nat) : Nat := MemContainer.icAlign (size % 2 ^ 32) 8

/-- `ic_mc_calloc`. -/
def mcCalloc (size : Nat) : Op Nat := do
  memory
  pure (callocLen size)

def write (e : Element) : Op Unit := Attempt.modify fun s => { s with written := e :: s.written }

/-- `ic_create_memory_container`. -/
def createMemoryContainer : Op Unit := do
  memory
  Attempt.modify fun s => { s with created := true }

/-- `ic_mc_free`. -/
def mcFree : Op Unit := Attempt.modify fun s => { s with frees := s.frees + 1 }

/-- To receive lines. -/
def receive {α : Type} (r : Rec α) : Op α := fun s =>
  match r s.input with
  | .ok a input => .ok a { s with input }
  | .error code input => .error code { s with input }
  | .abort => .abort

/-- `ic_mc_rec_string`. -/
def mcRecString (word : Str) : Op Str := do
  let str ← receive (StartProtocol.mcRecString word)
  memory
  pure str

/-- `get_key`. -/
def getKey : Op Key := do
  let gridName ← mcRecString gridStr
  let clusterName ← mcRecString clusterStr
  let nodeName ← mcRecString nodeStr
  pure ⟨gridName, clusterName, nodeName⟩

/-- The loop of `rec_start_message`: `n` parameters from number `i` on. -/
def recParameters (allocated : Nat) : Nat → Nat → Op (List Str)
  | _, 0 => pure []
  | i, n + 1 => do
    let parameter ← mcRecString parameterStr
    write ⟨sizeofString, i, allocated⟩
    let parameters ← recParameters allocated (i + 1) n
    pure (parameter :: parameters)

/-- `rec_start_message` up to the number of parameters, which is the second result. -/
def recHeader : Op (StartMessage × Nat) := do
  let programName ← mcRecString programStr
  let versionString ← mcRecString versionStr
  let key ← getKey
  let autorestart ← receive (StartProtocol.recBoolean autoRestartStr)
  let numParameters ← receive (StartProtocol.recNumber numParametersStr)
  pure ({ key, programName, versionString, parameters := [], autorestart }, numParameters)

/-- `rec_start_message` in the container. -/
def recIntoContainer : Op StartMessage := do
  let _ ← mcCalloc sizeofPcStart
  let (message, numParameters) ← recHeader
  let allocated ← mcCalloc (sizeofString * numParameters)
  let parameters ← recParameters allocated 0 numParameters
  receive StartProtocol.recEmptyLine
  pure { message with parameters }

/-- `rec_start_message`. -/
def recStartMessage : Op StartMessage := do
  createMemoryContainer
  recIntoContainer.onError mcFree

/-- `check_certified_program`. -/
def Certified (programName : Str) : Prop :=
  cStr programName ∈ [clusterServerProgramStr, clusterManagerProgramStr, fileServerProgramStr,
    repServerProgramStr, dataServerProgramStr]

instance (programName : Str) : Decidable (Certified programName) :=
  inferInstanceAs (Decidable (_ ∈ _))

/-- `get_node_id_from_str`. -/
def getNodeIdFromStr (str : Str) : Nat :=
  match Config.convStrToInt (cStr str) with
  | none => 0
  | some (number, _) => if maxNodeId < number then 0 else number

/-- The loop of `get_nodeid_in_arg_vector`, for the name of the argument. -/
def nodeIdBehind (name : Str) : List Str → Nat
  | arg :: next :: args =>
    if cStr arg = name then getNodeIdFromStr next else nodeIdBehind name (next :: args)
  | _ => 0

/-- `get_nodeid_in_arg_vector`. -/
def getNodeidInArgVector (programName : Str) (parameters : List Str) : Nat :=
  nodeIdBehind (if cStr programName = dataServerProgramStr then ndbNodeIdStr else nodeIdStr)
    parameters

/-- An argument "--daemonize" has another one than "0" behind it. -/
def daemonizeBehind : List Str → Bool
  | arg :: next :: args =>
    (cStr arg = daemonizeStr && cStr next ≠ zeroStr) || daemonizeBehind (next :: args)
  | _ => false

/-- `check_for_daemon_in_arg_vector`. -/
def checkForDaemonInArgVector (programName : Str) (parameters : List Str) : Bool :=
  if cStr programName = dataServerProgramStr then
    !parameters.any fun arg => cStr arg = nodaemonStr || cStr arg = foregroundStr
  else !daemonizeBehind parameters

/-- The parameters are put into `arg_vector`, from number `i` on. -/
def writeArguments (allocated : Nat) : Nat → List Str → Op Unit
  | _, [] => pure ()
  | i, _ :: parameters => do
    write ⟨sizeofPointer, i + 1, allocated⟩
    writeArguments allocated (i + 1) parameters

/-- `ic_mc_chardup` into `arg_vector`. -/
def mcChardup (allocated i : Nat) : Op Unit := do
  memory
  write ⟨sizeofPointer, i, allocated⟩

/-- The checks of a process that was killed. -/
def waitForStop : Nat → Op Unit
  | 0 => pure ()
  | checks + 1 => do
    let code ← reply
    if code = 0 then waitForStop checks else pure ()

/-- A process that has left a pid file is killed, if it is still there. -/
def stopLeftover : Op Unit := do
  let code ← reply
  if code = 0 then do
    let code ← reply
    if code = 0 then waitForStop 32 else pure ()
  else pure ()

/-- The arguments that `handle_start` adds for a data node, and its directory. -/
def addArguments (allocated numParameters : Nat) : Op Unit := do
  call
  mcChardup allocated (numParameters + 1)
  mcChardup allocated (numParameters + 2)
  mcChardup allocated (numParameters + 3)
  mcChardup allocated (numParameters + 4)
  mcChardup allocated (numParameters + 5)
  mcChardup allocated (numParameters + 6)
  call
  call

/-- The preparations for a process that is a daemon; for others there are none. -/
def prepareDaemon (allocated : Nat) (message : StartMessage) : Op Unit :=
  if checkForDaemonInArgVector message.programName message.parameters then do
    call
    stopLeftover
    if cStr message.programName = dataServerProgramStr then
      addArguments allocated message.parameters.length
    else pure ()
  else pure ()

/-- `insert_process`, `ic_set_binary_dir`, `ic_start_process` and `ic_is_process_alive`. -/
def startProcess (allocated : Nat) (message : StartMessage) : Op Unit := do
  call
  call
  prepareDaemon allocated message
  call
  call
  Attempt.modify fun s => { s with started := true }

/-- `handle_start` with a message. -/
def startMessage (message : StartMessage) : Op Unit := do
  let allocated ← mcCalloc ((message.parameters.length + 8) % 2 ^ 32 * sizeofPointer)
  if Certified message.programName then do
    write ⟨sizeofPointer, 0, allocated⟩
    writeArguments allocated 0 message.parameters
    if getNodeidInArgVector message.programName message.parameters = 0 then
      Attempt.throw errorNoProperNodeIdForProgram
    else startProcess allocated message
  else Attempt.throw errorProgramNotCertifiedForStart

/-- The label `error` of `handle_start`; the client is told. -/
def startFailed (code : Nat) : Op Unit := do
  mcFree
  if code = errorProcessAlreadyRunning then call
  else do
    let _ ← reply
    Attempt.throw code

/-- `handle_start`. -/
def handleStart : Op Unit := do
  let message ← recStartMessage
  Attempt.handle (startMessage message) (fun _ => call) startFailed

/-! ## Safe -/

/-- A thread that has received the line "start". -/
def connected (input : List Str) (replies : List Nat) : Controller :=
  ⟨input, replies, [], false, false, 0⟩

/-- All elements are inside their array, and the container of a process that has not been started
has been freed once. -/
structure Controller.Ok (s : Controller) : Prop where
  inside : ∀ e ∈ s.written, e.Inside
  freed : s.frees = if s.created ∧ ¬s.started then 1 else 0

def Safe (o : Outcome Controller Nat Unit) : Prop :=
  Attempt.After (fun _ => Controller.Ok) (fun _ => Controller.Ok) o

/-- `ic_mc_rec_string` takes the line for a parameter. -/
def isParameter (line : Str) : Bool :=
  line.length < configReadBufSize && parameterStr.length + 1 ≤ line.length &&
    line.take parameterStr.length = parameterStr

/-- The number of parameters that are received, of `n` that were announced. -/
def received (n : Nat) (lines : List Str) : Nat := min n (lines.takeWhile isParameter).length

/-- There are no more parameter lines than parameters in the memory. -/
def Fits (input : List Str) : Prop :=
  ∀ message n rest, StartProtocol.recHeader input = .ok (message, n) rest →
    received n rest ≤ n % 2 ^ 28

/-! ### Sizes -/

theorem icAlign_mul (n : Nat) : MemContainer.icAlign (n * 8) 8 = n * 8 := by
  unfold MemContainer.icAlign
  omega

theorem callocLen_strings (n : Nat) :
    callocLen (sizeofString * n) = n % 2 ^ 28 * sizeofString := by
  have hSize : sizeofString * n % 2 ^ 32 = n % 2 ^ 28 * 2 * 8 := by
    unfold sizeofString
    omega
  rw [callocLen, hSize, icAlign_mul, Nat.mul_assoc]
  rfl

variable {allocated n : Nat} {input rest : List Str} {line : Str}

theorem callocLen_pointers (hn : n < 2 ^ 28) :
    callocLen ((n + 8) % 2 ^ 32 * sizeofPointer) = (n + 8) * sizeofPointer := by
  have hSize : (n + 8) % 2 ^ 32 * sizeofPointer % 2 ^ 32 = (n + 8) * 8 := by
    unfold sizeofPointer
    omega
  rw [callocLen, hSize, icAlign_mul]
  rfl

/-! ### Calls -/

/-- What is kept by receiving and by calls, and by writing the elements of `Q`. -/
structure Kept (Q : Element → Prop) (P : Controller → Prop) : Prop where
  receive : ∀ s input replies, P s → P { s with input, replies }
  write : ∀ s e, Q e → P s → P { s with written := e :: s.written }

/-- The action writes elements of `Q` and does nothing else to the memory. -/
def Writes {α : Type} (Q : Element → Prop) (m : Op α) : Prop :=
  ∀ P, Kept Q P → ∀ s, P s → Attempt.After (fun _ => P) (fun _ => P) (m s)

/-- The receiver does not abort. -/
def Total {α : Type} (r : Rec α) : Prop :=
  ∀ input, Attempt.After (fun _ _ => True) (fun _ _ => True) (r input)

section Writes

variable {α β : Type} {Q : Element → Prop}

theorem writes_bind {m : Op α} {f : α → Op β} (hm : Writes Q m) (hf : ∀ a, Writes Q (f a)) :
    Writes Q (m >>= f) :=
  fun P hP s hs => after_bind (hm P hP s hs) fun a => hf a P hP

theorem writes_pure (a : α) : Writes Q (pure a) := fun _ _ _ hs => hs

theorem writes_throw (code : Nat) : Writes Q (Attempt.throw code : Op α) := fun _ _ _ hs => hs

theorem writes_reply : Writes Q reply := fun _ hP s hs => hP.receive s s.input s.replies.tail hs

theorem writes_write {e : Element} (he : Q e) : Writes Q (write e) :=
  fun _ hP s hs => hP.write s e he hs

theorem write_bind (e : Element) (f : Unit → Op β) (s : Controller) :
    (write e >>= f) s = f () { s with written := e :: s.written } := rfl

theorem writes_ite {c : Prop} [Decidable c] {m m' : Op α} (hm : Writes Q m) (hm' : Writes Q m') :
    Writes Q (if c then m else m') := by
  split_ifs
  · exact hm
  · exact hm'

theorem writes_call : Writes Q call :=
  writes_bind writes_reply fun _ => writes_ite (writes_pure ()) (writes_throw _)

theorem writes_memory : Writes Q memory :=
  writes_bind writes_reply fun _ => writes_ite (writes_pure ()) (writes_throw _)

theorem writes_mcCalloc (size : Nat) : Writes Q (mcCalloc size) :=
  writes_bind writes_memory fun _ => writes_pure _

theorem total_bind {r : Rec α} {f : α → Rec β} (hr : Total r) (hf : ∀ a, Total (f a)) :
    Total (r >>= f) :=
  fun input => after_bind (hr input) fun a rest _ => hf a rest

theorem total_pure (a : α) : Total (pure a) := fun _ => trivial

theorem total_throw (code : Nat) : Total (Attempt.throw code : Rec α) := fun _ => trivial

theorem total_ite {c : Prop} [Decidable c] {r r' : Rec α} (hr : Total r) (hr' : Total r') :
    Total (if c then r else r') := by
  split_ifs
  · exact hr
  · exact hr'

theorem total_recLine : Total StartProtocol.recLine := by
  intro input
  unfold StartProtocol.recLine
  cases recWithCr input with
  | ok r => trivial
  | error code => trivial

theorem total_mcRecString (word : Str) : Total (StartProtocol.mcRecString word) :=
  total_bind total_recLine fun _ =>
    total_ite (total_throw _) (total_ite (total_throw _) (total_pure _))

theorem total_recBoolean (word : Str) : Total (StartProtocol.recBoolean word) :=
  total_bind (total_mcRecString word) fun _ =>
    total_ite (total_pure _) (total_ite (total_pure _) (total_throw _))

theorem total_recNumber (word : Str) : Total (StartProtocol.recNumber word) := by
  refine total_bind total_recLine fun line => ?_
  cases Protocol.checkBufWithInt line word with
  | none => exact total_throw _
  | some number => exact total_ite (total_throw _) (total_pure _)

theorem total_recEmptyLine : Total StartProtocol.recEmptyLine := by
  refine total_bind (fun input => ?_) fun found => ?_
  · -- a line that is put back is no error
    unfold StartProtocol.recSimpleStrOpt
    rcases (total_recLine input).cases with ⟨line, rest, h, -⟩ | ⟨code, rest, h, -⟩
    · rw [h]
      dsimp only
      split_ifs
      · trivial
      · trivial
    · rw [h]
      trivial
  · exact total_ite (total_pure _) (total_throw _)

theorem writes_receive {r : Rec α} (hr : Total r) : Writes Q (receive r) := by
  intro P hP s hs
  unfold receive
  rcases (hr s.input).cases with ⟨a, input, h, -⟩ | ⟨code, input, h, -⟩
  · rw [h]
    exact hP.receive s input s.replies hs
  · rw [h]
    exact hP.receive s input s.replies hs

theorem writes_mcRecString (word : Str) : Writes Q (mcRecString word) :=
  writes_bind (writes_receive (total_mcRecString word)) fun _ =>
    writes_bind writes_memory fun _ => writes_pure _

theorem writes_recHeader : Writes Q recHeader := by
  refine writes_bind (writes_mcRecString _) fun _ => ?_
  refine writes_bind (writes_mcRecString _) fun _ => ?_
  refine writes_bind ?_ fun _ => ?_
  · refine writes_bind (writes_mcRecString _) fun _ => ?_
    refine writes_bind (writes_mcRecString _) fun _ => ?_
    exact writes_bind (writes_mcRecString _) fun _ => writes_pure _
  refine writes_bind (writes_receive (total_recBoolean _)) fun _ => ?_
  exact writes_bind (writes_receive (total_recNumber _)) fun _ => writes_pure _

/-- Whatever the number of lines, elements of `parameters` are written, one after the other. -/
theorem writes_recParameters (hQ : ∀ i, Q ⟨sizeofString, i, allocated⟩) (n : Nat) :
    ∀ i, Writes Q (recParameters allocated i n) := by
  induction n with
  | zero => exact fun i => writes_pure []
  | succ n ih =>
    intro i
    refine writes_bind (writes_mcRecString _) fun _ => ?_
    refine writes_bind (writes_write (hQ i)) fun _ => ?_
    exact writes_bind (ih (i + 1)) fun _ => writes_pure _

theorem writes_writeArguments (parameters : List Str) :
    ∀ i, (∀ j, i < j → j ≤ i + parameters.length → Q ⟨sizeofPointer, j, allocated⟩) →
      Writes Q (writeArguments allocated i parameters) := by
  induction parameters with
  | nil => exact fun i _ => writes_pure ()
  | cons parameter parameters ih =>
    intro i hQ
    refine writes_bind (writes_write (hQ (i + 1) ?_ ?_)) fun _ => ih (i + 1) fun j hLt hLe => ?_
    · exact Nat.lt_succ_self i
    · rw [length_cons]
      omega
    · refine hQ j (Nat.lt_of_succ_lt hLt) ?_
      rw [length_cons]
      omega

theorem writes_mcChardup {i : Nat} (hQ : Q ⟨sizeofPointer, i, allocated⟩) :
    Writes Q (mcChardup allocated i) :=
  writes_bind writes_memory fun _ => writes_write hQ

theorem writes_waitForStop (checks : Nat) : Writes Q (waitForStop checks) := by
  induction checks with
  | zero => exact writes_pure ()
  | succ checks ih => exact writes_bind writes_reply fun _ => writes_ite ih (writes_pure ())

theorem writes_stopLeftover : Writes Q stopLeftover := by
  refine writes_bind writes_reply fun _ => writes_ite ?_ (writes_pure ())
  exact writes_bind writes_reply fun _ => writes_ite (writes_waitForStop 32) (writes_pure ())

theorem writes_addArguments (hQ : ∀ i ≤ n + 6, Q ⟨sizeofPointer, i, allocated⟩) :
    Writes Q (addArguments allocated n) := by
  have hAdd : ∀ i ≤ 6, Writes Q (mcChardup allocated (n + i)) := fun i hi =>
    writes_mcChardup (hQ (n + i) (Nat.add_le_add_left hi n))
  refine writes_bind writes_call fun _ => ?_
  refine writes_bind (hAdd 1 (by decide)) fun _ => ?_
  refine writes_bind (hAdd 2 (by decide)) fun _ => ?_
  refine writes_bind (hAdd 3 (by decide)) fun _ => ?_
  refine writes_bind (hAdd 4 (by decide)) fun _ => ?_
  refine writes_bind (hAdd 5 (by decide)) fun _ => ?_
  refine writes_bind (hAdd 6 (by decide)) fun _ => ?_
  exact writes_bind writes_call fun _ => writes_call

theorem writes_prepareDaemon {message : StartMessage}
    (hQ : ∀ i ≤ message.parameters.length + 6, Q ⟨sizeofPointer, i, allocated⟩) :
    Writes Q (prepareDaemon allocated message) := by
  refine writes_ite ?_ (writes_pure ())
  refine writes_bind writes_call fun _ => ?_
  refine writes_bind writes_stopLeftover fun _ => ?_
  exact writes_ite (writes_addArguments hQ) (writes_pure ())

end Writes

/-! ### What is received -/

section Agrees

variable {α β : Type}

/-- What the action receives is what `r` receives; with all memory there it receives all of it. -/
structure Agrees (m : Op α) (r : Rec α) : Prop where
  sound : ∀ {s a s'}, m s = .ok a s' → r s.input = .ok a s'.input
  complete : ∀ {s a rest}, s.replies = [] → r s.input = .ok a rest →
    ∃ s', m s = .ok a s' ∧ s'.input = rest ∧ s'.replies = []

theorem agrees_bind {m : Op α} {r : Rec α} {f : α → Op β} {g : α → Rec β} (hm : Agrees m r)
    (hf : ∀ a, Agrees (f a) (g a)) : Agrees (m >>= f) (r >>= g) := by
  constructor
  · intro s b s' h
    rcases bind_eq_ok.mp h with ⟨a, s₁, hFirst, hRest⟩
    exact bind_eq_ok.mpr ⟨a, s₁.input, hm.sound hFirst, (hf a).sound hRest⟩
  · intro s b rest hReplies h
    rcases bind_eq_ok.mp h with ⟨a, rest₁, hFirst, hRest⟩
    rcases hm.complete hReplies hFirst with ⟨s₁, hm₁, rfl, hReplies₁⟩
    rcases (hf a).complete hReplies₁ hRest with ⟨s', hm', hInput, hReplies'⟩
    exact ⟨s', bind_eq_ok.mpr ⟨a, s₁, hm₁, hm'⟩, hInput, hReplies'⟩

theorem agrees_pure (a : α) : Agrees (pure a) (pure a) := by
  constructor
  · intro s a' s' h
    rcases pure_eq_ok.mp h with ⟨rfl, rfl⟩
    exact rfl
  · intro s a' rest hReplies h
    rcases pure_eq_ok.mp h with ⟨rfl, rfl⟩
    exact ⟨s, rfl, rfl, hReplies⟩

theorem agrees_receive (r : Rec α) : Agrees (receive r) r := by
  constructor
  · intro s a s' h
    unfold receive at h
    cases hr : r s.input with
    | ok a' input =>
      rw [hr] at h
      cases h
      exact rfl
    | error code input =>
      rw [hr] at h
      cases h
    | abort =>
      rw [hr] at h
      cases h
  · intro s a rest hReplies h
    refine ⟨{ s with input := rest }, ?_, rfl, hReplies⟩
    unfold receive
    rw [h]

/-- The action receives nothing, and succeeds when all memory is there. -/
structure Silent (m : Op α) : Prop where
  sound : ∀ {s a s'}, m s = .ok a s' → s'.input = s.input
  complete : ∀ {s}, s.replies = [] →
    ∃ a s', m s = .ok a s' ∧ s'.input = s.input ∧ s'.replies = []

theorem agrees_silent {m : Op α} {f : α → Op β} {r : Rec β} (hm : Silent m)
    (hf : ∀ a, Agrees (f a) r) : Agrees (m >>= f) r := by
  constructor
  · intro s b s' h
    rcases bind_eq_ok.mp h with ⟨a, s₁, hFirst, hRest⟩
    exact hm.sound hFirst ▸ (hf a).sound hRest
  · intro s b rest hReplies h
    rcases hm.complete hReplies with ⟨a, s₁, hFirst, hInput, hReplies₁⟩
    rcases (hf a).complete hReplies₁ (hInput ▸ h) with ⟨s', hRest, hInput', hReplies'⟩
    exact ⟨s', bind_eq_ok.mpr ⟨a, s₁, hFirst, hRest⟩, hInput', hReplies'⟩

theorem silent_memory : Silent memory := by
  constructor
  · intro s a s' h
    rcases bind_eq_ok.mp h with ⟨code, s₁, hReply, hCheck⟩
    have hInput : s₁.input = s.input := by
      cases hReply
      rfl
    by_cases hCode : code = 0
    · rw [if_pos hCode] at hCheck
      rw [(pure_eq_ok.mp hCheck).2, hInput]
    · rw [if_neg hCode] at hCheck
      exact (throw_eq_ok.mp hCheck).elim
  · intro s hReplies
    obtain ⟨input, replies, written, created, started, frees⟩ := s
    obtain rfl : replies = [] := hReplies
    exact ⟨(), _, rfl, rfl, rfl⟩

theorem silent_mcCalloc (size : Nat) : Silent (mcCalloc size) := by
  constructor
  · intro s a s' h
    rcases bind_eq_ok.mp h with ⟨_, s₁, hMemory, hPure⟩
    rw [(pure_eq_ok.mp hPure).2]
    exact silent_memory.sound hMemory
  · intro s hReplies
    rcases silent_memory.complete hReplies with ⟨a, s₁, hMemory, hInput, hReplies₁⟩
    exact ⟨_, s₁, bind_eq_ok.mpr ⟨a, s₁, hMemory, rfl⟩, hInput, hReplies₁⟩

theorem agrees_mcRecString (word : Str) :
    Agrees (mcRecString word) (StartProtocol.mcRecString word) := by
  have h : Agrees (mcRecString word) (StartProtocol.mcRecString word >>= pure) :=
    agrees_bind (agrees_receive _) fun _ => agrees_silent silent_memory fun _ => agrees_pure _
  rw [bind_pure] at h
  exact h

theorem agrees_getKey : Agrees getKey StartProtocol.getKey := by
  refine agrees_bind (agrees_mcRecString _) fun _ => ?_
  refine agrees_bind (agrees_mcRecString _) fun _ => ?_
  exact agrees_bind (agrees_mcRecString _) fun _ => agrees_pure _

theorem agrees_recHeader : Agrees recHeader StartProtocol.recHeader := by
  refine agrees_bind (agrees_mcRecString _) fun _ => ?_
  refine agrees_bind (agrees_mcRecString _) fun _ => ?_
  refine agrees_bind agrees_getKey fun _ => ?_
  refine agrees_bind (agrees_receive _) fun _ => ?_
  exact agrees_bind (agrees_receive _) fun _ => agrees_pure _

end Agrees

/-! ### The lines of the parameters -/

theorem recLine_of_ok (h : StartProtocol.recLine input = .ok line rest) :
    input = line :: rest ∧ line.length < configReadBufSize := by
  cases input with
  | nil => cases h
  | cons line' rest' =>
    by_cases hShort : line'.length < configReadBufSize
    · rw [StartProtocol.recLine_cons hShort] at h
      cases h
      exact ⟨rfl, hShort⟩
    · have hError : StartProtocol.recLine (line' :: rest') = .error endOfFile (line' :: rest') := by
        unfold StartProtocol.recLine
        rw [show recWithCr (line' :: rest') = .error endOfFile from if_neg hShort]
      rw [hError] at h
      cases h

theorem mcRecString_parameter :
    (∃ str, StartProtocol.mcRecString parameterStr input = .ok str rest) ↔
      ∃ line, input = line :: rest ∧ isParameter line = true := by
  constructor
  · rintro ⟨str, h⟩
    rcases bind_eq_ok.mp h with ⟨line, rest₁, hLine, hStr⟩
    rcases recLine_of_ok hLine with ⟨rfl, hShort⟩
    by_cases hLong : line.length < parameterStr.length + 1
    · rw [if_pos hLong] at hStr
      cases hStr
    · rw [if_neg hLong] at hStr
      by_cases hWord : line.take parameterStr.length ≠ parameterStr
      · rw [if_pos hWord] at hStr
        cases hStr
      · rw [if_neg hWord] at hStr
        rcases pure_eq_ok.mp hStr with ⟨-, rfl⟩
        refine ⟨line, rfl, ?_⟩
        unfold isParameter
        simp [hShort, Nat.le_of_not_lt hLong, not_not.mp hWord]
  · rintro ⟨line, rfl, hLine⟩
    unfold isParameter at hLine
    simp only [Bool.and_eq_true, decide_eq_true_eq] at hLine
    obtain ⟨⟨hShort, hLong⟩, hWord⟩ := hLine
    refine ⟨line.drop (Protocol.valuePos parameterStr line), ?_⟩
    refine (bind_of_ok (StartProtocol.recLine_cons hShort)).trans ?_
    rw [if_neg (Nat.not_lt_of_le hLong), if_neg (not_not.mpr hWord)]
    rfl

theorem received_cons (h : isParameter line = true) :
    received (n + 1) (line :: rest) = received n rest + 1 := by
  unfold received
  rw [takeWhile_cons_of_pos h, length_cons, Nat.add_min_add_right]

theorem received_pos (rest : List Str) (hn : 0 < n) (h : isParameter line = true) :
    0 < received n (line :: rest) := by
  obtain ⟨n, rfl⟩ := Nat.exists_eq_succ_of_ne_zero (Nat.ne_of_gt hn)
  rw [received_cons h]
  exact Nat.succ_pos _

theorem exists_parameter_of_received {lines : List Str} (h : 0 < received n lines) :
    ∃ line rest, lines = line :: rest ∧ isParameter line = true := by
  cases lines with
  | nil => exact absurd h (by simp [received])
  | cons line rest =>
    refine ⟨line, rest, rfl, ?_⟩
    by_contra hOther
    unfold received at h
    rw [takeWhile_cons_of_neg hOther, length_nil, Nat.min_zero] at h
    exact Nat.lt_irrefl 0 h

/-! ### The run -/

/-- How far the message has come: whether it has its container, whether its process has been
started, and how often the container was freed. -/
structure Phase (created started : Bool) (frees : Nat) (s : Controller) : Prop where
  inside : ∀ e ∈ s.written, e.Inside
  created : s.created = created
  started : s.started = started
  frees : s.frees = frees

section Phase

variable {created started : Bool} {frees : Nat} {s : Controller}

theorem Phase.kept : Kept Element.Inside (Phase created started frees) := by
  constructor
  · exact fun s input replies hs => ⟨hs.inside, hs.created, hs.started, hs.frees⟩
  · intro s e he hs
    refine ⟨?_, hs.created, hs.started, hs.frees⟩
    intro e' hMem
    rcases mem_cons.mp hMem with rfl | hOld
    · exact he
    · exact hs.inside e' hOld

theorem Phase.ok (hs : Phase created started frees s)
    (h : frees = if created ∧ ¬started then 1 else 0) : s.Ok :=
  ⟨hs.inside, by rw [hs.frees, hs.created, hs.started, h]⟩

/-- The loop of `rec_start_message`, when there is memory for the lines that it meets. -/
theorem after_recParameters (n : Nat) :
    ∀ i s, Phase created started frees s →
      (i + received n s.input) * sizeofString ≤ allocated →
      Attempt.After
        (fun parameters s' => Phase created started frees s' ∧ parameters.length = n ∧
          received n s.input = n)
        (fun _ => Phase created started frees) (recParameters allocated i n s) := by
  induction n with
  | zero => exact fun i s hs _ => ⟨hs, rfl, Nat.zero_min _⟩
  | succ n ih =>
    intro i s hs hRoom
    rcases (writes_mcRecString parameterStr _ Phase.kept s hs).cases with
      ⟨str, s₁, hLine, hs₁⟩ | ⟨code, s₁, hLine, hs₁⟩
    · rcases mcRecString_parameter.mp ⟨str, (agrees_mcRecString _).sound hLine⟩ with
        ⟨line, hInput, hParameter⟩
      have hReceived : received (n + 1) s.input = received n s₁.input + 1 := by
        rw [hInput, received_cons hParameter]
      rw [hReceived] at hRoom ⊢
      have hInside : Element.Inside ⟨sizeofString, i, allocated⟩ := by
        refine Nat.le_trans (Nat.mul_le_mul_right _ ?_) hRoom
        show i + 1 ≤ i + (received n s₁.input + 1)
        omega
      unfold recParameters
      rw [bind_of_ok hLine, write_bind]
      have hs₂ := Phase.kept.write s₁ _ hInside hs₁
      have hRoom₂ : (i + 1 + received n s₁.input) * sizeofString ≤ allocated := by
        rw [Nat.add_assoc, Nat.add_comm 1]
        exact hRoom
      refine after_bind (ih (i + 1) _ hs₂ hRoom₂) fun parameters s₃ h => ?_
      exact ⟨h.1, congrArg (· + 1) h.2.1, congrArg (· + 1) h.2.2⟩
    · unfold recParameters
      rw [bind_of_error hLine]
      exact hs₁

end Phase

theorem lt_of_received {lines : List Str} (hFits : received n lines ≤ n % 2 ^ 28)
    (hAll : received n lines = n) : n < 2 ^ 28 := by
  omega

/-- A message that fits is received into its memory. -/
theorem after_recIntoContainer {s : Controller} (hs : Phase true false 0 s) (hFits : Fits s.input) :
    Attempt.After
      (fun message s' => Phase true false 0 s' ∧ message.parameters.length < 2 ^ 28)
      (fun _ => Phase true false 0) (recIntoContainer s) := by
  unfold recIntoContainer
  rcases (writes_mcCalloc sizeofPcStart _ Phase.kept s hs).cases with
    ⟨_, s₁, hFirst, hs₁⟩ | ⟨code, s₁, hFirst, hs₁⟩
  swap
  · rw [bind_of_error hFirst]
    exact hs₁
  rw [bind_of_ok hFirst]
  rcases (writes_recHeader _ Phase.kept s₁ hs₁).cases with
    ⟨⟨message, n⟩, s₂, hHeader, hs₂⟩ | ⟨code, s₂, hHeader, hs₂⟩
  swap
  · rw [bind_of_error hHeader]
    exact hs₂
  rw [bind_of_ok hHeader]
  have hReceived : received n s₂.input ≤ n % 2 ^ 28 := by
    have hHead := agrees_recHeader.sound hHeader
    rw [(silent_mcCalloc _).sound hFirst] at hHead
    exact hFits message n s₂.input hHead
  dsimp only
  rcases (writes_mcCalloc (sizeofString * n) _ Phase.kept s₂ hs₂).cases with
    ⟨allocated, s₃, hArray, hs₃⟩ | ⟨code, s₃, hArray, hs₃⟩
  swap
  · rw [bind_of_error hArray]
    exact hs₃
  rw [bind_of_ok hArray]
  have hInput : s₃.input = s₂.input := (silent_mcCalloc _).sound hArray
  have hRoom : (0 + received n s₃.input) * sizeofString ≤ allocated := by
    rcases bind_eq_ok.mp hArray with ⟨u, s', hMemory, hLen⟩
    rw [(pure_eq_ok.mp hLen).1, callocLen_strings, Nat.zero_add, hInput]
    exact Nat.mul_le_mul_right _ hReceived
  refine after_bind (after_recParameters n 0 s₃ hs₃ hRoom) fun parameters s₄ h => ?_
  obtain ⟨hs₄, hCount, hAll⟩ := h
  have hSmall : parameters.length < 2 ^ 28 := by
    rw [hCount]
    rw [hInput] at hAll
    exact lt_of_received hReceived hAll
  have hEmpty : Writes Element.Inside (receive StartProtocol.recEmptyLine) :=
    writes_receive total_recEmptyLine
  exact after_bind (hEmpty _ Phase.kept s₄ hs₄) fun _ s₅ hs₅ => ⟨hs₅, hSmall⟩

/-- The memory of `arg_vector`. -/
def argVectorLen (message : StartMessage) : Nat :=
  callocLen ((message.parameters.length + 8) % 2 ^ 32 * sizeofPointer)

theorem inside_argVector {message : StartMessage} (hSmall : message.parameters.length < 2 ^ 28)
    {i : Nat} (hi : i ≤ message.parameters.length + 6) :
    Element.Inside ⟨sizeofPointer, i, argVectorLen message⟩ := by
  unfold Element.Inside argVectorLen
  rw [callocLen_pointers hSmall]
  refine Nat.mul_le_mul_right _ ?_
  show i + 1 ≤ message.parameters.length + 8
  omega

section Start

variable {Q : Element → Prop} {P P' : Controller → Prop} {message : StartMessage} {s : Controller}

theorem after_startProcess (hP : Kept Q P) (hStart : ∀ s, P s → P' { s with started := true })
    (hQ : ∀ i ≤ message.parameters.length + 6, Q ⟨sizeofPointer, i, allocated⟩) (hs : P s) :
    Attempt.After (fun _ => P') (fun _ => P) (startProcess allocated message s) := by
  unfold startProcess
  refine after_bind (writes_call P hP s hs) fun _ s₁ hs₁ => ?_
  refine after_bind (writes_call P hP s₁ hs₁) fun _ s₂ hs₂ => ?_
  refine after_bind (writes_prepareDaemon hQ P hP s₂ hs₂) fun _ s₃ hs₃ => ?_
  refine after_bind (writes_call P hP s₃ hs₃) fun _ s₄ hs₄ => ?_
  refine after_bind (writes_call P hP s₄ hs₄) fun _ s₅ hs₅ => ?_
  exact hStart s₅ hs₅

/-- Only elements of `arg_vector` up to number `num_parameters + 6` are written. -/
theorem after_startMessage (hP : Kept Q P) (hStart : ∀ s, P s → P' { s with started := true })
    (hQ : ∀ i ≤ message.parameters.length + 6, Q ⟨sizeofPointer, i, argVectorLen message⟩)
    (hs : P s) : Attempt.After (fun _ => P') (fun _ => P) (startMessage message s) := by
  unfold startMessage
  rcases (writes_mcCalloc _ P hP s hs).cases with
    ⟨allocated, s₁, hArray, hs₁⟩ | ⟨code, s₁, hArray, hs₁⟩
  swap
  · rw [bind_of_error hArray]
    exact hs₁
  rw [bind_of_ok hArray]
  obtain rfl : argVectorLen message = allocated := by
    rcases bind_eq_ok.mp hArray with ⟨u, s', hMemory, hLen⟩
    exact (pure_eq_ok.mp hLen).1.symm
  by_cases hCertified : Certified message.programName
  swap
  · rw [if_neg hCertified]
    exact hs₁
  rw [if_pos hCertified]
  refine after_bind (writes_write (hQ 0 (Nat.zero_le _)) P hP s₁ hs₁) fun _ s₂ hs₂ => ?_
  have hArguments : Writes Q (writeArguments (argVectorLen message) 0 message.parameters) := by
    refine writes_writeArguments _ 0 fun j _ hj => hQ j ?_
    rw [Nat.zero_add] at hj
    exact Nat.le_add_right_of_le hj
  refine after_bind (hArguments P hP s₂ hs₂) fun _ s₃ hs₃ => ?_
  by_cases hNode : getNodeidInArgVector message.programName message.parameters = 0
  · rw [if_pos hNode]
    exact hs₃
  · rw [if_neg hNode]
    exact after_startProcess hP hStart hQ hs₃

/-- The label `error` frees the container, whatever the client is told. -/
theorem after_startFailed (hP : Kept Q P') (hFree : P' { s with frees := s.frees + 1 })
    (code : Nat) : Attempt.After (fun _ => P') (fun _ => P') (startFailed code s) := by
  unfold startFailed
  have hFreed : Attempt.After (fun _ => P') (fun _ => P') (mcFree s) := hFree
  refine after_bind hFreed fun _ s₁ hs₁ => ?_
  have hAnswer : Writes Q
      (if code = errorProcessAlreadyRunning then call else reply >>= fun _ => Attempt.throw code) :=
    writes_ite writes_call (writes_bind writes_reply fun _ => writes_throw code)
  exact hAnswer P' hP s₁ hs₁

end Start

theorem Phase.free {s : Controller} (hs : Phase true false 0 s) :
    Phase true false 1 { s with frees := s.frees + 1 } :=
  ⟨hs.inside, hs.created, hs.started, congrArg (· + 1) hs.frees⟩

theorem Phase.start {s : Controller} (hs : Phase true false 0 s) :
    Phase true true 0 { s with started := true } :=
  ⟨hs.inside, hs.created, rfl, hs.frees⟩

theorem after_recStartMessage (hFits : Fits input) (replies : List Nat) :
    Attempt.After
      (fun message s' => Phase true false 0 s' ∧ message.parameters.length < 2 ^ 28)
      (fun _ => Controller.Ok) (recStartMessage (connected input replies)) := by
  have hNew : Phase false false 0 (connected input replies) :=
    ⟨fun e hMem => absurd hMem not_mem_nil, rfl, rfl, rfl⟩
  unfold recStartMessage createMemoryContainer
  rw [bind_assoc]
  rcases (writes_memory _ Phase.kept _ hNew).cases with
    ⟨u, s, hMemory, hs⟩ | ⟨code, s, hMemory, hs⟩
  · rw [bind_of_ok hMemory]
    -- now there is a container
    have hInput : s.input = input := silent_memory.sound hMemory
    have hs₁ : Phase true false 0 { s with created := true } :=
      ⟨hs.inside, rfl, hs.started, hs.frees⟩
    have hReceive := after_recIntoContainer hs₁ (hInput ▸ hFits)
    exact after_onError (g := mcFree) hReceive fun code s₂ hs₂ => hs₂.free.ok rfl
  · rw [bind_of_error hMemory]
    exact hs.ok rfl

/-- Every message that fits is handled well, whatever the calls return. -/
theorem safe_of_fits (hFits : Fits input) (replies : List Nat) :
    Safe (handleStart (connected input replies)) := by
  unfold Safe handleStart
  refine after_bind (after_recStartMessage hFits replies) fun message s hs => ?_
  have hStart := after_startMessage Phase.kept (fun _ => Phase.start)
    (fun i hi => inside_argVector hs.2 hi) hs.1
  refine after_handle hStart (fun _ s₁ hs₁ => ?_) fun code s₁ hs₁ => ?_
  · exact (writes_call _ Phase.kept s₁ hs₁).mono (fun _ _ hs₂ => hs₂.ok rfl)
      fun _ _ hs₂ => hs₂.ok rfl
  · exact (after_startFailed Phase.kept hs₁.free code).mono (fun _ _ hs₂ => hs₂.ok rfl)
      fun _ _ hs₂ => hs₂.ok rfl

/-! ## Unsafe -/

/-- The element has been written. -/
def Wrote (e : Element) (s : Controller) : Prop := e ∈ s.written

theorem Wrote.kept (e : Element) : Kept (fun _ => True) (Wrote e) := by
  constructor
  · exact fun _ _ _ hs => hs
  · exact fun _ _ _ hs => mem_cons_of_mem _ hs

/-- With all memory there, the loop of `rec_start_message` writes an element for each line. -/
theorem after_recParameters_wrote (allocated n : Nat) :
    ∀ i k s, s.replies = [] → k < received n s.input →
      Attempt.After (fun _ => Wrote ⟨sizeofString, i + k, allocated⟩)
        (fun _ => Wrote ⟨sizeofString, i + k, allocated⟩) (recParameters allocated i n s) := by
  induction n with
  | zero =>
    intro i k s _ hk
    exact absurd (Nat.lt_of_lt_of_le hk (Nat.min_le_left _ _)) (Nat.not_lt_zero k)
  | succ n ih =>
    intro i k s hReplies hk
    rcases exists_parameter_of_received (Nat.lt_of_le_of_lt (Nat.zero_le k) hk) with
      ⟨line, rest, hInput, hParameter⟩
    rcases mcRecString_parameter.mpr ⟨line, hInput, hParameter⟩ with ⟨str, hStr⟩
    rcases (agrees_mcRecString parameterStr).complete hReplies hStr with
      ⟨s₁, hLine, rfl, hReplies₁⟩
    rw [hInput, received_cons hParameter] at hk
    unfold recParameters
    rw [bind_of_ok hLine, write_bind]
    cases k with
    | zero =>
      -- the element of this line stays there
      have hRest : Writes (fun _ => True) (recParameters allocated (i + 1) n) :=
        writes_recParameters (fun _ => trivial) n (i + 1)
      refine after_bind (hRest _ (Wrote.kept _) _ mem_cons_self) fun _ s₂ hs₂ => ?_
      exact hs₂
    | succ k =>
      have hNext := ih (i + 1) k { s₁ with written := ⟨sizeofString, i, allocated⟩ :: s₁.written }
        hReplies₁ (Nat.lt_of_succ_lt_succ hk)
      rw [Nat.add_assoc, Nat.add_comm 1] at hNext
      exact after_bind hNext fun _ s₂ hs₂ => hs₂

/-- The element behind the memory of `parameters`, for `n` parameters. -/
def outside (n : Nat) : Element := ⟨sizeofString, n % 2 ^ 28, n % 2 ^ 28 * sizeofString⟩

theorem not_inside_outside (n : Nat) : ¬(outside n).Inside := by
  unfold Element.Inside outside sizeofString
  dsimp only
  omega

/-- With more lines than there is memory for, an element outside is written. -/
theorem after_recIntoContainer_wrote {s : Controller} {message : StartMessage}
    (hReplies : s.replies = []) (hHead : StartProtocol.recHeader s.input = .ok (message, n) rest)
    (hMany : n % 2 ^ 28 < received n rest) :
    Attempt.After (fun _ => Wrote (outside n)) (fun _ => Wrote (outside n))
      (recIntoContainer s) := by
  rcases (silent_mcCalloc sizeofPcStart).complete hReplies with
    ⟨_, s₁, hFirst, hInput₁, hReplies₁⟩
  rw [← hInput₁] at hHead
  rcases agrees_recHeader.complete hReplies₁ hHead with ⟨s₂, hHeader, hInput₂, hReplies₂⟩
  rcases (silent_mcCalloc (sizeofString * n)).complete hReplies₂ with
    ⟨allocated, s₃, hArray, hInput₃, hReplies₃⟩
  obtain rfl : n % 2 ^ 28 * sizeofString = allocated := by
    rcases bind_eq_ok.mp hArray with ⟨u, s', hMemory, hLen⟩
    rw [← callocLen_strings, (pure_eq_ok.mp hLen).1]
  have hLoop : Attempt.After (fun _ => Wrote (outside n)) (fun _ => Wrote (outside n))
      (recParameters (n % 2 ^ 28 * sizeofString) 0 n s₃) := by
    have hWrote := after_recParameters_wrote (n % 2 ^ 28 * sizeofString) n 0 (n % 2 ^ 28) s₃
      hReplies₃ (by rwa [hInput₃, hInput₂])
    rw [Nat.zero_add] at hWrote
    exact hWrote
  unfold recIntoContainer
  rw [bind_of_ok hFirst, bind_of_ok hHeader]
  dsimp only
  rw [bind_of_ok hArray]
  refine after_bind hLoop fun parameters s₄ hs₄ => ?_
  have hEmpty : Writes (fun _ => True) (receive StartProtocol.recEmptyLine) :=
    writes_receive total_recEmptyLine
  exact after_bind (hEmpty _ (Wrote.kept _) s₄ hs₄) fun _ s₅ hs₅ => hs₅

/-- A message with more lines than there is memory for is not handled well. -/
theorem not_safe_of_outside {message : StartMessage}
    (hHead : StartProtocol.recHeader input = .ok (message, n) rest)
    (hMany : n % 2 ^ 28 < received n rest) : ¬Safe (handleStart (connected input [])) := by
  intro hSafe
  have hReceive := after_recIntoContainer_wrote
    (s := { connected input [] with created := true }) rfl hHead hMany
  have hMessage : Attempt.After (fun _ => Wrote (outside n)) (fun _ => Wrote (outside n))
      (recStartMessage (connected input [])) :=
    after_onError (g := mcFree) hReceive fun code s hs => hs
  have hStart : Attempt.After (fun _ => Wrote (outside n)) (fun _ => Wrote (outside n))
      (handleStart (connected input [])) := by
    refine after_bind hMessage fun message s hs => ?_
    have hWrote := Wrote.kept (outside n)
    refine after_handle (after_startMessage hWrote (fun _ h => h) (fun _ _ => trivial) hs)
      (fun _ s₁ hs₁ => writes_call _ hWrote s₁ hs₁) fun code s₁ hs₁ => ?_
    exact after_startFailed hWrote hs₁ code
  unfold Safe at hSafe
  rcases hStart.cases with ⟨u, s, hEnd, hs⟩ | ⟨code, s, hEnd, hs⟩
  · rw [hEnd] at hSafe
    exact not_inside_outside n (hSafe.inside _ hs)
  · rw [hEnd] at hSafe
    exact not_inside_outside n (hSafe.inside _ hs)

/-- A start message is handled well, whatever the calls return, if and only if it has no more
parameter lines than parameters are in the memory: 2^28 of them take 2^32 bytes, which is 0. -/
theorem start_memory_iff (input : List Str) :
    (∀ replies, Safe (handleStart (connected input replies))) ↔ Fits input := by
  constructor
  · intro hSafe message n rest hHead
    by_contra hMany
    exact not_safe_of_outside hHead (Nat.lt_of_not_le hMany) (hSafe [])
  · exact safe_of_fits

/-- A start message for `n` parameters, with one of them. -/
def oneParameter (n : Nat) : List Str :=
  StartProtocol.body
    ⟨⟨ascii "g", ascii "c", ascii "n"⟩, clusterServerProgramStr, ascii "v", [], false⟩
    n [keyLine parameterStr nodeIdStr]

theorem oneParameter_short (hn : n < 2 ^ 64) :
    ∀ line ∈ oneParameter n, line.length < configReadBufSize := by
  have hNumber : (withNumber numParametersStr n).length < configReadBufSize :=
    StartProtocol.length_withNumber (by decide) hn
  intro line hLine
  unfold oneParameter StartProtocol.body at hLine
  simp only [cons_append, nil_append, mem_cons, not_mem_nil, or_false] at hLine
  rcases hLine with rfl | rfl | rfl | rfl | rfl | rfl | rfl | rfl | rfl
  · decide
  · decide
  · decide
  · decide
  · decide
  · decide
  · exact hNumber
  · decide
  · decide

/-- When the parameters take no memory, there is none for the first one. -/
theorem oneParameter_not_safe (hPos : 0 < n) (hn : n < Protocol.maxUint32) (hNone : n % 2 ^ 28 = 0)
    : ¬Safe (handleStart (connected (oneParameter n) [])) := by
  have hHead : StartProtocol.recHeader (oneParameter n ++ []) = _ :=
    StartProtocol.recHeader_body hn (oneParameter_short (hn.trans (by decide)))
  rw [append_nil] at hHead
  refine not_safe_of_outside hHead ?_
  rw [hNone]
  exact received_pos _ hPos (by decide)

/-- 2^28 parameters take no memory. -/
theorem parameters_without_memory :
    ¬∀ replies, Safe (handleStart (connected (oneParameter 268435456) replies)) := by
  intro hSafe
  -- with the literal in its place, unification would count up to it
  obtain ⟨n, hn⟩ : ∃ n, n = 268435456 := ⟨_, rfl⟩
  rw [← hn] at hSafe
  refine oneParameter_not_safe ?_ ?_ ?_ (hSafe [])
  · omega
  · unfold Protocol.maxUint32
    omega
  · omega

end IClaustron.Pcntrl.StartMemory
