import IClaustron.DynArray.Slots
import IClaustron.Lib.Lines
import IClaustron.Lib.Outcome
import IClaustron.Pcntrl.Listing
import IClaustron.Protocol.Messages

/-!
# Pcntrl.CopyFiles — installing the files of a cluster server

Model of handle_receive_file and handle_copy_cluster_server_files in pcntrl/ic_pcntrl.c.

* `copy_files_iff` — the installation is atomic when it fails before a file is created, or when it
  is complete and none of the files existed.

Scope limits: memory is there. An operation of the system that fails changes nothing, and the code
comes from the environment; a file is closed on an error path without a look at the outcome.
-/

namespace IClaustron.Pcntrl.CopyFiles

open Lib DynArray List
open Attempt hiding pure bind throw modify loop handle

/-! ## Model -/

def clusterServerNodeIdStr : Str := ascii "cluster server node id:"
def numberOfClustersStr : Str := ascii "number of clusters:"
def receiveConfigIniStr : Str := ascii "receive config.ini"
def numberOfLinesStr : Str := ascii "number of lines:"
def receiveGridCommonIniStr : Str := ascii "receive grid_common.ini"
def receiveClusterNameIniStr : Str := ascii "receive"
def receiveConfigFileOkStr : Str := ascii "receive config file ok"

/-- What `ic_create_config_file_name` makes of `ic_config_string`. -/
def configIni : Str := ascii "config.ini"
/-- What it makes of `ic_grid_common_config_string`. -/
def gridCommonIni : Str := ascii "grid_common.ini"

/-- CARRIAGE_RETURN. -/
def carriageReturn : UInt8 := 10

/-- The process controller in a conversation. `replies` are the return codes of the operations of
the system and of the sends to come, 0 when there are no more. A file name is known by the address
`next` it was allocated at; `recorded` are those that were put into the array. -/
structure Host where
  input : List Str
  output : List Str
  files : Str → Option Str
  replies : List Nat
  array : DynamicArray
  numFiles : Nat
  names : Nat → Str
  next : Nat
  recorded : List Nat
  freed : List Nat

abbrev Op := Attempt Host Nat

/-- An operation of the system, or a send. -/
def reply : Op Unit := fun h =>
  match h.replies with
  | [] => .ok () h
  | 0 :: replies => .ok () { h with replies }
  | code :: replies => .error code { h with replies }

/-- `ic_rec_with_cr`. -/
def recLine : Op Str := fun h =>
  match recWithCr h.input with
  | .ok (line, input) => .ok line { h with input }
  | .error code => .error code h

/-- `ic_rec_simple_str`. -/
def recSimpleStr (str : Str) : Op Unit := do
  let line ← recLine
  if line = str then pure () else Attempt.throw protocolError

/-- `ic_rec_number`. -/
def recNumber (word : Str) : Op Nat := do
  let line ← recLine
  match Protocol.checkBufWithInt line word with
  | some number =>
    if Protocol.maxUint32 ≤ number then Attempt.throw protocolError else pure number
  | none => Attempt.throw protocolError

/-- `ic_rec_string`. -/
def recString (word : Str) : Op Str := do
  let line ← recLine
  if line.length < word.length + 1 then Attempt.throw protocolError
  else if line.take word.length ≠ word then Attempt.throw protocolError
  else pure (line.drop (Protocol.valuePos word line))

/-- `ic_send_with_cr`. -/
def sendWithCr (line : Str) : Op Unit := do
  reply
  Attempt.modify fun h => { h with output := h.output ++ [line] }

def setFile (files : Str → Option Str) (path content : Str) : Str → Option Str :=
  fun name => if name = path then some content else files name

/-- `ic_insert_ptr`; the position goes to `num_files`. -/
def insertName (p : Nat) : Op Unit := fun h =>
  match insertPtr (fun _ => true) h.array p with
  | some (array, ret, position) =>
    if ret ≠ 0 then .error ret { h with array }
    else .ok () { h with array, numFiles := position, recorded := h.recorded ++ [p] }
  | none => .abort

/-- `ic_create_file`: the file is opened with O_CREAT and O_TRUNC. After an error the name that
was just inserted is not counted. -/
def createFile (path : Str) : Op Unit := fun h =>
  match reply h with
  | .ok _ h => .ok () { h with files := setFile h.files path [] }
  | .error code h => .error code { h with numFiles := h.numFiles - 1 }
  | .abort => .abort

/-- `ic_write_file`. -/
def writeFile (path data : Str) : Op Unit := do
  reply
  Attempt.modify fun h => { h with files := setFile h.files path ((h.files path).getD [] ++ data) }

/-- A round of the loop of `handle_receive_file`, with `add_cr`. -/
def receiveLine (path : Str) : Op Unit := do
  let line ← recLine
  writeFile path (line ++ [carriageReturn])

/-- `handle_receive_file` after the file was created. -/
def receiveLines (path : Str) (numberOfLines : Nat) : Op Unit := do
  Attempt.loop numberOfLines (receiveLine path)
  recSimpleStr []
  reply

/-- `handle_receive_file` with an array. The name is freed at the label `end`, which every path
comes to. -/
def handleReceiveFile (configDir : Nat → Str) (fileName : Str) (nodeId numberOfLines : Nat) :
    Op Unit := fun h =>
  let p := h.next
  let path := configDir nodeId ++ cStr fileName
  let transfer : Op Unit := do
    insertName p
    createFile path
    receiveLines path numberOfLines
  transfer.andThen (fun h => { h with freed := h.freed ++ [p] })
    { h with next := p + 1, names := fun q => if q = p then path else h.names q }

/-- The reply to a file. -/
def sendFileOk : Op Unit := do
  sendWithCr receiveConfigFileOkStr
  sendWithCr []

/-- A file and the reply to it. -/
def receiveFile (configDir : Nat → Str) (nodeId : Nat) (fileName : Str) (numLines : Nat) :
    Op Unit := do
  handleReceiveFile configDir fileName nodeId numLines
  sendFileOk

/-- A round of the loop over the clusters. -/
def receiveCluster (configDir : Nat → Str) (nodeId : Nat) : Op Unit := do
  let fileName ← recString receiveClusterNameIniStr
  let numLines ← recNumber numberOfLinesStr
  receiveFile configDir nodeId fileName numLines

/-- `handle_copy_cluster_server_files` after the first file. -/
def receiveOthers (configDir : Nat → Str) (nodeId numClusters : Nat) : Op Unit := do
  recSimpleStr receiveGridCommonIniStr
  let numLines ← recNumber numberOfLinesStr
  receiveFile configDir nodeId gridCommonIni numLines
  Attempt.loop numClusters (receiveCluster configDir nodeId)

/-- The part of `handle_copy_cluster_server_files` that can go to `error_delete_files`. -/
def copyFiles (configDir : Nat → Str) : Op Unit := do
  let nodeId ← recNumber clusterServerNodeIdStr
  let numClusters ← recNumber numberOfClustersStr
  recSimpleStr receiveConfigIniStr
  let numLines ← recNumber numberOfLinesStr
  -- ic_mkdir
  reply
  receiveFile configDir nodeId configIni numLines
  receiveOthers configDir nodeId numClusters

/-- The loop at `error_delete_files`; `object` is `mem_alloc_object`. `ic_require` gets the return
code of `ic_get_ptr`, which is 0 when the pointer was found, and stops the program then. -/
def deleteFiles : Option Nat → List Nat → Host → Option Host
  | _, [], h => some h
  | object, i :: is, h => do
    let (ret, _) ← getPtr h.array i
    if ret = 0 then none
    else
      let p ← object
      deleteFiles object is { h with
        files := fun name => if name = h.names p then none else h.files name
        freed := h.freed ++ [p] }

/-- What a conversation starts with: the lines that the peer sends, the files of the host and the
return codes of the environment. -/
structure Start where
  input : List Str
  files : Str → Option Str
  replies : List Nat

def Start.host (s : Start) (array : DynamicArray) : Host :=
  ⟨s.input, [], s.files, s.replies, array, 0, fun _ => [], 1, [], []⟩

/-- `handle_copy_cluster_server_files`: the return code and what is left, or `none` when the
program was stopped. -/
def handleCopyClusterServerFiles (configDir : Nat → Str) (s : Start) : Option (Nat × Host) := do
  let array ← createPtrArray (fun _ => true) Heap.empty
  match copyFiles configDir (s.host array) with
  | .ok _ h => some (0, h)
  | .error code h => do
    let h ← deleteFiles none (List.range h.numFiles) h
    some (code, { h with output := h.output ++ [errorStr, getErrorMessage code, []] })
  | .abort => none

/-! ## Conversations -/

/-- The line is the key word with this number. -/
def NumberLine (word line : Str) (number : Nat) : Prop :=
  line.length < configReadBufSize ∧ Protocol.checkBufWithInt line word = some number ∧
    number < Protocol.maxUint32

/-- The line is the key word with this name. -/
def NameLine (word line name : Str) : Prop :=
  line.length < configReadBufSize ∧ word.length + 1 ≤ line.length ∧ line.take word.length = word ∧
    line.drop (Protocol.valuePos word line) = name

/-- The lines of a file, the count before them and the empty line after them. -/
def FileLines (input lines rest : List Str) : Prop :=
  ∃ count, input = count :: lines ++ [] :: rest ∧
    NumberLine numberOfLinesStr count lines.length ∧ ∀ l ∈ lines, l.length < configReadBufSize

/-- The files of the clusters. -/
inductive ClusterFiles : List Str → List (Str × List Str) → List Str → Prop
  | nil {rest : List Str} : ClusterFiles rest [] rest
  | cons {line name : Str} {input input' rest lines : List Str}
      {files : List (Str × List Str)} :
    NameLine receiveClusterNameIniStr line name → FileLines input lines input' →
    ClusterFiles input' files rest → ClusterFiles (line :: input) ((name, lines) :: files) rest

/-- The lines before the first file: the node id and the number of clusters. -/
def Opening (input : List Str) (nodeId numClusters : Nat) (rest : List Str) : Prop :=
  ∃ node clusters, input = node :: clusters :: receiveConfigIniStr :: rest ∧
    NumberLine clusterServerNodeIdStr node nodeId ∧
    NumberLine numberOfClustersStr clusters numClusters

/-- A whole conversation, with the files that it announces. -/
def Conversation (input : List Str) (nodeId : Nat) (files : List (Str × List Str)) : Prop :=
  ∃ config gridCommon clusters input₁ input₂ input₃ rest,
    Opening input nodeId clusters.length input₁ ∧
    FileLines input₁ config (receiveGridCommonIniStr :: input₂) ∧
    FileLines input₂ gridCommon input₃ ∧ ClusterFiles input₃ clusters rest ∧
    files = (configIni, config) :: (gridCommonIni, gridCommon) :: clusters

/-- What is written for these lines. -/
def content (lines : List Str) : Str := unlines carriageReturn lines

def path (configDir : Nat → Str) (nodeId : Nat) (file : Str × List Str) : Str :=
  configDir nodeId ++ cStr file.1

/-- The first `n` operations return 0. -/
def Quiet (n : Nat) (replies : List Nat) : Prop := ∀ code ∈ replies.take n, code = 0

/-- The operations for a file: it is created, its lines are written, it is closed, and two lines
are sent. -/
def fileOps (file : Str × List Str) : Nat := file.2.length + 4

/-- The operations of a conversation; the first one is the creation of the directory. -/
def ops (files : List (Str × List Str)) : Nat := 1 + (files.map fileOps).sum

/-! ## The property -/

/-- Every recorded name was freed once. -/
def FreedOnce (h : Host) : Prop := ∀ p ∈ h.recorded, h.freed.count p = 1

/-- After an error the files are as before, and the peer gets an error message. -/
structure Undone (s : Start) (h : Host) : Prop where
  files : h.files = s.files
  freed : FreedOnce h
  answered : ∃ lines message, h.output = lines ++ [errorStr, message, []]

/-- The announced files were new, and are there with their contents. -/
structure Installed (configDir : Nat → Str) (s : Start) (h : Host) : Prop where
  announced : ∃ nodeId files, Conversation s.input nodeId files ∧
    (files.map (path configDir nodeId)).Nodup ∧
    (∀ file ∈ files, s.files (path configDir nodeId file) = none ∧
      h.files (path configDir nodeId file) = some (content file.2)) ∧
    ∀ name, name ∉ files.map (path configDir nodeId) → h.files name = s.files name
  freed : FreedOnce h

def Atomic (configDir : Nat → Str) (s : Start) : Prop :=
  ∃ code h, handleCopyClusterServerFiles configDir s = some (code, h) ∧
    if code = 0 then Installed configDir s h else Undone s h

/-- The first file is created. -/
def Created (s : Start) : Prop :=
  (∃ nodeId numClusters line numLines rest, Opening s.input nodeId numClusters (line :: rest) ∧
    NumberLine numberOfLinesStr line numLines) ∧ Quiet 2 s.replies

/-- All files are announced and new, and no operation fails. -/
def Complete (configDir : Nat → Str) (s : Start) : Prop :=
  ∃ nodeId files, Conversation s.input nodeId files ∧ Quiet (ops files) s.replies ∧
    (files.map (path configDir nodeId)).Nodup ∧
    ∀ file ∈ files, s.files (path configDir nodeId file) = none

/-! ## Single operations -/

variable {configDir : Nat → Str} {h h' : Host}

variable {n numLines : Nat} {u : Unit} {line name word : Str} {input rest : List Str} {α : Type}
  {array : DynamicArray}

theorem quiet_add {m : Nat} {replies : List Nat} :
    Quiet (n + m) replies ↔ Quiet n replies ∧ Quiet m (replies.drop n) := by
  unfold Quiet
  rw [take_add, forall_mem_append]

theorem reply_eq_ok :
    reply h = .ok u h' ↔ Quiet 1 h.replies ∧ h' = { h with replies := h.replies.drop 1 } := by
  unfold reply Quiet
  match hReplies : h.replies with
  | [] =>
    have hSame : h = { h with replies := [] } := by
      cases h
      simp_all
    simp only [Outcome.ok.injEq, true_and, take_nil, not_mem_nil, false_imp_iff,
      implies_true, drop_nil]
    rw [← hSame]
    exact eq_comm
  | 0 :: replies =>
    simp only [Outcome.ok.injEq, true_and, take_succ_cons, take_zero,
      mem_singleton, forall_eq, drop_succ_cons, drop_zero]
    exact eq_comm
  | (code + 1) :: replies => simp

theorem recLine_eq_ok :
    recLine h = .ok line h' ↔
      ∃ rest, h.input = line :: rest ∧ line.length < configReadBufSize ∧
        h' = { h with input := rest } := by
  unfold recLine recWithCr
  match hInput : h.input with
  | [] =>
    constructor
    · rintro hOk
      cases hOk
    · rintro ⟨rest, hLine, -⟩
      cases hLine
  | line' :: rest =>
    dsimp only
    split_ifs with hShort
    · constructor
      · rintro hOk
        cases hOk
        exact ⟨rest, rfl, hShort, rfl⟩
      · rintro ⟨rest', hLine, -, rfl⟩
        cases hLine
        rfl
    · constructor
      · rintro hOk
        cases hOk
      · rintro ⟨rest', hLine, hShort', -⟩
        cases hLine
        exact absurd hShort' hShort

theorem recSimpleStr_eq_ok {str : Str} (hStr : str.length < configReadBufSize) :
    recSimpleStr str h = .ok u h' ↔ ∃ rest, h.input = str :: rest ∧ h' = { h with input := rest } := by
  unfold recSimpleStr
  rw [bind_eq_ok]
  constructor
  · rintro ⟨line, h₁, hLine, hOk⟩
    obtain ⟨rest, hInput, -, rfl⟩ := recLine_eq_ok.mp hLine
    split_ifs at hOk with hEq
    · obtain ⟨-, rfl⟩ := pure_eq_ok.mp hOk
      exact ⟨rest, hEq ▸ hInput, rfl⟩
    · exact (throw_eq_ok.mp hOk).elim
  · rintro ⟨rest, hInput, rfl⟩
    refine ⟨str, _, recLine_eq_ok.mpr ⟨rest, hInput, hStr, rfl⟩, ?_⟩
    rw [if_pos rfl]
    rfl

theorem recNumber_eq_ok {number : Nat} :
    recNumber word h = .ok number h' ↔
      ∃ line rest, h.input = line :: rest ∧ NumberLine word line number ∧
        h' = { h with input := rest } := by
  unfold recNumber
  rw [bind_eq_ok]
  constructor
  · rintro ⟨line, h₁, hLine, hOk⟩
    obtain ⟨rest, hInput, hShort, rfl⟩ := recLine_eq_ok.mp hLine
    cases hNumber : Protocol.checkBufWithInt line word with
    | none =>
      rw [hNumber] at hOk
      exact (throw_eq_ok.mp hOk).elim
    | some n =>
      rw [hNumber] at hOk
      dsimp only at hOk
      split_ifs at hOk with hMax
      · exact (throw_eq_ok.mp hOk).elim
      · obtain ⟨rfl, rfl⟩ := pure_eq_ok.mp hOk
        exact ⟨line, rest, hInput, ⟨hShort, hNumber, Nat.lt_of_not_le hMax⟩, rfl⟩
  · rintro ⟨line, rest, hInput, ⟨hShort, hNumber, hMax⟩, rfl⟩
    refine ⟨line, _, recLine_eq_ok.mpr ⟨rest, hInput, hShort, rfl⟩, ?_⟩
    rw [hNumber]
    dsimp only
    rw [if_neg (Nat.not_le.mpr hMax)]
    rfl

theorem recString_eq_ok :
    recString word h = .ok name h' ↔
      ∃ line rest, h.input = line :: rest ∧ NameLine word line name ∧
        h' = { h with input := rest } := by
  unfold recString
  rw [bind_eq_ok]
  constructor
  · rintro ⟨line, h₁, hLine, hOk⟩
    obtain ⟨rest, hInput, hShort, rfl⟩ := recLine_eq_ok.mp hLine
    split_ifs at hOk with hLong hWord
    · exact (throw_eq_ok.mp hOk).elim
    · exact (throw_eq_ok.mp hOk).elim
    · obtain ⟨rfl, rfl⟩ := pure_eq_ok.mp hOk
      exact ⟨line, rest, hInput, ⟨hShort, Nat.le_of_not_lt hLong, not_not.mp hWord, rfl⟩, rfl⟩
  · rintro ⟨line, rest, hInput, ⟨hShort, hLong, hWord, rfl⟩, rfl⟩
    refine ⟨line, _, recLine_eq_ok.mpr ⟨rest, hInput, hShort, rfl⟩, ?_⟩
    rw [if_neg (Nat.not_lt.mpr hLong), if_neg (not_not.mpr hWord)]
    rfl

/-! ## A file -/

variable {file c c' : Str} {files : Str → Option Str}

@[simp] theorem setFile_self : setFile files file c file = some c := if_pos rfl

theorem setFile_of_ne (hName : name ≠ file) : setFile files file c name = files name :=
  if_neg hName

@[simp] theorem setFile_setFile :
    setFile (setFile files file c) file c' = setFile files file c' := by
  funext name
  unfold setFile
  split_ifs <;> rfl

theorem setFile_eq_self (hFile : files file = some c) : setFile files file c = files := by
  funext name
  unfold setFile
  split_ifs with hName
  · rw [hName, hFile]
  · rfl

theorem insertName_eq_ok {p : Nat} :
    insertName p h = .ok u h' ↔ ∃ array n, insertPtr (fun _ => true) h.array p = some (array, 0, n) ∧
      h' = { h with array, numFiles := n, recorded := h.recorded ++ [p] } := by
  unfold insertName
  match insertPtr (fun _ => true) h.array p with
  | none => simp
  | some (array, 0, n) =>
    simp only [ne_eq, not_true_eq_false, if_false, Outcome.ok.injEq, true_and, Option.some.injEq,
      Prod.mk.injEq]
    constructor
    · rintro rfl
      exact ⟨array, n, ⟨rfl, rfl⟩, rfl⟩
    · rintro ⟨_, _, ⟨rfl, rfl⟩, rfl⟩
      rfl
  | some (array, ret + 1, n) => simp

theorem createFile_eq_ok :
    createFile file h = .ok u h' ↔ Quiet 1 h.replies ∧
      h' = { h with files := setFile h.files file [], replies := h.replies.drop 1 } := by
  unfold createFile
  constructor
  · intro hOk
    cases hReply : reply h with
    | ok u' h₁ =>
      obtain ⟨hQuiet, rfl⟩ := reply_eq_ok.mp hReply
      rw [hReply] at hOk
      cases hOk
      exact ⟨hQuiet, rfl⟩
    | error code h₁ =>
      rw [hReply] at hOk
      cases hOk
    | abort =>
      rw [hReply] at hOk
      cases hOk
  · rintro ⟨hQuiet, rfl⟩
    rw [reply_eq_ok (u := ()).mpr ⟨hQuiet, rfl⟩]

theorem sendWithCr_eq_ok :
    sendWithCr line h = .ok u h' ↔ Quiet 1 h.replies ∧
      h' = { h with output := h.output ++ [line], replies := h.replies.drop 1 } := by
  unfold sendWithCr
  rw [bind_eq_ok]
  constructor
  · rintro ⟨_, h₁, hReply, hOk⟩
    obtain ⟨hQuiet, rfl⟩ := reply_eq_ok.mp hReply
    cases hOk
    exact ⟨hQuiet, rfl⟩
  · rintro ⟨hQuiet, rfl⟩
    exact ⟨(), _, reply_eq_ok.mpr ⟨hQuiet, rfl⟩, rfl⟩

theorem receiveLine_eq_ok (hFile : h.files file = some c) :
    receiveLine file h = .ok u h' ↔
      ∃ line rest, h.input = line :: rest ∧ line.length < configReadBufSize ∧ Quiet 1 h.replies ∧
        h' = { h with
          input := rest
          files := setFile h.files file (c ++ (line ++ [carriageReturn]))
          replies := h.replies.drop 1 } := by
  unfold receiveLine writeFile
  simp only [bind_eq_ok]
  constructor
  · rintro ⟨line, h₁, hLine, _, h₂, hReply, hOk⟩
    obtain ⟨rest, hInput, hShort, rfl⟩ := recLine_eq_ok.mp hLine
    obtain ⟨hQuiet, rfl⟩ := reply_eq_ok.mp hReply
    cases hOk
    refine ⟨line, rest, hInput, hShort, hQuiet, ?_⟩
    simp [hFile]
  · rintro ⟨line, rest, hInput, hShort, hQuiet, rfl⟩
    refine ⟨line, _, recLine_eq_ok.mpr ⟨rest, hInput, hShort, rfl⟩, (), _,
      reply_eq_ok.mpr ⟨hQuiet, rfl⟩, ?_⟩
    simp [Attempt.modify, hFile]

/-- The loop writes one line of the file for each line of the message. -/
theorem receiveLine_loop (n : Nat) {h : Host} {c : Str} (hFile : h.files file = some c) :
    Attempt.loop n (receiveLine file) h = .ok u h' ↔
      ∃ lines rest, lines.length = n ∧ h.input = lines ++ rest ∧
        (∀ l ∈ lines, l.length < configReadBufSize) ∧ Quiet n h.replies ∧
        h' = { h with
          input := rest
          files := setFile h.files file (c ++ content lines)
          replies := h.replies.drop n } := by
  induction n generalizing h c with
  | zero =>
    constructor
    · intro hOk
      cases hOk
      refine ⟨[], h'.input, rfl, rfl, by simp, by simp [Quiet], ?_⟩
      simp [content, setFile_eq_self hFile]
    · rintro ⟨lines, rest, hLength, hInput, -, -, rfl⟩
      obtain rfl := length_eq_zero_iff.mp hLength
      obtain rfl : h.input = rest := hInput
      simp only [content, unlines_nil, append_nil, setFile_eq_self hFile, drop_zero]
      rfl
  | succ n ih =>
    show (receiveLine file >>= fun _ => Attempt.loop n (receiveLine file)) h = _ ↔ _
    rw [bind_eq_ok]
    constructor
    · rintro ⟨_, h₁, hLine, hLoop⟩
      obtain ⟨line, rest, hInput, hShort, hQuiet, rfl⟩ := (receiveLine_eq_ok hFile).mp hLine
      obtain ⟨lines, rest', hLength, hInput', hShorts, hQuiet', rfl⟩ := (ih setFile_self).mp hLoop
      obtain rfl : rest = lines ++ rest' := hInput'
      refine ⟨line :: lines, rest', by simp [hLength], hInput, ?_, ?_, ?_⟩
      · exact forall_mem_cons.mpr ⟨hShort, hShorts⟩
      · rw [Nat.add_comm, quiet_add]
        exact ⟨hQuiet, hQuiet'⟩
      · simp [content, append_assoc]
    · rintro ⟨lines, rest, hLength, hInput, hShorts, hQuiet, rfl⟩
      rcases lines with _ | ⟨line, lines⟩
      · cases hLength
      rw [Nat.add_comm, quiet_add] at hQuiet
      rw [forall_mem_cons] at hShorts
      refine ⟨(), _, (receiveLine_eq_ok hFile).mpr ⟨line, lines ++ rest, hInput, hShorts.1, hQuiet.1,
        rfl⟩, (ih setFile_self).mpr ⟨lines, rest, Nat.succ.inj hLength, rfl, hShorts.2, hQuiet.2, ?_⟩⟩
      simp [content, append_assoc]

/-- What `handle_receive_file` leaves when the file had these lines. -/
def Received (file : Str) (lines : List Str) (h h' : Host) : Prop :=
  ∃ rest array n, h.input = lines ++ [] :: rest ∧ (∀ l ∈ lines, l.length < configReadBufSize) ∧
    Quiet (lines.length + 2) h.replies ∧
    insertPtr (fun _ => true) h.array h.next = some (array, 0, n) ∧
    h' = ⟨rest, h.output, setFile h.files file (content lines), h.replies.drop (lines.length + 2),
      array, n, fun q => if q = h.next then file else h.names q, h.next + 1,
      h.recorded ++ [h.next], h.freed ++ [h.next]⟩

theorem handleReceiveFile_eq_ok {nodeId : Nat} :
    handleReceiveFile configDir name nodeId numLines h = .ok u h' ↔
      ∃ lines, lines.length = numLines ∧ Received (configDir nodeId ++ cStr name) lines h h' := by
  unfold handleReceiveFile receiveLines
  simp only [andThen_eq_ok, bind_eq_ok]
  constructor
  · rintro ⟨h₂, ⟨_, h₃, hInsert, _, h₄, hCreate, _, h₅, hLoop, _, h₆, hEmpty, hClose⟩, rfl⟩
    obtain ⟨array, n, hArray, rfl⟩ := insertName_eq_ok.mp hInsert
    obtain ⟨hQuiet, rfl⟩ := createFile_eq_ok.mp hCreate
    obtain ⟨lines, rest, rfl, hInput, hShort, hQuiet₁, rfl⟩ :=
      (receiveLine_loop numLines setFile_self).mp hLoop
    obtain ⟨rest', hRest, rfl⟩ := (recSimpleStr_eq_ok (by decide)).mp hEmpty
    obtain rfl : rest = [] :: rest' := hRest
    obtain ⟨hQuiet₂, rfl⟩ := reply_eq_ok.mp hClose
    refine ⟨lines, rfl, rest', array, n, hInput, hShort, ?_, hArray, ?_⟩
    · have hOps : lines.length + 2 = 1 + (lines.length + 1) := by omega
      rw [hOps, quiet_add, quiet_add]
      exact ⟨hQuiet, hQuiet₁, hQuiet₂⟩
    · have hOps : lines.length + 2 = 1 + lines.length + 1 := by omega
      simp [hOps, drop_drop]
  · rintro ⟨lines, rfl, rest, array, n, hInput, hShort, hQuiet, hArray, rfl⟩
    have hOps : lines.length + 2 = 1 + (lines.length + 1) := by omega
    rw [hOps, quiet_add, quiet_add] at hQuiet
    obtain ⟨hQuiet, hQuiet₁, hQuiet₂⟩ := hQuiet
    refine ⟨_, ⟨(), _, insertName_eq_ok.mpr ⟨array, n, hArray, rfl⟩, (), _,
      createFile_eq_ok.mpr ⟨hQuiet, rfl⟩, (), _, (receiveLine_loop lines.length setFile_self).mpr
        ⟨lines, [] :: rest, rfl, hInput, hShort, hQuiet₁, rfl⟩, (), _,
      (recSimpleStr_eq_ok (by decide)).mpr ⟨rest, rfl, rfl⟩, reply_eq_ok.mpr ⟨hQuiet₂, rfl⟩⟩, ?_⟩
    have hOps' : lines.length + 2 = 1 + lines.length + 1 := by omega
    simp [hOps', drop_drop]

/-- A file with these lines is received, and the peer is told so. -/
def Copied (file : Str) (lines : List Str) (h h' : Host) : Prop :=
  Quiet (lines.length + 4) h.replies ∧
    ∃ h₁, Received file lines h h₁ ∧
      h' = { h₁ with
        output := h₁.output ++ [receiveConfigFileOkStr] ++ [[]]
        replies := h.replies.drop (lines.length + 4) }

theorem receiveFile_eq_ok {nodeId : Nat} :
    receiveFile configDir nodeId name numLines h = .ok u h' ↔
      ∃ lines, lines.length = numLines ∧ Copied (configDir nodeId ++ cStr name) lines h h' := by
  unfold receiveFile sendFileOk
  rw [bind_eq_ok]
  constructor
  · rintro ⟨_, h₁, hReceive, hSend⟩
    rw [bind_eq_ok] at hSend
    obtain ⟨_, h₂, hSend, hSend'⟩ := hSend
    obtain ⟨lines, hLength, rest, array, n, hInput, hShort, hQuiet, hArray, rfl⟩ :=
      handleReceiveFile_eq_ok.mp hReceive
    obtain ⟨hQuiet₁, rfl⟩ := sendWithCr_eq_ok.mp hSend
    obtain ⟨hQuiet₂, rfl⟩ := sendWithCr_eq_ok.mp hSend'
    refine ⟨lines, hLength, ?_, _, ⟨rest, array, n, hInput, hShort, hQuiet, hArray, rfl⟩, ?_⟩
    · have hOps : lines.length + 4 = lines.length + 2 + (1 + 1) := by omega
      rw [hOps, quiet_add, quiet_add (n := 1)]
      exact ⟨hQuiet, hQuiet₁, hQuiet₂⟩
    · simp [drop_drop]
  · rintro ⟨lines, hLength, hQuiet, h₁, ⟨rest, array, n, hInput, hShort, hQuiet₁, hArray, rfl⟩, rfl⟩
    have hOps : lines.length + 4 = lines.length + 2 + (1 + 1) := by omega
    rw [hOps, quiet_add, quiet_add (n := 1)] at hQuiet
    obtain ⟨-, hQuiet₂, hQuiet₃⟩ := hQuiet
    refine ⟨(), _, handleReceiveFile_eq_ok.mpr
      ⟨lines, hLength, rest, array, n, hInput, hShort, hQuiet₁, hArray, rfl⟩, ?_⟩
    rw [bind_eq_ok]
    refine ⟨(), _, sendWithCr_eq_ok.mpr ⟨hQuiet₂, rfl⟩, sendWithCr_eq_ok.mpr ⟨hQuiet₃, ?_⟩⟩
    simp [drop_drop]

/-! ## Several files -/

/-- The array of file names is in order. -/
def Stored (h : Host) : Prop := ∃ slots, Slots h.array slots ∧ slots[0]? = some 0

/-- What the transfer of files leaves on the host. -/
structure Effect (configDir : Nat → Str) (nodeId : Nat) (sent : List (Str × List Str))
    (h h' : Host) : Prop where
  quiet : Quiet (sent.map fileOps).sum h.replies
  replies : h'.replies = h.replies.drop (sent.map fileOps).sum
  files : h'.files =
    sent.foldl (fun fs file => setFile fs (path configDir nodeId file) (content file.2)) h.files
  next : h'.next = h.next + sent.length
  recorded : h'.recorded = h.recorded ++ List.range' h.next sent.length
  freed : h'.freed = h.freed ++ List.range' h.next sent.length

variable {nodeId : Nat} {lines : List Str} {sent sent' : List (Str × List Str)} {h₁ : Host}

theorem Effect.refl : Effect configDir nodeId [] h h where
  quiet := by simp [Quiet]
  replies := rfl
  files := rfl
  next := rfl
  recorded := (append_nil _).symm
  freed := (append_nil _).symm

theorem Effect.trans (he : Effect configDir nodeId sent h h₁)
    (he' : Effect configDir nodeId sent' h₁ h') : Effect configDir nodeId (sent ++ sent') h h' where
  quiet := by
    rw [map_append, sum_append, quiet_add, ← he.replies]
    exact ⟨he.quiet, he'.quiet⟩
  replies := by rw [he'.replies, he.replies, drop_drop, map_append, sum_append]
  files := by rw [he'.files, he.files, foldl_append]
  next := by
    rw [he'.next, he.next, length_append]
    omega
  recorded := by
    rw [he'.recorded, he.recorded, he.next, length_append, append_assoc,
      range'_append_1]
  freed := by
    rw [he'.freed, he.freed, he.next, length_append, append_assoc, range'_append_1]

/-- The lines before a file do not matter to what is left. -/
theorem Effect.of_input (he : Effect configDir nodeId sent { h with input } h') :
    Effect configDir nodeId sent h h' :=
  ⟨he.quiet, he.replies, he.files, he.next, he.recorded, he.freed⟩

theorem Copied.effect (hc : Copied (configDir nodeId ++ cStr name) lines h h') :
    Effect configDir nodeId [(name, lines)] h h' := by
  obtain ⟨hQuiet, h₁, ⟨rest, array, n, -, -, -, -, rfl⟩, rfl⟩ := hc
  constructor
  · exact hQuiet
  · rfl
  · rfl
  · rfl
  · rfl
  · rfl

theorem Copied.input_eq (hc : Copied file lines h h') : h.input = lines ++ [] :: h'.input := by
  obtain ⟨-, h₁, ⟨rest, array, n, hInput, -, -, -, rfl⟩, rfl⟩ := hc
  exact hInput

theorem Copied.short (hc : Copied file lines h h') : ∀ l ∈ lines, l.length < configReadBufSize := by
  obtain ⟨-, h₁, ⟨rest, array, n, -, hShort, -, -, rfl⟩, rfl⟩ := hc
  exact hShort

theorem insertPtr_stored {a : DynamicArray} {slots : List Nat} (hs : Slots a slots)
    (hHead : slots[0]? = some 0) (p : Nat) :
    ∃ a', insertPtr (fun _ => true) a p = some (a', 0, slots.length) ∧
      Slots a' (slots ++ [p]) ∧ (slots ++ [p])[0]? = some 0 := by
  obtain ⟨a', hInsert, hs'⟩ := insertPtr_of_ok hs hHead p (show ¬(NeedsBuf a ∧ none = some 0) by simp)
    (by simp [FailsIndex])
  have hAll : allocOk none a.mem.fresh = fun _ => true := by
    funext i
    simp [allocOk]
  rw [hAll] at hInsert
  refine ⟨a', hInsert, hs', ?_⟩
  rw [List.getElem?_append_left (List.getElem?_eq_some_iff.mp hHead).1]
  exact hHead

/-- A file is received when its lines are there and no operation fails. -/
theorem copied_of (file : Str) (hStored : Stored h) (hInput : h.input = lines ++ [] :: rest)
    (hShort : ∀ l ∈ lines, l.length < configReadBufSize)
    (hQuiet : Quiet (lines.length + 4) h.replies) :
    ∃ h', Copied file lines h h' ∧ Stored h' ∧ h'.input = rest := by
  obtain ⟨slots, hSlots, hHead⟩ := hStored
  obtain ⟨array, hInsert, hSlots', hHead'⟩ := insertPtr_stored hSlots hHead h.next
  have hFew : Quiet (lines.length + 2) h.replies := (quiet_add (m := 2).mp hQuiet).1
  exact ⟨_, ⟨hQuiet, _, ⟨rest, array, _, hInput, hShort, hFew, hInsert, rfl⟩, rfl⟩,
    ⟨slots ++ [h.next], hSlots', hHead'⟩, rfl⟩

theorem receiveCluster_eq_ok :
    receiveCluster configDir nodeId h = .ok u h' ↔
      ∃ line count rest name lines, h.input = line :: count :: rest ∧
        NameLine receiveClusterNameIniStr line name ∧
        NumberLine numberOfLinesStr count lines.length ∧
        Copied (configDir nodeId ++ cStr name) lines { h with input := rest } h' := by
  unfold receiveCluster
  simp only [bind_eq_ok]
  constructor
  · rintro ⟨name, h₁, hName, numLines, h₂, hNumber, hFile⟩
    obtain ⟨line, rest, hInput, hLine, rfl⟩ := recString_eq_ok.mp hName
    obtain ⟨count, rest', hRest, hCount, rfl⟩ := recNumber_eq_ok.mp hNumber
    obtain rfl : rest = count :: rest' := hRest
    obtain ⟨lines, rfl, hCopied⟩ := receiveFile_eq_ok.mp hFile
    exact ⟨line, count, rest', name, lines, hInput, hLine, hCount, hCopied⟩
  · rintro ⟨line, count, rest, name, lines, hInput, hLine, hCount, hCopied⟩
    exact ⟨name, _, recString_eq_ok.mpr ⟨line, count :: rest, hInput, hLine, rfl⟩, lines.length, _,
      recNumber_eq_ok.mpr ⟨count, rest, rfl, hCount, rfl⟩,
      receiveFile_eq_ok.mpr ⟨lines, rfl, hCopied⟩⟩

/-- The loop over the clusters returns after as many files as were announced. -/
theorem receiveCluster_loop (hOk : Attempt.loop n (receiveCluster configDir nodeId) h = .ok u h') :
    ∃ sent, sent.length = n ∧ ClusterFiles h.input sent h'.input ∧
      Effect configDir nodeId sent h h' := by
  induction n generalizing h with
  | zero =>
    cases hOk
    exact ⟨[], rfl, .nil, .refl⟩
  | succ n ih =>
    obtain ⟨_, h₁, hCluster, hLoop⟩ := bind_eq_ok.mp hOk
    obtain ⟨line, count, rest, name, lines, hInput, hLine, hCount, hCopied⟩ :=
      receiveCluster_eq_ok.mp hCluster
    obtain ⟨sent, hLength, hFiles, hEffect⟩ := ih hLoop
    refine ⟨(name, lines) :: sent, by simp [hLength], ?_, ?_⟩
    · rw [hInput]
      refine .cons hLine ⟨count, ?_, hCount, hCopied.short⟩ hFiles
      rw [cons_append, ← hCopied.input_eq]
    · have hFirst : Effect configDir nodeId [(name, lines)] h h₁ := hCopied.effect.of_input
      exact hFirst.trans hEffect

theorem receiveCluster_loop_of (configDir : Nat → Str) (nodeId : Nat)
    (hFiles : ClusterFiles input sent rest) (hInput : h.input = input) (hStored : Stored h)
    (hQuiet : Quiet (sent.map fileOps).sum h.replies) :
    ∃ h', Attempt.loop sent.length (receiveCluster configDir nodeId) h = .ok () h' ∧ Stored h' ∧
      h'.input = rest ∧ Effect configDir nodeId sent h h' := by
  induction hFiles generalizing h with
  | nil => exact ⟨h, rfl, hStored, hInput, .refl⟩
  | @cons line name input input' rest lines files hLine hLines _ ih =>
    obtain ⟨count, rfl, hCount, hShort⟩ := hLines
    rw [map_cons, sum_cons, quiet_add] at hQuiet
    obtain ⟨h₁, hCopied, hStored', hInput'⟩ := copied_of (configDir nodeId ++ cStr name)
      (h := { h with input := lines ++ [] :: input' }) hStored rfl hShort hQuiet.1
    have hFirst : Effect configDir nodeId [(name, lines)] h h₁ := hCopied.effect.of_input
    have hReplies : Quiet (files.map fileOps).sum h₁.replies := by
      rw [hFirst.replies]
      exact hQuiet.2
    obtain ⟨h', hLoop, hStored'', hRest, hEffect⟩ := ih hInput' hStored' hReplies
    refine ⟨h', bind_eq_ok.mpr ⟨(), h₁, ?_, hLoop⟩, hStored'', hRest, hFirst.trans hEffect⟩
    exact receiveCluster_eq_ok.mpr ⟨line, count, _, name, lines, hInput, hLine, hCount, hCopied⟩

/-! ## A conversation -/

theorem NumberLine.unique {m : Nat} (hn : NumberLine word line n) (hm : NumberLine word line m) :
    n = m :=
  Option.some.inj (hn.2.1.symm.trans hm.2.1)

theorem NameLine.unique {name' : Str} (hn : NameLine word line name)
    (hn' : NameLine word line name') : name = name' :=
  hn.2.2.2.symm.trans hn'.2.2.2

theorem FileLines.unique {lines lines' rest' : List Str} (hf : FileLines input lines rest)
    (hf' : FileLines input lines' rest') : lines = lines' ∧ rest = rest' := by
  obtain ⟨count, rfl, hCount, -⟩ := hf
  obtain ⟨count', hInput, hCount', -⟩ := hf'
  rw [cons_append, cons_append, List.cons.injEq] at hInput
  obtain ⟨rfl, hInput⟩ := hInput
  obtain ⟨rfl, hRest⟩ := append_inj hInput (hCount.unique hCount')
  exact ⟨rfl, (List.cons.inj hRest).2⟩

theorem ClusterFiles.unique {rest' : List Str} (hc : ClusterFiles input sent rest)
    (hc' : ClusterFiles input sent' rest') (hLength : sent.length = sent'.length) :
    sent = sent' := by
  induction hc generalizing sent' with
  | nil => exact (length_eq_zero_iff.mp hLength.symm).symm
  | @cons line name input input' rest lines files hLine hLines _ ih =>
    rcases hc' with _ | ⟨hLine', hLines', hFiles'⟩
    · cases hLength
    · obtain ⟨rfl, rfl⟩ := hLines.unique hLines'
      rw [hLine.unique hLine', ih hFiles' (Nat.succ.inj hLength)]

/-- The lines say which files there are. -/
theorem Conversation.unique {nodeId nodeId' : Nat} (hc : Conversation input nodeId sent)
    (hc' : Conversation input nodeId' sent') : nodeId = nodeId' ∧ sent = sent' := by
  obtain ⟨config, gridCommon, clusters, input₁, input₂, input₃, rest, ⟨node, number, rfl, hNode,
    hNumber⟩, hConfig, hGridCommon, hClusters, rfl⟩ := hc
  obtain ⟨config', gridCommon', clusters', input₁', input₂', input₃', rest', ⟨node', number',
    hInput, hNode', hNumber'⟩, hConfig', hGridCommon', hClusters', rfl⟩ := hc'
  simp only [List.cons.injEq, true_and] at hInput
  obtain ⟨rfl, rfl, rfl⟩ := hInput
  obtain ⟨rfl, hRest⟩ := hConfig.unique hConfig'
  obtain rfl := (List.cons.inj hRest).2
  obtain ⟨rfl, rfl⟩ := hGridCommon.unique hGridCommon'
  obtain rfl := hClusters.unique hClusters' (hNumber.unique hNumber')
  exact ⟨hNode.unique hNode', rfl⟩

/-- When the conversation comes to its end all announced files were received. -/
theorem copyFiles_eq_ok (hOk : copyFiles configDir h = .ok u h') :
    ∃ nodeId sent, Conversation h.input nodeId sent ∧ Quiet 1 h.replies ∧
      Effect configDir nodeId sent { h with replies := h.replies.drop 1 } h' := by
  unfold copyFiles receiveOthers at hOk
  simp only [bind_eq_ok] at hOk
  obtain ⟨nodeId, h₁, hNode, numClusters, h₂, hNumber, _, h₃, hConfig, numLines, h₄, hCount, _, h₅,
    hMkdir, _, h₆, hFile, _, h₇, hGrid, numLines', h₈, hCount', _, h₉, hFile', hLoop⟩ := hOk
  obtain ⟨node, input₁, hInput, hNodeLine, rfl⟩ := recNumber_eq_ok.mp hNode
  obtain ⟨number, input₂, hInput₁, hNumberLine, rfl⟩ := recNumber_eq_ok.mp hNumber
  obtain rfl : input₁ = number :: input₂ := hInput₁
  obtain ⟨input₃, hInput₂, rfl⟩ := (recSimpleStr_eq_ok (by decide)).mp hConfig
  obtain rfl : input₂ = receiveConfigIniStr :: input₃ := hInput₂
  obtain ⟨count, input₄, hInput₃, hCountLine, rfl⟩ := recNumber_eq_ok.mp hCount
  obtain rfl : input₃ = count :: input₄ := hInput₃
  obtain ⟨hQuiet, rfl⟩ := reply_eq_ok.mp hMkdir
  obtain ⟨config, rfl, hCopied⟩ := receiveFile_eq_ok.mp hFile
  obtain ⟨input₅, hInput₅, rfl⟩ := (recSimpleStr_eq_ok (by decide)).mp hGrid
  obtain ⟨count', input₆, hInput₆, hCountLine', rfl⟩ := recNumber_eq_ok.mp hCount'
  obtain rfl : input₅ = count' :: input₆ := hInput₆
  obtain ⟨gridCommon, rfl, hCopied'⟩ := receiveFile_eq_ok.mp hFile'
  obtain ⟨clusters, rfl, hClusters, hEffect⟩ := receiveCluster_loop hLoop
  refine ⟨nodeId, (configIni, config) :: (gridCommonIni, gridCommon) :: clusters, ?_, hQuiet, ?_⟩
  · have hLines : input₄ = config ++ [] :: h₆.input := hCopied.input_eq
    have hLines' : input₆ = gridCommon ++ [] :: h₉.input := hCopied'.input_eq
    refine ⟨config, gridCommon, clusters, count :: input₄, count' :: input₆, h₉.input, h'.input,
      ⟨node, number, hInput, hNodeLine, hNumberLine⟩, ⟨count, ?_, hCountLine, hCopied.short⟩,
      ⟨count', ?_, hCountLine', hCopied'.short⟩, hClusters, rfl⟩
    · rw [cons_append, ← hInput₅, ← hLines]
    · rw [cons_append, ← hLines']
  · have hFirst : Effect configDir nodeId [(configIni, config)]
        { h with replies := h.replies.drop 1 } h₆ := hCopied.effect.of_input
    have hSecond : Effect configDir nodeId [(gridCommonIni, gridCommon)] h₆ h₉ :=
      Effect.of_input (h := h₆) hCopied'.effect
    exact hFirst.trans (hSecond.trans hEffect)

/-- With the first two files the installation comes to the loop over the clusters. -/
theorem copyFiles_clusters (configDir : Nat → Str) {numClusters : Nat}
    {config gridCommon input₁ input₂ input₃ : List Str}
    (hOpening : Opening h.input nodeId numClusters input₁)
    (hConfig : FileLines input₁ config (receiveGridCommonIniStr :: input₂))
    (hGridCommon : FileLines input₂ gridCommon input₃) (hStored : Stored h)
    (hQuiet : Quiet (1 + (fileOps (configIni, config) + fileOps (gridCommonIni, gridCommon)))
      h.replies) :
    ∃ h₂, copyFiles configDir h = Attempt.loop numClusters (receiveCluster configDir nodeId) h₂ ∧
      Stored h₂ ∧ h₂.input = input₃ ∧
      Effect configDir nodeId [(configIni, config), (gridCommonIni, gridCommon)]
        { h with replies := h.replies.drop 1 } h₂ := by
  obtain ⟨node, number, hInput, hNode, hNumber⟩ := hOpening
  obtain ⟨count, rfl, hCount, hShort⟩ := hConfig
  obtain ⟨count', rfl, hCount', hShort'⟩ := hGridCommon
  rw [quiet_add, quiet_add] at hQuiet
  obtain ⟨hMkdir, hQuiet, hQuiet'⟩ := hQuiet
  obtain ⟨h₁, hCopied, hStored₁, hInput₁⟩ := copied_of (configDir nodeId ++ cStr configIni)
    (h := { h with
      input := config ++ [] :: receiveGridCommonIniStr :: (count' :: gridCommon ++ [] :: input₃)
      replies := h.replies.drop 1 }) hStored rfl hShort hQuiet
  have hFirst : Effect configDir nodeId [(configIni, config)]
      { h with replies := h.replies.drop 1 } h₁ := hCopied.effect.of_input
  have hReplies : Quiet (fileOps (gridCommonIni, gridCommon)) h₁.replies := by
    rw [hFirst.replies]
    exact hQuiet'
  obtain ⟨h₂, hCopied', hStored₂, hInput₂⟩ := copied_of
    (configDir nodeId ++ cStr gridCommonIni)
    (h := { h₁ with input := gridCommon ++ [] :: input₃ }) hStored₁ rfl hShort' hReplies
  have hSecond : Effect configDir nodeId [(gridCommonIni, gridCommon)] h₁ h₂ :=
    Effect.of_input (h := h₁) hCopied'.effect
  refine ⟨h₂, ?_, hStored₂, hInput₂, hFirst.trans hSecond⟩
  have hReply : reply { h with
      input := config ++ [] :: receiveGridCommonIniStr :: (count' :: gridCommon ++ [] :: input₃) } =
      .ok () { h with
        input := config ++ [] :: receiveGridCommonIniStr :: (count' :: gridCommon ++ [] :: input₃)
        replies := h.replies.drop 1 } := reply_eq_ok.mpr ⟨hMkdir, rfl⟩
  unfold copyFiles
  refine (bind_of_ok (recNumber_eq_ok.mpr ⟨node, _, hInput, hNode, rfl⟩)).trans ?_
  refine (bind_of_ok (recNumber_eq_ok.mpr ⟨number, _, rfl, hNumber, rfl⟩)).trans ?_
  refine (bind_of_ok
    ((recSimpleStr_eq_ok (u := ()) (by decide)).mpr ⟨_, rfl, rfl⟩)).trans ?_
  refine (bind_of_ok (recNumber_eq_ok.mpr ⟨count, _, rfl, hCount, rfl⟩)).trans ?_
  refine (bind_of_ok hReply).trans ?_
  refine (bind_of_ok (receiveFile_eq_ok (u := ()).mpr ⟨config, rfl, hCopied⟩)).trans ?_
  unfold receiveOthers
  refine (bind_of_ok
    ((recSimpleStr_eq_ok (u := ()) (by decide)).mpr ⟨_, hInput₁, rfl⟩)).trans ?_
  refine (bind_of_ok (recNumber_eq_ok.mpr ⟨count', _, rfl, hCount', rfl⟩)).trans ?_
  exact bind_of_ok (receiveFile_eq_ok (u := ()).mpr ⟨gridCommon, rfl, hCopied'⟩)

/-- A whole conversation in which no operation fails comes to its end. -/
theorem copyFiles_of (configDir : Nat → Str) (hConversation : Conversation h.input nodeId sent)
    (hStored : Stored h)
    (hQuiet : Quiet (ops sent) h.replies) : ∃ h', copyFiles configDir h = .ok () h' := by
  obtain ⟨config, gridCommon, clusters, input₁, input₂, input₃, rest, hOpening, hConfig,
    hGridCommon, hClusters, rfl⟩ := hConversation
  have hOps : ops ((configIni, config) :: (gridCommonIni, gridCommon) :: clusters) =
      1 + (fileOps (configIni, config) + fileOps (gridCommonIni, gridCommon)) +
        (clusters.map fileOps).sum := by
    simp only [ops, map_cons, sum_cons]
    omega
  rw [hOps, quiet_add] at hQuiet
  obtain ⟨h₂, hCopy, hStored₂, hInput₂, hEffect⟩ :=
    copyFiles_clusters configDir hOpening hConfig hGridCommon hStored hQuiet.1
  have hReplies : Quiet (clusters.map fileOps).sum h₂.replies := by
    rw [hEffect.replies, drop_drop]
    exact hQuiet.2
  obtain ⟨h', hLoop, -⟩ := receiveCluster_loop_of configDir nodeId hClusters hInput₂ hStored₂
    hReplies
  exact ⟨h', hCopy.trans hLoop⟩

/-! ## Failures -/

/-- What reads and operations do not change. -/
structure Steady (inv : Host → Prop) : Prop where
  input : ∀ {h} input, inv h → inv { h with input }
  replies : ∀ {h} replies, inv h → inv { h with replies }

/-- An error code comes with a state in which `inv` holds. -/
def Failed (inv : Host → Prop) (code : Nat) (h : Host) : Prop := code ≠ 0 ∧ inv h

variable {inv : Host → Prop}

theorem reply_after (hs : Steady inv) (hi : inv h) :
    Attempt.After (fun _ => inv) (Failed inv) (reply h) := by
  unfold reply
  match h.replies with
  | [] => exact hi
  | 0 :: replies => exact hs.replies replies hi
  | (code + 1) :: replies => exact ⟨Nat.succ_ne_zero code, hs.replies replies hi⟩

theorem recLine_after (hs : Steady inv) (hi : inv h) :
    Attempt.After (fun _ => inv) (Failed inv) (recLine h) := by
  unfold recLine recWithCr
  match h.input with
  | [] => exact ⟨by decide, hi⟩
  | line :: rest =>
    dsimp only
    split_ifs
    · exact hs.input rest hi
    · exact ⟨by decide, hi⟩

theorem protocolError_after {post : α → Host → Prop} (hi : inv h) :
    Attempt.After post (Failed inv) (Attempt.throw protocolError h) :=
  ⟨by decide, hi⟩

theorem recSimpleStr_after (hs : Steady inv) (hi : inv h) {str : Str} :
    Attempt.After (fun _ => inv) (Failed inv) (recSimpleStr str h) := by
  refine after_bind (recLine_after hs hi) fun line h' hi' => ?_
  split_ifs
  · exact hi'
  · exact protocolError_after hi'

theorem recNumber_after (hs : Steady inv) (hi : inv h) :
    Attempt.After (fun _ => inv) (Failed inv) (recNumber word h) := by
  refine after_bind (recLine_after hs hi) fun line h' hi' => ?_
  cases Protocol.checkBufWithInt line word with
  | none => exact protocolError_after hi'
  | some number =>
    dsimp only
    split_ifs
    · exact protocolError_after hi'
    · exact hi'

theorem recString_after (hs : Steady inv) (hi : inv h) :
    Attempt.After (fun _ => inv) (Failed inv) (recString word h) := by
  refine after_bind (recLine_after hs hi) fun line h' hi' => ?_
  split_ifs
  · exact protocolError_after hi'
  · exact protocolError_after hi'
  · exact hi'

/-- A name is in the array, and `n` files are counted. -/
def Named (n : Nat) (h : Host) : Prop :=
  n ≤ h.numFiles ∧ ∃ slots, Slots h.array slots ∧ slots[0]? = some 0 ∧ 2 ≤ slots.length

theorem steady_named : Steady (Named n) := ⟨fun _ hi => hi, fun _ hi => hi⟩

theorem insertName_after (hn : Named 1 h) {p : Nat} :
    Attempt.After (fun _ => Named 2) (Failed (Named 1)) (insertName p h) := by
  obtain ⟨-, slots, hs, hHead, hLength⟩ := hn
  obtain ⟨array, hInsert, hs', hHead'⟩ := insertPtr_stored hs hHead p
  rw [insertName_eq_ok (u := ()).mpr ⟨array, _, hInsert, rfl⟩]
  refine ⟨hLength, _, hs', hHead', ?_⟩
  rw [length_append]
  exact Nat.le_add_right_of_le hLength

/-- After an error the new name is not counted, and the names before it still are. -/
theorem createFile_after (hn : Named 2 h) :
    Attempt.After (fun _ => Named 1) (Failed (Named 1)) (createFile file h) := by
  unfold createFile
  rcases (reply_after steady_named hn).cases with ⟨_, h₁, hReply, hn₁⟩ | ⟨code, h₁, hReply, hne, hn₁⟩
  · rw [hReply]
    exact ⟨Nat.le_of_succ_le hn₁.1, hn₁.2⟩
  · rw [hReply]
    exact ⟨hne, Nat.le_sub_one_of_lt hn₁.1, hn₁.2⟩

/-- After the creation of a file only its contents change. -/
theorem receiveLines_steady (hs : Steady inv)
    (hFile : ∀ {h} c, inv h → inv { h with files := setFile h.files file c }) (hi : inv h) :
    Attempt.After (fun _ => inv) (Failed inv) (receiveLines file numLines h) := by
  refine after_bind (after_loop ?_ numLines h hi) fun _ h₁ hi₁ =>
    after_bind (recSimpleStr_after hs hi₁) fun _ h₂ hi₂ => reply_after hs hi₂
  intro h hi
  exact after_bind (recLine_after hs hi) fun line h₁ hi₁ =>
    after_bind (reply_after hs hi₁) fun _ h₂ hi₂ => hFile _ hi₂

theorem sendFileOk_steady (hs : Steady inv)
    (hOutput : ∀ {h} output, inv h → inv { h with output }) (hi : inv h) :
    Attempt.After (fun _ => inv) (Failed inv) (sendFileOk h) := by
  have hSend : ∀ {h : Host} line, inv h →
      Attempt.After (fun _ => inv) (Failed inv) (sendWithCr line h) := fun line hi =>
    after_bind (reply_after hs hi) fun _ _ hi₁ => hOutput _ hi₁
  exact after_bind (hSend _ hi) fun _ h₁ hi₁ => hSend _ hi₁

theorem receiveLines_after (hn : Named n h) :
    Attempt.After (fun _ => Named n) (Failed (Named n)) (receiveLines file numLines h) :=
  receiveLines_steady steady_named (fun _ hn => hn) hn

theorem sendFileOk_after (hn : Named n h) :
    Attempt.After (fun _ => Named n) (Failed (Named n)) (sendFileOk h) :=
  sendFileOk_steady steady_named (fun _ hn => hn) hn

theorem receiveFile_after (hn : Named 1 h) :
    Attempt.After (fun _ => Named 1) (Failed (Named 1))
      (receiveFile configDir nodeId name numLines h) := by
  refine after_bind ?_ fun _ h₁ hn₁ => sendFileOk_after hn₁
  refine after_andThen (fun _ => Named 1) (Failed (Named 1)) ?_
    (fun _ _ hn₁ => hn₁) (fun _ _ hn₁ => hn₁)
  have hn' : Named 1 { h with
      next := h.next + 1
      names := fun q => if q = h.next then configDir nodeId ++ cStr name else h.names q } := hn
  exact after_bind (insertName_after hn') fun _ h₁ hn₁ =>
    after_bind (createFile_after hn₁) fun _ h₂ hn₂ => receiveLines_after hn₂

theorem receiveOthers_after (hn : Named 1 h) {numClusters : Nat} :
    Attempt.After (fun _ => Named 1) (Failed (Named 1))
      (receiveOthers configDir nodeId numClusters h) := by
  refine after_bind (recSimpleStr_after steady_named hn) fun _ h₁ hn₁ =>
    after_bind (recNumber_after steady_named hn₁) fun numLines h₂ hn₂ =>
      after_bind (receiveFile_after hn₂) fun _ h₃ hn₃ =>
        after_loop ?_ numClusters h₃ hn₃
  intro h hn
  exact after_bind (recString_after steady_named hn) fun name h₁ hn₁ =>
    after_bind (recNumber_after steady_named hn₁) fun numLines h₂ hn₂ =>
      receiveFile_after hn₂

/-- Nothing was created. -/
structure Fresh (s : Start) (h : Host) : Prop where
  files : h.files = s.files
  numFiles : h.numFiles = 0
  freed : FreedOnce h

/-- Nothing was created, and there is no name in the array yet. -/
def Untouched (s : Start) (h : Host) : Prop :=
  h.files = s.files ∧ h.numFiles = 0 ∧ h.recorded = [] ∧ h.freed = [] ∧ Slots h.array [0]

theorem steady_untouched {s : Start} : Steady (Untouched s) := ⟨fun _ hi => hi, fun _ hi => hi⟩

theorem Untouched.fresh {s : Start} (hu : Untouched s h) : Fresh s h := by
  obtain ⟨hFiles, hNum, hRecorded, -⟩ := hu
  refine ⟨hFiles, hNum, ?_⟩
  unfold FreedOnce
  rw [hRecorded]
  simp

variable {s : Start}

theorem reply_error (hQuiet : ¬Quiet 1 h.replies) :
    ∃ code replies, code ≠ 0 ∧ reply h = .error code { h with replies } := by
  unfold reply
  unfold Quiet at hQuiet
  match hReplies : h.replies with
  | [] =>
    rw [hReplies] at hQuiet
    simp at hQuiet
  | 0 :: replies =>
    rw [hReplies] at hQuiet
    simp at hQuiet
  | (code + 1) :: replies => exact ⟨code + 1, replies, Nat.succ_ne_zero code, rfl⟩

/-- `handle_receive_file` up to the creation of the first file. -/
theorem handleReceiveFile_first (configDir : Nat → Str) (nodeId : Nat) (name : Str)
    (numLines : Nat) (hu : Untouched s h) :
    ∃ h₁, handleReceiveFile configDir name nodeId numLines h =
        andThen
          (createFile (configDir nodeId ++ cStr name) >>= fun _ =>
            receiveLines (configDir nodeId ++ cStr name) numLines)
          (fun h' => { h' with freed := h'.freed ++ [h.next] }) h₁ ∧
      h₁.replies = h.replies ∧ h₁.files = s.files ∧ h₁.numFiles = 1 ∧ h₁.recorded = [h.next] ∧
      h₁.freed = [] ∧ ∃ slots, Slots h₁.array slots ∧ slots[0]? = some 0 ∧ 2 ≤ slots.length := by
  obtain ⟨hFiles, hNum, hRecorded, hFreed, hSlots⟩ := hu
  obtain ⟨array, hInsert, hSlots', hHead'⟩ := insertPtr_stored hSlots rfl h.next
  refine ⟨_, andThen_bind_of_ok
    (insertName_eq_ok (u := ()).mpr ⟨array, 1, hInsert, rfl⟩), rfl, hFiles, rfl, ?_, hFreed,
    [0, h.next], hSlots', rfl, le_rfl⟩
  show h.recorded ++ [h.next] = [h.next]
  rw [hRecorded]
  rfl

/-- When the first file cannot be created nothing was. -/
theorem receiveFile_not_created (configDir : Nat → Str) (nodeId : Nat) (name : Str)
    (numLines : Nat) (hu : Untouched s h) (hQuiet : ¬Quiet 1 h.replies) :
    ∃ code h', receiveFile configDir nodeId name numLines h = .error code h' ∧ code ≠ 0 ∧
      Fresh s h' := by
  obtain ⟨h₁, hEq, hReplies, hFiles, hNum, hRecorded, hFreed, -⟩ :=
    handleReceiveFile_first configDir nodeId name numLines hu
  rw [← hReplies] at hQuiet
  obtain ⟨code, replies, hne, hReply⟩ := reply_error hQuiet
  have hCreate : createFile (configDir nodeId ++ cStr name) h₁ =
      .error code { h₁ with replies, numFiles := h₁.numFiles - 1 } := by
    unfold createFile
    rw [hReply]
  have hFile := hEq.trans (andThen_of_error (bind_of_error hCreate))
  refine ⟨code, _, bind_of_error hFile, hne, hFiles, ?_, ?_⟩
  · show h₁.numFiles - 1 = 0
    rw [hNum]
  · show ∀ p ∈ h₁.recorded, (h₁.freed ++ [h.next]).count p = 1
    rw [hRecorded, hFreed]
    simp

/-- When the first file is created its name stays in the array. -/
theorem receiveFile_created (hu : Untouched s h) (hQuiet : Quiet 1 h.replies) :
    Attempt.After (fun _ => Named 1) (Failed (Named 1))
      (receiveFile configDir nodeId name numLines h) := by
  obtain ⟨h₁, hEq, hReplies, -, hNum, -, -, hSlots⟩ :=
    handleReceiveFile_first configDir nodeId name numLines hu
  rw [← hReplies] at hQuiet
  refine after_bind ?_ fun _ h₂ hn₂ => sendFileOk_after hn₂
  rw [hEq]
  refine after_andThen (fun _ => Named 1) (Failed (Named 1)) ?_
    (fun _ _ hn₁ => hn₁) (fun _ _ hn₁ => hn₁)
  rw [bind_of_ok (createFile_eq_ok (u := ()).mpr ⟨hQuiet, rfl⟩)]
  exact receiveLines_after ⟨hNum.ge, hSlots⟩

theorem untouched_host (hArray : Slots array [0]) : Untouched s (s.host array) :=
  ⟨rfl, rfl, rfl, rfl, hArray⟩

theorem copyFiles_not_created (configDir : Nat → Str) (hArray : Slots array [0])
    (hCreated : ¬Created s) :
    ∃ code h, copyFiles configDir (s.host array) = .error code h ∧ code ≠ 0 ∧ Fresh s h := by
  unfold copyFiles
  rcases (recNumber_after steady_untouched (untouched_host hArray)).cases with
    ⟨nodeId, h₁, hNode, hu⟩ | ⟨code, h₁, hNode, hne, hu⟩
  swap
  · exact ⟨code, h₁, bind_of_error hNode, hne, hu.fresh⟩
  rw [bind_of_ok hNode]
  obtain ⟨node, input₁, hInput, hNodeLine, rfl⟩ := recNumber_eq_ok.mp hNode
  rcases (recNumber_after steady_untouched hu).cases with
    ⟨numClusters, h₂, hNumber, hu₂⟩ | ⟨code, h₂, hNumber, hne, hu₂⟩
  swap
  · exact ⟨code, h₂, bind_of_error hNumber, hne, hu₂.fresh⟩
  rw [bind_of_ok hNumber]
  obtain ⟨number, input₂, hInput₁, hNumberLine, rfl⟩ := recNumber_eq_ok.mp hNumber
  obtain rfl : input₁ = number :: input₂ := hInput₁
  rcases (recSimpleStr_after steady_untouched hu₂).cases with
    ⟨_, h₃, hConfig, hu₃⟩ | ⟨code, h₃, hConfig, hne, hu₃⟩
  swap
  · exact ⟨code, h₃, bind_of_error hConfig, hne, hu₃.fresh⟩
  rw [bind_of_ok hConfig]
  obtain ⟨input₃, hInput₂, rfl⟩ := (recSimpleStr_eq_ok (by decide)).mp hConfig
  obtain rfl : input₂ = receiveConfigIniStr :: input₃ := hInput₂
  rcases (recNumber_after steady_untouched hu₃).cases with
    ⟨numLines, h₄, hCount, hu₄⟩ | ⟨code, h₄, hCount, hne, hu₄⟩
  swap
  · exact ⟨code, h₄, bind_of_error hCount, hne, hu₄.fresh⟩
  rw [bind_of_ok hCount]
  obtain ⟨count, input₄, hInput₃, hCountLine, rfl⟩ := recNumber_eq_ok.mp hCount
  obtain rfl : input₃ = count :: input₄ := hInput₃
  rcases (reply_after steady_untouched hu₄).cases with
    ⟨_, h₅, hMkdir, hu₅⟩ | ⟨code, h₅, hMkdir, hne, hu₅⟩
  swap
  · exact ⟨code, h₅, bind_of_error hMkdir, hne, hu₅.fresh⟩
  rw [bind_of_ok hMkdir]
  obtain ⟨hQuiet, rfl⟩ := reply_eq_ok.mp hMkdir
  -- the directory is there, so it is the file that is not created
  have hFirst : ¬Quiet 1 (s.replies.drop 1) := by
    intro hQuiet'
    exact hCreated ⟨⟨nodeId, numClusters, count, numLines, input₄,
      ⟨node, number, hInput, hNodeLine, hNumberLine⟩, hCountLine⟩, quiet_add (n := 1).mpr
      ⟨hQuiet, hQuiet'⟩⟩
  obtain ⟨code, h', hFile, hne, hFresh⟩ := receiveFile_not_created configDir nodeId configIni
    numLines hu₅ hFirst
  exact ⟨code, h', bind_of_error hFile, hne, hFresh⟩

theorem copyFiles_created (configDir : Nat → Str) (hArray : Slots array [0]) (hCreated : Created s)
    : Attempt.After (fun _ => Named 1) (Failed (Named 1)) (copyFiles configDir (s.host array)) := by
  obtain ⟨⟨nodeId, numClusters, count, numLines, rest, ⟨node, number, hInput, hNode, hNumber⟩,
    hCount⟩, hQuiet⟩ := hCreated
  have hQuiet' := quiet_add (n := 1) (m := 1).mp hQuiet
  unfold copyFiles
  rw [bind_of_ok (recNumber_eq_ok.mpr ⟨node, _, hInput, hNode, rfl⟩),
    bind_of_ok (recNumber_eq_ok.mpr ⟨number, _, rfl, hNumber, rfl⟩),
    bind_of_ok ((recSimpleStr_eq_ok (u := ()) (by decide)).mpr ⟨_, rfl, rfl⟩),
    bind_of_ok (recNumber_eq_ok.mpr ⟨count, _, rfl, hCount, rfl⟩),
    bind_of_ok (reply_eq_ok (u := ()).mpr ⟨hQuiet'.1, rfl⟩)]
  exact after_bind (receiveFile_created (s := s) ⟨rfl, rfl, rfl, rfl, hArray⟩ hQuiet'.2)
    fun _ h₁ hn₁ => receiveOthers_after hn₁

/-- The loop at `error_delete_files` starts with the head of the free list, which is found. -/
theorem deleteFiles_named (hn : Named 1 h) (object : Option Nat) :
    deleteFiles object (List.range h.numFiles) h = none := by
  obtain ⟨hNum, slots, hSlots, hHead, -⟩ := hn
  obtain ⟨n, hn⟩ := Nat.exists_eq_add_of_le' hNum
  have hGet : getPtr h.array 0 = some (0, 0) := by
    have hRead := readPtrArray_slot hSlots hHead
    have hZero : ofBytes (toBytes entrySize 0) = 0 := ofBytes_entry (by decide)
    simp only [getPtr, Nat.zero_mul, Nat.zero_mod, Nat.mul_zero] at hRead ⊢
    simp [hRead, hZero, highestBitSet]
  rw [hn, range_succ_eq_map]
  simp [deleteFiles, hGet]

/-! ## Success -/

theorem foldl_setFile_of_not_mem (key value : α → Str) {sent : List α} {fs : Str → Option Str}
    (hName : name ∉ sent.map key) :
    sent.foldl (fun fs a => setFile fs (key a) (value a)) fs name = fs name := by
  induction sent generalizing fs with
  | nil => rfl
  | cons a sent ih =>
    rw [map_cons, mem_cons, not_or] at hName
    rw [foldl_cons, ih hName.2, setFile_of_ne hName.1]

theorem foldl_setFile_of_mem (key value : α → Str) {sent : List α} {fs : Str → Option Str}
    (hNodup : (sent.map key).Nodup) {a : α} (ha : a ∈ sent) :
    sent.foldl (fun fs a => setFile fs (key a) (value a)) fs (key a) = some (value a) := by
  induction sent generalizing fs with
  | nil => cases ha
  | cons b sent ih =>
    rw [map_cons, nodup_cons] at hNodup
    rw [foldl_cons]
    rcases mem_cons.mp ha with rfl | ha
    · rw [foldl_setFile_of_not_mem key value hNodup.1, setFile_self]
    · exact ih hNodup.2 ha

/-- What a whole transfer leaves, when the files were new. -/
theorem Effect.installed (he : Effect configDir nodeId sent h h') (hFiles : h.files = s.files)
    (hRecorded : h.recorded = []) (hFreed : h.freed = [])
    (hConversation : Conversation s.input nodeId sent)
    (hNodup : (sent.map (path configDir nodeId)).Nodup)
    (hNew : ∀ file ∈ sent, s.files (path configDir nodeId file) = none) :
    Installed configDir s h' := by
  refine ⟨⟨nodeId, sent, hConversation, hNodup, ?_, ?_⟩, ?_⟩
  · intro file hFile
    refine ⟨hNew file hFile, ?_⟩
    rw [he.files]
    exact foldl_setFile_of_mem (path configDir nodeId) (fun file => content file.2) hNodup hFile
  · intro name hName
    rw [he.files, ← hFiles]
    exact foldl_setFile_of_not_mem (path configDir nodeId) (fun file => content file.2) hName
  · intro p hp
    rw [he.recorded, hRecorded, nil_append] at hp
    rw [he.freed, hFreed, nil_append]
    exact count_eq_one_of_mem (nodup_range' 1 (by decide)) hp

theorem stored_host (hArray : Slots array [0]) : Stored (s.host array) :=
  ⟨[0], hArray, rfl⟩

theorem handleCopyClusterServerFiles_eq (configDir : Nat → Str) (s : Start) :
    ∃ array, Slots array [0] ∧ handleCopyClusterServerFiles configDir s =
      match copyFiles configDir (s.host array) with
      | .ok _ h => some (0, h)
      | .error code h => do
        let h ← deleteFiles none (List.range h.numFiles) h
        some (code, { h with output := h.output ++ [errorStr, getErrorMessage code, []] })
      | .abort => none := by
  obtain ⟨array, hCreate, hInv⟩ := createPtrArray_spec
  refine ⟨array, hInv.stored, ?_⟩
  unfold handleCopyClusterServerFiles
  rw [hCreate]
  rfl

/-- Once a file was created, the program goes on to the end or stops. -/
theorem complete_of_created (hCreated : Created s) (hAtomic : Atomic configDir s) :
    Complete configDir s := by
  obtain ⟨array, hArray, hRun⟩ := handleCopyClusterServerFiles_eq configDir s
  obtain ⟨code, h, hHandle, hAtomic⟩ := hAtomic
  rw [hRun] at hHandle
  rcases (copyFiles_created configDir hArray hCreated).cases with
    ⟨_, h₁, hOk, -⟩ | ⟨code₁, h₁, hError, -, hNamed⟩
  · rw [hOk] at hHandle
    cases hHandle
    rw [if_pos rfl] at hAtomic
    obtain ⟨⟨nodeId, sent, hConversation, hNodup, hFiles, -⟩, -⟩ := hAtomic
    obtain ⟨nodeId', sent', hConversation', hQuiet, hEffect⟩ := copyFiles_eq_ok hOk
    obtain ⟨rfl, rfl⟩ := hConversation.unique hConversation'
    exact ⟨nodeId, sent, hConversation, quiet_add.mpr ⟨hQuiet, hEffect.quiet⟩, hNodup,
      fun file hFile => (hFiles file hFile).1⟩
  · -- the clean-up stops the program
    rw [hError] at hHandle
    dsimp only at hHandle
    rw [deleteFiles_named hNamed] at hHandle
    cases hHandle

/-- The installation is atomic if and only if it fails before a file is created, or if nothing
fails and all files are new. -/
theorem copy_files_iff (configDir : Nat → Str) (s : Start) :
    Atomic configDir s ↔ ¬Created s ∨ Complete configDir s := by
  obtain ⟨array, hArray, hRun⟩ := handleCopyClusterServerFiles_eq configDir s
  constructor
  · intro hAtomic
    rw [or_iff_not_imp_left, not_not]
    exact fun hCreated => complete_of_created hCreated hAtomic
  · rintro (hCreated | ⟨nodeId, sent, hConversation, hQuiet, hNodup, hNew⟩)
    · obtain ⟨code, h, hError, hne, hFresh⟩ :=
        copyFiles_not_created configDir hArray hCreated
      rw [hError] at hRun
      dsimp only at hRun
      rw [hFresh.numFiles] at hRun
      refine ⟨code, _, hRun, ?_⟩
      rw [if_neg hne]
      exact ⟨hFresh.files, hFresh.freed, h.output, _, rfl⟩
    · obtain ⟨h, hOk⟩ := copyFiles_of configDir (h := s.host array) hConversation
        (stored_host hArray) hQuiet
      obtain ⟨nodeId', sent', hConversation', -, hEffect⟩ := copyFiles_eq_ok hOk
      obtain ⟨rfl, rfl⟩ := hConversation.unique hConversation'
      rw [hOk] at hRun
      refine ⟨0, h, hRun, ?_⟩
      rw [if_pos rfl]
      exact hEffect.installed rfl rfl rfl hConversation hNodup hNew

/-- The peer goes away when the first file was created. -/
theorem copy_broken_off :
    ¬Atomic (fun _ => ascii "/config/")
      ⟨[ascii "cluster server node id: 1", ascii "number of clusters: 0", receiveConfigIniStr,
        ascii "number of lines: 1"], fun _ => none, []⟩ := by
  intro hAtomic
  have hCreated : Created ⟨[ascii "cluster server node id: 1", ascii "number of clusters: 0",
      receiveConfigIniStr, ascii "number of lines: 1"], fun _ => none, []⟩ :=
    ⟨⟨1, 0, _, 1, [], ⟨_, _, rfl, ⟨by decide, by decide, by decide⟩, by decide, by decide, by decide⟩,
      by decide, by decide, by decide⟩, by simp [Quiet]⟩
  obtain ⟨nodeId, sent, ⟨config, gridCommon, clusters, input₁, input₂, input₃, rest,
    ⟨node, number, hInput, -⟩, ⟨count, rfl, -⟩, -⟩, -⟩ := complete_of_created hCreated hAtomic
  simp at hInput

end IClaustron.Pcntrl.CopyFiles
